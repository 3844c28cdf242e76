import EspPassthrough.Utils

/-! The strings `parse_mac_address` accepts. Its format is the one of the header
only as far as `%x` goes, which leaves room around the digits and in their number. -/

namespace EspPassthrough

open CText

/-- `XX:XX:XX:XX:XX:XX` and nothing else. -/
def MacColons (v : List UInt8) : Prop := macRegex v = true ∧ 45 ∉ v

/-- Numbers as `%x` reads them, all but the last one with a colon right after it. -/
def HexGroups : Nat → List UInt8 → Prop
  | 0, s => ∃ rest, ReadsHex s rest
  | n + 1, s => ∃ rest, ReadsHex s (58 :: rest) ∧ HexGroups n rest

structure MacContract (str : List UInt8) (mac : Vector UInt8 6) : Prop where
  accepts : (parseMacAddress str mac).1 = true ↔ MacColons (cstr str)
  value : (parseMacAddress str mac).1 = true →
    (parseMacAddress str mac).2.toList = macBytes 5 (cstr str)
  unchanged : (parseMacAddress str mac).1 = false → (parseMacAddress str mac).2 = mac

theorem sscanf_hexGroups {n : Nat} {s : List UInt8} :
    (sscanf (macFormat n) s).length = n + 1 ↔ HexGroups n s := by
  induction n generalizing s with
  | zero =>
    simp only [HexGroups, ← scanHex_iff]
    cases hs : scanHex s with
    | none => simp [macFormat, sscanf, hs]
    | some r =>
      obtain ⟨v, rest⟩ := r
      simp [macFormat, sscanf, hs]
  | succ n ih =>
    simp only [HexGroups, ← scanHex_iff]
    cases hs : scanHex s with
    | none => simp [macFormat, sscanf, hs]
    | some r =>
      obtain ⟨v, rest⟩ := r
      rcases rest with _ | ⟨c, rest⟩
      · simp [macFormat, sscanf, hs]
      · by_cases hc : 58 = c
        · simpa [macFormat, sscanf, hs, hc] using ih
        · simp [macFormat, sscanf, hs, hc, Ne.symm hc]

theorem parseMacAddress_iff {str : List UInt8} {mac : Vector UInt8 6} :
    (parseMacAddress str mac).1 = true ↔ HexGroups 5 (cstr str) := by
  rw [← sscanf_hexGroups]
  unfold parseMacAddress
  split
  case h_1 hs => simp [hs]
  case h_2 hs =>
    refine iff_of_false (by simp) fun hlen => ?_
    match hm : sscanf (macFormat 5) (cstr str), hlen with
    | [b₀, b₁, b₂, b₃, b₄, b₅], _ => exact hs b₀ b₁ b₂ b₃ b₄ b₅ hm

theorem parseMacAddress_unchanged {str : List UInt8} {mac : Vector UInt8 6}
    (h : (parseMacAddress str mac).1 = false) : (parseMacAddress str mac).2 = mac := by
  unfold parseMacAddress at h ⊢
  split at h
  · cases h
  · rfl

/-- The function does what its header says on a string exactly when numbers with
colons between them that `%x` would take from it are in the header's format. -/
theorem mac_contract_iff (str : List UInt8) (mac : Vector UInt8 6) :
    MacContract str mac ↔ (HexGroups 5 (cstr str) → MacColons (cstr str)) := by
  constructor
  · intro h hgroups
    exact h.accepts.mp (parseMacAddress_iff.mpr hgroups)
  · intro h
    -- in the header's format the function is right in any case
    have hfound : MacColons (cstr str) → (parseMacAddress str mac).1 = true ∧
        (parseMacAddress str mac).2.toList = macBytes 5 (cstr str) := by
      rintro ⟨hregex, h45⟩
      have hsame : parseMacAddress str mac = parseMacAddress (cstr str ++ 0 :: []) mac := by
        unfold parseMacAddress
        rw [cstr_of_no_null (cstr_no_null str)]
      rw [hsame]
      exact (parseMacAddress_of_macRegex hregex [] mac).1 h45
    have haccepts : (parseMacAddress str mac).1 = true ↔ MacColons (cstr str) :=
      ⟨fun hr => h (parseMacAddress_iff.mp hr), fun hm => (hfound hm).1⟩
    exact ⟨haccepts, fun hr => (hfound (haccepts.mp hr)).2, parseMacAddress_unchanged⟩

theorem lax_mac_accepted :
    ∃ str, parseMacAddress str (Vector.replicate 6 0) = (true, #v[0, 0xff, 10, 11, 12, 13]) ∧
      cstr str = ascii "100:-1: 0xA:b:c:dxyz" ∧ ¬MacContract str (Vector.replicate 6 0) := by
  refine ⟨ascii "100:-1: 0xA:b:c:dxyz" ++ [0], by decide +kernel, by decide +kernel, fun h => ?_⟩
  have hcolons := h.accepts.mp (by decide +kernel)
  exact absurd hcolons.1 (by decide +kernel)

end EspPassthrough
