import EspPassthrough.CText

/-! Form data over bytes: percent-and-plus coding, and key-value pairs. -/

namespace FormEncoding

open CText

/-- The unbounded decoding: an escape needs two hexadecimal digits after `%`. -/
def percentDecode : List UInt8 → List UInt8
  | [] => []
  | c :: src =>
    match c, src with
    | 37, a :: b :: src =>
      if isXDigit a = true ∧ isXDigit b = true then hexByte a b :: percentDecode src
      else 37 :: percentDecode (a :: b :: src)
    | c, src => (if c = 43 then 32 else c) :: percentDecode src

/-- `e` spells the bytes of `s` one by one: as themselves, as `+` for a space,
or as an escape with digits of either case. -/
inductive Encodes : List UInt8 → List UInt8 → Prop where
  | nil : Encodes [] []
  | literal {c : UInt8} {s e : List UInt8} (h0 : c ≠ 0) (hpercent : c ≠ 37) (hplus : c ≠ 43)
      (h : Encodes s e) : Encodes (c :: s) (c :: e)
  | space {s e : List UInt8} (h : Encodes s e) : Encodes (32 :: s) (43 :: e)
  | escape {a b : UInt8} {s e : List UInt8} (h0 : hexByte a b ≠ 0) (ha : isXDigit a = true)
      (hb : isXDigit b = true) (h : Encodes s e) : Encodes (hexByte a b :: s) (37 :: a :: b :: e)

theorem percentDecode_literal {c : UInt8} (hc : c ≠ 37) (src : List UInt8) :
    percentDecode (c :: src) = (if c = 43 then 32 else c) :: percentDecode src := by
  rw [percentDecode]
  intro a b rest he
  exact absurd he hc

theorem percentDecode_escape {a b : UInt8} (ha : isXDigit a = true) (hb : isXDigit b = true)
    (src : List UInt8) : percentDecode (37 :: a :: b :: src) = hexByte a b :: percentDecode src := by
  rw [percentDecode]
  simp [ha, hb]

theorem percentDecode_percent {src : List UInt8}
    (h : ∀ a b rest, src = a :: b :: rest → ¬(isXDigit a = true ∧ isXDigit b = true)) :
    percentDecode (37 :: src) = 37 :: percentDecode src := by
  rcases src with _ | ⟨a, _ | ⟨b, rest⟩⟩
  · rfl
  · rfl
  · rw [percentDecode, if_neg (h a b rest rfl)]

theorem percentDecode_encodes {s e : List UInt8} (h : Encodes s e) : percentDecode e = s := by
  induction h with
  | nil => rfl
  | literal _ hpercent hplus _ ih => rw [percentDecode_literal hpercent, if_neg hplus, ih]
  | space _ ih => rw [percentDecode_literal (by decide), if_pos rfl, ih]
  | escape _ ha hb _ ih => rw [percentDecode_escape ha hb, ih]

theorem Encodes.no_null {s e : List UInt8} (h : Encodes s e) :
    (∀ c ∈ s, c ≠ 0) ∧ ∀ c ∈ e, c ≠ 0 := by
  induction h with
  | nil => simp
  | literal h0 _ _ _ ih => simpa [h0] using ih
  | space _ ih => simpa using ih
  | escape h0 ha hb _ ih =>
    obtain ⟨_, _, _, _, _, _, ha0⟩ := isXDigit_cases ha
    obtain ⟨_, _, _, _, _, _, hb0⟩ := isXDigit_cases hb
    simpa [h0, ha0, hb0] using ih

theorem Encodes.length_le {s e : List UInt8} (h : Encodes s e) :
    s.length ≤ e.length ∧ e.length ≤ 3 * s.length := by
  induction h with
  | nil => simp
  | literal _ _ _ _ ih | space _ ih | escape _ _ _ _ ih =>
    simp only [List.length_cons]
    omega

/-! The spelling a browser chooses: letters, digits and `* - . _` as themselves. -/

def isUnreserved (c : UInt8) : Bool :=
  (48 ≤ c && c ≤ 57) || (65 ≤ c && c ≤ 90) || (97 ≤ c && c ≤ 122) ||
    c == 42 || c == 45 || c == 46 || c == 95

def hexUpper (n : Nat) : UInt8 := UInt8.ofNat (if n < 10 then 48 + n else 55 + n)

def formEncodeByte (c : UInt8) : List UInt8 :=
  if isUnreserved c then [c]
  else if c = 32 then [43]
  else [37, hexUpper (c.toNat / 16), hexUpper (c.toNat % 16)]

def formEncode (s : List UInt8) : List UInt8 := s.flatMap formEncodeByte

theorem hexUpper_spec (c : UInt8) :
    isXDigit (hexUpper (c.toNat / 16)) = true ∧ isXDigit (hexUpper (c.toNat % 16)) = true ∧
      hexByte (hexUpper (c.toNat / 16)) (hexUpper (c.toNat % 16)) = c :=
  forall_byte (p := fun c => isXDigit (hexUpper (c.toNat / 16)) = true ∧
    isXDigit (hexUpper (c.toNat % 16)) = true ∧
      hexByte (hexUpper (c.toNat / 16)) (hexUpper (c.toNat % 16)) = c) (by decide +kernel) c

theorem isUnreserved_ne {c : UInt8} (h : isUnreserved c = true) :
    c ≠ 37 ∧ c ≠ 43 ∧ c ≠ 38 ∧ c ≠ 61 := by
  revert h
  exact forall_byte (p := fun c => isUnreserved c = true → c ≠ 37 ∧ c ≠ 43 ∧ c ≠ 38 ∧ c ≠ 61)
    (by decide +kernel) c

theorem isXDigit_ne {c : UInt8} (h : isXDigit c = true) : c ≠ 38 ∧ c ≠ 61 := by
  revert h
  exact forall_byte (p := fun c => isXDigit c = true → c ≠ 38 ∧ c ≠ 61) (by decide +kernel) c

theorem Encodes.no_ampersand {s e : List UInt8} (h : Encodes s e) (hs : 38 ∉ s) : 38 ∉ e := by
  induction h with
  | nil => exact hs
  | literal _ _ _ _ ih =>
    rw [List.mem_cons, not_or] at hs ⊢
    exact ⟨hs.1, ih hs.2⟩
  | space _ ih =>
    rw [List.mem_cons, not_or] at hs ⊢
    exact ⟨by decide, ih hs.2⟩
  | escape _ ha hb _ ih =>
    have ha38 := (isXDigit_ne ha).1
    have hb38 := (isXDigit_ne hb).1
    simp only [List.mem_cons, not_or] at hs ⊢
    exact ⟨by decide, Ne.symm ha38, Ne.symm hb38, ih hs.2⟩

theorem formEncode_encodes {s : List UInt8} (h : ∀ c ∈ s, c ≠ 0) : Encodes s (formEncode s) := by
  induction s with
  | nil => exact .nil
  | cons c s ih =>
    have hs := ih fun x hx => h x (List.mem_cons_of_mem c hx)
    have hc := h c List.mem_cons_self
    rw [formEncode, List.flatMap_cons, formEncodeByte]
    by_cases hu : isUnreserved c = true
    · rw [if_pos hu]
      obtain ⟨hpercent, hplus, _⟩ := isUnreserved_ne hu
      exact .literal hc hpercent hplus hs
    · by_cases hsp : c = 32
      · subst hsp
        rw [if_neg hu, if_pos rfl]
        exact .space hs
      · rw [if_neg hu, if_neg hsp]
        obtain ⟨h1, h2, he⟩ := hexUpper_spec c
        have hesc := Encodes.escape (a := hexUpper (c.toNat / 16)) (b := hexUpper (c.toNat % 16))
          (by rw [he]; exact hc) h1 h2 hs
        rwa [he] at hesc

theorem formEncode_no_separator (s : List UInt8) : ∀ c ∈ formEncode s, c ≠ 38 ∧ c ≠ 61 := by
  intro c hc
  obtain ⟨d, _, hd⟩ := List.mem_flatMap.mp hc
  obtain ⟨h1, h2, _⟩ := hexUpper_spec d
  by_cases hu : isUnreserved d = true
  · obtain rfl : c = d := by simpa [formEncodeByte, hu] using hd
    exact (isUnreserved_ne hu).2.2
  · by_cases hsp : d = 32
    · rw [formEncodeByte, if_neg hu, if_pos hsp] at hd
      obtain rfl : c = 43 := by simpa using hd
      decide
    · have hmem : c = 37 ∨ c = hexUpper (d.toNat / 16) ∨ c = hexUpper (d.toNat % 16) := by
        simpa [formEncodeByte, hu, hsp] using hd
      rcases hmem with rfl | rfl | rfl
      · decide
      · exact isXDigit_ne h1
      · exact isXDigit_ne h2

/-! Key-value pairs: `&` separates them, the first `=` ends the key. -/

def splitPair (pair : List UInt8) : Option (List UInt8 × List UInt8) :=
  if 61 ∈ pair then some (pair.takeWhile (· ≠ 61), (pair.dropWhile (· ≠ 61)).tail) else none

/-- The raw value of the first pair with the given key. -/
def rawValue (query key : List UInt8) : Option (List UInt8) :=
  ((query.splitOn 38).filterMap splitPair).lookup key

def formBody (pairs : List (List UInt8 × List UInt8)) : List UInt8 :=
  [38].intercalate (pairs.map fun p => p.1 ++ 61 :: p.2)

theorem splitPair_pair {key value : List UInt8} (h : 61 ∉ key) :
    splitPair (key ++ 61 :: value) = some (key, value) := by
  have hp : ∀ c ∈ key, (decide (c ≠ 61)) = true := fun c hc => by
    simpa using fun he : c = 61 => h (he ▸ hc)
  rw [splitPair, if_pos (by simp), List.takeWhile_append_of_pos hp,
    List.dropWhile_append_of_pos hp]
  simp

theorem rawValue_formBody {pairs : List (List UInt8 × List UInt8)}
    (h : ∀ p ∈ pairs, 38 ∉ p.1 ∧ 61 ∉ p.1 ∧ 38 ∉ p.2) (hne : pairs ≠ []) (key : List UInt8) :
    rawValue (formBody pairs) key = pairs.lookup key := by
  have hsplit : (formBody pairs).splitOn 38 = pairs.map fun p => p.1 ++ 61 :: p.2 := by
    refine List.splitOn_intercalate _ (fun l hl => ?_) (by simpa using hne)
    obtain ⟨p, hp, rfl⟩ := List.mem_map.mp hl
    obtain ⟨hk, _, hv⟩ := h p hp
    simp [hk, hv]
  have hpairs : (pairs.map fun p => p.1 ++ 61 :: p.2).filterMap splitPair = pairs := by
    clear hsplit hne
    induction pairs with
    | nil => rfl
    | cons p pairs ih =>
      have hp := @splitPair_pair p.1 p.2 (h p List.mem_cons_self).2.1
      rw [List.map_cons, List.filterMap_cons_some hp, ih fun q hq => h q (List.mem_cons_of_mem p hq)]
  rw [rawValue, hsplit, hpairs]

theorem mem_of_mem_intercalate {sep c : UInt8} {ls : List (List UInt8)}
    (hc : c ∈ [sep].intercalate ls) : c = sep ∨ ∃ l ∈ ls, c ∈ l := by
  induction ls with
  | nil => cases hc
  | cons k ls ih =>
    rcases ls with _ | ⟨m, ls⟩
    · exact Or.inr ⟨k, List.mem_cons_self, by simpa using hc⟩
    · rw [List.intercalate_cons_cons, List.mem_append, List.mem_append, List.mem_singleton] at hc
      rcases hc with (hk | hs) | hrest
      · exact Or.inr ⟨k, List.mem_cons_self, hk⟩
      · exact Or.inl hs
      · rcases ih hrest with hs | ⟨l, hl, hcl⟩
        · exact Or.inl hs
        · exact Or.inr ⟨l, List.mem_cons_of_mem k hl, hcl⟩

theorem formBody_length {pairs : List (List UInt8 × List UInt8)} (hne : pairs ≠ []) :
    (formBody pairs).length + 1 = (pairs.map fun p => p.1.length + p.2.length + 2).sum := by
  rw [formBody]
  induction pairs with
  | nil => exact absurd rfl hne
  | cons p pairs ih =>
    rcases pairs with _ | ⟨q, pairs⟩
    · simp only [List.map_cons, List.map_nil, List.intercalate_singleton, List.length_append,
        List.length_cons, List.sum_cons, List.sum_nil]
      omega
    · have hrest := ih (by simp)
      simp only [List.map_cons, List.sum_cons] at hrest ⊢
      rw [List.intercalate_cons_cons]
      simp only [List.length_append, List.length_cons, List.length_nil]
      omega

theorem formBody_no_null {pairs : List (List UInt8 × List UInt8)}
    (h : ∀ p ∈ pairs, 0 ∉ p.1 ∧ 0 ∉ p.2) : ∀ c ∈ formBody pairs, c ≠ 0 := by
  rintro c hc rfl
  rcases mem_of_mem_intercalate hc with h0 | ⟨l, hl, h0⟩
  · exact absurd h0 (by decide)
  · obtain ⟨p, hp, rfl⟩ := List.mem_map.mp hl
    obtain ⟨hkey, hvalue⟩ := h p hp
    simp [hkey, hvalue] at h0

theorem mem_intercalate (sep : UInt8) {l : List UInt8} {ls : List (List UInt8)} (hl : l ∈ ls)
    {c : UInt8} (hc : c ∈ l) : c ∈ [sep].intercalate ls := by
  induction ls with
  | nil => cases hl
  | cons k ls ih =>
    rcases ls with _ | ⟨m, ls⟩
    · obtain rfl : l = k := by simpa using hl
      simpa using hc
    · rw [List.intercalate_cons_cons, List.mem_append, List.mem_append]
      rcases List.mem_cons.mp hl with rfl | hl
      · exact Or.inl (Or.inl hc)
      · exact Or.inr (ih hl)

theorem mem_of_lookup {key value : List UInt8} {pairs : List (List UInt8 × List UInt8)}
    (h : pairs.lookup key = some value) : (key, value) ∈ pairs := by
  induction pairs with
  | nil => simp at h
  | cons p pairs ih =>
    obtain ⟨k, v⟩ := p
    rw [List.lookup_cons] at h
    split at h
    · rename_i hk
      obtain rfl : key = k := by simpa using hk
      obtain rfl : v = value := by simpa using h
      exact List.mem_cons_self
    · exact List.mem_cons_of_mem _ (ih h)

theorem mem_of_mem_rawValue {query key value : List UInt8} (h : rawValue query key = some value)
    {c : UInt8} (hc : c ∈ value) : c ∈ query := by
  obtain ⟨pair, hpair, hs⟩ := List.mem_filterMap.mp (mem_of_lookup h)
  have hv : value = (pair.dropWhile (· ≠ 61)).tail := by
    by_cases hm : 61 ∈ pair
    · rw [splitPair, if_pos hm] at hs
      exact (Prod.mk.inj (Option.some.inj hs)).2.symm
    · simp [splitPair, hm] at hs
  have hmem : c ∈ pair := by
    rw [hv] at hc
    exact (List.dropWhile_suffix _).subset (List.mem_of_mem_tail hc)
  have hall := mem_intercalate 38 hpair hmem
  rwa [List.intercalate_splitOn] at hall

end FormEncoding
