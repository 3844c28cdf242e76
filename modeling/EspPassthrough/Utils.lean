import EspPassthrough.FormEncoding

/-! `utils.c`: the bounded URL decoder and the MAC address parser. `none` is an
access outside the block a pointer was given with; `char` is unsigned. -/

namespace EspPassthrough

open CText FormEncoding

/-- `isxdigit` characters to their value, by the folds on `a` and `b`. -/
def hexFold (a : UInt8) : UInt8 :=
  let a := if a ≥ 97 then a - 32 else a
  if a ≥ 65 then a - 55 else a - 48

/-- The condition of the first branch and the byte it stores; `src` is what
follows `*src`. The second character is looked at only if the first is no null. -/
def escape (c : UInt8) (src : List UInt8) : Option (Option UInt8) :=
  if c = 37 then
    match src with
    | [] => none
    | a :: src =>
      if a = 0 then some none
      else
        match src with
        | [] => none
        | b :: _ =>
          if b ≠ 0 ∧ isXDigit a = true ∧ isXDigit b = true then
            some (some (16 * hexFold a + hexFold b))
          else some none
  else some none

def store (dst : List UInt8) (i : Nat) (c : UInt8) : Option (List UInt8) :=
  if i < dst.length then some (dst.set i c) else none

def writeAt (buf : List UInt8) (i : Nat) (data : List UInt8) : Option (List UInt8) :=
  if i + data.length ≤ buf.length then some (buf.take i ++ data ++ buf.drop (i + data.length))
  else none

def urlDecodeLoop (maxWritten : Nat) : List UInt8 → List UInt8 → Nat → Option (List UInt8)
  | [], _, _ => none
  | c :: src, dst, written =>
    if c = 0 ∨ maxWritten ≤ written then store dst written 0
    else
      match escape c src, src with
      | none, _ => none
      | some (some v), _ :: _ :: src =>
        (store dst written v).bind fun dst => urlDecodeLoop maxWritten src dst (written + 1)
      | some _, src =>
        (store dst written (if c = 43 then 32 else c)).bind fun dst =>
          urlDecodeLoop maxWritten src dst (written + 1)

/-- `dst` after the call; `dst_len - 1` is taken in `size_t`. -/
def urlDecode (dst src : List UInt8) (dstLen : UInt32) : Option (List UInt8) :=
  urlDecodeLoop (dstLen - 1).toNat src dst 0

def macFormat : Nat → List Directive
  | 0 => [.hex]
  | n + 1 => .hex :: .lit 58 :: macFormat n

/-- The result and `mac` after the call. -/
def parseMacAddress (str : List UInt8) (mac : Vector UInt8 6) : Bool × Vector UInt8 6 :=
  match sscanf (macFormat 5) (cstr str) with
  | [b₀, b₁, b₂, b₃, b₄, b₅] =>
    (true, #v[b₀.toUInt8, b₁.toUInt8, b₂.toUInt8, b₃.toUInt8, b₄.toUInt8, b₅.toUInt8])
  | _ => (false, mac)

theorem hexFold_eq {a b : UInt8} (ha : isXDigit a = true) (hb : isXDigit b = true) :
    16 * hexFold a + hexFold b = hexByte a b := by
  have hv : ∀ c : UInt8, isXDigit c = true → hexFold c = UInt8.ofNat (hexVal c) := fun c =>
    forall_byte (p := fun c => isXDigit c = true → hexFold c = UInt8.ofNat (hexVal c))
      (by decide +kernel) c
  rw [hv a ha, hv b hb, hexByte]
  simp

theorem store_append {pre post : List UInt8} {x : UInt8} (c : UInt8) :
    store (pre ++ x :: post) pre.length c = some (pre ++ c :: post) := by
  simp [store]

theorem writeAt_append {pre mid post data : List UInt8} (h : data.length = mid.length) :
    writeAt (pre ++ (mid ++ post)) pre.length data = some (pre ++ data ++ post) := by
  have hle : pre.length + data.length ≤ (pre ++ (mid ++ post)).length := by
    simp only [List.length_append]
    omega
  have hdrop : (pre ++ (mid ++ post)).drop (pre.length + data.length) = post := by
    rw [List.drop_length_add_append, h, List.drop_left]
  rw [writeAt, if_pos hle, List.take_left, hdrop]

theorem urlDecodeLoop_stop {maxWritten written : Nat} {c : UInt8} (h : c = 0 ∨ maxWritten ≤ written)
    (src dst : List UInt8) :
    urlDecodeLoop maxWritten (c :: src) dst written = store dst written 0 := by
  unfold urlDecodeLoop
  rw [if_pos h]

theorem urlDecodeLoop_plain {maxWritten written : Nat} {c : UInt8} {src : List UInt8}
    (h : ¬(c = 0 ∨ maxWritten ≤ written)) (he : escape c src = some none) (dst : List UInt8) :
    urlDecodeLoop maxWritten (c :: src) dst written =
      (store dst written (if c = 43 then 32 else c)).bind fun dst =>
        urlDecodeLoop maxWritten src dst (written + 1) := by
  conv_lhs => unfold urlDecodeLoop
  rw [if_neg h, he]

theorem urlDecodeLoop_escape {maxWritten written : Nat} {c a b v : UInt8} {src : List UInt8}
    (h : ¬(c = 0 ∨ maxWritten ≤ written)) (he : escape c (a :: b :: src) = some (some v))
    (dst : List UInt8) :
    urlDecodeLoop maxWritten (c :: a :: b :: src) dst written =
      (store dst written v).bind fun dst => urlDecodeLoop maxWritten src dst (written + 1) := by
  conv_lhs => unfold urlDecodeLoop
  rw [if_neg h, he]

theorem escape_percent {src : List UInt8} (hsrc : ∀ c ∈ src, c ≠ 0) (junk : List UInt8) :
    (∃ a b rest, src = a :: b :: rest ∧ isXDigit a = true ∧ isXDigit b = true ∧
      escape 37 (src ++ 0 :: junk) = some (some (hexByte a b))) ∨
    ((∀ a b rest, src = a :: b :: rest → ¬(isXDigit a = true ∧ isXDigit b = true)) ∧
      escape 37 (src ++ 0 :: junk) = some none) := by
  rcases src with _ | ⟨a, _ | ⟨b, rest⟩⟩
  · exact Or.inr ⟨by simp, by simp [escape]⟩
  · have ha := hsrc a List.mem_cons_self
    exact Or.inr ⟨by simp, by simp [escape, ha]⟩
  · have ha := hsrc a List.mem_cons_self
    have hb := hsrc b (List.mem_cons_of_mem a List.mem_cons_self)
    by_cases hx : isXDigit a = true ∧ isXDigit b = true
    · obtain ⟨hxa, hxb⟩ := hx
      have he := hexFold_eq hxa hxb
      exact Or.inl ⟨a, b, rest, rfl, hxa, hxb, by simp [escape, ha, hb, hxa, hxb, he]⟩
    · refine Or.inr ⟨fun a' b' rest' h => ?_, ?_⟩
      · obtain ⟨rfl, rfl, rfl⟩ : a = a' ∧ b = b' ∧ rest = rest' := by simpa using h
        exact hx
      · simp [escape, ha, hb, hx]

/-- The loop from any point: `pre` is written, and what is left of the source
fills the block from there until `maxWritten`, with a null after it. -/
theorem urlDecodeLoop_spec {maxWritten : Nat} {src junk : List UInt8} (hsrc : ∀ c ∈ src, c ≠ 0)
    {pre post : List UInt8} (hpre : pre.length ≤ maxWritten)
    (hpost : maxWritten < pre.length + post.length) :
    urlDecodeLoop maxWritten (src ++ 0 :: junk) (pre ++ post) pre.length =
      some (pre ++ (percentDecode src).take (maxWritten - pre.length) ++
        0 :: post.drop (((percentDecode src).take (maxWritten - pre.length)).length + 1)) := by
  induction hn : src.length using Nat.strong_induction_on generalizing src pre post with
  | _ n ih =>
    obtain ⟨x, post, rfl⟩ : ∃ x rest, post = x :: rest :=
      List.exists_cons_of_length_pos (by omega)
    rcases src with _ | ⟨c, src⟩
    · rw [List.nil_append, urlDecodeLoop_stop (Or.inl rfl), store_append]
      simp [percentDecode]
    have hc := hsrc c List.mem_cons_self
    have hrest : ∀ d ∈ src, d ≠ 0 := fun d hd => hsrc d (List.mem_cons_of_mem c hd)
    by_cases hfull : maxWritten ≤ pre.length
    · rw [List.cons_append, urlDecodeLoop_stop (Or.inr hfull), store_append,
        Nat.sub_eq_zero_of_le hfull]
      simp
    have hgo : ¬(c = 0 ∨ maxWritten ≤ pre.length) := by simp [hc, hfull]
    obtain ⟨m, hm⟩ : ∃ m, maxWritten - pre.length = m + 1 :=
      ⟨maxWritten - pre.length - 1, by omega⟩
    -- one more byte `v` written, and the loop goes on at `src'`
    have hnext : ∀ (v : UInt8) (src' : List UInt8), src'.length < n → (∀ d ∈ src', d ≠ 0) →
        urlDecodeLoop maxWritten (src' ++ 0 :: junk) (pre ++ v :: post) (pre.length + 1) =
          some (pre ++ (v :: percentDecode src').take (m + 1) ++
            0 :: (x :: post).drop (((v :: percentDecode src').take (m + 1)).length + 1)) := by
      intro v src' hlen hnull
      have hl : (pre ++ [v]).length = pre.length + 1 := by simp
      have hm' : maxWritten - (pre.length + 1) = m := by omega
      rw [List.length_cons] at hpost
      have hh := @ih src'.length hlen src' hnull (pre ++ [v]) post (by omega) (by omega) rfl
      simpa [hl, hm'] using hh
    have hlen : src.length < n := by simp only [← hn, List.length_cons]; omega
    rw [hm, List.cons_append]
    by_cases hpercent : c = 37
    · subst hpercent
      rcases escape_percent hrest junk with ⟨a, b, rest, rfl, hxa, hxb, he⟩ | ⟨hno, he⟩
      · rw [List.cons_append, List.cons_append] at he ⊢
        rw [percentDecode_escape hxa hxb, urlDecodeLoop_escape hgo he, store_append, Option.bind_some]
        refine hnext _ rest ?_ fun d hd => hrest d (by simp [hd])
        rw [List.length_cons, List.length_cons] at hlen
        omega
      · rw [percentDecode_percent hno, urlDecodeLoop_plain hgo he, store_append, Option.bind_some]
        exact hnext _ src hlen hrest
    · have he : escape c (src ++ 0 :: junk) = some none := by simp [escape, hpercent]
      rw [percentDecode_literal hpercent, urlDecodeLoop_plain hgo he, store_append,
        Option.bind_some]
      exact hnext _ src hlen hrest

theorem urlDecode_spec {src junk dst : List UInt8} {dstLen : UInt32} (hsrc : ∀ c ∈ src, c ≠ 0)
    (hdst : dst.length = dstLen.toNat) (hpos : 1 ≤ dstLen) :
    urlDecode dst (src ++ 0 :: junk) dstLen =
      some ((percentDecode src).take (dst.length - 1) ++
        0 :: dst.drop (((percentDecode src).take (dst.length - 1)).length + 1)) := by
  have hmax : (dstLen - 1).toNat = dst.length - 1 := by
    rw [hdst, UInt32.toNat_sub_of_le _ _ hpos]
    rfl
  have hlt : 1 ≤ dst.length := by
    rw [hdst]
    exact UInt32.le_iff_toNat_le.mp hpos
  have hh := @urlDecodeLoop_spec (dst.length - 1) src junk hsrc [] dst (Nat.zero_le _)
    (by rw [List.length_nil]; omega)
  rw [urlDecode, hmax]
  simpa using hh

/-- No access leaves the two blocks, and what lies behind the source's null does
not matter; of the destination only the decoding and its null are written. -/
theorem urlDecode_total {src dst : List UInt8} {dstLen : UInt32} (hsrc : ∀ c ∈ src, c ≠ 0)
    (hdst : dst.length = dstLen.toNat) (hpos : 1 ≤ dstLen) :
    ∃ written out, (∀ junk, urlDecode dst (src ++ 0 :: junk) dstLen = some out) ∧
      written = (percentDecode src).take (dstLen.toNat - 1) ∧ written.length + 1 ≤ dstLen.toNat ∧
      out = written ++ 0 :: dst.drop (written.length + 1) := by
  have hlen : 1 ≤ dstLen.toNat := UInt32.le_iff_toNat_le.mp hpos
  refine ⟨(percentDecode src).take (dstLen.toNat - 1), _, fun junk => ?_, rfl, ?_, rfl⟩
  · rw [urlDecode_spec hsrc hdst hpos, hdst]
  · rw [List.length_take]
    omega

theorem urlDecode_total_malformed :
    ∃ written out,
      (∀ junk, urlDecode [1, 2, 3, 4, 5, 6, 7] (ascii "%%41%4" ++ 0 :: junk) 7 = some out) ∧
      written = (percentDecode (ascii "%%41%4")).take 6 ∧ written = ascii "%A%4" ∧
      written.length + 1 ≤ 7 ∧ out = ascii "%A%4" ++ [0, 6, 7] := by
  obtain ⟨written, out, hout, hwritten, hlen, heq⟩ := @urlDecode_total (ascii "%%41%4")
    [1, 2, 3, 4, 5, 6, 7] 7 (forall_mem_of_all (by decide)) rfl (by decide)
  have hdec : (percentDecode (ascii "%%41%4")).take 6 = ascii "%A%4" := by decide +kernel
  have htext : written = ascii "%A%4" := hwritten.trans hdec
  subst htext
  exact ⟨_, out, hout, hwritten, rfl, hlen, heq⟩

/-- However a string is spelled, its decoding is the string as far as it fits. -/
theorem urlDecode_encodes {s e junk dst : List UInt8} {dstLen : UInt32} (he : Encodes s e)
    (hdst : dst.length = dstLen.toNat) (hpos : 1 ≤ dstLen) :
    ∃ out, urlDecode dst (e ++ 0 :: junk) dstLen = some out ∧
      s.take (dstLen.toNat - 1) ++ [0] <+: out ∧ cstr out = s.take (dstLen.toNat - 1) ∧
      (s.length < dstLen.toNat → cstr out = s) := by
  have hnull : ∀ c ∈ s.take (dstLen.toNat - 1), c ≠ 0 :=
    fun c hc => he.no_null.1 c (List.mem_of_mem_take hc)
  have hdec := @urlDecode_spec e junk dst dstLen he.no_null.2 hdst hpos
  rw [percentDecode_encodes he, hdst] at hdec
  have hcstr := cstr_of_no_null hnull
    (dst.drop ((s.take (dstLen.toNat - 1)).length + 1))
  refine ⟨_, hdec, ⟨_, (List.append_cons _ 0 _).symm⟩, hcstr, fun hfit => ?_⟩
  rw [hcstr, List.take_of_length_le (by omega)]

theorem urlDecode_encodes_mixed :
    ∃ out, urlDecode (List.replicate 5 9) (ascii "a%2B+%c3" ++ [0]) 5 = some out ∧
      [97, 43, 32, 195, 0] <+: out ∧ cstr out = [97, 43, 32, 195] := by
  have he : Encodes [97, 43, 32, 195] (ascii "a%2B+%c3") :=
    .literal (by decide) (by decide) (by decide)
      (@Encodes.escape 50 66 _ _ (by decide) (by decide) (by decide)
        (.space (@Encodes.escape 99 51 _ _ (by decide) (by decide) (by decide) .nil)))
  obtain ⟨out, hout, hpre, hcstr, _⟩ := @urlDecode_encodes _ _ [] (List.replicate 5 9) 5 he rfl
    (by decide)
  exact ⟨out, hout, hpre, hcstr⟩

/-! The page's check of a MAC address, `/^([0-9A-Fa-f]{2}[:-]){5}([0-9A-Fa-f]{2})$/`,
and the six bytes such a text denotes. -/

def macGroups : Nat → List UInt8 → Bool
  | 0, [h, l] => isXDigit h && isXDigit l
  | n + 1, h :: l :: sep :: rest =>
    isXDigit h && isXDigit l && (sep == 58 || sep == 45) && macGroups n rest
  | _, _ => false

def macRegex (v : List UInt8) : Bool := macGroups 5 v

def macBytes : Nat → List UInt8 → List UInt8
  | 0, [h, l] => [hexByte h l]
  | n + 1, h :: l :: _ :: rest => hexByte h l :: macBytes n rest
  | _, _ => []

theorem macGroups_zero {v : List UInt8} (h : macGroups 0 v = true) :
    ∃ a b, v = [a, b] ∧ isXDigit a = true ∧ isXDigit b = true := by
  rcases v with _ | ⟨a, _ | ⟨b, _ | ⟨c, v⟩⟩⟩
  · simp [macGroups] at h
  · simp [macGroups] at h
  · exact ⟨a, b, rfl, by simpa [macGroups] using h⟩
  · simp [macGroups] at h

theorem macGroups_succ {n : Nat} {v : List UInt8} (h : macGroups (n + 1) v = true) :
    ∃ a b sep rest, v = a :: b :: sep :: rest ∧ isXDigit a = true ∧ isXDigit b = true ∧
      (sep = 58 ∨ sep = 45) ∧ macGroups n rest = true := by
  rcases v with _ | ⟨a, _ | ⟨b, _ | ⟨sep, rest⟩⟩⟩
  · simp [macGroups] at h
  · simp [macGroups] at h
  · simp [macGroups] at h
  · refine ⟨a, b, sep, rest, rfl, ?_⟩
    simpa [macGroups, and_assoc] using h

theorem macGroups_chars {n : Nat} {v : List UInt8} (h : macGroups n v = true) :
    (∀ c ∈ v, isXDigit c = true ∨ c = 58 ∨ c = 45) ∧ v.length = 3 * n + 2 := by
  induction n generalizing v with
  | zero =>
    obtain ⟨a, b, rfl, ha, hb⟩ := macGroups_zero h
    exact ⟨by simp [ha, hb], rfl⟩
  | succ n ih =>
    obtain ⟨a, b, sep, rest, rfl, ha, hb, hsep, hrest⟩ := macGroups_succ h
    obtain ⟨hchars, hlen⟩ := ih hrest
    refine ⟨?_, by simp only [List.length_cons, hlen]; omega⟩
    simp only [List.forall_mem_cons]
    exact ⟨Or.inl ha, Or.inl hb, Or.inr hsep, hchars⟩

theorem macRegex_chars {v : List UInt8} (h : macRegex v = true) :
    (∀ c ∈ v, c ≠ 0 ∧ c ≠ 38) ∧ v.length = 17 := by
  obtain ⟨hchars, hlen⟩ := macGroups_chars h
  refine ⟨?_, hlen⟩
  intro c hc
  rcases hchars c hc with hx | rfl | rfl
  · obtain ⟨_, _, _, _, _, _, h0⟩ := isXDigit_cases hx
    exact ⟨h0, (isXDigit_ne hx).1⟩
  · decide
  · decide

theorem sscanf_mac {n : Nat} {v : List UInt8} (h : macGroups n v = true) :
    (45 ∉ v → (sscanf (macFormat n) v).map UInt32.toUInt8 = macBytes n v) ∧
      (45 ∈ v → (sscanf (macFormat n) v).length ≤ n) := by
  induction n generalizing v with
  | zero =>
    obtain ⟨a, b, rfl, ha, hb⟩ := macGroups_zero h
    obtain ⟨_, _, ha45, _⟩ := isXDigit_cases ha
    obtain ⟨_, _, hb45, _⟩ := isXDigit_cases hb
    have hscan := scanHex_pair ha hb [] (by simp)
    refine ⟨fun _ => ?_, fun hm => ?_⟩
    · simp [macFormat, sscanf, hscan, macBytes, hexByte]
    · simp [Ne.symm ha45, Ne.symm hb45] at hm
  | succ n ih =>
    obtain ⟨a, b, sep, rest, rfl, ha, hb, hsep, hrest⟩ := macGroups_succ h
    obtain ⟨_, _, ha45, _⟩ := isXDigit_cases ha
    obtain ⟨_, _, hb45, _⟩ := isXDigit_cases hb
    have hx : isXDigit sep = false := by rcases hsep with rfl | rfl <;> decide
    have hscan := scanHex_pair ha hb (sep :: rest) (by simpa using hx)
    obtain ⟨hcolon, hhyphen⟩ := ih hrest
    rcases hsep with rfl | rfl
    · refine ⟨fun hm => ?_, fun hm => ?_⟩
      · have hm' : 45 ∉ rest := fun hr => hm (by simp [hr])
        simp [macFormat, sscanf, hscan, macBytes, hexByte, hcolon hm']
      · have hm' : 45 ∈ rest := by simpa [Ne.symm ha45, Ne.symm hb45] using hm
        simpa [macFormat, sscanf, hscan] using hhyphen hm'
    · refine ⟨fun hm => absurd (by simp) hm, fun _ => ?_⟩
      simp [macFormat, sscanf, hscan]

theorem macBytes_length {n : Nat} {v : List UInt8} (h : macGroups n v = true) :
    (macBytes n v).length = n + 1 := by
  induction n generalizing v with
  | zero =>
    obtain ⟨a, b, rfl, _⟩ := macGroups_zero h
    rfl
  | succ n ih =>
    obtain ⟨a, b, sep, rest, rfl, _, _, _, hrest⟩ := macGroups_succ h
    simp [macBytes, ih hrest]

theorem parseMacAddress_append_null (s t : List UInt8) (mac : Vector UInt8 6) :
    parseMacAddress (s ++ 0 :: t) mac = parseMacAddress s mac := by
  unfold parseMacAddress
  rw [cstr_append_null]

theorem parseMacAddress_of_macRegex {v : List UInt8} (h : macRegex v = true) (junk : List UInt8)
    (mac : Vector UInt8 6) :
    (45 ∉ v → (parseMacAddress (v ++ 0 :: junk) mac).1 = true ∧
      (parseMacAddress (v ++ 0 :: junk) mac).2.toList = macBytes 5 v) ∧
    (45 ∈ v → parseMacAddress (v ++ 0 :: junk) mac = (false, mac)) := by
  obtain ⟨hchars, _⟩ := macRegex_chars h
  obtain ⟨hcolon, hhyphen⟩ := sscanf_mac h
  have hc : cstr (v ++ 0 :: junk) = v := cstr_of_no_null (fun c hc => (hchars c hc).1) junk
  refine ⟨fun hm => ?_, fun hm => ?_⟩
  · have hbytes := hcolon hm
    have hlen := congrArg List.length hbytes
    rw [macBytes_length h, List.length_map] at hlen
    obtain ⟨b₀, b₁, b₂, b₃, b₄, b₅, hs⟩ : ∃ b₀ b₁ b₂ b₃ b₄ b₅,
        sscanf (macFormat 5) v = [b₀, b₁, b₂, b₃, b₄, b₅] := by
      match hs : sscanf (macFormat 5) v, hlen with
      | [b₀, b₁, b₂, b₃, b₄, b₅], _ => exact ⟨b₀, b₁, b₂, b₃, b₄, b₅, rfl⟩
    rw [← hbytes, hs]
    simp [parseMacAddress, hc, hs]
  · have hlen := hhyphen hm
    unfold parseMacAddress
    rw [hc]
    split
    case h_1 hs =>
      rw [hs] at hlen
      simp at hlen
    case h_2 => rfl

end EspPassthrough
