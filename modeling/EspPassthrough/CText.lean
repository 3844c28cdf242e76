import Mathlib.Algebra.Order.Ring.Nat
import Mathlib.Data.List.TakeWhile
import Mathlib.Data.Nat.Digits.Lemmas
import Mathlib.Tactic.Common

/-! Byte strings as C sees them: null-terminated strings, `strncpy`, and the
hexadecimal conversion of `sscanf`. -/

namespace CText

def ascii (s : String) : List UInt8 := s.toList.map fun c => UInt8.ofNat c.toNat

/-- The C string that starts a block: the bytes before its first null. -/
def cstr (block : List UInt8) : List UInt8 := block.takeWhile (· ≠ 0)

def padZero (n : Nat) (s : List UInt8) : List UInt8 := s.take n ++ List.replicate (n - s.length) 0

theorem forall_mem_of_all {p : UInt8 → Prop} [DecidablePred p] {s : List UInt8}
    (h : (s.all fun c => decide (p c)) = true) : ∀ c ∈ s, p c := by
  simpa using h

theorem padZero_length (n : Nat) (s : List UInt8) : (padZero n s).length = n := by
  simp only [padZero, List.length_append, List.length_take, List.length_replicate]
  omega

/-- The `n` bytes that `strncpy(dst, src, n)` leaves in `dst`. -/
def strncpy (n : Nat) (src : List UInt8) : Vector UInt8 n :=
  ⟨(padZero n (cstr src)).toArray, by simpa using padZero_length n (cstr src)⟩

@[simp] theorem strncpy_toList (n : Nat) (src : List UInt8) :
    (strncpy n src).toList = padZero n (cstr src) := rfl

theorem cstr_of_no_null {s : List UInt8} (h : ∀ c ∈ s, c ≠ 0) (t : List UInt8) :
    cstr (s ++ 0 :: t) = s := by
  rw [cstr, List.takeWhile_append_of_pos (by simpa using h), List.takeWhile_cons]
  simp

theorem cstr_append_null (s t : List UInt8) : cstr (s ++ 0 :: t) = cstr s := by
  induction s with
  | nil => rfl
  | cons c s ih =>
    by_cases hc : c = 0
    · simp [cstr, hc]
    · have hh : ∀ l, cstr (c :: l) = c :: cstr l := fun l => by simp [cstr, hc]
      rw [List.cons_append, hh, hh, ih]

theorem cstr_no_null (s : List UInt8) : ∀ c ∈ cstr s, c ≠ 0 := fun c hc => by
  simpa using List.mem_takeWhile_imp hc

theorem cstr_eq_self {s : List UInt8} (h : ∀ c ∈ s, c ≠ 0) : cstr s = s :=
  List.takeWhile_eq_self_iff.mpr (by simpa using h)

theorem cstr_eq_self_iff {s : List UInt8} : cstr s = s ↔ ∀ c ∈ s, c ≠ 0 := by
  rw [cstr, List.takeWhile_eq_self_iff]
  simp

theorem cstr_length_le (s : List UInt8) : (cstr s).length ≤ s.length :=
  (List.takeWhile_prefix _).length_le

theorem cstr_padZero {n : Nat} {s : List UInt8} (h : ∀ c ∈ s, c ≠ 0) :
    cstr (padZero n s) = s.take n := by
  have ht : ∀ c ∈ s.take n, c ≠ 0 := fun c hc => h c (List.mem_of_mem_take hc)
  by_cases hn : s.length < n
  · obtain ⟨m, hm⟩ : ∃ m, n - s.length = m + 1 := ⟨n - s.length - 1, by omega⟩
    rw [padZero, hm, List.replicate_succ]
    exact cstr_of_no_null ht _
  · rw [padZero, Nat.sub_eq_zero_of_le (not_lt.mp hn), List.replicate_zero, List.append_nil]
    exact cstr_eq_self ht

theorem padZero_take {n m : Nat} (h : n ≤ m) (s : List UInt8) : padZero n (s.take m) = padZero n s := by
  have hlen : n - (s.take m).length = n - s.length := by
    rw [List.length_take]
    omega
  rw [padZero, padZero, List.take_take, Nat.min_eq_left h, hlen]

theorem strncpy_take {n m : Nat} (h : n ≤ m) (s t : List UInt8) :
    strncpy n (s.take m ++ 0 :: t) = strncpy n s := by
  apply Vector.toList_inj.mp
  have hcut : cstr (s.take m ++ 0 :: t) = (cstr s).take m := by
    rw [cstr_append_null]
    exact List.take_takeWhile.symm
  rw [strncpy_toList, strncpy_toList, hcut, padZero_take h]

theorem cstr_strncpy (n : Nat) (s : List UInt8) : cstr (strncpy n s).toList = (cstr s).take n :=
  cstr_padZero (cstr_no_null s)

theorem cstr_append_of_mem {s : List UInt8} (h : 0 ∈ s) (t : List UInt8) :
    cstr (s ++ t) = cstr s := by
  obtain ⟨u, v, rfl⟩ := List.append_of_mem h
  rw [List.append_assoc, List.cons_append, cstr_append_null, cstr_append_null]

theorem cstr_append {s : List UInt8} (h : ∀ c ∈ s, c ≠ 0) (t : List UInt8) :
    cstr (s ++ t) = s ++ cstr t :=
  List.takeWhile_append_of_pos (by simpa using h)

theorem padZero_cstr_append {n : Nat} {s : List UInt8} (h : ∀ c ∈ s, c ≠ 0) (t : List UInt8) :
    padZero n (cstr (padZero n s ++ t)) = padZero n s := by
  by_cases hn : s.length < n
  · have hm : 0 ∈ padZero n s := by
      have hpos : n - s.length ≠ 0 := by omega
      simp [padZero, hpos]
    rw [cstr_append_of_mem hm, cstr_padZero h, padZero_take le_rfl]
  · have hpad : padZero n s = s.take n := by
      rw [padZero, Nat.sub_eq_zero_of_le (not_lt.mp hn), List.replicate_zero, List.append_nil]
    have hlen : (s.take n).length = n := by
      rw [List.length_take]
      omega
    rw [hpad, cstr_append fun c hc => h c (List.mem_of_mem_take hc), padZero, List.length_append,
      hlen, Nat.sub_eq_zero_of_le (Nat.le_add_right n _), List.replicate_zero, List.append_nil]
    exact List.take_left' hlen

def isXDigit (c : UInt8) : Bool :=
  (48 ≤ c && c ≤ 57) || (65 ≤ c && c ≤ 70) || (97 ≤ c && c ≤ 102)

def hexVal (c : UInt8) : Nat :=
  if c ≤ 57 then c.toNat - 48 else if c ≤ 70 then c.toNat - 55 else c.toNat - 87

def isSpace (c : UInt8) : Bool := c == 32 || (9 ≤ c && c ≤ 13)

def hexByte (h l : UInt8) : UInt8 := UInt8.ofNat (16 * hexVal h + hexVal l)

theorem forall_byte {p : UInt8 → Prop} (h : ∀ n < 256, p (UInt8.ofNat n)) (c : UInt8) : p c := by
  have hc := h c.toNat c.toNat_lt
  rwa [UInt8.ofNat_toNat] at hc

theorem hexVal_lt {c : UInt8} (h : isXDigit c = true) : hexVal c < 16 := by
  revert h
  exact forall_byte (p := fun c => isXDigit c = true → hexVal c < 16) (by decide +kernel) c

/-! The conversion `%x` reads what `strtoul` reads in base 16, after any white
space; a prefix `0x` with no digit after it does not match. -/

def skipSign : List UInt8 → Bool × List UInt8
  | 43 :: s => (false, s)
  | 45 :: s => (true, s)
  | s => (false, s)

def skipHexPrefix : List UInt8 → List UInt8
  | 48 :: 120 :: s => s
  | 48 :: 88 :: s => s
  | s => s

def hexNumber (digits : List UInt8) : Nat := digits.foldl (fun n c => 16 * n + hexVal c) 0

def scanHex (input : List UInt8) : Option (UInt32 × List UInt8) :=
  let (neg, s) := skipSign (input.dropWhile isSpace)
  let s := skipHexPrefix s
  let digits := s.takeWhile isXDigit
  if digits = [] then none
  else
    let n := hexNumber digits
    let v := if 2 ^ 32 ≤ n then UInt32.ofNat (2 ^ 32 - 1)
      else if neg then 0 - UInt32.ofNat n else UInt32.ofNat n
    some (v, s.dropWhile isXDigit)

inductive Directive where
  | hex
  | lit (c : UInt8)

/-- The values assigned before the input fails to match. -/
def sscanf : List Directive → List UInt8 → List UInt32
  | [], _ => []
  | .hex :: ds, s =>
    match scanHex s with
    | none => []
    | some (v, rest) => v :: sscanf ds rest
  | .lit _ :: _, [] => []
  | .lit c :: ds, d :: s => if c = d then sscanf ds s else []

theorem isXDigit_cases {c : UInt8} (h : isXDigit c = true) :
    isSpace c = false ∧ c ≠ 43 ∧ c ≠ 45 ∧ c ≠ 120 ∧ c ≠ 88 ∧ c ≠ 58 ∧ c ≠ 0 := by
  revert h
  exact forall_byte (p := fun c => isXDigit c = true → isSpace c = false ∧ c ≠ 43 ∧ c ≠ 45 ∧
    c ≠ 120 ∧ c ≠ 88 ∧ c ≠ 58 ∧ c ≠ 0) (by decide +kernel) c

theorem scanHex_pair {h l : UInt8} (hh : isXDigit h = true) (hl : isXDigit l = true)
    (rest : List UInt8) (hr : ∀ c ∈ rest.head?, isXDigit c = false) :
    scanHex (h :: l :: rest) = some (UInt32.ofNat (16 * hexVal h + hexVal l), rest) := by
  obtain ⟨hsp, hplus, hminus, _⟩ := isXDigit_cases hh
  obtain ⟨_, _, _, hx, hX, _⟩ := isXDigit_cases hl
  have hsign : skipSign (h :: l :: rest) = (false, h :: l :: rest) := by
    unfold skipSign
    split <;> simp_all
  have hpre : skipHexPrefix (h :: l :: rest) = h :: l :: rest := by
    unfold skipHexPrefix
    split <;> simp_all
  have hstop : rest.takeWhile isXDigit = [] ∧ rest.dropWhile isXDigit = rest := by
    cases rest with
    | nil => exact ⟨rfl, rfl⟩
    | cons c rest =>
      have hc := hr c rfl
      simp [hc]
  have hlt : ¬4294967296 ≤ 16 * hexVal h + hexVal l := by
    have h1 := hexVal_lt hh
    have h2 := hexVal_lt hl
    omega
  have hnum : hexNumber [h, l] = 16 * hexVal h + hexVal l := by simp [hexNumber]
  simp [scanHex, hsp, hsign, hpre, hh, hl, hstop, hnum, hlt]

/-- White space, a sign and a prefix `0x` may stand before the digits; a digit
`0` right before an `x` is never a number of its own. -/
structure HexNumeral (spaces sign pre digits rest : List UInt8) : Prop where
  spaces_mem : ∀ c ∈ spaces, isSpace c = true
  sign_eq : sign = [] ∨ sign = [43] ∨ sign = [45]
  pre_eq : pre = [] ∨ pre = [48, 120] ∨ pre = [48, 88]
  digits_ne : digits ≠ []
  digits_mem : ∀ c ∈ digits, isXDigit c = true
  stops : ∀ c ∈ rest.head?, isXDigit c = false
  whole : pre = [] → digits = [48] → ∀ c ∈ rest.head?, c ≠ 120 ∧ c ≠ 88

/-- The input starts with a number for `%x`, which ends where `rest` begins. -/
def ReadsHex (input rest : List UInt8) : Prop :=
  ∃ spaces sign pre digits, input = spaces ++ (sign ++ (pre ++ (digits ++ rest))) ∧
    HexNumeral spaces sign pre digits rest

theorem skipSign_cases (s : List UInt8) :
    (∃ c, (c = 43 ∨ c = 45) ∧ s = c :: (skipSign s).2) ∨
      (skipSign s).2 = s ∧ ∀ c ∈ s.head?, c ≠ 43 ∧ c ≠ 45 := by
  unfold skipSign
  split
  case h_1 s => exact Or.inl ⟨43, Or.inl rfl, rfl⟩
  case h_2 s => exact Or.inl ⟨45, Or.inr rfl, rfl⟩
  case h_3 hplus hminus =>
    refine Or.inr ⟨rfl, fun c hc => ?_⟩
    rcases s with _ | ⟨d, s⟩
    · cases hc
    · obtain rfl : d = c := Option.some.inj hc
      exact ⟨fun he => hplus s (by rw [he]), fun he => hminus s (by rw [he])⟩

theorem skipHexPrefix_cases (s : List UInt8) :
    (∃ c, (c = 120 ∨ c = 88) ∧ s = 48 :: c :: skipHexPrefix s) ∨
      skipHexPrefix s = s ∧ ∀ c t, s = 48 :: c :: t → c ≠ 120 ∧ c ≠ 88 := by
  unfold skipHexPrefix
  split
  case h_1 s => exact Or.inl ⟨120, Or.inl rfl, rfl⟩
  case h_2 s => exact Or.inl ⟨88, Or.inr rfl, rfl⟩
  case h_3 hx hX =>
    refine Or.inr ⟨rfl, fun c t hs => ⟨fun he => hx t (by rw [hs, he]), fun he => hX t (by rw [hs, he])⟩⟩

theorem head?_dropWhile_isXDigit (s : List UInt8) :
    ∀ c ∈ (s.dropWhile isXDigit).head?, isXDigit c = false := by
  intro c hc
  have h := List.head?_dropWhile_not isXDigit s
  rw [Option.mem_def.mp hc] at h
  simpa using h

theorem readsHex_of_scanHex {input rest : List UInt8} {v : UInt32}
    (h : scanHex input = some (v, rest)) : ReadsHex input rest := by
  let t := input.dropWhile isSpace
  let u := (skipSign t).2
  let w := skipHexPrefix u
  have hscan : w.takeWhile isXDigit ≠ [] ∧ w.dropWhile isXDigit = rest := by
    unfold scanHex at h
    dsimp only at h
    by_cases hd : w.takeWhile isXDigit = []
    · rw [if_pos hd] at h
      cases h
    · rw [if_neg hd] at h
      exact ⟨hd, (Prod.mk.inj (Option.some.inj h)).2⟩
  obtain ⟨hdigits, rfl⟩ := hscan
  have hspaces : input = input.takeWhile isSpace ++ t := (List.takeWhile_append_dropWhile).symm
  have hsign : ∃ sign, t = sign ++ u ∧ (sign = [] ∨ sign = [43] ∨ sign = [45]) := by
    rcases skipSign_cases t with ⟨c, hc, ht⟩ | ⟨hu, _⟩
    · refine ⟨[c], ht, ?_⟩
      rcases hc with rfl | rfl <;> simp
    · exact ⟨[], hu.symm, Or.inl rfl⟩
  have hpre : ∃ pre, u = pre ++ w ∧ (pre = [] ∨ pre = [48, 120] ∨ pre = [48, 88]) ∧
      (pre = [] → ∀ c s, w = 48 :: c :: s → c ≠ 120 ∧ c ≠ 88) := by
    rcases skipHexPrefix_cases u with ⟨c, hc, hu⟩ | ⟨hw, hno⟩
    · refine ⟨[48, c], hu, ?_, fun he => by cases he⟩
      rcases hc with rfl | rfl <;> simp
    · exact ⟨[], hw.symm, Or.inl rfl, fun _ c s hs => hno c s (hw.symm.trans hs)⟩
  obtain ⟨sign, ht, hsign⟩ := hsign
  obtain ⟨pre, hu, hpre, hwhole⟩ := hpre
  have hw : w = w.takeWhile isXDigit ++ w.dropWhile isXDigit := (List.takeWhile_append_dropWhile).symm
  refine ⟨input.takeWhile isSpace, sign, pre, w.takeWhile isXDigit, ?_, ?_⟩
  · rw [← hw, ← hu, ← ht, ← hspaces]
  · refine ⟨fun c hc => List.mem_takeWhile_imp hc, hsign, hpre, hdigits,
      fun c hc => List.mem_takeWhile_imp hc, head?_dropWhile_isXDigit w, fun hnil hone c hc => ?_⟩
    rw [hone] at hw
    obtain ⟨s, hs⟩ : ∃ s, w.dropWhile isXDigit = c :: s := by
      cases hd : w.dropWhile isXDigit with
      | nil => rw [hd] at hc; cases hc
      | cons d s =>
        rw [hd] at hc
        obtain rfl : d = c := Option.some.inj hc
        exact ⟨s, rfl⟩
    rw [hs] at hw
    exact hwhole hnil c s hw

theorem HexNumeral.skip_spaces {spaces sign pre digits rest : List UInt8}
    (h : HexNumeral spaces sign pre digits rest) :
    (spaces ++ (sign ++ (pre ++ (digits ++ rest)))).dropWhile isSpace =
      sign ++ (pre ++ (digits ++ rest)) := by
  obtain ⟨d, ds, rfl⟩ := List.exists_cons_of_ne_nil h.digits_ne
  obtain ⟨hd, _⟩ := isXDigit_cases (h.digits_mem d List.mem_cons_self)
  have hchars : isSpace 48 = false ∧ isSpace 43 = false ∧ isSpace 45 = false := by decide
  rw [List.dropWhile_append_of_pos h.spaces_mem]
  rcases h.sign_eq with rfl | rfl | rfl
  · rcases h.pre_eq with rfl | rfl | rfl <;> simp [hchars, hd]
  · simp [hchars]
  · simp [hchars]

theorem HexNumeral.skip_sign {spaces sign pre digits rest : List UInt8}
    (h : HexNumeral spaces sign pre digits rest) :
    (skipSign (sign ++ (pre ++ (digits ++ rest)))).2 = pre ++ (digits ++ rest) := by
  obtain ⟨d, ds, rfl⟩ := List.exists_cons_of_ne_nil h.digits_ne
  obtain ⟨_, hplus, hminus, _⟩ := isXDigit_cases (h.digits_mem d List.mem_cons_self)
  rcases h.sign_eq with rfl | rfl | rfl
  · rcases skipSign_cases (pre ++ (d :: ds ++ rest)) with ⟨c, hc, he⟩ | ⟨he, _⟩
    · rcases h.pre_eq with rfl | rfl | rfl
      · obtain rfl : d = c := List.head_eq_of_cons_eq he
        exact absurd hc (not_or.mpr ⟨hplus, hminus⟩)
      · obtain rfl : 48 = c := List.head_eq_of_cons_eq he
        exact absurd hc (by decide)
      · obtain rfl : 48 = c := List.head_eq_of_cons_eq he
        exact absurd hc (by decide)
    · exact he
  · rfl
  · rfl

theorem HexNumeral.skip_prefix {spaces sign pre digits rest : List UInt8}
    (h : HexNumeral spaces sign pre digits rest) :
    skipHexPrefix (pre ++ (digits ++ rest)) = digits ++ rest := by
  obtain ⟨d, ds, rfl⟩ := List.exists_cons_of_ne_nil h.digits_ne
  rcases h.pre_eq with rfl | rfl | rfl
  · rcases skipHexPrefix_cases ([] ++ (d :: ds ++ rest)) with ⟨c, hc, he⟩ | ⟨he, _⟩
    · obtain ⟨rfl, htail⟩ := List.cons.inj he
      rcases ds with _ | ⟨e, ds⟩
      · have hhead : rest.head? = some c := congrArg List.head? htail
        exact absurd hc (not_or.mpr (h.whole rfl rfl c hhead))
      · obtain rfl : e = c := List.head_eq_of_cons_eq htail
        obtain ⟨_, _, _, h120, h88, _⟩ := isXDigit_cases (h.digits_mem e (by simp))
        exact absurd hc (not_or.mpr ⟨h120, h88⟩)
    · exact he
  · rfl
  · rfl

theorem HexNumeral.span {spaces sign pre digits rest : List UInt8}
    (h : HexNumeral spaces sign pre digits rest) :
    (digits ++ rest).takeWhile isXDigit = digits ∧ (digits ++ rest).dropWhile isXDigit = rest := by
  rw [List.takeWhile_append_of_pos h.digits_mem, List.dropWhile_append_of_pos h.digits_mem]
  cases rest with
  | nil => simp
  | cons c rest =>
    have hc := h.stops c rfl
    simp [hc]

theorem scanHex_iff {input rest : List UInt8} :
    (∃ v, scanHex input = some (v, rest)) ↔ ReadsHex input rest := by
  constructor
  · rintro ⟨v, h⟩
    exact readsHex_of_scanHex h
  · rintro ⟨spaces, sign, pre, digits, rfl, h⟩
    unfold scanHex
    dsimp only
    rw [h.skip_spaces, h.skip_sign, h.skip_prefix, h.span.1, h.span.2, if_neg h.digits_ne]
    exact ⟨_, rfl⟩

/-! What `%d` and `%02x` print. -/

def decimal (n : Nat) : List UInt8 :=
  if n = 0 then [48] else (Nat.digits 10 n).reverse.map fun d => UInt8.ofNat (48 + d)

def formatInt (z : Int) : List UInt8 := (if z < 0 then [45] else []) ++ decimal z.natAbs

def hexLower (n : Nat) : UInt8 := UInt8.ofNat (if n < 10 then 48 + n else 87 + n)

def formatByte (b : UInt8) : List UInt8 := [hexLower (b.toNat / 16), hexLower (b.toNat % 16)]

theorem digit_toNat {d : Nat} (h : d < 10) : (UInt8.ofNat (48 + d)).toNat = 48 + d :=
  UInt8.toNat_ofNat_of_lt' (by have hs : UInt8.size = 256 := rfl; omega)

theorem decimal_chars (n : Nat) : ∀ c ∈ decimal n, 48 ≤ c ∧ c ≤ 57 := by
  intro c hc
  by_cases hn : n = 0
  · obtain rfl : c = 48 := by simpa [decimal, hn] using hc
    decide
  · rw [decimal, if_neg hn, List.mem_map] at hc
    obtain ⟨d, hd, rfl⟩ := hc
    have hlt := Nat.digits_lt_base (by decide) (List.mem_reverse.mp hd)
    rw [UInt8.le_iff_toNat_le, UInt8.le_iff_toNat_le, digit_toNat hlt]
    exact ⟨Nat.le_add_right 48 d, by change 48 + d ≤ 57; omega⟩

theorem decimal_ne_nil (n : Nat) : decimal n ≠ [] := by
  by_cases hn : n = 0
  · simp [decimal, hn]
  · simpa [decimal, hn] using Nat.digits_ne_nil_iff_ne_zero.mpr hn

theorem decimal_head {n : Nat} (hn : n ≠ 0) : (decimal n).head? ≠ some 48 := by
  have hne : Nat.digits 10 n ≠ [] := Nat.digits_ne_nil_iff_ne_zero.mpr hn
  have hlast := Nat.getLast_digit_ne_zero 10 hn
  have hlt := Nat.digits_lt_base (b := 10) (by decide) (List.getLast_mem hne)
  intro h
  rw [decimal, if_neg hn, List.head?_map, List.head?_reverse, List.getLast?_eq_getLast_of_ne_nil hne,
    Option.map_some, Option.some.injEq] at h
  have hval := congrArg UInt8.toNat h
  rw [digit_toNat hlt] at hval
  change _ = 48 at hval
  omega

theorem decimal_value (n : Nat) :
    (decimal n).foldl (fun m c => 10 * m + (c.toNat - 48)) 0 = n := by
  by_cases hn : n = 0
  · subst hn
    rfl
  · have hdigits : ∀ l : List Nat, (∀ d ∈ l, d < 10) →
        (l.map fun d => UInt8.ofNat (48 + d)).foldr (fun c m => 10 * m + (c.toNat - 48)) 0 =
          Nat.ofDigits 10 l := by
      intro l hl
      induction l with
      | nil => rfl
      | cons d l ih =>
        rw [List.map_cons, List.foldr_cons, ih fun x hx => hl x (List.mem_cons_of_mem d hx),
          digit_toNat (hl d List.mem_cons_self), Nat.ofDigits_cons]
        omega
    rw [decimal, if_neg hn, List.map_reverse, List.foldl_reverse,
      hdigits _ fun d hd => Nat.digits_lt_base (by decide) hd, Nat.ofDigits_digits]

theorem decimal_length_le {n k : Nat} (hk : 1 ≤ k) (hn : n < 10 ^ k) : (decimal n).length ≤ k := by
  by_cases h0 : n = 0
  · simpa [decimal, h0] using hk
  · rw [decimal, if_neg h0, List.length_map, List.length_reverse]
    exact (Nat.digits_length_le_iff (by decide) n).mpr hn

theorem formatInt_length_le {z : Int} {k : Nat} (hk : 1 ≤ k) (hz : z.natAbs < 10 ^ k) :
    (formatInt z).length ≤ k + 1 := by
  have hlen := decimal_length_le hk hz
  by_cases hneg : z < 0
  · simp only [formatInt, if_pos hneg, List.length_append, List.length_singleton]
    omega
  · simp only [formatInt, if_neg hneg, List.length_append, List.length_nil]
    omega

theorem formatInt_chars (z : Int) : ∀ c ∈ formatInt z, c = 45 ∨ 48 ≤ c ∧ c ≤ 57 := by
  intro c hc
  rcases List.mem_append.mp hc with hsign | hdigit
  · by_cases hneg : z < 0
    · exact Or.inl (by simpa [hneg] using hsign)
    · simp [hneg] at hsign
  · exact Or.inr (decimal_chars _ c hdigit)

theorem formatByte_chars (b : UInt8) :
    ∀ c ∈ formatByte b, (48 ≤ c ∧ c ≤ 57) ∨ (97 ≤ c ∧ c ≤ 102) := by
  apply forall_mem_of_all
  exact forall_byte (p := fun b => ((formatByte b).all
    fun c => decide ((48 ≤ c ∧ c ≤ 57) ∨ (97 ≤ c ∧ c ≤ 102))) = true) (by decide +kernel) b

end CText
