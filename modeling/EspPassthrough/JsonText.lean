import EspPassthrough.CText
import EspPassthrough.Machine

/-! JSON over bytes: the UTF-8 check of a text, its strings and numbers, and the
value it denotes. -/

namespace JsonText

open CText

/-- A number is `mantissa * 10 ^ exponent`; a string is the UTF-8 of its characters. -/
inductive Value where
  | null
  | bool (b : Bool)
  | number (mantissa exponent : Int)
  | string (s : List UInt8)
  | array (items : List Value)
  | object (members : List (List UInt8 × Value))

/-- Where a UTF-8 decoder stands: the continuation bytes it waits for, with the
narrower range of the first one after some leading bytes. -/
inductive Utf8State where
  | start
  | owes1
  | owes2
  | owes3
  | owesE0
  | owesED
  | owesF0
  | owesF4
  deriving DecidableEq

def utf8Lead (b : UInt8) : Option Utf8State :=
  if b < 0x80 then some .start
  else if 0xC2 ≤ b ∧ b ≤ 0xDF then some .owes1
  else if b = 0xE0 then some .owesE0
  else if b = 0xED then some .owesED
  else if 0xE1 ≤ b ∧ b ≤ 0xEF then some .owes2
  else if b = 0xF0 then some .owesF0
  else if 0xF1 ≤ b ∧ b ≤ 0xF3 then some .owes3
  else if b = 0xF4 then some .owesF4
  else none

def utf8Tail (lo hi : UInt8) (next : Utf8State) (b : UInt8) : Option Utf8State :=
  if 0x80 ≤ b ∧ lo ≤ b ∧ b ≤ hi then some next else none

def utf8Step : Utf8State → UInt8 → Option Utf8State
  | .start, b => utf8Lead b
  | .owes1, b => utf8Tail 0x80 0xBF .start b
  | .owes2, b => utf8Tail 0x80 0xBF .owes1 b
  | .owes3, b => utf8Tail 0x80 0xBF .owes2 b
  | .owesE0, b => utf8Tail 0xA0 0xBF .owes1 b
  | .owesED, b => utf8Tail 0x80 0x9F .owes1 b
  | .owesF0, b => utf8Tail 0x90 0xBF .owes2 b
  | .owesF4, b => utf8Tail 0x80 0x8F .owes2 b

abbrev ValidUtf8 (text : List UInt8) : Prop := Machine.run utf8Step .start text = some .start

/-! ## Strings -/

/-- The raw content up to the closing quote, and what follows it; the flag says
that a backslash stands before the text. -/
def scanString : Bool → List UInt8 → Option (List UInt8 × List UInt8)
  | _, [] => none
  | true, c :: text => (scanString false text).map fun r => (c :: r.1, r.2)
  | false, c :: text =>
    if c = 34 then some ([], text)
    else if c < 32 then none
    else (scanString (c == 92) text).map fun r => (c :: r.1, r.2)

/-- A piece of a string: a byte, or a UTF-16 code unit given by its number. -/
inductive Piece where
  | byte (b : UInt8)
  | unit (u : Nat)

def simpleEscape (e : UInt8) : Option UInt8 :=
  if e = 34 ∨ e = 92 ∨ e = 47 then some e
  else if e = 98 then some 8
  else if e = 102 then some 12
  else if e = 110 then some 10
  else if e = 114 then some 13
  else if e = 116 then some 9
  else none

def unescape : List UInt8 → Option (List Piece)
  | [] => some []
  | c :: raw =>
    if c = 92 then
      match raw with
      | 117 :: h₁ :: h₂ :: h₃ :: h₄ :: raw =>
        if [h₁, h₂, h₃, h₄].all isXDigit then
          (unescape raw).map (.unit (hexNumber [h₁, h₂, h₃, h₄]) :: ·)
        else none
      | e :: raw => (simpleEscape e).bind fun b => (unescape raw).map (.byte b :: ·)
      | [] => none
    else (unescape raw).map (.byte c :: ·)

def utf8Encode (u : Nat) : List UInt8 :=
  (if u < 0x80 then [u]
    else if u < 0x800 then [0xC0 + u / 64, 0x80 + u % 64]
    else if u < 0x10000 then [0xE0 + u / 4096, 0x80 + u / 64 % 64, 0x80 + u % 64]
    else [0xF0 + u / 262144, 0x80 + u / 4096 % 64, 0x80 + u / 64 % 64, 0x80 + u % 64]).map
      UInt8.ofNat

/-- Two units that form a surrogate pair are one character; a lone surrogate is none. -/
def decodePieces : List Piece → Option (List UInt8)
  | [] => some []
  | .byte b :: ps => (decodePieces ps).map (b :: ·)
  | .unit u :: ps =>
    if 0xD800 ≤ u ∧ u < 0xDC00 then
      match ps with
      | .unit l :: ps =>
        if 0xDC00 ≤ l ∧ l < 0xE000 then
          (decodePieces ps).map (utf8Encode (0x10000 + (u - 0xD800) * 1024 + (l - 0xDC00)) ++ ·)
        else none
      | _ => none
    else if 0xDC00 ≤ u ∧ u < 0xE000 then none
    else (decodePieces ps).map (utf8Encode u ++ ·)

def parseString (text : List UInt8) : Option (List UInt8 × List UInt8) :=
  (scanString false text).bind fun r =>
    ((unescape r.1).bind decodePieces).map fun s => (s, r.2)

/-! ## Numbers -/

def isDigit (c : UInt8) : Bool := 48 ≤ c && c ≤ 57

def decimalNumber (digits : List UInt8) : Nat := digits.foldl (fun n c => 10 * n + (c.toNat - 48)) 0

def parseFraction : List UInt8 → Option (List UInt8 × List UInt8)
  | 46 :: text =>
    if text.takeWhile isDigit = [] then none
    else some (text.takeWhile isDigit, text.dropWhile isDigit)
  | text => some ([], text)

def parseExponentSign : List UInt8 → Int × List UInt8
  | 43 :: text => (1, text)
  | 45 :: text => (-1, text)
  | text => (1, text)

def parseExponent : List UInt8 → Option (Int × List UInt8)
  | c :: text =>
    if c = 101 ∨ c = 69 then
      let (sign, text) := parseExponentSign text
      if text.takeWhile isDigit = [] then none
      else some (sign * decimalNumber (text.takeWhile isDigit), text.dropWhile isDigit)
    else some (0, c :: text)
  | [] => some (0, [])

def parseSign : List UInt8 → Int × List UInt8
  | 45 :: text => (-1, text)
  | text => (1, text)

def parseNumber (text : List UInt8) : Option (Value × List UInt8) :=
  let (sign, text) := parseSign text
  let digits := text.takeWhile isDigit
  if digits = [] ∨ (digits.head? = some 48 ∧ digits ≠ [48]) then none
  else
    (parseFraction (text.dropWhile isDigit)).bind fun (fraction, text) =>
      (parseExponent text).map fun (exponent, text) =>
        (.number (sign * decimalNumber (digits ++ fraction)) (exponent - fraction.length), text)

/-! ## Values, with a bound on their nesting and on the number of their parts -/

def isWs (c : UInt8) : Bool := c == 32 || c == 9 || c == 10 || c == 13

def skipWs (text : List UInt8) : List UInt8 := text.dropWhile isWs

abbrev Parser (α : Type) := List UInt8 → Option (α × List UInt8)

def parseItems (value : Parser Value) : Nat → Parser (List Value)
  | 0, _ => none
  | n + 1, text =>
    (value text).bind fun (v, text) =>
      match skipWs text with
      | 44 :: text => (parseItems value n text).map fun r => (v :: r.1, r.2)
      | 93 :: text => some ([v], text)
      | _ => none

def parseMembers (value : Parser Value) : Nat → Parser (List (List UInt8 × Value))
  | 0, _ => none
  | n + 1, text =>
    match skipWs text with
    | 34 :: text =>
      (parseString text).bind fun (key, text) =>
        match skipWs text with
        | 58 :: text =>
          (value text).bind fun (v, text) =>
            match skipWs text with
            | 44 :: text => (parseMembers value n text).map fun r => ((key, v) :: r.1, r.2)
            | 125 :: text => some ([(key, v)], text)
            | _ => none
        | _ => none
    | _ => none

def parseArray (items : Parser (List Value)) (text : List UInt8) : Option (Value × List UInt8) :=
  match skipWs text with
  | 93 :: text => some (.array [], text)
  | text => (items text).map fun r => (.array r.1, r.2)

def parseObject (members : Parser (List (List UInt8 × Value))) (text : List UInt8) :
    Option (Value × List UInt8) :=
  match skipWs text with
  | 125 :: text => some (.object [], text)
  | text => (members text).map fun r => (.object r.1, r.2)

def parseLiteral (word : List UInt8) (v : Value) (text : List UInt8) : Option (Value × List UInt8) :=
  if word <+: text then some (v, text.drop word.length) else none

def parseValue : Nat → Parser Value
  | 0, _ => none
  | n + 1, text =>
    match skipWs text with
    | [] => none
    | c :: text =>
      if c = 34 then (parseString text).map fun r => (.string r.1, r.2)
      else if c = 91 then parseArray (parseItems (parseValue n) n) text
      else if c = 123 then parseObject (parseMembers (parseValue n) n) text
      else if c = 110 then parseLiteral (ascii "null") .null (c :: text)
      else if c = 116 then parseLiteral (ascii "true") (.bool true) (c :: text)
      else if c = 102 then parseLiteral (ascii "false") (.bool false) (c :: text)
      else parseNumber (c :: text)

def parse (fuel : Nat) (text : List UInt8) : Option Value :=
  if ValidUtf8 text then
    (parseValue fuel text).bind fun (v, text) => if skipWs text = [] then some v else none
  else none

/-- The text is a JSON text for the value, by however long a parse. -/
def Denotes (text : List UInt8) (v : Value) : Prop := ∃ fuel, parse fuel text = some v

/-! ## UTF-8 around ASCII -/

theorem utf8Step_ascii {b : UInt8} (hb : b < 0x80) (st : Utf8State) :
    utf8Step st b = if st = .start then some .start else none := by
  have hno : ∀ lo hi next, utf8Tail lo hi next b = none := by
    intro lo hi next
    rw [utf8Tail, if_neg]
    intro h
    exact absurd h.1 (UInt8.not_le.mpr hb)
  cases st with
  | start => simp [utf8Step, utf8Lead, hb]
  | _ => simp [utf8Step, hno]

theorem validUtf8_append_ascii {c : UInt8} (hc : c < 0x80) (a b : List UInt8) :
    ValidUtf8 (a ++ c :: b) ↔ ValidUtf8 a ∧ ValidUtf8 b := by
  rw [ValidUtf8, ValidUtf8, Machine.run_append]
  cases Machine.run utf8Step .start a with
  | none => simp
  | some st =>
    rw [Option.bind_some, Machine.run, utf8Step_ascii hc]
    by_cases hst : st = .start
    · simp [hst]
    · simp [hst]

theorem validUtf8_cons_ascii {c : UInt8} (hc : c < 0x80) (b : List UInt8) :
    ValidUtf8 (c :: b) ↔ ValidUtf8 b := by
  have h := validUtf8_append_ascii hc [] b
  rw [List.nil_append] at h
  rw [h]
  exact and_iff_right rfl

theorem validUtf8_ascii_append {a : List UInt8} (ha : ∀ c ∈ a, c < 0x80) (b : List UInt8) :
    ValidUtf8 (a ++ b) ↔ ValidUtf8 b := by
  induction a with
  | nil => rfl
  | cons c a ih =>
    rw [List.cons_append, validUtf8_cons_ascii (ha c List.mem_cons_self),
      ih fun d hd => ha d (List.mem_cons_of_mem c hd)]

/-! ## Strings that stand for themselves -/

def Plain (s : List UInt8) : Prop := ∀ c ∈ s, c ≠ 34 ∧ c ≠ 92 ∧ 32 ≤ c

instance (s : List UInt8) : Decidable (Plain s) :=
  List.decidableBAll (fun c => c ≠ 34 ∧ c ≠ 92 ∧ 32 ≤ c) s

theorem scanString_cons {c : UInt8} (hc : c ≠ 34 ∧ c ≠ 92 ∧ 32 ≤ c) (text : List UInt8) :
    scanString false (c :: text) = (scanString false text).map fun r => (c :: r.1, r.2) := by
  obtain ⟨hquote, hback, hctl⟩ := hc
  have hflag : (c == 92) = false := by simpa using hback
  rw [scanString, if_neg hquote, if_neg (UInt8.not_lt.mpr hctl), hflag]

theorem scanString_plain {s : List UInt8} (hs : Plain s) (text : List UInt8) :
    scanString false (s ++ 34 :: text) = some (s, text) := by
  induction s with
  | nil => rfl
  | cons c s ih =>
    rw [List.cons_append, scanString_cons (hs c List.mem_cons_self),
      ih fun d hd => hs d (List.mem_cons_of_mem c hd)]
    rfl

theorem unescape_cons {c : UInt8} (hc : c ≠ 92) (raw : List UInt8) :
    unescape (c :: raw) = (unescape raw).map (.byte c :: ·) := by
  conv_lhs => unfold unescape
  rw [if_neg hc]

theorem unescape_of_no_backslash {raw : List UInt8} (h : 92 ∉ raw) :
    unescape raw = some (raw.map .byte) := by
  induction raw with
  | nil => rfl
  | cons c raw ih =>
    rw [List.mem_cons, not_or] at h
    rw [unescape_cons (Ne.symm h.1), ih h.2]
    rfl

theorem decodePieces_bytes (s : List UInt8) : decodePieces (s.map .byte) = some s := by
  induction s with
  | nil => rfl
  | cons c s ih =>
    rw [List.map_cons, decodePieces, ih]
    rfl

theorem parseString_plain {s : List UInt8} (hs : Plain s) (text : List UInt8) :
    parseString (s ++ 34 :: text) = some (s, text) := by
  have hback : 92 ∉ s := fun h => (hs 92 h).2.1 rfl
  rw [parseString, scanString_plain hs, Option.bind_some, unescape_of_no_backslash hback,
    Option.bind_some, decodePieces_bytes]
  rfl

/-! ## No string decodes to more bytes than it is written with -/

/-- A unit decodes to at most four bytes, alone or as half of a pair. -/
def weight (ps : List Piece) : Nat := (ps.map fun | .byte _ => 1 | .unit _ => 4).sum

theorem utf8Encode_length_le (u : Nat) : (utf8Encode u).length ≤ 4 := by
  unfold utf8Encode
  rw [List.length_map]
  split
  · simp
  · split
    · simp
    · split <;> simp

theorem decodePieces_length_le {ps : List Piece} {s : List UInt8} (h : decodePieces ps = some s) :
    s.length ≤ weight ps := by
  fun_induction decodePieces ps generalizing s with
  | case1 =>
    obtain rfl : [] = s := by simpa using h
    exact Nat.zero_le _
  | case2 b ps ih =>
    obtain ⟨t, ht, rfl⟩ := Option.map_eq_some_iff.mp h
    have hlen := ih ht
    simp only [weight, List.map_cons, List.sum_cons, List.length_cons] at hlen ⊢
    omega
  | case3 u _ l ps _ ih =>
    obtain ⟨t, ht, rfl⟩ := Option.map_eq_some_iff.mp h
    have hlen := ih ht
    have henc := utf8Encode_length_le (0x10000 + (u - 0xD800) * 1024 + (l - 0xDC00))
    simp only [weight, List.map_cons, List.sum_cons, List.length_append] at hlen ⊢
    omega
  | case7 u ps _ _ ih =>
    obtain ⟨t, ht, rfl⟩ := Option.map_eq_some_iff.mp h
    have hlen := ih ht
    have henc := utf8Encode_length_le u
    simp only [weight, List.map_cons, List.sum_cons, List.length_append] at hlen ⊢
    omega
  | _ => cases h

theorem unescape_weight {raw : List UInt8} {ps : List Piece} (h : unescape raw = some ps) :
    weight ps ≤ raw.length ∧ (92 ∈ raw → weight ps < raw.length) := by
  fun_induction unescape raw generalizing ps with
  | case1 =>
    obtain rfl : [] = ps := by simpa using h
    exact ⟨le_rfl, fun hm => absurd hm (List.not_mem_nil)⟩
  | case2 h₁ h₂ h₃ h₄ raw _ ih =>
    obtain ⟨qs, hq, rfl⟩ := Option.map_eq_some_iff.mp h
    have hw := (ih hq).1
    simp only [weight, List.map_cons, List.sum_cons, List.length_cons] at hw ⊢
    omega
  | case3 => cases h
  | case4 e raw _ ih =>
    obtain ⟨b, _, hb⟩ := Option.bind_eq_some_iff.mp h
    obtain ⟨qs, hq, rfl⟩ := Option.map_eq_some_iff.mp hb
    have hw := (ih hq).1
    simp only [weight, List.map_cons, List.sum_cons, List.length_cons] at hw ⊢
    omega
  | case5 => cases h
  | case6 c raw hc ih =>
    obtain ⟨qs, hq, rfl⟩ := Option.map_eq_some_iff.mp h
    obtain ⟨hle, hlt⟩ := ih hq
    simp only [weight, List.map_cons, List.sum_cons, List.length_cons, List.mem_cons] at hle hlt ⊢
    refine ⟨by omega, ?_⟩
    rintro (rfl | hm)
    · exact absurd rfl hc
    · have hw := hlt hm
      omega

theorem unescape_decode {raw s : List UInt8} (h : (unescape raw).bind decodePieces = some s) :
    s.length ≤ raw.length ∧ (raw.length ≤ s.length → 92 ∉ raw ∧ s = raw) := by
  obtain ⟨ps, hps, hs⟩ := Option.bind_eq_some_iff.mp h
  obtain ⟨hle, hlt⟩ := unescape_weight hps
  have hlen := decodePieces_length_le hs
  refine ⟨hlen.trans hle, ?_⟩
  intro hfull
  have hno : 92 ∉ raw := by
    intro hm
    have hw := hlt hm
    omega
  rw [unescape_of_no_backslash hno] at hps
  obtain rfl := Option.some.inj hps
  rw [decodePieces_bytes] at hs
  exact ⟨hno, (Option.some.inj hs).symm⟩

/-- Where a scan ends that starts with `s` and goes on at `":"` or the like: at
the quote after `s`, inside `s`, or, if a backslash hides that quote, at the next one. -/
theorem scanString_cases {s text raw rest : List UInt8} {sep : UInt8} {esc : Bool}
    (hsep : sep ≠ 34 ∧ sep ≠ 92 ∧ 32 ≤ sep)
    (h : scanString esc (s ++ 34 :: sep :: 34 :: text) = some (raw, rest)) :
    (raw = s ∧ rest = sep :: 34 :: text ∧ (esc = false → 92 ∉ s → Plain s)) ∨
      raw.length < s.length ∨ rest = text := by
  induction s generalizing esc raw with
  | nil =>
    cases esc with
    | false =>
      obtain ⟨rfl, rfl⟩ : [] = raw ∧ sep :: 34 :: text = rest := by simpa [scanString] using h
      exact Or.inl ⟨rfl, rfl, fun _ _ c hc => absurd hc List.not_mem_nil⟩
    | true =>
      rw [List.nil_append, scanString, scanString_cons hsep] at h
      obtain ⟨_, rfl⟩ : [34, sep] = raw ∧ text = rest := by simpa [scanString] using h
      exact Or.inr (Or.inr rfl)
  | cons c s ih =>
    rw [List.cons_append] at h
    cases esc with
    | true =>
      obtain ⟨⟨raw', rest'⟩, hscan, heq⟩ := Option.map_eq_some_iff.mp h
      obtain ⟨rfl, rfl⟩ := Prod.mk.inj heq
      rcases ih hscan with ⟨rfl, rfl, _⟩ | hlt | rfl
      · exact Or.inl ⟨rfl, rfl, fun he => absurd he (by decide)⟩
      · exact Or.inr (Or.inl (Nat.succ_lt_succ hlt))
      · exact Or.inr (Or.inr rfl)
    | false =>
      by_cases hquote : c = 34
      · rw [scanString, if_pos hquote] at h
        obtain ⟨rfl, _⟩ := Prod.mk.inj (Option.some.inj h)
        exact Or.inr (Or.inl (Nat.succ_pos _))
      by_cases hctl : c < 32
      · rw [scanString, if_neg hquote, if_pos hctl] at h
        cases h
      · rw [scanString, if_neg hquote, if_neg hctl] at h
        obtain ⟨⟨raw', rest'⟩, hscan, heq⟩ := Option.map_eq_some_iff.mp h
        obtain ⟨rfl, rfl⟩ := Prod.mk.inj heq
        rcases ih hscan with ⟨rfl, rfl, hplain⟩ | hlt | rfl
        · refine Or.inl ⟨rfl, rfl, fun _ hno => ?_⟩
          rw [List.mem_cons, not_or] at hno
          have hp := hplain (by simpa using Ne.symm hno.1) hno.2
          intro d hd
          rcases List.mem_cons.mp hd with rfl | hd
          · exact ⟨hquote, Ne.symm hno.1, UInt8.not_lt.mp hctl⟩
          · exact hp d hd
        · exact Or.inr (Or.inl (Nat.succ_lt_succ hlt))
        · exact Or.inr (Or.inr rfl)

/-- A string that starts with `s` and decodes to `s` is `s` itself, written
plainly, unless it ends behind the quote after `s`. -/
theorem parseString_eq {s text rest : List UInt8} {sep : UInt8}
    (hsep : sep ≠ 34 ∧ sep ≠ 92 ∧ 32 ≤ sep)
    (h : parseString (s ++ 34 :: sep :: 34 :: text) = some (s, rest)) : Plain s ∨ rest = text := by
  obtain ⟨⟨raw, rest'⟩, hscan, hmap⟩ := Option.bind_eq_some_iff.mp h
  obtain ⟨s', hs, heq⟩ := Option.map_eq_some_iff.mp hmap
  obtain ⟨rfl, rfl⟩ := Prod.mk.inj heq
  obtain ⟨hle, hfull⟩ := unescape_decode hs
  rcases scanString_cases hsep hscan with ⟨rfl, _, hplain⟩ | hlt | hrest
  · exact Or.inl (hplain rfl (hfull le_rfl).1)
  · exact absurd hle (not_le.mpr hlt)
  · exact Or.inr hrest

/-! ## Integers as C prints them -/

theorem isDigit_decimal (n : Nat) : ∀ c ∈ decimal n, isDigit c = true := by
  intro c hc
  obtain ⟨hlo, hhi⟩ := decimal_chars n c hc
  simp [isDigit, hlo, hhi]

theorem parseSign_formatInt (z : Int) (text : List UInt8) :
    ∃ sign, parseSign (formatInt z ++ text) = (sign, decimal z.natAbs ++ text) ∧
      sign * (z.natAbs : Int) = z := by
  by_cases hz : z < 0
  · refine ⟨-1, ?_, by omega⟩
    rw [formatInt, if_pos hz]
    rfl
  · refine ⟨1, ?_, by omega⟩
    rw [formatInt, if_neg hz, List.nil_append]
    obtain ⟨c, l, hcl⟩ := List.exists_cons_of_ne_nil (decimal_ne_nil z.natAbs)
    obtain ⟨hlo, _⟩ := decimal_chars z.natAbs c (by simp [hcl])
    have hc : c ≠ 45 := by
      rintro rfl
      exact absurd hlo (by decide)
    rw [hcl, List.cons_append]
    unfold parseSign
    split
    · simp_all
    · rfl

theorem parseNumber_formatInt (z : Int) {c : UInt8} (hd : isDigit c = false) (hc : c ≠ 46)
    (he : c ≠ 101 ∧ c ≠ 69) (text : List UInt8) :
    parseNumber (formatInt z ++ c :: text) = some (.number z 0, c :: text) := by
  obtain ⟨sign, hsign, hz⟩ := parseSign_formatInt z (c :: text)
  have hall := isDigit_decimal z.natAbs
  have htake : (decimal z.natAbs ++ c :: text).takeWhile isDigit = decimal z.natAbs := by
    rw [List.takeWhile_append_of_pos hall]
    simp [hd]
  have hdrop : (decimal z.natAbs ++ c :: text).dropWhile isDigit = c :: text := by
    rw [List.dropWhile_append_of_pos hall]
    simp [hd]
  have hlead : ¬(decimal z.natAbs = [] ∨
      ((decimal z.natAbs).head? = some 48 ∧ decimal z.natAbs ≠ [48])) := by
    rintro (hnil | ⟨hzero, hne⟩)
    · exact decimal_ne_nil _ hnil
    · by_cases h0 : z.natAbs = 0
      · exact hne (by rw [h0]; rfl)
      · exact decimal_head h0 hzero
  have hfrac : parseFraction (c :: text) = some ([], c :: text) := by
    unfold parseFraction
    split
    · simp_all
    · rfl
  have hexp : parseExponent (c :: text) = some (0, c :: text) := by
    rw [parseExponent, if_neg (not_or.mpr he)]
  have hval : decimalNumber (decimal z.natAbs) = z.natAbs := decimal_value z.natAbs
  rw [parseNumber, hsign]
  simp only [htake, hdrop, if_neg hlead, hfrac, Option.bind_some, hexp, Option.map_some,
    List.append_nil, hval, hz]
  rfl

/-! ## Steps of the parser on compact text -/

theorem skipWs_cons {c : UInt8} (hc : isWs c = false) (text : List UInt8) :
    skipWs (c :: text) = c :: text := by
  simp [skipWs, hc]

theorem parseValue_formatInt (n : Nat) (z : Int) {c : UInt8} (hd : isDigit c = false) (hc : c ≠ 46)
    (he : c ≠ 101 ∧ c ≠ 69) (text : List UInt8) :
    parseValue (n + 1) (formatInt z ++ c :: text) = some (.number z 0, c :: text) := by
  have hnum := parseNumber_formatInt z hd hc he text
  obtain ⟨d, l, hdl, hhead⟩ : ∃ d l, formatInt z = d :: l ∧ (d = 45 ∨ 48 ≤ d ∧ d ≤ 57) := by
    by_cases hz : z < 0
    · exact ⟨45, decimal z.natAbs, by rw [formatInt, if_pos hz]; rfl, Or.inl rfl⟩
    · obtain ⟨d, l, hdl⟩ := List.exists_cons_of_ne_nil (decimal_ne_nil z.natAbs)
      exact ⟨d, l, by rw [formatInt, if_neg hz, List.nil_append, hdl],
        Or.inr (decimal_chars z.natAbs d (by simp [hdl]))⟩
  have hother : isWs d = false ∧ d ≠ 34 ∧ d ≠ 91 ∧ d ≠ 123 ∧ d ≠ 110 ∧ d ≠ 116 ∧ d ≠ 102 := by
    revert hhead
    exact forall_byte (p := fun d => (d = 45 ∨ 48 ≤ d ∧ d ≤ 57) → isWs d = false ∧ d ≠ 34 ∧
      d ≠ 91 ∧ d ≠ 123 ∧ d ≠ 110 ∧ d ≠ 116 ∧ d ≠ 102) (by decide +kernel) d
  obtain ⟨hws, h34, h91, h123, h110, h116, h102⟩ := hother
  rw [hdl, List.cons_append] at hnum ⊢
  rw [parseValue, skipWs_cons hws]
  simp only [if_neg h34, if_neg h91, if_neg h123, if_neg h110, if_neg h116, if_neg h102, hnum]

theorem parseValue_string {s : List UInt8} (hs : Plain s) (n : Nat) (text : List UInt8) :
    parseValue (n + 1) (34 :: (s ++ 34 :: text)) = some (.string s, text) := by
  rw [parseValue, skipWs_cons (by decide)]
  simp only [if_true, parseString_plain hs, Option.map_some]

theorem parseValue_members (n : Nat) (text : List UInt8) :
    parseValue (n + 1) (123 :: 34 :: text) =
      (parseMembers (parseValue n) n (34 :: text)).map fun r => (.object r.1, r.2) := rfl

theorem parseValue_items (n : Nat) (text : List UInt8) :
    parseValue (n + 1) (91 :: 123 :: text) =
      (parseItems (parseValue n) n (123 :: text)).map fun r => (.array r.1, r.2) := rfl

theorem parseMembers_key {key : List UInt8} (hkey : Plain key) (value : Parser Value) (n : Nat)
    (text : List UInt8) :
    parseMembers value (n + 1) (34 :: (key ++ 34 :: 58 :: text)) =
      (value text).bind fun r =>
        match skipWs r.2 with
        | 44 :: text => (parseMembers value n text).map fun q => ((key, r.1) :: q.1, q.2)
        | 125 :: text => some ([(key, r.1)], text)
        | _ => none := by
  rw [parseMembers, skipWs_cons (by decide)]
  simp only [parseString_plain hkey, Option.bind_some]
  rw [skipWs_cons (by decide)]
  rfl

section Steps

variable {value : Parser Value} {key text rest : List UInt8} {v : Value}

theorem parseMembers_next (hkey : Plain key) (n : Nat) (hv : value text = some (v, 44 :: rest)) :
    parseMembers value (n + 1) (34 :: (key ++ 34 :: 58 :: text)) =
      (parseMembers value n rest).map fun q => ((key, v) :: q.1, q.2) := by
  rw [parseMembers_key hkey, hv, Option.bind_some, skipWs_cons (by decide)]
  rfl

theorem parseMembers_last (hkey : Plain key) (n : Nat) (hv : value text = some (v, 125 :: rest)) :
    parseMembers value (n + 1) (34 :: (key ++ 34 :: 58 :: text)) = some ([(key, v)], rest) := by
  rw [parseMembers_key hkey, hv, Option.bind_some, skipWs_cons (by decide)]
  rfl

theorem parseItems_next (n : Nat) (hv : value text = some (v, 44 :: rest)) :
    parseItems value (n + 1) text = (parseItems value n rest).map fun q => (v :: q.1, q.2) := by
  rw [parseItems, hv, Option.bind_some]
  dsimp only
  rw [skipWs_cons (by decide)]
  rfl

theorem parseItems_last (n : Nat) (hv : value text = some (v, 93 :: rest)) :
    parseItems value (n + 1) text = some ([v], rest) := by
  rw [parseItems, hv, Option.bind_some]
  dsimp only
  rw [skipWs_cons (by decide)]
  rfl

/-- Of a list of members the first one was parsed first, and a separator follows it. -/
theorem parseMembers_some {n : Nat} {ms : List (List UInt8 × Value)} (hkey : Plain key)
    (h : parseMembers value n (34 :: (key ++ 34 :: 58 :: text)) = some (ms, rest)) :
    ∃ v after, value text = some (v, after) ∧ ms.head? = some (key, v) ∧
      ((skipWs after).head? = some 44 ∨ (skipWs after).head? = some 125) := by
  rcases n with _ | n
  · cases h
  rw [parseMembers_key hkey] at h
  obtain ⟨⟨v, after⟩, hv, hrest⟩ := Option.bind_eq_some_iff.mp h
  refine ⟨v, after, hv, ?_⟩
  dsimp only at hrest
  split at hrest
  case h_1 t ht =>
    obtain ⟨q, _, hq⟩ := Option.map_eq_some_iff.mp hrest
    obtain ⟨rfl, _⟩ := Prod.mk.inj hq
    exact ⟨rfl, Or.inl (by rw [ht]; rfl)⟩
  case h_2 t ht =>
    obtain ⟨rfl, _⟩ := Prod.mk.inj (Option.some.inj hrest)
    exact ⟨rfl, Or.inr (by rw [ht]; rfl)⟩
  case h_3 => cases hrest

theorem parseItems_some {n : Nat} {vs : List Value} (h : parseItems value n text = some (vs, rest)) :
    ∃ v after, value text = some (v, after) ∧ vs.head? = some v := by
  rcases n with _ | n
  · cases h
  rw [parseItems] at h
  obtain ⟨⟨v, after⟩, hv, hrest⟩ := Option.bind_eq_some_iff.mp h
  refine ⟨v, after, hv, ?_⟩
  dsimp only at hrest
  split at hrest
  case h_1 =>
    obtain ⟨q, _, hq⟩ := Option.map_eq_some_iff.mp hrest
    obtain ⟨rfl, _⟩ := Prod.mk.inj hq
    rfl
  case h_2 =>
    obtain ⟨rfl, _⟩ := Prod.mk.inj (Option.some.inj hrest)
    rfl
  case h_3 => cases hrest

end Steps

/-! ## A longer parse changes no result -/

theorem parseItems_mono {p q : Parser Value} (hpq : ∀ text r, p text = some r → q text = some r)
    {n m : Nat} (hnm : n ≤ m) {text : List UInt8} {r : List Value × List UInt8}
    (h : parseItems p n text = some r) : parseItems q m text = some r := by
  induction n generalizing m text r with
  | zero => cases h
  | succ n ih =>
    obtain ⟨m, rfl⟩ : ∃ k, m = k + 1 := ⟨m - 1, by omega⟩
    rw [parseItems] at h ⊢
    obtain ⟨⟨v, after⟩, hv, hrest⟩ := Option.bind_eq_some_iff.mp h
    rw [hpq _ _ hv, Option.bind_some]
    dsimp only at hrest ⊢
    split at hrest
    case h_1 =>
      obtain ⟨s, hs, rfl⟩ := Option.map_eq_some_iff.mp hrest
      simp only [ih (Nat.le_of_succ_le_succ hnm) hs, Option.map_some]
    case h_2 => exact hrest
    case h_3 => cases hrest

theorem parseMembers_mono {p q : Parser Value} (hpq : ∀ text r, p text = some r → q text = some r)
    {n m : Nat} (hnm : n ≤ m) {text : List UInt8} {r : List (List UInt8 × Value) × List UInt8}
    (h : parseMembers p n text = some r) : parseMembers q m text = some r := by
  induction n generalizing m text r with
  | zero => cases h
  | succ n ih =>
    obtain ⟨m, rfl⟩ : ∃ k, m = k + 1 := ⟨m - 1, by omega⟩
    rw [parseMembers] at h ⊢
    split at h
    case h_2 => cases h
    case h_1 =>
      obtain ⟨⟨key, afterKey⟩, hkey, hcolon⟩ := Option.bind_eq_some_iff.mp h
      simp only [hkey, Option.bind_some]
      dsimp only at hcolon
      split at hcolon
      case h_2 => cases hcolon
      case h_1 =>
        obtain ⟨⟨v, after⟩, hv, hrest⟩ := Option.bind_eq_some_iff.mp hcolon
        simp only [hpq _ _ hv, Option.bind_some]
        dsimp only at hrest
        split at hrest
        case h_1 =>
          obtain ⟨s, hs, rfl⟩ := Option.map_eq_some_iff.mp hrest
          simp only [ih (Nat.le_of_succ_le_succ hnm) hs, Option.map_some]
        case h_2 => exact hrest
        case h_3 => cases hrest

theorem parseArray_mono {p q : Parser (List Value)} (hpq : ∀ text r, p text = some r → q text = some r)
    {text : List UInt8} {r : Value × List UInt8} (h : parseArray p text = some r) :
    parseArray q text = some r := by
  rw [parseArray] at h ⊢
  split at h
  case h_1 => exact h
  case h_2 =>
    obtain ⟨s, hs, rfl⟩ := Option.map_eq_some_iff.mp h
    rw [hpq _ _ hs, Option.map_some]

theorem parseObject_mono {p q : Parser (List (List UInt8 × Value))}
    (hpq : ∀ text r, p text = some r → q text = some r) {text : List UInt8}
    {r : Value × List UInt8} (h : parseObject p text = some r) : parseObject q text = some r := by
  rw [parseObject] at h ⊢
  split at h
  case h_1 => exact h
  case h_2 =>
    obtain ⟨s, hs, rfl⟩ := Option.map_eq_some_iff.mp h
    rw [hpq _ _ hs, Option.map_some]

theorem parseValue_mono {n m : Nat} (hnm : n ≤ m) {text : List UInt8} {r : Value × List UInt8}
    (h : parseValue n text = some r) : parseValue m text = some r := by
  induction n generalizing m text r with
  | zero => cases h
  | succ n ih =>
    obtain ⟨m, rfl⟩ : ∃ k, m = k + 1 := ⟨m - 1, by omega⟩
    have hle := Nat.le_of_succ_le_succ hnm
    have hpq : ∀ text r, parseValue n text = some r → parseValue m text = some r :=
      fun _ _ hv => ih hle hv
    rw [parseValue] at h ⊢
    split at h
    case h_1 => cases h
    case h_2 _ c t _ =>
      by_cases h34 : c = 34
      · rwa [if_pos h34] at h ⊢
      rw [if_neg h34] at h ⊢
      by_cases h91 : c = 91
      · rw [if_pos h91] at h ⊢
        exact parseArray_mono (fun _ _ hi => parseItems_mono hpq hle hi) h
      rw [if_neg h91] at h ⊢
      by_cases h123 : c = 123
      · rw [if_pos h123] at h ⊢
        exact parseObject_mono (fun _ _ hm => parseMembers_mono hpq hle hm) h
      · rwa [if_neg h123] at h ⊢

theorem parse_mono {n m : Nat} (hnm : n ≤ m) {text : List UInt8} {v : Value}
    (h : parse n text = some v) : parse m text = some v := by
  rw [parse] at h ⊢
  by_cases hutf : ValidUtf8 text
  · rw [if_pos hutf] at h ⊢
    obtain ⟨r, hr, hv⟩ := Option.bind_eq_some_iff.mp h
    rw [parseValue_mono hnm hr]
    exact hv
  · rw [if_neg hutf] at h
    cases h

end JsonText
