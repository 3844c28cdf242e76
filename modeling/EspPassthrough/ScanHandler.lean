import EspPassthrough.RingBuffer
import EspPassthrough.Utils

/-! `scan_get_handler` of `wifi_prov.c`: the text it prints into `json_buf`, with
every write checked against the block. `none` is an access outside it. -/

namespace EspPassthrough

open CText

structure WifiApRecord where
  ssid : Vector UInt8 33
  ssid_terminated : 0 ∈ ssid.toList
  rssi : Int8
  authmode : Int32
  bssid : Vector UInt8 6

/-- The SSID as `strlen` and `%s` see it. -/
def WifiApRecord.name (r : WifiApRecord) : List UInt8 := cstr r.ssid.toList

/-- `%02x:%02x:%02x:%02x:%02x:%02x`. -/
def macText (bssid : Vector UInt8 6) : List UInt8 := [58].intercalate (bssid.toList.map formatByte)

def recordText (r : WifiApRecord) : List UInt8 :=
  ascii "\x7b\"ssid\":\"" ++ r.name ++ ascii "\",\"rssi\":" ++ formatInt r.rssi.toInt ++
    ascii ",\"auth\":" ++ formatInt r.authmode.toInt ++ ascii ",\"bssid\":\"" ++
    macText r.bssid ++ ascii "\"\x7d"

/-- `json_buf` and the index of `ptr` in it. -/
abbrev Cursor := List UInt8 × Nat

/-- `ptr += sprintf(ptr, ..)`; the text is written with its null. -/
def sprintf (b : Cursor) (text : List UInt8) : Option Cursor :=
  (writeAt b.1 b.2 (text ++ [0])).map fun buf => (buf, b.2 + text.length)

def scanLoop (apCount : Nat) : Nat → List WifiApRecord → Cursor → Option Cursor
  | _, [], b => some b
  | i, r :: rs, b =>
    if r.name.length = 0 then scanLoop apCount (i + 1) rs b
    else
      (sprintf b (recordText r)).bind fun b =>
        if (i : Int) < (apCount : Int) - 1 then
          (sprintf b [44]).bind (scanLoop apCount (i + 1) rs)
        else scanLoop apCount (i + 1) rs b

/-- `if (*(ptr - 1) == ',') ptr--;` -/
def dropComma (b : Cursor) : Option Cursor :=
  if b.2 = 0 then none
  else b.1[b.2 - 1]?.map fun c => if c = 44 then (b.1, b.2 - 1) else b

def printScan (block : List UInt8) (apList : List WifiApRecord) : Option (List UInt8) :=
  (sprintf (block, 0) [91]).bind fun b =>
    (scanLoop apList.length 0 apList b).bind fun b =>
      (dropComma b).bind fun b => (sprintf b [93]).map Prod.fst

/-- What the handler learns from the SDK. `esp_wifi_scan_get_ap_records` is given
the capped count and may return fewer records. -/
structure ScanSdk where
  scanStart : Bool
  apNum : UInt16
  mallocApList : Bool
  apRecords : (apCount : Nat) → List WifiApRecord
  apRecords_length : ∀ apCount, (apRecords apCount).length ≤ apCount
  malloc : Malloc

inductive ScanCall where
  | send500
  | setType (type : List UInt8)
  | send (text : List UInt8)
  | freeJsonBuf
  | freeApList
  deriving DecidableEq

def scanGetHandler (sdk : ScanSdk) : Option (List ScanCall) :=
  if sdk.scanStart = false then some [.send500]
  else if sdk.apNum = 0 then some [.send (ascii "[]")]
  else if sdk.mallocApList = false then some [.send500]
  else
    let apList := sdk.apRecords (min sdk.apNum.toNat 20)
    match sdk.malloc (apList.length * 128 + 10) with
    | none => some [.freeApList, .send500]
    | some block =>
      (printScan block.toList apList).map fun buf =>
        [.setType (ascii "application/json"), .send (cstr buf), .freeJsonBuf, .freeApList]

/-! ## The layout of the list -/

def visible (rs : List WifiApRecord) : List WifiApRecord := rs.filter fun r => r.name.length ≠ 0

def listText (rs : List WifiApRecord) : List UInt8 := [44].intercalate ((visible rs).map recordText)

theorem WifiApRecord.name_length_le (r : WifiApRecord) : r.name.length ≤ 32 := by
  obtain ⟨u, v, huv⟩ := List.append_of_mem r.ssid_terminated
  have hlen : r.ssid.toList.length = 33 := by simp
  rw [huv, List.length_append, List.length_cons] at hlen
  have hle := cstr_length_le u
  rw [WifiApRecord.name, huv, cstr_append_null]
  omega

theorem WifiApRecord.name_no_null (r : WifiApRecord) : 0 ∉ r.name := by
  intro h
  exact cstr_no_null _ 0 h rfl

theorem macText_length (bssid : Vector UInt8 6) : (macText bssid).length = 17 := by
  obtain ⟨⟨l⟩, hl⟩ := bssid
  match l, hl with
  | [_, _, _, _, _, _], _ => rfl

theorem recordText_length_le (r : WifiApRecord) : (recordText r).length ≤ 102 := by
  have hname := r.name_length_le
  have hmac := macText_length r.bssid
  have hrssi : (formatInt r.rssi.toInt).length ≤ 3 + 1 := by
    have hlt := r.rssi.toInt_lt
    have hge := r.rssi.le_toInt
    exact formatInt_length_le (by decide) (by omega)
  have hauth : (formatInt r.authmode.toInt).length ≤ 10 + 1 := by
    have hlt := r.authmode.toInt_lt
    have hge := r.authmode.le_toInt
    exact formatInt_length_le (by decide) (by omega)
  have hkeys : (ascii "\x7b\"ssid\":\"").length = 9 ∧ (ascii "\",\"rssi\":").length = 9 ∧
    (ascii ",\"auth\":").length = 8 ∧ (ascii ",\"bssid\":\"").length = 10 ∧
    (ascii "\"\x7d").length = 2 := by decide
  simp only [recordText, List.length_append, hkeys]
  omega

theorem sprintf_append {text rest piece : List UInt8} (h : piece.length < rest.length) :
    ∃ tail, sprintf (text ++ rest, text.length) piece =
        some (text ++ piece ++ 0 :: tail, (text ++ piece).length) ∧
      piece.length + tail.length + 1 = rest.length := by
  have hsplit : rest = rest.take (piece.length + 1) ++ rest.drop (piece.length + 1) :=
    (List.take_append_drop _ _).symm
  have hlen : (piece ++ [0]).length = (rest.take (piece.length + 1)).length := by
    rw [List.length_take, List.length_append, List.length_singleton]
    omega
  refine ⟨rest.drop (piece.length + 1), ?_, ?_⟩
  · rw [hsplit, sprintf, writeAt_append hlen, Option.map_some, ← hsplit, List.length_append]
    simp
  · rw [List.length_drop]
    omega

def Literal (s : List UInt8) : Prop := ∀ c ∈ s, 45 ≤ c ∧ c ≤ 102 ∧ c ≠ 92

theorem formatInt_literal (z : Int) : Literal (formatInt z) := by
  intro c hc
  have hchar := formatInt_chars z c hc
  revert hchar
  exact forall_byte (p := fun c => (c = 45 ∨ 48 ≤ c ∧ c ≤ 57) → 45 ≤ c ∧ c ≤ 102 ∧ c ≠ 92)
    (by decide +kernel) c

theorem macText_literal (bssid : Vector UInt8 6) : Literal (macText bssid) := by
  intro c hc
  rcases FormEncoding.mem_of_mem_intercalate hc with rfl | ⟨l, hl, hcl⟩
  · decide
  · obtain ⟨b, _, rfl⟩ := List.mem_map.mp hl
    have hchar := formatByte_chars b c hcl
    revert hchar
    exact forall_byte (p := fun c => ((48 ≤ c ∧ c ≤ 57) ∨ (97 ≤ c ∧ c ≤ 102)) →
      45 ≤ c ∧ c ≤ 102 ∧ c ≠ 92) (by decide +kernel) c

theorem Literal.no_null {s : List UInt8} (h : Literal s) : 0 ∉ s := by
  intro h0
  exact absurd (h 0 h0).1 (by decide)

theorem recordText_no_null (r : WifiApRecord) : 0 ∉ recordText r := by
  have hkeys : 0 ∉ ascii "\x7b\"ssid\":\"" ∧ 0 ∉ ascii "\",\"rssi\":" ∧ 0 ∉ ascii ",\"auth\":" ∧
    0 ∉ ascii ",\"bssid\":\"" ∧ 0 ∉ ascii "\"\x7d" := by decide
  simp only [recordText, List.mem_append, hkeys, r.name_no_null, (formatInt_literal _).no_null,
    (macText_literal _).no_null, or_false, not_false_eq_true]

theorem listText_no_null (rs : List WifiApRecord) : 0 ∉ listText rs := by
  intro h
  rcases FormEncoding.mem_of_mem_intercalate h with h0 | ⟨l, hl, h0⟩
  · exact absurd h0 (by decide)
  · obtain ⟨r, _, rfl⟩ := List.mem_map.mp hl
    exact recordText_no_null r h0

theorem visible_hidden {r : WifiApRecord} (h : r.name.length = 0) (rs : List WifiApRecord) :
    visible (r :: rs) = visible rs :=
  List.filter_cons_of_neg (by simpa using h)

theorem visible_shown {r : WifiApRecord} (h : r.name.length ≠ 0) (rs : List WifiApRecord) :
    visible (r :: rs) = r :: visible rs :=
  List.filter_cons_of_pos (by simpa using h)

theorem listText_hidden {r : WifiApRecord} (h : r.name.length = 0) (rs : List WifiApRecord) :
    listText (r :: rs) = listText rs := by
  rw [listText, visible_hidden h, listText]

theorem listText_shown {r : WifiApRecord} (h : r.name.length ≠ 0) (rs : List WifiApRecord) :
    listText (r :: rs) =
      recordText r ++ if visible rs = [] then [] else 44 :: listText rs := by
  rw [listText, listText, visible_shown h, List.map_cons]
  cases hrs : visible rs with
  | nil => simp
  | cons q qs =>
    rw [List.map_cons, List.intercalate_cons_cons, if_neg (by simp)]
    simp

/-- The loop appends the list, and a comma too many if the last record is hidden. -/
theorem scanLoop_spec {apCount i : Nat} {rs : List WifiApRecord} (hi : i + rs.length = apCount)
    {text rest : List UInt8} (hroom : 128 * rs.length + 2 ≤ rest.length) :
    ∃ comma tail, scanLoop apCount i rs (text ++ rest, text.length) =
        some (text ++ (listText rs ++ comma) ++ tail, (text ++ (listText rs ++ comma)).length) ∧
      (comma = [] ∨ comma = [44] ∧ visible rs ≠ []) ∧
      rest.length ≤ tail.length + 128 * rs.length := by
  induction rs generalizing i text rest with
  | nil => exact ⟨[], rest, by simp [scanLoop, listText, visible], Or.inl rfl, Nat.le_add_right _ _⟩
  | cons r rs ih =>
    rw [List.length_cons] at hi hroom ⊢
    by_cases hidden : r.name.length = 0
    · obtain ⟨comma, tail, hloop, hcomma, hlen⟩ :=
        @ih (i + 1) (by omega) text rest (by omega)
      refine ⟨comma, tail, ?_, by rwa [visible_hidden hidden], by omega⟩
      rw [scanLoop, if_pos hidden, listText_hidden hidden, hloop]
    · have hrec := recordText_length_le r
      obtain ⟨t₁, hrecord, hlen₁⟩ := @sprintf_append text rest (recordText r) (by omega)
      rw [scanLoop, if_neg hidden, hrecord, Option.bind_some, listText_shown hidden]
      by_cases hlast : rs = []
      · subst hlast
        have hno : ¬(i : Int) < (apCount : Int) - 1 := by
          rw [List.length_nil] at hi
          omega
        rw [if_neg hno, scanLoop]
        refine ⟨[], 0 :: t₁, ?_, Or.inl rfl, ?_⟩
        · simp [visible]
        · rw [List.length_cons, List.length_nil]
          omega
      · have hpos : 0 < rs.length := List.length_pos_iff.mpr hlast
        obtain ⟨t₂, hsep, hlen₂⟩ := @sprintf_append (text ++ recordText r) (0 :: t₁) [44] (by
          rw [List.length_cons, List.length_cons, List.length_nil]
          omega)
        rw [List.length_cons, List.length_cons, List.length_nil] at hlen₂
        rw [if_pos (by omega), hsep, Option.bind_some]
        obtain ⟨comma, tail, hloop, hcomma, hlen⟩ :=
          @ih (i + 1) (by omega) (text ++ recordText r ++ [44]) (0 :: t₂) (by
            rw [List.length_cons]
            omega)
        rw [List.length_cons] at hlen
        rw [hloop]
        by_cases hvis : visible rs = []
        · obtain rfl : comma = [] := by
            rcases hcomma with rfl | ⟨_, hne⟩
            · rfl
            · exact absurd hvis hne
          have hnil : listText rs = [] := by simp [listText, hvis]
          have hne : visible (r :: rs) ≠ [] := by simp [visible_shown hidden]
          refine ⟨[44], tail, ?_, Or.inr ⟨rfl, hne⟩, by omega⟩
          simp [hnil, hvis]
        · have hne : visible (r :: rs) ≠ [] := by simp [visible_shown hidden]
          refine ⟨comma, tail, ?_, ?_, by omega⟩
          · simp [hvis]
          · rcases hcomma with rfl | ⟨rfl, _⟩
            · exact Or.inl rfl
            · exact Or.inr ⟨rfl, hne⟩

theorem listText_last {rs : List WifiApRecord} (h : visible rs ≠ []) :
    ∃ l, listText rs = l ++ [125] := by
  induction rs with
  | nil => exact absurd rfl h
  | cons r rs ih =>
    by_cases hidden : r.name.length = 0
    · rw [visible_hidden hidden] at h
      rw [listText_hidden hidden]
      exact ih h
    · have hend : ascii "\"\x7d" = [34] ++ [125] := rfl
      rw [listText_shown hidden]
      by_cases hvis : visible rs = []
      · rw [if_pos hvis, List.append_nil, recordText, hend, ← List.append_assoc]
        exact ⟨_, rfl⟩
      · obtain ⟨l, hl⟩ := ih hvis
        rw [if_neg hvis, hl, ← List.cons_append, ← List.append_assoc]
        exact ⟨_, rfl⟩

theorem dropComma_append (l : List UInt8) (c : UInt8) (tail : List UInt8) :
    dropComma (l ++ [c] ++ tail, (l ++ [c]).length) =
      some (l ++ [c] ++ tail, if c = 44 then l.length else (l ++ [c]).length) := by
  have hlen : (l ++ [c]).length = l.length + 1 := by simp
  have hget : (l ++ [c] ++ tail)[l.length]? = some c := by simp
  rw [dropComma, hlen, if_neg (Nat.succ_ne_zero _)]
  dsimp only
  rw [Nat.add_sub_cancel, hget, Option.map_some]
  split <;> rfl

theorem printScan_eq {block : List UInt8} {rs : List WifiApRecord}
    (hroom : rs.length * 128 + 10 ≤ block.length) :
    ∃ tail, printScan block rs = some (91 :: (listText rs ++ 93 :: 0 :: tail)) := by
  obtain ⟨t₀, hopen, hlen₀⟩ := @sprintf_append [] block [91] (by
    rw [List.length_cons, List.length_nil]
    omega)
  rw [List.length_cons, List.length_nil] at hlen₀
  obtain ⟨comma, tail, hloop, hcomma, hlen⟩ := @scanLoop_spec rs.length 0 rs (Nat.zero_add _)
    ([] ++ [91]) (0 :: t₀) (by
      rw [List.length_cons]
      omega)
  rw [List.length_cons] at hlen
  have hclose : ∀ rest : List UInt8, 2 ≤ rest.length → ∃ tail,
      (sprintf (91 :: listText rs ++ rest, (91 :: listText rs).length) [93]).map Prod.fst =
        some (91 :: (listText rs ++ 93 :: 0 :: tail)) := by
    intro rest hrest
    obtain ⟨t, hsprintf, _⟩ := @sprintf_append (91 :: listText rs) rest [93] (by
      rw [List.length_cons, List.length_nil]
      omega)
    exact ⟨t, by rw [hsprintf]; simp⟩
  rw [printScan]
  simp only [List.nil_append] at hopen hloop
  rw [List.length_nil] at hopen
  rw [hopen, Option.bind_some, hloop, Option.bind_some]
  rcases hcomma with rfl | ⟨rfl, hvis⟩
  · have hlast : ∃ l c, 91 :: listText rs = l ++ [c] ∧ c ≠ 44 := by
      by_cases hvis : visible rs = []
      · exact ⟨[], 91, by simp [listText, hvis], by decide⟩
      · obtain ⟨l, hl⟩ := listText_last hvis
        exact ⟨91 :: l, 125, by rw [hl]; rfl, by decide⟩
    obtain ⟨l, c, hl, hc⟩ := hlast
    have hdrop := dropComma_append l c tail
    rw [if_neg hc, ← hl] at hdrop
    rw [List.append_nil, List.singleton_append, hdrop, Option.bind_some]
    exact hclose tail (by omega)
  · have hdrop := dropComma_append (91 :: listText rs) 44 tail
    rw [if_pos rfl, List.append_assoc (91 :: listText rs)] at hdrop
    rw [List.singleton_append, ← List.cons_append, List.append_assoc (91 :: listText rs), hdrop,
      Option.bind_some]
    exact hclose ([44] ++ tail) (by
      rw [List.length_append, List.length_cons, List.length_nil]
      omega)

theorem scanGetHandler_eq {sdk : ScanSdk} {apList : List WifiApRecord} (hstart : sdk.scanStart = true)
    (hnum : sdk.apNum ≠ 0) (hlist : sdk.mallocApList = true)
    (hrecords : sdk.apRecords (min sdk.apNum.toNat 20) = apList)
    (hm : (sdk.malloc (apList.length * 128 + 10)).isSome) :
    scanGetHandler sdk = some [.setType (ascii "application/json"),
      .send (91 :: (listText apList ++ [93])), .freeJsonBuf, .freeApList] := by
  obtain ⟨block, hblock⟩ := Option.isSome_iff_exists.mp hm
  obtain ⟨tail, hprint⟩ := @printScan_eq block.toList apList (by rw [Vector.length_toList])
  have hnull : ∀ c ∈ 91 :: (listText apList ++ [93]), c ≠ 0 := by
    rintro c hc rfl
    have hno := listText_no_null apList
    simp [hno] at hc
  have hbody : cstr (91 :: (listText apList ++ 93 :: 0 :: tail)) = 91 :: (listText apList ++ [93]) := by
    have hc := cstr_of_no_null hnull tail
    simpa using hc
  subst hrecords
  rw [scanGetHandler, if_neg (by simp [hstart]), if_neg hnum, if_neg (by simp [hlist])]
  simp only [hblock, hprint, Option.map_some, hbody]

end EspPassthrough
