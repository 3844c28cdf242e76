import EspPassthrough.JsonText
import EspPassthrough.ScanHandler

/-! What a JSON parser makes of the body that `scan_get_handler` sends. -/

namespace EspPassthrough

open CText JsonText

/-- An object with the record's values, and nothing else in it. -/
def Describes (r : WifiApRecord) (v : Value) : Prop :=
  ∃ b, v = .object [(ascii "ssid", .string r.name), (ascii "rssi", .number r.rssi.toInt 0),
      (ascii "auth", .number r.authmode.toInt 0), (ascii "bssid", .string b)] ∧
    macRegex b = true ∧ macBytes 5 b = r.bssid.toList

/-- The body is JSON for one object per record that is not hidden, in order. -/
def Faithful (body : List UInt8) (rs : List WifiApRecord) : Prop :=
  ∃ objects, Denotes body (.array objects) ∧ List.Forall₂ Describes (visible rs) objects

/-- UTF-8 that needs no escape in a JSON string. -/
def Clean (s : List UInt8) : Prop := Plain s ∧ ValidUtf8 s

def scanned (sdk : ScanSdk) : List WifiApRecord :=
  if sdk.apNum = 0 then [] else sdk.apRecords (min sdk.apNum.toNat 20)

def bodies (calls : List ScanCall) : List (List UInt8) :=
  calls.filterMap fun | .send text => some text | _ => none

def recordValue (r : WifiApRecord) : Value :=
  .object [(ascii "ssid", .string r.name), (ascii "rssi", .number r.rssi.toInt 0),
    (ascii "auth", .number r.authmode.toInt 0), (ascii "bssid", .string (macText r.bssid))]

theorem formatByte_eq (b : UInt8) :
    ∃ h l, formatByte b = [h, l] ∧ isXDigit h = true ∧ isXDigit l = true ∧ hexByte h l = b :=
  ⟨_, _, rfl, forall_byte (p := fun b => isXDigit (hexLower (b.toNat / 16)) = true ∧
    isXDigit (hexLower (b.toNat % 16)) = true ∧
      hexByte (hexLower (b.toNat / 16)) (hexLower (b.toNat % 16)) = b) (by decide +kernel) b⟩

theorem macText_denotes (bssid : Vector UInt8 6) :
    macRegex (macText bssid) = true ∧ macBytes 5 (macText bssid) = bssid.toList := by
  have hgroups : ∀ (bs : List UInt8) (n : Nat), bs.length = n + 1 →
      macGroups n ([58].intercalate (bs.map formatByte)) = true ∧
        macBytes n ([58].intercalate (bs.map formatByte)) = bs := by
    intro bs n hlen
    induction bs generalizing n with
    | nil => cases hlen
    | cons b bs ih =>
      obtain ⟨h, l, hb, hh, hl, hbyte⟩ := formatByte_eq b
      rcases bs with _ | ⟨d, bs⟩
      · obtain rfl : n = 0 := by simpa using hlen.symm
        simp [hb, macGroups, macBytes, hh, hl, hbyte]
      · obtain ⟨m, rfl⟩ : ∃ m, n = m + 1 := ⟨n - 1, by simp at hlen; omega⟩
        obtain ⟨hg, hm⟩ := ih m (by simpa using hlen)
        rw [List.map_cons, List.map_cons, List.intercalate_cons_cons, hb]
        rw [List.map_cons] at hg hm
        simp [macGroups, macBytes, hh, hl, hbyte, hg, hm]
  exact hgroups bssid.toList 5 (by simp)

/-! ## The members of a printed record -/

def bssidMember (r : WifiApRecord) (t : List UInt8) : List UInt8 :=
  34 :: (ascii "bssid" ++ 34 :: 58 :: 34 :: (macText r.bssid ++ 34 :: 125 :: t))

def authMember (r : WifiApRecord) (t : List UInt8) : List UInt8 :=
  34 :: (ascii "auth" ++ 34 :: 58 :: (formatInt r.authmode.toInt ++ 44 :: bssidMember r t))

def rssiMember (r : WifiApRecord) (t : List UInt8) : List UInt8 :=
  ascii "rssi" ++ 34 :: 58 :: (formatInt r.rssi.toInt ++ 44 :: authMember r t)

theorem recordText_append (r : WifiApRecord) (t : List UInt8) :
    recordText r ++ t =
      123 :: 34 :: (ascii "ssid" ++ 34 :: 58 :: 34 :: (r.name ++ 34 :: 44 :: 34 :: rssiMember r t)) := by
  have hkeys : ascii "\x7b\"ssid\":\"" = 123 :: 34 :: (ascii "ssid" ++ [34, 58, 34]) ∧
    ascii "\",\"rssi\":" = 34 :: 44 :: 34 :: (ascii "rssi" ++ [34, 58]) ∧
    ascii ",\"auth\":" = 44 :: 34 :: (ascii "auth" ++ [34, 58]) ∧
    ascii ",\"bssid\":\"" = 44 :: 34 :: (ascii "bssid" ++ [34, 58, 34]) ∧
    ascii "\"\x7d" = [34, 125] := by decide
  obtain ⟨h₁, h₂, h₃, h₄, h₅⟩ := hkeys
  rw [recordText, h₁, h₂, h₃, h₄, h₅, rssiMember, authMember, bssidMember]
  simp only [List.append_assoc, List.cons_append, List.nil_append]

theorem Literal.plain {s : List UInt8} (h : Literal s) : Plain s := by
  intro c hc
  have hchar := h c hc
  revert hchar
  exact forall_byte (p := fun c => (45 ≤ c ∧ c ≤ 102 ∧ c ≠ 92) → c ≠ 34 ∧ c ≠ 92 ∧ 32 ≤ c)
    (by decide +kernel) c

theorem Literal.ascii {s : List UInt8} (h : Literal s) : ∀ c ∈ s, c < 0x80 := by
  intro c hc
  exact UInt8.lt_of_le_of_lt (h c hc).2.1 (by decide)

theorem parseValue_record {r : WifiApRecord} (hname : Plain r.name) (n : Nat) (t : List UInt8) :
    parseValue (n + 5) (recordText r ++ t) = some (recordValue r, t) := by
  have hmac := parseValue_string (macText_literal r.bssid).plain (n + 3) (125 :: t)
  have hbssid := parseMembers_last (show Plain (ascii "bssid") by decide) n hmac
  have hnum := parseValue_formatInt (n + 3) r.authmode.toInt (c := 44) (by decide) (by decide)
    (by decide) (bssidMember r t)
  have hauth := parseMembers_next (show Plain (ascii "auth") by decide) (n + 1) hnum
  have hnum' := parseValue_formatInt (n + 3) r.rssi.toInt (c := 44) (by decide) (by decide)
    (by decide) (authMember r t)
  have hrssi := parseMembers_next (show Plain (ascii "rssi") by decide) (n + 2) hnum'
  have hstring := parseValue_string hname (n + 3) (44 :: 34 :: rssiMember r t)
  have hssid := parseMembers_next (show Plain (ascii "ssid") by decide) (n + 3) hstring
  rw [recordText_append, parseValue_members, hssid, rssiMember, hrssi, authMember, hauth,
    bssidMember, hbssid]
  rfl

theorem plain_of_parseValue {r : WifiApRecord} {n : Nat} {t rest : List UInt8}
    {ms : List (List UInt8 × Value)}
    (h : parseValue n (recordText r ++ t) =
      some (.object ((ascii "ssid", .string r.name) :: ms), rest)) : Plain r.name := by
  rcases n with _ | n
  · cases h
  rw [recordText_append, parseValue_members] at h
  obtain ⟨⟨ms', rest'⟩, hmembers, heq⟩ := Option.map_eq_some_iff.mp h
  obtain ⟨hms, rfl⟩ := Prod.mk.inj heq
  obtain rfl := Value.object.inj hms
  obtain ⟨v, after, hv, hhead, hsep⟩ := parseMembers_some (by decide) hmembers
  obtain rfl : Value.string r.name = v := by simpa using hhead
  rcases n with _ | n
  · cases hv
  rw [parseValue, skipWs_cons (by decide)] at hv
  dsimp only at hv
  rw [if_pos rfl] at hv
  obtain ⟨⟨s, after'⟩, hstring, heq'⟩ := Option.map_eq_some_iff.mp hv
  obtain ⟨hs, rfl⟩ := Prod.mk.inj heq'
  obtain rfl := Value.string.inj hs
  rcases parseString_eq (by decide) hstring with hplain | rfl
  · exact hplain
  · have hrssi : (skipWs (rssiMember r t)).head? = some 114 := by
      rw [rssiMember]
      rfl
    rw [hrssi] at hsep
    exact absurd hsep (by decide)

/-! ## The list -/

def itemsText (rs : List WifiApRecord) (t : List UInt8) : List UInt8 :=
  [44].intercalate (rs.map recordText) ++ 93 :: t

theorem itemsText_cons (r q : WifiApRecord) (rs : List WifiApRecord) (t : List UInt8) :
    itemsText (r :: q :: rs) t = recordText r ++ 44 :: itemsText (q :: rs) t := by
  rw [itemsText, List.map_cons, List.map_cons, List.intercalate_cons_cons, itemsText, List.map_cons]
  simp

theorem itemsText_singleton (r : WifiApRecord) (t : List UInt8) :
    itemsText [r] t = recordText r ++ 93 :: t := by
  simp [itemsText]

theorem parseItems_records {rs : List WifiApRecord} (hne : rs ≠ [])
    (hplain : ∀ r ∈ rs, Plain r.name) (n m : Nat) (t : List UInt8) :
    parseItems (parseValue (n + 5)) (rs.length + m) (itemsText rs t) =
      some (rs.map recordValue, t) := by
  induction rs generalizing m with
  | nil => exact absurd rfl hne
  | cons r rs ih =>
    have hr := hplain r List.mem_cons_self
    rcases rs with _ | ⟨q, rs⟩
    · rw [itemsText_singleton, List.length_singleton, Nat.add_comm 1 m]
      exact parseItems_last m (parseValue_record hr n (93 :: t))
    · have hstep := parseItems_next ((q :: rs).length + m)
        (parseValue_record hr n (44 :: itemsText (q :: rs) t))
      have hrest := ih (by simp) (fun p hp => hplain p (List.mem_cons_of_mem r hp)) m
      rw [hrest] at hstep
      rw [itemsText_cons, List.length_cons, Nat.add_right_comm]
      exact hstep

theorem plain_of_parseItems {rs : List WifiApRecord} {objects : List Value}
    (hobj : List.Forall₂ Describes rs objects) (hne : rs ≠ []) {n m : Nat} {t rest : List UInt8}
    (h : parseItems (parseValue (n + 5)) m (itemsText rs t) = some (objects, rest)) :
    ∀ r ∈ rs, Plain r.name := by
  induction hobj generalizing m with
  | nil => exact absurd rfl hne
  | @cons r v rs objects hdesc hrest ih =>
    obtain ⟨b, rfl, _⟩ := hdesc
    have hr : Plain r.name := by
      obtain ⟨w, after, hw, hhead⟩ := parseItems_some h
      obtain rfl := Option.some.inj hhead
      rcases rs with _ | ⟨q, rs⟩
      · rw [itemsText_singleton] at hw
        exact plain_of_parseValue hw
      · rw [itemsText_cons] at hw
        exact plain_of_parseValue hw
    rcases rs with _ | ⟨q, rs⟩
    · simpa using hr
    · rcases m with _ | m
      · cases h
      rw [itemsText_cons, parseItems_next m (parseValue_record hr n _)] at h
      obtain ⟨⟨vs, rest'⟩, hvs, heq⟩ := Option.map_eq_some_iff.mp h
      obtain ⟨hcons, rfl⟩ := Prod.mk.inj heq
      obtain rfl := (List.cons.inj hcons).2
      have htail := ih (by simp) hvs
      intro p hp
      rcases List.mem_cons.mp hp with rfl | hp
      · exact hr
      · exact htail p hp

theorem validUtf8_recordText (r : WifiApRecord) (t : List UInt8) :
    ValidUtf8 (recordText r ++ t) ↔ ValidUtf8 r.name ∧ ValidUtf8 t := by
  have h₁ : ∀ c ∈ ascii "\x7b\"ssid\":\"", c < 0x80 := forall_mem_of_all (by decide)
  have h₂ : ∀ c ∈ ascii ",\"rssi\":", c < 0x80 := forall_mem_of_all (by decide)
  have h₃ : ∀ c ∈ ascii ",\"auth\":", c < 0x80 := forall_mem_of_all (by decide)
  have h₄ : ∀ c ∈ ascii ",\"bssid\":\"", c < 0x80 := forall_mem_of_all (by decide)
  have h₅ : ∀ c ∈ ascii "\"\x7d", c < 0x80 := forall_mem_of_all (by decide)
  have hrest : ascii "\",\"rssi\":" = 34 :: ascii ",\"rssi\":" := by decide
  rw [recordText, hrest]
  simp only [List.append_assoc, List.cons_append]
  rw [validUtf8_ascii_append h₁, validUtf8_append_ascii (by decide), validUtf8_ascii_append h₂,
    validUtf8_ascii_append (formatInt_literal _).ascii, validUtf8_ascii_append h₃,
    validUtf8_ascii_append (formatInt_literal _).ascii, validUtf8_ascii_append h₄,
    validUtf8_ascii_append (macText_literal _).ascii, validUtf8_ascii_append h₅]

theorem validUtf8_itemsText (rs : List WifiApRecord) (t : List UInt8) :
    ValidUtf8 (itemsText rs t) ↔ (∀ r ∈ rs, ValidUtf8 r.name) ∧ ValidUtf8 (93 :: t) := by
  induction rs with
  | nil => simp [itemsText]
  | cons r rs ih =>
    rcases rs with _ | ⟨q, rs⟩
    · rw [itemsText_singleton, validUtf8_recordText]
      simp
    · rw [itemsText_cons, validUtf8_recordText, validUtf8_cons_ascii (by decide), ih]
      simp [and_assoc]

theorem validUtf8_listText (rs : List WifiApRecord) :
    ValidUtf8 (91 :: (listText rs ++ [93])) ↔ ∀ r ∈ visible rs, ValidUtf8 r.name := by
  rw [show 91 :: (listText rs ++ [93]) = 91 :: itemsText (visible rs) [] from rfl,
    validUtf8_cons_ascii (by decide), validUtf8_itemsText]
  exact and_iff_left rfl

theorem parseValue_listText {rs : List WifiApRecord} (hne : visible rs ≠ []) (n : Nat) :
    parseValue (n + 1) (91 :: (listText rs ++ [93])) =
      (parseItems (parseValue n) n (itemsText (visible rs) [])).map fun r => (.array r.1, r.2) := by
  obtain ⟨text, htext⟩ : ∃ text, itemsText (visible rs) [] = 123 :: text := by
    obtain ⟨r, l, hrl⟩ := List.exists_cons_of_ne_nil hne
    rcases l with _ | ⟨q, l⟩
    · exact ⟨_, by rw [hrl, itemsText_singleton, recordText_append]⟩
    · exact ⟨_, by rw [hrl, itemsText_cons, recordText_append]⟩
  rw [show 91 :: (listText rs ++ [93]) = 91 :: itemsText (visible rs) [] from rfl, htext]
  exact parseValue_items n text

theorem clean_of_faithful {rs : List WifiApRecord} (h : Faithful (91 :: (listText rs ++ [93])) rs) :
    ∀ r ∈ visible rs, Clean r.name := by
  obtain ⟨objects, ⟨fuel, hparse⟩, hobj⟩ := h
  intro r hr
  have hparse' := parse_mono (Nat.le_add_right fuel 6) hparse
  have hvalid : ValidUtf8 (91 :: (listText rs ++ [93])) := by
    by_contra hno
    rw [parse, if_neg hno] at hparse
    cases hparse
  have hne : visible rs ≠ [] := List.ne_nil_of_mem hr
  rw [parse, if_pos hvalid, parseValue_listText hne] at hparse'
  obtain ⟨⟨v, rest⟩, hvalue, hend⟩ := Option.bind_eq_some_iff.mp hparse'
  obtain ⟨⟨vs, rest'⟩, hvs, heq⟩ := Option.map_eq_some_iff.mp hvalue
  obtain ⟨rfl, rfl⟩ := Prod.mk.inj heq
  have hvs' : Value.array vs = .array objects := by
    dsimp only at hend
    split at hend
    · exact Option.some.inj hend
    · cases hend
  obtain rfl := Value.array.inj hvs'
  exact ⟨plain_of_parseItems hobj hne hvs r hr, (validUtf8_listText rs).mp hvalid r hr⟩

theorem denotes_listText {rs : List WifiApRecord} (hclean : ∀ r ∈ visible rs, Clean r.name) :
    Denotes (91 :: (listText rs ++ [93])) (.array ((visible rs).map recordValue)) := by
  have hvalid := (validUtf8_listText rs).mpr fun r hr => (hclean r hr).2
  by_cases hne : visible rs = []
  · refine ⟨1, ?_⟩
    have hnil : listText rs = [] := by simp [listText, hne]
    rw [hnil] at hvalid ⊢
    rw [parse, if_pos hvalid, hne]
    rfl
  · have hrecords := parseItems_records hne (fun r hr => (hclean r hr).1) (visible rs).length 5 []
    refine ⟨(visible rs).length + 5 + 1, ?_⟩
    rw [parse, if_pos hvalid, parseValue_listText hne, hrecords]
    rfl

theorem faithful_iff (rs : List WifiApRecord) :
    Faithful (91 :: (listText rs ++ [93])) rs ↔ ∀ r ∈ visible rs, Clean r.name := by
  refine ⟨clean_of_faithful, fun hclean => ⟨_, denotes_listText hclean, ?_⟩⟩
  rw [List.forall₂_map_right_iff, List.forall₂_same]
  intro r _
  exact ⟨macText r.bssid, rfl, macText_denotes r.bssid⟩

theorem mem_visible {r : WifiApRecord} {rs : List WifiApRecord} :
    r ∈ visible rs ↔ r ∈ rs ∧ r.name ≠ [] := by
  simp [visible]

/-- The body sent after a scan is faithful JSON exactly when every name that is
not empty is UTF-8 without quotes, backslashes and control characters. -/
theorem scan_body_faithful_iff {sdk : ScanSdk} (hstart : sdk.scanStart = true)
    (hlist : sdk.mallocApList = true) (hm : ∀ n, (sdk.malloc n).isSome) :
    ∃ calls body, scanGetHandler sdk = some calls ∧ bodies calls = [body] ∧
      (Faithful body (scanned sdk) ↔ ∀ r ∈ scanned sdk, r.name ≠ [] → Clean r.name) := by
  have hiff : ∀ rs, Faithful (91 :: (listText rs ++ [93])) rs ↔
      ∀ r ∈ rs, r.name ≠ [] → Clean r.name := by
    intro rs
    rw [faithful_iff]
    exact ⟨fun h r hr hne => h r (mem_visible.mpr ⟨hr, hne⟩),
      fun h r hr => h r (mem_visible.mp hr).1 (mem_visible.mp hr).2⟩
  by_cases hnum : sdk.apNum = 0
  · refine ⟨[.send (ascii "[]")], ascii "[]", ?_, rfl, ?_⟩
    · rw [scanGetHandler, if_neg (by simp [hstart]), if_pos hnum]
    · rw [scanned, if_pos hnum]
      exact hiff []
  · have hcalls := scanGetHandler_eq hstart hnum hlist rfl (hm _)
    refine ⟨_, _, hcalls, rfl, ?_⟩
    rw [scanned, if_neg hnum]
    exact hiff _

def namedRecord (name : List UInt8) (h : 0 ∈ (strncpy 33 name).toList) : WifiApRecord :=
  ⟨strncpy 33 name, h, -60, 3, #v[0x0a, 0x1b, 0x2c, 0x3d, 0x4e, 0xff]⟩

def scanOf (apNum : UInt16) (rs : List WifiApRecord) : ScanSdk where
  scanStart := true
  apNum := apNum
  mallocApList := true
  apRecords := fun apCount => rs.take apCount
  apRecords_length := fun apCount => List.length_take_le apCount rs
  malloc := zeroMalloc

theorem quoted_name_breaks_json :
    ∃ sdk : ScanSdk, sdk.scanStart = true ∧ sdk.mallocApList = true ∧
      (∀ n, (sdk.malloc n).isSome) ∧ (scanned sdk).length = 1 ∧
      ∃ calls body, scanGetHandler sdk = some calls ∧ bodies calls = [body] ∧
        ¬Faithful body (scanned sdk) := by
  let r := namedRecord (ascii "Joe\"s") (by decide)
  have hcalls := scanGetHandler_eq (show (scanOf 1 [r]).scanStart = true from rfl)
    (show (1 : UInt16) ≠ 0 by decide) rfl rfl rfl
  refine ⟨scanOf 1 [r], rfl, rfl, fun _ => rfl, rfl, _, _, hcalls, rfl, ?_⟩
  intro h
  have hclean := (faithful_iff [r]).mp h r (mem_visible.mpr ⟨List.mem_singleton_self r, by decide⟩)
  exact absurd hclean.1 (by decide)

def threeRecords : List WifiApRecord :=
  [namedRecord (ascii "Home") (by decide), namedRecord [] (by decide),
    namedRecord [67, 97, 102, 195, 169] (by decide)]

theorem scan_body_faithful_iff_named :
    ∃ calls body, scanGetHandler (scanOf 3 threeRecords) = some calls ∧ bodies calls = [body] ∧
      Faithful body threeRecords := by
  obtain ⟨calls, body, hcalls, hbody, hiff⟩ := scan_body_faithful_iff
    (show (scanOf 3 threeRecords).scanStart = true from rfl) rfl fun _ => rfl
  refine ⟨calls, body, hcalls, hbody, hiff.mpr ?_⟩
  intro r hr _
  have hmem : r ∈ threeRecords := hr
  simp only [threeRecords, List.mem_cons, List.not_mem_nil, or_false] at hmem
  rcases hmem with rfl | rfl | rfl
  · exact ⟨by decide, by decide⟩
  · exact ⟨by decide, by decide⟩
  · exact ⟨by decide, by decide⟩

end EspPassthrough
