import EspPassthrough.ScanJson

/-! The block behind `json_buf`: what `scan_get_handler` leaves in it, how much of
it is sent, and that nothing outside it is touched. -/

namespace EspPassthrough

open CText

def strlen (buf : List UInt8) : Nat := (cstr buf).length

/-- The buffer and the length passed to `httpd_resp_send`, if it is called. -/
def ScanSdk.respSend (sdk : ScanSdk) : Option (List UInt8 × Nat) :=
  if sdk.scanStart = false then none
  else if sdk.apNum = 0 then some (ascii "[]" ++ [0], 2)
  else if sdk.mallocApList = false then none
  else
    let apList := sdk.apRecords (min sdk.apNum.toNat 20)
    (sdk.malloc (apList.length * 128 + 10)).bind fun block =>
      (printScan block.toList apList).map fun jsonBuf => (jsonBuf, strlen jsonBuf)

def ScanSdk.Answers (sdk : ScanSdk) : Prop :=
  sdk.scanStart = true ∧ (sdk.apNum = 0 ∨ sdk.mallocApList = true ∧
    (sdk.malloc ((scanned sdk).length * 128 + 10)).isSome = true)

/-- One object per record with a name, in order, separated by single commas. -/
def scanBody (rs : List WifiApRecord) : List UInt8 :=
  ascii "[" ++ (ascii ",").intercalate ((rs.filter fun r => r.name ≠ []).map recordText) ++ ascii "]"

theorem scanBody_eq (rs : List WifiApRecord) : scanBody rs = 91 :: (listText rs ++ [93]) := by
  have hvis : (rs.filter fun r => r.name ≠ []) = visible rs := by
    rw [visible]
    congr 1
    funext r
    simp
  rw [scanBody, hvis, listText]
  rfl

theorem scanBody_no_null (rs : List WifiApRecord) : ∀ c ∈ scanBody rs, c ≠ 0 := by
  rintro c hc rfl
  have hno := listText_no_null rs
  rw [scanBody_eq] at hc
  simp [hno] at hc

/-- In a block with room for the records, the text stands at the start and ends at a null. -/
theorem printScan_body {block : List UInt8} {rs : List WifiApRecord}
    (hroom : rs.length * 128 + 10 ≤ block.length) :
    ∃ buf, printScan block rs = some buf ∧ cstr buf = scanBody rs ∧
      buf.take (strlen buf) = scanBody rs := by
  obtain ⟨tail, hprint⟩ := printScan_eq hroom
  have htext : 91 :: (listText rs ++ 93 :: 0 :: tail) = scanBody rs ++ 0 :: tail := by
    simp [scanBody_eq]
  have hcstr : cstr (scanBody rs ++ 0 :: tail) = scanBody rs :=
    cstr_of_no_null (scanBody_no_null rs) tail
  refine ⟨scanBody rs ++ 0 :: tail, by rw [hprint, htext], hcstr, ?_⟩
  rw [strlen, hcstr, List.take_left]

theorem scanned_eq_nil {sdk : ScanSdk} (h : sdk.apNum = 0) : scanned sdk = [] := by
  rw [scanned, if_pos h]

theorem scanned_eq {sdk : ScanSdk} (h : sdk.apNum ≠ 0) :
    scanned sdk = sdk.apRecords (min sdk.apNum.toNat 20) := by
  rw [scanned, if_neg h]

/-- The handler always gets to its end: it sends no text, or the text in its buffer. -/
theorem scanGetHandler_cases (sdk : ScanSdk) :
    (¬sdk.Answers ∧ sdk.respSend = none ∧
      ∃ calls, scanGetHandler sdk = some calls ∧ bodies calls = []) ∨
    sdk.Answers ∧ ∃ buf calls, sdk.respSend = some (buf, (scanBody (scanned sdk)).length) ∧
      buf.take (scanBody (scanned sdk)).length = scanBody (scanned sdk) ∧
      scanGetHandler sdk = some calls ∧ bodies calls = [scanBody (scanned sdk)] := by
  by_cases hstart : sdk.scanStart = false
  · left
    refine ⟨fun h => absurd h.1 (by simp [hstart]), ?_, [.send500], ?_, rfl⟩
    · rw [ScanSdk.respSend, if_pos hstart]
    · rw [scanGetHandler, if_pos hstart]
  have hscan : sdk.scanStart = true := by simpa using hstart
  by_cases hnum : sdk.apNum = 0
  · right
    rw [scanned_eq_nil hnum]
    refine ⟨⟨hscan, .inl hnum⟩, ascii "[]" ++ [0], [.send (ascii "[]")], ?_, rfl, ?_, rfl⟩
    · rw [ScanSdk.respSend, if_neg hstart, if_pos hnum]
      rfl
    · rw [scanGetHandler, if_neg hstart, if_pos hnum]
  have hrecords := scanned_eq hnum
  by_cases hlist : sdk.mallocApList = false
  · left
    refine ⟨?_, ?_, [.send500], ?_, rfl⟩
    · rintro ⟨_, hzero | ⟨hok, _⟩⟩
      · exact hnum hzero
      · exact absurd hok (by simp [hlist])
    · rw [ScanSdk.respSend, if_neg hstart, if_neg hnum, if_pos hlist]
    · rw [scanGetHandler, if_neg hstart, if_neg hnum, if_pos hlist]
  cases hblock : sdk.malloc ((sdk.apRecords (min sdk.apNum.toNat 20)).length * 128 + 10) with
  | none =>
    left
    refine ⟨?_, ?_, [.freeApList, .send500], ?_, rfl⟩
    · rintro ⟨_, hzero | ⟨_, hsome⟩⟩
      · exact hnum hzero
      · rw [hrecords, hblock] at hsome
        cases hsome
    · rw [ScanSdk.respSend, if_neg hstart, if_neg hnum, if_neg hlist]
      simp only [hblock, Option.bind_none]
    · rw [scanGetHandler, if_neg hstart, if_neg hnum, if_neg hlist]
      simp only [hblock]
  | some block =>
    right
    obtain ⟨buf, hprint, hcstr, htake⟩ := printScan_body (block.length_toList).ge
    have hlen : strlen buf = (scanBody (scanned sdk)).length := by rw [strlen, hcstr, hrecords]
    rw [← hrecords] at hcstr htake
    refine ⟨⟨hscan, .inr ⟨by simpa using hlist, by rw [hrecords, hblock]; rfl⟩⟩, buf,
      [.setType (ascii "application/json"), .send (cstr buf), .freeJsonBuf, .freeApList],
      ?_, by rw [← hlen, htake], ?_, ?_⟩
    · rw [ScanSdk.respSend, if_neg hstart, if_neg hnum, if_neg hlist, ← hlen]
      simp only [hblock, hprint, Option.bind_some, Option.map_some]
    · rw [scanGetHandler, if_neg hstart, if_neg hnum, if_neg hlist]
      simp only [hblock, hprint, Option.map_some]
    · rw [hcstr]
      rfl

/-- A request is answered with the list, and only with it, if the scan and the
allocations succeed; the length passed along is the length of the text. -/
theorem scan_list_layout (sdk : ScanSdk) :
    ∃ calls, scanGetHandler sdk = some calls ∧
      bodies calls = sdk.respSend.toList.map (fun r => r.1.take r.2) ∧
      (sdk.respSend.isSome = true ↔ sdk.Answers) ∧
      ∀ buf len, sdk.respSend = some (buf, len) →
        buf.take len = scanBody (scanned sdk) ∧ len = (scanBody (scanned sdk)).length := by
  rcases scanGetHandler_cases sdk with
    ⟨hno, hsend, calls, hcalls, hbodies⟩ | ⟨hok, buf, calls, hsend, htext, hcalls, hbodies⟩
  · refine ⟨calls, hcalls, ?_, by simp [hsend, hno], ?_⟩
    · rw [hbodies, hsend]
      rfl
    · intro buf len h
      cases hsend.symm.trans h
  · refine ⟨calls, hcalls, ?_, by simp [hsend, hok], ?_⟩
    · rw [hbodies, hsend, Option.toList_some, List.map_singleton, htext]
    · intro buf' len h
      obtain ⟨rfl, rfl⟩ := Prod.mk.inj (Option.some.inj (hsend.symm.trans h))
      exact ⟨htext, rfl⟩

/-! ## Locality -/

/-- Where `op` succeeds it does the same in front of any other memory, and leaves
that memory as it is. -/
def Confined (op : Cursor → Option Cursor) : Prop :=
  ∀ b b', op b = some b' → b'.1.length = b.1.length ∧
    ∀ rest, op (b.1 ++ rest, b.2) = some (b'.1 ++ rest, b'.2)

theorem Confined.skip : Confined some := by
  intro b b' h
  obtain rfl := Option.some.inj h
  exact ⟨rfl, fun _ => rfl⟩

theorem Confined.bind {f g : Cursor → Option Cursor} (hf : Confined f) (hg : Confined g) :
    Confined fun b => (f b).bind g := by
  intro b b' h
  obtain ⟨c, hc, hb'⟩ := Option.bind_eq_some_iff.mp h
  obtain ⟨hlen, hrest⟩ := hf b c hc
  obtain ⟨hlen', hrest'⟩ := hg c b' hb'
  refine ⟨hlen'.trans hlen, fun rest => ?_⟩
  dsimp only
  rw [hrest, Option.bind_some, hrest']

theorem writeAt_confined {buf buf' data : List UInt8} {i : Nat} (h : writeAt buf i data = some buf') :
    buf'.length = buf.length ∧ ∀ rest, writeAt (buf ++ rest) i data = some (buf' ++ rest) := by
  by_cases hle : i + data.length ≤ buf.length
  · rw [writeAt, if_pos hle] at h
    obtain rfl := Option.some.inj h
    refine ⟨?_, fun rest => ?_⟩
    · simp only [List.length_append, List.length_take, List.length_drop]
      omega
    · have hle' : i + data.length ≤ (buf ++ rest).length := by
        rw [List.length_append]
        omega
      rw [writeAt, if_pos hle', List.take_append_of_le_length (by omega),
        List.drop_append_of_le_length hle]
      simp
  · rw [writeAt, if_neg hle] at h
    cases h

theorem Confined.sprintf (text : List UInt8) : Confined fun b => sprintf b text := by
  intro b b' h
  obtain ⟨buf, hbuf, rfl⟩ := Option.map_eq_some_iff.mp h
  obtain ⟨hlen, hrest⟩ := writeAt_confined hbuf
  refine ⟨hlen, fun rest => ?_⟩
  simp only [EspPassthrough.sprintf, hrest, Option.map_some]

theorem Confined.dropComma : Confined dropComma := by
  intro b b' h
  by_cases hzero : b.2 = 0
  · simp [EspPassthrough.dropComma, hzero] at h
  rw [EspPassthrough.dropComma, if_neg hzero] at h
  obtain ⟨c, hc, hb'⟩ := Option.map_eq_some_iff.mp h
  have hget : ∀ rest, (b.1 ++ rest)[b.2 - 1]? = some c := by
    intro rest
    rw [List.getElem?_append_left (List.getElem?_eq_some_iff.mp hc).1, hc]
  subst hb'
  refine ⟨by split <;> rfl, fun rest => ?_⟩
  rw [EspPassthrough.dropComma, if_neg hzero, hget, Option.map_some]
  split <;> rfl

theorem Confined.scanLoop (apCount i : Nat) (rs : List WifiApRecord) :
    Confined (scanLoop apCount i rs) := by
  induction rs generalizing i with
  | nil => exact .skip
  | cons r rs ih =>
    by_cases hidden : r.name.length = 0
    · have hskip : EspPassthrough.scanLoop apCount i (r :: rs) =
          EspPassthrough.scanLoop apCount (i + 1) rs := by
        funext b
        rw [EspPassthrough.scanLoop, if_pos hidden]
      rw [hskip]
      exact ih (i + 1)
    · by_cases hmore : (i : Int) < (apCount : Int) - 1
      · have hstep : EspPassthrough.scanLoop apCount i (r :: rs) = fun b =>
            (EspPassthrough.sprintf b (recordText r)).bind fun b =>
              (EspPassthrough.sprintf b [44]).bind (EspPassthrough.scanLoop apCount (i + 1) rs) := by
          funext b
          simp only [EspPassthrough.scanLoop, if_neg hidden, if_pos hmore]
        rw [hstep]
        exact (Confined.sprintf _).bind ((Confined.sprintf _).bind (ih (i + 1)))
      · have hstep : EspPassthrough.scanLoop apCount i (r :: rs) = fun b =>
            (EspPassthrough.sprintf b (recordText r)).bind (EspPassthrough.scanLoop apCount (i + 1) rs) := by
          funext b
          simp only [EspPassthrough.scanLoop, if_neg hidden, if_neg hmore]
        rw [hstep]
        exact (Confined.sprintf _).bind (ih (i + 1))

theorem printScan_confined {block buf : List UInt8} {rs : List WifiApRecord}
    (h : printScan block rs = some buf) :
    buf.length = block.length ∧ ∀ rest, printScan (block ++ rest) rs = some (buf ++ rest) := by
  have hall : Confined fun b => (sprintf b [91]).bind fun b =>
      (scanLoop rs.length 0 rs b).bind fun b => (dropComma b).bind fun b => sprintf b [93] :=
    (Confined.sprintf _).bind ((Confined.scanLoop _ _ _).bind (Confined.dropComma.bind (.sprintf _)))
  have hmap : ∀ block, printScan block rs = ((sprintf (block, 0) [91]).bind fun b =>
      (scanLoop rs.length 0 rs b).bind fun b => (dropComma b).bind fun b => sprintf b [93]).map
        Prod.fst := by
    intro block
    simp only [printScan, Option.map_bind, Function.comp_def]
  rw [hmap] at h
  obtain ⟨b, hb, rfl⟩ := Option.map_eq_some_iff.mp h
  obtain ⟨hlen, hrest⟩ := hall _ b hb
  refine ⟨hlen, fun rest => ?_⟩
  rw [hmap]
  exact congrArg _ (hrest rest)

/-- The handler stays inside the block it allocates, and inside any block with 128
bytes for each access point counted, up to twenty of them, and ten more. -/
theorem scan_response_in_buffer (sdk : ScanSdk) :
    scanGetHandler sdk ≠ none ∧
      ∀ block : List UInt8, block.length = min sdk.apNum.toNat 20 * 128 + 10 →
        ∃ buf, buf.length = block.length ∧ ∀ rest,
          printScan (block ++ rest) (sdk.apRecords (min sdk.apNum.toNat 20)) = some (buf ++ rest) := by
  refine ⟨?_, fun block hblock => ?_⟩
  · rcases scanGetHandler_cases sdk with ⟨_, _, calls, hcalls, _⟩ | ⟨_, buf, calls, _, _, hcalls, _⟩
    · simp [hcalls]
    · simp [hcalls]
  · have hcount := sdk.apRecords_length (min sdk.apNum.toNat 20)
    obtain ⟨buf, hprint, _⟩ := @printScan_body block (sdk.apRecords (min sdk.apNum.toNat 20)) (by omega)
    obtain ⟨hlen, hrest⟩ := printScan_confined hprint
    exact ⟨buf, hlen, hrest⟩

end EspPassthrough
