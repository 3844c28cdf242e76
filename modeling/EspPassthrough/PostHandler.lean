import EspPassthrough.RingBuffer
import EspPassthrough.Utils

/-! `wifi_config_post_handler` of `wifi_prov.c`, from the answers of
`httpd_req_recv` to the calls it makes. Accesses to `buf` are checked against
the block that `malloc` returned. -/

namespace EspPassthrough

open CText FormEncoding

/-- The fields of `wifi_sta_config_t` that the handler sets. -/
structure WifiStaConfig where
  ssid : Vector UInt8 32
  password : Vector UInt8 64
  bssidSet : Bool
  bssid : Vector UInt8 6
  deriving DecidableEq

inductive RecvResult where
  | bytes (data : List UInt8)
  | error (code : Nat)
  deriving DecidableEq

def RecvResult.received : RecvResult → Int
  | .bytes data => data.length
  | .error code => -code

def RecvResult.data : RecvResult → List UInt8
  | .bytes data => data
  | .error _ => []

def httpdSockErrTimeout : Int := -3

structure HttpdReq where
  contentLen : UInt32
  recv : List RecvResult

structure Sdk where
  malloc : Malloc
  httpdQueryKeyValue : (qry key : List UInt8) → (valSize : Nat) → Option (List UInt8)

def Sdk.block (sdk : Sdk) (size : Nat) : Option (List UInt8) := (sdk.malloc size).map (·.toList)

/-- A lookup gives the raw value of the first pair with the key if it fits with its null. -/
def Sdk.FindsValues (sdk : Sdk) : Prop :=
  ∀ qry key valSize, sdk.httpdQueryKeyValue qry key valSize =
    (rawValue qry key).filter fun v => decide (v.length < valSize)

inductive PostCall where
  | malloc (size : UInt32) (ok : Bool)
  | free
  | send500
  | send408
  | setConfig (cfg : WifiStaConfig)
  | resetRetryNum
  | connect
  | send (text : List UInt8)
  deriving DecidableEq

inductive Fault where
  | signedOverflow
  | outOfBounds
  deriving DecidableEq

/-- `receiving` is a call of `httpd_req_recv` that has not returned. -/
inductive PostExit where
  | fault (f : Fault)
  | receiving
  | espOk
  | espFail
  deriving DecidableEq

structure PostRun where
  calls : List PostCall
  exit : PostExit
  deriving DecidableEq

inductive RecvExit where
  | outOfBounds
  | receiving
  | failed (received : Int)
  | complete (buf : List UInt8)
  deriving DecidableEq

def recvLoop (totalLen : Int) (buf : List UInt8) (curLen : Nat) : List RecvResult → RecvExit
  | [] => if (curLen : Int) < totalLen then .receiving else .complete buf
  | r :: rs =>
    if (curLen : Int) < totalLen then
      if r.received ≤ 0 then .failed r.received
      else
        match writeAt buf curLen r.data with
        | none => .outOfBounds
        | some buf => recvLoop totalLen buf (curLen + r.data.length) rs
    else .complete buf

/-- `buf[total_len] = '\0'`, where the index may be negative. -/
def terminate (buf : List UInt8) (totalLen : Int) : Option (List UInt8) :=
  if 0 ≤ totalLen then store buf totalLen.toNat 0 else none

/-- The part under `bssid_enable`: `cfg` with the lock, or as it was. -/
def lockBssid (sdk : Sdk) (qry : List UInt8) (cfg : WifiStaConfig) : Option WifiStaConfig :=
  match sdk.httpdQueryKeyValue qry (ascii "bssid_enable") 10 with
  | none => some cfg
  | some bssidEnable =>
    if cstr (padZero 10 bssidEnable) = ascii "on" then
      match sdk.httpdQueryKeyValue qry (ascii "bssid") 64 with
      | none => some cfg
      | some bssidEncoded =>
        (urlDecode (List.replicate 20 0) (padZero 64 bssidEncoded) 20).map fun bssidDecoded =>
          let r := parseMacAddress bssidDecoded cfg.bssid
          { cfg with bssid := r.2, bssidSet := r.1 || cfg.bssidSet }
    else some cfg

def storedConfig (sdk : Sdk) (qry ssidEncoded passwordEncoded : List UInt8) :
    Option WifiStaConfig :=
  (urlDecode (List.replicate 33 0) (padZero 128 ssidEncoded) 33).bind fun ssidDecoded =>
    (urlDecode (List.replicate 65 0) (padZero 128 passwordEncoded) 65).bind fun passwordDecoded =>
      lockBssid sdk qry
        ⟨strncpy 32 ssidDecoded, strncpy 64 passwordDecoded, false, Vector.replicate 6 0⟩

def successText : List UInt8 := ascii "Connecting... Please check device status."

/-- The calls for a body in `buf`, up to `free`. -/
def respond (sdk : Sdk) (buf : List UInt8) : Option (List PostCall) :=
  match sdk.httpdQueryKeyValue (cstr buf) (ascii "ssid") 128,
    sdk.httpdQueryKeyValue (cstr buf) (ascii "password") 128 with
  | some ssidEncoded, some passwordEncoded =>
    (storedConfig sdk (cstr buf) ssidEncoded passwordEncoded).map fun cfg =>
      [.setConfig cfg, .resetRetryNum, .connect, .send successText]
  | _, _ => some [.send500]

/-- `content_len` narrowed to `int`. -/
def HttpdReq.totalLen (req : HttpdReq) : Int := req.contentLen.toBitVec.toInt

def wifiConfigPostHandler (sdk : Sdk) (req : HttpdReq) : PostRun :=
  let totalLen := req.totalLen
  if totalLen = 2 ^ 31 - 1 then ⟨[], .fault .signedOverflow⟩
  else
    let size := UInt32.ofInt (totalLen + 1)
    match sdk.block size.toNat with
    | none => ⟨[.malloc size false, .send500], .espFail⟩
    | some buf =>
      match recvLoop totalLen buf 0 req.recv with
      | .outOfBounds => ⟨[.malloc size true], .fault .outOfBounds⟩
      | .receiving => ⟨[.malloc size true], .receiving⟩
      | .failed received =>
        ⟨.malloc size true :: (if received = httpdSockErrTimeout then [.send408] else []) ++ [.free],
          .espFail⟩
      | .complete buf =>
        match (terminate buf totalLen).bind (respond sdk) with
        | none => ⟨[.malloc size true], .fault .outOfBounds⟩
        | some calls => ⟨.malloc size true :: calls ++ [.free], .espOk⟩

def PostRun.configs (r : PostRun) : List WifiStaConfig :=
  r.calls.filterMap fun | .setConfig cfg => some cfg | _ => none

/-- The calls made only for a body with both credentials. -/
def PostCall.provisions : PostCall → Bool
  | .setConfig _ | .resetRetryNum | .connect | .send _ => true
  | _ => false

def PostRun.texts (r : PostRun) : List (List UInt8) :=
  r.calls.filterMap fun | .send text => some text | _ => none

/-- The body comes in non-empty chunks, cut anywhere. -/
def HttpdReq.Delivers (req : HttpdReq) (body : List UInt8) : Prop :=
  req.contentLen.toNat = body.length ∧
    ∃ (chunks : List (List UInt8)) (rest : List RecvResult), (∀ c ∈ chunks, c ≠ []) ∧
      chunks.flatten = body ∧ req.recv = chunks.map .bytes ++ rest

def standardSdk : Sdk :=
  ⟨zeroMalloc, fun qry key valSize => (rawValue qry key).filter fun v => decide (v.length < valSize)⟩

theorem standardSdk_findsValues : standardSdk.FindsValues := fun _ _ _ => rfl

def HttpdReq.single (body : List UInt8) : HttpdReq := ⟨UInt32.ofNat body.length, [.bytes body]⟩

theorem recvLoop_bytes {pre old post c : List UInt8} {totalLen : Int} (hne : c ≠ [])
    (hold : c.length = old.length) (hfit : (pre.length + c.length : Nat) ≤ totalLen)
    (rs : List RecvResult) :
    recvLoop totalLen (pre ++ (old ++ post)) pre.length (.bytes c :: rs) =
      recvLoop totalLen (pre ++ c ++ post) (pre ++ c).length rs := by
  have hpos : 0 < c.length := List.length_pos_iff.mpr hne
  have hlt : (pre.length : Int) < totalLen := by omega
  have hrec : ¬(RecvResult.bytes c).received ≤ 0 := by
    simp only [RecvResult.received]
    omega
  rw [recvLoop, if_pos hlt, if_neg hrec]
  simp only [RecvResult.data, writeAt_append hold, List.append_assoc, List.length_append]

theorem recvLoop_done {totalLen : Int} {curLen : Nat} (h : totalLen ≤ curLen) (buf : List UInt8)
    (rs : List RecvResult) : recvLoop totalLen buf curLen rs = .complete buf := by
  have hlt : ¬(curLen : Int) < totalLen := by omega
  cases rs with
  | nil => rw [recvLoop, if_neg hlt]
  | cons r rs => rw [recvLoop, if_neg hlt]

theorem recvLoop_chunks {chunks : List (List UInt8)} (hne : ∀ c ∈ chunks, c ≠ [])
    {pre mid post : List UInt8} (hmid : mid.length = chunks.flatten.length)
    (rest : List RecvResult) :
    recvLoop (pre.length + mid.length : Nat) (pre ++ (mid ++ post)) pre.length
      (chunks.map .bytes ++ rest) = .complete (pre ++ (chunks.flatten ++ post)) := by
  induction chunks generalizing pre mid with
  | nil =>
    obtain rfl : mid = [] := List.length_eq_zero_iff.mp (by simpa using hmid)
    exact recvLoop_done (by simp) _ _
  | cons c chunks ih =>
    rw [List.flatten_cons, List.length_append] at hmid
    obtain ⟨m₁, m₂, rfl, h1⟩ : ∃ m₁ m₂, mid = m₁ ++ m₂ ∧ c.length = m₁.length :=
      ⟨mid.take c.length, mid.drop c.length, (List.take_append_drop _ _).symm, by
        rw [List.length_take]; omega⟩
    rw [List.length_append] at hmid
    have hstep := @ih (fun c' hc' => hne c' (List.mem_cons_of_mem c hc')) (pre ++ c) m₂ (by omega)
    have hcur : (pre ++ c).length + m₂.length = pre.length + (m₁ ++ m₂).length := by
      simp only [List.length_append, h1]
      omega
    rw [hcur] at hstep
    rw [List.map_cons, List.cons_append, List.append_assoc m₁,
      recvLoop_bytes (hne c List.mem_cons_self) h1 (by rw [List.length_append]; omega), List.append_assoc,
      ← List.append_assoc pre, hstep]
    simp [List.append_assoc]

theorem HttpdReq.single_delivers {body : List UInt8} (hne : body ≠ [])
    (hlen : body.length < UInt32.size) : (HttpdReq.single body).Delivers body :=
  ⟨UInt32.toNat_ofNat_of_lt' hlen, [body], [], by simpa using hne, by simp, rfl⟩

theorem HttpdReq.totalLen_eq (req : HttpdReq) :
    req.totalLen = if req.contentLen.toNat < 2 ^ 31 then (req.contentLen.toNat : Int)
      else req.contentLen.toNat - 2 ^ 32 := by
  rw [HttpdReq.totalLen, BitVec.toInt_eq_toNat_cond, UInt32.toNat_toBitVec]
  by_cases h : req.contentLen.toNat < 2 ^ 31
  · rw [if_pos h, if_pos (by omega)]
  · rw [if_neg h, if_neg (by omega)]
    rfl

theorem HttpdReq.size_toNat (req : HttpdReq) :
    (UInt32.ofInt (req.totalLen + 1)).toNat = (req.contentLen.toNat + 1) % 2 ^ 32 := by
  have htotal := req.totalLen_eq
  have hmod : ((req.totalLen + 1) % 2 ^ 32).toNat = (req.contentLen.toNat + 1) % 2 ^ 32 := by
    split at htotal <;> omega
  rw [UInt32.ofInt, hmod, UInt32.toNat_ofNat']
  exact Nat.mod_mod _ _

theorem Sdk.block_succ {sdk : Sdk} {n : Nat} {block : List UInt8}
    (h : sdk.block (n + 1) = some block) : ∃ mid last, block = mid ++ [last] ∧ mid.length = n := by
  obtain ⟨v, _, rfl⟩ := Option.map_eq_some_iff.mp h
  have hl : v.toList.length = n + 1 := by simp
  have hne : v.toList ≠ [] := by
    intro he
    rw [he] at hl
    cases hl
  exact ⟨v.toList.dropLast, v.toList.getLast hne, (List.dropLast_append_getLast hne).symm, by
    rw [List.length_dropLast, hl]; rfl⟩

theorem wifiConfigPostHandler_of_delivers {sdk : Sdk} {req : HttpdReq} {body : List UInt8}
    (hd : req.Delivers body) (hlen : body.length < 2 ^ 31 - 1)
    (hm : (sdk.malloc (body.length + 1)).isSome) :
    ∃ size, wifiConfigPostHandler sdk req =
      match respond sdk (body ++ [0]) with
      | none => ⟨[.malloc size true], .fault .outOfBounds⟩
      | some calls => ⟨.malloc size true :: calls ++ [.free], .espOk⟩ := by
  obtain ⟨hcontent, chunks, rest, hne, hbody, hrecv⟩ := hd
  have htotal : req.totalLen = body.length := by
    rw [HttpdReq.totalLen_eq, if_pos (by omega), hcontent]
  have hsize : (UInt32.ofInt (body.length + 1)).toNat = body.length + 1 := by
    rw [← htotal, req.size_toNat, hcontent, Nat.mod_eq_of_lt (by omega)]
  obtain ⟨block, hblock⟩ := Option.isSome_iff_exists.mp hm
  have hsome : sdk.block (body.length + 1) = some block.toList := by
    rw [Sdk.block, hblock, Option.map_some]
  obtain ⟨mid, last, hmid, hl⟩ := Sdk.block_succ hsome
  have hmidlen : mid.length = chunks.flatten.length := by rw [hl, hbody]
  have hloop := @recvLoop_chunks chunks hne [] mid [last] hmidlen rest
  have hcur : (([] : List UInt8).length + mid.length : Nat) = body.length := by
    rw [List.length_nil, Nat.zero_add, hmidlen, hbody]
  rw [hcur, List.nil_append, List.nil_append, hbody] at hloop
  have hterm : terminate (body ++ [last]) body.length = some (body ++ [0]) := by
    rw [terminate, if_pos (Int.natCast_nonneg _), Int.toNat_natCast]
    exact store_append 0
  refine ⟨UInt32.ofInt (body.length + 1), ?_⟩
  have hno : ¬(body.length : Int) = 2 ^ 31 - 1 := by omega
  have hmalloc : sdk.block (UInt32.ofInt (body.length + 1)).toNat = some (mid ++ [last]) := by
    rw [hsize, hsome, hmid]
  unfold wifiConfigPostHandler
  simp only [htotal, if_neg hno, hmalloc, hrecv]
  simp only [List.length_nil] at hloop
  simp only [hloop, hterm, Option.bind_some]

theorem wifiConfigPostHandler_eq {sdk : Sdk} {req : HttpdReq} {body : List UInt8}
    {calls : List PostCall} (hd : req.Delivers body) (hlen : body.length < 2 ^ 31 - 1)
    (hm : (sdk.malloc (body.length + 1)).isSome) (hr : respond sdk (body ++ [0]) = some calls) :
    ∃ size, wifiConfigPostHandler sdk req = ⟨.malloc size true :: calls ++ [.free], .espOk⟩ := by
  obtain ⟨size, hrun⟩ := wifiConfigPostHandler_of_delivers hd hlen hm
  exact ⟨size, by rw [hrun, hr]⟩

theorem PostRun.mem_configs {r : PostRun} {cfg : WifiStaConfig} :
    cfg ∈ r.configs ↔ .setConfig cfg ∈ r.calls := by
  rw [PostRun.configs, List.mem_filterMap]
  constructor
  · rintro ⟨call, hcall, hcfg⟩
    cases call with
    | setConfig c =>
      obtain rfl : c = cfg := by simpa using hcfg
      exact hcall
    | _ => cases hcfg
  · intro h
    exact ⟨_, h, rfl⟩

theorem wifiConfigPostHandler_provisions {sdk : Sdk} {req : HttpdReq} {call : PostCall}
    (hp : call.provisions = true) (h : call ∈ (wifiConfigPostHandler sdk req).calls) :
    req.totalLen ≠ 2 ^ 31 - 1 ∧ ∃ block buf calls,
      sdk.block (UInt32.ofInt (req.totalLen + 1)).toNat = some block ∧
      recvLoop req.totalLen block 0 req.recv = .complete buf ∧
      (terminate buf req.totalLen).bind (respond sdk) = some calls ∧ call ∈ calls := by
  have hmalloc : ∀ size ok, call ≠ .malloc size ok := by
    rintro size ok rfl
    cases hp
  have hother : call ≠ .free ∧ call ≠ .send500 ∧ call ≠ .send408 := by
    refine ⟨?_, ?_, ?_⟩ <;> rintro rfl <;> cases hp
  unfold wifiConfigPostHandler at h
  by_cases hmax : req.totalLen = 2 ^ 31 - 1
  · simp [hmax] at h
  simp only [if_neg hmax] at h
  refine ⟨hmax, ?_⟩
  cases hb : sdk.block (UInt32.ofInt (req.totalLen + 1)).toNat with
  | none =>
    simp only [hb] at h
    simp [hmalloc, hother] at h
  | some block =>
    cases hr : recvLoop req.totalLen block 0 req.recv with
    | outOfBounds | receiving =>
      simp only [hb, hr] at h
      simp [hmalloc] at h
    | failed received =>
      simp only [hb, hr] at h
      by_cases ht : received = httpdSockErrTimeout <;> simp [ht, hmalloc, hother] at h
    | complete buf =>
      cases hc : (terminate buf req.totalLen).bind (respond sdk) with
      | none =>
        simp only [hb, hr, hc] at h
        simp [hmalloc] at h
      | some calls =>
        simp only [hb, hr, hc] at h
        exact ⟨block, buf, calls, rfl, hr, hc, by simpa [hmalloc, hother] using h⟩

theorem respond_provisions {sdk : Sdk} {buf : List UInt8} {calls : List PostCall} {call : PostCall}
    (hp : call.provisions = true) (h : respond sdk buf = some calls) (hcall : call ∈ calls) :
    ∃ cfg, calls = [.setConfig cfg, .resetRetryNum, .connect, .send successText] := by
  unfold respond at h
  split at h
  case h_1 =>
    obtain ⟨cfg, _, rfl⟩ := Option.map_eq_some_iff.mp h
    exact ⟨cfg, rfl⟩
  case h_2 =>
    obtain rfl := Option.some.inj h
    obtain rfl := List.mem_singleton.mp hcall
    cases hp

/-- A run that makes one of the calls for accepted credentials makes them all. -/
theorem wifiConfigPostHandler_accepted {sdk : Sdk} {req : HttpdReq} {call : PostCall}
    (hp : call.provisions = true) (h : call ∈ (wifiConfigPostHandler sdk req).calls) :
    ∃ size cfg, wifiConfigPostHandler sdk req =
      ⟨[.malloc size true, .setConfig cfg, .resetRetryNum, .connect, .send successText, .free], .espOk⟩ := by
  obtain ⟨hmax, block, buf, calls, hblock, hloop, hcalls, hmem⟩ := wifiConfigPostHandler_provisions hp h
  obtain ⟨terminated, _, hrespond⟩ := Option.bind_eq_some_iff.mp hcalls
  obtain ⟨cfg, rfl⟩ := respond_provisions hp hrespond hmem
  refine ⟨UInt32.ofInt (req.totalLen + 1), cfg, ?_⟩
  unfold wifiConfigPostHandler
  simp only [if_neg hmax, hblock, hloop, hcalls]
  rfl

theorem respond_of_provisions {sdk : Sdk} {req : HttpdReq} {body : List UInt8} {call : PostCall}
    (hp : call.provisions = true) (hd : req.Delivers body)
    (hcall : call ∈ (wifiConfigPostHandler sdk req).calls) :
    body.length < 2 ^ 31 - 1 ∧ (sdk.malloc (body.length + 1)).isSome ∧
      ∃ calls, respond sdk (body ++ [0]) = some calls ∧ call ∈ calls := by
  obtain ⟨hmax, block, buf, calls, hblock, _, hcalls, _⟩ := wifiConfigPostHandler_provisions hp hcall
  obtain ⟨hcontent, _⟩ := id hd
  have hneg : 0 ≤ req.totalLen := by
    by_contra hlt
    rw [terminate, if_neg hlt] at hcalls
    cases hcalls
  have htotal := req.totalLen_eq
  have hlt := req.contentLen.toNat_lt
  have hlen : body.length < 2 ^ 31 - 1 := by
    split at htotal <;> omega
  have hm : (sdk.malloc (body.length + 1)).isSome := by
    rw [req.size_toNat, hcontent, Nat.mod_eq_of_lt (by omega), Sdk.block] at hblock
    cases hmal : sdk.malloc (body.length + 1) with
    | none => simp [hmal] at hblock
    | some b => rfl
  obtain ⟨size, hrun⟩ := wifiConfigPostHandler_of_delivers hd hlen hm
  rw [hrun] at hcall
  refine ⟨hlen, hm, ?_⟩
  cases hr : respond sdk (body ++ [0]) with
  | none =>
    rw [hr] at hcall
    obtain rfl := List.mem_singleton.mp hcall
    cases hp
  | some calls =>
    rw [hr] at hcall
    refine ⟨calls, rfl, ?_⟩
    rcases List.mem_append.mp hcall with hcall | hcall
    · rcases List.mem_cons.mp hcall with rfl | hcall
      · cases hp
      · exact hcall
    · obtain rfl := List.mem_singleton.mp hcall
      cases hp

theorem respond_of_mem_configs {sdk : Sdk} {req : HttpdReq} {body : List UInt8}
    {cfg : WifiStaConfig} (hd : req.Delivers body)
    (hcfg : cfg ∈ (wifiConfigPostHandler sdk req).configs) :
    ∃ calls, respond sdk (body ++ [0]) = some calls ∧ .setConfig cfg ∈ calls :=
  (respond_of_provisions rfl hd (PostRun.mem_configs.mp hcfg)).2.2

theorem Sdk.FindsValues.eq_some {sdk : Sdk} (hq : sdk.FindsValues) {qry key value : List UInt8}
    {valSize : Nat} :
    sdk.httpdQueryKeyValue qry key valSize = some value ↔
      rawValue qry key = some value ∧ value.length < valSize := by
  rw [hq, Option.filter_eq_some_iff]
  simp

theorem rawValue_no_null {body key value : List UInt8} (h : rawValue (cstr body) key = some value) :
    ∀ c ∈ value, c ≠ 0 := by
  intro c hc
  exact cstr_no_null body c (mem_of_mem_rawValue h hc)

theorem urlDecode_padZero {value : List UInt8} (hnull : ∀ c ∈ value, c ≠ 0) {valSize : Nat}
    (hlen : value.length < valSize) {dstLen : UInt32} (hpos : 1 ≤ dstLen) :
    ∃ rest, urlDecode (List.replicate dstLen.toNat 0) (padZero valSize value) dstLen =
      some ((percentDecode value).take (dstLen.toNat - 1) ++ 0 :: rest) := by
  obtain ⟨m, hm⟩ : ∃ m, valSize - value.length = m + 1 := ⟨valSize - value.length - 1, by omega⟩
  have hpad : padZero valSize value = value ++ 0 :: List.replicate m 0 := by
    rw [padZero, List.take_of_length_le hlen.le, hm, List.replicate_succ]
  have hdst : (List.replicate dstLen.toNat (0 : UInt8)).length = dstLen.toNat := by simp
  have hdec := @urlDecode_spec value (List.replicate m 0) _ dstLen hnull hdst hpos
  rw [hdst] at hdec
  exact ⟨_, by rw [hpad, hdec]⟩

theorem lockBssid_keeps {sdk : Sdk} (hq : sdk.FindsValues) (body : List UInt8)
    (cfg : WifiStaConfig) :
    ∃ set mac, lockBssid sdk (cstr body) cfg = some { cfg with bssidSet := set, bssid := mac } := by
  unfold lockBssid
  cases he : sdk.httpdQueryKeyValue (cstr body) (ascii "bssid_enable") 10 with
  | none => exact ⟨cfg.bssidSet, cfg.bssid, rfl⟩
  | some bssidEnable =>
    by_cases hon : cstr (padZero 10 bssidEnable) = ascii "on"
    · cases hb : sdk.httpdQueryKeyValue (cstr body) (ascii "bssid") 64 with
      | none => exact ⟨cfg.bssidSet, cfg.bssid, by simp only [if_pos hon]⟩
      | some e =>
        obtain ⟨hraw, hlen⟩ := hq.eq_some.mp hb
        obtain ⟨rest, hdec⟩ := @urlDecode_padZero e (rawValue_no_null hraw) 64 hlen 20 (by decide)
        have hdec' : urlDecode (List.replicate 20 0) (padZero 64 e) 20 = _ := hdec
        simp only [if_pos hon, hdec', Option.map_some]
        exact ⟨_, _, rfl⟩
    · exact ⟨cfg.bssidSet, cfg.bssid, by simp only [if_neg hon]⟩

theorem lockBssid_off {sdk : Sdk} (hq : sdk.FindsValues) {qry : List UInt8}
    (hoff : rawValue qry (ascii "bssid_enable") = none) (cfg : WifiStaConfig) :
    lockBssid sdk qry cfg = some cfg := by
  rw [lockBssid, hq, hoff, Option.filter_none]

/-- `cfg` for a request that asks for the lock and gives `value` for the address. -/
def withLock (value : Option (List UInt8)) (cfg : WifiStaConfig) : WifiStaConfig :=
  match value with
  | none => cfg
  | some e =>
    let r := parseMacAddress ((percentDecode e).take 19) cfg.bssid
    { cfg with bssid := r.2, bssidSet := r.1 || cfg.bssidSet }

theorem lockBssid_on {sdk : Sdk} (hq : sdk.FindsValues) {body : List UInt8}
    (hon : rawValue (cstr body) (ascii "bssid_enable") = some (ascii "on")) (cfg : WifiStaConfig) :
    lockBssid sdk (cstr body) cfg = some (withLock
      ((rawValue (cstr body) (ascii "bssid")).filter fun e => decide (e.length < 64)) cfg) := by
  have hcmp : cstr (padZero 10 (ascii "on")) = ascii "on" := by decide
  rw [lockBssid, hq.eq_some.mpr ⟨hon, by decide⟩]
  simp only [if_pos hcmp, ← hq (cstr body) (ascii "bssid") 64]
  cases he : sdk.httpdQueryKeyValue (cstr body) (ascii "bssid") 64 with
  | none => rfl
  | some e =>
    obtain ⟨hraw, hlen⟩ := hq.eq_some.mp he
    obtain ⟨rest, hdec⟩ := @urlDecode_padZero e (rawValue_no_null hraw) 64 hlen 20 (by decide)
    have hdec' : urlDecode (List.replicate 20 0) (padZero 64 e) 20 =
      some ((percentDecode e).take 19 ++ 0 :: rest) := hdec
    simp only [hdec', Option.map_some, parseMacAddress_append_null, withLock]

theorem storedConfig_eq {sdk : Sdk} {body v w : List UInt8}
    (hv : rawValue (cstr body) (ascii "ssid") = some v) (hvlen : v.length < 128)
    (hw : rawValue (cstr body) (ascii "password") = some w) (hwlen : w.length < 128) :
    storedConfig sdk (cstr body) v w =
      lockBssid sdk (cstr body) ⟨strncpy 32 (percentDecode v), strncpy 64 (percentDecode w), false,
        Vector.replicate 6 0⟩ := by
  obtain ⟨r₁, h₁⟩ := @urlDecode_padZero v (rawValue_no_null hv) 128 hvlen 33 (by decide)
  obtain ⟨r₂, h₂⟩ := @urlDecode_padZero w (rawValue_no_null hw) 128 hwlen 65 (by decide)
  have h₁' : urlDecode (List.replicate 33 0) (padZero 128 v) 33 =
    some ((percentDecode v).take 32 ++ 0 :: r₁) := h₁
  have h₂' : urlDecode (List.replicate 65 0) (padZero 128 w) 65 =
    some ((percentDecode w).take 64 ++ 0 :: r₂) := h₂
  rw [storedConfig, h₁', h₂', Option.bind_some, Option.bind_some, strncpy_take le_rfl,
    strncpy_take le_rfl]

theorem respond_found {sdk : Sdk} (hq : sdk.FindsValues) {body v w : List UInt8}
    (hv : rawValue (cstr body) (ascii "ssid") = some v) (hvlen : v.length < 128)
    (hw : rawValue (cstr body) (ascii "password") = some w) (hwlen : w.length < 128) :
    respond sdk body = (lockBssid sdk (cstr body) ⟨strncpy 32 (percentDecode v),
      strncpy 64 (percentDecode w), false, Vector.replicate 6 0⟩).map fun cfg =>
        [.setConfig cfg, .resetRetryNum, .connect, .send successText] := by
  rw [respond, hq.eq_some.mpr ⟨hv, hvlen⟩, hq.eq_some.mpr ⟨hw, hwlen⟩]
  simp only [storedConfig_eq hv hvlen hw hwlen]

theorem respond_cases {sdk : Sdk} (hq : sdk.FindsValues) (body : List UInt8) :
    respond sdk body = some [.send500] ∨
      ∃ v w set mac, (rawValue (cstr body) (ascii "ssid") = some v ∧ v.length < 128) ∧
        (rawValue (cstr body) (ascii "password") = some w ∧ w.length < 128) ∧
        respond sdk body = some [.setConfig ⟨strncpy 32 (percentDecode v),
          strncpy 64 (percentDecode w), set, mac⟩, .resetRetryNum, .connect, .send successText] := by
  cases hs : sdk.httpdQueryKeyValue (cstr body) (ascii "ssid") 128 with
  | none => exact .inl (by rw [respond, hs])
  | some v =>
    cases hp : sdk.httpdQueryKeyValue (cstr body) (ascii "password") 128 with
    | none => exact .inl (by rw [respond, hs, hp])
    | some w =>
      obtain ⟨hv, hvlen⟩ := hq.eq_some.mp hs
      obtain ⟨hw, hwlen⟩ := hq.eq_some.mp hp
      obtain ⟨set, mac, hlock⟩ := lockBssid_keeps hq body ⟨strncpy 32 (percentDecode v),
        strncpy 64 (percentDecode w), false, Vector.replicate 6 0⟩
      exact .inr ⟨v, w, set, mac, ⟨hv, hvlen⟩, ⟨hw, hwlen⟩, by
        rw [respond_found hq hv hvlen hw hwlen, hlock, Option.map_some]⟩

theorem respond_setConfig {sdk : Sdk} (hq : sdk.FindsValues) {body : List UInt8}
    {calls : List PostCall} {cfg : WifiStaConfig} (hr : respond sdk body = some calls)
    (hcfg : .setConfig cfg ∈ calls) :
    ∃ v w, rawValue (cstr body) (ascii "ssid") = some v ∧
      rawValue (cstr body) (ascii "password") = some w ∧
      cfg.ssid = strncpy 32 (percentDecode v) ∧ cfg.password = strncpy 64 (percentDecode w) := by
  rcases respond_cases hq body with hfail | ⟨v, w, set, mac, ⟨hv, _⟩, ⟨hw, _⟩, hsent⟩
  · obtain rfl := Option.some.inj (hfail.symm.trans hr)
    simp at hcfg
  · obtain rfl := Option.some.inj (hsent.symm.trans hr)
    obtain rfl : cfg = ⟨strncpy 32 (percentDecode v), strncpy 64 (percentDecode w), set, mac⟩ := by
      simpa using hcfg
    exact ⟨v, w, hv, hw, rfl, rfl⟩

theorem configs_strncpy {sdk : Sdk} (hq : sdk.FindsValues) {req : HttpdReq} {cfg : WifiStaConfig}
    (hcfg : cfg ∈ (wifiConfigPostHandler sdk req).configs) :
    ∃ s p, cfg.ssid = strncpy 32 s ∧ cfg.password = strncpy 64 p := by
  have hset := PostRun.mem_configs.mp hcfg
  obtain ⟨_, _, buf, calls, _, _, hcalls, hmem⟩ := wifiConfigPostHandler_provisions rfl hset
  obtain ⟨body, _, hr⟩ := Option.bind_eq_some_iff.mp hcalls
  obtain ⟨v, w, _, _, hs, hp⟩ := respond_setConfig hq hr hmem
  exact ⟨percentDecode v, percentDecode w, hs, hp⟩

end EspPassthrough
