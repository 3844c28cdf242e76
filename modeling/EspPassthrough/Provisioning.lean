import EspPassthrough.PostHandler

/-! What becomes of a form that the configuration page, or another client, posts. -/

namespace EspPassthrough

open CText FormEncoding

/-- A value that can stand in a form body and that the handler's buffers take. -/
structure FormValue (e : List UInt8) : Prop where
  fits : e.length < 128
  no_separator : 38 ∉ e
  no_null : 0 ∉ e

/-- The posted form with the BSSID lock off: the unchecked box sends no pair. -/
def pageBody (ssid password : List UInt8) : List UInt8 :=
  formBody [(ascii "ssid", formEncode ssid), (ascii "password", formEncode password),
    (ascii "bssid", [])]

def lockBody (ssidValue passwordValue bssidValue : List UInt8) : List UInt8 :=
  formBody [(ascii "ssid", ssidValue), (ascii "password", passwordValue),
    (ascii "bssid_enable", ascii "on"), (ascii "bssid", bssidValue)]

def Provisioned (r : PostRun) (ssid password : List UInt8) : Prop :=
  (∃ cfg, r.configs = [cfg] ∧ cfg.ssid.toList = padZero 32 ssid ∧
    cfg.password.toList = padZero 64 password ∧ cfg.bssidSet = false) ∧ r.texts = [successText]

def storedFor (ssid password : List UInt8) : WifiStaConfig :=
  ⟨strncpy 32 ssid, strncpy 64 password, false, Vector.replicate 6 0⟩

theorem rawValue_posted {pairs : List (List UInt8 × List UInt8)}
    (hkeys : ∀ key ∈ pairs.map Prod.fst, 38 ∉ key ∧ 61 ∉ key ∧ 0 ∉ key)
    (hvalues : ∀ value ∈ pairs.map Prod.snd, 38 ∉ value ∧ 0 ∉ value) (hne : pairs ≠ [])
    (key : List UInt8) : rawValue (cstr (formBody pairs ++ [0])) key = pairs.lookup key := by
  have hsep : ∀ p ∈ pairs, 38 ∉ p.1 ∧ 61 ∉ p.1 ∧ 38 ∉ p.2 := by
    intro p hp
    obtain ⟨h38, h61, _⟩ := hkeys p.1 (List.mem_map_of_mem hp)
    exact ⟨h38, h61, (hvalues p.2 (List.mem_map_of_mem hp)).1⟩
  have hnull : ∀ p ∈ pairs, 0 ∉ p.1 ∧ 0 ∉ p.2 := by
    intro p hp
    exact ⟨(hkeys p.1 (List.mem_map_of_mem hp)).2.2, (hvalues p.2 (List.mem_map_of_mem hp)).2⟩
  rw [cstr_of_no_null (formBody_no_null hnull), rawValue_formBody hsep hne]

theorem formEncode_sendable {s : List UInt8} (hnull : ∀ c ∈ s, c ≠ 0) :
    38 ∉ formEncode s ∧ 0 ∉ formEncode s := by
  constructor
  · intro h
    exact (formEncode_no_separator s 38 h).1 rfl
  · intro h
    exact (formEncode_encodes hnull).no_null.2 0 h rfl

theorem rawValue_pageBody {ssid password : List UInt8} (hssid : ∀ c ∈ ssid, c ≠ 0)
    (hpassword : ∀ c ∈ password, c ≠ 0) :
    let qry := cstr (pageBody ssid password ++ [0])
    rawValue qry (ascii "ssid") = some (formEncode ssid) ∧
      rawValue qry (ascii "password") = some (formEncode password) ∧
      rawValue qry (ascii "bssid_enable") = none := by
  have hraw := @rawValue_posted [(ascii "ssid", formEncode ssid),
    (ascii "password", formEncode password), (ascii "bssid", [])]
    (show ∀ key ∈ [ascii "ssid", ascii "password", ascii "bssid"], _ by decide)
    (by simpa using ⟨formEncode_sendable hssid, formEncode_sendable hpassword⟩) (by simp)
  exact ⟨hraw _, hraw _, hraw _⟩

theorem rawValue_lockBody {es ep eb : List UInt8} (hes : FormValue es) (hep : FormValue ep)
    (hb : 38 ∉ eb ∧ 0 ∉ eb) :
    let qry := cstr (lockBody es ep eb ++ [0])
    rawValue qry (ascii "ssid") = some es ∧ rawValue qry (ascii "password") = some ep ∧
      rawValue qry (ascii "bssid_enable") = some (ascii "on") ∧
      rawValue qry (ascii "bssid") = some eb := by
  have hraw := @rawValue_posted [(ascii "ssid", es), (ascii "password", ep),
    (ascii "bssid_enable", ascii "on"), (ascii "bssid", eb)]
    (show ∀ key ∈ [ascii "ssid", ascii "password", ascii "bssid_enable", ascii "bssid"], _ by decide)
    (by
      have hon : 38 ∉ ascii "on" ∧ 0 ∉ ascii "on" := by decide
      simpa using ⟨⟨hes.no_separator, hes.no_null⟩, ⟨hep.no_separator, hep.no_null⟩, hon, hb⟩)
    (by simp)
  exact ⟨hraw _, hraw _, hraw _, hraw _⟩

theorem pageBody_length {ssid password : List UInt8} (hssid : ∀ c ∈ ssid, c ≠ 0)
    (hpassword : ∀ c ∈ password, c ≠ 0) :
    (pageBody ssid password).length ≤ 22 + 3 * ssid.length + 3 * password.length := by
  have hs := (formEncode_encodes hssid).length_le.2
  have hp := (formEncode_encodes hpassword).length_le.2
  have hkeys : (ascii "ssid").length = 4 ∧ (ascii "password").length = 8 ∧
    (ascii "bssid").length = 5 := by decide
  have hbody := @formBody_length [(ascii "ssid", formEncode ssid),
    (ascii "password", formEncode password), (ascii "bssid", [])] (by simp)
  simp only [List.map_cons, List.map_nil, List.sum_cons, List.sum_nil, List.length_nil, hkeys] at hbody
  rw [pageBody]
  omega

theorem wifiConfigPostHandler_page {sdk : Sdk} {req : HttpdReq} {ssid password : List UInt8}
    (hq : sdk.FindsValues) (hm : (sdk.malloc ((pageBody ssid password).length + 1)).isSome)
    (hssid : ∀ c ∈ ssid, c ≠ 0) (hslen : ssid.length ≤ 32) (hpassword : ∀ c ∈ password, c ≠ 0)
    (hplen : password.length ≤ 63) (hfit : (formEncode password).length < 128)
    (hd : req.Delivers (pageBody ssid password)) :
    ∃ size, wifiConfigPostHandler sdk req = ⟨.malloc size true :: [.setConfig (storedFor ssid password),
      .resetRetryNum, .connect, .send successText] ++ [.free], .espOk⟩ := by
  have hlen := pageBody_length hssid hpassword
  have hes := (formEncode_encodes hssid).length_le.2
  obtain ⟨hs, hp, hoff⟩ := rawValue_pageBody hssid hpassword
  have hr := respond_found hq hs (by omega) hp hfit
  rw [lockBssid_off hq hoff, Option.map_some, percentDecode_encodes (formEncode_encodes hssid),
    percentDecode_encodes (formEncode_encodes hpassword)] at hr
  exact wifiConfigPostHandler_eq hd (by omega) hm hr

theorem storedFor_mem_configs {ssid password : List UInt8} (hssid : ∀ c ∈ ssid, c ≠ 0)
    (hslen : ssid.length ≤ 32) (hpassword : ∀ c ∈ password, c ≠ 0) (hplen : password.length ≤ 63)
    (hfit : (formEncode password).length < 128) :
    storedFor ssid password ∈
      (wifiConfigPostHandler standardSdk (.single (pageBody ssid password))).configs := by
  have hlen := pageBody_length hssid hpassword
  have hne : pageBody ssid password ≠ [] := by simp [pageBody, formBody, ascii]
  have hd := HttpdReq.single_delivers hne (by simp only [UInt32.size]; omega)
  obtain ⟨size, hrun⟩ :=
    wifiConfigPostHandler_page standardSdk_findsValues rfl hssid hslen hpassword hplen hfit hd
  rw [PostRun.mem_configs, hrun]
  simp

/-- A credential that the page's form admits is stored and acknowledged exactly
when its password still fits the buffer for the encoded value. -/
theorem provisioned_iff {sdk : Sdk} {req : HttpdReq} {ssid password : List UInt8}
    (hq : sdk.FindsValues) (hm : (sdk.malloc ((pageBody ssid password).length + 1)).isSome)
    (hssid : ∀ c ∈ ssid, c ≠ 0) (hslen : 1 ≤ ssid.length ∧ ssid.length ≤ 32)
    (hpassword : ∀ c ∈ password, c ≠ 0) (hplen : password.length ≤ 63)
    (hd : req.Delivers (pageBody ssid password)) :
    Provisioned (wifiConfigPostHandler sdk req) ssid password ↔
      (formEncode password).length ≤ 127 := by
  have hlen := pageBody_length hssid hpassword
  by_cases hfit : (formEncode password).length < 128
  · obtain ⟨size, hrun⟩ := wifiConfigPostHandler_page hq hm hssid hslen.2 hpassword hplen hfit hd
    rw [hrun]
    refine iff_of_true ⟨⟨_, rfl, ?_, ?_, rfl⟩, rfl⟩ (by omega)
    · rw [storedFor, strncpy_toList, cstr_eq_self hssid]
    · rw [storedFor, strncpy_toList, cstr_eq_self hpassword]
  · obtain ⟨hs, hp, _⟩ := rawValue_pageBody hssid hpassword
    have hes := (formEncode_encodes hssid).length_le.2
    have hr : respond sdk (pageBody ssid password ++ [0]) = some [.send500] := by
      rw [respond, hq.eq_some.mpr ⟨hs, by omega⟩, hq, hp, Option.filter_some_neg (by simpa using hfit)]
    obtain ⟨size, hrun⟩ := wifiConfigPostHandler_eq hd (by omega) hm hr
    rw [hrun]
    refine iff_of_false ?_ (by omega)
    rintro ⟨⟨cfg, hcfg, _⟩, _⟩
    cases hcfg

theorem escaped_password_refused :
    ∃ ssid password, (∀ c ∈ ssid, c ≠ 0) ∧ (1 ≤ ssid.length ∧ ssid.length ≤ 32) ∧
      (∀ c ∈ password, c ≠ 0) ∧ password.length ≤ 63 ∧ standardSdk.FindsValues ∧
      (∀ n, (standardSdk.malloc n).isSome) ∧
      (HttpdReq.single (pageBody ssid password)).Delivers (pageBody ssid password) ∧
      ¬Provisioned (wifiConfigPostHandler standardSdk (.single (pageBody ssid password)))
        ssid password := by
  refine ⟨ascii "Home", List.replicate 43 35, forall_mem_of_all (by decide), by decide,
    forall_mem_of_all (by decide), by decide,
    standardSdk_findsValues, fun _ => rfl,
    HttpdReq.single_delivers (by decide +kernel) (by decide +kernel), ?_⟩
  rintro ⟨⟨cfg, hcfg, _⟩, _⟩
  have hnone : (wifiConfigPostHandler standardSdk
    (.single (pageBody (ascii "Home") (List.replicate 43 35)))).configs = [] := by decide +kernel
  rw [hnone] at hcfg
  cases hcfg

theorem provisioned_iff_plain :
    (HttpdReq.single (pageBody (ascii "Home") (ascii "secret pass"))).Delivers
        (pageBody (ascii "Home") (ascii "secret pass")) ∧
      Provisioned (wifiConfigPostHandler standardSdk
        (.single (pageBody (ascii "Home") (ascii "secret pass"))))
          (ascii "Home") (ascii "secret pass") := by
  have hd := @HttpdReq.single_delivers (pageBody (ascii "Home") (ascii "secret pass"))
    (by decide +kernel) (by decide +kernel)
  exact ⟨hd, (provisioned_iff standardSdk_findsValues rfl (forall_mem_of_all (by decide)) (by decide)
    (forall_mem_of_all (by decide)) (by decide) hd).mpr (by decide +kernel)⟩

/-! A field of `n` bytes keeps a string whole up to that length and its first null. -/

def FitsField (n : Nat) (s : List UInt8) : Prop := s.length ≤ n ∧ ∀ c ∈ s, c ≠ 0

theorem stored_whole_iff (n : Nat) (s : List UInt8) :
    cstr (strncpy n s).toList = s ↔ FitsField n s := by
  rw [cstr_strncpy]
  constructor
  · intro h
    have hlen := congrArg List.length h
    rw [List.length_take] at hlen
    have hle := cstr_length_le s
    have hc : cstr s = s := (List.takeWhile_prefix _).eq_of_length (by
      change (cstr s).length = _
      omega)
    exact ⟨by omega, cstr_eq_self_iff.mp hc⟩
  · rintro ⟨hlen, hnull⟩
    rw [cstr_eq_self hnull, List.take_of_length_le hlen]

/-- Of the credentials in a body that leads to a stored configuration, the stored
ones are the complete decodings exactly when these fit their fields. -/
theorem credentials_whole_iff {sdk : Sdk} {req : HttpdReq} {body : List UInt8}
    {cfg : WifiStaConfig} (hq : sdk.FindsValues) (hd : req.Delivers body)
    (hcfg : cfg ∈ (wifiConfigPostHandler sdk req).configs) :
    ∃ v w, rawValue (cstr body) (ascii "ssid") = some v ∧
      rawValue (cstr body) (ascii "password") = some w ∧
      ((cstr cfg.ssid.toList = percentDecode v ∧ cstr cfg.password.toList = percentDecode w) ↔
        FitsField 32 (percentDecode v) ∧ FitsField 64 (percentDecode w)) := by
  obtain ⟨calls, hr, hset⟩ := respond_of_mem_configs hd hcfg
  obtain ⟨v, w, hv, hw, hssid, hpassword⟩ := respond_setConfig hq hr hset
  rw [cstr_append_null] at hv hw
  refine ⟨v, w, hv, hw, ?_⟩
  rw [hssid, hpassword, stored_whole_iff, stored_whole_iff]

/-- Seventeen letters of two bytes each, as the page lets them through. -/
def accentedSsid : List UInt8 := (List.replicate 17 [195, 169]).flatten

theorem long_ssid_stored_truncated :
    ∃ body cfg, (HttpdReq.single body).Delivers body ∧ standardSdk.FindsValues ∧
      cfg ∈ (wifiConfigPostHandler standardSdk (.single body)).configs ∧
      rawValue (cstr body) (ascii "ssid") = some (formEncode accentedSsid) ∧
      percentDecode (formEncode accentedSsid) = accentedSsid ∧
      cstr cfg.ssid.toList ≠ accentedSsid ∧ cstr cfg.ssid.toList <+: accentedSsid := by
  let body := pageBody accentedSsid (ascii "secret pass")
  have hd : (HttpdReq.single body).Delivers body :=
    HttpdReq.single_delivers (by decide +kernel) (by decide +kernel)
  have hconfigs : (wifiConfigPostHandler standardSdk (.single body)).configs =
    [storedFor (accentedSsid.take 32) (ascii "secret pass")] := by decide +kernel
  refine ⟨body, _, hd, standardSdk_findsValues, by rw [hconfigs]; exact List.mem_singleton_self _, ?_⟩
  decide +kernel

theorem credentials_whole_iff_plain :
    ∃ cfg, cfg ∈ (wifiConfigPostHandler standardSdk
        (.single (pageBody (ascii "Home") (ascii "secret pass")))).configs ∧
      cstr cfg.ssid.toList = ascii "Home" ∧ cstr cfg.password.toList = ascii "secret pass" := by
  let body := pageBody (ascii "Home") (ascii "secret pass")
  have hd : (HttpdReq.single body).Delivers body :=
    HttpdReq.single_delivers (by decide +kernel) (by decide +kernel)
  have hcfg : storedFor (ascii "Home") (ascii "secret pass") ∈
    (wifiConfigPostHandler standardSdk (.single body)).configs := by decide +kernel
  obtain ⟨v, w, hv, hw, hiff⟩ := credentials_whole_iff standardSdk_findsValues hd hcfg
  have hraw : rawValue (cstr body) (ascii "ssid") = some (ascii "Home") ∧
    rawValue (cstr body) (ascii "password") = some (ascii "secret+pass") := by decide +kernel
  obtain rfl := Option.some.inj (hraw.1.symm.trans hv)
  obtain rfl := Option.some.inj (hraw.2.symm.trans hw)
  have hdec : percentDecode (ascii "Home") = ascii "Home" ∧
    percentDecode (ascii "secret+pass") = ascii "secret pass" := by decide +kernel
  rw [hdec.1, hdec.2] at hiff
  exact ⟨_, hcfg, hiff.mpr ⟨⟨by decide, forall_mem_of_all (by decide)⟩, by decide,
    forall_mem_of_all (by decide)⟩⟩

theorem lockBody_length {es ep eb : List UInt8} (hes : FormValue es) (hep : FormValue ep) :
    (lockBody es ep eb).length ≤ 300 + eb.length := by
  have hs := hes.fits
  have hp := hep.fits
  have hkeys : (ascii "ssid").length = 4 ∧ (ascii "password").length = 8 ∧
    (ascii "bssid_enable").length = 12 ∧ (ascii "bssid").length = 5 ∧
    (ascii "on").length = 2 := by decide
  have hbody := @formBody_length [(ascii "ssid", es), (ascii "password", ep),
    (ascii "bssid_enable", ascii "on"), (ascii "bssid", eb)] (by simp)
  simp only [List.map_cons, List.map_nil, List.sum_cons, List.sum_nil, hkeys] at hbody
  rw [lockBody]
  omega

/-- A body of which the handler stores a configuration, if the block for it is there. -/
structure Storable (sdk : Sdk) (body : List UInt8) : Prop where
  length_lt : body.length < 2 ^ 31 - 1
  block : (sdk.malloc (body.length + 1)).isSome
  ssid : ∃ v, rawValue (cstr body) (ascii "ssid") = some v ∧ v.length < 128
  password : ∃ w, rawValue (cstr body) (ascii "password") = some w ∧ w.length < 128

theorem configs_of_storable {sdk : Sdk} {req : HttpdReq} {body : List UInt8} (hq : sdk.FindsValues)
    (hd : req.Delivers body) (hs : Storable sdk body) :
    ∃ ssid password, ∀ cfg, lockBssid sdk (cstr body) ⟨ssid, password, false, Vector.replicate 6 0⟩ =
      some cfg → (wifiConfigPostHandler sdk req).configs = [cfg] := by
  obtain ⟨v, hv, hvlen⟩ := hs.ssid
  obtain ⟨w, hw, hwlen⟩ := hs.password
  refine ⟨strncpy 32 (percentDecode v), strncpy 64 (percentDecode w), fun cfg hlock => ?_⟩
  rw [← cstr_append_null body []] at hv hw hlock
  have hr := respond_found hq hv hvlen hw hwlen
  rw [hlock, Option.map_some] at hr
  obtain ⟨size, hrun⟩ := wifiConfigPostHandler_eq hd hs.length_lt hs.block hr
  rw [hrun]
  rfl

theorem configs_of_lock {sdk : Sdk} {req : HttpdReq} {body : List UInt8} (hq : sdk.FindsValues)
    (hd : req.Delivers body) (hs : Storable sdk body)
    (hon : rawValue (cstr body) (ascii "bssid_enable") = some (ascii "on")) :
    ∃ ssid password, (wifiConfigPostHandler sdk req).configs = [withLock
      ((rawValue (cstr body) (ascii "bssid")).filter fun e => decide (e.length < 64))
      ⟨ssid, password, false, Vector.replicate 6 0⟩] := by
  obtain ⟨ssid, password, hcfg⟩ := configs_of_storable hq hd hs
  exact ⟨ssid, password, hcfg _ (lockBssid_on hq hon _)⟩

theorem withLock_encodes {v e : List UInt8} (he : Encodes v e) (hlen : v.length ≤ 19)
    (cfg : WifiStaConfig) :
    withLock ((some e).filter fun e => decide (e.length < 64)) cfg =
      { cfg with
        bssid := (parseMacAddress v cfg.bssid).2
        bssidSet := (parseMacAddress v cfg.bssid).1 || cfg.bssidSet } := by
  have helen := he.length_le.2
  rw [Option.filter_some_pos (by simp; omega)]
  simp only [withLock, percentDecode_encodes he, List.take_of_length_le hlen]

/-- An address that the page's check admits is locked exactly when all its
separators are colons. -/
theorem bssid_locked_iff {sdk : Sdk} {req : HttpdReq} {es ep v ev : List UInt8}
    (hq : sdk.FindsValues) (hm : (sdk.malloc ((lockBody es ep ev).length + 1)).isSome)
    (hes : FormValue es) (hep : FormValue ep) (hv : macRegex v = true) (hev : Encodes v ev)
    (hd : req.Delivers (lockBody es ep ev)) :
    (∃ cfg, (wifiConfigPostHandler sdk req).configs = [cfg] ∧ cfg.bssidSet = true ∧
      cfg.bssid.toList = macBytes 5 v) ↔ 45 ∉ v := by
  obtain ⟨hchars, hvlen⟩ := macRegex_chars hv
  have helen := hev.length_le.2
  have hsend : 38 ∉ ev ∧ 0 ∉ ev := by
    constructor
    · exact hev.no_ampersand fun h => (hchars 38 h).2 rfl
    · intro h
      exact hev.no_null.2 0 h rfl
  obtain ⟨hs, hp, hon, hb⟩ := rawValue_lockBody hes hep hsend
  rw [cstr_append_null] at hs hp hon hb
  have hlen := @lockBody_length es ep ev hes hep
  obtain ⟨ssid, password, hcfgs⟩ := configs_of_lock hq hd
    ⟨by omega, hm, ⟨es, hs, hes.fits⟩, ep, hp, hep.fits⟩ hon
  rw [hb, withLock_encodes hev (by omega)] at hcfgs
  obtain ⟨hcolon, hhyphen⟩ := parseMacAddress_of_macRegex hv [] (Vector.replicate 6 0)
  rw [parseMacAddress_append_null] at hcolon hhyphen
  rw [hcfgs]
  by_cases h45 : 45 ∈ v
  · refine iff_of_false ?_ (not_not.mpr h45)
    rintro ⟨cfg, hcfg, hset, _⟩
    obtain rfl := List.head_eq_of_cons_eq hcfg
    rw [hhyphen h45] at hset
    cases hset
  · obtain ⟨htrue, hbytes⟩ := hcolon h45
    refine iff_of_true ⟨_, rfl, ?_, hbytes⟩ h45
    rw [htrue]
    rfl

theorem hyphen_bssid_not_locked :
    ∃ body es ep v ev, macRegex v = true ∧ Encodes v ev ∧ FormValue es ∧ FormValue ep ∧
      body = lockBody es ep ev ∧ standardSdk.FindsValues ∧ (HttpdReq.single body).Delivers body ∧
      ¬∃ cfg, (wifiConfigPostHandler standardSdk (.single body)).configs = [cfg] ∧
        cfg.bssidSet = true ∧ cfg.bssid.toList = macBytes 5 v := by
  let v := ascii "AA-BB-CC-DD-EE-FF"
  let body := lockBody (ascii "Home") (ascii "secret") (formEncode v)
  have hd : (HttpdReq.single body).Delivers body :=
    HttpdReq.single_delivers (by decide +kernel) (by decide +kernel)
  refine ⟨body, ascii "Home", ascii "secret", v, formEncode v, by decide +kernel,
    formEncode_encodes (forall_mem_of_all (by decide)), ⟨by decide, by decide, by decide⟩,
    ⟨by decide, by decide, by decide⟩, rfl, standardSdk_findsValues, hd, ?_⟩
  rintro ⟨cfg, hcfg, hset, _⟩
  have hoff : ((wifiConfigPostHandler standardSdk (.single body)).configs.all
    fun cfg => !cfg.bssidSet) = true := by decide +kernel
  rw [hcfg] at hoff
  simp [hset] at hoff

theorem bssid_locked_iff_colons :
    ∃ cfg, (wifiConfigPostHandler standardSdk (.single (lockBody (ascii "Home") (ascii "secret")
        (formEncode (ascii "aa:BB:0c:dD:ee:ff"))))).configs = [cfg] ∧ cfg.bssidSet = true ∧
      cfg.bssid.toList = [0xaa, 0xbb, 0x0c, 0xdd, 0xee, 0xff] := by
  have hd := @HttpdReq.single_delivers (lockBody (ascii "Home") (ascii "secret")
    (formEncode (ascii "aa:BB:0c:dD:ee:ff"))) (by decide +kernel) (by decide +kernel)
  exact (bssid_locked_iff standardSdk_findsValues rfl ⟨by decide, by decide, by decide⟩
    ⟨by decide, by decide, by decide⟩ (by decide +kernel) (formEncode_encodes (forall_mem_of_all (by decide)))
    hd).mpr (by decide)

end EspPassthrough
