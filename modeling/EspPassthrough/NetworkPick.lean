import EspPassthrough.Boot
import EspPassthrough.ConfigPage

/-! Picking a network from the list of the page, all the way from the scan to the flash. -/

namespace EspPassthrough

open CText FormEncoding JsonText

/-! ## What the page makes of the device's answer -/

/-- The page has read the data from an answer to `/scan` whose names need no escaping. -/
def ScanSdk.Sends (sdk : ScanSdk) (data : List ApItem) : Prop :=
  (∀ r ∈ scanned sdk, r.name ≠ [] → Clean r.name) ∧
    ∃ calls body objects, scanGetHandler sdk = some calls ∧ bodies calls = [body] ∧
      Denotes body (.array objects) ∧ objects.mapM ApItem.ofValue = some data

theorem denotes_unique {text : List UInt8} {v w : Value} (hv : Denotes text v) (hw : Denotes text w) :
    v = w := by
  obtain ⟨n, hn⟩ := hv
  obtain ⟨m, hm⟩ := hw
  have hn' := parse_mono (le_max_left n m) hn
  have hm' := parse_mono (le_max_right n m) hm
  exact Option.some.inj (hn'.symm.trans hm')

theorem ofValue_recordValue (r : WifiApRecord) : ApItem.ofValue (recordValue r) = some (.ofRecord r) :=
  rfl

theorem mapM_ofValue (rs : List WifiApRecord) :
    (rs.map recordValue).mapM ApItem.ofValue = some (rs.map ApItem.ofRecord) := by
  induction rs with
  | nil => rfl
  | cons r rs ih =>
    rw [List.map_cons, List.mapM_cons, ofValue_recordValue, ih]
    rfl

theorem ScanSdk.Sends.data_eq {sdk : ScanSdk} {data : List ApItem} (h : sdk.Sends data) :
    data = (visible (scanned sdk)).map ApItem.ofRecord := by
  obtain ⟨hclean, calls, body, objects, hcalls, hbody, hdenotes, hdata⟩ := h
  rcases scanGetHandler_cases sdk with ⟨_, _, calls', hcalls', hnone⟩ | ⟨_, _, calls', _, _, hcalls', hsent⟩
  · obtain rfl := Option.some.inj (hcalls'.symm.trans hcalls)
    rw [hnone] at hbody
    cases hbody
  · obtain rfl := Option.some.inj (hcalls'.symm.trans hcalls)
    obtain rfl : scanBody (scanned sdk) = body := List.head_eq_of_cons_eq (hsent.symm.trans hbody)
    have hlist := denotes_listText fun r hr => hclean r (mem_visible.mp hr).1 (mem_visible.mp hr).2
    rw [← scanBody_eq] at hlist
    obtain rfl := Value.array.inj (denotes_unique hdenotes hlist)
    exact Option.some.inj (hdata.symm.trans (mapM_ofValue _))

/-! ## Picking a network from the list -/

/-- The entry that the fields of the name and of the address have been filled from, as long
as the user has edited neither. -/
def ConfigPage.notePick (p : ConfigPage) : PageAct → Option PageOption → Option PageOption
  | .typeSsid _, _ => none
  | .typeBssid _, _ => none
  | .choose i, picked =>
    match p.options[i]? with
    | none => picked
    | some opt => if opt.value = [] then picked else some opt
  | _, picked => picked

/-- The entry stands for a network in an answer that the page has had. -/
def Offered (as : List PageAct) (opt : PageOption) : Prop :=
  ∃ (sdk : ScanSdk) (data : List ApItem) (r : WifiApRecord), .scanned data ∈ as ∧ sdk.Sends data ∧
    r ∈ visible (scanned sdk) ∧ opt = (ApItem.ofRecord r).option

structure ConfigPage.Filled (p : ConfigPage) (as : List PageAct) (picked : Option PageOption) :
    Prop where
  options : ∀ opt ∈ p.options, opt = selectNetwork ∨ Offered as opt
  password : jsLength p.password ≤ 63
  picked : ∀ opt, picked = some opt → Offered as opt ∧ p.ssid = opt.value ∧ opt.bssid = some p.bssid

theorem Offered.later {as : List PageAct} {opt : PageOption} (h : Offered as opt) (a : PageAct) :
    Offered (as ++ [a]) opt := by
  obtain ⟨sdk, data, r, hdata, hrest⟩ := h
  exact ⟨sdk, data, r, List.mem_append_left [a] hdata, hrest⟩

theorem ConfigPage.Filled.later {p : ConfigPage} {as : List PageAct} {picked : Option PageOption}
    (h : p.Filled as picked) (a : PageAct) : p.Filled (as ++ [a]) picked where
  options := fun opt ho => (h.options opt ho).imp id fun hoffered => hoffered.later a
  password := h.password
  picked := fun opt ho => ⟨(h.picked opt ho).1.later a, (h.picked opt ho).2⟩

theorem selectWifi_placeholder {p : ConfigPage} (hp : p.options[p.selectedIndex]? = some selectNetwork) :
    p.selectWifi = p := by
  rw [ConfigPage.selectWifi, hp]
  rfl

theorem macText_cons (bssid : Vector UInt8 6) : ∃ c rest, macText bssid = c :: rest := by
  have hlen := macText_length bssid
  cases hm : macText bssid with
  | nil =>
    rw [hm] at hlen
    cases hlen
  | cons c rest => exact ⟨c, rest, rfl⟩

theorem selectWifi_offered {as : List PageAct} {opt : PageOption} {p : ConfigPage}
    (h : Offered as opt) (hp : p.options[p.selectedIndex]? = some opt) :
    opt.value ≠ [] ∧ ∃ bssid, opt.bssid = some bssid ∧
      p.selectWifi = { p with ssid := opt.value, bssid } := by
  obtain ⟨sdk, data, r, _, hsends, hr, rfl⟩ := h
  obtain ⟨hmem, hne⟩ := mem_visible.mp hr
  have hname := fieldText_clean (hsends.1 r hmem hne).1
  have hmac := fieldText_clean (macText_literal r.bssid).plain
  obtain ⟨c, rest, hcons⟩ := macText_cons r.bssid
  have hvalue : (ApItem.ofRecord r).option.value = r.name := rfl
  have hbssid : (ApItem.ofRecord r).option.bssid = some (macText r.bssid) := rfl
  refine ⟨hne, macText r.bssid, hbssid, ?_⟩
  rw [ConfigPage.selectWifi, hp]
  dsimp only
  rw [if_neg (by rw [hvalue]; exact hne), hvalue, hname, hbssid, hcons]
  dsimp only
  rw [← hcons, hmac]

theorem ConfigPage.Filled.step {p q : ConfigPage} {as : List PageAct} {picked : Option PageOption}
    {a : PageAct} (h : p.Filled as picked)
    (ha : ∀ data, a = .scanned data → ∃ sdk : ScanSdk, sdk.Sends data) (hs : p.step a = some q) :
    q.Filled (as ++ [a]) (p.notePick a picked) := by
  have hlater := h.later a
  cases a with
  | typeSsid s | typeBssid s =>
    obtain ⟨_, rfl⟩ := by simpa [ConfigPage.step] using hs
    exact ⟨hlater.options, h.password, fun opt ho => by cases ho⟩
  | typePassword s =>
    obtain ⟨⟨_, _, hlen⟩, rfl⟩ := by simpa [ConfigPage.step, Typable] using hs
    have hold := h.password
    exact ⟨hlater.options, by dsimp only; omega, hlater.picked⟩
  | clickLock =>
    obtain rfl := by simpa [ConfigPage.step] using hs
    exact ⟨hlater.options, h.password, hlater.picked⟩
  | clickScan | scanFailed =>
    obtain ⟨_, rfl⟩ := by simpa [ConfigPage.step] using hs
    exact ⟨hlater.options, h.password, hlater.picked⟩
  | scanned data =>
    obtain ⟨_, rfl⟩ := by simpa [ConfigPage.step] using hs
    obtain ⟨sdk, hsends⟩ := ha data rfl
    refine ⟨fun opt ho => ?_, h.password, hlater.picked⟩
    rcases List.mem_cons.mp ho with rfl | ho
    · exact .inl rfl
    · rw [hsends.data_eq, List.map_map] at ho
      obtain ⟨r, hr, rfl⟩ := List.mem_map.mp ho
      exact .inr ⟨sdk, data, r, by simp, hsends, hr, rfl⟩
  | choose i =>
    obtain ⟨⟨hi, _⟩, rfl⟩ := by simpa [ConfigPage.step] using hs
    have hget : p.options[i]? = some p.options[i] := List.getElem?_eq_getElem hi
    rcases hlater.options _ (List.getElem_mem hi) with hopt | hopt
    · rw [hopt] at hget
      rw [selectWifi_placeholder hget, ConfigPage.notePick, hget]
      exact ⟨hlater.options, h.password, hlater.picked⟩
    · obtain ⟨hne, bssid, hbssid, hfilled⟩ := selectWifi_offered (p := { p with selectedIndex := i }) hopt hget
      rw [hfilled, ConfigPage.notePick, hget]
      dsimp only
      rw [if_neg hne]
      refine ⟨hlater.options, h.password, fun opt ho => ?_⟩
      obtain rfl := Option.some.inj ho
      exact ⟨hopt, rfl, hbssid⟩

/-! ## From the list to the flash -/

theorem Clean.no_null {s : List UInt8} (h : Clean s) : ∀ c ∈ s, c ≠ 0 := by
  rintro c hc rfl
  exact absurd (h.1 0 hc).2.2 (by decide)

theorem ConfigPage.Filled.submit {p : ConfigPage} {as : List PageAct} {opt : PageOption}
    (h : p.Filled as (some opt)) : p.submit = .ok (formBody p.formPairs) := by
  obtain ⟨⟨sdk, data, r, _, hsends, hr, rfl⟩, hssid, hbssid⟩ := h.picked opt rfl
  obtain ⟨hmem, hne⟩ := mem_visible.mp hr
  have hclean := hsends.1 r hmem hne
  have hname : p.ssid = r.name := hssid
  have hmac : macText r.bssid = p.bssid := Option.some.inj hbssid
  have hle := (jsLength_le hclean.2).trans r.name_length_le
  have hpos : jsLength r.name ≠ 0 := by
    obtain ⟨c, rest, hcons⟩ := List.exists_cons_of_ne_nil hne
    rw [hcons]
    exact jsLength_pos (hcons ▸ hclean.2)
  have hpassword := h.password
  have hregex : macRegex p.bssid = true := hmac ▸ (macText_denotes r.bssid).1
  rw [ConfigPage.submit, ConfigPage.validateForm, hname, if_neg hpos, if_neg (by omega),
    if_neg (by omega), if_neg (by simp [hregex])]
  rfl

theorem named_of_cstr {cfg : WifiStaConfig} (h : cstr cfg.ssid.toList ≠ []) : cfg.Named := by
  intro h0
  apply h
  have hcons : ∃ rest, cfg.ssid.toList = cfg.ssid[0] :: rest := by
    have hlen : 0 < cfg.ssid.toList.length := by simp
    refine ⟨cfg.ssid.toList.tail, ?_⟩
    rw [← List.cons_head_tail (List.ne_nil_of_length_pos hlen)]
    simp [List.head_eq_getElem]
  obtain ⟨rest, hrest⟩ := hcons
  rw [hrest, h0]
  rfl

/-- The second network with a name is picked, a password typed and the box checked. -/
def pickSecond : List PageAct :=
  [.clickScan, .scanned ((visible threeRecords).map ApItem.ofRecord), .choose 2,
    .typePassword (ascii "secret pass"), .clickLock]

theorem threeRecords_sent :
    (scanOf 3 threeRecords).Sends ((visible threeRecords).map ApItem.ofRecord) := by
  have hclean : ∀ r ∈ threeRecords, r.name ≠ [] → Clean r.name := by
    intro r hr _
    simp only [threeRecords, List.mem_cons, List.not_mem_nil, or_false] at hr
    rcases hr with rfl | rfl | rfl
    · exact ⟨by decide, by decide⟩
    · exact ⟨by decide, by decide⟩
    · exact ⟨by decide, by decide⟩
  have hcalls := scanGetHandler_eq (show (scanOf 3 threeRecords).scanStart = true from rfl)
    (show (3 : UInt16) ≠ 0 by decide) rfl rfl rfl
  refine ⟨hclean, _, _, _, hcalls, rfl, denotes_listText fun r hr => ?_, mapM_ofValue _⟩
  exact hclean r (mem_visible.mp hr).1 (mem_visible.mp hr).2

def PageAct.data : PageAct → Option (List ApItem)
  | .scanned data => some data
  | _ => none

def lastScan (as : List PageAct) : Option (List ApItem) := (as.filterMap PageAct.data).getLast?

def scanOptions : Option (List ApItem) → List PageOption
  | none => []
  | some data => selectNetwork :: data.map ApItem.option

theorem lastScan_concat (as : List PageAct) (a : PageAct) :
    lastScan (as ++ [a]) = a.data.or (lastScan as) := by
  rw [lastScan, List.filterMap_append]
  cases ha : a.data with
  | none => simp [ha, lastScan]
  | some data => simp [ha]

theorem selectWifi_options (p : ConfigPage) : p.selectWifi.options = p.options := by
  rw [ConfigPage.selectWifi]
  split
  · rfl
  · split <;> rfl

/-- The list shows the last answer, in its order and with nothing else but its heading. -/
theorem options_of_run {p : ConfigPage} {as : List PageAct}
    (hrun : Machine.run ConfigPage.step .fresh as = some p) : p.options = scanOptions (lastScan as) := by
  have hok : Machine.Meets ConfigPage.step (fun _ _ => True) .fresh as :=
    Machine.meets_of_forall (fun _ _ => trivial) _ _
  refine Machine.run_induction (motive := fun as p => p.options = scanOptions (lastScan as)) rfl ?_
    hrun hok
  intro as a p q _ _ ih _ hs
  rw [lastScan_concat]
  cases a with
  | typeSsid | typePassword | typeBssid | clickScan | scanFailed =>
    obtain ⟨_, rfl⟩ := by simpa [ConfigPage.step] using hs
    exact ih
  | clickLock =>
    obtain rfl := by simpa [ConfigPage.step] using hs
    exact ih
  | scanned data =>
    obtain ⟨_, rfl⟩ := by simpa [ConfigPage.step] using hs
    rfl
  | choose i =>
    obtain ⟨_, rfl⟩ := by simpa [ConfigPage.step] using hs
    exact (selectWifi_options _).trans ih

theorem step_choose {as : List PageAct} {p : ConfigPage} {opt : PageOption} {i : Nat}
    (hget : p.options[i]? = some opt) (hopt : Offered as opt) (hi : i ≠ p.selectedIndex)
    (picked : Option PageOption) :
    ∃ bssid, Machine.monitored ConfigPage.step ConfigPage.notePick (p, picked) (.choose i) =
      some ({ p with selectedIndex := i, ssid := opt.value, bssid }, some opt) := by
  obtain ⟨hne, bssid, _, hfilled⟩ := selectWifi_offered (p := { p with selectedIndex := i }) hopt hget
  have hlt : i < p.options.length := (List.getElem?_eq_some_iff.mp hget).1
  refine ⟨bssid, Machine.monitored_eq_some.mpr ⟨?_, ?_⟩⟩
  · rw [ConfigPage.step, if_pos ⟨hlt, hi⟩, hfilled]
  · rw [ConfigPage.notePick, hget]
    exact if_neg hne

/-- Where the names of the last answer need no escaping, every network in it that has one can be
picked from the list, whatever has happened to the page before, and picking it leaves the
password and the box alone. -/
theorem found_network_can_be_picked {p : ConfigPage} {picked : Option PageOption}
    {as : List PageAct} {sdk : ScanSdk} {data : List ApItem} {r : WifiApRecord}
    (hrun : Machine.run (Machine.monitored ConfigPage.step ConfigPage.notePick) (.fresh, none) as =
      some (p, picked))
    (hlast : lastScan as = some data) (hsends : sdk.Sends data) (hr : r ∈ scanned sdk)
    (hne : r.name ≠ []) :
    ∃ bs q, Machine.run (Machine.monitored ConfigPage.step ConfigPage.notePick) (p, picked) bs =
        some (q, some (ApItem.ofRecord r).option) ∧ lastScan (as ++ bs) = some data ∧
      q.ssid = r.name ∧ q.password = p.password ∧ q.bssidEnable = p.bssidEnable := by
  have hoptions := options_of_run (Machine.run_of_monitored hrun)
  rw [hlast, scanOptions] at hoptions
  have hvisible := mem_visible.mpr ⟨hr, hne⟩
  have hopt : Offered [.scanned data] (ApItem.ofRecord r).option :=
    ⟨sdk, data, r, List.mem_singleton_self _, hsends, hvisible, rfl⟩
  have hmem : (ApItem.ofRecord r).option ∈ data.map ApItem.option := by
    rw [hsends.data_eq, List.map_map]
    exact List.mem_map.mpr ⟨r, hvisible, rfl⟩
  obtain ⟨i, hi, hget⟩ := List.getElem_of_mem hmem
  have hentry : (scanOptions (some data))[i + 1]? = some (ApItem.ofRecord r).option := by
    rw [scanOptions, List.getElem?_cons_succ, List.getElem?_eq_getElem hi, hget]
  by_cases hsel : i + 1 = p.selectedIndex
  · -- the browser reports a choice only when it changes, so the heading comes in between
    let p₀ : ConfigPage := { p with selectedIndex := 0 }
    have hfirst : Machine.monitored ConfigPage.step ConfigPage.notePick (p, picked) (.choose 0) =
        some (p₀, picked) := by
      have hhead : p.options[0]? = some selectNetwork := by rw [hoptions]; rfl
      have hstay : p₀.selectWifi = p₀ := selectWifi_placeholder hhead
      refine Machine.monitored_eq_some.mpr ⟨?_, ?_⟩
      · rw [ConfigPage.step, if_pos ⟨by simp [hoptions], by omega⟩]
        exact congrArg some hstay
      · rw [ConfigPage.notePick, hhead]
        rfl
    obtain ⟨bssid, hchoose⟩ := step_choose (p := p₀) (hoptions ▸ hentry) hopt (Nat.succ_ne_zero i) picked
    refine ⟨[.choose 0, .choose (i + 1)], { p with selectedIndex := i + 1, ssid := r.name, bssid }, ?_, ?_,
      rfl, rfl, rfl⟩
    · rw [Machine.run, hfirst, Option.bind_some, Machine.run, hchoose]
      rfl
    · rw [show as ++ [.choose 0, .choose (i + 1)] = as ++ [.choose 0] ++ [.choose (i + 1)] by simp,
        lastScan_concat, lastScan_concat, hlast]
      rfl
  · obtain ⟨bssid, hchoose⟩ := step_choose (hoptions ▸ hentry) hopt hsel picked
    refine ⟨[.choose (i + 1)], { p with selectedIndex := i + 1, ssid := r.name, bssid }, ?_, ?_, rfl, rfl,
      rfl⟩
    · rw [Machine.run, hchoose]
      rfl
    · rw [lastScan_concat, hlast]
      rfl

theorem found_network_can_be_picked_first :
    ∃ p picked bs q, Machine.run (Machine.monitored ConfigPage.step ConfigPage.notePick) (.fresh, none)
        pickSecond = some (p, picked) ∧ p.ssid = utf8 "Café" ∧
      Machine.run (Machine.monitored ConfigPage.step ConfigPage.notePick) (p, picked) bs =
        some (q, some (ApItem.ofRecord (namedRecord (ascii "Home") (by decide))).option) ∧
      q.ssid = ascii "Home" ∧ q.password = ascii "secret pass" := by
  have hcheck : (Machine.run (Machine.monitored ConfigPage.step ConfigPage.notePick) (.fresh, none)
      pickSecond).map (fun s => decide (s.1.ssid = utf8 "Café" ∧ s.1.password = ascii "secret pass")) =
        some true := by decide +kernel
  obtain ⟨⟨p, picked⟩, hrun, hcheck⟩ := Option.map_eq_some_iff.mp hcheck
  obtain ⟨hssid, hpassword⟩ : p.ssid = utf8 "Café" ∧ p.password = ascii "secret pass" :=
    of_decide_eq_true hcheck
  obtain ⟨bs, q, hpick, _, hname, hsame, _⟩ := found_network_can_be_picked
    (r := namedRecord (ascii "Home") (by decide)) hrun rfl threeRecords_sent List.mem_cons_self (by decide)
  exact ⟨p, picked, bs, q, hrun, hssid, hpick, hname.trans (by decide), hsame.trans hpassword⟩

end EspPassthrough
