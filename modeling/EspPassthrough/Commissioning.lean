import EspPassthrough.FactoryReset
import EspPassthrough.NetworkPick

/-! From the form that the user sends to the device at work: whatever else goes on while the
web server's task has the form in hand, and however often the program is ended, the flash
holds what it held before or what the form says, and from the next end on a device that has
got the form works with it. -/

namespace EspPassthrough

open CText FormEncoding

/-- The configurations that the request in hand has still to store; the end of the program
takes it away. -/
def Firmware.pending (s : Firmware) : List WifiStaConfig :=
  if s.wifi.on then (s.wifi.post.map PostRun.configs).getD [] else []

theorem Firmware.pending_of_off {s : Firmware} (h : s.wifi.on = false) : s.pending = [] := by
  rw [Firmware.pending, h]
  rfl

/-- What a step does to the flash and to the request in hand. -/
inductive Firmware.FlashStep (s : Firmware) (a : FirmwareAct) (t : Firmware) : Prop where
  | stored {cfg : WifiStaConfig} (hp : s.pending = cfg :: t.pending) (hnvs : t.wifi.nvs = cfg)
      (he : s.event a = some (.store cfg.usable))
  | erased (he : s.event a = some .erase)
  | kept (hnvs : t.wifi.nvs = s.wifi.nvs) (hp : t.pending = s.pending ∨ s.event a = some .stop)
      (he : ∀ x, s.event a ≠ some (.store x))

theorem Firmware.event_of_on {s t : Firmware} {a : FirmwareAct} (hs : s.step a = some t)
    (happ : t.app ≠ .off) : s.event a = s.eventOf a := by
  rw [Firmware.event, hs]
  exact if_neg happ

theorem Firmware.eventOf_store {s : Firmware} {a : FirmwareAct} {x : Option WifiStaConfig}
    (h : s.eventOf a = some (.store x)) :
    a = .wifi .httpd ∧ ∃ cfg calls exit, s.wifi.post = some ⟨.setConfig cfg :: calls, exit⟩ := by
  unfold Firmware.eventOf at h
  split at h
  case h_5 =>
    split at h
    case h_1 cfg calls exit hpost => exact ⟨rfl, cfg, calls, exit, hpost⟩
    case h_2 => cases h
  case h_3 | h_4 => split at h <;> cases h
  all_goals cases h

theorem Firmware.event_store {s : Firmware} {a : FirmwareAct} {x : Option WifiStaConfig}
    (h : s.event a = some (.store x)) :
    a = .wifi .httpd ∧ ∃ cfg calls exit, s.wifi.post = some ⟨.setConfig cfg :: calls, exit⟩ := by
  rw [Firmware.event] at h
  split at h
  · cases h
  · split at h
    · cases h
    · exact Firmware.eventOf_store h

theorem Firmware.event_ne_store {s : Firmware} {a : FirmwareAct} (ha : a ≠ .wifi .httpd)
    (x : Option WifiStaConfig) : s.event a ≠ some (.store x) :=
  fun he => ha (Firmware.event_store he).1

theorem Firmware.flashStep_app {s t : Firmware} {a : AppAnswer} (h : s.Sound)
    (hs : appMain s a = some t) : s.FlashStep (.app a) t := by
  have hstep : s.step (.app a) = some t := hs
  have hno := @Firmware.event_ne_store s (.app a) (by simp)
  cases appMain_step hs with
  | failed => exact .kept rfl (.inr (Firmware.event_of_off hstep rfl)) hno
  | nvsErased hpc =>
    refine .erased ?_
    rw [Firmware.event_of_on hstep (by simp), Firmware.eventOf, if_pos hpc]
  | nvsFull | nvsReady | created | returned | bridged => exact .kept rfl (.inl rfl) hno
  | entered hpc =>
    have hoff : s.wifi.on = false := by
      rw [h.on, hpc]
      rfl
    exact .kept rfl (.inl (Firmware.pending_of_off hoff).symm) hno
  | @call _ _ call =>
    cases call with
    | _ => exact .kept rfl (.inl rfl) hno

theorem Firmware.flashStep_button {s t : Firmware} {a : ButtonAnswer} (h : s.Sound)
    (hs : resetButton s a = some t) : s.FlashStep (.button a) t := by
  have hstep : s.step (.button a) = some t := hs
  have hno := @Firmware.event_ne_store s (.button a) (by simp)
  have happ := h.up_of_button hs
  cases resetButton_step hs with
  | poll | call => exact .kept rfl (.inl rfl) hno
  | restart => exact .kept rfl (.inr (Firmware.event_of_off hstep rfl)) hno
  | erase hb ok =>
    cases ok with
    | false => exact .kept rfl (.inl rfl) hno
    | true =>
      refine .erased ?_
      rw [Firmware.event_of_on hstep happ, Firmware.eventOf, hb]

theorem Firmware.flashStep_tasks {s : Firmware} {a : FirmwareAct} {w : Device}
    (hon : s.wifi.on = true)
    (hs : s.step a = some (if w.on then { s with wifi := w } else ({ s with wifi := w } : Firmware).halt))
    (hnvs : w.nvs = s.wifi.nvs)
    (hpost : (w.post.map PostRun.configs).getD [] = (s.wifi.post.map PostRun.configs).getD [])
    (hno : ∀ x, s.event a ≠ some (.store x)) :
    s.FlashStep a (if w.on then { s with wifi := w } else ({ s with wifi := w } : Firmware).halt) := by
  by_cases hw : w.on = true
  · rw [if_pos hw]
    refine .kept hnvs (.inl ?_) hno
    rw [Firmware.pending, Firmware.pending, if_pos hon, if_pos hw, hpost]
  · rw [if_neg hw] at hs ⊢
    exact .kept hnvs (.inr (Firmware.event_of_off hs rfl)) hno

theorem Firmware.flashStep_httpd {s t : Firmware} (h : s.Sound) (hs : wifiTasks s .httpd = some t) :
    s.FlashStep (.wifi .httpd) t := by
  have hstep : s.step (.wifi .httpd) = some t := hs
  obtain ⟨w, hw, rfl⟩ := wifiTasks_eq hs
  obtain ⟨hon, hw⟩ := by simpa [Device.step] using hw
  have happ := AppPc.ne_off_of_entered (h.on.symm.trans hon)
  rcases httpdTask_cases hw with ⟨call, calls, exit, hpost, rfl⟩ | ⟨exit, hpost, rfl⟩
  · cases call with
    | setConfig cfg =>
      have hon' : ({ s.wifi.postCall (.setConfig cfg) with post := some ⟨calls, exit⟩ } : Device).on := hon
      have hevent : s.event (.wifi .httpd) = some (.store cfg.usable) := by
        rw [if_pos hon'] at hstep
        rw [Firmware.event_of_on hstep happ, Firmware.eventOf, hpost]
      rw [if_pos hon']
      refine .stored ?_ rfl hevent
      rw [Firmware.pending, Firmware.pending, if_pos hon, if_pos hon', hpost]
      rfl
    | _ =>
      refine Firmware.flashStep_tasks hon hstep rfl (by rw [hpost]; rfl) fun x hx => ?_
      obtain ⟨_, cfg, calls', exit', hset⟩ := Firmware.event_store hx
      rw [hpost] at hset
      cases hset
  · refine Firmware.flashStep_tasks hon hstep rfl (by rw [hpost]; rfl) fun x hx => ?_
    obtain ⟨_, cfg, calls, exit', hset⟩ := Firmware.event_store hx
    rw [hpost] at hset
    cases hset

theorem Firmware.flashStep {s t : Firmware} {a : FirmwareAct} (h : s.Sound) (hs : s.step a = some t)
    (ha : ∀ sdk req, a ≠ .wifi (.request sdk req)) : s.FlashStep a t := by
  cases Firmware.stepTo hs with
  | powerOn => exact .kept rfl (.inl rfl) (Firmware.event_ne_store (by simp))
  | powerLoss =>
    exact .kept rfl (.inr (Firmware.event_of_off hs rfl)) (Firmware.event_ne_store (by simp))
  | app _ hs' => exact Firmware.flashStep_app h hs'
  | button _ hs' => exact Firmware.flashStep_button h hs'
  | wifi a hs' =>
    obtain ⟨w, hw, rfl⟩ := wifiTasks_eq hs'
    cases a with
    | powerOn | powerLoss | boot => cases hs'
    | driver e =>
      obtain ⟨⟨hon, _⟩, rfl⟩ := by simpa [Device.step] using hw
      exact Firmware.flashStep_tasks hon hs rfl rfl (Firmware.event_ne_store (by simp))
    | eventLoop =>
      obtain ⟨hon, hw⟩ := by simpa [Device.step] using hw
      obtain ⟨hnvs, _, _, hpost⟩ := wifiEventHandler_frame hw
      exact Firmware.flashStep_tasks hon hs hnvs (by rw [hpost]) (Firmware.event_ne_store (by simp))
    | request sdk req => exact absurd rfl (ha sdk req)
    | httpd => exact Firmware.flashStep_httpd h hs'
  | bridge => exact .kept rfl (.inl rfl) (Firmware.event_ne_store (by simp))

/-- What has become of a form that says `new` on a device that held `old`. -/
structure Firmware.Follows (old new : WifiStaConfig) (es : List (Lifecycle.Event WifiStaConfig))
    (s : Firmware) : Prop where
  sound : s.Sound
  once : s.pending = [] ∧ (.stop ∈ es ∨ ∃ x, .store x ∈ es) ∨
    s.pending = [new] ∧ .stop ∉ es ∧ ∀ x, .store x ∉ es
  before : (∀ x, .store x ∉ es) → s.wifi.nvs = old
  after : ∀ x, .store x ∈ es → x = new.usable ∧ s.wifi.nvs = new ∧ (.stop ∈ es → s.phase ≠ .provisioning)

theorem Firmware.Matched.stopped {s t : Firmware} {a : FirmwareAct} (hm : s.Matched a t)
    (he : s.event a = some .stop) : t.phase = .off ∧ t.pending = [] := by
  have hone := hm.event
  rw [he] at hone
  obtain ⟨v, hv, hend⟩ := Option.bind_eq_some_iff.mp hone
  obtain rfl := Option.some.inj hend
  have hphase : t.phase = .off := by
    obtain ⟨_, hv⟩ := by simpa [Lifecycle.step] using hv
    exact (congrArg Lifecycle.phase hv).symm
  have happ : t.app = .off := by
    by_contra hno
    exact t.phase_ne_off hno hphase
  refine ⟨hphase, Firmware.pending_of_off ?_⟩
  rw [hm.sound.on, happ]
  rfl

theorem Firmware.Follows.kept {old new : WifiStaConfig} {es : List (Lifecycle.Event WifiStaConfig)}
    {s t : Firmware} {a : FirmwareAct} (hi : s.Follows old new es) (hnamed : new.Named)
    (hm : s.Matched a t) (hno : s.event a ≠ some .erase) (hnvs : t.wifi.nvs = s.wifi.nvs)
    (hp : t.pending = s.pending ∨ s.event a = some .stop)
    (he : ∀ x, s.event a ≠ some (.store x)) : t.Follows old new (es ++ (s.event a).toList) := by
  have hstore : ∀ x, .store x ∈ es ++ (s.event a).toList ↔ .store x ∈ es := by
    intro x
    simp [he x]
  refine ⟨hm.sound, ?_, ?_, ?_⟩
  · simp only [hstore]
    by_cases hstop : s.event a = some .stop
    · exact .inl ⟨(hm.stopped hstop).2, .inl (by simp [hstop])⟩
    · rw [hp.resolve_right hstop]
      refine hi.once.imp ?_ ?_
      · rintro ⟨hnil, hended⟩
        exact ⟨hnil, hended.imp_left (List.mem_append_left _)⟩
      · rintro ⟨hone, hup, hnone⟩
        exact ⟨hone, by simp [hup, hstop], hnone⟩
  · simp only [hstore]
    exact fun hnone => hnvs.trans (hi.before hnone)
  · intro x hx
    obtain ⟨hx', hnew, hphase⟩ := hi.after x ((hstore x).mp hx)
    refine ⟨hx', hnvs.trans hnew, fun hstopped => ?_⟩
    by_cases hstop : s.event a = some .stop
    · rw [(hm.stopped hstop).1]
      simp
    · have hup : .stop ∈ es := by simpa [hstop] using hstopped
      have hsome : s.view.stored.isSome = true := by
        show s.wifi.nvs.usable.isSome = true
        rw [hnew]
        exact usable_isSome.mpr hnamed
      exact (Lifecycle.run_configured hm.event (by simpa using hno) hsome (hphase hup)).2

theorem Firmware.Follows.step {old new : WifiStaConfig} {es : List (Lifecycle.Event WifiStaConfig)}
    {s t : Firmware} {a : FirmwareAct} (hi : s.Follows old new es) (hnamed : new.Named)
    (hs : s.step a = some t) (ha : ∀ sdk req, a ≠ .wifi (.request sdk req))
    (hno : s.event a ≠ some .erase) : t.Follows old new (es ++ (s.event a).toList) := by
  have hm := Firmware.step_matched hi.sound hs
  cases Firmware.flashStep hi.sound hs ha with
  | stored hp hnvs he =>
    rcases hi.once with ⟨hnil, _⟩ | ⟨hone, hup, hnone⟩
    · rw [hnil] at hp
      cases hp
    · obtain ⟨rfl, hnil⟩ := List.cons.inj (hone.symm.trans hp)
      refine ⟨hm.sound, .inl ⟨hnil.symm, .inr ⟨new.usable, by simp [he]⟩⟩, fun hnever => ?_, fun x hx => ?_⟩
      · exact absurd (by simp [he]) (hnever new.usable)
      · have hx' : x = new.usable := by simpa [he, hnone x] using hx
        refine ⟨hx', hnvs, fun hstopped => ?_⟩
        simp [he, hup] at hstopped
  | erased he => exact absurd he hno
  | kept hnvs hp he => exact hi.kept hnamed hm hno hnvs hp he

theorem Firmware.Follows.run {old new : WifiStaConfig} {s t : Firmware} {as : List FirmwareAct}
    (hi : s.Follows old new []) (hnamed : new.Named) (hrun : Machine.run Firmware.step s as = some t)
    (halone : ∀ sdk req, .wifi (.request sdk req) ∉ as)
    (hkeep : .erase ∉ Machine.trace Firmware.step Firmware.event s as) :
    t.Follows old new (Machine.trace Firmware.step Firmware.event s as) := by
  induction as using List.reverseRecOn generalizing t with
  | nil =>
    obtain rfl : s = t := Option.some.inj hrun
    exact hi
  | append_singleton as a ih =>
    obtain ⟨u, hu, ht⟩ := Machine.run_concat.mp hrun
    rw [Machine.trace_append hu, Machine.trace_singleton (Option.isSome_of_eq_some ht)] at hkeep ⊢
    have hbefore := ih hu (fun sdk req hmem => halone sdk req (List.mem_append_left _ hmem))
      fun hmem => hkeep (List.mem_append_left _ hmem)
    refine hbefore.step hnamed ht ?_ fun he => hkeep (by simp [he])
    rintro sdk req rfl
    exact halone sdk req (by simp)

/-! ## The form -/

/-- The configuration has every field as it was filled in. -/
structure ConfigPage.KeptIn (p : ConfigPage) (cfg : WifiStaConfig) : Prop where
  ssid : cstr cfg.ssid.toList = p.ssid
  password : cstr cfg.password.toList = p.password
  locked : cfg.bssidSet = p.bssidEnable
  bssid : p.bssidEnable = true → cfg.bssid.toList = macBytes 5 p.bssid

/-- A form whose texts fit the device's fields and buffers. -/
structure ConfigPage.Fits (p : ConfigPage) : Prop where
  ssid : FitsField 32 p.ssid
  password : FitsField 64 p.password
  encoded : (formEncode p.password).length ≤ 127
  bssid : ∀ c ∈ p.bssid, c ≠ 0
  colons : p.bssidEnable = true → 45 ∉ p.bssid

theorem ConfigPage.ssid_of_submit {p : ConfigPage} {body : List UInt8} (h : p.submit = .ok body) :
    p.ssid ≠ [] := by
  intro hnil
  rw [ConfigPage.submit, ConfigPage.validateForm, hnil, if_pos (by decide)] at h
  cases h

theorem ConfigPage.Fits.kept {p : ConfigPage} (hp : p.Fits)
    (hmac : p.bssidEnable = true → macRegex p.bssid = true) : p.KeptIn p.stored := by
  obtain ⟨hssid, hpassword⟩ := p.stored_fields
  obtain ⟨hlocked, hbssid⟩ := (stored_lock_iff hmac).mpr hp.colons
  refine ⟨?_, ?_, hlocked, hbssid⟩
  · rw [hssid]
    exact (stored_whole_iff 32 p.ssid).mpr hp.ssid
  · rw [hpassword]
    exact (stored_whole_iff 64 p.password).mpr hp.password

theorem ConfigPage.Fits.configs {p : ConfigPage} {sdk : Sdk} {req : HttpdReq} (hp : p.Fits)
    (hmac : p.bssidEnable = true → macRegex p.bssid = true) (hq : sdk.FindsValues)
    (hm : (sdk.malloc ((formBody p.formPairs).length + 1)).isSome)
    (hd : req.Delivers (formBody p.formPairs)) (hlen : (formBody p.formPairs).length < 2 ^ 31 - 1) :
    (wifiConfigPostHandler sdk req).configs = [p.stored] := by
  have hs : (formEncode p.ssid).length ≤ 127 := by
    have hle := (formEncode_encodes hp.ssid.2).length_le.2
    have hssid := hp.ssid.1
    omega
  refine configs_of_form hq hm hd hlen hp.ssid.2 hp.password.2 hp.bssid hs hp.encoded fun hlock => ?_
  rw [(macRegex_chars (hmac hlock)).2]
  decide

theorem Firmware.step_request {s t : Firmware} {sdk : Sdk} {req : HttpdReq}
    (h : s.step (.wifi (.request sdk req)) = some t) :
    s.wifi.on = true ∧ t = { s with wifi.post := some (wifiConfigPostHandler sdk req) } := by
  obtain ⟨w, hw, rfl⟩ := wifiTasks_eq (a := .request sdk req) h
  obtain ⟨⟨hon, _⟩, rfl⟩ := by simpa [Device.step] using hw
  exact ⟨hon, if_pos hon⟩

/-- A form that fits the device is sent, and no other before it has been dealt with. Then in
every interleaving, and over any restarts and losses of power, the flash holds what it held
before or exactly what the form says; it holds the latter as soon as the web server's task
has done with the request, and once that is so the device is in station mode with it from
the program's next end on, until it is erased. -/
theorem submitted_form_at_work {nvs : WifiStaConfig} {s t u : Firmware} {as bs : List FirmwareAct}
    {p : ConfigPage} {sdk : Sdk} {req : HttpdReq} {body : List UInt8}
    (hbefore : Machine.run Firmware.step (.off nvs) as = some s) (hsubmit : p.submit = .ok body)
    (hp : p.Fits) (hq : sdk.FindsValues) (hm : (sdk.malloc (body.length + 1)).isSome)
    (hd : req.Delivers body) (hlen : body.length < 2 ^ 31 - 1)
    (hreq : s.step (.wifi (.request sdk req)) = some t) (hrun : Machine.run Firmware.step t bs = some u)
    (halone : ∀ sdk req, .wifi (.request sdk req) ∉ bs)
    (hkeep : .erase ∉ Machine.trace Firmware.step Firmware.event t bs) :
    (u.wifi.nvs = s.wifi.nvs ∨ p.KeptIn u.wifi.nvs) ∧
      (u.wifi.post = none → .stop ∉ Machine.trace Firmware.step Firmware.event t bs →
        ∃ x, .store x ∈ Machine.trace Firmware.step Firmware.event t bs) ∧
      ∀ x, .store x ∈ Machine.trace Firmware.step Firmware.event t bs → p.KeptIn u.wifi.nvs ∧
        (.stop ∈ Machine.trace Firmware.step Firmware.event t bs → u.wifi.on = true → u.InStation) := by
  obtain ⟨rfl, hmac⟩ := p.checked_of_submit hsubmit
  have hkept := hp.kept hmac
  have hnamed : p.stored.Named := by
    apply named_of_cstr
    rw [hkept.ssid]
    exact p.ssid_of_submit hsubmit
  obtain ⟨hon, rfl⟩ := Firmware.step_request hreq
  obtain ⟨hsound, _⟩ := (Firmware.off_sound nvs).run hbefore
  have hstart : Firmware.Follows s.wifi.nvs p.stored []
      { s with wifi.post := some (wifiConfigPostHandler sdk req) } := by
    refine ⟨(Firmware.step_matched hsound hreq).sound, .inr ⟨?_, by simp, by simp⟩, fun _ => rfl, by simp⟩
    rw [Firmware.pending, if_pos hon]
    exact hp.configs hmac hq hm hd hlen
  have hend := hstart.run hnamed hrun halone hkeep
  refine ⟨?_, fun hnone hup => ?_, fun x hx => ?_⟩
  · by_cases hstored : ∃ x, .store x ∈ Machine.trace Firmware.step Firmware.event
        { s with wifi.post := some (wifiConfigPostHandler sdk req) } bs
    · obtain ⟨x, hx⟩ := hstored
      rw [(hend.after x hx).2.1]
      exact .inr hkept
    · exact .inl (hend.before (not_exists.mp hstored))
  · rcases hend.once with ⟨_, hended⟩ | ⟨hone, _⟩
    · exact hended.resolve_left hup
    · rw [Firmware.pending, hnone] at hone
      simp at hone
  · obtain ⟨_, hnew, hphase⟩ := hend.after x hx
    rw [hnew]
    refine ⟨hkept, fun hstopped hon' => ?_⟩
    by_contra hno
    apply hphase hstopped
    rw [Firmware.phase_of_entered (hend.sound.on.symm.trans hon'), if_neg hno]

/-- What follows on a form: the web server's task, an address, the restart and the next start. -/
def afterForm : List FirmwareAct :=
  List.replicate 7 (.wifi .httpd) ++ [.wifi (.driver (.staGotIp 1))] ++
    List.replicate 5 (.wifi .eventLoop) ++ startUp 4

theorem submitted_form_at_work_locked :
    ∃ s t u, Machine.run Firmware.step (.off emptyNvs) (startUp 5) = some s ∧
      s.step (.wifi (.request standardSdk (.single (formBody lockedForm.formPairs)))) = some t ∧
      Machine.run Firmware.step t afterForm = some u ∧ lockedForm.KeptIn u.wifi.nvs ∧ u.InStation := by
  have hcheck : ((Machine.run Firmware.step (.off emptyNvs) (startUp 5)).bind fun s =>
      (s.step (.wifi (.request standardSdk (.single (formBody lockedForm.formPairs))))).bind fun t =>
        (Machine.run Firmware.step t afterForm).map fun u => decide (u.wifi.on = true ∧
          .erase ∉ Machine.trace Firmware.step Firmware.event t afterForm ∧
          .stop ∈ Machine.trace Firmware.step Firmware.event t afterForm ∧
          .store lockedForm.stored.usable ∈ Machine.trace Firmware.step Firmware.event t afterForm)) =
      some true := by decide +kernel
  obtain ⟨s, hbefore, hcheck⟩ := Option.bind_eq_some_iff.mp hcheck
  obtain ⟨t, hreq, hcheck⟩ := Option.bind_eq_some_iff.mp hcheck
  obtain ⟨u, hrun, hcheck⟩ := Option.map_eq_some_iff.mp hcheck
  obtain ⟨hon, hkeep, hstop, hstore⟩ := of_decide_eq_true hcheck
  have hfits : lockedForm.Fits :=
    ⟨⟨by decide +kernel, forall_mem_of_all (by decide +kernel)⟩,
      ⟨by decide +kernel, forall_mem_of_all (by decide +kernel)⟩, by decide +kernel,
      forall_mem_of_all (by decide +kernel), fun _ => by decide +kernel⟩
  have hd := @HttpdReq.single_delivers (formBody lockedForm.formPairs) (by decide +kernel)
    (by decide +kernel)
  obtain ⟨_, _, hstored⟩ := submitted_form_at_work hbefore lockedForm_submit hfits standardSdk_findsValues
    rfl hd (by decide +kernel) hreq hrun (by simp [afterForm, startUp, List.replicate]) hkeep
  obtain ⟨hkept, hworks⟩ := hstored _ hstore
  exact ⟨s, t, u, hbefore, hreq, hrun, hkept, hworks hstop hon⟩

end EspPassthrough
