import EspPassthrough.RetryBudget

/-! What is known about the credentials in flash when the firmware, finding them
there, starts without its configuration page. -/

namespace EspPassthrough

open CText

/-- What has become of the last accepted configuration since it was stored, and the
credentials of the IP address that the event handler was last told of. -/
structure Trial where
  stored : Option WifiStaConfig
  gotIp : Bool
  lost : Bool
  restartedOn : Option Nat
  handling : Option Nat
  deriving DecidableEq

def Trial.none : Trial := ⟨.none, false, false, .none, .none⟩

def Trial.note (s : Device) : DeviceAct → Trial → Trial
  | .httpd, h =>
    match s.post with
    | some ⟨.setConfig cfg :: _, _⟩ =>
      { h with stored := some cfg, gotIp := false, lost := false, restartedOn := .none }
    | _ => h
  | .driver (.staGotIp creds), h => { h with gotIp := h.gotIp || creds == s.creds }
  | .eventLoop, h =>
    match s.handler, s.queue with
    | .idle, .staGotIp creds :: _ => { h with handling := some creds }
    | .restart, _ => { h with restartedOn := h.handling }
    | _, _ => h
  | .powerLoss, h => { h with lost := true }
  | _, h => h

/-- The boot that has begun is one into station mode. -/
def Device.ChoosesSta (s : Device) : Prop := s.on = true ∧ .setMode .sta ∈ s.boot

instance (s : Device) : Decidable s.ChoosesSta :=
  inferInstanceAs (Decidable (s.on = true ∧ .setMode .sta ∈ s.boot))

/-- The credentials gave an IP address, or the device went down before they could:
by a loss of power, or restarted for an address that earlier ones gave. -/
def Trial.Excused (h : Trial) (creds : Nat) : Prop :=
  h.gotIp = true ∨ h.lost = true ∨ ∃ c < creds, h.restartedOn = some c

/-- An address given to the credentials in flash has been noted. -/
def Trial.Knows (h : Trial) (creds c : Nat) : Prop := c ≤ creds ∧ (c = creds → h.gotIp = true)

/-- On the way from a new IP address to a restart. -/
def HandlerPc.onGotIp : HandlerPc → Bool
  | .gotIpReset | .serverTest | .restartDelay | .restart => true
  | _ => false

structure Device.Tried (s : Device) (h : Trial) : Prop where
  attempts : ∀ c ∈ s.attempts, c ≤ s.creds
  queued : ∀ c, .staGotIp c ∈ s.queue → h.Knows s.creds c
  handled : ∀ c, h.handling = some c → h.Knows s.creds c
  handling : s.handler.onGotIp = true → h.handling.isSome
  stored : s.nvs.Named → h.stored = some s.nvs
  off : s.on = false → s.nvs.Named → h.Excused s.creds
  sta : s.ChoosesSta → .startWebserver ∉ s.boot ∧ s.server = false ∧ s.post = none ∧
    s.nvs.Named ∧ h.Excused s.creds

theorem Device.off_tried {nvs : WifiStaConfig} (h : ¬nvs.Named) :
    (Device.off nvs).Tried .none where
  attempts := by simp [Device.off]
  queued := by simp [Device.off]
  handled := by simp [Trial.none]
  handling := by simp [Device.off, HandlerPc.onGotIp]
  stored := fun hne => absurd hne h
  off := fun _ hne => absurd hne h
  sta := by simp [Device.off, Device.ChoosesSta]

/-- A step that leaves the credentials in flash alone, starts no server but at boot
and no request but on the server. -/
theorem Device.Tried.quiet {s t : Device} {h : Trial} (hi : s.Tried h)
    (ha : ∀ c ∈ t.attempts, c = s.creds ∨ c ∈ s.attempts) (hcreds : t.creds = s.creds)
    (hq : ∀ e ∈ t.queue, e ∈ s.queue)
    (hpc : t.handler.onGotIp = true → s.handler.onGotIp = true) (hnvs : t.nvs = s.nvs)
    (hon : t.on = s.on) (hboot : ∀ call ∈ t.boot, call ∈ s.boot)
    (hserver : .startWebserver ∉ s.boot → t.server = s.server)
    (hpost : s.server = false → s.post = none → t.post = none) : t.Tried h where
  attempts := by
    intro c hc
    rw [hcreds]
    rcases ha c hc with rfl | hc
    · exact le_rfl
    · exact hi.attempts c hc
  queued := by
    intro c hc
    rw [hcreds]
    exact hi.queued c (hq _ hc)
  handled := by
    rw [hcreds]
    exact hi.handled
  handling := fun ht => hi.handling (hpc ht)
  stored := by
    rw [hnvs]
    exact hi.stored
  off := by
    rw [hnvs, hcreds, hon]
    exact hi.off
  sta := by
    rw [Device.ChoosesSta, hnvs, hcreds, hon]
    rintro ⟨hon, hmode⟩
    obtain ⟨hweb, hoff, hnone, hrest⟩ := hi.sta ⟨hon, hboot _ hmode⟩
    exact ⟨fun h => hweb (hboot _ h), (hserver hweb).trans hoff, hpost hoff hnone, hrest⟩

theorem Trial.Knows.later {h h' : Trial} {creds c : Nat} (hk : h.Knows creds c) :
    h'.Knows (creds + 1) c :=
  ⟨hk.1.trans (Nat.le_succ _), fun heq => absurd hk.1 (by omega)⟩

theorem Device.Tried.setConfig {s : Device} {h : Trial} (hi : s.Tried h) (hon : s.on = true)
    (hpost : s.post ≠ none) (cfg : WifiStaConfig) (r : PostRun) :
    { s.postCall (.setConfig cfg) with post := some r }.Tried
      { h with stored := some cfg, gotIp := false, lost := false, restartedOn := .none } where
  attempts := fun c hc => (hi.attempts c hc).trans (Nat.le_succ _)
  queued := fun c hc => (hi.queued c hc).later
  handled := fun c hc => (hi.handled c hc).later
  handling := hi.handling
  stored := fun _ => rfl
  off := fun hoff => absurd hon (Bool.eq_false_iff.mp hoff)
  -- without its server a device in station mode has no request to store from
  sta := fun hsta => absurd (hi.sta hsta).2.2.1 hpost

theorem Device.Tried.httpdTask {s t : Device} {h : Trial} (hi : s.Tried h) (hon : s.on = true)
    (hs : httpdTask s = some t) : t.Tried (Trial.note s .httpd h) := by
  rcases httpdTask_cases hs with ⟨call, calls, exit, hpost, rfl⟩ | ⟨exit, hpost, rfl⟩
  · simp only [Trial.note, hpost]
    cases call with
    | setConfig cfg => exact hi.setConfig hon (by simp [hpost]) cfg _
    | connect =>
      exact hi.quiet (by simp [Device.postCall, Device.espWifiConnect]) rfl (fun _ h => h) id rfl rfl
        (fun _ h => h) (fun _ => rfl) (by simp [hpost])
    | _ =>
      exact hi.quiet (fun _ h => .inr h) rfl (fun _ h => h) id rfl rfl (fun _ h => h) (fun _ => rfl)
        (by simp [hpost])
  · simp only [Trial.note, hpost]
    exact hi.quiet (fun _ h => .inr h) rfl (fun _ h => h) id rfl rfl (fun _ h => h) (fun _ => rfl)
      (fun _ _ => rfl)

theorem Device.Tried.dispatch {s : Device} {h : Trial} (hi : s.Tried h) (hpc : s.handler = .idle)
    {e : WifiEvent} {queue : List WifiEvent} (hq : s.queue = e :: queue) :
    { s with queue, handler := HandlerPc.dispatch e }.Tried (Trial.note s .eventLoop h) := by
  have hmem : ∀ e' ∈ queue, e' ∈ s.queue := by
    intro e' he'
    rw [hq]
    exact List.mem_cons_of_mem e he'
  cases e with
  | staGotIp c =>
    have hknown := hi.queued c (by rw [hq]; exact List.mem_cons_self)
    simp only [Trial.note, hpc, hq]
    exact
      { attempts := hi.attempts
        queued := fun c' hc' => hi.queued c' (hmem _ hc')
        handled := by
          intro c' hc'
          obtain rfl := Option.some.inj hc'
          exact hknown
        handling := fun _ => rfl
        stored := hi.stored
        off := hi.off
        sta := hi.sta }
  | _ =>
    simp only [Trial.note, hpc, hq]
    exact hi.quiet (fun _ h => .inr h) rfl hmem (fun h => absurd h Bool.false_ne_true) rfl rfl
      (fun _ h => h) (fun _ => rfl) (fun _ => id)

theorem Device.Tried.restart {s : Device} {h : Trial} (hi : s.Tried h) (hpc : s.handler = .restart) :
    { s with on := false }.Tried (Trial.note s .eventLoop h) := by
  obtain ⟨c, hc⟩ := Option.isSome_iff_exists.mp (hi.handling (by rw [hpc]; rfl))
  obtain ⟨hle, hgot⟩ := hi.handled c hc
  have hnote : Trial.note s .eventLoop h = { h with restartedOn := h.handling } := by
    simp only [Trial.note, hpc]
  rw [hnote]
  exact
    { attempts := hi.attempts
      queued := hi.queued
      handled := hi.handled
      handling := hi.handling
      stored := hi.stored
      off := by
        intro _ _
        -- the address of the credentials in flash has been noted, any other is an earlier one's
        rcases hle.eq_or_lt with heq | hlt
        · exact .inl (hgot heq)
        · exact .inr (.inr ⟨c, hlt, hc⟩)
      sta := fun hsta => absurd hsta.1 Bool.false_ne_true }

theorem Device.Tried.wifiEventHandler {s t : Device} {h : Trial} (hi : s.Tried h)
    (hs : wifiEventHandler s = some t) : t.Tried (Trial.note s .eventLoop h) := by
  cases wifiEventHandler_step hs with
  | dispatch hpc hq => exact hi.dispatch hpc hq
  | restart hpc => exact hi.restart hpc
  | connect hpc =>
    simp only [Trial.note, hpc]
    exact hi.quiet (by simp [Device.espWifiConnect]) rfl (fun _ h => h)
      (fun h => absurd h Bool.false_ne_true) rfl rfl (fun _ h => h) (fun _ => rfl) (fun _ => id)
  | retryTest hpc =>
    simp only [Trial.note, hpc]
    refine hi.quiet (fun _ h => .inr h) rfl (fun _ h => h) ?_ rfl rfl (fun _ h => h) (fun _ => rfl)
      (fun _ => id)
    dsimp only
    split <;> simp [HandlerPc.onGotIp]
  | _ hpc =>
    simp only [Trial.note, hpc]
    exact hi.quiet (fun _ h => .inr h) rfl (fun _ h => h) (by simp [hpc, HandlerPc.onGotIp]) rfl rfl
      (fun _ h => h) (fun _ => rfl) (fun _ => id)

theorem setMode_sta_mem {cfg : WifiStaConfig} {after : List UInt8}
    (h : .setMode .sta ∈ wifiInitSoftapSta cfg after) :
    cfg.Named ∧ .startWebserver ∉ wifiInitSoftapSta cfg after := by
  unfold wifiInitSoftapSta at h ⊢
  split at h
  case isTrue hne =>
    rw [if_pos hne]
    exact ⟨hne, by simp⟩
  case isFalse => simp at h

theorem Device.Tried.powerOn {s : Device} {h : Trial} (hi : s.Tried h) (hoff : s.on = false)
    (after : List UInt8) : (s.powerOn after).Tried h where
  attempts := by simp [Device.powerOn]
  queued := by simp [Device.powerOn]
  handled := hi.handled
  handling := fun hg => absurd hg Bool.false_ne_true
  stored := hi.stored
  off := fun hon => absurd hon.symm Bool.false_ne_true
  sta := by
    rintro ⟨_, hsta⟩
    obtain ⟨hne, hweb⟩ := setMode_sta_mem hsta
    exact ⟨hweb, rfl, rfl, hne, hi.off hoff hne⟩

theorem Device.Tried.powerLoss {s : Device} {h : Trial} (hi : s.Tried h) :
    { s with on := false }.Tried { h with lost := true } where
  attempts := hi.attempts
  queued := hi.queued
  handled := hi.handled
  handling := hi.handling
  stored := hi.stored
  off := fun _ _ => .inr (.inl rfl)
  sta := fun hsta => absurd hsta.1 Bool.false_ne_true

theorem Device.Tried.boot {s : Device} {h : Trial} (hi : s.Tried h) {call : BootCall}
    {calls : List BootCall} (hb : s.boot = call :: calls) (ok : Bool) :
    { s.bootCall ok call with boot := calls }.Tried h := by
  have hboot : ∀ call' ∈ calls, call' ∈ s.boot := by
    intro call' hcall'
    rw [hb]
    exact List.mem_cons_of_mem call hcall'
  have hserver : .startWebserver ∉ s.boot → (s.bootCall ok call).server = s.server := by
    intro hweb
    cases call with
    | startWebserver => exact absurd (hb ▸ List.mem_cons_self) hweb
    | _ => rfl
  cases call with
  | connect =>
    exact hi.quiet (by simp [Device.bootCall, Device.espWifiConnect]) rfl (fun _ h => h) id rfl rfl hboot
      hserver (fun _ => id)
  | _ =>
    exact hi.quiet (fun _ h => .inr h) rfl (fun _ h => h) id rfl rfl hboot hserver (fun _ => id)

theorem Trial.Excused.gotIp {h : Trial} {creds : Nat} (he : h.Excused creds) {b : Bool} :
    { h with gotIp := h.gotIp || b }.Excused creds := by
  rcases he with hgot | hrest
  · exact .inl (by simp [hgot])
  · exact .inr hrest

theorem Trial.Knows.gotIp {h : Trial} {creds c : Nat} (hk : h.Knows creds c) {b : Bool} :
    { h with gotIp := h.gotIp || b }.Knows creds c :=
  ⟨hk.1, fun heq => by simp [hk.2 heq]⟩

theorem Device.Tried.driver {s : Device} {h : Trial} (hi : s.Tried h) {e : WifiEvent}
    (he : e.Possible s.attempts) :
    { s with queue := s.queue ++ [e] }.Tried (Trial.note s (.driver e) h) := by
  cases e with
  | staGotIp c =>
    exact
      { attempts := hi.attempts
        queued := by
          intro c' hc'
          rcases List.mem_append.mp hc' with hc' | hc'
          · exact (hi.queued c' hc').gotIp
          · obtain rfl : c' = c := by simpa using hc'
            exact ⟨hi.attempts c' he, fun heq => by simp [Trial.note, heq]⟩
        handled := fun c' hc' => (hi.handled c' hc').gotIp
        handling := hi.handling
        stored := hi.stored
        off := fun hoff hne => (hi.off hoff hne).gotIp
        sta := by
          intro hsta
          obtain ⟨hweb, hserver, hpost, hne, hex⟩ := hi.sta hsta
          exact ⟨hweb, hserver, hpost, hne, hex.gotIp⟩ }
  | _ =>
    exact { hi with
      queued := by
        intro c hc
        exact hi.queued c (by simpa using hc) }

theorem Device.Tried.step {s t : Device} {a : DeviceAct} {h : Trial} (hi : s.Tried h)
    (hs : s.step a = some t) : t.Tried (Trial.note s a h) := by
  cases a with
  | powerOn after =>
    obtain ⟨hoff, rfl⟩ := by simpa [Device.step] using hs
    exact hi.powerOn hoff after
  | powerLoss =>
    obtain ⟨_, rfl⟩ := by simpa [Device.step] using hs
    exact hi.powerLoss
  | boot ok =>
    obtain ⟨call, calls, hb, rfl⟩ := Device.step_boot hs
    exact hi.boot hb ok
  | driver e =>
    obtain ⟨⟨_, he⟩, rfl⟩ := by simpa [Device.step] using hs
    exact hi.driver he
  | eventLoop =>
    obtain ⟨_, hs⟩ := by simpa [Device.step] using hs
    exact hi.wifiEventHandler hs
  | request sdk req =>
    obtain ⟨⟨_, hserver, _⟩, rfl⟩ := by simpa [Device.step] using hs
    exact hi.quiet (fun _ h => .inr h) rfl (fun _ h => h) id rfl rfl (fun _ h => h) (fun _ => rfl)
      (fun hoff => absurd hserver (Bool.eq_false_iff.mp hoff))
  | httpd =>
    obtain ⟨hon, hs⟩ := by simpa [Device.step] using hs
    exact hi.httpdTask hon hs

/-- In every run from an empty flash, a boot into station mode starts no web server
and finds the last accepted configuration, and this one has given an IP address since
it was stored, unless the device went down before it could. -/
theorem sta_mode_credentials {nvs : WifiStaConfig} {s : Device} {h : Trial} {as : List DeviceAct}
    (hempty : ¬nvs.Named)
    (hrun : Machine.run (Machine.monitored Device.step Trial.note) (.off nvs, .none) as = some (s, h))
    (hsta : s.ChoosesSta) :
    .startWebserver ∉ s.boot ∧ s.server = false ∧ s.nvs.Named ∧ h.stored = some s.nvs ∧
      h.Excused s.creds := by
  have hend : s.Tried h := by
    refine Machine.monitored_induction (motive := fun _ => Device.Tried) (Device.off_tried hempty) ?_ hrun
    intro as a u v z _ hi hstep
    exact hi.step hstep
  obtain ⟨hweb, hserver, _, hne, hex⟩ := hend.sta hsta
  exact ⟨hweb, hserver, hne, hend.stored hne, hex⟩

/-- Power is lost right after a wrong password was accepted. -/
def lossAfterPost : List DeviceAct :=
  bootSoftAp ++ postForm (ascii "wrong") ++ [.powerLoss, .powerOn []]

/-- The wrong password is posted in the second before the restart for the right one. -/
def postBeforeRestart : List DeviceAct :=
  bootSoftAp ++ postForm (ascii "right") ++ [.driver (.staGotIp 1)] ++
    List.replicate 4 .eventLoop ++ postForm (ascii "wrong") ++ [.eventLoop, .powerOn []]

theorem untried_credentials_choose_sta :
    ¬emptyNvs.Named ∧ ∀ as ∈ [lossAfterPost, postBeforeRestart], ∃ s h,
      Machine.run (Machine.monitored Device.step Trial.note) (.off emptyNvs, .none) as = some (s, h) ∧
        s.ChoosesSta ∧ h.stored = some s.nvs ∧ ¬h.gotIp = true := by
  refine ⟨by decide, fun as has => ?_⟩
  have h : (Machine.run (Machine.monitored Device.step Trial.note) (.off emptyNvs, .none) as).map
      (fun r => (decide r.1.ChoosesSta, decide (r.2.stored = some r.1.nvs), r.2.gotIp)) =
        some (true, true, false) := by
    rcases List.mem_pair.mp has with rfl | rfl
    · decide +kernel
    · decide +kernel
  obtain ⟨⟨s, h⟩, hrun, he⟩ := Option.map_eq_some_iff.mp h
  simp only [Prod.mk.injEq, decide_eq_true_eq] at he
  obtain ⟨hsta, hstored, hgot⟩ := he
  exact ⟨s, h, hrun, hsta, hstored, by simp [hgot]⟩

theorem sta_mode_credentials_connected :
    ∃ s h, Machine.run (Machine.monitored Device.step Trial.note) (.off emptyNvs, .none)
        (bootSoftAp ++ postForm (ascii "right") ++ [.driver (.staGotIp 1)] ++
          List.replicate 5 .eventLoop ++ [.powerOn []]) = some (s, h) ∧
      s.ChoosesSta ∧ h.lost = false ∧ h.restartedOn = some s.creds ∧ h.gotIp = true ∧
      h.stored = some s.nvs := by
  have h : (Machine.run (Machine.monitored Device.step Trial.note) (.off emptyNvs, .none)
      (bootSoftAp ++ postForm (ascii "right") ++ [.driver (.staGotIp 1)] ++
        List.replicate 5 .eventLoop ++ [.powerOn []])).map
      (fun r => (decide r.1.ChoosesSta, r.2.lost, decide (r.2.restartedOn = some r.1.creds))) =
        some (true, false, true) := by decide +kernel
  obtain ⟨⟨s, h⟩, hrun, he⟩ := Option.map_eq_some_iff.mp h
  simp only [Prod.mk.injEq, decide_eq_true_eq] at he
  obtain ⟨hsta, hlost, hlast⟩ := he
  obtain ⟨_, _, _, hstored, hex⟩ := sta_mode_credentials (by decide) hrun hsta
  refine ⟨s, h, hrun, hsta, hlost, hlast, ?_, hstored⟩
  rcases hex with hgot | hdown | ⟨c, hlt, hc⟩
  · exact hgot
  · exact absurd (hlost.symm.trans hdown) Bool.false_ne_true
  · obtain rfl := Option.some.inj (hlast.symm.trans hc)
    exact absurd hlt (lt_irrefl _)

end EspPassthrough
