import EspPassthrough.Parts

/-! The second program, `SoftAPProv`: the same Wi-Fi half, button task and helpers under an
`app_main` that starts no bridge. -/

namespace EspPassthrough

/-- `app_main` of `SoftAPProv`: as in the other program up to the return from
`wifi_init_softap_sta`, and then it is done. -/
def SoftApProv.appMain (s : Firmware) (a : AppAnswer) : Option Firmware :=
  match s.app, a with
  | .inWifiInit, .done => if s.wifi.boot = [] then some { s with app := .ready } else none
  | _, .memory _ => none
  | _, _ => EspPassthrough.appMain s a

def SoftApProv.step (s : Firmware) : FirmwareAct → Option Firmware
  | .app a => SoftApProv.appMain s a
  | .bridge _ => none
  | a => s.step a

/-- The steps that have to do with the bridge, its start included, are not among them. -/
def FirmwareAct.inSoftApProv : FirmwareAct → Bool
  | .app (.memory _) | .bridge _ => false
  | _ => true

def Firmware.withoutBridge (s : Firmware) : Firmware :=
  { s with app := if s.app = .tcpBridgeInit then .ready else s.app, bridge := none }

theorem Firmware.withoutBridge_app_eq_off {s : Firmware} :
    s.withoutBridge.app = .off ↔ s.app = .off := by
  show (if s.app = .tcpBridgeInit then AppPc.ready else s.app) = .off ↔ _
  by_cases h : s.app = .tcpBridgeInit
  · simp [h]
  · simp [h]

theorem Firmware.withoutBridge_view (s : Firmware) : s.withoutBridge.view = s.view := by
  refine Firmware.view_congr rfl Firmware.withoutBridge_app_eq_off ?_ .rfl
  show (if s.app = .tcpBridgeInit then AppPc.ready else s.app).entered = s.app.entered
  by_cases h : s.app = .tcpBridgeInit
  · rw [if_pos h, h]
    rfl
  · rw [if_neg h]

theorem appMain_withoutBridge (s : Firmware) {a : AppAnswer} (ha : ∀ malloc, a ≠ .memory malloc) :
    SoftApProv.appMain s.withoutBridge a = (appMain s a).map Firmware.withoutBridge := by
  obtain ⟨app, wifi, mode, button, bridge⟩ := s
  cases app with
  | inWifiInit =>
    cases a with
    | err e =>
      show appMain ⟨.inWifiInit, wifi, mode, button, none⟩ (.err e) = _
      cases hboot : wifi.boot with
      | nil => simp only [appMain, hboot, Option.map_none]
      | cons call calls =>
        simp only [appMain, hboot, apply_ite (Option.map Firmware.withoutBridge)]
        rfl
    | done =>
      simp only [appMain, apply_ite (Option.map Firmware.withoutBridge)]
      rfl
    | entered | created | memory => rfl
  | nvsInit =>
    cases a with
    | err e => cases e <;> rfl
    | entered | created | memory | done => rfl
  | nvsErase | nvsRetry | wifiInit =>
    cases a with
    | err e => cases e <;> rfl
    | entered | created | memory | done => rfl
  | off | createButton | tcpBridgeInit | ready =>
    cases a with
    | memory malloc => exact absurd rfl (ha malloc)
    | err | entered | created | done => rfl

theorem resetButton_withoutBridge (s : Firmware) (a : ButtonAnswer) :
    resetButton s.withoutBridge a = (resetButton s a).map Firmware.withoutBridge := by
  rcases s with ⟨app, wifi, mode, _ | ⟨holdTime, _ | ⟨call, calls⟩⟩, bridge⟩
  · rfl
  · cases a with
    | level => rfl
    | err => rfl
  · cases a with
    | level => cases call <;> rfl
    | err ok => cases call <;> cases ok <;> rfl

theorem wifiTasks_withoutBridge (s : Firmware) (a : DeviceAct) :
    wifiTasks s.withoutBridge a = (wifiTasks s a).map Firmware.withoutBridge := by
  cases a with
  | powerOn | powerLoss | boot => rfl
  | driver | eventLoop | request | httpd =>
    simp only [wifiTasks, Option.map_map]
    show Option.map _ (s.wifi.step _) = _
    congr 1
    funext wifi
    rw [Function.comp, apply_ite Firmware.withoutBridge]
    rfl

theorem SoftApProv.step_withoutBridge (s : Firmware) {a : FirmwareAct} (ha : a.inSoftApProv = true) :
    SoftApProv.step s.withoutBridge a = (s.step a).map Firmware.withoutBridge := by
  cases a with
  | powerOn =>
    simp only [SoftApProv.step, Firmware.step, Firmware.withoutBridge_app_eq_off,
      apply_ite (Option.map Firmware.withoutBridge)]
    rfl
  | powerLoss =>
    simp only [SoftApProv.step, Firmware.step, ne_eq, Firmware.withoutBridge_app_eq_off,
      apply_ite (Option.map Firmware.withoutBridge)]
    rfl
  | app a => exact appMain_withoutBridge s fun malloc hm => by simp [hm, FirmwareAct.inSoftApProv] at ha
  | button a => exact resetButton_withoutBridge s a
  | wifi a => exact wifiTasks_withoutBridge s a
  | bridge a => cases ha

theorem Firmware.withoutBridge_hidden {s t : Firmware} {a : FirmwareAct}
    (ha : ¬a.inSoftApProv = true) (hs : s.step a = some t) : t.withoutBridge = s.withoutBridge := by
  cases a with
  | powerOn | powerLoss | button | wifi => exact absurd rfl ha
  | bridge a =>
    obtain ⟨b, _, hs'⟩ := Option.bind_eq_some_iff.mp hs
    obtain ⟨b', _, rfl⟩ := Option.map_eq_some_iff.mp hs'
    rfl
  | app a =>
    cases a with
    | err | entered | created | done => exact absurd rfl ha
    | memory malloc =>
      cases appMain_step hs with
      | bridged hpc => simp [Firmware.withoutBridge, hpc]

theorem Firmware.exists_step_tcpBridgeInit {s : Firmware} (hpc : s.app = .tcpBridgeInit)
    (malloc : Malloc) : ∃ t, s.step (.app (.memory malloc)) = some t ∧ t.app = .ready := by
  refine ⟨{ s with app := .ready, bridge := tcpBridgeInit malloc unsetRingBuf }, ?_, rfl⟩
  rw [Firmware.step, appMain]
  exact hpc

theorem SoftApProv.inSoftApProv_of_step {s t : Firmware} {a : FirmwareAct}
    (h : SoftApProv.step s a = some t) : a.inSoftApProv = true := by
  cases a with
  | powerOn | powerLoss | button | wifi => rfl
  | bridge => cases h
  | app a =>
    cases a with
    | err | entered | created | done => rfl
    | memory malloc =>
      rw [SoftApProv.step, SoftApProv.appMain] at h
      cases h

/-- Each step of `SoftAPProv` is one of the other program, after which that one may have its
`tcp_bridge_init` still to call. -/
theorem SoftApProv.step_lifts {s u : Firmware} {a : FirmwareAct}
    (h : SoftApProv.step s.withoutBridge a = some u) :
    ∃ as t, Machine.run Firmware.step s as = some t ∧ as.filter FirmwareAct.inSoftApProv = [a] ∧
      t.withoutBridge = u ∧ t.app ≠ .tcpBridgeInit := by
  have ha := SoftApProv.inSoftApProv_of_step h
  rw [SoftApProv.step_withoutBridge s ha] at h
  obtain ⟨t, ht, rfl⟩ := Option.map_eq_some_iff.mp h
  by_cases hpc : t.app = .tcpBridgeInit
  · obtain ⟨v, hv, happ⟩ := Firmware.exists_step_tcpBridgeInit hpc zeroMalloc
    refine ⟨[a, .app (.memory zeroMalloc)], v, ?_, ?_, ?_, by simp [happ]⟩
    · rw [Machine.run, ht, Option.bind_some, Machine.run, hv]
      rfl
    · rw [List.filter_cons_of_pos ha]
      rfl
    · exact Firmware.withoutBridge_hidden (fun hkeep => by cases hkeep) hv
  · exact ⟨[a], t, by rw [Machine.run, ht]; rfl, by simp [ha], rfl, hpc⟩

/-- The bridge changes nothing for the rest of the program: with its steps left out, the runs
of the one program are the runs of the other. -/
theorem softApProv_runs {nvs : WifiStaConfig} :
    (∀ as s, Machine.run Firmware.step (.off nvs) as = some s →
      Machine.run SoftApProv.step (.off nvs) (as.filter FirmwareAct.inSoftApProv) =
        some s.withoutBridge ∧ s.withoutBridge.view = s.view) ∧
      ∀ bs u, Machine.run SoftApProv.step (.off nvs) bs = some u →
        ∃ as s, Machine.run Firmware.step (.off nvs) as = some s ∧
          as.filter FirmwareAct.inSoftApProv = bs ∧ s.withoutBridge = u ∧ s.app ≠ .tcpBridgeInit := by
  constructor
  · intro as s hrun
    have hkeep : ∀ (s : Firmware) a t, a.inSoftApProv = true → s.step a = some t →
        SoftApProv.step s.withoutBridge a = some t.withoutBridge := by
      intro s a t ha hs
      rw [SoftApProv.step_withoutBridge s ha, hs, Option.map_some]
    exact ⟨Machine.run_filter hkeep (fun _ _ _ => Firmware.withoutBridge_hidden) hrun,
      s.withoutBridge_view⟩
  · intro bs u hrun
    exact Machine.exists_run_filter (fun _ _ _ _ => SoftApProv.step_lifts) (by simp [Firmware.off]) hrun

theorem softApProv_runs_first_use :
    ∃ s as t, Machine.run Firmware.step (.off emptyNvs) servesClient = some s ∧ s.bridge.isSome ∧
      Machine.run SoftApProv.step (.off emptyNvs) (servesClient.filter FirmwareAct.inSoftApProv) =
        some s.withoutBridge ∧
      Machine.run Firmware.step (.off emptyNvs) as = some t ∧
      as.filter FirmwareAct.inSoftApProv = servesClient.filter FirmwareAct.inSoftApProv ∧
      t.withoutBridge = s.withoutBridge ∧ t.phase = .working := by
  have h : (Machine.run Firmware.step (.off emptyNvs) servesClient).map
      (fun s => decide (s.bridge.isSome ∧ s.phase = .working)) = some true := by decide +kernel
  obtain ⟨s, hrun, hcheck⟩ := Option.map_eq_some_iff.mp h
  obtain ⟨hbridge, hphase⟩ : s.bridge.isSome ∧ s.phase = .working := of_decide_eq_true hcheck
  obtain ⟨hfilter, hview⟩ := softApProv_runs.1 servesClient s hrun
  obtain ⟨as, t, ht, has, hsame, _⟩ := softApProv_runs.2 _ _ hfilter
  refine ⟨s, as, t, hrun, hbridge, hfilter, ht, has, hsame, ?_⟩
  have hview' := t.withoutBridge_view
  rw [hsame, hview] at hview'
  exact (congrArg Lifecycle.phase hview').symm.trans hphase

end EspPassthrough
