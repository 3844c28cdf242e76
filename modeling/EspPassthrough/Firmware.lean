import EspPassthrough.Handover
import EspPassthrough.Lifecycle
import EspPassthrough.Peripherals
import EspPassthrough.RetryBudget

/-! `app_main` of `main.c` and everything it starts, as one machine: the start-up, the
button task, the Wi-Fi half with the flash, and the bridge. Whatever ends the program, a
loss of power, `esp_restart` or a failed `ESP_ERROR_CHECK`, ends all of them at once. -/

namespace EspPassthrough

open CText

inductive EspErr where
  | ok
  | nvsNoFreePages
  | other
  deriving DecidableEq

/-- Where `app_main` is; `inWifiInit` is inside `wifi_init_softap_sta` after it has read
the configuration. -/
inductive AppPc where
  | off
  | nvsInit
  | nvsErase
  | nvsRetry
  | createButton
  | wifiInit
  | inWifiInit
  | tcpBridgeInit
  | ready
  deriving DecidableEq

/-- `reset_button_task`: its `hold_time`, and the calls left in this turn of its loop. -/
structure ButtonRun where
  holdTime : Nat
  calls : List ButtonCall
  deriving DecidableEq

/-- `mode` is the one that the Wi-Fi driver has been set to. -/
structure Firmware where
  app : AppPc
  wifi : Device
  mode : Option WifiMode
  button : Option ButtonRun
  bridge : Option Bridge

def Firmware.off (nvs : WifiStaConfig) : Firmware := ⟨.off, .off nvs, none, none, none⟩

def Firmware.halt (s : Firmware) : Firmware :=
  ⟨.off, { s.wifi with on := false }, none, none, none⟩

def Firmware.erase (s : Firmware) : Firmware := { s with wifi.nvs := emptyNvs }

/-- The calls of `wifi_init_softap_sta` under `ESP_ERROR_CHECK`. -/
def BootCall.checked : BootCall → Bool
  | .setMode _ | .setApConfig _ | .start | .connect => true
  | .log _ | .startWebserver => false

def BootCall.setsMode (mode : Option WifiMode) : BootCall → Option WifiMode
  | .setMode m => some m
  | _ => mode

/-- What a call of `app_main` returns; `entered` is the way into `wifi_init_softap_sta` up
to its `esp_wifi_get_config`, and `after` the memory behind what that has read. -/
inductive AppAnswer where
  | err (e : EspErr)
  | entered (after : List UInt8)
  | created (ok : Bool)
  | memory (malloc : Malloc)
  | done

inductive ButtonAnswer where
  | level (level : Int)
  | err (ok : Bool)
  deriving DecidableEq

inductive FirmwareAct where
  | powerOn
  | powerLoss
  | app (a : AppAnswer)
  | button (a : ButtonAnswer)
  | wifi (a : DeviceAct)
  | bridge (a : Act)

def appMain (s : Firmware) (a : AppAnswer) : Option Firmware :=
  match s.app, a with
  | .nvsInit, .err .ok => some { s with app := .createButton }
  | .nvsInit, .err .nvsNoFreePages => some { s with app := .nvsErase }
  | .nvsInit, .err .other => some s.halt
  | .nvsErase, .err e => some (if e = .ok then { s.erase with app := .nvsRetry } else s.halt)
  | .nvsRetry, .err e => some (if e = .ok then { s with app := .createButton } else s.halt)
  | .createButton, .created ok =>
    some { s with app := .wifiInit, button := if ok then some ⟨0, []⟩ else none }
  | .wifiInit, .entered after => some { s with app := .inWifiInit, wifi := s.wifi.powerOn after }
  | .wifiInit, .err e => if e = .ok then none else some s.halt
  | .inWifiInit, .err e =>
    match s.wifi.boot with
    | [] => none
    | call :: calls =>
      if call.checked ∧ e ≠ .ok then some s.halt
      else
        some { s with wifi := { s.wifi.bootCall (decide (e = .ok)) call with boot := calls },
                      mode := call.setsMode s.mode }
  | .inWifiInit, .done => if s.wifi.boot = [] then some { s with app := .tcpBridgeInit } else none
  | .tcpBridgeInit, .memory malloc =>
    some { s with app := .ready, bridge := tcpBridgeInit malloc unsetRingBuf }
  | _, _ => none

/-- Nothing looks at the result of the erasing. -/
def resetButton (s : Firmware) (a : ButtonAnswer) : Option Firmware :=
  match s.button, a with
  | some ⟨holdTime, []⟩, .level level =>
    let r := pollButton checkInterval resetHoldTimeMs holdTime level
    some { s with button := some ⟨r.1, r.2⟩ }
  | some ⟨_, .espRestart :: _⟩, .err _ => some s.halt
  | some ⟨holdTime, .nvsFlashErase :: calls⟩, .err ok =>
    some { (if ok then s.erase else s) with button := some ⟨holdTime, calls⟩ }
  | some ⟨holdTime, _ :: calls⟩, .err _ => some { s with button := some ⟨holdTime, calls⟩ }
  | _, _ => none

/-- The event loop and the web server's task; the rest of the Wi-Fi half's steps are those
of `app_main` and of the power supply. -/
def wifiTasks (s : Firmware) : DeviceAct → Option Firmware
  | .powerOn _ | .powerLoss | .boot _ => none
  | a => (s.wifi.step a).map fun wifi => if wifi.on then { s with wifi } else { s with wifi }.halt

def Firmware.step (s : Firmware) : FirmwareAct → Option Firmware
  | .powerOn => if s.app = .off then some { s with app := .nvsInit } else none
  | .powerLoss => if s.app ≠ .off then some s.halt else none
  | .app a => appMain s a
  | .button a => resetButton s a
  | .wifi a => wifiTasks s a
  | .bridge a => s.bridge.bind fun b => (b.step a).map fun b => { s with bridge := some b }

/-- Each step of `app_main`, and where it is taken from. -/
inductive Firmware.AppStep (s : Firmware) : AppAnswer → Firmware → Prop where
  | failed (happ : s.app ≠ .off) {e : EspErr} (he : e ≠ .ok) : s.AppStep (.err e) s.halt
  | nvsFull (hpc : s.app = .nvsInit) :
      s.AppStep (.err .nvsNoFreePages) { s with app := .nvsErase }
  | nvsErased (hpc : s.app = .nvsErase) : s.AppStep (.err .ok) { s.erase with app := .nvsRetry }
  | nvsReady (hpc : s.app = .nvsInit ∨ s.app = .nvsRetry) :
      s.AppStep (.err .ok) { s with app := .createButton }
  | created (hpc : s.app = .createButton) (ok : Bool) :
      s.AppStep (.created ok) { s with app := .wifiInit, button := if ok then some ⟨0, []⟩ else none }
  | entered (hpc : s.app = .wifiInit) (after : List UInt8) :
      s.AppStep (.entered after) { s with app := .inWifiInit, wifi := s.wifi.powerOn after }
  | call (hpc : s.app = .inWifiInit) {e : EspErr} {call : BootCall} {calls : List BootCall}
      (hb : s.wifi.boot = call :: calls) (hok : ¬(call.checked = true ∧ e ≠ .ok)) :
      s.AppStep (.err e) { s with wifi := { s.wifi.bootCall (decide (e = .ok)) call with boot := calls },
                                  mode := call.setsMode s.mode }
  | returned (hpc : s.app = .inWifiInit) (hb : s.wifi.boot = []) :
      s.AppStep .done { s with app := .tcpBridgeInit }
  | bridged (hpc : s.app = .tcpBridgeInit) (malloc : Malloc) :
      s.AppStep (.memory malloc)
        { s with app := .ready, bridge := tcpBridgeInit malloc unsetRingBuf }

theorem appMain_step {s t : Firmware} {a : AppAnswer} (h : appMain s a = some t) : s.AppStep a t := by
  unfold appMain at h
  split at h
  case h_1 hpc =>
    cases h
    exact .nvsReady (.inl hpc)
  case h_2 hpc =>
    cases h
    exact .nvsFull hpc
  case h_3 hpc =>
    cases h
    exact .failed (by simp [hpc]) (by simp)
  case h_4 e hpc =>
    by_cases he : e = .ok
    · subst he
      cases h
      exact .nvsErased hpc
    · rw [if_neg he] at h
      cases h
      exact .failed (by simp [hpc]) he
  case h_5 e hpc =>
    by_cases he : e = .ok
    · subst he
      cases h
      exact .nvsReady (.inr hpc)
    · rw [if_neg he] at h
      cases h
      exact .failed (by simp [hpc]) he
  case h_6 ok hpc =>
    cases h
    exact .created hpc ok
  case h_7 after hpc =>
    cases h
    exact .entered hpc after
  case h_8 e hpc =>
    by_cases he : e = .ok
    · rw [if_pos he] at h
      cases h
    · rw [if_neg he] at h
      cases h
      exact .failed (by simp [hpc]) he
  case h_9 e hpc =>
    split at h
    case h_1 => cases h
    case h_2 call calls hb =>
      by_cases hok : call.checked = true ∧ e ≠ .ok
      · rw [if_pos hok] at h
        cases h
        exact .failed (by simp [hpc]) hok.2
      · rw [if_neg hok] at h
        cases h
        exact .call hpc hb hok
  case h_10 hpc =>
    by_cases hb : s.wifi.boot = []
    · rw [if_pos hb] at h
      cases h
      exact .returned hpc hb
    · rw [if_neg hb] at h
      cases h
  case h_11 malloc hpc =>
    cases h
    exact .bridged hpc malloc
  case h_12 => cases h

inductive Firmware.ButtonStep (s : Firmware) : ButtonAnswer → Firmware → Prop where
  | poll {holdTime : Nat} (hb : s.button = some ⟨holdTime, []⟩) (level : Int) :
      s.ButtonStep (.level level)
        { s with button := some ⟨(pollButton checkInterval resetHoldTimeMs holdTime level).1,
                                 (pollButton checkInterval resetHoldTimeMs holdTime level).2⟩ }
  | restart {holdTime : Nat} {calls : List ButtonCall}
      (hb : s.button = some ⟨holdTime, .espRestart :: calls⟩) (ok : Bool) :
      s.ButtonStep (.err ok) s.halt
  | erase {holdTime : Nat} {calls : List ButtonCall}
      (hb : s.button = some ⟨holdTime, .nvsFlashErase :: calls⟩) (ok : Bool) :
      s.ButtonStep (.err ok)
        { (if ok then s.erase else s) with button := some ⟨holdTime, calls⟩ }
  | call {holdTime : Nat} {call : ButtonCall} {calls : List ButtonCall} (hrestart : call ≠ .espRestart)
      (herase : call ≠ .nvsFlashErase) (hb : s.button = some ⟨holdTime, call :: calls⟩) (ok : Bool) :
      s.ButtonStep (.err ok) { s with button := some ⟨holdTime, calls⟩ }

theorem resetButton_step {s t : Firmware} {a : ButtonAnswer} (h : resetButton s a = some t) :
    s.ButtonStep a t := by
  unfold resetButton at h
  split at h
  case h_1 level hb =>
    cases h
    exact .poll hb level
  case h_2 ok hb =>
    cases h
    exact .restart hb ok
  case h_3 ok hb =>
    cases h
    exact .erase hb ok
  case h_4 ok hrestart herase hb =>
    cases h
    exact .call (fun he => hrestart (he ▸ rfl)) (fun he => herase (he ▸ rfl)) hb ok
  case h_5 => cases h

theorem wifiTasks_eq {s t : Firmware} {a : DeviceAct} (h : wifiTasks s a = some t) :
    ∃ wifi, s.wifi.step a = some wifi ∧
      t = if wifi.on then { s with wifi } else ({ s with wifi } : Firmware).halt := by
  cases a with
  | powerOn | powerLoss | boot => cases h
  | driver | eventLoop | request | httpd =>
    obtain ⟨wifi, hwifi, rfl⟩ := Option.map_eq_some_iff.mp h
    exact ⟨wifi, hwifi, rfl⟩

/-- Each step of the firmware, as one of its tasks'. -/
inductive Firmware.StepTo (s : Firmware) : FirmwareAct → Firmware → Prop where
  | powerOn (hoff : s.app = .off) : s.StepTo .powerOn { s with app := .nvsInit }
  | powerLoss (happ : s.app ≠ .off) : s.StepTo .powerLoss s.halt
  | app (a : AppAnswer) {t : Firmware} (h : appMain s a = some t) : s.StepTo (.app a) t
  | button (a : ButtonAnswer) {t : Firmware} (h : resetButton s a = some t) : s.StepTo (.button a) t
  | wifi (a : DeviceAct) {t : Firmware} (h : wifiTasks s a = some t) : s.StepTo (.wifi a) t
  | bridge (a : Act) {b b' : Bridge} (hb : s.bridge = some b) (h : b.step a = some b') :
      s.StepTo (.bridge a) { s with bridge := some b' }

theorem Firmware.stepTo {s t : Firmware} {a : FirmwareAct} (hs : s.step a = some t) : s.StepTo a t := by
  cases a with
  | powerOn =>
    obtain ⟨hoff, rfl⟩ := by simpa [Firmware.step] using hs
    exact .powerOn hoff
  | powerLoss =>
    obtain ⟨happ, rfl⟩ := by simpa [Firmware.step] using hs
    exact .powerLoss happ
  | app a => exact .app a hs
  | button a => exact .button a hs
  | wifi a => exact .wifi a hs
  | bridge a =>
    obtain ⟨b, hb, h⟩ := Option.bind_eq_some_iff.mp hs
    obtain ⟨b', hb', rfl⟩ := Option.map_eq_some_iff.mp h
    exact .bridge a hb hb'

/-! ## The device as its user sees it -/

def WifiStaConfig.usable (cfg : WifiStaConfig) : Option WifiStaConfig :=
  if cfg.Named then some cfg else none

/-- `wifi_init_softap_sta` has taken its branch for a configuration in flash. -/
def Firmware.InStation (s : Firmware) : Prop := .setMode .sta ∈ s.wifi.boot ∨ s.mode = some .sta

instance (s : Firmware) : Decidable s.InStation := inferInstanceAs (Decidable (_ ∨ _))

def AppPc.entered : AppPc → Bool
  | .inWifiInit | .tcpBridgeInit | .ready => true
  | _ => false

def Firmware.phase (s : Firmware) : Phase :=
  if s.app = .off then .off
  else if s.app.entered then if s.InStation then .working else .provisioning
  else .starting

def Firmware.view (s : Firmware) : Lifecycle WifiStaConfig := ⟨s.wifi.nvs.usable, s.phase⟩

def Firmware.eventOf (s : Firmware) : FirmwareAct → Option (Lifecycle.Event WifiStaConfig)
  | .powerOn => some .start
  | .app (.entered _) => some .enter
  | .app (.err .ok) => if s.app = .nvsErase then some .erase else none
  | .button (.err true) =>
    match s.button with
    | some ⟨_, .nvsFlashErase :: _⟩ => some .erase
    | _ => none
  | .wifi .httpd =>
    match s.wifi.post with
    | some ⟨.setConfig cfg :: _, _⟩ => some (.store cfg.usable)
    | _ => none
  | _ => none

/-- What a step is to the user: the end of the program, or what its label says. -/
def Firmware.event (s : Firmware) (a : FirmwareAct) : Option (Lifecycle.Event WifiStaConfig) :=
  match s.step a with
  | none => none
  | some t => if t.app = .off then some .stop else s.eventOf a

/-! ## What holds of it in every state -/

structure Firmware.Sound (s : Firmware) : Prop where
  on : s.wifi.on = s.app.entered
  down : s.app = .off → s.button = none
  mode : s.app.entered = false → s.mode = none
  bridge : s.bridge ≠ none → s.app = .ready
  station : s.app.entered = true → s.InStation → s.wifi.server = false ∧ s.wifi.post = none ∧
    .startWebserver ∉ s.wifi.boot ∧ .setMode .apSta ∉ s.wifi.boot

theorem AppPc.ne_off_of_entered {pc : AppPc} (h : pc.entered = true) : pc ≠ .off := by
  rintro rfl
  cases h

theorem Firmware.Sound.up_of_button {s t : Firmware} {a : ButtonAnswer} (h : s.Sound)
    (hs : resetButton s a = some t) : s.app ≠ .off := by
  intro hoff
  simp [resetButton, h.down hoff] at hs

theorem Firmware.Sound.bridge_none {s : Firmware} (h : s.Sound) (happ : s.app ≠ .ready) :
    s.bridge = none := by
  by_contra hbridge
  exact happ (h.bridge hbridge)

theorem Firmware.off_sound (nvs : WifiStaConfig) : (Firmware.off nvs).Sound where
  on := rfl
  down := fun _ => rfl
  mode := fun _ => rfl
  bridge := fun h => absurd rfl h
  station := fun h => absurd h Bool.false_ne_true

theorem Firmware.halt_sound (s : Firmware) : s.halt.Sound where
  on := rfl
  down := fun _ => rfl
  mode := fun _ => rfl
  bridge := fun h => absurd rfl h
  station := fun h => absurd h Bool.false_ne_true

/-- The step keeps what holds of every state, and its event leads from what the user sees
before it to what the user sees after it. -/
structure Firmware.Matched (s : Firmware) (a : FirmwareAct) (t : Firmware) : Prop where
  sound : t.Sound
  event : Machine.run Lifecycle.step s.view (s.event a).toList = some t.view

theorem Firmware.phase_ne_off (s : Firmware) (happ : s.app ≠ .off) : s.view.phase ≠ .off := by
  show s.phase ≠ .off
  rw [Firmware.phase, if_neg happ]
  by_cases he : s.app.entered = true
  · rw [if_pos he]
    by_cases hsta : s.InStation
    · simp [hsta]
    · simp [hsta]
  · simp [he]

theorem Firmware.phase_of_entered {s : Firmware} (h : s.app.entered = true) :
    s.phase = if s.InStation then .working else .provisioning := by
  rw [Firmware.phase, if_neg (AppPc.ne_off_of_entered h), if_pos h]

theorem Firmware.phase_of_not_entered {s : Firmware} (h : ¬s.app.entered = true) :
    s.phase = .off ∨ s.phase = .starting := by
  rw [Firmware.phase, if_neg h]
  by_cases hoff : s.app = .off
  · exact .inl (if_pos hoff)
  · exact .inr (if_neg hoff)

theorem Firmware.matched_halt {s u : Firmware} {a : FirmwareAct} (happ : s.app ≠ .off)
    (hnvs : u.wifi.nvs = s.wifi.nvs) (hs : s.step a = some u.halt) : s.Matched a u.halt where
  sound := u.halt_sound
  event := by
    have hevent : s.event a = some .stop := by
      rw [Firmware.event, hs]
      rfl
    have hphase := s.phase_ne_off happ
    rw [hevent, Option.toList_some, Machine.run, Lifecycle.step, if_pos hphase]
    show some (Lifecycle.mk _ _) = some (Lifecycle.mk u.wifi.nvs.usable _)
    rw [hnvs]
    rfl

theorem Firmware.matched_quiet {s t : Firmware} {a : FirmwareAct} (ht : t.Sound)
    (happ : t.app ≠ .off) (hs : s.step a = some t) (hno : s.eventOf a = none) (hv : t.view = s.view) :
    s.Matched a t where
  sound := ht
  event := by
    rw [Firmware.event, hs]
    dsimp only
    rw [if_neg happ, hno, hv]
    rfl

theorem Firmware.matched_event {s t : Firmware} {a : FirmwareAct} {e : Lifecycle.Event WifiStaConfig}
    (ht : t.Sound) (happ : t.app ≠ .off) (hs : s.step a = some t) (he : s.eventOf a = some e)
    (hv : Lifecycle.step s.view e = some t.view) : s.Matched a t where
  sound := ht
  event := by
    rw [Firmware.event, hs]
    dsimp only
    rw [if_neg happ, he, Option.toList_some, Machine.run, hv]
    rfl

theorem Firmware.view_congr {s t : Firmware} (hnvs : t.wifi.nvs = s.wifi.nvs)
    (hoff : t.app = .off ↔ s.app = .off) (he : t.app.entered = s.app.entered)
    (hin : t.InStation ↔ s.InStation) : t.view = s.view := by
  rw [Firmware.view, Firmware.view, Firmware.phase, Firmware.phase, hnvs, he]
  simp only [hoff, hin]

/-- A step of `app_main` before `wifi_init_softap_sta`. -/
theorem Firmware.Sound.advance {s t : Firmware} (h : s.Sound) (hs : s.app.entered = false)
    (ht : t.app.entered = false) (happ : t.app ≠ .off) (hw : t.wifi.on = s.wifi.on)
    (hm : t.mode = s.mode) (hb : t.bridge = s.bridge) : t.Sound where
  on := by rw [hw, h.on, hs, ht]
  down := fun hoff => absurd hoff happ
  mode := fun _ => by rw [hm, h.mode hs]
  bridge := by
    intro hbridge
    have hready := h.bridge (hb ▸ hbridge)
    rw [hready] at hs
    cases hs
  station := fun he => absurd (ht.symm.trans he) Bool.false_ne_true

theorem Firmware.phase_starting {s : Firmware} (happ : s.app ≠ .off) (he : s.app.entered = false) :
    s.phase = .starting := by
  rw [Firmware.phase, if_neg happ, he]
  rfl

theorem setMode_mem {cfg : WifiStaConfig} {after : List UInt8} :
    (.setMode .sta ∈ wifiInitSoftapSta cfg after ↔ cfg.Named) ∧
      (cfg.Named → .startWebserver ∉ wifiInitSoftapSta cfg after ∧
        .setMode .apSta ∉ wifiInitSoftapSta cfg after) := by
  by_cases h : cfg.Named
  · have hbranch : cfg.ssid[0] ≠ 0 := h
    simp [wifiInitSoftapSta, hbranch, h]
  · have hbranch : ¬cfg.ssid[0] ≠ 0 := h
    simp [wifiInitSoftapSta, hbranch, h]

theorem usable_isSome {cfg : WifiStaConfig} : cfg.usable.isSome = true ↔ cfg.Named := by
  rw [WifiStaConfig.usable]
  split
  case isTrue h => simp [h]
  case isFalse h => simp [h]

theorem Firmware.enter_matched {s : Firmware} (h : s.Sound) (hpc : s.app = .wifiInit)
    (after : List UInt8) :
    s.Matched (.app (.entered after)) { s with app := .inWifiInit, wifi := s.wifi.powerOn after } := by
  obtain ⟨hmem, hstation⟩ := @setMode_mem s.wifi.nvs after
  have hmode : s.mode = none := h.mode (by rw [hpc]; rfl)
  have hin : ({ s with app := .inWifiInit, wifi := s.wifi.powerOn after } : Firmware).InStation ↔
      s.wifi.nvs.Named := by
    rw [← hmem, Firmware.InStation, hmode]
    simp [Device.powerOn]
  refine Firmware.matched_event ?_ (by simp) (by simp [Firmware.step, appMain, hpc]) rfl ?_
  · refine ⟨rfl, by simp, by simp [AppPc.entered], ?_, ?_⟩
    · exact fun hbridge => absurd (h.bridge_none (by simp [hpc])) hbridge
    · intro _ hsta
      exact ⟨rfl, rfl, hstation (hin.mp hsta)⟩
  · have hphase : s.view.phase = .starting := s.phase_starting (by simp [hpc]) (by rw [hpc]; rfl)
    have hnext : ({ s with app := .inWifiInit, wifi := s.wifi.powerOn after } : Firmware).phase =
        if s.view.stored.isSome then .working else .provisioning := by
      simp only [Firmware.phase, AppPc.entered, hin, Firmware.view, usable_isSome]
      rfl
    rw [Lifecycle.step, if_pos hphase, ← hnext]
    rfl

theorem Firmware.InStation.bootCall {s : Firmware} (h : s.Sound) (he : s.app.entered = true)
    {call : BootCall} {calls : List BootCall} (hb : s.wifi.boot = call :: calls) (ok : Bool) :
    ({ s with wifi := { s.wifi.bootCall ok call with boot := calls },
              mode := call.setsMode s.mode } : Firmware).InStation ↔ s.InStation := by
  rw [Firmware.InStation, Firmware.InStation, hb]
  cases call with
  | setMode m =>
    cases m with
    | sta => simp [BootCall.setsMode]
    | apSta =>
      constructor
      · rintro (hmem | hmode)
        · exact .inl (List.mem_cons_of_mem _ hmem)
        · cases hmode
      · intro hsta
        have hno := (h.station he (by rw [Firmware.InStation, hb]; exact hsta)).2.2.2
        exact absurd (hb ▸ List.mem_cons_self) hno
  | _ => simp [BootCall.setsMode]

theorem Firmware.boot_matched {s : Firmware} (h : s.Sound) (hpc : s.app = .inWifiInit) {e : EspErr}
    {call : BootCall} {calls : List BootCall} (hb : s.wifi.boot = call :: calls)
    (hok : ¬(call.checked = true ∧ e ≠ .ok)) :
    s.Matched (.app (.err e))
      { s with wifi := { s.wifi.bootCall (decide (e = .ok)) call with boot := calls },
               mode := call.setsMode s.mode } := by
  have he : s.app.entered = true := by rw [hpc]; rfl
  have hin := Firmware.InStation.bootCall h he hb (decide (e = .ok))
  have hon : (s.wifi.bootCall (decide (e = .ok)) call).on = s.wifi.on := by cases call <;> rfl
  have hnvs : (s.wifi.bootCall (decide (e = .ok)) call).nvs = s.wifi.nvs := by cases call <;> rfl
  refine Firmware.matched_quiet ?_ (by simp [hpc]) ?_ ?_ ?_
  · refine ⟨hon.trans h.on, by simp [hpc], by simp [he], h.bridge, ?_⟩
    intro _ hsta
    obtain ⟨hserver, hpost, hweb, hap⟩ := h.station he (hin.mp hsta)
    rw [hb] at hweb hap
    have hcalls : .startWebserver ∉ calls ∧ .setMode .apSta ∉ calls :=
      ⟨fun hm => hweb (List.mem_cons_of_mem _ hm), fun hm => hap (List.mem_cons_of_mem _ hm)⟩
    cases call with
    | startWebserver => exact absurd List.mem_cons_self hweb
    | _ => exact ⟨hserver, hpost, hcalls⟩
  · simp only [Firmware.step, appMain, hpc, hb]
    rw [if_neg hok]
  · cases e <;> simp [Firmware.eventOf, hpc]
  · exact Firmware.view_congr hnvs .rfl rfl hin

theorem Firmware.advance_matched {s t : Firmware} {a : AppAnswer} (h : s.Sound)
    (hs : appMain s a = some t) (hpc : s.app.entered = false) (happ : s.app ≠ .off)
    (ht : t.app.entered = false) (hoff : t.app ≠ .off) (hw : t.wifi = s.wifi) (hm : t.mode = s.mode)
    (hb : t.bridge = s.bridge) (hno : s.eventOf (.app a) = none) : s.Matched (.app a) t := by
  refine Firmware.matched_quiet (h.advance hpc ht hoff (by rw [hw]) hm hb) hoff hs hno ?_
  rw [Firmware.view, Firmware.view, s.phase_starting happ hpc, t.phase_starting hoff ht, hw]

theorem emptyNvs_usable : emptyNvs.usable = none := by decide

theorem Firmware.appMain_matched {s t : Firmware} {a : AppAnswer} (h : s.Sound)
    (hs : appMain s a = some t) : s.Matched (.app a) t := by
  have hstep : s.step (.app a) = some t := hs
  cases appMain_step hs with
  | failed happ he => exact Firmware.matched_halt happ rfl hstep
  | nvsFull hpc =>
    exact Firmware.advance_matched h hs (by rw [hpc]; rfl) (by simp [hpc]) rfl (by simp) rfl rfl rfl rfl
  | nvsErased hpc =>
    have hsound : ({ s.erase with app := .nvsRetry } : Firmware).Sound :=
      h.advance (by rw [hpc]; rfl) rfl (by simp) rfl rfl rfl
    refine Firmware.matched_event (e := .erase) hsound (by simp) hstep
      (by simp [Firmware.eventOf, hpc]) ?_
    have hphase : s.view.phase = .starting := s.phase_starting (by simp [hpc]) (by rw [hpc]; rfl)
    rw [Lifecycle.step, if_pos (by simp [hphase]), hphase]
    show some (Lifecycle.mk _ _) = some (Lifecycle.mk emptyNvs.usable _)
    rw [emptyNvs_usable]
    rfl
  | nvsReady hpc =>
    rcases hpc with hpc | hpc
    all_goals
      exact Firmware.advance_matched h hs (by rw [hpc]; rfl) (by simp [hpc]) rfl (by simp) rfl rfl rfl
        (by simp [Firmware.eventOf, hpc])
  | created hpc ok =>
    exact Firmware.advance_matched h hs (by rw [hpc]; rfl) (by simp [hpc]) rfl (by simp) rfl rfl rfl rfl
  | entered hpc after => exact Firmware.enter_matched h hpc after
  | call hpc hb hok => exact Firmware.boot_matched h hpc hb hok
  | returned hpc hb =>
    have hnone := h.bridge_none (by simp [hpc])
    have hsound : ({ s with app := .tcpBridgeInit } : Firmware).Sound :=
      ⟨by rw [h.on, hpc]; rfl, by simp, by simp [AppPc.entered], fun hbridge => absurd hnone hbridge,
        fun _ => h.station (by rw [hpc]; rfl)⟩
    refine Firmware.matched_quiet hsound (by simp) hstep rfl ?_
    exact Firmware.view_congr rfl (by simp [hpc]) (by rw [hpc]; rfl) .rfl
  | bridged hpc malloc =>
    have hsound : ({ s with app := .ready, bridge := tcpBridgeInit malloc unsetRingBuf } : Firmware).Sound :=
      ⟨by rw [h.on, hpc]; rfl, by simp, by simp [AppPc.entered], fun _ => rfl,
        fun _ => h.station (by rw [hpc]; rfl)⟩
    refine Firmware.matched_quiet hsound (by simp) hstep rfl ?_
    exact Firmware.view_congr rfl (by simp [hpc]) (by rw [hpc]; rfl) .rfl

theorem Firmware.Sound.withButton {s : Firmware} (h : s.Sound) (happ : s.app ≠ .off) (b : ButtonRun) :
    { s with button := some b }.Sound :=
  ⟨h.on, fun hoff => absurd hoff happ, h.mode, h.bridge, h.station⟩

theorem Firmware.resetButton_matched {s t : Firmware} {a : ButtonAnswer} (h : s.Sound)
    (hs : resetButton s a = some t) : s.Matched (.button a) t := by
  have hstep : s.step (.button a) = some t := hs
  have happ := h.up_of_button hs
  cases resetButton_step hs with
  | poll hb level => exact Firmware.matched_quiet (h.withButton happ _) happ hstep rfl rfl
  | restart hb ok => exact Firmware.matched_halt happ rfl hstep
  | @erase holdTime calls hb ok =>
    cases ok with
    | false => exact Firmware.matched_quiet (h.withButton happ _) happ hstep rfl rfl
    | true =>
      have hsound : ({ s.erase with button := some ⟨holdTime, calls⟩ } : Firmware).Sound :=
        ⟨h.on, fun hoff => absurd hoff happ, h.mode, h.bridge, h.station⟩
      refine Firmware.matched_event (e := .erase) hsound happ hstep (by simp [Firmware.eventOf, hb]) ?_
      have hphase := s.phase_ne_off happ
      rw [Lifecycle.step, if_pos hphase]
      show some (Lifecycle.mk none _) = some (Lifecycle.mk emptyNvs.usable _)
      rw [emptyNvs_usable]
      rfl
  | @call _ call _ _ herase hb ok =>
    refine Firmware.matched_quiet (h.withButton happ _) happ hstep ?_ rfl
    cases ok with
    | false => rfl
    | true =>
      simp only [Firmware.eventOf, hb]
      cases call with
      | nvsFlashErase => exact absurd rfl herase
      | _ => rfl

theorem wifiEventHandler_frame {s t : Device} (h : wifiEventHandler s = some t) :
    t.nvs = s.nvs ∧ t.boot = s.boot ∧ t.server = s.server ∧ t.post = s.post := by
  cases wifiEventHandler_step h <;> exact ⟨rfl, rfl, rfl, rfl⟩

/-- A step of the Wi-Fi half that leaves what is stored alone. -/
theorem Firmware.tasks_matched {s : Firmware} {a : DeviceAct} {w : Device} (h : s.Sound)
    (hon : s.wifi.on = true)
    (hs : s.step (.wifi a) =
      some (if w.on then { s with wifi := w } else ({ s with wifi := w } : Firmware).halt))
    (hno : s.eventOf (.wifi a) = none) (hnvs : w.nvs = s.wifi.nvs) (hboot : w.boot = s.wifi.boot)
    (hserver : w.server = s.wifi.server)
    (hpost : s.wifi.server = false → s.wifi.post = none → w.post = none) :
    s.Matched (.wifi a)
      (if w.on then { s with wifi := w } else ({ s with wifi := w } : Firmware).halt) := by
  have he : s.app.entered = true := h.on.symm.trans hon
  have happ := AppPc.ne_off_of_entered he
  have hin : ({ s with wifi := w } : Firmware).InStation ↔ s.InStation := by
    rw [Firmware.InStation, Firmware.InStation, hboot]
  have hview : ({ s with wifi := w } : Firmware).view = s.view :=
    Firmware.view_congr hnvs .rfl rfl hin
  by_cases hw : w.on = true
  · rw [if_pos hw] at hs ⊢
    refine Firmware.matched_quiet ⟨hw.trans he.symm, fun hoff => absurd hoff happ, ?_, h.bridge, ?_⟩ happ hs
      hno hview
    · exact fun hne => absurd (he.symm.trans hne) (by decide)
    · intro _ hsta
      obtain ⟨hoff, hnone, hrest⟩ := h.station he (hin.mp hsta)
      refine ⟨hserver.trans hoff, hpost hoff hnone, ?_⟩
      show _ ∉ w.boot ∧ _ ∉ w.boot
      rw [hboot]
      exact hrest
  · rw [if_neg hw] at hs ⊢
    exact Firmware.matched_halt happ hnvs hs

theorem Firmware.httpd_matched {s t : Firmware} (h : s.Sound) (hs : wifiTasks s .httpd = some t) :
    s.Matched (.wifi .httpd) t := by
  have hstep : s.step (.wifi .httpd) = some t := hs
  obtain ⟨w, hw, rfl⟩ := Option.map_eq_some_iff.mp hs
  obtain ⟨hon, hw⟩ := by simpa [Device.step] using hw
  rcases httpdTask_cases hw with ⟨call, calls, exit, hpost, rfl⟩ | ⟨exit, hpost, rfl⟩
  · have he : s.app.entered = true := h.on.symm.trans hon
    have happ := AppPc.ne_off_of_entered he
    have hsta : ¬s.InStation := by
      intro hsta
      rw [(h.station he hsta).2.1] at hpost
      cases hpost
    cases call with
    | setConfig cfg =>
      have hsound : ({ s with wifi := { s.wifi.postCall (.setConfig cfg) with
          post := some ⟨calls, exit⟩ } } : Firmware).Sound :=
        ⟨h.on, h.down, h.mode, h.bridge, fun _ hin => absurd hin hsta⟩
      have hon' : ({ s.wifi.postCall (.setConfig cfg) with post := some ⟨calls, exit⟩ } : Device).on := hon
      rw [if_pos hon'] at hstep ⊢
      refine Firmware.matched_event (e := .store cfg.usable) hsound happ hstep
        (by simp [Firmware.eventOf, hpost]) ?_
      have hphase : s.view.phase = .provisioning := by
        show s.phase = _
        rw [Firmware.phase_of_entered he, if_neg hsta]
      rw [Lifecycle.step, if_pos hphase]
      rfl
    | _ =>
      exact Firmware.tasks_matched h hon hstep (by simp [Firmware.eventOf, hpost]) rfl rfl rfl
        fun _ hnone => by simp [hpost] at hnone
  · exact Firmware.tasks_matched h hon hstep (by simp [Firmware.eventOf, hpost]) rfl rfl rfl
      fun _ _ => rfl

theorem Firmware.wifiTasks_matched {s t : Firmware} {a : DeviceAct} (h : s.Sound)
    (hs : wifiTasks s a = some t) : s.Matched (.wifi a) t := by
  have hstep : s.step (.wifi a) = some t := hs
  obtain ⟨w, hw, rfl⟩ := wifiTasks_eq hs
  cases a with
  | powerOn | powerLoss | boot => cases hs
  | driver e =>
    obtain ⟨⟨hon, _⟩, rfl⟩ := by simpa [Device.step] using hw
    exact Firmware.tasks_matched h hon hstep rfl rfl rfl rfl fun _ => id
  | eventLoop =>
    obtain ⟨hon, hw⟩ := by simpa [Device.step] using hw
    obtain ⟨hnvs, hboot, hserver, hpost⟩ := wifiEventHandler_frame hw
    exact Firmware.tasks_matched h hon hstep rfl hnvs hboot hserver fun _ => hpost.trans
  | request sdk req =>
    obtain ⟨⟨hon, hserver, _⟩, rfl⟩ := by simpa [Device.step] using hw
    exact Firmware.tasks_matched h hon hstep rfl rfl rfl rfl
      fun hoff => absurd hserver (Bool.eq_false_iff.mp hoff)
  | httpd => exact Firmware.httpd_matched h hs

theorem Firmware.step_matched {s t : Firmware} {a : FirmwareAct} (h : s.Sound)
    (hs : s.step a = some t) : s.Matched a t := by
  cases Firmware.stepTo hs with
  | powerOn hoff =>
    have he : s.app.entered = false := by rw [hoff]; rfl
    have hsound : ({ s with app := .nvsInit } : Firmware).Sound :=
      h.advance he rfl (by simp) rfl rfl rfl
    refine Firmware.matched_event hsound (by simp) hs rfl ?_
    have hphase : s.view.phase = .off := by
      show s.phase = .off
      rw [Firmware.phase, if_pos hoff]
    rw [Lifecycle.step, if_pos hphase]
    rfl
  | powerLoss happ => exact Firmware.matched_halt happ rfl hs
  | app _ hs' => exact Firmware.appMain_matched h hs'
  | button _ hs' => exact Firmware.resetButton_matched h hs'
  | wifi _ hs' => exact Firmware.wifiTasks_matched h hs'
  | bridge _ hb =>
    have hready : s.app = .ready := h.bridge (by simp [hb])
    refine Firmware.matched_quiet ⟨h.on, h.down, h.mode, fun _ => hready, h.station⟩ ?_ hs rfl rfl
    simp [hready]

theorem Firmware.Sound.run {s t : Firmware} {as : List FirmwareAct} (h : s.Sound)
    (hrun : Machine.run Firmware.step s as = some t) :
    t.Sound ∧ Machine.run Lifecycle.step s.view (Machine.trace Firmware.step Firmware.event s as) =
      some t.view :=
  Machine.run_simulates
    (fun _ _ _ hu hv => ⟨(Firmware.step_matched hu hv).sound, (Firmware.step_matched hu hv).event⟩)
    h hrun

/-- Every run of the firmware is, in what its user sees of it, a run of a device that keeps
one configuration and lets itself be configured only in a start that found none. -/
theorem firmware_refines_lifecycle {nvs : WifiStaConfig} {s : Firmware} {as : List FirmwareAct}
    (hrun : Machine.run Firmware.step (.off nvs) as = some s) :
    Machine.run Lifecycle.step ⟨nvs.usable, .off⟩
      (Machine.trace Firmware.step Firmware.event (.off nvs) as) = some s.view :=
  ((Firmware.off_sound nvs).run hrun).2

/-- A start in which `wifi_init_softap_sta` makes `n` calls. -/
def startUp (n : Nat) : List FirmwareAct :=
  [.powerOn, .app (.err .ok), .app (.created true), .app (.entered [])] ++
    List.replicate n (.app (.err .ok)) ++ [.app .done, .app (.memory zeroMalloc)]

/-- A new device is given a configuration, gets an address with it and restarts. -/
def firstUse : List FirmwareAct :=
  startUp 5 ++ (postForm (ascii "right")).map .wifi ++ [.wifi (.driver (.staGotIp 1))] ++
    List.replicate 5 (.wifi .eventLoop)

theorem firmware_refines_lifecycle_first_use :
    ∃ s, Machine.run Firmware.step (.off emptyNvs) (firstUse ++ startUp 4) = some s ∧
      s.phase = .working ∧
      Machine.run Lifecycle.step ⟨none, .off⟩
        (Machine.trace Firmware.step Firmware.event (.off emptyNvs) (firstUse ++ startUp 4)) =
          some s.view := by
  have h : (Machine.run Firmware.step (.off emptyNvs) (firstUse ++ startUp 4)).map
      (fun s => s.phase) = some .working := by decide +kernel
  obtain ⟨s, hrun, hphase⟩ := Option.map_eq_some_iff.mp h
  refine ⟨s, hrun, hphase, ?_⟩
  rw [← emptyNvs_usable]
  exact firmware_refines_lifecycle hrun

end EspPassthrough
