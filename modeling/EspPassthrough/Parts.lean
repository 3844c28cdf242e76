import EspPassthrough.Firmware
import EspPassthrough.OfflineCache

/-! What the parts of the firmware do in it over all starts: the bridge, which every start
sets up anew, and the Wi-Fi half, which keeps its flash. -/

namespace EspPassthrough

/-! ## The bridge -/

/-- What the UART has delivered and the clients' sockets have accepted, over all starts. -/
structure Streams where
  read : List UInt8
  accepted : List UInt8

def Bridge.arriving : Act → List UInt8
  | .daemon (.data bytes) => bytes
  | _ => []

def Bridge.accepting (s : Bridge) : Act → List UInt8
  | .bufferToTcp k (.result n) => (s.bufferToTcp k).hand.take n.toNat
  | _ => []

def Firmware.noteStreams (s : Firmware) : FirmwareAct → Streams → Streams
  | .bridge a, h => ⟨h.read ++ Bridge.arriving a, h.accepted ++ s.bridge.elim [] fun b => b.accepting a⟩
  | _, h => h

def Firmware.NonOverlapping (s : Firmware) : FirmwareAct → Prop
  | .bridge a => ∀ b ∈ s.bridge, b.NonOverlapping a
  | _ => True

instance (s : Firmware) : (a : FirmwareAct) → Decidable (s.NonOverlapping a)
  | .bridge _ => inferInstanceAs (Decidable (∀ _ ∈ _, _))
  | .powerOn | .powerLoss | .app _ | .button _ | .wifi _ => isTrue trivial

theorem uartRxDaemonTask_streams {s t : Bridge} {a : Answer} (h : uartRxDaemonTask s a = some t) :
    t.uartRx = s.uartRx ++ Bridge.arriving (.daemon a) ∧ t.accepted = s.accepted := by
  unfold uartRxDaemonTask at h
  split at h
  case h_1 =>
    cases h
    exact ⟨(List.append_nil _).symm, rfl⟩
  case h_2 bytes _ =>
    split at h
    case isTrue =>
      by_cases hne : bytes ≠ []
      · rw [if_pos hne] at h
        cases h
        exact ⟨rfl, rfl⟩
      · rw [if_neg hne] at h
        cases h
        rw [not_not.mp hne]
        exact ⟨(List.append_nil _).symm, rfl⟩
    case isFalse => cases h
  case h_3 =>
    split at h
    case isTrue =>
      cases h
      exact ⟨(List.append_nil _).symm, rfl⟩
    case isFalse => cases h
  case h_4 => cases h

theorem bufferToTcpTask_streams {s t : Bridge} {k : Nat} {a : Answer}
    (h : bufferToTcpTask s k a = some t) :
    t.uartRx = s.uartRx ∧ t.accepted = s.accepted ++ s.accepting (.bufferToTcp k a) := by
  obtain ⟨pc, ctx, cache, accepted, rfl, hstep⟩ := bufferToTcpTask_cases h
  refine ⟨rfl, ?_⟩
  cases hstep with
  | sent chunk n hpc => simp [Bridge.accepting, hpc, TaskPc.hand]
  | failed chunk n hpc hn => simp [Bridge.accepting, Int.toNat_of_nonpos hn.le]
  | frame a r hr =>
    obtain ⟨hhand, _⟩ := taskFrame_hand hr (by simp)
    cases a with
    | result n => simp [Bridge.accepting, hhand]
    | _ => exact (List.append_nil _).symm
  | _ => exact (List.append_nil _).symm

theorem Bridge.step_streams {s t : Bridge} {a : Act} (h : s.step a = some t) :
    t.uartRx = s.uartRx ++ Bridge.arriving a ∧ t.accepted = s.accepted ++ s.accepting a := by
  cases a with
  | elapse ms =>
    cases h
    exact ⟨(List.append_nil _).symm, (List.append_nil _).symm⟩
  | daemon a =>
    obtain ⟨hw, ha⟩ := uartRxDaemonTask_streams h
    exact ⟨hw, ha.trans (List.append_nil _).symm⟩
  | server a =>
    obtain ⟨_, hw, ha⟩ := tcpServerTask_streams h
    exact ⟨hw.trans (List.append_nil _).symm, ha.trans (List.append_nil _).symm⟩
  | tcpToUart k a =>
    obtain ⟨_, _, _, _, rfl⟩ := tcpToUartTask_frame h
    exact ⟨(List.append_nil _).symm, (List.append_nil _).symm⟩
  | bufferToTcp k a =>
    obtain ⟨hw, ha⟩ := bufferToTcpTask_streams h
    exact ⟨hw.trans (List.append_nil _).symm, ha⟩

/-- The streams are those of the starts that have ended, followed by the bridge's own. -/
structure Firmware.Relayed (s : Firmware) (h before : Streams) : Prop where
  sound : s.Sound
  ended : before.accepted.Sublist before.read
  read : h.read = before.read ++ s.bridge.elim [] Bridge.uartRx
  accepted : h.accepted = before.accepted ++ s.bridge.elim [] Bridge.accepted
  sequential : ∀ b, s.bridge = some b → ∃ o n, b.Sequential o n

theorem Firmware.Relayed.keep {s t : Firmware} {h before : Streams} (hi : s.Relayed h before)
    (ht : t.Sound) (hb : t.bridge = s.bridge) : t.Relayed h before := by
  refine ⟨ht, hi.ended, ?_, ?_, ?_⟩
  · rw [hb]
    exact hi.read
  · rw [hb]
    exact hi.accepted
  · rw [hb]
    exact hi.sequential

/-- What the bridge has not delivered when the program ends, it never will. -/
theorem Firmware.Relayed.stop {s t : Firmware} {h before : Streams} (hi : s.Relayed h before)
    (ht : t.Sound) (hb : t.bridge = none) : t.Relayed h h := by
  have hended : h.accepted.Sublist h.read := by
    rw [hi.read, hi.accepted]
    refine hi.ended.append ?_
    cases hs : s.bridge with
    | none => exact .slnil
    | some b =>
      obtain ⟨o, n, hseq⟩ := hi.sequential b hs
      exact hseq.sublist
  refine ⟨ht, hended, ?_, ?_, fun b hsome => ?_⟩
  · simp [hb]
  · simp [hb]
  · rw [hb] at hsome
    cases hsome

theorem Firmware.Relayed.init {s t : Firmware} {h before : Streams} (hi : s.Relayed h before)
    (ht : t.Sound) (hs : s.bridge = none) {malloc : Malloc} (hb : t.bridge = tcpBridgeInit malloc unsetRingBuf) :
    t.Relayed h before := by
  have hread := hi.read
  have haccepted := hi.accepted
  rw [hs] at hread haccepted
  cases hinit : tcpBridgeInit malloc unsetRingBuf with
  | none => exact hi.keep ht (by rw [hb, hinit, hs])
  | some b =>
    obtain ⟨cache, rfl, hempty⟩ := tcpBridgeInit_start hinit
    rw [hinit] at hb
    refine ⟨ht, hi.ended, ?_, ?_, fun b hsome => ?_⟩
    · rw [hb]
      exact hread
    · rw [hb]
      exact haccepted
    · obtain rfl := Option.some.inj (hb.symm.trans hsome)
      exact ⟨_, _, Bridge.start_sequential hempty⟩

theorem Firmware.Relayed.step {s t : Firmware} {h before : Streams} {a : FirmwareAct}
    (hi : s.Relayed h before) (ha : s.NonOverlapping a) (hs : s.step a = some t) :
    ∃ before', t.Relayed (s.noteStreams a h) before' := by
  have ht := (Firmware.step_matched hi.sound hs).sound
  cases Firmware.stepTo hs with
  | powerOn => exact ⟨before, hi.keep ht rfl⟩
  | powerLoss => exact ⟨h, hi.stop ht rfl⟩
  | app _ hs' =>
    cases appMain_step hs' with
    | failed => exact ⟨h, hi.stop ht rfl⟩
    | bridged hpc malloc =>
      exact ⟨before, hi.init ht (hi.sound.bridge_none (by simp [hpc])) rfl⟩
    | _ => exact ⟨before, hi.keep ht rfl⟩
  | button _ hs' =>
    cases resetButton_step hs' with
    | restart => exact ⟨h, hi.stop ht rfl⟩
    | erase _ ok => exact ⟨before, hi.keep ht (by cases ok <;> rfl)⟩
    | poll | call => exact ⟨before, hi.keep ht rfl⟩
  | wifi _ hs' =>
    obtain ⟨w, _, rfl⟩ := wifiTasks_eq hs'
    by_cases hw : w.on = true
    · exact ⟨before, hi.keep ht (by rw [if_pos hw])⟩
    · exact ⟨h, hi.stop ht (by rw [if_neg hw]; rfl)⟩
  | bridge a hb hb' =>
    obtain ⟨hread, haccepted⟩ := Bridge.step_streams hb'
    refine ⟨before, ht, hi.ended, ?_, ?_, fun c hc => ?_⟩
    · simp [Firmware.noteStreams, hi.read, hb, hread]
    · simp [Firmware.noteStreams, hi.accepted, hb, haccepted]
    · obtain rfl := Option.some.inj hc
      obtain ⟨o, n, hseq⟩ := hi.sequential _ hb
      exact ⟨_, _, hseq.next (ha _ hb) hb'⟩

/-- Over the whole life of the device, whatever ends its starts, nothing that its UART has
delivered reaches the clients twice or out of order, and what a start still has when it ends
reaches nobody later. -/
theorem delivered_once_over_restarts {nvs : WifiStaConfig} {s : Firmware} {h : Streams}
    {as : List FirmwareAct}
    (hrun : Machine.run (Machine.monitored Firmware.step Firmware.noteStreams) (.off nvs, ⟨[], []⟩) as =
      some (s, h)) (hok : Machine.Meets Firmware.step Firmware.NonOverlapping (.off nvs) as) :
    h.accepted.Sublist h.read ∧ ∀ b, s.bridge = some b →
      b.accepted.Sublist b.uartRx ∧ ∃ before : Streams, before.accepted.Sublist before.read ∧
        h.read = before.read ++ b.uartRx ∧ h.accepted = before.accepted ++ b.accepted := by
  have hoff : (Firmware.off nvs).Relayed ⟨[], []⟩ ⟨[], []⟩ :=
    ⟨Firmware.off_sound nvs, .slnil, rfl, rfl, fun b hb => by cases hb⟩
  have hend : ∃ before, s.Relayed h before := by
    apply Machine.invariant_of_monitored _ _ hrun hok
    · rintro u a v h ⟨before, hi⟩ ha hv
      exact hi.step ha hv
    · exact ⟨_, hoff⟩
  obtain ⟨before, hend⟩ := hend
  refine ⟨(hend.stop s.halt_sound rfl).ended, fun b hb => ?_⟩
  obtain ⟨o, n, hseq⟩ := hend.sequential b hb
  have hread := hend.read
  have haccepted := hend.accepted
  rw [hb] at hread haccepted
  exact ⟨hseq.sublist, before, hend.ended, hread, haccepted⟩

/-- After the first use a client connects, and the UART gets two bytes for it. -/
def servesClient : List FirmwareAct :=
  firstUse ++ startUp 4 ++ offlineTwo.map .bridge

/-- The power is lost before the client has got its bytes, and a byte arrives for the next one. -/
def servesNext : List FirmwareAct :=
  servesClient ++ [.powerLoss] ++ startUp 4 ++ (oneSend 1).map .bridge

theorem delivered_once_over_restarts_next :
    ∃ s h b, Machine.run (Machine.monitored Firmware.step Firmware.noteStreams)
        (.off emptyNvs, ⟨[], []⟩) servesNext = some (s, h) ∧ s.bridge = some b ∧
      h.read = [1, 2, 7] ∧ h.accepted = [7] ∧ h.accepted.Sublist h.read ∧
      b.accepted.Sublist b.uartRx ∧ ∃ before : Streams, before.accepted.Sublist before.read ∧
        h.read = before.read ++ b.uartRx ∧ h.accepted = before.accepted ++ b.accepted := by
  have hcheck : (Machine.run (Machine.monitored Firmware.step Firmware.noteStreams) (.off emptyNvs, ⟨[], []⟩)
      servesNext).map (fun p => decide (p.1.bridge.isSome ∧ p.2.read = [1, 2, 7] ∧ p.2.accepted = [7])) =
        some true := by decide +kernel
  obtain ⟨⟨s, h⟩, hrun, hcheck⟩ := Option.map_eq_some_iff.mp hcheck
  obtain ⟨hsome, hread, haccepted⟩ : s.bridge.isSome ∧ h.read = [1, 2, 7] ∧ h.accepted = [7] :=
    of_decide_eq_true hcheck
  obtain ⟨b, hb⟩ := Option.isSome_iff_exists.mp hsome
  have hok : Machine.Meets Firmware.step Firmware.NonOverlapping (.off emptyNvs) servesNext := by
    decide +kernel
  obtain ⟨hsub, hbridge⟩ := delivered_once_over_restarts hrun hok
  exact ⟨s, h, b, hrun, hb, hread, haccepted, hsub, hbridge b hb⟩

/-! ## The Wi-Fi half -/

inductive WifiLabel where
  | act (a : DeviceAct)
  | erase

def WifiLabel.isAct : WifiLabel → Bool
  | .act _ => true
  | .erase => false

/-- The Wi-Fi half, with its flash erased now and then. -/
def Device.stepErasing (s : Device) : WifiLabel → Option Device
  | .act a => s.step a
  | .erase => some { s with nvs := emptyNvs }

def Firmware.wifiLabelOf (s : Firmware) : FirmwareAct → Option WifiLabel
  | .app (.entered after) => some (.act (.powerOn after))
  | .app (.err e) =>
    match s.app with
    | .nvsErase => some .erase
    | .inWifiInit => some (.act (.boot (decide (e = .ok))))
    | _ => none
  | .button (.err true) =>
    match s.button with
    | some ⟨_, .nvsFlashErase :: _⟩ => some .erase
    | _ => none
  | _ => none

/-- What a step is to the Wi-Fi half; for it the end of the program is a loss of power. -/
def Firmware.wifiLabel (s : Firmware) : FirmwareAct → Option WifiLabel
  | .wifi a => some (.act a)
  | a =>
    (s.step a).bind fun t =>
      if t.app = .off then if s.wifi.on then some (.act .powerLoss) else none else s.wifiLabelOf a

theorem Firmware.wifiLabel_eq {s t : Firmware} {a : FirmwareAct} (ha : ∀ d, a ≠ .wifi d)
    (hs : s.step a = some t) :
    s.wifiLabel a =
      if t.app = .off then if s.wifi.on then some (.act .powerLoss) else none else s.wifiLabelOf a := by
  rw [Firmware.wifiLabel, hs, Option.bind_some]
  exact ha

theorem Firmware.wifi_halt {s : Firmware} {a : FirmwareAct} (ha : ∀ d, a ≠ .wifi d)
    (hs : s.step a = some s.halt) :
    Machine.run Device.stepErasing s.wifi (s.wifiLabel a).toList = some s.halt.wifi := by
  rw [Firmware.wifiLabel_eq ha hs, if_pos (show s.halt.app = .off from rfl)]
  by_cases hon : s.wifi.on = true
  · rw [if_pos hon, Option.toList_some, Machine.run, Device.stepErasing, Device.step, if_pos hon]
    rfl
  · have hsame : s.halt.wifi = s.wifi := by
      have hoff : s.wifi.on = false := by simpa using hon
      rw [Firmware.halt, ← hoff]
    rw [if_neg hon, hsame]
    rfl

theorem Firmware.wifi_runs {s t : Firmware} {a : FirmwareAct} (ha : ∀ d, a ≠ .wifi d)
    (hs : s.step a = some t) (happ : t.app ≠ .off)
    (hrun : Machine.run Device.stepErasing s.wifi (s.wifiLabelOf a).toList = some t.wifi) :
    Machine.run Device.stepErasing s.wifi (s.wifiLabel a).toList = some t.wifi := by
  rw [Firmware.wifiLabel_eq ha hs, if_neg happ, hrun]

theorem Firmware.wifi_app {s t : Firmware} {a : AppAnswer} (h : s.Sound) (hs : appMain s a = some t) :
    Machine.run Device.stepErasing s.wifi (s.wifiLabel (.app a)).toList = some t.wifi := by
  have hstep : s.step (.app a) = some t := hs
  have ha : ∀ d, FirmwareAct.app a ≠ .wifi d := by simp
  cases appMain_step hs with
  | failed => exact Firmware.wifi_halt ha hstep
  | nvsFull hpc => exact Firmware.wifi_runs ha hstep (by simp) (by simp [Firmware.wifiLabelOf, hpc, Machine.run])
  | nvsErased hpc =>
    refine Firmware.wifi_runs ha hstep (by simp) ?_
    rw [Firmware.wifiLabelOf, hpc]
    rfl
  | nvsReady hpc =>
    refine Firmware.wifi_runs ha hstep (by simp) ?_
    rcases hpc with hpc | hpc
    · rw [Firmware.wifiLabelOf, hpc]
      rfl
    · rw [Firmware.wifiLabelOf, hpc]
      rfl
  | created | returned | bridged => exact Firmware.wifi_runs ha hstep (by simp) rfl
  | entered hpc after =>
    have hoff : ¬s.wifi.on = true := by
      rw [h.on, hpc]
      simp [AppPc.entered]
    refine Firmware.wifi_runs ha hstep (by simp) ?_
    rw [Firmware.wifiLabelOf, Option.toList_some, Machine.run, Device.stepErasing, Device.step, if_neg hoff]
    rfl
  | call hpc hb =>
    have hon : s.wifi.on = true := by
      rw [h.on, hpc]
      rfl
    refine Firmware.wifi_runs ha hstep (by simp [hpc]) ?_
    rw [Firmware.wifiLabelOf, hpc]
    simp only [Option.toList_some, Machine.run, Device.stepErasing, Device.step, hon, hb, Option.bind_some]

theorem Firmware.wifi_button {s t : Firmware} {a : ButtonAnswer} (h : s.Sound)
    (hs : resetButton s a = some t) :
    Machine.run Device.stepErasing s.wifi (s.wifiLabel (.button a)).toList = some t.wifi := by
  have hstep : s.step (.button a) = some t := hs
  have ha : ∀ d, FirmwareAct.button a ≠ .wifi d := by simp
  have happ := h.up_of_button hs
  cases resetButton_step hs with
  | poll => exact Firmware.wifi_runs ha hstep happ rfl
  | restart => exact Firmware.wifi_halt ha hstep
  | erase hb ok =>
    cases ok with
    | false => exact Firmware.wifi_runs ha hstep happ rfl
    | true =>
      refine Firmware.wifi_runs ha hstep happ ?_
      rw [Firmware.wifiLabelOf, hb]
      rfl
  | @call _ call _ _ herase hb ok =>
    refine Firmware.wifi_runs ha hstep happ ?_
    cases ok with
    | false => rfl
    | true =>
      rw [Firmware.wifiLabelOf, hb]
      cases call with
      | nvsFlashErase => exact absurd rfl herase
      | _ => rfl

theorem Firmware.wifi_step {s t : Firmware} {a : FirmwareAct} (h : s.Sound) (hs : s.step a = some t) :
    Machine.run Device.stepErasing s.wifi (s.wifiLabel a).toList = some t.wifi := by
  cases Firmware.stepTo hs with
  | powerOn => exact Firmware.wifi_runs (by simp) hs (by simp) rfl
  | powerLoss => exact Firmware.wifi_halt (by simp) hs
  | app _ hs' => exact Firmware.wifi_app h hs'
  | button _ hs' => exact Firmware.wifi_button h hs'
  | wifi _ hs' =>
    obtain ⟨w, hw, rfl⟩ := wifiTasks_eq hs'
    rw [Firmware.wifiLabel, Option.toList_some, Machine.run, Device.stepErasing, hw, Option.bind_some]
    by_cases hon : w.on = true
    · rw [if_pos hon]
      rfl
    · have hoff : w.on = false := by simpa using hon
      rw [if_neg hon, Firmware.halt, ← hoff]
      rfl
  | bridge _ hb =>
    have hready : s.app = .ready := h.bridge (by simp [hb])
    exact Firmware.wifi_runs (by simp) hs (by simp [hready]) rfl

theorem run_of_stepErasing {s t : Device} {ls : List WifiLabel} (hno : .erase ∉ ls)
    (h : Machine.run Device.stepErasing s ls = some t) :
    ∃ as : List DeviceAct, ls = as.map .act ∧ Machine.run Device.step s as = some t := by
  induction ls generalizing s with
  | nil => exact ⟨[], rfl, h⟩
  | cons l ls ih =>
    obtain ⟨u, hu, ht⟩ := Option.bind_eq_some_iff.mp h
    obtain ⟨as, rfl, hrun⟩ := ih (fun hmem => hno (List.mem_cons_of_mem l hmem)) ht
    cases l with
    | act a =>
      have hstep : s.step a = some u := hu
      exact ⟨a :: as, rfl, by rw [Machine.run, hstep, Option.bind_some, hrun]⟩
    | erase => exact absurd List.mem_cons_self hno

/-- Over all starts the Wi-Fi half takes its own steps in the firmware, and an erasing of the
flash is all that anything else does to it: a run without one is a run of it alone. -/
theorem wifi_runs_alone {nvs : WifiStaConfig} {s : Firmware} {as : List FirmwareAct}
    (hrun : Machine.run Firmware.step (.off nvs) as = some s) :
    Machine.run Device.stepErasing (.off nvs)
        (Machine.trace Firmware.step Firmware.wifiLabel (.off nvs) as) = some s.wifi ∧
      (.erase ∉ Machine.trace Firmware.step Firmware.wifiLabel (.off nvs) as →
        ∃ ds : List DeviceAct,
          Machine.trace Firmware.step Firmware.wifiLabel (.off nvs) as = ds.map .act ∧
          Machine.run Device.step (.off nvs) ds = some s.wifi) := by
  have hstep : ∀ u a v, Firmware.Sound u → u.step a = some v → v.Sound ∧
      Machine.run Device.stepErasing u.wifi (u.wifiLabel a).toList = some v.wifi :=
    fun _ _ _ hu hv => ⟨(Firmware.step_matched hu hv).sound, Firmware.wifi_step hu hv⟩
  have hsteps := (Machine.run_simulates hstep (Firmware.off_sound nvs) hrun).2
  exact ⟨hsteps, fun hno => run_of_stepErasing hno hsteps⟩

theorem wifi_runs_alone_first_use :
    ∃ s ds, Machine.run Firmware.step (.off emptyNvs) (firstUse ++ startUp 4) = some s ∧
      Machine.run Device.step (.off emptyNvs) ds = some s.wifi ∧ s.wifi.nvs.Named := by
  have hcheck : (Machine.run Firmware.step (.off emptyNvs) (firstUse ++ startUp 4)).map (fun s =>
      decide (s.wifi.nvs.Named) && (Machine.trace Firmware.step Firmware.wifiLabel (.off emptyNvs)
        (firstUse ++ startUp 4)).all WifiLabel.isAct) = some true := by decide +kernel
  obtain ⟨s, hrun, hcheck⟩ := Option.map_eq_some_iff.mp hcheck
  obtain ⟨hnamed, hacts⟩ := Bool.and_eq_true_iff.mp hcheck
  obtain ⟨ds, _, hds⟩ := (wifi_runs_alone hrun).2 fun hmem =>
    absurd (List.all_eq_true.mp hacts _ hmem) Bool.false_ne_true
  exact ⟨s, ds, hrun, hds, of_decide_eq_true hnamed⟩

end EspPassthrough
