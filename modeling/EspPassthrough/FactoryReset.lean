import EspPassthrough.Firmware

/-! The ways out of station mode. What the device does after a start is decided by what was
last written to flash, and once it has a configuration only the button, or a flash found
full, takes it away; the button always can. -/

namespace EspPassthrough

open Streak

theorem appMain_entered {s u : Firmware} {after : List UInt8}
    (h : appMain s (.entered after) = some u) :
    s.app = .wifiInit ∧ u = { s with app := .inWifiInit, wifi := s.wifi.powerOn after } := by
  cases appMain_step h with
  | entered hpc => exact ⟨hpc, rfl⟩

/-- Whatever has happened before, with power lost and starts broken off at any point: from
a start until the next stop the device is in station mode exactly if the last write to
flash before it left a configuration there, and works with that one. -/
theorem boot_mode_iff {nvs : WifiStaConfig} {s u t : Firmware} {as bs : List FirmwareAct}
    {after : List UInt8} (hbefore : Machine.run Firmware.step (.off nvs) as = some s)
    (henter : s.step (.app (.entered after)) = some u) (hrun : Machine.run Firmware.step u bs = some t)
    (hup : .stop ∉ Machine.trace Firmware.step Firmware.event u bs) :
    s.wifi.nvs.usable = Lifecycle.written nvs.usable
        (Machine.trace Firmware.step Firmware.event (.off nvs) as) ∧
      t.app.entered = true ∧ (t.InStation ↔ s.wifi.nvs.Named) := by
  obtain ⟨hsound, hview⟩ := (Firmware.off_sound nvs).run hbefore
  have hmatched := Firmware.step_matched hsound henter
  obtain ⟨_, hrest⟩ := hmatched.sound.run hrun
  have hstored : s.wifi.nvs.usable = _ := Lifecycle.run_stored hview
  have hevent : s.event (.app (.entered after)) = some .enter := by
    obtain ⟨_, rfl⟩ := appMain_entered henter
    rw [Firmware.event, henter]
    rfl
  have hall : Machine.run Lifecycle.step (Firmware.off nvs).view
      (Machine.trace Firmware.step Firmware.event (.off nvs) as ++
        .enter :: Machine.trace Firmware.step Firmware.event u bs) = some t.view := by
    have hone := hmatched.event
    rw [hevent] at hone
    obtain ⟨v, hv, he⟩ := Option.bind_eq_some_iff.mp hone
    obtain rfl := Option.some.inj he
    rw [Machine.run_append, hview, Option.bind_some, Machine.run, hv, Option.bind_some, hrest]
  have hphase : t.phase = _ := Lifecycle.phase_of_enter hall hup
  have hentered : t.app.entered = true := by
    by_contra hno
    rcases Firmware.phase_of_not_entered hno with hp | hp
    all_goals
      rw [hp] at hphase
      split at hphase <;> cases hphase
  refine ⟨hstored, hentered, ?_⟩
  rw [Firmware.phase_of_entered hentered] at hphase
  simp only [← hstored, usable_isSome] at hphase
  constructor
  · intro hsta
    by_contra hno
    rw [if_pos hsta, if_neg hno] at hphase
    cases hphase
  · intro hnamed
    by_contra hno
    rw [if_neg hno, if_pos hnamed] at hphase
    cases hphase

/-- The start after the first use, up to `wifi_init_softap_sta`. -/
def untilEntered : List FirmwareAct :=
  firstUse ++ [.powerOn, .app (.err .ok), .app (.created true)]

def untilReady : List FirmwareAct :=
  List.replicate 4 (.app (.err .ok)) ++ [.app .done, .app (.memory zeroMalloc)]

theorem boot_mode_iff_configured :
    ∃ s u t, Machine.run Firmware.step (.off emptyNvs) untilEntered = some s ∧
      s.step (.app (.entered [])) = some u ∧ Machine.run Firmware.step u untilReady = some t ∧
      t.app.entered = true ∧ t.InStation := by
  have h : ((Machine.run Firmware.step (.off emptyNvs) untilEntered).bind fun s =>
      (s.step (.app (.entered []))).bind fun u => (Machine.run Firmware.step u untilReady).map fun _ =>
        decide (s.wifi.nvs.Named ∧ .stop ∉ Machine.trace Firmware.step Firmware.event u untilReady)) =
      some true := by decide +kernel
  obtain ⟨s, hbefore, h⟩ := Option.bind_eq_some_iff.mp h
  obtain ⟨u, henter, h⟩ := Option.bind_eq_some_iff.mp h
  obtain ⟨t, hrun, h⟩ := Option.map_eq_some_iff.mp h
  obtain ⟨hnamed, hup⟩ := of_decide_eq_true h
  obtain ⟨_, hentered, hiff⟩ := boot_mode_iff hbefore henter hrun hup
  exact ⟨s, u, t, hbefore, henter, hrun, hentered, hiff.mpr hnamed⟩

/-! ## Only a long press, or a flash found full -/

/-- The levels that the button task has polled since it was created. -/
def Firmware.notePolls (_ : Firmware) : FirmwareAct → List Int → List Int
  | .app (.created _), _ => []
  | .button (.level level), h => h ++ [level]
  | _, h => h

/-- The step polls no level that makes thirty low ones in a row, and does not find the
flash full. -/
def Firmware.NoReset (s : Firmware) (h : List Int) : FirmwareAct → Prop
  | .app (.err e) => ¬(s.app = .nvsInit ∧ e = .nvsNoFreePages)
  | .button (.level level) => streak low (h ++ [level]) < 30
  | _ => True

instance (s : Firmware) (h : List Int) : (a : FirmwareAct) → Decidable (s.NoReset h a)
  | .app (.err _) => inferInstanceAs (Decidable (¬_))
  | .button (.level _) => inferInstanceAs (Decidable (_ < _))
  | .app (.entered _) | .app (.created _) | .app (.memory _) | .app .done => isTrue trivial
  | .button (.err _) | .powerOn | .powerLoss | .wifi _ | .bridge _ => isTrue trivial

theorem appMain_frame {s t : Firmware} {a : AppAnswer} (h : appMain s a = some t) :
    (t.app = .nvsErase → s.app = .nvsInit ∧ a = .err .nvsNoFreePages) ∧
      ((∀ ok, a ≠ .created ok) ∧ (t.button = s.button ∨ t.button = none) ∨
        ∃ ok, a = .created ok ∧ ∀ b, t.button = some b → b = ⟨0, []⟩) := by
  cases appMain_step h with
  | failed => exact ⟨by simp [Firmware.halt], .inl ⟨by simp, .inr rfl⟩⟩
  | nvsFull hpc => exact ⟨fun _ => ⟨hpc, rfl⟩, .inl ⟨by simp, .inl rfl⟩⟩
  | created _ ok =>
    refine ⟨by simp, .inr ⟨ok, rfl, fun b hb => ?_⟩⟩
    cases ok with
    | false => cases hb
    | true => exact (Option.some.inj hb).symm
  | call hpc => exact ⟨by simp [hpc], .inl ⟨by simp, .inl rfl⟩⟩
  | _ => exact ⟨by simp, .inl ⟨by simp, .inl rfl⟩⟩

theorem wifiTasks_frame {s t : Firmware} {a : DeviceAct} (h : wifiTasks s a = some t) :
    t.app = s.app ∧ t.button = s.button ∨ t.app = .off ∧ t.button = none := by
  obtain ⟨w, _, rfl⟩ := wifiTasks_eq h
  by_cases hw : w.on = true
  · rw [if_pos hw]
    exact .inl ⟨rfl, rfl⟩
  · rw [if_neg hw]
    exact .inr ⟨rfl, rfl⟩

theorem resetButton_app {s t : Firmware} {a : ButtonAnswer} (h : resetButton s a = some t) :
    t.app = s.app ∨ t.app = .off := by
  cases resetButton_step h with
  | restart => exact .inr rfl
  | erase _ ok => cases ok <;> exact .inl rfl
  | poll | call => exact .inl rfl

/-- `hold_time` measures the streak of low levels; after thirty of them, and only then, the
task erases and restarts. -/
structure ButtonRun.Polled (b : ButtonRun) (h : List Int) : Prop where
  held : b.holdTime = streak low h * checkInterval
  erases : .nvsFlashErase ∈ b.calls → 30 ≤ streak low h
  restarts : 30 ≤ streak low h → .espRestart ∈ b.calls

def Firmware.Polled (s : Firmware) (h : List Int) : Prop := ∀ b, s.button = some b → b.Polled h

theorem Firmware.Polled.keep {s t : Firmware} {h : List Int} (hi : s.Polled h)
    (hb : t.button = s.button ∨ t.button = none) : t.Polled h := by
  intro b ht
  rcases hb with hb | hb
  · exact hi b (hb ▸ ht)
  · rw [hb] at ht
    cases ht

theorem ButtonRun.Polled.next {holdTime : Nat} {call : ButtonCall} {calls : List ButtonCall}
    {h : List Int} (hb : ButtonRun.Polled ⟨holdTime, call :: calls⟩ h) (hcall : call ≠ .espRestart) :
    ButtonRun.Polled ⟨holdTime, calls⟩ h where
  held := hb.held
  erases := fun hmem => hb.erases (List.mem_cons_of_mem call hmem)
  restarts := fun hheld => List.mem_of_ne_of_mem (Ne.symm hcall) (hb.restarts hheld)

theorem Firmware.Polled.resetButton {s t : Firmware} {h : List Int} {a : ButtonAnswer}
    (hi : s.Polled h) (hs : resetButton s a = some t) : t.Polled (s.notePolls (.button a) h) := by
  cases resetButton_step hs with
  | @poll holdTime hb level =>
    have hheld : holdTime = streak low h * checkInterval := (hi _ hb).held
    subst hheld
    have hfires := @pollButton_fires checkInterval resetHoldTimeMs h (by decide) (by decide)
    intro b hb'
    obtain rfl := Option.some.inj hb'
    exact ⟨pollButton_holdTime level, (hfires (.inl rfl) level).mp, (hfires (.inr rfl) level).mpr⟩
  | restart => exact hi.keep (.inr rfl)
  | erase hb =>
    intro b hb'
    obtain rfl := Option.some.inj hb'
    exact (hi _ hb).next (by simp)
  | call hrestart _ hb =>
    intro b hb'
    obtain rfl := Option.some.inj hb'
    exact (hi _ hb).next hrestart

theorem Firmware.Polled.step {s t : Firmware} {h : List Int} {a : FirmwareAct} (hi : s.Polled h)
    (hs : s.step a = some t) : t.Polled (s.notePolls a h) := by
  cases Firmware.stepTo hs with
  | powerOn => exact hi.keep (.inl rfl)
  | powerLoss => exact hi.keep (.inr rfl)
  | app a hs' =>
    rcases (appMain_frame hs').2 with ⟨hno, hb⟩ | ⟨ok, rfl, hnew⟩
    · have hnote : s.notePolls (.app a) h = h := by
        cases a with
        | created ok => exact absurd rfl (hno ok)
        | _ => rfl
      rw [hnote]
      exact hi.keep hb
    · intro b hb
      rw [hnew b hb]
      refine ⟨by rw [Firmware.notePolls, streak_nil, Nat.zero_mul],
        fun hmem => absurd hmem List.not_mem_nil, fun hheld => ?_⟩
      rw [Firmware.notePolls, streak_nil] at hheld
      exact absurd hheld (by decide)
  | button _ hs' => exact hi.resetButton hs'
  | wifi _ hs' => exact hi.keep ((wifiTasks_frame hs').imp And.right And.right)
  | bridge => exact hi.keep (.inl rfl)

theorem polled_of_run {nvs : WifiStaConfig} {s : Firmware} {h : List Int} {as : List FirmwareAct}
    (hstart : Machine.run (Machine.monitored Firmware.step Firmware.notePolls) (.off nvs, []) as =
      some (s, h)) : s.Polled h := by
  have hoff : (Firmware.off nvs).Polled [] := fun b hb => by cases hb
  refine Machine.monitored_induction (motive := fun _ => Firmware.Polled) hoff ?_ hstart
  intro as a u v k _ hi hv
  exact hi.step hv

/-- The button is not held, and no erasing is under way. -/
structure Firmware.Calm (s : Firmware) (h : List Int) : Prop where
  polled : s.Polled h
  short : streak low h < 30
  app : s.app ≠ .nvsErase

theorem Firmware.Calm.step {s t : Firmware} {h : List Int} {a : FirmwareAct} (hc : s.Calm h)
    (hok : s.NoReset h a) (hs : s.step a = some t) : t.Calm (s.notePolls a h) := by
  refine ⟨hc.polled.step hs, ?_, ?_⟩
  · cases a with
    | app a =>
      cases a with
      | created ok =>
        rw [Firmware.notePolls, streak_nil]
        decide
      | _ => exact hc.short
    | button a =>
      cases a with
      | level level => exact hok
      | err ok => exact hc.short
    | _ => exact hc.short
  · cases Firmware.stepTo hs with
    | powerOn => simp
    | powerLoss => simp [Firmware.halt]
    | app _ hs' =>
      intro he
      obtain ⟨hpc, rfl⟩ := (appMain_frame hs').1 he
      exact hok ⟨hpc, rfl⟩
    | button _ hs' =>
      rcases resetButton_app hs' with happ | happ
      · rw [happ]
        exact hc.app
      · simp [happ]
    | wifi _ hs' =>
      rcases wifiTasks_frame hs' with ⟨happ, _⟩ | ⟨happ, _⟩
      · rw [happ]
        exact hc.app
      · simp [happ]
    | bridge => exact hc.app

theorem Firmware.Calm.event_ne_erase {s t : Firmware} {h : List Int} {a : FirmwareAct} (hc : s.Calm h)
    (hs : s.step a = some t) : s.event a ≠ some .erase := by
  intro he
  rw [Firmware.event, hs] at he
  dsimp only at he
  split at he
  case isTrue => cases he
  case isFalse =>
    unfold Firmware.eventOf at he
    split at he
    case h_3 =>
      rw [if_neg hc.app] at he
      cases he
    case h_4 =>
      split at he
      case h_1 hb =>
        have hlong := (hc.polled _ hb).erases List.mem_cons_self
        exact absurd hc.short (not_lt.mpr hlong)
      case h_2 => cases he
    case h_5 => split at he <;> cases he
    all_goals cases he

theorem usable_eq_some {cfg cfg' : WifiStaConfig} (h : cfg.usable = some cfg') : cfg = cfg' := by
  rw [WifiStaConfig.usable] at h
  split at h
  · exact Option.some.inj h
  · cases h

/-- A device in station mode with a configuration in flash keeps both, over power losses,
restarts and failed starts, whatever its clients, the network and the Wi-Fi driver do, as
long as its button is never low for thirty polls in a row and its flash never found full:
it is never configurable, runs no web server and has no request in hand. -/
theorem station_until_reset {nvs : WifiStaConfig} {s t : Firmware} {h h' : List Int}
    {as bs : List FirmwareAct}
    (hstart : Machine.run (Machine.monitored Firmware.step Firmware.notePolls) (.off nvs, []) as =
      some (s, h))
    (hsta : s.phase = .working) (hnamed : s.wifi.nvs.Named) (hshort : streak low h < 30)
    (hrun : Machine.run (Machine.monitored Firmware.step Firmware.notePolls) (s, h) bs = some (t, h'))
    (hok : Machine.Meets (Machine.monitored Firmware.step Firmware.notePolls)
      (fun p a => p.1.NoReset p.2 a) (s, h) bs) :
    t.wifi.nvs = s.wifi.nvs ∧ t.phase ≠ .provisioning ∧
      (t.wifi.on = true → t.InStation ∧ t.wifi.server = false ∧ t.wifi.post = none) := by
  obtain ⟨hsound, _⟩ := (Firmware.off_sound nvs).run (Machine.run_of_monitored hstart)
  obtain ⟨hsound', hview⟩ := hsound.run (Machine.run_of_monitored hrun)
  have hpolled := polled_of_run hstart
  have hcalm : s.Calm h := by
    refine ⟨hpolled, hshort, fun he => ?_⟩
    rw [Firmware.phase, he] at hsta
    cases hsta
  have hnone : t.Calm h' ∧ .erase ∉ Machine.trace Firmware.step Firmware.event s bs := by
    refine Machine.run_induction
      (motive := fun bs p => p.1.Calm p.2 ∧ .erase ∉ Machine.trace Firmware.step Firmware.event s bs)
      ⟨hcalm, List.not_mem_nil⟩ ?_ hrun hok
    rintro bs a ⟨u, k⟩ ⟨v, k'⟩ hu _ ⟨hc, hno⟩ ha hv
    obtain ⟨hstep, rfl⟩ := Machine.monitored_eq_some.mp hv
    refine ⟨hc.step ha hstep, ?_⟩
    rw [Machine.trace_append (Machine.run_of_monitored hu),
      Machine.trace_singleton (Option.isSome_of_eq_some hstep)]
    intro hmem
    rcases List.mem_append.mp hmem with hmem | hmem
    · exact hno hmem
    · exact hc.event_ne_erase hstep (Option.mem_toList.mp hmem)
  have hstored : s.view.stored = some s.wifi.nvs := if_pos hnamed
  have hphase : s.view.phase ≠ .provisioning := by
    show s.phase ≠ .provisioning
    rw [hsta]
    simp
  obtain ⟨hkept, hnever⟩ := Lifecycle.run_configured hview hnone.2 (by rw [hstored]; rfl) hphase
  refine ⟨usable_eq_some (hkept.trans hstored), hnever, fun hon => ?_⟩
  have he : t.app.entered = true := hsound'.on.symm.trans hon
  have hin : t.InStation := by
    by_contra hno
    apply hnever
    show t.phase = .provisioning
    rw [Firmware.phase_of_entered he, if_neg hno]
  obtain ⟨hserver, hpost, _⟩ := hsound'.station he hin
  exact ⟨hin, hserver, hpost⟩

/-- After the first use the button is pressed for a second and the power lost. -/
def shortPress : List FirmwareAct :=
  (List.replicate 10 [.button (.level 0), .button (.err true)]).flatten ++ .powerLoss :: startUp 4

theorem station_until_reset_short_press :
    ∃ s h t h', Machine.run (Machine.monitored Firmware.step Firmware.notePolls)
        (.off emptyNvs, []) (firstUse ++ startUp 4) = some (s, h) ∧
      Machine.run (Machine.monitored Firmware.step Firmware.notePolls) (s, h) shortPress = some (t, h') ∧
      t.app = .ready ∧ t.InStation ∧ t.wifi.nvs = s.wifi.nvs := by
  have hcheck : ((Machine.run (Machine.monitored Firmware.step Firmware.notePolls) (.off emptyNvs, [])
      (firstUse ++ startUp 4)).bind fun p =>
        (Machine.run (Machine.monitored Firmware.step Firmware.notePolls) p shortPress).map fun q =>
          decide ((p.1.phase = .working ∧ p.1.wifi.nvs.Named ∧ streak low p.2 < 30 ∧
            Machine.Meets (Machine.monitored Firmware.step Firmware.notePolls)
              (fun p a => p.1.NoReset p.2 a) p shortPress) ∧ q.1.app = .ready ∧ q.1.wifi.on = true)) =
      some true := by decide +kernel
  obtain ⟨⟨s, h⟩, hstart, hcheck⟩ := Option.bind_eq_some_iff.mp hcheck
  obtain ⟨⟨t, h'⟩, hrun, hcheck⟩ := Option.map_eq_some_iff.mp hcheck
  obtain ⟨⟨hsta, hnamed, hshort, hok⟩, hready, hon⟩ := of_decide_eq_true hcheck
  obtain ⟨hkept, _, hstays⟩ := station_until_reset hstart hsta hnamed hshort hrun hok
  exact ⟨s, h, t, h', hstart, hrun, hready, (hstays hon).1, hkept⟩

/-! ## A long press -/

def FirmwareAct.ofButton : FirmwareAct → Bool
  | .button _ => true
  | _ => false

/-- `app_main` has got past the creation of the button's task. -/
def AppPc.watched : AppPc → Bool
  | .wifiInit | .inWifiInit | .tcpBridgeInit | .ready => true
  | _ => false

def Firmware.Watched (s : Firmware) : Prop := s.button ≠ none → s.app.watched = true

theorem appMain_watched {s t : Firmware} {a : AppAnswer} (h : appMain s a = some t) :
    t.app = .off ∧ t.button = none ∨
      t.app.watched = true ∧ (s.app.watched = true → t.button = s.button) ∨
      s.app.watched = false ∧ t.button = s.button := by
  cases appMain_step h with
  | failed => exact .inl ⟨rfl, rfl⟩
  | nvsFull hpc | nvsErased hpc => exact .inr (.inr ⟨by rw [hpc]; rfl, rfl⟩)
  | nvsReady hpc =>
    refine .inr (.inr ⟨?_, rfl⟩)
    rcases hpc with hpc | hpc
    · rw [hpc]
      rfl
    · rw [hpc]
      rfl
  | created hpc =>
    refine .inr (.inl ⟨rfl, fun hw => ?_⟩)
    rw [hpc] at hw
    cases hw
  | call hpc => exact .inr (.inl ⟨by rw [hpc]; rfl, fun _ => rfl⟩)
  | entered | returned | bridged => exact .inr (.inl ⟨rfl, fun _ => rfl⟩)

/-- Nothing but the button's task takes the task's steps; everything else leaves it alone or
ends the program. -/
theorem Firmware.Watched.step_button {s t : Firmware} {a : FirmwareAct} (hw : s.Watched)
    (hb : s.button ≠ none) (ha : a.ofButton = false) (hs : s.step a = some t) :
    t.app = .off ∨ t.button = s.button := by
  have hup := hw hb
  cases Firmware.stepTo hs with
  | powerOn => exact .inr rfl
  | powerLoss => exact .inl rfl
  | app _ hs' =>
    rcases appMain_watched hs' with ⟨hoff, _⟩ | ⟨_, hsame⟩ | ⟨_, hsame⟩
    · exact .inl hoff
    · exact .inr (hsame hup)
    · exact .inr hsame
  | button => cases ha
  | wifi _ hs' => exact ((wifiTasks_frame hs').imp And.right And.left).symm
  | bridge => exact .inr rfl

theorem Firmware.Watched.step {s t : Firmware} {a : FirmwareAct} (hw : s.Watched)
    (hs : s.step a = some t) : t.Watched := by
  intro hb
  cases Firmware.stepTo hs with
  | powerOn hoff =>
    have hup := hw hb
    rw [hoff] at hup
    cases hup
  | powerLoss => exact absurd rfl hb
  | app _ hs' =>
    rcases appMain_watched hs' with ⟨_, hnone⟩ | ⟨hup, _⟩ | ⟨hno, hsame⟩
    · exact absurd hnone hb
    · exact hup
    · exact absurd (hw (hsame ▸ hb)) (by simp [hno])
  | button _ hs' =>
    cases resetButton_step hs' with
    | poll hb' | call _ _ hb' => exact hw (by simp [hb'])
    | erase hb' ok =>
      have hup := hw (by simp [hb'])
      cases ok <;> exact hup
    | restart => exact absurd rfl hb
  | wifi _ hs' =>
    rcases wifiTasks_frame hs' with ⟨happ, hsame⟩ | ⟨_, hnone⟩
    · rw [happ]
      exact hw (hsame ▸ hb)
    · exact absurd hnone hb
  | bridge => exact hw hb

/-- What the task does from the thirtieth low level on. -/
def resetCalls : List ButtonCall := (pollButton checkInterval resetHoldTimeMs 2900 0).2

/-- The task has made the first `n` of these calls. -/
structure Firmware.Resetting (s : Firmware) (n : Nat) : Prop where
  watched : s.Watched
  button : ∃ holdTime, s.button = some ⟨holdTime, resetCalls.drop n⟩
  left : n < resetCalls.length

theorem Firmware.event_of_off {s t : Firmware} {a : FirmwareAct} (hs : s.step a = some t)
    (hoff : t.app = .off) : s.event a = some .stop := by
  rw [Firmware.event, hs]
  exact if_pos hoff

theorem resetCalls_length : resetCalls.length = 7 := by decide

/-- The task's own step makes the next of the calls, and the last of them is the restart. -/
theorem Firmware.Resetting.resetButton {s t : Firmware} {n : Nat} {a : ButtonAnswer}
    (hr : s.Resetting n) (hs : resetButton s a = some t) (hon : t.app ≠ .off) :
    t.Resetting (n + 1) ∧ (n = 2 → a = .err false ∨ s.event (.button a) = some .erase) := by
  have hwatched : t.Watched := hr.watched.step (a := .button a) hs
  obtain ⟨holdTime, hb⟩ := hr.button
  have hn := hr.left
  rw [List.drop_eq_getElem_cons hn] at hb
  have hleft : resetCalls[n] ≠ .espRestart → n + 1 < resetCalls.length := by
    intro hcall
    rw [resetCalls_length]
    rcases (Nat.succ_le_of_lt (resetCalls_length ▸ hn)).lt_or_eq with hlt | heq
    · exact hlt
    · obtain rfl : n = 6 := Nat.succ.inj heq
      exact absurd rfl hcall
  cases resetButton_step hs with
  | poll hb' =>
    rw [hb] at hb'
    cases hb'
  | restart hb' => exact absurd rfl hon
  | erase hb' ok =>
    rw [hb] at hb'
    obtain ⟨rfl, hlist⟩ := ButtonRun.mk.inj (Option.some.inj hb')
    obtain ⟨hcall, rfl⟩ := List.cons.inj hlist
    refine ⟨⟨hwatched, ⟨_, rfl⟩, hleft (by rw [hcall]; simp)⟩, fun _ => ?_⟩
    cases ok with
    | false => exact .inl rfl
    | true =>
      refine .inr ?_
      rw [Firmware.event, show s.step (.button (.err true)) = _ from hs]
      dsimp only
      rw [if_neg hon, Firmware.eventOf, hb, hcall]
  | call hrestart herase hb' ok =>
    rw [hb] at hb'
    obtain ⟨rfl, hlist⟩ := ButtonRun.mk.inj (Option.some.inj hb')
    obtain ⟨hcall, rfl⟩ := List.cons.inj hlist
    refine ⟨⟨hwatched, ⟨_, rfl⟩, hleft (by rwa [hcall])⟩, ?_⟩
    rintro rfl
    exact absurd hcall.symm herase

theorem Firmware.Resetting.step {s t : Firmware} {n : Nat} {a : FirmwareAct} (hr : s.Resetting n)
    (hs : s.step a = some t) (hup : s.event a ≠ some .stop) :
    t.Resetting (n + (if a.ofButton then 1 else 0)) ∧
      (a.ofButton = true → n = 2 → a = .button (.err false) ∨ s.event a = some .erase) := by
  have hon : t.app ≠ .off := fun hoff => hup (Firmware.event_of_off hs hoff)
  by_cases ha : a.ofButton = true
  · obtain ⟨b, rfl⟩ : ∃ b, a = .button b := by
      cases a with
      | button b => exact ⟨b, rfl⟩
      | _ => cases ha
    obtain ⟨hnext, herase⟩ := hr.resetButton hs hon
    exact ⟨hnext, fun _ hn => (herase hn).imp (congrArg _) id⟩
  · have hno : a.ofButton = false := by simpa using ha
    obtain ⟨holdTime, hb⟩ := hr.button
    have hsame : t.button = s.button :=
      (hr.watched.step_button (by simp [hb]) hno hs).resolve_left hon
    rw [if_neg ha]
    exact ⟨⟨hr.watched.step hs, ⟨holdTime, hsame.trans hb⟩, hr.left⟩, fun hof => absurd hof ha⟩

def buttonSteps (as : List FirmwareAct) : Nat := as.countP FirmwareAct.ofButton

theorem buttonSteps_concat (as : List FirmwareAct) (a : FirmwareAct) :
    buttonSteps (as ++ [a]) = buttonSteps as + (if a.ofButton then 1 else 0) := by
  rw [buttonSteps, List.countP_append, List.countP_singleton, buttonSteps]

theorem Firmware.Resetting.run {s t : Firmware} {as : List FirmwareAct} (hr : s.Resetting 0)
    (hrun : Machine.run Firmware.step s as = some t)
    (hup : .stop ∉ Machine.trace Firmware.step Firmware.event s as) :
    t.Resetting (buttonSteps as) ∧ (2 < buttonSteps as → .button (.err false) ∉ as →
      .erase ∈ Machine.trace Firmware.step Firmware.event s as) := by
  refine Machine.run_induction (motive := fun as u => u.Resetting (buttonSteps as) ∧
      (2 < buttonSteps as → .button (.err false) ∉ as →
        .erase ∈ Machine.trace Firmware.step Firmware.event s as)) ?_ ?_ hrun
    (Machine.meets_of_not_mem_trace hup)
  · exact ⟨hr, fun h => absurd h (Nat.not_lt_zero 2)⟩
  intro as a u v hu _ hi ha hv
  obtain ⟨hr', hdone⟩ := hi
  obtain ⟨hnext, herase⟩ := hr'.step hv ha
  rw [buttonSteps_concat, Machine.trace_append hu, Machine.trace_singleton (Option.isSome_of_eq_some hv)]
  refine ⟨hnext, fun h hok => ?_⟩
  have hok' : .button (.err false) ∉ as := fun hmem => hok (List.mem_append_left [a] hmem)
  by_cases hlt : 2 < buttonSteps as
  · exact List.mem_append_left _ (hdone hlt hok')
  · by_cases hof : a.ofButton = true
    · rw [if_pos hof] at h
      rcases herase hof (by omega) with rfl | he
      · exact absurd (by simp) hok
      · rw [he]
        exact List.mem_append_right _ (by simp)
    · rw [if_neg hof] at h
      exact absurd h hlt

theorem watched_of_run {nvs : WifiStaConfig} {s : Firmware} {as : List FirmwareAct}
    (hrun : Machine.run Firmware.step (.off nvs) as = some s) : s.Watched := by
  have hok : Machine.Meets Firmware.step (fun _ _ => True) (.off nvs) as :=
    Machine.meets_of_forall (fun _ _ => trivial) _ _
  have hoff : (Firmware.off nvs).Watched := fun h => absurd rfl h
  exact Machine.invariant_of_meets (fun _ _ _ hi _ hs => hi.step hs) hoff hrun hok

theorem resetting_of_press {nvs : WifiStaConfig} {s : Firmware} {h : List Int}
    {as : List FirmwareAct} {level : Int}
    (hstart : Machine.run (Machine.monitored Firmware.step Firmware.notePolls) (.off nvs, [])
      (as ++ [.button (.level level)]) = some (s, h)) (hheld : 30 ≤ streak low h) : s.Resetting 0 := by
  obtain ⟨⟨u, k⟩, hu, hs⟩ := Machine.run_concat.mp hstart
  obtain ⟨hstep, rfl⟩ := Machine.monitored_eq_some.mp hs
  have hwatched := watched_of_run (Machine.run_of_monitored hstart)
  cases resetButton_step hstep with
  | @poll holdTime hb =>
    have hpolled := polled_of_run hu _ hb
    have hgoes : streak low k < 30 := by
      by_contra hge
      exact absurd (hpolled.restarts (not_lt.mp hge)) List.not_mem_nil
    have hlow : low level = true := by
      by_contra hhigh
      rw [Firmware.notePolls, streak_concat_neg hhigh] at hheld
      omega
    rw [Firmware.notePolls, streak_concat_pos hlow] at hheld
    have hlast : streak low k = 29 := by omega
    have hheldTime : holdTime = 2900 := calc
      holdTime = streak low k * checkInterval := hpolled.held
      _ = 29 * checkInterval := by rw [hlast]
      _ = 2900 := rfl
    obtain rfl : level = 0 := by simpa [low] using hlow
    subst hheldTime
    exact ⟨hwatched, ⟨_, rfl⟩, by rw [resetCalls_length]; decide⟩

/-- After the thirtieth low level in a row, whatever else happens, the task's seventh step
restarts the device, unless the program has ended before. If its calls have not failed, the
device then has no configuration, and does not go to work before it has been given one. -/
theorem long_press_resets {nvs : WifiStaConfig} {s t : Firmware} {h : List Int}
    {as bs : List FirmwareAct} {level : Int}
    (hstart : Machine.run (Machine.monitored Firmware.step Firmware.notePolls) (.off nvs, [])
      (as ++ [.button (.level level)]) = some (s, h))
    (hheld : 30 ≤ streak low h) (hrun : Machine.run Firmware.step s bs = some t)
    (hup : .stop ∉ Machine.trace Firmware.step Firmware.event s bs) :
    buttonSteps bs ≤ 6 ∧
      (buttonSteps bs = 6 →
        (∀ ok, t.step (.button (.err ok)) = some t.halt) ∧
        (.button (.err false) ∉ bs →
          (∀ x, .store x ∉ Machine.trace Firmware.step Firmware.event s bs) →
          ∀ cs u, Machine.run Firmware.step t.halt cs = some u →
            (∀ x, .store x ∉ Machine.trace Firmware.step Firmware.event t.halt cs) →
            ¬u.wifi.nvs.Named ∧ u.phase ≠ .working)) := by
  have hr := resetting_of_press hstart hheld
  obtain ⟨hr', herase⟩ := hr.run hrun hup
  have hleft := hr'.left
  rw [resetCalls_length] at hleft
  refine ⟨Nat.lt_succ_iff.mp hleft, fun hsix => ⟨fun ok => ?_, ?_⟩⟩
  · obtain ⟨holdTime, hb⟩ := hr'.button
    rw [hsix] at hb
    have hb' : t.button = some ⟨holdTime, [.espRestart]⟩ := hb
    show resetButton t (.err ok) = _
    simp only [EspPassthrough.resetButton, hb']
  · intro hok hstore cs u hu hstore'
    obtain ⟨hsound, _⟩ := (Firmware.off_sound nvs).run (Machine.run_of_monitored hstart)
    obtain ⟨_, hview⟩ := hsound.run hrun
    obtain ⟨_, hview'⟩ := t.halt_sound.run hu
    have hnone : t.halt.view.stored = none := by
      show t.view.stored = none
      rw [Lifecycle.run_stored hview]
      exact Lifecycle.written_of_erase (herase (by omega) hok) hstore
    have hoff : t.halt.view.phase ≠ .working := by
      show Phase.off ≠ .working
      simp
    obtain ⟨hnone', hphase⟩ := Lifecycle.run_unconfigured hview' hstore' hnone hoff
    refine ⟨fun hnamed => ?_, hphase⟩
    rw [← usable_isSome, show u.wifi.nvs.usable = none from hnone'] at hnamed
    cases hnamed

/-- After the first use the button is held for 2.9 seconds; every second of it makes one call
more. -/
def longPress : List FirmwareAct :=
  firstUse ++ startUp 4 ++ (List.range 29).flatMap fun n =>
    .button (.level 0) :: List.replicate (if 10 ∣ n + 1 then 2 else 1) (.button (.err true))

theorem long_press_resets_configured :
    ∃ s h t, Machine.run (Machine.monitored Firmware.step Firmware.notePolls) (.off emptyNvs, [])
        (longPress ++ [.button (.level 0)]) = some (s, h) ∧ s.wifi.nvs.Named ∧
      Machine.run Firmware.step s (List.replicate 6 (.button (.err true))) = some t ∧
      t.step (.button (.err true)) = some t.halt ∧ ¬t.halt.wifi.nvs.Named := by
  have hcheck : ((Machine.run (Machine.monitored Firmware.step Firmware.notePolls) (.off emptyNvs, [])
      (longPress ++ [.button (.level 0)])).bind fun p =>
        (Machine.run Firmware.step p.1 (List.replicate 6 (.button (.err true)))).map fun _ =>
          decide (p.1.wifi.nvs.Named ∧ 30 ≤ streak low p.2 ∧
            Machine.trace Firmware.step Firmware.event p.1 (List.replicate 6 (.button (.err true))) =
              [.erase])) = some true := by decide +kernel
  obtain ⟨⟨s, h⟩, hstart, hcheck⟩ := Option.bind_eq_some_iff.mp hcheck
  obtain ⟨t, hrun, hcheck⟩ := Option.map_eq_some_iff.mp hcheck
  obtain ⟨hnamed, hheld, htrace⟩ := of_decide_eq_true hcheck
  obtain ⟨_, hsix⟩ := long_press_resets hstart hheld hrun (by rw [htrace]; simp)
  obtain ⟨hrestart, hgone⟩ := hsix rfl
  exact ⟨s, h, t, hstart, hnamed, hrun, hrestart true,
    (hgone (by simp [List.replicate]) (by rw [htrace]; simp) [] t.halt rfl fun _ => List.not_mem_nil).1⟩

end EspPassthrough
