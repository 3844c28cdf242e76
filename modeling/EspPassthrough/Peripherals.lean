import EspPassthrough.CText
import EspPassthrough.Machine
import EspPassthrough.Streak
import Mathlib.Algebra.Order.Floor.Div

/-! `reset_button_task` of `peripherals.c`, from the levels it polls to the calls
it makes. -/

namespace EspPassthrough

open CText Streak

def resetHoldTimeMs : Nat := 3000

def checkInterval : Nat := 100

inductive ButtonCall where
  | log (text : List UInt8)
  | nvsFlashErase
  | nvsFlashInit
  | vTaskDelay (ms : Nat)
  | espRestart
  deriving DecidableEq

/-- One turn of the loop: `hold_time` at its end, and the calls. -/
def pollButton (interval threshold holdTime : Nat) (level : Int) : Nat × List ButtonCall :=
  if level = 0 then
    let holdTime := holdTime + interval
    (holdTime,
      (if holdTime > 0 ∧ holdTime % 1000 = 0 then
        [.log (ascii "Button held for " ++ formatInt holdTime ++ ascii " ms...")] else []) ++
      if holdTime ≥ threshold then
        [.log (ascii "Factory Reset Triggered via Button!"), .nvsFlashErase, .nvsFlashInit,
          .log (ascii "WiFi credentials erased. Rebooting in 3 seconds..."), .vTaskDelay 3000,
          .espRestart]
      else [.vTaskDelay interval])
  else (0, [.vTaskDelay interval])

structure ButtonTask where
  holdTime : Nat
  restarted : Bool
  deriving DecidableEq

def ButtonTask.start : ButtonTask := ⟨0, false⟩

/-- `esp_restart` does not return, so that no level is polled after it. -/
def resetButtonTask (interval threshold : Nat) (s : ButtonTask) (level : Int) : Option ButtonTask :=
  if s.restarted then none
  else
    let r := pollButton interval threshold s.holdTime level
    some ⟨r.1, decide (.espRestart ∈ r.2)⟩

/-- The turn that polls the sample at index `n` makes the call. -/
def CallsAt (interval threshold : Nat) (samples : List Int) (n : Nat) (call : ButtonCall) : Prop :=
  ∃ s level, Machine.run (resetButtonTask interval threshold) .start (samples.take n) = some s ∧
    s.restarted = false ∧ samples[n]? = some level ∧
    call ∈ (pollButton interval threshold s.holdTime level).2

/-- FLASH pulls the pin to ground. -/
def low (level : Int) : Bool := level == 0

theorem mem_pollButton {interval threshold holdTime : Nat} {level : Int} {call : ButtonCall}
    (h : call = .nvsFlashErase ∨ call = .espRestart) :
    call ∈ (pollButton interval threshold holdTime level).2 ↔
      low level = true ∧ threshold ≤ holdTime + interval := by
  have hlow : low level = true ↔ level = 0 := by simp [low]
  rw [hlow]
  by_cases hl : level = 0
  · by_cases hreach : threshold ≤ holdTime + interval
    · rcases h with rfl | rfl
      · simp [pollButton, hl, hreach]
      · simp [pollButton, hl, hreach]
    · rcases h with rfl | rfl
      · simp [pollButton, hl, hreach]
      · simp [pollButton, hl, hreach]
  · rcases h with rfl | rfl
    · simp [pollButton, hl]
    · simp [pollButton, hl]

theorem pollButton_low {interval threshold holdTime : Nat} {level : Int} (h : low level = true) :
    (pollButton interval threshold holdTime level).1 = holdTime + interval := by
  have hl : level = 0 := by simpa [low] using h
  rw [pollButton, if_pos hl]

theorem pollButton_high {interval threshold holdTime : Nat} {level : Int} (h : ¬low level = true) :
    (pollButton interval threshold holdTime level).1 = 0 := by
  have hl : ¬level = 0 := by simpa [low] using h
  rw [pollButton, if_neg hl]

/-- The task as it should be after the samples: `hold_time` measures their streak of
low levels, and the restart comes once that is long enough. -/
def ButtonTask.measured (interval threshold : Nat) (samples : List Int) : ButtonTask :=
  ⟨streak low samples * interval, decide (threshold ⌈/⌉ interval ≤ streak low samples)⟩

section

variable {interval threshold : Nat} {samples : List Int}

theorem pollButton_holdTime (level : Int) :
    (pollButton interval threshold (streak low samples * interval) level).1 =
      streak low (samples ++ [level]) * interval := by
  by_cases hl : low level = true
  · rw [pollButton_low hl, streak_concat_pos hl, Nat.succ_mul]
  · rw [pollButton_high hl, streak_concat_neg hl, Nat.zero_mul]

theorem needed_pos (hi : 0 < interval) (ht : 0 < threshold) : 0 < threshold ⌈/⌉ interval := by
  rw [← not_le, ceilDiv_le_iff_le_mul hi]
  omega

theorem pollButton_fires (hi : 0 < interval) (ht : 0 < threshold) {call : ButtonCall}
    (hcall : call = .nvsFlashErase ∨ call = .espRestart) (level : Int) :
    call ∈ (pollButton interval threshold (streak low samples * interval) level).2 ↔
      threshold ⌈/⌉ interval ≤ streak low (samples ++ [level]) := by
  rw [mem_pollButton hcall]
  by_cases hl : low level = true
  · rw [and_iff_right hl, streak_concat_pos hl, ceilDiv_le_iff_le_mul hi, Nat.mul_succ,
      Nat.mul_comm interval]
  · have hpos := needed_pos hi ht
    rw [streak_concat_neg hl]
    exact ⟨fun h => absurd h.1 hl, fun h => absurd h (by omega)⟩

theorem resetButtonTask_measured (hi : 0 < interval) (ht : 0 < threshold) (level : Int)
    (t : ButtonTask) :
    resetButtonTask interval threshold (.measured interval threshold samples) level = some t ↔
      streak low samples < threshold ⌈/⌉ interval ∧
        t = .measured interval threshold (samples ++ [level]) := by
  by_cases hlt : streak low samples < threshold ⌈/⌉ interval
  · have hgoes : ¬(ButtonTask.measured interval threshold samples).restarted = true := by
      simpa [ButtonTask.measured] using hlt
    have hfires := @pollButton_fires _ _ samples hi ht _ (.inr rfl) level
    rw [resetButtonTask, if_neg hgoes, and_iff_right hlt, Option.some.injEq, eq_comm]
    simp only [ButtonTask.measured, pollButton_holdTime, hfires]
  · have hgone : (ButtonTask.measured interval threshold samples).restarted = true := by
      simpa [ButtonTask.measured] using hlt
    rw [resetButtonTask, if_pos hgone]
    constructor
    · intro h
      cases h
    · intro h
      exact absurd h.1 hlt

/-- The task polls until there has been a long enough streak, and is gone after it. -/
theorem run_resetButtonTask (hi : 0 < interval) (ht : 0 < threshold) {s : ButtonTask} :
    Machine.run (resetButtonTask interval threshold) .start samples = some s ↔
      Fresh low (threshold ⌈/⌉ interval) samples ∧ s = .measured interval threshold samples := by
  induction samples using List.reverseRecOn generalizing s with
  | nil =>
    have hstart : ButtonTask.measured interval threshold [] = .start := by
      have hpos := needed_pos hi ht
      simp only [ButtonTask.measured, ButtonTask.start, streak_nil, Nat.zero_mul, Nat.le_zero_eq,
        hpos.ne', decide_false]
    rw [hstart, and_iff_right fresh_nil, Machine.run, Option.some.injEq, eq_comm]
  | append_singleton samples level ih =>
    rw [Machine.run_concat, fresh_concat, and_assoc, ← resetButtonTask_measured hi ht]
    constructor
    · rintro ⟨u, hu, hs⟩
      obtain ⟨hfresh, rfl⟩ := ih.mp hu
      exact ⟨hfresh, hs⟩
    · rintro ⟨hfresh, hs⟩
      exact ⟨_, ih.mpr ⟨hfresh, rfl⟩, hs⟩

theorem holdTime_le (hi : 0 < interval) (ht : 0 < threshold) {s : ButtonTask}
    (h : Machine.run (resetButtonTask interval threshold) .start samples = some s) :
    s.holdTime ≤ threshold + interval - 1 := by
  obtain ⟨hfresh, rfl⟩ := (run_resetButtonTask hi ht).mp h
  calc streak low samples * interval
    _ ≤ threshold ⌈/⌉ interval * interval := Nat.mul_le_mul_right _ hfresh.streak_le
    _ ≤ threshold + interval - 1 := Nat.div_mul_le_self _ _

theorem callsAt_iff (hi : 0 < interval) (ht : 0 < threshold) (n : Nat) {call : ButtonCall}
    (hcall : call = .nvsFlashErase ∨ call = .espRestart) :
    CallsAt interval threshold samples n call ↔
      FirstHeld low (threshold ⌈/⌉ interval) samples n := by
  have htake : ∀ {level}, samples[n]? = some level → samples.take (n + 1) = samples.take n ++ [level] := by
    intro level hlevel
    rw [List.take_add_one, hlevel, Option.toList_some]
  constructor
  · rintro ⟨s, level, hrun, hgoes, hlevel, hmem⟩
    obtain ⟨hfresh, rfl⟩ := (run_resetButtonTask hi ht).mp hrun
    have hn : n < samples.length := (List.getElem?_eq_some_iff.mp hlevel).1
    have hlt : streak low (samples.take n) < threshold ⌈/⌉ interval := by
      simpa [ButtonTask.measured] using hgoes
    rw [firstHeld_iff (needed_pos hi ht) hn, htake hlevel, fresh_concat]
    exact ⟨⟨hfresh, hlt⟩, (pollButton_fires hi ht hcall level).mp hmem⟩
  · intro h
    have hn := h.1
    have hlevel := List.getElem?_eq_getElem hn
    rw [firstHeld_iff (needed_pos hi ht) hn, htake hlevel, fresh_concat] at h
    obtain ⟨⟨hfresh, hlt⟩, hle⟩ := h
    refine ⟨_, _, (run_resetButtonTask hi ht).mpr ⟨hfresh, rfl⟩, ?_, hlevel,
      (pollButton_fires hi ht hcall _).mpr hle⟩
    simpa [ButtonTask.measured] using hlt

/-- The factory reset happens at the end of the first press that is long enough, and
short presses do not add up to one. -/
theorem factory_reset_iff (hi : 0 < interval) (ht : 0 < threshold) (samples : List Int) :
    (∀ n, (CallsAt interval threshold samples n .nvsFlashErase ↔
        FirstHeld low (threshold ⌈/⌉ interval) samples n) ∧
      (CallsAt interval threshold samples n .espRestart ↔
        FirstHeld low (threshold ⌈/⌉ interval) samples n)) ∧
    ((∀ press, press <:+: samples → (∀ level ∈ press, low level = true) →
        press.length < threshold ⌈/⌉ interval) →
      ∀ n, ¬CallsAt interval threshold samples n .nvsFlashErase ∧
        ¬CallsAt interval threshold samples n .espRestart) ∧
    ∀ s, Machine.run (resetButtonTask interval threshold) .start samples = some s →
      s.holdTime ≤ threshold + interval - 1 := by
  refine ⟨fun n => ⟨callsAt_iff hi ht n (.inl rfl), callsAt_iff hi ht n (.inr rfl)⟩, ?_,
    fun s => holdTime_le hi ht⟩
  intro hshort n
  rw [callsAt_iff hi ht n (.inl rfl), callsAt_iff hi ht n (.inr rfl), and_self]
  rintro ⟨_, hheld, _⟩
  obtain ⟨press, hinfix, hlen, hlow⟩ := hheld.exists_infix
  exact absurd (hshort press hinfix hlow) (by omega)

end

/-- The button has to be down for thirty samples. -/
example : resetHoldTimeMs ⌈/⌉ checkInterval = 30 := rfl

/-- A bounce after 2.9 seconds, then a press of three seconds. -/
def bouncingPress : List Int := List.replicate 29 0 ++ 1 :: List.replicate 31 0

theorem factory_reset_iff_bouncing :
    CallsAt checkInterval resetHoldTimeMs bouncingPress 59 .nvsFlashErase ∧
      CallsAt checkInterval resetHoldTimeMs bouncingPress 59 .espRestart := by
  obtain ⟨hfires, _, _⟩ := factory_reset_iff (show 0 < checkInterval by decide)
    (show 0 < resetHoldTimeMs by decide) bouncingPress
  have hfirst : FirstHeld low (resetHoldTimeMs ⌈/⌉ checkInterval) bouncingPress 59 := by
    decide +kernel
  exact ⟨(hfires 59).1.mpr hfirst, (hfires 59).2.mpr hfirst⟩

end EspPassthrough
