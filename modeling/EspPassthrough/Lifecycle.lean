import EspPassthrough.Machine

/-! A device that keeps one configuration over its restarts. A start that finds none lets it
be configured, as often as one likes, and a start that finds one sends it to work. -/

inductive Phase where
  | off
  | starting
  | provisioning
  | working
  deriving DecidableEq

structure Lifecycle (α : Type*) where
  stored : Option α
  phase : Phase

namespace Lifecycle

variable {α : Type*}

/-- What happens to the device; a configuration that is stored may count as none. -/
inductive Event (α : Type*) where
  | start
  | enter
  | store (x : Option α)
  | erase
  | stop
  deriving DecidableEq

def step (s : Lifecycle α) : Event α → Option (Lifecycle α)
  | .start => if s.phase = .off then some { s with phase := .starting } else none
  | .enter =>
    if s.phase = .starting then
      some { s with phase := if s.stored.isSome then .working else .provisioning }
    else none
  | .store x => if s.phase = .provisioning then some { s with stored := x } else none
  | .erase => if s.phase ≠ .off then some { s with stored := none } else none
  | .stop => if s.phase ≠ .off then some { s with phase := .off } else none

def Event.write (x : Option α) : Event α → Option α
  | .store y => y
  | .erase => none
  | _ => x

/-- What the last write of a history has left in the store. -/
def written (x : Option α) (es : List (Event α)) : Option α := es.foldl Event.write x

section

variable {s t : Lifecycle α} {e : Event α} {es fs : List (Event α)}

theorem step_stored (h : step s e = some t) : t.stored = e.write s.stored := by
  cases e with
  | start | enter | store | erase | stop =>
    obtain ⟨_, rfl⟩ := by simpa [step] using h
    rfl

theorem run_stored (h : Machine.run step s es = some t) : t.stored = written s.stored es := by
  induction es generalizing s with
  | nil =>
    obtain rfl : s = t := Option.some.inj h
    rfl
  | cons e es ih =>
    obtain ⟨u, hu, ht⟩ := Option.bind_eq_some_iff.mp h
    rw [ih ht, step_stored hu]
    rfl

/-- Without a stop the phase that has been entered stays. -/
theorem run_phase (h : Machine.run step s es = some t) (hno : .stop ∉ es)
    (hphase : s.phase = .working ∨ s.phase = .provisioning) : t.phase = s.phase := by
  induction es generalizing s with
  | nil =>
    obtain rfl : s = t := Option.some.inj h
    rfl
  | cons e es ih =>
    obtain ⟨u, hu, ht⟩ := Option.bind_eq_some_iff.mp h
    have hsame : u.phase = s.phase := by
      cases e with
      | start | enter =>
        obtain ⟨hp, _⟩ := by simpa [step] using hu
        rcases hphase with he | he <;> rw [he] at hp <;> cases hp
      | store | erase =>
        obtain ⟨_, rfl⟩ := by simpa [step] using hu
        rfl
      | stop => exact absurd List.mem_cons_self hno
    rw [ih ht (fun hmem => hno (List.mem_cons_of_mem e hmem)) (by rwa [hsame]), hsame]

/-- The phase that a start leads to is decided by the last write before it. -/
theorem phase_of_enter (h : Machine.run step s (es ++ .enter :: fs) = some t) (hno : .stop ∉ fs) :
    t.phase = if (written s.stored es).isSome then .working else .provisioning := by
  rw [Machine.run_append] at h
  obtain ⟨u, hu, h⟩ := Option.bind_eq_some_iff.mp h
  obtain ⟨v, hv, ht⟩ := Option.bind_eq_some_iff.mp h
  rw [← run_stored hu]
  obtain ⟨_, rfl⟩ := by simpa [step] using hv
  rw [run_phase ht hno]
  by_cases hsome : u.stored.isSome
  · exact .inl (if_pos hsome)
  · exact .inr (if_neg hsome)

/-- A configured device that has left the start in which it was configured, and is not erased,
keeps its configuration over all restarts, and none of them lets it be configured. -/
theorem run_configured (h : Machine.run step s es = some t) (hno : .erase ∉ es)
    (hsome : s.stored.isSome) (hphase : s.phase ≠ .provisioning) :
    t.stored = s.stored ∧ t.phase ≠ .provisioning := by
  induction es generalizing s with
  | nil =>
    obtain rfl : s = t := Option.some.inj h
    exact ⟨rfl, hphase⟩
  | cons e es ih =>
    obtain ⟨u, hu, ht⟩ := Option.bind_eq_some_iff.mp h
    have hnext : u.stored = s.stored ∧ u.phase ≠ .provisioning := by
      cases e with
      | start | stop =>
        obtain ⟨_, rfl⟩ := by simpa [step] using hu
        exact ⟨rfl, by simp⟩
      | enter =>
        obtain ⟨_, rfl⟩ := by simpa [step] using hu
        exact ⟨rfl, by simp [hsome]⟩
      | store =>
        obtain ⟨hp, _⟩ := by simpa [step] using hu
        exact absurd hp hphase
      | erase => exact absurd List.mem_cons_self hno
    obtain ⟨hstored, hphase'⟩ := hnext
    obtain ⟨hend, hp⟩ := ih ht (fun hmem => hno (List.mem_cons_of_mem e hmem)) (by rwa [hstored]) hphase'
    exact ⟨hend.trans hstored, hp⟩

/-- A device without a configuration gets none but from outside. -/
theorem run_unconfigured (h : Machine.run step s es = some t) (hno : ∀ x, .store x ∉ es)
    (hnone : s.stored = none) (hphase : s.phase ≠ .working) :
    t.stored = none ∧ t.phase ≠ .working := by
  induction es generalizing s with
  | nil =>
    obtain rfl : s = t := Option.some.inj h
    exact ⟨hnone, hphase⟩
  | cons e es ih =>
    obtain ⟨u, hu, ht⟩ := Option.bind_eq_some_iff.mp h
    have hnext : u.stored = none ∧ u.phase ≠ .working := by
      cases e with
      | start | stop =>
        obtain ⟨_, rfl⟩ := by simpa [step] using hu
        exact ⟨hnone, by simp⟩
      | enter =>
        obtain ⟨_, rfl⟩ := by simpa [step] using hu
        exact ⟨hnone, by simp [hnone]⟩
      | store x => exact absurd List.mem_cons_self (hno x)
      | erase =>
        obtain ⟨_, rfl⟩ := by simpa [step] using hu
        exact ⟨rfl, hphase⟩
    exact ih ht (fun x hmem => hno x (List.mem_cons_of_mem e hmem)) hnext.1 hnext.2

/-- What has been erased stays so until something is stored. -/
theorem written_of_erase {x : Option α} (herase : .erase ∈ es) (hno : ∀ y, .store y ∉ es) :
    written x es = none := by
  have hnone : ∀ fs : List (Event α), (∀ y, .store y ∉ fs) → written none fs = none := by
    intro fs hfs
    induction fs with
    | nil => rfl
    | cons e fs ih =>
      have hrest := ih fun y hmem => hfs y (List.mem_cons_of_mem e hmem)
      cases e with
      | store y => exact absurd List.mem_cons_self (hfs y)
      | _ => exact hrest
  obtain ⟨fs, gs, rfl⟩ := List.append_of_mem herase
  rw [written, List.foldl_append, List.foldl_cons]
  exact hnone gs fun y hmem => hno y (List.mem_append_right _ (List.mem_cons_of_mem _ hmem))

end

end Lifecycle
