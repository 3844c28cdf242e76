import Mathlib.Data.List.Induction
import Mathlib.Tactic.Common

/-! Runs of a machine given by a partial step function. A label carries what
the environment answers; `none` means that the label is not enabled. -/

namespace Machine

variable {σ τ ι ο : Type*}

def run (step : σ → ι → Option σ) : σ → List ι → Option σ
  | s, [] => some s
  | s, a :: as => (step s a).bind fun t => run step t as

/-- Every step of the run satisfies `ok` in the state it is taken from. -/
def Meets (step : σ → ι → Option σ) (ok : σ → ι → Prop) : σ → List ι → Prop
  | _, [] => True
  | s, a :: as => ok s a ∧ ∀ t, step s a = some t → Meets step ok t as

instance decidableMeets (step : σ → ι → Option σ) (ok : σ → ι → Prop)
    [∀ s a, Decidable (ok s a)] : ∀ s as, Decidable (Meets step ok s as)
  | _, [] => isTrue trivial
  | s, a :: as =>
    match h : step s a with
    | none => decidable_of_iff (ok s a) (by simp [Meets, h])
    | some t =>
      have := decidableMeets step ok t as
      decidable_of_iff (ok s a ∧ Meets step ok t as) (by simp [Meets, h])

def total (step : σ → ι → Option σ) (cost : σ → ι → Nat) : σ → List ι → Nat
  | _, [] => 0
  | s, a :: as => cost s a + ((step s a).map fun t => total step cost t as).getD 0

section Partial

variable {step : σ → ι → Option σ} {ok : σ → ι → Prop} {s t : σ}

theorem run_append (s : σ) (as bs : List ι) :
    run step s (as ++ bs) = (run step s as).bind fun t => run step t bs := by
  induction as generalizing s with
  | nil => rfl
  | cons a as ih =>
    cases h : step s a with
    | none => simp [run, h]
    | some t => simp [run, h, ih]

theorem run_concat {as : List ι} {a : ι} :
    run step s (as ++ [a]) = some t ↔ ∃ u, run step s as = some u ∧ step u a = some t := by
  simp [run_append, run, Option.bind_eq_some_iff]

theorem exists_of_run {α : Type*} {start : Option σ} {as : List ι} {f : σ → α} {x : α}
    (h : (start.bind fun s => run step s as).map f = some x) :
    ∃ s t, start = some s ∧ run step s as = some t ∧ f t = x := by
  obtain ⟨t, ht, hx⟩ := Option.map_eq_some_iff.mp h
  obtain ⟨s, hs, hr⟩ := Option.bind_eq_some_iff.mp ht
  exact ⟨s, t, hs, hr, hx⟩

theorem meets_append {as bs : List ι} :
    Meets step ok s (as ++ bs) ↔
      Meets step ok s as ∧ ∀ u, run step s as = some u → Meets step ok u bs := by
  induction as generalizing s with
  | nil => simp [Meets, run]
  | cons a as ih =>
    cases h : step s a with
    | none => simp [Meets, run, h]
    | some u => simp [Meets, run, h, ih, and_assoc]

theorem meets_concat {as : List ι} {a : ι} :
    Meets step ok s (as ++ [a]) ↔
      Meets step ok s as ∧ ∀ u, run step s as = some u → ok u a := by
  simp [meets_append, Meets]

theorem meets_concat_iff {as : List ι} {a : ι} (h : run step s as = some t) :
    Meets step ok s (as ++ [a]) ↔ Meets step ok s as ∧ ok t a := by
  simp [meets_concat, h]

theorem meets_and {ok' : σ → ι → Prop} {as : List ι} :
    Meets step (fun s a => ok s a ∧ ok' s a) s as ↔ Meets step ok s as ∧ Meets step ok' s as := by
  induction as generalizing s with
  | nil => simp [Meets]
  | cons a as ih =>
    constructor
    · intro h
      exact ⟨⟨h.1.1, fun t ht => (ih.mp (h.2 t ht)).1⟩, h.1.2, fun t ht => (ih.mp (h.2 t ht)).2⟩
    · intro h
      exact ⟨⟨h.1.1, h.2.1⟩, fun t ht => ih.mpr ⟨h.1.2 t ht, h.2.2 t ht⟩⟩

theorem meets_of_forall (h : ∀ s a, ok s a) (s : σ) (as : List ι) : Meets step ok s as := by
  induction as generalizing s with
  | nil => trivial
  | cons a as ih => exact ⟨h s a, fun t _ => ih t⟩

theorem meets_of_forall_mem {as : List ι} (h : ∀ a ∈ as, ∀ s, ok s a) (s : σ) : Meets step ok s as := by
  induction as generalizing s with
  | nil => trivial
  | cons a as ih =>
    exact ⟨h a List.mem_cons_self s, fun t _ => ih (fun b hb => h b (List.mem_cons_of_mem a hb)) t⟩

theorem total_concat {cost : σ → ι → Nat} {as : List ι} {a : ι} (h : run step s as = some t) :
    total step cost s (as ++ [a]) = total step cost s as + cost t a := by
  induction as generalizing s with
  | nil =>
    obtain rfl : s = t := Option.some.inj h
    cases hs : step s a <;> simp [total, hs]
  | cons b as ih =>
    cases hs : step s b with
    | none => simp [run, hs] at h
    | some u =>
      have hu : run step u as = some t := by simpa [run, hs] using h
      simp only [List.cons_append, total, hs, Option.map_some, Option.getD_some, ih hu]
      omega

/-- Induction along a run whose steps meet a condition; the motive may speak of
the labels seen so far. -/
theorem run_induction {motive : List ι → σ → Prop} (hstart : motive [] s)
    (hstep : ∀ as a u v, run step s as = some u → Meets step ok s as → motive as u →
      ok u a → step u a = some v → motive (as ++ [a]) v)
    {as : List ι} (hrun : run step s as = some t) (hok : Meets step ok s as) : motive as t := by
  induction as using List.reverseRecOn generalizing t with
  | nil =>
    obtain rfl : s = t := Option.some.inj hrun
    exact hstart
  | append_singleton as a ih =>
    obtain ⟨u, hu, ht⟩ := run_concat.mp hrun
    obtain ⟨hm, ha⟩ := meets_concat.mp hok
    exact hstep as a u t hu hm (ih hu hm) (ha u hu) ht

theorem invariant_of_meets {Inv : σ → Prop}
    (hstep : ∀ u a v, Inv u → ok u a → step u a = some v → Inv v)
    {as : List ι} (hs : Inv s) (hrun : run step s as = some t) (hok : Meets step ok s as) :
    Inv t :=
  run_induction (motive := fun _ => Inv) hs (fun _ a u v _ _ hu ha hv => hstep u a v hu ha hv)
    hrun hok

/-- A run costs no more than what it takes away from a potential. -/
theorem total_add_le {Inv : σ → Prop} {cost : σ → ι → Nat} {potential : σ → Nat}
    (hstep : ∀ u a v, Inv u → ok u a → step u a = some v →
      Inv v ∧ cost u a + potential v ≤ potential u)
    {as : List ι} (hs : Inv s) (hrun : run step s as = some t) (hok : Meets step ok s as) :
    Inv t ∧ total step cost s as + potential t ≤ potential s := by
  refine run_induction
    (motive := fun as u => Inv u ∧ total step cost s as + potential u ≤ potential s)
    ⟨hs, by simp [total]⟩ ?_ hrun hok
  intro as a u v hu _ hi ha hv
  obtain ⟨hinv, hle⟩ := hi
  obtain ⟨hinv', hle'⟩ := hstep u a v hinv ha hv
  refine ⟨hinv', ?_⟩
  rw [total_concat hu]
  omega

theorem run_mono {step' : σ → ι → Option σ} (h : ∀ s a t, step s a = some t → step' s a = some t)
    {as : List ι} (hrun : run step s as = some t) : run step' s as = some t := by
  induction as generalizing s with
  | nil => exact hrun
  | cons a as ih =>
    obtain ⟨u, hu, ht⟩ := Option.bind_eq_some_iff.mp hrun
    rw [run, h s a u hu, Option.bind_some]
    exact ih ht

/-- A label that always brings a machine closer to its goal takes it there. -/
theorem exists_replicate_run {a : ι} {Goal : σ → Prop} (measure : σ → Nat)
    (h : ∀ s, ¬Goal s → ∃ t, step s a = some t ∧ (Goal t ∨ measure t < measure s)) (s : σ) :
    ∃ n t, run step s (List.replicate n a) = some t ∧ Goal t := by
  induction hm : measure s using Nat.strongRecOn generalizing s with
  | ind m ih =>
    by_cases hgoal : Goal s
    · exact ⟨0, s, rfl, hgoal⟩
    obtain ⟨t, ht, hcloser⟩ := h s hgoal
    rcases hcloser with hgoal | hlt
    · exact ⟨1, t, by simp [run, ht], hgoal⟩
    · obtain ⟨n, u, hu, hgoal⟩ := ih (measure t) (hm ▸ hlt) t rfl
      exact ⟨n + 1, u, by rw [List.replicate_succ, run, ht, Option.bind_some, hu], hgoal⟩

end Partial

/-! A machine watched by a history that it does not depend on. -/

/-- The machine together with what is noted down about the steps it takes. -/
def monitored {α : Type*} (step : σ → ι → Option σ) (note : σ → ι → α → α) :
    σ × α → ι → Option (σ × α)
  | (s, x), a => (step s a).map fun t => (t, note s a x)

section Monitored

variable {α : Type*} {step : σ → ι → Option σ} {note : σ → ι → α → α} {s t : σ} {x y : α}

theorem monitored_eq_some {a : ι} :
    monitored step note (s, x) a = some (t, y) ↔ step s a = some t ∧ note s a x = y := by
  simp [monitored]

theorem run_of_monitored {as : List ι} (h : run (monitored step note) (s, x) as = some (t, y)) :
    run step s as = some t := by
  induction as generalizing s x with
  | nil =>
    obtain ⟨rfl, _⟩ := Prod.mk.inj (Option.some.inj h)
    rfl
  | cons a as ih =>
    obtain ⟨⟨u, z⟩, hu, ht⟩ := Option.bind_eq_some_iff.mp h
    rw [run, (monitored_eq_some.mp hu).1, Option.bind_some]
    exact ih ht

theorem exists_monitored_run {as : List ι} (h : run step s as = some t) (x : α) :
    ∃ y, run (monitored step note) (s, x) as = some (t, y) := by
  induction as generalizing s x with
  | nil => exact ⟨x, by rw [Option.some.inj h]; rfl⟩
  | cons a as ih =>
    obtain ⟨u, hu, ht⟩ := Option.bind_eq_some_iff.mp h
    obtain ⟨y, hy⟩ := ih ht (note s a x)
    exact ⟨y, by rw [run, monitored_eq_some.mpr ⟨hu, rfl⟩, Option.bind_some, hy]⟩

theorem exists_of_monitored {β : Type*} {start : Option σ} {as : List ι} {f : σ × α → β} {v : β}
    (h : (start.bind fun s => run (monitored step note) (s, x) as).map f = some v) :
    ∃ s t y, start = some s ∧ run (monitored step note) (s, x) as = some (t, y) ∧ f (t, y) = v := by
  obtain ⟨⟨t, y⟩, ht, hv⟩ := Option.map_eq_some_iff.mp h
  obtain ⟨s, hs, hr⟩ := Option.bind_eq_some_iff.mp ht
  exact ⟨s, t, y, hs, hr, hv⟩

theorem meets_monitored {ok : σ → ι → Prop} {as : List ι} (h : Meets step ok s as) (x : α) :
    Meets (monitored step note) (fun p => ok p.1) (s, x) as := by
  induction as generalizing s x with
  | nil => trivial
  | cons a as ih =>
    refine ⟨h.1, ?_⟩
    rintro ⟨u, z⟩ hu
    exact ih (h.2 u (monitored_eq_some.mp hu).1) z

theorem invariant_of_monitored {ok : σ → ι → Prop} {Inv : σ → α → Prop}
    (hstep : ∀ u a v z, Inv u z → ok u a → step u a = some v → Inv v (note u a z))
    {as : List ι} (hs : Inv s x) (hrun : run (monitored step note) (s, x) as = some (t, y))
    (hok : Meets step ok s as) : Inv t y := by
  refine run_induction (motive := fun _ p => Inv p.1 p.2) hs ?_ hrun (meets_monitored hok x)
  rintro _ a ⟨u, z⟩ ⟨v, z'⟩ _ _ hi ha hv
  obtain ⟨hstep', rfl⟩ := monitored_eq_some.mp hv
  exact hstep u a v z hi ha hstep'

theorem monitored_induction {motive : List ι → σ → α → Prop} (hstart : motive [] s x)
    (hstep : ∀ as a u v z, run (monitored step note) (s, x) as = some (u, z) → motive as u z →
      step u a = some v → motive (as ++ [a]) v (note u a z))
    {as : List ι} (hrun : run (monitored step note) (s, x) as = some (t, y)) : motive as t y := by
  refine run_induction (motive := fun as p => motive as p.1 p.2) hstart ?_ hrun
    (@meets_of_forall _ _ _ (fun _ _ => True) (fun _ _ => trivial) _ _)
  rintro as a ⟨u, z⟩ ⟨v, z'⟩ hu _ hm _ hv
  obtain ⟨hstep', rfl⟩ := monitored_eq_some.mp hv
  exact hstep as a u v z hu hm hstep'

end Monitored

/-! A machine seen from outside, where only some of its steps are events. -/

def trace {κ : Type*} (step : σ → ι → Option σ) (event : σ → ι → Option κ) : σ → List ι → List κ
  | _, [] => []
  | s, a :: as => (event s a).toList ++ ((step s a).map fun t => trace step event t as).getD []

section Simulation

variable {κ : Type*} {step : σ → ι → Option σ} {event : σ → ι → Option κ} {spec : τ → κ → Option τ}
  {view : σ → τ} {s t : σ}

@[simp] theorem trace_nil : trace step event s [] = [] := rfl

theorem trace_cons {a : ι} {as : List ι} :
    trace step event s (a :: as) =
      (event s a).toList ++ ((step s a).map fun t => trace step event t as).getD [] := rfl

theorem trace_append {as : List ι} (h : run step s as = some t) (bs : List ι) :
    trace step event s (as ++ bs) = trace step event s as ++ trace step event t bs := by
  induction as generalizing s with
  | nil =>
    obtain rfl : s = t := Option.some.inj h
    rfl
  | cons a as ih =>
    obtain ⟨u, hu, ht⟩ := Option.bind_eq_some_iff.mp h
    rw [List.cons_append, trace_cons, trace_cons, hu, Option.map_some, Option.getD_some,
      Option.map_some, Option.getD_some, ih ht, List.append_assoc]

theorem trace_singleton {a : ι} (h : (step s a).isSome) : trace step event s [a] = (event s a).toList := by
  obtain ⟨t, ht⟩ := Option.isSome_iff_exists.mp h
  simp [trace_cons, ht]

/-- What is not in the trace is no step's event. -/
theorem meets_of_not_mem_trace {x : κ} {as : List ι} (h : x ∉ trace step event s as) :
    Meets step (fun u a => event u a ≠ some x) s as := by
  induction as generalizing s with
  | nil => trivial
  | cons a as ih =>
    rw [trace_cons] at h
    refine ⟨fun he => h (by simp [he]), fun t ht => ih fun hmem => h ?_⟩
    rw [ht]
    exact List.mem_append_right _ hmem

/-- Forward simulation: where each step is matched by its event, or by nothing if it is
none, the trace of a run is a run of the specification. -/
theorem run_simulates {Inv : σ → Prop}
    (hstep : ∀ u a v, Inv u → step u a = some v →
      Inv v ∧ run spec (view u) (event u a).toList = some (view v))
    {as : List ι} (hs : Inv s) (hrun : run step s as = some t) :
    Inv t ∧ run spec (view s) (trace step event s as) = some (view t) := by
  induction as generalizing s with
  | nil =>
    obtain rfl : s = t := Option.some.inj hrun
    exact ⟨hs, rfl⟩
  | cons a as ih =>
    obtain ⟨u, hu, ht⟩ := Option.bind_eq_some_iff.mp hrun
    obtain ⟨hinv, hevent⟩ := hstep s a u hs hu
    obtain ⟨hend, hrest⟩ := ih hinv ht
    refine ⟨hend, ?_⟩
    rw [trace_cons, hu, Option.map_some, Option.getD_some, run_append, hevent, Option.bind_some, hrest]

end Simulation

section Hiding

variable {step : σ → ι → Option σ} {step' : τ → ι → Option τ} {view : σ → τ} {keep : ι → Bool} {s t : σ}

/-- Where a machine's steps are another's or leave alone what that one sees, its runs are
the other's once the labels of the latter are left out. -/
theorem run_filter
    (hkeep : ∀ s a t, keep a = true → step s a = some t → step' (view s) a = some (view t))
    (hhide : ∀ s a t, ¬keep a = true → step s a = some t → view t = view s)
    {as : List ι} (hrun : run step s as = some t) :
    run step' (view s) (as.filter keep) = some (view t) := by
  induction as generalizing s with
  | nil =>
    obtain rfl : s = t := Option.some.inj hrun
    rfl
  | cons a as ih =>
    obtain ⟨u, hu, ht⟩ := Option.bind_eq_some_iff.mp hrun
    by_cases ha : keep a = true
    · rw [List.filter_cons_of_pos ha, run, hkeep s a u ha hu, Option.bind_some]
      exact ih ht
    · rw [List.filter_cons_of_neg ha, ← hhide s a u ha hu]
      exact ih ht

/-- The way back: a run of the other machine is what is seen of a run of this one, where
each of its steps is seen of a few that come to rest again. -/
theorem exists_run_filter {Rest : σ → Prop}
    (hlift : ∀ s a y, Rest s → step' (view s) a = some y →
      ∃ as t, run step s as = some t ∧ as.filter keep = [a] ∧ view t = y ∧ Rest t)
    (hs : Rest s) {bs : List ι} {y : τ} (hrun : run step' (view s) bs = some y) :
    ∃ as t, run step s as = some t ∧ as.filter keep = bs ∧ view t = y ∧ Rest t := by
  induction bs generalizing s with
  | nil => exact ⟨[], s, rfl, rfl, Option.some.inj hrun, hs⟩
  | cons b bs ih =>
    obtain ⟨z, hz, hy⟩ := Option.bind_eq_some_iff.mp hrun
    obtain ⟨as₁, u, hu, hfirst, rfl, hrest⟩ := hlift s b z hs hz
    obtain ⟨as₂, t, ht, hmore, hend⟩ := ih hrest hy
    refine ⟨as₁ ++ as₂, t, ?_, ?_, hend⟩
    · rw [run_append, hu, Option.bind_some, ht]
    · rw [List.filter_append, hfirst, hmore, List.singleton_append]

end Hiding

/-- A sequence of calls on a machine that answers each of them. -/
def replies (call : σ → ι → σ × ο) : σ → List ι → σ × List ο
  | s, [] => (s, [])
  | s, a :: as => ((replies call (call s a).1 as).1, (call s a).2 :: (replies call (call s a).1 as).2)

/-- Forward simulation: a concrete machine whose every call keeps `Inv` and
answers like the abstract one has the same replies over any sequence of calls. -/
theorem replies_refine {call : σ → ι → σ × ο} {spec : τ → ι → τ × ο} {view : σ → τ}
    {Inv : σ → Prop} (hinv : ∀ s a, Inv s → Inv (call s a).1)
    (hview : ∀ s a, Inv s → spec (view s) a = (view (call s a).1, (call s a).2))
    (as : List ι) (s : σ) (hs : Inv s) :
    Inv (replies call s as).1 ∧
      replies spec (view s) as = (view (replies call s as).1, (replies call s as).2) := by
  induction as generalizing s with
  | nil => exact ⟨hs, rfl⟩
  | cons a as ih =>
    obtain ⟨hi, he⟩ := ih (call s a).1 (hinv s a hs)
    exact ⟨hi, by simp [replies, hview s a hs, he]⟩

end Machine
