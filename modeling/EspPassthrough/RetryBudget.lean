import EspPassthrough.WifiProv

/-! How many reconnects a new configuration gets before the handler gives up. -/

namespace EspPassthrough

open CText

/-- The event loop is about to log that the retries are used up. -/
def Device.Reports (s : Device) : Prop :=
  s.on = true ∧ ∃ creds, s.handler = .retryTest creds ∧ maxRetry ≤ s.retryNum

/-- A report after a configuration was accepted comes after all of its retries. -/
def Device.FullBudget (s : Device) : Prop :=
  s.Reports → ∀ b, s.budget = some b → maxRetry ≤ b.connects

/-- The event that is about to be counted, and the count it is added to. -/
def HandlerPc.counting : HandlerPc → Option (Nat × Nat)
  | .retryWrite creds read => some (creds, read)
  | _ => none

/-- The handler counts only events of the last accepted configuration, and on top
of the counter as it stands. -/
def Device.CountsOwn (s : Device) : DeviceAct → Prop
  | .eventLoop => ∀ r ∈ s.handler.counting, ∀ b ∈ s.budget, r.1 = b.creds ∧ r.2 = s.retryNum
  | _ => True

instance (s : Device) : ∀ a, Decidable (s.CountsOwn a)
  | .eventLoop => inferInstanceAs (Decidable
      (∀ r ∈ s.handler.counting, ∀ b ∈ s.budget, r.1 = b.creds ∧ r.2 = s.retryNum))
  | .powerOn _ => isTrue trivial
  | .powerLoss => isTrue trivial
  | .boot _ => isTrue trivial
  | .driver _ => isTrue trivial
  | .request _ _ => isTrue trivial
  | .httpd => isTrue trivial

/-- A retry for the given credentials that is counted but not yet made. -/
def HandlerPc.due (creds : Nat) : HandlerPc → Nat
  | .delayRead c => if c = creds then 1 else 0
  | .inDelay c _ => if c = creds then 1 else 0
  | .connect c => if c = creds then 1 else 0
  | _ => 0

def Device.Budgeted (s : Device) : Prop :=
  ∀ b, s.budget = some b → s.retryNum ≤ b.connects + s.handler.due b.creds

theorem Device.Budgeted.keep {s t : Device} (h : s.Budgeted) (hn : t.retryNum = s.retryNum)
    (hpc : t.handler = s.handler) (hb : t.budget = s.budget) : t.Budgeted := by
  intro b htb
  rw [hn, hpc]
  exact h b (hb ▸ htb)

theorem Device.Budgeted.of_zero {s : Device} (h : s.retryNum = 0) : s.Budgeted := by
  intro b _
  rw [h]
  exact Nat.zero_le _

theorem Device.Budgeted.move {s t : Device} (h : s.Budgeted) (hn : t.retryNum = s.retryNum)
    (hpc : ∀ creds, s.handler.due creds = t.handler.due creds) (hb : t.budget = s.budget) :
    t.Budgeted := by
  intro b htb
  rw [hn, ← hpc]
  exact h b (hb ▸ htb)

theorem Device.Budgeted.postCall {s : Device} (h : s.Budgeted) (call : PostCall) :
    (s.postCall call).Budgeted := by
  cases call with
  | resetRetryNum => exact .of_zero rfl
  | _ => exact h.keep rfl rfl rfl

theorem Device.Budgeted.httpdTask {s t : Device} (h : s.Budgeted) (hs : httpdTask s = some t) :
    t.Budgeted := by
  rcases httpdTask_cases hs with ⟨call, calls, exit, _, rfl⟩ | ⟨exit, _, rfl⟩
  · exact (h.postCall call).keep rfl rfl rfl
  · exact h.keep rfl rfl rfl

theorem Budget.count_due (b : Budget) (creds : Nat) :
    (b.count creds).creds = b.creds ∧
      (b.count creds).connects = b.connects + (HandlerPc.connect creds).due b.creds := by
  by_cases hc : creds = b.creds
  · simp [Budget.count, HandlerPc.due, hc]
  · simp [Budget.count, HandlerPc.due, hc]

theorem Device.Budgeted.wifiEventHandler {s t : Device} (h : s.Budgeted)
    (hok : s.CountsOwn .eventLoop) (hs : wifiEventHandler s = some t) : t.Budgeted := by
  cases wifiEventHandler_step hs with
  | @dispatch hpc e queue _ =>
    refine h.move rfl (fun creds => ?_) rfl
    rw [hpc]
    cases e <;> rfl
  | gotIpReset => exact .of_zero rfl
  | serverTest hpc =>
    refine h.move rfl (fun creds => ?_) rfl
    rw [hpc]
    dsimp only
    split <;> rfl
  | restart => exact h.keep rfl rfl rfl
  | retryTest hpc =>
    refine h.move rfl (fun creds => ?_) rfl
    rw [hpc]
    dsimp only
    split <;> rfl
  | @retryWrite creds read hpc =>
    intro b hb
    obtain ⟨hcreds, hread⟩ := hok (creds, read) (by rw [hpc]; rfl) b hb
    obtain rfl : creds = b.creds := hcreds
    obtain rfl : read = s.retryNum := hread
    have hle := h b hb
    simp only [hpc, HandlerPc.due, if_true] at hle ⊢
    omega
  | @connect creds hpc =>
    intro b hb
    obtain ⟨b', hb', rfl⟩ := Option.map_eq_some_iff.mp hb
    obtain ⟨_, hcount⟩ := b'.count_due creds
    have hle := h b' hb'
    rw [hpc] at hle
    rw [hcount]
    exact hle.trans (Nat.le_add_right _ _)
  | _ hpc => exact h.move rfl (fun creds => by rw [hpc]; rfl) rfl

theorem Device.Budgeted.step {s t : Device} {a : DeviceAct} (h : s.Budgeted) (hok : s.CountsOwn a)
    (hs : s.step a = some t) : t.Budgeted := by
  cases a with
  | powerOn after =>
    obtain ⟨_, rfl⟩ := by simpa [Device.step] using hs
    exact .of_zero rfl
  | powerLoss =>
    obtain ⟨_, rfl⟩ := by simpa [Device.step] using hs
    exact h.keep rfl rfl rfl
  | boot ok =>
    obtain ⟨call, calls, _, rfl⟩ := Device.step_boot hs
    cases call <;> exact h.keep rfl rfl rfl
  | driver e =>
    obtain ⟨_, rfl⟩ := by simpa [Device.step] using hs
    exact h.keep rfl rfl rfl
  | eventLoop =>
    obtain ⟨_, hs⟩ := by simpa [Device.step] using hs
    exact h.wifiEventHandler hok hs
  | request sdk req =>
    obtain ⟨_, rfl⟩ := by simpa [Device.step] using hs
    exact h.keep rfl rfl rfl
  | httpd =>
    obtain ⟨_, hs⟩ := by simpa [Device.step] using hs
    exact h.httpdTask hs

theorem Device.Budgeted.fullBudget {s : Device} (h : s.Budgeted) : s.FullBudget := by
  rintro ⟨_, creds, hpc, hmax⟩ b hb
  have hle := h b hb
  rw [hpc] at hle
  exact hmax.trans hle

/-- In a run in which the handler counts only disconnects of the last accepted
configuration, it gives up on that one after five retries and not before. -/
theorem new_config_full_budget {nvs : WifiStaConfig} {s : Device} {as : List DeviceAct}
    (hrun : Machine.run Device.step (.off nvs) as = some s)
    (hok : Machine.Meets Device.step Device.CountsOwn (.off nvs) as) : s.FullBudget := by
  have hstart : (Device.off nvs).Budgeted := .of_zero rfl
  have hend : s.Budgeted := Machine.invariant_of_meets
    (fun _ _ _ hi ha hs => Device.Budgeted.step hi ha hs) hstart hrun hok
  exact hend.fullBudget

def emptyNvs : WifiStaConfig := storedFor [] []

def bootSoftAp : List DeviceAct := .powerOn [] :: List.replicate 5 (.boot true)

def postForm (password : List UInt8) : List DeviceAct :=
  .request standardSdk (.single (pageBody (ascii "Home") password)) :: List.replicate 7 .httpd

/-- A failed attempt, and the handler's work on it up to the next attempt. -/
def failAndRetry (creds : Nat) : List DeviceAct :=
  .driver (.staDisconnected creds) :: List.replicate 7 .eventLoop

/-- The disconnect of a wrong password, still queued when the next one is posted,
takes a retry from it. -/
theorem stale_disconnect_takes_retry :
    ∃ as s, Machine.run Device.step (.off emptyNvs) as = some s ∧ s.Reports ∧
      s.budget = some ⟨2, 4⟩ ∧ ¬s.FullBudget := by
  have h : (Machine.run Device.step (.off emptyNvs)
      (bootSoftAp ++ postForm (ascii "wrong") ++ [.driver (.staDisconnected 1)] ++
        postForm (ascii "right") ++ List.replicate 7 .eventLoop ++
        (List.replicate 4 (failAndRetry 2)).flatten ++
        [.driver (.staDisconnected 2), .eventLoop])).map
      (fun s => (s.on, s.handler, s.retryNum, s.budget)) =
        some (true, .retryTest 2, 5, some ⟨2, 4⟩) := by decide +kernel
  obtain ⟨s, hrun, he⟩ := Option.map_eq_some_iff.mp h
  simp only [Prod.mk.injEq] at he
  obtain ⟨hon, hpc, hnum, hbudget⟩ := he
  have hreport : s.Reports := ⟨hon, 2, hpc, hnum.ge⟩
  refine ⟨_, s, hrun, hreport, hbudget, ?_⟩
  intro hfull
  exact absurd (hfull hreport _ hbudget) (by decide)

theorem new_config_full_budget_reported :
    ∃ s, Machine.run Device.step (.off emptyNvs)
        (bootSoftAp ++ postForm (ascii "wrong") ++ (List.replicate 5 (failAndRetry 1)).flatten ++
          [.driver (.staDisconnected 1), .eventLoop]) = some s ∧
      s.Reports ∧ s.budget = some ⟨1, 5⟩ ∧ s.FullBudget := by
  have h : (Machine.run Device.step (.off emptyNvs)
      (bootSoftAp ++ postForm (ascii "wrong") ++ (List.replicate 5 (failAndRetry 1)).flatten ++
        [.driver (.staDisconnected 1), .eventLoop])).map
      (fun s => (s.on, s.handler, s.retryNum, s.budget)) =
        some (true, .retryTest 1, 5, some ⟨1, 5⟩) := by decide +kernel
  obtain ⟨s, hrun, he⟩ := Option.map_eq_some_iff.mp h
  simp only [Prod.mk.injEq] at he
  obtain ⟨hon, hpc, hnum, hbudget⟩ := he
  exact ⟨s, hrun, ⟨hon, 1, hpc, hnum.ge⟩, hbudget,
    new_config_full_budget hrun (by decide +kernel)⟩

end EspPassthrough
