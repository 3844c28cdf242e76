import EspPassthrough.Accounting

/-! Waiting for the end of a session. The server takes the exit semaphore without
a timeout, so somebody has to be left who gives it: it relies on one of the two
tasks having been created, and on the tasks of earlier sessions being silent. -/

namespace EspPassthrough

/-- A task gives the semaphore right before it deletes itself. -/
def TaskPc.given {β : Type} : TaskPc β → Nat
  | .deleteSelf | .gone => 1
  | _ => 0

def Bridge.given (s : Bridge) : Nat :=
  (s.tcpToUart s.session).given + (s.bufferToTcp s.session).given

/-- The gives since the last semaphore was created, in a step from `s`. -/
def Bridge.countGives (s : Bridge) : Act → Nat → Nat
  | .server _, n => if s.server = .initSem then 0 else n
  | .tcpToUart k _, n => if s.tcpToUart k = .give then n + 1 else n
  | .bufferToTcp k _, n => if s.bufferToTcp k = .give then n + 1 else n
  | _, n => n

/-- If the server waits for the semaphore, it can be taken, or a task of the
session is there that has yet to give it. -/
def Bridge.WaitEnds (s : Bridge) : Prop :=
  s.server = .take → (∃ sem, s.ctx.exitSem = some sem ∧ 0 < sem.count) ∨
    ¬(s.tcpToUart s.session).Quiet ∨ ¬(s.bufferToTcp s.session).Quiet

/-- The second task of a session is only missing if the first one is not. -/
def Bridge.StartsTask (s : Bridge) : Act → Prop
  | .server (.created false) => s.server = .createBufferToTcp → s.tcpToUart s.session ≠ .absent
  | _ => True

/-- A task gives the semaphore of the session it was created for. -/
def Bridge.GivesOwn (s : Bridge) : Act → Prop
  | .tcpToUart k _ => s.tcpToUart k = .give → k = s.session
  | .bufferToTcp k _ => s.bufferToTcp k = .give → k = s.session
  | _ => True

instance (s : Bridge) : (a : Act) → Decidable (s.StartsTask a)
  | .server (.created false) => inferInstanceAs (Decidable (_ → _))
  | .server (.created true) | .server .done | .server (.result _) | .server (.data _) =>
    isTrue trivial
  | .elapse _ | .daemon _ | .tcpToUart _ _ | .bufferToTcp _ _ => isTrue trivial

instance (s : Bridge) : (a : Act) → Decidable (s.GivesOwn a)
  | .tcpToUart _ _ | .bufferToTcp _ _ => inferInstanceAs (Decidable (_ → _))
  | .elapse _ | .daemon _ | .server _ => isTrue trivial

def ServerPc.beforeDownlink : ServerPc → Bool
  | .initRunning | .initSem | .createTcpToUart => true
  | _ => false

/-- Every task belongs to a session that has begun, and is created once in it. -/
structure Bridge.Numbered (s : Bridge) : Prop where
  future : ∀ k, s.session < k → s.tcpToUart k = .absent ∧ s.bufferToTcp k = .absent
  noDownlink : s.server.beforeDownlink = true → s.tcpToUart s.session = .absent
  noUplink : s.server.beforeUplink = true → s.bufferToTcp s.session = .absent

theorem Bridge.start_numbered (cache : Cache) : (Bridge.start cache).Numbered :=
  ⟨fun _ _ => ⟨rfl, rfl⟩, fun _ => rfl, fun _ => rfl⟩

theorem Bridge.Numbered.keep {s t : Bridge} (h : s.Numbered) (hd : t.tcpToUart = s.tcpToUart)
    (hu : t.bufferToTcp = s.bufferToTcp) (hn : t.session = s.session)
    (hbd : t.server.beforeDownlink = true → s.server.beforeDownlink = true)
    (hbu : t.server.beforeUplink = true → s.server.beforeUplink = true) : t.Numbered := by
  refine ⟨?_, fun hb => ?_, fun hb => ?_⟩
  · simpa only [hd, hu, hn] using h.future
  · rw [hd, hn]
    exact h.noDownlink (hbd hb)
  · rw [hu, hn]
    exact h.noUplink (hbu hb)

theorem Bridge.Numbered.downlink {s t : Bridge} (h : s.Numbered) {k : Nat}
    (hk : ¬(s.tcpToUart k).Ended) {pc : TaskPc TcpToUartPc}
    (hd : t.tcpToUart = Function.update s.tcpToUart k pc) (hu : t.bufferToTcp = s.bufferToTcp)
    (hn : t.session = s.session) (hs : t.server = s.server) : t.Numbered := by
  refine ⟨fun j hj => ?_, fun hb => ?_, fun hb => ?_⟩
  · obtain ⟨hd', hu'⟩ := h.future j (hn ▸ hj)
    have hne : j ≠ k := fun he => hk (he ▸ Or.inl hd')
    rw [hd, hu, Function.update_of_ne hne]
    exact ⟨hd', hu'⟩
  · have hnone := h.noDownlink (hs ▸ hb)
    have hne : s.session ≠ k := fun he => hk (he ▸ Or.inl hnone)
    rw [hd, hn, Function.update_of_ne hne, hnone]
  · rw [hu, hn]
    exact h.noUplink (hs ▸ hb)

theorem Bridge.Numbered.uplink {s t : Bridge} (h : s.Numbered) {k : Nat}
    (hk : ¬(s.bufferToTcp k).Ended) {pc : TaskPc BufferToTcpPc}
    (hu : t.bufferToTcp = Function.update s.bufferToTcp k pc) (hd : t.tcpToUart = s.tcpToUart)
    (hn : t.session = s.session) (hs : t.server = s.server) : t.Numbered := by
  refine ⟨fun j hj => ?_, fun hb => ?_, fun hb => ?_⟩
  · obtain ⟨hd', hu'⟩ := h.future j (hn ▸ hj)
    have hne : j ≠ k := fun he => hk (he ▸ Or.inl hu')
    rw [hd, hu, Function.update_of_ne hne]
    exact ⟨hd', hu'⟩
  · rw [hd, hn]
    exact h.noDownlink (hs ▸ hb)
  · have hnone := h.noUplink (hs ▸ hb)
    have hne : s.session ≠ k := fun he => hk (he ▸ Or.inl hnone)
    rw [hu, hn, Function.update_of_ne hne, hnone]

theorem Bridge.Numbered.serverStep {s t : Bridge} {a : Answer} (h : s.Numbered)
    (hs : tcpServerTask s a = some t) : t.Numbered := by
  cases tcpServerTask_step hs with
  | @socket fd hpc =>
    refine h.keep rfl rfl rfl (fun hb => ?_) (fun hb => ?_)
    · by_cases hf : fd < 0 <;> simp [hf, ServerPc.beforeDownlink] at hb
    · by_cases hf : fd < 0 <;> simp [hf, ServerPc.beforeUplink] at hb
  | @accept sock hpc =>
    refine h.keep rfl rfl rfl (fun hb => ?_) (fun hb => ?_)
    · by_cases hf : sock < 0 <;> simp [hf, ServerPc.beforeDownlink] at hb
    · by_cases hf : sock < 0 <;> simp [hf, ServerPc.beforeUplink] at hb
  | initSock hpc =>
    obtain ⟨hd, hu⟩ := h.future (s.session + 1) (Nat.lt_succ_self _)
    exact ⟨fun k hk => h.future k (Nat.lt_of_succ_lt hk), fun _ => hd, fun _ => hu⟩
  | createTcpToUart hpc =>
    refine ⟨fun k hk => ?_, fun hb => by simp [ServerPc.beforeDownlink] at hb, fun _ => ?_⟩
    · obtain ⟨hd, hu⟩ := h.future k hk
      have hne : k ≠ s.session := Nat.ne_of_gt hk
      exact ⟨by simpa [Bridge.setTcpToUart, hne] using hd, hu⟩
    · exact h.noUplink (by simp [hpc, ServerPc.beforeUplink])
  | createBufferToTcp hpc =>
    refine ⟨fun k hk => ?_, fun hb => by simp [ServerPc.beforeDownlink] at hb,
      fun hb => by simp [ServerPc.beforeUplink] at hb⟩
    obtain ⟨hd, hu⟩ := h.future k hk
    have hne : k ≠ s.session := Nat.ne_of_gt hk
    exact ⟨hd, by simpa [Bridge.setBufferToTcp, hne] using hu⟩
  | _ hpc =>
    exact h.keep rfl rfl rfl (by simp [hpc, ServerPc.beforeDownlink]) (by simp [hpc, ServerPc.beforeUplink])

theorem Bridge.Numbered.step {s t : Bridge} {a : Act} (h : s.Numbered) (hs : s.step a = some t) :
    t.Numbered := by
  cases a with
  | elapse ms =>
    cases hs
    exact h.keep rfl rfl rfl id id
  | daemon a =>
    obtain ⟨_, _, _, rfl⟩ := uartRxDaemonTask_frame hs
    exact h.keep rfl rfl rfl id id
  | server a => exact h.serverStep hs
  | tcpToUart k a =>
    obtain ⟨hlive, _, _, _, rfl⟩ := tcpToUartTask_frame hs
    exact h.downlink hlive rfl rfl rfl rfl
  | bufferToTcp k a =>
    obtain ⟨hlive, _, _, _, _, rfl⟩ := bufferToTcpTask_frame hs
    exact h.uplink hlive rfl rfl rfl rfl

/-- What a step of a session task does to the semaphore. -/
inductive Signal {β : Type} (ctx ctx' : BridgeContext) (pc pc' : TaskPc β) : Prop where
  | gave (hpc : pc = .give) (hpc' : pc' = .deleteSelf)
      (hsem : ctx'.exitSem = ctx.exitSem.map Semaphore.give)
  | silent (hpc : pc ≠ .give) (hpc' : pc'.given = pc.given) (hsem : ctx'.exitSem = ctx.exitSem)

theorem taskFrame_signal {β : Type} {first : β} {ctx : BridgeContext} {pc : TaskPc β} {a : Answer}
    {r : TaskPc β × BridgeContext} (h : taskFrame first ctx pc a = some r) :
    Signal ctx r.2 pc r.1 ∧ r.1 ≠ .absent := by
  unfold taskFrame at h
  split at h
  case h_1 ok =>
    cases h
    cases ok <;> exact ⟨.silent (by simp) rfl rfl, by simp⟩
  case h_2 =>
    cases h
    by_cases hr : ctx.running = true
    · simp only [hr, if_true]
      exact ⟨.silent (by simp) rfl rfl, by simp⟩
    · simp only [hr]
      exact ⟨.silent (by simp) rfl rfl, by simp⟩
  case h_3 =>
    cases h
    exact ⟨.silent (by simp) rfl rfl, by simp⟩
  case h_4 =>
    cases h
    exact ⟨.gave rfl rfl rfl, by simp⟩
  case h_5 =>
    cases h
    exact ⟨.silent (by simp) rfl rfl, by simp⟩
  case h_6 => cases h

theorem DownlinkStep.signal {s : Bridge} {pc pc' : TaskPc TcpToUartPc} {a : Answer}
    {ctx : BridgeContext} {uartTx : List UInt8} (h : DownlinkStep s pc a pc' ctx uartTx) :
    Signal s.ctx ctx pc pc' ∧ pc' ≠ .absent := by
  cases h with
  | frame a r hr => exact taskFrame_signal hr
  | _ =>
    subst pc
    exact ⟨.silent (by simp) rfl rfl, by simp⟩

theorem UplinkStep.signal {s : Bridge} {pc pc' : TaskPc BufferToTcpPc} {a : Answer}
    {ctx : BridgeContext} {cache : Cache} {accepted : List UInt8}
    (h : UplinkStep s pc a pc' ctx cache accepted) : Signal s.ctx ctx pc pc' ∧ pc' ≠ .absent := by
  cases h with
  | frame a r hr => exact taskFrame_signal hr
  | _ =>
    subst pc
    exact ⟨.silent (by simp) rfl rfl, by simp⟩

def ServerPc.untaken : ServerPc → Bool
  | .createTcpToUart | .createBufferToTcp | .take => true
  | _ => false

/-- The semaphore counts the gives until the server takes it, and there is a task
to wait for. While the context is being set up, `n` is still the last count. -/
structure Bridge.Counted (s : Bridge) (n : Nat) : Prop where
  numbered : s.Numbered
  le_two : n ≤ 2
  gives : s.server ≠ .initRunning → s.server ≠ .initSem → n = s.given
  sem : s.server.untaken = true → s.ctx.exitSem.map (fun sem => (sem.max, sem.count)) = some (2, n)
  created : s.server = .take →
    s.tcpToUart s.session ≠ .absent ∨ s.bufferToTcp s.session ≠ .absent

theorem TaskPc.given_le {β : Type} (pc : TaskPc β) : pc.given ≤ 1 := by
  cases pc <;> simp [TaskPc.given]

theorem Bridge.given_le (s : Bridge) : s.given ≤ 2 :=
  Nat.add_le_add (s.tcpToUart s.session).given_le (s.bufferToTcp s.session).given_le

theorem Bridge.Counted.keep {s t : Bridge} {n : Nat} (h : s.Counted n) (ht : t.Numbered)
    (hg : t.given = s.given) (hsem : t.ctx.exitSem = s.ctx.exitSem) (hs : t.server = s.server)
    (hc : t.server = .take →
      t.tcpToUart t.session ≠ .absent ∨ t.bufferToTcp t.session ≠ .absent) : t.Counted n := by
  refine ⟨ht, h.le_two, fun h₁ h₂ => ?_, fun hu => ?_, hc⟩
  · rw [hg]
    exact h.gives (hs ▸ h₁) (hs ▸ h₂)
  · rw [hsem]
    exact h.sem (hs ▸ hu)

theorem Bridge.Counted.gave {s t : Bridge} {n : Nat} (h : s.Counted n) (ht : t.Numbered)
    (hg : t.given = s.given + 1) (hsem : t.ctx.exitSem = s.ctx.exitSem.map Semaphore.give)
    (hs : t.server = s.server) (h₁ : s.server ≠ .initRunning) (h₂ : s.server ≠ .initSem)
    (hc : t.server = .take →
      t.tcpToUart t.session ≠ .absent ∨ t.bufferToTcp t.session ≠ .absent) : t.Counted (n + 1) := by
  have hn := h.gives h₁ h₂
  have hle := t.given_le
  refine ⟨ht, by omega, fun _ _ => by omega, fun hu => ?_, hc⟩
  have hcount := h.sem (hs ▸ hu)
  cases he : s.ctx.exitSem with
  | none => simp [he] at hcount
  | some sem =>
    obtain ⟨hmax, hn'⟩ : sem.max = 2 ∧ sem.count = n := by simpa [he] using hcount
    have hlt : n < 2 := by omega
    simp [hsem, he, Semaphore.give, hmax, hn', hlt]

theorem Bridge.Counted.downlink {s t : Bridge} {n k : Nat} {a : Answer} (h : s.Counted n)
    (hok : s.GivesOwn (.tcpToUart k a)) (hs : tcpToUartTask s k a = some t) :
    t.Counted (s.countGives (.tcpToUart k a) n) := by
  have hnum : t.Numbered := h.numbered.step (a := .tcpToUart k a) hs
  obtain ⟨pc, ctx, uartTx, rfl, hstep⟩ := tcpToUartTask_cases hs
  obtain ⟨hsignal, hne⟩ := hstep.signal
  have hcreated : s.server = .take →
      Function.update s.tcpToUart k pc s.session ≠ .absent ∨ s.bufferToTcp s.session ≠ .absent := by
    intro htake
    by_cases hk : s.session = k
    · rw [hk, Function.update_self]
      exact Or.inl hne
    · rw [Function.update_of_ne hk]
      exact h.created htake
  cases hsignal with
  | gave hpc hpc' hsem =>
    obtain rfl : k = s.session := hok hpc
    have hbegun : s.server.beforeDownlink = false := by
      by_contra hb
      have hnone := h.numbered.noDownlink (Bool.eq_true_of_not_eq_false hb)
      rw [hpc] at hnone
      cases hnone
    rw [Bridge.countGives, if_pos hpc]
    refine h.gave hnum ?_ hsem rfl ?_ ?_ hcreated
    · simp only [Bridge.given, Bridge.setTcpToUart, Function.update_self, hpc, hpc', TaskPc.given]
      omega
    · intro hi
      simp [hi, ServerPc.beforeDownlink] at hbegun
    · intro hi
      simp [hi, ServerPc.beforeDownlink] at hbegun
  | silent hpc hpc' hsem =>
    rw [Bridge.countGives, if_neg hpc]
    refine h.keep hnum ?_ hsem rfl hcreated
    by_cases hk : s.session = k
    · simp only [Bridge.given, Bridge.setTcpToUart, hk, Function.update_self, hpc']
    · simp only [Bridge.given, Bridge.setTcpToUart, Function.update_of_ne hk]

theorem Bridge.Counted.uplink {s t : Bridge} {n k : Nat} {a : Answer} (h : s.Counted n)
    (hok : s.GivesOwn (.bufferToTcp k a)) (hs : bufferToTcpTask s k a = some t) :
    t.Counted (s.countGives (.bufferToTcp k a) n) := by
  have hnum : t.Numbered := h.numbered.step (a := .bufferToTcp k a) hs
  obtain ⟨pc, ctx, cache, accepted, rfl, hstep⟩ := bufferToTcpTask_cases hs
  obtain ⟨hsignal, hne⟩ := hstep.signal
  have hcreated : s.server = .take →
      s.tcpToUart s.session ≠ .absent ∨ Function.update s.bufferToTcp k pc s.session ≠ .absent := by
    intro htake
    by_cases hk : s.session = k
    · rw [hk, Function.update_self]
      exact Or.inr hne
    · rw [Function.update_of_ne hk]
      exact h.created htake
  cases hsignal with
  | gave hpc hpc' hsem =>
    obtain rfl : k = s.session := hok hpc
    have hbegun : s.server.beforeUplink = false := by
      by_contra hb
      have hnone := h.numbered.noUplink (Bool.eq_true_of_not_eq_false hb)
      rw [hpc] at hnone
      cases hnone
    rw [Bridge.countGives, if_pos hpc]
    refine h.gave hnum ?_ hsem rfl ?_ ?_ hcreated
    · simp only [Bridge.given, Bridge.setBufferToTcp, Function.update_self, hpc, hpc', TaskPc.given]
    · intro hi
      simp [hi, ServerPc.beforeUplink] at hbegun
    · intro hi
      simp [hi, ServerPc.beforeUplink] at hbegun
  | silent hpc hpc' hsem =>
    rw [Bridge.countGives, if_neg hpc]
    refine h.keep hnum ?_ hsem rfl hcreated
    by_cases hk : s.session = k
    · simp only [Bridge.given, Bridge.setBufferToTcp, hk, Function.update_self, hpc']
    · simp only [Bridge.given, Bridge.setBufferToTcp, Function.update_of_ne hk]

theorem Bridge.Counted.leave {s t : Bridge} {n : Nat} (h : s.Counted n) (ht : t.Numbered)
    (hg : t.given = s.given) (h₁ : s.server ≠ .initRunning) (h₂ : s.server ≠ .initSem)
    (hu : t.server.untaken = false) : t.Counted n := by
  refine ⟨ht, h.le_two, fun _ _ => ?_, fun hb => ?_, fun hb => ?_⟩
  · rw [hg]
    exact h.gives h₁ h₂
  · rw [hu] at hb
    cases hb
  · rw [hb] at hu
    cases hu

theorem Bridge.Counted.setUp {s t : Bridge} {n : Nat} (h : s.Counted n) (ht : t.Numbered)
    (hs : t.server = .initRunning ∨ t.server = .initSem) : t.Counted n := by
  refine ⟨ht, h.le_two, fun h₁ h₂ => ?_, fun hb => ?_, fun hb => ?_⟩
  · exact absurd hs (not_or.mpr ⟨h₁, h₂⟩)
  · rcases hs with hs | hs <;> simp [hs, ServerPc.untaken] at hb
  · rcases hs with hs | hs <;> simp [hs] at hb

theorem Bridge.Counted.serverStep {s t : Bridge} {n : Nat} {a : Answer} (h : s.Counted n)
    (hok : s.StartsTask (.server a)) (hs : tcpServerTask s a = some t) :
    t.Counted (s.countGives (.server a) n) := by
  have hnum : t.Numbered := h.numbered.step (a := .server a) hs
  have hcount : s.server ≠ .initSem → s.countGives (.server a) n = n := fun hne => by
    rw [Bridge.countGives, if_neg hne]
  cases tcpServerTask_step hs with
  | @socket fd hpc =>
    rw [hcount (by simp [hpc])]
    refine h.leave hnum rfl (by simp [hpc]) (by simp [hpc]) ?_
    by_cases hf : fd < 0 <;> simp [hf, ServerPc.untaken]
  | @accept sock hpc =>
    rw [hcount (by simp [hpc])]
    refine h.leave hnum rfl (by simp [hpc]) (by simp [hpc]) ?_
    by_cases hf : sock < 0 <;> simp [hf, ServerPc.untaken]
  | initSock hpc =>
    rw [hcount (by simp [hpc])]
    exact h.setUp hnum (Or.inl rfl)
  | initRunning hpc =>
    rw [hcount (by simp [hpc])]
    exact h.setUp hnum (Or.inr rfl)
  | initSem hpc =>
    have hd := h.numbered.noDownlink (by simp [hpc, ServerPc.beforeDownlink])
    have hu := h.numbered.noUplink (by simp [hpc, ServerPc.beforeUplink])
    rw [Bridge.countGives, if_pos hpc]
    refine ⟨hnum, Nat.zero_le _, fun _ _ => ?_, fun _ => rfl, fun hb => by cases hb⟩
    simp only [Bridge.given, hd, hu, TaskPc.given]
  | @createTcpToUart ok hpc =>
    have hd := h.numbered.noDownlink (by simp [hpc, ServerPc.beforeDownlink])
    have hgives := h.gives (by simp [hpc]) (by simp [hpc])
    rw [hcount (by simp [hpc])]
    refine ⟨hnum, h.le_two, fun _ _ => ?_, fun _ => h.sem (by simp [hpc, ServerPc.untaken]),
      fun hb => by cases hb⟩
    rw [hgives]
    cases ok <;> simp [Bridge.given, Bridge.setTcpToUart, hd, TaskPc.given]
  | @createBufferToTcp ok hpc =>
    have hu := h.numbered.noUplink (by simp [hpc, ServerPc.beforeUplink])
    have hgives := h.gives (by simp [hpc]) (by simp [hpc])
    rw [hcount (by simp [hpc])]
    refine ⟨hnum, h.le_two, fun _ _ => ?_, fun _ => h.sem (by simp [hpc, ServerPc.untaken]),
      fun _ => ?_⟩
    · rw [hgives]
      cases ok <;> simp [Bridge.given, Bridge.setBufferToTcp, hu, TaskPc.given]
    · cases ok with
      | true => exact Or.inr (by simp [Bridge.setBufferToTcp])
      | false => exact Or.inl (hok hpc)
  | _ hpc =>
    rw [hcount (by simp [hpc])]
    exact h.leave hnum rfl (by simp [hpc]) (by simp [hpc]) rfl

theorem Bridge.Counted.step {s t : Bridge} {n : Nat} {a : Act} (h : s.Counted n)
    (hok : s.StartsTask a ∧ s.GivesOwn a) (hs : s.step a = some t) :
    t.Counted (s.countGives a n) := by
  have hnum := h.numbered.step hs
  cases a with
  | elapse ms =>
    cases hs
    exact h.keep hnum rfl rfl rfl h.created
  | daemon a =>
    obtain ⟨_, _, _, rfl⟩ := uartRxDaemonTask_frame hs
    exact h.keep hnum rfl rfl rfl h.created
  | server a => exact h.serverStep hok.1 hs
  | tcpToUart k a => exact h.downlink hok.2 hs
  | bufferToTcp k a => exact h.uplink hok.2 hs

theorem Bridge.Counted.waitEnds {s : Bridge} {n : Nat} (h : s.Counted n) : s.WaitEnds := by
  intro htake
  by_contra hno
  simp only [not_or, not_not] at hno
  obtain ⟨hzero, hd, hu⟩ := hno
  have hgives := h.gives (by simp [htake]) (by simp [htake])
  have hsem := h.sem (by rw [htake]; rfl)
  obtain ⟨sem, hsome, hcount⟩ := Option.map_eq_some_iff.mp hsem
  have hn : sem.count = n := (Prod.mk.inj hcount).2
  -- a task that was created and has no give left has given
  have hone : ∀ {β : Type} {pc : TaskPc β}, pc ≠ .absent → pc.Quiet → pc.given = 1 := by
    rintro β pc hne ((rfl | rfl) | rfl)
    · exact absurd rfl hne
    · rfl
    · rfl
  refine hzero ⟨sem, hsome, ?_⟩
  rw [hn, hgives, Bridge.given]
  rcases h.created htake with hne | hne
  · rw [hone hne hd]
    omega
  · rw [hone hne hu]
    omega

/-- As long as one task of every session is created and the tasks of earlier
sessions do not signal, the server never waits for a semaphore nobody will give,
and the gives of a session fit in it. -/
theorem server_wait_ends {malloc : Malloc} {rb : RingBuf} {s₀ s : Bridge} {n : Nat} {as : List Act}
    (hinit : tcpBridgeInit malloc rb = some s₀)
    (hrun : Machine.run (Machine.monitored Bridge.step Bridge.countGives) (s₀, 0) as = some (s, n))
    (hok : Machine.Meets Bridge.step (fun s a => s.StartsTask a ∧ s.GivesOwn a) s₀ as) :
    s.WaitEnds ∧ n ≤ 2 := by
  obtain ⟨cache, rfl, _⟩ := tcpBridgeInit_start hinit
  have hstart : (Bridge.start cache).Counted 0 :=
    ⟨Bridge.start_numbered cache, Nat.zero_le _, fun _ _ => rfl, fun hb => (by cases hb),
      fun hb => (by cases hb)⟩
  have hend : s.Counted n := by
    refine Machine.invariant_of_monitored ?_ hstart hrun hok
    intro u a v m hi ha hs
    exact hi.step ha hs
  exact ⟨hend.waitEnds, hend.le_two⟩

def noTaskCreated : List Act :=
  [.server (.result 3), .server (.result 5), .server .done, .server .done, .server .done,
    .server (.created false), .server (.created false)]

/-- The uplink of the session before returns from `send` and signals, and both
tasks of the session fail to get their buffers. -/
def threeGives : List Act :=
  clientLeaves ++ [.elapse 500, .server .done, .server .done] ++ acceptClient 6 ++
  [.bufferToTcp 1 (.result (-1)), .bufferToTcp 1 .done, .bufferToTcp 1 .done,
    .tcpToUart 2 (.created false), .tcpToUart 2 .done,
    .bufferToTcp 2 (.created false), .bufferToTcp 2 .done]

theorem server_waits_forever :
    (∃ s₀ s, tcpBridgeInit zeroMalloc unsetRingBuf = some s₀ ∧
      Machine.run (Machine.monitored Bridge.step Bridge.countGives) (s₀, 0) noTaskCreated =
        some (s, 0) ∧ ¬s.WaitEnds) ∧
    ∃ s₀ s, tcpBridgeInit zeroMalloc unsetRingBuf = some s₀ ∧
      Machine.run (Machine.monitored Bridge.step Bridge.countGives) (s₀, 0) threeGives =
        some (s, 3) := by
  constructor
  · have h : ((tcpBridgeInit zeroMalloc unsetRingBuf).bind fun s₀ =>
        (Machine.run (Machine.monitored Bridge.step Bridge.countGives) (s₀, 0) noTaskCreated)).map
          (fun r => ((r.1.server, r.1.session), r.1.ctx.exitSem.map Semaphore.count,
            decide (r.1.TasksEnded 1), r.2)) = some ((.take, 1), some 0, true, 0) := by decide +kernel
    obtain ⟨s₀, s, n, hinit, hrun, he⟩ := Machine.exists_of_monitored h
    simp only [Prod.mk.injEq] at he
    obtain ⟨⟨hpc, hn⟩, hsem, hended, rfl⟩ := he
    obtain ⟨hd, hu⟩ := of_decide_eq_true hended
    refine ⟨s₀, s, hinit, hrun, fun hw => ?_⟩
    rcases hw hpc with ⟨sem, hsome, hpos⟩ | hq | hq
    · rw [hsome, Option.map_some] at hsem
      rw [Option.some.inj hsem] at hpos
      cases hpos
    · exact hq (hn ▸ hd.quiet)
    · exact hq (hn ▸ hu.quiet)
  · have h : ((tcpBridgeInit zeroMalloc unsetRingBuf).bind fun s₀ =>
        (Machine.run (Machine.monitored Bridge.step Bridge.countGives) (s₀, 0) threeGives)).map
          Prod.snd = some 3 := by decide +kernel
    obtain ⟨s₀, s, n, hinit, hrun, he⟩ := Machine.exists_of_monitored h
    obtain rfl : n = 3 := he
    exact ⟨s₀, s, hinit, hrun⟩

theorem server_wait_ends_downlink :
    ∃ s₀ s, tcpBridgeInit zeroMalloc unsetRingBuf = some s₀ ∧
      Machine.run (Machine.monitored Bridge.step Bridge.countGives) (s₀, 0)
        [.server (.result 3), .server (.result 5), .server .done, .server .done, .server .done,
          .server (.created true), .server (.created false), .tcpToUart 1 (.created false),
          .tcpToUart 1 .done] = some (s, 1) ∧ s.server = .take ∧ s.WaitEnds ∧ 1 ≤ 2 := by
  have h : ((tcpBridgeInit zeroMalloc unsetRingBuf).bind fun s₀ =>
      (Machine.run (Machine.monitored Bridge.step Bridge.countGives) (s₀, 0)
        [.server (.result 3), .server (.result 5), .server .done, .server .done, .server .done,
          .server (.created true), .server (.created false), .tcpToUart 1 (.created false),
          .tcpToUart 1 .done])).map (fun r => (r.1.server, r.2)) = some (.take, 1) := by
    decide +kernel
  obtain ⟨s₀, s, n, hinit, hrun, he⟩ := Machine.exists_of_monitored h
  obtain ⟨hpc, rfl⟩ := Prod.mk.inj he
  refine ⟨s₀, s, hinit, hrun, hpc, server_wait_ends hinit hrun ?_⟩
  cases hinit
  decide +kernel

end EspPassthrough
