import EspPassthrough.Bridge

/-! Handing the context over from one session to the next. The server takes the
exit semaphore once for two tasks and then relies on a delay of 500 ms: the
hand-over is clean as long as the slower task ends within it, and not beyond. -/

namespace EspPassthrough

def TaskPc.Ended {β : Type} (pc : TaskPc β) : Prop := pc = .absent ∨ pc = .gone

/-- No access to the context and no give is left to the task. -/
def TaskPc.Quiet {β : Type} (pc : TaskPc β) : Prop := pc.Ended ∨ pc = .deleteSelf

theorem TaskPc.Ended.quiet {β : Type} {pc : TaskPc β} (h : pc.Ended) : pc.Quiet := Or.inl h

structure Bridge.HandedOver (s : Bridge) : Prop where
  quiet : s.server = .deleteSem ∨ s.server = .initSock ∨ s.server = .initRunning ∨
    s.server = .initSem → ∀ k, (s.tcpToUart k).Quiet ∧ (s.bufferToTcp k).Quiet
  one_tcpToUart : ∀ j k, ¬(s.tcpToUart j).Ended → ¬(s.tcpToUart k).Ended → j = k
  one_bufferToTcp : ∀ j k, ¬(s.bufferToTcp j).Ended → ¬(s.bufferToTcp k).Ended → j = k
  own_recv : ∀ k, s.tcpToUart k = .body .recv → k = s.session
  own_send : ∀ k chunk, s.bufferToTcp k = .body (.send chunk) → k = s.session

def Bridge.TasksEnded (s : Bridge) (k : Nat) : Prop :=
  (s.tcpToUart k).Ended ∧ (s.bufferToTcp k).Ended

instance {β : Type} [DecidableEq β] (pc : TaskPc β) : Decidable pc.Ended :=
  inferInstanceAs (Decidable (_ ∨ _))

instance (s : Bridge) (k : Nat) : Decidable (s.TasksEnded k) :=
  inferInstanceAs (Decidable (_ ∧ _))

/-- The end of the delay that the server leaves the slower task. -/
def ServerPc.wakesAt : ServerPc → Option Nat
  | .drain u => some u
  | _ => none

/-- Time does not reach the end of the server's delay before both tasks of the
session have ended. -/
def Bridge.EndsInTime (s : Bridge) : Act → Prop
  | .elapse ms => ∀ u ∈ s.server.wakesAt, u ≤ s.clock + ms → s.TasksEnded s.session
  | _ => True

instance (s : Bridge) : (a : Act) → Decidable (s.EndsInTime a)
  | .elapse _ => inferInstanceAs (Decidable (∀ _ ∈ _, _))
  | .daemon _ | .server _ | .tcpToUart _ _ | .bufferToTcp _ _ => isTrue trivial

def ServerPc.inSession : ServerPc → Bool
  | .createBufferToTcp | .take | .clearRunning | .shutdown | .close | .drain _ => true
  | _ => false

structure Bridge.Tidy (s : Bridge) : Prop where
  future : ∀ k, s.session < k → s.tcpToUart k = .absent ∧ s.bufferToTcp k = .absent
  past : ∀ k, k < s.session → s.TasksEnded k
  between : s.server.inSession = false → s.TasksEnded s.session
  drained : ∀ u ∈ s.server.wakesAt, u ≤ s.clock → s.TasksEnded s.session

theorem taskFrame_live {β : Type} {first : β} {ctx : BridgeContext} {pc : TaskPc β} {a : Answer}
    {r : TaskPc β × BridgeContext} (h : taskFrame first ctx pc a = some r) : ¬pc.Ended := by
  rintro (rfl | rfl) <;> simp [taskFrame] at h

/-- A step of the downlink at `pc`: the answer it gets, then its counter, the context
and the bytes written to the UART after it. -/
inductive DownlinkStep (s : Bridge) (pc : TaskPc TcpToUartPc) :
    Answer → TaskPc TcpToUartPc → BridgeContext → List UInt8 → Prop where
  | call (hpc : pc = .body .recv) : DownlinkStep s pc .done (.body .inRecv) s.ctx s.uartTx
  | received (bytes : List UInt8) (hpc : pc = .body .inRecv) (hle : bytes.length ≤ bufSize) :
      DownlinkStep s pc (.data bytes) (.body (if bytes ≠ [] then .uartWrite bytes else .logTest))
        s.ctx s.uartTx
  | wrote (bytes : List UInt8) (hpc : pc = .body (.uartWrite bytes)) :
      DownlinkStep s pc .done .loopTest s.ctx (s.uartTx ++ bytes)
  | closed (hpc : pc = .body .logTest) : DownlinkStep s pc .done .clearRunning s.ctx s.uartTx
  | frame (a : Answer) (r : TaskPc TcpToUartPc × BridgeContext)
      (hr : taskFrame .recv s.ctx pc a = some r) : DownlinkStep s pc a r.1 r.2 s.uartTx

theorem tcpToUartTask_cases {s t : Bridge} {k : Nat} {a : Answer}
    (h : tcpToUartTask s k a = some t) :
    ∃ pc ctx uartTx, t = { s.setTcpToUart k pc with ctx, uartTx } ∧
      DownlinkStep s (s.tcpToUart k) a pc ctx uartTx := by
  unfold tcpToUartTask at h
  split at h
  case h_1 hpc =>
    cases h
    exact ⟨_, s.ctx, s.uartTx, rfl, .call hpc⟩
  case h_2 bytes hpc =>
    by_cases hle : bytes.length ≤ bufSize
    · rw [if_pos hle] at h
      cases h
      exact ⟨_, s.ctx, s.uartTx, rfl, .received bytes hpc hle⟩
    · rw [if_neg hle] at h
      cases h
  case h_3 bytes hpc =>
    cases h
    exact ⟨_, s.ctx, _, rfl, .wrote bytes hpc⟩
  case h_4 hpc =>
    cases h
    exact ⟨_, s.ctx, s.uartTx, rfl, .closed hpc⟩
  case h_5 =>
    obtain ⟨r, hr, rfl⟩ := Option.map_eq_some_iff.mp h
    exact ⟨_, _, s.uartTx, rfl, .frame _ r hr⟩

theorem DownlinkStep.live {s : Bridge} {pc pc' : TaskPc TcpToUartPc} {a : Answer}
    {ctx : BridgeContext} {uartTx : List UInt8} (h : DownlinkStep s pc a pc' ctx uartTx) :
    ¬pc.Ended := by
  cases h with
  | frame a r hr => exact taskFrame_live hr
  | _ => simp [*, TaskPc.Ended]

theorem tcpToUartTask_frame {s t : Bridge} {k : Nat} {a : Answer}
    (h : tcpToUartTask s k a = some t) :
    ¬(s.tcpToUart k).Ended ∧
      ∃ pc ctx uartTx, t = { s.setTcpToUart k pc with ctx, uartTx } := by
  obtain ⟨pc, ctx, uartTx, rfl, hstep⟩ := tcpToUartTask_cases h
  exact ⟨hstep.live, pc, ctx, uartTx, rfl⟩

/-- A step of the uplink at `pc`: the answer it gets, then its counter, the context,
the cache and the accepted bytes after it. -/
inductive UplinkStep (s : Bridge) (pc : TaskPc BufferToTcpPc) :
    Answer → TaskPc BufferToTcpPc → BridgeContext → Cache → List UInt8 → Prop where
  | read (hpc : pc = .body .rbRead) (hne : s.cache.read.2 ≠ []) :
      UplinkStep s pc .done (.body (.send s.cache.read.2)) s.ctx s.cache.read.1 s.accepted
  | empty (hpc : pc = .body .rbRead) (he : s.cache.read.2 = []) :
      UplinkStep s pc .done (.body (.delay (s.clock + 50))) s.ctx s.cache.read.1 s.accepted
  | call (chunk : List UInt8) (hpc : pc = .body (.send chunk)) :
      UplinkStep s pc .done (.body (.inSend chunk)) s.ctx s.cache s.accepted
  | failed (chunk : List UInt8) (n : Int) (hpc : pc = .body (.inSend chunk)) (hn : n < 0) :
      UplinkStep s pc (.result n) .clearRunning s.ctx s.cache s.accepted
  | sent (chunk : List UInt8) (n : Int) (hpc : pc = .body (.inSend chunk)) (hn : 0 ≤ n)
      (hle : n ≤ chunk.length) :
      UplinkStep s pc (.result n) .loopTest s.ctx s.cache (s.accepted ++ chunk.take n.toNat)
  | delayed (u : Nat) (hpc : pc = .body (.delay u)) :
      UplinkStep s pc .done .loopTest s.ctx s.cache s.accepted
  | frame (a : Answer) (r : TaskPc BufferToTcpPc × BridgeContext)
      (hr : taskFrame .rbRead s.ctx pc a = some r) : UplinkStep s pc a r.1 r.2 s.cache s.accepted

theorem bufferToTcpTask_cases {s t : Bridge} {k : Nat} {a : Answer}
    (h : bufferToTcpTask s k a = some t) :
    ∃ pc ctx cache accepted, t = { s.setBufferToTcp k pc with ctx, cache, accepted } ∧
      UplinkStep s (s.bufferToTcp k) a pc ctx cache accepted := by
  unfold bufferToTcpTask at h
  split at h
  case h_1 hpc =>
    by_cases hr : s.cache.read.2 ≠ []
    · rw [if_pos hr] at h
      cases h
      exact ⟨_, _, _, _, rfl, .read hpc hr⟩
    · rw [if_neg hr] at h
      cases h
      exact ⟨_, _, _, _, rfl, .empty hpc (not_not.mp hr)⟩
  case h_2 chunk hpc =>
    cases h
    exact ⟨_, s.ctx, s.cache, s.accepted, rfl, .call chunk hpc⟩
  case h_3 chunk n hpc =>
    by_cases hle : n ≤ chunk.length
    · by_cases hneg : n < 0
      · simp only [hle, if_true, hneg] at h
        cases h
        exact ⟨_, s.ctx, s.cache, s.accepted, rfl, .failed chunk n hpc hneg⟩
      · simp only [hle, if_true, hneg, if_false] at h
        cases h
        exact ⟨_, s.ctx, s.cache, _, rfl, .sent chunk n hpc (not_lt.mp hneg) hle⟩
    · simp [hle] at h
  case h_4 u hpc =>
    split at h
    · cases h
      exact ⟨_, s.ctx, s.cache, s.accepted, rfl, .delayed u hpc⟩
    · cases h
  case h_5 =>
    obtain ⟨r, hr, rfl⟩ := Option.map_eq_some_iff.mp h
    exact ⟨_, _, s.cache, s.accepted, rfl, .frame _ r hr⟩

theorem UplinkStep.live {s : Bridge} {pc pc' : TaskPc BufferToTcpPc} {a : Answer}
    {ctx : BridgeContext} {cache : Cache} {accepted : List UInt8}
    (h : UplinkStep s pc a pc' ctx cache accepted) : ¬pc.Ended := by
  cases h with
  | frame a r hr => exact taskFrame_live hr
  | _ => simp [*, TaskPc.Ended]

theorem bufferToTcpTask_frame {s t : Bridge} {k : Nat} {a : Answer}
    (h : bufferToTcpTask s k a = some t) :
    ¬(s.bufferToTcp k).Ended ∧
      ∃ pc ctx cache accepted, t = { s.setBufferToTcp k pc with ctx, cache, accepted } := by
  obtain ⟨pc, ctx, cache, accepted, rfl, hstep⟩ := bufferToTcpTask_cases h
  exact ⟨hstep.live, pc, ctx, cache, accepted, rfl⟩

theorem uartRxDaemonTask_frame {s t : Bridge} {a : Answer} (h : uartRxDaemonTask s a = some t) :
    ∃ cache daemon uartRx, t = { s with cache, daemon, uartRx } := by
  unfold uartRxDaemonTask at h
  repeat' split at h
  all_goals cases h
  all_goals exact ⟨_, _, _, rfl⟩

theorem Bridge.start_tidy (cache : Cache) : (Bridge.start cache).Tidy := by
  have he : ∀ k, (Bridge.start cache).TasksEnded k := fun _ => ⟨Or.inl rfl, Or.inl rfl⟩
  exact ⟨fun _ _ => ⟨rfl, rfl⟩, fun k _ => he k, fun _ => he _, fun _ _ _ => he _⟩

theorem Bridge.Tidy.keep {s t : Bridge} (h : s.Tidy) (hd : t.tcpToUart = s.tcpToUart)
    (hu : t.bufferToTcp = s.bufferToTcp) (hn : t.session = s.session)
    (hb : t.server.inSession = false → s.TasksEnded s.session)
    (hw : ∀ u ∈ t.server.wakesAt, u ≤ t.clock → s.TasksEnded s.session) : t.Tidy := by
  have he : ∀ k, t.TasksEnded k ↔ s.TasksEnded k := fun k => by simp [Bridge.TasksEnded, hd, hu]
  refine ⟨?_, ?_, ?_, ?_⟩
  · simpa only [hd, hu, hn] using h.future
  · simpa only [he, hn] using h.past
  · simpa only [he, hn] using hb
  · simpa only [he, hn] using hw

/-- A task that still runs belongs to the current session, and the server has
not reached the end of it. -/
theorem Bridge.Tidy.live {s : Bridge} (h : s.Tidy) {k : Nat} (hk : ¬s.TasksEnded k) :
    k = s.session ∧ s.server.inSession = true ∧ ∀ u ∈ s.server.wakesAt, s.clock < u := by
  have hs : k = s.session := by
    rcases lt_trichotomy k s.session with hlt | he | hgt
    · exact False.elim (hk (h.past k hlt))
    · exact he
    · obtain ⟨hd, hu⟩ := h.future k hgt
      exact False.elim (hk ⟨Or.inl hd, Or.inl hu⟩)
  subst hs
  refine ⟨rfl, ?_, fun u hu => ?_⟩
  · by_contra hb
    exact hk (h.between (Bool.eq_false_iff.mpr hb))
  · by_contra hle
    exact hk (h.drained u hu (not_lt.mp hle))

theorem Bridge.Tidy.task {s t : Bridge} (h : s.Tidy) {k : Nat} (hk : ¬s.TasksEnded k)
    (hn : t.session = s.session) (hs : t.server = s.server) (hc : t.clock = s.clock)
    (hd : ∀ j, j ≠ k → t.tcpToUart j = s.tcpToUart j)
    (hu : ∀ j, j ≠ k → t.bufferToTcp j = s.bufferToTcp j) : t.Tidy := by
  obtain ⟨rfl, hin, hclock⟩ := h.live hk
  refine ⟨fun j hj => ?_, fun j hj => ?_, fun hb => ?_, fun u hu' hle => ?_⟩
  · have hne : j ≠ s.session := by omega
    rw [hd j hne, hu j hne]
    exact h.future j (by omega)
  · have hne : j ≠ s.session := by omega
    rw [Bridge.TasksEnded, hd j hne, hu j hne]
    exact h.past j (by omega)
  · rw [hs, hin] at hb
    cases hb
  · have hlt := hclock u (hs ▸ hu')
    omega

theorem Bridge.Tidy.daemon {s t : Bridge} {a : Answer} (h : s.Tidy)
    (hs : uartRxDaemonTask s a = some t) : t.Tidy := by
  obtain ⟨_, _, _, rfl⟩ := uartRxDaemonTask_frame hs
  exact h.keep rfl rfl rfl h.between h.drained

theorem Bridge.Tidy.tcpToUartStep {s t : Bridge} {k : Nat} {a : Answer} (h : s.Tidy)
    (hs : tcpToUartTask s k a = some t) : t.Tidy := by
  obtain ⟨hlive, pc, _, _, rfl⟩ := tcpToUartTask_frame hs
  refine h.task (fun he => hlive he.1) rfl rfl rfl (fun j hj => ?_) (fun _ _ => rfl)
  simp [Bridge.setTcpToUart, hj]

theorem Bridge.Tidy.bufferToTcpStep {s t : Bridge} {k : Nat} {a : Answer} (h : s.Tidy)
    (hs : bufferToTcpTask s k a = some t) : t.Tidy := by
  obtain ⟨hlive, pc, _, _, _, rfl⟩ := bufferToTcpTask_frame hs
  refine h.task (fun he => hlive he.2) rfl rfl rfl (fun _ _ => rfl) (fun j hj => ?_)
  simp [Bridge.setBufferToTcp, hj]

theorem Bridge.Tidy.initSock {s t : Bridge} (h : s.Tidy) (hb : s.server.inSession = false)
    (hd : t.tcpToUart = s.tcpToUart) (hu : t.bufferToTcp = s.bufferToTcp)
    (hn : t.session = s.session + 1) (ht : t.server = .initRunning) : t.Tidy := by
  have he : ∀ k, t.TasksEnded k ↔ s.TasksEnded k := fun k => by simp [Bridge.TasksEnded, hd, hu]
  refine ⟨fun k hk => ?_, fun k hk => ?_, fun _ => ?_, fun u hu' => ?_⟩
  · rw [hd, hu]
    exact h.future k (by omega)
  · rw [he]
    rcases Nat.lt_succ_iff_lt_or_eq.mp (hn ▸ hk) with hlt | rfl
    · exact h.past k hlt
    · exact h.between hb
  · rw [he, hn]
    obtain ⟨hd', hu''⟩ := h.future (s.session + 1) (Nat.lt_succ_self _)
    exact ⟨Or.inl hd', Or.inl hu''⟩
  · simp [ht, ServerPc.wakesAt] at hu'

theorem Bridge.Tidy.create {s t : Bridge} (h : s.Tidy) (hn : t.session = s.session)
    (ht : t.server = .createBufferToTcp ∨ t.server = .take)
    (hd : ∀ j, j ≠ s.session → t.tcpToUart j = s.tcpToUart j)
    (hu : ∀ j, j ≠ s.session → t.bufferToTcp j = s.bufferToTcp j) : t.Tidy := by
  refine ⟨fun j hj => ?_, fun j hj => ?_, fun hb => ?_, fun u hu' => ?_⟩
  · rw [hd j (by omega), hu j (by omega)]
    exact h.future j (by omega)
  · rw [Bridge.TasksEnded, hd j (by omega), hu j (by omega)]
    exact h.past j (by omega)
  · rcases ht with ht | ht <;> simp [ht, ServerPc.inSession] at hb
  · rcases ht with ht | ht <;> simp [ht, ServerPc.wakesAt] at hu'

theorem Bridge.Tidy.serverStep {s t : Bridge} {a : Answer} (h : s.Tidy)
    (hs : tcpServerTask s a = some t) : t.Tidy := by
  cases tcpServerTask_step hs with
  | @socket fd hpc =>
    refine h.keep rfl rfl rfl (fun _ => h.between (by simp [hpc, ServerPc.inSession])) ?_
    intro u hu
    by_cases hf : fd < 0 <;> simp [hf, ServerPc.wakesAt] at hu
  | @accept sock hpc =>
    refine h.keep rfl rfl rfl (fun _ => h.between (by simp [hpc, ServerPc.inSession])) ?_
    intro u hu
    by_cases hf : sock < 0 <;> simp [hf, ServerPc.wakesAt] at hu
  | initSock hpc => exact h.initSock (by simp [hpc, ServerPc.inSession]) rfl rfl rfl rfl
  | createTcpToUart hpc =>
    refine h.create rfl (Or.inl rfl) (fun j hj => ?_) (fun _ _ => rfl)
    simp [Bridge.setTcpToUart, hj]
  | createBufferToTcp hpc =>
    refine h.create rfl (Or.inr rfl) (fun _ _ => rfl) (fun j hj => ?_)
    simp [Bridge.setBufferToTcp, hj]
  | take | clearRunning | shutdown =>
    exact h.keep rfl rfl rfl (by simp [ServerPc.inSession]) (by simp [ServerPc.wakesAt])
  | close =>
    refine h.keep rfl rfl rfl (by simp [ServerPc.inSession]) fun u hu hle => ?_
    cases hu
    exact absurd hle (by simp only; omega)
  | @drain u hpc hle =>
    exact h.keep rfl rfl rfl (fun _ => h.drained u (by simp [hpc, ServerPc.wakesAt]) hle)
      (by simp [ServerPc.wakesAt])
  | _ hpc =>
    exact h.keep rfl rfl rfl (fun _ => h.between (by simp [hpc, ServerPc.inSession]))
      (by simp [ServerPc.wakesAt])

theorem Bridge.Tidy.step {s t : Bridge} {a : Act} (h : s.Tidy) (hok : s.EndsInTime a)
    (hs : s.step a = some t) : t.Tidy := by
  cases a with
  | elapse ms =>
    cases hs
    exact h.keep rfl rfl rfl h.between hok
  | daemon a => exact h.daemon hs
  | server a => exact h.serverStep hs
  | tcpToUart k a => exact h.tcpToUartStep hs
  | bufferToTcp k a => exact h.bufferToTcpStep hs

theorem Bridge.Tidy.handedOver {s : Bridge} (h : s.Tidy) : s.HandedOver := by
  have hd : ∀ k, ¬(s.tcpToUart k).Ended → k = s.session :=
    fun k hk => (h.live fun he => hk he.1).1
  have hu : ∀ k, ¬(s.bufferToTcp k).Ended → k = s.session :=
    fun k hk => (h.live fun he => hk he.2).1
  refine ⟨fun hpc k => ?_, fun j k hj hk => (hd j hj).trans (hd k hk).symm,
    fun j k hj hk => (hu j hj).trans (hu k hk).symm,
    fun k hk => hd k (by simp [hk, TaskPc.Ended]), fun k _ hk => hu k (by simp [hk, TaskPc.Ended])⟩
  have he : s.TasksEnded k := by
    by_contra hk
    have hin := (h.live hk).2.1
    rcases hpc with hpc | hpc | hpc | hpc <;> simp [hpc, ServerPc.inSession] at hin
  exact ⟨he.1.quiet, he.2.quiet⟩

theorem tcpBridgeInit_start {malloc : Malloc} {rb : RingBuf} {s : Bridge}
    (h : tcpBridgeInit malloc rb = some s) : ∃ cache, s = .start cache ∧ cache.contents = [] := by
  unfold tcpBridgeInit at h
  split at h
  · cases h
  case h_2 hinit =>
    cases h
    exact ⟨_, rfl, (rbInit_wf (by decide) hinit).2.2⟩

/-- As long as both tasks of every session end before the server's delay does,
no session's task outlives the hand-over, in any interleaving. -/
theorem sessions_handed_over {malloc : Malloc} {rb : RingBuf} {s₀ s : Bridge} {as : List Act}
    (hinit : tcpBridgeInit malloc rb = some s₀) (hrun : Machine.run Bridge.step s₀ as = some s)
    (hok : Machine.Meets Bridge.step Bridge.EndsInTime s₀ as) : s.HandedOver := by
  obtain ⟨cache, rfl, _⟩ := tcpBridgeInit_start hinit
  exact (Machine.invariant_of_meets (fun _ _ _ hi ha hs => hi.step ha hs)
    (Bridge.start_tidy cache) hrun hok).handedOver

def unsetRingBuf : RingBuf := ⟨none, 0, 0, 0, 0⟩

def acceptClient (fd : Int) : List Act :=
  [.server (.result fd), .server .done, .server .done, .server .done, .server (.created true),
    .server (.created true)]

/-- Both tasks of the first session are in a call when the client goes away, and
the downlink returns from its own. -/
def clientLeaves : List Act :=
  [.server (.result 3)] ++ acceptClient 5 ++
  [.daemon (.created true), .daemon (.data [1]),
    .bufferToTcp 1 (.created true), .bufferToTcp 1 .done, .bufferToTcp 1 .done,
    .bufferToTcp 1 .done,
    .tcpToUart 1 (.created true), .tcpToUart 1 .done, .tcpToUart 1 .done,
    .tcpToUart 1 (.data []), .tcpToUart 1 .done, .tcpToUart 1 .done, .tcpToUart 1 .done,
    .tcpToUart 1 .done,
    .server .done, .server .done, .server .done, .server .done]

def nextClient : List Act :=
  [.server .done] ++ acceptClient 6 ++
  [.daemon (.data [2]), .bufferToTcp 1 (.result 1), .bufferToTcp 1 .done, .bufferToTcp 1 .done]

/-- An uplink blocked in `send` for 500 ms keeps its context when the server
deletes the semaphore, and goes on to send on the next client's socket. -/
theorem blocked_send_outlives_session :
    ∃ s₀ s t, tcpBridgeInit zeroMalloc unsetRingBuf = some s₀ ∧
      Machine.run Bridge.step s₀ (clientLeaves ++ [.elapse 500, .server .done]) = some s ∧
      ¬s.HandedOver ∧ Machine.run Bridge.step s nextClient = some t ∧
      t.session = 2 ∧ t.bufferToTcp 1 = .body (.send [2]) ∧ ¬t.HandedOver := by
  have h : ((tcpBridgeInit zeroMalloc unsetRingBuf).bind fun s₀ => Machine.run Bridge.step s₀
      (clientLeaves ++ [.elapse 500, .server .done])).map
        (fun s => (s.server, s.bufferToTcp 1, (Machine.run Bridge.step s nextClient).map
          fun t => (t.session, t.bufferToTcp 1))) =
      some (.deleteSem, .body (.inSend [1]), some (2, .body (.send [2]))) := by decide +kernel
  obtain ⟨s₀, s, hinit, hs, he⟩ := Machine.exists_of_run h
  simp only [Prod.mk.injEq] at he
  obtain ⟨hpc, hup, hnext⟩ := he
  obtain ⟨t, ht, he⟩ := Option.map_eq_some_iff.mp hnext
  obtain ⟨hsession, hsend⟩ := Prod.mk.inj he
  refine ⟨s₀, s, t, hinit, hs, fun hh => ?_, ht, hsession, hsend, fun hh => ?_⟩
  · have hq := (hh.quiet (Or.inl hpc) 1).2
    simp [TaskPc.Quiet, TaskPc.Ended, hup] at hq
  · have hk := hh.own_send 1 [2] hsend
    omega

theorem sessions_handed_over_prompt :
    ∃ s₀ s, tcpBridgeInit zeroMalloc unsetRingBuf = some s₀ ∧
      Machine.run Bridge.step s₀ (clientLeaves ++ [.bufferToTcp 1 (.result 1), .bufferToTcp 1 .done,
        .bufferToTcp 1 .done, .bufferToTcp 1 .done, .bufferToTcp 1 .done, .elapse 500,
        .server .done]) = some s ∧ s.server = .deleteSem ∧ s.HandedOver := by
  have h : ((tcpBridgeInit zeroMalloc unsetRingBuf).bind fun s₀ => Machine.run Bridge.step s₀
      (clientLeaves ++ [.bufferToTcp 1 (.result 1), .bufferToTcp 1 .done, .bufferToTcp 1 .done,
        .bufferToTcp 1 .done, .bufferToTcp 1 .done, .elapse 500, .server .done])).map
        (fun s => s.server) = some .deleteSem := by decide +kernel
  obtain ⟨s₀, s, hinit, hs, hpc⟩ := Machine.exists_of_run h
  refine ⟨s₀, s, hinit, hs, hpc, sessions_handed_over hinit hs ?_⟩
  cases hinit
  decide +kernel

end EspPassthrough
