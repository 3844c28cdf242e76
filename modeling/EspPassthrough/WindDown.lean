import EspPassthrough.Downlink

/-! The end of a session. Once the context's `running` is clear, the tasks have only a
few steps left, move at most one more buffer each, and are never stuck; this is why a
fixed delay can be enough before the semaphore is deleted. -/

namespace EspPassthrough

def ServerPc.setsUp : ServerPc → Bool
  | .initRunning | .createTcpToUart | .createBufferToTcp => true
  | _ => false

/-- The step neither sets `running` nor creates a task. -/
def Bridge.SetsNothingUp (s : Bridge) : Act → Prop
  | .server _ => s.server.setsUp = false
  | _ => True

instance (s : Bridge) : (a : Act) → Decidable (s.SetsNothingUp a)
  | .server _ => inferInstanceAs (Decidable (_ = _))
  | .elapse _ | .daemon _ | .tcpToUart _ _ | .bufferToTcp _ _ => isTrue trivial

def TcpToUartPc.stepsLeft : TcpToUartPc → Nat
  | .recv => 3
  | .inRecv => 2
  | .uartWrite _ => 1
  | .logTest => 0

def BufferToTcpPc.stepsLeft : BufferToTcpPc → Nat
  | .rbRead => 3
  | .send _ => 2
  | .inSend _ | .delay _ => 1

/-- A bound on the steps to the end of the task while `running` is clear. -/
def TaskPc.stepsLeft {β : Type} (body : β → Nat) : TaskPc β → Nat
  | .absent | .gone => 0
  | .deleteSelf => 1
  | .give => 2
  | .clearRunning => 3
  | .loopTest => 4
  | .malloc => 5
  | .body pc => 4 + body pc

/-- The bytes that the task can still write to the UART while `running` is clear. -/
def TaskPc.writesLeft : TaskPc TcpToUartPc → Nat
  | .body .recv | .body .inRecv => bufSize
  | pc => pc.unwritten.length

def TaskPc.sendsLeft : TaskPc BufferToTcpPc → Nat
  | .body .rbRead => bufSize
  | pc => pc.hand.length

def Bridge.downlinkSteps (k : Nat) (_ : Bridge) : Act → Nat
  | .tcpToUart j _ => if j = k then 1 else 0
  | _ => 0

def Bridge.uplinkSteps (k : Nat) (_ : Bridge) : Act → Nat
  | .bufferToTcp j _ => if j = k then 1 else 0
  | _ => 0

def Bridge.downlinkWrites (k : Nat) (s : Bridge) : Act → Nat
  | .tcpToUart j a =>
    if j = k then ((tcpToUartTask s j a).map fun t => t.uartTx.length - s.uartTx.length).getD 0 else 0
  | _ => 0

def Bridge.uplinkSends (k : Nat) (s : Bridge) : Act → Nat
  | .bufferToTcp j a =>
    if j = k then ((bufferToTcpTask s j a).map fun t => t.accepted.length - s.accepted.length).getD 0
    else 0
  | _ => 0

theorem TcpToUartPc.stepsLeft_le (pc : TcpToUartPc) : pc.stepsLeft ≤ 3 := by
  cases pc <;> simp [TcpToUartPc.stepsLeft]

theorem BufferToTcpPc.stepsLeft_le (pc : BufferToTcpPc) : pc.stepsLeft ≤ 3 := by
  cases pc <;> simp [BufferToTcpPc.stepsLeft]

theorem TaskPc.stepsLeft_le {β : Type} {body : β → Nat} (h : ∀ pc, body pc ≤ 3) (pc : TaskPc β) :
    pc.stepsLeft body ≤ 7 := by
  cases pc with
  | body pc =>
    have hpc := h pc
    rw [TaskPc.stepsLeft]
    omega
  | _ => simp [TaskPc.stepsLeft]

theorem TaskPc.stepsLeft_pos {β : Type} {body : β → Nat} {pc : TaskPc β} (h : ¬pc.Ended) :
    0 < pc.stepsLeft body := by
  cases pc with
  | absent => exact False.elim (h (.inl rfl))
  | gone => exact False.elim (h (.inr rfl))
  | body pc =>
    rw [TaskPc.stepsLeft]
    omega
  | _ => simp [TaskPc.stepsLeft]

/-- With `running` clear, the frame of a task only leads out of its loop. -/
theorem taskFrame_winds_down {β : Type} {first : β} {body : β → Nat} {ctx : BridgeContext}
    {pc : TaskPc β} {a : Answer} {r : TaskPc β × BridgeContext} (hstop : ctx.running = false)
    (h : taskFrame first ctx pc a = some r) :
    r.2.running = false ∧ 1 + r.1.stepsLeft body ≤ pc.stepsLeft body ∧ ∀ pc, r.1 ≠ .body pc := by
  unfold taskFrame at h
  split at h
  case h_1 ok =>
    cases h
    cases ok <;> simp [hstop, TaskPc.stepsLeft]
  case h_2 =>
    cases h
    simp [hstop, TaskPc.stepsLeft]
  case h_3 =>
    cases h
    simp [TaskPc.stepsLeft]
  case h_4 | h_5 =>
    cases h
    simp [hstop, TaskPc.stepsLeft]
  case h_6 => cases h

theorem tcpToUartTask_winds_down {s t : Bridge} {k : Nat} {a : Answer}
    (hstop : s.ctx.running = false) (h : tcpToUartTask s k a = some t) :
    t.ctx.running = false ∧
      1 + (t.tcpToUart k).stepsLeft TcpToUartPc.stepsLeft ≤
        (s.tcpToUart k).stepsLeft TcpToUartPc.stepsLeft ∧
      t.uartTx.length - s.uartTx.length + (t.tcpToUart k).writesLeft ≤ (s.tcpToUart k).writesLeft := by
  obtain ⟨pc, ctx, uartTx, rfl, hstep⟩ := tcpToUartTask_cases h
  have hnow : { s.setTcpToUart k pc with ctx, uartTx }.tcpToUart k = pc := by
    simp [Bridge.setTcpToUart]
  rw [hnow]
  cases hstep with
  | call hpc | closed hpc =>
    rw [hpc]
    simp [hstop, TaskPc.stepsLeft, TcpToUartPc.stepsLeft, TaskPc.writesLeft, TaskPc.unwritten]
  | received bytes hpc hle =>
    rw [hpc]
    refine ⟨hstop, ?_, ?_⟩
    · by_cases hne : bytes ≠ []
      · simp [hne, TaskPc.stepsLeft, TcpToUartPc.stepsLeft]
      · simp [hne, TaskPc.stepsLeft, TcpToUartPc.stepsLeft]
    · by_cases hne : bytes ≠ []
      · simpa [hne, TaskPc.writesLeft, TaskPc.unwritten] using hle
      · simp [hne, TaskPc.writesLeft, TaskPc.unwritten]
  | wrote bytes hpc =>
    rw [hpc]
    simp [hstop, TaskPc.stepsLeft, TcpToUartPc.stepsLeft, TaskPc.writesLeft, TaskPc.unwritten]
  | frame a r hr =>
    obtain ⟨hstop', hsteps, hbody⟩ := taskFrame_winds_down hstop hr
    refine ⟨hstop', hsteps, ?_⟩
    have hnone := (taskFrame_unwritten hr).2
    have hwrites : r.1.writesLeft = r.1.unwritten.length := by
      unfold TaskPc.writesLeft
      split
      case h_1 hpc => exact absurd hpc (hbody _)
      case h_2 hpc => exact absurd hpc (hbody _)
      case h_3 => rfl
    show s.uartTx.length - s.uartTx.length + r.1.writesLeft ≤ _
    rw [hwrites, hnone, Nat.sub_self]
    exact Nat.zero_le _

theorem Cache.read_length_le (c : Cache) : c.read.2.length ≤ bufSize := by
  rw [c.read_contents.1, List.length_take]
  exact Nat.min_le_left _ _

theorem bufferToTcpTask_winds_down {s t : Bridge} {k : Nat} {a : Answer}
    (hstop : s.ctx.running = false) (h : bufferToTcpTask s k a = some t) :
    t.ctx.running = false ∧
      1 + (t.bufferToTcp k).stepsLeft BufferToTcpPc.stepsLeft ≤
        (s.bufferToTcp k).stepsLeft BufferToTcpPc.stepsLeft ∧
      t.accepted.length - s.accepted.length + (t.bufferToTcp k).sendsLeft ≤
        (s.bufferToTcp k).sendsLeft := by
  obtain ⟨pc, ctx, cache, accepted, rfl, hstep⟩ := bufferToTcpTask_cases h
  have hnow : { s.setBufferToTcp k pc with ctx, cache, accepted }.bufferToTcp k = pc := by
    simp [Bridge.setBufferToTcp]
  rw [hnow]
  cases hstep with
  | read hpc _ =>
    rw [hpc]
    have hle := s.cache.read_length_le
    simpa [hstop, TaskPc.stepsLeft, BufferToTcpPc.stepsLeft, TaskPc.sendsLeft, TaskPc.hand] using hle
  | empty hpc _ | call chunk hpc | delayed u hpc =>
    rw [hpc]
    simp [hstop, TaskPc.stepsLeft, BufferToTcpPc.stepsLeft, TaskPc.sendsLeft, TaskPc.hand]
  | failed chunk n hpc _ =>
    rw [hpc]
    simp [hstop, TaskPc.stepsLeft, BufferToTcpPc.stepsLeft, TaskPc.sendsLeft, TaskPc.hand]
  | sent chunk n hpc _ _ =>
    rw [hpc]
    simp [hstop, TaskPc.stepsLeft, BufferToTcpPc.stepsLeft, TaskPc.sendsLeft, TaskPc.hand]
  | frame a r hr =>
    obtain ⟨hstop', hsteps, hbody⟩ := taskFrame_winds_down hstop hr
    refine ⟨hstop', hsteps, ?_⟩
    have hnone := (taskFrame_hand hr fun _ => ⟨BufferToTcpPc.noConfusion, BufferToTcpPc.noConfusion⟩).2.1
    have hsends : r.1.sendsLeft = r.1.hand.length := by
      unfold TaskPc.sendsLeft
      split
      case h_1 hpc => exact absurd hpc (hbody _)
      case h_2 => rfl
    show s.accepted.length - s.accepted.length + r.1.sendsLeft ≤ _
    rw [hsends, hnone, Nat.sub_self]
    exact Nat.zero_le _

theorem tcpServerTask_sets_nothing_up {s t : Bridge} {a : Answer} (hstop : s.ctx.running = false)
    (hquiet : s.server.setsUp = false) (h : tcpServerTask s a = some t) :
    t.ctx.running = false ∧ t.tcpToUart = s.tcpToUart ∧ t.bufferToTcp = s.bufferToTcp := by
  cases tcpServerTask_step h with
  | initRunning hpc | createTcpToUart hpc | createBufferToTcp hpc =>
    rw [hpc] at hquiet
    cases hquiet
  | clearRunning => exact ⟨rfl, rfl, rfl⟩
  | _ => exact ⟨hstop, rfl, rfl⟩

theorem setTcpToUart_ne {s t : Bridge} {j k : Nat} {a : Answer} (hj : j ≠ k)
    (h : tcpToUartTask s j a = some t) : t.tcpToUart k = s.tcpToUart k := by
  obtain ⟨_, pc, _, _, rfl⟩ := tcpToUartTask_frame h
  simp [Bridge.setTcpToUart, Ne.symm hj]

theorem setBufferToTcp_ne {s t : Bridge} {j k : Nat} {a : Answer} (hj : j ≠ k)
    (h : bufferToTcpTask s j a = some t) : t.bufferToTcp k = s.bufferToTcp k := by
  obtain ⟨_, pc, _, _, _, rfl⟩ := bufferToTcpTask_frame h
  simp [Bridge.setBufferToTcp, Ne.symm hj]

/-- What a step takes away from what the tasks of the `k`-th session have left. -/
structure Bridge.WindsDown (k : Nat) (s : Bridge) (a : Act) (t : Bridge) : Prop where
  stopped : t.ctx.running = false
  downlinkSteps : s.downlinkSteps k a + (t.tcpToUart k).stepsLeft TcpToUartPc.stepsLeft ≤
    (s.tcpToUart k).stepsLeft TcpToUartPc.stepsLeft
  downlinkWrites : s.downlinkWrites k a + (t.tcpToUart k).writesLeft ≤ (s.tcpToUart k).writesLeft
  uplinkSteps : s.uplinkSteps k a + (t.bufferToTcp k).stepsLeft BufferToTcpPc.stepsLeft ≤
    (s.bufferToTcp k).stepsLeft BufferToTcpPc.stepsLeft
  uplinkSends : s.uplinkSends k a + (t.bufferToTcp k).sendsLeft ≤ (s.bufferToTcp k).sendsLeft

theorem Bridge.WindsDown.idle {s t : Bridge} {a : Act} {k : Nat} (hstop : t.ctx.running = false)
    (hd : t.tcpToUart = s.tcpToUart) (hu : t.bufferToTcp = s.bufferToTcp)
    (ha : ∀ j b, a ≠ .tcpToUart j b ∧ a ≠ .bufferToTcp j b) : Bridge.WindsDown k s a t := by
  cases a with
  | tcpToUart j b => exact absurd rfl (ha j b).1
  | bufferToTcp j b => exact absurd rfl (ha j b).2
  | _ =>
    refine ⟨hstop, ?_, ?_, ?_, ?_⟩
    · simp [Bridge.downlinkSteps, hd]
    · simp [Bridge.downlinkWrites, hd]
    · simp [Bridge.uplinkSteps, hu]
    · simp [Bridge.uplinkSends, hu]

theorem Bridge.step_winds_down {s t : Bridge} {a : Act} (k : Nat) (hstop : s.ctx.running = false)
    (hquiet : s.SetsNothingUp a) (h : s.step a = some t) : Bridge.WindsDown k s a t := by
  cases a with
  | elapse ms =>
    cases h
    exact .idle hstop rfl rfl (by simp)
  | daemon a =>
    obtain ⟨_, _, _, rfl⟩ := uartRxDaemonTask_frame h
    exact .idle hstop rfl rfl (by simp)
  | server a =>
    obtain ⟨hstop', hd, hu⟩ := tcpServerTask_sets_nothing_up hstop hquiet h
    exact .idle hstop' hd hu (by simp)
  | tcpToUart j a =>
    have h' : tcpToUartTask s j a = some t := h
    obtain ⟨hstop', hsteps, hwrites⟩ := tcpToUartTask_winds_down hstop h'
    have hu : t.bufferToTcp = s.bufferToTcp := by
      obtain ⟨_, _, _, _, rfl⟩ := tcpToUartTask_frame h'
      rfl
    refine ⟨hstop', ?_, ?_, by simp [Bridge.uplinkSteps, hu], by simp [Bridge.uplinkSends, hu]⟩
    · by_cases hj : j = k
      · subst hj
        simpa [Bridge.downlinkSteps] using hsteps
      · simp [Bridge.downlinkSteps, hj, setTcpToUart_ne hj h']
    · by_cases hj : j = k
      · subst hj
        simpa [Bridge.downlinkWrites, h'] using hwrites
      · simp [Bridge.downlinkWrites, hj, setTcpToUart_ne hj h']
  | bufferToTcp j a =>
    have h' : bufferToTcpTask s j a = some t := h
    obtain ⟨hstop', hsteps, hsends⟩ := bufferToTcpTask_winds_down hstop h'
    have hd : t.tcpToUart = s.tcpToUart := by
      obtain ⟨_, _, _, _, _, rfl⟩ := bufferToTcpTask_frame h'
      rfl
    refine ⟨hstop', by simp [Bridge.downlinkSteps, hd], by simp [Bridge.downlinkWrites, hd], ?_, ?_⟩
    · by_cases hj : j = k
      · subst hj
        simpa [Bridge.uplinkSteps] using hsteps
      · simp [Bridge.uplinkSteps, hj, setBufferToTcp_ne hj h']
    · by_cases hj : j = k
      · subst hj
        simpa [Bridge.uplinkSends, h'] using hsends
      · simp [Bridge.uplinkSends, hj, setBufferToTcp_ne hj h']

/-! ## A task has at most one buffer in its hands -/

def Bridge.OneBuffer (s : Bridge) : Prop :=
  ∀ k, (s.tcpToUart k).writesLeft ≤ bufSize ∧ (s.bufferToTcp k).sendsLeft ≤ bufSize

theorem DownlinkStep.writesLeft_le {s : Bridge} {pc pc' : TaskPc TcpToUartPc} {a : Answer}
    {ctx : BridgeContext} {uartTx : List UInt8} (h : DownlinkStep s pc a pc' ctx uartTx) :
    pc'.writesLeft ≤ bufSize := by
  cases h with
  | call => exact le_rfl
  | received bytes _ hle =>
    by_cases hne : bytes ≠ []
    · rw [if_pos hne]
      exact hle
    · rw [if_neg hne]
      exact Nat.zero_le _
  | wrote | closed => exact Nat.zero_le _
  | frame a r hr =>
    unfold TaskPc.writesLeft
    split
    case h_1 | h_2 => exact le_rfl
    case h_3 =>
      rw [(taskFrame_unwritten hr).2]
      exact Nat.zero_le _

theorem UplinkStep.sendsLeft_le {s : Bridge} {pc pc' : TaskPc BufferToTcpPc} {a : Answer}
    {ctx : BridgeContext} {cache : Cache} {accepted : List UInt8}
    (h : UplinkStep s pc a pc' ctx cache accepted) (hpc : pc.sendsLeft ≤ bufSize) :
    pc'.sendsLeft ≤ bufSize := by
  cases h with
  | read => exact s.cache.read_length_le
  | call chunk he =>
    rw [he] at hpc
    exact hpc
  | empty | failed | sent | delayed => exact Nat.zero_le _
  | frame a r hr =>
    unfold TaskPc.sendsLeft
    split
    case h_1 => exact le_rfl
    case h_2 =>
      rw [(taskFrame_hand hr fun _ => ⟨BufferToTcpPc.noConfusion, BufferToTcpPc.noConfusion⟩).2.1]
      exact Nat.zero_le _

theorem Bridge.OneBuffer.serverStep {s t : Bridge} {a : Answer} (h : s.OneBuffer)
    (hs : tcpServerTask s a = some t) : t.OneBuffer := by
  intro j
  obtain ⟨hd, hu⟩ := h j
  cases tcpServerTask_step hs with
  | @createTcpToUart ok =>
    refine ⟨?_, hu⟩
    by_cases hj : j = s.session
    · subst hj
      cases ok <;> simp [Bridge.setTcpToUart, TaskPc.writesLeft, TaskPc.unwritten]
    · simpa [Bridge.setTcpToUart, hj] using hd
  | @createBufferToTcp ok =>
    refine ⟨hd, ?_⟩
    by_cases hj : j = s.session
    · subst hj
      cases ok <;> simp [Bridge.setBufferToTcp, TaskPc.sendsLeft, TaskPc.hand]
    · simpa [Bridge.setBufferToTcp, hj] using hu
  | _ => exact ⟨hd, hu⟩

theorem Bridge.OneBuffer.step {s t : Bridge} {a : Act} (h : s.OneBuffer) (hs : s.step a = some t) :
    t.OneBuffer := by
  cases a with
  | elapse ms =>
    cases hs
    exact h
  | daemon a =>
    obtain ⟨_, _, _, rfl⟩ := uartRxDaemonTask_frame hs
    exact h
  | server a => exact h.serverStep hs
  | tcpToUart k a =>
    obtain ⟨pc, _, _, rfl, hstep⟩ := tcpToUartTask_cases hs
    intro j
    refine ⟨?_, (h j).2⟩
    by_cases hj : j = k
    · subst hj
      simpa [Bridge.setTcpToUart] using hstep.writesLeft_le
    · simpa [Bridge.setTcpToUart, hj] using (h j).1
  | bufferToTcp k a =>
    obtain ⟨pc, _, _, _, rfl, hstep⟩ := bufferToTcpTask_cases hs
    intro j
    refine ⟨(h j).1, ?_⟩
    by_cases hj : j = k
    · subst hj
      simpa [Bridge.setBufferToTcp] using hstep.sendsLeft_le (h j).2
    · simpa [Bridge.setBufferToTcp, hj] using (h j).2

/-! ## No task is stuck -/

theorem tcpToUartTask_enabled {s : Bridge} {k : Nat} (h : ¬(s.tcpToUart k).Ended) :
    ∃ a, (tcpToUartTask s k a).isSome := by
  match hpc : s.tcpToUart k with
  | .absent => exact False.elim (h (.inl hpc))
  | .gone => exact False.elim (h (.inr hpc))
  | .malloc => exact ⟨.created true, by simp [tcpToUartTask, hpc, taskFrame]⟩
  | .loopTest | .clearRunning | .give | .deleteSelf =>
    exact ⟨.done, by simp [tcpToUartTask, hpc, taskFrame]⟩
  | .body .inRecv => exact ⟨.data [], by simp [tcpToUartTask, hpc]⟩
  | .body .recv | .body (.uartWrite _) | .body .logTest => exact ⟨.done, by simp [tcpToUartTask, hpc]⟩

/-- An uplink that waits for time to pass can go on when it has. -/
theorem bufferToTcpTask_enabled {s : Bridge} {k : Nat} (h : ¬(s.bufferToTcp k).Ended) :
    ∃ ms a, (bufferToTcpTask { s with clock := s.clock + ms } k a).isSome := by
  match hpc : s.bufferToTcp k with
  | .absent => exact False.elim (h (.inl hpc))
  | .gone => exact False.elim (h (.inr hpc))
  | .malloc => exact ⟨0, .created true, by simp [bufferToTcpTask, hpc, taskFrame]⟩
  | .loopTest | .clearRunning | .give | .deleteSelf =>
    exact ⟨0, .done, by simp [bufferToTcpTask, hpc, taskFrame]⟩
  | .body .rbRead =>
    by_cases hr : s.cache.read.2 ≠ []
    · exact ⟨0, .done, by simp [bufferToTcpTask, hpc, hr]⟩
    · exact ⟨0, .done, by simp [bufferToTcpTask, hpc, hr]⟩
  | .body (.send chunk) => exact ⟨0, .done, by simp [bufferToTcpTask, hpc]⟩
  | .body (.inSend chunk) =>
    have hle : (-1 : Int) ≤ chunk.length := by omega
    exact ⟨0, .result (-1), by simp [bufferToTcpTask, hpc, hle]⟩
  | .body (.delay u) => exact ⟨u, .done, by simp [bufferToTcpTask, hpc]⟩

/-- From any reachable state in which `running` is clear, and until the next session is
set up, a task of any session takes at most seven further steps and moves at most one more
buffer; after fewer it has ended, or some answer lets it go on. -/
theorem session_winds_down {malloc : Malloc} {rb : RingBuf} {s₀ s t : Bridge} {as bs : List Act}
    (hinit : tcpBridgeInit malloc rb = some s₀) (hstart : Machine.run Bridge.step s₀ as = some s)
    (hstop : s.ctx.running = false) (hrun : Machine.run Bridge.step s bs = some t)
    (hquiet : Machine.Meets Bridge.step Bridge.SetsNothingUp s bs) (k : Nat) :
    t.ctx.running = false ∧
    (Machine.total Bridge.step (Bridge.downlinkSteps k) s bs ≤ 7 ∧
      Machine.total Bridge.step (Bridge.downlinkWrites k) s bs ≤ bufSize ∧
      ((t.tcpToUart k).Ended ∨
        Machine.total Bridge.step (Bridge.downlinkSteps k) s bs < 7 ∧
          ∃ a, (tcpToUartTask t k a).isSome)) ∧
    (Machine.total Bridge.step (Bridge.uplinkSteps k) s bs ≤ 7 ∧
      Machine.total Bridge.step (Bridge.uplinkSends k) s bs ≤ bufSize ∧
      ((t.bufferToTcp k).Ended ∨
        Machine.total Bridge.step (Bridge.uplinkSteps k) s bs < 7 ∧
          ∃ ms a, (bufferToTcpTask { t with clock := t.clock + ms } k a).isSome)) := by
  obtain ⟨cache, rfl, _⟩ := tcpBridgeInit_start hinit
  have hone : s.OneBuffer := by
    have hempty : (Bridge.start cache).OneBuffer := fun _ => ⟨Nat.zero_le _, Nat.zero_le _⟩
    apply Machine.invariant_of_meets _ hempty hstart (Machine.meets_of_forall (fun _ _ => trivial) _ _)
    intro u a v hu _ hv
    exact hu.step hv
  have hstep : ∀ (u : Bridge) (a : Act) (v : Bridge), u.ctx.running = false → u.SetsNothingUp a →
      u.step a = some v → Bridge.WindsDown k u a v :=
    fun u a v hu ha hv => Bridge.step_winds_down k hu ha hv
  have hbound : ∀ (cost : Bridge → Act → Nat) (potential : Bridge → Nat),
      (∀ u a v, Bridge.WindsDown k u a v → cost u a + potential v ≤ potential u) →
      t.ctx.running = false ∧ Machine.total Bridge.step cost s bs + potential t ≤ potential s :=
    fun _ _ hle => Machine.total_add_le
      (fun u a v hu ha hv => ⟨(hstep u a v hu ha hv).stopped, hle u a v (hstep u a v hu ha hv)⟩)
      hstop hrun hquiet
  obtain ⟨hstop', hdown⟩ := hbound _ _ fun _ _ _ hd => hd.downlinkSteps
  obtain ⟨_, hwrites⟩ := hbound _ _ fun _ _ _ hd => hd.downlinkWrites
  obtain ⟨_, hup⟩ := hbound _ _ fun _ _ _ hd => hd.uplinkSteps
  obtain ⟨_, hsends⟩ := hbound _ _ fun _ _ _ hd => hd.uplinkSends
  have hdown_le := TaskPc.stepsLeft_le TcpToUartPc.stepsLeft_le (s.tcpToUart k)
  have hup_le := TaskPc.stepsLeft_le BufferToTcpPc.stepsLeft_le (s.bufferToTcp k)
  obtain ⟨hwrites_le, hsends_le⟩ := hone k
  refine ⟨hstop', ⟨by omega, by omega, ?_⟩, ⟨by omega, by omega, ?_⟩⟩
  · by_cases hended : (t.tcpToUart k).Ended
    · exact .inl hended
    · have hpos : 0 < (t.tcpToUart k).stepsLeft TcpToUartPc.stepsLeft := TaskPc.stepsLeft_pos hended
      exact .inr ⟨by omega, tcpToUartTask_enabled hended⟩
  · by_cases hended : (t.bufferToTcp k).Ended
    · exact .inl hended
    · have hpos : 0 < (t.bufferToTcp k).stepsLeft BufferToTcpPc.stepsLeft :=
        TaskPc.stepsLeft_pos hended
      exact .inr ⟨by omega, bufferToTcpTask_enabled hended⟩

/-- The uplink is in its call when the session ends, and returns from it. -/
def uplinkReturns : List Act :=
  [.bufferToTcp 1 (.result 1), .bufferToTcp 1 .done, .bufferToTcp 1 .done]

theorem session_winds_down_returning :
    ∃ s₀ s t, tcpBridgeInit zeroMalloc unsetRingBuf = some s₀ ∧
      Machine.run Bridge.step s₀ clientLeaves = some s ∧
      Machine.run Bridge.step s uplinkReturns = some t ∧ ¬(t.bufferToTcp 1).Ended ∧
      Machine.total Bridge.step (Bridge.uplinkSends 1) s uplinkReturns ≤ bufSize ∧
      Machine.total Bridge.step (Bridge.uplinkSteps 1) s uplinkReturns < 7 := by
  have h : ((tcpBridgeInit zeroMalloc unsetRingBuf).bind fun s₀ =>
      Machine.run Bridge.step s₀ clientLeaves).map (fun s => (s.ctx.running,
        (Machine.run Bridge.step s uplinkReturns).map fun t => t.bufferToTcp 1)) =
      some (false, some .give) := by decide +kernel
  obtain ⟨s₀, s, hinit, hstart, he⟩ := Machine.exists_of_run h
  obtain ⟨hstop, hend⟩ := Prod.mk.inj he
  obtain ⟨t, hrun, hpc⟩ := Option.map_eq_some_iff.mp hend
  have hlive : ¬(t.bufferToTcp 1).Ended := by simp [hpc, TaskPc.Ended]
  obtain ⟨_, _, _, hsends, hended | ⟨hsteps, _⟩⟩ :=
    session_winds_down hinit hstart hstop hrun ⟨trivial, fun _ _ => ⟨trivial, fun _ _ => ⟨trivial,
      fun _ _ => trivial⟩⟩⟩ 1
  · exact absurd hended hlive
  · exact ⟨s₀, s, t, hinit, hstart, hrun, hlive, hsends, hsteps⟩

end EspPassthrough
