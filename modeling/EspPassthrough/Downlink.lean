import EspPassthrough.ExitSemaphore
import EspPassthrough.TaggedLog

/-! What the clients send, on its way to the UART. A downlink writes a chunk it has
received before it looks at anything else, so that nothing is left behind when its
session ends; whose bytes come first depends on the hand-over. -/

namespace EspPassthrough

/-- What each downlink has received, and what has been written to the UART by which
downlink. -/
structure Downstream where
  received : Nat → List UInt8
  written : List (Nat × List UInt8)

def Downstream.none : Downstream := ⟨fun _ => [], []⟩

/-- The chunk received and not yet written. -/
def TaskPc.unwritten : TaskPc TcpToUartPc → List UInt8
  | .body (.uartWrite bytes) => bytes
  | _ => []

def Bridge.downlinkNote (s : Bridge) (k : Nat) (a : Answer) (h : Downstream) : Downstream :=
  match s.tcpToUart k, a with
  | .body .inRecv, .data bytes =>
    { h with received := Function.update h.received k (h.received k ++ bytes) }
  | .body (.uartWrite bytes), .done => { h with written := h.written ++ [(k, bytes)] }
  | _, _ => h

def Bridge.noteDownlink (s : Bridge) : Act → Downstream → Downstream
  | .tcpToUart k a, h => s.downlinkNote k a h
  | _, h => h

structure Bridge.Relayed (s : Bridge) (h : Downstream) : Prop where
  numbered : s.Numbered
  uart : s.uartTx = TaggedLog.all h.written
  relayed : ∀ k, TaggedLog.of k h.written ++ (s.tcpToUart k).unwritten = h.received k
  one_buffer : ∀ k, (s.tcpToUart k).unwritten.length ≤ bufSize

theorem Bridge.start_relayed (cache : Cache) : (Bridge.start cache).Relayed .none where
  numbered := Bridge.start_numbered cache
  uart := rfl
  relayed := fun _ => rfl
  one_buffer := fun _ => Nat.zero_le _

theorem TaskPc.Ended.unwritten_eq {pc : TaskPc TcpToUartPc} (h : pc.Ended) : pc.unwritten = [] := by
  rcases h with rfl | rfl <;> rfl

theorem taskFrame_unwritten {ctx : BridgeContext} {pc : TaskPc TcpToUartPc} {a : Answer}
    {r : TaskPc TcpToUartPc × BridgeContext} (h : taskFrame .recv ctx pc a = some r) :
    pc.unwritten = [] ∧ r.1.unwritten = [] := by
  unfold taskFrame at h
  split at h
  case h_1 ok =>
    cases h
    cases ok <;> exact ⟨rfl, rfl⟩
  case h_2 =>
    cases h
    by_cases hr : ctx.running = true
    · simp [hr, TaskPc.unwritten]
    · simp [hr, TaskPc.unwritten]
  case h_3 | h_4 | h_5 =>
    cases h
    exact ⟨rfl, rfl⟩
  case h_6 => cases h

/-- What a step of one downlink does to its bytes. -/
inductive Downflow (s t : Bridge) (k : Nat) (h h' : Downstream) : Prop where
  | received (bytes : List UInt8) (hle : bytes.length ≤ bufSize)
      (hold : (s.tcpToUart k).unwritten = []) (hnew : (t.tcpToUart k).unwritten = bytes)
      (hh : h' = { h with received := Function.update h.received k (h.received k ++ bytes) })
      (ht : t.uartTx = s.uartTx)
  | wrote (hnew : (t.tcpToUart k).unwritten = [])
      (hh : h' = { h with written := h.written ++ [(k, (s.tcpToUart k).unwritten)] })
      (ht : t.uartTx = s.uartTx ++ (s.tcpToUart k).unwritten)
  | kept (hnew : (t.tcpToUart k).unwritten = (s.tcpToUart k).unwritten) (hh : h' = h)
      (ht : t.uartTx = s.uartTx)

theorem tcpToUartTask_downflow {s t : Bridge} {k : Nat} {a : Answer} (h : Downstream)
    (hs : tcpToUartTask s k a = some t) : Downflow s t k h (s.downlinkNote k a h) := by
  obtain ⟨pc, ctx, uartTx, rfl, hstep⟩ := tcpToUartTask_cases hs
  have hnow : { s.setTcpToUart k pc with ctx, uartTx }.tcpToUart k = pc := by
    simp [Bridge.setTcpToUart]
  cases hstep with
  | call hpc | closed hpc =>
    refine .kept ?_ (by simp only [Bridge.downlinkNote, hpc]) rfl
    rw [hnow, hpc]
    rfl
  | received bytes hpc hle =>
    refine .received bytes hle (by rw [hpc]; rfl) ?_ (by simp only [Bridge.downlinkNote, hpc]) rfl
    rw [hnow]
    by_cases hne : bytes ≠ []
    · rw [if_pos hne]
      rfl
    · rw [if_neg hne, not_not.mp hne]
      rfl
  | wrote bytes hpc =>
    have hold : (s.tcpToUart k).unwritten = bytes := by rw [hpc]; rfl
    refine .wrote (by rw [hnow]; rfl) ?_ (by rw [hold])
    rw [hold]
    simp only [Bridge.downlinkNote, hpc]
  | frame a r hr =>
    obtain ⟨hpc, hr1⟩ := taskFrame_unwritten hr
    have hnote : s.downlinkNote k a h = h := by
      unfold Bridge.downlinkNote
      split
      case h_1 bytes hpc' => simp [hpc', taskFrame] at hr
      case h_2 bytes hpc' => simp [hpc', taskFrame] at hr
      case h_3 => rfl
    exact .kept (by rw [hnow, hpc, hr1]) hnote rfl

theorem Bridge.Relayed.keep {s t : Bridge} {h : Downstream} (hi : s.Relayed h) (ht : t.Numbered)
    (hd : ∀ k, (t.tcpToUart k).unwritten = (s.tcpToUart k).unwritten) (hu : t.uartTx = s.uartTx) :
    t.Relayed h where
  numbered := ht
  uart := hu.trans hi.uart
  relayed := by
    intro k
    rw [hd]
    exact hi.relayed k
  one_buffer := by
    intro k
    rw [hd]
    exact hi.one_buffer k

theorem Bridge.Relayed.downlink {s t : Bridge} {h : Downstream} {k : Nat} {a : Answer}
    (hi : s.Relayed h) (hs : tcpToUartTask s k a = some t) : t.Relayed (s.downlinkNote k a h) := by
  have hnum : t.Numbered := hi.numbered.step (a := .tcpToUart k a) hs
  have hflow := tcpToUartTask_downflow h hs
  have hother : ∀ j, j ≠ k → t.tcpToUart j = s.tcpToUart j := by
    intro j hj
    obtain ⟨pc, _, _, rfl, _⟩ := tcpToUartTask_cases hs
    simp [Bridge.setTcpToUart, hj]
  cases hflow with
  | received bytes hle hold hnew hh ht =>
    rw [hh]
    refine ⟨hnum, ht.trans hi.uart, fun j => ?_, fun j => ?_⟩
    · have hj' := hi.relayed j
      by_cases hj : j = k
      · subst hj
        rw [hold, List.append_nil] at hj'
        simp [hnew, hj']
      · rw [hother j hj, hj']
        simp [hj]
    · by_cases hj : j = k
      · subst hj
        rw [hnew]
        exact hle
      · rw [hother j hj]
        exact hi.one_buffer j
  | wrote hnew hh ht =>
    rw [hh]
    refine ⟨hnum, ?_, fun j => ?_, fun j => ?_⟩
    · rw [ht, hi.uart, TaggedLog.all_concat]
    · by_cases hj : j = k
      · subst hj
        rw [hnew, TaggedLog.of_concat_self, List.append_nil]
        exact hi.relayed j
      · rw [hother j hj, TaggedLog.of_concat_ne (Ne.symm hj)]
        exact hi.relayed j
    · by_cases hj : j = k
      · subst hj
        rw [hnew]
        exact Nat.zero_le _
      · rw [hother j hj]
        exact hi.one_buffer j
  | kept hnew hh ht =>
    rw [hh]
    refine hi.keep hnum (fun j => ?_) ht
    by_cases hj : j = k
    · subst hj
      exact hnew
    · rw [hother j hj]

theorem tcpServerTask_unwritten {s t : Bridge} {a : Answer} (h : s.Numbered)
    (hs : tcpServerTask s a = some t) :
    (∀ k, (t.tcpToUart k).unwritten = (s.tcpToUart k).unwritten) ∧ t.uartTx = s.uartTx := by
  cases tcpServerTask_step hs with
  | @createTcpToUart ok hpc =>
    have hnone := h.noDownlink (by simp [hpc, ServerPc.beforeDownlink])
    refine ⟨fun k => ?_, rfl⟩
    by_cases hk : k = s.session
    · subst hk
      rw [hnone]
      cases ok <;> simp [Bridge.setTcpToUart, TaskPc.unwritten]
    · simp [Bridge.setTcpToUart, hk]
  | _ => exact ⟨fun _ => rfl, rfl⟩

theorem Bridge.Relayed.step {s t : Bridge} {h : Downstream} {a : Act} (hi : s.Relayed h)
    (hs : s.step a = some t) : t.Relayed (s.noteDownlink a h) := by
  have hnum := hi.numbered.step hs
  cases a with
  | elapse ms =>
    cases hs
    exact hi.keep hnum (fun _ => rfl) rfl
  | daemon a =>
    obtain ⟨_, _, _, rfl⟩ := uartRxDaemonTask_frame hs
    exact hi.keep hnum (fun _ => rfl) rfl
  | server a =>
    obtain ⟨hd, hu⟩ := tcpServerTask_unwritten hi.numbered hs
    exact hi.keep hnum hd hu
  | tcpToUart k a => exact hi.downlink hs
  | bufferToTcp k a =>
    obtain ⟨_, _, _, _, _, rfl⟩ := bufferToTcpTask_frame hs
    exact hi.keep hnum (fun _ => rfl) rfl

/-- In every run, each downlink's bytes come out of the UART in the order in which it
received them, all but one buffer of them at any time, and all of them by its end. -/
theorem downlink_relays {malloc : Malloc} {rb : RingBuf} {s₀ s : Bridge} {as : List Act}
    {h : Downstream} (hinit : tcpBridgeInit malloc rb = some s₀)
    (hrun : Machine.run (Machine.monitored Bridge.step Bridge.noteDownlink) (s₀, .none) as =
      some (s, h)) :
    s.uartTx = TaggedLog.all h.written ∧ ∀ k,
      TaggedLog.of k h.written ++ (s.tcpToUart k).unwritten = h.received k ∧
      (s.tcpToUart k).unwritten.length ≤ bufSize ∧
      (TaggedLog.of k h.written).Sublist s.uartTx ∧
      ((s.tcpToUart k).Ended → TaggedLog.of k h.written = h.received k) := by
  obtain ⟨cache, rfl, _⟩ := tcpBridgeInit_start hinit
  have hend : s.Relayed h := by
    refine Machine.monitored_induction (motive := fun _ => Bridge.Relayed)
      (Bridge.start_relayed cache) ?_ hrun
    intro as a u v h _ hi hstep
    exact hi.step hstep
  refine ⟨hend.uart, fun k => ⟨hend.relayed k, hend.one_buffer k, ?_, fun he => ?_⟩⟩
  · rw [hend.uart]
    exact TaggedLog.of_sublist_all k h.written
  · have hk := hend.relayed k
    rwa [he.unwritten_eq, List.append_nil] at hk

/-- The client sends a chunk and leaves; the session ends before the server's delay. -/
def clientSends (fd : Int) (k : Nat) (bytes : List UInt8) : List Act :=
  acceptClient fd ++
  [.tcpToUart k (.created true), .tcpToUart k .done, .tcpToUart k .done, .tcpToUart k (.data bytes),
    .tcpToUart k .done, .tcpToUart k .done, .tcpToUart k .done, .tcpToUart k (.data []),
    .tcpToUart k .done, .tcpToUart k .done, .tcpToUart k .done, .tcpToUart k .done,
    .bufferToTcp k (.created true), .bufferToTcp k .done, .bufferToTcp k .done, .bufferToTcp k .done,
    .bufferToTcp k .done, .server .done, .server .done, .server .done, .server .done, .elapse 500,
    .server .done, .server .done]

/-- The second client's chunk has been received and not been written. -/
def twoClients : List Act :=
  [.server (.result 3)] ++ clientSends 5 1 [1, 2] ++ (clientSends 6 2 [3]).take 10

theorem downlink_relays_received :
    ∃ s₀ s h, tcpBridgeInit zeroMalloc unsetRingBuf = some s₀ ∧
      Machine.run (Machine.monitored Bridge.step Bridge.noteDownlink) (s₀, .none) twoClients =
        some (s, h) ∧
      TaggedLog.of 1 h.written = [1, 2] ∧ TaggedLog.of 2 h.written ++ [3] = h.received 2 := by
  have h : ((tcpBridgeInit zeroMalloc unsetRingBuf).bind fun s₀ =>
      Machine.run (Machine.monitored Bridge.step Bridge.noteDownlink) (s₀, .none) twoClients).map
        (fun r => (r.1.tcpToUart 1, r.1.tcpToUart 2, r.2.received 1)) =
      some (.gone, .body (.uartWrite [3]), [1, 2]) := by decide +kernel
  obtain ⟨s₀, s, h, hinit, hrun, he⟩ := Machine.exists_of_monitored h
  simp only [Prod.mk.injEq] at he
  obtain ⟨hfirst, hsecond, hreceived⟩ := he
  obtain ⟨_, hall⟩ := downlink_relays hinit hrun
  refine ⟨s₀, s, h, hinit, hrun, ?_, ?_⟩
  · rw [(hall 1).2.2.2 (.inr hfirst), hreceived]
  · have htwo := (hall 2).1
    rwa [hsecond] at htwo

/-! ## One session after the other -/

/-- The writes come from the sessions in their order. -/
structure Bridge.InOrder (s : Bridge) (written : List (Nat × List UInt8)) : Prop where
  sorted : (written.map Prod.fst).Pairwise (· ≤ ·)
  le_session : ∀ e ∈ written, e.1 ≤ s.session

theorem Bridge.InOrder.keep {s t : Bridge} {written : List (Nat × List UInt8)}
    (h : s.InOrder written) (hn : s.session ≤ t.session) : t.InOrder written :=
  ⟨h.sorted, fun e he => (h.le_session e he).trans hn⟩

theorem Bridge.InOrder.write {s t : Bridge} {written : List (Nat × List UInt8)}
    (h : s.InOrder written) (hn : t.session = s.session) (chunk : List UInt8) :
    t.InOrder (written ++ [(s.session, chunk)]) := by
  refine ⟨?_, fun e he => ?_⟩
  · rw [List.map_append, List.pairwise_append]
    refine ⟨h.sorted, by simp, ?_⟩
    intro k hk j hj
    obtain ⟨e, he, rfl⟩ := List.mem_map.mp hk
    obtain rfl : j = s.session := by simpa using hj
    exact h.le_session e he
  · rw [hn]
    rcases List.mem_append.mp he with he | he
    · exact h.le_session e he
    · obtain rfl := List.mem_singleton.mp he
      exact le_rfl

theorem Bridge.InOrder.step {s t : Bridge} {h : Downstream} {a : Act} (hi : s.InOrder h.written)
    (htidy : s.Tidy) (hs : s.step a = some t) : t.InOrder (s.noteDownlink a h).written := by
  cases a with
  | elapse ms =>
    cases hs
    exact hi.keep le_rfl
  | daemon a =>
    obtain ⟨_, _, _, rfl⟩ := uartRxDaemonTask_frame hs
    exact hi.keep le_rfl
  | server a =>
    refine hi.keep ?_
    cases tcpServerTask_step hs with
    | initSock => exact Nat.le_succ _
    | _ => exact le_rfl
  | tcpToUart k a =>
    -- a task that still runs is the current session's
    have hlive := (tcpToUartTask_frame hs).1
    obtain ⟨rfl, _, _⟩ := htidy.live fun he => hlive he.1
    have hn : t.session = s.session := by
      obtain ⟨_, _, _, _, rfl⟩ := tcpToUartTask_frame hs
      rfl
    cases tcpToUartTask_downflow h hs with
    | received _ _ _ _ hh | kept _ hh =>
      rw [Bridge.noteDownlink, hh]
      exact hi.keep hn.ge
    | wrote _ hh =>
      rw [Bridge.noteDownlink, hh]
      exact hi.write hn _
  | bufferToTcp k a =>
    obtain ⟨_, _, _, _, _, rfl⟩ := bufferToTcpTask_frame hs
    exact hi.keep le_rfl

/-- As long as every session's tasks end before the server's delay does, the UART gets
everything the clients have sent, one session after the other. -/
theorem downlink_in_session_order {malloc : Malloc} {rb : RingBuf} {s₀ s : Bridge} {as : List Act}
    {h : Downstream} (hinit : tcpBridgeInit malloc rb = some s₀)
    (hrun : Machine.run (Machine.monitored Bridge.step Bridge.noteDownlink) (s₀, .none) as =
      some (s, h))
    (hok : Machine.Meets Bridge.step Bridge.EndsInTime s₀ as) :
    s.uartTx ++ (s.tcpToUart s.session).unwritten =
      (List.range (s.session + 1)).flatMap h.received := by
  obtain ⟨cache, rfl, _⟩ := tcpBridgeInit_start hinit
  have hstart : (Bridge.start cache).InOrder [] := ⟨.nil, by simp⟩
  have hend : s.Tidy ∧ s.Relayed h ∧ s.InOrder h.written := by
    apply Machine.invariant_of_monitored _ _ hrun hok
    · rintro u a v h ⟨htidy, hrel, hord⟩ ha hv
      exact ⟨htidy.step ha hv, hrel.step hv, hord.step htidy hv⟩
    · exact ⟨Bridge.start_tidy cache, Bridge.start_relayed cache, hstart⟩
  obtain ⟨htidy, hrel, hord⟩ := hend
  have hpast : ∀ k ∈ List.range s.session, TaggedLog.of k h.written = h.received k := by
    intro k hk
    have hk' := hrel.relayed k
    rwa [(htidy.past k (List.mem_range.mp hk)).1.unwritten_eq, List.append_nil] at hk'
  rw [hrel.uart, TaggedLog.all_of_sorted hord.sorted fun e he => Nat.lt_succ_of_le (hord.le_session e he),
    List.range_succ, List.flatMap_append, List.flatMap_append, List.flatMap_singleton,
    List.flatMap_singleton, List.flatMap_congr hpast, List.append_assoc, hrel.relayed]

theorem downlink_in_session_order_two :
    ∃ s₀ s h, tcpBridgeInit zeroMalloc unsetRingBuf = some s₀ ∧
      Machine.run (Machine.monitored Bridge.step Bridge.noteDownlink) (s₀, .none) twoClients =
        some (s, h) ∧
      s.session = 2 ∧ s.uartTx ++ [3] = h.received 0 ++ h.received 1 ++ h.received 2 := by
  have h : ((tcpBridgeInit zeroMalloc unsetRingBuf).bind fun s₀ =>
      Machine.run (Machine.monitored Bridge.step Bridge.noteDownlink) (s₀, .none) twoClients).map
        (fun r => (r.1.session, r.1.tcpToUart 2)) = some (2, .body (.uartWrite [3])) := by
    decide +kernel
  obtain ⟨s₀, s, h, hinit, hrun, he⟩ := Machine.exists_of_monitored h
  obtain ⟨hsession, hpc⟩ := Prod.mk.inj he
  refine ⟨s₀, s, h, hinit, hrun, hsession, ?_⟩
  have hall := downlink_in_session_order hinit hrun (by
    cases hinit
    decide +kernel)
  rw [hsession, hpc] at hall
  simpa [List.range_succ, TaskPc.unwritten] using hall

end EspPassthrough
