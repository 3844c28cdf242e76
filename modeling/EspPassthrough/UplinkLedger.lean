import EspPassthrough.Departure
import EspPassthrough.ExitSemaphore
import EspPassthrough.TaggedLog

/-! Where each byte of the UART has gone, in any run: also with tasks that outlive
their session, sends that fail or are short, and a cache that overflows. -/

namespace EspPassthrough

/-- What has left the cache, in order, and what the sockets accepted from which uplink. -/
structure Outflow where
  departures : List (Departure Nat UInt8)
  sends : List (Nat × List UInt8)

def Outflow.none : Outflow := ⟨[], []⟩

/-- The chunk an uplink has in hand. -/
def TaskPc.chunk : TaskPc BufferToTcpPc → Option (List UInt8)
  | .body (.send chunk) | .body (.inSend chunk) => some chunk
  | _ => .none

/-- The bytes that a write to the full cache pushes out of it. -/
def Bridge.pushedOut (s : Bridge) (bytes : List UInt8) : List UInt8 :=
  (s.cache.contents ++ bytes).take (s.cache.contents.length + bytes.length - uartCacheSize)

def Bridge.outflowNote (s : Bridge) (k : Nat) (a : Answer) (h : Outflow) : Outflow :=
  match s.bufferToTcp k, a with
  | .body .rbRead, .done =>
    if s.cache.read.2 ≠ [] then
      { h with departures := h.departures ++ [.taken k s.cache.read.2 .none] }
    else h
  | .body (.inSend chunk), .result sent =>
    ⟨h.departures.map (Departure.settle k sent.toNat), h.sends ++ [(k, chunk.take sent.toNat)]⟩
  | _, _ => h

def Bridge.noteOutflow (s : Bridge) : Act → Outflow → Outflow
  | .daemon (.data bytes), h =>
    { h with departures := h.departures ++ [.lost (s.pushedOut bytes)] }
  | .bufferToTcp k a, h => s.outflowNote k a h
  | _, h => h

structure Bridge.Booked (s : Bridge) (h : Outflow) (overflow : Nat) : Prop where
  numbered : s.Numbered
  stream : h.departures.flatMap Departure.block ++ s.cache.contents = s.uartRx
  holds : ∀ k, Departure.Holds k h.departures (s.bufferToTcp k).chunk
  accepted : s.accepted = TaggedLog.all h.sends
  sends : ∀ k, TaggedLog.of k h.sends = h.departures.flatMap (Departure.acceptedBy k)
  perm : (h.departures.flatMap Departure.accepted).Perm s.accepted
  lost : (h.departures.flatMap Departure.lostPart).length = overflow

theorem Bridge.start_booked {cache : Cache} (h : cache.contents = []) :
    (Bridge.start cache).Booked .none 0 where
  numbered := Bridge.start_numbered cache
  stream := h
  holds := fun _ _ hd => absurd hd List.not_mem_nil
  accepted := rfl
  sends := fun _ => rfl
  perm := .refl _
  lost := rfl

theorem Bridge.pushedOut_write (s : Bridge) (bytes : List UInt8) :
    s.pushedOut bytes ++ (s.cache.write bytes).contents = s.cache.contents ++ bytes ∧
      (s.pushedOut bytes).length = s.overflow (.daemon (.data bytes)) := by
  have hle := s.cache.count_le
  constructor
  · rw [Cache.write_contents, LossyQueue.pushAll, List.rtake, Bridge.pushedOut, List.length_append,
      List.take_append_drop]
  · rw [Bridge.pushedOut, List.length_take, List.length_append, Bridge.overflow]
    omega

theorem Cache.read_append (c : Cache) : c.read.2 ++ c.read.1.contents = c.contents := by
  obtain ⟨hread, hrest⟩ := c.read_contents
  rw [hread, hrest, List.take_append_drop]

/-- What one step does to the ledger; it overwrites `m` bytes. -/
inductive Outgo (s t : Bridge) (h h' : Outflow) (m : Nat) : Prop where
  | pushed {bytes out : List UInt8}
      (hout : out ++ t.cache.contents = s.cache.contents ++ bytes) (hlen : out.length = m)
      (hw : t.uartRx = s.uartRx ++ bytes) (hu : t.bufferToTcp = s.bufferToTcp)
      (ha : t.accepted = s.accepted)
      (hh : h' = { h with departures := h.departures ++ [.lost out] })
  | took {k : Nat} (hm : m = 0) (hlive : ¬(s.bufferToTcp k).Ended) (hc : t.cache = s.cache.read.1)
      (hw : t.uartRx = s.uartRx) (hold : (s.bufferToTcp k).chunk = none)
      (hnew : (t.bufferToTcp k).chunk = some s.cache.read.2)
      (hu : ∀ j, j ≠ k → t.bufferToTcp j = s.bufferToTcp j) (ha : t.accepted = s.accepted)
      (hh : h' = { h with departures := h.departures ++ [.taken k s.cache.read.2 none] })
  | sent {k n : Nat} {chunk : List UInt8} (hm : m = 0) (hc : t.cache = s.cache)
      (hw : t.uartRx = s.uartRx) (hold : (s.bufferToTcp k).chunk = some chunk)
      (hnew : (t.bufferToTcp k).chunk = none)
      (hu : ∀ j, j ≠ k → t.bufferToTcp j = s.bufferToTcp j)
      (ha : t.accepted = s.accepted ++ chunk.take n)
      (hh : h' = ⟨h.departures.map (Departure.settle k n), h.sends ++ [(k, chunk.take n)]⟩)
  | kept (hm : m = 0) (hc : t.cache.contents = s.cache.contents) (hw : t.uartRx = s.uartRx)
      (hu : ∀ k, (t.bufferToTcp k).chunk = (s.bufferToTcp k).chunk) (ha : t.accepted = s.accepted)
      (hh : h' = h)

theorem taskFrame_chunk {ctx : BridgeContext} {pc : TaskPc BufferToTcpPc} {a : Answer}
    {r : TaskPc BufferToTcpPc × BridgeContext} (h : taskFrame .rbRead ctx pc a = some r) :
    pc.chunk = none ∧ r.1.chunk = none := by
  unfold taskFrame at h
  split at h
  case h_1 ok =>
    cases h
    cases ok <;> exact ⟨rfl, rfl⟩
  case h_2 =>
    cases h
    by_cases hr : ctx.running = true
    · simp [hr, TaskPc.chunk]
    · simp [hr, TaskPc.chunk]
  case h_3 | h_4 | h_5 =>
    cases h
    exact ⟨rfl, rfl⟩
  case h_6 => cases h

theorem bufferToTcpTask_outgo {s t : Bridge} {k : Nat} {a : Answer} (h : Outflow)
    (hs : bufferToTcpTask s k a = some t) : Outgo s t h (s.outflowNote k a h) 0 := by
  obtain ⟨pc, ctx, cache, accepted, rfl, hstep⟩ := bufferToTcpTask_cases hs
  have hlive := hstep.live
  have hnow : { s.setBufferToTcp k pc with ctx, cache, accepted }.bufferToTcp k = pc := by
    simp [Bridge.setBufferToTcp]
  have hother : ∀ j, j ≠ k →
      { s.setBufferToTcp k pc with ctx, cache, accepted }.bufferToTcp j = s.bufferToTcp j := by
    intro j hj
    simp [Bridge.setBufferToTcp, hj]
  have hsame : pc.chunk = (s.bufferToTcp k).chunk → ∀ j,
      ({ s.setBufferToTcp k pc with ctx, cache, accepted }.bufferToTcp j).chunk =
        (s.bufferToTcp j).chunk := by
    intro hpc j
    by_cases hj : j = k
    · subst hj
      rw [hnow, hpc]
    · rw [hother j hj]
  cases hstep with
  | read hpc hne =>
    have hnote : s.outflowNote k .done h =
        { h with departures := h.departures ++ [.taken k s.cache.read.2 none] } := by
      simp only [Bridge.outflowNote, hpc]
      exact if_pos hne
    exact .took rfl hlive rfl rfl (by rw [hpc]; rfl) (by rw [hnow]; rfl) hother rfl hnote
  | empty hpc he =>
    have hnote : s.outflowNote k .done h = h := by
      simp only [Bridge.outflowNote, hpc]
      exact if_neg (not_not.mpr he)
    have hrest := s.cache.read_append
    rw [he, List.nil_append] at hrest
    exact .kept rfl hrest rfl (hsame (by rw [hpc]; rfl)) rfl hnote
  | call chunk hpc =>
    have hnote : s.outflowNote k .done h = h := by simp only [Bridge.outflowNote, hpc]
    exact .kept rfl rfl rfl (hsame (by rw [hpc]; rfl)) rfl hnote
  | failed chunk n hpc hn =>
    have hnote : s.outflowNote k (.result n) h =
        ⟨h.departures.map (Departure.settle k n.toNat), h.sends ++ [(k, chunk.take n.toNat)]⟩ := by
      simp only [Bridge.outflowNote, hpc]
    refine .sent rfl rfl rfl (by rw [hpc]; rfl) (by rw [hnow]; rfl) hother ?_ hnote
    simp [Int.toNat_of_nonpos hn.le]
  | sent chunk n hpc hn hle =>
    have hnote : s.outflowNote k (.result n) h =
        ⟨h.departures.map (Departure.settle k n.toNat), h.sends ++ [(k, chunk.take n.toNat)]⟩ := by
      simp only [Bridge.outflowNote, hpc]
    exact .sent rfl rfl rfl (by rw [hpc]; rfl) (by rw [hnow]; rfl) hother rfl hnote
  | delayed u hpc =>
    have hnote : s.outflowNote k .done h = h := by simp only [Bridge.outflowNote, hpc]
    exact .kept rfl rfl rfl (hsame (by rw [hpc]; rfl)) rfl hnote
  | frame a r hr =>
    obtain ⟨hpc, hr1⟩ := taskFrame_chunk hr
    have hnote : s.outflowNote k a h = h := by
      unfold Bridge.outflowNote
      split
      case h_1 hpc' => simp [hpc', taskFrame] at hr
      case h_2 chunk sent hpc' => simp [hpc', taskFrame] at hr
      case h_3 => rfl
    exact .kept rfl rfl rfl (hsame (by rw [hpc, hr1])) rfl hnote

theorem tcpServerTask_chunk {s t : Bridge} {a : Answer} (h : s.Numbered)
    (hs : tcpServerTask s a = some t) (k : Nat) : (t.bufferToTcp k).chunk = (s.bufferToTcp k).chunk := by
  cases tcpServerTask_step hs with
  | @createBufferToTcp ok hpc =>
    have hnone := h.noUplink (by simp [hpc, ServerPc.beforeUplink])
    by_cases hk : k = s.session
    · subst hk
      rw [hnone]
      cases ok <;> simp [Bridge.setBufferToTcp, TaskPc.chunk]
    · simp [Bridge.setBufferToTcp, hk]
  | _ => rfl

theorem uartRxDaemonTask_outgo {s t : Bridge} {a : Answer} (h : Outflow)
    (hs : uartRxDaemonTask s a = some t) :
    Outgo s t h (s.noteOutflow (.daemon a) h) (s.overflow (.daemon a)) := by
  unfold uartRxDaemonTask at hs
  split at hs
  case h_1 =>
    cases hs
    exact .kept rfl rfl rfl (fun _ => rfl) rfl rfl
  case h_2 bytes _ =>
    obtain ⟨hout, hlen⟩ := s.pushedOut_write bytes
    by_cases hl : bytes.length ≤ bufSize
    · by_cases hne : bytes ≠ []
      · simp only [if_pos hl, if_pos hne] at hs
        cases hs
        exact .pushed hout hlen rfl rfl rfl rfl
      · simp only [if_pos hl, if_neg hne] at hs
        cases hs
        rw [not_not.mp hne, Cache.write_nil] at hout
        rw [not_not.mp hne]
        exact .pushed hout (not_not.mp hne ▸ hlen) (List.append_nil _).symm rfl rfl rfl
    · simp [hl] at hs
  case h_3 =>
    split at hs <;> cases hs
    exact .kept rfl rfl rfl (fun _ => rfl) rfl rfl
  case h_4 => cases hs

theorem Bridge.step_outgo {s t : Bridge} {a : Act} (hnum : s.Numbered) (h : Outflow)
    (hs : s.step a = some t) : Outgo s t h (s.noteOutflow a h) (s.overflow a) := by
  cases a with
  | elapse ms =>
    cases hs
    exact .kept rfl rfl rfl (fun _ => rfl) rfl rfl
  | daemon a => exact uartRxDaemonTask_outgo h hs
  | server a =>
    obtain ⟨hc, hw, ha⟩ := tcpServerTask_streams hs
    exact .kept rfl (by rw [hc]) hw (tcpServerTask_chunk hnum hs) ha rfl
  | tcpToUart k a =>
    obtain ⟨_, _, _, _, rfl⟩ := tcpToUartTask_frame hs
    exact .kept rfl rfl rfl (fun _ => rfl) rfl rfl
  | bufferToTcp k a => exact bufferToTcpTask_outgo h hs

theorem Bridge.Booked.step {s t : Bridge} {h h' : Outflow} {n m : Nat} (hi : s.Booked h n)
    (hnum : t.Numbered) (hflow : Outgo s t h h' m) : t.Booked h' (n + m) := by
  cases hflow with
  | @pushed bytes out hout hlen hw hu ha hh =>
    subst hh
    refine ⟨hnum, ?_, fun k => ?_, ha.trans hi.accepted, fun k => ?_, ?_, ?_⟩
    · rw [hw, ← hi.stream]
      simp only [List.flatMap_append, List.flatMap_singleton, Departure.block, List.append_assoc, hout]
    · rw [hu]
      exact (hi.holds k).append id
    · simp [hi.sends k, Departure.acceptedBy]
    · rw [ha]
      simpa [Departure.accepted] using hi.perm
    · simp only [List.flatMap_append, List.flatMap_singleton, Departure.lostPart, List.length_append,
        hi.lost, hlen]
  | @took k hm _ hc hw hold hnew hu ha hh =>
    subst hm hh
    refine ⟨hnum, ?_, fun j => ?_, ha.trans hi.accepted, fun j => ?_, ?_, ?_⟩
    · rw [hc, hw, ← hi.stream]
      simp only [List.flatMap_append, List.flatMap_singleton, Departure.block, List.append_assoc,
        s.cache.read_append]
    · have hj' := hi.holds j
      by_cases hj : j = k
      · subst hj
        rw [hold] at hj'
        rw [hnew]
        exact hj'.take _
      · rw [hu j hj]
        exact hj'.append (Ne.symm hj)
    · simp [hi.sends j, Departure.acceptedBy]
    · rw [ha]
      simpa [Departure.accepted] using hi.perm
    · simp [Departure.lostPart, hi.lost]
  | @sent k m chunk hm hc hw hold hnew hu ha hh =>
    subst hm hh
    have hk := hi.holds k
    rw [hold] at hk
    refine ⟨hnum, ?_, fun j => ?_, ?_, fun j => ?_, ?_, ?_⟩
    · rw [hc, hw, Departure.flatMap_block_settle]
      exact hi.stream
    · by_cases hj : j = k
      · subst hj
        rw [hnew]
        exact Departure.holds_none_settle _ _
      · rw [hu j hj]
        exact (hi.holds j).settle_other hj m
    · rw [ha, hi.accepted, TaggedLog.all_concat]
    · by_cases hj : j = k
      · subst hj
        rw [TaggedLog.of_concat_self, hi.sends j, hk.acceptedBy_settle]
      · rw [TaggedLog.of_concat_ne (Ne.symm hj), hi.sends j, Departure.acceptedBy_settle_other hj]
    · rw [ha]
      exact (hk.accepted_settle m).trans (hi.perm.append_right _)
    · rw [Departure.flatMap_lostPart_settle]
      exact hi.lost
  | kept hm hc hw hu ha hh =>
    subst hm hh
    refine ⟨hnum, ?_, fun k => ?_, ha.trans hi.accepted, hi.sends, ?_, hi.lost⟩
    · rw [hc, hw]
      exact hi.stream
    · rw [hu]
      exact hi.holds k
    · rw [ha]
      exact hi.perm

theorem Bridge.booked_of_run {malloc : Malloc} {rb : RingBuf} {s₀ s : Bridge} {as : List Act}
    {h : Outflow} (hinit : tcpBridgeInit malloc rb = some s₀)
    (hrun : Machine.run (Machine.monitored Bridge.step Bridge.noteOutflow) (s₀, .none) as =
      some (s, h)) : s.Booked h (Machine.total Bridge.step Bridge.overflow s₀ as) := by
  obtain ⟨cache, rfl, hempty⟩ := tcpBridgeInit_start hinit
  refine Machine.monitored_induction
    (motive := fun as s h => s.Booked h (Machine.total Bridge.step Bridge.overflow (.start cache) as))
    (Bridge.start_booked hempty) ?_ hrun
  intro as a u v h hu hi hstep
  rw [Machine.total_concat (Machine.run_of_monitored hu)]
  exact hi.step (hi.numbered.step hstep) (Bridge.step_outgo hi.numbered h hstep)

/-- In every run the blocks that have left the cache, followed by the cache, are the UART
stream, and each of their bytes was overwritten, is in an uplink's hands, was accepted by a
socket or was refused by one; nothing else has been overwritten or accepted. -/
theorem every_byte_booked {malloc : Malloc} {rb : RingBuf} {s₀ s : Bridge} {as : List Act}
    {h : Outflow} (hinit : tcpBridgeInit malloc rb = some s₀)
    (hrun : Machine.run (Machine.monitored Bridge.step Bridge.noteOutflow) (s₀, .none) as =
      some (s, h)) :
    h.departures.flatMap Departure.block ++ s.cache.contents = s.uartRx ∧
    (∀ k, Departure.Holds k h.departures (s.bufferToTcp k).chunk) ∧
    (h.departures.flatMap Departure.accepted).Perm s.accepted ∧
    (h.departures.flatMap Departure.lostPart).length =
      Machine.total Bridge.step Bridge.overflow s₀ as ∧
    s.uartRx.length = s.cache.contents.length + Machine.total Bridge.step Bridge.overflow s₀ as +
      (h.departures.flatMap Departure.heldPart).length + s.accepted.length +
      (h.departures.flatMap Departure.refused).length := by
  have hend := Bridge.booked_of_run hinit hrun
  refine ⟨hend.stream, hend.holds, hend.perm, hend.lost, ?_⟩
  have hparts := Departure.flatMap_block_length h.departures
  have haccepted := hend.perm.length_eq
  have hlost := hend.lost
  rw [← hend.stream, List.length_append]
  omega

/-- A short send, a failed one, and a byte that stays in the cache. -/
def shortThenFailed : List Act :=
  [.server (.result 3)] ++ acceptClient 5 ++
  [.daemon (.created true), .daemon (.data [1, 2]),
    .bufferToTcp 1 (.created true), .bufferToTcp 1 .done, .bufferToTcp 1 .done,
    .bufferToTcp 1 .done, .bufferToTcp 1 (.result 1), .daemon (.data [3]),
    .bufferToTcp 1 .done, .bufferToTcp 1 .done, .bufferToTcp 1 .done, .bufferToTcp 1 (.result (-1)),
    .daemon (.data [4])]

theorem every_byte_booked_refused :
    ∃ s₀ s h, tcpBridgeInit zeroMalloc unsetRingBuf = some s₀ ∧
      Machine.run (Machine.monitored Bridge.step Bridge.noteOutflow) (s₀, .none) shortThenFailed =
        some (s, h) ∧
      s.uartRx = [1, 2, 3, 4] ∧ s.accepted = [1] ∧ s.cache.contents = [4] ∧
      h.departures.flatMap Departure.block = [1, 2, 3] ∧
      (h.departures.flatMap Departure.heldPart).length +
        (h.departures.flatMap Departure.refused).length = 2 := by
  have h : ((tcpBridgeInit zeroMalloc unsetRingBuf).bind fun s₀ =>
      Machine.run (Machine.monitored Bridge.step Bridge.noteOutflow) (s₀, .none)
        shortThenFailed).map (fun r => (r.1.uartRx, r.1.accepted, r.1.cache.contents)) =
      some ([1, 2, 3, 4], [1], [4]) := by decide +kernel
  obtain ⟨s₀, s, h, hinit, hrun, he⟩ := Machine.exists_of_monitored h
  simp only [Prod.mk.injEq] at he
  obtain ⟨hw, ha, hc⟩ := he
  obtain ⟨hstream, _, _, _, hcount⟩ := every_byte_booked hinit hrun
  have hnone : Machine.total Bridge.step Bridge.overflow s₀ shortThenFailed = 0 := by
    cases hinit
    decide +kernel
  refine ⟨s₀, s, h, hinit, hrun, hw, ha, hc, ?_, ?_⟩
  · rw [hc, hw] at hstream
    exact List.append_cancel_right hstream
  · simp only [hw, ha, hc, hnone, List.length_cons, List.length_nil] at hcount
    omega

/-- In every run, what the sockets accept from one uplink is a part of the UART stream in
its order: no byte twice, none out of place, whatever the other uplinks do. -/
theorem uplink_sends_in_stream_order {malloc : Malloc} {rb : RingBuf} {s₀ s : Bridge}
    {as : List Act} {h : Outflow} (hinit : tcpBridgeInit malloc rb = some s₀)
    (hrun : Machine.run (Machine.monitored Bridge.step Bridge.noteOutflow) (s₀, .none) as =
      some (s, h)) :
    s.accepted = TaggedLog.all h.sends ∧ ∀ k,
      TaggedLog.of k h.sends = h.departures.flatMap (Departure.acceptedBy k) ∧
      (TaggedLog.of k h.sends).Sublist s.uartRx := by
  have hend := Bridge.booked_of_run hinit hrun
  refine ⟨hend.accepted, fun k => ⟨hend.sends k, ?_⟩⟩
  rw [hend.sends k, ← hend.stream]
  have hblocks : (h.departures.flatMap (Departure.acceptedBy k)).Sublist
      (h.departures.flatMap Departure.block) :=
    .flatMap_right _ fun d _ => Departure.acceptedBy_sublist_block k d
  exact hblocks.trans (List.sublist_append_left _ _)

theorem uplink_sends_in_stream_order_short :
    ∃ s₀ s h, tcpBridgeInit zeroMalloc unsetRingBuf = some s₀ ∧
      Machine.run (Machine.monitored Bridge.step Bridge.noteOutflow) (s₀, .none) shortThenFailed =
        some (s, h) ∧
      h.sends = [(1, [1]), (1, [])] ∧ (TaggedLog.of 1 h.sends).Sublist s.uartRx := by
  have h : ((tcpBridgeInit zeroMalloc unsetRingBuf).bind fun s₀ =>
      Machine.run (Machine.monitored Bridge.step Bridge.noteOutflow) (s₀, .none)
        shortThenFailed).map (fun r => r.2.sends) = some [(1, [1]), (1, [])] := by decide +kernel
  obtain ⟨s₀, s, h, hinit, hrun, he⟩ := Machine.exists_of_monitored h
  exact ⟨s₀, s, h, hinit, hrun, he, ((uplink_sends_in_stream_order hinit hrun).2 1).2⟩

/-- Where the uplinks do not overlap, the accepted bytes stand in the order of the ledger. -/
structure Bridge.Sequential (s : Bridge) (h : Outflow) (n : Nat) : Prop where
  booked : s.Booked h n
  apart : s.Apart
  one : Departure.OneInHand h.departures
  accepted : s.accepted = h.departures.flatMap Departure.accepted

theorem Bridge.Apart.chunk_eq_none {s : Bridge} (h : s.Apart) {k : Nat}
    (hlive : ¬(s.bufferToTcp k).Ended) (hold : (s.bufferToTcp k).chunk = none) (j : Nat) :
    (s.bufferToTcp j).chunk = none := by
  obtain ⟨rfl, _⟩ := h.current hlive
  by_cases hj : (s.bufferToTcp j).Ended
  · rcases hj with hj | hj
    · rw [hj]
      rfl
    · rw [hj]
      rfl
  · obtain ⟨rfl, _⟩ := h.current hj
    exact hold

theorem Bridge.Sequential.step {s t : Bridge} {h h' : Outflow} {n m : Nat} (hi : s.Sequential h n)
    (hnum : t.Numbered) (hapart : t.Apart) (hflow : Outgo s t h h' m) : t.Sequential h' (n + m) := by
  refine ⟨hi.booked.step hnum hflow, hapart, ?_, ?_⟩
  · cases hflow with
    | pushed _ _ _ _ _ hh =>
      subst hh
      exact hi.one.lost _
    | took _ hlive _ _ hold _ _ _ hh =>
      subst hh
      refine hi.one.take (fun d hd j => ?_) _
      have hj := hi.booked.holds j
      rw [hi.apart.chunk_eq_none hlive hold j] at hj
      exact hj d hd
    | sent _ _ _ _ _ _ _ hh =>
      subst hh
      exact hi.one.settle _ _
    | kept _ _ _ _ _ hh =>
      subst hh
      exact hi.one
  · cases hflow with
    | pushed _ _ _ _ ha hh | took _ _ _ _ _ _ _ ha hh =>
      subst hh
      rw [ha, hi.accepted]
      simp [Departure.accepted]
    | @sent k m chunk _ _ _ hold _ _ ha hh =>
      subst hh
      have hk := hi.booked.holds k
      rw [hold] at hk
      rw [ha, hi.one.accepted_settle hk, hi.accepted]
    | kept _ _ _ _ ha hh =>
      subst hh
      rw [ha, hi.accepted]

theorem Bridge.Sequential.next {s t : Bridge} {h : Outflow} {n : Nat} {a : Act} (hi : s.Sequential h n)
    (ha : s.NonOverlapping a) (hs : s.step a = some t) :
    t.Sequential (s.noteOutflow a h) (n + s.overflow a) :=
  hi.step (hi.booked.numbered.step hs) (hi.apart.step ha hs).2 (Bridge.step_outgo hi.booked.numbered h hs)

theorem Bridge.start_sequential {cache : Cache} (h : cache.contents = []) :
    (Bridge.start cache).Sequential .none 0 :=
  ⟨Bridge.start_booked h, Bridge.start_apart cache, .nil, rfl⟩

theorem Bridge.Sequential.sublist {s : Bridge} {h : Outflow} {n : Nat} (hi : s.Sequential h n) :
    s.accepted.Sublist s.uartRx := by
  rw [hi.accepted, ← hi.booked.stream]
  have hblocks : (h.departures.flatMap Departure.accepted).Sublist
      (h.departures.flatMap Departure.block) :=
    .flatMap_right _ fun d _ => d.accepted_sublist_block
  exact hblocks.trans (List.sublist_append_left _ _)

/-- As long as no session starts before the tasks of the one before have ended, all that
the clients' sockets accept is a part of the UART stream in its order, whatever the sends
return and however often the cache overflows. -/
theorem clients_get_stream_in_order {malloc : Malloc} {rb : RingBuf} {s₀ s : Bridge} {as : List Act}
    (hinit : tcpBridgeInit malloc rb = some s₀) (hrun : Machine.run Bridge.step s₀ as = some s)
    (hok : Machine.Meets Bridge.step Bridge.NonOverlapping s₀ as) : s.accepted.Sublist s.uartRx := by
  obtain ⟨cache, rfl, hempty⟩ := tcpBridgeInit_start hinit
  obtain ⟨h, hrun⟩ : ∃ h, Machine.run (Machine.monitored Bridge.step Bridge.noteOutflow)
      (.start cache, .none) as = some (s, h) := Machine.exists_monitored_run hrun Outflow.none
  have hend : ∃ n, s.Sequential h n := by
    apply Machine.invariant_of_monitored _ _ hrun hok
    · rintro u a v h ⟨n, hi⟩ ha hv
      exact ⟨_, hi.next ha hv⟩
    · exact ⟨0, Bridge.start_sequential hempty⟩
  obtain ⟨n, hend⟩ := hend
  exact hend.sublist

theorem clients_get_stream_in_order_short :
    ∃ s₀ s, tcpBridgeInit zeroMalloc unsetRingBuf = some s₀ ∧
      Machine.run Bridge.step s₀ shortThenFailed = some s ∧ s.accepted = [1] ∧
      s.accepted.Sublist s.uartRx := by
  have h : ((tcpBridgeInit zeroMalloc unsetRingBuf).bind fun s₀ =>
      Machine.run Bridge.step s₀ shortThenFailed).map (fun s => s.accepted) = some [1] := by
    decide +kernel
  obtain ⟨s₀, s, hinit, hrun, ha⟩ := Machine.exists_of_run h
  refine ⟨s₀, s, hinit, hrun, ha, clients_get_stream_in_order hinit hrun ?_⟩
  cases hinit
  decide +kernel

end EspPassthrough
