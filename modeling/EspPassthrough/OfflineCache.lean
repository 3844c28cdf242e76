import EspPassthrough.UplinkLedger

/-! What the cache is for: the bytes of the UART that arrive while no client is
connected are the first that the next clients get. -/

namespace EspPassthrough

def Bridge.NoUplinkRuns (_ : Bridge) : Act → Prop
  | .bufferToTcp _ _ => False
  | _ => True

instance (s : Bridge) : (a : Act) → Decidable (s.NoUplinkRuns a)
  | .bufferToTcp _ _ => isFalse id
  | .elapse _ | .daemon _ | .server _ | .tcpToUart _ _ => isTrue trivial

/-- Since `s` the cache has only taken in the bytes `w` of the UART. -/
structure Bridge.Gathered (s t : Bridge) (w : List UInt8) : Prop where
  apart : t.Apart
  idle : t.inHand = []
  accepted : t.accepted = s.accepted
  uart : t.uartRx = s.uartRx ++ w
  cache : t.cache.contents = LossyQueue.pushAll uartCacheSize s.cache.contents w

theorem Bridge.Gathered.refl {s : Bridge} (h : s.Apart) (he : s.TasksEnded s.session) :
    s.Gathered s [] where
  apart := h
  idle := he.2.hand_eq
  accepted := rfl
  uart := (List.append_nil _).symm
  cache := (LossyQueue.pushAll_nil s.cache.count_le).symm

theorem Bridge.Gathered.keep {s t u : Bridge} {w : List UInt8} (h : s.Gathered t w) (hu : u.Apart)
    (hh : u.inHand = t.inHand) (hc : u.cache = t.cache) (hw : u.uartRx = t.uartRx)
    (ha : u.accepted = t.accepted) : s.Gathered u w where
  apart := hu
  idle := hh.trans h.idle
  accepted := ha.trans h.accepted
  uart := hw.trans h.uart
  cache := by rw [hc, h.cache]

theorem Bridge.Gathered.daemon {s t u : Bridge} {w : List UInt8} {a : Answer} (h : s.Gathered t w)
    (hs : uartRxDaemonTask t a = some u) : ∃ w', s.Gathered u w' := by
  obtain ⟨hflow, hapart⟩ := uartRxDaemonTask_flow h.apart hs
  cases hflow with
  | wrote bytes _ hc hw ha hh =>
    refine ⟨w ++ bytes, hapart, hh.trans h.idle, ha.trans h.accepted, ?_, ?_⟩
    · rw [hw, h.uart, List.append_assoc]
    · rw [hc, Cache.write_contents, h.cache, LossyQueue.pushAll_append]
  | took _ _ _ ha => exact absurd rfl (ha a)
  | sent n ha => cases ha
  | failed n ha => cases ha
  | kept _ _ hc hw ha hh => exact ⟨w, h.keep hapart hh hc hw ha⟩

theorem Bridge.Gathered.step {s t u : Bridge} {w : List UInt8} {a : Act} (h : s.Gathered t w)
    (hok : t.NonOverlapping a) (hoff : t.NoUplinkRuns a) (hs : t.step a = some u) :
    ∃ w', s.Gathered u w' := by
  cases a with
  | elapse ms =>
    cases hs
    exact ⟨w, h.keep (h.apart.keep rfl rfl id) rfl rfl rfl rfl⟩
  | daemon a => exact h.daemon hs
  | server a =>
    obtain ⟨hc, hw, ha⟩ := tcpServerTask_streams hs
    obtain ⟨hh, hapart⟩ := tcpServerTask_apart h.apart hok hs
    exact ⟨w, h.keep hapart hh hc hw ha⟩
  | tcpToUart k a =>
    obtain ⟨_, _, _, _, rfl⟩ := tcpToUartTask_frame hs
    exact ⟨w, h.keep (h.apart.keep rfl rfl id) rfl rfl rfl rfl⟩
  | bufferToTcp k a => exact False.elim hoff

/-- Since `t` the clients have got `x`, and the UART has sent `w`. -/
structure Bridge.Passed (t u : Bridge) (x w : List UInt8) : Prop where
  apart : u.Apart
  accepted : u.accepted = t.accepted ++ x
  uart : u.uartRx = t.uartRx ++ w
  stream : x ++ u.inHand ++ u.cache.contents = t.inHand ++ t.cache.contents ++ w

theorem Bridge.Passed.refl {t : Bridge} (h : t.Apart) : t.Passed t [] [] :=
  ⟨h, (List.append_nil _).symm, (List.append_nil _).symm, by simp⟩

theorem Bridge.Passed.step {t u v : Bridge} {x w : List UInt8} {a : Act} (h : t.Passed u x w)
    (hok : u.NonOverlapping a) (hsend : u.SendsWhole a) (hfit : u.NoOverflow a)
    (hs : u.step a = some v) : ∃ x' w', t.Passed v x' w' := by
  obtain ⟨hflow, hapart⟩ := h.apart.step hok hs
  cases hflow with
  | wrote bytes ha hc hw hacc hh =>
    subst ha
    refine ⟨x, w ++ bytes, hapart, hacc.trans h.accepted, ?_, ?_⟩
    · rw [hw, h.uart, List.append_assoc]
    · have hcont := Cache.write_contents_of_le hfit
      rw [hh, hc, hcont, ← List.append_assoc, h.stream, List.append_assoc]
  | took hn hc hh _ _ hw hacc =>
    refine ⟨x, w, hapart, hacc.trans h.accepted, hw.trans h.uart, ?_⟩
    rw [hh, hc, List.append_assoc, u.cache.read_append, ← h.stream, hn, List.append_nil]
  | sent n ha _ _ hacc hh hc hw =>
    subst ha
    have hwhole : u.inHand.take n.toNat = u.inHand := by
      rw [show n = u.inHand.length from hsend, Int.toNat_natCast, List.take_length]
    refine ⟨x ++ u.inHand, w, hapart, ?_, hw.trans h.uart, ?_⟩
    · rw [hacc, hwhole, h.accepted, List.append_assoc]
    · rw [hh, hc, List.append_nil, h.stream]
  | failed n ha hn =>
    subst ha
    have hwhole : n = u.inHand.length := hsend
    omega
  | kept _ _ hc hw hacc hh =>
    refine ⟨x, w, hapart, hacc.trans h.accepted, hw.trans h.uart, ?_⟩
    rw [hh, hc, h.stream]

/-- While no uplink runs, the cache keeps the last 8 KB of what it held and what arrives.
Whatever clients connect next get exactly this, and then what arrives later, as long as
their sockets accept whole chunks and the cache does not overflow again. -/
theorem offline_bytes_first {malloc : Malloc} {rb : RingBuf} {s₀ s t u : Bridge}
    {as bs cs : List Act} (hinit : tcpBridgeInit malloc rb = some s₀)
    (hstart : Machine.run Bridge.step s₀ as = some s) (hidle : s.TasksEnded s.session)
    (hoffline : Machine.run Bridge.step s bs = some t)
    (hoff : Machine.Meets Bridge.step Bridge.NoUplinkRuns s bs)
    (honline : Machine.run Bridge.step t cs = some u)
    (hok : Machine.Meets Bridge.step Bridge.NonOverlapping s₀ (as ++ bs ++ cs))
    (hsend : Machine.Meets Bridge.step (fun s a => s.SendsWhole a ∧ s.NoOverflow a) t cs) :
    ∃ arrived sent later, t.uartRx = s.uartRx ++ arrived ∧ u.uartRx = t.uartRx ++ later ∧
      u.accepted = s.accepted ++ sent ∧
      sent ++ u.inHand ++ u.cache.contents =
        (s.cache.contents ++ arrived).rtake uartCacheSize ++ later := by
  obtain ⟨cache, rfl, _⟩ := tcpBridgeInit_start hinit
  obtain ⟨hok, hok₃⟩ := Machine.meets_append.mp hok
  obtain ⟨hok₁, hok₂⟩ := Machine.meets_append.mp hok
  have hapart : s.Apart := by
    apply Machine.invariant_of_meets _ (Bridge.start_apart cache) hstart hok₁
    intro u a v hu ha hv
    exact (hu.step ha hv).2
  have hgathered : ∃ w, s.Gathered t w := by
    apply Machine.invariant_of_meets _ _ hoffline (Machine.meets_and.mpr ⟨hok₂ s hstart, hoff⟩)
    · rintro u a v ⟨w, hu⟩ ⟨ha, hrun⟩ hv
      exact hu.step ha hrun hv
    · exact ⟨[], .refl hapart hidle⟩
  obtain ⟨w, hgathered⟩ := hgathered
  have hall : Machine.run Bridge.step (.start cache) (as ++ bs) = some t := by
    rw [Machine.run_append, hstart, Option.bind_some, hoffline]
  have hpassed : ∃ x w', t.Passed u x w' := by
    apply Machine.invariant_of_meets _ _ honline (Machine.meets_and.mpr ⟨hok₃ t hall, hsend⟩)
    · rintro u a v ⟨x, w', hu⟩ ⟨ha, hwhole, hfit⟩ hv
      exact hu.step ha hwhole hfit hv
    · exact ⟨[], [], .refl hgathered.apart⟩
  obtain ⟨x, w', hpassed⟩ := hpassed
  refine ⟨w, x, w', hgathered.uart, hpassed.uart, ?_, ?_⟩
  · rw [hpassed.accepted, hgathered.accepted]
  · rw [hpassed.stream, hgathered.idle, List.nil_append, hgathered.cache]
    rfl

/-- Two bytes arrive, then a client connects; the uplink has sent them when a third arrives. -/
def offlineTwo : List Act :=
  [.daemon (.created true), .daemon (.data [1, 2]), .server (.result 3)] ++ acceptClient 5

def onlineOne : List Act :=
  [.bufferToTcp 1 (.created true), .bufferToTcp 1 .done, .bufferToTcp 1 .done,
    .bufferToTcp 1 .done, .bufferToTcp 1 (.result 2), .daemon (.data [3])]

theorem offline_bytes_first_two :
    ∃ s₀ t u, tcpBridgeInit zeroMalloc unsetRingBuf = some s₀ ∧
      Machine.run Bridge.step s₀ offlineTwo = some t ∧
      Machine.run Bridge.step t onlineOne = some u ∧ t.accepted = [] ∧ u.uartRx = [1, 2, 3] ∧
      ∃ arrived sent later, t.uartRx = s₀.uartRx ++ arrived ∧ u.uartRx = t.uartRx ++ later ∧
        u.accepted = s₀.accepted ++ sent ∧
        sent ++ u.inHand ++ u.cache.contents =
          (s₀.cache.contents ++ arrived).rtake uartCacheSize ++ later := by
  have h : ((tcpBridgeInit zeroMalloc unsetRingBuf).bind fun s₀ =>
      Machine.run Bridge.step s₀ offlineTwo).map
        (fun t => (t.accepted, (Machine.run Bridge.step t onlineOne).map fun u => u.uartRx)) =
      some ([], some [1, 2, 3]) := by decide +kernel
  obtain ⟨s₀, t, hinit, hoffline, he⟩ := Machine.exists_of_run h
  obtain ⟨hnone, hu⟩ := Prod.mk.inj he
  obtain ⟨u, honline, hw⟩ := Option.map_eq_some_iff.mp hu
  have hmeets : Machine.Meets Bridge.step Bridge.NonOverlapping s₀ (offlineTwo ++ onlineOne) ∧
      Machine.Meets Bridge.step Bridge.NoUplinkRuns s₀ offlineTwo := by
    cases hinit
    decide +kernel
  have hwhole : Machine.Meets Bridge.step (fun s a => s.SendsWhole a ∧ s.NoOverflow a) t onlineOne := by
    cases hinit
    cases hoffline
    decide +kernel
  have hidle : s₀.TasksEnded s₀.session := by
    cases hinit
    decide +kernel
  have hstart : Machine.run Bridge.step s₀ [] = some s₀ := rfl
  exact ⟨s₀, t, u, hinit, hoffline, honline, hnone, hw,
    offline_bytes_first hinit hstart hidle hoffline hmeets.2 honline hmeets.1 hwhole⟩

end EspPassthrough
