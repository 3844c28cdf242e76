import EspPassthrough.Handover

/-! Where the bytes of the UART go: over any run, what the clients' sockets
accepted, the chunk in hand and the cache together make up the stream read so
far, up to overwritten bytes and the chunks of failed sends. -/

namespace EspPassthrough

/-- The chunk taken from the cache and not yet handed over. -/
def TaskPc.hand : TaskPc BufferToTcpPc → List UInt8
  | .body (.send chunk) | .body (.inSend chunk) => chunk
  | _ => []

def Bridge.inHand (s : Bridge) : List UInt8 := (s.bufferToTcp s.session).hand

/-- A session starts only after the tasks of the one before have ended. -/
def Bridge.NonOverlapping (s : Bridge) : Act → Prop
  | .server .done => s.server = .initSock → s.TasksEnded s.session
  | _ => True

def Bridge.SendsWhole (s : Bridge) : Act → Prop
  | .bufferToTcp k (.result n) => n = (s.bufferToTcp k).hand.length
  | _ => True

def Bridge.SendsWholeOrFails (s : Bridge) : Act → Prop
  | .bufferToTcp k (.result n) => n = (s.bufferToTcp k).hand.length ∨ n < 0
  | _ => True

def Bridge.NoSendFails (_ : Bridge) : Act → Prop
  | .bufferToTcp _ (.result n) => ¬n < 0
  | _ => True

def Bridge.NoOverflow (s : Bridge) : Act → Prop
  | .daemon (.data bytes) => s.cache.contents.length + bytes.length ≤ uartCacheSize
  | _ => True

instance (s : Bridge) : (a : Act) → Decidable (s.NonOverlapping a)
  | .server .done => inferInstanceAs (Decidable (_ → _))
  | .server (.created _) | .server (.result _) | .server (.data _) => isTrue trivial
  | .elapse _ | .daemon _ | .tcpToUart _ _ | .bufferToTcp _ _ => isTrue trivial

instance (s : Bridge) : (a : Act) → Decidable (s.SendsWhole a)
  | .bufferToTcp _ (.result _) => inferInstanceAs (Decidable (_ = _))
  | .bufferToTcp _ .done | .bufferToTcp _ (.created _) | .bufferToTcp _ (.data _) => isTrue trivial
  | .elapse _ | .daemon _ | .server _ | .tcpToUart _ _ => isTrue trivial

instance (s : Bridge) : (a : Act) → Decidable (s.SendsWholeOrFails a)
  | .bufferToTcp _ (.result _) => inferInstanceAs (Decidable (_ ∨ _))
  | .bufferToTcp _ .done | .bufferToTcp _ (.created _) | .bufferToTcp _ (.data _) => isTrue trivial
  | .elapse _ | .daemon _ | .server _ | .tcpToUart _ _ => isTrue trivial

instance (s : Bridge) : (a : Act) → Decidable (s.NoOverflow a)
  | .daemon (.data _) => inferInstanceAs (Decidable (_ ≤ _))
  | .daemon .done | .daemon (.created _) | .daemon (.result _) => isTrue trivial
  | .elapse _ | .server _ | .tcpToUart _ _ | .bufferToTcp _ _ => isTrue trivial

def Bridge.overflow (s : Bridge) : Act → Nat
  | .daemon (.data bytes) => s.cache.contents.length + bytes.length - uartCacheSize
  | _ => 0

theorem Cache.count_le (c : Cache) : c.contents.length ≤ uartCacheSize := by
  have h := c.wf.count_le
  rw [c.size_eq] at h
  simpa using h

theorem Cache.write_contents (c : Cache) (data : List UInt8) :
    (c.write data).contents = LossyQueue.pushAll uartCacheSize c.contents data := by
  have h := (rbWrite_spec c.wf data).2.2
  rwa [c.size_eq] at h

theorem Cache.read_contents (c : Cache) :
    c.read.2 = c.contents.take bufSize ∧ c.read.1.contents = c.contents.drop bufSize := by
  have h : (bufSize : Int) ≤ (List.replicate bufSize (0 : UInt8)).length := by simp
  obtain ⟨_, _, hcont, hout, hret⟩ := rbRead_spec c.wf h
  have hk : min (bufSize : Int).toNat c.ring.count = min bufSize c.contents.length := by simp
  rw [hk] at hcont hout hret
  constructor
  · change (rbRead c.ring (List.replicate bufSize 0) bufSize).2.1.take
      (rbRead c.ring (List.replicate bufSize 0) bufSize).2.2 = _
    rw [hout, hret, List.take_left' (by simp)]
    exact List.take_eq_take_min.symm
  · change (rbRead c.ring (List.replicate bufSize 0) bufSize).1.contents = _
    rw [hcont]
    exact List.drop_eq_drop_min.symm

inductive Flow (s t : Bridge) (a : Act) : Prop where
  | wrote (bytes : List UInt8) (ha : a = .daemon (.data bytes)) (hc : t.cache = s.cache.write bytes)
      (hw : t.uartRx = s.uartRx ++ bytes) (hs : t.accepted = s.accepted) (hh : t.inHand = s.inHand)
  | took (hn : s.inHand = []) (hc : t.cache = s.cache.read.1) (hh : t.inHand = s.cache.read.2)
      (ha : ∀ b, a ≠ .daemon b) (ha' : ∀ k n, a ≠ .bufferToTcp k (.result n))
      (hw : t.uartRx = s.uartRx) (hs : t.accepted = s.accepted)
  | sent (n : Int) (ha : a = .bufferToTcp s.session (.result n)) (hn : 0 ≤ n)
      (hle : n ≤ s.inHand.length) (hs : t.accepted = s.accepted ++ s.inHand.take n.toNat)
      (hh : t.inHand = []) (hc : t.cache = s.cache) (hw : t.uartRx = s.uartRx)
  | failed (n : Int) (ha : a = .bufferToTcp s.session (.result n)) (hn : n < 0)
      (hne : s.inHand ≠ []) (hh : t.inHand = []) (hc : t.cache = s.cache)
      (hw : t.uartRx = s.uartRx) (hs : t.accepted = s.accepted)
  | kept (ha : ∀ bytes, a ≠ .daemon (.data bytes)) (ha' : ∀ k n, a ≠ .bufferToTcp k (.result n))
      (hc : t.cache = s.cache) (hw : t.uartRx = s.uartRx) (hs : t.accepted = s.accepted)
      (hh : t.inHand = s.inHand)

theorem Cache.write_nil (c : Cache) : c.write [] = c := by
  obtain ⟨ring, _, _⟩ := c
  simp [Cache.write, rbWrite]

def ServerPc.beforeUplink : ServerPc → Bool
  | .initRunning | .initSem | .createTcpToUart | .createBufferToTcp => true
  | _ => false

/-- Only the current session's uplink can hold a chunk, and never an empty one. -/
structure Bridge.Apart (s : Bridge) : Prop where
  future : ∀ k, s.session < k → s.bufferToTcp k = .absent
  past : ∀ k, k < s.session → (s.bufferToTcp k).Ended
  fresh : s.server.beforeUplink = true → s.bufferToTcp s.session = .absent
  chunk : ∀ c, s.bufferToTcp s.session = .body (.send c) ∨
    s.bufferToTcp s.session = .body (.inSend c) → c ≠ []

theorem TaskPc.Ended.hand_eq {pc : TaskPc BufferToTcpPc} (h : pc.Ended) : pc.hand = [] := by
  rcases h with rfl | rfl <;> rfl

theorem Bridge.Apart.current {s : Bridge} (h : s.Apart) {k : Nat} (hk : ¬(s.bufferToTcp k).Ended) :
    k = s.session ∧ s.server.beforeUplink = false := by
  have hs : k = s.session := by
    rcases lt_trichotomy k s.session with hlt | he | hgt
    · exact False.elim (hk (h.past k hlt))
    · exact he
    · exact False.elim (hk (Or.inl (h.future k hgt)))
  subst hs
  refine ⟨rfl, ?_⟩
  by_contra hb
  exact hk (Or.inl (h.fresh (Bool.eq_true_of_not_eq_false hb)))

theorem Bridge.Apart.uplink {s t : Bridge} (h : s.Apart) (hk : ¬(s.bufferToTcp s.session).Ended)
    {pc : TaskPc BufferToTcpPc} (hu : t.bufferToTcp = Function.update s.bufferToTcp s.session pc)
    (hn : t.session = s.session) (hs : t.server = s.server)
    (hc : ∀ c, pc = .body (.send c) ∨ pc = .body (.inSend c) → c ≠ []) : t.Apart := by
  refine ⟨fun k hk' => ?_, fun k hk' => ?_, fun hb => ?_, fun c hpc => ?_⟩
  · have hne : k ≠ s.session := by omega
    rw [hu, Function.update_of_ne hne]
    exact h.future k (by omega)
  · have hne : k ≠ s.session := by omega
    rw [hu, Function.update_of_ne hne]
    exact h.past k (by omega)
  · rw [hs, (h.current hk).2] at hb
    cases hb
  · rw [hn, hu, Function.update_self] at hpc
    exact hc c hpc

theorem taskFrame_hand {first : BufferToTcpPc} {ctx : BridgeContext} {pc : TaskPc BufferToTcpPc}
    {a : Answer} {r : TaskPc BufferToTcpPc × BridgeContext}
    (h : taskFrame first ctx pc a = some r) (hf : ∀ c, first ≠ .send c ∧ first ≠ .inSend c) :
    pc.hand = [] ∧ r.1.hand = [] ∧ (∀ n, a ≠ .result n) ∧
      ∀ c, r.1 ≠ .body (.send c) ∧ r.1 ≠ .body (.inSend c) := by
  have hfirst : (TaskPc.body first).hand = [] := by
    cases first with
    | send c => exact absurd rfl (hf c).1
    | inSend c => exact absurd rfl (hf c).2
    | rbRead => rfl
    | delay u => rfl
  unfold taskFrame at h
  split at h
  case h_1 ok =>
    cases h
    cases ok <;> simp [TaskPc.hand]
  case h_2 =>
    cases h
    by_cases hr : ctx.running = true
    · simp only [hr, if_true, hfirst]
      exact ⟨rfl, trivial, by simp, fun c => ⟨by simpa using (hf c).1, by simpa using (hf c).2⟩⟩
    · simp [hr, TaskPc.hand]
  case h_3 => cases h; simp [TaskPc.hand]
  case h_4 => cases h; simp [TaskPc.hand]
  case h_5 => cases h; simp [TaskPc.hand]
  case h_6 => cases h

theorem bufferToTcpTask_flow {s t : Bridge} {k : Nat} {a : Answer} (h : s.Apart)
    (hs : bufferToTcpTask s k a = some t) : Flow s t (.bufferToTcp k a) ∧ t.Apart := by
  obtain ⟨pc, ctx, cache, accepted, rfl, hstep⟩ := bufferToTcpTask_cases hs
  have hlive := hstep.live
  obtain ⟨rfl, _⟩ := h.current hlive
  have hpart := @Bridge.Apart.uplink s { s.setBufferToTcp s.session pc with ctx, cache, accepted } h
    hlive pc rfl rfl rfl
  have hhand : { s.setBufferToTcp s.session pc with ctx, cache, accepted }.inHand = pc.hand := by
    simp [Bridge.inHand, Bridge.setBufferToTcp]
  cases hstep with
  | read hpc hne =>
    have hin : s.inHand = [] := by rw [Bridge.inHand, hpc]; rfl
    refine ⟨.took hin rfl hhand (by simp) (by simp) rfl rfl, hpart ?_⟩
    rintro c (hc | hc) <;> cases hc
    exact hne
  | empty hpc he =>
    have hin : s.inHand = [] := by rw [Bridge.inHand, hpc]; rfl
    exact ⟨.took hin rfl (hhand.trans he.symm) (by simp) (by simp) rfl rfl, hpart (by simp)⟩
  | call chunk hpc =>
    have hin : s.inHand = chunk := by rw [Bridge.inHand, hpc]; rfl
    refine ⟨.kept (by simp) (by simp) rfl rfl rfl (hhand.trans hin.symm), hpart ?_⟩
    rintro c (hc | hc) <;> cases hc
    exact h.chunk chunk (Or.inl hpc)
  | failed chunk n hpc hn =>
    have hin : s.inHand = chunk := by rw [Bridge.inHand, hpc]; rfl
    have hne : s.inHand ≠ [] := hin ▸ h.chunk chunk (Or.inr hpc)
    exact ⟨.failed n rfl hn hne hhand rfl rfl rfl, hpart (by simp)⟩
  | sent chunk n hpc hn hle =>
    have hin : s.inHand = chunk := by rw [Bridge.inHand, hpc]; rfl
    exact ⟨.sent n rfl hn (hin ▸ hle) (by rw [hin]) hhand rfl rfl, hpart (by simp)⟩
  | delayed u hpc =>
    have hin : s.inHand = [] := by rw [Bridge.inHand, hpc]; rfl
    exact ⟨.kept (by simp) (by simp) rfl rfl rfl (hhand.trans hin.symm), hpart (by simp)⟩
  | frame a r hr =>
    obtain ⟨hpc, hr1, ha, hc⟩ := taskFrame_hand hr (by simp)
    refine ⟨.kept (by simp) (fun _ n he => ha n (Act.bufferToTcp.inj he).2) rfl rfl rfl ?_, hpart ?_⟩
    · rw [hhand, hr1, Bridge.inHand, hpc]
    · rintro c (hc' | hc')
      · exact absurd hc' (hc c).1
      · exact absurd hc' (hc c).2

theorem Bridge.Apart.keep {s t : Bridge} (h : s.Apart) (hu : t.bufferToTcp = s.bufferToTcp)
    (hn : t.session = s.session) (hs : t.server.beforeUplink = true → s.server.beforeUplink = true) :
    t.Apart := by
  refine ⟨?_, ?_, fun hb => ?_, ?_⟩
  · simpa only [hu, hn] using h.future
  · simpa only [hu, hn] using h.past
  · simpa only [hu, hn] using h.fresh (hs hb)
  · simpa only [hu, hn] using h.chunk

theorem Bridge.Apart.initSock {s t : Bridge} (h : s.Apart) (he : (s.bufferToTcp s.session).Ended)
    (hu : t.bufferToTcp = s.bufferToTcp) (hn : t.session = s.session + 1) :
    t.inHand = s.inHand ∧ t.Apart := by
  have hnew := h.future (s.session + 1) (Nat.lt_succ_self _)
  refine ⟨?_, fun k hk => ?_, fun k hk => ?_, fun _ => ?_, fun c hc => ?_⟩
  · rw [Bridge.inHand, Bridge.inHand, hu, hn, hnew, he.hand_eq]
    rfl
  · rw [hu]
    exact h.future k (by omega)
  · rw [hu]
    rcases Nat.lt_succ_iff_lt_or_eq.mp (hn ▸ hk) with hlt | rfl
    · exact h.past k hlt
    · exact he
  · rw [hu, hn, hnew]
  · rw [hu, hn, hnew] at hc
    rcases hc with hc | hc <;> cases hc

theorem Bridge.Apart.createUplink {s t : Bridge} (h : s.Apart)
    (hb : s.server.beforeUplink = true) {ok : Bool}
    (hu : t.bufferToTcp =
      Function.update s.bufferToTcp s.session (if ok then .malloc else .absent))
    (hn : t.session = s.session) (hs : t.server.beforeUplink = false) :
    t.inHand = s.inHand ∧ t.Apart := by
  have hnone := h.fresh hb
  have hself : t.bufferToTcp t.session = if ok then .malloc else .absent := by
    rw [hu, hn, Function.update_self]
  refine ⟨?_, fun k hk => ?_, fun k hk => ?_, fun hb' => ?_, fun c hc => ?_⟩
  · rw [Bridge.inHand, Bridge.inHand, hself, hnone]
    cases ok <;> rfl
  · rw [hu, Function.update_of_ne (by omega)]
    exact h.future k (by omega)
  · rw [hu, Function.update_of_ne (by omega)]
    exact h.past k (by omega)
  · rw [hs] at hb'
    cases hb'
  · rw [hself] at hc
    cases ok <;> simp at hc

theorem tcpServerTask_streams {s t : Bridge} {a : Answer} (hs : tcpServerTask s a = some t) :
    t.cache = s.cache ∧ t.uartRx = s.uartRx ∧ t.accepted = s.accepted := by
  cases tcpServerTask_step hs <;> exact ⟨rfl, rfl, rfl⟩

theorem tcpServerTask_apart {s t : Bridge} {a : Answer} (h : s.Apart)
    (hok : s.NonOverlapping (.server a)) (hs : tcpServerTask s a = some t) :
    t.inHand = s.inHand ∧ t.Apart := by
  cases tcpServerTask_step hs with
  | @socket fd hpc =>
    refine ⟨rfl, h.keep rfl rfl fun hb => ?_⟩
    by_cases hf : fd < 0 <;> simp [hf, ServerPc.beforeUplink] at hb
  | @accept sock hpc =>
    refine ⟨rfl, h.keep rfl rfl fun hb => ?_⟩
    by_cases hf : sock < 0 <;> simp [hf, ServerPc.beforeUplink] at hb
  | initSock hpc => exact h.initSock (hok hpc).2 rfl rfl
  | createBufferToTcp hpc => exact h.createUplink (by simp [hpc, ServerPc.beforeUplink]) rfl rfl rfl
  | _ hpc => exact ⟨rfl, h.keep rfl rfl (by simp [hpc, ServerPc.beforeUplink])⟩

theorem uartRxDaemonTask_flow {s t : Bridge} {a : Answer} (h : s.Apart)
    (hs : uartRxDaemonTask s a = some t) : Flow s t (.daemon a) ∧ t.Apart := by
  have ht : t.Apart := by
    obtain ⟨_, _, _, rfl⟩ := uartRxDaemonTask_frame hs
    exact h.keep rfl rfl id
  refine ⟨?_, ht⟩
  unfold uartRxDaemonTask at hs
  split at hs
  case h_1 =>
    cases hs
    exact .kept (by simp) (by simp) rfl rfl rfl rfl
  case h_2 bytes _ =>
    by_cases hl : bytes.length ≤ bufSize
    · by_cases hne : bytes ≠ []
      · simp only [if_pos hl, if_pos hne] at hs
        cases hs
        exact .wrote bytes rfl rfl rfl rfl rfl
      · simp only [if_pos hl, if_neg hne] at hs
        cases hs
        refine .wrote bytes rfl ?_ ?_ rfl rfl <;> simp [not_not.mp hne, Cache.write_nil]
    · simp [hl] at hs
  case h_3 =>
    split at hs <;> cases hs
    exact .kept (by simp) (by simp) rfl rfl rfl rfl
  case h_4 => cases hs

theorem Bridge.Apart.step {s t : Bridge} {a : Act} (h : s.Apart) (hok : s.NonOverlapping a)
    (hs : s.step a = some t) : Flow s t a ∧ t.Apart := by
  cases a with
  | elapse ms =>
    cases hs
    exact ⟨.kept (by simp) (by simp) rfl rfl rfl rfl, h.keep rfl rfl id⟩
  | daemon a => exact uartRxDaemonTask_flow h hs
  | server a =>
    obtain ⟨hc, hw, hacc⟩ := tcpServerTask_streams hs
    obtain ⟨hh, ht⟩ := tcpServerTask_apart h hok hs
    exact ⟨.kept (by simp) (by simp) hc hw hacc hh, ht⟩
  | tcpToUart k a =>
    obtain ⟨_, _, _, _, rfl⟩ := tcpToUartTask_frame hs
    exact ⟨.kept (by simp) (by simp) rfl rfl rfl rfl, h.keep rfl rfl id⟩
  | bufferToTcp k a => exact bufferToTcpTask_flow h hs

theorem Bridge.start_apart (cache : Cache) : (Bridge.start cache).Apart :=
  ⟨fun _ _ => rfl, fun _ _ => Or.inl rfl, fun _ => rfl, fun _ hc => by rcases hc with hc | hc <;> cases hc⟩

theorem noSendFails_of_ne {s : Bridge} {a : Act} (h : ∀ k n, a ≠ .bufferToTcp k (.result n)) :
    s.NoSendFails a := by
  cases a with
  | bufferToTcp k b =>
    cases b with
    | result n => exact absurd rfl (h k n)
    | _ => trivial
  | _ => trivial

theorem Cache.write_contents_of_le {c : Cache} {bytes : List UInt8}
    (h : c.contents.length + bytes.length ≤ uartCacheSize) :
    (c.write bytes).contents = c.contents ++ bytes := by
  rw [Cache.write_contents, LossyQueue.pushAll, LossyQueue.rtake_of_length_le]
  simpa only [List.length_append] using h

/-- Without overflow, either no send has failed and no byte is missing, or the
bytes of a failed send are. -/
def Bridge.Settled (s₀ : Bridge) (as : List Act) (s : Bridge) : Prop :=
  (Machine.Meets Bridge.step Bridge.NoSendFails s₀ as ∧
    s.accepted ++ s.inHand ++ s.cache.contents = s.uartRx) ∨
  (¬Machine.Meets Bridge.step Bridge.NoSendFails s₀ as ∧
    s.accepted.length + s.inHand.length + s.cache.contents.length < s.uartRx.length)

theorem Bridge.Settled.of_noSendFails {s₀ s t : Bridge} {as : List Act} {a : Act}
    (h : Bridge.Settled s₀ as s) (hrun : Machine.run Bridge.step s₀ as = some s)
    (ha : s.NoSendFails a)
    (heq : s.accepted ++ s.inHand ++ s.cache.contents = s.uartRx →
      t.accepted ++ t.inHand ++ t.cache.contents = t.uartRx)
    (hlt : s.accepted.length + s.inHand.length + s.cache.contents.length < s.uartRx.length →
      t.accepted.length + t.inHand.length + t.cache.contents.length < t.uartRx.length) :
    Bridge.Settled s₀ (as ++ [a]) t := by
  rcases h with ⟨hm, he⟩ | ⟨hm, hl⟩
  · exact Or.inl ⟨(Machine.meets_concat_iff hrun).mpr ⟨hm, ha⟩, heq he⟩
  · exact Or.inr ⟨fun hh => hm ((Machine.meets_concat_iff hrun).mp hh).1, hlt hl⟩

theorem Bridge.Settled.step {s₀ s t : Bridge} {as : List Act} {a : Act}
    (h : Bridge.Settled s₀ as s) (hrun : Machine.run Bridge.step s₀ as = some s)
    (hf : Flow s t a) (hsend : s.SendsWholeOrFails a) (hfit : s.NoOverflow a) :
    Bridge.Settled s₀ (as ++ [a]) t := by
  cases hf with
  | wrote bytes ha hc hw hs hh =>
    subst ha
    have hcont := Cache.write_contents_of_le hfit
    refine h.of_noSendFails hrun trivial (fun he => ?_) (fun hl => ?_)
    · rw [hc, hw, hs, hh, hcont, ← he]
      simp only [List.append_assoc]
    · rw [hc, hw, hs, hh, hcont, List.length_append, List.length_append]
      omega
  | took hn hc hh ha ha' hw hs =>
    obtain ⟨hread, hrest⟩ := s.cache.read_contents
    refine h.of_noSendFails hrun (noSendFails_of_ne ha') (fun he => ?_) (fun hl => ?_)
    · rw [hh, hs, hw, hc, hread, hrest, ← he, hn]
      simp
    · have hlen := congrArg List.length (List.take_append_drop bufSize s.cache.contents)
      rw [List.length_append] at hlen
      rw [hh, hs, hw, hc, hread, hrest]
      simp only [hn, List.length_nil] at hl
      omega
  | sent n ha hn hle hs hh hc hw =>
    subst ha
    have hwhole : n.toNat = s.inHand.length := by
      rcases hsend with he | hneg
      · rw [he]
        rfl
      · omega
    rw [hwhole, List.take_length] at hs
    refine h.of_noSendFails hrun (not_lt.mpr hn) (fun he => ?_) (fun hl => ?_)
    · rw [hs, hh, hc, hw, ← he, List.append_nil]
    · rw [hs, hh, hc, hw, List.length_append, List.length_nil]
      omega
  | failed n ha hn hne hh hc hw hs =>
    subst ha
    have hpos := List.length_pos_iff.mpr hne
    refine Or.inr ⟨fun hm => ((Machine.meets_concat_iff hrun).mp hm).2 hn, ?_⟩
    rw [hh, hc, hw, hs, List.length_nil]
    rcases h with ⟨_, he⟩ | ⟨_, hl⟩
    · have hlen := congrArg List.length he
      rw [List.length_append, List.length_append] at hlen
      omega
    · omega
  | kept ha ha' hc hw hs hh =>
    refine h.of_noSendFails hrun (noSendFails_of_ne ha') (fun he => ?_) (fun hl => ?_)
    · rw [hs, hh, hc, hw, he]
    · rw [hs, hh, hc, hw]
      exact hl

def Bridge.BetweenSessions (s : Bridge) : Prop :=
  s.server.inSession = false ∧ s.TasksEnded s.session

/-- Between two sessions the accepted bytes and the cache are all that was read
from the UART exactly when no send has failed: a failed send drops its chunk. -/
theorem no_byte_lost_iff {malloc : Malloc} {rb : RingBuf} {s₀ s : Bridge} {as : List Act}
    (hinit : tcpBridgeInit malloc rb = some s₀) (hrun : Machine.run Bridge.step s₀ as = some s)
    (hok : Machine.Meets Bridge.step
      (fun s a => s.NonOverlapping a ∧ s.SendsWholeOrFails a ∧ s.NoOverflow a) s₀ as)
    (hb : s.BetweenSessions) :
    s.accepted ++ s.cache.contents = s.uartRx ↔
      Machine.Meets Bridge.step Bridge.NoSendFails s₀ as := by
  obtain ⟨cache, rfl, hempty⟩ := tcpBridgeInit_start hinit
  have hstart : Bridge.Settled (.start cache) [] (.start cache) :=
    Or.inl ⟨trivial, by simpa [Bridge.start, Bridge.inHand, TaskPc.hand] using hempty⟩
  have hall : s.Apart ∧ Bridge.Settled (.start cache) as s := by
    refine Machine.run_induction (motive := fun as s => s.Apart ∧ Bridge.Settled _ as s)
      ⟨Bridge.start_apart cache, hstart⟩ ?_ hrun hok
    intro as a u v hu _ hm ha hv
    obtain ⟨hf, hv'⟩ := hm.1.step ha.1 hv
    exact ⟨hv', hm.2.step hu hf ha.2.1 ha.2.2⟩
  have hhand : s.inHand = [] := hb.2.2.hand_eq
  rcases hall.2 with ⟨hm, he⟩ | ⟨hm, hl⟩
  · rw [hhand, List.append_nil] at he
    exact ⟨fun _ => hm, fun _ => he⟩
  · refine ⟨fun he => ?_, fun hh => absurd hh hm⟩
    have hlen := congrArg List.length he
    rw [List.length_append] at hlen
    rw [hhand, List.length_nil] at hl
    omega

def oneSend (sent : Int) : List Act :=
  [.server (.result 3)] ++ acceptClient 5 ++
  [.daemon (.created true), .daemon (.data [7]),
    .bufferToTcp 1 (.created true), .bufferToTcp 1 .done, .bufferToTcp 1 .done,
    .bufferToTcp 1 .done, .bufferToTcp 1 (.result sent),
    .tcpToUart 1 (.created true), .tcpToUart 1 .done, .tcpToUart 1 .done,
    .tcpToUart 1 (.data []), .tcpToUart 1 .done, .tcpToUart 1 .done, .tcpToUart 1 .done,
    .tcpToUart 1 .done] ++
  (if sent < 0 then [] else [.bufferToTcp 1 .done]) ++
  [.bufferToTcp 1 .done, .bufferToTcp 1 .done, .bufferToTcp 1 .done,
    .server .done, .server .done, .server .done, .server .done, .elapse 500, .server .done,
    .server .done]

theorem failed_send_loses_chunk :
    ∃ s₀ s, tcpBridgeInit zeroMalloc unsetRingBuf = some s₀ ∧
      Machine.run Bridge.step s₀ (oneSend (-1)) = some s ∧
      Machine.Meets Bridge.step
        (fun s a => s.NonOverlapping a ∧ s.SendsWholeOrFails a ∧ s.NoOverflow a) s₀ (oneSend (-1)) ∧
      s.BetweenSessions ∧ s.uartRx = [7] ∧ s.accepted ++ s.cache.contents = [] := by
  have h : ((tcpBridgeInit zeroMalloc unsetRingBuf).bind fun s₀ =>
      Machine.run Bridge.step s₀ (oneSend (-1))).map (fun s => ((s.server, s.session),
        (s.tcpToUart 1, s.bufferToTcp 1), s.uartRx, s.accepted ++ s.cache.contents)) =
      some ((.accept, 1), (.gone, .gone), [7], []) := by decide +kernel
  obtain ⟨s₀, s, hinit, hs, he⟩ := Machine.exists_of_run h
  simp only [Prod.mk.injEq] at he
  obtain ⟨⟨hpc, hn⟩, ⟨hd, hu⟩, hw, hout⟩ := he
  refine ⟨s₀, s, hinit, hs, ?_, ⟨by rw [hpc]; rfl, ?_⟩, hw, hout⟩
  · cases hinit
    decide +kernel
  · rw [hn]
    exact ⟨Or.inr hd, Or.inr hu⟩

theorem no_byte_lost_iff_delivered :
    ∃ s₀ s, tcpBridgeInit zeroMalloc unsetRingBuf = some s₀ ∧
      Machine.run Bridge.step s₀ (oneSend 1) = some s ∧
      (s.accepted ++ s.cache.contents = s.uartRx ↔
        Machine.Meets Bridge.step Bridge.NoSendFails s₀ (oneSend 1)) := by
  have h : ((tcpBridgeInit zeroMalloc unsetRingBuf).bind fun s₀ =>
      Machine.run Bridge.step s₀ (oneSend 1)).map (fun s => ((s.server, s.session),
        s.tcpToUart 1, s.bufferToTcp 1)) = some ((.accept, 1), .gone, .gone) := by decide +kernel
  obtain ⟨s₀, s, hinit, hs, he⟩ := Machine.exists_of_run h
  simp only [Prod.mk.injEq] at he
  obtain ⟨⟨hpc, hn⟩, hd, hu⟩ := he
  refine ⟨s₀, s, hinit, hs, no_byte_lost_iff hinit hs ?_ ⟨by rw [hpc]; rfl, ?_⟩⟩
  · cases hinit
    decide +kernel
  · rw [hn]
    exact ⟨Or.inr hd, Or.inr hu⟩

/-- The byte at position `q` of the UART stream was the oldest of a full cache
when the daemon stored another one. -/
def Bridge.OverwrittenAsOldest (s₀ : Bridge) (as : List Act) (q : Nat) : Prop :=
  ∃ pre bytes post u, as = pre ++ .daemon (.data bytes) :: post ∧
    Machine.run Bridge.step s₀ pre = some u ∧ ∃ i < bytes.length,
      (u.cache.write (bytes.take i)).contents.length = uartCacheSize ∧
      (u.cache.write (bytes.take i)).contents = (u.uartRx ++ bytes.take i).drop q

theorem Bridge.OverwrittenAsOldest.concat {s₀ : Bridge} {as : List Act} {q : Nat} (a : Act)
    (h : s₀.OverwrittenAsOldest as q) : s₀.OverwrittenAsOldest (as ++ [a]) q := by
  obtain ⟨pre, bytes, post, u, rfl, hu⟩ := h
  exact ⟨pre, bytes, post ++ [a], u, by simp, hu⟩

/-- The cache holds the stream from position `p` on; before `p` exactly the
positions in `lost` are missing from what the sockets accepted and the chunk in
hand. -/
structure Bridge.Accounted (s₀ : Bridge) (as : List Act) (s : Bridge) (p : Nat)
    (lost : Finset Nat) : Prop where
  le : p ≤ s.uartRx.length
  cached : s.cache.contents = s.uartRx.drop p
  lost_lt : ∀ q ∈ lost, q < p
  taken : s.accepted ++ s.inHand = LossyQueue.erase lost (s.uartRx.take p)
  card : lost.card = Machine.total Bridge.step Bridge.overflow s₀ as
  oldest : ∀ q ∈ lost, s₀.OverwrittenAsOldest as q

theorem Bridge.Accounted.lost_lt_take {s₀ s : Bridge} {as : List Act} {p : Nat}
    {lost : Finset Nat} (h : s₀.Accounted as s p lost) :
    ∀ q ∈ lost, q < (s.uartRx.take p).length := by
  rw [List.length_take, Nat.min_eq_left h.le]
  exact h.lost_lt

theorem Bridge.Accounted.length_eq {s₀ s : Bridge} {as : List Act} {p : Nat} {lost : Finset Nat}
    (h : s₀.Accounted as s p lost) : s.cache.contents.length = s.uartRx.length - p := by
  rw [h.cached, List.length_drop]

theorem Bridge.Accounted.stream {s₀ s : Bridge} {as : List Act} {p : Nat} {lost : Finset Nat}
    (h : s₀.Accounted as s p lost) :
    s.accepted ++ s.inHand ++ s.cache.contents = LossyQueue.erase lost s.uartRx := by
  rw [h.taken, h.cached, ← LossyQueue.erase_append_of_kept h.lost_lt_take, List.take_append_drop]

theorem Bridge.Accounted.overwritten {s₀ s : Bridge} {as : List Act} {p q : Nat}
    {lost : Finset Nat} {bytes : List UInt8} (h : s₀.Accounted as s p lost)
    (hrun : Machine.run Bridge.step s₀ as = some s) (hge : p ≤ q)
    (hlt : q < p + (s.cache.contents.length + bytes.length - uartCacheSize)) :
    s₀.OverwrittenAsOldest (as ++ [.daemon (.data bytes)]) q := by
  have hsize := s.cache.count_le
  -- the byte stored when the cache, full again, starts at position `q`
  let i := uartCacheSize - s.cache.contents.length + (q - p)
  have hi : i < bytes.length := by
    simp only [i]
    omega
  have htake : (bytes.take i).length = i := List.length_take_of_le hi.le
  have hpos : p + (s.cache.contents.length + i - uartCacheSize) = q := by
    simp only [i]
    omega
  refine ⟨as, bytes, [], s, rfl, hrun, i, hi, ?_, ?_⟩
  · rw [Cache.write_contents, LossyQueue.pushAll_length, htake]
    simp only [i]
    omega
  · rw [Cache.write_contents, LossyQueue.pushAll_drop h.cached h.le, htake, hpos]

theorem Bridge.Accounted.wrote {s₀ s t : Bridge} {as : List Act} {p : Nat} {lost : Finset Nat}
    {bytes : List UInt8} (h : s₀.Accounted as s p lost)
    (hrun : Machine.run Bridge.step s₀ as = some s) (hc : t.cache = s.cache.write bytes)
    (hw : t.uartRx = s.uartRx ++ bytes) (hs : t.accepted = s.accepted) (hh : t.inHand = s.inHand) :
    ∃ p lost, s₀.Accounted (as ++ [.daemon (.data bytes)]) t p lost := by
  let d := s.cache.contents.length + bytes.length - uartCacheSize
  have hsize := s.cache.count_le
  have hlen := h.length_eq
  have hp := h.le
  have hd : p + d ≤ (s.uartRx ++ bytes).length := by
    simp only [d, List.length_append]
    omega
  refine ⟨p + d, lost ∪ Finset.Ico p (p + d), hw ▸ hd, ?_, fun q hq => ?_, ?_, ?_, fun q hq => ?_⟩
  · rw [hc, hw, Cache.write_contents]
    exact LossyQueue.pushAll_drop h.cached hp bytes
  · rcases Finset.mem_union.mp hq with hq | hq
    · have := h.lost_lt q hq
      omega
    · exact (Finset.mem_Ico.mp hq).2
  · rw [hs, hh, hw, h.taken, LossyQueue.erase_take_block hd, List.take_append_of_le_length hp]
  · have hdis : Disjoint lost (Finset.Ico p (p + d)) := by
      refine Finset.disjoint_left.mpr fun q hq hq' => ?_
      have hlt := h.lost_lt q hq
      have hge := (Finset.mem_Ico.mp hq').1
      omega
    rw [Finset.card_union_of_disjoint hdis, Nat.card_Ico, Machine.total_concat hrun, h.card]
    simp only [Bridge.overflow, d]
    omega
  · rcases Finset.mem_union.mp hq with hq | hq
    · exact (h.oldest q hq).concat _
    · obtain ⟨hge, hlt⟩ := Finset.mem_Ico.mp hq
      exact h.overwritten hrun hge hlt

theorem overflow_of_ne {s : Bridge} {a : Act} (h : ∀ bytes, a ≠ .daemon (.data bytes)) :
    s.overflow a = 0 := by
  cases a with
  | daemon b =>
    cases b with
    | data bytes => exact absurd rfl (h bytes)
    | _ => rfl
  | _ => rfl

theorem Bridge.Accounted.move {s₀ s t : Bridge} {as : List Act} {a : Act} {p r : Nat}
    {lost : Finset Nat} (h : s₀.Accounted as s p lost)
    (hrun : Machine.run Bridge.step s₀ as = some s) (ha : s.overflow a = 0)
    (hr : p + r ≤ s.uartRx.length) (hw : t.uartRx = s.uartRx)
    (hc : t.cache.contents = s.cache.contents.drop r)
    (ht : t.accepted ++ t.inHand = s.accepted ++ s.inHand ++ s.cache.contents.take r) :
    s₀.Accounted (as ++ [a]) t (p + r) lost := by
  refine ⟨hw ▸ hr, ?_, fun q hq => ?_, ?_, ?_, fun q hq => (h.oldest q hq).concat a⟩
  · rw [hc, hw, h.cached, List.drop_drop]
  · have := h.lost_lt q hq
    omega
  · rw [ht, hw, h.taken, h.cached, ← LossyQueue.erase_append_of_kept h.lost_lt_take, List.take_add]
  · rw [h.card, Machine.total_concat hrun, ha, Nat.add_zero]

theorem Bridge.Accounted.step {s₀ s t : Bridge} {as : List Act} {a : Act} {p : Nat}
    {lost : Finset Nat} (h : s₀.Accounted as s p lost)
    (hrun : Machine.run Bridge.step s₀ as = some s) (hf : Flow s t a) (hsend : s.SendsWhole a) :
    ∃ p lost, s₀.Accounted (as ++ [a]) t p lost := by
  have hle := h.le
  cases hf with
  | wrote bytes ha hc hw hs hh =>
    subst ha
    exact h.wrote hrun hc hw hs hh
  | took hn hc hh ha ha' hw hs =>
    obtain ⟨hread, hrest⟩ := s.cache.read_contents
    have hlen := h.length_eq
    refine ⟨_, lost, h.move (r := min bufSize s.cache.contents.length) hrun
      (overflow_of_ne fun bytes => ha _) (by omega) hw ?_ ?_⟩
    · rw [hc, hrest]
      exact List.drop_eq_drop_min
    · rw [hs, hh, hread, hn, List.append_nil]
      exact congrArg _ List.take_eq_take_min
  | sent n ha hn hl hs hh hc hw =>
    subst ha
    have hwhole : n.toNat = s.inHand.length := by
      rw [show n = s.inHand.length from hsend]
      rfl
    rw [hwhole, List.take_length] at hs
    exact ⟨_, lost, h.move (r := 0) hrun rfl hle hw (by rw [hc]; rfl) (by simp [hs, hh])⟩
  | failed n ha hn hne hh hc hw hs =>
    subst ha
    have hwhole : n = s.inHand.length := hsend
    omega
  | kept ha ha' hc hw hs hh =>
    exact ⟨_, lost, h.move (r := 0) hrun (overflow_of_ne ha) hle hw (by rw [hc]; rfl)
      (by simp [hs, hh])⟩

theorem total_overflow_eq_zero {s₀ : Bridge} {as : List Act}
    (h : Machine.Meets Bridge.step Bridge.NoOverflow s₀ as) :
    Machine.total Bridge.step Bridge.overflow s₀ as = 0 := by
  induction as generalizing s₀ with
  | nil => rfl
  | cons a as ih =>
    have ha : s₀.overflow a = 0 := by
      by_cases hd : ∃ bytes, a = .daemon (.data bytes)
      · obtain ⟨bytes, rfl⟩ := hd
        exact Nat.sub_eq_zero_of_le h.1
      · exact overflow_of_ne fun bytes he => hd ⟨bytes, he⟩
    cases hs : s₀.step a with
    | none => simp [Machine.total, ha, hs]
    | some t => simp [Machine.total, ha, hs, ih (h.2 t hs)]

theorem Cache.foldl_write_contents (c : Cache) (chunks : List (List UInt8)) :
    (chunks.foldl Cache.write c).contents =
      LossyQueue.pushAll uartCacheSize c.contents chunks.flatten := by
  induction chunks generalizing c with
  | nil => exact (LossyQueue.pushAll_nil c.count_le).symm
  | cons bytes chunks ih =>
    rw [List.foldl_cons, ih, Cache.write_contents, List.flatten_cons, LossyQueue.pushAll_append]

theorem Bridge.run_arrivals {s : Bridge} (hread : s.daemon = .read) {chunks : List (List UInt8)}
    (h : ∀ bytes ∈ chunks, bytes ≠ [] ∧ bytes.length ≤ bufSize) :
    Machine.run Bridge.step s (chunks.map fun bytes => .daemon (.data bytes)) =
      some { s with
        cache := chunks.foldl Cache.write s.cache, uartRx := s.uartRx ++ chunks.flatten } := by
  induction chunks generalizing s with
  | nil => simp [Machine.run]
  | cons bytes chunks ih =>
    obtain ⟨hne, hle⟩ := h bytes List.mem_cons_self
    have hstep : s.step (.daemon (.data bytes)) =
        some { s with cache := s.cache.write bytes, uartRx := s.uartRx ++ bytes } := by
      simp only [Bridge.step, uartRxDaemonTask, hread, if_pos hle, if_pos hne]
    have hrest := ih (s := { s with cache := s.cache.write bytes, uartRx := s.uartRx ++ bytes }) hread
      fun bytes hb => h bytes (List.mem_cons_of_mem _ hb)
    rw [List.map_cons, Machine.run, hstep, Option.bind_some, hrest, List.foldl_cons, List.flatten_cons,
      List.append_assoc]

/-- From its start the uplink gets to the `send` of what it reads first. -/
theorem Bridge.run_to_send {s : Bridge} {k : Nat} (hpc : s.bufferToTcp k = .malloc)
    (hrunning : s.ctx.running = true) (hne : s.cache.read.2 ≠ []) :
    ∃ t, Machine.run Bridge.step s [.bufferToTcp k (.created true), .bufferToTcp k .done,
        .bufferToTcp k .done, .bufferToTcp k .done] = some t ∧
      t.bufferToTcp k = .body (.inSend s.cache.read.2) ∧ t.accepted = s.accepted ∧
      t.uartRx = s.uartRx := by
  refine ⟨{ s.setBufferToTcp k (.body (.inSend s.cache.read.2)) with cache := s.cache.read.1 }, ?_, ?_,
    rfl, rfl⟩
  · simp [Machine.run, Bridge.step, bufferToTcpTask, taskFrame, Bridge.setBufferToTcp, hpc, hrunning, hne]
  · simp [Bridge.setBufferToTcp]

/-- With every send accepting its chunk, what was sent, the chunk in hand and
the cache are the UART stream less the overwritten positions, as many as the
writes overflowed, each the oldest of a full cache when it went. -/
theorem uplink_accounting {malloc : Malloc} {rb : RingBuf} {s₀ s : Bridge} {as : List Act}
    (hinit : tcpBridgeInit malloc rb = some s₀) (hrun : Machine.run Bridge.step s₀ as = some s)
    (hok : Machine.Meets Bridge.step (fun s a => s.NonOverlapping a ∧ s.SendsWhole a) s₀ as) :
    ∃ lost : Finset Nat,
      (∀ q ∈ lost, q < s.uartRx.length ∧ s₀.OverwrittenAsOldest as q) ∧
      s.accepted ++ s.inHand ++ s.cache.contents = LossyQueue.erase lost s.uartRx ∧
      lost.card = Machine.total Bridge.step Bridge.overflow s₀ as ∧
      (Machine.Meets Bridge.step Bridge.NoOverflow s₀ as →
        s.accepted ++ s.inHand ++ s.cache.contents = s.uartRx) := by
  obtain ⟨cache, rfl, hempty⟩ := tcpBridgeInit_start hinit
  have hstart : (Bridge.start cache).Accounted [] (.start cache) 0 ∅ :=
    ⟨le_rfl, hempty, by simp, rfl, rfl, by simp⟩
  have hall : s.Apart ∧ ∃ p lost, (Bridge.start cache).Accounted as s p lost := by
    refine Machine.run_induction
      (motive := fun as s => s.Apart ∧ ∃ p lost, (Bridge.start cache).Accounted as s p lost)
      ⟨Bridge.start_apart cache, 0, ∅, hstart⟩ ?_ hrun hok
    intro as a u v hu _ hm ha hv
    obtain ⟨hf, hv'⟩ := hm.1.step ha.1 hv
    obtain ⟨p, lost, hacc⟩ := hm.2
    exact ⟨hv', hacc.step hu hf ha.2⟩
  obtain ⟨_, p, lost, h⟩ := hall
  refine ⟨lost, fun q hq => ⟨(h.lost_lt q hq).trans_le h.le, h.oldest q hq⟩, h.stream, h.card,
    fun hfit => ?_⟩
  have hnone : lost = ∅ := by
    rw [← Finset.card_eq_zero, h.card, total_overflow_eq_zero hfit]
  rw [h.stream, hnone, LossyQueue.erase_empty]

def clientConnects : List Act := [.server (.result 3)] ++ acceptClient 5 ++ [.daemon (.created true)]

def fullChunk (b : UInt8) : List UInt8 := List.replicate bufSize b

theorem fullChunk_length (b : UInt8) : (fullChunk b).length = bufSize := List.length_replicate

/-- One chunk more than the cache holds. -/
def flood : List (List UInt8) := fullChunk 0 :: fullChunk 1 :: List.replicate 15 (fullChunk 2)

theorem flood_full : ∀ bytes ∈ flood, bytes.length = bufSize := by
  simp [flood, fullChunk_length]

theorem flood_length : flood.flatten.length = uartCacheSize + bufSize := by
  simp [flood, fullChunk_length, bufSize, uartCacheSize]

/-- The uplink does not run before the cache has overflowed. -/
def floodedClient : List Act :=
  clientConnects ++ flood.map (fun bytes => .daemon (.data bytes)) ++
    [.bufferToTcp 1 (.created true), .bufferToTcp 1 .done, .bufferToTcp 1 .done, .bufferToTcp 1 .done]

theorem flood_read {c : Cache} (h : c.contents = []) : (flood.foldl Cache.write c).read.2 = fullChunk 1 := by
  have hlen : flood.flatten.length - uartCacheSize = bufSize := by
    rw [flood_length, Nat.add_sub_cancel_left]
  rw [(Cache.read_contents _).1, Cache.foldl_write_contents, h, LossyQueue.pushAll, List.nil_append,
    List.rtake, hlen, flood, List.flatten_cons, List.drop_left' (fullChunk_length 0), List.flatten_cons,
    List.take_left' (fullChunk_length 1)]

theorem run_floodedClient :
    ∃ s₀ s, tcpBridgeInit zeroMalloc unsetRingBuf = some s₀ ∧
      Machine.run Bridge.step s₀ floodedClient = some s ∧
      s.bufferToTcp 1 = .body (.inSend (fullChunk 1)) ∧ s.accepted = [] ∧ s.uartRx = flood.flatten := by
  have h : ((tcpBridgeInit zeroMalloc unsetRingBuf).bind fun s₀ =>
      Machine.run Bridge.step s₀ clientConnects).map (fun u => ((u.daemon, u.bufferToTcp 1),
        u.ctx.running, u.cache.contents, u.accepted, u.uartRx)) =
      some ((.read, .malloc), true, [], [], []) := by decide +kernel
  obtain ⟨s₀, u, hinit, hu, he⟩ := Machine.exists_of_run h
  simp only [Prod.mk.injEq] at he
  obtain ⟨⟨hread, hpc⟩, hrunning, hempty, hacc, hw⟩ := he
  have hchunks : ∀ bytes ∈ flood, bytes ≠ [] ∧ bytes.length ≤ bufSize := by
    intro bytes hb
    have hlen := flood_full bytes hb
    exact ⟨List.ne_nil_of_length_pos (by rw [hlen]; decide), hlen.le⟩
  have hbytes := flood_read hempty
  have hne : fullChunk 1 ≠ [] := List.ne_nil_of_length_pos (by rw [fullChunk_length]; decide)
  obtain ⟨s, hs, hsend, haccepted, huart⟩ := Bridge.run_to_send (s := { u with
    cache := flood.foldl Cache.write u.cache, uartRx := u.uartRx ++ flood.flatten }) hpc hrunning
    (hbytes ▸ hne)
  refine ⟨s₀, s, hinit, ?_, ?_, haccepted.trans hacc, ?_⟩
  · rw [floodedClient, Machine.run_append, Machine.run_append, hu, Option.bind_some,
      Bridge.run_arrivals hread hchunks, Option.bind_some]
    exact hs
  · rw [hsend]
    exact congrArg (TaskPc.body ∘ BufferToTcpPc.inSend) hbytes
  · rw [huart]
    change u.uartRx ++ flood.flatten = flood.flatten
    rw [hw, List.nil_append]

theorem meets_floodedClient {s₀ : Bridge} (hinit : tcpBridgeInit zeroMalloc unsetRingBuf = some s₀) :
    Machine.Meets Bridge.step (fun s a => s.NonOverlapping a ∧ s.SendsWhole a) s₀ floodedClient := by
  have hconnects : Machine.Meets Bridge.step (fun s a => s.NonOverlapping a ∧ s.SendsWhole a) s₀
      clientConnects := by
    cases hinit
    decide +kernel
  refine Machine.meets_append.mpr ⟨Machine.meets_append.mpr ⟨hconnects, fun u _ => ?_⟩, fun u _ => ?_⟩
  · refine Machine.meets_of_forall_mem (fun a ha s => ?_) u
    obtain ⟨_, _, rfl⟩ := List.mem_map.mp ha
    exact ⟨trivial, trivial⟩
  · refine Machine.meets_of_forall_mem (fun a ha s => ?_) u
    simp only [List.mem_cons, List.not_mem_nil, or_false] at ha
    rcases ha with rfl | rfl | rfl | rfl <;> exact ⟨trivial, trivial⟩

/-- The first chunk is overwritten, and the second is what the client gets first. -/
theorem uplink_accounting_delivered :
    ∃ s₀ s, tcpBridgeInit zeroMalloc unsetRingBuf = some s₀ ∧
      Machine.run Bridge.step s₀ (floodedClient ++ [.bufferToTcp 1 (.result bufSize)]) = some s ∧
      s.uartRx = flood.flatten ∧ s.accepted = fullChunk 1 ∧
      ∃ lost : Finset Nat, lost.Nonempty ∧
        (∀ q ∈ lost, q < s.uartRx.length ∧
          s₀.OverwrittenAsOldest (floodedClient ++ [.bufferToTcp 1 (.result bufSize)]) q) ∧
        s.accepted ++ s.inHand ++ s.cache.contents = LossyQueue.erase lost s.uartRx ∧
        lost.card = Machine.total Bridge.step Bridge.overflow s₀
          (floodedClient ++ [.bufferToTcp 1 (.result bufSize)]) := by
  obtain ⟨s₀, u, hinit, hu, hpc, hacc, hw⟩ := run_floodedClient
  have hlen := fullChunk_length 1
  have hstep : u.step (.bufferToTcp 1 (.result bufSize)) =
      some { u.setBufferToTcp 1 .loopTest with accepted := u.accepted ++ fullChunk 1 } := by
    simp only [Bridge.step, bufferToTcpTask, hpc]
    rw [if_pos (by rw [hlen]), if_neg (by decide), Int.toNat_natCast, ← hlen, List.take_length]
  have hrun := Machine.run_concat.mpr ⟨u, hu, hstep⟩
  have hok : Machine.Meets Bridge.step (fun s a => s.NonOverlapping a ∧ s.SendsWhole a) s₀
      (floodedClient ++ [.bufferToTcp 1 (.result bufSize)]) := by
    refine (Machine.meets_concat_iff hu).mpr ⟨meets_floodedClient hinit, trivial, ?_⟩
    rw [Bridge.SendsWhole, hpc, TaskPc.hand, hlen]
  obtain ⟨lost, hlost, hstream, hcard, _⟩ := uplink_accounting hinit hrun hok
  have haccepted : u.accepted ++ fullChunk 1 = fullChunk 1 := by rw [hacc, List.nil_append]
  refine ⟨s₀, _, hinit, hrun, hw, haccepted, lost, ?_, hlost, hstream, hcard⟩
  rw [Finset.nonempty_iff_ne_empty]
  rintro rfl
  -- with nothing lost the client would have got the first chunk
  have hfirst := congrArg (List.take bufSize) hstream
  rw [LossyQueue.erase_empty] at hfirst
  simp only [haccepted, List.append_assoc] at hfirst
  rw [List.take_left' hlen, Bridge.setBufferToTcp, hw, flood, List.flatten_cons,
    List.take_left' (fullChunk_length 0)] at hfirst
  exact absurd (congrArg List.head? hfirst) (by decide)

end EspPassthrough
