import EspPassthrough.ExitSemaphore

/-! What reaches the socket of a session. Its uplink passes every chunk to `send` once and
only looks for an error: what a short send has not accepted is neither sent again nor put
back. The socket is read from the context at every call, so an uplink left over from an
earlier session sends on the socket of the current one. -/

namespace EspPassthrough

/-- A socket goes by its session, and a byte by the uplink that took it: `target j` is the
session on whose socket uplink `j` last called `send`, `taken k` what the uplink of session
`k` has taken out of the cache, `accepted k` what the socket of session `k` has accepted. -/
structure Upstream where
  target : Nat → Nat
  taken : Nat → List (Nat × UInt8)
  accepted : Nat → List (Nat × UInt8)

def Upstream.none : Upstream := ⟨fun _ => 0, fun _ => [], fun _ => []⟩

def fromUplink (j : Nat) (bytes : List UInt8) : List (Nat × UInt8) := bytes.map (Prod.mk j)

@[simp] theorem fromUplink_nil (j : Nat) : fromUplink j [] = [] := rfl

@[simp] theorem fromUplink_length (j : Nat) (bytes : List UInt8) :
    (fromUplink j bytes).length = bytes.length := List.length_map _

/-- `ctx.sock` is set together with `session`, so a call finds the socket of that session. -/
def Bridge.uplinkNote (s : Bridge) (j : Nat) (a : Answer) (up : Upstream) : Upstream :=
  match s.bufferToTcp j, a with
  | .body .rbRead, .done =>
    { up with taken := Function.update up.taken j (up.taken j ++ fromUplink j s.cache.read.2) }
  | .body (.send _), .done => { up with target := Function.update up.target j s.session }
  | .body (.inSend chunk), .result sent =>
    let k := up.target j
    let bytes := fromUplink j (chunk.take sent.toNat)
    { up with accepted := Function.update up.accepted k (up.accepted k ++ bytes) }
  | _, _ => up

def Bridge.noteUplink (s : Bridge) : Act → Upstream → Upstream
  | .bufferToTcp j a, up => s.uplinkNote j a up
  | _, up => up

/-- On the socket of session `k` the `send` of its own uplink accepts the whole chunk or fails,
and that of a left-over uplink accepts nothing. -/
def Bridge.FullSends (k : Nat) (p : Bridge × Upstream) : Act → Prop
  | .bufferToTcp j (.result n) =>
    p.2.target j = k → n < 0 ∨ n = if j = k then (p.1.bufferToTcp j).hand.length else 0
  | _ => True

instance (k : Nat) (p : Bridge × Upstream) : (a : Act) → Decidable (Bridge.FullSends k p a)
  | .bufferToTcp _ (.result _) => inferInstanceAs (Decidable (_ → _))
  | .bufferToTcp _ .done | .bufferToTcp _ (.created _) | .bufferToTcp _ (.data _) => isTrue trivial
  | .elapse _ | .daemon _ | .server _ | .tcpToUart _ _ => isTrue trivial

/-- The task is on its way out, or gone. -/
def TaskPc.LeftLoop {β : Type} : TaskPc β → Prop
  | .clearRunning | .give | .deleteSelf | .gone => True
  | _ => False

def TaskPc.InSend : TaskPc BufferToTcpPc → Prop
  | .body (.inSend _) => True
  | _ => False

/-- A `send` in progress is on the socket of a session that began after the uplink's own, if
it is not on that one, and what an uplink has taken is noted as taken by it. -/
structure Bridge.Aimed (s : Bridge) (up : Upstream) : Prop where
  numbered : s.Numbered
  target : ∀ j, (s.bufferToTcp j).InSend → j ≤ up.target j ∧ up.target j ≤ s.session
  taken : ∀ k, ∀ e ∈ up.taken k, e.1 = k

/-- Uplink `k` is in its loop, and its session is the current one or its `send` is still on
the socket of its session. -/
def Bridge.Serves (s : Bridge) (up : Upstream) (k : Nat) : Prop :=
  ¬(s.bufferToTcp k).LeftLoop ∧ (s.session ≤ k ∨ (s.bufferToTcp k).InSend ∧ up.target k = k)

/-- What one step does to the bytes of session `k`. -/
inductive Upflow (s t : Bridge) (up up' : Upstream) (a : Act) (k : Nat) : Prop where
  | took (hfull : Bridge.FullSends k (s, up) a) (hserve : t.Serves up' k → s.Serves up k)
      (hhand : (s.bufferToTcp k).hand = [])
      (ht : up'.taken k = up.taken k ++ fromUplink k (t.bufferToTcp k).hand)
      (hs : up'.accepted k = up.accepted k)
  | sent (n : Nat) (hle : n ≤ (s.bufferToTcp k).hand.length)
      (hfull : Bridge.FullSends k (s, up) a ↔ n = (s.bufferToTcp k).hand.length)
      (hserve : s.Serves up k) (hhand : (t.bufferToTcp k).hand = []) (ht : up'.taken k = up.taken k)
      (hs : up'.accepted k = up.accepted k ++ fromUplink k ((s.bufferToTcp k).hand.take n))
  | mixed (j : Nat) (hj : j ≠ k) (bytes : List UInt8) (hne : bytes ≠ [])
      (hfull : ¬Bridge.FullSends k (s, up) a)
      (hs : up'.accepted k = up.accepted k ++ fromUplink j bytes)
  | kept (hfull : Bridge.FullSends k (s, up) a)
      (hserve : t.Serves up' k → s.Serves up k ∧ (t.bufferToTcp k).hand = (s.bufferToTcp k).hand)
      (ht : up'.taken k = up.taken k) (hs : up'.accepted k = up.accepted k)

theorem taskFrame_not_inSend {ctx : BridgeContext} {pc : TaskPc BufferToTcpPc} {a : Answer}
    {r : TaskPc BufferToTcpPc × BridgeContext} (h : taskFrame .rbRead ctx pc a = some r) :
    ¬r.1.InSend := by
  obtain ⟨_, _, _, hc⟩ := taskFrame_hand h (by simp)
  intro hin
  cases hr : r.1 with
  | body b =>
    cases b with
    | inSend c => exact (hc c).2 hr
    | _ => simp [hr, TaskPc.InSend] at hin
  | _ => simp [hr, TaskPc.InSend] at hin

theorem Bridge.uplinkNote_target_ne (s : Bridge) {j k : Nat} (hk : k ≠ j) (a : Answer)
    (up : Upstream) : (s.uplinkNote j a up).target k = up.target k := by
  unfold Bridge.uplinkNote
  split
  case h_2 => exact Function.update_of_ne hk _ _
  all_goals rfl

theorem Bridge.uplinkNote_taken_ne (s : Bridge) {j k : Nat} (hk : k ≠ j) (a : Answer)
    (up : Upstream) : (s.uplinkNote j a up).taken k = up.taken k := by
  unfold Bridge.uplinkNote
  split
  case h_1 => exact Function.update_of_ne hk _ _
  all_goals rfl

theorem Bridge.uplinkNote_taken_own (s : Bridge) (j : Nat) (a : Answer) {up : Upstream}
    (h : ∀ e ∈ up.taken j, e.1 = j) : ∀ e ∈ (s.uplinkNote j a up).taken j, e.1 = j := by
  unfold Bridge.uplinkNote
  split
  case h_1 =>
    intro e he
    simp only [Function.update_self, List.mem_append] at he
    rcases he with he | he
    · exact h e he
    · obtain ⟨_, _, rfl⟩ := List.mem_map.mp he
      rfl
  all_goals exact h

theorem Bridge.Aimed.keep {s t : Bridge} {up : Upstream} (h : s.Aimed up) (hnum : t.Numbered)
    (hn : s.session ≤ t.session) (hu : ∀ j, (t.bufferToTcp j).InSend → (s.bufferToTcp j).InSend) :
    t.Aimed up :=
  ⟨hnum, fun j hj => ⟨(h.target j (hu j hj)).1, (h.target j (hu j hj)).2.trans hn⟩, h.taken⟩

theorem Bridge.Aimed.uplink {s t : Bridge} {up : Upstream} {j : Nat} {a : Answer} (h : s.Aimed up)
    (hs : bufferToTcpTask s j a = some t) : t.Aimed (s.uplinkNote j a up) := by
  have hnum : t.Numbered := h.numbered.step (a := .bufferToTcp j a) hs
  obtain ⟨pc, ctx, cache, accepted, rfl, hstep⟩ := bufferToTcpTask_cases hs
  refine ⟨hnum, fun k hk => ?_, fun k => ?_⟩
  · by_cases hkj : k = j
    · subst hkj
      have hpc : pc.InSend := by simpa [Bridge.setBufferToTcp] using hk
      have hle : k ≤ s.session := by
        by_contra hlt
        exact hstep.live (Or.inl (h.numbered.future k (not_le.mp hlt)).2)
      cases hstep with
      | call chunk hcall => simp [Bridge.uplinkNote, hcall, Bridge.setBufferToTcp, hle]
      | frame a r hr => exact absurd hpc (taskFrame_not_inSend hr)
      | _ => exact absurd hpc id
    · have hpc : (s.bufferToTcp k).InSend := by simpa [Bridge.setBufferToTcp, hkj] using hk
      rw [s.uplinkNote_target_ne hkj]
      exact h.target k hpc
  · by_cases hkj : k = j
    · subst hkj
      exact s.uplinkNote_taken_own k a (h.taken k)
    · rw [s.uplinkNote_taken_ne hkj]
      exact h.taken k

theorem Bridge.Aimed.server {s t : Bridge} {up : Upstream} {a : Answer} (h : s.Aimed up)
    (hs : tcpServerTask s a = some t) : t.Aimed up := by
  have hnum := h.numbered.serverStep hs
  cases tcpServerTask_step hs with
  | initSock => exact h.keep hnum (Nat.le_succ _) fun _ hj => hj
  | @createBufferToTcp ok hpc =>
    refine h.keep hnum le_rfl fun j hj => ?_
    by_cases hjs : j = s.session
    · subst hjs
      cases ok <;> simp [Bridge.setBufferToTcp, TaskPc.InSend] at hj
    · simpa [Bridge.setBufferToTcp, hjs] using hj
  | _ => exact h.keep hnum le_rfl fun _ hj => hj

theorem Bridge.Aimed.step {s t : Bridge} {up : Upstream} {a : Act} (h : s.Aimed up)
    (hs : s.step a = some t) : t.Aimed (s.noteUplink a up) := by
  have hnum := h.numbered.step hs
  cases a with
  | elapse ms =>
    cases hs
    exact h.keep hnum le_rfl fun _ hj => hj
  | daemon a =>
    obtain ⟨_, _, _, rfl⟩ := uartRxDaemonTask_frame hs
    exact h.keep hnum le_rfl fun _ hj => hj
  | server a => exact h.server hs
  | tcpToUart j a =>
    obtain ⟨_, _, _, _, rfl⟩ := tcpToUartTask_frame hs
    exact h.keep hnum le_rfl fun _ hj => hj
  | bufferToTcp j a => exact h.uplink hs

/-- Either every send was complete and no byte is missing or foreign, or the socket has bytes
of another uplink, or bytes are missing that the uplink no longer has. -/
def Bridge.Gapless (s₀ : Bridge) (as : List Act) (s : Bridge) (up : Upstream) (k : Nat) : Prop :=
  (Machine.Meets (Machine.monitored Bridge.step Bridge.noteUplink) (Bridge.FullSends k) (s₀, .none) as ∧
    up.accepted k <+: up.taken k ∧
    (s.Serves up k → up.accepted k ++ fromUplink k (s.bufferToTcp k).hand = up.taken k)) ∨
  (¬Machine.Meets (Machine.monitored Bridge.step Bridge.noteUplink) (Bridge.FullSends k) (s₀, .none) as ∧
    ((∃ e ∈ up.accepted k, e.1 ≠ k) ∨ (s.Serves up k →
      (up.accepted k).length + (s.bufferToTcp k).hand.length < (up.taken k).length)))

theorem Bridge.Gapless.of_fullSends {s₀ s t : Bridge} {up up' : Upstream} {as : List Act} {a : Act}
    {k : Nat} (h : s₀.Gapless as s up k)
    (hrun : Machine.run (Machine.monitored Bridge.step Bridge.noteUplink) (s₀, .none) as = some (s, up))
    (hfull : Bridge.FullSends k (s, up) a)
    (hpre : up.accepted k <+: up.taken k →
      (s.Serves up k → up.accepted k ++ fromUplink k (s.bufferToTcp k).hand = up.taken k) →
      up'.accepted k <+: up'.taken k)
    (hmem : ∀ e ∈ up.accepted k, e ∈ up'.accepted k)
    (hserve : t.Serves up' k → s.Serves up k ∧
      (up.accepted k ++ fromUplink k (s.bufferToTcp k).hand = up.taken k →
        up'.accepted k ++ fromUplink k (t.bufferToTcp k).hand = up'.taken k) ∧
      ((up.accepted k).length + (s.bufferToTcp k).hand.length < (up.taken k).length →
        (up'.accepted k).length + (t.bufferToTcp k).hand.length < (up'.taken k).length)) :
    s₀.Gapless (as ++ [a]) t up' k := by
  rcases h with ⟨hm, hp, he⟩ | ⟨hm, hl⟩
  · refine Or.inl ⟨(Machine.meets_concat_iff hrun).mpr ⟨hm, hfull⟩, hpre hp he, fun ht => ?_⟩
    obtain ⟨hs, hkeep, _⟩ := hserve ht
    exact hkeep (he hs)
  · refine Or.inr ⟨fun hh => hm ((Machine.meets_concat_iff hrun).mp hh).1, ?_⟩
    rcases hl with ⟨e, hmixed, hne⟩ | hl
    · exact Or.inl ⟨e, hmem e hmixed, hne⟩
    · refine Or.inr fun ht => ?_
      obtain ⟨hs, _, hkeep⟩ := hserve ht
      exact hkeep (hl hs)

theorem Bridge.Gapless.step {s₀ s t : Bridge} {up up' : Upstream} {as : List Act} {a : Act} {k : Nat}
    (h : s₀.Gapless as s up k)
    (hrun : Machine.run (Machine.monitored Bridge.step Bridge.noteUplink) (s₀, .none) as = some (s, up))
    (hf : Upflow s t up up' a k) : s₀.Gapless (as ++ [a]) t up' k := by
  cases hf with
  | took hfull hserve hhand ht hs =>
    refine h.of_fullSends hrun hfull (fun hp _ => ?_) (fun e he => hs ▸ he)
      fun hq => ⟨hserve hq, fun he => ?_, fun hl => ?_⟩
    · rw [hs, ht]
      exact hp.trans (List.prefix_append _ _)
    · rw [hs, ht, ← he, hhand, fromUplink_nil, List.append_nil]
    · rw [hs, ht, List.length_append, fromUplink_length]
      omega
  | sent n hle hfull hserve hhand ht hs =>
    -- the only step that can leave bytes behind while the loop goes on
    by_cases hwhole : n = (s.bufferToTcp k).hand.length
    · rw [hwhole, List.take_length] at hs
      refine h.of_fullSends hrun (hfull.mpr hwhole) (fun _ he => ?_)
        (fun e he => hs ▸ List.mem_append_left _ he) fun _ => ⟨hserve, fun he => ?_, fun hl => ?_⟩
      · rw [hs, ht, he hserve]
      · rw [hs, ht, hhand, he, fromUplink_nil, List.append_nil]
      · rw [hs, ht, hhand, List.length_append, fromUplink_length, List.length_nil]
        exact hl
    · refine Or.inr ⟨fun hm => hwhole (hfull.mp ((Machine.meets_concat_iff hrun).mp hm).2), ?_⟩
      rw [hs, ht, hhand, List.length_append, fromUplink_length, List.length_take, List.length_nil]
      rcases h with ⟨_, _, he⟩ | ⟨_, ⟨e, hmixed, hne⟩ | hl⟩
      · have hlen := congrArg List.length (he hserve)
        rw [List.length_append, fromUplink_length] at hlen
        exact Or.inr fun _ => by omega
      · exact Or.inl ⟨e, List.mem_append_left _ hmixed, hne⟩
      · have hlt := hl hserve
        exact Or.inr fun _ => by omega
  | mixed j hj bytes hne hfull hs =>
    obtain ⟨b, hb⟩ := List.exists_mem_of_ne_nil bytes hne
    refine Or.inr ⟨fun hm => hfull ((Machine.meets_concat_iff hrun).mp hm).2, Or.inl ⟨(j, b), ?_, hj⟩⟩
    rw [hs]
    exact List.mem_append_right _ (List.mem_map_of_mem hb)
  | kept hfull hserve ht hs =>
    refine h.of_fullSends hrun hfull (fun hp _ => ?_) (fun e he => hs ▸ he) fun hq => ?_
    · rw [hs, ht]
      exact hp
    · obtain ⟨hp, hhand⟩ := hserve hq
      rw [hs, ht, hhand]
      exact ⟨hp, id, id⟩

end EspPassthrough
