import EspPassthrough.RetryBudget

/-! What `wifi_event_handler` does over the life of a device on which every event is
worked off before the next one comes. -/

namespace EspPassthrough

open CText

/-- The device with every event and every request let through, also an event for an
attempt that was never made and a request without a web server. -/
def Device.stepAny (s : Device) : DeviceAct → Option Device
  | .driver e => if s.on then some { s with queue := s.queue ++ [e] } else none
  | .request sdk req =>
    if s.on ∧ s.post = none then some { s with post := some (wifiConfigPostHandler sdk req) } else none
  | a => s.step a

def Device.Free (s : Device) : Prop := s.handler = .idle ∧ s.queue = [] ∧ s.post = none

instance (s : Device) : Decidable s.Free := inferInstanceAs (Decidable (_ ∧ _ ∧ _))

/-- Whatever is new comes to a device that is done with what came before. -/
def Device.InTurn (s : Device) : DeviceAct → Prop
  | .driver _ | .request _ _ | .boot _ | .powerLoss => s.Free
  | _ => True

instance (s : Device) : ∀ a, Decidable (s.InTurn a)
  | .driver _ | .request _ _ | .boot _ | .powerLoss => inferInstanceAs (Decidable s.Free)
  | .powerOn _ | .eventLoop | .httpd => isTrue trivial

def Device.Done (s : Device) : Prop := s.on = false ∨ s.handler = .idle ∧ s.queue = []

instance (s : Device) : Decidable s.Done := inferInstanceAs (Decidable (_ ∨ _ ∧ _))

inductive LifeEvent where
  | boot
  | acceptedPost
  | wifi (e : WifiEvent)
  deriving DecidableEq

inductive HandlerCall where
  | vTaskDelay (ms : Nat)
  | espWifiConnect
  | espRestart
  deriving DecidableEq

def HandlerPc.calls : HandlerPc → List HandlerCall
  | .restartDelay => [.vTaskDelay 1000]
  | .restart => [.espRestart]
  | .inDelay _ ms => [.vTaskDelay ms]
  | .connect _ => [.espWifiConnect]
  | _ => []

/-- An event, whether the web server was running when it came, and what the handler
has called on it. -/
structure Entry where
  event : LifeEvent
  serving : Bool
  calls : List HandlerCall
  deriving DecidableEq

/-- The life of the device, the newest event first. -/
def Entry.note (s : Device) : DeviceAct → List Entry → List Entry
  | .powerOn _, h => ⟨.boot, false, []⟩ :: h
  | .driver e, h => ⟨.wifi e, s.server, []⟩ :: h
  | .request sdk req, h =>
    if (wifiConfigPostHandler sdk req).configs ≠ [] then ⟨.acceptedPost, s.server, []⟩ :: h else h
  | .eventLoop, e :: h => { e with calls := e.calls ++ s.handler.calls } :: h
  | _, h => h

def LifeEvent.resets : LifeEvent → Bool
  | .boot | .acceptedPost | .wifi (.staGotIp _) => true
  | _ => false

def LifeEvent.disconnects : LifeEvent → Bool
  | .wifi (.staDisconnected _) => true
  | _ => false

/-- The disconnects since the last reset. -/
def sinceReset (h : List Entry) : Nat :=
  (h.takeWhile fun e => !e.event.resets).countP fun e => e.event.disconnects

/-- The calls that an event asks for, as the `k`-th disconnect if it is one. -/
def Entry.law (e : Entry) (k : Nat) : List HandlerCall :=
  match e.event with
  | .wifi (.staDisconnected _) => if k ≤ maxRetry then [.vTaskDelay (k * 1500), .espWifiConnect] else []
  | .wifi (.staGotIp _) => if e.serving then [.vTaskDelay 1000, .espRestart] else []
  | _ => []

theorem sinceReset_reset {e : Entry} (he : e.event.resets = true) (h : List Entry) :
    sinceReset (e :: h) = 0 := by
  simp [sinceReset, he]

theorem sinceReset_disconnect {e : Entry} (he : e.event.disconnects = true) (h : List Entry) :
    sinceReset (e :: h) = sinceReset h + 1 := by
  have hno : e.event.resets = false := by
    unfold LifeEvent.disconnects at he
    split at he
    case h_1 heq => rw [heq]; rfl
    case h_2 => cases he
  simp [sinceReset, hno, he]

theorem sinceReset_other {e : Entry} (hr : e.event.resets = false) (hd : e.event.disconnects = false)
    (h : List Entry) : sinceReset (e :: h) = sinceReset h := by
  simp [sinceReset, hr, hd]

theorem sinceReset_congr {e e' : Entry} (he : e'.event = e.event) (h : List Entry) :
    sinceReset (e' :: h) = sinceReset (e :: h) := by
  simp only [sinceReset, List.takeWhile_cons, he]
  cases e.event.resets
  · simp only [Bool.not_false, if_true, List.countP_cons, he]
  · rfl

theorem Entry.law_congr {e e' : Entry} (he : e'.event = e.event) (hs : e'.serving = e.serving) (k : Nat) :
    e'.law k = e.law k := by
  simp only [Entry.law, he, hs]

/-! ## What is still to come -/

/-- Where the handler is, or will be once it has fetched the event that is waiting. -/
def Device.pending (s : Device) : HandlerPc :=
  if s.handler = .idle then (s.queue.head?.map HandlerPc.dispatch).getD .idle else s.handler

def HandlerPc.remaining (server : Bool) (retryNum : Nat) : HandlerPc → List HandlerCall
  | .idle => []
  | .gotIpReset | .serverTest => if server then [.vTaskDelay 1000, .espRestart] else []
  | .restartDelay => [.vTaskDelay 1000, .espRestart]
  | .restart => [.espRestart]
  | .retryTest _ =>
    if retryNum < maxRetry then [.vTaskDelay ((retryNum + 1) * 1500), .espWifiConnect] else []
  | .retryRead _ => [.vTaskDelay ((retryNum + 1) * 1500), .espWifiConnect]
  | .retryWrite _ read => [.vTaskDelay ((read + 1) * 1500), .espWifiConnect]
  | .delayRead _ => [.vTaskDelay (retryNum * 1500), .espWifiConnect]
  | .inDelay _ ms => [.vTaskDelay ms, .espWifiConnect]
  | .connect _ => [.espWifiConnect]

/-- The calls the handler has still to make on the event in hand. -/
def Device.remaining (s : Device) : List HandlerCall :=
  if s.on then s.pending.remaining s.server s.retryNum else []

def HandlerPc.target (retryNum : Nat) : HandlerPc → Nat
  | .gotIpReset => 0
  | .retryTest _ => min (retryNum + 1) maxRetry
  | .retryRead _ => retryNum + 1
  | .retryWrite _ read => read + 1
  | _ => retryNum

def Device.resetDue (s : Device) : Bool := s.post.any fun r => decide (.resetRetryNum ∈ r.calls)

/-- The counter once the handler and the web server's task are through. -/
def Device.target (s : Device) : Nat := if s.resetDue then 0 else s.pending.target s.retryNum

inductive Device.OneAtATime (s : Device) : Prop where
  | request (hpc : s.handler = .idle) (hq : s.queue = [])
  | waiting (hpost : s.post = none) (hpc : s.handler = .idle) (e : WifiEvent) (hq : s.queue = [e])
  | handling (hpost : s.post = none) (hq : s.queue = [])

theorem Device.pending_of_nil {s : Device} (hq : s.queue = []) : s.pending = s.handler := by
  by_cases hpc : s.handler = .idle
  · rw [Device.pending, if_pos hpc, hq, hpc]
    rfl
  · rw [Device.pending, if_neg hpc]

theorem Device.pending_of_waiting {s : Device} (hpc : s.handler = .idle) {e : WifiEvent}
    (hq : s.queue = [e]) : s.pending = .dispatch e := by
  rw [Device.pending, if_pos hpc, hq]
  rfl

theorem Device.resetDue_of_none {s : Device} (h : s.post = none) : s.resetDue = false := by
  rw [Device.resetDue, h]
  rfl

theorem Device.target_of_none {s : Device} (h : s.post = none) : s.target = s.pending.target s.retryNum := by
  rw [Device.target, Device.resetDue_of_none h]
  rfl

/-! ## One step -/

/-- What an entry in hand owes and what has been done on it stay the same in sum. -/
structure Device.Conserves (s t : Device) : Prop where
  calls : s.handler.calls ++ t.remaining = s.remaining
  bound : t.retryNum ≤ maxRetry
  target : t.on = true → t.target = s.target
  oneAtATime : t.OneAtATime

theorem Device.dispatch_conserves {s : Device} (hpost : s.post = none) (hpc : s.handler = .idle)
    {e : WifiEvent} (hq : s.queue = [e]) (hbound : s.retryNum ≤ maxRetry) :
    s.Conserves { s with queue := [], handler := .dispatch e } where
  calls := by
    rw [Device.remaining, Device.remaining, Device.pending_of_nil rfl, Device.pending_of_waiting hpc hq, hpc]
    rfl
  bound := hbound
  target := by
    intro _
    rw [Device.target_of_none (show { s with queue := [], handler := .dispatch e }.post = none from hpost),
      Device.target_of_none hpost, Device.pending_of_nil rfl, Device.pending_of_waiting hpc hq]
  oneAtATime := .handling hpost rfl

theorem Device.conserves_of {s t : Device} (hon : s.on = true) (hpost : s.post = none)
    (hq : s.queue = []) (hton : t.on = s.on) (htpost : t.post = s.post) (htq : t.queue = s.queue)
    (hcalls : s.handler.calls ++ t.handler.remaining t.server t.retryNum =
      s.handler.remaining s.server s.retryNum)
    (hbound : t.retryNum ≤ maxRetry)
    (htarget : t.handler.target t.retryNum = s.handler.target s.retryNum) : s.Conserves t where
  calls := by
    rw [Device.remaining, if_pos (hton.trans hon), Device.remaining, if_pos hon,
      Device.pending_of_nil (htq.trans hq), Device.pending_of_nil hq]
    exact hcalls
  bound := hbound
  target := by
    intro _
    rw [Device.target_of_none (htpost.trans hpost), Device.target_of_none hpost,
      Device.pending_of_nil (htq.trans hq), Device.pending_of_nil hq]
    exact htarget
  oneAtATime := .handling (htpost.trans hpost) (htq.trans hq)

theorem Device.wifiEventHandler_conserves {s t : Device} (hon : s.on = true) (hone : s.OneAtATime)
    (hbound : s.retryNum ≤ maxRetry) (htarget : s.target ≤ maxRetry)
    (hs : wifiEventHandler s = some t) : s.Conserves t := by
  have hhandling : s.handler ≠ .idle → s.post = none ∧ s.queue = [] := by
    intro hne
    cases hone with
    | request hpc _ => exact absurd hpc hne
    | waiting _ hpc _ _ => exact absurd hpc hne
    | handling hpost hq => exact ⟨hpost, hq⟩
  cases wifiEventHandler_step hs with
  | dispatch hpc hq =>
    cases hone with
    | request _ hnil => cases hq.symm.trans hnil
    | waiting hpost _ e hwaiting =>
      obtain ⟨rfl, rfl⟩ := List.cons.inj (hq.symm.trans hwaiting)
      exact Device.dispatch_conserves hpost hpc hq hbound
    | handling _ hnil => cases hq.symm.trans hnil
  | gotIpReset hpc =>
    obtain ⟨hpost, hq⟩ := hhandling (by simp [hpc])
    exact Device.conserves_of hon hpost hq rfl rfl rfl (by rw [hpc]; rfl) (Nat.zero_le _)
      (by rw [hpc]; rfl)
  | serverTest hpc =>
    obtain ⟨hpost, hq⟩ := hhandling (by simp [hpc])
    refine Device.conserves_of hon hpost hq rfl rfl rfl ?_ hbound ?_
    · rw [hpc]
      dsimp only
      cases s.server <;> rfl
    · rw [hpc]
      dsimp only
      cases s.server <;> rfl
  | restart hpc =>
    obtain ⟨hpost, hq⟩ := hhandling (by simp [hpc])
    exact
      { calls := by
          rw [Device.remaining, if_neg Bool.false_ne_true, Device.remaining, if_pos hon,
            Device.pending_of_nil hq, hpc]
          rfl
        bound := hbound
        target := fun hoff => absurd hoff Bool.false_ne_true
        oneAtATime := .handling hpost hq }
  | retryTest hpc =>
    obtain ⟨hpost, hq⟩ := hhandling (by simp [hpc])
    refine Device.conserves_of hon hpost hq rfl rfl rfl ?_ hbound ?_
    · rw [hpc]
      dsimp only
      by_cases hlt : s.retryNum < maxRetry
      · rw [if_pos hlt, HandlerPc.remaining, HandlerPc.remaining, if_pos hlt]
        rfl
      · rw [if_neg hlt, HandlerPc.remaining, HandlerPc.remaining, if_neg hlt]
        rfl
    · rw [hpc]
      dsimp only
      by_cases hlt : s.retryNum < maxRetry
      · rw [if_pos hlt]
        exact (min_eq_left hlt).symm
      · rw [if_neg hlt]
        simp only [HandlerPc.target]
        omega
  | retryWrite hpc =>
    obtain ⟨hpost, hq⟩ := hhandling (by simp [hpc])
    rw [Device.target_of_none hpost, Device.pending_of_nil hq, hpc] at htarget
    exact Device.conserves_of hon hpost hq rfl rfl rfl (by rw [hpc]; rfl) htarget (by rw [hpc]; rfl)
  | _ hpc =>
    obtain ⟨hpost, hq⟩ := hhandling (by simp [hpc])
    exact Device.conserves_of hon hpost hq rfl rfl rfl (by rw [hpc]; rfl) hbound (by rw [hpc]; rfl)

/-! ## All steps -/

/-- The entries but the newest are complete, that one is as far as the handler is, and
the counter follows the disconnects since the last reset. -/
structure Device.Lawful (s : Device) (h : List Entry) : Prop where
  bound : s.retryNum ≤ maxRetry
  past : ∀ e before, e :: before <:+ h.tail → e.calls = e.law (sinceReset (e :: before))
  current : ∀ e before, h = e :: before → e.calls ++ s.remaining = e.law (sinceReset (e :: before))
  target : s.on = true → s.target = min (sinceReset h) maxRetry
  oneAtATime : s.on = true → s.OneAtATime

theorem Device.off_lawful (nvs : WifiStaConfig) : (Device.off nvs).Lawful [] where
  bound := Nat.zero_le _
  past := by simp
  current := by simp
  target := fun h => absurd h Bool.false_ne_true
  oneAtATime := fun h => absurd h Bool.false_ne_true

theorem Device.Lawful.all {s : Device} {h : List Entry} (hi : s.Lawful h) (hrest : s.remaining = [])
    {e : Entry} {before : List Entry} (hsuffix : e :: before <:+ h) :
    e.calls = e.law (sinceReset (e :: before)) := by
  cases h with
  | nil => simp at hsuffix
  | cons d h =>
    rcases List.suffix_cons_iff.mp hsuffix with heq | hsuffix
    · have hcalls := hi.current e before heq.symm
      rwa [hrest, List.append_nil] at hcalls
    · exact hi.past e before hsuffix

theorem Device.Lawful.push {s t : Device} {h : List Entry} (hi : s.Lawful h) (hrest : s.remaining = [])
    {e : Entry} (hbound : t.retryNum ≤ maxRetry)
    (hcalls : e.calls ++ t.remaining = e.law (sinceReset (e :: h)))
    (htarget : t.target = min (sinceReset (e :: h)) maxRetry) (hone : t.OneAtATime) :
    t.Lawful (e :: h) where
  bound := hbound
  past := fun _ _ hsuffix => hi.all hrest hsuffix
  current := by
    rintro e' before heq
    obtain ⟨rfl, rfl⟩ := List.cons.inj heq
    exact hcalls
  target := fun _ => htarget
  oneAtATime := fun _ => hone

theorem Device.Lawful.keep {s t : Device} {h : List Entry} (hi : s.Lawful h)
    (hbound : t.retryNum ≤ maxRetry) (hrest : t.remaining = s.remaining) (hon : t.on = true → s.on = true)
    (htarget : t.on = true → t.target = s.target) (hone : t.on = true → t.OneAtATime) : t.Lawful h where
  bound := hbound
  past := hi.past
  current := by
    rw [hrest]
    exact hi.current
  target := fun ht => (htarget ht).trans (hi.target (hon ht))
  oneAtATime := hone

theorem Device.remaining_of_off {s : Device} (h : s.on = false) : s.remaining = [] := by
  rw [Device.remaining, if_neg (by simp [h])]

theorem Device.remaining_of_idle {s : Device} (hpc : s.handler = .idle) (hq : s.queue = []) :
    s.remaining = [] := by
  rw [Device.remaining, Device.pending_of_nil hq, hpc, HandlerPc.remaining, ite_self]

theorem Device.remaining_of_done {s : Device} (h : s.Done) : s.remaining = [] := by
  rcases h with hoff | ⟨hpc, hq⟩
  · exact Device.remaining_of_off hoff
  · exact Device.remaining_of_idle hpc hq

theorem Device.target_of_idle {s : Device} (hpc : s.handler = .idle) (hq : s.queue = []) :
    s.target = if s.resetDue then 0 else s.retryNum := by
  rw [Device.target, Device.pending_of_nil hq, hpc]
  rfl

theorem Device.target_of_free {s : Device} (h : s.Free) : s.target = s.retryNum := by
  rw [Device.target_of_idle h.1 h.2.1, Device.resetDue_of_none h.2.2]
  rfl

theorem Device.Lawful.eventLoop {s t : Device} {h : List Entry} (hi : s.Lawful h) (hon : s.on = true)
    (hs : wifiEventHandler s = some t) : t.Lawful (Entry.note s .eventLoop h) := by
  have htarget := hi.target hon
  have hc := Device.wifiEventHandler_conserves hon (hi.oneAtATime hon) hi.bound (by omega) hs
  cases h with
  | nil =>
    exact
      { bound := hc.bound
        past := hi.past
        current := by simp [Entry.note]
        target := fun ht => (hc.target ht).trans htarget
        oneAtATime := fun _ => hc.oneAtATime }
  | cons e h =>
    have hsince := @sinceReset_congr e { e with calls := e.calls ++ s.handler.calls } rfl h
    exact
      { bound := hc.bound
        past := hi.past
        current := by
          rintro e' before heq
          obtain ⟨rfl, rfl⟩ := List.cons.inj heq
          rw [List.append_assoc, hc.calls, hi.current e h rfl, hsince]
          exact (Entry.law_congr rfl rfl _).symm
        target := fun ht => by
          rw [hc.target ht, htarget]
          exact congrArg (min · maxRetry) hsince.symm
        oneAtATime := fun _ => hc.oneAtATime }

theorem Device.Lawful.powerOn {s : Device} {h : List Entry} (hi : s.Lawful h) (hoff : s.on = false)
    (after : List UInt8) : (s.powerOn after).Lawful (⟨.boot, false, []⟩ :: h) := by
  refine hi.push (Device.remaining_of_off hoff) (Nat.zero_le _) ?_ ?_ (.request rfl rfl)
  · rw [Device.remaining_of_idle rfl rfl]
    rfl
  · rw [sinceReset_reset rfl]
    rfl

theorem Device.Lawful.powerLoss {s : Device} {h : List Entry} (hi : s.Lawful h) (hfree : s.Free) :
    { s with on := false }.Lawful h := by
  refine hi.keep hi.bound ?_ (fun hon => absurd hon Bool.false_ne_true)
    (fun hon => absurd hon Bool.false_ne_true) (fun hon => absurd hon Bool.false_ne_true)
  rw [Device.remaining_of_off rfl, Device.remaining_of_idle hfree.1 hfree.2.1]

theorem Device.Lawful.boot {s : Device} {h : List Entry} (hi : s.Lawful h) (hfree : s.Free)
    (call : BootCall) (calls : List BootCall) (ok : Bool) :
    { s.bootCall ok call with boot := calls }.Lawful h := by
  obtain ⟨hpc, hq, hpost⟩ := hfree
  have hfields : ∀ t : Device, t = { s.bootCall ok call with boot := calls } →
      t.on = s.on ∧ t.retryNum = s.retryNum ∧ t.handler = .idle ∧ t.queue = [] ∧ t.post = none := by
    rintro t rfl
    cases call <;> exact ⟨rfl, rfl, hpc, hq, hpost⟩
  obtain ⟨hon, hnum, hpc', hq', hpost'⟩ := hfields _ rfl
  refine hi.keep (hnum.trans_le hi.bound) ?_ (fun ht => hon ▸ ht) ?_ (fun _ => .request hpc' hq')
  · rw [Device.remaining_of_idle hpc' hq', Device.remaining_of_idle hpc hq]
  · intro _
    rw [Device.target_of_free ⟨hpc', hq', hpost'⟩, Device.target_of_free ⟨hpc, hq, hpost⟩, hnum]

theorem Device.Lawful.driver {s : Device} {h : List Entry} (hi : s.Lawful h) (hon : s.on = true)
    (hfree : s.Free) (e : WifiEvent) :
    { s with queue := s.queue ++ [e] }.Lawful (⟨.wifi e, s.server, []⟩ :: h) := by
  obtain ⟨hpc, hq, hpost⟩ := id hfree
  have hcount := hi.target hon
  have hbound := hi.bound
  rw [Device.target_of_free hfree] at hcount
  have hwaiting : { s with queue := s.queue ++ [e] }.queue = [e] := by simp [hq]
  have hpending := Device.pending_of_waiting (s := { s with queue := s.queue ++ [e] }) hpc hwaiting
  have hnone : { s with queue := s.queue ++ [e] }.post = none := hpost
  refine hi.push (Device.remaining_of_idle hpc hq) hbound ?_ ?_ (.waiting hpost hpc e hwaiting)
  · rw [Device.remaining, if_pos hon, hpending, List.nil_append]
    cases e with
    | apStaConnected => rfl
    | apStaDisconnected => rfl
    | staGotIp creds => rfl
    | staDisconnected creds =>
      rw [sinceReset_disconnect rfl]
      simp only [Entry.law, HandlerPc.dispatch, HandlerPc.remaining]
      -- the counter is the number of disconnects before this one until the budget is used up
      by_cases hlt : sinceReset h < maxRetry
      · have hnum : s.retryNum = sinceReset h := by omega
        rw [hnum, if_pos hlt, if_pos (Nat.succ_le_of_lt hlt)]
      · rw [if_neg (by omega), if_neg (by omega)]
  · rw [Device.target_of_none hnone, hpending]
    cases e with
    | apStaConnected =>
      rw [sinceReset_other rfl rfl]
      exact hcount
    | apStaDisconnected =>
      rw [sinceReset_other rfl rfl]
      exact hcount
    | staGotIp creds =>
      rw [sinceReset_reset rfl]
      rfl
    | staDisconnected creds =>
      rw [sinceReset_disconnect rfl]
      simp only [HandlerPc.dispatch, HandlerPc.target]
      omega

theorem resetRetryNum_mem_iff (sdk : Sdk) (req : HttpdReq) :
    .resetRetryNum ∈ (wifiConfigPostHandler sdk req).calls ↔
      (wifiConfigPostHandler sdk req).configs ≠ [] := by
  constructor
  · intro hmem
    obtain ⟨size, cfg, hrun⟩ := wifiConfigPostHandler_accepted rfl hmem
    rw [hrun]
    simp [PostRun.configs]
  · intro hne
    obtain ⟨cfg, hcfg⟩ := List.exists_mem_of_ne_nil _ hne
    obtain ⟨size, cfg', hrun⟩ := wifiConfigPostHandler_accepted rfl (PostRun.mem_configs.mp hcfg)
    rw [hrun]
    simp

theorem Device.Lawful.request {s : Device} {h : List Entry} (hi : s.Lawful h)
    (hfree : s.Free) (sdk : Sdk) (req : HttpdReq) :
    { s with post := some (wifiConfigPostHandler sdk req) }.Lawful
      (Entry.note s (.request sdk req) h) := by
  obtain ⟨hpc, hq, _⟩ := id hfree
  have hdue : { s with post := some (wifiConfigPostHandler sdk req) }.resetDue =
      decide (.resetRetryNum ∈ (wifiConfigPostHandler sdk req).calls) := rfl
  by_cases hacc : (wifiConfigPostHandler sdk req).configs ≠ []
  · rw [Entry.note, if_pos hacc]
    have hrest : { s with post := some (wifiConfigPostHandler sdk req) }.remaining = [] :=
      Device.remaining_of_idle hpc hq
    refine hi.push (Device.remaining_of_idle hpc hq) hi.bound ?_ ?_ (.request hpc hq)
    · rw [hrest]
      rfl
    · rw [Device.target, hdue, decide_eq_true ((resetRetryNum_mem_iff sdk req).mpr hacc),
        sinceReset_reset rfl]
      rfl
  · rw [Entry.note, if_neg hacc]
    have hno : ¬.resetRetryNum ∈ (wifiConfigPostHandler sdk req).calls :=
      fun hmem => hacc ((resetRetryNum_mem_iff sdk req).mp hmem)
    refine hi.keep hi.bound rfl id (fun _ => ?_) (fun _ => .request hpc hq)
    rw [Device.target_of_none hfree.2.2, Device.target, hdue, decide_eq_false hno]
    rfl

theorem Device.postCall_idle {s t : Device} {call : PostCall} {calls : List PostCall} {exit : PostExit}
    (hpc : s.handler = .idle) (hq : s.queue = []) (hpost : s.post = some ⟨call :: calls, exit⟩)
    (ht : t = { s.postCall call with post := some ⟨calls, exit⟩ }) :
    t.on = s.on ∧ t.retryNum ≤ s.retryNum ∧ t.handler = .idle ∧ t.queue = [] ∧ t.target = s.target := by
  have hpc' : t.handler = .idle := by
    rw [ht]
    cases call <;> exact hpc
  have hq' : t.queue = [] := by
    rw [ht]
    cases call <;> exact hq
  have hpost' : t.post = some ⟨calls, exit⟩ := by rw [ht]
  have hnum : t.retryNum = if call = .resetRetryNum then 0 else s.retryNum := by
    rw [ht]
    cases call <;> rfl
  refine ⟨?_, ?_, hpc', hq', ?_⟩
  · rw [ht]
    cases call <;> rfl
  · rw [hnum]
    split <;> simp
  · rw [Device.target_of_idle hpc' hq', Device.target_of_idle hpc hq, Device.resetDue, Device.resetDue,
      hpost, hpost', hnum]
    by_cases hreset : call = .resetRetryNum
    · simp [hreset]
    · simp [hreset, Ne.symm hreset]

theorem Device.Lawful.httpd {s t : Device} {h : List Entry} (hi : s.Lawful h) (hon : s.on = true)
    (hs : httpdTask s = some t) : t.Lawful h := by
  have hidle : s.post ≠ none → s.handler = .idle ∧ s.queue = [] := by
    intro hne
    cases hi.oneAtATime hon with
    | request hpc hq => exact ⟨hpc, hq⟩
    | waiting hpost _ _ _ => exact absurd hpost hne
    | handling hpost _ => exact absurd hpost hne
  rcases httpdTask_cases hs with ⟨call, calls, exit, hpost, ht⟩ | ⟨exit, hpost, ht⟩
  · obtain ⟨hpc, hq⟩ := hidle (by simp [hpost])
    obtain ⟨hton, hbound, hpc', hq', htarget⟩ := Device.postCall_idle hpc hq hpost ht
    refine hi.keep (hbound.trans hi.bound) ?_ (fun h => hton ▸ h) (fun _ => htarget)
      (fun _ => .request hpc' hq')
    rw [Device.remaining_of_idle hpc' hq', Device.remaining_of_idle hpc hq]
  · obtain ⟨hpc, hq⟩ := hidle (by simp [hpost])
    subst ht
    refine hi.keep hi.bound rfl id (fun _ => ?_) (fun _ => .request hpc hq)
    rw [Device.target_of_idle hpc hq, Device.resetDue, hpost]
    exact Device.target_of_idle (s := { s with post := none }) hpc hq

theorem Device.Lawful.step {s t : Device} {a : DeviceAct} {h : List Entry} (hi : s.Lawful h)
    (hok : s.InTurn a) (hs : s.stepAny a = some t) : t.Lawful (Entry.note s a h) := by
  cases a with
  | powerOn after =>
    obtain ⟨hoff, rfl⟩ := by simpa [Device.stepAny, Device.step] using hs
    exact hi.powerOn hoff after
  | powerLoss =>
    obtain ⟨_, rfl⟩ := by simpa [Device.stepAny, Device.step] using hs
    exact hi.powerLoss hok
  | boot ok =>
    obtain ⟨call, calls, _, rfl⟩ := Device.step_boot hs
    exact hi.boot hok call calls ok
  | driver e =>
    obtain ⟨hon, rfl⟩ := by simpa [Device.stepAny] using hs
    exact hi.driver hon hok e
  | eventLoop =>
    obtain ⟨hon, hs⟩ := by simpa [Device.stepAny, Device.step] using hs
    exact hi.eventLoop hon hs
  | request sdk req =>
    obtain ⟨_, rfl⟩ := by simpa [Device.stepAny] using hs
    exact hi.request hok sdk req
  | httpd =>
    obtain ⟨hon, hs⟩ := by simpa [Device.stepAny, Device.step] using hs
    exact hi.httpd hon hs

/-! ## Progress -/

def HandlerPc.rank : HandlerPc → Nat
  | .idle => 0
  | .restart | .connect _ => 1
  | .restartDelay | .inDelay _ _ => 2
  | .serverTest | .delayRead _ => 3
  | .gotIpReset | .retryWrite _ _ => 4
  | .retryRead _ => 5
  | .retryTest _ => 6

def Device.work (s : Device) : Nat := s.handler.rank + 7 * s.queue.length

theorem HandlerPc.dispatch_rank (e : WifiEvent) : (HandlerPc.dispatch e).rank < 7 := by
  cases e <;> simp [HandlerPc.dispatch, HandlerPc.rank]

theorem Device.wifiEventHandler_progress {s : Device} (h : ¬s.Done) :
    ∃ t, s.stepAny .eventLoop = some t ∧ (t.Done ∨ t.work < s.work) := by
  have hon : s.on = true := by
    by_contra hoff
    exact h (.inl (by simpa using hoff))
  have hstep : s.stepAny .eventLoop = wifiEventHandler s := by simp [Device.stepAny, Device.step, hon]
  rw [hstep]
  unfold EspPassthrough.wifiEventHandler
  cases hpc : s.handler with
  | idle =>
    cases hq : s.queue with
    | nil => exact absurd (.inr ⟨hpc, hq⟩) h
    | cons e queue =>
      have hrank := HandlerPc.dispatch_rank e
      refine ⟨_, rfl, .inr ?_⟩
      have hidle : HandlerPc.idle.rank = 0 := rfl
      rw [Device.work, Device.work, hpc, hq, List.length_cons, hidle]
      dsimp only
      omega
  | restart => exact ⟨_, rfl, .inl (.inl rfl)⟩
  | serverTest =>
    refine ⟨_, rfl, .inr ?_⟩
    rw [Device.work, Device.work, hpc]
    cases s.server <;> simp [HandlerPc.rank]
  | retryTest creds =>
    refine ⟨_, rfl, .inr ?_⟩
    rw [Device.work, Device.work, hpc]
    dsimp only
    split <;> simp [HandlerPc.rank]
  | _ =>
    refine ⟨_, rfl, .inr ?_⟩
    rw [Device.work, Device.work, hpc]
    simp [HandlerPc.rank, Device.espWifiConnect]

/-- In every life of the device the counter stays within its bounds, and each event,
once the event loop has worked it off, as it always can, has led to the calls of the
law and no others. -/
theorem retry_law {nvs : WifiStaConfig} {s : Device} {h : List Entry} {as : List DeviceAct}
    (hrun : Machine.run (Machine.monitored Device.stepAny Entry.note) (.off nvs, []) as = some (s, h))
    (hturn : Machine.Meets Device.stepAny Device.InTurn (.off nvs) as) :
    s.retryNum ≤ maxRetry ∧
      (∀ e before, e :: before <:+ h → e.calls <+: e.law (sinceReset (e :: before)) ∧
        ((e :: before = h → s.Done) → e.calls = e.law (sinceReset (e :: before)))) ∧
      ∃ n t, Machine.run Device.stepAny s (List.replicate n .eventLoop) = some t ∧ t.Done := by
  have hstep : ∀ u a v z, Device.Lawful u z → u.InTurn a → u.stepAny a = some v →
      v.Lawful (Entry.note u a z) := by
    intro u a v z hi ha hs
    exact hi.step ha hs
  have hi : s.Lawful h := Machine.invariant_of_monitored hstep (Device.off_lawful nvs) hrun hturn
  refine ⟨hi.bound, ?_,
    Machine.exists_replicate_run Device.work (fun _ => Device.wifiEventHandler_progress) s⟩
  intro e before hsuffix
  by_cases hnewest : e :: before = h
  · have hcalls := hi.current e before hnewest.symm
    refine ⟨⟨s.remaining, hcalls⟩, fun hdone => ?_⟩
    exact hi.all (Device.remaining_of_done (hdone hnewest)) hsuffix
  · cases h with
    | nil => simp at hsuffix
    | cons d h =>
      rcases List.suffix_cons_iff.mp hsuffix with heq | hsuffix
      · exact absurd heq hnewest
      · have hcalls := hi.past e before hsuffix
        exact ⟨hcalls ▸ List.prefix_refl _, fun _ => hcalls⟩

theorem Device.stepAny_of_step {s t : Device} {a : DeviceAct} (h : s.step a = some t) :
    s.stepAny a = some t := by
  cases a with
  | driver e =>
    obtain ⟨⟨hon, _⟩, rfl⟩ := by simpa [Device.step] using h
    rw [Device.stepAny, if_pos hon]
  | request sdk req =>
    obtain ⟨⟨hon, _, hpost⟩, rfl⟩ := by simpa [Device.step] using h
    rw [Device.stepAny, if_pos ⟨hon, hpost⟩]
  | _ => exact h

theorem Device.run_stepAny {s t : Device} {as : List DeviceAct}
    (h : Machine.run Device.step s as = some t) : Machine.run Device.stepAny s as = some t :=
  Machine.run_mono (fun _ _ _ => Device.stepAny_of_step) h

/-- Six disconnects, a station on the access point, a new configuration, one more
disconnect, an address, and the restart. -/
def eventfulLife : List DeviceAct :=
  bootSoftAp ++ (List.replicate 5 (failAndRetry 0)).flatten ++
    [.driver (.staDisconnected 0), .eventLoop, .eventLoop, .driver .apStaConnected, .eventLoop] ++
    postForm (ascii "right") ++ failAndRetry 1 ++
    .driver (.staGotIp 1) :: List.replicate 5 .eventLoop ++ [.powerOn []]

theorem retry_law_eventful :
    ∃ s h, Machine.run (Machine.monitored Device.stepAny Entry.note) (.off emptyNvs, []) eventfulLife =
        some (s, h) ∧ s.retryNum ≤ maxRetry ∧ h.length = 12 ∧
      ∀ e before, e :: before <:+ h → e.calls = e.law (sinceReset (e :: before)) := by
  have h : (Machine.run (Machine.monitored Device.stepAny Entry.note) (.off emptyNvs, [])
      eventfulLife).map (fun r => (decide r.1.Done, r.2.length)) = some (true, 12) := by decide +kernel
  obtain ⟨⟨s, h⟩, hrun, he⟩ := Option.map_eq_some_iff.mp h
  obtain ⟨hdone, hlen⟩ := Prod.mk.inj he
  obtain ⟨hbound, hlaw, _⟩ := retry_law hrun (by decide +kernel)
  refine ⟨s, h, hrun, hbound, hlen, fun e before hsuffix => ?_⟩
  exact (hlaw e before hsuffix).2 fun _ => of_decide_eq_true hdone

end EspPassthrough
