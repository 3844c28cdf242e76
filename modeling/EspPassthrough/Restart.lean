import EspPassthrough.Reconnects

/-! An address got while the web server runs restarts the device, whatever stands in the
queue before it and whatever comes after it. -/

namespace EspPassthrough

open CText

def WifiEvent.isGotIp : WifiEvent → Bool
  | .staGotIp _ => true
  | _ => false

def DeviceAct.ofPower : DeviceAct → Bool
  | .powerOn _ | .powerLoss => true
  | _ => false

def HandlerPc.restarts : HandlerPc → Bool
  | .gotIpReset | .serverTest | .restartDelay | .restart => true
  | _ => false

/-- A bound on the steps that the handler has left with its event. -/
def HandlerPc.stepsLeft : HandlerPc → Nat
  | .idle => 0
  | .connect _ | .restart => 1
  | .inDelay _ _ | .restartDelay => 2
  | .delayRead _ | .serverTest => 3
  | .retryWrite _ _ | .gotIpReset => 4
  | .retryRead _ => 5
  | .retryTest _ => 6

def HandlerPc.waitLeft : HandlerPc → Nat
  | .idle | .connect _ | .restart => 0
  | .inDelay _ ms => ms
  | .delayRead _ | .retryWrite _ _ | .retryRead _ | .retryTest _ => 7500
  | .gotIpReset | .serverTest | .restartDelay => 1000

def Device.eventsAhead (s : Device) : Nat := s.queue.findIdx WifiEvent.isGotIp

def Device.stepsLeft (s : Device) : Nat :=
  if s.on then s.handler.stepsLeft + (if s.handler.restarts then 0 else 7 * s.eventsAhead + 5) else 0

def Device.waitLeft (s : Device) : Nat :=
  if s.on then s.handler.waitLeft + (if s.handler.restarts then 0 else 7500 * s.eventsAhead + 1000)
  else 0

def Device.loopSteps (_ : Device) : DeviceAct → Nat
  | .eventLoop => 1
  | _ => 0

/-- What a step of the event loop sleeps. -/
def Device.loopWaits (s : Device) : DeviceAct → Nat
  | .eventLoop =>
    match s.handler with
    | .inDelay _ ms => ms
    | .restartDelay => 1000
    | _ => 0
  | _ => 0

/-! ## The web server is started once -/

structure Device.BootsOnce (s : Device) : Prop where
  once : s.boot.count .startWebserver ≤ 1
  before : .startWebserver ∈ s.boot → s.server = false

theorem Device.BootsOnce.keep {s t : Device} (hi : s.BootsOnce) (hboot : t.boot = s.boot)
    (hserver : t.server = s.server) : t.BootsOnce := by
  refine ⟨?_, ?_⟩
  · rw [hboot]
    exact hi.once
  · rw [hboot, hserver]
    exact hi.before

theorem wifiInitSoftapSta_starts_once (cfg : WifiStaConfig) (after : List UInt8) :
    (wifiInitSoftapSta cfg after).count .startWebserver ≤ 1 := by
  rw [wifiInitSoftapSta]
  split
  · simp
  · simp

theorem Device.BootsOnce.bootCall {s : Device} (hi : s.BootsOnce) {call : BootCall}
    {calls : List BootCall} (hb : s.boot = call :: calls) (ok : Bool) :
    Device.BootsOnce { s.bootCall ok call with boot := calls } := by
  obtain ⟨honce, hbefore⟩ := hi
  rw [hb] at honce hbefore
  refine ⟨(List.count_le_count_cons).trans honce, fun hmem => ?_⟩
  have hoff := hbefore (List.mem_cons_of_mem call hmem)
  cases call with
  | startWebserver =>
    have hpos : 0 < calls.count .startWebserver := List.count_pos_iff.mpr hmem
    rw [List.count_cons_self] at honce
    omega
  | _ => exact hoff

theorem Device.BootsOnce.step {s t : Device} {a : DeviceAct} (hi : s.BootsOnce)
    (hs : s.step a = some t) : t.BootsOnce := by
  cases a with
  | powerOn after =>
    obtain ⟨_, rfl⟩ := by simpa [Device.step] using hs
    exact ⟨wifiInitSoftapSta_starts_once s.nvs after, fun _ => rfl⟩
  | powerLoss =>
    obtain ⟨_, rfl⟩ := by simpa [Device.step] using hs
    exact hi.keep rfl rfl
  | boot ok =>
    obtain ⟨call, calls, hb, rfl⟩ := Device.step_boot hs
    exact hi.bootCall hb ok
  | driver e =>
    obtain ⟨_, rfl⟩ := by simpa [Device.step] using hs
    exact hi.keep rfl rfl
  | eventLoop =>
    obtain ⟨_, hs⟩ := by simpa [Device.step] using hs
    cases wifiEventHandler_step hs with
    | _ => exact hi.keep rfl rfl
  | request sdk req =>
    obtain ⟨_, rfl⟩ := by simpa [Device.step] using hs
    exact hi.keep rfl rfl
  | httpd =>
    obtain ⟨_, hs⟩ := by simpa [Device.step] using hs
    rcases httpdTask_cases hs with ⟨call, calls, exit, _, rfl⟩ | ⟨exit, _, rfl⟩
    · cases call with
      | _ => exact hi.keep rfl rfl
    · exact hi.keep rfl rfl

/-! ## The way to the restart -/

def Device.HasIp (s : Device) : Prop :=
  s.handler.restarts = true ∨ s.queue.any WifiEvent.isGotIp = true

structure Device.WillRestart (s : Device) : Prop where
  paced : ∃ h, s.Paced h
  boots : s.BootsOnce
  server : s.on = true → s.server = true
  coming : s.on = true → s.HasIp

structure Device.Advances (s : Device) (a : DeviceAct) (t : Device) : Prop where
  server : t.on = true → t.server = true
  coming : t.on = true → t.HasIp
  steps : s.loopSteps a + t.stepsLeft ≤ s.stepsLeft
  waits : s.loopWaits a + t.waitLeft ≤ s.waitLeft

theorem Device.stepsLeft_on {s : Device} (h : s.on = true) :
    s.stepsLeft = s.handler.stepsLeft + (if s.handler.restarts then 0 else 7 * s.eventsAhead + 5) :=
  if_pos h

theorem Device.waitLeft_on {s : Device} (h : s.on = true) :
    s.waitLeft = s.handler.waitLeft + (if s.handler.restarts then 0 else 7500 * s.eventsAhead + 1000) :=
  if_pos h

/-- A step of another task, which leaves the handler and the events before the address alone. -/
theorem Device.Advances.idle {s t : Device} {a : DeviceAct} (hon : s.on = true) (ha : a ≠ .eventLoop)
    (hon' : t.on = s.on) (hserver : t.server = true) (hpc : t.handler = s.handler)
    (hip : t.HasIp) (hahead : s.handler.restarts = false → t.eventsAhead = s.eventsAhead) :
    s.Advances a t := by
  have hcost : s.loopSteps a = 0 ∧ s.loopWaits a = 0 := by
    cases a with
    | eventLoop => exact absurd rfl ha
    | _ => exact ⟨rfl, rfl⟩
  refine ⟨fun _ => hserver, fun _ => hip, ?_, ?_⟩
  · rw [hcost.1, s.stepsLeft_on hon, t.stepsLeft_on (hon'.trans hon), hpc]
    by_cases hr : s.handler.restarts = true
    · simp [hr]
    · simp [hahead (by simpa using hr)]
  · rw [hcost.2, s.waitLeft_on hon, t.waitLeft_on (hon'.trans hon), hpc]
    by_cases hr : s.handler.restarts = true
    · simp [hr]
    · simp [hahead (by simpa using hr)]

theorem Device.Advances.work {s t : Device} (hon : s.on = true) (hip : s.HasIp)
    (hserver : t.server = true) (hon' : t.on = true) (hqueue : t.queue = s.queue)
    (hpc : t.handler.restarts = s.handler.restarts)
    (hsteps : t.handler.stepsLeft < s.handler.stepsLeft)
    (hwaits : s.loopWaits .eventLoop + t.handler.waitLeft ≤ s.handler.waitLeft) :
    s.Advances .eventLoop t := by
  have hahead : t.eventsAhead = s.eventsAhead := by rw [Device.eventsAhead, hqueue, Device.eventsAhead]
  refine ⟨fun _ => hserver, fun _ => ?_, ?_, ?_⟩
  · rw [Device.HasIp, hpc, hqueue]
    exact hip
  · rw [s.stepsLeft_on hon, t.stepsLeft_on hon', hpc, hahead, Device.loopSteps]
    omega
  · rw [s.waitLeft_on hon, t.waitLeft_on hon', hpc, hahead]
    omega

theorem Device.WillRestart.dispatch {s : Device} (hi : s.WillRestart) (hon : s.on = true)
    (hpc : s.handler = .idle) {e : WifiEvent} {queue : List WifiEvent} (hq : s.queue = e :: queue) :
    s.Advances .eventLoop { s with queue, handler := .dispatch e } := by
  have hserver := hi.server hon
  have hany : (e :: queue).any WifiEvent.isGotIp = true := by
    have hip := hi.coming hon
    rw [Device.HasIp, hpc, hq] at hip
    exact hip.resolve_left Bool.false_ne_true
  have hwait : s.loopWaits .eventLoop = 0 := by rw [Device.loopWaits, hpc]
  have hahead : s.eventsAhead = if e.isGotIp then 0 else queue.findIdx WifiEvent.isGotIp + 1 := by
    rw [Device.eventsAhead, hq, List.findIdx_cons]
    cases e.isGotIp <;> rfl
  have hsteps : s.stepsLeft = 7 * s.eventsAhead + 5 := by
    rw [s.stepsLeft_on hon, hpc]
    simp [HandlerPc.stepsLeft, HandlerPc.restarts]
  have hwaits : s.waitLeft = 7500 * s.eventsAhead + 1000 := by
    rw [s.waitLeft_on hon, hpc]
    simp [HandlerPc.waitLeft, HandlerPc.restarts]
  have hsteps' := @Device.stepsLeft_on { s with queue, handler := .dispatch e } hon
  have hwaits' := @Device.waitLeft_on { s with queue, handler := .dispatch e } hon
  rw [List.any_cons] at hany
  cases e with
  | staGotIp creds =>
    refine ⟨fun _ => hserver, fun _ => .inl rfl, ?_, ?_⟩
    · rw [hsteps, hsteps']
      exact Nat.le_add_left 5 _
    · rw [hwait, hwaits, hwaits']
      simp [HandlerPc.dispatch, HandlerPc.waitLeft, HandlerPc.restarts]
  | apStaConnected | apStaDisconnected | staDisconnected =>
    refine ⟨fun _ => hserver, fun _ => .inr hany, ?_, ?_⟩
    · rw [hsteps, hahead, hsteps']
      simp only [Device.loopSteps, Device.eventsAhead, HandlerPc.dispatch, HandlerPc.stepsLeft,
        HandlerPc.restarts, WifiEvent.isGotIp, Bool.false_eq_true, if_false]
      omega
    · rw [hwait, hwaits, hahead, hwaits']
      simp only [Device.eventsAhead, HandlerPc.dispatch, HandlerPc.waitLeft, HandlerPc.restarts,
        WifiEvent.isGotIp, Bool.false_eq_true, if_false]
      omega

theorem Device.WillRestart.handles {s t : Device} (hi : s.WillRestart) (hon : s.on = true)
    (hs : wifiEventHandler s = some t) : s.Advances .eventLoop t := by
  have hserver := hi.server hon
  have hip := hi.coming hon
  obtain ⟨h, hpaced⟩ := hi.paced
  cases wifiEventHandler_step hs with
  | dispatch hpc hq => exact hi.dispatch hon hpc hq
  | restart hpc =>
    refine ⟨fun hon' => ?_, fun hon' => ?_, ?_, ?_⟩
    · cases hon'
    · cases hon'
    · rw [s.stepsLeft_on hon, hpc]
      exact Nat.le_refl 1
    · rw [Device.loopWaits, hpc]
      exact Nat.zero_le _
  | serverTest hpc =>
    refine .work hon hip hserver hon rfl ?_ ?_ ?_
    · simp [hpc, hserver, HandlerPc.restarts]
    · simp [hpc, hserver, HandlerPc.stepsLeft]
    · simp [hpc, hserver, Device.loopWaits, HandlerPc.waitLeft]
  | @retryTest creds hpc =>
    by_cases hlt : s.retryNum < maxRetry
    · rw [if_pos hlt]
      refine .work hon hip hserver hon rfl ?_ ?_ ?_
      · rw [hpc]
        rfl
      · rw [hpc]
        exact Nat.lt_succ_self 5
      · rw [hpc, Device.loopWaits, hpc]
        exact Nat.le_refl 7500
    · rw [if_neg hlt]
      refine .work hon hip hserver hon rfl ?_ ?_ ?_
      · rw [hpc]
        rfl
      · rw [hpc]
        exact Nat.succ_pos 5
      · rw [hpc, Device.loopWaits, hpc]
        exact Nat.zero_le 7500
  | delayRead hpc =>
    have hmax : s.retryNum ≤ 5 := hpaced.le_max
    refine .work hon hip hserver hon rfl ?_ ?_ ?_
    · rw [hpc]
      rfl
    · rw [hpc]
      exact Nat.lt_succ_self 2
    · simp only [hpc, Device.loopWaits, HandlerPc.waitLeft]
      omega
  | gotIpReset hpc | restartDelay hpc | retryRead hpc | retryWrite hpc | inDelay hpc | connect hpc =>
    refine .work hon hip hserver hon rfl ?_ ?_ ?_
    all_goals simp [hpc, Device.loopWaits, HandlerPc.restarts, HandlerPc.stepsLeft, HandlerPc.waitLeft]

theorem Device.HasIp.append {s t : Device} (h : s.HasIp) (hpc : t.handler = s.handler)
    {es : List WifiEvent} (hq : t.queue = s.queue ++ es) :
    t.HasIp ∧ (s.handler.restarts = false → t.eventsAhead = s.eventsAhead) := by
  constructor
  · rw [Device.HasIp, hpc, hq, List.any_append]
    exact h.imp_right fun hany => by simp [hany]
  · intro hr
    have hany := h.resolve_left (by simp [hr])
    have hlt : s.queue.findIdx WifiEvent.isGotIp < s.queue.length := by
      rw [List.findIdx_lt_length]
      simpa using hany
    rw [Device.eventsAhead, hq, List.findIdx_append, if_pos hlt, Device.eventsAhead]

theorem Device.WillRestart.advances {s t : Device} {a : DeviceAct} (hi : s.WillRestart)
    (ha : a.ofPower = false) (hs : s.step a = some t) : s.Advances a t := by
  have hkeep : ∀ {t : Device}, s.on = true → a ≠ .eventLoop → t.on = s.on → t.server = s.server →
      t.handler = s.handler → (∃ es, t.queue = s.queue ++ es) → s.Advances a t := by
    rintro t hon hloop hon' hserver hpc ⟨es, hq⟩
    obtain ⟨hip, hahead⟩ := (hi.coming hon).append hpc hq
    exact .idle hon hloop hon' (hserver.trans (hi.server hon)) hpc hip hahead
  cases a with
  | powerOn | powerLoss => cases ha
  | boot ok =>
    obtain ⟨call, calls, hb, rfl⟩ := Device.step_boot hs
    have hon : s.on = true := by
      by_contra hoff
      simp [Device.step, hoff] at hs
    cases call with
    | startWebserver =>
      have hoff := hi.boots.before (by simp [hb])
      rw [hi.server hon] at hoff
      cases hoff
    | _ => exact hkeep hon (by simp) rfl rfl rfl ⟨[], by simp [Device.bootCall, Device.espWifiConnect]⟩
  | driver e =>
    obtain ⟨⟨hon, _⟩, rfl⟩ := by simpa [Device.step] using hs
    exact hkeep hon (by simp) rfl rfl rfl ⟨[e], rfl⟩
  | eventLoop =>
    obtain ⟨hon, hs⟩ := by simpa [Device.step] using hs
    exact hi.handles hon hs
  | request sdk req =>
    obtain ⟨⟨hon, _⟩, rfl⟩ := by simpa [Device.step] using hs
    exact hkeep hon (by simp) rfl rfl rfl ⟨[], by simp⟩
  | httpd =>
    obtain ⟨hon, hs⟩ := by simpa [Device.step] using hs
    rcases httpdTask_cases hs with ⟨call, calls, exit, _, rfl⟩ | ⟨exit, _, rfl⟩
    · cases call with
      | _ => exact hkeep hon (by simp) rfl rfl rfl ⟨[], by simp [Device.postCall, Device.espWifiConnect]⟩
    · exact hkeep hon (by simp) rfl rfl rfl ⟨[], by simp⟩

theorem Device.WillRestart.step {s t : Device} {a : DeviceAct} (hi : s.WillRestart)
    (ha : a.ofPower = false) (hs : s.step a = some t) : t.WillRestart := by
  obtain ⟨h, hpaced⟩ := hi.paced
  have hadv := hi.advances ha hs
  exact ⟨⟨_, hpaced.step hs⟩, hi.boots.step hs, hadv.server, hadv.coming⟩

theorem Device.WillRestart.enabled {s : Device} (hi : s.WillRestart) (hon : s.on = true) :
    ∃ t, s.step .eventLoop = some t := by
  rw [Device.step, if_pos hon]
  cases hpc : s.handler with
  | idle =>
    have hip := hi.coming hon
    rw [Device.HasIp, hpc] at hip
    cases hq : s.queue with
    | nil => simp [hq, HandlerPc.restarts] at hip
    | cons e queue => exact ⟨{ s with queue, handler := .dispatch e }, by simp [wifiEventHandler, hpc, hq]⟩
  | _ => simp [wifiEventHandler, hpc]

theorem Device.stepsLeft_pos {s : Device} (hon : s.on = true) : 0 < s.stepsLeft := by
  rw [s.stepsLeft_on hon]
  by_cases hr : s.handler.restarts = true
  · have hpos : 0 < s.handler.stepsLeft := by
      revert hr
      cases s.handler <;> simp [HandlerPc.restarts, HandlerPc.stepsLeft]
    omega
  · rw [if_neg hr]
    omega

theorem willRestart_of_run {nvs : WifiStaConfig} {s : Device} {as : List DeviceAct}
    (hrun : Machine.run Device.step (.off nvs) as = some s) (hserver : s.server = true)
    (hip : s.HasIp) : s.WillRestart := by
  have hoff : (∃ h, (Device.off nvs).Paced h) ∧ (Device.off nvs).BootsOnce :=
    ⟨⟨.none, .fresh rfl rfl⟩, ⟨by simp [Device.off], fun _ => rfl⟩⟩
  have hstep : ∀ (u : Device) a v, (∃ h, u.Paced h) ∧ u.BootsOnce → True → u.step a = some v →
      (∃ h, v.Paced h) ∧ v.BootsOnce := by
    rintro u a v ⟨⟨h, hpaced⟩, hboots⟩ _ hv
    exact ⟨⟨_, hpaced.step hv⟩, hboots.step hv⟩
  obtain ⟨hpaced, hboots⟩ := Machine.invariant_of_meets hstep hoff hrun
    (Machine.meets_of_forall (fun _ _ => trivial) _ _)
  exact ⟨hpaced, hboots, fun _ => hserver, fun _ => hip⟩

theorem Device.WillRestart.left_le {s : Device} (hi : s.WillRestart) {n : Nat}
    (hahead : s.eventsAhead ≤ n) : s.stepsLeft ≤ 7 * n + 11 ∧ s.waitLeft ≤ 7500 * (n + 1) + 1000 := by
  obtain ⟨h, hpaced⟩ := hi.paced
  have hsteps : s.handler.stepsLeft ≤ 6 := by
    cases s.handler <;> simp [HandlerPc.stepsLeft]
  have hwait : s.handler.waitLeft ≤ 7500 := by
    cases hpc : s.handler with
    | inDelay c ms =>
      obtain ⟨k, hk, rfl⟩ := hpaced.delay c ms hpc
      exact Nat.mul_le_mul_right 1500 hk
    | _ => simp [HandlerPc.waitLeft]
  by_cases hon : s.on = true
  · rw [s.stepsLeft_on hon, s.waitLeft_on hon]
    by_cases hr : s.handler.restarts = true
    · rw [if_pos hr, if_pos hr]
      omega
    · rw [if_neg hr, if_neg hr]
      omega
  · rw [Device.stepsLeft, Device.waitLeft, if_neg hon, if_neg hon]
    omega

/-- Once an address has come while the web server runs, the event loop takes at most seven
steps and sleeps at most 7.5 s for each event ahead of it and for the one in hand, and then
a second for the restart. Whatever the driver, the page's users and the start-up do in the
meantime, it never has to wait for them. -/
theorem got_ip_restarts {nvs : WifiStaConfig} {s t : Device} {as bs : List DeviceAct} {c : Nat}
    {ahead behind : List WifiEvent} (hstart : Machine.run Device.step (.off nvs) as = some s)
    (hserver : s.server = true) (hq : s.queue = ahead ++ .staGotIp c :: behind)
    (hrun : Machine.run Device.step s bs = some t) (hpower : ∀ a ∈ bs, a.ofPower = false) :
    Machine.total Device.step Device.loopSteps s bs ≤ 7 * ahead.length + 11 ∧
      Machine.total Device.step Device.loopWaits s bs ≤ 7500 * (ahead.length + 1) + 1000 ∧
      (t.on = true → Machine.total Device.step Device.loopSteps s bs < 7 * ahead.length + 11 ∧
        ∃ u, t.step .eventLoop = some u) := by
  have hi := willRestart_of_run hstart hserver (.inr (by simp [hq, WifiEvent.isGotIp]))
  have hahead : s.eventsAhead ≤ ahead.length := by
    rw [Device.eventsAhead, hq, List.findIdx_append]
    split
    case isTrue hlt => exact hlt.le
    case isFalse => simp [List.findIdx_cons, WifiEvent.isGotIp]
  obtain ⟨hsteps_le, hwaits_le⟩ := hi.left_le hahead
  have hok : Machine.Meets Device.step (fun _ a => a.ofPower = false) s bs :=
    Machine.meets_of_forall_mem (fun a ha _ => hpower a ha) s
  have hbound : ∀ (cost : Device → DeviceAct → Nat) (potential : Device → Nat),
      (∀ u a v, Device.Advances u a v → cost u a + potential v ≤ potential u) →
      t.WillRestart ∧ Machine.total Device.step cost s bs + potential t ≤ potential s :=
    fun _ _ hle => Machine.total_add_le
      (fun u a v hu ha hv => ⟨Device.WillRestart.step hu ha hv, hle u a v (hu.advances ha hv)⟩) hi hrun hok
  obtain ⟨hend, hsteps⟩ := hbound Device.loopSteps Device.stepsLeft fun _ _ _ hadv => hadv.steps
  obtain ⟨_, hwaits⟩ := hbound Device.loopWaits Device.waitLeft fun _ _ _ hadv => hadv.waits
  refine ⟨by omega, by omega, fun hon => ⟨?_, hend.enabled hon⟩⟩
  have hpos := t.stepsLeft_pos hon
  omega

/-- The disconnect of a wrong password is still queued when the next one has got an address. -/
def secondAttempt : List DeviceAct :=
  bootSoftAp ++ postForm (ascii "wrong") ++ [.driver (.staDisconnected 1)] ++
    postForm (ascii "right") ++ [.driver (.staGotIp 2)]

theorem got_ip_restarts_second :
    ∃ s t u, Machine.run Device.step (.off emptyNvs) secondAttempt = some s ∧ s.server = true ∧
      s.queue = [.staDisconnected 1, .staGotIp 2] ∧
      Machine.run Device.step s (List.replicate 11 .eventLoop) = some t ∧
      Machine.total Device.step Device.loopWaits s (List.replicate 11 .eventLoop) ≤ 16000 ∧
      t.step .eventLoop = some u ∧ u.on = false := by
  have h : ((Machine.run Device.step (.off emptyNvs) secondAttempt).bind fun s =>
      (Machine.run Device.step s (List.replicate 11 .eventLoop)).bind fun t =>
        (t.step .eventLoop).map fun u => decide (s.server = true ∧
          s.queue = [.staDisconnected 1, .staGotIp 2] ∧ u.on = false)) = some true := by decide +kernel
  obtain ⟨s, hstart, h⟩ := Option.bind_eq_some_iff.mp h
  obtain ⟨t, hrun, h⟩ := Option.bind_eq_some_iff.mp h
  obtain ⟨u, hu, h⟩ := Option.map_eq_some_iff.mp h
  obtain ⟨hserver, hq, hoff⟩ := of_decide_eq_true h
  obtain ⟨_, hwaits, _⟩ := @got_ip_restarts _ _ _ _ _ 2 [.staDisconnected 1] [] hstart hserver hq hrun
    (by simp [DeviceAct.ofPower])
  exact ⟨s, t, u, hstart, hserver, hq, hrun, hwaits, hu, hoff⟩

end EspPassthrough
