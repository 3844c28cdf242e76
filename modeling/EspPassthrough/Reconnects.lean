import EspPassthrough.RetryBudget

/-! How hard the device tries to reconnect, in every interleaving of the event loop with
the web server's task: a bound by the number of times the retry counter is set to zero. -/

namespace EspPassthrough

open CText

/-- Since the last power-on: how often the retry counter was set to zero, how often the
event handler has called `esp_wifi_connect`, and how long it has waited before doing so. -/
structure Effort where
  resets : Nat
  connects : Nat
  waited : Nat
  deriving DecidableEq

def Effort.none : Effort := ⟨0, 0, 0⟩

def Effort.note (s : Device) : DeviceAct → Effort → Effort
  | .powerOn _, _ => .none
  | .eventLoop, h =>
    match s.handler with
    | .gotIpReset => { h with resets := h.resets + 1 }
    | .inDelay _ ms => { h with waited := h.waited + ms }
    | .connect _ => { h with connects := h.connects + 1 }
    | _ => h
  | .httpd, h =>
    match s.post with
    | some ⟨.resetRetryNum :: _, _⟩ => { h with resets := h.resets + 1 }
    | _ => h
  | _, h => h

/-- The waiting before the first `n` retries. -/
def backoff (n : Nat) : Nat := 750 * (n * (n + 1))

theorem backoff_succ (n : Nat) : backoff (n + 1) = backoff n + (n + 1) * 1500 := by
  simp only [backoff]
  ring

theorem backoff_mono {m n : Nat} (h : m ≤ n) : backoff m ≤ backoff n :=
  Nat.mul_le_mul_left _ (Nat.mul_le_mul h (Nat.succ_le_succ h))

/-- The count that the retries made so far are measured against. Between the read and the
write of `s_retry_num++` it can be the one read or, after a reset, the one in memory. -/
def HandlerPc.base (retryNum : Nat) : HandlerPc → Nat
  | .retryWrite _ read => min retryNum read
  | _ => retryNum

/-- A retry that is counted but not yet made. -/
def HandlerPc.owed : HandlerPc → Nat
  | .delayRead _ | .inDelay _ _ | .connect _ => 1
  | _ => 0

def HandlerPc.wait (retryNum : Nat) : HandlerPc → Nat
  | .delayRead _ => retryNum * 1500
  | .inDelay _ ms => ms
  | _ => 0

structure Device.Paced (s : Device) (h : Effort) : Prop where
  le_max : s.retryNum ≤ maxRetry
  read : ∀ c, s.handler = .retryRead c → s.retryNum < maxRetry
  write : ∀ c n, s.handler = .retryWrite c n → n < maxRetry
  delay : ∀ c ms, s.handler = .inDelay c ms → ∃ n ≤ maxRetry, ms = n * 1500
  connects : h.connects + s.handler.owed ≤ maxRetry * h.resets + s.handler.base s.retryNum
  waited : h.waited + s.handler.wait s.retryNum ≤
    backoff maxRetry * h.resets + backoff (s.handler.base s.retryNum)

theorem HandlerPc.base_le (n : Nat) (pc : HandlerPc) : pc.base n ≤ n := by
  cases pc with
  | retryWrite c read => exact min_le_left n read
  | _ => exact le_rfl

theorem HandlerPc.base_zero (pc : HandlerPc) : pc.base 0 = 0 := Nat.le_zero.mp (pc.base_le 0)

theorem HandlerPc.wait_zero_le (n : Nat) (pc : HandlerPc) : pc.wait 0 ≤ pc.wait n := by
  cases pc with
  | delayRead c => simp [HandlerPc.wait]
  | _ => exact le_rfl

theorem Device.Paced.fresh {s : Device} (hpc : s.handler = .idle) (hn : s.retryNum = 0) :
    s.Paced .none where
  le_max := hn ▸ Nat.zero_le _
  read := by simp [hpc]
  write := by simp [hpc]
  delay := by simp [hpc]
  connects := by simp [hpc, Effort.none, HandlerPc.owed]
  waited := by simp [hpc, Effort.none, HandlerPc.wait]

theorem Device.Paced.keep {s t : Device} {h : Effort} (hi : s.Paced h) (hpc : t.handler = s.handler)
    (hn : t.retryNum = s.retryNum) : t.Paced h := by
  obtain ⟨hmax, hread, hwrite, hdelay, hconnects, hwaited⟩ := hi
  rw [← hpc, ← hn] at hconnects hwaited
  rw [← hpc] at hread hwrite hdelay
  rw [← hn] at hmax hread
  exact ⟨hmax, hread, hwrite, hdelay, hconnects, hwaited⟩

/-- Between two counted retries nothing is owed and only the counter matters. -/
theorem Device.Paced.rest {s t : Device} {h : Effort} (hi : s.Paced h) (hn : t.retryNum = s.retryNum)
    (hbase : s.handler.base s.retryNum = s.retryNum) (hpc : ∀ n, t.handler.base n = n)
    (howed : t.handler.owed = 0) (hwait : ∀ n, t.handler.wait n = 0)
    (hread : ∀ c, t.handler = .retryRead c → t.retryNum < maxRetry)
    (hwrite : ∀ c n, t.handler ≠ .retryWrite c n) (hdelay : ∀ c ms, t.handler ≠ .inDelay c ms) :
    t.Paced h where
  le_max := hn ▸ hi.le_max
  read := hread
  write := fun c n hw => absurd hw (hwrite c n)
  delay := fun c ms hd => absurd hd (hdelay c ms)
  connects := by
    have hle := hi.connects
    rw [howed, hpc, hn]
    rw [hbase] at hle
    omega
  waited := by
    have hle := hi.waited
    rw [hwait, hpc, hn]
    rw [hbase] at hle
    omega

/-- Setting the counter to zero adds five retries to what is allowed. -/
theorem Device.Paced.reset {s t : Device} {h : Effort} (hi : s.Paced h) (hn : t.retryNum = 0)
    (hpc : t.handler = s.handler) : t.Paced { h with resets := h.resets + 1 } where
  le_max := hn ▸ Nat.zero_le _
  read := fun _ _ => hn ▸ Nat.succ_pos _
  write := by
    rw [hpc]
    exact hi.write
  delay := by
    rw [hpc]
    exact hi.delay
  connects := by
    have hle := hi.connects
    have hbase := (s.handler.base_le s.retryNum).trans hi.le_max
    rw [hpc, hn, HandlerPc.base_zero, Nat.mul_succ]
    show h.connects + s.handler.owed ≤ _
    omega
  waited := by
    have hle := hi.waited
    have hbase := backoff_mono ((s.handler.base_le s.retryNum).trans hi.le_max)
    have hwait := s.handler.wait_zero_le s.retryNum
    rw [hpc, hn, Nat.mul_succ]
    show h.waited + s.handler.wait 0 ≤ _
    omega

theorem Device.Paced.wifiEventHandler {s t : Device} {h : Effort} (hi : s.Paced h)
    (hs : wifiEventHandler s = some t) : t.Paced (Effort.note s .eventLoop h) := by
  cases wifiEventHandler_step hs with
  | @dispatch hpc e queue hq =>
    simp only [Effort.note, hpc]
    refine hi.rest rfl (by rw [hpc]; rfl) ?_ ?_ ?_ ?_ ?_ ?_
    all_goals cases e <;> simp [HandlerPc.dispatch, HandlerPc.base, HandlerPc.owed, HandlerPc.wait]
  | gotIpReset hpc =>
    simp only [Effort.note, hpc]
    have hreset := hi.reset (t := { s with retryNum := 0 }) rfl rfl
    refine hreset.rest rfl (by rw [hpc]; rfl) ?_ rfl ?_ ?_ ?_ ?_
    all_goals simp [HandlerPc.base, HandlerPc.wait]
  | serverTest hpc =>
    simp only [Effort.note, hpc]
    refine hi.rest rfl (by rw [hpc]; rfl) ?_ ?_ ?_ ?_ ?_ ?_
    all_goals cases s.server <;> simp [HandlerPc.base, HandlerPc.owed, HandlerPc.wait]
  | restartDelay hpc =>
    simp only [Effort.note, hpc]
    refine hi.rest rfl (by rw [hpc]; rfl) ?_ rfl ?_ ?_ ?_ ?_
    all_goals simp [HandlerPc.base, HandlerPc.wait]
  | restart hpc =>
    simp only [Effort.note, hpc]
    exact hi.keep hpc.symm rfl
  | @retryTest c hpc =>
    simp only [Effort.note, hpc]
    by_cases hlt : s.retryNum < maxRetry
    · rw [if_pos hlt]
      refine hi.rest rfl (by rw [hpc]; rfl) ?_ rfl ?_ (fun _ _ => hlt) ?_ ?_
      all_goals simp [HandlerPc.base, HandlerPc.wait]
    · rw [if_neg hlt]
      refine hi.rest rfl (by rw [hpc]; rfl) ?_ rfl ?_ ?_ ?_ ?_
      all_goals simp [HandlerPc.base, HandlerPc.wait]
  | @retryRead c hpc =>
    simp only [Effort.note, hpc]
    have hlt := hi.read c hpc
    have hconnects := hi.connects
    have hwaited := hi.waited
    rw [hpc] at hconnects hwaited
    refine ⟨hi.le_max, by simp, ?_, by simp, ?_, ?_⟩
    · intro c' n hw
      cases hw
      exact hlt
    · simpa [HandlerPc.base, HandlerPc.owed] using hconnects
    · simpa [HandlerPc.base, HandlerPc.wait] using hwaited
  | @retryWrite c read hpc =>
    simp only [Effort.note, hpc]
    have hlt := hi.write c read hpc
    have hconnects := hi.connects
    have hwaited := hi.waited
    have hmin : min s.retryNum read ≤ read := min_le_right _ _
    have hbackoff := backoff_mono hmin
    rw [hpc] at hconnects hwaited
    simp only [HandlerPc.base, HandlerPc.owed, HandlerPc.wait] at hconnects hwaited
    refine ⟨hlt, by simp, by simp, by simp, ?_, ?_⟩
    · simp only [HandlerPc.base, HandlerPc.owed]
      omega
    · simp only [HandlerPc.base, HandlerPc.wait, backoff_succ]
      omega
  | @delayRead c hpc =>
    simp only [Effort.note, hpc]
    have hconnects := hi.connects
    have hwaited := hi.waited
    rw [hpc] at hconnects hwaited
    refine ⟨hi.le_max, by simp, by simp, ?_, hconnects, hwaited⟩
    intro c' ms hd
    cases hd
    exact ⟨s.retryNum, hi.le_max, rfl⟩
  | @inDelay c ms hpc =>
    simp only [Effort.note, hpc]
    have hconnects := hi.connects
    have hwaited := hi.waited
    rw [hpc] at hconnects hwaited
    exact ⟨hi.le_max, by simp, by simp, by simp, hconnects, hwaited⟩
  | @connect c hpc =>
    simp only [Effort.note, hpc]
    have hconnects := hi.connects
    have hwaited := hi.waited
    rw [hpc] at hconnects hwaited
    exact ⟨hi.le_max, by simp, by simp, by simp, hconnects, hwaited⟩

theorem Device.Paced.httpdTask {s t : Device} {h : Effort} (hi : s.Paced h)
    (hs : httpdTask s = some t) : t.Paced (Effort.note s .httpd h) := by
  rcases httpdTask_cases hs with ⟨call, calls, exit, hpost, rfl⟩ | ⟨exit, hpost, rfl⟩
  · simp only [Effort.note, hpost]
    cases call with
    | resetRetryNum => exact hi.reset rfl rfl
    | _ => exact hi.keep rfl rfl
  · simp only [Effort.note, hpost]
    exact hi.keep rfl rfl

theorem Device.Paced.step {s t : Device} {a : DeviceAct} {h : Effort} (hi : s.Paced h)
    (hs : s.step a = some t) : t.Paced (Effort.note s a h) := by
  cases a with
  | powerOn after =>
    obtain ⟨_, rfl⟩ := by simpa [Device.step] using hs
    exact .fresh rfl rfl
  | powerLoss =>
    obtain ⟨_, rfl⟩ := by simpa [Device.step] using hs
    exact hi.keep rfl rfl
  | boot ok =>
    obtain ⟨call, calls, _, rfl⟩ := Device.step_boot hs
    cases call <;> exact hi.keep rfl rfl
  | driver e =>
    obtain ⟨_, rfl⟩ := by simpa [Device.step] using hs
    exact hi.keep rfl rfl
  | eventLoop =>
    obtain ⟨_, hs⟩ := by simpa [Device.step] using hs
    exact hi.wifiEventHandler hs
  | request sdk req =>
    obtain ⟨_, rfl⟩ := by simpa [Device.step] using hs
    exact hi.keep rfl rfl
  | httpd =>
    obtain ⟨_, hs⟩ := by simpa [Device.step] using hs
    exact hi.httpdTask hs

/-- In every run and every interleaving, the retry counter never passes its maximum, every
back-off is a multiple of 1500 ms of at most 7.5 s, and since the last power-on the handler
has made at most five reconnects, waiting 22.5 s in all, for each reset of the counter and
five more. -/
theorem reconnects_bounded {nvs : WifiStaConfig} {s : Device} {h : Effort} {as : List DeviceAct}
    (hrun : Machine.run (Machine.monitored Device.step Effort.note) (.off nvs, .none) as = some (s, h)) :
    s.retryNum ≤ maxRetry ∧
    (∀ c ms, s.handler = .inDelay c ms → ∃ n ≤ maxRetry, ms = n * 1500) ∧
    h.connects ≤ maxRetry * (h.resets + 1) ∧ h.waited ≤ 22500 * (h.resets + 1) := by
  have hend : s.Paced h := by
    refine Machine.monitored_induction (motive := fun _ => Device.Paced) (.fresh rfl rfl) ?_ hrun
    intro as a u v z _ hi hstep
    exact hi.step hstep
  have hbase := (s.handler.base_le s.retryNum).trans hend.le_max
  have hbackoff := backoff_mono hbase
  have hconnects := hend.connects
  have hwaited := hend.waited
  have hmax : backoff maxRetry = 22500 := rfl
  refine ⟨hend.le_max, hend.delay, ?_, ?_⟩
  · rw [Nat.mul_succ]
    omega
  · rw [hmax] at hbackoff hwaited
    omega

/-- One accepted configuration, five failed attempts with it, and a sixth. -/
def sixFailures : List DeviceAct :=
  bootSoftAp ++ postForm (ascii "wrong") ++ (List.replicate 6 (failAndRetry 1)).flatten.take 42

theorem reconnects_bounded_exhausted :
    ∃ s h, Machine.run (Machine.monitored Device.step Effort.note) (.off emptyNvs, .none) sixFailures =
        some (s, h) ∧
      s.retryNum = 5 ∧ h.resets = 1 ∧ h.connects = 5 ∧ h.waited = 22500 ∧
      h.connects ≤ maxRetry * (h.resets + 1) ∧ h.waited ≤ 22500 * (h.resets + 1) := by
  have h : (Machine.run (Machine.monitored Device.step Effort.note) (.off emptyNvs, .none)
      sixFailures).map (fun r => (r.1.retryNum, r.2)) = some (5, ⟨1, 5, 22500⟩) := by decide +kernel
  obtain ⟨⟨s, h⟩, hrun, he⟩ := Option.map_eq_some_iff.mp h
  obtain ⟨hnum, rfl⟩ := Prod.mk.inj he
  obtain ⟨_, _, hconnects, hwaited⟩ := reconnects_bounded hrun
  exact ⟨s, _, hrun, hnum, rfl, rfl, rfl, hconnects, hwaited⟩

end EspPassthrough
