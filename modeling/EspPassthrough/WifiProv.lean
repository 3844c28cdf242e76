import EspPassthrough.Boot
import EspPassthrough.Machine

/-! The Wi-Fi half of the firmware as one machine: `wifi_init_softap_sta` after a
power-on, the event loop running `wifi_event_handler`, and the web server's task
running `wifi_config_post_handler`. A step ends at every access to `s_retry_num`
and at every call into the SDK.

Credentials are numbered by the calls of `esp_wifi_set_config`. A connection
attempt has the number that is stored when `esp_wifi_connect` is called, and the
events it leads to carry that number. -/

namespace EspPassthrough

def maxRetry : Nat := 5

inductive WifiEvent where
  | apStaConnected
  | apStaDisconnected
  | staGotIp (creds : Nat)
  | staDisconnected (creds : Nat)
  deriving DecidableEq

/-- Where `wifi_event_handler` is; `s_retry_num++` is a read and a write. -/
inductive HandlerPc where
  | idle
  | gotIpReset
  | serverTest
  | restartDelay
  | restart
  | retryTest (creds : Nat)
  | retryRead (creds : Nat)
  | retryWrite (creds : Nat) (read : Nat)
  | delayRead (creds : Nat)
  | inDelay (creds : Nat) (ms : Nat)
  | connect (creds : Nat)
  deriving DecidableEq

/-- What has become of the last accepted configuration: its number, and how often
the handler has called `esp_wifi_connect` since for an attempt made with it. -/
structure Budget where
  creds : Nat
  connects : Nat
  deriving DecidableEq

structure Device where
  on : Bool
  nvs : WifiStaConfig
  creds : Nat
  attempts : List Nat
  queue : List WifiEvent
  retryNum : Nat
  server : Bool
  boot : List BootCall
  handler : HandlerPc
  post : Option PostRun
  budget : Option Budget
  deriving DecidableEq

/-- Before its first power-on. -/
def Device.off (nvs : WifiStaConfig) : Device where
  on := false
  nvs
  creds := 0
  attempts := []
  queue := []
  retryNum := 0
  server := false
  boot := []
  handler := .idle
  post := none
  budget := none

/-- Nothing but the memory in flash survives a loss of power or a restart. -/
def Device.powerOn (s : Device) (after : List UInt8) : Device where
  on := true
  nvs := s.nvs
  creds := s.creds
  attempts := []
  queue := []
  retryNum := 0
  server := false
  boot := wifiInitSoftapSta s.nvs after
  handler := .idle
  post := none
  budget := s.budget

def Device.espWifiConnect (s : Device) : Device := { s with attempts := s.creds :: s.attempts }

/-- A call of `wifi_init_softap_sta`; `ok` is the result of `httpd_start`. -/
def Device.bootCall (s : Device) (ok : Bool) : BootCall → Device
  | .connect => s.espWifiConnect
  | .startWebserver => { s with server := ok }
  | _ => s

def Device.postCall (s : Device) : PostCall → Device
  | .setConfig cfg => { s with nvs := cfg, creds := s.creds + 1 }
  | .resetRetryNum => { s with retryNum := 0, budget := some ⟨s.creds, 0⟩ }
  | .connect => s.espWifiConnect
  | _ => s

def HandlerPc.dispatch : WifiEvent → HandlerPc
  | .apStaConnected => .idle
  | .apStaDisconnected => .idle
  | .staGotIp _ => .gotIpReset
  | .staDisconnected creds => .retryTest creds

def Budget.count (b : Budget) (creds : Nat) : Budget :=
  if creds = b.creds then { b with connects := b.connects + 1 } else b

def wifiEventHandler (s : Device) : Option Device :=
  match s.handler with
  | .idle =>
    match s.queue with
    | [] => none
    | e :: queue => some { s with queue, handler := .dispatch e }
  | .gotIpReset => some { s with retryNum := 0, handler := .serverTest }
  | .serverTest => some { s with handler := if s.server then .restartDelay else .idle }
  | .restartDelay => some { s with handler := .restart }
  | .restart => some { s with on := false }
  | .retryTest creds =>
    -- the other branch reports that the retries are used up
    some { s with handler := if s.retryNum < maxRetry then .retryRead creds else .idle }
  | .retryRead creds => some { s with handler := .retryWrite creds s.retryNum }
  | .retryWrite creds read => some { s with retryNum := read + 1, handler := .delayRead creds }
  | .delayRead creds => some { s with handler := .inDelay creds (s.retryNum * 1500) }
  | .inDelay creds _ => some { s with handler := .connect creds }
  | .connect creds =>
    some { s.espWifiConnect with handler := .idle, budget := s.budget.map (·.count creds) }

/-- The web server's task: the next call of a request it is working on. -/
def httpdTask (s : Device) : Option Device :=
  match s.post with
  | none => none
  | some ⟨call :: calls, exit⟩ => some { s.postCall call with post := some ⟨calls, exit⟩ }
  | some ⟨[], .espOk⟩ => some { s with post := none }
  | some ⟨[], .espFail⟩ => some { s with post := none }
  | some _ => none

/-- An event of the driver belongs to an attempt that was made. -/
def WifiEvent.Possible (attempts : List Nat) : WifiEvent → Prop
  | .staGotIp creds => creds ∈ attempts
  | .staDisconnected creds => creds ∈ attempts
  | _ => True

instance (attempts : List Nat) : ∀ e, Decidable (WifiEvent.Possible attempts e)
  | .apStaConnected => isTrue trivial
  | .apStaDisconnected => isTrue trivial
  | .staGotIp creds => inferInstanceAs (Decidable (creds ∈ attempts))
  | .staDisconnected creds => inferInstanceAs (Decidable (creds ∈ attempts))

inductive DeviceAct where
  | powerOn (after : List UInt8)
  | powerLoss
  | boot (ok : Bool)
  | driver (e : WifiEvent)
  | eventLoop
  | request (sdk : Sdk) (req : HttpdReq)
  | httpd

def Device.step (s : Device) : DeviceAct → Option Device
  | .powerOn after => if s.on then none else some (s.powerOn after)
  | .powerLoss => if s.on then some { s with on := false } else none
  | .boot ok =>
    match s.on, s.boot with
    | true, call :: calls => some { s.bootCall ok call with boot := calls }
    | _, _ => none
  | .driver e =>
    if s.on ∧ e.Possible s.attempts then some { s with queue := s.queue ++ [e] } else none
  | .eventLoop => if s.on then wifiEventHandler s else none
  | .request sdk req =>
    if s.on ∧ s.server ∧ s.post = none then some { s with post := some (wifiConfigPostHandler sdk req) }
    else none
  | .httpd => if s.on then httpdTask s else none

/-- Each step of `wifi_event_handler`, and where it is taken from. -/
inductive Device.HandlerStep (s : Device) : Device → Prop where
  | dispatch (hpc : s.handler = .idle) {e : WifiEvent} {queue : List WifiEvent}
      (hq : s.queue = e :: queue) : s.HandlerStep { s with queue, handler := .dispatch e }
  | gotIpReset (hpc : s.handler = .gotIpReset) :
      s.HandlerStep { s with retryNum := 0, handler := .serverTest }
  | serverTest (hpc : s.handler = .serverTest) :
      s.HandlerStep { s with handler := if s.server then .restartDelay else .idle }
  | restartDelay (hpc : s.handler = .restartDelay) : s.HandlerStep { s with handler := .restart }
  | restart (hpc : s.handler = .restart) : s.HandlerStep { s with on := false }
  | retryTest {creds : Nat} (hpc : s.handler = .retryTest creds) :
      s.HandlerStep { s with handler := if s.retryNum < maxRetry then .retryRead creds else .idle }
  | retryRead {creds : Nat} (hpc : s.handler = .retryRead creds) :
      s.HandlerStep { s with handler := .retryWrite creds s.retryNum }
  | retryWrite {creds read : Nat} (hpc : s.handler = .retryWrite creds read) :
      s.HandlerStep { s with retryNum := read + 1, handler := .delayRead creds }
  | delayRead {creds : Nat} (hpc : s.handler = .delayRead creds) :
      s.HandlerStep { s with handler := .inDelay creds (s.retryNum * 1500) }
  | inDelay {creds ms : Nat} (hpc : s.handler = .inDelay creds ms) :
      s.HandlerStep { s with handler := .connect creds }
  | connect {creds : Nat} (hpc : s.handler = .connect creds) :
      s.HandlerStep
        { s.espWifiConnect with handler := .idle, budget := s.budget.map (·.count creds) }

theorem wifiEventHandler_step {s t : Device} (h : wifiEventHandler s = some t) : s.HandlerStep t := by
  unfold wifiEventHandler at h
  split at h
  case h_1 hpc =>
    split at h
    case h_1 => cases h
    case h_2 e queue hq =>
      cases h
      exact .dispatch hpc hq
  case h_2 hpc =>
    cases h
    exact .gotIpReset hpc
  case h_3 hpc =>
    cases h
    exact .serverTest hpc
  case h_4 hpc =>
    cases h
    exact .restartDelay hpc
  case h_5 hpc =>
    cases h
    exact .restart hpc
  case h_6 creds hpc =>
    cases h
    exact .retryTest hpc
  case h_7 creds hpc =>
    cases h
    exact .retryRead hpc
  case h_8 creds read hpc =>
    cases h
    exact .retryWrite hpc
  case h_9 creds hpc =>
    cases h
    exact .delayRead hpc
  case h_10 creds ms hpc =>
    cases h
    exact .inDelay hpc
  case h_11 creds hpc =>
    cases h
    exact .connect hpc

theorem httpdTask_cases {s t : Device} (h : httpdTask s = some t) :
    (∃ call calls exit, s.post = some ⟨call :: calls, exit⟩ ∧
      t = { s.postCall call with post := some ⟨calls, exit⟩ }) ∨
    ∃ exit, s.post = some ⟨[], exit⟩ ∧ t = { s with post := none } := by
  unfold httpdTask at h
  split at h
  case h_1 => cases h
  case h_2 call calls exit hpost =>
    cases h
    exact .inl ⟨call, calls, exit, hpost, rfl⟩
  case h_3 hpost =>
    cases h
    exact .inr ⟨_, hpost, rfl⟩
  case h_4 hpost =>
    cases h
    exact .inr ⟨_, hpost, rfl⟩
  case h_5 => cases h

theorem Device.step_boot {s t : Device} {ok : Bool} (h : s.step (.boot ok) = some t) :
    ∃ call calls, s.boot = call :: calls ∧ t = { s.bootCall ok call with boot := calls } := by
  unfold Device.step at h
  dsimp only at h
  split at h
  case h_1 call calls _ hb =>
    cases h
    exact ⟨call, calls, hb, rfl⟩
  case h_2 => cases h

end EspPassthrough
