import EspPassthrough.RingBuffer
import Mathlib.Logic.Function.Basic

/-! The tasks of `tcp_bridge.c` as one machine: the UART daemon, the TCP server,
and the two tasks the server creates for every session. All sessions share one
context, since `ctx` lives in the same stack slot in every turn of the server's
loop. A step ends at every access to something shared and at every call that
may block; its label says what the call returned. -/

namespace EspPassthrough

structure Semaphore where
  max : Nat
  count : Nat
  le_max : count ≤ max
  deriving DecidableEq

def xSemaphoreCreateCounting (max initial : Nat) (h : initial ≤ max) : Semaphore := ⟨max, initial, h⟩

/-- A give beyond the maximum fails and changes nothing. -/
def Semaphore.give (s : Semaphore) : Semaphore :=
  if h : s.count < s.max then ⟨s.max, s.count + 1, h⟩ else s

def Semaphore.take (s : Semaphore) : Option Semaphore :=
  if 0 < s.count then some ⟨s.max, s.count - 1, (Nat.sub_le _ _).trans s.le_max⟩ else none

/-- `bridge_context_t`; `exitSem` is `none` while the handle names no semaphore. -/
structure BridgeContext where
  sock : Int
  exitSem : Option Semaphore
  running : Bool
  deriving DecidableEq

def bufSize : Nat := 512

def uartCacheSize : Nat := 8 * 1024

/-- `s_rb` after a successful `rb_init(UART_CACHE_SIZE)`. -/
structure Cache where
  ring : RingBuf
  wf : ring.Wf
  size_eq : ring.size = uartCacheSize

def Cache.write (c : Cache) (data : List UInt8) : Cache :=
  ⟨rbWrite c.ring data, (rbWrite_spec c.wf data).1, (rbWrite_spec c.wf data).2.1.trans c.size_eq⟩

/-- `rb_read(buffer, BUF_SIZE)`: the cache after it and the bytes put in the buffer. -/
def Cache.read (c : Cache) : Cache × List UInt8 :=
  have h : (bufSize : Int) ≤ (List.replicate bufSize (0 : UInt8)).length := by simp
  let r := rbRead c.ring (List.replicate bufSize 0) bufSize
  (⟨r.1, (rbRead_spec c.wf h).1, (rbRead_spec c.wf h).2.1.trans c.size_eq⟩, r.2.1.take r.2.2)

abbrev Cache.contents (c : Cache) : List UInt8 := c.ring.contents

/-- Where a session task is. Both have the same frame around their loop's body. -/
inductive TaskPc (β : Type) where
  | absent
  | malloc
  | loopTest
  | body (pc : β)
  | clearRunning
  | give
  | deleteSelf
  | gone
  deriving DecidableEq

inductive TcpToUartPc where
  | recv
  | inRecv
  | uartWrite (bytes : List UInt8)
  | logTest
  deriving DecidableEq

inductive BufferToTcpPc where
  | rbRead
  | send (chunk : List UInt8)
  | inSend (chunk : List UInt8)
  | delay (until_ : Nat)
  deriving DecidableEq

inductive DaemonPc where
  | malloc
  | read
  | delay (until_ : Nat)
  | gone
  deriving DecidableEq

inductive ServerPc where
  | socket
  | accept
  | acceptDelay (until_ : Nat)
  | initSock
  | initRunning
  | initSem
  | createTcpToUart
  | createBufferToTcp
  | take
  | clearRunning
  | shutdown
  | close
  | drain (until_ : Nat)
  | deleteSem
  | gone
  deriving DecidableEq

/-- What the call that a step waits for returns; `done` where nothing is read off it. -/
inductive Answer where
  | done
  | created (ok : Bool)
  | result (n : Int)
  | data (bytes : List UInt8)
  deriving DecidableEq

inductive Act where
  | elapse (ms : Nat)
  | daemon (a : Answer)
  | server (a : Answer)
  | tcpToUart (k : Nat) (a : Answer)
  | bufferToTcp (k : Nat) (a : Answer)
  deriving DecidableEq

/-- `tcpToUart k` and `bufferToTcp k` are the tasks created for the `k`-th
session, `session` the last one whose context was set up. The three streams at
the end are histories: all bytes read from the UART, all bytes the clients'
sockets accepted, all bytes written to the UART. -/
structure Bridge where
  cache : Cache
  daemon : DaemonPc
  ctx : BridgeContext
  server : ServerPc
  sock : Int
  session : Nat
  tcpToUart : Nat → TaskPc TcpToUartPc
  bufferToTcp : Nat → TaskPc BufferToTcpPc
  clock : Nat
  uartRx : List UInt8
  accepted : List UInt8
  uartTx : List UInt8

def Bridge.start (cache : Cache) : Bridge where
  cache
  daemon := .malloc
  ctx := ⟨0, none, false⟩
  server := .socket
  sock := 0
  session := 0
  tcpToUart := fun _ => .absent
  bufferToTcp := fun _ => .absent
  clock := 0
  uartRx := []
  accepted := []
  uartTx := []

/-- Nothing is started when the cache cannot be allocated. -/
def tcpBridgeInit (malloc : Malloc) (rb : RingBuf) : Option Bridge :=
  match h : rbInit malloc rb uartCacheSize with
  | (_, false) => none
  | (_, true) =>
    some (.start ⟨_, (rbInit_wf (by decide) h).1, (rbInit_wf (by decide) h).2.1⟩)

/-- Storing the chunk is one step with reading it off the UART: until `rb_write`
runs it is in the daemon's own buffer only. -/
def uartRxDaemonTask (s : Bridge) (a : Answer) : Option Bridge :=
  match s.daemon, a with
  | .malloc, .created ok => some { s with daemon := if ok then .read else .gone }
  | .read, .data bytes =>
    if bytes.length ≤ bufSize then
      if bytes ≠ [] then
        some { s with cache := s.cache.write bytes, uartRx := s.uartRx ++ bytes }
      else some { s with daemon := .delay (s.clock + 10) }
    else none
  | .delay u, .done => if u ≤ s.clock then some { s with daemon := .read } else none
  | _, _ => none

/-- What both session tasks do around the body of their loop. A give on a semaphore that has
been deleted changes nothing here; the code gives on a freed handle. -/
def taskFrame {β : Type} (first : β) (ctx : BridgeContext) :
    TaskPc β → Answer → Option (TaskPc β × BridgeContext)
  | .malloc, .created ok => some (if ok then .loopTest else .give, ctx)
  | .loopTest, .done => some (if ctx.running then .body first else .clearRunning, ctx)
  | .clearRunning, .done => some (.give, { ctx with running := false })
  | .give, .done => some (.deleteSelf, { ctx with exitSem := ctx.exitSem.map Semaphore.give })
  | .deleteSelf, .done => some (.gone, ctx)
  | _, _ => none

def Bridge.setTcpToUart (s : Bridge) (k : Nat) (pc : TaskPc TcpToUartPc) : Bridge :=
  { s with tcpToUart := Function.update s.tcpToUart k pc }

def Bridge.setBufferToTcp (s : Bridge) (k : Nat) (pc : TaskPc BufferToTcpPc) : Bridge :=
  { s with bufferToTcp := Function.update s.bufferToTcp k pc }

def tcpToUartTask (s : Bridge) (k : Nat) (a : Answer) : Option Bridge :=
  match s.tcpToUart k, a with
  | .body .recv, .done => some (s.setTcpToUart k (.body .inRecv))
  | .body .inRecv, .data bytes =>
    if bytes.length ≤ bufSize then
      some (s.setTcpToUart k (.body (if bytes ≠ [] then .uartWrite bytes else .logTest)))
    else none
  | .body (.uartWrite bytes), .done =>
    some { s.setTcpToUart k .loopTest with uartTx := s.uartTx ++ bytes }
  | .body .logTest, .done => some (s.setTcpToUart k .clearRunning)
  | pc, a => (taskFrame .recv s.ctx pc a).map fun r => { s.setTcpToUart k r.1 with ctx := r.2 }

def bufferToTcpTask (s : Bridge) (k : Nat) (a : Answer) : Option Bridge :=
  match s.bufferToTcp k, a with
  | .body .rbRead, .done =>
    let r := s.cache.read
    if r.2 ≠ [] then some { s.setBufferToTcp k (.body (.send r.2)) with cache := r.1 }
    else some { s.setBufferToTcp k (.body (.delay (s.clock + 50))) with cache := r.1 }
  | .body (.send chunk), .done => some (s.setBufferToTcp k (.body (.inSend chunk)))
  | .body (.inSend chunk), .result sent =>
    if sent ≤ chunk.length then
      if sent < 0 then some (s.setBufferToTcp k .clearRunning)
      else some { s.setBufferToTcp k .loopTest with accepted := s.accepted ++ chunk.take sent.toNat }
    else none
  | .body (.delay u), .done => if u ≤ s.clock then some (s.setBufferToTcp k .loopTest) else none
  | pc, a => (taskFrame .rbRead s.ctx pc a).map fun r => { s.setBufferToTcp k r.1 with ctx := r.2 }

def tcpServerTask (s : Bridge) (a : Answer) : Option Bridge :=
  match s.server, a with
  | .socket, .result fd => some { s with server := if fd < 0 then .gone else .accept }
  | .accept, .result sock =>
    some { s with sock, server := if sock < 0 then .acceptDelay (s.clock + 1000) else .initSock }
  | .acceptDelay u, .done => if u ≤ s.clock then some { s with server := .accept } else none
  | .initSock, .done =>
    some { s with ctx.sock := s.sock, session := s.session + 1, server := .initRunning }
  | .initRunning, .done => some { s with ctx.running := true, server := .initSem }
  | .initSem, .done =>
    some { s with ctx.exitSem := some (xSemaphoreCreateCounting 2 0 (by decide)),
                  server := .createTcpToUart }
  | .createTcpToUart, .created ok =>
    some { s.setTcpToUart s.session (if ok then .malloc else .absent) with
           server := .createBufferToTcp }
  | .createBufferToTcp, .created ok =>
    some { s.setBufferToTcp s.session (if ok then .malloc else .absent) with server := .take }
  | .take, .done =>
    (s.ctx.exitSem.bind Semaphore.take).map fun sem =>
      { s with ctx.exitSem := some sem, server := .clearRunning }
  | .clearRunning, .done => some { s with ctx.running := false, server := .shutdown }
  | .shutdown, .done => some { s with server := .close }
  | .close, .done => some { s with server := .drain (s.clock + 500) }
  | .drain u, .done => if u ≤ s.clock then some { s with server := .deleteSem } else none
  | .deleteSem, .done => some { s with ctx.exitSem := none, server := .accept }
  | _, _ => none

def Bridge.step (s : Bridge) : Act → Option Bridge
  | .elapse ms => some { s with clock := s.clock + ms }
  | .daemon a => uartRxDaemonTask s a
  | .server a => tcpServerTask s a
  | .tcpToUart k a => tcpToUartTask s k a
  | .bufferToTcp k a => bufferToTcpTask s k a

/-- Each step of `tcp_server_task`, where it is taken from and what it waits for. -/
inductive Bridge.ServerStep (s : Bridge) : Answer → Bridge → Prop where
  | socket {fd : Int} (hpc : s.server = .socket) :
      s.ServerStep (.result fd) { s with server := if fd < 0 then .gone else .accept }
  | accept {sock : Int} (hpc : s.server = .accept) :
      s.ServerStep (.result sock)
        { s with sock, server := if sock < 0 then .acceptDelay (s.clock + 1000) else .initSock }
  | acceptDelay {u : Nat} (hpc : s.server = .acceptDelay u) (hle : u ≤ s.clock) :
      s.ServerStep .done { s with server := .accept }
  | initSock (hpc : s.server = .initSock) :
      s.ServerStep .done
        { s with ctx.sock := s.sock, session := s.session + 1, server := .initRunning }
  | initRunning (hpc : s.server = .initRunning) :
      s.ServerStep .done { s with ctx.running := true, server := .initSem }
  | initSem (hpc : s.server = .initSem) :
      s.ServerStep .done { s with
        ctx.exitSem := some (xSemaphoreCreateCounting 2 0 (by decide)), server := .createTcpToUart }
  | createTcpToUart {ok : Bool} (hpc : s.server = .createTcpToUart) :
      s.ServerStep (.created ok) { s.setTcpToUart s.session (if ok then .malloc else .absent) with
        server := .createBufferToTcp }
  | createBufferToTcp {ok : Bool} (hpc : s.server = .createBufferToTcp) :
      s.ServerStep (.created ok) { s.setBufferToTcp s.session (if ok then .malloc else .absent) with
        server := .take }
  | take {sem : Semaphore} (hpc : s.server = .take)
      (hsem : s.ctx.exitSem.bind Semaphore.take = some sem) :
      s.ServerStep .done { s with ctx.exitSem := some sem, server := .clearRunning }
  | clearRunning (hpc : s.server = .clearRunning) :
      s.ServerStep .done { s with ctx.running := false, server := .shutdown }
  | shutdown (hpc : s.server = .shutdown) : s.ServerStep .done { s with server := .close }
  | close (hpc : s.server = .close) :
      s.ServerStep .done { s with server := .drain (s.clock + 500) }
  | drain {u : Nat} (hpc : s.server = .drain u) (hle : u ≤ s.clock) :
      s.ServerStep .done { s with server := .deleteSem }
  | deleteSem (hpc : s.server = .deleteSem) :
      s.ServerStep .done { s with ctx.exitSem := none, server := .accept }

theorem tcpServerTask_step {s t : Bridge} {a : Answer} (h : tcpServerTask s a = some t) :
    s.ServerStep a t := by
  unfold tcpServerTask at h
  split at h
  case h_1 hpc =>
    cases h
    exact .socket hpc
  case h_2 hpc =>
    cases h
    exact .accept hpc
  case h_3 u hpc =>
    split at h
    case isTrue hle =>
      cases h
      exact .acceptDelay hpc hle
    case isFalse => cases h
  case h_4 hpc =>
    cases h
    exact .initSock hpc
  case h_5 hpc =>
    cases h
    exact .initRunning hpc
  case h_6 hpc =>
    cases h
    exact .initSem hpc
  case h_7 hpc =>
    cases h
    exact .createTcpToUart hpc
  case h_8 hpc =>
    cases h
    exact .createBufferToTcp hpc
  case h_9 hpc =>
    obtain ⟨sem, hsem, rfl⟩ := Option.map_eq_some_iff.mp h
    exact .take hpc hsem
  case h_10 hpc =>
    cases h
    exact .clearRunning hpc
  case h_11 hpc =>
    cases h
    exact .shutdown hpc
  case h_12 hpc =>
    cases h
    exact .close hpc
  case h_13 u hpc =>
    split at h
    case isTrue hle =>
      cases h
      exact .drain hpc hle
    case isFalse => cases h
  case h_14 hpc =>
    cases h
    exact .deleteSem hpc
  case h_15 => cases h

end EspPassthrough
