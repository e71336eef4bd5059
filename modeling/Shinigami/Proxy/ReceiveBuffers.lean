import Mathlib.Algebra.BigOperators.Group.Multiset.Basic
import Shinigami.Core.PoolAddresses
import Shinigami.Foundations.Ownership
import Shinigami.Proxy.ApiCalls

/-!
# The receive buffers of a proxy

A received message with a payload holds a block of `recv_pool_`. The block goes with the
message from `recvMessage` to the io thread, to the slot `pending_reply_`, and to the
method whose call waits for a reply; a thread in `doConnect` gives the one of the welcome
message back itself. A step is an operation of the caller, of the io thread, of a
connecting thread, or of the daemon.

The threads share the pool, which has no lock. An operation on it extends from a step
`enterPool` to the step that it is part of; once two of them have overlapped, the pool may
hold anything (`Threads`).

A block leaks when the io thread overwrites a message that nobody has taken, and when a
method keeps the buffer of its reply (`blocksConserved_run_iff`).
-/

namespace Shinigami

namespace Proxy

namespace ReceiveBuffers

open Shinigami.Core ServiceManager CString

/-- A queue depth: the slots of the callback queue, which has the same depth, must fit
into memory too. -/
structure QueueDepth where
  depth : UInt64
  le : depth.toNat ≤ 2 ^ 52

/-- `SM_MAX_MESSAGE_SIZE`. -/
def smMaxMessageSize : UInt64 := UInt64.ofNat (smHdrSize + smMaxPayloadSize)

def recvPoolConfig (queueDepth : QueueDepth) : MemoryPoolConfig where
  blockSize := smMaxMessageSize
  blockCount := queueDepth.depth * 2
  threadSafe := false

theorem dataFits_create {mmap : Mmap} {queueDepth : QueueDepth} {p : MemoryPool}
    (h : memoryPoolCreate mmap (recvPoolConfig queueDepth) = some p) : DataFits p := by
  obtain ⟨base, rfl, -⟩ := memoryPoolCreate_eq_some h
  have hle := queueDepth.le
  have hsize : (align8 smMaxMessageSize).toNat = 1080 := by decide
  have hcount : (queueDepth.depth * 2).toNat ≤ 2 ^ 53 := by
    rw [UInt64.toNat_mul]
    apply (Nat.mod_le _ _).trans
    change queueDepth.depth.toNat * 2 ≤ _
    omega
  simp only [DataFits, recvPoolConfig, hsize]
  omega

/-- `recv_pool_`, as the constructor of `ProxyConnection` makes it. -/
def recvPool (mmap : Mmap) (queueDepth : QueueDepth) : Option BlockPool :=
  match h : memoryPoolCreate mmap (recvPoolConfig queueDepth) with
  | none => none
  | some p => some ⟨p, poolInv_create h, dataFits_create h⟩

/-- A received message with its `pool_block`. -/
structure Received where
  msg : ProxyMessage
  poolBlock : Option UInt64

/-- `PendingReply`; a slot that is ready holds a message. -/
structure PendingReply where
  msg : Option Received
  ready : Bool
  filled : ready = true → msg.isSome

def PendingReply.reset (p : PendingReply) : PendingReply := ⟨p.msg, false, nofun⟩

def PendingReply.fill (m : Received) : PendingReply := ⟨some m, true, fun _ => rfl⟩

def PendingReply.taken : PendingReply := ⟨none, false, nofun⟩

inductive Phase
  | idle
  | sending (call : ApiCall)
  | waiting (use : ReplyUse)
  | holding (use : ReplyUse) (reply : Received)

structure State where
  connected : Bool
  conn : ProxyConnection
  pool : Option BlockPool
  capturing : Bool
  /-- The bytes on the socket. -/
  stream : List UInt8
  phase : Phase
  /-- What the last call returned. -/
  returned : Option (Except ApiError (List UInt8))
  pending : PendingReply
  /-- The message that the io thread is about to route. -/
  received : Option Received
  /-- The welcome messages in the hands of connecting threads. -/
  welcomes : List Received

inductive Event
  | enter (call : ApiCall)
  | send (env : SendEnv)
  | wake (timedOut : Bool)
  | finish
  | deliver (bytes : List UInt8)
  | receive (env : RecvEnv)
  | route
  | hangUp
  | dial (auth : ProxyAuth) (env : SendEnv)
  | welcome (env : RecvEnv)
  | welcomed
  | established (ok : Bool)

/-- `memory_pool_alloc`, without a pool `NULL`. -/
def allocBlock : Option BlockPool → Option UInt64 × Option BlockPool
  | none => (none, none)
  | some p => (p.alloc.1, some p.alloc.2)

/-- `releaseBuffer`, for a message with the given `pool_block`. -/
def releaseBuffer (pool : Option BlockPool) : Option UInt64 → Option BlockPool
  | none => pool
  | some ptr => pool.map (·.free ptr)

/-- `recvMessage` asks for a block: it fails when it gets none. -/
def asksForBlock (conn : ProxyConnection) (env : RecvEnv) (stream : List UInt8) : Bool :=
  match (recvFrame conn { env with poolAllocOk := false } stream).result with
  | .error .bufferFull => true
  | _ => false

/-- `recvMessage`, with the block of the message; a failure gives the block back. -/
def State.recvMessage (s : State) (env : RecvEnv) : State × Except ProxyError Received :=
  let (block, pool) :=
    if asksForBlock s.conn env s.stream then allocBlock s.pool else (none, s.pool)
  let r := s.conn.recvMessage { env with poolAllocOk := block.isSome } s.stream
  let s := { s with
    conn := r.conn
    stream := r.rest }
  match r.result with
  | .error e => ({ s with pool := releaseBuffer pool block }, .error e)
  | .ok msg => ({ s with pool := pool }, .ok ⟨msg, block⟩)

/-- The call returns. -/
def State.leave (s : State) (result : Except ApiError (List UInt8)) : State :=
  { s with
    phase := .idle
    returned := some result }

/-- The begin of a call, up to the lock around the slot. -/
def State.enter (s : State) (call : ApiCall) : State :=
  if call.refused then s.leave (.error .invalidArgument)
  else if call.returnsIf = some s.capturing then s.leave (.ok [])
  else if !s.connected then s.leave (.error (.error .notConnected))
  else
    { s with
      phase := .sending call
      pending := if call.reply.isSome then s.pending.reset else s.pending }

/-- The call of `ProxyConnection::send`, and what a message without reply ends with. -/
def State.send (s : State) (call : ApiCall) (env : SendEnv) : State :=
  let sent := s.conn.send env call.msgType call.payload
  let s := { s with conn := sent.conn }
  match sent.result, call.reply with
  | .error e, _ => s.leave (.error (.error e))
  | .ok (), some use => { s with phase := .waiting use }
  | .ok (), none => { s with capturing := call.sets.getD s.capturing }.leave (.ok [])

/-- The caller in `wait_for`, notified or with its time run out. -/
def State.wake (s : State) (use : ReplyUse) (timedOut : Bool) : State :=
  if h : s.pending.ready = true then
    { s with
      phase := .holding use (s.pending.msg.get (s.pending.filled h))
      pending := .taken }
  else if timedOut then s.leave (.error (.error .timeout))
  else s

def State.finish (s : State) (use : ReplyUse) (reply : Received) : State :=
  { s with
    pool := if use.releases then releaseBuffer s.pool reply.poolBlock else s.pool }.leave
      (use.result reply.msg.payload)

/-- `doDisconnect` and `disconnect`. -/
def State.hangUp (s : State) : State :=
  { s with
    connected := false
    conn := s.conn.closed
    capturing := false }

/-- `onSocketEvent` up to the routing. -/
def State.receive (s : State) (env : RecvEnv) : State :=
  match s.recvMessage env with
  | (s, .ok m) => { s with received := some m }
  | (s, .error .daemonCrashed) => s.hangUp
  | (s, .error .recvFailed) => s.hangUp
  | (s, .error _) => s

def State.route (s : State) (m : Received) : State :=
  if s.pending.ready then
    { s with
      pool := releaseBuffer s.pool m.poolBlock
      received := none }
  else
    { s with
      pending := .fill m
      received := none }

/-- The payload of `sendHandshakeHello`. -/
def helloPayload : List UInt8 := strncpyField smMaxName [112, 114, 111, 120, 121]

/-- `doConnect` up to the hello message; the authentication is set up once. -/
def State.dial (s : State) (auth : ProxyAuth) (env : SendEnv) : State :=
  if s.conn.connected then s
  else
    let auth := if s.conn.auth.any ProxyAuth.isReady then s.conn.auth else some auth
    let conn := { s.conn with
      connected := true
      fdOpen := true
      seq := 0
      auth := auth }
    let sent := conn.send env smMsgHeartbeat helloPayload
    match sent.result with
    | .error _ => { s with conn := sent.conn.closed, stream := [] }
    | .ok () => { s with conn := sent.conn, stream := [] }

/-- The receipt of the welcome message; an error is not an error of the handshake. -/
def State.welcome (s : State) (env : RecvEnv) : State :=
  match s.recvMessage env with
  | (s, .ok m) => { s with welcomes := m :: s.welcomes }
  | (s, .error _) => s

def State.step (s : State) : Event → State
  | .enter call =>
      match s.phase with
      | .idle => s.enter call
      | _ => s
  | .send env =>
      match s.phase with
      | .sending call => s.send call env
      | _ => s
  | .wake timedOut =>
      match s.phase with
      | .waiting use => s.wake use timedOut
      | _ => s
  | .finish =>
      match s.phase with
      | .holding use reply => s.finish use reply
      | _ => s
  | .deliver bytes => { s with stream := s.stream ++ bytes }
  | .receive env => if s.received.isNone then s.receive env else s
  | .route =>
      match s.received with
      | some m => s.route m
      | none => s
  | .hangUp => s.hangUp
  | .dial auth env => s.dial auth env
  | .welcome env => s.welcome env
  | .welcomed =>
      match s.welcomes with
      | [] => s
      | m :: welcomes =>
          { s with
            pool := releaseBuffer s.pool m.poolBlock
            welcomes := welcomes }
  | .established ok =>
      if ok then { s with connected := true }
      else { s with conn := s.conn.closed }

/-- A proxy that has not connected. -/
def init (pool : Option BlockPool) : State where
  connected := false
  conn := ⟨false, false, pool.isSome, 0, none⟩
  pool := pool
  capturing := false
  stream := []
  phase := .idle
  returned := none
  pending := .taken
  received := none
  welcomes := []

/-- The step calls `memory_pool_alloc` or `memory_pool_free`. -/
def State.usesPool (s : State) : Event → Bool
  | .finish =>
      match s.phase with
      | .holding use reply => use.releases && reply.poolBlock.isSome
      | _ => false
  | .receive env => s.received.isNone && asksForBlock s.conn env s.stream
  | .route => s.received.any (·.poolBlock.isSome) && s.pending.ready
  | .welcome env => asksForBlock s.conn env s.stream
  | .welcomed => s.welcomes.head?.any (·.poolBlock.isSome)
  | _ => false

/-- The proxy, the number of threads inside the pool, and whether two have been there at
once. -/
structure Threads where
  proxy : State
  inPool : ℕ
  raced : Bool

/-- A thread enters the pool, or makes the step that it has entered for; `left` is what a
race leaves of the pool. -/
inductive Access
  | enterPool
  | act (ev : Event) (left : Option BlockPool)

def Threads.step (threadSafe : Bool) (t : Threads) : Access → Threads
  | .enterPool =>
      if threadSafe ∧ 0 < t.inPool then t
      else
        { t with
          inPool := t.inPool + 1
          raced := t.raced || decide (0 < t.inPool) }
  | .act ev left =>
      if t.proxy.usesPool ev then
        if t.inPool = 0 then t
        else
          { t with
            proxy := if t.raced then { t.proxy.step ev with pool := left } else t.proxy.step ev
            inPool := t.inPool - 1 }
      else { t with proxy := t.proxy.step ev }

def start (pool : Option BlockPool) : Threads := ⟨init pool, 0, false⟩

end ReceiveBuffers

end Proxy

end Shinigami
