import Mathlib.Data.Finset.Basic
import Mathlib.Tactic.SplitIfs
import Shinigami.Foundations.Run

/-!
# The life of a session

`ServiceProxy` from `connect()` to `disconnect()`, with its io thread and its reconnect
thread, one access to the shared members in a step. Calls of `connect()` exclude each other
by `connect_mutex_`, and calls of `disconnect()` are taken one at a time; the attempts of
the reconnect thread run beside them. An outcome of the system or of the daemon is part of
the event.

A socket is named by the number of its creation, so that a descriptor that the system
hands out again is another socket. Closing a socket takes it out of the epoll set.
-/

namespace Shinigami

namespace Proxy

namespace SessionLifecycle

/-- Where a thread stands in `doConnect`. -/
inductive Attempt
  | resolve
  | socket
  | link
  | mark
  | hello
  | welcome
  | notify
  | publish
deriving DecidableEq, Repr

/-- What a step of `doConnect` comes to. -/
inductive Progress
  | next (a : Attempt)
  | failed
  | done
deriving DecidableEq, Repr

inductive ConnectPc
  | idle
  | check
  | attempt (a : Attempt)
  | clearStopping
  | spawn
deriving DecidableEq, Repr

/-- Where `connect()` goes on behind a step of its attempt. -/
def ConnectPc.after : Progress → ConnectPc
  | .next a => .attempt a
  | .failed => .idle
  | .done => .clearStopping

/-- Where the reconnect thread stands, with its `attempts`. -/
inductive ReconnectPc
  | none
  | check (attempts : ℕ)
  | sleep (attempts : ℕ)
  | attempt (attempts : ℕ) (a : Attempt)
  | ending
deriving DecidableEq, Repr

/-- Where the reconnect thread goes on behind a step of its attempt. -/
def ReconnectPc.after (attempts : ℕ) : Progress → ReconnectPc
  | .next a => .attempt attempts a
  | .failed => .check attempts
  | .done => .ending

/-- Where `io_thread_` stands; it is joinable unless there is none. -/
inductive IoPc
  | none
  | started
  | loop
  | lost
  | closing
  | restarting
  | starting
  | finished
deriving DecidableEq, Repr

inductive DisconnectPc
  | idle
  | clear
  | join
  | close
deriving DecidableEq, Repr

/-- The members of a `ServiceProxy` and of its connection, and where its threads stand.
`final` is not a variable of the program: `disconnect()` has returned, and `connect()` has
not been called since. -/
structure Session where
  connected : Bool
  stopping : Bool
  reconnecting : Bool
  /-- `fd_` of the connection. -/
  fd : Option ℕ
  /-- `connected_` of the connection. -/
  linked : Bool
  opened : ℕ
  sockets : Finset ℕ
  /-- The sockets in the epoll set. -/
  registered : Finset ℕ
  connector : ConnectPc
  disconnector : DisconnectPc
  io : IoPc
  reconnector : ReconnectPc
  /-- `std::terminate` has been called. -/
  aborted : Bool
  final : Bool

inductive Outcome
  | ok
  | fails
  | refused
deriving DecidableEq, Repr

/-- What `recvMessage` meets: a message or the want of a buffer, a time-out, the end of
the stream or a failure, a message that it refuses. -/
inductive Message
  | taken
  | timedOut
  | closed
  | refused
deriving DecidableEq, Repr

inductive IoEvent
  | register (accepted : Bool)
  | hangUp
  | message (m : Message)
  | advance
  | exit
deriving DecidableEq, Repr

inductive Event
  | connect
  | connector (o : Outcome)
  | reconnector (o : Outcome)
  | io (ev : IoEvent)
  | disconnect
  | disconnector
deriving DecidableEq, Repr

namespace Session

/-- `::close(fd_)` and `fd_ = -1`. -/
def closeFd (s : Session) : Session :=
  match s.fd with
  | none => s
  | some d =>
      { s with
        fd := none
        sockets := s.sockets.erase d
        registered := s.registered.erase d }

/-- `ProxyConnection::disconnect`. -/
def closeConn (s : Session) : Session := { s.closeFd with linked := false }

def ready (s : Session) : Bool := s.linked && s.fd.isSome

/-- `socket()`; the descriptor replaces the one before. -/
def openSocket (s : Session) (o : Outcome) : Session × Progress :=
  if s.linked then (s, .failed)
  else if o = .ok then
    ({ s with
      fd := some s.opened
      sockets := insert s.opened s.sockets
      opened := s.opened + 1 }, .next .link)
  else ({ s with fd := none }, .failed)

/-- `recvHandshakeWelcome`, which ignores every error. -/
def recvWelcome (s : Session) (o : Outcome) : Session :=
  if s.ready then
    match o with
    | .ok => s
    | .fails => { s with linked := false }
    | .refused => s.closeConn
  else s

/-- The next step of `doConnect`. -/
def attemptStep (s : Session) (a : Attempt) (o : Outcome) : Session × Progress :=
  match a with
  | .resolve => if o = .ok then (s, .next .socket) else (s, .failed)
  | .socket => s.openSocket o
  | .link => if s.fd.isSome ∧ o = .ok then (s, .next .mark) else (s.closeFd, .failed)
  | .mark => ({ s with linked := true }, .next .hello)
  | .hello => if s.ready ∧ o = .ok then (s, .next .welcome) else (s.closeConn, .failed)
  | .welcome => (s.recvWelcome o, .next .notify)
  | .notify => if o = .ok then (s, .next .publish) else (s.closeConn, .failed)
  | .publish => ({ s with connected := true }, .done)

/-- The next step of `connect()`. Giving a new thread to a joinable `io_thread_` ends the
program. -/
def connectStep (s : Session) (o : Outcome) : Session :=
  match s.connector with
  | .idle => s
  | .check => { s with connector := if s.connected then .idle else .attempt .resolve }
  | .attempt a =>
      let r := s.attemptStep a o
      { r.1 with connector := .after r.2 }
  | .clearStopping =>
      { s with
        stopping := false
        connector := .spawn }
  | .spawn =>
      if s.io = .none then
        { s with
          io := .started
          connector := .idle }
      else { s with aborted := true }

def reconnectStep (maxAttempts : ℤ) (s : Session) (o : Outcome) : Session :=
  match s.reconnector with
  | .none => s
  | .check attempts =>
      if s.stopping ∨ (0 < maxAttempts ∧ maxAttempts ≤ attempts) then
        { s with reconnector := .ending }
      else { s with reconnector := .sleep attempts }
  | .sleep attempts => { s with reconnector := .attempt (attempts + 1) .resolve }
  | .attempt attempts a =>
      let r := s.attemptStep a o
      { r.1 with reconnector := .after attempts r.2 }
  | .ending =>
      { s with
        reconnecting := false
        reconnector := .none }

/-- `onSocketEvent` with a readable socket. -/
def receive (s : Session) (m : Message) : Session :=
  if s.ready then
    match m with
    | .taken => s
    | .timedOut => { s with linked := false }
    | .closed =>
        { s with
          linked := false
          io := .lost }
    | .refused => s.closeConn
  else s

/-- `addFd` at the start of the io thread. -/
def register (s : Session) (accepted : Bool) : Session :=
  { s with
    io := .loop
    registered :=
      match s.fd with
      | none => s.registered
      | some d => if accepted then insert d s.registered else s.registered }

/-- The next step of the io thread. Events come from the sockets in the epoll set. -/
def ioStep (maxAttempts : ℤ) (s : Session) (ev : IoEvent) : Session :=
  match s.io, ev with
  | .started, .register accepted => s.register accepted
  | .loop, .hangUp => if s.registered.Nonempty then { s with io := .lost } else s
  | .loop, .message m => if s.registered.Nonempty then s.receive m else s
  | .loop, .exit => { s with io := .finished }
  -- `doDisconnect`
  | .lost, .advance =>
      { s with
        connected := false
        io := .closing }
  | .closing, .advance => { s.closeConn with io := .restarting }
  | .restarting, .advance =>
      { s with io := if !s.stopping && maxAttempts != 0 then .starting else .loop }
  | .starting, .advance =>
      if s.reconnecting then { s with io := .loop }
      else
        { s with
          reconnecting := true
          reconnector := .check 0
          io := .loop }
  | _, _ => s

/-- The next step of `disconnect()`. It waits for the io thread, whose loop has been
stopped. -/
def disconnectStep (s : Session) : Session :=
  match s.disconnector with
  | .idle => s
  | .clear =>
      { s with
        connected := false
        disconnector := .join }
  | .join =>
      if s.io = .none ∨ s.io = .finished then
        { s with
          io := .none
          disconnector := .close }
      else s
  | .close =>
      { s.closeConn with
        disconnector := .idle
        final := true }

def step (maxAttempts : ℤ) (s : Session) (ev : Event) : Session :=
  if s.aborted then s
  else
    match ev with
    | .connect =>
        if s.connector = .idle then
          { s with
            connector := .check
            final := false }
        else s
    | .connector o => s.connectStep o
    | .reconnector o => s.reconnectStep maxAttempts o
    | .io ev => s.ioStep maxAttempts ev
    | .disconnect =>
        if s.disconnector = .idle then
          { s with
            stopping := true
            disconnector := .clear }
        else s
    | .disconnector => s.disconnectStep

/-- A proxy that has not connected. -/
def initial : Session where
  connected := false
  stopping := false
  reconnecting := false
  fd := none
  linked := false
  opened := 0
  sockets := ∅
  registered := ∅
  connector := .idle
  disconnector := .idle
  io := .none
  reconnector := .none
  aborted := false
  final := false

theorem step_of_aborted {maxAttempts : ℤ} {s : Session} {ev : Event} (h : s.aborted = true) :
    s.step maxAttempts ev = s := if_pos h

/-- From `s` to `s'` only the connection has changed: no socket has got into the epoll set,
and the descriptor is the same, or a new one, or gone. -/
structure ConnChange (s s' : Session) : Prop where
  frame : s' = { s with
    fd := s'.fd
    linked := s'.linked
    opened := s'.opened
    sockets := s'.sockets
    registered := s'.registered }
  registered : s'.registered ⊆ s.registered
  opened : s.opened ≤ s'.opened
  fd : ∀ d, s'.fd = some d → s.fd = some d ∨ d = s.opened ∧ d < s'.opened

variable {s s' : Session}

theorem ConnChange.connected (h : ConnChange s s') : s'.connected = s.connected := by
  rw [h.frame]

theorem ConnChange.refl (s : Session) : ConnChange s s :=
  ⟨rfl, subset_rfl, le_rfl, fun _ => .inl⟩

theorem ConnChange.setLinked (s : Session) (linked : Bool) :
    ConnChange s { s with linked := linked } :=
  ⟨rfl, subset_rfl, le_rfl, fun _ => .inl⟩

theorem ConnChange.closeFd (s : Session) : ConnChange s s.closeFd := by
  unfold Session.closeFd
  cases hfd : s.fd with
  | none => exact .refl s
  | some d => exact ⟨rfl, Finset.erase_subset d _, le_rfl, nofun⟩

@[simp] theorem fd_closeFd (s : Session) : s.closeFd.fd = none := by
  unfold Session.closeFd
  split
  · assumption
  · rfl

theorem ConnChange.closeConn (s : Session) : ConnChange s s.closeConn := by
  have h := ConnChange.closeFd s
  refine ⟨?_, h.registered, h.opened, h.fd⟩
  rw [Session.closeConn, h.frame]

@[simp] theorem fd_closeConn (s : Session) : s.closeConn.fd = none := fd_closeFd s

theorem ConnChange.openSocket (s : Session) (o : Outcome) : ConnChange s (s.openSocket o).1 := by
  unfold Session.openSocket
  split_ifs
  · exact .refl s
  · refine ⟨rfl, subset_rfl, Nat.le_succ _, fun d hd => .inr ?_⟩
    obtain rfl := Option.some.inj hd
    exact ⟨rfl, Nat.lt_succ_self _⟩
  · exact ⟨rfl, subset_rfl, le_rfl, nofun⟩

theorem ConnChange.recvWelcome (s : Session) (o : Outcome) : ConnChange s (s.recvWelcome o) := by
  unfold Session.recvWelcome
  split_ifs
  · cases o with
    | ok => exact .refl s
    | fails => exact .setLinked s false
    | refused => exact .closeConn s
  · exact .refl s

theorem ConnChange.attemptStep (s : Session) {a : Attempt} (ha : a ≠ .publish) (o : Outcome) :
    ConnChange s (s.attemptStep a o).1 ∧ (s.attemptStep a o).2 ≠ .done := by
  cases a with
  | resolve =>
      simp only [Session.attemptStep]
      split_ifs <;> exact ⟨.refl s, nofun⟩
  | socket =>
      refine ⟨.openSocket s o, ?_⟩
      simp only [Session.attemptStep, Session.openSocket]
      split_ifs <;> nofun
  | link =>
      simp only [Session.attemptStep]
      split_ifs
      · exact ⟨.refl s, nofun⟩
      · exact ⟨.closeFd s, nofun⟩
  | mark => exact ⟨.setLinked s true, nofun⟩
  | hello =>
      simp only [Session.attemptStep]
      split_ifs
      · exact ⟨.refl s, nofun⟩
      · exact ⟨.closeConn s, nofun⟩
  | welcome => exact ⟨.recvWelcome s o, nofun⟩
  | notify =>
      simp only [Session.attemptStep]
      split_ifs
      · exact ⟨.refl s, nofun⟩
      · exact ⟨.closeConn s, nofun⟩
  | publish => exact absurd rfl ha

end Session

end SessionLifecycle

end Proxy

end Shinigami
