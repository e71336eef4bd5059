import Mathlib.Data.Int.Notation
import Mathlib.Logic.Function.Basic
import Shinigami.Foundations.Run

/-!
# io_uring event loop

`io_uring_loop.c` as a state machine. A call of `process_cqe` that invokes a
callback stops there: the calls that the callback makes are events of their own, and
the event `ret` is its return, with the re-arming that follows. The kernel may
complete any request in flight, in any order.

A submission takes its entry of the ring before it allocates memory. When there is none,
the entry stays in the ring as it was, and the next `io_uring_submit` sends it with the
operation and the user data of an earlier request, or zeroed. `io_loop_submit_write` also
frees the memory of an entry that could not be submitted and stays in the ring.

A registration is one successful `io_loop_register_op`. The program does not number
them; `owner`, `nextRegistration`, the field `registration` of a request and the log
`invoked` are kept along to say which registration a request and a callback belong to.
-/

namespace Shinigami

namespace Core

def maxOps : ℕ := 64

def wakeupOpIdx : ℤ := -1

def writeOpIdx : ℤ := -2

def eInval : ℤ := 22

def eNoMem : ℤ := 12

def eTime : ℤ := 62

/-- `io_op_type_t`. -/
inductive IoOpType
  | read
  | write
  | accept
  | timeout
  | cancel
  | poll
deriving DecidableEq

/-- `io_op_desc_t`; the callback is a function by number, or `none` for a null
pointer. -/
structure IoOpDesc where
  fd : ℤ
  opType : IoOpType
  bufSize : ℕ
  callback : Option ℕ
  userData : ℕ
  timeoutMs : ℕ

/-- A slot of the table in zeroed memory. -/
def IoOpDesc.zero : IoOpDesc := ⟨0, .read, 0, none, 0, 0⟩

/-- `io_pending_t`: what a request in flight carries. -/
structure IoPending where
  opIdx : ℤ
  writeCb : Option ℕ
  writeFd : ℤ
  writeUserData : ℕ
  registration : Option ℕ

/-- An entry of the ring that is queued or in flight. The user data of a `leftover` is null or
points to memory that has been freed. -/
inductive Request
  | prepared (p : IoPending)
  | leftover

/-- How a submission ends: no entry in the ring, no memory behind the entry, or the entry is
prepared. -/
inductive Submission
  | noRoom
  | unprepared
  | prepared

/-- What the thread of the loop is doing: outside `io_loop_run`, waiting for a
completion, or in a callback. -/
inductive LoopPhase
  | idle
  | waiting
  | opCallback (opIdx : ℕ) (opType : IoOpType) (result : ℤ)
  | writeCallback
deriving DecidableEq

structure Invocation where
  callback : Option ℕ
  fd : ℤ
  result : ℤ
  userData : ℕ
  submittedFor : Option ℕ
  calledFor : Option ℕ

/-- `struct io_uring_loop`. -/
structure IoLoop where
  ops : ℕ → IoOpDesc
  opCount : ℕ
  inFlight : List Request
  phase : LoopPhase
  owner : ℕ → Option ℕ
  nextRegistration : ℕ
  invoked : List Invocation

/-- `io_loop_create`. -/
def ioLoopCreate : IoLoop := ⟨fun _ => .zero, 0, [], .idle, fun _ => none, 0, []⟩

def opPending (l : IoLoop) (opIdx : ℕ) : IoPending :=
  ⟨opIdx, none, 0, 0, l.owner opIdx⟩

/-- `io_uring_get_sqe`, the allocations and the preparation of the entry. -/
def submitPending (l : IoLoop) (p : IoPending) : Submission → IoLoop
  | .noRoom => l
  | .unprepared => { l with inFlight := l.inFlight ++ [.leftover] }
  | .prepared => { l with inFlight := l.inFlight ++ [.prepared p] }

/-- `submit_wakeup_read`. -/
def submitWakeupRead (l : IoLoop) (out : Submission) : IoLoop :=
  submitPending l ⟨wakeupOpIdx, none, 0, 0, none⟩ out

/-- `submit_read_op`. -/
def submitReadOp (l : IoLoop) (opIdx : ℕ) (out : Submission) : IoLoop :=
  if (l.ops opIdx).fd < 0 ∨ (l.ops opIdx).bufSize = 0 then l
  else submitPending l (opPending l opIdx) out

/-- `submit_poll_op`. -/
def submitPollOp (l : IoLoop) (opIdx : ℕ) (out : Submission) : IoLoop :=
  if (l.ops opIdx).fd < 0 then l else submitPending l (opPending l opIdx) out

/-- `submit_timeout_op`. -/
def submitTimeoutOp (l : IoLoop) (opIdx : ℕ) (out : Submission) : IoLoop :=
  submitPending l (opPending l opIdx) out

/-- The slot that `io_loop_register_op` fills: one with a cleared descriptor and the
same type, else the next one. -/
def registerSlot (l : IoLoop) (desc : IoOpDesc) : Option ℕ :=
  match (List.range l.opCount).find? fun i =>
      decide ((l.ops i).fd < 0) && (l.ops i).opType == desc.opType with
  | some i => some i
  | none => if l.opCount ≥ maxOps then none else some l.opCount

/-- `io_loop_register_op`. -/
def ioLoopRegisterOp (l : IoLoop) (desc : IoOpDesc) : IoLoop × ℤ :=
  match registerSlot l desc with
  | none => (l, -eNoMem)
  | some i =>
      ({ l with
          ops := Function.update l.ops i desc
          opCount := max l.opCount (i + 1)
          owner := Function.update l.owner i (some l.nextRegistration)
          nextRegistration := l.nextRegistration + 1 }, i)

/-- The slot that `io_loop_unregister_fd` clears. -/
def unregisterSlot (l : IoLoop) (fd : ℤ) : Option ℕ :=
  if fd < 0 then none
  else (List.range l.opCount).find? fun i => (l.ops i).fd == fd

/-- `io_loop_unregister_fd`. -/
def ioLoopUnregisterFd (l : IoLoop) (fd : ℤ) : IoLoop × ℤ :=
  match unregisterSlot l fd with
  | none => (l, if fd < 0 then -eInval else -1)
  | some i =>
      ({ l with
          ops := Function.update l.ops i { l.ops i with fd := -1 }
          owner := Function.update l.owner i none }, 0)

/-- `io_loop_clear_ops`. -/
def ioLoopClearOps (l : IoLoop) : IoLoop :=
  { l with ops := fun _ => .zero, opCount := 0, owner := fun _ => none }

/-- `io_loop_submit_write` of a non-empty buffer; `submitOk` is the answer of
`io_uring_submit`, without which a prepared entry loses its memory. -/
def ioLoopSubmitWrite (l : IoLoop) (fd : ℤ) (cb : Option ℕ) (userData : ℕ) (out : Submission)
    (submitOk : Bool) : IoLoop :=
  if fd < 0 then l
  else
    match out, submitOk with
    | .prepared, false => submitPending l ⟨writeOpIdx, cb, fd, userData, none⟩ .unprepared
    | out, _ => submitPending l ⟨writeOpIdx, cb, fd, userData, none⟩ out

/-- The first submission for slot `i` in `io_loop_run`. -/
def submitInitial (out : ℕ → Submission) (l : IoLoop) (i : ℕ) : IoLoop :=
  if (l.ops i).opType = .read ∧ (l.ops i).fd ≥ 0 then submitReadOp l i (out i)
  else if (l.ops i).opType = .poll ∧ (l.ops i).fd ≥ 0 then submitPollOp l i (out i)
  else if (l.ops i).opType = .timeout then submitTimeoutOp l i (out i)
  else l

/-- The start of `io_loop_run`, up to its main loop. -/
def ioLoopRun (l : IoLoop) (out : ℕ → Submission) (wakeup : Submission) (submitOk : Bool) :
    IoLoop :=
  let l := submitWakeupRead ((List.range l.opCount).foldl (submitInitial out) l) wakeup
  if submitOk then { l with phase := .waiting } else l

/-- The end of `process_cqe` for a slot, behind the callback: the re-arming in the
branch of `opType`. -/
def rearm (l : IoLoop) (opIdx : ℕ) (opType : IoOpType) (result rc : ℤ)
    (stopFlag : Bool) (out : Submission) : IoLoop :=
  match opType with
  | .timeout =>
      if stopFlag ∧ rc = 0 ∧ (l.ops opIdx).fd ≥ -1 then submitTimeoutOp l opIdx out else l
  | .read =>
      if stopFlag ∧ result > 0 ∧ rc = 0 ∧ (l.ops opIdx).fd ≥ 0 then submitReadOp l opIdx out
      else l
  | .poll =>
      if stopFlag ∧ result > 0 ∧ rc = 0 ∧ (l.ops opIdx).fd ≥ 0 then submitPollOp l opIdx out
      else l
  | _ => l

def callsBack (d : IoOpDesc) (result : ℤ) : Bool :=
  d.callback.isSome &&
    match d.opType with
    | .timeout => result == -eTime || result == 0
    | .read => true
    | .poll => true
    | _ => false

/-- `process_cqe`, up to the callback if there is one. -/
def processCqe (l : IoLoop) (p : IoPending) (result : ℤ) (stopFlag : Bool)
    (out : Submission) : IoLoop :=
  if p.opIdx = wakeupOpIdx then if stopFlag then submitWakeupRead l out else l
  else if p.opIdx = writeOpIdx then
    if p.writeCb.isSome then { l with phase := .writeCallback } else l
  else if p.opIdx < 0 ∨ p.opIdx ≥ l.opCount then l
  else
    let opIdx := p.opIdx.toNat
    let d := l.ops opIdx
    if callsBack d result then
      { l with
        phase := .opCallback opIdx d.opType result
        invoked := l.invoked ++
          [⟨d.callback, d.fd, result, d.userData, p.registration, l.owner opIdx⟩] }
    else rearm l opIdx d.opType result 0 stopFlag out

/-- The memory behind the user data of a completed request. For a leftover it is whatever
stands there now, or `none` when the user data is null; it has no registration. -/
def Request.pending (found : Option IoPending) : Request → Option IoPending
  | .prepared p => some p
  | .leftover => found.map fun p => { p with registration := none }

/-- The steps of the loop, of its callbacks and of the program between two runs. -/
inductive LoopEvent
  | register (desc : IoOpDesc)
  | unregister (fd : ℤ)
  | clear
  | submitWrite (fd : ℤ) (cb : Option ℕ) (userData : ℕ) (out : Submission) (submitOk : Bool)
  | enter (out : ℕ → Submission) (wakeup : Submission) (submitOk : Bool)
  | complete (k : ℕ) (found : Option IoPending) (result : ℤ) (stopFlag : Bool)
      (out : Submission)
  | ret (rc : ℤ) (stopFlag : Bool) (out : Submission)
  | leave

def loopStep (l : IoLoop) : LoopEvent → IoLoop
  | .register desc => (ioLoopRegisterOp l desc).1
  | .unregister fd => (ioLoopUnregisterFd l fd).1
  | .clear => ioLoopClearOps l
  | .submitWrite fd cb userData out submitOk =>
      ioLoopSubmitWrite l fd cb userData out submitOk
  | .enter out wakeup submitOk =>
      if l.phase = .idle then ioLoopRun l out wakeup submitOk else l
  | .complete k found result stopFlag out =>
      if l.phase = .waiting then
        match l.inFlight[k]? with
        | none => l
        | some request =>
            let l := { l with inFlight := l.inFlight.eraseIdx k }
            match request.pending found with
            | none => l
            | some p => processCqe l p result stopFlag out
      else l
  | .ret rc stopFlag out =>
      match l.phase with
      | .opCallback opIdx opType result =>
          rearm { l with phase := .waiting } opIdx opType result rc stopFlag out
      | .writeCallback => { l with phase := .waiting }
      | _ => l
  | .leave => if l.phase = .waiting then { l with phase := .idle } else l

end Core

end Shinigami
