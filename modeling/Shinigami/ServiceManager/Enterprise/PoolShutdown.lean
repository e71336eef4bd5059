import Mathlib.Data.List.Perm.Basic
import Mathlib.Data.List.Range
import Shinigami.Foundations.Run
import Shinigami.ServiceManager.Enterprise.ThreadPool

/-!
# Shutting the thread pool down

All interleavings of submitters, workers and the two kinds of shutdown. A call
first reads `g_pool_initialized` and checks its arguments; what it does under the
mutex is a step of its own, or two for `sm_threadpool_submit`, which looks for room and
then stores the task. A shutdown waits in a further step for the workers, and
`sm_threadpool_force_shutdown` then frees the pool and clears `g_pool_initialized` in two
more, without the mutex. `sm_threadpool_init` is one step; joining a worker that has been
joined before returns at once.

Accepted tasks are numbered, and a task carries its number through the queue. The
histories are read by no operation: the numbers that a worker has taken, those that
left the queue otherwise (`discarded`), those that were accepted when no worker was
left (`late`), and whether a shutdown has returned since the last initialisation
(`down`).
-/

namespace Shinigami

namespace ServiceManager

namespace PoolShutdown

open Threadpool

variable {η κ : Type}

inductive Worker where
  | ready
  | executing
  | exited
deriving DecidableEq, Repr

inductive Api (η κ : Type) where
  | submit (task : Task η κ)
  | setMaxQueue (newSize : ℤ)
  | shutdown
  | forceShutdown

/-- A call in progress, in front of its next step. A graceful shutdown knows the
numbers that the pool had accepted when it was called, from `since` to `upTo`. -/
inductive Call (η κ : Type) where
  | submit (task : Task η κ)
  | submitStore (task : Task η κ)
  | setMaxQueue (newSize : ℤ)
  | shutdown (since upTo : ℕ)
  | shutdownJoin (since upTo : ℕ)
  | forceShutdown
  | forceShutdownJoin
  | forceShutdownFree
  | forceShutdownClear

def Call.holdsMutex : Call η κ → Bool
  | .submitStore _ => true
  | _ => false

def Call.frees : Call η κ → Bool
  | .forceShutdownFree => true
  | .forceShutdownClear => true
  | _ => false

structure State (η κ : Type) where
  pool : Threadpool (ℕ × Task η κ)
  poolInitialized : Bool
  workers : List Worker
  calls : List (Call η κ)
  accepted : ℕ
  since : ℕ
  dequeued : List ℕ
  discarded : List ℕ
  late : List ℕ
  down : Bool

/-- The pool of a process that has not used it. -/
def initial : State η κ where
  pool := zeroed
  poolInitialized := false
  workers := []
  calls := []
  accepted := 0
  since := 0
  dequeued := []
  discarded := []
  late := []
  down := false

inductive Event (η κ : Type) where
  | init (workerCount queueMaxSize : ℤ) (calls : InitCalls)
  | call (api : Api η κ)
  | resume (i : ℕ) (newQueue : Option (ℕ → ℕ × Task η κ))
  | dequeue (w : ℕ)
  | finish (w : ℕ)
  | exit (w : ℕ)

def queuedNumbers (p : Threadpool (ℕ × Task η κ)) : List ℕ := p.heldTasks.map Prod.fst

/-- `queue_mutex` is taken. -/
def State.locked (s : State η κ) : Bool := s.calls.any Call.holdsMutex

def AllExited (s : State η κ) : Prop := ∀ worker ∈ s.workers, worker = .exited

instance (s : State η κ) : Decidable (AllExited s) :=
  inferInstanceAs (Decidable (∀ worker ∈ s.workers, worker = .exited))

/-- `g_pool` is written; what it does not hold any more is discarded. -/
def State.writePool (s : State η κ) (p : Threadpool (ℕ × Task η κ)) : State η κ :=
  { s with
    pool := p
    discarded := s.discarded ++ (queuedNumbers s.pool).diff (queuedNumbers p) }

/-- `sm_threadpool_init`. -/
def State.init (s : State η κ) (workerCount queueMaxSize : ℤ) (calls : InitCalls) :
    State η κ :=
  let result := smThreadpoolInit s.pool s.poolInitialized workerCount queueMaxSize calls
  let s' := { s.writePool result.1 with poolInitialized := result.2.1 }
  if result.2.2 = 0 then
    { s' with
      workers := List.replicate result.1.threadCount.toNat .ready
      since := s.accepted
      down := false }
  else s'

/-- A call up to the mutex; what is refused here returns at once. -/
def State.call (s : State η κ) : Api η κ → State η κ
  | .submit task =>
      if !s.poolInitialized then s
      else if ¬task.Valid then s
      else { s with calls := s.calls ++ [.submit task] }
  | .setMaxQueue newSize =>
      if !s.poolInitialized then s
      else if newSize ≤ 0 ∨ newSize > 4096 then s
      else { s with calls := s.calls ++ [.setMaxQueue newSize] }
  | .shutdown =>
      if !s.poolInitialized then { s with down := true }
      else { s with calls := s.calls ++ [.shutdown s.since s.accepted] }
  | .forceShutdown =>
      if !s.poolInitialized then { s with down := true }
      else { s with calls := s.calls ++ [.forceShutdown] }

/-- `sm_threadpool_submit` behind its check for room. -/
def State.store (s : State η κ) (task : Task η κ) : State η κ :=
  { s with
    pool := s.pool.storeTask (s.accepted, task)
    accepted := s.accepted + 1
    late := if AllExited s then s.late ++ [s.accepted] else s.late }

/-- The next step of a call in progress. What needs the mutex waits for it, and the joins
wait for the workers; what frees the pool waits for nobody. -/
def State.resume (s : State η κ) (i : ℕ) (newQueue : Option (ℕ → ℕ × Task η κ)) :
    State η κ :=
  match s.calls[i]? with
  | none => s
  | some (.submit task) =>
      if s.locked then s
      else if s.pool.queueUsed ≥ s.pool.queueMaxSize then
        { s with calls := s.calls.eraseIdx i }
      else { s with calls := s.calls.set i (.submitStore task) }
  | some (.submitStore task) => { s.store task with calls := s.calls.eraseIdx i }
  | some (.setMaxQueue newSize) =>
      if s.locked then s
      else
        { s with
          pool := (setMaxQueueLocked s.pool newSize newQueue).1
          calls := s.calls.eraseIdx i }
  | some (.shutdown since upTo) =>
      if s.locked then s
      else
        { s with
          pool := shutdownLocked s.pool
          calls := s.calls.set i (.shutdownJoin since upTo) }
  | some (.shutdownJoin _ _) =>
      if AllExited s then { s with calls := s.calls.eraseIdx i, down := true } else s
  | some .forceShutdown =>
      if s.locked then s
      else
        { s.writePool (forceShutdownLocked s.pool) with
          calls := s.calls.set i .forceShutdownJoin }
  | some .forceShutdownJoin =>
      if AllExited s then { s with calls := s.calls.set i .forceShutdownFree } else s
  | some .forceShutdownFree =>
      { s.writePool zeroed with
        workers := []
        calls := s.calls.set i .forceShutdownClear }
  | some .forceShutdownClear =>
      { s with
        poolInitialized := false
        calls := s.calls.eraseIdx i
        down := true }

def State.dequeue (s : State η κ) (w : ℕ) : State η κ :=
  if s.workers[w]? = some .ready ∧ s.locked = false then
    match takeTask s.pool with
    | none => s
    | some (task, pool) =>
        { s with
          pool := pool
          workers := s.workers.set w .executing
          dequeued := s.dequeued ++ [task.1] }
  else s

def State.finish (s : State η κ) (w : ℕ) : State η κ :=
  if s.workers[w]? = some .executing then { s with workers := s.workers.set w .ready }
  else s

def State.exit (s : State η κ) (w : ℕ) : State η κ :=
  if (s.workers[w]? = some .ready ∧ s.locked = false) ∧ WorkerExits s.pool then
    { s with workers := s.workers.set w .exited }
  else s

def step (s : State η κ) : Event η κ → State η κ
  | .init workerCount queueMaxSize calls => s.init workerCount queueMaxSize calls
  | .call api => s.call api
  | .resume i newQueue => s.resume i newQueue
  | .dequeue w => s.dequeue w
  | .finish w => s.finish w
  | .exit w => s.exit w

/-- No submission returns 0 once a shutdown has returned, and what the pool had accepted
when a graceful shutdown was called has been taken by a worker when it returns. -/
def Call.Lawful (s : State η κ) : Call η κ → Prop
  | .submitStore _ => s.down = false
  | .shutdownJoin since upTo => AllExited s → ∀ n < upTo, since ≤ n → n ∈ s.dequeued
  | _ => True

/-- No submission finds room once a shutdown has returned, and none has found room and not
returned yet when a graceful shutdown returns. Nothing that the pool had accepted when that
was called was discarded then or came after the last worker had gone. A pool is freed only
while no other call is in progress. -/
def Call.InTime (s : State η κ) : Call η κ → Prop
  | .submit _ =>
      s.locked = false → s.down = true → s.pool.queueUsed ≥ s.pool.queueMaxSize
  | .shutdownJoin since upTo =>
      AllExited s → s.locked = false ∧
        ∀ n < upTo, since ≤ n → n ∉ s.discarded ∧ n ∉ s.late
  | .forceShutdownJoin => AllExited s → s.calls.length = 1
  | _ => True

instance (s : State η κ) (c : Call η κ) : Decidable (c.InTime s) := by
  cases c <;> unfold Call.InTime <;> infer_instance

/-- Every call in progress comes in time, and while the pool is freed no call gets past its
check of `g_pool_initialized`. -/
def InTime (s : State η κ) : Event η κ → Prop
  | .resume i _ => ∀ c ∈ s.calls[i]?, c.InTime s
  | .call api =>
      s.calls.any Call.frees = true → (s.call api).calls.length = s.calls.length
  | _ => True

instance (s : State η κ) (ev : Event η κ) : Decidable (InTime s ev) := by
  cases ev <;> unfold InTime <;> infer_instance

/-! ## What becomes of accepted tasks -/

def Call.upTo : Call η κ → ℕ
  | .shutdown _ upTo => upTo
  | .shutdownJoin _ upTo => upTo
  | _ => 0

/-- Every accepted task has been taken, is in the queue, or was discarded; the late
ones are never taken, and they are what a pool without workers holds. -/
structure Accounted (s : State η κ) : Prop where
  inRange : InRange s.pool
  numbers : (s.dequeued ++ queuedNumbers s.pool ++ s.discarded).Perm (List.range s.accepted)
  late_lt : ∀ n ∈ s.late, n < s.accepted
  late_not_dequeued : ∀ n ∈ s.late, n ∉ s.dequeued
  late_of_queued : AllExited s → ∀ n ∈ queuedNumbers s.pool, n ∈ s.late
  exited_of_late : ∀ n ∈ s.late, n ∈ queuedNumbers s.pool → AllExited s
  upTo_le : ∀ c ∈ s.calls, c.upTo ≤ s.accepted

structure SameTasks (s s' : State η κ) : Prop where
  dequeued : s'.dequeued = s.dequeued
  late : s'.late = s.late
  accepted : s'.accepted = s.accepted

theorem Accounted.of_same_queue {s s' : State η κ} (h : Accounted s)
    (hsame : SameTasks s s') (hrange : InRange s'.pool)
    (hqueued : queuedNumbers s'.pool = queuedNumbers s.pool)
    (hdiscarded : s'.discarded = s.discarded) (hexited : AllExited s' ↔ AllExited s)
    (hcalls : ∀ c ∈ s'.calls, c.upTo ≤ s.accepted) : Accounted s' := by
  obtain ⟨hdequeued, hlate, haccepted⟩ := hsame
  constructor
  · exact hrange
  · rw [hdequeued, hqueued, hdiscarded, haccepted]
    exact h.numbers
  · rw [hlate, haccepted]
    exact h.late_lt
  · rw [hlate, hdequeued]
    exact h.late_not_dequeued
  · rw [hexited, hqueued, hlate]
    exact h.late_of_queued
  · rw [hexited, hqueued, hlate]
    exact h.exited_of_late
  · rw [haccepted]
    exact hcalls

theorem Accounted.of_empty_queue {s s' : State η κ} (h : Accounted s)
    (hsame : SameTasks s s') (hrange : InRange s'.pool)
    (hqueued : queuedNumbers s'.pool = [])
    (hdiscarded : s'.discarded = s.discarded ++ queuedNumbers s.pool)
    (hcalls : ∀ c ∈ s'.calls, c.upTo ≤ s.accepted) : Accounted s' := by
  obtain ⟨hdequeued, hlate, haccepted⟩ := hsame
  constructor
  · exact hrange
  · rw [hdequeued, hqueued, hdiscarded, haccepted, List.append_nil]
    refine List.Perm.trans ?_ h.numbers
    rw [List.append_assoc]
    exact List.perm_append_comm.append_left _
  · rw [hlate, haccepted]
    exact h.late_lt
  · rw [hlate, hdequeued]
    exact h.late_not_dequeued
  · rw [hqueued]
    intro _ n hn
    cases hn
  · rw [hqueued]
    intro n _ hn
    cases hn
  · rw [haccepted]
    exact hcalls

theorem diff_self (l : List ℕ) : l.diff l = [] := by
  induction l with
  | nil => rfl
  | cons n l ih => rw [List.diff_cons, List.erase_cons_head, ih]

theorem queuedNumbers_of_used_eq_zero {p : Threadpool (ℕ × Task η κ)}
    (h : p.queueUsed = 0) : queuedNumbers p = [] := by
  rw [queuedNumbers, heldTasks_of_used_eq_zero h]
  rfl

theorem writePool_discarded {s : State η κ} {p : Threadpool (ℕ × Task η κ)}
    (h : queuedNumbers p = []) :
    (s.writePool p).discarded = s.discarded ++ queuedNumbers s.pool := by
  rw [State.writePool, h]
  rfl

theorem Accounted.init {s : State η κ} (h : Accounted s) (workerCount queueMaxSize : ℤ)
    (calls : InitCalls) : Accounted (s.init workerCount queueMaxSize calls) := by
  unfold State.init
  rcases smThreadpoolInit_cases s.pool s.poolInitialized workerCount queueMaxSize calls with
    heq | ⟨-, heq⟩ | ⟨-, w, q, -, hq, heq⟩
  · rw [heq]
    refine h.of_same_queue ⟨rfl, rfl, rfl⟩ h.inRange rfl ?_ Iff.rfl h.upTo_le
    simp [State.writePool, diff_self]
  · rw [heq]
    have hempty : queuedNumbers (zeroed : Threadpool (ℕ × Task η κ)) = [] :=
      queuedNumbers_of_used_eq_zero rfl
    exact h.of_empty_queue ⟨rfl, rfl, rfl⟩ inRange_zeroed hempty
      (writePool_discarded hempty) h.upTo_le
  · rw [heq]
    exact h.of_empty_queue ⟨rfl, rfl, rfl⟩ (inRange_of_init hq)
      (queuedNumbers_of_used_eq_zero rfl)
      (writePool_discarded (queuedNumbers_of_used_eq_zero rfl)) h.upTo_le

theorem Accounted.call {s : State η κ} (h : Accounted s) (api : Api η κ) :
    Accounted (s.call api) := by
  have hadd : ∀ c : Call η κ, c.upTo ≤ s.accepted →
      Accounted { s with calls := s.calls ++ [c] } := by
    intro c hc
    refine h.of_same_queue ⟨rfl, rfl, rfl⟩ h.inRange rfl rfl Iff.rfl fun c' hc' => ?_
    rcases List.mem_append.mp hc' with hold | hnew
    · exact h.upTo_le c' hold
    · rw [List.mem_singleton.mp hnew]
      exact hc
  have hreturn : Accounted { s with down := true } :=
    h.of_same_queue ⟨rfl, rfl, rfl⟩ h.inRange rfl rfl Iff.rfl h.upTo_le
  cases api with
  | submit task =>
      unfold State.call
      dsimp only
      split_ifs
      · exact h
      · exact hadd _ (Nat.zero_le _)
      · exact h
  | setMaxQueue newSize =>
      unfold State.call
      dsimp only
      split_ifs
      · exact h
      · exact h
      · exact hadd _ (Nat.zero_le _)
  | shutdown =>
      unfold State.call
      dsimp only
      split_ifs
      · exact hreturn
      · exact hadd _ (le_refl _)
  | forceShutdown =>
      unfold State.call
      dsimp only
      split_ifs
      · exact hreturn
      · exact hadd _ (Nat.zero_le _)

theorem Accounted.fresh {s : State η κ} (h : Accounted s) : s.accepted ∉ s.dequeued := by
  intro hmem
  have hlt := h.numbers.subset (List.mem_append_left _ (List.mem_append_left _ hmem))
  exact absurd (List.mem_range.mp hlt) (lt_irrefl _)

theorem Accounted.numbers_concat {s : State η κ} (h : Accounted s) :
    (s.dequeued ++ (queuedNumbers s.pool ++ [s.accepted]) ++ s.discarded).Perm
      (List.range (s.accepted + 1)) := by
  rw [List.range_succ, ← List.append_assoc, List.append_assoc]
  apply List.Perm.trans (List.perm_append_comm.append_left _)
  rw [← List.append_assoc]
  exact h.numbers.append_right _

theorem Accounted.store {s : State η κ} (h : Accounted s)
    (hroom : s.pool.queueUsed < s.pool.queueMaxSize) (task : Task η κ) :
    Accounted (s.store task) := by
  obtain ⟨hrange, hheld⟩ := storeTask_spec h.inRange hroom (s.accepted, task)
  have hqueued : queuedNumbers (s.pool.storeTask (s.accepted, task)) =
      queuedNumbers s.pool ++ [s.accepted] := by
    rw [queuedNumbers, hheld, List.map_append]
    rfl
  have hnumbers := h.numbers_concat
  rw [← hqueued] at hnumbers
  have hcalls : ∀ c ∈ s.calls, c.upTo ≤ s.accepted + 1 := fun c hc =>
    (h.upTo_le c hc).trans (Nat.le_succ _)
  unfold State.store
  split_ifs with hnone
  · -- nobody is left to take it
    refine ⟨hrange, hnumbers, fun n hn => ?_, fun n hn => ?_, fun _ n hn => ?_,
      fun _ _ _ => hnone, hcalls⟩
    · rcases List.mem_append.mp hn with hold | hnew
      · exact (h.late_lt n hold).trans (Nat.lt_succ_self _)
      · rw [List.mem_singleton.mp hnew]
        exact Nat.lt_succ_self _
    · rcases List.mem_append.mp hn with hold | hnew
      · exact h.late_not_dequeued n hold
      · rw [List.mem_singleton.mp hnew]
        exact h.fresh
    · dsimp only at hn
      rw [hqueued] at hn
      rcases List.mem_append.mp hn with hold | hnew
      · exact List.mem_append_left _ (h.late_of_queued hnone n hold)
      · exact List.mem_append_right _ hnew
  · refine ⟨hrange, hnumbers, fun n hn => (h.late_lt n hn).trans (Nat.lt_succ_self _),
      h.late_not_dequeued, fun hall => absurd hall hnone, fun n hlate hn => ?_, hcalls⟩
    dsimp only at hn
    rw [hqueued] at hn
    rcases List.mem_append.mp hn with hold | hnew
    · exact h.exited_of_late n hlate hold
    · have hlt := h.late_lt n hlate
      rw [List.mem_singleton.mp hnew] at hlt
      exact absurd hlt (lt_irrefl _)

theorem not_allExited {s : State η κ} {w : ℕ} {worker : Worker}
    (h : s.workers[w]? = some worker) (hworker : worker ≠ .exited) : ¬AllExited s :=
  fun hall => hworker (hall worker (List.mem_of_getElem? h))

theorem not_allExited_set {s : State η κ} {w : ℕ} {worker worker' : Worker}
    (h : s.workers[w]? = some worker) (hworker' : worker' ≠ .exited)
    {s' : State η κ} (hs' : s'.workers = s.workers.set w worker') : ¬AllExited s' := by
  obtain ⟨hlt, -⟩ := List.getElem?_eq_some_iff.mp h
  refine not_allExited (w := w) ?_ hworker'
  rw [hs', List.getElem?_set_self hlt]

theorem Accounted.dequeue {s : State η κ} (h : Accounted s) (w : ℕ) :
    Accounted (s.dequeue w) := by
  unfold State.dequeue
  split_ifs with hready
  · cases htake : takeTask s.pool with
    | none => exact h
    | some taken =>
        obtain ⟨task, pool⟩ := taken
        obtain ⟨hrange, hheld⟩ := takeTask_eq_some h.inRange htake
        have hqueued : queuedNumbers s.pool = task.1 :: queuedNumbers pool := by
          rw [queuedNumbers, hheld]
          rfl
        have hsome : ¬AllExited s := not_allExited hready.1 (by decide)
        dsimp only
        refine ⟨hrange, ?_, h.late_lt, fun n hn => ?_, fun hall => ?_, fun n hlate hn => ?_,
          h.upTo_le⟩
        · have hnumbers := h.numbers
          rw [hqueued] at hnumbers
          simpa using hnumbers
        · intro hmem
          rcases List.mem_append.mp hmem with hold | hnew
          · exact h.late_not_dequeued n hn hold
          · refine hsome (h.exited_of_late n hn ?_)
            rw [hqueued, List.mem_singleton.mp hnew]
            exact List.mem_cons_self
        · exact absurd hall (not_allExited_set hready.1 (by decide) rfl)
        · refine absurd (h.exited_of_late n hlate ?_) hsome
          rw [hqueued]
          exact List.mem_cons_of_mem _ hn
  · exact h

theorem Accounted.finish {s : State η κ} (h : Accounted s) (w : ℕ) :
    Accounted (s.finish w) := by
  unfold State.finish
  split_ifs with hexecuting
  · refine h.of_same_queue ⟨rfl, rfl, rfl⟩ h.inRange rfl rfl (iff_of_false ?_ ?_) h.upTo_le
    · exact not_allExited_set hexecuting (by decide) rfl
    · exact not_allExited hexecuting (by decide)
  · exact h

theorem Accounted.exit {s : State η κ} (h : Accounted s) (w : ℕ) : Accounted (s.exit w) := by
  unfold State.exit
  split_ifs with hexit
  · have hempty := queuedNumbers_of_used_eq_zero hexit.2.2
    refine h.of_empty_queue ⟨rfl, rfl, rfl⟩ h.inRange hempty ?_ h.upTo_le
    rw [hempty, List.append_nil]
  · exact h

theorem Accounted.resume {s : State η κ} (h : Accounted s)
    (hroom : s.locked = true → s.pool.queueUsed < s.pool.queueMaxSize) (i : ℕ)
    (newQueue : Option (ℕ → ℕ × Task η κ)) : Accounted (s.resume i newQueue) := by
  have herase : ∀ c ∈ s.calls.eraseIdx i, c.upTo ≤ s.accepted := fun c hc =>
    h.upTo_le c (List.mem_of_mem_eraseIdx hc)
  have hset : ∀ c : Call η κ, c.upTo ≤ s.accepted →
      ∀ c' ∈ s.calls.set i c, c'.upTo ≤ s.accepted := by
    intro c hc c' hc'
    rcases List.mem_or_eq_of_mem_set hc' with hold | rfl
    · exact h.upTo_le c' hold
    · exact hc
  unfold State.resume
  cases hcall : s.calls[i]? with
  | none => exact h
  | some c =>
      cases c with
      | submit task =>
          dsimp only
          split_ifs
          · exact h
          · exact h.of_same_queue ⟨rfl, rfl, rfl⟩ h.inRange rfl rfl Iff.rfl herase
          · exact h.of_same_queue ⟨rfl, rfl, rfl⟩ h.inRange rfl rfl Iff.rfl
              (hset _ (Nat.zero_le _))
      | submitStore task =>
          have hlocked : s.locked = true :=
            List.any_eq_true.mpr ⟨_, List.mem_of_getElem? hcall, rfl⟩
          have hstore := h.store (hroom hlocked) task
          exact hstore.of_same_queue ⟨rfl, rfl, rfl⟩ hstore.inRange rfl rfl Iff.rfl
            fun c hc => hstore.upTo_le c (List.mem_of_mem_eraseIdx hc)
      | setMaxQueue newSize =>
          obtain ⟨hrange, hheld, -⟩ := setMaxQueueLocked_spec h.inRange newSize newQueue
          dsimp only
          split_ifs
          · exact h
          · refine h.of_same_queue ⟨rfl, rfl, rfl⟩ hrange ?_ rfl Iff.rfl herase
            exact congrArg (List.map Prod.fst) hheld
      | shutdown since upTo =>
          have hupTo : upTo ≤ s.accepted := h.upTo_le _ (List.mem_of_getElem? hcall)
          dsimp only
          split_ifs
          · exact h
          · exact h.of_same_queue ⟨rfl, rfl, rfl⟩ h.inRange.shutdownLocked rfl rfl Iff.rfl
              (hset _ hupTo)
      | shutdownJoin since upTo =>
          dsimp only
          split_ifs
          · exact h.of_same_queue ⟨rfl, rfl, rfl⟩ h.inRange rfl rfl Iff.rfl herase
          · exact h
      | forceShutdown =>
          have hempty : queuedNumbers (forceShutdownLocked s.pool) = [] :=
            queuedNumbers_of_used_eq_zero rfl
          dsimp only
          split_ifs
          · exact h
          · exact h.of_empty_queue ⟨rfl, rfl, rfl⟩ h.inRange.forceShutdownLocked hempty
              (writePool_discarded hempty) (hset _ (Nat.zero_le _))
      | forceShutdownJoin =>
          dsimp only
          split_ifs
          · exact h.of_same_queue ⟨rfl, rfl, rfl⟩ h.inRange rfl rfl Iff.rfl
              (hset _ (Nat.zero_le _))
          · exact h
      | forceShutdownFree =>
          have hempty : queuedNumbers (zeroed : Threadpool (ℕ × Task η κ)) = [] :=
            queuedNumbers_of_used_eq_zero rfl
          exact h.of_empty_queue ⟨rfl, rfl, rfl⟩ inRange_zeroed hempty
            (writePool_discarded hempty) (hset _ (Nat.zero_le _))
      | forceShutdownClear =>
          exact h.of_same_queue ⟨rfl, rfl, rfl⟩ h.inRange rfl rfl Iff.rfl herase

theorem Accounted.step {s : State η κ} (h : Accounted s)
    (hroom : s.locked = true → s.pool.queueUsed < s.pool.queueMaxSize) (ev : Event η κ) :
    Accounted (step s ev) := by
  cases ev with
  | init workerCount queueMaxSize calls => exact h.init workerCount queueMaxSize calls
  | call api => exact h.call api
  | resume i newQueue => exact h.resume hroom i newQueue
  | dequeue w => exact h.dequeue w
  | finish w => exact h.finish w
  | exit w => exact h.exit w

structure Compatible (calls : List (Call η κ)) : Prop where
  oneHolder : calls.countP Call.holdsMutex ≤ 1
  alone : calls.any Call.frees = true → calls.length = 1

section Compatible

variable {calls calls' rest : List (Call η κ)} {c c' : Call η κ}

theorem Compatible.of_perm (h : Compatible calls) (hperm : calls.Perm calls') :
    Compatible calls' where
  oneHolder := hperm.countP_eq Call.holdsMutex ▸ h.oneHolder
  alone hfrees := hperm.length_eq ▸ h.alone (hperm.any_eq.trans hfrees)

theorem perm_cons_eraseIdx {i : ℕ} (hcall : calls[i]? = some c) :
    calls.Perm (c :: calls.eraseIdx i) := by
  obtain ⟨hlt, rfl⟩ := List.getElem?_eq_some_iff.mp hcall
  exact (List.getElem_cons_eraseIdx_perm hlt).symm

theorem set_perm_cons {i : ℕ} (hcall : calls[i]? = some c) (c' : Call η κ) :
    (calls.set i c').Perm (c' :: calls.eraseIdx i) :=
  List.set_perm_cons_eraseIdx (List.getElem?_eq_some_iff.mp hcall).1 c'

theorem Compatible.none_frees (h : Compatible (c :: rest)) : rest.any Call.frees = false := by
  by_contra hfrees
  have hone := h.alone (by simpa using .inr (by simpa using hfrees))
  rw [List.eq_nil_of_length_eq_zero (Nat.succ.inj hone)] at hfrees
  exact hfrees rfl

theorem Compatible.rest_eq_nil (h : Compatible (c :: rest)) (hc : c.frees = true) :
    rest = [] :=
  List.eq_nil_of_length_eq_zero (Nat.succ.inj (h.alone (by simp [hc])))

theorem Compatible.tail (h : Compatible (c :: rest)) : Compatible rest where
  oneHolder := (List.sublist_cons_self c rest).countP_le.trans h.oneHolder
  alone hfrees := absurd (h.none_frees.symm.trans hfrees) Bool.false_ne_true

theorem Compatible.cons (h : Compatible rest) (hrest : rest.any Call.frees = false)
    (hfrees : c.frees = false)
    (hholds : c.holdsMutex = true → rest.any Call.holdsMutex = false) :
    Compatible (c :: rest) where
  oneHolder := by
    cases hc : c.holdsMutex with
    | false => simpa [hc] using h.oneHolder
    | true =>
        have hzero : rest.countP Call.holdsMutex = 0 :=
          List.countP_eq_zero.mpr (List.any_eq_false.mp (hholds hc))
        rw [List.countP_cons_of_pos hc, hzero]
  alone hany := by
    rw [List.any_cons, hfrees, hrest] at hany
    cases hany

theorem Compatible.others_unlocked (h : Compatible (c :: rest)) (hc : c.holdsMutex = true) :
    rest.any Call.holdsMutex = false := by
  have hone := h.oneHolder
  rw [List.countP_cons_of_pos hc] at hone
  exact List.any_eq_false.mpr (List.countP_eq_zero.mp (by omega))

end Compatible

/-- What the calls in progress keep to: none is left when the pool is not initialised, and
the one that holds the mutex has found room before any shutdown has returned. -/
structure Orderly (s : State η κ) : Prop where
  idle : s.poolInitialized = false → s.calls = []
  compatible : Compatible s.calls
  room : s.locked = true → s.pool.queueUsed < s.pool.queueMaxSize ∧ s.down = false

theorem orderly_initial : Orderly (initial : State η κ) where
  idle := fun _ => rfl
  compatible := ⟨Nat.zero_le _, fun h => absurd h Bool.false_ne_true⟩
  room := fun h => absurd h Bool.false_ne_true

section Orderly

variable {s s' : State η κ}

theorem Orderly.of_calls_eq (h : Orderly s) (hinit : s'.poolInitialized = s.poolInitialized)
    (hcalls : s'.calls = s.calls)
    (hroom : s.locked = true → s'.pool.queueUsed = s.pool.queueUsed ∧
      s'.pool.queueMaxSize = s.pool.queueMaxSize ∧ s'.down = s.down) : Orderly s' where
  idle h' := hcalls.trans (h.idle (hinit ▸ h'))
  compatible := hcalls ▸ h.compatible
  room h' := by
    have hlocked : s.locked = true := by rwa [State.locked, ← hcalls]
    obtain ⟨hused, hmax, hdown⟩ := hroom hlocked
    rw [hused, hmax, hdown]
    exact h.room hlocked

theorem Orderly.of_unlocked (hidle : s'.poolInitialized = false → s'.calls = [])
    (hcompatible : Compatible s'.calls) (hunlocked : s'.calls.any Call.holdsMutex = false) :
    Orderly s' :=
  ⟨hidle, hcompatible, fun h => absurd (hunlocked.symm.trans h) Bool.false_ne_true⟩

theorem Orderly.init (h : Orderly s) (workerCount queueMaxSize : ℤ) (calls : InitCalls) :
    Orderly (s.init workerCount queueMaxSize calls) := by
  unfold State.init
  rcases smThreadpoolInit_cases s.pool s.poolInitialized workerCount queueMaxSize calls with
    heq | ⟨hinit, heq⟩ | ⟨hinit, w, q, -, -, heq⟩
  · rw [heq]
    exact h.of_calls_eq rfl rfl fun _ => ⟨rfl, rfl, rfl⟩
  · rw [heq]
    have hcalls := h.idle hinit
    exact .of_unlocked (fun _ => hcalls) h.compatible (congrArg (List.any · _) hcalls)
  · rw [heq]
    have hcalls := h.idle hinit
    exact .of_unlocked (fun _ => hcalls) h.compatible (congrArg (List.any · _) hcalls)

theorem Orderly.add (h : Orderly s) {c : Call η κ} (hinit : s.poolInitialized = true)
    (hnone : s.calls.any Call.frees = false) (hfrees : c.frees = false)
    (hholds : c.holdsMutex = false) : Orderly { s with calls := s.calls ++ [c] } where
  idle h' := absurd (hinit.symm.trans h') (Bool.false_ne_true ∘ Eq.symm)
  compatible :=
    (h.compatible.cons hnone hfrees fun hc => absurd (hholds.symm.trans hc)
      Bool.false_ne_true).of_perm (List.perm_append_singleton c s.calls).symm
  room h' := by
    have hlocked : s.locked = true := by simpa [State.locked, hholds] using h'
    exact h.room hlocked

theorem Orderly.call (h : Orderly s) (api : Api η κ) (hev : InTime s (.call api)) :
    Orderly (s.call api) := by
  have hreturn (hinit : ¬s.poolInitialized = true) : Orderly { s with down := true } := by
    have hcalls := h.idle (Bool.eq_false_of_not_eq_true hinit)
    exact .of_unlocked (fun _ => hcalls) h.compatible (congrArg (List.any · _) hcalls)
  have hadd {c : Call η κ} (heq : s.call api = { s with calls := s.calls ++ [c] })
      (hinit : s.poolInitialized = true) (hfrees : c.frees = false)
      (hholds : c.holdsMutex = false) : Orderly (s.call api) := by
    rw [heq]
    refine h.add hinit (Bool.eq_false_of_not_eq_true fun hany => ?_) hfrees hholds
    have hlen := hev hany
    rw [heq, List.length_append] at hlen
    simp at hlen
  cases hinit : s.poolInitialized with
  | false =>
      have hnot : ¬s.poolInitialized = true := by simp [hinit]
      cases api with
      | submit task => simpa [State.call, hinit] using h
      | setMaxQueue newSize => simpa [State.call, hinit] using h
      | shutdown => simpa [State.call, hinit] using hreturn hnot
      | forceShutdown => simpa [State.call, hinit] using hreturn hnot
  | true =>
      cases api with
      | submit task =>
          by_cases hvalid : task.Valid
          · exact hadd (c := .submit task) (by simp [State.call, hinit, hvalid]) hinit rfl rfl
          · simpa [State.call, hinit, hvalid] using h
      | setMaxQueue newSize =>
          by_cases hsize : newSize ≤ 0 ∨ newSize > 4096
          · simpa only [State.call, hinit, Bool.not_true, Bool.false_eq_true, if_false,
              if_pos hsize] using h
          · refine hadd (c := .setMaxQueue newSize) ?_ hinit rfl rfl
            simp only [State.call, hinit, Bool.not_true, Bool.false_eq_true, if_false,
              if_neg hsize]
      | shutdown =>
          exact hadd (c := .shutdown s.since s.accepted) (by simp [State.call, hinit]) hinit
            rfl rfl
      | forceShutdown =>
          exact hadd (c := .forceShutdown) (by simp [State.call, hinit]) hinit rfl rfl

theorem Orderly.initialized (h : Orderly s) {i : ℕ} {c : Call η κ}
    (hcall : s.calls[i]? = some c) : s.poolInitialized = true := by
  by_contra hinit
  rw [h.idle (Bool.eq_false_of_not_eq_true hinit)] at hcall
  cases hcall

theorem Orderly.compatible_cons (h : Orderly s) {i : ℕ} {c : Call η κ}
    (hcall : s.calls[i]? = some c) : Compatible (c :: s.calls.eraseIdx i) :=
  h.compatible.of_perm (perm_cons_eraseIdx hcall)

theorem any_eraseIdx_of_unlocked {i : ℕ} {c : Call η κ} (hcall : s.calls[i]? = some c)
    (hunlocked : s.locked = false) : (s.calls.eraseIdx i).any Call.holdsMutex = false := by
  rw [State.locked, (perm_cons_eraseIdx hcall).any_eq, List.any_cons,
    Bool.or_eq_false_iff] at hunlocked
  exact hunlocked.2

/-- A call returns. -/
theorem Orderly.of_eraseIdx (h : Orderly s) {i : ℕ} {c : Call η κ}
    (hcall : s.calls[i]? = some c) (hinit : s'.poolInitialized = true)
    (hcalls : s'.calls = s.calls.eraseIdx i)
    (hunlocked : (s.calls.eraseIdx i).any Call.holdsMutex = false) : Orderly s' := by
  refine .of_unlocked (fun h' => absurd (hinit.symm.trans h') Bool.true_eq_false.mp) ?_ ?_
  · rw [hcalls]
    exact (h.compatible_cons hcall).tail
  · rw [hcalls]
    exact hunlocked

/-- A call goes on without the mutex. -/
theorem Orderly.of_set (h : Orderly s) {i : ℕ} {c c' : Call η κ}
    (hcall : s.calls[i]? = some c) (hinit : s'.poolInitialized = true)
    (hcalls : s'.calls = s.calls.set i c') (hfrees : c'.frees = false)
    (hholds : c'.holdsMutex = false) (hunlocked : s.locked = false) : Orderly s' := by
  have hcons := h.compatible_cons hcall
  have hset : s'.calls.Perm (c' :: s.calls.eraseIdx i) := by
    rw [hcalls]
    exact set_perm_cons hcall c'
  refine .of_unlocked (fun h' => absurd (hinit.symm.trans h') Bool.true_eq_false.mp) ?_ ?_
  · refine (hcons.tail.cons hcons.none_frees hfrees fun hc => ?_).of_perm hset.symm
    exact absurd (hholds.symm.trans hc) Bool.false_ne_true
  · rw [hset.any_eq, List.any_cons, hholds, any_eraseIdx_of_unlocked hcall hunlocked]
    rfl

/-- The only call in progress goes on without the mutex. -/
theorem Orderly.of_set_alone {i : ℕ} {c c' : Call η κ} (hcall : s.calls[i]? = some c)
    (hinit : s'.poolInitialized = true) (hcalls : s'.calls = s.calls.set i c')
    (hrest : s.calls.eraseIdx i = []) (hholds : c'.holdsMutex = false) : Orderly s' := by
  have hset : s'.calls.Perm [c'] := by
    rw [hcalls, ← hrest]
    exact set_perm_cons hcall c'
  have hunlocked : s'.calls.any Call.holdsMutex = false := by
    rw [hset.any_eq, List.any_cons, hholds]
    rfl
  refine .of_unlocked (fun h' => absurd (hinit.symm.trans h') Bool.true_eq_false.mp) ⟨?_, ?_⟩
    hunlocked
  · rw [List.countP_eq_zero.mpr (List.any_eq_false.mp hunlocked)]
    exact Nat.zero_le _
  · exact fun _ => hset.length_eq

theorem Orderly.resume_submit (h : Orderly s) {i : ℕ} {task : Task η κ}
    (hcall : s.calls[i]? = some (.submit task)) (hinit : s.poolInitialized = true)
    (hunlocked : s.locked = false) (hroom : s.pool.queueUsed < s.pool.queueMaxSize)
    (hdown : s.down = false) :
    Orderly { s with calls := s.calls.set i (.submitStore task) } where
  idle h' := absurd (hinit.symm.trans h') Bool.true_eq_false.mp
  compatible := by
    have hcons := h.compatible_cons hcall
    exact (hcons.tail.cons hcons.none_frees rfl fun _ =>
      any_eraseIdx_of_unlocked hcall hunlocked).of_perm (set_perm_cons hcall _).symm
  room _ := ⟨hroom, hdown⟩

theorem Orderly.resume (h : Orderly s) (i : ℕ) (newQueue : Option (ℕ → ℕ × Task η κ))
    (hev : InTime s (.resume i newQueue)) : Orderly (s.resume i newQueue) := by
  unfold State.resume
  cases hcall : s.calls[i]? with
  | none => exact h
  | some c =>
      have hinit := h.initialized hcall
      have hcons := h.compatible_cons hcall
      have hrest := any_eraseIdx_of_unlocked hcall
      have hcev : c.InTime s := hev c hcall
      cases c with
      | submit task =>
          dsimp only
          split_ifs with hlocked hfull
          · exact h
          · exact h.of_eraseIdx hcall hinit rfl (hrest (Bool.eq_false_of_not_eq_true hlocked))
          · have hunlocked := Bool.eq_false_of_not_eq_true hlocked
            exact h.resume_submit hcall hinit hunlocked (not_le.mp hfull)
              (Bool.eq_false_of_not_eq_true fun hdown => hfull (hcev hunlocked hdown))
      | submitStore task => exact h.of_eraseIdx hcall hinit rfl (hcons.others_unlocked rfl)
      | setMaxQueue newSize =>
          dsimp only
          split_ifs with hlocked
          · exact h
          · exact h.of_eraseIdx hcall hinit rfl (hrest (Bool.eq_false_of_not_eq_true hlocked))
      | shutdown since upTo =>
          dsimp only
          split_ifs with hlocked
          · exact h
          · exact h.of_set hcall hinit rfl rfl rfl (Bool.eq_false_of_not_eq_true hlocked)
      | shutdownJoin since upTo =>
          dsimp only
          split_ifs with hexited
          · exact h.of_eraseIdx hcall hinit rfl (hrest (hcev hexited).1)
          · exact h
      | forceShutdown =>
          dsimp only
          split_ifs with hlocked
          · exact h
          · exact h.of_set hcall hinit rfl rfl rfl (Bool.eq_false_of_not_eq_true hlocked)
      | forceShutdownJoin =>
          dsimp only
          split_ifs with hexited
          · have hlen := (perm_cons_eraseIdx hcall).length_eq.symm.trans (hcev hexited)
            have hnil := List.eq_nil_of_length_eq_zero (Nat.succ.inj hlen)
            exact .of_set_alone hcall hinit rfl hnil rfl
          · exact h
      | forceShutdownFree =>
          exact .of_set_alone hcall hinit rfl (hcons.rest_eq_nil rfl) rfl
      | forceShutdownClear =>
          have hnil := hcons.rest_eq_nil rfl
          exact .of_unlocked (fun _ => hnil) hcons.tail (congrArg (List.any · _) hnil)

theorem Orderly.step (h : Orderly s) (ev : Event η κ) (hev : InTime s ev) :
    Orderly (step s ev) := by
  cases ev with
  | init workerCount queueMaxSize calls => exact h.init workerCount queueMaxSize calls
  | call api => exact h.call api hev
  | resume i newQueue => exact h.resume i newQueue hev
  | dequeue w =>
      simp only [PoolShutdown.step, State.dequeue]
      split_ifs with hready
      · split
        · exact h
        · exact h.of_calls_eq rfl rfl fun hlocked =>
            absurd (hready.2.symm.trans hlocked) Bool.false_ne_true
      · exact h
  | finish w =>
      simp only [PoolShutdown.step, State.finish]
      split_ifs
      · exact h.of_calls_eq rfl rfl fun _ => ⟨rfl, rfl, rfl⟩
      · exact h
  | exit w =>
      simp only [PoolShutdown.step, State.exit]
      split_ifs
      · exact h.of_calls_eq rfl rfl fun _ => ⟨rfl, rfl, rfl⟩
      · exact h

end Orderly

end PoolShutdown

end ServiceManager

end Shinigami
