import Shinigami.Foundations.Run
import Shinigami.ServiceManager.Enterprise.ThreadPool

/-!
# The task queue across resizing

Runs of submissions, dequeues by the workers and changes of the queue size on an
initialised pool. The state records which tasks were accepted and which were taken
by a worker. In every run the tasks taken are the accepted ones in their order, as
far as they have left the queue (`fifo_run`).
-/

namespace Shinigami

namespace ServiceManager

namespace TaskQueue

open Threadpool

variable {η κ : Type}

/-- The pool, with the tasks that were accepted and those that a worker has taken. -/
structure State (η κ : Type) where
  pool : Threadpool (Task η κ)
  accepted : List (Task η κ)
  dequeued : List (Task η κ)

/-- A call on the initialised pool, or a worker that takes a task. -/
inductive Event (η κ : Type)
  | submit (task : Task η κ)
  | dequeue
  | setMaxQueue (newSize : ℤ) (newQueue : Option (ℕ → Task η κ))

def step (s : State η κ) : Event η κ → State η κ
  | .submit task =>
      let result := smThreadpoolSubmit s.pool true task
      { s with
        pool := result.1
        accepted := if result.2 = 0 then s.accepted ++ [task] else s.accepted }
  | .dequeue =>
      match takeTask s.pool with
      | none => s
      | some (task, pool) => { s with pool := pool, dequeued := s.dequeued ++ [task] }
  | .setMaxQueue newSize newQueue =>
      { s with pool := (smThreadpoolSetMaxQueue s.pool true newSize newQueue).1 }

/-- What has been accepted is what has been taken and what is in the queue, in this
order. -/
structure Fifo (s : State η κ) : Prop where
  inRange : InRange s.pool
  accepted_eq : s.accepted = s.dequeued ++ s.pool.heldTasks

theorem smThreadpoolSubmit_cases {p : Threadpool (Task η κ)} (h : InRange p)
    (task : Task η κ) :
    ((¬task.Valid ∨ p.queueUsed = p.queueMaxSize) ∧
        smThreadpoolSubmit p true task = (p, -1)) ∨
      (task.Valid ∧ p.queueUsed < p.queueMaxSize ∧ (smThreadpoolSubmit p true task).2 = 0 ∧
        InRange (smThreadpoolSubmit p true task).1 ∧
        (smThreadpoolSubmit p true task).1.heldTasks = p.heldTasks ++ [task]) := by
  unfold smThreadpoolSubmit
  rw [if_neg (by decide)]
  by_cases hvalid : task.Valid
  · rw [if_neg (not_not.mpr hvalid)]
    rcases submitLocked_cases h task with ⟨hfull, heq⟩ | ⟨hroom, hspec⟩
    · exact .inl ⟨.inr hfull, heq⟩
    · exact .inr ⟨hvalid, hroom, hspec⟩
  · rw [if_pos hvalid]
    exact .inl ⟨.inl hvalid, rfl⟩

theorem smThreadpoolSetMaxQueue_spec {p : Threadpool (Task η κ)} (h : InRange p)
    (newSize : ℤ) (newQueue : Option (ℕ → Task η κ)) :
    InRange (smThreadpoolSetMaxQueue p true newSize newQueue).1 ∧
      (smThreadpoolSetMaxQueue p true newSize newQueue).1.heldTasks = p.heldTasks ∧
      ((smThreadpoolSetMaxQueue p true newSize newQueue).2 ≠ 0 →
        (smThreadpoolSetMaxQueue p true newSize newQueue).1 = p) := by
  unfold smThreadpoolSetMaxQueue
  rw [if_neg (by decide)]
  split_ifs with hsize
  · exact ⟨h, rfl, fun _ => rfl⟩
  · exact setMaxQueueLocked_spec h newSize newQueue

theorem Fifo.step {s : State η κ} (h : Fifo s) (ev : Event η κ) : Fifo (step s ev) := by
  cases ev with
  | submit task =>
      rcases smThreadpoolSubmit_cases h.inRange task with
        ⟨-, heq⟩ | ⟨-, -, hresult, hrange, hheld⟩
      · unfold TaskQueue.step
        dsimp only
        rw [heq]
        exact ⟨h.inRange, h.accepted_eq⟩
      · refine ⟨hrange, ?_⟩
        unfold TaskQueue.step
        dsimp only
        rw [if_pos hresult, hheld, h.accepted_eq, List.append_assoc]
  | dequeue =>
      unfold TaskQueue.step
      cases htake : takeTask s.pool with
      | none => exact h
      | some taken =>
          obtain ⟨task, pool⟩ := taken
          obtain ⟨hrange, hheld⟩ := takeTask_eq_some h.inRange htake
          refine ⟨hrange, ?_⟩
          dsimp only
          rw [h.accepted_eq, hheld, List.append_assoc, List.singleton_append]
  | setMaxQueue newSize newQueue =>
      obtain ⟨hrange, hheld, -⟩ := smThreadpoolSetMaxQueue_spec h.inRange newSize newQueue
      refine ⟨hrange, ?_⟩
      unfold TaskQueue.step
      dsimp only
      rw [hheld, h.accepted_eq]

/-- The queue is a bounded FIFO in every run on a pool that has been initialised. -/
theorem fifo_run {p p' : Threadpool (Task η κ)} {initialized : Bool}
    {workerCount queueMaxSize : ℤ} {calls : InitCalls}
    (hinit : smThreadpoolInit p initialized workerCount queueMaxSize calls = (p', true, 0))
    (evs : List (Event η κ)) :
    let s := run step ⟨p', [], []⟩ evs
    s.accepted = s.dequeued ++ s.pool.heldTasks ∧
      s.pool.heldTasks.length = s.pool.queueUsed ∧
      0 ≤ s.pool.queueUsed ∧ s.pool.queueUsed ≤ s.pool.queueMaxSize ∧
      (0 < s.pool.queueUsed → (takeTask s.pool).isSome) ∧
      (∀ task, (smThreadpoolSubmit s.pool true task).2 ≠ 0 →
        ¬task.Valid ∨ s.pool.queueUsed = s.pool.queueMaxSize) ∧
      (∀ newSize newQueue, (smThreadpoolSetMaxQueue s.pool true newSize newQueue).2 ≠ 0 →
        (smThreadpoolSetMaxQueue s.pool true newSize newQueue).1 = s.pool) := by
  intro s
  have hstart : Fifo (⟨p', [], []⟩ : State η κ) := by
    rcases smThreadpoolInit_cases p initialized workerCount queueMaxSize calls with
      heq | ⟨-, heq⟩ | ⟨-, w, q, -, hq, heq⟩
    · simp [heq] at hinit
    · simp [heq] at hinit
    · obtain ⟨rfl, -⟩ := Prod.mk.inj (heq.symm.trans hinit)
      exact ⟨inRange_of_init hq, rfl⟩
  have h : Fifo s := run_invariant (P := fun _ => True) (fun _ ev _ h => h.step ev) hstart
    fun _ _ => trivial
  refine ⟨h.accepted_eq, length_heldTasks h.inRange, h.inRange.used_nonneg,
    h.inRange.used_le, fun hused => ?_, fun task hrefused => ?_, fun newSize newQueue => ?_⟩
  · rw [takeTask, if_pos hused]
    rfl
  · rcases smThreadpoolSubmit_cases h.inRange task with ⟨hwhy, -⟩ | ⟨-, -, hresult, -⟩
    · exact hwhy
    · exact absurd hresult hrefused
  · exact (smThreadpoolSetMaxQueue_spec h.inRange newSize newQueue).2.2

/-- A queue that wraps around, then grows. -/
theorem fifo_run_wrapped :
    let calls : InitCalls := ⟨4, true, true, true, true, true⟩
    let pool : Threadpool (Task Unit Unit) :=
      { (zeroed : Threadpool (Task Unit Unit)) with queueMaxSize := 2, threadCount := 1 }
    let task (fd : ℤ) : Task Unit Unit := ⟨fd, some (), none⟩
    let s := run step ⟨pool, [], []⟩
      [.submit (task 3), .submit (task 4), .dequeue, .submit (task 5),
        .setMaxQueue 3 (some fun _ => task 0), .submit (task 6), .dequeue]
    smThreadpoolInit zeroed false 1 2 calls = (pool, true, 0) ∧
      s.accepted = s.dequeued ++ s.pool.heldTasks ∧ s.dequeued = [task 3, task 4] ∧
      s.pool.heldTasks = [task 5, task 6] := by
  intro calls pool task s
  have hinit : smThreadpoolInit zeroed false 1 2 calls = (pool, true, 0) := rfl
  exact ⟨hinit, (fifo_run hinit _).1, by decide, by decide⟩

end TaskQueue

end ServiceManager

end Shinigami
