import Mathlib.Tactic.SplitIfs
import Shinigami.Foundations.CircularQueue

/-!
# The enterprise thread pool

`threadpool_t` of `sm_threadpool.c` with its queue, a ring of tasks. The parts of
the functions that work under the mutex are definitions of their own
(`submitLocked`, `takeTask`, `setMaxQueueLocked`), as the interleaving of threads
splits the functions there. `heldTasks` is the queue as a list, and each part does
to it what a queue does.
-/

namespace Shinigami

namespace ServiceManager

/-- `task_t`; a null handler or context is `none`. -/
structure Task (η κ : Type) where
  clientFd : ℤ
  handler : Option η
  context : Option κ
deriving DecidableEq, Repr

/-- The check that `sm_threadpool_submit` makes of its arguments. -/
def Task.Valid {η κ : Type} (task : Task η κ) : Prop :=
  0 ≤ task.clientFd ∧ task.handler.isSome

instance Task.decidableValid {η κ : Type} (task : Task η κ) : Decidable task.Valid :=
  inferInstanceAs (Decidable (_ ∧ _))

/-- A zeroed task. -/
instance Task.inhabited (η κ : Type) : Inhabited (Task η κ) := ⟨⟨0, none, none⟩⟩

/-- `threadpool_t`, for tasks of any type. -/
structure Threadpool (α : Type) where
  threadCount : ℤ
  queue : ℕ → α
  queueMaxSize : ℤ
  queueFront : ℤ
  queueUsed : ℤ
  shutdownRequested : Bool

namespace Threadpool

variable {α : Type}

/-- `default_worker_count`. -/
def defaultWorkerCount (ncpu : ℤ) : ℤ :=
  let ncpu := if ncpu < 1 then 1 else ncpu
  let sz := ncpu * 2
  let sz := if sz < 2 then 2 else sz
  if sz > 256 then 256 else sz

/-- `DEFAULT_QUEUE_SIZE`. -/
def defaultQueueSize : ℤ := 128

/-- `g_pool` after `memset`. -/
def zeroed [Inhabited α] : Threadpool α := ⟨0, fun _ => default, 0, 0, 0, false⟩

/-- What the calls made by `sm_threadpool_init` return. -/
structure InitCalls where
  ncpu : ℤ
  mutexOk : Bool
  condOk : Bool
  queueOk : Bool
  threadsOk : Bool
  workersOk : Bool
deriving DecidableEq, Repr

/-- `sm_threadpool_init`, on `g_pool` and `g_pool_initialized`. -/
def smThreadpoolInit [Inhabited α] (p : Threadpool α) (initialized : Bool)
    (workerCount queueMaxSize : ℤ) (calls : InitCalls) : Threadpool α × Bool × ℤ :=
  if initialized then (p, initialized, -1)
  else
    let workerCount := if workerCount ≤ 0 then defaultWorkerCount calls.ncpu else workerCount
    let queueMaxSize := if queueMaxSize ≤ 0 then defaultQueueSize else queueMaxSize
    if workerCount > 256 then (p, initialized, -1)
    else if queueMaxSize > 4096 then (p, initialized, -1)
    else if !calls.mutexOk then (zeroed, initialized, -1)
    else if !calls.condOk then (zeroed, initialized, -1)
    else if !calls.queueOk then (zeroed, initialized, -1)
    else if !calls.threadsOk then (zeroed, initialized, -1)
    else if !calls.workersOk then (zeroed, initialized, -1)
    else
      ({ (zeroed : Threadpool α) with
          queueMaxSize := queueMaxSize
          threadCount := workerCount }, true, 0)

/-- `sm_threadpool_submit` under the mutex. -/
def submitLocked (p : Threadpool α) (task : α) : Threadpool α × ℤ :=
  if p.queueUsed ≥ p.queueMaxSize then (p, -1)
  else
    let backIndex := (p.queueFront + p.queueUsed).tmod p.queueMaxSize
    ({ p with
        queue := Function.update p.queue backIndex.toNat task
        queueUsed := p.queueUsed + 1 }, 0)

/-- The stores of `sm_threadpool_submit` behind its check for room. -/
def storeTask (p : Threadpool α) (task : α) : Threadpool α :=
  let backIndex := (p.queueFront + p.queueUsed).tmod p.queueMaxSize
  { p with
    queue := Function.update p.queue backIndex.toNat task
    queueUsed := p.queueUsed + 1 }

theorem submitLocked_eq (p : Threadpool α) (task : α) :
    submitLocked p task =
      if p.queueUsed ≥ p.queueMaxSize then (p, -1) else (p.storeTask task, 0) := rfl

/-- `sm_threadpool_submit`. -/
def smThreadpoolSubmit {η κ : Type} (p : Threadpool (Task η κ)) (initialized : Bool)
    (task : Task η κ) : Threadpool (Task η κ) × ℤ :=
  if !initialized then (p, -2)
  else if ¬task.Valid then (p, -1)
  else submitLocked p task

def takeTask (p : Threadpool α) : Option (α × Threadpool α) :=
  if p.queueUsed > 0 then
    some (p.queue p.queueFront.toNat,
      { p with
        queueFront := (p.queueFront + 1).tmod p.queueMaxSize
        queueUsed := p.queueUsed - 1 })
  else none

def copyTasks (p : Threadpool α) (newQueue : ℕ → α) : ℕ → α :=
  (List.range p.queueUsed.toNat).foldl
    (fun q i => Function.update q i
      (p.queue ((p.queueFront + i).tmod p.queueMaxSize).toNat)) newQueue

/-- `sm_threadpool_set_max_queue` under the mutex; `malloc` may fail, and gives an
array with any content. -/
def setMaxQueueLocked (p : Threadpool α) (newSize : ℤ) (newQueue : Option (ℕ → α)) :
    Threadpool α × ℤ :=
  if p.queueUsed > newSize then (p, -1)
  else if newSize = p.queueMaxSize then (p, 0)
  else
    match newQueue with
    | none => (p, -1)
    | some newQueue =>
        ({ p with
            queue := copyTasks p newQueue
            queueMaxSize := newSize
            queueFront := 0 }, 0)

/-- `sm_threadpool_set_max_queue`. -/
def smThreadpoolSetMaxQueue (p : Threadpool α) (initialized : Bool) (newSize : ℤ)
    (newQueue : Option (ℕ → α)) : Threadpool α × ℤ :=
  if !initialized then (p, -1)
  else if newSize ≤ 0 ∨ newSize > 4096 then (p, -1)
  else setMaxQueueLocked p newSize newQueue

def WorkerExits (p : Threadpool α) : Prop := p.shutdownRequested ∧ p.queueUsed = 0

instance (p : Threadpool α) : Decidable (WorkerExits p) :=
  inferInstanceAs (Decidable (_ ∧ _))

/-- `sm_threadpool_shutdown` under the mutex. -/
def shutdownLocked (p : Threadpool α) : Threadpool α := { p with shutdownRequested := true }

/-- `sm_threadpool_force_shutdown` under the mutex: the queue is discarded. -/
def forceShutdownLocked (p : Threadpool α) : Threadpool α :=
  { p with shutdownRequested := true, queueUsed := 0 }

def heldTasks (p : Threadpool α) : List α :=
  ringContents p.queue p.queueMaxSize.toNat p.queueFront.toNat p.queueUsed.toNat

structure InRange (p : Threadpool α) : Prop where
  used_nonneg : 0 ≤ p.queueUsed
  used_le : p.queueUsed ≤ p.queueMaxSize
  front_nonneg : 0 ≤ p.queueFront
  front_lt : 0 < p.queueMaxSize → p.queueFront < p.queueMaxSize

theorem toNat_tmod {a n : ℤ} (ha : 0 ≤ a) (hn : 0 ≤ n) :
    (a.tmod n).toNat = a.toNat % n.toNat := by
  rw [Int.tmod_eq_emod_of_nonneg ha, Int.toNat_emod ha hn]

theorem length_heldTasks {p : Threadpool α} (h : InRange p) :
    (p.heldTasks.length : ℤ) = p.queueUsed := by
  rw [heldTasks, length_ringContents, Int.toNat_of_nonneg h.used_nonneg]

theorem submitLocked_cases {p : Threadpool α} (h : InRange p) (task : α) :
    (p.queueUsed = p.queueMaxSize ∧ submitLocked p task = (p, -1)) ∨
      (p.queueUsed < p.queueMaxSize ∧ (submitLocked p task).2 = 0 ∧
        InRange (submitLocked p task).1 ∧
        (submitLocked p task).1.heldTasks = p.heldTasks ++ [task]) := by
  have hle := h.used_le
  have hused := h.used_nonneg
  have hfront := h.front_nonneg
  unfold submitLocked
  split_ifs with hfull
  · exact .inl ⟨le_antisymm hle hfull, rfl⟩
  · have hroom : p.queueUsed < p.queueMaxSize := not_le.mp hfull
    refine .inr ⟨hroom, rfl, ⟨by dsimp only; omega, hroom, hfront, h.front_lt⟩, ?_⟩
    have hmax : 0 ≤ p.queueMaxSize := by omega
    have hnat : p.queueUsed.toNat < p.queueMaxSize.toNat := by omega
    have hslot : ((p.queueFront + p.queueUsed).tmod p.queueMaxSize).toNat =
        (p.queueFront.toNat + p.queueUsed.toNat) % p.queueMaxSize.toNat := by
      rw [toNat_tmod (by omega) hmax, Int.toNat_add hfront hused]
    unfold heldTasks
    dsimp only
    rw [hslot, Int.toNat_add hused zero_le_one]
    exact ringContents_push p.queue hnat task

theorem storeTask_spec {p : Threadpool α} (h : InRange p) (hroom : p.queueUsed < p.queueMaxSize)
    (task : α) :
    InRange (p.storeTask task) ∧ (p.storeTask task).heldTasks = p.heldTasks ++ [task] := by
  rcases submitLocked_cases h task with ⟨hfull, -⟩ | ⟨-, -, hrange, hheld⟩
  · omega
  · rw [submitLocked_eq, if_neg (not_le.mpr hroom)] at hrange hheld
    exact ⟨hrange, hheld⟩

theorem takeTask_eq_some {p p' : Threadpool α} {task : α} (h : InRange p)
    (htake : takeTask p = some (task, p')) :
    InRange p' ∧ p.heldTasks = task :: p'.heldTasks := by
  have hle := h.used_le
  have hfront := h.front_nonneg
  unfold takeTask at htake
  split_ifs at htake with hused
  obtain ⟨rfl, rfl⟩ := Prod.mk.inj (Option.some.inj htake)
  have hmax : 0 < p.queueMaxSize := by omega
  have hnext : ((p.queueFront + 1).tmod p.queueMaxSize).toNat =
      (p.queueFront.toNat + 1) % p.queueMaxSize.toNat := by
    rw [toNat_tmod (by omega) hmax.le, Int.toNat_add hfront zero_le_one]
    rfl
  refine ⟨⟨by dsimp only; omega, by dsimp only; omega, ?_, fun _ => ?_⟩, ?_⟩
  · exact Int.tmod_nonneg _ (by omega)
  · exact Int.tmod_lt_of_pos _ hmax
  · have hlt := h.front_lt hmax
    have hslot : p.queueFront.toNat < p.queueMaxSize.toNat := by omega
    have hpop := ringContents_pop p.queue hslot (p.queueUsed - 1).toNat
    have hsucc : (p.queueUsed - 1).toNat + 1 = p.queueUsed.toNat := by omega
    unfold heldTasks
    rw [hnext, ← hpop, hsucc]

/-- The queue has the same tasks in another ring, or the call changes nothing. -/
theorem setMaxQueueLocked_spec {p : Threadpool α} (h : InRange p) (newSize : ℤ)
    (newQueue : Option (ℕ → α)) :
    InRange (setMaxQueueLocked p newSize newQueue).1 ∧
      (setMaxQueueLocked p newSize newQueue).1.heldTasks = p.heldTasks ∧
      ((setMaxQueueLocked p newSize newQueue).2 ≠ 0 →
        (setMaxQueueLocked p newSize newQueue).1 = p) := by
  unfold setMaxQueueLocked
  split_ifs with hshrink hsame
  · exact ⟨h, rfl, fun _ => rfl⟩
  · exact ⟨h, rfl, fun _ => rfl⟩
  · cases newQueue with
    | none => exact ⟨h, rfl, fun _ => rfl⟩
    | some newQueue =>
        have hused := h.used_nonneg
        refine ⟨⟨hused, not_lt.mp hshrink, le_refl _, fun hpos => hpos⟩, ?_,
          fun hne => absurd rfl hne⟩
        refine ringContents_copy (fun i hi => ?_) (by dsimp only; omega)
        have hmax := hused.trans h.used_le
        dsimp only at hi ⊢
        unfold copyTasks
        have hi0 : (0 : ℤ) ≤ i := Int.natCast_nonneg i
        rw [foldl_update_range, if_pos hi, toNat_tmod (Int.add_nonneg h.front_nonneg hi0) hmax,
          Int.toNat_add h.front_nonneg hi0, Int.toNat_natCast]

theorem inRange_zeroed [Inhabited α] : InRange (zeroed : Threadpool α) :=
  ⟨le_refl _, le_refl _, le_refl _, fun h => absurd h (lt_irrefl _)⟩

theorem defaultWorkerCount_pos (ncpu : ℤ) : 0 < defaultWorkerCount ncpu := by
  unfold defaultWorkerCount
  dsimp only
  split_ifs <;> omega

/-- An initialisation is refused, fails with the pool zeroed, or makes an empty queue
and starts the workers. -/
theorem smThreadpoolInit_cases [Inhabited α] (p : Threadpool α) (initialized : Bool)
    (workerCount queueMaxSize : ℤ) (calls : InitCalls) :
    smThreadpoolInit p initialized workerCount queueMaxSize calls = (p, initialized, -1) ∨
      (initialized = false ∧
        smThreadpoolInit p initialized workerCount queueMaxSize calls =
          (zeroed, false, -1)) ∨
      (initialized = false ∧ ∃ w q, 0 < w ∧ 0 < q ∧
        smThreadpoolInit p initialized workerCount queueMaxSize calls =
          ({ (zeroed : Threadpool α) with queueMaxSize := q, threadCount := w }, true, 0)) := by
  unfold smThreadpoolInit
  cases initialized with
  | true => exact .inl rfl
  | false =>
      have hw : 0 < if workerCount ≤ 0 then defaultWorkerCount calls.ncpu else workerCount := by
        split_ifs with h
        · exact defaultWorkerCount_pos _
        · exact not_le.mp h
      have hq : 0 < if queueMaxSize ≤ 0 then defaultQueueSize else queueMaxSize := by
        split_ifs with h
        · decide
        · exact not_le.mp h
      dsimp only
      generalize (if workerCount ≤ 0 then defaultWorkerCount calls.ncpu else workerCount) = w
        at hw ⊢
      generalize (if queueMaxSize ≤ 0 then defaultQueueSize else queueMaxSize) = q at hq ⊢
      rw [if_neg Bool.false_ne_true]
      split_ifs
      · exact .inl rfl
      · exact .inl rfl
      · exact .inr (.inl ⟨rfl, rfl⟩)
      · exact .inr (.inl ⟨rfl, rfl⟩)
      · exact .inr (.inl ⟨rfl, rfl⟩)
      · exact .inr (.inl ⟨rfl, rfl⟩)
      · exact .inr (.inl ⟨rfl, rfl⟩)
      · exact .inr (.inr ⟨rfl, w, q, hw, hq, rfl⟩)

theorem inRange_of_init {w q : ℤ} [Inhabited α] (hq : 0 < q) :
    InRange { (zeroed : Threadpool α) with queueMaxSize := q, threadCount := w } :=
  ⟨le_refl _, hq.le, le_refl _, fun h => h⟩

theorem InRange.shutdownLocked {p : Threadpool α} (h : InRange p) :
    InRange p.shutdownLocked :=
  ⟨h.used_nonneg, h.used_le, h.front_nonneg, h.front_lt⟩

theorem InRange.forceShutdownLocked {p : Threadpool α} (h : InRange p) :
    InRange p.forceShutdownLocked :=
  ⟨le_refl _, h.used_nonneg.trans h.used_le, h.front_nonneg, h.front_lt⟩

theorem heldTasks_of_used_eq_zero {p : Threadpool α} (h : p.queueUsed = 0) :
    p.heldTasks = [] := by
  rw [heldTasks, h]
  rfl

end Threadpool

end ServiceManager

end Shinigami
