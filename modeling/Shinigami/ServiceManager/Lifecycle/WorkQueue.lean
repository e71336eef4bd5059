import Mathlib.Data.Int.Notation
import Mathlib.Tactic.SplitIfs
import Shinigami.Foundations.CircularQueue
import Shinigami.Foundations.Run

/-!
# The hand-off of clients to the worker threads

`work_queue_t` carries accepted descriptors from the main loop to the workers. Each
of `wq_push`, `wq_shutdown` and the part of `wq_pop` between two waits runs under
the mutex and is one step; a thread that waits for the condition variable may wake
at any moment. In every run the descriptors taken are the accepted ones in their
order, and no worker exits in front of one that came before the shutdown
(`handOff_run`).
-/

namespace Shinigami

namespace ServiceManager

namespace HandOff

/-- `work_queue_t`, without its mutex and condition variable. -/
structure WorkQueue where
  fds : ℕ → ℤ
  capacity : ℕ
  head : ℕ
  tail : ℕ
  count : ℕ
  shutdown : Bool

/-- `wq_init`; `calloc` clears the array. -/
def wqInit (queueCapacity : ℕ) : WorkQueue where
  fds := fun _ => 0
  capacity := queueCapacity
  head := 0
  tail := 0
  count := 0
  shutdown := false

def wqPush (q : WorkQueue) (fd : ℤ) : WorkQueue × ℤ :=
  if q.count < q.capacity then
    ({ q with
        fds := Function.update q.fds q.tail fd
        tail := (q.tail + 1) % q.capacity
        count := q.count + 1 }, 0)
  else (q, -1)

/-- `wq_pop` from the mutex on, up to its return or to the next wait (`none`). -/
def wqPop (q : WorkQueue) : WorkQueue × Option ℤ :=
  if q.count = 0 ∧ !q.shutdown then (q, none)
  else if q.shutdown ∧ q.count = 0 then (q, some (-1))
  else
    ({ q with
        head := (q.head + 1) % q.capacity
        count := q.count - 1 }, some (q.fds q.head))

def wqShutdown (q : WorkQueue) : WorkQueue := { q with shutdown := true }

namespace WorkQueue

def contents (q : WorkQueue) : List ℤ := ringContents q.fds q.capacity q.head q.count

structure InRange (q : WorkQueue) : Prop where
  head_lt : q.head < q.capacity
  count_le : q.count ≤ q.capacity
  tail_eq : q.tail = (q.head + q.count) % q.capacity

@[simp] theorem length_contents (q : WorkQueue) : q.contents.length = q.count :=
  length_ringContents ..

theorem contents_eq_nil {q : WorkQueue} (h : q.count = 0) : q.contents = [] := by
  rw [← List.length_eq_zero_iff, length_contents, h]

end WorkQueue

open WorkQueue

theorem wqInit_inRange {capacity : ℕ} (hcap : 0 < capacity) : InRange (wqInit capacity) :=
  ⟨hcap, Nat.zero_le _, (Nat.mod_eq_of_lt hcap).symm⟩

theorem wqPush_cases {q : WorkQueue} (h : InRange q) (fd : ℤ) :
    (q.count = q.capacity ∧ wqPush q fd = (q, -1)) ∨
      (q.count < q.capacity ∧ (wqPush q fd).2 = 0 ∧ InRange (wqPush q fd).1 ∧
        (wqPush q fd).1.contents = q.contents ++ [fd] ∧
        (wqPush q fd).1.capacity = q.capacity ∧
        (wqPush q fd).1.shutdown = q.shutdown) := by
  by_cases hroom : q.count < q.capacity
  · refine .inr ⟨hroom, ?_⟩
    rw [wqPush, if_pos hroom]
    refine ⟨rfl, ⟨h.head_lt, hroom, ?_⟩, ?_, rfl, rfl⟩
    · dsimp only
      rw [h.tail_eq, Nat.mod_add_mod, Nat.add_assoc]
    · unfold contents
      dsimp only
      rw [h.tail_eq]
      exact ringContents_push q.fds hroom fd
  · have hfull : q.count = q.capacity := Nat.le_antisymm h.count_le (Nat.not_lt.mp hroom)
    exact .inl ⟨hfull, if_neg hroom⟩

/-- What a pop does: it waits, it gives up after the shutdown, or it takes the
first descriptor. -/
theorem wqPop_cases {q : WorkQueue} (h : InRange q) :
    (q.count = 0 ∧ q.shutdown = false ∧ wqPop q = (q, none)) ∨
      (q.count = 0 ∧ q.shutdown = true ∧ wqPop q = (q, some (-1))) ∨
      ∃ fd q', 0 < q.count ∧ wqPop q = (q', some fd) ∧ InRange q' ∧
        q.contents = fd :: q'.contents ∧ q'.capacity = q.capacity ∧
        q'.shutdown = q.shutdown := by
  by_cases hcount : q.count = 0
  · cases hdown : q.shutdown with
    | false => exact .inl ⟨hcount, rfl, by simp [wqPop, hcount, hdown]⟩
    | true => exact .inr (.inl ⟨hcount, rfl, by simp [wqPop, hcount, hdown]⟩)
  · obtain ⟨used, hused⟩ := Nat.exists_eq_succ_of_ne_zero hcount
    have hpop : wqPop q = ({ q with
        head := (q.head + 1) % q.capacity
        count := q.count - 1 }, some (q.fds q.head)) := by
      rw [wqPop, if_neg (fun hwait => hcount hwait.1), if_neg (fun hgone => hcount hgone.2)]
    refine .inr (.inr ⟨_, _, Nat.pos_of_ne_zero hcount, hpop, ⟨?_, ?_, ?_⟩, ?_, rfl, rfl⟩)
    · exact Nat.mod_lt _ (Nat.zero_lt_of_lt h.head_lt)
    · exact Nat.le_trans (Nat.sub_le _ _) h.count_le
    · dsimp only
      rw [h.tail_eq, hused, Nat.mod_add_mod, Nat.succ_eq_add_one, Nat.add_sub_cancel]
      congr 1
      omega
    · unfold contents
      dsimp only
      rw [hused]
      exact ringContents_pop q.fds h.head_lt used

/-- Where a worker stands: in front of a call of `wq_pop`, waiting in it, with a
client, or at the end of `worker_thread`. -/
inductive Phase where
  | ready
  | waiting
  | serving (fd : ℤ)
  | exited
deriving DecidableEq, Repr

/-- The queue and the workers. The histories are read by no operation: what was
accepted, what was accepted before the shutdown (`early`), what left the queue, and
what `sm_handle_client` was called with. -/
structure State (ω : Type) where
  queue : WorkQueue
  phase : ω → Phase
  accepted : List ℤ
  early : List ℤ
  popped : List ℤ
  handled : List ℤ

def initial (ω : Type) (capacity : ℕ) : State ω where
  queue := wqInit capacity
  phase := fun _ => .ready
  accepted := []
  early := []
  popped := []
  handled := []

inductive Event (ω : Type) where
  | push (fd : ℤ)
  | pop (w : ω)
  | wake (w : ω)
  | close (w : ω)
  | shutdown

variable {ω : Type}

def State.push (s : State ω) (fd : ℤ) : State ω :=
  let result := wqPush s.queue fd
  if result.2 = 0 then
    { s with
      queue := result.1
      accepted := s.accepted ++ [fd]
      early := if s.queue.shutdown then s.early else s.early ++ [fd] }
  else { s with queue := result.1 }

theorem State.push_cases {s : State ω} (h : InRange s.queue) (fd : ℤ) :
    s.push fd = s ∨
      ∃ q, InRange q ∧ q.contents = s.queue.contents ++ [fd] ∧
        q.capacity = s.queue.capacity ∧ q.shutdown = s.queue.shutdown ∧
        s.push fd = { s with
          queue := q
          accepted := s.accepted ++ [fd]
          early := if s.queue.shutdown then s.early else s.early ++ [fd] } := by
  rcases wqPush_cases h fd with ⟨-, heq⟩ | ⟨-, hresult, hrange, hcontents, hcap, hdown⟩
  · left
    simp [State.push, heq]
  · refine .inr ⟨_, hrange, hcontents, hcap, hdown, ?_⟩
    rw [State.push, if_pos hresult]

structure Fifo (capacity : ℕ) (s : State ω) : Prop where
  capacity_eq : s.queue.capacity = capacity
  inRange : InRange s.queue
  accepted_eq : s.accepted = s.popped ++ s.queue.contents
  early_prefix : s.early <+: s.accepted
  early_eq : s.queue.shutdown = false → s.early = s.accepted

/-- Every descriptor that left the queue was served, and what came before the
shutdown had left it when a worker exited. -/
structure Served (capacity : ℕ) (s : State ω) : Prop extends Fifo capacity s where
  accepted_nonneg : ∀ fd ∈ s.accepted, 0 ≤ fd
  handled_eq : s.handled = s.popped
  exited : ∀ w, s.phase w = .exited → s.queue.shutdown = true ∧ s.early <+: s.popped

theorem served_initial {capacity : ℕ} (hcap : 0 < capacity) :
    Served capacity (initial ω capacity) where
  capacity_eq := rfl
  inRange := wqInit_inRange hcap
  accepted_eq := rfl
  early_prefix := List.prefix_rfl
  early_eq := fun _ => rfl
  accepted_nonneg := by simp [initial]
  handled_eq := rfl
  exited := by simp [initial]

theorem Fifo.push {capacity : ℕ} {s : State ω} (h : Fifo capacity s) (fd : ℤ) :
    Fifo capacity (s.push fd) := by
  rcases State.push_cases h.inRange fd with heq | ⟨q, hrange, hcontents, hcap, hdown, heq⟩
  · rw [heq]
    exact h
  · rw [heq]
    refine ⟨hcap.trans h.capacity_eq, hrange, ?_, ?_, fun hopen => ?_⟩
    · dsimp only
      rw [hcontents, h.accepted_eq, List.append_assoc]
    · dsimp only
      split_ifs with hclosed
      · exact h.early_prefix.trans (List.prefix_append _ _)
      · have hearly := h.early_eq (Bool.eq_false_iff.mpr hclosed)
        exact hearly ▸ List.prefix_rfl
    · have hopen' : s.queue.shutdown = false := hdown ▸ hopen
      simp [hopen', h.early_eq hopen']

theorem Served.push {capacity : ℕ} {s : State ω} (h : Served capacity s) {fd : ℤ}
    (hfd : 0 ≤ fd) : Served capacity (s.push fd) := by
  have hfifo := h.toFifo.push fd
  rcases State.push_cases h.inRange fd with heq | ⟨q, -, -, -, hdown, heq⟩
  · rw [heq]
    exact h
  · rw [heq] at hfifo ⊢
    refine ⟨hfifo, fun fd' hmem => ?_, h.handled_eq, fun w hw => ?_⟩
    · rcases List.mem_append.mp hmem with hmem | hmem
      · exact h.accepted_nonneg fd' hmem
      · rwa [List.mem_singleton.mp hmem]
    · obtain ⟨hclosed, hprefix⟩ := h.exited w hw
      dsimp only
      rw [hdown, if_pos hclosed]
      exact ⟨hclosed, hprefix⟩

variable [DecidableEq ω] {capacity : ℕ}

/-- `worker_thread` after `wq_pop` has returned. -/
def State.dispatch (s : State ω) (w : ω) (fd : ℤ) : State ω :=
  if fd < 0 then { s with phase := Function.update s.phase w .exited }
  else
    { s with
      phase := Function.update s.phase w (.serving fd)
      handled := s.handled ++ [fd] }

/-- A worker with the mutex, inside `wq_pop`. An empty queue gives no descriptor. -/
def State.pop (s : State ω) (w : ω) : State ω :=
  match wqPop s.queue with
  | (_, none) => { s with phase := Function.update s.phase w .waiting }
  | (queue, some fd) =>
      let popped := if s.queue.count = 0 then s.popped else s.popped ++ [fd]
      { s with queue := queue, popped := popped }.dispatch w fd

def step (s : State ω) : Event ω → State ω
  | .push fd => s.push fd
  | .pop w => if s.phase w = .ready then s.pop w else s
  | .wake w => if s.phase w = .waiting then s.pop w else s
  | .close w =>
      match s.phase w with
      | .serving _ => { s with phase := Function.update s.phase w .ready }
      | _ => s
  | .shutdown => { s with queue := wqShutdown s.queue }

theorem State.pop_cases {s : State ω} (h : InRange s.queue) (w : ω) :
    (s.queue.count = 0 ∧ s.queue.shutdown = false ∧
        s.pop w = { s with phase := Function.update s.phase w .waiting }) ∨
      (s.queue.count = 0 ∧ s.queue.shutdown = true ∧
        s.pop w = { s with phase := Function.update s.phase w .exited }) ∨
      ∃ fd q, InRange q ∧ s.queue.contents = fd :: q.contents ∧
        q.capacity = s.queue.capacity ∧ q.shutdown = s.queue.shutdown ∧
        s.pop w = { s with queue := q, popped := s.popped ++ [fd] }.dispatch w fd := by
  rcases wqPop_cases h with
    ⟨hcount, hdown, heq⟩ | ⟨hcount, hdown, heq⟩ | ⟨fd, q, hcount, heq, hrange, hspec⟩
  · exact .inl ⟨hcount, hdown, by rw [State.pop, heq]⟩
  · refine .inr (.inl ⟨hcount, hdown, ?_⟩)
    rw [State.pop, heq]
    dsimp only
    rw [if_pos hcount, State.dispatch, if_pos (by decide)]
  · refine .inr (.inr ⟨fd, q, hrange, hspec.1, hspec.2.1, hspec.2.2, ?_⟩)
    rw [State.pop, heq]
    dsimp only
    rw [if_neg (Nat.ne_of_gt hcount)]

theorem Fifo.pop {s : State ω} (h : Fifo capacity s) (w : ω) : Fifo capacity (s.pop w) := by
  rcases State.pop_cases h.inRange w with
    ⟨-, -, heq⟩ | ⟨-, -, heq⟩ | ⟨fd, q, hrange, hcontents, hcap, hdown, heq⟩
  · rw [heq]
    exact ⟨h.capacity_eq, h.inRange, h.accepted_eq, h.early_prefix, h.early_eq⟩
  · rw [heq]
    exact ⟨h.capacity_eq, h.inRange, h.accepted_eq, h.early_prefix, h.early_eq⟩
  · have hrest : s.accepted = s.popped ++ [fd] ++ q.contents := by
      rw [h.accepted_eq, hcontents, List.append_assoc, List.singleton_append]
    rw [heq, State.dispatch]
    split_ifs
    all_goals
      exact ⟨hcap.trans h.capacity_eq, hrange, hrest, h.early_prefix,
        fun hopen => h.early_eq (hdown ▸ hopen)⟩

theorem Fifo.step {s : State ω} (h : Fifo capacity s) (ev : Event ω) : Fifo capacity (step s ev) := by
  cases ev with
  | push fd => exact h.push fd
  | pop w =>
      rw [HandOff.step]
      split_ifs
      · exact h.pop w
      · exact h
  | wake w =>
      rw [HandOff.step]
      split_ifs
      · exact h.pop w
      · exact h
  | close w =>
      rw [HandOff.step]
      split
      · exact ⟨h.capacity_eq, h.inRange, h.accepted_eq, h.early_prefix, h.early_eq⟩
      · exact h
  | shutdown =>
      refine ⟨h.capacity_eq, ⟨h.inRange.head_lt, h.inRange.count_le, h.inRange.tail_eq⟩,
        h.accepted_eq, h.early_prefix, fun hopen => ?_⟩
      simp [HandOff.step, wqShutdown] at hopen

theorem exited_of_update {phase : ω → Phase} {w w' : ω} {p : Phase}
    (h : Function.update phase w p w' = .exited) : p = .exited ∨ phase w' = .exited := by
  by_cases hw : w' = w
  · rw [hw, Function.update_self] at h
    exact .inl h
  · rw [Function.update_of_ne hw] at h
    exact .inr h

theorem Served.pop {s : State ω} (h : Served capacity s) (w : ω) : Served capacity (s.pop w) := by
  have hfifo := h.toFifo.pop w
  rcases State.pop_cases h.inRange w with
    ⟨-, -, heq⟩ | ⟨hcount, hdown, heq⟩ | ⟨fd, q, -, hcontents, -, hdown, heq⟩
  · rw [heq] at hfifo ⊢
    refine ⟨hfifo, h.accepted_nonneg, h.handled_eq, fun w' hw' => ?_⟩
    rcases exited_of_update hw' with hphase | hphase
    · cases hphase
    · exact h.exited w' hphase
  · rw [heq] at hfifo ⊢
    refine ⟨hfifo, h.accepted_nonneg, h.handled_eq, fun _ _ => ⟨hdown, ?_⟩⟩
    have hall : s.accepted = s.popped := by
      rw [h.accepted_eq, contents_eq_nil hcount, List.append_nil]
    exact hall ▸ h.early_prefix
  · have hfd : ¬fd < 0 := by
      have hmem : fd ∈ s.accepted := by simp [h.accepted_eq, hcontents]
      exact Int.not_lt.mpr (h.accepted_nonneg fd hmem)
    rw [heq, State.dispatch, if_neg hfd] at hfifo ⊢
    refine ⟨hfifo, h.accepted_nonneg, congrArg (· ++ [fd]) h.handled_eq, fun w' hw' => ?_⟩
    rcases exited_of_update hw' with hphase | hphase
    · cases hphase
    · obtain ⟨hclosed, hprefix⟩ := h.exited w' hphase
      exact ⟨hdown.trans hclosed, hprefix.trans (List.prefix_append _ _)⟩

theorem Served.step {s : State ω} (h : Served capacity s) {ev : Event ω}
    (hev : ∀ fd, ev = .push fd → 0 ≤ fd) : Served capacity (step s ev) := by
  cases ev with
  | push fd => exact h.push (hev fd rfl)
  | pop w =>
      rw [HandOff.step]
      split_ifs
      · exact h.pop w
      · exact h
  | wake w =>
      rw [HandOff.step]
      split_ifs
      · exact h.pop w
      · exact h
  | close w =>
      have hfifo := h.toFifo.step (.close w)
      rw [HandOff.step] at hfifo ⊢
      split at hfifo
      · refine ⟨hfifo, h.accepted_nonneg, h.handled_eq, fun w' hw' => ?_⟩
        rcases exited_of_update hw' with hphase | hphase
        · cases hphase
        · exact h.exited w' hphase
      · exact h
  | shutdown =>
      exact ⟨h.toFifo.step .shutdown, h.accepted_nonneg, h.handled_eq,
        fun w hw => ⟨rfl, (h.exited w hw).2⟩⟩

/-- The queue hands the accepted descriptors over in their order, each once. The main
loop pushes what `accept4` gave, when it is not negative. -/
theorem handOff_run (hcap : 0 < capacity) (evs : List (Event ω)) :
    let s := run step (initial ω capacity) evs
    s.accepted = s.popped ++ s.queue.contents ∧
      s.queue.contents.length = s.queue.count ∧ s.queue.count ≤ capacity ∧
      (∀ fd, (wqPush s.queue fd).2 ≠ 0 ↔ s.queue.contents.length = capacity) ∧
      ((∀ fd, Event.push fd ∈ evs → 0 ≤ fd) →
        ((wqPop s.queue).2 = some (-1) → s.queue.shutdown = true ∧ s.queue.contents = []) ∧
        s.handled = s.popped ∧
        ((∃ w, s.phase w = .exited) → s.queue.shutdown = true ∧ s.early <+: s.handled)) := by
  intro s
  have hfifo : Fifo capacity s := by
    refine run_invariant (I := Fifo capacity) (P := fun _ => True)
      (fun _ ev _ h => h.step ev) ?_ fun _ _ => trivial
    exact (served_initial hcap).toFifo
  refine ⟨hfifo.accepted_eq, length_contents _, ?_, fun fd => ?_, fun hpush => ?_⟩
  · exact hfifo.capacity_eq ▸ hfifo.inRange.count_le
  · rw [length_contents, ← hfifo.capacity_eq]
    rcases wqPush_cases hfifo.inRange fd with ⟨hfull, heq⟩ | ⟨hroom, hresult, -⟩
    · simp [heq, hfull]
    · simp [hresult, Nat.ne_of_lt hroom]
  · have h : Served capacity s := by
      refine run_invariant (I := Served capacity) (P := fun ev => ∀ fd, ev = .push fd → 0 ≤ fd)
        (fun _ _ hev h => h.step hev) (served_initial hcap) ?_
      rintro _ hmem fd rfl
      exact hpush fd hmem
    refine ⟨fun hpop => ?_, h.handled_eq, fun ⟨w, hw⟩ => h.handled_eq ▸ h.exited w hw⟩
    rcases wqPop_cases h.inRange with
      ⟨-, -, heq⟩ | ⟨hcount, hdown, -⟩ | ⟨fd, q, -, heq, -, hcontents, -⟩
    · simp [heq] at hpop
    · exact ⟨hdown, contents_eq_nil hcount⟩
    · -- a descriptor of the queue is not negative
      have hmem : fd ∈ s.accepted := by simp [h.accepted_eq, hcontents]
      have hnonneg := h.accepted_nonneg fd hmem
      have hfd : fd = -1 := by simpa [heq] using hpop
      omega

/-- Two workers: one waits and is woken without cause, the shutdown meets a client in
the queue. -/
theorem handOff_run_two :
    let evs : List (Event (Fin 2)) :=
      [.pop 0, .wake 0, .push 7, .push 8, .wake 0, .push 9, .push 10, .shutdown, .pop 1,
        .close 0, .close 1, .pop 0, .pop 1, .close 0, .pop 0]
    let s := run step (initial (Fin 2) 2) evs
    s.accepted = [7, 8, 9] ∧ s.early <+: s.handled ∧ s.phase 0 = .exited := by
  intro evs s
  obtain ⟨-, -, -, -, hserved⟩ := handOff_run (by decide : 0 < 2) evs
  obtain ⟨-, -, hexit⟩ := hserved (by simp [evs])
  exact ⟨by decide, (hexit ⟨1, by decide⟩).2, by decide⟩

end HandOff

end ServiceManager

end Shinigami
