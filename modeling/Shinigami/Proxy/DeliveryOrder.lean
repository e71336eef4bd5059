import Shinigami.Proxy.QueueInvariant

/-!
# Order and completeness of the callback queue

The guarantees of `proxy_thread_pool.h` for the callback queue. In runs in which
every step is in turn, callbacks are invoked in the order of their tickets and
none is lost (`deliversInOrder_of_inTurn`), and the consumer can always go on
(`drainable_of_inTurn`).

Without this the overflow branch of `post` breaks both: it puts the new callback
in the place of the dropped one without moving `tail_`, so the newest callback
stands in front of older ones, and one ticket too many is counted as pending. The
two runs at the end show it with seventeen posts.
-/

namespace Shinigami

namespace Proxy

namespace ThreadPool

variable {ι α : Type}

/-! ## The guarantees -/

def BeingDropped (s : ThreadPool ι α) (c : Callback α) : Prop :=
  ∃ i p, s.posts i = some p ∧ (p.pc = .clearReady ∨ p.pc = .notify) ∧
    p.dropped = some c

def reports [DecidableEq α] (s : ThreadPool ι α) (c : Callback α) : ℕ :=
  (s.notified.map Notification.dropped).count (some c)

/-- The guarantees: callbacks are invoked in the order of their tickets and so at
most once, a posted callback is invoked, or still on its way, or reported by
exactly one notification, and a callback that a post is about to remove is the
oldest one that waits. -/
structure DeliversInOrder [DecidableEq α] (s : ThreadPool ι α) : Prop where
  ordered : (s.invoked.map Callback.ticket).Pairwise (· < ·)
  accounted : ∀ c ∈ s.posted,
    (c ∈ s.invoked ∧ s.reports c = 0) ∨
    (c ∉ s.invoked ∧ s.reports c = 0 ∧
      (s.Queued c ∨ s.hand = some c ∨ s.BeingDropped c)) ∨
    (c ∉ s.invoked ∧ s.reports c = 1)
  oldest : ∀ i p c, s.posts i = some p → p.pc = .clearFn →
    (s.slot p.idx).fn = some c → ∀ c' ∈ s.posted, s.Queued c' →
      c.ticket ≤ c'.ticket

/-- No thread is inside `post`. -/
def NoPost (s : ThreadPool ι α) : Prop := ∀ i, s.posts i = none

/-- The consumer has cleared the flag of the slot at `tail_` and is about to
advance `tail_`. -/
def Advancing (s : ThreadPool ι α) : Prop := ∃ fn, s.consumer = .advanceTail fn

variable {s : ThreadPool ι α}

/-! ## Uninterrupted runs -/

section Uninterrupted

variable [DecidableEq ι] {i : ι}

def wholePost (i : ι) (fn : Option α) : List (Event ι α) :=
  .call i fn :: .post i :: List.replicate 3 (.post i)

def wholeOverflow (i : ι) (fn : Option α) : List (Event ι α) :=
  .call i fn :: .post i :: (List.replicate 64 (.post i) ++ List.replicate 6 (.post i))

def wholeTake : List (Event ι α) := List.replicate 8 .consume

theorem setPost_setPost (s : ThreadPool ι α) (i : ι) (p q : Option (Post α)) :
    (s.setPost i p).setPost i q = s.setPost i q := by
  simp [setPost]

theorem setPost_none (hi : s.posts i = none) : s.setPost i none = s := by
  rw [setPost, ← hi, Function.update_eq_self]

theorem step_setPost (s : ThreadPool ι α) (i : ι) (p : Post α) :
    step (s.setPost i (some p)) (.post i) = s.postStep i p := by
  simp only [step, posts_setPost_self]
  unfold postStep
  cases hpc : p.pc with
  | load spin =>
      have hslot : (s.setPost i (some p)).slot p.idx = s.slot p.idx := rfl
      simp only [hslot, setPost_setPost]
  | fetchAdd => exact setPost_setPost { s with head := s.head + 1 } i _ _
  | clearFn => exact setPost_setPost (s.setFn p.idx none) i _ _
  | clearReady => exact setPost_setPost (s.setReady p.idx false) i _ _
  | notify =>
      exact setPost_setPost { s with
        notified :=
          if s.overflowHandler then s.notified ++ [⟨.bufferFull, p.dropped⟩]
          else s.notified } i _ _
  | writeFn => exact setPost_setPost (s.setFn p.idx p.callback) i _ _
  | setReady =>
      exact setPost_setPost { s.setReady p.idx true with
        posted := s.posted ++ p.callback.toList } i _ _

theorem run_post (s : ThreadPool ι α) (i : ι) (p : Post α) (evs : List (Event ι α)) :
    run step (s.setPost i (some p)) (.post i :: evs) =
      run step (s.postStep i p) evs := by
  rw [run_cons, step_setPost]

theorem step_call (hi : s.posts i = none) (fn : Option α) :
    step s (.call i fn) = s.setPost i (some (Post.start fn)) := by
  simp only [step, hi]

theorem run_enter (hi : s.posts i = none) (fn : Option α) (evs : List (Event ι α)) :
    run step s (.call i fn :: .post i :: evs) =
      run step ({ s with head := s.head + 1 }.setPost i
        (some ⟨fn, s.head, none, .load 0⟩)) evs := by
  rw [run_cons, step_call hi, run_post]
  rfl

theorem run_write (hi : s.posts i = none) (p : Post α) (hpc : p.pc = .writeFn) :
    run step (s.setPost i (some p)) (List.replicate 2 (.post i)) =
      { s with
        slots := Function.update s.slots (s.slotIdx p.idx) ⟨p.callback, true⟩
        posted := s.posted ++ p.callback.toList } := by
  have hwrite : s.postStep i p =
      (s.setFn p.idx p.callback).setPost i (some { p with pc := .setReady }) := by
    simp only [postStep, hpc]
  rw [List.replicate_succ, run_post, hwrite, List.replicate_one, run_post, run_nil]
  simp only [postStep]
  rw [setPost_none (by exact hi)]
  simp [setReady, setFn, slot, slotIdx, Post.callback]

theorem postStep_load {p : Post α} {spin : ℕ} (hpc : p.pc = .load spin)
    (hfree : (s.slot p.idx).ready = false) :
    s.postStep i p = s.setPost i (some { p with pc := .writeFn }) := by
  simp only [postStep, hpc, hfree, Bool.false_eq_true, if_false]

theorem run_wholePost (hi : s.posts i = none) (hfree : (s.slot s.head).ready = false)
    (fn : Option α) :
    run step s (wholePost i fn) =
      { s with
        head := s.head + 1
        slots := Function.update s.slots (s.slotIdx s.head)
          ⟨fn.map (Callback.mk s.head), true⟩
        posted := s.posted ++ (fn.map (Callback.mk s.head)).toList } := by
  rw [wholePost, run_enter hi, List.replicate_succ, run_post,
    postStep_load rfl (by exact hfree)]
  exact run_write (s := { s with head := s.head + 1 }) hi _ rfl

theorem run_loads (spin : ℕ) {p : Post α} (hpc : p.pc = .load spin)
    (hbusy : (s.slot p.idx).ready = true) {k : ℕ} (hk : spin + k ≤ 64) :
    run step (s.setPost i (some p)) (List.replicate k (.post i)) =
      s.setPost i (some { p with pc := .load (spin + k) }) := by
  induction k generalizing p spin with
  | zero =>
      rw [List.replicate_zero, run_nil, Nat.add_zero, ← hpc]
  | succ k ih =>
      have hload : s.postStep i p =
          s.setPost i (some { p with pc := .load (spin + 1) }) := by
        have hspin : ¬ spin + 1 > 64 := by omega
        simp only [postStep, hpc, hbusy, if_true, hspin, if_false]
      rw [List.replicate_succ, run_post, hload]
      have hrest := ih (spin + 1) (p := { p with pc := .load (spin + 1) }) rfl hbusy
        (by omega)
      rw [hrest, Nat.add_assoc, Nat.add_comm 1]

theorem run_wholeOverflow (hi : s.posts i = none)
    (hbusy : (s.slot s.head).ready = true) (hhandler : s.overflowHandler = true)
    (fn : Option α) :
    run step s (wholeOverflow i fn) =
      { s with
        head := s.head + 1
        slots := Function.update s.slots (s.slotIdx s.head)
          ⟨fn.map (Callback.mk s.head), true⟩
        posted := s.posted ++ (fn.map (Callback.mk s.head)).toList
        notified := s.notified ++ [⟨.bufferFull, (s.slot s.head).fn⟩] } := by
  have hgiveUp : { s with head := s.head + 1 }.postStep i ⟨fn, s.head, none, .load 64⟩ =
      { s with head := s.head + 1 }.setPost i (some ⟨fn, s.head, none, .clearFn⟩) := by
    have hbusy' : ({ s with head := s.head + 1 }.slot s.head).ready = true := hbusy
    have hspin : 64 + 1 > 64 := by omega
    simp only [postStep, hbusy', if_true, hspin]
  rw [wholeOverflow, run_enter hi, run_append, run_loads 0 rfl (by exact hbusy) (by omega)]
  have hclear : run step ({ s with head := s.head + 1 }.setPost i
      (some ⟨fn, s.head, none, .load 64⟩)) (List.replicate 4 (.post i)) =
      { (({ s with head := s.head + 1 }.setFn s.head none).setReady s.head false) with
        notified := s.notified ++ [Notification.mk .bufferFull (s.slot s.head).fn]
        }.setPost i (some ⟨fn, s.head, (s.slot s.head).fn, .writeFn⟩) := by
    simp only [List.replicate_succ, List.replicate_zero]
    rw [run_post, hgiveUp, run_post]
    change run step (({ s with head := s.head + 1 }.setFn s.head none).setPost i
      (some ⟨fn, s.head, (s.slot s.head).fn, .clearReady⟩)) _ = _
    rw [run_post]
    change run step ((({ s with head := s.head + 1 }.setFn s.head none).setReady s.head
      false).setPost i (some ⟨fn, s.head, (s.slot s.head).fn, .notify⟩)) _ = _
    rw [run_post, run_nil]
    have hhandler' : (({ s with head := s.head + 1 }.setFn s.head none).setReady
        s.head false).overflowHandler = true := hhandler
    simp only [postStep, hhandler', if_true]
    rfl
  have hsplit : List.replicate 6 (Event.post i : Event ι α) =
      List.replicate 4 (.post i) ++ List.replicate 2 (.post i) := rfl
  rw [hsplit, run_append]
  have hstart : ({ (⟨fn, s.head, none, .load 0⟩ : Post α) with
      pc := .load (0 + 64) } : Post α) = ⟨fn, s.head, none, .load 64⟩ := rfl
  rw [hstart, hclear, run_write (by exact hi) _ rfl]
  simp [setReady, setFn, slot, slotIdx, Post.callback]

theorem run_wholeTake (hpc : s.consumer = .loadRunning) (hrunning : s.running = true)
    (hready : (s.slot s.tail).ready = true) :
    run step s wholeTake =
      { s with
        tail := s.tail + 1
        slots := Function.update s.slots (s.slotIdx s.tail) ⟨none, false⟩
        invoked := s.invoked ++ (s.slot s.tail).fn.toList } := by
  have hlook : run step s (List.replicate 3 .consume) =
      { s with consumer := .moveFn s.tail } := by
    simp only [List.replicate_succ, List.replicate_zero, run_cons, run_nil, step,
      consumerStep, hpc, hrunning, if_true]
    rw [if_pos (by exact hready)]
  have hsplit : (wholeTake : List (Event ι α)) =
      List.replicate 3 .consume ++ List.replicate 5 .consume := rfl
  rw [hsplit, run_append, hlook]
  simp only [List.replicate_succ, List.replicate_zero, run_cons, run_nil, step,
    consumerStep]
  simp [setReady, setFn, slot, slotIdx, hpc]

/-- The first `stop` is a post of the no-op after the flag has been cleared. -/
theorem run_stop (hi : s.posts i = none) (hrunning : s.running = true) (noop : α)
    (evs : List (Event ι α)) :
    run step s (.stop i noop :: evs) =
      run step { s with running := false } (.call i (some noop) :: evs) := by
  simp only [run_cons, step, hi, hrunning, if_true]

theorem inTurn_of_pastLoop {p : Post α} (hfetch : p.pc ≠ .fetchAdd)
    (hpast : ∀ spin, p.pc ≠ .load spin) :
    (s.setPost i (some p)).InTurn (.post i) := by
  intro q hq
  rw [posts_setPost_self] at hq
  obtain rfl := Option.some.inj hq
  refine ⟨fun hpc => absurd hpc hfetch, ?_⟩
  rintro ⟨spin, hspin, -⟩
  exact absurd hspin (hpast spin)

theorem guarded_post {p : Post α} {evs : List (Event ι α)}
    (hturn : (s.setPost i (some p)).InTurn (.post i))
    (hrest : Guarded step InTurn (s.postStep i p) evs) :
    Guarded step InTurn (s.setPost i (some p)) (.post i :: evs) :=
  ⟨hturn, by rwa [step_setPost]⟩

/-- An uninterrupted post is in turn when the callback one lap earlier has been
taken. -/
theorem guarded_wholePost (hi : s.posts i = none)
    (hfree : (s.slot s.head).ready = false) (hhead : s.head.toNat + 1 < 2 ^ 64)
    (hroom : s.head.toNat < s.taken + s.capacity) (fn : Option α) :
    Guarded step InTurn s (wholePost i fn) := by
  refine ⟨trivial, ?_⟩
  rw [step_call hi]
  refine guarded_post ?_ ?_
  · intro p hp
    rw [posts_setPost_self] at hp
    obtain rfl := Option.some.inj hp
    refine ⟨fun _ => hhead, ?_⟩
    rintro ⟨spin, hspin, -⟩
    cases hspin
  change Guarded step InTurn ({ s with head := s.head + 1 }.setPost i
    (some ⟨fn, s.head, none, .load 0⟩)) (List.replicate 3 (.post i))
  refine guarded_post ?_ ?_
  · intro p hp
    rw [posts_setPost_self] at hp
    obtain rfl := Option.some.inj hp
    exact ⟨fun hpc => (by cases hpc), fun _ => hroom⟩
  rw [postStep_load rfl (by exact hfree)]
  refine guarded_post (inTurn_of_pastLoop (by simp) (by simp)) ?_
  exact guarded_post (inTurn_of_pastLoop (by simp) (by simp)) trivial

theorem guarded_wholeTake : Guarded step InTurn s wholeTake :=
  ⟨trivial, trivial, trivial, trivial, trivial, trivial, trivial, trivial, trivial⟩

end Uninterrupted

/-- The pool of sixteen slots after `n` posts of one thread. -/
def filled (n : ℕ) : ThreadPool Unit Unit :=
  { create Unit Unit 16 true with
    slots := fun k =>
      if k < n then ⟨some ⟨UInt64.ofNat k, ()⟩, true⟩ else ⟨none, false⟩
    head := UInt64.ofNat n
    posted := (List.range n).map fun k => ⟨UInt64.ofNat k, ()⟩ }

theorem run_filled {n : ℕ} (hn : n < 16) :
    run step (filled n) (wholePost () (some ())) = filled (n + 1) := by
  have hidx : (filled n).slotIdx (filled n).head = n := by
    revert n
    decide
  have hfree : ((filled n).slot (filled n).head).ready = false := by
    rw [slot, hidx]
    simp [filled]
  rw [run_wholePost rfl hfree, hidx]
  simp only [filled, ThreadPool.mk.injEq, true_and]
  refine ⟨?_, ?_, ?_, trivial⟩
  · funext k
    rcases Nat.lt_trichotomy k n with hlt | rfl | hgt
    · simp [hlt, hlt.ne, Nat.lt_succ_of_lt hlt]
    · simp
    · simp [hgt.ne', Nat.not_lt.mpr hgt.le, Nat.not_lt.mpr hgt]
  · revert n
    decide
  · simp [List.range_succ]

/-- The full pool after one more post and `k` rounds of the consumer: the newest
callback stands in the first slot. -/
def lapped (k : ℕ) : ThreadPool Unit Unit :=
  { filled 16 with
    slots := fun j =>
      if j < k then ⟨none, false⟩
      else if j = 0 then ⟨some ⟨16, ()⟩, true⟩ else (filled 16).slots j
    head := 17
    tail := UInt64.ofNat k
    posted := (filled 16).posted ++ [⟨16, ()⟩]
    invoked := (List.range k).map fun j => ⟨if j = 0 then 16 else UInt64.ofNat j, ()⟩
    notified := [⟨.bufferFull, some ⟨0, ()⟩⟩] }

theorem run_lapped_zero :
    run step (filled 16) (wholeOverflow () (some ())) = lapped 0 := by
  have hidx : (filled 16).slotIdx (filled 16).head = 0 := by decide
  have hbusy : ((filled 16).slot (filled 16).head).ready = true := by decide
  rw [run_wholeOverflow rfl hbusy rfl, hidx]
  simp only [lapped, ThreadPool.mk.injEq, true_and]
  refine ⟨?_, rfl, rfl, rfl, rfl, rfl⟩
  funext j
  by_cases hj : j = 0
  · subst hj
    rfl
  · simp [hj]

theorem run_lapped {k : ℕ} (hk : k < 16) :
    run step (lapped k) wholeTake = lapped (k + 1) := by
  have hidx : (lapped k).slotIdx (lapped k).tail = k := by
    revert k
    decide
  have hslot : (lapped k).slot (lapped k).tail =
      ⟨some ⟨if k = 0 then 16 else UInt64.ofNat k, ()⟩, true⟩ := by
    rw [slot, hidx]
    revert k
    decide
  rw [run_wholeTake rfl rfl (by rw [hslot]), hslot, hidx]
  simp only [lapped, ThreadPool.mk.injEq, true_and]
  refine ⟨?_, ?_, ?_, trivial⟩
  · funext j
    rcases Nat.lt_trichotomy j k with hlt | rfl | hgt
    · simp [hlt, hlt.ne, Nat.lt_succ_of_lt hlt]
    · simp
    · simp [hgt.ne', Nat.not_lt.mpr hgt.le, Nat.not_lt.mpr hgt]
  · revert k
    decide
  · simp [List.range_succ]

/-- Seventeen posts without a step of the consumer, then `k` rounds of the
consumer. -/
def overflowRun (k : ℕ) : List (Event Unit Unit) :=
  (List.replicate 16 (wholePost () (some ()))).flatten ++
    (wholeOverflow () (some ()) ++ (List.replicate k wholeTake).flatten)

theorem run_overflowRun {k : ℕ} (hk : k ≤ 16) :
    run step (create Unit Unit 16 true) (overflowRun k) = lapped k := by
  have hfill : ∀ n ≤ 16, run step (create Unit Unit 16 true)
      (List.replicate n (wholePost () (some ()))).flatten = filled n := by
    intro n hn
    induction n with
    | zero => rfl
    | succ n ih =>
        rw [List.replicate_succ', List.flatten_append, run_append, ih (by omega)]
        simpa using run_filled hn
  have htake : ∀ k ≤ 16, run step (lapped 0)
      (List.replicate k wholeTake).flatten = lapped k := by
    intro k hk
    induction k with
    | zero => rfl
    | succ k ih =>
        rw [List.replicate_succ', List.flatten_append, run_append, ih (by omega)]
        simpa using run_lapped hk
  rw [overflowRun, run_append, hfill 16 (Nat.le_refl 16), run_append,
    run_lapped_zero, htake k hk]

/-- The pool of sixteen slots after `n` callbacks that have been invoked one by
one. -/
def served (n : ℕ) : ThreadPool Bool ℕ :=
  { create Bool ℕ 16 true with
    head := UInt64.ofNat n
    tail := UInt64.ofNat n
    posted := (List.range n).map fun k => ⟨UInt64.ofNat k, k⟩
    invoked := (List.range n).map fun k => ⟨UInt64.ofNat k, k⟩ }

def servedRun (n : ℕ) : List (Event Bool ℕ) :=
  (List.range n).flatMap fun k => wholePost true (some k) ++ wholeTake

theorem servedRun_succ (n : ℕ) :
    servedRun (n + 1) = servedRun n ++ (wholePost true (some n) ++ wholeTake) := by
  simp [servedRun, List.range_succ]

theorem toNat_head_served {n : ℕ} (hn : n < 2 ^ 63) : (served n).head.toNat = n :=
  UInt64.toNat_ofNat_of_lt' (by
    change n < 2 ^ 64
    omega)

theorem run_served (n : ℕ) :
    run step (served n) (wholePost true (some n) ++ wholeTake) = served (n + 1) := by
  rw [run_append, run_wholePost rfl rfl, run_wholeTake rfl rfl]
  · simp [served, slot, slotIdx, create, List.range_succ]
  · simp [served, slot, slotIdx]

theorem run_servedRun (n : ℕ) :
    run step (create Bool ℕ 16 true) (servedRun n) = served n := by
  induction n with
  | zero => rfl
  | succ n ih => rw [servedRun_succ, run_append, ih, run_served]

theorem guarded_servedRun {n : ℕ} (hn : n < 2 ^ 63) :
    Guarded step InTurn (create Bool ℕ 16 true) (servedRun n) := by
  induction n with
  | zero => trivial
  | succ n ih =>
      rw [servedRun_succ]
      refine guarded_append.mpr ⟨ih (by omega), ?_⟩
      rw [run_servedRun]
      refine guarded_append.mpr ⟨?_, guarded_wholeTake⟩
      have hhead := toNat_head_served (n := n) (by omega)
      refine guarded_wholePost rfl rfl (by rw [hhead]; omega) ?_ _
      change (served n).head.toNat < (served n).head.toNat + 0 + 16
      omega

/-- Seventeen callbacks on sixteen slots, and one more from each of two threads. -/
def waitingRun : List (Event Bool ℕ) :=
  servedRun 17 ++ (wholePost true (some 17) ++ wholePost false (some 18))

def waiting : ThreadPool Bool ℕ :=
  { served 17 with
    head := 19
    slots := Function.update (Function.update (served 17).slots 1 ⟨some ⟨17, 17⟩, true⟩)
      2 ⟨some ⟨18, 18⟩, true⟩
    posted := (served 17).posted ++ [⟨17, 17⟩, ⟨18, 18⟩] }

theorem run_waitingRun : run step (create Bool ℕ 16 true) waitingRun = waiting := by
  rw [waitingRun, run_append, run_servedRun, run_append, run_wholePost rfl rfl,
    run_wholePost rfl (by decide)]
  rfl

theorem guarded_waitingRun :
    Guarded step InTurn (create Bool ℕ 16 true) waitingRun := by
  refine guarded_append.mpr ⟨guarded_servedRun (by omega), ?_⟩
  rw [run_servedRun]
  refine guarded_append.mpr ⟨guarded_wholePost rfl rfl (by decide) (by decide) _, ?_⟩
  rw [run_wholePost rfl rfl]
  exact guarded_wholePost rfl (by decide) (by decide) (by decide) _

/-! ## Order -/

/-- A callback that is in the hand of the consumer, or waits in the current lap,
has not been invoked. -/
theorem QueueInv.notMem_invoked (h : QueueInv s) {c : Callback α}
    (hc : s.hand = some c ∨ s.InWindow c.ticket) : c ∉ s.invoked := by
  intro hmem
  have hlt := h.invoked_lt c hmem
  have hcons := h.consumer
  unfold floor at hlt
  unfold hand InWindow taken at hc
  unfold ConsumerInv at hcons
  cases hpc : s.consumer with
  | clearFn t fn | clearReady t fn =>
      rw [hpc] at hc hlt hcons
      rcases hc with hheld | ⟨hwin, -⟩
      · have heq := (hcons.2.2.2 c hheld).trans hcons.1
        rw [heq] at hlt
        exact Nat.lt_irrefl _ hlt
      · exact absurd hlt (Nat.not_lt.mpr hwin)
  | advanceTail fn =>
      rw [hpc] at hc hlt hcons
      rcases hc with hheld | ⟨hwin, -⟩
      · rw [hcons c hheld] at hlt
        exact Nat.lt_irrefl _ hlt
      · dsimp only at hlt hwin
        omega
  | invoke fn =>
      rw [hpc] at hc hlt hcons
      rcases hc with hheld | ⟨hwin, -⟩
      · have heq := hcons.2 c hheld
        dsimp only at hlt
        omega
      · dsimp only at hlt hwin
        omega
  | loadRunning | pendingHead | pendingTail hd | loadTail | loadReady t | moveFn t
  | exited =>
      rw [hpc] at hc hlt
      rcases hc with hheld | ⟨hwin, -⟩
      · cases hheld
      · exact absurd hlt (Nat.not_lt.mpr hwin)

theorem QueueInv.deliversInOrder [DecidableEq α] (h : QueueInv s) :
    DeliversInOrder s := by
  have hreports : ∀ c, s.reports c = 0 := by
    intro c
    rw [reports, h.notified]
    rfl
  refine ⟨h.ordered, ?_, ?_⟩
  · intro c hc
    rcases h.kept c hc with hinv | hheld | ⟨hwin, hqueued⟩
    · exact .inl ⟨hinv, hreports c⟩
    · exact .inr (.inl ⟨h.notMem_invoked (.inl hheld), hreports c, .inr (.inl hheld)⟩)
    · exact .inr (.inl ⟨h.notMem_invoked (.inr hwin), hreports c, .inl hqueued⟩)
  · intro i p c hp hpc
    have hpost := h.posts i p hp
    simp only [PostInv, hpc] at hpost

/-- In every run whose posts wait for their turn, callbacks are invoked in the
order of their tickets, each at most once, and none is lost. -/
theorem deliversInOrder_of_inTurn [DecidableEq ι] [DecidableEq α]
    (queueDepth : UInt64) (hdepth : queueDepth.toNat ≤ 2 ^ 63)
    (overflowHandler : Bool) (evs : List (Event ι α))
    (hturn : Guarded step InTurn (create ι α queueDepth overflowHandler) evs) :
    DeliversInOrder (run step (create ι α queueDepth overflowHandler) evs) :=
  (queueInv_run hdepth hturn).deliversInOrder

/-- Seventeen callbacks are invoked in their order, the last one from a slot in
its second lap, and two more wait. -/
theorem deliversInOrder_of_inTurn_waiting :
    let s := run step (create Bool ℕ 16 true) waitingRun
    DeliversInOrder s ∧ s.posted.map Callback.fn = List.range 19 ∧
      s.invoked.map Callback.fn = List.range 17 := by
  refine ⟨deliversInOrder_of_inTurn 16 (by decide) true _ guarded_waitingRun, ?_, ?_⟩
  · rw [run_waitingRun]
    rfl
  · rw [run_waitingRun]
    rfl

/-- With two rounds of the consumer the seventeenth callback has been invoked
before the second. -/
theorem deliversInOrder_overflow :
    ¬ DeliversInOrder (run step (create Unit Unit 16 true) (overflowRun 2)) := by
  rw [run_overflowRun (by omega)]
  intro h
  exact absurd h.ordered (by decide)

/-! ## Draining -/

theorem pending_pos_iff (s : ThreadPool ι α) : 0 < s.pending ↔ s.tail < s.head := by
  rw [UInt64.lt_iff_toNat_lt, pending]
  exact Nat.sub_pos_iff_lt

/-- With no post under way, a pending ticket is done, and its slot is ready
unless the consumer has just given it back. -/
theorem QueueInv.ready_tail (h : QueueInv s) (hno : s.NoPost) (hpending : 0 < s.pending)
    (hadv : ¬ s.Advancing) : (s.slot s.tail).ready = true := by
  have hdone : s.Done s.tail := by
    refine ⟨s.pending_pos_iff.mp hpending, ?_⟩
    rintro ⟨i, p, hp, -⟩
    rw [hno i] at hp
    cases hp
  have htaken : s.taken = s.tail.toNat := by
    unfold taken
    cases hpc : s.consumer with
    | advanceTail fn => exact absurd ⟨fn, hpc⟩ hadv
    | _ => rfl
  exact (h.ready _ (h.inWindow_of_done hdone htaken.le)).mpr hdone

/-- With nothing pending, the slot that the consumer looks at is not ready. -/
theorem QueueInv.not_ready_tail (h : QueueInv s) {t : UInt64}
    (hpc : s.consumer = .loadReady t) (hzero : s.pending = 0) :
    (s.slot s.tail).ready = false := by
  have hwin : s.InWindow s.tail := by simp [InWindow, taken, hpc, capacity]
  rw [Bool.eq_false_iff]
  intro hready
  have hdone := (h.ready _ hwin).mp hready
  exact (s.pending_pos_iff.mpr hdone.1).ne' hzero

/-- A bound for the steps that separate the consumer from its exit when nothing
else happens: a whole round for each pending ticket, or the way to the exit
test. -/
def drainRank (pending : ℕ) (tail : UInt64) : ConsumerPc α → ℕ
  | .pendingTail h =>
      if pending = 0 then if tail < h then 6 else 1 else 12 * pending + 9
  | .loadTail => if pending = 0 then 5 else 12 * pending + 8
  | .loadReady _ => if pending = 0 then 4 else 12 * pending + 7
  | .moveFn _ => 12 * pending + 6
  | .clearFn _ _ => 12 * pending + 5
  | .clearReady _ _ => 12 * pending + 4
  | .advanceTail _ => 12 * pending + 3
  | .invoke _ => if pending = 0 then 4 else 12 * pending + 12
  | .loadRunning => if pending = 0 then 3 else 12 * pending + 11
  | .pendingHead => if pending = 0 then 2 else 12 * pending + 10
  | .exited => 0

theorem QueueInv.drainRank_lt (h : QueueInv s) (hno : s.NoPost)
    (hstopped : s.running = false) (hexit : s.consumer ≠ .exited) :
    drainRank s.consumerStep.pending s.consumerStep.tail s.consumerStep.consumer <
      drainRank s.pending s.tail s.consumer := by
  have hcons := h.consumer
  unfold ConsumerInv at hcons
  unfold ThreadPool.consumerStep
  cases hpc : s.consumer with
  | loadRunning =>
      simp only [hstopped, Bool.false_eq_true, if_false]
      change drainRank s.pending s.tail .pendingHead < _
      simp only [drainRank]
      split <;> omega
  | pendingHead =>
      change drainRank s.pending s.tail (.pendingTail s.head) < _
      have hstale : s.pending = 0 → ¬ s.tail < s.head := fun hzero hlt =>
        (s.pending_pos_iff.mpr hlt).ne' hzero
      simp only [drainRank]
      split
      · next hzero =>
          rw [if_neg (hstale hzero)]
          omega
      · omega
  | pendingTail hd =>
      by_cases hlt : s.tail < hd
      · simp only [hlt, if_true]
        change drainRank s.pending s.tail .loadTail < _
        simp only [drainRank, hlt, if_true]
        split <;> omega
      · simp only [hlt, if_false]
        change drainRank s.pending s.tail .exited < _
        simp only [drainRank, hlt, if_false]
        split <;> omega
  | loadTail =>
      change drainRank s.pending s.tail (.loadReady s.tail) < _
      simp only [drainRank]
      split <;> omega
  | loadReady t =>
      rw [hpc] at hcons
      subst hcons
      by_cases hzero : s.pending = 0
      · simp only [h.not_ready_tail hpc hzero, Bool.false_eq_true, if_false]
        change drainRank s.pending s.tail .loadRunning < _
        simp only [drainRank, hzero, if_true]
        omega
      · have hadv : ¬ s.Advancing := by
          rintro ⟨fn, hfn⟩
          rw [hpc] at hfn
          cases hfn
        have hready := h.ready_tail hno (Nat.pos_of_ne_zero hzero) hadv
        simp only [hready, if_true]
        change drainRank s.pending s.tail (.moveFn s.tail) < _
        simp only [drainRank, hzero, if_false]
        omega
  | moveFn t =>
      change drainRank s.pending s.tail (.clearFn t _) < _
      exact Nat.lt_succ_self _
  | clearFn t fn =>
      change drainRank s.pending s.tail (.clearReady t fn) < _
      exact Nat.lt_succ_self _
  | clearReady t fn =>
      change drainRank s.pending s.tail (.advanceTail fn) < _
      exact Nat.lt_succ_self _
  | advanceTail fn =>
      obtain ⟨htail, hle⟩ := h.tail_succ hpc
      have hpending : s.head.toNat - (s.tail + 1).toNat + 1 = s.pending := by
        rw [htail, pending]
        omega
      change drainRank (s.head.toNat - (s.tail + 1).toNat) (s.tail + 1) (.invoke fn) < _
      simp only [drainRank]
      split <;> omega
  | invoke fn =>
      change drainRank s.pending s.tail .loadRunning < _
      simp only [drainRank]
      split <;> omega
  | exited => exact absurd hpc hexit

theorem consumerStep_frame (s : ThreadPool ι α) :
    s.consumerStep.posts = s.posts ∧ s.consumerStep.running = s.running := by
  unfold consumerStep
  split <;> exact ⟨rfl, rfl⟩

theorem QueueInv.exists_exited [DecidableEq ι] (h : QueueInv s) (hno : s.NoPost)
    (hstopped : s.running = false) :
    ∃ n, (run step s (List.replicate n .consume)).consumer = .exited := by
  induction hrank : drainRank s.pending s.tail s.consumer using Nat.strong_induction_on
    generalizing s with
  | _ rank ih =>
      by_cases hexit : s.consumer = .exited
      · exact ⟨0, hexit⟩
      · obtain ⟨hposts, hrunning⟩ := s.consumerStep_frame
        have hno' : s.consumerStep.NoPost := by
          intro i
          rw [hposts]
          exact hno i
        obtain ⟨n, hn⟩ := ih _ (hrank ▸ h.drainRank_lt hno hstopped hexit)
          h.consumerStep hno' (hrunning.trans hstopped) rfl
        exact ⟨n + 1, hn⟩

/-- In every run whose posts wait for their turn: whenever no post is under way
and callbacks are pending, the slot at `tail_` is ready, unless the consumer has
just taken it and is about to advance `tail_`; and once the pool is stopped the
consumer reaches its exit. -/
theorem drainable_of_inTurn [DecidableEq ι] (queueDepth : UInt64)
    (hdepth : queueDepth.toNat ≤ 2 ^ 63) (overflowHandler : Bool)
    (evs : List (Event ι α))
    (hturn : Guarded step InTurn (create ι α queueDepth overflowHandler) evs)
    (hno : (run step (create ι α queueDepth overflowHandler) evs).NoPost) :
    let s := run step (create ι α queueDepth overflowHandler) evs
    (0 < s.pending → ¬ s.Advancing → (s.slot s.tail).ready = true) ∧
      (s.running = false →
        ∃ n, (run step s (List.replicate n .consume)).consumer = .exited) := by
  intro s
  have h : QueueInv s := queueInv_run hdepth hturn
  exact ⟨h.ready_tail hno, h.exists_exited hno⟩

/-- The pool is stopped while two callbacks wait: with the no-op three are
pending, and the consumer takes them and exits. -/
theorem drainable_of_inTurn_stop :
    let s := run step (create Bool ℕ 16 true)
      (waitingRun ++ .stop true 19 :: List.replicate 4 (.post true))
    s.pending = 3 ∧ (s.slot s.tail).ready = true ∧
      ∃ n, (run step s (List.replicate n .consume)).consumer = .exited := by
  intro s
  have hwhole : (.call true (some 19) :: List.replicate 4 (.post true) :
      List (Event Bool ℕ)) = wholePost true (some 19) := rfl
  have hturn : Guarded step InTurn (create Bool ℕ 16 true)
      (waitingRun ++ .stop true 19 :: List.replicate 4 (.post true)) := by
    refine guarded_append.mpr ⟨guarded_waitingRun, ?_⟩
    rw [run_waitingRun]
    have hpost : Guarded step InTurn { waiting with running := false }
        (wholePost true (some 19)) :=
      guarded_wholePost rfl (by decide) (by decide) (by decide) _
    exact ⟨trivial, hpost.2⟩
  have hs : s = { waiting with
      running := false
      head := 20
      slots := Function.update waiting.slots 3 ⟨some ⟨19, 19⟩, true⟩
      posted := waiting.posted ++ [⟨19, 19⟩] } := by
    rw [show s = _ from run_append .., run_waitingRun, run_stop rfl rfl, hwhole,
      run_wholePost rfl (by decide)]
    rfl
  have hno : s.NoPost := by
    intro i
    rw [hs]
    rfl
  have hpending : s.pending = 3 := by
    rw [hs]
    rfl
  have hadv : ¬ s.Advancing := by
    rw [hs]
    rintro ⟨fn, hfn⟩
    cases hfn
  have hrunning : s.running = false := by rw [hs]
  obtain ⟨hready, hexit⟩ := drainable_of_inTurn 16 (by decide) true _ hturn hno
  exact ⟨hpending, hready (by rw [hpending]; decide) hadv, hexit hrunning⟩

structure Stuck (s : ThreadPool ι α) : Prop where
  pending : s.tail < s.head
  notReady : (s.slot s.tail).ready = false
  consumer : s.consumer = .loadRunning ∨ s.consumer = .pendingHead ∨
    s.consumer = .pendingTail s.head ∨ s.consumer = .loadTail ∨
    s.consumer = .loadReady s.tail

theorem Stuck.consumerStep (h : Stuck s) : Stuck s.consumerStep := by
  obtain ⟨hlt, hready, hpc⟩ := h
  unfold ThreadPool.consumerStep
  rcases hpc with hpc | hpc | hpc | hpc | hpc
  · simp only [hpc]
    refine ⟨hlt, hready, ?_⟩
    split <;> simp
  · simp only [hpc]
    exact ⟨hlt, hready, by simp⟩
  · simp only [hpc, hlt, if_true]
    exact ⟨hlt, hready, by simp⟩
  · simp only [hpc]
    exact ⟨hlt, hready, by simp⟩
  · simp only [hpc, hready, Bool.false_eq_true, if_false]
    exact ⟨hlt, hready, by simp⟩

theorem Stuck.ne_exited [DecidableEq ι] (h : Stuck s) (n : ℕ) :
    (run step s (List.replicate n .consume)).consumer ≠ .exited := by
  induction n generalizing s with
  | zero =>
      rcases h.consumer with hpc | hpc | hpc | hpc | hpc <;> simp [hpc]
  | succ n ih => exact ih h.consumerStep

/-- With sixteen rounds one ticket is pending and its slot is empty: after `stop`
the consumer never reaches its exit. -/
theorem drainable_overflow :
    let s := run step (create Unit Unit 16 true) (overflowRun 16)
    s.NoPost ∧ s.pending = 1 ∧ ¬ s.Advancing ∧ (s.slot s.tail).ready = false ∧
      ∀ n, (run step s (.stop () () :: .post () :: (List.replicate 3 (.post ()) ++
        List.replicate n .consume))).consumer ≠ .exited := by
  intro s
  have hs : s = lapped 16 := run_overflowRun (Nat.le_refl 16)
  rw [hs]
  refine ⟨fun _ => rfl, by decide, ?_, by decide, ?_⟩
  · rintro ⟨fn, hfn⟩
    cases hfn
  · intro n
    have hpost : (.call () (some ()) :: .post () :: (List.replicate 3 (.post ()) ++
        List.replicate n .consume) : List (Event Unit Unit)) =
        wholePost () (some ()) ++ List.replicate n .consume := rfl
    rw [run_stop rfl rfl, hpost, run_append, run_wholePost rfl (by decide)]
    exact Stuck.ne_exited ⟨by decide, by decide, .inl rfl⟩ n

end ThreadPool

end Proxy

end Shinigami
