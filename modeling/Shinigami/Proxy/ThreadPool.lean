import Mathlib.Data.Nat.Size
import Shinigami.Foundations.Run
import Shinigami.Proxy.Connection

/-!
# The callback queue

`ProxyThreadPool`: a ring of slots, a ticket counter `head_` for the producers
and a counter `tail_` for the one consumer thread. Every thread executes its code
one atomic operation or slot access at a time, so a state holds where each thread
stands (`PostPc`, `ConsumerPc`), and an `Event` is the next operation of one
thread. A run is any interleaving.

A callback in flight carries the ticket of its post. The lists `posted`,
`invoked` and `notified` are histories that no operation reads.
-/

namespace Shinigami

namespace Proxy

/-- The portable round-up to a power of two, on `size_t`. -/
def nextPow2 (n : UInt64) : UInt64 :=
  if n = 0 then 1
  else
    let n := n - 1
    let n := n ||| n >>> 1
    let n := n ||| n >>> 2
    let n := n ||| n >>> 4
    let n := n ||| n >>> 8
    let n := n ||| n >>> 16
    let n := n ||| n >>> 32
    n + 1

/-- A step of the rounding doubles the distance over which bits are copied
down. -/
theorem testBit_or_shiftRight {x y m : ℕ}
    (h : ∀ i, y.testBit i = true ↔ ∃ d < m, x.testBit (i + d) = true) (i : ℕ) :
    (y ||| y >>> m).testBit i = true ↔ ∃ d < m + m, x.testBit (i + d) = true := by
  rw [Nat.testBit_or, Nat.testBit_shiftRight, Bool.or_eq_true, h, h]
  constructor
  · rintro (⟨d, hd, hbit⟩ | ⟨d, hd, hbit⟩)
    · exact ⟨d, by omega, hbit⟩
    · refine ⟨m + d, by omega, ?_⟩
      rwa [← Nat.add_assoc, Nat.add_comm i m]
  · rintro ⟨d, hd, hbit⟩
    by_cases hlt : d < m
    · exact .inl ⟨d, hlt, hbit⟩
    · refine .inr ⟨d - m, by omega, ?_⟩
      have hsum : m + i + (d - m) = i + d := by omega
      rwa [hsum]

theorem nextPow2_spec {n : UInt64} (hpos : 0 < n.toNat) (hn : n.toNat ≤ 2 ^ 63) :
    ∃ k, (nextPow2 n).toNat = 2 ^ k ∧ n.toNat ≤ 2 ^ k := by
  have hne : n ≠ 0 := by
    rintro rfl
    exact absurd hpos (by decide)
  have hpred : (n - 1).toNat = n.toNat - 1 :=
    UInt64.toNat_sub_of_le _ _ (UInt64.le_iff_toNat_le.mpr hpos)
  generalize hx : (n - 1).toNat = x at hpred
  have hsize : Nat.size x ≤ 63 := Nat.size_le.mpr (by omega)
  have hstart : ∀ i, x.testBit i = true ↔ ∃ d < 1, x.testBit (i + d) = true := by
    simp
  have hbits := testBit_or_shiftRight (testBit_or_shiftRight (testBit_or_shiftRight
    (testBit_or_shiftRight (testBit_or_shiftRight (testBit_or_shiftRight hstart)))))
  simp only [Nat.reduceAdd] at hbits
  have hsmear : ∀ y : ℕ, (∀ i, y.testBit i = true ↔
      ∃ d < 64, x.testBit (i + d) = true) → y = 2 ^ Nat.size x - 1 := by
    intro y hy
    refine Nat.eq_of_testBit_eq fun i => ?_
    rw [Nat.testBit_two_pow_sub_one, Bool.eq_iff_iff, hy, decide_eq_true_iff,
      Nat.lt_size]
    constructor
    · rintro ⟨d, -, hbit⟩
      exact (Nat.pow_le_pow_right (by decide) (Nat.le_add_right i d)).trans
        (Nat.ge_two_pow_of_testBit hbit)
    · intro hge
      obtain ⟨j, hj, hbit⟩ := Nat.exists_ge_and_testBit_of_ge_two_pow hge
      have hlt : j < 63 := by
        refine lt_of_lt_of_le (Nat.lt_size.mpr ?_) hsize
        exact Nat.ge_two_pow_of_testBit hbit
      refine ⟨j - i, by omega, ?_⟩
      rwa [Nat.add_sub_cancel' hj]
  refine ⟨Nat.size x, ?_, ?_⟩
  · have hpow : 2 ^ Nat.size x ≤ 2 ^ 63 := Nat.pow_le_pow_right (by decide) hsize
    have hone : 1 ≤ 2 ^ Nat.size x := Nat.one_le_two_pow
    simp only [nextPow2, hne, if_false, UInt64.toNat_add, UInt64.toNat_or,
      UInt64.toNat_shiftRight, hx, UInt64.reduceToNat, Nat.reduceMod]
    rw [hsmear _ hbits]
    omega
  · have hlt := Nat.lt_size_self x
    omega

def queueCapacity (queueDepth : UInt64) : UInt64 :=
  nextPow2 (if queueDepth < 16 then 16 else queueDepth)

structure Callback (α : Type) where
  ticket : UInt64
  fn : α
deriving DecidableEq, Repr

/-- `Slot`; an empty `std::function` is `none`. -/
structure QueueSlot (α : Type) where
  fn : Option (Callback α)
  ready : Bool
deriving DecidableEq, Repr

/-- The next operation of a thread that is inside `post`. -/
inductive PostPc
  | fetchAdd
  | load (spin : ℕ)
  | clearFn
  | clearReady
  | notify
  | writeFn
  | setReady
deriving DecidableEq, Repr

/-- A call of `post`: the argument, the ticket once it has been fetched, and what
the overflow branch found in the slot. -/
structure Post (α : Type) where
  fn : Option α
  idx : UInt64
  dropped : Option (Callback α)
  pc : PostPc
deriving DecidableEq, Repr

def Post.start {α : Type} (fn : Option α) : Post α := ⟨fn, 0, none, .fetchAdd⟩

/-- What the post moves into the slot. -/
def Post.callback {α : Type} (p : Post α) : Option (Callback α) :=
  p.fn.map (Callback.mk p.idx)

def Post.Claimed {α : Type} (p : Post α) : Prop := p.pc ≠ .fetchAdd

/-- The next operation of `consumerLoop`, with the local variables that are still
used. -/
inductive ConsumerPc (α : Type)
  | loadRunning
  | pendingHead
  | pendingTail (h : UInt64)
  | loadTail
  | loadReady (t : UInt64)
  | moveFn (t : UInt64)
  | clearFn (t : UInt64) (fn : Option (Callback α))
  | clearReady (t : UInt64) (fn : Option (Callback α))
  | advanceTail (fn : Option (Callback α))
  | invoke (fn : Option (Callback α))
  | exited
deriving DecidableEq, Repr

/-- One call of the overflow handler, with the callback that the caller had
removed. -/
structure Notification (α : Type) where
  error : ProxyError
  dropped : Option (Callback α)
deriving DecidableEq, Repr

/-- The pool and its threads. Threads that may post are named by `ι`. -/
structure ThreadPool (ι α : Type) where
  slots : ℕ → QueueSlot α
  mask : UInt64
  head : UInt64
  tail : UInt64
  running : Bool
  overflowHandler : Bool
  posts : ι → Option (Post α)
  consumer : ConsumerPc α
  posted : List (Callback α)
  invoked : List (Callback α)
  notified : List (Notification α)

namespace ThreadPool

variable {ι α : Type}

/-- The pool after its constructor and `setOverflowHandler`. -/
def create (ι α : Type) (queueDepth : UInt64) (overflowHandler : Bool) :
    ThreadPool ι α where
  slots := fun _ => ⟨none, false⟩
  mask := queueCapacity queueDepth - 1
  head := 0
  tail := 0
  running := true
  overflowHandler := overflowHandler
  posts := fun _ => none
  consumer := .loadRunning
  posted := []
  invoked := []
  notified := []

/-- `idx & mask_`. -/
def slotIdx (s : ThreadPool ι α) (idx : UInt64) : ℕ := (idx &&& s.mask).toNat

def slot (s : ThreadPool ι α) (idx : UInt64) : QueueSlot α := s.slots (s.slotIdx idx)

/-- `slots_[idx & mask_].fn = fn`. -/
def setFn (s : ThreadPool ι α) (idx : UInt64) (fn : Option (Callback α)) :
    ThreadPool ι α :=
  { s with
    slots := Function.update s.slots (s.slotIdx idx) { s.slot idx with fn := fn } }

/-- `slots_[idx & mask_].ready.store(ready)`. -/
def setReady (s : ThreadPool ι α) (idx : UInt64) (ready : Bool) : ThreadPool ι α :=
  { s with
    slots := Function.update s.slots (s.slotIdx idx)
      { s.slot idx with ready := ready } }

/-- `pending()`, read in one go. -/
def pending (s : ThreadPool ι α) : ℕ := s.head.toNat - s.tail.toNat

section Step

variable [DecidableEq ι]

def setPost (s : ThreadPool ι α) (i : ι) (p : Option (Post α)) : ThreadPool ι α :=
  { s with posts := Function.update s.posts i p }

/-- The next operation of a thread inside `post`. -/
def postStep (s : ThreadPool ι α) (i : ι) (p : Post α) : ThreadPool ι α :=
  match p.pc with
  | .fetchAdd =>
      { s with head := s.head + 1 }.setPost i
        (some { p with idx := s.head, pc := .load 0 })
  | .load spin =>
      if (s.slot p.idx).ready then
        if spin + 1 > 64 then s.setPost i (some { p with pc := .clearFn })
        else s.setPost i (some { p with pc := .load (spin + 1) })
      else s.setPost i (some { p with pc := .writeFn })
  | .clearFn =>
      (s.setFn p.idx none).setPost i
        (some { p with dropped := (s.slot p.idx).fn, pc := .clearReady })
  | .clearReady =>
      (s.setReady p.idx false).setPost i (some { p with pc := .notify })
  | .notify =>
      let notified : List (Notification α) :=
        if s.overflowHandler then s.notified ++ [⟨.bufferFull, p.dropped⟩]
        else s.notified
      { s with notified := notified }.setPost i (some { p with pc := .writeFn })
  | .writeFn =>
      (s.setFn p.idx p.callback).setPost i (some { p with pc := .setReady })
  | .setReady =>
      { s.setReady p.idx true with
        posted := s.posted ++ p.callback.toList }.setPost i none

def consumerStep (s : ThreadPool ι α) : ThreadPool ι α :=
  match s.consumer with
  | .loadRunning =>
      { s with consumer := if s.running then .loadTail else .pendingHead }
  | .pendingHead => { s with consumer := .pendingTail s.head }
  | .pendingTail h =>
      { s with consumer := if s.tail < h then .loadTail else .exited }
  | .loadTail => { s with consumer := .loadReady s.tail }
  | .loadReady t =>
      { s with consumer := if (s.slot t).ready then .moveFn t else .loadRunning }
  | .moveFn t =>
      { s.setFn t none with consumer := .clearFn t (s.slot t).fn }
  | .clearFn t fn => { s.setFn t none with consumer := .clearReady t fn }
  | .clearReady t fn => { s.setReady t false with consumer := .advanceTail fn }
  | .advanceTail fn => { s with tail := s.tail + 1, consumer := .invoke fn }
  | .invoke fn =>
      { s with invoked := s.invoked ++ fn.toList, consumer := .loadRunning }
  | .exited => s

/-- What the threads do. `call` enters `post`; `stop` makes the exchange on
`running_` and, the first time, enters `post` with the no-op; `post` and
`consume` are the next operation of a thread inside `post` and of the consumer. -/
inductive Event (ι α : Type)
  | call (i : ι) (fn : Option α)
  | stop (i : ι) (noop : α)
  | post (i : ι)
  | consume

/-- A thread can enter `post` or `stop` when it is not inside one. -/
def step (s : ThreadPool ι α) : Event ι α → ThreadPool ι α
  | .call i fn =>
      match s.posts i with
      | none => s.setPost i (some (Post.start fn))
      | some _ => s
  | .stop i noop =>
      match s.posts i with
      | none =>
          if s.running then
            { s with running := false }.setPost i (some (Post.start (some noop)))
          else s
      | some _ => s
  | .post i =>
      match s.posts i with
      | none => s
      | some p => s.postStep i p
  | .consume => s.consumerStep

end Step

end ThreadPool

end Proxy

end Shinigami
