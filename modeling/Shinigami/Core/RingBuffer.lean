import Mathlib.Data.Int.Notation
import Shinigami.Foundations.RingIndex

/-!
# Shared ring buffer

The ring buffer of `ring_buffer.c`, for items of any type. The shared header
holds `head` and `tail`, and slot `i` of the data region is `slots i`; one slot
always stays free. A write and a read are modelled by their atomic operations:
each step function performs one atomic load, one slot copy or one atomic store,
and says how the operation goes on. `writeBegin` and `readBegin` are the first
load.
-/

namespace Shinigami

namespace Core

def ringBufferMaxCapacity : UInt32 := 1024

def ringBufferMaxItemSize : UInt32 := 4096

def rbSuccess : ℤ := 0

def rbErrorFull : ℤ := -1

/-- `ring_buffer_t`. -/
structure RingBuffer (α : Type*) where
  head : UInt32
  tail : UInt32
  capacity : UInt32
  itemSize : UInt32
  slots : ℕ → α

variable {α : Type*}

/-- `ring_buffer_create`: whether a name is given, whether the system calls
succeed, and what the fresh data region holds. -/
def ringBufferCreate (nameOk : Bool) (capacity itemSize : UInt32) (sysOk : Bool)
    (slots : ℕ → α) : Option (RingBuffer α) :=
  if !nameOk ∨ capacity = 0 ∨ itemSize = 0 then none
  else if capacity > ringBufferMaxCapacity then none
  else if itemSize > ringBufferMaxItemSize then none
  else if !sysOk then none
  else some ⟨0, 0, capacity, itemSize, slots⟩

inductive Progress (φ ρ : Type*)
  | next (phase : φ)
  | done (result : ρ)

/-- The next step of `ring_buffer_write`, with the local variables so far. -/
inductive WritePhase (α : Type*)
  | loadTail (item : α) (head : UInt32)
  | copy (item : α) (head nextHead : UInt32)
  | storeHead (item : α) (nextHead : UInt32)

def WritePhase.item : WritePhase α → α
  | .loadTail item _ => item
  | .copy item _ _ => item
  | .storeHead item _ => item

/-- The load of `head`. -/
def writeBegin (rb : RingBuffer α) (item : α) : WritePhase α := .loadTail item rb.head

/-- One step of `ring_buffer_write`. -/
def writeStep (rb : RingBuffer α) :
    WritePhase α → RingBuffer α × Progress (WritePhase α) ℤ
  | .loadTail item head =>
      let nextHead := (head + 1) % rb.capacity
      if nextHead = rb.tail then (rb, .done rbErrorFull)
      else (rb, .next (.copy item head nextHead))
  | .copy item head nextHead =>
      ({ rb with slots := Function.update rb.slots head.toNat item },
        .next (.storeHead item nextHead))
  | .storeHead _ nextHead => ({ rb with head := nextHead }, .done rbSuccess)

/-- The next step of `ring_buffer_read`, with the local variables so far. -/
inductive ReadPhase (α : Type*)
  | loadHead (tail : UInt32)
  | copy (tail : UInt32)
  | storeTail (tail : UInt32) (item : α)

/-- The load of `tail`. -/
def readBegin (rb : RingBuffer α) : ReadPhase α := .loadHead rb.tail

/-- One step of `ring_buffer_read`; the result is the item, or `none` for
`RB_ERROR_EMPTY`. -/
def readStep (rb : RingBuffer α) :
    ReadPhase α → RingBuffer α × Progress (ReadPhase α) (Option α)
  | .loadHead tail =>
      if tail = rb.head then (rb, .done none) else (rb, .next (.copy tail))
  | .copy tail => (rb, .next (.storeTail tail (rb.slots tail.toNat)))
  | .storeTail tail item =>
      ({ rb with tail := (tail + 1) % rb.capacity }, .done (some item))

/-- `ring_buffer_is_full`. -/
def ringBufferIsFull (rb : RingBuffer α) : Bool := (rb.head + 1) % rb.capacity == rb.tail

/-- `ring_buffer_is_empty`. -/
def ringBufferIsEmpty (rb : RingBuffer α) : Bool := rb.head == rb.tail

/-- `ring_buffer_count`. -/
def ringBufferCount (rb : RingBuffer α) : UInt32 :=
  if rb.head ≥ rb.tail then rb.head - rb.tail else rb.capacity - rb.tail + rb.head

theorem ringBufferCreate_eq_some {nameOk sysOk : Bool} {capacity itemSize : UInt32}
    {slots : ℕ → α} {rb : RingBuffer α}
    (h : ringBufferCreate nameOk capacity itemSize sysOk slots = some rb) :
    rb = ⟨0, 0, capacity, itemSize, slots⟩ ∧ 0 < capacity.toNat := by
  unfold ringBufferCreate at h
  split_ifs at h with hargs
  cases h
  refine ⟨rfl, Nat.pos_of_ne_zero fun hzero => hargs (.inr (.inl ?_))⟩
  exact UInt32.toNat_inj.mp hzero

theorem toNat_next {capacity i : UInt32} (h : i.toNat < capacity.toNat) :
    ((i + 1) % capacity).toNat = (i.toNat + 1) % capacity.toNat := by
  have hmax := capacity.toNat_lt
  rw [UInt32.toNat_mod, UInt32.toNat_add]
  congr 1
  exact Nat.mod_eq_of_lt (by simp; omega)

theorem toNat_ringBufferCount {rb : RingBuffer α} {r w : ℕ}
    (htail : rb.tail.toNat = r % rb.capacity.toNat)
    (hhead : rb.head.toNat = w % rb.capacity.toNat) (hle : r ≤ w)
    (hlt : w < r + rb.capacity.toNat) : (ringBufferCount rb).toNat = w - r := by
  have hpos : 0 < rb.capacity.toNat := by omega
  have hcap := rb.capacity.toNat_lt
  have htail_lt : rb.tail.toNat < rb.capacity.toNat := by
    rw [htail]
    exact Nat.mod_lt _ hpos
  rw [RingIndex.sub_eq_of_window hle hlt, ← htail, ← hhead, ringBufferCount]
  split_ifs with hge hge' hge'
  · rw [UInt32.toNat_sub_of_le _ _ hge]
  · exact absurd (UInt32.le_iff_toNat_le.mp hge) hge'
  · exact absurd (UInt32.le_iff_toNat_le.mpr hge') hge
  · rw [UInt32.toNat_add, UInt32.toNat_sub_of_le _ _
      (UInt32.le_iff_toNat_le.mpr htail_lt.le)]
    exact Nat.mod_eq_of_lt (by omega)

end Core

end Shinigami
