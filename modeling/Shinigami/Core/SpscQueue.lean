import Shinigami.Core.RingBuffer
import Shinigami.Foundations.Run

/-!
# One writer, one reader

The ring buffer as a queue between one writer and one reader, in any interleaving
of their atomic operations. The two logs are not variables of the program: an
item is accepted by the store of `head` that ends its write, and returned by the
store of `tail` that ends its read. With `w` items accepted and `r` returned the
indices are `w` and `r` modulo the capacity, and `r ≤ w < r + capacity`
(`SpscInv`). The view that one side has of the index of the other may be old, but
it only errs on the safe side.
-/

namespace Shinigami

namespace Core

open RingIndex

variable {α : Type*}

/-- The buffer, the operations under way, and the items accepted and returned so
far. -/
structure SpscState (α : Type*) where
  rb : RingBuffer α
  writer : Option (WritePhase α)
  reader : Option (ReadPhase α)
  accepted : List α
  returned : List α

inductive SpscEvent (α : Type*)
  | write (item : α)
  | writerStep
  | read
  | readerStep

def SpscState.start (rb : RingBuffer α) : SpscState α := ⟨rb, none, none, [], []⟩

def SpscState.endWrite (s : SpscState α) (rb : RingBuffer α) (item : α) (rc : ℤ) :
    SpscState α :=
  { s with
    rb := rb
    writer := none
    accepted := if rc = rbSuccess then s.accepted ++ [item] else s.accepted }

def SpscState.endRead (s : SpscState α) (rb : RingBuffer α) (result : Option α) :
    SpscState α :=
  { s with rb := rb, reader := none, returned := s.returned ++ result.toList }

/-- One step of either side; a side that has nothing to do stays where it is. -/
def spscStep (s : SpscState α) : SpscEvent α → SpscState α
  | .write item =>
      match s.writer with
      | some _ => s
      | none => { s with writer := some (writeBegin s.rb item) }
  | .writerStep =>
      match s.writer with
      | none => s
      | some phase =>
          match writeStep s.rb phase with
          | (rb, .next phase') => { s with rb := rb, writer := some phase' }
          | (rb, .done rc) => s.endWrite rb phase.item rc
  | .read =>
      match s.reader with
      | some _ => s
      | none => { s with reader := some (readBegin s.rb) }
  | .readerStep =>
      match s.reader with
      | none => s
      | some phase =>
          match readStep s.rb phase with
          | (rb, .next phase') => { s with rb := rb, reader := some phase' }
          | (rb, .done result) => s.endRead rb result

def SpscState.held (s : SpscState α) : ℕ := s.accepted.length - s.returned.length

def SlotsApart (s : SpscState α) : Prop :=
  ∀ item head nextHead tail, s.writer = some (.copy item head nextHead) →
    s.reader = some (.copy tail) → head ≠ tail

def FillLevelAgrees (s : SpscState α) : Prop :=
  s.writer = none → s.reader = none →
    (ringBufferCount s.rb).toNat = s.held ∧
      (ringBufferIsEmpty s.rb = true ↔ s.held = 0) ∧
      (ringBufferIsFull s.rb = true ↔ s.held = s.rb.capacity.toNat - 1)

/-- The buffer is a FIFO queue. -/
structure SpscFifo (s : SpscState α) : Prop where
  fifo : s.returned <+: s.accepted
  apart : SlotsApart s
  held_le : s.held ≤ s.rb.capacity.toNat - 1
  level : FillLevelAgrees s

def WriterInv (s : SpscState α) : WritePhase α → Prop
  | .loadTail _ head => head = s.rb.head
  | .copy _ head nextHead =>
      head = s.rb.head ∧ nextHead = (s.rb.head + 1) % s.rb.capacity ∧
        s.accepted.length + 1 < s.returned.length + s.rb.capacity.toNat
  | .storeHead item nextHead =>
      nextHead = (s.rb.head + 1) % s.rb.capacity ∧
        s.accepted.length + 1 < s.returned.length + s.rb.capacity.toNat ∧
        s.rb.slots (s.accepted.length % s.rb.capacity.toNat) = item

def ReaderInv (s : SpscState α) : ReadPhase α → Prop
  | .loadHead tail => tail = s.rb.tail
  | .copy tail => tail = s.rb.tail ∧ s.returned.length < s.accepted.length
  | .storeTail tail item =>
      tail = s.rb.tail ∧ s.accepted[s.returned.length]? = some item

structure SpscInv (s : SpscState α) : Prop where
  head : s.rb.head.toNat = s.accepted.length % s.rb.capacity.toNat
  tail : s.rb.tail.toNat = s.returned.length % s.rb.capacity.toNat
  fifo : s.returned <+: s.accepted
  fits : s.accepted.length < s.returned.length + s.rb.capacity.toNat
  slots : ∀ k item, s.returned.length ≤ k → s.accepted[k]? = some item →
    s.rb.slots (k % s.rb.capacity.toNat) = item
  writer : ∀ phase ∈ s.writer, WriterInv s phase
  reader : ∀ phase ∈ s.reader, ReaderInv s phase

namespace SpscInv

variable {s : SpscState α}

theorem le (h : SpscInv s) : s.returned.length ≤ s.accepted.length := h.fifo.length_le

theorem capacity_pos (h : SpscInv s) : 0 < s.rb.capacity.toNat := by
  have := h.fits
  have := h.le
  omega

theorem next_head (h : SpscInv s) :
    ((s.rb.head + 1) % s.rb.capacity).toNat =
      (s.accepted.length + 1) % s.rb.capacity.toNat := by
  rw [toNat_next (by rw [h.head]; exact Nat.mod_lt _ h.capacity_pos), h.head, succ_mod]

theorem next_tail (h : SpscInv s) :
    ((s.rb.tail + 1) % s.rb.capacity).toNat =
      (s.returned.length + 1) % s.rb.capacity.toNat := by
  rw [toNat_next (by rw [h.tail]; exact Nat.mod_lt _ h.capacity_pos), h.tail, succ_mod]

theorem next_head_eq_iff (h : SpscInv s) :
    (s.rb.head + 1) % s.rb.capacity = s.rb.tail ↔
      s.accepted.length + 1 = s.returned.length + s.rb.capacity.toNat := by
  have hle := h.le
  have hfits := h.fits
  rw [← UInt32.toNat_inj, h.next_head, h.tail, eq_comm,
    mod_eq_iff_of_window (by omega) (by omega)]
  omega

theorem tail_eq_head_iff (h : SpscInv s) :
    s.rb.tail = s.rb.head ↔ s.returned.length = s.accepted.length := by
  rw [← UInt32.toNat_inj, h.head, h.tail]
  constructor
  · exact eq_of_mod_eq h.le h.fits
  · exact fun heq => by rw [heq]

theorem slots_copy (h : SpscInv s) (item : α) {k : ℕ} {item' : α}
    (hk : s.returned.length ≤ k) (hget : s.accepted[k]? = some item') :
    Function.update s.rb.slots s.rb.head.toNat item (k % s.rb.capacity.toNat) = item' := by
  have hlt : k < s.accepted.length := (List.getElem?_eq_some_iff.mp hget).1
  have hfits := h.fits
  have hne : k % s.rb.capacity.toNat ≠ s.rb.head.toNat := by
    rw [h.head]
    intro heq
    have := eq_of_mod_eq (by omega) (by omega) heq
    omega
  rw [Function.update_of_ne hne]
  exact h.slots k item' hk hget

/-- The slots agree with the accepted items, the one just copied included. -/
theorem slots_accept (h : SpscInv s) {item : α}
    (hitem : s.rb.slots (s.accepted.length % s.rb.capacity.toNat) = item) {k : ℕ} {item' : α}
    (hk : s.returned.length ≤ k) (hget : (s.accepted ++ [item])[k]? = some item') :
    s.rb.slots (k % s.rb.capacity.toNat) = item' := by
  rcases Nat.lt_or_ge k s.accepted.length with hlt | hge
  · rw [List.getElem?_append_left hlt] at hget
    exact h.slots k item' hk hget
  · rw [List.getElem?_append_right hge, List.getElem?_singleton] at hget
    split_ifs at hget with hzero
    cases hget
    have hkeq : k = s.accepted.length := by omega
    rw [hkeq]
    exact hitem

end SpscInv

theorem ReaderInv.of_accepted {s s' : SpscState α} {phase : ReadPhase α}
    (h : ReaderInv s phase) (htail : s'.rb.tail = s.rb.tail)
    (hret : s'.returned = s.returned) (hacc : s.accepted <+: s'.accepted) :
    ReaderInv s' phase := by
  cases phase with
  | loadHead tail => exact h.trans htail.symm
  | copy tail =>
      refine ⟨h.1.trans htail.symm, ?_⟩
      rw [hret]
      exact h.2.trans_le hacc.length_le
  | storeTail tail item =>
      refine ⟨h.1.trans htail.symm, ?_⟩
      obtain ⟨more, hmore⟩ := hacc
      have hlt := (List.getElem?_eq_some_iff.mp h.2).1
      rw [hret, ← hmore, List.getElem?_append_left hlt]
      exact h.2

theorem WriterInv.of_returned {s s' : SpscState α} {phase : WritePhase α}
    (h : WriterInv s phase) (hhead : s'.rb.head = s.rb.head)
    (hcap : s'.rb.capacity = s.rb.capacity) (hslots : s'.rb.slots = s.rb.slots)
    (hacc : s'.accepted = s.accepted) (hret : s.returned.length ≤ s'.returned.length) :
    WriterInv s' phase := by
  cases phase with
  | loadTail item head => exact h.trans hhead.symm
  | copy item head nextHead =>
      obtain ⟨hh, hnext, hroom⟩ := h
      refine ⟨hh.trans hhead.symm, ?_, ?_⟩
      · rw [hhead, hcap]
        exact hnext
      · rw [hacc, hcap]
        omega
  | storeHead item nextHead =>
      obtain ⟨hnext, hroom, hitem⟩ := h
      refine ⟨?_, ?_, ?_⟩
      · rw [hhead, hcap]
        exact hnext
      · rw [hacc, hcap]
        omega
      · rw [hslots, hacc, hcap]
        exact hitem

theorem spscInv_start {rb : RingBuffer α} (hhead : rb.head = 0) (htail : rb.tail = 0)
    (hcap : 0 < rb.capacity.toNat) : SpscInv (SpscState.start rb) where
  head := by simp [SpscState.start, hhead]
  tail := by simp [SpscState.start, htail]
  fifo := List.prefix_rfl
  fits := by simpa [SpscState.start] using hcap
  slots := by simp [SpscState.start]
  writer := by simp [SpscState.start]
  reader := by simp [SpscState.start]

section Steps

variable {s : SpscState α}

theorem spscInv_write (h : SpscInv s) (item : α) : SpscInv (spscStep s (.write item)) := by
  unfold spscStep
  cases hw : s.writer with
  | some phase => exact h
  | none => exact { h with writer := by simp [WriterInv, writeBegin] }

theorem spscInv_read (h : SpscInv s) : SpscInv (spscStep s .read) := by
  unfold spscStep
  cases hr : s.reader with
  | some phase => exact h
  | none => exact { h with reader := by simp [ReaderInv, readBegin] }

theorem spscInv_writerStep (h : SpscInv s) : SpscInv (spscStep s .writerStep) := by
  unfold spscStep
  cases hw : s.writer with
  | none => exact h
  | some phase =>
      have hphase := h.writer phase (by rw [hw]; rfl)
      cases phase with
      | loadTail item head =>
          obtain rfl : head = s.rb.head := hphase
          dsimp only [writeStep]
          split_ifs with hfull
          · exact { h with writer := by simp [SpscState.endWrite] }
          · refine { h with writer := ?_ }
            have hne := (h.next_head_eq_iff).not.mp hfull
            have hfits := h.fits
            simp only [Option.mem_some_iff, forall_eq', WriterInv, true_and]
            omega
      | copy item head nextHead =>
          obtain ⟨rfl, rfl, hroom⟩ := hphase
          dsimp only [writeStep]
          refine { h with slots := ?_, writer := ?_, reader := ?_ }
          · exact fun k item' hk hget => h.slots_copy item hk hget
          · simp [WriterInv, hroom, h.head]
          · exact fun phase hphase =>
              (h.reader phase hphase).of_accepted rfl rfl List.prefix_rfl
      | storeHead item nextHead =>
          obtain ⟨rfl, hroom, hitem⟩ := hphase
          simp only [writeStep, SpscState.endWrite, if_true, WritePhase.item]
          have hacc : s.accepted <+: s.accepted ++ [item] := List.prefix_append _ _
          refine ⟨?_, h.tail, h.fifo.trans hacc, ?_, ?_, by simp, ?_⟩
          · simpa using h.next_head
          · simpa using hroom
          · exact fun k item' hk hget => h.slots_accept hitem hk hget
          · exact fun phase hphase => (h.reader phase hphase).of_accepted rfl rfl hacc

theorem spscInv_readerStep (h : SpscInv s) : SpscInv (spscStep s .readerStep) := by
  unfold spscStep
  cases hr : s.reader with
  | none => exact h
  | some phase =>
      have hphase := h.reader phase (by rw [hr]; rfl)
      cases phase with
      | loadHead tail =>
          obtain rfl : tail = s.rb.tail := hphase
          dsimp only [readStep]
          split_ifs with hempty
          · simpa [SpscState.endRead] using { h with reader := by simp }
          · refine { h with reader := ?_ }
            have hne := (h.tail_eq_head_iff).not.mp hempty
            have hle := h.le
            simp only [Option.mem_some_iff, forall_eq', ReaderInv, true_and]
            omega
      | copy tail =>
          obtain ⟨rfl, hlt⟩ := hphase
          dsimp only [readStep]
          refine { h with reader := ?_ }
          simp only [Option.mem_some_iff, forall_eq', ReaderInv, true_and]
          have hget := List.getElem?_eq_getElem hlt
          rw [hget, h.tail, h.slots _ _ le_rfl hget]
      | storeTail tail item =>
          obtain ⟨rfl, hitem⟩ := hphase
          dsimp only [readStep, SpscState.endRead, Option.toList]
          have hlt := (List.getElem?_eq_some_iff.mp hitem).1
          refine ⟨h.head, ?_, prefix_concat_of_getElem? h.fifo hitem, ?_, ?_, ?_, by simp⟩
          · simpa using h.next_tail
          · have := h.fits
            simp
            omega
          · intro k item' hk hget
            exact h.slots k item' (by simp at hk; omega) hget
          · exact fun phase hphase =>
              (h.writer phase hphase).of_returned rfl rfl rfl rfl (by simp)

theorem spscInv_spscStep (s : SpscState α) (ev : SpscEvent α) (h : SpscInv s) :
    SpscInv (spscStep s ev) := by
  cases ev with
  | write item => exact spscInv_write h item
  | writerStep => exact spscInv_writerStep h
  | read => exact spscInv_read h
  | readerStep => exact spscInv_readerStep h

end Steps

theorem SpscInv.spscFifo {s : SpscState α} (h : SpscInv s) : SpscFifo s where
  fifo := h.fifo
  apart := by
    intro item head nextHead tail hw hr heq
    obtain ⟨rfl, -, hroom⟩ := h.writer _ hw
    obtain ⟨rfl, hlt⟩ := h.reader _ hr
    have := h.tail_eq_head_iff.mp heq.symm
    omega
  held_le := by
    have := h.fits
    unfold SpscState.held
    omega
  level := by
    intro _ _
    have hle := h.le
    have hfits := h.fits
    refine ⟨toNat_ringBufferCount h.tail h.head hle hfits, ?_, ?_⟩
    · simp only [ringBufferIsEmpty, beq_iff_eq, SpscState.held]
      rw [eq_comm, h.tail_eq_head_iff]
      omega
    · simp only [ringBufferIsFull, beq_iff_eq, SpscState.held]
      rw [h.next_head_eq_iff]
      omega

/-- A created ring buffer is a FIFO queue in every interleaving of one writer and
one reader. -/
theorem spscFifo_run {nameOk sysOk : Bool} {capacity itemSize : UInt32}
    {slots : ℕ → α} {rb : RingBuffer α}
    (hcreate : ringBufferCreate nameOk capacity itemSize sysOk slots = some rb)
    (evs : List (SpscEvent α)) : SpscFifo (run spscStep (SpscState.start rb) evs) := by
  obtain ⟨rfl, hcap⟩ := ringBufferCreate_eq_some hcreate
  refine SpscInv.spscFifo (run_invariant (P := fun _ => True)
    (fun s ev _ => spscInv_spscStep s ev) (spscInv_start rfl rfl hcap) ?_)
  exact fun _ _ => trivial

/-- One item through a buffer of two slots. -/
theorem spscFifo_run_two :
    ringBufferCreate true 2 4 true (fun _ => 0) =
        some (⟨0, 0, 2, 4, fun _ => 0⟩ : RingBuffer ℕ) ∧
      SpscFifo (run spscStep (SpscState.start (⟨0, 0, 2, 4, fun _ => 0⟩ : RingBuffer ℕ))
        [.write 5, .writerStep, .writerStep, .read, .writerStep, .readerStep,
          .readerStep, .readerStep]) :=
  ⟨rfl, spscFifo_run (rfl : ringBufferCreate true 2 4 true (fun _ => 0) = some _) _⟩

end Core

end Shinigami
