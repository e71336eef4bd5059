import Mathlib.Logic.Function.Basic
import Shinigami.Core.RingBuffer
import Shinigami.Foundations.Run

/-!
# Attaching to a ring buffer

`ring_buffer_create` and `ring_buffer_attach` as steps on the shared memory, between
the steps of the operations on every handle made so far. The segment has its name
before its creator has stored anything, and it may hold anything then. A handle keeps
the size of its mapping; the operations take the capacity and the item size from the
shared memory each time.
-/

namespace Shinigami

namespace Core

variable {α : Type*}

/-- `sizeof(ring_buffer_t)`. -/
def ringBufferHeaderSize : ℕ := 136

/-- `total_size`; the sum does not reach the end of `size_t`. -/
def totalSize (capacity itemSize : UInt32) : ℕ :=
  ringBufferHeaderSize + capacity.toNat * itemSize.toNat

/-- `rb_handle_t`. -/
structure RbHandle where
  totalSize : ℕ
deriving DecidableEq

/-- The next step of `ring_buffer_create` behind its `mmap`. -/
inductive CreatorPhase
  | storeHead
  | storeTail
  | storeCapacity
  | storeItemSize
  | makeHandle
  | done
deriving DecidableEq

/-- What `ring_buffer_create` was given, once it has checked it. -/
structure CreatorArgs where
  capacity : UInt32
  itemSize : UInt32
  capacity_ne : capacity ≠ 0
  itemSize_ne : itemSize ≠ 0
  capacity_le : capacity ≤ ringBufferMaxCapacity
  itemSize_le : itemSize ≤ ringBufferMaxItemSize

/-- What a thread does: the loads and the mapping of `ring_buffer_attach`, or an
operation on a handle. -/
inductive ThreadPhase (α : Type*)
  | idle
  | attachItemSize (capacity : UInt32)
  | attachMap (capacity itemSize : UInt32)
  | write (h : RbHandle) (phase : WritePhase α)
  | read (h : RbHandle) (phase : ReadPhase α)
  | isFull (h : RbHandle)

structure AttachState (α : Type*) where
  rb : RingBuffer α
  creator : CreatorPhase
  handles : List RbHandle
  threads : ℕ → ThreadPhase α

/-- Thread `t` begins a call, on handle `k` if it is an operation, or takes a step;
`ok` is the outcome of the system calls of the step. -/
inductive AttachEvent (α : Type*)
  | creatorStep (ok : Bool)
  | attach (t : ℕ)
  | write (t k : ℕ) (item : α)
  | read (t k : ℕ)
  | isFull (t k : ℕ)
  | threadStep (t : ℕ) (ok : Bool)

/-- The named segment with anything in it, and a creator in front of its stores unless
there is none. -/
def AttachState.start (rb : RingBuffer α) (creating : Bool) : AttachState α :=
  ⟨rb, if creating then .storeHead else .done, [], fun _ => .idle⟩

def AttachState.setThread (s : AttachState α) (t : ℕ) (phase : ThreadPhase α) :
    AttachState α :=
  { s with threads := Function.update s.threads t phase }

def AttachState.setMemory (s : AttachState α) (rb : RingBuffer α) : AttachState α :=
  { s with rb := rb }

/-- `make_handle`, if it succeeds. -/
def AttachState.makeHandle (s : AttachState α) (size : ℕ) (ok : Bool) : AttachState α :=
  if ok then { s with handles := s.handles ++ [⟨size⟩] } else s

/-- A store of `ring_buffer_create`, or its `make_handle`. -/
def creatorStep (args : CreatorArgs) (s : AttachState α) (ok : Bool) : AttachState α :=
  match s.creator with
  | .storeHead => { s with rb := { s.rb with head := 0 }, creator := .storeTail }
  | .storeTail => { s with rb := { s.rb with tail := 0 }, creator := .storeCapacity }
  | .storeCapacity =>
      { s with rb := { s.rb with capacity := args.capacity }, creator := .storeItemSize }
  | .storeItemSize =>
      { s with rb := { s.rb with itemSize := args.itemSize }, creator := .makeHandle }
  | .makeHandle =>
      { s.makeHandle (totalSize args.capacity args.itemSize) ok with creator := .done }
  | .done => s

def beginCall (s : AttachState α) (t : ℕ) (phase : ThreadPhase α) : AttachState α :=
  match s.threads t with
  | .idle => s.setThread t phase
  | _ => s

/-- An operation begins on handle `k`. -/
def beginOn (s : AttachState α) (t k : ℕ) (phase : RbHandle → ThreadPhase α) :
    AttachState α :=
  match s.handles[k]? with
  | none => s
  | some h => beginCall s t (phase h)

/-- The next step of thread `t`. -/
def threadStep (s : AttachState α) (t : ℕ) (ok : Bool) : AttachState α :=
  match s.threads t with
  | .idle => s
  | .attachItemSize capacity => s.setThread t (.attachMap capacity s.rb.itemSize)
  | .attachMap capacity itemSize =>
      (s.makeHandle (totalSize capacity itemSize) ok).setThread t .idle
  | .write h phase =>
      match writeStep s.rb phase with
      | (rb, .next phase') => (s.setMemory rb).setThread t (.write h phase')
      | (rb, .done _) => (s.setMemory rb).setThread t .idle
  | .read h phase =>
      match readStep s.rb phase with
      | (rb, .next phase') => (s.setMemory rb).setThread t (.read h phase')
      | (rb, .done _) => (s.setMemory rb).setThread t .idle
  | .isFull _ => s.setThread t .idle

def attachStep (args : CreatorArgs) (s : AttachState α) : AttachEvent α → AttachState α
  | .creatorStep ok => creatorStep args s ok
  | .attach t => beginCall s t (.attachItemSize s.rb.capacity)
  | .write t k item => beginOn s t k (.write · (writeBegin s.rb item))
  | .read t k => beginOn s t k (.read · (readBegin s.rb))
  | .isFull t k => beginOn s t k .isFull
  | .threadStep t ok => threadStep s t ok

/-- Slot `i` lies in the mapping of the handle. -/
def slotInside (rb : RingBuffer α) (h : RbHandle) (i : UInt32) : Prop :=
  ringBufferHeaderSize + (i.toNat + 1) * rb.itemSize.toNat ≤ h.totalSize

instance (rb : RingBuffer α) (h : RbHandle) (i : UInt32) : Decidable (slotInside rb h i) :=
  inferInstanceAs (Decidable (_ ≤ _))

/-- The step takes no remainder modulo zero, and the slot that it copies lies in the
mapping of its handle. -/
def PhaseSafe (rb : RingBuffer α) : ThreadPhase α → Prop
  | .write _ (.loadTail _ _) => rb.capacity ≠ 0
  | .write h (.copy _ head _) => slotInside rb h head
  | .read h (.copy tail) => slotInside rb h tail
  | .read _ (.storeTail _ _) => rb.capacity ≠ 0
  | .isFull _ => rb.capacity ≠ 0
  | _ => True

def AccessSafe (s : AttachState α) : AttachEvent α → Prop
  | .threadStep t _ => PhaseSafe s.rb (s.threads t)
  | _ => True

/-- The header is one of a ring buffer. -/
structure WellFormed (rb : RingBuffer α) : Prop where
  capacity_ne : rb.capacity ≠ 0
  head_lt : rb.head < rb.capacity
  tail_lt : rb.tail < rb.capacity

/-- An attach reads the header when the creator has stored it, and finds the header of
a ring buffer. -/
def attachesStored (s : AttachState α) : AttachEvent α → Prop
  | .attach _ => (s.creator = .makeHandle ∨ s.creator = .done) ∧ WellFormed s.rb
  | _ => True

structure Settled (creator : CreatorPhase) (rb : RingBuffer α) : Prop where
  stored : creator = .makeHandle ∨ creator = .done
  wellFormed : WellFormed rb

def HandleFits (rb : RingBuffer α) (h : RbHandle) : Prop :=
  h.totalSize = totalSize rb.capacity rb.itemSize

def WriteBound (rb : RingBuffer α) : WritePhase α → Prop
  | .loadTail _ head => head < rb.capacity
  | .copy _ head nextHead => head < rb.capacity ∧ nextHead < rb.capacity
  | .storeHead _ nextHead => nextHead < rb.capacity

def ReadBound (rb : RingBuffer α) : ReadPhase α → Prop
  | .loadHead tail => tail < rb.capacity
  | .copy tail => tail < rb.capacity
  | .storeTail tail _ => tail < rb.capacity

def PhaseInv (creator : CreatorPhase) (rb : RingBuffer α) : ThreadPhase α → Prop
  | .idle => True
  | .attachItemSize capacity => Settled creator rb ∧ capacity = rb.capacity
  | .attachMap capacity itemSize =>
      Settled creator rb ∧ capacity = rb.capacity ∧ itemSize = rb.itemSize
  | .write h phase => Settled creator rb ∧ HandleFits rb h ∧ WriteBound rb phase
  | .read h phase => Settled creator rb ∧ HandleFits rb h ∧ ReadBound rb phase
  | .isFull h => Settled creator rb ∧ HandleFits rb h

def CreatorInv (args : CreatorArgs) (rb : RingBuffer α) : CreatorPhase → Prop
  | .storeHead => True
  | .storeTail => rb.head = 0
  | .storeCapacity => rb.head = 0 ∧ rb.tail = 0
  | .storeItemSize => rb.head = 0 ∧ rb.tail = 0 ∧ rb.capacity = args.capacity
  | .makeHandle => WellFormed rb ∧ rb.capacity = args.capacity ∧ rb.itemSize = args.itemSize
  | .done => True

structure AttachInv (args : CreatorArgs) (s : AttachState α) : Prop where
  creator : CreatorInv args s.rb s.creator
  handles : ∀ h ∈ s.handles, Settled s.creator s.rb ∧ HandleFits s.rb h
  threads : ∀ t, PhaseInv s.creator s.rb (s.threads t)

section Memory

variable {rb : RingBuffer α} {h : RbHandle}

theorem mod_lt_capacity (hwf : WellFormed rb) (i : UInt32) : i % rb.capacity < rb.capacity := by
  have hpos : 0 < rb.capacity.toNat :=
    Nat.lt_of_le_of_lt (Nat.zero_le _) (UInt32.lt_iff_toNat_lt.mp hwf.head_lt)
  rw [UInt32.lt_iff_toNat_lt, UInt32.toNat_mod]
  exact Nat.mod_lt _ hpos

theorem slotInside_of_lt (hfits : HandleFits rb h) {i : UInt32} (hi : i < rb.capacity) :
    slotInside rb h i := by
  rw [HandleFits, totalSize] at hfits
  rw [slotInside, hfits]
  exact Nat.add_le_add_left
    (Nat.mul_le_mul_right _ (UInt32.lt_iff_toNat_lt.mp hi)) _

structure SameGeometry (rb rb' : RingBuffer α) : Prop where
  capacity : rb'.capacity = rb.capacity
  itemSize : rb'.itemSize = rb.itemSize
  wellFormed : WellFormed rb → WellFormed rb'

theorem SameGeometry.refl (rb : RingBuffer α) : SameGeometry rb rb := ⟨rfl, rfl, id⟩

theorem writeStep_bound (hwf : WellFormed rb) {phase : WritePhase α}
    (hbound : WriteBound rb phase) :
    SameGeometry rb (writeStep rb phase).1 ∧
      ∀ phase', (writeStep rb phase).2 = .next phase' →
        WriteBound (writeStep rb phase).1 phase' := by
  cases phase with
  | loadTail item head =>
      simp only [writeStep]
      split_ifs
      · exact ⟨.refl rb, by simp⟩
      · refine ⟨.refl rb, ?_⟩
        rintro phase' ⟨⟩
        exact ⟨hbound, mod_lt_capacity hwf _⟩
  | copy item head nextHead =>
      refine ⟨⟨rfl, rfl, fun h => ⟨h.capacity_ne, h.head_lt, h.tail_lt⟩⟩, ?_⟩
      rintro phase' ⟨⟩
      exact hbound.2
  | storeHead item nextHead =>
      exact ⟨⟨rfl, rfl, fun h => ⟨h.capacity_ne, hbound, h.tail_lt⟩⟩, by simp [writeStep]⟩

theorem readStep_bound (hwf : WellFormed rb) {phase : ReadPhase α}
    (hbound : ReadBound rb phase) :
    SameGeometry rb (readStep rb phase).1 ∧
      ∀ phase', (readStep rb phase).2 = .next phase' →
        ReadBound (readStep rb phase).1 phase' := by
  cases phase with
  | loadHead tail =>
      simp only [readStep]
      split_ifs
      · exact ⟨.refl rb, by simp⟩
      · refine ⟨.refl rb, ?_⟩
        rintro phase' ⟨⟩
        exact hbound
  | copy tail =>
      refine ⟨.refl rb, ?_⟩
      rintro phase' ⟨⟩
      exact hbound
  | storeTail tail item =>
      refine ⟨⟨rfl, rfl, fun h => ⟨h.capacity_ne, h.head_lt, ?_⟩⟩, by simp [readStep]⟩
      exact mod_lt_capacity hwf _

end Memory

section Frame

variable {rb rb' : RingBuffer α} {creator : CreatorPhase}

theorem HandleFits.of_sameGeometry {h : RbHandle} (hfits : HandleFits rb h)
    (hsame : SameGeometry rb rb') : HandleFits rb' h := by
  rw [HandleFits, hsame.capacity, hsame.itemSize]
  exact hfits

theorem WriteBound.of_sameGeometry {phase : WritePhase α} (hbound : WriteBound rb phase)
    (hsame : SameGeometry rb rb') : WriteBound rb' phase := by
  cases phase with
  | loadTail item head => simpa only [WriteBound, hsame.capacity] using hbound
  | copy item head nextHead => simpa only [WriteBound, hsame.capacity] using hbound
  | storeHead item nextHead => simpa only [WriteBound, hsame.capacity] using hbound

theorem ReadBound.of_sameGeometry {phase : ReadPhase α} (hbound : ReadBound rb phase)
    (hsame : SameGeometry rb rb') : ReadBound rb' phase := by
  cases phase with
  | loadHead tail => simpa only [ReadBound, hsame.capacity] using hbound
  | copy tail => simpa only [ReadBound, hsame.capacity] using hbound
  | storeTail tail item => simpa only [ReadBound, hsame.capacity] using hbound

theorem Settled.of_sameGeometry (h : Settled creator rb) (hsame : SameGeometry rb rb') :
    Settled creator rb' := ⟨h.stored, hsame.wellFormed h.wellFormed⟩

theorem PhaseInv.of_sameGeometry {phase : ThreadPhase α} (h : PhaseInv creator rb phase)
    (hsame : SameGeometry rb rb') : PhaseInv creator rb' phase := by
  cases phase with
  | idle => trivial
  | attachItemSize capacity => exact ⟨h.1.of_sameGeometry hsame, h.2.trans hsame.capacity.symm⟩
  | attachMap capacity itemSize =>
      exact ⟨h.1.of_sameGeometry hsame, h.2.1.trans hsame.capacity.symm,
        h.2.2.trans hsame.itemSize.symm⟩
  | write hd phase =>
      exact ⟨h.1.of_sameGeometry hsame, h.2.1.of_sameGeometry hsame,
        h.2.2.of_sameGeometry hsame⟩
  | read hd phase =>
      exact ⟨h.1.of_sameGeometry hsame, h.2.1.of_sameGeometry hsame,
        h.2.2.of_sameGeometry hsame⟩
  | isFull hd => exact ⟨h.1.of_sameGeometry hsame, h.2.of_sameGeometry hsame⟩

theorem PhaseInv.finish {phase : ThreadPhase α} (h : PhaseInv creator rb phase) :
    PhaseInv .done rb phase := by
  cases phase with
  | idle => trivial
  | attachItemSize capacity => exact ⟨⟨.inr rfl, h.1.wellFormed⟩, h.2⟩
  | attachMap capacity itemSize => exact ⟨⟨.inr rfl, h.1.wellFormed⟩, h.2⟩
  | write hd phase => exact ⟨⟨.inr rfl, h.1.wellFormed⟩, h.2⟩
  | read hd phase => exact ⟨⟨.inr rfl, h.1.wellFormed⟩, h.2⟩
  | isFull hd => exact ⟨⟨.inr rfl, h.1.wellFormed⟩, h.2⟩

theorem PhaseInv.eq_idle {phase : ThreadPhase α} (h : PhaseInv creator rb phase)
    (hstored : ¬(creator = .makeHandle ∨ creator = .done)) : phase = .idle := by
  cases phase with
  | idle => rfl
  | attachItemSize capacity => exact absurd h.1.stored hstored
  | attachMap capacity itemSize => exact absurd h.1.stored hstored
  | write hd phase => exact absurd h.1.stored hstored
  | read hd phase => exact absurd h.1.stored hstored
  | isFull hd => exact absurd h.1.stored hstored

theorem CreatorInv.of_sameGeometry {args : CreatorArgs} (h : CreatorInv args rb creator)
    (hsettled : Settled creator rb) (hsame : SameGeometry rb rb') :
    CreatorInv args rb' creator := by
  rcases hsettled.stored with rfl | rfl
  · exact ⟨hsame.wellFormed h.1, hsame.capacity.trans h.2.1, hsame.itemSize.trans h.2.2⟩
  · trivial

end Frame

section Steps

variable {args : CreatorArgs} {s : AttachState α} {t : ℕ} {phase : ThreadPhase α}

theorem attachInv_start (args : CreatorArgs) (rb : RingBuffer α) (creating : Bool) :
    AttachInv args (.start rb creating) where
  creator := by
    cases creating
    · trivial
    · trivial
  handles := by simp [AttachState.start]
  threads := fun _ => trivial

theorem AttachInv.setThread (h : AttachInv args s) (hphase : PhaseInv s.creator s.rb phase) :
    AttachInv args (s.setThread t phase) where
  creator := h.creator
  handles := h.handles
  threads := by
    intro u
    simp only [AttachState.setThread, Function.update_apply]
    split_ifs
    · exact hphase
    · exact h.threads u

theorem AttachInv.setMemory (h : AttachInv args s) (hsettled : Settled s.creator s.rb)
    {rb : RingBuffer α} (hsame : SameGeometry s.rb rb) : AttachInv args (s.setMemory rb) where
  creator := h.creator.of_sameGeometry hsettled hsame
  handles := fun hd hmem =>
    ⟨hsettled.of_sameGeometry hsame, (h.handles hd hmem).2.of_sameGeometry hsame⟩
  threads := fun u => (h.threads u).of_sameGeometry hsame

theorem AttachInv.makeHandle (h : AttachInv args s) (hsettled : Settled s.creator s.rb)
    {size : ℕ} (hsize : size = totalSize s.rb.capacity s.rb.itemSize) (ok : Bool) :
    AttachInv args (s.makeHandle size ok) := by
  unfold AttachState.makeHandle
  split_ifs
  · refine ⟨h.creator, fun hd hmem => ?_, h.threads⟩
    rcases List.mem_append.mp hmem with hold | hnew
    · exact h.handles hd hold
    · rw [List.mem_singleton.mp hnew]
      exact ⟨hsettled, hsize⟩
  · exact h

theorem AttachInv.store (h : AttachInv args s)
    (hstored : ¬(s.creator = .makeHandle ∨ s.creator = .done)) {rb : RingBuffer α}
    {creator : CreatorPhase} (hcreator : CreatorInv args rb creator) :
    AttachInv args { s with rb := rb, creator := creator } where
  creator := hcreator
  handles := fun hd hmem => absurd (h.handles hd hmem).1.stored hstored
  threads := by
    intro u
    have hidle := (h.threads u).eq_idle hstored
    simp only [hidle]
    trivial

theorem AttachInv.creatorStep (h : AttachInv args s) (ok : Bool) :
    AttachInv args (creatorStep args s ok) := by
  have hcreator := h.creator
  unfold Core.creatorStep
  split
  · case h_1 hphase =>
      exact h.store (by simp [hphase]) rfl
  · case h_2 hphase =>
      rw [hphase] at hcreator
      exact h.store (by simp [hphase]) ⟨hcreator, rfl⟩
  · case h_3 hphase =>
      rw [hphase] at hcreator
      exact h.store (by simp [hphase]) ⟨hcreator.1, hcreator.2, rfl⟩
  · case h_4 hphase =>
      rw [hphase] at hcreator
      obtain ⟨hhead, htail, hcapacity⟩ := hcreator
      have hpos : 0 < s.rb.capacity := by
        rw [hcapacity]
        exact UInt32.pos_iff_ne_zero.mpr args.capacity_ne
      refine h.store (by simp [hphase]) ⟨⟨?_, ?_, ?_⟩, hcapacity, rfl⟩
      · simpa only [hcapacity] using args.capacity_ne
      · simpa only [hhead] using hpos
      · simpa only [htail] using hpos
  · case h_5 hphase =>
      rw [hphase] at hcreator
      obtain ⟨hwf, hcapacity, hitem⟩ := hcreator
      have hsize : totalSize args.capacity args.itemSize =
          totalSize s.rb.capacity s.rb.itemSize := by rw [hcapacity, hitem]
      have hmade := h.makeHandle ⟨.inl hphase, hwf⟩ hsize ok
      exact
        { creator := trivial
          handles := fun hd hmem =>
            ⟨⟨.inr rfl, (hmade.handles hd hmem).1.wellFormed⟩, (hmade.handles hd hmem).2⟩
          threads := fun u => (hmade.threads u).finish }
  · exact h

theorem AttachInv.beginCall (h : AttachInv args s) (hphase : PhaseInv s.creator s.rb phase) :
    AttachInv args (beginCall s t phase) := by
  unfold Core.beginCall
  split
  · exact h.setThread hphase
  · exact h

theorem AttachInv.beginOn (h : AttachInv args s) {k : ℕ} {phase : RbHandle → ThreadPhase α}
    (hphase : ∀ hd, Settled s.creator s.rb → HandleFits s.rb hd →
      PhaseInv s.creator s.rb (phase hd)) : AttachInv args (beginOn s t k phase) := by
  unfold Core.beginOn
  split
  · exact h
  · case h_2 hd hget =>
      obtain ⟨hsettled, hfits⟩ := h.handles hd (List.mem_of_getElem? hget)
      exact h.beginCall (hphase hd hsettled hfits)

/-- A thread that has moved on with the memory, within the geometry of the header. -/
theorem AttachInv.moveOn (h : AttachInv args s) (hsettled : Settled s.creator s.rb)
    {hd : RbHandle} (hfits : HandleFits s.rb hd) {rb : RingBuffer α}
    (hsame : SameGeometry s.rb rb) {t : ℕ} {phase : ThreadPhase α}
    (hphase : Settled s.creator rb → HandleFits rb hd → PhaseInv s.creator rb phase) :
    AttachInv args ((s.setMemory rb).setThread t phase) :=
  (h.setMemory hsettled hsame).setThread
    (hphase (hsettled.of_sameGeometry hsame) (hfits.of_sameGeometry hsame))

theorem AttachInv.threadStep (h : AttachInv args s) (t : ℕ) (ok : Bool) :
    AttachInv args (threadStep s t ok) := by
  have hphase := h.threads t
  unfold Core.threadStep
  split
  · exact h
  · case h_2 capacity heq =>
      rw [heq] at hphase
      exact h.setThread ⟨hphase.1, hphase.2, rfl⟩
  · case h_3 capacity itemSize heq =>
      rw [heq] at hphase
      refine AttachInv.setThread (h.makeHandle hphase.1 ?_ ok) trivial
      rw [hphase.2.1, hphase.2.2]
  · case h_4 hd phase heq =>
      rw [heq] at hphase
      obtain ⟨hsettled, hfits, hbound⟩ := hphase
      obtain ⟨hsame, hnext⟩ := writeStep_bound hsettled.wellFormed hbound
      split
      · case h_1 rb phase' hstep =>
          rw [hstep] at hsame hnext
          exact h.moveOn hsettled hfits hsame fun hs hf => ⟨hs, hf, hnext phase' rfl⟩
      · case h_2 rb rc hstep =>
          rw [hstep] at hsame
          exact h.moveOn hsettled hfits hsame fun _ _ => trivial
  · case h_5 hd phase heq =>
      rw [heq] at hphase
      obtain ⟨hsettled, hfits, hbound⟩ := hphase
      obtain ⟨hsame, hnext⟩ := readStep_bound hsettled.wellFormed hbound
      split
      · case h_1 rb phase' hstep =>
          rw [hstep] at hsame hnext
          exact h.moveOn hsettled hfits hsame fun hs hf => ⟨hs, hf, hnext phase' rfl⟩
      · case h_2 rb result hstep =>
          rw [hstep] at hsame
          exact h.moveOn hsettled hfits hsame fun _ _ => trivial
  · exact h.setThread trivial

theorem AttachInv.attachStep (h : AttachInv args s) {ev : AttachEvent α}
    (hev : attachesStored s ev) : AttachInv args (attachStep args s ev) := by
  cases ev with
  | creatorStep ok => exact h.creatorStep ok
  | attach t => exact h.beginCall ⟨⟨hev.1, hev.2⟩, rfl⟩
  | write t k item =>
      exact h.beginOn fun hd hsettled hfits => ⟨hsettled, hfits, hsettled.wellFormed.head_lt⟩
  | read t k =>
      exact h.beginOn fun hd hsettled hfits => ⟨hsettled, hfits, hsettled.wellFormed.tail_lt⟩
  | isFull t k => exact h.beginOn fun hd hsettled hfits => ⟨hsettled, hfits⟩
  | threadStep t ok => exact h.threadStep t ok

theorem AttachInv.accessSafe (h : AttachInv args s) (ev : AttachEvent α) :
    AccessSafe s ev := by
  cases ev with
  | threadStep t ok =>
      have hphase := h.threads t
      rw [AccessSafe]
      cases hthread : s.threads t with
      | write hd phase =>
          rw [hthread] at hphase
          obtain ⟨hsettled, hfits, hbound⟩ := hphase
          cases phase with
          | loadTail item head => exact hsettled.wellFormed.capacity_ne
          | copy item head nextHead => exact slotInside_of_lt hfits hbound.1
          | storeHead item nextHead => trivial
      | read hd phase =>
          rw [hthread] at hphase
          obtain ⟨hsettled, hfits, hbound⟩ := hphase
          cases phase with
          | loadHead tail => trivial
          | copy tail => exact slotInside_of_lt hfits hbound
          | storeTail tail item => exact hsettled.wellFormed.capacity_ne
      | isFull hd =>
          rw [hthread] at hphase
          exact hphase.1.wellFormed.capacity_ne
      | _ => trivial
  | _ => trivial

end Steps

/-- Whatever the segment holds at first, no operation leaves the mapping of its handle
or divides by zero in a run whose attaches read the header behind the stores of the
creator, as that of a ring buffer. -/
theorem accessSafe_run (args : CreatorArgs) (rb : RingBuffer α) (creating : Bool)
    (evs : List (AttachEvent α))
    (hevs : Guarded (attachStep args) attachesStored (.start rb creating) evs) :
    Guarded (attachStep args) AccessSafe (.start rb creating) evs :=
  Guarded.of_invariant (I := AttachInv args) (fun _ _ hev h => h.attachStep hev)
    (fun _ ev _ h => h.accessSafe ev) (attachInv_start args rb creating) hevs

/-- A ring buffer of four items of eight bytes. -/
def fourItems : CreatorArgs where
  capacity := 4
  itemSize := 8
  capacity_ne := by decide
  itemSize_ne := by decide
  capacity_le := by decide
  itemSize_le := by decide

/-- The segment as `ftruncate` leaves it. -/
def zeroFilled : RingBuffer ℕ := ⟨0, 0, 0, 0, fun _ => 0⟩

theorem accessSafe_run_four :
    Guarded (attachStep fourItems) AccessSafe (.start zeroFilled true)
      [.creatorStep true, .creatorStep true, .creatorStep true, .creatorStep true, .attach 0,
        .threadStep 0 true, .threadStep 0 true, .write 0 0 7, .threadStep 0 true] := by
  refine accessSafe_run fourItems zeroFilled true _ ?_
  refine ⟨trivial, trivial, trivial, trivial, ⟨.inl rfl, ?_⟩, trivial, trivial, trivial,
    trivial, trivial⟩
  exact ⟨by decide, by decide, by decide⟩

/-- An attach in front of the stores gets a handle, and its write takes a remainder
modulo zero. -/
theorem not_accessSafe_zero_filled :
    ¬∀ (args : CreatorArgs) (rb : RingBuffer ℕ) (creating : Bool)
        (evs : List (AttachEvent ℕ)),
      Guarded (attachStep args) AccessSafe (.start rb creating) evs := by
  intro h
  have hrun := h fourItems zeroFilled true
    [.attach 0, .threadStep 0 true, .threadStep 0 true, .write 0 0 7, .threadStep 0 true]
  obtain ⟨-, -, -, -, hsafe, -⟩ := hrun
  exact hsafe rfl

end Core

end Shinigami
