import Mathlib.Data.Finset.Card
import Mathlib.Data.List.Range
import Mathlib.Data.Nat.Find
import Shinigami.Core.CompletionRouting

/-!
# Which slot a registration takes

A cleared descriptor marks a slot as free, and a timer has no descriptor to begin
with. A registration is fresh when it takes a slot that no live operation holds; for
that, every live operation that looks free to it stands behind a slot that is free.
-/

namespace Shinigami

namespace Core

/-- The test of `io_loop_register_op` for a slot that it may fill again. -/
def looksFree (l : IoLoop) (desc : IoOpDesc) (i : ℕ) : Prop :=
  (l.ops i).fd < 0 ∧ (l.ops i).opType = desc.opType

instance (l : IoLoop) (desc : IoOpDesc) (i : ℕ) : Decidable (looksFree l desc i) :=
  inferInstanceAs (Decidable (_ ∧ _))

def liveOps (l : IoLoop) : Finset ℕ :=
  (Finset.range l.opCount).filter fun i => (l.owner i).isSome

/-- Slot `i` of the table comes to hold an operation that was not there, and the live
operations stay as they were. -/
structure TakesFreshSlot (l l' : IoLoop) (i : ℕ) : Prop where
  lt_maxOps : i < maxOps
  fresh : i ∉ liveOps l
  live : liveOps l' = insert i (liveOps l)
  card : (liveOps l').card = (liveOps l).card + 1
  others : ∀ j ∈ liveOps l, l'.ops j = l.ops j ∧ l'.owner j = l.owner j

/-- A registration that succeeds returns the slot of no live operation. -/
def RegistersFresh (l : IoLoop) : LoopEvent → Prop
  | .register desc =>
      (ioLoopRegisterOp l desc).2 ≥ 0 → ∃ i : ℕ, (ioLoopRegisterOp l desc).2 = i ∧
        TakesFreshSlot l (ioLoopRegisterOp l desc).1 i
  | _ => True

/-- Every live operation that looks free to the registration stands behind an
unregistered slot of its type. -/
def leavesLive (l : IoLoop) : LoopEvent → Prop
  | .register desc =>
      ∀ i < l.opCount, looksFree l desc i → (l.owner i).isSome = true →
        ∃ j < i, looksFree l desc j ∧ l.owner j = none
  | _ => True

/-- What every step but `io_loop_clear_ops` keeps of the table. -/
structure SlotInv (l : IoLoop) : Prop where
  opCount_le : l.opCount ≤ maxOps
  beyond : ∀ i ≥ l.opCount, l.owner i = none
  unowned : ∀ i < l.opCount, l.owner i = none → (l.ops i).fd < 0

section Slots

variable {l l' l'' : IoLoop} {desc : IoOpDesc} {i : ℕ}

theorem mem_liveOps : i ∈ liveOps l ↔ i < l.opCount ∧ (l.owner i).isSome = true := by
  rw [liveOps, Finset.mem_filter, Finset.mem_range]

theorem SameSlots.refl (l : IoLoop) : SameSlots l l := ⟨rfl, rfl, rfl⟩

theorem SameSlots.trans (h : SameSlots l l') (h' : SameSlots l' l'') : SameSlots l l'' :=
  ⟨h'.ops.trans h.ops, h'.opCount.trans h.opCount, h'.owner.trans h.owner⟩

theorem SlotInv.of_sameSlots (h : SlotInv l) (hsame : SameSlots l l') : SlotInv l' where
  opCount_le := hsame.opCount ▸ h.opCount_le
  beyond := by
    rw [hsame.opCount, hsame.owner]
    exact h.beyond
  unowned := by
    rw [hsame.opCount, hsame.owner, hsame.ops]
    exact h.unowned

theorem slotInv_create : SlotInv ioLoopCreate where
  opCount_le := Nat.zero_le _
  beyond := fun _ _ => rfl
  unowned := by simp [ioLoopCreate]

/-- The slot that a registration takes: the first that looks free, or else the next
one. -/
theorem registerSlot_eq_some : registerSlot l desc = some i ↔
    (i < l.opCount ∧ looksFree l desc i ∧ ∀ j < i, ¬looksFree l desc j) ∨
      (i = l.opCount ∧ l.opCount < maxOps ∧ ∀ j < l.opCount, ¬looksFree l desc j) := by
  unfold registerSlot
  split
  · case h_1 k hfound =>
      obtain ⟨hk, hkmem, hkfirst⟩ := List.find?_range_eq_some.mp hfound
      simp only [Bool.and_eq_true, decide_eq_true_eq, beq_iff_eq, List.mem_range,
        Bool.not_eq_true', Bool.and_eq_false_iff] at hk hkmem hkfirst
      have hfirst : ∀ j < k, ¬looksFree l desc j := by
        intro j hj hfree
        simpa [hfree.1, hfree.2] using hkfirst j hj
      constructor
      · rintro ⟨⟩
        exact .inl ⟨hkmem, hk, hfirst⟩
      · rintro (⟨-, hfree, hbefore⟩ | ⟨-, -, hnone⟩)
        · rcases Nat.lt_trichotomy i k with hlt | rfl | hlt
          · exact absurd hfree (hfirst i hlt)
          · rfl
          · exact absurd hk (hbefore k hlt)
        · exact absurd hk (hnone k hkmem)
  · case h_2 hnone =>
      have hfree : ∀ j < l.opCount, ¬looksFree l desc j := by
        intro j hj hfree
        have htest := List.find?_eq_none.mp hnone j (List.mem_range.mpr hj)
        simp [hfree.1, hfree.2] at htest
      split_ifs with hfull
      · simp only [false_iff, not_or]
        constructor
        · rintro ⟨hi, hlooks, -⟩
          exact hfree i hi hlooks
        · rintro ⟨-, hroom, -⟩
          omega
      · simp only [Option.some.injEq]
        constructor
        · rintro rfl
          exact .inr ⟨rfl, by omega, hfree⟩
        · rintro (⟨hi, hlooks, -⟩ | ⟨rfl, -⟩)
          · exact absurd hlooks (hfree i hi)
          · rfl

theorem registerSlot_lt_maxOps (h : SlotInv l) (hslot : registerSlot l desc = some i) :
    i < maxOps := by
  have hle := h.opCount_le
  rcases registerSlot_eq_some.mp hslot with ⟨hi, -⟩ | ⟨rfl, hroom, -⟩
  · omega
  · exact hroom

theorem SlotInv.register (h : SlotInv l) : SlotInv (ioLoopRegisterOp l desc).1 := by
  unfold ioLoopRegisterOp
  cases hslot : registerSlot l desc with
  | none => exact h
  | some i =>
      have hle := registerSlot_le hslot
      have hlt := registerSlot_lt_maxOps h hslot
      have hcount := h.opCount_le
      refine ⟨by simp only; omega, fun j hj => ?_, fun j hj hnone => ?_⟩
      · simp only at hj ⊢
        rw [Function.update_of_ne (by omega)]
        exact h.beyond j (by omega)
      · by_cases hji : j = i
        · simp [hji] at hnone
        · simp only [Function.update_of_ne hji] at hj hnone ⊢
          exact h.unowned j (by omega) hnone

theorem SlotInv.unregister (h : SlotInv l) (fd : ℤ) :
    SlotInv (ioLoopUnregisterFd l fd).1 := by
  unfold ioLoopUnregisterFd
  cases hslot : unregisterSlot l fd with
  | none => exact h
  | some i =>
      refine ⟨h.opCount_le, fun j hj => ?_, fun j hj hnone => ?_⟩
      · by_cases hji : j = i
        · simp [hji]
        · simp only [Function.update_of_ne hji]
          exact h.beyond j hj
      · by_cases hji : j = i
        · simp [hji]
        · simp only [Function.update_of_ne hji] at hnone ⊢
          exact h.unowned j hj hnone

theorem sameSlots_submitReadOp (l : IoLoop) (i : ℕ) (out : Submission) :
    SameSlots l (submitReadOp l i out) := by
  unfold submitReadOp
  split_ifs
  · exact .refl l
  · exact sameSlots_submitPending _ _ _

theorem sameSlots_submitPollOp (l : IoLoop) (i : ℕ) (out : Submission) :
    SameSlots l (submitPollOp l i out) := by
  unfold submitPollOp
  split_ifs
  · exact .refl l
  · exact sameSlots_submitPending _ _ _

theorem sameSlots_rearm (l : IoLoop) (i : ℕ) (opType : IoOpType) (result rc : ℤ)
    (stopFlag : Bool) (out : Submission) :
    SameSlots l (rearm l i opType result rc stopFlag out) := by
  cases opType with
  | timeout =>
      simp only [rearm]
      split_ifs
      · exact sameSlots_submitPending _ _ _
      · exact .refl l
  | read =>
      simp only [rearm]
      split_ifs
      · exact sameSlots_submitReadOp _ _ _
      · exact .refl l
  | poll =>
      simp only [rearm]
      split_ifs
      · exact sameSlots_submitPollOp _ _ _
      · exact .refl l
  | write => exact .refl l
  | accept => exact .refl l
  | cancel => exact .refl l

theorem sameSlots_submitAll (l : IoLoop) (out : ℕ → Submission) (slots : List ℕ) :
    SameSlots l (slots.foldl (submitInitial out) l) := by
  induction slots generalizing l with
  | nil => exact .refl l
  | cons i slots ih =>
      rw [List.foldl_cons]
      exact (sameSlots_submitInitial l out i).trans (ih _)

theorem sameSlots_ioLoopRun (l : IoLoop) (out : ℕ → Submission) (wakeup : Submission)
    (submitOk : Bool) : SameSlots l (ioLoopRun l out wakeup submitOk) := by
  have hsubmit := (sameSlots_submitAll l out (List.range l.opCount)).trans
    (sameSlots_submitPending _ ⟨wakeupOpIdx, none, 0, 0, none⟩ wakeup)
  unfold ioLoopRun
  split_ifs
  · exact ⟨hsubmit.ops, hsubmit.opCount, hsubmit.owner⟩
  · exact hsubmit

theorem sameSlots_processCqe (l : IoLoop) (p : IoPending) (result : ℤ)
    (stopFlag : Bool) (out : Submission) :
    SameSlots l (processCqe l p result stopFlag out) := by
  simp only [processCqe]
  split_ifs
  · exact sameSlots_submitPending _ _ _
  · exact .refl l
  · exact ⟨rfl, rfl, rfl⟩
  · exact .refl l
  · exact .refl l
  · exact ⟨rfl, rfl, rfl⟩
  · exact sameSlots_rearm _ _ _ _ _ _ _

theorem SlotInv.loopStep (h : SlotInv l) {ev : LoopEvent} (hev : ev ≠ .clear) :
    SlotInv (loopStep l ev) := by
  cases ev with
  | register desc => exact h.register
  | unregister fd => exact h.unregister fd
  | clear => exact absurd rfl hev
  | submitWrite fd cb userData out submitOk =>
      simp only [Core.loopStep, ioLoopSubmitWrite]
      split_ifs
      · exact h
      · split
        · exact h.of_sameSlots (sameSlots_submitPending _ _ _)
        · exact h.of_sameSlots (sameSlots_submitPending _ _ _)
  | enter out wakeup submitOk =>
      simp only [Core.loopStep]
      split_ifs
      · exact h.of_sameSlots (sameSlots_ioLoopRun _ _ _ _)
      · exact h
  | complete k found result stopFlag out =>
      have hrest : SlotInv { l with inFlight := l.inFlight.eraseIdx k } :=
        ⟨h.opCount_le, h.beyond, h.unowned⟩
      simp only [Core.loopStep]
      split_ifs
      · split
        · exact h
        · split
          · exact hrest
          · exact hrest.of_sameSlots (sameSlots_processCqe _ _ _ _ _)
      · exact h
  | ret rc stopFlag out =>
      simp only [Core.loopStep]
      split
      · exact SlotInv.of_sameSlots (l := { l with phase := .waiting })
          ⟨h.opCount_le, h.beyond, h.unowned⟩ (sameSlots_rearm _ _ _ _ _ _ _)
      · exact ⟨h.opCount_le, h.beyond, h.unowned⟩
      · exact h
  | leave =>
      simp only [Core.loopStep]
      split_ifs
      · exact ⟨h.opCount_le, h.beyond, h.unowned⟩
      · exact h

theorem liveOps_register (h : SlotInv l) (hslot : registerSlot l desc = some i) :
    liveOps (ioLoopRegisterOp l desc).1 = insert i (liveOps l) := by
  have hle := registerSlot_le hslot
  ext j
  rw [Finset.mem_insert, mem_liveOps, mem_liveOps, ioLoopRegisterOp, hslot]
  by_cases hji : j = i
  · simp [hji]
  · simp only [Function.update_of_ne hji, hji, false_or]
    refine ⟨fun ⟨_, hsome⟩ => ⟨?_, hsome⟩, fun ⟨hj, hsome⟩ => ⟨by omega, hsome⟩⟩
    by_contra hj
    rw [h.beyond j (by omega)] at hsome
    cases hsome

/-- A registration is fresh exactly when nobody holds the slot that it takes. -/
theorem registersFresh_iff (h : SlotInv l) : RegistersFresh l (.register desc) ↔
    ∀ i, registerSlot l desc = some i → l.owner i = none := by
  cases hslot : registerSlot l desc with
  | none => simp [RegistersFresh, ioLoopRegisterOp, hslot, eNoMem]
  | some i =>
      have hlive := liveOps_register h hslot
      have hmem : i ∈ liveOps l ↔ l.owner i ≠ none := by
        rw [mem_liveOps, Option.isSome_iff_ne_none]
        refine ⟨And.right, fun hsome => ⟨?_, hsome⟩⟩
        by_contra hi
        exact hsome (h.beyond i (by omega))
      have hresult : (ioLoopRegisterOp l desc).2 = i := by simp [ioLoopRegisterOp, hslot]
      constructor
      · intro hfresh k hk
        cases hk
        obtain ⟨k, hidx, htakes⟩ := hfresh (by rw [hresult]; omega)
        have hik : i = k := Int.ofNat_inj.mp (hresult.symm.trans hidx)
        subst hik
        by_contra hsome
        exact htakes.fresh (hmem.mpr hsome)
      · intro hnone _
        have hnot : i ∉ liveOps l := fun hi => hmem.mp hi (hnone i rfl)
        refine ⟨i, hresult, registerSlot_lt_maxOps h hslot, hnot, hlive, ?_, ?_⟩
        · rw [hlive, Finset.card_insert_of_notMem hnot]
        · intro j hj
          have hji : j ≠ i := fun heq => hnot (heq ▸ hj)
          simp [ioLoopRegisterOp, hslot, Function.update_of_ne hji]

theorem leavesLive_iff (h : SlotInv l) : leavesLive l (.register desc) ↔
    ∀ i, registerSlot l desc = some i → l.owner i = none := by
  constructor
  · intro hleaves i hslot
    rcases registerSlot_eq_some.mp hslot with ⟨hi, hfree, hfirst⟩ | ⟨rfl, -⟩
    · by_contra hsome
      obtain ⟨j, hj, hbefore, -⟩ := hleaves i hi hfree (Option.isSome_iff_ne_none.mpr hsome)
      exact hfirst j hj hbefore
    · exact h.beyond _ (Nat.le_refl _)
  · intro hnone i hi hfree hsome
    let k := Nat.find (p := looksFree l desc) ⟨i, hfree⟩
    have hk : looksFree l desc k := Nat.find_spec _
    have hki : k ≤ i := Nat.find_min' _ hfree
    have hslot : registerSlot l desc = some k :=
      registerSlot_eq_some.mpr
        (.inl ⟨by omega, hk, fun j hj => Nat.find_min (p := looksFree l desc) _ hj⟩)
    have hfreed := hnone k hslot
    refine ⟨k, Nat.lt_of_le_of_ne hki fun heq => ?_, hk, hfreed⟩
    rw [← heq, hfreed] at hsome
    cases hsome

theorem registersFresh_iff_leavesLive (h : SlotInv l) (ev : LoopEvent) :
    RegistersFresh l ev ↔ leavesLive l ev := by
  cases ev with
  | register desc => exact (registersFresh_iff h).trans (leavesLive_iff h).symm
  | _ => exact Iff.rfl

end Slots

/-- In a run of the loop without `io_loop_clear_ops`, every registration is fresh
exactly when each of them meets no live operation that looks free to it in front of all
unregistered slots of its type. -/
theorem registersFresh_run_iff (evs : List LoopEvent) (hclear : .clear ∉ evs) :
    Guarded loopStep RegistersFresh ioLoopCreate evs ↔
      Guarded loopStep leavesLive ioLoopCreate evs := by
  have hevs : ∀ ev ∈ evs, ev ≠ .clear := fun ev hmem heq => hclear (heq ▸ hmem)
  exact guarded_congr (I := SlotInv) (P := (· ≠ .clear)) (fun s ev hev h => h.loopStep hev)
    (fun s ev _ h => registersFresh_iff_leavesLive h ev) slotInv_create hevs

/-- A timer, which has no descriptor. -/
def timer (userData : ℕ) : IoOpDesc := ⟨-1, .timeout, 0, some 0, userData, 1000⟩

theorem registersFresh_run_timer_read :
    Guarded loopStep RegistersFresh ioLoopCreate
        [.register (timer 1), .register ⟨5, .read, 64, some 0, 2, 0⟩, .unregister 5] ↔
      Guarded loopStep leavesLive ioLoopCreate
        [.register (timer 1), .register ⟨5, .read, 64, some 0, 2, 0⟩, .unregister 5] :=
  registersFresh_run_iff _ (by simp)

/-- The second of two timers takes the slot of the first. -/
theorem not_registersFresh_two_timers :
    ¬∀ evs : List LoopEvent, .clear ∉ evs →
      Guarded loopStep RegistersFresh ioLoopCreate evs := by
  intro h
  obtain ⟨-, hsecond, -⟩ := h [.register (timer 1), .register (timer 2)] (by simp)
  have hinv : SlotInv (loopStep ioLoopCreate (.register (timer 1))) :=
    slotInv_create.loopStep (by simp)
  have howner := (registersFresh_iff hinv).mp hsecond 0 rfl
  exact absurd howner (by simp [loopStep, ioLoopRegisterOp, registerSlot, ioLoopCreate, maxOps])

end Core

end Shinigami
