import Mathlib.Data.List.Basic

/-!
# Tables filled from the front

A table of slots is `GapFree` when every slot in front of a filled one is filled. A
reader that is told only the number of filled slots reads a prefix of the table, and
it gets the filled slots exactly when there is no gap (`map_take_countP_iff`).
-/

namespace Shinigami

variable {α β : Type*} {p : α → Prop} [DecidablePred p] {l : List α}

/-- Every slot in front of a filled one is filled. -/
def GapFree (p : α → Prop) (l : List α) : Prop := l.Pairwise fun a b => p b → p a

instance decidableGapFree : Decidable (GapFree p l) :=
  inferInstanceAs (Decidable (List.Pairwise _ _))

theorem gapFree_iff_forall_take : GapFree p l ↔ ∀ a ∈ l.take (l.countP p), p a := by
  induction l with
  | nil => simp [GapFree]
  | cons a l ih =>
      rw [GapFree, List.pairwise_cons]
      by_cases ha : p a
      · rw [List.countP_cons_of_pos (by simpa using ha), List.take_succ_cons,
          List.forall_mem_cons, ← ih]
        exact and_congr_left fun _ => iff_of_true (fun _ _ _ => ha) ha
      · rw [List.countP_cons_of_neg (by simpa using ha)]
        constructor
        · rintro ⟨hnone, -⟩
          have hzero : l.countP p = 0 := by
            rw [List.countP_eq_zero]
            intro b hb
            simpa using fun hpb => ha (hnone b hb hpb)
          simp [hzero]
        · intro htake
          have hzero : l.countP p = 0 := by
            refine Nat.eq_zero_of_not_pos fun hpos => ha (htake a ?_)
            rw [← Nat.succ_pred_eq_of_pos hpos, List.take_succ_cons]
            exact List.mem_cons_self ..
          have hnone : ∀ b ∈ l, ¬p b := by simpa using List.countP_eq_zero.mp hzero
          refine ⟨fun b hb hpb => absurd hpb (hnone b hb), ?_⟩
          exact List.Pairwise.imp_of_mem (fun _ hb _ hpb => absurd hpb (hnone _ hb))
            (List.pairwise_of_forall fun _ _ => trivial)

theorem GapFree.take_countP (h : GapFree p l) : l.take (l.countP p) = l.filter p := by
  induction l with
  | nil => rfl
  | cons a l ih =>
      have htail : GapFree p l := (List.pairwise_cons.mp h).2
      by_cases ha : p a
      · rw [List.countP_cons_of_pos (by simpa using ha), List.take_succ_cons,
          List.filter_cons_of_pos (by simpa using ha), ih htail]
      · have hnone : ∀ b ∈ l, ¬p b := fun b hb hpb =>
          ha ((List.pairwise_cons.mp h).1 b hb hpb)
        have hzero : l.countP p = 0 := by simpa [List.countP_eq_zero] using hnone
        rw [List.countP_cons_of_neg (by simpa using ha), hzero,
          List.filter_cons_of_neg (by simpa using ha), List.take_zero]
        exact (List.filter_eq_nil_iff.mpr (by simpa using hnone)).symm

/-- A reading `f` that tells filled from empty slots is right on the counted prefix
exactly when there is no gap. -/
theorem map_take_countP_iff {f : α → β} (hf : ∀ a b, f a = f b → p a → p b) :
    (l.take (l.countP p)).map f = (l.filter p).map f ↔ GapFree p l := by
  constructor
  · intro h
    rw [gapFree_iff_forall_take]
    intro a ha
    have hmem : f a ∈ (l.filter p).map f := h ▸ List.mem_map_of_mem ha
    obtain ⟨b, hb, hba⟩ := List.mem_map.mp hmem
    exact hf b a hba (by simpa using (List.mem_filter.mp hb).2)
  · intro h
    rw [h.take_countP]

end Shinigami
