import Mathlib.Data.List.Basic
import Mathlib.Order.Lattice

/-!
# The first minimum of a list

A loop over a list that keeps the index and the key of the least element so far, and
changes them at a smaller key only. It ends at the first of the least elements
(`exists_firstMin_split`).
-/

namespace Shinigami

variable {α β : Type*} [LinearOrder β]

/-- The loop from index `i` on, with the best index and its key. -/
def firstMinLoop (key : α → β) : List α → ℕ → ℕ → β → ℕ
  | [], _, best, _ => best
  | a :: l, i, best, bestKey =>
      if key a < bestKey then firstMinLoop key l (i + 1) i (key a)
      else firstMinLoop key l (i + 1) best bestKey

def firstMinIdx (key : α → β) : List α → ℕ
  | [] => 0
  | a :: l => firstMinLoop key l 1 0 (key a)

/-- The element `a` at index `i` is the first one with the least key. -/
structure IsFirstMin (key : α → β) (l : List α) (i : ℕ) (a : α) : Prop where
  getElem?_eq : l[i]? = some a
  le : ∀ b ∈ l, key a ≤ key b
  lt : ∀ j < i, ∀ b, l[j]? = some b → key a < key b

theorem isFirstMin_firstMinLoop {key : α → β} {done rest : List α} {best : ℕ} {a : α}
    (h : IsFirstMin key done best a) :
    ∃ a', IsFirstMin key (done ++ rest) (firstMinLoop key rest done.length best (key a)) a' := by
  induction rest generalizing done best a with
  | nil => exact ⟨a, by simpa [firstMinLoop] using h⟩
  | cons b rest ih =>
      have hbest : best < done.length := by
        obtain ⟨hlt, -⟩ := List.getElem?_eq_some_iff.mp h.getElem?_eq
        exact hlt
      have hlen : done.length + 1 = (done ++ [b]).length := by simp
      rw [firstMinLoop, hlen, ← List.singleton_append, ← List.append_assoc]
      split_ifs with hless
      · refine ih ⟨by simp, fun c hc => ?_, fun j hj c hc => ?_⟩
        · rcases List.mem_append.mp hc with hc | hc
          · exact le_of_lt (lt_of_lt_of_le hless (h.le c hc))
          · rw [List.mem_singleton.mp hc]
        · rw [List.getElem?_append_left hj] at hc
          exact lt_of_lt_of_le hless (h.le c (List.mem_of_getElem? hc))
      · refine ih ⟨?_, fun c hc => ?_, fun j hj c hc => ?_⟩
        · rw [List.getElem?_append_left hbest, h.getElem?_eq]
        · rcases List.mem_append.mp hc with hc | hc
          · exact h.le c hc
          · rw [List.mem_singleton.mp hc]
            exact not_lt.mp hless
        · rw [List.getElem?_append_left (Nat.lt_trans hj hbest)] at hc
          exact h.lt j hj c hc

theorem exists_isFirstMin (key : α → β) {l : List α} (hl : l ≠ []) :
    ∃ a, IsFirstMin key l (firstMinIdx key l) a := by
  cases l with
  | nil => exact absurd rfl hl
  | cons a l =>
      have hstart : IsFirstMin key [a] 0 a :=
        ⟨rfl, fun b hb => le_of_eq (congrArg key (List.mem_singleton.mp hb).symm), nofun⟩
      exact isFirstMin_firstMinLoop hstart

theorem exists_firstMin_split (key : α → β) {l : List α} (hl : l ≠ []) :
    ∃ before a after, l = before ++ a :: after ∧ l[firstMinIdx key l]? = some a ∧
      l.eraseIdx (firstMinIdx key l) = before ++ after ∧ (∀ b ∈ l, key a ≤ key b) ∧
      ∀ b ∈ before, key a < key b := by
  obtain ⟨a, hmin⟩ := exists_isFirstMin key hl
  obtain ⟨hlt, ha⟩ := List.getElem?_eq_some_iff.mp hmin.getElem?_eq
  refine ⟨l.take (firstMinIdx key l), a, l.drop (firstMinIdx key l + 1), ?_,
    hmin.getElem?_eq, ?_, hmin.le, fun b hb => ?_⟩
  · rw [← ha, List.getElem_cons_drop, List.take_append_drop]
  · exact List.eraseIdx_eq_take_drop_succ ..
  · obtain ⟨j, hj, rfl⟩ := List.mem_iff_getElem.mp hb
    have hj' : j < firstMinIdx key l := Nat.lt_of_lt_of_le hj (List.length_take_le _ _)
    apply hmin.lt j hj' _
    rw [List.getElem_take, List.getElem?_eq_getElem]

end Shinigami
