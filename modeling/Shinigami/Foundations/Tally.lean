import Mathlib.Algebra.BigOperators.Group.Finset.Basic
import Mathlib.Algebra.Order.Ring.Nat

/-!
# Sums over the parties of a system

Each party of a list carries a weight, and `tally w l` is what they carry together.
When one party changes, the tally moves by the difference of its weights
(`tally_set`), so that a counter and a tally are compared step by step.
-/

namespace Shinigami

variable {α : Type*}

def tally (w : α → ℕ) (l : List α) : ℕ := (l.map w).sum

@[simp] theorem tally_nil (w : α → ℕ) : tally w [] = 0 := rfl

@[simp] theorem tally_cons (w : α → ℕ) (a : α) (l : List α) :
    tally w (a :: l) = w a + tally w l := by
  simp [tally]

@[simp] theorem tally_append (w : α → ℕ) (l l' : List α) :
    tally w (l ++ l') = tally w l + tally w l' := by
  simp [tally]

/-- A party that changes takes its old weight away and brings its new one. -/
theorem tally_set (w : α → ℕ) {l : List α} {i : ℕ} {a : α} (h : l[i]? = some a) (b : α) :
    tally w (l.set i b) + w a = tally w l + w b := by
  induction l generalizing i with
  | nil => simp at h
  | cons c l ih =>
      cases i with
      | zero =>
          obtain rfl : c = a := by simpa using h
          rw [List.set_cons_zero, tally_cons, tally_cons]
          omega
      | succ i =>
          have hrest := ih (i := i) (by simpa using h)
          rw [List.set_cons_succ, tally_cons, tally_cons]
          omega

theorem tally_eraseIdx (w : α → ℕ) {l : List α} {i : ℕ} {a : α} (h : l[i]? = some a) :
    tally w (l.eraseIdx i) + w a = tally w l := by
  induction l generalizing i with
  | nil => simp at h
  | cons c l ih =>
      cases i with
      | zero =>
          obtain rfl : c = a := by simpa using h
          rw [List.eraseIdx_cons_zero, tally_cons, Nat.add_comm]
      | succ i =>
          have hrest := ih (i := i) (by simpa using h)
          rw [List.eraseIdx_cons_succ, tally_cons, tally_cons]
          omega

theorem tally_congr {w w' : α → ℕ} {l : List α} (h : ∀ a ∈ l, w a = w' a) :
    tally w l = tally w' l := by
  unfold tally
  rw [List.map_congr_left h]

theorem tally_add_one_le {w : α → ℕ} {l : List α} (h : ∀ a, w a ≤ 1) {a : α} (ha : a ∈ l) :
    tally w l + 1 ≤ l.length + w a := by
  have hle : ∀ l : List α, tally w l ≤ l.length := by
    intro l
    induction l with
    | nil => exact le_refl _
    | cons b l ih =>
        have hb := h b
        rw [tally_cons, List.length_cons]
        omega
  obtain ⟨before, after, rfl⟩ := List.append_of_mem ha
  have hbefore := hle before
  have hafter := hle after
  rw [tally_append, tally_cons, List.length_append, List.length_cons]
  omega

theorem tally_ite (p : α → Prop) [DecidablePred p] (l : List α) :
    tally (fun a => if p a then 1 else 0) l = l.countP p := by
  induction l with
  | nil => rfl
  | cons a l ih =>
      rw [tally_cons, ih, List.countP_cons, Nat.add_comm]
      simp

theorem sum_tally {ι : Type*} (s : Finset ι) (w : ι → α → ℕ) (l : List α) :
    ∑ k ∈ s, tally (w k) l = tally (fun a => ∑ k ∈ s, w k a) l := by
  induction l with
  | nil => simp
  | cons a l ih => simp only [tally_cons, Finset.sum_add_distrib, ih]

end Shinigami
