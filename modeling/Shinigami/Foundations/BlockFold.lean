import Mathlib.Data.List.Induction
import Mathlib.Data.List.TakeDrop
import Mathlib.Tactic.Ring

/-!
# Folding over blocks

A function `f : σ → List α → σ` takes a list block by block, `B` items at a time.
`blockFold` does so on a list that is there as a whole; `absorb` takes the items one
by one and keeps the block that is not full yet. `foldl_absorb` says that both arrive
at the same state, wherever the items come from.
-/

namespace Shinigami

section BlockFold

variable {σ α : Type*}

/-- The state after the first `n` blocks of `B` items. -/
def blockFold (B : ℕ) (f : σ → List α → σ) : ℕ → σ → List α → σ
  | 0, s, _ => s
  | n + 1, s, l => blockFold B f n (f s (l.take B)) (l.drop B)

def absorb (B : ℕ) (f : σ → List α → σ) (s : σ × List α) (a : α) : σ × List α :=
  if (s.2 ++ [a]).length = B then (f s.1 (s.2 ++ [a]), []) else (s.1, s.2 ++ [a])

variable {B : ℕ} {f : σ → List α → σ}

theorem blockFold_append (n : ℕ) (s : σ) {l : List α} (hl : B * n ≤ l.length)
    (rest : List α) : blockFold B f n s (l ++ rest) = blockFold B f n s l := by
  induction n generalizing s l with
  | zero => rfl
  | succ n ih =>
      rw [Nat.mul_succ] at hl
      rw [blockFold, blockFold, List.take_append_of_le_length (by omega),
        List.drop_append_of_le_length (by omega)]
      exact ih _ (by rw [List.length_drop]; omega)

theorem blockFold_add (m n : ℕ) (s : σ) (l : List α) :
    blockFold B f (m + n) s l = blockFold B f n (blockFold B f m s l) (l.drop (B * m)) := by
  induction m generalizing s l with
  | zero => simp [blockFold]
  | succ m ih =>
      rw [Nat.add_right_comm, blockFold, ih, blockFold, List.drop_drop]
      congr 2
      ring

theorem blockFold_one (s : σ) {l : List α} (hl : l.length = B) :
    blockFold B f 1 s l = f s l := by
  rw [blockFold, blockFold, List.take_of_length_le (by omega)]

theorem map_blockFold {τ β : Type*} {C : ℕ} {g : τ → List β → τ} (φ : σ → τ)
    (ψ : List α → List β) (htake : ∀ l, ψ (l.take B) = (ψ l).take C)
    (hdrop : ∀ l, ψ (l.drop B) = (ψ l).drop C)
    (hf : ∀ s l, l.length = B → φ (f s l) = g (φ s) (ψ l)) (n : ℕ) (s : σ) {l : List α}
    (hl : B * n ≤ l.length) :
    φ (blockFold B f n s l) = blockFold C g n (φ s) (ψ l) := by
  induction n generalizing s l with
  | zero => rfl
  | succ n ih =>
      rw [Nat.mul_succ] at hl
      rw [blockFold, ih _ (by rw [List.length_drop]; omega), blockFold,
        hf s _ (by rw [List.length_take]; omega), htake, hdrop]

theorem succ_div_of_mod (hB : 0 < B) (a : ℕ) :
    (a + 1) / B = if a % B + 1 = B then a / B + 1 else a / B := by
  have hdiv := Nat.div_add_mod a B
  have hmod := Nat.mod_lt a hB
  split_ifs with hfull
  · have heq : a + 1 = B * (a / B + 1) := by
      rw [Nat.mul_succ]
      omega
    rw [heq, Nat.mul_div_cancel_left _ hB]
  · have heq : a + 1 = a % B + 1 + B * (a / B) := by omega
    rw [heq, Nat.add_mul_div_left _ _ hB, Nat.div_eq_of_lt (by omega), Nat.zero_add]

/-- Taking the items one by one folds the full blocks and keeps the rest. -/
theorem foldl_absorb (hB : 0 < B) (s : σ) (l : List α) :
    l.foldl (absorb B f) (s, []) =
      (blockFold B f (l.length / B) s l, l.drop (B * (l.length / B))) := by
  induction l using List.reverseRecOn with
  | nil => simp [blockFold]
  | append_singleton l a ih =>
      have hdiv := Nat.div_add_mod l.length B
      have hle : B * (l.length / B) ≤ l.length := by omega
      have hwait : (l.drop (B * (l.length / B)) ++ [a]).length = l.length % B + 1 := by
        rw [List.length_append, List.length_drop, List.length_singleton]
        omega
      have hrest : (l ++ [a]).drop (B * (l.length / B)) = l.drop (B * (l.length / B)) ++ [a] :=
        List.drop_append_of_le_length hle
      rw [List.foldl_append, ih, List.foldl_cons, List.foldl_nil, absorb, hwait,
        List.length_append, List.length_singleton, succ_div_of_mod hB]
      split_ifs with hfull
      · -- the item fills the block
        have hempty : (l ++ [a]).drop (B * (l.length / B + 1)) = [] := by
          rw [List.drop_eq_nil_iff, List.length_append, List.length_singleton, Nat.mul_succ]
          omega
        rw [blockFold_add, blockFold_append _ _ hle, hrest, blockFold_one _ (by omega), hempty]
      · rw [blockFold_append _ _ hle, hrest]

end BlockFold

end Shinigami
