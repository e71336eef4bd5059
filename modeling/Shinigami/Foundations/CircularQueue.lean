import Mathlib.Logic.Function.Basic
import Shinigami.Foundations.RingIndex

/-!
# Queues laid out in a ring

A ring of `n` slots holds a queue of `used` elements from slot `front` on, and
`ringContents` is this queue as a list. Writing the slot behind the queue appends
to it (`ringContents_push`), moving `front` on takes its first element
(`ringContents_pop`), and a copy to the start of another ring leaves it as it is
(`ringContents_copy`).
-/

namespace Shinigami

variable {α : Type*}

def ringContents (slots : ℕ → α) (n front used : ℕ) : List α :=
  (List.range used).map fun i => slots ((front + i) % n)

@[simp] theorem length_ringContents (slots : ℕ → α) (n front used : ℕ) :
    (ringContents slots n front used).length = used := by
  simp [ringContents]

theorem ringContents_push (slots : ℕ → α) {n front used : ℕ} (hroom : used < n) (a : α) :
    ringContents (Function.update slots ((front + used) % n) a) n front (used + 1) =
      ringContents slots n front used ++ [a] := by
  unfold ringContents
  rw [List.range_succ, List.map_append, List.map_singleton, Function.update_self]
  congr 1
  refine List.map_congr_left fun i hi => ?_
  have hlt : i < used := List.mem_range.mp hi
  refine Function.update_of_ne (fun heq => ?_) _ _
  have hsame := RingIndex.eq_of_mod_eq (by omega) (by omega) heq
  omega

theorem ringContents_pop (slots : ℕ → α) {n front : ℕ} (hfront : front < n) (used : ℕ) :
    ringContents slots n front (used + 1) =
      slots front :: ringContents slots n ((front + 1) % n) used := by
  unfold ringContents
  rw [List.range_succ_eq_map, List.map_cons, List.map_map, Nat.add_zero,
    Nat.mod_eq_of_lt hfront]
  refine congrArg (slots front :: ·) (List.map_congr_left fun i _ => ?_)
  rw [Function.comp_apply, Nat.mod_add_mod, Nat.add_assoc, Nat.add_comm 1 i]

theorem ringContents_copy {slots slots' : ℕ → α} {n m front used : ℕ}
    (hcopy : ∀ i < used, slots' i = slots ((front + i) % n)) (hused : used ≤ m) :
    ringContents slots' m 0 used = ringContents slots n front used := by
  refine List.map_congr_left fun i hi => ?_
  have hlt : i < used := List.mem_range.mp hi
  rw [Nat.zero_add, Nat.mod_eq_of_lt (by omega), hcopy i hlt]

theorem foldl_update_range (f : ℕ → α) (slots : ℕ → α) (k j : ℕ) :
    (List.range k).foldl (fun q i => Function.update q i (f i)) slots j =
      if j < k then f j else slots j := by
  induction k with
  | zero => rfl
  | succ k ih =>
      rw [List.range_succ, List.foldl_append, List.foldl_cons, List.foldl_nil]
      by_cases heq : j = k
      · rw [heq, Function.update_self, if_pos (Nat.lt_succ_self k)]
      · rw [Function.update_of_ne heq, ih]
        exact if_congr (by omega) rfl rfl

end Shinigami
