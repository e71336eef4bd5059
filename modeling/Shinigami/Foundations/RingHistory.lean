import Mathlib.Data.List.Induction
import Mathlib.Logic.Function.Basic
import Shinigami.Foundations.RingIndex

/-!
# The last items written to a ring

Items that go to the slots of a ring of `n` one after the other: an item stays in its
slot until `n` more have been written (`ringWrites_getElem`), so that the slots in front
of the next one hold the last items in order (`map_ringWrites`).
-/

namespace Shinigami

variable {α : Type*}

/-- The slots after `items` have been written from position `start` on. -/
def ringWrites (n : ℕ) (slots : ℕ → α) (start : ℕ) : List α → ℕ → α
  | [] => slots
  | a :: items => ringWrites n (Function.update slots (start % n) a) (start + 1) items

section RingWrites

variable {n : ℕ} (slots : ℕ → α) (start : ℕ)

theorem ringWrites_concat (items : List α) (a : α) :
    ringWrites n slots start (items ++ [a]) =
      Function.update (ringWrites n slots start items) ((start + items.length) % n) a := by
  induction items generalizing slots start with
  | nil => rfl
  | cons b items ih =>
      rw [List.cons_append, ringWrites, ih, ringWrites, List.length_cons, Nat.add_right_comm,
        Nat.add_assoc]

/-- An item is in its slot as long as the ring has not come round to it again. -/
theorem ringWrites_getElem (items : List α) {k : ℕ} (hk : k < items.length)
    (hrecent : items.length ≤ k + n) :
    ringWrites n slots start items ((start + k) % n) = items[k] := by
  induction items using List.reverseRecOn with
  | nil => cases hk
  | append_singleton items a ih =>
      rw [List.length_append, List.length_singleton] at hk hrecent
      rw [ringWrites_concat]
      rcases Nat.lt_or_eq_of_le (Nat.lt_succ_iff.mp hk) with hlt | rfl
      · have hne : (start + k) % n ≠ (start + items.length) % n := by
          intro heq
          have hsame := RingIndex.eq_of_mod_eq (by omega) (by omega) heq
          omega
        rw [Function.update_of_ne hne, ih hlt (by omega), List.getElem_append_left hlt]
      · simp

theorem ringWrites_of_le (items : List α) {j : ℕ} (hj : start + items.length ≤ j) (hn : j < n) :
    ringWrites n slots start items j = slots j := by
  induction items using List.reverseRecOn with
  | nil => rfl
  | append_singleton items a ih =>
      rw [List.length_append, List.length_singleton] at hj
      have hne : j ≠ (start + items.length) % n := by
        rw [Nat.mod_eq_of_lt (by omega)]
        omega
      rw [ringWrites_concat, Function.update_of_ne hne, ih (by omega)]

theorem map_ringWrites {items : List α} {m : ℕ} (hm : m ≤ items.length) (hn : m ≤ n) :
    (List.range m).map (fun i =>
        ringWrites n slots start items ((start + (items.length - m) + i) % n)) =
      items.drop (items.length - m) := by
  apply List.ext_getElem
  · rw [List.length_map, List.length_range, List.length_drop]
    omega
  · intro i hi _
    rw [List.length_map, List.length_range] at hi
    rw [List.getElem_map, List.getElem_range, List.getElem_drop, Nat.add_assoc,
      ringWrites_getElem slots start items (by omega) (by omega)]

end RingWrites

end Shinigami
