import Mathlib.Data.Nat.ModEq
import Mathlib.Data.List.Basic

/-!
# Positions in a ring

A ring of `n` slots is entered at ever growing positions, and position `k` lies
in slot `k % n`. Within a window of `n` positions the slot determines the
position (`eq_of_mod_eq`); the distance of two positions of a window is read off
their slots (`sub_eq_of_window`).
-/

namespace Shinigami

namespace RingIndex

variable {n a b : ℕ}

theorem eq_of_mod_eq (hle : a ≤ b) (hlt : b < a + n) (h : a % n = b % n) : a = b := by
  have hdvd : n ∣ b - a := (Nat.modEq_iff_dvd' hle).mp h
  have hzero : b - a = 0 := Nat.eq_zero_of_dvd_of_lt hdvd (by omega)
  omega

theorem mod_eq_iff_of_window (hle : a ≤ b) (hlt : b ≤ a + n) :
    a % n = b % n ↔ b = a ∨ b = a + n := by
  constructor
  · intro h
    rcases Nat.lt_or_ge b (a + n) with hlt' | hge
    · exact .inl (eq_of_mod_eq hle hlt' h).symm
    · exact .inr (le_antisymm hlt hge)
  · rintro (rfl | rfl)
    · rfl
    · exact (Nat.add_mod_right a n).symm

theorem sub_eq_of_window (hle : a ≤ b) (hlt : b < a + n) :
    b - a = if a % n ≤ b % n then b % n - a % n else n - a % n + b % n := by
  obtain ⟨d, rfl⟩ := Nat.exists_eq_add_of_le hle
  have ha : a % n < n := Nat.mod_lt _ (by omega)
  rcases Nat.lt_or_ge (a % n + d) n with hsmall | hlarge
  · have hmod : (a + d) % n = a % n + d := by
      rw [← Nat.mod_add_mod, Nat.mod_eq_of_lt hsmall]
    rw [hmod, if_pos (by omega)]
    omega
  · have hmod : (a + d) % n = a % n + d - n := by
      rw [← Nat.mod_add_mod, Nat.mod_eq_sub_mod hlarge, Nat.mod_eq_of_lt (by omega)]
    rw [hmod, if_neg (by omega)]
    omega

theorem exists_latest (hn : 0 < n) (h : a < b) :
    ∃ k, a ≤ k ∧ k < b ∧ b ≤ k + n ∧ k % n = a % n := by
  refine ⟨a + n * ((b - 1 - a) / n), Nat.le_add_right _ _, ?_, ?_,
    Nat.add_mul_mod_self_left a n _⟩
  · have := Nat.mul_div_le (b - 1 - a) n
    omega
  · have := Nat.lt_mul_div_succ (b - 1 - a) hn
    rw [Nat.mul_add, Nat.mul_one] at this
    omega

theorem succ_mod (a n : ℕ) : (a % n + 1) % n = (a + 1) % n := Nat.mod_add_mod a n 1

end RingIndex

theorem getElem?_of_prefix {α : Type*} {l l' : List α} (h : l <+: l') {k : ℕ} {a : α}
    (hget : l[k]? = some a) : l'[k]? = some a := by
  obtain ⟨rest, rfl⟩ := h
  rw [List.getElem?_append_left (List.getElem?_eq_some_iff.mp hget).1]
  exact hget

theorem prefix_concat_of_getElem? {α : Type*} {l l' : List α} {a : α} (h : l <+: l')
    (ha : l'[l.length]? = some a) : l ++ [a] <+: l' := by
  obtain ⟨rest, rfl⟩ := h
  cases rest with
  | nil => simp at ha
  | cons b rest =>
      have hb : b = a := by simpa using ha
      exact ⟨rest, by simp [hb]⟩

end Shinigami
