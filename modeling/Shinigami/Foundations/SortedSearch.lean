import Mathlib.Order.Bounds.Basic
import Mathlib.Order.Basic

/-!
# First match in a sorted table

In a strictly increasing list the first entry that passes a test is the least one
(`find?_eq_some_iff_isLeast`). `firstOrLast` falls back to the last entry where nothing
passes, and is monotone in the test.
-/

namespace Shinigami

section SortedSearch

variable {α : Type*} [LinearOrder α] {p q : α → Bool} {l : List α} {a b : α}

theorem find?_eq_some_iff_isLeast (hl : l.Pairwise (· < ·)) :
    l.find? p = some b ↔ IsLeast {a | a ∈ l ∧ p a} b := by
  induction l with
  | nil => exact iff_of_false (by simp) fun h => List.not_mem_nil h.1.1
  | cons x l ih =>
      obtain ⟨hfirst, hrest⟩ := List.pairwise_cons.mp hl
      rw [List.find?_cons]
      cases hp : p x with
      | true =>
          have hleast : IsLeast {a | a ∈ x :: l ∧ p a} x := by
            refine ⟨⟨List.mem_cons_self, hp⟩, fun a ha => ?_⟩
            rcases List.mem_cons.mp ha.1 with rfl | hmem
            · exact le_rfl
            · exact (hfirst a hmem).le
          constructor
          · rintro ⟨⟩
            exact hleast
          · intro hb
            exact congrArg some (hleast.unique hb)
      | false =>
          have hset : {a | a ∈ x :: l ∧ p a} = {a | a ∈ l ∧ p a} := by
            ext a
            refine ⟨fun ha => ⟨(List.mem_cons.mp ha.1).resolve_left ?_, ha.2⟩,
              fun ha => ⟨List.mem_cons_of_mem _ ha.1, ha.2⟩⟩
            rintro rfl
            exact Bool.false_ne_true (hp.symm.trans ha.2)
          rw [hset]
          exact ih hrest

theorem head?_eq_some_iff_isLeast (hl : l.Pairwise (· < ·)) :
    l.head? = some b ↔ IsLeast {a | a ∈ l} b := by
  have hfirst : l.find? (fun _ => true) = l.head? := by cases l <;> rfl
  rw [← hfirst, find?_eq_some_iff_isLeast hl]
  simp only [and_true]

theorem le_of_mem_getLast? (hl : l.Pairwise (· < ·)) (ha : a ∈ l) (hb : l.getLast? = some b) :
    a ≤ b := by
  obtain ⟨l', rfl⟩ := List.getLast?_eq_some_iff.mp hb
  rcases List.mem_append.mp ha with ha | ha
  · exact ((List.pairwise_append.mp hl).2.2 a ha b (List.mem_singleton_self b)).le
  · exact (List.mem_singleton.mp ha).le

def firstOrLast (p : α → Bool) (l : List α) : Option α := (l.find? p).or l.getLast?

theorem firstOrLast_eq_some_iff (hl : l.Pairwise (· < ·)) :
    firstOrLast p l = some b ↔
      b ∈ l ∧ (∀ a ∈ l, a < b → p a = false) ∧ (p b = true ∨ l.getLast? = some b) := by
  unfold firstOrLast
  cases hfind : l.find? p with
  | some c =>
      obtain ⟨⟨hc, hpc⟩, hleast⟩ := (find?_eq_some_iff_isLeast hl).mp hfind
      have hbefore : ∀ a ∈ l, a < c → p a = false := fun a ha hac =>
        Bool.eq_false_iff.mpr fun hpa => hac.not_ge (hleast ⟨ha, hpa⟩)
      rw [Option.some_or, Option.some.injEq]
      constructor
      · rintro rfl
        exact ⟨hc, hbefore, .inl hpc⟩
      · rintro ⟨hb, hfirst, hlast⟩
        have hbc : b ≤ c := le_of_not_gt fun hcb =>
          Bool.false_ne_true ((hfirst c hc hcb).symm.trans hpc)
        rcases hlast with hpb | hlast
        · exact le_antisymm (hleast ⟨hb, hpb⟩) hbc
        · exact le_antisymm (le_of_mem_getLast? hl hc hlast) hbc
  | none =>
      have hnone : ∀ a ∈ l, p a = false := fun a ha =>
        Bool.eq_false_iff.mpr (List.find?_eq_none.mp hfind a ha)
      rw [Option.none_or]
      constructor
      · intro hlast
        exact ⟨List.mem_of_getLast? hlast, fun a ha _ => hnone a ha, .inr hlast⟩
      · rintro ⟨hb, -, hpb | hlast⟩
        · exact absurd (hnone b hb) (ne_of_eq_of_ne hpb Bool.false_ne_true.symm)
        · exact hlast

theorem firstOrLast_mono (hl : l.Pairwise (· < ·)) (hpq : ∀ c ∈ l, p c = true → q c = true)
    (hp : firstOrLast p l = some a) (hq : firstOrLast q l = some b) : b ≤ a := by
  obtain ⟨ha, -, hpa⟩ := (firstOrLast_eq_some_iff hl).mp hp
  obtain ⟨hb, hbefore, -⟩ := (firstOrLast_eq_some_iff hl).mp hq
  rcases hpa with hpa | hlast
  · exact le_of_not_gt fun hab =>
      Bool.false_ne_true ((hbefore a ha hab).symm.trans (hpq a ha hpa))
  · exact le_of_mem_getLast? hl hb hlast

end SortedSearch

end Shinigami
