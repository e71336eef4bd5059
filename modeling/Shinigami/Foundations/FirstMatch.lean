import Mathlib.Data.List.Basic
import Mathlib.Data.List.Induction

/-!
# Tables searched for the first match

A table is a list, and an entry is looked up as the first one that passes a test
`q`. A program that looks up an index and then changes the entry there is read
here through `find?`: the change shows under `q` (`find?_modify_self`) and under
no test `p` that excludes `q` (`find?_modify_of_disjoint`). A table whose entries
carry their index is read by `filter_index_eq`.

A table of key and value pairs may hold several values under one key;
`valuesOf` lists them, and deletions of the first entry are read through it.
-/

namespace Shinigami

section FirstMatch

variable {α : Type*} {p q : α → Bool} {f : α → α} {l : List α} {i : ℕ}

theorem find?_eq_none_of_findIdx? (h : l.findIdx? q = none) : l.find? q = none := by
  rw [List.findIdx?_eq_none_iff] at h
  simpa using h

theorem find?_eq_some_getD (h : l.findIdx? q = some i) (d : α) :
    l.find? q = some (l.getD i d) := by
  induction l generalizing i with
  | nil => simp at h
  | cons a l ih =>
      rw [List.findIdx?_cons] at h
      rw [List.find?_cons]
      cases hq : q a with
      | true =>
          have hi : i = 0 := by simpa [hq] using h.symm
          simp [hi]
      | false =>
          obtain ⟨j, hj, rfl⟩ : ∃ j, l.findIdx? q = some j ∧ j + 1 = i := by
            simpa [hq] using h
          simpa using ih hj

theorem find?_modify_self (h : l.findIdx? q = some i) (hf : ∀ a, q (f a) = q a) :
    (l.modify i f).find? q = (l.find? q).map f := by
  induction l generalizing i with
  | nil => simp at h
  | cons a l ih =>
      rw [List.findIdx?_cons] at h
      rw [List.find?_cons]
      cases hq : q a with
      | true =>
          have hi : i = 0 := by simpa [hq] using h.symm
          simp [hi, hf, hq]
      | false =>
          obtain ⟨j, hj, rfl⟩ : ∃ j, l.findIdx? q = some j ∧ j + 1 = i := by
            simpa [hq] using h
          simpa [List.find?_cons, hq] using ih hj

theorem find?_modify_of_disjoint (h : l.findIdx? q = some i) (hf : ∀ a, p (f a) = p a)
    (hpq : ∀ a, q a = true → p a = false) : (l.modify i f).find? p = l.find? p := by
  induction l generalizing i with
  | nil => simp at h
  | cons a l ih =>
      rw [List.findIdx?_cons] at h
      cases hq : q a with
      | true =>
          have hi : i = 0 := by simpa [hq] using h.symm
          have hp := hpq a hq
          simp [hi, hf, hp]
      | false =>
          obtain ⟨j, hj, rfl⟩ : ∃ j, l.findIdx? q = some j ∧ j + 1 = i := by
            simpa [hq] using h
          simp only [List.modify_succ_cons, List.find?_cons, ih hj]

/-- A change of every entry that the test does not see changes the first match. -/
theorem find?_map_of_congr (hf : ∀ a, q (f a) = q a) :
    (l.map f).find? q = (l.find? q).map f := by
  have hcomp : q ∘ f = q := funext hf
  rw [List.find?_map, hcomp]

theorem find?_mapIdx_of_congr {g : ℕ → α → α} (hg : ∀ i a, q (g i a) = q a) :
    (l.mapIdx g).find? q = (l.findIdx? q).bind fun i => l[i]?.map (g i) := by
  induction l generalizing g with
  | nil => rfl
  | cons a l ih =>
      rw [List.mapIdx_cons, List.find?_cons, hg, List.findIdx?_cons]
      cases hq : q a with
      | true => simp
      | false =>
          rw [ih fun i => hg (i + 1)]
          cases l.findIdx? q <;> simp

theorem modify_length_append (l : List α) (a : α) (f : α → α) :
    (l ++ [a]).modify l.length f = l ++ [f a] := by
  induction l with
  | nil => simp
  | cons b l ih => simp [ih]

theorem find?_append_of_none (h : l.find? p = none) (a : α) :
    (l ++ [a]).find? p = if p a then some a else none := by
  cases hp : p a with
  | true => simp [List.find?_append, h, hp]
  | false => simp [List.find?_append, h, hp]

/-- In a table whose entries carry their own index, the entries with an index are the
one that stands there. -/
theorem filter_index_eq {key : α → ℕ} (h : ∀ j a, l[j]? = some a → key a = j) (i : ℕ) :
    l.filter (fun a => key a = i) = l[i]?.toList := by
  induction l using List.reverseRecOn with
  | nil => rfl
  | append_singleton l a ih =>
      have hinit : ∀ j b, l[j]? = some b → key b = j := by
        intro j b hb
        obtain ⟨hj, -⟩ := List.getElem?_eq_some_iff.mp hb
        exact h j b (by rw [List.getElem?_append_left hj, hb])
      have hlast : key a = l.length := h l.length a (by simp)
      rw [List.filter_append, ih hinit, List.filter_singleton, hlast]
      rcases Nat.lt_trichotomy i l.length with hlt | rfl | hgt
      · rw [List.getElem?_append_left hlt]
        simp [Nat.ne_of_gt hlt]
      · simp
      · rw [List.getElem?_eq_none (Nat.le_of_lt hgt),
          List.getElem?_eq_none (by rw [List.length_append, List.length_singleton]; omega)]
        simp [Nat.ne_of_lt hgt]

end FirstMatch

section Keyed

variable {κ β : Type*} [DecidableEq κ]

def valuesOf (l : List (κ × β)) (k : κ) : List β :=
  (l.filter fun p => p.1 = k).map Prod.snd

variable {l : List (κ × β)} {k k' : κ}

theorem valuesOf_cons (p : κ × β) (l : List (κ × β)) (k : κ) :
    valuesOf (p :: l) k = if p.1 = k then p.2 :: valuesOf l k else valuesOf l k := by
  unfold valuesOf
  rw [List.filter_cons]
  by_cases h : p.1 = k <;> simp [h]

theorem valuesOf_append_self (l : List (κ × β)) (k : κ) (b : β) :
    valuesOf (l ++ [(k, b)]) k = valuesOf l k ++ [b] := by
  simp [valuesOf, List.filter_append]

theorem valuesOf_append_of_ne (l : List (κ × β)) (h : k' ≠ k) (b : β) :
    valuesOf (l ++ [(k', b)]) k = valuesOf l k := by
  simp [valuesOf, List.filter_append, h]

theorem valuesOf_eraseP_self (l : List (κ × β)) (k : κ) :
    valuesOf (l.eraseP fun p => p.1 = k) k = (valuesOf l k).tail := by
  induction l with
  | nil => rfl
  | cons p l ih =>
      by_cases h : p.1 = k
      · rw [List.eraseP_cons_of_pos (by simpa using h), valuesOf_cons, if_pos h,
          List.tail_cons]
      · rw [List.eraseP_cons_of_neg (by simpa using h), valuesOf_cons, if_neg h, ih,
          valuesOf_cons, if_neg h]

theorem valuesOf_eraseP_of_ne (l : List (κ × β)) (h : k' ≠ k) :
    valuesOf (l.eraseP fun p => p.1 = k') k = valuesOf l k := by
  induction l with
  | nil => rfl
  | cons p l ih =>
      by_cases hp : p.1 = k'
      · rw [List.eraseP_cons_of_pos (by simpa using hp), valuesOf_cons,
          if_neg (by rw [hp]; exact h)]
      · rw [List.eraseP_cons_of_neg (by simpa using hp), valuesOf_cons, valuesOf_cons, ih]

end Keyed

end Shinigami
