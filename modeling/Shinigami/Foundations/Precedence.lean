import Mathlib.Data.List.Basic

/-!
# Order of occurrences in a list

`PrecededBy l y x` says that every occurrence of `y` in `l` has an `x` somewhere
in front of it, and `FollowedBy l y x` that it has one somewhere behind it. The
two are mirror images. Both are stated for every occurrence, so that lists with
repetitions are covered; an element that does not occur is preceded and followed
by anything.
-/

namespace Shinigami

variable {α β : Type*}

/-- Every `y` in the list stands behind an `x`. -/
def PrecededBy (l : List α) (y x : α) : Prop :=
  ∀ pre post, l = pre ++ y :: post → x ∈ pre

/-- Every `y` in the list stands in front of an `x`. -/
def FollowedBy (l : List α) (y x : α) : Prop :=
  ∀ pre post, l = pre ++ y :: post → x ∈ post

theorem precededBy_reverse {l : List α} {y x : α} :
    PrecededBy l.reverse y x ↔ FollowedBy l y x := by
  constructor
  · intro h pre post hl
    have hrev : l.reverse = post.reverse ++ y :: pre.reverse := by simp [hl]
    simpa using h _ _ hrev
  · intro h pre post hl
    have hrev : l = post.reverse ++ y :: pre.reverse := by
      rw [← List.reverse_reverse l, hl]
      simp
    simpa using h _ _ hrev

theorem followedBy_pair {y x : α} (hne : x ≠ y) : FollowedBy [y, x] y x := by
  rintro (- | ⟨z, - | ⟨w, pre⟩⟩) post hl
  · simp only [List.nil_append, List.cons.injEq, true_and] at hl
    rw [← hl]
    exact List.mem_singleton_self x
  · simp only [List.cons_append, List.nil_append, List.cons.injEq] at hl
    exact absurd hl.2.1 hne
  · simp at hl

theorem precededBy_append {l l' : List α} {y x : α} (hy : y ∉ l') :
    PrecededBy (l ++ l') y x ↔ PrecededBy l y x := by
  constructor
  · intro h pre post hl
    exact h pre (post ++ l') (by simp [hl])
  · intro h pre post hl
    rcases List.append_eq_append_iff.mp hl with ⟨mid, rfl, hmid⟩ | ⟨mid, hpre, hmid⟩
    · exact absurd (hmid ▸ by simp) hy
    · cases mid with
      | nil =>
          rw [List.nil_append] at hmid
          exact absurd (hmid ▸ List.mem_cons_self) hy
      | cons z mid =>
          rw [List.cons_append, List.cons.injEq] at hmid
          rw [← hmid.1] at hpre
          exact h pre mid hpre

/-- Order is kept by a partial map that takes only `x` to `x'` and only `y` to
`y'`. -/
theorem precededBy_filterMap {f : α → Option β} {l : List α} {y x : α} {y' x' : β}
    (hx : ∀ a ∈ l, f a = some x' ↔ a = x) (hy : ∀ a ∈ l, f a = some y' ↔ a = y) :
    PrecededBy (l.filterMap f) y' x' ↔ PrecededBy l y x := by
  constructor
  · intro h pre post hl
    have hyl : y ∈ l := by simp [hl]
    have hmap : l.filterMap f = pre.filterMap f ++ y' :: post.filterMap f := by
      rw [hl, List.filterMap_append, List.filterMap_cons_some ((hy y hyl).mpr rfl)]
    obtain ⟨a, ha, hfa⟩ := List.mem_filterMap.mp (h _ _ hmap)
    have hal : a ∈ l := by simp [hl, ha]
    rwa [(hx a hal).mp hfa] at ha
  · intro h pre' post' hl
    obtain ⟨pre, rest, rfl, hpre, hrest⟩ := List.filterMap_eq_append_iff.mp hl
    obtain ⟨skip, a, post, rfl, hskip, hfa, -⟩ := List.filterMap_eq_cons_iff.mp hrest
    have ha : a = y := (hy a (by simp)).mp hfa
    have hmem := h (pre ++ skip) post (by simp [ha])
    rw [← hpre, List.mem_filterMap]
    rcases List.mem_append.mp hmem with hold | hnew
    · exact ⟨x, hold, (hx x (by simp [hold])).mpr rfl⟩
    · have hnone := hskip x hnew
      rw [(hx x (by simp [hnew])).mpr rfl] at hnone
      cases hnone

theorem followedBy_iff_getElem? {l : List α} {y x : α} :
    FollowedBy l y x ↔
      ∀ k : ℕ, l[k]? = some y → ∃ m : ℕ, k < m ∧ l[m]? = some x := by
  constructor
  · intro h k hk
    obtain ⟨hlt, hget⟩ := List.getElem?_eq_some_iff.mp hk
    have hsplit : l = l.take k ++ y :: l.drop (k + 1) := by
      rw [← hget, ← List.drop_eq_getElem_cons hlt, List.take_append_drop]
    obtain ⟨m, hm, hx⟩ := List.mem_iff_getElem.mp (h _ _ hsplit)
    refine ⟨k + 1 + m, by omega, ?_⟩
    rw [← List.getElem?_drop, List.getElem?_eq_getElem hm, hx]
  · intro h pre post hl
    obtain ⟨m, hm, hx⟩ := h pre.length (by simp [hl])
    obtain ⟨k, rfl⟩ : ∃ k, m = pre.length + (k + 1) := ⟨m - pre.length - 1, by omega⟩
    rw [hl, List.getElem?_append_right (by omega), Nat.add_sub_cancel_left,
      List.getElem?_cons_succ] at hx
    exact List.mem_of_getElem? hx

/-- In a list of different elements the order is the one of the positions. -/
theorem followedBy_map_range {g : ℕ → α} {n i j : ℕ} (hi : i < n) (hj : j < n)
    (hg : ∀ i < n, ∀ j < n, g i = g j → i = j) :
    FollowedBy ((List.range n).map g) (g j) (g i) ↔ j < i := by
  have hget : ∀ (k : ℕ) (a : α), ((List.range n).map g)[k]? = some a ↔ k < n ∧ g k = a := by
    intro k a
    rcases Nat.lt_or_ge k n with hk | hk
    · simp [hk]
    · simp [Nat.not_lt.mpr hk]
  simp only [followedBy_iff_getElem?, hget]
  constructor
  · intro h
    obtain ⟨m, hm, hmn, heq⟩ := h j ⟨hj, rfl⟩
    rwa [hg m hmn i hi heq] at hm
  · rintro hlt k ⟨hk, heq⟩
    rw [hg k hk j hj heq]
    exact ⟨i, hlt, hi, rfl⟩

end Shinigami
