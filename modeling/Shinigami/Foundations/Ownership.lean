import Mathlib.Data.Finset.Basic

/-!
# Owned resources

A set of resources in use, and the resources that their owners hold. A resource that is
in use and has no owner has leaked: nobody will give it back. Taking, giving back and
handing over a resource leak nothing, and an owner that forgets one leaks just that one.
-/

namespace Shinigami

namespace Ownership

variable {α : Type*} [DecidableEq α] {used : Finset α} {owned : Multiset α} {a : α}

structure Sound (used : Finset α) (owned : Multiset α) : Prop where
  nodup : owned.Nodup
  used : ∀ a ∈ owned, a ∈ used

def leaked (used : Finset α) (owned : Multiset α) : Finset α := used \ owned.toFinset

theorem leaked_eq_empty_iff : leaked used owned = ∅ ↔ ∀ a ∈ used, a ∈ owned := by
  simp [leaked, Finset.sdiff_eq_empty_iff_subset, Finset.subset_iff]

omit [DecidableEq α] in
theorem sound_empty : Sound (∅ : Finset α) 0 := ⟨Multiset.nodup_zero, by simp⟩

theorem Sound.acquire (h : Sound used owned) (ha : a ∉ used) :
    Sound (insert a used) (a ::ₘ owned) where
  nodup := Multiset.nodup_cons.mpr ⟨fun hmem => ha (h.used a hmem), h.nodup⟩
  used b hb := by
    rcases Multiset.mem_cons.mp hb with rfl | hb
    · exact Finset.mem_insert_self b used
    · exact Finset.mem_insert_of_mem (h.used b hb)

theorem leaked_acquire (ha : a ∉ used) :
    leaked (insert a used) (a ::ₘ owned) = leaked used owned := by
  ext b
  have hb : b ∈ used → b ≠ a := fun hb heq => ha (heq ▸ hb)
  simp only [leaked, Finset.mem_sdiff, Finset.mem_insert, Multiset.mem_toFinset,
    Multiset.mem_cons]
  tauto

theorem Sound.release (h : Sound used (a ::ₘ owned)) : Sound (used.erase a) owned where
  nodup := (Multiset.nodup_cons.mp h.nodup).2
  used b hb := by
    refine Finset.mem_erase.mpr ⟨?_, h.used b (Multiset.mem_cons_of_mem hb)⟩
    rintro rfl
    exact (Multiset.nodup_cons.mp h.nodup).1 hb

theorem leaked_release (used : Finset α) (owned : Multiset α) (a : α) :
    leaked (used.erase a) owned = leaked used (a ::ₘ owned) := by
  ext b
  simp only [leaked, Finset.mem_sdiff, Finset.mem_erase, Multiset.mem_toFinset,
    Multiset.mem_cons]
  tauto

omit [DecidableEq α] in
theorem Sound.forget (h : Sound used (a ::ₘ owned)) : Sound used owned where
  nodup := (Multiset.nodup_cons.mp h.nodup).2
  used b hb := h.used b (Multiset.mem_cons_of_mem hb)

theorem leaked_forget (h : Sound used (a ::ₘ owned)) :
    leaked used owned = insert a (leaked used (a ::ₘ owned)) := by
  have hmem := h.used a (Multiset.mem_cons_self a owned)
  have hnot := (Multiset.nodup_cons.mp h.nodup).1
  ext b
  simp only [leaked, Finset.mem_sdiff, Finset.mem_insert, Multiset.mem_toFinset,
    Multiset.mem_cons]
  by_cases hb : b = a
  · simp [hb, hmem, hnot]
  · simp [hb]

end Ownership

end Shinigami
