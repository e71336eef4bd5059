import Mathlib.Data.Finmap
import Shinigami.Foundations.LinearProbing

/-!
# Finite maps in a probing table

The entries of a probing table carry a key and a value. `Models t n home key
value d` says that the table holds the bindings of the finite map `d`, each key
in one slot only, and that it is unbroken. Searching is then the lookup of `d`
(`Models.lookup_eq_search`), and writing an entry or a tombstone is the insertion
or the erasure of its key (`Models.insert`, `Models.delete`).

A walk does not compare keys directly but applies a test; what is needed of the
test is that it decides equality with the wanted key on the entries of the table.
-/

namespace Shinigami

namespace LinearProbing

/-- The table holds the bindings of `d`, each key once. -/
structure Models {α κ β : Type*} [DecidableEq κ] (t : ℕ → Slot α) (n : ℕ)
    (home : α → ℕ) (key : α → κ) (value : α → β) (d : Finmap fun _ : κ => β) :
    Prop where
  unbroken : Unbroken t n home
  distinct : ∀ i < n, ∀ j < n, ∀ a b, t i = .full a → t j = .full b →
    key a = key b → i = j
  lookup : ∀ k v, d.lookup k = some v ↔
    ∃ idx < n, ∃ a, t idx = .full a ∧ key a = k ∧ value a = v

/-- On the entries of the table, and in the right place, the test looks for the
key `k`. -/
structure Tests {α κ : Type*} (t : ℕ → Slot α) (n : ℕ) (home : α → ℕ)
    (key : α → κ) (pos : ℕ) (test : α → Bool) (k : κ) : Prop where
  home_eq : ∀ a, test a = true → home a = pos
  iff : ∀ idx < n, ∀ a, t idx = .full a → (test a = true ↔ key a = k)

section Models

variable {α κ β : Type*} [DecidableEq κ] {t : ℕ → Slot α} {n : ℕ}
  {home : α → ℕ} {key key' : α → κ} {value : α → β} {d : Finmap fun _ : κ => β}

theorem models_empty : Models (fun _ => .empty) n home key value ∅ := by
  refine ⟨unbroken_empty n home, ?_, ?_⟩
  · intro i _ j _ a b ha
    cases ha
  · intro k v
    simp

theorem Models.congr (h : Models t n home key value d)
    (hkey : ∀ idx < n, ∀ a, t idx = .full a → key' a = key a) :
    Models t n home key' value d := by
  refine ⟨h.unbroken, ?_, ?_⟩
  · intro i hi j hj a b ha hb heq
    rw [hkey i hi a ha, hkey j hj b hb] at heq
    exact h.distinct i hi j hj a b ha hb heq
  · intro k v
    rw [h.lookup]
    refine exists_congr fun idx => and_congr_right fun hidx => ?_
    refine exists_congr fun a => and_congr_right fun ha => ?_
    rw [hkey idx hidx a ha]

variable {pos : ℕ} {test : α → Bool} {k : κ}

theorem Models.search_eq_some_iff (h : Models t n home key value d) (hn : 0 < n)
    (htest : Tests t n home key pos test k) {idx : ℕ} :
    search t n pos test n 0 = some idx ↔
      idx < n ∧ ∃ a, t idx = .full a ∧ key a = k := by
  have huniq : ∀ i < n, ∀ j < n, ∀ a b, t i = .full a → t j = .full b →
      test a = true → test b = true → i = j := by
    intro i hi j hj a b ha hb hta htb
    have hka := (htest.iff i hi a ha).mp hta
    have hkb := (htest.iff j hj b hb).mp htb
    exact h.distinct i hi j hj a b ha hb (hka.trans hkb.symm)
  rw [h.unbroken.search_eq_some_iff hn htest.home_eq huniq]
  refine and_congr_right fun hidx => ?_
  exact exists_congr fun a => and_congr_right fun ha => htest.iff idx hidx a ha

theorem Models.lookup_eq_search (h : Models t n home key value d) (hn : 0 < n)
    (htest : Tests t n home key pos test k) :
    d.lookup k = (search t n pos test n 0).bind
      fun idx => (t idx).occupant.map value := by
  refine Option.ext fun v => ?_
  rw [h.lookup]
  constructor
  · rintro ⟨idx, hidx, a, ha, hk, rfl⟩
    rw [(h.search_eq_some_iff hn htest).mpr ⟨hidx, a, ha, hk⟩]
    simp [ha, Slot.occupant]
  · intro hv
    obtain ⟨idx, hsearch, hv⟩ := Option.bind_eq_some_iff.mp hv
    obtain ⟨hidx, a, ha, hk⟩ := (h.search_eq_some_iff hn htest).mp hsearch
    obtain rfl : value a = v := by simpa [ha, Slot.occupant] using hv
    exact ⟨idx, hidx, a, ha, hk, rfl⟩

theorem Models.lookup_eq_none_of_place (h : Models t n home key value d)
    (htest : Tests t n home key pos test k) {idx : ℕ}
    (hplace : place t n pos test n 0 none = .slot idx) : d.lookup k = none := by
  refine Option.eq_none_iff_forall_ne_some.mpr fun v hv => ?_
  obtain ⟨j, hj, a, ha, hk, -⟩ := (h.lookup k v).mp hv
  have hfalse := h.unbroken.test_eq_false_of_place htest.home_eq hplace j hj a ha
  rw [(htest.iff j hj a ha).mpr hk] at hfalse
  cases hfalse

theorem Models.insert (h : Models t n home key value d) {a : α} {e : ℕ}
    (hn : 0 < n) (hclear : Clear t n (home a) e)
    (hfree : (t (probe n (home a) e)).occupant = none)
    (hfresh : d.lookup (key a) = none) :
    Models (Function.update t (probe n (home a) e) (.full a)) n home key value
      (d.insert (key a) (value a)) := by
  have hslot : ∀ idx b, t idx = .full b → idx ≠ probe n (home a) e := by
    rintro idx b hb rfl
    simp [hb, Slot.occupant] at hfree
  have hkey : ∀ idx < n, ∀ b, t idx = .full b → key b ≠ key a := by
    intro idx hidx b hb hk
    rw [(h.lookup _ _).mpr ⟨idx, hidx, b, hb, hk, rfl⟩] at hfresh
    cases hfresh
  refine ⟨h.unbroken.insert hn hclear, ?_, ?_⟩
  · intro i hi j hj b c hb hc heq
    rcases update_full_iff.mp hb with ⟨rfl, rfl⟩ | ⟨-, hb⟩ <;>
      rcases update_full_iff.mp hc with ⟨rfl, rfl⟩ | ⟨-, hc⟩
    · rfl
    · exact absurd heq.symm (hkey j hj c hc)
    · exact absurd heq (hkey i hi b hb)
    · exact h.distinct i hi j hj b c hb hc heq
  · intro k v
    by_cases hk : k = key a
    · rw [hk, Finmap.lookup_insert, Option.some.injEq]
      constructor
      · rintro rfl
        exact ⟨_, probe_lt hn e, a, Function.update_self .., rfl, rfl⟩
      · rintro ⟨idx, hidx, b, hb, hkb, rfl⟩
        rcases update_full_iff.mp hb with ⟨-, rfl⟩ | ⟨-, hb⟩
        · rfl
        · exact absurd hkb (hkey idx hidx b hb)
    · rw [Finmap.lookup_insert_of_ne _ hk, h.lookup]
      constructor
      · rintro ⟨idx, hidx, b, hb, hrest⟩
        exact ⟨idx, hidx, b, update_full_iff.mpr (.inr ⟨hslot idx b hb, hb⟩), hrest⟩
      · rintro ⟨idx, hidx, b, hb, hkb, hv⟩
        rcases update_full_iff.mp hb with ⟨-, rfl⟩ | ⟨-, hb⟩
        · exact absurd hkb.symm hk
        · exact ⟨idx, hidx, b, hb, hkb, hv⟩

theorem Models.delete (h : Models t n home key value d) {idx : ℕ} {a : α}
    (hidx : idx < n) (ha : t idx = .full a) :
    Models (Function.update t idx .tombstone) n home key value
      (d.erase (key a)) := by
  refine ⟨h.unbroken.delete idx, ?_, ?_⟩
  · intro i hi j hj b c hb hc heq
    exact h.distinct i hi j hj b c (update_tombstone_iff.mp hb).2
      (update_tombstone_iff.mp hc).2 heq
  · intro k v
    by_cases hk : k = key a
    · rw [hk, Finmap.lookup_erase]
      constructor
      · intro hv
        cases hv
      · rintro ⟨j, hj, b, hb, hkb, -⟩
        obtain ⟨hne, hb⟩ := update_tombstone_iff.mp hb
        exact absurd (h.distinct j hj idx hidx b a hb ha hkb) hne
    · rw [Finmap.lookup_erase_ne hk, h.lookup]
      constructor
      · rintro ⟨j, hj, b, hb, hkb, hv⟩
        refine ⟨j, hj, b, update_tombstone_iff.mpr ⟨?_, hb⟩, hkb, hv⟩
        rintro rfl
        rw [ha] at hb
        obtain rfl := Slot.full.inj hb
        exact hk hkb.symm
      · rintro ⟨j, hj, b, hb, hrest⟩
        exact ⟨j, hj, b, (update_tombstone_iff.mp hb).2, hrest⟩

theorem Models.card_occupied (h : Models t n home key value d) :
    (occupied t n).card = d.keys.card := by
  have hkeys : ((entries t n).map key).toFinset = d.keys := by
    ext k
    rw [List.mem_toFinset, List.mem_map, Finmap.mem_keys, Finmap.mem_iff]
    simp only [mem_entries, h.lookup]
    constructor
    · rintro ⟨a, ⟨idx, hidx, ha⟩, rfl⟩
      exact ⟨value a, idx, hidx, a, ha, rfl, rfl⟩
    · rintro ⟨-, idx, hidx, a, ha, rfl, -⟩
      exact ⟨a, ⟨idx, hidx, ha⟩, rfl⟩
  rw [← hkeys, List.toFinset_card_of_nodup (nodup_map_entries h.distinct),
    List.length_map, length_entries]

theorem Models.mem_entries_iff (h : Models t n home key value d) {v : β} :
    v ∈ (entries t n).map value ↔ ∃ k, d.lookup k = some v := by
  simp only [List.mem_map, mem_entries, h.lookup]
  constructor
  · rintro ⟨a, ⟨idx, hidx, ha⟩, rfl⟩
    exact ⟨key a, idx, hidx, a, ha, rfl, rfl⟩
  · rintro ⟨k, idx, hidx, a, ha, -, rfl⟩
    exact ⟨a, ⟨idx, hidx, ha⟩, rfl⟩

end Models

end LinearProbing

end Shinigami
