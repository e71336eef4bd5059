import Mathlib.Data.Finset.Card
import Mathlib.Data.Finset.Range
import Mathlib.Data.Nat.Count
import Mathlib.Logic.Function.Basic

/-!
# Linear probing with tombstones

An open-addressing table of `n` slots. An entry `a` has a home position
`home a`, and a walk from the home position inspects the slots
`probe n (home a) 0`, `probe n (home a) 1`, … until it meets an empty slot.

The table is `Unbroken` when no entry lies behind an empty slot of its own walk.
Under this invariant a walk that stops at an empty slot has seen every entry it
could be looking for (`search_eq_none_iff`). Deleting an entry leaves a
tombstone, which keeps all walks going (`Unbroken.delete`); inserting uses the
first tombstone of the walk, or the empty slot that ends it, and both lie in
front of every empty slot of the walk (`Unbroken.insert`).
-/

namespace Shinigami

namespace LinearProbing

inductive Slot (α : Type*)
  | empty
  | tombstone
  | full (a : α)

def Slot.occupant {α : Type*} : Slot α → Option α
  | .empty => none
  | .tombstone => none
  | .full a => some a

@[simp] theorem Slot.occupant_eq_some_iff {α : Type*} {s : Slot α} {a : α} :
    s.occupant = some a ↔ s = .full a := by
  cases s <;> simp [Slot.occupant]

/-- The slot that a walk from `home` inspects at step `i`. -/
def probe (n home i : ℕ) : ℕ := (home + i) % n

/-- The walk that looks for an entry passing the test: the slot it stands in.
The arguments are the steps left and the current step. -/
def search {α : Type*} (t : ℕ → Slot α) (n home : ℕ) (test : α → Bool) :
    ℕ → ℕ → Option ℕ
  | 0, _ => none
  | fuel + 1, i =>
      match t (probe n home i) with
      | .empty => none
      | .tombstone => search t n home test fuel (i + 1)
      | .full a =>
          if test a then some (probe n home i)
          else search t n home test fuel (i + 1)

inductive Placement
  | slot (idx : ℕ)
  | taken
  | noRoom

/-- The walk that looks for a place to insert: it remembers the first tombstone
and ends at an empty slot, or at an entry passing the test. -/
def place {α : Type*} (t : ℕ → Slot α) (n home : ℕ) (test : α → Bool) :
    ℕ → ℕ → Option ℕ → Placement
  | 0, _, _ => .noRoom
  | fuel + 1, i, tomb =>
      match t (probe n home i) with
      | .empty => .slot (tomb.getD (probe n home i))
      | .tombstone =>
          place t n home test fuel (i + 1) (tomb.or (some (probe n home i)))
      | .full a =>
          if test a then .taken else place t n home test fuel (i + 1) tomb

/-- No empty slot in the first `d` steps of the walk from `home`. -/
def Clear {α : Type*} (t : ℕ → Slot α) (n home d : ℕ) : Prop :=
  ∀ e < d, t (probe n home e) ≠ .empty

def Unbroken {α : Type*} (t : ℕ → Slot α) (n : ℕ) (home : α → ℕ) : Prop :=
  ∀ idx < n, ∀ a, t idx = .full a →
    ∃ d < n, probe n (home a) d = idx ∧ Clear t n (home a) d

def occupied {α : Type*} (t : ℕ → Slot α) (n : ℕ) : Finset ℕ :=
  (Finset.range n).filter fun idx => (t idx).occupant.isSome

/-- The entries of the table in the order of the slots. -/
def entries {α : Type*} (t : ℕ → Slot α) (n : ℕ) : List α :=
  (List.range n).filterMap fun idx => (t idx).occupant

section Walk

variable {α : Type*} {t : ℕ → Slot α} {n home : ℕ} {test : α → Bool}

theorem probe_lt (hn : 0 < n) (i : ℕ) : probe n home i < n :=
  Nat.mod_lt _ hn

theorem Clear.succ {i : ℕ} (h : Clear t n home i)
    (hi : t (probe n home i) ≠ .empty) : Clear t n home (i + 1) := by
  intro e he
  rcases Nat.lt_succ_iff_lt_or_eq.mp he with hlt | rfl
  · exact h e hlt
  · exact hi

theorem search_eq_some {fuel i idx : ℕ}
    (h : search t n home test fuel i = some idx) :
    ∃ d, probe n home d = idx ∧ ∃ a, t idx = .full a ∧ test a = true := by
  induction fuel generalizing i with
  | zero => simp [search] at h
  | succ fuel ih =>
      rw [search] at h
      split at h
      · cases h
      · exact ih h
      · next a ha =>
          split at h
          · next htest =>
              obtain rfl := Option.some.inj h
              exact ⟨i, rfl, a, ha, htest⟩
          · exact ih h

/-- A search that returns nothing has passed every entry in front of the first
empty slot of its walk. -/
theorem test_eq_false_of_search {fuel i d : ℕ} {a : α}
    (h : search t n home test fuel i = none) (hid : i ≤ d) (hd : d < i + fuel)
    (hclear : Clear t n home d) (ha : t (probe n home d) = .full a) :
    test a = false := by
  induction fuel generalizing i with
  | zero => omega
  | succ fuel ih =>
      rw [search] at h
      rcases Nat.eq_or_lt_of_le hid with rfl | hlt
      · cases htest : test a with
        | false => rfl
        | true => simp [ha, htest] at h
      · have hnext : search t n home test fuel (i + 1) = none := by
          split at h
          · next hempty => exact absurd hempty (hclear i hlt)
          · exact h
          · split at h
            · cases h
            · exact h
        exact ih hnext hlt (by omega)

/-- The walk to insert, started with the first tombstone it has met so far. -/
theorem place_eq_slot {fuel i idx : ℕ} {tomb : Option ℕ}
    (h : place t n home test fuel i tomb = .slot idx)
    (hclear : Clear t n home i)
    (htomb : ∀ j ∈ tomb, t j = .tombstone ∧
      ∃ d, probe n home d = j ∧ Clear t n home d)
    (htest : ∀ d < i, ∀ a, t (probe n home d) = .full a → test a = false) :
    (t idx).occupant = none ∧
      (∃ d, probe n home d = idx ∧ Clear t n home d) ∧
      ∃ d, t (probe n home d) = .empty ∧
        ∀ e < d, ∀ a, t (probe n home e) = .full a → test a = false := by
  induction fuel generalizing i tomb with
  | zero => simp [place] at h
  | succ fuel ih =>
      rw [place] at h
      split at h
      · next hempty =>
          obtain rfl := Placement.slot.inj h
          refine ⟨?_, ?_, i, hempty, htest⟩
          · cases tomb with
            | none => simp [hempty, Slot.occupant]
            | some j => simp [(htomb j rfl).1, Slot.occupant]
          · cases tomb with
            | none => exact ⟨i, rfl, hclear⟩
            | some j => exact (htomb j rfl).2
      · next hdel =>
          refine ih h (hclear.succ (by simp [hdel])) ?_ ?_
          · intro j hj
            cases tomb with
            | none =>
                obtain rfl : probe n home i = j := by simpa using hj
                exact ⟨hdel, i, rfl, hclear⟩
            | some j' =>
                obtain rfl : j' = j := by simpa using hj
                exact htomb j' rfl
          · intro d hd a ha
            rcases Nat.lt_succ_iff_lt_or_eq.mp hd with hlt | rfl
            · exact htest d hlt a ha
            · rw [hdel] at ha
              cases ha
      · next b hb =>
          split at h
          · cases h
          · next hfail =>
              apply ih h (hclear.succ (by simp [hb])) htomb
              intro d hd a ha
              rcases Nat.lt_succ_iff_lt_or_eq.mp hd with hlt | rfl
              · exact htest d hlt a ha
              · rw [hb] at ha
                obtain rfl := Slot.full.inj ha
                simpa using hfail

/-- When no entry of the walk passes the test, the walk to insert fails exactly
when it meets no empty slot: tombstones alone are no room. -/
theorem place_eq_noRoom_iff {fuel i : ℕ} {tomb : Option ℕ}
    (htest : ∀ e a, t (probe n home e) = .full a → test a = false) :
    place t n home test fuel i tomb = .noRoom ↔
      ∀ e < fuel, t (probe n home (i + e)) ≠ .empty := by
  induction fuel generalizing i tomb with
  | zero => simp [place]
  | succ fuel ih =>
      have hshift : (∀ e < fuel + 1, t (probe n home (i + e)) ≠ .empty) ↔
          t (probe n home i) ≠ .empty ∧
            ∀ e < fuel, t (probe n home (i + 1 + e)) ≠ .empty := by
        rw [Nat.forall_lt_succ_left]
        simp only [Nat.add_zero, Nat.add_assoc, Nat.add_comm 1]
      rw [hshift, place]
      split
      · next hempty => simp [hempty]
      · next hdel => simp [hdel, ih]
      · next a ha => simp [ha, htest i a ha, ih]

theorem place_ne_taken {fuel i : ℕ} {tomb : Option ℕ}
    (htest : ∀ e a, t (probe n home e) = .full a → test a = false) :
    place t n home test fuel i tomb ≠ .taken := by
  induction fuel generalizing i tomb with
  | zero => simp [place]
  | succ fuel ih =>
      rw [place]
      split
      · simp
      · exact ih
      · next a ha =>
          rw [htest i a ha]
          exact ih

theorem exists_probe_eq (home : ℕ) {idx : ℕ} (hidx : idx < n) :
    ∃ e < n, probe n home e = idx := by
  have hn : 0 < n := Nat.zero_lt_of_lt hidx
  refine ⟨(idx + (n - home % n)) % n, Nat.mod_lt _ hn, ?_⟩
  have hhome : home % n < n := Nat.mod_lt _ hn
  rw [probe, Nat.add_mod_mod, ← Nat.mod_add_mod]
  have hsum : home % n + (idx + (n - home % n)) = idx + n := by omega
  rw [hsum, Nat.add_mod_right, Nat.mod_eq_of_lt hidx]

end Walk

section Table

variable {α : Type*} {t : ℕ → Slot α} {n : ℕ} {home : α → ℕ}

/-- With the invariant a complete search finds exactly the entries that pass
the test. -/
theorem Unbroken.search_eq_none_iff (h : Unbroken t n home) (hn : 0 < n)
    {pos : ℕ} {test : α → Bool} (hhome : ∀ a, test a = true → home a = pos) :
    search t n pos test n 0 = none ↔
      ∀ idx < n, ∀ a, t idx = .full a → test a = false := by
  constructor
  · intro hsearch idx hidx a ha
    by_contra htest
    have hpos := hhome a (by simpa using htest)
    obtain ⟨d, hd, hprobe, hclear⟩ := h idx hidx a ha
    rw [hpos] at hprobe hclear
    exact htest (test_eq_false_of_search hsearch (Nat.zero_le d) (by omega)
      hclear (by rw [hprobe, ha]))
  · intro hnone
    cases hsearch : search t n pos test n 0 with
    | none => rfl
    | some idx =>
        obtain ⟨d, rfl, a, ha, htest⟩ := search_eq_some hsearch
        rw [hnone _ (probe_lt hn d) a ha] at htest
        cases htest

theorem Unbroken.search_eq_some_iff (h : Unbroken t n home) (hn : 0 < n)
    {pos : ℕ} {test : α → Bool} (hhome : ∀ a, test a = true → home a = pos)
    (huniq : ∀ i < n, ∀ j < n, ∀ a b, t i = .full a → t j = .full b →
      test a = true → test b = true → i = j) {idx : ℕ} :
    search t n pos test n 0 = some idx ↔
      idx < n ∧ ∃ a, t idx = .full a ∧ test a = true := by
  constructor
  · intro hsearch
    obtain ⟨d, rfl, a, ha, htest⟩ := search_eq_some hsearch
    exact ⟨probe_lt hn d, a, ha, htest⟩
  · rintro ⟨hidx, a, ha, htest⟩
    cases hsearch : search t n pos test n 0 with
    | none =>
        rw [(h.search_eq_none_iff hn hhome).mp hsearch idx hidx a ha] at htest
        cases htest
    | some j =>
        obtain ⟨d, rfl, b, hb, htest'⟩ := search_eq_some hsearch
        rw [huniq _ (probe_lt hn d) idx hidx b a hb ha htest' htest]

theorem Unbroken.test_eq_false_of_place (h : Unbroken t n home) {pos idx : ℕ}
    {test : α → Bool} (hhome : ∀ a, test a = true → home a = pos)
    (hplace : place t n pos test n 0 none = .slot idx) :
    ∀ j < n, ∀ a, t j = .full a → test a = false := by
  intro j hj a ha
  obtain ⟨-, -, d, hempty, hbefore⟩ := place_eq_slot hplace
    (fun e he => absurd he (Nat.not_lt_zero e)) (by simp)
    (fun e he => absurd he (Nat.not_lt_zero e))
  by_contra htest
  obtain ⟨e, -, hprobe, hclear⟩ := h j hj a ha
  rw [hhome a (by simpa using htest)] at hprobe hclear
  rcases Nat.lt_trichotomy e d with hlt | rfl | hgt
  · exact htest (hbefore e hlt a (by rw [hprobe, ha]))
  · rw [hprobe, ha] at hempty
    cases hempty
  · exact hclear d hgt hempty

/-- The slot chosen for an insertion is not occupied and lies on the walk, in
front of its empty slots. -/
theorem place_spec {pos idx : ℕ} {test : α → Bool}
    (hplace : place t n pos test n 0 none = .slot idx) :
    (t idx).occupant = none ∧ ∃ d, probe n pos d = idx ∧ Clear t n pos d := by
  obtain ⟨hfree, hwalk, -⟩ := place_eq_slot hplace
    (fun e he => absurd he (Nat.not_lt_zero e)) (by simp)
    (fun e he => absurd he (Nat.not_lt_zero e))
  exact ⟨hfree, hwalk⟩

/-- A key without an entry can be inserted exactly when some slot of the table
is empty, however many tombstones there are. -/
theorem place_eq_slot_iff_exists_empty (hn : 0 < n) (pos : ℕ) {test : α → Bool}
    (htest : ∀ idx < n, ∀ a, t idx = .full a → test a = false) :
    (∃ idx, place t n pos test n 0 none = .slot idx) ↔
      ∃ idx < n, t idx = .empty := by
  have hwalk : ∀ e a, t (probe n pos e) = .full a → test a = false :=
    fun e a => htest _ (probe_lt hn e) a
  have hnoRoom : place t n pos test n 0 none = .noRoom ↔
      ∀ idx < n, t idx ≠ .empty := by
    rw [place_eq_noRoom_iff hwalk]
    simp only [Nat.zero_add]
    constructor
    · intro h idx hidx
      obtain ⟨e, he, rfl⟩ := exists_probe_eq pos hidx
      exact h e he
    · exact fun h e _ => h _ (probe_lt hn e)
  have hne : place t n pos test n 0 none ≠ .taken := place_ne_taken hwalk
  cases hplace : place t n pos test n 0 none with
  | slot idx =>
      rw [hplace] at hnoRoom
      simp only [reduceCtorEq, false_iff, not_forall, not_not] at hnoRoom
      obtain ⟨j, hj, hempty⟩ := hnoRoom
      exact ⟨fun _ => ⟨j, hj, hempty⟩, fun _ => ⟨idx, rfl⟩⟩
  | taken => exact absurd hplace hne
  | noRoom =>
      constructor
      · rintro ⟨idx, hidx⟩
        cases hidx
      · rintro ⟨idx, hidx, hempty⟩
        exact absurd hempty (hnoRoom.mp hplace idx hidx)

theorem Clear.update {pos d idx : ℕ} {s : Slot α} (h : Clear t n pos d)
    (hs : s ≠ .empty) : Clear (Function.update t idx s) n pos d := by
  intro e he
  by_cases heq : probe n pos e = idx
  · rw [heq, Function.update_self]
    exact hs
  · rw [Function.update_of_ne heq]
    exact h e he

theorem update_full_iff {idx j : ℕ} {a b : α} :
    Function.update t idx (.full a) j = .full b ↔
      (j = idx ∧ a = b) ∨ (j ≠ idx ∧ t j = .full b) := by
  by_cases heq : j = idx
  · simp [heq]
  · simp [heq]

theorem update_tombstone_iff {idx j : ℕ} {b : α} :
    Function.update t idx .tombstone j = .full b ↔ j ≠ idx ∧ t j = .full b := by
  by_cases heq : j = idx
  · simp [heq]
  · simp [heq]

theorem Unbroken.delete (h : Unbroken t n home) (idx : ℕ) :
    Unbroken (Function.update t idx .tombstone) n home := by
  intro j hj a ha
  obtain ⟨-, ha⟩ := update_tombstone_iff.mp ha
  obtain ⟨d, hd, hprobe, hclear⟩ := h j hj a ha
  exact ⟨d, hd, hprobe, hclear.update (by simp)⟩

theorem exists_clear_lt (hn : 0 < n) {pos d : ℕ} (h : Clear t n pos d) :
    ∃ e < n, probe n pos e = probe n pos d ∧ Clear t n pos e := by
  refine ⟨d % n, Nat.mod_lt d hn, ?_, ?_⟩
  · simp [probe]
  · intro e he
    exact h e (Nat.lt_of_lt_of_le he (Nat.mod_le d n))

theorem Unbroken.insert (h : Unbroken t n home) (hn : 0 < n) {a : α} {d : ℕ}
    (hclear : Clear t n (home a) d) :
    Unbroken (Function.update t (probe n (home a) d) (.full a)) n home := by
  intro j hj b hb
  rcases update_full_iff.mp hb with ⟨heq, rfl⟩ | ⟨-, hb⟩
  · obtain ⟨e, he, hprobe, hclear⟩ := exists_clear_lt hn hclear
    exact ⟨e, he, hprobe.trans heq.symm, hclear.update (by simp)⟩
  · obtain ⟨e, he, hprobe, hclear⟩ := h j hj b hb
    exact ⟨e, he, hprobe, hclear.update (by simp)⟩

theorem unbroken_empty (n : ℕ) (home : α → ℕ) :
    Unbroken (fun _ => .empty) n home := by
  intro idx _ a ha
  cases ha

theorem mem_occupied {idx : ℕ} :
    idx ∈ occupied t n ↔ idx < n ∧ ∃ a, t idx = .full a := by
  simp [occupied, Option.isSome_iff_exists]

theorem occupied_insert {idx : ℕ} (hidx : idx < n) (a : α) :
    occupied (Function.update t idx (.full a)) n =
      Insert.insert idx (occupied t n) := by
  ext j
  by_cases heq : j = idx
  · simp [mem_occupied, heq, hidx]
  · simp [mem_occupied, heq]

theorem occupied_delete (idx : ℕ) :
    occupied (Function.update t idx .tombstone) n = (occupied t n).erase idx := by
  ext j
  by_cases heq : j = idx
  · simp [mem_occupied, heq]
  · simp [mem_occupied, heq]

theorem mem_entries {a : α} :
    a ∈ entries t n ↔ ∃ idx < n, t idx = .full a := by
  simp [entries]

/-- Distinct slots with distinct values are enumerated without repetition. -/
theorem nodup_map_entries {β : Type*} {f : α → β}
    (hinj : ∀ i < n, ∀ j < n, ∀ a b, t i = .full a → t j = .full b →
      f a = f b → i = j) : ((entries t n).map f).Nodup := by
  rw [List.Nodup, List.pairwise_map, entries, List.pairwise_filterMap]
  apply List.nodup_range.imp_of_mem
  intro i j hi hj hne a ha b hb heq
  rw [Slot.occupant_eq_some_iff] at ha hb
  exact hne (hinj i (List.mem_range.mp hi) j (List.mem_range.mp hj) a b ha hb heq)

theorem length_entries : (entries t n).length = (occupied t n).card := by
  rw [entries, List.length_filterMap_eq_countP, occupied,
    ← Nat.count_eq_card_filter_range, Nat.count]
  exact List.countP_congr (by simp)

end Table

end LinearProbing

end Shinigami
