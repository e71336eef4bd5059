import Shinigami.Foundations.Run
import Shinigami.ServiceManager.Infrastructure.Registry.Basic

/-!
# The representation invariant of the registry

`Linked r k` is the state of the hash while the first `k` array entries are
linked: the bump allocator stands at `k`, every bucket is a complete chain, no
index occurs twice in a chain, and index `i` stands in bucket `s` exactly when
`i < k` and its name hashes to `s`. One `hash_insert` moves `k` by one
(`linked_hashInsert`), so a rebuild links all entries whatever the hash looked
like before (`linked_hashRebuild`); this is why the order of unlinking and
shifting does not matter.

`RegistryShape` adds the bound on the count, and holds whatever names are in the
array. `RegistryInv` adds the bound on the names and their distinctness. Under it
the hash is the linear search (`hashFind_eq_find?_range`).
-/

namespace Shinigami

namespace ServiceManager

open CString PoolChain

/-- The hash links exactly the first `k` array entries. -/
def Linked (r : Registry) (k : ℕ) : Prop :=
  r.hashPoolUsed = k ∧
    ∃ chain : ℕ → List ℕ,
      (∀ s, Chain r.hashPool k (r.hashTable s) (chain s)) ∧
      (∀ s, (chain s).Nodup) ∧
      ∀ s i, i ∈ chain s ↔ i < k ∧ hashName (r.registry i).name = s

structure RegistryShape (r : Registry) : Prop where
  count_le : r.registryCount ≤ smMaxServices
  linked : Linked r r.registryCount

/-- The representation invariant. -/
structure RegistryInv (r : Registry) : Prop where
  count_le : r.registryCount ≤ smMaxServices
  name_lt : ∀ i < r.registryCount,
    (cstr (r.registry i).name).length < smMaxName
  distinct : ∀ i < r.registryCount, ∀ j < r.registryCount,
    cstr (r.registry i).name = cstr (r.registry j).name → i = j
  linked : Linked r r.registryCount
  no_overrun : r.poolOverrun = false

theorem RegistryInv.shape {r : Registry} (h : RegistryInv r) : RegistryShape r :=
  ⟨h.count_le, h.linked⟩

theorem hashName_congr {a b : List UInt8} (h : cstr a = cstr b) :
    hashName a = hashName b := by
  simp only [hashName, h]

@[simp] theorem hashInsert_registry (r : Registry) (name : List UInt8) (idx : ℕ) :
    (hashInsert r name idx).registry = r.registry := rfl

@[simp] theorem hashInsert_registryCount (r : Registry) (name : List UInt8)
    (idx : ℕ) : (hashInsert r name idx).registryCount = r.registryCount := rfl

theorem hashInsert_poolOverrun {r : Registry} {name : List UInt8} {idx : ℕ}
    (hused : r.hashPoolUsed < smMaxServices) (h : r.poolOverrun = false) :
    (hashInsert r name idx).poolOverrun = false := by
  simp [hashInsert, h, hused]

theorem linked_hashInsert {r : Registry} {k : ℕ} (h : Linked r k) :
    Linked (hashInsert r (r.registry k).name k) (k + 1) := by
  obtain ⟨hused, chain, hchain, hnodup, hmem⟩ := h
  subst hused
  set k := r.hashPoolUsed with hk
  set slot := hashName (r.registry k).name with hslot
  have hfresh : k ∉ chain slot := fun h => by
    have := ((hmem slot k).mp h).1
    omega
  refine ⟨rfl, Function.update chain slot (k :: chain slot), ?_, ?_, ?_⟩
  · intro s
    by_cases hs : s = slot
    · subst hs
      simpa [hashInsert, ← hk, ← hslot] using (hchain slot).insert k
    · have hupd := (hchain s).update ⟨k, r.hashTable slot⟩
      simpa [hashInsert, ← hk, ← hslot, hs] using hupd
  · intro s
    by_cases hs : s = slot
    · subst hs
      simpa using ⟨hfresh, hnodup slot⟩
    · simpa [hs] using hnodup s
  · intro s i
    by_cases hs : s = slot
    · subst hs
      simp only [Function.update_self, List.mem_cons, hashInsert_registry, hmem]
      constructor
      · rintro (rfl | ⟨hi, hn⟩)
        · exact ⟨Nat.lt_succ_self _, rfl⟩
        · exact ⟨Nat.lt_succ_of_lt hi, hn⟩
      · rintro ⟨hi, hn⟩
        rcases Nat.lt_succ_iff_lt_or_eq.mp hi with hlt | heq
        · exact .inr ⟨hlt, hn⟩
        · exact .inl heq
    · rw [Function.update_of_ne hs, hmem, hashInsert_registry]
      constructor
      · rintro ⟨hi, hn⟩
        exact ⟨Nat.lt_succ_of_lt hi, hn⟩
      · rintro ⟨hi, hn⟩
        refine ⟨lt_of_le_of_ne (Nat.lt_succ_iff.mp hi) ?_, hn⟩
        rintro rfl
        exact hs hn.symm

/-- The loop of `hash_rebuild` after `n` iterations. -/
def rebuildUpto (r : Registry) (n : ℕ) : Registry :=
  (List.range n).foldl (fun r i => hashInsert r (r.registry i).name i)
    { r with
      hashPool := fun _ => ⟨0, none⟩
      hashTable := fun _ => none
      hashPoolUsed := 0 }

theorem rebuildUpto_succ (r : Registry) (n : ℕ) :
    rebuildUpto r (n + 1) =
      hashInsert (rebuildUpto r n) ((rebuildUpto r n).registry n).name n := by
  simp [rebuildUpto, List.range_succ]

/-- Each iteration links one more entry; the array is not touched, and the pool
is large enough as long as the count is. -/
theorem rebuildUpto_spec (r : Registry) (n : ℕ) :
    (rebuildUpto r n).registry = r.registry ∧
      (rebuildUpto r n).registryCount = r.registryCount ∧
      Linked (rebuildUpto r n) n ∧
      (n ≤ smMaxServices → r.poolOverrun = false →
        (rebuildUpto r n).poolOverrun = false) := by
  induction n with
  | zero =>
      refine ⟨rfl, rfl, ⟨rfl, fun _ => [], ?_, ?_, ?_⟩, fun _ h => h⟩
      · exact fun s => .nil 0
      · exact fun s => List.nodup_nil
      · simp
  | succ n ih =>
      obtain ⟨hreg, hcount, hlinked, hover⟩ := ih
      rw [rebuildUpto_succ]
      refine ⟨hreg, hcount, linked_hashInsert hlinked, ?_⟩
      intro hn h
      refine hashInsert_poolOverrun ?_ (hover (Nat.le_of_succ_le hn) h)
      rw [hlinked.1]
      exact hn

theorem hashRebuild_eq {r : Registry} (h : r.registryCount ≤ smMaxServices) :
    hashRebuild r = rebuildUpto r r.registryCount := by
  have hlimit : (if r.registryCount < smMaxServices then r.registryCount
      else smMaxServices) = r.registryCount := by
    split <;> omega
  simp [hashRebuild, rebuildUpto, hlimit]

theorem registryShape_hashRebuild {r : Registry}
    (hcount : r.registryCount ≤ smMaxServices) : RegistryShape (hashRebuild r) := by
  obtain ⟨-, hcnt, hlinked, -⟩ := rebuildUpto_spec r r.registryCount
  rw [hashRebuild_eq hcount]
  exact ⟨by rwa [hcnt], by rwa [hcnt]⟩

theorem registryInv_hashRebuild {r : Registry}
    (hcount : r.registryCount ≤ smMaxServices)
    (hname : ∀ i < r.registryCount,
      (cstr (r.registry i).name).length < smMaxName)
    (hdistinct : ∀ i < r.registryCount, ∀ j < r.registryCount,
      cstr (r.registry i).name = cstr (r.registry j).name → i = j)
    (hover : r.poolOverrun = false) : RegistryInv (hashRebuild r) := by
  have hshape := registryShape_hashRebuild hcount
  obtain ⟨hreg, hcnt, -, hov⟩ := rebuildUpto_spec r r.registryCount
  rw [hashRebuild_eq hcount] at hshape ⊢
  refine ⟨hshape.count_le, ?_, ?_, hshape.linked, hov hcount hover⟩
  · rw [hcnt, hreg]
    exact hname
  · rw [hcnt, hreg]
    exact hdistinct

theorem hashRebuild_registry (r : Registry)
    (h : r.registryCount ≤ smMaxServices) :
    (hashRebuild r).registry = r.registry := by
  rw [hashRebuild_eq h]
  exact (rebuildUpto_spec r _).1

theorem hashRebuild_registryCount (r : Registry)
    (h : r.registryCount ≤ smMaxServices) :
    (hashRebuild r).registryCount = r.registryCount := by
  rw [hashRebuild_eq h]
  exact (rebuildUpto_spec r _).2.1

theorem RegistryInv.nameAt_iff {r : Registry} (h : RegistryInv r)
    {name : List UInt8} (hname : (cstr name).length < smMaxName) {i : ℕ}
    (hi : i < r.registryCount) :
    nameAt r name i = true ↔ cstr (r.registry i).name = cstr name :=
  strncmpEq_iff (h.name_lt i hi) hname

theorem RegistryShape.of_hashFind {r : Registry} (h : RegistryShape r)
    {name : List UInt8} {i : ℕ} (hfind : hashFind r name = some i) :
    i < r.registryCount ∧ nameAt r name i = true := by
  obtain ⟨-, chain, hchain, -, hmem⟩ := h.linked
  rw [hashFind, find?_eq_of_chain (hchain _) _ h.count_le] at hfind
  exact ⟨((hmem _ i).mp (List.mem_of_find?_eq_some hfind)).1,
    List.find?_some hfind⟩

theorem RegistryInv.of_hashFind {r : Registry} (h : RegistryInv r)
    {name : List UInt8} {i : ℕ} (hfind : hashFind r name = some i) :
    i < r.registryCount ∧ nameAt r name i = true :=
  h.shape.of_hashFind hfind

theorem RegistryInv.hashFind_eq_some_iff {r : Registry} (h : RegistryInv r)
    {name : List UInt8} (hname : (cstr name).length < smMaxName) {i : ℕ} :
    hashFind r name = some i ↔
      i < r.registryCount ∧ cstr (r.registry i).name = cstr name := by
  constructor
  · intro hfind
    obtain ⟨hi, htest⟩ := h.of_hashFind hfind
    exact ⟨hi, (h.nameAt_iff hname hi).mp htest⟩
  · rintro ⟨hi, heq⟩
    obtain ⟨-, chain, hchain, -, hmem⟩ := h.linked
    rw [hashFind, find?_eq_of_chain (hchain _) _ h.count_le]
    have hin : i ∈ chain (hashName name) :=
      (hmem _ i).mpr ⟨hi, hashName_congr heq⟩
    have htest : nameAt r name i = true := (h.nameAt_iff hname hi).mpr heq
    cases hfind : (chain (hashName name)).find? (nameAt r name) with
    | none => exact absurd htest (by simpa using List.find?_eq_none.mp hfind i hin)
    | some j =>
        have hj := ((hmem _ j).mp (List.mem_of_find?_eq_some hfind)).1
        have hjname := (h.nameAt_iff hname hj).mp (List.find?_some hfind)
        rw [h.distinct j hj i hi (hjname.trans heq.symm)]

theorem RegistryInv.hashFind_eq_none_iff {r : Registry} (h : RegistryInv r)
    {name : List UInt8} (hname : (cstr name).length < smMaxName) :
    hashFind r name = none ↔
      ∀ i < r.registryCount, cstr (r.registry i).name ≠ cstr name := by
  rw [Option.eq_none_iff_forall_ne_some]
  constructor
  · intro hnone i hi heq
    exact hnone i ((h.hashFind_eq_some_iff hname).mpr ⟨hi, heq⟩)
  · intro hall i hsome
    obtain ⟨hi, heq⟩ := (h.hashFind_eq_some_iff hname).mp hsome
    exact hall i hi heq

theorem RegistryInv.hashFind_eq_find?_range {r : Registry} (h : RegistryInv r)
    {name : List UInt8} (hname : (cstr name).length < smMaxName) :
    hashFind r name = (List.range r.registryCount).find? (nameAt r name) := by
  cases hlin : (List.range r.registryCount).find? (nameAt r name) with
  | none =>
      rw [h.hashFind_eq_none_iff hname]
      intro i hi heq
      have hno := List.find?_eq_none.mp hlin i (List.mem_range.mpr hi)
      exact hno ((h.nameAt_iff hname hi).mpr heq)
  | some i =>
      have hi := List.mem_range.mp (List.mem_of_find?_eq_some hlin)
      rw [h.hashFind_eq_some_iff hname]
      exact ⟨hi, (h.nameAt_iff hname hi).mp (List.find?_some hlin)⟩

theorem foldl_shift_apply (reg : ℕ → ServiceEntry) (idx n j : ℕ) :
    (List.range' idx n).foldl
        (fun reg i => Function.update reg i (reg (i + 1))) reg j =
      if idx ≤ j ∧ j < idx + n then reg (j + 1) else reg j := by
  induction n generalizing j with
  | zero => simp
  | succ n ih =>
      rw [List.range'_concat, List.foldl_append]
      simp only [Nat.one_mul, List.foldl_cons, List.foldl_nil]
      by_cases hj : j = idx + n
      · subst hj
        have hnot : ¬(idx ≤ idx + n + 1 ∧ idx + n + 1 < idx + n) := by omega
        have hin : idx ≤ idx + n ∧ idx + n < idx + (n + 1) := by omega
        rw [Function.update_self, ih, if_neg hnot, if_pos hin]
      · rw [Function.update_of_ne hj, ih]
        have hiff : (idx ≤ j ∧ j < idx + n) ↔ (idx ≤ j ∧ j < idx + (n + 1)) := by
          omega
        simp only [hiff]

theorem compact_apply (reg : ℕ → ServiceEntry) {idx count : ℕ}
    (hidx : idx < count) (j : ℕ) :
    compact reg idx count j =
      if idx ≤ j ∧ j < count - 1 then reg (j + 1) else reg j := by
  have hend : idx + (count - 1 - idx) = count - 1 := by omega
  rw [compact, foldl_shift_apply, hend]

/-- The array after closing the gap at `idx` and clearing the last entry. -/
theorem update_compact_apply (reg : ℕ → ServiceEntry) {idx count j : ℕ}
    (hidx : idx < count) (hj : j < count - 1) :
    Function.update (compact reg idx count) (count - 1) .zero j =
      reg (if j < idx then j else j + 1) := by
  rw [Function.update_of_ne (Nat.ne_of_lt hj), compact_apply _ hidx]
  by_cases hlt : j < idx
  · rw [if_neg (by omega), if_pos hlt]
  · rw [if_pos (by omega), if_neg hlt]

@[simp] theorem hashRemove_registry (r : Registry) (name : List UInt8) :
    (hashRemove r name).registry = r.registry := rfl

@[simp] theorem hashRemove_registryCount (r : Registry) (name : List UInt8) :
    (hashRemove r name).registryCount = r.registryCount := rfl

theorem removeAt_registryCount {r : Registry} (name : List UInt8) (idx : ℕ)
    (h : r.registryCount ≤ smMaxServices) :
    (removeAt r name idx).registryCount = r.registryCount - 1 := by
  rw [removeAt, hashRebuild_registryCount]
  · simp
  · simp only [hashRemove_registryCount]
    omega

theorem removeAt_registry {r : Registry} {name : List UInt8} {idx : ℕ}
    (h : r.registryCount ≤ smMaxServices) (hidx : idx < r.registryCount) {j : ℕ}
    (hj : j < r.registryCount - 1) :
    (removeAt r name idx).registry j =
      r.registry (if j < idx then j else j + 1) := by
  rw [removeAt, hashRebuild_registry]
  · exact update_compact_apply _ hidx hj
  · simp only [hashRemove_registryCount]
    omega

theorem shift_injective {idx i j : ℕ}
    (h : (if i < idx then i else i + 1) = if j < idx then j else j + 1) :
    i = j := by
  split_ifs at h <;> omega

theorem RegistryShape.removeAt {r : Registry} (h : RegistryShape r)
    (name : List UInt8) (idx : ℕ) : RegistryShape (removeAt r name idx) := by
  apply registryShape_hashRebuild
  have := h.count_le
  simp only [hashRemove_registryCount]
  omega

theorem RegistryInv.removeAt {r : Registry} (h : RegistryInv r)
    (name : List UInt8) {idx : ℕ} (hidx : idx < r.registryCount) :
    RegistryInv (removeAt r name idx) := by
  have hlt : ∀ j < r.registryCount - 1,
      (if j < idx then j else j + 1) < r.registryCount := by
    intro j hj
    split_ifs <;> omega
  apply registryInv_hashRebuild
  · have := h.count_le
    simp only [hashRemove_registryCount]
    omega
  · intro j hj
    simp only [hashRemove_registry, hashRemove_registryCount] at hj ⊢
    rw [update_compact_apply _ hidx hj]
    exact h.name_lt _ (hlt j hj)
  · intro i hi j hj heq
    simp only [hashRemove_registry, hashRemove_registryCount] at hi hj heq
    rw [update_compact_apply _ hidx hi, update_compact_apply _ hidx hj] at heq
    exact shift_injective (h.distinct _ (hlt i hi) _ (hlt j hj) heq)
  · exact h.no_overrun

end ServiceManager

end Shinigami
