import Shinigami.Hal.Registry

/-!
# Admission to the device registry

A registration walks until it meets an empty slot, and an unregistration leaves
a tombstone. No call ever turns a slot back into an empty one, so the number of
empty slots only goes down, while the load limit counts the devices that are
registered now. `register_admission_iff` says when the limit alone decides:
exactly as long as some slot has never been used, or the limit is reached.

`churn` registers and unregisters a device under one name after the other. When
the names have different home slots, every round uses up one more slot
(`Vacant.churn`), and 128 rounds leave a registry without devices that admits no
device (`register_admission_churned`).
-/

namespace Shinigami

namespace Hal

open CString LinearProbing

variable {h : HalState} {d : Directory} {p : DevicePtr}

/-- Some slot of `g_registry` has never held a device. -/
def HalState.HasEmptySlot (h : HalState) : Prop :=
  ∃ idx < tableSize, (h.gRegistry idx).hash = slotEmpty

theorem table_eq_empty_iff (h : HalState) (idx : ℕ) :
    h.table idx = .empty ↔ (h.gRegistry idx).hash = slotEmpty := by
  unfold HalState.table RegistrySlot.view
  split_ifs with hempty htomb
  · simp [hempty]
  · simp [hempty]
  · simp [hempty]

/-- The device is admitted below the load limit when its name is free and some
slot is empty. -/
theorem Represents.register_eq_success_iff (hr : Represents h d) (hp : p ≠ null)
    (hfree : d.lookup (h.nameOf p) = none) :
    (halDeviceRegister h p).2 = .success ↔
      h.gRegistryCount < registryMaxLoad ∧ h.HasEmptySlot := by
  have htest : ∀ idx < tableSize, ∀ a, h.table idx = .full a →
      h.named (h.devices p).name a = false := by
    intro idx hidx a ha
    rw [Bool.eq_false_iff]
    intro hnamed
    have hname := ((hr.tests_named (h.devices p).name).iff idx hidx a ha).mp hnamed
    have hbound := (hr.models.lookup _ _).mpr ⟨idx, hidx, a, ha, hname, rfl⟩
    rw [HalState.nameOf, hbound] at hfree
    cases hfree
  have hroom := place_eq_slot_iff_exists_empty (t := h.table) tableSize_pos
    (fnv1aHash (h.devices p).name).toNat htest
  simp only [table_eq_empty_iff] at hroom
  rw [HalState.HasEmptySlot, ← hroom]
  constructor
  · intro hok
    rcases halDeviceRegister_cases h p with ⟨target, -, hload, hplace, -⟩ | ⟨-, hfail⟩
    · exact ⟨hload, target, hplace⟩
    · exact absurd hok hfail
  · rintro ⟨hload, target, hplace⟩
    have hle : ¬ registryMaxLoad ≤ h.gRegistryCount := UInt32.not_le.mpr hload
    simp only [halDeviceRegister, hp, hle, if_false, registerLoop_eq_place, hplace]

theorem represents_run {calls : List Call}
    (hcalls : Guarded Session.step KeepsNames Session.initial calls) :
    Represents (run Session.step Session.initial calls).hal
      (run Session.step Session.initial calls).directory :=
  run_invariant_of_guarded (I := fun s => Represents s.hal s.directory)
    represents_step represents_initial hcalls

/-- The load limit decides about a free name exactly while some slot of the
table is empty or the limit is reached. -/
theorem register_admission_iff (calls : List Call)
    (hcalls : Guarded Session.step KeepsNames Session.initial calls)
    (p : DevicePtr) (hp : p ≠ null)
    (hfree : (run Session.step Session.initial calls).directory.lookup
      ((run Session.step Session.initial calls).hal.nameOf p) = none) :
    let s := run Session.step Session.initial calls
    ((halDeviceRegister s.hal p).2 = .success ↔
      s.directory.keys.card < registryMaxLoad.toNat) ↔
      (s.hal.HasEmptySlot ∨ registryMaxLoad.toNat ≤ s.directory.keys.card) := by
  intro s
  have hr : Represents s.hal s.directory := represents_run hcalls
  have hcount : s.hal.gRegistryCount < registryMaxLoad ↔
      s.directory.keys.card < registryMaxLoad.toNat := by
    rw [UInt32.lt_iff_toNat_lt, hr.count, hr.models.card_occupied]
  rw [hr.register_eq_success_iff hp hfree, hcount, ← Nat.not_lt]
  tauto

def churnRound (p : DevicePtr) (name : List UInt8) : List Call :=
  [.write p (halDeviceInit name), .register p, .unregister p]

def churn (p : DevicePtr) (names : List (List UInt8)) : List Call :=
  names.flatMap (churnRound p)

def homeSlot (name : List UInt8) : ℕ :=
  slotIdx (fnv1aHash (halDeviceInit name).name) 0

/-- No device is registered, the slots in `used` are tombstones, and the others
have never been used. -/
structure Vacant (s : Session) (used : List ℕ) : Prop where
  directory : s.directory = ∅
  count : s.hal.gRegistryCount = 0
  slots : ∀ idx, s.hal.gRegistry idx =
    if idx ∈ used then ⟨slotTombstone, null⟩ else ⟨slotEmpty, null⟩

theorem vacant_initial : Vacant Session.initial [] :=
  ⟨rfl, rfl, fun _ => rfl⟩

theorem halDeviceRegister_of_home (hp : p ≠ null)
    (hload : h.gRegistryCount < registryMaxLoad)
    (hhome : (h.gRegistry (slotIdx (fnv1aHash (h.devices p).name) 0)).hash =
      slotEmpty) :
    halDeviceRegister h p =
      (halDeviceRef (h.setSlot (slotIdx (fnv1aHash (h.devices p).name) 0)
        ⟨fnv1aHash (h.devices p).name, p⟩ (h.gRegistryCount + 1)) p, .success) := by
  have hle : ¬ registryMaxLoad ≤ h.gRegistryCount := UInt32.not_le.mpr hload
  have hloop : registerLoop h (fnv1aHash (h.devices p).name)
      (h.devices p).name tableSize 0 none =
      .slot (slotIdx (fnv1aHash (h.devices p).name) 0) := by
    rw [show tableSize = 127 + 1 from rfl, registerLoop]
    simp [hhome]
  simp only [halDeviceRegister, hp, hle, if_false, hloop]
  rfl

/-- An unregistration whose first slot holds the device clears this slot. -/
theorem halDeviceUnregister_of_home (hp : p ≠ null)
    (hhome : h.gRegistry (slotIdx (fnv1aHash (h.devices p).name) 0) =
      ⟨fnv1aHash (h.devices p).name, p⟩) :
    halDeviceUnregister h p =
      halDeviceUnref (h.setSlot (slotIdx (fnv1aHash (h.devices p).name) 0)
        ⟨slotTombstone, null⟩ (h.gRegistryCount - 1)) p := by
  have hloop : unregisterLoop h (fnv1aHash (h.devices p).name) p tableSize 0 =
      some (slotIdx (fnv1aHash (h.devices p).name) 0) := by
    rw [show tableSize = 127 + 1 from rfl, unregisterLoop]
    simp [hhome, (fnv1aHash_ne_sentinel (h.devices p).name).1]
  simp only [halDeviceUnregister, hp, if_false, hloop]
  rfl

theorem halDeviceRef_name (h : HalState) (p : DevicePtr) :
    ((halDeviceRef h p).devices p).name = (h.devices p).name := by
  unfold halDeviceRef
  split <;> simp [HalState.setDevice]

theorem Directory.remove_insert_self {d : Directory} {name : List UInt8}
    (hfree : d.lookup name = none) (p : DevicePtr) :
    Directory.remove (d.insert name p) name p = d := by
  rw [Directory.remove, if_pos (Finmap.lookup_insert _)]
  refine Finmap.ext_lookup fun k => ?_
  by_cases hk : k = name
  · rw [hk, Finmap.lookup_erase, hfree]
  · rw [Finmap.lookup_erase_ne hk, Finmap.lookup_insert_of_ne _ hk]

/-- Every round with a new home slot turns one more slot into a tombstone. -/
theorem Vacant.round {s : Session} {used : List ℕ} (hs : Vacant s used)
    (hp : p ≠ null) {name : List UInt8} (hnew : homeSlot name ∉ used) :
    Vacant (run Session.step s (churnRound p name)) (homeSlot name :: used) := by
  let hal₁ := s.hal.setDevice p (halDeviceInit name)
  let hal₂ := halDeviceRef (hal₁.setSlot (homeSlot name)
    ⟨fnv1aHash (halDeviceInit name).name, p⟩ (hal₁.gRegistryCount + 1)) p
  have hname₁ : (hal₁.devices p).name = (halDeviceInit name).name := by
    simp [hal₁, HalState.setDevice]
  have hname₂ : (hal₂.devices p).name = (halDeviceInit name).name := by
    rw [halDeviceRef_name]
    exact hname₁
  have hregister : halDeviceRegister hal₁ p = (hal₂, .success) := by
    have hload : hal₁.gRegistryCount < registryMaxLoad := by
      rw [show hal₁.gRegistryCount = 0 from hs.count]
      decide
    rw [halDeviceRegister_of_home hp hload]
    · rw [hname₁]
      rfl
    · rw [hname₁]
      change (s.hal.gRegistry (homeSlot name)).hash = slotEmpty
      rw [hs.slots, if_neg hnew]
  have hunregister : halDeviceUnregister hal₂ p =
      halDeviceUnref (hal₂.setSlot (homeSlot name) ⟨slotTombstone, null⟩
        (hal₂.gRegistryCount - 1)) p := by
    rw [halDeviceUnregister_of_home hp]
    · rw [hname₂]
      rfl
    · rw [hname₂, halDeviceRef_gRegistry]
      exact Function.update_self ..
  have hrun : run Session.step s (churnRound p name) =
      { hal := halDeviceUnregister hal₂ p
        directory := Directory.remove (s.directory.insert (hal₁.nameOf p) p)
          (hal₂.nameOf p) p } := by
    simp only [churnRound, run_cons, run_nil, Session.step]
    rw [hregister]
    rfl
  rw [hrun, hunregister]
  refine ⟨?_, ?_, ?_⟩
  · have hsame : hal₂.nameOf p = hal₁.nameOf p := by
      rw [HalState.nameOf, hname₂, HalState.nameOf, hname₁]
    have hfree : s.directory.lookup (hal₁.nameOf p) = none := by
      rw [hs.directory, Finmap.lookup_empty]
    rw [hsame, Directory.remove_insert_self hfree, hs.directory]
  · rw [halDeviceUnref_gRegistryCount]
    change hal₂.gRegistryCount - 1 = 0
    rw [halDeviceRef_gRegistryCount]
    change s.hal.gRegistryCount + 1 - 1 = 0
    rw [hs.count]
    rfl
  · intro idx
    rw [halDeviceUnref_gRegistry]
    change Function.update hal₂.gRegistry _ _ idx = _
    rw [halDeviceRef_gRegistry]
    change Function.update (Function.update s.hal.gRegistry _ _) _ _ idx = _
    by_cases hidx : idx = homeSlot name
    · simp [hidx]
    · simp [hidx, hs.slots]

theorem Vacant.churn {s : Session} {used : List ℕ} (hs : Vacant s used)
    (hp : p ≠ null) {names : List (List UInt8)}
    (hnodup : (names.map homeSlot).Nodup)
    (hnew : ∀ name ∈ names, homeSlot name ∉ used) :
    Vacant (run Session.step s (Hal.churn p names))
        ((names.map homeSlot).reverse ++ used) ∧
      Guarded Session.step KeepsNames s (Hal.churn p names) := by
  induction names generalizing s used with
  | nil => exact ⟨hs, trivial⟩
  | cons name names ih =>
      have hround := hs.round hp (hnew name (by simp))
      rw [List.map_cons, List.nodup_cons] at hnodup
      obtain ⟨hvacant, hguarded⟩ := ih hround hnodup.2 (by
        intro name' hmem
        rw [List.mem_cons, not_or]
        refine ⟨?_, hnew name' (by simp [hmem])⟩
        intro heq
        exact hnodup.1 (heq ▸ List.mem_map_of_mem hmem))
      have hsplit : Hal.churn p (name :: names) =
          churnRound p name ++ Hal.churn p names := rfl
      rw [hsplit, run_append]
      refine ⟨by simpa using hvacant, ?_, trivial, trivial, hguarded⟩
      rintro ⟨bound, hbound⟩
      rw [hs.directory] at hbound
      cases hbound

def churnNames : List (List UInt8) :=
  (List.range tableSize).map fun k =>
    [UInt8.ofNat (48 + k % 64), if k < 64 then 48 else 112]

theorem nodup_homeSlot_churnNames : (churnNames.map homeSlot).Nodup := by
  decide +kernel

theorem homeSlot_churnNames_surjective :
    ∀ idx < tableSize, idx ∈ churnNames.map homeSlot := by
  decide +kernel

theorem vacant_churnNames (n : ℕ) :
    Vacant (run Session.step Session.initial (churn 1 (churnNames.take n)))
        ((churnNames.take n).map homeSlot).reverse ∧
      Guarded Session.step KeepsNames Session.initial
        (churn 1 (churnNames.take n)) := by
  have hnodup : ((churnNames.take n).map homeSlot).Nodup := by
    rw [List.map_take]
    exact nodup_homeSlot_churnNames.sublist (List.take_sublist ..)
  have hchurn := vacant_initial.churn (p := 1) (by decide) hnodup (by simp)
  rwa [List.append_nil] at hchurn

theorem Vacant.lookup_eq_none {s : Session} {used : List ℕ} (hs : Vacant s used)
    (name : List UInt8) : s.directory.lookup name = none := by
  rw [hs.directory, Finmap.lookup_empty]

theorem Vacant.card_keys {s : Session} {used : List ℕ} (hs : Vacant s used) :
    s.directory.keys.card = 0 := by
  rw [hs.directory, Finmap.keys_empty, Finset.card_empty]

theorem Vacant.not_hasEmptySlot {s : Session} {used : List ℕ} (hs : Vacant s used)
    (hall : ∀ idx < tableSize, idx ∈ used) : ¬ s.hal.HasEmptySlot := by
  rintro ⟨idx, hidx, hempty⟩
  rw [hs.slots, if_pos (hall idx hidx)] at hempty
  exact slotTombstone_ne_slotEmpty hempty

theorem Vacant.hasEmptySlot {s : Session} {used : List ℕ} (hs : Vacant s used)
    {idx : ℕ} (hidx : idx < tableSize) (hnew : idx ∉ used) : s.hal.HasEmptySlot :=
  ⟨idx, hidx, by rw [hs.slots, if_neg hnew]⟩

/-- After 127 rounds one slot has never been used, and the device is admitted
once more. -/
theorem register_admission_iff_churned :
    let s := run Session.step Session.initial (churn 1 (churnNames.take 127))
    s.directory.lookup (s.hal.nameOf 1) = none ∧
      (halDeviceRegister s.hal 1).2 = .success := by
  intro s
  obtain ⟨hvacant, hguarded⟩ := vacant_churnNames 127
  have hfree := hvacant.lookup_eq_none (s.hal.nameOf 1)
  have hlast : 127 < churnNames.length := by
    rw [churnNames, List.length_map, List.length_range]
    decide
  have hnew : homeSlot churnNames[127] ∉ ((churnNames.take 127).map homeSlot).reverse := by
    have hsplit : churnNames = churnNames.take 127 ++ churnNames.drop 127 :=
      (List.take_append_drop 127 churnNames).symm
    have hnodup := nodup_homeSlot_churnNames
    rw [hsplit, List.map_append, List.nodup_append] at hnodup
    rw [List.mem_reverse]
    intro hmem
    refine hnodup.2.2 _ hmem _ (List.mem_map_of_mem ?_) rfl
    rw [List.drop_eq_getElem_cons hlast]
    exact List.mem_cons_self
  have hiff := (register_admission_iff _ hguarded 1 (by decide) hfree).mpr
    (.inl (hvacant.hasEmptySlot (slotIdx_lt _ _) hnew))
  refine ⟨hfree, hiff.mpr ?_⟩
  rw [hvacant.card_keys]
  decide

/-- After 128 rounds no device is registered, and none can be any more. -/
theorem register_admission_churned :
    let s := run Session.step Session.initial (churn 1 churnNames)
    Guarded Session.step KeepsNames Session.initial (churn 1 churnNames) ∧
      s.directory.lookup (s.hal.nameOf 1) = none ∧
      s.directory.keys.card = 0 ∧
      ¬ ((halDeviceRegister s.hal 1).2 = .success ↔
        s.directory.keys.card < registryMaxLoad.toNat) := by
  intro s
  obtain ⟨hvacant, hguarded⟩ := vacant_churnNames 128
  rw [show churnNames.take 128 = churnNames from rfl] at hvacant hguarded
  have hfree := hvacant.lookup_eq_none (s.hal.nameOf 1)
  refine ⟨hguarded, hfree, hvacant.card_keys, ?_⟩
  intro hiff
  have hok := hiff.mpr (by
    rw [hvacant.card_keys]
    decide)
  refine hvacant.not_hasEmptySlot (fun idx hidx => ?_)
    (((represents_run hguarded).register_eq_success_iff (by decide) hfree).mp hok).2
  simpa using homeSlot_churnNames_surjective idx hidx

end Hal

end Shinigami
