import Shinigami.Foundations.ProbingMap
import Shinigami.Foundations.Run
import Shinigami.Hal.Interface

/-!
# The device registry as a finite map

A `Directory` is a finite map from names to devices. A `Session` runs the
registry next to the directory of the devices that have been registered and not
yet unregistered: a registration that returned success binds the name of the
device, an unregistration removes the binding of that device, and every other
call leaves the directory as it is. Between the calls the owners of the devices
may rewrite them, as long as the name of a registered device stays.

`Represents h d` says that the slots of `g_registry` hold the bindings of `d`,
each where a walk from the hash of its name finds it. It is kept by every call
(`Represents.register`, `Represents.unregister`), so it holds in every session,
and `registry_refines_directory` reads the answers of the registry off it.
-/

namespace Shinigami

namespace Hal

open CString LinearProbing

abbrev Directory := Finmap fun _ : List UInt8 => DevicePtr

def Directory.remove (d : Directory) (name : List UInt8)
    (devicePtr : DevicePtr) : Directory :=
  if d.lookup name = some devicePtr then d.erase name else d

/-- What clients do: the four registry calls, the reference counting, and any
rewriting of a device structure by its owner. -/
inductive Call
  | register (devicePtr : DevicePtr)
  | unregister (devicePtr : DevicePtr)
  | find (deviceName : Option (List UInt8))
  | list (devicesOut : Bool) (maxDevices : ℤ)
  | ref (devicePtr : DevicePtr)
  | unref (devicePtr : DevicePtr)
  | write (devicePtr : DevicePtr) (device : HwDevice)

/-- The registry and the directory it should represent. -/
structure Session where
  hal : HalState
  directory : Directory

def Session.initial : Session := ⟨HalState.initial, ∅⟩

def Session.step (s : Session) : Call → Session
  | .register p =>
      { hal := (halDeviceRegister s.hal p).1
        directory :=
          if (halDeviceRegister s.hal p).2 = .success then
            s.directory.insert (s.hal.nameOf p) p
          else s.directory }
  | .unregister p =>
      { hal := halDeviceUnregister s.hal p
        directory := s.directory.remove (s.hal.nameOf p) p }
  | .find name => { s with hal := (halDeviceFind s.hal name).1 }
  | .list out max => { s with hal := (halDeviceList s.hal out max).1 }
  | .ref p => { s with hal := halDeviceRef s.hal p }
  | .unref p => { s with hal := halDeviceUnref s.hal p }
  | .write p device => { s with hal := s.hal.setDevice p device }

/-- A call leaves the names of the registered devices unchanged. -/
def KeepsNames (s : Session) : Call → Prop
  | .write p device =>
      (∃ name, s.directory.lookup name = some p) →
        cstr device.name = s.hal.nameOf p
  | _ => True

/-- The representation invariant: the table is a model of the directory, an
occupied slot carries the hash of the name of its device, and the counter is the
number of occupied slots. -/
structure Represents (h : HalState) (d : Directory) : Prop where
  models : Models h.table tableSize RegistrySlot.home
    (fun a => h.nameOf a.device) RegistrySlot.device d
  entry : ∀ idx < tableSize, ∀ a, h.table idx = .full a →
    a.device ≠ null ∧ a.hash = fnv1aHash (h.nameOf a.device)
  count : h.gRegistryCount.toNat = (occupied h.table tableSize).card
  load : h.gRegistryCount ≤ registryMaxLoad

variable {h h' : HalState} {d : Directory} {name : List UInt8} {p : DevicePtr}

theorem represents_initial : Represents HalState.initial ∅ := by
  have htable : HalState.initial.table = fun _ => .empty := rfl
  refine ⟨?_, ?_, ?_, by decide⟩
  · rw [htable]
    exact models_empty
  · intro idx _ a ha
    cases ha
  · have hocc : occupied HalState.initial.table tableSize = ∅ := by
      ext idx
      simp [mem_occupied, htable]
    rw [hocc]
    rfl

/-- The invariant reads the slots, the counter and the names of the registered
devices, and nothing else. -/
theorem Represents.congr (hr : Represents h d)
    (hslots : h'.gRegistry = h.gRegistry)
    (hcount : h'.gRegistryCount = h.gRegistryCount)
    (hnames : ∀ name p, d.lookup name = some p → h'.nameOf p = h.nameOf p) :
    Represents h' d := by
  have htable : h'.table = h.table := by
    funext idx
    rw [HalState.table, HalState.table, hslots]
  have hname : ∀ idx < tableSize, ∀ a, h.table idx = .full a →
      h'.nameOf a.device = h.nameOf a.device := fun idx hidx a ha =>
    hnames _ _ ((hr.models.lookup _ _).mpr ⟨idx, hidx, a, ha, rfl, rfl⟩)
  refine ⟨?_, ?_, ?_, ?_⟩
  · rw [htable]
    exact hr.models.congr hname
  · intro idx hidx a ha
    rw [htable] at ha
    rw [hname idx hidx a ha]
    exact hr.entry idx hidx a ha
  · rw [htable, hcount]
    exact hr.count
  · rw [hcount]
    exact hr.load

theorem Represents.ref (hr : Represents h d) (p : DevicePtr) :
    Represents (halDeviceRef h p) d :=
  hr.congr (halDeviceRef_gRegistry h p) (halDeviceRef_gRegistryCount h p)
    fun _ q _ => congrFun (halDeviceRef_nameOf h p) q

theorem Represents.unref (hr : Represents h d) (p : DevicePtr) :
    Represents (halDeviceUnref h p) d :=
  hr.congr (halDeviceUnref_gRegistry h p) (halDeviceUnref_gRegistryCount h p)
    fun _ q _ => congrFun (halDeviceUnref_nameOf h p) q

theorem Represents.tests_named (hr : Represents h d) (name : List UInt8) :
    Tests h.table tableSize RegistrySlot.home (fun a => h.nameOf a.device)
      (fnv1aHash name).toNat (h.named name) (cstr name) := by
  refine ⟨?_, ?_⟩
  · intro a htest
    simp only [HalState.named, decide_eq_true_eq] at htest
    rw [RegistrySlot.home, htest.1]
  · intro idx hidx a ha
    simp only [HalState.named, decide_eq_true_eq, strcmpEq_iff]
    constructor
    · exact fun htest => htest.2
    · intro heq
      refine ⟨?_, heq⟩
      rw [(hr.entry idx hidx a ha).2, heq, fnv1aHash_cstr]

theorem Represents.of_lookup (hr : Represents h d) (hp : d.lookup name = some p) :
    p ≠ null ∧ h.nameOf p = name := by
  obtain ⟨idx, hidx, a, ha, hname, rfl⟩ := (hr.models.lookup name p).mp hp
  exact ⟨(hr.entry idx hidx a ha).1, hname⟩

theorem Represents.find (hr : Represents h d) (name : List UInt8) :
    (halDeviceFind h (some name)).2 = (d.lookup (cstr name)).getD null := by
  rw [hr.models.lookup_eq_search tableSize_pos (hr.tests_named name)]
  simp only [halDeviceFind, findLoop_eq_search]
  cases hsearch : search h.table tableSize (fnv1aHash name).toNat
      (h.named name) tableSize 0 with
  | none => rfl
  | some idx =>
      obtain ⟨-, -, a, ha, -⟩ := search_eq_some hsearch
      simp [ha, Slot.occupant, (RegistrySlot.view_eq_full_iff.mp ha).1]

def HalState.setSlot (h : HalState) (idx : ℕ) (slot : RegistrySlot)
    (count : UInt32) : HalState :=
  { h with
    gRegistry := Function.update h.gRegistry idx slot
    gRegistryCount := count }

theorem HalState.table_setSlot (h : HalState) (idx : ℕ) (slot : RegistrySlot)
    (count : UInt32) :
    (h.setSlot idx slot count).table = Function.update h.table idx slot.view := by
  funext j
  by_cases hj : j = idx
  · simp [HalState.table, HalState.setSlot, hj]
  · simp [HalState.table, HalState.setSlot, hj]

/-- A registration writes one slot and returns success, or changes nothing. -/
theorem halDeviceRegister_cases (h : HalState) (p : DevicePtr) :
    (∃ target, p ≠ null ∧ h.gRegistryCount < registryMaxLoad ∧
      place h.table tableSize (fnv1aHash (h.devices p).name).toNat
        (h.named (h.devices p).name) tableSize 0 none = .slot target ∧
      halDeviceRegister h p =
        (halDeviceRef (h.setSlot target ⟨fnv1aHash (h.devices p).name, p⟩
          (h.gRegistryCount + 1)) p, .success)) ∨
    ((halDeviceRegister h p).1 = h ∧ (halDeviceRegister h p).2 ≠ .success) := by
  by_cases hp : p = null
  · right
    simp [halDeviceRegister, hp]
  by_cases hload : registryMaxLoad ≤ h.gRegistryCount
  · right
    simp [halDeviceRegister, hp, hload]
  simp only [halDeviceRegister, hp, hload, if_false, registerLoop_eq_place]
  cases hplace : place h.table tableSize (fnv1aHash (h.devices p).name).toNat
      (h.named (h.devices p).name) tableSize 0 none with
  | slot target =>
      left
      exact ⟨target, hp, UInt32.not_le.mp hload, rfl, rfl⟩
  | taken =>
      right
      simp
  | noRoom =>
      right
      simp

theorem Represents.insert (hr : Represents h d) {target : ℕ} {hash : UInt32}
    (hhash : hash = fnv1aHash (h.nameOf p)) (hp : p ≠ null)
    (hload : h.gRegistryCount < registryMaxLoad)
    (hfresh : d.lookup (h.nameOf p) = none)
    (hfree : (h.table target).occupant = none) {e : ℕ}
    (hprobe : probe tableSize hash.toNat e = target)
    (hclear : Clear h.table tableSize hash.toNat e) :
    Represents (h.setSlot target ⟨hash, p⟩ (h.gRegistryCount + 1))
      (d.insert (h.nameOf p) p) := by
  have hview : (⟨hash, p⟩ : RegistrySlot).view = .full ⟨hash, p⟩ := by
    refine RegistrySlot.view_eq_full_iff.mpr ⟨rfl, ?_⟩
    rw [hhash]
    exact fnv1aHash_ne_sentinel _
  have hcount : (h.gRegistryCount + 1).toNat = h.gRegistryCount.toNat + 1 := by
    have hlt := UInt32.lt_iff_toNat_lt.mp hload
    have hmax : registryMaxLoad.toNat = 96 := by decide
    rw [UInt32.toNat_add]
    simp only [UInt32.reduceToNat]
    omega
  subst hprobe
  refine ⟨?_, ?_, ?_, ?_⟩
  · rw [h.table_setSlot, hview]
    exact hr.models.insert (a := ⟨hash, p⟩) tableSize_pos hclear hfree hfresh
  · intro idx hidx a ha
    rw [h.table_setSlot, hview] at ha
    rcases update_full_iff.mp ha with ⟨-, rfl⟩ | ⟨-, ha⟩
    · exact ⟨hp, hhash⟩
    · exact hr.entry idx hidx a ha
  · have hnew : probe tableSize hash.toNat e ∉ occupied h.table tableSize := by
      intro hmem
      obtain ⟨-, a, ha⟩ := mem_occupied.mp hmem
      simp [ha, Slot.occupant] at hfree
    rw [h.table_setSlot, hview, occupied_insert (probe_lt tableSize_pos e),
      Finset.card_insert_of_notMem hnew, ← hr.count]
    exact hcount
  · rw [UInt32.le_iff_toNat_le]
    exact hcount.trans_le (UInt32.lt_iff_toNat_lt.mp hload)

theorem Represents.register (hr : Represents h d) (p : DevicePtr) :
    ((halDeviceRegister h p).2 = .success ∧ d.lookup (h.nameOf p) = none ∧
      Represents (halDeviceRegister h p).1 (d.insert (h.nameOf p) p)) ∨
    ((halDeviceRegister h p).2 ≠ .success ∧ (halDeviceRegister h p).1 = h) := by
  rcases halDeviceRegister_cases h p with
    ⟨target, hp, hload, hplace, heq⟩ | ⟨hsame, hfail⟩
  · left
    have hfresh := hr.models.lookup_eq_none_of_place
      (hr.tests_named (h.devices p).name) hplace
    obtain ⟨hfree, e, hprobe, hclear⟩ := place_spec hplace
    rw [heq]
    refine ⟨rfl, hfresh, ?_⟩
    exact (hr.insert (fnv1aHash_cstr _).symm hp hload hfresh hfree hprobe
      hclear).ref p
  · exact .inr ⟨hfail, hsame⟩

/-- The loop of `hal_device_unregister` finds the slot of the device, if it has
one. -/
theorem Represents.unregisterLoop_eq_some_iff (hr : Represents h d)
    (p : DevicePtr) {idx : ℕ} :
    unregisterLoop h (fnv1aHash (h.devices p).name) p tableSize 0 = some idx ↔
      idx < tableSize ∧ ∃ a, h.table idx = .full a ∧ a.device = p := by
  have htest : ∀ a, h.isDevice p a = true ↔
      a.hash = fnv1aHash (h.devices p).name ∧ a.device = p := by
    intro a
    simp [HalState.isDevice]
  have hhome : ∀ a, h.isDevice p a = true →
      a.home = (fnv1aHash (h.devices p).name).toNat := by
    intro a ha
    rw [RegistrySlot.home, ((htest a).mp ha).1]
  have huniq : ∀ i < tableSize, ∀ j < tableSize, ∀ a b,
      h.table i = .full a → h.table j = .full b →
      h.isDevice p a = true → h.isDevice p b = true → i = j := by
    intro i hi j hj a b ha hb hta htb
    have heq : a.device = b.device :=
      ((htest a).mp hta).2.trans ((htest b).mp htb).2.symm
    exact hr.models.distinct i hi j hj a b ha hb (congrArg h.nameOf heq)
  rw [unregisterLoop_eq_search,
    hr.models.unbroken.search_eq_some_iff tableSize_pos hhome huniq]
  refine and_congr_right fun hidx => exists_congr fun a => ?_
  refine and_congr_right fun ha => ?_
  rw [htest]
  constructor
  · exact fun hdev => hdev.2
  · rintro rfl
    exact ⟨(hr.entry idx hidx a ha).2.trans (fnv1aHash_cstr _), rfl⟩

theorem Represents.delete (hr : Represents h d) {idx : ℕ} {a : RegistrySlot}
    (hidx : idx < tableSize) (ha : h.table idx = .full a) :
    Represents (h.setSlot idx ⟨slotTombstone, null⟩ (h.gRegistryCount - 1))
      (d.erase (h.nameOf a.device)) := by
  have hview : (⟨slotTombstone, null⟩ : RegistrySlot).view = .tombstone := rfl
  have hmem : idx ∈ occupied h.table tableSize := mem_occupied.mpr ⟨hidx, a, ha⟩
  have hload := UInt32.le_iff_toNat_le.mp hr.load
  have hpos : 0 < h.gRegistryCount.toNat := by
    rw [hr.count]
    exact Finset.card_pos.mpr ⟨idx, hmem⟩
  have hcount : (h.gRegistryCount - 1).toNat = h.gRegistryCount.toNat - 1 :=
    UInt32.toNat_sub_of_le _ _ (UInt32.le_iff_toNat_le.mpr hpos)
  refine ⟨?_, ?_, ?_, ?_⟩
  · rw [h.table_setSlot, hview]
    exact hr.models.delete hidx ha
  · intro j hj b hb
    rw [h.table_setSlot, hview] at hb
    exact hr.entry j hj b (update_tombstone_iff.mp hb).2
  · rw [h.table_setSlot, hview, occupied_delete, Finset.card_erase_of_mem hmem,
      ← hr.count]
    exact hcount
  · rw [UInt32.le_iff_toNat_le]
    exact hcount.trans_le ((Nat.sub_le _ 1).trans hload)

theorem Represents.unregister (hr : Represents h d) (p : DevicePtr) :
    Represents (halDeviceUnregister h p) (d.remove (h.nameOf p) p) := by
  have hbound : d.lookup (h.nameOf p) = some p ↔ ∃ idx,
      unregisterLoop h (fnv1aHash (h.devices p).name) p tableSize 0 = some idx := by
    rw [hr.models.lookup]
    refine exists_congr fun idx => ?_
    rw [hr.unregisterLoop_eq_some_iff]
    refine and_congr_right fun _ => exists_congr fun a => and_congr_right fun _ => ?_
    constructor
    · exact fun hdev => hdev.2
    · rintro rfl
      exact ⟨rfl, rfl⟩
  by_cases hp : p = null
  · have hne : d.lookup (h.nameOf p) ≠ some p := fun hlk => (hr.of_lookup hlk).1 hp
    rw [Directory.remove, if_neg hne, halDeviceUnregister, if_pos hp]
    exact hr
  rw [halDeviceUnregister, if_neg hp]
  dsimp only
  cases hloop : unregisterLoop h (fnv1aHash (h.devices p).name) p tableSize 0 with
  | none =>
      have hne : d.lookup (h.nameOf p) ≠ some p := by
        intro hlk
        obtain ⟨idx, hidx⟩ := hbound.mp hlk
        rw [hloop] at hidx
        cases hidx
      rw [Directory.remove, if_neg hne]
      exact hr
  | some idx =>
      obtain ⟨hidx, a, ha, rfl⟩ := (hr.unregisterLoop_eq_some_iff p).mp hloop
      rw [Directory.remove, if_pos (hbound.mpr ⟨idx, hloop⟩)]
      exact (hr.delete hidx ha).unref a.device

theorem Represents.lookup_remove (hr : Represents h d) (p : DevicePtr)
    (name : List UInt8) :
    (d.remove (h.nameOf p) p).lookup name =
      if d.lookup name = some p then none else d.lookup name := by
  unfold Directory.remove
  by_cases hname : name = h.nameOf p
  · subst hname
    by_cases hbound : d.lookup (h.nameOf p) = some p
    · rw [if_pos hbound, if_pos hbound, Finmap.lookup_erase]
    · rw [if_neg hbound, if_neg hbound]
  · have hne : d.lookup name ≠ some p := fun hlk =>
      hname (hr.of_lookup hlk).2.symm
    rw [if_neg hne]
    split
    · exact Finmap.lookup_erase_ne hname
    · rfl

theorem Represents.list (hr : Represents h d) {maxDevices : ℤ}
    (hroom : (d.keys.card : ℤ) ≤ maxDevices) :
    (halDeviceList h true maxDevices).2 =
      (entries h.table tableSize).map RegistrySlot.device := by
  have hlen : ((entries h.table tableSize).map RegistrySlot.device).length ≤
      maxDevices.toNat := by
    rw [List.length_map, length_entries, hr.models.card_occupied]
    omega
  by_cases hmax : maxDevices ≤ 0
  · have hnil : (entries h.table tableSize).map RegistrySlot.device = [] := by
      rw [← List.length_eq_zero_iff]
      omega
    rw [halDeviceList, if_pos (Or.inr hmax), hnil]
  · rw [halDeviceList, if_neg (by simp [hmax]), listLoop_snd, ← List.range_eq_range']
    have hall : (maxDevices - ([] : List DevicePtr).length).toNat =
        maxDevices.toNat := by simp
    rw [hall, List.nil_append]
    exact List.take_of_length_le hlen

theorem represents_step (s : Session) (call : Call) (hkeep : KeepsNames s call)
    (hr : Represents s.hal s.directory) :
    Represents (s.step call).hal (s.step call).directory := by
  cases call with
  | register p =>
      rcases hr.register p with ⟨hok, -, hr'⟩ | ⟨hfail, hsame⟩
      · simpa only [Session.step, hok, if_true] using hr'
      · simpa only [Session.step, hfail, hsame, if_false] using hr
  | unregister p => exact hr.unregister p
  | find name =>
      cases name with
      | none => exact hr
      | some name =>
          simp only [Session.step, halDeviceFind]
          split
          · exact hr.ref _
          · exact hr
  | list out max =>
      simp only [Session.step, halDeviceList]
      split
      · exact hr
      · obtain ⟨hslots, hcount, hnames⟩ := listLoop_fst max s.hal tableSize 0 []
        exact hr.congr hslots hcount fun _ q _ => congrFun hnames q
  | ref p => exact hr.ref p
  | unref p => exact hr.unref p
  | write p device =>
      refine hr.congr rfl rfl ?_
      intro name q hq
      by_cases heq : q = p
      · subst heq
        simpa [Session.step, HalState.nameOf, HalState.setDevice] using
          hkeep ⟨name, hq⟩
      · simp [Session.step, HalState.nameOf, HalState.setDevice, heq]

/-- In every session in which the names of registered devices stay, the registry
is the directory of the registered devices. -/
theorem registry_refines_directory (calls : List Call)
    (hcalls : Guarded Session.step KeepsNames Session.initial calls) :
    let s := run Session.step Session.initial calls
    (∀ name p, s.directory.lookup name = some p →
      p ≠ null ∧ s.hal.nameOf p = name) ∧
    (∀ name, (halDeviceFind s.hal (some name)).2 =
      (s.directory.lookup (cstr name)).getD null) ∧
    (∀ p q, s.directory.lookup (s.hal.nameOf p) = some q →
      (halDeviceRegister s.hal p).2 ≠ .success ∧
        (halDeviceRegister s.hal p).1 = s.hal) ∧
    (∀ p name, (halDeviceFind (halDeviceUnregister s.hal p) (some name)).2 =
      if s.directory.lookup (cstr name) = some p then null
      else (halDeviceFind s.hal (some name)).2) ∧
    (∀ maxDevices : ℤ, s.directory.keys.card ≤ maxDevices →
      (halDeviceList s.hal true maxDevices).2.Nodup ∧
        ∀ p, p ∈ (halDeviceList s.hal true maxDevices).2 ↔
          ∃ name, s.directory.lookup name = some p) ∧
    s.hal.gRegistryCount.toNat = s.directory.keys.card := by
  intro s
  have hr : Represents s.hal s.directory :=
    run_invariant_of_guarded (I := fun s => Represents s.hal s.directory)
      represents_step represents_initial hcalls
  refine ⟨fun _ _ => hr.of_lookup, hr.find, ?_, ?_, ?_, ?_⟩
  · intro p q hq
    rcases hr.register p with ⟨-, hfresh, -⟩ | hfail
    · rw [hq] at hfresh
      cases hfresh
    · exact hfail
  · intro p name
    rw [(hr.unregister p).find, hr.find, hr.lookup_remove]
    split <;> rfl
  · intro maxDevices hroom
    rw [hr.list hroom]
    refine ⟨nodup_map_entries ?_, fun p => hr.models.mem_entries_iff⟩
    intro i hi j hj a b ha hb heq
    exact hr.models.distinct i hi j hj a b ha hb (congrArg s.hal.nameOf heq)
  · rw [hr.count, hr.models.card_occupied]

/-- Two devices whose names share the home slot, and the first one leaves. -/
def collidingCalls : List Call :=
  [.write 1 (halDeviceInit (ascii ['a', 'u', 'd', 'i', 'o'])),
    .write 2 (halDeviceInit (ascii ['g', 'p', 'i', 'o', '1', '2'])),
    .register 1, .register 2, .unregister 1]

theorem registry_refines_directory_colliding :
    Guarded Session.step KeepsNames Session.initial collidingCalls ∧
      (halDeviceFind (run Session.step Session.initial collidingCalls).hal
        (some (ascii ['g', 'p', 'i', 'o', '1', '2']))).2 = 2 := by
  have hcalls : Guarded Session.step KeepsNames Session.initial
      collidingCalls := by
    refine ⟨?_, ?_, trivial, trivial, trivial, trivial⟩
    · rintro ⟨name, hname⟩
      cases hname
    · rintro ⟨name, hname⟩
      cases hname
  refine ⟨hcalls, ?_⟩
  obtain ⟨-, hfind, -⟩ := registry_refines_directory collidingCalls hcalls
  rw [hfind]
  decide +kernel

end Hal

end Shinigami
