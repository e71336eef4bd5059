import Shinigami.Foundations.CString
import Shinigami.Foundations.LinearProbing

/-!
# Device interface and device registry

The common device structure of `hal_interface.c` and the registry that maps
names to devices. A device pointer is an address in a store of device
structures, with `null` for `NULL`; the registry is the array `g_registry` with
its counter. A slot is empty or deleted when its hash is one of two sentinel
values, and `fnv1aHash` never returns these.

The registry operations run under `g_registry_lock`, so each is one function of
the whole state. The loops are written as the source has them; the last section
shows that they are the walks of linear probing on the table of slots.
-/

namespace Shinigami

namespace Hal

open CString LinearProbing

/-- `hal_error_t`. -/
inductive HalError
  | success
  | generic
  | noDevice
  | busy
  | io
  | invalid
  | noMemory
  | timeout
  | notSupport
  | permission
  | overflow
deriving DecidableEq, Repr

/-- `hal_device_state_t`. -/
inductive HalDeviceState
  | closed
  | opened
  | active
  | error
deriving DecidableEq, Repr

/-- The address of a device structure. -/
abbrev DevicePtr := ℕ

def null : DevicePtr := 0

/-- The vtable entries that a teardown calls, by their effect on the state of
the device. -/
structure HwDeviceOps where
  stop : Option (HalDeviceState → HalDeviceState)
  close : Option (HalDeviceState → HalDeviceState)

/-- `hw_device_t`: the fields that the registry and the reference counting use.
`cleanup` says whether the callback is set. -/
structure HwDevice where
  name : List UInt8
  state : HalDeviceState
  ops : Option HwDeviceOps
  cleanup : Bool
  refCount : Int32
  magic : UInt32

/-- A structure of zero bytes. -/
def HwDevice.zero : HwDevice := ⟨[], .closed, none, false, 0, 0⟩

def halMaxNameLen : ℕ := 64

def halDeviceMagic : UInt32 := 0xD3A1C0DE

/-- `registry_slot_t`. -/
structure RegistrySlot where
  hash : UInt32
  device : DevicePtr
deriving DecidableEq, Repr

def halRegistrySize : UInt32 := 128

def tableSize : ℕ := halRegistrySize.toNat

def registryMaxLoad : UInt32 := halRegistrySize * 3 / 4

def slotEmpty : UInt32 := 0

def slotTombstone : UInt32 := 0xFFFFFFFF

/-- What the last `hal_device_unref` does to a device. -/
inductive TeardownCall
  | stop
  | close
  | cleanup
  | destroy
  | free
deriving DecidableEq, Repr

structure HalState where
  gRegistry : ℕ → RegistrySlot
  gRegistryCount : UInt32
  devices : DevicePtr → HwDevice
  teardowns : List (DevicePtr × TeardownCall)

/-- The state at program start. -/
def HalState.initial : HalState where
  gRegistry := fun _ => ⟨slotEmpty, null⟩
  gRegistryCount := 0
  devices := fun _ => HwDevice.zero
  teardowns := []

/-- The name a device structure holds. -/
def HalState.nameOf (h : HalState) (devicePtr : DevicePtr) : List UInt8 :=
  cstr (h.devices devicePtr).name

def HalState.setDevice (h : HalState) (devicePtr : DevicePtr)
    (device : HwDevice) : HalState :=
  { h with devices := Function.update h.devices devicePtr device }

def fnv1aHash (str : List UInt8) : UInt32 :=
  let hash := (cstr str).foldl
    (fun (hash : UInt32) b => (hash ^^^ b.toUInt32) * 16777619) 2166136261
  let hash := if hash = slotEmpty then 1 else hash
  if hash = slotTombstone then slotTombstone - 1 else hash

/-- The structure that `hal_device_init` leaves, when the lock of the device can
be initialised. -/
def halDeviceInit (deviceName : List UInt8) : HwDevice where
  name := strncpyField halMaxNameLen deviceName
  state := .closed
  ops := none
  cleanup := false
  refCount := 1
  magic := halDeviceMagic

def halDeviceRef (h : HalState) (devicePtr : DevicePtr) : HalState :=
  if devicePtr = null then h
  else
    let device := h.devices devicePtr
    h.setDevice devicePtr { device with refCount := device.refCount + 1 }

def teardownStop (device : HwDevice) : HwDevice × List TeardownCall :=
  match device.state, device.ops.bind HwDeviceOps.stop with
  | .active, some stop => ({ device with state := stop device.state }, [.stop])
  | _, _ => (device, [])

def teardownClose (device : HwDevice) : HwDevice × List TeardownCall :=
  match device.state, device.ops.bind HwDeviceOps.close with
  | .closed, _ => (device, [])
  | _, some close => ({ device with state := close device.state }, [.close])
  | _, none => (device, [])

/-- The teardown by the last owner: the structure that is left when it is
freed, and the calls made. -/
def teardown (device : HwDevice) : HwDevice × List TeardownCall :=
  let stopped := teardownStop device
  let closed := teardownClose stopped.1
  let cleaned := if closed.1.cleanup then [TeardownCall.cleanup] else []
  ({ closed.1 with magic := 0 },
    stopped.2 ++ closed.2 ++ cleaned ++ [.destroy, .free])

def halDeviceUnref (h : HalState) (devicePtr : DevicePtr) : HalState :=
  if devicePtr = null then h
  else
    let old := (h.devices devicePtr).refCount
    let device := { h.devices devicePtr with refCount := old - 1 }
    if old ≠ 1 then h.setDevice devicePtr device
    else
      { h.setDevice devicePtr (teardown device).1 with
        teardowns := h.teardowns ++
          (teardown device).2.map fun call => (devicePtr, call) }

@[simp] theorem halDeviceRef_gRegistry (h : HalState) (devicePtr : DevicePtr) :
    (halDeviceRef h devicePtr).gRegistry = h.gRegistry := by
  unfold halDeviceRef
  split <;> rfl

@[simp] theorem halDeviceRef_gRegistryCount (h : HalState)
    (devicePtr : DevicePtr) :
    (halDeviceRef h devicePtr).gRegistryCount = h.gRegistryCount := by
  unfold halDeviceRef
  split <;> rfl

@[simp] theorem halDeviceUnref_gRegistry (h : HalState)
    (devicePtr : DevicePtr) :
    (halDeviceUnref h devicePtr).gRegistry = h.gRegistry := by
  simp only [halDeviceUnref]
  split_ifs <;> rfl

@[simp] theorem halDeviceUnref_gRegistryCount (h : HalState)
    (devicePtr : DevicePtr) :
    (halDeviceUnref h devicePtr).gRegistryCount = h.gRegistryCount := by
  simp only [halDeviceUnref]
  split_ifs <;> rfl

theorem HalState.nameOf_setDevice (h : HalState) {devicePtr : DevicePtr}
    {device : HwDevice} (hname : cstr device.name = h.nameOf devicePtr) :
    (h.setDevice devicePtr device).nameOf = h.nameOf := by
  funext q
  by_cases hq : q = devicePtr
  · simpa [HalState.nameOf, HalState.setDevice, hq] using hname
  · simp [HalState.nameOf, HalState.setDevice, hq]

@[simp] theorem halDeviceRef_nameOf (h : HalState) (devicePtr : DevicePtr) :
    (halDeviceRef h devicePtr).nameOf = h.nameOf := by
  unfold halDeviceRef
  split
  · rfl
  · exact h.nameOf_setDevice rfl

theorem teardown_name (device : HwDevice) :
    (teardown device).1.name = device.name := by
  have hstop : (teardownStop device).1.name = device.name := by
    unfold teardownStop
    split <;> rfl
  have hclose : ∀ d : HwDevice, (teardownClose d).1.name = d.name := by
    intro d
    unfold teardownClose
    split <;> rfl
  exact (hclose _).trans hstop

@[simp] theorem halDeviceUnref_nameOf (h : HalState) (devicePtr : DevicePtr) :
    (halDeviceUnref h devicePtr).nameOf = h.nameOf := by
  simp only [halDeviceUnref]
  split_ifs
  · rfl
  · exact h.nameOf_setDevice rfl
  · exact h.nameOf_setDevice (congrArg cstr (teardown_name _))

/-- `(hash + i) & (HAL_REGISTRY_SIZE - 1)`. -/
def slotIdx (hash : UInt32) (i : ℕ) : ℕ :=
  ((hash + UInt32.ofNat i) &&& (halRegistrySize - 1)).toNat

/-- The loop of `hal_device_register` from step `i`. -/
def registerLoop (h : HalState) (hash : UInt32) (name : List UInt8) :
    ℕ → ℕ → Option ℕ → Placement
  | 0, _, _ => .noRoom
  | fuel + 1, i, tombstoneSlot =>
      let idx := slotIdx hash i
      let slot := h.gRegistry idx
      if slot.hash = slotEmpty then .slot (tombstoneSlot.getD idx)
      else if slot.hash = slotTombstone then
        registerLoop h hash name fuel (i + 1) (tombstoneSlot.or (some idx))
      else if slot.hash = hash ∧ strcmpEq (h.devices slot.device).name name then
        .taken
      else registerLoop h hash name fuel (i + 1) tombstoneSlot

def halDeviceRegister (h : HalState) (devicePtr : DevicePtr) :
    HalState × HalError :=
  if devicePtr = null then (h, .invalid)
  else
    let name := (h.devices devicePtr).name
    let hash := fnv1aHash name
    if registryMaxLoad ≤ h.gRegistryCount then (h, .noMemory)
    else
      match registerLoop h hash name tableSize 0 none with
      | .slot target =>
          (halDeviceRef { h with
            gRegistry := Function.update h.gRegistry target ⟨hash, devicePtr⟩
            gRegistryCount := h.gRegistryCount + 1 } devicePtr, .success)
      | .taken => (h, .busy)
      | .noRoom => (h, .noMemory)

/-- The loop of `hal_device_unregister` from step `i`. -/
def unregisterLoop (h : HalState) (hash : UInt32) (devicePtr : DevicePtr) :
    ℕ → ℕ → Option ℕ
  | 0, _ => none
  | fuel + 1, i =>
      let idx := slotIdx hash i
      let slot := h.gRegistry idx
      if slot.hash = slotEmpty then none
      else if slot.hash = hash ∧ slot.device = devicePtr then some idx
      else unregisterLoop h hash devicePtr fuel (i + 1)

def halDeviceUnregister (h : HalState) (devicePtr : DevicePtr) : HalState :=
  if devicePtr = null then h
  else
    let hash := fnv1aHash (h.devices devicePtr).name
    match unregisterLoop h hash devicePtr tableSize 0 with
    | some idx =>
        halDeviceUnref { h with
          gRegistry := Function.update h.gRegistry idx ⟨slotTombstone, null⟩
          gRegistryCount := h.gRegistryCount - 1 } devicePtr
    | none => h

/-- The loop of `hal_device_find` from step `i`. -/
def findLoop (h : HalState) (hash : UInt32) (deviceName : List UInt8) :
    ℕ → ℕ → Option ℕ
  | 0, _ => none
  | fuel + 1, i =>
      let idx := slotIdx hash i
      let slot := h.gRegistry idx
      if slot.hash = slotEmpty then none
      else if slot.hash = slotTombstone then
        findLoop h hash deviceName fuel (i + 1)
      else if slot.hash = hash ∧
          strcmpEq (h.devices slot.device).name deviceName then some idx
      else findLoop h hash deviceName fuel (i + 1)

/-- `hal_device_find`; a name `none` is a `NULL` argument. -/
def halDeviceFind (h : HalState) (deviceName : Option (List UInt8)) :
    HalState × DevicePtr :=
  match deviceName with
  | none => (h, null)
  | some deviceName =>
      match findLoop h (fnv1aHash deviceName) deviceName tableSize 0 with
      | some idx =>
          let found := (h.gRegistry idx).device
          (halDeviceRef h found, found)
      | none => (h, null)

/-- The loop of `hal_device_list` from slot `i`, with the pointers written so
far. -/
def listLoop (maxDevices : ℤ) (h : HalState) :
    ℕ → ℕ → List DevicePtr → HalState × List DevicePtr
  | 0, _, devicesOut => (h, devicesOut)
  | fuel + 1, i, devicesOut =>
      if (devicesOut.length : ℤ) < maxDevices then
        let slot := h.gRegistry i
        if slot.hash = slotEmpty ∨ slot.hash = slotTombstone then
          listLoop maxDevices h fuel (i + 1) devicesOut
        else
          listLoop maxDevices (halDeviceRef h slot.device) fuel (i + 1)
            (devicesOut ++ [slot.device])
      else (h, devicesOut)

/-- `hal_device_list`: the pointers written to the array, whose number is the
result. `devicesOut` says whether the caller passed an array. -/
def halDeviceList (h : HalState) (devicesOut : Bool) (maxDevices : ℤ) :
    HalState × List DevicePtr :=
  if ¬ devicesOut ∨ maxDevices ≤ 0 then (h, [])
  else listLoop maxDevices h tableSize 0 []

/-- The slot of the array `g_registry` as a slot of a probing table. -/
def RegistrySlot.view (slot : RegistrySlot) : Slot RegistrySlot :=
  if slot.hash = slotEmpty then .empty
  else if slot.hash = slotTombstone then .tombstone
  else .full slot

def HalState.table (h : HalState) (idx : ℕ) : Slot RegistrySlot :=
  (h.gRegistry idx).view

@[simp] theorem halDeviceRef_table (h : HalState) (devicePtr : DevicePtr) :
    (halDeviceRef h devicePtr).table = h.table := by
  funext idx
  simp [HalState.table]

def RegistrySlot.home (slot : RegistrySlot) : ℕ := slot.hash.toNat

theorem tableSize_pos : 0 < tableSize := by decide

@[simp] theorem slotTombstone_ne_slotEmpty : slotTombstone ≠ slotEmpty := by
  decide

theorem HalState.table_of_empty (h : HalState) {idx : ℕ}
    (hempty : (h.gRegistry idx).hash = slotEmpty) : h.table idx = .empty :=
  if_pos hempty

theorem HalState.table_of_tombstone (h : HalState) {idx : ℕ}
    (htomb : (h.gRegistry idx).hash = slotTombstone) : h.table idx = .tombstone := by
  have hempty : (h.gRegistry idx).hash ≠ slotEmpty := by
    rw [htomb]
    exact slotTombstone_ne_slotEmpty
  rw [HalState.table, RegistrySlot.view, if_neg hempty, if_pos htomb]

theorem HalState.table_of_occupied (h : HalState) {idx : ℕ}
    (hempty : (h.gRegistry idx).hash ≠ slotEmpty)
    (htomb : (h.gRegistry idx).hash ≠ slotTombstone) :
    h.table idx = .full (h.gRegistry idx) := by
  rw [HalState.table, RegistrySlot.view, if_neg hempty, if_neg htomb]

theorem slotIdx_eq_probe (hash : UInt32) (i : ℕ) :
    slotIdx hash i = probe tableSize hash.toNat i := by
  have hmask : (halRegistrySize - 1).toNat = 2 ^ 7 - 1 := by decide
  have hsize : tableSize = 2 ^ 7 := by decide
  rw [slotIdx, UInt32.toNat_and, hmask, Nat.and_two_pow_sub_one_eq_mod,
    UInt32.toNat_add, UInt32.toNat_ofNat', probe, hsize]
  omega

theorem slotIdx_lt (hash : UInt32) (i : ℕ) : slotIdx hash i < tableSize := by
  rw [slotIdx_eq_probe]
  exact probe_lt tableSize_pos i

theorem RegistrySlot.view_eq_full_iff {slot a : RegistrySlot} :
    slot.view = .full a ↔
      slot = a ∧ a.hash ≠ slotEmpty ∧ a.hash ≠ slotTombstone := by
  by_cases hempty : slot.hash = slotEmpty
  · simp only [RegistrySlot.view, hempty, if_true]
    constructor
    · intro h
      cases h
    · rintro ⟨rfl, hne, -⟩
      exact absurd hempty hne
  by_cases htomb : slot.hash = slotTombstone
  · simp only [RegistrySlot.view, htomb, slotTombstone_ne_slotEmpty, if_true,
      if_false]
    constructor
    · intro h
      cases h
    · rintro ⟨rfl, -, hne⟩
      exact absurd htomb hne
  · simp only [RegistrySlot.view, hempty, htomb, if_false, Slot.full.injEq]
    constructor
    · rintro rfl
      exact ⟨rfl, hempty, htomb⟩
    · exact fun h => h.1

theorem fnv1aHash_ne_sentinel (str : List UInt8) :
    fnv1aHash str ≠ slotEmpty ∧ fnv1aHash str ≠ slotTombstone := by
  unfold fnv1aHash
  generalize (cstr str).foldl _ _ = hash
  by_cases hempty : hash = slotEmpty
  · simp only [hempty, if_true]
    decide
  · simp only [hempty, if_false]
    by_cases htomb : hash = slotTombstone
    · simp only [htomb, if_true]
      decide
    · simp only [htomb, if_false]
      exact ⟨hempty, htomb⟩

theorem fnv1aHash_cstr (str : List UInt8) : fnv1aHash (cstr str) = fnv1aHash str := by
  rw [fnv1aHash, fnv1aHash, cstr_eq_self (zero_notMem_cstr str)]

def HalState.named (h : HalState) (name : List UInt8) (slot : RegistrySlot) :
    Bool :=
  slot.hash = fnv1aHash name ∧ strcmpEq (h.devices slot.device).name name

/-- The pointer test of the loop of `hal_device_unregister`. -/
def HalState.isDevice (h : HalState) (devicePtr : DevicePtr)
    (slot : RegistrySlot) : Bool :=
  slot.hash = fnv1aHash (h.devices devicePtr).name ∧ slot.device = devicePtr

theorem registerLoop_eq_place (h : HalState) (name : List UInt8) (fuel i : ℕ)
    (tomb : Option ℕ) :
    registerLoop h (fnv1aHash name) name fuel i tomb =
      place h.table tableSize (fnv1aHash name).toNat (h.named name) fuel i
        tomb := by
  induction fuel generalizing i tomb with
  | zero => rfl
  | succ fuel ih =>
      rw [registerLoop, place]
      simp only [← slotIdx_eq_probe, ih]
      generalize slotIdx (fnv1aHash name) i = idx
      by_cases hempty : (h.gRegistry idx).hash = slotEmpty
      · simp [h.table_of_empty hempty, hempty]
      by_cases htomb : (h.gRegistry idx).hash = slotTombstone
      · simp [h.table_of_tombstone htomb, htomb]
      · simp [h.table_of_occupied hempty htomb, hempty, htomb, HalState.named]

theorem findLoop_eq_search (h : HalState) (name : List UInt8) (fuel i : ℕ) :
    findLoop h (fnv1aHash name) name fuel i =
      search h.table tableSize (fnv1aHash name).toNat (h.named name) fuel i := by
  induction fuel generalizing i with
  | zero => rfl
  | succ fuel ih =>
      rw [findLoop, search]
      simp only [← slotIdx_eq_probe, ih]
      generalize slotIdx (fnv1aHash name) i = idx
      by_cases hempty : (h.gRegistry idx).hash = slotEmpty
      · simp [h.table_of_empty hempty, hempty]
      by_cases htomb : (h.gRegistry idx).hash = slotTombstone
      · simp [h.table_of_tombstone htomb, htomb]
      · simp [h.table_of_occupied hempty htomb, hempty, htomb, HalState.named]

theorem unregisterLoop_eq_search (h : HalState) (devicePtr : DevicePtr)
    (fuel i : ℕ) :
    unregisterLoop h (fnv1aHash (h.devices devicePtr).name) devicePtr fuel i =
      search h.table tableSize (fnv1aHash (h.devices devicePtr).name).toNat
        (h.isDevice devicePtr) fuel i := by
  induction fuel generalizing i with
  | zero => rfl
  | succ fuel ih =>
      rw [unregisterLoop, search]
      simp only [← slotIdx_eq_probe, ih]
      generalize slotIdx (fnv1aHash (h.devices devicePtr).name) i = idx
      by_cases hempty : (h.gRegistry idx).hash = slotEmpty
      · simp [h.table_of_empty hempty, hempty]
      by_cases htomb : (h.gRegistry idx).hash = slotTombstone
      · have hne := (fnv1aHash_ne_sentinel (h.devices devicePtr).name).2.symm
        simp [h.table_of_tombstone htomb, htomb, hne]
      · simp [h.table_of_occupied hempty htomb, hempty, HalState.isDevice]

theorem listLoop_fst (maxDevices : ℤ) (h : HalState) (fuel i : ℕ)
    (devicesOut : List DevicePtr) :
    (listLoop maxDevices h fuel i devicesOut).1.gRegistry = h.gRegistry ∧
      (listLoop maxDevices h fuel i devicesOut).1.gRegistryCount =
        h.gRegistryCount ∧
      (listLoop maxDevices h fuel i devicesOut).1.nameOf = h.nameOf := by
  induction fuel generalizing h i devicesOut with
  | zero => exact ⟨rfl, rfl, rfl⟩
  | succ fuel ih =>
      rw [listLoop]
      dsimp only
      split_ifs
      · exact ih h (i + 1) devicesOut
      · simpa using ih (halDeviceRef h (h.gRegistry i).device) (i + 1)
          (devicesOut ++ [(h.gRegistry i).device])
      · exact ⟨rfl, rfl, rfl⟩

/-- The enumeration writes the occupied slots in order while there is room. -/
theorem listLoop_snd (maxDevices : ℤ) (h : HalState) (fuel i : ℕ)
    (devicesOut : List DevicePtr) :
    (listLoop maxDevices h fuel i devicesOut).2 =
      devicesOut ++ (((List.range' i fuel).filterMap
        fun idx => (h.table idx).occupant).map RegistrySlot.device).take
          (maxDevices - devicesOut.length).toNat := by
  induction fuel generalizing h i devicesOut with
  | zero => simp [listLoop]
  | succ fuel ih =>
      rw [listLoop, List.range'_succ]
      by_cases hroom : (devicesOut.length : ℤ) < maxDevices
      · rw [if_pos hroom]
        by_cases hfree : (h.gRegistry i).hash = slotEmpty ∨
            (h.gRegistry i).hash = slotTombstone
        · have hnone : (h.table i).occupant = none := by
            rcases hfree with hempty | htomb
            · rw [h.table_of_empty hempty]
              rfl
            · rw [h.table_of_tombstone htomb]
              rfl
          rw [if_pos hfree, ih]
          simp only [List.filterMap_cons, hnone]
        · have hsome : (h.table i).occupant = some (h.gRegistry i) := by
            rw [h.table_of_occupied (not_or.mp hfree).1 (not_or.mp hfree).2]
            rfl
          have hleft : (maxDevices - devicesOut.length).toNat =
              (maxDevices - (devicesOut.length + 1 : ℕ)).toNat + 1 := by
            omega
          rw [if_neg hfree, ih, hleft]
          simp only [List.filterMap_cons, hsome, List.map_cons,
            List.take_succ_cons, List.length_append, List.length_singleton,
            List.append_assoc, List.singleton_append, halDeviceRef_table]
      · have hzero : (maxDevices - devicesOut.length).toNat = 0 := by omega
        rw [if_neg hroom, hzero]
        simp

end Hal

end Shinigami
