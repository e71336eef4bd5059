import Shinigami.Foundations.Run
import Shinigami.Hal.Registry

/-!
# Reference counting under concurrency

Clients that call the device interface at the same time, one atomic step after the
other. A walk through the registry reads one slot in a step and holds
`g_registry_lock` from its first step to its last; the counter of a device is changed
in one step, and a teardown is the step behind the decrement that found the counter
at 1. A blocked client stays where it is.

`owners` and `status` are not variables of the program. A reference belongs to a client,
to the registry, or to a client that has taken a device out of the registry and owes
the registry's reference.
-/

namespace Shinigami

namespace Hal

open CString

inductive Pc
  | idle
  | registerLock (p : DevicePtr)
  | registerWalk (p : DevicePtr) (i : ℕ) (tombstoneSlot : Option ℕ)
  | registerRef (p : DevicePtr)
  | unregisterLock (p : DevicePtr)
  | unregisterWalk (p : DevicePtr) (i : ℕ)
  | unregisterUnref (p : DevicePtr)
  | findLock (deviceName : List UInt8)
  | findWalk (deviceName : List UInt8) (i : ℕ)
  | findRef (p : DevicePtr)
  | listLock (maxDevices : ℤ)
  | listWalk (maxDevices : ℤ) (i : ℕ) (devicesOut : List DevicePtr)
  | listRef (maxDevices : ℤ) (i : ℕ) (devicesOut : List DevicePtr) (p : DevicePtr)
  | teardown (p : DevicePtr)
deriving DecidableEq

def Pc.writes : Pc → Bool
  | .registerWalk .. | .registerRef _ | .unregisterWalk .. => true
  | _ => false

def Pc.reads : Pc → Bool
  | .findWalk .. | .findRef _ | .listWalk .. | .listRef .. => true
  | _ => false

inductive Owner (ω : Type*)
  | client (c : ω)
  | registry
  | leaving (c : ω)
deriving DecidableEq

inductive Status (ω : Type*)
  | unborn
  | live
  | tearing (c : ω)
  | torn
deriving DecidableEq

/-- The device interface with its clients. `registering` is the device that is in a slot
but has not got the registry's reference yet, and `torn` the devices whose teardown
has run, as it found them. -/
structure RefState (ω : Type*) where
  hal : HalState
  pc : ω → Pc
  writer : Option ω
  readers : List ω
  registering : Option DevicePtr
  owners : DevicePtr → List (Owner ω)
  status : DevicePtr → Status ω
  torn : List (DevicePtr × HwDevice)

/-- The calls of a client, and its use of a device between calls, which may change
the state of the device. -/
inductive RefCall
  | create (p : DevicePtr) (device : HwDevice)
  | use (p : DevicePtr) (state : HalDeviceState)
  | register (p : DevicePtr)
  | unregister (p : DevicePtr)
  | find (deviceName : Option (List UInt8))
  | list (devicesOut : Bool) (maxDevices : ℤ)
  | ref (p : DevicePtr)
  | unref (p : DevicePtr)

inductive RefEvent (ω : Type*)
  | call (c : ω) (call : RefCall)
  | advance (c : ω)

/-- The decrement of `hal_device_unref`. -/
def decRef (h : HalState) (p : DevicePtr) : HalState :=
  h.setDevice p { h.devices p with refCount := (h.devices p).refCount - 1 }

/-- The teardown of `hal_device_unref`. -/
def runTeardown (h : HalState) (p : DevicePtr) : HalState :=
  { h.setDevice p (teardown (h.devices p)).1 with
    teardowns := h.teardowns ++ (teardown (h.devices p)).2.map fun call => (p, call) }

/-- `hal_device_unref` is its decrement and, behind the last one, the teardown. -/
theorem halDeviceUnref_eq (h : HalState) {p : DevicePtr} (hp : p ≠ null) :
    halDeviceUnref h p =
      if (h.devices p).refCount = 1 then runTeardown (decRef h p) p else decRef h p := by
  by_cases hold : (h.devices p).refCount = 1
  · simp [halDeviceUnref, hp, hold, runTeardown, decRef, HalState.setDevice]
  · simp [halDeviceUnref, hp, hold, decRef]

def RegistrySlot.occupied (slot : RegistrySlot) : Bool :=
  slot.hash != slotEmpty && slot.hash != slotTombstone

namespace RefState

variable {ω : Type*} [DecidableEq ω]

def goto (s : RefState ω) (c : ω) (pc : Pc) : RefState ω :=
  { s with pc := Function.update s.pc c pc }

def unlock (s : RefState ω) (c : ω) : RefState ω :=
  { s.goto c .idle with
    writer := if s.writer = some c then none else s.writer
    readers := s.readers.filter (· ≠ c) }

def lockWrite (s : RefState ω) (c : ω) (pc : Pc) : RefState ω :=
  if s.writer = none ∧ s.readers = [] then { s.goto c pc with writer := some c } else s

def lockRead (s : RefState ω) (c : ω) (pc : Pc) : RefState ω :=
  if s.writer = none then { s.goto c pc with readers := c :: s.readers } else s

/-- A step of `hal_device_ref`, with the new owner. -/
def addRef (s : RefState ω) (p : DevicePtr) (owner : Owner ω) : RefState ω :=
  { s with
    hal := halDeviceRef s.hal p
    owners := Function.update s.owners p (owner :: s.owners p) }

/-- The decrement of `hal_device_unref`; whoever finds 1 goes on to the teardown. -/
def dropRef (s : RefState ω) (c : ω) (p : DevicePtr) (owner : Owner ω) : RefState ω :=
  let dropped :=
    { s with
      hal := decRef s.hal p
      owners := Function.update s.owners p ((s.owners p).erase owner) }
  if (s.hal.devices p).refCount = 1 then
    { dropped.goto c (.teardown p) with status := Function.update s.status p (.tearing c) }
  else dropped.goto c .idle

def Holds (s : RefState ω) (c : ω) (p : DevicePtr) : Prop := .client c ∈ s.owners p

instance (s : RefState ω) (c : ω) (p : DevicePtr) : Decidable (s.Holds c p) :=
  inferInstanceAs (Decidable (_ ∈ _))

/-- A call, from a client that is in none. A client operates on a device only while it
holds a reference, and gives back only its own. -/
def begin (s : RefState ω) (c : ω) : RefCall → RefState ω
  | .create p device =>
      if p ≠ null ∧ s.status p = .unborn then
        { s with
          hal := s.hal.setDevice p { device with refCount := 1 }
          owners := Function.update s.owners p [.client c]
          status := Function.update s.status p .live }
      else s
  | .use p state =>
      if s.Holds c p then
        { s with hal := s.hal.setDevice p { s.hal.devices p with state := state } }
      else s
  | .register p => if s.Holds c p then s.goto c (.registerLock p) else s
  | .unregister p => if s.Holds c p then s.goto c (.unregisterLock p) else s
  | .find none => s
  | .find (some deviceName) => s.goto c (.findLock deviceName)
  | .list devicesOut maxDevices =>
      if ¬devicesOut ∨ maxDevices ≤ 0 then s else s.goto c (.listLock maxDevices)
  | .ref p => if s.Holds c p then s.addRef p (.client c) else s
  | .unref p => if s.Holds c p then s.dropRef c p (.client c) else s

/-- The next step of `hal_device_register` in its walk. -/
def registerStep (s : RefState ω) (c : ω) (p : DevicePtr) (i : ℕ)
    (tombstoneSlot : Option ℕ) : RefState ω :=
  if tableSize ≤ i then s.unlock c
  else
    let name := (s.hal.devices p).name
    let hash := fnv1aHash name
    let idx := slotIdx hash i
    let slot := s.hal.gRegistry idx
    if slot.hash = slotEmpty then
      let target := tombstoneSlot.getD idx
      { s.goto c (.registerRef p) with
        hal := s.hal.setSlot target ⟨hash, p⟩ (s.hal.gRegistryCount + 1)
        registering := some p }
    else if slot.hash = slotTombstone then
      s.goto c (.registerWalk p (i + 1) (tombstoneSlot.or (some idx)))
    else if slot.hash = hash ∧ strcmpEq (s.hal.devices slot.device).name name then s.unlock c
    else s.goto c (.registerWalk p (i + 1) tombstoneSlot)

/-- The next step of `hal_device_unregister` in its walk. -/
def unregisterStep (s : RefState ω) (c : ω) (p : DevicePtr) (i : ℕ) : RefState ω :=
  if tableSize ≤ i then s.unlock c
  else
    let hash := fnv1aHash (s.hal.devices p).name
    let idx := slotIdx hash i
    let slot := s.hal.gRegistry idx
    if slot.hash = slotEmpty then s.unlock c
    else if slot.hash = hash ∧ slot.device = p then
      { (s.unlock c).goto c (.unregisterUnref p) with
        hal := s.hal.setSlot idx ⟨slotTombstone, null⟩ (s.hal.gRegistryCount - 1)
        owners := Function.update s.owners p (.leaving c :: (s.owners p).erase .registry) }
    else s.goto c (.unregisterWalk p (i + 1))

/-- The next step of `hal_device_find` in its walk. -/
def findStep (s : RefState ω) (c : ω) (deviceName : List UInt8) (i : ℕ) : RefState ω :=
  if tableSize ≤ i then s.unlock c
  else
    let hash := fnv1aHash deviceName
    let slot := s.hal.gRegistry (slotIdx hash i)
    if slot.hash = slotEmpty then s.unlock c
    else if slot.hash = slotTombstone then s.goto c (.findWalk deviceName (i + 1))
    else if slot.hash = hash ∧ strcmpEq (s.hal.devices slot.device).name deviceName then
      s.goto c (.findRef slot.device)
    else s.goto c (.findWalk deviceName (i + 1))

/-- The next step of `hal_device_list` in its walk. -/
def listStep (s : RefState ω) (c : ω) (maxDevices : ℤ) (i : ℕ)
    (devicesOut : List DevicePtr) : RefState ω :=
  if i < tableSize ∧ (devicesOut.length : ℤ) < maxDevices then
    let slot := s.hal.gRegistry i
    if slot.hash = slotEmpty ∨ slot.hash = slotTombstone then
      s.goto c (.listWalk maxDevices (i + 1) devicesOut)
    else s.goto c (.listRef maxDevices i (devicesOut ++ [slot.device]) slot.device)
  else s.unlock c

def advance (s : RefState ω) (c : ω) : RefState ω :=
  match s.pc c with
  | .idle => s
  | .registerLock p =>
      if registryMaxLoad ≤ s.hal.gRegistryCount then
        if s.writer = none ∧ s.readers = [] then s.goto c .idle else s
      else s.lockWrite c (.registerWalk p 0 none)
  | .registerWalk p i tombstoneSlot => s.registerStep c p i tombstoneSlot
  | .registerRef p =>
      { (s.addRef p .registry).unlock c with registering := none }
  | .unregisterLock p => s.lockWrite c (.unregisterWalk p 0)
  | .unregisterWalk p i => s.unregisterStep c p i
  | .unregisterUnref p => s.dropRef c p (.leaving c)
  | .findLock deviceName => s.lockRead c (.findWalk deviceName 0)
  | .findWalk deviceName i => s.findStep c deviceName i
  | .findRef p => (s.addRef p (.client c)).unlock c
  | .listLock maxDevices => s.lockRead c (.listWalk maxDevices 0 [])
  | .listWalk maxDevices i devicesOut => s.listStep c maxDevices i devicesOut
  | .listRef maxDevices i devicesOut p =>
      (s.addRef p (.client c)).goto c (.listWalk maxDevices (i + 1) devicesOut)
  | .teardown p =>
      { s.goto c .idle with
        hal := runTeardown s.hal p
        status := Function.update s.status p .torn
        torn := s.torn ++ [(p, s.hal.devices p)] }

def step (s : RefState ω) : RefEvent ω → RefState ω
  | .call c call => if s.pc c = .idle then s.begin c call else s
  | .advance c => s.advance c

/-- No device, no client in a call. -/
def initial : RefState ω where
  hal := HalState.initial
  pc := fun _ => .idle
  writer := none
  readers := []
  registering := none
  owners := fun _ => []
  status := fun _ => .unborn
  torn := []

def advanceTouches (s : RefState ω) (c : ω) : List DevicePtr :=
  match s.pc c with
  | .registerWalk p i _ =>
      if tableSize ≤ i then []
      else
        let slot := s.hal.gRegistry (slotIdx (fnv1aHash (s.hal.devices p).name) i)
        if slot.occupied ∧ slot.hash = fnv1aHash (s.hal.devices p).name then [slot.device, p]
        else []
  | .findWalk deviceName i =>
      if tableSize ≤ i then []
      else
        let slot := s.hal.gRegistry (slotIdx (fnv1aHash deviceName) i)
        if slot.occupied ∧ slot.hash = fnv1aHash deviceName then [slot.device] else []
  | .registerRef p | .unregisterUnref p | .findRef p | .listRef _ _ _ p | .teardown p => [p]
  | _ => []

def touches (s : RefState ω) : RefEvent ω → List DevicePtr
  | .call c (.use p _) | .call c (.register p) | .call c (.unregister p) | .call c (.ref p)
  | .call c (.unref p) => if s.pc c = .idle ∧ s.Holds c p then [p] else []
  | .call _ _ => []
  | .advance c => s.advanceTouches c

end RefState

end Hal

end Shinigami
