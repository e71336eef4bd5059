import Shinigami.Foundations.PoolChain
import Shinigami.ServiceManager.Infrastructure.Protocol

/-!
# Service registry

The registry of `sm_registry.c`: the compacted array of entries, the node pool
with its bump allocator, and the table of bucket heads that turns a name into an
array index. Arrays are functions on indices and pointers into the pool are pool
indices. Every operation runs under the registry lock, so it is one function of
the registry; the results of `time(NULL)` and of the liveness probe
`kill(pid, 0)` are arguments.

`poolOverrun` is not a variable of the program. It records that some
`hash_insert` has written behind the end of `hash_pool`.
-/

namespace Shinigami

namespace ServiceManager

open CString PoolChain

/-- `service_status_t`. -/
inductive ServiceStatus
  | running
  | stopped
  | crashed
  | dead
deriving DecidableEq, Repr

/-- `service_tier_t`. -/
inductive ServiceTier
  | critical
  | high
  | normal
  | low
deriving DecidableEq, Repr

/-- `service_entry_t`. -/
structure ServiceEntry where
  name : List UInt8
  socketPath : List UInt8
  ringName : List UInt8
  pid : ℤ
  uid : ℕ
  gid : ℕ
  registeredAt : ℤ
  tier : ServiceTier
  status : ServiceStatus
  lastHeartbeat : ℤ
  lastCrashTime : ℤ
  restartCount : ℤ
deriving DecidableEq, Repr

/-- An entry of zero bytes. -/
def ServiceEntry.zero : ServiceEntry :=
  ⟨[], [], [], 0, 0, 0, 0, .critical, .running, 0, 0, 0⟩

def hashSize : UInt32 := 64

/-- The static variables of `sm_registry.c`. -/
structure Registry where
  registry : ℕ → ServiceEntry
  registryCount : ℕ
  hashPool : ℕ → Node ℕ
  hashPoolUsed : ℕ
  hashTable : ℕ → Option ℕ
  poolOverrun : Bool

/-- The registry before any call: static storage is zero. -/
def Registry.zero : Registry where
  registry := fun _ => .zero
  registryCount := 0
  hashPool := fun _ => ⟨0, none⟩
  hashPoolUsed := 0
  hashTable := fun _ => none
  poolOverrun := false

/-- Result of the liveness probe `kill(pid, 0)` of a process. -/
inductive KillProbe
  | alive
  | esrch
  | otherErrno
deriving DecidableEq, Repr

def hashName (name : List UInt8) : ℕ :=
  let h := (cstr name).foldl
    (fun (h : UInt32) b => ((h <<< 5) + h) ^^^ b.toUInt32) 5381
  (h &&& (hashSize - 1)).toNat

/-- The test of the chain walks: does entry `i` carry the name? -/
def nameAt (r : Registry) (name : List UInt8) (i : ℕ) : Bool :=
  strncmpEq smMaxName (r.registry i).name name

def hashInsert (r : Registry) (name : List UInt8) (idx : ℕ) : Registry :=
  let slot := hashName name
  let node := r.hashPoolUsed
  { r with
    hashPool := Function.update r.hashPool node ⟨idx, r.hashTable slot⟩
    hashPoolUsed := node + 1
    hashTable := Function.update r.hashTable slot (some node)
    poolOverrun := r.poolOverrun || decide (smMaxServices ≤ node) }

/-- `hash_find`; `none` stands for `-1`. The pool has `SM_MAX_SERVICES` nodes,
which bounds the walk. -/
def hashFind (r : Registry) (name : List UInt8) : Option ℕ :=
  find? r.hashPool (nameAt r name) smMaxServices (r.hashTable (hashName name))

def hashRemove (r : Registry) (name : List UInt8) : Registry :=
  let slot := hashName name
  let (pool, head) :=
    unlink r.hashPool (r.hashTable slot) (nameAt r name) smMaxServices .head
  { r with hashPool := pool, hashTable := Function.update r.hashTable slot head }

def hashRebuild (r : Registry) : Registry :=
  let r := { r with
    hashPool := fun _ => ⟨0, none⟩
    hashTable := fun _ => none
    hashPoolUsed := 0 }
  let limit := if r.registryCount < smMaxServices then r.registryCount
    else smMaxServices
  (List.range limit).foldl (fun r i => hashInsert r (r.registry i).name i) r

/-- `isspace` in the C locale. -/
def isspace (c : UInt8) : Bool := c == 32 || (9 ≤ c && c ≤ 13)

/-- `name_is_valid`: some character is not white space. -/
def nameIsValid (name : List UInt8) : Bool := (cstr name).any (!isspace ·)

/-- `sm_registry_init`, and `sm_registry_cleanup` likewise. -/
def smRegistryInit (r : Registry) : Registry :=
  { Registry.zero with poolOverrun := r.poolOverrun }

def smRegistryCleanup (r : Registry) : Registry :=
  { Registry.zero with poolOverrun := r.poolOverrun }

/-- The loop `registry[i] = registry[i + 1]` for `i` from `idx` below
`count - 1`. -/
def compact (reg : ℕ → ServiceEntry) (idx count : ℕ) : ℕ → ServiceEntry :=
  (List.range' idx (count - 1 - idx)).foldl
    (fun reg i => Function.update reg i (reg (i + 1))) reg

/-- The removal sequence shared by the three removing operations: unlink the
name, close the gap in the array, clear the last entry and rebuild the hash. -/
def removeAt (r : Registry) (name : List UInt8) (idx : ℕ) : Registry :=
  let r := hashRemove r name
  let reg := compact r.registry idx r.registryCount
  hashRebuild { r with
    registry := Function.update reg (r.registryCount - 1) .zero
    registryCount := r.registryCount - 1 }

/-- The end of `sm_registry_add`: the entry is appended with its hot-path fields
initialised, `registeredAt` and `lastHeartbeat` from two clock readings. -/
def appendEntry (r : Registry) (entry : ServiceEntry) (now now' : ℤ) : Registry :=
  let idx := r.registryCount
  let entry := { entry with
    registeredAt := now
    restartCount := 0
    status := .running
    lastHeartbeat := now'
    lastCrashTime := 0 }
  hashInsert { r with
    registry := Function.update r.registry idx entry
    registryCount := idx + 1 } entry.name idx

/-- `sm_registry_add`, where `kill` answers the liveness probe `kill(pid, 0)`. -/
def smRegistryAdd (r : Registry) (entry : ServiceEntry) (kill : ℤ → KillProbe)
    (now now' : ℤ) : Registry × ℤ :=
  if !nameIsValid entry.name then (r, smErrInvalid)
  else
    match hashFind r entry.name with
    | some existingIdx =>
        if kill (r.registry existingIdx).pid = .esrch then
          let r := removeAt r entry.name existingIdx
          if r.registryCount ≥ smMaxServices then (r, smErrFull)
          else (appendEntry r entry now now', smOk)
        else (r, smErrExists)
    | none =>
        if r.registryCount ≥ smMaxServices then (r, smErrFull)
        else (appendEntry r entry now now', smOk)

def modifyAt (r : Registry) (idx : ℕ) (f : ServiceEntry → ServiceEntry) :
    Registry :=
  { r with registry := Function.update r.registry idx (f (r.registry idx)) }

/-- The stores of `sm_registry_update_status` on the entry found. -/
def ServiceEntry.setStatus (e : ServiceEntry) (status : ServiceStatus) (now : ℤ) :
    ServiceEntry :=
  if status = .crashed then
    { e with
      status := status
      lastCrashTime := now
      restartCount := e.restartCount + 1 }
  else { e with status := status }

def smRegistryUpdateStatus (r : Registry) (name : List UInt8)
    (status : ServiceStatus) (now : ℤ) : Registry × ℤ :=
  match hashFind r name with
  | none => (r, smErrNotFound)
  | some idx => (modifyAt r idx (·.setStatus status now), smOk)

def smRegistryUpdateHeartbeat (r : Registry) (name : List UInt8) (now : ℤ) :
    Registry × ℤ :=
  match hashFind r name with
  | none => (r, smErrNotFound)
  | some idx =>
      (modifyAt r idx fun e => { e with lastHeartbeat := now, status := .running },
        smOk)

def smRegistryRemove (r : Registry) (name : List UInt8) : Registry × ℤ :=
  match hashFind r name with
  | none => (r, smErrNotFound)
  | some idx => (removeAt r name idx, smOk)

def smRegistryRemoveIfOwner (r : Registry) (name : List UInt8) (ownerPid : ℤ) :
    Registry × ℤ :=
  match hashFind r name with
  | none => (r, smErrNotFound)
  | some idx =>
      if (r.registry idx).pid ≠ ownerPid then (r, smErrPermission)
      else (removeAt r name idx, smOk)

/-- `sm_registry_find_copy`; `none` stands for `SM_ERR_NOT_FOUND`. -/
def smRegistryFindCopy (r : Registry) (name : List UInt8) : Option ServiceEntry :=
  (hashFind r name).map r.registry

/-- `sm_registry_get_all`; `none` when the copy cannot be allocated. -/
def smRegistryGetAll (r : Registry) (mallocOk : Bool) :
    Option (List ServiceEntry) :=
  if r.registryCount = 0 then some []
  else if mallocOk then some ((List.range r.registryCount).map r.registry)
  else none

end ServiceManager

end Shinigami
