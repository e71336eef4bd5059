import Shinigami.ServiceManager.Infrastructure.Content

/-!
# Registry persistence

`sm_persistence_save` writes the entries of the registry to a file as they are
in memory, and `sm_persistence_load` adds them again through `sm_registry_add`.
A file is its list of bytes. An entry takes `sizeof(service_entry_t)` bytes, with
the fields at their offsets and the padding of the platform; the fields
`health_status` and `request_count`, which nothing reads, are written as zero.

The loader trusts what it reads. A string field without terminator runs into the
fields behind it, as in memory (`stringField`).
-/

namespace Shinigami

namespace ServiceManager

open CString LittleEndian

def persistenceMagic : ℕ := 0x534D5052

def persistenceVersion : ℕ := 1

def smRegistryMax : ℤ := 32

/-- `sizeof(service_entry_t)`. -/
def serviceEntrySize : ℕ := 648

/-- A `char[n]` field with the content of a buffer. -/
def charField (n : ℕ) (s : List UInt8) : List UInt8 :=
  (s ++ List.replicate n 0).take n

/-- An `int64_t`. -/
def encodeInt64 (x : ℤ) : List UInt8 := leBytes 8 (UInt64.ofInt x).toNat

def ServiceStatus.number : ServiceStatus → ℕ
  | .running => 0
  | .stopped => 1
  | .crashed => 2
  | .dead => 3

def ServiceTier.number : ServiceTier → ℕ
  | .critical => 0
  | .high => 1
  | .normal => 2
  | .low => 3

def ServiceTier.ofNumber : ℕ → ServiceTier
  | 0 => .critical
  | 1 => .high
  | 2 => .normal
  | _ => .low

def encodeEntry (e : ServiceEntry) : List UInt8 :=
  charField smMaxName e.name ++ charField smMaxPath e.socketPath ++
    charField smMaxPath e.ringName ++ encodeInt32 e.pid ++ leBytes 4 e.uid ++
    leBytes 4 e.gid ++ List.replicate 4 0 ++ encodeInt64 e.registeredAt ++
    leBytes 4 e.tier.number ++ List.replicate 12 0 ++ leBytes 4 e.status.number ++
    List.replicate 4 0 ++ encodeInt64 e.lastHeartbeat ++ encodeInt64 e.lastCrashTime ++
    encodeInt32 e.restartCount ++ List.replicate 4 0

/-- The `char[n]` field at an offset, up to the end of the entry if it is not
terminated. -/
def stringField (bytes : List UInt8) (off n : ℕ) : List UInt8 :=
  let field := (bytes.drop off).take n
  if (0 : UInt8) ∈ field then field else bytes.drop off

/-- The signed field of `w` bytes at an offset. -/
def intField (bytes : List UInt8) (off w : ℕ) : ℤ := leInt ((bytes.drop off).take w)

/-- The entry that the loader adds for the bytes of one entry: it is marked as
crashed, without restarts. -/
def loadedEntry (bytes : List UInt8) : ServiceEntry where
  name := stringField bytes 0 smMaxName
  socketPath := stringField bytes 64 smMaxPath
  ringName := stringField bytes 320 smMaxPath
  pid := intField bytes 576 4
  uid := fieldAt bytes 580 4
  gid := fieldAt bytes 584 4
  registeredAt := intField bytes 592 8
  tier := .ofNumber (fieldAt bytes 600 4)
  status := .crashed
  lastHeartbeat := intField bytes 624 8
  lastCrashTime := intField bytes 632 8
  restartCount := 0

/-- `sm_persistence_save`: what the file holds afterwards, or `none` when it
cannot be opened, and the return code. -/
def smPersistenceSave (r : Registry) (openOk mallocOk : Bool) :
    Option (List UInt8) × ℤ :=
  if !openOk then (none, -1)
  else
    match smRegistryGetAll r mallocOk with
    | none => (some [], -1)
    | some services =>
        (some (leBytes 4 persistenceMagic ++ leBytes 4 persistenceVersion ++
          leBytes 4 services.length ++ services.flatMap encodeEntry), 0)

/-- What the addition of the `i`-th entry meets: the liveness of processes and
the clock readings. -/
structure LoadEnv where
  kill : ℕ → ℤ → KillProbe
  now : ℕ → ℤ
  now' : ℕ → ℤ

/-- The addition of the `i`-th entry. -/
def addLoaded (env : LoadEnv) (r : Registry) (i : ℕ) (bytes : List UInt8) :
    Registry × ℤ :=
  smRegistryAdd r (loadedEntry (bytes.take serviceEntrySize)) (env.kill i) (env.now i)
    (env.now' i)

/-- The loop of `sm_persistence_load` from entry `i` on, with the number of
entries that are left and the rest of the file. -/
def loadEntries (env : LoadEnv) (r : Registry) (i : ℕ) : ℕ → List UInt8 → Registry
  | 0, _ => r
  | n + 1, bytes =>
      if bytes.length < serviceEntrySize then r
      else
        loadEntries env (addLoaded env r i bytes).1 (i + 1) n
          (bytes.drop serviceEntrySize)

/-- `sm_persistence_load`; `none` stands for a file that cannot be opened. -/
def smPersistenceLoad (r : Registry) (file : Option (List UInt8)) (env : LoadEnv) :
    Registry × ℤ :=
  match file with
  | none => (r, 0)
  | some bytes =>
      if bytes.length < 4 ∨ fieldAt bytes 0 4 ≠ persistenceMagic then (r, -1)
      else if bytes.length < 8 ∨ fieldAt bytes 4 4 ≠ persistenceVersion then (r, -1)
      else if bytes.length < 12 then (r, -1)
      else if intField bytes 8 4 < 0 ∨ intField bytes 8 4 > smRegistryMax then (r, -1)
      else (loadEntries env r 0 (fieldAt bytes 8 4) (bytes.drop 12), 0)

theorem loadEntries_keeps {P : Registry → Prop} (env : LoadEnv)
    (hstep : ∀ r i bytes, P r → P (addLoaded env r i bytes).1) {r : Registry} (i n : ℕ)
    (bytes : List UInt8) (hr : P r) : P (loadEntries env r i n bytes) := by
  induction n generalizing r i bytes with
  | zero => exact hr
  | succ n ih =>
      unfold loadEntries
      split_ifs
      · exact hr
      · exact ih (i + 1) _ (hstep r i bytes hr)

theorem smPersistenceLoad_keeps {P : Registry → Prop} (env : LoadEnv)
    (hstep : ∀ r i bytes, P r → P (addLoaded env r i bytes).1) {r : Registry}
    (file : Option (List UInt8)) (hr : P r) : P (smPersistenceLoad r file env).1 := by
  unfold smPersistenceLoad
  split
  · exact hr
  · split_ifs
    · exact hr
    · exact hr
    · exact hr
    · exact hr
    · exact loadEntries_keeps env hstep 0 _ _ hr

end ServiceManager

end Shinigami
