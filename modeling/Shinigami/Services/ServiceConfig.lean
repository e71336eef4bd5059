import Shinigami.Foundations.CText

/-!
# Service configuration

`service_config.c`: the entries of an INI file, with overrides from the environment, and the
queries on them. A load clears the whole structure before it opens the file, and a reload is
a load with the path and the prefix that were stored. So a reload that fails leaves no
entries, and every query gets its default (`serviceReloadAtomic_iff`).

The buffers for a key and a value on the stack are not initialised, and `strncpy` does not
terminate a text that fills them. What is read behind such a text is the memory in which the
buffers stand, an argument of the parser.
-/

namespace Shinigami

namespace Services

namespace Config

open CString

/-- `CFG_MAX_KEY_LEN`. -/
def cfgMaxKeyLen : ℕ := 64

/-- `CFG_MAX_VALUE_LEN`. -/
def cfgMaxValueLen : ℕ := 256

/-- `CFG_MAX_LINE`. -/
def cfgMaxLine : ℕ := 512

/-- `CFG_MAX_SECTIONS * CFG_MAX_KEYS`. -/
def cfgMaxEntries : ℕ := 16 * 64

/-- `cfg_entry_t`. -/
structure CfgEntry where
  sectionName : List UInt8
  key : List UInt8
  value : List UInt8
deriving DecidableEq

/-- `service_config_t`; `entries` are the first `count` of the array. -/
structure ServiceConfig where
  entries : List CfgEntry
  path : List UInt8
  svcPrefix : List UInt8
deriving DecidableEq

/-- The memory at `key_buf` and at `val_buf`, and at `sec` and `key`, to the end of the
stack. -/
structure StackBytes where
  keyBuf : List UInt8
  valBuf : List UInt8

/-- What the configuration is loaded from: the files, the environment, and the stack when a
line or an entry is processed. -/
structure Sys where
  fopen : List UInt8 → Option (List UInt8)
  getenv : List UInt8 → Option (List UInt8)
  lineStack : ℕ → StackBytes
  entryStack : ℕ → StackBytes

/-- `str_lower`. -/
def strLower (s : List UInt8) : List UInt8 := s.map tolower

/-- `str_upper`. -/
def strUpper (s : List UInt8) : List UInt8 := s.map toupper

/-- `str_trim`. -/
def strTrim (s : List UInt8) : List UInt8 :=
  ((cstr s).dropWhile isspace).rdropWhile isspace

/-- `strip_comment`. -/
def stripComment (s : List UInt8) : List UInt8 := s.takeWhile (· != 59)

/-- The test of `find_entry` and `find_entry_c`. -/
def CfgEntry.named (e : CfgEntry) (sectionName key : List UInt8) : Bool :=
  strcasecmpEq e.sectionName sectionName && strcasecmpEq e.key key

/-- `find_entry_c`. -/
def findEntryC (cfg : ServiceConfig) (sectionName key : List UInt8) : Option CfgEntry :=
  cfg.entries.find? (CfgEntry.named · sectionName key)

/-- `find_entry`: the index of the entry. -/
def findEntry (cfg : ServiceConfig) (sectionName key : List UInt8) : Option ℕ :=
  cfg.entries.findIdx? (CfgEntry.named · sectionName key)

/-- The string in a buffer on the stack after `strncpy(buf, src, n)`. -/
def stackString (n : ℕ) (mem src : List UInt8) : List UInt8 := cstr (strncpyTo n mem src)

/-- The end of a round of `parse_file`: the key is updated or added. -/
def updateEntry (cfg : ServiceConfig) (curSection key val : List UInt8) : ServiceConfig :=
  match findEntry cfg curSection key with
  | some i =>
      { cfg with
        entries := cfg.entries.modify i fun e =>
          { e with value := val.take (cfgMaxValueLen - 1) } }
  | none =>
      if cfg.entries.length ≥ cfgMaxEntries then cfg
      else
        { cfg with
          entries := cfg.entries ++
            [{ sectionName := snprintf cfgMaxKeyLen curSection
               key := snprintf cfgMaxKeyLen key
               value := snprintf cfgMaxValueLen val }] }

/-- A round of `parse_file`: the section and the configuration after a line. -/
def parseLine (stack : StackBytes) (curSection : List UInt8) (cfg : ServiceConfig)
    (line : List UInt8) : List UInt8 × ServiceConfig :=
  let s := strTrim line
  if s = [] ∨ s.head? = some 35 ∨ s.head? = some 59 then (curSection, cfg)
  else if s.head? = some 91 then
    if 93 ∉ s then (curSection, cfg)
    else
      let name := strTrim ((s.takeWhile (· != 93)).drop 1)
      (strLower (name.take (cfgMaxKeyLen - 1)), cfg)
  else if 61 ∉ s then (curSection, cfg)
  else
    let key := strLower (stackString (cfgMaxKeyLen - 1) stack.keyBuf
      (strTrim (s.takeWhile (· != 61))))
    let vp := strTrim (stripComment (strTrim ((s.dropWhile (· != 61)).drop 1)))
    let val := stackString (cfgMaxValueLen - 1) stack.valBuf vp
    (curSection, updateEntry cfg curSection key val)

/-- The loop of `parse_file`, from a line on. -/
def parseLines (stack : ℕ → StackBytes) :
    ℕ → List UInt8 → ServiceConfig → List (List UInt8) → ServiceConfig
  | _, _, cfg, [] => cfg
  | lineno, curSection, cfg, line :: lines =>
      let r := parseLine (stack lineno) curSection cfg line
      parseLines stack (lineno + 1) r.1 r.2 lines

/-- `parse_file`: every line is accepted or skipped. -/
def parseFile (stack : ℕ → StackBytes) (cfg : ServiceConfig) (file : List UInt8) :
    ServiceConfig × ℤ :=
  (parseLines stack 0 [] cfg (fgetsLines cfgMaxLine file), 0)

def envPart (mem name : List UInt8) : List UInt8 :=
  (strUpper (stackString (cfgMaxKeyLen - 1) mem name)).map fun b =>
    if b = 46 ∨ b = 45 then 95 else b

def envName (svcPrefix : List UInt8) (stack : StackBytes) (e : CfgEntry) : List UInt8 :=
  snprintf 256 (svcPrefix ++ [95] ++ envPart stack.keyBuf e.sectionName ++ [95] ++
    envPart stack.valBuf e.key)

/-- `apply_env_overrides`. -/
def applyEnvOverrides (sys : Sys) (cfg : ServiceConfig) : ServiceConfig :=
  if cfg.svcPrefix = [] then cfg
  else
    { cfg with
      entries := cfg.entries.mapIdx fun i e =>
        match sys.getenv (envName cfg.svcPrefix (sys.entryStack i) e) with
        | none => e
        | some val => { e with value := (cstr val).take (cfgMaxValueLen - 1) } }

/-- `service_config_load`; the prefix `none` is a null pointer. -/
def serviceConfigLoad (sys : Sys) (path : List UInt8) (svcPrefix : Option (List UInt8)) :
    ServiceConfig × ℤ :=
  let cfg : ServiceConfig :=
    { entries := []
      path := (cstr path).take 255
      svcPrefix := (cstr (svcPrefix.getD [])).take 63 }
  match sys.fopen (cstr path) with
  | none => (cfg, -1)
  | some file =>
      let (cfg, rc) := parseFile sys.lineStack cfg file
      if rc ≠ 0 then (cfg, rc) else (applyEnvOverrides sys cfg, 0)

/-- `service_config_reload`. -/
def serviceConfigReload (sys : Sys) (cfg : ServiceConfig) : ServiceConfig × ℤ :=
  serviceConfigLoad sys (snprintf 256 (cstr cfg.path)) (some (snprintf 64 (cstr cfg.svcPrefix)))

section Queries

variable (cfg : ServiceConfig) (sectionName key : Option (List UInt8))

/-- `service_config_get_string`; a string `none` is a null pointer. -/
def serviceConfigGetString (dflt : Option (List UInt8)) : Option (List UInt8) :=
  match sectionName, key with
  | some sectionName, some key =>
      match findEntryC cfg sectionName key with
      | none => dflt
      | some e => if cstr e.value ≠ [] then some (cstr e.value) else dflt
  | _, _ => dflt

/-- `service_config_get_int`. -/
def serviceConfigGetInt (dflt : Int32) : Int32 :=
  match serviceConfigGetString cfg sectionName key none with
  | none => dflt
  | some s => if converts 10 s then Int32.ofInt (strtol 10 s) else dflt

/-- `service_config_get_uint32`. -/
def serviceConfigGetUint32 (dflt : UInt32) : UInt32 :=
  match serviceConfigGetString cfg sectionName key none with
  | none => dflt
  | some s => if converts 10 s then (strtoul 10 s).toUInt32 else dflt

/-- `service_config_get_bool`. -/
def serviceConfigGetBool (dflt : Int32) : Int32 :=
  match serviceConfigGetString cfg sectionName key none with
  | none => dflt
  | some s =>
      if strcmpEq s (literal "1") || strcasecmpEq s (literal "true") ||
          strcasecmpEq s (literal "yes") then 1
      else 0

end Queries

structure SameQueries (cfg cfg' : ServiceConfig) : Prop where
  string : ∀ sectionName key dflt, serviceConfigGetString cfg' sectionName key dflt =
    serviceConfigGetString cfg sectionName key dflt
  int : ∀ sectionName key dflt, serviceConfigGetInt cfg' sectionName key dflt =
    serviceConfigGetInt cfg sectionName key dflt
  uint32 : ∀ sectionName key dflt, serviceConfigGetUint32 cfg' sectionName key dflt =
    serviceConfigGetUint32 cfg sectionName key dflt
  bool : ∀ sectionName key dflt, serviceConfigGetBool cfg' sectionName key dflt =
    serviceConfigGetBool cfg sectionName key dflt

/-- A reload that fails changes nothing that can be asked for. -/
def ReloadAtomic (sys : Sys) (cfg : ServiceConfig) : Prop :=
  (serviceConfigReload sys cfg).2 ≠ 0 → SameQueries cfg (serviceConfigReload sys cfg).1

/-- The entry that a query for the names of an entry finds has no value. -/
def NothingToFind (cfg : ServiceConfig) : Prop :=
  ∀ e ∈ cfg.entries, ∀ e', findEntryC cfg e.sectionName e.key = some e' → cstr e'.value = []

theorem serviceConfigGetString_eq_or (cfg : ServiceConfig)
    (sectionName key dflt : Option (List UInt8)) :
    serviceConfigGetString cfg sectionName key dflt =
      (serviceConfigGetString cfg sectionName key none).or dflt := by
  unfold serviceConfigGetString
  split
  · split
    · rfl
    · split <;> rfl
  · rfl

theorem sameQueries_iff {cfg cfg' : ServiceConfig} :
    SameQueries cfg cfg' ↔ ∀ sectionName key,
      serviceConfigGetString cfg' sectionName key none =
        serviceConfigGetString cfg sectionName key none := by
  constructor
  · intro h sectionName key
    exact h.string sectionName key none
  · intro h
    refine ⟨fun sectionName key dflt => ?_, fun sectionName key dflt => ?_,
      fun sectionName key dflt => ?_, fun sectionName key dflt => ?_⟩
    · rw [serviceConfigGetString_eq_or, h, ← serviceConfigGetString_eq_or]
    · rw [serviceConfigGetInt, h, ← serviceConfigGetInt]
    · rw [serviceConfigGetUint32, h, ← serviceConfigGetUint32]
    · rw [serviceConfigGetBool, h, ← serviceConfigGetBool]

theorem findEntryC_self {cfg : ServiceConfig} {sectionName key : List UInt8} {e : CfgEntry}
    (h : findEntryC cfg sectionName key = some e) :
    findEntryC cfg e.sectionName e.key = some e := by
  have hnamed := List.find?_some h
  simp only [CfgEntry.named, strcasecmpEq, Bool.and_eq_true, beq_iff_eq] at hnamed
  obtain ⟨hsection, hkey⟩ := hnamed
  have hsame : (CfgEntry.named · e.sectionName e.key) = (CfgEntry.named · sectionName key) := by
    funext e'
    simp only [CfgEntry.named, strcasecmpEq, hsection, hkey]
  rw [findEntryC, hsame]
  exact h

/-- No query finds a value exactly when no entry that can be found has one. -/
theorem nothingToFind_iff (cfg : ServiceConfig) :
    NothingToFind cfg ↔
      ∀ sectionName key, serviceConfigGetString cfg sectionName key none = none := by
  constructor
  · intro h sectionName key
    unfold serviceConfigGetString
    split
    · rename_i sectionName key
      split
      · rfl
      · rename_i e hfind
        have hvalue := h e (List.mem_of_find?_eq_some hfind) e (findEntryC_self hfind)
        exact if_neg (not_not.mpr hvalue)
    · rfl
  · intro h e _ e' hfind
    have hquery := h (some e.sectionName) (some e.key)
    simp only [serviceConfigGetString, hfind] at hquery
    by_contra hvalue
    rw [if_pos hvalue] at hquery
    cases hquery

/-- A configuration without entries answers every query with the default. -/
theorem serviceConfigGetString_of_entries_nil {cfg : ServiceConfig} (h : cfg.entries = [])
    (sectionName key dflt : Option (List UInt8)) :
    serviceConfigGetString cfg sectionName key dflt = dflt := by
  unfold serviceConfigGetString findEntryC
  rw [h]
  split <;> rfl

/-- The file that a reload opens. -/
def reloadPath (cfg : ServiceConfig) : List UInt8 := cstr (snprintf 256 (cstr cfg.path))

theorem serviceConfigLoad_of_some {sys : Sys} {path file : List UInt8}
    (h : sys.fopen (cstr path) = some file) (svcPrefix : Option (List UInt8)) :
    (serviceConfigLoad sys path svcPrefix).2 = 0 := by
  simp only [serviceConfigLoad, h, parseFile, ne_eq, not_true_eq_false, if_false]

theorem serviceConfigLoad_of_none {sys : Sys} {path : List UInt8}
    (h : sys.fopen (cstr path) = none) (svcPrefix : Option (List UInt8)) :
    serviceConfigLoad sys path svcPrefix =
      (⟨[], (cstr path).take 255, (cstr (svcPrefix.getD [])).take 63⟩, -1) := by
  simp only [serviceConfigLoad, h]

/-- A failed reload keeps the path and the prefix, so that a later one can succeed; the
entries are gone. -/
theorem serviceConfigReload_of_none {sys : Sys} {cfg : ServiceConfig}
    (h : sys.fopen (reloadPath cfg) = none) :
    serviceConfigReload sys cfg =
      (⟨[], (cstr (snprintf 256 (cstr cfg.path))).take 255,
        (cstr (snprintf 64 (cstr cfg.svcPrefix))).take 63⟩, -1) :=
  serviceConfigLoad_of_none h _

theorem serviceConfigReload_ne_zero_iff (sys : Sys) (cfg : ServiceConfig) :
    (serviceConfigReload sys cfg).2 ≠ 0 ↔ sys.fopen (reloadPath cfg) = none := by
  cases hopen : sys.fopen (reloadPath cfg) with
  | none =>
      rw [serviceConfigReload_of_none hopen]
      simp
  | some file => simp [serviceConfigReload, serviceConfigLoad_of_some hopen]

/-- A reload is atomic exactly when the file can be opened, or there is nothing to lose. -/
theorem serviceReloadAtomic_iff (sys : Sys) (cfg : ServiceConfig) :
    ReloadAtomic sys cfg ↔ (sys.fopen (reloadPath cfg)).isSome ∨ NothingToFind cfg := by
  rw [ReloadAtomic, serviceConfigReload_ne_zero_iff]
  cases hopen : sys.fopen (reloadPath cfg) with
  | some file => simp
  | none =>
      have hempty : (serviceConfigReload sys cfg).1.entries = [] := by
        rw [serviceConfigReload_of_none hopen]
      rw [sameQueries_iff, nothingToFind_iff]
      constructor
      · intro h
        right
        intro sectionName key
        rw [← h rfl sectionName key]
        exact serviceConfigGetString_of_entries_nil hempty sectionName key none
      · rintro (hopened | h) _ sectionName key
        · cases hopened
        · rw [h sectionName key]
          exact serviceConfigGetString_of_entries_nil hempty sectionName key none

theorem length_entries_updateEntry_le {cfg : ServiceConfig}
    (h : cfg.entries.length ≤ cfgMaxEntries) (curSection key val : List UInt8) :
    (updateEntry cfg curSection key val).entries.length ≤ cfgMaxEntries := by
  unfold updateEntry
  split
  · simpa using h
  · split
    · exact h
    · rename_i hroom
      simp only [List.length_append, List.length_cons, List.length_nil]
      omega

theorem length_entries_parseLine_le (stack : StackBytes) (curSection : List UInt8)
    {cfg : ServiceConfig} (h : cfg.entries.length ≤ cfgMaxEntries) (line : List UInt8) :
    (parseLine stack curSection cfg line).2.entries.length ≤ cfgMaxEntries := by
  unfold parseLine
  simp only
  split
  · exact h
  · split
    · split <;> exact h
    · split
      · exact h
      · exact length_entries_updateEntry_le h _ _ _

theorem length_entries_parseLines_le (stack : ℕ → StackBytes) (lineno : ℕ)
    (curSection : List UInt8) {cfg : ServiceConfig} (h : cfg.entries.length ≤ cfgMaxEntries)
    (lines : List (List UInt8)) :
    (parseLines stack lineno curSection cfg lines).entries.length ≤ cfgMaxEntries := by
  induction lines generalizing lineno curSection cfg with
  | nil => exact h
  | cons line lines ih => exact ih _ _ (length_entries_parseLine_le _ _ h line)

theorem length_entries_applyEnvOverrides (sys : Sys) (cfg : ServiceConfig) :
    (applyEnvOverrides sys cfg).entries.length = cfg.entries.length := by
  unfold applyEnvOverrides
  split
  · rfl
  · exact List.length_mapIdx

theorem length_entries_serviceConfigLoad_le (sys : Sys) (path : List UInt8)
    (svcPrefix : Option (List UInt8)) :
    (serviceConfigLoad sys path svcPrefix).1.entries.length ≤ cfgMaxEntries := by
  unfold serviceConfigLoad
  simp only
  split
  · exact Nat.zero_le _
  · simp only [parseFile, ne_eq, not_true_eq_false, if_false, length_entries_applyEnvOverrides]
    exact length_entries_parseLines_le _ _ _ (Nat.zero_le _) _

/-- A system in which the file can be opened once and then is gone. -/
def goneSys : Sys where
  fopen _ := none
  getenv _ := none
  lineStack _ := ⟨List.replicate 64 0, List.replicate 256 0⟩
  entryStack _ := ⟨List.replicate 64 0, List.replicate 64 0⟩

/-- The configuration of the audio service, loaded from a file with a sample rate. -/
def audioConfig : ServiceConfig :=
  (serviceConfigLoad { goneSys with
      fopen := fun _ => some (literal "[hardware]\nsample_rate=48000\n") }
    (literal "/etc/audio.conf") none).1

/-- The file has been removed: the reload fails, and the sample rate is lost. -/
theorem not_reloadAtomic_of_removed : ¬ReloadAtomic goneSys audioConfig := by
  intro h
  have hfailed : (serviceConfigReload goneSys audioConfig).2 ≠ 0 := by
    rw [serviceConfigReload_ne_zero_iff]
    rfl
  have hrate := (h hfailed).uint32 (some (literal "hardware")) (some (literal "sample_rate")) 0
  rw [serviceConfigReload_of_none rfl] at hrate
  exact absurd hrate (by decide +kernel)

end Config

end Services

end Shinigami
