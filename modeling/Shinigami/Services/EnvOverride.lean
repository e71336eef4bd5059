import Shinigami.Services.ConfigSemantics

/-!
# Overrides from the environment

`apply_env_overrides` goes through the entries that the file has produced and asks for the
variable of each. A key that the file does not mention has no entry, so that its variable is
never asked for. And the prefix is taken as it is, with at most 63 characters. So the
environment takes precedence exactly for the keys that the file mentions, under a prefix
that is spelled as in the names of the variables (`envOverrides_iff`).
-/

namespace Shinigami

namespace Services

namespace Config

open CString Ini

/-- A name in upper case, with `_` for `.` and `-`. -/
def envSpelling (name : List UInt8) : List UInt8 :=
  name.map fun b => if toupper b = 46 ∨ toupper b = 45 then 95 else toupper b

/-- `PREFIX_SECTION_KEY`. -/
def envVariable (svcPrefix sectionName key : List UInt8) : List UInt8 :=
  envSpelling (svcPrefix ++ [95] ++ sectionName ++ [95] ++ key)

/-- A key that is looked up, and where the configuration comes from. -/
structure Lookup where
  path : List UInt8
  svcPrefix : Option (List UInt8)
  sectionName : List UInt8
  key : List UInt8

def Lookup.variable (l : Lookup) : List UInt8 :=
  envVariable (cstr (l.svcPrefix.getD [])) (cstr l.sectionName) (cstr l.key)

/-- When the variable is set to a value of the right size, the query returns it. -/
def EnvOverrides (sys : Sys) (l : Lookup) : Prop :=
  ∀ val, sys.getenv l.variable = some val → cstr val ≠ [] →
    (cstr val).length < cfgMaxValueLen - 1 → ∀ dflt,
      serviceConfigGetString (serviceConfigLoad sys l.path l.svcPrefix).1 (some l.sectionName)
        (some l.key) dflt = some (cstr val)

def Lookup.keptPrefix (l : Lookup) : List UInt8 := (cstr (l.svcPrefix.getD [])).take 63

def Lookup.parsed (sys : Sys) (l : Lookup) (file : List UInt8) : ServiceConfig :=
  (parseFile sys.lineStack ⟨[], (cstr l.path).take 255, l.keptPrefix⟩ file).1

/-- The file mentions the key: its entry is the `i`-th one. -/
def Lookup.Mentions (sys : Sys) (l : Lookup) (file : List UInt8) (i : ℕ) (e : CfgEntry) : Prop :=
  findEntry (l.parsed sys file) l.sectionName l.key = some i ∧
    (l.parsed sys file).entries[i]? = some e

def Lookup.asked (sys : Sys) (l : Lookup) (i : ℕ) (e : CfgEntry) : List UInt8 :=
  envName l.keptPrefix (sys.entryStack i) e

/-- The entry is asked for under a variable with that value; or it is not overridden, and
has the value from the file. -/
def Lookup.HasValue (sys : Sys) (l : Lookup) (i : ℕ) (e : CfgEntry) (text : List UInt8) : Prop :=
  (l.keptPrefix ≠ [] ∧
      ∃ val ∈ sys.getenv (l.asked sys i e), (cstr val).take (cfgMaxValueLen - 1) = text) ∨
    ((l.keptPrefix = [] ∨ sys.getenv (l.asked sys i e) = none) ∧ cstr e.value = text)

/-- The file mentions the key, and the entry gets the value of its variable. -/
def Lookup.Reached (sys : Sys) (l : Lookup) (file : List UInt8) : Prop :=
  ∀ val, sys.getenv l.variable = some val → cstr val ≠ [] →
    (cstr val).length < cfgMaxValueLen - 1 →
      ∃ i e, l.Mentions sys file i e ∧ l.HasValue sys i e (cstr val)

/-- The file mentions the key, and its own variable is the one that is asked for. -/
def Lookup.Asked (sys : Sys) (l : Lookup) (file : List UInt8) : Prop :=
  l.keptPrefix ≠ [] ∧ ∃ i e, l.Mentions sys file i e ∧ l.asked sys i e = l.variable

def overriddenValue (sys : Sys) (svcPrefix : List UInt8) (i : ℕ) (e : CfgEntry) : List UInt8 :=
  if svcPrefix = [] then e.value
  else
    match sys.getenv (envName svcPrefix (sys.entryStack i) e) with
    | none => e.value
    | some val => (cstr val).take (cfgMaxValueLen - 1)

theorem entries_applyEnvOverrides (sys : Sys) (cfg : ServiceConfig) :
    (applyEnvOverrides sys cfg).entries =
      cfg.entries.mapIdx fun i e =>
        { e with value := overriddenValue sys cfg.svcPrefix i e } := by
  unfold applyEnvOverrides overriddenValue
  split_ifs with hempty
  · exact (mapIdx_eq_self _ fun _ _ => rfl).symm
  · dsimp only
    congr 1
    funext i e
    cases sys.getenv (envName cfg.svcPrefix (sys.entryStack i) e) with
    | none => rfl
    | some val => rfl

/-- The overrides change no name, so that a query finds the entry of the file, with its new
value. -/
theorem findEntryC_serviceConfigLoad {sys : Sys} {l : Lookup} {file : List UInt8}
    (hopen : sys.fopen (cstr l.path) = some file) :
    findEntryC (serviceConfigLoad sys l.path l.svcPrefix).1 l.sectionName l.key =
      (findEntry (l.parsed sys file) l.sectionName l.key).bind fun i =>
        (l.parsed sys file).entries[i]?.map fun e =>
          { e with value := overriddenValue sys l.keptPrefix i e } := by
  have hload : (serviceConfigLoad sys l.path l.svcPrefix).1 =
      applyEnvOverrides sys (l.parsed sys file) := by
    unfold serviceConfigLoad
    rw [hopen]
    simp only [parseFile, ne_eq, not_true_eq_false, if_false]
    rfl
  have hkept : (l.parsed sys file).svcPrefix = l.keptPrefix :=
    svcPrefix_parseLines _ _ _ _ _
  rw [hload, findEntryC, entries_applyEnvOverrides, find?_mapIdx_of_congr, hkept]
  · rfl
  · exact fun _ _ => rfl

theorem hasValue_iff (sys : Sys) (l : Lookup) (i : ℕ) (e : CfgEntry) (text : List UInt8) :
    l.HasValue sys i e text ↔ cstr (overriddenValue sys l.keptPrefix i e) = text := by
  unfold Lookup.HasValue overriddenValue Lookup.asked
  by_cases hempty : l.keptPrefix = []
  · simp [hempty]
  · rw [if_neg hempty]
    cases hvar : sys.getenv (envName l.keptPrefix (sys.entryStack i) e) with
    | none => simp
    | some val =>
        have htake : cstr ((cstr val).take (cfgMaxValueLen - 1)) =
            (cstr val).take (cfgMaxValueLen - 1) :=
          cstr_eq_self fun hmem => zero_notMem_cstr val (List.mem_of_mem_take hmem)
        simp [hempty, htake]

theorem forall_serviceConfigGetString_iff {sys : Sys} {l : Lookup} {file text : List UInt8}
    (hopen : sys.fopen (cstr l.path) = some file) (htext : text ≠ []) :
    (∀ dflt, serviceConfigGetString (serviceConfigLoad sys l.path l.svcPrefix).1
        (some l.sectionName) (some l.key) dflt = some text) ↔
      ∃ i e, l.Mentions sys file i e ∧ l.HasValue sys i e text := by
  simp only [serviceConfigGetString, findEntryC_serviceConfigLoad hopen, hasValue_iff,
    Lookup.Mentions]
  have hnone : ¬∀ dflt : Option (List UInt8), dflt = some text := fun h =>
    Option.some_ne_none text (h none).symm
  cases hfind : findEntry (l.parsed sys file) l.sectionName l.key with
  | none => exact iff_of_false hnone (by simp)
  | some i =>
      cases hentry : (l.parsed sys file).entries[i]? with
      | none =>
          refine iff_of_false ?_ (by simp [hentry])
          simpa [hentry] using hnone
      | some e =>
          by_cases hvalue : cstr (overriddenValue sys l.keptPrefix i e) = []
          · refine iff_of_false ?_ ?_
            · simpa [hentry, hvalue] using hnone
            · simpa [hentry, hvalue] using Ne.symm htext
          · simp [hentry, hvalue]

theorem envOverrides_iff_reached {sys : Sys} {l : Lookup} {file : List UInt8}
    (hopen : sys.fopen (cstr l.path) = some file) :
    EnvOverrides sys l ↔ l.Reached sys file := by
  refine forall_congr' fun val => forall_congr' fun _ => forall_congr' fun hne => ?_
  exact imp_congr_right fun _ => forall_serviceConfigGetString_iff hopen hne

def onlySet (sys : Sys) (name val : List UInt8) : Sys :=
  { sys with getenv := fun name' => if name' = name then some val else none }

theorem exists_val_ne (text : List UInt8) :
    ∃ val : List UInt8, cstr val = val ∧ val ≠ [] ∧ val.length < cfgMaxValueLen - 1 ∧
      text ≠ val := by
  by_cases htext : text = [49]
  · subst htext
    exact ⟨[48], by decide, by decide, by decide, by decide⟩
  · exact ⟨[49], by decide, by decide, by decide, htext⟩

/-- In every environment the variable takes precedence exactly when it is the one that is
asked for. -/
theorem forall_getenv_reached_iff (sys : Sys) (l : Lookup) (file : List UInt8) :
    (∀ getenv, l.Reached { sys with getenv := getenv } file) ↔ l.Asked sys file := by
  constructor
  · intro h
    obtain ⟨val₀, hself₀, hne₀, hlen₀, -⟩ := exists_val_ne []
    obtain ⟨i, e, hmentions, -⟩ := h (onlySet sys l.variable val₀).getenv val₀ (if_pos rfl)
      (by rwa [hself₀]) (by rwa [hself₀])
    obtain ⟨val, hself, hne, hlen, hdiffers⟩ := exists_val_ne (cstr e.value)
    obtain ⟨j, e', hmentions', hvalue⟩ := h (onlySet sys l.variable val).getenv val (if_pos rfl)
      (by rwa [hself]) (by rwa [hself])
    obtain rfl : i = j := Option.some.inj (hmentions.1.symm.trans hmentions'.1)
    obtain rfl : e = e' := Option.some.inj (hmentions.2.symm.trans hmentions'.2)
    rw [hself] at hvalue
    rcases hvalue with ⟨hkept, val', hvar, -⟩ | ⟨-, hfile⟩
    · refine ⟨hkept, i, e, hmentions, ?_⟩
      by_contra hother
      have hnone : (onlySet sys l.variable val).getenv (l.asked sys i e) = none := if_neg hother
      exact Option.not_mem_none _ (hnone ▸ hvar)
    · exact absurd hfile hdiffers
  · rintro ⟨hkept, i, e, hmentions, hname⟩ getenv val hset _ hlen
    refine ⟨i, e, hmentions, Or.inl ⟨hkept, val, ?_, List.take_of_length_le hlen.le⟩⟩
    rw [← hname] at hset
    exact hset

/-- A variable takes precedence exactly when the file mentions the key and the variable that
is asked for the entry gives it the value; it does so in every environment exactly when that
variable is the one for the key. -/
theorem envOverrides_iff (sys : Sys) (l : Lookup) (file : List UInt8)
    (hopen : sys.fopen (cstr l.path) = some file) :
    (EnvOverrides sys l ↔ l.Reached sys file) ∧
      ((∀ getenv, EnvOverrides { sys with getenv := getenv } l) ↔ l.Asked sys file) := by
  refine ⟨envOverrides_iff_reached hopen, ?_⟩
  rw [← forall_getenv_reached_iff]
  exact forall_congr' fun getenv => envOverrides_iff_reached hopen

/-- The variable for a key that the file does not mention. -/
def pathLookup : Lookup where
  path := literal "/etc/audio.conf"
  svcPrefix := some (literal "AUDIO_SERVICE")
  sectionName := literal "server"
  key := literal "socket_path"

/-- The variable is set, and the file has another key. -/
def socketSys : Sys :=
  { onlySet goneSys (literal "AUDIO_SERVICE_SERVER_SOCKET_PATH") (literal "/run/audio") with
    fopen := fun _ => some (literal "[server]\nport=1\n") }

theorem not_envOverrides_absent : ¬EnvOverrides socketSys pathLookup := by
  intro h
  have hquery := h (literal "/run/audio") (by decide +kernel) (by decide +kernel)
    (by decide +kernel) none
  revert hquery
  decide +kernel

/-- The same variable, for a file that mentions the key in other letters. -/
theorem envOverrides_iff_mentioned :
    let sys := { socketSys with fopen := fun _ => some (literal "[SERVER]\nSocket_Path=/tmp/a\n") }
    (EnvOverrides sys pathLookup ↔
        pathLookup.Reached sys (literal "[SERVER]\nSocket_Path=/tmp/a\n")) ∧
      ((∀ getenv, EnvOverrides { sys with getenv := getenv } pathLookup) ↔
        pathLookup.Asked sys (literal "[SERVER]\nSocket_Path=/tmp/a\n")) :=
  envOverrides_iff _ pathLookup _ rfl

theorem toupper_eq_of_tolower_eq {a b : UInt8} (h : tolower a = tolower b) :
    toupper a = toupper b := by
  have hall : ∀ k < 256, toupper (tolower (UInt8.ofNat k)) = toupper (UInt8.ofNat k) := by
    decide +kernel
  have hback : ∀ c : UInt8, toupper (tolower c) = toupper c := fun c => by
    have hc := hall c.toNat c.toNat_lt
    rwa [UInt8.ofNat_toNat] at hc
  rw [← hback a, h, hback b]

theorem envSpelling_congr {s s' : List UInt8} (h : s.map tolower = s'.map tolower) :
    envSpelling s = envSpelling s' := by
  induction s generalizing s' with
  | nil =>
      rw [List.map_nil, eq_comm, List.map_eq_nil_iff] at h
      rw [h]
  | cons b s ih =>
      cases s' with
      | nil => cases h
      | cons b' s' =>
          rw [List.map_cons, List.map_cons, List.cons.injEq] at h
          have htail := ih h.2
          rw [envSpelling, envSpelling] at htail ⊢
          rw [List.map_cons, List.map_cons, htail, toupper_eq_of_tolower_eq h.1]

theorem envPart_of_lt {mem name : List UInt8} (h : (cstr name).length < cfgMaxKeyLen - 1) :
    envPart mem name = envSpelling (cstr name) := by
  have hread : stackString (cfgMaxKeyLen - 1) mem name = cstr name := by
    have hself : cstr (cstr name) = cstr name := cstr_eq_self (zero_notMem_cstr name)
    have hstring := stackString_of_lt mem (zero_notMem_cstr name) h
    rwa [stackString, strncpyTo, hself, ← strncpyTo, ← stackString] at hstring
  rw [envPart, hread, strUpper, List.map_map, envSpelling]
  rfl

theorem envSpelling_append (s s' : List UInt8) :
    envSpelling (s ++ s') = envSpelling s ++ envSpelling s' :=
  List.map_append

/-- The variable that is asked for a key of a length within the limits is its own exactly
when the prefix has at most 63 characters, all of them spelled as in a variable. -/
theorem asked_eq_variable_iff {sys : Sys} {l : Lookup} {file : List UInt8} {i : ℕ}
    {e : CfgEntry} (hmentions : l.Mentions sys file i e)
    (hsection : (cstr l.sectionName).length < cfgMaxKeyLen - 1)
    (hkey : (cstr l.key).length < cfgMaxKeyLen - 1) :
    l.asked sys i e = l.variable ↔ l.keptPrefix = envSpelling (cstr (l.svcPrefix.getD [])) := by
  obtain ⟨hfind, hentry⟩ := hmentions
  have hnamed : e.named l.sectionName l.key = true := by
    obtain ⟨hlt, htest, -⟩ := List.findIdx?_eq_some_iff_getElem.mp hfind
    obtain ⟨hlt', rfl⟩ := List.getElem?_eq_some_iff.mp hentry
    exact htest
  simp only [CfgEntry.named, strcasecmpEq, Bool.and_eq_true, beq_iff_eq] at hnamed
  obtain ⟨hsame, hsame'⟩ := hnamed
  have hlen : (cstr e.sectionName).length = (cstr l.sectionName).length := by
    simpa using congrArg List.length hsame
  have hlen' : (cstr e.key).length = (cstr l.key).length := by
    simpa using congrArg List.length hsame'
  have hspelled : ∀ s, (envSpelling s).length = s.length := fun s => List.length_map _
  have hunderscore : envSpelling [95] = [95] := by decide
  have hshort : (l.keptPrefix ++ [95] ++ envSpelling (cstr l.sectionName) ++ [95] ++
      envSpelling (cstr l.key)).length < 256 := by
    have hkept : l.keptPrefix.length ≤ 63 := List.length_take_le _ _
    have hmax : cfgMaxKeyLen = 64 := rfl
    simp only [List.length_append, List.length_singleton, hspelled]
    omega
  rw [Lookup.asked, envName, envPart_of_lt (by omega), envPart_of_lt (by omega),
    envSpelling_congr hsame, envSpelling_congr hsame', snprintf_of_lt hshort, Lookup.variable,
    envVariable, envSpelling_append, envSpelling_append, envSpelling_append, envSpelling_append,
    hunderscore, List.append_cancel_right_eq, List.append_cancel_right_eq,
    List.append_cancel_right_eq, List.append_cancel_right_eq]

end Config

end Services

end Shinigami
