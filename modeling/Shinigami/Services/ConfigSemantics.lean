import Shinigami.Foundations.IniFile
import Shinigami.Foundations.KeyedTable
import Shinigami.Foundations.Run
import Shinigami.Services.ServiceConfig

/-!
# What a service configuration means

A configuration is a map from the section and the key, without regard to case, to the value:
after a load it is the one that the file describes, and each `service_config_set` updates it
(`serviceConfigGetString_run`). This holds within the limits of the buffers (`InLimits`).
Behind them a longer name or value is cut, and further keys are left out.
-/

namespace Shinigami

namespace Services

namespace Config

open CString Ini KeyedTable

/-- A call of `service_config_set`. -/
structure SetCall where
  sectionName : List UInt8
  key : List UInt8
  value : List UInt8
deriving DecidableEq

/-- `service_config_set`. -/
def serviceConfigSet (cfg : ServiceConfig) (c : SetCall) : ServiceConfig :=
  match findEntry cfg c.sectionName c.key with
  | some i =>
      { cfg with
        entries := cfg.entries.modify i fun e =>
          { e with value := (cstr c.value).take (cfgMaxValueLen - 1) } }
  | none =>
      if cfg.entries.length ≥ cfgMaxEntries then cfg
      else
        { cfg with
          entries := cfg.entries ++
            [{ sectionName := (cstr c.sectionName).take (cfgMaxKeyLen - 1)
               key := (cstr c.key).take (cfgMaxKeyLen - 1)
               value := (cstr c.value).take (cfgMaxValueLen - 1) }] }

/-- The name that a call sets. -/
def SetCall.name (c : SetCall) : List UInt8 × List UInt8 :=
  folded (cstr c.sectionName) (cstr c.key)

/-- The limits that a call keeps. -/
structure SetCall.InLimits (c : SetCall) : Prop where
  sectionName : (cstr c.sectionName).length < cfgMaxKeyLen - 1
  key : (cstr c.key).length < cfgMaxKeyLen - 1
  value : (cstr c.value).length < cfgMaxValueLen - 1
  nonempty : cstr c.value ≠ []

/-- The limits of a file: it is a text, its lines fit the buffer they are read into, its
names and values fit theirs, and there is room for all its keys. -/
structure InLimits (file : List UInt8) : Prop where
  text : 0 ∉ file
  lines : ∀ line ∈ file.splitOn newline, line.length < cfgMaxLine
  sectionNames : ∀ a ∈ fileAssignments file, a.sectionName.length < cfgMaxKeyLen - 1
  keys : ∀ a ∈ fileAssignments file, a.key.length < cfgMaxKeyLen - 1
  values : ∀ a ∈ fileAssignments file, a.value.length < cfgMaxValueLen - 1
  room : ((fileAssignments file).map Assignment.name).toFinset.card < cfgMaxEntries

/-- No variable of the environment starts with the prefix and an underscore. -/
def NoOverrides (sys : Sys) (svcPrefix : Option (List UInt8)) : Prop :=
  cstr (svcPrefix.getD []) = [] ∨
    ∀ name, (cstr (svcPrefix.getD [])).take 63 ++ [95] <+: name → sys.getenv name = none

abbrev ConfigMap := List UInt8 × List UInt8 → Option (List UInt8)

/-- The map that a file describes: an empty value counts as none. -/
def fileMap (file : List UInt8) : ConfigMap := fun name =>
  (lastValue (fileAssignments file) name).filter (· ≠ [])

/-- What a call does to the map. -/
def SetCall.onMap (m : ConfigMap) (c : SetCall) : ConfigMap :=
  Function.update m c.name (some (cstr c.value))

def CfgEntry.name (e : CfgEntry) : List UInt8 × List UInt8 :=
  folded (cstr e.sectionName) (cstr e.key)

def CfgEntry.text (e : CfgEntry) : List UInt8 := cstr e.value

def view (cfg : ServiceConfig) : ConfigMap := fun name =>
  (lookup CfgEntry.name CfgEntry.text cfg.entries name).filter (· ≠ [])

theorem named_eq (sectionName key : List UInt8) :
    (CfgEntry.named · sectionName key) =
      fun e : CfgEntry => decide (e.name = folded (cstr sectionName) (cstr key)) := by
  funext e
  rw [Bool.eq_iff_iff, decide_eq_true_iff, CfgEntry.named, Bool.and_eq_true]
  simp only [strcasecmpEq, beq_iff_eq, CfgEntry.name, folded, Prod.mk.injEq]

theorem serviceConfigGetString_eq_view (cfg : ServiceConfig) (sectionName key : List UInt8)
    (dflt : Option (List UInt8)) :
    serviceConfigGetString cfg (some sectionName) (some key) dflt =
      (view cfg (folded (cstr sectionName) (cstr key))).or dflt := by
  simp only [serviceConfigGetString, view, lookup, findEntryC, named_eq]
  cases cfg.entries.find? fun e => decide (e.name = folded (cstr sectionName) (cstr key)) with
  | none => rfl
  | some e =>
      rw [Option.map_some]
      by_cases hvalue : cstr e.value = []
      · simp [CfgEntry.text, Option.filter, hvalue]
      · simp [CfgEntry.text, Option.filter, hvalue]

theorem filter_update {κ : Type} [DecidableEq κ] (m : κ → Option (List UInt8)) (k : κ)
    {v : List UInt8} (hv : v ≠ []) (x : κ) :
    (Function.update m k (some v) x).filter (· ≠ []) =
      Function.update (fun x => (m x).filter (· ≠ [])) k (some v) x := by
  by_cases hx : x = k
  · subst hx
    simp [hv]
  · rw [Function.update_of_ne hx, Function.update_of_ne hx]

def SetCall.change (c : SetCall) (e : CfgEntry) : CfgEntry :=
  { e with value := (cstr c.value).take (cfgMaxValueLen - 1) }

def SetCall.entry (c : SetCall) : CfgEntry where
  sectionName := (cstr c.sectionName).take (cfgMaxKeyLen - 1)
  key := (cstr c.key).take (cfgMaxKeyLen - 1)
  value := (cstr c.value).take (cfgMaxValueLen - 1)

theorem entries_serviceConfigSet (cfg : ServiceConfig) (c : SetCall) :
    (serviceConfigSet cfg c).entries =
      store CfgEntry.name cfgMaxEntries c.change c.entry c.name cfg.entries := by
  unfold serviceConfigSet store
  rw [findEntry, named_eq, ← SetCall.name]
  cases cfg.entries.findIdx? fun e => decide (e.name = c.name) with
  | some i => rfl
  | none =>
      dsimp only
      split_ifs <;> rfl

theorem cstr_take_cstr {s : List UInt8} {n : ℕ} (h : (cstr s).length ≤ n) :
    cstr ((cstr s).take n) = cstr s := by
  rw [List.take_of_length_le h, cstr_eq_self (zero_notMem_cstr s)]

theorem SetCall.InLimits.gives {c : SetCall} (h : c.InLimits) :
    Gives CfgEntry.name CfgEntry.text c.change c.entry c.name (cstr c.value) where
  key_change _ := rfl
  value_change _ := cstr_take_cstr h.value.le
  key_new := by
    rw [CfgEntry.name, SetCall.entry, cstr_take_cstr h.sectionName.le, cstr_take_cstr h.key.le,
      SetCall.name]
  value_new := cstr_take_cstr h.value.le

theorem view_serviceConfigSet {cfg : ServiceConfig} {c : SetCall} (h : c.InLimits)
    (hroom : cfg.entries.length < cfgMaxEntries) :
    view (serviceConfigSet cfg c) = SetCall.onMap (view cfg) c := by
  funext name
  rw [view, entries_serviceConfigSet, lookup_store h.gives (Or.inr hroom),
    filter_update _ _ h.nonempty]
  rfl

theorem view_run {cfg : ServiceConfig} {calls : List SetCall}
    (h : Guarded serviceConfigSet
      (fun cfg c => c.InLimits ∧ cfg.entries.length < cfgMaxEntries) cfg calls) :
    view (run serviceConfigSet cfg calls) = calls.foldl SetCall.onMap (view cfg) := by
  induction calls generalizing cfg with
  | nil => rfl
  | cons c calls ih =>
      obtain ⟨⟨hlimits, hroom⟩, hrest⟩ := h
      rw [run_cons, ih hrest, List.foldl_cons, view_serviceConfigSet hlimits hroom]

theorem tolower_eq_zero_iff (b : UInt8) : tolower b = 0 ↔ b = 0 := by
  have hall : ∀ k < 256, tolower (UInt8.ofNat k) = 0 → k = 0 := by decide +kernel
  constructor
  · intro h
    have hzero := hall b.toNat b.toNat_lt (by rwa [UInt8.ofNat_toNat])
    rw [← @UInt8.ofNat_toNat b, hzero]
    rfl
  · rintro rfl
    rfl

theorem tolower_tolower (b : UInt8) : tolower (tolower b) = tolower b := by
  have hall : ∀ k < 256, tolower (tolower (UInt8.ofNat k)) = tolower (UInt8.ofNat k) := by
    decide +kernel
  have hb := hall b.toNat b.toNat_lt
  rwa [UInt8.ofNat_toNat] at hb

theorem zero_notMem_strLower {s : List UInt8} (h : (0 : UInt8) ∉ s) : (0 : UInt8) ∉ strLower s := by
  intro hmem
  obtain ⟨b, hb, hzero⟩ := List.mem_map.mp hmem
  exact h ((tolower_eq_zero_iff b).mp hzero ▸ hb)

theorem map_tolower_strLower (s : List UInt8) : (strLower s).map tolower = s.map tolower := by
  rw [strLower, List.map_map]
  exact List.map_congr_left fun b _ => tolower_tolower b

/-- A name or value that fits its buffer on the stack is read back as it is. -/
theorem stackString_of_lt {n : ℕ} {src : List UInt8} (mem : List UInt8) (hzero : (0 : UInt8) ∉ src)
    (hlen : src.length < n) : stackString n mem src = src := by
  have hself : cstr src = src := cstr_eq_self hzero
  obtain ⟨k, hk⟩ : ∃ k, n - src.length = k + 1 := ⟨n - src.length - 1, by omega⟩
  rw [stackString, strncpyTo, hself, List.take_of_length_le hlen.le, hk, List.replicate_succ]
  have hstop : cstr (src ++ 0 :: (List.replicate k 0 ++ mem.drop n)) = src := by
    rw [cstr, List.takeWhile_append_of_pos]
    · simp
    · intro b hb
      have hne : b ≠ 0 := fun h0 => hzero (h0 ▸ hb)
      simpa using hne
  simpa using hstop

theorem trim_subset (s : List UInt8) : trim s ⊆ s := by
  obtain ⟨before, after, hs, -, -⟩ := exists_eq_append_trim s
  intro b hb
  rw [hs]
  simp [hb]

theorem strTrim_eq_trim {s : List UInt8} (h : (0 : UInt8) ∉ s) : strTrim s = trim s := by
  rw [strTrim, cstr_eq_self h, trim]

def obey (stack : StackBytes) (curSection : List UInt8) (cfg : ServiceConfig) :
    Line → List UInt8 × ServiceConfig
  | .skipped => (curSection, cfg)
  | .heading name => (strLower (name.take (cfgMaxKeyLen - 1)), cfg)
  | .assignment key value =>
      (curSection, updateEntry cfg curSection
        (strLower (stackString (cfgMaxKeyLen - 1) stack.keyBuf key))
        (stackString (cfgMaxValueLen - 1) stack.valBuf value))

theorem parseLine_eq_obey (stack : StackBytes) (curSection : List UInt8) (cfg : ServiceConfig)
    {line : List UInt8} (h : (0 : UInt8) ∉ line) :
    parseLine stack curSection cfg line = obey stack curSection cfg (readLine line) := by
  have hzero : (0 : UInt8) ∉ trim line := fun hmem => h (trim_subset line hmem)
  unfold parseLine readLine
  rw [strTrim_eq_trim h]
  generalize trim line = s at hzero
  dsimp only
  by_cases hskip : s = [] ∨ s.head? = some 35 ∨ s.head? = some 59
  · rw [if_pos hskip, if_pos hskip, obey]
  rw [if_neg hskip, if_neg hskip]
  by_cases hheading : s.head? = some 91
  · rw [if_pos hheading, if_pos hheading]
    by_cases hclosed : 93 ∈ s
    · have hname : (0 : UInt8) ∉ (s.takeWhile (· != 93)).drop 1 := fun hmem =>
        hzero ((List.takeWhile_prefix _).subset (List.mem_of_mem_drop hmem))
      rw [if_neg (not_not.mpr hclosed), if_pos hclosed, obey, strTrim_eq_trim hname]
    · rw [if_pos hclosed, if_neg hclosed, obey]
  rw [if_neg hheading, if_neg hheading]
  by_cases hassign : 61 ∈ s
  · have hkey : (0 : UInt8) ∉ s.takeWhile (· != 61) := fun hmem =>
      hzero ((List.takeWhile_prefix _).subset hmem)
    have hvalue : (0 : UInt8) ∉ (s.dropWhile (· != 61)).drop 1 := fun hmem =>
      hzero ((List.dropWhile_suffix _).subset (List.mem_of_mem_drop hmem))
    have hcut : (0 : UInt8) ∉ uncommented (trim ((s.dropWhile (· != 61)).drop 1)) :=
      fun hmem => hvalue (trim_subset _ ((List.takeWhile_prefix _).subset hmem))
    have hstrip : ∀ x, stripComment x = uncommented x := fun _ => rfl
    rw [if_neg (not_not.mpr hassign), if_pos hassign, obey, strTrim_eq_trim hkey,
      strTrim_eq_trim hvalue, hstrip, strTrim_eq_trim hcut, trim_uncommented_trim]
  · rw [if_pos hassign, if_neg hassign, obey]

def TextLine : Line → Prop
  | .skipped => True
  | .heading name => 0 ∉ name
  | .assignment key value => 0 ∉ key ∧ 0 ∉ value

theorem textLine_readLine {line : List UInt8} (h : (0 : UInt8) ∉ line) :
    TextLine (readLine line) := by
  have hzero : (0 : UInt8) ∉ trim line := fun hmem => h (trim_subset line hmem)
  have hpart : ∀ s, s ⊆ trim line → (0 : UInt8) ∉ trim s := fun s hs hmem =>
    hzero (hs (trim_subset s hmem))
  unfold readLine
  dsimp only
  split_ifs
  · trivial
  · exact hpart _ fun b hb => (List.takeWhile_prefix _).subset (List.mem_of_mem_drop hb)
  · trivial
  · refine ⟨hpart _ (List.takeWhile_prefix _).subset, hpart _ fun b hb => ?_⟩
    exact (List.dropWhile_suffix _).subset
      (List.mem_of_mem_drop ((List.takeWhile_prefix _).subset hb))
  · trivial

theorem text_of_mem_assignments {sectionName : List UInt8} {lines : List (List UInt8)}
    {a : Assignment} (hsection : 0 ∉ sectionName) (hlines : ∀ line ∈ lines, (0 : UInt8) ∉ line)
    (ha : a ∈ assignments sectionName lines) :
    0 ∉ a.sectionName ∧ 0 ∉ a.key ∧ 0 ∉ a.value := by
  induction lines generalizing sectionName with
  | nil => cases ha
  | cons line lines ih =>
      have htext := textLine_readLine (hlines line (by simp))
      have hrest : ∀ line ∈ lines, (0 : UInt8) ∉ line := fun l hl => hlines l (by simp [hl])
      unfold assignments at ha
      cases hread : readLine line with
      | skipped =>
          rw [hread] at ha
          exact ih hsection hrest ha
      | heading name =>
          rw [hread] at ha htext
          exact ih htext hrest ha
      | assignment key value =>
          rw [hread] at ha htext
          rcases List.mem_cons.mp ha with rfl | ha
          · exact ⟨hsection, htext⟩
          · exact ih hsection hrest ha

def changeEntry (a : Assignment) (e : CfgEntry) : CfgEntry :=
  { e with value := a.value.take (cfgMaxValueLen - 1) }

def newEntry (a : Assignment) : CfgEntry where
  sectionName := snprintf cfgMaxKeyLen (strLower a.sectionName)
  key := snprintf cfgMaxKeyLen (strLower a.key)
  value := snprintf cfgMaxValueLen a.value

structure Fits (a : Assignment) : Prop where
  sectionName : a.sectionName.length < cfgMaxKeyLen - 1
  key : a.key.length < cfgMaxKeyLen - 1
  value : a.value.length < cfgMaxValueLen - 1

theorem entries_updateEntry (cfg : ServiceConfig) (a : Assignment)
    (hsection : 0 ∉ a.sectionName) (hkey : 0 ∉ a.key) :
    (updateEntry cfg (strLower a.sectionName) (strLower a.key) a.value).entries =
      store CfgEntry.name cfgMaxEntries (changeEntry a) (newEntry a) a.name cfg.entries := by
  have hname : folded (cstr (strLower a.sectionName)) (cstr (strLower a.key)) = a.name := by
    rw [cstr_eq_self (zero_notMem_strLower hsection), cstr_eq_self (zero_notMem_strLower hkey),
      Assignment.name, folded, folded, map_tolower_strLower, map_tolower_strLower]
  unfold updateEntry store
  rw [findEntry, named_eq, hname]
  cases cfg.entries.findIdx? fun e => decide (e.name = a.name) with
  | some i => rfl
  | none =>
      dsimp only
      split_ifs <;> rfl

theorem Fits.gives {a : Assignment} (h : Fits a) (hsection : 0 ∉ a.sectionName)
    (hkey : 0 ∉ a.key) (hvalue : 0 ∉ a.value) :
    Gives CfgEntry.name CfgEntry.text (changeEntry a) (newEntry a) a.name a.value := by
  have hlower : ∀ s : List UInt8, (0 : UInt8) ∉ s → s.length < cfgMaxKeyLen - 1 →
      cstr (snprintf cfgMaxKeyLen (strLower s)) = strLower s := by
    intro s hzero hlen
    have hshort : (strLower s).length < cfgMaxKeyLen := by
      rw [strLower, List.length_map]
      omega
    rw [snprintf_of_lt hshort, cstr_eq_self (zero_notMem_strLower hzero)]
  refine ⟨fun _ => rfl, fun e => ?_, ?_, ?_⟩
  · rw [CfgEntry.text, changeEntry, List.take_of_length_le h.value.le, cstr_eq_self hvalue]
  · rw [CfgEntry.name, newEntry, hlower _ hsection h.sectionName, hlower _ hkey h.key,
      Assignment.name, folded, folded, map_tolower_strLower, map_tolower_strLower]
  · have hshort : a.value.length < cfgMaxValueLen := h.value.trans_le (Nat.sub_le _ _)
    rw [CfgEntry.text, newEntry, snprintf_of_lt hshort, cstr_eq_self hvalue]

theorem entries_parseLines (stack : ℕ → StackBytes) (lineno : ℕ) (sectionName : List UInt8)
    (cfg : ServiceConfig) {lines : List (List UInt8)} (hsection : 0 ∉ sectionName)
    (hlines : ∀ line ∈ lines, (0 : UInt8) ∉ line)
    (hfits : ∀ a ∈ assignments sectionName lines, Fits a) :
    (parseLines stack lineno (strLower (sectionName.take (cfgMaxKeyLen - 1))) cfg lines).entries =
      storeAll CfgEntry.name cfgMaxEntries changeEntry newEntry Assignment.name
        (assignments sectionName lines) cfg.entries := by
  induction lines generalizing lineno sectionName cfg with
  | nil => rfl
  | cons line lines ih =>
      have htext := textLine_readLine (hlines line (by simp))
      have hrest : ∀ line ∈ lines, (0 : UInt8) ∉ line := fun l hl => hlines l (by simp [hl])
      rw [parseLines, parseLine_eq_obey _ _ _ (hlines line (by simp))]
      unfold assignments at hfits ⊢
      cases hread : readLine line with
      | skipped =>
          rw [hread] at hfits
          exact ih _ _ _ hsection hrest hfits
      | heading name =>
          rw [hread] at hfits htext
          exact ih _ _ _ htext hrest hfits
      | assignment key value =>
          rw [hread] at hfits htext
          have hfirst := hfits _ List.mem_cons_self
          have hself : sectionName.take (cfgMaxKeyLen - 1) = sectionName :=
            List.take_of_length_le hfirst.sectionName.le
          have hupdate := entries_updateEntry cfg ⟨sectionName, key, value⟩ hsection htext.1
          rw [obey, stackString_of_lt _ htext.1 hfirst.key,
            stackString_of_lt _ htext.2 hfirst.value]
          dsimp only
          rw [ih _ _ _ hsection hrest fun a ha => hfits a (List.mem_cons_of_mem _ ha), hself,
            hupdate]
          rfl

theorem svcPrefix_parseLines (stack : ℕ → StackBytes) (lineno : ℕ) (curSection : List UInt8)
    (cfg : ServiceConfig) (lines : List (List UInt8)) :
    (parseLines stack lineno curSection cfg lines).svcPrefix = cfg.svcPrefix := by
  have hupdate : ∀ cfg curSection key val,
      (updateEntry cfg curSection key val).svcPrefix = cfg.svcPrefix := by
    intro cfg curSection key val
    unfold updateEntry
    split
    · rfl
    · split <;> rfl
  have hline : ∀ stack curSection cfg line,
      (parseLine stack curSection cfg line).2.svcPrefix = cfg.svcPrefix := by
    intro stack curSection cfg line
    unfold parseLine
    dsimp only
    split_ifs
    all_goals first | rfl | exact hupdate _ _ _ _
  induction lines generalizing lineno curSection cfg with
  | nil => rfl
  | cons line lines ih => rw [parseLines, ih, hline]

theorem mapIdx_eq_self {α : Type*} {f : ℕ → α → α} (l : List α) (h : ∀ i a, f i a = a) :
    l.mapIdx f = l := by
  apply List.ext_getElem
  · rw [List.length_mapIdx]
  · intro i hi _
    rw [List.getElem_mapIdx, h]

theorem applyEnvOverrides_of_noOverrides {sys : Sys} {svcPrefix : Option (List UInt8)}
    (h : NoOverrides sys svcPrefix) {cfg : ServiceConfig}
    (hkept : cfg.svcPrefix = (cstr (svcPrefix.getD [])).take 63) :
    applyEnvOverrides sys cfg = cfg := by
  unfold applyEnvOverrides
  split_ifs with hempty
  · rfl
  · have hnone : ∀ stack e, sys.getenv (envName cfg.svcPrefix stack e) = none := by
      intro stack e
      rcases h with hnull | hvars
      · rw [hkept, hnull] at hempty
        exact absurd rfl hempty
      · apply hvars
        have hlen : (cfg.svcPrefix ++ [95]).length ≤ 255 := by
          rw [hkept, List.length_append, List.length_take, List.length_singleton]
          omega
        rw [envName, snprintf, ← hkept, List.append_assoc, List.append_assoc,
          List.take_append, List.take_of_length_le hlen]
        exact List.prefix_append _ _
    rw [mapIdx_eq_self]
    intro i e
    rw [hnone]

theorem view_serviceConfigLoad {sys : Sys} {path file : List UInt8}
    {svcPrefix : Option (List UInt8)} (hopen : sys.fopen (cstr path) = some file)
    (hlimits : InLimits file) (henv : NoOverrides sys svcPrefix) :
    view (serviceConfigLoad sys path svcPrefix).1 = fileMap file := by
  let cfg : ServiceConfig :=
    { entries := []
      path := (cstr path).take 255
      svcPrefix := (cstr (svcPrefix.getD [])).take 63 }
  have hlines : assignments [] (fgetsLines cfgMaxLine file) = fileAssignments file :=
    assignments_fgetsLines (by decide) [] file hlimits.lines
  have htext : ∀ line ∈ fgetsLines cfgMaxLine file, (0 : UInt8) ∉ line := by
    intro line hline hmem
    rcases mem_of_mem_fgetsFrom hline hmem with hzero | hzero
    · cases hzero
    · exact hlimits.text hzero
  have hfits : ∀ a ∈ assignments [] (fgetsLines cfgMaxLine file), Fits a := by
    rw [hlines]
    exact fun a ha => ⟨hlimits.sectionNames a ha, hlimits.keys a ha, hlimits.values a ha⟩
  have hload : (serviceConfigLoad sys path svcPrefix).1 =
      parseLines sys.lineStack 0 [] cfg (fgetsLines cfgMaxLine file) := by
    unfold serviceConfigLoad
    rw [hopen]
    simp only [parseFile, ne_eq, not_true_eq_false, if_false]
    exact applyEnvOverrides_of_noOverrides henv (svcPrefix_parseLines _ _ _ cfg _)
  have hentries : (parseLines sys.lineStack 0 [] cfg (fgetsLines cfgMaxLine file)).entries =
      storeAll CfgEntry.name cfgMaxEntries changeEntry newEntry Assignment.name
        (assignments [] (fgetsLines cfgMaxLine file)) [] :=
    entries_parseLines sys.lineStack 0 [] cfg List.not_mem_nil htext hfits
  have hgives : ∀ a ∈ fileAssignments file,
      Gives CfgEntry.name CfgEntry.text (changeEntry a) (newEntry a) a.name a.value := by
    intro a ha
    rw [← hlines] at ha
    obtain ⟨hsection, hkey, hvalue⟩ := text_of_mem_assignments List.not_mem_nil htext ha
    exact (hfits a ha).gives hsection hkey hvalue
  have hnodup : (([] : List CfgEntry).map CfgEntry.name).Nodup := List.nodup_nil
  have hroom : (([] : List CfgEntry).map CfgEntry.name ++
      (fileAssignments file).map Assignment.name).toFinset.card ≤ cfgMaxEntries :=
    hlimits.room.le
  funext name
  rw [view, hload, hentries, hlines, lookup_storeAll hgives hnodup hroom, foldl_update_apply]
  exact congrArg (Option.filter _) (Option.or_none)

/-- Queries after a load, and after any calls of `service_config_set`, ask the map that the
file describes, with the updates of the calls. -/
theorem serviceConfigGetString_run (sys : Sys) (path file : List UInt8)
    (svcPrefix : Option (List UInt8)) (calls : List SetCall)
    (hopen : sys.fopen (cstr path) = some file) (hlimits : InLimits file)
    (henv : NoOverrides sys svcPrefix)
    (hcalls : Guarded serviceConfigSet
      (fun cfg c => c.InLimits ∧ cfg.entries.length < cfgMaxEntries)
      (serviceConfigLoad sys path svcPrefix).1 calls)
    (sectionName key : List UInt8) (dflt : Option (List UInt8)) :
    serviceConfigGetString (run serviceConfigSet (serviceConfigLoad sys path svcPrefix).1 calls)
        (some sectionName) (some key) dflt =
      (calls.foldl SetCall.onMap (fileMap file) (folded (cstr sectionName) (cstr key))).or
        dflt := by
  rw [serviceConfigGetString_eq_view, view_run hcalls,
    view_serviceConfigLoad hopen hlimits henv]

/-- A file with a section opened twice, and keys assigned twice and to nothing. -/
def portsFile : List UInt8 :=
  literal "# ports\n[Server]\n Path = /a ; old\nport=1\n[x]\n[SERVER]\npath= /b\nport=;\n"

def fileSys (file : List UInt8) : Sys := { goneSys with fopen := fun _ => some file }

theorem inLimits_portsFile : InLimits portsFile := by
  have hassignments : fileAssignments portsFile =
      [⟨literal "Server", literal "Path", literal "/a"⟩,
        ⟨literal "Server", literal "port", literal "1"⟩,
        ⟨literal "SERVER", literal "path", literal "/b"⟩,
        ⟨literal "SERVER", literal "port", []⟩] := by decide +kernel
  refine ⟨by decide +kernel, ?_, ?_, ?_, ?_, ?_⟩
  · have hsplit : portsFile.splitOn newline =
        [literal "# ports", literal "[Server]", literal " Path = /a ; old", literal "port=1",
          literal "[x]", literal "[SERVER]", literal "path= /b", literal "port=;", []] := by
      decide +kernel
    rw [hsplit]
    simp [literal, ascii, cfgMaxLine]
  · rw [hassignments]
    simp [literal, ascii, cfgMaxKeyLen]
  · rw [hassignments]
    simp [literal, ascii, cfgMaxKeyLen]
  · rw [hassignments]
    simp [literal, ascii, cfgMaxValueLen]
  · rw [hassignments]
    decide +kernel

/-- A call of `service_config_set` for one of the keys. -/
def setPort : List SetCall := [⟨literal "server", literal "PORT", literal "80"⟩]

theorem serviceConfigGetString_run_ports :
    let cfg := run serviceConfigSet (serviceConfigLoad (fileSys portsFile) [] none).1 setPort
    let name := folded (literal "server") (literal "PATH")
    serviceConfigGetString cfg (some (literal "server")) (some (literal "PATH")) none =
        (setPort.foldl SetCall.onMap (fileMap portsFile) name).or none ∧
      (setPort.foldl SetCall.onMap (fileMap portsFile) name).or none = some (literal "/b") := by
  have hcalls : Guarded serviceConfigSet
      (fun cfg c => c.InLimits ∧ cfg.entries.length < cfgMaxEntries)
      (serviceConfigLoad (fileSys portsFile) [] none).1 setPort := by
    refine ⟨⟨⟨?_, ?_, ?_, ?_⟩, ?_⟩, trivial⟩
    all_goals decide +kernel
  refine ⟨?_, by decide +kernel⟩
  exact serviceConfigGetString_run (fileSys portsFile) [] portsFile none setPort rfl
    inLimits_portsFile (Or.inl rfl) hcalls (literal "server") (literal "PATH") none

end Config

end Services

end Shinigami
