import Shinigami.ServiceManager.Lifecycle.Config

/-!
# Failed loads of the configuration

A load writes the parsed values into the live configuration and validates them at
the end. A load that fails is harmless while nothing has been loaded or asked for,
since the next reader then starts from the defaults; later it is harmless only when
the file holds the configuration in place.
-/

namespace Shinigami

namespace ServiceManager

/-- The configuration that `sm_config_get` returns in a state. -/
def configSeen (s : ConfigState) : SmConfig := (smConfigGet s).1

def isSet : ConfigEvent → Bool
  | .setInt _ _ => true
  | .setString _ _ _ => true
  | _ => false

/-- A load that returns -1 leaves what `sm_config_get` returns. -/
def FailedLoadsKeep (s : ConfigState) (evs : List ConfigEvent) : Prop :=
  ∀ before file after, evs = before ++ .load file :: after →
    (smConfigLoad (run configStep s before) file).2 = -1 →
    configSeen (run configStep s (before ++ [.load file])) =
      configSeen (run configStep s before)

/-- As long as no single value has been set, `sm_config_get` returns a valid
configuration. -/
def LoadsStayValid (s : ConfigState) (evs : List ConfigEvent) : Prop :=
  ∀ before after, evs = before ++ after → (∀ ev ∈ before, isSet ev = false) →
    smConfigValidate (configSeen (run configStep s before)) = 0

/-- If the call is a load of an invalid file, nothing has been loaded or asked for yet,
or the file holds the configuration in place. -/
def HarmlessLoad (s : ConfigState) : ConfigEvent → Prop
  | .load (some bytes) =>
      smConfigValidate (parseConfig bytes) < 0 →
        s.loaded = false ∨ parseConfig bytes = s.config
  | _ => True

theorem smConfigValidate_eq (cfg : SmConfig) :
    smConfigValidate cfg = -1 ∨ smConfigValidate cfg = 0 := by
  unfold smConfigValidate
  split_ifs
  all_goals simp

theorem smConfigValidate_default : smConfigValidate smConfigDefault = 0 := by decide

section Load

variable {s : ConfigState}

theorem configSeen_of_loaded (h : s.loaded = true) : configSeen s = s.config := by
  simp [configSeen, smConfigGet, h]

theorem configSeen_of_not_loaded (h : s.loaded = false) : configSeen s = smConfigDefault := by
  simp [configSeen, smConfigGet, h]

theorem smConfigLoad_none : smConfigLoad s none = (⟨smConfigDefault, true⟩, 0) := rfl

theorem smConfigLoad_of_valid {bytes : List UInt8}
    (h : smConfigValidate (parseConfig bytes) = 0) :
    smConfigLoad s (some bytes) = (⟨parseConfig bytes, true⟩, 0) := by
  simp [smConfigLoad, h]

theorem smConfigLoad_of_invalid {bytes : List UInt8}
    (h : smConfigValidate (parseConfig bytes) < 0) :
    smConfigLoad s (some bytes) = (⟨parseConfig bytes, s.loaded⟩, -1) := by
  simp [smConfigLoad, h]

theorem smConfigLoad_eq_neg_one_iff {file : Option (List UInt8)} :
    (smConfigLoad s file).2 = -1 ↔
      ∃ bytes, file = some bytes ∧ smConfigValidate (parseConfig bytes) < 0 := by
  cases file with
  | none => simp [smConfigLoad_none]
  | some bytes =>
      rcases smConfigValidate_eq (parseConfig bytes) with hinvalid | hvalid
      · have hneg : smConfigValidate (parseConfig bytes) < 0 := by omega
        simp [smConfigLoad_of_invalid hneg, hneg]
      · simp [smConfigLoad_of_valid hvalid, hvalid]

/-- A load keeps what `sm_config_get` returns when it fails, exactly when it is
harmless. -/
theorem failedLoad_keeps_iff (s : ConfigState) (file : Option (List UInt8)) :
    ((smConfigLoad s file).2 = -1 →
        configSeen (configStep s (.load file)) = configSeen s) ↔
      HarmlessLoad s (.load file) := by
  cases file with
  | none => simp [smConfigLoad_none, HarmlessLoad]
  | some bytes =>
      rw [smConfigLoad_eq_neg_one_iff]
      simp only [Option.some.injEq, exists_eq_left', HarmlessLoad, configStep]
      refine imp_congr_right fun hinvalid => ?_
      rw [smConfigLoad_of_invalid hinvalid]
      cases hloaded : s.loaded with
      | true =>
          rw [configSeen_of_loaded rfl, configSeen_of_loaded hloaded]
          simp
      | false =>
          rw [configSeen_of_not_loaded rfl, configSeen_of_not_loaded hloaded]
          simp

def LoadedValid (s : ConfigState) : Prop :=
  s.loaded = true → smConfigValidate s.config = 0

theorem loadedValid_step (s : ConfigState) (ev : ConfigEvent)
    (hev : HarmlessLoad s ev ∧ isSet ev = false) (h : LoadedValid s) :
    LoadedValid (configStep s ev) := by
  cases ev with
  | load file =>
      cases file with
      | none => exact fun _ => smConfigValidate_default
      | some bytes =>
          rcases smConfigValidate_eq (parseConfig bytes) with hinvalid | hvalid
          · have hneg : smConfigValidate (parseConfig bytes) < 0 := by omega
            rw [configStep, smConfigLoad_of_invalid hneg]
            intro hloaded
            rcases hev.1 hneg with hclear | hsame
            · exact absurd (hclear.symm.trans hloaded) (by simp)
            · -- The configuration in place is valid, the file is not.
              have hvalid := h hloaded
              rw [← hsame] at hvalid
              omega
          · rw [configStep, smConfigLoad_of_valid hvalid]
            exact fun _ => hvalid
  | setInt key value => simp [isSet] at hev
  | setString sectionName key value => simp [isSet] at hev
  | get =>
      cases hloaded : s.loaded with
      | true => simpa [configStep, smConfigGet, hloaded] using h
      | false =>
          simp only [configStep, smConfigGet, hloaded]
          exact fun _ => smConfigValidate_default

theorem validate_configSeen (h : LoadedValid s) : smConfigValidate (configSeen s) = 0 := by
  cases hloaded : s.loaded with
  | true =>
      rw [configSeen_of_loaded hloaded]
      exact h hloaded
  | false =>
      rw [configSeen_of_not_loaded hloaded]
      exact smConfigValidate_default

end Load

/-- In every run from the initial state: failed loads keep the configuration and loads
alone leave it valid, exactly when every load of the run is harmless. -/
theorem reloadAtomic_iff (evs : List ConfigEvent) :
    FailedLoadsKeep .initial evs ∧ LoadsStayValid .initial evs ↔
      Guarded configStep HarmlessLoad .initial evs := by
  rw [guarded_iff_forall_split]
  constructor
  · rintro ⟨hkeep, -⟩ before ev after hsplit
    cases ev with
    | load file =>
        have hload := hkeep before file after hsplit
        rw [run_concat] at hload
        exact (failedLoad_keeps_iff _ file).mp hload
    | setInt key value => trivial
    | setString sectionName key value => trivial
    | get => trivial
  · intro hharmless
    refine ⟨fun before file after hsplit hfailed => ?_, fun before after hsplit hsets => ?_⟩
    · rw [run_concat]
      exact (failedLoad_keeps_iff _ file).mpr (hharmless before _ after hsplit) hfailed
    · have hguarded : Guarded configStep HarmlessLoad .initial before := by
        have hall := guarded_iff_forall_split.mpr hharmless
        rw [hsplit, guarded_append] at hall
        exact hall.1
      refine validate_configSeen (run_invariant_of_guarded loadedValid_step ?_
        (hguarded.and (guarded_of_forall _ hsets)))
      intro hloaded
      cases hloaded

/-- A reload of a file with `max_services=0` fails and leaves that value in the
configuration that readers get. -/
theorem failed_reload_seen :
    ¬(FailedLoadsKeep .initial
        [.load (some []),
          .load (some (CString.literal "[limits]\nmax_services=0\n"))] ∧
      LoadsStayValid .initial
        [.load (some []),
          .load (some (CString.literal "[limits]\nmax_services=0\n"))]) := by
  rintro ⟨hkeep, -⟩
  have hseen := congrArg SmConfig.maxServices (hkeep [.load (some [])] _ [] rfl (by decide))
  exact absurd hseen (by decide)

end ServiceManager

end Shinigami
