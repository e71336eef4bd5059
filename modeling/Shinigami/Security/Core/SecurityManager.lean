import Mathlib.Data.Int.Notation
import Mathlib.Tactic.SplitIfs
import Shinigami.Foundations.Run

/-!
# The security manager

The layers of `security_manager.c`. The results of `verify_init_from_file`,
`sandbox_apply_config`, `capabilities_apply_config` and `seccomp_apply_config`
are arguments, and `SecurityManager.calls` records the calls in their order.

Every single layer keeps the order of the layers (`KeepsOrder`). The rollback of
`security_manager_apply_all` clears `seccomp_applied` although an installed filter
stays, so the order is kept exactly in the runs without a rollback behind a
filter (`layersOrdered_iff`).
-/

namespace Shinigami

namespace Security

/-- `security_state_t`. -/
inductive SecurityState where
  | uninitialized
  | sandboxApplied
  | capabilitiesApplied
  | seccompApplied
  | verifyInitialized
  | fullySecured
deriving DecidableEq, Repr

inductive LayerCall where
  | verifyInitFromFile (ok : Bool)
  | sandboxApplyConfig (ok : Bool)
  | capabilitiesApplyConfig (ok : Bool)
  | seccompApplyConfig (ok : Bool)
  | verifyCleanup
  | sandboxDestroyCgroup (name : List UInt8)
deriving DecidableEq, Repr

def LayerCall.Restricts : LayerCall → Prop
  | .sandboxApplyConfig _ => True
  | .capabilitiesApplyConfig _ => True
  | _ => False

/-- What the manager reads of `sandbox_config_t`. -/
structure SandboxConfig where
  enableCgroups : Bool
  cgroupName : Option (List UInt8)
deriving DecidableEq, Repr

/-- `security_full_config_t`. -/
structure SecurityFullConfig where
  sandbox : SandboxConfig
  verifyKeyFile : Option (List UInt8)
  skipSandbox : Bool
  skipCapabilities : Bool
  skipSeccomp : Bool
  skipVerify : Bool
deriving DecidableEq, Repr

/-- The results of the layers in one `security_manager_apply_all`. -/
structure LayerEnv where
  verifyOk : Bool
  sandboxOk : Bool
  capabilitiesOk : Bool
  seccompOk : Bool
deriving DecidableEq, Repr

/-- `security_manager_t`, with the calls made so far. -/
structure SecurityManager where
  state : SecurityState
  sandboxApplied : Bool
  capabilitiesApplied : Bool
  seccompApplied : Bool
  verifyInitialized : Bool
  calls : List LayerCall
deriving DecidableEq, Repr

def securityManagerInit : SecurityManager :=
  ⟨.uninitialized, false, false, false, false, []⟩

namespace SecurityManager

def call (mgr : SecurityManager) (c : LayerCall) : SecurityManager :=
  { mgr with calls := mgr.calls ++ [c] }

/-- `security_manager_apply_sandbox`. -/
def applySandbox (mgr : SecurityManager) (ok : Bool) : SecurityManager × ℤ :=
  if mgr.seccompApplied then (mgr, -1)
  else
    let mgr := mgr.call (.sandboxApplyConfig ok)
    if !ok then (mgr, -1)
    else ({ mgr with sandboxApplied := true, state := .sandboxApplied }, 0)

/-- `security_manager_apply_capabilities`. -/
def applyCapabilities (mgr : SecurityManager) (ok : Bool) : SecurityManager × ℤ :=
  if mgr.seccompApplied then (mgr, -1)
  else
    let mgr := mgr.call (.capabilitiesApplyConfig ok)
    if !ok then (mgr, -1)
    else ({ mgr with capabilitiesApplied := true, state := .capabilitiesApplied }, 0)

/-- `security_manager_apply_seccomp`. -/
def applySeccomp (mgr : SecurityManager) (ok : Bool) : SecurityManager × ℤ :=
  let mgr := mgr.call (.seccompApplyConfig ok)
  if !ok then (mgr, -1)
  else ({ mgr with seccompApplied := true, state := .seccompApplied }, 0)

/-- `security_manager_init_verify`. -/
def initVerify (mgr : SecurityManager) (ok : Bool) : SecurityManager × ℤ :=
  let mgr := mgr.call (.verifyInitFromFile ok)
  if !ok then (mgr, -1)
  else ({ mgr with verifyInitialized := true, state := .verifyInitialized }, 0)

/-- One layer of `security_manager_apply_all`, once those before it have
succeeded. -/
def andThen (r : SecurityManager × Bool) (skip : Bool)
    (layer : SecurityManager → SecurityManager × ℤ) : SecurityManager × Bool :=
  if !r.2 || skip then r
  else
    let (mgr, rc) := layer r.1
    (mgr, !decide (rc < 0))

def frontLayers (mgr : SecurityManager) (config : SecurityFullConfig) (env : LayerEnv) :
    SecurityManager × Bool :=
  let r := andThen (mgr, true) (config.skipVerify || config.verifyKeyFile.isNone)
    (·.initVerify env.verifyOk)
  let r := andThen r config.skipSandbox (·.applySandbox env.sandboxOk)
  andThen r config.skipCapabilities (·.applyCapabilities env.capabilitiesOk)

def applyLayers (mgr : SecurityManager) (config : SecurityFullConfig) (env : LayerEnv) :
    SecurityManager × Bool :=
  andThen (mgr.frontLayers config env) config.skipSeccomp (·.applySeccomp env.seccompOk)

/-- What the code behind `rollback` calls. -/
def rollbackCalls (mgr : SecurityManager) (config : SecurityFullConfig) : List LayerCall :=
  (if mgr.verifyInitialized then [.verifyCleanup] else []) ++
    match config.sandbox.cgroupName with
    | some name =>
        if mgr.sandboxApplied && config.sandbox.enableCgroups then
          [.sandboxDestroyCgroup name]
        else []
    | none => []

/-- The tail of `security_manager_apply_all` behind `rollback`. -/
def rollback (mgr : SecurityManager) (config : SecurityFullConfig) : SecurityManager where
  state := .uninitialized
  sandboxApplied := false
  capabilitiesApplied := false
  seccompApplied := false
  verifyInitialized := false
  calls := mgr.calls ++ mgr.rollbackCalls config

/-- `security_manager_apply_all`. -/
def applyAll (mgr : SecurityManager) (config : SecurityFullConfig) (env : LayerEnv) :
    SecurityManager × ℤ :=
  match mgr.applyLayers config env with
  | (mgr, true) => ({ mgr with state := .fullySecured }, 0)
  | (mgr, false) => (mgr.rollback config, -1)

/-- A call of one of the functions above. -/
inductive Event where
  | applySandbox (ok : Bool)
  | applyCapabilities (ok : Bool)
  | applySeccomp (ok : Bool)
  | initVerify (ok : Bool)
  | applyAll (config : SecurityFullConfig) (env : LayerEnv)
deriving DecidableEq, Repr

def step (mgr : SecurityManager) : Event → SecurityManager
  | .applySandbox ok => (mgr.applySandbox ok).1
  | .applyCapabilities ok => (mgr.applyCapabilities ok).1
  | .applySeccomp ok => (mgr.applySeccomp ok).1
  | .initVerify ok => (mgr.initVerify ok).1
  | .applyAll config env => (mgr.applyAll config env).1

def FilterInstalled (mgr : SecurityManager) : Prop :=
  .seccompApplyConfig true ∈ mgr.calls

/-- No layer has been set up behind an installed filter, and the manager knows of
the filter. -/
structure LayersOrdered (mgr : SecurityManager) : Prop where
  ordered : mgr.calls.Pairwise fun c c' => c = .seccompApplyConfig true → ¬c'.Restricts
  applied : mgr.FilterInstalled → mgr.seccompApplied = true

def Passes (config : SecurityFullConfig) (env : LayerEnv) : Prop :=
  (config.skipVerify ∨ config.verifyKeyFile = none ∨ env.verifyOk) ∧
    config.skipSandbox ∧ config.skipCapabilities ∧ (config.skipSeccomp ∨ env.seccompOk)

/-- The call is not one that rolls back although a filter is installed. -/
def KeepsOrder (mgr : SecurityManager) : Event → Prop
  | .applyAll config env => mgr.FilterInstalled → Passes config env
  | _ => True

variable {mgr : SecurityManager}

theorem layersOrdered_init : LayersOrdered securityManagerInit :=
  ⟨.nil, fun h => absurd h (List.not_mem_nil)⟩

theorem LayersOrdered.call (h : LayersOrdered mgr) {c : LayerCall} (hc : ¬c.Restricts)
    (hinstall : c ≠ .seccompApplyConfig true) : LayersOrdered (mgr.call c) where
  ordered := by
    refine List.pairwise_append.mpr ⟨h.ordered, List.pairwise_singleton _ _, ?_⟩
    intro a _ b hb _
    rw [List.mem_singleton.mp hb]
    exact hc
  applied := by
    intro hinstalled
    rcases List.mem_append.mp hinstalled with hold | hnew
    · exact h.applied hold
    · exact absurd (List.mem_singleton.mp hnew).symm hinstall

theorem LayersOrdered.call_of_not_installed (h : LayersOrdered mgr)
    (hnot : ¬mgr.FilterInstalled) {c : LayerCall}
    (hc : c ≠ .seccompApplyConfig true) : LayersOrdered (mgr.call c) where
  ordered := by
    refine List.pairwise_append.mpr ⟨h.ordered, List.pairwise_singleton _ _, ?_⟩
    rintro a ha b - rfl
    exact absurd ha hnot
  applied := by
    intro hinstalled
    rcases List.mem_append.mp hinstalled with hold | hnew
    · exact absurd hold hnot
    · exact absurd (List.mem_singleton.mp hnew).symm hc

/-- The fields besides the flag of the filter and the calls do not matter. -/
theorem LayersOrdered.of_eq {mgr' : SecurityManager} (h : LayersOrdered mgr)
    (hcalls : mgr'.calls = mgr.calls) (happlied : mgr'.seccompApplied = mgr.seccompApplied) :
    LayersOrdered mgr' := by
  refine ⟨hcalls ▸ h.ordered, fun hinstalled => ?_⟩
  rw [happlied]
  exact h.applied (by rwa [FilterInstalled, hcalls] at hinstalled)

theorem LayersOrdered.applySandbox (h : LayersOrdered mgr) (ok : Bool) :
    LayersOrdered (mgr.applySandbox ok).1 := by
  by_cases happlied : mgr.seccompApplied = true
  · rw [SecurityManager.applySandbox, if_pos happlied]
    exact h
  · have hcall := h.call_of_not_installed (fun hf => happlied (h.applied hf))
      (c := .sandboxApplyConfig ok) (by simp)
    rw [SecurityManager.applySandbox, if_neg happlied]
    cases ok with
    | false => exact hcall
    | true => exact hcall.of_eq rfl rfl

theorem LayersOrdered.applyCapabilities (h : LayersOrdered mgr) (ok : Bool) :
    LayersOrdered (mgr.applyCapabilities ok).1 := by
  by_cases happlied : mgr.seccompApplied = true
  · rw [SecurityManager.applyCapabilities, if_pos happlied]
    exact h
  · have hcall := h.call_of_not_installed (fun hf => happlied (h.applied hf))
      (c := .capabilitiesApplyConfig ok) (by simp)
    rw [SecurityManager.applyCapabilities, if_neg happlied]
    cases ok with
    | false => exact hcall
    | true => exact hcall.of_eq rfl rfl

theorem LayersOrdered.applySeccomp (h : LayersOrdered mgr) (ok : Bool) :
    LayersOrdered (mgr.applySeccomp ok).1 := by
  cases ok with
  | false => exact h.call (fun hr => hr) (by simp)
  | true =>
      refine ⟨?_, fun _ => rfl⟩
      refine List.pairwise_append.mpr ⟨h.ordered, List.pairwise_singleton _ _, ?_⟩
      intro a _ b hb _
      rw [List.mem_singleton.mp hb]
      exact fun hr => hr

theorem LayersOrdered.initVerify (h : LayersOrdered mgr) (ok : Bool) :
    LayersOrdered (mgr.initVerify ok).1 := by
  have hcall := h.call (c := .verifyInitFromFile ok) (fun hr => hr) (by simp)
  cases ok with
  | false => exact hcall
  | true => exact hcall.of_eq rfl rfl

theorem andThen_true (skip : Bool) (layer : SecurityManager → SecurityManager × ℤ) :
    andThen (mgr, true) skip layer =
      if skip then (mgr, true) else ((layer mgr).1, !decide ((layer mgr).2 < 0)) := by
  cases skip <;> rfl

theorem andThen_rec {P : SecurityManager → Prop} {r : SecurityManager × Bool}
    (hr : P r.1) (skip : Bool) {layer : SecurityManager → SecurityManager × ℤ}
    (hlayer : P r.1 → P (layer r.1).1) : P (andThen r skip layer).1 := by
  unfold andThen
  split_ifs
  · exact hr
  · exact hlayer hr

theorem andThen_snd_iff {r : SecurityManager × Bool} {skip : Bool}
    {layer : SecurityManager → SecurityManager × ℤ} :
    (andThen r skip layer).2 = true ↔
      r.2 = true ∧ (skip = true ∨ 0 ≤ (layer r.1).2) := by
  obtain ⟨mgr, ok⟩ := r
  cases ok <;> cases skip <;> simp [andThen]

theorem frontLayers_rec {P : SecurityManager → Prop} (h : P mgr)
    (hverify : ∀ mgr ok, P mgr → P (initVerify mgr ok).1)
    (hsandbox : ∀ mgr ok, P mgr → P (applySandbox mgr ok).1)
    (hcapabilities : ∀ mgr ok, P mgr → P (applyCapabilities mgr ok).1)
    (config : SecurityFullConfig) (env : LayerEnv) : P (mgr.frontLayers config env).1 := by
  unfold frontLayers
  refine andThen_rec ?_ _ (hcapabilities _ _)
  refine andThen_rec ?_ _ (hsandbox _ _)
  exact andThen_rec (r := (mgr, true)) h _ (hverify _ _)

theorem LayersOrdered.frontLayers (h : LayersOrdered mgr) (config : SecurityFullConfig)
    (env : LayerEnv) : LayersOrdered (mgr.frontLayers config env).1 :=
  frontLayers_rec h (fun _ ok h => h.initVerify ok) (fun _ ok h => h.applySandbox ok)
    (fun _ ok h => h.applyCapabilities ok) config env

theorem LayersOrdered.applyLayers (h : LayersOrdered mgr) (config : SecurityFullConfig)
    (env : LayerEnv) : LayersOrdered (mgr.applyLayers config env).1 :=
  andThen_rec (h.frontLayers config env) _ fun h => h.applySeccomp _

theorem seccompApplied_initVerify (ok : Bool) :
    (mgr.initVerify ok).1.seccompApplied = mgr.seccompApplied := by
  cases ok <;> rfl

theorem initVerify_snd_nonneg (ok : Bool) : 0 ≤ (mgr.initVerify ok).2 ↔ ok = true := by
  cases ok <;> simp [initVerify]

theorem applySeccomp_snd_nonneg (ok : Bool) :
    0 ≤ (mgr.applySeccomp ok).2 ↔ ok = true := by
  cases ok <;> simp [applySeccomp]

theorem applySandbox_of_applied (happlied : mgr.seccompApplied = true) (ok : Bool) :
    mgr.applySandbox ok = (mgr, -1) :=
  if_pos happlied

theorem applyCapabilities_of_applied (happlied : mgr.seccompApplied = true) (ok : Bool) :
    mgr.applyCapabilities ok = (mgr, -1) :=
  if_pos happlied

/-- Behind a filter the layers succeed only if sandbox and capabilities are
skipped. -/
theorem applyLayers_snd_iff (happlied : mgr.seccompApplied = true)
    (config : SecurityFullConfig) (env : LayerEnv) :
    (mgr.applyLayers config env).2 = true ↔ Passes config env := by
  have hverify : (andThen (mgr, true) (config.skipVerify || config.verifyKeyFile.isNone)
      (·.initVerify env.verifyOk)).1.seccompApplied = true :=
    andThen_rec (P := (·.seccompApplied = true)) (r := (mgr, true)) happlied _
      (seccompApplied_initVerify _).trans
  have hsandbox : (andThen (andThen (mgr, true)
      (config.skipVerify || config.verifyKeyFile.isNone) (·.initVerify env.verifyOk))
      config.skipSandbox (·.applySandbox env.sandboxOk)).1.seccompApplied = true :=
    andThen_rec (P := (·.seccompApplied = true)) hverify _ fun h => by
      rwa [applySandbox_of_applied h]
  simp only [applyLayers, frontLayers, andThen_snd_iff, applySandbox_of_applied hverify,
    applyCapabilities_of_applied hsandbox, initVerify_snd_nonneg, applySeccomp_snd_nonneg]
  simp [Passes, and_assoc, or_assoc]

theorem filterInstalled_initVerify (ok : Bool) :
    (mgr.initVerify ok).1.FilterInstalled ↔ mgr.FilterInstalled := by
  cases ok <;> simp [FilterInstalled, initVerify, call]

theorem filterInstalled_applySandbox (ok : Bool) :
    (mgr.applySandbox ok).1.FilterInstalled ↔ mgr.FilterInstalled := by
  unfold applySandbox
  cases ok <;> split <;> simp [FilterInstalled, call]

theorem filterInstalled_applyCapabilities (ok : Bool) :
    (mgr.applyCapabilities ok).1.FilterInstalled ↔ mgr.FilterInstalled := by
  unfold applyCapabilities
  cases ok <;> split <;> simp [FilterInstalled, call]

theorem filterInstalled_applyLayers {config : SecurityFullConfig} {env : LayerEnv}
    (hfail : (mgr.applyLayers config env).2 = false) :
    (mgr.applyLayers config env).1.FilterInstalled ↔ mgr.FilterInstalled := by
  have hfront : (mgr.frontLayers config env).1.FilterInstalled ↔ mgr.FilterInstalled :=
    frontLayers_rec (P := fun mgr' => mgr'.FilterInstalled ↔ mgr.FilterInstalled) .rfl
      (fun _ _ => (filterInstalled_initVerify _).trans)
      (fun _ _ => (filterInstalled_applySandbox _).trans)
      (fun _ _ => (filterInstalled_applyCapabilities _).trans) config env
  unfold applyLayers at hfail ⊢
  generalize mgr.frontLayers config env = r at hfront hfail ⊢
  obtain ⟨mgr', ok⟩ := r
  cases ok with
  | false => exact hfront
  | true =>
      rw [andThen_true] at hfail ⊢
      split_ifs at hfail ⊢
      rw [← hfront]
      cases hok : env.seccompOk with
      | true =>
          rw [hok] at hfail
          cases hfail
      | false => simp [FilterInstalled, applySeccomp, call]

theorem rollbackCalls_harmless {config : SecurityFullConfig} {c : LayerCall}
    (hc : c ∈ mgr.rollbackCalls config) :
    ¬c.Restricts ∧ c ≠ .seccompApplyConfig true := by
  have hcases : c = .verifyCleanup ∨ ∃ name, c = .sandboxDestroyCgroup name := by
    unfold rollbackCalls at hc
    rcases List.mem_append.mp hc with hc | hc
    · split at hc <;> simp_all
    · split at hc
      · split at hc <;> simp_all
      · simp at hc
  rcases hcases with rfl | ⟨name, rfl⟩
  · exact ⟨fun hr => hr, by simp⟩
  · exact ⟨fun hr => hr, by simp⟩

theorem filterInstalled_rollback (config : SecurityFullConfig) :
    (mgr.rollback config).FilterInstalled ↔ mgr.FilterInstalled := by
  unfold FilterInstalled rollback
  rw [List.mem_append]
  exact ⟨fun h => h.resolve_right fun hmem => (rollbackCalls_harmless hmem).2 rfl, .inl⟩

theorem LayersOrdered.rollback_iff (h : LayersOrdered mgr) (config : SecurityFullConfig) :
    LayersOrdered (mgr.rollback config) ↔ ¬mgr.FilterInstalled := by
  constructor
  · intro hrolled hinstalled
    have happlied := hrolled.applied ((filterInstalled_rollback config).mpr hinstalled)
    cases happlied
  · intro hnot
    refine ⟨?_, fun hinstalled => ?_⟩
    · refine List.pairwise_append.mpr ⟨h.ordered, ?_, ?_⟩
      · exact List.pairwise_of_forall_mem_list fun c _ c' hc' _ =>
          (rollbackCalls_harmless hc').1
      · exact fun c _ c' hc' _ => (rollbackCalls_harmless hc').1
    · exact absurd ((filterInstalled_rollback config).mp hinstalled) hnot

theorem LayersOrdered.applyAll_iff (h : LayersOrdered mgr) (config : SecurityFullConfig)
    (env : LayerEnv) :
    LayersOrdered (mgr.applyAll config env).1 ↔
      (mgr.FilterInstalled → Passes config env) := by
  have hlayers := h.applyLayers config env
  have hpasses : mgr.FilterInstalled →
      ((mgr.applyLayers config env).2 = true ↔ Passes config env) :=
    fun hinstalled => applyLayers_snd_iff (h.applied hinstalled) config env
  have hinstalled : (mgr.applyLayers config env).2 = false →
      ((mgr.applyLayers config env).1.FilterInstalled ↔ mgr.FilterInstalled) :=
    filterInstalled_applyLayers
  unfold applyAll
  generalize mgr.applyLayers config env = r at hlayers hpasses hinstalled ⊢
  obtain ⟨mgr', ok⟩ := r
  cases ok with
  | true =>
      refine iff_of_true (hlayers.of_eq rfl rfl) fun hf => (hpasses hf).mp rfl
  | false =>
      apply (hlayers.rollback_iff config).trans
      rw [hinstalled rfl]
      exact ⟨fun hnot hf => absurd hf hnot, fun himp hf =>
        Bool.false_ne_true ((hpasses hf).mpr (himp hf))⟩

theorem LayersOrdered.step_iff (mgr : SecurityManager) (ev : Event)
    (h : LayersOrdered mgr) : LayersOrdered (mgr.step ev) ↔ mgr.KeepsOrder ev := by
  cases ev with
  | applySandbox ok => exact iff_of_true (h.applySandbox ok) trivial
  | applyCapabilities ok => exact iff_of_true (h.applyCapabilities ok) trivial
  | applySeccomp ok => exact iff_of_true (h.applySeccomp ok) trivial
  | initVerify ok => exact iff_of_true (h.initVerify ok) trivial
  | applyAll config env => exact h.applyAll_iff config env

/-- In a run of the manager the layers stay in their order exactly when no
`security_manager_apply_all` rolls back behind an installed filter. -/
theorem layersOrdered_iff (evs : List Event) :
    (∀ before, before <+: evs → LayersOrdered (run step securityManagerInit before)) ↔
      Guarded step KeepsOrder securityManagerInit evs :=
  forall_prefix_iff_guarded (J := fun _ => True) (P := fun _ => True)
    (fun _ _ _ _ _ _ => trivial) (fun mgr ev _ _ h => h.step_iff mgr ev) trivial
    layersOrdered_init fun _ _ => trivial

/-- A filter, a refused `security_manager_apply_all`, and a sandbox behind the
filter. -/
theorem sandbox_applied_behind_filter :
    let mgr := run step securityManagerInit
      [.applySeccomp true, .applyAll ⟨⟨false, none⟩, none, false, false, false, true⟩
        ⟨true, true, true, true⟩, .applySandbox true]
    mgr.calls = [.seccompApplyConfig true, .sandboxApplyConfig true] ∧
      mgr.seccompApplied = false ∧ ¬LayersOrdered mgr := by
  intro mgr
  refine ⟨rfl, rfl, fun h => ?_⟩
  have hsandbox := (List.pairwise_cons.mp h.ordered).1 (.sandboxApplyConfig true)
    (List.mem_singleton.mpr rfl) rfl
  exact hsandbox trivial

end SecurityManager

end Security

end Shinigami
