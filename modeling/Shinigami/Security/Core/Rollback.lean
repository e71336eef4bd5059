import Shinigami.Security.Core.SecurityManager
import Shinigami.Security.Sandbox.Cleanup

/-!
# The rollback of the security manager

`security_manager_apply_all` with the sandbox layer carried out: the calls that the
security manager makes are run in the kernel, one after the other, until one of them kills
the process. The rollback of a layer behind the sandbox destroys the cgroup that the
process has joined, so that `returnsToCaller_iff` has a condition for the rollback beside
the one of `sandbox_apply_config`.
-/

namespace Shinigami

namespace Security

namespace Sandbox

open CString

variable {γ : Type*}

/-- `security_full_config_t`, with the sandbox in full. -/
structure FullConfig where
  sandbox : Config
  verifyKeyFile : Option (List UInt8)
  skipSandbox : Bool
  skipCapabilities : Bool
  skipSeccomp : Bool
  skipVerify : Bool

def FullConfig.toSecurityFullConfig (config : FullConfig) : SecurityFullConfig where
  sandbox := ⟨config.sandbox.enableCgroups, config.sandbox.cgroupName⟩
  verifyKeyFile := config.verifyKeyFile
  skipSandbox := config.skipSandbox
  skipCapabilities := config.skipCapabilities
  skipSeccomp := config.skipSeccomp
  skipVerify := config.skipVerify

/-- The outcomes in one `security_manager_apply_all`; `rollback` has those of the clean-up
behind `rollback`. -/
structure FullEnv where
  verifyOk : Bool
  sandbox : SandboxEnv
  capabilitiesOk : Bool
  seccompOk : Bool
  rollback : CgroupEnv

/-- A call of the security manager in the kernel. A process that has been killed makes
none. -/
def execCall (tree : CgroupTree γ) (config : FullConfig) (env : FullEnv) (k : Kernel γ)
    (c : LayerCall) : Kernel γ :=
  if k.killed then k
  else
    match c with
    | .sandboxApplyConfig _ => (sandboxApplyConfig tree config.sandbox env.sandbox k).1
    | .sandboxDestroyCgroup name => (sandboxCgroupDestroy tree name env.rollback k).1
    | _ => k

def layerEnv (tree : CgroupTree γ) (config : FullConfig) (env : FullEnv) (k : Kernel γ) :
    LayerEnv where
  verifyOk := env.verifyOk
  sandboxOk := decide ((sandboxApplyConfig tree config.sandbox env.sandbox k).2 = some 0)
  capabilitiesOk := env.capabilitiesOk
  seccompOk := env.seccompOk

/-- `security_manager_apply_all`: the kernel behind the calls, and the result. -/
def securityManagerApplyAll (tree : CgroupTree γ) (mgr : SecurityManager)
    (config : FullConfig) (env : FullEnv) (k : Kernel γ) : Kernel γ × Option ℤ :=
  let r := mgr.applyAll config.toSecurityFullConfig (layerEnv tree config env k)
  (run (execCall tree config env) k (r.1.calls.drop mgr.calls.length)).ret r.2

def sandboxRuns (mgr : SecurityManager) (config : FullConfig) (env : FullEnv) : Bool :=
  (config.skipVerify || config.verifyKeyFile.isNone || env.verifyOk) &&
    !config.skipSandbox && !mgr.seccompApplied

/-- All the layers succeed, with a sandbox layer that gives `sandboxOk`. -/
def layersPass (mgr : SecurityManager) (config : FullConfig) (env : FullEnv)
    (sandboxOk : Bool) : Bool :=
  (config.skipVerify || config.verifyKeyFile.isNone || env.verifyOk) &&
    (config.skipSandbox || (!mgr.seccompApplied && sandboxOk)) &&
    (config.skipCapabilities || (!mgr.seccompApplied && env.capabilitiesOk)) &&
    (config.skipSeccomp || env.seccompOk)

/-- What the layers have come to: the calls lead from `k` to `k'`, and the two flags. -/
structure Reached (exec : Kernel γ → LayerCall → Kernel γ) (mgr : SecurityManager)
    (k : Kernel γ) (r : SecurityManager × Bool) (k' : Kernel γ) (applied passes : Bool) :
    Prop where
  calls : ∃ calls, r.1.calls = mgr.calls ++ calls ∧ run exec k calls = k'
  applied : r.1.sandboxApplied = applied
  passes : r.2 = passes

section Layers

variable {tree : CgroupTree γ} {config : FullConfig} {env : FullEnv}
  {exec : Kernel γ → LayerCall → Kernel γ} {mgr : SecurityManager} {k k' : Kernel γ}
  {r : SecurityManager × Bool} {applied passes : Bool}

theorem Reached.start (exec : Kernel γ → LayerCall → Kernel γ) (mgr : SecurityManager)
    (k : Kernel γ) : Reached exec mgr k (mgr, true) k mgr.sandboxApplied true :=
  ⟨⟨[], (List.append_nil _).symm, rfl⟩, rfl, rfl⟩

theorem Reached.andThen (h : Reached exec mgr k r k' applied passes) (skip : Bool)
    (layer : SecurityManager → SecurityManager × ℤ) (calls : List LayerCall)
    (hcalls : (layer r.1).1.calls = r.1.calls ++ calls) :
    Reached exec mgr k (SecurityManager.andThen r skip layer)
      (if passes && !skip then run exec k' calls else k')
      (if passes && !skip then (layer r.1).1.sandboxApplied else applied)
      (passes && (skip || !decide ((layer r.1).2 < 0))) := by
  obtain ⟨mgr', b⟩ := r
  obtain ⟨⟨before, hbefore, hrun⟩, happlied, rfl⟩ := h
  cases b with
  | false => exact ⟨⟨before, hbefore, hrun⟩, happlied, rfl⟩
  | true =>
      cases skip with
      | true => exact ⟨⟨before, hbefore, hrun⟩, happlied, rfl⟩
      | false =>
          refine ⟨⟨before ++ calls, ?_, ?_⟩, rfl, rfl⟩
          · exact hcalls.trans (by rw [hbefore, List.append_assoc])
          · rw [run_append, hrun]
            rfl

theorem Reached.andThen_quiet (h : Reached exec mgr k r k' applied passes) (skip : Bool)
    (layer : SecurityManager → SecurityManager × ℤ) (calls : List LayerCall) (ok : Bool)
    (hcalls : (layer r.1).1.calls = r.1.calls ++ calls) (hquiet : run exec k' calls = k')
    (happlied : (layer r.1).1.sandboxApplied = r.1.sandboxApplied)
    (hok : (!decide ((layer r.1).2 < 0)) = ok) :
    Reached exec mgr k (SecurityManager.andThen r skip layer) k' applied
      (passes && (skip || ok)) := by
  have hnext := h.andThen skip layer calls hcalls
  rwa [hquiet, ite_self, happlied, h.applied, ite_self, hok] at hnext

theorem execCall_quiet {c : LayerCall} (hsandbox : ∀ ok, c ≠ .sandboxApplyConfig ok)
    (hdestroy : ∀ name, c ≠ .sandboxDestroyCgroup name) :
    run (execCall tree config env) k [c] = k := by
  cases c with
  | sandboxApplyConfig ok => exact absurd rfl (hsandbox ok)
  | sandboxDestroyCgroup name => exact absurd rfl (hdestroy name)
  | _ => exact ite_self k

theorem seccompApplied_applySandbox (ok : Bool) :
    (mgr.applySandbox ok).1.seccompApplied = mgr.seccompApplied := by
  unfold SecurityManager.applySandbox
  cases ok <;> split <;> rfl

theorem Reached.initVerify (h : Reached (execCall tree config env) mgr k r k' applied passes)
    (skip ok : Bool) : Reached (execCall tree config env) mgr k
      (SecurityManager.andThen r skip (·.initVerify ok)) k' applied (passes && (skip || ok)) := by
  refine h.andThen_quiet skip _ [.verifyInitFromFile ok] ok ?_
    (execCall_quiet (by simp) (by simp)) ?_ ?_
  all_goals cases ok <;> rfl

theorem Reached.applySeccomp (h : Reached (execCall tree config env) mgr k r k' applied passes)
    (skip ok : Bool) : Reached (execCall tree config env) mgr k
      (SecurityManager.andThen r skip (·.applySeccomp ok)) k' applied
      (passes && (skip || ok)) := by
  refine h.andThen_quiet skip _ [.seccompApplyConfig ok] ok ?_
    (execCall_quiet (by simp) (by simp)) ?_ ?_
  all_goals cases ok <;> rfl

theorem Reached.applyCapabilities
    (h : Reached (execCall tree config env) mgr k r k' applied passes)
    (hfilter : r.1.seccompApplied = mgr.seccompApplied) (skip ok : Bool) :
    Reached (execCall tree config env) mgr k
      (SecurityManager.andThen r skip (·.applyCapabilities ok)) k' applied
      (passes && (skip || (!mgr.seccompApplied && ok))) := by
  rw [← hfilter]
  cases happlied : r.1.seccompApplied with
  | true =>
      have hrefused := SecurityManager.applyCapabilities_of_applied happlied ok
      refine h.andThen_quiet skip _ [] _ ?_ rfl ?_ ?_
      all_goals simp [hrefused]
  | false =>
      refine h.andThen_quiet skip _ [.capabilitiesApplyConfig ok] _ ?_
        (execCall_quiet (by simp) (by simp)) ?_ ?_
      all_goals
        cases ok <;> simp [SecurityManager.applyCapabilities, happlied, SecurityManager.call]

theorem Reached.applySandbox (h : Reached (execCall tree config env) mgr k r k' applied passes)
    (hfilter : r.1.seccompApplied = mgr.seccompApplied) (skip ok : Bool) :
    Reached (execCall tree config env) mgr k
      (SecurityManager.andThen r skip (·.applySandbox ok))
      (if passes && !skip && !mgr.seccompApplied then
        execCall tree config env k' (.sandboxApplyConfig ok) else k')
      (applied || (passes && !skip && !mgr.seccompApplied && ok))
      (passes && (skip || (!mgr.seccompApplied && ok))) := by
  rw [← hfilter]
  cases happlied : r.1.seccompApplied with
  | true =>
      have hrefused := SecurityManager.applySandbox_of_applied happlied ok
      have hnext := h.andThen_quiet skip (·.applySandbox ok) [] false (by simp [hrefused]) rfl
        (by simp [hrefused]) (by simp [hrefused])
      simpa using hnext
  | false =>
      have hcall : (r.1.applySandbox ok).1.calls = r.1.calls ++ [.sandboxApplyConfig ok] := by
        cases ok <;> simp [SecurityManager.applySandbox, happlied, SecurityManager.call]
      have hflag : (r.1.applySandbox ok).1.sandboxApplied = (applied || ok) := by
        rw [← h.applied]
        cases ok <;> simp [SecurityManager.applySandbox, happlied, SecurityManager.call]
      have hok : (!decide ((r.1.applySandbox ok).2 < 0)) = ok := by
        cases ok <;> simp [SecurityManager.applySandbox, happlied]
      have hnext := h.andThen skip (·.applySandbox ok) _ hcall
      rw [hflag, hok, run_cons, run_nil] at hnext
      cases passes <;> cases skip <;> simpa using hnext

theorem reached_applyLayers (tree : CgroupTree γ) (mgr : SecurityManager)
    (config : FullConfig) (env : FullEnv) (k : Kernel γ) (ok : Bool) :
    Reached (execCall tree config env) mgr k
      (mgr.applyLayers config.toSecurityFullConfig
        ⟨env.verifyOk, ok, env.capabilitiesOk, env.seccompOk⟩)
      (if sandboxRuns mgr config env then
        execCall tree config env k (.sandboxApplyConfig ok) else k)
      (mgr.sandboxApplied || (sandboxRuns mgr config env && ok))
      (layersPass mgr config env ok) := by
  have hverify := (Reached.start (execCall tree config env) mgr k).initVerify
    (config.skipVerify || config.verifyKeyFile.isNone) env.verifyOk
  have hfilter : (SecurityManager.andThen (mgr, true)
      (config.skipVerify || config.verifyKeyFile.isNone)
      (·.initVerify env.verifyOk)).1.seccompApplied = mgr.seccompApplied :=
    SecurityManager.andThen_rec (P := (·.seccompApplied = mgr.seccompApplied))
      (r := (mgr, true)) rfl _ (SecurityManager.seccompApplied_initVerify _).trans
  have hsandbox := hverify.applySandbox hfilter config.skipSandbox ok
  have hfilter' : (SecurityManager.andThen (SecurityManager.andThen (mgr, true)
      (config.skipVerify || config.verifyKeyFile.isNone) (·.initVerify env.verifyOk))
      config.skipSandbox (·.applySandbox ok)).1.seccompApplied = mgr.seccompApplied :=
    SecurityManager.andThen_rec (P := (·.seccompApplied = mgr.seccompApplied)) hfilter _
      (seccompApplied_applySandbox ok).trans
  exact (hsandbox.applyCapabilities hfilter' config.skipCapabilities
    env.capabilitiesOk).applySeccomp config.skipSeccomp env.seccompOk

def layersKernel (tree : CgroupTree γ) (mgr : SecurityManager) (config : FullConfig)
    (env : FullEnv) (k : Kernel γ) : Kernel γ :=
  if sandboxRuns mgr config env then (sandboxApplyConfig tree config.sandbox env.sandbox k).1
  else k

def rollbackKernel (tree : CgroupTree γ) (config : FullConfig) (env : FullEnv)
    (applied : Bool) (k : Kernel γ) : Kernel γ :=
  match config.sandbox.cgroup with
  | none => k
  | some name =>
      if applied && !k.killed then (sandboxCgroupDestroy tree name env.rollback k).1 else k

theorem run_rollbackCalls (mgr : SecurityManager) (k : Kernel γ) :
    run (execCall tree config env) k (mgr.rollbackCalls config.toSecurityFullConfig) =
      rollbackKernel tree config env mgr.sandboxApplied k := by
  have hverify : run (execCall tree config env) k
      (if mgr.verifyInitialized then [.verifyCleanup] else []) = k := by
    cases mgr.verifyInitialized with
    | false => rfl
    | true => exact execCall_quiet (by simp) (by simp)
  rw [SecurityManager.rollbackCalls, run_append, hverify]
  simp only [rollbackKernel, Config.cgroup, FullConfig.toSecurityFullConfig]
  cases hname : config.sandbox.cgroupName with
  | none => simp
  | some name =>
      by_cases henabled : config.sandbox.enableCgroups = true
      · cases mgr.sandboxApplied <;> cases hkilled : k.killed <;>
          simp [execCall, henabled, hkilled]
      · simp [henabled]

theorem securityManagerApplyAll_eq (tree : CgroupTree γ) (mgr : SecurityManager)
    (config : FullConfig) (env : FullEnv) {k : Kernel γ} (halive : k.killed = false) :
    securityManagerApplyAll tree mgr config env k =
      if layersPass mgr config env (layerEnv tree config env k).sandboxOk then
        (layersKernel tree mgr config env k).ret 0
      else
        (rollbackKernel tree config env (mgr.sandboxApplied ||
          (sandboxRuns mgr config env && (layerEnv tree config env k).sandboxOk))
          (layersKernel tree mgr config env k)).ret (-1) := by
  have hreached := reached_applyLayers tree mgr config env k (layerEnv tree config env k).sandboxOk
  have hkernel : (if sandboxRuns mgr config env then execCall tree config env k
      (.sandboxApplyConfig (layerEnv tree config env k).sandboxOk) else k) =
      layersKernel tree mgr config env k := by
    simp [layersKernel, execCall, halive]
  rw [hkernel] at hreached
  obtain ⟨⟨calls, hcalls, hrun⟩, happlied, hpasses⟩ := hreached
  have henv : (⟨env.verifyOk, (layerEnv tree config env k).sandboxOk, env.capabilitiesOk,
      env.seccompOk⟩ : LayerEnv) = layerEnv tree config env k := rfl
  rw [henv] at hcalls happlied hpasses
  simp only [securityManagerApplyAll, SecurityManager.applyAll]
  generalize mgr.applyLayers config.toSecurityFullConfig (layerEnv tree config env k) = r
    at hcalls happlied hpasses ⊢
  obtain ⟨mgr', b⟩ := r
  subst hpasses
  cases hb : layersPass mgr config env (layerEnv tree config env k).sandboxOk with
  | true =>
      simp only at hcalls ⊢
      rw [hcalls, List.drop_left, hrun]
      rfl
  | false =>
      simp only at hcalls happlied ⊢
      rw [SecurityManager.rollback]
      simp only [hcalls, List.append_assoc, List.drop_left, run_append, hrun,
        run_rollbackCalls, happlied]
      rfl

end Layers

/-- All the layers succeed. -/
structure LayersPass (mgr : SecurityManager) (config : FullConfig) (env : FullEnv) : Prop where
  verify : config.skipVerify = true ∨ config.verifyKeyFile = none ∨ env.verifyOk = true
  sandbox : config.skipSandbox = true ∨
    (mgr.seccompApplied = false ∧ CheckedStepsSucceed config.sandbox env.sandbox)
  capabilities : config.skipCapabilities = true ∨
    (mgr.seccompApplied = false ∧ env.capabilitiesOk = true)
  seccomp : config.skipSeccomp = true ∨ env.seccompOk = true

/-- `security_manager_apply_all` does not kill a caller in `start`: neither does the
sandbox, nor is the caller in its cgroup when a rollback writes to `cgroup.kill`. -/
structure ApplyAllSparesCaller (tree : CgroupTree γ) (mgr : SecurityManager)
    (config : FullConfig) (env : FullEnv) (start : γ) : Prop where
  sandbox : sandboxRuns mgr config env = true →
    SparesCaller tree config.sandbox env.sandbox start
  rollback : ∀ name, config.sandbox.cgroup = some name →
    (env.rollback.write .cgroupKill).ok = true → ¬LayersPass mgr config env →
    (mgr.sandboxApplied = true ∨
      (sandboxRuns mgr config env = true ∧ CheckedStepsSucceed config.sandbox env.sandbox)) →
    ¬(sandboxRuns mgr config env = true ∧ sandboxCoreValidateConfig config.sandbox = 0 ∧
      JoinSucceeds config.sandbox env.sandbox.cgroup) ∧
      tree.contains (tree.resolve name) start = false

section Returns

variable {tree : CgroupTree γ} {mgr : SecurityManager} {config : FullConfig} {env : FullEnv}
  {k : Kernel γ}

theorem returnsToCaller_iff_alive {failed : Prop} {r : Kernel γ × Option ℤ}
    (h : KillsLogged tree r.1)
    (hret : failed → r.2 = if r.1.killed then none else some (-1)) :
    ReturnsToCaller tree failed r ↔ r.1.killed = false := by
  have hspared : (∀ w ∈ r.1.writes, w.file = .cgroupKill →
      tree.contains w.target w.caller = false) ↔ r.1.killed = false := by
    rw [← Bool.not_eq_true, show r.1.killed = true ↔ _ from h]
    simp
  constructor
  · exact fun hreturns => hspared.mp hreturns.spared
  · intro halive
    refine ⟨hspared.mpr halive, fun hfailed => ?_⟩
    rw [hret hfailed, halive]
    rfl

theorem layersPass_iff (mgr : SecurityManager) (config : FullConfig) (env : FullEnv)
    {ok : Bool} (hok : ok = true ↔ CheckedStepsSucceed config.sandbox env.sandbox) :
    layersPass mgr config env ok = true ↔ LayersPass mgr config env := by
  simp only [layersPass, Bool.and_eq_true, Bool.or_eq_true, Option.isNone_iff_eq_none,
    Bool.not_eq_true', hok]
  constructor
  · rintro ⟨⟨⟨hverify, hsandbox⟩, hcapabilities⟩, hseccomp⟩
    exact ⟨or_assoc.mp hverify, hsandbox, hcapabilities, hseccomp⟩
  · rintro ⟨hverify, hsandbox, hcapabilities, hseccomp⟩
    exact ⟨⟨⟨or_assoc.mpr hverify, hsandbox⟩, hcapabilities⟩, hseccomp⟩

theorem sandboxOk_iff (tree : CgroupTree γ) (config : FullConfig) (env : FullEnv)
    (halive : k.killed = false) :
    (layerEnv tree config env k).sandboxOk = true ↔
      CheckedStepsSucceed config.sandbox env.sandbox :=
  decide_eq_true_iff.trans (sandboxApplyConfig_eq_zero_iff halive)

theorem killsLogged_layersKernel (h : KillsLogged tree k) (halive : k.killed = false) :
    KillsLogged tree (layersKernel tree mgr config env k) := by
  unfold layersKernel
  split_ifs
  · exact h.sandboxApplyConfig halive _ _
  · exact h

theorem killed_layersKernel_iff (tree : CgroupTree γ) (mgr : SecurityManager)
    (config : FullConfig) (env : FullEnv) (halive : k.killed = false) :
    (layersKernel tree mgr config env k).killed = false ↔
      (sandboxRuns mgr config env = true →
        SparesCaller tree config.sandbox env.sandbox k.cgroup) := by
  unfold layersKernel
  split_ifs with hruns
  · rw [killed_sandboxApplyConfig_iff halive]
    exact ⟨fun h _ => h, fun h => h hruns⟩
  · exact iff_of_true halive fun h => absurd h hruns

theorem contains_layersKernel {name : List UInt8} (hname : config.sandbox.cgroup = some name)
    (halive : k.killed = false) :
    tree.contains (tree.resolve name) (layersKernel tree mgr config env k).cgroup = false ↔
      ¬(sandboxRuns mgr config env = true ∧ sandboxCoreValidateConfig config.sandbox = 0 ∧
        JoinSucceeds config.sandbox env.sandbox.cgroup) ∧
        tree.contains (tree.resolve name) k.cgroup = false := by
  unfold layersKernel
  split_ifs with hruns
  · by_cases hjoined : sandboxCoreValidateConfig config.sandbox = 0 ∧
        JoinSucceeds config.sandbox env.sandbox.cgroup
    · rw [cgroup_sandboxApplyConfig_of_join hname halive hjoined.1 hjoined.2, tree.contains_self]
      simp [hruns, hjoined]
    · rw [cgroup_sandboxApplyConfig_of_not_join fun hvalid hjoin => hjoined ⟨hvalid, hjoin⟩]
      exact ⟨fun h => ⟨fun hj => hjoined hj.2, h⟩, And.right⟩
  · exact ⟨fun h => ⟨fun hj => hruns hj.1, h⟩, And.right⟩

theorem killed_rollbackKernel_iff {applied : Bool} (hlives : k.killed = false) :
    (rollbackKernel tree config env applied k).killed = false ↔
      ∀ name, config.sandbox.cgroup = some name →
        (env.rollback.write .cgroupKill).ok = true → applied = true →
        tree.contains (tree.resolve name) k.cgroup = false := by
  unfold rollbackKernel
  cases hname : config.sandbox.cgroup with
  | none => simpa using hlives
  | some name =>
      cases applied with
      | false => simpa using hlives
      | true =>
          simp only [hlives, Bool.not_false, Bool.and_self, if_true, ← Bool.not_eq_true,
            killed_sandboxCgroupDestroy]
          simp

theorem killsLogged_securityManagerApplyAll (h : KillsLogged tree k)
    (halive : k.killed = false) :
    KillsLogged tree (securityManagerApplyAll tree mgr config env k).1 := by
  have hlayers : KillsLogged tree (layersKernel tree mgr config env k) :=
    killsLogged_layersKernel h halive
  rw [securityManagerApplyAll_eq tree mgr config env halive]
  split_ifs
  · exact hlayers
  · simp only [rollbackKernel, Kernel.ret]
    cases config.sandbox.cgroup with
    | none => exact hlayers
    | some name =>
        simp only
        split_ifs
        · exact hlayers.sandboxCgroupDestroy name env.rollback
        · exact hlayers

theorem killed_rollbackKernel_of_killed {applied : Bool} (hkilled : k.killed = true) :
    rollbackKernel tree config env applied k = k := by
  unfold rollbackKernel
  cases config.sandbox.cgroup <;> simp [hkilled]

theorem killed_securityManagerApplyAll_iff (halive : k.killed = false) :
    (securityManagerApplyAll tree mgr config env k).1.killed = false ↔
      ApplyAllSparesCaller tree mgr config env k.cgroup := by
  have hok : (layerEnv tree config env k).sandboxOk = true ↔
      CheckedStepsSucceed config.sandbox env.sandbox := sandboxOk_iff tree config env halive
  have hpass : layersPass mgr config env (layerEnv tree config env k).sandboxOk = true ↔
      LayersPass mgr config env := layersPass_iff mgr config env hok
  have hlayers := killed_layersKernel_iff tree mgr config env halive
  rw [securityManagerApplyAll_eq tree mgr config env halive]
  by_cases hlives : (layersKernel tree mgr config env k).killed = false
  · split_ifs with hpasses
    · exact iff_of_true hlives ⟨hlayers.mp hlives, fun _ _ _ hfails =>
        absurd (hpass.mp hpasses) hfails⟩
    · have hfails : ¬LayersPass mgr config env := fun h => hpasses (hpass.mpr h)
      have happlied : (mgr.sandboxApplied ||
          (sandboxRuns mgr config env && (layerEnv tree config env k).sandboxOk)) = true ↔
          mgr.sandboxApplied = true ∨ (sandboxRuns mgr config env = true ∧
            CheckedStepsSucceed config.sandbox env.sandbox) := by
        rw [Bool.or_eq_true, Bool.and_eq_true, hok]
      simp only [Kernel.ret]
      rw [killed_rollbackKernel_iff hlives]
      constructor
      · intro h
        refine ⟨hlayers.mp hlives, fun name hname hkill _ hsandbox => ?_⟩
        exact (contains_layersKernel hname halive).mp (h name hname hkill (happlied.mpr hsandbox))
      · intro h name hname hkill hsandbox
        exact (contains_layersKernel hname halive).mpr
          (h.rollback name hname hkill hfails (happlied.mp hsandbox))
  · refine iff_of_false ?_ fun h => hlives (hlayers.mpr h.sandbox)
    split_ifs
    · exact hlives
    · rw [killed_rollbackKernel_of_killed (by simpa using hlives)]
      exact hlives

end Returns

/-- In every run of `sandbox_apply_config` and of `security_manager_apply_all` the caller
survives and learns of a failure exactly when no clean-up kills it. -/
theorem returnsToCaller_iff (tree : CgroupTree γ) (pid : ℕ) (start : γ)
    (mgr : SecurityManager) (config : FullConfig) (env : FullEnv) :
    (ReturnsToCaller tree (¬CheckedStepsSucceed config.sandbox env.sandbox)
        (sandboxApplyConfig tree config.sandbox env.sandbox (Kernel.start pid start)) ↔
      SparesCaller tree config.sandbox env.sandbox start) ∧
    (ReturnsToCaller tree (¬LayersPass mgr config env)
        (securityManagerApplyAll tree mgr config env (Kernel.start pid start)) ↔
      ApplyAllSparesCaller tree mgr config env start) := by
  have hstart := killsLogged_start tree pid start
  constructor
  · rw [returnsToCaller_iff_alive (hstart.sandboxApplyConfig rfl _ _) sandboxApplyConfig_snd]
    exact killed_sandboxApplyConfig_iff rfl
  · rw [returnsToCaller_iff_alive (killsLogged_securityManagerApplyAll hstart rfl)]
    · exact killed_securityManagerApplyAll_iff rfl
    · intro hfailed
      have hpass := layersPass_iff mgr config env
        (sandboxOk_iff tree config env (k := Kernel.start pid start) rfl)
      rw [securityManagerApplyAll_eq tree mgr config env rfl,
        if_neg fun h => hfailed (hpass.mp h)]
      rfl

/-- A service in a cgroup of its own whose `unshare` fails: it is killed by the clean-up
and gets no result. -/
theorem not_returnsToCaller_unshare :
    ¬∀ (tree : CgroupTree (List UInt8)) (pid : ℕ) (start : List UInt8)
      (mgr : SecurityManager) (config : FullConfig) (env : FullEnv),
      ReturnsToCaller tree (¬CheckedStepsSucceed config.sandbox env.sandbox)
        (sandboxApplyConfig tree config.sandbox env.sandbox (Kernel.start pid start)) ∧
      ReturnsToCaller tree (¬LayersPass mgr config env)
        (securityManagerApplyAll tree mgr config env (Kernel.start pid start)) := by
  intro h
  let sandbox : SandboxEnv := { envOfWrites fun _ => .full with unshare := false }
  let config : FullConfig := ⟨memoryConfig, none, false, false, false, true⟩
  have hreported := (h namedCgroups 42 [] securityManagerInit config
    ⟨true, sandbox, true, true, sandbox.cgroup⟩).1.reported
  have hfailed : ¬CheckedStepsSucceed memoryConfig sandbox := fun hchecked =>
    Bool.false_ne_true hchecked.namespaces.unshare
  have hnone : (sandboxApplyConfig namedCgroups memoryConfig sandbox
      (Kernel.start 42 [])).2 = none := by decide
  cases hnone.symm.trans (hreported hfailed)

end Sandbox

end Security

end Shinigami
