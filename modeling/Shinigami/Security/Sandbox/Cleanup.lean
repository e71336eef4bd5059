import Shinigami.Security.Core.SecurityManager
import Shinigami.Security.Sandbox.Enforcement

/-!
# The clean-up of a sandbox that failed

`sandbox_cgroup_destroy` writes to `cgroup.kill`, and two of its three callers run it in a
process that has joined the cgroup. A caller is killed by its own clean-up, and gets no
result, exactly when a write to `cgroup.kill` succeeds while the caller is in the cgroup:
`returnsToCaller_iff` says for `sandbox_apply_config` and for
`security_manager_apply_all` when that is.

`security_manager_apply_all` is the one of the security manager, with the calls that it
makes carried out by the kernel.
-/

namespace Shinigami

namespace Security

namespace Sandbox

open CString

variable {γ : Type*}

/-- The process is killed exactly when there is a write to the `cgroup.kill` of a cgroup
that it was in. -/
def KillsLogged (tree : CgroupTree γ) (k : Kernel γ) : Prop :=
  k.killed = true ↔
    ∃ w ∈ k.writes, w.file = .cgroupKill ∧ tree.contains w.target w.caller = true

/-- No write goes to the `cgroup.kill` of a cgroup that contains the caller, and a
failure is reported to the caller. -/
structure ReturnsToCaller (tree : CgroupTree γ) (failed : Prop) (r : Kernel γ × Option ℤ) :
    Prop where
  spared : ∀ w ∈ r.1.writes, w.file = .cgroupKill → tree.contains w.target w.caller = false
  reported : failed → r.2 = some (-1)

/-- `sandbox_apply_config` does not kill a caller in `start`: where the clean-up kills,
the namespaces succeed behind a cgroup that is joined, and the caller is elsewhere behind
one that is not. -/
def SparesCaller (tree : CgroupTree γ) (cfg : Config) (env : SandboxEnv) (start : γ) : Prop :=
  ∀ name, cfg.cgroup = some name → sandboxCoreValidateConfig cfg = 0 →
    env.cgroup.mkdir.ok = true → (env.cgroup.write .cgroupKill).ok = true →
    ((env.cgroup.write .cgroupProcs).ok = true → NamespacesSucceed cfg env) ∧
    ((env.cgroup.write .cgroupProcs).ok = false →
      tree.contains (tree.resolve name) start = false)

section Kills

variable {tree : CgroupTree γ} {cfg : Config} {env : SandboxEnv} {k : Kernel γ}

theorem killsLogged_start (tree : CgroupTree γ) (pid : ℕ) (start : γ) :
    KillsLogged tree (Kernel.start pid start) := by
  simp [KillsLogged, Kernel.start]

theorem KillsLogged.of_eq {k' : Kernel γ} (h : KillsLogged tree k)
    (hkilled : k'.killed = k.killed) (hwrites : k'.writes = k.writes) : KillsLogged tree k' := by
  rwa [KillsLogged, hkilled, hwrites]

theorem KillsLogged.append {k' : Kernel γ} (h : KillsLogged tree k)
    (hkilled : k'.killed = k.killed) {writes : List (ControlWrite γ)}
    (hwrites : k'.writes = k.writes ++ writes)
    (hother : ∀ w ∈ writes, w.file ≠ .cgroupKill) : KillsLogged tree k' := by
  rw [KillsLogged, hkilled, hwrites]
  refine Iff.trans h ⟨?_, ?_⟩
  · rintro ⟨w, hw, hkill⟩
    exact ⟨w, List.mem_append_left _ hw, hkill⟩
  · rintro ⟨w, hw, hkill⟩
    rcases List.mem_append.mp hw with hw | hw
    · exact ⟨w, hw, hkill⟩
    · exact absurd hkill.1 (hother w hw)

theorem limitLog_file {name : List UInt8} {limits : ResourceLimits} {env : CgroupEnv}
    {caller : γ} {w : ControlWrite γ} (hw : w ∈ limitLog tree name limits env caller) :
    w.file ≠ .cgroupKill := by
  obtain ⟨limit, hmem, rfl⟩ := List.mem_map.mp hw
  exact (limitWrites_file (List.mem_filter.mp hmem).1).2

/-- The clean-up kills the caller exactly when the write succeeds and the cgroup contains
the caller. -/
theorem killed_sandboxCgroupDestroy (tree : CgroupTree γ) (name : List UInt8)
    (env : CgroupEnv) (k : Kernel γ) :
    (sandboxCgroupDestroy tree name env k).1.killed = true ↔
      k.killed = true ∨ (env.write .cgroupKill).ok = true ∧
        tree.contains (tree.resolve name) k.cgroup = true := by
  simp only [sandboxCgroupDestroy, writeCgroupFile, Kernel.writeControl]
  split_ifs <;> simp_all

theorem cgroup_sandboxCgroupDestroy {name : List UInt8} {env : CgroupEnv} :
    (sandboxCgroupDestroy tree name env k).1.cgroup = k.cgroup := by
  simp only [sandboxCgroupDestroy, writeCgroupFile, Kernel.writeControl]
  split_ifs <;> rfl

theorem KillsLogged.sandboxCgroupDestroy (h : KillsLogged tree k) (name : List UInt8)
    (env : CgroupEnv) : KillsLogged tree (sandboxCgroupDestroy tree name env k).1 := by
  rw [KillsLogged, killed_sandboxCgroupDestroy]
  refine (or_congr_left h).trans ?_
  simp only [Sandbox.sandboxCgroupDestroy, writeCgroupFile, Kernel.writeControl]
  split_ifs <;> simp_all [or_and_right, exists_or]

theorem KillsLogged.enterCgroup (h : KillsLogged tree k) (cfg : Config) (env : CgroupEnv) :
    KillsLogged tree (enterCgroup tree cfg env k).1 := by
  cases hname : cfg.cgroup with
  | none => rwa [enterCgroup_of_none hname]
  | some name =>
      cases hmkdir : env.mkdir.ok with
      | false => rwa [enterCgroup_of_mkdir_fails hname hmkdir]
      | true =>
          have hcreated : KillsLogged tree { k with
              writes := k.writes ++ limitLog tree name cfg.limits env k.cgroup } :=
            h.append rfl rfl fun w => limitLog_file
          cases hprocs : (env.write .cgroupProcs).ok with
          | false =>
              rw [enterCgroup_of_procs_fails hname hmkdir hprocs]
              exact hcreated.sandboxCgroupDestroy name env
          | true =>
              rw [enterCgroup_of_joinSucceeds hname hmkdir hprocs]
              refine hcreated.append rfl rfl fun w hw => ?_
              rw [List.mem_singleton.mp hw]
              simp

theorem KillsLogged.applyNamespaces (h : KillsLogged tree k) (cfg : Config) (env : SandboxEnv) :
    KillsLogged tree (sandboxCoreApplyNamespaces cfg env k).1 := by
  obtain ⟨unshared, heq⟩ := sandboxCoreApplyNamespaces_fst cfg env k
  rw [heq]
  exact h.of_eq rfl rfl

theorem KillsLogged.leaveCgroup (h : KillsLogged tree k) (cfg : Config) (env : CgroupEnv) :
    KillsLogged tree (leaveCgroup tree cfg env k) := by
  unfold Sandbox.leaveCgroup
  cases cfg.cgroup with
  | none => exact h
  | some name => exact h.sandboxCgroupDestroy name env

theorem sandboxApplyConfig_of_invalid (hvalid : sandboxCoreValidateConfig cfg ≠ 0) :
    sandboxApplyConfig tree cfg env k = k.ret (-1) :=
  if_pos (sandboxCoreValidateConfig_neg_iff.mpr hvalid)

theorem sandboxApplyConfig_of_not_join (hvalid : sandboxCoreValidateConfig cfg = 0)
    (hjoin : ¬JoinSucceeds cfg env.cgroup) :
    sandboxApplyConfig tree cfg env k = (enterCgroup tree cfg env.cgroup k).1.ret (-1) := by
  simp only [sandboxApplyConfig, hvalid, Int.lt_irrefl, if_false,
    if_pos (enterCgroup_neg_iff.mpr hjoin)]

theorem sandboxApplyConfig_of_not_namespaces (hvalid : sandboxCoreValidateConfig cfg = 0)
    (hjoin : JoinSucceeds cfg env.cgroup) (hnamespaces : ¬NamespacesSucceed cfg env) :
    sandboxApplyConfig tree cfg env k =
      (leaveCgroup tree cfg env.cgroup (sandboxCoreApplyNamespaces cfg env
        (enterCgroup tree cfg env.cgroup k).1).1).ret (-1) := by
  have hentered : ¬(enterCgroup tree cfg env.cgroup k).2 < 0 := fun hneg =>
    enterCgroup_neg_iff.mp hneg hjoin
  simp only [sandboxApplyConfig, hvalid, Int.lt_irrefl, if_false, if_neg hentered,
    if_pos ((sandboxCoreApplyNamespaces_neg_iff hvalid).mpr hnamespaces)]

theorem sandboxApplyConfig_cases (cfg : Config) (env : SandboxEnv) :
    sandboxCoreValidateConfig cfg ≠ 0 ∨
      (sandboxCoreValidateConfig cfg = 0 ∧ ¬JoinSucceeds cfg env.cgroup) ∨
      (sandboxCoreValidateConfig cfg = 0 ∧ JoinSucceeds cfg env.cgroup ∧
        ¬NamespacesSucceed cfg env) ∨
      CheckedStepsSucceed cfg env := by
  by_cases hvalid : sandboxCoreValidateConfig cfg = 0
  · by_cases hjoin : JoinSucceeds cfg env.cgroup
    · by_cases hnamespaces : NamespacesSucceed cfg env
      · exact .inr (.inr (.inr ⟨hvalid, hjoin, hnamespaces⟩))
      · exact .inr (.inr (.inl ⟨hvalid, hjoin, hnamespaces⟩))
    · exact .inr (.inl ⟨hvalid, hjoin⟩)
  · exact .inl hvalid

theorem KillsLogged.sandboxApplyConfig (h : KillsLogged tree k) (halive : k.killed = false)
    (cfg : Config) (env : SandboxEnv) :
    KillsLogged tree (sandboxApplyConfig tree cfg env k).1 := by
  have hentered := h.enterCgroup cfg env.cgroup
  rcases sandboxApplyConfig_cases cfg env with
    hinvalid | ⟨hvalid, hjoin⟩ | ⟨hvalid, hjoin, hnamespaces⟩ | hchecked
  · rwa [sandboxApplyConfig_of_invalid hinvalid]
  · rwa [sandboxApplyConfig_of_not_join hvalid hjoin]
  · rw [sandboxApplyConfig_of_not_namespaces hvalid hjoin hnamespaces]
    exact (hentered.applyNamespaces cfg env).leaveCgroup cfg env.cgroup
  · obtain ⟨up, heq⟩ := sandboxApplyConfig_of_checked tree hchecked halive
    rw [heq]
    exact hentered.of_eq rfl rfl

theorem sandboxApplyConfig_snd (hfailed : ¬CheckedStepsSucceed cfg env) :
    (sandboxApplyConfig tree cfg env k).2 =
      if (sandboxApplyConfig tree cfg env k).1.killed then none else some (-1) := by
  rcases sandboxApplyConfig_cases cfg env with
    hinvalid | ⟨hvalid, hjoin⟩ | ⟨hvalid, hjoin, hnamespaces⟩ | hchecked
  · rw [sandboxApplyConfig_of_invalid hinvalid]
    rfl
  · rw [sandboxApplyConfig_of_not_join hvalid hjoin]
    rfl
  · rw [sandboxApplyConfig_of_not_namespaces hvalid hjoin hnamespaces]
    rfl
  · exact absurd hchecked hfailed

/-- A process whose namespaces fail cleans up in the cgroup that it has joined. -/
theorem killed_leaveCgroup {name : List UInt8} {env : SandboxEnv}
    (hname : cfg.cgroup = some name) (hmkdir : env.cgroup.mkdir.ok = true)
    (hprocs : (env.cgroup.write .cgroupProcs).ok = true) (halive : k.killed = false) :
    (leaveCgroup tree cfg env.cgroup (sandboxCoreApplyNamespaces cfg env
      (enterCgroup tree cfg env.cgroup k).1).1).killed = true ↔
      (env.cgroup.write .cgroupKill).ok = true := by
  obtain ⟨unshared, heq⟩ := sandboxCoreApplyNamespaces_fst cfg env
    (enterCgroup tree cfg env.cgroup k).1
  simp only [leaveCgroup, hname]
  rw [killed_sandboxCgroupDestroy, heq, enterCgroup_of_joinSucceeds hname hmkdir hprocs]
  simp [halive, tree.contains_self]

theorem killed_sandboxApplyConfig_iff (halive : k.killed = false) :
    (sandboxApplyConfig tree cfg env k).1.killed = false ↔
      SparesCaller tree cfg env k.cgroup := by
  rcases sandboxApplyConfig_cases cfg env with
    hinvalid | ⟨hvalid, hjoin⟩ | ⟨hvalid, hjoin, hnamespaces⟩ | hchecked
  · rw [sandboxApplyConfig_of_invalid hinvalid]
    exact iff_of_true halive fun _ _ hvalid => absurd hvalid hinvalid
  · rw [sandboxApplyConfig_of_not_join hvalid hjoin]
    simp only [JoinSucceeds, Classical.not_imp, Option.isSome_iff_exists] at hjoin
    obtain ⟨⟨name, hname⟩, hfails⟩ := hjoin
    simp only [SparesCaller, hname, Option.some.injEq, forall_eq', hvalid, true_imp_iff,
      Kernel.ret]
    cases hmkdir : env.cgroup.mkdir.ok with
    | false => simpa [enterCgroup_of_mkdir_fails hname hmkdir] using halive
    | true =>
        have hprocs : (env.cgroup.write .cgroupProcs).ok = false := by simpa [hmkdir] using hfails
        rw [enterCgroup_of_procs_fails hname hmkdir hprocs, ← Bool.not_eq_true,
          killed_sandboxCgroupDestroy]
        simp [halive, hprocs]
  · rw [sandboxApplyConfig_of_not_namespaces hvalid hjoin hnamespaces]
    cases hname : cfg.cgroup with
    | none =>
        obtain ⟨unshared, heq⟩ := sandboxCoreApplyNamespaces_fst cfg env k
        simp only [SparesCaller, hname, leaveCgroup, enterCgroup_of_none hname, heq, Kernel.ret]
        simpa using halive
    | some name =>
        obtain ⟨hmkdir, hprocs⟩ := hjoin (by rw [hname]; rfl)
        simp only [Kernel.ret]
        rw [← Bool.not_eq_true, killed_leaveCgroup hname hmkdir hprocs halive]
        simp [SparesCaller, hname, hvalid, hmkdir, hprocs, hnamespaces]
  · obtain ⟨up, heq⟩ := sandboxApplyConfig_of_checked tree hchecked halive
    obtain ⟨cgroup, writes, hentered⟩ := enterCgroup_fst tree k hchecked.join
    rw [heq, hentered]
    refine iff_of_true halive fun name hname _ hmkdir _ => ⟨fun _ => hchecked.namespaces, ?_⟩
    intro hprocs
    have hok := (hchecked.join (by rw [hname]; rfl)).2
    rw [hprocs] at hok
    cases hok

theorem cgroup_sandboxApplyConfig_of_join {name : List UInt8}
    (hname : cfg.cgroup = some name) (halive : k.killed = false)
    (hvalid : sandboxCoreValidateConfig cfg = 0) (hjoin : JoinSucceeds cfg env.cgroup) :
    (sandboxApplyConfig tree cfg env k).1.cgroup = tree.resolve name := by
  obtain ⟨hmkdir, hprocs⟩ := hjoin (by rw [hname]; rfl)
  have hentered : (enterCgroup tree cfg env.cgroup k).1.cgroup = tree.resolve name := by
    rw [enterCgroup_of_joinSucceeds hname hmkdir hprocs]
  by_cases hnamespaces : NamespacesSucceed cfg env
  · obtain ⟨up, heq⟩ := sandboxApplyConfig_of_checked tree ⟨hvalid, hjoin, hnamespaces⟩ halive
    rw [heq, hentered]
  · obtain ⟨unshared, heq⟩ := sandboxCoreApplyNamespaces_fst cfg env
      (enterCgroup tree cfg env.cgroup k).1
    rw [sandboxApplyConfig_of_not_namespaces hvalid hjoin hnamespaces, heq]
    simp only [leaveCgroup, hname, Kernel.ret, cgroup_sandboxCgroupDestroy, hentered]

theorem cgroup_sandboxApplyConfig_of_not_join
    (h : sandboxCoreValidateConfig cfg = 0 → ¬JoinSucceeds cfg env.cgroup) :
    (sandboxApplyConfig tree cfg env k).1.cgroup = k.cgroup := by
  by_cases hvalid : sandboxCoreValidateConfig cfg = 0
  · rw [sandboxApplyConfig_of_not_join hvalid (h hvalid)]
    cases hname : cfg.cgroup with
    | none => exact absurd (fun hsome => by simp [hname] at hsome) (h hvalid)
    | some name =>
        cases hmkdir : env.cgroup.mkdir.ok with
        | false => rw [enterCgroup_of_mkdir_fails hname hmkdir]; rfl
        | true =>
            cases hprocs : (env.cgroup.write .cgroupProcs).ok with
            | false =>
                rw [enterCgroup_of_procs_fails hname hmkdir hprocs]
                exact cgroup_sandboxCgroupDestroy
            | true => exact absurd (fun _ => ⟨hmkdir, hprocs⟩) (h hvalid)
  · rw [sandboxApplyConfig_of_invalid hvalid]
    rfl

end Kills

end Sandbox

end Security

end Shinigami
