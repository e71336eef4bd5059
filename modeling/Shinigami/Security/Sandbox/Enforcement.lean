import Mathlib.Algebra.Order.Ring.Nat
import Shinigami.Security.Sandbox.Apply

/-!
# What an applied sandbox enforces

`sandbox_apply_config` returns 0 exactly when the steps that it checks succeed
(`sandboxApplyConfig_eq_zero_iff`), and then the namespaces are unshared and the process
is in its cgroup. The results of the writes to the limits and of the bindings are
dropped, and the bytes of the memory limit are a product in 64 bits: `inForce_iff` says
what else has to go well for the sandbox to be in force.
-/

namespace Shinigami

namespace Security

namespace Sandbox

open CString

variable {γ : Type*}

/-- The control file of each limit that is not zero, with what the limit denotes. -/
def denotedLimits (limits : ResourceLimits) : List (ControlFile × List UInt8) :=
  (if limits.memoryLimitMb ≠ 0 then
    [(ControlFile.memoryMax, decimal (limits.memoryLimitMb.toNat * 2 ^ 20))] else []) ++
  (if limits.cpuQuotaPercent ≠ 0 then
    [(ControlFile.cpuMax, decimal (limits.cpuQuotaPercent.toNat * 1000) ++ literal " 100000")]
    else []) ++
  (if limits.cpuWeight ≠ 0 then
    [(ControlFile.cpuWeight, decimal limits.cpuWeight.toNat)] else []) ++
  (if limits.ioWeight ≠ 0 then
    [(ControlFile.ioWeight, decimal limits.ioWeight.toNat)] else []) ++
  (if limits.pidsLimit ≠ 0 then
    [(ControlFile.pidsMax, decimal limits.pidsLimit.toNat)] else [])

/-- The sandbox of the configuration is in force. -/
structure InForce (tree : CgroupTree γ) (cfg : Config) (k : Kernel γ) : Prop where
  namespaces : ∀ ns ∈ unshareFlags cfg, ns ∈ k.unshared
  member : ∀ name, cfg.cgroup = some name → k.cgroup = tree.resolve name
  limits : ∀ name, cfg.cgroup = some name → ∀ limit ∈ denotedLimits cfg.limits,
    ∃ w ∈ k.writes, w.target = tree.resolve name ∧ w.file = limit.1 ∧ w.value = limit.2
  bindings : ∀ b ∈ cfg.bindings, b.optional = false → ∃ m ∈ k.bindMounts,
    b.hostPath = some m.hostPath ∧ b.containerPath = some m.containerPath ∧
      (b.readOnly = true → m.readOnly = true)

/-- The calls for some binding with the two paths of `b` succeed, the remount too if `b`
is read-only. -/
def Served (cfg : Config) (env : SandboxEnv) (b : FilesystemBinding) : Prop :=
  ∃ i b', cfg.bindings[i]? = some b' ∧ b'.hostPath = b.hostPath ∧
    b'.containerPath = b.containerPath ∧ b.hostPath.isSome = true ∧
    b.containerPath.isSome = true ∧ (env.binding i).access = true ∧
    (env.binding i).mkdir.ok = true ∧ (env.binding i).bindMount = true ∧
    (b.readOnly = true → b'.readOnly = true ∧ (env.binding i).remount = true)

/-- The steps whose results are dropped succeed, and the memory limit in bytes is below
`2 ^ 64`. -/
structure UncheckedStepsSucceed (cfg : Config) (env : SandboxEnv) : Prop where
  memory : cfg.cgroup.isSome = true → cfg.limits.memoryLimitMb.toNat < 2 ^ 44
  limits : cfg.cgroup.isSome = true →
    ∀ limit ∈ limitWrites cfg.limits, (env.cgroup.write limit.1).ok = true
  bindings : ∀ b ∈ cfg.bindings, b.optional = false → Served cfg env b

section

variable {tree : CgroupTree γ} {cfg : Config} {env : SandboxEnv} {k : Kernel γ}

theorem enterCgroup_fst (tree : CgroupTree γ) (k : Kernel γ)
    (h : JoinSucceeds cfg env.cgroup) : ∃ cgroup writes,
    (enterCgroup tree cfg env.cgroup k).1 = { k with cgroup := cgroup, writes := writes } := by
  cases hname : cfg.cgroup with
  | none => exact ⟨k.cgroup, k.writes, by rw [enterCgroup_of_none hname]⟩
  | some name =>
      obtain ⟨hmkdir, hprocs⟩ := h (by rw [hname]; rfl)
      exact ⟨_, _, by rw [enterCgroup_of_joinSucceeds hname hmkdir hprocs]⟩

theorem sandboxApplyConfig_of_checked (tree : CgroupTree γ) (h : CheckedStepsSucceed cfg env)
    (halive : k.killed = false) : ∃ up, sandboxApplyConfig tree cfg env k =
      ({ (enterCgroup tree cfg env.cgroup k).1 with
          unshared := (enterCgroup tree cfg env.cgroup k).1.unshared ++ unshareFlags cfg
          bindMounts :=
            (cfg.bindings.zipIdx.filterMap fun b => mountOf b.1 (env.binding b.2)).reverse ++
              (enterCgroup tree cfg env.cgroup k).1.bindMounts
          loopbackUp := up }, some 0) := by
  have hvalid : ¬sandboxCoreValidateConfig cfg < 0 := by
    rw [h.valid]
    exact Int.lt_irrefl 0
  have hjoin : ¬(enterCgroup tree cfg env.cgroup k).2 < 0 := fun hneg =>
    enterCgroup_neg_iff.mp hneg h.join
  have hkilled : (enterCgroup tree cfg env.cgroup k).1.killed = false := by
    obtain ⟨cgroup, writes, heq⟩ := enterCgroup_fst tree k h.join
    rw [heq]
    exact halive
  simp only [sandboxApplyConfig, if_neg hvalid, if_neg hjoin,
    sandboxCoreApplyNamespaces_of_succeeds h.valid h.namespaces, addBindings_eq, Int.lt_irrefl,
    if_false]
  split_ifs with hnet
  · obtain ⟨up, hup⟩ := sandboxNetworkIsolate_fst cfg.network env.loopback
    exact ⟨up, by rw [hup, Kernel.ret, hkilled]; rfl⟩
  · exact ⟨(enterCgroup tree cfg env.cgroup k).1.loopbackUp, by
      rw [Kernel.ret, hkilled]; rfl⟩

theorem ret_neg_ne (k : Kernel γ) : (k.ret (-1)).2 ≠ some 0 := by
  unfold Kernel.ret
  split <;> simp

theorem sandboxApplyConfig_eq_zero_iff (halive : k.killed = false) :
    (sandboxApplyConfig tree cfg env k).2 = some 0 ↔ CheckedStepsSucceed cfg env := by
  constructor
  · intro hzero
    simp only [sandboxApplyConfig] at hzero
    split_ifs at hzero with hvalid hjoin hnamespaces
    · exact absurd hzero (ret_neg_ne _)
    · exact absurd hzero (ret_neg_ne _)
    · exact absurd hzero (ret_neg_ne _)
    all_goals
      have hvalid' : sandboxCoreValidateConfig cfg = 0 := by
        by_contra hne
        exact hvalid (sandboxCoreValidateConfig_neg_iff.mpr hne)
      refine ⟨hvalid', ?_, ?_⟩
      · by_contra hnot
        exact hjoin (enterCgroup_neg_iff.mpr hnot)
      · by_contra hnot
        exact hnamespaces ((sandboxCoreApplyNamespaces_neg_iff hvalid').mpr hnot)
  · intro h
    obtain ⟨up, heq⟩ := sandboxApplyConfig_of_checked tree h halive
    rw [heq]

theorem toNat_memory_lt (mb : UInt64) (h : mb.toNat < 2 ^ 44) :
    (mb * 1024 * 1024).toNat = mb.toNat * 2 ^ 20 := by
  simp only [UInt64.toNat_mul, UInt64.reduceToNat]
  omega

theorem quota_le_of_valid (hvalid : sandboxCoreValidateConfig cfg = 0) :
    cfg.limits.cpuQuotaPercent ≤ 100 := by
  unfold sandboxCoreValidateConfig at hvalid
  split_ifs at hvalid with _ _ _ hquota
  exact UInt32.not_lt.mp hquota

theorem limitWrites_eq_denotedLimits {limits : ResourceLimits}
    (hquota : limits.cpuQuotaPercent ≤ 100) (hmemory : limits.memoryLimitMb.toNat < 2 ^ 44) :
    limitWrites limits = denotedLimits limits := by
  have hcpu : (limits.cpuQuotaPercent * 1000).toNat = limits.cpuQuotaPercent.toNat * 1000 := by
    have hle : limits.cpuQuotaPercent.toNat ≤ 100 := UInt32.le_iff_toNat_le.mp hquota
    simp only [UInt32.toNat_mul, UInt32.reduceToNat]
    omega
  have hpos64 : limits.memoryLimitMb > 0 ↔ limits.memoryLimitMb ≠ 0 := UInt64.pos_iff_ne_zero
  have hpos : ∀ n : UInt32, n > 0 ↔ n ≠ 0 := fun n => UInt32.pos_iff_ne_zero
  simp only [limitWrites, denotedLimits, toNat_memory_lt _ hmemory, hcpu, hpos64, hpos, hquota,
    and_true]

theorem memory_lt_of_denoted {limits : ResourceLimits}
    (h : ∀ limit ∈ denotedLimits limits, limit ∈ limitWrites limits) :
    limits.memoryLimitMb.toNat < 2 ^ 44 := by
  by_contra hlarge
  have hne : limits.memoryLimitMb ≠ 0 := by
    intro hzero
    rw [hzero] at hlarge
    exact hlarge (by decide)
  have hmem := h (.memoryMax, decimal (limits.memoryLimitMb.toNat * 2 ^ 20))
    (by simp [denotedLimits, hne])
  have hvalue : limits.memoryLimitMb.toNat * 2 ^ 20 =
      (limits.memoryLimitMb * 1024 * 1024).toNat := by
    simp only [limitWrites, List.mem_append, or_assoc] at hmem
    rcases hmem with hmem | hmem
    · exact decimal_injective (congrArg Prod.snd (eq_of_mem_optional hmem))
    · rcases hmem with hmem | hmem | hmem | hmem
      all_goals cases congrArg Prod.fst (eq_of_mem_optional hmem)
  have hlt := (limits.memoryLimitMb * 1024 * 1024).toNat_lt
  omega

/-- A limit has been written when the code writes it and the write succeeds. -/
theorem exists_write_iff {name : List UInt8} {pid : ℕ} {start : γ}
    (hname : cfg.cgroup = some name) (hjoin : JoinSucceeds cfg env.cgroup)
    {limit : ControlFile × List UInt8} (hfile : limit.1 ≠ .cgroupProcs) :
    (∃ w ∈ (enterCgroup tree cfg env.cgroup (Kernel.start pid start)).1.writes,
      w.target = tree.resolve name ∧ w.file = limit.1 ∧ w.value = limit.2) ↔
      limit ∈ limitWrites cfg.limits ∧ (env.cgroup.write limit.1).ok = true := by
  obtain ⟨hmkdir, hprocs⟩ := hjoin (by rw [hname]; rfl)
  rw [enterCgroup_of_joinSucceeds hname hmkdir hprocs]
  simp only [Kernel.start, List.nil_append, limitLog]
  constructor
  · rintro ⟨w, hw, -, hwfile, hwvalue⟩
    rcases List.mem_append.mp hw with hw | hw
    · obtain ⟨limit', hmem, rfl⟩ := List.mem_map.mp hw
      have hsame : limit' = limit := Prod.ext hwfile hwvalue
      rw [← hsame]
      exact List.mem_filter.mp hmem
    · rw [List.mem_singleton] at hw
      rw [hw] at hwfile
      exact absurd hwfile.symm hfile
  · intro hmem
    refine ⟨_, List.mem_append_left _ (List.mem_map.mpr ⟨limit, List.mem_filter.mpr hmem, rfl⟩),
      rfl, rfl, rfl⟩

theorem denotedLimits_file {limits : ResourceLimits} {limit : ControlFile × List UInt8}
    (h : limit ∈ denotedLimits limits) : limit.1 ≠ .cgroupProcs := by
  simp only [denotedLimits, List.mem_append, or_assoc] at h
  rcases h with h | h | h | h | h
  all_goals
    rw [eq_of_mem_optional h]
    simp

/-- The limits are in force exactly when every write succeeds and the memory limit does
not wrap around. -/
theorem limits_inForce_iff {name : List UInt8} {pid : ℕ} {start : γ}
    (hname : cfg.cgroup = some name) (hjoin : JoinSucceeds cfg env.cgroup)
    (hquota : cfg.limits.cpuQuotaPercent ≤ 100) :
    (∀ limit ∈ denotedLimits cfg.limits,
      ∃ w ∈ (enterCgroup tree cfg env.cgroup (Kernel.start pid start)).1.writes,
        w.target = tree.resolve name ∧ w.file = limit.1 ∧ w.value = limit.2) ↔
      cfg.limits.memoryLimitMb.toNat < 2 ^ 44 ∧
        ∀ limit ∈ limitWrites cfg.limits, (env.cgroup.write limit.1).ok = true := by
  constructor
  · intro h
    have hwritten : ∀ limit ∈ denotedLimits cfg.limits,
        limit ∈ limitWrites cfg.limits ∧ (env.cgroup.write limit.1).ok = true :=
      fun limit hmem => (exists_write_iff hname hjoin (denotedLimits_file hmem)).mp (h limit hmem)
    have hmemory : cfg.limits.memoryLimitMb.toNat < 2 ^ 44 :=
      memory_lt_of_denoted fun limit hmem => (hwritten limit hmem).1
    refine ⟨hmemory, fun limit hmem => ?_⟩
    rw [limitWrites_eq_denotedLimits hquota hmemory] at hmem
    exact (hwritten limit hmem).2
  · rintro ⟨hmemory, hok⟩ limit hmem
    have hwritten := hmem
    rw [← limitWrites_eq_denotedLimits hquota hmemory] at hwritten
    exact (exists_write_iff hname hjoin (denotedLimits_file hmem)).mpr
      ⟨hwritten, hok limit hwritten⟩

theorem mem_mountOf_iff {b : FilesystemBinding} {env : BindingEnv} {m : BindMount} :
    mountOf b env = some m ↔
      b.hostPath = some m.hostPath ∧ b.containerPath = some m.containerPath ∧
        env.access = true ∧ env.mkdir.ok = true ∧ env.bindMount = true ∧
        m.readOnly = (b.readOnly && env.remount) := by
  obtain ⟨host, container, readOnly, optional⟩ := b
  obtain ⟨mhost, mcontainer, mreadOnly⟩ := m
  cases host with
  | none => simp [mountOf]
  | some host =>
      cases container with
      | none => simp [mountOf]
      | some container =>
          simp only [mountOf, Option.ite_none_right_eq_some, Bool.and_eq_true,
            Option.some.injEq, BindMount.mk.injEq]
          constructor
          · rintro ⟨⟨⟨haccess, hmkdir⟩, hmount⟩, hhost, hcontainer, hreadOnly⟩
            exact ⟨hhost, hcontainer, haccess, hmkdir, hmount, hreadOnly.symm⟩
          · rintro ⟨hhost, hcontainer, haccess, hmkdir, hmount, hreadOnly⟩
            exact ⟨⟨⟨haccess, hmkdir⟩, hmount⟩, hhost, hcontainer, hreadOnly.symm⟩

theorem exists_mount_iff {b : FilesystemBinding} :
    (∃ m ∈ (cfg.bindings.zipIdx.filterMap fun b => mountOf b.1 (env.binding b.2)).reverse,
      b.hostPath = some m.hostPath ∧ b.containerPath = some m.containerPath ∧
        (b.readOnly = true → m.readOnly = true)) ↔ Served cfg env b := by
  simp only [List.mem_reverse, List.mem_filterMap]
  constructor
  · rintro ⟨m, ⟨⟨b', i⟩, hmem, hmount⟩, hhost, hcontainer, hreadOnly⟩
    rw [List.mem_zipIdx_iff_getElem?] at hmem
    obtain ⟨hhost', hcontainer', haccess, hmkdir, hbind, hro⟩ := mem_mountOf_iff.mp hmount
    refine ⟨i, b', hmem, hhost'.trans hhost.symm, hcontainer'.trans hcontainer.symm, ?_, ?_,
      haccess, hmkdir, hbind, fun hb => ?_⟩
    · rw [hhost]; rfl
    · rw [hcontainer]; rfl
    · have hand := hro.symm.trans (hreadOnly hb)
      rwa [Bool.and_eq_true] at hand
  · rintro ⟨i, b', hget, hhost, hcontainer, hsome, hsome', haccess, hmkdir, hbind, hro⟩
    obtain ⟨host, hbhost⟩ := Option.isSome_iff_exists.mp hsome
    obtain ⟨container, hbcontainer⟩ := Option.isSome_iff_exists.mp hsome'
    refine ⟨⟨host, container, b'.readOnly && (env.binding i).remount⟩, ⟨(b', i), ?_, ?_⟩,
      hbhost, hbcontainer, fun hb => ?_⟩
    · exact List.mem_zipIdx_iff_getElem?.mpr hget
    · exact mem_mountOf_iff.mpr ⟨hhost.trans hbhost, hcontainer.trans hbcontainer, haccess,
        hmkdir, hbind, rfl⟩
    · exact Bool.and_eq_true_iff.mpr (hro hb)

end

/-- A sandbox that is reported as applied is in force exactly when the steps whose
results are dropped succeed as well. -/
theorem inForce_iff (tree : CgroupTree γ) (pid : ℕ) (start : γ) (cfg : Config)
    (env : SandboxEnv) :
    ((sandboxApplyConfig tree cfg env (Kernel.start pid start)).2 = some 0 →
        InForce tree cfg (sandboxApplyConfig tree cfg env (Kernel.start pid start)).1) ↔
      (CheckedStepsSucceed cfg env → UncheckedStepsSucceed cfg env) := by
  rw [sandboxApplyConfig_eq_zero_iff rfl]
  refine imp_congr_right fun h => ?_
  obtain ⟨up, heq⟩ := sandboxApplyConfig_of_checked tree (k := Kernel.start pid start) h rfl
  rw [heq]
  have hquota := quota_le_of_valid h.valid
  have hstart : (enterCgroup tree cfg env.cgroup (Kernel.start pid start)).1.bindMounts = [] := by
    obtain ⟨cgroup, writes, heq⟩ := enterCgroup_fst tree (Kernel.start pid start) h.join
    rw [heq]
    rfl
  constructor
  · intro hforce
    have hlimits : cfg.cgroup.isSome = true → cfg.limits.memoryLimitMb.toNat < 2 ^ 44 ∧
        ∀ limit ∈ limitWrites cfg.limits, (env.cgroup.write limit.1).ok = true := by
      intro hsome
      obtain ⟨name, hname⟩ := Option.isSome_iff_exists.mp hsome
      exact (limits_inForce_iff hname h.join hquota).mp (hforce.limits name hname)
    refine ⟨fun hsome => (hlimits hsome).1, fun hsome => (hlimits hsome).2,
      fun b hb hoptional => ?_⟩
    · have hmount := hforce.bindings b hb hoptional
      simp only [hstart, List.append_nil] at hmount
      exact exists_mount_iff.mp hmount
  · intro hunchecked
    refine ⟨fun ns hns => List.mem_append_right _ hns, fun name hname => ?_,
      fun name hname => ?_, fun b hb hoptional => ?_⟩
    · obtain ⟨hmkdir, hprocs⟩ := h.join (by rw [hname]; rfl)
      simp only [enterCgroup_of_joinSucceeds hname hmkdir hprocs]
    · have hsome : cfg.cgroup.isSome = true := by rw [hname]; rfl
      exact (limits_inForce_iff hname h.join hquota).mpr
        ⟨hunchecked.memory hsome, hunchecked.limits hsome⟩
    · simp only [hstart, List.append_nil]
      exact exists_mount_iff.mpr (hunchecked.bindings b hb hoptional)

def namedCgroups : CgroupTree (List UInt8) where
  resolve := id
  contains := (· == ·)
  contains_self := fun _ => beq_self_eq_true _

def memoryConfig : Config where
  enablePidNs := false
  enableNetNs := false
  enableMountNs := false
  enableIpcNs := false
  enableUserNs := false
  enableUtsNs := false
  realUid := 1000
  realGid := 1000
  chrootPath := none
  limits := ⟨512, 0, 0, 0, 0⟩
  enableCgroups := true
  cgroupName := some (ascii ['s', 'v', 'c'])
  network := ⟨false, false⟩
  bindings := []

def envOfWrites (write : ControlFile → FileWrite) : SandboxEnv where
  cgroup := ⟨.made, write, true⟩
  unshare := true
  userNs := ⟨.full, .full⟩
  filesystem := ⟨.made, true, .made, true, .made, .made, .made, .made, true, true⟩
  binding := fun _ => ⟨true, .made, true, true⟩
  loopback := ⟨true, true, true⟩

/-- A kernel without the memory controller: the service is reported as sandboxed, and
its memory is not limited. -/
theorem not_inForce_without_memory_controller :
    ¬∀ (tree : CgroupTree (List UInt8)) (pid : ℕ) (start : List UInt8) (cfg : Config)
      (env : SandboxEnv),
      (sandboxApplyConfig tree cfg env (Kernel.start pid start)).2 = some 0 →
        InForce tree cfg (sandboxApplyConfig tree cfg env (Kernel.start pid start)).1 := by
  intro h
  let env := envOfWrites fun file => if file = .memoryMax then .openFails else .full
  have hforce := h namedCgroups 42 [] memoryConfig env (by decide)
  obtain ⟨w, hw, -, hfile, -⟩ := hforce.limits (ascii ['s', 'v', 'c']) rfl
    (.memoryMax, decimal (512 * 2 ^ 20)) (by decide)
  have hwrites : (sandboxApplyConfig namedCgroups memoryConfig env
      (Kernel.start 42 [])).1.writes.map (·.file) = [.cgroupProcs] := by decide
  have hmem := List.mem_map_of_mem (f := fun w : ControlWrite (List UInt8) => w.file) hw
  rw [hwrites, hfile] at hmem
  cases List.mem_singleton.mp hmem

end Sandbox

end Security

end Shinigami
