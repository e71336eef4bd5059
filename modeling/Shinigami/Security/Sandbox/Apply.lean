import Mathlib.Data.Int.Notation
import Mathlib.Tactic.SplitIfs
import Shinigami.Foundations.CText

/-!
# Applying a sandbox

`sandbox.c` with `sandbox_cgroup.c`, `sandbox_core.c`, `sandbox_mount.c` and
`sandbox_network.c`. Every system call has an outcome in a `SandboxEnv`; one that fails
changes nothing. `Kernel` is what the kernel keeps of the calling process, and its
`writes` are the contents written to the files of cgroups, each with the cgroup that the
caller was in.

A process that is killed does not return, so that `sandboxApplyConfig` gives an
`Option ℤ`.
-/

namespace Shinigami

namespace Security

namespace Sandbox

open CString

/-! ## The configuration -/

/-- `resource_limits_t`. -/
structure ResourceLimits where
  memoryLimitMb : UInt64
  cpuQuotaPercent : UInt32
  cpuWeight : UInt32
  ioWeight : UInt32
  pidsLimit : UInt32
deriving DecidableEq

/-- What is read of `network_config_t`. -/
structure NetworkConfig where
  enableLoopback : Bool
  enableInternet : Bool
deriving DecidableEq

/-- `filesystem_binding_t`. -/
structure FilesystemBinding where
  hostPath : Option (List UInt8)
  containerPath : Option (List UInt8)
  readOnly : Bool
  optional : Bool
deriving DecidableEq

/-- What is read of `sandbox_config_t`; the bindings are the array of
`binding_count` entries. -/
structure Config where
  enablePidNs : Bool
  enableNetNs : Bool
  enableMountNs : Bool
  enableIpcNs : Bool
  enableUserNs : Bool
  enableUtsNs : Bool
  realUid : UInt32
  realGid : UInt32
  chrootPath : Option (List UInt8)
  limits : ResourceLimits
  enableCgroups : Bool
  cgroupName : Option (List UInt8)
  network : NetworkConfig
  bindings : List FilesystemBinding

/-- `cfg->enable_cgroups && cfg->cgroup_name`. -/
def Config.cgroup (cfg : Config) : Option (List UInt8) :=
  if cfg.enableCgroups then cfg.cgroupName else none

/-! ## The kernel -/

inductive ControlFile where
  | memoryMax
  | cpuMax
  | cpuWeight
  | ioWeight
  | pidsMax
  | cgroupProcs
  | cgroupKill
deriving DecidableEq

/-- The kinds of namespaces, by the flags of `unshare`. -/
inductive Namespace where
  | newPid
  | newNet
  | newNs
  | newIpc
  | newUser
  | newUts
deriving DecidableEq

/-- The cgroups of the kernel: the one that a name under `CGROUP_ROOT` leads to, and
whether the processes of one cgroup are processes of another. -/
structure CgroupTree (γ : Type*) where
  resolve : List UInt8 → γ
  contains : γ → γ → Bool
  contains_self : ∀ g, contains g g = true

structure ControlWrite (γ : Type*) where
  target : γ
  file : ControlFile
  value : List UInt8
  caller : γ

structure BindMount where
  hostPath : List UInt8
  containerPath : List UInt8
  readOnly : Bool
deriving DecidableEq

/-- What the kernel keeps of the calling process, with what the process has done. The
last bind mount comes first. -/
structure Kernel (γ : Type*) where
  pid : ℕ
  cgroup : γ
  killed : Bool
  writes : List (ControlWrite γ)
  unshared : List Namespace
  bindMounts : List BindMount
  loopbackUp : Bool

namespace Kernel

variable {γ : Type*}

/-- A process that has done nothing so far. -/
def start (pid : ℕ) (cgroup : γ) : Kernel γ := ⟨pid, cgroup, false, [], [], [], false⟩

/-- A write to a file of a cgroup: the own number in `cgroup.procs` moves the process,
and `1` in `cgroup.kill` kills what the cgroup contains. -/
def writeControl (tree : CgroupTree γ) (target : γ) (file : ControlFile)
    (value : List UInt8) (k : Kernel γ) : Kernel γ :=
  let k := { k with writes := k.writes ++ [⟨target, file, value, k.cgroup⟩] }
  match file with
  | .cgroupProcs => if value = decimal k.pid then { k with cgroup := target } else k
  | .cgroupKill =>
      if value = ascii ['1'] ∧ tree.contains target k.cgroup = true then
        { k with killed := true }
      else k
  | _ => k

def remountReadOnly (path : List UInt8) : List BindMount → List BindMount
  | [] => []
  | m :: ms =>
      if m.containerPath = path then { m with readOnly := true } :: ms
      else m :: remountReadOnly path ms

/-- A process that is killed returns nothing. -/
def ret (k : Kernel γ) (rc : ℤ) : Kernel γ × Option ℤ :=
  (k, if k.killed then none else some rc)

end Kernel

/-! ## The outcomes of the system calls -/

/-- `mkdir` and `mknod`; `present` is `EEXIST`. -/
inductive MakeResult where
  | made
  | present
  | failed
deriving DecidableEq

/-- `!(mkdir(path, mode) < 0 && errno != EEXIST)`. -/
def MakeResult.ok : MakeResult → Bool
  | .failed => false
  | _ => true

/-- Opening a file and writing a text to it; `short` is a `write` with another result
than the length of the text. -/
inductive FileWrite where
  | openFails
  | short
  | full
deriving DecidableEq

def FileWrite.ok : FileWrite → Bool
  | .full => true
  | _ => false

/-- The calls of `sandbox_cgroup.c`. -/
structure CgroupEnv where
  mkdir : MakeResult
  write : ControlFile → FileWrite
  rmdir : Bool

/-- The calls of `sandbox_core_setup_user_namespace` whose results count. -/
structure UserNsEnv where
  uidMap : FileWrite
  gidMap : FileWrite

/-- The calls of `sandbox_mount_setup_filesystem` whose results count. -/
structure FilesystemEnv where
  rootMkdir : MakeResult
  rootMount : Bool
  devMkdir : MakeResult
  devMount : Bool
  mknodNull : MakeResult
  mknodZero : MakeResult
  mknodUrandom : MakeResult
  oldRootMkdir : MakeResult
  pivotRoot : Bool
  chdir : Bool

/-- The calls of `sandbox_mount_add_binding`. -/
structure BindingEnv where
  access : Bool
  mkdir : MakeResult
  bindMount : Bool
  remount : Bool

/-- The calls of `bring_up_loopback`. -/
structure LoopbackEnv where
  socket : Bool
  getFlags : Bool
  setFlags : Bool

/-- The calls of one `sandbox_apply_config`; `binding i` are those for the binding at
index `i`. -/
structure SandboxEnv where
  cgroup : CgroupEnv
  unshare : Bool
  userNs : UserNsEnv
  filesystem : FilesystemEnv
  binding : ℕ → BindingEnv
  loopback : LoopbackEnv

/-! ## The cgroup -/

section Cgroup

variable {γ : Type*} (tree : CgroupTree γ)

/-- `write_cgroup_file`. -/
def writeCgroupFile (cgroupName : List UInt8) (file : ControlFile) (value : List UInt8)
    (outcome : FileWrite) (k : Kernel γ) : Kernel γ × ℤ :=
  if !outcome.ok then (k, -1)
  else (k.writeControl tree (tree.resolve cgroupName) file value, 0)

/-- The files that `sandbox_cgroup_create` writes, with their contents. -/
def limitWrites (limits : ResourceLimits) : List (ControlFile × List UInt8) :=
  (if limits.memoryLimitMb > 0 then
    [(ControlFile.memoryMax, decimal (limits.memoryLimitMb * 1024 * 1024).toNat)] else []) ++
  (if limits.cpuQuotaPercent > 0 ∧ limits.cpuQuotaPercent ≤ 100 then
    [(ControlFile.cpuMax, decimal (limits.cpuQuotaPercent * 1000).toNat ++ literal " 100000")]
    else []) ++
  (if limits.cpuWeight > 0 then
    [(ControlFile.cpuWeight, decimal limits.cpuWeight.toNat)] else []) ++
  (if limits.ioWeight > 0 then
    [(ControlFile.ioWeight, decimal limits.ioWeight.toNat)] else []) ++
  (if limits.pidsLimit > 0 then
    [(ControlFile.pidsMax, decimal limits.pidsLimit.toNat)] else [])

/-- `sandbox_cgroup_create`; the results of the writes are dropped. -/
def sandboxCgroupCreate (cgroupName : List UInt8) (limits : ResourceLimits)
    (env : CgroupEnv) (k : Kernel γ) : Kernel γ × ℤ :=
  if !env.mkdir.ok then (k, -1)
  else
    ((limitWrites limits).foldl
      (fun k limit => (writeCgroupFile tree cgroupName limit.1 limit.2 (env.write limit.1) k).1)
      k, 0)

/-- `sandbox_cgroup_add_process`. -/
def sandboxCgroupAddProcess (cgroupName : List UInt8) (pid : ℕ) (env : CgroupEnv)
    (k : Kernel γ) : Kernel γ × ℤ :=
  writeCgroupFile tree cgroupName .cgroupProcs (decimal pid) (env.write .cgroupProcs) k

/-- `sandbox_cgroup_destroy`. -/
def sandboxCgroupDestroy (cgroupName : List UInt8) (env : CgroupEnv) (k : Kernel γ) :
    Kernel γ × ℤ :=
  let r := writeCgroupFile tree cgroupName .cgroupKill (ascii ['1'])
    (env.write .cgroupKill) k
  if !env.rmdir then (r.1, -1) else (r.1, 0)

end Cgroup

/-! ## The namespaces -/

/-- `sandbox_core_validate_config`. -/
def sandboxCoreValidateConfig (cfg : Config) : ℤ :=
  if !cfg.enablePidNs && !cfg.enableNetNs && !cfg.enableMountNs && !cfg.enableIpcNs &&
      !cfg.enableCgroups then -1
  else if cfg.realUid = 0 ∨ cfg.realGid = 0 then -1
  else if cfg.chrootPath.any (strstrFound · (ascii ['.', '.'])) then -1
  else if cfg.limits.cpuQuotaPercent > 100 then -1
  else if cfg.limits.cpuWeight > 10000 then -1
  else if cfg.cgroup.any fun name =>
      strstrFound name (ascii ['/']) || strstrFound name (ascii ['.', '.']) then -1
  else 0

/-- The flags of `unshare`. -/
def unshareFlags (cfg : Config) : List Namespace :=
  (if cfg.enablePidNs then [Namespace.newPid] else []) ++
  (if cfg.enableNetNs then [Namespace.newNet] else []) ++
  (if cfg.enableMountNs then [Namespace.newNs] else []) ++
  (if cfg.enableIpcNs then [Namespace.newIpc] else []) ++
  (if cfg.enableUserNs then [Namespace.newUser] else []) ++
  (if cfg.enableUtsNs then [Namespace.newUts] else [])

/-- `sandbox_core_setup_user_namespace`. -/
def sandboxCoreSetupUserNamespace (env : UserNsEnv) : ℤ :=
  if !env.uidMap.ok then -1
  else if !env.gidMap.ok then -1
  else 0

def pathMax : ℕ := 4096

def sandboxRoot : List UInt8 := literal "/tmp/sandbox_root"

/-- `create_minimal_dev`. -/
def createMinimalDev (root : List UInt8) (env : FilesystemEnv) : ℤ :=
  let devPath := (cstr root ++ literal "/dev").take (pathMax - 1)
  if !env.devMkdir.ok then -1
  else if !env.devMount then -1
  else if devPath.length > pathMax - 10 then -1
  else if !env.mknodNull.ok then -1
  else if !env.mknodZero.ok then -1
  else if !env.mknodUrandom.ok then -1
  else 0

/-- `apply_pivot_root`. -/
def applyPivotRoot (env : FilesystemEnv) : ℤ :=
  if !env.oldRootMkdir.ok then -1
  else if !env.pivotRoot then -1
  else if !env.chdir then -1
  else 0

/-- `sandbox_mount_setup_filesystem`. -/
def sandboxMountSetupFilesystem (requestedRoot : Option (List UInt8)) (env : FilesystemEnv) :
    ℤ :=
  let root := requestedRoot.getD sandboxRoot
  if !env.rootMkdir.ok then -1
  else if !env.rootMount then -1
  else if createMinimalDev root env < 0 then -1
  else if applyPivotRoot env < 0 then -1
  else 0

variable {γ : Type*}

/-- `sandbox_core_apply_namespaces`. -/
def sandboxCoreApplyNamespaces (cfg : Config) (env : SandboxEnv) (k : Kernel γ) :
    Kernel γ × ℤ :=
  if sandboxCoreValidateConfig cfg < 0 then (k, -1)
  else if !env.unshare then (k, -1)
  else
    let k := { k with unshared := k.unshared ++ unshareFlags cfg }
    if cfg.enableUserNs = true ∧ sandboxCoreSetupUserNamespace env.userNs < 0 then (k, -1)
    else if cfg.enableMountNs = true ∧
        sandboxMountSetupFilesystem cfg.chrootPath env.filesystem < 0 then (k, -1)
    else (k, 0)

/-! ## Bindings and network -/

/-- `sandbox_mount_add_binding`. -/
def sandboxMountAddBinding (binding : FilesystemBinding) (env : BindingEnv) (k : Kernel γ) :
    Kernel γ × ℤ :=
  match binding.hostPath, binding.containerPath with
  | some hostPath, some containerPath =>
      if !env.access then (k, if binding.optional then 0 else -1)
      else if !env.mkdir.ok then (k, -1)
      else if !env.bindMount then (k, -1)
      else
        let k := { k with bindMounts := ⟨hostPath, containerPath, false⟩ :: k.bindMounts }
        if binding.readOnly then
          if !env.remount then (k, -1)
          else
            ({ k with bindMounts := Kernel.remountReadOnly containerPath k.bindMounts }, 0)
        else (k, 0)
  | _, _ => (k, -1)

/-- The loop of `sandbox_apply_config` over the bindings; the results are dropped. -/
def addBindings (env : ℕ → BindingEnv) (bindings : List (FilesystemBinding × ℕ))
    (k : Kernel γ) : Kernel γ :=
  bindings.foldl (fun k b => (sandboxMountAddBinding b.1 (env b.2) k).1) k

/-- `bring_up_loopback`. -/
def bringUpLoopback (env : LoopbackEnv) (k : Kernel γ) : Kernel γ × ℤ :=
  if !env.socket then (k, -1)
  else if !env.getFlags then (k, -1)
  else if !env.setFlags then (k, -1)
  else ({ k with loopbackUp := true }, 0)

/-- `sandbox_network_isolate`. -/
def sandboxNetworkIsolate (net : NetworkConfig) (env : LoopbackEnv) (k : Kernel γ) :
    Kernel γ × ℤ :=
  (if net.enableLoopback then (bringUpLoopback env k).1 else k, 0)

/-! ## All of it -/

/-- The first part of `sandbox_apply_config`: the cgroup is created and joined. -/
def enterCgroup (tree : CgroupTree γ) (cfg : Config) (env : CgroupEnv) (k : Kernel γ) :
    Kernel γ × ℤ :=
  match cfg.cgroup with
  | none => (k, 0)
  | some name =>
      let r := sandboxCgroupCreate tree name cfg.limits env k
      if r.2 < 0 then (r.1, -1)
      else
        let r := sandboxCgroupAddProcess tree name k.pid env r.1
        if r.2 < 0 then ((sandboxCgroupDestroy tree name env r.1).1, -1)
        else (r.1, 0)

def leaveCgroup (tree : CgroupTree γ) (cfg : Config) (env : CgroupEnv) (k : Kernel γ) :
    Kernel γ :=
  match cfg.cgroup with
  | none => k
  | some name => (sandboxCgroupDestroy tree name env k).1

/-- `sandbox_apply_config`. -/
def sandboxApplyConfig (tree : CgroupTree γ) (cfg : Config) (env : SandboxEnv)
    (k : Kernel γ) : Kernel γ × Option ℤ :=
  if sandboxCoreValidateConfig cfg < 0 then k.ret (-1)
  else
    let r := enterCgroup tree cfg env.cgroup k
    if r.2 < 0 then r.1.ret (-1)
    else
      let r := sandboxCoreApplyNamespaces cfg env r.1
      if r.2 < 0 then (leaveCgroup tree cfg env.cgroup r.1).ret (-1)
      else
        let k := addBindings env.binding cfg.bindings.zipIdx r.1
        let k :=
          if cfg.enableNetNs && cfg.network.enableInternet then
            (sandboxNetworkIsolate cfg.network env.loopback k).1
          else k
        k.ret 0

/-! ## What the parts do -/

section Parts

variable {tree : CgroupTree γ} {cfg : Config} {k : Kernel γ}

/-- The steps of `enterCgroup` succeed. -/
def JoinSucceeds (cfg : Config) (env : CgroupEnv) : Prop :=
  cfg.cgroup.isSome = true → env.mkdir.ok = true ∧ (env.write .cgroupProcs).ok = true

/-- The steps of `sandbox_core_apply_namespaces` succeed. -/
structure NamespacesSucceed (cfg : Config) (env : SandboxEnv) : Prop where
  unshare : env.unshare = true
  userNs : cfg.enableUserNs = true → sandboxCoreSetupUserNamespace env.userNs = 0
  filesystem : cfg.enableMountNs = true →
    sandboxMountSetupFilesystem cfg.chrootPath env.filesystem = 0

/-- All the steps whose results are checked succeed. -/
structure CheckedStepsSucceed (cfg : Config) (env : SandboxEnv) : Prop where
  valid : sandboxCoreValidateConfig cfg = 0
  join : JoinSucceeds cfg env.cgroup
  namespaces : NamespacesSucceed cfg env

theorem sandboxCoreValidateConfig_neg_iff :
    sandboxCoreValidateConfig cfg < 0 ↔ sandboxCoreValidateConfig cfg ≠ 0 := by
  unfold sandboxCoreValidateConfig
  split_ifs <;> simp

theorem sandboxCoreSetupUserNamespace_neg_iff {env : UserNsEnv} :
    sandboxCoreSetupUserNamespace env < 0 ↔ sandboxCoreSetupUserNamespace env ≠ 0 := by
  unfold sandboxCoreSetupUserNamespace
  split_ifs <;> simp

theorem sandboxMountSetupFilesystem_neg_iff {root : Option (List UInt8)}
    {env : FilesystemEnv} : sandboxMountSetupFilesystem root env < 0 ↔
      sandboxMountSetupFilesystem root env ≠ 0 := by
  simp only [sandboxMountSetupFilesystem]
  split_ifs <;> simp

theorem writeControl_of_limit {target : γ} {file : ControlFile} {value : List UInt8}
    (hprocs : file ≠ .cgroupProcs) (hkill : file ≠ .cgroupKill) :
    k.writeControl tree target file value =
      { k with writes := k.writes ++ [⟨target, file, value, k.cgroup⟩] } := by
  cases file with
  | cgroupProcs => exact absurd rfl hprocs
  | cgroupKill => exact absurd rfl hkill
  | _ => rfl

theorem eq_of_mem_optional {α : Type*} {p : Prop} [Decidable p] {a b : α}
    (h : a ∈ if p then [b] else []) : a = b := by
  split_ifs at h
  · exact List.mem_singleton.mp h
  · cases h

theorem limitWrites_file {limits : ResourceLimits} {limit : ControlFile × List UInt8}
    (h : limit ∈ limitWrites limits) :
    limit.1 ≠ .cgroupProcs ∧ limit.1 ≠ .cgroupKill := by
  simp only [limitWrites, List.mem_append, or_assoc] at h
  rcases h with h | h | h | h | h
  all_goals
    rw [eq_of_mem_optional h]
    exact ⟨by simp, by simp⟩

def limitLog (tree : CgroupTree γ) (name : List UInt8) (limits : ResourceLimits)
    (env : CgroupEnv) (caller : γ) : List (ControlWrite γ) :=
  ((limitWrites limits).filter fun limit => (env.write limit.1).ok).map
    fun limit => ⟨tree.resolve name, limit.1, limit.2, caller⟩

theorem foldl_writeCgroupFile {name : List UInt8} {env : CgroupEnv}
    {limits : List (ControlFile × List UInt8)}
    (hlimits : ∀ limit ∈ limits, limit.1 ≠ .cgroupProcs ∧ limit.1 ≠ .cgroupKill) :
    limits.foldl
        (fun k limit => (writeCgroupFile tree name limit.1 limit.2 (env.write limit.1) k).1) k =
      { k with
        writes := k.writes ++ (limits.filter fun limit => (env.write limit.1).ok).map
          fun limit => ⟨tree.resolve name, limit.1, limit.2, k.cgroup⟩ } := by
  induction limits generalizing k with
  | nil => simp
  | cons limit limits ih =>
      have hfile := hlimits limit List.mem_cons_self
      rw [List.foldl_cons, ih fun limit' hmem => hlimits limit' (List.mem_cons_of_mem _ hmem),
        writeCgroupFile]
      cases hok : (env.write limit.1).ok with
      | false => simp [hok]
      | true => simp [hok, writeControl_of_limit hfile.1 hfile.2]

theorem sandboxCgroupCreate_eq {name : List UInt8} {limits : ResourceLimits}
    {env : CgroupEnv} (hmkdir : env.mkdir.ok = true) :
    sandboxCgroupCreate tree name limits env k =
      ({ k with writes := k.writes ++ limitLog tree name limits env k.cgroup }, 0) := by
  simp only [sandboxCgroupCreate, hmkdir, Bool.not_true, Bool.false_eq_true, if_false,
    foldl_writeCgroupFile fun _ => limitWrites_file]
  rfl

theorem enterCgroup_of_joinSucceeds {env : CgroupEnv} {name : List UInt8}
    (hname : cfg.cgroup = some name) (hmkdir : env.mkdir.ok = true)
    (hprocs : (env.write .cgroupProcs).ok = true) :
    enterCgroup tree cfg env k =
      ({ k with
          cgroup := tree.resolve name
          writes := k.writes ++ limitLog tree name cfg.limits env k.cgroup ++
            [⟨tree.resolve name, .cgroupProcs, decimal k.pid, k.cgroup⟩] }, 0) := by
  simp [enterCgroup, hname, sandboxCgroupCreate_eq hmkdir, sandboxCgroupAddProcess,
    writeCgroupFile, hprocs, Kernel.writeControl]

theorem enterCgroup_of_procs_fails {env : CgroupEnv} {name : List UInt8}
    (hname : cfg.cgroup = some name) (hmkdir : env.mkdir.ok = true)
    (hprocs : (env.write .cgroupProcs).ok = false) :
    enterCgroup tree cfg env k =
      ((sandboxCgroupDestroy tree name env { k with
          writes := k.writes ++ limitLog tree name cfg.limits env k.cgroup }).1, -1) := by
  simp [enterCgroup, hname, sandboxCgroupCreate_eq hmkdir, sandboxCgroupAddProcess,
    writeCgroupFile, hprocs]

theorem enterCgroup_of_mkdir_fails {env : CgroupEnv} {name : List UInt8}
    (hname : cfg.cgroup = some name) (hmkdir : env.mkdir.ok = false) :
    enterCgroup tree cfg env k = (k, -1) := by
  simp [enterCgroup, hname, sandboxCgroupCreate, hmkdir]

theorem enterCgroup_of_none {env : CgroupEnv} (hname : cfg.cgroup = none) :
    enterCgroup tree cfg env k = (k, 0) := by
  simp [enterCgroup, hname]

theorem enterCgroup_neg_iff {env : CgroupEnv} :
    (enterCgroup tree cfg env k).2 < 0 ↔ ¬JoinSucceeds cfg env := by
  unfold JoinSucceeds
  cases hname : cfg.cgroup with
  | none => simp [enterCgroup_of_none hname]
  | some name =>
      cases hmkdir : env.mkdir.ok with
      | false => simp [enterCgroup_of_mkdir_fails hname hmkdir]
      | true =>
          cases hprocs : (env.write .cgroupProcs).ok with
          | false => simp [enterCgroup_of_procs_fails hname hmkdir hprocs]
          | true => simp [enterCgroup_of_joinSucceeds hname hmkdir hprocs]

theorem sandboxCoreApplyNamespaces_of_succeeds {env : SandboxEnv}
    (hvalid : sandboxCoreValidateConfig cfg = 0) (h : NamespacesSucceed cfg env) :
    sandboxCoreApplyNamespaces cfg env k =
      ({ k with unshared := k.unshared ++ unshareFlags cfg }, 0) := by
  have huser : ¬(cfg.enableUserNs = true ∧ sandboxCoreSetupUserNamespace env.userNs < 0) :=
    fun ⟨hns, hneg⟩ => sandboxCoreSetupUserNamespace_neg_iff.mp hneg (h.userNs hns)
  have hmount : ¬(cfg.enableMountNs = true ∧
      sandboxMountSetupFilesystem cfg.chrootPath env.filesystem < 0) :=
    fun ⟨hns, hneg⟩ => sandboxMountSetupFilesystem_neg_iff.mp hneg (h.filesystem hns)
  simp [sandboxCoreApplyNamespaces, hvalid, h.unshare, huser, hmount]

theorem sandboxCoreApplyNamespaces_neg_iff {env : SandboxEnv}
    (hvalid : sandboxCoreValidateConfig cfg = 0) :
    (sandboxCoreApplyNamespaces cfg env k).2 < 0 ↔ ¬NamespacesSucceed cfg env := by
  constructor
  · intro hneg h
    rw [sandboxCoreApplyNamespaces_of_succeeds hvalid h] at hneg
    exact absurd hneg (Int.lt_irrefl 0)
  · intro h
    simp only [sandboxCoreApplyNamespaces, hvalid]
    split_ifs with hzero hunshare huser hmount
    · exact Int.negSucc_lt_zero 0
    · exact Int.negSucc_lt_zero 0
    · exact Int.negSucc_lt_zero 0
    · exact Int.negSucc_lt_zero 0
    · refine absurd ⟨by simpa using hunshare, fun hns => ?_, fun hns => ?_⟩ h
      · by_contra hne
        exact huser ⟨hns, sandboxCoreSetupUserNamespace_neg_iff.mpr hne⟩
      · by_contra hne
        exact hmount ⟨hns, sandboxMountSetupFilesystem_neg_iff.mpr hne⟩

theorem sandboxCoreApplyNamespaces_fst (cfg : Config) (env : SandboxEnv) (k : Kernel γ) :
    ∃ unshared, (sandboxCoreApplyNamespaces cfg env k).1 = { k with unshared := unshared } := by
  simp only [sandboxCoreApplyNamespaces]
  split_ifs
  · exact ⟨k.unshared, rfl⟩
  · exact ⟨k.unshared, rfl⟩
  · exact ⟨_, rfl⟩
  · exact ⟨_, rfl⟩
  · exact ⟨_, rfl⟩

def mountOf (binding : FilesystemBinding) (env : BindingEnv) : Option BindMount :=
  match binding.hostPath, binding.containerPath with
  | some hostPath, some containerPath =>
      if env.access && env.mkdir.ok && env.bindMount then
        some ⟨hostPath, containerPath, binding.readOnly && env.remount⟩
      else none
  | _, _ => none

theorem sandboxMountAddBinding_fst (binding : FilesystemBinding) (env : BindingEnv) :
    (sandboxMountAddBinding binding env k).1 =
      { k with bindMounts := (mountOf binding env).toList ++ k.bindMounts } := by
  obtain ⟨host, container, readOnly, optional⟩ := binding
  cases host with
  | none => rfl
  | some host =>
      cases container with
      | none => rfl
      | some container =>
          simp only [sandboxMountAddBinding, mountOf]
          cases env.access <;> cases env.mkdir.ok <;> cases env.bindMount <;> try rfl
          cases readOnly <;> cases env.remount <;> simp [Kernel.remountReadOnly]

theorem addBindings_eq (env : ℕ → BindingEnv) (bindings : List (FilesystemBinding × ℕ)) :
    addBindings env bindings k =
      { k with
        bindMounts :=
          (bindings.filterMap fun b => mountOf b.1 (env b.2)).reverse ++ k.bindMounts } := by
  unfold addBindings
  induction bindings generalizing k with
  | nil => rfl
  | cons b bindings ih =>
      rw [List.foldl_cons, ih, sandboxMountAddBinding_fst]
      cases hmount : mountOf b.1 (env b.2) <;> simp [hmount]

theorem sandboxNetworkIsolate_fst (net : NetworkConfig) (env : LoopbackEnv) :
    ∃ up, (sandboxNetworkIsolate net env k).1 = { k with loopbackUp := up } := by
  simp only [sandboxNetworkIsolate, bringUpLoopback]
  split_ifs
  · exact ⟨k.loopbackUp, rfl⟩
  · exact ⟨k.loopbackUp, rfl⟩
  · exact ⟨k.loopbackUp, rfl⟩
  · exact ⟨true, rfl⟩
  · exact ⟨k.loopbackUp, rfl⟩

end Parts

end Sandbox

end Security

end Shinigami
