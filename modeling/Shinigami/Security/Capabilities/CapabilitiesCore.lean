import Mathlib.Data.Finset.Image
import Mathlib.Data.Finset.Range
import Mathlib.Data.Int.Notation
import Mathlib.Tactic.SplitIfs

/-!
# Dropping privileges

`capabilities_core.c`: the bounding set, the user and the groups, and the capability
sets of a process, with an outcome for each system call. A call that fails changes
nothing, and a successful one has the effect that the kernel documents.

The loop over the bounding set does not look at its results, so that a capability that
could not be dropped stays in it; everything else is checked before the configuration
counts as applied.
-/

namespace Shinigami

namespace Security

/-- `cap_flags_t`, a sum of the flags `MCAP_…`. -/
abbrev CapFlags := UInt32

def mcapSysRawio : CapFlags := 1

def mcapNetBind : CapFlags := 2

def mcapSysAdmin : CapFlags := 4

def mcapSetuid : CapFlags := 8

def mcapKill : CapFlags := 16

def mcapNetRaw : CapFlags := 32

def capKillNum : UInt32 := 5

def capSetuidNum : UInt32 := 7

def capNetBindNum : UInt32 := 10

def capNetRawNum : UInt32 := 13

def capSysRawioNum : UInt32 := 17

def capSysAdminNum : UInt32 := 21

def capLastCapNum : ℕ := 40

/-- `capabilities_config_t`; `supplementaryGids` is the memory from the array on. -/
structure CapabilitiesConfig where
  effective : CapFlags
  permitted : CapFlags
  inheritable : CapFlags
  bounding : CapFlags
  targetUid : UInt32
  targetGid : UInt32
  supplementaryGids : ℕ → UInt32
  supplementaryGidCount : ℤ

/-- What the kernel keeps of a process; capabilities are their numbers. -/
structure Proc where
  uid : UInt32
  gid : UInt32
  groups : List UInt32
  keepCaps : Bool
  noNewPrivs : Bool
  effective : Finset ℕ
  permitted : Finset ℕ
  inheritable : Finset ℕ
  bounding : Finset ℕ

/-- The outcomes of the system calls, `setuidRoot` being the attempt to come back. -/
structure CapEnv where
  capbsetDrop : ℕ → Bool
  setNoNewPrivs : Bool
  setgroups : Bool
  setgid : Bool
  keepCapsOn : Bool
  setuid : Bool
  keepCapsOff : Bool
  setuidRoot : Bool
  capset : Bool

/-- The capabilities of a word of `cap_data`. -/
def bitCaps (bits : UInt32) : Finset ℕ :=
  (Finset.range 32).filter fun cap => bits.toBitVec.getLsbD cap = true

/-- `flags_to_bits`. -/
def flagsToBits (flags : CapFlags) : UInt32 :=
  let add (bits flag num : UInt32) := if flags &&& flag ≠ 0 then bits ||| (1 <<< num) else bits
  let bits := add 0 mcapSysRawio capSysRawioNum
  let bits := add bits mcapNetBind capNetBindNum
  let bits := add bits mcapSysAdmin capSysAdminNum
  let bits := add bits mcapSetuid capSetuidNum
  let bits := add bits mcapKill capKillNum
  add bits mcapNetRaw capNetRawNum

namespace Proc

/-- `capset`, with the two words of each set. -/
def capset (p : Proc) (effective permitted inheritable : UInt32 × UInt32) : Proc :=
  let caps (words : UInt32 × UInt32) := bitCaps words.1 ∪ (bitCaps words.2).image (· + 32)
  { p with
    effective := caps effective
    permitted := caps permitted
    inheritable := caps inheritable }

/-- `setuid` of a process that is root: without `KEEPCAPS` the permitted set is lost,
and the effective set in any case. -/
def setuidFromRoot (p : Proc) (uid : UInt32) : Proc :=
  { p with
    uid := uid
    permitted := if p.keepCaps then p.permitted else ∅
    effective := ∅ }

end Proc

/-- One round of the loop of `set_capability_bounding_set`. -/
def dropFromBounding (boundingBits : UInt32) (env : CapEnv) (p : Proc) (cap : ℕ) : Proc :=
  let capBit : UInt32 := 1 <<< UInt32.ofNat (cap % 32)
  let word := if cap < 32 then boundingBits else 0
  if word &&& capBit = 0 then
    if env.capbsetDrop cap then { p with bounding := p.bounding.erase cap } else p
  else p

/-- `set_capability_bounding_set`. -/
def setCapabilityBoundingSet (bounding : CapFlags) (env : CapEnv) (p : Proc) : Proc × ℤ :=
  ((List.range (capLastCapNum + 1)).foldl (dropFromBounding (flagsToBits bounding) env) p, 0)

/-- `set_caps_full`. -/
def setCapsFull (config : CapabilitiesConfig) (env : CapEnv) (p : Proc) : Proc × ℤ :=
  if !env.capset then (p, -1)
  else
    (p.capset (flagsToBits config.effective, 0) (flagsToBits config.permitted, 0)
      (flagsToBits config.inheritable, 0), 0)

/-- The groups that `setgroups` is given. -/
def supplementaryGroups (config : CapabilitiesConfig) : List UInt32 :=
  if config.supplementaryGidCount > 0 then
    (List.range config.supplementaryGidCount.toNat).map config.supplementaryGids
  else []

/-- The change of user and groups in `capabilities_core_apply_config`. -/
def changeUser (config : CapabilitiesConfig) (env : CapEnv) (p : Proc) : Proc × ℤ :=
  if !env.setgroups then (p, -1)
  else
    let p := { p with groups := supplementaryGroups config }
    if !env.setgid then (p, -1)
    else
      let p := { p with gid := config.targetGid }
      if !env.keepCapsOn then (p, -1)
      else
        let p := { p with keepCaps := true }
        if !env.setuid then (p, -1)
        else
          let p := p.setuidFromRoot config.targetUid
          let p := if env.keepCapsOff then { p with keepCaps := false } else p
          if env.setuidRoot then ({ p with uid := 0 }, -1) else (p, 0)

/-- `capabilities_core_apply_config`. -/
def capabilitiesCoreApplyConfig (config : CapabilitiesConfig) (env : CapEnv) (p : Proc) :
    Proc × ℤ :=
  let (p, rc) := setCapabilityBoundingSet config.bounding env p
  if rc < 0 then (p, -1)
  else if !env.setNoNewPrivs then (p, -1)
  else
    let p := { p with noNewPrivs := true }
    if config.targetUid > 0 ∧ config.targetGid > 0 ∧ p.uid = 0 then
      let (p, rc) := changeUser config env p
      if rc < 0 then (p, -1) else setCapsFull config env p
    else setCapsFull config env p

/-- The process has the identity and the capabilities of the configuration. What is left
in its bounding set beyond them could not be dropped. -/
structure PrivilegesDropped (config : CapabilitiesConfig) (env : CapEnv) (p : Proc) : Prop where
  uid : p.uid = config.targetUid
  gid : p.gid = config.targetGid
  groups : p.groups = supplementaryGroups config
  noNewPrivs : p.noNewPrivs = true
  effective : p.effective = bitCaps (flagsToBits config.effective)
  permitted : p.permitted = bitCaps (flagsToBits config.permitted)
  inheritable : p.inheritable = bitCaps (flagsToBits config.inheritable)
  bounding : ∀ cap ∈ p.bounding, cap ∈ bitCaps (flagsToBits config.bounding) ∨
    env.capbsetDrop cap = false ∨ capLastCapNum < cap

section Bounding

variable {bits : UInt32} {env : CapEnv} {p : Proc}

theorem mem_bitCaps {cap : ℕ} : cap ∈ bitCaps bits ↔ bits.toBitVec.getLsbD cap = true := by
  rw [bitCaps, Finset.mem_filter, Finset.mem_range]
  refine ⟨And.right, fun h => ⟨?_, h⟩⟩
  by_contra hlarge
  rw [BitVec.getLsbD_of_ge _ _ (by omega)] at h
  cases h

theorem bitCaps_zero : bitCaps 0 = ∅ := by decide

theorem toBitVec_capBit {i : ℕ} (hi : i < 32) :
    (1 <<< UInt32.ofNat i : UInt32).toBitVec = BitVec.twoPow 32 i := by
  have hmod : ((UInt32.ofNat i).toBitVec % 32).toNat = i := by
    have hofNat : (UInt32.ofNat i).toNat = i :=
      UInt32.toNat_ofNat_of_lt' (Nat.lt_trans hi (by decide))
    exact (congrArg (· % 32) hofNat).trans (Nat.mod_eq_of_lt hi)
  rw [UInt32.toBitVec_shiftLeft, BitVec.shiftLeft_eq', hmod]
  rfl

theorem and_capBit_eq_zero_iff {cap : ℕ} :
    (if cap < 32 then bits else 0) &&& (1 <<< UInt32.ofNat (cap % 32)) = 0 ↔
      cap ∉ bitCaps bits := by
  rw [mem_bitCaps]
  split_ifs with hcap
  · rw [← UInt32.toBitVec_inj, UInt32.toBitVec_and, toBitVec_capBit (by omega),
      Nat.mod_eq_of_lt hcap, BitVec.and_twoPow]
    have hne : BitVec.twoPow 32 cap ≠ 0#32 := by
      intro h
      have hget := congrArg (BitVec.getLsbD · cap) h
      simp [hcap] at hget
    split_ifs with hbit
    · exact iff_of_false hne (not_not_intro hbit)
    · exact iff_of_true rfl hbit
  · rw [UInt32.zero_and, BitVec.getLsbD_of_ge _ _ (by omega)]
    simp

/-- A round of the loop takes its capability out of the set, unless it is configured or
the call fails. -/
theorem mem_dropFromBounding {cap c : ℕ} :
    c ∈ (dropFromBounding bits env p cap).bounding ↔
      c ∈ p.bounding ∧ (c = cap → c ∈ bitCaps bits ∨ env.capbsetDrop c = false) := by
  simp only [dropFromBounding, and_capBit_eq_zero_iff]
  by_cases hkeep : cap ∈ bitCaps bits
  · rw [if_neg (not_not_intro hkeep)]
    exact ⟨fun h => ⟨h, fun heq => .inl (heq ▸ hkeep)⟩, And.left⟩
  · rw [if_pos hkeep]
    split_ifs with hdrop
    · rw [Finset.mem_erase, and_comm]
      refine and_congr_right fun _ => ⟨fun hne heq => absurd heq hne, fun h heq => ?_⟩
      rcases h heq with hmem | hfailed
      · exact hkeep (heq ▸ hmem)
      · rw [heq, hdrop] at hfailed
        cases hfailed
    · exact ⟨fun h => ⟨h, fun heq => .inr (by simpa [heq] using hdrop)⟩, And.left⟩

theorem mem_foldl_dropFromBounding (caps : List ℕ) {c : ℕ} :
    c ∈ (caps.foldl (dropFromBounding bits env) p).bounding ↔
      c ∈ p.bounding ∧ (c ∈ caps → c ∈ bitCaps bits ∨ env.capbsetDrop c = false) := by
  induction caps generalizing p with
  | nil => simp
  | cons cap caps ih =>
      rw [List.foldl_cons, ih, mem_dropFromBounding, List.mem_cons, and_assoc]
      exact and_congr_right fun _ => or_imp.symm

theorem dropFromBounding_cases (bits : UInt32) (env : CapEnv) (p : Proc) (cap : ℕ) :
    dropFromBounding bits env p cap = p ∨
      dropFromBounding bits env p cap = { p with bounding := p.bounding.erase cap } := by
  simp only [dropFromBounding, and_capBit_eq_zero_iff]
  split_ifs
  · exact .inl rfl
  · exact .inr rfl
  · exact .inl rfl

theorem foldl_dropFromBounding (caps : List ℕ) :
    caps.foldl (dropFromBounding bits env) p =
      { p with bounding := (caps.foldl (dropFromBounding bits env) p).bounding } := by
  induction caps generalizing p with
  | nil => rfl
  | cons cap caps ih =>
      rw [List.foldl_cons, ih]
      rcases dropFromBounding_cases bits env p cap with heq | heq
      · rw [heq]
      · rw [heq]

end Bounding

section Applied

variable {config : CapabilitiesConfig} {env : CapEnv} {p : Proc}

theorem changeUser_of_nonneg (hok : 0 ≤ (changeUser config env p).2) :
    (changeUser config env p).1 =
      { p with
        groups := supplementaryGroups config
        gid := config.targetGid
        uid := config.targetUid
        keepCaps := !env.keepCapsOff
        effective := ∅ } := by
  simp only [changeUser] at hok ⊢
  split_ifs at hok ⊢ with hgroups hgid hkeep huid hback hoff hoff
  · omega
  · omega
  · omega
  · omega
  · omega
  · omega
  · simp [Proc.setuidFromRoot, hoff]
  · simp [Proc.setuidFromRoot, hoff]

theorem setCapsFull_of_eq_zero (hok : (setCapsFull config env p).2 = 0) :
    (setCapsFull config env p).1 =
      { p with
        effective := bitCaps (flagsToBits config.effective)
        permitted := bitCaps (flagsToBits config.permitted)
        inheritable := bitCaps (flagsToBits config.inheritable) } := by
  simp only [setCapsFull] at hok ⊢
  split_ifs at hok ⊢
  · omega
  · simp only [Proc.capset, bitCaps_zero, Finset.image_empty, Finset.union_empty]

/-- What success means for a process that starts as root. -/
theorem privilegesDropped_of_applied (config : CapabilitiesConfig) (env : CapEnv) (p : Proc)
    (huid : 0 < config.targetUid) (hgid : 0 < config.targetGid) (hroot : p.uid = 0)
    (hok : (capabilitiesCoreApplyConfig config env p).2 = 0) :
    PrivilegesDropped config env (capabilitiesCoreApplyConfig config env p).1 := by
  obtain ⟨q, hq⟩ : ∃ q, q = (setCapabilityBoundingSet config.bounding env p).1 := ⟨_, rfl⟩
  have hframe : q = { p with bounding := q.bounding } := by
    rw [hq]
    exact foldl_dropFromBounding _
  have hbounding : ∀ cap ∈ q.bounding, cap ∈ bitCaps (flagsToBits config.bounding) ∨
      env.capbsetDrop cap = false ∨ capLastCapNum < cap := by
    intro cap hcap
    rw [hq, setCapabilityBoundingSet, mem_foldl_dropFromBounding, List.mem_range] at hcap
    by_cases hlast : capLastCapNum < cap
    · exact .inr (.inr hlast)
    · rcases hcap.2 (by omega) with hmem | hfailed
      · exact .inl hmem
      · exact .inr (.inl hfailed)
  have hrootq : config.targetUid > 0 ∧ config.targetGid > 0 ∧
      ({ q with noNewPrivs := true } : Proc).uid = 0 := by
    refine ⟨huid, hgid, ?_⟩
    rw [hframe]
    exact hroot
  have hrc : (setCapabilityBoundingSet config.bounding env p).2 = 0 := rfl
  simp only [capabilitiesCoreApplyConfig, hrc, ← hq, if_pos hrootq] at hok ⊢
  split_ifs at hok ⊢ with hneg hpriv huser
  · omega
  · omega
  · omega
  · rw [setCapsFull_of_eq_zero hok, changeUser_of_nonneg (by omega)]
    exact
      { uid := rfl
        gid := rfl
        groups := rfl
        noNewPrivs := rfl
        effective := rfl
        permitted := rfl
        inheritable := rfl
        bounding := hbounding }

end Applied

/-- A service that keeps `MCAP_KILL` and the groups 29 and 44. -/
def audioConfig : CapabilitiesConfig where
  effective := mcapKill
  permitted := mcapKill
  inheritable := 0
  bounding := mcapKill
  targetUid := 1000
  targetGid := 1000
  supplementaryGids := fun i => if i = 0 then 29 else 44
  supplementaryGidCount := 2

/-- A process of the superuser. -/
def rootProc : Proc where
  uid := 0
  gid := 0
  groups := []
  keepCaps := false
  noNewPrivs := false
  effective := Finset.range 41
  permitted := Finset.range 41
  inheritable := ∅
  bounding := Finset.range 41

/-- Calls that all succeed, but for the attempt to become root again. -/
def allSucceed : CapEnv := ⟨fun _ => true, true, true, true, true, true, true, false, true⟩

theorem privilegesDropped_audio :
    PrivilegesDropped audioConfig allSucceed
      (capabilitiesCoreApplyConfig audioConfig allSucceed rootProc).1 :=
  privilegesDropped_of_applied audioConfig allSucceed rootProc (by decide) (by decide) rfl
    (by decide)

/-- A process of the superuser on a kernel with one capability more. -/
def newerKernelProc : Proc :=
  { rootProc with
    effective := Finset.range 42
    permitted := Finset.range 42
    bounding := Finset.range 42 }

/-- The call for `CAP_SYS_ADMIN` fails, and the capability stays in the bounding set of a
process whose configuration has been applied; and the capability with the number 41 stays
although every call succeeds. -/
theorem not_bounding_subset_sysAdmin :
    (¬∀ (config : CapabilitiesConfig) (env : CapEnv) (p : Proc),
      0 < config.targetUid → 0 < config.targetGid →
      0 ≤ config.supplementaryGidCount ∧ config.supplementaryGidCount ≤ 8 → p.uid = 0 →
      (capabilitiesCoreApplyConfig config env p).2 = 0 →
      (capabilitiesCoreApplyConfig config env p).1.bounding ⊆
        bitCaps (flagsToBits config.bounding)) ∧
      (capabilitiesCoreApplyConfig audioConfig allSucceed newerKernelProc).2 = 0 ∧
      41 ∈ (capabilitiesCoreApplyConfig audioConfig allSucceed newerKernelProc).1.bounding ∧
      41 ∉ bitCaps (flagsToBits audioConfig.bounding) := by
  refine ⟨fun h => ?_, by decide, by decide, by decide⟩
  let env : CapEnv := { allSucceed with capbsetDrop := fun cap => cap != 21 }
  have hsubset := h audioConfig env rootProc (by decide) (by decide) (by decide) rfl (by decide)
  have hmem : 21 ∈ (capabilitiesCoreApplyConfig audioConfig env rootProc).1.bounding := by
    decide
  exact absurd (hsubset hmem) (by decide)

end Security

end Shinigami
