import Shinigami.ServiceManager.Infrastructure.Registry.Invariant

/-!
# The registry as a finite map

What a caller of the registry sees is `smRegistryFindCopy`, a partial map from
names to entries. Under the representation invariant each operation has its
effect on this map and on nothing else: an append binds one name
(`findCopy_appendEntry`), a removal unbinds one (`findCopy_removeAt`), and the
status and heartbeat updates rewrite the entry of one name in place
(`findCopy_modifyAt`). The shifting of the array is not visible.

The main result is `registry_representation`: the invariant holds after every
sequence of calls.
-/

namespace Shinigami

namespace ServiceManager

open CString PoolChain

variable {r : Registry} {name : List UInt8}

theorem RegistryInv.findCopy_eq_some_iff (h : RegistryInv r)
    (hname : (cstr name).length < smMaxName) {e : ServiceEntry} :
    smRegistryFindCopy r name = some e ↔
      ∃ i < r.registryCount, r.registry i = e ∧ cstr e.name = cstr name := by
  simp only [smRegistryFindCopy, Option.map_eq_some_iff,
    h.hashFind_eq_some_iff hname]
  constructor
  · rintro ⟨i, ⟨hi, heq⟩, rfl⟩
    exact ⟨i, hi, rfl, heq⟩
  · rintro ⟨i, hi, rfl, heq⟩
    exact ⟨i, ⟨hi, heq⟩, rfl⟩

theorem RegistryInv.findCopy_congr (h : RegistryInv r) {name' : List UInt8}
    (hname : (cstr name).length < smMaxName) (heq : cstr name = cstr name') :
    smRegistryFindCopy r name = smRegistryFindCopy r name' := by
  ext e
  rw [h.findCopy_eq_some_iff hname, h.findCopy_eq_some_iff (heq ▸ hname), heq]

theorem RegistryInv.length_lt_of_findCopy (h : RegistryInv r) {e : ServiceEntry}
    (hfind : smRegistryFindCopy r name = some e) :
    (cstr name).length < smMaxName := by
  obtain ⟨i, hi, -⟩ := Option.map_eq_some_iff.mp hfind
  obtain ⟨hi, htest⟩ := h.of_hashFind hi
  have hlt := h.name_lt i hi
  have heq : (cstr (r.registry i).name).take smMaxName =
      (cstr name).take smMaxName := by
    simpa [nameAt, strncmpEq] using htest
  have hlen := congrArg List.length heq
  simp only [List.length_take] at hlen
  omega

/-- The entry that `sm_registry_add` stores for `entry`. -/
def ServiceEntry.initialised (entry : ServiceEntry) (now now' : ℤ) :
    ServiceEntry :=
  { entry with
    registeredAt := now
    restartCount := 0
    status := .running
    lastHeartbeat := now'
    lastCrashTime := 0 }

theorem appendEntry_registry_self (r : Registry) (entry : ServiceEntry)
    (now now' : ℤ) :
    (appendEntry r entry now now').registry r.registryCount =
      entry.initialised now now' := by
  simp [appendEntry, ServiceEntry.initialised]

theorem appendEntry_registry_of_lt (r : Registry) (entry : ServiceEntry)
    (now now' : ℤ) {i : ℕ} (hi : i < r.registryCount) :
    (appendEntry r entry now now').registry i = r.registry i := by
  simp [appendEntry, Nat.ne_of_lt hi]

@[simp] theorem appendEntry_registryCount (r : Registry) (entry : ServiceEntry)
    (now now' : ℤ) :
    (appendEntry r entry now now').registryCount = r.registryCount + 1 := rfl

theorem RegistryShape.appendEntry (h : RegistryShape r)
    (hroom : r.registryCount < smMaxServices) (entry : ServiceEntry) (now now' : ℤ) :
    RegistryShape (appendEntry r entry now now') := by
  refine ⟨hroom, ?_⟩
  obtain ⟨hused, chain, hchain, hnodup, hmem⟩ := h.linked
  have hlinked : Linked { r with
      registry := Function.update r.registry r.registryCount
        (entry.initialised now now')
      registryCount := r.registryCount + 1 } r.registryCount := by
    refine ⟨hused, chain, hchain, hnodup, ?_⟩
    intro s i
    rw [hmem]
    refine and_congr_right fun hi => ?_
    simp [Nat.ne_of_lt hi]
  simpa [ServiceManager.appendEntry, ServiceEntry.initialised] using
    linked_hashInsert hlinked

theorem RegistryInv.appendEntry (h : RegistryInv r) {entry : ServiceEntry}
    (hname : (cstr entry.name).length < smMaxName)
    (hfresh : ∀ i < r.registryCount,
      cstr (r.registry i).name ≠ cstr entry.name)
    (hroom : r.registryCount < smMaxServices) (now now' : ℤ) :
    RegistryInv (appendEntry r entry now now') := by
  have hself := appendEntry_registry_self r entry now now'
  have hold : ∀ i < r.registryCount,
      (ServiceManager.appendEntry r entry now now').registry i = r.registry i :=
    fun i hi => appendEntry_registry_of_lt r entry now now' hi
  refine ⟨hroom, ?_, ?_, (h.shape.appendEntry hroom entry now now').linked, ?_⟩
  · intro i hi
    rcases Nat.lt_succ_iff_lt_or_eq.mp hi with hlt | rfl
    · rw [hold i hlt]
      exact h.name_lt i hlt
    · rw [hself]
      exact hname
  · intro i hi j hj heq
    rcases Nat.lt_succ_iff_lt_or_eq.mp hi with hi | rfl <;>
      rcases Nat.lt_succ_iff_lt_or_eq.mp hj with hj | rfl
    · rw [hold i hi, hold j hj] at heq
      exact h.distinct i hi j hj heq
    · rw [hold i hi, hself] at heq
      exact absurd heq (hfresh i hi)
    · rw [hold j hj, hself] at heq
      exact absurd heq.symm (hfresh j hj)
    · rfl
  · refine hashInsert_poolOverrun ?_ h.no_overrun
    rw [h.linked.1]
    exact hroom

theorem RegistryInv.findCopy_appendEntry (h : RegistryInv r)
    {entry : ServiceEntry} (hentry : (cstr entry.name).length < smMaxName)
    (hfresh : ∀ i < r.registryCount,
      cstr (r.registry i).name ≠ cstr entry.name)
    (hroom : r.registryCount < smMaxServices) (now now' : ℤ)
    (hname : (cstr name).length < smMaxName) :
    smRegistryFindCopy (ServiceManager.appendEntry r entry now now') name =
      if cstr name = cstr entry.name then some (entry.initialised now now')
      else smRegistryFindCopy r name := by
  have h' := h.appendEntry hentry hfresh hroom now now'
  ext e
  rw [h'.findCopy_eq_some_iff hname]
  split_ifs with heq
  · constructor
    · rintro ⟨i, hi, rfl, hn⟩
      rcases Nat.lt_succ_iff_lt_or_eq.mp hi with hlt | rfl
      · rw [appendEntry_registry_of_lt _ _ _ _ hlt] at hn
        exact absurd (hn.trans heq) (hfresh i hlt)
      · rw [appendEntry_registry_self]
    · rintro ⟨⟩
      exact ⟨r.registryCount, by simp, appendEntry_registry_self r entry now now',
        heq.symm⟩
  · rw [h.findCopy_eq_some_iff hname]
    constructor
    · rintro ⟨i, hi, rfl, hn⟩
      rcases Nat.lt_succ_iff_lt_or_eq.mp hi with hlt | rfl
      · rw [appendEntry_registry_of_lt _ _ _ _ hlt] at hn ⊢
        exact ⟨i, hlt, rfl, hn⟩
      · rw [appendEntry_registry_self] at hn
        exact absurd hn.symm heq
    · rintro ⟨i, hi, rfl, hn⟩
      exact ⟨i, Nat.lt_succ_of_lt hi, appendEntry_registry_of_lt _ _ _ _ hi, hn⟩

theorem RegistryInv.findCopy_removeAt (h : RegistryInv r) {idx : ℕ}
    (hidx : idx < r.registryCount) (gone : List UInt8)
    (hname : (cstr name).length < smMaxName) :
    smRegistryFindCopy (ServiceManager.removeAt r gone idx) name =
      if cstr name = cstr (r.registry idx).name then none
      else smRegistryFindCopy r name := by
  have h' := h.removeAt gone hidx
  have hcount := removeAt_registryCount gone idx h.count_le
  ext e
  rw [h'.findCopy_eq_some_iff hname, hcount]
  split_ifs with heq
  · refine iff_of_false ?_ (by simp)
    rintro ⟨j, hj, rfl, hn⟩
    rw [removeAt_registry h.count_le hidx hj, heq] at hn
    have := h.distinct _ (by split_ifs <;> omega) _ hidx hn
    split_ifs at this <;> omega
  · rw [h.findCopy_eq_some_iff hname]
    constructor
    · rintro ⟨j, hj, rfl, hn⟩
      rw [removeAt_registry h.count_le hidx hj] at hn ⊢
      exact ⟨_, by split_ifs <;> omega, rfl, hn⟩
    · rintro ⟨i, hi, rfl, hn⟩
      have hne : i ≠ idx := by
        rintro rfl
        exact heq hn.symm
      by_cases hlt : i < idx
      · refine ⟨i, by omega, ?_, hn⟩
        rw [removeAt_registry h.count_le hidx (by omega), if_pos hlt]
      · refine ⟨i - 1, by omega, ?_, hn⟩
        rw [removeAt_registry h.count_le hidx (by omega), if_neg (by omega)]
        congr 1
        omega

theorem modifyAt_registry (r : Registry) (idx : ℕ)
    (f : ServiceEntry → ServiceEntry) (i : ℕ) :
    (modifyAt r idx f).registry i =
      if i = idx then f (r.registry idx) else r.registry i := by
  simp only [modifyAt, Function.update_apply]

theorem modifyAt_name (r : Registry) (idx : ℕ) {f : ServiceEntry → ServiceEntry}
    (hf : ∀ e, (f e).name = e.name) (i : ℕ) :
    ((modifyAt r idx f).registry i).name = (r.registry i).name := by
  rw [modifyAt_registry]
  split_ifs with hi
  · rw [hf, hi]
  · rfl

theorem RegistryInv.modifyAt (h : RegistryInv r) (idx : ℕ)
    {f : ServiceEntry → ServiceEntry} (hf : ∀ e, (f e).name = e.name) :
    RegistryInv (modifyAt r idx f) := by
  have hn := modifyAt_name r idx hf
  refine ⟨h.count_le, ?_, ?_, ?_, h.no_overrun⟩
  · intro i hi
    rw [hn]
    exact h.name_lt i hi
  · intro i hi j hj heq
    rw [hn, hn] at heq
    exact h.distinct i hi j hj heq
  · obtain ⟨hused, chain, hchain, hnodup, hmem⟩ := h.linked
    refine ⟨hused, chain, hchain, hnodup, ?_⟩
    intro s i
    rw [hmem, hn]
    rfl

theorem RegistryInv.findCopy_modifyAt (h : RegistryInv r) {idx : ℕ}
    (hidx : idx < r.registryCount) {f : ServiceEntry → ServiceEntry}
    (hf : ∀ e, (f e).name = e.name) (hname : (cstr name).length < smMaxName) :
    smRegistryFindCopy (ServiceManager.modifyAt r idx f) name =
      if cstr name = cstr (r.registry idx).name then some (f (r.registry idx))
      else smRegistryFindCopy r name := by
  have h' := h.modifyAt idx hf
  ext e
  rw [h'.findCopy_eq_some_iff hname]
  change (∃ i < r.registryCount, _) ↔ _
  split_ifs with heq
  · constructor
    · rintro ⟨i, hi, rfl, hn⟩
      rw [modifyAt_name r idx hf, heq] at hn
      rw [h.distinct i hi idx hidx hn, modifyAt_registry, if_pos rfl]
    · rintro ⟨⟩
      exact ⟨idx, hidx, by rw [modifyAt_registry, if_pos rfl], by rw [hf, heq]⟩
  · rw [h.findCopy_eq_some_iff hname]
    refine exists_congr fun i => and_congr_right fun hi => ?_
    by_cases hii : i = idx
    · subst hii
      rw [modifyAt_registry, if_pos rfl]
      constructor <;> rintro ⟨rfl, hn⟩
      · rw [hf] at hn
        exact absurd hn.symm heq
      · exact absurd hn.symm heq
    · rw [modifyAt_registry, if_neg hii]

theorem ServiceEntry.setStatus_name (e : ServiceEntry) (status : ServiceStatus)
    (now : ℤ) : (e.setStatus status now).name = e.name := by
  unfold ServiceEntry.setStatus
  split <;> rfl

theorem RegistryInv.removeAt_fresh (h : RegistryInv r)
    (hname : (cstr name).length < smMaxName) {idx : ℕ}
    (hfind : hashFind r name = some idx) :
    ∀ i < (ServiceManager.removeAt r name idx).registryCount,
      cstr ((ServiceManager.removeAt r name idx).registry i).name ≠ cstr name := by
  obtain ⟨hidx, heq⟩ := (h.hashFind_eq_some_iff hname).mp hfind
  rw [← (h.removeAt name hidx).hashFind_eq_none_iff hname]
  have hnone := h.findCopy_removeAt hidx name hname
  rw [if_pos heq.symm] at hnone
  simpa [smRegistryFindCopy] using hnone

/-- What `sm_registry_add` can do: refuse and change nothing, append under a
fresh name, or remove the stale entry of the name and then append if there is
room. -/
theorem smRegistryAdd_cases (r : Registry) (entry : ServiceEntry)
    (kill : ℤ → KillProbe) (now now' : ℤ) :
    ((smRegistryAdd r entry kill now now').1 = r ∧
        (smRegistryAdd r entry kill now now').2 ≠ smOk) ∨
      (nameIsValid entry.name = true ∧ hashFind r entry.name = none ∧
        r.registryCount < smMaxServices ∧
        smRegistryAdd r entry kill now now' =
          (appendEntry r entry now now', smOk)) ∨
      ∃ idx, nameIsValid entry.name = true ∧
        hashFind r entry.name = some idx ∧
        kill (r.registry idx).pid = .esrch ∧
        (smMaxServices ≤ (removeAt r entry.name idx).registryCount ∧
            smRegistryAdd r entry kill now now' =
              (removeAt r entry.name idx, smErrFull) ∨
          (removeAt r entry.name idx).registryCount < smMaxServices ∧
            smRegistryAdd r entry kill now now' =
              (appendEntry (removeAt r entry.name idx) entry now now', smOk)) := by
  by_cases hvalid : nameIsValid entry.name = true
  · cases hfind : hashFind r entry.name with
    | none =>
        rcases Nat.lt_or_ge r.registryCount smMaxServices with hroom | hfull
        · right
          left
          simp [smRegistryAdd, hvalid, hfind, hroom]
        · left
          simp [smRegistryAdd, hvalid, hfind, hfull, smErrFull, smOk]
    | some idx =>
        by_cases hprobe : kill (r.registry idx).pid = .esrch
        · right
          right
          refine ⟨idx, hvalid, rfl, hprobe, ?_⟩
          rcases Nat.lt_or_ge (removeAt r entry.name idx).registryCount
            smMaxServices with hroom | hfull
          · right
            simp [smRegistryAdd, hvalid, hfind, hprobe, hroom]
          · left
            simp [smRegistryAdd, hvalid, hfind, hprobe, hfull]
        · left
          simp [smRegistryAdd, hvalid, hfind, hprobe, smErrExists, smOk]
  · left
    simp [smRegistryAdd, hvalid, smErrInvalid, smOk]

theorem RegistryShape.smRegistryAdd (h : RegistryShape r) (entry : ServiceEntry)
    (kill : ℤ → KillProbe) (now now' : ℤ) :
    RegistryShape (smRegistryAdd r entry kill now now').1 := by
  rcases smRegistryAdd_cases r entry kill now now' with
    ⟨hsame, -⟩ | ⟨-, -, hroom, heq⟩ | ⟨idx, -, -, -, hrest⟩
  · rwa [hsame]
  · rw [heq]
    exact h.appendEntry hroom entry now now'
  · have h' := h.removeAt entry.name idx
    rcases hrest with ⟨-, heq⟩ | ⟨hroom, heq⟩
    · rwa [heq]
    · rw [heq]
      exact h'.appendEntry hroom entry now now'

theorem RegistryInv.smRegistryAdd (h : RegistryInv r) {entry : ServiceEntry}
    (hname : (cstr entry.name).length < smMaxName) (kill : ℤ → KillProbe)
    (now now' : ℤ) :
    RegistryInv (smRegistryAdd r entry kill now now').1 := by
  rcases smRegistryAdd_cases r entry kill now now' with
    ⟨hsame, -⟩ | ⟨-, hfind, hroom, heq⟩ | ⟨idx, -, hfind, -, hrest⟩
  · rwa [hsame]
  · rw [heq]
    exact h.appendEntry hname ((h.hashFind_eq_none_iff hname).mp hfind) hroom
      now now'
  · have hidx := ((h.hashFind_eq_some_iff hname).mp hfind).1
    have h' := h.removeAt entry.name hidx
    rcases hrest with ⟨-, heq⟩ | ⟨hroom, heq⟩
    · rwa [heq]
    · rw [heq]
      exact h'.appendEntry hname (h.removeAt_fresh hname hfind) hroom now now'

theorem RegistryInv.findCopy_smRegistryAdd_of_ne (h : RegistryInv r)
    {entry : ServiceEntry} (hentry : (cstr entry.name).length < smMaxName)
    (kill : ℤ → KillProbe) (now now' : ℤ) (hname : (cstr name).length < smMaxName)
    (hne : cstr name ≠ cstr entry.name) :
    smRegistryFindCopy (ServiceManager.smRegistryAdd r entry kill now now').1
        name = smRegistryFindCopy r name := by
  rcases smRegistryAdd_cases r entry kill now now' with
    ⟨hsame, -⟩ | ⟨-, hfind, hroom, heq⟩ | ⟨idx, -, hfind, -, hrest⟩
  · rw [hsame]
  · rw [heq, h.findCopy_appendEntry hentry
      ((h.hashFind_eq_none_iff hentry).mp hfind) hroom now now' hname,
      if_neg hne]
  · obtain ⟨hidx, hidxname⟩ := (h.hashFind_eq_some_iff hentry).mp hfind
    have h' := h.removeAt entry.name hidx
    have hremove := h.findCopy_removeAt hidx entry.name hname
    rw [hidxname, if_neg hne] at hremove
    rcases hrest with ⟨-, heq⟩ | ⟨hroom, heq⟩
    · rw [heq, hremove]
    · rw [heq, h'.findCopy_appendEntry hentry (h.removeAt_fresh hentry hfind)
        hroom now now' hname, if_neg hne, hremove]

theorem RegistryInv.smRegistryUpdateStatus (h : RegistryInv r)
    (name : List UInt8) (status : ServiceStatus) (now : ℤ) :
    RegistryInv (smRegistryUpdateStatus r name status now).1 := by
  unfold ServiceManager.smRegistryUpdateStatus
  split
  · exact h
  · exact h.modifyAt _ fun e => e.setStatus_name status now

theorem RegistryInv.smRegistryUpdateHeartbeat (h : RegistryInv r)
    (name : List UInt8) (now : ℤ) :
    RegistryInv (smRegistryUpdateHeartbeat r name now).1 := by
  unfold ServiceManager.smRegistryUpdateHeartbeat
  split
  · exact h
  · exact h.modifyAt _ (f := fun e =>
      { e with lastHeartbeat := now, status := .running }) fun e => rfl

theorem RegistryInv.smRegistryRemove (h : RegistryInv r)
    (hname : (cstr name).length < smMaxName) :
    RegistryInv (smRegistryRemove r name).1 := by
  unfold ServiceManager.smRegistryRemove
  split
  · exact h
  · rename_i idx hfind
    exact h.removeAt name ((h.hashFind_eq_some_iff hname).mp hfind).1

theorem RegistryInv.smRegistryRemoveIfOwner (h : RegistryInv r)
    (hname : (cstr name).length < smMaxName) (ownerPid : ℤ) :
    RegistryInv (smRegistryRemoveIfOwner r name ownerPid).1 := by
  unfold ServiceManager.smRegistryRemoveIfOwner
  split
  · exact h
  · rename_i idx hfind
    split_ifs with hpid
    · exact h
    · exact h.removeAt name ((h.hashFind_eq_some_iff hname).mp hfind).1

theorem registryInv_zero : RegistryInv Registry.zero := by
  refine ⟨Nat.zero_le _, ?_, ?_, ⟨rfl, fun _ => [], ?_, ?_, ?_⟩, rfl⟩
  · exact fun i hi => absurd hi (Nat.not_lt_zero i)
  · exact fun i hi => absurd hi (Nat.not_lt_zero i)
  · exact fun s => .nil 0
  · exact fun s => List.nodup_nil
  · simp [Registry.zero]

/-- A call of the registry interface, with the clock readings and the liveness
of the processes it meets. -/
inductive RegistryOp
  | init
  | add (entry : ServiceEntry) (kill : ℤ → KillProbe) (now now' : ℤ)
  | updateStatus (name : List UInt8) (status : ServiceStatus) (now : ℤ)
  | updateHeartbeat (name : List UInt8) (now : ℤ)
  | remove (name : List UInt8)
  | removeIfOwner (name : List UInt8) (ownerPid : ℤ)
  | cleanup

/-- The name a call is about is shorter than `SM_MAX_NAME`. -/
def RegistryOp.NameShort : RegistryOp → Prop
  | .init | .cleanup => True
  | .add entry _ _ _ => (cstr entry.name).length < smMaxName
  | .updateStatus name _ _ | .updateHeartbeat name _ | .remove name
  | .removeIfOwner name _ => (cstr name).length < smMaxName

instance : DecidablePred RegistryOp.NameShort
  | .init | .cleanup => inferInstanceAs (Decidable True)
  | .add entry _ _ _ =>
      inferInstanceAs (Decidable ((cstr entry.name).length < smMaxName))
  | .updateStatus name _ _ | .updateHeartbeat name _ | .remove name
  | .removeIfOwner name _ =>
      inferInstanceAs (Decidable ((cstr name).length < smMaxName))

def registryStep (r : Registry) : RegistryOp → Registry
  | .init => smRegistryInit r
  | .add entry kill now now' => (smRegistryAdd r entry kill now now').1
  | .updateStatus name status now => (smRegistryUpdateStatus r name status now).1
  | .updateHeartbeat name now => (smRegistryUpdateHeartbeat r name now).1
  | .remove name => (smRegistryRemove r name).1
  | .removeIfOwner name ownerPid => (smRegistryRemoveIfOwner r name ownerPid).1
  | .cleanup => smRegistryCleanup r

theorem registryInv_step (r : Registry) (op : RegistryOp) (hop : op.NameShort)
    (h : RegistryInv r) : RegistryInv (registryStep r op) := by
  have hreset : RegistryInv { Registry.zero with poolOverrun := r.poolOverrun } := by
    rw [h.no_overrun]
    exact registryInv_zero
  cases op with
  | init => exact hreset
  | add entry kill now now' => exact h.smRegistryAdd hop kill now now'
  | updateStatus name status now => exact h.smRegistryUpdateStatus name status now
  | updateHeartbeat name now => exact h.smRegistryUpdateHeartbeat name now
  | remove name => exact h.smRegistryRemove hop
  | removeIfOwner name ownerPid => exact h.smRegistryRemoveIfOwner hop ownerPid
  | cleanup => exact hreset

theorem registryInv_run {ops : List RegistryOp} (hops : ∀ op ∈ ops, op.NameShort) :
    RegistryInv (run registryStep Registry.zero ops) :=
  run_invariant registryInv_step registryInv_zero hops

/-- After every sequence of calls the array, the node pool and the bucket chains
agree: the count is within the array, the allocator has handed out one node for
each entry, the names are distinct, the chains hold every index once in the
bucket of its name, the hash answers like the linear search, and no
`hash_insert` has left the pool. -/
theorem registry_representation (ops : List RegistryOp)
    (hops : ∀ op ∈ ops, op.NameShort) :
    let r := run registryStep Registry.zero ops
    r.registryCount ≤ smMaxServices ∧
      r.hashPoolUsed = r.registryCount ∧
      (∀ i < r.registryCount, ∀ j < r.registryCount,
        cstr (r.registry i).name = cstr (r.registry j).name → i = j) ∧
      (∃ chain : ℕ → List ℕ,
        (∀ s, Chain r.hashPool r.registryCount (r.hashTable s) (chain s)) ∧
        (∀ s, (chain s).Nodup) ∧
        ∀ s i, i ∈ chain s ↔
          i < r.registryCount ∧ hashName (r.registry i).name = s) ∧
      (∀ name, (cstr name).length < smMaxName →
        hashFind r name = (List.range r.registryCount).find? (nameAt r name)) ∧
      r.poolOverrun = false := by
  intro r
  have h : RegistryInv r := registryInv_run hops
  obtain ⟨hused, hchains⟩ := h.linked
  exact ⟨h.count_le, hused, h.distinct, hchains,
    fun name hname => h.hashFind_eq_find?_range hname, h.no_overrun⟩

/-- Two services are added and the first one is replaced after its process has
died. -/
def replacementOps : List RegistryOp :=
  let entry := fun (c : Char) (pid : ℤ) =>
    { ServiceEntry.zero with name := ascii [c], pid := pid }
  let died : ℤ → KillProbe := fun pid => if pid = 10 then .esrch else .alive
  [.init, .add (entry 'a' 10) died 1 1, .add (entry 'b' 11) died 2 2,
    .add (entry 'a' 12) died 3 3, .remove (ascii ['b'])]

theorem registry_representation_replacement :
    (∀ op ∈ replacementOps, op.NameShort) ∧
      (run registryStep Registry.zero replacementOps).registryCount = 1 ∧
      (run registryStep Registry.zero replacementOps).poolOverrun = false := by
  have hops : ∀ op ∈ replacementOps, op.NameShort := by decide
  exact ⟨hops, by decide, (registry_representation _ hops).2.2.2.2.2⟩

end ServiceManager

end Shinigami
