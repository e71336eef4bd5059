import Shinigami.ServiceManager.Infrastructure.Ownership

/-!
# Validity of the registered entries

The handlers validate names and paths before they reach the registry. Which
entries the registry holds is a matter of what is added: the operations rewrite
the five fields of `SameRegistration` and nothing else, so a property that does
not look at these holds of all entries as long as it holds of every entry that
is added (`EntriesHold`). For the validity of the names and paths this gives
`contentValid_serverRun`: it holds in every state that requests and health
passes reach.
-/

namespace Shinigami

namespace ServiceManager

open CString

structure SameRegistration (e e' : ServiceEntry) : Prop extends SameOwner e e' where
  gid : e'.gid = e.gid
  tier : e'.tier = e.tier

def IgnoresState (P : ServiceEntry → Prop) : Prop :=
  ∀ e e', SameRegistration e e' → P e → P e'

def EntriesHold (P : ServiceEntry → Prop) (r : Registry) : Prop :=
  ∀ i < r.registryCount, P (r.registry i)

structure ServiceEntry.Valid (e : ServiceEntry) : Prop where
  name : smValidateServiceName e.name = smOk
  socketPath : smValidateSocketPath e.socketPath = smOk
  ringName : smValidateSocketPath e.ringName = smOk

instance (e : ServiceEntry) : Decidable e.Valid :=
  decidable_of_iff
    (smValidateServiceName e.name = smOk ∧ smValidateSocketPath e.socketPath = smOk ∧
      smValidateSocketPath e.ringName = smOk)
    ⟨fun h => ⟨h.1, h.2.1, h.2.2⟩, fun h => ⟨h.name, h.socketPath, h.ringName⟩⟩

/-- Every registered entry is valid. -/
def ContentValid (r : Registry) : Prop := EntriesHold ServiceEntry.Valid r

theorem ignoresState_valid : IgnoresState ServiceEntry.Valid := by
  rintro e e' hsame ⟨hname, hpath, hring⟩
  refine ⟨?_, ?_, ?_⟩
  · rw [hsame.name, hname]
  · rw [hsame.socketPath, hpath]
  · rw [hsame.ringName, hring]

theorem smValidateServiceName_congr {a b : List UInt8} (h : cstr a = cstr b) :
    smValidateServiceName a = smValidateServiceName b := by
  unfold smValidateServiceName strnlen
  rw [h]

theorem smValidateSocketPath_congr {a b : List UInt8} (h : cstr a = cstr b) :
    smValidateSocketPath a = smValidateSocketPath b := by
  unfold smValidateSocketPath strnlen strstrFound strncmpEq
  rw [h]

theorem length_of_smValidateSocketPath {path : List UInt8}
    (h : smValidateSocketPath path = smOk) : (cstr path).length < smMaxPath := by
  unfold smValidateSocketPath at h
  split_ifs at h with hempty hlong
  · cases h
  · cases h
  all_goals simpa [strnlen, smMaxPath] using hlong

/-- What passes a check fits its field, so the copy passes the check as well. -/
theorem cstr_strncpyField_of_lt {n : ℕ} {s : List UInt8} (h : (cstr s).length < n) :
    cstr (strncpyField n s) = cstr s := by
  rw [cstr_strncpyField, List.take_of_length_le (Nat.le_sub_one_of_lt h)]

theorem valid_registerEntry (env : RequestEnv) {req : SmRegisterReq}
    (hname : smValidateServiceName req.serviceName = smOk)
    (hpath : smValidateSocketPath req.socketPath = smOk)
    (hring : smValidateSocketPath req.ringName = smOk) :
    (registerEntry env req).Valid where
  name := by
    rw [← hname]
    exact smValidateServiceName_congr
      (cstr_strncpyField_of_lt (length_of_smValidateServiceName hname))
  socketPath := by
    rw [← hpath]
    exact smValidateSocketPath_congr
      (cstr_strncpyField_of_lt (length_of_smValidateSocketPath hpath))
  ringName := by
    rw [← hring]
    exact smValidateSocketPath_congr
      (cstr_strncpyField_of_lt (length_of_smValidateSocketPath hring))

theorem sameRegistration_initialised (e : ServiceEntry) (now now' : ℤ) :
    SameRegistration e (e.initialised now now') :=
  ⟨⟨rfl, rfl, rfl, rfl, rfl⟩, rfl, rfl⟩

theorem sameRegistration_setStatus (e : ServiceEntry) (status : ServiceStatus)
    (now : ℤ) : SameRegistration e (e.setStatus status now) := by
  refine ⟨sameOwner_setStatus e status now, ?_, ?_⟩
  · unfold ServiceEntry.setStatus
    split <;> rfl
  · unfold ServiceEntry.setStatus
    split <;> rfl

section Operations

variable {P : ServiceEntry → Prop} {r : Registry}

theorem EntriesHold.modifyAt (h : EntriesHold P r) (idx : ℕ)
    {f : ServiceEntry → ServiceEntry} (hf : ∀ e, P e → P (f e)) :
    EntriesHold P (ServiceManager.modifyAt r idx f) := by
  intro i hi
  have hi' : i < r.registryCount := hi
  rw [modifyAt_registry]
  split_ifs with heq
  · subst heq
    exact hf _ (h i hi')
  · exact h i hi'

theorem EntriesHold.removeAt (h : EntriesHold P r)
    (hcount : r.registryCount ≤ smMaxServices) (name : List UInt8) {idx : ℕ}
    (hidx : idx < r.registryCount) :
    EntriesHold P (ServiceManager.removeAt r name idx) := by
  intro i hi
  rw [removeAt_registryCount name idx hcount] at hi
  rw [removeAt_registry hcount hidx hi]
  apply h _
  split_ifs <;> omega

theorem EntriesHold.appendEntry (h : EntriesHold P r) {entry : ServiceEntry}
    {now now' : ℤ} (hentry : P (entry.initialised now now')) :
    EntriesHold P (ServiceManager.appendEntry r entry now now') := by
  intro i hi
  rw [appendEntry_registryCount] at hi
  rcases Nat.lt_succ_iff_lt_or_eq.mp hi with hlt | rfl
  · rw [appendEntry_registry_of_lt r entry now now' hlt]
    exact h i hlt
  · rw [appendEntry_registry_self]
    exact hentry

theorem EntriesHold.smRegistryAdd (h : EntriesHold P r) (hr : RegistryShape r)
    {entry : ServiceEntry} (kill : ℤ → KillProbe) {now now' : ℤ}
    (hentry : (ServiceManager.smRegistryAdd r entry kill now now').2 = smOk →
      P (entry.initialised now now')) :
    EntriesHold P (ServiceManager.smRegistryAdd r entry kill now now').1 := by
  rcases smRegistryAdd_cases r entry kill now now' with
    ⟨hsame, -⟩ | ⟨-, -, -, hadd⟩ | ⟨idx, -, hfind, -, hrest⟩
  · rwa [hsame]
  · rw [hadd] at hentry ⊢
    exact h.appendEntry (hentry rfl)
  · have hremoved := h.removeAt hr.count_le entry.name (hr.of_hashFind hfind).1
    rcases hrest with ⟨-, hadd⟩ | ⟨-, hadd⟩
    · rwa [hadd]
    · rw [hadd] at hentry ⊢
      exact hremoved.appendEntry (hentry rfl)

theorem EntriesHold.smRegistryUpdateStatus (h : EntriesHold P r)
    (hP : IgnoresState P) (name : List UInt8) (status : ServiceStatus) (now : ℤ) :
    EntriesHold P (ServiceManager.smRegistryUpdateStatus r name status now).1 := by
  unfold ServiceManager.smRegistryUpdateStatus
  split
  · exact h
  · exact h.modifyAt _ fun e => hP e _ (sameRegistration_setStatus e status now)

theorem EntriesHold.smRegistryUpdateHeartbeat (h : EntriesHold P r)
    (hP : IgnoresState P) (name : List UInt8) (now : ℤ) :
    EntriesHold P (ServiceManager.smRegistryUpdateHeartbeat r name now).1 := by
  unfold ServiceManager.smRegistryUpdateHeartbeat
  split
  · exact h
  · exact h.modifyAt _ fun e => hP e _ ⟨⟨rfl, rfl, rfl, rfl, rfl⟩, rfl, rfl⟩

theorem EntriesHold.smRegistryRemoveIfOwner (h : EntriesHold P r) (hr : RegistryShape r)
    (name : List UInt8) (ownerPid : ℤ) :
    EntriesHold P (ServiceManager.smRegistryRemoveIfOwner r name ownerPid).1 := by
  unfold ServiceManager.smRegistryRemoveIfOwner
  split
  · exact h
  · rename_i idx hfind
    split_ifs
    · exact h
    · exact h.removeAt hr.count_le name (hr.of_hashFind hfind).1

def Event.Adds (P : ServiceEntry → Prop) : Event → Prop
  | .register env req => (registerEntry env req).Valid → P (registerEntry env req)
  | .lookup _ _ | .heartbeat _ _ | .unregister _ _ | .health _ => True

theorem entriesHold_serverStep {s : ServerState} (hP : IgnoresState P) {ev : Event}
    (hev : ev.Adds P) (hr : RegistryInv s.registry) (h : EntriesHold P s.registry) :
    EntriesHold P (serverStep s ev).registry := by
  cases ev with
  | register env req =>
      rcases smHandleRegister_cases s env req with href | ⟨hname, hpath, hring, heq, -⟩
      · rw [serverStep, href.registry]
        exact h
      · rw [serverStep, heq]
        have hentry : P (registerEntry env req) :=
          hev (valid_registerEntry env hname hpath hring)
        exact h.smRegistryAdd hr.shape _ fun _ =>
          hP _ _ (sameRegistration_initialised _ _ _) hentry
  | lookup env name =>
      rw [serverStep, smHandleLookup_registry]
      exact h
  | heartbeat env name =>
      rcases smHandleHeartbeat_registry s env name with heq | heq
      · rw [serverStep, heq]
        exact h
      · rw [serverStep, heq]
        exact h.smRegistryUpdateHeartbeat hP name env.now
  | unregister env name =>
      rcases smHandleUnregister_registry s env name with heq | ⟨-, heq⟩
      · rw [serverStep, heq]
        exact h
      · rw [serverStep, heq]
        exact h.smRegistryRemoveIfOwner hr.shape name env.peer.pid
  | health env =>
      exact smHealthCheck_keeps env h fun _ name status now h =>
        h.smRegistryUpdateStatus hP name status now

theorem entriesHold_serverRun (hP : IgnoresState P) (start : Timespec)
    {events : List Event} (hevents : ∀ ev ∈ events, ev.Adds P) :
    EntriesHold P (serverRun start events).registry := by
  have hzero : EntriesHold P (ServerState.init start).registry :=
    fun i hi => absurd hi (Nat.not_lt_zero i)
  have hboth : RegistryInv (serverRun start events).registry ∧
      EntriesHold P (serverRun start events).registry :=
    run_invariant
      (I := fun s : ServerState => RegistryInv s.registry ∧ EntriesHold P s.registry)
      (fun _ ev hev h =>
        ⟨registryInv_serverStep ev h.1, entriesHold_serverStep hP hev h.1 h.2⟩)
      ⟨registryInv_zero, hzero⟩ hevents
  exact hboth.2

end Operations

theorem adds_valid (ev : Event) : ev.Adds ServiceEntry.Valid := by
  cases ev with
  | register env req => exact id
  | lookup env name => trivial
  | heartbeat env name => trivial
  | unregister env name => trivial
  | health env => trivial

theorem contentValid_serverStep {s : ServerState} (ev : Event)
    (hr : RegistryInv s.registry) (h : ContentValid s.registry) :
    ContentValid (serverStep s ev).registry :=
  entriesHold_serverStep ignoresState_valid (adds_valid ev) hr h

theorem contentValid_serverRun (start : Timespec) (events : List Event) :
    ContentValid (serverRun start events).registry :=
  entriesHold_serverRun ignoresState_valid start fun ev _ => adds_valid ev

end ServiceManager

end Shinigami
