import Mathlib.Data.List.Induction
import Shinigami.Foundations.Run
import Shinigami.ServiceManager.Infrastructure.Handlers
import Shinigami.ServiceManager.Observability.Health

/-!
# Ownership of service names

The system of all requests and health passes, in any order. What one event can
do to the entry of a name is said once, in `serverStep_findCopy`: the entry
keeps its owner, or the event releases the name, or the event is the
registration that creates the entry. From there, every entry was registered by
the process it names (`registeredBy_run`), and nobody takes a name over before
it is released (`no_service_hijack`).
-/

namespace Shinigami

namespace ServiceManager

open CString

/-- A request to one of the handlers, or a pass of the health monitor. -/
inductive Event
  | register (env : RequestEnv) (req : SmRegisterReq)
  | lookup (env : RequestEnv) (name : List UInt8)
  | heartbeat (env : RequestEnv) (name : List UInt8)
  | unregister (env : RequestEnv) (name : List UInt8)
  | health (env : HealthEnv)

def serverStep (s : ServerState) : Event → ServerState
  | .register env req => (smHandleRegister s env req).server
  | .lookup env name => (smHandleLookup s env name).server
  | .heartbeat env name => (smHandleHeartbeat s env name).server
  | .unregister env name => (smHandleUnregister s env name).server
  | .health env => { s with registry := (smHealthCheck s.registry env).1 }

/-- The event ends the ownership of `name` by the process `pid`: the process
unregisters the name, or somebody registers it while the process is gone. -/
def Event.Releases (name : List UInt8) (pid : ℤ) : Event → Prop
  | .unregister env name' => cstr name' = cstr name ∧ env.peer.pid = pid
  | .register env req =>
      cstr req.serviceName = cstr name ∧ env.kill pid = .esrch
  | .lookup _ _ | .heartbeat _ _ | .health _ => False

structure SameOwner (e e' : ServiceEntry) : Prop where
  name : e'.name = e.name
  pid : e'.pid = e.pid
  uid : e'.uid = e.uid
  socketPath : e'.socketPath = e.socketPath
  ringName : e'.ringName = e.ringName

theorem SameOwner.refl (e : ServiceEntry) : SameOwner e e :=
  ⟨rfl, rfl, rfl, rfl, rfl⟩

theorem SameOwner.trans {e e' e'' : ServiceEntry} (h : SameOwner e e')
    (h' : SameOwner e' e'') : SameOwner e e'' :=
  ⟨h'.name.trans h.name, h'.pid.trans h.pid, h'.uid.trans h.uid,
    h'.socketPath.trans h.socketPath, h'.ringName.trans h.ringName⟩

theorem sameOwner_setStatus (e : ServiceEntry) (status : ServiceStatus) (now : ℤ) :
    SameOwner e (e.setStatus status now) := by
  unfold ServiceEntry.setStatus
  split <;> exact ⟨rfl, rfl, rfl, rfl, rfl⟩

theorem SameOwner.encodeLookupReply_eq {e e' : ServiceEntry} (h : SameOwner e e') :
    encodeLookupReply e' = encodeLookupReply e := by
  simp only [encodeLookupReply, h.pid, h.socketPath, h.ringName]

/-- The entry of a name in two registries: absent from both, or with the same
owner in both. -/
def NameKept (r r' : Registry) (name : List UInt8) : Prop :=
  Option.Rel SameOwner (smRegistryFindCopy r name) (smRegistryFindCopy r' name)

theorem NameKept.of_eq {r r' : Registry} {name : List UInt8}
    (h : smRegistryFindCopy r' name = smRegistryFindCopy r name) :
    NameKept r r' name := by
  rw [NameKept, h]
  cases smRegistryFindCopy r name with
  | none => exact .none
  | some e => exact .some (SameOwner.refl e)

theorem NameKept.trans {r r' r'' : Registry} {name : List UInt8}
    (h : NameKept r r' name) (h' : NameKept r' r'' name) : NameKept r r'' name := by
  unfold NameKept at *
  generalize smRegistryFindCopy r name = old at h ⊢
  generalize smRegistryFindCopy r' name = mid at h h'
  generalize smRegistryFindCopy r'' name = new at h' ⊢
  cases h with
  | none => exact h'
  | some hab =>
      cases h' with
      | some hbc => exact .some (hab.trans hbc)

section Step

variable {r : Registry} {name : List UInt8}

theorem RegistryInv.nameKept_modifyAt (h : RegistryInv r) {idx : ℕ}
    (hidx : idx < r.registryCount) {f : ServiceEntry → ServiceEntry}
    (hf : ∀ e, SameOwner e (f e)) (hname : (cstr name).length < smMaxName) :
    NameKept r (ServiceManager.modifyAt r idx f) name := by
  have hmodify := h.findCopy_modifyAt hidx (fun e => (hf e).name) hname
  split_ifs at hmodify with heq
  · have hold : smRegistryFindCopy r name = some (r.registry idx) :=
      (h.findCopy_eq_some_iff hname).mpr ⟨idx, hidx, rfl, heq.symm⟩
    rw [NameKept, hold, hmodify]
    exact .some (hf _)
  · exact .of_eq hmodify

theorem RegistryInv.nameKept_updateStatus (h : RegistryInv r)
    (svcName : List UInt8) (status : ServiceStatus) (now : ℤ)
    (hname : (cstr name).length < smMaxName) :
    NameKept r (ServiceManager.smRegistryUpdateStatus r svcName status now).1
      name := by
  unfold ServiceManager.smRegistryUpdateStatus
  split
  · exact .of_eq rfl
  · rename_i idx hfind
    exact h.nameKept_modifyAt (h.of_hashFind hfind).1
      (fun e => sameOwner_setStatus e status now) hname

theorem RegistryInv.nameKept_updateHeartbeat (h : RegistryInv r)
    (svcName : List UInt8) (now : ℤ) (hname : (cstr name).length < smMaxName) :
    NameKept r (ServiceManager.smRegistryUpdateHeartbeat r svcName now).1 name := by
  unfold ServiceManager.smRegistryUpdateHeartbeat
  split
  · exact .of_eq rfl
  · rename_i idx hfind
    refine h.nameKept_modifyAt (h.of_hashFind hfind).1 (fun e => ?_) hname
    exact ⟨rfl, rfl, rfl, rfl, rfl⟩

theorem RegistryInv.smHealthCheck (h : RegistryInv r) (env : HealthEnv) :
    RegistryInv (smHealthCheck r env).1 :=
  smHealthCheck_keeps env h fun _ svcName status now h =>
    h.smRegistryUpdateStatus svcName status now

theorem RegistryInv.nameKept_healthCheck (h : RegistryInv r) (env : HealthEnv)
    (hname : (cstr name).length < smMaxName) :
    NameKept r (ServiceManager.smHealthCheck r env).1 name := by
  refine (smHealthCheck_keeps (P := fun r' => RegistryInv r' ∧ NameKept r r' name)
    env ⟨h, .of_eq rfl⟩ ?_).2
  rintro r' svcName status now ⟨h', hkept⟩
  exact ⟨h'.smRegistryUpdateStatus svcName status now,
    hkept.trans (h'.nameKept_updateStatus svcName status now hname)⟩

/-- Unregistering keeps the entry of a name, or removes it for its owner. -/
theorem RegistryInv.removeIfOwner_findCopy (h : RegistryInv r)
    {gone : List UInt8} (hgone : (cstr gone).length < smMaxName) (owner : ℤ)
    (hname : (cstr name).length < smMaxName) :
    NameKept r (ServiceManager.smRegistryRemoveIfOwner r gone owner).1 name ∨
      ∃ e, smRegistryFindCopy r name = some e ∧ cstr gone = cstr name ∧
        owner = e.pid ∧ smRegistryFindCopy
          (ServiceManager.smRegistryRemoveIfOwner r gone owner).1 name = none := by
  unfold ServiceManager.smRegistryRemoveIfOwner
  split
  · exact .inl (.of_eq rfl)
  · rename_i idx hfind
    obtain ⟨hidx, hidxname⟩ := (h.hashFind_eq_some_iff hgone).mp hfind
    split_ifs with hpid
    · exact .inl (.of_eq rfl)
    · have hremove := h.findCopy_removeAt hidx gone hname
      split_ifs at hremove with heq
      · right
        refine ⟨r.registry idx, ?_, ?_, (not_not.mp hpid).symm, hremove⟩
        · exact (h.findCopy_eq_some_iff hname).mpr ⟨idx, hidx, rfl, heq.symm⟩
        · rw [heq, hidxname]
      · exact .inl (.of_eq hremove)

/-- Adding an entry keeps the entry of another name, and replaces the entry of
its own name only when the process behind that is gone. -/
theorem RegistryInv.add_findCopy (h : RegistryInv r) {entry : ServiceEntry}
    (hentry : (cstr entry.name).length < smMaxName) (kill : ℤ → KillProbe)
    (now now' : ℤ) (hname : (cstr name).length < smMaxName) :
    let r' := (ServiceManager.smRegistryAdd r entry kill now now').1
    NameKept r r' name ∨
      cstr entry.name = cstr name ∧
        (∀ e, smRegistryFindCopy r name = some e → kill e.pid = .esrch) ∧
        (smRegistryFindCopy r' name = some (entry.initialised now now') ∨
          smRegistryFindCopy r name ≠ none ∧ smRegistryFindCopy r' name = none) := by
  intro r'
  by_cases heq : cstr name = cstr entry.name
  · rcases smRegistryAdd_cases r entry kill now now' with
      ⟨hsame, -⟩ | ⟨-, hfind, hroom, hadd⟩ | ⟨idx, -, hfind, hkill, hrest⟩
    · exact .inl (.of_eq (by rw [show r' = r from hsame]))
    · right
      have hnone : smRegistryFindCopy r name = none := by
        rw [h.findCopy_congr hname heq, smRegistryFindCopy, hfind]
        rfl
      have happend := h.findCopy_appendEntry hentry
        ((h.hashFind_eq_none_iff hentry).mp hfind) hroom now now' hname
      rw [if_pos heq] at happend
      refine ⟨heq.symm, by simp [hnone], .inl ?_⟩
      simp only [r', hadd, happend]
    · right
      obtain ⟨hidx, hidxname⟩ := (h.hashFind_eq_some_iff hentry).mp hfind
      have hold : smRegistryFindCopy r name = some (r.registry idx) := by
        rw [h.findCopy_congr hname heq, smRegistryFindCopy, hfind]
        rfl
      refine ⟨heq.symm, ?_, ?_⟩
      · intro e he
        rw [hold] at he
        cases he
        exact hkill
      · rcases hrest with ⟨-, hadd⟩ | ⟨hroom, hadd⟩
        · right
          have hremove := h.findCopy_removeAt hidx entry.name hname
          rw [hidxname, if_pos heq] at hremove
          exact ⟨by simp [hold], by simp only [r', hadd, hremove]⟩
        · left
          have happend := (h.removeAt entry.name hidx).findCopy_appendEntry hentry
            (h.removeAt_fresh hentry hfind) hroom now now' hname
          rw [if_pos heq] at happend
          simp only [r', hadd, happend]
  · exact .inl (.of_eq
      (h.findCopy_smRegistryAdd_of_ne hentry kill now now' hname heq))

end Step

theorem serverStep_registry (s : ServerState) (ev : Event) :
    (serverStep s ev).registry = s.registry ∨
      (∃ env req, ev = .register env req ∧
        smValidateServiceName req.serviceName = smOk ∧
        (serverStep s ev).registry = (smRegistryAdd s.registry
          (registerEntry env req) env.kill env.now env.now').1) ∨
      (∃ env name, ev = .heartbeat env name ∧
        (serverStep s ev).registry =
          (smRegistryUpdateHeartbeat s.registry name env.now).1) ∨
      (∃ env name, ev = .unregister env name ∧
        smValidateServiceName name = smOk ∧
        (serverStep s ev).registry =
          (smRegistryRemoveIfOwner s.registry name env.peer.pid).1) ∨
      ∃ env, ev = .health env ∧
        (serverStep s ev).registry = (smHealthCheck s.registry env).1 := by
  cases ev with
  | register env req =>
      rcases smHandleRegister_registry s env req with heq | ⟨hname, heq⟩
      · exact .inl heq
      · exact .inr (.inl ⟨env, req, rfl, hname, heq⟩)
  | lookup env name => exact .inl (smHandleLookup_registry s env name)
  | heartbeat env name =>
      rcases smHandleHeartbeat_registry s env name with heq | heq
      · exact .inl heq
      · exact .inr (.inr (.inl ⟨env, name, rfl, heq⟩))
  | unregister env name =>
      rcases smHandleUnregister_registry s env name with heq | ⟨hname, heq⟩
      · exact .inl heq
      · exact .inr (.inr (.inr (.inl ⟨env, name, rfl, hname, heq⟩)))
  | health env => exact .inr (.inr (.inr (.inr ⟨env, rfl, rfl⟩)))

theorem registryInv_serverStep {s : ServerState} (ev : Event)
    (h : RegistryInv s.registry) : RegistryInv (serverStep s ev).registry := by
  rcases serverStep_registry s ev with
    heq | ⟨env, req, -, -, heq⟩ | ⟨env, name, -, heq⟩ | ⟨env, name, -, hname, heq⟩ |
      ⟨env, -, heq⟩
  · rwa [heq]
  · rw [heq]
    exact h.smRegistryAdd (length_registerEntry_name env req) _ _ _
  · rw [heq]
    exact h.smRegistryUpdateHeartbeat name env.now
  · rw [heq]
    exact h.smRegistryRemoveIfOwner (length_of_smValidateServiceName hname) _
  · rw [heq]
    exact h.smHealthCheck env

def registeredEntry (env : RequestEnv) (req : SmRegisterReq) : ServiceEntry :=
  (registerEntry env req).initialised env.now env.now'

/-- What an event can do to the entry of a name: keep its owner, release the
name, or be the registration that creates the entry. -/
theorem serverStep_findCopy {s : ServerState} (ev : Event)
    (h : RegistryInv s.registry) {name : List UInt8}
    (hname : (cstr name).length < smMaxName) :
    NameKept s.registry (serverStep s ev).registry name ∨
      (∃ e, smRegistryFindCopy s.registry name = some e ∧ ev.Releases name e.pid ∧
        smRegistryFindCopy (serverStep s ev).registry name = none) ∨
      ∃ env req, ev = .register env req ∧ cstr req.serviceName = cstr name ∧
        (∀ e, smRegistryFindCopy s.registry name = some e →
          ev.Releases name e.pid) ∧
        smRegistryFindCopy (serverStep s ev).registry name =
          some (registeredEntry env req) := by
  rcases serverStep_registry s ev with
    heq | ⟨env, req, rfl, hvalid, heq⟩ | ⟨env, svcName, -, heq⟩ |
      ⟨env, gone, rfl, hvalid, heq⟩ | ⟨env, -, heq⟩
  · exact .inl (.of_eq (by rw [heq]))
  · have hfits : cstr (registerEntry env req).name = cstr req.serviceName := by
      have hlt := length_of_smValidateServiceName hvalid
      rw [registerEntry_name, List.take_of_length_le (Nat.le_sub_one_of_lt hlt)]
    rw [heq]
    rcases h.add_findCopy (length_registerEntry_name env req) env.kill env.now
      env.now' hname with hkept | ⟨hsame, hgone, hnew | ⟨hold, hnone⟩⟩
    · exact .inl hkept
    · refine .inr (.inr ⟨env, req, rfl, hfits.symm.trans hsame, ?_, hnew⟩)
      exact fun e he => ⟨hfits.symm.trans hsame, hgone e he⟩
    · obtain ⟨e, he⟩ := Option.ne_none_iff_exists'.mp hold
      exact .inr (.inl ⟨e, he, ⟨hfits.symm.trans hsame, hgone e he⟩, hnone⟩)
  · rw [heq]
    exact .inl (h.nameKept_updateHeartbeat svcName env.now hname)
  · rw [heq]
    rcases h.removeIfOwner_findCopy (length_of_smValidateServiceName hvalid)
      env.peer.pid hname with hkept | ⟨e, he, hsame, howner, hnone⟩
    · exact .inl hkept
    · exact .inr (.inl ⟨e, he, ⟨hsame, howner⟩, hnone⟩)
  · rw [heq]
    exact .inl (h.nameKept_healthCheck env hname)

/-- The state after `events`, from start-up. -/
def serverRun (start : Timespec) (events : List Event) : ServerState :=
  run serverStep (ServerState.init start) events

theorem registryInv_serverRun (start : Timespec) (events : List Event) :
    RegistryInv (serverRun start events).registry :=
  run_invariant (I := fun s : ServerState => RegistryInv s.registry)
    (P := fun _ => True) (fun _ ev _ h => registryInv_serverStep ev h)
    registryInv_zero fun _ _ => trivial

/-- The entry comes from a register request: it has the process and the user of
the peer, and the end points of the request. -/
def RegisteredBy (events : List Event) (e : ServiceEntry) : Prop :=
  ∃ env req, Event.register env req ∈ events ∧ cstr req.serviceName = cstr e.name ∧
    e.pid = env.peer.pid ∧ e.uid = env.peer.uid ∧
    e.socketPath = strncpyField smMaxPath req.socketPath ∧
    e.ringName = strncpyField smMaxPath req.ringName

theorem registeredBy_run (start : Timespec) (events : List Event)
    {name : List UInt8} {e : ServiceEntry}
    (he : smRegistryFindCopy (serverRun start events).registry name = some e) :
    RegisteredBy events e := by
  induction events using List.reverseRecOn generalizing e with
  | nil => cases he
  | append_singleton events ev ih =>
      have hinv := registryInv_serverRun start events
      have hname := (registryInv_serverRun start (events ++ [ev])).length_lt_of_findCopy he
      have hrun : serverRun start (events ++ [ev]) =
          serverStep (serverRun start events) ev := run_concat _ _ _
      rw [hrun] at he
      rcases serverStep_findCopy ev hinv hname with
        hkept | ⟨_, -, -, hnone⟩ | ⟨env, req, rfl, hsame, -, hnew⟩
      · unfold NameKept at hkept
        rw [he] at hkept
        generalize hold : smRegistryFindCopy (serverRun start events).registry name =
          old at hkept
        cases hkept with
        | some howner =>
            obtain ⟨env, req, hmem, hn, hpid, huid, hpath, hring⟩ := ih hold
            refine ⟨env, req, List.mem_append_left _ hmem, ?_, ?_, ?_, ?_, ?_⟩
            · rw [howner.name, hn]
            · rw [howner.pid, hpid]
            · rw [howner.uid, huid]
            · rw [howner.socketPath, hpath]
            · rw [howner.ringName, hring]
      · rw [hnone] at he
        cases he
      · have hentry := (registryInv_serverRun start
          (events ++ [.register env req])).findCopy_eq_some_iff hname (e := e)
        rw [hrun] at hentry
        obtain ⟨-, -, -, hn⟩ := hentry.mp he
        rw [hnew] at he
        cases he
        exact ⟨env, req, by simp, hsame.trans hn.symm, rfl, rfl, rfl, rfl⟩

theorem sameOwner_run {s : ServerState} {events : List Event} {name : List UInt8}
    {e : ServiceEntry} (h : RegistryInv s.registry)
    (he : smRegistryFindCopy s.registry name = some e)
    (hkeep : ∀ ev ∈ events, ¬ev.Releases name e.pid) :
    ∃ e', smRegistryFindCopy (run serverStep s events).registry name = some e' ∧
      SameOwner e e' := by
  induction events generalizing s e with
  | nil => exact ⟨e, he, SameOwner.refl e⟩
  | cons ev events ih =>
      have hev := hkeep ev (by simp)
      obtain ⟨e₁, he₁, howner⟩ : ∃ e₁,
          smRegistryFindCopy (serverStep s ev).registry name = some e₁ ∧
            SameOwner e e₁ := by
        rcases serverStep_findCopy ev h (h.length_lt_of_findCopy he) with
          hkept | ⟨e₁, he₁, hrel, -⟩ | ⟨env, req, -, -, hrel, -⟩
        · unfold NameKept at hkept
          rw [he] at hkept
          generalize smRegistryFindCopy (serverStep s ev).registry name = new at hkept
          cases hkept with
          | some howner => exact ⟨_, rfl, howner⟩
        · rw [he] at he₁
          cases he₁
          exact absurd hrel hev
        · exact absurd (hrel e he) hev
      obtain ⟨e', he', howner'⟩ := ih (registryInv_serverStep ev h) he₁
        fun ev' hev' => howner.pid ▸ hkeep ev' (by simp [hev'])
      exact ⟨e', he', howner.trans howner'⟩

/-- Once an entry is registered by a process, it keeps its process, its user and
its end points, and every lookup of the name answers with a response code or
with these, until the process unregisters the name or the name is registered
while the process is gone. -/
theorem no_service_hijack (start : Timespec) (before after : List Event)
    (name : List UInt8) (e : ServiceEntry)
    (he : smRegistryFindCopy (serverRun start before).registry name = some e)
    (hkeep : ∀ ev ∈ after, ¬ev.Releases name e.pid) :
    RegisteredBy before e ∧
      (∃ e', smRegistryFindCopy (serverRun start (before ++ after)).registry name =
          some e' ∧ e'.pid = e.pid ∧ e'.uid = e.uid ∧
          e'.socketPath = e.socketPath ∧ e'.ringName = e.ringName) ∧
      ∀ env name', cstr name' = cstr name →
        (∃ code, (smHandleLookup (serverRun start (before ++ after)) env name').sent =
            encodeReply code) ∨
          (smHandleLookup (serverRun start (before ++ after)) env name').sent =
            encodeLookupReply e := by
  have hinv := registryInv_serverRun start before
  obtain ⟨e', he', howner⟩ := sameOwner_run hinv he hkeep
  have hrun : serverRun start (before ++ after) =
      run serverStep (serverRun start before) after := run_append _ _ _
  rw [← hrun] at he'
  refine ⟨registeredBy_run start before he,
    ⟨e', he', howner.pid, howner.uid, howner.socketPath, howner.ringName⟩, ?_⟩
  intro env name' hsame
  have hname := hinv.length_lt_of_findCopy he
  have he'' := he'
  rw [← (registryInv_serverRun start (before ++ after)).findCopy_congr
    (hsame ▸ hname) hsame] at he''
  rw [← howner.encodeLookupReply_eq]
  rcases smHandleLookup_sent_cases (serverRun start (before ++ after)) env name' with
    hcode | ⟨entry, hentry, -, hsent⟩
  · exact .inl hcode
  · rw [he''] at hentry
    cases hentry
    exact .inr hsent

def thiefEnv (pid : ℤ) : RequestEnv where
  peer := ⟨pid, 1000, 1000⟩
  mono := .ofSeconds 1
  banNow := 100
  violationNow := 100
  entryNow := 100
  now := 100
  now' := 100
  kill := fun _ => .alive
  sendOk := true

/-- A request to register `svc`. -/
def thiefReq (c : Char) : SmRegisterReq where
  serviceName := ascii ['s', 'v', 'c']
  socketPath := ascii ['/', 'r', 'u', 'n', '/', c]
  ringName := ascii ['/', 't', 'm', 'p', '/', c]
  pid := 0

/-- Process 10 registers a name; process 11 then tries to take it over. -/
theorem no_service_hijack_thief :
    let start : Timespec := ⟨0, 0, by decide, by decide⟩
    let before := [Event.register (thiefEnv 10) (thiefReq 'a')]
    let after := [Event.register (thiefEnv 11) (thiefReq 'b'),
      .unregister (thiefEnv 11) (ascii ['s', 'v', 'c']),
      .health ⟨150, true, fun _ => 150, fun _ => false⟩]
    smRegistryFindCopy (serverRun start before).registry (ascii ['s', 'v', 'c']) =
        some (registeredEntry (thiefEnv 10) (thiefReq 'a')) ∧
      (∀ ev ∈ after, ¬ev.Releases (ascii ['s', 'v', 'c']) 10) ∧
      ∃ e', smRegistryFindCopy (serverRun start (before ++ after)).registry
        (ascii ['s', 'v', 'c']) = some e' ∧ e'.pid = 10 := by
  intro start before after
  have he : smRegistryFindCopy (serverRun start before).registry
      (ascii ['s', 'v', 'c']) =
        some (registeredEntry (thiefEnv 10) (thiefReq 'a')) := by
    decide +kernel
  have hkeep : ∀ ev ∈ after, ¬ev.Releases (ascii ['s', 'v', 'c']) 10 := by
    simp [after, Event.Releases, thiefEnv]
  obtain ⟨-, ⟨e', he', hpid, -⟩, -⟩ :=
    no_service_hijack start before after _ _ he hkeep
  exact ⟨he, hkeep, e', he', hpid⟩

end ServiceManager

end Shinigami
