import Shinigami.ServiceManager.Infrastructure.Content
import Shinigami.ServiceManager.Observability.HealthPass

/-!
# The life of a registry entry

What requests and health passes do to the entry of a name between two
registrations: a pass rewrites it by `ServiceEntry.afterPass`, an accepted
heartbeat makes it running again, an unregistration removes it, and nothing else
changes it (`requestStep_entry`, `healthStep_entry`).

A heartbeat does so whatever the status was, also for a service that has been
given up: `dead_terminal_iff` says that this is the only way out of
`SERVICE_DEAD`.
-/

namespace Shinigami

namespace ServiceManager

open CString

/-- The event is a registration of the name that succeeds. -/
def Event.Registers (s : ServerState) (name : List UInt8) : Event → Prop
  | .register env req => cstr req.serviceName = cstr name ∧
      (smHandleRegister s env req).sent = encodeReply smOk
  | _ => False

/-- The event is a heartbeat for the name that is accepted. -/
def Event.Beats (s : ServerState) (name : List UInt8) : Event → Prop
  | .heartbeat env name' => cstr name' = cstr name ∧
      (smHandleHeartbeat s env name').sent = encodeReply smOk
  | _ => False

def Event.Signals (s : ServerState) (name : List UInt8) : Event → Prop
  | .health env => ∃ i < s.registry.registryCount,
      cstr (s.registry.registry i).name = cstr name ∧ SendsTerm s.registry env i
  | _ => False

instance (s : ServerState) (name : List UInt8) :
    DecidablePred (Event.Registers s name)
  | .register env req => inferInstanceAs (Decidable (cstr req.serviceName = cstr name ∧
      (smHandleRegister s env req).sent = encodeReply smOk))
  | .lookup _ _ | .heartbeat _ _ | .unregister _ _ | .health _ =>
      inferInstanceAs (Decidable False)

instance (s : ServerState) (name : List UInt8) :
    DecidablePred (Event.Beats s name)
  | .heartbeat env name' => inferInstanceAs (Decidable (cstr name' = cstr name ∧
      (smHandleHeartbeat s env name').sent = encodeReply smOk))
  | .register _ _ | .lookup _ _ | .unregister _ _ | .health _ =>
      inferInstanceAs (Decidable False)

instance (s : ServerState) (name : List UInt8) :
    DecidablePred (Event.Signals s name)
  | .health env => inferInstanceAs (Decidable (∃ i < s.registry.registryCount,
      cstr (s.registry.registry i).name = cstr name ∧ SendsTerm s.registry env i))
  | .register _ _ | .lookup _ _ | .heartbeat _ _ | .unregister _ _ =>
      inferInstanceAs (Decidable False)

theorem Event.Registers.exists_register {s : ServerState} {name : List UInt8} {ev : Event}
    (h : ev.Registers s name) : ∃ env req, ev = .register env req := by
  cases ev with
  | register env req => exact ⟨env, req, rfl⟩
  | lookup env name' => exact h.elim
  | heartbeat env name' => exact h.elim
  | unregister env name' => exact h.elim
  | health env => exact h.elim

theorem Event.Beats.exists_heartbeat {s : ServerState} {name : List UInt8} {ev : Event}
    (h : ev.Beats s name) : ∃ env name', ev = .heartbeat env name' := by
  cases ev with
  | heartbeat env name' => exact ⟨env, name', rfl⟩
  | register env req => exact h.elim
  | lookup env name' => exact h.elim
  | unregister env name' => exact h.elim
  | health env => exact h.elim

theorem Event.Signals.exists_health {s : ServerState} {name : List UInt8} {ev : Event}
    (h : ev.Signals s name) : ∃ env, ev = .health env := by
  cases ev with
  | health env => exact ⟨env, rfl⟩
  | register env req => exact h.elim
  | lookup env name' => exact h.elim
  | heartbeat env name' => exact h.elim
  | unregister env name' => exact h.elim

def signalPasses (name : List UInt8) : ServerState → List Event → ℕ
  | _, [] => 0
  | s, ev :: evs =>
      (if ev.Signals s name then 1 else 0) + signalPasses name (serverStep s ev) evs

section Step

variable {s : ServerState} {name : List UInt8}

def ServiceEntry.beat (e : ServiceEntry) (now : ℤ) : ServiceEntry :=
  { e with lastHeartbeat := now, status := .running }

/-- A heartbeat with success acts on the entry of its name, and on no other. -/
theorem RegistryInv.updateHeartbeat_cases {r : Registry} (h : RegistryInv r)
    {svcName : List UInt8} (hsvc : (cstr svcName).length < smMaxName) (now : ℤ)
    (hname : (cstr name).length < smMaxName) :
    let r' := ServiceManager.smRegistryUpdateHeartbeat r svcName now
    ((cstr svcName = cstr name → r'.2 ≠ smOk) ∧
        smRegistryFindCopy r'.1 name = smRegistryFindCopy r name) ∨
      cstr svcName = cstr name ∧ r'.2 = smOk ∧
        ∃ e, smRegistryFindCopy r name = some e ∧
          smRegistryFindCopy r'.1 name = some (e.beat now) := by
  intro r'
  simp only [r', ServiceManager.smRegistryUpdateHeartbeat]
  cases hfind : hashFind r svcName with
  | none => exact .inl ⟨fun _ => (by decide : smErrNotFound ≠ smOk), rfl⟩
  | some idx =>
      obtain ⟨hidx, hidxname⟩ := (h.hashFind_eq_some_iff hsvc).mp hfind
      have hmodify := h.findCopy_modifyAt hidx (f := (·.beat now)) (fun _ => rfl) hname
      split_ifs at hmodify with heq
      · refine .inr ⟨hidxname.symm.trans heq.symm, rfl, r.registry idx, ?_, hmodify⟩
        exact (h.findCopy_eq_some_iff hname).mpr ⟨idx, hidx, rfl, heq.symm⟩
      · exact .inl ⟨fun hsame => absurd (hsame.symm.trans hidxname.symm) heq, hmodify⟩

theorem RegistryInv.findCopy_removeIfOwner {r : Registry} (h : RegistryInv r)
    (gone : List UInt8) (owner : ℤ) (hname : (cstr name).length < smMaxName) :
    smRegistryFindCopy (ServiceManager.smRegistryRemoveIfOwner r gone owner).1 name =
        smRegistryFindCopy r name ∨
      smRegistryFindCopy (ServiceManager.smRegistryRemoveIfOwner r gone owner).1 name =
        none := by
  unfold ServiceManager.smRegistryRemoveIfOwner
  cases hfind : hashFind r gone with
  | none => exact .inl rfl
  | some idx =>
      dsimp only
      split_ifs with howner
      · exact .inl rfl
      · have hremove := h.findCopy_removeAt (h.of_hashFind hfind).1 gone hname
        split_ifs at hremove with heq
        · exact .inr hremove
        · exact .inl hremove

/-- A register request that does not register the name keeps its entry or
removes it. -/
theorem RegistryInv.findCopy_refused {r : Registry} (h : RegistryInv r)
    {entry : ServiceEntry} (hentry : (cstr entry.name).length < smMaxName)
    (kill : ℤ → KillProbe) (now now' : ℤ) (hname : (cstr name).length < smMaxName)
    (hnew : cstr name = cstr entry.name →
      (ServiceManager.smRegistryAdd r entry kill now now').2 ≠ smOk) :
    smRegistryFindCopy (ServiceManager.smRegistryAdd r entry kill now now').1 name =
        smRegistryFindCopy r name ∨
      smRegistryFindCopy (ServiceManager.smRegistryAdd r entry kill now now').1 name =
        none := by
  by_cases hsame : cstr name = cstr entry.name
  · rcases smRegistryAdd_cases r entry kill now now' with
      ⟨hkept, -⟩ | ⟨-, -, -, hadd⟩ | ⟨idx, -, hfind, -, hrest⟩
    · exact .inl (by rw [hkept])
    · exact absurd (by rw [hadd]) (hnew hsame)
    · rcases hrest with ⟨-, hadd⟩ | ⟨-, hadd⟩
      · obtain ⟨hidx, hidxname⟩ := (h.hashFind_eq_some_iff hentry).mp hfind
        rw [hadd, h.findCopy_removeAt hidx _ hname, if_pos (hsame.trans hidxname.symm)]
        exact .inr rfl
      · exact absurd (by rw [hadd]) (hnew hsame)
  · exact .inl (h.findCopy_smRegistryAdd_of_ne hentry _ _ _ hname hsame)

/-- What a request that does not register the name does to its entry: nothing,
or it removes the entry, or it is an accepted heartbeat. -/
theorem requestStep_entry (h : RegistryInv s.registry)
    (hname : (cstr name).length < smMaxName) (ev : Event)
    (hrequest : ∀ env, ev ≠ .health env) (hnew : ¬ ev.Registers s name) :
    smRegistryFindCopy (serverStep s ev).registry name =
        smRegistryFindCopy s.registry name ∨
      smRegistryFindCopy (serverStep s ev).registry name = none ∨
      (ev.Beats s name ∧ ∃ e now, smRegistryFindCopy s.registry name = some e ∧
        smRegistryFindCopy (serverStep s ev).registry name = some (e.beat now)) := by
  cases ev with
  | register env req =>
      rcases smHandleRegister_cases s env req with href | ⟨hvalid, -, -, heq, hsent⟩
      · exact .inl (by rw [serverStep, href.registry])
      · have hfits : cstr (registerEntry env req).name = cstr req.serviceName :=
          cstr_strncpyField_of_lt (length_of_smValidateServiceName hvalid)
        rw [serverStep, heq]
        refine (h.findCopy_refused (length_registerEntry_name env req) env.kill env.now
          env.now' hname fun hsame hok => hnew ⟨?_, ?_⟩).imp id .inl
        · rw [hsame, hfits]
        · rw [hsent, hok]
  | lookup env name' => exact .inl (by rw [serverStep, smHandleLookup_registry])
  | heartbeat env name' =>
      rcases smHandleHeartbeat_cases s env name' with href | ⟨hvalid, heq, hsent⟩
      · exact .inl (by rw [serverStep, href.registry])
      · rw [serverStep, heq]
        rcases h.updateHeartbeat_cases (length_of_smValidateServiceName hvalid) env.now
          hname with ⟨-, hkept⟩ | ⟨hsame, hok, e, he, hbeat⟩
        · exact .inl hkept
        · exact .inr (.inr ⟨⟨hsame, by rw [hsent, hok]⟩, e, env.now, he, hbeat⟩)
  | unregister env name' =>
      rcases smHandleUnregister_registry s env name' with heq | ⟨-, heq⟩
      · exact .inl (by rw [serverStep, heq])
      · rw [serverStep, heq]
        exact (h.findCopy_removeIfOwner name' env.peer.pid hname).imp id .inl
  | health env => exact absurd rfl (hrequest env)

theorem healthStep_entry (h : RegistryInv s.registry)
    (hname : (cstr name).length < smMaxName) (env : HealthEnv) :
    ((env.mallocOk = true → smRegistryFindCopy s.registry name = none) ∧
        smRegistryFindCopy (serverStep s (.health env)).registry name =
          smRegistryFindCopy s.registry name) ∨
      (env.mallocOk = true ∧ ∃ e i, smRegistryFindCopy s.registry name = some e ∧
        smRegistryFindCopy (serverStep s (.health env)).registry name =
          some (e.afterPass env i)) := by
  cases hok : env.mallocOk with
  | false =>
      exact .inl ⟨fun h => absurd h (by decide),
        by rw [serverStep, smHealthCheck_of_not_mallocOk _ hok]⟩
  | true =>
      cases hfind : smRegistryFindCopy s.registry name with
      | some e =>
          obtain ⟨i, -, -, hpass⟩ := h.findCopy_healthCheck hok hname hfind
          exact .inr ⟨rfl, e, i, rfl, hpass⟩
      | none =>
          have hkept := h.nameKept_healthCheck env hname
          unfold NameKept at hkept
          rw [hfind] at hkept
          generalize hnew : smRegistryFindCopy (smHealthCheck s.registry env).1 name =
            new at hkept
          cases hkept
          exact .inl ⟨fun _ => rfl, hnew⟩

theorem signals_iff (h : RegistryInv s.registry)
    (hname : (cstr name).length < smMaxName) (env : HealthEnv) :
    (Event.health env).Signals s name ↔ env.mallocOk = true ∧
      ∃ e, smRegistryFindCopy s.registry name = some e ∧ e.Terminated env := by
  unfold Event.Signals
  constructor
  · rintro ⟨i, hi, heq, hsends⟩
    obtain ⟨hok, hterm⟩ := (h.sendsTerm_iff hi).mp hsends
    exact ⟨hok, _, (h.findCopy_eq_some_iff hname).mpr ⟨i, hi, rfl, heq⟩, hterm⟩
  · rintro ⟨hok, e, he, hterm⟩
    obtain ⟨i, hi, rfl, heq⟩ := (h.findCopy_eq_some_iff hname).mp he
    exact ⟨i, hi, heq, (h.sendsTerm_iff hi).mpr ⟨hok, hterm⟩⟩

theorem serverStep_entry (h : RegistryInv s.registry)
    (hname : (cstr name).length < smMaxName) (ev : Event) (hnew : ¬ ev.Registers s name) :
    smRegistryFindCopy (serverStep s ev).registry name =
        smRegistryFindCopy s.registry name ∨
      smRegistryFindCopy (serverStep s ev).registry name = none ∨
      (ev.Beats s name ∧ ∃ e now, smRegistryFindCopy s.registry name = some e ∧
        smRegistryFindCopy (serverStep s ev).registry name = some (e.beat now)) ∨
      ∃ env e i, ev = .health env ∧ env.mallocOk = true ∧
        smRegistryFindCopy s.registry name = some e ∧
        smRegistryFindCopy (serverStep s ev).registry name =
          some (e.afterPass env i) := by
  rcases em (∃ env, ev = .health env) with ⟨env, rfl⟩ | hrequest
  · rcases healthStep_entry h hname env with ⟨-, heq⟩ | ⟨hok, e, i, he, heq⟩
    · exact .inl heq
    · exact .inr (.inr (.inr ⟨env, e, i, rfl, hok, he, heq⟩))
  · rcases requestStep_entry h hname ev (not_exists.mp hrequest) hnew with
      heq | heq | hbeat
    · exact .inl heq
    · exact .inr (.inl heq)
    · exact .inr (.inr (.inl hbeat))

theorem beats_entry (h : RegistryInv s.registry)
    (hname : (cstr name).length < smMaxName) {ev : Event} (hbeats : ev.Beats s name) :
    ∃ e, smRegistryFindCopy (serverStep s ev).registry name = some e ∧
      e.status = .running := by
  obtain ⟨env, name', rfl⟩ := hbeats.exists_heartbeat
  obtain ⟨hsame, hsent⟩ := hbeats
  rcases smHandleHeartbeat_cases s env name' with href | ⟨hvalid, heq, hcode⟩
  · exact absurd hsent href.sent_ne
  · have hok : (smRegistryUpdateHeartbeat s.registry name' env.now).2 = smOk :=
      encodeReply_inj (isResponseCode_smRegistryUpdateHeartbeat _ _ _) (by decide)
        (hcode.symm.trans hsent)
    rw [serverStep, heq]
    rcases h.updateHeartbeat_cases (length_of_smValidateServiceName hvalid) env.now
      hname with ⟨hfailed, -⟩ | ⟨-, -, e, -, hbeat⟩
    · exact absurd hok (hfailed hsame)
    · exact ⟨_, hbeat, rfl⟩

end Step

section Dead

variable {s : ServerState} {name : List UInt8}

/-- The entry of the name, if there is one, is given up, and no lookup that the
limiters admit answers with it. -/
def DeadAndHidden (s : ServerState) (name : List UInt8) : Prop :=
  ∀ e, smRegistryFindCopy s.registry name = some e → e.status = .dead ∧
    ∀ env name', cstr name' = cstr name → LimiterAdmits s env name' →
      (smHandleLookup s env name').sent = encodeReply smErrNotFound

theorem ServiceEntry.afterPass_of_dead {e : ServiceEntry} (hdead : e.status = .dead)
    (env : HealthEnv) (i : ℕ) : e.afterPass env i = e := by
  have hnot : ¬ e.TimedOut env := fun htime => by
    rw [htime.1] at hdead
    cases hdead
  rw [ServiceEntry.afterPass, if_neg hnot, if_neg (by rw [hdead]; decide)]

theorem deadAndHidden_of_dead (h : RegistryInv s.registry) (hc : ContentValid s.registry)
    (hdead : ∀ e, smRegistryFindCopy s.registry name = some e → e.status = .dead) :
    DeadAndHidden s name := by
  refine fun e he => ⟨hdead e he, fun env name' hsame hadmits => ?_⟩
  have hname := h.length_lt_of_findCopy he
  obtain ⟨i, hi, rfl, hn⟩ := (h.findCopy_eq_some_iff hname).mp he
  have hvalid : smValidateServiceName name' = smOk := by
    rw [← (hc i hi).name]
    exact smValidateServiceName_congr (hsame.trans hn.symm)
  have he' : smRegistryFindCopy s.registry name' = some (s.registry.registry i) := by
    rw [h.findCopy_congr (hsame ▸ hname) hsame, he]
  have hstatus : (s.registry.registry i).status ≠ .running := by
    rw [hdead _ he]
    decide
  rw [smHandleLookup_of_admits hadmits, if_neg (not_not.mpr hvalid), he']
  exact if_pos hstatus

/-- An event that neither registers nor revives a dead service leaves it dead. -/
theorem dead_serverStep (h : RegistryInv s.registry)
    (hname : (cstr name).length < smMaxName) {ev : Event}
    (hnew : ¬ ev.Registers s name) (hbeats : ¬ ev.Beats s name)
    (hdead : ∀ e, smRegistryFindCopy s.registry name = some e → e.status = .dead) :
    ∀ e, smRegistryFindCopy (serverStep s ev).registry name = some e →
      e.status = .dead := by
  intro e he
  rcases serverStep_entry h hname ev hnew with
    heq | heq | ⟨hbeat, -⟩ | ⟨env, e', i, -, -, he', heq⟩
  · exact hdead e (heq ▸ he)
  · rw [heq] at he
    cases he
  · exact absurd hbeat hbeats
  · rw [heq, ServiceEntry.afterPass_of_dead (hdead e' he')] at he
    cases he
    exact hdead _ he'

/-- A dead service stays dead and hidden in every state of a run without
registration exactly when no heartbeat for it is accepted. -/
theorem dead_run_iff {after : List Event} (h : RegistryInv s.registry)
    (hc : ContentValid s.registry) (hname : (cstr name).length < smMaxName)
    (hdead : ∀ e, smRegistryFindCopy s.registry name = some e → e.status = .dead)
    (hnew : Guarded serverStep (fun s ev => ¬ ev.Registers s name) s after) :
    (∀ seen rest, after = seen ++ rest → DeadAndHidden (run serverStep s seen) name) ↔
      Guarded serverStep (fun s ev => ¬ ev.Beats s name) s after := by
  induction after generalizing s with
  | nil =>
      refine iff_of_true ?_ trivial
      intro seen rest heq
      obtain ⟨rfl, -⟩ := List.append_eq_nil_iff.mp heq.symm
      exact deadAndHidden_of_dead h hc hdead
  | cons ev after ih =>
      have h' := registryInv_serverStep ev h
      have hc' := contentValid_serverStep ev h hc
      constructor
      · intro hstays
        have hdead' : ∀ e, smRegistryFindCopy (serverStep s ev).registry name = some e →
            e.status = .dead :=
          fun e he => (hstays [ev] after rfl e he).1
        have hbeats : ¬ ev.Beats s name := by
          intro hbeats
          obtain ⟨e, he, hrunning⟩ := beats_entry h hname hbeats
          rw [hdead' e he] at hrunning
          cases hrunning
        refine ⟨hbeats, (ih h' hc' hdead' hnew.2).mp ?_⟩
        rintro seen rest rfl
        exact hstays (ev :: seen) rest rfl
      · rintro ⟨hbeats, hrest⟩ seen rest heq
        have hdead' := dead_serverStep h hname hnew.1 hbeats hdead
        cases seen with
        | nil => exact deadAndHidden_of_dead h hc hdead
        | cons ev' seen =>
            obtain ⟨rfl, rfl⟩ := List.cons_eq_cons.mp heq
            exact (ih h' hc' hdead' hnew.2).mpr hrest seen rest rfl

end Dead

/-- Once a service is dead, it stays dead and hidden from lookups until the name
is registered again, exactly when no heartbeat for the name is accepted. -/
theorem dead_terminal_iff (start : Timespec) (before after : List Event)
    (name : List UInt8) (e : ServiceEntry)
    (he : smRegistryFindCopy (serverRun start before).registry name = some e)
    (hdead : e.status = .dead)
    (hnew : Guarded serverStep (fun s ev => ¬ ev.Registers s name)
      (serverRun start before) after) :
    (∀ seen rest, after = seen ++ rest →
        DeadAndHidden (serverRun start (before ++ seen)) name) ↔
      Guarded serverStep (fun s ev => ¬ ev.Beats s name)
        (serverRun start before) after := by
  have h := registryInv_serverRun start before
  have hdead' : ∀ e', smRegistryFindCopy (serverRun start before).registry name =
      some e' → e'.status = .dead := by
    intro e' he'
    rw [he] at he'
    cases he'
    exact hdead
  have hiff := dead_run_iff h (contentValid_serverRun start before)
    (h.length_lt_of_findCopy he) hdead' hnew
  simpa only [serverRun, run_append] using hiff

def peerAt (pid : ℤ) (now : UInt32) : RequestEnv where
  peer := ⟨pid, 1000, 1000⟩
  mono := .ofSeconds now
  banNow := now.toNat
  violationNow := now.toNat
  entryNow := now.toNat
  now := now.toNat
  now' := now.toNat
  kill := fun _ => .alive
  sendOk := true

def bootTime : Timespec := .ofSeconds 0

def svcName : List UInt8 := ascii ['s', 'v', 'c']

/-- Process 10 registers `svc` and is not heard of again; process 11 sends two
heartbeats in its place, and the third timeout makes the service dead. -/
def deadRun : List Event :=
  [.register (peerAt 10 100) (thiefReq 'a'), .health (demoEnv 200),
    .heartbeat (peerAt 11 201) svcName, .health (demoEnv 300),
    .heartbeat (peerAt 11 301) svcName, .health (demoEnv 400), .health (demoEnv 403)]

/-- The entry at the end of `deadRun`. -/
def deadEntry : ServiceEntry :=
  { registeredEntry (peerAt 10 100) (thiefReq 'a') with
    status := .dead
    lastHeartbeat := 301
    lastCrashTime := 400
    restartCount := 3 }

theorem deadRun_entry :
    smRegistryFindCopy (serverRun bootTime deadRun).registry svcName =
      some deadEntry := by
  decide +kernel

/-- Without a heartbeat the service stays dead. -/
theorem dead_terminal_iff_quiet :
    let after := [Event.lookup (peerAt 12 404) svcName, .health (demoEnv 406)]
    deadEntry.status = .dead ∧
      DeadAndHidden (serverRun bootTime (deadRun ++ after)) svcName := by
  intro after
  have hnew : Guarded serverStep (fun s ev => ¬ ev.Registers s svcName)
      (serverRun bootTime deadRun) after := ⟨id, id, trivial⟩
  have hbeats : Guarded serverStep (fun s ev => ¬ ev.Beats s svcName)
      (serverRun bootTime deadRun) after := ⟨id, id, trivial⟩
  exact ⟨rfl, (dead_terminal_iff bootTime deadRun after svcName deadEntry deadRun_entry
    rfl hnew).mpr hbeats after [] (List.append_nil _).symm⟩

/-- One more heartbeat of process 11, and the dead service is running again. -/
theorem dead_revived :
    let after := [Event.heartbeat (peerAt 11 404) svcName]
    Guarded serverStep (fun s ev => ¬ ev.Registers s svcName)
        (serverRun bootTime deadRun) after ∧
      smRegistryFindCopy (serverRun bootTime deadRun).registry svcName =
        some deadEntry ∧
      ¬ ∀ seen rest, after = seen ++ rest →
        DeadAndHidden (serverRun bootTime (deadRun ++ seen)) svcName := by
  intro after
  refine ⟨⟨id, trivial⟩, deadRun_entry, fun hstays => ?_⟩
  have hrunning : smRegistryFindCopy (serverRun bootTime (deadRun ++ after)).registry
      svcName = some { deadEntry with status := .running, lastHeartbeat := 404 } := by
    decide +kernel
  have hdead := (hstays after [] (List.append_nil _).symm _ hrunning).1
  cases hdead

end ServiceManager

end Shinigami
