import Shinigami.ServiceManager.Observability.EntryHistory

/-!
# The bound on the restarts of a service

The restart counter of an entry moves when a pass marks the service as crashed.
A pass that finds it crashed already signals it again and counts nothing, and a
heartbeat brings a service back that has used up its attempts. In a run where
neither happens (`Event.CountsRestarts`) every signal is counted
(`counted_serverStep`), so that there are at most `SM_HEALTH_MAX_RESTARTS` of
them, and the pass behind the last one gives the service up (`restart_bound`).
-/

namespace Shinigami

namespace ServiceManager

open CString

/-- The event counts what it restarts: no pass signals a service that it finds
crashed, and no heartbeat is accepted for a service without attempts left. -/
def Event.CountsRestarts (s : ServerState) (name : List UInt8) : Event → Prop
  | .health env => env.mallocOk = true → ∀ e ∈ smRegistryFindCopy s.registry name,
      e.status = .crashed → ¬ e.Terminated env
  | .heartbeat env name' => Event.Beats s name (.heartbeat env name') →
      ∀ e ∈ smRegistryFindCopy s.registry name, e.restartCount < smHealthMaxRestarts
  | .register _ _ | .lookup _ _ | .unregister _ _ => True

instance (s : ServerState) (name : List UInt8) :
    DecidablePred (Event.CountsRestarts s name)
  | .health env => inferInstanceAs (Decidable (env.mallocOk = true →
      ∀ e ∈ smRegistryFindCopy s.registry name,
        e.status = .crashed → ¬ e.Terminated env))
  | .heartbeat env name' => inferInstanceAs (Decidable
      (Event.Beats s name (.heartbeat env name') →
        ∀ e ∈ smRegistryFindCopy s.registry name,
          e.restartCount < smHealthMaxRestarts))
  | .register _ _ | .lookup _ _ | .unregister _ _ => inferInstanceAs (Decidable True)

/-- The counter of an entry behind `k` signals. -/
structure ServiceEntry.Counts (e : ServiceEntry) (k : ℕ) : Prop where
  signals_le : k ≤ e.restartCount
  given_up : smHealthMaxRestarts ≤ e.restartCount → e.status = .crashed ∨ e.status = .dead

section Step

variable {s : ServerState} {name : List UInt8}

theorem RegistryInv.findCopy_added {r : Registry} (h : RegistryInv r)
    {entry : ServiceEntry} (hentry : (cstr entry.name).length < smMaxName)
    (kill : ℤ → KillProbe) (now now' : ℤ) (hname : cstr name = cstr entry.name)
    (hok : (ServiceManager.smRegistryAdd r entry kill now now').2 = smOk) :
    smRegistryFindCopy (ServiceManager.smRegistryAdd r entry kill now now').1 name =
      some (entry.initialised now now') := by
  have hlt : (cstr name).length < smMaxName := hname ▸ hentry
  rcases smRegistryAdd_cases r entry kill now now' with
    ⟨-, hne⟩ | ⟨-, hfind, hroom, hadd⟩ | ⟨idx, -, hfind, -, hrest⟩
  · exact absurd hok hne
  · rw [hadd, h.findCopy_appendEntry hentry
      ((h.hashFind_eq_none_iff hentry).mp hfind) hroom now now' hlt, if_pos hname]
  · rcases hrest with ⟨-, hadd⟩ | ⟨hroom, hadd⟩
    · rw [hadd] at hok
      exact absurd hok (by decide : smErrFull ≠ smOk)
    · have hidx := ((h.hashFind_eq_some_iff hentry).mp hfind).1
      rw [hadd, (h.removeAt entry.name hidx).findCopy_appendEntry hentry
        (h.removeAt_fresh hentry hfind) hroom now now' hlt, if_pos hname]

theorem registers_entry (h : RegistryInv s.registry) {ev : Event}
    (hreg : ev.Registers s name) :
    ∃ e, smRegistryFindCopy (serverStep s ev).registry name = some e ∧ e.Counts 0 := by
  obtain ⟨env, req, rfl⟩ := hreg.exists_register
  obtain ⟨hsame, hsent⟩ := hreg
  rcases smHandleRegister_cases s env req with href | ⟨hvalid, -, -, heq, hcode⟩
  · exact absurd hsent href.sent_ne
  · have hok := encodeReply_inj (isResponseCode_smRegistryAdd _ _ _ _ _) (by decide)
      (hcode.symm.trans hsent)
    have hfits : cstr (registerEntry env req).name = cstr req.serviceName :=
      cstr_strncpyField_of_lt (length_of_smValidateServiceName hvalid)
    refine ⟨registeredEntry env req, ?_, ⟨Int.le_refl 0, fun hmax => ?_⟩⟩
    · rw [serverStep, heq]
      exact h.findCopy_added (length_registerEntry_name env req) _ _ _
        (hsame.symm.trans hfits.symm) hok
    · exact absurd hmax (by decide : ¬ smHealthMaxRestarts ≤ 0)

theorem Event.CountsRestarts.lt_max {ev : Event} (hcounts : ev.CountsRestarts s name)
    (hbeats : ev.Beats s name) {e : ServiceEntry}
    (he : smRegistryFindCopy s.registry name = some e) :
    e.restartCount < smHealthMaxRestarts := by
  obtain ⟨env, name', rfl⟩ := hbeats.exists_heartbeat
  exact hcounts hbeats e he

theorem ServiceEntry.Counts.giveUp {e : ServiceEntry} {k : ℕ} (h : k ≤ e.restartCount)
    (hcrashed : e.status = .crashed) (svc : ServiceEntry) (env : HealthEnv) :
    (e.giveUp svc env).Counts k := by
  unfold ServiceEntry.giveUp
  split_ifs
  · exact ⟨h, fun _ => .inr rfl⟩
  · exact ⟨h, fun _ => .inl hcrashed⟩

theorem ServiceEntry.Counts.afterPass {e : ServiceEntry} {k : ℕ} (h : e.Counts k)
    {env : HealthEnv} (i : ℕ) (hcounts : e.status = .crashed → ¬ e.Terminated env) :
    (e.afterPass env i).Counts (k + if e.Terminated env then 1 else 0) := by
  have hle := h.signals_le
  unfold ServiceEntry.afterPass
  split_ifs with htime hterm hcrashed hterm hterm
  · refine ServiceEntry.Counts.giveUp ?_ rfl e env
    simp only [ServiceEntry.setStatus, if_true]
    omega
  · refine ServiceEntry.Counts.giveUp ?_ rfl e env
    simp only [ServiceEntry.setStatus, if_true]
    omega
  · exact absurd hterm (hcounts hcrashed)
  · exact ServiceEntry.Counts.giveUp hle hcrashed e env
  · exact absurd hterm.1 (not_or.mpr ⟨htime, hcrashed⟩)
  · exact h

def SignalsCounted (s : ServerState) (name : List UInt8) (k : ℕ) : Prop :=
  k ≤ smHealthMaxRestarts ∧ ∀ e ∈ smRegistryFindCopy s.registry name, e.Counts k

theorem signals_health_iff (h : RegistryInv s.registry)
    (hname : (cstr name).length < smMaxName) {env : HealthEnv} {e : ServiceEntry}
    (hok : env.mallocOk = true) (he : smRegistryFindCopy s.registry name = some e) :
    (Event.health env).Signals s name ↔ e.Terminated env := by
  rw [signals_iff h hname, he]
  constructor
  · rintro ⟨-, e', ⟨⟩, hterm⟩
    exact hterm
  · exact fun hterm => ⟨hok, e, rfl, hterm⟩

theorem counted_requestStep {k : ℕ} (h : RegistryInv s.registry)
    (hname : (cstr name).length < smMaxName) {ev : Event}
    (hrequest : ∀ env, ev ≠ .health env) (hnew : ¬ ev.Registers s name)
    (hcounts : ev.CountsRestarts s name) (hk : SignalsCounted s name k) :
    SignalsCounted (serverStep s ev) name k := by
  refine ⟨hk.1, fun e' he' => ?_⟩
  rcases requestStep_entry h hname ev hrequest hnew with
    heq | heq | ⟨hbeats, e, now, he, heq⟩
  · exact hk.2 e' (heq ▸ he')
  · rw [heq] at he'
    cases he'
  · rw [heq] at he'
    cases he'
    refine ⟨(hk.2 e he).signals_le, fun hmax => ?_⟩
    have hlt : e.restartCount < smHealthMaxRestarts := hcounts.lt_max hbeats he
    exact absurd hmax (not_le.mpr hlt)

theorem counted_healthStep {k : ℕ} (h : RegistryInv s.registry)
    (hname : (cstr name).length < smMaxName) {env : HealthEnv}
    (hcounts : Event.CountsRestarts s name (.health env))
    (hk : SignalsCounted s name k) :
    SignalsCounted (serverStep s (.health env)) name
      (k + if (Event.health env).Signals s name then 1 else 0) := by
  rcases healthStep_entry h hname env with ⟨hnone, heq⟩ | ⟨hok, e, i, he, heq⟩
  · have hquiet : ¬ (Event.health env).Signals s name := by
      rw [signals_iff h hname]
      rintro ⟨hok, e, he, -⟩
      rw [hnone hok] at he
      cases he
    rw [if_neg hquiet]
    exact ⟨hk.1, fun e' he' => hk.2 e' (heq ▸ he')⟩
  · have hcount := hk.2 e he
    simp only [signals_health_iff h hname hok he]
    refine ⟨?_, ?_⟩
    · split_ifs with hterm
      · have hlt := hterm.2.1
        have hle := hcount.signals_le
        omega
      · exact hk.1
    · intro e' he'
      rw [heq] at he'
      cases he'
      exact hcount.afterPass i (hcounts hok e he)

theorem counted_serverStep {k : ℕ} (h : RegistryInv s.registry)
    (hname : (cstr name).length < smMaxName) {ev : Event}
    (hnew : ¬ ev.Registers s name) (hcounts : ev.CountsRestarts s name)
    (hk : SignalsCounted s name k) :
    SignalsCounted (serverStep s ev) name
      (k + if ev.Signals s name then 1 else 0) := by
  rcases em (∃ env, ev = .health env) with ⟨env, rfl⟩ | hrequest
  · exact counted_healthStep h hname hcounts hk
  · have hquiet : ¬ ev.Signals s name := fun hsignals => hrequest hsignals.exists_health
    rw [if_neg hquiet]
    exact counted_requestStep h hname (not_exists.mp hrequest) hnew hcounts hk

theorem counted_run {evs : List Event} {k : ℕ} (h : RegistryInv s.registry)
    (hname : (cstr name).length < smMaxName)
    (hnew : Guarded serverStep (fun s ev => ¬ ev.Registers s name) s evs)
    (hcounts : Guarded serverStep (fun s ev => ev.CountsRestarts s name) s evs)
    (hk : SignalsCounted s name k) :
    SignalsCounted (run serverStep s evs) name (k + signalPasses name s evs) := by
  induction evs generalizing s k with
  | nil => exact hk
  | cons ev evs ih =>
      rw [run_cons, signalPasses, ← Nat.add_assoc]
      exact ih (registryInv_serverStep ev h) hnew.2 hcounts.2
        (counted_serverStep h hname hnew.1 hcounts.1 hk)

def GivenUp (s : ServerState) (name : List UInt8) : Prop :=
  ∀ e ∈ smRegistryFindCopy s.registry name,
    e.status = .dead ∧ smHealthMaxRestarts ≤ e.restartCount

theorem givenUp_healthStep {k : ℕ} (h : RegistryInv s.registry)
    (hname : (cstr name).length < smMaxName) {env : HealthEnv}
    (hok : env.mallocOk = true) (hk : SignalsCounted s name k)
    (hmax : smHealthMaxRestarts ≤ k) : GivenUp (serverStep s (.health env)) name := by
  intro e' he'
  rcases healthStep_entry h hname env with ⟨hnone, heq⟩ | ⟨-, e, i, he, heq⟩
  · rw [heq, hnone hok] at he'
    cases he'
  · rw [heq] at he'
    obtain rfl := Option.some.inj he'
    have hcount := hmax.trans (hk.2 e he).signals_le
    rcases (hk.2 e he).given_up hcount with hcrashed | hdead
    · have hnot : ¬ e.TimedOut env := fun htime => by
        rw [htime.1] at hcrashed
        cases hcrashed
      rw [ServiceEntry.afterPass, if_neg hnot, if_pos hcrashed, ServiceEntry.giveUp,
        if_pos hcount]
      exact ⟨rfl, hcount⟩
    · rw [ServiceEntry.afterPass_of_dead hdead]
      exact ⟨hdead, hcount⟩

theorem givenUp_serverStep (h : RegistryInv s.registry)
    (hname : (cstr name).length < smMaxName) {ev : Event}
    (hnew : ¬ ev.Registers s name) (hcounts : ev.CountsRestarts s name)
    (hgone : GivenUp s name) : GivenUp (serverStep s ev) name := by
  intro e' he'
  rcases serverStep_entry h hname ev hnew with
    heq | heq | ⟨hbeats, e, now, he, heq⟩ | ⟨env, e, i, -, -, he, heq⟩
  · exact hgone e' (heq ▸ he')
  · rw [heq] at he'
    cases he'
  · exact absurd (hgone e he).2 (not_le.mpr (hcounts.lt_max hbeats he))
  · rw [heq, ServiceEntry.afterPass_of_dead (hgone e he).1] at he'
    cases he'
    exact hgone _ he

theorem givenUp_run {evs : List Event} (h : RegistryInv s.registry)
    (hname : (cstr name).length < smMaxName)
    (hnew : Guarded serverStep (fun s ev => ¬ ev.Registers s name) s evs)
    (hcounts : Guarded serverStep (fun s ev => ev.CountsRestarts s name) s evs)
    (hgone : GivenUp s name) : GivenUp (run serverStep s evs) name := by
  have hboth : RegistryInv (run serverStep s evs).registry ∧
      GivenUp (run serverStep s evs) name :=
    run_invariant_of_guarded
      (I := fun s : ServerState => RegistryInv s.registry ∧ GivenUp s name)
      (fun _ ev hev hinv => ⟨registryInv_serverStep ev hinv.1,
        givenUp_serverStep hinv.1 hname hev.1 hev.2 hinv.2⟩)
      ⟨h, hgone⟩ (hnew.and hcounts)
  exact hboth.2

end Step

/-- Between two registrations of a name the service is signalled in at most
`SM_HEALTH_MAX_RESTARTS` passes, and the pass behind the last of them leaves it
dead for the rest of the run, as long as every event counts its restarts. -/
theorem restart_bound (start : Timespec) (before evs : List Event)
    (registration : Event) (name : List UInt8)
    (hreg : registration.Registers (serverRun start before) name)
    (hnew : Guarded serverStep (fun s ev => ¬ ev.Registers s name)
      (serverRun start (before ++ [registration])) evs)
    (hcounts : Guarded serverStep (fun s ev => ev.CountsRestarts s name)
      (serverRun start (before ++ [registration])) evs) :
    let s := serverRun start (before ++ [registration])
    signalPasses name s evs ≤ smHealthMaxRestarts ∧
      ∀ seen env rest, evs = seen ++ .health env :: rest → env.mallocOk = true →
        signalPasses name s seen = smHealthMaxRestarts →
        ∀ e, smRegistryFindCopy (run serverStep s evs).registry name = some e →
          e.status = .dead := by
  intro s
  have h : RegistryInv s.registry := registryInv_serverRun start _
  have hs : s = serverStep (serverRun start before) registration := run_concat _ _ _
  obtain ⟨e₀, he₀, hcount⟩ := registers_entry (registryInv_serverRun start before) hreg
  rw [← hs] at he₀
  have hname := h.length_lt_of_findCopy he₀
  have hzero : SignalsCounted s name 0 := by
    refine ⟨by decide, fun e he => ?_⟩
    rw [he₀] at he
    cases he
    exact hcount
  constructor
  · have hall := counted_run h hname hnew hcounts hzero
    rw [Nat.zero_add] at hall
    exact hall.1
  · rintro seen env rest rfl hok hmax e he
    obtain ⟨hnewSeen, hnewRest⟩ := guarded_append.mp hnew
    obtain ⟨hcountsSeen, hcountsRest⟩ := guarded_append.mp hcounts
    have hseen := counted_run h hname hnewSeen hcountsSeen hzero
    rw [Nat.zero_add] at hseen
    have h' : RegistryInv (run serverStep s seen).registry := by
      have hrun := registryInv_serverRun start ((before ++ [registration]) ++ seen)
      rwa [serverRun, run_append] at hrun
    have hgone := givenUp_healthStep h' hname hok hseen hmax.ge
    rw [run_append, run_cons] at he
    exact (givenUp_run (registryInv_serverStep _ h') hname hnewRest.2 hcountsRest.2
      hgone e he).1

/-- In the run of three counted timeouts the service is signalled three times
and then given up. -/
theorem restart_bound_counted :
    let registration := Event.register (peerAt 10 100) (thiefReq 'a')
    let s := serverRun bootTime [registration]
    signalPasses svcName s (deadRun.drop 1) = 3 ∧
      ∀ e, smRegistryFindCopy (run serverStep s (deadRun.drop 1)).registry svcName =
        some e → e.status = .dead := by
  intro registration s
  have hreg : registration.Registers (serverRun bootTime []) svcName := by
    decide +kernel
  have hnew : Guarded serverStep (fun s ev => ¬ ev.Registers s svcName) s
      (deadRun.drop 1) := by
    decide +kernel
  have hcounts : Guarded serverStep (fun s ev => ev.CountsRestarts s svcName) s
      (deadRun.drop 1) := by
    decide +kernel
  have hseen : signalPasses svcName s ((deadRun.drop 1).take 5) = 3 := by
    decide +kernel
  have hbound := restart_bound bootTime [] (deadRun.drop 1) _ svcName hreg hnew hcounts
  exact ⟨by decide +kernel, hbound.2 ((deadRun.drop 1).take 5) (demoEnv 403) [] rfl rfl
    (by exact congrArg Nat.cast hseen)⟩

/-- A service that stays silent is signalled by every pass: by the fourth one
as well, nine seconds after the first, and it is not given up. -/
theorem restart_bound_silent :
    let registration := Event.register (peerAt 10 100) (thiefReq 'a')
    let s := serverRun bootTime [registration]
    let evs := [Event.health (demoEnv 200), .health (demoEnv 203),
      .health (demoEnv 206), .health (demoEnv 209)]
    registration.Registers (serverRun bootTime []) svcName ∧
      Guarded serverStep (fun s ev => ¬ ev.Registers s svcName) s evs ∧
      ¬ (signalPasses svcName s evs : ℤ) ≤ smHealthMaxRestarts ∧
      (smRegistryFindCopy (run serverStep s evs).registry svcName).map (·.status) =
        some .crashed := by
  decide +kernel

end ServiceManager

end Shinigami
