import Shinigami.ServiceManager.Observability.Health

/-!
# The effect of a health pass

On a well-formed registry a pass treats every service on its own:
`smHealthCheck_eq` gives the registry and the signals it leaves, entry by entry.
The loop updates entries through their names, which is the same as updating them
in place because names are distinct.

The back-off of a restart is computed from the snapshot. A service whose timeout
is detected by the same pass has got a new crash time in the registry by then,
which the decision does not see: `backoffHonoured_iff` says exactly for which
registries the delay is kept all the same.
-/

namespace Shinigami

namespace ServiceManager

open CString

/-- The service is marked as running and its last heartbeat is too old. -/
def ServiceEntry.TimedOut (svc : ServiceEntry) (env : HealthEnv) : Prop :=
  svc.status = .running ∧ env.now - svc.lastHeartbeat > smHeartbeatTimeout

def ServiceEntry.Terminated (svc : ServiceEntry) (env : HealthEnv) : Prop :=
  (svc.TimedOut env ∨ svc.status = .crashed) ∧
    svc.restartCount < smHealthMaxRestarts ∧
    restartBackoff svc.restartCount ≤ env.now - svc.lastCrashTime ∧ 1 < svc.pid

instance (svc : ServiceEntry) (env : HealthEnv) : Decidable (svc.TimedOut env) :=
  inferInstanceAs (Decidable (_ ∧ _))

instance (svc : ServiceEntry) (env : HealthEnv) : Decidable (svc.Terminated env) :=
  inferInstanceAs (Decidable (_ ∧ _))

/-- The signals that the pass sends to service `i`. -/
def ServiceEntry.signals (svc : ServiceEntry) (env : HealthEnv) (i : ℕ) :
    List (ℤ × Signal) :=
  if svc.Terminated env then
    (svc.pid, .sigterm) :: if env.survives i then [(svc.pid, .sigkill)] else []
  else []

/-- The entry of a crashed service after the restart decision, which has seen
`svc`. -/
def ServiceEntry.giveUp (e svc : ServiceEntry) (env : HealthEnv) : ServiceEntry :=
  if svc.restartCount ≥ smHealthMaxRestarts then e.setStatus .dead env.now else e

/-- The entry of service `i` after the pass. -/
def ServiceEntry.afterPass (svc : ServiceEntry) (env : HealthEnv) (i : ℕ) :
    ServiceEntry :=
  if svc.TimedOut env then (svc.setStatus .crashed (env.crashNow i)).giveUp svc env
  else if svc.status = .crashed then svc.giveUp svc env
  else svc

theorem ServiceEntry.giveUp_name (e svc : ServiceEntry) (env : HealthEnv) :
    (e.giveUp svc env).name = e.name := by
  unfold ServiceEntry.giveUp
  split
  · exact e.setStatus_name _ _
  · rfl

theorem ServiceEntry.afterPass_name (svc : ServiceEntry) (env : HealthEnv) (i : ℕ) :
    (svc.afterPass env i).name = svc.name := by
  unfold ServiceEntry.afterPass
  split_ifs
  · rw [ServiceEntry.giveUp_name, ServiceEntry.setStatus_name]
  · exact svc.giveUp_name _ _
  · rfl

section Pass

variable {r : Registry} {env : HealthEnv} {i : ℕ}

theorem RegistryInv.hashFind_self (h : RegistryInv r) (hi : i < r.registryCount) :
    hashFind r (r.registry i).name = some i :=
  (h.hashFind_eq_some_iff (h.name_lt i hi)).mpr ⟨hi, rfl⟩

theorem RegistryInv.updateStatus_self (h : RegistryInv r) (hi : i < r.registryCount)
    (status : ServiceStatus) (now : ℤ) :
    ServiceManager.smRegistryUpdateStatus r (r.registry i).name status now =
      (ServiceManager.modifyAt r i (·.setStatus status now), smOk) := by
  rw [ServiceManager.smRegistryUpdateStatus, h.hashFind_self hi]

theorem modifyAt_modifyAt (r : Registry) (i : ℕ) (f g : ServiceEntry → ServiceEntry) :
    modifyAt (modifyAt r i f) i g = modifyAt r i fun e => g (f e) := by
  simp [modifyAt]

theorem modifyAt_id (r : Registry) (i : ℕ) : modifyAt r i (fun e => e) = r := by
  simp [modifyAt]

/-- The restart decision for service `i`, whose entry may have been marked in
this pass. -/
theorem RegistryInv.restartCrashed (h : RegistryInv r) (hi : i < r.registryCount)
    {svc : ServiceEntry} (hname : svc.name = (r.registry i).name)
    (hcrashed : svc.TimedOut env ∨ svc.status = .crashed) (sent : List (ℤ × Signal)) :
    ServiceManager.restartCrashed env i svc (r, sent) =
      (ServiceManager.modifyAt r i (·.giveUp svc env), sent ++ svc.signals env i) := by
  unfold ServiceManager.restartCrashed
  by_cases hmax : svc.restartCount ≥ smHealthMaxRestarts
  · have hnot : ¬ svc.Terminated env := fun hterm => absurd hterm.2.1 (not_lt.mpr hmax)
    simp only [hmax, if_true]
    rw [hname, h.updateStatus_self hi, ServiceEntry.signals, if_neg hnot,
      List.append_nil]
    simp only [ServiceEntry.giveUp, hmax, if_true]
  · have hkeep : ServiceManager.modifyAt r i (·.giveUp svc env) = r := by
      simp only [ServiceEntry.giveUp, hmax, if_false, modifyAt_id]
    simp only [hmax, if_false, hkeep]
    have hterm : svc.Terminated env ↔
        (env.now - svc.lastCrashTime ≥ restartBackoff svc.restartCount ∧
          svc.pid > 1) := by
      simp only [ServiceEntry.Terminated, hcrashed, not_le.mp hmax, true_and, ge_iff_le,
        gt_iff_lt]
    by_cases hback : env.now - svc.lastCrashTime ≥ restartBackoff svc.restartCount
    · by_cases hpid : svc.pid > 1
      · simp [ServiceEntry.signals, hterm, hback, hpid]
      · simp [ServiceEntry.signals, hterm, hback, hpid]
    · simp [ServiceEntry.signals, hterm, hback]

/-- The body of the loop for service `i`, which no earlier round has touched. -/
theorem RegistryInv.checkService (h : RegistryInv r) (env : HealthEnv)
    (hi : i < r.registryCount) (sent : List (ℤ × Signal)) :
    ServiceManager.checkService env (r, sent) i (r.registry i) =
      (ServiceManager.modifyAt r i (·.afterPass env i), sent ++ (r.registry i).signals env i) := by
  have hself : ∀ f : ServiceEntry → ServiceEntry, f (r.registry i) = r.registry i →
      ServiceManager.modifyAt r i f = r := by
    intro f hf
    rw [ServiceManager.modifyAt, hf, Function.update_eq_self]
  have hquiet : ¬ (r.registry i).TimedOut env → (r.registry i).status ≠ .crashed →
      ServiceManager.modifyAt r i (·.afterPass env i) = r ∧ (r.registry i).signals env i = [] := by
    intro htime hcrash
    refine ⟨hself _ (by rw [ServiceEntry.afterPass, if_neg htime, if_neg hcrash]), ?_⟩
    exact if_neg fun hterm => hterm.1.elim htime hcrash
  unfold ServiceManager.checkService
  cases hstatus : (r.registry i).status with
  | dead =>
      obtain ⟨hreg, hsent⟩ := hquiet (fun ht => by rw [ht.1] at hstatus; cases hstatus)
        (by rw [hstatus]; decide)
      rw [hreg, hsent, List.append_nil]
  | stopped =>
      obtain ⟨hreg, hsent⟩ := hquiet (fun ht => by rw [ht.1] at hstatus; cases hstatus)
        (by rw [hstatus]; decide)
      rw [hreg, hsent, List.append_nil]
  | crashed =>
      have hnot : ¬ (r.registry i).TimedOut env := fun ht => by
        rw [ht.1] at hstatus
        cases hstatus
      have hmodify : ServiceManager.modifyAt r i (·.giveUp (r.registry i) env) =
          ServiceManager.modifyAt r i (·.afterPass env i) := by
        simp only [ServiceManager.modifyAt, ServiceEntry.afterPass, hnot, if_false, hstatus,
          if_true]
      simp only
      rw [h.restartCrashed hi rfl (.inr hstatus), hmodify]
  | running =>
      dsimp only
      split_ifs with hage
      · have htime : (r.registry i).TimedOut env := ⟨hstatus, hage⟩
        have h' := h.modifyAt i fun e => e.setStatus_name .crashed (env.crashNow i)
        have hname : (r.registry i).name = ((ServiceManager.modifyAt r i
            (·.setStatus .crashed (env.crashNow i))).registry i).name :=
          (modifyAt_name r i (fun e => e.setStatus_name _ _) i).symm
        rw [h.updateStatus_self hi, h'.restartCrashed hi hname (.inl htime),
          modifyAt_modifyAt]
        simp only [ServiceManager.modifyAt, ServiceEntry.afterPass, htime, if_true]
      · obtain ⟨hreg, hsent⟩ := hquiet (fun ht => hage ht.2) (by rw [hstatus]; decide)
        rw [hreg, hsent, List.append_nil]

/-- The registry with the entries below `n` treated by the pass. -/
def Registry.passed (r : Registry) (env : HealthEnv) (n : ℕ) : Registry :=
  { r with
    registry := fun j => if j < n then (r.registry j).afterPass env j else r.registry j }

theorem Registry.passed_zero (r : Registry) (env : HealthEnv) : r.passed env 0 = r := by
  simp [Registry.passed]

theorem Registry.passed_succ (r : Registry) (env : HealthEnv) (n : ℕ) :
    modifyAt (r.passed env n) n (·.afterPass env n) = r.passed env (n + 1) := by
  simp only [modifyAt, Registry.passed, Registry.mk.injEq, and_true]
  funext j
  rcases Nat.lt_trichotomy j n with hlt | rfl | hgt
  · simp [hlt, hlt.ne, Nat.lt_succ_of_lt hlt]
  · simp
  · simp [hgt.ne', Nat.not_lt.mpr hgt.le, Nat.not_lt.mpr hgt]

theorem RegistryInv.passed (h : RegistryInv r) (env : HealthEnv) {n : ℕ}
    (hn : n ≤ r.registryCount) : RegistryInv (r.passed env n) := by
  induction n with
  | zero =>
      rw [r.passed_zero]
      exact h
  | succ n ih =>
      rw [← r.passed_succ]
      exact (ih (by omega)).modifyAt n fun e => e.afterPass_name env n

/-- The signals that the first `n` rounds of the loop send. -/
def Registry.signalsUpto (r : Registry) (env : HealthEnv) (n : ℕ) :
    List (ℤ × Signal) :=
  (List.range n).flatMap fun i => (r.registry i).signals env i

theorem Registry.signalsUpto_succ (r : Registry) (env : HealthEnv) (n : ℕ) :
    r.signalsUpto env (n + 1) = r.signalsUpto env n ++ (r.registry n).signals env n := by
  simp [Registry.signalsUpto, List.range_succ]

/-- The round of service `n`, after those of the services in front of it. -/
theorem RegistryInv.checkService_passed (h : RegistryInv r) (env : HealthEnv) {n : ℕ}
    (hn : n < r.registryCount) :
    ServiceManager.checkService env (r.passed env n, r.signalsUpto env n) n
        (r.registry n) =
      (r.passed env (n + 1), r.signalsUpto env (n + 1)) := by
  have hround := (h.passed env hn.le).checkService env (i := n) hn
    (r.signalsUpto env n)
  have hsame : (r.passed env n).registry n = r.registry n := by
    simp [Registry.passed]
  rw [hsame, r.passed_succ] at hround
  rw [hround, r.signalsUpto_succ]

theorem RegistryInv.checkServices_range (h : RegistryInv r) (env : HealthEnv)
    {n m : ℕ} (hcount : n + m ≤ r.registryCount) :
    checkServices env (r.passed env n, r.signalsUpto env n) n
        ((List.range' n m).map r.registry) =
      (r.passed env (n + m), r.signalsUpto env (n + m)) := by
  induction m generalizing n with
  | zero => rfl
  | succ m ih =>
      have hn : n < r.registryCount := by omega
      rw [List.range'_succ, List.map_cons, checkServices, h.checkService_passed env hn,
        ih (by omega), Nat.add_right_comm, Nat.add_assoc]

/-- A pass treats every entry on its own, and sends the signals in the order of
the entries. -/
theorem RegistryInv.smHealthCheck_eq (h : RegistryInv r) (hok : env.mallocOk = true) :
    ServiceManager.smHealthCheck r env =
      (r.passed env r.registryCount, r.signalsUpto env r.registryCount) := by
  have hall : smRegistryGetAll r env.mallocOk =
      some ((List.range' 0 r.registryCount).map r.registry) := by
    rw [smRegistryGetAll, hok, List.range_eq_range']
    by_cases hzero : r.registryCount = 0
    · simp [hzero]
    · simp [hzero]
  have hloop := h.checkServices_range env (Nat.zero_add r.registryCount).le
  rw [r.passed_zero, Nat.zero_add] at hloop
  rw [ServiceManager.smHealthCheck, hall]
  exact hloop

theorem smHealthCheck_of_not_mallocOk (r : Registry) (hok : env.mallocOk = false) :
    smHealthCheck r env = (r, []) := by
  unfold smHealthCheck smRegistryGetAll
  by_cases hzero : r.registryCount = 0
  · simp [hzero, checkServices]
  · simp [hzero, hok]

theorem RegistryInv.findCopy_healthCheck (h : RegistryInv r) (hok : env.mallocOk = true)
    {name : List UInt8} (hname : (cstr name).length < smMaxName) {e : ServiceEntry}
    (he : smRegistryFindCopy r name = some e) :
    ∃ i < r.registryCount, r.registry i = e ∧
      smRegistryFindCopy (ServiceManager.smHealthCheck r env).1 name =
        some (e.afterPass env i) := by
  obtain ⟨i, hi, rfl, heq⟩ := (h.findCopy_eq_some_iff hname).mp he
  refine ⟨i, hi, rfl, ?_⟩
  rw [h.smHealthCheck_eq hok,
    (h.passed env (Nat.le_refl r.registryCount)).findCopy_eq_some_iff hname]
  refine ⟨i, hi, ?_, ?_⟩
  · simp [Registry.passed, hi]
  · rw [ServiceEntry.afterPass_name, heq]

/-- The loop when it reaches service `i`. -/
def passAt (r : Registry) (env : HealthEnv) (i : ℕ) : HealthState :=
  checkServices env (r, []) 0 ((List.range i).map r.registry)

/-- The loop when it has decided about service `i`. -/
def passAfter (r : Registry) (env : HealthEnv) (i : ℕ) : HealthState :=
  checkService env (passAt r env i) i (r.registry i)

/-- The round of service `i` sends the termination signal to its process. -/
def SendsTerm (r : Registry) (env : HealthEnv) (i : ℕ) : Prop :=
  env.mallocOk = true ∧ ((r.registry i).pid, Signal.sigterm) ∈
    (passAfter r env i).2.drop (passAt r env i).2.length

instance (r : Registry) (env : HealthEnv) (i : ℕ) : Decidable (SendsTerm r env i) :=
  inferInstanceAs (Decidable (_ ∧ _))

/-- A termination signal is sent only when the back-off has elapsed since the
crash time that the registry holds at this moment. -/
def BackoffHonoured (r : Registry) (env : HealthEnv) : Prop :=
  ∀ i < r.registryCount, SendsTerm r env i →
    ∀ e, smRegistryFindCopy (passAfter r env i).1 (r.registry i).name = some e →
      restartBackoff (r.registry i).restartCount ≤ env.now - e.lastCrashTime

theorem RegistryInv.passAt_eq (h : RegistryInv r) (hi : i ≤ r.registryCount) :
    passAt r env i = (r.passed env i, r.signalsUpto env i) := by
  have hloop := h.checkServices_range env (n := 0) (m := i) (by omega)
  rw [r.passed_zero, Nat.zero_add, ← List.range_eq_range'] at hloop
  exact hloop

theorem RegistryInv.passAfter_eq (h : RegistryInv r) (hi : i < r.registryCount) :
    passAfter r env i = (r.passed env (i + 1), r.signalsUpto env (i + 1)) := by
  rw [passAfter, h.passAt_eq hi.le, h.checkService_passed env hi]

theorem RegistryInv.smHealthCheck_eq_passAt (h : RegistryInv r)
    (hok : env.mallocOk = true) :
    ServiceManager.smHealthCheck r env = passAt r env r.registryCount := by
  rw [h.smHealthCheck_eq hok, h.passAt_eq (Nat.le_refl _)]

theorem RegistryInv.sendsTerm_iff (h : RegistryInv r) (hi : i < r.registryCount) :
    SendsTerm r env i ↔ env.mallocOk = true ∧ (r.registry i).Terminated env := by
  rw [SendsTerm, h.passAfter_eq hi, h.passAt_eq hi.le, r.signalsUpto_succ]
  refine and_congr_right fun _ => ?_
  rw [List.drop_left]
  by_cases hterm : (r.registry i).Terminated env
  · simp [ServiceEntry.signals, hterm]
  · simp [ServiceEntry.signals, hterm]

theorem ServiceEntry.afterPass_lastCrashTime (svc : ServiceEntry) (env : HealthEnv)
    (i : ℕ) : (svc.afterPass env i).lastCrashTime =
      if svc.TimedOut env then env.crashNow i else svc.lastCrashTime := by
  have hgive : ∀ e : ServiceEntry, (e.giveUp svc env).lastCrashTime = e.lastCrashTime := by
    intro e
    unfold ServiceEntry.giveUp
    split <;> rfl
  unfold ServiceEntry.afterPass
  split_ifs
  · exact hgive _
  · exact hgive _
  · rfl

/-- The entry that the registry holds when the loop has decided about it. -/
theorem RegistryInv.findCopy_passAfter (h : RegistryInv r) (hi : i < r.registryCount) :
    smRegistryFindCopy (passAfter r env i).1 (r.registry i).name =
      some ((r.registry i).afterPass env i) := by
  rw [h.passAfter_eq hi,
    (h.passed env (Nat.succ_le_of_lt hi)).findCopy_eq_some_iff (h.name_lt i hi)]
  refine ⟨i, hi, ?_, ?_⟩
  · simp [Registry.passed]
  · rw [ServiceEntry.afterPass_name]

/-- The back-off is kept exactly when no service that times out in this pass has
attempts left and an older crash far enough in the past: the decision looks at
the older crash, the registry holds the new one. -/
theorem backoffHonoured_iff (h : RegistryInv r) (env : HealthEnv) :
    BackoffHonoured r env ↔
      (env.mallocOk = true → ∀ i < r.registryCount, (r.registry i).TimedOut env →
        (r.registry i).restartCount < smHealthMaxRestarts → 1 < (r.registry i).pid →
        restartBackoff (r.registry i).restartCount ≤
          env.now - (r.registry i).lastCrashTime →
        restartBackoff (r.registry i).restartCount ≤ env.now - env.crashNow i) := by
  unfold BackoffHonoured
  constructor
  · intro hkept hok i hi htime hcount hpid hback
    have hsends : SendsTerm r env i := (h.sendsTerm_iff hi).mpr
      ⟨hok, .inl htime, hcount, hback, hpid⟩
    have hdelay := hkept i hi hsends _ (h.findCopy_passAfter hi)
    rwa [ServiceEntry.afterPass_lastCrashTime, if_pos htime] at hdelay
  · intro hcond i hi hsends e he
    obtain ⟨hok, -, hcount, hback, hpid⟩ := (h.sendsTerm_iff hi).mp hsends
    rw [h.findCopy_passAfter hi] at he
    obtain rfl := Option.some.inj he
    rw [ServiceEntry.afterPass_lastCrashTime]
    split_ifs with htime
    · exact hcond hok i hi htime hcount hpid hback
    · exact hback

def demoEntry : ServiceEntry :=
  { ServiceEntry.zero with name := ascii ['s', 'v', 'c'], pid := 10 }

def demoRegistry : Registry :=
  (smRegistryAdd Registry.zero demoEntry (fun _ => .alive) 100 100).1

theorem registryInv_demoRegistry : RegistryInv demoRegistry :=
  registryInv_zero.smRegistryAdd (by decide) _ _ _

/-- A pass at the given time, in which no process survives its signal. -/
def demoEnv (now : ℤ) : HealthEnv := ⟨now, true, fun _ => now, fun _ => false⟩

/-- A service that was marked at time 140 is signalled at time 143. -/
theorem backoffHonoured_iff_crashed :
    let r := (smRegistryUpdateStatus demoRegistry demoEntry.name .crashed 140).1
    BackoffHonoured r (demoEnv 143) ∧
      (smHealthCheck r (demoEnv 143)).2 = [(10, .sigterm)] := by
  intro r
  have hr : RegistryInv r := registryInv_demoRegistry.smRegistryUpdateStatus _ _ _
  refine ⟨(backoffHonoured_iff hr _).mpr ?_, by decide +kernel⟩
  intro _ i hi htime
  have hzero : i = 0 := Nat.lt_one_iff.mp hi
  subst hzero
  exact absurd htime (by decide +kernel)

/-- A service that has never crashed is signalled by the pass that marks it. -/
theorem backoffHonoured_first_timeout :
    ¬ BackoffHonoured demoRegistry (demoEnv 200) := by
  intro h
  have hsends : SendsTerm demoRegistry (demoEnv 200) 0 := by decide +kernel
  have hmarked : smRegistryFindCopy (passAfter demoRegistry (demoEnv 200) 0).1
      (demoRegistry.registry 0).name =
      some ((demoEntry.initialised 100 100).setStatus .crashed 200) := by
    decide +kernel
  exact absurd (h 0 (by decide) hsends _ hmarked) (by decide +kernel)

end Pass

end ServiceManager

end Shinigami
