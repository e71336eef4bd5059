import Shinigami.ServiceManager.Infrastructure.Registry.Operations

/-!
# Health monitor

One pass of `sm_health_check` over a snapshot of the registry. The snapshot is
taken once, so the restart decision for a service that is marked crashed in this
pass still sees the restart count and the crash time from before. The pass
writes to the registry only through `smRegistryUpdateStatus`; the signals it
sends are returned.
-/

namespace Shinigami

namespace ServiceManager

open CString

/-- The loop of `sm_tier_get_backoff_ms`: doubling with a cap. -/
def backoffLoop (backoff : ℤ) : ℕ → ℤ
  | 0 => backoff
  | n + 1 => backoffLoop (if backoff * 2 > 120000 then 120000 else backoff * 2) n

def smTierGetBackoffMs (tier : ServiceTier) (restartCount : ℤ) : ℤ :=
  match tier with
  | .critical => 100
  | .high => backoffLoop 500 (restartCount - 1).toNat
  | .normal => backoffLoop 2000 (restartCount - 1).toNat
  | .low => backoffLoop 5000 (restartCount - 1).toNat

def smTierMaxAttempts : ServiceTier → ℤ
  | .critical => 10
  | .high => 5
  | .normal => 3
  | .low => 1

def smTierGetRestartDelay (tier : ServiceTier) (attempt : ℤ) : ℤ :=
  if attempt ≥ smTierMaxAttempts tier then -1
  else smTierGetBackoffMs tier attempt

def smHealthRestartDelay : ℤ := 2

def smHealthMaxRestarts : ℤ := 3

inductive Signal
  | sigterm
  | sigkill
deriving DecidableEq, Repr

/-- The readings of one pass: the clock at its start, whether the snapshot can
be allocated, the clock when service `i` is marked crashed, and whether its
process survives the termination signal. -/
structure HealthEnv where
  now : ℤ
  mallocOk : Bool
  crashNow : ℕ → ℤ
  survives : ℕ → Bool

/-- The delay in seconds before a restart: from the tier, else exponential. -/
def restartBackoff (restartCount : ℤ) : ℤ :=
  let tierDelay := smTierGetRestartDelay .normal restartCount
  let backoff := if tierDelay > 0 then tierDelay / 1000 else smHealthRestartDelay
  if backoff ≤ 0 then
    if restartCount > 1 then
      let shift := if restartCount - 1 > 6 then 6 else restartCount - 1
      let backoff := smHealthRestartDelay * 2 ^ shift.toNat
      if backoff > 120 then 120 else backoff
    else smHealthRestartDelay
  else backoff

abbrev HealthState := Registry × List (ℤ × Signal)

def restartCrashed (env : HealthEnv) (i : ℕ) (svc : ServiceEntry)
    (s : HealthState) : HealthState :=
  if svc.restartCount ≥ smHealthMaxRestarts then
    ((smRegistryUpdateStatus s.1 svc.name .dead env.now).1, s.2)
  else if env.now - svc.lastCrashTime ≥ restartBackoff svc.restartCount then
    if svc.pid > 1 then
      (s.1, s.2 ++ (svc.pid, .sigterm) ::
        if env.survives i then [(svc.pid, .sigkill)] else [])
    else s
  else s

/-- The body of the loop for service `i` of the snapshot. -/
def checkService (env : HealthEnv) (s : HealthState) (i : ℕ)
    (svc : ServiceEntry) : HealthState :=
  match svc.status with
  | .dead => s
  | .running =>
      if env.now - svc.lastHeartbeat > smHeartbeatTimeout then
        restartCrashed env i svc
          ((smRegistryUpdateStatus s.1 svc.name .crashed (env.crashNow i)).1, s.2)
      else s
  | .crashed => restartCrashed env i svc s
  | .stopped => s

/-- The loop over the snapshot from service `i` on. -/
def checkServices (env : HealthEnv) (s : HealthState) (i : ℕ) :
    List ServiceEntry → HealthState
  | [] => s
  | svc :: services => checkServices env (checkService env s i svc) (i + 1) services

/-- `sm_health_check`. -/
def smHealthCheck (r : Registry) (env : HealthEnv) : HealthState :=
  match smRegistryGetAll r env.mallocOk with
  | none => (r, [])
  | some services => checkServices env (r, []) 0 services

theorem checkService_registry (env : HealthEnv) (s : HealthState) (i : ℕ)
    (svc : ServiceEntry) :
    ∃ updates : List (ServiceStatus × ℤ),
      (checkService env s i svc).1 = updates.foldl
        (fun r u => (smRegistryUpdateStatus r svc.name u.1 u.2).1) s.1 := by
  have hrestart : ∀ s : HealthState, ∃ updates : List (ServiceStatus × ℤ),
      (restartCrashed env i svc s).1 = updates.foldl
        (fun r u => (smRegistryUpdateStatus r svc.name u.1 u.2).1) s.1 := by
    intro s
    unfold restartCrashed
    split_ifs
    · exact ⟨[(.dead, env.now)], rfl⟩
    · exact ⟨[], rfl⟩
    · exact ⟨[], rfl⟩
    · exact ⟨[], rfl⟩
    · exact ⟨[], rfl⟩
  unfold checkService
  cases svc.status with
  | dead => exact ⟨[], rfl⟩
  | stopped => exact ⟨[], rfl⟩
  | crashed => exact hrestart s
  | running =>
      dsimp only
      split_ifs
      · obtain ⟨updates, h⟩ := hrestart
          ((smRegistryUpdateStatus s.1 svc.name .crashed (env.crashNow i)).1, s.2)
        exact ⟨(.crashed, env.crashNow i) :: updates, h⟩
      · exact ⟨[], rfl⟩

theorem smHealthCheck_keeps {P : Registry → Prop} {r : Registry} (env : HealthEnv)
    (hr : P r)
    (hstep : ∀ r svcName status now, P r →
      P (smRegistryUpdateStatus r svcName status now).1) :
    P (smHealthCheck r env).1 := by
  have hfold : ∀ (name : List UInt8) (updates : List (ServiceStatus × ℤ)) r, P r →
      P (updates.foldl (fun r u => (smRegistryUpdateStatus r name u.1 u.2).1) r) := by
    intro name updates
    induction updates with
    | nil => exact fun r hr => hr
    | cons u updates ih => exact fun r hr => ih _ (hstep r name u.1 u.2 hr)
  have hloop : ∀ (services : List ServiceEntry) (i : ℕ) (s : HealthState), P s.1 →
      P (checkServices env s i services).1 := by
    intro services
    induction services with
    | nil => exact fun i s hs => hs
    | cons svc services ih =>
        intro i s hs
        apply ih _ _
        obtain ⟨updates, heq⟩ := checkService_registry env s i svc
        rw [heq]
        exact hfold svc.name updates s.1 hs
  unfold smHealthCheck
  split
  · exact hr
  · exact hloop _ 0 (r, []) hr

end ServiceManager

end Shinigami
