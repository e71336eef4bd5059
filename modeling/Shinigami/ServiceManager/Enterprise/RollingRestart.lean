import Shinigami.Foundations.CString
import Shinigami.Foundations.Run

/-!
# Rolling restarts

`sm_rolling_restart.c` as a step function over the calls of its users and the
steps of its worker thread. A section under the lock is one step, and so is the
call of `restart_single_service`, which reads the name through the slot pointer
when it is made. The clock readings and the result of the restart are part of
the event.

The ghost fields number the batches: `batch` counts the successful starts,
`restarted` lists the calls of `restart_single_service` that returned zero, with
the batch in which they were made, and `finished` the batches that the worker has
declared finished.
-/

namespace Shinigami

namespace ServiceManager

open CString

def maxRollingServices : ℕ := 256

/-- `sm_restart_state_t`. -/
inductive RestartState where
  | pending
  | inProgress
  | success
  | failed
  | skipped
deriving DecidableEq, Repr

/-- `sm_service_restart_t`; the error message is kept as its two numbers, the
attempt and the limit. -/
structure ServiceRestart where
  serviceName : List UInt8
  state : RestartState
  startTime : ℤ
  completionTime : ℤ
  retryCount : ℕ
  maxRetries : ℕ
  errorMessage : Option (ℕ × ℕ)
deriving DecidableEq, Repr

/-- A slot after `memset`. -/
def blankService : ServiceRestart :=
  ⟨List.replicate 64 0, .pending, 0, 0, 0, 0, none⟩

/-- Where the worker thread stands. The number behind `restarting` is the batch
in which the call was made. -/
inductive WorkerPc where
  | loop
  | picked (idx : ℕ)
  | restarting (idx batch : ℕ) (name : List UInt8)
  | exited
deriving DecidableEq, Repr

/-- `rolling_restart_ctx_t`. -/
structure RollingRestart where
  services : ℕ → ServiceRestart
  serviceCount : ℕ
  delayBetweenRestarts : ℤ
  threadRunning : Bool
  isActive : Bool
  currentIdx : ℕ
  worker : WorkerPc
  batch : ℕ
  restarted : List (ℕ × List UInt8)
  finished : List ℕ

/-- The state after a successful `sm_rolling_restart_init`. -/
def RollingRestart.initial : RollingRestart where
  services := fun _ => blankService
  serviceCount := 0
  delayBetweenRestarts := 0
  threadRunning := true
  isActive := false
  currentIdx := 0
  worker := .loop
  batch := 0
  restarted := []
  finished := []

/-- `sm_rolling_restart_init`; `none` when it fails. -/
def smRollingRestartInit (maxConcurrentRestarts : ℤ) (mutexOk condOk createOk : Bool) :
    Option RollingRestart :=
  if maxConcurrentRestarts ≤ 0 ∨ 16 < maxConcurrentRestarts then none
  else if !mutexOk then none
  else if !condOk then none
  else if !createOk then none
  else some RollingRestart.initial

namespace RollingRestart

def setService (s : RollingRestart) (idx : ℕ) (svc : ServiceRestart) : RollingRestart :=
  { s with services := Function.update s.services idx svc }

def nextPending (s : RollingRestart) : Option ℕ :=
  (List.range' s.currentIdx (s.serviceCount - s.currentIdx)).find? fun i =>
    (s.services i).state = .pending

/-- The slot after `restart_single_service` has returned `ret`. -/
def reported (svc : ServiceRestart) (ret now : ℤ) : ServiceRestart :=
  let svc := { svc with completionTime := now }
  if ret = 0 then { svc with state := .success }
  else
    let svc := { svc with state := .failed, retryCount := svc.retryCount + 1 }
    { svc with errorMessage := some (svc.retryCount, svc.maxRetries) }

/-- Whether the report moves `current_idx` on. -/
def Advances (svc : ServiceRestart) (ret : ℤ) : Prop :=
  ret = 0 ∨ svc.maxRetries ≤ svc.retryCount + 1

instance (svc : ServiceRestart) (ret : ℤ) : Decidable (Advances svc ret) :=
  inferInstanceAs (Decidable (_ ∨ _))

/-- The section under the lock behind `restart_single_service`. -/
def report (s : RollingRestart) (idx batch : ℕ) (name : List UInt8) (ret now : ℤ) :
    RollingRestart :=
  { s.setService idx (reported (s.services idx) ret now) with
    currentIdx := if Advances (s.services idx) ret then idx + 1 else s.currentIdx
    worker := .loop
    restarted := if ret = 0 then s.restarted ++ [(batch, name)] else s.restarted }

/-- The next step of `rolling_restart_thread_main`, with the clock reading `now`
and the result `ret` of a restart that returns. -/
def workerStep (s : RollingRestart) (ret now : ℤ) : RollingRestart :=
  match s.worker with
  | .loop =>
      if !s.threadRunning then { s with worker := .exited }
      else if !s.isActive then s
      else
        match s.nextPending with
        | none =>
            { s with
              isActive := false
              worker := .exited
              finished := s.finished ++ [s.batch] }
        | some idx =>
            { s.setService idx { s.services idx with state := .inProgress, startTime := now }
              with worker := .picked idx }
  | .picked idx =>
      { s with worker := .restarting idx s.batch (s.services idx).serviceName }
  | .restarting idx batch name => s.report idx batch name ret now
  | .exited => s

def newServices (names : List (List UInt8)) (i : ℕ) : ServiceRestart :=
  match names[i]? with
  | some name =>
      { blankService with
        serviceName := strncpyField 64 name
        state := .pending
        maxRetries := 3 }
  | none => blankService

/-- The arguments that `sm_rolling_restart_start` takes. -/
def ValidStart (names : List (List UInt8)) (delay : ℤ) : Prop :=
  (0 < names.length ∧ names.length ≤ maxRollingServices) ∧ 0 ≤ delay ∧ delay ≤ 3600

instance (names : List (List UInt8)) (delay : ℤ) : Decidable (ValidStart names delay) :=
  inferInstanceAs (Decidable (_ ∧ _))

/-- `sm_rolling_restart_start`. -/
def smRollingRestartStart (s : RollingRestart) (names : List (List UInt8)) (delay : ℤ) :
    RollingRestart × ℤ :=
  if ¬ValidStart names delay then (s, -1)
  else if s.isActive then (s, -1)
  else
    ({ s with
        services := newServices names
        serviceCount := names.length
        currentIdx := 0
        delayBetweenRestarts := delay
        isActive := true
        batch := s.batch + 1 }, 0)

/-- `sm_rolling_restart_cancel`. -/
def smRollingRestartCancel (s : RollingRestart) : RollingRestart :=
  { s with
    services := fun i =>
      if i < s.serviceCount ∧ (s.services i).state = .pending then
        { s.services i with state := .skipped }
      else s.services i
    isActive := false }

/-- A call, or a step of the worker. -/
inductive Event where
  | start (names : List (List UInt8)) (delay : ℤ)
  | cancel
  | worker (ret now : ℤ)
deriving DecidableEq, Repr

def step (s : RollingRestart) : Event → RollingRestart
  | .start names delay => (s.smRollingRestartStart names delay).1
  | .cancel => s.smRollingRestartCancel
  | .worker ret now => s.workerStep ret now

variable {s : RollingRestart}

theorem smRollingRestartInit_eq_some {maxConcurrentRestarts : ℤ}
    {mutexOk condOk createOk : Bool}
    (h : smRollingRestartInit maxConcurrentRestarts mutexOk condOk createOk = some s) :
    s = initial := by
  unfold smRollingRestartInit at h
  split_ifs at h
  exact (Option.some.inj h).symm

theorem not_pending_of_nextPending (h : s.nextPending = none) {i : ℕ}
    (hlow : s.currentIdx ≤ i) (hhigh : i < s.serviceCount) :
    (s.services i).state ≠ .pending := by
  have hmem : i ∈ List.range' s.currentIdx (s.serviceCount - s.currentIdx) := by
    rw [List.mem_range'_1]
    omega
  simpa using List.find?_eq_none.mp h i hmem

@[simp] theorem services_setService_self (s : RollingRestart) (idx : ℕ)
    (svc : ServiceRestart) : (s.setService idx svc).services idx = svc :=
  Function.update_self ..

theorem services_setService_of_ne (s : RollingRestart) {idx i : ℕ} (svc : ServiceRestart)
    (hne : i ≠ idx) : (s.setService idx svc).services i = s.services i :=
  Function.update_of_ne hne ..

theorem reported_serviceName (svc : ServiceRestart) (ret now : ℤ) :
    (reported svc ret now).serviceName = svc.serviceName := by
  unfold reported
  split <;> rfl

theorem reported_state (svc : ServiceRestart) (ret now : ℤ) :
    (reported svc ret now).state = if ret = 0 then .success else .failed := by
  unfold reported
  split <;> rfl

theorem newServices_state (names : List (List UInt8)) (i : ℕ) :
    (newServices names i).state = .pending := by
  unfold newServices
  split <;> rfl

theorem smRollingRestartStart_cases (s : RollingRestart) (names : List (List UInt8))
    (delay : ℤ) :
    ((¬ValidStart names delay ∨ s.isActive = true) ∧
        s.smRollingRestartStart names delay = (s, -1)) ∨
      (ValidStart names delay ∧ s.isActive = false ∧
        s.smRollingRestartStart names delay =
          ({ s with
              services := newServices names
              serviceCount := names.length
              currentIdx := 0
              delayBetweenRestarts := delay
              isActive := true
              batch := s.batch + 1 }, 0)) := by
  unfold smRollingRestartStart
  by_cases hvalid : ValidStart names delay
  · cases hactive : s.isActive with
    | true => exact .inl ⟨.inr rfl, by simp⟩
    | false => exact .inr ⟨hvalid, rfl, by simp [hvalid]⟩
  · exact .inl ⟨.inl hvalid, by simp [hvalid]⟩

theorem smRollingRestartCancel_state (s : RollingRestart) (i : ℕ) :
    (s.smRollingRestartCancel.services i).state =
      if i < s.serviceCount ∧ (s.services i).state = .pending then .skipped
      else (s.services i).state := by
  unfold smRollingRestartCancel
  dsimp only
  split <;> rfl

theorem smRollingRestartCancel_serviceName (s : RollingRestart) (i : ℕ) :
    (s.smRollingRestartCancel.services i).serviceName = (s.services i).serviceName := by
  unfold smRollingRestartCancel
  dsimp only
  split <;> rfl

end RollingRestart

end ServiceManager

end Shinigami
