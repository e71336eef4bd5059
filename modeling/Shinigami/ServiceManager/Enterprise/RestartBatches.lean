import Shinigami.ServiceManager.Enterprise.RollingRestart

/-!
# Batches of rolling restarts

Two properties of runs of `sm_rolling_restart.c`. `BatchFaithful` says that a
slot of the current batch is successful only after a restart of its service in
this batch, and that a finished batch has no pending slot. It holds as long as
the worker reports in turn (`batchFaithful_run`); a report that comes when another
batch has been started marks a slot of that batch and moves its index on.

`HasWorker` says that an active batch has a worker. The worker leaves its loop
with the first batch that it finishes, so a later start breaks it
(`hasWorker_iff`).
-/

namespace Shinigami

namespace ServiceManager

open CString

namespace RollingRestart

/-- Successful slots of the current batch have been restarted in it, and once it
is finished none is pending. -/
structure BatchFaithful (s : RollingRestart) : Prop where
  restarted : ∀ i < s.serviceCount, (s.services i).state = .success →
    (s.batch, (s.services i).serviceName) ∈ s.restarted
  noPending : s.batch ∈ s.finished → ∀ i < s.serviceCount, (s.services i).state ≠ .pending

/-- The report of a restart that has returned `ret`: if it makes a slot of the
current batch successful, the call was made in this batch, and it moves the index
past no pending slot. -/
def InTurn (s : RollingRestart) (ret : ℤ) : WorkerPc → Prop
  | .restarting idx batch _ =>
      (ret = 0 → idx < s.serviceCount → batch = s.batch) ∧
        (Advances (s.services idx) ret →
          ∀ j < idx, j < s.serviceCount → (s.services j).state ≠ .pending)
  | _ => True

instance (s : RollingRestart) (ret : ℤ) : DecidablePred (InTurn s ret)
  | .restarting _ _ _ => inferInstanceAs (Decidable (_ ∧ _))
  | .loop | .picked _ | .exited => .isTrue trivial

/-- The worker reports in turn. -/
def ReportsInTurn (s : RollingRestart) : Event → Prop
  | .worker ret _ => InTurn s ret s.worker
  | _ => True

instance (s : RollingRestart) : DecidablePred (ReportsInTurn s)
  | .worker ret _ => inferInstanceAs (Decidable (InTurn s ret s.worker))
  | .start _ _ | .cancel => .isTrue trivial

/-- The invariant behind it: no pending slot lies in front of the index, and a
call in the current batch has been made under the name in its slot. -/
structure BatchInv (s : RollingRestart) : Prop where
  faithful : BatchFaithful s
  ahead : ∀ i < s.serviceCount, (s.services i).state = .pending → s.currentIdx ≤ i
  finished_le : ∀ b ∈ s.finished, b ≤ s.batch
  called : ∀ idx batch name, s.worker = .restarting idx batch name →
    batch ≤ s.batch ∧ (batch = s.batch → name = (s.services idx).serviceName)

theorem batchInv_initial : BatchInv initial where
  faithful := ⟨by simp [initial], by simp [initial]⟩
  ahead := by simp [initial]
  finished_le := by simp [initial]
  called := by simp [initial]

variable {s : RollingRestart}

theorem BatchInv.start (h : BatchInv s) (names : List (List UInt8)) (delay : ℤ) :
    BatchInv (s.smRollingRestartStart names delay).1 := by
  rcases s.smRollingRestartStart_cases names delay with ⟨-, heq⟩ | ⟨-, -, heq⟩
  · rw [heq]
    exact h
  · rw [heq]
    refine ⟨⟨?_, ?_⟩, fun _ _ _ => Nat.zero_le _, ?_, ?_⟩
    · intro i _ hsuccess
      rw [newServices_state] at hsuccess
      cases hsuccess
    · intro hmem
      have hle := h.finished_le _ hmem
      exact absurd hle (Nat.not_succ_le_self _)
    · exact fun b hb => (h.finished_le b hb).trans (Nat.le_succ _)
    · intro idx batch name hworker
      have hle := (h.called idx batch name hworker).1
      refine ⟨hle.trans (Nat.le_succ _), ?_⟩
      rintro rfl
      exact absurd hle (Nat.not_succ_le_self _)

theorem BatchInv.cancel (h : BatchInv s) : BatchInv s.smRollingRestartCancel := by
  have hpending : ∀ i < s.serviceCount,
      (s.smRollingRestartCancel.services i).state ≠ .pending := by
    intro i hi
    rw [smRollingRestartCancel_state]
    split_ifs with hcancelled
    · simp
    · exact fun hp => hcancelled ⟨hi, hp⟩
  refine ⟨⟨?_, fun _ => hpending⟩, ?_, h.finished_le, ?_⟩
  · intro i hi hsuccess
    rw [smRollingRestartCancel_state] at hsuccess
    split_ifs at hsuccess
    rw [smRollingRestartCancel_serviceName]
    exact h.faithful.restarted i hi hsuccess
  · exact fun i hi hp => absurd hp (hpending i hi)
  · intro idx batch name hworker
    rw [smRollingRestartCancel_serviceName]
    exact h.called idx batch name hworker

theorem BatchInv.finish (h : BatchInv s) (hnone : s.nextPending = none) :
    BatchInv { s with
      isActive := false, worker := .exited, finished := s.finished ++ [s.batch] } where
  faithful :=
    { restarted := h.faithful.restarted
      noPending := fun _ i hi hp =>
        not_pending_of_nextPending hnone (h.ahead i hi hp) hi hp }
  ahead := h.ahead
  finished_le := by
    intro b hb
    rcases List.mem_append.mp hb with hold | hnew
    · exact h.finished_le b hold
    · exact (List.mem_singleton.mp hnew).le
  called := by
    intro idx batch name hworker
    cases hworker

theorem BatchInv.rewrite (h : BatchInv s) {idx idx' : ℕ} {svc : ServiceRestart}
    {worker : WorkerPc} {restarted : List (ℕ × List UInt8)}
    (hstate : svc.state ≠ .pending)
    (hsuccess : svc.state = .success → idx < s.serviceCount →
      (s.batch, svc.serviceName) ∈ restarted)
    (hsubset : s.restarted ⊆ restarted)
    (hahead : ∀ j < s.serviceCount, j ≠ idx → (s.services j).state = .pending → idx' ≤ j)
    (hworker : ∀ i batch name, worker ≠ .restarting i batch name) :
    BatchInv { s.setService idx svc with
      currentIdx := idx', worker := worker, restarted := restarted } := by
  have hother : ∀ i, (i = idx ∧ (s.setService idx svc).services i = svc) ∨
      (i ≠ idx ∧ (s.setService idx svc).services i = s.services i) := by
    intro i
    by_cases heq : i = idx
    · subst heq
      exact .inl ⟨rfl, services_setService_self ..⟩
    · exact .inr ⟨heq, services_setService_of_ne s svc heq⟩
  refine ⟨⟨?_, ?_⟩, ?_, h.finished_le, fun i batch name hw => absurd hw (hworker i batch name)⟩
  · intro i hi hs
    change ((s.setService idx svc).services i).state = _ at hs
    change (s.batch, ((s.setService idx svc).services i).serviceName) ∈ _
    rcases hother i with ⟨rfl, hsvc⟩ | ⟨-, hsame⟩
    · rw [hsvc] at hs ⊢
      exact hsuccess hs hi
    · rw [hsame] at hs ⊢
      exact hsubset (h.faithful.restarted i hi hs)
  · intro hmem i hi hp
    change ((s.setService idx svc).services i).state = _ at hp
    rcases hother i with ⟨rfl, hsvc⟩ | ⟨-, hsame⟩
    · rw [hsvc] at hp
      exact hstate hp
    · rw [hsame] at hp
      exact h.faithful.noPending hmem i hi hp
  · intro i hi hp
    change ((s.setService idx svc).services i).state = _ at hp
    rcases hother i with ⟨rfl, hsvc⟩ | ⟨hne, hsame⟩
    · rw [hsvc] at hp
      exact absurd hp hstate
    · rw [hsame] at hp
      exact hahead i hi hne hp

theorem BatchInv.pick (h : BatchInv s) (idx : ℕ) (now : ℤ) :
    BatchInv { s.setService idx
        { s.services idx with state := .inProgress, startTime := now } with
      worker := .picked idx } :=
  h.rewrite (by simp) (by simp) (List.Subset.refl _) (fun j hj _ hp => h.ahead j hj hp)
    (by simp)

theorem BatchInv.call (h : BatchInv s) (idx : ℕ) :
    BatchInv { s with
      worker := .restarting idx s.batch (s.services idx).serviceName } := by
  refine ⟨⟨h.faithful.restarted, h.faithful.noPending⟩, h.ahead, h.finished_le, ?_⟩
  intro idx' batch name hworker
  cases hworker
  exact ⟨Nat.le_refl _, fun _ => rfl⟩

theorem BatchInv.report (h : BatchInv s) {idx batch : ℕ} {name : List UInt8} {ret : ℤ}
    (hworker : s.worker = .restarting idx batch name)
    (hfresh : ret = 0 → idx < s.serviceCount → batch = s.batch)
    (hfront : Advances (s.services idx) ret →
      ∀ j < idx, j < s.serviceCount → (s.services j).state ≠ .pending) (now : ℤ) :
    BatchInv (s.report idx batch name ret now) := by
  refine h.rewrite ?_ ?_ ?_ ?_ (by simp)
  · rw [reported_state]
    split <;> simp
  · rw [reported_state, reported_serviceName]
    intro hstate hidx
    split_ifs at hstate with hret
    rw [if_pos hret, ← (h.called idx batch name hworker).2 (hfresh hret hidx)]
    rw [hfresh hret hidx]
    simp
  · split
    · exact List.subset_append_left _ _
    · exact List.Subset.refl _
  · intro j hj hne hp
    split_ifs with hadvances
    · by_contra hlt
      exact hfront hadvances j (by omega) hj hp
    · exact h.ahead j hj hp

theorem BatchInv.step (s : RollingRestart) (ev : Event) (hturn : s.ReportsInTurn ev)
    (h : BatchInv s) : BatchInv (s.step ev) := by
  cases ev with
  | start names delay => exact h.start names delay
  | cancel => exact h.cancel
  | worker ret now =>
      change BatchInv (s.workerStep ret now)
      unfold workerStep
      cases hworker : s.worker with
      | loop =>
          have hidle : ∀ pc, (∀ i batch name, pc ≠ .restarting i batch name) →
              BatchInv { s with worker := pc } := fun pc hpc =>
            ⟨⟨h.faithful.restarted, h.faithful.noPending⟩, h.ahead, h.finished_le,
              fun i batch name hw => absurd hw (hpc i batch name)⟩
          dsimp only
          split_ifs
          · exact hidle .exited (by simp)
          · exact h
          · cases hnext : s.nextPending with
            | none => exact h.finish hnext
            | some idx => exact h.pick idx now
      | picked idx => exact h.call idx
      | restarting idx batch name =>
          obtain ⟨hfresh, hfront⟩ : InTurn s ret (.restarting idx batch name) := by
            rw [← hworker]
            exact hturn
          exact h.report hworker hfresh hfront now
      | exited => exact h

/-- Batches are faithful in every run in which the worker reports in turn. -/
theorem batchFaithful_run {maxConcurrentRestarts : ℤ} {mutexOk condOk createOk : Bool}
    {s : RollingRestart}
    (hinit : smRollingRestartInit maxConcurrentRestarts mutexOk condOk createOk = some s)
    {evs : List Event} (hturn : Guarded step ReportsInTurn s evs) :
    BatchFaithful (run step s evs) := by
  obtain rfl := smRollingRestartInit_eq_some hinit
  exact (run_invariant_of_guarded BatchInv.step batchInv_initial hturn).faithful

/-- A batch of two services is cancelled during the first restart, and a second
batch runs to its end, its last restart without success. -/
def cancelledRun : List Event :=
  [.start [ascii ['a'], ascii ['b']] 0, .worker 0 1, .worker 0 1, .cancel, .worker 0 3,
    .worker 0 3, .start [ascii ['c'], ascii ['d']] 0, .worker 0 5, .worker 0 5,
    .worker 0 6, .worker 0 6, .worker 0 6, .worker (-1) 8, .worker 0 8]

/-- The first slot of the second batch is successful, and the batch is finished. -/
theorem batchFaithful_run_cancelled :
    let s := run step initial cancelledRun
    (s.services 0).state = .success ∧ s.batch ∈ s.finished ∧ BatchFaithful s :=
  ⟨by decide, by decide,
    batchFaithful_run (rfl : smRollingRestartInit 1 true true true = some initial)
      (by decide)⟩

/-- Two services; the second restart of the first batch returns when another
batch has been started. -/
theorem stale_report_skips_service :
    let evs : List Event :=
      [.start [ascii ['a'], ascii ['b']] 0, .worker 0 1, .worker 0 1, .worker 0 3,
        .worker 0 3, .worker 0 3, .cancel, .start [ascii ['c'], ascii ['d']] 0,
        .worker 0 5, .worker 0 5]
    let s := run step initial evs
    (s.services 1).state = .success ∧ (s.batch, (s.services 1).serviceName) ∉ s.restarted ∧
      s.batch ∈ s.finished ∧ (s.services 0).state = .pending ∧ ¬BatchFaithful s := by
  intro evs s
  have hfinished : s.batch ∈ s.finished := by decide
  have hpending : (s.services 0).state = .pending := by decide
  refine ⟨by decide, by decide, hfinished, hpending, fun h => ?_⟩
  exact h.noPending hfinished 0 (by decide) hpending

/-- An active batch has a worker. -/
def HasWorker (s : RollingRestart) : Prop := s.isActive = true → s.worker ≠ .exited

/-- No batch is started once the worker has finished one. -/
def StartsInTime (s : RollingRestart) : Event → Prop
  | .start names delay => ValidStart names delay → s.finished = []
  | _ => True

instance (s : RollingRestart) : DecidablePred (StartsInTime s)
  | .start _ _ => inferInstanceAs (Decidable (_ → _))
  | .cancel | .worker _ _ => .isTrue trivial

structure ExitInv (s : RollingRestart) : Prop where
  running : s.threadRunning = true
  exited : s.worker = .exited ↔ s.finished ≠ []

theorem exitInv_initial : ExitInv initial := ⟨rfl, by simp [initial]⟩

theorem ExitInv.step (s : RollingRestart) (ev : Event) (h : ExitInv s) :
    ExitInv (s.step ev) := by
  cases ev with
  | start names delay =>
      change ExitInv (s.smRollingRestartStart names delay).1
      rcases s.smRollingRestartStart_cases names delay with ⟨-, heq⟩ | ⟨-, -, heq⟩
      · rw [heq]
        exact h
      · rw [heq]
        exact ⟨h.running, h.exited⟩
  | cancel => exact ⟨h.running, h.exited⟩
  | worker ret now =>
      change ExitInv (s.workerStep ret now)
      have hexited := h.exited
      unfold workerStep
      cases hworker : s.worker with
      | loop =>
          have hnil : s.finished = [] := by simpa [hworker] using hexited
          dsimp only
          rw [if_neg (by simp [h.running])]
          split_ifs
          · exact h
          · cases s.nextPending with
            | none => exact ⟨h.running, by simp⟩
            | some idx => exact ⟨h.running, by simpa [setService] using hnil⟩
      | picked idx => exact ⟨h.running, by simpa [hworker] using hexited⟩
      | restarting idx batch name =>
          exact ⟨h.running, by simpa [hworker, report, setService] using hexited⟩
      | exited => exact h

theorem HasWorker.step_iff (s : RollingRestart) (ev : Event) (hexit : ExitInv s)
    (h : HasWorker s) : HasWorker (s.step ev) ↔ s.StartsInTime ev := by
  cases ev with
  | start names delay =>
      change HasWorker (s.smRollingRestartStart names delay).1 ↔
        (ValidStart names delay → s.finished = [])
      rcases s.smRollingRestartStart_cases names delay with
        ⟨hrefused, heq⟩ | ⟨hvalid, hinactive, heq⟩
      · rw [heq]
        refine iff_of_true h fun hvalid => ?_
        have hactive := hrefused.resolve_left (not_not.mpr hvalid)
        by_contra hne
        exact h hactive (hexit.exited.mpr hne)
      · rw [heq]
        have hnew : (s.worker ≠ .exited) ↔ s.finished = [] := by
          rw [Ne, hexit.exited, not_not]
        exact ⟨fun hw _ => hnew.mp (hw rfl), fun hf _ => hnew.mpr (hf hvalid)⟩
  | cancel =>
      refine iff_of_true (fun hactive => ?_) trivial
      cases hactive
  | worker ret now =>
      refine iff_of_true ?_ trivial
      change HasWorker (s.workerStep ret now)
      unfold workerStep
      cases hworker : s.worker with
      | loop =>
          dsimp only
          rw [if_neg (by simp [hexit.running])]
          split_ifs
          · exact h
          · cases s.nextPending with
            | none => exact fun hactive => absurd hactive (by simp)
            | some idx => exact fun _ => by simp
      | picked idx => exact fun _ => by simp
      | restarting idx batch name => exact fun _ => by simp [report]
      | exited => exact h

/-- An active batch has a worker in every state of a run exactly when no batch is
started after the worker has finished one. -/
theorem hasWorker_iff {maxConcurrentRestarts : ℤ} {mutexOk condOk createOk : Bool}
    {s : RollingRestart}
    (hinit : smRollingRestartInit maxConcurrentRestarts mutexOk condOk createOk = some s)
    (evs : List Event) :
    (∀ before, before <+: evs → HasWorker (run step s before)) ↔
      Guarded step StartsInTime s evs := by
  obtain rfl := smRollingRestartInit_eq_some hinit
  exact forall_prefix_iff_guarded (P := fun _ => True)
    (fun s ev _ hexit _ _ => hexit.step s ev) (fun s ev _ => HasWorker.step_iff s ev)
    exitInv_initial (by simp [HasWorker, initial]) fun _ _ => trivial

/-- The second batch is started after a cancellation, and the worker is there. -/
theorem hasWorker_iff_cancelled :
    (run step initial (cancelledRun.take 8)).isActive = true ∧
      ∀ before, before <+: cancelledRun → HasWorker (run step initial before) :=
  ⟨by decide,
    (hasWorker_iff (rfl : smRollingRestartInit 1 true true true = some initial) _).mpr
      (by decide)⟩

/-- A second batch after a first one has been finished. -/
theorem second_batch_without_worker :
    let s := run step initial
      [.start [ascii ['a']] 0, .worker 0 1, .worker 0 1, .worker 0 3, .worker 0 3,
        .start [ascii ['b']] 0]
    s.isActive = true ∧ s.worker = .exited := by
  decide

end RollingRestart

end ServiceManager

end Shinigami
