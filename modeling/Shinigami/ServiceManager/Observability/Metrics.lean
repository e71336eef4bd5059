import Shinigami.Foundations.Run
import Shinigami.Foundations.Tally
import Shinigami.ServiceManager.Infrastructure.Protocol
import Mathlib.Algebra.BigOperators.Fin
import Mathlib.Data.Int.Notation

/-!
# Accounting of requests

`sm_metrics_request` of `sm_metrics.c`, run by any number of threads. A call executes
one atomic operation, one operation on the mutex or one access to the history at a
time, so a call in progress holds where it stands (`RequestPhase`), and an event is
the next operation of one call. An operation moves the counters by what it moves in
the account of its call (`RequestCall.step_balanced`), so that counters and calls agree in
every interleaving (`requests_conserved`).
-/

namespace Shinigami

namespace ServiceManager

/-- `QPS_HISTORY_SIZE`. -/
def qpsHistorySize : ℕ := 60

/-- `g_metrics`, as far as requests touch it. -/
structure Metrics where
  totalRequests : UInt64
  byType : Fin 5 → UInt64
  totalErrors : UInt64
  totalLatencyUs : UInt64
  requestCountCurrentSec : UInt64
  peakQps : UInt64
  rollingAvgQps : UInt64
  lastQpsReset : ℤ
  qpsHistory : ℕ → UInt64
  historyIdx : ℕ
  qpsMutex : Bool

/-- `sm_metrics_init`, at a clock reading. -/
def smMetricsInit (now : ℤ) : Metrics where
  totalRequests := 0
  byType := fun _ => 0
  totalErrors := 0
  totalLatencyUs := 0
  requestCountCurrentSec := 0
  peakQps := 0
  rollingAvgQps := 0
  lastQpsReset := now
  qpsHistory := fun _ => 0
  historyIdx := 0
  qpsMutex := false

/-- The next operation of `sm_metrics_request`, with the local variables that the rest
of the call reads. -/
inductive RequestPhase where
  | addTotal
  | addByType
  | addLatency
  | addCurrentSec
  | addErrors
  | readTime
  | loadLast (now : ℤ)
  | tryLock (now : ℤ)
  | reloadLast (now : ℤ)
  | exchange (now : ℤ)
  | loadPeak (now : ℤ) (bucket : UInt64)
  | storePeak (now : ℤ) (bucket : UInt64)
  | writeHistory (now : ℤ) (bucket : UInt64)
  | moveIdx (now : ℤ)
  | storeAverage (now : ℤ)
  | storeLast (now : ℤ)
  | unlock
  | returned
deriving DecidableEq, Repr

/-- A call of `sm_metrics_request`. -/
structure RequestCall where
  msgType : UInt16
  latencyUs : ℤ
  success : ℤ
  phase : RequestPhase
deriving DecidableEq, Repr

def RequestCall.idx (c : RequestCall) : Fin 5 :=
  if c.msgType = smMsgRegister then 0
  else if c.msgType = smMsgLookup then 1
  else if c.msgType = smMsgHeartbeat then 2
  else if c.msgType = smMsgUnregister then 3
  else 4

def Metrics.historySum (m : Metrics) : UInt64 :=
  (List.range qpsHistorySize).foldl (fun sum i => sum + m.qpsHistory i) 0

/-- The next operation of a call; `time` is what the clock shows. -/
def RequestCall.step (m : Metrics) (c : RequestCall) (time : ℤ) : Metrics × RequestPhase :=
  match c.phase with
  | .addTotal => ({ m with totalRequests := m.totalRequests + 1 }, .addByType)
  | .addByType =>
      ({ m with byType := Function.update m.byType c.idx (m.byType c.idx + 1) }, .addLatency)
  | .addLatency =>
      ({ m with
          totalLatencyUs := m.totalLatencyUs +
            UInt64.ofNat (if c.latencyUs < 0 then 0 else c.latencyUs).toNat }, .addCurrentSec)
  | .addCurrentSec =>
      ({ m with requestCountCurrentSec := m.requestCountCurrentSec + 1 }, .addErrors)
  | .addErrors =>
      (if c.success = 0 then { m with totalErrors := m.totalErrors + 1 } else m, .readTime)
  | .readTime => (m, .loadLast time)
  | .loadLast now => if now ≠ m.lastQpsReset then (m, .tryLock now) else (m, .returned)
  | .tryLock now =>
      if m.qpsMutex then (m, .returned) else ({ m with qpsMutex := true }, .reloadLast now)
  | .reloadLast now => if now ≠ m.lastQpsReset then (m, .exchange now) else (m, .unlock)
  | .exchange now =>
      ({ m with requestCountCurrentSec := 0 }, .loadPeak now m.requestCountCurrentSec)
  | .loadPeak now bucket =>
      if bucket > m.peakQps then (m, .storePeak now bucket) else (m, .writeHistory now bucket)
  | .storePeak now bucket => ({ m with peakQps := bucket }, .writeHistory now bucket)
  | .writeHistory now bucket =>
      ({ m with qpsHistory := Function.update m.qpsHistory m.historyIdx bucket }, .moveIdx now)
  | .moveIdx now =>
      ({ m with historyIdx := (m.historyIdx + 1) % qpsHistorySize }, .storeAverage now)
  | .storeAverage now =>
      ({ m with rollingAvgQps := m.historySum / UInt64.ofNat qpsHistorySize }, .storeLast now)
  | .storeLast now => ({ m with lastQpsReset := now }, .unlock)
  | .unlock => ({ m with qpsMutex := false }, .returned)
  | .returned => (m, .returned)

def RequestPhase.flushes : RequestPhase → List UInt64
  | .writeHistory _ bucket => [bucket]
  | _ => []

namespace Metering

/-- The metrics, all calls so far, and the buckets that were written into the
history. -/
structure State where
  metrics : Metrics
  calls : List RequestCall
  flushed : List UInt64

def initial (now : ℤ) : State := ⟨smMetricsInit now, [], []⟩

inductive Event where
  | call (msgType : UInt16) (latencyUs success : ℤ)
  | resume (i : ℕ) (time : ℤ)
deriving DecidableEq, Repr

def step (s : State) : Event → State
  | .call msgType latencyUs success =>
      { s with calls := s.calls ++ [⟨msgType, latencyUs, success, .addTotal⟩] }
  | .resume i time =>
      match s.calls[i]? with
      | none => s
      | some c =>
          let result := c.step s.metrics time
          { metrics := result.1
            calls := s.calls.set i { c with phase := result.2 }
            flushed := s.flushed ++ c.phase.flushes }

end Metering

def RequestPhase.additions : RequestPhase → ℕ
  | .addTotal => 0
  | .addByType => 1
  | .addLatency => 2
  | .addCurrentSec => 3
  | .addErrors => 4
  | _ => 5

def RequestPhase.bucket : RequestPhase → ℕ
  | .loadPeak _ bucket => bucket.toNat
  | .storePeak _ bucket => bucket.toNat
  | .writeHistory _ bucket => bucket.toNat
  | _ => 0

namespace RequestCall

def ofTotal (c : RequestCall) : ℕ := if 0 < c.phase.additions then 1 else 0

def ofType (k : Fin 5) (c : RequestCall) : ℕ :=
  if 1 < c.phase.additions ∧ c.idx = k then 1 else 0

def ofCurrentSec (c : RequestCall) : ℕ := if 3 < c.phase.additions then 1 else 0

def ofErrors (c : RequestCall) : ℕ := if 4 < c.phase.additions ∧ c.success = 0 then 1 else 0

/-- The call after an operation. -/
def after (m : Metrics) (c : RequestCall) (time : ℤ) : RequestCall :=
  { c with phase := (c.step m time).2 }

end RequestCall

structure Metrics.SameCounters (m m' : Metrics) : Prop where
  total : m'.totalRequests = m.totalRequests
  byType : m'.byType = m.byType
  errors : m'.totalErrors = m.totalErrors
  currentSec : m'.requestCountCurrentSec = m.requestCountCurrentSec

structure Metrics.Below (m : Metrics) (c : RequestCall) : Prop where
  total : m.totalRequests.toNat + 1 < 2 ^ 64 + c.ofTotal
  byType : ∀ k, (m.byType k).toNat + 1 < 2 ^ 64 + c.ofType k
  errors : m.totalErrors.toNat + 1 < 2 ^ 64 + c.ofErrors
  currentSec : m.requestCountCurrentSec.toNat + 1 < 2 ^ 64 + c.ofCurrentSec

def sumBuckets (buckets : List UInt64) : ℕ := tally UInt64.toNat buckets

namespace RequestCall

/-- An operation moves the counters by what it moves in the account of its call. -/
structure Balanced (m m' : Metrics) (c c' : RequestCall) : Prop where
  total : m'.totalRequests.toNat + c.ofTotal = m.totalRequests.toNat + c'.ofTotal
  byType : ∀ k, (m'.byType k).toNat + c.ofType k = (m.byType k).toNat + c'.ofType k
  errors : m'.totalErrors.toNat + c.ofErrors = m.totalErrors.toNat + c'.ofErrors
  currentSec : m'.requestCountCurrentSec.toNat + sumBuckets c.phase.flushes +
      c'.phase.bucket + c.ofCurrentSec =
    m.requestCountCurrentSec.toNat + c.phase.bucket + c'.ofCurrentSec

/-- An operation that leaves the counters, the additions and the bucket alone. -/
theorem balanced_of_same {m m' : Metrics} {c : RequestCall} {phase phase' : RequestPhase}
    (hphase : c.phase = phase) (hcounters : m.SameCounters m') (hbefore : phase.additions = 5)
    (hafter : phase'.additions = 5) (hbucket : phase'.bucket = phase.bucket)
    (hflushes : phase.flushes = []) : Balanced m m' c { c with phase := phase' } := by
  subst hphase
  constructor
  · simp [ofTotal, hcounters.total, hbefore, hafter]
  · intro k
    simp [ofType, idx, hcounters.byType, hbefore, hafter]
  · simp [ofErrors, hcounters.errors, hbefore, hafter]
  · simp [ofCurrentSec, hcounters.currentSec, hbefore, hafter, hbucket, hflushes, sumBuckets]

theorem toNat_add_one {a : UInt64} (h : a.toNat + 1 < 2 ^ 64) :
    (a + 1).toNat = a.toNat + 1 := by
  rw [UInt64.toNat_add]
  exact Nat.mod_eq_of_lt h

theorem step_balanced {m : Metrics} {c : RequestCall} (h : m.Below c) (time : ℤ) :
    Balanced m (c.step m time).1 c (c.after m time) := by
  have hsame : m.SameCounters m := ⟨rfl, rfl, rfl, rfl⟩
  unfold after step
  cases hphase : c.phase with
  | addTotal =>
      have htotal : m.totalRequests.toNat + 1 < 2 ^ 64 := by
        simpa [ofTotal, hphase, RequestPhase.additions] using h.total
      constructor <;>
        simp [ofTotal, ofType, ofErrors, ofCurrentSec, idx, hphase, RequestPhase.additions,
          RequestPhase.bucket, RequestPhase.flushes, sumBuckets, toNat_add_one htotal]
  | addByType =>
      have hbyType : ∀ k, (m.byType k).toNat + 1 < 2 ^ 64 := by
        simpa [ofType, hphase, RequestPhase.additions] using h.byType
      constructor
      · simp [ofTotal, hphase, RequestPhase.additions]
      · intro k
        by_cases hk : k = c.idx
        · subst hk
          simp [ofType, idx, hphase, RequestPhase.additions, toNat_add_one (hbyType _)]
        · have hidx : idx { c with phase := .addLatency } ≠ k := Ne.symm hk
          simp [ofType, hphase, RequestPhase.additions, Function.update_of_ne hk, hidx]
      · simp [ofErrors, hphase, RequestPhase.additions]
      · simp [ofCurrentSec, hphase, RequestPhase.additions, RequestPhase.bucket,
          RequestPhase.flushes, sumBuckets]
  | addLatency =>
      constructor <;>
        simp [ofTotal, ofType, ofErrors, ofCurrentSec, idx, hphase, RequestPhase.additions,
          RequestPhase.bucket, RequestPhase.flushes, sumBuckets]
  | addCurrentSec =>
      have hcurrentSec : m.requestCountCurrentSec.toNat + 1 < 2 ^ 64 := by
        simpa [ofCurrentSec, hphase, RequestPhase.additions] using h.currentSec
      constructor <;>
        simp [ofTotal, ofType, ofErrors, ofCurrentSec, idx, hphase, RequestPhase.additions,
          RequestPhase.bucket, RequestPhase.flushes, sumBuckets, toNat_add_one hcurrentSec]
  | addErrors =>
      have herrors : m.totalErrors.toNat + 1 < 2 ^ 64 := by
        simpa [ofErrors, hphase, RequestPhase.additions] using h.errors
      by_cases hsuccess : c.success = 0 <;> constructor <;>
        simp [ofTotal, ofType, ofErrors, ofCurrentSec, idx, hphase, RequestPhase.additions,
          RequestPhase.bucket, RequestPhase.flushes, sumBuckets, hsuccess,
          toNat_add_one herrors]
  | exchange now =>
      constructor <;>
        simp [ofTotal, ofType, ofErrors, ofCurrentSec, idx, hphase, RequestPhase.additions,
          RequestPhase.bucket, RequestPhase.flushes, sumBuckets]
  | writeHistory now bucket =>
      constructor <;>
        simp [ofTotal, ofType, ofErrors, ofCurrentSec, idx, hphase, RequestPhase.additions,
          RequestPhase.bucket, RequestPhase.flushes, sumBuckets]
  | readTime => exact balanced_of_same hphase hsame rfl rfl rfl rfl
  | loadLast now =>
      dsimp only
      split_ifs <;> exact balanced_of_same hphase hsame rfl rfl rfl rfl
  | tryLock now =>
      dsimp only
      split_ifs <;> exact balanced_of_same hphase ⟨rfl, rfl, rfl, rfl⟩ rfl rfl rfl rfl
  | reloadLast now =>
      dsimp only
      split_ifs <;> exact balanced_of_same hphase hsame rfl rfl rfl rfl
  | loadPeak now bucket =>
      dsimp only
      split_ifs <;> exact balanced_of_same hphase hsame rfl rfl rfl rfl
  | storePeak now bucket => exact balanced_of_same hphase ⟨rfl, rfl, rfl, rfl⟩ rfl rfl rfl rfl
  | moveIdx now => exact balanced_of_same hphase ⟨rfl, rfl, rfl, rfl⟩ rfl rfl rfl rfl
  | storeAverage now => exact balanced_of_same hphase ⟨rfl, rfl, rfl, rfl⟩ rfl rfl rfl rfl
  | storeLast now => exact balanced_of_same hphase ⟨rfl, rfl, rfl, rfl⟩ rfl rfl rfl rfl
  | unlock => exact balanced_of_same hphase ⟨rfl, rfl, rfl, rfl⟩ rfl rfl rfl rfl
  | returned => exact balanced_of_same hphase hsame rfl rfl rfl rfl

end RequestCall

namespace Metering

/-- The counters are what the calls have added to them; what has been taken out of the
counter of the second is in the history or held by the call that took it. -/
structure Conserved (s : State) : Prop where
  total : s.metrics.totalRequests.toNat = tally RequestCall.ofTotal s.calls
  byType : ∀ k, (s.metrics.byType k).toNat = tally (RequestCall.ofType k) s.calls
  errors : s.metrics.totalErrors.toNat = tally RequestCall.ofErrors s.calls
  currentSec : s.metrics.requestCountCurrentSec.toNat + sumBuckets s.flushed +
      tally (fun c => c.phase.bucket) s.calls = tally RequestCall.ofCurrentSec s.calls

theorem conserved_initial (now : ℤ) : Conserved (initial now) :=
  ⟨rfl, fun _ => rfl, rfl, rfl⟩

theorem ite_le_one {p : Prop} [Decidable p] : (if p then 1 else 0) ≤ 1 := by
  split_ifs <;> decide

theorem Conserved.below {s : State} (h : Conserved s) (hcalls : s.calls.length < 2 ^ 64)
    {c : RequestCall} (hc : c ∈ s.calls) : s.metrics.Below c := by
  constructor
  · rw [h.total]
    have hle := tally_add_one_le (w := RequestCall.ofTotal) (fun _ => ite_le_one) hc
    omega
  · intro k
    rw [h.byType]
    have hle := tally_add_one_le (w := RequestCall.ofType k) (fun _ => ite_le_one) hc
    omega
  · rw [h.errors]
    have hle := tally_add_one_le (w := RequestCall.ofErrors) (fun _ => ite_le_one) hc
    omega
  · have hsum := h.currentSec
    have hle := tally_add_one_le (w := RequestCall.ofCurrentSec) (fun _ => ite_le_one) hc
    omega

theorem sumBuckets_append (buckets buckets' : List UInt64) :
    sumBuckets (buckets ++ buckets') = sumBuckets buckets + sumBuckets buckets' :=
  tally_append _ _ _

theorem step_resume_none {s : State} {i : ℕ} (hc : s.calls[i]? = none) (time : ℤ) :
    step s (.resume i time) = s := by
  simp only [step, hc]

theorem step_resume {s : State} {i : ℕ} {c : RequestCall} (hc : s.calls[i]? = some c)
    (time : ℤ) :
    step s (.resume i time) =
      { metrics := (c.step s.metrics time).1
        calls := s.calls.set i (c.after s.metrics time)
        flushed := s.flushed ++ c.phase.flushes } := by
  simp only [step, hc]
  rfl

theorem Conserved.call {s : State} (h : Conserved s) (msgType : UInt16)
    (latencyUs success : ℤ) : Conserved (step s (.call msgType latencyUs success)) := by
  constructor
  · simp [Metering.step, h.total, RequestCall.ofTotal, RequestPhase.additions]
  · intro k
    simp [Metering.step, h.byType, RequestCall.ofType, RequestPhase.additions]
  · simp [Metering.step, h.errors, RequestCall.ofErrors, RequestPhase.additions]
  · have hnone : RequestPhase.addTotal.bucket = 0 := rfl
    simp [Metering.step, h.currentSec, RequestCall.ofCurrentSec, RequestPhase.additions, hnone]

theorem Conserved.resume {s : State} (h : Conserved s) (hcalls : s.calls.length < 2 ^ 64)
    (i : ℕ) (time : ℤ) : Conserved (step s (.resume i time)) := by
  cases hc : s.calls[i]? with
  | none =>
      rw [step_resume_none hc]
      exact h
  | some c =>
      have hbelow := h.below hcalls (List.mem_of_getElem? hc)
      have hbalanced := RequestCall.step_balanced hbelow time
      have hset : ∀ w : RequestCall → ℕ,
          tally w (s.calls.set i (c.after s.metrics time)) + w c =
            tally w s.calls + w (c.after s.metrics time) := fun w => tally_set w hc _
      rw [step_resume hc]
      constructor
      · have hmove := hbalanced.total
        have htally := hset RequestCall.ofTotal
        have hold := h.total
        dsimp only
        omega
      · intro k
        have hmove := hbalanced.byType k
        have htally := hset (RequestCall.ofType k)
        have hold := h.byType k
        dsimp only
        omega
      · have hmove := hbalanced.errors
        have htally := hset RequestCall.ofErrors
        have hold := h.errors
        dsimp only
        omega
      · have hmove := hbalanced.currentSec
        have htally := hset RequestCall.ofCurrentSec
        have hbucket := hset fun c => c.phase.bucket
        have hold := h.currentSec
        dsimp only at hbucket ⊢
        rw [sumBuckets_append]
        omega

theorem Conserved.step {s : State} (h : Conserved s) (hcalls : s.calls.length < 2 ^ 64)
    (ev : Event) : Conserved (step s ev) := by
  cases ev with
  | call msgType latencyUs success => exact h.call msgType latencyUs success
  | resume i time => exact h.resume hcalls i time

theorem length_calls_le_step (s : State) (ev : Event) :
    s.calls.length ≤ (step s ev).calls.length := by
  cases ev with
  | call msgType latencyUs success => simp [step]
  | resume i time =>
      cases hc : s.calls[i]? with
      | none => rw [step_resume_none hc]
      | some c => rw [step_resume hc, List.length_set]

theorem conserved_run (now : ℤ) (evs : List Event)
    (hcalls : (run step (initial now) evs).calls.length < 2 ^ 64) :
    Conserved (run step (initial now) evs) := by
  have hinv : (run step (initial now) evs).calls.length < 2 ^ 64 →
      Conserved (run step (initial now) evs) := by
    refine run_invariant (I := fun s => s.calls.length < 2 ^ 64 → Conserved s)
      (P := fun _ => True) (fun s ev _ ih hlt => ?_) (fun _ => conserved_initial now)
      fun _ _ => trivial
    have hlt' := (length_calls_le_step s ev).trans_lt hlt
    exact (ih hlt').step hlt' ev
  exact hinv hcalls

/-- When no call is in progress, every request is counted once in the total, once in its
type, and once in the counter of the second or in a bucket of the history. -/
theorem requests_conserved (now : ℤ) (evs : List Event)
    (hcalls : (run step (initial now) evs).calls.length < 2 ^ 64)
    (hreturned : ∀ c ∈ (run step (initial now) evs).calls, c.phase = .returned) :
    let s := run step (initial now) evs
    s.metrics.totalRequests.toNat = ∑ k, (s.metrics.byType k).toNat ∧
      s.metrics.totalRequests.toNat =
        s.metrics.requestCountCurrentSec.toNat + sumBuckets s.flushed ∧
      s.metrics.totalErrors.toNat = s.calls.countP (·.success = 0) := by
  intro s
  have h := conserved_run now evs hcalls
  have hadditions : ∀ c ∈ s.calls, c.phase.additions = 5 := fun c hc => by
    rw [hreturned c hc]
    rfl
  have hbucket : tally (fun c => c.phase.bucket) s.calls = 0 := by
    have hzero : tally (fun c => c.phase.bucket) s.calls = tally (fun _ => 0) s.calls :=
      tally_congr fun c hc => by
        rw [hreturned c hc]
        rfl
    rw [hzero]
    simp [tally]
  refine ⟨?_, ?_, ?_⟩
  · rw [h.total, Finset.sum_congr rfl fun k _ => h.byType k, sum_tally]
    refine tally_congr fun c hc => ?_
    simp [RequestCall.ofTotal, RequestCall.ofType, hadditions c hc]
  · have hsum := h.currentSec
    rw [hbucket, Nat.add_zero] at hsum
    rw [hsum, h.total]
    refine tally_congr fun c hc => ?_
    simp [RequestCall.ofTotal, RequestCall.ofCurrentSec, hadditions c hc]
  · rw [h.errors, ← tally_ite]
    refine tally_congr fun c hc => ?_
    simp [RequestCall.ofErrors, hadditions c hc]

/-- Two calls that reach the next second together. -/
theorem requests_conserved_two :
    let evs : List Event :=
      [.call smMsgRegister 5 1, .call smMsgLookup (-1) 0] ++
        (List.replicate 17 [.resume 0 1, .resume 1 1]).flatten
    let s := run step (initial 0) evs
    s.calls.length < 2 ^ 64 ∧ (∀ c ∈ s.calls, c.phase = .returned) ∧ s.flushed = [2] ∧
      s.metrics.totalRequests.toNat = ∑ k, (s.metrics.byType k).toNat ∧
      s.metrics.totalRequests.toNat =
        s.metrics.requestCountCurrentSec.toNat + sumBuckets s.flushed ∧
      s.metrics.totalErrors.toNat = s.calls.countP (·.success = 0) := by
  intro evs s
  have hcalls : s.calls.length < 2 ^ 64 := by decide +kernel
  have hreturned : ∀ c ∈ s.calls, c.phase = .returned := by decide +kernel
  have hflushed : s.flushed = [2] := by decide +kernel
  exact ⟨hcalls, hreturned, hflushed, requests_conserved 0 evs hcalls hreturned⟩

end Metering

end ServiceManager

end Shinigami
