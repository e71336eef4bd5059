import Shinigami.ServiceManager.Security.RateLimit

/-!
# Rate limit by service name and the penalty box

The second limiter of `sm_advanced_ratelimit.c`, which the handlers ask for
every named request. It charges the process limiter once more, then consults the
penalty box and the configured bucket of the process and the name.

The wall clock is read up to twice in one check, by the penalty box (`banNow`)
and when a violation is recorded (`violationNow`). The `operation` argument is
ignored by the program and left out.
-/

namespace Shinigami

namespace ServiceManager

open CString

def penaltyThreshold : ℕ := 5

def penaltyWindowSecs : ℤ := 30

def penaltyDurationSecs : ℤ := 60

def maxServiceBuckets : ℕ := 256

/-- Size of the `service_name` fields of the limiter. -/
def limiterNameSize : ℕ := 64

/-- `service_bucket_t`. -/
structure ServiceBucket where
  serviceName : List UInt8
  pid : ℤ
  tokens : ℚ

/-- `penalty_entry_t`. -/
structure PenaltyEntry where
  serviceName : List UInt8
  pid : ℤ
  violationCount : ℕ
  windowStart : ℤ
  banUntil : ℤ
deriving Inhabited

/-- `g_limits`: the used buckets and the used penalty entries. -/
structure ServiceLimits where
  buckets : List ServiceBucket
  penalties : List PenaltyEntry

def smRatelimitInit : ServiceLimits := ⟨[], []⟩

def PenaltyEntry.isFor (pid : ℤ) (name : List UInt8) (p : PenaltyEntry) : Bool :=
  p.pid == pid && strncmpEq limiterNameSize p.serviceName name

def ServiceBucket.isFor (pid : ℤ) (name : List UInt8) (b : ServiceBucket) : Bool :=
  b.pid == pid && strcmpEq b.serviceName name

/-- `_find_or_create_penalty`: the entries with one for the process and the name
among them, and its index; `none` when there is no room for a new one. -/
def findOrCreatePenalty (penalties : List PenaltyEntry) (pid : ℤ)
    (name : List UInt8) : Option (List PenaltyEntry × ℕ) :=
  match penalties.findIdx? (·.isFor pid name) with
  | some i => some (penalties, i)
  | none =>
      if penalties.length ≥ maxServiceBuckets then none
      else
        some (penalties ++ [⟨strncpyField limiterNameSize name, pid, 0, 0, 0⟩],
          penalties.length)

def PenaltyEntry.violate (p : PenaltyEntry) (now : ℤ) : PenaltyEntry :=
  let p :=
    if p.windowStart = 0 ∨ now - p.windowStart > penaltyWindowSecs then
      { p with violationCount := 0, windowStart := now }
    else p
  let p := { p with violationCount := p.violationCount + 1 }
  if p.violationCount ≥ penaltyThreshold then
    { p with
      banUntil := now + penaltyDurationSecs
      violationCount := 0
      windowStart := 0 }
  else p

/-- `_record_violation`. -/
def recordViolation (limits : ServiceLimits) (pid : ℤ) (name : List UInt8)
    (now : ℤ) : ServiceLimits :=
  match findOrCreatePenalty limits.penalties pid name with
  | none => limits
  | some (penalties, i) =>
      { limits with penalties := penalties.modify i (·.violate now) }

/-- Clearing the ban and the counter of an entry. -/
def PenaltyEntry.clear (p : PenaltyEntry) : PenaltyEntry :=
  { p with banUntil := 0, violationCount := 0, windowStart := 0 }

/-- `_is_in_penalty_box`; an expired ban is cleared. -/
def isInPenaltyBox (limits : ServiceLimits) (pid : ℤ) (name : List UInt8)
    (now : ℤ) : ServiceLimits × Bool :=
  match limits.penalties.findIdx? (·.isFor pid name) with
  | none => (limits, false)
  | some i =>
      let banUntil := (limits.penalties.getD i default).banUntil
      if banUntil = 0 then (limits, false)
      else if now < banUntil then (limits, true)
      else ({ limits with penalties := limits.penalties.modify i (·.clear) }, false)

/-- The configured bucket of the process and the name is asked for a token; no
bucket, no limit. -/
def takeServiceToken (limits : ServiceLimits) (pid : ℤ) (name : List UInt8)
    (violationNow : ℤ) : ServiceLimits × ℤ :=
  match limits.buckets.findIdx? (·.isFor pid name) with
  | none => (limits, 0)
  | some i =>
      if (limits.buckets.getD i ⟨[], 0, 0⟩).tokens < 1 then
        (recordViolation limits pid name violationNow, -1)
      else
        ({ limits with
            buckets := limits.buckets.modify i
              fun b => { b with tokens := b.tokens - 1 } }, 0)

/-- `sm_ratelimit_check_extended`; the name is `none` for a null pointer. -/
def smRatelimitCheckExtended (rl : RateLimiter) (limits : ServiceLimits)
    (pid : ℤ) (serviceName : Option (List UInt8)) (mono : ℚ)
    (banNow violationNow : ℤ) : RateLimiter × ServiceLimits × ℤ :=
  let (rl, rc) := smRateLimitCheck rl pid mono
  match serviceName with
  | none => (rl, limits, if rc ≠ 0 then -1 else 0)
  | some name =>
      if rc ≠ 0 then (rl, recordViolation limits pid name violationNow, -1)
      else
        let (limits, banned) := isInPenaltyBox limits pid name banNow
        if banned then (rl, limits, -1)
        else (rl, takeServiceToken limits pid name violationNow)

/-- `sm_ratelimit_set_service_limit`. -/
def smRatelimitSetServiceLimit (limits : ServiceLimits) (name : List UInt8)
    (pid : ℤ) (capacity : ℚ) : ServiceLimits :=
  match limits.buckets.findIdx? (·.isFor pid name) with
  | some i =>
      { limits with
        buckets := limits.buckets.modify i fun b => { b with tokens := capacity } }
  | none =>
      if limits.buckets.length < maxServiceBuckets then
        { limits with
          buckets := limits.buckets ++
            [⟨strncpyField limiterNameSize name, pid, capacity⟩] }
      else limits

/-- `sm_ratelimit_reset_service`. -/
def smRatelimitResetService (limits : ServiceLimits) (name : List UInt8) :
    ServiceLimits where
  buckets := limits.buckets.map fun b =>
    if strcmpEq b.serviceName name then { b with tokens := 10 } else b
  penalties := limits.penalties.map fun p =>
    if strcmpEq p.serviceName name then p.clear else p

theorem smRatelimitCheckExtended_fst (rl : RateLimiter) (limits : ServiceLimits)
    (pid : ℤ) (serviceName : Option (List UInt8)) (mono : ℚ)
    (banNow violationNow : ℤ) :
    (smRatelimitCheckExtended rl limits pid serviceName mono banNow
      violationNow).1 = (smRateLimitCheck rl pid mono).1 := by
  unfold smRatelimitCheckExtended
  cases serviceName with
  | none => rfl
  | some name =>
      dsimp only
      split_ifs <;> rfl

end ServiceManager

end Shinigami
