import Shinigami.Foundations.FirstMatch
import Shinigami.Foundations.Run
import Shinigami.ServiceManager.Security.AdvancedRateLimit

/-!
# The penalty box over a run

Runs of the calls that read or change the limits, and what one call does to the
penalty entry of one process and name. The entry that the searches find for the
pair is `entryFor`: once it exists, every call acts on it alone (`entryEffect`),
and it comes to exist only when a violation is recorded.
-/

namespace Shinigami

namespace ServiceManager

open CString

/-- `sm_ratelimit_is_banned`; the name is `none` for a null pointer. -/
def smRatelimitIsBanned (limits : ServiceLimits) (pid : ℤ)
    (serviceName : Option (List UInt8)) (now : ℤ) : ServiceLimits × ℤ :=
  match serviceName with
  | none => (limits, 0)
  | some name =>
      let (limits, banned) := isInPenaltyBox limits pid name now
      (limits, if banned then 1 else 0)

structure LimiterState where
  rateLimiter : RateLimiter
  serviceLimits : ServiceLimits

/-- The calls on the limits, with the clock values they read. -/
inductive LimiterEvent
  | check (pid : ℤ) (serviceName : Option (List UInt8)) (mono : ℚ)
      (banNow violationNow : ℤ)
  | setServiceLimit (name : List UInt8) (pid : ℤ) (capacity : ℚ)
  | resetService (name : List UInt8)
  | isBanned (pid : ℤ) (serviceName : Option (List UInt8)) (now : ℤ)

def limiterStep (s : LimiterState) : LimiterEvent → LimiterState
  | .check pid serviceName mono banNow violationNow =>
      let (rl, limits, _) := smRatelimitCheckExtended s.rateLimiter s.serviceLimits pid
        serviceName mono banNow violationNow
      ⟨rl, limits⟩
  | .setServiceLimit name pid capacity =>
      { s with
        serviceLimits := smRatelimitSetServiceLimit s.serviceLimits name pid capacity }
  | .resetService name =>
      { s with serviceLimits := smRatelimitResetService s.serviceLimits name }
  | .isBanned pid serviceName now =>
      { s with
        serviceLimits := (smRatelimitIsBanned s.serviceLimits pid serviceName now).1 }

def clockReadings : LimiterEvent → List ℤ
  | .check _ _ _ banNow violationNow => [banNow, violationNow]
  | .isBanned _ _ now => [now]
  | _ => []

/-- The wall clock does not run backwards. -/
def ClockMonotone (evs : List LimiterEvent) : Prop :=
  (evs.flatMap clockReadings).Pairwise (· ≤ ·)

instance (evs : List LimiterEvent) : Decidable (ClockMonotone evs) :=
  inferInstanceAs (Decidable (List.Pairwise _ _))

def processDenied (s : LimiterState) (pid : ℤ) (mono : ℚ) : Bool :=
  (smRateLimitCheck s.rateLimiter pid mono).2 != 0

def bucketEmpty (limits : ServiceLimits) (pid : ℤ) (name : List UInt8) : Bool :=
  match limits.buckets.findIdx? (·.isFor pid name) with
  | none => false
  | some i => decide ((limits.buckets.getD i ⟨[], 0, 0⟩).tokens < 1)

/-- The denial for rate reasons of a call: for which process and name, and when. -/
def rateDenial (s : LimiterState) : LimiterEvent → Option (ℤ × List UInt8 × ℤ)
  | .check pid (some name) mono banNow violationNow =>
      if processDenied s pid mono then some (pid, name, violationNow)
      else if (isInPenaltyBox s.serviceLimits pid name banNow).2 then none
      else if bucketEmpty s.serviceLimits pid name then some (pid, name, violationNow)
      else none
  | _ => none

def pairDenial (pid : ℤ) (name : List UInt8) (s : LimiterState) (ev : LimiterEvent) :
    Option ℤ :=
  match rateDenial s ev with
  | none => none
  | some (pid', name', now) =>
      if pid' = pid ∧ strcmpEq name' name = true then some now else none

def entryFor (limits : ServiceLimits) (pid : ℤ) (name : List UInt8) :
    Option PenaltyEntry :=
  limits.penalties.find? (·.isFor pid name)

def samePair (pid pid' : ℤ) (name name' : List UInt8) : Bool :=
  pid' == pid && strncmpEq limiterNameSize name' name

/-- A new entry. -/
def PenaltyEntry.fresh (pid : ℤ) (name : List UInt8) : PenaltyEntry :=
  ⟨strncpyField limiterNameSize name, pid, 0, 0, 0⟩

def PenaltyEntry.expire (p : PenaltyEntry) (now : ℤ) : PenaltyEntry :=
  if p.banUntil ≠ 0 ∧ ¬now < p.banUntil then p.clear else p

def entryEffect (s : LimiterState) (pid : ℤ) (name : List UInt8) :
    LimiterEvent → PenaltyEntry → PenaltyEntry
  | .check pid' (some name') mono banNow violationNow => fun p =>
      if samePair pid pid' name name' then
        let p := if processDenied s pid' mono then p else p.expire banNow
        if (rateDenial s (.check pid' (some name') mono banNow violationNow)).isSome then
          p.violate violationNow
        else p
      else p
  | .check _ none _ _ _ => id
  | .setServiceLimit _ _ _ => id
  | .resetService name' => fun p => if strcmpEq p.serviceName name' then p.clear else p
  | .isBanned pid' (some name') now => fun p =>
      if samePair pid pid' name name' then p.expire now else p
  | .isBanned _ none _ => id

section Searches

variable {pid pid' : ℤ} {name name' : List UInt8}

theorem samePair_iff : samePair pid pid' name name' = true ↔
    pid' = pid ∧ (cstr name').take limiterNameSize = (cstr name).take limiterNameSize := by
  simp [samePair, strncmpEq]

theorem isFor_eq_of_samePair (h : samePair pid pid' name name' = true) (p : PenaltyEntry) :
    p.isFor pid' name' = p.isFor pid name := by
  obtain ⟨rfl, hname⟩ := samePair_iff.mp h
  simp only [PenaltyEntry.isFor, strncmpEq, hname]

theorem isFor_eq_false_of_not_samePair (h : ¬samePair pid pid' name name' = true)
    (p : PenaltyEntry) (hp : p.isFor pid' name' = true) : p.isFor pid name = false := by
  rw [Bool.eq_false_iff]
  intro hp'
  simp only [PenaltyEntry.isFor, strncmpEq, Bool.and_eq_true, beq_iff_eq] at hp hp'
  exact h (samePair_iff.mpr ⟨hp.1.symm.trans hp'.1, hp.2.symm.trans hp'.2⟩)

@[simp] theorem isFor_clear (p : PenaltyEntry) : p.clear.isFor pid name = p.isFor pid name :=
  rfl

@[simp] theorem serviceName_violate (p : PenaltyEntry) (now : ℤ) :
    (p.violate now).serviceName = p.serviceName := by
  simp only [PenaltyEntry.violate]
  split_ifs <;> rfl

@[simp] theorem pid_violate (p : PenaltyEntry) (now : ℤ) : (p.violate now).pid = p.pid := by
  simp only [PenaltyEntry.violate]
  split_ifs <;> rfl

@[simp] theorem isFor_violate (p : PenaltyEntry) (now : ℤ) :
    (p.violate now).isFor pid name = p.isFor pid name := by
  simp [PenaltyEntry.isFor]

theorem PenaltyEntry.violate_cases (p : PenaltyEntry) (now : ℤ) :
    (p.windowStart = 0 ∨ now - p.windowStart > penaltyWindowSecs) ∧
        p.violate now = { p with violationCount := 1, windowStart := now } ∨
      p.windowStart ≠ 0 ∧ now - p.windowStart ≤ penaltyWindowSecs ∧
        (p.violationCount + 1 < penaltyThreshold ∧
          p.violate now = { p with violationCount := p.violationCount + 1 } ∨
        penaltyThreshold ≤ p.violationCount + 1 ∧
          p.violate now =
            { p with
              banUntil := now + penaltyDurationSecs
              violationCount := 0
              windowStart := 0 }) := by
  simp only [PenaltyEntry.violate]
  by_cases hopen : p.windowStart = 0 ∨ now - p.windowStart > penaltyWindowSecs
  · left
    simp [hopen, penaltyThreshold]
  · right
    simp only [if_neg hopen]
    rw [not_or] at hopen
    refine ⟨hopen.1, not_lt.mp hopen.2, ?_⟩
    by_cases hfull : penaltyThreshold ≤ p.violationCount + 1
    · exact .inr ⟨hfull, if_pos hfull⟩
    · exact .inl ⟨Nat.lt_of_not_ge hfull, if_neg hfull⟩

theorem isInPenaltyBox_snd (limits : ServiceLimits) (now : ℤ) :
    (isInPenaltyBox limits pid name now).2 = true ↔
      ∃ p, entryFor limits pid name = some p ∧ p.banUntil ≠ 0 ∧ now < p.banUntil := by
  unfold isInPenaltyBox entryFor
  cases hi : limits.penalties.findIdx? (·.isFor pid name) with
  | none => simp [find?_eq_none_of_findIdx? hi]
  | some i =>
      rw [find?_eq_some_getD hi default]
      dsimp only
      split_ifs with hzero hban <;> simp_all

theorem entryFor_eq_of_samePair (h : samePair pid pid' name name' = true)
    (limits : ServiceLimits) : entryFor limits pid' name' = entryFor limits pid name := by
  rw [entryFor, entryFor, funext (isFor_eq_of_samePair h)]

theorem entryFor_isInPenaltyBox (limits : ServiceLimits) (now : ℤ) :
    entryFor (isInPenaltyBox limits pid' name' now).1 pid name =
      (entryFor limits pid name).map fun p =>
        if samePair pid pid' name name' then p.expire now else p := by
  by_cases hsame : samePair pid pid' name name' = true
  · rw [← entryFor_eq_of_samePair hsame, ← entryFor_eq_of_samePair hsame]
    simp only [hsame, if_true]
    unfold isInPenaltyBox
    cases hi : limits.penalties.findIdx? (·.isFor pid' name') with
    | none => simp [entryFor, find?_eq_none_of_findIdx? hi]
    | some i =>
        have hentry : entryFor limits pid' name' = some (limits.penalties.getD i default) :=
          find?_eq_some_getD hi default
        have hmodify : entryFor
            { limits with penalties := limits.penalties.modify i (·.clear) } pid' name' =
              (entryFor limits pid' name').map (·.clear) :=
          find?_modify_self hi fun _ => isFor_clear _
        dsimp only
        generalize limits.penalties.getD i default = p at hentry ⊢
        split_ifs with hzero hban
        · simp [hentry, PenaltyEntry.expire, hzero]
        · simp [hentry, PenaltyEntry.expire, hban]
        · simp [hmodify, hentry, PenaltyEntry.expire, hzero, hban]
  · have hid : (fun p : PenaltyEntry =>
        if samePair pid pid' name name' then p.expire now else p) = id := by
      funext p
      simp [hsame]
    rw [hid, Option.map_id, id]
    unfold isInPenaltyBox
    cases hi : limits.penalties.findIdx? (·.isFor pid' name') with
    | none => rfl
    | some i =>
        dsimp only
        split_ifs
        · rfl
        · rfl
        · exact find?_modify_of_disjoint hi (fun _ => isFor_clear _)
            (isFor_eq_false_of_not_samePair hsame)

theorem entryFor_recordViolation_of_some {limits : ServiceLimits} {p : PenaltyEntry}
    (h : entryFor limits pid name = some p) (now : ℤ) :
    entryFor (recordViolation limits pid' name' now) pid name =
      some (if samePair pid pid' name name' then p.violate now else p) := by
  unfold recordViolation findOrCreatePenalty
  cases hi : limits.penalties.findIdx? (·.isFor pid' name') with
  | none =>
      have hdiff : ¬samePair pid pid' name name' = true := by
        intro hsame
        have hnone := find?_eq_none_of_findIdx? hi
        rw [← entryFor_eq_of_samePair hsame] at h
        exact absurd (hnone.symm.trans h) (by simp)
      by_cases hfull : limits.penalties.length ≥ maxServiceBuckets
      · simpa [hfull, hdiff] using h
      · have hentry : limits.penalties.find? (·.isFor pid name) = some p := h
        simp [hfull, hdiff, entryFor, modify_length_append, hentry]
  | some i =>
      by_cases hsame : samePair pid pid' name name' = true
      · have hmodify := find?_modify_self (f := (·.violate now)) hi fun _ => isFor_violate _ _
        simp only [hsame, if_true]
        rw [← entryFor_eq_of_samePair hsame] at h ⊢
        rw [entryFor, hmodify]
        exact congrArg (Option.map (·.violate now)) h
      · simp only [hsame]
        exact (find?_modify_of_disjoint hi (fun _ => isFor_violate _ _)
          (isFor_eq_false_of_not_samePair hsame)).trans h

/-- A pair without an entry gets one only when a violation is recorded for which the
new entry passes as one of the pair. -/
theorem entryFor_recordViolation_of_none {limits : ServiceLimits}
    (h : entryFor limits pid name = none) (pid' : ℤ) (name' : List UInt8) (now : ℤ) :
    entryFor (recordViolation limits pid' name' now) pid name = none ∨
      limits.penalties.length < maxServiceBuckets ∧
        (PenaltyEntry.fresh pid' name').isFor pid name = true ∧
        entryFor (recordViolation limits pid' name' now) pid name =
          some ((PenaltyEntry.fresh pid' name').violate now) := by
  cases hi : limits.penalties.findIdx? (·.isFor pid' name') with
  | none =>
      by_cases hfull : limits.penalties.length ≥ maxServiceBuckets
      · left
        simpa [recordViolation, findOrCreatePenalty, hi, hfull] using h
      · have hentry : limits.penalties.find? (·.isFor pid name) = none := h
        have hnew := find?_append_of_none hentry
          ((PenaltyEntry.fresh pid' name').violate now)
        rw [isFor_violate] at hnew
        have hafter : entryFor (recordViolation limits pid' name' now) pid name =
            if (PenaltyEntry.fresh pid' name').isFor pid name then
              some ((PenaltyEntry.fresh pid' name').violate now) else none := by
          rw [← hnew]
          simp only [recordViolation, findOrCreatePenalty, hi, if_neg hfull, entryFor]
          exact congrArg (List.find? (·.isFor pid name))
            (modify_length_append _ (PenaltyEntry.fresh pid' name') (·.violate now))
        by_cases hfor : (PenaltyEntry.fresh pid' name').isFor pid name = true
        · rw [if_pos hfor] at hafter
          exact .inr ⟨Nat.lt_of_not_ge hfull, hfor, hafter⟩
        · rw [if_neg hfor] at hafter
          exact .inl hafter
  | some i =>
      left
      by_cases hsame : samePair pid pid' name name' = true
      · rw [← entryFor_eq_of_samePair hsame] at h
        exact absurd h (by simp [entryFor, find?_eq_some_getD hi default])
      · simp only [recordViolation, findOrCreatePenalty, hi]
        exact (find?_modify_of_disjoint hi (fun _ => isFor_violate _ _)
          (isFor_eq_false_of_not_samePair hsame)).trans h

end Searches

section Steps

variable {s : LimiterState} {pid pid' : ℤ} {name name' : List UInt8}

/-- A look into the penalty box leaves the buckets and the number of entries. -/
theorem isInPenaltyBox_frame (limits : ServiceLimits) (pid : ℤ) (name : List UInt8)
    (now : ℤ) : (isInPenaltyBox limits pid name now).1.buckets = limits.buckets ∧
      (isInPenaltyBox limits pid name now).1.penalties.length = limits.penalties.length := by
  unfold isInPenaltyBox
  cases limits.penalties.findIdx? (·.isFor pid name) with
  | none => exact ⟨rfl, rfl⟩
  | some i =>
      dsimp only
      split_ifs
      · exact ⟨rfl, rfl⟩
      · exact ⟨rfl, rfl⟩
      · exact ⟨rfl, List.length_modify _ _ _⟩

theorem entryFor_takeServiceToken (limits : ServiceLimits) (now : ℤ) :
    entryFor (takeServiceToken limits pid' name' now).1 pid name =
      if bucketEmpty limits pid' name' then
        entryFor (recordViolation limits pid' name' now) pid name
      else entryFor limits pid name := by
  unfold takeServiceToken bucketEmpty
  cases limits.buckets.findIdx? (·.isFor pid' name') with
  | none => rfl
  | some i =>
      simp only [decide_eq_true_eq]
      split_ifs
      · rfl
      · rfl

theorem entryFor_check (s : LimiterState) (pid' : ℤ) (name' : List UInt8) (mono : ℚ)
    (banNow violationNow : ℤ) :
    entryFor (limiterStep s
        (.check pid' (some name') mono banNow violationNow)).serviceLimits pid name =
      if processDenied s pid' mono then
        entryFor (recordViolation s.serviceLimits pid' name' violationNow) pid name
      else
        let limits := (isInPenaltyBox s.serviceLimits pid' name' banNow).1
        if (rateDenial s (.check pid' (some name') mono banNow violationNow)).isSome then
          entryFor (recordViolation limits pid' name' violationNow) pid name
        else entryFor limits pid name := by
  have hbuckets : bucketEmpty (isInPenaltyBox s.serviceLimits pid' name' banNow).1 pid' name' =
      bucketEmpty s.serviceLimits pid' name' := by
    simp only [bucketEmpty, (isInPenaltyBox_frame _ _ _ _).1]
  cases hproc : processDenied s pid' mono with
  | true =>
      have hrc : (smRateLimitCheck s.rateLimiter pid' mono).2 ≠ 0 := by
        simpa [processDenied] using hproc
      simp [limiterStep, smRatelimitCheckExtended, hrc]
  | false =>
      have hrc : (smRateLimitCheck s.rateLimiter pid' mono).2 = 0 := by
        simpa [processDenied] using hproc
      cases hban : (isInPenaltyBox s.serviceLimits pid' name' banNow).2 with
      | true => simp [limiterStep, smRatelimitCheckExtended, rateDenial, hproc, hrc, hban]
      | false =>
          simp only [limiterStep, smRatelimitCheckExtended, rateDenial, hproc, hrc, hban]
          rw [← hbuckets]
          simp [entryFor_takeServiceToken]

theorem rateDenial_check_of_isSome {mono : ℚ} {banNow violationNow : ℤ}
    (h : (rateDenial s (.check pid' (some name') mono banNow violationNow)).isSome = true) :
    rateDenial s (.check pid' (some name') mono banNow violationNow) =
      some (pid', name', violationNow) := by
  simp only [rateDenial] at h ⊢
  split_ifs at h ⊢ <;> simp_all

theorem entryFor_limiterStep_of_no_check {ev : LimiterEvent}
    (hev : ∀ pid' name' mono banNow violationNow,
      ev ≠ .check pid' (some name') mono banNow violationNow) :
    entryFor (limiterStep s ev).serviceLimits pid name =
      (entryFor s.serviceLimits pid name).map (entryEffect s pid name ev) := by
  cases ev with
  | check pid' serviceName mono banNow violationNow =>
      cases serviceName with
      | none => exact Option.map_id'.symm
      | some name' => exact absurd rfl (hev pid' name' mono banNow violationNow)
  | setServiceLimit name' pid' capacity =>
      refine Eq.trans ?_ Option.map_id'.symm
      simp only [limiterStep, smRatelimitSetServiceLimit]
      cases s.serviceLimits.buckets.findIdx? (·.isFor pid' name') with
      | none => split_ifs <;> rfl
      | some i => rfl
  | resetService name' =>
      refine find?_map_of_congr fun p => ?_
      split_ifs
      · rfl
      · rfl
  | isBanned pid' serviceName now =>
      cases serviceName with
      | none => exact Option.map_id'.symm
      | some name' => exact entryFor_isInPenaltyBox s.serviceLimits now

theorem entryFor_limiterStep_of_some {p : PenaltyEntry}
    (h : entryFor s.serviceLimits pid name = some p) (ev : LimiterEvent) :
    entryFor (limiterStep s ev).serviceLimits pid name =
      some (entryEffect s pid name ev p) := by
  by_cases hev : ∃ pid' name' mono banNow violationNow,
      ev = .check pid' (some name') mono banNow violationNow
  · obtain ⟨pid', name', mono, banNow, violationNow, rfl⟩ := hev
    have hlook : entryFor (isInPenaltyBox s.serviceLimits pid' name' banNow).1 pid name =
        some (if samePair pid pid' name name' then p.expire banNow else p) := by
      rw [entryFor_isInPenaltyBox, h, Option.map_some]
    rw [entryFor_check]
    unfold entryEffect
    by_cases hproc : processDenied s pid' mono = true
    · have hdenial : rateDenial s (.check pid' (some name') mono banNow violationNow) =
          some (pid', name', violationNow) := by simp [rateDenial, hproc]
      rw [if_pos hproc, entryFor_recordViolation_of_some h]
      simp [hproc, hdenial]
    · rw [if_neg hproc]
      dsimp only
      split_ifs with hdenial hsame hsame
      · rw [entryFor_recordViolation_of_some hlook, if_pos hsame, if_pos hsame]
      · rw [entryFor_recordViolation_of_some hlook, if_neg hsame, if_neg hsame]
      · rw [hlook, if_pos hsame]
      · rw [hlook, if_neg hsame]
  · push Not at hev
    rw [entryFor_limiterStep_of_no_check hev, h, Option.map_some]

theorem entryFor_limiterStep_of_none (h : entryFor s.serviceLimits pid name = none)
    (ev : LimiterEvent) :
    entryFor (limiterStep s ev).serviceLimits pid name = none ∨
      ∃ pid' name' now, rateDenial s ev = some (pid', name', now) ∧
        s.serviceLimits.penalties.length < maxServiceBuckets ∧
        (PenaltyEntry.fresh pid' name').isFor pid name = true ∧
        entryFor (limiterStep s ev).serviceLimits pid name =
          some ((PenaltyEntry.fresh pid' name').violate now) := by
  by_cases hev : ∃ pid' name' mono banNow violationNow,
      ev = .check pid' (some name') mono banNow violationNow
  · obtain ⟨pid', name', mono, banNow, violationNow, rfl⟩ := hev
    have hlook : entryFor (isInPenaltyBox s.serviceLimits pid' name' banNow).1 pid name =
        none := by
      rw [entryFor_isInPenaltyBox, h, Option.map_none]
    rw [entryFor_check]
    by_cases hproc : processDenied s pid' mono = true
    · rw [if_pos hproc]
      rcases entryFor_recordViolation_of_none h pid' name' violationNow with
        hnone | ⟨hroom, hfor, hnew⟩
      · exact .inl hnone
      · exact .inr ⟨pid', name', violationNow, by simp [rateDenial, hproc], hroom, hfor, hnew⟩
    · rw [if_neg hproc]
      dsimp only
      split_ifs with hdenial
      · have hrate := rateDenial_check_of_isSome hdenial
        rcases entryFor_recordViolation_of_none hlook pid' name' violationNow with
          hnone | ⟨hroom, hfor, hnew⟩
        · exact .inl hnone
        · rw [(isInPenaltyBox_frame _ _ _ _).2] at hroom
          exact .inr ⟨pid', name', violationNow, hrate, hroom, hfor, hnew⟩
      · exact .inl hlook
  · push Not at hev
    left
    rw [entryFor_limiterStep_of_no_check hev, h, Option.map_none]

theorem check_of_pairDenial {ev : LimiterEvent} {now : ℤ}
    (h : pairDenial pid name s ev = some now) :
    ∃ name' mono banNow, ev = .check pid (some name') mono banNow now ∧
      strcmpEq name' name = true ∧ rateDenial s ev = some (pid, name', now) := by
  unfold pairDenial at h
  cases hdenial : rateDenial s ev with
  | none => simp [hdenial] at h
  | some d =>
      obtain ⟨pid', name', now'⟩ := d
      simp only [hdenial] at h
      split_ifs at h with hpair
      obtain ⟨rfl, hcmp⟩ := hpair
      cases h
      cases ev with
      | check pid'' serviceName mono banNow violationNow =>
          cases serviceName with
          | none => simp [rateDenial] at hdenial
          | some name'' =>
              have hrate := rateDenial_check_of_isSome (by rw [hdenial]; rfl)
              rw [hrate] at hdenial
              cases hdenial
              exact ⟨name', mono, banNow, rfl, hcmp, rfl⟩
      | setServiceLimit name'' pid'' capacity => simp [rateDenial] at hdenial
      | resetService name'' => simp [rateDenial] at hdenial
      | isBanned pid'' serviceName now' => simp [rateDenial] at hdenial

theorem pairDenial_mem_clockReadings {ev : LimiterEvent} {now : ℤ}
    (h : pairDenial pid name s ev = some now) : now ∈ clockReadings ev := by
  obtain ⟨name', mono, banNow, rfl, -, -⟩ := check_of_pairDenial h
  simp [clockReadings]

end Steps

end ServiceManager

end Shinigami
