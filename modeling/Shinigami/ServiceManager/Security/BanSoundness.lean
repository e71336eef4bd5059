import Mathlib.Data.List.Induction
import Shinigami.ServiceManager.Security.PenaltyBox

/-!
# Every ban is earned

A pair that is in the penalty box has been denied often enough, in one window,
recently, and has not been reset since. The counters of its entry are read as a
summary of the recorded denials (`StrikesCounted`), which every call keeps
(`StrikesCounted.step`). The summary starts wrong only when the entry that the
searches take for the one of the pair was made for another, longer name.
-/

namespace Shinigami

namespace ServiceManager

open CString

def recordedDenial (pid : ℤ) (name : List UInt8) (s : LimiterState) (ev : LimiterEvent) :
    Option ℤ :=
  if (findOrCreatePenalty s.serviceLimits.penalties pid name).isSome then
    pairDenial pid name s ev
  else none

def isResetOf (name : List UInt8) : LimiterEvent → Bool
  | .resetService name' => strcmpEq name' name
  | _ => false

/-- At `u` a denial of the pair was recorded that was one of `penaltyThreshold` within
the `penaltyWindowSecs` up to it, and the service has not been reset since. -/
def StrikesAt (pid : ℤ) (name : List UInt8) (s : LimiterState) (evs : List LimiterEvent)
    (u : ℤ) : Prop :=
  ∃ before ev after, evs = before ++ ev :: after ∧
    recordedDenial pid name (run limiterStep s before) ev = some u ∧
    (∀ ev' ∈ after, isResetOf name ev' = false) ∧
    penaltyThreshold ≤
      ((runTrace limiterStep (recordedDenial pid name) s (before ++ [ev])).filter
        fun d => u - penaltyWindowSecs ≤ d ∧ d ≤ u).length

/-- The call makes an entry for the process that the searches take for the one of the
pair, while it records a violation of another name. -/
def createsForeign (pid : ℤ) (name : List UInt8) (s : LimiterState) (ev : LimiterEvent) :
    Bool :=
  match rateDenial s ev with
  | none => false
  | some (pid', name', _) =>
      pid' == pid && !strcmpEq name' name &&
        strcmpEq (strncpyField limiterNameSize name') name &&
        (entryFor s.serviceLimits pid name).isNone &&
        decide (s.serviceLimits.penalties.length < maxServiceBuckets)

/-- The counters of an entry of the pair, as a summary of the recorded denials. -/
structure StrikesCounted (pid : ℤ) (name : List UInt8) (s : LimiterState)
    (evs : List LimiterEvent) (p : PenaltyEntry) : Prop where
  window : p.windowStart ≠ 0 →
    p.windowStart ∈ runTrace limiterStep (recordedDenial pid name) s evs ∧
      p.violationCount ≤ ((runTrace limiterStep (recordedDenial pid name) s evs).filter
        fun d => p.windowStart ≤ d).length
  ban : p.banUntil ≠ 0 →
    ∃ u, StrikesAt pid name s evs u ∧ p.banUntil = u + penaltyDurationSecs

section Counting

variable {pid : ℤ} {name : List UInt8} {s : LimiterState} {evs : List LimiterEvent}
  {ev : LimiterEvent} {p : PenaltyEntry}

theorem StrikesAt.concat {u : ℤ} (h : StrikesAt pid name s evs u)
    (hev : isResetOf name ev = false) : StrikesAt pid name s (evs ++ [ev]) u := by
  obtain ⟨before, ev', after, rfl, hdenial, hafter, hcount⟩ := h
  refine ⟨before, ev', after ++ [ev], by simp, hdenial, ?_, hcount⟩
  intro ev'' hmem
  rw [List.mem_append, List.mem_singleton] at hmem
  rcases hmem with hmem | rfl
  · exact hafter ev'' hmem
  · exact hev

/-- A call that is no reset leaves the summary of an unchanged entry right. -/
theorem StrikesCounted.concat (h : StrikesCounted pid name s evs p)
    (hev : isResetOf name ev = false) : StrikesCounted pid name s (evs ++ [ev]) p where
  window := by
    intro hopen
    obtain ⟨hmem, hcount⟩ := h.window hopen
    rw [runTrace_concat, List.filter_append, List.length_append]
    exact ⟨List.mem_append_left _ hmem, Nat.le_add_right_of_le hcount⟩
  ban := by
    intro hban
    obtain ⟨u, hstrikes, hu⟩ := h.ban hban
    exact ⟨u, hstrikes.concat hev, hu⟩

theorem strikesCounted_clear (pid : ℤ) (name : List UInt8) (s : LimiterState)
    (evs : List LimiterEvent) (p : PenaltyEntry) : StrikesCounted pid name s evs p.clear where
  window := fun hopen => absurd rfl hopen
  ban := fun hban => absurd rfl hban

theorem strikesCounted_fresh (pid : ℤ) (name : List UInt8) (s : LimiterState)
    (evs : List LimiterEvent) (pid' : ℤ) (name' : List UInt8) :
    StrikesCounted pid name s evs (PenaltyEntry.fresh pid' name') where
  window := fun hopen => absurd rfl hopen
  ban := fun hban => absurd rfl hban

theorem StrikesCounted.expire (h : StrikesCounted pid name s evs p) (now : ℤ) :
    StrikesCounted pid name s evs (p.expire now) := by
  unfold PenaltyEntry.expire
  split_ifs
  · exact strikesCounted_clear pid name s evs p
  · exact h

/-- A recorded denial is counted, and when it fills the window the ban is earned. -/
theorem StrikesCounted.violate (h : StrikesCounted pid name s evs p) {now : ℤ}
    (hdenial : recordedDenial pid name (run limiterStep s evs) ev = some now)
    (hev : isResetOf name ev = false)
    (hpast : ∀ d ∈ runTrace limiterStep (recordedDenial pid name) s evs, d ≤ now) :
    StrikesCounted pid name s (evs ++ [ev]) (p.violate now) := by
  have htrace : runTrace limiterStep (recordedDenial pid name) s (evs ++ [ev]) =
      runTrace limiterStep (recordedDenial pid name) s evs ++ [now] := by
    rw [runTrace_concat, hdenial, Option.toList_some]
  rcases p.violate_cases now with ⟨-, hnew⟩ | ⟨hopen, hrecent, ⟨-, hnew⟩ | ⟨hfull, hnew⟩⟩
  · rw [hnew]
    refine ⟨fun _ => ?_, (h.concat hev).ban⟩
    rw [htrace]
    exact ⟨by simp, by simp [List.filter_append]⟩
  · rw [hnew]
    refine ⟨fun _ => ?_, (h.concat hev).ban⟩
    obtain ⟨hmem, hcount⟩ := h.window hopen
    rw [htrace]
    refine ⟨List.mem_append_left _ hmem, ?_⟩
    simpa [List.filter_append, hpast _ hmem] using hcount
  · rw [hnew]
    refine ⟨fun hzero => absurd rfl hzero, fun _ => ⟨now, ?_, rfl⟩⟩
    obtain ⟨hmem, hcount⟩ := h.window hopen
    refine ⟨evs, ev, [], rfl, hdenial, by simp, ?_⟩
    have hsub : ((runTrace limiterStep (recordedDenial pid name) s evs).filter
          fun d => p.windowStart ≤ d).length ≤
        ((runTrace limiterStep (recordedDenial pid name) s evs).filter
          fun d => now - penaltyWindowSecs ≤ d ∧ d ≤ now).length := by
      rw [← List.countP_eq_length_filter, ← List.countP_eq_length_filter]
      refine List.countP_mono_left fun d hd hstart => ?_
      rw [decide_eq_true_eq] at hstart ⊢
      exact ⟨by omega, hpast d hd⟩
    have hnow : ([now].filter fun d => now - penaltyWindowSecs ≤ d ∧ d ≤ now).length = 1 := by
      simp [penaltyWindowSecs]
    rw [htrace, List.filter_append, List.length_append, hnow]
    omega

end Counting

section Soundness

variable {pid : ℤ} {name : List UInt8} {s : LimiterState}

theorem samePair_iff_strcmpEq (hname : (cstr name).length < limiterNameSize) (pid' : ℤ)
    (name' : List UInt8) :
    samePair pid pid' name name' = true ↔ pid' = pid ∧ strcmpEq name' name = true := by
  rw [samePair_iff, strcmpEq_iff]
  have htake : (cstr name).take limiterNameSize = cstr name :=
    List.take_of_length_le hname.le
  rw [htake]
  refine and_congr_right fun _ => ⟨fun h => ?_, fun h => by rw [h, htake]⟩
  have hlen := congrArg List.length h
  rw [List.length_take] at hlen
  rwa [List.take_of_length_le (by omega)] at h

theorem strcmpEq_serviceName (hname : (cstr name).length < limiterNameSize)
    {p : PenaltyEntry} (h : p.isFor pid name = true) :
    p.pid = pid ∧ strcmpEq p.serviceName name = true := by
  rw [PenaltyEntry.isFor, Bool.and_eq_true, beq_iff_eq] at h
  apply (samePair_iff_strcmpEq hname p.pid p.serviceName).mp
  rw [samePair, Bool.and_eq_true, beq_iff_eq]
  exact h

/-- `_find_or_create_penalty` finds the entry of a pair or makes one when there is
room. -/
theorem findOrCreatePenalty_isSome {limits : ServiceLimits}
    (h : entryFor limits pid name ≠ none ∨ limits.penalties.length < maxServiceBuckets) :
    (findOrCreatePenalty limits.penalties pid name).isSome = true := by
  unfold findOrCreatePenalty
  cases hi : limits.penalties.findIdx? (·.isFor pid name) with
  | none =>
      have hroom := h.resolve_left fun hsome => hsome (find?_eq_none_of_findIdx? hi)
      simp [Nat.not_le.mpr hroom]
  | some i => rfl

theorem recordedDenial_of_rateDenial {ev : LimiterEvent} {name' : List UInt8} {now : ℤ}
    (h : rateDenial s ev = some (pid, name', now)) (hname : strcmpEq name' name = true)
    (hentry : entryFor s.serviceLimits pid name ≠ none ∨
      s.serviceLimits.penalties.length < maxServiceBuckets) :
    recordedDenial pid name s ev = some now := by
  simp [recordedDenial, pairDenial, h, hname, findOrCreatePenalty_isSome hentry]

theorem recordedDenial_mem_clockReadings {ev : LimiterEvent} {u : ℤ}
    (h : recordedDenial pid name s ev = some u) : u ∈ clockReadings ev := by
  unfold recordedDenial at h
  split_ifs at h
  exact pairDenial_mem_clockReadings h

/-- Denials recorded before an event are not later than its clock readings. -/
theorem recorded_le_of_clockMonotone {evs : List LimiterEvent} {ev : LimiterEvent}
    (hclock : ClockMonotone (evs ++ [ev])) {now : ℤ} (hnow : now ∈ clockReadings ev) :
    ∀ d ∈ runTrace limiterStep (recordedDenial pid name) s evs, d ≤ now := by
  intro d hd
  obtain ⟨s', ev', hmem, hdenial⟩ := exists_of_mem_runTrace hd
  rw [ClockMonotone, List.flatMap_append, List.pairwise_append] at hclock
  refine hclock.2.2 d ?_ now (by simpa using hnow)
  exact List.mem_flatMap.mpr ⟨ev', hmem, recordedDenial_mem_clockReadings hdenial⟩

/-- A check of the pair looks into the penalty box and counts its denial. -/
theorem StrikesCounted.check (hname : (cstr name).length < limiterNameSize)
    {evs : List LimiterEvent} {pid' : ℤ} {name' : List UInt8} {mono : ℚ}
    {banNow violationNow : ℤ}
    (hclock : ClockMonotone (evs ++ [.check pid' (some name') mono banNow violationNow]))
    (hsame : samePair pid pid' name name' = true) {p : PenaltyEntry}
    (hentry : entryFor (run limiterStep s evs).serviceLimits pid name = some p)
    (h : StrikesCounted pid name s evs p) :
    StrikesCounted pid name s (evs ++ [.check pid' (some name') mono banNow violationNow])
      (entryEffect (run limiterStep s evs) pid name
        (.check pid' (some name') mono banNow violationNow) p) := by
  obtain ⟨rfl, hcmp⟩ := (samePair_iff_strcmpEq hname pid' name').mp hsame
  have hlooked : StrikesCounted pid' name s evs
      (if processDenied (run limiterStep s evs) pid' mono then p else p.expire banNow) := by
    split_ifs
    · exact h
    · exact h.expire banNow
  simp only [entryEffect, hsame, if_true]
  generalize (if processDenied (run limiterStep s evs) pid' mono then p
    else p.expire banNow) = q at hlooked ⊢
  split_ifs with hdenial
  · have hrecorded := recordedDenial_of_rateDenial (rateDenial_check_of_isSome hdenial) hcmp
      (.inl (by simp [hentry]))
    exact hlooked.violate hrecorded rfl
      (recorded_le_of_clockMonotone hclock (by simp [clockReadings]))
  · exact hlooked.concat rfl

theorem StrikesCounted.step (hname : (cstr name).length < limiterNameSize)
    {evs : List LimiterEvent} {ev : LimiterEvent} (hclock : ClockMonotone (evs ++ [ev]))
    {p : PenaltyEntry}
    (hentry : entryFor (run limiterStep s evs).serviceLimits pid name = some p)
    (h : StrikesCounted pid name s evs p) :
    StrikesCounted pid name s (evs ++ [ev])
      (entryEffect (run limiterStep s evs) pid name ev p) := by
  cases ev with
  | check pid' serviceName mono banNow violationNow =>
      cases serviceName with
      | none => exact h.concat rfl
      | some name' =>
          by_cases hsame : samePair pid pid' name name' = true
          · exact h.check hname hclock hsame hentry
          · simp only [entryEffect, hsame]
            exact h.concat rfl
  | setServiceLimit name' pid' capacity => exact h.concat rfl
  | resetService name' =>
      dsimp only [entryEffect]
      split_ifs with hcmp
      · exact strikesCounted_clear pid name s _ p
      · apply h.concat
        have hstored := (strcmpEq_serviceName hname (List.find?_some hentry)).2
        rw [strcmpEq_iff] at hcmp hstored
        rw [isResetOf, Bool.eq_false_iff, ne_eq, strcmpEq_iff]
        intro hreset
        exact hcmp (hstored.trans hreset.symm)
  | isBanned pid' serviceName now =>
      cases serviceName with
      | none => exact h.concat rfl
      | some name' =>
          dsimp only [entryEffect]
          split_ifs
          · exact (h.expire now).concat rfl
          · exact h.concat rfl

theorem strikesCounted_new (hname : (cstr name).length < limiterNameSize)
    {evs : List LimiterEvent} {ev : LimiterEvent} (hclock : ClockMonotone (evs ++ [ev]))
    {pid' : ℤ} {name' : List UInt8} {now : ℤ}
    (hdenial : rateDenial (run limiterStep s evs) ev = some (pid', name', now))
    (hroom : (run limiterStep s evs).serviceLimits.penalties.length < maxServiceBuckets)
    (hfor : (PenaltyEntry.fresh pid' name').isFor pid name = true)
    (hnone : entryFor (run limiterStep s evs).serviceLimits pid name = none)
    (hforeign : createsForeign pid name (run limiterStep s evs) ev = false) :
    StrikesCounted pid name s (evs ++ [ev]) ((PenaltyEntry.fresh pid' name').violate now) := by
  obtain ⟨rfl, hstored⟩ := strcmpEq_serviceName hname hfor
  have hcmp : strcmpEq name' name = true := by
    have hstored' : strcmpEq (strncpyField limiterNameSize name') name = true := hstored
    have hnone' : entryFor (run limiterStep s evs).serviceLimits pid' name = none := hnone
    cases hcmp : strcmpEq name' name with
    | true => rfl
    | false =>
        simp [createsForeign, hdenial, hstored', hnone', hroom, hcmp, PenaltyEntry.fresh]
          at hforeign
  have hrecorded := recordedDenial_of_rateDenial hdenial hcmp (.inr hroom)
  refine (strikesCounted_fresh _ name s evs pid' name').violate hrecorded ?_
    (recorded_le_of_clockMonotone hclock (recordedDenial_mem_clockReadings hrecorded))
  cases ev with
  | resetService name'' => simp [rateDenial] at hdenial
  | check pid'' serviceName mono banNow violationNow => rfl
  | setServiceLimit name'' pid'' capacity => rfl
  | isBanned pid'' serviceName now' => rfl

theorem strikesCounted_run (hname : (cstr name).length < limiterNameSize)
    (hinit : s.serviceLimits = smRatelimitInit) {evs : List LimiterEvent}
    (hclock : ClockMonotone evs)
    (hevs : Guarded limiterStep (fun s ev => createsForeign pid name s ev = false) s evs)
    {p : PenaltyEntry}
    (hentry : entryFor (run limiterStep s evs).serviceLimits pid name = some p) :
    StrikesCounted pid name s evs p := by
  induction evs using List.reverseRecOn generalizing p with
  | nil => simp [entryFor, hinit, smRatelimitInit] at hentry
  | append_singleton evs ev ih =>
      rw [guarded_append] at hevs
      have hbefore : ClockMonotone evs := by
        rw [ClockMonotone, List.flatMap_append, List.pairwise_append] at hclock
        exact hclock.1
      rw [run_concat] at hentry
      cases hold : entryFor (run limiterStep s evs).serviceLimits pid name with
      | some q =>
          rw [entryFor_limiterStep_of_some hold, Option.some_inj] at hentry
          subst hentry
          exact (ih hbefore hevs.1 hold).step hname hclock hold
      | none =>
          rcases entryFor_limiterStep_of_none hold ev with
            hnone | ⟨pid', name', now, hdenial, hroom, hfor, hnew⟩
          · rw [hnone] at hentry
            cases hentry
          · rw [hnew, Option.some_inj] at hentry
            subst hentry
            exact strikesCounted_new hname hclock hdenial hroom hfor hold hevs.2.1

/-- In every run in which no denial of a longer name makes the entry of the pair, the
pair is banned only for `penaltyThreshold` denials of its own. -/
theorem banEarned_run (rl : RateLimiter) {pid : ℤ} {name : List UInt8}
    (hname : (cstr name).length < limiterNameSize) {evs : List LimiterEvent}
    (hclock : ClockMonotone evs)
    (hevs : Guarded limiterStep (fun s ev => createsForeign pid name s ev = false)
      ⟨rl, smRatelimitInit⟩ evs) {t : ℤ}
    (hbanned : (smRatelimitIsBanned
      (run limiterStep ⟨rl, smRatelimitInit⟩ evs).serviceLimits pid (some name) t).2 = 1) :
    ∃ u, StrikesAt pid name ⟨rl, smRatelimitInit⟩ evs u ∧ t - penaltyDurationSecs < u := by
  have hbox : (isInPenaltyBox (run limiterStep ⟨rl, smRatelimitInit⟩ evs).serviceLimits
      pid name t).2 = true := by
    by_contra hfree
    simp [smRatelimitIsBanned, hfree] at hbanned
  obtain ⟨p, hentry, hban, ht⟩ := (isInPenaltyBox_snd _ _).mp hbox
  obtain ⟨u, hstrikes, hu⟩ := (strikesCounted_run hname rfl hclock hevs hentry).ban hban
  exact ⟨u, hstrikes, by omega⟩

/-- Process 7 uses up its ten tokens and asks five more times as `a`. -/
theorem banEarned_run_five : ∃ u, StrikesAt 7 (ascii ['a'])
    ⟨smRateLimitInit 0, smRatelimitInit⟩
    (List.replicate 10 (.check 7 none 0 100 100) ++
      List.replicate 5 (.check 7 (some (ascii ['a'])) 0 100 100)) u ∧
    130 - penaltyDurationSecs < u :=
  banEarned_run _ (by decide) (by decide +kernel) (by decide +kernel) (by decide +kernel)

theorem StrikesAt.le_length {evs : List LimiterEvent} {u : ℤ}
    (h : StrikesAt pid name s evs u) :
    penaltyThreshold ≤ (runTrace limiterStep (recordedDenial pid name) s evs).length := by
  obtain ⟨before, ev, after, rfl, -, -, hcount⟩ := h
  have hsplit : before ++ ev :: after = (before ++ [ev]) ++ after := by simp
  rw [hsplit, runTrace_append, List.length_append]
  exact Nat.le_add_right_of_le (hcount.trans (List.length_filter_le _ _))

/-- A denial of the name of 64 characters is the first strike of the pair of process 7
and the name of 63 characters; four denials of that pair then put it in the box. -/
theorem banned_after_four :
    let evs := List.replicate 10 (.check 7 none 0 100 100) ++
      .check 7 (some (List.replicate 64 97)) 0 100 100 ::
        List.replicate 4 (.check 7 (some (List.replicate 63 97)) 0 100 100)
    let s : LimiterState := ⟨smRateLimitInit 0, smRatelimitInit⟩
    ClockMonotone evs ∧
      (smRatelimitIsBanned (run limiterStep s evs).serviceLimits 7
        (some (List.replicate 63 97)) 101).2 = 1 ∧
      ¬∃ u, StrikesAt 7 (List.replicate 63 97) s evs u ∧ 101 - penaltyDurationSecs < u := by
  refine ⟨by decide +kernel, by decide +kernel, ?_⟩
  rintro ⟨u, hstrikes, -⟩
  have hfew : (runTrace limiterStep (recordedDenial 7 (List.replicate 63 97))
      ⟨smRateLimitInit 0, smRatelimitInit⟩
      (List.replicate 10 (.check 7 none 0 100 100) ++
        .check 7 (some (List.replicate 64 97)) 0 100 100 ::
          List.replicate 4 (.check 7 (some (List.replicate 63 97)) 0 100 100))).length = 4 := by
    decide +kernel
  have hmany := hstrikes.le_length
  rw [hfew] at hmany
  exact absurd hmany (by decide)

end Soundness

end ServiceManager

end Shinigami
