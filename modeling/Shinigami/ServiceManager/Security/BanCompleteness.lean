import Shinigami.ServiceManager.Security.PenaltyBox

/-!
# When denials lead to a ban

A denial that is one of `penaltyThreshold` within the last `penaltyWindowSecs`
puts its pair into the penalty box for `penaltyDurationSecs` exactly when it meets
the counter of the pair one short of the threshold (`bannedUntil_after_denial_iff`). From
then on the deadline of the ban is never taken back before it has passed.
-/

namespace Shinigami

namespace ServiceManager

open CString

/-- The entry of the pair as `_record_violation` meets it in a check. -/
def entryMet (pid : ℤ) (name : List UInt8) (s : LimiterState) :
    LimiterEvent → Option PenaltyEntry
  | .check _ (some _) mono banNow _ =>
      (entryFor s.serviceLimits pid name).map fun p =>
        if processDenied s pid mono then p else p.expire banNow
  | _ => none

/-- A denial at `now` meets an entry of the pair whose open window already counts all
but one of the violations, or one that is banned for long enough already. -/
def MeetsFullWindow (pid : ℤ) (name : List UInt8) (s : LimiterState) (ev : LimiterEvent)
    (now : ℤ) : Prop :=
  ∃ p ∈ entryMet pid name s ev,
    (p.windowStart ≠ 0 ∧ now - p.windowStart ≤ penaltyWindowSecs ∧
        penaltyThreshold ≤ p.violationCount + 1 ∨
      now + penaltyDurationSecs ≤ p.banUntil)

/-- After `before` the call `ev` is denied at `now`, the last of `penaltyThreshold`
denials of the pair within the last `penaltyWindowSecs`. -/
def IsLastStrike (pid : ℤ) (name : List UInt8) (s : LimiterState)
    (before : List LimiterEvent) (ev : LimiterEvent) (now : ℤ) : Prop :=
  pairDenial pid name (run limiterStep s before) ev = some now ∧
    penaltyThreshold ≤
      ((runTrace limiterStep (pairDenial pid name) s (before ++ [ev])).filter
        fun d => now - penaltyWindowSecs ≤ d ∧ d ≤ now).length

instance (pid : ℤ) (name : List UInt8) (s : LimiterState) (ev : LimiterEvent) (now : ℤ) :
    Decidable (MeetsFullWindow pid name s ev now) :=
  inferInstanceAs (Decidable (∃ p ∈ entryMet pid name s ev, _))

instance (pid : ℤ) (name : List UInt8) (s : LimiterState) (before : List LimiterEvent)
    (ev : LimiterEvent) (now : ℤ) : Decidable (IsLastStrike pid name s before ev now) :=
  inferInstanceAs (Decidable (_ ∧ _))

/-- The result of `sm_ratelimit_check_extended`. -/
def checkResult (s : LimiterState) (pid : ℤ) (name : List UInt8) (mono : ℚ)
    (banNow violationNow : ℤ) : ℤ :=
  (smRatelimitCheckExtended s.rateLimiter s.serviceLimits pid (some name) mono banNow
    violationNow).2.2

/-- After `penaltyThreshold` denials of the pair within `penaltyWindowSecs`, every
check of it in the next `penaltyDurationSecs` is denied. -/
def StrikesPunished (pid : ℤ) (name : List UInt8) (s : LimiterState)
    (evs : List LimiterEvent) : Prop :=
  ∀ before ev mid rest name' mono banNow violationNow now,
    evs = before ++ ev :: (mid ++ .check pid (some name') mono banNow violationNow :: rest) →
    IsLastStrike pid name s before ev now →
    strcmpEq name' name = true →
    banNow < now + penaltyDurationSecs →
    checkResult (run limiterStep s (before ++ ev :: mid)) pid name' mono banNow
      violationNow = -1

/-- Every last strike of the run meets a full window, on a clock that is past the
first minute before the epoch. -/
def LastStrikesMeet (pid : ℤ) (name : List UInt8) (s : LimiterState)
    (evs : List LimiterEvent) : Prop :=
  ∀ before ev after now, evs = before ++ ev :: after →
    IsLastStrike pid name s before ev now →
    0 < now + penaltyDurationSecs ∧
      MeetsFullWindow pid name (run limiterStep s before) ev now

theorem lastStrikesMeet_iff {pid : ℤ} {name : List UInt8} {s : LimiterState}
    {evs : List LimiterEvent} : LastStrikesMeet pid name s evs ↔
      ∀ i < evs.length, ∀ ev ∈ evs[i]?,
        ∀ now ∈ pairDenial pid name (run limiterStep s (evs.take i)) ev,
          IsLastStrike pid name s (evs.take i) ev now →
            0 < now + penaltyDurationSecs ∧
              MeetsFullWindow pid name (run limiterStep s (evs.take i)) ev now := by
  constructor
  · intro h i _ ev hev now _ hstrike
    have hsplit : evs = evs.take i ++ ev :: evs.drop (i + 1) := by
      obtain ⟨hi, rfl⟩ := List.getElem?_eq_some_iff.mp hev
      rw [← List.drop_eq_getElem_cons hi, List.take_append_drop]
    exact h _ ev _ now hsplit hstrike
  · rintro h before ev after now rfl hstrike
    have hmoment := h before.length (by simp) ev (by simp) now
    rw [List.take_left] at hmoment
    exact hmoment hstrike.1 hstrike

instance (pid : ℤ) (name : List UInt8) (s : LimiterState) (evs : List LimiterEvent) :
    Decidable (LastStrikesMeet pid name s evs) :=
  decidable_of_iff _ lastStrikesMeet_iff.symm

def isReset : LimiterEvent → Bool
  | .resetService _ => true
  | _ => false

section Deadline

variable {pid pid' : ℤ} {name name' : List UInt8} {s : LimiterState} {p : PenaltyEntry}
  {b now : ℤ}

theorem samePair_of_strcmpEq (h : strcmpEq name' name = true) :
    samePair pid pid name name' = true := by
  rw [samePair_iff, strcmpEq_iff.mp h]
  exact ⟨rfl, rfl⟩

theorem le_banUntil_violate (hp : b ≤ p.banUntil) (hnow : b ≤ now + penaltyDurationSecs) :
    b ≤ (p.violate now).banUntil := by
  rcases p.violate_cases now with ⟨-, hnew⟩ | ⟨-, -, ⟨-, hnew⟩ | ⟨-, hnew⟩⟩
  · rw [hnew]
    exact hp
  · rw [hnew]
    exact hp
  · rw [hnew]
    exact hnow

theorem expire_eq_self (h : now < p.banUntil) : p.expire now = p := by
  simp [PenaltyEntry.expire, h]

/-- The pair is banned until `b` at least. -/
def BannedUntil (pid : ℤ) (name : List UInt8) (b : ℤ) (s : LimiterState) : Prop :=
  ∃ p, entryFor s.serviceLimits pid name = some p ∧ b ≤ p.banUntil

theorem bannedUntil_step {u : ℤ} (ev : LimiterEvent)
    (hev : isReset ev = false ∧
      ∀ r ∈ clockReadings ev, u ≤ r ∧ r < u + penaltyDurationSecs)
    (h : BannedUntil pid name (u + penaltyDurationSecs) s) :
    BannedUntil pid name (u + penaltyDurationSecs) (limiterStep s ev) := by
  obtain ⟨p, hentry, hp⟩ := h
  refine ⟨_, entryFor_limiterStep_of_some hentry ev, ?_⟩
  cases ev with
  | check pid' serviceName mono banNow violationNow =>
      cases serviceName with
      | none => exact hp
      | some name' =>
          have hban := hev.2 banNow (by simp [clockReadings])
          have hviolation := hev.2 violationNow (by simp [clockReadings])
          have hlook : p.expire banNow = p := expire_eq_self (by omega)
          simp only [entryEffect, hlook, ite_self]
          split_ifs
          · exact le_banUntil_violate hp (by omega)
          · exact hp
          · exact hp
  | setServiceLimit name' pid' capacity => exact hp
  | resetService name' => simp [isReset] at hev
  | isBanned pid' serviceName now' =>
      cases serviceName with
      | none => exact hp
      | some name' =>
          have hban := hev.2 now' (by simp [clockReadings])
          have hlook : p.expire now' = p := expire_eq_self (by omega)
          simp only [entryEffect, hlook, ite_self]
          exact hp

theorem checkResult_of_bannedUntil (h : BannedUntil pid name b s) (hb : 0 < b)
    (hname : strcmpEq name' name = true) {mono : ℚ} {banNow violationNow : ℤ}
    (hban : banNow < b) : checkResult s pid name' mono banNow violationNow = -1 := by
  obtain ⟨p, hentry, hp⟩ := h
  rw [← entryFor_eq_of_samePair (samePair_of_strcmpEq hname)] at hentry
  have hbox : (isInPenaltyBox s.serviceLimits pid name' banNow).2 = true :=
    (isInPenaltyBox_snd _ _).mpr ⟨p, hentry, by omega, by omega⟩
  simp only [checkResult, smRatelimitCheckExtended]
  split_ifs with hproc
  · rfl
  · rfl

theorem entryFor_after_denial {ev : LimiterEvent}
    (h : pairDenial pid name s ev = some now) {p : PenaltyEntry}
    (hmet : entryMet pid name s ev = some p) :
    entryFor (limiterStep s ev).serviceLimits pid name = some (p.violate now) := by
  obtain ⟨name', mono, banNow, rfl, hcmp, hdenial⟩ := check_of_pairDenial h
  obtain ⟨q, hq, rfl⟩ := Option.map_eq_some_iff.mp hmet
  rw [entryFor_limiterStep_of_some hq]
  simp only [entryEffect, samePair_of_strcmpEq hcmp, if_true, hdenial, Option.isSome_some]

theorem banUntil_after_first_denial {ev : LimiterEvent}
    (h : pairDenial pid name s ev = some now) (hmet : entryMet pid name s ev = none)
    (hafter : entryFor (limiterStep s ev).serviceLimits pid name = some p) :
    p.banUntil = 0 := by
  obtain ⟨name', mono, banNow, rfl, hcmp, hdenial⟩ := check_of_pairDenial h
  have hnone : entryFor s.serviceLimits pid name = none := by
    simpa [entryMet] using hmet
  rcases entryFor_limiterStep_of_none hnone (.check pid (some name') mono banNow now) with
    hstill | ⟨pid'', name'', now'', -, -, -, hnew⟩
  · rw [hstill] at hafter
    cases hafter
  · rw [hnew] at hafter
    cases hafter
    simp [PenaltyEntry.violate, PenaltyEntry.fresh, penaltyThreshold]

/-- The denial at `now` bans the pair for the whole of the next `penaltyDurationSecs`
exactly when it meets a full window. -/
theorem bannedUntil_after_denial_iff {ev : LimiterEvent}
    (h : pairDenial pid name s ev = some now) (hpos : 0 < now + penaltyDurationSecs) :
    BannedUntil pid name (now + penaltyDurationSecs) (limiterStep s ev) ↔
      MeetsFullWindow pid name s ev now := by
  constructor
  · rintro ⟨p, hafter, hp⟩
    cases hmet : entryMet pid name s ev with
    | none =>
        have hzero := banUntil_after_first_denial h hmet hafter
        omega
    | some q =>
        rw [entryFor_after_denial h hmet, Option.some_inj] at hafter
        subst hafter
        refine ⟨q, hmet, ?_⟩
        rcases q.violate_cases now with ⟨-, hnew⟩ | ⟨hopen, hrecent, ⟨-, hnew⟩ | ⟨hfull, -⟩⟩
        · rw [hnew] at hp
          exact .inr hp
        · rw [hnew] at hp
          exact .inr hp
        · exact .inl ⟨hopen, hrecent, hfull⟩
  · rintro ⟨q, hmet, hfull⟩
    refine ⟨_, entryFor_after_denial h hmet, ?_⟩
    rcases hfull with ⟨hopen, hrecent, hfull⟩ | hbanned
    · rcases q.violate_cases now with ⟨hclosed, -⟩ | ⟨-, -, ⟨hfew, -⟩ | ⟨-, hnew⟩⟩
      · omega
      · omega
      · rw [hnew]
    · exact le_banUntil_violate hbanned le_rfl

end Deadline

/-- In every run without resets whose last strikes all meet a full window, the denials
are punished. -/
theorem strikesPunished_run (rl : RateLimiter) {pid : ℤ} {name : List UInt8}
    {evs : List LimiterEvent} (hresets : ∀ ev ∈ evs, isReset ev = false)
    (hclock : ClockMonotone evs)
    (hmeet : LastStrikesMeet pid name ⟨rl, smRatelimitInit⟩ evs) :
    StrikesPunished pid name ⟨rl, smRatelimitInit⟩ evs := by
  intro before ev mid rest name' mono banNow violationNow now hevs hstrike hname hban
  obtain ⟨hpos, hfull⟩ := hmeet before ev _ now hevs hstrike
  have hbanned := (bannedUntil_after_denial_iff hstrike.1 hpos).mpr hfull
  have hstart := pairDenial_mem_clockReadings hstrike.1
  have hbetween : ∀ ev' ∈ mid, isReset ev' = false ∧
      ∀ r ∈ clockReadings ev', now ≤ r ∧ r < now + penaltyDurationSecs := by
    intro ev' hmem
    refine ⟨hresets ev' (by rw [hevs]; simp [hmem]), fun r hr => ?_⟩
    rw [hevs, ClockMonotone, List.flatMap_append, List.pairwise_append, List.flatMap_cons,
      List.pairwise_append, List.flatMap_append, List.pairwise_append] at hclock
    obtain ⟨-, ⟨-, ⟨-, -, hmid⟩, hfrom⟩, -⟩ := hclock
    have hrmid : r ∈ mid.flatMap clockReadings := List.mem_flatMap.mpr ⟨ev', hmem, hr⟩
    have hle := hfrom now hstart r (List.mem_append_left _ hrmid)
    have hge := hmid r hrmid banNow (by simp [clockReadings])
    exact ⟨hle, by omega⟩
  rw [run_append, run_cons]
  refine checkResult_of_bannedUntil ?_ hpos hname hban
  exact run_invariant (I := BannedUntil pid name (now + penaltyDurationSecs))
    (fun _ ev' => bannedUntil_step ev') hbanned hbetween

/-- Process 7 uses up its ten tokens and is denied five times as `a`. -/
theorem strikesPunished_run_five :
    StrikesPunished 7 (ascii ['a']) ⟨smRateLimitInit 0, smRatelimitInit⟩
      (List.replicate 10 (.check 7 none 0 100 100) ++
        List.replicate 5 (.check 7 (some (ascii ['a'])) 0 110 110) ++
          [.check 7 (some (ascii ['a'])) 60 169 169]) :=
  strikesPunished_run _ (by decide) (by decide +kernel) (by decide +kernel)

/-- A name of 64 characters is denied five times at one moment; a second later, when
the process has tokens again, it is let in. -/
theorem unterminated_name_not_punished :
    ClockMonotone
        (List.replicate 10 (.check 7 none 0 100 100) ++
          List.replicate 5 (.check 7 (some (List.replicate 64 97)) 0 100 100) ++
            [.check 7 (some (List.replicate 64 97)) 1 101 101]) ∧
      ¬StrikesPunished 7 (List.replicate 64 97) ⟨smRateLimitInit 0, smRatelimitInit⟩
        (List.replicate 10 (.check 7 none 0 100 100) ++
          List.replicate 5 (.check 7 (some (List.replicate 64 97)) 0 100 100) ++
            [.check 7 (some (List.replicate 64 97)) 1 101 101]) := by
  refine ⟨by decide +kernel, fun h => ?_⟩
  have hresult := h
    (List.replicate 10 (.check 7 none 0 100 100) ++
      List.replicate 4 (.check 7 (some (List.replicate 64 97)) 0 100 100))
    (.check 7 (some (List.replicate 64 97)) 0 100 100) [] [] (List.replicate 64 97) 1 101 101
    100 rfl (by decide +kernel) (by decide +kernel) (by decide)
  exact absurd hresult (by decide +kernel)

end ServiceManager

end Shinigami
