import Mathlib.Algebra.Order.Ring.Rat
import Mathlib.Data.Rat.Defs
import Mathlib.Tactic.Ring

/-!
# Health scores

`health_compute_service_score` subtracts penalties from 100 and cuts the result to 0..100 at
the end. The drop rate is an exact rational, and what the conversion of one that is too large
for an `int` gives is a parameter; differences wrap. The counters are unsigned, so a large
penalty wraps as well, and the score of a bad service can be that of a good one:
`scoresCorrect_iff` says when the order is kept.
-/

namespace Shinigami

namespace Monitoring

/-- The fields of `service_metrics_t` that the score reads. -/
structure ServiceCounters where
  restartCount : UInt32
  seccompViolations : UInt32
  hmacFailures : UInt32
  replayAttacks : UInt32
  framesCaptured : UInt64
  framesDropped : UInt64
deriving DecidableEq

/-- `score -= n` for an unsigned `n`. -/
def subUnsigned (score : Int32) (n : UInt32) : Int32 := (score.toUInt32 - n).toInt32

/-- `(int)x`. -/
def convertInt (undefined : ℚ → Int32) (x : ℚ) : Int32 :=
  let n := x.num.tdiv x.den
  if -2147483648 ≤ n ∧ n ≤ 2147483647 then Int32.ofInt n else undefined x

def dropRatePct (s : ServiceCounters) : ℚ :=
  (s.framesDropped.toNat : ℚ) / (s.framesCaptured.toNat : ℚ) * 100

/-- `health_compute_service_score`. -/
def healthComputeServiceScore (undefined : ℚ → Int32) (s : ServiceCounters) : Int32 :=
  let score := subUnsigned 100 (s.restartCount * 10)
  let score := subUnsigned score (s.seccompViolations * 50)
  let score := subUnsigned score (s.hmacFailures * 30)
  let score := subUnsigned score (s.replayAttacks * 20)
  let score :=
    if s.framesCaptured > 0 then score - convertInt undefined (dropRatePct s * (1 / 2))
    else score
  let score := if score < 0 then 0 else score
  if score > 100 then 100 else score

/-- `health_compute_system_score` of an array of `count` services. -/
def healthComputeSystemScore (undefined : ℚ → Int32) (services : List ServiceCounters) : Int32 :=
  if services = [] then 100
  else
    let minScore := services.foldl (fun minScore s =>
      let score := healthComputeServiceScore undefined s
      if score < minScore then score else minScore) 2147483647
    if minScore = 2147483647 then 100 else minScore

/-- The same frames were captured, and nothing went better. -/
structure Worse (a b : ServiceCounters) : Prop where
  framesCaptured : a.framesCaptured = b.framesCaptured
  restartCount : b.restartCount ≤ a.restartCount
  seccompViolations : b.seccompViolations ≤ a.seccompViolations
  hmacFailures : b.hmacFailures ≤ a.hmacFailures
  replayAttacks : b.replayAttacks ≤ a.replayAttacks
  framesDropped : b.framesDropped ≤ a.framesDropped

def ScoreBounded (undefined : ℚ → Int32) (s : ServiceCounters) : Prop :=
  0 ≤ healthComputeServiceScore undefined s ∧ healthComputeServiceScore undefined s ≤ 100

/-- Both scores are in range, the worse service has not the higher one, and the score of a
system is the least of its services. -/
structure ScoresCorrect (undefined : ℚ → Int32) (a b : ServiceCounters)
    (services : List ServiceCounters) : Prop where
  bounded : ScoreBounded undefined a ∧ ScoreBounded undefined b
  ordered : Worse a b →
    healthComputeServiceScore undefined a ≤ healthComputeServiceScore undefined b
  system : ∀ s ∈ services,
    healthComputeSystemScore undefined services ≤ healthComputeServiceScore undefined s
  attained : services ≠ [] → ∃ s ∈ services,
    healthComputeSystemScore undefined services = healthComputeServiceScore undefined s

def totalPenalty (undefined : ℚ → Int32) (s : ServiceCounters) : ℤ :=
  s.restartCount.toNat * 10 + s.seccompViolations.toNat * 50 + s.hmacFailures.toNat * 30 +
    s.replayAttacks.toNat * 20 +
    if s.framesCaptured > 0 then (convertInt undefined (dropRatePct s * (1 / 2))).toInt else 0

/-- What is left of the penalties in 32 bits keeps the order: that of the better service is
zero or so large that the difference to 100 is positive again, that of the worse one leaves
no points, or neither is over 100 and the worse one has more. -/
def OrderKept (undefined : ℚ → Int32) (a b : ServiceCounters) : Prop :=
  let worse := totalPenalty undefined a % 4294967296
  let better := totalPenalty undefined b % 4294967296
  better = 0 ∨ 2147483748 < better ∨ (100 ≤ worse ∧ worse ≤ 2147483748) ∨
    (better ≤ worse ∧ worse ≤ 100)

theorem toInt_subUnsigned (score : Int32) (n : UInt32) :
    (subUnsigned score n).toInt = (score.toInt - n.toNat).bmod (2 ^ 32) := by
  have hsub : (subUnsigned score n).toInt = (score.toBitVec - n.toBitVec).toInt := rfl
  rw [hsub, BitVec.toInt_sub, BitVec.toInt_eq_toNat_bmod n.toBitVec, Int.sub_bmod_bmod]
  rfl

theorem toInt_subUnsigned_mul (score : Int32) (n k : UInt32) :
    (subUnsigned score (n * k)).toInt = (score.toInt - n.toNat * k.toNat).bmod (2 ^ 32) := by
  have hwrap : (((n * k).toNat : ℕ) : ℤ) = (n.toNat * k.toNat : ℤ) % (2 ^ 32 : ℕ) := by
    rw [UInt32.toNat_mul]
    push_cast
    rfl
  rw [toInt_subUnsigned, hwrap, ← Int.sub_bmod_bmod, Int.emod_bmod, Int.sub_bmod_bmod]

def rawScore (undefined : ℚ → Int32) (s : ServiceCounters) : Int32 :=
  let score := subUnsigned (subUnsigned (subUnsigned (subUnsigned 100 (s.restartCount * 10))
    (s.seccompViolations * 50)) (s.hmacFailures * 30)) (s.replayAttacks * 20)
  if s.framesCaptured > 0 then score - convertInt undefined (dropRatePct s * (1 / 2)) else score

theorem toInt_rawScore (undefined : ℚ → Int32) (s : ServiceCounters) :
    (rawScore undefined s).toInt = (100 - totalPenalty undefined s).bmod (2 ^ 32) := by
  have hcounts : (subUnsigned (subUnsigned (subUnsigned (subUnsigned 100 (s.restartCount * 10))
      (s.seccompViolations * 50)) (s.hmacFailures * 30)) (s.replayAttacks * 20)).toInt =
        (100 - (s.restartCount.toNat * 10 + s.seccompViolations.toNat * 50 +
          s.hmacFailures.toNat * 30 + s.replayAttacks.toNat * 20 : ℤ)).bmod (2 ^ 32) := by
    have h10 : (10 : UInt32).toNat = 10 := rfl
    have h20 : (20 : UInt32).toNat = 20 := rfl
    have h30 : (30 : UInt32).toNat = 30 := rfl
    have h50 : (50 : UInt32).toNat = 50 := rfl
    have h100 : (100 : Int32).toInt = 100 := rfl
    simp only [toInt_subUnsigned_mul, Int.bmod_sub_bmod, h10, h20, h30, h50, h100]
    refine congrArg (fun n : ℤ => n.bmod (2 ^ 32)) ?_
    ring
  unfold rawScore totalPenalty
  split_ifs with hcaptured
  · rw [Int32.toInt_sub, hcounts, Int.bmod_sub_bmod]
    refine congrArg (fun n : ℤ => n.bmod (2 ^ 32)) ?_
    ring
  · rw [hcounts, add_zero]

def scoreOf (penalty : ℤ) : ℤ :=
  if penalty ≤ 100 then 100 - penalty else if penalty ≤ 2147483748 then 0 else 100

theorem toInt_healthComputeServiceScore (undefined : ℚ → Int32) (s : ServiceCounters) :
    (healthComputeServiceScore undefined s).toInt =
      scoreOf (totalPenalty undefined s % 4294967296) := by
  have hraw := toInt_rawScore undefined s
  have hscore : healthComputeServiceScore undefined s =
      (if (if rawScore undefined s < 0 then 0 else rawScore undefined s) > 100 then 100
        else if rawScore undefined s < 0 then 0 else rawScore undefined s) := rfl
  rw [hscore]
  generalize rawScore undefined s = score at hraw ⊢
  generalize totalPenalty undefined s = penalty at hraw ⊢
  have hzero : (0 : Int32).toInt = 0 := rfl
  have hhundred : (100 : Int32).toInt = 100 := rfl
  rw [Int.bmod_def] at hraw
  have hcuts : (if (if score < 0 then 0 else score) > 100 then 100
      else if score < 0 then 0 else score : Int32).toInt = max 0 (min 100 score.toInt) := by
    split_ifs with hnegative hlarge hlarge
    all_goals
      simp only [gt_iff_lt, Int32.lt_iff_toInt_lt, hzero, hhundred] at *
      omega
  rw [hcuts]
  unfold scoreOf
  split_ifs at hraw ⊢
  all_goals omega

theorem scoreBounded (undefined : ℚ → Int32) (s : ServiceCounters) : ScoreBounded undefined s := by
  have hzero : (0 : Int32).toInt = 0 := rfl
  have hhundred : (100 : Int32).toInt = 100 := rfl
  rw [ScoreBounded, Int32.le_iff_toInt_le, Int32.le_iff_toInt_le, hzero, hhundred,
    toInt_healthComputeServiceScore]
  have hpenalty := Int.emod_nonneg (totalPenalty undefined s) (by decide : (4294967296 : ℤ) ≠ 0)
  unfold scoreOf
  split_ifs <;> omega

theorem le_iff_orderKept (undefined : ℚ → Int32) (a b : ServiceCounters) :
    healthComputeServiceScore undefined a ≤ healthComputeServiceScore undefined b ↔
      OrderKept undefined a b := by
  have ha := Int.emod_nonneg (totalPenalty undefined a) (by decide : (4294967296 : ℤ) ≠ 0)
  have hb := Int.emod_nonneg (totalPenalty undefined b) (by decide : (4294967296 : ℤ) ≠ 0)
  rw [Int32.le_iff_toInt_le, toInt_healthComputeServiceScore, toInt_healthComputeServiceScore]
  unfold OrderKept scoreOf
  dsimp only
  split_ifs <;> omega

theorem foldl_least {f : ServiceCounters → Int32} (services : List ServiceCounters)
    (least : Int32) :
    let result := services.foldl (fun least s => if f s < least then f s else least) least
    result ≤ least ∧ (∀ s ∈ services, result ≤ f s) ∧
      (result = least ∨ ∃ s ∈ services, result = f s) := by
  induction services generalizing least with
  | nil => exact ⟨Int32.le_refl _, nofun, Or.inl rfl⟩
  | cons s services ih =>
      obtain ⟨hle, hall, hfrom⟩ := ih (if f s < least then f s else least)
      have hstep : (if f s < least then f s else least) ≤ least ∧
          (if f s < least then f s else least) ≤ f s := by
        split_ifs with hless
        · exact ⟨Int32.le_of_lt hless, Int32.le_refl _⟩
        · exact ⟨Int32.le_refl _, Int32.not_lt.mp hless⟩
      refine ⟨Int32.le_trans hle hstep.1,
        List.forall_mem_cons.mpr ⟨Int32.le_trans hle hstep.2, hall⟩, ?_⟩
      rcases hfrom with hsame | ⟨s', hmem, hs'⟩
      · rw [List.foldl_cons, hsame]
        split_ifs
        · exact Or.inr ⟨s, List.mem_cons_self, rfl⟩
        · exact Or.inl rfl
      · exact Or.inr ⟨s', List.mem_cons_of_mem _ hmem, hs'⟩

theorem healthComputeSystemScore_least (undefined : ℚ → Int32) (services : List ServiceCounters) :
    (∀ s ∈ services,
        healthComputeSystemScore undefined services ≤ healthComputeServiceScore undefined s) ∧
      (services ≠ [] → ∃ s ∈ services,
        healthComputeSystemScore undefined services = healthComputeServiceScore undefined s) := by
  by_cases hnil : services = []
  · subst hnil
    exact ⟨nofun, fun h => absurd rfl h⟩
  · obtain ⟨hle, hall, hfrom⟩ :=
      foldl_least (f := healthComputeServiceScore undefined) services 2147483647
    obtain ⟨s, services', rfl⟩ := List.exists_cons_of_ne_nil hnil
    have hlt : healthComputeServiceScore undefined s < 2147483647 :=
      Int32.lt_of_le_of_lt (scoreBounded undefined s).2 (by decide)
    have hne : (s :: services').foldl (fun least s =>
        if healthComputeServiceScore undefined s < least then healthComputeServiceScore undefined s
        else least) 2147483647 ≠ 2147483647 := by
      intro heq
      have hfirst := hall s List.mem_cons_self
      rw [heq] at hfirst
      exact absurd hlt (Int32.not_lt.mpr hfirst)
    have hscore : healthComputeSystemScore undefined (s :: services') =
        (s :: services').foldl (fun least s =>
          if healthComputeServiceScore undefined s < least then
            healthComputeServiceScore undefined s
          else least) 2147483647 := by
      rw [healthComputeSystemScore, if_neg hnil]
      exact if_neg hne
    rw [hscore]
    exact ⟨hall, fun _ => hfrom.resolve_left hne⟩

/-- The scores are right exactly when a worse service keeps the order of the penalties in
32 bits. -/
theorem scoresCorrect_iff (undefined : ℚ → Int32) (a b : ServiceCounters)
    (services : List ServiceCounters) :
    ScoresCorrect undefined a b services ↔ (Worse a b → OrderKept undefined a b) := by
  obtain ⟨hsystem, hattained⟩ := healthComputeSystemScore_least undefined services
  constructor
  · intro h hworse
    exact (le_iff_orderKept undefined a b).mp (h.ordered hworse)
  · intro h
    exact ⟨⟨scoreBounded undefined a, scoreBounded undefined b⟩,
      fun hworse => (le_iff_orderKept undefined a b).mpr (h hworse), hsystem, hattained⟩

/-- A service that has only been restarted. -/
def restarted (n : UInt32) : ServiceCounters := ⟨n, 0, 0, 0, 0, 0⟩

/-- With 429496730 restarts, the penalty wraps to 4. -/
theorem not_scoresCorrect_restarts :
    ¬ScoresCorrect (fun _ => 0) (restarted 429496730) (restarted 1) [] ∧
      healthComputeServiceScore (fun _ => 0) (restarted 429496730) = 96 ∧
      healthComputeServiceScore (fun _ => 0) (restarted 1) = 90 := by
  have hworse : Worse (restarted 429496730) (restarted 1) :=
    ⟨rfl, by decide, by decide, by decide, by decide, by decide⟩
  refine ⟨fun h => ?_, by decide, by decide⟩
  exact absurd (h.ordered hworse) (by decide)

end Monitoring

end Shinigami
