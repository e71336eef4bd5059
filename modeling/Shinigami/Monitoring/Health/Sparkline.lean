import Mathlib.Data.List.MinMax
import Shinigami.Monitoring.Health.HealthHistory

/-!
# Sparklines of health scores

`health_history_get_sparkline` looks for the sample that is nearest to each of `count` points
of time in the last `duration` seconds. The offset of a point from the start is a product of
32 bits: `sparklineCorrect_iff` says when the samples are the nearest ones nevertheless, and
that for all histories this is so exactly when the products do not wrap, and the duration does
not reach back to zero.
-/

namespace Shinigami

namespace Monitoring

def timeDiff (timestamp target : UInt64) : UInt64 :=
  if timestamp > target then timestamp - target else target - timestamp

/-- A round of the inner loop, with `best_diff` and `best_score`. -/
def sparklineStep (h : HealthHistory) (cutoff target : UInt64) (best : UInt64 × Int32) (j : ℕ) :
    UInt64 × Int32 :=
  if h.timestampsMs j = 0 then best
  else if h.timestampsMs j < cutoff then best
  else
    let diff := timeDiff (h.timestampsMs j) target
    if diff < best.1 then (diff, h.scores j) else best

def sparklineScore (h : HealthHistory) (cutoff target : UInt64) : Int32 :=
  ((List.range h.capacity.toNat).foldl (sparklineStep h cutoff target)
    (18446744073709551615, 100)).2

/-- The point of time of round `i`. -/
def sparklineTarget (cutoff : UInt64) (count duration i : UInt32) : UInt64 :=
  cutoff + (i * duration * 1000 / count).toUInt64

/-- `health_history_get_sparkline` at the reading `now` of the clock. -/
def healthHistoryGetSparkline (h : HealthHistory) (now : UInt64) (count duration : UInt32) :
    UInt32 × List Int32 :=
  if count = 0 then (0, [])
  else
    let cutoff := now - duration.toUInt64 * 1000
    (count, (List.range count.toNat).map fun i =>
      sparklineScore h cutoff (sparklineTarget cutoff count duration (UInt32.ofNat i)))

/-- The samples that are not older than the cutoff. -/
def freshSamples (h : HealthHistory) (cutoff : ℕ) : List (Int32 × UInt64) :=
  ((List.range h.capacity.toNat).map fun j => (h.scores j, h.timestampsMs j)).filter
    fun s => s.2 ≠ 0 ∧ cutoff ≤ s.2.toNat

def distance (target : ℕ) (s : Int32 × UInt64) : ℕ :=
  (s.2.toNat - target) + (target - s.2.toNat)

def IsNearest (samples : List (Int32 × UInt64)) (target : ℕ) (s : Int32 × UInt64) : Prop :=
  s ∈ samples ∧ ∀ s' ∈ samples, distance target s ≤ distance target s'

/-- The offset of point `i`, and what is left of it in 32 bits. -/
def offset (count duration i : ℕ) : ℕ := i * duration * 1000 / count

def wrappedOffset (count duration i : ℕ) : ℕ := i * duration * 1000 % 4294967296 / count

/-- The score of a nearest sample for each point, or 100. -/
def SparklineCorrect (h : HealthHistory) (now : UInt64) (count duration : UInt32) : Prop :=
  let cutoff := now.toNat - 1000 * duration.toNat
  let samples := freshSamples h cutoff
  let sparkline := healthHistoryGetSparkline h now count duration
  sparkline.1 = count ∧ sparkline.2.length = count.toNat ∧
    ∀ i < count.toNat, ∃ score, sparkline.2[i]? = some score ∧
      ((samples = [] ∧ score = 100) ∨
        ∃ s, IsNearest samples (cutoff + offset count.toNat duration.toNat i) s ∧ score = s.1)

/-- The first sample that is nearest to one point has the score of one that is nearest to the
other. A sample at the distance 2^64 - 1 is not taken, and counts for 100. -/
def SameScore (samples : List (Int32 × UInt64)) (wrapped target : ℕ) : Prop :=
  ∀ s, samples.argmin (distance wrapped) = some s →
    ∃ s', IsNearest samples target s' ∧
      s'.1 = if distance wrapped s < 18446744073709551615 then s.1 else 100

theorem toNat_timeDiff (s : Int32 × UInt64) (target : UInt64) :
    (timeDiff s.2 target).toNat = distance target.toNat s := by
  have hlt : s.2 > target ↔ target.toNat < s.2.toNat := UInt64.lt_iff_toNat_lt
  unfold timeDiff distance
  split_ifs with hlater
  · rw [UInt64.toNat_sub_of_le _ _ (UInt64.le_of_lt hlater)]
    rw [hlt] at hlater
    omega
  · have hle : s.2 ≤ target := UInt64.not_lt.mp hlater
    rw [UInt64.toNat_sub_of_le _ _ hle]
    rw [UInt64.le_iff_toNat_le] at hle
    omega

theorem distance_le (target : UInt64) (s : Int32 × UInt64) :
    distance target.toNat s ≤ 18446744073709551615 := by
  have hs := s.2.toNat_lt
  have htarget := target.toNat_lt
  unfold distance
  omega

def nearerStep (target : UInt64) (best : UInt64 × Int32) (s : Int32 × UInt64) : UInt64 × Int32 :=
  if timeDiff s.2 target < best.1 then (timeDiff s.2 target, s.1) else best

theorem nearerStep_eq (target : UInt64) (best : UInt64 × Int32) (s : Int32 × UInt64) :
    nearerStep target best s =
      if distance target.toNat s < best.1.toNat then (timeDiff s.2 target, s.1) else best :=
  if_congr (by rw [UInt64.lt_iff_toNat_lt, toNat_timeDiff]) rfl rfl

theorem foldl_sparklineStep (h : HealthHistory) (cutoff target : UInt64)
    (best : UInt64 × Int32) :
    (List.range h.capacity.toNat).foldl (sparklineStep h cutoff target) best =
      (freshSamples h cutoff.toNat).foldl (nearerStep target) best := by
  rw [freshSamples, List.foldl_filter, List.foldl_map]
  refine List.foldl_ext _ _ _ fun best j _ => ?_
  have hlt : h.timestampsMs j < cutoff ↔ ¬cutoff.toNat ≤ (h.timestampsMs j).toNat := by
    rw [UInt64.lt_iff_toNat_lt, Nat.not_le]
  unfold sparklineStep nearerStep
  by_cases hzero : h.timestampsMs j = 0
  · simp [hzero]
  · by_cases hold : h.timestampsMs j < cutoff
    · have hcutoff := hlt.mp hold
      simp [hzero, hold, hcutoff]
    · have hcutoff : cutoff.toNat ≤ (h.timestampsMs j).toNat := by
        by_contra hnot
        exact hold (hlt.mpr hnot)
      simp [hzero, hold, hcutoff]

/-- The loop ends with the first of the nearest samples, unless none is nearer than 2^64 - 1. -/
theorem foldl_nearerStep (samples : List (Int32 × UInt64)) (target : UInt64) :
    samples.foldl (nearerStep target) (18446744073709551615, 100) =
      match samples.argmin (distance target.toNat) with
      | none => (18446744073709551615, 100)
      | some s =>
          if distance target.toNat s < 18446744073709551615 then (timeDiff s.2 target, s.1)
          else (18446744073709551615, 100) := by
  have hfar : (18446744073709551615 : UInt64).toNat = 18446744073709551615 := rfl
  induction samples using List.reverseRecOn with
  | nil => rfl
  | append_singleton samples a ih =>
      rw [List.foldl_append, List.foldl_cons, List.foldl_nil, ih, List.argmin_concat]
      cases samples.argmin (distance target.toNat) with
      | none => exact nearerStep_eq _ _ _
      | some c =>
          have hc := distance_le target c
          dsimp only
          by_cases hnear : distance target.toNat c < 18446744073709551615
          · -- a nearer sample takes the place of the nearest one so far
            rw [if_pos hnear, nearerStep_eq]
            dsimp only
            rw [toNat_timeDiff]
            by_cases hnearer : distance target.toNat a < distance target.toNat c
            · rw [if_pos hnearer, if_pos hnearer]
              exact (if_pos (hnearer.trans hnear)).symm
            · rw [if_neg hnearer, if_neg hnearer]
              exact (if_pos hnear).symm
          · have hfarthest : distance target.toNat c = 18446744073709551615 := by omega
            rw [if_neg hnear, hfarthest, nearerStep_eq]
            dsimp only
            rw [hfar]
            by_cases hnearer : distance target.toNat a < 18446744073709551615
            · rw [if_pos hnearer, if_pos hnearer]
              exact (if_pos hnearer).symm
            · rw [if_neg hnearer, if_neg hnearer]
              exact (if_neg hnear).symm

section Points

variable {h : HealthHistory} {now : UInt64} {count duration : UInt32}

theorem toNat_cutoff (hnow : 1000 * duration.toNat ≤ now.toNat) :
    (now - duration.toUInt64 * 1000).toNat = now.toNat - 1000 * duration.toNat := by
  have hduration := duration.toNat_lt
  have hthousand : (1000 : UInt64).toNat = 1000 := rfl
  have hproduct : (duration.toUInt64 * 1000).toNat = 1000 * duration.toNat := by
    rw [UInt64.toNat_mul, UInt32.toNat_toUInt64, hthousand]
    omega
  have hle : duration.toUInt64 * 1000 ≤ now := by
    rw [UInt64.le_iff_toNat_le, hproduct]
    exact hnow
  rw [UInt64.toNat_sub_of_le _ _ hle, hproduct]

theorem wrappedOffset_le (count duration i : ℕ) :
    wrappedOffset count duration i ≤ offset count duration i :=
  Nat.div_le_div_right (Nat.mod_le _ _)

theorem offset_le {count i : ℕ} (duration : ℕ) (hi : i < count) :
    offset count duration i ≤ 1000 * duration := by
  have hle : i * duration * 1000 ≤ count * (1000 * duration) := by
    calc i * duration * 1000 = i * (1000 * duration) := by
          rw [Nat.mul_assoc, Nat.mul_comm duration]
      _ ≤ count * (1000 * duration) := Nat.mul_le_mul_right _ hi.le
  exact Nat.div_le_of_le_mul hle

theorem toNat_sparklineTarget (hnow : 1000 * duration.toNat ≤ now.toNat) {i : ℕ}
    (hi : i < count.toNat) :
    (sparklineTarget (now - duration.toUInt64 * 1000) count duration (UInt32.ofNat i)).toNat =
      now.toNat - 1000 * duration.toNat + wrappedOffset count.toNat duration.toNat i := by
  have hcount := count.toNat_lt
  have hlt := now.toNat_lt
  have hround : (UInt32.ofNat i).toNat = i := UInt32.toNat_ofNat_of_lt' (hi.trans hcount)
  have hthousand : (1000 : UInt32).toNat = 1000 := rfl
  have hquotient : (UInt32.ofNat i * duration * 1000 / count).toUInt64.toNat =
      wrappedOffset count.toNat duration.toNat i := by
    rw [UInt32.toNat_toUInt64, UInt32.toNat_div, UInt32.toNat_mul, UInt32.toNat_mul, hround,
      hthousand, Nat.mod_mul_mod]
    rfl
  have hwrapped := wrappedOffset_le count.toNat duration.toNat i
  have hoffset := offset_le duration.toNat hi
  rw [sparklineTarget, UInt64.toNat_add, toNat_cutoff hnow, hquotient]
  omega

theorem sparklineScore_eq (h : HealthHistory) (cutoff target : UInt64) :
    sparklineScore h cutoff target =
      match (freshSamples h cutoff.toNat).argmin (distance target.toNat) with
      | none => 100
      | some s => if distance target.toNat s < 18446744073709551615 then s.1 else 100 := by
  rw [sparklineScore, foldl_sparklineStep, foldl_nearerStep]
  cases (freshSamples h cutoff.toNat).argmin (distance target.toNat) with
  | none => rfl
  | some s =>
      dsimp only
      split_ifs
      · rfl
      · rfl

/-- The sparkline is right exactly when each wrapped point has the score of the true one. -/
theorem sparklineCorrect_iff_sameScore (hcount : 1 ≤ count)
    (hnow : 1000 * duration.toNat ≤ now.toNat) :
    SparklineCorrect h now count duration ↔
      ∀ i < count.toNat, SameScore (freshSamples h (now.toNat - 1000 * duration.toNat))
        (now.toNat - 1000 * duration.toNat + wrappedOffset count.toNat duration.toNat i)
        (now.toNat - 1000 * duration.toNat + offset count.toNat duration.toNat i) := by
  have hne : count ≠ 0 := by
    rintro rfl
    exact absurd hcount (by decide)
  unfold SparklineCorrect healthHistoryGetSparkline
  dsimp only
  rw [if_neg hne]
  dsimp only
  rw [List.length_map, List.length_range]
  simp only [true_and]
  refine forall₂_congr fun i hi => ?_
  have hget : ((List.range count.toNat).map fun i =>
      sparklineScore h (now - duration.toUInt64 * 1000)
        (sparklineTarget (now - duration.toUInt64 * 1000) count duration (UInt32.ofNat i)))[i]? =
      some (sparklineScore h (now - duration.toUInt64 * 1000)
        (sparklineTarget (now - duration.toUInt64 * 1000) count duration (UInt32.ofNat i))) := by
    rw [List.getElem?_map, List.getElem?_range hi, Option.map_some]
  rw [hget, sparklineScore_eq, toNat_cutoff hnow, toNat_sparklineTarget hnow hi]
  generalize freshSamples h (now.toNat - 1000 * duration.toNat) = samples
  unfold SameScore
  cases hmin : samples.argmin (distance (now.toNat - 1000 * duration.toNat +
      wrappedOffset count.toNat duration.toNat i)) with
  | none =>
      have hnil : samples = [] := List.argmin_eq_none.mp hmin
      exact iff_of_true ⟨100, rfl, Or.inl ⟨hnil, rfl⟩⟩ nofun
  | some s =>
      have hmem : samples ≠ [] := List.ne_nil_of_mem (List.argmin_mem hmin)
      simp only [Option.some.injEq, exists_eq_left', forall_eq', hmem, false_and, false_or]
      exact exists_congr fun s' => and_congr_right fun _ => eq_comm

end Points

section Histories

variable {now : UInt64} {count duration : UInt32}

/-- A ring that has not come round has its samples in the slots in front of the head. -/
theorem freshSamples_of_holds {h : HealthHistory} {stored : List (Int32 × UInt64)}
    (hinv : h.Holds stored) (hlen : stored.length ≤ healthHistoryCapacity) (cutoff : ℕ) :
    freshSamples h cutoff = stored.filter fun s => s.2 ≠ 0 ∧ cutoff ≤ s.2.toNat := by
  have hsize : healthHistoryCapacity = 3600 := rfl
  have hcapacity : h.capacity.toNat = stored.length + (3600 - stored.length) := by
    rw [hinv.capacity]
    have hnat : (3600 : UInt32).toNat = 3600 := rfl
    omega
  have hstored : (List.range stored.length).map (fun j => (h.scores j, h.timestampsMs j)) =
      stored := by
    apply List.ext_getElem
    · rw [List.length_map, List.length_range]
    · intro j hj hj'
      have hscore := ringWrites_getElem (n := healthHistoryCapacity) (fun _ => (0 : Int32)) 0
        (stored.map Prod.fst) (k := j) (by rwa [List.length_map])
        (by rw [List.length_map]; omega)
      have htime := ringWrites_getElem (n := healthHistoryCapacity) (fun _ => (0 : UInt64)) 0
        (stored.map Prod.snd) (k := j) (by rwa [List.length_map])
        (by rw [List.length_map]; omega)
      rw [Nat.zero_add, Nat.mod_eq_of_lt (hj'.trans_le hlen), List.getElem_map] at hscore htime
      rw [List.getElem_map, List.getElem_range, hinv.scores, hinv.timestampsMs, hscore, htime]
  have hempty : (((List.range (3600 - stored.length)).map (stored.length + ·)).map
      (fun j => (h.scores j, h.timestampsMs j))).filter
        (fun s => s.2 ≠ 0 ∧ cutoff ≤ s.2.toNat) = [] := by
    rw [List.map_map, List.filter_eq_nil_iff, List.forall_mem_map]
    intro j hj
    rw [List.mem_range] at hj
    have hzero : h.timestampsMs (stored.length + j) = 0 := by
      rw [hinv.timestampsMs]
      exact ringWrites_of_le _ _ _ (by rw [List.length_map]; omega) (by omega)
    simp [hzero]
  rw [freshSamples, hcapacity, List.range_add, List.map_append, hstored, List.filter_append,
    hempty, List.append_nil]

theorem mem_freshSamples_of_holds {h : HealthHistory} {stored : List (Int32 × UInt64)}
    (hinv : h.Holds stored) (hlen : stored.length ≤ healthHistoryCapacity) (cutoff : ℕ)
    (s : Int32 × UInt64) :
    s ∈ freshSamples h cutoff ↔ s ∈ stored ∧ cutoff ≤ s.2.toNat := by
  rw [freshSamples_of_holds hinv hlen, List.mem_filter, decide_eq_true_eq]
  exact and_congr_right fun hs => and_iff_right (hinv.positive s hs)

theorem mem_freshSamples_two {a b : Int32 × UInt64} (ha : a.2 ≠ 0) (hb : b.2 ≠ 0)
    (hkeep : ¬b.2 - a.2 < healthHistoryResolutionMs) (cutoff : ℕ) (s : Int32 × UInt64) :
    s ∈ freshSamples (healthHistoryPush (healthHistoryPush healthHistoryInit a.1 a.2) b.1 b.2)
        cutoff ↔ (s = a ∨ s = b) ∧ cutoff ≤ s.2.toNat := by
  have hinv := (holds_init.store ha fun hskip => hskip.1 rfl).store hb fun hskip => hkeep hskip.2
  have hlen : ([] ++ [a] ++ [b]).length ≤ healthHistoryCapacity := by
    simp [healthHistoryCapacity]
  have hmem : s ∈ [] ++ [a] ++ [b] ↔ s = a ∨ s = b := by simp
  rw [mem_freshSamples_of_holds hinv hlen, hmem]

theorem wrappedOffset_of_lt {count duration i : ℕ} (h : i * duration * 1000 < 4294967296) :
    wrappedOffset count duration i = offset count duration i := by
  rw [wrappedOffset, Nat.mod_eq_of_lt h, offset]

theorem wrappedOffset_lt {count duration i : ℕ} (hcount : 0 < count)
    (hsize : count ≤ 4294967296) (h : 4294967296 ≤ i * duration * 1000) :
    wrappedOffset count duration i < offset count duration i := by
  have hdiv : (i * duration * 1000 % 4294967296 + count) / count =
      i * duration * 1000 % 4294967296 / count + 1 := Nat.add_div_right _ hcount
  have hle : (i * duration * 1000 % 4294967296 + count) / count ≤ i * duration * 1000 / count :=
    Nat.div_le_div_right (by omega)
  unfold wrappedOffset offset
  omega

/-- Without a wrap, and with a point of time that is not zero, the nearest sample is taken. -/
theorem sparklineCorrect_of_lt (hcount : 1 ≤ count) (hnow : 1000 * duration.toNat < now.toNat)
    (hproduct : 1000 * duration.toNat * (count.toNat - 1) < 4294967296) (h : HealthHistory) :
    SparklineCorrect h now count duration := by
  rw [sparklineCorrect_iff_sameScore hcount hnow.le]
  intro i hi
  have hle : i * duration.toNat * 1000 ≤ 1000 * duration.toNat * (count.toNat - 1) := by
    calc i * duration.toNat * 1000 = 1000 * duration.toNat * i := by
          rw [Nat.mul_assoc, Nat.mul_comm, Nat.mul_comm duration.toNat]
      _ ≤ 1000 * duration.toNat * (count.toNat - 1) := Nat.mul_le_mul_left _ (by omega)
  rw [wrappedOffset_of_lt (hle.trans_lt hproduct)]
  intro s hs
  have hmem := List.argmin_mem hs
  refine ⟨s, ⟨hmem, fun s' hs' => List.le_of_mem_argmin hs' hs⟩, ?_⟩
  rw [if_pos]
  have hfresh : s.2 ≠ 0 := by
    have hfilter := (List.mem_filter.mp hmem).2
    simp only [decide_eq_true_eq] at hfilter
    exact hfilter.1
  have hpos : s.2.toNat ≠ 0 := fun hzero => hfresh (UInt64.toNat_inj.mp hzero)
  have hlt := s.2.toNat_lt
  have hclock := now.toNat_lt
  have hoffset := offset_le duration.toNat hi
  unfold distance
  omega

theorem not_sparklineCorrect_zero (hcount : 1 ≤ count) (hnow : now.toNat = 1000 * duration.toNat) :
    ¬SparklineCorrect (healthHistoryPush healthHistoryInit 50 18446744073709551615) now count
      duration := by
  have hpositive : ((50 : Int32), (18446744073709551615 : UInt64)).2 ≠ 0 := by decide
  have hinv := holds_init.store hpositive (by decide)
  have hzero : now.toNat - 1000 * duration.toNat = 0 := by omega
  have hcount' : 0 < count.toNat := UInt32.le_iff_toNat_le.mp hcount
  have hoffset : wrappedOffset count.toNat duration.toNat 0 = 0 := by simp [wrappedOffset]
  rw [sparklineCorrect_iff_sameScore hcount hnow.ge]
  intro hall
  have hsame := hall 0 hcount'
  have hsamples := mem_freshSamples_of_holds hinv (by decide) 0
  rw [hzero, hoffset] at hsame
  generalize freshSamples _ 0 = samples at hsamples hsame
  have hone : ∀ s ∈ samples, s = (50, 18446744073709551615) := by
    intro s hs
    simpa using ((hsamples s).mp hs).1
  have hmem : ((50 : Int32), (18446744073709551615 : UInt64)) ∈ samples :=
    (hsamples _).mpr ⟨by simp, Nat.zero_le _⟩
  obtain ⟨s, hs⟩ : ∃ s, samples.argmin (distance 0) = some s := by
    rw [← Option.ne_none_iff_exists']
    exact mt List.argmin_eq_none.mp (List.ne_nil_of_mem hmem)
  obtain ⟨s', ⟨hmem', -⟩, hscore⟩ := hsame s hs
  rw [hone s' hmem', hone s (List.argmin_mem hs)] at hscore
  revert hscore
  decide

/-- A sample at the wrapped point is taken, although there is one at the true point. -/
theorem not_sparklineCorrect_wrap (hcount : 1 ≤ count) (hnow : 1000 * duration.toNat < now.toNat)
    {h : HealthHistory} {i : ℕ} (hi : i < count.toNat)
    (hproduct : 4294967296 ≤ i * duration.toNat * 1000) {wrapped target : UInt64}
    (hwrapped : wrapped.toNat = now.toNat - 1000 * duration.toNat +
      wrappedOffset count.toNat duration.toNat i)
    (htarget : target.toNat = now.toNat - 1000 * duration.toNat +
      offset count.toNat duration.toNat i)
    (hsamples : ∀ s, s ∈ freshSamples h (now.toNat - 1000 * duration.toNat) ↔
      s = (90, target) ∨ s = (50, wrapped)) : ¬SparklineCorrect h now count duration := by
  have hsize := count.toNat_lt
  have hlt := wrappedOffset_lt (Nat.zero_lt_of_lt hi) hsize.le hproduct
  have hself : ∀ (score : Int32) (t : UInt64), distance t.toNat (score, t) = 0 := by
    intro score t
    simp [distance]
  rw [sparklineCorrect_iff_sameScore hcount hnow.le]
  intro hall
  have hsame := hall i hi
  rw [← hwrapped, ← htarget] at hsame
  generalize freshSamples h (now.toNat - 1000 * duration.toNat) = samples at hsamples hsame
  have hleft : ((50 : Int32), wrapped) ∈ samples := (hsamples _).mpr (Or.inr rfl)
  have hright : ((90 : Int32), target) ∈ samples := (hsamples _).mpr (Or.inl rfl)
  obtain ⟨s, hs⟩ : ∃ s, samples.argmin (distance wrapped.toNat) = some s := by
    rw [← Option.ne_none_iff_exists']
    exact mt List.argmin_eq_none.mp (List.ne_nil_of_mem hleft)
  have hzero : distance wrapped.toNat s ≤ 0 :=
    (List.le_of_mem_argmin hleft hs).trans_eq (hself 50 wrapped)
  have hscore : s.1 = 50 := by
    rcases (hsamples s).mp (List.argmin_mem hs) with rfl | rfl
    · unfold distance at hzero
      dsimp only at hzero
      omega
    · rfl
  obtain ⟨s', ⟨hmem, hnearest⟩, hsame⟩ := hsame s hs
  rw [if_pos (Nat.lt_of_le_of_lt hzero (by decide)), hscore] at hsame
  rcases (hsamples s').mp hmem with rfl | rfl
  · have hne : ¬(90 : Int32) = 50 := by decide
    exact hne hsame
  · have hfar := hnearest _ hright
    rw [hself 90 target] at hfar
    unfold distance at hfar
    dsimp only at hfar
    omega

theorem exists_toNat_eq {n : ℕ} (h : n < 18446744073709551616) : ∃ t : UInt64, t.toNat = n :=
  ⟨UInt64.ofNat n, UInt64.toNat_ofNat_of_lt' h⟩

/-- Also of two samples that are pushed in the wrong order both are stored: the difference of
their timestamps wraps. -/
theorem mem_freshSamples_backwards {cutoff : ℕ} {early late : UInt64} (hcutoff : 0 < cutoff)
    (hearly : cutoff ≤ early.toNat) (hlate : early.toNat < late.toNat)
    (hnear : late.toNat - early.toNat + 1000 ≤ 18446744073709551616) (s : Int32 × UInt64) :
    s ∈ freshSamples ([((90 : Int32), late), (50, early)].foldl
        (fun h push => healthHistoryPush h push.1 push.2) healthHistoryInit) cutoff ↔
      s = (90, late) ∨ s = (50, early) := by
  have hlate' : ((90 : Int32), late).2 ≠ 0 := by
    rintro rfl
    exact absurd hlate (Nat.not_lt_zero _)
  have hearly' : ((50 : Int32), early).2 ≠ 0 := by
    rintro rfl
    exact absurd (hcutoff.trans_le hearly) (Nat.lt_irrefl 0)
  have hdiff : ¬early - late < healthHistoryResolutionMs := by
    have hsize : healthHistoryResolutionMs.toNat = 1000 := rfl
    have hlt := late.toNat_lt
    rw [UInt64.lt_iff_toNat_lt, UInt64.toNat_sub, hsize]
    omega
  refine (mem_freshSamples_two hlate' hearly' hdiff cutoff s).trans (and_iff_left_of_imp ?_)
  rintro (rfl | rfl)
  · exact hearly.trans hlate.le
  · exact hearly

/-- For all histories together, the sparkline is right exactly when the products do not wrap
and the duration does not reach back to zero. -/
theorem forall_sparklineCorrect_iff (hcount : 1 ≤ count)
    (hnow : 1000 * duration.toNat ≤ now.toNat) :
    (∀ pushes : List (Int32 × UInt64), SparklineCorrect
        (pushes.foldl (fun h push => healthHistoryPush h push.1 push.2) healthHistoryInit) now
        count duration) ↔
      1000 * duration.toNat * (count.toNat - 1) < 4294967296 ∧
        1000 * duration.toNat < now.toNat := by
  constructor
  · intro h
    have hpos : 1000 * duration.toNat < now.toNat := by
      by_contra hzero
      exact not_sparklineCorrect_zero hcount (by omega) (h [(50, 18446744073709551615)])
    refine ⟨?_, hpos⟩
    by_contra hproduct
    have hclock := now.toNat_lt
    have hcount' : 1 ≤ count.toNat := UInt32.le_iff_toNat_le.mp hcount
    have hi : count.toNat - 1 < count.toNat := by omega
    have hlarge : 4294967296 ≤ (count.toNat - 1) * duration.toNat * 1000 := by
      calc 4294967296 ≤ 1000 * duration.toNat * (count.toNat - 1) := Nat.not_lt.mp hproduct
        _ = (count.toNat - 1) * duration.toNat * 1000 := by
          rw [Nat.mul_comm, Nat.mul_comm 1000, Nat.mul_assoc]
    have hwrap := wrappedOffset_lt (Nat.zero_lt_of_lt hi) (by have := count.toNat_lt; omega) hlarge
    have hoffset := offset_le duration.toNat hi
    obtain ⟨wrapped, hwrapped⟩ : ∃ t : UInt64, t.toNat = now.toNat - 1000 * duration.toNat +
        wrappedOffset count.toNat duration.toNat (count.toNat - 1) := exists_toNat_eq (by omega)
    obtain ⟨target, htarget⟩ : ∃ t : UInt64, t.toNat = now.toNat - 1000 * duration.toNat +
        offset count.toNat duration.toNat (count.toNat - 1) := exists_toNat_eq (by omega)
    have hduration := duration.toNat_lt
    refine not_sparklineCorrect_wrap hcount hpos hi hlarge hwrapped htarget ?_
      (h [(90, target), (50, wrapped)])
    exact mem_freshSamples_backwards (by omega) (by omega) (by omega) (by omega)
  · rintro ⟨hproduct, hpos⟩ pushes
    exact sparklineCorrect_of_lt hcount hpos hproduct _

/-- The sparkline of a history is right exactly when each wrapped point has the score of the
true one, and the sparklines of all histories are right exactly when the products do not wrap
and the duration does not reach back to zero. -/
theorem sparklineCorrect_iff (hcount : 1 ≤ count) (hnow : 1000 * duration.toNat ≤ now.toNat) :
    (∀ h, SparklineCorrect h now count duration ↔
        ∀ i < count.toNat, SameScore (freshSamples h (now.toNat - 1000 * duration.toNat))
          (now.toNat - 1000 * duration.toNat + wrappedOffset count.toNat duration.toNat i)
          (now.toNat - 1000 * duration.toNat + offset count.toNat duration.toNat i)) ∧
      ((∀ pushes : List (Int32 × UInt64), SparklineCorrect
          (pushes.foldl (fun h push => healthHistoryPush h push.1 push.2) healthHistoryInit) now
          count duration) ↔
        1000 * duration.toNat * (count.toNat - 1) < 4294967296 ∧
          1000 * duration.toNat < now.toNat) :=
  ⟨fun _ => sparklineCorrect_iff_sameScore hcount hnow, forall_sparklineCorrect_iff hcount hnow⟩

/-- Two points in the last minute. -/
theorem sparklineCorrect_iff_minute :
    (∀ h, SparklineCorrect h 60001 2 60 ↔
        ∀ i < (2 : UInt32).toNat, SameScore
          (freshSamples h ((60001 : UInt64).toNat - 1000 * (60 : UInt32).toNat))
          ((60001 : UInt64).toNat - 1000 * (60 : UInt32).toNat +
            wrappedOffset (2 : UInt32).toNat (60 : UInt32).toNat i)
          ((60001 : UInt64).toNat - 1000 * (60 : UInt32).toNat +
            offset (2 : UInt32).toNat (60 : UInt32).toNat i)) ∧
      ((∀ pushes : List (Int32 × UInt64), SparklineCorrect
          (pushes.foldl (fun h push => healthHistoryPush h push.1 push.2) healthHistoryInit)
          60001 2 60) ↔
        1000 * (60 : UInt32).toNat * ((2 : UInt32).toNat - 1) < 4294967296 ∧
          1000 * (60 : UInt32).toNat < (60001 : UInt64).toNat) :=
  sparklineCorrect_iff (by decide) (by decide)

/-- One hour in 2000 points: the last one is looked for 36 minutes too early. -/
theorem not_sparklineCorrect_hour :
    ¬SparklineCorrect (healthHistoryPush (healthHistoryPush healthHistoryInit 50 1450717) 90
      3598201) 3600001 2000 3600 := by
  have hpositive : ((50 : Int32), (1450717 : UInt64)).2 ≠ 0 ∧
      ((90 : Int32), (3598201 : UInt64)).2 ≠ 0 := by decide
  have hkeep : ¬((90 : Int32), (3598201 : UInt64)).2 - ((50 : Int32), (1450717 : UInt64)).2 <
      healthHistoryResolutionMs := by decide
  have hi : 1999 < (2000 : UInt32).toNat := by decide
  have hsamples : ∀ s, s ∈ freshSamples (healthHistoryPush (healthHistoryPush healthHistoryInit
      50 1450717) 90 3598201) ((3600001 : UInt64).toNat - 1000 * (3600 : UInt32).toNat) ↔
        s = (90, 3598201) ∨ s = (50, 1450717) := by
    intro s
    refine (mem_freshSamples_two hpositive.1 hpositive.2 hkeep _ s).trans ?_
    rw [and_iff_left_of_imp]
    · exact or_comm
    · rintro (rfl | rfl)
      · decide
      · decide
  exact not_sparklineCorrect_wrap (by decide) (by decide) hi (by decide) (by decide) (by decide)
    hsamples

end Histories

end Monitoring

end Shinigami
