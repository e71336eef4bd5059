import Mathlib.Algebra.Order.Floor.Semiring
import Mathlib.Algebra.Order.Ring.Rat
import Mathlib.Data.List.Induction
import Mathlib.Data.Rat.Floor
import Mathlib.Tactic.NormNum
import Shinigami.Foundations.Run
import Shinigami.Foundations.SortedSearch

/-!
# Percentiles of a histogram

`histogram_observe` counts a value in every bucket whose bound it is at most.
`histogram_percentile` takes the first bucket whose count reaches the rank `p * count`, but
it rounds the rank down first: the rank of the median of one value is 0, which every bucket
reaches (`percentileCorrect_iff`).
-/

namespace Shinigami

namespace Monitoring

/-- `METRIC_HISTOGRAM_MAX_BUCKETS`. -/
def metricHistogramMaxBuckets : ℕ := 32

/-- `histogram_t`; the arrays hold the first `num_buckets` entries. -/
structure Histogram where
  upperBounds : List ℚ
  counts : List UInt64
  sum : ℚ
  count : UInt64
  lastUpdateMs : UInt64

/-- `histogram_observe` of a value with its time. -/
def histogramObserve (h : Histogram) (obs : ℚ × UInt64) : Histogram :=
  { h with
    sum := h.sum + obs.1
    count := h.count + 1
    counts := List.zipWith (fun bound count => if obs.1 ≤ bound then count + 1 else count)
      h.upperBounds h.counts
    lastUpdateMs := obs.2 }

/-- `histogram_init`. -/
def histogramInit (upperBounds : List ℚ) : Histogram where
  upperBounds := upperBounds.take metricHistogramMaxBuckets
  counts := (upperBounds.take metricHistogramMaxBuckets).map fun _ => 0
  sum := 0
  count := 0
  lastUpdateMs := 0

/-- `histogram_percentile`; a read in front of the bounds has no value. -/
def histogramPercentile (h : Histogram) (p : ℚ) : Option ℚ :=
  if h.count = 0 then some 0
  else
    let target := UInt64.ofNat ⌊p * h.count.toNat⌋₊
    match (h.upperBounds.zip h.counts).find? fun bucket => decide (bucket.2 ≥ target) with
    | some bucket => some bucket.1
    | none => h.upperBounds.getLast?

def observed (bounds : List ℚ) (obs : List (ℚ × UInt64)) : Histogram :=
  run histogramObserve (histogramInit bounds) obs

/-- The number of observed values that are at most `x`. -/
def countLe (obs : List (ℚ × UInt64)) (x : ℚ) : ℕ := obs.countP fun v => v.1 ≤ x

/-- At least `p` of the observed values are at most `x`. -/
def Reaches (obs : List (ℚ × UInt64)) (p x : ℚ) : Prop := p * obs.length ≤ countLe obs x

/-- The bucket bounds that at least `p` of the observed values are at most. -/
def reachedBounds (bounds : List ℚ) (obs : List (ℚ × UInt64)) (p : ℚ) : Set ℚ :=
  {b | b ∈ bounds.take metricHistogramMaxBuckets ∧ Reaches obs p b}

/-- The least bucket bound is found that at least `p` of the values are at most, which is
not below the quantile, and that of a smaller `p` is not above it. -/
structure PercentileCorrect (bounds : List ℚ) (obs : List (ℚ × UInt64)) (p : ℚ) : Prop where
  least : ∃ b, histogramPercentile (observed bounds obs) p = some b ∧
    IsLeast (reachedBounds bounds obs p) b
  quantile : ∀ q b, IsLeast {x | Reaches obs p x} q →
    histogramPercentile (observed bounds obs) p = some b → q ≤ b
  monotone : ∀ p' b' b, 0 < p' → p' ≤ p →
    histogramPercentile (observed bounds obs) p' = some b' →
    histogramPercentile (observed bounds obs) p = some b → b' ≤ b

/-- With counters that have not wrapped, the rank is a whole number or no bucket has just
the rounded number of values; without a value, the first bound is 0. With counters that have
wrapped, the bound to be found is the first whose counter reaches the rounded rank, or the
last. -/
def RankFits (bounds : List ℚ) (obs : List (ℚ × UInt64)) (p : ℚ) : Prop :=
  if obs = [] then bounds.head? = some 0
  else if obs.length < 2 ^ 64 then
    (∃ b ∈ (bounds.take metricHistogramMaxBuckets).getLast?, Reaches obs p b) ∧
      ∀ b ∈ bounds.take metricHistogramMaxBuckets,
        countLe obs b = ⌊p * obs.length⌋₊ → (⌊p * obs.length⌋₊ : ℚ) = p * obs.length
  else if obs.length % 2 ^ 64 = 0 then IsLeast (reachedBounds bounds obs p) 0
  else
    ∃ b, IsLeast (reachedBounds bounds obs p) b ∧
      (∀ a ∈ bounds.take metricHistogramMaxBuckets, a < b →
        countLe obs a % 2 ^ 64 < ⌊p * (obs.length % 2 ^ 64 : ℕ)⌋₊) ∧
      (⌊p * (obs.length % 2 ^ 64 : ℕ)⌋₊ ≤ countLe obs b % 2 ^ 64 ∨
        (bounds.take metricHistogramMaxBuckets).getLast? = some b)

theorem countLe_mono (obs : List (ℚ × UInt64)) {x y : ℚ} (hxy : x ≤ y) :
    countLe obs x ≤ countLe obs y :=
  List.countP_mono_left fun _ _ hv => decide_eq_true ((of_decide_eq_true hv).trans hxy)

theorem countLe_concat (obs : List (ℚ × UInt64)) (v : ℚ × UInt64) (x : ℚ) :
    countLe (obs ++ [v]) x = countLe obs x + if v.1 ≤ x then 1 else 0 := by
  rw [countLe, List.countP_append, List.countP_singleton, countLe]
  simp only [decide_eq_true_eq]

structure Histogram.Holds (bounds : List ℚ) (h : Histogram) (obs : List (ℚ × UInt64)) :
    Prop where
  upperBounds : h.upperBounds = bounds.take metricHistogramMaxBuckets
  counts : h.counts = h.upperBounds.map fun b => UInt64.ofNat (countLe obs b)
  count : h.count = UInt64.ofNat obs.length

section Counters

variable {bounds : List ℚ} {h : Histogram} {obs : List (ℚ × UInt64)}

theorem Histogram.Holds.observe (hinv : h.Holds bounds obs) (v : ℚ × UInt64) :
    (histogramObserve h v).Holds bounds (obs ++ [v]) := by
  constructor
  · exact hinv.upperBounds
  · have hround : ∀ b, (if v.1 ≤ b then UInt64.ofNat (countLe obs b) + 1
        else UInt64.ofNat (countLe obs b)) = UInt64.ofNat (countLe (obs ++ [v]) b) := by
      intro b
      rw [countLe_concat]
      split_ifs with hle
      · rw [UInt64.ofNat_add, UInt64.ofNat_one]
      · rw [Nat.add_zero]
    rw [histogramObserve, hinv.counts, List.zipWith_map_right, List.zipWith_self]
    simp only [hround]
  · rw [histogramObserve, hinv.count, List.length_append, List.length_singleton,
      UInt64.ofNat_add, UInt64.ofNat_one]

theorem holds_observed (bounds : List ℚ) (obs : List (ℚ × UInt64)) :
    (observed bounds obs).Holds bounds obs := by
  unfold observed
  induction obs using List.reverseRecOn with
  | nil => exact ⟨rfl, rfl, rfl⟩
  | append_singleton obs v ih =>
      rw [run_concat]
      exact ih.observe v

def rank (obs : List (ℚ × UInt64)) (p : ℚ) : ℕ := ⌊p * (obs.length % 2 ^ 64 : ℕ)⌋₊

theorem rank_lt (obs : List (ℚ × UInt64)) {p : ℚ} (hp : p ≤ 1) : rank obs p < 2 ^ 64 := by
  have hcount : obs.length % 2 ^ 64 < 2 ^ 64 := Nat.mod_lt _ (by decide)
  refine lt_of_le_of_lt (Nat.floor_le_of_le ?_) hcount
  exact mul_le_of_le_one_left (Nat.cast_nonneg _) hp

theorem histogramPercentile_observed (bounds : List ℚ) (obs : List (ℚ × UInt64)) {p : ℚ}
    (hp : p ≤ 1) :
    histogramPercentile (observed bounds obs) p =
      if obs.length % 2 ^ 64 = 0 then some 0
      else firstOrLast (fun b => decide (rank obs p ≤ countLe obs b % 2 ^ 64))
        (bounds.take metricHistogramMaxBuckets) := by
  have hinv := holds_observed bounds obs
  have hzero : (observed bounds obs).count = 0 ↔ obs.length % 2 ^ 64 = 0 := by
    rw [hinv.count, ← UInt64.toNat_inj, UInt64.toNat_ofNat', UInt64.toNat_zero]
  have htarget : (UInt64.ofNat (rank obs p)).toNat = rank obs p := by
    rw [UInt64.toNat_ofNat', Nat.mod_eq_of_lt (rank_lt obs hp)]
  have htest : ((fun bucket : ℚ × UInt64 => decide (bucket.2 ≥ UInt64.ofNat (rank obs p))) ∘
      fun b => (b, UInt64.ofNat (countLe obs b))) =
        fun b => decide (rank obs p ≤ countLe obs b % 2 ^ 64) := by
    funext b
    rw [Function.comp_apply, decide_eq_decide, ge_iff_le, UInt64.le_iff_toNat_le, htarget,
      UInt64.toNat_ofNat']
  have hzip : (observed bounds obs).upperBounds.zip (observed bounds obs).counts =
      (bounds.take metricHistogramMaxBuckets).map fun b => (b, UInt64.ofNat (countLe obs b)) := by
    rw [hinv.counts, hinv.upperBounds, List.zip_eq_zipWith, List.zipWith_map_right,
      List.zipWith_self]
  have hrank : ⌊p * (observed bounds obs).count.toNat⌋₊ = rank obs p := by
    rw [hinv.count, UInt64.toNat_ofNat', rank]
  unfold histogramPercentile
  simp only [hzero, hrank]
  rw [hzip, List.find?_map, htest, hinv.upperBounds]
  split_ifs with hnone
  · rfl
  · rw [firstOrLast]
    cases (bounds.take metricHistogramMaxBuckets).find?
      fun b => decide (rank obs p ≤ countLe obs b % 2 ^ 64) <;> rfl

end Counters

section Correct

variable {bounds : List ℚ} {obs : List (ℚ × UInt64)} {p : ℚ}

theorem histogramPercentile_mono (hbounds : bounds.Pairwise (· < ·)) {p' b b' : ℚ}
    (hp : p ≤ 1) (hle : p' ≤ p)
    (hp' : histogramPercentile (observed bounds obs) p' = some b')
    (hb : histogramPercentile (observed bounds obs) p = some b) : b' ≤ b := by
  have hsorted := hbounds.sublist (List.take_sublist metricHistogramMaxBuckets bounds)
  have hrank : rank obs p' ≤ rank obs p :=
    Nat.floor_le_floor (mul_le_mul_of_nonneg_right hle (Nat.cast_nonneg _))
  rw [histogramPercentile_observed bounds obs (hle.trans hp)] at hp'
  rw [histogramPercentile_observed bounds obs hp] at hb
  split_ifs at hp' hb with hnone
  · exact (Option.some.inj (hp'.symm.trans hb)).le
  · exact firstOrLast_mono hsorted
      (fun c _ hc => decide_eq_true (hrank.trans (of_decide_eq_true hc))) hb hp'

theorem percentileCorrect_iff_least (hbounds : bounds.Pairwise (· < ·)) (hp : p ≤ 1) :
    PercentileCorrect bounds obs p ↔
      ∃ b, histogramPercentile (observed bounds obs) p = some b ∧
        IsLeast (reachedBounds bounds obs p) b := by
  refine ⟨fun hcorrect => hcorrect.least, fun hleast => ⟨hleast, ?_, ?_⟩⟩
  · intro q b hq hb
    obtain ⟨b', hb', hreached⟩ := hleast
    cases Option.some.inj (hb.symm.trans hb')
    exact hq.2 hreached.1.2
  · intro p' b' b _ hle hp' hb
    exact histogramPercentile_mono hbounds hp hle hp' hb

/-- With counters that may have wrapped, the least bound is found where its counter is the
first to reach the rank. -/
theorem firstOrLast_rank_iff (hbounds : bounds.Pairwise (· < ·)) (b : ℚ) :
    firstOrLast (fun b => decide (rank obs p ≤ countLe obs b % 2 ^ 64))
        (bounds.take metricHistogramMaxBuckets) = some b ↔
      b ∈ bounds.take metricHistogramMaxBuckets ∧
        (∀ a ∈ bounds.take metricHistogramMaxBuckets, a < b →
          countLe obs a % 2 ^ 64 < rank obs p) ∧
        (rank obs p ≤ countLe obs b % 2 ^ 64 ∨
          (bounds.take metricHistogramMaxBuckets).getLast? = some b) := by
  rw [firstOrLast_eq_some_iff
    (hbounds.sublist (List.take_sublist metricHistogramMaxBuckets bounds))]
  simp only [decide_eq_false_iff_not, decide_eq_true_eq, not_le]

/-- Where a bound with just the rounded number of values means that the rank is whole, a counter
reaches the rounded rank when it reaches the rank. -/
theorem floor_le_countLe_iff {b : ℚ}
    (hexact : countLe obs b = ⌊p * obs.length⌋₊ →
      (⌊p * obs.length⌋₊ : ℚ) = p * obs.length) :
    ⌊p * obs.length⌋₊ ≤ countLe obs b ↔ Reaches obs p b := by
  rw [Reaches]
  constructor
  · intro hle
    rcases hle.eq_or_lt with heq | hlt
    · rw [← hexact heq.symm, heq]
    · exact ((Nat.floor_lt' (Nat.ne_zero_of_lt hlt)).mp hlt).le
  · exact fun hle => Nat.floor_le_of_le hle

/-- With counters that have not wrapped, the rounded rank has to tell the same bounds
apart as the rank. -/
theorem exists_firstOrLast_isLeast_iff (hbounds : bounds.Pairwise (· < ·)) (hp : 0 < p)
    (hlen : obs.length < 2 ^ 64) :
    (∃ b, firstOrLast (fun b => decide (rank obs p ≤ countLe obs b % 2 ^ 64))
        (bounds.take metricHistogramMaxBuckets) = some b ∧
          IsLeast (reachedBounds bounds obs p) b) ↔
      (∃ b ∈ (bounds.take metricHistogramMaxBuckets).getLast?, Reaches obs p b) ∧
        ∀ b ∈ bounds.take metricHistogramMaxBuckets,
          countLe obs b = ⌊p * obs.length⌋₊ → (⌊p * obs.length⌋₊ : ℚ) = p * obs.length := by
  have hsorted := hbounds.sublist (List.take_sublist metricHistogramMaxBuckets bounds)
  have hrank : rank obs p = ⌊p * obs.length⌋₊ := by rw [rank, Nat.mod_eq_of_lt hlen]
  have hcount : ∀ b, countLe obs b % 2 ^ 64 = countLe obs b := fun b =>
    Nat.mod_eq_of_lt (List.countP_le_length.trans_lt hlen)
  have hfloor : (⌊p * obs.length⌋₊ : ℚ) ≤ p * obs.length :=
    Nat.floor_le (mul_nonneg hp.le (Nat.cast_nonneg _))
  constructor
  · rintro ⟨b, hb, ⟨hmem, hreaches⟩, -⟩
    obtain ⟨last, hlast⟩ : ∃ last,
        (bounds.take metricHistogramMaxBuckets).getLast? = some last :=
      ⟨_, List.getLast?_eq_some_getLast (List.ne_nil_of_mem hmem)⟩
    refine ⟨⟨last, hlast, hreaches.trans ?_⟩, fun a ha hexact => ?_⟩
    · exact_mod_cast countLe_mono obs (le_of_mem_getLast? hsorted hmem hlast)
    · rw [firstOrLast_rank_iff hbounds, hrank] at hb
      simp only [hcount] at hb
      have hba : b ≤ a := le_of_not_gt fun hab => (hb.2.1 a ha hab).ne hexact
      refine le_antisymm hfloor (hreaches.trans ?_)
      rw [← hexact]
      exact_mod_cast countLe_mono obs hba
  · rintro ⟨⟨last, hlast, hreaches⟩, hexact⟩
    have hsame : ∀ b ∈ bounds.take metricHistogramMaxBuckets,
        rank obs p ≤ countLe obs b % 2 ^ 64 ↔ Reaches obs p b := by
      intro b hb
      rw [hrank, hcount]
      exact floor_le_countLe_iff (hexact b hb)
    have hset : reachedBounds bounds obs p =
        {b | b ∈ bounds.take metricHistogramMaxBuckets ∧
          decide (rank obs p ≤ countLe obs b % 2 ^ 64) = true} := by
      ext b
      refine and_congr_right fun hb => ?_
      rw [decide_eq_true_eq, hsame b hb]
    have hmem := List.mem_of_getLast? hlast
    obtain ⟨b, hb⟩ : ∃ b, (bounds.take metricHistogramMaxBuckets).find?
        (fun b => decide (rank obs p ≤ countLe obs b % 2 ^ 64)) = some b := by
      rw [← Option.isSome_iff_exists, List.find?_isSome]
      exact ⟨last, hmem, decide_eq_true ((hsame last hmem).mpr hreaches)⟩
    refine ⟨b, by rw [firstOrLast, hb, Option.some_or], ?_⟩
    rwa [hset, ← find?_eq_some_iff_isLeast hsorted]

theorem exists_zero_isLeast_nil_iff (hbounds : bounds.Pairwise (· < ·)) :
    (∃ b, some (0 : ℚ) = some b ∧ IsLeast (reachedBounds bounds [] p) b) ↔
      bounds.head? = some 0 := by
  have hsorted := hbounds.sublist (List.take_sublist metricHistogramMaxBuckets bounds)
  have hset : reachedBounds bounds [] p = {b | b ∈ bounds.take metricHistogramMaxBuckets} := by
    ext b
    refine and_iff_left ?_
    rw [Reaches, List.length_nil, Nat.cast_zero, mul_zero]
    exact Nat.cast_nonneg _
  have hhead : (bounds.take metricHistogramMaxBuckets).head? = bounds.head? := by
    rw [List.head?_take, if_neg (by decide)]
  rw [← hhead, head?_eq_some_iff_isLeast hsorted, hset]
  constructor
  · rintro ⟨b, hb, hleast⟩
    rwa [Option.some.inj hb]
  · exact fun hleast => ⟨0, rfl, hleast⟩

/-- A percentile is right exactly when the rank fits. -/
theorem percentileCorrect_iff {bounds : List ℚ} (hbounds : bounds.Pairwise (· < ·))
    (obs : List (ℚ × UInt64)) {p : ℚ} (hpos : 0 < p) (hp : p ≤ 1) :
    PercentileCorrect bounds obs p ↔ RankFits bounds obs p := by
  rw [percentileCorrect_iff_least hbounds hp, histogramPercentile_observed bounds obs hp, RankFits]
  by_cases hnil : obs = []
  · rw [if_pos hnil, hnil, List.length_nil, Nat.zero_mod, if_pos rfl]
    exact exists_zero_isLeast_nil_iff hbounds
  · have hlength := List.length_pos_iff.mpr hnil
    rw [if_neg hnil]
    by_cases hlen : obs.length < 2 ^ 64
    · rw [if_pos hlen, if_neg (by omega)]
      exact exists_firstOrLast_isLeast_iff hbounds hpos hlen
    · rw [if_neg hlen]
      by_cases hwrapped : obs.length % 2 ^ 64 = 0
      · rw [if_pos hwrapped, if_pos hwrapped]
        constructor
        · rintro ⟨b, hb, hleast⟩
          rwa [Option.some.inj hb]
        · exact fun hleast => ⟨0, rfl, hleast⟩
      · rw [if_neg hwrapped, if_neg hwrapped]
        refine exists_congr fun b => ?_
        rw [firstOrLast_rank_iff hbounds, and_comm]
        exact and_congr_right fun hleast => and_iff_right hleast.1.1

theorem percentileCorrect_p50 :
    PercentileCorrect [1, 2, 5] [(1, 10), (3, 20), (3, 30), (4, 40)] (1 / 2) ↔
      RankFits [1, 2, 5] [(1, 10), (3, 20), (3, 30), (4, 40)] (1 / 2) :=
  percentileCorrect_iff (by decide) _ (by norm_num) (by norm_num)

/-- The median of one value 2 is found to be at most 1. -/
theorem not_percentileCorrect_p50 :
    ¬∀ (bounds : List ℚ) (obs : List (ℚ × UInt64)) (p : ℚ), bounds.Pairwise (· < ·) →
      (∀ v ∈ obs, ∃ b ∈ bounds.getLast?, v.1 ≤ b) → 0 < p → p ≤ 1 →
        PercentileCorrect bounds obs p := by
  intro hlaw
  have hbounds : [(1 : ℚ), 2].Pairwise (· < ·) := by decide
  have hpos : (0 : ℚ) < 1 / 2 := by norm_num
  have hp : (1 / 2 : ℚ) ≤ 1 := by norm_num
  have hleast := (hlaw [1, 2] [(2, 10)] (1 / 2) hbounds
    (List.forall_mem_singleton.mpr ⟨2, rfl, le_rfl⟩) hpos hp).least
  rw [histogramPercentile_observed _ _ hp, if_neg (by decide),
    exists_firstOrLast_isLeast_iff hbounds hpos (by decide)] at hleast
  have hrank : ⌊(1 / 2 : ℚ) * ([(2, 10)] : List (ℚ × UInt64)).length⌋₊ = 0 := by norm_num
  have hexact := hleast.2 1 (by decide) (hrank.symm ▸ (by decide : countLe [(2, 10)] 1 = 0))
  rw [hrank] at hexact
  norm_num at hexact

end Correct

end Monitoring

end Shinigami
