import Mathlib.Algebra.Order.Field.Basic
import Mathlib.Tactic.Linarith
import Mathlib.Tactic.NormNum
import Mathlib.Tactic.Ring

/-!
# Token buckets

A bucket holds `tokens` tokens as of the time `lastRefill`; it gains `rate`
tokens per unit of time up to a capacity. `level` is what the bucket would hold
at a later time, and a refill only writes the level down (`refill_tokens`).

The second part is the accounting that turns a bucket into a rate bound. A
history is a list of decisions, each with its time and whether it was accepted,
and `acceptedIn hist s t` counts the accepted ones in `[s, t]`. `Metered` says
that a history up to `now` has been paid for by a reserve that earns `rate` and
never exceeds `cap`, with `φ` left over. Waiting and deciding keep it
(`Metered.wait`, `Metered.decide`), and it contains the bound
`cap + rate * (t - s)` for every interval.
-/

namespace Shinigami

namespace TokenBucket

structure Bucket (K : Type*) where
  tokens : K
  lastRefill : K
deriving DecidableEq

/-- The number of accepted decisions with a time in `[s, t]`. -/
def acceptedIn {K : Type*} [LinearOrder K] (hist : List (K × Bool)) (s t : K) :
    ℕ :=
  hist.countP fun e => decide (s ≤ e.1 ∧ e.1 ≤ t) && e.2

theorem acceptedIn_append {K : Type*} [LinearOrder K]
    (hist hist' : List (K × Bool)) (s t : K) :
    acceptedIn (hist ++ hist') s t = acceptedIn hist s t + acceptedIn hist' s t :=
  List.countP_append

theorem acceptedIn_eq_zero {K : Type*} [LinearOrder K] {hist : List (K × Bool)}
    {s t : K} (h : ∀ e ∈ hist, e.1 < s ∨ t < e.1) : acceptedIn hist s t = 0 := by
  rw [acceptedIn, List.countP_eq_zero]
  intro e he
  rcases h e he with hlt | hlt
  · simp [not_le.mpr hlt]
  · simp [not_le.mpr hlt]

/-- Moving the end of the interval over times at which nothing was decided does
not change the count. -/
theorem acceptedIn_congr_right {K : Type*} [LinearOrder K]
    {hist : List (K × Bool)} {s now t : K} (h : ∀ e ∈ hist, e.1 ≤ now)
    (hnow : now ≤ t) : acceptedIn hist s t = acceptedIn hist s now := by
  unfold acceptedIn
  refine List.countP_congr fun e he => ?_
  simp [h e he, (h e he).trans hnow]

def spend {K : Type*} [Field K] (b : Bucket K) : Bucket K :=
  { b with tokens := b.tokens - 1 }

@[simp] theorem spend_tokens {K : Type*} [Field K] (b : Bucket K) :
    (spend b).tokens = b.tokens - 1 := rfl

variable {K : Type*} [Field K] [LinearOrder K]

/-- Refilling a bucket at the time `now`; a clock that has not advanced changes
nothing. -/
def refill (rate cap now : K) (b : Bucket K) : Bucket K :=
  let elapsed := now - b.lastRefill
  if elapsed > 0 then
    let tokens := b.tokens + elapsed * rate
    ⟨if tokens > cap then cap else tokens, now⟩
  else b

theorem le_refill_lastRefill [IsStrictOrderedRing K] (rate cap now : K) (b : Bucket K) :
    now ≤ (refill rate cap now b).lastRefill := by
  simp only [refill]
  by_cases hpos : now - b.lastRefill > 0
  · rw [if_pos hpos]
  · rw [if_neg hpos]
    linarith

theorem refill_refill_of_le [IsStrictOrderedRing K] {rate cap now t : K} (hrate : 0 ≤ rate)
    (h : now ≤ t) (b : Bucket K) :
    refill rate cap t (refill rate cap now b) = refill rate cap t b := by
  rcases le_or_gt now b.lastRefill with hle | hlt
  · have hstay : ¬now - b.lastRefill > 0 := by linarith
    simp only [refill, if_neg hstay]
  have hnow : now - b.lastRefill > 0 := by linarith
  have ht : t - b.lastRefill > 0 := by linarith
  have hgain : 0 ≤ (t - now) * rate := mul_nonneg (by linarith) hrate
  have hsplit : b.tokens + (t - b.lastRefill) * rate =
      b.tokens + (now - b.lastRefill) * rate + (t - now) * rate := by ring
  simp only [refill, if_pos hnow, if_pos ht, hsplit]
  rcases h.eq_or_lt with rfl | hlater
  · simp
  have hpos : t - now > 0 := by linarith
  rw [if_pos hpos]
  congr 1
  split_ifs <;> linarith

def level (rate cap : K) (b : Bucket K) (t : K) : K :=
  min cap (b.tokens + rate * (t - b.lastRefill))

theorem level_le_cap (rate cap : K) (b : Bucket K) (t : K) :
    level rate cap b t ≤ cap := min_le_left _ _

theorem level_lastRefill {rate cap : K} {b : Bucket K} (h : b.tokens ≤ cap) :
    level rate cap b b.lastRefill = b.tokens := by
  simp [level, h]

theorem refill_lastRefill {rate cap now : K} {b : Bucket K}
    [IsStrictOrderedRing K] (h : b.lastRefill ≤ now) :
    (refill rate cap now b).lastRefill = now := by
  simp only [refill]
  by_cases hpos : now - b.lastRefill > 0
  · simp only [hpos, if_true]
  · simp only [hpos, if_false]
    linarith

theorem refill_of_not_lt {rate cap now : K} {b : Bucket K}
    [IsStrictOrderedRing K] (h : now ≤ b.lastRefill) :
    refill rate cap now b = b := by
  have hpos : ¬now - b.lastRefill > 0 := by linarith
  simp only [refill, hpos, if_false]

theorem refill_tokens {rate cap now : K} {b : Bucket K} [IsStrictOrderedRing K]
    (h : b.lastRefill ≤ now) (hcap : b.tokens ≤ cap) :
    (refill rate cap now b).tokens = level rate cap b now := by
  simp only [refill, level]
  split_ifs with hpos hfull
  · rw [mul_comm] at hfull
    rw [min_eq_left hfull.le]
  · rw [mul_comm] at hfull ⊢
    rw [min_eq_right (not_lt.mp hfull)]
  · have heq : now - b.lastRefill = 0 := by linarith
    rw [heq, mul_zero, add_zero, min_eq_right hcap]

theorem refill_eq_level {rate cap now : K} {b : Bucket K} [IsStrictOrderedRing K]
    (h : b.lastRefill ≤ now) (hcap : b.tokens ≤ cap) :
    refill rate cap now b = ⟨level rate cap b now, now⟩ := by
  have hlast : (refill rate cap now b).lastRefill = now := refill_lastRefill h
  rw [← refill_tokens h hcap]
  exact congrArg (Bucket.mk _) hlast

section Accounting

variable [IsStrictOrderedRing K]

theorem level_le_add {rate cap : K} (hrate : 0 ≤ rate) (b : Bucket K) {t t' : K}
    (h : t ≤ t') : level rate cap b t' ≤ level rate cap b t + rate * (t' - t) := by
  have hgain : 0 ≤ rate * (t' - t) := mul_nonneg hrate (by linarith)
  unfold level
  rcases min_cases cap (b.tokens + rate * (t - b.lastRefill)) with
    ⟨heq, -⟩ | ⟨heq, -⟩
  · rw [heq]
    exact le_trans (min_le_left _ _) (by linarith)
  · rw [heq]
    apply le_trans (min_le_right _ _)
    have hsplit : rate * (t' - b.lastRefill) =
        rate * (t - b.lastRefill) + rate * (t' - t) := by ring
    linarith

/-- The history up to `now` is paid for: the accepted decisions since any `s`
are covered by a full reserve and what it earned since, less the `φ` still in
reserve, and every interval respects the rate. -/
structure Metered (rate cap : K) (hist : List (K × Bool)) (now φ : K) : Prop where
  past : ∀ e ∈ hist, e.1 ≤ now
  reserve : ∀ s ≤ now, (acceptedIn hist s now : K) ≤ cap + rate * (now - s) - φ
  rated : ∀ s t, s ≤ t → (acceptedIn hist s t : K) ≤ cap + rate * (t - s)

theorem Metered.nil {rate cap now φ : K} (hrate : 0 ≤ rate) (hcap : 0 ≤ cap)
    (hφ : φ ≤ cap) : Metered rate cap [] now φ := by
  have hgain : ∀ {s t : K}, s ≤ t → 0 ≤ rate * (t - s) := fun h =>
    mul_nonneg hrate (by linarith)
  refine ⟨by simp, ?_, ?_⟩
  · intro s hs
    have := hgain hs
    simp only [acceptedIn, List.countP_nil, Nat.cast_zero]
    linarith
  · intro s t hst
    have := hgain hst
    simp only [acceptedIn, List.countP_nil, Nat.cast_zero]
    linarith

theorem Metered.wait {rate cap now now' φ φ' : K} {hist : List (K × Bool)}
    (h : Metered rate cap hist now φ) (hrate : 0 ≤ rate) (hnow : now ≤ now')
    (hcap : φ' ≤ cap) (hearn : φ' ≤ φ + rate * (now' - now)) :
    Metered rate cap hist now' φ' := by
  refine ⟨fun e he => (h.past e he).trans hnow, ?_, h.rated⟩
  intro s hs
  rcases le_or_gt s now with hle | hlt
  · have hold := h.reserve s hle
    have hsplit : rate * (now' - s) =
        rate * (now - s) + rate * (now' - now) := by ring
    rw [acceptedIn_congr_right h.past hnow]
    linarith
  · have hzero : acceptedIn hist s now' = 0 :=
      acceptedIn_eq_zero fun e he => .inl (lt_of_le_of_lt (h.past e he) hlt)
    have hgain : 0 ≤ rate * (now' - s) := mul_nonneg hrate (by linarith)
    rw [hzero, Nat.cast_zero]
    linarith

/-- One decision at the time `now`: an accepted one is paid from the reserve. -/
theorem Metered.decide {rate cap now φ φ' : K} {hist : List (K × Bool)}
    {ok : Bool} (h : Metered rate cap hist now φ) (hrate : 0 ≤ rate)
    (hpay : φ' ≤ φ - if ok then 1 else 0) (hφ' : 0 ≤ φ') :
    Metered rate cap (hist ++ [(now, ok)]) now φ' := by
  have hpast : ∀ e ∈ hist ++ [(now, ok)], e.1 ≤ now := by
    intro e he
    rcases List.mem_append.mp he with hold | hnew
    · exact h.past e hold
    · rw [List.mem_singleton.mp hnew]
  have hreserve : ∀ s ≤ now, (acceptedIn (hist ++ [(now, ok)]) s now : K) ≤
      cap + rate * (now - s) - φ' := by
    intro s hs
    have hold := h.reserve s hs
    have hone : (acceptedIn [(now, ok)] s now : K) = if ok then 1 else 0 := by
      cases ok <;> simp [acceptedIn, hs]
    rw [acceptedIn_append, Nat.cast_add, hone]
    linarith
  refine ⟨hpast, hreserve, ?_⟩
  intro s t hst
  rcases lt_or_ge t now with hlt | hge
  · have hnone : acceptedIn [(now, ok)] s t = 0 := by
      refine acceptedIn_eq_zero fun e he => .inr ?_
      rwa [List.mem_singleton.mp he]
    rw [acceptedIn_append, hnone, add_zero]
    exact h.rated s t hst
  · rcases le_or_gt s now with hle | hgt
    · have hgain : rate * (now - s) ≤ rate * (t - s) :=
        mul_le_mul_of_nonneg_left (by linarith) hrate
      have hres := hreserve s hle
      rw [acceptedIn_congr_right hpast hge]
      linarith
    · have hzero : acceptedIn (hist ++ [(now, ok)]) s t = 0 :=
        acceptedIn_eq_zero fun e he => .inl (lt_of_le_of_lt (hpast e he) hgt)
      have hgain : 0 ≤ rate * (t - s) := mul_nonneg hrate (by linarith)
      have hcap : φ' ≤ cap := by
        have hnow := hreserve now le_rfl
        rw [sub_self, mul_zero] at hnow
        have hcount := (acceptedIn (hist ++ [(now, ok)]) now now).cast_nonneg (α := K)
        linarith
      rw [hzero, Nat.cast_zero]
      linarith

end Accounting

end TokenBucket

end Shinigami
