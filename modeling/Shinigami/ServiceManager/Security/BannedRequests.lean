import Shinigami.ServiceManager.Security.PenaltyBox

/-!
# What a banned request costs

`sm_ratelimit_check_extended` asks the process limiter before it looks into the
penalty box. A banned request is refused either way, but it is paid for with a
token of the global bucket and one of the process, unless the process limiter
already refuses it.

Buckets are refilled when they are next asked, so two limiters are compared by
the tokens they show at a later reading (`tokenCounts`). Tokens and clock readings,
`double` in the program, are taken as rational numbers.
-/

namespace Shinigami

namespace ServiceManager

open CString TokenBucket

/-- What the buckets hold at the reading `t`: the global one, and each process
bucket with its process. -/
def tokenCounts (rl : RateLimiter) (t : ℚ) : ℚ × List (ℤ × ℚ) :=
  ((refill smRateGlobalRefill smRateGlobalCapacity t rl.global).tokens,
    rl.pidTable.map fun b => (b.pid, (refillBucket b t).bucket.tokens))

/-- The process limiter has no token for the process: the global bucket is out
of tokens, or the bucket of the process is. -/
def ProcessLimited (rl : RateLimiter) (pid : ℤ) (now : ℚ) : Prop :=
  (refill smRateGlobalRefill smRateGlobalCapacity now rl.global).tokens < 1 ∨
    ∃ b, rl.pidTable.find? (·.pid == pid) = some b ∧
      (refillBucket b now).bucket.tokens < 1

/-- A call at `now` leaves the global bucket, every process bucket and every
service bucket with the tokens they would have had without it. -/
def LeavesTokens (rl : RateLimiter) (limits : ServiceLimits) (now : ℚ)
    (rl' : RateLimiter) (limits' : ServiceLimits) : Prop :=
  (∀ t, now ≤ t → tokenCounts rl' t = tokenCounts rl t) ∧
    limits'.buckets = limits.buckets

theorem smRateGlobalRefill_nonneg : 0 ≤ smRateGlobalRefill := by
  norm_num [smRateGlobalRefill]

theorem smRatePidRefill_pos : 0 < smRatePidRefill := by
  norm_num [smRatePidRefill]

section Limiter

variable {rl : RateLimiter} {pid : ℤ} {now : ℚ} {table : List PidBucket}

theorem scanTable_of_find {b : PidBucket} (h : table.find? (·.pid == pid) = some b)
    (i lruIdx : ℕ) (lruTime : ℚ) :
    ∃ pre post, table = pre ++ b :: post ∧
      scanTable pid table i lruIdx lruTime = .entry (i + pre.length) := by
  induction table generalizing i lruIdx lruTime with
  | nil => simp at h
  | cons c table ih =>
      by_cases hc : c.pid = pid
      · obtain rfl : c = b := by simpa [hc] using h
        exact ⟨[], table, rfl, by simp [scanTable, hc]⟩
      · have hrest : table.find? (·.pid == pid) = some b := by simpa [hc] using h
        have hnext : ∃ lruIdx' lruTime', scanTable pid (c :: table) i lruIdx lruTime =
            scanTable pid table (i + 1) lruIdx' lruTime' := by
          rw [scanTable, if_neg hc]
          split_ifs
          · exact ⟨_, _, rfl⟩
          · exact ⟨_, _, rfl⟩
        obtain ⟨lruIdx', lruTime', heq⟩ := hnext
        obtain ⟨pre, post, rfl, hscan⟩ := ih hrest (i + 1) lruIdx' lruTime'
        refine ⟨c :: pre, post, rfl, ?_⟩
        rw [heq, hscan, List.length_cons, Nat.add_assoc, Nat.add_comm 1]

theorem claimBucket_of_absent (now : ℚ) (h : table.find? (·.pid == pid) = none) :
    ∃ table' i, claimBucket table pid now = (table', i) ∧
      table'.getD i ⟨pid, ⟨0, now⟩⟩ = ⟨pid, ⟨smRatePidCapacity, now⟩⟩ := by
  have habsent : ∀ b ∈ table, b.pid ≠ pid := by simpa using h
  have hlru : ∃ i, scanTable pid table 0 0 dblMax = .lru i ∧
      (smRateTableSize ≤ table.length → i < table.length) := by
    rcases scanTable_spec pid table 0 0 dblMax with
      ⟨pre, b, post, rfl, hb, -⟩ | ⟨-, ⟨pre, b, post, rfl, -, -, hscan⟩ | ⟨-, hscan⟩⟩
    · exact absurd hb (habsent b (by simp))
    · exact ⟨_, hscan, fun _ => by simp⟩
    · exact ⟨_, hscan, fun hfull => Nat.lt_of_lt_of_le (by decide) hfull⟩
  obtain ⟨i, hscan, hi⟩ := hlru
  simp only [claimBucket, hscan]
  by_cases hroom : table.length < smRateTableSize
  · exact ⟨_, _, if_pos hroom, by simp⟩
  · refine ⟨_, _, if_neg hroom, ?_⟩
    simp [hi (Nat.le_of_not_lt hroom)]

theorem refillBucket_refill {b : PidBucket} {t : ℚ} (h : now ≤ t) :
    refillBucket (refillBucket b now) t = refillBucket b t := by
  simp only [refillBucket, refill_refill_of_le smRatePidRefill_pos.le h]

/-- Out of tokens, the process limiter refuses and only writes its buckets
down. -/
theorem smRateLimitCheck_of_limited (h : ProcessLimited rl pid now) :
    (smRateLimitCheck rl pid now).2 = smErrRatelimit ∧
      ∀ t, now ≤ t → tokenCounts (smRateLimitCheck rl pid now).1 t = tokenCounts rl t := by
  by_cases hglobal :
      (refill smRateGlobalRefill smRateGlobalCapacity now rl.global).tokens < 1
  · have hcheck : smRateLimitCheck rl pid now =
        ({ rl with global := refill smRateGlobalRefill smRateGlobalCapacity now rl.global },
          smErrRatelimit) := by
      simp only [smRateLimitCheck]
      rw [if_pos hglobal]
    rw [hcheck]
    refine ⟨rfl, fun t ht => ?_⟩
    simp only [tokenCounts, refill_refill_of_le smRateGlobalRefill_nonneg ht]
  · obtain ⟨b, hb, hempty⟩ := h.resolve_left hglobal
    obtain ⟨pre, post, htable, hscan⟩ := scanTable_of_find hb 0 0 dblMax
    have hclaim : claimBucket rl.pidTable pid now = (rl.pidTable, pre.length) := by
      simp only [claimBucket, hscan, zero_add]
    have hget : rl.pidTable.getD pre.length ⟨pid, ⟨0, now⟩⟩ = b := by simp [htable]
    rw [smRateLimitCheck_of_claim (not_lt.mp hglobal) hclaim hget, if_pos hempty, htable,
      set_append_length]
    refine ⟨rfl, fun t ht => ?_⟩
    simp only [tokenCounts, refill_refill_of_le smRateGlobalRefill_nonneg ht, htable,
      List.map_append, List.map_cons, refillBucket_refill ht]
    rfl

theorem smRateLimitCheck_of_not_limited (h : ¬ProcessLimited rl pid now) :
    (smRateLimitCheck rl pid now).2 = smOk ∧
      (smRateLimitCheck rl pid now).1.global =
        spend (refill smRateGlobalRefill smRateGlobalCapacity now rl.global) := by
  obtain ⟨hglobal, hpid⟩ := not_or.mp h
  cases hb : rl.pidTable.find? (·.pid == pid) with
  | none =>
      obtain ⟨table', i, hclaim, hget⟩ := claimBucket_of_absent now hb
      rw [smRateLimitCheck_of_fresh (not_lt.mp hglobal) hclaim hget]
      exact ⟨rfl, rfl⟩
  | some b =>
      have htoken : ¬(refillBucket b now).bucket.tokens < 1 := fun hlt =>
        hpid ⟨b, hb, hlt⟩
      obtain ⟨pre, post, htable, hscan⟩ := scanTable_of_find hb 0 0 dblMax
      have hclaim : claimBucket rl.pidTable pid now = (rl.pidTable, pre.length) := by
        simp only [claimBucket, hscan, zero_add]
      have hget : rl.pidTable.getD pre.length ⟨pid, ⟨0, now⟩⟩ = b := by simp [htable]
      rw [smRateLimitCheck_of_claim (not_lt.mp hglobal) hclaim hget, if_neg htoken]
      exact ⟨rfl, rfl⟩

theorem tokenCounts_of_spend {rl' : RateLimiter}
    (h : rl'.global = spend (refill smRateGlobalRefill smRateGlobalCapacity now rl.global)) :
    tokenCounts rl' now ≠ tokenCounts rl now := by
  have hlater : now ≤ rl'.global.lastRefill := by
    rw [h]
    exact le_refill_lastRefill _ _ _ _
  intro heq
  have htokens := congrArg Prod.fst heq
  simp only [tokenCounts, refill_of_not_lt hlater] at htokens
  rw [h, spend_tokens] at htokens
  linarith

end Limiter

theorem buckets_recordViolation (limits : ServiceLimits) (pid : ℤ) (name : List UInt8)
    (now : ℤ) : (recordViolation limits pid name now).buckets = limits.buckets := by
  unfold recordViolation
  cases findOrCreatePenalty limits.penalties pid name <;> rfl

/-- A banned request is refused, and the service buckets are not charged. -/
theorem smRatelimitCheckExtended_of_banned {limits : ServiceLimits} {pid : ℤ}
    {name : List UInt8} {banNow : ℤ}
    (hbanned : (isInPenaltyBox limits pid name banNow).2 = true)
    (rl : RateLimiter) (mono : ℚ) (violationNow : ℤ) :
    let after := smRatelimitCheckExtended rl limits pid (some name) mono banNow violationNow
    after.2.2 = -1 ∧ after.2.1.buckets = limits.buckets := by
  simp only [smRatelimitCheckExtended, hbanned, if_true]
  by_cases hrc : (smRateLimitCheck rl pid mono).2 ≠ 0
  · rw [if_pos hrc]
    exact ⟨rfl, buckets_recordViolation _ _ _ _⟩
  · rw [if_neg hrc]
    exact ⟨rfl, (isInPenaltyBox_frame limits pid name banNow).1⟩

/-- A banned request costs no token exactly when the process limiter has none
for it. -/
theorem bannedRequest_free_iff (rl : RateLimiter) (limits : ServiceLimits) (pid : ℤ)
    (name : List UInt8) (mono : ℚ) (banNow violationNow : ℤ)
    (hbanned : (isInPenaltyBox limits pid name banNow).2 = true) :
    let after := smRatelimitCheckExtended rl limits pid (some name) mono banNow violationNow
    after.2.2 = -1 ∧ LeavesTokens rl limits mono after.1 after.2.1 ↔
      ProcessLimited rl pid mono := by
  intro after
  obtain ⟨hrefused, hbuckets⟩ :=
    smRatelimitCheckExtended_of_banned hbanned rl mono violationNow
  have hcharge : after.1 = (smRateLimitCheck rl pid mono).1 :=
    smRatelimitCheckExtended_fst rl limits pid (some name) mono banNow violationNow
  constructor
  · rintro ⟨-, hfree, -⟩
    by_contra hopen
    have hspent := (smRateLimitCheck_of_not_limited hopen).2
    rw [← hcharge] at hspent
    exact tokenCounts_of_spend hspent (hfree mono le_rfl)
  · intro hlimited
    refine ⟨hrefused, ?_, hbuckets⟩
    rw [hcharge]
    exact (smRateLimitCheck_of_limited hlimited).2

/-- A fresh pair of limiters in which the process 7 is banned from `a`. -/
def bannedProcess : ServiceLimits :=
  ⟨[], [⟨ascii ['a'], 7, 0, 0, 100⟩]⟩

theorem bannedRequest_free_iff_empty :
    let after := smRatelimitCheckExtended ⟨[], ⟨0, 1⟩⟩ bannedProcess 7 (some (ascii ['a'])) 1 50 50
    after.2.2 = -1 ∧ LeavesTokens ⟨[], ⟨0, 1⟩⟩ bannedProcess 1 after.1 after.2.1 ↔
      ProcessLimited ⟨[], ⟨0, 1⟩⟩ 7 1 :=
  bannedRequest_free_iff ⟨[], ⟨0, 1⟩⟩ bannedProcess 7 (ascii ['a']) 1 50 50 (by decide)

/-- With full buckets a banned request takes a token. -/
theorem banned_request_charged :
    (isInPenaltyBox bannedProcess 7 (ascii ['a']) 50).2 = true ∧
      let after := smRatelimitCheckExtended (smRateLimitInit 0) bannedProcess 7
        (some (ascii ['a'])) 1 50 50
      ¬(after.2.2 = -1 ∧ LeavesTokens (smRateLimitInit 0) bannedProcess 1 after.1 after.2.1) := by
  refine ⟨by decide, ?_⟩
  intro after h
  have hone := congrArg Prod.fst (h.2.1 1 le_rfl)
  revert hone
  decide +kernel

end ServiceManager

end Shinigami
