import Mathlib.Data.List.Nodup
import Mathlib.Data.List.Perm.Subperm
import Shinigami.Foundations.Run
import Shinigami.ServiceManager.Security.RateLimit

/-!
# The rate bound

Every run of `smRateLimitCheck` respects both rates in every interval of time.
For the global bucket this is the usual accounting. A process bucket can be
evicted and come back full, so its accounting needs the global bucket: an
evicted bucket was full anyway (`RateInv.evicted_full`), for otherwise all the
256 processes of the table were accepted within the last 1.1 seconds, which is
more than the global bucket admits.
-/

namespace Shinigami

namespace ServiceManager

open TokenBucket

/-- One call of `sm_rate_limit_check` and its answer. -/
structure Decision where
  pid : ℤ
  time : ℚ
  ok : Bool

def globalHist (hist : List Decision) : List (ℚ × Bool) :=
  hist.map fun d => (d.time, d.ok)

def pidHist (pid : ℤ) (hist : List Decision) : List (ℚ × Bool) :=
  globalHist (hist.filter fun d => d.pid = pid)

def rateStep (s : RateLimiter × List Decision) (call : ℤ × Timespec) :
    RateLimiter × List Decision :=
  let now := monoNow call.2
  let result := smRateLimitCheck s.1 call.1 now
  (result.1, s.2 ++ [⟨call.1, now, result.2 = smOk⟩])

theorem globalHist_concat (hist : List Decision) (d : Decision) :
    globalHist (hist ++ [d]) = globalHist hist ++ [(d.time, d.ok)] := by
  simp [globalHist]

theorem pidHist_concat_self (hist : List Decision) (d : Decision) :
    pidHist d.pid (hist ++ [d]) = pidHist d.pid hist ++ [(d.time, d.ok)] := by
  simp [pidHist, globalHist]

theorem pidHist_concat_of_ne {pid : ℤ} (hist : List Decision) {d : Decision}
    (h : d.pid ≠ pid) : pidHist pid (hist ++ [d]) = pidHist pid hist := by
  simp [pidHist, h]

def PidMetered (hist : List Decision) (now : ℚ) (pid : ℤ) (φ : ℚ) : Prop :=
  Metered smRatePidRefill smRatePidCapacity (pidHist pid hist) now φ

def pidLevel (b : PidBucket) (now : ℚ) : ℚ :=
  level smRatePidRefill smRatePidCapacity b.bucket now

/-- What holds of a used entry of the table. The last acceptance of its process
is at most a tenth of a second before its last refill, and what was earned since
has not been spent. -/
structure BucketInv (hist : List Decision) (now : ℚ) (b : PidBucket) : Prop where
  tokens_nonneg : 0 ≤ b.bucket.tokens
  tokens_le : b.bucket.tokens ≤ smRatePidCapacity
  last_le : b.bucket.lastRefill ≤ now
  metered : PidMetered hist now b.pid (pidLevel b now)
  accepted : ∃ o, ⟨b.pid, o, true⟩ ∈ hist ∧ o ≤ b.bucket.lastRefill ∧
    b.bucket.lastRefill - o ≤ 1 / 10 ∧
    smRatePidRefill * (b.bucket.lastRefill - o) ≤ b.bucket.tokens

/-- The invariant of the limiter after the decisions `hist`, at the time `now`
of the last of them. -/
structure RateInv (rl : RateLimiter) (hist : List Decision) (now : ℚ) : Prop where
  now_lt : now < dblMax
  global_last : rl.global.lastRefill = now
  global_nonneg : 0 ≤ rl.global.tokens
  global_le : rl.global.tokens ≤ smRateGlobalCapacity
  global_metered : Metered smRateGlobalRefill smRateGlobalCapacity
    (globalHist hist) now rl.global.tokens
  nodup : (rl.pidTable.map PidBucket.pid).Nodup
  bucket : ∀ b ∈ rl.pidTable, BucketInv hist now b
  absent : ∀ pid, (∀ b ∈ rl.pidTable, b.pid ≠ pid) →
    PidMetered hist now pid smRatePidCapacity

theorem monoNow_lt_dblMax (ts : Timespec) : monoNow ts < dblMax := by
  have hsec : (ts.tvSec : ℚ) < 2 ^ 63 := by exact_mod_cast ts.sec_range.2
  have hnsec : (ts.tvNsec : ℚ) < 10 ^ 9 := by exact_mod_cast ts.nsec_range.2
  have hmax : (2 : ℚ) ^ 63 + 1 < dblMax :=
    calc (2 : ℚ) ^ 63 + 1 < 2 ^ 64 := by norm_num
      _ ≤ 2 ^ 971 := pow_le_pow_right₀ (by norm_num) (by norm_num)
      _ ≤ dblMax := le_mul_of_one_le_left (by positivity) (by norm_num)
  simp only [monoNow]
  linarith

theorem rateInv_init (now : ℚ) (hnow : now < dblMax) :
    RateInv (smRateLimitInit now) [] now where
  now_lt := hnow
  global_last := rfl
  global_nonneg := by norm_num [smRateLimitInit, smRateGlobalCapacity]
  global_le := le_rfl
  global_metered := Metered.nil (by norm_num [smRateGlobalRefill])
    (by norm_num [smRateGlobalCapacity]) le_rfl
  nodup := List.nodup_nil
  bucket := by simp [smRateLimitInit]
  absent := fun _ _ => Metered.nil (by norm_num [smRatePidRefill])
    (by norm_num [smRatePidCapacity]) le_rfl

theorem smRatePidRefill_nonneg : 0 ≤ smRatePidRefill := by
  norm_num [smRatePidRefill]

theorem PidMetered.wait {hist : List Decision} {now now' φ φ' : ℚ} {pid : ℤ}
    (h : PidMetered hist now pid φ) (hnow : now ≤ now')
    (hcap : φ' ≤ smRatePidCapacity)
    (hearn : φ' ≤ φ + smRatePidRefill * (now' - now)) :
    PidMetered hist now' pid φ' :=
  Metered.wait h smRatePidRefill_nonneg hnow hcap hearn

theorem PidMetered.concat {hist : List Decision} {now φ : ℚ} {pid : ℤ}
    {d : Decision} (h : PidMetered hist now pid φ) (hφ : 0 ≤ φ)
    (htime : d.time = now) (hd : d.pid = pid → d.ok = false) :
    PidMetered (hist ++ [d]) now pid φ := by
  by_cases hpid : d.pid = pid
  · subst hpid
    rw [PidMetered, pidHist_concat_self, hd rfl, htime]
    exact Metered.decide h smRatePidRefill_nonneg (by simp) hφ
  · rw [PidMetered, pidHist_concat_of_ne hist hpid]
    exact h

theorem PidMetered.spend {hist : List Decision} {now φ : ℚ} {pid : ℤ}
    (h : PidMetered hist now pid φ) (hφ : 1 ≤ φ) :
    PidMetered (hist ++ [⟨pid, now, true⟩]) now pid (φ - 1) := by
  have hconcat := pidHist_concat_self hist ⟨pid, now, true⟩
  rw [PidMetered, hconcat]
  exact Metered.decide h smRatePidRefill_nonneg (by simp) (by linarith)

theorem pidLevel_nonneg {hist : List Decision} {now now' : ℚ} {b : PidBucket}
    (h : BucketInv hist now b) (hnow : now ≤ now') : 0 ≤ pidLevel b now' := by
  have hgain : 0 ≤ smRatePidRefill * (now' - b.bucket.lastRefill) :=
    mul_nonneg smRatePidRefill_nonneg (by linarith [h.last_le])
  have hcap : (0 : ℚ) ≤ smRatePidCapacity := by norm_num [smRatePidCapacity]
  exact le_min hcap (by linarith [h.tokens_nonneg])

theorem BucketInv.metered_at {hist : List Decision} {now now' : ℚ} {b : PidBucket}
    (h : BucketInv hist now b) (hnow : now ≤ now') :
    PidMetered hist now' b.pid (pidLevel b now') :=
  h.metered.wait hnow (level_le_cap _ _ _ _)
    (level_le_add smRatePidRefill_nonneg b.bucket hnow)

theorem BucketInv.concat {hist : List Decision} {now now' : ℚ} {b : PidBucket}
    {d : Decision} (h : BucketInv hist now b) (hnow : now ≤ now')
    (htime : d.time = now') (hd : d.pid = b.pid → d.ok = false) :
    BucketInv (hist ++ [d]) now' b where
  tokens_nonneg := h.tokens_nonneg
  tokens_le := h.tokens_le
  last_le := h.last_le.trans hnow
  metered := (h.metered_at hnow).concat (pidLevel_nonneg h hnow) htime hd
  accepted := by
    obtain ⟨o, ho, hrest⟩ := h.accepted
    exact ⟨o, List.mem_append_left _ ho, hrest⟩

theorem bucketInv_spend {hist : List Decision} {now x : ℚ} {pid : ℤ}
    (h : PidMetered hist now pid x) (hone : 1 ≤ x) (hcap : x ≤ smRatePidCapacity) :
    BucketInv (hist ++ [⟨pid, now, true⟩]) now ⟨pid, ⟨x - 1, now⟩⟩ where
  tokens_nonneg := by linarith
  tokens_le := by linarith
  last_le := le_rfl
  metered := by
    have hlevel : pidLevel ⟨pid, ⟨x - 1, now⟩⟩ now = x - 1 :=
      level_lastRefill (by linarith)
    rw [hlevel]
    exact h.spend hone
  accepted := by
    refine ⟨now, by simp, le_rfl, by norm_num, ?_⟩
    rw [sub_self, mul_zero]
    linarith

/-- The bucket of a process that was refused now: it held less than one token,
so it earned for less than a tenth of a second. -/
theorem BucketInv.refuse {hist : List Decision} {now now' : ℚ} {b : PidBucket}
    (h : BucketInv hist now b) (hnow : now ≤ now')
    (hlow : (refillBucket b now').bucket.tokens < 1) :
    BucketInv (hist ++ [⟨b.pid, now', false⟩]) now' (refillBucket b now') := by
  have hlast : b.bucket.lastRefill ≤ now' := h.last_le.trans hnow
  have hlevel : (refillBucket b now').bucket.tokens = pidLevel b now' :=
    refill_tokens hlast h.tokens_le
  have hlast' : (refillBucket b now').bucket.lastRefill = now' :=
    refill_lastRefill hlast
  have hcap : (1 : ℚ) ≤ smRatePidCapacity := by norm_num [smRatePidCapacity]
  have hearned : pidLevel b now' =
      b.bucket.tokens + smRatePidRefill * (now' - b.bucket.lastRefill) := by
    refine min_eq_right (le_of_not_gt fun hgt => ?_)
    have hfull : pidLevel b now' = smRatePidCapacity := min_eq_left hgt.le
    linarith
  have hnonneg := pidLevel_nonneg h hnow
  refine ⟨by linarith, by linarith, hlast'.le, ?_, ?_⟩
  · have hsame : pidLevel (refillBucket b now') now' = pidLevel b now' :=
      calc pidLevel (refillBucket b now') now'
          = pidLevel (refillBucket b now')
              (refillBucket b now').bucket.lastRefill := by rw [hlast']
        _ = (refillBucket b now').bucket.tokens := level_lastRefill (by linarith)
        _ = pidLevel b now' := hlevel
    rw [hsame]
    exact (h.metered_at hnow).concat hnonneg rfl fun _ => rfl
  · obtain ⟨o, ho, hle, -, htok⟩ := h.accepted
    have hsum : smRatePidRefill * (now' - o) ≤ pidLevel b now' := by
      have hsplit : smRatePidRefill * (now' - o) =
          smRatePidRefill * (b.bucket.lastRefill - o) +
            smRatePidRefill * (now' - b.bucket.lastRefill) := by ring
      linarith
    refine ⟨o, List.mem_append_left _ ho, ?_, ?_, ?_⟩
    · rw [hlast']
      exact hle.trans hlast
    · rw [hlast']
      simp only [smRatePidRefill] at hsum
      linarith
    · rw [hlast', hlevel]
      exact hsum

theorem length_le_acceptedIn {hist : List Decision} {s t : ℚ} {pids : List ℤ}
    (hnodup : pids.Nodup)
    (h : ∀ pid ∈ pids, ∃ o, ⟨pid, o, true⟩ ∈ hist ∧ s ≤ o ∧ o ≤ t) :
    pids.length ≤ acceptedIn (globalHist hist) s t := by
  have hsub : pids ⊆ (hist.filter fun d =>
      decide (s ≤ d.time ∧ d.time ≤ t) && d.ok).map Decision.pid := by
    intro pid hpid
    obtain ⟨o, ho, hs, ht⟩ := h pid hpid
    refine List.mem_map.mpr ⟨⟨pid, o, true⟩, ?_, rfl⟩
    simp [ho, hs, ht]
  have hlen := (hnodup.subperm hsub).length_le
  rw [List.length_map, ← List.countP_eq_length_filter] at hlen
  rw [acceptedIn, globalHist, List.countP_map]
  exact hlen

theorem RateInv.evicted_full {rl : RateLimiter} {hist : List Decision}
    {now now' : ℚ} {b : PidBucket} (h : RateInv rl hist now) (hnow : now ≤ now')
    (hsize : smRateTableSize ≤ rl.pidTable.length) (hb : b ∈ rl.pidTable)
    (hmin : ∀ c ∈ rl.pidTable, b.bucket.lastRefill ≤ c.bucket.lastRefill) :
    pidLevel b now' = smRatePidCapacity := by
  refine min_eq_left (le_of_not_gt fun hlow => ?_)
  have hrecent : now' - 1 < b.bucket.lastRefill := by
    have htokens := (h.bucket b hb).tokens_nonneg
    simp only [smRatePidCapacity, smRatePidRefill] at hlow
    linarith
  have hall : (rl.pidTable.map PidBucket.pid).length ≤
      acceptedIn (globalHist hist) (now - 11 / 10) now := by
    refine length_le_acceptedIn h.nodup fun pid hpid => ?_
    obtain ⟨c, hc, rfl⟩ := List.mem_map.mp hpid
    obtain ⟨o, ho, hle, hnear, -⟩ := (h.bucket c hc).accepted
    refine ⟨o, ho, ?_, hle.trans (h.bucket c hc).last_le⟩
    linarith [hmin c hc]
  have hrated := h.global_metered.rated (now - 11 / 10) now (by linarith)
  have hsize' : (256 : ℚ) ≤ acceptedIn (globalHist hist) (now - 11 / 10) now := by
    rw [List.length_map] at hall
    exact_mod_cast hsize.trans hall
  simp only [smRateGlobalCapacity, smRateGlobalRefill] at hrated
  linarith

theorem RateInv.next {rl rl' : RateLimiter} {hist : List Decision} {now : ℚ}
    {ts : Timespec} {pid : ℤ} {ok : Bool} (h : RateInv rl hist now)
    (hnow : now ≤ monoNow ts)
    (hlast : rl'.global.lastRefill = monoNow ts)
    (hpaid : rl'.global.tokens = (refill smRateGlobalRefill smRateGlobalCapacity
      (monoNow ts) rl.global).tokens - if ok then 1 else 0)
    (hnonneg : 0 ≤ rl'.global.tokens)
    (hnodup : (rl'.pidTable.map PidBucket.pid).Nodup)
    (hbucket : ∀ b ∈ rl'.pidTable,
      BucketInv (hist ++ [⟨pid, monoNow ts, ok⟩]) (monoNow ts) b)
    (habsent : ∀ pid', (∀ b ∈ rl'.pidTable, b.pid ≠ pid') →
      PidMetered (hist ++ [⟨pid, monoNow ts, ok⟩]) (monoNow ts) pid'
        smRatePidCapacity) :
    RateInv rl' (hist ++ [⟨pid, monoNow ts, ok⟩]) (monoNow ts) := by
  have hrate : 0 ≤ smRateGlobalRefill := by norm_num [smRateGlobalRefill]
  have hcost : (0 : ℚ) ≤ if ok then 1 else 0 := by split_ifs <;> norm_num
  have hlevel : (refill smRateGlobalRefill smRateGlobalCapacity (monoNow ts)
      rl.global).tokens =
        level smRateGlobalRefill smRateGlobalCapacity rl.global (monoNow ts) :=
    refill_tokens (h.global_last.le.trans hnow) h.global_le
  have hbefore : level smRateGlobalRefill smRateGlobalCapacity rl.global now =
      rl.global.tokens := by
    rw [← h.global_last]
    exact level_lastRefill h.global_le
  have hcap := level_le_cap smRateGlobalRefill smRateGlobalCapacity rl.global
    (monoNow ts)
  refine ⟨monoNow_lt_dblMax ts, hlast, hnonneg, by linarith, ?_, hnodup, hbucket,
    habsent⟩
  rw [globalHist_concat]
  refine (h.global_metered.wait hrate hnow hcap ?_).decide hrate
    (by rw [hpaid, hlevel]) hnonneg
  rw [← hbefore]
  exact level_le_add hrate rl.global hnow

/-- A process outside the table stays full when another one is decided on, or
when it is refused. -/
theorem RateInv.absent_concat {rl : RateLimiter} {hist : List Decision}
    {now now' : ℚ} {pid : ℤ} {d : Decision} (h : RateInv rl hist now)
    (hnow : now ≤ now') (hpid : ∀ b ∈ rl.pidTable, b.pid ≠ pid)
    (htime : d.time = now') (hd : d.pid = pid → d.ok = false) :
    PidMetered (hist ++ [d]) now' pid smRatePidCapacity := by
  have hgain : 0 ≤ smRatePidRefill * (now' - now) :=
    mul_nonneg smRatePidRefill_nonneg (by linarith)
  refine ((h.absent pid hpid).wait hnow le_rfl (by linarith)).concat ?_ htime hd
  norm_num [smRatePidCapacity]

theorem nodup_replace {α : Type*} {pre post : List α} {a b : α}
    (h : (pre ++ a :: post).Nodup) (hb : b ∉ pre ++ a :: post) :
    (pre ++ b :: post).Nodup := by
  rw [List.nodup_middle, List.nodup_cons] at h ⊢
  exact ⟨fun hmem => hb (by simp_all), h.2⟩

theorem RateInv.pid_ne {rl : RateLimiter} {hist : List Decision} {now : ℚ}
    {pre post : List PidBucket} {b c : PidBucket} (h : RateInv rl hist now)
    (htable : rl.pidTable = pre ++ b :: post) (hc : c ∈ pre ∨ c ∈ post) :
    c.pid ≠ b.pid := by
  have hnodup := h.nodup
  rw [htable, List.map_append, List.map_cons, List.nodup_middle, List.nodup_cons,
    ← List.map_append] at hnodup
  intro heq
  exact hnodup.1 (heq ▸ List.mem_map_of_mem (List.mem_append.mpr hc))

theorem RateInv.next_found {rl : RateLimiter} {hist : List Decision} {now : ℚ}
    {ts : Timespec} {ok : Bool} {pre post : List PidBucket} {b b' : PidBucket}
    {global : Bucket ℚ} (h : RateInv rl hist now) (hnow : now ≤ monoNow ts)
    (hlast : global.lastRefill = monoNow ts)
    (hpaid : global.tokens = (refill smRateGlobalRefill smRateGlobalCapacity
      (monoNow ts) rl.global).tokens - if ok then 1 else 0)
    (hnonneg : 0 ≤ global.tokens) (htable : rl.pidTable = pre ++ b :: post)
    (hpid : b'.pid = b.pid)
    (hb' : BucketInv (hist ++ [⟨b.pid, monoNow ts, ok⟩]) (monoNow ts) b') :
    RateInv ⟨pre ++ b' :: post, global⟩ (hist ++ [⟨b.pid, monoNow ts, ok⟩])
      (monoNow ts) := by
  refine h.next hnow hlast hpaid hnonneg ?_ ?_ ?_
  · have hnodup := h.nodup
    rw [htable, List.map_append, List.map_cons] at hnodup
    rwa [List.map_append, List.map_cons, hpid]
  · intro c hc
    by_cases heq : c = b'
    · rwa [heq]
    · have hside : c ∈ pre ∨ c ∈ post := by simpa [heq] using hc
      have hmem : c ∈ rl.pidTable := by
        rw [htable]
        rcases hside with hpre | hpost <;> simp [*]
      refine (h.bucket c hmem).concat hnow rfl fun hsame => ?_
      exact absurd hsame.symm (h.pid_ne htable hside)
  · intro pid' hne
    have hb : b.pid ≠ pid' := by
      rw [← hpid]
      exact hne b' (by simp)
    refine h.absent_concat hnow ?_ rfl fun hsame => absurd hsame hb
    intro c hc
    rw [htable] at hc
    rcases List.mem_append.mp hc with hpre | hpost
    · exact hne c (by simp [hpre])
    · rcases List.mem_cons.mp hpost with rfl | hpost
      · exact hb
      · exact hne c (by simp [hpost])

/-- The process had no bucket: it gets a fresh one, and a bucket that is lost
for it was full. -/
theorem RateInv.next_fresh {rl rl' : RateLimiter} {hist : List Decision}
    {now : ℚ} {ts : Timespec} {pid : ℤ} (h : RateInv rl hist now)
    (hnow : now ≤ monoNow ts)
    (hlast : rl'.global.lastRefill = monoNow ts)
    (hpaid : rl'.global.tokens = (refill smRateGlobalRefill smRateGlobalCapacity
      (monoNow ts) rl.global).tokens - 1)
    (hnonneg : 0 ≤ rl'.global.tokens)
    (hpid : ∀ b ∈ rl.pidTable, b.pid ≠ pid)
    (hnodup : (rl'.pidTable.map PidBucket.pid).Nodup)
    (hfresh : ⟨pid, ⟨smRatePidCapacity - 1, monoNow ts⟩⟩ ∈ rl'.pidTable)
    (hnew : ∀ c ∈ rl'.pidTable,
      c = ⟨pid, ⟨smRatePidCapacity - 1, monoNow ts⟩⟩ ∨ c ∈ rl.pidTable)
    (hlost : ∀ b ∈ rl.pidTable,
      b ∈ rl'.pidTable ∨ pidLevel b (monoNow ts) = smRatePidCapacity) :
    RateInv rl' (hist ++ [⟨pid, monoNow ts, true⟩]) (monoNow ts) := by
  have hgain : 0 ≤ smRatePidRefill * (monoNow ts - now) :=
    mul_nonneg smRatePidRefill_nonneg (by linarith)
  refine h.next hnow hlast (by simpa using hpaid) hnonneg hnodup ?_ ?_
  · intro c hc
    rcases hnew c hc with rfl | hold
    · have hfull : PidMetered hist (monoNow ts) pid smRatePidCapacity :=
        (h.absent pid hpid).wait hnow le_rfl (by linarith)
      exact bucketInv_spend hfull (by norm_num [smRatePidCapacity]) le_rfl
    · refine (h.bucket c hold).concat hnow rfl fun hsame => ?_
      exact absurd hsame.symm (hpid c hold)
  · intro pid' hne
    have hpid' : pid ≠ pid' := hne _ hfresh
    by_cases habsent : ∀ b ∈ rl.pidTable, b.pid ≠ pid'
    · exact h.absent_concat hnow habsent rfl fun hsame => absurd hsame hpid'
    · -- The evicted bucket.
      obtain ⟨b, hb, hbpid⟩ : ∃ b ∈ rl.pidTable, b.pid = pid' := by
        simpa using habsent
      subst hbpid
      have hfull := (hlost b hb).resolve_left fun hkept => hne b hkept rfl
      have hlater := (h.bucket b hb).concat (d := ⟨pid, monoNow ts, true⟩) hnow rfl
        fun hsame => absurd hsame hpid'
      rw [← hfull]
      exact hlater.metered

theorem RateInv.next_append {rl : RateLimiter} {hist : List Decision} {now : ℚ}
    {ts : Timespec} {pid : ℤ} {global : Bucket ℚ} (h : RateInv rl hist now)
    (hnow : now ≤ monoNow ts) (hlast : global.lastRefill = monoNow ts)
    (hpaid : global.tokens = (refill smRateGlobalRefill smRateGlobalCapacity
      (monoNow ts) rl.global).tokens - 1)
    (hnonneg : 0 ≤ global.tokens) (hpid : ∀ b ∈ rl.pidTable, b.pid ≠ pid) :
    RateInv
      ⟨rl.pidTable ++ [⟨pid, ⟨smRatePidCapacity - 1, monoNow ts⟩⟩], global⟩
      (hist ++ [⟨pid, monoNow ts, true⟩]) (monoNow ts) := by
  refine h.next_fresh hnow hlast hpaid hnonneg hpid ?_ ?_ ?_ ?_
  · rw [List.map_append]
    exact h.nodup.append (List.nodup_singleton _) (by simpa using hpid)
  · simp
  · simp [or_comm]
  · simp +contextual

/-- The process gets the slot of a least recently used bucket, which was full. -/
theorem RateInv.next_evict {rl : RateLimiter} {hist : List Decision} {now : ℚ}
    {ts : Timespec} {pid : ℤ} {pre post : List PidBucket} {b : PidBucket}
    {global : Bucket ℚ} (h : RateInv rl hist now)
    (hnow : now ≤ monoNow ts) (hlast : global.lastRefill = monoNow ts)
    (hpaid : global.tokens = (refill smRateGlobalRefill smRateGlobalCapacity
      (monoNow ts) rl.global).tokens - 1)
    (hnonneg : 0 ≤ global.tokens) (hpid : ∀ b ∈ rl.pidTable, b.pid ≠ pid)
    (hsize : smRateTableSize ≤ rl.pidTable.length)
    (htable : rl.pidTable = pre ++ b :: post)
    (hmin : ∀ c ∈ rl.pidTable, b.bucket.lastRefill ≤ c.bucket.lastRefill) :
    RateInv
      ⟨pre ++ ⟨pid, ⟨smRatePidCapacity - 1, monoNow ts⟩⟩ :: post, global⟩
      (hist ++ [⟨pid, monoNow ts, true⟩]) (monoNow ts) := by
  have hfull := h.evicted_full hnow hsize (by simp [htable]) hmin
  have hmem : ∀ c, c ∈ rl.pidTable ↔ c ∈ pre ∨ c = b ∨ c ∈ post := by
    simp [htable]
  refine h.next_fresh hnow hlast hpaid hnonneg hpid ?_ ?_ ?_ ?_
  · have hnodup := h.nodup
    have hnew : pid ∉ rl.pidTable.map PidBucket.pid := by simpa using hpid
    rw [htable, List.map_append, List.map_cons] at hnodup hnew
    rw [List.map_append, List.map_cons]
    exact nodup_replace hnodup hnew
  · simp
  · intro c hc
    rw [hmem]
    rcases List.mem_append.mp hc with hpre | hpost
    · exact .inr (.inl hpre)
    · rcases List.mem_cons.mp hpost with rfl | hpost
      · exact .inl rfl
      · exact .inr (.inr (.inr hpost))
  · intro c hc
    rcases (hmem c).mp hc with hpre | rfl | hpost
    · simp [hpre]
    · exact .inr hfull
    · simp [hpost]

theorem RateInv.refill_nonneg {rl : RateLimiter} {hist : List Decision}
    {now now' : ℚ} (h : RateInv rl hist now) (hnow : now ≤ now') :
    0 ≤ (refill smRateGlobalRefill smRateGlobalCapacity now' rl.global).tokens := by
  have hgain : 0 ≤ smRateGlobalRefill * (now' - now) :=
    mul_nonneg (by norm_num [smRateGlobalRefill]) (by linarith)
  rw [refill_tokens (h.global_last.le.trans hnow) h.global_le]
  apply le_min (by norm_num [smRateGlobalCapacity])
  rw [h.global_last]
  linarith [h.global_nonneg]

theorem BucketInv.accept {hist : List Decision} {now now' : ℚ} {b : PidBucket}
    (h : BucketInv hist now b) (hnow : now ≤ now')
    (hhigh : 1 ≤ (refillBucket b now').bucket.tokens) :
    BucketInv (hist ++ [⟨b.pid, now', true⟩]) now'
      ⟨b.pid, spend (refillBucket b now').bucket⟩ := by
  have hlevel : (refillBucket b now').bucket = ⟨pidLevel b now', now'⟩ :=
    refill_eq_level (h.last_le.trans hnow) h.tokens_le
  rw [hlevel] at hhigh ⊢
  exact bucketInv_spend (h.metered_at hnow) hhigh (level_le_cap _ _ _ _)

theorem rateInv_step {rl : RateLimiter} {hist : List Decision} {now : ℚ}
    (h : RateInv rl hist now) (call : ℤ × Timespec) (hnow : now ≤ monoNow call.2) :
    RateInv (rateStep (rl, hist) call).1 (rateStep (rl, hist) call).2
      (monoNow call.2) := by
  obtain ⟨pid, ts⟩ := call
  have hmax : ∀ b ∈ rl.pidTable, b.bucket.lastRefill < dblMax := fun b hb =>
    lt_of_le_of_lt (h.bucket b hb).last_le h.now_lt
  have hlast : (refill smRateGlobalRefill smRateGlobalCapacity (monoNow ts)
      rl.global).lastRefill = monoNow ts :=
    refill_lastRefill (h.global_last.le.trans hnow)
  have hrefused : decide (smErrRatelimit = smOk) = false := rfl
  have haccepted : decide (smOk = smOk) = true := rfl
  simp only [rateStep]
  rcases smRateLimitCheck_cases rl pid (monoNow ts) hmax with
    ⟨-, heq⟩ | ⟨hone, ⟨pre, b, post, htable, rfl, hfound⟩ | ⟨hno, hfresh⟩⟩
  · rw [heq, hrefused]
    exact h.next hnow hlast (by simp) (h.refill_nonneg hnow) h.nodup
      (fun b hb => (h.bucket b hb).concat hnow rfl fun _ => rfl)
      fun pid' hpid' => h.absent_concat hnow hpid' rfl fun _ => rfl
  · have hb := h.bucket b (by simp [htable])
    rcases hfound with ⟨hlow, heq⟩ | ⟨hhigh, heq⟩
    · rw [heq, hrefused]
      exact h.next_found hnow hlast (by simp) (by linarith) htable rfl
        (hb.refuse hnow hlow)
    · rw [heq, haccepted]
      exact h.next_found hnow hlast (by simp) (by simpa using hone) htable rfl
        (hb.accept hnow hhigh)
  · rcases hfresh with ⟨-, heq⟩ | ⟨hsize, pre, b, post, htable, hmin, heq⟩
    · rw [heq, haccepted]
      exact h.next_append hnow hlast rfl (by simpa using hone) hno
    · rw [heq, haccepted]
      exact h.next_evict hnow hlast rfl (by simpa using hone) hno hsize htable hmin

/-- The readings of the clock never go back. -/
def ClockSorted (start : Timespec) (calls : List (ℤ × Timespec)) : Prop :=
  (start :: calls.map Prod.snd).Pairwise fun a b => monoNow a ≤ monoNow b

/-- The limiter and its decisions after `calls`, from `sm_rate_limit_init`. -/
def rateRun (start : Timespec) (calls : List (ℤ × Timespec)) :
    RateLimiter × List Decision :=
  run rateStep (smRateLimitInit (monoNow start), []) calls

theorem rateInv_run {s : RateLimiter × List Decision} {start : Timespec}
    (calls : List (ℤ × Timespec)) (h : RateInv s.1 s.2 (monoNow start))
    (hsorted : ClockSorted start calls) :
    ∃ now, RateInv (run rateStep s calls).1 (run rateStep s calls).2 now := by
  induction calls generalizing s start with
  | nil => exact ⟨monoNow start, h⟩
  | cons call calls ih =>
      rw [ClockSorted, List.map_cons, List.pairwise_cons] at hsorted
      have hnow := hsorted.1 call.2 (by simp)
      exact ih (rateInv_step h call hnow) hsorted.2

/-- In every interval of time a process is accepted at most at its rate beyond
its capacity, and so are all processes together. -/
theorem rate_bound (start : Timespec) (calls : List (ℤ × Timespec))
    (hsorted : ClockSorted start calls) (pid : ℤ) (s t : ℚ) (hst : s ≤ t) :
    let hist := (rateRun start calls).2
    (acceptedIn (pidHist pid hist) s t : ℚ) ≤
        smRatePidCapacity + smRatePidRefill * (t - s) ∧
      (acceptedIn (globalHist hist) s t : ℚ) ≤
        smRateGlobalCapacity + smRateGlobalRefill * (t - s) := by
  intro hist
  obtain ⟨now, h⟩ := rateInv_run (s := (smRateLimitInit (monoNow start), [])) calls
    (rateInv_init (monoNow start) (monoNow_lt_dblMax start)) hsorted
  refine ⟨?_, h.global_metered.rated s t hst⟩
  by_cases habsent : ∀ b ∈ (rateRun start calls).1.pidTable, b.pid ≠ pid
  · exact (h.absent pid habsent).rated s t hst
  · obtain ⟨b, hb, rfl⟩ : ∃ b ∈ (rateRun start calls).1.pidTable, b.pid = pid := by
      simpa using habsent
    exact (h.bucket b hb).metered.rated s t hst

/-- Eleven calls of one process at the same reading: the bound is attained. -/
theorem rate_bound_burst :
    let zero : Timespec := ⟨0, 0, by decide, by decide⟩
    let calls := List.replicate 11 ((7 : ℤ), zero)
    ClockSorted zero calls ∧
      acceptedIn (pidHist 7 (rateRun zero calls).2) 0 0 = 10 ∧
      (acceptedIn (pidHist 7 (rateRun zero calls).2) 0 0 : ℚ) ≤
        smRatePidCapacity + smRatePidRefill * (0 - 0) := by
  intro zero calls
  have hsorted : ClockSorted zero calls := by
    have hall : ∀ a ∈ zero :: calls.map Prod.snd, a = zero := by
      simp [calls]
    rw [ClockSorted]
    refine List.pairwise_of_forall_mem_list fun a ha b hb => ?_
    rw [hall a ha, hall b hb]
  exact ⟨hsorted, by decide +kernel,
    (rate_bound zero calls hsorted 7 0 0 le_rfl).1⟩

end ServiceManager

end Shinigami
