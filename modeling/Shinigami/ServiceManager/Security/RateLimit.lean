import Mathlib.Data.Rat.Init
import Mathlib.Algebra.Order.Ring.Rat
import Shinigami.Foundations.TokenBucket
import Shinigami.ServiceManager.Infrastructure.Protocol

/-!
# Per-process and global rate limit

The token buckets of `sm_rate_limit.c`, with rationals for `double`. The table
of process buckets is the list of its used entries. `smRateLimitCheck` first
refills the global bucket; only if that holds a token does it look at the table,
where it finds, appends or evicts the bucket of the process.

`smRateLimitCheck_cases` says what a check can do. Everything later about the
limiter is derived from it.
-/

namespace Shinigami

namespace ServiceManager

open TokenBucket

def smRatePidCapacity : ℚ := 10

def smRatePidRefill : ℚ := 10

def smRateGlobalCapacity : ℚ := 50

def smRateGlobalRefill : ℚ := 50

def smRateTableSize : ℕ := 256

/-- `struct timespec` as `clock_gettime` fills it: `time_t` has 64 bits. -/
structure Timespec where
  tvSec : ℤ
  tvNsec : ℤ
  sec_range : -2 ^ 63 ≤ tvSec ∧ tvSec < 2 ^ 63
  nsec_range : 0 ≤ tvNsec ∧ tvNsec < 10 ^ 9

/-- A reading of whole seconds. -/
def Timespec.ofSeconds (n : UInt32) : Timespec where
  tvSec := n.toNat
  tvNsec := 0
  sec_range := by
    have hlt := n.toNat_lt
    omega
  nsec_range := by decide

/-- `mono_now`: the reading in fractional seconds. -/
def monoNow (ts : Timespec) : ℚ := ts.tvSec + ts.tvNsec * (1 / 10 ^ 9)

/-- `DBL_MAX`. -/
def dblMax : ℚ := (2 ^ 53 - 1) * 2 ^ 971

/-- `bucket_t`. -/
structure PidBucket where
  pid : ℤ
  bucket : Bucket ℚ

/-- The static variables of `sm_rate_limit.c`. -/
structure RateLimiter where
  pidTable : List PidBucket
  global : Bucket ℚ

def smRateLimitInit (now : ℚ) : RateLimiter :=
  ⟨[], ⟨smRateGlobalCapacity, now⟩⟩

def refillBucket (b : PidBucket) (now : ℚ) : PidBucket :=
  { b with bucket := refill smRatePidRefill smRatePidCapacity now b.bucket }

/-- Result of the scan of the table: the bucket of the process, or the slot to
evict. -/
inductive Scan
  | entry (i : ℕ)
  | lru (i : ℕ)

/-- The scan loop at index `i`, with the least recently used slot so far. -/
def scanTable (pid : ℤ) : List PidBucket → ℕ → ℕ → ℚ → Scan
  | [], _, lruIdx, _ => .lru lruIdx
  | b :: table, i, lruIdx, lruTime =>
      if b.pid = pid then .entry i
      else if b.bucket.lastRefill < lruTime then
        scanTable pid table (i + 1) i b.bucket.lastRefill
      else scanTable pid table (i + 1) lruIdx lruTime

/-- The table with a bucket for the process in it, and its index. A new process
starts with a full bucket. -/
def claimBucket (table : List PidBucket) (pid : ℤ) (now : ℚ) :
    List PidBucket × ℕ :=
  let fresh : PidBucket := ⟨pid, ⟨smRatePidCapacity, now⟩⟩
  match scanTable pid table 0 0 dblMax with
  | .entry i => (table, i)
  | .lru i =>
      if table.length < smRateTableSize then (table ++ [fresh], table.length)
      else (table.set i fresh, i)

/-- `sm_rate_limit_check` at the clock reading `now`. -/
def smRateLimitCheck (rl : RateLimiter) (pid : ℤ) (now : ℚ) : RateLimiter × ℤ :=
  let global := refill smRateGlobalRefill smRateGlobalCapacity now rl.global
  if global.tokens < 1 then ({ rl with global := global }, smErrRatelimit)
  else
    let (table, i) := claimBucket rl.pidTable pid now
    let entry := refillBucket (table.getD i ⟨pid, ⟨0, now⟩⟩) now
    if entry.bucket.tokens < 1 then (⟨table.set i entry, global⟩, smErrRatelimit)
    else
      (⟨table.set i { entry with bucket := spend entry.bucket }, spend global⟩,
        smOk)

def ScanFound (pid : ℤ) (table : List PidBucket) (i : ℕ) (r : Scan) : Prop :=
  ∃ pre b post, table = pre ++ b :: post ∧ b.pid = pid ∧
    r = .entry (i + pre.length)

/-- The scan reports a slot older than `time` that no other slot undercuts. -/
def ScanLeast (table : List PidBucket) (i : ℕ) (time : ℚ) (r : Scan) : Prop :=
  ∃ pre b post, table = pre ++ b :: post ∧ b.bucket.lastRefill < time ∧
    (∀ c ∈ table, b.bucket.lastRefill ≤ c.bucket.lastRefill) ∧
    r = .lru (i + pre.length)

theorem ScanFound.cons {pid : ℤ} {table : List PidBucket} {i : ℕ} {r : Scan}
    (h : ScanFound pid table (i + 1) r) (b : PidBucket) :
    ScanFound pid (b :: table) i r := by
  obtain ⟨pre, c, post, rfl, hc, rfl⟩ := h
  refine ⟨b :: pre, c, post, rfl, hc, ?_⟩
  rw [List.length_cons]
  congr 1
  omega

theorem ScanLeast.cons {table : List PidBucket} {i : ℕ} {time time' : ℚ}
    {r : Scan} {b : PidBucket} (h : ScanLeast table (i + 1) time r)
    (hb : time ≤ b.bucket.lastRefill) (htime : time ≤ time') :
    ScanLeast (b :: table) i time' r := by
  obtain ⟨pre, c, post, rfl, hc, hmin, rfl⟩ := h
  refine ⟨b :: pre, c, post, rfl, hc.trans_le htime, ?_, ?_⟩
  · intro d hd
    rcases List.mem_cons.mp hd with rfl | hd
    · exact hc.le.trans hb
    · exact hmin d hd
  · rw [List.length_cons]
    congr 1
    omega

/-- The scan stops at the first bucket of the process, or reports a slot that no
other slot undercuts, or has met no slot older than its start value. -/
theorem scanTable_spec (pid : ℤ) (table : List PidBucket) (i lruIdx : ℕ)
    (lruTime : ℚ) :
    ScanFound pid table i (scanTable pid table i lruIdx lruTime) ∨
      (∀ b ∈ table, b.pid ≠ pid) ∧
        (ScanLeast table i lruTime (scanTable pid table i lruIdx lruTime) ∨
          (∀ c ∈ table, lruTime ≤ c.bucket.lastRefill) ∧
            scanTable pid table i lruIdx lruTime = .lru lruIdx) := by
  induction table generalizing i lruIdx lruTime with
  | nil => simp [scanTable]
  | cons b table ih =>
      by_cases hpid : b.pid = pid
      · left
        exact ⟨[], b, table, rfl, hpid, by simp [scanTable, hpid]⟩
      by_cases hlt : b.bucket.lastRefill < lruTime
      · have hscan : scanTable pid (b :: table) i lruIdx lruTime =
            scanTable pid table (i + 1) i b.bucket.lastRefill := by
          simp [scanTable, hpid, hlt]
        rw [hscan]
        rcases ih (i + 1) i b.bucket.lastRefill with hfound | ⟨hno, hrest⟩
        · exact .inl (hfound.cons b)
        · refine .inr ⟨by simpa [hpid] using hno, .inl ?_⟩
          rcases hrest with hleast | ⟨hmin, heq⟩
          · exact hleast.cons le_rfl hlt.le
          · exact ⟨[], b, table, rfl, hlt, by simpa using hmin, by simpa using heq⟩
      · have hscan : scanTable pid (b :: table) i lruIdx lruTime =
            scanTable pid table (i + 1) lruIdx lruTime := by
          simp [scanTable, hpid, hlt]
        have hge : lruTime ≤ b.bucket.lastRefill := not_lt.mp hlt
        rw [hscan]
        rcases ih (i + 1) lruIdx lruTime with hfound | ⟨hno, hrest⟩
        · exact .inl (hfound.cons b)
        · refine .inr ⟨by simpa [hpid] using hno, ?_⟩
          rcases hrest with hleast | ⟨hmin, heq⟩
          · exact .inl (hleast.cons hge le_rfl)
          · exact .inr ⟨by simpa [hge] using hmin, heq⟩

theorem set_append_length {α : Type*} (pre post : List α) (a b : α) :
    (pre ++ a :: post).set pre.length b = pre ++ b :: post := by
  simp

/-- The bucket of the process is the one it has, a full one behind the table, or
a full one in the slot of a least recently used bucket. -/
theorem claimBucket_cases {table : List PidBucket} (pid : ℤ) (now : ℚ)
    (hmax : ∀ b ∈ table, b.bucket.lastRefill < dblMax) :
    let fresh : PidBucket := ⟨pid, ⟨smRatePidCapacity, now⟩⟩
    (∃ pre b post, table = pre ++ b :: post ∧ b.pid = pid ∧
        claimBucket table pid now = (table, pre.length)) ∨
      (∀ b ∈ table, b.pid ≠ pid) ∧
        ((table.length < smRateTableSize ∧
            claimBucket table pid now = (table ++ [fresh], table.length)) ∨
          smRateTableSize ≤ table.length ∧
            ∃ pre b post, table = pre ++ b :: post ∧
              (∀ c ∈ table, b.bucket.lastRefill ≤ c.bucket.lastRefill) ∧
              claimBucket table pid now = (pre ++ fresh :: post, pre.length)) := by
  intro fresh
  rcases scanTable_spec pid table 0 0 dblMax with
    ⟨pre, b, post, htable, hb, hscan⟩ | ⟨hno, hrest⟩
  · exact .inl ⟨pre, b, post, htable, hb, by simp [claimBucket, hscan]⟩
  right
  refine ⟨hno, ?_⟩
  rcases Nat.lt_or_ge table.length smRateTableSize with hroom | hfull
  · left
    refine ⟨hroom, ?_⟩
    rcases hrest with ⟨_, _, _, _, _, _, hscan⟩ | ⟨_, hscan⟩ <;>
      simp [claimBucket, hscan, hroom, fresh]
  · right
    refine ⟨hfull, ?_⟩
    rcases hrest with ⟨pre, b, post, htable, -, hmin, hscan⟩ | ⟨hmin, -⟩
    · refine ⟨pre, b, post, htable, hmin, ?_⟩
      simp only [claimBucket, hscan, Nat.not_lt.mpr hfull, if_false, zero_add]
      rw [htable, set_append_length]
    · -- Some slot undercuts `DBL_MAX`, so the scan has found one.
      obtain ⟨b, hb⟩ : ∃ b, b ∈ table := by
        apply List.exists_mem_of_length_pos
        exact Nat.lt_of_lt_of_le (by decide) hfull
      exact absurd (hmin b hb) (not_le.mpr (hmax b hb))

section Check

variable {rl : RateLimiter} {pid : ℤ} {now : ℚ}

theorem smRateLimitCheck_of_claim {table : List PidBucket} {i : ℕ} {b : PidBucket}
    (hglobal : 1 ≤ (refill smRateGlobalRefill smRateGlobalCapacity now
      rl.global).tokens)
    (hclaim : claimBucket rl.pidTable pid now = (table, i))
    (hb : table.getD i ⟨pid, ⟨0, now⟩⟩ = b) :
    let global := refill smRateGlobalRefill smRateGlobalCapacity now rl.global
    smRateLimitCheck rl pid now =
      if (refillBucket b now).bucket.tokens < 1 then
        (⟨table.set i (refillBucket b now), global⟩, smErrRatelimit)
      else
        (⟨table.set i ⟨b.pid, spend (refillBucket b now).bucket⟩, spend global⟩,
          smOk) := by
  simp only [smRateLimitCheck]
  rw [if_neg (not_lt.mpr hglobal), hclaim]
  simp only [hb]
  rfl

theorem smRateLimitCheck_of_fresh {table : List PidBucket} {i : ℕ}
    (hglobal : 1 ≤ (refill smRateGlobalRefill smRateGlobalCapacity now
      rl.global).tokens)
    (hclaim : claimBucket rl.pidTable pid now = (table, i))
    (hb : table.getD i ⟨pid, ⟨0, now⟩⟩ = ⟨pid, ⟨smRatePidCapacity, now⟩⟩) :
    smRateLimitCheck rl pid now =
      (⟨table.set i ⟨pid, ⟨smRatePidCapacity - 1, now⟩⟩,
        spend (refill smRateGlobalRefill smRateGlobalCapacity now rl.global)⟩,
        smOk) := by
  have hfull : refillBucket ⟨pid, ⟨smRatePidCapacity, now⟩⟩ now =
      ⟨pid, ⟨smRatePidCapacity, now⟩⟩ := by
    simp [refillBucket, refill_of_not_lt]
  rw [smRateLimitCheck_of_claim hglobal hclaim hb, hfull, if_neg]
  · rfl
  · norm_num [smRatePidCapacity]

/-- What a check can do: refuse on the global bucket; refill the bucket of the
process and refuse or spend; give a new process a bucket behind the table; or,
when the table is full, give it the slot of a least recently used bucket. -/
theorem smRateLimitCheck_cases (rl : RateLimiter) (pid : ℤ) (now : ℚ)
    (hmax : ∀ b ∈ rl.pidTable, b.bucket.lastRefill < dblMax) :
    let global := refill smRateGlobalRefill smRateGlobalCapacity now rl.global
    let fresh : PidBucket := ⟨pid, ⟨smRatePidCapacity - 1, now⟩⟩
    (global.tokens < 1 ∧
        smRateLimitCheck rl pid now = ({ rl with global := global }, smErrRatelimit)) ∨
      1 ≤ global.tokens ∧
        ((∃ pre b post, rl.pidTable = pre ++ b :: post ∧ b.pid = pid ∧
            (((refillBucket b now).bucket.tokens < 1 ∧
                smRateLimitCheck rl pid now =
                  (⟨pre ++ refillBucket b now :: post, global⟩, smErrRatelimit)) ∨
              (1 ≤ (refillBucket b now).bucket.tokens ∧
                smRateLimitCheck rl pid now =
                  (⟨pre ++ ⟨pid, spend (refillBucket b now).bucket⟩ :: post,
                    spend global⟩, smOk)))) ∨
          (∀ b ∈ rl.pidTable, b.pid ≠ pid) ∧
            ((rl.pidTable.length < smRateTableSize ∧
                smRateLimitCheck rl pid now =
                  (⟨rl.pidTable ++ [fresh], spend global⟩, smOk)) ∨
              smRateTableSize ≤ rl.pidTable.length ∧
                ∃ pre b post, rl.pidTable = pre ++ b :: post ∧
                  (∀ c ∈ rl.pidTable,
                    b.bucket.lastRefill ≤ c.bucket.lastRefill) ∧
                  smRateLimitCheck rl pid now =
                    (⟨pre ++ fresh :: post, spend global⟩, smOk))) := by
  intro global fresh
  rcases lt_or_ge global.tokens 1 with hlow | hhigh
  · left
    exact ⟨hlow, by simp only [smRateLimitCheck]; rw [if_pos hlow]⟩
  right
  refine ⟨hhigh, ?_⟩
  rcases claimBucket_cases pid now hmax with
    ⟨pre, b, post, htable, hb, hclaim⟩ | ⟨hno, ⟨hroom, hclaim⟩ |
      ⟨hfull, pre, b, post, htable, hmin, hclaim⟩⟩
  · left
    refine ⟨pre, b, post, htable, hb, ?_⟩
    have hget : rl.pidTable.getD pre.length ⟨pid, ⟨0, now⟩⟩ = b := by
      simp [htable]
    rw [smRateLimitCheck_of_claim hhigh hclaim hget, htable, set_append_length,
      set_append_length, hb]
    rcases lt_or_ge (refillBucket b now).bucket.tokens 1 with hl | hh
    · left
      exact ⟨hl, by rw [if_pos hl]⟩
    · right
      exact ⟨hh, by rw [if_neg (not_lt.mpr hh)]⟩
  · right
    refine ⟨hno, .inl ⟨hroom, ?_⟩⟩
    rw [smRateLimitCheck_of_fresh hhigh hclaim (by simp), set_append_length]
  · right
    refine ⟨hno, .inr ⟨hfull, pre, b, post, htable, hmin, ?_⟩⟩
    rw [smRateLimitCheck_of_fresh hhigh hclaim (by simp), set_append_length]

end Check

end ServiceManager

end Shinigami
