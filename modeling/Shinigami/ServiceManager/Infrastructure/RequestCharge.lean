import Shinigami.ServiceManager.Infrastructure.ReplaySafety

/-!
# Tokens paid by a connection

What one connection takes out of the two buckets of its peer. A check takes a
token from both or from none (`smRateLimitCheck_charge`), but `smHandleClient`
makes up to two of them: on arrival, and through the limiter by name in the
handler. So a connection pays once exactly when it does not reach a handler or
the buckets cannot pay for the second check (`oneTokenPerRequest_iff`).

Between two checks the buckets do not change, so what a sequence of checks takes
out is the sum of what each takes out at its own clock reading; the refill in
between does not enter.
-/

namespace Shinigami

namespace ServiceManager

open TokenBucket

/-- The bucket that a check at the reading `now` finds for a process. -/
def pidBucket (rl : RateLimiter) (pid : ℤ) (now : ℚ) : Bucket ℚ :=
  match rl.pidTable.find? (·.pid == pid) with
  | some b => b.bucket
  | none => ⟨smRatePidCapacity, now⟩

/-- The global bucket with the refill up to `now`. -/
def globalAt (rl : RateLimiter) (now : ℚ) : Bucket ℚ :=
  refill smRateGlobalRefill smRateGlobalCapacity now rl.global

/-- The bucket of a process with the refill up to `now`. -/
def pidAt (rl : RateLimiter) (pid : ℤ) (now : ℚ) : Bucket ℚ :=
  refill smRatePidRefill smRatePidCapacity now (pidBucket rl pid now)

/-- The tokens that checks at the readings `nows` take out of the global
bucket. -/
def globalTaken (pid : ℤ) : RateLimiter → List ℚ → ℚ
  | _, [] => 0
  | rl, now :: nows =>
      let rl' := (smRateLimitCheck rl pid now).1
      (globalAt rl now).tokens - (globalAt rl' now).tokens + globalTaken pid rl' nows

/-- The tokens that checks at the readings `nows` take out of the bucket of their
process. -/
def pidTaken (pid : ℤ) : RateLimiter → List ℚ → ℚ
  | _, [] => 0
  | rl, now :: nows =>
      let rl' := (smRateLimitCheck rl pid now).1
      (pidAt rl pid now).tokens - (pidAt rl' pid now).tokens + pidTaken pid rl' nows

def connectionChecks (key : Option (List UInt8)) (s : ServerState)
    (conn : Connection) : List ℚ :=
  if !conn.timeoutOk then []
  else if (smHandleClient key s conn).dispatched then
    [monoNow conn.mono, monoNow conn.request.mono]
  else [monoNow conn.mono]

/-- The whole handling of a connection takes at most one token out of the global
bucket and at most one out of the bucket of the peer. -/
def OneTokenPerRequest (key : Option (List UInt8)) (s : ServerState)
    (conn : Connection) : Prop :=
  globalTaken conn.request.peer.pid s.rateLimiter (connectionChecks key s conn) ≤ 1 ∧
    pidTaken conn.request.peer.pid s.rateLimiter (connectionChecks key s conn) ≤ 1

instance (key : Option (List UInt8)) (s : ServerState) (conn : Connection) :
    Decidable (OneTokenPerRequest key s conn) :=
  inferInstanceAs (Decidable (_ ∧ _))

/-- The bucket pays for a check at `t` and for another one at `t'`. -/
def PaysTwice (rate cap t t' : ℚ) (b : Bucket ℚ) : Prop :=
  1 ≤ (refill rate cap t b).tokens ∧
    1 ≤ (refill rate cap t' (spend (refill rate cap t b))).tokens

theorem scanTable_cases (pid : ℤ) (table : List PidBucket) (i lruIdx : ℕ)
    (lruTime : ℚ) :
    (∃ pre b post, table = pre ++ b :: post ∧ b.pid = pid ∧
        (∀ c ∈ pre, c.pid ≠ pid) ∧
        scanTable pid table i lruIdx lruTime = .entry (i + pre.length)) ∨
      (∀ b ∈ table, b.pid ≠ pid) ∧
        ∃ k, scanTable pid table i lruIdx lruTime = .lru k ∧
          (k = lruIdx ∨ k < i + table.length) := by
  induction table generalizing i lruIdx lruTime with
  | nil => exact .inr ⟨by simp, lruIdx, rfl, .inl rfl⟩
  | cons b table ih =>
      by_cases hpid : b.pid = pid
      · exact .inl ⟨[], b, table, rfl, hpid, by simp, by simp [scanTable, hpid]⟩
      obtain ⟨lruIdx', lruTime', hscan, hidx⟩ : ∃ lruIdx' lruTime',
          scanTable pid (b :: table) i lruIdx lruTime =
            scanTable pid table (i + 1) lruIdx' lruTime' ∧
          (lruIdx' = lruIdx ∨ lruIdx' = i) := by
        by_cases hlt : b.bucket.lastRefill < lruTime
        · exact ⟨i, b.bucket.lastRefill, by simp [scanTable, hpid, hlt], .inr rfl⟩
        · exact ⟨lruIdx, lruTime, by simp [scanTable, hpid, hlt], .inl rfl⟩
      rw [hscan, List.length_cons]
      rcases ih (i + 1) lruIdx' lruTime' with
        ⟨pre, c, post, rfl, hc, hpre, heq⟩ | ⟨hno, k, heq, hk⟩
      · left
        refine ⟨b :: pre, c, post, rfl, hc, by simpa [hpid] using hpre, ?_⟩
        rw [heq, List.length_cons]
        congr 1
        omega
      · right
        refine ⟨by simpa [hpid] using hno, k, heq, ?_⟩
        omega

theorem pidBucket_append {rl : RateLimiter} {pid : ℤ} {pre post : List PidBucket}
    {b : PidBucket} (htable : rl.pidTable = pre ++ b :: post) (hb : b.pid = pid)
    (hpre : ∀ c ∈ pre, c.pid ≠ pid) (now : ℚ) : pidBucket rl pid now = b.bucket := by
  have hnone : pre.find? (·.pid == pid) = none := by simpa using hpre
  simp [pidBucket, htable, List.find?_append, hnone, hb]

theorem pidBucket_of_absent {rl : RateLimiter} {pid : ℤ}
    (h : ∀ b ∈ rl.pidTable, b.pid ≠ pid) (now : ℚ) :
    pidBucket rl pid now = ⟨smRatePidCapacity, now⟩ := by
  have hnone : rl.pidTable.find? (·.pid == pid) = none := by simpa using h
  simp [pidBucket, hnone]

/-- The claimed slot holds the bucket of the process, and no slot before it
does. -/
theorem claimBucket_eq (rl : RateLimiter) (pid : ℤ) (now : ℚ) :
    ∃ pre post, (∀ c ∈ pre, c.pid ≠ pid) ∧
      claimBucket rl.pidTable pid now =
        (pre ++ ⟨pid, pidBucket rl pid now⟩ :: post, pre.length) := by
  rcases scanTable_cases pid rl.pidTable 0 0 dblMax with
    ⟨pre, b, post, htable, hb, hpre, hscan⟩ | ⟨hno, k, hscan, hk⟩
  · refine ⟨pre, post, hpre, ?_⟩
    subst hb
    rw [pidBucket_append htable rfl hpre, ← htable]
    simp only [claimBucket, hscan, zero_add]
  rw [pidBucket_of_absent hno]
  rcases Nat.lt_or_ge rl.pidTable.length smRateTableSize with hroom | hfull
  · exact ⟨rl.pidTable, [], hno, by simp [claimBucket, hscan, hroom]⟩
  · -- A full table has a first slot, which is evicted if the scan finds no other.
    have hlt : k < rl.pidTable.length := by
      have hpos : 0 < smRateTableSize := by decide
      omega
    refine ⟨rl.pidTable.take k, rl.pidTable.drop (k + 1),
      fun c hc => hno c (List.mem_of_mem_take hc), ?_⟩
    simp only [claimBucket, hscan, Nat.not_lt.mpr hfull, if_false]
    rw [List.set_eq_take_append_cons_drop, if_pos hlt, List.length_take,
      min_eq_left hlt.le]

theorem smErrRatelimit_ne_smOk : smErrRatelimit ≠ smOk := by decide

/-- A check takes a token from both buckets, or it is refused and takes none. -/
theorem smRateLimitCheck_charge (rl : RateLimiter) (pid : ℤ) (now : ℚ) :
    (1 ≤ (globalAt rl now).tokens ∧ 1 ≤ (pidAt rl pid now).tokens ∧
        (smRateLimitCheck rl pid now).2 = smOk ∧
        (smRateLimitCheck rl pid now).1.global = spend (globalAt rl now) ∧
        ∀ t, pidBucket (smRateLimitCheck rl pid now).1 pid t =
          spend (pidAt rl pid now)) ∨
      ¬(1 ≤ (globalAt rl now).tokens ∧ 1 ≤ (pidAt rl pid now).tokens) ∧
        (smRateLimitCheck rl pid now).2 ≠ smOk ∧
        (smRateLimitCheck rl pid now).1.global = globalAt rl now ∧
        ((∀ t, pidBucket (smRateLimitCheck rl pid now).1 pid t =
            pidBucket rl pid t) ∨
          ∀ t, pidBucket (smRateLimitCheck rl pid now).1 pid t = pidAt rl pid now) := by
  rcases lt_or_ge (globalAt rl now).tokens 1 with hlow | hhigh
  · have heq : smRateLimitCheck rl pid now =
        ({ rl with global := globalAt rl now }, smErrRatelimit) := by
      simp only [smRateLimitCheck]
      exact if_pos hlow
    rw [heq]
    exact .inr ⟨fun h => absurd h.1 (not_le.mpr hlow), smErrRatelimit_ne_smOk, rfl,
      .inl fun t => rfl⟩
  obtain ⟨pre, post, hpre, hclaim⟩ := claimBucket_eq rl pid now
  have hget : (pre ++ ⟨pid, pidBucket rl pid now⟩ :: post).getD pre.length
      ⟨pid, ⟨0, now⟩⟩ = ⟨pid, pidBucket rl pid now⟩ := by simp
  have heq : smRateLimitCheck rl pid now =
      if (pidAt rl pid now).tokens < 1 then
        (⟨pre ++ ⟨pid, pidAt rl pid now⟩ :: post, globalAt rl now⟩, smErrRatelimit)
      else
        (⟨pre ++ ⟨pid, spend (pidAt rl pid now)⟩ :: post, spend (globalAt rl now)⟩,
          smOk) := by
    have hcheck := smRateLimitCheck_of_claim hhigh hclaim hget
    rwa [set_append_length, set_append_length] at hcheck
  have hafter (b g : Bucket ℚ) (t : ℚ) :
      pidBucket ⟨pre ++ ⟨pid, b⟩ :: post, g⟩ pid t = b :=
    pidBucket_append (b := ⟨pid, b⟩) rfl rfl hpre t
  rw [heq]
  rcases lt_or_ge (pidAt rl pid now).tokens 1 with hl | hh
  · rw [if_pos hl]
    exact .inr ⟨fun h => absurd h.2 (not_le.mpr hl), smErrRatelimit_ne_smOk, rfl, .inr (hafter _ _)⟩
  · rw [if_neg (not_lt.mpr hh)]
    exact .inl ⟨hhigh, hh, rfl, rfl, hafter _ _⟩

theorem smRateLimitCheck_eq_smOk_iff (rl : RateLimiter) (pid : ℤ) (now : ℚ) :
    (smRateLimitCheck rl pid now).2 = smOk ↔
      1 ≤ (globalAt rl now).tokens ∧ 1 ≤ (pidAt rl pid now).tokens := by
  rcases smRateLimitCheck_charge rl pid now with ⟨hg, hp, hok, -⟩ | ⟨hno, hrc, -⟩
  · exact iff_of_true hok ⟨hg, hp⟩
  · exact iff_of_false hrc hno

theorem le_lastRefill_refill (rate cap now : ℚ) (b : Bucket ℚ) :
    now ≤ (refill rate cap now b).lastRefill := by
  rcases le_or_gt b.lastRefill now with hle | hgt
  · exact (refill_lastRefill hle).ge
  · rw [refill_of_not_lt hgt.le]
    exact hgt.le

@[simp] theorem refill_refill (rate cap now : ℚ) (b : Bucket ℚ) :
    refill rate cap now (refill rate cap now b) = refill rate cap now b :=
  refill_of_not_lt (le_lastRefill_refill rate cap now b)

@[simp] theorem refill_spend_refill (rate cap now : ℚ) (b : Bucket ℚ) :
    refill rate cap now (spend (refill rate cap now b)) =
      spend (refill rate cap now b) :=
  refill_of_not_lt (le_lastRefill_refill rate cap now b)

def price (rl : RateLimiter) (pid : ℤ) (now : ℚ) : ℚ :=
  if (smRateLimitCheck rl pid now).2 = smOk then 1 else 0

theorem globalAt_sub_check (rl : RateLimiter) (pid : ℤ) (now : ℚ) :
    (globalAt rl now).tokens -
      (globalAt (smRateLimitCheck rl pid now).1 now).tokens = price rl pid now := by
  have hafter : globalAt (smRateLimitCheck rl pid now).1 now =
      refill smRateGlobalRefill smRateGlobalCapacity now
        (smRateLimitCheck rl pid now).1.global := rfl
  rw [hafter, price]
  rcases smRateLimitCheck_charge rl pid now with
    ⟨-, -, hok, hglobal, -⟩ | ⟨-, hrc, hglobal, -⟩
  · rw [hglobal, globalAt, refill_spend_refill, if_pos hok, spend_tokens]
    ring
  · rw [hglobal, globalAt, refill_refill, if_neg hrc, sub_self]

theorem pidAt_sub_check (rl : RateLimiter) (pid : ℤ) (now : ℚ) :
    (pidAt rl pid now).tokens -
      (pidAt (smRateLimitCheck rl pid now).1 pid now).tokens = price rl pid now := by
  have hafter : pidAt (smRateLimitCheck rl pid now).1 pid now =
      refill smRatePidRefill smRatePidCapacity now
        (pidBucket (smRateLimitCheck rl pid now).1 pid now) := rfl
  rw [hafter, price]
  rcases smRateLimitCheck_charge rl pid now with
    ⟨-, -, hok, -, hpid⟩ | ⟨-, hrc, -, hpid | hpid⟩
  · rw [hpid, pidAt, refill_spend_refill, if_pos hok, spend_tokens]
    ring
  · rw [hpid, ← pidAt, if_neg hrc, sub_self]
  · rw [hpid, pidAt, refill_refill, if_neg hrc, sub_self]

theorem smHandleClient_rateLimiter (key : Option (List UInt8)) (s : ServerState)
    (conn : Connection) :
    (smHandleClient key s conn).server.rateLimiter =
      run (fun rl now => (smRateLimitCheck rl conn.request.peer.pid now).1)
        s.rateLimiter (connectionChecks key s conn) := by
  unfold connectionChecks
  rcases smHandleClient_reaches_or key s conn with ⟨f, hreach⟩ | ⟨hno, hserver⟩
  · have hdispatched := (dispatched_iff_reaches key s conn).mpr ⟨f, hreach⟩
    rw [hdispatched, hreach.timeout, smHandleClient_of_reaches hreach,
      dispatch_rateLimiter hreach.accepted.size]
    rfl
  · rw [hno, hserver]
    cases conn.timeoutOk with
    | false => rfl
    | true => rfl

theorem oneTokenPerRequest_of_not_dispatched {key : Option (List UInt8)}
    {s : ServerState} {conn : Connection}
    (h : (smHandleClient key s conn).dispatched = false) :
    OneTokenPerRequest key s conn := by
  have hprice : price s.rateLimiter conn.request.peer.pid (monoNow conn.mono) ≤ 1 := by
    unfold price
    split_ifs <;> norm_num
  unfold OneTokenPerRequest connectionChecks
  rw [h]
  cases conn.timeoutOk with
  | false => exact ⟨zero_le_one, zero_le_one⟩
  | true =>
      simp only [Bool.not_true, Bool.false_eq_true, if_false, globalTaken, pidTaken,
        globalAt_sub_check, pidAt_sub_check, add_zero]
      exact ⟨hprice, hprice⟩

/-- A connection that reaches a handler pays once exactly when the check of the
handler is refused. -/
theorem oneTokenPerRequest_of_reaches {key : Option (List UInt8)} {s : ServerState}
    {conn : Connection} {f : SmHdr × List UInt8} (h : ReachesHandler key s conn f) :
    OneTokenPerRequest key s conn ↔
      (smRateLimitCheck (chargeRate s conn).rateLimiter conn.request.peer.pid
        (monoNow conn.request.mono)).2 ≠ smOk := by
  have hdispatched := (dispatched_iff_reaches key s conn).mpr ⟨f, h⟩
  have hfirst : price s.rateLimiter conn.request.peer.pid (monoNow conn.mono) = 1 :=
    if_pos h.rate
  unfold OneTokenPerRequest connectionChecks
  rw [hdispatched, h.timeout]
  simp only [Bool.not_true, Bool.false_eq_true, if_false, if_true, globalTaken,
    pidTaken, globalAt_sub_check, pidAt_sub_check, hfirst, add_zero, and_self]
  change 1 + price (chargeRate s conn).rateLimiter _ _ ≤ 1 ↔ _
  unfold price
  split_ifs with hok
  · norm_num [hok]
  · norm_num [hok]

/-- The buckets pay for both checks of a connection that reaches a handler. -/
theorem passesTwice_iff (s : ServerState) (conn : Connection) :
    ((smRateLimitCheck s.rateLimiter conn.request.peer.pid
          (monoNow conn.mono)).2 = smOk ∧
        (smRateLimitCheck (chargeRate s conn).rateLimiter conn.request.peer.pid
          (monoNow conn.request.mono)).2 = smOk) ↔
      PaysTwice smRateGlobalRefill smRateGlobalCapacity (monoNow conn.mono)
          (monoNow conn.request.mono) s.rateLimiter.global ∧
        PaysTwice smRatePidRefill smRatePidCapacity (monoNow conn.mono)
          (monoNow conn.request.mono)
          (pidBucket s.rateLimiter conn.request.peer.pid (monoNow conn.mono)) := by
  have hsecond := smRateLimitCheck_eq_smOk_iff (chargeRate s conn).rateLimiter
    conn.request.peer.pid (monoNow conn.request.mono)
  rcases smRateLimitCheck_charge s.rateLimiter conn.request.peer.pid
    (monoNow conn.mono) with ⟨hg, hp, hok, hglobal, hpid⟩ | ⟨hno, hrc, -⟩
  · have hglobal' : globalAt (chargeRate s conn).rateLimiter
        (monoNow conn.request.mono) =
        refill smRateGlobalRefill smRateGlobalCapacity (monoNow conn.request.mono)
          (spend (globalAt s.rateLimiter (monoNow conn.mono))) :=
      congrArg _ hglobal
    have hpid' : pidAt (chargeRate s conn).rateLimiter conn.request.peer.pid
        (monoNow conn.request.mono) =
        refill smRatePidRefill smRatePidCapacity (monoNow conn.request.mono)
          (spend (pidAt s.rateLimiter conn.request.peer.pid (monoNow conn.mono))) :=
      congrArg _ (hpid _)
    rw [hsecond, hglobal', hpid']
    exact ⟨fun h => ⟨⟨hg, h.2.1⟩, hp, h.2.2⟩, fun h => ⟨hok, h.1.2, h.2.2⟩⟩
  · exact iff_of_false (fun h => hrc h.1) fun h => hno ⟨h.1.1, h.2.1⟩

/-- A connection pays at most one token from each bucket exactly when it is not
one that brings an acceptable frame and finds both buckets able to pay twice. -/
theorem oneTokenPerRequest_iff (key : Option (List UInt8)) (s : ServerState)
    (conn : Connection) :
    OneTokenPerRequest key s conn ↔
      ¬(conn.timeoutOk = true ∧
        (∃ f, conn.frame = some f ∧ FrameAccepted key conn.headerNow f) ∧
        PaysTwice smRateGlobalRefill smRateGlobalCapacity (monoNow conn.mono)
          (monoNow conn.request.mono) s.rateLimiter.global ∧
        PaysTwice smRatePidRefill smRatePidCapacity (monoNow conn.mono)
          (monoNow conn.request.mono)
          (pidBucket s.rateLimiter conn.request.peer.pid (monoNow conn.mono))) := by
  rw [← passesTwice_iff]
  rcases smHandleClient_reaches_or key s conn with ⟨f, hreach⟩ | ⟨hno, -⟩
  · rw [oneTokenPerRequest_of_reaches hreach]
    refine not_congr ⟨fun hok => ?_, fun h => h.2.2.2⟩
    exact ⟨hreach.timeout, ⟨f, hreach.frame, hreach.accepted⟩, hreach.rate, hok⟩
  · apply iff_of_true (oneTokenPerRequest_of_not_dispatched hno)
    rintro ⟨htimeout, ⟨f, hframe, haccepted⟩, hrate, -⟩
    have hdispatched := (dispatched_iff_reaches key s conn).mpr
      ⟨f, htimeout, hrate, hframe, haccepted⟩
    rw [hno] at hdispatched
    cases hdispatched

/-- One lookup right after start-up takes two tokens out of each bucket. -/
theorem lookup_takes_two_tokens :
    ¬OneTokenPerRequest none (ServerState.init (.ofSeconds 0)) replayConn := by
  decide +kernel

end ServiceManager

end Shinigami
