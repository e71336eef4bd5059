import Shinigami.ServiceManager.Observability.Metrics

/-!
# The peak rate

Calls of `sm_metrics_request` by one thread: a call runs through its operations with nothing
in between (`smMetricsRequest`). It adds itself to the counter of the second before it closes
the bucket of the last one. So a bucket that a call has opened loses its first call and gets
the first call of the next one, and has the right size; the bucket that `sm_metrics_init`
has opened only gets one call too many (`peakReal_iff`).
-/

namespace Shinigami

namespace ServiceManager

namespace Metering

/-- A call of `sm_metrics_request`, and what the clock shows in it. -/
structure Request where
  msgType : UInt16
  latencyUs : ℤ
  success : ℤ
  now : ℤ
deriving DecidableEq, Repr

def alone (time : ℤ) : ℕ → Metrics × RequestCall → Metrics × RequestCall
  | 0, s => s
  | n + 1, (m, c) => alone time n ((c.step m time).1, c.after m time)

/-- `sm_metrics_request` in a single thread; no call has more than seventeen operations. -/
def smMetricsRequest (m : Metrics) (r : Request) : Metrics :=
  (alone r.now 17 (m, ⟨r.msgType, r.latencyUs, r.success, .addTotal⟩)).1

/-- The metrics after calls in a single thread. -/
def requests (t : ℤ) (rs : List Request) : Metrics := run smMetricsRequest (smMetricsInit t) rs

def callsAt (t : ℤ) (rs : List Request) : ℕ := rs.countP (·.now = t)

/-- At every moment the peak is at most the number of calls made in some second. -/
def PeakReal (t : ℤ) (rs : List Request) : Prop :=
  ∀ before, before <+: rs → ∃ s, (requests t before).peakQps.toNat ≤ callsAt s before

structure Metered (m : Metrics) (now : ℤ) (m' : Metrics) : Prop where
  mutex : m'.qpsMutex = false
  last : m'.lastQpsReset = now
  currentSec : m'.requestCountCurrentSec =
    if now = m.lastQpsReset then m.requestCountCurrentSec + 1 else 0
  peak : m'.peakQps =
    if now = m.lastQpsReset then m.peakQps
    else if m.requestCountCurrentSec + 1 > m.peakQps then m.requestCountCurrentSec + 1
    else m.peakQps

theorem metered_smMetricsRequest {m : Metrics} (hmutex : m.qpsMutex = false) (r : Request) :
    Metered m r.now (smMetricsRequest m r) := by
  by_cases hlast : r.now = m.lastQpsReset
  · by_cases hsuccess : r.success = 0 <;>
      constructor <;>
      simp [smMetricsRequest, alone, RequestCall.step, RequestCall.after, hlast, hmutex,
        hsuccess]
  · by_cases hsuccess : r.success = 0 <;>
    by_cases hpeak : m.requestCountCurrentSec + 1 > m.peakQps <;>
      constructor <;>
      simp [smMetricsRequest, alone, RequestCall.step, RequestCall.after, hlast, hmutex,
        hsuccess, hpeak]

theorem requests_concat (t : ℤ) (rs : List Request) (r : Request) :
    requests t (rs ++ [r]) = smMetricsRequest (requests t rs) r := by
  rw [requests, run_append]
  rfl

theorem qpsMutex_requests (t : ℤ) (rs : List Request) : (requests t rs).qpsMutex = false := by
  induction rs using List.reverseRecOn with
  | nil => rfl
  | append_singleton rs r ih =>
      rw [requests_concat]
      exact (metered_smMetricsRequest ih r).mutex

theorem metered_requests (t : ℤ) (rs : List Request) (r : Request) :
    Metered (requests t rs) r.now (requests t (rs ++ [r])) := by
  rw [requests_concat]
  exact metered_smMetricsRequest (qpsMutex_requests t rs) r

theorem callsAt_concat (t : ℤ) (rs : List Request) (r : Request) :
    callsAt t (rs ++ [r]) = callsAt t rs + if r.now = t then 1 else 0 := by
  simp [callsAt, List.countP_append, List.countP_singleton]

theorem ofNat_succ (k : ℕ) : UInt64.ofNat k + 1 = UInt64.ofNat (k + 1) :=
  (UInt64.ofNat_add k 1).symm

theorem toNat_ofNat_le (k : ℕ) : (UInt64.ofNat k).toNat ≤ k := by
  rw [UInt64.toNat_ofNat']
  exact Nat.mod_le _ _

structure InFirst (t : ℤ) (rs : List Request) : Prop where
  last : (requests t rs).lastQpsReset = t
  currentSec : (requests t rs).requestCountCurrentSec = UInt64.ofNat (callsAt t rs)
  peak : (requests t rs).peakQps = 0

theorem inFirst {t : ℤ} {rs : List Request} (h : ∀ r ∈ rs, r.now = t) : InFirst t rs := by
  induction rs using List.reverseRecOn with
  | nil => exact ⟨rfl, rfl, rfl⟩
  | append_singleton rs r ih =>
      have hbefore := ih fun r' hr' => h r' (List.mem_append_left _ hr')
      have hnow : r.now = t := h r (by simp)
      have hcall := metered_requests t rs r
      have hlast : r.now = (requests t rs).lastQpsReset := hnow.trans hbefore.last.symm
      refine ⟨hcall.last.trans hnow, ?_, ?_⟩
      · rw [hcall.currentSec, if_pos hlast, hbefore.currentSec, ofNat_succ, callsAt_concat,
          if_pos hnow]
      · rw [hcall.peak, if_pos hlast, hbefore.peak]

/-- Behind the first closed bucket: the counter misses the call that opened its second, and
the peak is the number of calls of some second. -/
structure InLater (t : ℤ) (rs : List Request) : Prop where
  latest : ∀ r ∈ rs, r.now ≤ (requests t rs).lastQpsReset
  currentSec : ∃ k, callsAt (requests t rs).lastQpsReset rs = k + 1 ∧
    (requests t rs).requestCountCurrentSec = UInt64.ofNat k
  peak : ∃ s, (requests t rs).peakQps.toNat ≤ callsAt s rs

theorem callsAt_le_concat (t : ℤ) (rs : List Request) (r : Request) :
    callsAt t rs ≤ callsAt t (rs ++ [r]) := by
  rw [callsAt_concat]
  exact Nat.le_add_right _ _

theorem exists_peak_le {t : ℤ} {rs : List Request} {r : Request}
    (hpeak : ∃ s, (requests t rs).peakQps.toNat ≤ callsAt s rs)
    (hbucket : r.now ≠ (requests t rs).lastQpsReset →
      ∃ s, ((requests t rs).requestCountCurrentSec + 1).toNat ≤ callsAt s (rs ++ [r])) :
    ∃ s, (requests t (rs ++ [r])).peakQps.toNat ≤ callsAt s (rs ++ [r]) := by
  obtain ⟨s, hs⟩ := hpeak
  have hold : (requests t rs).peakQps.toNat ≤ callsAt s (rs ++ [r]) :=
    hs.trans (callsAt_le_concat s rs r)
  rw [(metered_requests t rs r).peak]
  split_ifs with hlast hgt
  · exact ⟨s, hold⟩
  · exact hbucket hlast
  · exact ⟨s, hold⟩

theorem InLater.concat {t : ℤ} {rs : List Request} (h : InLater t rs) {r : Request}
    (hclock : ∀ r' ∈ rs, r'.now ≤ r.now) : InLater t (rs ++ [r]) := by
  have hcall := metered_requests t rs r
  obtain ⟨k, hcount, hcurrent⟩ := h.currentSec
  have hle : (requests t rs).lastQpsReset ≤ r.now := by
    have hpos : 0 < callsAt (requests t rs).lastQpsReset rs := by omega
    obtain ⟨r', hr', hnow⟩ := List.countP_pos_iff.mp hpos
    exact (of_decide_eq_true hnow) ▸ hclock r' hr'
  refine ⟨fun r' hr' => ?_, ?_, exists_peak_le h.peak fun hlast => ?_⟩
  · rw [hcall.last]
    rcases List.mem_append.mp hr' with hr' | hr'
    · exact hclock r' hr'
    · rw [List.mem_singleton.mp hr']
  · rw [hcall.last, callsAt_concat, if_pos rfl, hcall.currentSec]
    split_ifs with hlast
    · exact ⟨k + 1, by rw [hlast, hcount], by rw [hcurrent, ofNat_succ]⟩
    · have hnone : callsAt r.now rs = 0 := by
        rw [callsAt, List.countP_eq_zero]
        intro r' hr' hnow
        have hlatest := h.latest r' hr'
        have hsame := of_decide_eq_true hnow
        omega
      exact ⟨0, by rw [hnone], rfl⟩
  · refine ⟨(requests t rs).lastQpsReset, le_trans ?_ (callsAt_le_concat _ _ _)⟩
    rw [hcurrent, ofNat_succ, hcount]
    exact toNat_ofNat_le _

/-- The first closed bucket has the calls of the second of the initialisation and the call
that closes it. -/
theorem InFirst.inLater_concat {t : ℤ} {rs : List Request} (h : InFirst t rs) {r : Request}
    (hrs : ∀ r' ∈ rs, r'.now = t) (hclock : ∀ r' ∈ rs, r'.now ≤ r.now) (hr : r.now ≠ t)
    (hbucket : rs = [] ∨ 2 ^ 64 ≤ callsAt t rs + 1) : InLater t (rs ++ [r]) := by
  have hcall := metered_requests t rs r
  have hlast : r.now ≠ (requests t rs).lastQpsReset := by rwa [h.last]
  refine ⟨fun r' hr' => ?_, ?_, exists_peak_le ⟨t, ?_⟩ fun _ => ?_⟩
  · rw [hcall.last]
    rcases List.mem_append.mp hr' with hr' | hr'
    · exact hclock r' hr'
    · rw [List.mem_singleton.mp hr']
  · have hnone : callsAt r.now rs = 0 := by
      rw [callsAt, List.countP_eq_zero]
      intro r' hr' hnow
      have hsame := of_decide_eq_true hnow
      exact hr (hsame.symm.trans (hrs r' hr'))
    refine ⟨0, ?_, ?_⟩
    · rw [hcall.last, callsAt_concat, if_pos rfl, hnone]
    · rw [hcall.currentSec, if_neg hlast]
      rfl
  · rw [h.peak]
    exact Nat.zero_le _
  · rw [h.currentSec, ofNat_succ, UInt64.toNat_ofNat']
    rcases hbucket with rfl | hwrap
    · refine ⟨r.now, ?_⟩
      rw [callsAt_concat, if_pos rfl]
      exact Nat.mod_le _ _
    · refine ⟨t, le_trans ?_ (callsAt_le_concat _ _ _)⟩
      have hlt := Nat.mod_lt (callsAt t rs + 1) (Nat.two_pow_pos 64)
      have hdiv := Nat.mod_eq_sub_mod hwrap
      have hle := Nat.mod_le (callsAt t rs + 1 - 2 ^ 64) (2 ^ 64)
      omega

/-- No call in the second of the initialisation, or none behind it, or so many that the
bucket wraps around. -/
def OpensBucket (t : ℤ) (rs : List Request) : Prop :=
  (∀ r ∈ rs.head?, r.now ≠ t) ∨ (∀ r ∈ rs, r.now = t) ∨ 2 ^ 64 ≤ callsAt t rs + 1

theorem inFirst_or_inLater {t : ℤ} {rs : List Request}
    (hclock : rs.Pairwise (·.now ≤ ·.now)) (h : OpensBucket t rs) {before : List Request}
    (hbefore : before <+: rs) :
    ((∀ r ∈ before, r.now = t) ∧ InFirst t before) ∨ InLater t before := by
  induction before using List.reverseRecOn with
  | nil => exact Or.inl ⟨nofun, inFirst nofun⟩
  | append_singleton before r ih =>
      obtain ⟨after, rfl⟩ := hbefore
      rw [List.append_assoc, List.singleton_append] at hclock h
      have hle : ∀ r' ∈ before, r'.now ≤ r.now := fun r' hr' =>
        (List.pairwise_append.mp hclock).2.2 r' hr' r (by simp)
      rcases ih ⟨[r] ++ after, by simp⟩ with ⟨hall, hfirst⟩ | hlater
      · by_cases hr : r.now = t
        · have hall' : ∀ r' ∈ before ++ [r], r'.now = t := by
            intro r' hr'
            rcases List.mem_append.mp hr' with hr' | hr'
            · exact hall r' hr'
            · rw [List.mem_singleton.mp hr', hr]
          exact Or.inl ⟨hall', inFirst hall'⟩
        · refine Or.inr (hfirst.inLater_concat hall hle hr ?_)
          cases before with
          | nil => exact Or.inl rfl
          | cons r₀ before =>
              right
              have hfront : r₀.now = t := hall r₀ (by simp)
              rcases h with hhead | hnone | hwrap
              · exact absurd hfront (hhead r₀ rfl)
              · exact absurd (hnone r (by simp)) hr
              · -- once the clock has moved on, no call is made in that second any more
                have hlt : t < r.now := lt_of_le_of_ne (hfront ▸ hle r₀ (by simp)) (Ne.symm hr)
                have hafter := List.pairwise_cons.mp (List.pairwise_append.mp hclock).2.1
                have hzero : callsAt t (r :: after) = 0 := by
                  rw [callsAt, List.countP_eq_zero]
                  intro r' hr' hnow
                  have hsame := of_decide_eq_true hnow
                  rcases List.mem_cons.mp hr' with rfl | hr'
                  · exact hr hsame
                  · have hlater := hafter.1 r' hr'
                    omega
                rw [callsAt, List.countP_append] at hwrap
                rw [callsAt] at hzero ⊢
                omega
      · exact Or.inr (hlater.concat hle)

/-- The bucket that the initialisation has opened gets one call too many. -/
theorem not_peakReal_of_first {t : ℤ} {before after : List Request} {r : Request}
    (hbefore : ∀ r' ∈ before, r'.now = t) (hne : before ≠ []) (hr : r.now ≠ t)
    (hlt : callsAt t before + 1 < 2 ^ 64) : ¬PeakReal t (before ++ r :: after) := by
  intro hreal
  obtain ⟨s, hs⟩ := hreal (before ++ [r]) ⟨after, by simp⟩
  have hfirst := inFirst hbefore
  have hcalls : callsAt t before = before.length :=
    List.countP_eq_length.mpr fun r' hr' => decide_eq_true (hbefore r' hr')
  have hlength : 0 < before.length := List.length_pos_iff.mpr hne
  have hnow : r.now ≠ (requests t before).lastQpsReset := by rwa [hfirst.last]
  have hbucket : (UInt64.ofNat (callsAt t before + 1)).toNat = callsAt t before + 1 := by
    rw [UInt64.toNat_ofNat', Nat.mod_eq_of_lt hlt]
  have hgt : UInt64.ofNat (callsAt t before + 1) > 0 := by
    rw [gt_iff_lt, UInt64.lt_iff_toNat_lt, hbucket]
    exact Nat.succ_pos _
  rw [(metered_requests t before r).peak, if_neg hnow, hfirst.currentSec, hfirst.peak, ofNat_succ,
    if_pos hgt, hbucket, callsAt_concat] at hs
  by_cases hsecond : s = t
  · subst hsecond
    rw [if_neg hr] at hs
    omega
  · have hzero : callsAt s before = 0 := by
      rw [callsAt, List.countP_eq_zero]
      intro r' hr' hnow
      exact hsecond ((of_decide_eq_true hnow).symm.trans (hbefore r' hr'))
    rw [hzero] at hs
    split_ifs at hs <;> omega

/-- The peak is real exactly when no call is made in the second of the initialisation, or
none behind it, or so many in it that the bucket wraps around. -/
theorem peakReal_iff (t : ℤ) (rs : List Request) (hclock : rs.Pairwise (·.now ≤ ·.now)) :
    PeakReal t rs ↔ OpensBucket t rs := by
  constructor
  · intro hreal
    by_contra hopens
    simp only [OpensBucket, not_or, not_forall, not_le] at hopens
    obtain ⟨⟨r₀, hr₀, hhead⟩, ⟨r₁, hr₁, hlater⟩, hlt⟩ := hopens
    have hhead : r₀.now = t := not_not.mp hhead
    have hsplit : rs.takeWhile (·.now = t) ++ rs.dropWhile (·.now = t) = rs :=
      List.takeWhile_append_dropWhile
    cases hrest : rs.dropWhile (·.now = t) with
    | nil =>
        rw [List.dropWhile_eq_nil_iff] at hrest
        exact hlater (of_decide_eq_true (hrest r₁ hr₁))
    | cons r after =>
        rw [hrest] at hsplit
        have hr : r.now ≠ t := by
          have hnot := List.head?_dropWhile_not (fun r' : Request => decide (r'.now = t)) rs
          rw [hrest] at hnot
          simpa using hnot
        have hne : rs.takeWhile (·.now = t) ≠ [] := by
          cases rs with
          | nil => cases hr₀
          | cons r' rs =>
              obtain rfl : r' = r₀ := Option.some.inj hr₀
              simp [hhead]
        have hall : ∀ r' ∈ rs.takeWhile (·.now = t), r'.now = t := fun r' hr' => by
          simpa using List.mem_takeWhile_imp hr'
        have hcalls : callsAt t (rs.takeWhile (·.now = t)) ≤ callsAt t rs := by
          rw [callsAt, callsAt]
          exact List.Sublist.countP_le (List.takeWhile_sublist _)
        rw [← hsplit] at hreal
        exact not_peakReal_of_first hall hne hr (by omega) hreal
  · intro hopens before hbefore
    rcases inFirst_or_inLater hclock hopens hbefore with ⟨-, hfirst⟩ | hlater
    · refine ⟨t, ?_⟩
      rw [hfirst.peak]
      exact Nat.zero_le _
    · exact hlater.peak

/-- A registration in each of two seconds, the first of them that of the initialisation. -/
def oneEachSecond : List Request := [⟨smMsgRegister, 5, 1, 0⟩, ⟨smMsgRegister, 5, 1, 1⟩]

/-- No second has two calls, and the peak is two. -/
theorem not_peakReal_oneEachSecond :
    oneEachSecond.Pairwise (·.now ≤ ·.now) ∧ ¬PeakReal 0 oneEachSecond ∧
      (requests 0 oneEachSecond).peakQps = 2 := by
  refine ⟨by simp [oneEachSecond], ?_, by decide +kernel⟩
  have hfirst : ∀ r ∈ [(⟨smMsgRegister, 5, 1, 0⟩ : Request)], r.now = 0 := by simp
  exact not_peakReal_of_first hfirst (List.cons_ne_nil _ _) (by decide) (by decide)

/-- The clock has moved on when the first call is made. -/
theorem peakReal_iff_shifted :
    (PeakReal (-1) oneEachSecond ↔ OpensBucket (-1) oneEachSecond) ∧
      PeakReal (-1) oneEachSecond := by
  have hiff := peakReal_iff (-1) oneEachSecond (by simp [oneEachSecond])
  exact ⟨hiff, hiff.mpr (Or.inl (by simp [oneEachSecond]))⟩

end Metering

end ServiceManager

end Shinigami
