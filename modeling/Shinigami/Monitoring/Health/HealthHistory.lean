import Shinigami.Foundations.RingHistory

/-!
# The history of health scores

`health_history_push` writes a score to a ring, unless the last one is less than a second old,
and `health_history_get_latest` reads the slots in front of the head. It stops at the first
slot that is not filled, but the window starts at the oldest slot: `latestCorrect_iff` says
that a window which the stored scores do not fill comes out empty.
-/

namespace Shinigami

namespace Monitoring

def healthHistoryCapacity : ℕ := 3600

def healthHistoryResolutionMs : UInt64 := 1000

/-- `health_history_t`. -/
structure HealthHistory where
  head : UInt32
  capacity : UInt32
  lastUpdateMs : UInt64
  scores : ℕ → Int32
  timestampsMs : ℕ → UInt64

/-- `health_history_init`. -/
def healthHistoryInit : HealthHistory where
  head := 0
  capacity := 3600
  lastUpdateMs := 0
  scores := fun _ => 0
  timestampsMs := fun _ => 0

/-- `health_history_push`. -/
def healthHistoryPush (h : HealthHistory) (score : Int32) (timestamp : UInt64) : HealthHistory :=
  if h.lastUpdateMs ≠ 0 ∧ timestamp - h.lastUpdateMs < healthHistoryResolutionMs then h
  else
    { h with
      scores := Function.update h.scores h.head.toNat score
      timestampsMs := Function.update h.timestampsMs h.head.toNat timestamp
      head := (h.head + 1) % h.capacity
      lastUpdateMs := timestamp }

/-- The slot of round `i`. -/
def latestIdx (h : HealthHistory) (n i : UInt32) : ℕ :=
  ((h.head + h.capacity - n + i) % h.capacity).toNat

/-- The loop of `health_history_get_latest` from `i` on, with the rounds that are left. -/
def latestLoop (h : HealthHistory) (n : UInt32) : ℕ → UInt32 → List Int32
  | 0, _ => []
  | rounds + 1, i =>
      if h.timestampsMs (latestIdx h n i) = 0 then []
      else h.scores (latestIdx h n i) :: latestLoop h n rounds (i + 1)

/-- `health_history_get_latest`: the return value, and what is written to `out`. -/
def healthHistoryGetLatest (h : HealthHistory) (n : UInt32) : UInt32 × List Int32 :=
  let n := if n = 0 ∨ n > h.capacity then h.capacity else n
  let out := latestLoop h n n.toNat 0
  (UInt32.ofNat out.length, out)

/-- Scores with their timestamps, in the order in which they are pushed. -/
structure Timed (pushes : List (Int32 × UInt64)) : Prop where
  positive : ∀ push ∈ pushes, push.2 ≠ 0
  ordered : (pushes.map Prod.snd).Pairwise (· ≤ ·)

def TooSoon (last : Option UInt64) (timestamp : UInt64) : Prop :=
  ∃ t, last = some t ∧ timestamp.toNat < t.toNat + 1000

instance (last : Option UInt64) (timestamp : UInt64) : Decidable (TooSoon last timestamp) :=
  match last with
  | none => isFalse nofun
  | some t => decidable_of_iff (timestamp.toNat < t.toNat + 1000) (by simp [TooSoon])

/-- The pushes that are stored: not one that comes too soon after the stored one before it. -/
def storedAfter : Option UInt64 → List (Int32 × UInt64) → List (Int32 × UInt64)
  | _, [] => []
  | last, push :: pushes =>
      if TooSoon last push.2 then storedAfter last pushes
      else push :: storedAfter (some push.2) pushes

/-- The number of scores that are asked for; 0 and more than the capacity mean all. -/
def latestWindow (n : UInt32) : ℕ :=
  if n = 0 ∨ healthHistoryCapacity < n.toNat then healthHistoryCapacity else n.toNat

/-- The last scores that were stored are read, the oldest first. -/
def LatestCorrect (pushes : List (Int32 × UInt64)) (n : UInt32) : Prop :=
  let h := pushes.foldl (fun h push => healthHistoryPush h push.1 push.2) healthHistoryInit
  let stored := storedAfter none pushes
  let count := min (latestWindow n) stored.length
  healthHistoryGetLatest h n =
    (UInt32.ofNat count, (stored.map Prod.fst).drop (stored.length - count))

structure HealthHistory.Holds (h : HealthHistory) (stored : List (Int32 × UInt64)) : Prop where
  capacity : h.capacity = 3600
  head : h.head.toNat = stored.length % healthHistoryCapacity
  scores : h.scores = ringWrites healthHistoryCapacity (fun _ => 0) 0 (stored.map Prod.fst)
  timestampsMs : h.timestampsMs =
    ringWrites healthHistoryCapacity (fun _ => 0) 0 (stored.map Prod.snd)
  lastUpdateMs : h.lastUpdateMs = ((stored.map Prod.snd).getLast?).getD 0
  positive : ∀ p ∈ stored, p.2 ≠ 0

section Ring

variable {h : HealthHistory} {stored : List (Int32 × UInt64)}

theorem holds_init : healthHistoryInit.Holds [] :=
  ⟨rfl, rfl, rfl, rfl, rfl, nofun⟩

/-- Without a wrap, the resolution is kept from the last stored timestamp on. -/
theorem HealthHistory.Holds.tooSoon_iff (hinv : h.Holds stored) {timestamp : UInt64}
    (hlast : ∀ t ∈ (stored.map Prod.snd).getLast?, t ≤ timestamp) :
    (h.lastUpdateMs ≠ 0 ∧ timestamp - h.lastUpdateMs < healthHistoryResolutionMs) ↔
      TooSoon (stored.map Prod.snd).getLast? timestamp := by
  rw [hinv.lastUpdateMs]
  cases hget : (stored.map Prod.snd).getLast? with
  | none => simp [TooSoon]
  | some t =>
      obtain ⟨p, hp, rfl⟩ := List.mem_map.mp (List.mem_of_getLast? hget)
      have hle : p.2 ≤ timestamp := hlast p.2 hget
      have hsub : (timestamp - p.2).toNat = timestamp.toNat - p.2.toNat :=
        UInt64.toNat_sub_of_le _ _ hle
      have hsize : healthHistoryResolutionMs.toNat = 1000 := rfl
      rw [UInt64.le_iff_toNat_le] at hle
      rw [Option.getD_some, and_iff_right (hinv.positive p hp), UInt64.lt_iff_toNat_lt, hsub, hsize,
        TooSoon]
      simp only [Option.some.injEq, exists_eq_left']
      omega

theorem HealthHistory.Holds.store (hinv : h.Holds stored) {push : Int32 × UInt64}
    (hpositive : push.2 ≠ 0)
    (hkeep : ¬(h.lastUpdateMs ≠ 0 ∧ push.2 - h.lastUpdateMs < healthHistoryResolutionMs)) :
    (healthHistoryPush h push.1 push.2).Holds (stored ++ [push]) := by
  have hhead := hinv.head
  have hslot : ∀ {β : Type} (f : Int32 × UInt64 → β),
      h.head.toNat = (0 + (stored.map f).length) % healthHistoryCapacity := by
    intro β f
    rw [hhead, Nat.zero_add, List.length_map]
  rw [healthHistoryPush, if_neg hkeep]
  constructor
  · exact hinv.capacity
  · have hsize : healthHistoryCapacity = 3600 := rfl
    rw [hsize] at hhead
    simp only [hinv.capacity, UInt32.toNat_mod, UInt32.toNat_add, List.length_append,
      List.length_singleton, hsize]
    have hone : (1 : UInt32).toNat = 1 := rfl
    have hcapacity : (3600 : UInt32).toNat = 3600 := rfl
    rw [hone, hcapacity]
    omega
  · rw [List.map_append, List.map_singleton, ringWrites_concat, ← hslot, hinv.scores]
  · rw [List.map_append, List.map_singleton, ringWrites_concat, ← hslot, hinv.timestampsMs]
  · rw [List.map_append, List.map_singleton, List.getLast?_concat]
    rfl
  · rw [List.forall_mem_append]
    exact ⟨hinv.positive, List.forall_mem_singleton.mpr hpositive⟩

theorem HealthHistory.Holds.push (hinv : h.Holds stored) {push : Int32 × UInt64}
    (hpositive : push.2 ≠ 0) (hlast : ∀ t ∈ (stored.map Prod.snd).getLast?, t ≤ push.2) :
    (healthHistoryPush h push.1 push.2).Holds
      (stored ++ storedAfter (stored.map Prod.snd).getLast? [push]) := by
  have hiff := hinv.tooSoon_iff hlast
  rw [storedAfter, storedAfter, storedAfter]
  by_cases hsoon : TooSoon (stored.map Prod.snd).getLast? push.2
  · rw [healthHistoryPush, if_pos (hiff.mpr hsoon), if_pos hsoon, List.append_nil]
    exact hinv
  · rw [if_neg hsoon]
    exact hinv.store hpositive fun hskip => hsoon (hiff.mp hskip)

theorem storedAfter_cons (last : Option UInt64) (push : Int32 × UInt64)
    (pushes : List (Int32 × UInt64)) :
    storedAfter last (push :: pushes) = storedAfter last [push] ++
      storedAfter (if TooSoon last push.2 then last else some push.2) pushes := by
  rw [storedAfter, storedAfter, storedAfter, storedAfter]
  split_ifs
  · rfl
  · rfl

theorem HealthHistory.Holds.run {pushes : List (Int32 × UInt64)} (hinv : h.Holds stored)
    (htimed : Timed pushes)
    (hlast : ∀ t ∈ (stored.map Prod.snd).getLast?, ∀ push ∈ pushes, t ≤ push.2) :
    (pushes.foldl (fun h push => healthHistoryPush h push.1 push.2) h).Holds
      (stored ++ storedAfter (stored.map Prod.snd).getLast? pushes) := by
  induction pushes generalizing h stored with
  | nil =>
      rw [storedAfter, List.append_nil]
      exact hinv
  | cons push pushes ih =>
      obtain ⟨hpositive, hordered⟩ := htimed
      obtain ⟨hpush, hpushes⟩ := List.forall_mem_cons.mp hpositive
      rw [List.map_cons, List.pairwise_cons, List.forall_mem_map] at hordered
      have hstep := hinv.push hpush fun t ht => hlast t ht push List.mem_cons_self
      have hnext : ((stored ++ storedAfter (stored.map Prod.snd).getLast? [push]).map
          Prod.snd).getLast? = if TooSoon (stored.map Prod.snd).getLast? push.2 then
            (stored.map Prod.snd).getLast? else some push.2 := by
        rw [storedAfter, storedAfter, storedAfter]
        split_ifs
        · rw [List.append_nil]
        · rw [List.map_append, List.map_singleton, List.getLast?_concat]
      have hrest := ih hstep ⟨hpushes, hordered.2⟩ (by
        rw [hnext]
        intro t ht p hp
        split_ifs at ht
        · exact hlast t ht p (List.mem_cons_of_mem _ hp)
        · cases ht
          exact hordered.1 p hp)
      rw [hnext, List.append_assoc, ← storedAfter_cons] at hrest
      exact hrest

theorem holds_run {pushes : List (Int32 × UInt64)} (htimed : Timed pushes) :
    (pushes.foldl (fun h push => healthHistoryPush h push.1 push.2) healthHistoryInit).Holds
      (storedAfter none pushes) :=
  holds_init.run htimed nofun

theorem latestLoop_of_filled {n : UInt32} {rounds i : ℕ}
    (hfilled : ∀ k < rounds, h.timestampsMs (latestIdx h n (UInt32.ofNat (i + k))) ≠ 0) :
    latestLoop h n rounds (UInt32.ofNat i) =
      (List.range rounds).map fun k => h.scores (latestIdx h n (UInt32.ofNat (i + k))) := by
  induction rounds generalizing i with
  | zero => rfl
  | succ rounds ih =>
      have hnext : UInt32.ofNat i + 1 = UInt32.ofNat (i + 1) := (UInt32.ofNat_add i 1).symm
      have hshift : ∀ k, i + 1 + k = i + (k + 1) := fun k => by omega
      have hrest := ih (i := i + 1) fun k hk => by
        rw [hshift]
        exact hfilled (k + 1) (by omega)
      have hfirst : h.timestampsMs (latestIdx h n (UInt32.ofNat i)) ≠ 0 :=
        hfilled 0 (Nat.succ_pos rounds)
      rw [latestLoop, if_neg hfirst, hnext, hrest, List.range_succ_eq_map, List.map_cons,
        List.map_map]
      simp only [hshift]
      rfl

theorem HealthHistory.Holds.latestIdx_eq (hinv : h.Holds stored) {n : UInt32} {i : ℕ}
    (hn : n.toNat ≤ healthHistoryCapacity) (hi : i < n.toNat) :
    latestIdx h n (UInt32.ofNat i) =
      (stored.length % healthHistoryCapacity + healthHistoryCapacity - n.toNat + i) %
        healthHistoryCapacity := by
  have hsize : healthHistoryCapacity = 3600 := rfl
  have hhead := hinv.head
  rw [hsize] at hn hhead ⊢
  have hcapacity : (3600 : UInt32).toNat = 3600 := rfl
  have hround : (UInt32.ofNat i).toNat = i :=
    UInt32.toNat_ofNat_of_lt' (by have : UInt32.size = 4294967296 := rfl; omega)
  rw [latestIdx, hinv.capacity, UInt32.toNat_mod, UInt32.toNat_add, UInt32.toNat_sub,
    UInt32.toNat_add, hround, hcapacity, hhead]
  omega

theorem HealthHistory.Holds.latestLoop_of_le (hinv : h.Holds stored) {n : UInt32}
    (hn : n.toNat ≤ healthHistoryCapacity) (hstored : n.toNat ≤ stored.length) :
    latestLoop h n n.toNat 0 = (stored.map Prod.fst).drop (stored.length - n.toNat) := by
  have hsize : healthHistoryCapacity = 3600 := rfl
  have hidx : ∀ k < n.toNat, latestIdx h n (UInt32.ofNat (0 + k)) =
      (0 + (stored.length - n.toNat) + k) % healthHistoryCapacity := by
    intro k hk
    rw [Nat.zero_add, hinv.latestIdx_eq hn hk]
    rw [hsize] at hn ⊢
    omega
  have hfilled : ∀ k < n.toNat, h.timestampsMs (latestIdx h n (UInt32.ofNat (0 + k))) ≠ 0 := by
    intro k hk
    have hwritten := ringWrites_getElem (n := healthHistoryCapacity) (fun _ => (0 : UInt64)) 0
      (stored.map Prod.snd) (k := stored.length - n.toNat + k)
      (by rw [List.length_map]; omega) (by rw [List.length_map]; omega)
    rw [hidx k hk, hinv.timestampsMs, Nat.add_assoc, hwritten, List.getElem_map]
    exact hinv.positive _ (List.getElem_mem _)
  have hloop := latestLoop_of_filled hfilled
  have hlast := map_ringWrites (fun _ => (0 : Int32)) 0
    (hstored.trans_eq (List.length_map Prod.fst).symm) hn
  rw [List.length_map] at hlast
  rw [← hlast, ← hinv.scores]
  refine hloop.trans (List.map_congr_left fun k hk => ?_)
  rw [hidx k (List.mem_range.mp hk)]

/-- A window that the stored scores do not fill starts at a slot that is not filled. -/
theorem HealthHistory.Holds.latestLoop_of_lt (hinv : h.Holds stored) {n : UInt32}
    (hn : n.toNat ≤ healthHistoryCapacity) (hstored : stored.length < n.toNat) :
    latestLoop h n n.toNat 0 = [] := by
  have hsize : healthHistoryCapacity = 3600 := rfl
  have hfirst : latestIdx h n 0 = stored.length + healthHistoryCapacity - n.toNat := by
    have hidx := hinv.latestIdx_eq hn (i := 0) (by omega)
    refine hidx.trans ?_
    rw [hsize] at hn ⊢
    omega
  have hempty : h.timestampsMs (latestIdx h n 0) = 0 := by
    rw [hfirst, hinv.timestampsMs]
    exact ringWrites_of_le _ _ _ (by rw [List.length_map]; omega) (by omega)
  obtain ⟨rounds, hrounds⟩ : ∃ k, n.toNat = k + 1 := ⟨n.toNat - 1, by omega⟩
  rw [hrounds, latestLoop, if_pos hempty]

end Ring

theorem latestWindow_le (n : UInt32) :
    1 ≤ latestWindow n ∧ latestWindow n ≤ healthHistoryCapacity := by
  have hsize : healthHistoryCapacity = 3600 := rfl
  unfold latestWindow
  split_ifs with hn
  · omega
  · rw [not_or] at hn
    have hpos : n.toNat ≠ 0 := fun hzero => hn.1 (UInt32.toNat_inj.mp hzero)
    omega

theorem HealthHistory.Holds.healthHistoryGetLatest_eq {h : HealthHistory}
    {stored : List (Int32 × UInt64)} (hinv : h.Holds stored) (n : UInt32) :
    healthHistoryGetLatest h n =
      if latestWindow n ≤ stored.length then
        (UInt32.ofNat (latestWindow n),
          (stored.map Prod.fst).drop (stored.length - latestWindow n))
      else (0, []) := by
  have hwindow : (if n = 0 ∨ n > h.capacity then h.capacity else n).toNat = latestWindow n := by
    have hcapacity : n > h.capacity ↔ healthHistoryCapacity < n.toNat := by
      rw [hinv.capacity]
      exact UInt32.lt_iff_toNat_lt
    unfold latestWindow
    by_cases hall : n = 0 ∨ n > h.capacity
    · rw [if_pos hall, if_pos (hall.imp_right hcapacity.mp), hinv.capacity]
      rfl
    · rw [if_neg hall, if_neg fun hn => hall (hn.imp_right hcapacity.mpr)]
  have hle := (latestWindow_le n).2
  have hsize : healthHistoryCapacity = 3600 := rfl
  rw [← hwindow] at hle ⊢
  unfold healthHistoryGetLatest
  generalize (if n = 0 ∨ n > h.capacity then h.capacity else n) = n at hle ⊢
  dsimp only
  split_ifs with hstored
  · have hlen : ((stored.map Prod.fst).drop (stored.length - n.toNat)).length = n.toNat := by
      rw [List.length_drop, List.length_map]
      omega
    rw [hinv.latestLoop_of_le hle hstored, hlen]
  · rw [hinv.latestLoop_of_lt hle (Nat.not_le.mp hstored)]
    rfl

/-- The last scores are read exactly when nothing has been pushed, or the stored scores fill
the window. -/
theorem latestCorrect_iff {pushes : List (Int32 × UInt64)} (htimed : Timed pushes) (n : UInt32) :
    LatestCorrect pushes n ↔
      pushes = [] ∨ latestWindow n ≤ (storedAfter none pushes).length := by
  have hread := (holds_run htimed).healthHistoryGetLatest_eq n
  have hpos := (latestWindow_le n).1
  unfold LatestCorrect
  dsimp only
  rw [hread]
  by_cases hstored : latestWindow n ≤ (storedAfter none pushes).length
  · rw [if_pos hstored, Nat.min_eq_left hstored]
    exact iff_of_true rfl (Or.inr hstored)
  · rw [if_neg hstored, Nat.min_eq_right (by omega), or_iff_left hstored]
    constructor
    · intro heq
      cases pushes with
      | nil => rfl
      | cons push pushes =>
          have hfirst : ¬TooSoon none push.2 := nofun
          have hlen := congrArg (fun r => r.2.length) heq
          rw [storedAfter, if_neg hfirst] at hlen
          simp at hlen
    · rintro rfl
      rfl

/-- Five scores, of which the third and the last come too soon. -/
def pushedScores : List (Int32 × UInt64) :=
  [(90, 1000), (80, 2000), (10, 2999), (70, 3500), (20, 3600)]

theorem latestCorrect_iff_two :
    Timed pushedScores ∧ LatestCorrect pushedScores 2 ∧
      healthHistoryGetLatest
        (pushedScores.foldl (fun h push => healthHistoryPush h push.1 push.2)
          healthHistoryInit) 2 = (2, [80, 70]) := by
  have htimed : Timed pushedScores := ⟨by simp [pushedScores], by simp [pushedScores]⟩
  have hcorrect := (latestCorrect_iff htimed 2).mpr (.inr (by decide))
  exact ⟨htimed, hcorrect, hcorrect.trans (by decide)⟩

theorem timed_one : Timed [(90, 1000)] :=
  ⟨List.forall_mem_singleton.mpr (by decide), List.pairwise_singleton _ _⟩

/-- One score, for which a window of two is asked. -/
theorem not_latestCorrect_one : Timed [(90, 1000)] ∧ ¬LatestCorrect [(90, 1000)] 2 ∧
    healthHistoryGetLatest (healthHistoryPush healthHistoryInit 90 1000) 2 = (0, []) := by
  refine ⟨timed_one, ?_, by decide⟩
  unfold LatestCorrect
  decide

end Monitoring

end Shinigami
