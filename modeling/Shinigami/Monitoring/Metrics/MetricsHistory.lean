import Mathlib.Algebra.BigOperators.Group.List.Basic
import Mathlib.Algebra.Order.Ring.Rat
import Mathlib.Data.List.Chain
import Mathlib.Data.Rat.Defs
import Shinigami.Foundations.RingHistory
import Shinigami.Foundations.Run

/-!
# The history of a metric

`metrics_history_push` writes a value with its time to a ring, unless the last one is too
recent, and two readers go through the slots in front of the head. Both add the capacity to
the head in 32 bits, which wraps for a large ring, and the average of the last 0 values is a
division by zero (`metricsHistoryCorrect_iff`).
-/

namespace Shinigami

namespace Monitoring

/-- `metrics_history_t`. -/
structure MetricsHistory where
  resolutionMs : UInt32
  durationMs : UInt32
  capacity : UInt32
  head : UInt32
  count : UInt32
  values : ℕ → ℚ
  timestampsMs : ℕ → UInt64
  lastPushMs : UInt64

/-- `metrics_history_create`, with the outcomes of its allocations. -/
def metricsHistoryCreate (resolutionMs durationMs : UInt32)
    (mallocOk valuesOk timestampsOk : Bool) : Option MetricsHistory :=
  let resolutionMs := if resolutionMs = 0 then 1 else resolutionMs
  if !mallocOk then none
  else
    let capacity := durationMs / resolutionMs
    let capacity := if capacity = 0 then 1 else capacity
    if !valuesOk || !timestampsOk then none
    else
      some
        { resolutionMs := resolutionMs
          durationMs := durationMs
          capacity := capacity
          head := 0
          count := 0
          values := fun _ => 0
          timestampsMs := fun _ => 0
          lastPushMs := 0 }

namespace MetricsHistory

def Skips (h : MetricsHistory) (tsMs : UInt64) : Prop :=
  h.count > 0 ∧ tsMs - h.lastPushMs < h.resolutionMs.toUInt64

instance (h : MetricsHistory) (tsMs : UInt64) : Decidable (h.Skips tsMs) :=
  inferInstanceAs (Decidable (_ ∧ _))

end MetricsHistory

/-- `metrics_history_push` of a value with its time. -/
def metricsHistoryPush (h : MetricsHistory) (push : ℚ × UInt64) : MetricsHistory :=
  if h.Skips push.2 then h
  else
    { h with
      values := Function.update h.values h.head.toNat push.1
      timestampsMs := Function.update h.timestampsMs h.head.toNat push.2
      head := (h.head + 1) % h.capacity
      count := if h.count < h.capacity then h.count + 1 else h.count
      lastPushMs := push.2 }

namespace MetricsHistory

def avail (h : MetricsHistory) (n : UInt32) : UInt32 := if h.count < n then h.count else n

/-- The slot of round `i`. -/
def idx (h : MetricsHistory) (avail i : UInt32) : ℕ :=
  (((h.head + h.capacity - avail) % h.capacity + i) % h.capacity).toNat

/-- The slots that the readers go through. -/
def slots (h : MetricsHistory) (avail : UInt32) : List ℕ :=
  (List.range avail.toNat).map fun i => h.idx avail (UInt32.ofNat i)

end MetricsHistory

/-- `metrics_history_get_last`: the return value, and what is written to `out_buf` and
`ts_buf`. -/
def metricsHistoryGetLast {F : Type*} (toFloat : ℚ → F) (h : MetricsHistory) (n : UInt32) :
    UInt32 × List (F × UInt64) :=
  if n = 0 then (0, [])
  else
    let avail := h.avail n
    (avail, (h.slots avail).map fun idx => (toFloat (h.values idx), h.timestampsMs idx))

/-- `metrics_history_avg`; a division by zero has no value. -/
def metricsHistoryAvg (h : MetricsHistory) (n : UInt32) : Option ℚ :=
  if h.count = 0 then some 0
  else
    let avail := h.avail n
    let sum := ((h.slots avail).map h.values).sum
    if avail = 0 then none else some (sum / avail.toNat)

/-! ## What is to be read -/

/-- The pushes that are stored, in order. -/
def stored (h : MetricsHistory) (pushes : List (ℚ × UInt64)) : List (ℚ × UInt64) :=
  runTrace metricsHistoryPush (fun h push => if h.Skips push.2 then none else some push) h pushes

/-- The last `m` of the stored values. -/
def lastStored (l : List (ℚ × UInt64)) (m : ℕ) : List (ℚ × UInt64) := l.drop (l.length - m)

def average (l : List ℚ) : ℚ := if l = [] then 0 else l.sum / l.length

/-- The count is that of the stored values up to the capacity, these are apart by the
resolution, and the last ones are read and averaged. -/
structure HistoryCorrect {F : Type*} (toFloat : ℚ → F) (h : MetricsHistory)
    (pushes : List (ℚ × UInt64)) (n : UInt32) : Prop where
  count : (run metricsHistoryPush h pushes).count.toNat =
    min (stored h pushes).length h.capacity.toNat
  spaced : (stored h pushes).IsChain fun a b => a.2.toNat + h.resolutionMs.toNat ≤ b.2.toNat
  last : metricsHistoryGetLast toFloat (run metricsHistoryPush h pushes) n =
    (UInt32.ofNat (min n.toNat (run metricsHistoryPush h pushes).count.toNat),
      (lastStored (stored h pushes)
        (min n.toNat (run metricsHistoryPush h pushes).count.toNat)).map
          fun p => (toFloat p.1, p.2))
  avg : metricsHistoryAvg (run metricsHistoryPush h pushes) n =
    some (average ((lastStored (stored h pushes)
      (min n.toNat (run metricsHistoryPush h pushes).count.toNat)).map Prod.fst))

/-- The slots of the last `m` values are found without a wrap, in a ring that `len` values
have been written to. -/
def WindowFits (capacity len m : ℕ) : Prop :=
  (m ≤ len % capacity ∧ len % capacity + capacity - m < 4294967296) ∨
    (len % capacity < m ∧ len % capacity + capacity ≤ 4294967296)

theorem windowFits_of_le {capacity : ℕ} (hpos : 0 < capacity) (hle : capacity ≤ 2147483648)
    (len m : ℕ) : WindowFits capacity len m := by
  have hmod := Nat.mod_lt len hpos
  unfold WindowFits
  omega

/-! ## The ring -/

structure MetricsHistory.New (h : MetricsHistory) : Prop where
  capacity : 0 < h.capacity.toNat
  resolutionMs : 0 < h.resolutionMs.toNat
  head : h.head = 0
  count : h.count = 0
  values : h.values = fun _ => 0
  timestampsMs : h.timestampsMs = fun _ => 0

theorem new_of_metricsHistoryCreate {resolutionMs durationMs : UInt32}
    {mallocOk valuesOk timestampsOk : Bool} {h : MetricsHistory}
    (hcreate : metricsHistoryCreate resolutionMs durationMs mallocOk valuesOk timestampsOk =
      some h) : h.New := by
  have hpos : ∀ x : UInt32, 0 < (if x = 0 then 1 else x).toNat := by
    intro x
    split_ifs with hzero
    · decide
    · exact Nat.pos_of_ne_zero fun h => hzero (UInt32.toNat_inj.mp h)
  cases mallocOk with
  | false => cases hcreate
  | true =>
      cases valuesOk with
      | false => cases hcreate
      | true =>
          cases timestampsOk with
          | false => cases hcreate
          | true =>
              cases hcreate
              exact ⟨hpos _, hpos _, rfl, rfl, rfl, rfl⟩

/-- The ring of `h₀` holds the stored values, from slot 0 on. -/
structure MetricsHistory.Holds (h₀ h : MetricsHistory) (l : List (ℚ × UInt64)) : Prop where
  capacity : h.capacity = h₀.capacity
  resolutionMs : h.resolutionMs = h₀.resolutionMs
  head : h.head.toNat = l.length % h₀.capacity.toNat
  count : h.count.toNat = min l.length h₀.capacity.toNat
  values : h.values = ringWrites h₀.capacity.toNat (fun _ => 0) 0 (l.map Prod.fst)
  timestampsMs : h.timestampsMs =
    ringWrites h₀.capacity.toNat (fun _ => 0) 0 (l.map Prod.snd)
  lastPushMs : ∀ p ∈ l.getLast?, h.lastPushMs = p.2
  spaced : l.IsChain fun a b => a.2.toNat + h₀.resolutionMs.toNat ≤ b.2.toNat

section Ring

variable {h₀ h : MetricsHistory} {l : List (ℚ × UInt64)}

theorem MetricsHistory.New.holds (hnew : h₀.New) : h₀.Holds h₀ [] where
  capacity := rfl
  resolutionMs := rfl
  head := by rw [hnew.head, List.length_nil, Nat.zero_mod, UInt32.toNat_zero]
  count := by rw [hnew.count, List.length_nil, Nat.zero_min, UInt32.toNat_zero]
  values := hnew.values
  timestampsMs := hnew.timestampsMs
  lastPushMs := fun p hp => by cases hp
  spaced := List.isChain_nil

theorem MetricsHistory.Holds.le_of_not_skips (hinv : h₀.Holds h l) (hnew : h₀.New)
    {push p : ℚ × UInt64} (hskips : ¬h.Skips push.2) (hlast : p ∈ l.getLast?)
    (hle : p.2 ≤ push.2) : p.2.toNat + h₀.resolutionMs.toNat ≤ push.2.toNat := by
  have hcount : h.count > 0 := by
    have hlen : 0 < l.length := List.length_pos_of_mem (List.mem_of_getLast? hlast)
    rw [gt_iff_lt, UInt32.lt_iff_toNat_lt, hinv.count, UInt32.toNat_zero]
    exact Nat.lt_min.mpr ⟨hlen, hnew.capacity⟩
  have hsub : (push.2 - p.2).toNat = push.2.toNat - p.2.toNat := UInt64.toNat_sub_of_le _ _ hle
  rw [MetricsHistory.Skips, hinv.lastPushMs p hlast, hinv.resolutionMs, not_and, UInt64.not_lt,
    UInt64.le_iff_toNat_le, hsub, UInt32.toNat_toUInt64] at hskips
  have hapart := hskips hcount
  rw [UInt64.le_iff_toNat_le] at hle
  omega

theorem MetricsHistory.Holds.store (hinv : h₀.Holds h l) (hnew : h₀.New) {push : ℚ × UInt64}
    (hskips : ¬h.Skips push.2) (hlast : ∀ p ∈ l.getLast?, p.2 ≤ push.2) :
    h₀.Holds (metricsHistoryPush h push) (l ++ [push]) := by
  have hhead := hinv.head
  have hcapacity := h₀.capacity.toNat_lt
  have hmod := Nat.mod_lt l.length hnew.capacity
  have hone : (1 : UInt32).toNat = 1 := rfl
  have hslot : ∀ {β : Type} (f : ℚ × UInt64 → β),
      h.head.toNat = (0 + (l.map f).length) % h₀.capacity.toNat := by
    intro β f
    rw [hhead, Nat.zero_add, List.length_map]
  rw [metricsHistoryPush, if_neg hskips]
  constructor
  · exact hinv.capacity
  · exact hinv.resolutionMs
  · have hnext : (l.length % h₀.capacity.toNat + 1) % 2 ^ 32 =
        l.length % h₀.capacity.toNat + 1 := Nat.mod_eq_of_lt (by omega)
    rw [hinv.capacity, UInt32.toNat_mod, UInt32.toNat_add, hhead, hone, hnext,
      List.length_append, List.length_singleton, Nat.mod_add_mod]
  · have hcount := hinv.count
    have hlt : h.count < h.capacity ↔ l.length < h₀.capacity.toNat := by
      rw [hinv.capacity, UInt32.lt_iff_toNat_lt, hcount, min_lt_iff, or_iff_left (lt_irrefl _)]
    rw [List.length_append, List.length_singleton]
    dsimp only
    split_ifs with hroom
    · rw [hlt] at hroom
      rw [UInt32.toNat_add, hone, hcount, Nat.mod_eq_of_lt (by omega)]
      omega
    · rw [hlt] at hroom
      omega
  · rw [List.map_append, List.map_singleton, ringWrites_concat, ← hslot, hinv.values]
  · rw [List.map_append, List.map_singleton, ringWrites_concat, ← hslot, hinv.timestampsMs]
  · intro p hp
    rw [List.getLast?_concat] at hp
    cases hp
    rfl
  · rw [List.isChain_append]
    refine ⟨hinv.spaced, List.isChain_singleton _, fun p hp q hq => ?_⟩
    cases hq
    exact hinv.le_of_not_skips hnew hskips hp (hlast p hp)

theorem stored_of_skips {push : ℚ × UInt64} (hskips : h.Skips push.2)
    (pushes : List (ℚ × UInt64)) : stored h (push :: pushes) = stored h pushes := by
  have hsame : metricsHistoryPush h push = h := if_pos hskips
  rw [stored, runTrace, if_pos hskips, hsame, Option.toList_none, List.nil_append, stored]

theorem stored_of_not_skips {push : ℚ × UInt64} (hskips : ¬h.Skips push.2)
    (pushes : List (ℚ × UInt64)) :
    stored h (push :: pushes) = push :: stored (metricsHistoryPush h push) pushes := by
  rw [stored, runTrace, if_neg hskips, Option.toList_some, List.singleton_append, stored]

theorem MetricsHistory.Holds.run {pushes : List (ℚ × UInt64)} (hinv : h₀.Holds h l)
    (hnew : h₀.New) (htimes : pushes.Pairwise fun a b => a.2 ≤ b.2)
    (hlast : ∀ p ∈ l.getLast?, ∀ push ∈ pushes, p.2 ≤ push.2) :
    h₀.Holds (run metricsHistoryPush h pushes) (l ++ stored h pushes) := by
  induction pushes generalizing h l with
  | nil =>
      rw [stored, runTrace, List.append_nil]
      exact hinv
  | cons push pushes ih =>
      obtain ⟨hfirst, hrest⟩ := List.pairwise_cons.mp htimes
      rw [run_cons]
      by_cases hskips : h.Skips push.2
      · have hsame : metricsHistoryPush h push = h := if_pos hskips
        rw [hsame, stored_of_skips hskips]
        exact ih hinv hrest fun p hp q hq => hlast p hp q (List.mem_cons_of_mem _ hq)
      · have hstep := hinv.store hnew hskips fun p hp => hlast p hp push List.mem_cons_self
        have hnext := ih hstep hrest fun p hp q hq => by
          rw [List.getLast?_concat] at hp
          cases hp
          exact hfirst q hq
        rw [stored_of_not_skips hskips]
        rwa [List.append_assoc, List.singleton_append] at hnext

theorem MetricsHistory.New.run {pushes : List (ℚ × UInt64)} (hnew : h₀.New)
    (htimes : pushes.Pairwise fun a b => a.2 ≤ b.2) :
    h₀.Holds (run metricsHistoryPush h₀ pushes) (stored h₀ pushes) :=
  hnew.holds.run hnew htimes fun p hp => by cases hp

end Ring

/-! ## The slots of a window -/

/-- The slot of round `i` when the last `m` values are read, in a ring that `len` values have
been written to. -/
def windowSlot (capacity len m i : ℕ) : ℕ :=
  ((len % capacity + capacity + 4294967296 - m) % 4294967296 % capacity + i) % 4294967296 %
    capacity

section Window

variable {capacity len m : ℕ}

theorem windowSlot_of_fits {i : ℕ} (hsize : capacity < 4294967296) (hlen : m ≤ len)
    (hcapacity : m ≤ capacity) (hi : i < m) (hfits : WindowFits capacity len m) :
    windowSlot capacity len m i = (len - m + i) % capacity := by
  have hmod := Nat.mod_lt len (Nat.zero_lt_of_lt (hi.trans_le hcapacity))
  have hdiv := Nat.div_add_mod len capacity
  unfold windowSlot
  rcases hfits with ⟨hhead, hwrap⟩ | ⟨hhead, hwrap⟩
  · have hstart : (len % capacity + capacity + 4294967296 - m) % 4294967296 % capacity =
        len % capacity - m := by
      have hsum : (len % capacity + capacity + 4294967296 - m) % 4294967296 =
          len % capacity - m + capacity := by omega
      rw [hsum, Nat.add_mod_right, Nat.mod_eq_of_lt (by omega)]
    have htrue : len - m + i = len % capacity - m + i + capacity * (len / capacity) := by omega
    rw [hstart, htrue, Nat.add_mul_mod_self_left]
    congr 1
    omega
  · have hstart : (len % capacity + capacity + 4294967296 - m) % 4294967296 % capacity =
        len % capacity + capacity - m := by
      have hsum : (len % capacity + capacity + 4294967296 - m) % 4294967296 =
          len % capacity + capacity - m := by omega
      rw [hsum, Nat.mod_eq_of_lt (by omega)]
    obtain ⟨rounds, hrounds⟩ : ∃ k, len / capacity = k + 1 := by
      refine Nat.exists_eq_succ_of_ne_zero fun hzero => ?_
      rw [hzero, Nat.mul_zero] at hdiv
      omega
    rw [hrounds, Nat.mul_succ] at hdiv
    have htrue : len - m + i = len % capacity + capacity - m + i + capacity * rounds := by omega
    rw [hstart, htrue, Nat.add_mul_mod_self_left]
    congr 1
    omega

theorem windowSlot_of_not_fits (hsize : capacity < 4294967296) (hpos : 0 < m) (hlen : m ≤ len)
    (hcapacity : m ≤ capacity) (hfits : ¬WindowFits capacity len m) :
    ∃ i < m, ∃ k < len - m + i, len ≤ k + capacity ∧
      windowSlot capacity len m i = k % capacity := by
  have hmod := Nat.mod_lt len (hpos.trans_le hcapacity)
  have hdiv := Nat.div_add_mod len capacity
  rw [WindowFits, not_or, not_and, not_and] at hfits
  unfold windowSlot
  rcases Nat.lt_or_ge (len % capacity) m with hhead | hhead
  · -- the sum with the round wraps, and the slot is the first one
    have hwrap := hfits.2 hhead
    refine ⟨4294967296 - (len % capacity + capacity - m), by omega,
      capacity * (len / capacity), by omega, by omega, ?_⟩
    have hsum : (len % capacity + capacity + 4294967296 - m) % 4294967296 =
        len % capacity + capacity - m := by omega
    have hround : len % capacity + capacity - m +
        (4294967296 - (len % capacity + capacity - m)) = 4294967296 := by omega
    rw [hsum, Nat.mod_eq_of_lt (by omega : len % capacity + capacity - m < capacity), hround,
      Nat.mod_self, Nat.zero_mod, Nat.mul_mod_right]
  · -- the start wraps
    have hwrap := hfits.1 hhead
    refine ⟨0, hpos, capacity * (len / capacity) + (len % capacity + capacity - m - 4294967296),
      by omega, by omega, ?_⟩
    have hsum : (len % capacity + capacity + 4294967296 - m) % 4294967296 =
        len % capacity + capacity - m - 4294967296 := by omega
    rw [hsum, Nat.add_zero, Nat.mul_add_mod]
    have hsmall : len % capacity + capacity - m - 4294967296 < capacity := by omega
    rw [Nat.mod_eq_of_lt hsmall, Nat.mod_eq_of_lt (hsmall.trans hsize), Nat.mod_eq_of_lt hsmall]

end Window

/-! ## The readers -/

theorem average_of_length {l : List ℚ} {m : ℕ} (hlen : l.length = m) (hpos : 0 < m) :
    average l = l.sum / m := by
  have hne : l ≠ [] := List.ne_nil_of_length_pos (hpos.trans_eq hlen.symm)
  rw [average, if_neg hne, hlen]

section Readers

variable {h₀ h : MetricsHistory} {l : List (ℚ × UInt64)}

theorem MetricsHistory.toNat_avail (h : MetricsHistory) (n : UInt32) :
    (h.avail n).toNat = min n.toNat h.count.toNat := by
  unfold MetricsHistory.avail
  split_ifs with hlt
  · rw [UInt32.lt_iff_toNat_lt] at hlt
    exact (Nat.min_eq_right hlt.le).symm
  · rw [UInt32.lt_iff_toNat_lt] at hlt
    exact (Nat.min_eq_left (Nat.not_lt.mp hlt)).symm

theorem MetricsHistory.Holds.getElem (hinv : h₀.Holds h l) {k : ℕ} (hk : k < l.length)
    (hrecent : l.length ≤ k + h₀.capacity.toNat) :
    h.values (k % h₀.capacity.toNat) = l[k].1 ∧
      h.timestampsMs (k % h₀.capacity.toNat) = l[k].2 := by
  have hvalue := ringWrites_getElem (n := h₀.capacity.toNat) (fun _ => (0 : ℚ)) 0
    (l.map Prod.fst) (k := k) (by rwa [List.length_map]) (by rwa [List.length_map])
  have htime := ringWrites_getElem (n := h₀.capacity.toNat) (fun _ => (0 : UInt64)) 0
    (l.map Prod.snd) (k := k) (by rwa [List.length_map]) (by rwa [List.length_map])
  rw [Nat.zero_add, List.getElem_map] at hvalue htime
  rw [hinv.values, hinv.timestampsMs]
  exact ⟨hvalue, htime⟩

theorem MetricsHistory.Holds.lt (hinv : h₀.Holds h l) (hnew : h₀.New) {j k : ℕ} (hjk : j < k)
    (hj : j < l.length) (hk : k < l.length) : l[j].2.toNat < l[k].2.toNat := by
  have hpos := hnew.resolutionMs
  have hchain : (l.map fun p => p.2.toNat).IsChain (· < ·) := by
    rw [List.isChain_map]
    exact hinv.spaced.imp fun a b hab => by omega
  have hsorted := List.pairwise_iff_getElem.mp (List.isChain_iff_pairwise.mp hchain) j k
    (by rwa [List.length_map]) (by rwa [List.length_map]) hjk
  rwa [List.getElem_map, List.getElem_map] at hsorted

theorem MetricsHistory.Holds.idx_eq (hinv : h₀.Holds h l) {avail : UInt32} {i : ℕ}
    (hi : i < avail.toNat) :
    h.idx avail (UInt32.ofNat i) = windowSlot h₀.capacity.toNat l.length avail.toNat i := by
  have havail := avail.toNat_lt
  have hround : (UInt32.ofNat i).toNat = i :=
    UInt32.toNat_ofNat_of_lt' (by have : UInt32.size = 2 ^ 32 := rfl; omega)
  have hstart : (2 ^ 32 - avail.toNat +
      (l.length % h₀.capacity.toNat + h₀.capacity.toNat) % 2 ^ 32) % 2 ^ 32 =
        (l.length % h₀.capacity.toNat + h₀.capacity.toNat + 4294967296 - avail.toNat) %
          4294967296 := by omega
  rw [MetricsHistory.idx, hinv.capacity, UInt32.toNat_mod, UInt32.toNat_add, UInt32.toNat_mod,
    UInt32.toNat_sub, UInt32.toNat_add, hround, hinv.head, hstart, windowSlot]

theorem MetricsHistory.Holds.map_slots (hinv : h₀.Holds h l) {avail : UInt32}
    (hlen : avail.toNat ≤ l.length) (hcapacity : avail.toNat ≤ h₀.capacity.toNat)
    (hfits : WindowFits h₀.capacity.toNat l.length avail.toNat) {β : Type*}
    (f : ℚ → UInt64 → β) :
    (h.slots avail).map (fun idx => f (h.values idx) (h.timestampsMs idx)) =
      (lastStored l avail.toNat).map fun p => f p.1 p.2 := by
  have hsize := h₀.capacity.toNat_lt
  apply List.ext_getElem
  · rw [List.length_map, MetricsHistory.slots, List.length_map, List.length_range,
      List.length_map, lastStored, List.length_drop]
    omega
  · intro i hi hi'
    rw [List.length_map, MetricsHistory.slots, List.length_map, List.length_range] at hi
    have hslot := windowSlot_of_fits hsize hlen hcapacity hi hfits
    obtain ⟨hvalue, htime⟩ := hinv.getElem (k := l.length - avail.toNat + i) (by omega) (by omega)
    simp only [MetricsHistory.slots, lastStored, List.getElem_map, List.getElem_range,
      List.getElem_drop, hinv.idx_eq hi, hslot, hvalue, htime]

theorem MetricsHistory.Holds.map_slots_ne (hinv : h₀.Holds h l) (hnew : h₀.New) {avail : UInt32}
    (hpos : 0 < avail.toNat) (hlen : avail.toNat ≤ l.length)
    (hcapacity : avail.toNat ≤ h₀.capacity.toNat)
    (hfits : ¬WindowFits h₀.capacity.toNat l.length avail.toNat) :
    (h.slots avail).map h.timestampsMs ≠ (lastStored l avail.toNat).map Prod.snd := by
  intro heq
  obtain ⟨i, hi, k, hk, hrecent, hslot⟩ :=
    windowSlot_of_not_fits h₀.capacity.toNat_lt hpos hlen hcapacity hfits
  have hget := congrArg (·[i]?) heq
  have hround : i < (List.range avail.toNat).length := by rwa [List.length_range]
  have hlast : i < (l.drop (l.length - avail.toNat)).length := by
    rw [List.length_drop]
    omega
  simp only [MetricsHistory.slots, lastStored, List.getElem?_map, List.getElem?_eq_getElem hround,
    List.getElem?_eq_getElem hlast, List.getElem_range, List.getElem_drop, Option.map_some,
    Option.some.injEq, hinv.idx_eq hi, hslot] at hget
  rw [(hinv.getElem (k := k) (by omega) hrecent).2] at hget
  have hlt := hinv.lt hnew hk (by omega) (by omega)
  rw [hget] at hlt
  exact lt_irrefl _ hlt

theorem lastStored_zero (l : List (ℚ × UInt64)) : lastStored l 0 = [] := by
  rw [lastStored, Nat.sub_zero, List.drop_length]

theorem MetricsHistory.slots_zero (h : MetricsHistory) : h.slots 0 = [] := rfl

theorem MetricsHistory.Holds.metricsHistoryGetLast_eq (hinv : h₀.Holds h l) {F : Type*}
    (toFloat : ℚ → F) (n : UInt32) (hlen : (h.avail n).toNat ≤ l.length)
    (hcapacity : (h.avail n).toNat ≤ h₀.capacity.toNat)
    (hfits : h.avail n = 0 ∨ WindowFits h₀.capacity.toNat l.length (h.avail n).toNat) :
    metricsHistoryGetLast toFloat h n =
      (h.avail n, (lastStored l (h.avail n).toNat).map fun p => (toFloat p.1, p.2)) := by
  unfold metricsHistoryGetLast
  dsimp only
  split_ifs with hzero
  · have hnone : h.avail n = 0 := by
      rw [← UInt32.toNat_inj, h.toNat_avail, hzero, UInt32.toNat_zero, Nat.zero_min]
    rw [hnone, UInt32.toNat_zero, lastStored_zero, List.map_nil]
  · rcases hfits with hnone | hfits
    · rw [hnone, UInt32.toNat_zero, lastStored_zero, h.slots_zero, List.map_nil, List.map_nil]
    · rw [hinv.map_slots hlen hcapacity hfits fun value ts => (toFloat value, ts)]

theorem MetricsHistory.Holds.metricsHistoryAvg_eq (hinv : h₀.Holds h l) {n : UInt32}
    (hpos : 0 < (h.avail n).toNat) (hlen : (h.avail n).toNat ≤ l.length)
    (hcapacity : (h.avail n).toNat ≤ h₀.capacity.toNat)
    (hfits : WindowFits h₀.capacity.toNat l.length (h.avail n).toNat) :
    metricsHistoryAvg h n =
      some (average ((lastStored l (h.avail n).toNat).map Prod.fst)) := by
  have hcount : h.count ≠ 0 := by
    intro hzero
    rw [h.toNat_avail, hzero, UInt32.toNat_zero, Nat.min_zero] at hpos
    exact lt_irrefl 0 hpos
  have havail : h.avail n ≠ 0 := by
    intro hzero
    rw [hzero] at hpos
    exact lt_irrefl 0 hpos
  have hwindow : ((lastStored l (h.avail n).toNat).map Prod.fst).length = (h.avail n).toNat := by
    rw [List.length_map, lastStored, List.length_drop]
    omega
  rw [metricsHistoryAvg, if_neg hcount, if_neg havail, average_of_length hwindow hpos,
    hinv.map_slots hlen hcapacity hfits fun value _ => value]

theorem MetricsHistory.metricsHistoryAvg_zero (h : MetricsHistory) (hcount : h.count ≠ 0) :
    metricsHistoryAvg h 0 = none := by
  have hnone : h.avail 0 = 0 := by
    rw [← UInt32.toNat_inj, h.toNat_avail, UInt32.toNat_zero, Nat.zero_min]
  rw [metricsHistoryAvg, if_neg hcount, if_pos hnone]

theorem MetricsHistory.Holds.windowFits (hinv : h₀.Holds h l) (hnew : h₀.New) {F : Type*}
    {toFloat : ℚ → F} {n : UInt32} (hn : n ≠ 0) (hpos : 0 < (h.avail n).toNat)
    (hlen : (h.avail n).toNat ≤ l.length) (hcapacity : (h.avail n).toNat ≤ h₀.capacity.toNat)
    (hlast : (metricsHistoryGetLast toFloat h n).2 =
      (lastStored l (h.avail n).toNat).map fun p => (toFloat p.1, p.2)) :
    WindowFits h₀.capacity.toNat l.length (h.avail n).toNat := by
  by_contra hfits
  refine hinv.map_slots_ne hnew hpos hlen hcapacity hfits ?_
  rw [metricsHistoryGetLast, if_neg hn] at hlast
  have hts := congrArg (List.map Prod.snd) hlast
  rwa [List.map_map, List.map_map] at hts

end Readers

/-! ## When the last values are read -/

theorem stored_eq_nil_iff {h : MetricsHistory} (hnew : h.New) (pushes : List (ℚ × UInt64)) :
    stored h pushes = [] ↔ pushes = [] := by
  cases pushes with
  | nil => exact iff_of_true rfl rfl
  | cons push pushes =>
      have hskips : ¬h.Skips push.2 := by
        rw [MetricsHistory.Skips, hnew.count]
        exact fun hskips => absurd hskips.1 (by decide)
      rw [stored_of_not_skips hskips]
      exact iff_of_false (List.cons_ne_nil _ _) (List.cons_ne_nil _ _)

/-- The readers are right exactly when nothing has been pushed, or more than 0 values are
asked for, whose slots are found without a wrap. -/
theorem metricsHistoryCorrect_iff {F : Type*} (toFloat : ℚ → F) {resolutionMs durationMs : UInt32}
    {mallocOk valuesOk timestampsOk : Bool} {h : MetricsHistory}
    (hcreate : metricsHistoryCreate resolutionMs durationMs mallocOk valuesOk timestampsOk =
      some h) {pushes : List (ℚ × UInt64)} (htimes : pushes.Pairwise fun a b => a.2 ≤ b.2)
    (n : UInt32) :
    HistoryCorrect toFloat h pushes n ↔
      pushes = [] ∨ (n ≠ 0 ∧ WindowFits h.capacity.toNat (stored h pushes).length
        (min n.toNat (min (stored h pushes).length h.capacity.toNat))) := by
  have hnew := new_of_metricsHistoryCreate hcreate
  have hinv := hnew.run htimes
  have havail := (run metricsHistoryPush h pushes).toNat_avail n
  rw [← stored_eq_nil_iff hnew pushes, ← hinv.count, ← havail]
  have hcount := hinv.count
  have hcapacity := hnew.capacity
  have hle : ((run metricsHistoryPush h pushes).avail n).toNat ≤ (stored h pushes).length ∧
      ((run metricsHistoryPush h pushes).avail n).toNat ≤ h.capacity.toNat := by omega
  have hwindow : UInt32.ofNat ((run metricsHistoryPush h pushes).avail n).toNat =
      (run metricsHistoryPush h pushes).avail n := UInt32.ofNat_toNat
  constructor
  · intro hcorrect
    rw [or_iff_not_imp_left]
    intro hstored
    have hpos := List.length_pos_of_ne_nil hstored
    have hlast := hcorrect.last
    have havg := hcorrect.avg
    rw [← havail] at hlast havg
    have hn : n ≠ 0 := by
      rintro rfl
      have hcount' : (run metricsHistoryPush h pushes).count ≠ 0 := by
        rw [Ne, ← UInt32.toNat_inj, hcount, UInt32.toNat_zero]
        omega
      rw [MetricsHistory.metricsHistoryAvg_zero _ hcount'] at havg
      cases havg
    have hn' : 0 < n.toNat := Nat.pos_of_ne_zero fun hzero => hn (UInt32.toNat_inj.mp hzero)
    exact ⟨hn, hinv.windowFits hnew hn (by omega) hle.1 hle.2 (congrArg Prod.snd hlast)⟩
  · intro hcond
    refine ⟨hcount, hinv.spaced, ?_, ?_⟩
    · rw [← havail, hwindow]
      refine hinv.metricsHistoryGetLast_eq toFloat n hle.1 hle.2 (hcond.imp ?_ And.right)
      intro hstored
      rw [hstored, List.length_nil] at hle
      exact UInt32.toNat_inj.mp (Nat.le_zero.mp hle.1)
    · rw [← havail]
      by_cases hstored : stored h pushes = []
      · have hnone : (run metricsHistoryPush h pushes).count = 0 := by
          rw [← UInt32.toNat_inj, hcount, hstored, List.length_nil, Nat.zero_min,
            UInt32.toNat_zero]
        rw [metricsHistoryAvg, if_pos hnone, hstored, lastStored, List.drop_nil, List.map_nil,
          average, if_pos rfl]
      · obtain ⟨hn, hfits⟩ := hcond.resolve_left hstored
        have hlen := List.length_pos_of_ne_nil hstored
        have hn' : 0 < n.toNat := Nat.pos_of_ne_zero fun hzero => hn (UInt32.toNat_inj.mp hzero)
        exact hinv.metricsHistoryAvg_eq (by omega) hle.1 hle.2 hfits

/-- A history that holds a value for every second of five minutes. -/
def fiveMinutes : MetricsHistory where
  resolutionMs := 1000
  durationMs := 300000
  capacity := 300
  head := 0
  count := 0
  values := fun _ => 0
  timestampsMs := fun _ => 0
  lastPushMs := 0

theorem historyCorrect_fiveMinutes :
    HistoryCorrect (fun x : ℚ => x) fiveMinutes [(7, 5000), (8, 5400), (9, 6000)] 2 ↔
      [((7 : ℚ), (5000 : UInt64)), (8, 5400), (9, 6000)] = [] ∨
        ((2 : UInt32) ≠ 0 ∧ WindowFits fiveMinutes.capacity.toNat
          (stored fiveMinutes [(7, 5000), (8, 5400), (9, 6000)]).length
          (min (2 : UInt32).toNat (min
            (stored fiveMinutes [(7, 5000), (8, 5400), (9, 6000)]).length
            fiveMinutes.capacity.toNat))) :=
  metricsHistoryCorrect_iff (fun x => x)
    (by rfl : metricsHistoryCreate 1000 300000 true true true = some fiveMinutes)
    (by decide) 2

/-- The average of the last 0 of one value is `0.0 / 0`. -/
theorem not_historyCorrect_zero :
    ¬∀ (resolutionMs durationMs : UInt32) (h : MetricsHistory),
      metricsHistoryCreate resolutionMs durationMs true true true = some h →
      ∀ pushes : List (ℚ × UInt64), pushes.Pairwise (fun a b => a.2 ≤ b.2) →
      ∀ n, HistoryCorrect (fun x : ℚ => x) h pushes n := by
  intro hlaw
  have havg := (hlaw 1000 300000 fiveMinutes rfl [(7, 5000)] (List.pairwise_singleton _ _) 0).avg
  have hnone : metricsHistoryAvg (run metricsHistoryPush fiveMinutes [(7, 5000)]) 0 = none := rfl
  rw [hnone] at havg
  cases havg

end Monitoring

end Shinigami
