import Mathlib.Data.List.Induction
import Mathlib.Tactic.SplitIfs
import Shinigami.Foundations.CString
import Shinigami.Foundations.FirstMatch
import Shinigami.Foundations.FirstMin
import Shinigami.Foundations.Run

/-!
# The alert engine

`alert_fire` counts a fire into the first record of the same component and condition
that is within the cooldown, or adds a record, in a full table in the place of the
record with the earliest last occurrence. The table is the list of its `count`
records. The last byte of a text field is never written and stays zero.
-/

namespace Shinigami

namespace Monitoring

open CString

/-- `ALERT_MAX_ACTIVE`. -/
def alertMaxActive : ℕ := 1000

/-- `alert_severity_t`. -/
inductive AlertSeverity where
  | info
  | warn
  | crit
deriving DecidableEq, Repr

def getCooldownMs : AlertSeverity → ℕ
  | .crit => 30000
  | .warn => 60000
  | .info => 300000

/-- `alert_record_t`. -/
structure AlertRecord where
  firstTsMs : UInt64
  lastTsMs : UInt64
  severity : AlertSeverity
  component : List UInt8
  condition : List UInt8
  currentValue : List UInt8
  threshold : List UInt8
  suggestion : List UInt8
  occurrences : UInt32
  active : UInt8
deriving DecidableEq

/-- The arguments of a call of `alert_fire`. -/
structure Fire where
  severity : AlertSeverity
  component : List UInt8
  condition : List UInt8
  currentValue : List UInt8
  threshold : List UInt8
  suggestion : List UInt8
  timestamp : UInt64
deriving DecidableEq

def Fire.matchesRecord (f : Fire) (a : AlertRecord) : Bool :=
  strcmpEq a.component f.component && strcmpEq a.condition f.condition &&
    decide ((f.timestamp - a.lastTsMs).toNat < getCooldownMs f.severity)

def AlertRecord.again (a : AlertRecord) (timestamp : UInt64) : AlertRecord :=
  { a with
    lastTsMs := timestamp
    occurrences := a.occurrences + 1
    active := 1 }

/-- The record that a fire adds. -/
def Fire.record (f : Fire) : AlertRecord where
  firstTsMs := f.timestamp
  lastTsMs := f.timestamp
  severity := f.severity
  component := strncpyField 32 f.component
  condition := strncpyField 64 f.condition
  currentValue := strncpyField 32 f.currentValue
  threshold := strncpyField 32 f.threshold
  suggestion := strncpyField 128 f.suggestion
  occurrences := 1
  active := 1

def oldestIdx (alerts : List AlertRecord) : ℕ :=
  firstMinIdx (fun a => a.lastTsMs.toNat) alerts

/-- `alert_fire`: the table and the returned index. -/
def alertFire (alerts : List AlertRecord) (f : Fire) : List AlertRecord × ℕ :=
  match alerts.findIdx? f.matchesRecord with
  | some i => (alerts.modify i fun a => a.again f.timestamp, i)
  | none =>
      let room :=
        if alerts.length ≥ alertMaxActive then alerts.eraseIdx (oldestIdx alerts) else alerts
      (room ++ [f.record], room.length)

/-- The record that the call removes. -/
def evictedBy (alerts : List AlertRecord) (f : Fire) : Option AlertRecord :=
  match alerts.findIdx? f.matchesRecord with
  | some _ => none
  | none => if alerts.length ≥ alertMaxActive then alerts[oldestIdx alerts]? else none

/-- The record is within its own cooldown. -/
def AlertRecord.Live (timestamp : UInt64) (a : AlertRecord) : Prop :=
  (timestamp - a.lastTsMs).toNat < getCooldownMs a.severity

instance AlertRecord.decidableLive (timestamp : UInt64) :
    DecidablePred (AlertRecord.Live timestamp) :=
  fun a => inferInstanceAs (Decidable ((timestamp - a.lastTsMs).toNat < _))

/-- `alert_get_active` with room for `max` records. -/
def alertGetActive : List AlertRecord → ℕ → UInt64 → List AlertRecord
  | [], _, _ => []
  | _ :: _, 0, _ => []
  | a :: alerts, max + 1, timestamp =>
      if a.Live timestamp then a :: alertGetActive alerts max timestamp
      else alertGetActive alerts (max + 1) timestamp

/-- The table after a run of fires, from `alert_state_init`. -/
def firedAlerts (fires : List Fire) : List AlertRecord :=
  run (fun alerts f => (alertFire alerts f).1) [] fires

/-- The component and the condition. -/
def Fire.key (f : Fire) : List UInt8 × List UInt8 := (cstr f.component, cstr f.condition)

def AlertRecord.key (a : AlertRecord) : List UInt8 × List UInt8 :=
  (cstr a.component, cstr a.condition)

def Fire.Fits (f : Fire) : Prop := (cstr f.component).length < 32 ∧ (cstr f.condition).length < 64

theorem alertGetActive_eq (alerts : List AlertRecord) (max : ℕ) (timestamp : UInt64) :
    alertGetActive alerts max timestamp =
      (alerts.filter fun a => a.Live timestamp).take max := by
  induction alerts generalizing max with
  | nil => simp [alertGetActive]
  | cons a alerts ih =>
      cases max with
      | zero => simp [alertGetActive]
      | succ max =>
          rw [alertGetActive]
          by_cases hlive : a.Live timestamp
          · simp [hlive, ih]
          · simp [hlive, ih]

theorem Fire.matchesRecord_iff {f : Fire} {a : AlertRecord} :
    f.matchesRecord a = true ↔
      a.key = f.key ∧ (f.timestamp - a.lastTsMs).toNat < getCooldownMs f.severity := by
  simp [matchesRecord, strcmpEq_iff, AlertRecord.key, Fire.key]

theorem Fire.key_record {f : Fire} (h : f.Fits) : f.record.key = f.key := by
  have hcomponent : (cstr f.component).take 31 = cstr f.component :=
    List.take_of_length_le (Nat.le_of_lt_succ h.1)
  have hcondition : (cstr f.condition).take 63 = cstr f.condition :=
    List.take_of_length_le (Nat.le_of_lt_succ h.2)
  simp [AlertRecord.key, Fire.key, record, hcomponent, hcondition]

@[simp] theorem Fire.firstTsMs_record (f : Fire) : f.record.firstTsMs = f.timestamp := rfl

@[simp] theorem Fire.lastTsMs_record (f : Fire) : f.record.lastTsMs = f.timestamp := rfl

@[simp] theorem Fire.severity_record (f : Fire) : f.record.severity = f.severity := rfl

@[simp] theorem AlertRecord.key_again (a : AlertRecord) (timestamp : UInt64) :
    (a.again timestamp).key = a.key := rfl

theorem Fire.not_matchesRecord_of_key_ne {f : Fire} {a : AlertRecord} (h : a.key ≠ f.key) :
    ¬f.matchesRecord a = true := fun hmatch => h (matchesRecord_iff.mp hmatch).1

/-- The record that leaves a full table: the first one with the earliest last
occurrence. -/
structure Oldest (alerts before : List AlertRecord) (oldest : AlertRecord)
    (after : List AlertRecord) : Prop where
  split : alerts = before ++ oldest :: after
  le : ∀ a ∈ alerts, oldest.lastTsMs ≤ a.lastTsMs
  lt : ∀ a ∈ before, oldest.lastTsMs < a.lastTsMs

/-- What a fire does to the table: a record counts it, it takes a free place, or it takes
the place of the oldest record. -/
theorem alertFire_cases (alerts : List AlertRecord) (f : Fire) :
    (∃ before a after, alerts = before ++ a :: after ∧ f.matchesRecord a = true ∧
        evictedBy alerts f = none ∧
        (alertFire alerts f).1 = before ++ a.again f.timestamp :: after) ∨
      ((∀ a ∈ alerts, ¬f.matchesRecord a = true) ∧ alerts.length < alertMaxActive ∧
        evictedBy alerts f = none ∧ (alertFire alerts f).1 = alerts ++ [f.record]) ∨
      ((∀ a ∈ alerts, ¬f.matchesRecord a = true) ∧ alertMaxActive ≤ alerts.length ∧
        ∃ before oldest after, Oldest alerts before oldest after ∧
          evictedBy alerts f = some oldest ∧
          (alertFire alerts f).1 = before ++ after ++ [f.record]) := by
  cases hfind : alerts.findIdx? f.matchesRecord with
  | some i =>
      obtain ⟨hi, hmatch, -⟩ := List.findIdx?_eq_some_iff_getElem.mp hfind
      left
      refine ⟨alerts.take i, alerts[i], alerts.drop (i + 1), ?_, hmatch, ?_, ?_⟩
      · rw [List.getElem_cons_drop, List.take_append_drop]
      · rw [evictedBy, hfind]
      · rw [alertFire, hfind]
        exact List.modify_eq_take_cons_drop hi
  | none =>
      have hnone : ∀ a ∈ alerts, ¬f.matchesRecord a = true := by
        simpa [List.findIdx?_eq_none_iff] using hfind
      right
      rw [alertFire, evictedBy, hfind]
      dsimp only
      split_ifs with hfull
      · refine .inr ⟨hnone, hfull, ?_⟩
        have hne : alerts ≠ [] := by
          rintro rfl
          exact absurd hfull (by decide)
        obtain ⟨before, oldest, after, hsplit, hget, herase, hle, hlt⟩ :=
          exists_firstMin_split (fun a : AlertRecord => a.lastTsMs.toNat) hne
        exact ⟨before, oldest, after, ⟨hsplit, hle, hlt⟩, hget, by rw [oldestIdx, herase]⟩
      · exact .inl ⟨hnone, Nat.lt_of_not_le hfull, rfl, rfl⟩

/-- No fire is later. -/
def NotBefore (fires : List Fire) (timestamp : UInt64) : Prop :=
  ∀ f ∈ fires, f.timestamp ≤ timestamp

theorem NotBefore.of_concat {fires : List Fire} {f : Fire} {t : UInt64}
    (h : NotBefore (fires ++ [f]) t) : NotBefore fires t ∧ f.timestamp ≤ t :=
  ⟨fun g hg => h g (by simp [hg]), h f (by simp)⟩

theorem AlertRecord.Live.earlier {a : AlertRecord} {t t' : UInt64} (h : a.Live t')
    (hlast : a.lastTsMs ≤ t) (hle : t ≤ t') : a.Live t := by
  have hlate : (t' - a.lastTsMs).toNat = t'.toNat - a.lastTsMs.toNat :=
    UInt64.toNat_sub_of_le _ _ (UInt64.le_trans hlast hle)
  have hsoon : (t - a.lastTsMs).toNat = t.toNat - a.lastTsMs.toNat :=
    UInt64.toNat_sub_of_le _ _ hlast
  have hle' : t.toNat ≤ t'.toNat := UInt64.le_iff_toNat_le.mp hle
  unfold AlertRecord.Live at h ⊢
  omega

theorem firedAlerts_concat (fires : List Fire) (f : Fire) :
    firedAlerts (fires ++ [f]) = (alertFire (firedAlerts fires) f).1 := by
  rw [firedAlerts, run_concat, firedAlerts]

theorem length_firedAlerts_le (fires : List Fire) :
    (firedAlerts fires).length ≤ alertMaxActive := by
  induction fires using List.reverseRecOn with
  | nil => exact Nat.zero_le _
  | append_singleton fires f ih =>
      rw [firedAlerts_concat]
      rcases alertFire_cases (firedAlerts fires) f with
        ⟨before, a, after, hsplit, -, -, hfire⟩ | ⟨-, hroom, -, hfire⟩ |
        ⟨-, -, before, oldest, after, holdest, -, hfire⟩
      · rw [hsplit] at ih
        simpa [hfire] using ih
      · rw [hfire, List.length_append, List.length_singleton]
        exact hroom
      · rw [holdest.split] at ih
        simp only [List.length_append, List.length_cons] at ih
        simp only [hfire, List.length_append, List.length_singleton]
        omega

theorem mem_alertGetActive {alerts : List AlertRecord} {max : ℕ} {t : UInt64}
    {a : AlertRecord} (h : a ∈ alertGetActive alerts max t) : a ∈ alerts ∧ a.Live t := by
  rw [alertGetActive_eq] at h
  simpa using List.mem_of_mem_take h

theorem mem_alertGetActive_firedAlerts {fires : List Fire} {t : UInt64} {a : AlertRecord}
    (ha : a ∈ firedAlerts fires) (hlive : a.Live t) :
    a ∈ alertGetActive (firedAlerts fires) alertMaxActive t := by
  have hlen := (List.length_filter_le (fun b => decide (b.Live t)) _).trans
    (length_firedAlerts_le fires)
  rw [alertGetActive_eq, List.take_of_length_le hlen]
  exact List.mem_filter.mpr ⟨ha, by simpa using hlive⟩

/-- A fire of a new pair evicts the first record of a full table in which no record is
older. -/
theorem alertFire_evict_head {first : AlertRecord} {rest : List AlertRecord} {f : Fire}
    (hfull : alertMaxActive ≤ (first :: rest).length)
    (hnew : ∀ a ∈ first :: rest, a.key ≠ f.key)
    (hold : ∀ a ∈ rest, first.lastTsMs ≤ a.lastTsMs) :
    evictedBy (first :: rest) f = some first ∧
      (alertFire (first :: rest) f).1 = rest ++ [f.record] := by
  rcases alertFire_cases (first :: rest) f with ⟨before, a, after, hsplit, hmatch, -⟩ |
    ⟨-, hroom, -⟩ | ⟨-, -, before, oldest, after, holdest, hevicted, hfire⟩
  · exact absurd hmatch (Fire.not_matchesRecord_of_key_ne (hnew a (hsplit ▸ by simp)))
  · exact absurd hroom (Nat.not_lt.mpr hfull)
  · cases before with
    | nil =>
        obtain ⟨rfl, rfl⟩ := List.cons.inj holdest.split
        exact ⟨hevicted, hfire⟩
    | cons b before =>
        obtain ⟨rfl, hrest⟩ := List.cons.inj holdest.split
        have hle := hold oldest (hrest ▸ by simp)
        have hlt := holdest.lt first (by simp)
        exact absurd hlt (UInt64.not_lt.mpr hle)

theorem firedAlerts_eq_map {fires : List Fire} (hfits : ∀ f ∈ fires, f.Fits)
    (hkeys : fires.Pairwise fun f g => f.key ≠ g.key)
    (hlen : fires.length ≤ alertMaxActive) : firedAlerts fires = fires.map Fire.record := by
  induction fires using List.reverseRecOn with
  | nil => rfl
  | append_singleton fires f ih =>
      obtain ⟨hkeys, -, hnew⟩ := List.pairwise_append.mp hkeys
      have hroom : fires.length < alertMaxActive :=
        Nat.lt_of_succ_le (by simpa using hlen)
      have hnone : ∀ a ∈ fires.map Fire.record, ¬f.matchesRecord a = true := by
        rintro a ha hmatch
        obtain ⟨g, hg, rfl⟩ := List.mem_map.mp ha
        rw [Fire.matchesRecord_iff, Fire.key_record (hfits g (by simp [hg]))] at hmatch
        exact hnew g hg f (by simp) hmatch.1
      rw [firedAlerts_concat, ih (fun g hg => hfits g (by simp [hg])) hkeys hroom.le,
        List.map_append]
      rcases alertFire_cases (fires.map Fire.record) f with ⟨before, a, after, hsplit, hmatch, -⟩ |
        ⟨-, -, -, hfire⟩ | ⟨-, hfull, -⟩
      · exact absurd hmatch (hnone a (hsplit ▸ by simp))
      · exact hfire
      · exact absurd hroom (by simpa using hfull)

/-- The fire of the pair with number `i`. -/
def numberedFire (severity : AlertSeverity) (timestamp : UInt64) (i : ℕ) : Fire where
  severity := severity
  component := [UInt8.ofNat (i / 250 + 1)]
  condition := [UInt8.ofNat (i % 250 + 1)]
  currentValue := []
  threshold := []
  suggestion := []
  timestamp := timestamp

section Numbered

variable {severity severity' : AlertSeverity} {timestamp timestamp' : UInt64} {i j : ℕ}

theorem toNat_numberByte {n : ℕ} (hn : n < 250) : (UInt8.ofNat (n + 1)).toNat = n + 1 :=
  UInt8.toNat_ofNat_of_lt' (show n + 1 < 256 by omega)

theorem key_numberedFire (hi : i < 60000) :
    (numberedFire severity timestamp i).key =
      ([UInt8.ofNat (i / 250 + 1)], [UInt8.ofNat (i % 250 + 1)]) := by
  have hbyte : ∀ n < 250, cstr [UInt8.ofNat (n + 1)] = [UInt8.ofNat (n + 1)] := by
    intro n hn
    refine cstr_eq_self fun hzero => ?_
    have hval := congrArg UInt8.toNat (List.mem_singleton.mp hzero)
    rw [toNat_numberByte hn] at hval
    exact absurd hval (by simp)
  simp only [Fire.key, numberedFire, hbyte (i / 250) (by omega), hbyte (i % 250) (by omega)]

theorem fits_numberedFire (hi : i < 60000) : (numberedFire severity timestamp i).Fits := by
  obtain ⟨hcomponent, hcondition⟩ := Prod.mk.inj
    (@key_numberedFire severity timestamp i hi)
  rw [Fire.Fits, hcomponent, hcondition]
  simp

theorem key_numberedFire_inj (hi : i < 60000) (hj : j < 60000)
    (h : (numberedFire severity timestamp i).key = (numberedFire severity' timestamp' j).key) :
    i = j := by
  rw [key_numberedFire hi, key_numberedFire hj, Prod.mk.injEq, List.cons.injEq,
    List.cons.injEq] at h
  have hquot := congrArg UInt8.toNat h.1.1
  have hrem := congrArg UInt8.toNat h.2.1
  rw [toNat_numberByte (by omega), toNat_numberByte (by omega)] at hquot hrem
  omega

theorem pairwise_key_numbered {n : ℕ} (hn : n ≤ 60000) :
    ((List.range n).map (numberedFire severity timestamp)).Pairwise
      fun f g => f.key ≠ g.key := by
  refine List.pairwise_map.mpr (List.nodup_range.imp_of_mem fun {i j} hi hj hne hkey => hne ?_)
  exact key_numberedFire_inj (Nat.lt_of_lt_of_le (List.mem_range.mp hi) hn)
    (Nat.lt_of_lt_of_le (List.mem_range.mp hj) hn) hkey

end Numbered

end Monitoring

end Shinigami
