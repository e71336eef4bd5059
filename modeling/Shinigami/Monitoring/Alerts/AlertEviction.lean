import Mathlib.Data.List.Basic
import Mathlib.Data.List.Induction
import Shinigami.Monitoring.Alerts.AlertEngine

/-!
# Eviction of alerts

A full table gives up the record with the earliest last occurrence, whatever the
severities. That record has run out of its cooldown when one with a cooldown at least as
long has (`Oldest.not_live`), so a run in which this is so at every eviction loses no live
alert; among different severities an expired record may be younger than a live one.
-/

namespace Shinigami

namespace Monitoring

/-- The records that a run of fires has removed. -/
def evictedAlerts (fires : List Fire) : List AlertRecord :=
  runTrace (fun alerts f => (alertFire alerts f).1) evictedBy [] fires

/-- A record has run out of its cooldown. -/
def HasExpired (alerts : List AlertRecord) (timestamp : UInt64) : Prop :=
  ∃ b ∈ alerts, ¬b.Live timestamp

/-- A record has run out of a cooldown that is not shorter than that of `a`. -/
def HasLongExpired (alerts : List AlertRecord) (timestamp : UInt64) (a : AlertRecord) : Prop :=
  ∃ b ∈ alerts, ¬b.Live timestamp ∧ getCooldownMs a.severity ≤ getCooldownMs b.severity

/-- When a record is removed, the live records and the new one fit the table, and a record
that ran out of its cooldown stands beside one whose cooldown is long. -/
def MakesRoom (alerts : List AlertRecord) (f : Fire) : Prop :=
  ∀ a, evictedBy alerts f = some a →
    (alerts.filter fun b => b.Live f.timestamp).length + 1 ≤ alertMaxActive ∧
      (HasExpired alerts f.timestamp → HasLongExpired alerts f.timestamp a)

variable {alerts before after : List AlertRecord} {a : AlertRecord} {f : Fire}
  {fires : List Fire}

theorem evictedBy_eq_some (h : evictedBy alerts f = some a) :
    alertMaxActive ≤ alerts.length ∧
      ∃ before after, Oldest alerts before a after ∧
        (alertFire alerts f).1 = before ++ after ++ [f.record] := by
  rcases alertFire_cases alerts f with ⟨_, _, _, -, -, hnone, -⟩ | ⟨-, -, hnone, -⟩ |
    ⟨-, hfull, before, oldest, after, holdest, hevicted, hfire⟩
  · exact absurd (hnone.symm.trans h) nofun
  · exact absurd (hnone.symm.trans h) nofun
  · obtain rfl : oldest = a := Option.some.inj (hevicted.symm.trans h)
    exact ⟨hfull, before, after, holdest, hfire⟩

/-- The oldest record has run out of its cooldown when one with a longer cooldown has. -/
theorem Oldest.not_live (h : Oldest alerts before a after) {t : UInt64}
    (ht : ∀ b ∈ alerts, b.lastTsMs ≤ t) (hexpired : HasLongExpired alerts t a) : ¬a.Live t := by
  obtain ⟨b, hb, hdead, hcooldown⟩ := hexpired
  have ha : a ∈ alerts := h.split ▸ by simp
  have hdist_a : (t - a.lastTsMs).toNat = t.toNat - a.lastTsMs.toNat :=
    UInt64.toNat_sub_of_le _ _ (ht a ha)
  have hdist_b : (t - b.lastTsMs).toNat = t.toNat - b.lastTsMs.toNat :=
    UInt64.toNat_sub_of_le _ _ (ht b hb)
  have hle : a.lastTsMs.toNat ≤ b.lastTsMs.toNat := UInt64.le_iff_toNat_le.mp (h.le b hb)
  unfold AlertRecord.Live at hdead ⊢
  omega

theorem MakesRoom.not_live (h : MakesRoom alerts f) (hlast : ∀ b ∈ alerts, b.lastTsMs ≤ f.timestamp)
    (ha : evictedBy alerts f = some a) : ¬a.Live f.timestamp := by
  obtain ⟨hfull, before, after, holdest, -⟩ := evictedBy_eq_some ha
  obtain ⟨hroom, hlong⟩ := h a ha
  have hexpired : HasExpired alerts f.timestamp := by
    have hlt : (alerts.filter fun b => b.Live f.timestamp).length < alerts.length := by omega
    obtain ⟨b, hb, hdead⟩ := List.length_filter_lt_length_iff_exists.mp hlt
    exact ⟨b, hb, by simpa using hdead⟩
  exact holdest.not_live hlast (hlong hexpired)

theorem exists_of_mem_firedAlerts (ha : a ∈ firedAlerts fires) :
    ∃ f ∈ fires, f.timestamp = a.lastTsMs := by
  induction fires using List.reverseRecOn generalizing a with
  | nil => cases ha
  | append_singleton fires f ih =>
      rw [firedAlerts_concat] at ha
      have hold : a ∈ firedAlerts fires → ∃ g ∈ fires ++ [f], g.timestamp = a.lastTsMs := by
        intro hmem
        obtain ⟨g, hg, hlast⟩ := ih hmem
        exact ⟨g, by simp [hg], hlast⟩
      rcases alertFire_cases (firedAlerts fires) f with
        ⟨before, b, after, hsplit, -, -, hfire⟩ | ⟨-, -, -, hfire⟩ |
        ⟨-, -, before, oldest, after, holdest, -, hfire⟩
      · rw [hfire, List.mem_append, List.mem_cons] at ha
        rcases ha with ha | rfl | ha
        · exact hold (hsplit ▸ by simp [ha])
        · exact ⟨f, by simp, rfl⟩
        · exact hold (hsplit ▸ by simp [ha])
      · rw [hfire, List.mem_append, List.mem_singleton] at ha
        rcases ha with ha | rfl
        · exact hold ha
        · exact ⟨f, by simp, rfl⟩
      · rw [hfire, List.mem_append, List.mem_append, List.mem_singleton] at ha
        rcases ha with (ha | ha) | rfl
        · exact hold (holdest.split ▸ by simp [ha])
        · exact hold (holdest.split ▸ by simp [ha])
        · exact ⟨f, by simp, rfl⟩

theorem lastTsMs_le_of_mem_firedAlerts {t : UInt64} (ht : NotBefore fires t) :
    ∀ b ∈ firedAlerts fires, b.lastTsMs ≤ t := by
  intro b hb
  obtain ⟨g, hg, hlast⟩ := exists_of_mem_firedAlerts hb
  rw [← hlast]
  exact ht g hg

theorem evictedAlerts_concat (fires : List Fire) (f : Fire) :
    evictedAlerts (fires ++ [f]) =
      evictedAlerts fires ++ (evictedBy (firedAlerts fires) f).toList := by
  rw [evictedAlerts, runTrace_concat, ← evictedAlerts, ← firedAlerts]

/-- A run with room at every eviction removes no record that is live later on. -/
theorem not_live_of_mem_evictedAlerts
    (hsorted : fires.Pairwise fun f g => f.timestamp ≤ g.timestamp)
    (hroom : Guarded (fun alerts f => (alertFire alerts f).1) MakesRoom [] fires) {t : UInt64}
    (ht : NotBefore fires t) (ha : a ∈ evictedAlerts fires) : ¬a.Live t := by
  induction fires using List.reverseRecOn generalizing t with
  | nil => cases ha
  | append_singleton fires f ih =>
      obtain ⟨hsorted, -, hlater⟩ := List.pairwise_append.mp hsorted
      obtain ⟨hguarded, hroom, -⟩ := guarded_append.mp hroom
      obtain ⟨ht, hft⟩ := ht.of_concat
      have hnow : NotBefore fires f.timestamp := fun g hg => hlater g hg f (by simp)
      rw [evictedAlerts_concat, List.mem_append, Option.mem_toList] at ha
      rcases ha with ha | ha
      · exact ih hsorted hguarded ht ha
      · have hlast := lastTsMs_le_of_mem_firedAlerts hnow
        obtain ⟨-, before, after, holdest, -⟩ := evictedBy_eq_some ha
        have hmem : a ∈ firedAlerts fires := holdest.split ▸ by simp
        exact fun hlive => hroom.not_live hlast ha (hlive.earlier (hlast a hmem) hft)

/-- In every run the record removed has the earliest last occurrence, and it has run out
of its cooldown if one with a cooldown at least as long has. With room at every eviction
each alert that is live is listed. -/
theorem alertEviction_run {fires : List Fire}
    (hsorted : fires.Pairwise fun f g => f.timestamp ≤ g.timestamp) :
    (∀ before f after a, fires = before ++ f :: after →
        evictedBy (firedAlerts before) f = some a →
        (∀ b ∈ firedAlerts before, a.lastTsMs ≤ b.lastTsMs) ∧
          (HasLongExpired (firedAlerts before) f.timestamp a → ¬a.Live f.timestamp)) ∧
      (Guarded (fun alerts f => (alertFire alerts f).1) MakesRoom [] fires →
        ∀ t, NotBefore fires t → ∀ a ∈ firedAlerts fires ++ evictedAlerts fires,
          a.Live t → a ∈ alertGetActive (firedAlerts fires) alertMaxActive t) := by
  constructor
  · rintro before f after a rfl ha
    have hnow : NotBefore before f.timestamp := fun g hg =>
      (List.pairwise_append.mp hsorted).2.2 g hg f (by simp)
    obtain ⟨-, _, _, holdest, -⟩ := evictedBy_eq_some ha
    exact ⟨holdest.le, holdest.not_live (lastTsMs_le_of_mem_firedAlerts hnow)⟩
  · intro hroom t ht a ha hlive
    rcases List.mem_append.mp ha with ha | ha
    · exact mem_alertGetActive_firedAlerts ha hlive
    · exact absurd hlive (not_live_of_mem_evictedAlerts hsorted hroom ht ha)

theorem makesRoom_of_length_lt (hlen : alerts.length < alertMaxActive) :
    MakesRoom alerts f :=
  fun _ ha => absurd hlen (Nat.not_lt.mpr (evictedBy_eq_some ha).1)

theorem length_firedAlerts_le_length (fires : List Fire) :
    (firedAlerts fires).length ≤ fires.length := by
  induction fires using List.reverseRecOn with
  | nil => exact Nat.le_refl 0
  | append_singleton fires f ih =>
      rw [firedAlerts_concat, List.length_append, List.length_singleton]
      rcases alertFire_cases (firedAlerts fires) f with
        ⟨before, b, after, hsplit, -, -, hfire⟩ | ⟨-, -, -, hfire⟩ |
        ⟨-, -, before, oldest, after, holdest, -, hfire⟩
      · rw [hsplit] at ih
        rw [hfire]
        simp only [List.length_append, List.length_cons] at ih ⊢
        omega
      · rw [hfire, List.length_append, List.length_singleton]
        omega
      · rw [holdest.split] at ih
        rw [hfire]
        simp only [List.length_append, List.length_cons, List.length_nil] at ih ⊢
        omega

theorem guarded_makesRoom (hlen : fires.length ≤ alertMaxActive)
    (hroom : MakesRoom (firedAlerts fires) f) :
    Guarded (fun alerts f => (alertFire alerts f).1) MakesRoom [] (fires ++ [f]) := by
  refine guarded_append.mpr ⟨guarded_iff_forall_split.mpr ?_, hroom, trivial⟩
  rintro before g after rfl
  refine makesRoom_of_length_lt ((length_firedAlerts_le_length before).trans_lt ?_)
  simp only [List.length_append, List.length_cons] at hlen
  omega

/-- The table fills with one fire at time 0 and critical ones at time 1. -/
def mixedFires (severity : AlertSeverity) : List Fire :=
  numberedFire severity 0 0 :: (List.range 999).map fun i => numberedFire .crit 1 (i + 1)

/-- A new pair fires when the critical records have run out of their cooldown. -/
def lateFire : Fire := numberedFire .crit 40000 1000

section Mixed

variable (severity : AlertSeverity)

theorem exists_of_mem_mixedFires {severity : AlertSeverity} (hf : f ∈ mixedFires severity) :
    ∃ severity' timestamp, ∃ i < 1000, f = numberedFire severity' timestamp i ∧
      timestamp ≤ 1 := by
  rw [mixedFires, List.mem_cons, List.mem_map] at hf
  rcases hf with rfl | ⟨i, hi, rfl⟩
  · exact ⟨severity, 0, 0, by decide, rfl, by decide⟩
  · exact ⟨.crit, 1, i + 1, Nat.succ_lt_succ (List.mem_range.mp hi), rfl, by decide⟩

theorem firedAlerts_mixedFires :
    firedAlerts (mixedFires severity) = (mixedFires severity).map Fire.record := by
  refine firedAlerts_eq_map (fun f hf => ?_) ?_ (by simp [mixedFires, alertMaxActive])
  · obtain ⟨_, _, i, hi, rfl, -⟩ := exists_of_mem_mixedFires hf
    exact fits_numberedFire (by omega)
  · refine List.pairwise_cons.mpr ⟨fun g hg hkey => ?_, List.pairwise_map.mpr ?_⟩
    · obtain ⟨i, hi, rfl⟩ := List.mem_map.mp hg
      have hi := List.mem_range.mp hi
      exact absurd (key_numberedFire_inj (by omega) (by omega) hkey) (by omega)
    · refine List.nodup_range.imp_of_mem fun {i j} hi hj hne hkey => hne ?_
      have hi := List.mem_range.mp hi
      have hj := List.mem_range.mp hj
      exact Nat.succ.inj (key_numberedFire_inj (by omega) (by omega) hkey)

theorem evictedBy_lateFire :
    evictedBy (firedAlerts (mixedFires severity)) lateFire =
        some (numberedFire severity 0 0).record ∧
      firedAlerts (mixedFires severity ++ [lateFire]) =
        ((List.range 999).map fun i => (numberedFire .crit 1 (i + 1)).record) ++
          [lateFire.record] := by
  have hnew : ∀ a ∈ firedAlerts (mixedFires severity), a.key ≠ lateFire.key := by
    intro a ha hkey
    rw [firedAlerts_mixedFires] at ha
    obtain ⟨f, hf, rfl⟩ := List.mem_map.mp ha
    obtain ⟨_, _, i, hi, rfl, -⟩ := exists_of_mem_mixedFires hf
    rw [Fire.key_record (fits_numberedFire (by omega))] at hkey
    exact absurd (key_numberedFire_inj (by omega) (by decide) hkey) (by omega)
  have hold : ∀ a ∈ (List.range 999).map fun i => (numberedFire .crit 1 (i + 1)).record,
      (numberedFire severity 0 0).record.lastTsMs ≤ a.lastTsMs := by
    intro a ha
    obtain ⟨i, -, rfl⟩ := List.mem_map.mp ha
    exact (by decide : (0 : UInt64) ≤ 1)
  have htable : firedAlerts (mixedFires severity) = (numberedFire severity 0 0).record ::
      (List.range 999).map fun i => (numberedFire .crit 1 (i + 1)).record := by
    rw [firedAlerts_mixedFires, mixedFires, List.map_cons, List.map_map]
    rfl
  rw [firedAlerts_concat]
  rw [htable] at hnew ⊢
  exact alertFire_evict_head (by simp [alertMaxActive]) hnew hold

theorem sorted_mixedFires :
    (mixedFires severity ++ [lateFire]).Pairwise fun f g => f.timestamp ≤ g.timestamp := by
  refine List.pairwise_append.mpr ⟨?_, List.pairwise_singleton _ _, fun f hf g hg => ?_⟩
  · refine List.pairwise_cons.mpr ⟨fun g hg => ?_,
      List.pairwise_of_forall_mem_list fun f hf g hg => ?_⟩
    · obtain ⟨i, -, rfl⟩ := List.mem_map.mp hg
      exact (by decide : (0 : UInt64) ≤ 1)
    · obtain ⟨i, -, rfl⟩ := List.mem_map.mp hf
      obtain ⟨j, -, rfl⟩ := List.mem_map.mp hg
      exact UInt64.le_refl 1
  · obtain ⟨_, t, _, -, rfl, ht⟩ := exists_of_mem_mixedFires hf
    obtain rfl := List.mem_singleton.mp hg
    exact UInt64.le_trans ht (by decide : (1 : UInt64) ≤ 40000)

theorem hasExpired_lateFire :
    (numberedFire .crit 1 1).record ∈ firedAlerts (mixedFires severity) ∧
      ¬(numberedFire .crit 1 1).record.Live lateFire.timestamp := by
  refine ⟨?_, by decide⟩
  rw [firedAlerts_mixedFires, mixedFires, List.map_cons, List.map_map]
  exact List.mem_cons_of_mem _ (List.mem_map.mpr ⟨0, by simp, rfl⟩)

end Mixed

theorem not_live_mixedFires_crit :
    ∀ b ∈ firedAlerts (mixedFires .crit), ¬b.Live lateFire.timestamp := by
  intro b hb
  rw [firedAlerts_mixedFires, mixedFires, List.map_cons, List.map_map, List.mem_cons] at hb
  rcases hb with rfl | hb
  · decide
  · obtain ⟨i, -, rfl⟩ := List.mem_map.mp hb
    simp [AlertRecord.Live, numberedFire, lateFire, getCooldownMs]

theorem makesRoom_mixedFires_crit : MakesRoom (firedAlerts (mixedFires .crit)) lateFire := by
  intro a ha
  have hnone : (firedAlerts (mixedFires .crit)).filter
      (fun b => b.Live lateFire.timestamp) = [] :=
    List.filter_eq_nil_iff.mpr fun b hb => by simpa using not_live_mixedFires_crit b hb
  obtain rfl := Option.some.inj ((evictedBy_lateFire .crit).1.symm.trans ha)
  obtain ⟨hmem, hdead⟩ := hasExpired_lateFire .crit
  exact ⟨by rw [hnone]; decide, fun _ => ⟨_, hmem, hdead, Nat.le_refl _⟩⟩

/-- Among critical records the one that leaves has run out of its cooldown, and the new
alert is listed. -/
theorem alertEviction_run_crit :
    evictedBy (firedAlerts (mixedFires .crit)) lateFire = some (numberedFire .crit 0 0).record ∧
      ¬(numberedFire .crit 0 0).record.Live lateFire.timestamp ∧
      lateFire.record ∈ alertGetActive (firedAlerts (mixedFires .crit ++ [lateFire]))
        alertMaxActive lateFire.timestamp := by
  obtain ⟨hevicted, hfire⟩ := evictedBy_lateFire .crit
  obtain ⟨hmem, hdead⟩ := hasExpired_lateFire .crit
  obtain ⟨holdest, hlisted⟩ := alertEviction_run (sorted_mixedFires .crit)
  refine ⟨hevicted, (holdest _ lateFire [] _ rfl hevicted).2
    ⟨_, hmem, hdead, Nat.le_refl _⟩, ?_⟩
  have hguard := guarded_makesRoom (by simp [mixedFires, alertMaxActive])
    makesRoom_mixedFires_crit
  refine hlisted hguard _ ?_ _ ?_ (by decide)
  · intro g hg
    rcases List.mem_append.mp hg with hg | hg
    · exact (List.pairwise_append.mp (sorted_mixedFires .crit)).2.2 g hg _
        (List.mem_singleton_self _)
    · exact (List.mem_singleton.mp hg) ▸ UInt64.le_refl _
  · rw [hfire]
    simp

/-- An information alert within its cooldown leaves the full table, in which all other
records have run out of theirs, and is not listed beside the new alert. -/
theorem evicts_live_alert :
    (mixedFires .info ++ [lateFire]).Pairwise (fun f g => f.timestamp ≤ g.timestamp) ∧
      evictedBy (firedAlerts (mixedFires .info)) lateFire =
        some (numberedFire .info 0 0).record ∧
      HasExpired (firedAlerts (mixedFires .info)) lateFire.timestamp ∧
      (numberedFire .info 0 0).record.Live lateFire.timestamp ∧
      alertGetActive (firedAlerts (mixedFires .info ++ [lateFire])) alertMaxActive
        lateFire.timestamp = [lateFire.record] := by
  obtain ⟨hevicted, hfire⟩ := evictedBy_lateFire .info
  refine ⟨sorted_mixedFires .info, hevicted, ⟨_, hasExpired_lateFire .info⟩, by decide, ?_⟩
  have hnone : ((List.range 999).map fun i => (numberedFire .crit 1 (i + 1)).record).filter
      (fun b => b.Live lateFire.timestamp) = [] := by
    refine List.filter_eq_nil_iff.mpr fun b hb => ?_
    obtain ⟨i, -, rfl⟩ := List.mem_map.mp hb
    simp [AlertRecord.Live, numberedFire, lateFire, getCooldownMs]
  rw [alertGetActive_eq, hfire, List.filter_append, hnone]
  decide

end Monitoring

end Shinigami
