import Mathlib.Data.List.Chain
import Mathlib.Data.List.Induction
import Shinigami.Monitoring.Alerts.AlertEngine

/-!
# Deduplication of alerts

A record counts the fires of its pair as long as they stay within the cooldown, and
records of the pair that ran out of it remain in the table. `Dedup` says that no two
records of a pair are live together, and that a live record tracks its pair: it has
counted every fire since the one that it was made from. `Dedup.fire` is the step, and
the order of the table plays no part in it.
-/

namespace Shinigami

namespace Monitoring

def firesOf (key : List UInt8 × List UInt8) (fires : List Fire) : List Fire :=
  fires.filter fun f => f.key = key

/-- The record stands for the fires `own`. -/
structure AlertRecord.Counts (own : List Fire) (a : AlertRecord) : Prop where
  first : own.head?.map Fire.timestamp = some a.firstTsMs
  last : own.getLast?.map Fire.timestamp = some a.lastTsMs
  occurrences : a.occurrences = UInt32.ofNat own.length
  close : own.IsChain fun f g => (g.timestamp - f.timestamp).toNat < getCooldownMs a.severity

/-- The record counts all fires of its pair from the one that it was made from. -/
def AlertRecord.Tracks (fires : List Fire) (a : AlertRecord) : Prop :=
  ∃ before created after, fires = before ++ created :: after ∧ created.key = a.key ∧
    a.Counts (firesOf a.key (created :: after))

/-- Not two live records of one pair. -/
def Apart (timestamp : UInt64) (a b : AlertRecord) : Prop :=
  a.Live timestamp → b.Live timestamp → a.key ≠ b.key

structure Dedup (fires : List Fire) (alerts : List AlertRecord) : Prop where
  dated : ∀ a ∈ alerts, ∃ f ∈ fires,
    f.key = a.key ∧ f.severity = a.severity ∧ f.timestamp = a.lastTsMs
  apart : ∀ t, NotBefore fires t → alerts.Pairwise (Apart t)
  tracks : ∀ t, NotBefore fires t → ∀ a ∈ alerts, a.Live t → a.Tracks fires

/-- The fires come in the order of time, fit the fields of a record, and those of a pair
have the same severity. -/
structure Steady (fires : List Fire) : Prop where
  sorted : fires.Pairwise fun f g => f.timestamp ≤ g.timestamp
  fits : ∀ f ∈ fires, f.Fits
  severity : ∀ f ∈ fires, ∀ g ∈ fires, f.key = g.key → f.severity = g.severity

theorem Apart.symm {t : UInt64} {a b : AlertRecord} (h : Apart t a b) : Apart t b a :=
  fun hb ha heq => h ha hb heq.symm

theorem Steady.of_concat {fires : List Fire} {f : Fire} (h : Steady (fires ++ [f])) :
    Steady fires ∧ NotBefore fires f.timestamp ∧ f.Fits ∧
      ∀ g ∈ fires, g.key = f.key → g.severity = f.severity := by
  have hpair := List.pairwise_append.mp h.sorted
  refine ⟨⟨hpair.1, fun g hg => h.fits g (by simp [hg]), fun g hg g' hg' => ?_⟩,
    fun g hg => hpair.2.2 g hg f (by simp), h.fits f (by simp), fun g hg => ?_⟩
  · exact h.severity g (by simp [hg]) g' (by simp [hg'])
  · exact h.severity g (by simp [hg]) f (by simp)

theorem firesOf_concat (key : List UInt8 × List UInt8) (fires : List Fire) (f : Fire) :
    firesOf key (fires ++ [f]) =
      if f.key = key then firesOf key fires ++ [f] else firesOf key fires := by
  unfold firesOf
  by_cases h : f.key = key <;> simp [List.filter_append, h]

theorem AlertRecord.Counts.again {own : List Fire} {a : AlertRecord} {f : Fire}
    (h : a.Counts own)
    (hclose : (f.timestamp - a.lastTsMs).toNat < getCooldownMs a.severity) :
    (a.again f.timestamp).Counts (own ++ [f]) := by
  refine ⟨?_, by simp [AlertRecord.again], ?_, ?_⟩
  · obtain ⟨first, hfirst, hts⟩ := Option.map_eq_some_iff.mp h.first
    rw [List.head?_append, hfirst]
    exact congrArg some hts
  · simp [AlertRecord.again, h.occurrences]
  · refine List.isChain_append.mpr ⟨h.close, List.isChain_singleton f, ?_⟩
    intro g hg g' hg'
    have hlast : g.timestamp = a.lastTsMs := by
      simpa [Option.mem_def.mp hg] using h.last
    obtain rfl : f = g' := by simpa using hg'
    rw [hlast]
    exact hclose

variable {fires : List Fire} {f : Fire} {a : AlertRecord}

theorem AlertRecord.Tracks.other (h : a.Tracks fires) (hne : f.key ≠ a.key) :
    a.Tracks (fires ++ [f]) := by
  obtain ⟨before, created, after, rfl, hkey, hcounts⟩ := h
  refine ⟨before, created, after ++ [f], by simp, hkey, ?_⟩
  rw [← List.cons_append, firesOf_concat, if_neg hne]
  exact hcounts

theorem AlertRecord.Tracks.again (h : a.Tracks fires) (hkey : f.key = a.key)
    (hclose : (f.timestamp - a.lastTsMs).toNat < getCooldownMs a.severity) :
    (a.again f.timestamp).Tracks (fires ++ [f]) := by
  obtain ⟨before, created, after, rfl, hcreated, hcounts⟩ := h
  refine ⟨before, created, after ++ [f], by simp, hcreated, ?_⟩
  rw [← List.cons_append, firesOf_concat, AlertRecord.key_again, if_pos hkey]
  exact hcounts.again hclose

theorem Fire.tracks_record (fires : List Fire) (h : f.Fits) :
    f.record.Tracks (fires ++ [f]) := by
  refine ⟨fires, f, [], rfl, (Fire.key_record h).symm, ?_⟩
  have hown : firesOf f.record.key [f] = [f] := by simp [firesOf, Fire.key_record h]
  rw [hown]
  exact ⟨rfl, rfl, rfl, List.isChain_singleton f⟩

variable {alerts alerts' rest : List AlertRecord}

theorem Dedup.perm (h : Dedup fires alerts) (hperm : alerts.Perm alerts') :
    Dedup fires alerts' where
  dated b hb := h.dated b (hperm.mem_iff.mpr hb)
  apart t ht := (hperm.pairwise_iff Apart.symm).mp (h.apart t ht)
  tracks t ht b hb := h.tracks t ht b (hperm.mem_iff.mpr hb)

theorem Dedup.tail (h : Dedup fires (a :: rest)) : Dedup fires rest where
  dated b hb := h.dated b (by simp [hb])
  apart t ht := (List.pairwise_cons.mp (h.apart t ht)).2
  tracks t ht b hb := h.tracks t ht b (by simp [hb])

theorem Dedup.last_le (h : Dedup fires alerts) {b : AlertRecord} (hb : b ∈ alerts)
    {t : UInt64} (ht : NotBefore fires t) : b.lastTsMs ≤ t := by
  obtain ⟨g, hg, -, -, hlast⟩ := h.dated b hb
  rw [← hlast]
  exact ht g hg

/-- The record `a` of the last fire joins a table in which no other record of the pair
is live. -/
theorem Dedup.join (h : Dedup fires rest) (hnow : NotBefore fires f.timestamp)
    (hfree : ∀ b ∈ rest, b.Live f.timestamp → b.key ≠ f.key) (hkey : a.key = f.key)
    (hseverity : a.severity = f.severity) (hlast : a.lastTsMs = f.timestamp)
    (htracks : a.Tracks (fires ++ [f])) : Dedup (fires ++ [f]) (a :: rest) where
  dated b hb := by
    rcases List.mem_cons.mp hb with rfl | hb
    · exact ⟨f, by simp, hkey.symm, hseverity.symm, hlast.symm⟩
    · obtain ⟨g, hg, hdated⟩ := h.dated b hb
      exact ⟨g, by simp [hg], hdated⟩
  apart t ht := by
    obtain ⟨ht, hft⟩ := ht.of_concat
    refine List.pairwise_cons.mpr ⟨fun b hb _ hlive => ?_, h.apart t ht⟩
    rw [hkey]
    exact (hfree b hb (hlive.earlier (h.last_le hb hnow) hft)).symm
  tracks t ht b hb hlive := by
    obtain ⟨ht, hft⟩ := ht.of_concat
    rcases List.mem_cons.mp hb with rfl | hb
    · exact htracks
    · have hother := hfree b hb (hlive.earlier (h.last_le hb hnow) hft)
      exact (h.tracks t ht b hb hlive).other (Ne.symm hother)

theorem Dedup.matchesRecord_iff (h : Dedup fires alerts)
    (hseverity : ∀ g ∈ fires, g.key = f.key → g.severity = f.severity) {b : AlertRecord}
    (hb : b ∈ alerts) :
    f.matchesRecord b = true ↔ b.key = f.key ∧ b.Live f.timestamp := by
  rw [Fire.matchesRecord_iff]
  refine and_congr_right fun hkey => ?_
  obtain ⟨g, hg, hgkey, hgsev, -⟩ := h.dated b hb
  have hsev : b.severity = f.severity := hgsev ▸ hseverity g hg (hgkey.trans hkey)
  rw [AlertRecord.Live, hsev]

theorem Dedup.fire (h : Dedup fires alerts) (hnow : NotBefore fires f.timestamp)
    (hfits : f.Fits) (hseverity : ∀ g ∈ fires, g.key = f.key → g.severity = f.severity) :
    Dedup (fires ++ [f]) (alertFire alerts f).1 := by
  rcases alertFire_cases alerts f with ⟨before, b, after, rfl, hmatch, -, hfire⟩ |
    ⟨hnone, -, -, hfire⟩ | ⟨hnone, -, before, oldest, after, holdest, -, hfire⟩
  · -- the record `b` counts the fire, and the records beside it were not live with it
    obtain ⟨hkey, hlive⟩ := (h.matchesRecord_iff hseverity (by simp)).mp hmatch
    have htracks := h.tracks _ hnow b (by simp) hlive
    obtain ⟨g, hg, hgkey, hgsev, -⟩ := h.dated b (by simp)
    have hsev : b.severity = f.severity := hgsev ▸ hseverity g hg (hgkey.trans hkey)
    have hperm := h.perm List.perm_middle
    have hapart := (List.pairwise_cons.mp (hperm.apart _ hnow)).1
    rw [hfire]
    refine Dedup.perm ?_ List.perm_middle.symm
    refine hperm.tail.join hnow (fun c hc hclive => ?_) hkey hsev rfl
      (htracks.again hkey.symm hlive)
    rw [← hkey]
    exact (hapart c hc hlive hclive).symm
  · have hfree : ∀ b ∈ alerts, b.Live f.timestamp → b.key ≠ f.key :=
      fun b hb hlive hkey => hnone b hb ((h.matchesRecord_iff hseverity hb).mpr ⟨hkey, hlive⟩)
    rw [hfire]
    exact (h.join hnow hfree (Fire.key_record hfits) rfl rfl
      (Fire.tracks_record fires hfits)).perm (List.perm_append_singleton _ _).symm
  · obtain ⟨rfl, -, -⟩ := holdest
    have hfree : ∀ b ∈ before ++ after, b.Live f.timestamp → b.key ≠ f.key := by
      intro b hb hlive hkey
      have hb : b ∈ before ++ oldest :: after := List.perm_middle.mem_iff.mpr (by simp_all)
      exact hnone b hb ((h.matchesRecord_iff hseverity hb).mpr ⟨hkey, hlive⟩)
    have hperm := h.perm List.perm_middle
    rw [hfire]
    exact (hperm.tail.join hnow hfree (Fire.key_record hfits) rfl rfl
      (Fire.tracks_record fires hfits)).perm (List.perm_append_singleton _ _).symm

theorem dedup_firedAlerts (h : Steady fires) : Dedup fires (firedAlerts fires) := by
  induction fires using List.reverseRecOn with
  | nil => exact ⟨nofun, fun _ _ => .nil, nofun⟩
  | append_singleton fires f ih =>
      obtain ⟨hsteady, hnow, hfits, hseverity⟩ := h.of_concat
      rw [firedAlerts_concat]
      exact (ih hsteady).fire hnow hfits hseverity

theorem Dedup.nodup_alertGetActive (h : Dedup fires alerts) (max : ℕ) {t : UInt64}
    (ht : NotBefore fires t) :
    ((alertGetActive alerts max t).map AlertRecord.key).Nodup := by
  have hlive : (alerts.filter fun b => b.Live t).Pairwise fun b c => b.key ≠ c.key := by
    refine ((h.apart t ht).filter _).imp_of_mem fun {b c} hb hc hapart => ?_
    exact hapart (by simpa using (List.mem_filter.mp hb).2)
      (by simpa using (List.mem_filter.mp hc).2)
  rw [alertGetActive_eq]
  exact List.pairwise_map.mpr (hlive.sublist (List.take_sublist _ _))

/-- After every steady run of fires a pair is listed once at most, by a record that has
counted all its fires from the one that made the record. -/
theorem alertGetActive_dedup {fires : List Fire} (h : Steady fires) (max : ℕ) {t : UInt64}
    (ht : NotBefore fires t) :
    (firedAlerts fires).length ≤ alertMaxActive ∧
      ((alertGetActive (firedAlerts fires) max t).map AlertRecord.key).Nodup ∧
      ∀ a ∈ alertGetActive (firedAlerts fires) max t, a.Tracks fires := by
  have hdedup := dedup_firedAlerts h
  refine ⟨length_firedAlerts_le fires, hdedup.nodup_alertGetActive max ht, fun a ha => ?_⟩
  obtain ⟨hmem, hlive⟩ := mem_alertGetActive ha
  exact hdedup.tracks t ht a hmem hlive

/-- A pair that fires twice has one record with two occurrences. -/
theorem alertGetActive_dedup_two :
    let fires := [numberedFire .warn 0 0, numberedFire .warn 10 0]
    (alertGetActive (firedAlerts fires) alertMaxActive 20).map AlertRecord.occurrences = [2] ∧
      (firedAlerts fires).length ≤ alertMaxActive ∧
      ((alertGetActive (firedAlerts fires) alertMaxActive 20).map AlertRecord.key).Nodup ∧
      ∀ a ∈ alertGetActive (firedAlerts fires) alertMaxActive 20, a.Tracks fires := by
  intro fires
  have hfits : ∀ f ∈ fires, f.Fits := by
    intro f hf
    simp only [fires, List.mem_cons, List.not_mem_nil, or_false] at hf
    rcases hf with rfl | rfl
    · exact fits_numberedFire (by decide)
    · exact fits_numberedFire (by decide)
  have hsteady : Steady fires := ⟨by decide, hfits, by decide⟩
  have hbefore : ∀ f ∈ fires, f.timestamp ≤ 20 := by decide
  exact ⟨by decide, alertGetActive_dedup hsteady alertMaxActive hbefore⟩

/-- The record counts the fires of its pair that are not before its first one. -/
def AlertRecord.CountsFrom (fires : List Fire) (a : AlertRecord) : Prop :=
  a.occurrences.toNat = ((firesOf a.key fires).filter fun f => a.firstTsMs ≤ f.timestamp).length

/-- A pair fires again after a thousand others, all at time zero. -/
def evictedFires : List Fire :=
  (List.range 1001).map (numberedFire .warn 0) ++ [numberedFire .warn 0 0]

theorem steady_of_numbered (h : ∀ f ∈ fires, ∃ i < 60000, f = numberedFire .warn 0 i) :
    Steady fires ∧ NotBefore fires 0 := by
  have htime : ∀ f ∈ fires, f.timestamp = 0 := by
    intro f hf
    obtain ⟨i, -, rfl⟩ := h f hf
    rfl
  have hsev : ∀ f ∈ fires, f.severity = .warn := by
    intro f hf
    obtain ⟨i, -, rfl⟩ := h f hf
    rfl
  refine ⟨⟨List.pairwise_of_forall_mem_list fun f hf g hg => ?_, fun f hf => ?_,
    fun f hf g hg _ => (hsev f hf).trans (hsev g hg).symm⟩, fun f hf => ?_⟩
  · rw [htime f hf, htime g hg]
    exact UInt64.le_refl 0
  · obtain ⟨i, hi, rfl⟩ := h f hf
    exact fits_numberedFire hi
  · rw [htime f hf]
    exact UInt64.le_refl 0

theorem steady_evictedFires : Steady evictedFires ∧ NotBefore evictedFires 0 := by
  refine steady_of_numbered fun f hf => ?_
  rw [evictedFires, List.mem_append, List.mem_map, List.mem_singleton] at hf
  rcases hf with ⟨i, hi, rfl⟩ | rfl
  · exact ⟨i, Nat.lt_trans (List.mem_range.mp hi) (by decide), rfl⟩
  · exact ⟨0, by decide, rfl⟩

theorem key_ne_of_mem_firedAlerts
    (ha : a ∈ firedAlerts ((List.range 1001).map (numberedFire .warn 0))) :
    a.key ≠ (numberedFire .warn 0 0).key := by
  have hfull : firedAlerts ((List.range 1000).map (numberedFire .warn 0)) =
      (numberedFire .warn 0 0).record ::
        (List.range 999).map fun i => (numberedFire .warn 0 (i + 1)).record := by
    rw [firedAlerts_eq_map _ (pairwise_key_numbered (by decide)) (by simp [alertMaxActive]),
      List.range_succ_eq_map]
    · simp [Function.comp_def]
    · intro f hf
      obtain ⟨i, hi, rfl⟩ := List.mem_map.mp hf
      exact fits_numberedFire (Nat.lt_trans (List.mem_range.mp hi) (by decide))
  have hnumbered : ∀ i < 1001, ∀ j < 1001, i ≠ j →
      (numberedFire .warn 0 i).record.key ≠ (numberedFire .warn 0 j).key := by
    intro i hi j hj hne hkey
    rw [Fire.key_record (fits_numberedFire (by omega))] at hkey
    exact hne (key_numberedFire_inj (by omega) (by omega) hkey)
  rw [List.range_succ, List.map_append, List.map_singleton, firedAlerts_concat, hfull,
    (alertFire_evict_head ?_ ?_ ?_).2] at ha
  · rw [List.mem_append, List.mem_map, List.mem_singleton] at ha
    rcases ha with ⟨i, hi, rfl⟩ | rfl
    · have hi := List.mem_range.mp hi
      exact hnumbered (i + 1) (by omega) 0 (by decide) (by omega)
    · exact hnumbered 1000 (by decide) 0 (by decide) (by decide)
  · simp [alertMaxActive]
  · intro b hb
    rw [List.mem_cons, List.mem_map] at hb
    rcases hb with rfl | ⟨i, hi, rfl⟩
    · exact hnumbered 0 (by decide) 1000 (by decide) (by decide)
    · have hi := List.mem_range.mp hi
      exact hnumbered (i + 1) (by omega) 1000 (by decide) (by omega)
  · intro b hb
    obtain ⟨i, -, rfl⟩ := List.mem_map.mp hb
    exact UInt64.le_refl 0

theorem mem_alertFire_of_new (f : Fire) (h : ∀ a ∈ alerts, a.key ≠ f.key) :
    f.record ∈ (alertFire alerts f).1 := by
  rcases alertFire_cases alerts f with ⟨before, a, after, rfl, hmatch, -⟩ |
    ⟨-, -, -, hfire⟩ | ⟨-, -, before, oldest, after, -, -, hfire⟩
  · exact absurd hmatch (Fire.not_matchesRecord_of_key_ne (h a (by simp)))
  · simp [hfire]
  · simp [hfire]

theorem firedAlerts_replicate (h : f.Fits) {n : ℕ} (hn : 1 ≤ n) :
    firedAlerts (List.replicate n f) = [{ f.record with occurrences := UInt32.ofNat n }] := by
  induction n, hn using Nat.le_induction with
  | base => rfl
  | succ n hn ih =>
      let a : AlertRecord := { f.record with occurrences := UInt32.ofNat n }
      have hcooldown : 0 < getCooldownMs f.severity := by cases f.severity <;> decide
      have hmatch : f.matchesRecord a = true :=
        Fire.matchesRecord_iff.mpr ⟨Fire.key_record h, by simpa [a] using hcooldown⟩
      have hfire : (alertFire [a] f).1 = [a.again f.timestamp] := by
        rw [alertFire, List.findIdx?_cons, if_pos hmatch]
        rfl
      rw [List.replicate_succ', firedAlerts_concat, ih]
      apply hfire.trans
      simp [a, AlertRecord.again, Fire.record]

/-- A pair fires until its counter wraps around, all at time zero. -/
def wrappedFires : List Fire := List.replicate UInt32.size (numberedFire .warn 0 0)

theorem exists_evicted_not_countsFrom :
    ∃ a ∈ alertGetActive (firedAlerts evictedFires) alertMaxActive 0,
      ¬a.CountsFrom evictedFires := by
  let f := numberedFire .warn 0 0
  have hfits : f.Fits := fits_numberedFire (by decide)
  refine ⟨f.record, ?_, fun hcounts => ?_⟩
  · have hmem : f.record ∈ firedAlerts evictedFires := by
      rw [evictedFires, firedAlerts_concat]
      exact mem_alertFire_of_new f fun a ha => key_ne_of_mem_firedAlerts ha
    exact mem_alertGetActive_firedAlerts hmem (by decide)
  · have htwo : ([f] ++ [f]).Sublist evictedFires := by
      refine .append (List.singleton_sublist.mpr ?_) (.refl [f])
      exact List.mem_map.mpr ⟨0, by simp, rfl⟩
    have hle : 2 ≤ 1 := calc
      2 = ((firesOf f.record.key ([f] ++ [f])).filter
            fun g => f.record.firstTsMs ≤ g.timestamp).length := by
          simp [firesOf, Fire.key_record hfits]
      _ ≤ _ := ((htwo.filter _).filter _).length_le
      _ = 1 := hcounts.symm
    exact absurd hle (by decide)

theorem firedAlerts_wrappedFires :
    firedAlerts wrappedFires =
      [{ (numberedFire .warn 0 0).record with occurrences := UInt32.ofNat UInt32.size }] :=
  firedAlerts_replicate (fits_numberedFire (by decide)) (by decide)

theorem exists_wrapped_not_countsFrom :
    ∃ a ∈ alertGetActive (firedAlerts wrappedFires) alertMaxActive 0,
      ¬a.CountsFrom wrappedFires := by
  let f := numberedFire .warn 0 0
  have hfits : f.Fits := fits_numberedFire (by decide)
  refine ⟨{ f.record with occurrences := UInt32.ofNat UInt32.size }, ?_, fun hcounts => ?_⟩
  · rw [firedAlerts_wrappedFires, alertGetActive_eq]
    decide
  · have hall : (firesOf f.record.key wrappedFires).filter
        (fun g => f.record.firstTsMs ≤ g.timestamp) = wrappedFires := by
      rw [firesOf, List.filter_filter, List.filter_eq_self]
      intro g hg
      obtain rfl : g = f := List.eq_of_mem_replicate hg
      simp [Fire.key_record hfits]
    have hlen : (UInt32.ofNat UInt32.size).toNat = wrappedFires.length :=
      hcounts.trans (congrArg List.length hall)
    rw [wrappedFires, List.length_replicate] at hlen
    exact absurd hlen (by decide)

theorem steady_wrappedFires : Steady wrappedFires ∧ NotBefore wrappedFires 0 :=
  steady_of_numbered fun _ hf => ⟨0, by decide, List.eq_of_mem_replicate hf⟩

/-- The count from the time of the first fire on fails for a pair whose record was evicted
at that time, and for a counter that wraps around. -/
theorem countsFrom_fails :
    (Steady evictedFires ∧ NotBefore evictedFires 0 ∧
      ∃ a ∈ alertGetActive (firedAlerts evictedFires) alertMaxActive 0,
        ¬a.CountsFrom evictedFires) ∧
      Steady wrappedFires ∧ NotBefore wrappedFires 0 ∧
      ∃ a ∈ alertGetActive (firedAlerts wrappedFires) alertMaxActive 0,
        ¬a.CountsFrom wrappedFires := by
  obtain ⟨hevicted, hevictedTime⟩ := steady_evictedFires
  obtain ⟨hwrapped, hwrappedTime⟩ := steady_wrappedFires
  exact ⟨⟨hevicted, hevictedTime, exists_evicted_not_countsFrom⟩, hwrapped, hwrappedTime,
    exists_wrapped_not_countsFrom⟩

end Monitoring

end Shinigami
