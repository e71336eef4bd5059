import Mathlib.Tactic.SplitIfs
import Shinigami.Monitoring.Collectors.CollectorThread

/-!
# Pairing of connect and disconnect

A collector that goes offline is disconnected by the error branch and once more in the
state `OFFLINE`, and the end of the thread disconnects it in any state. `Stage` follows
the calls of `disconnect` since the last connection through a run: one call stands behind
each connection exactly in the runs that never reach the error threshold.
-/

namespace Shinigami

namespace Monitoring

namespace CollectorThread

/-- The calls of `disconnect` since the collector connected last. -/
def disconnectsSince (actions : List Action) : ℕ := (sinceConnect actions).count .disconnect

/-- One call of `disconnect` stands between two connections, and one behind the last
connection when the thread has ended. -/
structure Paired (ended : Prop) (actions : List Action) : Prop where
  between : ∀ before after, actions = before ++ .connected :: after → .connected ∈ before →
    disconnectsSince before = 1
  atEnd : ended → .connected ∈ actions → disconnectsSince actions = 1

/-- Three calls of `tick` failed in a row. -/
def Trips (rcs : List Int32) : Prop := ∃ before after, rcs = before ++ after ∧ FailedThrice before

def Unpaired (actions : List Action) : Prop :=
  ∃ before after, actions = before ++ .connected :: after ∧ .connected ∈ before ∧
    disconnectsSince before ≠ 1

/-- How far a run has come: with the mode and the count of errors, what the actions are so
far. -/
inductive Stage : Mode → UInt32 → List Action → Prop
  | unconnected {actions : List Action} (hconnected : .connected ∉ actions)
      (hticks : ticks actions = []) : Stage .down 0 actions
  | connected {n : UInt32} {actions : List Action} (hconnected : actions.count .connected = 1)
      (hgone : disconnectsSince actions = 0) (hlt : n < 3)
      (hn : n.toNat = failuresAtEnd (ticks actions)) (hticks : ¬Trips (ticks actions)) :
      Stage .up n actions
  | dropped {n : UInt32} {actions : List Action} (hconnected : actions.count .connected = 1)
      (hgone : disconnectsSince actions = 1) (hticks : Trips (ticks actions)) :
      Stage .dropped n actions
  | released {n : UInt32} {actions : List Action} (hconnected : actions.count .connected = 1)
      (hgone : disconnectsSince actions = 2) (hticks : Trips (ticks actions)) :
      Stage .down n actions
  | unpaired {m : Mode} {n : UInt32} {actions : List Action} (hunpaired : Unpaired actions)
      (hticks : Trips (ticks actions)) : Stage m n actions
  | endedUnconnected {n : UInt32} {actions : List Action} (hconnected : .connected ∉ actions)
      (hticks : ticks actions = []) : Stage .ended n actions
  | endedOnce {n : UInt32} {actions : List Action} (hconnected : actions.count .connected = 1)
      (hgone : disconnectsSince actions = 1) (hticks : ¬Trips (ticks actions)) :
      Stage .ended n actions
  | endedAgain {n : UInt32} {actions : List Action} (hconnected : .connected ∈ actions)
      (hgone : disconnectsSince actions ≠ 1) (hticks : Trips (ticks actions)) :
      Stage .ended n actions

variable {stop : Bool} {new actions : List Action} {m m' : Mode} {n n' : UInt32}
  {rcs : List Int32}

theorem disconnectsSince_append (actions : List Action) {new : List Action}
    (h : Action.connected ∉ new) :
    disconnectsSince (actions ++ new) = disconnectsSince actions + new.count .disconnect := by
  rw [disconnectsSince, sinceConnect_append actions h, List.count_append, disconnectsSince]

theorem Trips.append (h : Trips rcs) (rcs' : List Int32) : Trips (rcs ++ rcs') := by
  obtain ⟨before, after, rfl, hfailed⟩ := h
  exact ⟨before, after ++ rcs', List.append_assoc .., hfailed⟩

theorem not_trips_nil : ¬Trips [] := by
  rintro ⟨before, after, hsplit, hfailed⟩
  obtain ⟨rfl, -⟩ := List.append_eq_nil_iff.mp hsplit.symm
  exact absurd hfailed (by decide)

/-- One more call reaches the threshold when the last three calls failed. -/
theorem trips_concat (h : ¬Trips rcs) (rc : Int32) :
    Trips (rcs ++ [rc]) ↔ FailedThrice (rcs ++ [rc]) := by
  constructor
  · rintro ⟨before, after, hsplit, hfailed⟩
    rcases List.eq_nil_or_concat after with rfl | ⟨after, last, rfl⟩
    · rwa [hsplit, List.append_nil]
    · -- the calls up to the last one are those of `rcs`
      rw [List.concat_eq_append, ← List.append_assoc] at hsplit
      obtain ⟨hrcs, -⟩ := List.append_inj' hsplit rfl
      exact absurd ⟨before, after, hrcs, hfailed⟩ h
  · exact fun hfailed => ⟨_, [], (List.append_nil _).symm, hfailed⟩

theorem Unpaired.append (h : Unpaired actions) (new : List Action) :
    Unpaired (actions ++ new) := by
  obtain ⟨before, after, rfl, hconnected, hgone⟩ := h
  exact ⟨before, after ++ new, by simp, hconnected, hgone⟩

theorem two_le_count_connected {before after : List Action} (h : .connected ∈ before) :
    2 ≤ (before ++ Action.connected :: after).count .connected := by
  have hbefore : 1 ≤ before.count .connected := List.one_le_count_iff.mpr h
  rw [List.count_append, List.count_cons_self]
  omega

theorem Stage.unpaired_append (hunpaired : Unpaired actions) (hticks : Trips (ticks actions))
    (new : List Action) : Stage m n (actions ++ new) :=
  .unpaired (hunpaired.append new) (by rw [ticks_append]; exact hticks.append _)

theorem Stage.connect (h : Stage .down n actions) : Stage .up n (actions ++ [.connected]) := by
  have hsince : disconnectsSince (actions ++ [.connected]) = 0 := by
    rw [disconnectsSince, sinceConnect_concat_connected]
    rfl
  cases h with
  | unconnected hconnected hticks =>
      have hnone : ticks (actions ++ [.connected]) = [] := by
        rw [ticks_append, hticks]
        rfl
      refine .connected ?_ hsince (by decide) ?_ ?_
      · rw [List.count_append, List.count_eq_zero.mpr hconnected]
        rfl
      · rw [hnone]
        rfl
      · rw [hnone]
        exact not_trips_nil
  | released hconnected hgone hticks =>
      have hmem : .connected ∈ actions := List.one_le_count_iff.mp (Nat.le_of_eq hconnected.symm)
      refine .unpaired ⟨actions, [], rfl, hmem, by omega⟩ ?_
      rw [ticks_append]
      exact hticks.append _
  | unpaired hunpaired hticks => exact .unpaired_append hunpaired hticks _

theorem Stage.tick (h : Stage .up n actions) {rc : Int32} {n' : UInt32} (hlt : n' < 3)
    (hn : n < 3 → n.toNat = failuresAtEnd (ticks actions) →
      n'.toNat = failuresAtEnd (ticks actions ++ [rc])) :
    Stage .up n' (actions ++ [.tick rc]) := by
  cases h with
  | connected hconnected hgone hbelow hcount hticks =>
      have hrcs : ticks (actions ++ [.tick rc]) = ticks actions ++ [rc] := ticks_append _ _
      refine .connected ?_ ?_ hlt ?_ ?_
      · simpa using hconnected
      · rw [disconnectsSince_append _ (by simp), hgone]
        rfl
      · rw [hrcs]
        exact hn hbelow hcount
      · have hlt' : n'.toNat < 3 := UInt32.lt_iff_toNat_lt.mp hlt
        rw [hrcs, trips_concat hticks, failedThrice_iff, ← hn hbelow hcount]
        exact Nat.not_le.mpr hlt'
  | unpaired hunpaired hticks => exact .unpaired_append hunpaired hticks _

theorem Stage.drop (h : Stage .up n actions) {rc : Int32} (hrc : rc ≠ 0) (hle : 3 ≤ n + 1) :
    Stage .dropped (n + 1) (actions ++ [.tick rc, .disconnect]) := by
  cases h with
  | connected hconnected hgone hlt hn hticks =>
      refine .dropped ?_ ?_ ?_
      · simpa using hconnected
      · rw [disconnectsSince_append _ (by simp), hgone]
        rfl
      · have hrcs : ticks (actions ++ [.tick rc, .disconnect]) = ticks actions ++ [rc] :=
          ticks_append _ _
        rw [hrcs, trips_concat hticks, failedThrice_iff, failuresAtEnd_concat, if_neg hrc, ← hn,
          ← toNat_add_one_of_lt hlt]
        exact UInt32.le_iff_toNat_le.mp hle
  | unpaired hunpaired hticks => exact .unpaired_append hunpaired hticks _

theorem Stage.release (h : Stage .dropped n actions) :
    Stage .down n (actions ++ [.disconnect]) := by
  cases h with
  | dropped hconnected hgone hticks =>
      refine .released ?_ ?_ ?_
      · simpa using hconnected
      · rw [disconnectsSince_append _ (by simp), hgone]
        rfl
      · rw [ticks_append]
        exact hticks.append _
  | unpaired hunpaired hticks => exact .unpaired_append hunpaired hticks _

theorem Stage.leave (h : Stage m n actions) (hm : m ≠ .ended) :
    Stage .ended n (actions ++ [.disconnect]) := by
  have hticks' : ticks (actions ++ [.disconnect]) = ticks actions :=
    (ticks_append _ _).trans (List.append_nil _)
  have hsince : disconnectsSince (actions ++ [.disconnect]) = disconnectsSince actions + 1 :=
    disconnectsSince_append _ (by simp)
  have hcount : (actions ++ [Action.disconnect]).count .connected =
      actions.count .connected := by
    simp
  have hmem : actions.count .connected = 1 → .connected ∈ actions ++ [.disconnect] := by
    intro h
    exact List.one_le_count_iff.mp (Nat.le_of_eq (hcount.trans h).symm)
  cases h with
  | unconnected hconnected hticks =>
      exact .endedUnconnected (by simpa using hconnected) (hticks'.trans hticks)
  | connected hconnected hgone _ _ hticks =>
      refine .endedOnce (hcount.trans hconnected) ?_ (hticks' ▸ hticks)
      rw [hsince, hgone]
  | dropped hconnected hgone hticks =>
      exact .endedAgain (hmem hconnected) (by omega) (hticks' ▸ hticks)
  | released hconnected hgone hticks =>
      exact .endedAgain (hmem hconnected) (by omega) (hticks' ▸ hticks)
  | unpaired hunpaired hticks => exact .unpaired_append hunpaired hticks _
  | endedUnconnected | endedOnce | endedAgain => exact absurd rfl hm

theorem Stage.retry (h : Stage .down n actions) :
    Stage .down n (actions ++ [.connectFailed]) := by
  cases h with
  | unconnected hconnected hticks =>
      have hnone : ticks (actions ++ [.connectFailed]) = [] := by
        rw [ticks_append, hticks]
        rfl
      exact .unconnected (by simpa using hconnected) hnone
  | released hconnected hgone hticks =>
      refine .released (by simpa using hconnected) ?_ ?_
      · rw [disconnectsSince_append _ (by simp), hgone]
        rfl
      · rw [ticks_append]
        exact hticks.append _
  | unpaired hunpaired hticks => exact .unpaired_append hunpaired hticks _

theorem Stage.moves (h : Stage m n actions) (hmoves : Moves stop [.disconnect] m n m' n' new) :
    Stage m' n' (actions ++ new) := by
  cases hmoves with
  | stay => rwa [List.append_nil]
  | retry => exact h.retry
  | connect => exact h.connect
  | tick => exact h.tick (by decide) fun _ _ => by simp [failuresAtEnd_concat]
  | fail n rc hrc hn =>
      refine h.tick hn fun hbelow hcount => ?_
      rw [failuresAtEnd_concat, if_neg hrc, ← hcount]
      exact toNat_add_one_of_lt hbelow
  | drop n rc hrc hn => exact h.drop hrc hn
  | release => exact h.release
  | leave m n hm => exact h.leave hm

theorem paired_iff_of_count_le {ended : Prop} (h : actions.count .connected ≤ 1) :
    Paired ended actions ↔ (ended → .connected ∈ actions → disconnectsSince actions = 1) := by
  refine ⟨fun hpaired => hpaired.atEnd, fun hend => ⟨?_, hend⟩⟩
  rintro before after rfl hbefore
  exact absurd (two_le_count_connected hbefore) (Nat.not_le.mpr (Nat.lt_succ_of_le h))

theorem Unpaired.not_paired {ended : Prop} (h : Unpaired actions) : ¬Paired ended actions := by
  obtain ⟨before, after, hsplit, hconnected, hgone⟩ := h
  exact fun hpaired => hgone (hpaired.between before after hsplit hconnected)

theorem Unpaired.two_le_count (h : Unpaired actions) : 2 ≤ actions.count .connected := by
  obtain ⟨before, after, rfl, hconnected, -⟩ := h
  exact two_le_count_connected hconnected

/-- At every stage the calls are paired when the threshold was never reached, and
otherwise as long as the thread runs on its first connection. -/
theorem Stage.paired_iff (h : Stage m n actions) :
    Paired (m = .ended) actions ↔
      ¬Trips (ticks actions) ∨ m ≠ .ended ∧ actions.count .connected ≤ 1 := by
  cases h with
  | unconnected hconnected hticks | endedUnconnected hconnected hticks =>
      rw [paired_iff_of_count_le (by rw [List.count_eq_zero.mpr hconnected]; decide), hticks]
      exact iff_of_true (fun _ hmem => absurd hmem hconnected) (.inl not_trips_nil)
  | connected hconnected hgone _ _ hticks =>
      rw [paired_iff_of_count_le hconnected.le]
      exact iff_of_true nofun (.inl hticks)
  | dropped hconnected hgone hticks | released hconnected hgone hticks =>
      rw [paired_iff_of_count_le hconnected.le]
      exact iff_of_true nofun (.inr ⟨nofun, hconnected.le⟩)
  | unpaired hunpaired hticks =>
      apply iff_of_false hunpaired.not_paired
      rintro (hnot | ⟨-, hle⟩)
      · exact hnot hticks
      · exact absurd hunpaired.two_le_count (Nat.not_le.mpr (Nat.lt_succ_of_le hle))
  | endedOnce hconnected hgone hticks =>
      rw [paired_iff_of_count_le hconnected.le]
      exact iff_of_true (fun _ _ => hgone) (.inl hticks)
  | endedAgain hconnected hgone hticks =>
      refine iff_of_false (fun hpaired => hgone (hpaired.atEnd rfl hconnected)) ?_
      rintro (hnot | ⟨hne, -⟩)
      · exact hnot hticks
      · exact hne rfl

theorem mode_eq_ended_iff {t : Thread} : t.mode = .ended ↔ t.place = .ended := by
  constructor
  · intro h
    by_contra hplace
    exact mode_ne_ended hplace h
  · intro h
    rw [Thread.mode, h]

/-- The record of a collector with a `disconnect` callback, at a stage. -/
structure Recorded.Staged (r : Recorded) : Prop where
  disconnect : r.thread.collector.disconnect = true
  stage : Stage r.thread.mode r.thread.collector.consecutiveErrors r.actions

theorem Collector.disconnect_body (c : Collector) (env : Env) :
    (c.body env).1.collector.disconnect = c.disconnect := by
  have htick : (c.tickCase env).1.collector.disconnect = c.disconnect := by
    refine Eq.trans ?_ (c.checkStale_eq (env.clock 0) (env.clock 1)).2.1
    unfold tickCase callTick
    dsimp only
    split_ifs
    · unfold tickOk
      dsimp only
      split_ifs <;> rfl
    all_goals rfl
  have hconnect : ∀ h, (c.connectCase env h).1.collector.disconnect = c.disconnect := by
    intro h
    unfold connectCase
    split_ifs <;> rfl
  unfold body
  split
  case h_1 | h_6 => rfl
  case h_2 | h_3 => exact hconnect _
  case h_4 | h_5 => exact htick

theorem Thread.disconnect_next (t : Thread) (env : Env) :
    (t.next env).1.collector.disconnect = t.collector.disconnect := by
  obtain ⟨c, place, retrying⟩ := t
  cases place with
  | loopHead =>
      rw [Thread.next]
      split_ifs
      · rfl
      · exact c.disconnect_body env
  | stagger | waitingSleep | retrySleep | offlineSleep =>
      rw [Thread.next]
      split_ifs <;> rfl
  | intervalSleep | ended => rfl

theorem Recorded.Staged.step {r : Recorded} (h : r.Staged) (ev : Event) : (r.step ev).Staged := by
  obtain ⟨hdisconnect, hstage⟩ := h
  cases ev with
  | stop => exact ⟨hdisconnect, by rwa [Recorded.step, Thread.actions, List.append_nil]⟩
  | step env =>
      have hgone : r.thread.collector.disconnects = [.disconnect] := by
        rw [Collector.disconnects, if_pos hdisconnect]
      have hmoves := r.thread.moves_next env
      rw [Collector.Moves, hgone] at hmoves
      exact ⟨(r.thread.disconnect_next env).trans hdisconnect, hstage.moves hmoves⟩

theorem staged_run (intervalMs : UInt32) (connect tick : Bool) (evs : List Event) :
    (run Recorded.step (started intervalMs connect tick true) evs).Staged := by
  have hstart : (started intervalMs connect tick true).Staged :=
    ⟨rfl, .unconnected List.not_mem_nil rfl⟩
  exact run_invariant (I := Recorded.Staged) (P := fun _ => True) (fun _ ev _ h => h.step ev)
    hstart fun _ _ => trivial

/-- In every run of a collector with a `disconnect` callback the calls are paired exactly
when no three calls of `tick` failed in a row, or the thread is still running and has not
connected a second time. -/
theorem paired_run_iff (intervalMs : UInt32) (connect tick : Bool) (evs : List Event) :
    let r := run Recorded.step (started intervalMs connect tick true) evs
    Paired (r.thread.place = .ended) r.actions ↔
      ¬Trips (ticks r.actions) ∨
        r.thread.place ≠ .ended ∧ r.actions.count .connected ≤ 1 := by
  intro r
  have hstage := (staged_run intervalMs connect tick evs).stage
  simpa only [mode_eq_ended_iff, ne_eq] using hstage.paired_iff

/-- Between the two connections of a collector that failed three times in a row `disconnect`
is called twice. -/
theorem paired_reconnects :
    ¬Paired
      ((run Recorded.step (started 1000 true true true) reconnects).thread.place = .ended)
      (run Recorded.step (started 1000 true true true) reconnects).actions := by
  intro hpaired
  have hactions : (run Recorded.step (started 1000 true true true) reconnects).actions =
      [.connected, .tick (-1), .tick (-1), .tick (-1), .disconnect, .disconnect] ++
        .connected :: [] := by
    decide +kernel
  exact absurd (hpaired.between _ _ hactions (by decide)) (by decide)

end CollectorThread

end Monitoring

end Shinigami
