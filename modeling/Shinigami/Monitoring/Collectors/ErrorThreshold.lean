import Mathlib.Tactic.SplitIfs
import Shinigami.Monitoring.Collectors.CollectorThread

/-!
# The error threshold of a collector

A collector that goes offline keeps its count of errors until a `tick` succeeds, and a
successful `connect` does not clear it. `Counts` says what the count is at each point of
the connection, and with it three failed calls stand behind every way to `OFFLINE` exactly
in the runs in which the first `tick` after each reconnection succeeds.
-/

namespace Shinigami

namespace Monitoring

namespace CollectorThread

/-- A collector that goes from `LIVE` or `STALE` to `OFFLINE`, `stop_flag` unset, has had
three failed calls since it connected. -/
def ThresholdKept (r : Recorded) (ev : Event) : Prop :=
  r.thread.collector.stopFlag = false →
    (r.thread.collector.state = .live ∨ r.thread.collector.state = .stale) →
    (r.step ev).thread.collector.state = .offline →
      FailedThrice (ticks (sinceConnect (r.step ev).actions))

/-- The first `tick` after a reconnection succeeds. -/
def FirstTickSucceeds (r : Recorded) (ev : Event) : Prop :=
  ∀ rc, .tick rc ∈ r.thread.actions ev → 2 ≤ r.actions.count .connected →
    ticks (sinceConnect r.actions) = [] → rc = 0

/-- The count of errors `n` after the actions. -/
def Counts (m : Mode) (n : UInt32) (actions : List Action) : Prop :=
  match m with
  | .down | .dropped => n = if actions.count .connected = 0 then 0 else 3
  | .up =>
      1 ≤ actions.count .connected ∧
        if ticks (sinceConnect actions) = [] then
          n = if actions.count .connected = 1 then 0 else 3
        else n < 3 ∧ n.toNat = failuresAtEnd (ticks (sinceConnect actions))
  | .ended => True

instance decidableThresholdKept (r : Recorded) : ∀ ev, Decidable (ThresholdKept r ev) :=
  fun _ => inferInstanceAs (Decidable (_ → _ → _ → _))

variable {stop : Bool} {gone new actions : List Action} {m m' : Mode} {n n' : UInt32}

theorem eq_three_of_lt (hlt : n < 3) (hle : 3 ≤ n + 1) : n + 1 = 3 := by
  have hlt' : n.toNat < 3 := UInt32.lt_iff_toNat_lt.mp hlt
  have hle' : 3 ≤ (n + 1).toNat := UInt32.le_iff_toNat_le.mp hle
  have hsucc := toNat_add_one_of_lt hlt
  exact UInt32.toNat_inj.mp (show (n + 1).toNat = 3 by omega)

/-- A failed call, at a count below the threshold or after the first connection. -/
theorem Counts.tick_failed (h : Counts .up n actions) {rc : Int32} (hrc : rc ≠ 0)
    (hfirst : 2 ≤ actions.count .connected → ticks (sinceConnect actions) = [] → rc = 0) :
    n < 3 ∧ (n + 1).toNat = failuresAtEnd (ticks (sinceConnect actions) ++ [rc]) := by
  obtain ⟨hconnected, hcount⟩ := h
  rw [failuresAtEnd_concat, if_neg hrc]
  split_ifs at hcount with hticks hone
  · rw [hcount, hticks]
    exact ⟨by decide, rfl⟩
  · exact absurd (hfirst (by omega) hticks) hrc
  · obtain ⟨hlt, hn⟩ := hcount
    exact ⟨hlt, (toNat_add_one_of_lt hlt).trans (congrArg (· + 1) hn)⟩

/-- The step: a move keeps the count, if a first `tick` after a reconnection succeeds. -/
theorem Counts.moves (h : Counts m n actions) (hmoves : Moves stop gone m n m' n' new)
    (hgone : gone = [] ∨ gone = [.disconnect])
    (hfirst : ∀ rc, .tick rc ∈ new → 2 ≤ actions.count .connected →
      ticks (sinceConnect actions) = [] → rc = 0) : Counts m' n' (actions ++ new) := by
  cases hmoves with
  | stay m n => rwa [List.append_nil]
  | retry n => simpa [Counts] using h
  | connect n =>
      refine ⟨by simp, ?_⟩
      have hn : n = if actions.count .connected = 0 then 0 else 3 := h
      rw [sinceConnect_concat_connected, if_pos (by rfl), hn, List.count_append]
      simp
  | tick n =>
      refine ⟨by simpa using h.1, ?_⟩
      rw [ticks_sinceConnect_tick actions 0 (.inl rfl), if_neg (by simp), failuresAtEnd_concat]
      exact ⟨by decide, rfl⟩
  | fail n rc hrc hn =>
      refine ⟨by simpa using h.1, ?_⟩
      rw [ticks_sinceConnect_tick actions rc (.inl rfl), if_neg (by simp)]
      exact ⟨hn, (h.tick_failed hrc (hfirst rc (by simp))).2⟩
  | drop n rc hrc hn hstop =>
      have hlt := (h.tick_failed hrc (hfirst rc (by simp))).1
      have hthree : n + 1 = 3 := eq_three_of_lt hlt hn
      have hconnected : actions.count .connected ≠ 0 := Nat.one_le_iff_ne_zero.mp h.1
      rcases hgone with rfl | rfl
      · simp [Counts, hthree, hconnected]
      · simp [Counts, hthree, hconnected]
  | release n =>
      rcases hgone with rfl | rfl
      · simpa [Counts] using h
      · simpa [Counts] using h
  | leave m n hm hstop => trivial

theorem Counts.first_tick (h : Counts m n actions) (hmoves : Moves stop gone m n m' n' new)
    (hdrop : ¬(m = .up ∧ m' = .dropped)) (hgone : gone = [] ∨ gone = [.disconnect]) :
    ∀ rc, .tick rc ∈ new → 2 ≤ actions.count .connected →
      ticks (sinceConnect actions) = [] → rc = 0 := by
  intro rc hrc hconnected hticks
  have hquiet : .tick rc ∉ gone := by rcases hgone with rfl | rfl <;> simp
  cases hmoves with
  | stay | retry | connect => simp at hrc
  | tick => simpa using hrc
  | fail n rc' hrc' hn =>
      have hthree : n = 3 := by
        obtain ⟨-, hcount⟩ := h
        rwa [if_pos hticks, if_neg (by omega)] at hcount
      rw [hthree] at hn
      exact absurd hn (by decide)
  | drop => exact absurd ⟨rfl, rfl⟩ hdrop
  | release | leave => exact absurd hrc hquiet

theorem Collector.disconnects_eq (c : Collector) :
    c.disconnects = [] ∨ c.disconnects = [.disconnect] := by
  unfold disconnects
  split_ifs
  · exact .inr rfl
  · exact .inl rfl

theorem Collector.place_callTick (c : Collector) (env : Env) :
    (c.callTick env).1.place = .intervalSleep := by
  unfold callTick
  dsimp only
  split_ifs <;> rfl

theorem mode_of_offline {t : Thread} (hplace : t.place = .intervalSleep)
    (h : t.collector.state = .offline) : t.mode = .dropped := by
  unfold Thread.mode
  rw [hplace, h]

theorem Collector.body_of_up (c : Collector) (env : Env)
    (h : c.state = .live ∨ c.state = .stale) : c.body env = c.tickCase env := by
  unfold body
  split
  case h_4 => rfl
  case h_5 => rfl
  all_goals rename_i hstate; rw [hstate] at h; simp at h

theorem Moves.of_dropped (h : Moves stop gone m n m' n' new) (hup : m = .up)
    (hdropped : m' = .dropped) :
    stop = false ∧ 3 ≤ n + 1 ∧ ∃ rc, rc ≠ 0 ∧ new = .tick rc :: gone := by
  cases h with
  | drop n rc hrc hn hstop => exact ⟨hstop, hn, rc, hrc, rfl⟩
  | stay => exact absurd (hup.symm.trans hdropped) nofun
  | retry | connect | tick | fail | release | leave => cases hdropped

/-- A collector in `LIVE` or `STALE` goes offline, the flag unset, by being dropped. -/
theorem dropped_of_offline {t : Thread} {env : Env} (hstop : t.collector.stopFlag = false)
    (hup : t.collector.state = .live ∨ t.collector.state = .stale)
    (hoffline : (t.next env).1.collector.state = .offline) :
    t.mode = .up ∧ (t.next env).1.mode = .dropped := by
  obtain ⟨c, place, retrying⟩ := t
  replace hstop : c.stopFlag = false := hstop
  have hne : c.state ≠ .offline := by
    intro h
    rcases hup with h' | h' <;> exact absurd (h.symm.trans h') nofun
  cases place with
  | stagger | waitingSleep | offlineSleep =>
      simp [Thread.next, hstop, Collector.setState] at hoffline
  | retrySleep =>
      simp only [Thread.next, hstop, Bool.false_eq_true, if_false] at hoffline
      exact absurd hoffline hne
  | intervalSleep | ended => exact absurd hoffline hne
  | loopHead =>
      have hbody : Thread.next ⟨c, .loopHead, retrying⟩ env = c.tickCase env := by
        rw [← c.body_of_up env hup]
        simp only [Thread.next, hstop, Bool.false_eq_true, if_false]
      rw [hbody] at hoffline ⊢
      exact ⟨mode_of_up (.inl rfl) hup, mode_of_offline (Collector.place_callTick _ env) hoffline⟩

def Recorded.Counted (r : Recorded) : Prop :=
  Counts r.thread.mode r.thread.collector.consecutiveErrors r.actions

theorem counted_started (intervalMs : UInt32) (connect tick disconnect : Bool) :
    (started intervalMs connect tick disconnect).Counted :=
  (rfl : (0 : UInt32) = 0)

theorem Recorded.Counted.step {r : Recorded} (h : r.Counted) {ev : Event}
    (hfirst : FirstTickSucceeds r ev) : (r.step ev).Counted := by
  cases ev with
  | stop =>
      rw [Recorded.Counted, Recorded.step, Thread.actions, List.append_nil]
      exact h
  | step env =>
      exact Counts.moves h (r.thread.moves_next env) r.thread.collector.disconnects_eq hfirst

theorem Recorded.Counted.failedThrice_iff {r : Recorded} (h : r.Counted) {env : Env}
    (hup : r.thread.mode = .up) (hdropped : (r.thread.next env).1.mode = .dropped) :
    FailedThrice (ticks (sinceConnect (r.actions ++ (r.thread.next env).2))) ↔
      FirstTickSucceeds r (.step env) := by
  obtain ⟨-, hn, rc, hrc, hnew⟩ := (r.thread.moves_next env).of_dropped hup hdropped
  have hcounts : Counts .up r.thread.collector.consecutiveErrors r.actions := hup ▸ h
  rw [hnew, ticks_sinceConnect_tick _ _ r.thread.collector.disconnects_eq,
    CollectorThread.failedThrice_iff]
  constructor
  · intro hthree rc' hrc' hconnected hticks
    rw [hticks, failuresAtEnd_concat] at hthree
    exact absurd hthree (by simp [hrc, failuresAtEnd])
  · intro hfirst
    have hfirst' := hfirst rc (by rw [Thread.actions, hnew]; simp)
    rw [← (hcounts.tick_failed hrc hfirst').2]
    exact UInt32.le_iff_toNat_le.mp hn

theorem Recorded.Counted.kept_iff {r : Recorded} (h : r.Counted) (ev : Event) :
    ThresholdKept r ev ↔ FirstTickSucceeds r ev := by
  cases ev with
  | stop =>
      refine iff_of_true (fun _ hup hoffline => ?_) nofun
      rcases hup with hup | hup <;> exact absurd (hoffline.symm.trans hup) nofun
  | step env =>
      by_cases hdrop : r.thread.mode = .up ∧ (r.thread.next env).1.mode = .dropped
      · obtain ⟨hstop, hn, rc, hrc, hnew⟩ :=
          (r.thread.moves_next env).of_dropped hdrop.1 hdrop.2
        refine Iff.trans ⟨fun hkept => ?_, fun hthrice _ _ _ => hthrice⟩
          (h.failedThrice_iff hdrop.1 hdrop.2)
        exact hkept hstop ((state_of_mode _).1 hdrop.1) ((state_of_mode _).2 hdrop.2)
      · refine iff_of_true (fun hstop hup hoffline => ?_) ?_
        · exact absurd (dropped_of_offline hstop hup hoffline) hdrop
        · exact Counts.first_tick h (r.thread.moves_next env) hdrop
            r.thread.collector.disconnects_eq

/-- In every run a collector leaves `LIVE` and `STALE` for `OFFLINE` after three failed
calls since it connected exactly when each first `tick` after a reconnection succeeds. -/
theorem thresholdKept_iff (intervalMs : UInt32) (connect tick disconnect : Bool)
    (evs : List Event) :
    Guarded Recorded.step ThresholdKept (started intervalMs connect tick disconnect) evs ↔
      Guarded Recorded.step FirstTickSucceeds (started intervalMs connect tick disconnect)
        evs :=
  guarded_congr_of_guarded (I := Recorded.Counted)
    (fun _ _ hfirst h => Recorded.Counted.step h hfirst)
    (fun _ ev h => Recorded.Counted.kept_iff h ev) (counted_started ..)

/-- One failed call after the reconnection puts the collector offline. -/
theorem thresholdKept_reconnects :
    ¬Guarded Recorded.step ThresholdKept (started 1000 true true true)
      (reconnects ++ [stepWith (-1)]) := by
  decide +kernel

end CollectorThread

end Monitoring

end Shinigami
