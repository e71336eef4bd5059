import Mathlib.Data.List.TakeWhile
import Mathlib.Tactic.SplitIfs
import Shinigami.Foundations.Run

/-!
# The thread of a collector

`collector_thread` reads `stop_flag` at the head of its loop and in its sleeps, and a step
here is what it does from one such place to the next. A sleep ends with the flag as it was
read last. What a callback returns and what the clock shows come with the step.

Seen from its connection a collector is down, up, dropped or ended, and `Moves` lists
what a step can do between these.
-/

namespace Shinigami

namespace Monitoring

namespace CollectorThread

/-- `collector_state_t`. -/
inductive State where
  | waiting
  | connecting
  | syncing
  | live
  | stale
  | offline
deriving DecidableEq, Repr

/-- `collector_t`; of its callbacks only whether they are there. -/
structure Collector where
  intervalMs : UInt32
  connect : Bool
  tick : Bool
  disconnect : Bool
  state : State
  lastUpdateMs : UInt64
  lastStateChangeMs : UInt64
  lastOfflineMs : UInt64
  collectCount : UInt64
  errorCount : UInt64
  consecutiveErrors : UInt32
  stopFlag : Bool
deriving DecidableEq

/-- A collector after `collector_register`. -/
def registered (intervalMs : UInt32) (connect tick disconnect : Bool) : Collector where
  intervalMs := intervalMs
  connect := connect
  tick := tick
  disconnect := disconnect
  state := .waiting
  lastUpdateMs := 0
  lastStateChangeMs := 0
  lastOfflineMs := 0
  collectCount := 0
  errorCount := 0
  consecutiveErrors := 0
  stopFlag := false

inductive Place where
  | stagger
  | loopHead
  | waitingSleep
  | retrySleep
  | intervalSleep
  | offlineSleep
  | ended
deriving DecidableEq, Repr

structure Thread where
  collector : Collector
  place : Place
  retrying : place = .retrySleep →
    collector.state = .connecting ∨ collector.state = .syncing

/-- What the collector does with its callbacks. Without `connect` it is connected at
once. -/
inductive Action where
  | connected
  | connectFailed
  | tick (rc : Int32)
  | disconnect
deriving DecidableEq, Repr

/-- The result of the callback and the readings of the clock during a step. -/
structure Env where
  rc : Int32
  clock : ℕ → UInt64

/-- `collector_set_state`. -/
def Collector.setState (c : Collector) (newState : State) (now : UInt64) : Collector :=
  { c with
    state := newState
    lastStateChangeMs := now }

/-- The call of `disconnect`. -/
def Collector.disconnects (c : Collector) : List Action :=
  if c.disconnect then [.disconnect] else []

/-- The label `done`. -/
def Collector.done (c : Collector) (now : UInt64) : Thread × List Action :=
  (⟨c.setState .offline now, .ended, nofun⟩, c.disconnects)

/-- The attempt to connect of the states `CONNECTING` and `SYNCING`. -/
def Collector.connectCase (c : Collector) (env : Env)
    (h : c.state = .connecting ∨ c.state = .syncing) : Thread × List Action :=
  if c.connect then
    if env.rc = 0 then (⟨c.setState .live (env.clock 0), .loopHead, nofun⟩, [.connected])
    else (⟨c, .retrySleep, fun _ => h⟩, [.connectFailed])
  else (⟨c.setState .live (env.clock 0), .loopHead, nofun⟩, [.connected])

def Collector.checkStale (c : Collector) (now changed : UInt64) : Collector :=
  if c.state = .live ∧ c.lastUpdateMs ≠ 0 ∧
      now - c.lastUpdateMs > c.intervalMs.toUInt64 * 3 then
    c.setState .stale changed
  else c

/-- The collector after a successful `tick`. -/
def Collector.tickOk (c : Collector) (now changed : UInt64) : Collector :=
  let c := { c with
    lastUpdateMs := now
    collectCount := c.collectCount + 1
    consecutiveErrors := 0 }
  if c.state = .stale then c.setState .live changed else c

/-- The collector after a failed `tick`. -/
def Collector.tickFailed (c : Collector) : Collector :=
  { c with
    errorCount := c.errorCount + 1
    consecutiveErrors := c.consecutiveErrors + 1 }

/-- The call of `tick` and what follows it. -/
def Collector.callTick (c : Collector) (env : Env) : Thread × List Action :=
  if c.tick then
    if env.rc = 0 then
      (⟨c.tickOk (env.clock 2) (env.clock 3), .intervalSleep, nofun⟩, [.tick 0])
    else
      let c := c.tickFailed
      if c.consecutiveErrors ≥ 3 then
        (⟨{ c with lastOfflineMs := env.clock 2 }.setState .offline (env.clock 3),
          .intervalSleep, nofun⟩, .tick env.rc :: c.disconnects)
      else (⟨c, .intervalSleep, nofun⟩, [.tick env.rc])
  else (⟨c, .intervalSleep, nofun⟩, [])

/-- The states `LIVE` and `STALE`. -/
def Collector.tickCase (c : Collector) (env : Env) : Thread × List Action :=
  (c.checkStale (env.clock 0) (env.clock 1)).callTick env

/-- The body of the loop. -/
def Collector.body (c : Collector) (env : Env) : Thread × List Action :=
  match h : c.state with
  | .waiting => (⟨c, .waitingSleep, nofun⟩, [])
  | .connecting => c.connectCase env (.inl h)
  | .syncing => c.connectCase env (.inr h)
  | .live | .stale => c.tickCase env
  | .offline => (⟨c, .offlineSleep, nofun⟩, c.disconnects)

/-- `collector_thread` up to where it reads `stop_flag` next: the thread then, and what it
has done with the callbacks. -/
def Thread.next (t : Thread) (env : Env) : Thread × List Action :=
  let c := t.collector
  match t.place with
  | .stagger | .waitingSleep =>
      if c.stopFlag then c.done (env.clock 0)
      else (⟨c.setState .connecting (env.clock 0), .loopHead, nofun⟩, [])
  | .loopHead => if c.stopFlag then c.done (env.clock 0) else c.body env
  | .retrySleep =>
      if c.stopFlag then c.done (env.clock 0) else (⟨c, .loopHead, nofun⟩, [])
  -- the result of this sleep is not looked at
  | .intervalSleep => (⟨c, .loopHead, nofun⟩, [])
  | .offlineSleep =>
      if c.stopFlag then c.done (env.clock 0)
      else (⟨c.setState .waiting (env.clock 0), .loopHead, nofun⟩, [])
  | .ended => (t, [])

inductive Event where
  | stop
  | step (env : Env)

/-- The thread after an event; `collector_stop_all` sets the flag at any time. -/
def Thread.step (t : Thread) : Event → Thread
  | .stop => { t with collector := { t.collector with stopFlag := true } }
  | .step env => (t.next env).1

/-- What the thread does with the callbacks at an event. -/
def Thread.actions (t : Thread) : Event → List Action
  | .stop => []
  | .step env => (t.next env).2

/-- The thread with all it has done so far. -/
structure Recorded where
  thread : Thread
  actions : List Action

def Recorded.step (r : Recorded) (ev : Event) : Recorded where
  thread := r.thread.step ev
  actions := r.actions ++ r.thread.actions ev

/-- The thread at its start. -/
def started (intervalMs : UInt32) (connect tick disconnect : Bool) : Recorded where
  thread := ⟨registered intervalMs connect tick disconnect, .stagger, nofun⟩
  actions := []

inductive Mode where
  | down
  | up
  | dropped
  | ended
deriving DecidableEq, Repr

/-- A collector is dropped from the failure that puts it offline to the call of
`disconnect` in the state `OFFLINE`. -/
def Thread.mode (t : Thread) : Mode :=
  match t.place with
  | .loopHead | .intervalSleep =>
      match t.collector.state with
      | .live | .stale => .up
      | .offline => .dropped
      | .waiting | .connecting | .syncing => .down
  | .stagger | .waitingSleep | .retrySleep | .offlineSleep => .down
  | .ended => .ended

/-- What a step does to the connection and to the count of errors `n`. The thread ends
when the flag is `stop`, and `gone` stands for the call of `disconnect`. -/
inductive Moves (stop : Bool) (gone : List Action) :
    Mode → UInt32 → Mode → UInt32 → List Action → Prop
  | stay (m : Mode) (n : UInt32) : Moves stop gone m n m n []
  | retry (n : UInt32) : Moves stop gone .down n .down n [.connectFailed]
  | connect (n : UInt32) : Moves stop gone .down n .up n [.connected]
  | tick (n : UInt32) : Moves stop gone .up n .up 0 [.tick 0]
  | fail (n : UInt32) (rc : Int32) (hrc : rc ≠ 0) (hn : n + 1 < 3) :
      Moves stop gone .up n .up (n + 1) [.tick rc]
  | drop (n : UInt32) (rc : Int32) (hrc : rc ≠ 0) (hn : 3 ≤ n + 1) (hstop : stop = false) :
      Moves stop gone .up n .dropped (n + 1) (.tick rc :: gone)
  | release (n : UInt32) : Moves stop gone .dropped n .down n gone
  | leave (m : Mode) (n : UInt32) (hm : m ≠ .ended) (hstop : stop = true) :
      Moves stop gone m n .ended n gone

/-- The step of `c` from the mode `m`. -/
def Collector.Moves (c : Collector) (m : Mode) (o : Thread × List Action) : Prop :=
  CollectorThread.Moves c.stopFlag c.disconnects m c.consecutiveErrors o.1.mode
    o.1.collector.consecutiveErrors o.2

theorem Collector.moves_done (c : Collector) (now : UInt64) {m : Mode} (hm : m ≠ .ended)
    (hstop : c.stopFlag = true) : c.Moves m (c.done now) :=
  .leave m c.consecutiveErrors hm hstop

theorem Collector.moves_connectCase (c : Collector) (env : Env)
    (h : c.state = .connecting ∨ c.state = .syncing) : c.Moves .down (c.connectCase env h) := by
  unfold connectCase
  split_ifs with hconnect hrc
  · exact .connect c.consecutiveErrors
  · exact .retry c.consecutiveErrors
  · exact .connect c.consecutiveErrors

theorem Collector.checkStale_up (c : Collector) (now changed : UInt64)
    (h : c.state = .live ∨ c.state = .stale) :
    (c.checkStale now changed).state = .live ∨ (c.checkStale now changed).state = .stale := by
  unfold checkStale
  split_ifs
  · exact .inr rfl
  · exact h

theorem Collector.checkStale_eq (c : Collector) (now changed : UInt64) :
    (c.checkStale now changed).consecutiveErrors = c.consecutiveErrors ∧
      (c.checkStale now changed).disconnect = c.disconnect ∧
      (c.checkStale now changed).stopFlag = c.stopFlag := by
  unfold checkStale
  split_ifs
  · exact ⟨rfl, rfl, rfl⟩
  · exact ⟨rfl, rfl, rfl⟩

theorem Collector.tickOk_up (c : Collector) (now changed : UInt64)
    (h : c.state = .live ∨ c.state = .stale) :
    ((c.tickOk now changed).state = .live ∨ (c.tickOk now changed).state = .stale) ∧
      (c.tickOk now changed).consecutiveErrors = 0 := by
  unfold tickOk
  dsimp only
  split_ifs
  · exact ⟨.inl rfl, rfl⟩
  · exact ⟨h, rfl⟩

theorem mode_of_up {t : Thread} (hplace : t.place = .loopHead ∨ t.place = .intervalSleep)
    (h : t.collector.state = .live ∨ t.collector.state = .stale) : t.mode = .up := by
  unfold Thread.mode
  rcases hplace with hplace | hplace <;> rcases h with h | h <;> rw [hplace, h]

theorem Collector.moves_callTick (c : Collector) (env : Env) (hstop : c.stopFlag = false)
    (h : c.state = .live ∨ c.state = .stale) : c.Moves .up (c.callTick env) := by
  unfold callTick Collector.Moves
  dsimp only
  split_ifs with htick hrc herr
  · obtain ⟨hstate, hzero⟩ := c.tickOk_up (env.clock 2) (env.clock 3) h
    rw [mode_of_up (.inr rfl) hstate, hzero]
    exact .tick c.consecutiveErrors
  · exact .drop c.consecutiveErrors env.rc hrc herr hstop
  · rw [mode_of_up (.inr rfl) h]
    exact .fail c.consecutiveErrors env.rc hrc (UInt32.not_le.mp herr)
  · rw [mode_of_up (.inr rfl) h]
    exact .stay .up c.consecutiveErrors

theorem Collector.moves_tickCase (c : Collector) (env : Env) (hstop : c.stopFlag = false)
    (h : c.state = .live ∨ c.state = .stale) : c.Moves .up (c.tickCase env) := by
  obtain ⟨herrors, hdisconnect, hflag⟩ := c.checkStale_eq (env.clock 0) (env.clock 1)
  have hmoves := moves_callTick _ env (hflag.trans hstop)
    (c.checkStale_up (env.clock 0) (env.clock 1) h)
  rwa [Collector.Moves, herrors, hflag, disconnects, hdisconnect, ← disconnects] at hmoves

theorem mode_of_connecting {t : Thread} (hplace : t.place = .loopHead)
    (h : t.collector.state = .connecting ∨ t.collector.state = .syncing) : t.mode = .down := by
  unfold Thread.mode
  rcases h with h | h <;> rw [hplace, h]

theorem Collector.moves_body (c : Collector) (env : Env) (hstop : c.stopFlag = false) :
    c.Moves (Thread.mode ⟨c, .loopHead, nofun⟩) (c.body env) := by
  unfold Collector.body
  split
  case h_1 h =>
    have hmode : Thread.mode ⟨c, .loopHead, nofun⟩ = .down := by simp only [Thread.mode, h]
    rw [hmode]
    exact .stay .down c.consecutiveErrors
  case h_2 h =>
    rw [mode_of_connecting rfl (.inl h)]
    exact c.moves_connectCase env (.inl h)
  case h_3 h =>
    rw [mode_of_connecting rfl (.inr h)]
    exact c.moves_connectCase env (.inr h)
  case h_4 h =>
    rw [mode_of_up (.inl rfl) (.inl h)]
    exact c.moves_tickCase env hstop (.inl h)
  case h_5 h =>
    rw [mode_of_up (.inl rfl) (.inr h)]
    exact c.moves_tickCase env hstop (.inr h)
  case h_6 h =>
    have hmode : Thread.mode ⟨c, .loopHead, nofun⟩ = .dropped := by simp only [Thread.mode, h]
    rw [hmode]
    exact .release c.consecutiveErrors

theorem state_of_mode (t : Thread) :
    (t.mode = .up → t.collector.state = .live ∨ t.collector.state = .stale) ∧
      (t.mode = .dropped → t.collector.state = .offline) := by
  obtain ⟨c, place, retrying⟩ := t
  cases place with
  | loopHead | intervalSleep => cases hstate : c.state <;> simp [Thread.mode, hstate]
  | stagger | waitingSleep | retrySleep | offlineSleep | ended => exact ⟨nofun, nofun⟩

theorem mode_ne_ended {t : Thread} (h : t.place ≠ .ended) : t.mode ≠ .ended := by
  obtain ⟨c, place, retrying⟩ := t
  cases place with
  | loopHead | intervalSleep => cases hstate : c.state <;> simp [Thread.mode, hstate]
  | stagger | waitingSleep | retrySleep | offlineSleep => nofun
  | ended => exact absurd rfl h

theorem Thread.moves_next (t : Thread) (env : Env) :
    t.collector.Moves t.mode (t.next env) := by
  obtain ⟨c, place, retrying⟩ := t
  cases place with
  | stagger | waitingSleep | offlineSleep =>
      rw [Thread.next]
      split_ifs with hstop
      · exact c.moves_done _ nofun hstop
      · exact .stay .down c.consecutiveErrors
  | loopHead =>
      rw [Thread.next]
      split_ifs with hstop
      · exact c.moves_done _ (mode_ne_ended nofun) hstop
      · exact c.moves_body env (Bool.eq_false_iff.mpr hstop)
  | retrySleep =>
      rw [Thread.next]
      split_ifs with hstop
      · exact c.moves_done _ nofun hstop
      · have hdown : Thread.mode ⟨c, .loopHead, nofun⟩ = .down :=
          mode_of_connecting rfl (retrying rfl)
        rw [Collector.Moves, hdown]
        exact .stay .down c.consecutiveErrors
  | intervalSleep => exact .stay _ c.consecutiveErrors
  | ended => exact .stay .ended c.consecutiveErrors

def sinceConnect (actions : List Action) : List Action :=
  actions.foldl (fun since a => if a = .connected then [] else since ++ [a]) []

def Action.tickResult : Action → Option Int32
  | .tick rc => some rc
  | .connected | .connectFailed | .disconnect => none

/-- The results of the calls of `tick`. -/
def ticks (actions : List Action) : List Int32 := actions.filterMap Action.tickResult

def failuresAtEnd (rcs : List Int32) : ℕ := (rcs.reverse.takeWhile (· ≠ 0)).length

def FailedThrice (rcs : List Int32) : Prop :=
  ∃ old r₁ r₂ r₃, rcs = old ++ [r₁, r₂, r₃] ∧ r₁ ≠ 0 ∧ r₂ ≠ 0 ∧ r₃ ≠ 0

@[simp] theorem sinceConnect_concat_connected (actions : List Action) :
    sinceConnect (actions ++ [.connected]) = [] := by
  simp [sinceConnect]

theorem sinceConnect_append (actions : List Action) {new : List Action}
    (h : Action.connected ∉ new) :
    sinceConnect (actions ++ new) = sinceConnect actions ++ new := by
  induction new generalizing actions with
  | nil => simp
  | cons a new ih =>
      obtain ⟨hne, hrest⟩ := not_or.mp (fun hmem => h (List.mem_cons.mpr hmem))
      have hone : sinceConnect (actions ++ [a]) = sinceConnect actions ++ [a] := by
        rw [sinceConnect, List.foldl_append, List.foldl_cons, List.foldl_nil,
          if_neg (Ne.symm hne), sinceConnect]
      rw [List.append_cons, ih _ hrest, hone, ← List.append_cons]

@[simp] theorem ticks_append (actions new : List Action) :
    ticks (actions ++ new) = ticks actions ++ ticks new :=
  List.filterMap_append

theorem ticks_sinceConnect_tick (actions : List Action) (rc : Int32) {gone : List Action}
    (hgone : gone = [] ∨ gone = [.disconnect]) :
    ticks (sinceConnect (actions ++ .tick rc :: gone)) =
      ticks (sinceConnect actions) ++ [rc] := by
  rcases hgone with rfl | rfl
  · rw [sinceConnect_append _ (by simp), ticks_append]
    rfl
  · rw [sinceConnect_append _ (by simp), ticks_append]
    rfl

theorem toNat_add_one_of_lt {n : UInt32} (h : n < 3) : (n + 1).toNat = n.toNat + 1 := by
  have hlt : n.toNat < 3 := UInt32.lt_iff_toNat_lt.mp h
  rw [UInt32.toNat_add, UInt32.toNat_one]
  omega

theorem failuresAtEnd_concat (rcs : List Int32) (rc : Int32) :
    failuresAtEnd (rcs ++ [rc]) = if rc = 0 then 0 else failuresAtEnd rcs + 1 := by
  unfold failuresAtEnd
  by_cases h : rc = 0 <;> simp [h]

theorem failedThrice_iff {rcs : List Int32} : FailedThrice rcs ↔ 3 ≤ failuresAtEnd rcs := by
  constructor
  · rintro ⟨old, r₁, r₂, r₃, rfl, h₁, h₂, h₃⟩
    simp [failuresAtEnd, h₁, h₂, h₃]
  · intro h
    have hsplit := List.takeWhile_append_dropWhile (p := fun rc : Int32 => rc ≠ 0)
      (l := rcs.reverse)
    have hfailed : ∀ rc ∈ rcs.reverse.takeWhile (· ≠ 0), rc ≠ 0 := fun rc hrc => by
      simpa using List.mem_takeWhile_imp hrc
    unfold failuresAtEnd at h
    generalize rcs.reverse.takeWhile (· ≠ 0) = failed at h hsplit hfailed
    generalize rcs.reverse.dropWhile (· ≠ 0) = rest at hsplit
    match failed, h with
    | r₃ :: r₂ :: r₁ :: older, _ =>
        have hrcs : rcs = (older ++ rest).reverse ++ [r₁, r₂, r₃] := by
          rw [← List.reverse_reverse rcs, ← hsplit]
          simp
        exact ⟨_, r₁, r₂, r₃, hrcs, hfailed r₁ (by simp), hfailed r₂ (by simp),
          hfailed r₃ (by simp)⟩

instance decidableFailedThrice (rcs : List Int32) : Decidable (FailedThrice rcs) :=
  decidable_of_iff _ failedThrice_iff.symm

/-- A step in which the callback returns `rc`. -/
def stepWith (rc : Int32) : Event := .step ⟨rc, fun _ => 0⟩

/-- A collector that connects, fails three times and connects again. -/
def reconnects : List Event :=
  [stepWith 0, stepWith 0, stepWith (-1), stepWith 0, stepWith (-1), stepWith 0, stepWith (-1),
    stepWith 0, stepWith 0, stepWith 0, stepWith 0, stepWith 0, stepWith 0]

end CollectorThread

end Monitoring

end Shinigami
