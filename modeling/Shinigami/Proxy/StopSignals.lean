import Mathlib.Algebra.Order.Ring.Nat
import Mathlib.Tactic.SplitIfs
import Shinigami.Foundations.Run

/-!
# Stopping an event loop

`ProxyEventLoop::stop` signals twice: it counts up an eventfd, which ends an `epoll_wait`,
and it clears `running_`. The loop drains the eventfd when it is woken by it, and ends when it
finds the flag cleared. In a session one thread calls `run()` and another `stop()`, and both
are joined before the next session; a step is one access to the shared members.

A loop that finds the flag first leaves the eventfd as it is, which wakes the loop of the
next session (`stopsOwn_of_guarded_and_leaks`).
-/

namespace Shinigami

namespace Proxy

namespace StopSignals

/-- Where the thread in `run()` stands. In a batch the events in front of a wake-up count. -/
inductive RunPc
  | idle
  | start
  | check
  | wait
  | dispatch (others : ℕ) (wake : Bool)
  | clear
  | finish
  | returned
deriving DecidableEq, Repr

/-- Where the thread in `stop()` stands. -/
inductive StopPc
  | idle
  | write
  | store
  | done
deriving DecidableEq, Repr

/-- `MAX_EVENTS`. -/
def maxEvents : ℕ := 16

def eventfdMax : ℕ := 2 ^ 64 - 2

/-- The shared members of a `ProxyEventLoop`, and its threads. -/
structure EventLoop where
  running : Bool
  /-- The value of `wake_fd_`. -/
  wakeCount : ℕ
  runner : RunPc
  stopper : StopPc
deriving DecidableEq, Repr

/-- What `epoll_wait` returns: `EINTR`, or the number of events in front of the wake-up. -/
inductive Wait
  | interrupted
  | ready (others : ℕ) (wake : Bool)
deriving DecidableEq, Repr

inductive Event
  | begin
  | runner (w : Wait)
  | stop
  | stopper
  | join
deriving DecidableEq, Repr

namespace EventLoop

/-- `epoll_wait` reports a wake-up when there is one, unless the batch is full. -/
def Reports (s : EventLoop) (others : ℕ) (wake : Bool) : Prop :=
  (wake = true ∧ s.wakeCount ≠ 0 ∧ others < maxEvents) ∨
    (wake = false ∧ (s.wakeCount = 0 ∧ others ≤ maxEvents ∨ others = maxEvents))

instance (s : EventLoop) (others : ℕ) (wake : Bool) : Decidable (s.Reports others wake) :=
  inferInstanceAs (Decidable (_ ∨ _))

/-- The next step of `run()`. -/
def runStep (s : EventLoop) (w : Wait) : EventLoop :=
  match s.runner with
  | .idle => s
  | .start => { s with running := true, runner := .check }
  | .check => { s with runner := if s.running then .wait else .finish }
  | .wait =>
      match w with
      | .interrupted => { s with runner := .check }
      | .ready others wake =>
          if s.Reports others wake then { s with runner := .dispatch others wake } else s
  -- a handler is called
  | .dispatch (others + 1) wake => { s with runner := .dispatch others wake }
  | .dispatch 0 true => { s with wakeCount := 0, runner := .clear }
  | .dispatch 0 false => { s with runner := .check }
  | .clear => { s with running := false, runner := .check }
  | .finish => { s with running := false, runner := .returned }
  | .returned => s

/-- The next step of `stop()`. The write fails when the eventfd is full. -/
def stopStep (s : EventLoop) : EventLoop :=
  match s.stopper with
  | .idle => s
  | .write =>
      { s with
        wakeCount := if s.wakeCount < eventfdMax then s.wakeCount + 1 else s.wakeCount
        stopper := .store }
  | .store => { s with running := false, stopper := .done }
  | .done => s

def step (s : EventLoop) (ev : Event) : EventLoop :=
  match ev with
  | .begin => if s.runner = .idle then { s with runner := .start } else s
  | .runner w => s.runStep w
  | .stop => if s.runner ≠ .idle ∧ s.stopper = .idle then { s with stopper := .write } else s
  | .stopper => s.stopStep
  | .join =>
      if s.runner = .returned ∧ s.stopper = .done then
        { s with runner := .idle, stopper := .idle }
      else s

/-- A new event loop. -/
def initial : EventLoop := ⟨false, 0, .idle, .idle⟩

/-- When `run()` has returned, `stop()` has been called in its session. -/
def StopsOwn (s : EventLoop) : Prop := s.runner = .returned → s.stopper ≠ .idle

/-- The loop ends by the flag, with a wake-up left in the eventfd. -/
def Leaks (s : EventLoop) (ev : Event) : Prop :=
  (∃ w, ev = .runner w) ∧ s.runner = .check ∧ s.running = false ∧ s.wakeCount ≠ 0

/-- `stop()` has signalled through the eventfd. -/
def Woken (s : EventLoop) : Prop := s.stopper = .store ∨ s.stopper = .done

/-- Whatever ends the loop comes from the `stop()` of the session. -/
structure Signalled (s : EventLoop) : Prop where
  counted : s.wakeCount ≠ 0 → s.Woken
  reported : (∃ others, s.runner = .dispatch others true) ∨ s.runner = .clear → s.Woken
  flagged : s.runner ≠ .idle → s.runner ≠ .start → s.running = false → s.Woken
  ended : s.runner = .finish ∨ s.runner = .returned → s.Woken ∧ s.wakeCount = 0
  idle : s.runner = .idle → s.stopper = .idle ∧ s.wakeCount = 0

theorem signalled_initial : initial.Signalled := by
  constructor <;> simp [initial]

theorem Signalled.stopsOwn {s : EventLoop} (h : s.Signalled) : s.StopsOwn := by
  intro hreturned hidle
  rcases (h.ended (.inr hreturned)).1 with hpc | hpc
  · rw [hpc] at hidle
    cases hidle
  · rw [hpc] at hidle
    cases hidle

section Steps

variable {s : EventLoop}

theorem Signalled.goesOn (h : s.Signalled) (hbegun : s.runner ≠ .idle ∧ s.runner ≠ .start)
    {pc : RunPc} (hreported : (∃ others, pc = .dispatch others true) ∨ pc = .clear → s.Woken)
    (hgoes : pc ≠ .finish ∧ pc ≠ .returned ∧ pc ≠ .idle) :
    Signalled { s with runner := pc } where
  counted := h.counted
  reported := hreported
  flagged _ _ := h.flagged hbegun.1 hbegun.2
  ended hends := absurd hends (not_or.mpr ⟨hgoes.1, hgoes.2.1⟩)
  idle hidle := absurd hidle hgoes.2.2

theorem signalled_of_woken (hwoken : s.Woken)
    (hgoes : s.runner ≠ .finish ∧ s.runner ≠ .returned ∧ s.runner ≠ .idle) : s.Signalled where
  counted _ := hwoken
  reported _ := hwoken
  flagged _ _ _ := hwoken
  ended hends := absurd hends (not_or.mpr ⟨hgoes.1, hgoes.2.1⟩)
  idle hidle := absurd hidle hgoes.2.2

theorem Signalled.runStep (h : s.Signalled) {w : Wait} (hdrained : ¬s.Leaks (.runner w)) :
    (s.runStep w).Signalled := by
  unfold EventLoop.runStep
  split
  · exact h
  · exact ⟨h.counted, by simp, by simp, by simp, by simp⟩
  · next hpc =>
      have hbegun : s.runner ≠ .idle ∧ s.runner ≠ .start := by simp [hpc]
      by_cases hrunning : s.running = true
      · rw [if_pos hrunning]
        exact h.goesOn hbegun (by simp) (by simp)
      · rw [if_neg hrunning]
        have hoff := Bool.eq_false_iff.mpr hrunning
        have hwoken : s.Woken := h.flagged hbegun.1 hbegun.2 hoff
        have hempty : s.wakeCount = 0 := by
          by_contra hleft
          exact hdrained ⟨⟨w, rfl⟩, hpc, hoff, hleft⟩
        exact ⟨h.counted, by simp, fun _ _ _ => hwoken, fun _ => ⟨hwoken, hempty⟩, by simp⟩
  · next hpc =>
      have hbegun : s.runner ≠ .idle ∧ s.runner ≠ .start := by simp [hpc]
      cases w with
      | interrupted => exact h.goesOn hbegun (by simp) (by simp)
      | ready others wake =>
          dsimp only
          split_ifs with hreports
          · refine h.goesOn hbegun ?_ (by simp)
            rintro (⟨others', hwake⟩ | hclear)
            · cases hwake
              rcases hreports with ⟨-, hcount, -⟩ | ⟨hno, -⟩
              · exact h.counted hcount
              · cases hno
            · cases hclear
          · exact h
  · next others wake hpc =>
      refine h.goesOn (by simp [hpc]) ?_ (by simp)
      rintro (⟨others', hwake⟩ | hclear)
      · cases hwake
        exact h.reported (.inl ⟨_, hpc⟩)
      · cases hclear
  · next hpc => exact signalled_of_woken (h.reported (.inl ⟨_, hpc⟩)) (by simp)
  · next hpc => exact h.goesOn (by simp [hpc]) (by simp) (by simp)
  · next hpc => exact signalled_of_woken (h.reported (.inr hpc)) (by simp)
  · next hpc =>
      obtain ⟨hwoken, hempty⟩ := h.ended (.inl hpc)
      exact ⟨fun _ => hwoken, fun _ => hwoken, fun _ _ _ => hwoken, fun _ => ⟨hwoken, hempty⟩,
        by simp⟩
  · exact h

theorem Signalled.stopStep (h : s.Signalled) : s.stopStep.Signalled := by
  unfold EventLoop.stopStep
  split
  · exact h
  · next hpc =>
      have hnot : ¬s.Woken := by simp [Woken, hpc]
      refine ⟨fun _ => .inl rfl, fun _ => .inl rfl, fun _ _ _ => .inl rfl, ?_, ?_⟩
      · exact fun hends => absurd (h.ended hends).1 hnot
      · intro hidle
        have hstopper := (h.idle hidle).1
        rw [hpc] at hstopper
        cases hstopper
  · next hpc =>
      refine ⟨fun _ => .inr rfl, fun _ => .inr rfl, fun _ _ _ => .inr rfl, ?_, ?_⟩
      · exact fun hends => ⟨.inr rfl, (h.ended hends).2⟩
      · intro hidle
        have hstopper := (h.idle hidle).1
        rw [hpc] at hstopper
        cases hstopper
  · exact h

theorem Signalled.step (h : s.Signalled) {ev : Event} (hdrained : ¬s.Leaks ev) :
    (s.step ev).Signalled := by
  cases ev with
  | begin =>
      unfold EventLoop.step
      dsimp only
      split_ifs with hidle
      · exact ⟨h.counted, by simp, by simp, by simp, by simp⟩
      · exact h
  | runner w => exact h.runStep hdrained
  | stop =>
      unfold EventLoop.step
      dsimp only
      split_ifs with hcall
      · have hnot : ¬s.Woken := by simp [Woken, hcall.2]
        exact ⟨fun hcount => absurd (h.counted hcount) hnot,
          fun hwake => absurd (h.reported hwake) hnot,
          fun hidle hstart hoff => absurd (h.flagged hidle hstart hoff) hnot,
          fun hends => absurd (h.ended hends).1 hnot, fun hidle => absurd hidle hcall.1⟩
      · exact h
  | stopper => exact h.stopStep
  | join =>
      unfold EventLoop.step
      dsimp only
      split_ifs with hover
      · have hempty := (h.ended (.inr hover.1)).2
        exact ⟨fun hcount => absurd hempty hcount, by simp, by simp, by simp,
          fun _ => ⟨rfl, hempty⟩⟩
      · exact h

end Steps

def nextSession : List Event :=
  [.runner .interrupted, .runner .interrupted, .stopper, .join, .begin, .runner .interrupted,
    .runner .interrupted, .runner (.ready 0 true), .runner .interrupted, .runner .interrupted,
    .runner .interrupted, .runner .interrupted]

/-- A wake-up that is left behind ends the next session before its `stop()`. -/
theorem not_stopsOwn_of_leaks {s : EventLoop} (h : s.Signalled) {ev : Event}
    (hleaks : s.Leaks ev) : ¬(run step s nextSession).StopsOwn := by
  obtain ⟨-, hpc, hoff, hcount⟩ := hleaks
  obtain ⟨running, wakeCount, runner, stopper⟩ := s
  dsimp only at hpc hoff hcount
  subst hpc hoff
  have hmax : 0 < maxEvents := by decide
  rcases h.counted hcount with hstopper | hstopper
  · dsimp only at hstopper
    subst hstopper
    simp [nextSession, StopsOwn, EventLoop.step, EventLoop.runStep, EventLoop.stopStep, Reports,
      hcount, hmax]
  · dsimp only at hstopper
    subst hstopper
    simp [nextSession, StopsOwn, EventLoop.step, EventLoop.runStep, EventLoop.stopStep, Reports,
      hcount, hmax]

/-- In every run in which no loop ends by the flag with its wake-up left, no `run()` returns
before the `stop()` of its session; a run with such a loop can go on to one that does. -/
theorem stopsOwn_of_guarded_and_leaks (evs : List Event) :
    (Guarded step (fun s ev => ¬s.Leaks ev) initial evs →
        ∀ before, before <+: evs → (run step initial before).StopsOwn) ∧
      (¬Guarded step (fun s ev => ¬s.Leaks ev) initial evs →
        ∃ before, before <+: evs ∧ ∃ after, ¬(run step initial (before ++ after)).StopsOwn) := by
  constructor
  · rintro hdrained before ⟨after, rfl⟩
    have hguarded := (guarded_append.mp hdrained).1
    have hsignalled : (run step initial before).Signalled :=
      run_invariant_of_guarded (fun _ _ hev h => h.step hev) signalled_initial hguarded
    exact hsignalled.stopsOwn
  · intro hleft
    obtain ⟨before, ev, hkept, hsignalled, hleaks⟩ :=
      exists_first_unguarded (I := Signalled) (fun _ _ hev h => h.step hev) signalled_initial hleft
    refine ⟨before, (List.prefix_append before [ev]).trans hkept, nextSession, ?_⟩
    rw [run_append]
    exact not_stopsOwn_of_leaks hsignalled (not_not.mp hleaks)

/-- A session whose loop calls a handler while `stop()` runs, up to the end of the loop. -/
def lateStop : List Event :=
  [.begin, .runner .interrupted, .runner .interrupted, .runner (.ready 1 false), .stop, .stopper,
    .stopper, .runner .interrupted, .runner .interrupted]

/-- The session after it ends before its `stop()` is called. -/
theorem not_stopsOwn_after_lateStop :
    ¬∀ evs : List Event, (run step initial evs).StopsOwn :=
  fun hlaw => absurd (hlaw (lateStop ++ nextSession) (by decide)) (by decide)

end EventLoop

end StopSignals

end Proxy

end Shinigami
