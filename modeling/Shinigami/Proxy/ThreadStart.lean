import Shinigami.Proxy.SessionLifecycle

/-!
# Starting the threads of a proxy

`connect()` gives new threads to `io_thread_` and `shm_thread_`, and nothing but
`connected_` keeps it from doing so while they have some. A loss of the connection clears
the flag and keeps the threads; they are joined by `disconnect()` only. Calls of `connect()`
and `disconnect()` come one after the other here, beside the io thread and the reconnect
thread (`freeThreads_run_iff`).
-/

namespace Shinigami

namespace Proxy

namespace SessionLifecycle

/-- A session with `shm_thread_`. The last two are not variables of the program: the
connection has been lost since the last `disconnect()` and has not been restored, and it
was so when the call of `connect()` under way looked at `connected_`. -/
structure ThreadedSession where
  session : Session
  shmJoinable : Bool
  lost : Bool
  begunLost : Bool

namespace ThreadedSession

def overlaps (t : ThreadedSession) : Event → Bool
  | .connect => t.session.disconnector ≠ .idle
  | .disconnect => t.session.connector ≠ .idle
  | _ => false

/-- The next step of `connect()`, with the second thread. -/
def connectStep (t : ThreadedSession) (o : Outcome) : ThreadedSession :=
  let s := t.session.connectStep o
  match t.session.connector with
  | .check => { t with session := s, begunLost := t.lost }
  | .spawn =>
      if t.shmJoinable then { t with session := { s with aborted := true } }
      else { t with session := s, shmJoinable := true }
  | _ => { t with session := s }

def reconnectStep (maxAttempts : ℤ) (t : ThreadedSession) (o : Outcome) : ThreadedSession :=
  { t with
    session := t.session.reconnectStep maxAttempts o
    lost :=
      match t.session.reconnector with
      | .attempt _ .publish => false
      | _ => t.lost }

def ioStep (maxAttempts : ℤ) (t : ThreadedSession) (ev : IoEvent) : ThreadedSession :=
  { t with
    session := t.session.ioStep maxAttempts ev
    lost := t.lost || decide (t.session.io = .lost ∧ ev = .advance) }

/-- The next step of `disconnect()`, which joins both threads. -/
def disconnectStep (t : ThreadedSession) : ThreadedSession :=
  let s := t.session.disconnectStep
  if t.session.disconnector = .join ∧ s.disconnector = .close then
    { t with session := s, shmJoinable := false, lost := false }
  else { t with session := s }

def step (maxAttempts : ℤ) (t : ThreadedSession) (ev : Event) : ThreadedSession :=
  if t.session.aborted || t.overlaps ev then t
  else
    match ev with
    | .connector o => t.connectStep o
    | .reconnector o => t.reconnectStep maxAttempts o
    | .io ev => t.ioStep maxAttempts ev
    | .disconnector => t.disconnectStep
    | .connect | .disconnect => { t with session := t.session.step maxAttempts ev }

def initial : ThreadedSession := ⟨Session.initial, false, false, false⟩

/-- Where `connect()` starts its threads, it has none. -/
def FreeThreads (t : ThreadedSession) : Prop :=
  t.session.connector = .spawn → t.session.io = .none ∧ t.shmJoinable = false

/-- A call of `connect()` that met a lost connection goes on to start its threads: its
attempt has succeeded. -/
def StartsLost (t : ThreadedSession) (ev : Event) : Prop :=
  (∃ o, ev = .connector o) ∧ t.session.connector = .clearStopping ∧ t.begunLost = true

/-- The calls stay apart, and a session with threads is connected, lost, or about to
end. -/
structure Tracked (t : ThreadedSession) : Prop where
  running : t.session.aborted = false
  apart : t.session.connector = .idle ∨ t.session.disconnector = .idle
  shm : t.shmJoinable = true ↔ t.session.io ≠ .none
  threads : t.lost = true → t.session.io ≠ .none
  noticed : t.session.disconnector = .idle → t.session.io ≠ .none →
    t.session.connected = false → t.lost = true
  begun : (∃ a, t.session.connector = .attempt a) ∨ t.session.connector = .clearStopping →
    (t.begunLost = true ↔ t.session.io ≠ .none)
  published : t.session.connector = .clearStopping ∨ t.session.connector = .spawn →
    t.session.io = .none → t.session.connected = true
  joined : t.session.disconnector = .close → t.session.io = .none

theorem tracked_initial : initial.Tracked := by
  constructor <;> simp [initial, Session.initial]

variable {t : ThreadedSession} {maxAttempts : ℤ}

structure SameCalls (s s' : Session) : Prop where
  aborted : s'.aborted = s.aborted
  connector : s'.connector = s.connector
  disconnector : s'.disconnector = s.disconnector
  io : s'.io = .none ↔ s.io = .none

theorem SameCalls.of_connChange {s s' : Session} (h : Session.ConnChange s s') :
    SameCalls s s' := by
  rw [h.frame]
  exact ⟨rfl, rfl, rfl, Iff.rfl⟩

theorem Tracked.beside (h : t.Tracked) {s : Session} {lost : Bool} (hsame : SameCalls t.session s)
    (hlost : lost = true → s.io ≠ .none)
    (hnoticed : s.io ≠ .none → s.connected = false →
      lost = true ∨ t.session.connected = false ∧ lost = t.lost)
    (hpublished : s.io = .none → t.session.connected = true → s.connected = true) :
    Tracked { t with session := s, lost := lost } := by
  obtain ⟨haborted, hconnector, hdisconnector, hio⟩ := hsame
  have hio' : s.io ≠ .none ↔ t.session.io ≠ .none := not_congr hio
  constructor
  · exact haborted.trans h.running
  · exact h.apart.imp hconnector.trans hdisconnector.trans
  · exact h.shm.trans hio'.symm
  · exact hlost
  · intro hidle hjoinable hconnected
    rcases hnoticed hjoinable hconnected with hyes | ⟨hbefore, heq⟩
    · exact hyes
    · exact heq.trans (h.noticed (hdisconnector.symm.trans hidle) (hio'.mp hjoinable) hbefore)
  · intro hpc
    dsimp only at hpc ⊢
    rw [hconnector] at hpc
    exact (h.begun hpc).trans hio'.symm
  · intro hpc hnone
    dsimp only at hpc hnone ⊢
    rw [hconnector] at hpc
    exact hpublished hnone (h.published hpc (hio.mp hnone))
  · intro hpc
    exact hio.mpr (h.joined (hdisconnector.symm.trans hpc))

theorem SameCalls.ioStep (maxAttempts : ℤ) (s : Session) (ev : IoEvent) :
    SameCalls s (s.ioStep maxAttempts ev) := by
  unfold Session.ioStep
  split
  · next hio =>
      refine ⟨rfl, rfl, rfl, ?_⟩
      simp [Session.register, hio]
  · next hio =>
      split_ifs
      · exact ⟨rfl, rfl, rfl, by simp [hio]⟩
      · exact ⟨rfl, rfl, rfl, Iff.rfl⟩
  · next m hio =>
      split_ifs
      · unfold Session.receive
        split_ifs
        · cases m with
          | taken => exact ⟨rfl, rfl, rfl, Iff.rfl⟩
          | timedOut => exact ⟨rfl, rfl, rfl, Iff.rfl⟩
          | closed => exact ⟨rfl, rfl, rfl, by simp [hio]⟩
          | refused => exact .of_connChange (.closeConn s)
        · exact ⟨rfl, rfl, rfl, Iff.rfl⟩
      · exact ⟨rfl, rfl, rfl, Iff.rfl⟩
  · next hio => exact ⟨rfl, rfl, rfl, by simp [hio]⟩
  · next hio => exact ⟨rfl, rfl, rfl, by simp [hio]⟩
  · next hio =>
      obtain ⟨haborted, hconnector, hdisconnector, -⟩ :=
        SameCalls.of_connChange (Session.ConnChange.closeConn s)
      exact ⟨haborted, hconnector, hdisconnector, by simp [hio]⟩
  · next hio =>
      refine ⟨rfl, rfl, rfl, ?_⟩
      dsimp only
      split_ifs <;> simp [hio]
  · next hio =>
      split_ifs <;> exact ⟨rfl, rfl, rfl, by simp [hio]⟩
  · exact ⟨rfl, rfl, rfl, Iff.rfl⟩

/-- The io thread clears the flag when it has lost the connection, and never else. -/
theorem connected_ioStep (maxAttempts : ℤ) (s : Session) (ev : IoEvent) :
    (s.ioStep maxAttempts ev).connected = s.connected ∨ s.io = .lost ∧ ev = .advance := by
  unfold Session.ioStep
  split
  · exact .inl rfl
  · split_ifs <;> exact .inl rfl
  · next m _ =>
      split_ifs
      · unfold Session.receive
        split_ifs
        · cases m with
          | taken => exact .inl rfl
          | timedOut => exact .inl rfl
          | closed => exact .inl rfl
          | refused => exact .inl (Session.ConnChange.closeConn s).connected
        · exact .inl rfl
      · exact .inl rfl
  · exact .inl rfl
  · next hio => exact .inr ⟨hio, rfl⟩
  · exact .inl (Session.ConnChange.closeConn s).connected
  · exact .inl rfl
  · split_ifs <;> exact .inl rfl
  · exact .inl rfl

theorem Tracked.ioStep (h : t.Tracked) (ev : IoEvent) : (t.ioStep maxAttempts ev).Tracked := by
  have hsame := SameCalls.ioStep maxAttempts t.session ev
  refine h.beside hsame ?_ ?_ ?_
  · intro hlost
    rw [Bool.or_eq_true, decide_eq_true_eq] at hlost
    refine mt hsame.io.mp ?_
    rcases hlost with hlost | ⟨hio, -⟩
    · exact h.threads hlost
    · rw [hio]
      decide
  · intro _ hconnected
    rcases connected_ioStep maxAttempts t.session ev with heq | hloses
    · by_cases hloses : t.session.io = .lost ∧ ev = .advance
      · exact .inl (by simp [hloses])
      · exact .inr ⟨heq.symm.trans hconnected, by simp [hloses]⟩
    · exact .inl (by simp [hloses])
  · intro hnone hconnected
    rcases connected_ioStep maxAttempts t.session ev with heq | ⟨hio, -⟩
    · exact heq.trans hconnected
    · have hthread := hsame.io.mp hnone
      rw [hio] at hthread
      cases hthread

theorem SameCalls.attemptStep (s : Session) {a : Attempt} (ha : a ≠ .publish) (o : Outcome) :
    SameCalls s (s.attemptStep a o).1 :=
  .of_connChange (Session.ConnChange.attemptStep s ha o).1

theorem Tracked.reconnectStep (h : t.Tracked) (o : Outcome) :
    (t.reconnectStep maxAttempts o).Tracked := by
  have hkeep : ∀ s : Session, SameCalls t.session s → s.connected = t.session.connected →
      Tracked { t with session := s } := by
    intro s hsame hconnected
    exact h.beside hsame (fun hlost => mt hsame.io.mp (h.threads hlost))
      (fun _ hoff => .inr ⟨hconnected.symm.trans hoff, rfl⟩) fun _ hon => hconnected.trans hon
  unfold ThreadedSession.reconnectStep Session.reconnectStep
  cases hpc : t.session.reconnector with
  | none => exact h
  | check attempts =>
      dsimp only
      split_ifs <;> exact hkeep _ ⟨rfl, rfl, rfl, Iff.rfl⟩ rfl
  | sleep attempts => exact hkeep _ ⟨rfl, rfl, rfl, Iff.rfl⟩ rfl
  | attempt attempts a =>
      by_cases ha : a = .publish
      · subst ha
        have hrestored : Tracked { t with
            session := { t.session with connected := true, reconnector := .ending }
            lost := false } :=
          h.beside ⟨rfl, rfl, rfl, Iff.rfl⟩ (fun hlost => by cases hlost)
            (fun _ hoff => by cases hoff) fun _ _ => rfl
        exact hrestored
      · obtain ⟨haborted, hconnector, hdisconnector, hio⟩ := SameCalls.attemptStep t.session ha o
        have hconnected := (Session.ConnChange.attemptStep t.session ha o).1.connected
        have hstep := hkeep { (t.session.attemptStep a o).1 with
          reconnector := .after attempts (t.session.attemptStep a o).2 }
          ⟨haborted, hconnector, hdisconnector, hio⟩ hconnected
        cases a with
        | publish => exact absurd rfl ha
        | resolve => exact hstep
        | socket => exact hstep
        | link => exact hstep
        | mark => exact hstep
        | hello => exact hstep
        | welcome => exact hstep
        | notify => exact hstep
  | ending => exact hkeep _ ⟨rfl, rfl, rfl, Iff.rfl⟩ rfl

theorem Tracked.attemptStep (h : t.Tracked) {a : Attempt} (hpc : t.session.connector = .attempt a)
    (ha : a ≠ .publish) (o : Outcome) :
    Tracked { t with
      session := { (t.session.attemptStep a o).1 with
        connector := ConnectPc.after (t.session.attemptStep a o).2 } } := by
  have hidle : t.session.disconnector = .idle := h.apart.resolve_left (by simp [hpc])
  obtain ⟨hchange, hgoesOn⟩ := Session.ConnChange.attemptStep t.session ha o
  have hsame := SameCalls.of_connChange hchange
  have hafter : ConnectPc.after (t.session.attemptStep a o).2 ≠ .clearStopping ∧
      ConnectPc.after (t.session.attemptStep a o).2 ≠ .spawn := by
    cases hprogress : (t.session.attemptStep a o).2 with
    | next b => exact ⟨by simp [ConnectPc.after], by simp [ConnectPc.after]⟩
    | failed => exact ⟨by simp [ConnectPc.after], by simp [ConnectPc.after]⟩
    | done => exact absurd hprogress hgoesOn
  have hio : (t.session.attemptStep a o).1.io ≠ .none ↔ t.session.io ≠ .none :=
    not_congr hsame.io
  constructor
  · exact hsame.aborted.trans h.running
  · exact .inr (hsame.disconnector.trans hidle)
  · exact h.shm.trans hio.symm
  · exact fun hlost => hio.mpr (h.threads hlost)
  · intro _ hjoinable hoff
    exact h.noticed hidle (hio.mp hjoinable) (hchange.connected.symm.trans hoff)
  · exact fun _ => (h.begun (.inl ⟨a, hpc⟩)).trans hio.symm
  · rintro (hpc' | hpc')
    · exact absurd hpc' hafter.1
    · exact absurd hpc' hafter.2
  · intro hclose
    exact absurd (hidle.symm.trans (hsame.disconnector.symm.trans hclose)) (by decide)

theorem Tracked.connectStep (h : t.Tracked) (hfree : t.FreeThreads) (o : Outcome) :
    (t.connectStep o).Tracked := by
  unfold ThreadedSession.connectStep Session.connectStep
  cases hpc : t.session.connector with
  | idle => exact h
  | check =>
      have hidle : t.session.disconnector = .idle := h.apart.resolve_left (by rw [hpc]; decide)
      refine ⟨h.running, .inr hidle, h.shm, h.threads, h.noticed, ?_, ?_, h.joined⟩
      · intro hbegun
        dsimp only at hbegun ⊢
        split_ifs at hbegun with hconnected
        · simp at hbegun
        · exact ⟨h.threads,
            fun hjoinable => h.noticed hidle hjoinable (Bool.eq_false_iff.mpr hconnected)⟩
      · intro hstarts
        dsimp only at hstarts
        split_ifs at hstarts <;> simp at hstarts
  | attempt a =>
      have hidle : t.session.disconnector = .idle := h.apart.resolve_left (by simp [hpc])
      have hbegun := h.begun (.inl ⟨a, hpc⟩)
      by_cases ha : a = .publish
      · subst ha
        exact ⟨h.running, .inr hidle, h.shm, h.threads, (fun _ _ hoff => by cases hoff),
          fun _ => hbegun, fun _ _ => rfl, h.joined⟩
      · exact h.attemptStep hpc ha o
  | clearStopping =>
      have hidle : t.session.disconnector = .idle := h.apart.resolve_left (by rw [hpc]; decide)
      exact ⟨h.running, .inr hidle, h.shm, h.threads, h.noticed, fun hbegun => by simp at hbegun,
        fun _ => h.published (.inl hpc), h.joined⟩
  | spawn =>
      have hidle : t.session.disconnector = .idle := h.apart.resolve_left (by rw [hpc]; decide)
      obtain ⟨hnone, hshm⟩ := hfree hpc
      have hconnected := h.published (.inr hpc) hnone
      have hlost : t.lost = false := by
        rw [← Bool.not_eq_true]
        exact fun hlost => h.threads hlost hnone
      simp only [hnone, hshm, if_true, Bool.false_eq_true, if_false]
      refine ⟨h.running, .inl rfl, by simp, by simp, ?_, by simp, by simp, ?_⟩
      · intro _ _ hoff
        exact absurd (hconnected.symm.trans hoff) (by decide)
      · intro hclose
        exact absurd (hidle.symm.trans hclose) (by decide)

theorem Tracked.disconnectStep (h : t.Tracked) : t.disconnectStep.Tracked := by
  unfold ThreadedSession.disconnectStep Session.disconnectStep
  cases hpc : t.session.disconnector with
  | idle =>
      simp only [hpc, reduceCtorEq, false_and, if_false]
      exact h
  | clear =>
      have hidle : t.session.connector = .idle := h.apart.resolve_right (by rw [hpc]; decide)
      simp only [reduceCtorEq, false_and, if_false]
      exact ⟨h.running, .inl hidle, h.shm, h.threads, by simp, h.begun, by simp [hidle], by simp⟩
  | join =>
      have hidle : t.session.connector = .idle := h.apart.resolve_right (by rw [hpc]; decide)
      by_cases hended : t.session.io = .none ∨ t.session.io = .finished
      · simp only [if_pos hended, and_self, if_true]
        exact ⟨h.running, .inl hidle, by simp, by simp, by simp, by simp [hidle], by simp [hidle],
          by simp⟩
      · simp only [if_neg hended, hpc, reduceCtorEq, and_false, if_false]
        exact h
  | close =>
      have hidle : t.session.connector = .idle := h.apart.resolve_right (by rw [hpc]; decide)
      have hnone := h.joined hpc
      have hchange := Session.ConnChange.closeConn t.session
      have hsame := SameCalls.of_connChange hchange
      have hio : t.session.closeConn.io = .none := hsame.io.mpr hnone
      have hconnector : t.session.closeConn.connector = .idle := hsame.connector.trans hidle
      simp only [reduceCtorEq, false_and, if_false]
      exact ⟨hsame.aborted.trans h.running, .inl hconnector,
        h.shm.trans (not_congr (by simp [hio, hnone])),
        fun hlost => absurd hnone (h.threads hlost), fun _ hjoinable => absurd hio hjoinable,
        by simp [hconnector], by simp [hconnector], by simp⟩

theorem Tracked.step (h : t.Tracked) (hfree : t.FreeThreads) (ev : Event) :
    (t.step maxAttempts ev).Tracked := by
  unfold ThreadedSession.step
  split_ifs with hskip
  · exact h
  · have hrunning : ¬t.session.aborted = true := by
      rw [h.running]
      decide
    have hapart : ¬t.overlaps ev = true := fun hoverlaps => hskip (by simp [hoverlaps])
    cases ev with
    | connector o => exact h.connectStep hfree o
    | reconnector o => exact h.reconnectStep o
    | io ev => exact h.ioStep ev
    | disconnector => exact h.disconnectStep
    | connect =>
        have hidle : t.session.disconnector = .idle := by simpa [overlaps] using hapart
        simp only [Session.step, if_neg hrunning]
        split_ifs with hconnector
        · exact ⟨h.running, .inr hidle, h.shm, h.threads, h.noticed, by simp, by simp, h.joined⟩
        · exact h
    | disconnect =>
        have hidle : t.session.connector = .idle := by simpa [overlaps] using hapart
        simp only [Session.step, if_neg hrunning]
        split_ifs with hdisconnector
        · exact ⟨h.running, .inl hidle, h.shm, h.threads, by simp, h.begun, h.published, by simp⟩
        · exact h

theorem clearStopping_of_spawn (hfree : t.FreeThreads) {o : Outcome}
    (hspawn : (t.connectStep o).session.connector = .spawn) :
    t.session.connector = .clearStopping := by
  unfold ThreadedSession.connectStep Session.connectStep at hspawn
  cases hpc : t.session.connector with
  | idle => simp [hpc] at hspawn
  | check =>
      simp only [hpc] at hspawn
      split_ifs at hspawn
  | attempt a =>
      simp only [hpc] at hspawn
      cases hprogress : (t.session.attemptStep a o).2 <;>
        simp [hprogress, ConnectPc.after] at hspawn
  | clearStopping => rfl
  | spawn =>
      obtain ⟨hnone, hshm⟩ := hfree hpc
      simp [hpc, hnone, hshm] at hspawn

/-- Having come to its threads, it finds none exactly when it did not begin with a lost
connection. -/
theorem freeThreads_connectStep_iff (h : t.Tracked) (hfree : t.FreeThreads) (o : Outcome) :
    (t.connectStep o).FreeThreads ↔
      ¬(t.session.connector = .clearStopping ∧ t.begunLost = true) := by
  by_cases hpc : t.session.connector = .clearStopping
  · have hbegun := h.begun (.inr hpc)
    have hstep : t.connectStep o =
        { t with session := { t.session with stopping := false, connector := .spawn } } := by
      simp only [ThreadedSession.connectStep, Session.connectStep, hpc]
    rw [hstep, and_iff_right hpc, hbegun, not_not]
    constructor
    · exact fun hnext => (hnext rfl).1
    · refine fun hnone _ => ⟨hnone, ?_⟩
      rw [← Bool.not_eq_true, h.shm, not_not]
      exact hnone
  · exact iff_of_true (fun hspawn => absurd (clearStopping_of_spawn hfree hspawn) hpc)
      fun hstarts => hpc hstarts.1

theorem FreeThreads.beside (hfree : t.FreeThreads) {s : Session} {lost : Bool}
    (hsame : SameCalls t.session s) : FreeThreads { t with session := s, lost := lost } := by
  intro hspawn
  obtain ⟨hnone, hshm⟩ := hfree (hsame.connector.symm.trans hspawn)
  exact ⟨hsame.io.mpr hnone, hshm⟩

theorem SameCalls.reconnectStep (maxAttempts : ℤ) (s : Session) (o : Outcome) :
    SameCalls s (s.reconnectStep maxAttempts o) := by
  unfold Session.reconnectStep
  split
  · exact ⟨rfl, rfl, rfl, Iff.rfl⟩
  · split_ifs <;> exact ⟨rfl, rfl, rfl, Iff.rfl⟩
  · exact ⟨rfl, rfl, rfl, Iff.rfl⟩
  · next attempts a _ =>
      by_cases ha : a = .publish
      · subst ha
        exact ⟨rfl, rfl, rfl, Iff.rfl⟩
      · obtain ⟨haborted, hconnector, hdisconnector, hio⟩ := SameCalls.attemptStep s ha o
        exact ⟨haborted, hconnector, hdisconnector, hio⟩
  · exact ⟨rfl, rfl, rfl, Iff.rfl⟩

theorem connector_disconnectStep (t : ThreadedSession) :
    t.disconnectStep.session.connector = t.session.connector := by
  have hsession : t.session.disconnectStep.connector = t.session.connector := by
    unfold Session.disconnectStep
    split
    · rfl
    · rfl
    · split_ifs <;> rfl
    · exact (SameCalls.of_connChange (Session.ConnChange.closeConn t.session)).connector
  unfold ThreadedSession.disconnectStep
  dsimp only
  split_ifs <;> exact hsession

/-- A step keeps the threads free exactly when it does not start some on a lost
connection. -/
theorem freeThreads_step_iff (h : t.Tracked) (hfree : t.FreeThreads) (ev : Event) :
    (t.step maxAttempts ev).FreeThreads ↔ ¬t.StartsLost ev := by
  unfold ThreadedSession.step
  split_ifs with hskip
  · refine iff_of_true hfree ?_
    rintro ⟨⟨o, rfl⟩, -, -⟩
    rw [h.running] at hskip
    exact absurd hskip (by simp [overlaps])
  · have hrunning : ¬t.session.aborted = true := by
      rw [h.running]
      decide
    have hapart : ¬t.overlaps ev = true := fun hoverlaps => hskip (by simp [hoverlaps])
    cases ev with
    | connector o =>
        have hstarts : t.StartsLost (.connector o) ↔
            t.session.connector = .clearStopping ∧ t.begunLost = true :=
          and_iff_right ⟨o, rfl⟩
        rw [hstarts]
        exact freeThreads_connectStep_iff h hfree o
    | reconnector o =>
        exact iff_of_true (hfree.beside (.reconnectStep maxAttempts t.session o))
          (by simp [StartsLost])
    | io ev =>
        exact iff_of_true (hfree.beside (.ioStep maxAttempts t.session ev)) (by simp [StartsLost])
    | disconnector =>
        refine iff_of_true ?_ (by simp [StartsLost])
        rcases h.apart with hidle | hidle
        · intro hspawn
          have hconnector := connector_disconnectStep t
          rw [hspawn, hidle] at hconnector
          cases hconnector
        · have hstay : t.disconnectStep = t := by
            simp [ThreadedSession.disconnectStep, Session.disconnectStep, hidle]
          dsimp only
          rwa [hstay]
    | connect =>
        refine iff_of_true (fun hspawn => ?_) (by simp [StartsLost])
        simp only [Session.step, if_neg hrunning] at hspawn ⊢
        split_ifs at hspawn ⊢
        exact hfree hspawn
    | disconnect =>
        have hidle : t.session.connector = .idle := by simpa [overlaps] using hapart
        refine iff_of_true (fun hspawn => ?_) (by simp [StartsLost])
        simp only [Session.step, if_neg hrunning] at hspawn
        split_ifs at hspawn <;> simp [hidle] at hspawn

/-- Wherever `connect()` starts its threads it has none, in every run in which no call of
`connect()` that met a lost connection succeeds, and in no other run. -/
theorem freeThreads_run_iff (maxAttempts : ℤ) (evs : List Event) :
    (∀ before, before <+: evs → (run (step maxAttempts) initial before).FreeThreads) ↔
      Guarded (step maxAttempts) (fun t ev => ¬t.StartsLost ev) initial evs :=
  forall_prefix_iff_guarded (I := FreeThreads) (J := Tracked) (P := fun _ => True)
    (fun _ ev _ htracked hfree _ => htracked.step hfree ev)
    (fun _ ev _ htracked hfree => freeThreads_step_iff htracked hfree ev) tracked_initial
    (fun hspawn => by cases hspawn) fun _ _ => trivial

/-- A call of `connect()` that succeeds, up to its threads. -/
def succeed : List Event := .connect :: List.replicate 10 (.connector .ok)

/-- The proxy connects, the daemon goes away, and the proxy connects again. -/
theorem not_freeThreads_second_connect :
    ¬∀ (maxAttempts : ℤ) (evs : List Event), (run (step maxAttempts) initial evs).FreeThreads := by
  intro hlaw
  have hfree := hlaw 0 (succeed ++ [.connector .ok, .io (.register true), .io .hangUp,
    .io .advance, .io .advance, .io .advance] ++ succeed)
  exact absurd (hfree (by decide)).1 (by decide)

end ThreadedSession

end SessionLifecycle

end Proxy

end Shinigami
