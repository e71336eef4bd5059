import Shinigami.Proxy.SessionLifecycle

/-!
# What is left after `disconnect()`

`disconnect()` stops the threads that look at `stopping_`: the io thread, and a reconnect
thread before it begins an attempt. An attempt that is under way goes on, up to a
connection of its own, and so does a call of `connect()`. When neither is under way, and no
descriptor of an open socket has been overwritten, `disconnect()` is final.
-/

namespace Shinigami

namespace Proxy

namespace SessionLifecycle

def ReconnectPc.trying : ReconnectPc → Bool
  | .sleep _ | .attempt .. => true
  | _ => false

namespace Session

/-- Once `disconnect()` has returned and until `connect()` is called, the proxy is not
connected and has no open socket. -/
def DisconnectFinal (s : Session) : Prop :=
  s.final = true → s.connected = false ∧ s.sockets = ∅

/-- The event is a call of `socket()`. -/
def callsSocket (s : Session) : Event → Bool
  | .connector _ => !s.linked && decide (s.connector = .attempt .socket)
  | .reconnector _ =>
      !s.linked &&
        match s.reconnector with
        | .attempt _ .socket => true
        | _ => false
  | _ => false

/-- No attempt is under way when `disconnect()` is called, `connect()` is not called before
it returns, and no open socket is overwritten. -/
structure Apart (s : Session) (ev : Event) : Prop where
  quiet : ev = .disconnect → s.disconnector = .idle →
    s.connector = .idle ∧ s.reconnector.trying = false
  connects : ev = .connect → s.connector = .idle → s.disconnector = .idle
  replaces : s.callsSocket ev = true → s.fd = none

def SocketHeld (s : Session) : Prop := ∀ d ∈ s.sockets, s.fd = some d

structure Orderly (s : Session) : Prop where
  held : s.SocketHeld
  ended : s.disconnector ≠ .idle ∨ s.final = true →
    s.stopping = true ∧ s.connector = .idle ∧ s.reconnector.trying = false
  dropped : s.disconnector = .join ∨ s.disconnector = .close ∨ s.final = true →
    s.connected = false
  closed : s.final = true → s.fd = none

theorem orderly_initial : initial.Orderly := by
  constructor <;> simp [initial, SocketHeld]

section Steps

variable {s : Session} {maxAttempts : ℤ}

theorem SocketHeld.eq_empty (h : s.SocketHeld) (hfd : s.fd = none) : s.sockets = ∅ := by
  refine Finset.eq_empty_of_forall_notMem fun d hd => ?_
  have hsome := h d hd
  rw [hfd] at hsome
  cases hsome

theorem SocketHeld.closeFd (h : s.SocketHeld) : s.closeFd.SocketHeld := by
  unfold Session.closeFd
  split
  · exact h
  · next d hfd =>
      intro d' hd'
      obtain ⟨hne, hmem⟩ := Finset.mem_erase.mp hd'
      exact absurd (Option.some.inj ((h d' hmem).symm.trans hfd)) hne

theorem SocketHeld.closeConn (h : s.SocketHeld) : s.closeConn.SocketHeld := h.closeFd

theorem SocketHeld.attemptStep (h : s.SocketHeld) {a : Attempt}
    (hsocket : a = .socket → s.linked = false → s.fd = none) (o : Outcome) :
    (s.attemptStep a o).1.SocketHeld := by
  cases a with
  | resolve =>
      simp only [Session.attemptStep]
      split_ifs <;> exact h
  | socket =>
      simp only [Session.attemptStep, Session.openSocket]
      split_ifs with hlinked
      · exact h
      · have hempty := h.eq_empty (hsocket rfl (Bool.eq_false_iff.mpr hlinked))
        intro d hd
        rw [hempty, Finset.mem_insert] at hd
        rcases hd with rfl | hd
        · rfl
        · exact absurd hd (Finset.notMem_empty d)
      · have hempty := h.eq_empty (hsocket rfl (Bool.eq_false_iff.mpr hlinked))
        intro d hd
        rw [hempty] at hd
        exact absurd hd (Finset.notMem_empty d)
  | link =>
      simp only [Session.attemptStep]
      split_ifs
      · exact h
      · exact h.closeFd
  | mark => exact h
  | hello =>
      simp only [Session.attemptStep]
      split_ifs
      · exact h
      · exact h.closeConn
  | welcome =>
      simp only [Session.attemptStep, recvWelcome]
      split_ifs
      · cases o with
        | ok => exact h
        | fails => exact h
        | refused => exact h.closeConn
      · exact h
  | notify =>
      simp only [Session.attemptStep]
      split_ifs
      · exact h
      · exact h.closeConn
  | publish => exact h

theorem attemptStep_frame (s : Session) (a : Attempt) (o : Outcome) :
    (s.attemptStep a o).1.disconnector = s.disconnector ∧
      (s.attemptStep a o).1.final = s.final := by
  by_cases ha : a = .publish
  · subst ha
    exact ⟨rfl, rfl⟩
  · obtain ⟨hc, -⟩ := ConnChange.attemptStep s ha o
    constructor <;> rw [hc.frame]

/-- A state with no `disconnect()` in it is orderly as far as its sockets are. -/
theorem orderly_of_held (h : s.SocketHeld) (hidle : s.disconnector = .idle)
    (hfinal : s.final = false) : s.Orderly where
  held := h
  ended hcause := by simp [hidle, hfinal] at hcause
  dropped hcause := by simp [hidle, hfinal] at hcause
  closed hcause := absurd (hfinal.symm.trans hcause) nofun

theorem Orderly.no_disconnect (h : s.Orderly)
    (hbusy : s.connector ≠ .idle ∨ s.reconnector.trying = true) :
    s.disconnector = .idle ∧ s.final = false := by
  have hcause : ¬(s.disconnector ≠ .idle ∨ s.final = true) := by
    intro hcause
    obtain ⟨-, hconnector, htrying⟩ := h.ended hcause
    rcases hbusy with hbusy | hbusy
    · exact hbusy hconnector
    · exact absurd (htrying.symm.trans hbusy) nofun
  rw [not_or, not_not, Bool.not_eq_true] at hcause
  exact hcause

theorem Orderly.connectStep (h : s.Orderly) (o : Outcome)
    (hsocket : s.connector = .attempt .socket → s.linked = false → s.fd = none) :
    (s.connectStep o).Orderly := by
  by_cases hpc : s.connector = .idle
  · unfold Session.connectStep
    rw [hpc]
    exact h
  obtain ⟨hidle, hfinal⟩ := h.no_disconnect (.inl hpc)
  unfold Session.connectStep
  split
  · exact h
  · exact orderly_of_held h.held hidle hfinal
  · next a ha =>
      obtain ⟨hdisconnector, hfinal'⟩ := attemptStep_frame s a o
      have hheld : (s.attemptStep a o).1.SocketHeld :=
        h.held.attemptStep (fun heq => hsocket (by rw [ha, heq])) o
      exact orderly_of_held hheld (hdisconnector.trans hidle) (hfinal'.trans hfinal)
  · exact orderly_of_held h.held hidle hfinal
  · split_ifs
    · exact orderly_of_held h.held hidle hfinal
    · exact orderly_of_held h.held hidle hfinal

theorem Orderly.setReconnector (h : s.Orderly) {pc : ReconnectPc} (hpc : pc.trying = false) :
    Orderly { s with reconnector := pc } where
  held := h.held
  ended hcause := ⟨(h.ended hcause).1, (h.ended hcause).2.1, hpc⟩
  dropped := h.dropped
  closed := h.closed

theorem Orderly.reconnectStep (h : s.Orderly) (o : Outcome)
    (hsocket : ∀ attempts, s.reconnector = .attempt attempts .socket → s.linked = false →
      s.fd = none) : (s.reconnectStep maxAttempts o).Orderly := by
  unfold Session.reconnectStep
  split
  · exact h
  · split_ifs with hend
    · exact h.setReconnector rfl
    · -- The proxy is not stopping, so no `disconnect()` has come so far.
      have hstopping : ¬s.stopping = true := fun hstopping => hend (.inl hstopping)
      have hcause : ¬(s.disconnector ≠ .idle ∨ s.final = true) :=
        fun hcause => hstopping (h.ended hcause).1
      rw [not_or, not_not, Bool.not_eq_true] at hcause
      exact orderly_of_held h.held hcause.1 hcause.2
  · next hpc =>
      obtain ⟨hidle, hfinal⟩ := h.no_disconnect (.inr (by rw [hpc]; rfl))
      exact orderly_of_held h.held hidle hfinal
  · next attempts a hpc =>
      obtain ⟨hidle, hfinal⟩ := h.no_disconnect (.inr (by rw [hpc]; rfl))
      obtain ⟨hdisconnector, hfinal'⟩ := attemptStep_frame s a o
      have hheld : (s.attemptStep a o).1.SocketHeld :=
        h.held.attemptStep (fun heq => hsocket attempts (by rw [hpc, heq])) o
      exact orderly_of_held hheld (hdisconnector.trans hidle) (hfinal'.trans hfinal)
  · have hnone : Orderly { s with reconnector := .none } := h.setReconnector rfl
    exact ⟨hnone.held, hnone.ended, hnone.dropped, hnone.closed⟩

theorem Orderly.closeConn (h : s.Orderly) : s.closeConn.Orderly := by
  have hc := ConnChange.closeConn s
  have hheld := h.held.closeConn
  have hfd := fd_closeConn s
  rw [hc.frame] at hheld hfd ⊢
  exact ⟨hheld, h.ended, h.dropped, fun _ => hfd⟩

theorem Orderly.setIo (h : s.Orderly) (pc : IoPc) : Orderly { s with io := pc } :=
  ⟨h.held, h.ended, h.dropped, h.closed⟩

theorem Orderly.setLinked (h : s.Orderly) (linked : Bool) :
    Orderly { s with linked := linked } :=
  ⟨h.held, h.ended, h.dropped, h.closed⟩

theorem Orderly.drop (h : s.Orderly) : Orderly { s with connected := false } :=
  ⟨h.held, h.ended, fun _ => rfl, h.closed⟩

theorem Orderly.ioStep (h : s.Orderly) (ev : IoEvent) : (s.ioStep maxAttempts ev).Orderly := by
  unfold Session.ioStep
  split
  · exact ⟨h.held, h.ended, h.dropped, h.closed⟩
  · split_ifs
    · exact h.setIo .lost
    · exact h
  · split_ifs
    · unfold Session.receive
      split_ifs
      · split
        · exact h
        · exact h.setLinked false
        · exact (h.setLinked false).setIo .lost
        · exact h.closeConn
      · exact h
    · exact h
  · exact h.setIo .finished
  · exact h.drop.setIo .closing
  · exact h.closeConn.setIo .restarting
  · exact h.setIo _
  · split_ifs
    · exact h.setIo .loop
    · have hcheck : Orderly { s with reconnector := .check 0 } := h.setReconnector rfl
      exact ⟨hcheck.held, hcheck.ended, hcheck.dropped, hcheck.closed⟩
  · exact h

theorem Orderly.disconnectStep (h : s.Orderly) : s.disconnectStep.Orderly := by
  unfold Session.disconnectStep
  split
  · exact h
  · next hpc =>
      have hended := h.ended (.inl (by simp [hpc]))
      exact ⟨h.held, fun _ => hended, fun _ => rfl, h.closed⟩
  · next hpc =>
      have hended := h.ended (.inl (by simp [hpc]))
      have hdropped := h.dropped (.inl hpc)
      split_ifs
      · exact ⟨h.held, fun _ => hended, fun _ => hdropped, h.closed⟩
      · exact h
  · next hpc =>
      have hc := ConnChange.closeConn s
      have hclosed := h.closeConn
      have hdisconnector : s.closeConn.disconnector = .close := by rw [hc.frame, hpc]
      have hended := hclosed.ended (.inl (by simp [hdisconnector]))
      have hdropped := hclosed.dropped (.inr (.inl hdisconnector))
      exact ⟨hclosed.held, fun _ => hended, fun _ => hdropped, fun _ => fd_closeConn s⟩

theorem Orderly.step (h : s.Orderly) {ev : Event} (hapart : s.Apart ev) :
    (s.step maxAttempts ev).Orderly := by
  by_cases haborted : s.aborted = true
  · rwa [step_of_aborted haborted]
  unfold Session.step
  rw [if_neg haborted]
  cases ev with
  | connect =>
      dsimp only
      split_ifs with hidle
      · exact orderly_of_held h.held (hapart.connects rfl hidle) rfl
      · exact h
  | connector o =>
      refine h.connectStep o fun hpc hlinked => hapart.replaces ?_
      simp [callsSocket, hpc, hlinked]
  | reconnector o =>
      refine h.reconnectStep o fun attempts hpc hlinked => hapart.replaces ?_
      simp [callsSocket, hpc, hlinked]
  | io ev => exact h.ioStep ev
  | disconnect =>
      dsimp only
      split_ifs with hidle
      · obtain ⟨hconnector, htrying⟩ := hapart.quiet rfl hidle
        refine ⟨h.held, fun _ => ⟨rfl, hconnector, htrying⟩, fun hcause => ?_, h.closed⟩
        simp only [reduceCtorEq, false_or] at hcause
        exact h.dropped (.inr (.inr hcause))
      · exact h
  | disconnector => exact h.disconnectStep

theorem Orderly.disconnectFinal (h : s.Orderly) : s.DisconnectFinal :=
  fun hfinal => ⟨h.dropped (.inr (.inr hfinal)), h.held.eq_empty (h.closed hfinal)⟩

/-- In every run in which calls and attempts stay apart, `disconnect()` is final. -/
theorem disconnectFinal_run (maxAttempts : ℤ) {evs : List Event}
    (hapart : Guarded (Session.step maxAttempts) Apart initial evs) :
    ∀ before, before <+: evs →
      (run (Session.step maxAttempts) initial before).DisconnectFinal := by
  rintro before ⟨after, rfl⟩
  have hguarded := (guarded_append.mp hapart).1
  have horderly : (run (Session.step maxAttempts) initial before).Orderly :=
    run_invariant_of_guarded (fun _ _ hapart h => h.step hapart) orderly_initial hguarded
  exact horderly.disconnectFinal

end Steps

/-- A session that is connected and then disconnected. -/
def session : List Event :=
  .connect :: List.replicate 11 (.connector .ok) ++
    [.io (.register true), .disconnect, .disconnector, .io .exit, .disconnector, .disconnector]

instance (s : Session) (ev : Event) : Decidable (s.Apart ev) :=
  decidable_of_iff
    ((ev = .disconnect → s.disconnector = .idle →
        s.connector = .idle ∧ s.reconnector.trying = false) ∧
      (ev = .connect → s.connector = .idle → s.disconnector = .idle) ∧
      (s.callsSocket ev = true → s.fd = none))
    ⟨fun h => ⟨h.1, h.2.1, h.2.2⟩, fun h => ⟨h.quiet, h.connects, h.replaces⟩⟩

theorem disconnectFinal_run_session :
    Guarded (Session.step (-1)) Apart initial session ∧
      ∀ before, before <+: session →
        (run (Session.step (-1)) initial before).DisconnectFinal := by
  have hapart : Guarded (Session.step (-1)) Apart initial session := by decide
  exact ⟨hapart, disconnectFinal_run (-1) hapart⟩

/-- The connection is lost, and `disconnect()` is called while the reconnect thread sleeps;
then the thread goes on. -/
def lateReconnect : List Event :=
  .connect :: List.replicate 11 (.connector .ok) ++
    [.io (.register true), .io .hangUp, .io .advance, .io .advance, .io .advance, .io .advance,
      .reconnector .ok, .disconnect, .disconnector, .io .exit, .disconnector, .disconnector] ++
    List.replicate 9 (.reconnector .ok)

/-- The proxy connects after `disconnect()` has returned. -/
theorem late_reconnect_connects : ¬∀ maxAttempts evs, ∀ before, before <+: evs →
    (run (Session.step maxAttempts) initial before).DisconnectFinal := by
  intro hall
  have hfinal := hall (-1) lateReconnect _ List.prefix_rfl (by decide)
  exact absurd hfinal.1 (by decide)

end Session

end SessionLifecycle

end Proxy

end Shinigami
