import Shinigami.Proxy.SessionLifecycle

/-!
# Who listens to a connection

The io thread registers the socket that it finds when it starts, and no other. So a proxy
that is connected is listened to exactly as long as the io thread finds a socket that
`epoll_ctl` accepts, no thread comes to the end of `doConnect` while the io thread is in
its loop, as each reconnection that succeeds does, and the io thread refuses no message,
which closes the socket and leaves the proxy connected.
-/

namespace Shinigami

namespace Proxy

namespace SessionLifecycle

def IoPc.running : IoPc → Bool
  | .none | .started | .finished => false
  | _ => true

/-- `doDisconnect` has taken the connection for lost. -/
def IoPc.losing : IoPc → Bool
  | .closing | .restarting | .starting => true
  | _ => false

theorem IoPc.ne_of_running {pc : IoPc} (h : pc.running = true) :
    pc ≠ .none ∧ pc ≠ .started ∧ pc ≠ .finished := by
  cases pc <;> simp_all [IoPc.running]

theorem IoPc.running_of_losing {pc : IoPc} (h : pc.losing = true) : pc.running = true := by
  cases pc <;> simp_all [IoPc.running, IoPc.losing]

/-- The attempt has got past its call of `socket()`. -/
def Attempt.dialed : Attempt → Bool
  | .resolve | .socket => false
  | _ => true

def ConnectPc.attempting : ConnectPc → Bool
  | .attempt _ => true
  | _ => false

def ConnectPc.dialed : ConnectPc → Bool
  | .attempt a => a.dialed
  | _ => false

/-- `doConnect` has succeeded. -/
def ConnectPc.spawning : ConnectPc → Bool
  | .clearStopping | .spawn => true
  | _ => false

def ReconnectPc.dialed : ReconnectPc → Bool
  | .attempt _ a => a.dialed
  | _ => false

namespace Session

/-- While the io thread is in its loop, the socket of a connected proxy is in the epoll
set. -/
def ListenedTo (s : Session) : Prop :=
  s.io.running = true → s.connected = true → ∃ d, s.fd = some d ∧ d ∈ s.registered

/-- The event is the end of a `doConnect`. -/
def publishes (s : Session) : Event → Bool
  | .connector _ => !s.aborted && decide (s.connector = .attempt .publish)
  | .reconnector _ =>
      !s.aborted &&
        match s.reconnector with
        | .attempt _ .publish => true
        | _ => false
  | _ => false

def refuses (s : Session) : Event → Bool
  | .io (.message .refused) =>
      !s.aborted && decide (s.io = .loop) && decide s.registered.Nonempty && s.ready
  | _ => false

/-- What keeps the proxy listened to. -/
structure KeepsListening (s : Session) (ev : Event) : Prop where
  publishes : s.publishes ev = true → s.io.running = false
  registers : ∀ accepted, ev = .io (.register accepted) → s.aborted = false →
    s.io = .started → s.fd.isSome = true ∧ accepted = true
  refuses : s.refuses ev = true → s.connected = false

instance (s : Session) (ev : Event) : Decidable (s.KeepsListening ev) :=
  decidable_of_iff
    ((s.publishes ev = true → s.io.running = false) ∧
      (∀ accepted, ev = .io (.register accepted) → s.aborted = false →
        s.io = .started → s.fd.isSome = true ∧ accepted = true) ∧
      (s.refuses ev = true → s.connected = false))
    ⟨fun h => ⟨h.1, h.2.1, h.2.2⟩, fun h => ⟨h.publishes, h.registers, h.refuses⟩⟩

/-- What holds without a call of `disconnect()` as long as the proxy is listened to. -/
structure Unstopped (s : Session) : Prop where
  idle : s.disconnector = .idle
  opened : ∀ d, s.fd = some d ∨ d ∈ s.registered → d < s.opened
  unregistered : s.io = .none ∨ s.io = .started → s.registered = ∅
  started : s.io = .started → s.connected = true ∧ (s.connector = .idle ∨ s.connector = .check)
  spawning : s.connector.spawning = true →
    s.io = .none ∧ s.connected = true ∨ s.io = .finished
  reconnecting : s.reconnector ≠ .none → s.io ≠ .none ∧ s.io ≠ .started
  lost : s.io.running = true →
    s.io.losing = true ∨ s.connector.attempting = true ∨ s.reconnector ≠ .none →
    s.connected = false
  unlisted : s.io.running = true → s.connector.dialed = true ∨ s.reconnector.dialed = true →
    ∀ d, s.fd = some d → d ∉ s.registered

theorem unstopped_initial : initial.Unstopped := by
  constructor <;> simp [initial, ConnectPc.spawning, ConnectPc.attempting, ConnectPc.dialed,
    ReconnectPc.dialed, IoPc.running]

section Steps

variable {s s' : Session} {maxAttempts : ℤ}

theorem Unstopped.connChange (h : s.Unstopped) (hc : ConnChange s s') : s'.Unstopped := by
  have hopened : ∀ d, s'.fd = some d ∨ d ∈ s'.registered → d < s'.opened := by
    rintro d (hd | hd)
    · rcases hc.fd d hd with hd | ⟨-, hlt⟩
      · exact (h.opened d (.inl hd)).trans_le hc.opened
      · exact hlt
    · exact (h.opened d (.inr (hc.registered hd))).trans_le hc.opened
  rw [hc.frame]
  refine ⟨h.idle, hopened, fun hio => ?_, h.started, h.spawning, h.reconnecting, h.lost,
    fun hio hdialed d hd hmem => ?_⟩
  · exact Finset.subset_empty.mp (h.unregistered hio ▸ hc.registered)
  · rcases hc.fd d hd with hsame | ⟨rfl, -⟩
    · exact h.unlisted hio hdialed d hsame (hc.registered hmem)
    · exact absurd (h.opened _ (.inr (hc.registered hmem))) (Nat.lt_irrefl _)

theorem Unstopped.setFlags (h : s.Unstopped) (stopping reconnecting aborted final : Bool) :
    Unstopped { s with
      stopping := stopping
      reconnecting := reconnecting
      aborted := aborted
      final := final } where
  idle := h.idle
  opened := h.opened
  unregistered := h.unregistered
  started := h.started
  spawning := h.spawning
  reconnecting := h.reconnecting
  lost := h.lost
  unlisted := h.unlisted

theorem Unstopped.setConnector (h : s.Unstopped) {pc : ConnectPc}
    (hstarted : s.io = .started → pc = .idle ∨ pc = .check)
    (hspawning : pc.spawning = true → s.io = .none ∧ s.connected = true ∨ s.io = .finished)
    (hlost : s.io.running = true → pc.attempting = true → s.connected = false)
    (hunlisted : s.io.running = true → pc.dialed = true → ∀ d, s.fd = some d →
      d ∉ s.registered) :
    Unstopped { s with connector := pc } where
  idle := h.idle
  opened := h.opened
  unregistered := h.unregistered
  started hio := ⟨(h.started hio).1, hstarted hio⟩
  spawning := hspawning
  reconnecting := h.reconnecting
  lost hio hcause := by
    rcases hcause with hlosing | hattempting | hreconnecting
    · exact h.lost hio (.inl hlosing)
    · exact hlost hio hattempting
    · exact h.lost hio (.inr (.inr hreconnecting))
  unlisted hio hdialed := by
    rcases hdialed with hdialed | hdialed
    · exact hunlisted hio hdialed
    · exact h.unlisted hio (.inr hdialed)

theorem Unstopped.setReconnector (h : s.Unstopped) {pc : ReconnectPc}
    (hpc : pc ≠ .none → s.reconnector ≠ .none ∨ s.io.losing = true)
    (hunlisted : s.io.running = true → pc.dialed = true → ∀ d, s.fd = some d →
      d ∉ s.registered) :
    Unstopped { s with reconnector := pc } where
  idle := h.idle
  opened := h.opened
  unregistered := h.unregistered
  started := h.started
  spawning := h.spawning
  reconnecting hne := by
    rcases hpc hne with hreconnecting | hlosing
    · exact h.reconnecting hreconnecting
    · obtain ⟨hnone, hstarted, -⟩ := IoPc.ne_of_running (IoPc.running_of_losing hlosing)
      exact ⟨hnone, hstarted⟩
  lost hio hcause := by
    rcases hcause with hlosing | hattempting | hne
    · exact h.lost hio (.inl hlosing)
    · exact h.lost hio (.inr (.inl hattempting))
    · rcases hpc hne with hreconnecting | hlosing
      · exact h.lost hio (.inr (.inr hreconnecting))
      · exact h.lost hio (.inl hlosing)
  unlisted hio hdialed := by
    rcases hdialed with hdialed | hdialed
    · exact h.unlisted hio (.inl hdialed)
    · exact hunlisted hio hdialed

theorem Unstopped.setIo (h : s.Unstopped) {pc : IoPc} (hio : s.io.running = true)
    (hpc : pc.running = true ∨ pc = .finished) (hlost : pc.losing = true → s.connected = false) :
    Unstopped { s with io := pc } := by
  have hne : pc ≠ .none ∧ pc ≠ .started := by
    rcases hpc with hpc | rfl
    · obtain ⟨hnone, hstarted, -⟩ := IoPc.ne_of_running hpc
      exact ⟨hnone, hstarted⟩
    · exact ⟨nofun, nofun⟩
  obtain ⟨hnone', -, hfinished'⟩ := IoPc.ne_of_running hio
  refine ⟨h.idle, h.opened, fun hnone => ?_, fun hstarted => absurd hstarted hne.2,
    fun hspawning => ?_, fun _ => hne, fun _ hcause => ?_, fun _ => h.unlisted hio⟩
  · rcases hnone with hnone | hnone
    · exact absurd hnone hne.1
    · exact absurd hnone hne.2
  · rcases h.spawning hspawning with ⟨hnone, -⟩ | hfinished
    · exact absurd hnone hnone'
    · exact absurd hfinished hfinished'
  · rcases hcause with hlosing | hcause
    · exact hlost hlosing
    · exact h.lost hio (.inr hcause)

/-- An attempt that has called `socket()` holds a socket that is not in the epoll set. -/
theorem Unstopped.unlisted_next (h : s.Unstopped) {a a' : Attempt} {o : Outcome}
    (hstep : (s.attemptStep a o).2 = .next a') (ha' : a'.dialed = true)
    (hunlisted : a.dialed = true → ∀ d, s.fd = some d → d ∉ s.registered) :
    ∀ d, (s.attemptStep a o).1.fd = some d → d ∉ (s.attemptStep a o).1.registered := by
  have hkeep : a ≠ .publish → a.dialed = true → ∀ d, (s.attemptStep a o).1.fd = some d →
      d ∉ (s.attemptStep a o).1.registered := by
    intro ha hdialed d hd hmem
    obtain ⟨hc, -⟩ := ConnChange.attemptStep s ha o
    rcases hc.fd d hd with hsame | ⟨rfl, -⟩
    · exact hunlisted hdialed d hsame (hc.registered hmem)
    · exact absurd (h.opened _ (.inr (hc.registered hmem))) (Nat.lt_irrefl _)
  cases a with
  | resolve =>
      simp only [attemptStep] at hstep
      split_ifs at hstep
      · obtain rfl := Progress.next.inj hstep
        cases ha'
  | socket =>
      simp only [attemptStep, openSocket] at hstep ⊢
      split_ifs at hstep ⊢ with hlinked hok
      intro d hd hmem
      obtain rfl := Option.some.inj hd
      exact absurd (h.opened _ (.inr hmem)) (Nat.lt_irrefl _)
  | publish => cases hstep
  | _ => exact hkeep (by simp) rfl

theorem Unstopped.connectAttempt (h : s.Unstopped) {a : Attempt} (hpc : s.connector = .attempt a)
    (o : Outcome) (hpublish : a = .publish → s.io.running = false) :
    Unstopped { (s.attemptStep a o).1 with connector := .after (s.attemptStep a o).2 } := by
  have hnotstarted : s.io ≠ .started := by
    intro hio
    rcases (h.started hio).2 with heq | heq <;> simp [hpc] at heq
  by_cases ha : a = .publish
  · have hrunning := hpublish ha
    subst ha
    have hcause : s.io = .none ∨ s.io = .finished := by
      cases hio : s.io <;> simp_all [IoPc.running]
    refine ⟨h.idle, h.opened, h.unregistered, fun hio => absurd hio hnotstarted,
      fun _ => hcause.imp_left fun hnone => ⟨hnone, rfl⟩, h.reconnecting, fun hio => ?_,
      fun hio => ?_⟩
    · exact absurd (hrunning.symm.trans hio) nofun
    · exact absurd (hrunning.symm.trans hio) nofun
  · obtain ⟨hc, hdone⟩ := ConnChange.attemptStep s ha o
    have hio : (s.attemptStep a o).1.io = s.io := by rw [hc.frame]
    cases hnext : (s.attemptStep a o).2 with
    | next a' =>
        refine (h.connChange hc).setConnector
          (fun hs' => absurd (hio.symm.trans hs') hnotstarted) nofun (fun hrun _ => ?_)
          fun hrun hdialed => ?_
        · rw [hc.connected]
          exact h.lost (hio ▸ hrun) (.inr (.inl (by rw [hpc]; rfl)))
        · refine h.unlisted_next hnext hdialed fun hdialed' => ?_
          exact h.unlisted (hio ▸ hrun) (.inl (by rw [hpc]; exact hdialed'))
    | failed => exact (h.connChange hc).setConnector (fun _ => .inl rfl) nofun nofun nofun
    | done => exact absurd hnext hdone

theorem Unstopped.connectStep (h : s.Unstopped) (o : Outcome)
    (hpublish : s.connector = .attempt .publish → s.io.running = false) :
    (s.connectStep o).Unstopped := by
  unfold Session.connectStep
  split
  · exact h
  · next hpc =>
      split_ifs with hconnected
      · exact h.setConnector (fun _ => .inl rfl) nofun nofun nofun
      · refine h.setConnector (fun hio => ?_) nofun (fun _ _ => ?_) nofun
        · exact absurd (h.started hio).1 hconnected
        · exact Bool.eq_false_iff.mpr hconnected
  · next a hpc => exact h.connectAttempt hpc o fun ha => hpublish (ha ▸ hpc)
  · next hpc =>
      have hcause := h.spawning (by rw [hpc]; rfl)
      refine (h.setFlags false s.reconnecting s.aborted s.final).setConnector (fun hio => ?_)
        (fun _ => hcause) nofun nofun
      rcases hcause with ⟨hnone, -⟩ | hfinished
      · exact absurd (hnone.symm.trans hio) nofun
      · exact absurd (hfinished.symm.trans hio) nofun
  · next hpc =>
      have hcause := h.spawning (by rw [hpc]; rfl)
      split_ifs with hnone
      · have hconnected : s.connected = true := by
          rcases hcause with ⟨-, hconnected⟩ | hfinished
          · exact hconnected
          · exact absurd (hnone.symm.trans hfinished) nofun
        have hthread : s.reconnector = .none := by
          by_contra hne
          exact (h.reconnecting hne).1 hnone
        exact ⟨h.idle, h.opened, fun _ => h.unregistered (.inl hnone),
          fun _ => ⟨hconnected, .inl rfl⟩, nofun, fun hne => absurd hthread hne, nofun, nofun⟩
      · exact h.setFlags s.stopping s.reconnecting true s.final

theorem Unstopped.reconnectStep (h : s.Unstopped) (o : Outcome)
    (hpublish : ∀ attempts, s.reconnector = .attempt attempts .publish → s.io.running = false) :
    (s.reconnectStep maxAttempts o).Unstopped := by
  unfold Session.reconnectStep
  split
  · exact h
  · next attempts hpc =>
      split_ifs <;> exact h.setReconnector (fun _ => .inl (by simp [hpc])) nofun
  · next attempts hpc => exact h.setReconnector (fun _ => .inl (by simp [hpc])) nofun
  · next attempts a hpc =>
      have hthread : s.reconnector ≠ .none := by simp [hpc]
      by_cases ha : a = .publish
      · subst ha
        have hrunning := hpublish attempts hpc
        refine ⟨h.idle, h.opened, h.unregistered, fun hio => ⟨rfl, (h.started hio).2⟩,
          fun hspawning => (h.spawning hspawning).imp_left fun hnone => ⟨hnone.1, rfl⟩,
          fun _ => h.reconnecting hthread, fun hio => ?_, fun hio => ?_⟩
        · exact absurd (hrunning.symm.trans hio) nofun
        · exact absurd (hrunning.symm.trans hio) nofun
      · obtain ⟨hc, hdone⟩ := ConnChange.attemptStep s ha o
        have hio : (s.attemptStep a o).1.io = s.io := by rw [hc.frame]
        have hreconnector : (s.attemptStep a o).1.reconnector ≠ .none := by
          rw [hc.frame]
          exact hthread
        dsimp only
        cases hnext : (s.attemptStep a o).2 with
        | next a' =>
            refine (h.connChange hc).setReconnector (fun _ => .inl hreconnector)
              fun hrun hdialed => ?_
            refine h.unlisted_next hnext hdialed fun hdialed' => ?_
            exact h.unlisted (hio ▸ hrun) (.inr (by rw [hpc]; exact hdialed'))
        | failed => exact (h.connChange hc).setReconnector (fun _ => .inl hreconnector) nofun
        | done => exact absurd hnext hdone
  · exact (h.setFlags s.stopping false s.aborted s.final).setReconnector
      (fun hne => absurd rfl hne) nofun

theorem Unstopped.register (h : s.Unstopped) (hio : s.io = .started) (accepted : Bool) :
    (s.register accepted).Unstopped := by
  obtain ⟨-, hconnector⟩ := h.started hio
  have hthread : s.reconnector = .none := by
    by_contra hne
    exact (h.reconnecting hne).2 hio
  have hopened : ∀ d, s.fd = some d ∨ d ∈ (s.register accepted).registered → d < s.opened := by
    rintro d (hd | hd)
    · exact h.opened d (.inl hd)
    · simp only [Session.register] at hd
      split at hd
      · exact h.opened d (.inr hd)
      · next d' hfd =>
          split_ifs at hd
          · rcases Finset.mem_insert.mp hd with rfl | hd
            · exact h.opened d (.inl hfd)
            · exact h.opened d (.inr hd)
          · exact h.opened d (.inr hd)
  refine ⟨h.idle, hopened, fun hnone => ?_, nofun, fun hspawning => ?_,
    fun hne => absurd hthread hne, fun _ hcause => ?_, fun _ hdialed => ?_⟩
  · rcases hnone with hnone | hnone <;> cases hnone
  · rcases hconnector with heq | heq <;>
      simp [Session.register, heq, ConnectPc.spawning] at hspawning
  · rcases hconnector with heq | heq <;>
      simp [Session.register, heq, hthread, IoPc.losing, ConnectPc.attempting] at hcause
  · rcases hconnector with heq | heq <;>
      simp [Session.register, heq, hthread, ConnectPc.dialed, ReconnectPc.dialed] at hdialed

theorem Unstopped.receive (h : s.Unstopped) (hio : s.io.running = true) (m : Message) :
    (s.receive m).Unstopped := by
  unfold Session.receive
  split_ifs
  · cases m with
    | taken => exact h
    | timedOut => exact h.connChange (.setLinked s false)
    | closed => exact (h.connChange (.setLinked s false)).setIo hio (.inl rfl) nofun
    | refused => exact h.connChange (.closeConn s)
  · exact h

theorem Unstopped.lose (h : s.Unstopped) (hio : s.io.running = true) :
    Unstopped { s with connected := false } := by
  obtain ⟨hnone, hstarted, hfinished⟩ := IoPc.ne_of_running hio
  refine ⟨h.idle, h.opened, h.unregistered, fun heq => absurd heq hstarted, fun hspawning => ?_,
    h.reconnecting, fun _ _ => rfl, h.unlisted⟩
  rcases h.spawning hspawning with ⟨heq, -⟩ | heq
  · exact absurd heq hnone
  · exact absurd heq hfinished

theorem Unstopped.ioStep (h : s.Unstopped) (ev : IoEvent) :
    (s.ioStep maxAttempts ev).Unstopped := by
  have hrunning : ∀ {pc : IoPc}, s.io = pc → pc.running = true → s.io.running = true :=
    fun hio hpc => hio ▸ hpc
  unfold Session.ioStep
  split
  · next hio => exact h.register hio _
  · next hio =>
      split_ifs
      · exact h.setIo (hrunning hio rfl) (.inl rfl) nofun
      · exact h
  · next hio =>
      split_ifs
      · exact h.receive (hrunning hio rfl) _
      · exact h
  · next hio => exact h.setIo (hrunning hio rfl) (.inr rfl) nofun
  · next hio =>
      exact (h.lose (hrunning hio rfl)).setIo (hrunning hio rfl) (.inl rfl) fun _ => rfl
  · next hio =>
      have hc := ConnChange.closeConn s
      have hio' : s.closeConn.io = .closing := by rw [hc.frame, hio]
      refine (h.connChange hc).setIo (by rw [hio']; rfl) (.inl rfl) fun _ => ?_
      rw [hc.connected]
      exact h.lost (hrunning hio rfl) (.inl (by rw [hio]; rfl))
  · next hio =>
      have hlost := h.lost (hrunning hio rfl) (.inl (by rw [hio]; rfl))
      refine h.setIo (hrunning hio rfl) (.inl ?_) fun _ => hlost
      split_ifs <;> rfl
  · next hio =>
      split_ifs
      · exact h.setIo (hrunning hio rfl) (.inl rfl) nofun
      · have hflag := h.setFlags s.stopping true s.aborted s.final
        have hthread : Unstopped { s with
            reconnecting := true
            reconnector := .check 0 } :=
          hflag.setReconnector (fun _ => .inr (by rw [hio]; rfl)) nofun
        exact hthread.setIo (hrunning hio rfl) (.inl rfl) nofun
  · exact h

theorem listenedTo_of_lost (h : s.io.running = true → s.connected = false) : s.ListenedTo :=
  fun hio hconnected => absurd (hconnected.symm.trans (h hio)) nofun

theorem Unstopped.not_listenedTo (h : s.Unstopped) (hio : s.io.running = true)
    (hdialed : s.connector.dialed = true ∨ s.reconnector.dialed = true) (hio' : s'.io = s.io)
    (hconnected : s'.connected = true) (hfd : s'.fd = s.fd)
    (hregistered : s'.registered = s.registered) : ¬s'.ListenedTo := by
  intro hlistened
  obtain ⟨d, hd, hmem⟩ := hlistened (hio' ▸ hio) hconnected
  exact h.unlisted hio hdialed d (hfd ▸ hd) (hregistered ▸ hmem)

theorem Unstopped.listenedTo_connectStep_iff (h : s.Unstopped) (hl : s.ListenedTo) (o : Outcome) :
    (s.connectStep o).ListenedTo ↔ (s.connector = .attempt .publish → s.io.running = false) := by
  unfold Session.connectStep
  split
  · next hpc => exact iff_of_true hl (by simp [hpc])
  · next hpc => exact iff_of_true hl (by simp [hpc])
  · next a hpc =>
      have hattempting : s.connector.attempting = true := by rw [hpc]; rfl
      by_cases ha : a = .publish
      · subst ha
        constructor
        · intro hlistened _
          by_contra hio
          have hdialed : s.connector.dialed = true := by rw [hpc]; rfl
          exact absurd hlistened
            (h.not_listenedTo (Bool.not_eq_false _ ▸ hio) (.inl hdialed) rfl rfl rfl rfl)
        · intro hpublish hio
          exact absurd ((hpublish hpc).symm.trans hio) nofun
      · obtain ⟨hc, -⟩ := ConnChange.attemptStep s ha o
        have hio : (s.attemptStep a o).1.io = s.io := by rw [hc.frame]
        refine iff_of_true (listenedTo_of_lost fun hrun => ?_) (by simp [hpc, ha])
        exact hc.connected.trans (h.lost (hio ▸ hrun) (.inr (.inl hattempting)))
  · next hpc => exact iff_of_true hl (by simp [hpc])
  · next hpc =>
      refine iff_of_true ?_ (by simp [hpc])
      split_ifs
      · exact listenedTo_of_lost nofun
      · exact hl

theorem Unstopped.listenedTo_reconnectStep_iff (h : s.Unstopped) (hl : s.ListenedTo)
    (o : Outcome) : (s.reconnectStep maxAttempts o).ListenedTo ↔
      ∀ attempts, s.reconnector = .attempt attempts .publish → s.io.running = false := by
  unfold Session.reconnectStep
  split
  · next hpc => exact iff_of_true hl (by simp [hpc])
  · next hpc =>
      refine iff_of_true ?_ (by simp [hpc])
      split_ifs <;> exact hl
  · next hpc => exact iff_of_true hl (by simp [hpc])
  · next attempts a hpc =>
      have hthread : s.reconnector ≠ .none := by simp [hpc]
      by_cases ha : a = .publish
      · subst ha
        constructor
        · intro hlistened _ _
          by_contra hio
          have hdialed : s.reconnector.dialed = true := by rw [hpc]; rfl
          exact absurd hlistened
            (h.not_listenedTo (Bool.not_eq_false _ ▸ hio) (.inr hdialed) rfl rfl rfl rfl)
        · intro hpublish hio
          exact absurd ((hpublish attempts hpc).symm.trans hio) nofun
      · obtain ⟨hc, -⟩ := ConnChange.attemptStep s ha o
        have hio : (s.attemptStep a o).1.io = s.io := by rw [hc.frame]
        refine iff_of_true (listenedTo_of_lost fun hrun => ?_) (by simp [hpc, ha])
        exact hc.connected.trans (h.lost (hio ▸ hrun) (.inr (.inr hthread)))
  · next hpc => exact iff_of_true hl (by simp [hpc])

theorem Unstopped.listenedTo_register_iff (h : s.Unstopped) (hio : s.io = .started)
    (accepted : Bool) : (s.register accepted).ListenedTo ↔ s.fd.isSome = true ∧ accepted = true := by
  have hconnected : (s.register accepted).connected = true := (h.started hio).1
  have hempty := h.unregistered (.inr hio)
  constructor
  · intro hlistened
    obtain ⟨d, hd, hmem⟩ := hlistened rfl hconnected
    have hfd : s.fd = some d := hd
    simp only [Session.register, hfd, hempty] at hmem
    split_ifs at hmem with haccepted
    · exact ⟨by rw [hfd]; rfl, haccepted⟩
    · simp at hmem
  · rintro ⟨hsome, rfl⟩ - -
    obtain ⟨d, hd⟩ := Option.isSome_iff_exists.mp hsome
    refine ⟨d, hd, ?_⟩
    simp [Session.register, hd]

theorem listenedTo_receive_iff (hl : s.ListenedTo) (hio : s.io = .loop) (m : Message) :
    (s.receive m).ListenedTo ↔ (m = .refused → s.ready = true → s.connected = false) := by
  unfold Session.receive
  split_ifs with hready
  · cases m with
    | taken => exact iff_of_true hl nofun
    | timedOut => exact iff_of_true hl nofun
    | closed => exact iff_of_true (fun _ => hl (by rw [hio]; rfl)) nofun
    | refused =>
        have hc := ConnChange.closeConn s
        have hio' : s.closeConn.io = s.io := by rw [hc.frame]
        constructor
        · intro hlistened _ _
          by_contra hconnected
          obtain ⟨d, hd, -⟩ := hlistened (by rw [hio', hio]; rfl)
            (hc.connected.trans (Bool.not_eq_false _ ▸ hconnected))
          rw [fd_closeConn] at hd
          cases hd
        · exact fun hlost => listenedTo_of_lost fun _ => hc.connected.trans (hlost rfl hready)
  · exact iff_of_true hl fun _ hready' => absurd hready' hready

theorem Unstopped.listenedTo_ioStep_iff (h : s.Unstopped) (hl : s.ListenedTo) (ev : IoEvent) :
    (s.ioStep maxAttempts ev).ListenedTo ↔
      (∀ accepted, ev = .register accepted → s.io = .started →
        s.fd.isSome = true ∧ accepted = true) ∧
      (ev = .message .refused → s.io = .loop → s.registered.Nonempty → s.ready = true →
        s.connected = false) := by
  have hkeep : ∀ {pc : IoPc}, s.io = pc → pc.running = true → s.connected = true →
      ∃ d, s.fd = some d ∧ d ∈ s.registered := fun hio hpc => hl (hio ▸ hpc)
  unfold Session.ioStep
  split
  · next accepted hio =>
      rw [h.listenedTo_register_iff hio]
      simp [hio]
  · next hio =>
      refine iff_of_true ?_ (by simp)
      split_ifs
      · exact fun _ => hkeep hio rfl
      · exact hl
  · next m hio =>
      split_ifs with hregistered
      · rw [listenedTo_receive_iff hl hio]
        simp [hio, hregistered]
      · exact iff_of_true hl (by simp [hregistered])
  · exact iff_of_true (listenedTo_of_lost nofun) (by simp)
  · exact iff_of_true (listenedTo_of_lost fun _ => rfl) (by simp)
  · next hio =>
      have hc := ConnChange.closeConn s
      refine iff_of_true (listenedTo_of_lost fun _ => ?_) (by simp)
      exact hc.connected.trans (h.lost (by rw [hio]; rfl) (.inl (by rw [hio]; rfl)))
  · next hio => exact iff_of_true (fun _ => hkeep hio rfl) (by simp)
  · next hio =>
      refine iff_of_true ?_ (by simp)
      split_ifs
      · exact fun _ => hkeep hio rfl
      · exact fun _ => hkeep hio rfl
  · next hregister hhangUp hmessage hexit _ _ _ _ =>
      refine iff_of_true hl ⟨?_, ?_⟩
      · rintro accepted rfl hio
        exact absurd rfl (hregister accepted hio)
      · rintro rfl hio
        exact absurd rfl (hmessage _ hio)

theorem Unstopped.step (h : s.Unstopped) {ev : Event} (hev : ev ≠ .disconnect)
    (hkeep : s.KeepsListening ev) : (s.step maxAttempts ev).Unstopped := by
  by_cases haborted : s.aborted = true
  · rwa [step_of_aborted haborted]
  unfold Session.step
  rw [if_neg haborted]
  have haborted' := Bool.eq_false_iff.mpr haborted
  cases ev with
  | connect =>
      dsimp only
      split_ifs
      · have hflag := h.setFlags s.stopping s.reconnecting s.aborted false
        exact hflag.setConnector (fun _ => .inr rfl) nofun nofun nofun
      · exact h
  | connector o =>
      refine h.connectStep o fun hpc => hkeep.publishes ?_
      simp [publishes, haborted', hpc]
  | reconnector o =>
      refine h.reconnectStep o fun attempts hpc => hkeep.publishes ?_
      simp [publishes, haborted', hpc]
  | io ev => exact h.ioStep ev
  | disconnect => exact absurd rfl hev
  | disconnector =>
      simp only [disconnectStep, h.idle]
      exact h

theorem Unstopped.listenedTo_step_iff (h : s.Unstopped) (hl : s.ListenedTo) {ev : Event}
    (hev : ev ≠ .disconnect) :
    (s.step maxAttempts ev).ListenedTo ↔ s.KeepsListening ev := by
  have hquiet : s.publishes ev = false → (∀ ev', ev ≠ .io ev') → s.KeepsListening ev := by
    intro hpublishes hio
    refine ⟨fun htrue => ?_, fun accepted heq => absurd heq (hio _), fun htrue => ?_⟩
    · exact absurd (hpublishes.symm.trans htrue) nofun
    · cases ev with
      | io ev' => exact absurd rfl (hio ev')
      | _ => cases htrue
  cases haborted : s.aborted with
  | true =>
      rw [step_of_aborted haborted]
      refine iff_of_true hl ⟨fun htrue => ?_, fun _ _ hfalse => ?_, fun htrue => ?_⟩
      · cases ev <;> simp [publishes, haborted] at htrue
      · exact absurd (haborted.symm.trans hfalse) nofun
      · unfold refuses at htrue
        split at htrue
        · simp [haborted] at htrue
        · cases htrue
  | false =>
      simp only [Session.step, haborted, Bool.false_eq_true, if_false]
      cases ev with
      | connect =>
          refine iff_of_true ?_ (hquiet rfl nofun)
          split_ifs <;> exact hl
      | connector o =>
          rw [h.listenedTo_connectStep_iff hl o]
          constructor
          · refine fun hpublish => ⟨fun htrue => hpublish ?_, nofun, nofun⟩
            simpa [publishes, haborted] using htrue
          · exact fun hkeep hpc => hkeep.publishes (by simp [publishes, haborted, hpc])
      | reconnector o =>
          rw [h.listenedTo_reconnectStep_iff hl o]
          constructor
          · refine fun hpublish => ⟨fun htrue => ?_, nofun, nofun⟩
            simp only [publishes, haborted, Bool.not_false, Bool.true_and] at htrue
            split at htrue
            · next attempts hpc => exact hpublish attempts hpc
            · cases htrue
          · exact fun hkeep attempts hpc =>
              hkeep.publishes (by simp [publishes, haborted, hpc])
      | io ev =>
          rw [h.listenedTo_ioStep_iff hl ev]
          constructor
          · rintro ⟨hregisters, hrefuses⟩
            refine ⟨nofun, fun accepted heq _ hio => ?_, fun htrue => ?_⟩
            · exact hregisters accepted (Event.io.inj heq) hio
            · unfold refuses at htrue
              split at htrue
              · next heq =>
                  simp only [haborted, Bool.not_false, Bool.true_and, Bool.and_eq_true,
                    decide_eq_true_iff] at htrue
                  exact hrefuses (Event.io.inj heq) htrue.1.1 htrue.1.2 htrue.2
              · cases htrue
          · intro hkeep
            refine ⟨fun accepted heq hio => ?_, fun heq hio hregistered hready => ?_⟩
            · exact hkeep.registers accepted (congrArg _ heq) haborted hio
            · apply hkeep.refuses
              rw [heq]
              simp [refuses, haborted, hio, hregistered, hready]
      | disconnect => exact absurd rfl hev
      | disconnector =>
          refine iff_of_true ?_ (hquiet rfl nofun)
          simp only [disconnectStep, h.idle]
          exact hl

/-- In every run without a call of `disconnect()` the proxy is listened to in every state
exactly when every step keeps it so. -/
theorem listenedTo_run_iff (maxAttempts : ℤ) {evs : List Event} (hevs : .disconnect ∉ evs) :
    (∀ before, before <+: evs → (run (step maxAttempts) initial before).ListenedTo) ↔
      Guarded (step maxAttempts) KeepsListening initial evs := by
  refine forall_prefix_iff_guarded (J := Unstopped) (P := (· ≠ .disconnect))
    (fun _ _ hev h _ hkeep => h.step hev hkeep) (fun _ _ hev h hl => h.listenedTo_step_iff hl hev)
    unstopped_initial (listenedTo_of_lost nofun) ?_
  rintro ev hmem rfl
  exact hevs hmem

end Steps

/-- `connect()` up to the start of the io thread. -/
def connectEvents : List Event := .connect :: List.replicate 11 (.connector .ok)

def reconnectEvents : List Event :=
  [.io .hangUp, .io .advance, .io .advance, .io .advance, .io .advance] ++
    List.replicate 10 (.reconnector .ok)

/-- The connection is made, a message is taken, the connection is lost, and a new one
is under way. -/
def lostEvents : List Event :=
  connectEvents ++ [.io (.register true), .io (.message .taken)] ++ reconnectEvents.dropLast

/-- The proxy is listened to until it is lost, and the reconnect thread has a socket
that the io thread does not know, but has not set `connected_`. -/
theorem listenedTo_run_iff_lost :
    (∀ before, before <+: lostEvents → (run (step (-1)) initial before).ListenedTo) ∧
      (run (step (-1)) initial lostEvents).fd = some 1 ∧
      (run (step (-1)) initial lostEvents).registered = ∅ ∧
      (run (step (-1)) initial lostEvents).connected = false :=
  ⟨(listenedTo_run_iff (-1) (by decide)).mpr (by decide), by decide, by decide, by decide⟩

/-- After a reconnection the new socket is not in the epoll set. -/
theorem reconnected_not_listenedTo : ¬∀ maxAttempts evs, .disconnect ∉ evs →
    ∀ before, before <+: evs → (run (step maxAttempts) initial before).ListenedTo := by
  intro hall
  have hlistened := hall (-1) (connectEvents ++ [.io (.register true)] ++ reconnectEvents)
    (by decide) _ List.prefix_rfl
  obtain ⟨d, -, hmem⟩ := hlistened (by decide) (by decide)
  have hempty : (run (step (-1)) initial
      (connectEvents ++ [.io (.register true)] ++ reconnectEvents)).registered = ∅ := by decide
  rw [hempty] at hmem
  exact absurd hmem (Finset.notMem_empty d)

end Session

end SessionLifecycle

end Proxy

end Shinigami
