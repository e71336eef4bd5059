import Mathlib.Tactic.SplitIfs
import Shinigami.Foundations.Run
import Shinigami.Proxy.Connection

/-!
# The pending reply of a proxy

`sendRequestWaitReply` empties the one slot for replies, sends, and waits for the io
thread to fill the slot; the thread fills an empty slot with whatever message comes next.
A step is an operation of the caller, of the io thread or of the daemon, which answers the
requests in their order. `Accounted` says which reply fills the slot of a call, and so
which calls get their own (`matchesRequest_run_iff`). Messages arrive whole: the exits of
`recvMessage` with an error are not among the steps.
-/

namespace Shinigami

namespace Proxy

namespace ReplySlot

structure Reply (μ : Type) where
  request : ℕ
  content : μ
deriving DecidableEq, Repr

/-- `PendingReply`; a slot that is ready holds a message. -/
structure PendingReply (μ : Type) where
  msg : Option (Reply μ)
  ready : Bool
  filled : ready = true → msg.isSome

/-- Where the caller stands in `sendRequestWaitReply`. -/
inductive Phase where
  | idle
  | sending
  | waiting
deriving DecidableEq, Repr

structure State (μ : Type) where
  connected : Bool
  /-- The number of the call, or of the next one. -/
  call : ℕ
  phase : Phase
  pending : PendingReply μ
  /-- The requests that the daemon has not answered. -/
  requests : List ℕ
  /-- The replies that the io thread has not received. -/
  socket : List (Reply μ)
  /-- The reply that the io thread is about to route. -/
  received : Option (Reply μ)
  /-- The requests whose replies were under way when the call emptied the slot. -/
  late : List ℕ

inductive Event (μ : Type) where
  | enter
  | send (err : Option ProxyError)
  | wake (timedOut : Bool)
  | answer (content : μ)
  | receive
  | route
  | hangUp

variable {μ : Type}

def PendingReply.reset (p : PendingReply μ) : PendingReply μ := ⟨p.msg, false, nofun⟩

def PendingReply.fill (m : Reply μ) : PendingReply μ := ⟨some m, true, fun _ => rfl⟩

def PendingReply.taken : PendingReply μ := ⟨none, false, nofun⟩

def State.outstanding (s : State μ) : List ℕ :=
  (s.received.toList ++ s.socket).map Reply.request ++ s.requests

/-- The call returns. -/
def State.leave (s : State μ) : State μ :=
  { s with
    call := s.call + 1
    phase := .idle }

/-- The begin of a call, up to the release of the lock. -/
def State.enter (s : State μ) : State μ :=
  if s.connected then
    { s with
      phase := .sending
      pending := s.pending.reset
      late := s.outstanding }
  else s.leave

/-- The call of `ProxyConnection::send`. -/
def State.send (s : State μ) (err : Option ProxyError) : State μ :=
  if s.connected ∧ err = none then
    { s with
      phase := .waiting
      requests := s.requests ++ [s.call] }
  else s.leave

/-- The caller in `wait_for`, notified or with its time run out. -/
def State.wake (s : State μ) (timedOut : Bool) : State μ :=
  if s.pending.ready then { s.leave with pending := .taken }
  else if timedOut then s.leave
  else s

def State.route (s : State μ) (m : Reply μ) : State μ :=
  if s.pending.ready then { s with received := none }
  else
    { s with
      received := none
      pending := .fill m }

def State.step (s : State μ) : Event μ → State μ
  | .enter => if s.phase = .idle then s.enter else s
  | .send err => if s.phase = .sending then s.send err else s
  | .wake timedOut => if s.phase = .waiting then s.wake timedOut else s
  | .answer content =>
      match s.requests with
      | [] => s
      | r :: requests =>
          { s with
            requests := requests
            socket := s.socket ++ [⟨r, content⟩] }
  | .receive =>
      match s.received, s.socket with
      | none, m :: socket =>
          { s with
            received := some m
            socket := socket }
      | _, _ => s
  | .route =>
      match s.received with
      | some m => s.route m
      | none => s
  -- the connection is closed with all that is on it
  | .hangUp =>
      match s.received with
      | none =>
          { s with
            connected := false
            requests := []
            socket := [] }
      | some _ => s

/-- What `sendRequestWaitReply` returns at an event. -/
def State.returns (s : State μ) : Event μ → Option (Except ProxyError (Reply μ))
  | .enter => if s.phase = .idle ∧ s.connected = false then some (.error .notConnected) else none
  | .send err =>
      if s.phase = .sending then
        if s.connected then err.map .error else some (.error .notConnected)
      else none
  | .wake timedOut =>
      if s.phase = .waiting then
        if h : s.pending.ready then some (.ok (s.pending.msg.get (s.pending.filled h)))
        else if timedOut then some (.error .timeout)
        else none
      else none
  | .answer _ | .receive | .route | .hangUp => none

/-- A proxy that has connected. -/
def init : State μ where
  connected := true
  call := 0
  phase := .idle
  pending := ⟨none, false, nofun⟩
  requests := []
  socket := []
  received := none
  late := []

/-- A message that is returned answers the request of the call. -/
def MatchesRequest (s : State μ) (ev : Event μ) : Prop :=
  ∀ m, s.returns ev = some (.ok m) → m.request = s.call

/-- A call that wakes to a full slot began with no reply under way. -/
def BeganClean (s : State μ) (ev : Event μ) : Prop :=
  ∀ timedOut, ev = .wake timedOut → s.phase = .waiting → s.pending.ready = true → s.late = []

/-- The replies that come after the call has emptied the slot, in their order. -/
def State.expected (s : State μ) : List ℕ :=
  if s.phase = .waiting then s.late ++ [s.call] else s.late

/-- The reply in the slot is the first that came since the call has emptied it, and up to
then none of those that it may get is missing, or all are lost. -/
structure Accounted (s : State μ) : Prop where
  outstanding_le : ∀ r ∈ s.outstanding, r < s.call ∨ s.phase = .waiting ∧ r = s.call
  late_lt : s.phase ≠ .idle → ∀ r ∈ s.late, r < s.call
  first : s.phase ≠ .idle → s.pending.ready = true →
    s.pending.msg.map Reply.request = s.expected.head?
  rest : s.phase ≠ .idle → s.pending.ready = false →
    s.outstanding = s.expected ∨ s.connected = false ∧ s.outstanding = []

variable {s : State μ}

theorem Accounted.leave (h : Accounted s) (p : PendingReply μ) :
    Accounted { s.leave with pending := p } where
  outstanding_le r hr := by
    left
    rcases h.outstanding_le r hr with hlt | ⟨-, rfl⟩
    · exact Nat.lt_succ_of_lt hlt
    · exact Nat.lt_succ_self _
  late_lt hphase := absurd rfl hphase
  first hphase := absurd rfl hphase
  rest hphase := absurd rfl hphase

theorem Accounted.outstanding_lt (h : Accounted s) (hphase : s.phase ≠ .waiting) :
    ∀ r ∈ s.outstanding, r < s.call := by
  intro r hr
  rcases h.outstanding_le r hr with hlt | ⟨hwaiting, -⟩
  · exact hlt
  · exact absurd hwaiting hphase

theorem Accounted.enter (h : Accounted s) (hphase : s.phase = .idle) : Accounted s.enter := by
  have hlt := h.outstanding_lt (by simp [hphase])
  unfold State.enter
  split_ifs with hconnected
  · exact ⟨fun r hr => .inl (hlt r hr), fun _ => hlt, nofun, fun _ _ => .inl rfl⟩
  · exact h.leave s.pending

theorem Accounted.send (h : Accounted s) (hphase : s.phase = .sending)
    (err : Option ProxyError) : Accounted (s.send err) := by
  have hne : s.phase ≠ .idle := by
    rw [hphase]
    nofun
  have hexpected : s.expected = s.late := by simp [State.expected, hphase]
  have hlt := h.outstanding_lt (by simp [hphase])
  unfold State.send
  split_ifs with hsent
  · have houtstanding : State.outstanding { s with
        phase := .waiting
        requests := s.requests ++ [s.call] } = s.outstanding ++ [s.call] :=
      (List.append_assoc ..).symm
    refine ⟨fun r hr => ?_, fun _ => h.late_lt hne, fun _ hready => ?_, fun _ hready => ?_⟩
    · rw [houtstanding, List.mem_append, List.mem_singleton] at hr
      rcases hr with hr | rfl
      · exact .inl (hlt r hr)
      · exact .inr ⟨rfl, rfl⟩
    · obtain ⟨m, hm⟩ := Option.isSome_iff_exists.mp (s.pending.filled hready)
      have hfirst : s.late.head? = some m.request := by
        rw [← hexpected, ← h.first hne hready, hm, Option.map_some]
      have hhead : (s.late ++ [s.call]).head? = some m.request := by
        rw [List.head?_append, hfirst, Option.some_or]
      exact (congrArg _ hm).trans hhead.symm
    · left
      rcases h.rest hne hready with hrest | ⟨hlost, -⟩
      · rw [houtstanding, hrest, hexpected]
        rfl
      · exact absurd (hlost.symm.trans hsent.1) nofun
  · exact h.leave s.pending

theorem Accounted.wake (h : Accounted s) (timedOut : Bool) : Accounted (s.wake timedOut) := by
  unfold State.wake
  split_ifs
  · exact h.leave .taken
  · exact h.leave s.pending
  · exact h

theorem Accounted.route (h : Accounted s) {m : Reply μ} (hm : s.received = some m) :
    Accounted (s.route m) := by
  have houtstanding : s.outstanding =
      m.request :: { s with received := none : State μ }.outstanding := by
    simp [State.outstanding, hm]
  have hle : ∀ r ∈ { s with received := none : State μ }.outstanding,
      r < s.call ∨ s.phase = .waiting ∧ r = s.call := fun r hr =>
    h.outstanding_le r (houtstanding ▸ List.mem_cons_of_mem _ hr)
  unfold State.route
  split_ifs with hready
  · exact ⟨hle, h.late_lt, h.first, fun _ hempty => absurd (hempty.symm.trans hready) nofun⟩
  · refine ⟨hle, h.late_lt, fun hphase _ => ?_, fun _ => nofun⟩
    rcases h.rest hphase (Bool.eq_false_iff.mpr hready) with hrest | ⟨-, hnone⟩
    · have hhead : s.expected.head? = some m.request := by
        rw [← hrest, houtstanding]
        rfl
      exact hhead.symm
    · exact absurd (houtstanding.symm.trans hnone) nofun

theorem Accounted.move (h : Accounted s) {requests : List ℕ} {socket : List (Reply μ)}
    {received : Option (Reply μ)}
    (heq : State.outstanding { s with
        requests := requests
        socket := socket
        received := received } = s.outstanding) :
    Accounted { s with
        requests := requests
        socket := socket
        received := received } where
  outstanding_le r hr := h.outstanding_le r (heq ▸ hr)
  late_lt := h.late_lt
  first := h.first
  rest hphase hready := by
    rw [heq]
    exact h.rest hphase hready

theorem Accounted.step (h : Accounted s) (ev : Event μ) : Accounted (s.step ev) := by
  cases ev with
  | enter =>
      rw [State.step]
      split_ifs with hphase
      · exact h.enter hphase
      · exact h
  | send err =>
      rw [State.step]
      split_ifs with hphase
      · exact h.send hphase err
      · exact h
  | wake timedOut =>
      rw [State.step]
      split_ifs with hphase
      · exact h.wake timedOut
      · exact h
  | answer content =>
      rw [State.step]
      split
      · exact h
      · rename_i r requests hrequests
        exact h.move (by simp [State.outstanding, hrequests])
  | receive =>
      rw [State.step]
      split
      · rename_i m socket hreceived hsocket
        exact h.move (by simp [State.outstanding, hreceived, hsocket])
      · exact h
  | route =>
      rw [State.step]
      split
      · rename_i m hm
        exact h.route hm
      · exact h
  | hangUp =>
      rw [State.step]
      split
      · rename_i hreceived
        have hnone : State.outstanding { s with
            connected := false
            requests := []
            socket := [] } = [] := by simp [State.outstanding, hreceived]
        refine ⟨fun r hr => ?_, h.late_lt, h.first, fun _ _ => .inr ⟨rfl, hnone⟩⟩
        rw [hnone] at hr
        exact absurd hr List.not_mem_nil
      · exact h

theorem accounted_init : Accounted (init : State μ) :=
  ⟨nofun, nofun, nofun, nofun⟩

theorem Accounted.request_eq_iff (h : Accounted s) (hphase : s.phase = .waiting)
    (hready : s.pending.ready = true) {m : Reply μ} (hm : s.pending.msg = some m) :
    m.request = s.call ↔ s.late = [] := by
  have hne : s.phase ≠ .idle := by
    rw [hphase]
    nofun
  have hfirst := h.first hne hready
  rw [hm, State.expected, if_pos hphase] at hfirst
  cases hlate : s.late with
  | nil =>
      rw [hlate] at hfirst
      exact iff_of_true (Option.some.inj hfirst) rfl
  | cons r late =>
      rw [hlate] at hfirst
      have hlt : r < s.call := h.late_lt hne r (by simp [hlate])
      have hr : m.request = r := Option.some.inj hfirst
      exact iff_of_false (by omega) nofun

theorem returns_eq_ok_iff {ev : Event μ} {m : Reply μ} :
    s.returns ev = some (.ok m) ↔
      (∃ timedOut, ev = .wake timedOut) ∧ s.phase = .waiting ∧ s.pending.ready = true ∧
        s.pending.msg = some m := by
  cases ev with
  | wake timedOut =>
      rw [State.returns]
      split_ifs with hphase hready htime
      · obtain ⟨m', hm'⟩ := Option.isSome_iff_exists.mp (s.pending.filled hready)
        simp [hphase, hready, hm']
      all_goals simp_all
  | enter => rw [State.returns]; split_ifs <;> simp
  | send err =>
      rw [State.returns]
      split_ifs
      · cases err <;> simp
      all_goals simp
  | answer | receive | route | hangUp => simp [State.returns]

theorem Accounted.matchesRequest_iff (h : Accounted s) (ev : Event μ) :
    MatchesRequest s ev ↔ BeganClean s ev := by
  constructor
  · rintro hmatch timedOut rfl hphase hready
    obtain ⟨m, hm⟩ := Option.isSome_iff_exists.mp (s.pending.filled hready)
    have hreturns : s.returns (.wake timedOut) = some (.ok m) :=
      returns_eq_ok_iff.mpr ⟨⟨timedOut, rfl⟩, hphase, hready, hm⟩
    exact (h.request_eq_iff hphase hready hm).mp (hmatch m hreturns)
  · intro hclean m hreturns
    obtain ⟨⟨timedOut, rfl⟩, hphase, hready, hm⟩ := returns_eq_ok_iff.mp hreturns
    exact (h.request_eq_iff hphase hready hm).mpr (hclean timedOut rfl hphase hready)

/-- In every run each message that is returned answers the request of the call exactly
when each call that wakes to a full slot began with no reply under way. -/
theorem matchesRequest_run_iff (evs : List (Event μ)) :
    Guarded State.step MatchesRequest init evs ↔ Guarded State.step BeganClean init evs :=
  guarded_congr (I := Accounted) (P := fun _ => True) (fun _ ev _ h => h.step ev)
    (fun _ ev _ h => h.matchesRequest_iff ev) accounted_init fun _ _ => trivial

/-- The first call times out, and the second one gets the reply to the first. -/
def lateReply : List (Event Unit) :=
  [.enter, .send none, .wake true, .enter, .send none, .answer (), .receive, .route]

theorem matchesRequest_lateReply :
    ¬Guarded State.step MatchesRequest init (lateReply ++ [.wake false]) := by
  intro hguarded
  have hreturns : (run State.step init lateReply).returns (.wake false) =
      some (.ok ⟨0, ()⟩) := by decide
  have hcall : (run State.step init lateReply).call = 1 := by decide
  have hmatch := (guarded_append.mp hguarded).2.1 ⟨0, ()⟩ hreturns
  rw [hcall] at hmatch
  exact absurd hmatch (by decide)

end ReplySlot

end Proxy

end Shinigami
