import Shinigami.Foundations.Run
import Shinigami.ServiceManager.Infrastructure.Handlers

/-!
# Replayed frames

Which connections reach a handler, and what that means for a frame that is
delivered twice. `smHandleClient` keeps no memory of the nonces it has accepted,
so a frame that is valid stays valid: the second delivery is dispatched exactly
when the socket can be set up, the rate limiter admits the peer and the clock is
still within the window of the timestamp (`replaySafe_iff`).
-/

namespace Shinigami

namespace ServiceManager

open CString

/-- The frame a connection delivers, if it is complete. -/
def Connection.frame (conn : Connection) : Option (SmHdr × List UInt8) :=
  match recvHdr conn.stream with
  | none => none
  | some (hdr, rest) =>
      if rest.length < hdr.length.toNat then none
      else some (hdr, rest.take hdr.length.toNat)

/-- The checks on a frame that depend on its bytes and the key only. -/
structure FrameValid (key : List UInt8) (f : SmHdr × List UInt8) : Prop where
  wellFormed : f.1.WellFormed
  size : smValidateMessageSize f.1.length f.1.msgType = smOk
  hmac : smValidateHeaderHmac f.1 f.2 key = smOk

/-- The checks on a connection that depend on the moment: the socket is set up,
the rate limiter admits the peer, and the timestamp is in its window. -/
structure Admitted (s : ServerState) (conn : Connection) (hdr : SmHdr) : Prop where
  timeout : conn.timeoutOk = true
  rate : (smRateLimitCheck s.rateLimiter conn.request.peer.pid
    (monoNow conn.mono)).2 = smOk
  fresh : hdr.Fresh conn.headerNow

/-- The state with the connection charged to the rate limiter. -/
def chargeRate (s : ServerState) (conn : Connection) : ServerState :=
  { s with
    rateLimiter := (smRateLimitCheck s.rateLimiter conn.request.peer.pid
      (monoNow conn.mono)).1 }

/-- The checks on a complete frame at a clock reading, with the key if one is
loaded. -/
structure FrameAccepted (key : Option (List UInt8)) (now : ℤ)
    (f : SmHdr × List UInt8) : Prop where
  wellFormed : f.1.WellFormed
  fresh : f.1.Fresh now
  size : smValidateMessageSize f.1.length f.1.msgType = smOk
  hmac : ∀ k ∈ key, smValidateHeaderHmac f.1 f.2 k = smOk

structure ReachesHandler (key : Option (List UInt8)) (s : ServerState)
    (conn : Connection) (f : SmHdr × List UInt8) : Prop where
  timeout : conn.timeoutOk = true
  rate : (smRateLimitCheck s.rateLimiter conn.request.peer.pid
    (monoNow conn.mono)).2 = smOk
  frame : conn.frame = some f
  accepted : FrameAccepted key conn.headerNow f

theorem dispatch_dispatched {length : UInt32} {msgType : UInt16}
    (h : smValidateMessageSize length msgType = smOk) (s : ServerState)
    (env : RequestEnv) (payload : List UInt8) :
    (dispatch s env msgType payload).dispatched = true := by
  unfold dispatch
  split_ifs with hreg hlook hbeat hunreg
  · rfl
  · rfl
  · rfl
  · rfl
  · rcases msgType_of_smValidateMessageSize h with h | h | h | h <;> contradiction

theorem serveFrame_of_accepted {key : Option (List UInt8)} {s : ServerState}
    {conn : Connection} {hdr : SmHdr} {payload : List UInt8}
    (h : FrameAccepted key conn.headerNow (hdr, payload)) :
    serveFrame key s conn hdr payload =
      dispatch s conn.request hdr.msgType payload := by
  have hheader := (smValidateHeader_eq_smOk_iff hdr conn.headerNow).mpr
    ⟨h.wellFormed, h.fresh⟩
  unfold serveFrame
  rw [if_neg (not_not.mpr hheader), if_neg (not_not.mpr h.size)]
  cases key with
  | none => rfl
  | some key => exact if_neg (not_not.mpr (h.hmac key rfl))

theorem serveFrame_cases (key : Option (List UInt8)) (s : ServerState)
    (conn : Connection) (hdr : SmHdr) (payload : List UInt8) :
    FrameAccepted key conn.headerNow (hdr, payload) ∨
      ∃ code, serveFrame key s conn hdr payload = Served.refuse s code := by
  unfold serveFrame
  split_ifs with hheader hsize
  · exact .inr ⟨_, rfl⟩
  · exact .inr ⟨_, rfl⟩
  · obtain ⟨hwf, hfresh⟩ :=
      (smValidateHeader_eq_smOk_iff hdr conn.headerNow).mp (not_not.mp hheader)
    cases key with
    | none => exact .inl ⟨hwf, hfresh, not_not.mp hsize, by simp⟩
    | some key =>
        dsimp only
        split_ifs with hhmac
        · exact .inr ⟨_, rfl⟩
        · exact .inl ⟨hwf, hfresh, not_not.mp hsize, by simpa using hhmac⟩

theorem smHandleClient_of_reaches {key : Option (List UInt8)} {s : ServerState}
    {conn : Connection} {f : SmHdr × List UInt8} (h : ReachesHandler key s conn f) :
    smHandleClient key s conn =
      dispatch (chargeRate s conn) conn.request f.1.msgType f.2 := by
  have hframe := h.frame
  unfold Connection.frame at hframe
  cases hrecv : recvHdr conn.stream with
  | none => simp [hrecv] at hframe
  | some p =>
      obtain ⟨hdr, rest⟩ := p
      simp only [hrecv] at hframe
      split_ifs at hframe with hshort
      cases hframe
      unfold smHandleClient
      simp only [h.timeout, h.rate, hrecv, Bool.not_true, Bool.false_eq_true,
        ne_eq, not_true_eq_false, if_false, h.accepted.wellFormed.length, hshort]
      exact serveFrame_of_accepted h.accepted

/-- A connection either reaches a handler, or it ends with at most the charge to
the rate limiter made. -/
theorem smHandleClient_reaches_or (key : Option (List UInt8)) (s : ServerState)
    (conn : Connection) :
    (∃ f, ReachesHandler key s conn f) ∨
      (smHandleClient key s conn).dispatched = false ∧
        (smHandleClient key s conn).server =
          if conn.timeoutOk then chargeRate s conn else s := by
  unfold smHandleClient
  by_cases htimeout : conn.timeoutOk = true
  swap
  · simp only [htimeout, Bool.not_false, if_true]
    exact .inr ⟨rfl, rfl⟩
  by_cases hrate : (smRateLimitCheck s.rateLimiter conn.request.peer.pid
      (monoNow conn.mono)).2 = smOk
  swap
  · simp only [htimeout, Bool.not_true, Bool.false_eq_true, if_false, ne_eq, hrate,
      not_false_eq_true, if_true]
    exact .inr ⟨rfl, rfl⟩
  simp only [htimeout, hrate, Bool.not_true, Bool.false_eq_true, if_false, ne_eq,
    not_true_eq_false, if_true]
  cases hrecv : recvHdr conn.stream with
  | none => exact .inr ⟨rfl, rfl⟩
  | some p =>
      obtain ⟨hdr, rest⟩ := p
      dsimp only
      split_ifs with hlength hshort
      · exact .inr ⟨rfl, rfl⟩
      · exact .inr ⟨rfl, rfl⟩
      · rcases serveFrame_cases key (chargeRate s conn) conn hdr
          (rest.take hdr.length.toNat) with haccepted | ⟨code, hrefuse⟩
        · left
          refine ⟨(hdr, rest.take hdr.length.toNat), htimeout, hrate, ?_, haccepted⟩
          simp [Connection.frame, hrecv, hshort]
        · right
          unfold chargeRate at hrefuse
          rw [hrefuse]
          exact ⟨rfl, rfl⟩

theorem dispatched_iff_reaches (key : Option (List UInt8)) (s : ServerState)
    (conn : Connection) :
    (smHandleClient key s conn).dispatched = true ↔
      ∃ f, ReachesHandler key s conn f := by
  constructor
  · intro h
    rcases smHandleClient_reaches_or key s conn with hok | ⟨hno, -⟩
    · exact hok
    · rw [hno] at h
      cases h
  · rintro ⟨f, hreach⟩
    rw [smHandleClient_of_reaches hreach]
    exact dispatch_dispatched hreach.accepted.size _ _ _

theorem reachesHandler_some_iff {key : List UInt8} {s : ServerState}
    {conn : Connection} {f : SmHdr × List UInt8} :
    ReachesHandler (some key) s conn f ↔
      conn.frame = some f ∧ FrameValid key f ∧ Admitted s conn f.1 := by
  constructor
  · rintro ⟨htimeout, hrate, hframe, hwf, hfresh, hsize, hhmac⟩
    exact ⟨hframe, ⟨hwf, hsize, hhmac key rfl⟩, ⟨htimeout, hrate, hfresh⟩⟩
  · rintro ⟨hframe, hvalid, hadm⟩
    refine ⟨hadm.timeout, hadm.rate, hframe, hvalid.wellFormed, hadm.fresh,
      hvalid.size, ?_⟩
    simpa using hvalid.hmac

theorem smHandleClient_of_admitted {key : List UInt8} {s : ServerState}
    {conn : Connection} {f : SmHdr × List UInt8} (hframe : conn.frame = some f)
    (hvalid : FrameValid key f) (hadm : Admitted s conn f.1) :
    smHandleClient (some key) s conn =
      dispatch (chargeRate s conn) conn.request f.1.msgType f.2 :=
  smHandleClient_of_reaches (reachesHandler_some_iff.mpr ⟨hframe, hvalid, hadm⟩)

/-- A connection either passes all checks, or it ends without touching the
registry or the limits by name. -/
theorem smHandleClient_cases (key : List UInt8) (s : ServerState)
    (conn : Connection) :
    (∃ f, conn.frame = some f ∧ FrameValid key f ∧ Admitted s conn f.1) ∨
      (smHandleClient (some key) s conn).dispatched = false ∧
        (smHandleClient (some key) s conn).server.registry = s.registry ∧
        (smHandleClient (some key) s conn).server.limits = s.limits := by
  rcases smHandleClient_reaches_or (some key) s conn with ⟨f, hf⟩ | ⟨hno, heq⟩
  · exact .inl ⟨f, reachesHandler_some_iff.mp hf⟩
  · rw [heq]
    refine .inr ⟨hno, ?_⟩
    split_ifs <;> exact ⟨rfl, rfl⟩

theorem dispatched_iff (key : List UInt8) (s : ServerState) (conn : Connection) :
    (smHandleClient (some key) s conn).dispatched = true ↔
      ∃ f, conn.frame = some f ∧ FrameValid key f ∧ Admitted s conn f.1 := by
  rw [dispatched_iff_reaches]
  exact exists_congr fun f => reachesHandler_some_iff

/-- The state after a connection. -/
def clientStep (key : List UInt8) (s : ServerState) (conn : Connection) :
    ServerState :=
  (smHandleClient (some key) s conn).server

/-- A dispatched connection is charged twice: on arrival and by its handler. -/
theorem clientStep_rateLimiter {key : List UInt8} {s : ServerState}
    {conn : Connection} {f : SmHdr × List UInt8} (hframe : conn.frame = some f)
    (hvalid : FrameValid key f) (hadm : Admitted s conn f.1) :
    (clientStep key s conn).rateLimiter =
      (smRateLimitCheck (chargeRate s conn).rateLimiter conn.request.peer.pid
        (monoNow conn.request.mono)).1 := by
  rw [clientStep, smHandleClient_of_admitted hframe hvalid hadm,
    dispatch_rateLimiter hvalid.size]

/-- Of two connections that deliver the same frame at most one is dispatched: if
the first one was, the second one is refused before any effect on the registry
and on the limits by name. -/
def ReplaySafe (key : List UInt8) (s : ServerState) (conns : List Connection) :
    Prop :=
  ∀ (pre mid post : List Connection) (a b : Connection),
    conns = pre ++ a :: (mid ++ b :: post) →
    ∀ f, a.frame = some f → b.frame = some f →
      let sa := run (clientStep key) s pre
      let sb := run (clientStep key) s (pre ++ a :: mid)
      (smHandleClient (some key) sa a).dispatched = true →
        (smHandleClient (some key) sb b).dispatched = false ∧
          (clientStep key sb b).registry = sb.registry ∧
          (clientStep key sb b).limits = sb.limits

/-- A run is safe against replays exactly when no valid frame is delivered by
two connections that both meet an admitting moment. -/
theorem replaySafe_iff (key : List UInt8) (s : ServerState)
    (conns : List Connection) :
    ReplaySafe key s conns ↔
      ∀ (pre mid post : List Connection) (a b : Connection),
        conns = pre ++ a :: (mid ++ b :: post) →
        ∀ f, a.frame = some f → b.frame = some f → FrameValid key f →
          Admitted (run (clientStep key) s pre) a f.1 →
          ¬Admitted (run (clientStep key) s (pre ++ a :: mid)) b f.1 := by
  constructor
  · intro hsafe pre mid post a b heq f ha hb hvalid hadma hadmb
    have hda := (dispatched_iff key _ a).mpr ⟨f, ha, hvalid, hadma⟩
    have hdb := (dispatched_iff key _ b).mpr ⟨f, hb, hvalid, hadmb⟩
    have hno := (hsafe pre mid post a b heq f ha hb hda).1
    rw [hdb] at hno
    cases hno
  · intro hmoment pre mid post a b heq f ha hb sa sb hda
    obtain ⟨f', ha', hvalid, hadma⟩ := (dispatched_iff key sa a).mp hda
    rw [ha] at ha'
    cases ha'
    have hnot := hmoment pre mid post a b heq f ha hb hvalid hadma
    rcases smHandleClient_cases key sb b with ⟨f', hb', -, hadmb⟩ | hrefused
    · rw [hb] at hb'
      cases hb'
      exact absurd hadmb hnot
    · exact hrefused

def replayKey : List UInt8 := List.replicate smHmacKeySize 7

/-- The payload of a lookup of `svc`. -/
def replayPayload : List UInt8 := strncpyField smMaxName (ascii ['s', 'v', 'c'])

/-- The signed header of a lookup of `svc`. -/
def replayHdr : SmHdr :=
  SmHdr.sealed
    { magic := smProtocolMagic
      version := smProtocolVersion
      msgType := smMsgLookup
      length := 64
      timestamp := 1000
      clientPid := 7
      nonce := 42
      hmac := List.replicate smHmacSize 0
      hmac_length := length_zeroHmac }
    replayPayload replayKey

/-- A connection of process 7 that delivers this frame. -/
def replayConn : Connection where
  timeoutOk := true
  mono := .ofSeconds 0
  stream := encodeHdr replayHdr ++ replayPayload
  headerNow := 1000
  request :=
    { peer := ⟨7, 1000, 1000⟩
      mono := .ofSeconds 0
      banNow := 1000
      violationNow := 1000
      entryNow := 1000
      now := 1000
      now' := 1000
      kill := fun _ => .alive
      sendOk := true }

theorem replayConn_frame : replayConn.frame = some (replayHdr, replayPayload) := by
  have hrecv : recvHdr replayConn.stream = some (replayHdr, replayPayload) :=
    recvHdr_encodeHdr replayHdr replayPayload
  have hlen : replayHdr.length.toNat = replayPayload.length := by decide
  simp [Connection.frame, hrecv, hlen]

theorem replayHdr_valid : FrameValid replayKey (replayHdr, replayPayload) where
  wellFormed := ⟨rfl, rfl, by decide, by decide⟩
  size := by decide
  hmac := smValidateHeaderHmac_sealed _ _ _ (by decide)

/-- Two connections deliver the same frame right after start-up, and both are
dispatched to the lookup handler. -/
theorem replayed_frame_dispatched :
    ¬ReplaySafe replayKey (ServerState.init ⟨0, 0, by decide, by decide⟩)
      [replayConn, replayConn] := by
  intro hsafe
  have hfresh : replayHdr.Fresh replayConn.headerNow := ⟨by decide, by decide⟩
  have hfirst : Admitted (ServerState.init ⟨0, 0, by decide, by decide⟩) replayConn
      replayHdr := ⟨rfl, by decide +kernel, hfresh⟩
  have hsecond : Admitted (clientStep replayKey
      (ServerState.init ⟨0, 0, by decide, by decide⟩) replayConn) replayConn
        replayHdr := by
    refine ⟨rfl, ?_, hfresh⟩
    rw [clientStep_rateLimiter replayConn_frame replayHdr_valid hfirst]
    decide +kernel
  have hdispatched := (dispatched_iff replayKey _ replayConn).mpr
    ⟨_, replayConn_frame, replayHdr_valid, hsecond⟩
  have hrefused := (hsafe [] [] [] replayConn replayConn rfl _ replayConn_frame
    replayConn_frame ((dispatched_iff replayKey _ replayConn).mpr
      ⟨_, replayConn_frame, replayHdr_valid, hfirst⟩)).1
  rw [List.nil_append, run_cons, run_nil, hdispatched] at hrefused
  cases hrefused

end ServiceManager

end Shinigami
