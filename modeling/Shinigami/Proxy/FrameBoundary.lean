import Shinigami.Foundations.ByteStream
import Shinigami.Foundations.Run
import Shinigami.Proxy.Authenticity

/-!
# Where a failed receive leaves the stream

`recvMessage` reads its frames in pieces. Every failure on the way closes the connection, but
for a pool without a block: the header has been read by then, and the next call takes the
payload for a header (`aligned_run_iff`).
-/

namespace Shinigami

namespace Proxy

namespace FrameBoundary

open ByteStream ServiceManager

/-- The end of a `readExact`, with the bytes that have been read. -/
structure ReadExact where
  error : Option ProxyError
  got : List UInt8
  rest : List (Arrival UInt8)

/-- `readExact` of `n` bytes, with those that are read. The stream ends where the peer has
closed it. -/
def readExact (n : ℕ) (got : List UInt8) : List (Arrival UInt8) → ReadExact
  | [] => if n ≤ got.length then ⟨none, got, []⟩ else ⟨some .daemonCrashed, got, []⟩
  | a :: as =>
      if n ≤ got.length then ⟨none, got, a :: as⟩
      else
        match a with
        | .data b bs =>
            -- `recv` takes no more than it asks for, the rest of the fragment stays
            match (b :: bs).drop (n - got.length) with
            | [] => readExact n (got ++ (b :: bs)) as
            | c :: cs => ⟨none, got ++ (b :: bs).take (n - got.length), .data c cs :: as⟩
        | .interrupted => readExact n got as
        | .again => ⟨some .timeout, got, as⟩
        | .closed => ⟨some .daemonCrashed, got, .closed :: as⟩
        | .failed => ⟨some .recvFailed, got, as⟩

/-- The end of a `recvMessage`, with the bytes that have been read and the frame that has
been completed. -/
structure Receipt where
  conn : ProxyConnection
  result : Except ProxyError ProxyMessage
  rest : List (Arrival UInt8)
  consumed : List UInt8
  frame : Option (SmHdr × List UInt8)

/-- A call that fails in `readExact`. -/
def lost (conn : ProxyConnection) (e : ProxyError) (rest : List (Arrival UInt8))
    (consumed : List UInt8) : Receipt :=
  ⟨{ conn with connected := false }, .error e, rest, consumed, none⟩

/-- Steps 4 and 5 of `recvMessage`. -/
def deliver (conn : ProxyConnection) (env : RecvEnv) (hdr : SmHdr) (payload : List UInt8)
    (rest : List (Arrival UInt8)) (consumed : List UInt8) : Receipt :=
  let accepted := acceptFrame conn env hdr payload []
  ⟨accepted.conn, accepted.result, rest, consumed, some (hdr, payload)⟩

/-- Step 3 of `recvMessage`: the payload. -/
def recvPayload (conn : ProxyConnection) (env : RecvEnv) (hdr : SmHdr)
    (rest : List (Arrival UInt8)) (consumed : List UInt8) : Receipt :=
  if hdr.length > 0 then
    if !env.poolAllocOk then ⟨conn, .error .bufferFull, rest, consumed, none⟩
    else
      let payload := readExact hdr.length.toNat [] rest
      match payload.error with
      | some e => lost conn e payload.rest (consumed ++ payload.got)
      | none => deliver conn env hdr payload.got payload.rest (consumed ++ payload.got)
  else deliver conn env hdr [] rest consumed

/-- `ProxyConnection::recvMessage`, on a stream in fragments. -/
def recvMessage (conn : ProxyConnection) (env : RecvEnv) (as : List (Arrival UInt8)) : Receipt :=
  if !conn.connected || !conn.fdOpen then ⟨conn, .error .notConnected, as, [], none⟩
  else if !conn.poolReady then ⟨conn, .error .internalError, as, [], none⟩
  else
    let header := readExact smHdrSize [] as
    match header.error, recvHdr header.got with
    | some e, _ => lost conn e header.rest header.got
    -- does not occur: a whole header has been read
    | none, none => lost conn .recvFailed header.rest header.got
    | none, some (hdr, _) =>
        if smValidateHeader hdr (smHdrSize + hdr.length.toNat) env.headerNow ≠ 0 then
          ⟨conn.closed, .error .invalidResponse, header.rest, header.got, none⟩
        else recvPayload conn env hdr header.rest header.got

/-- A connection, its stream, and what has been read of it. -/
structure Receiver where
  conn : ProxyConnection
  arrivals : List (Arrival UInt8)
  consumed : List UInt8
  frames : List (SmHdr × List UInt8)

/-- One call of `recvMessage`. -/
def Receiver.recv (s : Receiver) (env : RecvEnv) : Receiver :=
  let r := recvMessage s.conn env s.arrivals
  ⟨r.conn, r.rest, s.consumed ++ r.consumed, s.frames ++ r.frame.toList⟩

def frameBytes (frame : SmHdr × List UInt8) : List UInt8 := encodeHdr frame.1 ++ frame.2

/-- On a connected stream nothing has been read since the last complete frame. -/
def Receiver.Aligned (s : Receiver) : Prop :=
  s.conn.connected = true → s.consumed = s.frames.flatMap frameBytes

/-- A valid header is read, and there is no block for its payload. -/
def Receiver.LosesHeader (s : Receiver) (env : RecvEnv) : Prop :=
  s.conn.connected = true ∧ s.conn.fdOpen = true ∧ s.conn.poolReady = true ∧
    env.poolAllocOk = false ∧
    (readExact smHdrSize [] s.arrivals).error = none ∧
    ∃ hdr ∈ (recvHdr (readExact smHdrSize [] s.arrivals).got).map Prod.fst,
      smValidateHeader hdr (smHdrSize + hdr.length.toNat) env.headerNow = smOk

theorem length_got {n : ℕ} {got : List UInt8} {as : List (Arrival UInt8)} (hle : got.length ≤ n)
    (hok : (readExact n got as).error = none) : (readExact n got as).got.length = n := by
  induction as generalizing got with
  | nil =>
      unfold readExact at hok ⊢
      split_ifs at hok ⊢ with hall
      exact le_antisymm hle hall
  | cons a as ih =>
      unfold readExact at hok ⊢
      split_ifs at hok ⊢ with hall
      · exact le_antisymm hle hall
      · cases a with
        | data b bs =>
            dsimp only at hok ⊢
            cases hdrop : (b :: bs).drop (n - got.length) with
            | nil =>
                have hlen : (b :: bs).length ≤ n - got.length := List.drop_eq_nil_iff.mp hdrop
                rw [hdrop] at hok
                exact ih (by rw [List.length_append]; omega) hok
            | cons c cs =>
                have hlen := congrArg List.length hdrop
                rw [List.length_drop, List.length_cons (a := c)] at hlen
                dsimp only
                rw [List.length_append, List.length_take]
                omega
        | interrupted => exact ih hle hok
        | again => cases hok
        | closed => cases hok
        | failed => cases hok

def Receipt.Whole (r : Receipt) : Prop := r.consumed = r.frame.toList.flatMap frameBytes

section Call

variable {conn : ProxyConnection} {env : RecvEnv} {hdr : SmHdr} {as : List (Arrival UInt8)}

theorem whole_deliver (payload : List UInt8) :
    (deliver conn env hdr payload as (encodeHdr hdr ++ payload)).Whole := by
  rw [Receipt.Whole, deliver, Option.toList_some, List.flatMap_singleton, frameBytes]

/-- With a block, a payload is read to its end or the connection is lost. -/
theorem whole_recvPayload (halloc : hdr.length > 0 → env.poolAllocOk = true)
    (hconn : (recvPayload conn env hdr as (encodeHdr hdr)).conn.connected = true) :
    (recvPayload conn env hdr as (encodeHdr hdr)).Whole := by
  by_cases hpos : hdr.length > 0
  · have hblock : ¬(!env.poolAllocOk) = true := by rw [halloc hpos]; decide
    rw [recvPayload, if_pos hpos, if_neg hblock] at hconn ⊢
    cases hread : (readExact hdr.length.toNat [] as).error with
    | some e =>
        simp only [hread, lost] at hconn
        cases hconn
    | none =>
        simp only [hread]
        exact whole_deliver _
  · rw [recvPayload, if_neg hpos]
    simpa using whole_deliver []

theorem got_eq_encodeHdr (hok : (readExact smHdrSize [] as).error = none) {rest : List UInt8}
    (hhdr : recvHdr (readExact smHdrSize [] as).got = some (hdr, rest)) :
    (readExact smHdrSize [] as).got = encodeHdr hdr := by
  have hlen := length_got (Nat.zero_le _) hok
  have hsplit := encodeHdr_of_recvHdr hhdr
  have hrest := congrArg List.length hsplit
  rw [List.length_append, length_encodeHdr, hlen] at hrest
  have hnil : rest = [] := List.eq_nil_of_length_eq_zero (by omega)
  rw [hsplit, hnil, List.append_nil]

theorem length_pos_of_valid {now : ℤ}
    (hvalid : smValidateHeader hdr (smHdrSize + hdr.length.toNat) now = smOk) :
    hdr.length > 0 := by
  have hlength := ((smValidateHeader_eq_smOk_iff hdr now).mp hvalid).1.length
  rw [not_or] at hlength
  rw [gt_iff_lt, UInt32.lt_iff_toNat_lt, UInt32.toNat_zero]
  exact Nat.pos_of_ne_zero fun hzero => hlength.1 (UInt32.toNat_inj.mp hzero)

end Call

section Recv

variable {s : Receiver} {env : RecvEnv}

theorem recvMessage_of_losesHeader (h : s.LosesHeader env) :
    (recvMessage s.conn env s.arrivals).conn.connected = true ∧
      ¬(recvMessage s.conn env s.arrivals).Whole := by
  obtain ⟨hconn, hfd, hpool, halloc, hok, hdr, hmem, hvalid⟩ := h
  obtain ⟨⟨hdr', rest⟩, hhdr, rfl⟩ := Option.map_eq_some_iff.mp hmem
  dsimp only at hvalid
  have hpos := length_pos_of_valid hvalid
  have hgot := got_eq_encodeHdr hok hhdr
  have hread : recvHdr (encodeHdr hdr') = some (hdr', rest) := by rw [← hgot, hhdr]
  have hmsg : recvMessage s.conn env s.arrivals =
      ⟨s.conn, .error .bufferFull, (readExact smHdrSize [] s.arrivals).rest,
        encodeHdr hdr', none⟩ := by
    have hvalid' : ¬smValidateHeader hdr' (smHdrSize + hdr'.length.toNat) env.headerNow ≠ 0 :=
      not_not.mpr hvalid
    simp only [recvMessage, hconn, hfd, hpool, hok, hgot, hread, if_neg hvalid', recvPayload,
      if_pos hpos, halloc, Bool.not_true, Bool.not_false, Bool.or_self, Bool.false_eq_true,
      if_false, if_true]
  rw [hmsg]
  refine ⟨hconn, fun hwhole => ?_⟩
  have hlen := congrArg List.length hwhole
  have hsize : smHdrSize = 0 := (length_encodeHdr hdr').symm.trans hlen
  cases hsize

/-- Every other call that leaves the connection open reads a whole frame or nothing. -/
theorem whole_of_not_losesHeader (h : ¬s.LosesHeader env)
    (hconn : (recvMessage s.conn env s.arrivals).conn.connected = true) :
    (recvMessage s.conn env s.arrivals).Whole := by
  unfold recvMessage at hconn ⊢
  split_ifs at hconn ⊢ with hclosed hpool
  · rfl
  · rfl
  · simp only [Bool.or_eq_true, Bool.not_eq_true', not_or, Bool.not_eq_false] at hclosed hpool
    dsimp only at hconn ⊢
    cases hok : (readExact smHdrSize [] s.arrivals).error with
    | some e =>
        simp only [hok, lost] at hconn
        cases hconn
    | none =>
        cases hhdr : recvHdr (readExact smHdrSize [] s.arrivals).got with
        | none =>
            simp only [hok, hhdr, lost] at hconn
            cases hconn
        | some read =>
            obtain ⟨hdr, rest⟩ := read
            simp only [hok, hhdr] at hconn ⊢
            split_ifs at hconn ⊢ with hvalid
            · cases hconn
            · rw [got_eq_encodeHdr hok hhdr] at hconn ⊢
              refine whole_recvPayload (fun _ => ?_) hconn
              by_contra halloc
              refine h ⟨hclosed.1, hclosed.2, hpool, Bool.eq_false_iff.mpr halloc, hok, hdr, ?_,
                not_not.mp hvalid⟩
              rw [hhdr]
              rfl

/-- A call keeps the stream aligned exactly when it does not lose a header. -/
theorem aligned_recv_iff (h : s.Aligned) : (s.recv env).Aligned ↔ ¬s.LosesHeader env := by
  by_cases hconn : s.conn.connected = true
  · have hwhole : (s.recv env).consumed = (s.recv env).frames.flatMap frameBytes ↔
        (recvMessage s.conn env s.arrivals).Whole := by
      rw [Receiver.recv, List.flatMap_append, ← h hconn, List.append_cancel_left_eq,
        Receipt.Whole]
    rw [Receiver.Aligned, hwhole]
    constructor
    · intro haligned hloses
      obtain ⟨hopen, hpart⟩ := recvMessage_of_losesHeader hloses
      exact hpart (haligned hopen)
    · exact fun hloses => whole_of_not_losesHeader hloses
  · refine iff_of_true (fun hopen => ?_) fun hloses => hconn hloses.1
    have hsame : (recvMessage s.conn env s.arrivals).conn = s.conn := by
      rw [recvMessage, if_pos (by simp [hconn])]
    exact absurd (hsame ▸ hopen) hconn

end Recv

/-- A connection whose stream is read from its start. -/
def opened (conn : ProxyConnection) (as : List (Arrival UInt8)) : Receiver := ⟨conn, as, [], []⟩

/-- The stream stays aligned all along exactly when no header is lost to an exhausted
pool. -/
theorem aligned_run_iff (conn : ProxyConnection) (as : List (Arrival UInt8))
    (envs : List RecvEnv) :
    (∀ before, before <+: envs → (run Receiver.recv (opened conn as) before).Aligned) ↔
      Guarded Receiver.recv (fun s env => ¬s.LosesHeader env) (opened conn as) envs :=
  forall_prefix_iff_guarded (J := fun _ => True) (P := fun _ => True)
    (fun _ _ _ _ _ _ => trivial) (fun _ _ _ _ hI => aligned_recv_iff hI) trivial (fun _ => rfl)
    fun _ _ => trivial

def heartbeatArrivals : List (Arrival UInt8) :=
  (encodeHdr forgedHdr ++ [1]).map fun b => .data b []

theorem not_aligned_exhausted :
    ¬∀ (conn : ProxyConnection) (as : List (Arrival UInt8)) (envs : List RecvEnv),
      (run Receiver.recv (opened conn as) envs).Aligned := by
  intro hlaw
  have haligned := hlaw openConnection heartbeatArrivals [{ forgedEnv with poolAllocOk := false }]
  refine absurd haligned (mt (aligned_recv_iff fun _ => rfl).mp (not_not.mpr ?_))
  refine ⟨rfl, rfl, rfl, rfl, ?_, forgedHdr, ?_, ?_⟩
  · decide
  · decide
  · decide

end FrameBoundary

end Proxy

end Shinigami
