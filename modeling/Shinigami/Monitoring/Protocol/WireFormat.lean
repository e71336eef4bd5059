import Mathlib.Tactic.SplitIfs
import Shinigami.Foundations.ByteStream
import Shinigami.Foundations.LittleEndian

/-!
# The wire format of the monitor

Frames of a 16 byte header and a payload, as `monitor_wire_format.h` sends and
receives them. A send or a receive is a function of what its `write` or `read` calls
meet; it is `none` when they end before it does, that is while it blocks.
-/

namespace Shinigami

namespace Monitoring

open ByteStream LittleEndian

def monMsgMagic : UInt32 := 0x4D4F4E00

def monProtocolVersion : UInt8 := 1

def monMaxPayloadBytes : ℕ := 16 * 1024 * 1024

def monHeaderSize : ℕ := 16

/-- `mon_msg_type_t`. -/
inductive MonMsgType where
  | hello
  | welcome
  | snapshotReq
  | snapshotResp
  | subscribeLogs
  | logEvent
  | subscribeAlerts
  | alertEvent
  | subscribeTraces
  | traceEvent
  | goodbye
deriving DecidableEq, Repr

def MonMsgType.code : MonMsgType → UInt8
  | .hello => 0x01
  | .welcome => 0x02
  | .snapshotReq => 0x10
  | .snapshotResp => 0x11
  | .subscribeLogs => 0x20
  | .logEvent => 0x21
  | .subscribeAlerts => 0x22
  | .alertEvent => 0x23
  | .subscribeTraces => 0x24
  | .traceEvent => 0x25
  | .goodbye => 0xFF

/-- The return codes `MON_WIRE_*`. -/
inductive WireRc where
  | ok
  | errIo
  | errEof
  | errFrame
  | errSize
  | errAgain
deriving DecidableEq, Repr

/-- `mon_msg_header_t`. -/
structure MonMsgHeader where
  magic : UInt32
  type : UInt8
  version : UInt8
  flags : UInt16
  length : UInt32
  seq : UInt32
deriving DecidableEq, Repr

/-- The packed struct in memory. -/
def MonMsgHeader.bytes (hdr : MonMsgHeader) : List UInt8 :=
  leBytes 4 hdr.magic.toNat ++ [hdr.type, hdr.version] ++ leBytes 2 hdr.flags.toNat ++
    leBytes 4 hdr.length.toNat ++ leBytes 4 hdr.seq.toNat

def MonMsgHeader.ofBytes (s : List UInt8) : MonMsgHeader where
  magic := UInt32.ofNat (leNat (s.take 4))
  type := (s.drop 4).headD 0
  version := (s.drop 5).headD 0
  flags := UInt16.ofNat (leNat ((s.drop 6).take 2))
  length := UInt32.ofNat (leNat ((s.drop 8).take 4))
  seq := UInt32.ofNat (leNat ((s.drop 12).take 4))

@[simp] theorem MonMsgHeader.length_bytes (hdr : MonMsgHeader) :
    hdr.bytes.length = monHeaderSize := by
  simp [bytes, monHeaderSize]

theorem MonMsgHeader.ofBytes_bytes (hdr : MonMsgHeader) : ofBytes hdr.bytes = hdr := by
  have h0 : hdr.bytes.take 4 = leBytes 4 hdr.magic.toNat := by
    simp [bytes]
  have h4 : (hdr.bytes.drop 4).headD 0 = hdr.type := by
    simp [bytes]
  have h5 : (hdr.bytes.drop 5).headD 0 = hdr.version := by
    simp [bytes]
  have h6 : (hdr.bytes.drop 6).take 2 = leBytes 2 hdr.flags.toNat := by
    simp [bytes, List.drop_append]
  have h8 : (hdr.bytes.drop 8).take 4 = leBytes 4 hdr.length.toNat := by
    simp [bytes, List.drop_append]
  have h12 : (hdr.bytes.drop 12).take 4 = leBytes 4 hdr.seq.toNat := by
    simp [bytes, List.drop_append, List.take_of_length_le]
  rw [ofBytes, h0, h4, h5, h6, h8, h12]
  simp only [ofNat_leNat_leBytes_uint16, ofNat_leNat_leBytes_uint32]

/-! ## Sending -/

/-- The end of a `mon_write_all`: what has gone into the stream, and the calls that
were not made. -/
structure WriteAll where
  ok : Bool
  written : List UInt8
  rest : List Room

/-- `mon_write_all` of the bytes that are not yet done. -/
def monWriteAll (buf : List UInt8) : List Room → Option WriteAll
  | [] => if buf = [] then some ⟨true, [], []⟩ else none
  | room :: rooms =>
      if buf = [] then some ⟨true, [], room :: rooms⟩
      else
        match room with
        | .accepts k =>
            (monWriteAll (buf.drop (k + 1)) rooms).map fun w =>
              { w with written := buf.take (k + 1) ++ w.written }
        | .interrupted => monWriteAll buf rooms
        | .failed => some ⟨false, [], rooms⟩

structure Send where
  rc : WireRc
  written : List UInt8
  rest : List Room

/-- The header of `mon_send_msg`. -/
def sendHeader (type : MonMsgType) (seq payloadLen : UInt32) : MonMsgHeader where
  magic := monMsgMagic
  type := type.code
  version := monProtocolVersion
  flags := 0
  length := payloadLen
  seq := seq

/-- `mon_send_msg`; the payload is `none` for a null pointer. -/
def monSendMsg (type : MonMsgType) (seq : UInt32) (payload : Option (List UInt8))
    (payloadLen : UInt32) (rooms : List Room) : Option Send :=
  match monWriteAll (sendHeader type seq payloadLen).bytes rooms with
  | none => none
  | some hdr =>
      if !hdr.ok then some ⟨.errIo, hdr.written, hdr.rest⟩
      else
        match payload with
        | none => some ⟨.ok, hdr.written, hdr.rest⟩
        | some buf =>
            if payloadLen > 0 then
              match monWriteAll (buf.take payloadLen.toNat) hdr.rest with
              | none => none
              | some body =>
                  let rc := if body.ok then .ok else .errIo
                  some ⟨rc, hdr.written ++ body.written, body.rest⟩
            else some ⟨.ok, hdr.written, hdr.rest⟩

/-! ## Receiving -/

/-- The end of a `mon_read_all`: what stands in the buffer, and what the stream still
brings. -/
structure ReadAll where
  rc : WireRc
  buf : List UInt8
  rest : List (Arrival UInt8)

/-- `mon_read_all` of `n` bytes, with those that are done. -/
def monReadAll (n : ℕ) (done : List UInt8) : List (Arrival UInt8) → Option ReadAll
  | [] => if n ≤ done.length then some ⟨.ok, done, []⟩ else none
  | a :: as =>
      if n ≤ done.length then some ⟨.ok, done, a :: as⟩
      else
        match a with
        | .data b bs =>
            -- a read takes no more than it asks for, the rest of the fragment stays
            match (b :: bs).drop (n - done.length) with
            | [] => monReadAll n (done ++ (b :: bs)) as
            | c :: cs =>
                some ⟨.ok, done ++ (b :: bs).take (n - done.length), .data c cs :: as⟩
        | .interrupted => monReadAll n done as
        | .again =>
            if done = [] then some ⟨.errAgain, done, as⟩ else monReadAll n done as
        | .closed => some ⟨.errEof, done, .closed :: as⟩
        | .failed => some ⟨.errIo, done, as⟩

/-- The end of a `mon_recv_header`. The header is `none` as long as it has not been
read. -/
structure RecvHeader where
  rc : WireRc
  hdr : Option MonMsgHeader
  rest : List (Arrival UInt8)

def monRecvHeader (as : List (Arrival UInt8)) : Option RecvHeader :=
  (monReadAll monHeaderSize [] as).map fun r =>
    if r.rc ≠ .ok then ⟨r.rc, none, r.rest⟩
    else
      let hdr := MonMsgHeader.ofBytes r.buf
      if hdr.magic ≠ monMsgMagic then ⟨.errFrame, some hdr, r.rest⟩
      else if hdr.version ≠ monProtocolVersion then ⟨.errFrame, some hdr, r.rest⟩
      else if hdr.length.toNat > monMaxPayloadBytes then ⟨.errSize, some hdr, r.rest⟩
      else ⟨.ok, some hdr, r.rest⟩

/-- The end of a `mon_recv_msg`: the header and the bytes that have been stored, and
`*read_len` once it is set. -/
structure RecvMsg where
  rc : WireRc
  hdr : Option MonMsgHeader
  buf : List UInt8
  readLen : Option ℕ
  rest : List (Arrival UInt8)

def monRecvMsg (bufSize : ℕ) (as : List (Arrival UInt8)) : Option RecvMsg :=
  match monRecvHeader as with
  | none => none
  | some ⟨rc, none, rest⟩ => some ⟨rc, none, [], none, rest⟩
  | some ⟨rc, some hdr, rest⟩ =>
      if rc ≠ .ok then some ⟨rc, some hdr, [], none, rest⟩
      else if hdr.length = 0 then some ⟨.ok, some hdr, [], some 0, rest⟩
      else if hdr.length.toNat > bufSize then some ⟨.errSize, some hdr, [], some 0, rest⟩
      else
        match monReadAll hdr.length.toNat [] rest with
        | none => none
        | some r =>
            if r.rc ≠ .ok then some ⟨r.rc, some hdr, r.buf, some 0, r.rest⟩
            else some ⟨.ok, some hdr, r.buf, some hdr.length.toNat, r.rest⟩

/-! ## Messages -/

/-- What a caller sends. An empty payload may be a null pointer. -/
structure Message where
  type : MonMsgType
  seq : UInt32
  payload : Option (List UInt8)
  length_le : (payload.getD []).length ≤ monMaxPayloadBytes

namespace Message

def content (m : Message) : List UInt8 := m.payload.getD []

def payloadLen (m : Message) : UInt32 := UInt32.ofNat m.content.length

def header (m : Message) : MonMsgHeader := sendHeader m.type m.seq m.payloadLen

def frame (m : Message) : List UInt8 := m.header.bytes ++ m.content

theorem toNat_payloadLen (m : Message) : m.payloadLen.toNat = m.content.length := by
  have hlt : m.content.length < 2 ^ 32 := Nat.lt_of_le_of_lt m.length_le (by decide)
  exact UInt32.toNat_ofNat_of_lt' hlt

theorem payloadLen_eq_zero_iff (m : Message) : m.payloadLen = 0 ↔ m.content = [] := by
  rw [← UInt32.toNat_inj, m.toNat_payloadLen, UInt32.toNat_zero, List.length_eq_zero_iff]

@[simp] theorem length_frame (m : Message) :
    m.frame.length = monHeaderSize + m.content.length := by
  rw [frame, List.length_append, MonMsgHeader.length_bytes]

end Message

/-- The stream of several messages. -/
def frames (msgs : List Message) : List UInt8 := (msgs.map Message.frame).flatten

@[simp] theorem frames_nil : frames [] = [] := rfl

@[simp] theorem frames_cons (m : Message) (msgs : List Message) :
    frames (m :: msgs) = m.frame ++ frames msgs := rfl

/-- Messages sent one after the other: the return codes and the stream. -/
def sendMsgs : List Message → List Room → Option (List WireRc × List UInt8)
  | [], _ => some ([], [])
  | m :: msgs, rooms =>
      match monSendMsg m.type m.seq m.payload m.payloadLen rooms with
      | none => none
      | some sent =>
          (sendMsgs msgs sent.rest).map fun later =>
            (sent.rc :: later.1, sent.written ++ later.2)

/-- A call of `mon_recv_msg` that has returned, and where it started. -/
structure Call where
  start : List (Arrival UInt8)
  result : RecvMsg

/-- The first calls of a receiver that calls again and again. -/
def recvMsgs (bufSize : ℕ) : ℕ → List (Arrival UInt8) → List Call
  | 0, _ => []
  | k + 1, as =>
      match monRecvMsg bufSize as with
      | none => []
      | some r => ⟨as, r⟩ :: recvMsgs bufSize k r.rest

@[simp] theorem monWriteAll_nil (rooms : List Room) :
    monWriteAll [] rooms = some ⟨true, [], rooms⟩ := by
  cases rooms with
  | nil => rfl
  | cons room rooms => cases room <;> rfl

theorem monWriteAll_eq {rooms : List Room} {buf : List UInt8} (hrooms : .failed ∉ rooms)
    (hroom : buf.length ≤ accepted rooms) :
    ∃ rest, monWriteAll buf rooms = some ⟨true, buf, rest⟩ ∧ .failed ∉ rest ∧
      accepted rooms ≤ accepted rest + buf.length := by
  induction rooms generalizing buf with
  | nil =>
      obtain rfl : buf = [] := List.length_eq_zero_iff.mp (Nat.le_zero.mp hroom)
      exact ⟨[], rfl, hrooms, Nat.le_refl _⟩
  | cons room rooms ih =>
      have hrest : .failed ∉ rooms := fun hmem => hrooms (List.mem_cons_of_mem room hmem)
      by_cases hbuf : buf = []
      · rw [hbuf, monWriteAll_nil]
        exact ⟨room :: rooms, rfl, hrooms, Nat.le_add_right _ _⟩
      · have hpos : 0 < buf.length := List.length_pos_iff.mpr hbuf
        cases room with
        | accepts k =>
            rw [accepted] at hroom ⊢
            have hlen : (buf.drop (k + 1)).length = buf.length - (k + 1) := List.length_drop
            have hdrop : (buf.drop (k + 1)).length ≤ accepted rooms := by omega
            obtain ⟨rest, heq, hfailed, hleft⟩ := ih hrest hdrop
            refine ⟨rest, ?_, hfailed, by omega⟩
            rw [monWriteAll, if_neg hbuf, heq, Option.map_some]
            simp only [List.take_append_drop]
        | interrupted =>
            rw [monWriteAll, if_neg hbuf]
            exact ih hrest hroom
        | failed => exact absurd (List.mem_cons_self ..) hrooms

theorem monSendMsg_eq (m : Message) {rooms : List Room} (hrooms : .failed ∉ rooms)
    (hroom : m.frame.length ≤ accepted rooms) :
    ∃ rest, monSendMsg m.type m.seq m.payload m.payloadLen rooms =
        some ⟨.ok, m.frame, rest⟩ ∧ .failed ∉ rest ∧
      accepted rooms ≤ accepted rest + m.frame.length := by
  rw [Message.length_frame] at hroom ⊢
  have hlen := m.header.length_bytes
  have hhdrRoom : m.header.bytes.length ≤ accepted rooms := by omega
  obtain ⟨rest, hhdr, hrest, hleft⟩ := monWriteAll_eq hrooms hhdrRoom
  rw [Message.header] at hhdr
  rw [monSendMsg, hhdr]
  dsimp only
  rw [if_neg (by decide)]
  cases hpayload : m.payload with
  | none =>
      have hcontent : m.content = [] := by simp [Message.content, hpayload]
      exact ⟨rest, by simp [Message.frame, Message.header, hcontent], hrest, by omega⟩
  | some buf =>
      have hcontent : m.content = buf := by simp [Message.content, hpayload]
      have htake : buf.take m.payloadLen.toNat = m.content := by
        rw [m.toNat_payloadLen, hcontent, List.take_length]
      have hbodyRoom : m.content.length ≤ accepted rest := by omega
      obtain ⟨rest', hbody, hrest', hleft'⟩ := monWriteAll_eq hrest hbodyRoom
      dsimp only
      split_ifs with hlen'
      · rw [htake, hbody]
        exact ⟨rest', rfl, hrest', by omega⟩
      · have hzero : m.payloadLen.toNat = 0 := Nat.eq_zero_of_not_pos hlen'
        have hempty : m.content = [] := by
          rwa [m.toNat_payloadLen, List.length_eq_zero_iff] at hzero
        exact ⟨rest, by simp [Message.frame, Message.header, hempty], hrest, by omega⟩

theorem sendMsgs_eq (msgs : List Message) {rooms : List Room} (hrooms : .failed ∉ rooms)
    (hroom : (frames msgs).length ≤ accepted rooms) :
    sendMsgs msgs rooms = some (msgs.map fun _ => .ok, frames msgs) := by
  induction msgs generalizing rooms with
  | nil => rfl
  | cons m msgs ih =>
      rw [frames_cons, List.length_append] at hroom
      obtain ⟨rest, heq, hrest, hleft⟩ := monSendMsg_eq m hrooms (by omega)
      rw [sendMsgs, heq]
      dsimp only
      rw [ih hrest (by omega)]
      rfl

theorem monReadAll_of_le {n : ℕ} {done : List UInt8} (h : n ≤ done.length)
    (as : List (Arrival UInt8)) : monReadAll n done as = some ⟨.ok, done, as⟩ := by
  cases as with
  | nil => exact if_pos h
  | cons a as => cases a <;> exact if_pos h

/-- A fragment is taken as a whole, or it brings all that is missing and more. -/
theorem monReadAll_data {n : ℕ} {done : List UInt8} (hlt : done.length < n) (b : UInt8)
    (bs : List UInt8) (as : List (Arrival UInt8)) :
    (done.length + (bs.length + 1) ≤ n ∧
        monReadAll n done (.data b bs :: as) = monReadAll n (done ++ (b :: bs)) as) ∨
      ∃ got c cs, b :: bs = got ++ c :: cs ∧ done.length + got.length = n ∧
        monReadAll n done (.data b bs :: as) = some ⟨.ok, done ++ got, .data c cs :: as⟩ := by
  rw [monReadAll, if_neg (Nat.not_le.mpr hlt)]
  cases hdrop : (b :: bs).drop (n - done.length) with
  | nil =>
      have hlen : bs.length + 1 ≤ n - done.length := List.drop_eq_nil_iff.mp hdrop
      exact .inl ⟨by omega, rfl⟩
  | cons c cs =>
      have hlen := congrArg List.length hdrop
      rw [List.length_drop, List.length_cons, List.length_cons] at hlen
      refine .inr ⟨(b :: bs).take (n - done.length), c, cs, ?_, ?_, rfl⟩
      · rw [← hdrop, List.take_append_drop]
      · rw [List.length_take, List.length_cons]
        omega

theorem monReadAll_partial {n : ℕ} {done : List UInt8} {as : List (Arrival UInt8)}
    (hopen : AllOpen as) (hdone : done ≠ []) (hle : done.length ≤ n)
    (henough : n ≤ done.length + (bytesOf as).length) :
    ∃ got rest, monReadAll n done as = some ⟨.ok, done ++ got, rest⟩ ∧
      done.length + got.length = n ∧ Consumed as got rest := by
  induction as generalizing done with
  | nil =>
      have hall : n ≤ done.length := by
        simpa only [bytesOf_nil, List.length_nil, Nat.add_zero] using henough
      exact ⟨[], [], by rw [monReadAll_of_le hall, List.append_nil],
        Nat.le_antisymm hle hall, .refl []⟩
  | cons a as ih =>
      rcases Nat.lt_or_ge done.length n with hlt | hall
      · cases a with
        | data b bs =>
            rcases monReadAll_data hlt b bs as with ⟨hfits, heq⟩ | ⟨got, c, cs, hsplit, hlen, heq⟩
            · have hlen : (done ++ (b :: bs)).length = done.length + (bs.length + 1) :=
                List.length_append
              rw [bytesOf_data, List.length_append, List.length_cons] at henough
              obtain ⟨got, rest, hread, hn, hconsumed⟩ := ih hopen.tail
                (List.append_ne_nil_of_left_ne_nil hdone _) (hlen ▸ hfits) (by omega)
              refine ⟨b :: bs ++ got, rest, ?_, ?_, hconsumed.data b bs⟩
              · rw [heq, hread, List.append_assoc]
              · rw [← hn, hlen, List.length_append, List.length_cons]
                omega
            · exact ⟨got, _, heq, hlen, .split hsplit as⟩
        | interrupted =>
            obtain ⟨got, rest, hread, hn, hconsumed⟩ := ih hopen.tail hdone hle henough
            refine ⟨got, rest, ?_, hn, hconsumed.interrupted⟩
            rw [monReadAll, if_neg (Nat.not_le.mpr hlt), hread]
        | again =>
            obtain ⟨got, rest, hread, hn, hconsumed⟩ := ih hopen.tail hdone hle henough
            have hgot : got ≠ [] := by
              rintro rfl
              exact absurd hn (Nat.ne_of_lt hlt)
            refine ⟨got, rest, ?_, hn, hconsumed.again hgot⟩
            rw [monReadAll, if_neg (Nat.not_le.mpr hlt), if_neg hdone, hread]
        | closed => exact absurd rfl (hopen .closed (List.mem_cons_self ..)).1
        | failed => exact absurd rfl (hopen .failed (List.mem_cons_self ..)).2
      · exact ⟨[], a :: as, by rw [monReadAll_of_le hall, List.append_nil],
          Nat.le_antisymm hle hall, .refl _⟩

/-- How a read ends on an open stream that brings all of it or nothing: a timeout comes
before the first byte, it blocks, or it gets everything. -/
theorem monReadAll_cases {n : ℕ} {as : List (Arrival UInt8)} (hn : 0 < n)
    (hopen : AllOpen as) (henough : bytesOf as = [] ∨ n ≤ (bytesOf as).length) :
    (∃ rest, monReadAll n [] as = some ⟨.errAgain, [], rest⟩ ∧
        bytesOf rest = bytesOf as ∧ AllOpen rest ∧
        ∀ pos, timeouts pos as = pos :: timeouts pos rest) ∨
      (bytesOf as = [] ∧ monReadAll n [] as = none ∧ ∀ pos, timeouts pos as = []) ∨
      ∃ got rest, monReadAll n [] as = some ⟨.ok, got, rest⟩ ∧ got.length = n ∧
        Consumed as got rest ∧ ∀ pos, pos ∉ timeouts pos as := by
  have hlt : ([] : List UInt8).length < n := hn
  have hnone : ¬n ≤ ([] : List UInt8).length := Nat.not_le.mpr hlt
  induction as with
  | nil => exact .inr (.inl ⟨rfl, if_neg hnone, fun _ => rfl⟩)
  | cons a as ih =>
      cases a with
      | data b bs =>
          refine .inr (.inr ?_)
          rcases monReadAll_data hlt b bs as with ⟨hfits, heq⟩ | ⟨got, c, cs, hsplit, hlen, heq⟩
          · have henough' : n ≤ (b :: bs).length + (bytesOf as).length := by
              rcases henough with hempty | henough
              · cases hempty
              · rwa [bytesOf_data, List.length_append] at henough
            obtain ⟨got, rest, hread, hlen, hconsumed⟩ := monReadAll_partial hopen.tail
              (List.cons_ne_nil b bs) (Nat.le_trans (Nat.le_of_eq (Nat.zero_add _).symm) hfits)
              henough'
            refine ⟨b :: bs ++ got, rest, heq.trans hread, ?_, hconsumed.data b bs,
              fun pos => not_mem_timeouts_data pos b bs as⟩
            rw [List.length_append, hlen]
          · exact ⟨got, _, heq, (Nat.zero_add _).symm.trans hlen, .split hsplit as,
              fun pos => not_mem_timeouts_data pos b bs as⟩
      | interrupted =>
          have hstep : monReadAll n [] (.interrupted :: as) = monReadAll n [] as := if_neg hnone
          rw [hstep]
          rcases ih hopen.tail henough with hagain | hblock | ⟨got, rest, hread, hlen, hc, hpos⟩
          · exact .inl hagain
          · exact .inr (.inl hblock)
          · exact .inr (.inr ⟨got, rest, hread, hlen, hc.interrupted, hpos⟩)
      | again =>
          refine .inl ⟨as, ?_, rfl, hopen.tail, fun _ => rfl⟩
          rw [monReadAll, if_neg hnone, if_pos rfl]
      | closed => exact absurd rfl (hopen .closed (List.mem_cons_self ..)).1
      | failed => exact absurd rfl (hopen .failed (List.mem_cons_self ..)).2

def Message.received (m : Message) (rest : List (Arrival UInt8)) : RecvMsg where
  rc := .ok
  hdr := some m.header
  buf := m.content
  readLen := some m.content.length
  rest := rest

theorem monRecvHeader_of_frame (m : Message) {as rest : List (Arrival UInt8)}
    (hread : monReadAll monHeaderSize [] as = some ⟨.ok, m.header.bytes, rest⟩) :
    monRecvHeader as = some ⟨.ok, some m.header, rest⟩ := by
  have hlen : ¬m.header.length.toNat > monMaxPayloadBytes := by
    have hpayload : m.header.length = m.payloadLen := rfl
    rw [hpayload, m.toNat_payloadLen]
    exact Nat.not_lt.mpr m.length_le
  have hmagic : m.header.magic = monMsgMagic := rfl
  have hversion : m.header.version = monProtocolVersion := rfl
  simp [monRecvHeader, hread, MonMsgHeader.ofBytes_bytes, hlen, hmagic, hversion]

theorem monRecvMsg_of_empty (m : Message) {bufSize : ℕ} {as rest : List (Arrival UInt8)}
    (hhdr : monRecvHeader as = some ⟨.ok, some m.header, rest⟩) (hempty : m.content = []) :
    monRecvMsg bufSize as = some (m.received rest) := by
  have hlen : m.header.length = 0 := m.payloadLen_eq_zero_iff.mpr hempty
  simp [monRecvMsg, hhdr, hlen, Message.received, hempty]

theorem monRecvMsg_of_content (m : Message) {bufSize : ℕ} {as rest : List (Arrival UInt8)}
    (hhdr : monRecvHeader as = some ⟨.ok, some m.header, rest⟩) (hcontent : m.content ≠ [])
    (hbuf : m.content.length ≤ bufSize) :
    monRecvMsg bufSize as =
      (monReadAll m.content.length [] rest).map fun r =>
        if r.rc ≠ .ok then ⟨r.rc, some m.header, r.buf, some 0, r.rest⟩
        else ⟨.ok, some m.header, r.buf, some m.content.length, r.rest⟩ := by
  have hlen : m.header.length ≠ 0 := fun h => hcontent (m.payloadLen_eq_zero_iff.mp h)
  have hsize : m.header.length.toNat = m.content.length := m.toNat_payloadLen
  rw [monRecvMsg, hhdr]
  dsimp only
  rw [if_neg (by decide), if_neg hlen, hsize, if_neg (Nat.not_lt.mpr hbuf)]
  cases monReadAll m.content.length [] rest with
  | none => rfl
  | some r =>
      rw [Option.map_some]
      dsimp only
      split_ifs <;> rfl

/-- What the payload read does after the header: a timeout comes first, or the frame is
received. -/
theorem monRecvMsg_after_header (m : Message) {bufSize : ℕ} {as rest : List (Arrival UInt8)}
    {later : List UInt8} (hhdr : monRecvHeader as = some ⟨.ok, some m.header, rest⟩)
    (hopen : AllOpen rest) (hbytes : bytesOf rest = m.content ++ later)
    (hbuf : m.content.length ≤ bufSize) :
    (∃ r, m.content ≠ [] ∧ monRecvMsg bufSize as = some r ∧ r.rc = .errAgain ∧
        bytesOf r.rest = bytesOf rest ∧ ∀ pos, pos ∈ timeouts pos rest) ∨
      ∃ rest', monRecvMsg bufSize as = some (m.received rest') ∧
        Consumed rest m.content rest' ∧ ∀ pos, m.content ≠ [] → pos ∉ timeouts pos rest := by
  by_cases hempty : m.content = []
  · exact .inr ⟨rest, monRecvMsg_of_empty m hhdr hempty, hempty ▸ .refl rest,
      fun _ hne => absurd hempty hne⟩
  · have hrecv := monRecvMsg_of_content m hhdr hempty hbuf
    have henough : m.content.length ≤ (bytesOf rest).length := by
      rw [hbytes, List.length_append]
      exact Nat.le_add_right _ _
    have hpos : 0 < m.content.length := List.length_pos_iff.mpr hempty
    rcases monReadAll_cases hpos hopen (.inr henough) with
      ⟨rest', hread, hkeep, -, htimes⟩ | ⟨hnone, -, -⟩ | ⟨got, rest', hread, hlen, hc, hfree⟩
    · refine .inl ⟨_, hempty, by rw [hrecv, hread, Option.map_some], rfl, hkeep, fun pos => ?_⟩
      rw [htimes]
      exact List.mem_cons_self ..
    · rw [hnone, List.length_nil] at henough
      omega
    · have hgot : m.content = got :=
        (List.append_inj (hbytes.symm.trans hc.bytesOf_eq) hlen.symm).1
      refine .inr ⟨rest', ?_, hgot ▸ hc, fun pos _ => hfree pos⟩
      rw [hrecv, hread, Option.map_some, ← hgot]
      rfl

/-- How a call ends on a stream of frames: a timeout comes in front of a frame, there is
no frame, a timeout comes between a header and its payload, or a frame is received. -/
theorem monRecvMsg_cases {bufSize : ℕ} {msgs : List Message} {as : List (Arrival UInt8)}
    (hopen : AllOpen as) (hbytes : bytesOf as = frames msgs)
    (hbuf : ∀ m ∈ msgs, m.content.length ≤ bufSize) :
    (∃ r, monRecvMsg bufSize as = some r ∧ r.rc = .errAgain ∧ bytesOf r.rest = bytesOf as ∧
        AllOpen r.rest ∧ ∀ pos, timeouts pos as = pos :: timeouts pos r.rest) ∨
      (msgs = [] ∧ monRecvMsg bufSize as = none ∧ ∀ pos, timeouts pos as = []) ∨
      (∃ m later r, msgs = m :: later ∧ m.content ≠ [] ∧ monRecvMsg bufSize as = some r ∧
        r.rc = .errAgain ∧ bytesOf r.rest ≠ bytesOf as ∧
        ∀ pos, pos + monHeaderSize ∈ timeouts pos as) ∨
      ∃ m later rest, msgs = m :: later ∧
        monRecvMsg bufSize as = some (m.received rest) ∧ Consumed as m.frame rest ∧
        ∀ pos, m.content ≠ [] → pos + monHeaderSize ∉ timeouts pos as := by
  have hhdrSize : 0 < monHeaderSize := by decide
  have henough : bytesOf as = [] ∨ monHeaderSize ≤ (bytesOf as).length := by
    rw [hbytes]
    cases msgs with
    | nil => exact .inl rfl
    | cons m later =>
        rw [frames_cons, List.length_append, Message.length_frame]
        exact .inr (by omega)
  rcases monReadAll_cases hhdrSize hopen henough with
    ⟨rest, hread, hkeep, hrest, htimes⟩ | ⟨hempty, hread, htimes⟩ |
    ⟨got, rest, hread, hlen, hconsumed, hpos⟩
  · refine .inl ⟨⟨.errAgain, none, [], none, rest⟩, ?_, rfl, hkeep, hrest, htimes⟩
    simp [monRecvMsg, monRecvHeader, hread]
  · refine .inr (.inl ⟨?_, by simp [monRecvMsg, monRecvHeader, hread], htimes⟩)
    cases msgs with
    | nil => rfl
    | cons m later =>
        have hlen : (m.frame ++ frames later).length = 0 := by
          rw [← frames_cons, ← hbytes, hempty, List.length_nil]
        rw [List.length_append, Message.length_frame] at hlen
        omega
  · cases msgs with
    | nil =>
        have hnone := hbytes.symm.trans hconsumed.bytesOf_eq
        rw [(List.append_eq_nil_iff.mp hnone.symm).1] at hlen
        exact absurd hlen (by decide)
    | cons m later =>
        have hframes : m.header.bytes ++ (m.content ++ frames later) = got ++ bytesOf rest := by
          rw [← List.append_assoc, ← hconsumed.bytesOf_eq, hbytes]
          rfl
        obtain ⟨rfl, hrest⟩ :=
          List.append_inj hframes (m.header.length_bytes.trans hlen.symm)
        have hhdr := monRecvHeader_of_frame m hread
        have hpassed : ∀ pos, (pos + monHeaderSize ∈ timeouts pos as ↔
            pos + monHeaderSize ∈ timeouts (pos + monHeaderSize) rest) := by
          intro pos
          obtain ⟨passed, htimes, hlt⟩ := hconsumed.timeouts_eq pos
          rw [htimes, hlen, List.mem_append, or_iff_right]
          intro hmem
          have hless := hlt _ hmem
          rw [hlen] at hless
          exact absurd hless (Nat.lt_irrefl _)
        rcases monRecvMsg_after_header m hhdr (hconsumed.open_rest hopen) hrest.symm
            (hbuf m (by simp)) with
          ⟨r, hne, hrecv, hrc, hkeep, htimes⟩ | ⟨rest', hrecv, hc, hfree⟩
        · refine .inr (.inr (.inl ⟨m, later, r, rfl, hne, hrecv, hrc, fun hsame => ?_,
            fun pos => (hpassed pos).mpr (htimes _)⟩))
          have hlost := congrArg List.length (hsame.trans hconsumed.bytesOf_eq)
          rw [hkeep, List.length_append, hlen, monHeaderSize] at hlost
          omega
        · exact .inr (.inr (.inr ⟨m, later, rest', rfl, hrecv, hconsumed.trans hc,
            fun pos hne => fun hmem => hfree _ hne ((hpassed pos).mp hmem)⟩))

/-- What a caller sees of a call: the return code, the type, the sequence number, the
payload and `*read_len`. -/
def RecvMsg.seen (r : RecvMsg) :
    WireRc × Option UInt8 × Option UInt32 × List UInt8 × Option ℕ :=
  (r.rc, r.hdr.map MonMsgHeader.type, r.hdr.map MonMsgHeader.seq, r.buf, r.readLen)

/-- Without a timeout, successive calls receive the frames of an open stream. -/
theorem recvMsgs_eq {bufSize pos : ℕ} {msgs : List Message} {as : List (Arrival UInt8)}
    (hopen : AllOpen as) (hnever : timeouts pos as = []) (hbytes : bytesOf as = frames msgs)
    (hbuf : ∀ m ∈ msgs, m.content.length ≤ bufSize) :
    (recvMsgs bufSize msgs.length as).map (fun c => c.result.seen) =
      msgs.map fun m =>
        (.ok, some m.type.code, some m.seq, m.content, some m.content.length) := by
  induction msgs generalizing as pos with
  | nil => rfl
  | cons m later ih =>
      rcases monRecvMsg_cases hopen hbytes hbuf with
        ⟨r, -, -, -, -, htimes⟩ | ⟨hnone, -, -⟩ | ⟨m', later', r, -, -, -, -, -, htimes⟩ |
        ⟨m', later', rest, hmsgs, hrecv, hconsumed, -⟩
      · have hpos := htimes pos
        rw [hnever] at hpos
        cases hpos
      · cases hnone
      · have hmem := htimes pos
        rw [hnever] at hmem
        cases hmem
      · obtain ⟨rfl, rfl⟩ := List.cons.inj hmsgs
        have hrest : bytesOf rest = frames later :=
          List.append_cancel_left (hconsumed.bytesOf_eq.symm.trans hbytes)
        obtain ⟨passed, htimes, -⟩ := hconsumed.timeouts_eq pos
        have hnever' := (List.append_eq_nil_iff.mp (htimes.symm.trans hnever)).2
        have hlater := ih (hconsumed.open_rest hopen) hnever' hrest
          fun m' h' => hbuf m' (List.mem_cons_of_mem m h')
        rw [List.length_cons, recvMsgs, hrecv, List.map_cons, List.map_cons, ← hlater]
        rfl

/-- Messages arrive as they were sent, however the stream is cut. -/
theorem wire_roundTrip (msgs : List Message) {rooms : List Room} (hrooms : .failed ∉ rooms)
    (hroom : (frames msgs).length ≤ accepted rooms) :
    ∃ stream, sendMsgs msgs rooms = some (msgs.map fun _ => .ok, stream) ∧
      ∀ bufSize as, (∀ m ∈ msgs, m.content.length ≤ bufSize) →
        (∀ a ∈ as, a = .interrupted ∨ ∃ b bs, a = .data b bs) → bytesOf as = stream →
          (recvMsgs bufSize msgs.length as).map (fun c => c.result.seen) =
            msgs.map fun m =>
              (.ok, some m.type.code, some m.seq, m.content, some m.content.length) := by
  refine ⟨frames msgs, sendMsgs_eq msgs hrooms hroom, fun bufSize as hbuf has hbytes => ?_⟩
  have hopen : AllOpen as := by
    intro a ha
    rcases has a ha with rfl | ⟨b, bs, rfl⟩
    · exact ⟨nofun, nofun⟩
    · exact ⟨nofun, nofun⟩
  have hagain : Arrival.again ∉ as := by
    intro hmem
    rcases has _ hmem with heq | ⟨b, bs, heq⟩
    · cases heq
    · cases heq
  exact recvMsgs_eq hopen (timeouts_eq_nil hagain 0) hbytes hbuf

/-- An empty payload and one of two bytes, cut inside the second header. -/
theorem wire_roundTrip_two :
    let msgs : List Message :=
      [⟨.hello, 1, none, by decide⟩, ⟨.logEvent, 2, some [5, 6], by decide⟩]
    let cut (s : List UInt8) : Arrival UInt8 := .data (s.headD 0) s.tail
    let as : List (Arrival UInt8) :=
      [.interrupted, cut ((frames msgs).take 20), .interrupted, cut ((frames msgs).drop 20)]
    (recvMsgs 2 2 as).map (fun c => c.result.seen) =
      [(.ok, some 0x01, some 1, [], some 0), (.ok, some 0x21, some 2, [5, 6], some 2)] := by
  intro msgs cut as
  let rooms : List Room := .interrupted :: List.replicate 34 (.accepts 6)
  have hrooms : Room.failed ∉ rooms := by decide
  obtain ⟨stream, hsent, hrecv⟩ := wire_roundTrip msgs hrooms (by decide)
  have hstream : stream = frames msgs := by
    rw [sendMsgs_eq msgs hrooms (by decide)] at hsent
    exact (Prod.mk.inj (Option.some.inj hsent)).2.symm
  exact hrecv 2 as (by decide) (by simp [as, cut]) (hstream ▸ by decide)

end Monitoring

end Shinigami
