import Shinigami.Services.ServiceIpc

/-!
# Sending a frame

`send_frame` hands the header and the payload to `sendmsg` as a vector of two parts. A stream
socket takes any front part of the bytes and returns how many it has taken; `send_frame` is
content with any number above zero. So it reports a frame as sent of which the rest never
follows, unless the socket takes everything at once (`sentWhole_iff`).
-/

namespace Shinigami

namespace Services

open ServiceManager

/-- The bytes at `payload` that the frame is made of; a payload `none` is a null pointer. -/
def payloadBytes (payload : Option (List UInt8)) (payloadLen : UInt32) : List UInt8 :=
  (payload.getD []).take payloadLen.toNat

/-- The vector that `send_frame` builds. -/
def frameVector (hdr : SmHdr) (payload : Option (List UInt8)) (payloadLen : UInt32) :
    List (List UInt8) :=
  if payload.isSome ∧ payloadLen > 0 then [encodeHdr hdr, payloadBytes payload payloadLen]
  else [encodeHdr hdr]

/-- `send_frame`, with what `sendmsg` returns: the result, and the bytes that the socket has
taken. -/
def sendFrame (hdr : SmHdr) (payload : Option (List UInt8)) (payloadLen : UInt32) (sent : ℤ) :
    ℤ × List UInt8 :=
  (if sent > 0 then 0 else -1, (frameVector hdr payload payloadLen).flatten.take sent.toNat)

/-- What `sendmsg` can return for a vector: an error, or how many of its bytes the socket has
taken. -/
def SendmsgReturns (vector : List (List UInt8)) (sent : ℤ) : Prop :=
  sent = -1 ∨ (1 ≤ sent ∧ sent ≤ vector.flatten.length)

/-- A frame that counts as sent has been handed to the socket with all its bytes. -/
def SentWhole (hdr : SmHdr) (payload : Option (List UInt8)) (payloadLen : UInt32) (sent : ℤ) :
    Prop :=
  (sendFrame hdr payload payloadLen sent).1 = 0 →
    (sendFrame hdr payload payloadLen sent).2.length = smHdrSize + payloadLen.toNat

theorem flatten_frameVector (hdr : SmHdr) (payload : Option (List UInt8)) (payloadLen : UInt32) :
    (frameVector hdr payload payloadLen).flatten =
      encodeHdr hdr ++ payloadBytes payload payloadLen := by
  unfold frameVector
  split_ifs with hpayload
  · simp
  · have hnone : payloadBytes payload payloadLen = [] := by
      rw [not_and_or] at hpayload
      rcases hpayload with hnull | hzero
      · rw [Option.not_isSome_iff_eq_none] at hnull
        simp [payloadBytes, hnull]
      · have hlen : payloadLen.toNat = 0 := by
          rw [gt_iff_lt, UInt32.lt_iff_toNat_lt, UInt32.toNat_zero] at hzero
          omega
        rw [payloadBytes, hlen, List.take_zero]
    simp [hnone]

theorem flatten_frameVector_request (hdr : SmHdr) (req : IpcRequest)
    (hlen : req.payload.length < 2 ^ 32) :
    (frameVector hdr (some req.payload) (UInt32.ofNat req.payload.length)).flatten =
      encodeHdr hdr ++ req.payload := by
  rw [flatten_frameVector, payloadBytes, Option.getD_some, UInt32.toNat_ofNat_of_lt' hlen,
    List.take_length]

theorem sendFrame_eq_zero_iff (hdr : SmHdr) (payload : Option (List UInt8))
    (payloadLen : UInt32) (sent : ℤ) :
    (sendFrame hdr payload payloadLen sent).1 = 0 ↔ 0 < sent := by
  unfold sendFrame
  dsimp only
  split_ifs with hsent
  · simpa using hsent
  · simpa using hsent

/-- A frame counts as sent only when it is, exactly when `sendmsg` fails or takes all the
bytes of the frame, a null pointer standing for no payload. -/
theorem sentWhole_iff (hdr : SmHdr) (payload : Option (List UInt8)) (payloadLen : UInt32)
    (sent : ℤ) (hsent : SendmsgReturns (frameVector hdr payload payloadLen) sent) :
    SentWhole hdr payload payloadLen sent ↔
      sent = -1 ∨ sent = smHdrSize + payloadLen.toNat := by
  have htotal : (frameVector hdr payload payloadLen).flatten.length ≤
      smHdrSize + payloadLen.toNat := by
    rw [flatten_frameVector, List.length_append, length_encodeHdr, payloadBytes,
      List.length_take]
    omega
  rw [SentWhole, sendFrame_eq_zero_iff]
  unfold sendFrame
  dsimp only
  rw [List.length_take]
  rcases hsent with rfl | ⟨hpos, hle⟩
  · simp
  · constructor
    · intro hwhole
      have hmin := hwhole (by omega)
      right
      omega
    · rintro (hfail | rfl) _
      · omega
      · omega

/-- The header of a heartbeat. -/
def heartbeatHdr : SmHdr := fillHeader svcMsgHeartbeat 64 1 ⟨0, 0, true⟩

/-- The socket takes the header of a heartbeat and nothing else. -/
theorem not_sentWhole_header :
    SendmsgReturns (frameVector heartbeatHdr (some (List.replicate 64 0)) 64) smHdrSize ∧
      ¬SentWhole heartbeatHdr (some (List.replicate 64 0)) 64 smHdrSize := by
  have hreturns :
      SendmsgReturns (frameVector heartbeatHdr (some (List.replicate 64 0)) 64) smHdrSize :=
    Or.inr ⟨by decide, by decide +kernel⟩
  refine ⟨hreturns, fun hwhole => ?_⟩
  have hlen := hwhole ((sendFrame_eq_zero_iff _ _ _ _).mpr (by decide))
  revert hlen
  decide +kernel

/-- The socket takes the whole heartbeat. -/
theorem sentWhole_iff_heartbeat :
    SentWhole heartbeatHdr (some (List.replicate 64 0)) 64 120 ↔
      (120 : ℤ) = -1 ∨ (120 : ℤ) = smHdrSize + (64 : UInt32).toNat := by
  refine sentWhole_iff heartbeatHdr (some (List.replicate 64 0)) 64 120 (Or.inr ⟨?_, ?_⟩)
  · decide
  · decide +kernel

end Services

end Shinigami
