import Shinigami.Foundations.CString
import Shinigami.Foundations.LittleEndian
import Shinigami.ServiceManager.Security.Crypto

/-!
# Wire protocol of the service manager

A message is a 56-byte header `sm_hdr_t` followed by its payload. `SmHdr` keeps
the header fields at their own widths and carries the length of the digest as a
field, so that `encodeHdr` always gives 56 bytes. `recvHdr` is the reading of
one header from the front of a byte stream, and the two lemmas
`recvHdr_encodeHdr` and `encodeHdr_of_recvHdr` say that a header and its bytes
determine each other.

The validation functions answer with the response codes of the protocol. The
clock reading `now` is the result of `time(NULL)`; its cast to `uint32_t` and
the wrap-around of `now32 + SM_TIMESTAMP_MAX_SKEW` are kept.
-/

namespace Shinigami

namespace ServiceManager

open CString LittleEndian

def smProtocolMagic : UInt32 := 0x534D4B47

def smProtocolVersion : UInt16 := 2

def smMsgRegister : UInt16 := 1

def smMsgLookup : UInt16 := 2

def smMsgHeartbeat : UInt16 := 3

def smMsgUnregister : UInt16 := 4

def smOk : ℤ := 0

def smErrNotFound : ℤ := -1

def smErrFull : ℤ := -2

def smErrExists : ℤ := -3

def smErrInvalid : ℤ := -4

def smErrProtocol : ℤ := -5

def smErrPermission : ℤ := -6

def smErrRatelimit : ℤ := -7

def smErrAuth : ℤ := -8

def smMaxServices : ℕ := 32

def smMaxName : ℕ := 64

def smMaxPath : ℕ := 256

def smHeartbeatTimeout : ℤ := 10

def smMaxPayloadSize : ℕ := 1024

def smTimestampMaxAge : ℤ := 120

def smTimestampMaxSkew : UInt32 := 60

/-- `sizeof(sm_hdr_t)`. -/
def smHdrSize : ℕ := 56

/-- `offsetof(sm_hdr_t, hmac)`. -/
def smHdrHmacOffset : ℕ := 24

/-- `sm_hdr_t`. -/
structure SmHdr where
  magic : UInt32
  version : UInt16
  msgType : UInt16
  length : UInt32
  timestamp : UInt32
  clientPid : UInt32
  nonce : UInt32
  hmac : List UInt8
  hmac_length : hmac.length = smHmacSize
deriving DecidableEq

/-- The header bytes in front of the `hmac` field. -/
def SmHdr.prefixBytes (hdr : SmHdr) : List UInt8 :=
  leBytes 4 hdr.magic.toNat ++ leBytes 2 hdr.version.toNat ++
    leBytes 2 hdr.msgType.toNat ++ leBytes 4 hdr.length.toNat ++
    leBytes 4 hdr.timestamp.toNat ++ leBytes 4 hdr.clientPid.toNat ++
    leBytes 4 hdr.nonce.toNat

/-- The header as it stands on the wire. -/
def encodeHdr (hdr : SmHdr) : List UInt8 := hdr.prefixBytes ++ hdr.hmac

/-- The little-endian field of `w` bytes at offset `off`. -/
def fieldAt (s : List UInt8) (off w : ℕ) : ℕ := leNat ((s.drop off).take w)

/-- Reading one complete header from a stream; `none` when the stream ends
before. -/
def recvHdr (s : List UInt8) : Option (SmHdr × List UInt8) :=
  if h : smHdrSize ≤ s.length then
    some
      ({ magic := UInt32.ofNat (fieldAt s 0 4)
         version := UInt16.ofNat (fieldAt s 4 2)
         msgType := UInt16.ofNat (fieldAt s 6 2)
         length := UInt32.ofNat (fieldAt s 8 4)
         timestamp := UInt32.ofNat (fieldAt s 12 4)
         clientPid := UInt32.ofNat (fieldAt s 16 4)
         nonce := UInt32.ofNat (fieldAt s 20 4)
         hmac := (s.drop smHdrHmacOffset).take smHmacSize
         hmac_length := by
           simp only [smHdrSize, smHdrHmacOffset, smHmacSize, List.length_take,
             List.length_drop] at h ⊢
           omega },
        s.drop smHdrSize)
  else none

/-- `sm_validate_header`, on a header that was received with `receivedSize`
bytes in total at the time `now`. -/
def smValidateHeader (hdr : SmHdr) (receivedSize : ℕ) (now : ℤ) : ℤ :=
  let now32 := UInt32.ofInt now
  if hdr.magic ≠ smProtocolMagic then smErrProtocol
  else if hdr.version ≠ smProtocolVersion then smErrProtocol
  else if hdr.msgType < smMsgRegister ∨ hdr.msgType > smMsgUnregister then
    smErrInvalid
  else if hdr.length = 0 ∨ hdr.length.toNat > smMaxPayloadSize then smErrInvalid
  else if receivedSize ≠ smHdrSize + hdr.length.toNat then smErrProtocol
  else if hdr.timestamp > now32 + smTimestampMaxSkew then smErrInvalid
  else if (hdr.timestamp.toNat : ℤ) < now - smTimestampMaxAge then smErrInvalid
  else smOk

/-- The MAC input of a frame: the header in front of the digest, then the
payload. -/
def macInput (hdr : SmHdr) (payload : List UInt8) : List UInt8 :=
  hdr.prefixBytes ++ payload

/-- `sm_validate_header_hmac`; the payload holds `hdr.length` bytes. -/
def smValidateHeaderHmac (hdr : SmHdr) (payload key : List UInt8) : ℤ :=
  if smHdrHmacOffset + hdr.length.toNat > smHdrHmacOffset + smMaxPayloadSize then
    smErrInvalid
  else if smHmacVerify key (macInput hdr payload) hdr.hmac ≠ 0 then smErrAuth
  else smOk

/-- `isalnum` in the C locale. -/
def isalnum (c : UInt8) : Bool :=
  (48 ≤ c && c ≤ 57) || (65 ≤ c && c ≤ 90) || (97 ≤ c && c ≤ 122)

/-- `sm_validate_service_name`. -/
def smValidateServiceName (name : List UInt8) : ℤ :=
  if cstr name = [] then smErrInvalid
  else if strnlen name smMaxName ≥ smMaxName then smErrInvalid
  else if ((cstr name).take (strnlen name smMaxName)).all
      (fun c => isalnum c || c == 95 || c == 45) then smOk
  else smErrInvalid

def smAllowedPath1 : List UInt8 := ascii ['/', 'r', 'u', 'n', '/']

def smAllowedPath2 : List UInt8 := ascii ['/', 't', 'm', 'p', '/']

def smAllowedPath3 : List UInt8 :=
  ascii ['/', 'd', 'e', 'v', '/', 's', 'h', 'm', '/']

/-- `sm_validate_socket_path`. -/
def smValidateSocketPath (path : List UInt8) : ℤ :=
  if cstr path = [] then smErrInvalid
  else if strnlen path smMaxPath ≥ smMaxPath then smErrInvalid
  else if (cstr path).head? ≠ some 47 then smErrInvalid
  else if strstrFound path (ascii ['.', '.']) ||
      strstrFound path (ascii ['/', '/']) then smErrInvalid
  else if strncmpEq smAllowedPath1.length path smAllowedPath1 ||
      strncmpEq smAllowedPath2.length path smAllowedPath2 ||
      strncmpEq smAllowedPath3.length path smAllowedPath3 then smOk
  else smErrInvalid

/-- `sizeof(sm_register_req_t)`. -/
def smRegisterReqSize : ℕ := 580

/-- `sizeof(sm_lookup_req_t)`; the heartbeat and unregister requests have the
same layout. -/
def smLookupReqSize : ℕ := 64

def expectedSize (msgType : UInt16) : Option ℕ :=
  if msgType = smMsgRegister then some smRegisterReqSize
  else if msgType = smMsgLookup then some smLookupReqSize
  else if msgType = smMsgHeartbeat then some smLookupReqSize
  else if msgType = smMsgUnregister then some smLookupReqSize
  else none

/-- `sm_validate_message_size`. -/
def smValidateMessageSize (payloadLen : UInt32) (msgType : UInt16) : ℤ :=
  match expectedSize msgType with
  | none => smErrInvalid
  | some expected => if payloadLen.toNat ≠ expected then smErrInvalid else smOk

/-- `sm_register_req_t`; the client-supplied pid is not used by the handlers. -/
structure SmRegisterReq where
  serviceName : List UInt8
  socketPath : List UInt8
  ringName : List UInt8
  pid : ℕ

def decodeRegisterReq (payload : List UInt8) : SmRegisterReq where
  serviceName := payload.take smMaxName
  socketPath := (payload.drop smMaxName).take smMaxPath
  ringName := (payload.drop (smMaxName + smMaxPath)).take smMaxPath
  pid := fieldAt payload (smMaxName + 2 * smMaxPath) 4

/-- The `service_name` field that the lookup, heartbeat and unregister requests
consist of. -/
def decodeNameReq (payload : List UInt8) : List UInt8 := payload.take smMaxName

@[simp] theorem SmHdr.length_prefixBytes (hdr : SmHdr) :
    hdr.prefixBytes.length = smHdrHmacOffset := by
  simp [SmHdr.prefixBytes, smHdrHmacOffset]

@[simp] theorem length_encodeHdr (hdr : SmHdr) :
    (encodeHdr hdr).length = smHdrSize := by
  simp [encodeHdr, hdr.hmac_length, smHdrHmacOffset, smHmacSize, smHdrSize]

theorem recvHdr_encodeHdr (hdr : SmHdr) (rest : List UInt8) :
    recvHdr (encodeHdr hdr ++ rest) = some (hdr, rest) := by
  have hlen : smHdrSize ≤ (encodeHdr hdr ++ rest).length := by simp
  have hhmac : hdr.hmac.length = 32 := hdr.hmac_length
  rw [recvHdr, dif_pos hlen]
  obtain ⟨magic, version, msgType, length, timestamp, clientPid, nonce, hmac,
    _⟩ := hdr
  simp only at hhmac
  simp [encodeHdr, SmHdr.prefixBytes, fieldAt, List.drop_append,
    ofNat_leNat_leBytes_uint32, ofNat_leNat_leBytes_uint16, smHdrHmacOffset,
    smHmacSize, smHdrSize, hhmac]

theorem recvHdr_eq_none_iff (s : List UInt8) :
    recvHdr s = none ↔ s.length < smHdrSize := by
  unfold recvHdr
  split
  · rename_i h
    simp [h]
  · rename_i h
    simpa using h

theorem take_drop_append (s : List UInt8) (off w : ℕ) :
    (s.drop off).take w ++ s.drop (off + w) = s.drop off := by
  rw [← List.drop_drop, List.take_append_drop]

theorem encodeHdr_of_recvHdr {s rest : List UInt8} {hdr : SmHdr}
    (h : recvHdr s = some (hdr, rest)) : s = encodeHdr hdr ++ rest := by
  unfold recvHdr at h
  split at h
  case isFalse => cases h
  case isTrue hlen =>
    simp only [Option.some.injEq, Prod.mk.injEq] at h
    obtain ⟨rfl, rfl⟩ := h
    simp only [smHdrSize] at hlen
    have hslice : ∀ off w, off + w ≤ 56 → ((s.drop off).take w).length = w := by
      intro off w hw
      simp only [List.length_take, List.length_drop]
      omega
    simp only [encodeHdr, SmHdr.prefixBytes, fieldAt, smHdrHmacOffset,
      smHmacSize, smHdrSize, List.append_assoc]
    rw [leBytes_ofNat_leNat_uint32 (hslice 0 4 (by omega)),
      leBytes_ofNat_leNat_uint16 (hslice 4 2 (by omega)),
      leBytes_ofNat_leNat_uint16 (hslice 6 2 (by omega)),
      leBytes_ofNat_leNat_uint32 (hslice 8 4 (by omega)),
      leBytes_ofNat_leNat_uint32 (hslice 12 4 (by omega)),
      leBytes_ofNat_leNat_uint32 (hslice 16 4 (by omega)),
      leBytes_ofNat_leNat_uint32 (hslice 20 4 (by omega))]
    rw [take_drop_append s 24 32, take_drop_append s 20 4,
      take_drop_append s 16 4, take_drop_append s 12 4,
      take_drop_append s 8 4, take_drop_append s 6 2,
      take_drop_append s 4 2, take_drop_append s 0 4, List.drop_zero]

/-- The fields of a header are those of a request of this protocol. -/
structure SmHdr.WellFormed (hdr : SmHdr) : Prop where
  magic : hdr.magic = smProtocolMagic
  version : hdr.version = smProtocolVersion
  msgType : ¬(hdr.msgType < smMsgRegister ∨ hdr.msgType > smMsgUnregister)
  length : ¬(hdr.length = 0 ∨ hdr.length.toNat > smMaxPayloadSize)

structure SmHdr.Fresh (hdr : SmHdr) (now : ℤ) : Prop where
  not_future : ¬hdr.timestamp > UInt32.ofInt now + smTimestampMaxSkew
  not_stale : ¬(hdr.timestamp.toNat : ℤ) < now - smTimestampMaxAge

/-- A guard that fails with another code passes exactly when it does not fire. -/
theorem guard_eq_iff {c : Prop} [Decidable c] {err x ok : ℤ} (h : err ≠ ok) :
    (if c then err else x) = ok ↔ ¬c ∧ x = ok := by
  by_cases hc : c <;> simp [hc, h]

theorem smErrInvalid_ne_smOk : smErrInvalid ≠ smOk := by decide

theorem smErrProtocol_ne_smOk : smErrProtocol ≠ smOk := by decide

/-- On a completely received frame the validation asks for the fields and the
window, and for nothing else. -/
theorem smValidateHeader_eq_smOk_iff (hdr : SmHdr) (now : ℤ) :
    smValidateHeader hdr (smHdrSize + hdr.length.toNat) now = smOk ↔
      hdr.WellFormed ∧ hdr.Fresh now := by
  simp only [smValidateHeader, guard_eq_iff smErrInvalid_ne_smOk,
    guard_eq_iff smErrProtocol_ne_smOk, ne_eq, not_not, and_true, true_and]
  constructor
  · rintro ⟨hmagic, hversion, htype, hlength, hfuture, hstale⟩
    exact ⟨⟨hmagic, hversion, htype, hlength⟩, ⟨hfuture, hstale⟩⟩
  · rintro ⟨⟨hmagic, hversion, htype, hlength⟩, ⟨hfuture, hstale⟩⟩
    exact ⟨hmagic, hversion, htype, hlength, hfuture, hstale⟩

/-- The header with the digest that `sm_validate_header_hmac` recomputes. -/
def SmHdr.sealed (hdr : SmHdr) (payload key : List UInt8) : SmHdr :=
  { hdr with
    hmac := smHmacSha256 key (macInput hdr payload)
    hmac_length := length_smHmacSha256 _ _ }

theorem smValidateHeaderHmac_sealed (hdr : SmHdr) (payload key : List UInt8)
    (hlength : hdr.length.toNat ≤ smMaxPayloadSize) :
    smValidateHeaderHmac (hdr.sealed payload key) payload key = smOk := by
  have hfits : ¬smHdrHmacOffset + (hdr.sealed payload key).length.toNat >
      smHdrHmacOffset + smMaxPayloadSize := by
    simp only [SmHdr.sealed]
    omega
  have hverify : smHmacVerify key (macInput (hdr.sealed payload key) payload)
      (hdr.sealed payload key).hmac = 0 := smHmacVerify_self _ _
  unfold smValidateHeaderHmac
  rw [if_neg hfits, if_neg (not_not.mpr hverify)]

theorem msgType_of_smValidateMessageSize {length : UInt32} {msgType : UInt16}
    (h : smValidateMessageSize length msgType = smOk) :
    msgType = smMsgRegister ∨ msgType = smMsgLookup ∨ msgType = smMsgHeartbeat ∨
      msgType = smMsgUnregister := by
  by_contra hnone
  simp only [not_or] at hnone
  obtain ⟨hreg, hlook, hbeat, hunreg⟩ := hnone
  simp only [smValidateMessageSize, expectedSize, hreg, hlook, hbeat, hunreg,
    if_false] at h
  exact smErrInvalid_ne_smOk h

end ServiceManager

end Shinigami
