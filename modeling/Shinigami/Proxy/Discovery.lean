import Shinigami.Proxy.Connection
import Shinigami.ServiceManager.Infrastructure.Handlers

/-!
# Service discovery

`ServiceDiscovery::findService` asks the service manager for a service. The
client here and the server `smHandleClient` are run against each other: the
bytes the client sends are the stream of the connection, and the bytes the
server sends are what the client reads.

The client expects a header in front of every reply, but the server sends the
bare reply structs of 4 or 516 bytes. So an error reply is too short for the
client, a lookup reply loses its first 56 bytes to the header, and the two never
agree (`discovery_disagrees`).
-/

namespace Shinigami

namespace Proxy

open CString LittleEndian ServiceManager

/-- `ServiceInfo`. -/
structure ServiceInfo where
  socketPath : List UInt8
  ringName : List UInt8
  servicePid : ℤ
deriving DecidableEq

/-- `sizeof(sm_lookup_reply_t)`. -/
def smLookupReplySize : ℕ := 516

/-- What the client meets: whether it can connect and send the two parts of the
request, its clock and its process. -/
structure DiscoveryEnv where
  connectOk : Bool
  sendHdrOk : Bool
  sendReqOk : Bool
  now : ℤ
  pid : UInt32

def lookupHdr (env : DiscoveryEnv) : SmHdr where
  magic := smProtocolMagic
  version := smProtocolVersion
  msgType := smMsgLookup
  length := UInt32.ofNat smLookupReqSize
  timestamp := UInt32.ofInt env.now
  clientPid := env.pid
  nonce := 1
  hmac := List.replicate smHmacSize 0
  hmac_length := length_zeroHmac

def lookupRequest (env : DiscoveryEnv) (name : List UInt8) : List UInt8 :=
  encodeHdr (lookupHdr env) ++ strncpyField smMaxName name

/-- An `int32_t` from the wire. -/
def decodeInt32 (bytes : List UInt8) : ℤ :=
  (BitVec.ofNat 32 (leNat bytes)).toInt

def readReply (reply : List UInt8) : Except ProxyError ServiceInfo :=
  match recvHdr reply with
  | none => .error .recvFailed
  | some (replyHdr, rest) =>
      if replyHdr.length = 0 then .error .serviceNotFound
      else if replyHdr.length.toNat ≥ smLookupReplySize then
        if rest.length < smLookupReplySize then .error .recvFailed
        else
          let socketPath := cstr (rest.take smMaxPath)
          if socketPath = [] then .error .serviceNotFound
          else
            .ok
              { socketPath := socketPath
                ringName := cstr ((rest.drop smMaxPath).take smMaxPath)
                servicePid := decodeInt32 ((rest.drop (2 * smMaxPath)).take 4) }
      else .error .serviceNotFound

/-- `ServiceDiscovery::findService`, where `serve` answers the bytes of the
request with the bytes of the reply. -/
def findService (env : DiscoveryEnv) (serve : List UInt8 → List UInt8)
    (name : List UInt8) : Except ProxyError ServiceInfo :=
  if !env.connectOk then .error .serviceNotFound
  else if !env.sendHdrOk then .error .sendFailed
  else if !env.sendReqOk then .error .sendFailed
  else readReply (serve (lookupRequest env name))

/-- The service manager at the other end of the connection. -/
def serveLookup (key : Option (List UInt8)) (s : ServerState) (conn : Connection)
    (request : List UInt8) : List UInt8 :=
  (smHandleClient key s { conn with stream := request }).sent

/-- What discovery should answer: the end points of a running service. -/
def expectedInfo (s : ServerState) (name : List UInt8) :
    Except ProxyError ServiceInfo :=
  match smRegistryFindCopy s.registry name with
  | none => .error .serviceNotFound
  | some entry =>
      if entry.status = .running then
        .ok ⟨cstr entry.socketPath, cstr entry.ringName, entry.pid⟩
      else .error .serviceNotFound

/-- A complete lookup frame is answered like its handler does, or with a code. -/
theorem serveFrame_lookup_sent (key : Option (List UInt8)) (s : ServerState)
    (conn : Connection) {hdr : SmHdr} (htype : hdr.msgType = smMsgLookup)
    (payload : List UInt8) :
    (∃ code, (serveFrame key s conn hdr payload).sent = encodeReply code) ∨
      (serveFrame key s conn hdr payload).sent =
        (smHandleLookup s conn.request (decodeNameReq payload)).sent := by
  have hdispatch : dispatch s conn.request hdr.msgType payload =
      ⟨smHandleLookup s conn.request (decodeNameReq payload), true⟩ := by
    rw [htype]
    rfl
  unfold serveFrame
  split
  · exact .inl ⟨_, rfl⟩
  split
  · exact .inl ⟨_, rfl⟩
  split
  · exact .inr (by rw [hdispatch])
  · split
    · exact .inl ⟨_, rfl⟩
    · exact .inr (by rw [hdispatch])

/-- The service manager answers a lookup request with nothing, with a response
code, or with the entry of a running service. -/
theorem serveLookup_cases (key : Option (List UInt8)) (s : ServerState)
    (conn : Connection) (env : DiscoveryEnv) (name : List UInt8) :
    (serveLookup key s conn (lookupRequest env name)).length ≤ 4 ∨
      ∃ entry, smRegistryFindCopy s.registry (strncpyField smMaxName name) =
          some entry ∧ entry.status = .running ∧
        serveLookup key s conn (lookupRequest env name) = encodeLookupReply entry := by
  have hname : decodeNameReq ((strncpyField smMaxName name).take
      (lookupHdr env).length.toNat) = strncpyField smMaxName name := by
    have hlen : (strncpyField smMaxName name).length ≤
        (lookupHdr env).length.toNat := by
      rw [length_strncpyField]
      exact (by decide : smMaxName ≤ (UInt32.ofNat smLookupReqSize).toNat)
    rw [List.take_of_length_le hlen, decodeNameReq,
      List.take_of_length_le (length_strncpyField _ _).le]
  unfold serveLookup smHandleClient
  split
  · exact .inl (by simp [Served.drop])
  dsimp only
  split
  · exact .inl (by simp [Served.drop])
  rw [lookupRequest, recvHdr_encodeHdr]
  dsimp only
  split
  · exact .inl (by simp [Served.refuse])
  split
  · exact .inl (by simp [Served.drop])
  generalize hs : ({ s with rateLimiter := _ } : ServerState) = s'
  have hregistry : s'.registry = s.registry := by rw [← hs]
  rcases serveFrame_lookup_sent key s' _ (rfl : (lookupHdr env).msgType = smMsgLookup)
    _ with ⟨code, hcode⟩ | hhandled
  · exact .inl (by rw [hcode]; simp)
  · rw [hhandled, hname, ← hregistry]
    rcases smHandleLookup_sent_cases s' conn.request (strncpyField smMaxName name) with
      ⟨code, hcode⟩ | ⟨entry, hfind, hrunning, hsent⟩
    · exact .inl (by rw [hcode]; simp)
    · exact .inr ⟨entry, hfind, hrunning, hsent⟩

theorem readReply_short {reply : List UInt8} (h : reply.length < smHdrSize) :
    readReply reply = .error .recvFailed := by
  unfold readReply
  rw [(recvHdr_eq_none_iff reply).mpr h]

theorem readReply_not_ok {reply : List UInt8}
    (h : reply.length < smHdrSize + smLookupReplySize) (info : ServiceInfo) :
    readReply reply ≠ .ok info := by
  unfold readReply
  cases hrecv : recvHdr reply with
  | none => simp
  | some p =>
      obtain ⟨hdr, rest⟩ := p
      have hlen := congrArg List.length (encodeHdr_of_recvHdr hrecv)
      rw [List.length_append, length_encodeHdr] at hlen
      have hrest : rest.length < smLookupReplySize := by omega
      simp only [hrest, if_true]
      split_ifs <;> simp

theorem findCopy_strncpyField (r : Registry) {name : List UInt8}
    (hname : (cstr name).length < smMaxName) :
    smRegistryFindCopy r (strncpyField smMaxName name) = smRegistryFindCopy r name := by
  have hcstr : cstr (strncpyField smMaxName name) = cstr name := by
    rw [cstr_strncpyField, List.take_of_length_le (Nat.le_sub_one_of_lt hname)]
  have htest : nameAt r (strncpyField smMaxName name) = nameAt r name := by
    funext i
    simp only [nameAt, strncmpEq, hcstr]
  simp only [smRegistryFindCopy, hashFind, hashName, htest, hcstr]

/-- Discovery and the service manager never agree: whatever the registry, the
limiters, the key and the clocks are, the answer is not the end points of a
running service, and for any other service it is an error of the transport. -/
theorem discovery_disagrees (key : Option (List UInt8)) (s : ServerState)
    (conn : Connection) (env : DiscoveryEnv) (name : List UInt8)
    (hname : smValidateServiceName name = smOk) (hconnect : env.connectOk = true)
    (hsend : env.sendHdrOk = true ∧ env.sendReqOk = true) :
    findService env (serveLookup key s conn) name ≠ expectedInfo s name := by
  have hfind : findService env (serveLookup key s conn) name =
      readReply (serveLookup key s conn (lookupRequest env name)) := by
    simp [findService, hconnect, hsend.1, hsend.2]
  have hcopy := findCopy_strncpyField s.registry (length_of_smValidateServiceName hname)
  rw [hfind]
  rcases serveLookup_cases key s conn env name with
    hshort | ⟨entry, hentry, hrunning, hsent⟩
  · rw [readReply_short (lt_of_le_of_lt hshort (by decide))]
    unfold expectedInfo
    split
    · simp
    · split_ifs <;> simp
  · rw [hcopy] at hentry
    have hexpected : expectedInfo s name =
        .ok ⟨cstr entry.socketPath, cstr entry.ringName, entry.pid⟩ := by
      simp [expectedInfo, hentry, hrunning]
    rw [hexpected, hsent]
    refine readReply_not_ok ?_ _
    rw [length_encodeLookupReply]
    decide

/-- A client that reaches the service manager. -/
def lookupEnv : DiscoveryEnv := ⟨true, true, true, 1000, 7⟩

/-- The connection at which its request arrives, right after start-up. -/
def lookupConn : Connection where
  timeoutOk := true
  mono := .ofSeconds 0
  stream := []
  headerNow := 1000
  request :=
    { peer := ⟨7, 1000, 1000⟩
      mono := .ofSeconds 0
      banNow := 1000
      violationNow := 1000
      entryNow := 1000
      now := 1000
      now' := 1000
      kill := fun _ => .alive
      sendOk := true }

theorem discovery_disagrees_start :
    smValidateServiceName (ascii ['s', 'v', 'c']) = smOk ∧
      findService lookupEnv (serveLookup none
          (ServerState.init ⟨0, 0, by decide, by decide⟩) lookupConn)
          (ascii ['s', 'v', 'c']) ≠
        expectedInfo (ServerState.init ⟨0, 0, by decide, by decide⟩)
          (ascii ['s', 'v', 'c']) :=
  ⟨by decide, discovery_disagrees _ _ _ _ _ (by decide) rfl ⟨rfl, rfl⟩⟩

/-- The service is not registered and the manager says so, but the client
reports an error of the transport. -/
theorem unregistered_service_not_reported :
    let s := ServerState.init ⟨0, 0, by decide, by decide⟩
    let name := ascii ['s', 'v', 'c']
    serveLookup none s lookupConn (lookupRequest lookupEnv name) =
        encodeReply smErrNotFound ∧
      expectedInfo s name = .error .serviceNotFound ∧
      findService lookupEnv (serveLookup none s lookupConn) name =
        .error .recvFailed := by
  intro s name
  have hserve : serveLookup none s lookupConn (lookupRequest lookupEnv name) =
      encodeReply smErrNotFound := by decide +kernel
  refine ⟨hserve, rfl, ?_⟩
  have hfind : findService lookupEnv (serveLookup none s lookupConn) name =
      readReply (serveLookup none s lookupConn (lookupRequest lookupEnv name)) := rfl
  rw [hfind, hserve]
  exact readReply_short (by decide)

end Proxy

end Shinigami
