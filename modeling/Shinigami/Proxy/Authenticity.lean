import Shinigami.Proxy.Connection
import Shinigami.Security.Verify.Stream

/-!
# What the proxy authenticates

`acceptsOnlyAuthenticated_iff` says when `recvMessage` accepts authenticated
messages only, and `sendsProtocolHmac_iff` when the frames of `send` carry the
digest of the protocol. Both say where the code leaves its contract: a message
that the replay context refuses is accepted, a message without a buffer is not
checked, and the digest of a sent frame covers sixteen bytes that are not on the
wire.
-/

namespace Shinigami

namespace Proxy

open ServiceManager Verify

/-- `ProxyAuth::check` answers `true` for a message that the replay context
refuses, and for one whose digest matches. -/
theorem check_eq_true_iff (ctx : VerifyContext) {data : List UInt8}
    (hdata : data ≠ []) (mauth : MessageAuth) (now : UInt64) (mallocOk : Bool) :
    ((⟨some ctx⟩ : ProxyAuth).check data mauth now mallocOk).2 = true ↔
      RefusedByReplay ctx mauth now ∨ MatchesHmac ctx data mauth now mallocOk := by
  have hcheck : ((⟨some ctx⟩ : ProxyAuth).check data mauth now mallocOk).2 = true ↔
      (verifyCheckMessage ctx data mauth now mallocOk).2 = 0 := by
    simp [ProxyAuth.check]
  rw [hcheck]
  rcases verifyCheckMessage_cases ctx data mauth now mallocOk with
    ⟨hempty, -⟩ | ⟨-, ⟨hrefused, h⟩ | ⟨hpassed, ⟨hmalloc, h⟩ | ⟨hmalloc, h⟩⟩⟩
  · exact absurd hempty hdata
  · rw [h]
    simp [hrefused]
  · rw [h]
    simp [hpassed, MatchesHmac, hmalloc]
  · rw [h]
    simp [hpassed, MatchesHmac, hdata, hmalloc]

theorem macInput_ne_nil (hdr : SmHdr) (payload : List UInt8) :
    macInput hdr payload ≠ [] := by
  intro hnil
  have hlen := congrArg List.length hnil
  simp [macInput, smHdrHmacOffset] at hlen

/-- `verify_check_message` is called on the header bytes and the payload, and its
HMAC comparison matches. -/
structure Authenticated (ctx : VerifyContext) (env : RecvEnv) (hdr : SmHdr)
    (payload : List UInt8) : Prop where
  buffer : signBufOk hdr.length.toNat env.signMallocOk = true
  matched : MatchesHmac ctx (macInput hdr payload) (receivedAuth hdr) env.checkNow
    env.checkMallocOk

/-- The connection with a loaded key. -/
def ProxyConnection.withKey (conn : ProxyConnection) (ctx : VerifyContext) :
    ProxyConnection :=
  { conn with auth := some ⟨some ctx⟩ }

/-- If `recvMessage` returns a message, then its frame is authenticated. -/
def AcceptsOnlyAuthenticated (conn : ProxyConnection) (ctx : VerifyContext)
    (env : RecvEnv) (stream : List UInt8) : Prop :=
  ∀ msg, ((conn.withKey ctx).recvMessage env stream).result = .ok msg →
    ∃ hdr payload, (recvFrame (conn.withKey ctx) env stream).result =
      .ok (hdr, payload) ∧ Authenticated ctx env hdr payload

theorem recvFrame_auth (conn : ProxyConnection) (env : RecvEnv)
    (stream : List UInt8) : (recvFrame conn env stream).conn.auth = conn.auth := by
  unfold recvFrame
  split
  · rfl
  split
  · rfl
  split
  · rfl
  · split_ifs <;> rfl

theorem recvFrame_encodeHdr {conn : ProxyConnection} {env : RecvEnv} {hdr : SmHdr}
    {payload rest : List UInt8} (hconn : conn.connected = true)
    (hfd : conn.fdOpen = true) (hpool : conn.poolReady = true)
    (hvalid : smValidateHeader hdr (smHdrSize + hdr.length.toNat) env.headerNow = 0)
    (halloc : env.poolAllocOk = true) (hlen : payload.length = hdr.length.toNat) :
    recvFrame conn env (encodeHdr hdr ++ (payload ++ rest)) =
      ⟨conn, .ok (hdr, payload), rest⟩ := by
  unfold recvFrame
  rw [recvHdr_encodeHdr]
  rw [← hlen] at hvalid
  simp only [hconn, hfd, hpool, hvalid, halloc, ← hlen, Bool.not_true, Bool.or_self,
    Bool.false_eq_true, if_false, ne_eq, not_true_eq_false, List.length_append,
    List.take_left, List.drop_left]
  split_ifs with hpos hshort
  · omega
  · rfl
  · have hnil : payload = [] := by
      have hzero : hdr.length = 0 := by simpa using hpos
      rw [← List.length_eq_zero_iff, hlen, hzero]
      rfl
    rw [hnil]
    rfl

/-- A frame is accepted when its check is left out, when the replay context
refuses it, and when it is authenticated. -/
theorem acceptFrame_ok_iff {conn : ProxyConnection} {ctx : VerifyContext}
    (hauth : conn.auth = some ⟨some ctx⟩) (env : RecvEnv) (hdr : SmHdr)
    (payload rest : List UInt8) :
    (∃ msg, (acceptFrame conn env hdr payload rest).result = .ok msg) ↔
      signBufOk hdr.length.toNat env.signMallocOk = false ∨
        RefusedByReplay ctx (receivedAuth hdr) env.checkNow ∨
        Authenticated ctx env hdr payload := by
  have hcheck := check_eq_true_iff ctx (macInput_ne_nil hdr payload)
    (receivedAuth hdr) env.checkNow env.checkMallocOk
  unfold acceptFrame
  rw [hauth]
  cases hbuffer : signBufOk hdr.length.toNat env.signMallocOk with
  | false => simp [ProxyAuth.isReady]
  | true =>
      have hmatched : Authenticated ctx env hdr payload ↔
          MatchesHmac ctx (macInput hdr payload) (receivedAuth hdr) env.checkNow
            env.checkMallocOk := ⟨fun h => h.matched, fun h => ⟨hbuffer, h⟩⟩
      rw [hmatched, ← hcheck]
      cases hok : ((⟨some ctx⟩ : ProxyAuth).check (macInput hdr payload)
          (receivedAuth hdr) env.checkNow env.checkMallocOk).2 with
      | false => simp [ProxyAuth.isReady, hok]
      | true => simp [ProxyAuth.isReady, hok]

theorem recvMessage_of_error {conn : ProxyConnection} {env : RecvEnv}
    {stream : List UInt8} {e : ProxyError}
    (h : (recvFrame conn env stream).result = .error e) :
    (conn.recvMessage env stream).result = .error e := by
  unfold ProxyConnection.recvMessage
  simp only [h]

theorem recvMessage_of_ok {conn : ProxyConnection} {env : RecvEnv}
    {stream : List UInt8} {hdr : SmHdr} {payload : List UInt8}
    (h : (recvFrame conn env stream).result = .ok (hdr, payload)) :
    conn.recvMessage env stream = acceptFrame (recvFrame conn env stream).conn env hdr
      payload (recvFrame conn env stream).rest := by
  unfold ProxyConnection.recvMessage
  simp only [h]

/-- `recvMessage` accepts authenticated messages only, exactly when every frame
it reads finds a buffer and passes the replay check. -/
theorem acceptsOnlyAuthenticated_iff (conn : ProxyConnection)
    (ctx : VerifyContext) (env : RecvEnv) (stream : List UInt8) :
    AcceptsOnlyAuthenticated conn ctx env stream ↔
      ∀ hdr payload,
        (recvFrame (conn.withKey ctx) env stream).result = .ok (hdr, payload) →
        signBufOk hdr.length.toNat env.signMallocOk = true ∧
          ¬RefusedByReplay ctx (receivedAuth hdr) env.checkNow := by
  have hauth : (recvFrame (conn.withKey ctx) env stream).conn.auth =
      some ⟨some ctx⟩ := recvFrame_auth _ _ _
  unfold AcceptsOnlyAuthenticated
  cases hframe : (recvFrame (conn.withKey ctx) env stream).result with
  | error e =>
      rw [recvMessage_of_error hframe]
      simp
  | ok f =>
      obtain ⟨hdr, payload⟩ := f
      have hok := acceptFrame_ok_iff hauth env hdr payload
        (recvFrame (conn.withKey ctx) env stream).rest
      rw [← recvMessage_of_ok hframe] at hok
      simp only [Except.ok.injEq, Prod.mk.injEq]
      constructor
      · rintro honly hdr' payload' ⟨rfl, rfl⟩
        have hauthentic : (∃ msg,
            ((conn.withKey ctx).recvMessage env stream).result = .ok msg) →
            Authenticated ctx env hdr payload := by
          rintro ⟨msg, hmsg⟩
          obtain ⟨_, _, ⟨rfl, rfl⟩, h⟩ := honly msg hmsg
          exact h
        constructor
        · by_contra hbuffer
          exact hbuffer (hauthentic (hok.mpr (.inl (by simpa using hbuffer)))).buffer
        · intro hrefused
          exact (hauthentic (hok.mpr (.inr (.inl hrefused)))).matched.2.1 hrefused
      · intro hcond msg hmsg
        obtain ⟨hbuffer, hpassed⟩ := hcond hdr payload ⟨rfl, rfl⟩
        refine ⟨hdr, payload, ⟨rfl, rfl⟩, ?_⟩
        rcases hok.mp ⟨msg, hmsg⟩ with hno | hrefused | h
        · rw [hbuffer] at hno
          cases hno
        · exact absurd hrefused hpassed
        · exact h

/-- The state of the proxy after start-up, connected. -/
def openConnection : ProxyConnection where
  connected := true
  fdOpen := true
  poolReady := true
  seq := 0
  auth := none

/-- A frame with a digest of zero bytes, stamped with the wall clock. -/
def forgedHdr : SmHdr where
  magic := smProtocolMagic
  version := smProtocolVersion
  msgType := smMsgHeartbeat
  length := 1
  timestamp := 100000
  clientPid := 7
  nonce := 1
  hmac := List.replicate smHmacSize 0
  hmac_length := length_zeroHmac

/-- A machine that is up for an hour; all allocations succeed. -/
def forgedEnv : RecvEnv where
  ending := .closed
  headerNow := 100000
  poolAllocOk := true
  signMallocOk := true
  checkNow := 3600
  checkMallocOk := true

theorem recvFrame_forged :
    recvFrame (openConnection.withKey streamContext) forgedEnv
      (encodeHdr forgedHdr ++ ([1] ++ [])) =
        ⟨openConnection.withKey streamContext, .ok (forgedHdr, [1]), []⟩ :=
  recvFrame_encodeHdr rfl rfl rfl (by decide) rfl rfl

/-- The key is loaded from a file, and a message without a valid digest is
accepted: its timestamp is far from the monotonic clock, so the replay context
refuses it with the code that the proxy takes for success. -/
theorem forged_message_accepted :
    ProxyAuth.init (.path (some (List.replicate 32 7))) true true =
        .ok ⟨some streamContext⟩ ∧
      ¬AcceptsOnlyAuthenticated openConnection streamContext forgedEnv
        (encodeHdr forgedHdr ++ ([1] ++ [])) := by
  refine ⟨rfl, fun honly => ?_⟩
  have hrefused : RefusedByReplay streamContext (receivedAuth forgedHdr)
      forgedEnv.checkNow := ⟨rfl, by decide⟩
  have hframe : (recvFrame (openConnection.withKey streamContext) forgedEnv
      (encodeHdr forgedHdr ++ ([1] ++ []))).result = .ok (forgedHdr, [1]) := by
    rw [recvFrame_forged]
  have hauth : (recvFrame (openConnection.withKey streamContext) forgedEnv
      (encodeHdr forgedHdr ++ ([1] ++ []))).conn.auth = some ⟨some streamContext⟩ :=
    recvFrame_auth _ _ _
  obtain ⟨msg, hmsg⟩ := (acceptFrame_ok_iff hauth forgedEnv forgedHdr [1] _).mpr
    (.inr (.inl hrefused))
  rw [← recvMessage_of_ok hframe] at hmsg
  obtain ⟨hdr, payload, hread, hauthentic⟩ := honly msg hmsg
  rw [hframe] at hread
  cases hread
  exact hauthentic.matched.2.1 hrefused

/-- The digest of a frame is the one of the protocol, and a daemon with the key
accepts it. -/
structure CarriesProtocolHmac (key : List UInt8) (f : SmHdr × List UInt8) : Prop where
  hmac : f.1.hmac = smHmacSha256 key (macInput f.1 f.2)
  accepted : smValidateHeaderHmac f.1 f.2 key = smOk

/-- Every frame that `send` writes carries the digest of the protocol. -/
def SendsProtocolHmac (conn : ProxyConnection) (ctx : VerifyContext)
    (env : SendEnv) (msgType : UInt16) (payload : List UInt8) : Prop :=
  ∀ f, ((conn.withKey ctx).send env msgType payload).written = some f →
    CarriesProtocolHmac ctx.masterKey f

/-- Nothing keeps `send` from writing: the socket is open, the rate limit admits
the signature, the buffers can be allocated and the write succeeds. -/
structure CanSend (conn : ProxyConnection) (ctx : VerifyContext) (env : SendEnv)
    (payload : List UInt8) : Prop where
  connected : conn.connected = true
  fdOpen : conn.fdOpen = true
  buffer : signBufOk payload.length env.signMallocOk = true
  admitted : (verifyCheckRateLimit ctx env.sign.rateNow).2 = true
  malloc : env.sign.mallocOk = true
  write : env.writeError = none

/-- The digest that `send` puts into the header: over the fields of the
authenticator, the header and the payload. -/
def sentHmac (conn : ProxyConnection) (ctx : VerifyContext) (env : SendEnv)
    (msgType : UInt16) (payload : List UInt8) : List UInt8 :=
  smHmacSha256 ctx.masterKey
    (signData env.sign.now env.sign.nonce (ctx.replayCtx.lastSequence + 1)
      (macInput (outgoingHdr conn env msgType payload) payload))

theorem verifyCheckRateLimit_frame (ctx : VerifyContext) (now : UInt64) :
    (verifyCheckRateLimit ctx now).1.masterKey = ctx.masterKey ∧
      (verifyCheckRateLimit ctx now).1.replayCtx = ctx.replayCtx := by
  unfold verifyCheckRateLimit
  dsimp only
  split_ifs <;> exact ⟨rfl, rfl⟩

def signedFrame (conn : ProxyConnection) (ctx : VerifyContext) (env : SendEnv)
    (msgType : UInt16) (payload : List UInt8) : SmHdr × List UInt8 :=
  ({ outgoingHdr conn env msgType payload with
      hmac := sentHmac conn ctx env msgType payload
      hmac_length := length_smHmacSha256 _ _ }, payload)

/-- A ready helper signs when the rate limit admits it and the buffer can be
allocated. -/
theorem sign_ready (ctx : VerifyContext) {data : List UInt8} (hdata : data ≠ [])
    (env : SignEnv) :
    ((⟨some ctx⟩ : ProxyAuth).sign data env).2 =
      if (verifyCheckRateLimit ctx env.rateNow).2 && env.mallocOk then
        .ok (authFor ctx data env)
      else .error .authFailed := by
  obtain ⟨hkey, hreplay⟩ := verifyCheckRateLimit_frame ctx env.rateNow
  have hauth : authFor (verifyCheckRateLimit ctx env.rateNow).1 data env =
      authFor ctx data env := by
    simp only [authFor, hkey, hreplay]
  unfold ProxyAuth.sign verifySignMessage
  simp only [hdata, if_false]
  cases (verifyCheckRateLimit ctx env.rateNow).2 with
  | false => rfl
  | true =>
      cases env.mallocOk with
      | false => rfl
      | true => simp [hauth]

/-- What `send` writes: the signed frame, if nothing keeps it from writing. -/
theorem send_written_iff (conn : ProxyConnection) (ctx : VerifyContext)
    (env : SendEnv) (msgType : UInt16) (payload : List UInt8)
    (f : SmHdr × List UInt8) :
    ((conn.withKey ctx).send env msgType payload).written = some f ↔
      CanSend conn ctx env payload ∧ signedFrame conn ctx env msgType payload = f := by
  have hsign := sign_ready ctx
    (macInput_ne_nil (outgoingHdr conn env msgType payload) payload) env.sign
  have hcan : CanSend conn ctx env payload ↔
      conn.connected = true ∧ conn.fdOpen = true ∧
        signBufOk payload.length env.signMallocOk = true ∧
        (verifyCheckRateLimit ctx env.sign.rateNow).2 = true ∧
        env.sign.mallocOk = true ∧ env.writeError = none :=
    ⟨fun ⟨h₁, h₂, h₃, h₄, h₅, h₆⟩ => ⟨h₁, h₂, h₃, h₄, h₅, h₆⟩,
      fun ⟨h₁, h₂, h₃, h₄, h₅, h₆⟩ => ⟨h₁, h₂, h₃, h₄, h₅, h₆⟩⟩
  have hhdr : outgoingHdr (conn.withKey ctx) env msgType payload =
      outgoingHdr conn env msgType payload := rfl
  rw [hcan]
  unfold ProxyConnection.send signAndWrite writeFrame
  simp only [hhdr]
  simp only [ProxyConnection.withKey, ProxyAuth.isReady, Option.isSome_some, if_true,
    hsign]
  cases conn.connected with
  | false => simp
  | true =>
      cases conn.fdOpen with
      | false => simp
      | true =>
          cases signBufOk payload.length env.signMallocOk with
          | false => simp
          | true =>
              cases (verifyCheckRateLimit ctx env.sign.rateNow).2 with
              | false => simp
              | true =>
                  cases env.sign.mallocOk with
                  | false => simp
                  | true =>
                      cases env.writeError with
                      | some e => simp
                      | none => simp [signedFrame, sentHmac, authFor, hmacSign]

theorem CarriesProtocolHmac.sentHmac_eq {conn : ProxyConnection}
    {ctx : VerifyContext} {env : SendEnv} {msgType : UInt16} {payload : List UInt8}
    (h : CarriesProtocolHmac ctx.masterKey
      (signedFrame conn ctx env msgType payload)) :
    sentHmac conn ctx env msgType payload = smHmacSha256 ctx.masterKey
      (macInput (outgoingHdr conn env msgType payload) payload) := h.hmac

/-- What is left to decide is whether the two byte strings, with and without the fields of
the authenticator, have the same digest. -/
theorem sendsProtocolHmac_iff_digests (conn : ProxyConnection) (ctx : VerifyContext)
    (env : SendEnv) (msgType : UInt16) {payload : List UInt8}
    (hlen : payload.length ≤ smMaxPayloadSize) :
    SendsProtocolHmac conn ctx env msgType payload ↔
      (CanSend conn ctx env payload →
        sentHmac conn ctx env msgType payload = smHmacSha256 ctx.masterKey
          (macInput (outgoingHdr conn env msgType payload) payload)) := by
  have hlength : (UInt32.ofNat payload.length).toNat = payload.length := by
    have hlt : payload.length < 2 ^ 32 := lt_of_le_of_lt hlen (by decide)
    exact UInt32.toNat_ofNat_of_lt hlt
  have hmac : macInput (signedFrame conn ctx env msgType payload).1 payload =
      macInput (outgoingHdr conn env msgType payload) payload := rfl
  have hfits : ¬smHdrHmacOffset +
      (signedFrame conn ctx env msgType payload).1.length.toNat >
        smHdrHmacOffset + smMaxPayloadSize := by
    simp only [signedFrame, outgoingHdr, hlength]
    omega
  unfold SendsProtocolHmac
  simp only [send_written_iff]
  constructor
  · intro h hcan
    exact (h _ ⟨hcan, rfl⟩).sentHmac_eq
  · rintro h f ⟨hcan, rfl⟩
    refine ⟨h hcan, ?_⟩
    have hverify : smHmacVerify ctx.masterKey
        (macInput (outgoingHdr conn env msgType payload) payload)
        (signedFrame conn ctx env msgType payload).1.hmac = 0 := by
      rw [show (signedFrame conn ctx env msgType payload).1.hmac =
        sentHmac conn ctx env msgType payload from rfl, h hcan]
      exact smHmacVerify_self _ _
    unfold smValidateHeaderHmac
    rw [if_neg hfits]
    exact if_neg (not_not.mpr hverify)

/-- Two byte strings that the digest does not tell apart. -/
def HmacCollision (key data data' : List UInt8) : Prop :=
  data ≠ data' ∧ smHmacSha256 key data = smHmacSha256 key data'

theorem signData_ne (timestamp : UInt64) (nonce sequence : UInt32) (data : List UInt8) :
    signData timestamp nonce sequence data ≠ data := by
  intro h
  have hlen := congrArg List.length h
  simp only [signData, List.length_append, LittleEndian.length_leBytes] at hlen
  omega

/-- Unless the bytes that are signed and those that the protocol wants signed are a collision
under the key, the frames of `send` carry the digest of the protocol only by not being
written. -/
theorem sendsProtocolHmac_iff (conn : ProxyConnection) (ctx : VerifyContext)
    (env : SendEnv) (msgType : UInt16) {payload : List UInt8}
    (hlen : payload.length ≤ smMaxPayloadSize)
    (hfree : ¬HmacCollision ctx.masterKey
      (signData env.sign.now env.sign.nonce (ctx.replayCtx.lastSequence + 1)
        (macInput (outgoingHdr conn env msgType payload) payload))
      (macInput (outgoingHdr conn env msgType payload) payload)) :
    SendsProtocolHmac conn ctx env msgType payload ↔ ¬CanSend conn ctx env payload := by
  rw [sendsProtocolHmac_iff_digests conn ctx env msgType hlen]
  constructor
  · intro h hcan
    exact hfree ⟨signData_ne _ _ _ _, h hcan⟩
  · exact fun hcannot hcan => absurd hcan hcannot

/-- Sending at the wall clock 100000, an hour after the machine has started. -/
def plainSendEnv : SendEnv where
  now := 100000
  pid := 7
  signMallocOk := true
  sign := ⟨3600, 3600, 5, true⟩
  writeError := none

theorem canSend_plain : CanSend openConnection streamContext plainSendEnv [1] :=
  ⟨rfl, rfl, rfl, rfl, rfl, rfl⟩

theorem digest_plainSendEnv :
    smHmacSha256 streamContext.masterKey
        (signData plainSendEnv.sign.now plainSendEnv.sign.nonce
          (streamContext.replayCtx.lastSequence + 1)
          (macInput (outgoingHdr openConnection plainSendEnv smMsgHeartbeat [1]) [1])) ≠
      smHmacSha256 streamContext.masterKey
        (macInput (outgoingHdr openConnection plainSendEnv smMsgHeartbeat [1]) [1]) := by
  decide +kernel

theorem sendsProtocolHmac_iff_byte :
    SendsProtocolHmac openConnection streamContext plainSendEnv smMsgHeartbeat [1] ↔
      ¬CanSend openConnection streamContext plainSendEnv [1] :=
  sendsProtocolHmac_iff _ _ _ _ (by decide) fun h => digest_plainSendEnv h.2

/-- A frame with a one-byte payload does not carry the digest of the protocol. -/
theorem sent_frame_lacks_hmac :
    ¬SendsProtocolHmac openConnection streamContext plainSendEnv smMsgHeartbeat [1] := by
  intro h
  have hcarries := h _ ((send_written_iff _ _ _ _ _ _).mpr ⟨canSend_plain, rfl⟩)
  exact digest_plainSendEnv hcarries.sentHmac_eq

end Proxy

end Shinigami
