import Shinigami.Security.Verify.Basic
import Shinigami.ServiceManager.Infrastructure.Protocol

/-!
# Proxy connections

The framing of `proxy_connection.cpp` and the authentication helper of
`proxy_auth.cpp`: `send` builds one frame and signs it, `recvMessage` reads one
frame and checks it. The socket is the stream of bytes the peer delivers, with
the way it ends; the results of the allocations, the clocks and the random
numbers are arguments.

The helper signs and checks through the verify module, which puts its own fields
in front of the data, and it takes the code zero of `verify_check_message` for
success. Both matter: see `acceptsOnlyAuthenticated_iff` for what `recvMessage`
accepts and `sendsProtocolHmac_iff` for what `send` writes.
-/

namespace Shinigami

namespace Proxy

open ServiceManager Verify

/-- `ProxyError`, as far as connections and discovery use it. -/
inductive ProxyError
  | notConnected
  | authFailed
  | serviceNotFound
  | sendFailed
  | recvFailed
  | invalidResponse
  | timeout
  | daemonCrashed
  | bufferFull
  | internalError
deriving DecidableEq, Repr

/-- `ProxyAuth`; the helper is ready when it has a context. -/
structure ProxyAuth where
  ctx : Option VerifyContext

def ProxyAuth.isReady (auth : ProxyAuth) : Bool := auth.ctx.isSome

/-- The `key_file` argument: empty, or a path with the contents found there. -/
inductive KeyFile
  | empty
  | path (contents : Option (List UInt8))

/-- `ProxyAuth::init`. -/
def ProxyAuth.init (keyFile : KeyFile) (mallocOk mutexOk : Bool) :
    Except ProxyError ProxyAuth :=
  if !mallocOk then .error .internalError
  else
    let ctx := match keyFile with
      | .empty => verifyInit (List.replicate 32 0) mutexOk
      | .path contents => verifyInitFromFile contents mutexOk
    match ctx with
    | none => .error .authFailed
    | some ctx => .ok ⟨some ctx⟩

def zeroAuth : MessageAuth where
  hmac := List.replicate smHmacSize 0
  hmac_length := length_zeroHmac
  timestamp := 0
  nonce := 0
  sequence := 0

/-- `ProxyAuth::sign`. -/
def ProxyAuth.sign (auth : ProxyAuth) (data : List UInt8) (env : SignEnv) :
    ProxyAuth × Except ProxyError MessageAuth :=
  match auth.ctx with
  | none => (auth, .ok zeroAuth)
  | some ctx =>
      match verifySignMessage ctx data env with
      | (ctx, none) => (⟨some ctx⟩, .error .authFailed)
      | (ctx, some mauth) => (⟨some ctx⟩, .ok mauth)

/-- `ProxyAuth::check`. -/
def ProxyAuth.check (auth : ProxyAuth) (data : List UInt8) (mauth : MessageAuth)
    (now : UInt64) (mallocOk : Bool) : ProxyAuth × Bool :=
  match auth.ctx with
  | none => (auth, true)
  | some ctx =>
      let (ctx, rc) := verifyCheckMessage ctx data mauth now mallocOk
      (⟨some ctx⟩, rc == 0)

/-- The members of `ProxyConnection`. -/
structure ProxyConnection where
  connected : Bool
  fdOpen : Bool
  poolReady : Bool
  seq : UInt32
  auth : Option ProxyAuth

/-- Closing the socket. -/
def ProxyConnection.closed (conn : ProxyConnection) : ProxyConnection :=
  { conn with connected := false, fdOpen := false }

def stackBufSize : ℕ := 512

/-- Whether there is a buffer for the signed bytes of a payload. -/
def signBufOk (payloadLen : ℕ) (mallocOk : Bool) : Bool :=
  decide (smHdrHmacOffset + payloadLen ≤ stackBufSize) || mallocOk

/-- What `send` meets: the wall clock, the own process, the allocation of the
buffer, the signature, and the error of the write if it fails. -/
structure SendEnv where
  now : ℤ
  pid : UInt32
  signMallocOk : Bool
  sign : SignEnv
  writeError : Option ProxyError

/-- The result of `send`, with the frame that reached the socket. -/
structure SendResult where
  conn : ProxyConnection
  result : Except ProxyError Unit
  written : Option (SmHdr × List UInt8)

/-- The header that `send` builds, before it is signed. -/
def outgoingHdr (conn : ProxyConnection) (env : SendEnv) (msgType : UInt16)
    (payload : List UInt8) : SmHdr where
  magic := smProtocolMagic
  version := smProtocolVersion
  msgType := msgType
  length := UInt32.ofNat payload.length
  timestamp := UInt32.ofInt env.now
  clientPid := env.pid
  nonce := conn.seq + 1
  hmac := List.replicate smHmacSize 0
  hmac_length := length_zeroHmac

def writeFrame (conn : ProxyConnection) (env : SendEnv) (hdr : SmHdr)
    (payload : List UInt8) : SendResult :=
  match env.writeError with
  | some e => ⟨{ conn with connected := false }, .error e, none⟩
  | none => ⟨conn, .ok (), some (hdr, payload)⟩

def signAndWrite (conn : ProxyConnection) (auth : ProxyAuth) (env : SendEnv)
    (hdr : SmHdr) (payload : List UInt8) : SendResult :=
  if !signBufOk payload.length env.signMallocOk then
    ⟨conn, .error .internalError, none⟩
  else
    let signed := auth.sign (macInput hdr payload) env.sign
    let conn := { conn with auth := some signed.1 }
    match signed.2 with
    | .error e => ⟨conn, .error e, none⟩
    | .ok mauth =>
        writeFrame conn env
          { hdr with hmac := mauth.hmac, hmac_length := mauth.hmac_length } payload

/-- `ProxyConnection::send`. -/
def ProxyConnection.send (conn : ProxyConnection) (env : SendEnv)
    (msgType : UInt16) (payload : List UInt8) : SendResult :=
  if !conn.connected || !conn.fdOpen then ⟨conn, .error .notConnected, none⟩
  else
    let hdr := outgoingHdr conn env msgType payload
    let conn := { conn with seq := conn.seq + 1 }
    match conn.auth with
    | none => writeFrame conn env hdr payload
    | some auth =>
        if auth.isReady then signAndWrite conn auth env hdr payload
        else writeFrame conn env hdr payload

inductive StreamEnd
  | closed
  | timedOut
  | failed

/-- The error of `readExact` at the end of the stream. -/
def StreamEnd.error : StreamEnd → ProxyError
  | .closed => .daemonCrashed
  | .timedOut => .timeout
  | .failed => .recvFailed

/-- What `recvMessage` meets: the end of the stream, the wall clock of the header
validation, the allocation of the receive block and of the buffer, and the clock
and the allocation of the check. -/
structure RecvEnv where
  ending : StreamEnd
  headerNow : ℤ
  poolAllocOk : Bool
  signMallocOk : Bool
  checkNow : UInt64
  checkMallocOk : Bool

/-- `ProxyMessage`. -/
structure ProxyMessage where
  msgType : UInt16
  nonce : UInt32
  payload : List UInt8

structure RecvResult (α : Type) where
  conn : ProxyConnection
  result : Except ProxyError α
  rest : List UInt8

/-- Steps 1 to 3 of `recvMessage`: a frame with a valid header is read. -/
def recvFrame (conn : ProxyConnection) (env : RecvEnv) (stream : List UInt8) :
    RecvResult (SmHdr × List UInt8) :=
  if !conn.connected || !conn.fdOpen then ⟨conn, .error .notConnected, stream⟩
  else if !conn.poolReady then ⟨conn, .error .internalError, stream⟩
  else
    match recvHdr stream with
    | none => ⟨{ conn with connected := false }, .error env.ending.error, []⟩
    | some (hdr, rest) =>
        if smValidateHeader hdr (smHdrSize + hdr.length.toNat) env.headerNow ≠ 0 then
          ⟨conn.closed, .error .invalidResponse, rest⟩
        else if hdr.length > 0 then
          if !env.poolAllocOk then ⟨conn, .error .bufferFull, rest⟩
          else if rest.length < hdr.length.toNat then
            ⟨{ conn with connected := false }, .error env.ending.error, []⟩
          else
            ⟨conn, .ok (hdr, rest.take hdr.length.toNat),
              rest.drop hdr.length.toNat⟩
        else ⟨conn, .ok (hdr, []), rest⟩

/-- The authenticator built from a received header. -/
def receivedAuth (hdr : SmHdr) : MessageAuth where
  hmac := hdr.hmac
  hmac_length := hdr.hmac_length
  timestamp := hdr.timestamp.toUInt64
  nonce := hdr.nonce
  sequence := 0

/-- Steps 4 and 5 of `recvMessage`: the check of a frame. Without a buffer for
the signed bytes the check is left out. -/
def acceptFrame (conn : ProxyConnection) (env : RecvEnv) (hdr : SmHdr)
    (payload rest : List UInt8) : RecvResult ProxyMessage :=
  let msg : ProxyMessage := ⟨hdr.msgType, hdr.nonce, payload⟩
  match conn.auth with
  | none => ⟨conn, .ok msg, rest⟩
  | some auth =>
      if auth.isReady && signBufOk hdr.length.toNat env.signMallocOk then
        let (auth, ok) := auth.check (macInput hdr payload) (receivedAuth hdr)
          env.checkNow env.checkMallocOk
        let conn := { conn with auth := some auth }
        if !ok then ⟨conn.closed, .error .authFailed, rest⟩
        else ⟨conn, .ok msg, rest⟩
      else ⟨conn, .ok msg, rest⟩

/-- `ProxyConnection::recvMessage`. -/
def ProxyConnection.recvMessage (conn : ProxyConnection) (env : RecvEnv)
    (stream : List UInt8) : RecvResult ProxyMessage :=
  let frame := recvFrame conn env stream
  match frame.result with
  | .error e => ⟨frame.conn, .error e, frame.rest⟩
  | .ok (hdr, payload) => acceptFrame frame.conn env hdr payload frame.rest

end Proxy

end Shinigami
