import Shinigami.Security.Verify.Basic
import Shinigami.ServiceManager.Lifecycle.Client

/-!
# Service manager IPC of the services

The frames that the service processes send, with their own header code
(`fill_header`), their own signing (`sign_message`) and their own copy of the
registration struct. The verify context is the one of the process, or `none`
when no key file could be read; the clock, the nonce and the result of `malloc`
are arguments.
-/

namespace Shinigami

namespace Services

open CString ServiceManager Verify

def svcMsgRegister : UInt16 := 1

def svcMsgHeartbeat : UInt16 := 3

def svcMsgUnregister : UInt16 := 4

/-- The readings that one request makes. -/
structure IpcEnv where
  now : ℤ
  nonce : UInt32
  mallocOk : Bool

/-- `svc_register_payload_t`, with all its bytes. -/
structure SvcRegisterPayload where
  serviceName : List UInt8
  socketPath : List UInt8
  ringName : List UInt8
  pid : ℤ
  serviceName_length : serviceName.length = smMaxName
  socketPath_length : socketPath.length = smMaxPath
  ringName_length : ringName.length = smMaxPath

def SvcRegisterPayload.bytes (req : SvcRegisterPayload) : List UInt8 :=
  req.serviceName ++ req.socketPath ++ req.ringName ++ encodeInt32 req.pid

/-- The payload of `service_ipc_register`; the paths are made of the name. -/
def registerPayload (serviceName : List UInt8) (pid : ℤ) : SvcRegisterPayload where
  serviceName := strncpyField smMaxName serviceName
  socketPath := strncpyField smMaxPath
    (ascii ['/', 'r', 'u', 'n', '/'] ++ cstr serviceName ++
      ascii ['.', 's', 'o', 'c', 'k'])
  ringName := strncpyField smMaxPath
    (ascii ['/', 'd', 'e', 'v', '/', 's', 'h', 'm', '/'] ++ cstr serviceName ++
      ascii ['_', 'r', 'i', 'n', 'g'])
  pid := pid
  serviceName_length := length_strncpyField smMaxName serviceName
  socketPath_length := length_strncpyField smMaxPath _
  ringName_length := length_strncpyField smMaxPath _

/-- The requests that a service sends. -/
inductive IpcRequest
  | register (req : SvcRegisterPayload)
  | heartbeat (req : NameReq)
  | unregister (req : NameReq)

def IpcRequest.msgType : IpcRequest → UInt16
  | .register _ => svcMsgRegister
  | .heartbeat _ => svcMsgHeartbeat
  | .unregister _ => svcMsgUnregister

def IpcRequest.payload : IpcRequest → List UInt8
  | .register req => req.bytes
  | .heartbeat req | .unregister req => req.bytes

/-- `fill_header`. -/
def fillHeader (msgType : UInt16) (payloadLen : UInt32) (pid : ℤ) (env : IpcEnv) :
    SmHdr where
  magic := smProtocolMagic
  version := smProtocolVersion
  msgType := msgType
  length := payloadLen
  timestamp := UInt32.ofInt env.now
  clientPid := UInt32.ofInt pid
  nonce := env.nonce
  hmac := List.replicate smHmacSize 0
  hmac_length := length_zeroHmac

theorem length_verifyHmacSha256 (key data : List UInt8) :
    (verifyHmacSha256 key data).length = smHmacSize :=
  length_smHmacSha256 key data

/-- `sign_message`; `none` when it fails. -/
def signMessage (verifyCtx : Option VerifyContext) (env : IpcEnv) (hdr : SmHdr)
    (payload : List UInt8) : Option SmHdr :=
  match verifyCtx with
  | none => some hdr
  | some ctx =>
      if !env.mallocOk then none
      else
        some { hdr with
          hmac := verifyHmacSha256 ctx.masterKey
            ((encodeHdr hdr).take smHdrHmacOffset ++ payload)
          hmac_length := length_verifyHmacSha256 _ _ }

/-- The header that a request is signed with. -/
def IpcRequest.hdr (req : IpcRequest) (pid : ℤ) (env : IpcEnv) : SmHdr :=
  fillHeader req.msgType (UInt32.ofNat req.payload.length) pid env

/-- The frame of a request. A registration that cannot be signed is not sent,
the other two requests are sent without a digest then. -/
def IpcRequest.frame (req : IpcRequest) (verifyCtx : Option VerifyContext) (pid : ℤ)
    (env : IpcEnv) : Option (List UInt8) :=
  match signMessage verifyCtx env (req.hdr pid env) req.payload with
  | some hdr => some (encodeHdr hdr ++ req.payload)
  | none =>
      match req with
      | .register _ => none
      | .heartbeat _ | .unregister _ =>
          some (encodeHdr (req.hdr pid env) ++ req.payload)

@[simp] theorem SvcRegisterPayload.length_bytes (req : SvcRegisterPayload) :
    req.bytes.length = smRegisterReqSize := by
  simp [SvcRegisterPayload.bytes, req.serviceName_length, req.socketPath_length,
    req.ringName_length, smMaxName, smMaxPath, smRegisterReqSize]

theorem IpcRequest.expectedSize_msgType (req : IpcRequest) :
    expectedSize req.msgType = some req.payload.length := by
  cases req with
  | register req =>
      simp [msgType, payload, expectedSize, svcMsgRegister, smMsgRegister]
  | heartbeat req =>
      simp [msgType, payload, expectedSize, svcMsgHeartbeat, smMsgHeartbeat, smMsgLookup,
        smMsgRegister]
  | unregister req =>
      simp [msgType, payload, expectedSize, svcMsgUnregister, smMsgUnregister,
        smMsgHeartbeat, smMsgLookup, smMsgRegister]

theorem eq_sealed_of_signMessage {ctx : VerifyContext} {env : IpcEnv} {hdr signed : SmHdr}
    {payload : List UInt8} (h : signMessage (some ctx) env hdr payload = some signed) :
    signed = hdr.sealed payload ctx.masterKey := by
  unfold signMessage at h
  dsimp only at h
  split_ifs at h with hmalloc
  obtain rfl := Option.some.inj h
  simp only [take_encodeHdr]
  rfl

end Services

end Shinigami
