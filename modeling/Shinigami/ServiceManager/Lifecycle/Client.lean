import Shinigami.ServiceManager.Infrastructure.Handlers

/-!
# Client API of the service manager

`_sm_transact` and the four calls around it. A call builds its request struct,
sends one frame over a connection of its own and waits for a reply of a size
that is fixed before the request is sent. What the other side of the connection
does is a parameter `serve`: it takes the bytes of the frame to the bytes that
arrive before the connection is closed. The readings of the clock, the process
and the random nonce, and the results of the system calls are in `ClientEnv`.
-/

namespace Shinigami

namespace ServiceManager

open CString LittleEndian

/-- What a call meets: the results of `connect` and of the two `send`s, the
clock, the process, and the nonce if `getrandom` delivers one. -/
structure ClientEnv where
  connectOk : Bool
  sendHdrOk : Bool
  sendReqOk : Bool
  now : ℤ
  pid : ℤ
  nonce : Option UInt32

/-- `sm_register_req_t`, with all its bytes. -/
structure RegisterReq where
  serviceName : List UInt8
  socketPath : List UInt8
  ringName : List UInt8
  pid : ℤ
  serviceName_length : serviceName.length = smMaxName
  socketPath_length : socketPath.length = smMaxPath
  ringName_length : ringName.length = smMaxPath

/-- `sm_lookup_req_t`, `sm_heartbeat_req_t` and `sm_unregister_req_t`. -/
structure NameReq where
  serviceName : List UInt8
  serviceName_length : serviceName.length = smMaxName

def RegisterReq.bytes (req : RegisterReq) : List UInt8 :=
  req.serviceName ++ req.socketPath ++ req.ringName ++ encodeInt32 req.pid

def NameReq.bytes (req : NameReq) : List UInt8 := req.serviceName

/-- A zeroed request after the `strncpy` of the name. -/
def nameReq (name : List UInt8) : NameReq :=
  ⟨strncpyField smMaxName name, length_strncpyField smMaxName name⟩

/-- The request of `sm_register`. -/
def registerReq (name socketPath ringName : List UInt8) (pid : ℤ) : RegisterReq where
  serviceName := strncpyField smMaxName name
  socketPath := strncpyField smMaxPath socketPath
  ringName := strncpyField smMaxPath ringName
  pid := pid
  serviceName_length := length_strncpyField smMaxName name
  socketPath_length := length_strncpyField smMaxPath socketPath
  ringName_length := length_strncpyField smMaxPath ringName

/-- The requests that the client API sends. -/
inductive Request
  | register (req : RegisterReq)
  | lookup (req : NameReq)
  | heartbeat (req : NameReq)
  | unregister (req : NameReq)

def Request.msgType : Request → UInt16
  | .register _ => smMsgRegister
  | .lookup _ => smMsgLookup
  | .heartbeat _ => smMsgHeartbeat
  | .unregister _ => smMsgUnregister

def Request.payload : Request → List UInt8
  | .register req => req.bytes
  | .lookup req | .heartbeat req | .unregister req => req.bytes

/-- `sizeof(sm_reply_t)`. -/
def smReplySize : ℕ := 4

/-- `sizeof(sm_lookup_reply_t)`. -/
def smLookupReplySize : ℕ := 516

def transactHdr (env : ClientEnv) (payload : List UInt8) (msgType : UInt16) :
    SmHdr where
  magic := smProtocolMagic
  version := smProtocolVersion
  msgType := msgType
  length := UInt32.ofNat payload.length
  timestamp := UInt32.ofInt env.now
  clientPid := UInt32.ofInt env.pid
  nonce := env.nonce.getD 0
  hmac := List.replicate smHmacSize 0
  hmac_length := length_zeroHmac

/-- The frame that `_sm_transact` sends, signed if a key is loaded. -/
def transactFrame (key : Option (List UInt8)) (env : ClientEnv)
    (payload : List UInt8) (msgType : UInt16) : List UInt8 :=
  let hdr := transactHdr env payload msgType
  let hdr :=
    match key with
    | none => hdr
    | some key =>
        { hdr with
          hmac := smHmacSha256 key ((encodeHdr hdr).take smHdrHmacOffset ++ payload)
          hmac_length := length_smHmacSha256 _ _ }
  encodeHdr hdr ++ payload

/-- `_sm_transact`: the reply, or `none` when a part of the frame cannot be sent
or less than `replySize` bytes arrive. -/
def smTransact (key : Option (List UInt8)) (env : ClientEnv)
    (serve : List UInt8 → List UInt8) (payload : List UInt8) (msgType : UInt16)
    (replySize : ℕ) : Option (List UInt8) :=
  if !env.sendHdrOk then none
  else if !env.sendReqOk then none
  else
    let reply := serve (transactFrame key env payload msgType)
    if reply.length < replySize then none else some (reply.take replySize)

section Calls

variable (key : Option (List UInt8)) (env : ClientEnv)
  (serve : List UInt8 → List UInt8)

def transactCode (req : Request) : ℤ :=
  if !env.connectOk then smErrNotFound
  else
    match smTransact key env serve req.payload req.msgType smReplySize with
    | none => smErrInvalid
    | some reply => decodeReply reply

/-- `sm_register`; `none` stands for `NULL`. -/
def smRegister (name socketPath ringName : Option (List UInt8)) : ℤ :=
  match name, socketPath, ringName with
  | some name, some socketPath, some ringName =>
      if cstr name = [] ∨ cstr socketPath = [] ∨ cstr ringName = [] then smErrInvalid
      else
        transactCode key env serve
          (.register (registerReq name socketPath ringName env.pid))
  | _, _, _ => smErrInvalid

/-- `sm_lookup`: the code, and what is copied to the two buffers. -/
def smLookup (name : Option (List UInt8)) (outputsOk : Bool) :
    ℤ × Option (List UInt8 × List UInt8) :=
  match name with
  | none => (smErrInvalid, none)
  | some name =>
      if cstr name = [] then (smErrInvalid, none)
      else if !outputsOk then (smErrInvalid, none)
      else if !env.connectOk then (smErrNotFound, none)
      else
        let req := Request.lookup (nameReq name)
        match smTransact key env serve req.payload req.msgType smLookupReplySize with
        | none => (smErrInvalid, none)
        | some reply =>
            (smOk, some ((cstr (reply.take smMaxPath)).take (smMaxPath - 1),
              (cstr ((reply.drop smMaxPath).take smMaxPath)).take (smMaxPath - 1)))

/-- `sm_heartbeat`. -/
def smHeartbeat (name : Option (List UInt8)) : ℤ :=
  match name with
  | none => smErrInvalid
  | some name =>
      if cstr name = [] then smErrInvalid
      else transactCode key env serve (.heartbeat (nameReq name))

/-- `sm_unregister`. -/
def smUnregister (name : Option (List UInt8)) : ℤ :=
  match name with
  | none => smErrInvalid
  | some name =>
      if cstr name = [] then smErrInvalid
      else transactCode key env serve (.unregister (nameReq name))

end Calls

@[simp] theorem RegisterReq.length_bytes (req : RegisterReq) :
    req.bytes.length = smRegisterReqSize := by
  simp [RegisterReq.bytes, req.serviceName_length, req.socketPath_length,
    req.ringName_length, smMaxName, smMaxPath, smRegisterReqSize]

@[simp] theorem NameReq.length_bytes (req : NameReq) :
    req.bytes.length = smLookupReqSize := by
  rw [NameReq.bytes, req.serviceName_length]
  rfl

theorem Request.expectedSize_msgType (req : Request) :
    expectedSize req.msgType = some req.payload.length := by
  cases req with
  | register req => simp [msgType, payload, expectedSize]
  | lookup req => simp [msgType, payload, expectedSize, smMsgLookup, smMsgRegister]
  | heartbeat req =>
      simp [msgType, payload, expectedSize, smMsgHeartbeat, smMsgLookup, smMsgRegister]
  | unregister req =>
      simp [msgType, payload, expectedSize, smMsgUnregister, smMsgHeartbeat, smMsgLookup,
        smMsgRegister]

theorem Request.length_payload_lt (req : Request) : req.payload.length < 2 ^ 32 := by
  cases req <;> simp [payload, smRegisterReqSize, smLookupReqSize]

theorem take_encodeHdr (hdr : SmHdr) :
    (encodeHdr hdr).take smHdrHmacOffset = hdr.prefixBytes := by
  rw [encodeHdr, List.take_append_of_le_length hdr.length_prefixBytes.ge,
    List.take_of_length_le hdr.length_prefixBytes.le]

theorem transactFrame_some (key : List UInt8) (env : ClientEnv) (payload : List UInt8)
    (msgType : UInt16) :
    transactFrame (some key) env payload msgType =
      encodeHdr ((transactHdr env payload msgType).sealed payload key) ++ payload := by
  simp only [transactFrame, take_encodeHdr]
  rfl

end ServiceManager

end Shinigami
