import Shinigami.ServiceManager.Infrastructure.ReplaySafety
import Shinigami.ServiceManager.Lifecycle.Client

/-!
# Results of the client API

The client calls against `smHandleClient` at the other end of the connection.
Three of the calls ask for the 4 bytes of an `sm_reply_t`, which is what their
handlers always send. `sm_lookup` asks for the 516 bytes of a lookup reply; an
error is answered with 4 bytes all the same, so the call fails to read it and
returns a code of its own (`result_eq_iff`).
-/

namespace Shinigami

namespace ServiceManager

open CString

/-- A call of the client API with strings that are not `NULL`. -/
inductive ApiCall
  | register (name socketPath ringName : List UInt8)
  | lookup (name : List UInt8)
  | heartbeat (name : List UInt8)
  | unregister (name : List UInt8)

/-- The code returned to the caller. -/
def ApiCall.result (key : Option (List UInt8)) (env : ClientEnv)
    (serve : List UInt8 → List UInt8) : ApiCall → ℤ
  | .register name socketPath ringName =>
      smRegister key env serve (some name) (some socketPath) (some ringName)
  | .lookup name => (smLookup key env serve (some name) true).1
  | .heartbeat name => smHeartbeat key env serve (some name)
  | .unregister name => smUnregister key env serve (some name)

/-- The request of a call. -/
def ApiCall.request (env : ClientEnv) : ApiCall → Request
  | .register name socketPath ringName =>
      .register (registerReq name socketPath ringName env.pid)
  | .lookup name => .lookup (nameReq name)
  | .heartbeat name => .heartbeat (nameReq name)
  | .unregister name => .unregister (nameReq name)

/-- The call passes its own checks, connects and sends its frame. -/
def ApiCall.Sends (env : ClientEnv) (call : ApiCall) : Prop :=
  (env.connectOk = true ∧ env.sendHdrOk = true ∧ env.sendReqOk = true) ∧
    match call with
    | .register name socketPath ringName =>
        cstr name ≠ [] ∧ cstr socketPath ≠ [] ∧ cstr ringName ≠ []
    | .lookup name | .heartbeat name | .unregister name => cstr name ≠ []

/-- The connection of the server with the frame of a call. -/
def ApiCall.connection (key : Option (List UInt8)) (env : ClientEnv)
    (conn : Connection) (call : ApiCall) : Connection :=
  { conn with
    stream := transactFrame key env (call.request env).payload (call.request env).msgType }

/-- The server at the other end: every byte it sends arrives. -/
def serveConnection (key : Option (List UInt8)) (s : ServerState) (conn : Connection)
    (frame : List UInt8) : List UInt8 :=
  (smHandleClient key s { conn with stream := frame }).sent

/-- The response code of a reply, `SM_OK` for a lookup reply. -/
def responseCode (reply : List UInt8) : ℤ :=
  if reply.length = smLookupReplySize then smOk else decodeReply reply

/-- The code of `sm_lookup` when `reply` arrives. -/
def lookupCode (reply : List UInt8) : ℤ :=
  if reply.length < smLookupReplySize then smErrInvalid else smOk

theorem transactFrame_eq (key : Option (List UInt8)) (env : ClientEnv)
    (payload : List UInt8) (msgType : UInt16) :
    ∃ hdr, transactFrame key env payload msgType = encodeHdr hdr ++ payload ∧
      hdr.msgType = msgType ∧ hdr.length = UInt32.ofNat payload.length := by
  cases key with
  | none => exact ⟨transactHdr env payload msgType, rfl, rfl, rfl⟩
  | some key => exact ⟨_, transactFrame_some key env payload msgType, rfl, rfl⟩

theorem serveFrame_of_dispatched {key : Option (List UInt8)} {s : ServerState}
    {conn : Connection} {hdr : SmHdr} {payload : List UInt8}
    (h : (serveFrame key s conn hdr payload).dispatched = true) :
    serveFrame key s conn hdr payload =
      dispatch s conn.request hdr.msgType payload := by
  unfold serveFrame at h ⊢
  split_ifs at h ⊢ with hheader hsize
  · cases h
  · cases h
  · cases key with
    | none => rfl
    | some key =>
        dsimp only at h ⊢
        split_ifs at h ⊢ with hhmac
        · cases h
        · rfl

theorem smHandleClient_of_dispatched {key : Option (List UInt8)} {s : ServerState}
    {conn : Connection} {hdr : SmHdr} {payload : List UInt8}
    (hstream : conn.stream = encodeHdr hdr ++ payload)
    (hlength : hdr.length.toNat = payload.length)
    (h : (smHandleClient key s conn).dispatched = true) :
    smHandleClient key s conn =
      dispatch (chargeRate s conn) conn.request hdr.msgType payload := by
  unfold smHandleClient at h ⊢
  rw [hstream, recvHdr_encodeHdr] at h ⊢
  dsimp only at h ⊢
  rw [hlength, List.take_length] at h ⊢
  split_ifs at h ⊢ with htimeout hrate hzero hshort
  · cases h
  · cases h
  · cases h
  · cases h
  · exact serveFrame_of_dispatched h

/-- The server answers a call that is dispatched like the handler of its type,
which gets the bytes of the request. -/
theorem served_of_dispatched {clientKey serverKey : Option (List UInt8)}
    {env : ClientEnv} {s : ServerState} {conn : Connection} (call : ApiCall)
    (h : (smHandleClient serverKey s (call.connection clientKey env conn)).dispatched =
      true) :
    smHandleClient serverKey s (call.connection clientKey env conn) =
      dispatch (chargeRate s conn) conn.request (call.request env).msgType
        (call.request env).payload := by
  obtain ⟨hdr, hframe, htype, hlength⟩ := transactFrame_eq clientKey env
    (call.request env).payload (call.request env).msgType
  have hlen : hdr.length.toNat = (call.request env).payload.length := by
    rw [hlength, UInt32.toNat_ofNat',
      Nat.mod_eq_of_lt (call.request env).length_payload_lt]
  rw [smHandleClient_of_dispatched hframe hlen h, htype]
  rfl

def Handled.AnswersCode (h : Handled) : Prop :=
  ∃ code, IsResponseCode code ∧ h.sent = encodeReply code

theorem Handled.Refuses.answersCode {h : Handled} {s : ServerState}
    (href : h.Refuses s) : h.AnswersCode := by
  obtain ⟨code, hcode, -, hsent⟩ := href.code
  exact ⟨code, hcode, hsent⟩

theorem answersCode_smHandleRegister (s : ServerState) (env : RequestEnv)
    (req : SmRegisterReq) : (smHandleRegister s env req).AnswersCode := by
  rcases smHandleRegister_cases s env req with href | ⟨-, -, -, -, hsent⟩
  · exact href.answersCode
  · exact ⟨_, isResponseCode_smRegistryAdd _ _ _ _ _, hsent⟩

theorem answersCode_smHandleHeartbeat (s : ServerState) (env : RequestEnv)
    (name : List UInt8) : (smHandleHeartbeat s env name).AnswersCode := by
  rcases smHandleHeartbeat_cases s env name with href | ⟨-, -, hsent⟩
  · exact href.answersCode
  · exact ⟨_, isResponseCode_smRegistryUpdateHeartbeat _ _ _, hsent⟩

theorem answersCode_smHandleUnregister (s : ServerState) (env : RequestEnv)
    (name : List UInt8) : (smHandleUnregister s env name).AnswersCode := by
  rcases smHandleUnregister_cases s env name with href | ⟨-, -, hsent⟩
  · exact href.answersCode
  · exact ⟨_, isResponseCode_smRegistryRemoveIfOwner _ _ _, hsent⟩

theorem responseCode_encodeReply {code : ℤ} (h : IsResponseCode code) :
    responseCode (encodeReply code) = code := by
  have hshort : (encodeReply code).length ≠ smLookupReplySize := by
    rw [length_encodeReply]
    decide
  rw [responseCode, if_neg hshort, decodeReply_encodeReply h]

section Result

variable {key : Option (List UInt8)} {env : ClientEnv} {serve : List UInt8 → List UInt8}

theorem transactCode_eq {req : Request} {code : ℤ} (hconnect : env.connectOk = true)
    (hhdr : env.sendHdrOk = true) (hreq : env.sendReqOk = true)
    (hcode : IsResponseCode code)
    (hserve : serve (transactFrame key env req.payload req.msgType) =
      encodeReply code) :
    transactCode key env serve req = code := by
  have hreply : smTransact key env serve req.payload req.msgType smReplySize =
      some (encodeReply code) := by
    simp [smTransact, hhdr, hreq, hserve, smReplySize, List.take_of_length_le]
  simp only [transactCode, hconnect, hreply, Bool.not_true, Bool.false_eq_true, if_false]
  exact decodeReply_encodeReply hcode

theorem smLookup_fst {name : List UInt8} (hconnect : env.connectOk = true)
    (hhdr : env.sendHdrOk = true) (hreq : env.sendReqOk = true) (hname : cstr name ≠ []) :
    (smLookup key env serve (some name) true).1 =
      lookupCode (serve (transactFrame key env (nameReq name).bytes smMsgLookup)) := by
  by_cases hshort : (serve (transactFrame key env (nameReq name).bytes
      smMsgLookup)).length < smLookupReplySize
  · simp [smLookup, lookupCode, hname, hconnect, smTransact, hhdr, hreq,
      Request.payload, Request.msgType, hshort]
  · simp [smLookup, lookupCode, hname, hconnect, smTransact, hhdr, hreq,
      Request.payload, Request.msgType, hshort]

end Result

/-- The handler answers the call with a reply that the call reads in full, or
with the code that the call returns when it cannot. -/
def ApiCall.ReadsReply (s : ServerState) (env : RequestEnv) : ApiCall → Prop
  | .lookup name =>
      LimiterAdmits s env (nameReq name).serviceName ∧
        (smValidateServiceName (nameReq name).serviceName ≠ smOk ∨
          ∃ e, smRegistryFindCopy s.registry (nameReq name).serviceName = some e ∧
            e.status = .running)
  | .register _ _ _ | .heartbeat _ | .unregister _ => True

theorem decodeNameReq_bytes (req : NameReq) :
    decodeNameReq req.bytes = req.serviceName := by
  rw [decodeNameReq, NameReq.bytes, List.take_of_length_le req.serviceName_length.le]

theorem lookupCode_encodeReply_iff {code : ℤ} (h : IsResponseCode code) :
    lookupCode (encodeReply code) = responseCode (encodeReply code) ↔
      code = smErrInvalid := by
  have hshort : (encodeReply code).length < smLookupReplySize := by
    rw [length_encodeReply]
    decide
  rw [responseCode_encodeReply h, lookupCode, if_pos hshort, eq_comm]

theorem lookupCode_encodeLookupReply (entry : ServiceEntry) :
    lookupCode (encodeLookupReply entry) = responseCode (encodeLookupReply entry) := by
  simp [lookupCode, responseCode, smLookupReplySize]

/-- A lookup agrees exactly when it is answered with an entry, or when the name
is refused. -/
theorem lookup_agrees_iff (s : ServerState) (env : RequestEnv) (name : List UInt8) :
    lookupCode (smHandleLookup s env (nameReq name).serviceName).sent =
        responseCode (smHandleLookup s env (nameReq name).serviceName).sent ↔
      (ApiCall.lookup name).ReadsReply s env := by
  unfold ApiCall.ReadsReply
  by_cases hadmits : LimiterAdmits s env (nameReq name).serviceName
  swap
  · rw [smHandleLookup_of_refused hadmits, lookupCode_encodeReply_iff (by decide)]
    exact iff_of_false (by decide) fun h => hadmits h.1
  rw [smHandleLookup_of_admits hadmits]
  by_cases hname : smValidateServiceName (nameReq name).serviceName = smOk
  swap
  · rw [if_pos hname, lookupCode_encodeReply_iff (by decide)]
    exact iff_of_true rfl ⟨hadmits, .inl hname⟩
  rw [if_neg (not_not.mpr hname)]
  cases hfind : smRegistryFindCopy s.registry (nameReq name).serviceName with
  | none =>
      dsimp only
      rw [lookupCode_encodeReply_iff (by decide)]
      apply iff_of_false (by decide)
      rintro ⟨-, hne | ⟨e, he, -⟩⟩
      · exact hne hname
      · rw [hfind] at he
        cases he
  | some e =>
      dsimp only
      by_cases hstatus : e.status = .running
      · rw [if_neg (not_not.mpr hstatus)]
        exact iff_of_true (lookupCode_encodeLookupReply e)
          ⟨hadmits, .inr ⟨e, hfind, hstatus⟩⟩
      · rw [if_pos hstatus, lookupCode_encodeReply_iff (by decide)]
        apply iff_of_false (by decide)
        rintro ⟨-, hne | ⟨e', he, hrunning⟩⟩
        · exact hne hname
        · rw [hfind] at he
          cases he
          exact hstatus hrunning

/-- A call returns the response code of the server's reply, except for a lookup
that is answered with another error than the one the call returns itself. -/
theorem client_result_iff (clientKey serverKey : Option (List UInt8)) (env : ClientEnv)
    (s : ServerState) (conn : Connection) (call : ApiCall) (hsends : call.Sends env)
    (hreach : (smHandleClient serverKey s
      (call.connection clientKey env conn)).dispatched = true) :
    call.result clientKey env (serveConnection serverKey s conn) =
        responseCode (smHandleClient serverKey s
          (call.connection clientKey env conn)).sent ↔
      call.ReadsReply (chargeRate s conn) conn.request := by
  have hserved := served_of_dispatched call hreach
  have hserve : serveConnection serverKey s conn (transactFrame clientKey env
      (call.request env).payload (call.request env).msgType) =
      (smHandleClient serverKey s (call.connection clientKey env conn)).sent := rfl
  rw [hserved] at hserve ⊢
  obtain ⟨⟨hconnect, hhdr, hreq⟩, hargs⟩ := hsends
  have hcode : ∀ h : Handled, h.AnswersCode →
      serveConnection serverKey s conn (transactFrame clientKey env
        (call.request env).payload (call.request env).msgType) = h.sent →
      transactCode clientKey env (serveConnection serverKey s conn) (call.request env) =
        responseCode h.sent := by
    rintro h ⟨code, hcode, hsent⟩ hsame
    rw [hsent] at hsame ⊢
    rw [transactCode_eq hconnect hhdr hreq hcode hsame, responseCode_encodeReply hcode]
  cases call with
  | register name socketPath ringName =>
      refine iff_of_true ?_ trivial
      simp only [ApiCall.result, smRegister, hargs, or_self, if_false]
      exact hcode _ (answersCode_smHandleRegister _ _ _) hserve
  | heartbeat name =>
      refine iff_of_true ?_ trivial
      simp only [ApiCall.result, smHeartbeat, hargs, if_false]
      exact hcode _ (answersCode_smHandleHeartbeat _ _ _) hserve
  | unregister name =>
      refine iff_of_true ?_ trivial
      simp only [ApiCall.result, smUnregister, hargs, if_false]
      exact hcode _ (answersCode_smHandleUnregister _ _ _) hserve
  | lookup name =>
      have hlookup : dispatch (chargeRate s conn) conn.request smMsgLookup
          (nameReq name).bytes = ⟨smHandleLookup (chargeRate s conn) conn.request
            (nameReq name).serviceName, true⟩ := by
        rw [← decodeNameReq_bytes]
        rfl
      simp only [ApiCall.request, Request.msgType, Request.payload] at hserve ⊢
      rw [hlookup] at hserve ⊢
      rw [ApiCall.result, smLookup_fst hconnect hhdr hreq hargs, hserve]
      exact lookup_agrees_iff (chargeRate s conn) conn.request name

def demoConnection : Connection where
  timeoutOk := true
  mono := .ofSeconds 1
  stream := []
  headerNow := 1
  request :=
    { peer := ⟨7, 1000, 1000⟩
      mono := .ofSeconds 1
      banNow := 1
      violationNow := 1
      entryNow := 1
      now := 1
      now' := 1
      kill := fun _ => .alive
      sendOk := true }

def demoClient : ClientEnv := ⟨true, true, true, 1, 7, some 42⟩

/-- A heartbeat of an unknown service is refused, and the caller is told so. -/
theorem client_result_iff_heartbeat :
    let call := ApiCall.heartbeat (ascii ['s', 'v', 'c'])
    let s := ServerState.init (.ofSeconds 0)
    call.result none demoClient (serveConnection none s demoConnection) =
        responseCode (smHandleClient none s
          (call.connection none demoClient demoConnection)).sent ∧
      call.result none demoClient (serveConnection none s demoConnection) =
        smErrNotFound := by
  intro call s
  exact ⟨(client_result_iff none none demoClient s demoConnection call
    ⟨⟨rfl, rfl, rfl⟩, by decide⟩ (by decide +kernel)).mpr trivial, by decide +kernel⟩

/-- A lookup of an unknown service is answered with `SM_ERR_NOT_FOUND`, and the
caller gets `SM_ERR_INVALID`. -/
theorem lookup_result_differs :
    let call := ApiCall.lookup (ascii ['s', 'v', 'c'])
    let s := ServerState.init (.ofSeconds 0)
    let served := smHandleClient none s (call.connection none demoClient demoConnection)
    served.dispatched = true ∧ responseCode served.sent = smErrNotFound ∧
      call.result none demoClient (serveConnection none s demoConnection) =
        smErrInvalid := by
  decide +kernel

end ServiceManager

end Shinigami
