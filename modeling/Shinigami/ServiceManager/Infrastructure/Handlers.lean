import Shinigami.ServiceManager.Infrastructure.Registry.Operations
import Shinigami.ServiceManager.Security.AdvancedRateLimit

/-!
# Request handlers

`smHandleClient` takes one connection from the socket set-up to the reply: it
charges the rate limiter, reads one frame, validates it and dispatches it to the
handler of its type. The handlers work on the registry and on the limiters; the
peer is the kernel-verified one.

A connection carries everything the code meets outside its own state: the peer,
the bytes that arrive, and the readings of the clocks. The `dispatched` flag of
a result is not a variable of the program. It records that the connection has
reached a handler.
-/

namespace Shinigami

namespace ServiceManager

open CString LittleEndian

/-- The peer of a connection, from `SO_PEERCRED`. -/
structure Peer where
  pid : ℤ
  uid : ℕ
  gid : ℕ

/-- What the handler of one request meets: the peer, the clock readings of the
limiters, of the entry and of the registry, the liveness of processes, and
whether the reply can be sent. -/
structure RequestEnv where
  peer : Peer
  mono : Timespec
  banNow : ℤ
  violationNow : ℤ
  entryNow : ℤ
  now : ℤ
  now' : ℤ
  kill : ℤ → KillProbe
  sendOk : Bool

/-- The state of the service manager that the handlers work on. -/
structure ServerState where
  registry : Registry
  rateLimiter : RateLimiter
  limits : ServiceLimits

/-- The state after start-up, with the clock at `start`. -/
def ServerState.init (start : Timespec) : ServerState where
  registry := smRegistryInit Registry.zero
  rateLimiter := smRateLimitInit (monoNow start)
  limits := smRatelimitInit

/-- What a handler leaves behind: the state, the bytes given to `send`, and its
return value. -/
structure Handled where
  server : ServerState
  sent : List UInt8
  rc : ℤ

/-- An `int32_t` on the wire. -/
def encodeInt32 (x : ℤ) : List UInt8 := leBytes 4 (UInt32.ofInt x).toNat

/-- `sm_reply_t`. -/
def encodeReply (responseCode : ℤ) : List UInt8 := encodeInt32 responseCode

/-- `sm_lookup_reply_t`. -/
def encodeLookupReply (entry : ServiceEntry) : List UInt8 :=
  strncpyField smMaxPath entry.socketPath ++
    strncpyField smMaxPath entry.ringName ++ encodeInt32 entry.pid

def sendReply (s : ServerState) (env : RequestEnv) (responseCode : ℤ) : Handled :=
  ⟨s, encodeReply responseCode, if env.sendOk then 0 else -1⟩

def sendReplyLookup (s : ServerState) (env : RequestEnv) (entry : ServiceEntry) :
    Handled :=
  ⟨s, encodeLookupReply entry, if env.sendOk then 0 else -1⟩

def rateLimited (s : ServerState) (env : RequestEnv) (name : List UInt8)
    (handle : ServerState → Handled) : Handled :=
  let (rl, limits, rc) := smRatelimitCheckExtended s.rateLimiter s.limits
    env.peer.pid (some name) (monoNow env.mono) env.banNow env.violationNow
  let s := { s with rateLimiter := rl, limits := limits }
  if rc < 0 then sendReply s env smErrRatelimit else handle s

def registerEntry (env : RequestEnv) (req : SmRegisterReq) : ServiceEntry :=
  { ServiceEntry.zero with
    name := strncpyField smMaxName req.serviceName
    socketPath := strncpyField smMaxPath req.socketPath
    ringName := strncpyField smMaxPath req.ringName
    pid := env.peer.pid
    uid := env.peer.uid
    gid := env.peer.gid
    status := .running
    lastHeartbeat := env.entryNow }

def smHandleRegister (s : ServerState) (env : RequestEnv) (req : SmRegisterReq) :
    Handled :=
  rateLimited s env req.serviceName fun s =>
    if smValidateServiceName req.serviceName ≠ smOk then
      sendReply s env smErrInvalid
    else if smValidateSocketPath req.socketPath ≠ smOk then
      sendReply s env smErrInvalid
    else if smValidateSocketPath req.ringName ≠ smOk then
      sendReply s env smErrInvalid
    else
      let (registry, rc) :=
        smRegistryAdd s.registry (registerEntry env req) env.kill env.now env.now'
      sendReply { s with registry := registry } env rc

def smHandleLookup (s : ServerState) (env : RequestEnv) (name : List UInt8) :
    Handled :=
  rateLimited s env name fun s =>
    if smValidateServiceName name ≠ smOk then sendReply s env smErrInvalid
    else
      match smRegistryFindCopy s.registry name with
      | none => sendReply s env smErrNotFound
      | some entry =>
          if entry.status ≠ .running then sendReply s env smErrNotFound
          else sendReplyLookup s env entry

def smHandleHeartbeat (s : ServerState) (env : RequestEnv) (name : List UInt8) :
    Handled :=
  rateLimited s env name fun s =>
    if smValidateServiceName name ≠ smOk then sendReply s env smErrInvalid
    else
      let (registry, rc) := smRegistryUpdateHeartbeat s.registry name env.now
      sendReply { s with registry := registry } env rc

def smHandleUnregister (s : ServerState) (env : RequestEnv) (name : List UInt8) :
    Handled :=
  rateLimited s env name fun s =>
    if smValidateServiceName name ≠ smOk then sendReply s env smErrInvalid
    else
      let (registry, rc) := smRegistryRemoveIfOwner s.registry name env.peer.pid
      sendReply { s with registry := registry } env rc

/-- One client connection: whether the socket timeouts can be set, the reading
of the rate limiter's clock, the bytes that arrive before the client stops
sending or the timeout strikes, the wall clock when the header is validated, and
what the handler meets. -/
structure Connection where
  timeoutOk : Bool
  mono : Timespec
  stream : List UInt8
  headerNow : ℤ
  request : RequestEnv

/-- The result of `sm_handle_client`. -/
structure Served extends Handled where
  dispatched : Bool

/-- The connection ends without a reply. -/
def Served.drop (s : ServerState) : Served := ⟨⟨s, [], -1⟩, false⟩

def Served.refuse (s : ServerState) (responseCode : ℤ) : Served :=
  ⟨⟨s, encodeReply responseCode, -1⟩, false⟩

/-- The `switch` over the message type. -/
def dispatch (s : ServerState) (env : RequestEnv) (msgType : UInt16)
    (payload : List UInt8) : Served :=
  if msgType = smMsgRegister then
    ⟨smHandleRegister s env (decodeRegisterReq payload), true⟩
  else if msgType = smMsgLookup then
    ⟨smHandleLookup s env (decodeNameReq payload), true⟩
  else if msgType = smMsgHeartbeat then
    ⟨smHandleHeartbeat s env (decodeNameReq payload), true⟩
  else if msgType = smMsgUnregister then
    ⟨smHandleUnregister s env (decodeNameReq payload), true⟩
  else Served.refuse s smErrInvalid

def serveFrame (key : Option (List UInt8)) (s : ServerState) (conn : Connection)
    (hdr : SmHdr) (payload : List UInt8) : Served :=
  if smValidateHeader hdr (smHdrSize + hdr.length.toNat) conn.headerNow ≠ smOk then
    Served.refuse s smErrProtocol
  else if smValidateMessageSize hdr.length hdr.msgType ≠ smOk then
    Served.refuse s smErrInvalid
  else
    match key with
    | none => dispatch s conn.request hdr.msgType payload
    | some key =>
        if smValidateHeaderHmac hdr payload key ≠ smOk then
          Served.refuse s smErrAuth
        else dispatch s conn.request hdr.msgType payload

/-- `sm_handle_client`, with the HMAC key if one is loaded. -/
def smHandleClient (key : Option (List UInt8)) (s : ServerState)
    (conn : Connection) : Served :=
  if !conn.timeoutOk then Served.drop s
  else
    let (rl, rc) :=
      smRateLimitCheck s.rateLimiter conn.request.peer.pid (monoNow conn.mono)
    let s := { s with rateLimiter := rl }
    if rc ≠ smOk then Served.drop s
    else
      match recvHdr conn.stream with
      | none => Served.drop s
      | some (hdr, rest) =>
          if hdr.length = 0 ∨ hdr.length.toNat > smMaxPayloadSize then
            Served.refuse s smErrProtocol
          else if rest.length < hdr.length.toNat then Served.drop s
          else serveFrame key s conn hdr (rest.take hdr.length.toNat)

@[simp] theorem length_encodeInt32 (x : ℤ) : (encodeInt32 x).length = 4 := by
  simp [encodeInt32]

@[simp] theorem length_encodeReply (responseCode : ℤ) :
    (encodeReply responseCode).length = 4 := by
  simp [encodeReply, encodeInt32]

@[simp] theorem length_encodeLookupReply (entry : ServiceEntry) :
    (encodeLookupReply entry).length = 516 := by
  simp [encodeLookupReply, encodeInt32, smMaxPath]

theorem leInt_encodeInt32 {x : ℤ} (hlow : -2 ^ 31 ≤ x) (hhigh : x < 2 ^ 31) :
    leInt (encodeInt32 x) = x := by
  refine leInt_leBytes ?_ (by omega) (by omega)
  rw [UInt32.ofInt, UInt32.toNat_ofNat']
  omega

/-- The response code that a client reads from an `sm_reply_t`. -/
def decodeReply (reply : List UInt8) : ℤ := leInt reply

def IsResponseCode (code : ℤ) : Prop := smErrAuth ≤ code ∧ code ≤ smOk

instance : DecidablePred IsResponseCode :=
  fun _ => inferInstanceAs (Decidable (_ ∧ _))

theorem decodeReply_encodeReply {code : ℤ} (h : IsResponseCode code) :
    decodeReply (encodeReply code) = code := by
  obtain ⟨hlow, hhigh⟩ := h
  simp only [smErrAuth, smOk] at hlow hhigh
  exact leInt_encodeInt32 (by omega) (by omega)

theorem encodeReply_inj {code code' : ℤ} (h : IsResponseCode code)
    (h' : IsResponseCode code') (heq : encodeReply code = encodeReply code') :
    code = code' := by
  rw [← decodeReply_encodeReply h, heq, decodeReply_encodeReply h']

theorem rateLimited_cases (s : ServerState) (env : RequestEnv)
    (name : List UInt8) (handle : ServerState → Handled) :
    ∃ s', s'.registry = s.registry ∧
      (rateLimited s env name handle = sendReply s' env smErrRatelimit ∨
        rateLimited s env name handle = handle s') := by
  unfold rateLimited
  obtain ⟨rl, limits, rc⟩ := smRatelimitCheckExtended s.rateLimiter s.limits
    env.peer.pid (some name) (monoNow env.mono) env.banNow env.violationNow
  refine ⟨{ s with rateLimiter := rl, limits := limits }, rfl, ?_⟩
  dsimp only
  split_ifs
  · exact .inl rfl
  · exact .inr rfl

theorem isResponseCode_smRegistryAdd (r : Registry) (entry : ServiceEntry)
    (kill : ℤ → KillProbe) (now now' : ℤ) :
    IsResponseCode (smRegistryAdd r entry kill now now').2 := by
  unfold smRegistryAdd
  split
  · simp [IsResponseCode, smErrAuth, smErrInvalid, smOk]
  · split
    · dsimp only
      split_ifs <;> simp [IsResponseCode, smErrAuth, smErrFull, smErrExists, smOk]
    · split_ifs <;> simp [IsResponseCode, smErrAuth, smErrFull, smOk]

theorem isResponseCode_smRegistryUpdateHeartbeat (r : Registry) (name : List UInt8)
    (now : ℤ) : IsResponseCode (smRegistryUpdateHeartbeat r name now).2 := by
  unfold smRegistryUpdateHeartbeat
  split <;> simp [IsResponseCode, smErrAuth, smErrNotFound, smOk]

theorem isResponseCode_smRegistryRemoveIfOwner (r : Registry) (name : List UInt8)
    (ownerPid : ℤ) : IsResponseCode (smRegistryRemoveIfOwner r name ownerPid).2 := by
  unfold smRegistryRemoveIfOwner
  split
  · simp [IsResponseCode, smErrAuth, smErrNotFound, smOk]
  · split_ifs <;> simp [IsResponseCode, smErrAuth, smErrPermission, smOk]
structure Handled.Refuses (h : Handled) (s : ServerState) : Prop where
  registry : h.server.registry = s.registry
  code : ∃ code, IsResponseCode code ∧ code ≠ smOk ∧ h.sent = encodeReply code

theorem refuses_sendReply {s s' : ServerState} (hs : s'.registry = s.registry)
    (env : RequestEnv) {code : ℤ} (hcode : IsResponseCode code) (hne : code ≠ smOk) :
    (sendReply s' env code).Refuses s :=
  ⟨hs, code, hcode, hne, rfl⟩

theorem Handled.Refuses.sent_ne {h : Handled} {s : ServerState} (href : h.Refuses s) :
    h.sent ≠ encodeReply smOk := by
  obtain ⟨code, hcode, hne, hsent⟩ := href.code
  rw [hsent]
  exact fun heq => hne (encodeReply_inj hcode (by decide) heq)

/-- A handler charges the limiters, and then it either refuses or handles. -/
theorem rateLimited_refuses (s : ServerState) (env : RequestEnv)
    (name : List UInt8) (handle : ServerState → Handled) :
    (rateLimited s env name handle).Refuses s ∨
      ∃ s', s'.registry = s.registry ∧ rateLimited s env name handle = handle s' := by
  obtain ⟨s', hs', heq | heq⟩ := rateLimited_cases s env name handle
  · rw [heq]
    exact .inl (refuses_sendReply hs' env (by decide) (by decide))
  · exact .inr ⟨s', hs', heq⟩

/-- A register request is refused, or its fields are valid and it is answered
with the result of the addition. -/
theorem smHandleRegister_cases (s : ServerState) (env : RequestEnv)
    (req : SmRegisterReq) :
    (smHandleRegister s env req).Refuses s ∨
      (smValidateServiceName req.serviceName = smOk ∧
        smValidateSocketPath req.socketPath = smOk ∧
        smValidateSocketPath req.ringName = smOk ∧
        (smHandleRegister s env req).server.registry = (smRegistryAdd s.registry
          (registerEntry env req) env.kill env.now env.now').1 ∧
        (smHandleRegister s env req).sent = encodeReply (smRegistryAdd s.registry
          (registerEntry env req) env.kill env.now env.now').2) := by
  unfold smHandleRegister
  obtain href | ⟨s', hs', heq⟩ := rateLimited_refuses s env req.serviceName _
  · exact .inl href
  · rw [heq]
    split_ifs with hname hpath hring
    · exact .inl (refuses_sendReply hs' env (by decide) (by decide))
    · exact .inl (refuses_sendReply hs' env (by decide) (by decide))
    · exact .inl (refuses_sendReply hs' env (by decide) (by decide))
    · rw [← hs']
      exact .inr ⟨not_not.mp hname, not_not.mp hpath, not_not.mp hring, rfl, rfl⟩

/-- A request that names a service is refused, or it is answered with the result of its
update of the registry. -/
theorem nameRequest_cases (s : ServerState) (env : RequestEnv) (name : List UInt8)
    (update : Registry → Registry × ℤ) :
    let handled := rateLimited s env name fun s =>
      if smValidateServiceName name ≠ smOk then sendReply s env smErrInvalid
      else sendReply { s with registry := (update s.registry).1 } env (update s.registry).2
    handled.Refuses s ∨
      (smValidateServiceName name = smOk ∧
        handled.server.registry = (update s.registry).1 ∧
        handled.sent = encodeReply (update s.registry).2) := by
  intro handled
  obtain href | ⟨s', hs', heq⟩ := rateLimited_refuses s env name _
  · exact .inl href
  · rw [show handled = _ from heq]
    split_ifs with hname
    · exact .inl (refuses_sendReply hs' env (by decide) (by decide))
    · rw [← hs']
      exact .inr ⟨not_not.mp hname, rfl, rfl⟩

/-- A heartbeat is refused, or it is answered with the result of the update. -/
theorem smHandleHeartbeat_cases (s : ServerState) (env : RequestEnv)
    (name : List UInt8) :
    (smHandleHeartbeat s env name).Refuses s ∨
      (smValidateServiceName name = smOk ∧
        (smHandleHeartbeat s env name).server.registry =
          (smRegistryUpdateHeartbeat s.registry name env.now).1 ∧
        (smHandleHeartbeat s env name).sent =
          encodeReply (smRegistryUpdateHeartbeat s.registry name env.now).2) :=
  nameRequest_cases s env name (smRegistryUpdateHeartbeat · name env.now)

/-- An unregistration is refused, or it is answered with the result of the
removal. -/
theorem smHandleUnregister_cases (s : ServerState) (env : RequestEnv)
    (name : List UInt8) :
    (smHandleUnregister s env name).Refuses s ∨
      (smValidateServiceName name = smOk ∧
        (smHandleUnregister s env name).server.registry =
          (smRegistryRemoveIfOwner s.registry name env.peer.pid).1 ∧
        (smHandleUnregister s env name).sent = encodeReply
          (smRegistryRemoveIfOwner s.registry name env.peer.pid).2) :=
  nameRequest_cases s env name (smRegistryRemoveIfOwner · name env.peer.pid)

theorem smHandleRegister_registry (s : ServerState) (env : RequestEnv)
    (req : SmRegisterReq) :
    (smHandleRegister s env req).server.registry = s.registry ∨
      (smValidateServiceName req.serviceName = smOk ∧
        (smHandleRegister s env req).server.registry = (smRegistryAdd s.registry
          (registerEntry env req) env.kill env.now env.now').1) := by
  rcases smHandleRegister_cases s env req with href | ⟨hname, -, -, heq, -⟩
  · exact .inl href.registry
  · exact .inr ⟨hname, heq⟩

theorem smHandleHeartbeat_registry (s : ServerState) (env : RequestEnv)
    (name : List UInt8) :
    (smHandleHeartbeat s env name).server.registry = s.registry ∨
      (smHandleHeartbeat s env name).server.registry =
        (smRegistryUpdateHeartbeat s.registry name env.now).1 := by
  rcases smHandleHeartbeat_cases s env name with href | ⟨-, heq, -⟩
  · exact .inl href.registry
  · exact .inr heq

theorem smHandleUnregister_registry (s : ServerState) (env : RequestEnv)
    (name : List UInt8) :
    (smHandleUnregister s env name).server.registry = s.registry ∨
      (smValidateServiceName name = smOk ∧
        (smHandleUnregister s env name).server.registry =
          (smRegistryRemoveIfOwner s.registry name env.peer.pid).1) := by
  rcases smHandleUnregister_cases s env name with href | ⟨hname, heq, -⟩
  · exact .inl href.registry
  · exact .inr ⟨hname, heq⟩

theorem smHandleLookup_registry (s : ServerState) (env : RequestEnv)
    (name : List UInt8) :
    (smHandleLookup s env name).server.registry = s.registry := by
  unfold smHandleLookup
  obtain ⟨s', hs', heq | heq⟩ := rateLimited_cases s env name _
  · rw [heq]
    exact hs'
  · rw [heq]
    split_ifs
    · exact hs'
    · split
      · exact hs'
      · split_ifs <;> exact hs'

def LimiterAdmits (s : ServerState) (env : RequestEnv) (name : List UInt8) : Prop :=
  0 ≤ (smRatelimitCheckExtended s.rateLimiter s.limits env.peer.pid (some name)
    (monoNow env.mono) env.banNow env.violationNow).2.2

instance (s : ServerState) (env : RequestEnv) (name : List UInt8) :
    Decidable (LimiterAdmits s env name) :=
  inferInstanceAs (Decidable (0 ≤ _))

theorem smHandleLookup_of_refused {s : ServerState} {env : RequestEnv}
    {name : List UInt8} (h : ¬ LimiterAdmits s env name) :
    (smHandleLookup s env name).sent = encodeReply smErrRatelimit := by
  unfold smHandleLookup rateLimited
  dsimp only
  rw [if_pos (not_le.mp h)]
  rfl

theorem smHandleLookup_of_admits {s : ServerState} {env : RequestEnv}
    {name : List UInt8} (h : LimiterAdmits s env name) :
    (smHandleLookup s env name).sent =
      if smValidateServiceName name ≠ smOk then encodeReply smErrInvalid
      else
        match smRegistryFindCopy s.registry name with
        | none => encodeReply smErrNotFound
        | some entry =>
            if entry.status ≠ .running then encodeReply smErrNotFound
            else encodeLookupReply entry := by
  unfold smHandleLookup rateLimited
  dsimp only
  rw [if_neg (not_lt.mpr h)]
  split_ifs with hname
  · rfl
  · cases smRegistryFindCopy s.registry name with
    | none => rfl
    | some entry =>
        dsimp only
        split_ifs <;> rfl

/-- A lookup is answered with a code, or with the entry of a running service. -/
theorem smHandleLookup_sent_cases (s : ServerState) (env : RequestEnv)
    (name : List UInt8) :
    (∃ code, (smHandleLookup s env name).sent = encodeReply code) ∨
      ∃ entry, smRegistryFindCopy s.registry name = some entry ∧
        entry.status = .running ∧
        (smHandleLookup s env name).sent = encodeLookupReply entry := by
  unfold smHandleLookup
  obtain ⟨s', hs', heq | heq⟩ := rateLimited_cases s env name _
  · exact .inl ⟨_, by rw [heq]; rfl⟩
  · rw [heq, hs']
    split_ifs
    · exact .inl ⟨_, rfl⟩
    · cases hfind : smRegistryFindCopy s.registry name with
      | none => exact .inl ⟨_, rfl⟩
      | some entry =>
          dsimp only
          split_ifs with hstatus
          · exact .inl ⟨_, rfl⟩
          · exact .inr ⟨entry, rfl, not_not.mp hstatus, rfl⟩

/-- A handler that leaves the process limiter alone is charged to it once. -/
theorem rateLimited_rateLimiter (s : ServerState) (env : RequestEnv)
    (name : List UInt8) {handle : ServerState → Handled}
    (hhandle : ∀ s, (handle s).server.rateLimiter = s.rateLimiter) :
    (rateLimited s env name handle).server.rateLimiter =
      (smRateLimitCheck s.rateLimiter env.peer.pid (monoNow env.mono)).1 := by
  rw [← smRatelimitCheckExtended_fst s.rateLimiter s.limits env.peer.pid
    (some name) (monoNow env.mono) env.banNow env.violationNow]
  unfold rateLimited
  dsimp only
  split_ifs
  · rfl
  · exact hhandle _

theorem dispatch_rateLimiter {length : UInt32} {msgType : UInt16}
    (h : smValidateMessageSize length msgType = smOk) (s : ServerState)
    (env : RequestEnv) (payload : List UInt8) :
    (dispatch s env msgType payload).server.rateLimiter =
      (smRateLimitCheck s.rateLimiter env.peer.pid (monoNow env.mono)).1 := by
  unfold dispatch
  split_ifs with hreg hlook hbeat hunreg
  · refine rateLimited_rateLimiter s env _ fun s => ?_
    split_ifs <;> rfl
  · refine rateLimited_rateLimiter s env _ fun s => ?_
    split_ifs
    · rfl
    · split
      · rfl
      · split_ifs <;> rfl
  · refine rateLimited_rateLimiter s env _ fun s => ?_
    split_ifs <;> rfl
  · refine rateLimited_rateLimiter s env _ fun s => ?_
    split_ifs <;> rfl
  · rcases msgType_of_smValidateMessageSize h with h | h | h | h <;> contradiction

theorem length_of_smValidateServiceName {name : List UInt8}
    (h : smValidateServiceName name = smOk) : (cstr name).length < smMaxName := by
  unfold smValidateServiceName at h
  split_ifs at h with hempty hlong hchars
  · cases h
  · cases h
  · simpa [strnlen, smMaxName] using hlong
  · cases h

theorem registerEntry_name (env : RequestEnv) (req : SmRegisterReq) :
    cstr (registerEntry env req).name =
      (cstr req.serviceName).take (smMaxName - 1) := by
  simp [registerEntry]

theorem length_registerEntry_name (env : RequestEnv) (req : SmRegisterReq) :
    (cstr (registerEntry env req).name).length < smMaxName := by
  rw [registerEntry_name, List.length_take]
  exact lt_of_le_of_lt (min_le_left _ _) (by decide)

end ServiceManager

end Shinigami
