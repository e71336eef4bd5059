import Shinigami.Security.Verify.Stream
import Shinigami.ServiceManager.Infrastructure.ReplaySafety
import Shinigami.Services.ServiceIpc

/-!
# Agreement on the frames

The frames of the two clients against the checks of `sm_handle_client`. Both
clients give a header whose type asks for the size of the payload, and seal it
with the digest over the first 24 header bytes and the payload; `accepted_sealed`
says that this is all the receiver wants, as long as the clocks agree. A heartbeat and an
unregistration are sent even where the seal could not be made
(`unsigned_heartbeat_rejected`).
-/

namespace Shinigami

namespace Services

open CString LittleEndian ServiceManager Verify

/-- The bytes are one frame, and at the time `now` it passes the checks of
`sm_handle_client` under the key. -/
def Accepted (key : List UInt8) (now : ℤ) (frame : List UInt8) : Prop :=
  ∃ hdr payload, recvHdr frame = some (hdr, payload) ∧
    hdr.length.toNat = payload.length ∧
    smValidateHeader hdr (smHdrSize + hdr.length.toNat) now = smOk ∧
    smValidateMessageSize hdr.length hdr.msgType = smOk ∧
    smValidateHeaderHmac hdr payload key = smOk

theorem Accepted.dispatched {key : List UInt8} {s : ServerState} {conn : Connection}
    (h : Accepted key conn.headerNow conn.stream) (htimeout : conn.timeoutOk = true)
    (hrate : (smRateLimitCheck s.rateLimiter conn.request.peer.pid
      (monoNow conn.mono)).2 = smOk) :
    (smHandleClient (some key) s conn).dispatched = true := by
  obtain ⟨hdr, payload, hrecv, hlength, hheader, hsize, hhmac⟩ := h
  obtain ⟨hwf, hfresh⟩ := (smValidateHeader_eq_smOk_iff hdr conn.headerNow).mp hheader
  have hframe : conn.frame = some (hdr, payload) := by
    rw [Connection.frame, hrecv]
    dsimp only
    rw [if_neg (by omega), hlength, List.take_length]
  rw [smHandleClient_of_admitted hframe ⟨hwf, hsize, hhmac⟩ ⟨htimeout, hrate, hfresh⟩]
  exact dispatch_dispatched hsize _ _ _

/-- The types with a payload size are in the range of the protocol, and the
sizes are within the bounds. -/
theorem expectedSize_bounds {msgType : UInt16} {n : ℕ}
    (h : expectedSize msgType = some n) :
    ¬(msgType < smMsgRegister ∨ msgType > smMsgUnregister) ∧
      0 < n ∧ n ≤ smMaxPayloadSize := by
  unfold expectedSize at h
  split_ifs at h with hreg hlook hbeat hunreg
  · cases h
    subst hreg
    decide
  · cases h
    subst hlook
    decide
  · cases h
    subst hbeat
    decide
  · cases h
    subst hunreg
    decide

theorem toNat_ofInt_natCast {n : ℕ} (h : n < 2 ^ 32) :
    (UInt32.ofInt n).toNat = n := by
  rw [UInt32.ofInt, UInt32.toNat_ofNat']
  omega

theorem fresh_of_window {hdr : SmHdr} {ts tr : ℕ}
    (hstamp : hdr.timestamp = UInt32.ofInt ts) (hle : ts ≤ tr)
    (hage : tr ≤ ts + smTimestampMaxAge) (hwrap : tr + smTimestampMaxSkew.toNat < 2 ^ 32) :
    hdr.Fresh tr := by
  have hskew : smTimestampMaxSkew.toNat = 60 := rfl
  have hts : hdr.timestamp.toNat = ts := by
    rw [hstamp]
    exact toNat_ofInt_natCast (by omega)
  have htr : (UInt32.ofInt tr).toNat = tr := toNat_ofInt_natCast (by omega)
  constructor
  · intro hfuture
    rw [gt_iff_lt, UInt32.lt_iff_toNat_lt, UInt32.toNat_add, htr, hts, hskew] at hfuture
    omega
  · rw [hts]
    omega

theorem accepted_sealed {hdr : SmHdr} {payload key : List UInt8} {tr : ℕ}
    (hmagic : hdr.magic = smProtocolMagic) (hversion : hdr.version = smProtocolVersion)
    (htype : expectedSize hdr.msgType = some payload.length)
    (hlength : hdr.length = UInt32.ofNat payload.length)
    (hfresh : hdr.Fresh tr) :
    Accepted key tr (encodeHdr (hdr.sealed payload key) ++ payload) := by
  obtain ⟨hrange, hpos, hmax⟩ := expectedSize_bounds htype
  have hlen : hdr.length.toNat = payload.length := by
    rw [hlength, UInt32.toNat_ofNat']
    exact Nat.mod_eq_of_lt (lt_of_le_of_lt hmax (by decide))
  have hne : hdr.length ≠ 0 := by
    intro hzero
    rw [hzero] at hlen
    exact hpos.ne hlen
  have hwf : (hdr.sealed payload key).WellFormed :=
    ⟨hmagic, hversion, hrange, not_or.mpr ⟨hne, by simp only [SmHdr.sealed]; omega⟩⟩
  have hsealed : (hdr.sealed payload key).Fresh tr := ⟨hfresh.not_future, hfresh.not_stale⟩
  refine ⟨hdr.sealed payload key, payload, recvHdr_encodeHdr _ _, hlen, ?_, ?_, ?_⟩
  · exact (smValidateHeader_eq_smOk_iff _ _).mpr ⟨hwf, hsealed⟩
  · change smValidateMessageSize hdr.length hdr.msgType = smOk
    simp only [smValidateMessageSize, htype, hlen, ne_eq, not_true_eq_false, if_false]
  · exact smValidateHeaderHmac_sealed hdr payload key (hlen ▸ hmax)

/-- A digest that is accepted is the one over the header in front of it and the
payload. -/
theorem hmac_of_accepted {hdr : SmHdr} {payload key : List UInt8}
    (h : smValidateHeaderHmac hdr payload key = smOk) :
    hdr.hmac = smHmacSha256 key (macInput hdr payload) := by
  unfold smValidateHeaderHmac at h
  split_ifs at h with hlong hverify
  · cases h
  · cases h
  · exact (smHmacVerify_eq_zero_iff hdr.hmac_length).mp (not_not.mp hverify)

theorem hmac_bytes_of_accepted {stream rest key : List UInt8} {hdr : SmHdr}
    (hrecv : recvHdr stream = some (hdr, rest))
    (h : smValidateHeaderHmac hdr (rest.take hdr.length.toNat) key = smOk) :
    (stream.drop smHdrHmacOffset).take smHmacSize =
      smHmacSha256 key (stream.take smHdrHmacOffset ++
        (stream.drop smHdrSize).take hdr.length.toNat) := by
  have hstream := encodeHdr_of_recvHdr hrecv
  have hprefix := hdr.length_prefixBytes
  have hhmac : (stream.drop smHdrHmacOffset).take smHmacSize = hdr.hmac := by
    rw [hstream, encodeHdr, List.append_assoc, ← hprefix, List.drop_left,
      ← hdr.hmac_length, List.take_left]
  have hfront : stream.take smHdrHmacOffset = hdr.prefixBytes := by
    rw [hstream, encodeHdr, List.append_assoc, ← hprefix, List.take_left]
  have hrest : stream.drop smHdrSize = rest := by
    rw [hstream, ← length_encodeHdr hdr, List.drop_left]
  rw [hhmac, hfront, hrest]
  exact hmac_of_accepted h

/-- Whatever a service sends for the request is accepted. -/
def IpcRequest.FrameAccepted (req : IpcRequest) (key : List UInt8) (now : ℤ)
    (ctx : VerifyContext) (pid : ℤ) (env : IpcEnv) : Prop :=
  ∀ frame, req.frame (some ctx) pid env = some frame → Accepted key now frame

section IpcRequest

variable {req : IpcRequest} {ctx : VerifyContext} {pid : ℤ} {env : IpcEnv}

theorem IpcRequest.frame_of_signed (hmalloc : env.mallocOk = true) :
    req.frame (some ctx) pid env =
      some (encodeHdr ((req.hdr pid env).sealed req.payload ctx.masterKey) ++
        req.payload) := by
  obtain ⟨signed, hsigned⟩ : ∃ signed,
      signMessage (some ctx) env (req.hdr pid env) req.payload = some signed := by
    simp [signMessage, hmalloc]
  simp only [IpcRequest.frame, hsigned, eq_sealed_of_signMessage hsigned]

/-- Without memory for the signature a registration is given up, and the other requests go
out with the header as it was filled. -/
theorem IpcRequest.frame_of_unsigned (hmalloc : env.mallocOk = false) :
    req.frame (some ctx) pid env =
      if req.msgType = svcMsgRegister then none
      else some (encodeHdr (req.hdr pid env) ++ req.payload) := by
  cases req <;> simp [IpcRequest.frame, signMessage, hmalloc, IpcRequest.msgType,
    svcMsgRegister, svcMsgHeartbeat, svcMsgUnregister]

/-- An unsigned frame is accepted only under a key that gives it the digest zero. -/
theorem IpcRequest.not_accepted_unsigned {key : List UInt8} {now : ℤ}
    (hdigest : smHmacSha256 key (macInput (req.hdr pid env) req.payload) ≠
      List.replicate smHmacSize 0) :
    ¬Accepted key now (encodeHdr (req.hdr pid env) ++ req.payload) := by
  rintro ⟨hdr, payload, hrecv, -, -, -, hhmac⟩
  obtain ⟨rfl, rfl⟩ := Prod.mk.inj (Option.some.inj ((recvHdr_encodeHdr _ _).symm.trans hrecv))
  exact hdigest (hmac_of_accepted hhmac).symm

end IpcRequest

/-- Every frame that the client API builds under a key is accepted by the service manager
under this key within the time window; one that a service sends is accepted exactly when
there was memory for its signature, a registration without it not being sent; and every
digest that is accepted is the one over the header bytes in front of it and the payload. -/
theorem frame_agreement_iff (key : List UInt8) (ts tr : ℕ) (hle : ts ≤ tr)
    (hage : tr ≤ ts + smTimestampMaxAge)
    (hwrap : tr + smTimestampMaxSkew.toNat < 2 ^ 32) :
    (∀ (req : Request) (env : ClientEnv), env.now = ts →
      Accepted key tr (transactFrame (some key) env req.payload req.msgType)) ∧
    (∀ (req : IpcRequest) (ctx : VerifyContext) (pid : ℤ) (env : IpcEnv),
      ctx.masterKey = key → env.now = ts →
      (env.mallocOk = true → (req.frame (some ctx) pid env).isSome = true) ∧
      (smHmacSha256 key (macInput (req.hdr pid env) req.payload) ≠
          List.replicate smHmacSize 0 →
        (req.FrameAccepted key tr ctx pid env ↔
          env.mallocOk = true ∨ req.msgType = svcMsgRegister))) ∧
    ∀ (key stream rest : List UInt8) (hdr : SmHdr), recvHdr stream = some (hdr, rest) →
      smValidateHeaderHmac hdr (rest.take hdr.length.toNat) key = smOk →
      (stream.drop smHdrHmacOffset).take smHmacSize =
        smHmacSha256 key (stream.take smHdrHmacOffset ++
          (stream.drop smHdrSize).take hdr.length.toNat) := by
  refine ⟨fun req env hnow => ?_, fun req ctx pid env hkey hnow => ⟨fun hmalloc => ?_,
    fun hdigest => ⟨fun haccepted => ?_, ?_⟩⟩, fun _ _ _ _ => hmac_bytes_of_accepted⟩
  · rw [transactFrame_some]
    exact accepted_sealed rfl rfl req.expectedSize_msgType rfl
      (fresh_of_window (by rw [← hnow]; rfl) hle hage hwrap)
  · rw [req.frame_of_signed hmalloc]
    rfl
  · by_contra hnot
    obtain ⟨hmalloc, htype⟩ := not_or.mp hnot
    refine req.not_accepted_unsigned hdigest (haccepted _ ?_)
    rw [req.frame_of_unsigned (Bool.eq_false_of_not_eq_true hmalloc), if_neg htype]
  · rintro hcond frame hframe
    cases hmalloc : env.mallocOk with
    | true =>
        obtain rfl := Option.some.inj ((req.frame_of_signed hmalloc).symm.trans hframe)
        rw [hkey]
        exact accepted_sealed rfl rfl req.expectedSize_msgType rfl
          (fresh_of_window (by rw [← hnow]; rfl) hle hage hwrap)
    | false =>
        have htype : req.msgType = svcMsgRegister :=
          hcond.resolve_left (Bool.eq_false_iff.mp hmalloc)
        rw [req.frame_of_unsigned hmalloc, if_pos htype] at hframe
        cases hframe

/-- A heartbeat of `svc`. -/
def svcHeartbeat : IpcRequest := .heartbeat (nameReq (ascii ['s', 'v', 'c']))

def unsignedEnv : IpcEnv := ⟨1000, 7, false⟩

theorem digest_svcHeartbeat :
    smHmacSha256 (List.replicate smHmacKeySize 7)
        (macInput (svcHeartbeat.hdr 42 unsignedEnv) svcHeartbeat.payload) ≠
      List.replicate smHmacSize 0 := by
  decide +kernel

/-- A lookup of `svc` and the heartbeat without a signature, both received five seconds
later. -/
theorem frame_agreement_iff_svc :
    let key := List.replicate smHmacKeySize 7
    Accepted key 1005 (transactFrame (some key) ⟨true, true, true, 1000, 7, some 42⟩
      (nameReq (ascii ['s', 'v', 'c'])).bytes smMsgLookup) ∧
    (svcHeartbeat.FrameAccepted key 1005 streamContext 42 unsignedEnv ↔
      unsignedEnv.mallocOk = true ∨ svcHeartbeat.msgType = svcMsgRegister) := by
  intro key
  obtain ⟨hclient, hservice, -⟩ :=
    frame_agreement_iff key 1000 1005 (by decide) (by decide) (by decide)
  exact ⟨hclient (.lookup (nameReq (ascii ['s', 'v', 'c']))) _ rfl,
    (hservice svcHeartbeat streamContext 42 unsignedEnv rfl rfl).2 digest_svcHeartbeat⟩

/-- The heartbeat that could not be signed is sent all the same and rejected. -/
theorem unsigned_heartbeat_rejected :
    ¬∀ (key : List UInt8) (ts tr : ℕ), key.length = smHmacKeySize → ts ≤ tr →
      tr ≤ ts + smTimestampMaxAge → tr + smTimestampMaxSkew.toNat < 2 ^ 32 →
      ∀ (req : IpcRequest) (ctx : VerifyContext) (pid : ℤ) (env : IpcEnv),
        ctx.masterKey = key → env.now = ts → req.FrameAccepted key tr ctx pid env := by
  intro h
  have haccepted := h (List.replicate smHmacKeySize 7) 1000 1005 (by decide) (by decide)
    (by decide) (by decide) svcHeartbeat streamContext 42 unsignedEnv rfl rfl
  exact svcHeartbeat.not_accepted_unsigned digest_svcHeartbeat
    (haccepted _ (svcHeartbeat.frame_of_unsigned rfl))

end Services

end Shinigami
