import Shinigami.Foundations.LittleEndian
import Shinigami.ServiceManager.Security.Crypto

/-!
# Message verification

The signing and checking of single messages in `verify.c`, with the replay
context of `verify_replay.c` and the wrappers of `verify_hmac.c`. The context is
passed explicitly. Clock readings, random numbers and the results of `malloc`
are arguments; a clock reading of zero stands for a clock that cannot be read.

The return codes are kept as they are: `hmac_verify` passes on the code of
`sm_hmac_verify`, which is zero for a match, while `verify_check_message` looks
for one before it advances the replay context. So no check ever changes its
context (`verifyCheckMessage_fst`) or returns one (`verifyCheckMessage_ne_one`).
-/

namespace Shinigami

namespace Verify

open LittleEndian ServiceManager

def maxKeySize : ℕ := 64

def timestampWindow : UInt32 := 30

def defaultTimestampWindow : UInt32 := 30

/-- `replay_context_t`. -/
structure ReplayContext where
  lastTimestamp : UInt64
  lastSequence : UInt32
  timestampWindowSec : UInt32
  strictOrdering : Bool
  enableTimestampCheck : Bool

/-- `verify_context_t`; the master key is the used part of its buffer. -/
structure VerifyContext where
  masterKey : List UInt8
  replayCtx : ReplayContext
  strictOrdering : Bool
  enableTimestampCheck : Bool
  rateLimitPerSec : UInt32
  rateCount : UInt32
  rateWindowStart : UInt64

/-- `message_auth_t`. -/
structure MessageAuth where
  hmac : List UInt8
  hmac_length : hmac.length = smHmacSize
  timestamp : UInt64
  nonce : UInt32
  sequence : UInt32

def replayContextInit (timestampWindowSec : UInt32) (mutexOk : Bool) :
    Option ReplayContext :=
  if mutexOk then
    some
      { lastTimestamp := 0
        lastSequence := 0
        timestampWindowSec :=
          if timestampWindowSec > 0 then timestampWindowSec
          else defaultTimestampWindow
        strictOrdering := true
        enableTimestampCheck := true }
  else none

/-- The timestamp differs from the clock by more than the window. -/
def ReplayContext.outsideWindow (ctx : ReplayContext) (timestamp now : UInt64) :
    Bool :=
  (now > timestamp && now - timestamp > ctx.timestampWindowSec.toUInt64) ||
    (timestamp > now && timestamp - now > ctx.timestampWindowSec.toUInt64)

/-- The sequence number does not advance the context. -/
def ReplayContext.outOfOrder (ctx : ReplayContext) (sequence : UInt32) : Bool :=
  ctx.lastTimestamp > 0 && sequence ≤ ctx.lastSequence

/-- `replay_check` at the clock reading `now`. -/
def replayCheck (ctx : ReplayContext) (timestamp : UInt64) (sequence : UInt32)
    (now : UInt64) : ℤ :=
  if now = 0 then -1
  else if ctx.enableTimestampCheck && ctx.outsideWindow timestamp now then 0
  else if ctx.strictOrdering && ctx.outOfOrder sequence then 0
  else 1

def replayUpdate (ctx : ReplayContext) (timestamp : UInt64) (sequence : UInt32) :
    ReplayContext :=
  { ctx with lastTimestamp := timestamp, lastSequence := sequence }

/-- `verify_init`; `none` when it fails. -/
def verifyInit (key : List UInt8) (mutexOk : Bool) : Option VerifyContext :=
  if key.length = 0 ∨ key.length > maxKeySize then none
  else
    (replayContextInit timestampWindow mutexOk).map fun replayCtx =>
      { masterKey := key
        replayCtx := replayCtx
        strictOrdering := true
        enableTimestampCheck := true
        rateLimitPerSec := 0
        rateCount := 0
        rateWindowStart := 0 }

/-- `verify_init_from_file` on the contents of the key file, `none` when it
cannot be opened. At most 32 bytes are used. -/
def verifyInitFromFile (contents : Option (List UInt8)) (mutexOk : Bool) :
    Option VerifyContext :=
  match contents with
  | none => none
  | some bytes =>
      if (bytes.take 32).length = 0 then none
      else verifyInit (bytes.take 32) mutexOk

def verifyCheckRateLimit (ctx : VerifyContext) (now : UInt64) :
    VerifyContext × Bool :=
  if ctx.rateLimitPerSec = 0 then (ctx, true)
  else
    let ctx :=
      if now ≠ ctx.rateWindowStart then
        { ctx with rateWindowStart := now, rateCount := 0 }
      else ctx
    if ctx.rateCount ≥ ctx.rateLimitPerSec then (ctx, false)
    else ({ ctx with rateCount := ctx.rateCount + 1 }, true)

/-- The bytes that are signed: the fields of the authenticator in front of the
data. -/
def signData (timestamp : UInt64) (nonce sequence : UInt32) (data : List UInt8) :
    List UInt8 :=
  leBytes 8 timestamp.toNat ++ leBytes 4 nonce.toNat ++
    leBytes 4 sequence.toNat ++ data

def hmacSign (key data : List UInt8) : List UInt8 := smHmacSha256 key data

/-- `verify_hmac_sha256`. -/
def verifyHmacSha256 (key data : List UInt8) : List UInt8 := hmacSign key data

def hmacVerify (key data expectedHmac : List UInt8) : ℤ :=
  smHmacVerify key data expectedHmac

/-- What a signature meets: the clock in the rate limit and in the timestamp, the
nonce, and whether the buffer can be allocated. -/
structure SignEnv where
  rateNow : UInt64
  now : UInt64
  nonce : UInt32
  mallocOk : Bool

/-- The authenticator that a context gives to a message. The sequence number is
the one after the last message that the context has checked. -/
def authFor (ctx : VerifyContext) (data : List UInt8) (env : SignEnv) :
    MessageAuth :=
  let sequence := ctx.replayCtx.lastSequence + 1
  { hmac := hmacSign ctx.masterKey (signData env.now env.nonce sequence data)
    hmac_length := length_smHmacSha256 _ _
    timestamp := env.now
    nonce := env.nonce
    sequence := sequence }

/-- `verify_sign_message`; `none` when it fails. -/
def verifySignMessage (ctx : VerifyContext) (data : List UInt8) (env : SignEnv) :
    VerifyContext × Option MessageAuth :=
  if data = [] then (ctx, none)
  else
    let (ctx, admitted) := verifyCheckRateLimit ctx env.rateNow
    if !admitted then (ctx, none)
    else if !env.mallocOk then (ctx, none)
    else (ctx, some (authFor ctx data env))

/-- The bytes over which a message is checked. -/
def MessageAuth.signData (auth : MessageAuth) (data : List UInt8) : List UInt8 :=
  Verify.signData auth.timestamp auth.nonce auth.sequence data

/-- `verify_check_message` at the clock reading `now`. -/
def verifyCheckMessage (ctx : VerifyContext) (data : List UInt8)
    (auth : MessageAuth) (now : UInt64) (mallocOk : Bool) : VerifyContext × ℤ :=
  if data = [] then (ctx, -1)
  else if (ctx.enableTimestampCheck || ctx.strictOrdering) &&
      decide (replayCheck ctx.replayCtx auth.timestamp auth.sequence now ≠ 1) then
    (ctx, 0)
  else if !mallocOk then (ctx, -1)
  else
    let result := hmacVerify ctx.masterKey (auth.signData data) auth.hmac
    let ctx :=
      if result = 1 then
        { ctx with replayCtx :=
            replayUpdate ctx.replayCtx auth.timestamp auth.sequence }
      else ctx
    (ctx, result)

/-- The check stops at the replay context, in front of the HMAC. -/
def RefusedByReplay (ctx : VerifyContext) (auth : MessageAuth) (now : UInt64) :
    Prop :=
  (ctx.enableTimestampCheck || ctx.strictOrdering) = true ∧
    replayCheck ctx.replayCtx auth.timestamp auth.sequence now ≠ 1

/-- The check reaches the HMAC comparison, and the digest is the right one. -/
def MatchesHmac (ctx : VerifyContext) (data : List UInt8) (auth : MessageAuth)
    (now : UInt64) (mallocOk : Bool) : Prop :=
  data ≠ [] ∧ ¬RefusedByReplay ctx auth now ∧ mallocOk = true ∧
    smHmacVerify ctx.masterKey (auth.signData data) auth.hmac = 0

theorem hmacVerify_ne_one (key data expectedHmac : List UInt8) :
    hmacVerify key data expectedHmac ≠ 1 :=
  smHmacVerify_ne_one key data expectedHmac

/-- What a check can do. In every case the context stays as it is: the only
update waits for a code that `hmac_verify` never gives. -/
theorem verifyCheckMessage_cases (ctx : VerifyContext) (data : List UInt8)
    (auth : MessageAuth) (now : UInt64) (mallocOk : Bool) :
    (data = [] ∧ verifyCheckMessage ctx data auth now mallocOk = (ctx, -1)) ∨
      data ≠ [] ∧
        ((RefusedByReplay ctx auth now ∧
            verifyCheckMessage ctx data auth now mallocOk = (ctx, 0)) ∨
          ¬RefusedByReplay ctx auth now ∧
            ((mallocOk = false ∧
                verifyCheckMessage ctx data auth now mallocOk = (ctx, -1)) ∨
              mallocOk = true ∧ verifyCheckMessage ctx data auth now mallocOk =
                (ctx, smHmacVerify ctx.masterKey (auth.signData data) auth.hmac))) := by
  unfold verifyCheckMessage
  by_cases hdata : data = []
  · exact .inl ⟨hdata, by rw [if_pos hdata]⟩
  right
  refine ⟨hdata, ?_⟩
  rw [if_neg hdata]
  by_cases hreplay : RefusedByReplay ctx auth now
  · left
    refine ⟨hreplay, ?_⟩
    rw [if_pos (by simpa [RefusedByReplay] using hreplay)]
  · right
    refine ⟨hreplay, ?_⟩
    rw [if_neg (by simpa [RefusedByReplay] using hreplay)]
    cases mallocOk with
    | false => exact .inl ⟨rfl, rfl⟩
    | true =>
        right
        refine ⟨rfl, ?_⟩
        dsimp only
        rw [if_neg (hmacVerify_ne_one _ _ _)]
        rfl

@[simp] theorem verifyCheckMessage_fst (ctx : VerifyContext) (data : List UInt8)
    (auth : MessageAuth) (now : UInt64) (mallocOk : Bool) :
    (verifyCheckMessage ctx data auth now mallocOk).1 = ctx := by
  rcases verifyCheckMessage_cases ctx data auth now mallocOk with
    ⟨-, h⟩ | ⟨-, ⟨-, h⟩ | ⟨-, ⟨-, h⟩ | ⟨-, h⟩⟩⟩ <;> rw [h]

theorem verifyCheckMessage_ne_one (ctx : VerifyContext) (data : List UInt8)
    (auth : MessageAuth) (now : UInt64) (mallocOk : Bool) :
    (verifyCheckMessage ctx data auth now mallocOk).2 ≠ 1 := by
  rcases verifyCheckMessage_cases ctx data auth now mallocOk with
    ⟨-, h⟩ | ⟨-, ⟨-, h⟩ | ⟨-, ⟨-, h⟩ | ⟨-, h⟩⟩⟩ <;> rw [h]
  · simp
  · simp
  · simp
  · dsimp only
    exact smHmacVerify_ne_one _ _ _

theorem verifySignMessage_unlimited {ctx : VerifyContext} {data : List UInt8}
    {env : SignEnv} (hlimit : ctx.rateLimitPerSec = 0) (hdata : data ≠ [])
    (hmalloc : env.mallocOk = true) :
    verifySignMessage ctx data env = (ctx, some (authFor ctx data env)) := by
  simp [verifySignMessage, verifyCheckRateLimit, hlimit, hdata, hmalloc]

theorem smHmacVerify_authFor (ctx : VerifyContext) (data : List UInt8)
    (env : SignEnv) :
    smHmacVerify ctx.masterKey ((authFor ctx data env).signData data)
      (authFor ctx data env).hmac = 0 :=
  smHmacVerify_self _ _

end Verify

end Shinigami
