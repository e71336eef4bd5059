import Shinigami.Foundations.CString
import Shinigami.Security.Verify.Basic

/-!
# Service tokens

The tokens of `verify_token.c` behind `verify_issue_token` and
`verify_check_token`. Clock readings are arguments, and a reading of zero also
stands for a clock that cannot be read.

A check passes on the code of `sm_hmac_verify`, so the tag of a token that has
not expired is right exactly when the check answers zero
(`verifyCheckToken_eq_zero_iff`), and no token is ever answered with one. An
issued token is therefore answered as documented from its expiry on, and not
before (`tokenRoundTrips_iff`).
-/

namespace Shinigami

namespace Verify

open CString LittleEndian ServiceManager

/-- The size of the name field of a token. -/
def tokenNameSize : ℕ := 64

/-- `service_token_t`; the name field is read up to its terminator. -/
structure ServiceToken where
  serviceName : List UInt8
  token : List UInt8
  token_length : token.length = smHmacSize
  issuedAt : Int64
  expiresAt : Int64
  permissions : UInt32

/-- The bytes that are signed: the name without its terminator, both times and
the permissions. -/
def tokenData (serviceName : List UInt8) (issuedAt expiresAt : Int64)
    (permissions : UInt32) : List UInt8 :=
  cstr serviceName ++ leBytes 8 issuedAt.toUInt64.toNat ++
    leBytes 8 expiresAt.toUInt64.toNat ++ leBytes 4 permissions.toNat

/-- `token_issue` at the clock reading `now`; `none` when it fails. -/
def tokenIssue (ctx : VerifyContext) (serviceName : List UInt8)
    (permissions validitySeconds : UInt32) (now : Int64) (mallocOk : Bool) :
    Option ServiceToken :=
  if (cstr serviceName).length = 0 ∨ tokenNameSize ≤ (cstr serviceName).length then none
  else
    let name := strncpyField tokenNameSize serviceName
    let expiresAt := now + Int64.ofNat validitySeconds.toNat
    if !mallocOk then none
    else
      some
        { serviceName := name
          token := hmacSign ctx.masterKey (tokenData name now expiresAt permissions)
          token_length := length_smHmacSha256 _ _
          issuedAt := now
          expiresAt := expiresAt
          permissions := permissions }

/-- `token_verify` at the clock reading `now`. -/
def tokenVerify (ctx : VerifyContext) (token : ServiceToken) (now : Int64)
    (mallocOk : Bool) : ℤ :=
  if now = 0 ∨ token.expiresAt ≤ now then 0
  else if !mallocOk then -1
  else
    hmacVerify ctx.masterKey
      (tokenData token.serviceName token.issuedAt token.expiresAt token.permissions)
      token.token

def verifyIssueToken (ctx : VerifyContext) (serviceName : List UInt8)
    (permissions validitySeconds : UInt32) (now : Int64) (mallocOk : Bool) :
    Option ServiceToken :=
  tokenIssue ctx serviceName permissions validitySeconds now mallocOk

def verifyCheckToken (ctx : VerifyContext) (token : ServiceToken) (now : Int64)
    (mallocOk : Bool) : ℤ :=
  tokenVerify ctx token now mallocOk

def ServiceToken.tag (token : ServiceToken) (ctx : VerifyContext) : List UInt8 :=
  smHmacSha256 ctx.masterKey
    (tokenData token.serviceName token.issuedAt token.expiresAt token.permissions)

/-- A token is issued for every name that fits, and its tag is the right one. -/
theorem verifyIssueToken_spec (ctx : VerifyContext) {serviceName : List UInt8}
    (hpos : 0 < (cstr serviceName).length)
    (hlt : (cstr serviceName).length < tokenNameSize)
    (permissions validitySeconds : UInt32) (now : Int64) :
    ∃ token, verifyIssueToken ctx serviceName permissions validitySeconds now true =
        some token ∧
      token.token = token.tag ctx ∧
      token.expiresAt = now + Int64.ofNat validitySeconds.toNat := by
  have hfits : ¬((cstr serviceName).length = 0 ∨
      tokenNameSize ≤ (cstr serviceName).length) := by omega
  unfold verifyIssueToken tokenIssue
  rw [if_neg hfits]
  exact ⟨_, rfl, rfl, rfl⟩

theorem verifyCheckToken_of_expired (ctx : VerifyContext) {token : ServiceToken}
    {now : Int64} (h : token.expiresAt ≤ now) (mallocOk : Bool) :
    verifyCheckToken ctx token now mallocOk = 0 :=
  if_pos (.inr h)

theorem verifyCheckToken_ne_one (ctx : VerifyContext) (token : ServiceToken)
    (now : Int64) (mallocOk : Bool) : verifyCheckToken ctx token now mallocOk ≠ 1 := by
  unfold verifyCheckToken tokenVerify
  split_ifs with hexpired hmalloc
  · decide
  · decide
  · exact hmacVerify_ne_one _ _ _

/-- Before its expiry a token is answered with zero exactly when its tag is
right. -/
theorem verifyCheckToken_eq_zero_iff (ctx : VerifyContext) {token : ServiceToken}
    {now : Int64} (hclock : now ≠ 0) (h : ¬token.expiresAt ≤ now) :
    verifyCheckToken ctx token now true = 0 ↔ token.token = token.tag ctx := by
  have hlive : ¬(now = 0 ∨ token.expiresAt ≤ now) := not_or.mpr ⟨hclock, h⟩
  unfold verifyCheckToken tokenVerify
  rw [if_neg hlive]
  exact smHmacVerify_eq_zero_iff token.token_length

/-- The token that is issued at `issued` is accepted at `now` as long as it has
not expired. -/
def TokenRoundTrips (ctx : VerifyContext) (serviceName : List UInt8)
    (permissions validitySeconds : UInt32) (issued now : Int64) (mallocOk : Bool) :
    Prop :=
  ∀ token,
    verifyIssueToken ctx serviceName permissions validitySeconds issued true = some token →
      verifyCheckToken ctx token now mallocOk = if now < token.expiresAt then 1 else 0

/-- A token with a wrong tag is never accepted. -/
def RefusesForged (ctx : VerifyContext) : Prop :=
  ∀ token now mallocOk, token.token ≠ token.tag ctx →
    verifyCheckToken ctx token now mallocOk ≠ 1

theorem refusesForged (ctx : VerifyContext) : RefusesForged ctx :=
  fun token now mallocOk _ => verifyCheckToken_ne_one ctx token now mallocOk

/-- Tokens are answered as documented from their expiry on, and not before. -/
theorem tokenRoundTrips_iff (ctx : VerifyContext) {serviceName : List UInt8}
    (hpos : 0 < (cstr serviceName).length)
    (hlt : (cstr serviceName).length < tokenNameSize)
    (permissions validitySeconds : UInt32) (issued now : Int64) (mallocOk : Bool) :
    (TokenRoundTrips ctx serviceName permissions validitySeconds issued now mallocOk ∧
        RefusesForged ctx) ↔
      issued + Int64.ofNat validitySeconds.toNat ≤ now := by
  obtain ⟨token, hissue, -, hexpires⟩ :=
    verifyIssueToken_spec ctx hpos hlt permissions validitySeconds issued
  rw [← hexpires]
  constructor
  · rintro ⟨htrips, -⟩
    have hcode := htrips token hissue
    by_contra hlive
    rw [if_pos (Int64.not_le.mp hlive)] at hcode
    exact verifyCheckToken_ne_one ctx token now mallocOk hcode
  · intro hexpired
    refine ⟨?_, refusesForged ctx⟩
    intro token' hissue'
    obtain rfl : token = token' := Option.some.inj (hissue.symm.trans hissue')
    rw [verifyCheckToken_of_expired ctx hexpired, if_neg (Int64.not_lt.mpr hexpired)]

/-- The context of a one-byte key. -/
def tokenContext : VerifyContext where
  masterKey := [7]
  replayCtx := ⟨0, 0, timestampWindow, true, true⟩
  strictOrdering := true
  enableTimestampCheck := true
  rateLimitPerSec := 0
  rateCount := 0
  rateWindowStart := 0

/-- A token of one minute that is checked after two. -/
theorem tokenRoundTrips_iff_expired :
    0 < (cstr (ascii ['a'])).length ∧ (cstr (ascii ['a'])).length < tokenNameSize ∧
      ((TokenRoundTrips tokenContext (ascii ['a']) 1 60 100 220 true ∧
          RefusesForged tokenContext) ↔
        (100 : Int64) + Int64.ofNat (60 : UInt32).toNat ≤ 220) :=
  ⟨by decide, by decide,
    tokenRoundTrips_iff tokenContext (by decide) (by decide) 1 60 100 220 true⟩

/-- A token of one minute that is checked after a second is answered with
zero. -/
theorem issued_token_not_accepted :
    verifyInit [7] true = some tokenContext ∧
      ∃ token, verifyIssueToken tokenContext (ascii ['a']) 1 60 100 true = some token ∧
        101 < token.expiresAt ∧ verifyCheckToken tokenContext token 101 true = 0 := by
  obtain ⟨token, hissue, htag, hexpires⟩ :=
    verifyIssueToken_spec tokenContext
      (show 0 < (cstr (ascii ['a'])).length by decide) (by decide) 1 60 100
  have hlive : 101 < token.expiresAt := by
    rw [hexpires]
    decide
  refine ⟨rfl, token, hissue, hlive, ?_⟩
  exact (verifyCheckToken_eq_zero_iff tokenContext (by decide)
    (Int64.not_le.mpr hlive)).mpr htag

end Verify

end Shinigami
