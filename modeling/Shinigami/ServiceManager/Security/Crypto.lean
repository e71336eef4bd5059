import Mathlib.Data.List.Basic
import Mathlib.Tactic.Ring

/-!
# Message authentication

The SHA-256 and HMAC-SHA256 of `sm_crypto.c`, byte for byte. A hash context
carries the eight state words, the bytes waiting in the block buffer and the bit
count; `buf_used` is the length of the buffered bytes. The pointers are never
NULL at the call sites, so the NULL checks are not modelled.

`smHmacVerify` answers `0` on a match and `-1` otherwise, and
`smHmacVerify_eq_zero_iff` says that a match is equality with the digest: the
constant-time comparison does not lose anything.
-/

namespace Shinigami

namespace ServiceManager

def smHmacSize : ℕ := 32

theorem length_zeroHmac :
    (List.replicate smHmacSize (0 : UInt8)).length = smHmacSize :=
  List.length_replicate

def smHmacKeySize : ℕ := 32

/-- The eight words of a SHA-256 state, also used for the working variables
`a`, …, `h` of the compression loop. -/
structure Sha256State where
  a : UInt32
  b : UInt32
  c : UInt32
  d : UInt32
  e : UInt32
  f : UInt32
  g : UInt32
  h : UInt32
deriving DecidableEq, Repr

/-- `sha256_ctx_t`; the used part of the block buffer is `buf`. -/
structure Sha256Ctx where
  state : Sha256State
  buf : List UInt8
  bitCount : UInt64
deriving DecidableEq, Repr

def sha256H0 : Sha256State :=
  ⟨0x6a09e667, 0xbb67ae85, 0x3c6ef372, 0xa54ff53a,
    0x510e527f, 0x9b05688c, 0x1f83d9ab, 0x5be0cd19⟩

def sha256K : List UInt32 :=
  [0x428a2f98, 0x71374491, 0xb5c0fbcf, 0xe9b5dba5, 0x3956c25b, 0x59f111f1,
    0x923f82a4, 0xab1c5ed5, 0xd807aa98, 0x12835b01, 0x243185be, 0x550c7dc3,
    0x72be5d74, 0x80deb1fe, 0x9bdc06a7, 0xc19bf174, 0xe49b69c1, 0xefbe4786,
    0x0fc19dc6, 0x240ca1cc, 0x2de92c6f, 0x4a7484aa, 0x5cb0a9dc, 0x76f988da,
    0x983e5152, 0xa831c66d, 0xb00327c8, 0xbf597fc7, 0xc6e00bf3, 0xd5a79147,
    0x06ca6351, 0x14292967, 0x27b70a85, 0x2e1b2138, 0x4d2c6dfc, 0x53380d13,
    0x650a7354, 0x766a0abb, 0x81c2c92e, 0x92722c85, 0xa2bfe8a1, 0xa81a664b,
    0xc24b8b70, 0xc76c51a3, 0xd192e819, 0xd6990624, 0xf40e3585, 0x106aa070,
    0x19a4c116, 0x1e376c08, 0x2748774c, 0x34b0bcb5, 0x391c0cb3, 0x4ed8aa4a,
    0x5b9cca4f, 0x682e6ff3, 0x748f82ee, 0x78a5636f, 0x84c87814, 0x8cc70208,
    0x90befffa, 0xa4506ceb, 0xbef9a3f7, 0xc67178f2]

def rotr32 (x n : UInt32) : UInt32 := (x >>> n) ||| (x <<< (32 - n))

def ch (x y z : UInt32) : UInt32 := (x &&& y) ^^^ (~~~x &&& z)

def maj (x y z : UInt32) : UInt32 := (x &&& y) ^^^ (x &&& z) ^^^ (y &&& z)

def sigma0 (x : UInt32) : UInt32 := rotr32 x 2 ^^^ rotr32 x 13 ^^^ rotr32 x 22

def sigma1 (x : UInt32) : UInt32 := rotr32 x 6 ^^^ rotr32 x 11 ^^^ rotr32 x 25

def gamma0 (x : UInt32) : UInt32 := rotr32 x 7 ^^^ rotr32 x 18 ^^^ (x >>> 3)

def gamma1 (x : UInt32) : UInt32 := rotr32 x 17 ^^^ rotr32 x 19 ^^^ (x >>> 10)

/-- The four bytes of a big-endian word, `write_be32`. -/
def writeBe32 (val : UInt32) : List UInt8 :=
  [(val >>> 24).toUInt8, (val >>> 16).toUInt8, (val >>> 8).toUInt8, val.toUInt8]

/-- The eight bytes of a big-endian double word, `write_be64`. -/
def writeBe64 (val : UInt64) : List UInt8 :=
  [(val >>> 56).toUInt8, (val >>> 48).toUInt8, (val >>> 40).toUInt8,
    (val >>> 32).toUInt8, (val >>> 24).toUInt8, (val >>> 16).toUInt8,
    (val >>> 8).toUInt8, val.toUInt8]

/-- The words `w[0]`, …, `w[15]` of a block. -/
def blockWords : List UInt8 → List UInt32
  | b0 :: b1 :: b2 :: b3 :: rest =>
      ((b0.toUInt32 <<< 24) ||| (b1.toUInt32 <<< 16) |||
        (b2.toUInt32 <<< 8) ||| b3.toUInt32) :: blockWords rest
  | _ => []

/-- The message schedule after `n` iterations of the loop that starts at
`i = 16`. -/
def messageSchedule (w : List UInt32) : ℕ → List UInt32
  | 0 => w
  | n + 1 =>
      let w := messageSchedule w n
      let i := 16 + n
      w ++ [gamma1 (w.getD (i - 2) 0) + w.getD (i - 7) 0 +
        gamma0 (w.getD (i - 15) 0) + w.getD (i - 16) 0]

/-- One iteration of the compression loop, with round constant and schedule
word `kw`. -/
def sha256Round (s : Sha256State) (kw : UInt32 × UInt32) : Sha256State :=
  let t1 := s.h + sigma1 s.e + ch s.e s.f s.g + kw.1 + kw.2
  let t2 := sigma0 s.a + maj s.a s.b s.c
  ⟨t1 + t2, s.a, s.b, s.c, s.d + t1, s.e, s.f, s.g⟩

/-- `sha256_compress` on one 64-byte block. -/
def sha256Compress (st : Sha256State) (block : List UInt8) : Sha256State :=
  let w := messageSchedule (blockWords block) 48
  let r := (sha256K.zip w).foldl sha256Round st
  ⟨st.a + r.a, st.b + r.b, st.c + r.c, st.d + r.d,
    st.e + r.e, st.f + r.f, st.g + r.g, st.h + r.h⟩

def sha256Init : Sha256Ctx := ⟨sha256H0, [], 0⟩

/-- One iteration of the loop of `sha256_update`. -/
def sha256Absorb (ctx : Sha256Ctx) (byte : UInt8) : Sha256Ctx :=
  let buf := ctx.buf ++ [byte]
  if buf.length = 64 then
    { ctx with state := sha256Compress ctx.state buf, buf := [] }
  else
    { ctx with buf := buf }

def sha256Update (ctx : Sha256Ctx) (data : List UInt8) : Sha256Ctx :=
  data.foldl sha256Absorb
    { ctx with bitCount := ctx.bitCount + UInt64.ofNat data.length * 8 }

/-- `sha256_final`: the padding block, a second one when the length does not
fit, and the big-endian state. -/
def sha256Final (ctx : Sha256Ctx) : List UInt8 :=
  let padStart := ctx.buf.length
  let pad := ctx.buf ++ 0x80 :: List.replicate (63 - padStart) 0
  let state := if padStart ≥ 56 then sha256Compress ctx.state pad else ctx.state
  let pad := if padStart ≥ 56 then List.replicate 56 0 else pad.take 56
  let s := sha256Compress state (pad ++ writeBe64 ctx.bitCount)
  writeBe32 s.a ++ writeBe32 s.b ++ writeBe32 s.c ++ writeBe32 s.d ++
    writeBe32 s.e ++ writeBe32 s.f ++ writeBe32 s.g ++ writeBe32 s.h

def sha256 (data : List UInt8) : List UInt8 :=
  sha256Final (sha256Update sha256Init data)

/-- The key padded to the block size, `k_pad`. -/
def hmacKeyPad (key : List UInt8) : List UInt8 :=
  let k := if key.length > 64 then sha256 key else key
  k ++ List.replicate (64 - k.length) 0

/-- `sm_hmac_sha256`: the inner hash is taken over `k_pad ^ ipad`, then the pad
is turned into `k_pad ^ opad` in place. -/
def smHmacSha256 (key data : List UInt8) : List UInt8 :=
  let kPad := (hmacKeyPad key).map (· ^^^ 0x36)
  let inner := sha256Final (sha256Update (sha256Update sha256Init kPad) data)
  let kPad := kPad.map (· ^^^ (0x36 ^^^ 0x5c))
  sha256Final (sha256Update (sha256Update sha256Init kPad) inner)

def consttimeMemcmp (a b : List UInt8) : UInt8 :=
  (a.zip b).foldl (fun diff p => diff ||| (p.1 ^^^ p.2)) 0

/-- `sm_hmac_verify`: `0` if the digest matches, `-1` otherwise. -/
def smHmacVerify (key data expected : List UInt8) : ℤ :=
  if consttimeMemcmp (smHmacSha256 key data) expected = 0 then 0 else -1

@[simp] theorem length_sha256Final (ctx : Sha256Ctx) :
    (sha256Final ctx).length = smHmacSize := by
  simp [sha256Final, writeBe32, smHmacSize]

@[simp] theorem length_smHmacSha256 (key data : List UInt8) :
    (smHmacSha256 key data).length = smHmacSize := by
  simp [smHmacSha256]

/-- The accumulated difference is zero exactly when it was zero before and the
compared bytes agree. -/
theorem foldl_diff_eq_zero_iff (ps : List (UInt8 × UInt8)) (diff : UInt8) :
    ps.foldl (fun diff p => diff ||| (p.1 ^^^ p.2)) diff = 0 ↔
      diff = 0 ∧ ∀ p ∈ ps, p.1 = p.2 := by
  induction ps generalizing diff with
  | nil => simp
  | cons p ps ih =>
      rw [List.foldl_cons, ih, UInt8.or_eq_zero_iff, UInt8.xor_eq_zero_iff]
      simp [and_assoc]

theorem consttimeMemcmp_eq_zero_iff {a b : List UInt8}
    (h : a.length = b.length) : consttimeMemcmp a b = 0 ↔ a = b := by
  rw [consttimeMemcmp, foldl_diff_eq_zero_iff]
  constructor
  · rintro ⟨-, hall⟩
    apply List.ext_getElem h
    intro i hi hi'
    have hmem : (a[i], b[i]) ∈ a.zip b := by
      rw [List.mem_iff_getElem]
      exact ⟨i, by simp [h ▸ hi, hi], by simp⟩
    exact hall _ hmem
  · rintro rfl
    refine ⟨rfl, ?_⟩
    intro p hp
    obtain ⟨i, hi, rfl⟩ := List.mem_iff_getElem.mp hp
    simp

theorem smHmacVerify_eq_zero_iff {key data expected : List UInt8}
    (h : expected.length = smHmacSize) :
    smHmacVerify key data expected = 0 ↔ expected = smHmacSha256 key data := by
  have hlen : (smHmacSha256 key data).length = expected.length := by simp [h]
  simp [smHmacVerify, consttimeMemcmp_eq_zero_iff hlen, eq_comm]

@[simp] theorem smHmacVerify_self (key data : List UInt8) :
    smHmacVerify key data (smHmacSha256 key data) = 0 :=
  (smHmacVerify_eq_zero_iff (length_smHmacSha256 key data)).mpr rfl

theorem smHmacVerify_ne_one (key data expected : List UInt8) :
    smHmacVerify key data expected ≠ 1 := by
  unfold smHmacVerify
  split <;> decide

end ServiceManager

end Shinigami
