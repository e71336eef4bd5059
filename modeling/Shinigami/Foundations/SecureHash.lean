import Mathlib.Data.Nat.NthRoot.Defs
import Mathlib.Data.Nat.Prime.Defs
import Mathlib.Tactic.Ring
import Shinigami.Foundations.BlockFold

/-!
# SHA-256 and HMAC

The secure hash standard (FIPS 180-4) for SHA-256, on messages of any number of bits:
the padding, the blocks of sixteen 32-bit words, the message schedule, the rounds, and
the constants as the roots of the first primes. `Sha256.digest` is the hash of a byte
string, and `hmac` is the keyed hash of RFC 2104 over any hash of byte strings.
-/

namespace Shinigami

/-- The `w` lowest binary digits of `n`, the highest of them first. -/
def natBits : ℕ → ℕ → List Bool
  | 0, _ => []
  | w + 1, n => n.testBit w :: natBits w n

def bitsNat (bits : List Bool) : ℕ := bits.foldl (fun n b => 2 * n + b.toNat) 0

def byteBits (bytes : List UInt8) : List Bool := bytes.flatMap fun b => natBits 8 b.toNat

section Bits

@[simp] theorem length_natBits (w n : ℕ) : (natBits w n).length = w := by
  induction w with
  | zero => rfl
  | succ w ih => rw [natBits, List.length_cons, ih]

theorem natBits_add (v w n : ℕ) : natBits (v + w) n = natBits v (n >>> w) ++ natBits w n := by
  induction v with
  | zero => rw [Nat.zero_add, natBits, List.nil_append]
  | succ v ih =>
      rw [Nat.add_right_comm, natBits, ih, natBits, Nat.testBit_shiftRight, Nat.add_comm w v,
        List.cons_append]

theorem natBits_mod {v w : ℕ} (hw : w ≤ v) (n : ℕ) : natBits w (n % 2 ^ v) = natBits w n := by
  induction w with
  | zero => rfl
  | succ w ih =>
      rw [natBits, natBits, ih (by omega), Nat.testBit_mod_two_pow]
      simp [show w < v by omega]

theorem foldl_bits (bits : List Bool) (n : ℕ) :
    bits.foldl (fun n b => 2 * n + b.toNat) n = n * 2 ^ bits.length + bitsNat bits := by
  induction bits generalizing n with
  | nil => simp [bitsNat]
  | cons b bits ih =>
      rw [bitsNat, List.foldl_cons, List.foldl_cons, ih, ih (2 * 0 + b.toNat),
        List.length_cons]
      ring

theorem bitsNat_append (bits bits' : List Bool) :
    bitsNat (bits ++ bits') = bitsNat bits * 2 ^ bits'.length + bitsNat bits' := by
  rw [bitsNat, List.foldl_append, foldl_bits]
  rfl

theorem bitsNat_natBits (w n : ℕ) : bitsNat (natBits w n) = n % 2 ^ w := by
  induction w with
  | zero => simp [natBits, bitsNat, Nat.mod_one]
  | succ w ih =>
      rw [natBits, ← List.singleton_append, bitsNat_append, ih, length_natBits,
        Nat.mod_pow_succ, ← Nat.toNat_testBit]
      simp only [bitsNat, List.foldl_cons, List.foldl_nil]
      ring

@[simp] theorem length_byteBits (bytes : List UInt8) :
    (byteBits bytes).length = 8 * bytes.length := by
  induction bytes with
  | nil => rfl
  | cons b bytes ih =>
      rw [byteBits, List.flatMap_cons, List.length_append, length_natBits, List.length_cons,
        Nat.mul_succ, Nat.add_comm]
      exact congrArg (· + 8) ih

theorem byteBits_append (bytes bytes' : List UInt8) :
    byteBits (bytes ++ bytes') = byteBits bytes ++ byteBits bytes' :=
  List.flatMap_append

theorem byteBits_cons (b : UInt8) (bytes : List UInt8) :
    byteBits (b :: bytes) = natBits 8 b.toNat ++ byteBits bytes := rfl

theorem byteBits_drop (n : ℕ) (bytes : List UInt8) :
    byteBits (bytes.drop n) = (byteBits bytes).drop (8 * n) := by
  induction n generalizing bytes with
  | zero => rfl
  | succ n ih =>
      cases bytes with
      | nil => simp [byteBits]
      | cons b bytes =>
          rw [List.drop_succ_cons, ih, byteBits_cons, Nat.mul_succ, Nat.add_comm,
            ← List.drop_drop, List.drop_left' (length_natBits 8 _)]

theorem byteBits_take (n : ℕ) (bytes : List UInt8) :
    byteBits (bytes.take n) = (byteBits bytes).take (8 * n) := by
  have hsplit : byteBits bytes = byteBits (bytes.take n) ++ byteBits (bytes.drop n) := by
    rw [← byteBits_append, List.take_append_drop]
  rw [byteBits_drop] at hsplit
  have htake := List.take_append_drop (8 * n) (byteBits bytes)
  exact (List.append_cancel_right (htake.trans hsplit)).symm

theorem byteBits_replicate_zero (n : ℕ) :
    byteBits (List.replicate n 0) = List.replicate (8 * n) false := by
  induction n with
  | zero => rfl
  | succ n ih =>
      rw [List.replicate_succ, byteBits_cons, ih, Nat.mul_succ, Nat.add_comm,
        ← List.replicate_append_replicate]
      rfl

end Bits

namespace Sha256

abbrev Word := BitVec 32

def ch (x y z : Word) : Word := (x &&& y) ^^^ (~~~x &&& z)

def maj (x y z : Word) : Word := (x &&& y) ^^^ (x &&& z) ^^^ (y &&& z)

/-- The functions `Σ₀` and `Σ₁` of the rounds. -/
def bigSigma0 (x : Word) : Word :=
  x.rotateRight 2 ^^^ x.rotateRight 13 ^^^ x.rotateRight 22

def bigSigma1 (x : Word) : Word :=
  x.rotateRight 6 ^^^ x.rotateRight 11 ^^^ x.rotateRight 25

/-- The functions `σ₀` and `σ₁` of the message schedule. -/
def smallSigma0 (x : Word) : Word :=
  x.rotateRight 7 ^^^ x.rotateRight 18 ^^^ (x >>> 3)

def smallSigma1 (x : Word) : Word :=
  x.rotateRight 17 ^^^ x.rotateRight 19 ^^^ (x >>> 10)

/-- The primes below `n`. -/
def primesBelow (n : ℕ) : List ℕ :=
  (List.range n).filter fun p =>
    decide (2 ≤ p) && (List.range p).all fun d => decide (d < 2) || p % d != 0

/-- The first 32 bits of the fractional part of the `k`-th root of `p`. -/
def rootFraction (k p : ℕ) : Word := BitVec.ofNat 32 (Nat.nthRoot k (p * 2 ^ (32 * k)))

/-- The constants of the rounds: the cube roots of the first sixty-four primes. -/
def roundConstants : List Word := (primesBelow 312).map (rootFraction 3)

structure HashValue where
  a : Word
  b : Word
  c : Word
  d : Word
  e : Word
  f : Word
  g : Word
  h : Word
deriving DecidableEq

def initialHash : HashValue where
  a := rootFraction 2 2
  b := rootFraction 2 3
  c := rootFraction 2 5
  d := rootFraction 2 7
  e := rootFraction 2 11
  f := rootFraction 2 13
  g := rootFraction 2 17
  h := rootFraction 2 19

/-- The number of zero bits of the padding of a message of `l` bits. -/
def paddingZeros (l : ℕ) : ℕ := (447 + 512 - l % 512) % 512

def pad (message : List Bool) : List Bool :=
  message ++ true :: List.replicate (paddingZeros message.length) false ++
    natBits 64 message.length

/-- The first `n` words of a bit string. -/
def parseWords : ℕ → List Bool → List Word
  | 0, _ => []
  | n + 1, bits => BitVec.ofNat 32 (bitsNat (bits.take 32)) :: parseWords n (bits.drop 32)

/-- The message schedule of the block `m`. -/
def schedule (m : List Word) (t : ℕ) : Word :=
  if t < 16 then m.getD t 0
  else smallSigma1 (schedule m (t - 2)) + schedule m (t - 7) +
    smallSigma0 (schedule m (t - 15)) + schedule m (t - 16)

/-- The working variables after a round with constant `k` and schedule word `w`. -/
def round (v : HashValue) (k w : Word) : HashValue :=
  let t1 := v.h + bigSigma1 v.e + ch v.e v.f v.g + k + w
  let t2 := bigSigma0 v.a + maj v.a v.b v.c
  ⟨t1 + t2, v.a, v.b, v.c, v.d + t1, v.e, v.f, v.g⟩

/-- The working variables after the first `n` rounds. -/
def rounds (m : List Word) (v : HashValue) : ℕ → HashValue
  | 0 => v
  | n + 1 => round (rounds m v n) (roundConstants.getD n 0) (schedule m n)

def compress (v : HashValue) (block : List Bool) : HashValue :=
  let r := rounds (parseWords 16 block) v 64
  ⟨v.a + r.a, v.b + r.b, v.c + r.c, v.d + r.d, v.e + r.e, v.f + r.f, v.g + r.g, v.h + r.h⟩

def hash (message : List Bool) : HashValue :=
  blockFold 512 compress ((pad message).length / 512) initialHash (pad message)

def wordBytes (w : Word) : List UInt8 :=
  [.ofBitVec (w.extractLsb' 24 8), .ofBitVec (w.extractLsb' 16 8),
    .ofBitVec (w.extractLsb' 8 8), .ofBitVec (w.extractLsb' 0 8)]

/-- The message digest of a byte string. -/
def digest (message : List UInt8) : List UInt8 :=
  let v := hash (byteBits message)
  wordBytes v.a ++ wordBytes v.b ++ wordBytes v.c ++ wordBytes v.d ++ wordBytes v.e ++
    wordBytes v.f ++ wordBytes v.g ++ wordBytes v.h

theorem mem_primesBelow {n p : ℕ} : p ∈ primesBelow n ↔ p < n ∧ p.Prime := by
  rw [primesBelow, List.mem_filter, List.mem_range, Nat.prime_def_lt]
  simp only [Bool.and_eq_true, decide_eq_true_eq, List.all_eq_true, List.mem_range,
    Bool.or_eq_true, bne_iff_ne, ne_eq, Nat.dvd_iff_mod_eq_zero]
  refine and_congr_right fun _ => and_congr_right fun htwo => ?_
  refine forall₂_congr fun d hd => ?_
  constructor
  · rintro (hsmall | hdvd) hzero
    · rcases Nat.lt_or_eq_of_le (Nat.lt_succ_iff.mp hsmall) with hlt | rfl
      · obtain rfl : d = 0 := by omega
        rw [Nat.mod_zero] at hzero
        omega
      · rfl
    · exact absurd hzero hdvd
  · intro hone
    by_cases hsmall : d < 2
    · exact .inl hsmall
    · exact .inr fun hzero => hsmall (by rw [hone hzero]; decide)

section Padding

theorem paddingZeros_spec (l : ℕ) :
    (l + 1 + paddingZeros l) % 512 = 448 ∧ paddingZeros l < 512 := by
  rw [paddingZeros]
  omega

theorem length_pad (message : List Bool) :
    (pad message).length = 512 * ((message.length + 64) / 512 + 1) := by
  rw [pad, List.length_append, List.length_append, List.length_cons, List.length_replicate,
    length_natBits, paddingZeros]
  omega

theorem pad_byteBits (bytes : List UInt8) :
    pad (byteBits bytes) =
      byteBits (bytes ++ 0x80 :: List.replicate ((55 + 64 - bytes.length % 64) % 64) 0) ++
        natBits 64 (8 * bytes.length) := by
  have hzeros : paddingZeros (8 * bytes.length) =
      7 + 8 * ((55 + 64 - bytes.length % 64) % 64) := by
    rw [paddingZeros]
    omega
  rw [pad, length_byteBits, hzeros, byteBits_append, byteBits_cons, byteBits_replicate_zero,
    ← List.replicate_append_replicate]
  rfl

end Padding

end Sha256

/-- The key of `hmac`, filled up to a block; a longer one is hashed first. -/
def hmacKey (hash : List UInt8 → List UInt8) (blockSize : ℕ) (key : List UInt8) :
    List UInt8 :=
  let k := if key.length > blockSize then hash key else key
  k ++ List.replicate (blockSize - k.length) 0

/-- The keyed hash of a text, with the paddings `0x36` and `0x5c`. -/
def hmac (hash : List UInt8 → List UInt8) (blockSize : ℕ) (key text : List UInt8) :
    List UInt8 :=
  let k := hmacKey hash blockSize key
  let ipad := List.replicate blockSize 0x36
  let opad := List.replicate blockSize 0x5c
  hash (List.zipWith (· ^^^ ·) k opad ++ hash (List.zipWith (· ^^^ ·) k ipad ++ text))

end Shinigami
