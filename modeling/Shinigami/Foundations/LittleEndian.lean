import Mathlib.Data.List.Basic
import Mathlib.Tactic.Ring

/-!
# Little-endian integers

`leBytes w v` writes the `w` low bytes of `v`, least significant byte first, and
`leNat s` reads a byte string back. The two are inverse to each other up to the
width: `leNat_leBytes` reduces the value modulo `256 ^ w` and `leBytes_leNat`
recovers the byte string, which is what turns a comparison of decoded fields
into a comparison of bytes. `leInt` reads the same bytes in two's complement.
-/

namespace Shinigami

namespace LittleEndian

/-- The `w` low bytes of `v`, least significant byte first. -/
def leBytes : ℕ → ℕ → List UInt8
  | 0, _ => []
  | w + 1, v => UInt8.ofNat v :: leBytes w (v / 256)

def leNat : List UInt8 → ℕ
  | [] => 0
  | b :: s => b.toNat + 256 * leNat s

@[simp] theorem length_leBytes (w v : ℕ) : (leBytes w v).length = w := by
  induction w generalizing v with
  | zero => rfl
  | succ w ih => simp [leBytes, ih]

@[simp] theorem drop_leBytes_of_le {w k : ℕ} (v : ℕ) (h : w ≤ k) :
    (leBytes w v).drop k = [] := by
  rw [List.drop_eq_nil_of_le]
  simpa using h

theorem leNat_leBytes (w v : ℕ) : leNat (leBytes w v) = v % 256 ^ w := by
  induction w generalizing v with
  | zero => simp [leBytes, leNat, Nat.mod_one]
  | succ w ih =>
      rw [leBytes, leNat, ih, pow_succ', Nat.mod_mul]
      simp

theorem leNat_leBytes_of_lt {w v : ℕ} (h : v < 256 ^ w) :
    leNat (leBytes w v) = v := by
  rw [leNat_leBytes, Nat.mod_eq_of_lt h]

theorem leNat_lt (s : List UInt8) : leNat s < 256 ^ s.length := by
  induction s with
  | nil => simp [leNat]
  | cons b s ih =>
      have hb : b.toNat < 256 := b.toNat_lt
      rw [leNat, List.length_cons, pow_succ']
      omega

/-- Reading a byte string and writing the number back at the same width gives
the byte string. -/
theorem leBytes_leNat (s : List UInt8) : leBytes s.length (leNat s) = s := by
  induction s with
  | nil => rfl
  | cons b s ih =>
      have hb : b.toNat < 256 := b.toNat_lt
      have hdiv : (b.toNat + 256 * leNat s) / 256 = leNat s := by omega
      have hlow : UInt8.ofNat (b.toNat + 256 * leNat s) = b := by
        apply UInt8.toNat_inj.mp
        rw [UInt8.toNat_ofNat']
        omega
      rw [leNat, List.length_cons, leBytes, hdiv, ih, hlow]

theorem leBytes_leNat_of_length {w : ℕ} {s : List UInt8} (h : s.length = w) :
    leBytes w (leNat s) = s := by
  rw [← h, leBytes_leNat]

def leInt (s : List UInt8) : ℤ :=
  if 2 * leNat s < 256 ^ s.length then leNat s else leNat s - 256 ^ s.length

theorem leInt_leBytes {w v : ℕ} {x : ℤ} (hv : v = x % 256 ^ w)
    (hlow : -256 ^ w ≤ 2 * x) (hhigh : 2 * x < 256 ^ w) : leInt (leBytes w v) = x := by
  have hpos : (0 : ℤ) < 256 ^ w := Int.pow_pos (by decide)
  have hlt : v < 256 ^ w := by
    have hmod := Int.emod_lt_of_pos x hpos
    rw [← hv] at hmod
    exact_mod_cast hmod
  have hcast : ((256 ^ w : ℕ) : ℤ) = 256 ^ w := by norm_cast
  rw [leInt, length_leBytes, leNat_leBytes_of_lt hlt]
  rcases Int.lt_or_le x 0 with hneg | hnonneg
  · have hwrap : x % 256 ^ w = x + 256 ^ w := by
      rw [← Int.add_emod_right x, Int.emod_eq_of_lt (by omega) (by omega)]
    rw [hwrap] at hv
    rw [if_neg (by omega)]
    omega
  · rw [Int.emod_eq_of_lt hnonneg (by omega)] at hv
    rw [if_pos (by omega), hv]

theorem ofNat_leNat_leBytes_uint16 (x : UInt16) :
    UInt16.ofNat (leNat (leBytes 2 x.toNat)) = x := by
  have hx : x.toNat < 256 ^ 2 := x.toNat_lt
  rw [leNat_leBytes_of_lt hx, UInt16.ofNat_toNat]

theorem ofNat_leNat_leBytes_uint32 (x : UInt32) :
    UInt32.ofNat (leNat (leBytes 4 x.toNat)) = x := by
  have hx : x.toNat < 256 ^ 4 := x.toNat_lt
  rw [leNat_leBytes_of_lt hx, UInt32.ofNat_toNat]

theorem leBytes_ofNat_leNat_uint16 {s : List UInt8} (h : s.length = 2) :
    leBytes 2 (UInt16.ofNat (leNat s)).toNat = s := by
  have hlt : leNat s < 2 ^ 16 := by
    have := leNat_lt s
    rwa [h] at this
  rw [UInt16.toNat_ofNat', Nat.mod_eq_of_lt hlt, leBytes_leNat_of_length h]

theorem leBytes_ofNat_leNat_uint32 {s : List UInt8} (h : s.length = 4) :
    leBytes 4 (UInt32.ofNat (leNat s)).toNat = s := by
  have hlt : leNat s < 2 ^ 32 := by
    have := leNat_lt s
    rwa [h] at this
  rw [UInt32.toNat_ofNat', Nat.mod_eq_of_lt hlt, leBytes_leNat_of_length h]

end LittleEndian

end Shinigami
