import Mathlib.Algebra.Order.Field.Rat
import Mathlib.Data.Int.Log
import Mathlib.Data.Rat.Floor
import Mathlib.Tactic.Linarith
import Mathlib.Tactic.NormNum
import Mathlib.Tactic.Positivity
import Shinigami.Foundations.CText

/-!
# Binary floating point, and its print

`toBinary64` takes a rational that is not negative to the nearest one with 53 significant
bits, as the conversion of an integer and the division do, and `fixed1` is `printf` of `%.1f`.
Only a coarse bound is derived, which is enough for the length of what is printed.
-/

namespace Shinigami

namespace Binary64

open CString

def roundEven (q : ℚ) : ℤ :=
  if q - ⌊q⌋ < 1 / 2 then ⌊q⌋
  else if q - ⌊q⌋ = 1 / 2 ∧ ⌊q⌋ % 2 = 0 then ⌊q⌋
  else ⌊q⌋ + 1

def toBinary64 (q : ℚ) : ℚ :=
  let ulp : ℚ := 2 ^ (Int.log 2 q - 52)
  roundEven (q / ulp) * ulp

/-- `%.1f`. -/
def fixed1 (x : ℚ) : List UInt8 :=
  let tenths := (roundEven (x * 10)).toNat
  decimal (tenths / 10) ++ literal "." ++ decimal (tenths % 10)

theorem roundEven_le (q : ℚ) : (roundEven q : ℚ) ≤ q + 1 / 2 := by
  have hfloor := Int.floor_le q
  unfold roundEven
  split_ifs with hlow htie
  · linarith
  · linarith
  · push_cast
    linarith

theorem toBinary64_le {q : ℚ} (hq : 0 ≤ q) : toBinary64 q ≤ 2 * q := by
  rcases hq.eq_or_lt with rfl | hpos
  · have hzero : roundEven 0 = 0 := by norm_num [roundEven]
    rw [toBinary64, zero_div, hzero, Int.cast_zero, zero_mul, mul_zero]
  · have hulp : (0 : ℚ) < 2 ^ (Int.log 2 q - 52) := zpow_pos (by norm_num) _
    have hle : (2 : ℚ) ^ (Int.log 2 q - 52) ≤ q :=
      calc (2 : ℚ) ^ (Int.log 2 q - 52)
          ≤ 2 ^ Int.log 2 q := zpow_le_zpow_right₀ (by norm_num) (by omega)
        _ ≤ q := by exact_mod_cast Int.zpow_log_le_self (by norm_num : 1 < 2) hpos
    calc toBinary64 q
        ≤ (q / 2 ^ (Int.log 2 q - 52) + 1 / 2) * 2 ^ (Int.log 2 q - 52) :=
          mul_le_mul_of_nonneg_right (roundEven_le _) hulp.le
      _ = q + 1 / 2 * 2 ^ (Int.log 2 q - 52) := by
          rw [add_mul, div_mul_cancel₀ _ hulp.ne']
      _ ≤ 2 * q := by linarith

theorem toBinary64_nonneg {q : ℚ} (hq : 0 ≤ q) : 0 ≤ toBinary64 q := by
  have hulp : (0 : ℚ) < 2 ^ (Int.log 2 q - 52) := zpow_pos (by norm_num) _
  have hfloor : 0 ≤ ⌊q / 2 ^ (Int.log 2 q - 52)⌋ :=
    Int.floor_nonneg.mpr (div_nonneg hq hulp.le)
  refine mul_nonneg (Int.cast_nonneg ?_) hulp.le
  unfold roundEven
  split_ifs <;> omega

theorem length_fixed1_le {x : ℚ} {k : ℕ} (hk : 0 < k) (hx : x + 1 < 10 ^ k) :
    (fixed1 x).length ≤ k + 2 := by
  have htenths : (roundEven (x * 10)).toNat < 10 ^ k * 10 := by
    have hround := roundEven_le (x * 10)
    have hlt : roundEven (x * 10) < 10 ^ k * 10 := by
      have hcast : ((roundEven (x * 10) : ℤ) : ℚ) < ((10 ^ k * 10 : ℤ) : ℚ) := by
        push_cast
        linarith
      exact_mod_cast hcast
    have hpos : (0 : ℤ) < 10 ^ k * 10 := by positivity
    zify
    omega
  have hwhole : (decimal ((roundEven (x * 10)).toNat / 10)).length ≤ k := by
    rw [length_decimal_le_iff hk]
    exact Nat.div_lt_of_lt_mul (by omega)
  have htenth : (decimal ((roundEven (x * 10)).toNat % 10)).length ≤ 1 := by
    rw [length_decimal_le_iff Nat.one_pos]
    omega
  have hpoint : (literal ".").length = 1 := rfl
  simp only [fixed1, List.length_append, hpoint]
  omega

end Binary64

end Shinigami
