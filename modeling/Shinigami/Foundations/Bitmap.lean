import Mathlib.Data.Finset.Card
import Mathlib.Data.Finset.Range
import Mathlib.Logic.Function.Basic

/-!
# Bitmaps

A bitmap kept in a byte array: bit `i` is bit `i % 8` of byte `i / 8`. Setting
and clearing a bit through a one-bit mask inserts and erases its number in the
finite set of the set bits.
-/

namespace Shinigami

namespace Bitmap

/-- The one-bit mask `1 << bit` of a byte. -/
def bitMask (bit : ℕ) : UInt8 := UInt8.ofNat (1 <<< bit)

def testBit (bm : ℕ → UInt8) (i : ℕ) : Bool := (bm (i / 8)).toBitVec.getLsbD (i % 8)

def setBit (bm : ℕ → UInt8) (i : ℕ) : ℕ → UInt8 :=
  Function.update bm (i / 8) (bm (i / 8) ||| bitMask (i % 8))

def clearBit (bm : ℕ → UInt8) (i : ℕ) : ℕ → UInt8 :=
  Function.update bm (i / 8) (bm (i / 8) &&& ~~~bitMask (i % 8))

/-- The numbers of the set bits among the first `n`. -/
def bits (bm : ℕ → UInt8) (n : ℕ) : Finset ℕ := (Finset.range n).filter (testBit bm ·)

theorem getLsbD_bitMask {bit : ℕ} (hbit : bit < 8) (j : ℕ) :
    (bitMask bit).toBitVec.getLsbD j = decide (j = bit) := by
  have hmask : (bitMask bit).toBitVec = BitVec.ofNat 8 (2 ^ bit) := by
    rw [bitMask, Nat.one_shiftLeft]
    rfl
  rw [hmask, BitVec.getLsbD_ofNat, Nat.testBit_two_pow]
  by_cases hj : j = bit
  · simp [hj, hbit]
  · simp [hj, Ne.symm hj]

theorem and_bitMask_eq_zero {b : UInt8} {bit : ℕ} (hbit : bit < 8) :
    b &&& bitMask bit = 0 ↔ b.toBitVec.getLsbD bit = false := by
  rw [← UInt8.toBitVec_inj, UInt8.toBitVec_and]
  constructor
  · intro h
    have hget := congrArg (BitVec.getLsbD · bit) h
    simpa [getLsbD_bitMask hbit] using hget
  · intro h
    refine BitVec.eq_of_getLsbD_eq fun j _ => ?_
    rw [BitVec.getLsbD_and, getLsbD_bitMask hbit]
    by_cases hj : j = bit
    · simp [hj, h]
    · simp [hj]

theorem testBit_setBit (bm : ℕ → UInt8) (i j : ℕ) :
    testBit (setBit bm i) j = (decide (j = i) || testBit bm j) := by
  have hbit : i % 8 < 8 := Nat.mod_lt i (by omega)
  unfold testBit setBit
  by_cases hbyte : j / 8 = i / 8
  · rw [hbyte, Function.update_self, UInt8.toBitVec_or, BitVec.getLsbD_or,
      getLsbD_bitMask hbit, Bool.or_comm]
    congr 1
    exact decide_eq_decide.mpr (by omega)
  · have hne : j ≠ i := fun h => hbyte (by rw [h])
    simp [Function.update_of_ne hbyte, hne]

theorem testBit_clearBit (bm : ℕ → UInt8) (i j : ℕ) :
    testBit (clearBit bm i) j = (!decide (j = i) && testBit bm j) := by
  have hbit : i % 8 < 8 := Nat.mod_lt i (by omega)
  unfold testBit clearBit
  by_cases hbyte : j / 8 = i / 8
  · have hj : j % 8 < 8 := Nat.mod_lt j (by omega)
    have hiff : (j % 8 = i % 8) ↔ j = i := by omega
    rw [hbyte, Function.update_self, UInt8.toBitVec_and, UInt8.toBitVec_not,
      BitVec.getLsbD_and, BitVec.getLsbD_not, getLsbD_bitMask hbit, Bool.and_comm]
    simp [hj, hiff]
  · have hne : j ≠ i := fun h => hbyte (by rw [h])
    simp [Function.update_of_ne hbyte, hne]

@[simp] theorem testBit_zero (i : ℕ) : testBit (fun _ => 0) i = false := by
  simp [testBit]

@[simp] theorem mem_bits {bm : ℕ → UInt8} {n i : ℕ} :
    i ∈ bits bm n ↔ i < n ∧ testBit bm i = true := by
  simp [bits]

@[simp] theorem bits_zero (n : ℕ) : bits (fun _ => 0) n = ∅ := by
  ext i
  simp

theorem bits_setBit {bm : ℕ → UInt8} {n i : ℕ} (hi : i < n) :
    bits (setBit bm i) n = insert i (bits bm n) := by
  ext j
  rw [Finset.mem_insert, mem_bits, mem_bits, testBit_setBit]
  by_cases hj : j = i
  · simp [hj, hi]
  · simp [hj]

theorem bits_clearBit (bm : ℕ → UInt8) (n i : ℕ) :
    bits (clearBit bm i) n = (bits bm n).erase i := by
  ext j
  rw [Finset.mem_erase, mem_bits, mem_bits, testBit_clearBit]
  by_cases hj : j = i
  · simp [hj]
  · simp [hj]

end Bitmap

end Shinigami
