import Mathlib.Data.Nat.SuccPred
import Mathlib.Order.CompletePartialOrder
import Mathlib.Order.SuccPred.IntervalSucc
import Shinigami.Core.PoolRefinement

/-!
# Geometry of a memory pool

The blocks of a pool are the intervals `[i * bsz, (i + 1) * bsz)` of its data region,
in natural numbers, so that nothing wraps around. They never overlap, and the bitmap
has a bit for each of them, for every pair of sizes that `memory_pool_create` accepts;
they lie in the region exactly when their size does not wrap around.
-/

namespace Shinigami

namespace Core

/-- The bytes of block `i`, by their offset in the data region. -/
def blockBytes (p : MemoryPool) (i : ℕ) : Set ℕ :=
  Set.Ico (i * p.blockSize.toNat) ((i + 1) * p.blockSize.toNat)

/-- The blocks of a pool are apart from each other and inside its data region, and each
of them has its bit. -/
structure PoolGeometry (p : MemoryPool) : Prop where
  disjoint : ∀ i < p.blockCount.toNat, ∀ j < p.blockCount.toNat, i ≠ j →
    Disjoint (blockBytes p i) (blockBytes p j)
  inside : ∀ i < p.blockCount.toNat, blockBytes p i ⊆ Set.Iio p.totalSize.toNat
  bitmap : p.blockCount.toNat ≤ 8 * p.bitmapSize.toNat

section Blocks

variable {p : MemoryPool}

theorem disjoint_blockBytes {i j : ℕ} (hij : i ≠ j) :
    Disjoint (blockBytes p i) (blockBytes p j) := by
  have hmono : Monotone fun k => k * p.blockSize.toNat :=
    fun _ _ hle => Nat.mul_le_mul_right _ hle
  exact hmono.pairwise_disjoint_on_Ico_succ hij

theorem blockBytes_subset_iff (hp : PoolInv p) :
    (∀ i < p.blockCount.toNat, blockBytes p i ⊆ Set.Iio p.totalSize.toNat) ↔
      p.blockCount.toNat * p.blockSize.toNat ≤ p.totalSize.toNat := by
  have hpos : 0 < p.blockCount.toNat := Nat.zero_lt_of_lt hp.next_free_hint
  have hsize := hp.block_size
  constructor
  · intro hinside
    have hlast : (p.blockCount.toNat - 1 + 1) * p.blockSize.toNat - 1 ∈
        blockBytes p (p.blockCount.toNat - 1) := by
      rw [blockBytes, Set.mem_Ico, Nat.add_one_mul]
      omega
    have hlt := hinside (p.blockCount.toNat - 1) (by omega) hlast
    rw [Set.mem_Iio, Nat.sub_add_cancel hpos] at hlt
    omega
  · intro hle i hi n hn
    have hend : (i + 1) * p.blockSize.toNat ≤ p.blockCount.toNat * p.blockSize.toNat :=
      Nat.mul_le_mul_right _ hi
    rw [blockBytes, Set.mem_Ico] at hn
    rw [Set.mem_Iio]
    omega

theorem poolGeometry_iff_dataFits (hp : PoolInv p) : PoolGeometry p ↔ DataFits p := by
  constructor
  · intro hgeometry
    have hle := (blockBytes_subset_iff hp).mp hgeometry.inside
    have hlt := p.totalSize.toNat_lt
    rw [DataFits, Nat.mul_comm]
    omega
  · intro hfits
    have htotal := hp.toPoolLayout.totalSize_of_fits hfits
    refine ⟨fun _ _ _ _ hij => disjoint_blockBytes hij, ?_, hp.bitmap_size⟩
    rw [blockBytes_subset_iff hp, htotal, Nat.mul_comm]

end Blocks

/-- An `mmap` that maps every size up to the end of the address space. -/
def generousMap (size : UInt64) : Option UInt64 :=
  if size = 0 ∨ size.toNat + 1 = 2 ^ 64 then none else some 1

theorem generousMap_region {size base : UInt64} (h : generousMap size = some base) :
    base ≠ 0 ∧ base.toNat + size.toNat < 2 ^ 64 := by
  unfold generousMap at h
  split_ifs at h with hnone
  cases h
  have hlt := size.toNat_lt
  refine ⟨by decide, ?_⟩
  have hone : (1 : UInt64).toNat = 1 := rfl
  omega

theorem generousMap_of_ne {size : UInt64} (h : size.toNat + 1 ≠ 2 ^ 64) :
    generousMap size = if size = 0 then none else some 1 := by
  simp only [generousMap, h, or_false]

def generousMmap : Mmap :=
  ⟨fun _ => generousMap, fun _ => rfl, generousMap_region⟩

section Accepted

variable {config : MemoryPoolConfig}

theorem align8_mod (n : UInt64) : (align8 n).toNat % 8 = 0 := by
  have hmask : (~~~7 : UInt64).toNat % 2 ^ 3 = 0 := by decide
  rw [align8, UInt64.toNat_and, show 8 = 2 ^ 3 from rfl, Nat.and_mod_two_pow, hmask,
    Nat.and_zero]

theorem align8_mul_mod (n count : UInt64) : (align8 n * count).toNat % 8 = 0 := by
  rw [UInt64.toNat_mul, Nat.mod_mod_of_dvd _ (by decide : 8 ∣ 2 ^ 64), Nat.mul_mod,
    align8_mod, Nat.zero_mul, Nat.zero_mod]

theorem isSome_memoryPoolCreate_generous :
    (memoryPoolCreate generousMmap config).isSome = true ↔
      8 ≤ align8 config.blockSize ∧ config.blockCount ≠ 0 ∧
        align8 config.blockSize * config.blockCount ≠ 0 ∧
        (config.blockCount + 7) / 8 ≠ 0 := by
  have hdata := align8_mul_mod config.blockSize config.blockCount
  have hbitmap : ((config.blockCount + 7) / 8).toNat + 1 ≠ 2 ^ 64 := by
    have hlt := (config.blockCount + 7).toNat_lt
    rw [UInt64.toNat_div, show (8 : UInt64).toNat = 8 from rfl]
    omega
  have hdesc : generousMap (align8 memoryPoolDescSize) = some 1 := by decide
  have hdataNe : (align8 config.blockSize * config.blockCount).toNat + 1 ≠ 2 ^ 64 := by omega
  have hmap : ∀ k size, generousMmap.map k size = generousMap size := fun _ _ => rfl
  simp only [memoryPoolCreate, hmap, hdesc, generousMap_of_ne hbitmap,
    generousMap_of_ne hdataNe]
  by_cases hdataZero : align8 config.blockSize * config.blockCount = 0
  · simp [hdataZero]
  by_cases hbitmapZero : (config.blockCount + 7) / 8 = 0
  · simp [hdataZero, hbitmapZero]
  split_ifs with hbsz hcount
  · simp [UInt64.not_le.mpr hbsz]
  · simp [hcount]
  · simp [UInt64.not_lt.mp hbsz, hcount, hdataZero, hbitmapZero]

/-- The geometry of a pool is sound exactly when the byte size of its blocks does not
wrap around. -/
theorem poolGeometry_iff (mmap : Mmap) (config : MemoryPoolConfig) {p : MemoryPool}
    (hcreate : memoryPoolCreate mmap config = some p) : PoolGeometry p ↔
      (align8 config.blockSize).toNat * config.blockCount.toNat < 2 ^ 64 := by
  rw [poolGeometry_iff_dataFits (poolInv_create hcreate)]
  obtain ⟨base, rfl, -⟩ := memoryPoolCreate_eq_some hcreate
  exact Iff.rfl

end Accepted

theorem poolGeometry_iff_small : ∃ p, memoryPoolCreate separateMmap ⟨20, 10, false⟩ = some p ∧
    PoolGeometry p :=
  ⟨_, rfl, (poolGeometry_iff separateMmap ⟨20, 10, false⟩ rfl).mpr (by decide)⟩

/-- Of the `2 ^ 32 + 1` blocks of `wrappedPool`, the first alone lies in the data
region. -/
theorem not_poolGeometry_wrapped :
    ¬∀ (mmap : Mmap) (config : MemoryPoolConfig) (p : MemoryPool),
      memoryPoolCreate mmap config = some p → PoolGeometry p := by
  intro h
  have hgeometry := h separateMmap ⟨0x100000000, 0x100000001, false⟩ wrappedPool rfl
  have hin : 0x100000000 ∈ blockBytes wrappedPool 1 := by
    rw [blockBytes, Set.mem_Ico]
    decide
  have hlt := hgeometry.inside 1 (by decide) hin
  exact absurd hlt (by decide)

end Core

end Shinigami
