import Mathlib.Data.Finset.Image
import Shinigami.Core.PoolRefinement

/-!
# The addresses in use

What the clients of a memory pool hold are addresses, not block numbers. For a pool
whose data region fits, an allocation hands out an address that was not in use, and a
free takes back just the given one.
-/

namespace Shinigami

namespace Core

structure BlockPool where
  pool : MemoryPool
  inv : PoolInv pool
  fits : DataFits pool

namespace BlockPool

theorem dataFits_step {p : MemoryPool} (h : DataFits p) (ev : PoolEvent) :
    DataFits (poolStep p ev) := by
  obtain ⟨hsize, hcount⟩ := poolStep_sizes p ev
  rwa [DataFits, hsize, hcount]

def step (p : BlockPool) (ev : PoolEvent) : BlockPool :=
  ⟨poolStep p.pool ev, poolInv_step p.pool ev p.inv, dataFits_step p.fits ev⟩

/-- `memory_pool_alloc`. -/
def alloc (p : BlockPool) : Option UInt64 × BlockPool :=
  ((memoryPoolAlloc p.pool).1, p.step .alloc)

/-- `memory_pool_free`. -/
def free (p : BlockPool) (ptr : UInt64) : BlockPool := p.step (.free ptr)

def inUse (p : BlockPool) : Finset UInt64 := (usedSet p.pool).image (blockAddr p.pool)

variable {p : BlockPool}

theorem toNat_blockAddr (p : BlockPool) {idx : ℕ} (hidx : idx < p.pool.blockCount.toNat) :
    (blockAddr p.pool idx).toNat =
      p.pool.base.toNat + idx * p.pool.blockSize.toNat := by
  apply Core.toNat_blockAddr p.inv.toPoolLayout
  rw [p.inv.totalSize_of_fits p.fits, Nat.mul_comm]
  exact Nat.mul_lt_mul_of_pos_left hidx p.inv.block_size

theorem blockAddr_inj (p : BlockPool) {i j : ℕ} (hi : i < p.pool.blockCount.toNat)
    (hj : j < p.pool.blockCount.toNat) (h : blockAddr p.pool i = blockAddr p.pool j) :
    i = j := by
  have heq := congrArg UInt64.toNat h
  rw [p.toNat_blockAddr hi, p.toNat_blockAddr hj] at heq
  exact Nat.eq_of_mul_eq_mul_right p.inv.block_size (Nat.add_left_cancel heq)

theorem card_inUse (p : BlockPool) : p.inUse.card = (usedSet p.pool).card :=
  Finset.card_image_of_injOn fun i hi j hj h =>
    p.blockAddr_inj (p.inv.used_lt i hi) (p.inv.used_lt j hj) h

theorem alloc_some {ptr : UInt64} (h : p.alloc.1 = some ptr) :
    ptr ∉ p.inUse ∧ p.alloc.2.inUse = insert ptr p.inUse := by
  rcases memoryPoolAlloc_cases p.inv with ⟨idx, hidx, hfree, halloc⟩ | ⟨-, halloc⟩
  · have hptr : blockAddr p.pool idx = ptr := by
      simpa only [alloc, halloc, Option.some.injEq] using h
    have htake : p.alloc.2.pool = takeBlock p.pool idx := by
      simp only [alloc, step, poolStep, halloc]
    constructor
    · intro hmem
      obtain ⟨i, hi, heq⟩ := Finset.mem_image.mp hmem
      rw [p.blockAddr_inj (p.inv.used_lt i hi) hidx (heq.trans hptr.symm)] at hi
      exact hfree hi
    · rw [inUse, htake, usedSet_takeBlock p.inv hidx, Finset.image_insert]
      exact congrArg (insert · p.inUse) hptr
  · simp [alloc, halloc] at h

theorem alloc_none (h : p.alloc.1 = none) : p.alloc.2.inUse = p.inUse := by
  rcases memoryPoolAlloc_cases p.inv with ⟨idx, -, -, halloc⟩ | ⟨-, halloc⟩
  · simp [alloc, halloc] at h
  · simp only [alloc, step, poolStep, halloc, inUse]
    rfl

theorem inUse_free (p : BlockPool) (ptr : UInt64) : (p.free ptr).inUse = p.inUse.erase ptr := by
  by_cases hptr : ptr ∈ p.inUse
  · obtain ⟨idx, hidx, rfl⟩ := Finset.mem_image.mp hptr
    have hlt := p.inv.used_lt idx hidx
    have hinside : idx * p.pool.blockSize.toNat < p.pool.totalSize.toNat := by
      rw [p.inv.totalSize_of_fits p.fits, Nat.mul_comm]
      exact Nat.mul_lt_mul_of_pos_left hlt p.inv.block_size
    have hfree : (p.free (blockAddr p.pool idx)).pool = releaseBlock p.pool idx :=
      memoryPoolFree_blockAddr p.inv.toPoolLayout hidx hinside
    rw [inUse, hfree, usedSet_releaseBlock]
    ext b
    simp only [Finset.mem_image, Finset.mem_erase, inUse]
    constructor
    · rintro ⟨i, ⟨hne, hi⟩, rfl⟩
      exact ⟨fun heq => hne (p.blockAddr_inj (p.inv.used_lt i hi) hlt heq), i, hi, rfl⟩
    · rintro ⟨hne, i, hi, rfl⟩
      exact ⟨i, ⟨fun heq => hne (congrArg _ heq), hi⟩, rfl⟩
  · rw [Finset.erase_eq_of_notMem hptr]
    rcases memoryPoolFree_cases p.inv.toPoolLayout ptr with hsame | ⟨idx, -, hidx, rfl, -⟩
    · simp only [free, step, poolStep, hsame, inUse]
    · exact absurd (Finset.mem_image_of_mem _ hidx) hptr

end BlockPool

end Core

end Shinigami
