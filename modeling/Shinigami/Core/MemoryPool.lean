import Mathlib.Algebra.Order.Ring.Nat
import Shinigami.Foundations.Bitmap
import Shinigami.Foundations.Run

/-!
# Memory pool

The block pool of `memory_pool.c`. Sizes, counters and addresses are the 64-bit
words of the source. Block numbers are natural numbers: they stay below eight
times the bytes of the bitmap, where no computation on them wraps.
-/

namespace Shinigami

namespace Core

open Bitmap

/-- `align8`. -/
def align8 (n : UInt64) : UInt64 := (n + 7) &&& ~~~7

/-- `__builtin_ctz`. -/
def builtinCtz (x : UInt32) : ℕ := x.toBitVec.ctz.toNat

/-- `memory_pool_config_t`: the block geometry, and whether the pool has a lock. -/
structure MemoryPoolConfig where
  blockSize : UInt64
  blockCount : UInt64
  threadSafe : Bool

/-- `memory_pool_stats_t`. -/
structure MemoryPoolStats where
  totalBlocks : UInt64
  freeBlocks : UInt64
  usedBlocks : UInt64
  peakUsed : UInt64
  allocCount : UInt64
  freeCount : UInt64
  failCount : UInt64

/-- `struct memory_pool`. -/
structure MemoryPool where
  base : UInt64
  bitmap : ℕ → UInt8
  nextFreeHint : ℕ
  blockSize : UInt64
  blockCount : UInt64
  stats : MemoryPoolStats
  totalSize : UInt64
  bitmapSize : UInt64

/-- What anonymous `mmap` calls answer: call `k` for `size` bytes maps a region at
an address, or fails. A call for no bytes fails, and a mapped region lies inside
the address space. -/
structure Mmap where
  map : ℕ → UInt64 → Option UInt64
  map_zero : ∀ k, map k 0 = none
  map_region : ∀ {k size base}, map k size = some base →
    base ≠ 0 ∧ base.toNat + size.toNat < 2 ^ 64

/-- `sizeof(struct memory_pool)`. -/
def memoryPoolDescSize : UInt64 := 232

/-- `memory_pool_create`, on three regions: the descriptor, the data and the
bitmap, which the system hands out zeroed. -/
def memoryPoolCreate (mmap : Mmap) (config : MemoryPoolConfig) : Option MemoryPool :=
  let bsz := align8 config.blockSize
  if bsz < 8 then none
  else if config.blockCount = 0 then none
  else
    match mmap.map 0 (align8 memoryPoolDescSize) with
    | none => none
    | some _ =>
        let totalSize := bsz * config.blockCount
        match mmap.map 1 totalSize with
        | none => none
        | some base =>
            let bitmapSize := (config.blockCount + 7) / 8
            match mmap.map 2 bitmapSize with
            | none => none
            | some _ =>
                some
                  { base := base, bitmap := fun _ => 0, nextFreeHint := 0,
                    blockSize := bsz, blockCount := config.blockCount,
                    stats := ⟨config.blockCount, config.blockCount, 0, 0, 0, 0, 0⟩,
                    totalSize := totalSize, bitmapSize := bitmapSize }

/-- The scan of `n` bytes from byte `bi` for a free block. -/
def scanBytes (bm : ℕ → UInt8) (blockCount : ℕ) : ℕ → ℕ → Option ℕ
  | _, 0 => none
  | bi, n + 1 =>
      let inv := ~~~bm bi
      if inv = 0 then scanBytes bm blockCount (bi + 1) n
      else
        let idx := bi * 8 + builtinCtz inv.toUInt32
        if idx ≥ blockCount then scanBytes bm blockCount (bi + 1) n
        else some idx

/-- The two passes of `memory_pool_alloc`: from the hint's byte to the end, then
from the first byte to the hint's. -/
def scanFree (p : MemoryPool) : Option ℕ :=
  let startByte := p.nextFreeHint / 8
  match scanBytes p.bitmap p.blockCount.toNat startByte
      (p.bitmapSize.toNat - startByte) with
  | some idx => some idx
  | none => scanBytes p.bitmap p.blockCount.toNat 0 startByte

/-- The address `base + idx * block_size`. -/
def blockAddr (p : MemoryPool) (idx : ℕ) : UInt64 :=
  p.base + UInt64.ofNat idx * p.blockSize

/-- What `memory_pool_alloc` does once it has found block `idx`. -/
def takeBlock (p : MemoryPool) (idx : ℕ) : MemoryPool :=
  let usedBlocks := p.stats.usedBlocks + 1
  { p with
    bitmap := setBit p.bitmap idx
    nextFreeHint := if idx + 1 ≥ p.blockCount.toNat then 0 else idx + 1
    stats :=
      { p.stats with
        usedBlocks := usedBlocks
        freeBlocks := p.stats.freeBlocks - 1
        allocCount := p.stats.allocCount + 1
        peakUsed := if usedBlocks > p.stats.peakUsed then usedBlocks
          else p.stats.peakUsed } }

/-- `memory_pool_alloc`; a result `none` is `NULL`. -/
def memoryPoolAlloc (p : MemoryPool) : Option UInt64 × MemoryPool :=
  match scanFree p with
  | some idx => (some (blockAddr p idx), takeBlock p idx)
  | none => (none, { p with stats := { p.stats with failCount := p.stats.failCount + 1 } })

/-- What `memory_pool_free` does once it has found that block `idx` is in use. -/
def releaseBlock (p : MemoryPool) (idx : ℕ) : MemoryPool :=
  { p with
    bitmap := clearBit p.bitmap idx
    nextFreeHint := if idx < p.nextFreeHint then idx else p.nextFreeHint
    stats :=
      { p.stats with
        usedBlocks := p.stats.usedBlocks - 1
        freeBlocks := p.stats.freeBlocks + 1
        freeCount := p.stats.freeCount + 1 } }

/-- `memory_pool_free`. -/
def memoryPoolFree (p : MemoryPool) (ptr : UInt64) : MemoryPool :=
  if ptr = 0 then p
  else if ptr < p.base ∨ ptr ≥ p.base + p.totalSize then p
  else
    let offset := ptr - p.base
    if offset % p.blockSize ≠ 0 then p
    else
      let idx := (offset / p.blockSize).toNat
      if p.bitmap (idx / 8) &&& bitMask (idx % 8) = 0 then p
      else releaseBlock p idx

/-- `memory_pool_reset`. -/
def memoryPoolReset (p : MemoryPool) : MemoryPool :=
  { p with
    bitmap := fun _ => 0
    nextFreeHint := 0
    stats := ⟨p.stats.totalBlocks, p.blockCount, 0, 0, 0, 0, 0⟩ }

inductive PoolEvent
  | alloc
  | free (ptr : UInt64)
  | reset

def poolStep (p : MemoryPool) : PoolEvent → MemoryPool
  | .alloc => (memoryPoolAlloc p).2
  | .free ptr => memoryPoolFree p ptr
  | .reset => memoryPoolReset p

def usedSet (p : MemoryPool) : Finset ℕ := bits p.bitmap (8 * p.bitmapSize.toNat)

/-- Counting trailing zeros of an inverted byte finds its lowest clear bit. -/
theorem builtinCtz_not {b : UInt8} (hb : ~~~b ≠ 0) :
    builtinCtz (~~~b).toUInt32 < 8 ∧
      b.toBitVec.getLsbD (builtinCtz (~~~b).toUInt32) = false ∧
      ∀ j < builtinCtz (~~~b).toUInt32, b.toBitVec.getLsbD j = true := by
  have hget : ∀ j, (~~~b).toUInt32.toBitVec.getLsbD j =
      (decide (j < 8) && !b.toBitVec.getLsbD j) := by
    intro j
    rw [UInt8.toBitVec_toUInt32, BitVec.getLsbD_setWidth, UInt8.toBitVec_not,
      BitVec.getLsbD_not]
    by_cases hj : j < 8
    · simp [hj, show j < 32 by omega]
    · simp [hj]
  have hne : (~~~b).toUInt32.toBitVec ≠ 0#32 := by
    intro h
    refine hb (UInt8.toBitVec_inj.mp (BitVec.eq_of_getLsbD_eq fun j hj => ?_))
    have hzero := hget j
    rw [h] at hzero
    rw [UInt8.toBitVec_not, BitVec.getLsbD_not]
    simpa [hj] using hzero
  have hfound := BitVec.getLsbD_true_ctz_of_ne_zero hne
  rw [hget, Bool.and_eq_true, decide_eq_true_eq, Bool.not_eq_true'] at hfound
  refine ⟨hfound.1, hfound.2, fun j hj => ?_⟩
  have hbelow := BitVec.getLsbD_false_of_lt_ctz hj
  have hj8 : j < 8 := lt_trans hj hfound.1
  rw [hget] at hbelow
  simpa [hj8] using hbelow

/-- A scan that finds a block finds one of the pool that is free, in the scanned
bytes. -/
theorem scanBytes_eq_some {bm : ℕ → UInt8} {blockCount bi n idx : ℕ}
    (h : scanBytes bm blockCount bi n = some idx) :
    idx < blockCount ∧ testBit bm idx = false ∧ idx / 8 < bi + n := by
  induction n generalizing bi with
  | zero => simp [scanBytes] at h
  | succ n ih =>
      simp only [scanBytes] at h
      split_ifs at h with hinv hpad
      · have hrec := ih h
        exact ⟨hrec.1, hrec.2.1, by omega⟩
      · have hrec := ih h
        exact ⟨hrec.1, hrec.2.1, by omega⟩
      · obtain ⟨hlt, hfree, -⟩ := builtinCtz_not hinv
        cases h
        have hdiv : (bi * 8 + builtinCtz (~~~bm bi).toUInt32) / 8 = bi := by omega
        have hmod : (bi * 8 + builtinCtz (~~~bm bi).toUInt32) % 8 =
            builtinCtz (~~~bm bi).toUInt32 := by omega
        refine ⟨Nat.lt_of_not_ge hpad, ?_, by omega⟩
        rw [testBit, hdiv, hmod]
        exact hfree

/-- A scan that finds nothing has seen every block of the scanned bytes in use. -/
theorem testBit_of_scanBytes_eq_none {bm : ℕ → UInt8} {blockCount bi n : ℕ}
    (h : scanBytes bm blockCount bi n = none) {idx : ℕ} (hidx : idx < blockCount)
    (hlo : bi ≤ idx / 8) (hhi : idx / 8 < bi + n) : testBit bm idx = true := by
  induction n generalizing bi with
  | zero => omega
  | succ n ih =>
      simp only [scanBytes] at h
      rcases Nat.eq_or_lt_of_le hlo with hbyte | hlater
      · -- The block is in the first byte: that byte is full, or its lowest free
        -- bit is beyond the last block and so beyond this one.
        split_ifs at h with hinv hpad
        · have hfull := congrArg (fun b : UInt8 => b.toBitVec.getLsbD (idx % 8)) hinv
          have hmod : idx % 8 < 8 := Nat.mod_lt idx (by omega)
          rw [testBit, ← hbyte]
          simpa [BitVec.getLsbD_not, hmod] using hfull
        · obtain ⟨-, -, hbelow⟩ := builtinCtz_not hinv
          rw [testBit, ← hbyte]
          exact hbelow (idx % 8) (by omega)
      · have hrest : scanBytes bm blockCount (bi + 1) n = none := by
          split_ifs at h
          · exact h
          · exact h
        exact ih hrest (by omega) (by omega)

end Core

end Shinigami
