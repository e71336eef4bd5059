import Shinigami.Core.MemoryPool

/-!
# The memory pool as a set of blocks

Abstractly a pool of `n` blocks is the set of the blocks in use. This file proves
that after every history of allocations, frees and resets the bitmap represents
such a set, and that each operation does to it what it should, exactly when the
byte size of the data region does not wrap around.
-/

namespace Shinigami

namespace Core

open Bitmap

/-- What the bitmap of a pool and its operations say about the set `usedSet p` of
the blocks in use. -/
structure PoolRefined (p : MemoryPool) : Prop where
  used_lt : ∀ idx ∈ usedSet p, idx < p.blockCount.toNat
  alloc_some : ∀ {ptr}, (memoryPoolAlloc p).1 = some ptr →
    ∃ idx, idx < p.blockCount.toNat ∧ idx ∉ usedSet p ∧ ptr = blockAddr p idx ∧
      usedSet (memoryPoolAlloc p).2 = insert idx (usedSet p)
  alloc_none : (memoryPoolAlloc p).1 = none ↔
    usedSet p = Finset.range p.blockCount.toNat
  alloc_none_used : (memoryPoolAlloc p).1 = none →
    usedSet (memoryPoolAlloc p).2 = usedSet p
  free_used : ∀ idx ∈ usedSet p,
    usedSet (memoryPoolFree p (blockAddr p idx)) = (usedSet p).erase idx
  free_other : ∀ {ptr}, (∀ idx ∈ usedSet p, ptr ≠ blockAddr p idx) →
    memoryPoolFree p ptr = p
  reset_used : usedSet (memoryPoolReset p) = ∅
  used_blocks : p.stats.usedBlocks.toNat = (usedSet p).card
  free_blocks : p.stats.freeBlocks.toNat = p.blockCount.toNat - (usedSet p).card
  peak_used : p.stats.usedBlocks ≤ p.stats.peakUsed
  next_free_hint : p.nextFreeHint < p.blockCount.toNat

structure PoolLayout (p : MemoryPool) : Prop where
  base_ne : p.base ≠ 0
  region : p.base.toNat + p.totalSize.toNat < 2 ^ 64
  block_size : 0 < p.blockSize.toNat
  total_size : p.totalSize = p.blockSize * p.blockCount
  bitmap_size : p.blockCount.toNat ≤ 8 * p.bitmapSize.toNat

structure PoolInv (p : MemoryPool) : Prop extends PoolLayout p where
  used_lt : ∀ idx ∈ usedSet p, idx < p.blockCount.toNat
  used_blocks : p.stats.usedBlocks.toNat = (usedSet p).card
  free_blocks : p.stats.freeBlocks.toNat + (usedSet p).card = p.blockCount.toNat
  peak_used : p.stats.usedBlocks ≤ p.stats.peakUsed
  next_free_hint : p.nextFreeHint < p.blockCount.toNat

def DataFits (p : MemoryPool) : Prop := p.blockSize.toNat * p.blockCount.toNat < 2 ^ 64

section Create

variable {mmap : Mmap} {config : MemoryPoolConfig} {p : MemoryPool}

theorem memoryPoolCreate_eq_some (h : memoryPoolCreate mmap config = some p) :
    ∃ base, p =
      { base := base, bitmap := fun _ => 0, nextFreeHint := 0,
        blockSize := align8 config.blockSize, blockCount := config.blockCount,
        stats := ⟨config.blockCount, config.blockCount, 0, 0, 0, 0, 0⟩,
        totalSize := align8 config.blockSize * config.blockCount,
        bitmapSize := (config.blockCount + 7) / 8 } ∧
      ¬align8 config.blockSize < 8 ∧ config.blockCount ≠ 0 ∧
      mmap.map 1 (align8 config.blockSize * config.blockCount) = some base ∧
      ∃ addr, mmap.map 2 ((config.blockCount + 7) / 8) = some addr := by
  simp only [memoryPoolCreate] at h
  split_ifs at h with hbsz hcount
  cases hdesc : mmap.map 0 (align8 memoryPoolDescSize) with
  | none => simp [hdesc] at h
  | some desc =>
      cases hdata : mmap.map 1 (align8 config.blockSize * config.blockCount) with
      | none => simp [hdesc, hdata] at h
      | some base =>
          cases hbitmap : mmap.map 2 ((config.blockCount + 7) / 8) with
          | none => simp [hdesc, hdata, hbitmap] at h
          | some addr =>
              simp only [hdesc, hdata, hbitmap, Option.some.injEq] at h
              exact ⟨base, h.symm, hbsz, hcount, rfl, addr, rfl⟩

/-- A bitmap region that could be mapped has a bit for each block: a count for
which the rounding wraps around asks for no bytes. -/
theorem blockCount_le_of_map {k : ℕ} {count addr : UInt64}
    (h : mmap.map k ((count + 7) / 8) = some addr) :
    count.toNat ≤ 8 * ((count + 7) / 8).toNat := by
  have hne : (count + 7) / 8 ≠ 0 := by
    intro hzero
    rw [hzero, mmap.map_zero] at h
    simp at h
  have hlt := count.toNat_lt
  have hdiv : ((count + 7) / 8).toNat = (count.toNat + 7) % 2 ^ 64 / 8 := by
    rw [UInt64.toNat_div, UInt64.toNat_add]
    rfl
  have hpos : ((count + 7) / 8).toNat ≠ 0 := fun hzero =>
    hne (UInt64.toNat_inj.mp hzero)
  omega

theorem poolInv_create (h : memoryPoolCreate mmap config = some p) : PoolInv p := by
  obtain ⟨base, rfl, hbsz, hcount, hdata, addr, hbitmap⟩ := memoryPoolCreate_eq_some h
  obtain ⟨hbase, hregion⟩ := mmap.map_region hdata
  have hpos : 0 < config.blockCount.toNat := by
    refine Nat.pos_of_ne_zero fun hzero => hcount (UInt64.toNat_inj.mp hzero)
  have hsize : 8 ≤ (align8 config.blockSize).toNat := by
    simpa [UInt64.lt_iff_toNat_lt] using hbsz
  exact
    { base_ne := hbase
      region := hregion
      block_size := show 0 < (align8 config.blockSize).toNat by omega
      total_size := rfl
      bitmap_size := blockCount_le_of_map hbitmap
      used_lt := by simp [usedSet]
      used_blocks := by simp [usedSet]
      free_blocks := by simp [usedSet]
      peak_used := UInt64.le_refl _
      next_free_hint := hpos }

end Create

section Scan

variable {p : MemoryPool}

theorem scanFree_eq_some {idx : ℕ} (h : scanFree p = some idx) :
    idx < p.blockCount.toNat ∧ idx ∉ usedSet p := by
  have hfound : idx < p.blockCount.toNat ∧ testBit p.bitmap idx = false := by
    simp only [scanFree] at h
    split at h
    · case h_1 idx' hfirst =>
        cases h
        exact ⟨(scanBytes_eq_some hfirst).1, (scanBytes_eq_some hfirst).2.1⟩
    · exact ⟨(scanBytes_eq_some h).1, (scanBytes_eq_some h).2.1⟩
  refine ⟨hfound.1, fun hmem => ?_⟩
  rw [usedSet, mem_bits, hfound.2] at hmem
  exact absurd hmem.2 (by simp)

/-- Together the two passes see every byte: when they find nothing, every block
of the pool is in use. -/
theorem usedSet_of_scanFree_eq_none (hp : PoolInv p) (h : scanFree p = none) :
    usedSet p = Finset.range p.blockCount.toNat := by
  have hsize := hp.bitmap_size
  have hhint := hp.next_free_hint
  simp only [scanFree] at h
  split at h
  · cases h
  · case h_2 hfirst =>
      ext idx
      rw [Finset.mem_range]
      refine ⟨hp.used_lt idx, fun hidx => ?_⟩
      rw [usedSet, mem_bits]
      refine ⟨by omega, ?_⟩
      by_cases hpass : p.nextFreeHint / 8 ≤ idx / 8
      · exact testBit_of_scanBytes_eq_none hfirst hidx hpass (by omega)
      · exact testBit_of_scanBytes_eq_none h hidx (Nat.zero_le _) (by omega)

theorem memoryPoolAlloc_cases (hp : PoolInv p) :
    (∃ idx, idx < p.blockCount.toNat ∧ idx ∉ usedSet p ∧
      memoryPoolAlloc p = (some (blockAddr p idx), takeBlock p idx)) ∨
    (usedSet p = Finset.range p.blockCount.toNat ∧
      memoryPoolAlloc p =
        (none, { p with stats := { p.stats with failCount := p.stats.failCount + 1 } })) := by
  cases hscan : scanFree p with
  | none =>
      right
      exact ⟨usedSet_of_scanFree_eq_none hp hscan, by simp [memoryPoolAlloc, hscan]⟩
  | some idx =>
      left
      obtain ⟨hlt, hfree⟩ := scanFree_eq_some hscan
      exact ⟨idx, hlt, hfree, by simp [memoryPoolAlloc, hscan]⟩

end Scan

theorem toNat_add_one {x : UInt64} (h : x.toNat + 1 < 2 ^ 64) : (x + 1).toNat = x.toNat + 1 := by
  rw [UInt64.toNat_add]
  exact Nat.mod_eq_of_lt h

theorem toNat_sub_one {x : UInt64} (h : 0 < x.toNat) : (x - 1).toNat = x.toNat - 1 :=
  UInt64.toNat_sub_of_le _ _ (UInt64.le_iff_toNat_le.mpr h)

section Blocks

variable {p : MemoryPool}

theorem PoolLayout.frame (hp : PoolLayout p) (bitmap : ℕ → UInt8) (hint : ℕ)
    (stats : MemoryPoolStats) :
    PoolLayout { p with bitmap := bitmap, nextFreeHint := hint, stats := stats } where
  base_ne := hp.base_ne
  region := hp.region
  block_size := hp.block_size
  total_size := hp.total_size
  bitmap_size := hp.bitmap_size

theorem usedSet_takeBlock (hp : PoolInv p) {idx : ℕ} (hidx : idx < p.blockCount.toNat) :
    usedSet (takeBlock p idx) = insert idx (usedSet p) :=
  bits_setBit (Nat.lt_of_lt_of_le hidx hp.bitmap_size)

theorem usedSet_releaseBlock (idx : ℕ) :
    usedSet (releaseBlock p idx) = (usedSet p).erase idx :=
  bits_clearBit p.bitmap _ idx

theorem PoolInv.card_lt (hp : PoolInv p) {idx : ℕ} (hidx : idx < p.blockCount.toNat)
    (hfree : idx ∉ usedSet p) : (usedSet p).card < p.blockCount.toNat := by
  have hsub : insert idx (usedSet p) ⊆ Finset.range p.blockCount.toNat := by
    intro j hj
    rw [Finset.mem_insert] at hj
    rw [Finset.mem_range]
    rcases hj with rfl | hj
    · exact hidx
    · exact hp.used_lt j hj
  have hcard := Finset.card_le_card hsub
  rwa [Finset.card_insert_of_notMem hfree, Finset.card_range] at hcard

theorem poolInv_takeBlock (hp : PoolInv p) {idx : ℕ} (hidx : idx < p.blockCount.toNat)
    (hfree : idx ∉ usedSet p) : PoolInv (takeBlock p idx) := by
  have hused := usedSet_takeBlock hp hidx
  have hcard : (usedSet (takeBlock p idx)).card = (usedSet p).card + 1 := by
    rw [hused, Finset.card_insert_of_notMem hfree]
  have hroom := hp.card_lt hidx hfree
  have hcount := p.blockCount.toNat_lt
  have hub := hp.used_blocks
  have hfb := hp.free_blocks
  have hused1 := toNat_add_one (x := p.stats.usedBlocks) (by omega)
  have hfree1 := toNat_sub_one (x := p.stats.freeBlocks) (by omega)
  exact
    { toPoolLayout := hp.toPoolLayout.frame _ _ _
      used_lt := by
        intro j hj
        rw [hused, Finset.mem_insert] at hj
        rcases hj with rfl | hj
        · exact hidx
        · exact hp.used_lt j hj
      used_blocks := by
        change (p.stats.usedBlocks + 1).toNat = _
        omega
      free_blocks := by
        change (p.stats.freeBlocks - 1).toNat + _ = p.blockCount.toNat
        omega
      peak_used := by
        change p.stats.usedBlocks + 1 ≤ if p.stats.usedBlocks + 1 > p.stats.peakUsed
          then p.stats.usedBlocks + 1 else p.stats.peakUsed
        split_ifs with hpeak
        · exact UInt64.le_refl _
        · exact UInt64.not_lt.mp hpeak
      next_free_hint := by
        change (if idx + 1 ≥ p.blockCount.toNat then 0 else idx + 1) < p.blockCount.toNat
        split_ifs with hend
        · omega
        · omega }

theorem poolInv_releaseBlock (hp : PoolInv p) {idx : ℕ} (hidx : idx ∈ usedSet p) :
    PoolInv (releaseBlock p idx) := by
  have hused := usedSet_releaseBlock (p := p) idx
  have hcard : (usedSet (releaseBlock p idx)).card + 1 = (usedSet p).card := by
    rw [hused, Finset.card_erase_add_one hidx]
  have hcount := p.blockCount.toNat_lt
  have hub := hp.used_blocks
  have hfb := hp.free_blocks
  have hused1 := toNat_sub_one (x := p.stats.usedBlocks) (by omega)
  have hfree1 := toNat_add_one (x := p.stats.freeBlocks) (by omega)
  exact
    { toPoolLayout := hp.toPoolLayout.frame _ _ _
      used_lt := by
        intro j hj
        rw [hused] at hj
        exact hp.used_lt j (Finset.mem_of_mem_erase hj)
      used_blocks := by
        change (p.stats.usedBlocks - 1).toNat = _
        omega
      free_blocks := by
        change (p.stats.freeBlocks + 1).toNat + _ = p.blockCount.toNat
        omega
      peak_used := by
        refine UInt64.le_trans ?_ hp.peak_used
        rw [UInt64.le_iff_toNat_le]
        change (p.stats.usedBlocks - 1).toNat ≤ _
        omega
      next_free_hint := by
        have hlt := hp.used_lt idx hidx
        have hhint := hp.next_free_hint
        change (if idx < p.nextFreeHint then idx else p.nextFreeHint) < p.blockCount.toNat
        split_ifs
        · exact hlt
        · exact hhint }

theorem poolInv_failed (hp : PoolInv p) :
    PoolInv { p with stats := { p.stats with failCount := p.stats.failCount + 1 } } where
  toPoolLayout := hp.toPoolLayout.frame _ _ _
  used_lt := hp.used_lt
  used_blocks := hp.used_blocks
  free_blocks := hp.free_blocks
  peak_used := hp.peak_used
  next_free_hint := hp.next_free_hint

theorem poolInv_reset (hp : PoolInv p) : PoolInv (memoryPoolReset p) where
  toPoolLayout := hp.toPoolLayout.frame _ _ _
  used_lt := by simp [usedSet, memoryPoolReset]
  used_blocks := by simp [usedSet, memoryPoolReset]
  free_blocks := by simp [usedSet, memoryPoolReset]
  peak_used := UInt64.le_refl _
  next_free_hint := (Nat.zero_le _).trans_lt hp.next_free_hint

end Blocks

section Free

variable {p : MemoryPool}

theorem PoolLayout.totalSize_le (hp : PoolLayout p) :
    p.totalSize.toNat ≤ p.blockSize.toNat * p.blockCount.toNat := by
  rw [hp.total_size, UInt64.toNat_mul]
  exact Nat.mod_le _ _

theorem PoolLayout.totalSize_of_fits (hp : PoolLayout p) (hfits : DataFits p) :
    p.totalSize.toNat = p.blockSize.toNat * p.blockCount.toNat := by
  rw [hp.total_size, UInt64.toNat_mul]
  exact Nat.mod_eq_of_lt hfits

theorem PoolLayout.lt_blockCount (hp : PoolLayout p) {idx : ℕ}
    (h : idx * p.blockSize.toNat < p.totalSize.toNat) : idx < p.blockCount.toNat := by
  have hlt := Nat.lt_of_lt_of_le h hp.totalSize_le
  rw [Nat.mul_comm] at hlt
  exact Nat.lt_of_mul_lt_mul_left hlt

theorem PoolLayout.toNat_end (hp : PoolLayout p) :
    (p.base + p.totalSize).toNat = p.base.toNat + p.totalSize.toNat := by
  rw [UInt64.toNat_add]
  exact Nat.mod_eq_of_lt hp.region

theorem toNat_blockAddr (hp : PoolLayout p) {idx : ℕ}
    (h : idx * p.blockSize.toNat < p.totalSize.toNat) :
    (blockAddr p idx).toNat = p.base.toNat + idx * p.blockSize.toNat := by
  have hregion := hp.region
  have hidx : idx < 2 ^ 64 :=
    (hp.lt_blockCount h).trans p.blockCount.toNat_lt
  rw [blockAddr, UInt64.toNat_add, UInt64.toNat_mul, UInt64.toNat_ofNat',
    Nat.mod_eq_of_lt hidx, Nat.mod_eq_of_lt (by omega : idx * p.blockSize.toNat < 2 ^ 64)]
  exact Nat.mod_eq_of_lt (by omega)

/-- A free either changes nothing, or it releases a block in use that starts
inside the data region, at the given address. -/
theorem memoryPoolFree_cases (hp : PoolLayout p) (ptr : UInt64) :
    memoryPoolFree p ptr = p ∨
      ∃ idx, idx * p.blockSize.toNat < p.totalSize.toNat ∧ idx ∈ usedSet p ∧
        ptr = blockAddr p idx ∧ memoryPoolFree p ptr = releaseBlock p idx := by
  have hend := hp.toNat_end
  simp only [memoryPoolFree]
  split_ifs with hnull hrange halign hbit
  · exact .inl rfl
  · exact .inl rfl
  · exact .inl rfl
  · exact .inl rfl
  · right
    rw [not_or, UInt64.lt_iff_toNat_lt, ge_iff_le, UInt64.le_iff_toNat_le, hend] at hrange
    have hoffset : (ptr - p.base).toNat = ptr.toNat - p.base.toNat :=
      UInt64.toNat_sub_of_le _ _ (UInt64.le_iff_toNat_le.mpr (by omega))
    have hmod : (ptr.toNat - p.base.toNat) % p.blockSize.toNat = 0 := by
      have hzero := congrArg UInt64.toNat (not_not.mp halign)
      rwa [UInt64.toNat_mod, hoffset] at hzero
    have hidx : ((ptr - p.base) / p.blockSize).toNat * p.blockSize.toNat =
        ptr.toNat - p.base.toNat := by
      rw [UInt64.toNat_div, hoffset]
      exact Nat.div_mul_cancel (Nat.dvd_of_mod_eq_zero hmod)
    have hinside : ((ptr - p.base) / p.blockSize).toNat * p.blockSize.toNat <
        p.totalSize.toNat := by omega
    refine ⟨((ptr - p.base) / p.blockSize).toNat, hinside, ?_, ?_, rfl⟩
    · rw [usedSet, mem_bits]
      refine ⟨Nat.lt_of_lt_of_le (hp.lt_blockCount hinside) hp.bitmap_size, ?_⟩
      rw [and_bitMask_eq_zero (Nat.mod_lt _ (by omega))] at hbit
      simpa [testBit] using hbit
    · rw [← UInt64.toNat_inj, toNat_blockAddr hp hinside]
      omega

/-- The address of a block in use that starts inside the data region is freed. -/
theorem memoryPoolFree_blockAddr (hp : PoolLayout p) {idx : ℕ} (hidx : idx ∈ usedSet p)
    (h : idx * p.blockSize.toNat < p.totalSize.toNat) :
    memoryPoolFree p (blockAddr p idx) = releaseBlock p idx := by
  have hregion := hp.region
  have haddr := toNat_blockAddr hp h
  have hbase : p.base.toNat ≠ 0 := fun hzero => hp.base_ne (UInt64.toNat_inj.mp hzero)
  have hend := hp.toNat_end
  have hnull : blockAddr p idx ≠ 0 := by
    intro hzero
    rw [hzero] at haddr
    change 0 = _ at haddr
    omega
  have hrange : ¬(blockAddr p idx < p.base ∨ blockAddr p idx ≥ p.base + p.totalSize) := by
    rw [UInt64.lt_iff_toNat_lt, ge_iff_le, UInt64.le_iff_toNat_le, hend, haddr]
    omega
  have hoffset : (blockAddr p idx - p.base).toNat = idx * p.blockSize.toNat := by
    rw [UInt64.toNat_sub_of_le _ _ (UInt64.le_iff_toNat_le.mpr (by omega)), haddr]
    omega
  have halign : (blockAddr p idx - p.base) % p.blockSize = 0 := by
    rw [← UInt64.toNat_inj, UInt64.toNat_mod, hoffset, Nat.mul_mod_left]
    rfl
  have hdiv : ((blockAddr p idx - p.base) / p.blockSize).toNat = idx := by
    rw [UInt64.toNat_div, hoffset, Nat.mul_div_cancel _ hp.block_size]
  have hbit : p.bitmap (idx / 8) &&& bitMask (idx % 8) ≠ 0 := by
    rw [ne_eq, and_bitMask_eq_zero (Nat.mod_lt _ (by omega))]
    rw [usedSet, mem_bits] at hidx
    simpa [testBit] using hidx.2
  simp only [memoryPoolFree]
  rw [if_neg hnull, if_neg hrange, if_neg (not_not.mpr halign), hdiv, if_neg hbit]

end Free

section Runs

variable {p : MemoryPool}

theorem poolInv_step (p : MemoryPool) (ev : PoolEvent) (hp : PoolInv p) :
    PoolInv (poolStep p ev) := by
  cases ev with
  | alloc =>
      rcases memoryPoolAlloc_cases hp with ⟨idx, hidx, hfree, halloc⟩ | ⟨-, halloc⟩
      · rw [poolStep, halloc]
        exact poolInv_takeBlock hp hidx hfree
      · rw [poolStep, halloc]
        exact poolInv_failed hp
  | free ptr =>
      rcases memoryPoolFree_cases hp.toPoolLayout ptr with hsame | ⟨idx, -, hidx, -, hfreed⟩
      · rw [poolStep, hsame]
        exact hp
      · rw [poolStep, hfreed]
        exact poolInv_releaseBlock hp hidx
  | reset => exact poolInv_reset hp

theorem poolInv_run (hp : PoolInv p) (evs : List PoolEvent) :
    PoolInv (run poolStep p evs) :=
  run_invariant (P := fun _ => True) (fun p ev _ => poolInv_step p ev) hp (by simp)

theorem poolStep_sizes (p : MemoryPool) (ev : PoolEvent) :
    (poolStep p ev).blockSize = p.blockSize ∧ (poolStep p ev).blockCount = p.blockCount := by
  cases ev with
  | alloc =>
      simp only [poolStep, memoryPoolAlloc]
      cases scanFree p with
      | none => exact ⟨rfl, rfl⟩
      | some idx => exact ⟨rfl, rfl⟩
  | free ptr =>
      simp only [poolStep, memoryPoolFree]
      split_ifs
      all_goals exact ⟨rfl, rfl⟩
  | reset => exact ⟨rfl, rfl⟩

theorem poolRun_sizes (p : MemoryPool) (evs : List PoolEvent) :
    (run poolStep p evs).blockSize = p.blockSize ∧
      (run poolStep p evs).blockCount = p.blockCount := by
  induction evs generalizing p with
  | nil => exact ⟨rfl, rfl⟩
  | cons ev evs ih =>
      rw [run_cons, (ih _).1, (ih _).2]
      exact poolStep_sizes p ev

theorem poolRefined_of_fits (hp : PoolInv p) (hfits : DataFits p) : PoolRefined p := by
  have htotal := hp.totalSize_of_fits hfits
  have hinside : ∀ idx ∈ usedSet p, idx * p.blockSize.toNat < p.totalSize.toNat := by
    intro idx hidx
    rw [htotal, Nat.mul_comm]
    exact Nat.mul_lt_mul_of_pos_left (hp.used_lt idx hidx) hp.block_size
  refine
    { used_lt := hp.used_lt
      alloc_some := ?_
      alloc_none := ?_
      alloc_none_used := ?_
      free_used := ?_
      free_other := ?_
      reset_used := by simp [usedSet, memoryPoolReset]
      used_blocks := hp.used_blocks
      free_blocks := ?_
      peak_used := hp.peak_used
      next_free_hint := hp.next_free_hint }
  · intro ptr hptr
    rcases memoryPoolAlloc_cases hp with ⟨idx, hidx, hfree, halloc⟩ | ⟨-, halloc⟩
    · rw [halloc] at hptr ⊢
      cases hptr
      exact ⟨idx, hidx, hfree, rfl, usedSet_takeBlock hp hidx⟩
    · simp [halloc] at hptr
  · rcases memoryPoolAlloc_cases hp with ⟨idx, hidx, hfree, halloc⟩ | ⟨hfull, halloc⟩
    · simp only [halloc, reduceCtorEq, false_iff]
      intro hfull
      rw [hfull, Finset.mem_range] at hfree
      exact hfree hidx
    · simp [halloc, hfull]
  · intro hnone
    rcases memoryPoolAlloc_cases hp with ⟨idx, hidx, hfree, halloc⟩ | ⟨-, halloc⟩
    · simp [halloc] at hnone
    · rw [halloc]
      rfl
  · intro idx hidx
    rw [memoryPoolFree_blockAddr hp.toPoolLayout hidx (hinside idx hidx)]
    exact usedSet_releaseBlock idx
  · intro ptr hother
    rcases memoryPoolFree_cases hp.toPoolLayout ptr with hsame | ⟨idx, -, hidx, haddr, -⟩
    · exact hsame
    · exact absurd haddr (hother idx hidx)
  · have hcard := hp.free_blocks
    omega

/-- Allocations in a row take one more block each while there are free ones. -/
theorem card_usedSet_allocs (hp : PoolInv p) {k : ℕ}
    (hk : (usedSet p).card + k ≤ p.blockCount.toNat) :
    (usedSet (run poolStep p (List.replicate k .alloc))).card = (usedSet p).card + k := by
  induction k generalizing p with
  | zero => simp
  | succ k ih =>
      rw [List.replicate_succ, run_cons]
      have hstep := poolInv_step p .alloc hp
      have hcount : (poolStep p .alloc).blockCount = p.blockCount := (poolStep_sizes p .alloc).2
      have hcard : (usedSet (poolStep p .alloc)).card = (usedSet p).card + 1 := by
        rcases memoryPoolAlloc_cases hp with ⟨idx, hidx, hfree, halloc⟩ | ⟨hfull, -⟩
        · rw [poolStep, halloc, usedSet_takeBlock hp hidx, Finset.card_insert_of_notMem hfree]
        · rw [hfull, Finset.card_range] at hk
          omega
      rw [ih hstep (by rw [hcard, hcount]; omega), hcard]
      omega

/-- When the size of the data wraps around, the last block starts beyond the
region: no free reaches it. -/
theorem not_poolRefined_of_full (hp : PoolInv p) (hwrap : ¬DataFits p)
    (hfull : usedSet p = Finset.range p.blockCount.toNat) : ¬PoolRefined p := by
  intro href
  have hhint := hp.next_free_hint
  have hlast : p.blockCount.toNat - 1 ∈ usedSet p := by
    rw [hfull, Finset.mem_range]
    omega
  have herase := href.free_used _ hlast
  have houtside : p.totalSize.toNat ≤ (p.blockCount.toNat - 1) * p.blockSize.toNat := by
    have hsize := p.blockSize.toNat_lt
    have hmod : p.totalSize.toNat =
        p.blockSize.toNat * p.blockCount.toNat % 2 ^ 64 := by
      rw [hp.total_size, UInt64.toNat_mul]
    rw [DataFits, Nat.not_lt] at hwrap
    rw [Nat.sub_mul, Nat.one_mul, Nat.mul_comm p.blockCount.toNat]
    omega
  rcases memoryPoolFree_cases hp.toPoolLayout (blockAddr p (p.blockCount.toNat - 1)) with
    hsame | ⟨idx, hinside, hidx, -, hfreed⟩
  · rw [hsame] at herase
    rw [herase] at hlast
    exact Finset.notMem_erase _ _ hlast
  · have hne : p.blockCount.toNat - 1 ≠ idx := by
      rintro rfl
      omega
    rw [hfreed, usedSet_releaseBlock] at herase
    have hmem : p.blockCount.toNat - 1 ∈ (usedSet p).erase idx :=
      Finset.mem_erase.mpr ⟨hne, hlast⟩
    rw [herase] at hmem
    exact Finset.notMem_erase _ _ hmem

/-- For a created pool: the bitmap represents the set of the blocks in use, and
every operation does to it what it should after every history, exactly when the
size of the data region does not wrap around. -/
theorem poolRefined_run_iff (mmap : Mmap) (config : MemoryPoolConfig) {p : MemoryPool}
    (h : memoryPoolCreate mmap config = some p) :
    (∀ evs, PoolRefined (run poolStep p evs)) ↔
      (align8 config.blockSize).toNat * config.blockCount.toNat < 2 ^ 64 := by
  have hp := poolInv_create h
  have hfits : DataFits p ↔
      (align8 config.blockSize).toNat * config.blockCount.toNat < 2 ^ 64 := by
    obtain ⟨base, rfl, -⟩ := memoryPoolCreate_eq_some h
    exact Iff.rfl
  have hsame : ∀ evs, DataFits (run poolStep p evs) ↔ DataFits p := by
    intro evs
    rw [DataFits, (poolRun_sizes p evs).1, (poolRun_sizes p evs).2, DataFits]
  rw [← hfits]
  constructor
  · intro hall
    by_contra hwrap
    have hinv := poolInv_run hp (List.replicate p.blockCount.toNat .alloc)
    refine not_poolRefined_of_full hinv ?_ ?_ (hall _)
    · rwa [hsame]
    · have hempty : (usedSet p).card = 0 := by
        obtain ⟨base, rfl, -⟩ := memoryPoolCreate_eq_some h
        simp [usedSet]
      have hcard := card_usedSet_allocs hp (k := p.blockCount.toNat) (by omega)
      refine Finset.eq_of_subset_of_card_le ?_ ?_
      · intro idx hidx
        exact Finset.mem_range.mpr (hinv.used_lt idx hidx)
      · rw [Finset.card_range, (poolRun_sizes p _).2, hcard]
        omega
  · intro hfit evs
    exact poolRefined_of_fits (poolInv_run hp evs) ((hsame evs).mpr hfit)

/-- The address at which `separateMmap` maps call `k`. -/
def separateAddr (k : ℕ) : UInt64 := 0x100000000000 * (UInt64.ofNat (k % 3) + 1)

theorem separateAddr_region (k : ℕ) {size : UInt64} (hsize : size ≤ 0x100000000000) :
    separateAddr k ≠ 0 ∧ (separateAddr k).toNat + size.toNat < 2 ^ 64 := by
  have haddr : ∀ r < 3, (0x100000000000 * (UInt64.ofNat r + 1) : UInt64) ≠ 0 ∧
      (0x100000000000 * (UInt64.ofNat r + 1) : UInt64).toNat ≤ 2 ^ 46 := by decide
  have hr := haddr (k % 3) (Nat.mod_lt k (by omega))
  rw [UInt64.le_iff_toNat_le] at hsize
  change size.toNat ≤ 0x100000000000 at hsize
  have hle : (separateAddr k).toNat ≤ 2 ^ 46 := hr.2
  exact ⟨hr.1, by omega⟩

def separateMap (k : ℕ) (size : UInt64) : Option UInt64 :=
  if size = 0 then none
  else if size ≤ 0x100000000000 then some (separateAddr k)
  else none

theorem separateMap_region {k : ℕ} {size base : UInt64} (h : separateMap k size = some base) :
    base ≠ 0 ∧ base.toNat + size.toNat < 2 ^ 64 := by
  unfold separateMap at h
  split_ifs at h with hzero hsize
  cases h
  exact separateAddr_region k hsize

theorem separateMap_zero (k : ℕ) : separateMap k 0 = none := rfl

def separateMmap : Mmap := ⟨separateMap, separateMap_zero, separateMap_region⟩

theorem poolRefined_run_small : ∃ p, memoryPoolCreate separateMmap ⟨20, 10, false⟩ = some p ∧
    ∀ evs, PoolRefined (run poolStep p evs) :=
  ⟨_, rfl, (poolRefined_run_iff separateMmap ⟨20, 10, false⟩ rfl).mpr (by decide)⟩

/-- The pool of `2 ^ 32 + 1` blocks of 4 GiB: its data region has 4 GiB. -/
def wrappedPool : MemoryPool :=
  { base := separateAddr 1, bitmap := fun _ => 0, nextFreeHint := 0,
    blockSize := 0x100000000, blockCount := 0x100000001,
    stats := ⟨0x100000001, 0x100000001, 0, 0, 0, 0, 0⟩,
    totalSize := 0x100000000, bitmapSize := 0x20000001 }

/-- The second block of `wrappedPool` starts at the end of the data region, and its
address cannot be freed. -/
theorem wrapped_block_stays_used :
    memoryPoolCreate separateMmap ⟨0x100000000, 0x100000001, false⟩ = some wrappedPool ∧
      ¬PoolRefined (run poolStep wrappedPool [.alloc, .alloc]) := by
  refine ⟨rfl, fun href => ?_⟩
  have hfirst : scanFree wrappedPool = some 0 := by decide +kernel
  have hsecond : scanFree (takeBlock wrappedPool 0) = some 1 := by decide +kernel
  have hrun : run poolStep wrappedPool [.alloc, .alloc] =
      takeBlock (takeBlock wrappedPool 0) 1 := by
    simp only [run_cons, run_nil, poolStep, memoryPoolAlloc, hfirst, hsecond]
  rw [hrun] at href
  have hused : 1 ∈ usedSet (takeBlock (takeBlock wrappedPool 0) 1) := by
    rw [usedSet, mem_bits]
    decide +kernel
  have hfree : memoryPoolFree (takeBlock (takeBlock wrappedPool 0) 1)
      (blockAddr (takeBlock (takeBlock wrappedPool 0) 1) 1) =
        takeBlock (takeBlock wrappedPool 0) 1 := by
    rw [memoryPoolFree, if_neg (by decide +kernel), if_pos (by decide +kernel)]
  have herase := href.free_used 1 hused
  rw [hfree] at herase
  rw [herase] at hused
  exact Finset.notMem_erase _ _ hused

end Runs

end Core

end Shinigami
