import Shinigami.Core.IoUringLoop
import Shinigami.Core.PoolRefinement

/-!
# Buffers of the read requests

`alloc_buf` and `submit_read_op` with the memory they take. A buffer comes from the
memory pool of the loop, whose blocks have one size for all requests, or from the heap
when there is no pool or no free block.
-/

namespace Shinigami

namespace Core

/-- A memory pool in some state of its use. -/
structure BufPool where
  pool : MemoryPool
  inv : PoolInv pool

namespace BufPool

/-- The pool that `memory_pool_create` makes, after the operations `evs` on it. -/
def ofRun {mmap : Mmap} {config : MemoryPoolConfig} {p : MemoryPool}
    (hcreate : memoryPoolCreate mmap config = some p) (evs : List PoolEvent) : BufPool :=
  ⟨run poolStep p evs, poolInv_run (poolInv_create hcreate) evs⟩

def alloc (b : BufPool) : Option UInt64 × BufPool :=
  ((memoryPoolAlloc b.pool).1, ⟨(memoryPoolAlloc b.pool).2, poolInv_step b.pool .alloc b.inv⟩)

/-- Every block is in use. -/
def exhausted (b : BufPool) : Prop :=
  usedSet b.pool = Finset.range b.pool.blockCount.toNat

theorem alloc_eq_none_iff (b : BufPool) : b.alloc.1 = none ↔ b.exhausted := by
  rw [alloc, exhausted]
  rcases memoryPoolAlloc_cases b.inv with ⟨idx, hlt, hfree, heq⟩ | ⟨hfull, heq⟩
  · simp only [heq, reduceCtorEq, false_iff]
    intro hfull
    rw [hfull, Finset.mem_range] at hfree
    exact hfree hlt
  · simp [heq, hfull]

end BufPool

/-- Memory that a request reads into: its address, the bytes that belong to it, and
`pool_buf`. -/
structure Buffer where
  ptr : UInt64
  bytes : ℕ
  poolBuf : Bool

/-- `alloc_buf`; `heap` is the answer of `malloc`. -/
def allocBuf (pool : Option BufPool) (size : ℕ) (heap : Option UInt64) :
    Option Buffer × Option BufPool :=
  let fromHeap := heap.map fun ptr => ⟨ptr, size, false⟩
  match pool with
  | none => (fromHeap, none)
  | some b =>
      if size > 0 then
        match b.alloc with
        | (some ptr, b') => (some ⟨ptr, b.pool.blockSize.toNat, true⟩, some b')
        | (none, b') => (fromHeap, some b')
      else (fromHeap, some b)

/-- What `io_uring_prep_read` is given. -/
structure ReadRequest where
  fd : ℤ
  buffer : Buffer
  length : ℕ

/-- What a call of `submit_read_op` leaves: its result, the request that it prepares
and the pool. -/
structure ReadSubmission where
  result : ℤ
  request : Option ReadRequest
  pool : Option BufPool

def eNoBufs : ℤ := 105

/-- `submit_read_op` with its buffer. `sqe` says whether the ring has room, `pending`
whether the memory for the `io_pending_t` is there. -/
def submitReadOpBuffer (l : IoLoop) (pool : Option BufPool) (opIdx : ℕ)
    (sqe pending : Bool) (heap : Option UInt64) : ReadSubmission :=
  let d := l.ops opIdx
  if d.fd < 0 ∨ d.bufSize = 0 then ⟨-eInval, none, pool⟩
  else if !sqe then ⟨-eNoBufs, none, pool⟩
  else if !pending then ⟨-eNoMem, none, pool⟩
  else
    match allocBuf pool d.bufSize heap with
    | (none, pool') => ⟨-eNoMem, none, pool'⟩
    | (some buf, pool') => ⟨0, some ⟨d.fd, buf, d.bufSize % 2 ^ 32⟩, pool'⟩

section Submit

variable (l : IoLoop) (pool : Option BufPool) (opIdx : ℕ) (sqe pending : Bool)
  (heap : Option UInt64)

def ReadSubmission.outcome (sub : ReadSubmission) : Submission :=
  if sub.request.isSome then .prepared
  else if sub.result = -eNoMem then .unprepared
  else .noRoom

/-- The submission of the loop, with the outcome of the steps that can fail: an entry is left
in the ring when there is no memory for the request. -/
theorem submitReadOp_eq_of_buffer :
    let sub := submitReadOpBuffer l pool opIdx sqe pending heap
    submitReadOp l opIdx sub.outcome =
      if sub.result = 0 then
        { l with inFlight := l.inFlight ++ [.prepared (opPending l opIdx)] }
      else if sub.result = -eNoMem then { l with inFlight := l.inFlight ++ [.leftover] }
      else l := by
  intro sub
  have hsub : sub = submitReadOpBuffer l pool opIdx sqe pending heap := rfl
  clear_value sub
  simp only [submitReadOpBuffer] at hsub
  split_ifs at hsub with hskip hsqe hpending
  · simp [hsub, submitReadOp, hskip, eInval, eNoMem]
  · simp [hsub, ReadSubmission.outcome, submitReadOp, submitPending, eNoBufs, eNoMem]
  · simp [hsub, ReadSubmission.outcome, submitReadOp, submitPending, hskip, eNoMem]
  · split at hsub
    · simp [hsub, ReadSubmission.outcome, submitReadOp, submitPending, hskip, eNoMem]
    · simp [hsub, ReadSubmission.outcome, submitReadOp, submitPending, hskip]

/-- The bytes of a buffer: a block of the pool, whatever was asked for, or else the size
asked for. -/
theorem allocBuf_bytes {size : ℕ} (hsize : 0 < size) :
    (∀ buf ∈ (allocBuf pool size heap).1, size ≤ buf.bytes) ↔
      ∀ b ∈ pool, b.exhausted ∨ size ≤ b.pool.blockSize.toNat := by
  cases pool with
  | none => simp [allocBuf]
  | some b =>
      have hexhausted := b.alloc_eq_none_iff
      rcases hb : b.alloc with ⟨_ | ptr, b'⟩
      · rw [hb] at hexhausted
        simp [allocBuf, hsize, hb, hexhausted.mp rfl]
      · have hroom : ¬b.exhausted := by simp [← hexhausted, hb]
        simp [allocBuf, hsize, hb, hroom]

/-- A submission with room for its request gets the buffer that `alloc_buf` finds. -/
theorem submitReadOpBuffer_request
    (hskip : ¬((l.ops opIdx).fd < 0 ∨ (l.ops opIdx).bufSize = 0)) :
    (submitReadOpBuffer l pool opIdx true true heap).request =
      (allocBuf pool (l.ops opIdx).bufSize heap).1.map fun buf =>
        ⟨(l.ops opIdx).fd, buf, (l.ops opIdx).bufSize % 2 ^ 32⟩ := by
  simp only [submitReadOpBuffer, if_neg hskip, Bool.not_true, Bool.false_eq_true, if_false]
  split
  · case h_1 heq => simp [heq]
  · case h_2 heq => simp [heq]

/-- The buffer of a read request has the bytes that the descriptor asks for exactly
when there is no pool, or no block of it is free, or its blocks are large enough. -/
theorem readBuffer_fits_iff :
    (∀ r ∈ (submitReadOpBuffer l pool opIdx sqe pending heap).request,
        (l.ops opIdx).bufSize ≤ r.buffer.bytes) ↔
      (l.ops opIdx).fd < 0 ∨ sqe = false ∨ pending = false ∨
        ∀ b ∈ pool, b.exhausted ∨ (l.ops opIdx).bufSize ≤ b.pool.blockSize.toNat := by
  by_cases hskip : (l.ops opIdx).fd < 0 ∨ (l.ops opIdx).bufSize = 0
  · refine iff_of_true (by simp [submitReadOpBuffer, hskip]) ?_
    rcases hskip with hfd | hzero
    · exact .inl hfd
    · exact .inr (.inr (.inr fun b _ => .inr (hzero ▸ Nat.zero_le _)))
  have hpos : 0 < (l.ops opIdx).bufSize := by omega
  have hbytes := allocBuf_bytes pool heap hpos
  cases sqe with
  | false => simp [submitReadOpBuffer, hskip]
  | true =>
      cases pending with
      | false => simp [submitReadOpBuffer, hskip]
      | true =>
          rw [submitReadOpBuffer_request l pool opIdx heap hskip]
          rw [not_or] at hskip
          simpa [hskip.1] using hbytes

end Submit

def readLoop : IoLoop := (ioLoopRegisterOp ioLoopCreate ⟨5, .read, 64, some 0, 0, 0⟩).1

def smallPool : BufPool := @BufPool.ofRun separateMmap ⟨8, 10, false⟩ _ rfl []

/-- The read of 64 bytes is given a block of eight. -/
theorem not_readBuffer_fits_small :
    ¬∀ (l : IoLoop) (pool : Option BufPool) (opIdx : ℕ) (sqe pending : Bool)
        (heap : Option UInt64),
      ∀ r ∈ (submitReadOpBuffer l pool opIdx sqe pending heap).request,
        (l.ops opIdx).bufSize ≤ r.buffer.bytes := by
  intro h
  have hfits := h readLoop (some smallPool) 0 true true none
  have hskip : ¬((readLoop.ops 0).fd < 0 ∨ (readLoop.ops 0).bufSize = 0) := by decide
  have hroom : ¬smallPool.exhausted := by
    have hused : usedSet smallPool.pool = ∅ := Bitmap.bits_zero _
    rw [BufPool.exhausted, hused]
    decide
  have hblock : smallPool.pool.blockSize.toNat < 64 := by decide
  have hbytes : ∀ buf ∈ (allocBuf (some smallPool) 64 none).1, 64 ≤ buf.bytes := by
    intro buf hbuf
    refine hfits ⟨5, buf, 64⟩ ?_
    rw [submitReadOpBuffer_request _ _ _ _ hskip]
    exact Option.mem_map_of_mem (fun buf => (⟨5, buf, 64⟩ : ReadRequest)) hbuf
  rcases (allocBuf_bytes (some smallPool) none (by decide)).mp hbytes smallPool rfl with h | h
  · exact hroom h
  · omega

end Core

end Shinigami
