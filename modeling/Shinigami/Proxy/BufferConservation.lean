import Mathlib.Algebra.Order.BigOperators.Group.Multiset
import Mathlib.Data.List.Induction
import Mathlib.Tactic.Abel
import Shinigami.Proxy.ReceiveBuffers
import Shinigami.Security.Verify.Stream

/-!
# Who holds the receive buffers

Each block in use is held by the slot, by the io thread, by a connecting thread or by the
caller, except for those that have leaked. Every step but two keeps it so: a message put
into the slot over another one, and a method that keeps the buffer of its reply, each leak
the block of a message with a payload. In a run in which no two operations on the pool
overlap, `Conserved` holds between calls exactly as long as neither has happened.
-/

namespace Shinigami

namespace Proxy

namespace ReceiveBuffers

open Shinigami.Core Ownership ServiceManager Verify

/-- The block behind a `pool_block`. -/
def held : Option UInt64 → Multiset UInt64
  | none => 0
  | some ptr => {ptr}

def Received.block (m : Received) : Multiset UInt64 := held m.poolBlock

def blockOf (m : Option Received) : Multiset UInt64 := held (m.bind Received.poolBlock)

def Phase.block : Phase → Multiset UInt64
  | .holding _ reply => reply.block
  | _ => 0

def inUse (pool : Option BlockPool) : Finset UInt64 := pool.elim ∅ BlockPool.inUse

def State.owned (s : State) : Multiset UInt64 :=
  s.phase.block + blockOf s.pending.msg + blockOf s.received +
    (s.welcomes.map Received.block).sum

/-- Between two calls the blocks in use are that of the message in the slot and those of
the messages being received, and so at most one while no message is being received. -/
structure Conserved (s : State) : Prop where
  held : ∀ b ∈ inUse s.pool, b ∈ blockOf s.pending.msg ∨ b ∈ blockOf s.received ∨
    ∃ m ∈ s.welcomes, b ∈ m.block
  le_one : s.received = none → s.welcomes = [] → (inUse s.pool).card ≤ 1

def BlocksConserved (s : State) : Prop := s.phase = .idle → Conserved s

def State.keepsBlock (s : State) : Bool :=
  match s.phase with
  | .holding use reply => !use.releases && reply.poolBlock.isSome
  | _ => false

/-- The io thread has a message in its hands, and the slot holds a message with a payload
that a call has given up. -/
def State.overwritesBlock (s : State) : Bool :=
  s.received.isSome && !s.pending.ready && s.pending.msg.any (·.poolBlock.isSome)

/-- No block loses its owner. -/
structure NothingLost (s : State) (ev : Event) : Prop where
  kept : ev = .finish → s.keepsBlock = false
  overwritten : ev = .route → s.overwritesBlock = false

def State.lost (s : State) : Event → Finset UInt64
  | .finish =>
      match s.phase with
      | .holding use reply => if use.releases then ∅ else reply.block.toFinset
      | _ => ∅
  | .route =>
      if s.received.isSome ∧ s.pending.ready = false then (blockOf s.pending.msg).toFinset else ∅
  | _ => ∅

section Blocks

variable {pool : Option BlockPool} {owned : Multiset UInt64}

theorem sound_allocBlock (h : Sound (inUse pool) owned) :
    Sound (inUse (allocBlock pool).2) (held (allocBlock pool).1 + owned) ∧
      leaked (inUse (allocBlock pool).2) (held (allocBlock pool).1 + owned) =
        leaked (inUse pool) owned := by
  cases pool with
  | none => simpa [allocBlock, held] using h
  | some p =>
      cases hptr : p.alloc.1 with
      | none =>
          have hsame : inUse (some p.alloc.2) = inUse (some p) := BlockPool.alloc_none hptr
          simpa [allocBlock, held, hptr, hsame] using h
      | some ptr =>
          obtain ⟨hfree, halloc⟩ := BlockPool.alloc_some hptr
          have hinsert : inUse (some p.alloc.2) = insert ptr (inUse (some p)) := halloc
          simp only [allocBlock, held, hptr, Multiset.singleton_add, hinsert]
          exact ⟨h.acquire hfree, leaked_acquire hfree⟩

theorem sound_releaseBuffer {ptr : Option UInt64} (h : Sound (inUse pool) (held ptr + owned)) :
    Sound (inUse (releaseBuffer pool ptr)) owned ∧
      leaked (inUse (releaseBuffer pool ptr)) owned =
        leaked (inUse pool) (held ptr + owned) := by
  cases ptr with
  | none => simpa [releaseBuffer, held] using h
  | some ptr =>
      simp only [held, Multiset.singleton_add] at h ⊢
      have herase : inUse (releaseBuffer pool (some ptr)) = (inUse pool).erase ptr := by
        cases pool with
        | none => rfl
        | some p => exact p.inUse_free ptr
      rw [herase]
      exact ⟨h.release, leaked_release _ _ _⟩

theorem sound_forget {ptr : Option UInt64} (h : Sound (inUse pool) (held ptr + owned)) :
    Sound (inUse pool) owned ∧
      leaked (inUse pool) owned =
        (held ptr).toFinset ∪ leaked (inUse pool) (held ptr + owned) := by
  cases ptr with
  | none => simpa [held] using h
  | some ptr =>
      simp only [held, Multiset.singleton_add] at h ⊢
      refine ⟨h.forget, ?_⟩
      rw [leaked_forget h, Multiset.toFinset_singleton, Finset.insert_eq]

end Blocks

def State.leaked (s : State) : Finset UInt64 := Ownership.leaked (inUse s.pool) s.owned

/-- From `s` to `s'` the blocks `lost` lose their owner. -/
def Loses (s s' : State) (lost : Finset UInt64) : Prop :=
  Sound (inUse s.pool) s.owned →
    Sound (inUse s'.pool) s'.owned ∧ s'.leaked = lost ∪ s.leaked

theorem loses_empty_iff {s s' : State} : Loses s s' ∅ ↔
    (Sound (inUse s.pool) s.owned → Sound (inUse s'.pool) s'.owned ∧ s'.leaked = s.leaked) := by
  rw [Loses, Finset.empty_union]

theorem loses_of_eq {s s' : State} (hpool : s'.pool = s.pool) (howned : s'.owned = s.owned) :
    Loses s s' ∅ := by
  rw [loses_empty_iff, State.leaked, State.leaked, hpool, howned]
  exact fun h => ⟨h, rfl⟩

section Steps

variable (s : State)

/-- `recvMessage` returns a message with a block of its own, or leaves the blocks in use
as they were. -/
theorem State.recvMessage_cases (env : RecvEnv) : ∃ conn stream pool,
    (∃ m, s.recvMessage env =
        ({ s with conn := conn, stream := stream, pool := pool }, .ok m) ∧
      ∀ owned, Sound (inUse s.pool) owned → Sound (inUse pool) (m.block + owned) ∧
        Ownership.leaked (inUse pool) (m.block + owned) =
          Ownership.leaked (inUse s.pool) owned) ∨
    ∃ e, s.recvMessage env =
        ({ s with conn := conn, stream := stream, pool := pool }, .error e) ∧
      ∀ owned, Sound (inUse s.pool) owned → Sound (inUse pool) owned ∧
        Ownership.leaked (inUse pool) owned = Ownership.leaked (inUse s.pool) owned := by
  obtain ⟨block, pool, hasked, hblock⟩ : ∃ block pool,
      (if asksForBlock s.conn env s.stream then allocBlock s.pool else (none, s.pool)) =
        (block, pool) ∧
      ∀ owned, Sound (inUse s.pool) owned → Sound (inUse pool) (held block + owned) ∧
        Ownership.leaked (inUse pool) (held block + owned) =
          Ownership.leaked (inUse s.pool) owned := by
    by_cases hasks : asksForBlock s.conn env s.stream
    · exact ⟨_, _, if_pos hasks, fun owned => sound_allocBlock⟩
    · exact ⟨_, _, if_neg hasks, fun owned h => by simpa [held] using h⟩
  simp only [State.recvMessage, hasked]
  cases hresult : (s.conn.recvMessage { env with poolAllocOk := block.isSome } s.stream).result with
  | ok msg => exact ⟨_, _, pool, .inl ⟨⟨msg, block⟩, rfl, hblock⟩⟩
  | error e =>
      refine ⟨_, _, releaseBuffer pool block, .inr ⟨e, rfl, fun owned h => ?_⟩⟩
      obtain ⟨hsound, hleaked⟩ := hblock owned h
      obtain ⟨hsound', hleaked'⟩ := sound_releaseBuffer hsound
      exact ⟨hsound', hleaked'.trans hleaked⟩

theorem State.loses_enter (call : ApiCall) (hidle : s.phase = .idle) :
    Loses s (s.enter call) ∅ := by
  unfold State.enter
  split_ifs
  · exact loses_of_eq rfl (by simp [State.owned, State.leave, hidle])
  · exact loses_of_eq rfl (by simp [State.owned, State.leave, hidle])
  · exact loses_of_eq rfl (by simp [State.owned, State.leave, hidle])
  · exact loses_of_eq rfl (by simp [State.owned, Phase.block, PendingReply.reset, hidle])
  · exact loses_of_eq rfl (by simp [State.owned, Phase.block, hidle])

theorem State.loses_send (env : SendEnv) {call : ApiCall} (hphase : s.phase = .sending call) :
    Loses s (s.send call env) ∅ := by
  unfold State.send
  dsimp only
  split <;> exact loses_of_eq rfl (by simp [State.owned, State.leave, Phase.block, hphase])

theorem State.loses_wake (timedOut : Bool) {use : ReplyUse} (hphase : s.phase = .waiting use) :
    Loses s (s.wake use timedOut) ∅ := by
  unfold State.wake
  split_ifs with hready
  · refine loses_of_eq rfl ?_
    obtain ⟨m, hm⟩ := Option.isSome_iff_exists.mp (s.pending.filled hready)
    simp [State.owned, Phase.block, PendingReply.taken, blockOf, held, hphase, hm,
      Received.block]
  · exact loses_of_eq rfl (by simp [State.owned, State.leave, Phase.block, hphase])
  · exact loses_of_eq rfl rfl

theorem State.phase_finish {use : ReplyUse} {reply : Received}
    (hphase : s.phase = .holding use reply) : (s.step .finish).phase = .idle := by
  simp only [State.step, hphase, State.finish, State.leave]

theorem State.loses_finish {use : ReplyUse} {reply : Received}
    (hphase : s.phase = .holding use reply) :
    Loses s (s.finish use reply) (if use.releases then ∅ else reply.block.toFinset) := by
  intro h
  have howned : s.owned = held reply.poolBlock + (s.finish use reply).owned := by
    simp [State.owned, State.finish, State.leave, Phase.block, Received.block, hphase,
      add_assoc]
  rw [howned] at h
  simp only [State.leaked, howned]
  cases hreleases : use.releases with
  | true =>
      have hpool : (s.finish use reply).pool = releaseBuffer s.pool reply.poolBlock := by
        simp [State.finish, State.leave, hreleases]
      rw [hpool, if_pos rfl, Finset.empty_union]
      exact sound_releaseBuffer h
  | false =>
      have hpool : (s.finish use reply).pool = s.pool := by
        simp [State.finish, State.leave, hreleases]
      rw [hpool, if_neg Bool.false_ne_true]
      exact sound_forget h

theorem State.loses_receive (env : RecvEnv) (hnone : s.received = none) :
    Loses s (s.receive env) ∅ := by
  rw [loses_empty_iff]
  intro h
  obtain ⟨conn, stream, pool, ⟨m, hrecv, hblock⟩ | ⟨e, hrecv, hblock⟩⟩ := s.recvMessage_cases env
  · have howned : (s.receive env).owned = m.block + s.owned := by
      simp only [State.receive, hrecv, State.owned, hnone, blockOf, Option.bind_some,
        Option.bind_none, held, add_zero, Received.block]
      abel
    have hpool : (s.receive env).pool = pool := by simp only [State.receive, hrecv]
    rw [State.leaked, hpool, howned]
    exact hblock _ h
  · have hpool : (s.receive env).pool = pool := by
      simp only [State.receive, hrecv]
      cases e <;> rfl
    have howned : (s.receive env).owned = s.owned := by
      simp only [State.receive, hrecv]
      cases e <;> rfl
    rw [State.leaked, hpool, howned]
    exact hblock _ h

theorem State.loses_route {m : Received} (hm : s.received = some m) :
    Loses s (s.route m)
      (if s.pending.ready = false then (blockOf s.pending.msg).toFinset else ∅) := by
  intro h
  cases hready : s.pending.ready with
  | true =>
      have hpool : (s.route m).pool = releaseBuffer s.pool m.poolBlock := by
        simp [State.route, hready]
      have howned : s.owned = held m.poolBlock + (s.route m).owned := by
        simp only [State.owned, State.route, hready, if_true, hm, blockOf, Option.bind_some,
          Option.bind_none, held, add_zero]
        abel
      rw [howned] at h
      simp only [State.leaked, howned, hpool, Bool.true_eq_false, if_false, Finset.empty_union]
      exact sound_releaseBuffer h
  | false =>
      have hpool : (s.route m).pool = s.pool := by simp [State.route, hready]
      have howned : s.owned = held (s.pending.msg.bind Received.poolBlock) + (s.route m).owned := by
        simp only [State.owned, State.route, hready, Bool.false_eq_true, if_false, hm, blockOf,
          Option.bind_some, Option.bind_none, held, add_zero, PendingReply.fill]
        abel
      rw [howned] at h
      simp only [State.leaked, howned, hpool, if_true]
      exact sound_forget h

theorem State.loses_dial (auth : ProxyAuth) (env : SendEnv) : Loses s (s.dial auth env) ∅ := by
  unfold State.dial
  dsimp only
  split_ifs
  · exact loses_of_eq rfl rfl
  · split <;> exact loses_of_eq rfl rfl
  · split <;> exact loses_of_eq rfl rfl

theorem State.loses_welcome (env : RecvEnv) : Loses s (s.welcome env) ∅ := by
  rw [loses_empty_iff]
  intro h
  obtain ⟨conn, stream, pool, ⟨m, hrecv, hblock⟩ | ⟨e, hrecv, hblock⟩⟩ := s.recvMessage_cases env
  · have howned : (s.welcome env).owned = m.block + s.owned := by
      simp only [State.welcome, hrecv, State.owned, List.map_cons, List.sum_cons]
      abel
    have hpool : (s.welcome env).pool = pool := by simp only [State.welcome, hrecv]
    rw [State.leaked, hpool, howned]
    exact hblock _ h
  · have hpool : (s.welcome env).pool = pool := by simp only [State.welcome, hrecv]
    have howned : (s.welcome env).owned = s.owned := by simp only [State.welcome, hrecv]; rfl
    rw [State.leaked, hpool, howned]
    exact hblock _ h

theorem State.loses_step (ev : Event) : Loses s (s.step ev) (s.lost ev) := by
  cases ev with
  | enter call =>
      rw [State.step]
      split
      · next hidle => exact s.loses_enter call hidle
      · exact loses_of_eq rfl rfl
  | send env =>
      rw [State.step]
      split
      · next hphase => exact s.loses_send env hphase
      · exact loses_of_eq rfl rfl
  | wake timedOut =>
      rw [State.step]
      split
      · next hphase => exact s.loses_wake timedOut hphase
      · exact loses_of_eq rfl rfl
  | finish =>
      simp only [State.step, State.lost]
      cases hphase : s.phase with
      | holding use reply => exact s.loses_finish hphase
      | idle | sending | waiting => exact loses_of_eq rfl rfl
  | receive env =>
      rw [State.step]
      split_ifs with hnone
      · exact s.loses_receive env (Option.isNone_iff_eq_none.mp hnone)
      · exact loses_of_eq rfl rfl
  | route =>
      rw [State.step, State.lost]
      cases hm : s.received with
      | none => exact loses_of_eq rfl rfl
      | some m => simpa using s.loses_route hm
  | dial auth env => exact s.loses_dial auth env
  | welcome env => exact s.loses_welcome env
  | welcomed =>
      rw [State.step]
      split
      · exact loses_of_eq rfl rfl
      · next m welcomes hwelcomes =>
          refine loses_empty_iff.mpr fun h => ?_
          have howned : s.owned = held m.poolBlock +
              { s with welcomes := welcomes : State }.owned := by
            simp only [State.owned, hwelcomes, List.map_cons, List.sum_cons, Received.block]
            abel
          rw [howned] at h
          simp only [State.leaked, howned]
          exact sound_releaseBuffer h
  | established ok =>
      rw [State.step]
      split_ifs <;> exact loses_of_eq rfl rfl
  | deliver | hangUp => exact loses_of_eq rfl rfl

end Steps

@[simp] theorem held_eq_zero_iff (ptr : Option UInt64) : held ptr = 0 ↔ ptr = none := by
  cases ptr <;> simp [held]

theorem State.lost_eq_empty_iff (s : State) (ev : Event) :
    s.lost ev = ∅ ↔ NothingLost s ev := by
  cases ev with
  | finish =>
      have hkeeps : s.lost .finish = ∅ ↔ s.keepsBlock = false := by
        simp only [State.lost, State.keepsBlock]
        cases s.phase with
        | holding use reply =>
            cases use.releases <;> simp [Received.block]
        | idle | sending | waiting => simp
      exact hkeeps.trans ⟨fun h => ⟨fun _ => h, nofun⟩, fun h => h.kept rfl⟩
  | route =>
      have hoverwrites : s.lost .route = ∅ ↔ s.overwritesBlock = false := by
        simp only [State.lost, State.overwritesBlock, blockOf]
        cases s.received <;> cases s.pending.ready <;> cases s.pending.msg <;>
          simp
      exact hoverwrites.trans ⟨fun h => ⟨nofun, fun _ => h⟩, fun h => h.overwritten rfl⟩
  | _ => exact ⟨fun _ => ⟨nofun, nofun⟩, fun _ => rfl⟩

variable {pool : Option BlockPool}

structure Unused (pool : Option BlockPool) : Prop where
  empty : inUse pool = ∅

theorem unused_recvPool (mmap : Mmap) (queueDepth : QueueDepth) :
    Unused (recvPool mmap queueDepth) := by
  constructor
  unfold recvPool
  split
  · rfl
  · next p h =>
      obtain ⟨base, rfl, -⟩ := memoryPoolCreate_eq_some h
      simp [inUse, BlockPool.inUse, usedSet]

theorem owned_init (pool : Option BlockPool) : (init pool).owned = 0 := by
  simp [State.owned, init, Phase.block, PendingReply.taken, blockOf, held]

/-- No thread enters the pool while another one is there. -/
def Undisturbed (t : Threads) : Access → Prop
  | .enterPool => t.inPool = 0
  | .act _ _ => True

instance (t : Threads) (a : Access) : Decidable (Undisturbed t a) := by
  cases a <;> unfold Undisturbed <;> infer_instance

def Threads.NothingLost (t : Threads) : Access → Prop
  | .enterPool => True
  | .act ev _ => ReceiveBuffers.NothingLost t.proxy ev

theorem nothingLost_of_usesPool {s : State} {ev : Event} (h : s.usesPool ev = true) :
    NothingLost s ev where
  kept hev := by
    subst hev
    unfold State.keepsBlock
    cases hphase : s.phase with
    | holding use reply =>
        have huse : use.releases = true := by
          simp only [State.usesPool, hphase, Bool.and_eq_true] at h
          exact h.1
        simp [huse]
    | idle | sending | waiting => rfl
  overwritten hev := by
    subst hev
    have hready : s.pending.ready = true := by
      simp only [State.usesPool, Bool.and_eq_true] at h
      exact h.2
    simp [State.overwritesBlock, hready]

theorem Threads.raced_of_threadSafe (pool : Option BlockPool) (evs : List Access) :
    (run (Threads.step true) (start pool) evs).raced = false := by
  refine run_invariant (I := fun t : Threads => t.raced = false) (P := fun _ => True)
    (fun t a _ h => ?_) rfl fun _ _ => trivial
  cases a with
  | enterPool =>
      simp only [Threads.step, true_and]
      split_ifs with hinside
      · exact h
      · simp [h, hinside]
  | act ev left =>
      simp only [Threads.step]
      split_ifs <;> exact h

theorem Threads.step_act {t : Threads} (hraced : t.raced = false) (threadSafe : Bool)
    (ev : Event) (left : Option BlockPool) :
    (t.step threadSafe (.act ev left)).raced = false ∧
      ((t.step threadSafe (.act ev left)).proxy = t.proxy.step ev ∨
        t.proxy.usesPool ev = true ∧ t.step threadSafe (.act ev left) = t) := by
  have hnot : ¬t.raced = true := by simp [hraced]
  simp only [Threads.step, if_neg hnot]
  split_ifs with huses
  · exact ⟨hraced, .inr ⟨huses, rfl⟩⟩
  · exact ⟨hraced, .inl rfl⟩
  · exact ⟨hraced, .inl rfl⟩

/-- After a run without overlapping operations no block has leaked exactly when no step of
the run has lost one. -/
theorem leaked_run_eq_empty_iff (hpool : Unused pool) {threadSafe : Bool} (evs : List Access)
    (hevs : Guarded (Threads.step threadSafe) Undisturbed (start pool) evs) :
    (run (Threads.step threadSafe) (start pool) evs).raced = false ∧
      Sound (inUse (run (Threads.step threadSafe) (start pool) evs).proxy.pool)
        (run (Threads.step threadSafe) (start pool) evs).proxy.owned ∧
      ((run (Threads.step threadSafe) (start pool) evs).proxy.leaked = ∅ ↔
        Guarded (Threads.step threadSafe) Threads.NothingLost (start pool) evs) := by
  induction evs using List.reverseRecOn with
  | nil =>
      have hused : inUse (init pool).pool = ∅ := hpool.empty
      simp only [run_nil, start, State.leaked, owned_init, hused]
      exact ⟨trivial, sound_empty, iff_of_true rfl trivial⟩
  | append_singleton evs a ih =>
      obtain ⟨hbefore, hlast⟩ := guarded_append.mp hevs
      obtain ⟨hraced, hsound, hleaked⟩ := ih hbefore
      rw [run_concat, guarded_append]
      generalize run (Threads.step threadSafe) (start pool) evs = t at *
      cases a with
      | enterPool =>
          have hinside : t.inPool = 0 := hlast.1
          have hstep : t.step threadSafe .enterPool = { t with inPool := 1 } := by
            simp [Threads.step, hinside, hraced]
          rw [hstep]
          refine ⟨hraced, hsound, hleaked.trans ?_⟩
          simp [Guarded, Threads.NothingLost]
      | act ev left =>
          obtain ⟨hraced', hproxy | ⟨huses, hsame⟩⟩ := Threads.step_act hraced threadSafe ev left
          · obtain ⟨hsound', hleaked'⟩ := t.proxy.loses_step ev hsound
            rw [hproxy]
            refine ⟨hraced', hsound', ?_⟩
            rw [hleaked', Finset.union_eq_empty, State.lost_eq_empty_iff, hleaked, and_comm]
            simp [Guarded, Threads.NothingLost]
          · rw [hsame]
            refine ⟨hraced, hsound, hleaked.trans ?_⟩
            simp [Guarded, Threads.NothingLost, nothingLost_of_usesPool huses]

theorem mem_sum_block {b : UInt64} (ms : List Received) :
    b ∈ (ms.map Received.block).sum ↔ ∃ m ∈ ms, b ∈ m.block := by
  induction ms with
  | nil => simp
  | cons m ms ih => simp [ih]

/-- Between two calls the blocks are conserved exactly when none has leaked. -/
theorem State.conserved_iff (s : State) (hidle : s.phase = .idle) :
    Conserved s ↔ s.leaked = ∅ := by
  have howned : ∀ b, b ∈ s.owned ↔ b ∈ blockOf s.pending.msg ∨ b ∈ blockOf s.received ∨
      ∃ m ∈ s.welcomes, b ∈ m.block := by
    intro b
    simp [State.owned, hidle, Phase.block, mem_sum_block, or_assoc]
  rw [State.leaked, leaked_eq_empty_iff]
  constructor
  · exact fun h b hb => (howned b).mpr (h.held b hb)
  · intro h
    refine ⟨fun b hb => (howned b).mp (h b hb), fun hreceived hwelcomes => ?_⟩
    refine Finset.card_le_one.mpr fun a ha b hb => ?_
    have hslot : ∀ c ∈ inUse s.pool, c ∈ blockOf s.pending.msg := by
      intro c hc
      simpa [hreceived, hwelcomes, blockOf, held] using (howned c).mp (h c hc)
    have ha' := hslot a ha
    have hb' := hslot b hb
    unfold blockOf at ha' hb'
    cases hptr : s.pending.msg.bind Received.poolBlock with
    | none => simp [hptr, held] at ha'
    | some ptr =>
        simp only [hptr, held, Multiset.mem_singleton] at ha' hb'
        exact ha'.trans hb'.symm

/-- In every run in which no two operations on the pool overlap, the blocks are conserved
between calls exactly when no call has ended behind a step that lost a block. -/
theorem blocksConserved_run_iff (mmap : Mmap) (queueDepth : QueueDepth) (evs : List Access)
    (hevs : Guarded (Threads.step (recvPoolConfig queueDepth).threadSafe) Undisturbed
      (start (recvPool mmap queueDepth)) evs) :
    (∀ before, before <+: evs →
        BlocksConserved (run (Threads.step (recvPoolConfig queueDepth).threadSafe)
          (start (recvPool mmap queueDepth)) before).proxy) ↔
      ∀ before, before <+: evs →
        (run (Threads.step (recvPoolConfig queueDepth).threadSafe)
          (start (recvPool mmap queueDepth)) before).proxy.phase = .idle →
        Guarded (Threads.step (recvPoolConfig queueDepth).threadSafe) Threads.NothingLost
          (start (recvPool mmap queueDepth)) before := by
  refine forall_congr' fun before => forall_congr' fun hbefore => ?_
  refine forall_congr' fun hidle => ?_
  obtain ⟨after, rfl⟩ := hbefore
  rw [State.conserved_iff _ hidle]
  exact (leaked_run_eq_empty_iff (unused_recvPool mmap queueDepth) before
    (guarded_append.mp hevs).1).2.2

/-- A method that returns with the buffer of its reply leaves a block that nobody holds. -/
theorem not_blocksConserved_of_keepsBlock (hpool : Unused pool) {threadSafe : Bool}
    {evs : List Access} (hevs : Guarded (Threads.step threadSafe) Undisturbed (start pool) evs)
    (hkeeps : (run (Threads.step threadSafe) (start pool) evs).proxy.keepsBlock = true) :
    ¬BlocksConserved (run (Threads.step threadSafe) (start pool)
      (evs ++ [.act .finish none])).proxy := by
  have hlast : Guarded (Threads.step threadSafe) Undisturbed (start pool)
      (evs ++ [.act .finish none]) := guarded_append.mpr ⟨hevs, trivial, trivial⟩
  have hraced := (leaked_run_eq_empty_iff hpool evs hevs).1
  have hleaked := (leaked_run_eq_empty_iff hpool _ hlast).2.2
  rw [guarded_append] at hleaked
  rw [run_concat] at hleaked ⊢
  generalize run (Threads.step threadSafe) (start pool) evs = t at *
  have hlost : ¬NothingLost t.proxy .finish := fun h => by
    have hkept := h.kept rfl
    rw [hkeeps] at hkept
    cases hkept
  obtain ⟨use, reply, hphase⟩ : ∃ use reply, t.proxy.phase = .holding use reply := by
    unfold State.keepsBlock at hkeeps
    split at hkeeps
    · next use reply hphase => exact ⟨use, reply, hphase⟩
    · cases hkeeps
  have hidle : (t.step threadSafe (.act .finish none)).proxy.phase = .idle := by
    obtain ⟨-, hproxy | ⟨huses, -⟩⟩ := Threads.step_act hraced threadSafe .finish none
    · rw [hproxy]
      exact State.phase_finish _ hphase
    · exact absurd (nothingLost_of_usesPool huses) hlost
  intro hconserved
  exact hlost (hleaked.mp ((State.conserved_iff _ hidle).mp (hconserved hidle))).2.1

/-- The method whose call is under way gives the buffer back. -/
def Phase.Releases : Phase → Prop
  | .idle => True
  | .sending call => call.Releases
  | .waiting use => use.releases = true
  | .holding use _ => use.releases = true

theorem Phase.Releases.keepsBlock {s : State} (h : s.phase.Releases) : s.keepsBlock = false := by
  unfold State.keepsBlock
  cases hphase : s.phase with
  | holding use reply =>
      have hreleases : use.releases = true := by simpa [Phase.Releases, hphase] using h
      simp [hreleases]
  | idle | sending | waiting => rfl

section OtherThreads

variable (s : State)

theorem State.phase_receive (env : RecvEnv) : (s.receive env).phase = s.phase := by
  obtain ⟨conn, stream, pool, ⟨m, hrecv, -⟩ | ⟨e, hrecv, -⟩⟩ := s.recvMessage_cases env
  · simp only [State.receive, hrecv]
  · simp only [State.receive, hrecv]
    cases e <;> rfl

theorem State.phase_route (m : Received) : (s.route m).phase = s.phase := by
  unfold State.route
  split_ifs <;> rfl

theorem State.phase_dial (auth : ProxyAuth) (env : SendEnv) :
    (s.dial auth env).phase = s.phase := by
  unfold State.dial
  dsimp only
  split_ifs
  · rfl
  · split <;> rfl
  · split <;> rfl

theorem State.phase_welcome (env : RecvEnv) : (s.welcome env).phase = s.phase := by
  obtain ⟨conn, stream, pool, ⟨m, hrecv, -⟩ | ⟨e, hrecv, -⟩⟩ := s.recvMessage_cases env
  · simp only [State.welcome, hrecv]
  · simp only [State.welcome, hrecv]

end OtherThreads

section Caller

variable {s : State}

theorem ApiCall.Releases.enter {call : ApiCall} (h : call.Releases) :
    (s.enter call).phase.Releases := by
  unfold State.enter
  split_ifs
  · trivial
  · trivial
  · trivial
  · exact h
  · exact h

theorem ApiCall.Releases.send {call : ApiCall} (h : call.Releases) (env : SendEnv) :
    (s.send call env).phase.Releases := by
  unfold State.send
  dsimp only
  split
  · trivial
  · next huse => exact h _ huse
  · trivial

theorem Phase.Releases.wake (h : s.phase.Releases) {use : ReplyUse}
    (hphase : s.phase = .waiting use) (timedOut : Bool) :
    (s.wake use timedOut).phase.Releases := by
  have huse : use.releases = true := by rwa [hphase] at h
  unfold State.wake
  split_ifs
  · exact huse
  · trivial
  · exact h

theorem Phase.Releases.step (h : s.phase.Releases) {ev : Event}
    (hev : ∀ call, ev = .enter call → call.Releases) : (s.step ev).phase.Releases := by
  cases ev with
  | enter call =>
      rw [State.step]
      split
      · exact ApiCall.Releases.enter (hev call rfl)
      · exact h
  | send env =>
      rw [State.step]
      split
      · next call hphase =>
          rw [hphase] at h
          exact ApiCall.Releases.send h env
      · exact h
  | wake timedOut =>
      rw [State.step]
      split
      · next use hphase => exact h.wake hphase timedOut
      · exact h
  | finish =>
      rw [State.step]
      split
      · trivial
      · exact h
  | receive env =>
      rw [State.step]
      split_ifs
      · rwa [s.phase_receive]
      · exact h
  | route =>
      rw [State.step]
      split
      · rwa [s.phase_route]
      · exact h
  | dial auth env => exact (s.phase_dial auth env).symm ▸ h
  | welcome env => exact (s.phase_welcome env).symm ▸ h
  | welcomed =>
      rw [State.step]
      split <;> exact h
  | established ok =>
      rw [State.step]
      split_ifs <;> exact h
  | deliver | hangUp => exact h

end Caller

/-- As long as no program calls `getPin` or `captureStillFrame`, blocks are lost in the
slot only. -/
theorem nothingLost_iff_of_offered (pool : Option BlockPool) (threadSafe : Bool)
    {evs : List Access}
    (hoffered : ∀ call left, .act (.enter call) left ∈ evs → call.Offered ∧
      (∀ pin, call ≠ GpioProxy.getPin pin) ∧ ∀ frame, call ≠ CameraProxy.captureStillFrame frame) :
    Guarded (Threads.step threadSafe) Threads.NothingLost (start pool) evs ↔
      Guarded (Threads.step threadSafe)
        (fun t a => ∀ left, a = .act .route left → t.proxy.overwritesBlock = false)
        (start pool) evs := by
  have hreleases : ∀ a ∈ evs, ∀ call left, a = .act (.enter call) left → call.Releases := by
    rintro a ha call left rfl
    obtain ⟨hcall, hothers⟩ := hoffered call left ha
    exact hcall.releases_iff.mpr hothers
  refine guarded_congr (I := fun t => t.proxy.phase.Releases) (fun t a ha h => ?_)
    (fun t a _ h => ?_) trivial hreleases
  · cases a with
    | enterPool =>
        simp only [Threads.step]
        split_ifs <;> exact h
    | act ev left =>
        have hstep : (t.proxy.step ev).phase.Releases :=
          h.step fun call hcall => ha call left (by rw [hcall])
        simp only [Threads.step]
        split_ifs
        · exact h
        · exact hstep
        · exact hstep
        · exact hstep
  · cases a with
    | enterPool => exact iff_of_true trivial fun left heq => (by cases heq)
    | act ev left =>
        constructor
        · rintro hnothing left' heq
          cases heq
          exact hnothing.overwritten rfl
        · exact fun hover =>
            ⟨fun _ => h.keepsBlock, fun hroute => hover left (by rw [hroute])⟩

def levelHdr : SmHdr where
  magic := smProtocolMagic
  version := smProtocolVersion
  msgType := smMsgHeartbeat
  length := 1
  timestamp := 100000
  clientPid := 7
  nonce := 1
  hmac := List.replicate smHmacSize 0
  hmac_length := length_zeroHmac

def sendEnv : SendEnv := ⟨100000, 7, true, ⟨3600, 3600, 5, true⟩, none⟩

def recvEnv : RecvEnv := ⟨.timedOut, 100000, true, true, 3600, true⟩

/-- `getPin` up to its reply. -/
def readPin : List Access :=
  [.act (.dial ⟨some streamContext⟩ sendEnv) none, .act (.established true) none,
    .act (.enter (GpioProxy.getPin 4)) none, .act (.send sendEnv) none,
    .act (.deliver (encodeHdr levelHdr ++ [1])) none, .enterPool, .act (.receive recvEnv) none,
    .act .route none, .act (.wake false) none]

def setPin : List Access :=
  [.act (.dial ⟨some streamContext⟩ sendEnv) none,
    .act (.deliver (encodeHdr levelHdr ++ [1])) none, .enterPool, .act (.welcome recvEnv) none,
    .enterPool, .act .welcomed none, .act (.established true) none,
    .act (.enter (GpioProxy.setPin 4 1)) none, .act (.send sendEnv) none,
    .act (.deliver (encodeHdr levelHdr ++ [1])) none, .enterPool, .act (.receive recvEnv) none,
    .act .route none, .act (.wake false) none, .enterPool, .act .finish none]

def defaultDepth : QueueDepth := ⟨256, by decide⟩

/-- `setPin` with a welcome message before, whose buffer and that of the reply are given
back. -/
theorem blocksConserved_run_iff_setPin :
    let step := Threads.step (recvPoolConfig defaultDepth).threadSafe
    let start := start (recvPool separateMmap defaultDepth)
    (∀ before, before <+: setPin → BlocksConserved (run step start before).proxy) ↔
      ∀ before, before <+: setPin → (run step start before).proxy.phase = .idle →
        Guarded step Threads.NothingLost start before :=
  blocksConserved_run_iff separateMmap defaultDepth setPin (by decide +kernel)

theorem keepsBlock_readPin :
    (run (Threads.step false) (start (recvPool separateMmap defaultDepth))
      readPin).proxy.keepsBlock = true := by
  decide +kernel

theorem undisturbed_readPin :
    Guarded (Threads.step false) Undisturbed (start (recvPool separateMmap defaultDepth))
      readPin := by
  decide +kernel

/-- No two operations on the pool overlap, and the block of the reply stays in use. -/
theorem read_pin_keeps_buffer : ¬∀ mmap queueDepth evs,
    Guarded (Threads.step (recvPoolConfig queueDepth).threadSafe) Undisturbed
      (start (recvPool mmap queueDepth)) evs →
    ∀ before, before <+: evs →
      BlocksConserved (run (Threads.step (recvPoolConfig queueDepth).threadSafe)
        (start (recvPool mmap queueDepth)) before).proxy := by
  intro hall
  have hundisturbed : Guarded (Threads.step false) Undisturbed
      (start (recvPool separateMmap defaultDepth)) (readPin ++ [.act .finish none]) :=
    guarded_append.mpr ⟨undisturbed_readPin, trivial, trivial⟩
  exact not_blocksConserved_of_keepsBlock (unused_recvPool _ _) undisturbed_readPin
    keepsBlock_readPin (hall separateMmap defaultDepth _ hundisturbed _ List.prefix_rfl)

end ReceiveBuffers

end Proxy

end Shinigami
