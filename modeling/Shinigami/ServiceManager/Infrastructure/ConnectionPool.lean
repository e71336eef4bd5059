import Mathlib.Algebra.Order.Ring.Int
import Mathlib.Tactic.SplitIfs
import Shinigami.Foundations.Run
import Shinigami.Foundations.Tally

/-!
# The connection pool

`sm_connection_pool.c` under any interleaving of `sm_connpool_get` and
`sm_connpool_put`. A section under the mutex is one step, and so is every call of
`socket`, `connect` and `close` outside of it; what the calls of the system return is
part of the event. The slot table is the list of its slots.

The histories list what `socket` returned and what was closed, and the descriptors in
the hands of callers.
-/

namespace Shinigami

namespace ServiceManager

/-- `CONN_MAX_IDLE_SECS`. -/
def connMaxIdleSecs : ℤ := 30

/-- `conn_slot_t`. -/
structure ConnSlot where
  fd : ℤ
  lastUsed : ℤ
deriving DecidableEq, Repr

/-- `connpool_t`. -/
structure ConnPool where
  slots : List ConnSlot
  available : ℤ
  inUse : ℤ
deriving DecidableEq, Repr

/-- `sm_connpool_init` on a pool that is not initialised; `none` when it fails. -/
def smConnpoolInit (maxConns : ℤ) (callocOk mutexOk : Bool) : Option ConnPool :=
  let maxConns := if maxConns ≤ 0 then 10 else maxConns
  if !callocOk then none
  else if !mutexOk then none
  else some ⟨List.replicate maxConns.toNat ⟨-1, 0⟩, 0, 0⟩

/-- What the clock and the calls on a descriptor return in `connection_is_alive`: the
flags can be read and set, and a peek finds an open connection without data. -/
structure Liveness where
  now : ℤ
  flagsOk : Bool
  setOk : Bool
  peekWouldBlock : Bool
deriving DecidableEq, Repr

/-- `connection_is_alive`. -/
def connectionIsAlive (slot : ConnSlot) (live : Liveness) : Bool :=
  if slot.fd < 0 then false
  else if live.now - slot.lastUsed > connMaxIdleSecs then false
  else if !live.flagsOk then false
  else if !live.setOk then false
  else live.peekWouldBlock

/-- What the loop of `sm_connpool_get` leaves behind. -/
structure SlotScan where
  slots : List ConnSlot
  available : ℤ
  closed : List ℤ
  found : Option ℤ
deriving DecidableEq, Repr

/-- The loop of `sm_connpool_get`, from slot `i` on: the first alive connection is taken,
and the dead ones in front of it are closed. -/
def scanSlots (live : ℕ → Liveness) (available : ℤ) (i : ℕ) : List ConnSlot → SlotScan
  | [] => ⟨[], available, [], none⟩
  | slot :: slots =>
      if slot.fd < 0 then
        let scan := scanSlots live available (i + 1) slots
        { scan with slots := slot :: scan.slots }
      else if connectionIsAlive slot (live i) then
        ⟨{ slot with fd := -1 } :: slots, available - 1, [], some slot.fd⟩
      else
        let scan := scanSlots live (available - 1) (i + 1) slots
        { scan with
          slots := { slot with fd := -1 } :: scan.slots
          closed := slot.fd :: scan.closed }

/-- The loop of `sm_connpool_put`: the first empty slot is filled. -/
def storeSlot (fd now : ℤ) : List ConnSlot → Option (List ConnSlot)
  | [] => none
  | slot :: slots =>
      if slot.fd < 0 then some (⟨fd, now⟩ :: slots)
      else (storeSlot fd now slots).map (slot :: ·)

namespace ConnPool

/-- A call in progress, in front of its next step. -/
inductive Call where
  | get
  | create
  | connect (fd : ℤ)
  | undo
  | put (fd : ℤ)
  | close (fd : ℤ)
deriving DecidableEq, Repr

structure State where
  pool : ConnPool
  calls : List Call
  handed : List ℤ
  opened : List ℤ
  closed : List ℤ
deriving DecidableEq, Repr

def initial (pool : ConnPool) : State := ⟨pool, [], [], [], []⟩

/-- What the calls of the system return in a step: `socket` may fail, and so may
`connect`. -/
structure Env where
  live : ℕ → Liveness
  socket : Option ℤ
  connectOk : Bool
  now : ℤ

inductive Event where
  | get
  | put (fd : ℤ)
  | resume (i : ℕ) (env : Env)

/-- `sm_connpool_get` under the mutex, for the call `i`. -/
def State.getLocked (s : State) (i : ℕ) (env : Env) : State :=
  let scan := scanSlots env.live s.pool.available 0 s.pool.slots
  let pool : ConnPool := ⟨scan.slots, scan.available, s.pool.inUse + 1⟩
  match scan.found with
  | some fd =>
      { s with
        pool := pool
        calls := s.calls.eraseIdx i
        handed := s.handed ++ [fd]
        closed := s.closed ++ scan.closed }
  | none =>
      { s with
        pool := pool
        calls := s.calls.set i .create
        closed := s.closed ++ scan.closed }

/-- `sm_connpool_put` under the mutex. -/
def State.putLocked (s : State) (i : ℕ) (fd : ℤ) (env : Env) : State :=
  match storeSlot fd env.now s.pool.slots with
  | some slots =>
      { s with
        pool := ⟨slots, s.pool.available + 1, s.pool.inUse - 1⟩
        calls := s.calls.eraseIdx i }
  | none =>
      { s with
        pool := { s.pool with inUse := s.pool.inUse - 1 }
        calls := s.calls.set i (.close fd) }

def State.resume (s : State) (i : ℕ) (env : Env) : State :=
  match s.calls[i]? with
  | none => s
  | some .get => s.getLocked i env
  | some .create =>
      match env.socket with
      | none => { s with calls := s.calls.set i .undo }
      | some fd =>
          { s with calls := s.calls.set i (.connect fd), opened := s.opened ++ [fd] }
  | some (.connect fd) =>
      if env.connectOk then
        { s with calls := s.calls.eraseIdx i, handed := s.handed ++ [fd] }
      else { s with calls := s.calls.set i .undo, closed := s.closed ++ [fd] }
  | some .undo =>
      { s with
        pool := { s.pool with inUse := s.pool.inUse - 1 }
        calls := s.calls.eraseIdx i }
  | some (.put fd) => s.putLocked i fd env
  | some (.close fd) =>
      { s with calls := s.calls.eraseIdx i, closed := s.closed ++ [fd] }

def step (s : State) : Event → State
  | .get => { s with calls := s.calls ++ [.get] }
  | .put fd =>
      if fd < 0 then s
      else { s with calls := s.calls ++ [.put fd], handed := s.handed.erase fd }
  | .resume i env => s.resume i env

/-- Callers put back what they hold, and `socket` returns no open descriptor. -/
def Admissible (s : State) : Event → Prop
  | .get => True
  | .put fd => fd ∈ s.handed
  | .resume i env => s.calls[i]? = some .create → ∀ fd ∈ env.socket,
      0 ≤ fd ∧ s.opened.count fd = s.closed.count fd

instance decidableAdmissible (s : State) : ∀ ev, Decidable (Admissible s ev)
  | .get => .isTrue trivial
  | .put fd => inferInstanceAs (Decidable (fd ∈ s.handed))
  | .resume i env => inferInstanceAs (Decidable (s.calls[i]? = some .create →
      ∀ fd ∈ env.socket, 0 ≤ fd ∧ s.opened.count fd = s.closed.count fd))

/-! ## Where descriptors are -/

def pooled (slots : List ConnSlot) : List ℤ := (slots.map ConnSlot.fd).filter (0 ≤ ·)

def Call.carried : Call → List ℤ
  | .connect fd => [fd]
  | .put fd => [fd]
  | .close fd => [fd]
  | _ => []

/-- Whether `in_use` counts for the call. -/
def Call.reserved : Call → ℕ
  | .create => 1
  | .connect _ => 1
  | .undo => 1
  | .put _ => 1
  | _ => 0

def holders (s : State) (fd : ℤ) : ℕ :=
  (pooled s.pool.slots).count fd + s.handed.count fd +
    tally (fun c => c.carried.count fd) s.calls

theorem pooled_cons_of_neg (slot : ConnSlot) (h : slot.fd < 0) (slots : List ConnSlot) :
    pooled (slot :: slots) = pooled slots := by
  simp [pooled, not_le.mpr h]

theorem pooled_cons_of_nonneg (slot : ConnSlot) (h : 0 ≤ slot.fd) (slots : List ConnSlot) :
    pooled (slot :: slots) = slot.fd :: pooled slots := by
  simp [pooled, h]

/-- The loop takes descriptors off the table from the front: the closed ones, then the
one that is returned. -/
theorem scanSlots_spec (live : ℕ → Liveness) (slots : List ConnSlot) (available : ℤ) (i : ℕ) :
    let scan := scanSlots live available i slots
    pooled slots = scan.closed ++ scan.found.toList ++ pooled scan.slots ∧
      scan.available = available - (scan.closed.length + scan.found.toList.length) := by
  induction slots generalizing available i with
  | nil => simp [scanSlots, pooled]
  | cons slot slots ih =>
      unfold scanSlots
      dsimp only
      split_ifs with hempty halive
      · rw [pooled_cons_of_neg _ hempty, pooled_cons_of_neg _ hempty]
        exact ih available (i + 1)
      · rw [pooled_cons_of_nonneg _ (not_lt.mp hempty),
          pooled_cons_of_neg { slot with fd := -1 } neg_one_lt_zero]
        simp
      · obtain ⟨hpooled, havailable⟩ := ih (available - 1) (i + 1)
        rw [pooled_cons_of_nonneg _ (not_lt.mp hempty), hpooled,
          pooled_cons_of_neg { slot with fd := -1 } neg_one_lt_zero, havailable]
        refine ⟨rfl, ?_⟩
        rw [List.length_cons]
        push_cast
        omega

theorem pooled_storeSlot {fd now : ℤ} (hfd : 0 ≤ fd) {slots slots' : List ConnSlot}
    (h : storeSlot fd now slots = some slots') : (pooled slots').Perm (fd :: pooled slots) := by
  induction slots generalizing slots' with
  | nil => cases h
  | cons slot slots ih =>
      unfold storeSlot at h
      split_ifs at h with hempty
      · obtain rfl := Option.some.inj h
        rw [pooled_cons_of_neg _ hempty, pooled_cons_of_nonneg ⟨fd, now⟩ hfd]
      · obtain ⟨rest, hrest, rfl⟩ := Option.map_eq_some_iff.mp h
        have hslot := not_lt.mp hempty
        rw [pooled_cons_of_nonneg _ hslot, pooled_cons_of_nonneg _ hslot]
        exact ((ih hrest).cons _).trans (List.Perm.swap _ _ _)

/-! ## Ownership -/

/-- Every descriptor that was opened has been closed or is in one place, and the two
counters of the pool count what they are meant to. -/
structure Owned (s : State) : Prop where
  count : ∀ fd, s.opened.count fd = s.closed.count fd + holders s fd
  once : ∀ fd, holders s fd ≤ 1
  handed_nonneg : ∀ fd ∈ s.handed, 0 ≤ fd
  carried_nonneg : ∀ c ∈ s.calls, ∀ fd ∈ c.carried, 0 ≤ fd
  available : s.pool.available = (pooled s.pool.slots).length
  inUse : s.pool.inUse = s.handed.length + tally Call.reserved s.calls

/-- One call goes from `c` to `c'`, and the others stay; a call that has not begun or has
returned answers for nothing, as in front of `get`. -/
structure Resumes (s s' : State) (c c' : Call) : Prop where
  carried : ∀ fd, tally (fun c => c.carried.count fd) s'.calls + c.carried.count fd =
    tally (fun c => c.carried.count fd) s.calls + c'.carried.count fd
  reserved : tally Call.reserved s'.calls + c.reserved =
    tally Call.reserved s.calls + c'.reserved
  subset : ∀ c'' ∈ s'.calls, c'' ∈ s.calls ∨ c'' = c'

theorem Resumes.begins {s s' : State} {c : Call} (h : s'.calls = s.calls ++ [c]) :
    Resumes s s' .get c := by
  refine ⟨fun fd => ?_, ?_, fun c' hc' => ?_⟩
  · rw [h, tally_append, tally_cons, tally_nil]
    rfl
  · rw [h, tally_append, tally_cons, tally_nil]
    rfl
  · rw [h] at hc'
    exact (List.mem_append.mp hc').imp_right List.mem_singleton.mp

theorem Resumes.goes {s s' : State} {i : ℕ} {c c' : Call} (hcall : s.calls[i]? = some c)
    (h : s'.calls = s.calls.set i c') : Resumes s s' c c' := by
  refine ⟨fun fd => ?_, ?_, fun c'' hc'' => ?_⟩
  · rw [h]
    exact tally_set _ hcall c'
  · rw [h]
    exact tally_set _ hcall c'
  · rw [h] at hc''
    exact List.mem_or_eq_of_mem_set hc''

theorem Resumes.returns {s s' : State} {i : ℕ} {c : Call} (hcall : s.calls[i]? = some c)
    (h : s'.calls = s.calls.eraseIdx i) : Resumes s s' c .get := by
  refine ⟨fun fd => ?_, ?_, fun c' hc' => ?_⟩
  · rw [h]
    exact tally_eraseIdx (fun c => c.carried.count fd) hcall
  · rw [h]
    exact tally_eraseIdx _ hcall
  · rw [h] at hc'
    exact .inl (List.mem_of_mem_eraseIdx hc')

/-- What a step has to show that opens nothing: descriptors move between the pool, the
callers and the call, or are closed, and the counters follow. -/
theorem Owned.of_resumes {s s' : State} {c c' : Call} (h : Owned s) (hcall : Resumes s s' c c')
    (hopened : s'.opened = s.opened) (hclosed : ∀ fd, s.closed.count fd ≤ s'.closed.count fd)
    (hmove : ∀ fd, s'.closed.count fd + (pooled s'.pool.slots).count fd + s'.handed.count fd +
        c'.carried.count fd =
      s.closed.count fd + (pooled s.pool.slots).count fd + s.handed.count fd +
        c.carried.count fd)
    (hhanded : ∀ fd ∈ s'.handed, 0 ≤ fd) (hcarried : ∀ fd ∈ c'.carried, 0 ≤ fd)
    (havailable : s'.pool.available = (pooled s'.pool.slots).length)
    (hinUse : s'.pool.inUse + s.handed.length + c.reserved =
      s.pool.inUse + s'.handed.length + c'.reserved) : Owned s' := by
  have hholders : ∀ fd, s'.closed.count fd + holders s' fd =
      s.closed.count fd + holders s fd := by
    intro fd
    have htally := hcall.carried fd
    have hfd := hmove fd
    unfold holders
    omega
  constructor
  · intro fd
    rw [hopened, h.count, hholders]
  · intro fd
    have honce := h.once fd
    have hmore := hclosed fd
    have hsum := hholders fd
    omega
  · exact hhanded
  · intro c'' hc''
    rcases hcall.subset c'' hc'' with hold | rfl
    · exact h.carried_nonneg c'' hold
    · exact hcarried
  · exact havailable
  · have hreserved := hcall.reserved
    have hold := h.inUse
    omega

theorem handed_nonneg_append {s : State} (h : Owned s) {fd : ℤ} (hfd : 0 ≤ fd) :
    ∀ x ∈ s.handed ++ [fd], 0 ≤ x := by
  intro x hx
  rcases List.mem_append.mp hx with hold | hnew
  · exact h.handed_nonneg x hold
  · rw [List.mem_singleton.mp hnew]
    exact hfd

theorem nonneg_of_mem_pooled {slots : List ConnSlot} {fd : ℤ} (h : fd ∈ pooled slots) :
    0 ≤ fd := by
  simpa using (List.mem_filter.mp h).2

theorem carried_nil {c : Call} (h : c.carried = []) : ∀ fd ∈ c.carried, 0 ≤ fd := by
  rw [h]
  intro fd hfd
  cases hfd

theorem Owned.getLocked {s : State} (h : Owned s) {i : ℕ} (hcall : s.calls[i]? = some .get)
    (env : Env) : Owned (s.getLocked i env) := by
  obtain ⟨hpooled, havailable⟩ := scanSlots_spec env.live s.pool.slots s.pool.available 0
  have hold := h.available
  unfold State.getLocked
  generalize scanSlots env.live s.pool.available 0 s.pool.slots = scan at hpooled havailable ⊢
  obtain ⟨slots, available, closed, found⟩ := scan
  dsimp only at hpooled havailable ⊢
  rw [hpooled] at hold
  have hcount : ∀ x, (pooled s.pool.slots).count x =
      closed.count x + found.toList.count x + (pooled slots).count x := by
    intro x
    rw [hpooled, List.count_append, List.count_append]
  cases found with
  | some fd =>
      have hmem : fd ∈ pooled s.pool.slots := by
        rw [hpooled]
        simp
      have hfd : 0 ≤ fd := nonneg_of_mem_pooled hmem
      refine h.of_resumes (.returns hcall rfl) rfl (fun x => ?_) (fun x => ?_)
        (handed_nonneg_append h hfd) (carried_nil rfl) ?_ ?_
      · dsimp only
        rw [List.count_append]
        omega
      · have hx := hcount x
        dsimp only [Option.toList_some] at hx ⊢
        rw [List.count_append, List.count_append]
        omega
      · dsimp only
        simp at hold
        simp at havailable
        omega
      · dsimp only [Call.reserved]
        simp
        omega
  | none =>
      refine h.of_resumes (.goes hcall rfl) rfl (fun x => ?_) (fun x => ?_) h.handed_nonneg
        (carried_nil rfl) ?_ ?_
      · dsimp only
        rw [List.count_append]
        omega
      · have hx := hcount x
        dsimp only [Option.toList_none] at hx ⊢
        rw [List.count_append]
        have hnil : ([] : List ℤ).count x = 0 := rfl
        have hcarried : (Call.get.carried.count x) = Call.create.carried.count x := rfl
        omega
      · dsimp only
        simp at hold
        simp at havailable
        omega
      · dsimp only [Call.reserved]
        omega

theorem Owned.putLocked {s : State} (h : Owned s) {i : ℕ} {fd : ℤ}
    (hcall : s.calls[i]? = some (.put fd)) (env : Env) : Owned (s.putLocked i fd env) := by
  have hfd : 0 ≤ fd :=
    h.carried_nonneg _ (List.mem_of_getElem? hcall) fd (by simp [Call.carried])
  have hold := h.available
  unfold State.putLocked
  cases hstore : storeSlot fd env.now s.pool.slots with
  | some slots =>
      have hperm := pooled_storeSlot hfd hstore
      refine h.of_resumes (.returns hcall rfl) rfl (fun _ => le_refl _) (fun x => ?_)
        h.handed_nonneg (carried_nil rfl) ?_ ?_
      · have hx := hperm.count_eq x
        rw [← List.singleton_append, List.count_append] at hx
        dsimp only [Call.carried]
        rw [hx, List.count_nil]
        omega
      · have hlength := hperm.length_eq
        rw [List.length_cons] at hlength
        dsimp only
        omega
      · dsimp only [Call.reserved]
        omega
  | none =>
      -- the table is full: the descriptor stays with the call, which closes it
      refine h.of_resumes (.goes hcall rfl) rfl (fun _ => le_refl _) (fun _ => rfl)
        h.handed_nonneg (fun x hx => ?_) hold ?_
      · rw [List.mem_singleton.mp hx]
        exact hfd
      · dsimp only [Call.reserved]
        omega

theorem Owned.created {s : State} (h : Owned s) {i : ℕ} (hcall : s.calls[i]? = some .create)
    {fd : ℤ} (hfd : 0 ≤ fd) (hclosed : s.opened.count fd = s.closed.count fd) :
    Owned
      { s with
        calls := s.calls.set i (.connect fd)
        opened := s.opened ++ [fd] } := by
  have hgoes : Resumes s
      { s with
        calls := s.calls.set i (.connect fd)
        opened := s.opened ++ [fd] } .create (.connect fd) := .goes hcall rfl
  have hholders : ∀ x, holders
      { s with
        calls := s.calls.set i (.connect fd)
        opened := s.opened ++ [fd] } x = holders s x + [fd].count x := by
    intro x
    have htally := hgoes.carried x
    unfold holders
    dsimp only [Call.carried] at htally ⊢
    rw [List.count_nil] at htally
    omega
  constructor
  · intro x
    rw [hholders, List.count_append, h.count, Nat.add_assoc]
  · intro x
    rw [hholders]
    by_cases hx : x = fd
    · have hnowhere := h.count fd
      rw [hx, List.count_singleton_self]
      omega
    · rw [List.count_singleton, if_neg (by simpa using Ne.symm hx)]
      exact h.once x
  · exact h.handed_nonneg
  · intro c hc
    rcases hgoes.subset c hc with hold | rfl
    · exact h.carried_nonneg c hold
    · intro x hx
      rw [List.mem_singleton.mp hx]
      exact hfd
  · exact h.available
  · have hreserved := hgoes.reserved
    have hold := h.inUse
    dsimp only [Call.reserved] at hreserved ⊢
    omega

theorem Owned.resume {s : State} (h : Owned s) {i : ℕ} {env : Env}
    (hadmissible : Admissible s (.resume i env)) : Owned (s.resume i env) := by
  unfold State.resume
  cases hcall : s.calls[i]? with
  | none => exact h
  | some c =>
      cases c with
      | get => exact h.getLocked hcall env
      | put fd => exact h.putLocked hcall env
      | create =>
          cases hsocket : env.socket with
          | none =>
              dsimp only
              exact h.of_resumes (.goes hcall rfl) rfl (fun _ => le_refl _) (fun _ => rfl)
                h.handed_nonneg (carried_nil rfl) h.available rfl
          | some fd =>
              obtain ⟨hfd, hclosed⟩ := hadmissible hcall fd hsocket
              exact h.created hcall hfd hclosed
      | connect fd =>
          have hfd : 0 ≤ fd :=
            h.carried_nonneg _ (List.mem_of_getElem? hcall) fd (by simp [Call.carried])
          dsimp only
          split_ifs
          · refine h.of_resumes (.returns hcall rfl) rfl (fun _ => le_refl _) (fun x => ?_)
              (handed_nonneg_append h hfd) (carried_nil rfl) h.available ?_
            · dsimp only [Call.carried]
              rw [List.count_append, List.count_nil]
              omega
            · dsimp only [Call.reserved]
              rw [List.length_append, List.length_singleton]
              push_cast
              omega
          · refine h.of_resumes (.goes hcall rfl) rfl (fun x => ?_) (fun x => ?_)
              h.handed_nonneg (carried_nil rfl) h.available ?_
            · dsimp only
              rw [List.count_append]
              omega
            · dsimp only [Call.carried]
              rw [List.count_append, List.count_nil]
              omega
            · rfl
      | undo =>
          dsimp only
          refine h.of_resumes (.returns hcall rfl) rfl (fun _ => le_refl _) (fun _ => rfl)
            h.handed_nonneg (carried_nil rfl) h.available ?_
          dsimp only [Call.reserved]
          omega
      | close fd =>
          dsimp only
          refine h.of_resumes (.returns hcall rfl) rfl (fun x => ?_) (fun x => ?_)
            h.handed_nonneg (carried_nil rfl) h.available ?_
          · dsimp only
            rw [List.count_append]
            omega
          · dsimp only [Call.carried]
            rw [List.count_append, List.count_nil]
            omega
          · dsimp only [Call.reserved]

theorem Owned.step {s : State} (h : Owned s) {ev : Event} (hadmissible : Admissible s ev) :
    Owned (step s ev) := by
  cases ev with
  | get =>
      exact h.of_resumes (.begins rfl) rfl (fun _ => le_refl _) (fun _ => rfl)
        h.handed_nonneg (carried_nil rfl) h.available rfl
  | put fd =>
      have hmem : fd ∈ s.handed := hadmissible
      have hperm := List.perm_cons_erase hmem
      have hfd := h.handed_nonneg fd hmem
      unfold ConnPool.step
      dsimp only
      rw [if_neg (not_lt.mpr hfd)]
      refine h.of_resumes (.begins rfl) rfl (fun _ => le_refl _) (fun x => ?_)
        (fun x hx => h.handed_nonneg x (List.mem_of_mem_erase hx)) (fun x hx => ?_)
        h.available ?_
      · have hx := hperm.count_eq x
        rw [← List.singleton_append, List.count_append] at hx
        dsimp only [Call.carried]
        rw [List.count_nil]
        omega
      · rw [List.mem_singleton.mp hx]
        exact hfd
      · have hlength := hperm.length_eq
        rw [List.length_cons] at hlength
        dsimp only [Call.reserved]
        omega
  | resume i env => exact h.resume hadmissible

theorem owned_initial (maxConns : ℕ) :
    Owned (initial ⟨List.replicate maxConns ⟨-1, 0⟩, 0, 0⟩) := by
  have hpooled : pooled (List.replicate maxConns ⟨-1, 0⟩) = [] := by
    induction maxConns with
    | zero => rfl
    | succ n ih =>
        rw [List.replicate_succ, pooled_cons_of_neg ⟨-1, 0⟩ neg_one_lt_zero, ih]
  constructor <;> simp [initial, holders, hpooled]

/-- No descriptor is in two places, none is lost or closed twice, and between the calls the
counters of the pool are right. -/
theorem ownership_run {maxConns : ℤ} {callocOk mutexOk : Bool} {pool : ConnPool}
    (hinit : smConnpoolInit maxConns callocOk mutexOk = some pool) {evs : List Event}
    (hevs : Guarded step Admissible (initial pool) evs) :
    let s := run step (initial pool) evs
    s.handed.Nodup ∧ (∀ fd ∈ s.handed, fd ∉ pooled s.pool.slots) ∧
      (∀ fd, s.opened.count fd = s.closed.count fd + holders s fd ∧ holders s fd ≤ 1) ∧
      (s.calls = [] →
        (∀ fd, s.opened.count fd =
          s.closed.count fd + (pooled s.pool.slots).count fd + s.handed.count fd) ∧
        s.pool.available = (pooled s.pool.slots).length ∧ s.pool.inUse = s.handed.length) := by
  intro s
  have hstart : Owned (initial pool) := by
    unfold smConnpoolInit at hinit
    dsimp only at hinit
    split_ifs at hinit <;> obtain rfl := Option.some.inj hinit <;> exact owned_initial _
  have h : Owned s := run_invariant_of_guarded (fun _ _ hguard h => h.step hguard) hstart hevs
  refine ⟨List.nodup_iff_count_le_one.mpr fun fd => ?_, fun fd hhanded hpooled => ?_,
    fun fd => ⟨h.count fd, h.once fd⟩, fun hnone => ⟨fun fd => ?_, h.available, ?_⟩⟩
  · have honce := h.once fd
    unfold holders at honce
    omega
  · have honce := h.once fd
    have hhanded := List.count_pos_iff.mpr hhanded
    have hpooled := List.count_pos_iff.mpr hpooled
    unfold holders at honce
    omega
  · have hcount := h.count fd
    unfold holders at hcount
    rw [hnone, tally_nil] at hcount
    omega
  · have hinUse := h.inUse
    rw [hnone, tally_nil] at hinUse
    exact hinUse

/-- Two connections for one slot: the second that comes back is closed, the first one is
handed out again. -/
theorem ownership_run_two :
    let env (socket : Option ℤ) : Env := ⟨fun _ => ⟨9, true, true, true⟩, socket, true, 7⟩
    let evs : List Event :=
      [.get, .get, .resume 0 (env none), .resume 1 (env none), .resume 1 (env (some 6)),
        .resume 0 (env (some 5)), .resume 0 (env none), .resume 0 (env none), .put 5, .put 6,
        .resume 0 (env none), .resume 0 (env none), .resume 0 (env none), .get,
        .resume 0 (env none)]
    let pool : ConnPool := ⟨[⟨-1, 0⟩], 0, 0⟩
    let s := run step (initial pool) evs
    smConnpoolInit 1 true true = some pool ∧ Guarded step Admissible (initial pool) evs ∧
      s.closed = [6] ∧ s.calls = [] ∧ s.handed.Nodup ∧ s.pool.inUse = s.handed.length := by
  intro env evs pool
  have hinit : smConnpoolInit 1 true true = some pool := rfl
  have hevs : Guarded step Admissible (initial pool) evs := by decide +kernel
  have hclosed : (run step (initial pool) evs).closed = [6] := by decide +kernel
  have hcalls : (run step (initial pool) evs).calls = [] := by decide +kernel
  have howned := ownership_run hinit hevs
  exact ⟨hinit, hevs, hclosed, hcalls, howned.1, (howned.2.2.2 hcalls).2.2⟩

end ConnPool

end ServiceManager

end Shinigami
