import Shinigami.Foundations.RingIndex
import Shinigami.Proxy.ThreadPool

/-!
# The invariant of the callback queue

A producer that finds its slot occupied for too long empties the slot and uses
it, and a producer whose slot still waits for the previous lap's producer uses it
as well. A step is `InTurn` when neither happens: a post leaves its waiting loop
only after the callback one lap earlier has been taken, and `head_` does not wrap
around.

`QueueInv` says that the ring is a bounded queue. Each operation of the consumer
(`QueueInv.consumerStep`) and each operation of a post that is in turn
(`QueueInv.postStep`) keeps it, so it holds in every run of such steps
(`queueInv_run`).
-/

namespace Shinigami

namespace Proxy

namespace ThreadPool

variable {ι α : Type}

/-! ## Runs without a lap -/

def capacity (s : ThreadPool ι α) : ℕ := s.mask.toNat + 1

def taken (s : ThreadPool ι α) : ℕ :=
  s.tail.toNat + match s.consumer with
    | .advanceTail _ => 1
    | _ => 0

def LeavesLoop (s : ThreadPool ι α) (p : Post α) : Prop :=
  ∃ spin, p.pc = .load spin ∧ ((s.slot p.idx).ready = false ∨ 64 < spin + 1)

/-- A post ends its waiting loop only when the callback one lap earlier has been
taken, and the ticket counter does not wrap. -/
def InTurn (s : ThreadPool ι α) : Event ι α → Prop
  | .post i => ∀ p, s.posts i = some p →
      (p.pc = .fetchAdd → s.head.toNat + 1 < 2 ^ 64) ∧
      (s.LeavesLoop p → p.idx.toNat < s.taken + s.capacity)
  | _ => True

/-! ## The invariant -/

def hand (s : ThreadPool ι α) : Option (Callback α) :=
  match s.consumer with
  | .clearFn _ fn => fn
  | .clearReady _ fn => fn
  | .advanceTail fn => fn
  | .invoke fn => fn
  | _ => none

def Queued (s : ThreadPool ι α) (c : Callback α) : Prop :=
  (s.slot c.ticket).ready = true ∧ (s.slot c.ticket).fn = some c

def InFlight (s : ThreadPool ι α) (t : UInt64) : Prop :=
  ∃ i p, s.posts i = some p ∧ p.Claimed ∧ p.idx = t

def Done (s : ThreadPool ι α) (t : UInt64) : Prop := t < s.head ∧ ¬ s.InFlight t

def InWindow (s : ThreadPool ι α) (t : UInt64) : Prop :=
  s.taken ≤ t.toNat ∧ t.toNat < s.taken + s.capacity

def floor (s : ThreadPool ι α) : ℕ :=
  match s.consumer with
  | .invoke _ => s.tail.toNat - 1
  | _ => s.tail.toNat

def ConsumerInv (s : ThreadPool ι α) : Prop :=
  match s.consumer with
  | .loadReady t => t = s.tail
  | .moveFn t => t = s.tail ∧ s.Done t
  | .clearFn t fn => t = s.tail ∧ s.Done t ∧ (s.slot t).fn = none ∧
      ∀ c ∈ fn, c.ticket = t
  | .clearReady t fn => t = s.tail ∧ s.Done t ∧ (s.slot t).fn = none ∧
      ∀ c ∈ fn, c.ticket = t
  | .advanceTail fn => ∀ c ∈ fn, c.ticket = s.tail
  | .invoke fn => 0 < s.tail.toNat ∧ ∀ c ∈ fn, c.ticket.toNat + 1 = s.tail.toNat
  | _ => True

/-- Where a post may stand: it waits, or it writes to a slot of the current
lap. -/
def PostInv (s : ThreadPool ι α) (p : Post α) : Prop :=
  match p.pc with
  | .fetchAdd => True
  | .load _ => True
  | .writeFn => p.idx.toNat < s.taken + s.capacity
  | .setReady => p.idx.toNat < s.taken + s.capacity ∧ (s.slot p.idx).fn = p.callback
  | _ => False

/-- The ring is a bounded queue: the slots of the current lap are ready exactly
when their post has ended, and a callback that was posted has been invoked, is
in the hand of the consumer, or waits in its slot. -/
structure QueueInv (s : ThreadPool ι α) : Prop where
  mask : ∃ k, s.capacity = 2 ^ k
  taken_le : s.taken ≤ s.head.toNat
  claimed : ∀ i p, s.posts i = some p → p.Claimed →
    s.taken ≤ p.idx.toNat ∧ p.idx < s.head
  distinct : ∀ i p j q, s.posts i = some p → s.posts j = some q →
    p.Claimed → q.Claimed → p.idx = q.idx → i = j
  posts : ∀ i p, s.posts i = some p → s.PostInv p
  done_lt : ∀ t, s.Done t → t.toNat < s.taken + s.capacity
  ready : ∀ t, s.InWindow t → ((s.slot t).ready = true ↔ s.Done t)
  content : ∀ t, s.InWindow t → s.Done t → ∀ c, (s.slot t).fn = some c → c.ticket = t
  consumer : s.ConsumerInv
  kept : ∀ c ∈ s.posted, c ∈ s.invoked ∨ s.hand = some c ∨
    (s.InWindow c.ticket ∧ s.Queued c)
  ordered : (s.invoked.map Callback.ticket).Pairwise (· < ·)
  invoked_lt : ∀ c ∈ s.invoked, c.ticket.toNat < s.floor
  notified : s.notified = []

variable {s : ThreadPool ι α}

theorem Done.idx_ne {t : UInt64} (hdone : s.Done t) {i : ι} {p : Post α}
    (hp : s.posts i = some p) (hclaimed : p.Claimed) : p.idx ≠ t :=
  fun heq => hdone.2 ⟨i, p, hp, hclaimed, heq⟩

theorem Queued.of_slot_eq {s' : ThreadPool ι α} {c : Callback α} (hq : s.Queued c)
    (hslot : s'.slot c.ticket = s.slot c.ticket) : s'.Queued c := by
  unfold Queued
  rw [hslot]
  exact hq

theorem slotIdx_eq_mod (hmask : ∃ k, s.capacity = 2 ^ k) (t : UInt64) :
    s.slotIdx t = t.toNat % s.capacity := by
  obtain ⟨k, hk⟩ := hmask
  have hmask : s.mask.toNat = 2 ^ k - 1 := by
    rw [← hk, capacity, Nat.add_sub_cancel]
  rw [slotIdx, UInt64.toNat_and, hmask, Nat.and_two_pow_sub_one_eq_mod, hk]

theorem eq_of_slotIdx_eq (hmask : ∃ k, s.capacity = 2 ^ k) {t t' : UInt64}
    (ht : s.InWindow t) (ht' : s.InWindow t') (heq : s.slotIdx t = s.slotIdx t') :
    t = t' := by
  rw [slotIdx_eq_mod hmask, slotIdx_eq_mod hmask] at heq
  obtain ⟨hlo, hhi⟩ := ht
  obtain ⟨hlo', hhi'⟩ := ht'
  apply UInt64.toNat.inj
  rcases Nat.le_total t.toNat t'.toNat with hle | hle
  · exact RingIndex.eq_of_mod_eq hle (by omega) heq
  · exact (RingIndex.eq_of_mod_eq hle (by omega) heq.symm).symm

section Frame

@[simp] theorem slot_setFn_self (s : ThreadPool ι α) (t : UInt64)
    (fn : Option (Callback α)) :
    (s.setFn t fn).slot t = { s.slot t with fn := fn } := by
  simp [slot, setFn, slotIdx]

@[simp] theorem slot_setReady_self (s : ThreadPool ι α) (t : UInt64) (ready : Bool) :
    (s.setReady t ready).slot t = { s.slot t with ready := ready } := by
  simp [slot, setReady, slotIdx]

theorem slot_setFn_of_ne (s : ThreadPool ι α) {t t' : UInt64}
    (fn : Option (Callback α)) (hne : s.slotIdx t' ≠ s.slotIdx t) :
    (s.setFn t fn).slot t' = s.slot t' :=
  Function.update_of_ne hne _ _

theorem slot_setReady_of_ne (s : ThreadPool ι α) {t t' : UInt64} (ready : Bool)
    (hne : s.slotIdx t' ≠ s.slotIdx t) :
    (s.setReady t ready).slot t' = s.slot t' :=
  Function.update_of_ne hne _ _

/-- A write to one slot of the lap leaves the slots of its other tickets alone. -/
theorem slot_setFn_other (hmask : ∃ k, s.capacity = 2 ^ k) {t t' : UInt64}
    (fn : Option (Callback α)) (ht : s.InWindow t) (ht' : s.InWindow t') (hne : t' ≠ t) :
    (s.setFn t fn).slot t' = s.slot t' :=
  s.slot_setFn_of_ne fn fun heq => hne (eq_of_slotIdx_eq hmask ht' ht heq)

theorem slot_setReady_other (hmask : ∃ k, s.capacity = 2 ^ k) {t t' : UInt64}
    (ready : Bool) (ht : s.InWindow t) (ht' : s.InWindow t') (hne : t' ≠ t) :
    (s.setReady t ready).slot t' = s.slot t' :=
  s.slot_setReady_of_ne ready fun heq => hne (eq_of_slotIdx_eq hmask ht' ht heq)

end Frame

theorem queueInv_create {queueDepth : UInt64} (hdepth : queueDepth.toNat ≤ 2 ^ 63)
    (overflowHandler : Bool) : QueueInv (create ι α queueDepth overflowHandler) := by
  have hcap : ∃ k, (create ι α queueDepth overflowHandler).capacity = 2 ^ k := by
    obtain ⟨k, hk, -⟩ := nextPow2_spec
      (n := if queueDepth < 16 then 16 else queueDepth) (by
        split
        · decide
        · next hge =>
            rw [UInt64.lt_iff_toNat_lt, Nat.not_lt] at hge
            exact Nat.lt_of_lt_of_le (by decide) hge) (by
        split
        · decide
        · exact hdepth)
    have hone : (1 : UInt64).toNat ≤ (queueCapacity queueDepth).toNat := by
      rw [queueCapacity, hk]
      exact Nat.one_le_two_pow
    refine ⟨k, ?_⟩
    change (queueCapacity queueDepth - 1).toNat + 1 = 2 ^ k
    rw [UInt64.toNat_sub_of_le _ _ (UInt64.le_iff_toNat_le.mpr hone), ← hk]
    exact Nat.sub_add_cancel hone
  have hnone : ∀ t, ¬ (create ι α queueDepth overflowHandler).Done t := by
    rintro t ⟨hlt, -⟩
    exact absurd (UInt64.lt_iff_toNat_lt.mp hlt) (Nat.not_lt_zero _)
  refine
    { mask := hcap, taken_le := Nat.le_refl 0, claimed := ?_, distinct := ?_
      posts := ?_, done_lt := ?_, ready := ?_, content := ?_, consumer := trivial
      kept := ?_, ordered := .nil, invoked_lt := ?_, notified := rfl }
  · intro j q hq
    cases hq
  · intro j q k r hq
    cases hq
  · intro j q hq
    cases hq
  · intro t hd
    exact absurd hd (hnone t)
  · intro t _
    constructor
    · intro hready
      cases hready
    · exact fun hd => absurd hd (hnone t)
  · intro t _ hd
    exact absurd hd (hnone t)
  · intro c hc
    cases hc
  · intro c hc
    cases hc

theorem QueueInv.inWindow_of_done (h : QueueInv s) {t : UInt64} (hdone : s.Done t)
    (hle : s.taken ≤ t.toNat) : s.InWindow t :=
  ⟨hle, h.done_lt t hdone⟩

theorem QueueInv.inWindow_of_post (h : QueueInv s) {i : ι} {p : Post α}
    (hp : s.posts i = some p) (hclaimed : p.Claimed)
    (hlt : p.idx.toNat < s.taken + s.capacity) : s.InWindow p.idx :=
  ⟨(h.claimed i p hp hclaimed).1, hlt⟩

/-- What a post needs of a later state: the lap has not gone back, and the slot
the post has written still has its content. -/
theorem QueueInv.postInv_later (h : QueueInv s) {s' : ThreadPool ι α} {i : ι}
    {p : Post α} (hp : s.posts i = some p)
    (hlap : s.taken + s.capacity ≤ s'.taken + s'.capacity)
    (hfn : p.Claimed → p.pc = .setReady → s.InWindow p.idx →
      (s'.slot p.idx).fn = (s.slot p.idx).fn) : s'.PostInv p := by
  have hpost := h.posts i p hp
  unfold PostInv at hpost ⊢
  cases hpc : p.pc with
  | setReady =>
      rw [hpc] at hpost
      have hclaimed : p.Claimed := by simp [Post.Claimed, hpc]
      have hsame := hfn hclaimed hpc (h.inWindow_of_post hp hclaimed hpost.1)
      exact ⟨hpost.1.trans_le hlap, hsame.trans hpost.2⟩
  | writeFn =>
      rw [hpc] at hpost
      exact Nat.lt_of_lt_of_le hpost hlap
  | fetchAdd => trivial
  | load => trivial
  | clearFn | clearReady | notify =>
      rw [hpc] at hpost
      exact hpost.elim

theorem QueueInv.sameLap (h : QueueInv s) {tail : UInt64} {pc : ConsumerPc α}
    {invoked : List (Callback α)}
    (htaken : { s with tail := tail, consumer := pc, invoked := invoked }.taken = s.taken)
    (hconsumer :
      { s with tail := tail, consumer := pc, invoked := invoked }.ConsumerInv)
    (hkept : ∀ c ∈ s.posted, c ∈ invoked ∨
      { s with tail := tail, consumer := pc, invoked := invoked }.hand = some c ∨
      (s.InWindow c.ticket ∧ s.Queued c))
    (hordered : (invoked.map Callback.ticket).Pairwise (· < ·))
    (hinvoked : ∀ c ∈ invoked, c.ticket.toNat <
      { s with tail := tail, consumer := pc, invoked := invoked }.floor) :
    QueueInv { s with tail := tail, consumer := pc, invoked := invoked } where
  mask := h.mask
  taken_le := htaken ▸ h.taken_le
  claimed := by
    rw [htaken]
    exact h.claimed
  distinct := h.distinct
  posts := by
    intro i p hp
    exact h.postInv_later hp (Nat.add_le_add_right htaken.ge _) fun _ _ _ => rfl
  done_lt := by
    rw [htaken]
    exact h.done_lt
  ready := by
    unfold InWindow
    rw [htaken]
    exact h.ready
  content := by
    unfold InWindow
    rw [htaken]
    exact h.content
  consumer := hconsumer
  kept := by
    unfold InWindow
    rw [htaken]
    exact hkept
  ordered := hordered
  invoked_lt := hinvoked
  notified := h.notified

/-- A step of the consumer that touches no slot and gives nothing out of its
hand. -/
theorem QueueInv.move (h : QueueInv s) {tail : UInt64} {pc : ConsumerPc α}
    (htaken : { s with tail := tail, consumer := pc }.taken = s.taken)
    (hhand : { s with tail := tail, consumer := pc }.hand = s.hand)
    (hfloor : { s with tail := tail, consumer := pc }.floor = s.floor)
    (hconsumer : { s with tail := tail, consumer := pc }.ConsumerInv) :
    QueueInv { s with tail := tail, consumer := pc } := by
  refine h.sameLap htaken hconsumer ?_ h.ordered ?_
  · rw [hhand]
    exact h.kept
  · rw [hfloor]
    exact h.invoked_lt

theorem QueueInv.moveFn (h : QueueInv s) {t : UInt64} (hpc : s.consumer = .moveFn t) :
    QueueInv { s.setFn t none with consumer := .clearFn t (s.slot t).fn } := by
  have hcons := h.consumer
  simp only [ConsumerInv, hpc] at hcons
  obtain ⟨rfl, hdone⟩ := hcons
  have htaken : s.taken = s.tail.toNat := by simp [taken, hpc]
  have hwin : s.InWindow s.tail := h.inWindow_of_done hdone htaken.le
  have hhand : s.hand = none := by simp [hand, hpc]
  have hfloor : s.floor = s.tail.toNat := by simp [floor, hpc]
  let s' : ThreadPool ι α :=
    { s.setFn s.tail none with consumer := .clearFn s.tail (s.slot s.tail).fn }
  have htaken' : s'.taken = s.taken := by simp [s', taken, hpc, setFn]
  have hwindow : ∀ t, s'.InWindow t ↔ s.InWindow t := by
    intro t
    unfold InWindow
    rw [htaken']
    rfl
  have hother : ∀ t, s.InWindow t → t ≠ s.tail → s'.slot t = s.slot t :=
    fun t ht hne => slot_setFn_other h.mask none hwin ht hne
  have hself : s'.slot s.tail = ⟨none, (s.slot s.tail).ready⟩ :=
    s.slot_setFn_self s.tail none
  refine
    { mask := h.mask
      taken_le := htaken'.trans_le h.taken_le
      claimed := ?_, distinct := h.distinct, posts := ?_, done_lt := ?_, ready := ?_
      content := ?_, consumer := ?_, kept := ?_, ordered := h.ordered
      invoked_lt := ?_, notified := h.notified }
  · change ∀ i p, _ → _ → s'.taken ≤ _ ∧ _
    rw [htaken']
    exact h.claimed
  · intro i p hp
    change s'.PostInv p
    apply h.postInv_later hp (Nat.add_le_add_right htaken'.ge _)
    intro hclaimed _ hwinp
    rw [hother p.idx hwinp (hdone.idx_ne hp hclaimed)]
  · change ∀ t, s.Done t → t.toNat < s'.taken + s.capacity
    rw [htaken']
    exact h.done_lt
  · intro t ht
    rw [hwindow] at ht
    change (s'.slot t).ready = true ↔ s.Done t
    by_cases heq : t = s.tail
    · subst heq
      rw [hself]
      exact h.ready _ ht
    · rw [hother t ht heq]
      exact h.ready t ht
  · intro t ht hd c hc
    rw [hwindow] at ht
    change (s'.slot t).fn = some c at hc
    by_cases heq : t = s.tail
    · subst heq
      rw [hself] at hc
      cases hc
    · rw [hother t ht heq] at hc
      exact h.content t ht hd c hc
  · exact ⟨rfl, hdone, congrArg QueueSlot.fn hself, fun c hc => h.content _ hwin hdone c hc⟩
  · intro c hc
    rcases h.kept c hc with hinv | hheld | ⟨hwinc, hq⟩
    · exact .inl hinv
    · rw [hhand] at hheld
      cases hheld
    · by_cases heq : c.ticket = s.tail
      · right; left
        have hfn := hq.2
        rw [heq] at hfn
        exact hfn
      · right; right
        exact ⟨(hwindow _).mpr hwinc, hq.of_slot_eq (hother _ hwinc heq)⟩
  · intro c hc
    have hlt := h.invoked_lt c hc
    rw [hfloor] at hlt
    exact hlt

/-- The pool after the consumer has given the slot at `tail_` back. -/
def givenBack (s : ThreadPool ι α) (fn : Option (Callback α)) : ThreadPool ι α :=
  { s.setReady s.tail false with consumer := .advanceTail fn }

/-- The tickets of the lap that begins one slot later: those of the old lap but
`tail_`, and one whose post has not ended. -/
theorem QueueInv.inWindow_givenBack (h : QueueInv s) (htaken : s.taken = s.tail.toNat)
    {fn : Option (Callback α)} {t : UInt64} (ht : (s.givenBack fn).InWindow t) :
    (s.InWindow t ∧ t ≠ s.tail) ∨
      ((s.givenBack fn).slot t = (s.givenBack fn).slot s.tail ∧ ¬ s.Done t) := by
  obtain ⟨hlo, hhi⟩ := ht
  change s.tail.toNat + 1 ≤ t.toNat at hlo
  change t.toNat < s.tail.toNat + 1 + s.capacity at hhi
  by_cases hlast : t.toNat < s.taken + s.capacity
  · left
    refine ⟨⟨by omega, hlast⟩, ?_⟩
    rintro rfl
    omega
  · right
    refine ⟨?_, fun hd => hlast (h.done_lt t hd)⟩
    have hidx : s.slotIdx t = s.slotIdx s.tail := by
      rw [slotIdx_eq_mod h.mask, slotIdx_eq_mod h.mask]
      have heq : t.toNat = s.tail.toNat + s.capacity := by omega
      rw [heq, Nat.add_mod_right]
    exact congrArg (s.givenBack fn).slots hidx

/-- The consumer gives the slot at `tail_` back: the lap moves on by one. -/
theorem QueueInv.clearReady (h : QueueInv s) {t : UInt64} {fn : Option (Callback α)}
    (hpc : s.consumer = .clearReady t fn) :
    QueueInv { s.setReady t false with consumer := .advanceTail fn } := by
  have hcons := h.consumer
  simp only [ConsumerInv, hpc] at hcons
  obtain ⟨rfl, hdone, hnone, hfn⟩ := hcons
  change QueueInv (s.givenBack fn)
  have htaken : s.taken = s.tail.toNat := by simp [taken, hpc]
  have hwin : s.InWindow s.tail := h.inWindow_of_done hdone htaken.le
  have hhand : s.hand = fn := by simp [hand, hpc]
  have hfloor : s.floor = s.tail.toNat := by simp [floor, hpc]
  have htaken' : (s.givenBack fn).taken = s.taken + 1 := by rw [htaken]; rfl
  have hcap : (s.givenBack fn).capacity = s.capacity := rfl
  have hother : ∀ t, s.InWindow t → t ≠ s.tail →
      (s.givenBack fn).slot t = s.slot t :=
    fun t ht hne => slot_setReady_other h.mask false hwin ht hne
  have hself : (s.givenBack fn).slot s.tail = ⟨none, false⟩ := by
    rw [← hnone]
    exact s.slot_setReady_self s.tail false
  have hlater : ∀ t : UInt64, s.taken ≤ t.toNat → t ≠ s.tail →
      (s.givenBack fn).taken ≤ t.toNat := by
    intro t hle hne
    have hne' : t.toNat ≠ s.tail.toNat := fun heq => hne (UInt64.toNat.inj heq)
    omega
  refine
    { mask := h.mask
      taken_le := ?_, claimed := ?_, distinct := h.distinct, posts := ?_
      done_lt := ?_, ready := ?_, content := ?_, consumer := hfn, kept := ?_
      ordered := h.ordered, invoked_lt := ?_, notified := h.notified }
  · have hlt := UInt64.lt_iff_toNat_lt.mp hdone.1
    rw [htaken', htaken]
    exact hlt
  · intro i p hp hclaimed
    obtain ⟨hle, hlt⟩ := h.claimed i p hp hclaimed
    exact ⟨hlater p.idx hle (hdone.idx_ne hp hclaimed), hlt⟩
  · intro i p hp
    apply h.postInv_later hp (by omega)
    intro hclaimed _ hwinp
    rw [hother p.idx hwinp (hdone.idx_ne hp hclaimed)]
  · intro t hd
    have hlt := h.done_lt t hd
    omega
  · intro t ht
    rcases h.inWindow_givenBack htaken ht with ⟨hold, hne⟩ | ⟨hslot, hnot⟩
    · rw [hother t hold hne]
      exact h.ready t hold
    · rw [hslot, hself]
      exact ⟨fun hready => (Bool.false_ne_true hready).elim, fun hd => absurd hd hnot⟩
  · intro t ht hd c hc
    rcases h.inWindow_givenBack htaken ht with ⟨hold, hne⟩ | ⟨-, hnot⟩
    · rw [hother t hold hne] at hc
      exact h.content t hold hd c hc
    · exact absurd hd hnot
  · intro c hc
    rcases h.kept c hc with hinv | hheld | ⟨hwinc, hq⟩
    · exact .inl hinv
    · exact .inr (.inl (hhand.symm.trans hheld))
    · have hne : c.ticket ≠ s.tail := by
        intro heq
        have hcfn := hq.2
        rw [heq, hnone] at hcfn
        cases hcfn
      refine .inr (.inr ⟨⟨hlater _ hwinc.1 hne, ?_⟩, hq.of_slot_eq (hother _ hwinc hne)⟩)
      have hlt := hwinc.2
      omega
  · intro c hc
    have hlt := h.invoked_lt c hc
    rw [hfloor] at hlt
    exact hlt

theorem QueueInv.invoke (h : QueueInv s) {fn : Option (Callback α)}
    (hpc : s.consumer = .invoke fn) :
    QueueInv { s with invoked := s.invoked ++ fn.toList, consumer := .loadRunning } := by
  have hcons := h.consumer
  simp only [ConsumerInv, hpc] at hcons
  obtain ⟨hpos, hfn⟩ := hcons
  have htaken : s.taken = s.tail.toNat := by simp [taken, hpc]
  have hhand : s.hand = fn := by simp [hand, hpc]
  have hfloor : s.floor = s.tail.toNat - 1 := by simp [floor, hpc]
  have hlt : ∀ c ∈ s.invoked, c.ticket.toNat < s.tail.toNat - 1 := by
    intro c hc
    rw [← hfloor]
    exact h.invoked_lt c hc
  refine h.sameLap htaken.symm trivial ?_ ?_ ?_
  · intro c hc
    rw [List.mem_append]
    rcases h.kept c hc with hinv | hheld | hqueued
    · exact .inl (.inl hinv)
    · rw [hhand] at hheld
      subst hheld
      exact .inl (.inr (by simp))
    · exact .inr (.inr hqueued)
  · rw [List.map_append, List.pairwise_append]
    refine ⟨h.ordered, ?_, ?_⟩
    · cases fn <;> simp
    · intro a ha b hb
      obtain ⟨c, hc, rfl⟩ := List.mem_map.mp ha
      obtain ⟨c', hc', rfl⟩ := List.mem_map.mp hb
      have hlast := hfn c' (by simpa using hc')
      have hbefore := hlt c hc
      rw [UInt64.lt_iff_toNat_lt]
      omega
  · intro c hc
    change c.ticket.toNat < s.tail.toNat
    rcases List.mem_append.mp hc with hc | hc
    · have hbefore := hlt c hc
      omega
    · have hlast := hfn c (by simpa using hc)
      omega

theorem QueueInv.tail_succ (h : QueueInv s) {fn : Option (Callback α)}
    (hpc : s.consumer = .advanceTail fn) :
    (s.tail + 1).toNat = s.tail.toNat + 1 ∧ s.tail.toNat + 1 ≤ s.head.toNat := by
  have hle := h.taken_le
  simp only [taken, hpc] at hle
  have hlt := s.head.toNat_lt
  refine ⟨?_, hle⟩
  rw [UInt64.toNat_add]
  simp only [UInt64.reduceToNat]
  omega

def EmptyHanded : ConsumerPc α → Prop
  | .clearFn _ _ => False
  | .clearReady _ _ => False
  | .advanceTail _ => False
  | .invoke _ => False
  | _ => True

theorem QueueInv.emptyHanded (h : QueueInv s) (hfrom : EmptyHanded s.consumer)
    (pc : ConsumerPc α) (hto : EmptyHanded pc)
    (hconsumer : { s with consumer := pc }.ConsumerInv) :
    QueueInv { s with consumer := pc } := by
  have hread : ∀ s : ThreadPool ι α, EmptyHanded s.consumer →
      s.taken = s.tail.toNat ∧ s.hand = none ∧ s.floor = s.tail.toNat := by
    intro s hempty
    unfold taken hand floor
    cases hpc : s.consumer <;> simp [hpc, EmptyHanded] at hempty ⊢
  obtain ⟨htaken, hhand, hfloor⟩ := hread s hfrom
  obtain ⟨htaken', hhand', hfloor'⟩ := hread { s with consumer := pc } hto
  exact h.move (htaken'.trans htaken.symm) (hhand'.trans hhand.symm)
    (hfloor'.trans hfloor.symm) hconsumer

theorem QueueInv.consumerStep (h : QueueInv s) : QueueInv s.consumerStep := by
  have hcons := h.consumer
  have hempty := h.emptyHanded
  unfold ThreadPool.consumerStep
  cases hpc : s.consumer with
  | loadRunning =>
      rw [hpc] at hempty
      dsimp only
      split
      · exact hempty trivial .loadTail trivial trivial
      · exact hempty trivial .pendingHead trivial trivial
  | pendingHead =>
      rw [hpc] at hempty
      exact hempty trivial (.pendingTail s.head) trivial trivial
  | pendingTail hd =>
      rw [hpc] at hempty
      dsimp only
      split
      · exact hempty trivial .loadTail trivial trivial
      · exact hempty trivial .exited trivial trivial
  | loadTail =>
      rw [hpc] at hempty
      exact hempty trivial (.loadReady s.tail) trivial rfl
  | loadReady t =>
      rw [hpc] at hempty
      simp only [ConsumerInv, hpc] at hcons
      subst hcons
      dsimp only
      split
      · next hready =>
          have hwin : s.InWindow s.tail := by
            simp [InWindow, taken, hpc, capacity]
          exact hempty trivial (.moveFn s.tail) trivial
            ⟨rfl, (h.ready _ hwin).mp hready⟩
      · exact hempty trivial .loadRunning trivial trivial
  | moveFn t => exact h.moveFn hpc
  | clearFn t fn =>
      simp only [ConsumerInv, hpc] at hcons
      have hsame : s.setFn t none = s := by
        have hslot : ({ s.slot t with fn := none } : QueueSlot α) = s.slot t := by
          rw [← hcons.2.2.1]
        simp only [setFn, hslot]
        rw [slot, Function.update_eq_self]
      simp only [hsame]
      refine h.move ?_ ?_ ?_ hcons
      · simp [taken, hpc]
      · simp [hand, hpc]
      · simp [floor, hpc]
  | clearReady t fn => exact h.clearReady hpc
  | advanceTail fn =>
      simp only [ConsumerInv, hpc] at hcons
      have htail := (h.tail_succ hpc).1
      refine h.move ?_ ?_ ?_ ⟨?_, ?_⟩
      · simp [taken, hpc, htail]
      · simp [hand, hpc]
      · simp [floor, hpc, htail]
      · rw [htail]
        omega
      · intro c hc
        rw [hcons c hc, htail]
  | invoke fn => exact h.invoke hpc
  | exited => exact h

/-- The place of the consumer is safe as long as slots whose post has ended keep
their content. -/
theorem QueueInv.consumerInv_of_keeps (h : QueueInv s) {s' : ThreadPool ι α}
    (hsame : s'.consumer = s.consumer) (htail : s'.tail = s.tail)
    (hdone : ∀ t, s.Done t → s'.Done t)
    (hfn : ∀ t, s.InWindow t → s.Done t → (s'.slot t).fn = (s.slot t).fn) :
    s'.ConsumerInv := by
  have hcons := h.consumer
  unfold ConsumerInv at hcons ⊢
  rw [hsame]
  cases hpc : s.consumer with
  | loadReady t =>
      rw [hpc] at hcons
      exact hcons.trans htail.symm
  | moveFn t =>
      rw [hpc] at hcons
      exact ⟨hcons.1.trans htail.symm, hdone t hcons.2⟩
  | clearFn t fn | clearReady t fn =>
      rw [hpc] at hcons
      obtain ⟨rfl, hd, hnone, hc⟩ := hcons
      have hwin : s.InWindow s.tail :=
        h.inWindow_of_done hd (by simp [taken, hpc])
      exact ⟨htail.symm, hdone _ hd, (hfn _ hwin hd).trans hnone, hc⟩
  | advanceTail fn =>
      rw [hpc] at hcons
      rw [htail]
      exact hcons
  | invoke fn =>
      rw [hpc] at hcons
      rw [htail]
      exact hcons
  | loadRunning | pendingHead | pendingTail hd | loadTail | exited => trivial

theorem QueueInv.writeFn (h : QueueInv s) {i : ι} {p : Post α}
    (hp : s.posts i = some p) (hclaimed : p.Claimed)
    (hlt : p.idx.toNat < s.taken + s.capacity) (hpc : p.pc ≠ .setReady)
    (fn : Option (Callback α)) :
    QueueInv (s.setFn p.idx fn) := by
  have hwin : s.InWindow p.idx := h.inWindow_of_post hp hclaimed hlt
  have hflight : s.InFlight p.idx := ⟨i, p, hp, hclaimed, rfl⟩
  have hother : ∀ t, s.InWindow t → t ≠ p.idx → (s.setFn p.idx fn).slot t = s.slot t :=
    fun t ht hne => slot_setFn_other h.mask fn hwin ht hne
  have hready : ∀ t, s.InWindow t →
      ((s.setFn p.idx fn).slot t).ready = (s.slot t).ready := by
    intro t ht
    by_cases heq : t = p.idx
    · rw [heq, slot_setFn_self]
    · rw [hother t ht heq]
  have hdone : ∀ t, s.InWindow t → s.Done t →
      (s.setFn p.idx fn).slot t = s.slot t := by
    intro t ht hd
    apply hother t ht
    rintro rfl
    exact hd.2 hflight
  refine
    { mask := h.mask, taken_le := h.taken_le, claimed := h.claimed
      distinct := h.distinct, posts := ?_, done_lt := h.done_lt, ready := ?_
      content := ?_, consumer := ?_, kept := ?_, ordered := h.ordered
      invoked_lt := h.invoked_lt, notified := h.notified }
  · intro j q hq
    refine h.postInv_later hq (Nat.le_refl _) ?_
    intro hcq hset hwinq
    rw [hother q.idx hwinq]
    intro heq
    obtain rfl := h.distinct j q i p hq hp hcq hclaimed heq
    obtain rfl := Option.some.inj (hp.symm.trans hq)
    exact hpc hset
  · intro t ht
    rw [hready t ht]
    exact h.ready t ht
  · intro t ht hd c hc
    rw [hdone t ht hd] at hc
    exact h.content t ht hd c hc
  · exact h.consumerInv_of_keeps rfl rfl (fun _ hd => hd) fun t ht hd => by
      rw [hdone t ht hd]
  · intro c hc
    rcases h.kept c hc with hinv | hheld | ⟨hwinc, hq⟩
    · exact .inl hinv
    · exact .inr (.inl hheld)
    · have hd := (h.ready _ hwinc).mp hq.1
      exact .inr (.inr ⟨hwinc, hq.of_slot_eq (hdone _ hwinc hd)⟩)

section Posts

variable [DecidableEq ι] {i : ι} {p p' : Post α}

theorem posts_setPost_self (s : ThreadPool ι α) (i : ι) (p : Option (Post α)) :
    (s.setPost i p).posts i = p :=
  Function.update_self ..

theorem posts_setPost_of_ne (s : ThreadPool ι α) {i j : ι} (p : Option (Post α))
    (hne : j ≠ i) : (s.setPost i p).posts j = s.posts j :=
  Function.update_of_ne hne ..

/-- A thread moves on inside `post`, or enters it: its ticket stays what it
was. -/
theorem QueueInv.setPost (h : QueueInv s) (hpost : s.PostInv p')
    (hback : p'.Claimed → ∃ p, s.posts i = some p ∧ p.Claimed ∧ p.idx = p'.idx)
    (hforth : ∀ p, s.posts i = some p → p.Claimed → p'.Claimed ∧ p'.idx = p.idx) :
    QueueInv (s.setPost i (some p')) := by
  have horigin : ∀ j q, (s.setPost i (some p')).posts j = some q → q.Claimed →
      ∃ q', s.posts j = some q' ∧ q'.Claimed ∧ q'.idx = q.idx := by
    intro j q hq hclaimed
    by_cases hj : j = i
    · subst hj
      rw [posts_setPost_self] at hq
      obtain rfl := Option.some.inj hq
      exact hback hclaimed
    · rw [posts_setPost_of_ne s _ hj] at hq
      exact ⟨q, hq, hclaimed, rfl⟩
  have hflight : (s.setPost i (some p')).InFlight = s.InFlight := by
    funext t
    refine propext ⟨?_, ?_⟩
    · rintro ⟨j, q, hq, hclaimed, rfl⟩
      obtain ⟨q', hq', hclaimed', heq⟩ := horigin j q hq hclaimed
      exact ⟨j, q', hq', hclaimed', heq⟩
    · rintro ⟨j, q, hq, hclaimed, rfl⟩
      by_cases hj : j = i
      · subst hj
        obtain ⟨hclaimed', heq⟩ := hforth q hq hclaimed
        exact ⟨j, p', posts_setPost_self .., hclaimed', heq⟩
      · exact ⟨j, q, (posts_setPost_of_ne s _ hj).trans hq, hclaimed, rfl⟩
  have hdone : (s.setPost i (some p')).Done = s.Done := by
    funext t
    rw [Done, Done, hflight]
    rfl
  refine
    { mask := h.mask, taken_le := h.taken_le, claimed := ?_, distinct := ?_
      posts := ?_, done_lt := ?_, ready := ?_, content := ?_, consumer := ?_
      kept := h.kept, ordered := h.ordered, invoked_lt := h.invoked_lt
      notified := h.notified }
  · intro j q hq hclaimed
    obtain ⟨q', hq', hclaimed', heq⟩ := horigin j q hq hclaimed
    rw [← heq]
    exact h.claimed j q' hq' hclaimed'
  · intro j q k r hq hr hclaimed hclaimedr heq
    obtain ⟨q', hq', hcq, heqq⟩ := horigin j q hq hclaimed
    obtain ⟨r', hr', hcr, heqr⟩ := horigin k r hr hclaimedr
    exact h.distinct j q' k r' hq' hr' hcq hcr ((heqq.trans heq).trans heqr.symm)
  · intro j q hq
    by_cases hj : j = i
    · subst hj
      rw [posts_setPost_self] at hq
      obtain rfl := Option.some.inj hq
      exact hpost
    · rw [posts_setPost_of_ne s _ hj] at hq
      exact h.posts j q hq
  · rw [hdone]
    exact h.done_lt
  · rw [hdone]
    exact h.ready
  · rw [hdone]
    exact h.content
  · unfold ConsumerInv
    rw [hdone]
    exact h.consumer

def fetched (s : ThreadPool ι α) (i : ι) (p : Post α) : ThreadPool ι α :=
  { s with head := s.head + 1 }.setPost i
    (some { p with idx := s.head, pc := .load 0 })

theorem lt_head_fetched (hwrap : s.head.toNat + 1 < 2 ^ 64) (t : UInt64) :
    t < (s.fetched i p).head ↔ t < s.head ∨ t = s.head := by
  have hhead : (s.head + 1).toNat = s.head.toNat + 1 := by
    rw [UInt64.toNat_add]
    exact Nat.mod_eq_of_lt hwrap
  change t < s.head + 1 ↔ _
  rw [UInt64.lt_iff_toNat_lt, UInt64.lt_iff_toNat_lt, hhead, ← UInt64.toNat_inj]
  omega

/-- The claimed posts are those of before, and the one with the ticket `head_`. -/
theorem posts_fetched {j : ι} {q : Post α}
    (hq : (s.fetched i p).posts j = some q) :
    (j ≠ i ∧ s.posts j = some q) ∨ (j = i ∧ q.idx = s.head) := by
  by_cases hj : j = i
  · subst hj
    rw [fetched, posts_setPost_self] at hq
    obtain rfl := Option.some.inj hq
    exact .inr ⟨rfl, rfl⟩
  · rw [fetched, posts_setPost_of_ne _ _ hj] at hq
    exact .inl ⟨hj, hq⟩

theorem inFlight_fetched (hp : s.posts i = some p) (hpc : p.pc = .fetchAdd)
    (t : UInt64) : (s.fetched i p).InFlight t ↔ s.InFlight t ∨ t = s.head := by
  constructor
  · rintro ⟨j, q, hq, hclaimed, rfl⟩
    rcases posts_fetched hq with ⟨-, hold⟩ | ⟨-, hnew⟩
    · exact .inl ⟨j, q, hold, hclaimed, rfl⟩
    · exact .inr hnew
  · rintro (⟨j, q, hq, hclaimed, rfl⟩ | rfl)
    · have hj : j ≠ i := by
        rintro rfl
        obtain rfl := Option.some.inj (hp.symm.trans hq)
        exact hclaimed hpc
      exact ⟨j, q, (posts_setPost_of_ne _ _ hj).trans hq, hclaimed, rfl⟩
    · exact ⟨i, _, posts_setPost_self .., by simp [Post.Claimed], rfl⟩

theorem done_fetched (hp : s.posts i = some p) (hpc : p.pc = .fetchAdd)
    (hwrap : s.head.toNat + 1 < 2 ^ 64) : (s.fetched i p).Done = s.Done := by
  funext t
  unfold Done
  rw [lt_head_fetched hwrap, inFlight_fetched hp hpc, not_or]
  refine propext ⟨?_, ?_⟩
  · rintro ⟨hbelow, hnot, hne⟩
    exact ⟨hbelow.resolve_right hne, hnot⟩
  · rintro ⟨hbelow, hnot⟩
    refine ⟨.inl hbelow, hnot, ?_⟩
    rintro rfl
    exact UInt64.lt_irrefl _ hbelow

theorem QueueInv.fetchAdd (h : QueueInv s) (hp : s.posts i = some p)
    (hpc : p.pc = .fetchAdd) (hwrap : s.head.toNat + 1 < 2 ^ 64) :
    QueueInv (s.fetched i p) := by
  have hdone := done_fetched hp hpc hwrap
  have hlt := lt_head_fetched (i := i) (p := p) hwrap
  have hold : ∀ {j q}, s.posts j = some q → q.Claimed → q.idx ≠ s.head := by
    intro j q hq hcq heq
    have hbelow := (h.claimed j q hq hcq).2
    rw [heq] at hbelow
    exact UInt64.lt_irrefl _ hbelow
  refine
    { mask := h.mask, taken_le := ?_, claimed := ?_, distinct := ?_
      posts := ?_, done_lt := ?_, ready := ?_, content := ?_, consumer := ?_
      kept := h.kept, ordered := h.ordered, invoked_lt := h.invoked_lt
      notified := h.notified }
  · have hnew := UInt64.lt_iff_toNat_lt.mp ((hlt s.head).mpr (.inr rfl))
    exact h.taken_le.trans hnew.le
  · intro j q hq hclaimed
    rw [hlt]
    rcases posts_fetched hq with ⟨-, hq⟩ | ⟨-, hnew⟩
    · obtain ⟨hle, hbelow⟩ := h.claimed j q hq hclaimed
      exact ⟨hle, .inl hbelow⟩
    · rw [hnew]
      exact ⟨h.taken_le, .inr rfl⟩
  · intro j q k r hq hr hcq hcr heq
    rcases posts_fetched hq with ⟨-, hq'⟩ | ⟨hj, hnew⟩
    · rcases posts_fetched hr with ⟨-, hr'⟩ | ⟨-, hnew⟩
      · exact h.distinct j q k r hq' hr' hcq hcr heq
      · exact absurd (heq.trans hnew) (hold hq' hcq)
    · rcases posts_fetched hr with ⟨-, hr'⟩ | ⟨hk, -⟩
      · exact absurd (heq.symm.trans hnew) (hold hr' hcr)
      · exact hj.trans hk.symm
  · intro j q hq
    by_cases hj : j = i
    · subst hj
      rw [fetched, posts_setPost_self] at hq
      obtain rfl := Option.some.inj hq
      trivial
    · rw [fetched, posts_setPost_of_ne _ _ hj] at hq
      exact h.posts j q hq
  · rw [hdone]
    exact h.done_lt
  · rw [hdone]
    exact h.ready
  · rw [hdone]
    exact h.content
  · unfold ConsumerInv
    rw [hdone]
    exact h.consumer

def finished (s : ThreadPool ι α) (i : ι) (p : Post α) : ThreadPool ι α :=
  { s.setReady p.idx true with
    posted := s.posted ++ p.callback.toList }.setPost i none

theorem posts_finished {j : ι} {q : Post α} :
    (s.finished i p).posts j = some q ↔ j ≠ i ∧ s.posts j = some q := by
  by_cases hj : j = i
  · subst hj
    rw [finished, posts_setPost_self]
    simp
  · rw [finished, posts_setPost_of_ne _ _ hj]
    simp [hj, ThreadPool.setReady]

theorem QueueInv.inFlight_finished (h : QueueInv s) (hp : s.posts i = some p)
    (hclaimed : p.Claimed) (t : UInt64) :
    (s.finished i p).InFlight t ↔ s.InFlight t ∧ t ≠ p.idx := by
  constructor
  · rintro ⟨j, q, hq, hcq, rfl⟩
    obtain ⟨hj, hq⟩ := posts_finished.mp hq
    refine ⟨⟨j, q, hq, hcq, rfl⟩, ?_⟩
    exact fun heq => hj (h.distinct j q i p hq hp hcq hclaimed heq)
  · rintro ⟨⟨j, q, hq, hcq, rfl⟩, hne⟩
    refine ⟨j, q, posts_finished.mpr ⟨?_, hq⟩, hcq, rfl⟩
    rintro rfl
    obtain rfl := Option.some.inj (hp.symm.trans hq)
    exact hne rfl

theorem QueueInv.done_finished (h : QueueInv s) (hp : s.posts i = some p)
    (hclaimed : p.Claimed) (t : UInt64) :
    (s.finished i p).Done t ↔ s.Done t ∨ t = p.idx := by
  change t < s.head ∧ ¬ (s.finished i p).InFlight t ↔ _
  rw [h.inFlight_finished hp hclaimed, not_and_or, not_not]
  constructor
  · rintro ⟨hbelow, hnot | heq⟩
    · exact .inl ⟨hbelow, hnot⟩
    · exact .inr heq
  · rintro (hd | rfl)
    · exact ⟨hd.1, .inl hd.2⟩
    · exact ⟨(h.claimed i p hp hclaimed).2, .inr rfl⟩

theorem QueueInv.setReady (h : QueueInv s) (hp : s.posts i = some p)
    (hpc : p.pc = .setReady) : QueueInv (s.finished i p) := by
  have hpost := h.posts i p hp
  simp only [PostInv, hpc] at hpost
  obtain ⟨hlt, hfn⟩ := hpost
  have hclaimed : p.Claimed := by simp [Post.Claimed, hpc]
  have hwin : s.InWindow p.idx := h.inWindow_of_post hp hclaimed hlt
  have hdone := h.done_finished hp hclaimed
  have hother : ∀ t, s.InWindow t → t ≠ p.idx →
      (s.finished i p).slot t = s.slot t :=
    fun t ht hne => slot_setReady_other h.mask true hwin ht hne
  have hself : (s.finished i p).slot p.idx = ⟨p.callback, true⟩ := by
    rw [← hfn]
    exact s.slot_setReady_self p.idx true
  have hsame : ∀ t, s.InWindow t → ((s.finished i p).slot t).fn = (s.slot t).fn := by
    intro t ht
    by_cases heq : t = p.idx
    · rw [heq, hself, hfn]
    · rw [hother t ht heq]
  refine
    { mask := h.mask, taken_le := h.taken_le, claimed := ?_, distinct := ?_
      posts := ?_, done_lt := ?_, ready := ?_, content := ?_, consumer := ?_
      kept := ?_, ordered := h.ordered, invoked_lt := h.invoked_lt
      notified := h.notified }
  · intro j q hq hcq
    exact h.claimed j q (posts_finished.mp hq).2 hcq
  · intro j q k r hq hr
    exact h.distinct j q k r (posts_finished.mp hq).2 (posts_finished.mp hr).2
  · intro j q hq
    obtain ⟨-, hq⟩ := posts_finished.mp hq
    exact h.postInv_later hq (Nat.le_refl _) fun _ _ hwinq => hsame q.idx hwinq
  · intro t hd
    rcases (hdone t).mp hd with hd | rfl
    · exact h.done_lt t hd
    · exact hlt
  · intro t ht
    rw [hdone]
    by_cases heq : t = p.idx
    · subst heq
      rw [hself]
      simp
    · rw [hother t ht heq]
      simp only [heq, or_false]
      exact h.ready t ht
  · intro t ht hd c hc
    by_cases heq : t = p.idx
    · subst heq
      rw [hself] at hc
      obtain ⟨fn, -, rfl⟩ := Option.map_eq_some_iff.mp hc
      rfl
    · rw [hother t ht heq] at hc
      exact h.content t ht (((hdone t).mp hd).resolve_right heq) c hc
  · exact h.consumerInv_of_keeps rfl rfl (fun t hd => (hdone t).mpr (.inl hd))
      fun t ht _ => hsame t ht
  · intro c hc
    rcases List.mem_append.mp hc with hc | hc
    · rcases h.kept c hc with hinv | hheld | ⟨hwinc, hq⟩
      · exact .inl hinv
      · exact .inr (.inl hheld)
      · have hd := (h.ready _ hwinc).mp hq.1
        have hne : c.ticket ≠ p.idx := (hd.idx_ne hp hclaimed).symm
        exact .inr (.inr ⟨hwinc, hq.of_slot_eq (hother _ hwinc hne)⟩)
    · have hc : p.callback = some c := by simpa using hc
      obtain ⟨fn, -, rfl⟩ := Option.map_eq_some_iff.mp hc
      refine .inr (.inr ⟨hwin, congrArg QueueSlot.ready hself, ?_⟩)
      exact (congrArg QueueSlot.fn hself).trans hc

theorem QueueInv.postStep (h : QueueInv s) (hp : s.posts i = some p)
    (hturn : s.InTurn (.post i)) : QueueInv (s.postStep i p) := by
  obtain ⟨hwrap, hloop⟩ := hturn p hp
  have hpost := h.posts i p hp
  have hmove : ∀ {s' : ThreadPool ι α} {pc : PostPc}, QueueInv s' →
      s'.posts i = some p → p.Claimed → pc ≠ .fetchAdd →
      s'.PostInv { p with pc := pc } →
      QueueInv (s'.setPost i (some { p with pc := pc })) := by
    intro s' pc h' hp' hclaimed hne hpost'
    refine h'.setPost hpost' (fun _ => ⟨p, hp', hclaimed, rfl⟩) ?_
    intro q hq _
    obtain rfl := Option.some.inj (hp'.symm.trans hq)
    exact ⟨hne, rfl⟩
  unfold ThreadPool.postStep
  cases hpc : p.pc with
  | fetchAdd => exact h.fetchAdd hp hpc (hwrap hpc)
  | load spin =>
      have hclaimed : p.Claimed := by simp [Post.Claimed, hpc]
      dsimp only
      split
      · next hready =>
          split
          · next hspin =>
              have hlt := hloop ⟨spin, hpc, .inr hspin⟩
              have hd := (h.ready _ (h.inWindow_of_post hp hclaimed hlt)).mp hready
              exact absurd ⟨i, p, hp, hclaimed, rfl⟩ hd.2
          · exact hmove h hp hclaimed (by simp) trivial
      · next hready =>
          have hlt := hloop ⟨spin, hpc, .inl (by simpa using hready)⟩
          exact hmove h hp hclaimed (by simp) hlt
  | clearFn | clearReady | notify =>
      simp only [PostInv, hpc] at hpost
  | writeFn =>
      simp only [PostInv, hpc] at hpost
      have hclaimed : p.Claimed := by simp [Post.Claimed, hpc]
      have hwrite := h.writeFn hp hclaimed hpost (by simp [hpc]) p.callback
      exact hmove hwrite hp hclaimed (by simp)
        ⟨hpost, congrArg QueueSlot.fn (s.slot_setFn_self p.idx p.callback)⟩
  | setReady => exact h.setReady hp hpc

theorem QueueInv.enter (h : QueueInv s) (hidle : s.posts i = none) (fn : Option α) :
    QueueInv (s.setPost i (some (Post.start fn))) := by
  refine h.setPost trivial ?_ ?_
  · intro hclaimed
    exact absurd rfl hclaimed
  · intro p hp
    rw [hidle] at hp
    cases hp

theorem queueInv_step (s : ThreadPool ι α) (ev : Event ι α) (hturn : s.InTurn ev)
    (h : QueueInv s) : QueueInv (s.step ev) := by
  cases ev with
  | call i fn =>
      cases hi : s.posts i with
      | none =>
          simp only [step, hi]
          exact h.enter hi fn
      | some p =>
          simp only [step, hi]
          exact h
  | stop i noop =>
      cases hi : s.posts i with
      | none =>
          simp only [step, hi]
          split
          · have hstopped : QueueInv { s with running := false } := { h with }
            exact hstopped.enter hi (some noop)
          · exact h
      | some p =>
          simp only [step, hi]
          exact h
  | post i =>
      cases hi : s.posts i with
      | none =>
          simp only [step, hi]
          exact h
      | some p =>
          simp only [step, hi]
          exact h.postStep hi hturn
  | consume => exact h.consumerStep

theorem queueInv_run {queueDepth : UInt64} (hdepth : queueDepth.toNat ≤ 2 ^ 63)
    {overflowHandler : Bool} {evs : List (Event ι α)}
    (hturn : Guarded step InTurn (create ι α queueDepth overflowHandler) evs) :
    QueueInv (run step (create ι α queueDepth overflowHandler) evs) :=
  run_invariant_of_guarded queueInv_step (queueInv_create hdepth overflowHandler) hturn

end Posts

end ThreadPool

end Proxy

end Shinigami
