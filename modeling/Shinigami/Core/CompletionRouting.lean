import Shinigami.Core.IoUringLoop

/-!
# Which registration a completion calls

A request in flight knows the number of its slot only. Its completion calls the
registration for which it was submitted as long as no slot changes hands under a
request in flight, no request is submitted for an unregistered timer, and no entry that a
failed submission left in the ring completes with user data: these are the conditions
`keepsRouting` on the steps, and `LoopInv` is what they keep.
-/

namespace Shinigami

namespace Core

def requestFor (l : IoLoop) (i : ℕ) : Bool :=
  l.inFlight.any fun
    | .prepared p => p.opIdx == (i : ℤ)
    | .leftover => false

def canCallBack (d : IoOpDesc) : Bool :=
  d.callback.isSome && (d.opType == .timeout || d.opType == .read || d.opType == .poll)

def slotOwned (l : IoLoop) (i : ℕ) : Bool := (l.owner i).isSome || !canCallBack (l.ops i)

/-- A slot is filled or unregistered only when no request for it is in flight, no request is
submitted for an unregistered timer, and an entry that was left in the ring completes with a
null pointer. Slots that cannot call back are exempt. -/
def keepsRouting (l : IoLoop) : LoopEvent → Bool
  | .register desc =>
      match registerSlot l desc with
      | none => true
      | some i => !requestFor l i || !canCallBack desc
  | .unregister fd =>
      match unregisterSlot l fd with
      | none => true
      | some i => !requestFor l i || !canCallBack (l.ops i)
  | .enter _ _ _ =>
      l.phase != .idle ||
        (List.range l.opCount).all fun i => (l.ops i).opType != .timeout || slotOwned l i
  | .ret rc stopFlag _ =>
      match l.phase with
      | .opCallback i .timeout _ =>
          !stopFlag || rc != 0 || decide (i ≥ l.opCount) || slotOwned l i
      | _ => true
  | .complete k found _ _ _ =>
      match l.inFlight[k]? with
      | some .leftover => l.phase != .waiting || found.isNone
      | _ => true
  | _ => true

/-- The callback was called for the registration of the request. -/
def Invocation.Routed (c : Invocation) : Prop :=
  ∃ r ∈ c.submittedFor, c.calledFor = some r

instance (c : Invocation) : Decidable c.Routed :=
  inferInstanceAs (Decidable (∃ r ∈ c.submittedFor, c.calledFor = some r))

structure LoopInv (l : IoLoop) : Prop where
  routed : ∀ p : IoPending, .prepared p ∈ l.inFlight → ∀ i : ℕ, p.opIdx = i → i < l.opCount →
    canCallBack (l.ops i) = true → ∃ r, p.registration = some r ∧ l.owner i = some r
  unowned : ∀ i < l.opCount, l.owner i = none → (l.ops i).fd < 0
  invoked : ∀ c ∈ l.invoked, c.Routed

section Submit

variable {l : IoLoop} {p : IoPending} {i : ℕ} {out : Submission}

theorem loopInv_create : LoopInv ioLoopCreate where
  routed := by simp [ioLoopCreate]
  unowned := by simp [ioLoopCreate]
  invoked := by simp [ioLoopCreate]

theorem LoopInv.setPhase (h : LoopInv l) (phase : LoopPhase) :
    LoopInv { l with phase := phase } := ⟨h.routed, h.unowned, h.invoked⟩

theorem slotOwned_iff : slotOwned l i = true ↔
    (canCallBack (l.ops i) = true → ∃ r, l.owner i = some r) := by
  rw [slotOwned, Bool.or_eq_true, Bool.not_eq_true', Option.isSome_iff_exists]
  constructor
  · rintro (howner | hquiet) hcan
    · exact howner
    · rw [hquiet] at hcan
      cases hcan
  · intro h
    cases hcan : canCallBack (l.ops i) with
    | true => exact .inl (h hcan)
    | false => exact .inr rfl

theorem LoopInv.submitPending (h : LoopInv l)
    (hp : ∀ i : ℕ, p.opIdx = i → i < l.opCount → canCallBack (l.ops i) = true →
      ∃ r, p.registration = some r ∧ l.owner i = some r) :
    LoopInv (submitPending l p out) := by
  cases out with
  | noRoom => exact h
  | unprepared =>
      refine ⟨fun q hq => ?_, h.unowned, h.invoked⟩
      exact h.routed q (by simpa [Core.submitPending] using hq)
  | prepared =>
      refine ⟨fun q hq => ?_, h.unowned, h.invoked⟩
      have hq' : .prepared q ∈ l.inFlight ∨ q = p := by
        simpa [Core.submitPending] using hq
      rcases hq' with hq' | rfl
      · exact h.routed q hq'
      · exact hp

theorem LoopInv.submitOp (h : LoopInv l) (howned : i < l.opCount → slotOwned l i = true) :
    LoopInv (Core.submitPending l (opPending l i) out) := by
  refine h.submitPending fun j hj hlt hcan => ?_
  have hij : i = j := Int.ofNat_inj.mp hj
  subst hij
  obtain ⟨r, hr⟩ := slotOwned_iff.mp (howned hlt) hcan
  exact ⟨r, hr, hr⟩

theorem LoopInv.slotOwned_of_fd (h : LoopInv l) (hfd : ¬(l.ops i).fd < 0)
    (hi : i < l.opCount) : slotOwned l i = true := by
  refine slotOwned_iff.mpr fun _ => Option.ne_none_iff_exists'.mp fun hnone => ?_
  exact hfd (h.unowned i hi hnone)

theorem LoopInv.submitReadOp (h : LoopInv l) : LoopInv (submitReadOp l i out) := by
  unfold Core.submitReadOp
  split_ifs with hskip
  · exact h
  · exact h.submitOp (h.slotOwned_of_fd fun hneg => hskip (.inl hneg))

theorem LoopInv.submitPollOp (h : LoopInv l) : LoopInv (submitPollOp l i out) := by
  unfold Core.submitPollOp
  split_ifs with hskip
  · exact h
  · exact h.submitOp (h.slotOwned_of_fd hskip)

theorem LoopInv.submitWakeupRead (h : LoopInv l) : LoopInv (submitWakeupRead l out) := by
  refine h.submitPending fun i hi => ?_
  simp only [wakeupOpIdx] at hi
  omega

/-- The re-arming behind a callback: only a timer is re-armed without a look at its
descriptor. -/
theorem LoopInv.rearm (h : LoopInv l) {opType : IoOpType} {result rc : ℤ} {stopFlag : Bool}
    (howned : opType = .timeout → stopFlag = true → rc = 0 → i < l.opCount →
      slotOwned l i = true) : LoopInv (rearm l i opType result rc stopFlag out) := by
  cases opType with
  | timeout =>
      simp only [Core.rearm]
      split_ifs with harm
      · exact h.submitOp (howned rfl harm.1 harm.2.1)
      · exact h
  | read =>
      simp only [Core.rearm]
      split_ifs
      · exact h.submitReadOp
      · exact h
  | poll =>
      simp only [Core.rearm]
      split_ifs
      · exact h.submitPollOp
      · exact h
  | write => exact h
  | accept => exact h
  | cancel => exact h

end Submit

section Initial

variable {l : IoLoop}

structure SameSlots (l l' : IoLoop) : Prop where
  ops : l'.ops = l.ops
  opCount : l'.opCount = l.opCount
  owner : l'.owner = l.owner

theorem sameSlots_submitPending (l : IoLoop) (p : IoPending) (out : Submission) :
    SameSlots l (submitPending l p out) := by
  cases out <;> exact ⟨rfl, rfl, rfl⟩

theorem sameSlots_submitInitial (l : IoLoop) (out : ℕ → Submission) (i : ℕ) :
    SameSlots l (submitInitial out l i) := by
  unfold submitInitial submitReadOp submitPollOp submitTimeoutOp
  split_ifs
  all_goals first
    | exact sameSlots_submitPending _ _ _
    | exact ⟨rfl, rfl, rfl⟩

theorem LoopInv.submitInitial (h : LoopInv l) (out : ℕ → Submission) {i : ℕ}
    (hi : (l.ops i).opType = .timeout → slotOwned l i = true) :
    LoopInv (submitInitial out l i) := by
  unfold Core.submitInitial
  split_ifs with hread hpoll htimeout
  · exact h.submitReadOp
  · exact h.submitPollOp
  · exact h.submitOp fun _ => hi htimeout
  · exact h

theorem LoopInv.submitAll (h : LoopInv l) (out : ℕ → Submission) {slots : List ℕ}
    (hslots : ∀ i ∈ slots, (l.ops i).opType = .timeout → slotOwned l i = true) :
    LoopInv (slots.foldl (Core.submitInitial out) l) := by
  induction slots generalizing l with
  | nil => exact h
  | cons i slots ih =>
      rw [List.foldl_cons]
      have hsame := sameSlots_submitInitial l out i
      refine ih (h.submitInitial out (hslots i (by simp))) fun j hj => ?_
      rw [slotOwned, hsame.ops, hsame.owner]
      exact hslots j (by simp [hj])

end Initial

section Step

variable {l : IoLoop} {i : ℕ}

theorem requestFor_eq_false (h : requestFor l i = false) {p : IoPending}
    (hp : .prepared p ∈ l.inFlight) : p.opIdx ≠ i := by
  simpa using List.any_eq_false.mp h _ hp

/-- A slot changes hands when no request for it is in flight, or when it cannot call
back afterwards. -/
theorem LoopInv.setSlot (h : LoopInv l) {desc : IoOpDesc} {reg : Option ℕ} {count next : ℕ}
    (hcount : ∀ j < count, j = i ∨ j < l.opCount)
    (hquiet : requestFor l i = false ∨ canCallBack desc = false)
    (hfd : reg = none → desc.fd < 0) :
    LoopInv
      { l with
        ops := Function.update l.ops i desc
        opCount := count
        owner := Function.update l.owner i reg
        nextRegistration := next } where
  routed := by
    intro p hp j hj hlt hcan
    by_cases hji : j = i
    · subst hji
      rcases hquiet with hquiet | hquiet
      · exact absurd hj (requestFor_eq_false hquiet hp)
      · simp only [Function.update_self] at hcan
        rw [hquiet] at hcan
        cases hcan
    · simp only [Function.update_of_ne hji] at hcan ⊢
      exact h.routed p hp j hj ((hcount j hlt).resolve_left hji) hcan
  unowned := by
    intro j hlt hnone
    by_cases hji : j = i
    · subst hji
      simp only [Function.update_self] at hnone ⊢
      exact hfd hnone
    · simp only [Function.update_of_ne hji] at hnone ⊢
      exact h.unowned j ((hcount j hlt).resolve_left hji) hnone
  invoked := h.invoked

theorem registerSlot_le {desc : IoOpDesc} (h : registerSlot l desc = some i) :
    i ≤ l.opCount := by
  unfold registerSlot at h
  split at h
  · case h_1 j hfound =>
      cases h
      exact Nat.le_of_lt (List.mem_range.mp (List.mem_of_find?_eq_some hfound))
  · split_ifs at h
    cases h
    exact Nat.le_refl _

theorem LoopInv.register (h : LoopInv l) {desc : IoOpDesc}
    (hev : keepsRouting l (.register desc) = true) : LoopInv (ioLoopRegisterOp l desc).1 := by
  unfold ioLoopRegisterOp
  cases hslot : registerSlot l desc with
  | none => exact h
  | some i =>
      have hle := registerSlot_le hslot
      refine h.setSlot (fun j hj => by omega) ?_ (by simp)
      simpa [keepsRouting, hslot] using hev

theorem LoopInv.unregister (h : LoopInv l) {fd : ℤ}
    (hev : keepsRouting l (.unregister fd) = true) :
    LoopInv (ioLoopUnregisterFd l fd).1 := by
  unfold ioLoopUnregisterFd
  cases hslot : unregisterSlot l fd with
  | none => exact h
  | some i =>
      refine h.setSlot (fun j hj => .inr hj) ?_ (by simp)
      have hquiet : requestFor l i = false ∨ canCallBack (l.ops i) = false := by
        simpa [keepsRouting, hslot] using hev
      exact hquiet

theorem canCallBack_of_callsBack {d : IoOpDesc} {result : ℤ}
    (h : callsBack d result = true) : canCallBack d = true := by
  simp only [callsBack, canCallBack, Bool.and_eq_true] at h ⊢
  refine ⟨h.1, ?_⟩
  cases hty : d.opType <;> simp_all

/-- A completion calls the registration that its request was submitted for. -/
theorem LoopInv.processCqe (h : LoopInv l) {p : IoPending} {result : ℤ}
    {stopFlag : Bool} {out : Submission}
    (hp : ∀ i : ℕ, p.opIdx = i → i < l.opCount → canCallBack (l.ops i) = true →
      ∃ r, p.registration = some r ∧ l.owner i = some r) :
    LoopInv (processCqe l p result stopFlag out) := by
  simp only [Core.processCqe]
  split_ifs with hwakeup hstop hwrite hcb hrange hcall
  · exact h.submitWakeupRead
  · exact h
  · exact h.setPhase _
  · exact h
  · exact h
  · rw [not_or, Int.not_lt] at hrange
    have hidx : p.opIdx = (p.opIdx.toNat : ℕ) := by omega
    refine ⟨h.routed, h.unowned, fun c hc => ?_⟩
    rw [List.mem_append, List.mem_singleton] at hc
    rcases hc with hc | rfl
    · exact h.invoked c hc
    · exact hp _ hidx (by omega) (canCallBack_of_callsBack hcall)
  · rw [not_or, Int.not_lt] at hrange
    have hidx : p.opIdx = (p.opIdx.toNat : ℕ) := by omega
    refine h.rearm fun _ _ _ hlt => slotOwned_iff.mpr fun hcan => ?_
    obtain ⟨r, -, hr⟩ := hp _ hidx hlt hcan
    exact ⟨r, hr⟩

theorem LoopInv.clear (h : LoopInv l) : LoopInv (ioLoopClearOps l) where
  routed := fun _ _ i _ hlt => absurd hlt (Nat.not_lt_zero i)
  unowned := fun i hlt => absurd hlt (Nat.not_lt_zero i)
  invoked := h.invoked

theorem LoopInv.submitWrite (h : LoopInv l) (fd : ℤ) (cb : Option ℕ) (userData : ℕ)
    (out : Submission) (submitOk : Bool) :
    LoopInv (ioLoopSubmitWrite l fd cb userData out submitOk) := by
  have hwrite (out' : Submission) :
      LoopInv (Core.submitPending l ⟨writeOpIdx, cb, fd, userData, none⟩ out') := by
    refine h.submitPending fun i hi => ?_
    simp only [writeOpIdx] at hi
    omega
  unfold ioLoopSubmitWrite
  split_ifs
  · exact h
  · split
    · exact hwrite _
    · exact hwrite _

theorem LoopInv.enter (h : LoopInv l) (hidle : l.phase = .idle)
    {out : ℕ → Submission} {wakeup : Submission} {submitOk : Bool}
    (hev : keepsRouting l (.enter out wakeup submitOk) = true) :
    LoopInv (ioLoopRun l out wakeup submitOk) := by
  have hslots : ∀ i ∈ List.range l.opCount,
      (l.ops i).opType = .timeout → slotOwned l i = true := by
    intro i hi htimeout
    have hall : ∀ j < l.opCount, ¬(l.ops j).opType = .timeout ∨ slotOwned l j = true := by
      simpa [keepsRouting, hidle] using hev
    exact (hall i (List.mem_range.mp hi)).resolve_left (not_not.mpr htimeout)
  simp only [ioLoopRun]
  split_ifs
  · exact (h.submitAll out hslots).submitWakeupRead.setPhase _
  · exact (h.submitAll out hslots).submitWakeupRead

theorem LoopInv.complete (h : LoopInv l) {k : ℕ} {found : Option IoPending} {result : ℤ}
    {stopFlag : Bool} {out : Submission}
    (hev : keepsRouting l (.complete k found result stopFlag out) = true) :
    LoopInv (loopStep l (.complete k found result stopFlag out)) := by
  have hrest : LoopInv { l with inFlight := l.inFlight.eraseIdx k } :=
    ⟨fun q hq => h.routed q (List.mem_of_mem_eraseIdx hq), h.unowned, h.invoked⟩
  simp only [loopStep]
  split_ifs with hwaiting
  · cases hk : l.inFlight[k]? with
    | none => exact h
    | some request =>
        cases request with
        | prepared p => exact hrest.processCqe (h.routed p (List.mem_of_getElem? hk))
        | leftover =>
            have hnull : found = none := by simpa [keepsRouting, hk, hwaiting] using hev
            subst hnull
            exact hrest
  · exact h

theorem loopInv_step (l : IoLoop) (ev : LoopEvent) (hev : keepsRouting l ev = true)
    (h : LoopInv l) : LoopInv (loopStep l ev) := by
  cases ev with
  | register desc => exact h.register hev
  | unregister fd => exact h.unregister hev
  | clear => exact h.clear
  | submitWrite fd cb userData out submitOk => exact h.submitWrite fd cb userData out submitOk
  | enter out wakeup submitOk =>
      simp only [loopStep]
      split_ifs with hidle
      · exact h.enter hidle hev
      · exact h
  | complete k found result stopFlag out => exact h.complete hev
  | ret rc stopFlag out =>
      simp only [loopStep]
      cases hphase : l.phase with
      | opCallback i opType result =>
          refine (h.setPhase _).rearm fun htimeout hstop hrc hlt => ?_
          subst htimeout
          have hlt' : i < l.opCount := hlt
          have hown : slotOwned l i = true := by
            simpa [keepsRouting, hphase, hstop, hrc, Nat.not_le.mpr hlt'] using hev
          exact hown
      | writeCallback => exact h.setPhase _
      | idle => exact h
      | waiting => exact h
  | leave =>
      simp only [loopStep]
      split_ifs
      · exact h.setPhase _
      · exact h

end Step

/-- In every run whose steps keep the routing, every callback of a registered operation
is called for the registration that the completed request was submitted for. -/
theorem callbacksRouted_run {evs : List LoopEvent}
    (hevs : Guarded loopStep (fun l ev => keepsRouting l ev = true) ioLoopCreate evs) :
    ∀ c ∈ (run loopStep ioLoopCreate evs).invoked, c.Routed :=
  (run_invariant_of_guarded loopInv_step loopInv_create hevs).invoked

/-- A read and a timer complete and are re-armed; the read is unregistered in its own
callback, and its slot is filled again. Re-arming the new read fails once for lack of memory,
and the entry that was left behind completes with a null pointer. -/
theorem callbacksRouted_run_reads :
    let evs : List LoopEvent :=
      [.register ⟨5, .read, 64, some 1, 0, 0⟩, .register ⟨-1, .timeout, 0, some 2, 0, 1000⟩,
        .enter (fun _ => .prepared) .prepared true, .complete 1 none (-62) true .prepared,
        .ret 0 true .prepared, .complete 0 none 8 true .prepared, .unregister 5,
        .register ⟨7, .read, 64, some 1, 0, 0⟩, .ret 0 true .prepared,
        .complete 2 none 8 true .prepared, .ret 0 true .unprepared,
        .complete 2 none 0 true .prepared]
    (run loopStep ioLoopCreate evs).invoked.length = 3 ∧
      ∀ c ∈ (run loopStep ioLoopCreate evs).invoked, c.Routed :=
  ⟨by decide, callbacksRouted_run (by decide)⟩

/-- The table is cleared and a new connection registered while the read of the old one
is in flight: the completion of the old read calls the new registration. -/
theorem stale_completion_misrouted :
    ¬∀ c ∈ (run loopStep ioLoopCreate
        [.register ⟨5, .read, 64, some 1, 0, 0⟩, .enter (fun _ => .prepared) .prepared true,
          .leave, .clear, .register ⟨7, .read, 64, some 1, 0, 0⟩,
          .enter (fun _ => .prepared) .prepared true,
          .complete 0 none 8 true .prepared]).invoked, c.Routed := by
  decide

end Core

end Shinigami
