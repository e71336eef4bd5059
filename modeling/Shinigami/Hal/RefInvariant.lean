import Mathlib.Data.Finset.Card
import Mathlib.Data.List.Count
import Shinigami.Hal.RefCounting

/-!
# The invariant of the reference counting

Two invariants of every state that clients can reach. `Counted` ties the counter of a
live device to its references and the references of the registry to its slots;
`Locked` is the lock, and `PcOk` what a client knows where it stands. A device in a
slot is referenced by the registry, and the lock keeps it in its slot while a lookup
takes a reference of its own, so a lookup never meets a device without references.
-/

namespace Shinigami

namespace Hal

variable {ω : Type*} [DecidableEq ω]

theorem int32_succ (n : ℕ) : Int32.ofNat n + 1 = Int32.ofNat (n + 1) := by
  rw [Int32.ofNat_add]
  rfl

theorem int32_pred (n : ℕ) : Int32.ofNat (n + 1) - 1 = Int32.ofNat n := by
  rw [← int32_succ]
  exact Int32.add_sub_cancel _ _

/-- The counter tells the last reference as long as it has not wrapped around. -/
theorem int32_eq_one_iff {n : ℕ} (h : n ≤ 2 ^ 32) (hpos : 0 < n) :
    Int32.ofNat n = 1 ↔ n = 1 := by
  constructor
  · intro heq
    have hmod := congrArg (fun x : Int32 => x.toBitVec.toNat) heq
    simp at hmod
    omega
  · rintro rfl
    rfl

def HalState.slotsOf (h : HalState) (p : DevicePtr) : Finset ℕ :=
  (Finset.range tableSize).filter fun i =>
    (h.gRegistry i).occupied = true ∧ (h.gRegistry i).device = p

theorem mem_slotsOf {h : HalState} {p : DevicePtr} {i : ℕ} : i ∈ h.slotsOf p ↔
    i < tableSize ∧ (h.gRegistry i).occupied = true ∧ (h.gRegistry i).device = p := by
  simp [HalState.slotsOf]

/-- The calls of a teardown: stop an active device, close one that is then not closed,
clean up, destroy, free. -/
def teardownCalls (d : HwDevice) : List TeardownCall :=
  let canStop := (d.ops.bind HwDeviceOps.stop).isSome
  let canClose := (d.ops.bind HwDeviceOps.close).isSome
  (if d.state = .active ∧ canStop then [.stop] else []) ++
    (if (teardownStop d).1.state ≠ .closed ∧ canClose then [.close] else []) ++
    (if d.cleanup then [.cleanup] else []) ++ [.destroy, .free]

theorem teardownStop_snd (d : HwDevice) : (teardownStop d).2 =
    if d.state = .active ∧ (d.ops.bind HwDeviceOps.stop).isSome then [.stop] else [] := by
  unfold teardownStop
  cases d.state <;> cases d.ops.bind HwDeviceOps.stop <;> rfl

theorem teardownClose_snd (d : HwDevice) : (teardownClose d).2 =
    if d.state ≠ .closed ∧ (d.ops.bind HwDeviceOps.close).isSome then [.close] else [] := by
  unfold teardownClose
  cases d.state <;> cases d.ops.bind HwDeviceOps.close <;> rfl

theorem teardownStop_frame (d : HwDevice) :
    (teardownStop d).1.ops = d.ops ∧ (teardownStop d).1.cleanup = d.cleanup := by
  unfold teardownStop
  split <;> exact ⟨rfl, rfl⟩

theorem teardownClose_cleanup (d : HwDevice) : (teardownClose d).1.cleanup = d.cleanup := by
  unfold teardownClose
  split <;> rfl

theorem teardown_snd (d : HwDevice) : (teardown d).2 = teardownCalls d := by
  obtain ⟨hops, hcleanup⟩ := teardownStop_frame d
  simp only [teardown, teardownCalls, teardownStop_snd, teardownClose_snd,
    teardownClose_cleanup, hops, hcleanup]

namespace RefState

structure Counted (s : RefState ω) : Prop where
  live_iff : ∀ p, s.status p = .live ↔ s.owners p ≠ []
  count : ∀ p, s.status p = .live →
    (s.hal.devices p).refCount = Int32.ofNat (s.owners p).length
  slots : ∀ p, (s.hal.slotsOf p).card =
    (s.owners p).count .registry + if s.registering = some p then 1 else 0
  null_unborn : s.status null = .unborn
  torn : ∀ p, p ∈ s.torn.map Prod.fst ↔ s.status p = .torn
  nodup : (s.torn.map Prod.fst).Nodup
  log : s.hal.teardowns = s.torn.flatMap fun e => (teardownCalls e.2).map (e.1, ·)

structure Locked (pc : ω → Pc) (writer : Option ω) (readers : List ω) : Prop where
  writer_iff : ∀ c, (pc c).writes = true ↔ writer = some c
  reader_iff : ∀ c, (pc c).reads = true ↔ c ∈ readers
  exclusive : writer ≠ none → readers = []

def PcOk (s : RefState ω) (c : ω) : Pc → Prop
  | .registerLock p | .unregisterLock p => s.Holds c p
  | .registerWalk p _ tombstoneSlot => s.Holds c p ∧ s.registering = none ∧
      ∀ t, tombstoneSlot = some t → t < tableSize ∧ (s.hal.gRegistry t).occupied = false
  | .registerRef p => s.Holds c p ∧ s.registering = some p
  | .unregisterWalk p _ => s.Holds c p ∧ s.registering = none
  | .unregisterUnref p => s.Holds c p ∧ .leaving c ∈ s.owners p
  | .findRef p | .listRef _ _ _ p => (s.hal.slotsOf p).Nonempty
  | .teardown p => s.status p = .tearing c
  | _ => True

structure Scheduled (s : RefState ω) : Prop where
  locked : Locked s.pc s.writer s.readers
  unlocked : s.writer = none → s.registering = none
  pcOk : ∀ c, s.PcOk c (s.pc c)
  tearing : ∀ c p, s.status p = .tearing c → s.pc c = .teardown p

/-- What a step of `c` leaves to the other clients. -/
structure Frame (c : ω) (s s' : RefState ω) : Prop where
  pc : ∀ c', c' ≠ c → s'.pc c' = s.pc c'
  client : ∀ c', c' ≠ c → ∀ p, s.Holds c' p → s'.Holds c' p
  leaving : ∀ c', c' ≠ c → ∀ p, .leaving c' ∈ s.owners p → .leaving c' ∈ s'.owners p
  table : s.writer ≠ some c → s'.hal.gRegistry = s.hal.gRegistry ∧
    s'.registering = s.registering
  tearing : ∀ c', c' ≠ c → ∀ p, s.status p = .tearing c' ↔ s'.status p = .tearing c'

section Locks

variable {pc : ω → Pc} {writer : Option ω} {readers : List ω} {c : ω} {pc' : Pc}

theorem Locked.goto (h : Locked pc writer readers) (hw : pc'.writes = (pc c).writes)
    (hr : pc'.reads = (pc c).reads) : Locked (Function.update pc c pc') writer readers := by
  refine ⟨fun c' => ?_, fun c' => ?_, h.exclusive⟩
  · by_cases hc : c' = c
    · rw [hc, Function.update_self, hw]
      exact h.writer_iff c
    · rw [Function.update_of_ne hc]
      exact h.writer_iff c'
  · by_cases hc : c' = c
    · rw [hc, Function.update_self, hr]
      exact h.reader_iff c
    · rw [Function.update_of_ne hc]
      exact h.reader_iff c'

theorem Locked.unlock (h : Locked pc writer readers) (hw : pc'.writes = false)
    (hr : pc'.reads = false) :
    Locked (Function.update pc c pc') (if writer = some c then none else writer)
      (readers.filter (· ≠ c)) := by
  refine ⟨fun c' => ?_, fun c' => ?_, fun hne => ?_⟩
  · by_cases hc : c' = c
    · rw [hc, Function.update_self, hw]
      split_ifs with hwriter
      · simp
      · simp [hwriter]
    · rw [Function.update_of_ne hc, h.writer_iff]
      split_ifs with hwriter
      · simp [hwriter, Ne.symm hc]
      · rfl
  · by_cases hc : c' = c
    · simp [hc, hr]
    · rw [Function.update_of_ne hc, h.reader_iff]
      simp [hc]
  · have hnone : writer ≠ none := by
      rintro rfl
      simp at hne
    rw [h.exclusive hnone]
    rfl

theorem Locked.lockWrite (h : Locked pc none []) (hw : pc'.writes = true)
    (hr : pc'.reads = false) : Locked (Function.update pc c pc') (some c) [] := by
  refine ⟨fun c' => ?_, fun c' => ?_, fun _ => rfl⟩
  · by_cases hc : c' = c
    · simp [hc, hw]
    · rw [Function.update_of_ne hc, h.writer_iff]
      simp [Ne.symm hc]
  · by_cases hc : c' = c
    · simp [hc, hr]
    · rw [Function.update_of_ne hc]
      exact h.reader_iff c'

theorem Locked.lockRead (h : Locked pc none readers) (hw : pc'.writes = false)
    (hr : pc'.reads = true) : Locked (Function.update pc c pc') none (c :: readers) := by
  refine ⟨fun c' => ?_, fun c' => ?_, fun hne => absurd rfl hne⟩
  · by_cases hc : c' = c
    · simp [hc, hw]
    · rw [Function.update_of_ne hc]
      exact h.writer_iff c'
  · by_cases hc : c' = c
    · simp [hc, hr]
    · rw [Function.update_of_ne hc, h.reader_iff]
      simp [hc]

end Locks

section Frames

variable {s s' : RefState ω} {c c' : ω}

theorem slotsOf_congr {h h' : HalState} (heq : h'.gRegistry = h.gRegistry) :
    h'.slotsOf = h.slotsOf := by
  funext p
  simp only [HalState.slotsOf, heq]

omit [DecidableEq ω] in
theorem PcOk.frame {pc : Pc} (h : s.PcOk c' pc) (hf : Frame c s s') (hne : c' ≠ c)
    (hlock : pc.writes = true ∨ pc.reads = true → s.writer ≠ some c) : s'.PcOk c' pc := by
  cases pc with
  | registerLock p => exact hf.client c' hne p h
  | unregisterLock p => exact hf.client c' hne p h
  | registerWalk p i tombstoneSlot =>
      obtain ⟨htable, hreg⟩ := hf.table (hlock (.inl rfl))
      refine ⟨hf.client c' hne p h.1, hreg.trans h.2.1, fun t ht => ?_⟩
      rw [htable]
      exact h.2.2 t ht
  | registerRef p =>
      obtain ⟨-, hreg⟩ := hf.table (hlock (.inl rfl))
      exact ⟨hf.client c' hne p h.1, hreg.trans h.2⟩
  | unregisterWalk p i =>
      obtain ⟨-, hreg⟩ := hf.table (hlock (.inl rfl))
      exact ⟨hf.client c' hne p h.1, hreg.trans h.2⟩
  | unregisterUnref p => exact ⟨hf.client c' hne p h.1, hf.leaving c' hne p h.2⟩
  | findRef p =>
      obtain ⟨htable, -⟩ := hf.table (hlock (.inr rfl))
      simp only [PcOk, slotsOf_congr htable]
      exact h
  | listRef maxDevices i devicesOut p =>
      obtain ⟨htable, -⟩ := hf.table (hlock (.inr rfl))
      simp only [PcOk, slotsOf_congr htable]
      exact h
  | teardown p => exact (hf.tearing c' hne p).mp h
  | _ => trivial

/-- A step is scheduled when it frames the other clients and the client that made it
knows where it stands. -/
theorem Scheduled.of_frame (h : s.Scheduled) (hf : Frame c s s')
    (hlocked : Locked s'.pc s'.writer s'.readers)
    (hunlocked : s'.writer = none → s'.registering = none) (hpc : s'.PcOk c (s'.pc c))
    (htearing : ∀ p, s'.status p = .tearing c → s'.pc c = .teardown p) : s'.Scheduled := by
  refine ⟨hlocked, hunlocked, fun c' => ?_, fun c' p hp => ?_⟩
  · by_cases hc : c' = c
    · rw [hc]
      exact hpc
    · rw [hf.pc c' hc]
      apply (h.pcOk c').frame hf hc
      rintro (hwrites | hreads) hwriter
      · have hwriter' := (h.locked.writer_iff c').mp hwrites
        exact hc (Option.some.inj (hwriter'.symm.trans hwriter))
      · have hnone := h.locked.exclusive (by simp [hwriter])
        have hmem := (h.locked.reader_iff c').mp hreads
        simp [hnone] at hmem
  · by_cases hc : c' = c
    · rw [hc] at hp ⊢
      exact htearing p hp
    · rw [hf.pc c' hc]
      exact h.tearing c' p ((hf.tearing c' hc p).mpr hp)

end Frames

section Counts

variable {s : RefState ω} {c : ω} {p : DevicePtr}

theorem halDeviceRef_devices (h : HalState) (hp : p ≠ null) : (halDeviceRef h p).devices =
    Function.update h.devices p
      { h.devices p with refCount := (h.devices p).refCount + 1 } := by
  simp [halDeviceRef, hp, HalState.setDevice]

theorem halDeviceRef_teardowns (h : HalState) (p : DevicePtr) :
    (halDeviceRef h p).teardowns = h.teardowns := by
  unfold halDeviceRef
  split <;> rfl

omit [DecidableEq ω] in
theorem mem_owners_addRef {owner owner' : Owner ω} {q : DevicePtr} (hq : owner' ∈ s.owners q) :
    owner' ∈ (s.addRef p owner).owners q := by
  by_cases hqp : q = p
  · simp only [addRef, hqp, Function.update_self] at hq ⊢
    exact List.mem_cons_of_mem _ hq
  · simpa only [addRef, Function.update_of_ne hqp] using hq

/-- Where the clients stand and who has the lock plays no part in the counting. -/
theorem Counted.setControl (h : s.Counted) (pc : ω → Pc) (writer : Option ω) (readers : List ω) :
    Counted { s with
      pc := pc
      writer := writer
      readers := readers } where
  live_iff := h.live_iff
  count := h.count
  slots := h.slots
  null_unborn := h.null_unborn
  torn := h.torn
  nodup := h.nodup
  log := h.log

theorem Counted.ne_null (h : s.Counted) (hlive : s.status p = .live) : p ≠ null := by
  rintro rfl
  rw [h.null_unborn] at hlive
  cases hlive

/-- A device in a slot is live, except while its registration is under way. -/
theorem Counted.live_of_slot (h : s.Counted) (hreg : s.registering = none)
    (hslot : (s.hal.slotsOf p).Nonempty) : s.status p = .live := by
  have hcard := h.slots p
  rw [hreg, if_neg (by simp), Nat.add_zero] at hcard
  rw [h.live_iff]
  intro hnil
  rw [hnil, List.count_nil, Finset.card_eq_zero] at hcard
  exact hslot.ne_empty hcard

theorem Counted.addRef (h : s.Counted) (hlive : s.status p = .live) {owner : Owner ω}
    (registering : Option DevicePtr)
    (hslots : ∀ q, (s.hal.slotsOf q).card =
      (Function.update s.owners p (owner :: s.owners p) q).count .registry +
        if registering = some q then 1 else 0) :
    Counted { s.addRef p owner with registering := registering } where
  live_iff q := by
    by_cases hq : q = p
    · simp [RefState.addRef, hq, hlive]
    · simpa [RefState.addRef, hq] using h.live_iff q
  count q hq := by
    simp only [RefState.addRef, halDeviceRef_devices _ (h.ne_null hlive)] at hq ⊢
    by_cases hqp : q = p
    · rw [hqp, Function.update_self, Function.update_self, List.length_cons, ← int32_succ,
        ← h.count p hlive]
    · rw [Function.update_of_ne hqp, Function.update_of_ne hqp]
      exact h.count q hq
  slots q := by
    simp only [RefState.addRef, slotsOf_congr (halDeviceRef_gRegistry s.hal p)]
    exact hslots q
  null_unborn := h.null_unborn
  torn := h.torn
  nodup := h.nodup
  log := (halDeviceRef_teardowns s.hal p).trans h.log

theorem Counted.addClient (h : s.Counted) (hlive : s.status p = .live) (c : ω) :
    (s.addRef p (.client c)).Counted := by
  refine h.addRef hlive s.registering fun q => ?_
  rw [h.slots q]
  by_cases hq : q = p
  · rw [hq, Function.update_self, List.count_cons_of_ne (by simp)]
  · rw [Function.update_of_ne hq]

theorem Counted.addRegistry (h : s.Counted) (hlive : s.status p = .live)
    (hreg : s.registering = some p) :
    Counted { s.addRef p .registry with registering := none } := by
  refine h.addRef hlive none fun q => ?_
  rw [h.slots q, hreg]
  by_cases hq : q = p
  · rw [hq, Function.update_self, List.count_cons_self]
    simp
  · rw [Function.update_of_ne hq]
    simp [Ne.symm hq]

theorem Counted.dropRef (h : s.Counted) {owner : Owner ω} (hmem : owner ∈ s.owners p)
    (howner : owner ≠ .registry) (hrefs : (s.owners p).length ≤ 2 ^ 32) (c : ω) :
    (s.dropRef c p owner).Counted := by
  obtain ⟨m, hm⟩ := Nat.exists_eq_add_of_lt (List.length_pos_of_mem hmem)
  rw [Nat.zero_add] at hm
  have hlive : s.status p = .live := (h.live_iff p).mpr (List.ne_nil_of_mem hmem)
  have hcount := h.count p hlive
  rw [hm] at hcount
  have herase : ((s.owners p).erase owner).length = m := by
    rw [List.length_erase_of_mem hmem, hm, Nat.add_sub_cancel]
  have hold : (s.hal.devices p).refCount = 1 ↔ m = 0 := by
    rw [hcount, int32_eq_one_iff (by omega) (by omega)]
    omega
  have hslots : ∀ q, ((decRef s.hal p).slotsOf q).card =
      (Function.update s.owners p ((s.owners p).erase owner) q).count .registry +
        if s.registering = some q then 1 else 0 := by
    intro q
    apply (h.slots q).trans
    by_cases hq : q = p
    · rw [hq, Function.update_self, List.count_erase_of_ne howner.symm]
    · rw [Function.update_of_ne hq]
  have hother : ∀ q, q ≠ p → s.status q = .live →
      ((decRef s.hal p).devices q).refCount = Int32.ofNat (s.owners q).length := by
    intro q hq hqlive
    simp only [decRef, HalState.setDevice, Function.update_of_ne hq]
    exact h.count q hqlive
  by_cases hlast : m = 0
  · have hnil : (s.owners p).erase owner = [] := List.length_eq_zero_iff.mp (herase.trans hlast)
    simp only [RefState.dropRef, if_pos (hold.mpr hlast)]
    exact
      { live_iff := by
          intro q
          by_cases hq : q = p
          · simp [goto, hq, hnil]
          · simpa [goto, hq] using h.live_iff q
        count := by
          intro q hqlive
          by_cases hq : q = p
          · simp [hq] at hqlive
          · simp only [goto, Function.update_of_ne hq] at hqlive ⊢
            exact hother q hq hqlive
        slots := hslots
        null_unborn := by
          simpa [goto, Function.update_of_ne (h.ne_null hlive).symm] using h.null_unborn
        torn := by
          intro q
          by_cases hq : q = p
          · simpa [goto, hq, hlive] using h.torn p
          · simpa [goto, hq] using h.torn q
        nodup := h.nodup
        log := h.log }
  · simp only [RefState.dropRef, if_neg (mt hold.mp hlast)]
    exact
      { live_iff := by
          intro q
          by_cases hq : q = p
          · have hne : (s.owners p).erase owner ≠ [] := by
              rw [← List.length_pos_iff_ne_nil, herase]
              omega
            simp [goto, hq, hlive, hne]
          · simpa [goto, hq] using h.live_iff q
        count := by
          intro q hqlive
          by_cases hq : q = p
          · simp only [goto, hq, decRef, HalState.setDevice, Function.update_self, hcount,
              int32_pred, herase]
          · simp only [goto, Function.update_of_ne hq]
            exact hother q hq hqlive
        slots := hslots
        null_unborn := h.null_unborn
        torn := h.torn
        nodup := h.nodup
        log := h.log }

theorem slotsOf_setSlot (h : HalState) {idx : ℕ} (hidx : idx < tableSize)
    (slot : RegistrySlot) (count : UInt32) (q : DevicePtr) :
    (h.setSlot idx slot count).slotsOf q =
      if slot.occupied = true ∧ slot.device = q then insert idx (h.slotsOf q)
      else (h.slotsOf q).erase idx := by
  ext i
  by_cases hi : i = idx
  · subst hi
    split_ifs with hslot
    · simp [mem_slotsOf, HalState.setSlot, hslot, hidx]
    · simpa [mem_slotsOf, HalState.setSlot, hidx] using hslot
  · split_ifs <;> simp [mem_slotsOf, HalState.setSlot, hi]

theorem Counted.setSlot (h : s.Counted) {target : ℕ} (htarget : target < tableSize)
    (hfree : (s.hal.gRegistry target).occupied = false) (hreg : s.registering = none)
    {hash : UInt32} (hhash : (⟨hash, p⟩ : RegistrySlot).occupied = true) (count : UInt32) :
    Counted { s with
      hal := s.hal.setSlot target ⟨hash, p⟩ count
      registering := some p } :=
  { h with
    slots := by
      intro q
      have hnot : target ∉ s.hal.slotsOf q := by simp [mem_slotsOf, hfree]
      have hcard := h.slots q
      rw [hreg, if_neg (by simp), Nat.add_zero] at hcard
      simp only [slotsOf_setSlot s.hal htarget, hhash, true_and, Option.some.injEq, ← hcard]
      split_ifs with hq
      · exact Finset.card_insert_of_notMem hnot
      · rw [Finset.erase_eq_of_notMem hnot, Nat.add_zero] }

/-- An unregistration clears its slot and owes the reference of the registry. -/
theorem Counted.clearSlot (h : s.Counted) {idx : ℕ} (hidx : idx ∈ s.hal.slotsOf p)
    (hreg : s.registering = none) (count : UInt32) (c : ω) :
    Counted { s with
      hal := s.hal.setSlot idx ⟨slotTombstone, null⟩ count
      owners := Function.update s.owners p (.leaving c :: (s.owners p).erase .registry) } := by
  have hcard := h.slots p
  rw [hreg, if_neg (by simp), Nat.add_zero] at hcard
  have hpos : 0 < (s.owners p).count .registry := hcard ▸ Finset.card_pos.mpr ⟨idx, hidx⟩
  have hmem : .registry ∈ s.owners p := List.count_pos_iff.mp hpos
  have hlive : s.status p = .live := (h.live_iff p).mpr (List.ne_nil_of_mem hmem)
  have hlen : ((s.owners p).erase .registry).length + 1 = (s.owners p).length :=
    List.length_erase_add_one hmem
  exact
    { h with
      live_iff := by
        intro q
        by_cases hq : q = p
        · simp [hq, hlive]
        · simpa [hq] using h.live_iff q
      count := by
        intro q hqlive
        apply (h.count q hqlive).trans
        by_cases hq : q = p
        · simp [hq, hlen]
        · simp [hq]
      slots := by
        intro q
        have hcleared : (⟨slotTombstone, null⟩ : RegistrySlot).occupied = false := rfl
        simp only [slotsOf_setSlot s.hal (mem_slotsOf.mp hidx).1, hcleared, Bool.false_eq_true,
          false_and, if_false, hreg, reduceCtorEq, Nat.add_zero]
        by_cases hq : q = p
        · rw [hq, Finset.card_erase_of_mem hidx, Function.update_self,
            List.count_cons_of_ne (by simp), List.count_erase_self, hcard]
        · have hnot : idx ∉ s.hal.slotsOf q := by
            intro hmem'
            exact hq ((mem_slotsOf.mp hmem').2.2.symm.trans (mem_slotsOf.mp hidx).2.2)
          have hother := h.slots q
          rw [hreg, if_neg (by simp), Nat.add_zero] at hother
          rw [Finset.erase_eq_of_notMem hnot, Function.update_of_ne hq, hother] }

theorem Counted.teardown (h : s.Counted) (hp : s.status p = .tearing c) :
    Counted { s with
      hal := runTeardown s.hal p
      status := Function.update s.status p .torn
      torn := s.torn ++ [(p, s.hal.devices p)] } := by
  have hnotlive : ¬s.status p = .live := by simp [hp]
  have hnottorn : p ∉ s.torn.map Prod.fst := by simp [h.torn, hp]
  refine ⟨?_, ?_, h.slots, ?_, ?_, ?_, ?_⟩
  · intro q
    by_cases hq : q = p
    · simpa [hq] using mt (h.live_iff p).mpr hnotlive
    · simpa [hq] using h.live_iff q
  · intro q hqlive
    by_cases hq : q = p
    · simp [hq] at hqlive
    · simp only [Function.update_of_ne hq] at hqlive
      simp only [runTeardown, HalState.setDevice, Function.update_of_ne hq]
      exact h.count q hqlive
  · have hnull : null ≠ p := by
      rintro rfl
      rw [h.null_unborn] at hp
      cases hp
    simpa [hnull] using h.null_unborn
  · intro q
    by_cases hq : q = p
    · simp [hq]
    · simpa [hq] using h.torn q
  · rw [List.map_append]
    exact List.concat_eq_append ▸ h.nodup.concat hnottorn
  · simp only [runTeardown, List.flatMap_append, List.flatMap_singleton, ← h.log, teardown_snd]

theorem Counted.owners_of_unborn (h : s.Counted) (hunborn : s.status p = .unborn) :
    s.owners p = [] := by
  by_contra hne
  have hlive := (h.live_iff p).mpr hne
  rw [hunborn] at hlive
  cases hlive

theorem Counted.create (h : s.Counted) (hp : p ≠ null) (hunborn : s.status p = .unborn)
    (device : HwDevice) (c : ω) :
    Counted { s with
      hal := s.hal.setDevice p { device with refCount := 1 }
      owners := Function.update s.owners p [.client c]
      status := Function.update s.status p .live } := by
  have hnil := h.owners_of_unborn hunborn
  refine ⟨?_, ?_, ?_, ?_, ?_, h.nodup, h.log⟩
  · intro q
    by_cases hq : q = p
    · simp [hq]
    · simpa [hq] using h.live_iff q
  · intro q hqlive
    by_cases hq : q = p
    · simp only [hq, HalState.setDevice, Function.update_self]
      rfl
    · simp only [Function.update_of_ne hq] at hqlive
      simp only [HalState.setDevice, Function.update_of_ne hq]
      exact h.count q hqlive
  · intro q
    apply (h.slots q).trans
    by_cases hq : q = p
    · simp [hq, hnil]
    · simp [hq]
  · simpa [Function.update_of_ne hp.symm] using h.null_unborn
  · intro q
    by_cases hq : q = p
    · simpa [hq, hunborn] using h.torn p
    · simpa [hq] using h.torn q

theorem Counted.use (h : s.Counted) (p : DevicePtr) (state : HalDeviceState) :
    Counted { s with hal := s.hal.setDevice p { s.hal.devices p with state := state } } :=
  { h with
    count := by
      intro q hqlive
      refine Eq.trans ?_ (h.count q hqlive)
      by_cases hq : q = p
      · simp [HalState.setDevice, hq]
      · simp [HalState.setDevice, hq] }

end Counts

end RefState

end Hal

end Shinigami
