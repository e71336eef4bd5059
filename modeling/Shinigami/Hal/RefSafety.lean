import Shinigami.Hal.RefInvariant

/-!
# No device after its teardown

Every step of every client keeps the invariant of the reference counting, as long as no
device has more than 2 ^ 32 references at a time: the counter is a 32-bit `atomic_int`,
which is back at 1 behind 2 ^ 32 references more. So no step touches a device without
references but the teardown itself, and a teardown runs once, behind the release of the
last reference.
-/

namespace Shinigami

namespace Hal

open LinearProbing

variable {ω : Type*} [DecidableEq ω]

theorem occupied_eq_true_iff {slot : RegistrySlot} :
    slot.occupied = true ↔ slot.hash ≠ slotEmpty ∧ slot.hash ≠ slotTombstone := by
  simp [RegistrySlot.occupied]

theorem occupied_hash (name : List UInt8) (p : DevicePtr) :
    (⟨fnv1aHash name, p⟩ : RegistrySlot).occupied = true :=
  occupied_eq_true_iff.mpr (fnv1aHash_ne_sentinel name)

namespace RefState

structure Inv (s : RefState ω) : Prop where
  counted : s.Counted
  scheduled : s.Scheduled

theorem inv_initial : (initial : RefState ω).Inv := by
  refine ⟨⟨?_, ?_, ?_, rfl, ?_, List.nodup_nil, rfl⟩,
    ⟨⟨?_, ?_, fun _ => rfl⟩, fun _ => rfl, ?_, ?_⟩⟩
  · simp [initial]
  · simp [initial]
  · intro p
    simp [initial, HalState.initial, HalState.slotsOf, RegistrySlot.occupied]
  · simp [initial]
  · simp [initial, Pc.writes]
  · simp [initial, Pc.reads]
  · exact fun _ => trivial
  · simp [initial]

section Steps

variable {s : RefState ω} {c : ω} {p : DevicePtr} {pc : Pc}

omit [DecidableEq ω] in
theorem Scheduled.not_tearing (h : s.Scheduled) (hpc : ∀ q, s.pc c ≠ .teardown q) (q : DevicePtr) :
    s.status q ≠ .tearing c := fun hq => hpc q (h.tearing c q hq)

omit [DecidableEq ω] in
theorem Scheduled.writer_eq (h : s.Scheduled) (hpc : (s.pc c).writes = true) :
    s.writer = some c := (h.locked.writer_iff c).mp hpc

omit [DecidableEq ω] in
theorem Scheduled.registering_eq_none (h : s.Scheduled) (hpc : (s.pc c).reads = true) :
    s.registering = none := by
  apply h.unlocked
  by_contra hwriter
  have hmem := (h.locked.reader_iff c).mp hpc
  simp [h.locked.exclusive hwriter] at hmem

theorem Inv.control (h : s.Inv) {writer : Option ω} {readers : List ω}
    (hlocked : Locked (Function.update s.pc c pc) writer readers)
    (hunlocked : writer = none → s.registering = none) (hpc : s.PcOk c pc)
    (hstatus : ∀ q, s.status q ≠ .tearing c) :
    Inv { s.goto c pc with writer := writer, readers := readers } := by
  have hframe : Frame c s { s.goto c pc with writer := writer, readers := readers } :=
    ⟨fun c' hc => Function.update_of_ne hc _ _, fun _ _ _ hq => hq, fun _ _ _ hq => hq,
      fun _ => ⟨rfl, rfl⟩, fun _ _ _ => Iff.rfl⟩
  refine ⟨h.counted.setControl _ _ _,
    h.scheduled.of_frame hframe hlocked hunlocked ?_ fun q hq => absurd hq (hstatus q)⟩
  simp only [goto, Function.update_self]
  cases pc <;> exact hpc

theorem Inv.goto (h : s.Inv) (hw : pc.writes = (s.pc c).writes) (hr : pc.reads = (s.pc c).reads)
    (hpc : s.PcOk c pc) (hstatus : ∀ q, s.status q ≠ .tearing c) : (s.goto c pc).Inv :=
  h.control (h.scheduled.locked.goto hw hr) h.scheduled.unlocked hpc hstatus

theorem Inv.unlock (h : s.Inv) (hreg : s.registering = none)
    (hstatus : ∀ q, s.status q ≠ .tearing c) : (s.unlock c).Inv :=
  h.control (h.scheduled.locked.unlock rfl rfl) (fun _ => hreg) trivial hstatus

theorem Inv.lockWrite (h : s.Inv) (hw : pc.writes = true) (hr : pc.reads = false)
    (hpc : s.registering = none → s.PcOk c pc) (hstatus : ∀ q, s.status q ≠ .tearing c) :
    (s.lockWrite c pc).Inv := by
  unfold RefState.lockWrite
  split_ifs with hfree
  · have hlocked := h.scheduled.locked
    rw [hfree.1, hfree.2] at hlocked
    have hcontrol := h.control (hlocked.lockWrite hw hr) nofun
      (hpc (h.scheduled.unlocked hfree.1)) hstatus
    rwa [← hfree.2] at hcontrol
  · exact h

theorem Inv.lockRead (h : s.Inv) (hw : pc.writes = false) (hr : pc.reads = true)
    (hpc : s.PcOk c pc) (hstatus : ∀ q, s.status q ≠ .tearing c) :
    (s.lockRead c pc).Inv := by
  unfold RefState.lockRead
  split_ifs with hfree
  · have hlocked := h.scheduled.locked
    rw [hfree] at hlocked
    have hcontrol := h.control (hlocked.lockRead hw hr)
      (fun _ => h.scheduled.unlocked hfree) hpc hstatus
    rwa [← hfree] at hcontrol
  · exact h

theorem Inv.addClient (h : s.Inv) (hlive : s.status p = .live) {writer : Option ω}
    {readers : List ω} (hlocked : Locked (Function.update s.pc c pc) writer readers)
    (hunlocked : writer = none → s.registering = none) (hpc : (s.addRef p (.client c)).PcOk c pc)
    (hstatus : ∀ q, s.status q ≠ .tearing c) :
    Inv { (s.addRef p (.client c)).goto c pc with writer := writer, readers := readers } := by
  have hcounted := h.counted.addClient hlive c
  have hframe : Frame c s
      { (s.addRef p (.client c)).goto c pc with writer := writer, readers := readers } :=
    ⟨fun c' hc => Function.update_of_ne hc _ _, fun _ _ _ hq => mem_owners_addRef hq,
      fun _ _ _ hq => mem_owners_addRef hq, fun _ => ⟨halDeviceRef_gRegistry s.hal p, rfl⟩,
      fun _ _ _ => Iff.rfl⟩
  refine ⟨hcounted.setControl _ _ _,
    h.scheduled.of_frame hframe hlocked hunlocked ?_ fun q hq => absurd hq (hstatus q)⟩
  simp only [RefState.goto, Function.update_self]
  cases pc <;> exact hpc

theorem Inv.dropRef (h : s.Inv) {owner : Owner ω} (hmem : owner ∈ s.owners p)
    (howner : owner = .client c ∨ owner = .leaving c)
    (hrefs : (s.owners p).length ≤ 2 ^ 32) (hw : (s.pc c).writes = false)
    (hr : (s.pc c).reads = false) (hstatus : ∀ q, s.status q ≠ .tearing c) :
    (s.dropRef c p owner).Inv := by
  have hlive : s.status p = .live := (h.counted.live_iff p).mpr (List.ne_nil_of_mem hmem)
  have hregistry : owner ≠ .registry := by
    rcases howner with rfl | rfl <;> simp
  have hkeep : ∀ owner' : Owner ω, owner' ≠ owner → ∀ q, owner' ∈ s.owners q →
      owner' ∈ Function.update s.owners p ((s.owners p).erase owner) q := by
    intro owner' hne q hq
    by_cases hqp : q = p
    · rw [hqp] at hq
      rw [hqp, Function.update_self]
      exact (List.mem_erase_of_ne hne).mpr hq
    · rwa [Function.update_of_ne hqp]
  have hclient : ∀ c', c' ≠ c → (.client c' : Owner ω) ≠ owner := by
    rintro c' hc rfl
    rcases howner with heq | heq
    · exact hc (Owner.client.inj heq)
    · cases heq
  have hleaving : ∀ c', c' ≠ c → (.leaving c' : Owner ω) ≠ owner := by
    rintro c' hc rfl
    rcases howner with heq | heq
    · cases heq
    · exact hc (Owner.leaving.inj heq)
  refine ⟨h.counted.dropRef hmem hregistry hrefs c, ?_⟩
  by_cases hlast : (s.hal.devices p).refCount = 1
  · simp only [RefState.dropRef, if_pos hlast]
    refine h.scheduled.of_frame (c := c) ⟨fun c' hc => Function.update_of_ne hc _ _,
      fun c' hc => hkeep _ (hclient c' hc), fun c' hc => hkeep _ (hleaving c' hc),
      fun _ => ⟨rfl, rfl⟩, fun c' hc q => ?_⟩
      (h.scheduled.locked.goto hw.symm hr.symm) h.scheduled.unlocked ?_ fun q hq => ?_
    · by_cases hqp : q = p
      · simp [hqp, hlive, Ne.symm hc]
      · simp [hqp]
    · simp [RefState.goto, PcOk]
    · by_cases hqp : q = p
      · simp [RefState.goto, hqp]
      · simp only [Function.update_of_ne hqp] at hq
        exact absurd hq (hstatus q)
  · simp only [RefState.dropRef, if_neg hlast]
    refine h.scheduled.of_frame (c := c) ⟨fun c' hc => Function.update_of_ne hc _ _,
      fun c' hc => hkeep _ (hclient c' hc), fun c' hc => hkeep _ (hleaving c' hc),
      fun _ => ⟨rfl, rfl⟩, fun _ _ _ => Iff.rfl⟩
      (h.scheduled.locked.goto hw.symm hr.symm) h.scheduled.unlocked ?_
      fun q hq => absurd hq (hstatus q)
    simp [RefState.goto, PcOk]

/-! ## One step of a client -/

theorem Inv.registerStep (h : s.Inv) {i : ℕ} {tombstoneSlot : Option ℕ}
    (hpc : s.pc c = .registerWalk p i tombstoneSlot) :
    (s.registerStep c p i tombstoneSlot).Inv := by
  obtain ⟨hholds, hreg, htomb⟩ : s.PcOk c (.registerWalk p i tombstoneSlot) :=
    hpc ▸ h.scheduled.pcOk c
  have hstatus := h.scheduled.not_tearing (c := c) (by simp [hpc])
  have hidx := slotIdx_lt (fnv1aHash (s.hal.devices p).name) i
  have hwalk : ∀ tomb : Option ℕ, (∀ t, tomb = some t →
      t < tableSize ∧ (s.hal.gRegistry t).occupied = false) →
      (s.goto c (.registerWalk p (i + 1) tomb)).Inv := by
    intro tomb htomb'
    exact h.goto (by simp [hpc, Pc.writes]) (by simp [hpc, Pc.reads]) ⟨hholds, hreg, htomb'⟩
      hstatus
  simp only [RefState.registerStep]
  split_ifs with hend hempty htombstone htaken
  · exact h.unlock hreg hstatus
  · -- The slot is written: the tombstone met first, or this one.
    have htarget : tombstoneSlot.getD (slotIdx (fnv1aHash (s.hal.devices p).name) i) < tableSize ∧
        (s.hal.gRegistry
          (tombstoneSlot.getD (slotIdx (fnv1aHash (s.hal.devices p).name) i))).occupied =
            false := by
      cases tombstoneSlot with
      | none => exact ⟨hidx, by simp [RegistrySlot.occupied, hempty]⟩
      | some t => exact htomb t rfl
    have hcounted := h.counted.setSlot (p := p) htarget.1 htarget.2 hreg
      (occupied_hash (s.hal.devices p).name p) (s.hal.gRegistryCount + 1)
    have hwriter := h.scheduled.writer_eq (c := c) (by simp [hpc, Pc.writes])
    refine ⟨hcounted.setControl _ _ _, ?_⟩
    refine h.scheduled.of_frame (c := c) ⟨fun c' hc => Function.update_of_ne hc _ _,
      fun _ _ _ hq => hq, fun _ _ _ hq => hq, fun hne => absurd hwriter hne,
      fun _ _ _ => Iff.rfl⟩
      (h.scheduled.locked.goto (by simp [hpc, Pc.writes]) (by simp [hpc, Pc.reads]))
      (fun hnone => ?_) ?_ fun q hq => absurd hq (hstatus q)
    · exact absurd (hwriter.symm.trans hnone) (by simp)
    · simp only [RefState.goto, Function.update_self]
      exact ⟨hholds, rfl⟩
  · refine hwalk _ fun t ht => ?_
    cases tombstoneSlot with
    | none =>
        obtain rfl : _ = t := Option.some.inj ht
        exact ⟨hidx, by simp [RegistrySlot.occupied, htombstone]⟩
    | some t' => exact htomb t ht
  · exact h.unlock hreg hstatus
  · exact hwalk _ htomb

theorem Inv.registerRef (h : s.Inv) (hpc : s.pc c = .registerRef p) :
    Inv { (s.addRef p .registry).unlock c with registering := none } := by
  obtain ⟨hholds, hreg⟩ : s.PcOk c (.registerRef p) := hpc ▸ h.scheduled.pcOk c
  have hlive : s.status p = .live := (h.counted.live_iff p).mpr (List.ne_nil_of_mem hholds)
  have hstatus := h.scheduled.not_tearing (c := c) (by simp [hpc])
  have hwriter := h.scheduled.writer_eq (c := c) (by simp [hpc, Pc.writes])
  have hcounted := h.counted.addRegistry hlive hreg
  refine ⟨hcounted.setControl _ _ _, ?_⟩
  refine h.scheduled.of_frame (c := c) ⟨fun c' hc => Function.update_of_ne hc _ _,
    fun _ _ _ hq => mem_owners_addRef hq, fun _ _ _ hq => mem_owners_addRef hq,
    fun hne => absurd hwriter hne, fun _ _ _ => Iff.rfl⟩
    (h.scheduled.locked.unlock rfl rfl) (fun _ => rfl) ?_ fun q hq => absurd hq (hstatus q)
  simp [RefState.unlock, RefState.goto, PcOk]

theorem Inv.unregisterStep (h : s.Inv) {i : ℕ} (hpc : s.pc c = .unregisterWalk p i) :
    (s.unregisterStep c p i).Inv := by
  obtain ⟨hholds, hreg⟩ : s.PcOk c (.unregisterWalk p i) := hpc ▸ h.scheduled.pcOk c
  have hstatus := h.scheduled.not_tearing (c := c) (by simp [hpc])
  simp only [RefState.unregisterStep]
  split_ifs with hend hempty hfound
  · exact h.unlock hreg hstatus
  · exact h.unlock hreg hstatus
  · have hslot : slotIdx (fnv1aHash (s.hal.devices p).name) i ∈ s.hal.slotsOf p := by
      refine mem_slotsOf.mpr ⟨slotIdx_lt _ i, ?_, hfound.2⟩
      rw [occupied_eq_true_iff, hfound.1]
      exact fnv1aHash_ne_sentinel _
    have hcounted := h.counted.clearSlot hslot hreg (s.hal.gRegistryCount - 1) c
    have hwriter := h.scheduled.writer_eq (c := c) (by simp [hpc, Pc.writes])
    have howner : ∀ owner : Owner ω, owner ≠ .registry → ∀ q, owner ∈ s.owners q →
        owner ∈ Function.update s.owners p (.leaving c :: (s.owners p).erase .registry) q := by
      intro owner hne q hq
      by_cases hqp : q = p
      · rw [hqp] at hq
        rw [hqp, Function.update_self]
        exact List.mem_cons_of_mem _ ((List.mem_erase_of_ne hne).mpr hq)
      · rwa [Function.update_of_ne hqp]
    refine ⟨hcounted.setControl _ _ _, ?_⟩
    refine h.scheduled.of_frame (c := c) ⟨fun c' hc => ?_,
      fun _ _ => howner _ (by simp), fun _ _ => howner _ (by simp),
      fun hne => absurd hwriter hne, fun _ _ _ => Iff.rfl⟩ ?_ (fun _ => hreg) ?_
      fun q hq => absurd hq (hstatus q)
    · simp [RefState.unlock, RefState.goto, hc]
    · have hunlock : Locked (Function.update s.pc c (.unregisterUnref p))
          (if s.writer = some c then none else s.writer) (s.readers.filter (· ≠ c)) :=
        h.scheduled.locked.unlock rfl rfl
      simpa only [RefState.unlock, RefState.goto, Function.update_idem] using hunlock
    · simp only [RefState.goto, Function.update_self]
      refine ⟨howner _ (by simp) p hholds, ?_⟩
      simp
  · exact h.goto (by simp [hpc, Pc.writes]) (by simp [hpc, Pc.reads]) ⟨hholds, hreg⟩ hstatus

theorem Inv.findStep (h : s.Inv) {deviceName : List UInt8} {i : ℕ}
    (hpc : s.pc c = .findWalk deviceName i) : (s.findStep c deviceName i).Inv := by
  have hreg := h.scheduled.registering_eq_none (c := c) (by simp [hpc, Pc.reads])
  have hstatus := h.scheduled.not_tearing (c := c) (by simp [hpc])
  have hwalk : (s.goto c (.findWalk deviceName (i + 1))).Inv :=
    h.goto (by simp [hpc, Pc.writes]) (by simp [hpc, Pc.reads]) trivial hstatus
  simp only [RefState.findStep]
  split_ifs with hend hempty htombstone hfound
  · exact h.unlock hreg hstatus
  · exact h.unlock hreg hstatus
  · exact hwalk
  · refine h.goto (by simp [hpc, Pc.writes]) (by simp [hpc, Pc.reads]) ?_ hstatus
    exact ⟨_, mem_slotsOf.mpr ⟨slotIdx_lt _ i, occupied_eq_true_iff.mpr ⟨hempty, htombstone⟩,
      rfl⟩⟩
  · exact hwalk

theorem Inv.listStep (h : s.Inv) {maxDevices : ℤ} {i : ℕ} {devicesOut : List DevicePtr}
    (hpc : s.pc c = .listWalk maxDevices i devicesOut) :
    (s.listStep c maxDevices i devicesOut).Inv := by
  have hreg := h.scheduled.registering_eq_none (c := c) (by simp [hpc, Pc.reads])
  have hstatus := h.scheduled.not_tearing (c := c) (by simp [hpc])
  simp only [RefState.listStep]
  split_ifs with hmore hfree
  · exact h.goto (by simp [hpc, Pc.writes]) (by simp [hpc, Pc.reads]) trivial hstatus
  · refine h.goto (by simp [hpc, Pc.writes]) (by simp [hpc, Pc.reads]) ?_ hstatus
    exact ⟨i, mem_slotsOf.mpr ⟨hmore.1, occupied_eq_true_iff.mpr (not_or.mp hfree), rfl⟩⟩
  · exact h.unlock hreg hstatus

theorem Inv.teardown (h : s.Inv) (hpc : s.pc c = .teardown p) :
    Inv { s.goto c .idle with
      hal := runTeardown s.hal p
      status := Function.update s.status p .torn
      torn := s.torn ++ [(p, s.hal.devices p)] } := by
  have hp : s.status p = .tearing c := by
    have hok := h.scheduled.pcOk c
    rwa [hpc] at hok
  have hcounted := h.counted.teardown hp
  refine ⟨hcounted.setControl _ _ _, ?_⟩
  refine h.scheduled.of_frame (c := c) ⟨fun c' hc => Function.update_of_ne hc _ _,
    fun _ _ _ hq => hq, fun _ _ _ hq => hq, fun _ => ⟨rfl, rfl⟩, fun c' hc q => ?_⟩
    (h.scheduled.locked.goto (by simp [hpc, Pc.writes]) (by simp [hpc, Pc.reads]))
    h.scheduled.unlocked ?_ fun q hq => ?_
  · by_cases hqp : q = p
    · simp [hqp, hp, Ne.symm hc]
    · simp [hqp]
  · simp [RefState.goto, PcOk]
  · by_cases hqp : q = p
    · simp [hqp] at hq
    · simp only [Function.update_of_ne hqp] at hq
      have heq := h.scheduled.tearing c q hq
      rw [hpc] at heq
      exact absurd (Pc.teardown.inj heq).symm hqp

/-- No device has more references than its counter can tell apart. -/
def RefsBounded (s : RefState ω) : Prop := ∀ p, (s.owners p).length ≤ 2 ^ 32

theorem Inv.advance (h : s.Inv) (hrefs : s.RefsBounded) (c : ω) : (s.advance c).Inv := by
  have hok := h.scheduled.pcOk c
  unfold RefState.advance
  split
  · exact h
  · next p hpc =>
      rw [hpc] at hok
      have hstatus := h.scheduled.not_tearing (c := c) (by simp [hpc])
      split_ifs
      · exact h.goto (by simp [hpc, Pc.writes]) (by simp [hpc, Pc.reads]) trivial hstatus
      · exact h
      · exact h.lockWrite rfl rfl (fun hreg => ⟨hok, hreg, by simp⟩) hstatus
  · next hpc => exact h.registerStep hpc
  · next hpc => exact h.registerRef hpc
  · next p hpc =>
      rw [hpc] at hok
      exact h.lockWrite rfl rfl (fun hreg => ⟨hok, hreg⟩)
        (h.scheduled.not_tearing (by simp [hpc]))
  · next hpc => exact h.unregisterStep hpc
  · next p hpc =>
      rw [hpc] at hok
      exact h.dropRef hok.2 (.inr rfl) (hrefs p) (by simp [hpc, Pc.writes])
        (by simp [hpc, Pc.reads]) (h.scheduled.not_tearing (by simp [hpc]))
  · next hpc =>
      exact h.lockRead rfl rfl trivial (h.scheduled.not_tearing (by simp [hpc]))
  · next hpc => exact h.findStep hpc
  · next p hpc =>
      rw [hpc] at hok
      have hreg := h.scheduled.registering_eq_none (c := c) (by simp [hpc, Pc.reads])
      exact h.addClient (h.counted.live_of_slot hreg hok)
        (h.scheduled.locked.unlock rfl rfl) (fun _ => hreg) trivial
        (h.scheduled.not_tearing (by simp [hpc]))
  · next hpc =>
      exact h.lockRead rfl rfl trivial (h.scheduled.not_tearing (by simp [hpc]))
  · next hpc => exact h.listStep hpc
  · next p hpc =>
      rw [hpc] at hok
      have hreg := h.scheduled.registering_eq_none (c := c) (by simp [hpc, Pc.reads])
      exact h.addClient (h.counted.live_of_slot hreg hok)
        (h.scheduled.locked.goto (by simp [hpc, Pc.writes]) (by simp [hpc, Pc.reads]))
        h.scheduled.unlocked trivial (h.scheduled.not_tearing (by simp [hpc]))
  · next hpc => exact h.teardown hpc

theorem Inv.create (h : s.Inv) (hidle : s.pc c = .idle) (hp : p ≠ null)
    (hunborn : s.status p = .unborn) (device : HwDevice) :
    Inv { s with
      hal := s.hal.setDevice p { device with refCount := 1 }
      owners := Function.update s.owners p [.client c]
      status := Function.update s.status p .live } := by
  have hnil := h.counted.owners_of_unborn hunborn
  have howner : ∀ (owner : Owner ω) q, owner ∈ s.owners q →
      owner ∈ Function.update s.owners p [.client c] q := by
    intro owner q hq
    by_cases hqp : q = p
    · rw [hqp, hnil] at hq
      cases hq
    · rwa [Function.update_of_ne hqp]
  have htearing : ∀ c' q, s.status q = .tearing c' ↔
      Function.update s.status p .live q = .tearing c' := by
    intro c' q
    by_cases hqp : q = p
    · simp [hqp, hunborn]
    · simp [hqp]
  refine ⟨h.counted.create hp hunborn device c, ?_⟩
  refine h.scheduled.of_frame (c := c) ⟨fun _ _ => rfl, fun _ _ q hq => howner _ q hq,
    fun _ _ q hq => howner _ q hq, fun _ => ⟨rfl, rfl⟩, fun c' _ q => htearing c' q⟩
    h.scheduled.locked h.scheduled.unlocked ?_
    fun q hq => h.scheduled.tearing c q ((htearing c q).mpr hq)
  simp [hidle, PcOk]

theorem Inv.use (h : s.Inv) (hidle : s.pc c = .idle) (p : DevicePtr) (state : HalDeviceState) :
    Inv { s with hal := s.hal.setDevice p { s.hal.devices p with state := state } } := by
  refine ⟨h.counted.use p state, ?_⟩
  refine h.scheduled.of_frame (c := c) ⟨fun _ _ => rfl, fun _ _ _ hq => hq,
    fun _ _ _ hq => hq, fun _ => ⟨rfl, rfl⟩, fun _ _ _ => Iff.rfl⟩ h.scheduled.locked
    h.scheduled.unlocked ?_ (h.scheduled.tearing c)
  simp [hidle, PcOk]

theorem Inv.ref (h : s.Inv) (hidle : s.pc c = .idle) (hholds : s.Holds c p) :
    (s.addRef p (.client c)).Inv := by
  have hpc : Function.update s.pc c .idle = s.pc := hidle ▸ Function.update_eq_self c s.pc
  have hlive := (h.counted.live_iff p).mpr (List.ne_nil_of_mem hholds)
  have hlocked : Locked (Function.update s.pc c .idle) s.writer s.readers := by
    rw [hpc]
    exact h.scheduled.locked
  have hadd : Inv ((s.addRef p (.client c)).goto c .idle) :=
    h.addClient hlive hlocked h.scheduled.unlocked trivial
      (h.scheduled.not_tearing (by simp [hidle]))
  simpa only [RefState.goto, addRef, hpc] using hadd

theorem Inv.begin (h : s.Inv) (hidle : s.pc c = .idle) (hrefs : s.RefsBounded)
    (call : RefCall) : (s.begin c call).Inv := by
  have hstatus := h.scheduled.not_tearing (c := c) (by simp [hidle])
  have hgoto : ∀ pc, pc.writes = false → pc.reads = false → s.PcOk c pc → (s.goto c pc).Inv := by
    intro pc hw hr hpc
    refine h.goto ?_ ?_ hpc hstatus
    · rw [hw, hidle]
      rfl
    · rw [hr, hidle]
      rfl
  cases call with
  | create p device =>
      simp only [RefState.begin]
      split_ifs with hnew
      · exact h.create hidle hnew.1 hnew.2 device
      · exact h
  | use p state =>
      simp only [RefState.begin]
      split_ifs
      · exact h.use hidle p state
      · exact h
  | register p =>
      simp only [RefState.begin]
      split_ifs with hholds
      · exact hgoto _ rfl rfl hholds
      · exact h
  | unregister p =>
      simp only [RefState.begin]
      split_ifs with hholds
      · exact hgoto _ rfl rfl hholds
      · exact h
  | find deviceName =>
      cases deviceName with
      | none => exact h
      | some deviceName => exact hgoto _ rfl rfl trivial
  | list devicesOut maxDevices =>
      simp only [RefState.begin]
      split_ifs
      · exact h
      · exact hgoto _ rfl rfl trivial
  | ref p =>
      simp only [RefState.begin]
      split_ifs with hholds
      · exact h.ref hidle hholds
      · exact h
  | unref p =>
      simp only [RefState.begin]
      split_ifs with hholds
      · exact h.dropRef hholds (.inl rfl) (hrefs p) (by simp [hidle, Pc.writes])
          (by simp [hidle, Pc.reads]) hstatus
      · exact h

theorem Inv.step (h : s.Inv) (hrefs : s.RefsBounded) (ev : RefEvent ω) : (s.step ev).Inv := by
  cases ev with
  | call c call =>
      simp only [RefState.step]
      split_ifs with hidle
      · exact h.begin hidle hrefs call
      · exact h
  | advance c => exact h.advance hrefs c

/-! ## Owned devices and their teardown -/

/-- The devices that a step touches have a reference, except for the device whose
teardown the step runs. -/
def TouchesOwned (s : RefState ω) (ev : RefEvent ω) : Prop :=
  ∀ p ∈ s.touches ev, s.owners p ≠ [] ∨ ∃ c, ev = .advance c ∧ s.pc c = .teardown p

/-- A device has lost its last reference exactly when its teardown has run or is the next
step of a client; no teardown has run twice, and each has made its calls. -/
structure TearsDown (s : RefState ω) : Prop where
  last : ∀ p, s.status p ≠ .unborn →
    (s.owners p = [] ↔ p ∈ s.torn.map Prod.fst ∨ ∃ c, s.pc c = .teardown p)
  once : (s.torn.map Prod.fst).Nodup
  calls : s.hal.teardowns = s.torn.flatMap fun e => (teardownCalls e.2).map (e.1, ·)

theorem Inv.tearsDown (h : s.Inv) : s.TearsDown := by
  refine ⟨fun p hp => ?_, h.counted.nodup, h.counted.log⟩
  rw [h.counted.torn]
  constructor
  · intro hnil
    have hnotlive : s.status p ≠ .live := fun hlive => (h.counted.live_iff p).mp hlive hnil
    cases hstatus : s.status p with
    | unborn => exact absurd hstatus hp
    | live => exact absurd hstatus hnotlive
    | tearing c => exact .inr ⟨c, h.scheduled.tearing c p hstatus⟩
    | torn => exact .inl rfl
  · intro hdone
    by_contra hne
    have hlive := (h.counted.live_iff p).mpr hne
    rcases hdone with htorn | ⟨c, hc⟩
    · rw [hlive] at htorn
      cases htorn
    · have hok := h.scheduled.pcOk c
      rw [hc] at hok
      exact absurd (hlive.symm.trans hok) (by simp)

theorem Inv.owned_of_slot (h : s.Inv) (hreg : s.registering = none)
    (hslot : (s.hal.slotsOf p).Nonempty) : s.owners p ≠ [] :=
  (h.counted.live_iff p).mp (h.counted.live_of_slot hreg hslot)

theorem Inv.owned_of_occupied (h : s.Inv) (hreg : s.registering = none) {idx : ℕ}
    (hidx : idx < tableSize) (hslot : (s.hal.gRegistry idx).occupied = true) :
    s.owners (s.hal.gRegistry idx).device ≠ [] :=
  h.owned_of_slot hreg ⟨idx, mem_slotsOf.mpr ⟨hidx, hslot, rfl⟩⟩

theorem Inv.advanceTouches_owned (h : s.Inv) (hp : p ∈ s.advanceTouches c) :
    s.owners p ≠ [] ∨ s.pc c = .teardown p := by
  have hok := h.scheduled.pcOk c
  unfold advanceTouches at hp
  split at hp
  · next q i tombstoneSlot hpc =>
      rw [hpc] at hok
      dsimp only at hp
      split_ifs at hp with hend hslot
      · cases hp
      · left
        rcases List.mem_pair.mp hp with rfl | rfl
        · exact h.owned_of_occupied hok.2.1 (slotIdx_lt _ i) hslot.1
        · exact List.ne_nil_of_mem hok.1
      · cases hp
  · next deviceName i hpc =>
      have hreg := h.scheduled.registering_eq_none (c := c) (by simp [hpc, Pc.reads])
      dsimp only at hp
      split_ifs at hp with hend hslot
      · cases hp
      · obtain rfl := List.mem_singleton.mp hp
        exact .inl (h.owned_of_occupied hreg (slotIdx_lt _ i) hslot.1)
      · cases hp
  · next q hpc =>
      rw [hpc] at hok
      obtain rfl := List.mem_singleton.mp hp
      exact .inl (List.ne_nil_of_mem hok.1)
  · next q hpc =>
      rw [hpc] at hok
      obtain rfl := List.mem_singleton.mp hp
      exact .inl (List.ne_nil_of_mem hok.1)
  · next q hpc =>
      rw [hpc] at hok
      have hreg := h.scheduled.registering_eq_none (c := c) (by simp [hpc, Pc.reads])
      obtain rfl := List.mem_singleton.mp hp
      exact .inl (h.owned_of_slot hreg hok)
  · next q hpc =>
      rw [hpc] at hok
      have hreg := h.scheduled.registering_eq_none (c := c) (by simp [hpc, Pc.reads])
      obtain rfl := List.mem_singleton.mp hp
      exact .inl (h.owned_of_slot hreg hok)
  · next q hpc =>
      obtain rfl := List.mem_singleton.mp hp
      exact .inr hpc
  · cases hp

theorem owned_of_mem_touches_call {call : RefCall} (hp : p ∈ s.touches (.call c call)) :
    s.owners p ≠ [] := by
  have hheld : ∀ q, p ∈ (if s.pc c = .idle ∧ s.Holds c q then [q] else []) →
      s.owners p ≠ [] := by
    intro q hq
    split_ifs at hq with hcall
    · obtain rfl := List.mem_singleton.mp hq
      exact List.ne_nil_of_mem hcall.2
    · cases hq
  cases call with
  | use q _ => exact hheld q hp
  | register q => exact hheld q hp
  | unregister q => exact hheld q hp
  | ref q => exact hheld q hp
  | unref q => exact hheld q hp
  | _ => cases hp

theorem Inv.touchesOwned (h : s.Inv) (ev : RefEvent ω) : s.TouchesOwned ev := by
  intro p hp
  cases ev with
  | call c call => exact .inl (owned_of_mem_touches_call hp)
  | advance c =>
      rcases h.advanceTouches_owned hp with howned | hpc
      · exact .inl howned
      · exact .inr ⟨c, rfl, hpc⟩

end Steps

/-- In every run in which no device has more than 2 ^ 32 references at a time, no step
touches a device without references, and every device is torn down once, behind the
release of its last reference. -/
theorem refCounting_run (evs : List (RefEvent ω))
    (hrefs : ∀ before, before <+: evs → (run step initial before).RefsBounded) :
    Guarded step TouchesOwned (initial : RefState ω) evs ∧
      ∀ before, before <+: evs → (run step (initial : RefState ω) before).TearsDown := by
  have hinv : ∀ before, before <+: evs → (run step (initial : RefState ω) before).Inv := by
    intro before
    induction before using List.reverseRecOn with
    | nil => exact fun _ => inv_initial
    | append_singleton before ev ih =>
        intro hbefore
        have hprefix : before <+: evs := (List.prefix_append before [ev]).trans hbefore
        rw [run_concat]
        exact (ih hprefix).step (hrefs before hprefix) ev
  constructor
  · rw [guarded_iff_forall_split]
    rintro before ev after rfl
    exact (hinv before (List.prefix_append _ _)).touchesOwned ev
  · exact fun before hbefore => (hinv before hbefore).tearsDown

omit [DecidableEq ω] in
theorem length_update_owners {s : RefState ω} {p : DevicePtr} {owners : List (Owner ω)}
    (hlen : owners.length ≤ (s.owners p).length + 1) (q : DevicePtr) :
    (Function.update s.owners p owners q).length ≤ (s.owners q).length + 1 := by
  by_cases hq : q = p
  · rw [hq, Function.update_self]
    exact hlen
  · rw [Function.update_of_ne hq]
    exact Nat.le_succ _

theorem length_erase_owners (s : RefState ω) (owner : Owner ω) (p q : DevicePtr) :
    (Function.update s.owners p ((s.owners p).erase owner) q).length ≤
      (s.owners q).length + 1 :=
  length_update_owners (List.length_erase_le.trans (Nat.le_succ _)) q

theorem length_owners_dropRef (s : RefState ω) (c : ω) (p : DevicePtr) (owner : Owner ω)
    (q : DevicePtr) :
    ((s.dropRef c p owner).owners q).length ≤ (s.owners q).length + 1 := by
  simp only [dropRef]
  split_ifs <;> exact length_erase_owners s owner p q

theorem length_owners_advance (s : RefState ω) (c : ω) (q : DevicePtr) :
    ((s.advance c).owners q).length ≤ (s.owners q).length + 1 := by
  have hadd : ∀ p (owner : Owner ω),
      ((s.addRef p owner).owners q).length ≤ (s.owners q).length + 1 :=
    fun p owner => length_update_owners (Nat.le_refl _) q
  have hsame : (s.owners q).length ≤ (s.owners q).length + 1 := Nat.le_succ _
  cases hpc : s.pc c with
  | idle | teardown =>
      simp only [advance, hpc]
      exact hsame
  | registerLock p =>
      simp only [advance, hpc, lockWrite]
      split_ifs <;> exact hsame
  | registerWalk p i tombstoneSlot =>
      simp only [advance, hpc, registerStep]
      split_ifs <;> exact hsame
  | registerRef p | findRef p | listRef maxDevices i devicesOut p =>
      simp only [advance, hpc]
      exact hadd p _
  | unregisterLock p =>
      simp only [advance, hpc, lockWrite]
      split_ifs <;> exact hsame
  | unregisterWalk p i =>
      simp only [advance, hpc, unregisterStep]
      split_ifs
      any_goals exact hsame
      have hlen : (Owner.leaving c :: (s.owners p).erase .registry).length ≤
          (s.owners p).length + 1 :=
        Nat.succ_le_succ List.length_erase_le
      exact length_update_owners hlen q
  | unregisterUnref p =>
      simp only [advance, hpc]
      exact length_owners_dropRef s c p _ q
  | findLock deviceName | listLock maxDevices =>
      simp only [advance, hpc, lockRead]
      split_ifs <;> exact hsame
  | findWalk deviceName i =>
      simp only [advance, hpc, findStep]
      split_ifs <;> exact hsame
  | listWalk maxDevices i devicesOut =>
      simp only [advance, hpc, listStep]
      split_ifs <;> exact hsame

theorem length_owners_begin (s : RefState ω) (c : ω) (call : RefCall) (q : DevicePtr) :
    ((s.begin c call).owners q).length ≤ (s.owners q).length + 1 := by
  have hsame : (s.owners q).length ≤ (s.owners q).length + 1 := Nat.le_succ _
  cases call with
  | create p device =>
      simp only [RefState.begin]
      split_ifs
      · exact length_update_owners (by simp) q
      · exact hsame
  | use p state =>
      simp only [RefState.begin]
      split_ifs <;> exact hsame
  | register p | unregister p =>
      simp only [RefState.begin]
      split_ifs <;> exact hsame
  | find deviceName => cases deviceName <;> exact hsame
  | list devicesOut maxDevices =>
      simp only [RefState.begin]
      split_ifs <;> exact hsame
  | ref p =>
      simp only [RefState.begin]
      split_ifs
      · exact length_update_owners (Nat.le_refl _) q
      · exact hsame
  | unref p =>
      simp only [RefState.begin]
      split_ifs
      · exact length_owners_dropRef s c p _ q
      · exact hsame

theorem length_owners_run (evs : List (RefEvent ω)) (p : DevicePtr) :
    ((run step initial evs).owners p).length ≤ evs.length := by
  induction evs using List.reverseRecOn with
  | nil => exact Nat.le_refl 0
  | append_singleton evs ev ih =>
      rw [run_concat, List.length_append, List.length_singleton]
      refine le_trans ?_ (Nat.succ_le_succ ih)
      cases ev with
      | call c call =>
          simp only [RefState.step]
          split_ifs
          · exact length_owners_begin _ c call p
          · exact Nat.le_succ _
      | advance c => exact length_owners_advance _ c p

def deviceName : List UInt8 := CString.ascii ['c', 'a', 'm']

/-- One client makes a device and registers it, a second one finds it, uses it and
unregisters it behind the first one's release. -/
def sharedRun : List (RefEvent Bool) :=
  [.call false (.create 1 (halDeviceInit deviceName)), .call false (.register 1),
    .advance false, .advance false, .advance false,
    .call true (.find (some deviceName)), .advance true, .advance true, .advance true,
    .call true (.use 1 .active), .call false (.unref 1), .call true (.unregister 1),
    .advance true, .advance true, .advance true, .call true (.unref 1), .advance true]

/-- The device is torn down behind the release of the second client. -/
theorem refCounting_run_shared :
    Guarded step TouchesOwned initial sharedRun ∧
      (∀ before, before <+: sharedRun → (run step initial before).TearsDown) ∧
      (run step initial sharedRun).torn.map Prod.fst = [1] := by
  obtain ⟨htouches, htears⟩ := refCounting_run sharedRun fun before hbefore p =>
    (length_owners_run before p).trans (hbefore.length_le.trans (by decide))
  exact ⟨htouches, htears, by decide +kernel⟩

def createEvent : RefEvent Unit := .call () (.create 1 (halDeviceInit []))

/-- `n` more references of the client. -/
def refEvents (n : ℕ) : List (RefEvent Unit) := List.replicate n (.call () (.ref 1))

/-- A client of one device that holds `n` references. -/
structure Holding (s : RefState Unit) (n : ℕ) : Prop where
  idle : s.pc () = .idle
  owners : s.owners 1 = List.replicate n (.client ())
  count : (s.hal.devices 1).refCount = Int32.ofNat n
  status : s.status 1 = .live

theorem holding_create : Holding (step initial createEvent) 1 := by
  constructor <;> rfl

theorem Holding.holds {s : RefState Unit} {n : ℕ} (h : Holding s (n + 1)) : s.Holds () 1 := by
  rw [Holds, h.owners]
  exact List.mem_replicate.mpr ⟨Nat.succ_ne_zero n, rfl⟩

theorem Holding.ref {s : RefState Unit} {n : ℕ} (h : Holding s (n + 1)) :
    Holding (s.step (.call () (.ref 1))) (n + 2) := by
  have hstep : s.step (.call () (.ref 1)) = s.addRef 1 (.client ()) := by
    simp only [RefState.step, if_pos h.idle, RefState.begin, if_pos h.holds]
  rw [hstep]
  refine ⟨h.idle, ?_, ?_, h.status⟩
  · simp only [addRef, Function.update_self, h.owners]
    rfl
  · simp only [addRef, halDeviceRef_devices s.hal (p := 1) (by decide), Function.update_self,
      h.count, int32_succ]

theorem holding_refEvents (n : ℕ) :
    Holding (run step initial (createEvent :: refEvents n)) (n + 1) := by
  induction n with
  | zero => exact holding_create
  | succ n ih =>
      have hsplit : createEvent :: refEvents (n + 1) =
          (createEvent :: refEvents n) ++ [.call () (.ref 1)] := by
        rw [refEvents, List.replicate_succ']
        rfl
      rw [hsplit, run_concat]
      exact ih.ref

/-- A counter that is back at 1 tears down a device that has more references. -/
theorem Holding.not_tearsDown {s : RefState Unit} {n : ℕ} (h : Holding s (n + 1))
    (hpos : 0 < n) (hwrap : Int32.ofNat (n + 1) = 1) :
    ¬(s.step (.call () (.unref 1))).TearsDown := by
  have hone : (s.hal.devices 1).refCount = 1 := h.count.trans hwrap
  have hstep : s.step (.call () (.unref 1)) = s.dropRef () 1 (.client ()) := by
    simp only [RefState.step, if_pos h.idle, RefState.begin, if_pos h.holds]
  rw [hstep, RefState.dropRef, if_pos hone]
  intro htears
  have hempty := (htears.last 1 (by simp)).mpr (.inr ⟨(), by simp [RefState.goto]⟩)
  simp only [RefState.goto, Function.update_self, h.owners] at hempty
  have hlen := congrArg List.length hempty
  rw [List.length_erase_of_mem (h.owners ▸ h.holds), List.length_replicate, Nat.add_sub_cancel,
    List.length_nil] at hlen
  omega

theorem exists_not_tearsDown {n : ℕ} (hpos : 0 < n) (hwrap : Int32.ofNat (n + 1) = 1) :
    ∃ evs : List (RefEvent Unit), ¬(run step initial evs).TearsDown := by
  refine ⟨createEvent :: refEvents n ++ [.call () (.unref 1)], ?_⟩
  rw [run_concat]
  exact (holding_refEvents n).not_tearsDown hpos hwrap

theorem int32_wraps : Int32.ofNat (2 ^ 32 + 1) = 1 := by
  decide +kernel

/-- Behind 2 ^ 32 more references the release of one tears the device down. -/
theorem wrapped_counter_tears_down :
    ¬∀ evs : List (RefEvent Unit), Guarded step TouchesOwned initial evs ∧
      ∀ before, before <+: evs → (run step initial before).TearsDown := by
  intro hall
  obtain ⟨evs, hevs⟩ := exists_not_tearsDown (n := 2 ^ 32) (Nat.two_pow_pos 32) int32_wraps
  exact hevs ((hall evs).2 evs List.prefix_rfl)

end RefState

end Hal

end Shinigami
