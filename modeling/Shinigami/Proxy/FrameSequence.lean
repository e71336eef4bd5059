import Mathlib.Data.List.Induction
import Shinigami.Foundations.RingIndex
import Shinigami.Foundations.Run
import Shinigami.Proxy.ShmReader

/-!
# Which frame a sequence number names

A reader and its daemon in any interleaving, from a fresh region on. Frame `k` is
written into slot `k` modulo the number of slots and stays there until its read is
over, so what a reader points to is the frame it owes (`RingInv`), with two
exceptions. The offset of a slot is computed in 32 bits, and a frame is stamped
with the index of the daemon at its load, which is `k` plus the number of unread
frames found then.
-/

namespace Shinigami

namespace Proxy

def ReadPhase.loads {F : Type*} : ReadPhase F → ℕ
  | .loaded _ => 1
  | _ => 0

def ReadPhase.callbacks {F : Type*} : ReadPhase F → ℕ
  | .callback _ => 1
  | _ => 0

namespace ShmLayout

open RingIndex

variable {H F : Type*} (L : ShmLayout H F)

/-- The frames delivered are the written ones in order, each once, intact as long as
the callback runs and all of them when nothing is ready; their sequence numbers
increase by one. -/
structure FramesIdentified (s : ShmState H F) : Prop where
  written : ∀ k d, s.delivered[k]? = some d →
    L.slotAddress d.frame = L.slotStart s.region.header k ∧ s.written[k]? = some d.bytes
  intact : ∀ frame, s.phase = .callback frame → ∃ d, s.delivered.getLast? = some d ∧
    d.frame = frame ∧ L.slotBytes s.region (L.slotAddress frame) = d.bytes
  complete : s.phase = .idle → s.cachedRi.isSome →
    s.pollReady = false → s.delivered.length = s.written.length
  numbered : (s.delivered.map (L.sequence ·.frame)).IsChain
    fun a b => b.toNat = a.toNat + 1

/-- No slot from 4 GiB on has been read. -/
def NearSlotsRead (s : ShmState H F) : Prop :=
  ∀ k < s.delivered.length, L.slotStart s.region.header k < 2 ^ 32

/-- Every read has found as many unread frames as the one before it. -/
def EvenReads (s : ShmState H F) : Prop :=
  (s.unread.take s.delivered.length).IsChain (· = ·)

/-- A frame delivered as the one of number `k`. -/
structure Logged (s : ShmState H F) (k : ℕ) (d : Delivery F) : Prop where
  address : L.slotAddress d.frame = L.slotStart s.region.header k % 2 ^ 32
  bytes : L.slotStart s.region.header k < 2 ^ 32 → s.written[k]? = some d.bytes
  sequence : ∃ u, s.unread[k]? = some u ∧ (L.sequence d.frame).toNat = k + u

structure RingInv (s : ShmState H F) : Prop where
  write_eq : s.region.writeIndex.toNat = s.written.length
  cached : s.cachedRi = some s.region.readIndex ∨ s.cachedRi = none ∧ s.phase = .idle
  delivered_eq : s.delivered.length = s.region.readIndex.toNat + s.phase.callbacks
  unread_eq : s.unread.length = s.delivered.length + s.phase.loads
  delivered_le : s.delivered.length + s.phase.loads ≤ s.written.length
  written_le : s.written.length ≤
    s.region.readIndex.toNat + (L.slotCount s.region.header).toNat
  held : ∀ k bs, s.region.readIndex.toNat ≤ k → s.written[k]? = some bs →
    L.slotBytes s.region (L.slotStart s.region.header k) = bs
  loaded : ∀ wi, s.phase = .loaded wi →
    ∃ u, s.unread[s.delivered.length]? = some u ∧ wi.toNat = s.delivered.length + u
  callback : ∀ frame, s.phase = .callback frame →
    ∃ d, s.delivered.getLast? = some d ∧ d.frame = frame
  logged : ∀ k d, s.delivered[k]? = some d → L.Logged s k d

theorem ringInv_start (header : H) (data : ℕ → UInt8) :
    L.RingInv (.start header data) where
  write_eq := rfl
  cached := .inr ⟨rfl, rfl⟩
  delivered_eq := rfl
  unread_eq := rfl
  delivered_le := Nat.le_refl 0
  written_le := Nat.zero_le _
  held := by simp [ShmState.start]
  loaded := nofun
  callback := nofun
  logged := by simp [ShmState.start]

section Memory

variable {L}

theorem slotStart_add_ne {header : H} {j k i i' : ℕ}
    (hne : j % (L.slotCount header).toNat ≠ k % (L.slotCount header).toNat)
    (hi : i < (L.slotSizeBytes header).toNat) (hi' : i' < (L.slotSizeBytes header).toNat) :
    L.slotStart header k + i' ≠ L.slotStart header j + i := by
  intro heq
  have hdiv : ∀ a b, b < (L.slotSizeBytes header).toNat →
      (a * (L.slotSizeBytes header).toNat + b) / (L.slotSizeBytes header).toNat = a := by
    intro a b hb
    rw [Nat.add_comm, Nat.add_mul_div_right _ _ (by omega), Nat.div_eq_of_lt hb, Nat.zero_add]
  have hslot := congrArg (· / (L.slotSizeBytes header).toNat) heq
  simp only [slotStart, hdiv _ _ hi, hdiv _ _ hi'] at hslot
  exact hne hslot.symm

theorem slotBytes_update {region : ShmRegion H} {j k i : ℕ} (b : UInt8)
    (hne : j % (L.slotCount region.header).toNat ≠ k % (L.slotCount region.header).toNat)
    (hi : i < (L.slotSizeBytes region.header).toNat) :
    L.slotBytes
        { region with data := Function.update region.data (L.slotStart region.header j + i) b }
        (L.slotStart region.header k) =
      L.slotBytes region (L.slotStart region.header k) := by
  unfold slotBytes bytesAt
  refine List.map_congr_left fun i' hi' => ?_
  exact Function.update_of_ne (slotStart_add_ne hne hi (List.mem_range.mp hi')) _ _

theorem slotOffset_eq (header : H) (ri : UInt32) :
    L.slotOffset header ri = L.slotStart header ri.toNat % 2 ^ 32 := by
  simp [slotOffset, slotStart]

end Memory

section Steps

variable {L} {s : ShmState H F}

theorem RingInv.room (h : L.RingInv s) : L.Room s.region ↔
    s.written.length < s.region.readIndex.toNat + (L.slotCount s.region.header).toNat := by
  have hle : s.region.readIndex ≤ s.region.writeIndex := by
    have := h.delivered_eq
    have := h.delivered_le
    rw [UInt32.le_iff_toNat_le, h.write_eq]
    omega
  have hle' := UInt32.le_iff_toNat_le.mp hle
  rw [Room, UInt32.toNat_sub_of_le _ _ hle, h.write_eq]
  rw [h.write_eq] at hle'
  omega

theorem RingInv.store (h : L.RingInv s) (hroom : L.Room s.region) {i : ℕ}
    (hi : i < (L.slotSizeBytes s.region.header).toNat) (b : UInt8) :
    L.RingInv { s with
      region.data := Function.update s.region.data
        (L.slotStart s.region.header s.region.writeIndex.toNat + i) b } :=
  { h with
    held := by
      intro k bs (hk : s.region.readIndex.toNat ≤ k) (hbs : s.written[k]? = some bs)
      have hlt := (List.getElem?_eq_some_iff.mp hbs).1
      have hwindow := h.room.mp hroom
      have hne : s.region.writeIndex.toNat % (L.slotCount s.region.header).toNat ≠
          k % (L.slotCount s.region.header).toNat := by
        intro heq
        have := eq_of_mod_eq (n := (L.slotCount s.region.header).toNat) (a := k)
          (b := s.region.writeIndex.toNat) (by rw [h.write_eq]; omega)
          (by rw [h.write_eq]; omega) heq.symm
        rw [h.write_eq] at this
        omega
      exact (slotBytes_update b hne hi).trans (h.held k bs hk hbs)
    logged := fun k d hd => ⟨(h.logged k d hd).address, (h.logged k d hd).bytes,
      (h.logged k d hd).sequence⟩ }

theorem Logged.grow {s' : ShmState H F} {k : ℕ} {d : Delivery F} (h : L.Logged s k d)
    (hheader : s'.region.header = s.region.header) (hwritten : s.written <+: s'.written)
    (hunread : s.unread <+: s'.unread) : L.Logged s' k d := by
  refine ⟨by rw [hheader]; exact h.address, ?_, ?_⟩
  · intro hnear
    rw [hheader] at hnear
    exact getElem?_of_prefix hwritten (h.bytes hnear)
  · obtain ⟨u, hu, hseq⟩ := h.sequence
    exact ⟨u, getElem?_of_prefix hunread hu, hseq⟩

theorem RingInv.publish (h : L.RingInv s) (hroom : L.Room s.region)
    (hfew : s.written.length + 1 < 2 ^ 32) :
    L.RingInv { s with
      region.writeIndex := s.region.writeIndex + 1
      written := s.written ++ [L.slotBytes s.region
        (L.slotStart s.region.header s.region.writeIndex.toNat)] } where
  write_eq := by
    simp only [UInt32.toNat_add, List.length_append, List.length_singleton, h.write_eq]
    exact Nat.mod_eq_of_lt hfew
  cached := h.cached
  delivered_eq := h.delivered_eq
  unread_eq := h.unread_eq
  delivered_le := by
    have hle : s.delivered.length + s.phase.loads ≤ s.written.length := h.delivered_le
    simp only [List.length_append, List.length_singleton]
    omega
  written_le := by
    have hwindow := h.room.mp hroom
    simp only [List.length_append, List.length_singleton]
    omega
  held := by
    intro k bs (hk : s.region.readIndex.toNat ≤ k) hbs
    rcases Nat.lt_or_ge k s.written.length with hlt | hge
    · rw [List.getElem?_append_left hlt] at hbs
      exact h.held k bs hk hbs
    · have hnew := (List.getElem?_eq_some_iff.mp hbs).1
      rw [List.length_append, List.length_singleton] at hnew
      obtain rfl : k = s.written.length := by omega
      rw [List.getElem?_concat_length, Option.some.injEq, h.write_eq] at hbs
      exact hbs
  loaded := h.loaded
  callback := h.callback
  logged := fun k d hd =>
    (h.logged k d hd).grow rfl (List.prefix_append _ _) List.prefix_rfl

theorem openReader_eq_ok {region : ShmRegion H} {mapped : Except (ShmError × String) ℕ}
    {ri : UInt32} (h : L.openReader region mapped = .ok ri) : ri = region.readIndex := by
  cases mapped with
  | error e => cases h
  | ok size =>
      simp only [openReader] at h
      split_ifs at h
      cases h
      rfl

theorem RingInv.openReader (h : L.RingInv s) (hclosed : s.cachedRi = none)
    (mapped : Except (ShmError × String) ℕ) :
    L.RingInv { s with cachedRi := (L.openReader s.region mapped).toOption } :=
  { h with
    cached := by
      have hidle : s.phase = .idle := by
        rcases h.cached with hopen | ⟨-, hidle⟩
        · rw [hclosed] at hopen
          cases hopen
        · exact hidle
      cases hres : L.openReader s.region mapped with
      | error e => exact .inr ⟨rfl, hidle⟩
      | ok ri => exact .inl (congrArg some (openReader_eq_ok hres))
    logged := fun k d hd => (h.logged k d hd).grow rfl List.prefix_rfl List.prefix_rfl }

theorem RingInv.closeReader (h : L.RingInv s) (hidle : s.phase = .idle) :
    L.RingInv { s with cachedRi := none } :=
  { h with
    cached := .inr ⟨rfl, hidle⟩
    logged := fun k d hd => (h.logged k d hd).grow rfl List.prefix_rfl List.prefix_rfl }

theorem RingInv.load (h : L.RingInv s) (hidle : s.phase = .idle) {wi : UInt32}
    (hload : L.readBegin s.region s.cachedRi = .ok wi) :
    L.RingInv { s with
      phase := .loaded wi
      unread := s.unread ++ [(wi - s.region.readIndex).toNat] } := by
  have hdelivered : s.delivered.length = s.region.readIndex.toNat := by
    simpa [hidle, ReadPhase.callbacks] using h.delivered_eq
  have hunread : s.unread.length = s.delivered.length := by
    simpa [hidle, ReadPhase.loads] using h.unread_eq
  have hle : s.delivered.length ≤ s.written.length := by
    simpa [hidle, ReadPhase.loads] using h.delivered_le
  -- The load finds a reader that is open and an index that is not its own.
  obtain ⟨hopen, hwi, hne⟩ : s.cachedRi = some s.region.readIndex ∧
      wi = s.region.writeIndex ∧ s.region.writeIndex ≠ s.region.readIndex := by
    rcases h.cached with hopen | ⟨hclosed, -⟩
    · simp only [readBegin, hopen] at hload
      split_ifs at hload with heq
      cases hload
      exact ⟨hopen, rfl, heq⟩
    · rw [hclosed] at hload
      cases hload
  have hwrite : wi.toNat = s.written.length := by rw [hwi, h.write_eq]
  have hlt : s.delivered.length < s.written.length := by
    refine lt_of_le_of_ne hle fun heq => hne ?_
    rw [← UInt32.toNat_inj, h.write_eq, ← hdelivered, heq]
  have hsub : (wi - s.region.readIndex).toNat = wi.toNat - s.region.readIndex.toNat := by
    refine UInt32.toNat_sub_of_le _ _ (UInt32.le_iff_toNat_le.mpr ?_)
    omega
  exact
    { h with
      cached := .inl hopen
      delivered_eq := hdelivered
      unread_eq := by simp [hunread, ReadPhase.loads]
      delivered_le := hlt
      loaded := by
        intro wi' hwi'
        cases hwi'
        refine ⟨(wi - s.region.readIndex).toNat, ?_, ?_⟩
        · rw [← hunread]
          exact List.getElem?_concat_length
        · simp only [hsub]
          omega
      callback := nofun
      logged := fun k d hd =>
        (h.logged k d hd).grow rfl List.prefix_rfl (List.prefix_append _ _) }

theorem RingInv.deliver (h : L.RingInv s) {wi ri : UInt32} (hphase : s.phase = .loaded wi)
    (hopen : s.cachedRi = some ri) :
    let base := L.slotOffset s.region.header ri
    let frame := L.frame s.region.header wi base s.region.data
    L.RingInv { s with
      phase := .callback frame
      delivered := s.delivered ++ [⟨frame, L.slotBytes s.region base⟩] } := by
  intro base frame
  have hri : ri = s.region.readIndex := by
    rcases h.cached with hcached | ⟨hcached, -⟩ <;> simp_all
  have hdelivered : s.delivered.length = s.region.readIndex.toNat := by
    simpa [hphase, ReadPhase.callbacks] using h.delivered_eq
  have hlt : s.delivered.length + 1 ≤ s.written.length := by
    simpa [hphase, ReadPhase.loads] using h.delivered_le
  have hbase : base = L.slotStart s.region.header s.delivered.length % 2 ^ 32 := by
    rw [hdelivered, ← hri]
    exact slotOffset_eq s.region.header ri
  obtain ⟨u, hu, hwi⟩ := h.loaded wi hphase
  have hnew : L.Logged s s.delivered.length ⟨frame, L.slotBytes s.region base⟩ := by
    refine ⟨?_, ?_, u, hu, ?_⟩
    · rw [← hbase]
      exact L.slotAddress_frame _ _ _ _
    · intro hnear
      have hget := List.getElem?_eq_getElem (l := s.written) (i := s.delivered.length) hlt
      rw [hget, hbase, Nat.mod_eq_of_lt hnear]
      exact congrArg some (h.held _ _ hdelivered.ge hget).symm
    · rw [← hwi]
      exact congrArg UInt32.toNat (L.sequence_frame _ _ _ _)
  exact
    { h with
      cached := .inl (by rw [hopen, hri])
      delivered_eq := by simp [hdelivered, ReadPhase.callbacks]
      unread_eq := by simpa [hphase, ReadPhase.loads] using h.unread_eq
      delivered_le := by simpa [ReadPhase.loads] using hlt
      loaded := nofun
      callback := by
        intro frame' hframe'
        cases hframe'
        exact ⟨_, List.getLast?_concat, rfl⟩
      logged := by
        intro k d hd
        refine Logged.grow (s := s) ?_ rfl List.prefix_rfl List.prefix_rfl
        rcases Nat.lt_or_ge k s.delivered.length with hold | hge
        · rw [List.getElem?_append_left hold] at hd
          exact h.logged k d hd
        · have hlen := (List.getElem?_eq_some_iff.mp hd).1
          rw [List.length_append, List.length_singleton] at hlen
          obtain rfl : k = s.delivered.length := by omega
          rw [List.getElem?_concat_length, Option.some.injEq] at hd
          rwa [← hd] }

theorem RingInv.advance (h : L.RingInv s) {frame : F} {ri : UInt32}
    (hphase : s.phase = .callback frame) (hopen : s.cachedRi = some ri)
    (hfew : s.written.length < 2 ^ 32) :
    L.RingInv { s with
      phase := .idle
      cachedRi := some (ri + 1)
      region.readIndex := ri + 1 } := by
  have hri : ri = s.region.readIndex := by
    rcases h.cached with hcached | ⟨hcached, -⟩ <;> simp_all
  have hdelivered : s.delivered.length = s.region.readIndex.toNat + 1 := by
    simpa [hphase, ReadPhase.callbacks] using h.delivered_eq
  have hle : s.delivered.length ≤ s.written.length := by
    simpa [hphase, ReadPhase.loads] using h.delivered_le
  have hnext : (ri + 1).toNat = s.region.readIndex.toNat + 1 := by
    rw [UInt32.toNat_add, hri]
    exact Nat.mod_eq_of_lt (by simp; omega)
  exact
    { h with
      cached := .inl rfl
      delivered_eq := by simp [hnext, hdelivered, ReadPhase.callbacks]
      unread_eq := by simpa [hphase, ReadPhase.loads] using h.unread_eq
      delivered_le := by simpa [ReadPhase.loads] using hle
      written_le := by
        have hwindow := h.written_le
        simp only [hnext]
        omega
      held := by
        intro k bs hk hbs
        simp only [hnext] at hk
        exact h.held k bs (by omega) hbs
      loaded := nofun
      callback := nofun
      logged := fun k d hd => (h.logged k d hd).grow rfl List.prefix_rfl List.prefix_rfl }

theorem written_le_step (s : ShmState H F) (ev : ShmEvent) :
    s.written.length ≤ (L.step s ev).written.length := by
  cases ev <;> simp only [step] <;> split <;> simp

/-- Every step keeps the invariant as long as the indices do not wrap around. -/
theorem ringInv_step (ev : ShmEvent) (h : L.RingInv s)
    (hfew : (L.step s ev).written.length < 2 ^ 32) : L.RingInv (L.step s ev) := by
  cases ev with
  | store i b =>
      simp only [step] at hfew ⊢
      split_ifs with hroom
      · exact h.store hroom.1 hroom.2 b
      · exact h
  | publish =>
      simp only [step] at hfew ⊢
      split_ifs at hfew ⊢ with hroom
      · exact h.publish hroom (by simpa using hfew)
      · exact h
  | openReader mapped =>
      simp only [step]
      split
      · exact h
      · next hclosed => exact h.openReader hclosed mapped
  | closeReader =>
      simp only [step]
      split
      · next hidle => exact h.closeReader hidle
      · exact h
  | load =>
      simp only [step]
      split
      · next hidle hload => exact h.load hidle hload
      · exact h
  | callback =>
      simp only [step]
      split
      · next hphase hopen => exact h.deliver hphase hopen
      · exact h
  | advance =>
      have hle := written_le_step (L := L) s .advance
      simp only [step]
      split
      · next hphase hopen => exact h.advance hphase hopen (by omega)
      · exact h

theorem ringInv_run (evs : List ShmEvent) (h : L.RingInv s)
    (hfew : (run L.step s evs).written.length < 2 ^ 32) : L.RingInv (run L.step s evs) := by
  induction evs using List.reverseRecOn with
  | nil => exact h
  | append_singleton evs ev ih =>
      rw [run_concat] at hfew ⊢
      have hle := written_le_step (L := L) (run L.step s evs) ev
      exact ringInv_step ev (ih (by omega)) hfew

/-- A frame is stamped with its number plus the number of unread frames its load has
found. -/
theorem RingInv.sequence_eq (h : L.RingInv s) {k : ℕ} (hk : k < s.delivered.length)
    (hk' : k < s.unread.length) :
    (L.sequence s.delivered[k].frame).toNat = k + s.unread[k] := by
  obtain ⟨u, hu, hseq⟩ := (h.logged k _ (List.getElem?_eq_getElem hk)).sequence
  rw [List.getElem?_eq_getElem hk', Option.some.injEq] at hu
  rw [hseq, hu]

/-- The sequence numbers increase by one exactly when the reads are even. -/
theorem RingInv.numbered_iff (h : L.RingInv s) :
    (s.delivered.map (L.sequence ·.frame)).IsChain (fun a b => b.toNat = a.toNat + 1) ↔
      EvenReads s := by
  have hle : s.delivered.length ≤ s.unread.length := by
    have := h.unread_eq
    omega
  have hnext : ∀ k (hk : k + 1 < s.delivered.length) (hk' : k + 1 < s.unread.length),
      (L.sequence s.delivered[k + 1].frame).toNat = (L.sequence s.delivered[k].frame).toNat + 1 ↔
        s.unread[k] = s.unread[k + 1] := by
    intro k hk hk'
    rw [h.sequence_eq hk hk', h.sequence_eq (k := k) (by omega) (by omega)]
    omega
  rw [EvenReads, List.isChain_iff_getElem, List.isChain_iff_getElem]
  simp only [List.length_map, List.length_take, List.getElem_map, List.getElem_take]
  constructor
  · intro hall k hk
    exact (hnext k (by omega) (by omega)).mp (hall k (by omega))
  · intro hall k hk
    exact (hnext k hk (by omega)).mpr (hall k (by omega))

/-- The bytes of the last frame stay in their slot until its callback has ended. -/
theorem RingInv.intact (h : L.RingInv s) (hnear : L.NearSlotsRead s) {frame : F}
    (hphase : s.phase = .callback frame) : ∃ d, s.delivered.getLast? = some d ∧
      d.frame = frame ∧ L.slotBytes s.region (L.slotAddress frame) = d.bytes := by
  obtain ⟨d, hlast, hframe⟩ := h.callback frame hphase
  have hlen : s.delivered.length = s.region.readIndex.toNat + 1 := by
    simpa [hphase, ReadPhase.callbacks] using h.delivered_eq
  have hget : s.delivered[s.region.readIndex.toNat]? = some d := by
    rw [← hlast, List.getLast?_eq_getElem?, hlen, Nat.add_sub_cancel]
  have hslot := hnear s.region.readIndex.toNat (by omega)
  have hd := h.logged _ _ hget
  refine ⟨d, hlast, hframe, ?_⟩
  rw [← hframe, hd.address, Nat.mod_eq_of_lt hslot]
  exact h.held _ _ le_rfl (hd.bytes hslot)

/-- Where the invariant holds, the frames are identified exactly when the reads are even
and stay below 4 GiB. -/
theorem RingInv.framesIdentified_iff (h : L.RingInv s) :
    L.FramesIdentified s ↔ L.NearSlotsRead s ∧ EvenReads s := by
  constructor
  · intro hid
    refine ⟨fun k hk => ?_, h.numbered_iff.mp hid.numbered⟩
    have hget := List.getElem?_eq_getElem hk
    rw [← (hid.written k _ hget).1, (h.logged k _ hget).address]
    exact Nat.mod_lt _ (by decide)
  · rintro ⟨hnear, heven⟩
    refine ⟨?_, fun _ => h.intact hnear, ?_, h.numbered_iff.mpr heven⟩
    · intro k d hd
      have hslot := hnear k (List.getElem?_eq_some_iff.mp hd).1
      have hlogged := h.logged k d hd
      refine ⟨?_, hlogged.bytes hslot⟩
      rw [hlogged.address, Nat.mod_eq_of_lt hslot]
    · intro hidle hopen hready
      have hcached : s.cachedRi = some s.region.readIndex := by
        rcases h.cached with hcached | ⟨hclosed, -⟩
        · exact hcached
        · simp [hclosed] at hopen
      have heq : s.region.writeIndex = s.region.readIndex := by
        simpa [ShmState.pollReady, hcached] using hready
      have hlen : s.delivered.length = s.region.readIndex.toNat := by
        simpa [hidle, ReadPhase.callbacks] using h.delivered_eq
      rw [hlen, ← heq, h.write_eq]

end Steps

/-- In every run with fewer than 2 ^ 32 frames, the frames are identified exactly when
every read finds as many unread frames as the one before it and lies below 4 GiB. -/
theorem framesIdentified_run_iff (header : H) (data : ℕ → UInt8) (evs : List ShmEvent)
    (hfew : (run L.step (.start header data) evs).written.length < 2 ^ 32) :
    L.FramesIdentified (run L.step (.start header data) evs) ↔
      L.NearSlotsRead (run L.step (.start header data) evs) ∧
        EvenReads (run L.step (.start header data) evs) :=
  (ringInv_run evs (L.ringInv_start header data) hfew).framesIdentified_iff

end ShmLayout

def smallAudioRing : AudioShmHeader := ⟨audioShmMagic, audioShmVersion, 4, 1, 44100, 1, 8, 1⟩

def smallCameraRing : CameraShmHeader := ⟨cameraShmMagic, cameraShmVersion, 4, 1, 1, 1, 30, 1⟩

def blank : ℕ → UInt8 := fun _ => 0

def publishFrame (b : UInt8) : List ShmEvent := [.store 0 b, .publish]

/-- One call of `readFrame` that gets a frame. -/
def readFrame : List ShmEvent := [.load, .callback, .advance]

theorem framesIdentified_run_iff_alternating :
    let evs := .openReader (.ok 80) :: (publishFrame 7 ++ readFrame ++ publishFrame 8 ++ readFrame)
    (audioLayout.FramesIdentified (run audioLayout.step (.start smallAudioRing blank) evs) ↔
        audioLayout.NearSlotsRead (run audioLayout.step (.start smallAudioRing blank) evs) ∧
          ShmLayout.EvenReads (run audioLayout.step (.start smallAudioRing blank) evs)) ∧
      (cameraLayout.FramesIdentified (run cameraLayout.step (.start smallCameraRing blank) evs) ↔
        cameraLayout.NearSlotsRead (run cameraLayout.step (.start smallCameraRing blank) evs) ∧
          ShmLayout.EvenReads (run cameraLayout.step (.start smallCameraRing blank) evs)) :=
  ⟨audioLayout.framesIdentified_run_iff smallAudioRing blank _ (by decide),
    cameraLayout.framesIdentified_run_iff smallCameraRing blank _ (by decide)⟩

/-- Two frames that are read one right after the other carry the same number. -/
theorem backlog_not_numbered :
    let evs := .openReader (.ok 80) :: (publishFrame 7 ++ publishFrame 8 ++ readFrame ++ readFrame)
    ¬audioLayout.FramesIdentified (run audioLayout.step (.start smallAudioRing blank) evs) ∧
      ¬cameraLayout.FramesIdentified (run cameraLayout.step (.start smallCameraRing blank) evs) := by
  refine ⟨fun h => ?_, fun h => ?_⟩
  · exact absurd h.numbered (by decide)
  · exact absurd h.numbered (by decide)

end Proxy

end Shinigami
