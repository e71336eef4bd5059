import Mathlib.Algebra.Order.Ring.Nat
import Shinigami.Foundations.Run
import Shinigami.Proxy.ShmReader

/-!
# Frames inside their slots

`open` compares the size of the segment with the declared slots. The length of a frame comes
from other fields of the header, or from the slot itself, and `readFrame` compares it with
nothing; it takes a remainder by `slot_count`, and multiplies in 32 bits
(`readsInside_iff`). The header stays as it is, but for the indices, and the daemon may
write anything into the slots between two calls.
-/

namespace Shinigami

namespace Proxy

open LittleEndian

/-- What a call of `readFrame` finds in the region. -/
structure ReadCall where
  writeIndex : UInt32
  data : ℕ → UInt8

/-- The data of a frame, and what `readFrame` itself reads of a slot at an offset. -/
structure FrameExtent (H F : Type*) where
  data : F → ℕ
  dataBytes : F → ℕ
  reads : H → ℕ → List (ℕ × ℕ)

def audioExtent : FrameExtent AudioShmHeader AudioFrame where
  data := AudioFrame.data
  dataBytes := AudioFrame.dataBytes
  reads _ _ := []

def cameraExtent : FrameExtent CameraShmHeader CameraFrame where
  data := CameraFrame.data
  dataBytes frame := frame.dataBytes.toNat
  reads hdr base :=
    if hdr.format = formatYuyv then [] else if hdr.format = formatRgb24 then [] else [(base, 4)]

namespace ShmLayout

variable {H F : Type*} (L : ShmLayout H F)

/-- A call of `readFrame`: what becomes of `cached_ri_`. -/
def readFrame (ri : UInt32) (call : ReadCall) : UInt32 :=
  if call.writeIndex = ri then ri else ri + 1

/-- A call that finds a frame divides by no zero, reads in the segment only, and hands out
data inside the slot of the frame. -/
structure CallInside (X : FrameExtent H F) (size : ℕ) (header : H) (ri : UInt32)
    (call : ReadCall) : Prop where
  divides : L.slotCount header ≠ 0
  reads : ∀ r ∈ X.reads header (L.slotOffset header ri), L.headerSize + (r.1 + r.2) ≤ size
  begins : L.slotStart header ri.toNat ≤
    X.data (L.frame header call.writeIndex (L.slotOffset header ri) call.data)
  ends : X.data (L.frame header call.writeIndex (L.slotOffset header ri) call.data) +
      X.dataBytes (L.frame header call.writeIndex (L.slotOffset header ri) call.data) ≤
    L.slotStart header ri.toNat + (L.slotSizeBytes header).toNat

/-- All calls of a run that find a frame stay inside. -/
def ReadsInside (X : FrameExtent H F) (size : ℕ) (header : H) (ri : UInt32)
    (calls : List ReadCall) : Prop :=
  Guarded readFrame
    (fun ri call => call.writeIndex ≠ ri → L.CallInside X size header ri call) ri calls

/-- All calls of a run that find a frame find a slot whose offset does not wrap and which the
frame fits. -/
def FramesFit (frameSize : H → (ℕ → UInt8) → ℕ → ℕ) (header : H) (ri : UInt32)
    (calls : List ReadCall) : Prop :=
  Guarded readFrame
    (fun ri call => call.writeIndex ≠ ri →
      L.slotCount header ≠ 0 ∧ L.slotStart header ri.toNat < 2 ^ 32 ∧
        frameSize header call.data (L.slotStart header ri.toNat) ≤
          (L.slotSizeBytes header).toNat) ri calls

end ShmLayout

/-- The bytes of an audio frame. -/
def audioFrameSize (hdr : AudioShmHeader) (_ : ℕ → UInt8) (_ : ℕ) : ℕ :=
  hdr.framesPerSlot.toNat * hdr.channels.toNat * (hdr.bitDepth.toNat / 8)

/-- The bytes of a camera frame, with the length in front of a compressed one. -/
def cameraFrameSize (hdr : CameraShmHeader) (data : ℕ → UInt8) (base : ℕ) : ℕ :=
  if hdr.format = formatYuyv then hdr.width.toNat * hdr.height.toNat * 2 % 2 ^ 64
  else if hdr.format = formatRgb24 then hdr.width.toNat * hdr.height.toNat * 3 % 2 ^ 64
  else 4 + leNat (bytesAt data base 4)

section Call

variable {H F : Type*} {L : ShmLayout H F} {header : H}

theorem ShmLayout.slotOffset_eq_mod (L : ShmLayout H F) (header : H) (ri : UInt32) :
    L.slotOffset header ri = L.slotStart header ri.toNat % 2 ^ 32 := by
  rw [slotOffset, slotStart, UInt32.toNat_mul, UInt32.toNat_mod]

theorem ShmLayout.slot_le_size {region : ShmRegion H} {size : ℕ} {ri₀ : UInt32}
    (hopen : L.openReader region (.ok size) = .ok ri₀)
    (hcount : L.slotCount region.header ≠ 0) (k : ℕ) :
    L.headerSize + (L.slotStart region.header k + (L.slotSizeBytes region.header).toNat) ≤
      size := by
  have hsize : L.headerSize +
      (L.slotCount region.header).toNat * (L.slotSizeBytes region.header).toNat ≤ size := by
    unfold openReader at hopen
    dsimp only at hopen
    split_ifs at hopen with hmagic hversion hsmall
    exact Nat.not_lt.mp hsmall
  have hpos : 0 < (L.slotCount region.header).toNat :=
    Nat.pos_of_ne_zero fun hzero => hcount (UInt32.toNat_inj.mp hzero)
  have hslot := Nat.mul_le_mul_right (L.slotSizeBytes region.header).toNat
    (Nat.succ_le_of_lt (Nat.mod_lt k hpos))
  rw [Nat.succ_mul] at hslot
  unfold slotStart
  omega

/-- A frame ends `frameSize` behind the offset of its slot, and begins near it. -/
structure FrameExtent.Spans (X : FrameExtent H F) (L : ShmLayout H F)
    (frameSize : H → (ℕ → UInt8) → ℕ → ℕ) : Prop where
  begins : ∀ h wi base data, base ≤ X.data (L.frame h wi base data) ∧
    X.data (L.frame h wi base data) ≤ base + 4
  ends : ∀ h wi base data, X.data (L.frame h wi base data) +
    X.dataBytes (L.frame h wi base data) = base + frameSize h data base
  reads : ∀ h base data, ∀ r ∈ X.reads h base, r.1 = base ∧ r.2 ≤ frameSize h data base

/-- A call stays inside exactly when the offset of its slot does not wrap and the slot holds
the frame. -/
theorem ShmLayout.callInside_iff {X : FrameExtent H F} {frameSize : H → (ℕ → UInt8) → ℕ → ℕ}
    (hspans : X.Spans L frameSize) {region : ShmRegion H} {size : ℕ} {ri₀ : UInt32}
    (hopen : L.openReader region (.ok size) = .ok ri₀) (ri : UInt32) (call : ReadCall) :
    L.CallInside X size region.header ri call ↔
      L.slotCount region.header ≠ 0 ∧ L.slotStart region.header ri.toNat < 2 ^ 32 ∧
        frameSize region.header call.data (L.slotStart region.header ri.toNat) ≤
          (L.slotSizeBytes region.header).toNat := by
  constructor
  · rintro ⟨hdivides, -, hbegins, hends⟩
    have hoffset := L.slotOffset_eq_mod region.header ri
    have hnear := hspans.begins region.header call.writeIndex (L.slotOffset region.header ri)
      call.data
    have hsmall : L.slotStart region.header ri.toNat < 2 ^ 32 := by omega
    have hsame : L.slotOffset region.header ri = L.slotStart region.header ri.toNat := by
      rw [hoffset, Nat.mod_eq_of_lt hsmall]
    rw [hspans.ends, hsame] at hends
    exact ⟨hdivides, hsmall, Nat.le_of_add_le_add_left hends⟩
  · rintro ⟨hdivides, hsmall, hfits⟩
    have hsame : L.slotOffset region.header ri = L.slotStart region.header ri.toNat := by
      rw [L.slotOffset_eq_mod region.header ri, Nat.mod_eq_of_lt hsmall]
    refine ⟨hdivides, fun r hr => ?_, ?_, ?_⟩
    · rw [hsame] at hr
      obtain ⟨hbase, hlen⟩ := hspans.reads region.header _ call.data r hr
      have hslot := ShmLayout.slot_le_size hopen hdivides ri.toNat
      omega
    · rw [hsame]
      exact (hspans.begins region.header call.writeIndex _ call.data).1
    · rw [hspans.ends, hsame]
      exact Nat.add_le_add_left hfits _

theorem ShmLayout.readsInside_iff_framesFit {X : FrameExtent H F}
    {frameSize : H → (ℕ → UInt8) → ℕ → ℕ} (hspans : X.Spans L frameSize)
    {region : ShmRegion H} {size : ℕ} {ri₀ : UInt32}
    (hopen : L.openReader region (.ok size) = .ok ri₀) (calls : List ReadCall) :
    L.ReadsInside X size region.header ri₀ calls ↔
      L.FramesFit frameSize region.header ri₀ calls :=
  guarded_congr (I := fun _ => True) (P := fun _ => True) (fun _ _ _ _ => trivial)
    (fun ri call _ _ => imp_congr_right fun _ => L.callInside_iff hspans hopen ri call) trivial
    fun _ _ => trivial

end Call

theorem audioExtent_spans : audioExtent.Spans audioLayout audioFrameSize where
  begins _ _ base _ := ⟨le_rfl, Nat.le_add_right base 4⟩
  ends _ _ _ _ := rfl
  reads _ _ _ := List.forall_mem_nil _

theorem toNat_dimensions (width height : UInt32) (k : UInt64) :
    (width.toUInt64 * height.toUInt64 * k).toNat =
      width.toNat * height.toNat * k.toNat % 2 ^ 64 := by
  rw [UInt64.toNat_mul, UInt64.toNat_mul, UInt32.toNat_toUInt64, UInt32.toNat_toUInt64,
    Nat.mod_mul_mod]

theorem leNat_bytesAt_lt (data : ℕ → UInt8) (base : ℕ) :
    leNat (bytesAt data base 4) < 2 ^ 64 := by
  have hlen : (bytesAt data base 4).length = 4 := by
    rw [bytesAt, List.length_map, List.length_range]
  have hlt := leNat_lt (bytesAt data base 4)
  rw [hlen] at hlt
  exact hlt.trans (by decide)

theorem cameraExtent_spans : cameraExtent.Spans cameraLayout cameraFrameSize where
  begins hdr wi base data := by
    simp only [cameraExtent, cameraLayout, cameraFrame]
    split_ifs
    · exact ⟨le_rfl, Nat.le_add_right base 4⟩
    · exact ⟨le_rfl, Nat.le_add_right base 4⟩
    · exact ⟨Nat.le_add_right base 4, le_rfl⟩
  ends hdr wi base data := by
    have hlen : (UInt64.ofNat (leNat (bytesAt data base 4))).toNat =
        leNat (bytesAt data base 4) :=
      UInt64.toNat_ofNat_of_lt' (leNat_bytesAt_lt data base)
    simp only [cameraExtent, cameraLayout, cameraFrame, cameraFrameSize]
    split_ifs
    · rw [toNat_dimensions]
      rfl
    · rw [toNat_dimensions]
      rfl
    · rw [hlen, Nat.add_assoc]
  reads hdr base data := by
    simp only [cameraExtent, cameraFrameSize]
    split_ifs
    · exact List.forall_mem_nil _
    · exact List.forall_mem_nil _
    · exact List.forall_mem_singleton.mpr ⟨rfl, Nat.le_add_right 4 _⟩

/-- After a successful `open`, the calls of both readers stay inside exactly when there are
slots, their offsets fit into 32 bits and the frames fit into the slots. -/
theorem readsInside_iff (size : ℕ) (ri : UInt32) (calls : List ReadCall) :
    (∀ region : ShmRegion AudioShmHeader, audioLayout.openReader region (.ok size) = .ok ri →
      (audioLayout.ReadsInside audioExtent size region.header ri calls ↔
        audioLayout.FramesFit audioFrameSize region.header ri calls)) ∧
      ∀ region : ShmRegion CameraShmHeader, cameraLayout.openReader region (.ok size) = .ok ri →
        (cameraLayout.ReadsInside cameraExtent size region.header ri calls ↔
          cameraLayout.FramesFit cameraFrameSize region.header ri calls) :=
  ⟨fun _ hopen => ShmLayout.readsInside_iff_framesFit audioExtent_spans hopen calls,
    fun _ hopen => ShmLayout.readsInside_iff_framesFit cameraExtent_spans hopen calls⟩

/-- A stereo ring of one slot of 16 bytes, and a camera that sends compressed frames. -/
def stereoRing : ShmRegion AudioShmHeader :=
  ⟨⟨audioShmMagic, audioShmVersion, 1, 16, 48000, 2, 16, 4⟩, 1, 0, fun _ => 0⟩

def compressedRing : ShmRegion CameraShmHeader :=
  ⟨⟨cameraShmMagic, cameraShmVersion, 1, 16, 2, 2, 30, 1⟩, 1, 0, fun _ => 0⟩

theorem readsInside_stereo_compressed :
    (audioLayout.ReadsInside audioExtent 92 stereoRing.header 0 [⟨1, fun _ => 0⟩] ↔
      audioLayout.FramesFit audioFrameSize stereoRing.header 0 [⟨1, fun _ => 0⟩]) ∧
      (cameraLayout.ReadsInside cameraExtent 92 compressedRing.header 0 [⟨1, fun _ => 0⟩] ↔
        cameraLayout.FramesFit cameraFrameSize compressedRing.header 0 [⟨1, fun _ => 0⟩]) :=
  ⟨(readsInside_iff 92 0 [⟨1, fun _ => 0⟩]).1 stereoRing rfl,
    (readsInside_iff 92 0 [⟨1, fun _ => 0⟩]).2 compressedRing rfl⟩

/-- A header with a slot of 4 bytes and frames of 16. -/
theorem not_readsInside_narrow :
    ¬∀ (region : ShmRegion AudioShmHeader) (size : ℕ) (ri : UInt32) (calls : List ReadCall),
      audioLayout.openReader region (.ok size) = .ok ri →
        audioLayout.ReadsInside audioExtent size region.header ri calls := by
  intro hlaw
  have hcall := (hlaw ⟨⟨audioShmMagic, audioShmVersion, 1, 4, 48000, 2, 16, 4⟩, 1, 0, fun _ => 0⟩
    80 0 [⟨1, fun _ => 0⟩] rfl).1 (by decide)
  exact absurd hcall.ends (by decide)

end Proxy

end Shinigami
