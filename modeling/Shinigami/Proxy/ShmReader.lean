import Mathlib.Data.List.Basic
import Shinigami.Foundations.LittleEndian

/-!
# Frames from shared memory

The readers of `audio_shm_reader.cpp` and `camera_shm_reader.cpp`. A daemon fills
the slots of a ring in a shared region and moves `write_index`; `readFrame` loads
that index, hands out a frame whose data lie in the slot of `read_index`, and
moves `read_index` behind the callback.

Both readers are one function over a `ShmLayout`: the header fields, the texts of
the errors, and what is put into a frame. Pointers into the region are offsets
from the first slot.
-/

namespace Shinigami

namespace Proxy

open LittleEndian

/-- The values of `ProxyError` that the readers return. -/
inductive ShmError
  | notConnected
  | alreadyConnected
  | timeout
  | shmCreateFailed
  | shmSizeMismatch
deriving DecidableEq

/-- The region: the header fields that the daemon writes once, the two indices,
and the bytes behind the header. -/
structure ShmRegion (H : Type*) where
  header : H
  writeIndex : UInt32
  readIndex : UInt32
  data : ℕ → UInt8

/-- What distinguishes the readers. `slotAddress` is where the slot of a frame
begins. -/
structure ShmLayout (H F : Type*) where
  magic : H → UInt32
  version : H → UInt32
  slotCount : H → UInt32
  slotSizeBytes : H → UInt32
  shmMagic : UInt32
  shmVersion : UInt32
  headerSize : ℕ
  device : String
  notOpenText : String
  noFrameText : String
  /-- The frame stamped with an index, for the slot at an offset. -/
  frame : H → UInt32 → ℕ → (ℕ → UInt8) → F
  sequence : F → UInt32
  slotAddress : F → ℕ
  sequence_frame : ∀ h wi base data, sequence (frame h wi base data) = wi
  slotAddress_frame : ∀ h wi base data, slotAddress (frame h wi base data) = base

/-- `len` bytes from an offset on. -/
def bytesAt (data : ℕ → UInt8) (base len : ℕ) : List UInt8 :=
  (List.range len).map fun i => data (base + i)

structure AudioFrame where
  sequence : UInt32
  timestampUs : UInt64
  sampleRate : UInt32
  channels : UInt16
  bitDepth : UInt16
  frameCount : UInt32
  data : ℕ
  dataBytes : ℕ
deriving DecidableEq

/-- The constant fields of the header. -/
structure AudioShmHeader where
  magic : UInt32
  version : UInt32
  slotCount : UInt32
  slotSizeBytes : UInt32
  sampleRate : UInt32
  channels : UInt16
  bitDepth : UInt16
  framesPerSlot : UInt32

def audioShmMagic : UInt32 := 0xA0D10B0F

def audioShmVersion : UInt32 := 1

/-- The frame in `AudioShmReader::readFrame`. -/
def audioFrame (hdr : AudioShmHeader) (wi : UInt32) (base : ℕ) (_ : ℕ → UInt8) :
    AudioFrame where
  sequence := wi
  timestampUs := 0
  sampleRate := hdr.sampleRate
  channels := hdr.channels
  bitDepth := hdr.bitDepth
  frameCount := hdr.framesPerSlot
  data := base
  dataBytes := hdr.framesPerSlot.toNat * hdr.channels.toNat * (hdr.bitDepth.toNat / 8)

def audioLayout : ShmLayout AudioShmHeader AudioFrame where
  magic := AudioShmHeader.magic
  version := AudioShmHeader.version
  slotCount := AudioShmHeader.slotCount
  slotSizeBytes := AudioShmHeader.slotSizeBytes
  shmMagic := audioShmMagic
  shmVersion := audioShmVersion
  headerSize := 76
  device := "audio"
  notOpenText := "SHM reader not open"
  noFrameText := "no frame ready"
  frame := audioFrame
  sequence := AudioFrame.sequence
  slotAddress := AudioFrame.data
  sequence_frame _ _ _ _ := rfl
  slotAddress_frame _ _ _ _ := rfl

structure CameraFrame where
  sequence : UInt32
  timestampUs : UInt64
  width : UInt32
  height : UInt32
  fps : UInt32
  format : UInt8
  data : ℕ
  dataBytes : UInt64
deriving DecidableEq

/-- The constant fields of the header. -/
structure CameraShmHeader where
  magic : UInt32
  version : UInt32
  slotCount : UInt32
  slotSizeBytes : UInt32
  width : UInt32
  height : UInt32
  fps : UInt32
  format : UInt8

def cameraShmMagic : UInt32 := 0xCA10F1A0

def cameraShmVersion : UInt32 := 1

/-- `CameraFrame::Format::YUYV`. -/
def formatYuyv : UInt8 := 0

/-- `CameraFrame::Format::RGB24`. -/
def formatRgb24 : UInt8 := 2

/-- The frame in `CameraShmReader::readFrame`. In every other format the slot
begins with the length of the data. -/
def cameraFrame (hdr : CameraShmHeader) (wi : UInt32) (base : ℕ) (data : ℕ → UInt8) :
    CameraFrame :=
  let frame : CameraFrame :=
    { sequence := wi
      timestampUs := 0
      width := hdr.width
      height := hdr.height
      fps := hdr.fps
      format := hdr.format
      data := base
      dataBytes := 0 }
  if hdr.format = formatYuyv then
    { frame with dataBytes := hdr.width.toUInt64 * hdr.height.toUInt64 * 2 }
  else if hdr.format = formatRgb24 then
    { frame with dataBytes := hdr.width.toUInt64 * hdr.height.toUInt64 * 3 }
  else
    { frame with
      data := base + 4
      dataBytes := UInt64.ofNat (leNat (bytesAt data base 4)) }

def cameraLayout : ShmLayout CameraShmHeader CameraFrame where
  magic := CameraShmHeader.magic
  version := CameraShmHeader.version
  slotCount := CameraShmHeader.slotCount
  slotSizeBytes := CameraShmHeader.slotSizeBytes
  shmMagic := cameraShmMagic
  shmVersion := cameraShmVersion
  headerSize := 76
  device := "camera"
  notOpenText := ""
  noFrameText := ""
  frame := cameraFrame
  sequence := CameraFrame.sequence
  slotAddress frame :=
    if frame.format = formatYuyv then frame.data
    else if frame.format = formatRgb24 then frame.data
    else frame.data - 4
  sequence_frame hdr wi base data := by
    simp only [cameraFrame]
    split_ifs <;> rfl
  slotAddress_frame hdr wi base data := by
    simp only [cameraFrame]
    split_ifs <;> simp_all

/-- Where the one thread that reads stands: outside `readFrame`, behind its load of
`write_index`, or in the callback. -/
inductive ReadPhase (F : Type*)
  | idle
  | loaded (wi : UInt32)
  | callback (frame : F)

/-- A frame as the callback gets it, with the bytes of the slot it points to. -/
structure Delivery (F : Type*) where
  frame : F
  bytes : List UInt8
deriving DecidableEq

/-- The region, the reader with its `cached_ri_` once it is open, and three logs that are
not part of the program: the frames written, the frames delivered, and how many
unread frames each load has found. -/
structure ShmState (H F : Type*) where
  region : ShmRegion H
  cachedRi : Option UInt32
  phase : ReadPhase F
  written : List (List UInt8)
  delivered : List (Delivery F)
  unread : List ℕ

/-- A fresh region, and a reader that is not open. -/
def ShmState.start {H F : Type*} (header : H) (data : ℕ → UInt8) : ShmState H F :=
  ⟨⟨header, 0, 0, data⟩, none, .idle, [], [], []⟩

/-- `pollReady`. -/
def ShmState.pollReady {H F : Type*} (s : ShmState H F) : Bool :=
  match s.cachedRi with
  | none => false
  | some ri => s.region.writeIndex != ri

inductive ShmEvent
  | store (i : ℕ) (b : UInt8)
  | publish
  | openReader (mapped : Except (ShmError × String) ℕ)
  | closeReader
  | load
  | callback
  | advance

namespace ShmLayout

variable {H F : Type*} (L : ShmLayout H F)

/-- `open`: the value of `cached_ri_`. The region is mapped with its size, or the
mapping fails. -/
def openReader (region : ShmRegion H) (mapped : Except (ShmError × String) ℕ) :
    Except (ShmError × String) UInt32 :=
  match mapped with
  | .error e => .error e
  | .ok size =>
      let required := L.headerSize +
        (L.slotCount region.header).toNat * (L.slotSizeBytes region.header).toNat
      if L.magic region.header ≠ L.shmMagic then
        .error (.shmSizeMismatch, "bad " ++ L.device ++ " SHM magic")
      else if L.version region.header ≠ L.shmVersion then
        .error (.shmSizeMismatch, L.device ++ " SHM version mismatch")
      else if size < required then
        .error (.shmSizeMismatch, L.device ++ " SHM too small")
      else .ok region.readIndex

/-- `readFrame` up to the load of `write_index`. -/
def readBegin (region : ShmRegion H) (cachedRi : Option UInt32) :
    Except (ShmError × String) UInt32 :=
  match cachedRi with
  | none => .error (.notConnected, L.notOpenText)
  | some ri =>
      let wi := region.writeIndex
      if wi = ri then .error (.timeout, L.noFrameText) else .ok wi

/-- Where `readFrame` takes the slot of `ri` to begin; the product has 32 bits. -/
def slotOffset (header : H) (ri : UInt32) : ℕ :=
  (ri % L.slotCount header * L.slotSizeBytes header).toNat

/-- Where slot `k` begins. -/
def slotStart (header : H) (k : ℕ) : ℕ :=
  k % (L.slotCount header).toNat * (L.slotSizeBytes header).toNat

def slotBytes (region : ShmRegion H) (base : ℕ) : List UInt8 :=
  bytesAt region.data base (L.slotSizeBytes region.header).toNat

/-- The ring is not full, as its daemon sees it. -/
def Room (region : ShmRegion H) : Prop :=
  (region.writeIndex - region.readIndex).toNat < (L.slotCount region.header).toNat

instance (region : ShmRegion H) : Decidable (L.Room region) :=
  inferInstanceAs (Decidable (_ < _))

/-- One step of the daemon or of the reading thread. The daemon fills the slot of
`write_index` byte by byte while there is room, and publishes it; an open reader
refuses another `open`. -/
def step (s : ShmState H F) : ShmEvent → ShmState H F
  | .store i b =>
      if L.Room s.region ∧ i < (L.slotSizeBytes s.region.header).toNat then
        let at' := L.slotStart s.region.header s.region.writeIndex.toNat + i
        { s with region.data := Function.update s.region.data at' b }
      else s
  | .publish =>
      if L.Room s.region then
        let base := L.slotStart s.region.header s.region.writeIndex.toNat
        { s with
          region.writeIndex := s.region.writeIndex + 1
          written := s.written ++ [L.slotBytes s.region base] }
      else s
  | .openReader mapped =>
      match s.cachedRi with
      | some _ => s
      | none => { s with cachedRi := (L.openReader s.region mapped).toOption }
  | .closeReader =>
      match s.phase with
      | .idle => { s with cachedRi := none }
      | _ => s
  | .load =>
      match s.phase, L.readBegin s.region s.cachedRi with
      | .idle, .ok wi =>
          { s with
            phase := .loaded wi
            unread := s.unread ++ [(wi - s.region.readIndex).toNat] }
      | _, _ => s
  | .callback =>
      match s.phase, s.cachedRi with
      | .loaded wi, some ri =>
          let base := L.slotOffset s.region.header ri
          let frame := L.frame s.region.header wi base s.region.data
          { s with
            phase := .callback frame
            delivered := s.delivered ++ [⟨frame, L.slotBytes s.region base⟩] }
      | _, _ => s
  | .advance =>
      match s.phase, s.cachedRi with
      | .callback _, some ri =>
          { s with
            phase := .idle
            cachedRi := some (ri + 1)
            region.readIndex := ri + 1 }
      | _, _ => s

end ShmLayout

end Proxy

end Shinigami
