import Mathlib.Algebra.Order.Ring.Nat
import Mathlib.Tactic.Linarith
import Shinigami.Foundations.Run
import Shinigami.Hal.DeviceOps

/-!
# Reading and writing samples

`audio_read` and `audio_write` give ALSA a number of frames, the size of the buffer divided by
the bytes of a frame. These are counted by the HAL format, packed and in 32 bits, and ALSA
stores a sample of `S24_LE` in 4 bytes (`transfersFit_iff`).
-/

namespace Shinigami

namespace Hal

/-- `AUDIO_DIRECTION_PLAYBACK`. -/
def audioDirectionPlayback : UInt32 := 0

/-- `AUDIO_DIRECTION_CAPTURE`. -/
def audioDirectionCapture : UInt32 := 1

def audioFormatS16Le : UInt32 := 0

def audioFormatS24Le : UInt32 := 1

def audioFormatS32Le : UInt32 := 2

def audioFormatFloat : UInt32 := 3

/-- `audio_config_t`; an enumeration may hold any value. -/
structure AudioConfig where
  direction : UInt32
  sampleRate : UInt32
  channels : UInt32
  format : UInt32
  periodSize : UInt32
  bufferSize : UInt32
deriving DecidableEq

inductive SndPcmFormat
  | s16Le
  | s24Le
  | s32Le
  | floatLe
deriving DecidableEq

def SndPcmFormat.physicalBytes : SndPcmFormat → ℕ
  | .s16Le => 2
  | .s24Le => 4
  | .s32Le => 4
  | .floatLe => 4

/-- `alsa_format_from_hal`. -/
def alsaFormatFromHal (format : UInt32) : SndPcmFormat :=
  if format = audioFormatS16Le then .s16Le
  else if format = audioFormatS24Le then .s24Le
  else if format = audioFormatS32Le then .s32Le
  else if format = audioFormatFloat then .floatLe
  else .s16Le

def bytesPerSample (format : UInt32) : UInt32 :=
  if format = audioFormatS16Le then 2
  else if format = audioFormatS24Le then 3
  else if format = audioFormatS32Le then 4
  else if format = audioFormatFloat then 4
  else 2

/-- `audio_hal_bytes_per_frame`. -/
def audioHalBytesPerFrame (format channels : UInt32) : UInt32 := bytesPerSample format * channels

/-- An audio device: the configuration, `bytes_per_frame`, and what the vtable of the stream
works on. -/
structure AudioDevice where
  config : AudioConfig
  bytesPerFrame : UInt32
  hal : HalDevice AudioPriv

/-- `audio_hal_create`, with the outcomes of its allocations. -/
def audioHalCreate (config : AudioConfig) (mallocOk initOk callocOk : Bool) :
    Option AudioDevice :=
  if !mallocOk || !initOk || !callocOk then none
  else
    some
      { config := config
        bytesPerFrame := audioHalBytesPerFrame config.format config.channels
        hal := .create ⟨none, config.sampleRate⟩ }

/-- The calls that change an audio device. -/
inductive AudioEvent
  | opens (o : AudioOutcome)
  | closes
  | starts
  | stops

/-- The device after the vtable has worked on it; `open` may change the rate. -/
def AudioDevice.withHal (d : AudioDevice) (hal : HalDevice AudioPriv) : AudioDevice :=
  { d with
    hal := hal
    config := { d.config with sampleRate := hal.priv.sampleRate } }

def AudioDevice.step (d : AudioDevice) : AudioEvent → AudioDevice
  | .opens o => d.withHal (audioOpen d.hal o).1
  | .closes => d.withHal (audioClose d.hal).1
  | .starts => d.withHal (audioStart d.hal).1
  | .stops => d.withHal (audioStop d.hal).1

inductive AlsaCall
  | refused (e : HalError)
  | dividesByZero
  | transfers (frames : UInt64)
deriving DecidableEq

/-- The body of `audio_read` and `audio_write`, for a stream in the given direction. -/
def AudioDevice.transfer (d : AudioDevice) (direction : UInt32) (size : UInt64) : AlsaCall :=
  if d.hal.state ≠ .active then .refused .invalid
  else if d.config.direction ≠ direction then .refused .notSupport
  else if d.bytesPerFrame = 0 then .dividesByZero
  else .transfers (size / d.bytesPerFrame.toUInt64)

def audioRead (d : AudioDevice) (bufferSize : UInt64) : AlsaCall :=
  d.transfer audioDirectionCapture bufferSize

def audioWrite (d : AudioDevice) (dataSize : UInt64) : AlsaCall :=
  d.transfer audioDirectionPlayback dataSize

/-- The frames are counted, and in the format of the stream they fit into the buffer. -/
def AlsaCall.Fits (config : AudioConfig) (size : UInt64) : AlsaCall → Prop
  | .refused _ => True
  | .dividesByZero => False
  | .transfers frames =>
      frames.toNat * ((alsaFormatFromHal config.format).physicalBytes * config.channels.toNat) ≤
        size.toNat

/-- Both transfers fit, as far as they come to ALSA. -/
def AudioDevice.TransfersFit (d : AudioDevice) (size : UInt64) : Prop :=
  (audioRead d size).Fits d.config size ∧ (audioWrite d size).Fits d.config size

/-- One of the transfers comes to ALSA. -/
def AudioDevice.CallsAlsa (d : AudioDevice) : Prop :=
  d.hal.state = .active ∧
    (d.config.direction = audioDirectionCapture ∨ d.config.direction = audioDirectionPlayback)

/-- The bytes of a frame are counted right, or their error does not matter: in `S24_LE` for
the buffers that hold few frames, and behind a wrap of the product for those that hold no
frame of the count. -/
def FrameCountFits (config : AudioConfig) (size : ℕ) : Prop :=
  let c := config.channels.toNat
  let total := (bytesPerSample config.format).toNat * c
  audioHalBytesPerFrame config.format config.channels ≠ 0 ∧
    if total < 2 ^ 32 then
      config.format ≠ audioFormatS24Le ∨
        size < 3 * c ∨ (4 * c ≤ size ∧ size < 6 * c) ∨ (8 * c ≤ size ∧ size < 9 * c)
    else size < total % 2 ^ 32

theorem div_three_mul_four_le_iff {c s : ℕ} (hc : 0 < c) :
    s / (3 * c) * (4 * c) ≤ s ↔
      s < 3 * c ∨ (4 * c ≤ s ∧ s < 6 * c) ∨ (8 * c ≤ s ∧ s < 9 * c) := by
  have hlow := Nat.div_mul_le_self s (3 * c)
  have hhigh := Nat.lt_div_mul_add (a := s) (show 0 < 3 * c by omega)
  generalize s / (3 * c) = k at hlow hhigh ⊢
  have hthree : k * (3 * c) = 3 * (k * c) := Nat.mul_left_comm k 3 c
  have hfour : k * (4 * c) = 4 * (k * c) := Nat.mul_left_comm k 4 c
  rw [hthree] at hlow hhigh
  rw [hfour]
  rcases Nat.lt_or_ge k 3 with hsmall | hlarge
  · obtain rfl | rfl | rfl : k = 0 ∨ k = 1 ∨ k = 2 := by omega
    · omega
    · omega
    · omega
  · -- from three frames on, ALSA needs the room of a fourth
    have hmany := Nat.mul_le_mul_right c hlarge
    omega

theorem div_mod_mul_le_iff {total stored s : ℕ} (hwrap : 2 ^ 32 ≤ total) (hle : total ≤ stored)
    (hzero : total % 2 ^ 32 ≠ 0) :
    s / (total % 2 ^ 32) * stored ≤ s ↔ s < total % 2 ^ 32 := by
  have hlow := Nat.div_mul_le_self s (total % 2 ^ 32)
  have hhigh := Nat.lt_div_mul_add (a := s) (Nat.pos_of_ne_zero hzero)
  constructor
  · intro hfits
    by_contra hbig
    have hone : 1 ≤ s / (total % 2 ^ 32) :=
      (Nat.one_le_div_iff (Nat.pos_of_ne_zero hzero)).mpr (Nat.not_lt.mp hbig)
    have hstored : total % 2 ^ 32 + 2 ^ 32 ≤ stored := by omega
    have hmany := Nat.mul_le_mul_left (s / (total % 2 ^ 32)) hstored
    rw [Nat.mul_add] at hmany
    omega
  · intro hsmall
    rw [Nat.div_eq_of_lt hsmall, Nat.zero_mul]
    exact Nat.zero_le s

theorem toNat_bytesPerSample_le (format : UInt32) :
    (bytesPerSample format).toNat ≤ (alsaFormatFromHal format).physicalBytes := by
  unfold bytesPerSample alsaFormatFromHal
  split_ifs <;> decide

theorem toNat_bytesPerSample {format : UInt32} (hformat : format ≠ audioFormatS24Le) :
    (bytesPerSample format).toNat = (alsaFormatFromHal format).physicalBytes := by
  unfold bytesPerSample alsaFormatFromHal
  rw [if_neg hformat, if_neg hformat]
  split_ifs <;> rfl

/-- The frames that are counted fit exactly when the count is right or its error does not
matter. -/
theorem transfers_fits_iff (config : AudioConfig) (size : UInt64)
    (hcount : audioHalBytesPerFrame config.format config.channels ≠ 0) :
    AlsaCall.Fits config size (.transfers
        (size / (audioHalBytesPerFrame config.format config.channels).toUInt64)) ↔
      FrameCountFits config size.toNat := by
  have htotal : (audioHalBytesPerFrame config.format config.channels).toNat =
      (bytesPerSample config.format).toNat * config.channels.toNat % 2 ^ 32 :=
    UInt32.toNat_mul _ _
  have hzero : (bytesPerSample config.format).toNat * config.channels.toNat % 2 ^ 32 ≠ 0 := by
    rw [← htotal]
    exact fun hnone => hcount (UInt32.toNat_inj.mp hnone)
  have hle := Nat.mul_le_mul_right config.channels.toNat (toNat_bytesPerSample_le config.format)
  rw [AlsaCall.Fits, FrameCountFits, and_iff_right hcount, UInt64.toNat_div,
    UInt32.toNat_toUInt64, htotal]
  split_ifs with hsmall
  · rw [Nat.mod_eq_of_lt hsmall] at hzero ⊢
    by_cases hformat : config.format = audioFormatS24Le
    · have hchannels : 0 < config.channels.toNat :=
        Nat.pos_of_ne_zero fun hnone => hzero (by rw [hnone, Nat.mul_zero])
      have hthree : (bytesPerSample audioFormatS24Le).toNat = 3 := by decide
      have hfour : (alsaFormatFromHal audioFormatS24Le).physicalBytes = 4 := by decide
      rw [hformat, hthree, hfour, div_three_mul_four_le_iff hchannels]
      exact (or_iff_right fun hne => hne rfl).symm
    · refine iff_of_true ?_ (.inl hformat)
      rw [← toNat_bytesPerSample hformat]
      exact Nat.div_mul_le_self _ _
  · exact div_mod_mul_le_iff (Nat.not_lt.mp hsmall) hle hzero

structure AudioDevice.Counts (config : AudioConfig) (d : AudioDevice) : Prop where
  direction : d.config.direction = config.direction
  format : d.config.format = config.format
  channels : d.config.channels = config.channels
  bytesPerFrame : d.bytesPerFrame = audioHalBytesPerFrame config.format config.channels

theorem AudioDevice.Counts.step {config : AudioConfig} {d : AudioDevice} (h : d.Counts config)
    (ev : AudioEvent) : (d.step ev).Counts config := by
  cases ev <;> exact ⟨h.direction, h.format, h.channels, h.bytesPerFrame⟩

theorem fits_transfer_iff {config : AudioConfig} {d : AudioDevice} (h : d.Counts config)
    (hactive : d.hal.state = .active) (direction : UInt32) (size : UInt64) :
    (d.transfer direction size).Fits d.config size ↔
      (d.config.direction = direction → FrameCountFits config size.toNat) := by
  unfold AudioDevice.transfer
  rw [if_neg (not_not.mpr hactive)]
  by_cases hdirection : d.config.direction = direction
  · rw [if_neg (not_not.mpr hdirection), imp_iff_right hdirection, h.bytesPerFrame]
    split_ifs with hcount
    · exact iff_of_false id fun hfits => hfits.1 hcount
    · rw [← transfers_fits_iff config size hcount, AlsaCall.Fits, AlsaCall.Fits, h.format,
        h.channels]
  · rw [if_pos hdirection]
    exact iff_of_true trivial fun heq => absurd heq hdirection

/-- In every state of a device, a transfer that comes to ALSA fits exactly when the frames of
its configuration are counted right or the error does not matter. -/
theorem transfersFit_iff {config : AudioConfig} {mallocOk initOk callocOk : Bool}
    {d₀ : AudioDevice} (hcreate : audioHalCreate config mallocOk initOk callocOk = some d₀)
    (evs : List AudioEvent) (size : UInt64)
    (hcalls : (run AudioDevice.step d₀ evs).CallsAlsa) :
    (run AudioDevice.step d₀ evs).TransfersFit size ↔ FrameCountFits config size.toNat := by
  have hcreated : d₀.Counts config := by
    unfold audioHalCreate at hcreate
    split_ifs at hcreate
    cases hcreate
    exact ⟨rfl, rfl, rfl, rfl⟩
  have hcounts : (run AudioDevice.step d₀ evs).Counts config :=
    run_invariant (P := fun _ => True) (fun _ ev _ h => h.step ev) hcreated fun _ _ => trivial
  generalize run AudioDevice.step d₀ evs = d at hcalls hcounts ⊢
  obtain ⟨hactive, hdirection⟩ := hcalls
  rw [AudioDevice.TransfersFit, audioRead, audioWrite, fits_transfer_iff hcounts hactive,
    fits_transfer_iff hcounts hactive]
  constructor
  · rintro ⟨hread, hwrite⟩
    exact hdirection.elim hread hwrite
  · exact fun hfits => ⟨fun _ => hfits, fun _ => hfits⟩

/-- A stereo microphone. -/
def microphone : AudioConfig := ⟨audioDirectionCapture, 48000, 2, audioFormatS16Le, 1024, 4096⟩

/-- An `open` in which every call succeeds. -/
def openedAudio : AudioOutcome :=
  ⟨true, true, true, true, true, true, some 48000, true, true, true, true⟩

theorem transfersFit_microphone :
    (run AudioDevice.step
        ⟨microphone, audioHalBytesPerFrame audioFormatS16Le 2, .create ⟨none, 48000⟩⟩
        [.opens openedAudio, .starts]).TransfersFit 4096 ↔
      FrameCountFits microphone (4096 : UInt64).toNat :=
  transfersFit_iff (by rfl : audioHalCreate microphone true true true = some _)
    [.opens openedAudio, .starts] 4096 ⟨rfl, .inl rfl⟩

/-- A stereo microphone with samples of 24 bits fills 8 bytes for every 6 of the buffer. -/
theorem not_transfersFit_s24 :
    ¬∀ (config : AudioConfig) (d₀ : AudioDevice), audioHalCreate config true true true = some d₀ →
      ∀ (evs : List AudioEvent) (size : UInt64), (run AudioDevice.step d₀ evs).CallsAlsa →
        (run AudioDevice.step d₀ evs).TransfersFit size := by
  intro hlaw
  have hfits := hlaw ⟨audioDirectionCapture, 48000, 2, audioFormatS24Le, 1024, 4096⟩ _ rfl
    [.opens openedAudio, .starts] 4096 ⟨rfl, .inl rfl⟩
  have hread : (682 : UInt64).toNat * (4 * (2 : UInt32).toNat) ≤ (4096 : UInt64).toNat := hfits.1
  exact absurd hread (by decide)

end Hal

end Shinigami
