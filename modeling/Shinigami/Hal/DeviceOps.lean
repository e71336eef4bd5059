import Shinigami.Hal.Interface

/-!
# The four device vtables

`open`, `close`, `start` and `stop` of the GPIO, audio, camera and sensor devices.
A kernel handle is named by the number of the successful `open` that made it, so a
name is never used twice, and `openHandles` are those not closed since. The results
of the system calls are arguments; a call whose result the source ignores is left
out. The device pointer and its private data are there, as after creation.
-/

namespace Shinigami

namespace Hal

/-- A device with private data `P`: the fields of `hw_device_t` that the vtable
writes, the next handle of the kernel and its open handles. -/
structure HalDevice (P : Type*) where
  state : HalDeviceState
  fd : Option ℕ
  priv : P
  next : ℕ
  openHandles : List ℕ

namespace HalDevice

variable {P : Type*}

/-- A device as it is created. -/
def create (priv : P) : HalDevice P := ⟨.closed, none, priv, 0, []⟩

def acquire (d : HalDevice P) : HalDevice P :=
  { d with next := d.next + 1, openHandles := d.next :: d.openHandles }

def release (d : HalDevice P) (h : ℕ) : HalDevice P :=
  { d with openHandles := d.openHandles.filter (· ≠ h) }

def releaseHeld (d : HalDevice P) : Option ℕ → HalDevice P
  | none => d
  | some h => d.release h

/-- The body of `gpio_start`, `audio_start` and `sensor_start`. -/
def plainStart (d : HalDevice P) : HalDevice P × HalError :=
  if d.state ≠ .opened then (d, .invalid) else ({ d with state := .active }, .success)

/-- The body of `gpio_stop`, `audio_stop` and `sensor_stop`. -/
def plainStop (d : HalDevice P) : HalDevice P × HalError :=
  ({ d with state := .opened }, .success)

end HalDevice

/-- `gpio_priv_t`, without the configuration. -/
structure GpioPriv where
  valueFd : Option ℕ
  exported : Bool

/-- The outcomes in `gpio_open`: the write to `export`, the check for the directory of
the pin, and the `open` of its value file. -/
structure GpioOutcome where
  exportOk : Bool
  dirExists : Bool
  openOk : Bool

def gpioOpen (d : HalDevice GpioPriv) (o : GpioOutcome) : HalDevice GpioPriv × HalError :=
  if !o.exportOk && !o.dirExists then (d, .noDevice)
  else if !o.openOk then ({ d with priv := ⟨none, true⟩ }, .io)
  else
    let fd := d.next
    ({ d.acquire with
        state := .opened
        fd := some fd
        priv := ⟨some fd, true⟩ }, .success)

def gpioClose (d : HalDevice GpioPriv) : HalDevice GpioPriv × HalError :=
  ({ d.releaseHeld d.priv.valueFd with
      state := .closed
      fd := none
      priv := ⟨none, false⟩ }, .success)

def gpioStart : HalDevice GpioPriv → HalDevice GpioPriv × HalError := HalDevice.plainStart

def gpioStop : HalDevice GpioPriv → HalDevice GpioPriv × HalError := HalDevice.plainStop

/-- `audio_priv_t`: the handle and the field of the configuration that the
negotiation writes. -/
structure AudioPriv where
  pcmHandle : Option ℕ
  sampleRate : UInt32

/-- The outcomes in `audio_open`, in the order of the calls; `rateNear` is the rate that
the driver takes. -/
structure AudioOutcome where
  openOk : Bool
  mallocOk : Bool
  anyOk : Bool
  accessOk : Bool
  formatOk : Bool
  channelsOk : Bool
  rateNear : Option UInt32
  periodOk : Bool
  bufferOk : Bool
  hwParamsOk : Bool
  prepareOk : Bool

/-- `configure_alsa_hw_params`. -/
def configureAlsaHwParams (priv : AudioPriv) (o : AudioOutcome) : AudioPriv × HalError :=
  if !o.mallocOk then (priv, .noMemory)
  else if !(o.anyOk && o.accessOk && o.formatOk && o.channelsOk) then (priv, .io)
  else
    match o.rateNear with
    | none => (priv, .io)
    | some rate =>
        let priv := { priv with sampleRate := rate }
        if !(o.periodOk && o.bufferOk && o.hwParamsOk && o.prepareOk) then (priv, .io)
        else (priv, .success)

def audioOpen (d : HalDevice AudioPriv) (o : AudioOutcome) : HalDevice AudioPriv × HalError :=
  if !o.openOk then (d, .noDevice)
  else
    let pcm := d.next
    let d := d.acquire
    let (priv, err) := configureAlsaHwParams { d.priv with pcmHandle := some pcm } o
    if err ≠ .success then
      ({ d.release pcm with priv := { priv with pcmHandle := none } }, err)
    else ({ d with state := .opened, priv := priv }, .success)

def audioClose (d : HalDevice AudioPriv) : HalDevice AudioPriv × HalError :=
  ({ d.releaseHeld d.priv.pcmHandle with
      state := .closed
      priv := { d.priv with pcmHandle := none } }, .success)

def audioStart : HalDevice AudioPriv → HalDevice AudioPriv × HalError := HalDevice.plainStart

def audioStop : HalDevice AudioPriv → HalDevice AudioPriv × HalError := HalDevice.plainStop

/-- `camera_priv_t`: the handle, the buffers, the streaming flag and the fields of the
configuration that the negotiation writes. -/
structure CameraPriv where
  v4l2Fd : Option ℕ
  mmapBuffers : Bool
  mmapBufferCount : ℕ
  streaming : Bool
  width : UInt32
  height : UInt32

/-- The outcomes in the camera vtable: `QUERYCAP` yields the capabilities, `S_FMT` the
resolution, `REQBUFS` the number of buffers; the last calls are made for every
buffer. -/
structure CameraOutcome where
  pathOk : Bool
  openOk : Bool
  queryCap : Option UInt32
  setFormat : Option (UInt32 × UInt32)
  requestBuffers : Option ℕ
  callocOk : Bool
  mapOk : ℕ → Bool
  queueOk : ℕ → Bool
  streamOnOk : Bool
  streamOffOk : Bool

def v4l2CapVideoCapture : UInt32 := 0x00000001

def v4l2CapStreaming : UInt32 := 0x04000000

/-- `configure_v4l2_format`. -/
def configureV4l2Format (priv : CameraPriv) (o : CameraOutcome) : CameraPriv × HalError :=
  match o.setFormat with
  | none => (priv, .io)
  | some (width, height) => ({ priv with width := width, height := height }, .success)

/-- `allocate_mmap_buffers`. -/
def allocateMmapBuffers (priv : CameraPriv) (o : CameraOutcome) : CameraPriv × HalError :=
  match o.requestBuffers with
  | none => (priv, .io)
  | some count =>
      if count < 2 then (priv, .noMemory)
      else
        let priv := { priv with mmapBufferCount := count, mmapBuffers := o.callocOk }
        if !o.callocOk then (priv, .noMemory)
        else if (List.range count).all o.mapOk then (priv, .success) else (priv, .io)

/-- `release_mmap_buffers`. -/
def releaseMmapBuffers (priv : CameraPriv) : CameraPriv :=
  if !priv.mmapBuffers then priv
  else { priv with mmapBuffers := false, mmapBufferCount := 0 }

/-- Leaving `camera_open` behind its `open`: the descriptor is closed. -/
def cameraOpenFail (d : HalDevice CameraPriv) (fd : ℕ) (priv : CameraPriv)
    (err : HalError) : HalDevice CameraPriv × HalError :=
  ({ d.release fd with priv := { priv with v4l2Fd := none } }, err)

def cameraOpen (d : HalDevice CameraPriv) (o : CameraOutcome) :
    HalDevice CameraPriv × HalError :=
  if !o.pathOk then (d, .invalid)
  else if !o.openOk then ({ d with priv := { d.priv with v4l2Fd := none } }, .noDevice)
  else
    let fd := d.next
    let d := d.acquire
    let priv := { d.priv with v4l2Fd := some fd }
    match o.queryCap with
    | none => cameraOpenFail d fd priv .noDevice
    | some cap =>
        if cap &&& v4l2CapVideoCapture = 0 then cameraOpenFail d fd priv .noDevice
        else if cap &&& v4l2CapStreaming = 0 then cameraOpenFail d fd priv .notSupport
        else
          let (priv, rc) := configureV4l2Format priv o
          if rc ≠ .success then cameraOpenFail d fd priv rc
          else
            let (priv, rc) := allocateMmapBuffers priv o
            if rc ≠ .success then cameraOpenFail d fd (releaseMmapBuffers priv) rc
            else ({ d with state := .opened, fd := some fd, priv := priv }, .success)

def cameraClose (d : HalDevice CameraPriv) : HalDevice CameraPriv × HalError :=
  ({ d.releaseHeld d.priv.v4l2Fd with
      state := .closed
      fd := none
      priv := { releaseMmapBuffers d.priv with v4l2Fd := none, streaming := false } },
    .success)

def cameraStart (d : HalDevice CameraPriv) (o : CameraOutcome) :
    HalDevice CameraPriv × HalError :=
  if d.state ≠ .opened then (d, .invalid)
  else if !(List.range d.priv.mmapBufferCount).all o.queueOk then (d, .io)
  else if !o.streamOnOk then (d, .io)
  else ({ d with state := .active, priv := { d.priv with streaming := true } }, .success)

def cameraStop (d : HalDevice CameraPriv) (o : CameraOutcome) :
    HalDevice CameraPriv × HalError :=
  if d.priv.streaming && !o.streamOffOk then (d, .io)
  else ({ d with state := .opened, priv := { d.priv with streaming := false } }, .success)

/-- `sensor_priv_t`: the handle and the switch for the hardware buffer. -/
structure SensorPriv where
  bufferFd : Option ℕ
  enableBuffer : Bool

/-- The outcomes in `open_iio_buffer`. -/
structure SensorOutcome where
  layoutOk : Bool
  openOk : Bool

/-- `open_iio_buffer`, with whether it succeeds. -/
def openIioBuffer (d : HalDevice SensorPriv) (o : SensorOutcome) :
    HalDevice SensorPriv × Bool :=
  if !o.layoutOk then (d, false)
  else if !o.openOk then ({ d with priv := { d.priv with bufferFd := none } }, false)
  else ({ d.acquire with priv := { d.priv with bufferFd := some d.next } }, true)

def sensorOpen (d : HalDevice SensorPriv) (o : SensorOutcome) :
    HalDevice SensorPriv × HalError :=
  let d :=
    if d.priv.enableBuffer then
      let (d, ok) := openIioBuffer d o
      if ok then d else { d with priv := { d.priv with bufferFd := none } }
    else d
  ({ d with state := .opened }, .success)

def sensorClose (d : HalDevice SensorPriv) : HalDevice SensorPriv × HalError :=
  ({ d.releaseHeld d.priv.bufferFd with
      state := .closed
      priv := { d.priv with bufferFd := none } }, .success)

def sensorStart : HalDevice SensorPriv → HalDevice SensorPriv × HalError := HalDevice.plainStart

def sensorStop : HalDevice SensorPriv → HalDevice SensorPriv × HalError := HalDevice.plainStop

end Hal

end Shinigami
