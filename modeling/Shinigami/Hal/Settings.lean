import Mathlib.Logic.Function.Basic
import Shinigami.Foundations.Run
import Shinigami.Hal.DeviceOps

/-!
# Settings of sensors and pins

`sensor_control` and `gpio_control` keep the rate, the direction and the edge in the configuration
of the device and write them to sysfs without looking at the result, and a calibration goes on when
an axis cannot be read. So what the get commands report is what the hardware has only as long as
every access goes through (`reports_run_iff`).

An attribute of sysfs is the list of the values it took, the last one first.
-/

namespace Shinigami

namespace Hal

/-- The argument of a command: its address, and the memory there in words of 32 bits. -/
structure CommandArg where
  address : ℕ
  words : ℕ → UInt32

/-- What a command leaves: the device, the memory of its argument, and its result. -/
structure Controlled (D : Type*) where
  device : D
  words : ℕ → UInt32
  result : HalError

/-- The memory after the values `vs` are stored at its start. -/
def storeWords (words : ℕ → UInt32) (vs : List UInt32) : ℕ → UInt32 :=
  fun i => vs.getD i (words i)

/-- The body of both `validate_control_arg`, over the commands and the sizes of their
arguments. -/
def checkControlArg (specs : List (UInt32 × ℕ)) (controlCommand : UInt32) (address : ℕ) : Int32 :=
  match specs.find? (·.1 = controlCommand) with
  | none => -1
  | some (_, argSize) =>
      if argSize = 0 then 0
      else if address = 0 then -1
      else if address % 4 ≠ 0 then -1
      else 0

/-- The body of `write_sysfs_text` and `sysfs_write`; `ok` says that the file is opened and the
value written. -/
def writeAttribute (taken : List UInt32) (value : UInt32) (ok : Bool) : List UInt32 × Int32 :=
  if ok then (value :: taken, 0) else (taken, -1)

/-- The attribute has taken a value exactly when that one was written and the write went through. -/
theorem writeAttribute_eq_iff {taken : List UInt32} {value written : UInt32} {ok : Bool} :
    (writeAttribute taken written ok).1 = value :: taken ↔ ok ∧ written = value := by
  cases ok <;> simp [writeAttribute]

/-! ## Sensors -/

def sensorCmdSetRate : UInt32 := 0x2000

def sensorCmdGetRate : UInt32 := 0x2001

def sensorCmdEnableBuffer : UInt32 := 0x2002

def sensorCmdCalibrate : UInt32 := 0x2003

def sensorCmdGetConfig : UInt32 := 0x2004

def sensorCmdSetScale : UInt32 := 0x2005

def sensorCmdGetOffsets : UInt32 := 0x2006

def sensorCmdSetOffsets : UInt32 := 0x2007

def sensorCmdSpecs : List (UInt32 × ℕ) :=
  [(sensorCmdSetRate, 4), (sensorCmdGetRate, 4), (sensorCmdEnableBuffer, 4),
    (sensorCmdCalibrate, 0), (sensorCmdGetConfig, 16), (sensorCmdSetScale, 4),
    (sensorCmdGetOffsets, 12), (sensorCmdSetOffsets, 12)]

def sensorTypeAccel : UInt32 := 1

def sensorTypeGyro : UInt32 := 2

def sensorTypeMagnet : UInt32 := 3

/-- `sensor_config_t`; an enumeration may hold any value. -/
structure SensorConfig where
  type : UInt32
  samplingRateHz : UInt32
  scale : UInt32
  enableBuffer : UInt32

/-- `sensor_offsets_t`. -/
structure SensorOffsets where
  x : Float32
  y : Float32
  z : Float32

/-- A sensor: the fields of `sensor_priv_t`, those for the hardware buffer in `hal`, and the
attribute `sampling_frequency`. -/
structure SensorDevice where
  hal : HalDevice SensorPriv
  config : SensorConfig
  scaleValue : Float32
  offsets : SensorOffsets
  samplingFrequency : List UInt32

/-- The files of `read_sysfs_axis` in a calibration. -/
inductive Axis
  | x
  | y
  | z
deriving DecidableEq

/-- The outcomes of the accesses of a command: the write of the rate, `open_iio_buffer`, and
`read_sysfs_int` for each axis. -/
structure SensorIo where
  writeOk : Bool
  buffer : SensorOutcome
  readInt : Axis → Option Int32

structure SensorCall where
  command : UInt32
  arg : CommandArg
  io : SensorIo

/-- `validate_control_arg` of the sensors lets the call through. -/
def SensorCall.Valid (c : SensorCall) : Prop :=
  checkControlArg sensorCmdSpecs c.command c.arg.address = 0

instance (c : SensorCall) : Decidable c.Valid :=
  inferInstanceAs (Decidable (_ = _))

namespace SensorDevice

def threeAxis (d : SensorDevice) : Bool :=
  d.config.type = sensorTypeAccel || d.config.type = sensorTypeGyro ||
    d.config.type = sensorTypeMagnet

/-- `read_sysfs_axis`. -/
def readSysfsAxis (d : SensorDevice) (raw : Option Int32) : Option Float32 :=
  raw.map fun rawValue => rawValue.toFloat32 * d.scaleValue

/-- `SENSOR_CMD_SET_RATE`. -/
def setRate (d : SensorDevice) (newRate : UInt32) (ok : Bool) : SensorDevice :=
  { d with
    config := { d.config with samplingRateHz := newRate }
    samplingFrequency := (writeAttribute d.samplingFrequency newRate ok).1 }

/-- `close_iio_buffer`. -/
def closeIioBuffer (hal : HalDevice SensorPriv) : HalDevice SensorPriv :=
  { hal.releaseHeld hal.priv.bufferFd with priv := { hal.priv with bufferFd := none } }

/-- `SENSOR_CMD_ENABLE_BUFFER`. -/
def enableBuffer (d : SensorDevice) (enable : UInt32) (o : SensorOutcome) : SensorDevice :=
  let hal := { d.hal with priv := { d.hal.priv with enableBuffer := enable ≠ 0 } }
  let hal :=
    if enable ≠ 0 ∧ hal.priv.bufferFd.isNone ∧ hal.state ≠ .closed then (openIioBuffer hal o).1
    else if enable = 0 ∧ hal.priv.bufferFd.isSome then closeIioBuffer hal
    else hal
  { d with
    hal := hal
    config := { d.config with enableBuffer := enable } }

/-- `SENSOR_CMD_CALIBRATE`. -/
def calibrate (d : SensorDevice) (readInt : Axis → Option Int32) : SensorDevice :=
  if d.threeAxis then
    let x := (d.readSysfsAxis (readInt .x)).getD 0
    let y := (d.readSysfsAxis (readInt .y)).getD 0
    let z := (d.readSysfsAxis (readInt .z)).getD 0
    { d with offsets := ⟨-x, -y, -z⟩ }
  else d

/-- `sensor_control`. -/
def sensorControl (d : SensorDevice) (c : SensorCall) : Controlled SensorDevice :=
  let words := c.arg.words
  if ¬c.Valid then ⟨d, words, .invalid⟩
  else if c.command = sensorCmdSetRate then ⟨d.setRate (words 0) c.io.writeOk, words, .success⟩
  else if c.command = sensorCmdGetRate then
    ⟨d, storeWords words [d.config.samplingRateHz], .success⟩
  else if c.command = sensorCmdEnableBuffer then
    ⟨d.enableBuffer (words 0) c.io.buffer, words, .success⟩
  else if c.command = sensorCmdCalibrate then ⟨d.calibrate c.io.readInt, words, .success⟩
  else if c.command = sensorCmdGetConfig then
    ⟨d, storeWords words [d.config.type, d.config.samplingRateHz, d.config.scale,
      d.config.enableBuffer], .success⟩
  else if c.command = sensorCmdSetScale then
    let newScale := Float32.ofBits (words 0)
    if !newScale.isFinite || newScale == 0 then ⟨d, words, .invalid⟩
    else ⟨{ d with scaleValue := newScale }, words, .success⟩
  else if c.command = sensorCmdGetOffsets then
    ⟨d, storeWords words [d.offsets.x.toBits, d.offsets.y.toBits, d.offsets.z.toBits], .success⟩
  else if c.command = sensorCmdSetOffsets then
    ⟨{ d with offsets := ⟨.ofBits (words 0), .ofBits (words 1), .ofBits (words 2)⟩ }, words,
      .success⟩
  else ⟨d, words, .notSupport⟩

def Settled (d : SensorDevice) : Prop :=
  d.samplingFrequency.head? = some d.config.samplingRateHz

/-- What a call reports is so: a rate that is set has been written, a rate that is got is the last
one applied, and a calibration without all three axes keeps the offsets and does not succeed. -/
structure Reports (d : SensorDevice) (c : SensorCall) : Prop where
  setRate : c.command = sensorCmdSetRate → (d.sensorControl c).result = .success →
    (d.sensorControl c).device.samplingFrequency = c.arg.words 0 :: d.samplingFrequency
  getRate : c.command = sensorCmdGetRate → (d.sensorControl c).result = .success →
    d.samplingFrequency.head? = some ((d.sensorControl c).words 0)
  getConfig : c.command = sensorCmdGetConfig → (d.sensorControl c).result = .success →
    d.samplingFrequency.head? = some ((d.sensorControl c).words 1)
  calibrate : c.command = sensorCmdCalibrate → d.threeAxis →
    (∃ axis, c.io.readInt axis = none) →
      (d.sensorControl c).device.offsets = d.offsets ∧ (d.sensorControl c).result ≠ .success

/-- The accesses that a call needs go through. -/
structure Applies (d : SensorDevice) (c : SensorCall) : Prop where
  setRate : c.Valid → c.command = sensorCmdSetRate → c.io.writeOk
  calibrate : c.command = sensorCmdCalibrate → d.threeAxis →
    ∀ axis, c.io.readInt axis ≠ none

section SensorControl

variable {d : SensorDevice} {c : SensorCall}

theorem sensorControl_invalid (hc : ¬c.Valid) :
    d.sensorControl c = ⟨d, c.arg.words, .invalid⟩ := by
  rw [sensorControl, if_pos hc]

theorem sensorControl_setRate (hc : c.Valid) (hcommand : c.command = sensorCmdSetRate) :
    d.sensorControl c =
      ⟨d.setRate (c.arg.words 0) c.io.writeOk, c.arg.words, .success⟩ := by
  rw [sensorControl, if_neg (not_not.mpr hc), if_pos hcommand]

theorem sensorControl_getRate (hc : c.Valid) (hcommand : c.command = sensorCmdGetRate) :
    d.sensorControl c =
      ⟨d, storeWords c.arg.words [d.config.samplingRateHz], .success⟩ := by
  have hset : c.command ≠ sensorCmdSetRate := by rw [hcommand]; decide
  rw [sensorControl, if_neg (not_not.mpr hc), if_neg hset, if_pos hcommand]

theorem sensorControl_getConfig (hc : c.Valid) (hcommand : c.command = sensorCmdGetConfig) :
    d.sensorControl c =
      ⟨d, storeWords c.arg.words [d.config.type, d.config.samplingRateHz, d.config.scale,
        d.config.enableBuffer], .success⟩ := by
  have hothers : c.command ≠ sensorCmdSetRate ∧ c.command ≠ sensorCmdGetRate ∧
      c.command ≠ sensorCmdEnableBuffer ∧ c.command ≠ sensorCmdCalibrate := by
    rw [hcommand]
    decide
  rw [sensorControl, if_neg (not_not.mpr hc), if_neg hothers.1, if_neg hothers.2.1,
    if_neg hothers.2.2.1, if_neg hothers.2.2.2, if_pos hcommand]

theorem sensorControl_calibrate (hcommand : c.command = sensorCmdCalibrate) :
    d.sensorControl c = ⟨d.calibrate c.io.readInt, c.arg.words, .success⟩ := by
  have hc : c.Valid := by
    rw [SensorCall.Valid, hcommand]
    rfl
  have hothers : c.command ≠ sensorCmdSetRate ∧ c.command ≠ sensorCmdGetRate ∧
      c.command ≠ sensorCmdEnableBuffer := by
    rw [hcommand]
    decide
  rw [sensorControl, if_neg (not_not.mpr hc), if_neg hothers.1, if_neg hothers.2.1,
    if_neg hothers.2.2, if_pos hcommand]

theorem calibrate_frame (readInt : Axis → Option Int32) :
    (d.calibrate readInt).config = d.config ∧
      (d.calibrate readInt).samplingFrequency = d.samplingFrequency := by
  unfold calibrate
  split <;> exact ⟨rfl, rfl⟩

theorem sensorControl_frame (hcommand : c.command ≠ sensorCmdSetRate) :
    (d.sensorControl c).device.config.samplingRateHz = d.config.samplingRateHz ∧
      (d.sensorControl c).device.samplingFrequency = d.samplingFrequency := by
  have hcalibrate := calibrate_frame (d := d) c.io.readInt
  by_cases hc : c.Valid
  swap
  · rw [sensorControl_invalid hc]
    exact ⟨rfl, rfl⟩
  rw [sensorControl, if_neg (not_not.mpr hc), if_neg hcommand]
  dsimp only
  split_ifs <;> first | exact ⟨rfl, rfl⟩ | exact ⟨by rw [hcalibrate.1], hcalibrate.2⟩

theorem Settled.step (hd : d.Settled) (hc : d.Applies c) :
    (d.sensorControl c).device.Settled := by
  by_cases hcommand : c.command = sensorCmdSetRate
  · by_cases hvalid : c.Valid
    · have hwritten : (d.setRate (c.arg.words 0) c.io.writeOk).samplingFrequency =
          c.arg.words 0 :: d.samplingFrequency :=
        writeAttribute_eq_iff.mpr ⟨hc.setRate hvalid hcommand, rfl⟩
      rw [sensorControl_setRate hvalid hcommand]
      exact congrArg List.head? hwritten
    · rwa [sensorControl_invalid hvalid]
  · obtain ⟨hrate, htaken⟩ := sensorControl_frame (d := d) hcommand
    rw [Settled, hrate, htaken]
    exact hd

/-- In a settled device a call reports what is so exactly when its accesses go through. -/
theorem Settled.reports_iff (hd : d.Settled) : d.Reports c ↔ d.Applies c := by
  constructor
  · intro h
    refine ⟨fun hvalid hcommand => ?_, fun hcommand hthree axis hnone => ?_⟩
    · have hwritten := h.setRate hcommand
      rw [sensorControl_setRate hvalid hcommand] at hwritten
      exact (writeAttribute_eq_iff.mp (hwritten rfl)).1
    · have hfails := h.calibrate hcommand hthree ⟨axis, hnone⟩
      rw [sensorControl_calibrate hcommand] at hfails
      exact hfails.2 rfl
  · intro h
    refine ⟨fun hcommand hresult => ?_, fun hcommand hresult => ?_, fun hcommand hresult => ?_,
      fun hcommand hthree ⟨axis, hnone⟩ => absurd hnone (h.calibrate hcommand hthree axis)⟩
    all_goals
      have hvalid : c.Valid := by
        by_contra hvalid
        rw [sensorControl_invalid hvalid] at hresult
        cases hresult
    · rw [sensorControl_setRate hvalid hcommand]
      exact writeAttribute_eq_iff.mpr ⟨h.setRate hvalid hcommand, rfl⟩
    · rw [sensorControl_getRate hvalid hcommand]
      exact hd
    · rw [sensorControl_getConfig hvalid hcommand]
      exact hd

end SensorControl

end SensorDevice

/-! ## Pins -/

def gpioCmdSetDirection : UInt32 := 0x4000

def gpioCmdGetDirection : UInt32 := 0x4001

def gpioCmdSetValue : UInt32 := 0x4002

def gpioCmdGetValue : UInt32 := 0x4003

def gpioCmdSetEdge : UInt32 := 0x4004

def gpioCmdGetEdge : UInt32 := 0x4005

def gpioCmdWaitEdge : UInt32 := 0x4006

def gpioCmdToggle : UInt32 := 0x4007

def gpioCmdSpecs : List (UInt32 × ℕ) :=
  [(gpioCmdSetDirection, 4), (gpioCmdGetDirection, 4), (gpioCmdSetValue, 4),
    (gpioCmdGetValue, 4), (gpioCmdSetEdge, 4), (gpioCmdGetEdge, 4), (gpioCmdWaitEdge, 4),
    (gpioCmdToggle, 0)]

def gpioDirInput : UInt32 := 0

def gpioDirOutput : UInt32 := 1

def gpioValueLow : UInt32 := 0

def gpioValueHigh : UInt32 := 1

def gpioEdgeNone : UInt32 := 0

def gpioEdgeRising : UInt32 := 1

def gpioEdgeFalling : UInt32 := 2

def gpioEdgeBoth : UInt32 := 3

/-- The direction that the source writes: "in" for the input and "out" for any other. -/
def writtenDirection (dir : UInt32) : UInt32 :=
  if dir = gpioDirInput then gpioDirInput else gpioDirOutput

/-- The edge that the source writes: "rising", "falling", "both", and "none" for any other. -/
def writtenEdge (edge : UInt32) : UInt32 :=
  if edge = gpioEdgeRising then gpioEdgeRising
  else if edge = gpioEdgeFalling then gpioEdgeFalling
  else if edge = gpioEdgeBoth then gpioEdgeBoth
  else gpioEdgeNone

/-- A pin: the direction and the edge of its configuration, and its attributes `direction`, `edge`
and `value`. An enumeration may hold any value. -/
structure GpioDevice where
  configDirection : UInt32
  configEdge : UInt32
  direction : List UInt32
  edge : List UInt32
  value : List UInt32

/-- The outcomes of the accesses of a command: the write of the attribute, the first byte that
`gpio_read` reads, the write of `gpio_write`, and what `poll` returns. -/
structure GpioIo where
  writeOk : Bool
  readByte : Option UInt8
  writeValueOk : Bool
  poll : Int32

structure GpioCall where
  command : UInt32
  arg : CommandArg
  io : GpioIo

/-- `validate_control_arg` of the pins lets the call through. -/
def GpioCall.Valid (c : GpioCall) : Prop :=
  checkControlArg gpioCmdSpecs c.command c.arg.address = 0

instance (c : GpioCall) : Decidable c.Valid :=
  inferInstanceAs (Decidable (_ = _))

namespace GpioDevice

/-- `GPIO_CMD_SET_DIRECTION`. -/
def setDirection (d : GpioDevice) (dir : UInt32) (ok : Bool) : GpioDevice :=
  { d with
    configDirection := dir
    direction := (writeAttribute d.direction (writtenDirection dir) ok).1 }

/-- `GPIO_CMD_SET_EDGE`. -/
def setEdge (d : GpioDevice) (edge : UInt32) (ok : Bool) : GpioDevice :=
  { d with
    configEdge := edge
    edge := (writeAttribute d.edge (writtenEdge edge) ok).1 }

/-- `gpio_hal_set_value`, over `gpio_write`. -/
def gpioHalSetValue (d : GpioDevice) (newValue : UInt32) (io : GpioIo) : GpioDevice × HalError :=
  let level := if newValue = gpioValueHigh then gpioValueHigh else gpioValueLow
  if io.writeValueOk then ({ d with value := level :: d.value }, .success) else (d, .io)

/-- `gpio_hal_get_value`, over `gpio_read`. -/
def gpioHalGetValue (io : GpioIo) : Option UInt32 :=
  io.readByte.map fun level => if level = 0x31 then gpioValueHigh else gpioValueLow

/-- `gpio_hal_toggle`. -/
def gpioHalToggle (d : GpioDevice) (io : GpioIo) : GpioDevice × HalError :=
  match gpioHalGetValue io with
  | none => (d, .io)
  | some current =>
      d.gpioHalSetValue (if current = gpioValueHigh then gpioValueLow else gpioValueHigh) io

/-- `gpio_hal_wait_interrupt`. -/
def gpioHalWaitInterrupt (io : GpioIo) : HalError :=
  if io.poll < 0 then .io else if io.poll = 0 then .timeout else .success

/-- `gpio_control`. -/
def gpioControl (d : GpioDevice) (c : GpioCall) : Controlled GpioDevice :=
  let words := c.arg.words
  if ¬c.Valid then ⟨d, words, .invalid⟩
  else if c.command = gpioCmdSetDirection then
    ⟨d.setDirection (words 0) c.io.writeOk, words, .success⟩
  else if c.command = gpioCmdGetDirection then
    ⟨d, storeWords words [d.configDirection], .success⟩
  else if c.command = gpioCmdSetValue then
    let (d, rc) := d.gpioHalSetValue (words 0) c.io
    ⟨d, words, rc⟩
  else if c.command = gpioCmdGetValue then
    match gpioHalGetValue c.io with
    | none => ⟨d, words, .io⟩
    | some value => ⟨d, storeWords words [value], .success⟩
  else if c.command = gpioCmdSetEdge then ⟨d.setEdge (words 0) c.io.writeOk, words, .success⟩
  else if c.command = gpioCmdGetEdge then ⟨d, storeWords words [d.configEdge], .success⟩
  else if c.command = gpioCmdWaitEdge then ⟨d, words, gpioHalWaitInterrupt c.io⟩
  else if c.command = gpioCmdToggle then
    let (d, rc) := d.gpioHalToggle c.io
    ⟨d, words, rc⟩
  else ⟨d, words, .notSupport⟩

/-- The direction and the edge that the driver reports are those that the hardware took last. -/
def Settled (d : GpioDevice) : Prop :=
  d.direction.head? = some d.configDirection ∧ d.edge.head? = some d.configEdge

/-- What a call reports is so: a direction or an edge that is set has been written, and one that is
got is the last one applied. -/
structure Reports (d : GpioDevice) (c : GpioCall) : Prop where
  setDirection : c.command = gpioCmdSetDirection → (d.gpioControl c).result = .success →
    (d.gpioControl c).device.direction = c.arg.words 0 :: d.direction
  getDirection : c.command = gpioCmdGetDirection → (d.gpioControl c).result = .success →
    d.direction.head? = some ((d.gpioControl c).words 0)
  setEdge : c.command = gpioCmdSetEdge → (d.gpioControl c).result = .success →
    (d.gpioControl c).device.edge = c.arg.words 0 :: d.edge
  getEdge : c.command = gpioCmdGetEdge → (d.gpioControl c).result = .success →
    d.edge.head? = some ((d.gpioControl c).words 0)

/-- What a call sets is one of the enumeration, and its write goes through. -/
structure Applies (c : GpioCall) : Prop where
  setDirection : c.Valid → c.command = gpioCmdSetDirection →
    c.io.writeOk ∧ c.arg.words 0 ≤ gpioDirOutput
  setEdge : c.Valid → c.command = gpioCmdSetEdge →
    c.io.writeOk ∧ c.arg.words 0 ≤ gpioEdgeBoth

theorem writtenDirection_eq_iff {dir : UInt32} :
    writtenDirection dir = dir ↔ dir ≤ gpioDirOutput := by
  unfold writtenDirection gpioDirInput gpioDirOutput
  split <;> grind

theorem writtenEdge_eq_iff {edge : UInt32} :
    writtenEdge edge = edge ↔ edge ≤ gpioEdgeBoth := by
  unfold writtenEdge gpioEdgeRising gpioEdgeFalling gpioEdgeBoth gpioEdgeNone
  split_ifs <;> grind

section GpioControl

variable {d : GpioDevice} {c : GpioCall}

theorem gpioControl_invalid (hc : ¬c.Valid) : d.gpioControl c = ⟨d, c.arg.words, .invalid⟩ := by
  rw [gpioControl, if_pos hc]

theorem gpioControl_setDirection (hc : c.Valid) (hcommand : c.command = gpioCmdSetDirection) :
    d.gpioControl c =
      ⟨d.setDirection (c.arg.words 0) c.io.writeOk, c.arg.words, .success⟩ := by
  rw [gpioControl, if_neg (not_not.mpr hc), if_pos hcommand]

theorem gpioControl_getDirection (hc : c.Valid) (hcommand : c.command = gpioCmdGetDirection) :
    d.gpioControl c = ⟨d, storeWords c.arg.words [d.configDirection], .success⟩ := by
  have hset : c.command ≠ gpioCmdSetDirection := by rw [hcommand]; decide
  rw [gpioControl, if_neg (not_not.mpr hc), if_neg hset, if_pos hcommand]

theorem gpioControl_setEdge (hc : c.Valid) (hcommand : c.command = gpioCmdSetEdge) :
    d.gpioControl c = ⟨d.setEdge (c.arg.words 0) c.io.writeOk, c.arg.words, .success⟩ := by
  have hothers : c.command ≠ gpioCmdSetDirection ∧ c.command ≠ gpioCmdGetDirection ∧
      c.command ≠ gpioCmdSetValue ∧ c.command ≠ gpioCmdGetValue := by
    rw [hcommand]
    decide
  rw [gpioControl, if_neg (not_not.mpr hc), if_neg hothers.1, if_neg hothers.2.1,
    if_neg hothers.2.2.1, if_neg hothers.2.2.2, if_pos hcommand]

theorem gpioControl_getEdge (hc : c.Valid) (hcommand : c.command = gpioCmdGetEdge) :
    d.gpioControl c = ⟨d, storeWords c.arg.words [d.configEdge], .success⟩ := by
  have hothers : c.command ≠ gpioCmdSetDirection ∧ c.command ≠ gpioCmdGetDirection ∧
      c.command ≠ gpioCmdSetValue ∧ c.command ≠ gpioCmdGetValue ∧
        c.command ≠ gpioCmdSetEdge := by
    rw [hcommand]
    decide
  rw [gpioControl, if_neg (not_not.mpr hc), if_neg hothers.1, if_neg hothers.2.1,
    if_neg hothers.2.2.1, if_neg hothers.2.2.2.1, if_neg hothers.2.2.2.2, if_pos hcommand]

theorem gpioHalSetValue_frame (newValue : UInt32) (io : GpioIo) :
    ∃ value, (d.gpioHalSetValue newValue io).1 = { d with value := value } := by
  unfold gpioHalSetValue
  cases io.writeValueOk
  · exact ⟨d.value, rfl⟩
  · exact ⟨_, rfl⟩

theorem gpioHalToggle_frame (io : GpioIo) :
    ∃ value, (d.gpioHalToggle io).1 = { d with value := value } := by
  unfold gpioHalToggle
  split
  · exact ⟨d.value, rfl⟩
  · exact gpioHalSetValue_frame _ _

theorem gpioControl_frame (hdirection : c.command ≠ gpioCmdSetDirection)
    (hedge : c.command ≠ gpioCmdSetEdge) :
    ∃ value, (d.gpioControl c).device = { d with value := value } := by
  by_cases hc : c.Valid
  swap
  · rw [gpioControl_invalid hc]
    exact ⟨d.value, rfl⟩
  rw [gpioControl, if_neg (not_not.mpr hc), if_neg hdirection]
  dsimp only
  split_ifs
  all_goals first
    | exact ⟨d.value, rfl⟩
    | exact gpioHalSetValue_frame _ _
    | exact gpioHalToggle_frame _
    | split <;> exact ⟨d.value, rfl⟩

theorem Settled.step (hd : d.Settled) (hc : Applies c) : (d.gpioControl c).device.Settled := by
  by_cases hvalid : c.Valid
  swap
  · rwa [gpioControl_invalid hvalid]
  by_cases hdirection : c.command = gpioCmdSetDirection
  · obtain ⟨hok, hdir⟩ := hc.setDirection hvalid hdirection
    rw [gpioControl_setDirection hvalid hdirection]
    refine ⟨?_, hd.2⟩
    have hwritten : (d.setDirection (c.arg.words 0) c.io.writeOk).direction =
        c.arg.words 0 :: d.direction :=
      writeAttribute_eq_iff.mpr ⟨hok, writtenDirection_eq_iff.mpr hdir⟩
    exact congrArg List.head? hwritten
  · by_cases hedge : c.command = gpioCmdSetEdge
    · obtain ⟨hok, hrange⟩ := hc.setEdge hvalid hedge
      rw [gpioControl_setEdge hvalid hedge]
      refine ⟨hd.1, ?_⟩
      have hwritten : (d.setEdge (c.arg.words 0) c.io.writeOk).edge =
          c.arg.words 0 :: d.edge :=
        writeAttribute_eq_iff.mpr ⟨hok, writtenEdge_eq_iff.mpr hrange⟩
      exact congrArg List.head? hwritten
    · obtain ⟨value, hkept⟩ := gpioControl_frame (d := d) hdirection hedge
      rw [hkept]
      exact hd

/-- In a settled device a call reports what is so exactly when what it sets is applied. -/
theorem Settled.reports_iff (hd : d.Settled) : d.Reports c ↔ Applies c := by
  constructor
  · intro h
    refine ⟨fun hvalid hcommand => ?_, fun hvalid hcommand => ?_⟩
    · have hwritten := h.setDirection hcommand
      rw [gpioControl_setDirection hvalid hcommand] at hwritten
      have happlied := writeAttribute_eq_iff.mp (hwritten rfl)
      exact ⟨happlied.1, writtenDirection_eq_iff.mp happlied.2⟩
    · have hwritten := h.setEdge hcommand
      rw [gpioControl_setEdge hvalid hcommand] at hwritten
      have happlied := writeAttribute_eq_iff.mp (hwritten rfl)
      exact ⟨happlied.1, writtenEdge_eq_iff.mp happlied.2⟩
  · intro h
    refine ⟨fun hcommand hresult => ?_, fun hcommand hresult => ?_, fun hcommand hresult => ?_,
      fun hcommand hresult => ?_⟩
    all_goals
      have hvalid : c.Valid := by
        by_contra hvalid
        rw [gpioControl_invalid hvalid] at hresult
        cases hresult
    · obtain ⟨hok, hdir⟩ := h.setDirection hvalid hcommand
      rw [gpioControl_setDirection hvalid hcommand]
      exact writeAttribute_eq_iff.mpr ⟨hok, writtenDirection_eq_iff.mpr hdir⟩
    · rw [gpioControl_getDirection hvalid hcommand]
      exact hd.1
    · obtain ⟨hok, hrange⟩ := h.setEdge hvalid hcommand
      rw [gpioControl_setEdge hvalid hcommand]
      exact writeAttribute_eq_iff.mpr ⟨hok, writtenEdge_eq_iff.mpr hrange⟩
    · rw [gpioControl_getEdge hvalid hcommand]
      exact hd.2

end GpioControl

end GpioDevice

/-! ## All devices -/

section Devices

variable {ι κ : Type*}

/-- The sensors and the pins, each with hardware of its own. -/
structure Devices (ι κ : Type*) where
  sensors : ι → SensorDevice
  pins : κ → GpioDevice

inductive ControlCall (ι κ : Type*)
  | sensor (i : ι) (c : SensorCall)
  | pin (k : κ) (c : GpioCall)

namespace Devices

def step [DecidableEq ι] [DecidableEq κ] (s : Devices ι κ) : ControlCall ι κ → Devices ι κ
  | .sensor i c =>
      { s with sensors := Function.update s.sensors i ((s.sensors i).sensorControl c).device }
  | .pin k c => { s with pins := Function.update s.pins k ((s.pins k).gpioControl c).device }

/-- The devices as a sequence of calls begins: the settings they hold are those applied last. -/
def begin (s : Devices ι κ) : Devices ι κ where
  sensors i := { s.sensors i with samplingFrequency := [(s.sensors i).config.samplingRateHz] }
  pins k :=
    { s.pins k with
      direction := [(s.pins k).configDirection]
      edge := [(s.pins k).configEdge] }

/-- The call reports to its caller what is so. -/
def Reports (s : Devices ι κ) : ControlCall ι κ → Prop
  | .sensor i c => (s.sensors i).Reports c
  | .pin k c => (s.pins k).Reports c

/-- The call applies what it sets, and reads what it needs. -/
def Applies (s : Devices ι κ) : ControlCall ι κ → Prop
  | .sensor i c => (s.sensors i).Applies c
  | .pin _ c => GpioDevice.Applies c

structure Settled (s : Devices ι κ) : Prop where
  sensors : ∀ i, (s.sensors i).Settled
  pins : ∀ k, (s.pins k).Settled

theorem begin_settled (s : Devices ι κ) : s.begin.Settled :=
  ⟨fun _ => rfl, fun _ => ⟨rfl, rfl⟩⟩

theorem Settled.reports_iff {s : Devices ι κ} (hs : s.Settled) (c : ControlCall ι κ) :
    s.Reports c ↔ s.Applies c := by
  cases c with
  | sensor i c => exact (hs.sensors i).reports_iff
  | pin k c => exact (hs.pins k).reports_iff

variable [DecidableEq ι] [DecidableEq κ]

theorem Settled.step {s : Devices ι κ} (hs : s.Settled) {c : ControlCall ι κ}
    (hc : s.Applies c) : (s.step c).Settled := by
  cases c with
  | sensor i c =>
      refine ⟨fun j => ?_, hs.pins⟩
      obtain rfl | hij := eq_or_ne j i
      · simpa [Devices.step] using (hs.sensors j).step hc
      · simpa [Devices.step, hij] using hs.sensors j
  | pin k c =>
      refine ⟨hs.sensors, fun j => ?_⟩
      obtain rfl | hjk := eq_or_ne j k
      · simpa [Devices.step] using (hs.pins j).step hc
      · simpa [Devices.step, hjk] using hs.pins j

/-- Every call of a sequence reports what is so exactly when every call applies what it sets and
every calibration reads its three axes. -/
theorem reports_run_iff (s : Devices ι κ) (calls : List (ControlCall ι κ)) :
    Guarded Devices.step Reports s.begin calls ↔ Guarded Devices.step Applies s.begin calls :=
  guarded_congr_of_guarded (fun _ _ hc hs => hs.step hc) (fun _ c hs => hs.reports_iff c)
    s.begin_settled

end Devices

end Devices

/-- An accelerometer at 100 Hz. -/
def accelerometer : SensorDevice where
  hal := .create ⟨none, false⟩
  config := ⟨sensorTypeAccel, 100, 1, 0⟩
  scaleValue := 1
  offsets := ⟨0, 0, 0⟩
  samplingFrequency := []

/-- Setting it to 200 Hz, when sysfs cannot be written. -/
def setRateUnwritten : ControlCall Unit Empty :=
  .sensor ()
    { command := sensorCmdSetRate
      arg := ⟨0x1000, fun _ => 200⟩
      io := ⟨false, ⟨false, false⟩, fun _ => none⟩ }

/-- The rate of the accelerometer is set with success, and its hardware still has the old one. -/
theorem not_reports_setRateUnwritten :
    ¬Guarded Devices.step Devices.Reports
      (Devices.begin ⟨fun _ : Unit => accelerometer, Empty.elim⟩) [setRateUnwritten] := by
  intro h
  have hwritten : [(100 : UInt32)] = [200, 100] := h.1.setRate rfl rfl
  exact absurd hwritten (by decide)

end Hal

end Shinigami
