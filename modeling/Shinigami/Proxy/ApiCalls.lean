import Shinigami.Foundations.LittleEndian
import Shinigami.Proxy.Connection

/-!
# The calls of the proxies

The methods of `GpioProxy`, `SensorProxy`, `CameraProxy` and `AudioProxy` that send a
message. Most of them hand the message to `sendRequestWaitReply` and make something of the
reply; the rest hand it to `sendMessage`. `releases` says whether the method gives the
buffer of the reply back, which it does or does not on all its ways out.
-/

namespace Shinigami

namespace Proxy

open LittleEndian

inductive ApiError
  | invalidArgument
  | error (e : ProxyError)
deriving DecidableEq, Repr

/-- What a method makes of its reply: whether it gives the buffer back, and its result,
the bytes it returns. -/
structure ReplyUse where
  releases : Bool
  result : List UInt8 → Except ApiError (List UInt8)

/-- A call of a method. `returnsIf` is the value of `capturing_` with which the method
returns at once, `sets` the one it stores when the message is sent, and without `reply`
the message goes to `sendMessage`. -/
structure ApiCall where
  refused : Bool
  returnsIf : Option Bool
  msgType : UInt16
  payload : List UInt8
  sets : Option Bool
  reply : Option ReplyUse

/-- A request whose method gives the buffer back. -/
def request (refused : Bool) (msgType : UInt16) (payload : List UInt8)
    (result : List UInt8 → Except ApiError (List UInt8)) : ApiCall where
  refused := refused
  returnsIf := none
  msgType := msgType
  payload := payload
  sets := none
  reply := some ⟨true, result⟩

def command (msgType : UInt16) (payload : List UInt8) : ApiCall :=
  request false msgType payload fun _ => .ok []

def keepingRequest (msgType : UInt16) (payload : List UInt8)
    (result : List UInt8 → Except ApiError (List UInt8)) : ApiCall :=
  { request false msgType payload result with reply := some ⟨false, result⟩ }

def message (refused : Bool) (msgType : UInt16) (payload : List UInt8) : ApiCall where
  refused := refused
  returnsIf := none
  msgType := msgType
  payload := payload
  sets := none
  reply := none

namespace GpioProxy

inductive GpioDirection
  | input
  | output
deriving DecidableEq, Repr

def GpioDirection.toByte : GpioDirection → UInt8
  | .input => 0
  | .output => 1

inductive GpioEdge
  | none
  | rising
  | falling
  | both
deriving DecidableEq, Repr

def GpioEdge.toByte : GpioEdge → UInt8
  | .none => 0
  | .rising => 1
  | .falling => 2
  | .both => 3

def configurePin (pin : UInt32) (direction : GpioDirection) (edge : GpioEdge) : ApiCall :=
  command 0x0401 (leBytes 4 pin.toNat ++ [direction.toByte, edge.toByte])

def setPin (pin : UInt32) (value : UInt8) : ApiCall :=
  command 0x0402 (leBytes 4 pin.toNat ++ [value])

def getPin (pin : UInt32) : ApiCall :=
  keepingRequest 0x0403 (leBytes 4 pin.toNat) fun payload =>
    match payload with
    | [] => .error (.error .invalidResponse)
    | level :: _ => .ok [level]

def watchPin (pin : UInt32) (edge : GpioEdge) : ApiCall :=
  command 0x0404 (leBytes 4 pin.toNat ++ [edge.toByte])

def unwatchPin (pin : UInt32) : ApiCall :=
  command 0x0405 (leBytes 4 pin.toNat ++ [GpioEdge.none.toByte])

end GpioProxy

namespace SensorProxy

/-- `SensorReading::Type`. -/
inductive SensorType
  | unknown
  | accelerometer
  | gyroscope
  | magnetometer
  | temperature
  | pressure
  | humidity
  | light
  | proximity
  | barometer
deriving DecidableEq, Repr

def SensorType.toByte : SensorType → UInt8
  | .unknown => 0
  | .accelerometer => 1
  | .gyroscope => 2
  | .magnetometer => 3
  | .temperature => 4
  | .pressure => 5
  | .humidity => 6
  | .light => 7
  | .proximity => 8
  | .barometer => 9

/-- `sizeof(SensorReading)`. -/
def sensorReadingSize : ℕ := 48

def startSampling (type : SensorType) (rateHz : UInt32) : ApiCall :=
  command 0x0301 (type.toByte :: leBytes 4 rateHz.toNat)

def stopSampling (type : SensorType) : ApiCall := command 0x0302 [type.toByte]

def getLatestReading (type : SensorType) : ApiCall :=
  request false 0x0304 [type.toByte] fun payload => .ok (payload.take sensorReadingSize)

end SensorProxy

namespace CameraProxy

/-- `CameraFrame::Format`. -/
inductive Format
  | yuyv
  | mjpeg
  | rgb24
deriving DecidableEq, Repr

def Format.toByte : Format → UInt8
  | .yuyv => 0
  | .mjpeg => 1
  | .rgb24 => 2

/-- `sizeof(CameraDeviceInfo)`. -/
def cameraDeviceInfoSize : ℕ := 80

def startStream : ApiCall := command 0x0201 []

def stopStream : ApiCall := command 0x0202 []

def setResolution (width height : UInt32) : ApiCall :=
  command 0x0203 (leBytes 4 width.toNat ++ leBytes 4 height.toNat)

def setFps (fps : UInt32) : ApiCall := command 0x0204 (leBytes 4 fps.toNat)

def setFormat (fmt : Format) : ApiCall := command 0x0205 [fmt.toByte]

def captureStillFrame (frame : Option (List UInt8)) : ApiCall :=
  keepingRequest 0x0206 [] fun _ =>
    match frame with
    | none => .error (.error .timeout)
    | some pixels => .ok pixels

def getDeviceInfo : ApiCall :=
  request false 0x0207 [] fun payload => .ok (payload.take cameraDeviceInfoSize)

end CameraProxy

namespace AudioProxy

/-- `sizeof(AudioDeviceInfo)`. -/
def audioDeviceInfoSize : ℕ := 76

def startCapture : ApiCall :=
  { message false 0x0101 [] with returnsIf := some true, sets := some true }

def stopCapture : ApiCall :=
  { message false 0x0102 [] with returnsIf := some false, sets := some false }

def startPlayback : ApiCall := message false 0x0103 []

def stopPlayback : ApiCall := message false 0x0104 []

/-- The samples are sent as many as the layout of the shared memory makes of the frames. -/
def writePlaybackFrame (data : Option (List UInt8)) (frameCount : UInt64)
    (channels bitDepth : UInt16) : ApiCall :=
  let bytes := frameCount * channels.toUInt64 * (bitDepth / 8).toUInt64
  message (data.isNone || frameCount == 0) 0x010B
    ((data.getD []).take bytes.toUInt32.toNat)

def setSampleRate (hz : UInt32) : ApiCall :=
  request (hz < 8000 || hz > 192000) 0x0105 (leBytes 4 hz.toNat) fun payload =>
    if 4 ≤ payload.length ∧ leNat (payload.take 4) ≠ 0 then
      .error (.error .invalidResponse)
    else .ok []

def setChannels (count : UInt16) : ApiCall :=
  request (count == 0 || count > 2) 0x0106 (leBytes 2 count.toNat) fun _ => .ok []

def setBitDepth (bits : UInt16) : ApiCall :=
  request (bits != 16 && bits != 32) 0x0107 (leBytes 2 bits.toNat) fun _ => .ok []

def getDeviceInfo : ApiCall :=
  request false 0x0108 [] fun payload =>
    .ok (if audioDeviceInfoSize + 4 ≤ payload.length then payload.take audioDeviceInfoSize else [])

/-- A `float` is below 0: the sign is set, and it is neither `-0` nor not a number. -/
def floatNegative (level : UInt32) : Bool := 0x80000000 < level && level ≤ 0xFF800000

/-- A `float` is above 1. -/
def floatAboveOne (level : UInt32) : Bool := 0x3F800000 < level && level ≤ 0x7F800000

/-- The level is the bit pattern of a `float`. -/
def setVolume (level : UInt32) : ApiCall :=
  request (floatNegative level || floatAboveOne level) 0x0109 (leBytes 4 level.toNat)
    fun _ => .ok []

def getVolume : ApiCall :=
  request false 0x010A [] fun payload =>
    .ok (if 8 ≤ payload.length then payload.take 4 else leBytes 4 0)

end AudioProxy

/-- The method gives the buffer of its reply back. -/
def ApiCall.Releases (call : ApiCall) : Prop := ∀ use, call.reply = some use → use.releases = true

inductive ApiCall.Offered : ApiCall → Prop
  | configurePin (pin direction edge) : Offered (GpioProxy.configurePin pin direction edge)
  | setPin (pin value) : Offered (GpioProxy.setPin pin value)
  | getPin (pin) : Offered (GpioProxy.getPin pin)
  | watchPin (pin edge) : Offered (GpioProxy.watchPin pin edge)
  | unwatchPin (pin) : Offered (GpioProxy.unwatchPin pin)
  | startSampling (type rateHz) : Offered (SensorProxy.startSampling type rateHz)
  | stopSampling (type) : Offered (SensorProxy.stopSampling type)
  | getLatestReading (type) : Offered (SensorProxy.getLatestReading type)
  | startStream : Offered CameraProxy.startStream
  | stopStream : Offered CameraProxy.stopStream
  | setResolution (width height) : Offered (CameraProxy.setResolution width height)
  | setFps (fps) : Offered (CameraProxy.setFps fps)
  | setFormat (fmt) : Offered (CameraProxy.setFormat fmt)
  | captureStillFrame (frame) : Offered (CameraProxy.captureStillFrame frame)
  | cameraDeviceInfo : Offered CameraProxy.getDeviceInfo
  | startCapture : Offered AudioProxy.startCapture
  | stopCapture : Offered AudioProxy.stopCapture
  | startPlayback : Offered AudioProxy.startPlayback
  | stopPlayback : Offered AudioProxy.stopPlayback
  | writePlaybackFrame (data frameCount channels bitDepth) :
      Offered (AudioProxy.writePlaybackFrame data frameCount channels bitDepth)
  | setSampleRate (hz) : Offered (AudioProxy.setSampleRate hz)
  | setChannels (count) : Offered (AudioProxy.setChannels count)
  | setBitDepth (bits) : Offered (AudioProxy.setBitDepth bits)
  | audioDeviceInfo : Offered AudioProxy.getDeviceInfo
  | setVolume (level) : Offered (AudioProxy.setVolume level)
  | getVolume : Offered AudioProxy.getVolume

/-- Of all the methods only `getPin` and `captureStillFrame` keep the buffer. -/
theorem ApiCall.Offered.releases_iff {call : ApiCall} (h : call.Offered) :
    call.Releases ↔ (∀ pin, call ≠ GpioProxy.getPin pin) ∧
      ∀ frame, call ≠ CameraProxy.captureStillFrame frame := by
  constructor
  · intro hreleases
    refine ⟨?_, ?_⟩
    · rintro pin rfl
      exact absurd (hreleases _ rfl) Bool.false_ne_true
    · rintro frame rfl
      exact absurd (hreleases _ rfl) Bool.false_ne_true
  · rintro ⟨hpin, hframe⟩ use huse
    cases h with
    | getPin pin => exact absurd rfl (hpin pin)
    | captureStillFrame frame => exact absurd rfl (hframe frame)
    | startCapture | stopCapture | startPlayback | stopPlayback | writePlaybackFrame => cases huse
    | _ =>
        obtain rfl := Option.some.inj huse
        rfl

end Proxy

end Shinigami
