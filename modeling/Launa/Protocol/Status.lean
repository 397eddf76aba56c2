import Mathlib.Data.Rat.Floor

/-!
# Status updates

What a status frame says of the spa. A temperature is a rational number: the wire carries whole
degrees Fahrenheit and half degrees Celsius, which a 32-bit float holds exactly.
-/

namespace Launa.Protocol

/-- When the spa heats. -/
inductive HeatingMode where
  | ready | rest | readyInRest
  deriving DecidableEq, Repr

/-- The scales of a temperature. -/
inductive TemperatureScale where
  | fahrenheit | celsius
  deriving DecidableEq, Repr

/-- The formats of the clock. -/
inductive TimeFormat where
  | hour12 | hour24
  deriving DecidableEq, Repr

/-- The ranges of the set temperature. -/
inductive TempRange where
  | low | high
  deriving DecidableEq, Repr

/-- The speeds of a pump. -/
inductive PumpState where
  | off | low | high
  deriving DecidableEq, Repr

/-! ## `temperature.rs` -/

/-- Why a temperature does not fit a byte. -/
inductive TemperatureError where
  | negative | overflow
  deriving DecidableEq, Repr

/-- A temperature in its scale. -/
structure Temperature where
  value : ℚ
  scale : TemperatureScale
  deriving DecidableEq, Repr

/-- `Temperature::from_wire`. -/
def Temperature.fromWire (raw : UInt8) (scale : TemperatureScale) : Temperature where
  value := match scale with
    | .fahrenheit => raw.toNat
    | .celsius => raw.toNat / 2
  scale := scale

/-- `Temperature::to_wire`. -/
def Temperature.toWire (t : Temperature) : Except TemperatureError UInt8 :=
  let raw := match t.scale with
    | .fahrenheit => t.value
    | .celsius => t.value * 2
  let rounded := raw + 1 / 2
  if rounded < 0 then .error .negative
  else if rounded > 255 then .error .overflow
  else .ok (UInt8.ofNat ⌊rounded⌋.toNat)

/-! ## `status.rs` -/

/-- A parsed status update. -/
structure StatusUpdate where
  currentTemp : Option Temperature
  setTemp : Temperature
  hour : UInt8
  minute : UInt8
  heatingMode : HeatingMode
  temperatureScale : TemperatureScale
  timeFormat : TimeFormat
  filterMode : UInt8
  isHeating : Bool
  tempRange : TempRange
  pumps : Vector PumpState 6
  circPump : Bool
  blower : Bool
  mister : Bool
  lights : Vector Bool 4
  isPriming : Bool
  isHold : Bool
  notificationType : UInt8
  panelLocked : Bool
  settingsLock : Bool
  m8CycleTime : UInt8
  sensorATemp : Option Temperature
  sensorBTemp : Option Temperature
  holdTimerMinutes : Option UInt8
  deriving DecidableEq

/-- Why a payload is no status. -/
inductive StatusError where
  | unexpectedLength (len : ℕ)
  deriving DecidableEq, Repr

/-- `decode_pump_raw`: the two-bit fields of the pump bytes. -/
def decodePumpRaw (byte1 byte2 : UInt8) : Vector UInt8 6 :=
  #v[byte1 &&& 0x03, (byte1 >>> 2) &&& 0x03, (byte1 >>> 4) &&& 0x03, (byte1 >>> 6) &&& 0x03,
    byte2 &&& 0x03, (byte2 >>> 2) &&& 0x03]

/-- `decode_pumps`. -/
def decodePumps {α : Type} (byte1 byte2 : UInt8) (f : UInt8 → α) : Vector α 6 :=
  (decodePumpRaw byte1 byte2).map f

/-- `decode_pump_state`. -/
def decodePumpState (bits : UInt8) : PumpState :=
  if bits = 0 then .off
  else if bits = 1 then .low
  else if bits = 2 then .high
  else .off

/-- The two-bit light fields. -/
def decodeLights (byte : UInt8) : Vector Bool 4 :=
  #v[byte &&& 0x03 != 0, byte &&& 0x0C != 0, byte &&& 0x30 != 0, byte &&& 0xC0 != 0]

/-- `StatusUpdate::parse`. -/
def StatusUpdate.parse (payload : List UInt8) : Except StatusError StatusUpdate :=
  if payload.length < 24 then .error (.unexpectedLength payload.length)
  else
    let byte := fun i => payload.getD i 0
    let scale := if byte 9 &&& 0x01 != 0 then TemperatureScale.celsius else .fahrenheit
    let isHold := byte 0 == 0x05
    let isAbTemps := byte 0 == 0x14
    .ok {
      currentTemp := if byte 2 = 0xFF then none else some (.fromWire (byte 2) scale)
      setTemp := .fromWire (byte 20) scale
      hour := byte 3
      minute := byte 4
      heatingMode :=
        if byte 5 &&& 0x03 = 0 then .ready
        else if byte 5 &&& 0x03 = 1 then .rest
        else if byte 5 &&& 0x03 = 3 then .readyInRest
        else .ready
      temperatureScale := scale
      timeFormat := if byte 9 &&& 0x02 != 0 then .hour24 else .hour12
      filterMode := (byte 9 >>> 2) &&& 0x03
      isHeating := byte 10 &&& 0x30 != 0
      tempRange := if byte 10 &&& 0x04 != 0 then .high else .low
      pumps := decodePumps (byte 11) (byte 12) decodePumpState
      circPump := byte 13 &&& 0x02 != 0
      blower := byte 13 &&& 0x0C != 0
      mister := byte 15 != 0
      lights := decodeLights (byte 14)
      isPriming := byte 1 == 0x01
      isHold := isHold
      notificationType := byte 6
      panelLocked := byte 18 &&& 0x01 != 0
      settingsLock := byte 19 &&& 0x01 != 0
      m8CycleTime := byte 21
      sensorATemp := if isHold then none else some (.fromWire (byte 7) scale)
      sensorBTemp := if isAbTemps then some (.fromWire (byte 8) scale) else none
      holdTimerMinutes := if isHold then some (byte 7) else none }

end Launa.Protocol
