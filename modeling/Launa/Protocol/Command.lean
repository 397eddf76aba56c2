import Launa.Protocol.Frame
import Launa.Protocol.Status

/-!
# Commands

The commands to the spa, and the message type and payload that each is sent as.
-/

namespace Launa.Protocol

/-- The limit on a set temperature, whatever the scale and range. -/
def absoluteMaxTempF : UInt8 := 108

/-- The limit on a set temperature in degrees Celsius. -/
def absoluteMaxTempC : UInt8 := 42

/-- Why a set temperature is refused. -/
inductive TempError where
  | belowMin | aboveMax | aboveAbsoluteLimit
  deriving DecidableEq, Repr

/-- `validate_set_temperature`. -/
def validateSetTemperature (rawValue : UInt8) (scale : TemperatureScale) (range : TempRange) :
    Except TempError UInt8 :=
  let (min, max) : UInt8 × UInt8 := match scale, range with
    | .fahrenheit, .high => (80, 104)
    | .fahrenheit, .low => (50, 80)
    | .celsius, .high => (26, 40)
    | .celsius, .low => (10, 26)
  let absMax := match scale with
    | .fahrenheit => absoluteMaxTempF
    | .celsius => absoluteMaxTempC
  if rawValue > absMax then .error .aboveAbsoluteLimit
  else if rawValue < min then .error .belowMin
  else if rawValue > max then .error .aboveMax
  else .ok rawValue

/-- Why a command cannot be encoded. -/
inductive CommandError where
  | invalidHour (hour : UInt8)
  | invalidMinute (minute : UInt8)
  | invalidTemperature (temp : UInt8)
  deriving DecidableEq, Repr

/-- What can be toggled. -/
inductive ToggleItem where
  | pump1 | pump2 | pump3 | pump4 | pump5 | pump6
  | blower
  | light1 | light2 | light3 | light4
  | mister | aux1 | aux2
  | holdMode | heatingMode | temperatureRange
  | circulationPump | soakMode | normalOperation | clearNotification
  deriving DecidableEq, Repr

namespace ToggleItem

/-- `ToggleItem::code`. -/
def code : ToggleItem → UInt8
  | pump1 => 0x04
  | pump2 => 0x05
  | pump3 => 0x06
  | pump4 => 0x07
  | pump5 => 0x08
  | pump6 => 0x09
  | blower => 0x0C
  | light1 => 0x11
  | light2 => 0x12
  | light3 => 0x13
  | light4 => 0x14
  | mister => 0x0E
  | aux1 => 0x16
  | aux2 => 0x17
  | holdMode => 0x3C
  | heatingMode => 0x51
  | temperatureRange => 0x50
  | circulationPump => 0x3D
  | soakMode => 0x1D
  | normalOperation => 0x01
  | clearNotification => 0x03

/-- `ToggleItem::pump_index`. -/
def pumpIndex : ToggleItem → Option (Fin 6)
  | pump1 => some 0
  | pump2 => some 1
  | pump3 => some 2
  | pump4 => some 3
  | pump5 => some 4
  | pump6 => some 5
  | _ => none

/-- The index of the first light. -/
def firstLight : Fin 4 := ⟨0, by decide⟩

/-- `ToggleItem::light_index`. -/
def lightIndex : ToggleItem → Option (Fin 4)
  | light1 => some firstLight
  | light2 => some ⟨1, by decide⟩
  | light3 => some ⟨2, by decide⟩
  | light4 => some ⟨3, by decide⟩
  | _ => none

/-- `ToggleItem::from_pump_index`. -/
def fromPumpIndex : ℕ → Option ToggleItem
  | 0 => some pump1
  | 1 => some pump2
  | 2 => some pump3
  | 3 => some pump4
  | 4 => some pump5
  | 5 => some pump6
  | _ => none

/-- `ToggleItem::from_light_index`. -/
def fromLightIndex : ℕ → Option ToggleItem
  | 0 => some light1
  | 1 => some light2
  | 2 => some light3
  | 3 => some light4
  | _ => none

end ToggleItem

/-- The settings that a command can ask for. -/
inductive SettingsType where
  | panel | filterCycles | information | preferences
  deriving DecidableEq, Repr

/-! The preference codes. -/

/-- The preference code of the reminders. -/
def preferenceReminders : UInt8 := 0x00
/-- The preference code of the temperature scale. -/
def preferenceTemperatureScale : UInt8 := 0x01
/-- The preference code of the clock mode. -/
def preferenceClockMode : UInt8 := 0x02
/-- The preference code of the cleanup cycle. -/
def preferenceCleanupCycle : UInt8 := 0x03
/-- The preference code of M8. -/
def preferenceM8Ai : UInt8 := 0x06

/-- The commands to the spa. -/
inductive Command where
  | configurationRequest
  | toggleItem (item : ToggleItem)
  | setTemperature (temp : UInt8)
  | setTime (hour minute : UInt8) (is24h : Bool)
  | setPreference (code value : UInt8)
  /-- `true` is Celsius. -/
  | setTemperatureScale (celsius : Bool)
  | settingsRequest (settings : SettingsType)
  | filterCyclesRequest
  | informationRequest
  | faultLogRequest (entry : UInt8)
  | nothingToSend (clientId : UInt8)
  | sniff (seconds : Option UInt16)
  | reboot
  deriving DecidableEq, Repr

namespace Command

/-- `Command::encode`. -/
def encode : Command → Except CommandError (MessageType × List UInt8)
  | configurationRequest => .ok ((0x0A, 0xBF), [0x04])
  | toggleItem item => .ok ((0x0A, 0xBF), [0x11, item.code, 0x00])
  | setTemperature temp =>
    if temp > absoluteMaxTempF then .error (.invalidTemperature temp)
    else .ok ((0x0A, 0xBF), [0x20, temp])
  | setTime hour minute is24h =>
    if hour > 23 || hour &&& 0x80 != 0 then .error (.invalidHour hour)
    else if minute > 59 then .error (.invalidMinute minute)
    else .ok ((0x0A, 0xBF), [0x21, if is24h then hour ||| 0x80 else hour, minute])
  | setPreference code value => .ok ((0x0A, 0xBF), [0x27, code, value])
  | setTemperatureScale celsius => .ok ((0x0A, 0xBF), [0x27, 0x01, if celsius then 0x01 else 0x00])
  | settingsRequest .panel => .ok ((0x0A, 0xBF), [0x22, 0x00, 0x00, 0x01])
  | settingsRequest .filterCycles => .ok ((0x0A, 0xBF), [0x22, 0x01, 0x00, 0x00])
  | filterCyclesRequest => .ok ((0x0A, 0xBF), [0x22, 0x01, 0x00, 0x00])
  | settingsRequest .information => .ok ((0x0A, 0xBF), [0x22, 0x02, 0x00, 0x00])
  | informationRequest => .ok ((0x0A, 0xBF), [0x22, 0x02, 0x00, 0x00])
  | settingsRequest .preferences => .ok ((0x0A, 0xBF), [0x22, 0x08, 0x00, 0x00])
  | faultLogRequest entry => .ok ((0x0A, 0xBF), [0x22, 0x20, entry, 0x00])
  | nothingToSend clientId => .ok ((clientId, 0xBF), [0x07])
  | sniff _ => .ok ((0x00, 0x00), [])
  | reboot => .ok ((0x00, 0x00), [])

end Command

/-- `encode_command` of the app: the frame of a command, and nothing when it cannot be encoded. -/
def encodeCommand (cmd : Command) : List UInt8 :=
  match cmd.encode with
  | .error _ => []
  | .ok (msgType, payload) =>
    match FrameEncoder.encode msgType payload with
    | .error _ => []
    | .ok encoded => encoded

end Launa.Protocol
