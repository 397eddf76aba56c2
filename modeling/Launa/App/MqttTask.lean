import Launa.Lib.ChangeFilter
import Launa.Mqtt.State

/-!
# The MQTT task

What `mqtt_task.rs` publishes of the spa: the state when it has changed, with every message from the
main loop, and the availability. Of the broker there is what was published last on either topic, of
a message whether its publishes succeed. The firmware's version is a text that the build gives.
-/

namespace Launa.App

open Mqtt Ota Protocol

/-! ## `fault_buf.rs` -/

/-- A fault text of at most 63 bytes. -/
structure FaultBuf where
  bytes : List UInt8
  length_le : bytes.length ≤ 63
  deriving DecidableEq

/-- `FaultBuf::EMPTY`. -/
def FaultBuf.empty : FaultBuf := ⟨[], by decide⟩

/-- `FaultBuf::from_string`. -/
def FaultBuf.fromString (s : String) : FaultBuf :=
  ⟨s.toUTF8.data.toList.take 63, List.length_take_le 63 _⟩

/-- `FaultBuf::as_str`. -/
def FaultBuf.asStr (self : FaultBuf) : Option (List Char) :=
  if self.bytes.length = 0 then none else utf8Decode self.bytes

/-! ## `types.rs` -/

/-- A message from the main loop to the MQTT task. -/
structure StateMessage where
  status : StatusUpdate
  fault : FaultBuf
  recoveringFromStale : Bool
  sniffMode : Bool
  wifiRssi : Option Int32
  registrationState : List Char

/-! ## `mqtt_client.rs` -/

/-- The payloads of the availability topic. -/
inductive Availability where
  | online | offline | stale
  deriving DecidableEq, Repr

/-- What was published last on the state and the availability topic. -/
structure MqttClient where
  state : Option (List Char)
  availability : Option Availability
  deriving DecidableEq

/-- Whether the publishes to the two topics succeed. -/
structure Sent where
  state : Bool
  availability : Bool

/-- Every publish succeeds. -/
def Sent.all : Sent := ⟨true, true⟩

namespace MqttClient

/-- `MqttClient::publish_state`. -/
def publishState (self : MqttClient) (sent : Sent) (firmware : List Char) (status : StatusUpdate)
    (lastFault : Option (List Char)) (sniffMode : Bool) (wifiRssi : Option Int32)
    (registrationState : List Char) : MqttClient :=
  if sent.state then
    { self with
      state := some (statusToJson status lastFault
        (some firmware) sniffMode wifiRssi registrationState) }
  else self

/-- `MqttClient::publish_availability`. -/
def publishAvailability (self : MqttClient) (sent : Sent) (online : Bool) : MqttClient :=
  if sent.availability then
    { self with availability := some (if online then .online else .offline) }
  else self

/-- `MqttClient::publish_availability_stale`. -/
def publishAvailabilityStale (self : MqttClient) (sent : Sent) : MqttClient :=
  if sent.availability then { self with availability := some .stale } else self

end MqttClient

/-! ## `mqtt_task.rs` -/

/-- The variables of the task. -/
structure MqttTask where
  mqtt : MqttClient
  lastScaleRange : Option (TemperatureScale × TempRange)
  lastSniffMode : Bool
  lastWifiRssi : Option Int32
  lastPublishedStatus : Option StatusUpdate
  lastPublishedFault : Option FaultBuf
  lastRegistrationState : List Char

/-- What the task does in its loop: it takes a message, it connects anew, or the home automation has
come online. -/
inductive TaskEvent where
  | stateMessage (msg : StateMessage)
  | reconnect
  | homeAssistantOnline

/-- The messages among some events. -/
def messages (events : List TaskEvent) : List StateMessage :=
  events.filterMap fun
    | .stateMessage msg => some msg
    | _ => none

namespace MqttTask

/-- The task at its start, with nothing published. -/
def new : MqttTask where
  mqtt := ⟨none, none⟩
  lastScaleRange := none
  lastSniffMode := false
  lastWifiRssi := none
  lastPublishedStatus := none
  lastPublishedFault := none
  lastRegistrationState := "waiting_for_query".toList

variable (r : Rounding) (firmware : List Char)

/-- A message is taken. -/
def onStateMessage (self : MqttTask) (sent : Sent) (msg : StateMessage) : MqttTask :=
  let modeChanged := msg.sniffMode != self.lastSniffMode
  let regChanged := msg.registrationState != self.lastRegistrationState
  let self := { self with
    lastScaleRange := some (msg.status.temperatureScale, msg.status.tempRange)
    lastPublishedStatus := if modeChanged || regChanged then none else self.lastPublishedStatus
    lastSniffMode := msg.sniffMode
    lastRegistrationState := msg.registrationState }
  let changed := statusChanged r self.lastPublishedStatus msg.status
  let rssiChanged := msg.wifiRssi != self.lastWifiRssi
  let self := { self with lastWifiRssi := msg.wifiRssi }
  let self :=
    if msg.recoveringFromStale || changed || rssiChanged then
      { self with
        lastPublishedStatus := some msg.status
        lastPublishedFault := some msg.fault
        mqtt := self.mqtt.publishState sent firmware msg.status msg.fault.asStr msg.sniffMode
          msg.wifiRssi msg.registrationState }
    else self
  { self with
    mqtt :=
      if msg.recoveringFromStale then self.mqtt.publishAvailabilityStale sent
      else self.mqtt.publishAvailability sent true }

/-- `reconnect_and_sync`, with the last state that `build_last_state` gives. -/
def reconnectAndSync (self : MqttTask) (sent : Sent) : MqttTask :=
  let mqtt := self.mqtt.publishAvailability sent true
  { self with
    mqtt := match self.lastPublishedStatus with
      | some status =>
        mqtt.publishState sent firmware status (self.lastPublishedFault.bind FaultBuf.asStr)
          self.lastSniffMode self.lastWifiRssi self.lastRegistrationState
      | none => mqtt }

/-- The home automation has come online. -/
def onHomeAssistantOnline (self : MqttTask) (sent : Sent) : MqttTask :=
  { self with mqtt := self.mqtt.publishAvailability sent true }

/-- What the task does at an event. -/
def step (sent : Sent) (self : MqttTask) : TaskEvent → MqttTask
  | .stateMessage msg => self.onStateMessage r firmware sent msg
  | .reconnect => self.reconnectAndSync firmware sent
  | .homeAssistantOnline => self.onHomeAssistantOnline sent

end MqttTask

end Launa.App
