import Launa.App.MqttClient
import Launa.App.MqttReceive
import Launa.Core.RateLimiter
import Launa.Mqtt.FieldSearch
import Launa.Mqtt.OtaUrl

/-!
# The two readings of a PUBLISH packet

`process_packets` of the app reads a PUBLISH packet in place, and `parse_incoming_publish` of the
codec reads the bytes that the remaining length gives. On a packet that was extracted these are the
same bytes. So a packet that encodes a message (`IsPublish`) is read as that message by both. The
codec returns an error on every other packet; `process_packets` ends the connection, except that
a topic that is not UTF-8 is read as the empty topic, which the MQTT task takes for no command
(`dispatch_nil`).
-/

namespace Launa.Mqtt

/-! ## `topics.rs` -/

namespace TopicBuilder

/-- `BASE_TOPIC`. -/
def baseTopic : List Char := "launa".toList

/-- `TopicBuilder::command_topic`. -/
def commandTopic (deviceId : List Char) : List Char :=
  baseTopic ++ '/' :: (deviceId ++ "/command".toList)

/-- `TopicBuilder::ota_topic`. -/
def otaTopic (deviceId : List Char) : List Char :=
  baseTopic ++ '/' :: (deviceId ++ "/ota".toList)

/-- `TopicBuilder::ha_status_topic`, and `HA_STATUS_TOPIC` of the app. -/
def haStatusTopic : List Char := "homeassistant/status".toList

end TopicBuilder

/-! ## Reading with bounds -/

/-- `&bytes[i..j]`, where `none` panics. -/
def slice (bytes : List UInt8) (i j : ℕ) : Option (List UInt8) :=
  if i ≤ j ∧ j ≤ bytes.length then some ((bytes.drop i).take (j - i)) else none

/-- A slice within the bytes does not panic. -/
theorem slice_of_le {bytes : List UInt8} {i j : ℕ} (hij : i ≤ j) (hj : j ≤ bytes.length) :
    slice bytes i j = some ((bytes.drop i).take (j - i)) := if_pos ⟨hij, hj⟩

/-- A slice up to the end. -/
theorem slice_length {bytes : List UInt8} {i : ℕ} (hi : i ≤ bytes.length) :
    slice bytes i bytes.length = some (bytes.drop i) := by
  rw [slice_of_le hi (Nat.le_refl _), ← List.length_drop, List.take_length]

end Launa.Mqtt

namespace Launa.App

open Launa.Core Mqtt Ota Protocol

/-! ## `process_packets` -/

/-- What the MQTT task makes of a message. -/
inductive Dispatched where
  /-- The URL of a firmware for the main loop. -/
  | ota (url : List Char)
  /-- The home automation has come online. -/
  | homeAssistantOnline
  /-- A command for the main loop. -/
  | command (cmd : Command)
  | startPumpTimer (pump : UInt8) (minutes : UInt32)
  deriving DecidableEq, Repr

/-- The number of frames of a sniff command: of its JSON, or none for `OFF`. -/
def sniffFrames (payload : List Char) : Option UInt16 :=
  if payload.map Char.toUpper = "OFF".toList then none
  else do
    let rest ← afterPattern "\"frames\"".toList payload
    let rest ← stripPrefix [':'] (trimStart rest)
    let digits := (trimStart rest).takeWhile Char.isDigit
    if digits = [] then none else (fromStrRadix 10 (2 ^ 16) digits).map UInt16.ofNat

/-- What the task does with a message that `recv` returns. -/
def dispatch (r : Rounding) (deviceId : List Char)
    (lastScaleRange : Option (TemperatureScale × TempRange)) (limiter : RateLimiter) (nowMs : ℕ)
    (message : Message) : Option Dispatched :=
  let topic := message.1.toList
  let payload := message.2
  let cmdBase := TopicBuilder.commandTopic deviceId
  if topic = TopicBuilder.otaTopic deviceId then (parseOtaUrl payload).map .ota
  else if topic = TopicBuilder.haStatusTopic then
    let status := (utf8Decode payload).getD []
    if status = "online".toList then some .homeAssistantOnline else none
  else if stripPrefix cmdBase topic = some "/sniff".toList then
    some (.command (.sniff (sniffFrames ((utf8Decode payload).getD []))))
  else if stripPrefix cmdBase topic = some "/reboot".toList then some (.command .reboot)
  else match parseCommand r cmdBase topic payload (lastScaleRange.map Prod.fst)
      (lastScaleRange.map Prod.snd) with
    | some (.command cmd) =>
      -- A set temperature is not limited.
      match cmd with
      | .setTemperature _ => some (.command cmd)
      | _ => if (limiter.check nowMs).1 then some (.command cmd) else none
    | some (.startPumpTimer pump minutes) => some (.startPumpTimer pump minutes)
    | none => none

-- A topic that is not UTF-8.
example : processPackets [0x30, 0x05, 0x00, 0x01, 0xFF, 0x4F, 0x4E] =
    .message ("", [0x4F, 0x4E]) none := by decide +kernel

end Launa.App
