import Launa.App.PublishReading
import Launa.Lib.JsonTree
import Launa.Mqtt.StateJson

/-!
# The discovery messages

`discovery.rs` puts the payloads of the discovery messages together by formats. It escapes the texts
of the device block and of the origin, but the device identifier stands unescaped in the unique
identifiers and the topics of all of them. So they are JSON with the texts that they should have
exactly if the device identifier needs no escapes (`wellFormed_iff`).
-/

namespace Launa.Mqtt

open Json

/-! ## `topics.rs` -/

namespace TopicBuilder

/-- `TopicBuilder::state_topic`. -/
def stateTopic (deviceId : List Char) : List Char :=
  baseTopic ++ '/' :: (deviceId ++ "/state".toList)

/-- `TopicBuilder::availability_topic`. -/
def availabilityTopic (deviceId : List Char) : List Char :=
  baseTopic ++ '/' :: (deviceId ++ "/availability".toList)

/-- `TopicBuilder::diagnostics_topic`. -/
def diagnosticsTopic (deviceId : List Char) : List Char :=
  baseTopic ++ '/' :: (deviceId ++ "/diagnostics".toList)

/-- `TopicBuilder::alert_topic`. -/
def alertTopic (deviceId : List Char) : List Char :=
  baseTopic ++ '/' :: (deviceId ++ "/alert".toList)

/-- `TopicBuilder::discovery_topic`. -/
def discoveryTopic (deviceId : List Char) (component objectId : String) : List Char :=
  "homeassistant/".toList ++ (component.toList ++ '/' ::
    (deviceId ++ '/' :: (objectId.toList ++ "/config".toList)))

end TopicBuilder

open TopicBuilder

/-! ## `discovery.rs` -/

/-- `DiscoveryMessage`. -/
structure DiscoveryMessage where
  topic : List Char
  payload : List Char
  retain : Bool
  deriving DecidableEq

/-- `DiscoveryBuilder`. -/
structure DiscoveryBuilder where
  deviceId : List Char
  deviceName : List Char
  deviceModel : List Char
  swVersion : List Char
  manufacturer : List Char
  celsius : Bool
  deriving DecidableEq

/-- `"{}"` in a format. -/
def quote (s : List Char) : List Char := '"' :: (s ++ ['"'])

/-- The format of an object, from the names of its members and what stands behind their colons. -/
def formatObject (members : List (String × List Char)) : List Char :=
  '{' :: ([','].intercalate (members.map fun m =>
    '"' :: (m.1.toList ++ '"' :: ':' :: m.2)) ++ ['}'])

/-- `json_device_block`. -/
def jsonDeviceBlock (deviceId name manufacturer model swVersion : List Char) : List Char :=
  formatObject [("identifiers", '[' :: (quote (escapeJsonString deviceId) ++ [']'])),
    ("name", quote (escapeJsonString name)),
    ("manufacturer", quote (escapeJsonString manufacturer)),
    ("model", quote (escapeJsonString model)),
    ("sw_version", quote (escapeJsonString swVersion))]

/-- `json_origin`. -/
def jsonOrigin (swVersion : List Char) : List Char :=
  formatObject [("name", quote "launa-firmware".toList),
    ("sw_version", quote (escapeJsonString swVersion))]

/-- A value template that shows a member of the state. -/
def valueJson (field : String) : String :=
  "\x7b\x7b value_json." ++ field ++ " \x7d\x7d"

namespace DiscoveryBuilder

/-- `DiscoveryBuilder::new`. -/
def new (deviceId : List Char) : DiscoveryBuilder where
  deviceId := deviceId
  deviceName := "Launa Spa".toList
  deviceModel := "BP6013G1".toList
  swVersion := "unknown".toList
  manufacturer := "Launa".toList
  celsius := false

section Formats

variable (deviceId deviceInfo origin : List Char)

/-- What the formats of all messages begin with: the members up to the unique identifier, which ends
with the given text. -/
def head (name uniqueId : String) : List (String × List Char) :=
  [("device", deviceInfo), ("origin", origin), ("name", quote name.toList),
    ("unique_id", quote (deviceId ++ '_' :: uniqueId.toList))]

/-- `make_sensor`. -/
def makeSensor (stateTopic availTopic : List Char)
    (objectId name deviceClass unit valueTemplate : String) : DiscoveryMessage where
  topic := discoveryTopic deviceId "sensor" objectId
  payload := formatObject (head deviceId deviceInfo origin name objectId ++
    [("device_class", quote deviceClass.toList), ("unit_of_measurement", quote unit.toList),
      ("state_topic", quote stateTopic), ("value_template", quote valueTemplate.toList),
      ("availability_topic", quote availTopic)])
  retain := false

/-- `make_binary_sensor`. -/
def makeBinarySensor (stateTopic availTopic : List Char)
    (objectId name deviceClass valueTemplate : String) : DiscoveryMessage where
  topic := discoveryTopic deviceId "binary_sensor" objectId
  payload := formatObject (head deviceId deviceInfo origin name objectId ++
    [("device_class", quote deviceClass.toList), ("state_topic", quote stateTopic),
      ("value_template", quote valueTemplate.toList), ("payload_on", quote "true".toList),
      ("payload_off", quote "false".toList), ("availability_topic", quote availTopic)])
  retain := false

/-- `make_switch`. -/
def makeSwitch (stateTopic availTopic : List Char) (objectId name valueTemplate : String)
    (commandTopic : List Char) : DiscoveryMessage where
  topic := discoveryTopic deviceId "switch" objectId
  payload := formatObject (head deviceId deviceInfo origin name objectId ++
    [("state_topic", quote stateTopic), ("command_topic", quote commandTopic),
      ("value_template", quote valueTemplate.toList), ("payload_on", quote "true".toList),
      ("payload_off", quote "false".toList), ("availability_topic", quote availTopic)])
  retain := false

/-- `make_switch_optimistic`. -/
def makeSwitchOptimistic (availTopic : List Char) (objectId name : String)
    (commandTopic : List Char) : DiscoveryMessage where
  topic := discoveryTopic deviceId "switch" objectId
  payload := formatObject (head deviceId deviceInfo origin name objectId ++
    [("command_topic", quote commandTopic), ("payload_on", quote "true".toList),
      ("payload_off", quote "false".toList), ("optimistic", "true".toList),
      ("availability_topic", quote availTopic)])
  retain := false

/-- `make_select`. -/
def makeSelect (stateTopic availTopic : List Char) (objectId name options valueTemplate : String)
    (commandTopic : List Char) : DiscoveryMessage where
  topic := discoveryTopic deviceId "select" objectId
  payload := formatObject (head deviceId deviceInfo origin name objectId ++
    [("state_topic", quote stateTopic), ("command_topic", quote commandTopic),
      ("value_template", quote valueTemplate.toList), ("options", options.toList),
      ("availability_topic", quote availTopic)])
  retain := false

end Formats

/-- `DiscoveryBuilder::build_messages`. -/
def buildMessages (self : DiscoveryBuilder) : List DiscoveryMessage :=
  let id := self.deviceId
  let deviceInfo := jsonDeviceBlock id self.deviceName self.manufacturer self.deviceModel
    self.swVersion
  let origin := jsonOrigin self.swVersion
  let stateTopic := stateTopic id
  let availTopic := availabilityTopic id
  let command (name : String) := commandTopic id ++ '/' :: name.toList
  let head := head id deviceInfo origin
  let (tempUnit, tempMin, tempMax, tempStep) :=
    if self.celsius then ("°C", 10, 40, "0.5") else ("°F", 50, 104, "1")
  [makeSensor id deviceInfo origin stateTopic availTopic "temperature" "Water Temperature"
      "temperature" tempUnit (valueJson "current_temp"),
    { topic := discoveryTopic id "number" "set_temperature"
      payload := formatObject (head "Set Temperature" "set_temp" ++
        [("device_class", quote "temperature".toList),
          ("unit_of_measurement", quote tempUnit.toList), ("min", natText tempMin),
          ("max", natText tempMax), ("step", tempStep.toList), ("state_topic", quote stateTopic),
          ("command_topic", quote (command "set_temperature")),
          ("value_template", quote (valueJson "set_temp").toList),
          ("availability_topic", quote availTopic)])
      retain := false },
    makeBinarySensor id deviceInfo origin stateTopic availTopic "heating" "Heating" "heat"
      (valueJson "is_heating")] ++
  ((List.range' 1 6).map fun i =>
    makeSwitch id deviceInfo origin stateTopic availTopic ("pump" ++ toString i)
      ("Pump " ++ toString i) (valueJson ("pump" ++ toString i ++ "_on"))
      (command ("pump" ++ toString i))) ++
  ((List.range' 1 4).map fun i =>
    { topic := discoveryTopic id "light" ("light" ++ toString i)
      payload := formatObject
        (head (if i = 1 then "Spa Light" else "Spa Light " ++ toString i) ("light" ++ toString i) ++
          [("state_topic", quote stateTopic),
            ("command_topic", quote (command ("light" ++ toString i))),
            ("value_template", quote (valueJson ("light" ++ toString i)).toList),
            ("payload_on", quote "true".toList), ("payload_off", quote "false".toList),
            ("availability_topic", quote availTopic)])
      retain := false }) ++
  [{ topic := discoveryTopic id "fan" "blower"
     payload := formatObject (head "Blower" "blower" ++
        [("state_topic", quote stateTopic), ("command_topic", quote (command "blower")),
          ("payload_on", quote "true".toList), ("payload_off", quote "false".toList),
          ("availability_topic", quote availTopic)])
     retain := false },
    makeSelect id deviceInfo origin stateTopic availTopic "heat_mode" "Heat Mode"
      "[\"ready\",\"rest\",\"ready_in_rest\"]" (valueJson "heating_mode") (command "heat_mode"),
    makeSwitch id deviceInfo origin stateTopic availTopic "circulation_pump" "Circulation Pump"
      (valueJson "circ_pump") (command "circulation_pump"),
    makeSelect id deviceInfo origin stateTopic availTopic "temp_range" "Temperature Range"
      "[\"high\",\"low\"]" (valueJson "temp_range") (command "temp_range"),
    makeSwitch id deviceInfo origin stateTopic availTopic "hold_mode" "Hold Mode"
      (valueJson "hold_mode") (command "hold_mode"),
    makeSwitchOptimistic id deviceInfo origin availTopic "aux1" "AUX 1" (command "aux1"),
    makeSwitchOptimistic id deviceInfo origin availTopic "aux2" "AUX 2" (command "aux2"),
    makeSwitchOptimistic id deviceInfo origin availTopic "soak_mode" "Soak Mode"
      (command "soak_mode"),
    makeSwitchOptimistic id deviceInfo origin availTopic "normal_operation" "Normal Operation"
      (command "normal_operation"),
    makeSwitchOptimistic id deviceInfo origin availTopic "clear_notification" "Clear Notification"
      (command "clear_notification"),
    makeSwitch id deviceInfo origin stateTopic availTopic "mister" "Mister" (valueJson "mister")
      (command "mister"),
    { topic := discoveryTopic id "sensor" "fault"
      payload := formatObject (head "Last Fault" "fault" ++
        [("state_topic", quote stateTopic),
          ("value_template", quote (valueJson "last_fault").toList),
          ("availability_topic", quote availTopic)])
      retain := false },
    { topic := discoveryTopic id "sensor" "diagnostics"
      payload := formatObject (head "Diagnostics" "diagnostics" ++
        [("state_topic", quote (diagnosticsTopic id)), ("availability_topic", quote availTopic),
          ("entity_category", quote "diagnostic".toList)])
      retain := false },
    { topic := discoveryTopic id "sensor" "alert"
      payload := formatObject (head "Alert" "alert" ++
        [("state_topic", quote (alertTopic id)), ("availability_topic", quote availTopic),
          ("entity_category", quote "diagnostic".toList)])
      retain := false },
    makeSwitchOptimistic id deviceInfo origin availTopic "sniff" "Sniff Mode" (command "sniff"),
    { topic := discoveryTopic id "sensor" "firmware_version"
      payload := formatObject (head "Firmware Version" "firmware_version" ++
        [("state_topic", quote stateTopic),
          ("value_template", quote "\x7b\x7bvalue_json.firmware_version\x7d\x7d".toList),
          ("availability_topic", quote availTopic),
          ("entity_category", quote "diagnostic".toList),
          ("icon", quote "mdi:information-outline".toList)])
      retain := false },
    { topic := discoveryTopic id "button" "reboot"
      payload := formatObject (head "Reboot" "reboot" ++
        [("command_topic", quote (command "reboot")), ("payload_press", quote "ON".toList),
          ("availability_topic", quote availTopic), ("entity_category", quote "config".toList),
          ("icon", quote "mdi:restart".toList)])
      retain := false },
    { topic := discoveryTopic id "sensor" "clock"
      payload := formatObject (head "Clock" "clock" ++
        [("state_topic", quote stateTopic),
          -- The quotes in this template are escaped in the format.
          ("value_template", quote ("\x7b\x7b \\\"%02d:%02d\\\" | format(value_json.hour" ++
            "|default(0), value_json.minute|default(0)) \x7d\x7d").toList),
          ("availability_topic", quote availTopic), ("icon", quote "mdi:clock-outline".toList),
          ("entity_category", quote "diagnostic".toList)])
      retain := false },
    { topic := discoveryTopic id "text" "set_time"
      payload := formatObject (head "Set Time" "set_time" ++
        [("command_topic", quote (command "set_time")), ("availability_topic", quote availTopic),
          ("pattern", quote "^([0-9]|1[0-9]|2[0-3]):[0-5][0-9]$".toList),
          ("icon", quote "mdi:clock-edit-outline".toList),
          ("entity_category", quote "config".toList)])
      retain := false }]

/-- `DiscoveryBuilder::build`. -/
def build (self : DiscoveryBuilder) : List (List Char × List Char) :=
  self.buildMessages.map fun m => (m.topic, m.payload)

/-- `DiscoveryBuilder::build_with_retain`. -/
def buildWithRetain (self : DiscoveryBuilder) : List DiscoveryMessage :=
  self.buildMessages.map fun m => { m with retain := true }

end DiscoveryBuilder

/-! ## What the messages should say -/

/-- What a message announces: its place in the topics, its name, the end of its unique identifier,
and the members behind that. -/
structure Entity where
  component : String
  objectId : String
  name : String
  uniqueId : String
  members : List Property

/-- A word. -/
def word (name s : String) : Property := .string name s.toList

/-- A number. -/
def number (name : String) (n : ℕ) : Property := ⟨name.toList, natText n, .scalar (.number n)⟩

/-- The payloads of a switch. -/
def onOff : List Property := [word "payload_on" "true", word "payload_off" "false"]

/-- The template that shows the time. Its quotes are escaped in the format. -/
def clockTemplate : Property where
  name := "value_template".toList
  raw := quote ("\x7b\x7b \\\"%02d:%02d\\\" | format(value_json.hour" ++
    "|default(0), value_json.minute|default(0)) \x7d\x7d").toList
  value := .text ("\x7b\x7b \"%02d:%02d\" | format(value_json.hour" ++
    "|default(0), value_json.minute|default(0)) \x7d\x7d").toList

/-- The choices of a selection. -/
def options (choices : List String) : Property where
  name := "options".toList
  raw := '[' :: ([','].intercalate (choices.map fun s => '"' :: (s.toList ++ ['"'])) ++ [']'])
  value := .array (choices.map fun s => .text s.toList)

namespace DiscoveryBuilder

variable (b : DiscoveryBuilder)

/-- The device. -/
def deviceValue : Value :=
  .object [("identifiers".toList, .array [.text b.deviceId]), ("name".toList, .text b.deviceName),
    ("manufacturer".toList, .text b.manufacturer), ("model".toList, .text b.deviceModel),
    ("sw_version".toList, .text b.swVersion)]

/-- The origin. -/
def originValue : Value :=
  .object [("name".toList, .text "launa-firmware".toList), ("sw_version".toList, .text b.swVersion)]

/-- The unique identifier. -/
def uniqueIdOf (e : Entity) : List Char := b.deviceId ++ '_' :: e.uniqueId.toList

/-- The member of the device. -/
def device : Property where
  name := "device".toList
  raw := jsonDeviceBlock b.deviceId b.deviceName b.manufacturer b.deviceModel b.swVersion
  value := b.deviceValue

/-- The member of the origin. -/
def origin : Property := ⟨"origin".toList, jsonOrigin b.swVersion, b.originValue⟩

/-- The topic of the state. -/
def state : Property := .string "state_topic" (stateTopic b.deviceId)

/-- The topic of the availability. -/
def availability : Property := .string "availability_topic" (availabilityTopic b.deviceId)

/-- The topic of a command. -/
def command (name : String) : Property :=
  .string "command_topic" (commandTopic b.deviceId ++ '/' :: name.toList)

/-- The template that shows a member of the state. -/
def template (field : String) : Property := word "value_template" (valueJson field)

/-- The unit, bounds and step of the temperatures. -/
def scale : List Property × List Property :=
  if b.celsius then ([word "unit_of_measurement" "°C"],
    [number "min" 10, number "max" 40, ⟨"step".toList, "0.5".toList, .float (1 / 2)⟩])
  else ([word "unit_of_measurement" "°F"],
    [number "min" 50, number "max" 104, ⟨"step".toList, "1".toList, .scalar (.number 1)⟩])

/-- A switch that shows a member of the state. -/
def switch (objectId name field : String) : Entity :=
  ⟨"switch", objectId, name, objectId, [b.state, b.command objectId, template field] ++ onOff ++
    [b.availability]⟩

/-- A switch without a state. -/
def optimistic (objectId name : String) : Entity :=
  ⟨"switch", objectId, name, objectId, b.command objectId :: onOff ++
    [⟨"optimistic".toList, "true".toList, .scalar (.bool true)⟩, b.availability]⟩

/-- A selection. -/
def select (objectId name field : String) (choices : List String) : Entity :=
  ⟨"select", objectId, name, objectId,
    [b.state, b.command objectId, template field, options choices, b.availability]⟩

/-- A light. -/
def light (i : ℕ) : Entity :=
  { b.switch ("light" ++ toString i) (if i = 1 then "Spa Light" else "Spa Light " ++ toString i)
      ("light" ++ toString i) with component := "light" }

/-- A sensor. -/
def sensor (objectId name : String) (members : List Property) : Entity :=
  ⟨"sensor", objectId, name, objectId, members⟩

/-- What is announced. -/
def entities : List Entity :=
  [sensor "temperature" "Water Temperature" (word "device_class" "temperature" :: b.scale.1 ++
      [b.state, template "current_temp", b.availability]),
    ⟨"number", "set_temperature", "Set Temperature", "set_temp",
      word "device_class" "temperature" :: b.scale.1 ++ b.scale.2 ++
        [b.state, b.command "set_temperature", template "set_temp", b.availability]⟩,
    ⟨"binary_sensor", "heating", "Heating", "heating",
      [word "device_class" "heat", b.state, template "is_heating"] ++ onOff ++ [b.availability]⟩] ++
  ((List.range' 1 6).map fun i => b.switch ("pump" ++ toString i) ("Pump " ++ toString i)
    ("pump" ++ toString i ++ "_on")) ++
  (List.range' 1 4).map b.light ++
  [⟨"fan", "blower", "Blower", "blower", [b.state, b.command "blower"] ++ onOff ++
      [b.availability]⟩,
    b.select "heat_mode" "Heat Mode" "heating_mode" ["ready", "rest", "ready_in_rest"],
    b.switch "circulation_pump" "Circulation Pump" "circ_pump",
    b.select "temp_range" "Temperature Range" "temp_range" ["high", "low"],
    b.switch "hold_mode" "Hold Mode" "hold_mode",
    b.optimistic "aux1" "AUX 1",
    b.optimistic "aux2" "AUX 2",
    b.optimistic "soak_mode" "Soak Mode",
    b.optimistic "normal_operation" "Normal Operation",
    b.optimistic "clear_notification" "Clear Notification",
    b.switch "mister" "Mister" "mister",
    sensor "fault" "Last Fault" [b.state, template "last_fault", b.availability],
    sensor "diagnostics" "Diagnostics" [.string "state_topic" (diagnosticsTopic b.deviceId),
      b.availability, word "entity_category" "diagnostic"],
    sensor "alert" "Alert" [.string "state_topic" (alertTopic b.deviceId), b.availability,
      word "entity_category" "diagnostic"],
    b.optimistic "sniff" "Sniff Mode",
    sensor "firmware_version" "Firmware Version" [b.state,
      word "value_template" "\x7b\x7bvalue_json.firmware_version\x7d\x7d", b.availability,
      word "entity_category" "diagnostic", word "icon" "mdi:information-outline"],
    ⟨"button", "reboot", "Reboot", "reboot", [b.command "reboot", word "payload_press" "ON",
      b.availability, word "entity_category" "config", word "icon" "mdi:restart"]⟩,
    sensor "clock" "Clock" [b.state, clockTemplate, b.availability,
      word "icon" "mdi:clock-outline", word "entity_category" "diagnostic"],
    ⟨"text", "set_time", "Set Time", "set_time", [b.command "set_time", b.availability,
      word "pattern" "^([0-9]|1[0-9]|2[0-3]):[0-5][0-9]$", word "icon" "mdi:clock-edit-outline",
      word "entity_category" "config"]⟩]

/-- The members of a payload. -/
def properties (e : Entity) : List Property :=
  [b.device, b.origin, .string "name" e.name.toList, .string "unique_id" (b.uniqueIdOf e)] ++
    e.members

/-- What a payload should be read as. -/
def value (e : Entity) : Value := .object ((b.properties e).map fun p => (p.name, p.value))

/-- The message of what is announced. -/
def message (e : Entity) : DiscoveryMessage where
  topic := discoveryTopic b.deviceId e.component e.objectId
  payload := printProperties (b.properties e)
  retain := false

/-- A message has the place of what it announces, and is JSON for it with different names at each
level. -/
structure Announces (b : DiscoveryBuilder) (m : List Char × List Char) (e : Entity) : Prop where
  topic : m.1 = discoveryTopic b.deviceId e.component e.objectId
  spells : SpellsValue m.2 (b.value e)
  distinct : (b.value e).Distinct

/-- The messages announce all that they should, under different topics and with different unique
identifiers. -/
structure WellFormed (b : DiscoveryBuilder) (messages : List (List Char × List Char)) : Prop where
  announces : List.Forall₂ b.Announces messages b.entities
  topics : (messages.map Prod.fst).Nodup
  uniqueIds : (b.entities.map b.uniqueIdOf).Nodup

/-- The messages are those of what is announced. -/
theorem buildMessages_eq : b.buildMessages = b.entities.map b.message := by
  obtain ⟨id, name, model, version, manufacturer, celsius⟩ := b
  cases celsius with
  | true => rfl
  | false => rfl

/-! ## The payloads of a device identifier without escapes -/

/-- A plain name and a legal value make a legal property. -/
theorem legal_of {name : String} {raw : List Char} {value : Value}
    (hname : name.toList.all isPlain = true) (h : SpellsValue raw value) :
    (⟨name.toList, raw, value⟩ : Property).Legal := ⟨hname, h⟩

/-- A text that is escaped is spelled as JSON has it. -/
theorem legal_escaped {name : String} (hname : name.toList.all isPlain = true) (s : List Char) :
    (⟨name.toList, quote (escapeJsonString s), .text s⟩ : Property).Legal :=
  legal_of hname (spellsValue_body (escapedBody s))

/-- The device block is spelled as JSON has it, whatever its texts are. -/
theorem legal_device : b.device.Legal := by
  have hid : SpellsValue ('[' :: (quote (escapeJsonString b.deviceId) ++ [']']))
      (.array [.text b.deviceId]) := by
    have h := spellsValue_texts [escapedBody b.deviceId]
    rwa [List.map_singleton, List.map_singleton, List.intercalate_singleton] at h
  refine legal_of (by decide) ?_
  refine @spells_printProperties [⟨"identifiers".toList, _, _⟩, ⟨"name".toList, _, _⟩,
    ⟨"manufacturer".toList, _, _⟩, ⟨"model".toList, _, _⟩, ⟨"sw_version".toList, _, _⟩] ?_
  simp only [List.forall_mem_cons]
  exact ⟨legal_of (by decide) hid, legal_escaped (by decide) _,
    legal_escaped (by decide) _, legal_escaped (by decide) _,
    legal_escaped (by decide) _, fun p hp => by cases hp⟩

/-- The origin is legal. -/
theorem legal_origin : b.origin.Legal := by
  refine legal_of (by decide) ?_
  refine @spells_printProperties [.string "name" "launa-firmware".toList,
    ⟨"sw_version".toList, _, _⟩] ?_
  simp only [List.forall_mem_cons]
  exact ⟨Property.legal_string (by decide) (by decide), legal_escaped (by decide) _,
    fun p hp => by cases hp⟩

/-- A word whose characters are plain, and so are those of its name. -/
theorem legal_word {name s : String} (h : (name ++ s).toList.all isPlain = true) :
    (word name s).Legal := by
  rw [String.toList_append, List.all_append, Bool.and_eq_true] at h
  exact Property.legal_string h.1 h.2

/-- A number is legal. -/
theorem legal_number {name : String} (hname : name.toList.all isPlain = true) (n : ℕ) :
    (number name n).Legal := legal_of hname (spellsValue_nat n)

/-- The payloads of a switch are legal. -/
theorem legal_onOff : ∀ p ∈ onOff, p.Legal := by
  unfold onOff
  simp only [List.forall_mem_cons]
  exact ⟨legal_word (by decide), legal_word (by decide), fun p hp => by cases hp⟩

/-- The template of the clock is legal. -/
theorem legal_clockTemplate : clockTemplate.Legal := by
  have hspells : ∀ raw text, unescape raw = some text →
      SpellsValue (quote raw) (.text text) := fun raw text h =>
    spellsValue_body ⟨raw, text, spells_of_unescape h⟩
  exact legal_of (by decide) (hspells _ _ (by decide +kernel))

/-- Plain choices are legal. -/
theorem legal_options {choices : List String}
    (h : ∀ s ∈ choices, s.toList.all isPlain = true) : (options choices).Legal := by
  have hspells := spellsValue_texts (choices.pmap (fun s hs => Body.plain s.toList hs) h)
  rw [List.map_pmap, List.map_pmap] at hspells
  refine legal_of (by decide) ?_
  rw [← List.pmap_eq_map (H := h), ← List.pmap_eq_map (H := h)]
  exact hspells

/-- What depends on the scale is legal. -/
theorem legal_scale :
    (∀ p ∈ b.scale.1, p.Legal) ∧ ∀ p ∈ b.scale.2, p.Legal := by
  have hstep : ∀ raw value, numberValue raw = some value →
      (⟨"step".toList, raw, .ofScalar raw (.number value)⟩ : Property).Legal :=
    fun raw value h => legal_of (by decide) (.scalar (.number h))
  unfold scale
  split
  · simp only [List.forall_mem_cons]
    exact ⟨⟨legal_word (by decide), fun p hp => by cases hp⟩,
      legal_number (by decide) 10, legal_number (by decide) 40,
      hstep _ _ (by decide +kernel), fun p hp => by cases hp⟩
  · simp only [List.forall_mem_cons]
    exact ⟨⟨legal_word (by decide), fun p hp => by cases hp⟩,
      legal_number (by decide) 50, legal_number (by decide) 104,
      hstep _ _ (by decide +kernel), fun p hp => by cases hp⟩

section Plain

variable {b : DiscoveryBuilder} (hid : b.deviceId.all isPlain = true)
include hid

/-- A topic of a device identifier without escapes. -/
theorem legal_topic {name : String} {cs : List Char}
    (h : (name.toList ++ cs).all isPlain = true) :
    (Property.string name (baseTopic ++ '/' :: (b.deviceId ++ cs))).Legal := by
  rw [List.all_append, Bool.and_eq_true] at h
  have hbase : (baseTopic ++ ['/']).all isPlain = true := by decide
  have htopic : (baseTopic ++ '/' :: (b.deviceId ++ cs)).all isPlain = true := by
    rw [List.append_cons, List.all_append, hbase, List.all_append, hid, h.2]
    rfl
  exact Property.legal_string h.1 htopic

/-- The topic of the state is legal. -/
theorem legal_state : b.state.Legal := legal_topic hid (by decide)

/-- The topic of the availability is legal. -/
theorem legal_availability : b.availability.Legal := legal_topic hid (by decide)

/-- The topic of a command is legal. -/
theorem legal_command {name : String} (h : name.toList.all isPlain = true) :
    (b.command name).Legal := by
  have hcommand : commandTopic b.deviceId ++ '/' :: name.toList =
      baseTopic ++ '/' :: (b.deviceId ++ ("/command/".toList ++ name.toList)) := by
    have hslash : "/command/".toList = "/command".toList ++ ['/'] := by decide
    rw [commandTopic, hslash]
    simp only [List.append_assoc, List.cons_append, List.nil_append]
  rw [command, hcommand]
  refine legal_topic hid ?_
  rw [List.all_append, List.all_append, h]
  decide

/-- The members of a switch. -/
theorem legal_switch {objectId name field : String} (hobject : objectId.toList.all isPlain = true)
    (hfield : ("value_template" ++ valueJson field).toList.all isPlain = true) :
    ∀ p ∈ (b.switch objectId name field).members, p.Legal := by
  unfold switch
  simp only [List.forall_mem_append, List.forall_mem_cons]
  exact ⟨⟨⟨legal_state hid, legal_command hid hobject, legal_word hfield, fun p hp => by cases hp⟩,
    legal_onOff⟩, legal_availability hid, fun p hp => by cases hp⟩

/-- The members of a switch without a state. -/
theorem legal_optimistic {objectId name : String} (hobject : objectId.toList.all isPlain = true) :
    ∀ p ∈ (b.optimistic objectId name).members, p.Legal := by
  unfold optimistic
  simp only [List.forall_mem_append, List.forall_mem_cons]
  exact ⟨⟨legal_command hid hobject, legal_onOff⟩, legal_of (by decide) (.scalar .isTrue),
    legal_availability hid, fun p hp => by cases hp⟩

/-- The members of a selection. -/
theorem legal_select {objectId name field : String} {choices : List String}
    (hobject : objectId.toList.all isPlain = true)
    (hfield : ("value_template" ++ valueJson field).toList.all isPlain = true)
    (hchoices : ∀ s ∈ choices, s.toList.all isPlain = true) :
    ∀ p ∈ (b.select objectId name field choices).members, p.Legal := by
  unfold select
  simp only [List.forall_mem_cons]
  exact ⟨legal_state hid, legal_command hid hobject, legal_word hfield, legal_options hchoices,
    legal_availability hid, fun p hp => by cases hp⟩

/-- The members of all that is announced. -/
theorem legal_entities : ∀ e ∈ b.entities, ∀ p ∈ e.members, p.Legal := by
  have hnil : ∀ p ∈ ([] : List Property), p.Legal := fun p hp => by cases hp
  have hstate := legal_state hid
  have havail := legal_availability hid
  have hcommand {name : String} (h : name.toList.all isPlain = true) := legal_command hid h
  obtain ⟨hunit, hbounds⟩ := legal_scale b
  have hdiagnostic : (word "entity_category" "diagnostic").Legal := legal_word (by decide)
  have hconfig : (word "entity_category" "config").Legal := legal_word (by decide)
  have hpumps : ∀ i ∈ List.range' 1 6, ("pump" ++ toString i).toList.all isPlain = true ∧
      ("value_template" ++ valueJson ("pump" ++ toString i ++ "_on")).toList.all isPlain =
        true := by
    decide
  have hlights : ∀ i ∈ List.range' 1 4, ("light" ++ toString i).toList.all isPlain = true ∧
      ("value_template" ++ valueJson ("light" ++ toString i)).toList.all isPlain = true := by
    decide
  unfold entities
  simp only [sensor, List.forall_mem_append, List.forall_mem_cons, List.forall_mem_map]
  exact ⟨⟨⟨⟨⟨⟨legal_word (by decide), hunit⟩, hstate, legal_word (by decide), havail,
        hnil⟩,
      ⟨⟨⟨legal_word (by decide), hunit⟩, hbounds⟩, hstate, hcommand (by decide),
        legal_word (by decide), havail, hnil⟩,
      ⟨⟨⟨legal_word (by decide), hstate, legal_word (by decide), hnil⟩, legal_onOff⟩,
        havail, hnil⟩, fun e he => by cases he⟩,
    fun i hi => legal_switch hid (hpumps i hi).1 (hpumps i hi).2⟩,
    fun i hi => @legal_switch b hid _ "Spa Light" _ (hlights i hi).1 (hlights i hi).2⟩,
    ⟨⟨⟨hstate, hcommand (by decide), hnil⟩, legal_onOff⟩, havail, hnil⟩,
    legal_select hid (by decide) (by decide) (by decide),
    legal_switch hid (by decide) (by decide),
    legal_select hid (by decide) (by decide) (by decide),
    legal_switch hid (by decide) (by decide),
    legal_optimistic hid (by decide), legal_optimistic hid (by decide),
    legal_optimistic hid (by decide), legal_optimistic hid (by decide),
    legal_optimistic hid (by decide),
    legal_switch hid (by decide) (by decide),
    ⟨hstate, legal_word (by decide), havail, hnil⟩,
    ⟨legal_topic hid (by decide), havail, hdiagnostic, hnil⟩,
    ⟨legal_topic hid (by decide), havail, hdiagnostic, hnil⟩,
    legal_optimistic hid (by decide),
    ⟨hstate, legal_word (by decide), havail, hdiagnostic, legal_word (by decide),
      hnil⟩,
    ⟨hcommand (by decide), legal_word (by decide), havail, hconfig,
      legal_word (by decide), hnil⟩,
    ⟨hstate, legal_clockTemplate, havail, legal_word (by decide), hdiagnostic, hnil⟩,
    ⟨hcommand (by decide), havail, legal_word (by decide),
      legal_word (by decide), hconfig, hnil⟩,
    fun e he => by cases he⟩

end Plain

/-! ## Names and places -/

/-- Where something is announced, and its texts in the payload. -/
def key (e : Entity) : (String × String) × String × String :=
  ((e.component, e.objectId), e.name, e.uniqueId)

/-- These do not depend on the device. -/
theorem map_key_entities : b.entities.map key = (new []).entities.map key := rfl

/-- An entity has the key of one that does not depend on the device. -/
theorem exists_key {e : Entity} (he : e ∈ b.entities) : key e ∈ (new []).entities.map key := by
  rw [← b.map_key_entities]
  exact List.mem_map_of_mem he

/-- The names need no escapes, no slash stands in a component, and the places and the ends of the
unique identifiers differ. -/
theorem keys_spec : (∀ k ∈ (new []).entities.map key, k.2.1.toList.all isPlain = true ∧
      k.2.2.toList.all isPlain = true ∧ '/' ∉ k.1.1.toList) ∧
    (((new []).entities.map key).map fun k => (k.1.1.toList, k.1.2.toList)).Nodup ∧
    (((new []).entities.map key).map fun k => k.2.2.toList).Nodup := by
  decide +kernel

/-- The names of an entity are plain and have no slash. -/
theorem legal_key {e : Entity} (he : e ∈ b.entities) : e.name.toList.all isPlain = true ∧
    e.uniqueId.toList.all isPlain = true ∧ '/' ∉ e.component.toList :=
  keys_spec.1 _ (b.exists_key he)

/-- The members of each have different names. -/
theorem nodup_names {e : Entity} (he : e ∈ b.entities) :
    ((b.properties e).map Property.name).Nodup := by
  -- Of the builder only the scale matters for the names.
  have hnames : b.entities.map (fun e => (b.properties e).map Property.name) =
      ({ new [] with celsius := b.celsius }).entities.map
        (fun e => ((new []).properties e).map Property.name) := by
    obtain ⟨id, name, model, version, manufacturer, celsius⟩ := b
    cases celsius with
    | true => rfl
    | false => rfl
  have hall : ∀ celsius, ∀ names ∈ ({ new [] with celsius := celsius }).entities.map
      (fun e => ((new []).properties e).map Property.name), names.Nodup := by decide +kernel
  refine hall b.celsius _ ?_
  rw [← hnames]
  exact List.mem_map_of_mem he

/-- The values of the members hold no objects. -/
theorem isFlat_members {e : Entity} (he : e ∈ b.entities) :
    ∀ p ∈ e.members, p.value.isFlat = true := by
  have hall : (b.entities.all fun e => e.members.all fun p => p.value.isFlat) = true := by
    obtain ⟨id, name, model, version, manufacturer, celsius⟩ := b
    cases celsius with
    | true => rfl
    | false => rfl
  exact List.all_eq_true.1 (List.all_eq_true.1 hall e he)

/-- No object in a payload should have two members of one name. -/
theorem distinct_value {e : Entity} (he : e ∈ b.entities) : (b.value e).Distinct := by
  have hdevice : b.deviceValue.Distinct := by
    have hnames : (["identifiers", "name", "manufacturer", "model", "sw_version"].map
        String.toList).Nodup := by decide
    exact .of_flat hnames (by simp [Value.isFlat, Value.text])
  have horigin : b.originValue.Distinct := by
    have hnames : (["name", "sw_version"].map String.toList).Nodup := by decide
    exact .of_flat hnames (by simp [Value.isFlat, Value.text])
  have hnames := b.nodup_names he
  refine .object (by rwa [List.map_map]) fun m hm => ?_
  obtain ⟨p, hp, rfl⟩ := List.mem_map.1 hm
  unfold properties at hp
  -- Only the device and the origin are objects themselves.
  rcases List.mem_append.1 hp with hp | hp
  · simp only [List.mem_cons, List.not_mem_nil, or_false] at hp
    rcases hp with rfl | rfl | rfl | rfl
    · exact hdevice
    · exact horigin
    · exact .scalar _
    · exact .scalar _
  · exact .of_isFlat (b.isFlat_members he p hp)

/-- The place in the topics of a discovery tells what is announced. -/
theorem discoveryTopic_injective {deviceId : List Char} {c c' o o' : String}
    (hc : '/' ∉ c.toList) (hc' : '/' ∉ c'.toList)
    (h : discoveryTopic deviceId c o = discoveryTopic deviceId c' o') :
    (c.toList, o.toList) = (c'.toList, o'.toList) := by
  have htake : ∀ {c : String} (rest : List Char), '/' ∉ c.toList →
      (c.toList ++ '/' :: rest).takeWhile (fun x => decide (x ≠ '/')) = c.toList := by
    intro c rest hc
    refine TextSearch.takeWhile_append_of_stop (fun x hx => decide_eq_true ?_) ?_
    · exact fun heq => hc (heq ▸ hx)
    · intro y hy
      cases hy
      exact decide_eq_false fun hne => hne rfl
  have hrest := List.append_cancel_left h
  have hcomponent : c.toList = c'.toList := by
    rw [← htake _ hc, hrest, htake _ hc']
  rw [hcomponent] at hrest
  have hobject := (List.cons.inj (List.append_cancel_left hrest)).2
  have hobject' := List.append_cancel_right (List.cons.inj (List.append_cancel_left hobject)).2
  rw [hcomponent, hobject']

/-- What tells more apart than a map without repetitions has none either. -/
theorem nodup_map_of_nodup_map {α β γ : Type} {f : α → β} {g : α → γ} {l : List α}
    (hg : (l.map g).Nodup) (h : ∀ x ∈ l, ∀ y ∈ l, f x = f y → g x = g y) : (l.map f).Nodup :=
  (hg.of_map g).map_on fun x hx y hy heq => List.inj_on_of_nodup_map hg hx hy (h x hx y hy heq)

/-- The topics differ, whatever the device identifier is. -/
theorem nodup_topics : (b.entities.map fun e =>
    discoveryTopic b.deviceId e.component e.objectId).Nodup := by
  have hkeys := keys_spec.2.1
  rw [← b.map_key_entities, List.map_map] at hkeys
  have hinj : ∀ e ∈ b.entities, ∀ e' ∈ b.entities,
      discoveryTopic b.deviceId e.component e.objectId =
        discoveryTopic b.deviceId e'.component e'.objectId →
      (e.component.toList, e.objectId.toList) = (e'.component.toList, e'.objectId.toList) :=
    fun e he e' he' h =>
      discoveryTopic_injective (b.legal_key he).2.2 (b.legal_key he').2.2 h
  exact nodup_map_of_nodup_map hkeys hinj

/-- The unique identifiers differ. -/
theorem nodup_uniqueIds : (b.entities.map b.uniqueIdOf).Nodup := by
  have hkeys := keys_spec.2.2
  rw [← b.map_key_entities, List.map_map] at hkeys
  have hinj : ∀ e ∈ b.entities, ∀ e' ∈ b.entities, b.uniqueIdOf e = b.uniqueIdOf e' →
      e.uniqueId.toList = e'.uniqueId.toList :=
    fun e _ e' _ h => (List.cons.inj (List.append_cancel_left h)).2
  exact nodup_map_of_nodup_map hkeys hinj

/-! ## Which device identifiers are announced -/

/-- What is announced is spelled as JSON has it. -/
theorem announces_message (hid : b.deviceId.all isPlain = true) {e : Entity}
    (he : e ∈ b.entities) : b.Announces ((b.message e).topic, (b.message e).payload) e := by
  obtain ⟨hname, huniqueId, -⟩ := b.legal_key he
  have hunique : (b.uniqueIdOf e).all isPlain = true := by
    rw [uniqueIdOf, List.all_append, hid, List.all_cons, huniqueId]
    rfl
  refine ⟨rfl, spells_printProperties ?_, b.distinct_value he⟩
  unfold properties
  simp only [List.forall_mem_append, List.forall_mem_cons]
  exact ⟨⟨b.legal_device, b.legal_origin, Property.legal_string (by decide) hname,
    Property.legal_string (by decide) hunique, fun p hp => by cases hp⟩,
    legal_entities hid e he⟩

/-- A device identifier is announced without escapes only. -/
theorem all_isPlain_of_announces {m : List Char × List Char} {e : Entity} (he : e ∈ b.entities)
    (hm : m.2 = (b.message e).payload) (h : b.Announces m e) : b.deviceId.all isPlain = true := by
  obtain ⟨hname, huniqueId, -⟩ := b.legal_key he
  have hspells := h.spells
  rw [hm] at hspells
  -- What stands before the unique identifier is JSON, so it is read from its first quote on.
  have hhead : ∀ p ∈ [b.device, b.origin, .string "name" e.name.toList], p.Legal := by
    simp only [List.forall_mem_cons]
    exact ⟨b.legal_device, b.legal_origin, Property.legal_string (by decide) hname,
      fun p hp => by cases hp⟩
  have hid : "unique_id".toList.all isPlain = true := by decide
  obtain ⟨fuel, cs, rest, hread⟩ :=
    readBody_of_printProperties (List.cons_ne_nil _ _) hhead hid hspells
  have hplain : (b.uniqueIdOf e).all isPlain = true := by
    refine all_isPlain_of_readBody hread fun hlast => ?_
    rw [uniqueIdOf, List.getLast?_append, List.getLast?_cons, Option.some_or, ← List.getLast?_cons]
      at hlast
    rcases List.mem_cons.1 (List.mem_of_getLast? hlast) with hmem | hmem
    · exact absurd hmem (by decide)
    · exact absurd (List.all_eq_true.1 huniqueId _ hmem) (by decide)
  rw [uniqueIdOf, List.all_append, Bool.and_eq_true] at hplain
  exact hplain.1

/-- Every entity has a message, with its topic and payload. -/
theorem build_eq : b.build =
    b.entities.map fun e => ((b.message e).topic, (b.message e).payload) := by
  rw [build, buildMessages_eq, List.map_map]
  rfl

/-- The messages of a device identifier without escapes are well formed. -/
theorem wellFormed_build (hid : b.deviceId.all isPlain = true) : b.WellFormed b.build := by
  refine ⟨?_, ?_, b.nodup_uniqueIds⟩
  · rw [build_eq, List.forall₂_map_left_iff, List.forall₂_same]
    exact fun e he => b.announces_message hid he
  · rw [build_eq, List.map_map]
    exact b.nodup_topics

/-- Well-formed messages are of a device identifier without escapes. -/
theorem all_isPlain_of_wellFormed (h : b.WellFormed b.build) :
    b.deviceId.all isPlain = true := by
  have hannounces := h.announces
  rw [build_eq, List.forall₂_map_left_iff, List.forall₂_same] at hannounces
  obtain ⟨e, he⟩ := List.exists_mem_of_ne_nil b.entities (by simp [entities])
  exact b.all_isPlain_of_announces he rfl (hannounces e he)

/-- The messages, retained or not, are well formed exactly if the device identifier needs no escapes
in JSON. -/
theorem wellFormed_iff (b : DiscoveryBuilder) :
    (b.WellFormed b.build ∧
      b.WellFormed (b.buildWithRetain.map fun m => (m.topic, m.payload))) ↔
        b.deviceId.all isPlain = true := by
  have hretain : (b.buildWithRetain.map fun m => (m.topic, m.payload)) = b.build := by
    rw [buildWithRetain, build, List.map_map]
    rfl
  rw [hretain, and_self]
  exact ⟨b.all_isPlain_of_wellFormed, b.wellFormed_build⟩

/-- A quote in the device identifier ends the unique identifiers. -/
theorem not_wellFormed_quote : ¬∀ b : DiscoveryBuilder, b.WellFormed b.build := fun h =>
  absurd ((new ['a', '"', 'b']).all_isPlain_of_wellFormed (h _)) (by decide)

end DiscoveryBuilder

end Launa.Mqtt
