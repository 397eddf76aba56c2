import Launa.Lib.Rounding
import Launa.Ota.Http
import Launa.Protocol.Command
import Launa.Protocol.Status

/-!
# The command parser

What `command_parser.rs` makes of a message: the sub-topic is checked against the allowed ones, and
its payload is read as a toggle, a number of minutes, a temperature, a time or a preference. A text
is the list of its characters. A rejected payload is told by the reason for it, of which the log has
the text. The numbers that `str::parse` reads as an `f32` are rounded by a `Rounding`.
-/

namespace Launa.Mqtt

open Ota Protocol

/-! ## 32-bit floats -/

/-- An `f32`. -/
inductive F32 where
  | finite (value : ℚ)
  | infinity (negative : Bool)
  | nan
  deriving DecidableEq

namespace F32

/-- The value of some decimal digits. -/
def digitsValue (digits : List Char) :
    ℕ := digits.foldl (fun n c => n * 10 + (c.toNat - '0'.toNat)) 0

/-- The exponent after an `e`, with a sign or without. -/
def parseExponent (cs : List Char) : Option ℤ :=
  let (negative, digits) := match cs with
    | '-' :: rest => (true, rest)
    | '+' :: rest => (false, rest)
    | rest => (false, rest)
  if digits.isEmpty || !digits.all Char.isDigit then none
  else some (if negative then -(digitsValue digits : ℤ) else digitsValue digits)

/-- A decimal number without a sign: digits, which may have a point before, between or after them,
and an exponent. -/
def parseDecimal (cs : List Char) : Option ℚ := do
  let whole := cs.takeWhile Char.isDigit
  let rest := cs.dropWhile Char.isDigit
  let (fraction, rest) := match rest with
    | '.' :: rest => (rest.takeWhile Char.isDigit, rest.dropWhile Char.isDigit)
    | rest => ([], rest)
  if whole.isEmpty && fraction.isEmpty then none
  let exponent ← match rest with
    | [] => some 0
    | 'e' :: rest => parseExponent rest
    | _ => none
  return digitsValue (whole ++ fraction) * (10 : ℚ)^(exponent - fraction.length)

/-- `f32::from_str`: a number, an infinity or `nan`, in letters of either case. -/
def parse (r : Rounding) (cs : List Char) : Option F32 :=
  let (negative, rest) := match cs with
    | '-' :: rest => (true, rest)
    | '+' :: rest => (false, rest)
    | rest => (false, rest)
  let lower := rest.map Char.toLower
  if lower = "nan".toList then some nan
  else if lower = "inf".toList ∨ lower = "infinity".toList then some (infinity negative)
  else (parseDecimal lower).map fun value =>
    finite (if negative then -r.round value else r.round value)

/-- The sum with a constant. -/
def add (r : Rounding) (x : F32) (y : ℚ) : F32 :=
  match x with
  | finite value => finite (r.round (value + y))
  | x => x

/-- The product with a positive constant. -/
def mul (r : Rounding) (x : F32) (y : ℚ) : F32 :=
  match x with
  | finite value => finite (r.round (value * y))
  | x => x

/-- `as u8`: the whole part, or the nearest end of the range; zero for `nan`. -/
def toU8 : F32 → UInt8
  | finite value => UInt8.ofNat (min ⌊value⌋.toNat 255)
  | infinity negative => if negative then 0 else 255
  | nan => 0

/-- A number is converted to at most `n` when its whole part is, short of the end of the range. -/
theorem toU8_finite_le {value : ℚ} {n : UInt8} (hn : n < 255) :
    (finite value).toU8 ≤ n ↔ value < n.toNat + 1 := by
  have hlt : n.toNat < 255 := UInt8.lt_iff_toNat_lt.1 hn
  have hnat : (finite value).toU8.toNat = min ⌊value⌋.toNat 255 := by
    rw [toU8, UInt8.toNat_ofNat']
    exact Nat.mod_eq_of_lt (by omega)
  have hfloor : ⌊value⌋ < n.toNat + 1 ↔ value < n.toNat + 1 := by
    rw [Int.floor_lt]
    push_cast
    exact Iff.rfl
  rw [UInt8.le_iff_toNat_le, hnat, ← hfloor]
  omega

end F32

/-! ## Fields of a JSON text -/

/-- The text after the first occurrence of a pattern. -/
def afterPattern (pattern : List Char) : List Char → Option (List Char)
  | [] => if pattern.isEmpty then some [] else none
  | c :: cs =>
    if pattern.isPrefixOf (c :: cs) then some ((c :: cs).drop pattern.length)
    else afterPattern pattern cs

/-- The text after a key and the white space behind it. -/
def afterKey (json key : List Char) : Option (List Char) :=
  (afterPattern ('"' :: key ++ ['"', ':']) json).map (List.dropWhile isWhitespace)

/-- `extract_json_string`. -/
def extractJsonString (json key : List Char) : Option (List Char) := do
  let rest ← afterKey json key
  match rest with
  | '"' :: inner => if '"' ∈ inner then some (inner.takeWhile (· ≠ '"')) else none
  | _ => none

/-- `extract_json_number`. -/
def extractJsonNumber (json key : List Char) : Option ℕ := do
  let rest ← afterKey json key
  fromStrRadix 10 (2^8) (rest.takeWhile Char.isDigit)

/-- `extract_json_bool`. -/
def extractJsonBool (json key : List Char) : Option Bool := do
  let rest ← afterKey json key
  if "true".toList.isPrefixOf rest then some true
  else if "false".toList.isPrefixOf rest then some false
  else none

/-! ## Commands -/

/-- The allowed sub-topics. -/
def allowedSubtopics : List (List Char) :=
  ["pump1", "pump2", "pump3", "pump4", "pump5", "pump6", "pump1_timer", "pump2_timer",
    "pump3_timer", "pump4_timer", "pump5_timer", "pump6_timer", "light1", "light2", "light3",
    "light4", "blower", "mister", "circulation_pump", "aux1", "aux2", "heat_mode", "temp_range",
    "hold_mode", "soak_mode", "normal_operation", "clear_notification", "set_temperature",
    "set_time", "set_preference"].map String.toList

/-- Why a payload is rejected. -/
inductive PayloadError where
  | notUtf8
  | empty
  | notANumber (payload : List Char)
  | notRepresentable (payload : List Char)
  | timerMinutes (minutes : ℕ)
  | timeOutOfRange (hour minute : ℕ)
  | setTime (payload : List Char)
  | setTimeJson (payload : List Char)
  | setPreference (payload : List Char)
  | setPreferenceJson (payload : List Char)
  | preferenceName (name : List Char)
  | preferenceValue (value : List Char)
  deriving DecidableEq, Repr

/-- What is parsed of a message. -/
inductive ParseResult where
  | valid (cmd : Command)
  | temperatureOutOfRange (rawValue : UInt8) (error : TempError)
  | unknownSubtopic (topic : List Char)
  | invalidPayload (error : PayloadError)
  | timerPump (minutes : UInt32) (pumpIndex : UInt8)
  deriving DecidableEq, Repr

/-- `parse_toggle`. -/
def parseToggle (payload : List Char) (item : ToggleItem) : ParseResult :=
  if payload.isEmpty then .invalidPayload .empty else .valid (.toggleItem item)

/-- `parse_pump_timer`. -/
def parsePumpTimer (payload : List Char) (pumpIndex : UInt8) : ParseResult :=
  match fromStrRadix 10 (2^32) payload with
  | some minutes =>
    if minutes > 0 ∧ minutes ≤ 120 then .timerPump (UInt32.ofNat minutes) pumpIndex
    else .invalidPayload (.timerMinutes minutes)
  | none => .invalidPayload (.notANumber payload)

/-- `parse_set_temperature`. -/
def parseSetTemperature (r : Rounding) (payload : List Char) : ParseResult :=
  match F32.parse r payload with
  | none => .invalidPayload (.notANumber payload)
  | some (.finite t) =>
    if 0 ≤ t ∧ t ≤ 255 then
      let temp := ((F32.finite t).add r (1 / 2)).toU8
      if temp = 0 then .temperatureOutOfRange 0 .belowMin
      else if temp > absoluteMaxTempF then .temperatureOutOfRange temp .aboveAbsoluteLimit
      else .valid (.setTemperature temp)
    else .invalidPayload (.notRepresentable payload)
  | some _ => .invalidPayload (.notRepresentable payload)

/-- `validate_time`. -/
def validateTime (hour minute : ℕ) (is24h : Bool) : ParseResult :=
  if hour > 23 ∨ minute > 59 then .invalidPayload (.timeOutOfRange hour minute)
  else .valid (.setTime (UInt8.ofNat hour) (UInt8.ofNat minute) is24h)

/-- `parse_set_time`. -/
def parseSetTime (payload : List Char) : ParseResult :=
  let trimmed := trim payload
  if trimmed.head? = some '{' then
    let is24h := (extractJsonBool trimmed "is_24h".toList).getD false
    match extractJsonNumber trimmed "hour".toList, extractJsonNumber trimmed "minute".toList with
    | some hour, some minute => validateTime hour minute is24h
    | _, _ => .invalidPayload (.setTimeJson payload)
  else
    match trimmed.splitOn ':' with
    | [hour, minute] =>
      match fromStrRadix 10 (2^8) (trim hour), fromStrRadix 10 (2^8) (trim minute) with
      | some hour, some minute => validateTime hour minute false
      | _, _ => .invalidPayload (.setTime payload)
    | _ => .invalidPayload (.setTime payload)

/-- The code of a named preference. -/
def preferenceCode (name : List Char) : Option UInt8 :=
  if name = "reminders".toList then some preferenceReminders
  else if name = "temperature_scale".toList then some preferenceTemperatureScale
  else if name = "clock_mode".toList then some preferenceClockMode
  else if name = "cleanup_cycle".toList then some preferenceCleanupCycle
  else if name = "m8_ai".toList then some preferenceM8Ai
  else none

/-- The value of a preference, by name or as a number. -/
def preferenceValue (value : List Char) : Option ℕ :=
  if value ∈ ["12h", "fahrenheit", "off", "no"].map String.toList then some 0
  else if value ∈ ["24h", "celsius", "on", "yes"].map String.toList then some 1
  else fromStrRadix 10 (2^8) value

/-- `parse_set_preference`. -/
def parseSetPreference (payload : List Char) : ParseResult :=
  let trimmed := trim payload
  if trimmed.head? ≠ some '{' then .invalidPayload (.setPreference payload)
  else
    match extractJsonString trimmed "name".toList with
    | some name =>
      let valueStr := (extractJsonString trimmed "value".toList).getD []
      match preferenceCode name with
      | none => .invalidPayload (.preferenceName name)
      | some code =>
        match preferenceValue valueStr with
        | some value => .valid (.setPreference code (UInt8.ofNat value))
        | none => .invalidPayload (.preferenceValue valueStr)
    | none =>
      match extractJsonNumber trimmed "code".toList, extractJsonNumber trimmed "value".toList with
      | some code, some value => .valid (.setPreference (UInt8.ofNat code) (UInt8.ofNat value))
      | _, _ => .invalidPayload (.setPreferenceJson payload)

/-- The number in a sub-topic, if it is from 1 to `max`. -/
def subtopicNumber (bound max : ℕ) (digits : List Char) : Option ℕ :=
  (fromStrRadix 10 bound digits).filter fun n => 1 ≤ n ∧ n ≤ max

/-- The item that a sub-topic toggles, other than the pumps and lights. -/
def toggleSubtopics : List (List Char × ToggleItem) :=
  [("blower".toList, .blower), ("mister".toList, .mister),
    ("circulation_pump".toList, .circulationPump), ("aux1".toList, .aux1), ("aux2".toList, .aux2),
    ("heat_mode".toList, .heatingMode),
    ("temp_range".toList, .temperatureRange), ("hold_mode".toList, .holdMode),
    ("soak_mode".toList, .soakMode), ("normal_operation".toList, .normalOperation),
    ("clear_notification".toList, .clearNotification)]

/-- `parse_command` of an allowed sub-topic. -/
def parseSubtopic (r : Rounding) (subtopic payload : List Char) : ParseResult :=
  if "pump".toList.isPrefixOf subtopic && "_timer".toList.isSuffixOf subtopic then
    match subtopicNumber (2^8) 6 ((subtopic.take (subtopic.length - 6)).drop 4) with
    | some idx => parsePumpTimer payload (UInt8.ofNat idx)
    | none => .unknownSubtopic subtopic
  else if "pump".toList.isPrefixOf subtopic then
    match (subtopicNumber (2^32) 6 (subtopic.drop 4)).bind fun idx =>
      ToggleItem.fromPumpIndex (idx - 1) with
    | some item => parseToggle payload item
    | none => .unknownSubtopic subtopic
  else if "light".toList.isPrefixOf subtopic then
    match (subtopicNumber (2^32) 4 (subtopic.drop 5)).bind fun idx =>
      ToggleItem.fromLightIndex (idx - 1) with
    | some item => parseToggle payload item
    | none => .unknownSubtopic subtopic
  else
    match toggleSubtopics.lookup subtopic with
    | some item => parseToggle payload item
    | none =>
      if subtopic = "set_temperature".toList then parseSetTemperature r payload
      else if subtopic = "set_time".toList then parseSetTime payload
      else if subtopic = "set_preference".toList then parseSetPreference payload
      else .unknownSubtopic subtopic

/-- `command_parser::parse_command`. -/
def parseCommand (r : Rounding) (commandTopicBase topic : List Char) (payload : List UInt8) :
    ParseResult :=
  match stripPrefix commandTopicBase topic with
  | some ('/' :: subtopic) =>
    if subtopic ∉ allowedSubtopics then .unknownSubtopic subtopic
    else
      match utf8Decode payload with
      | none => .invalidPayload .notUtf8
      | some payloadStr => parseSubtopic r subtopic payloadStr
  | _ => .unknownSubtopic topic

/-! ## What is accepted as a temperature -/

variable {r : Rounding} {subtopic payload : List Char} {temp : UInt8}

/-- A temperature that is accepted is the nearest whole number to one from 0 to 255. -/
theorem parseSetTemperature_valid
    (h : parseSetTemperature r payload = .valid (.setTemperature temp)) :
    ∃ t, F32.parse r payload = some (.finite t) ∧ 0 ≤ t ∧ t ≤ 255 ∧
      temp = ((F32.finite t).add r (1 / 2)).toU8 := by
  unfold parseSetTemperature at h
  split at h
  · cases h
  · rename_i t hparse
    dsimp only at h
    split_ifs at h with hrange
    exact ⟨t, hparse, hrange.1, hrange.2,
      (Command.setTemperature.inj (ParseResult.valid.inj h)).symm⟩
  · cases h

/-- A toggle sets no temperature. -/
theorem parseToggle_ne_setTemperature {item : ToggleItem} :
    parseToggle payload item ≠ .valid (.setTemperature temp) := by
  intro h
  unfold parseToggle at h
  split at h <;> cases h

/-- A pump timer sets no temperature. -/
theorem parsePumpTimer_ne_setTemperature {pumpIndex : UInt8} :
    parsePumpTimer payload pumpIndex ≠ .valid (.setTemperature temp) := by
  intro h
  unfold parsePumpTimer at h
  split at h
  · split at h <;> cases h
  · cases h

/-- Setting the time sets no temperature. -/
theorem parseSetTime_ne_setTemperature :
    parseSetTime payload ≠ .valid (.setTemperature temp) := by
  have htime : ∀ hour minute is24h,
      validateTime hour minute is24h ≠ .valid (.setTemperature temp) := by
    intro hour minute is24h h
    unfold validateTime at h
    split at h <;> cases h
  intro h
  unfold parseSetTime at h
  dsimp only at h
  repeat' split at h
  all_goals first | exact htime _ _ _ h | cases h

/-- Setting a preference sets no temperature. -/
theorem parseSetPreference_ne_setTemperature :
    parseSetPreference payload ≠ .valid (.setTemperature temp) := by
  intro h
  unfold parseSetPreference at h
  dsimp only at h
  repeat' split at h
  all_goals cases h

/-- Only `set_temperature` is read as a temperature. -/
theorem parseSubtopic_valid (h : parseSubtopic r subtopic payload = .valid (.setTemperature temp)) :
    parseSetTemperature r payload = .valid (.setTemperature temp) := by
  unfold parseSubtopic at h
  repeat' split at h
  all_goals first
    | exact h
    | exact absurd h parseToggle_ne_setTemperature
    | exact absurd h parsePumpTimer_ne_setTemperature
    | exact absurd h parseSetTime_ne_setTemperature
    | exact absurd h parseSetPreference_ne_setTemperature
    | cases h

/-- A message that is accepted as a temperature has the text of one from 0 to 255. -/
theorem parseCommand_setTemperature {commandTopicBase topic : List Char} {payload : List UInt8}
    (h : parseCommand r commandTopicBase topic payload = .valid (.setTemperature temp)) :
    ∃ t, (utf8Decode payload).bind (F32.parse r) = some (.finite t) ∧ 0 ≤ t ∧ t ≤ 255 ∧
      temp = ((F32.finite t).add r (1 / 2)).toU8 := by
  unfold parseCommand at h
  split at h
  · split at h
    · cases h
    · cases hdecode : utf8Decode payload with
      | none =>
        rw [hdecode] at h
        cases h
      | some payloadStr =>
        rw [hdecode] at h
        exact parseSetTemperature_valid (parseSubtopic_valid h)
  · cases h

end Launa.Mqtt
