import Launa.Mqtt.CommandParser
import Launa.Sim.SpaSim
import Mathlib.Tactic.FinCases

/-!
# Google Home

`execute_command` of the server publishes a request as a command to the app: `OnOff` as the topic of
the accessory with the payload `true` or `false`. The app reads any payload on such a topic as a
toggle, so the accessory goes on in its cycle whatever is requested (`phase_request`). Each value of
a sequence of requests is reached exactly when the sequence follows the cycle (`setsOnOff_iff`). The
`f64` arithmetic of the set temperature is rounded by a `Rounding`.
-/

namespace Launa.Server

open Mqtt Ota Protocol Sim

/-! ## Device IDs -/

/-- The device types of the Google device IDs. -/
inductive DeviceType where
  | thermostat | circPump | blower | mister | pump | light | unknown
  deriving DecidableEq, Repr

/-- `str::strip_suffix`. -/
def stripSuffix (suffix cs : List Char) : Option (List Char) :=
  if suffix.isSuffixOf cs then some (cs.take (cs.length - suffix.length)) else none

/-- The suffixes of the accessories that are not numbered. -/
def deviceSuffixes : List (List Char × DeviceType) :=
  [("_thermostat".toList, .thermostat), ("_circ_pump".toList, .circPump),
    ("_blower".toList, .blower), ("_mister".toList, .mister)]

/-- `parse_google_device_id`. -/
def parseGoogleDeviceId (googleId : List Char) : List Char × DeviceType :=
  match deviceSuffixes.findSome? fun (suffix, deviceType) =>
    (stripSuffix suffix googleId).map fun base => (base, deviceType) with
  | some parsed => parsed
  | none =>
    let trimmed := (googleId.reverse.dropWhile Char.isDigit).reverse
    if googleId.length - trimmed.length > 0 then
      match stripSuffix "_pump".toList trimmed, stripSuffix "_light".toList trimmed with
      | some base, _ => (base, .pump)
      | none, some base => (base, .light)
      | none, none => (googleId, .unknown)
    else (googleId, .unknown)

/-- `AccessoryConfigData`. -/
structure AccessoryConfigData where
  pumps : UInt8
  lights : UInt8
  blower : Bool
  mister : Bool
  deriving DecidableEq, Repr

/-- The Google device IDs that `sync_response` lists of a device. -/
def syncDeviceIds (id : List Char) (cfg : AccessoryConfigData) : List (List Char) :=
  [id ++ "_thermostat".toList] ++
    (List.range' 1 cfg.pumps.toNat).map (fun i => id ++ "_pump".toList ++ (toString i).toList) ++
    (List.range' 1 cfg.lights.toNat).map (fun i => id ++ "_light".toList ++ (toString i).toList) ++
    (if cfg.blower then [id ++ "_blower".toList] else []) ++
    (if cfg.mister then [id ++ "_mister".toList] else []) ++
    [id ++ "_circ_pump".toList]

/-! ## Requests -/

/-- The command of an execution. -/
inductive GoogleCommand where
  | thermostatTemperatureSetpoint | thermostatSetMode | onOff | other
  deriving DecidableEq, Repr

/-- The parameters that `execute_command` reads, each if it has its type. -/
structure ExecuteParams where
  thermostatTemperatureSetpoint : Option ℚ := none
  thermostatMode : Option (List Char) := none
  on : Option Bool := none
  deriving DecidableEq, Repr

/-- A message that is published to the broker. -/
structure Publication where
  topic : List Char
  payload : List UInt8
  deriving DecidableEq, Repr

/-- What a command is answered with. -/
inductive ExecuteStatus where
  | success
  | error (errorCode : String)
  deriving DecidableEq, Repr

/-- The result of an execution. -/
structure ExecuteResult where
  ids : List (List Char)
  status : ExecuteStatus
  deriving DecidableEq, Repr

/-- `f64::round` and `as i32`. -/
def roundToI32 (x : ℚ) : ℤ :=
  let rounded := if 0 ≤ x then ⌊x + 1 / 2⌋ else -⌊-x + 1 / 2⌋
  max (-2^31) (min rounded (2^31 - 1))

/-- The set temperature on the scale of the spa. -/
def setpointPayload (r : Rounding) (celsius : Bool) (setpointC : ℚ) : List UInt8 :=
  let setpointF :=
    if celsius then setpointC else r.round (r.round (r.round (setpointC * 9) / 5) + 32)
  ascii (toString (roundToI32 setpointF))

/-- The text after the last `_`. -/
def lastSegment (cs : List Char) : List Char := (cs.reverse.takeWhile (· ≠ '_')).reverse

/-- The sub-topic of an accessory that is switched on and off. -/
def onOffSuffix (deviceType : DeviceType) (googleId : List Char) : Option (List Char) :=
  match deviceType with
  | .pump | .light => some (lastSegment googleId)
  | .blower => some "blower".toList
  | .mister => some "mister".toList
  | .circPump => some "circulation_pump".toList
  | .thermostat | .unknown => none

/-- The topic of a command. -/
def commandTopic (deviceId suffix : List Char) : List Char :=
  "launa/".toList ++ deviceId ++ "/command/".toList ++ suffix

/-- `execute_command`: the message that it publishes, and its result. -/
def executeCommand (r : Rounding) (celsius : Bool) (deviceId : List Char) (deviceType : DeviceType)
    (googleId : List Char) (command : GoogleCommand) (params : ExecuteParams) :
    Option Publication × ExecuteResult :=
  let notSupported : ExecuteResult := ⟨[googleId], .error "functionNotSupported"⟩
  let message := match command with
    | .thermostatTemperatureSetpoint =>
      some ⟨commandTopic deviceId "set_temperature".toList,
        setpointPayload r celsius (params.thermostatTemperatureSetpoint.getD 40)⟩
    | .thermostatSetMode =>
      let mode := params.thermostatMode.getD "heat".toList
      some ⟨commandTopic deviceId "heat_mode".toList,
        ascii (if mode = "off".toList then "rest" else "ready")⟩
    | .onOff =>
      let on := params.on.getD false
      (onOffSuffix deviceType googleId).map fun suffix =>
        ⟨commandTopic deviceId suffix, ascii (if on then "true" else "false")⟩
    | .other => none
  match message with
  | some publication => (some publication, ⟨[googleId], .success⟩)
  | none => (none, notSupported)

/-- One execution of `execute_handler`. -/
def execute (r : Rounding) (celsius : Bool) (googleId : List Char) (command : GoogleCommand)
    (params : ExecuteParams) : Option Publication × ExecuteResult :=
  let (deviceId, deviceType) := parseGoogleDeviceId googleId
  executeCommand r celsius deviceId deviceType googleId command params

/-! ## Accessories -/

/-- The sub-topic of an accessory, which is also the end of its Google device ID. -/
def topicSuffix : Accessory → List Char
  | .pump idx => "pump".toList ++ (toString (idx.val + 1)).toList
  | .light idx => "light".toList ++ (toString (idx.val + 1)).toList
  | .blower => "blower".toList

/-- The Google device ID of an accessory of a device. -/
def googleId (id : List Char) (accessory : Accessory) : List Char :=
  id ++ '_' :: topicSuffix accessory

/-- The device type of an accessory. -/
def accessoryType : Accessory → DeviceType
  | .pump _ => .pump
  | .light _ => .light
  | .blower => .blower

/-- What a message does to the spa: the app sends it the command that it reads. -/
def deliver (r : Rounding) (deviceId : List Char) (s : SpaState) (message : Publication) :
    SpaState :=
  match parseCommand r ("launa/".toList ++ deviceId ++ "/command".toList) message.topic
      message.payload with
  | .valid cmd => s.processIncomingBytes (encodeCommand cmd)
  | _ => s

/-- What a request to switch an accessory does to the spa. -/
def request (r : Rounding) (celsius : Bool) (deviceId : List Char) (accessory : Accessory)
    (s : SpaState) (on : Bool) : SpaState :=
  match (execute r celsius (googleId deviceId accessory) .onOff { on := some on }).1 with
  | some message => deliver r deviceId s message
  | none => s

/-- After each request the accessory is on exactly when that is requested. -/
def SetsOnOff (r : Rounding) (celsius : Bool) (deviceId : List Char) (accessory : Accessory) :
    SpaState → List Bool → Prop
  | _, [] => True
  | s, on :: values =>
    let s' := request r celsius deviceId accessory s on
    accessory.isOn s' = on ∧ SetsOnOff r celsius deviceId accessory s' values

/-- The values are those of the accessory in its cycle, from the next one on. -/
def FollowsCycle (accessory : Accessory) (s : SpaState) (values : List Bool) : Prop :=
  ∀ k (hk : k < values.length), values[k] = accessory.onAfter s (k + 1)

/-! ## From the request to the toggle -/

/-- A suffix is stripped. -/
theorem stripSuffix_append (base suffix : List Char) :
    stripSuffix suffix (base ++ suffix) = some base := by
  have hsuffix : suffix.isSuffixOf (base ++ suffix) = true :=
    List.isSuffixOf_iff_suffix.2 (List.suffix_append base suffix)
  rw [stripSuffix, if_pos hsuffix, List.length_append, Nat.add_sub_cancel, List.take_left]

/-- A suffix is not stripped from the end of another one, of which it is no part. -/
theorem stripSuffix_eq_none {suffix other : List Char} (h : ¬ suffix <:+ other)
    (h' : ¬ other <:+ suffix) (cs : List Char) : stripSuffix suffix (cs ++ other) = none := by
  refine if_neg fun hsuffix => ?_
  rcases List.suffix_or_suffix_of_suffix (List.isSuffixOf_iff_suffix.1 hsuffix)
    (List.suffix_append cs other) with hpart | hpart
  · exact h hpart
  · exact h' hpart

/-- A suffix that ends otherwise is not stripped. -/
theorem stripSuffix_concat {a b : Char} (h : a ≠ b) (suffix cs : List Char) :
    stripSuffix (suffix ++ [a]) (cs ++ [b]) = none := by
  refine if_neg fun hsuffix => h ?_
  obtain ⟨pre, hpre⟩ := List.isSuffixOf_iff_suffix.1 hsuffix
  rw [← List.append_assoc] at hpre
  exact (List.append_inj' hpre rfl).2 |> List.head_eq_of_cons_eq

/-- The last segment stands behind the last underscore. -/
theorem lastSegment_append (cs : List Char) {segment : List Char} (h : '_' ∉ segment) :
    lastSegment (cs ++ '_' :: segment) = segment := by
  have hall : ∀ c ∈ segment.reverse, decide (c ≠ '_') = true := fun c hc =>
    decide_eq_true fun heq => h (heq ▸ List.mem_reverse.1 hc)
  rw [lastSegment, List.reverse_append, List.reverse_cons, List.append_assoc,
    List.takeWhile_append_of_pos hall, List.singleton_append,
    List.takeWhile_cons_of_neg (by decide), List.append_nil, List.reverse_reverse]

/-- A device ID that ends with digits is parsed by what stands before them. -/
theorem parseGoogleDeviceId_digits {digits : List Char} (hnil : digits ≠ [])
    (hdigits : ∀ d ∈ digits, d.isDigit = true) {c : Char} (hc : c.isDigit = false)
    (stem : List Char) :
    parseGoogleDeviceId (stem ++ [c] ++ digits) =
      match stripSuffix "_pump".toList (stem ++ [c]), stripSuffix "_light".toList (stem ++ [c]) with
      | some base, _ => (base, .pump)
      | none, some base => (base, .light)
      | none, none => (stem ++ [c] ++ digits, .unknown) := by
  -- No suffix without a number ends with a digit.
  have hsuffixes : (deviceSuffixes.findSome? fun (suffix, deviceType) =>
      (stripSuffix suffix (stem ++ [c] ++ digits)).map fun base => (base, deviceType)) = none := by
    have hne : ∀ a : Char, a.isDigit = false → a ≠ digits.getLast hnil := fun a ha heq =>
      Bool.false_ne_true (ha.symm.trans (heq ▸ hdigits _ (List.getLast_mem hnil)))
    rw [List.findSome?_eq_none_iff, ← List.dropLast_append_getLast hnil, ← List.append_assoc]
    intro ⟨suffix, deviceType⟩ hmem
    refine congrArg (Option.map _) (?_ : stripSuffix suffix _ = none)
    simp only [deviceSuffixes, List.mem_cons, Prod.mk.injEq, List.not_mem_nil, or_false] at hmem
    rcases hmem with ⟨rfl, -⟩ | ⟨rfl, -⟩ | ⟨rfl, -⟩ | ⟨rfl, -⟩
    · exact stripSuffix_concat (hne 't' rfl) "_thermosta".toList _
    · exact stripSuffix_concat (hne 'p' rfl) "_circ_pum".toList _
    · exact stripSuffix_concat (hne 'r' rfl) "_blowe".toList _
    · exact stripSuffix_concat (hne 'r' rfl) "_miste".toList _
  have htrim : ((stem ++ [c] ++ digits).reverse.dropWhile Char.isDigit).reverse = stem ++ [c] := by
    rw [List.reverse_append,
      List.dropWhile_append_of_pos fun d hd => hdigits d (List.mem_reverse.1 hd),
      List.reverse_append, List.reverse_singleton, List.singleton_append,
      List.dropWhile_cons_of_neg (Bool.eq_false_iff.1 hc), List.reverse_cons, List.reverse_reverse]
  have hlen : (stem ++ [c] ++ digits).length - (stem ++ [c]).length > 0 := by
    rw [List.length_append, Nat.add_sub_cancel_left]
    exact List.length_pos_iff.2 hnil
  unfold parseGoogleDeviceId
  rw [hsuffixes]
  dsimp only
  rw [htrim, if_pos hlen]

/-- The digits of a number. -/
theorem isDigit_toString {n : ℕ} {d : Char} (hd : d ∈ (toString n).toList) : d.isDigit = true :=
  Nat.isDigit_of_mem_toDigits (by decide) (by decide) (Nat.toList_repr ▸ hd)

/-- A number is spelled with a digit at least. -/
theorem toString_ne_nil (n : ℕ) : (toString n).toList ≠ [] :=
  Nat.toList_repr (n := n) ▸ Nat.toDigits_ne_nil

/-- The device ID of a pump is parsed back. -/
theorem parseGoogleDeviceId_pump (id : List Char) (n : ℕ) :
    parseGoogleDeviceId (id ++ "_pump".toList ++ (toString n).toList) = (id, .pump) := by
  have hid : id ++ "_pump".toList = id ++ "_pum".toList ++ ['p'] := by
    rw [List.append_assoc]
    rfl
  rw [hid, parseGoogleDeviceId_digits (toString_ne_nil n) (fun _ => isDigit_toString) rfl, ← hid,
    stripSuffix_append]

/-- The device ID of a light is parsed back. -/
theorem parseGoogleDeviceId_light (id : List Char) (n : ℕ) :
    parseGoogleDeviceId (id ++ "_light".toList ++ (toString n).toList) = (id, .light) := by
  have hid : id ++ "_light".toList = id ++ "_ligh".toList ++ ['t'] := by
    rw [List.append_assoc]
    rfl
  -- `_pump` is tried first, and does not fit.
  have hpump : stripSuffix "_pump".toList (id ++ "_light".toList) = none :=
    stripSuffix_eq_none (by decide) (by decide) id
  rw [hid, parseGoogleDeviceId_digits (toString_ne_nil n) (fun _ => isDigit_toString) rfl, ← hid,
    hpump, stripSuffix_append]

/-- The device ID of an accessory without a number is parsed back: of the suffixes that are tried
before its own none fits. -/
theorem parseGoogleDeviceId_suffix (id suffix : List Char) {deviceType : DeviceType}
    (h : (suffix, deviceType) ∈ deviceSuffixes) :
    parseGoogleDeviceId (id ++ suffix) = (id, deviceType) := by
  have hfind : (deviceSuffixes.findSome? fun (other, otherType) =>
      (stripSuffix other (id ++ suffix)).map fun base => (base, otherType)) =
        some (id, deviceType) := by
    simp only [deviceSuffixes, List.mem_cons, Prod.mk.injEq, List.not_mem_nil, or_false] at h
    rw [deviceSuffixes, List.findSome?_cons, List.findSome?_cons, List.findSome?_cons,
      List.findSome?_cons]
    dsimp only
    rcases h with ⟨rfl, rfl⟩ | ⟨rfl, rfl⟩ | ⟨rfl, rfl⟩ | ⟨rfl, rfl⟩
    · rw [stripSuffix_append]
      rfl
    · rw [stripSuffix_eq_none (by decide) (by decide), stripSuffix_append]
      rfl
    · rw [stripSuffix_eq_none (by decide) (by decide), stripSuffix_eq_none (by decide) (by decide),
        stripSuffix_append]
      rfl
    · rw [stripSuffix_eq_none (by decide) (by decide), stripSuffix_eq_none (by decide) (by decide),
        stripSuffix_eq_none (by decide) (by decide), stripSuffix_append]
      rfl
  rw [parseGoogleDeviceId, hfind]

/-- The identifier of a pump ends with its number. -/
theorem googleId_pump (id : List Char) (idx : Fin 6) :
    googleId id (.pump idx) = id ++ "_pump".toList ++ (toString (idx.val + 1)).toList := by
  have htopic : topicSuffix (.pump idx) = "pump".toList ++ (toString (idx.val + 1)).toList := rfl
  rw [googleId, htopic]
  simp

/-- The identifier of a light ends with its number. -/
theorem googleId_light (id : List Char) (idx : Fin 4) :
    googleId id (.light idx) = id ++ "_light".toList ++ (toString (idx.val + 1)).toList := by
  have htopic : topicSuffix (.light idx) = "light".toList ++ (toString (idx.val + 1)).toList := rfl
  rw [googleId, htopic]
  simp

/-- The device ID of an accessory is parsed back. -/
theorem parseGoogleDeviceId_googleId (id : List Char) (accessory : Accessory) :
    parseGoogleDeviceId (googleId id accessory) = (id, accessoryType accessory) := by
  cases accessory with
  | pump idx =>
    rw [googleId_pump, parseGoogleDeviceId_pump]
    rfl
  | light idx =>
    rw [googleId_light, parseGoogleDeviceId_light]
    rfl
  | blower => exact parseGoogleDeviceId_suffix id "_blower".toList (by decide)

/-- The device has the accessory. -/
def AccessoryConfigData.Has (cfg : AccessoryConfigData) : Accessory → Prop
  | .pump idx => idx.val < cfg.pumps.toNat
  | .light idx => idx.val < cfg.lights.toNat
  | .blower => cfg.blower = true

/-- The accessories that a device has are listed. -/
theorem googleId_mem_syncDeviceIds (id : List Char) {cfg : AccessoryConfigData}
    {accessory : Accessory} (h : cfg.Has accessory) :
    googleId id accessory ∈ syncDeviceIds id cfg := by
  unfold syncDeviceIds
  simp only [List.mem_append, List.mem_map, List.mem_range'_1]
  cases accessory with
  | pump idx =>
    have hlt : idx + 1 < 1 + cfg.pumps.toNat := by
      rw [Nat.add_comm 1]
      exact Nat.succ_lt_succ h
    rw [googleId_pump]
    exact .inl (.inl (.inl (.inl (.inr ⟨idx + 1, ⟨Nat.le_add_left 1 _, hlt⟩, rfl⟩))))
  | light idx =>
    have hlt : idx + 1 < 1 + cfg.lights.toNat := by
      rw [Nat.add_comm 1]
      exact Nat.succ_lt_succ h
    rw [googleId_light]
    exact .inl (.inl (.inl (.inr ⟨idx + 1, ⟨Nat.le_add_left 1 _, hlt⟩, rfl⟩)))
  | blower =>
    rw [if_pos (show cfg.blower = true from h)]
    exact .inl (.inl (.inr (List.mem_singleton_self _)))

/-- The sub-topic of an accessory has no underscore. -/
theorem not_mem_topicSuffix (accessory : Accessory) : '_' ∉ topicSuffix accessory := by
  cases accessory with
  | pump idx =>
    revert idx
    decide
  | light idx =>
    revert idx
    decide
  | blower => decide

/-- An accessory is switched on its own topic. -/
theorem onOffSuffix_googleId (id : List Char) (accessory : Accessory) :
    onOffSuffix (accessoryType accessory) (googleId id accessory) =
      some (topicSuffix accessory) := by
  have hlast : lastSegment (googleId id accessory) = topicSuffix accessory :=
    lastSegment_append id (not_mem_topicSuffix accessory)
  cases accessory with
  | pump idx => exact congrArg some hlast
  | light idx => exact congrArg some hlast
  | blower => rfl

/-- The app reads the sub-topic of an accessory as its toggle, whatever the payload. -/
theorem parseSubtopic_topicSuffix (r : Rounding) (accessory : Accessory) {payload : List Char}
    (h : payload ≠ []) :
    parseSubtopic r (topicSuffix accessory) payload = .valid (.toggleItem accessory.item) := by
  have htoggle : ∀ item, parseToggle payload item = .valid (.toggleItem item) := fun item =>
    if_neg (by rw [List.isEmpty_iff]; exact h)
  rw [← htoggle]
  cases accessory with
  | pump idx => fin_cases idx <;> rfl
  | light idx => fin_cases idx <;> rfl
  | blower => rfl

/-- The topic of an accessory is one that commands may be published on. -/
theorem topicSuffix_mem (accessory : Accessory) :
    topicSuffix accessory ∈ allowedSubtopics := by
  cases accessory with
  | pump idx =>
    revert idx
    decide
  | light idx =>
    revert idx
    decide
  | blower => decide

/-- A message on an allowed topic is read by its sub-topic. -/
theorem parseCommand_allowed (r : Rounding) (id : List Char) {suffix : List Char}
    (hallowed : suffix ∈ allowedSubtopics) {payload : List UInt8} {text : List Char}
    (hdecode : utf8Decode payload = some text) :
    parseCommand r ("launa/".toList ++ id ++ "/command".toList) (commandTopic id suffix) payload =
      parseSubtopic r suffix text := by
  have hslash : ∀ {base word slashed : List Char}, slashed = word ++ ['/'] → ∀ suffix,
      base ++ slashed ++ suffix = base ++ word ++ '/' :: suffix := fun heq suffix => by
    rw [heq, ← List.append_assoc, List.append_assoc _ ['/'], List.singleton_append]
  -- The sub-topic follows the base of the commands and a slash.
  have htopic : commandTopic id suffix =
      "launa/".toList ++ id ++ "/command".toList ++ '/' :: suffix := hslash (by decide) _
  have hprefix : ∀ base rest : List Char, stripPrefix base (base ++ rest) = some rest :=
    fun base rest => by
      rw [stripPrefix, if_pos (List.isPrefixOf_iff_prefix.2 (List.prefix_append base rest)),
        List.drop_left]
  rw [htopic, parseCommand, hprefix]
  simp only [hallowed, not_true_eq_false, if_false, hdecode]

/-- A message on the topic of an accessory is a toggle. -/
theorem parseCommand_commandTopic (r : Rounding) (id : List Char) (accessory : Accessory)
    {payload : List UInt8} {text : List Char} (hdecode : utf8Decode payload = some text)
    (h : text ≠ []) :
    parseCommand r ("launa/".toList ++ id ++ "/command".toList)
      (commandTopic id (topicSuffix accessory)) payload = .valid (.toggleItem accessory.item) := by
  rw [parseCommand_allowed r id (topicSuffix_mem accessory) hdecode]
  exact parseSubtopic_topicSuffix r accessory h

variable {r : Rounding} {celsius : Bool} {deviceId : List Char} {accessory : Accessory}

/-- Whatever is requested, the accessory is toggled. -/
theorem request_eq (s : SpaState) (on : Bool) :
    request r celsius deviceId accessory s on = s.applyToggleByCode accessory.item.code := by
  obtain ⟨text, hdecode, htext⟩ : ∃ text,
      utf8Decode (ascii (if on then "true" else "false")) = some text ∧ text ≠ [] := by
    cases on with
    | true => exact ⟨"true".toList, by decide +kernel, by decide⟩
    | false => exact ⟨"false".toList, by decide +kernel, by decide⟩
  -- Both payloads are texts, which is all that a toggle asks of them.
  have hexecute : (execute r celsius (googleId deviceId accessory) .onOff { on := some on }).1 =
      some ⟨commandTopic deviceId (topicSuffix accessory),
        ascii (if on then "true" else "false")⟩ := by
    unfold execute
    rw [parseGoogleDeviceId_googleId]
    dsimp only [executeCommand]
    rw [onOffSuffix_googleId]
    rfl
  unfold request
  rw [hexecute]
  dsimp only [deliver]
  rw [parseCommand_commandTopic r deviceId accessory hdecode htext]
  rcases processIncomingBytes_encodeCommand s (.toggleItem accessory.item) with
    ⟨item, heq, happlied⟩ | ⟨hother, -⟩
  · cases heq
    exact happlied
  · exact absurd rfl (hother accessory.item)

/-! ## The cycle -/

/-- The first value has to be that of the next toggle, and the others follow from there. -/
theorem followsCycle_cons (s : SpaState) (on : Bool) (values : List Bool) :
    FollowsCycle accessory s (on :: values) ↔
      accessory.isOn (s.applyToggleByCode accessory.item.code) = on ∧
        FollowsCycle accessory (s.applyToggleByCode accessory.item.code) values := by
  rw [← accessory.onAfter_zero, accessory.onAfter_toggle]
  constructor
  · refine fun h => ⟨(h 0 (Nat.zero_lt_succ _)).symm, fun k hk => ?_⟩
    rw [accessory.onAfter_toggle]
    exact h (k + 1) (Nat.succ_lt_succ hk)
  · rintro ⟨hon, h⟩ k hk
    cases k with
    | zero => exact hon.symm
    | succ k =>
      rw [← accessory.onAfter_toggle]
      exact h k (Nat.lt_of_succ_lt_succ hk)

/-- Requests set an accessory exactly when they ask for what its next toggles do. -/
theorem setsOnOff_iff (r : Rounding) (celsius : Bool) (deviceId : List Char)
    (accessory : Accessory) (s : SpaState) (values : List Bool) :
    SetsOnOff r celsius deviceId accessory s values ↔ FollowsCycle accessory s values := by
  induction values generalizing s with
  | nil => exact iff_of_true trivial fun k hk => absurd hk (Nat.not_lt_zero k)
  | cons on values ih =>
    rw [followsCycle_cons, ← ih, SetsOnOff, request_eq]

/-- A light that is off is switched on, and by the same request off again. -/
theorem repeat_not_setsOnOff :
    ¬ SetsOnOff .exact false "spa_001".toList (.light ToggleItem.firstLight) SpaState.default
      [true, true] := by
  rintro ⟨-, h, -⟩
  rw [request_eq, request_eq] at h
  exact absurd h (by decide)

end Launa.Server
