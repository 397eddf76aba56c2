import Launa.Protocol.Registration
import Launa.Protocol.Status

/-!
# Dispatching frames

What a frame from the spa is: a status, a response, a registration message, or a grant to send.
Every frame `XX BF` of a client's channel counts as a grant, `Ready`, whatever its payload is
(`dispatchFrame_eq_ready`), so also those that the channel's registration messages come as.
-/

namespace Launa.Protocol

/-! ## The parsers -/

/-- The fault codes. -/
inductive FaultCode where
  | sync | lowFlow | flowFailed | settingsReset | priming | clockFailed | programMemory
  | syncCallService | heaterDry | heaterMaybeDry | waterTooHot | heaterTooHot
  | sensorAFault | sensorBFault | pumpStuckOn | hotFault | gfciTestFailed | standbyHold
  | unknown (code : UInt8)
  deriving DecidableEq, Repr

/-- `FaultCode::from_code`. -/
def FaultCode.fromCode (code : UInt8) : FaultCode :=
  match code.toNat with
  | 15 => sync
  | 16 => lowFlow
  | 17 => flowFailed
  | 18 => settingsReset
  | 19 => priming
  | 20 => clockFailed
  | 22 => programMemory
  | 26 => syncCallService
  | 27 => heaterDry
  | 28 => heaterMaybeDry
  | 29 => waterTooHot
  | 30 => heaterTooHot
  | 31 => sensorAFault
  | 32 => sensorBFault
  | 34 => pumpStuckOn
  | 35 => hotFault
  | 36 => gfciTestFailed
  | 37 => standbyHold
  | _ => unknown code

/-- The name of a fault code, as `{:?}` prints it. -/
def FaultCode.debug : FaultCode → String
  | sync => "Sync"
  | lowFlow => "LowFlow"
  | flowFailed => "FlowFailed"
  | settingsReset => "SettingsReset"
  | priming => "Priming"
  | clockFailed => "ClockFailed"
  | programMemory => "ProgramMemory"
  | syncCallService => "SyncCallService"
  | heaterDry => "HeaterDry"
  | heaterMaybeDry => "HeaterMaybeDry"
  | waterTooHot => "WaterTooHot"
  | heaterTooHot => "HeaterTooHot"
  | sensorAFault => "SensorAFault"
  | sensorBFault => "SensorBFault"
  | pumpStuckOn => "PumpStuckOn"
  | hotFault => "HotFault"
  | gfciTestFailed => "GfciTestFailed"
  | standbyHold => "StandbyHold"
  | unknown code => "Unknown(" ++ toString code.toNat ++ ")"

/-- An entry of the fault log. -/
structure FaultLogEntry where
  faultCount : UInt8
  entryNumber : UInt8
  messageCode : FaultCode
  daysAgo : UInt8
  hour : UInt8
  minute : UInt8
  flags : UInt8
  setTemperature : UInt8
  sensorATemp : UInt8
  sensorBTemp : UInt8
  deriving DecidableEq, Repr

/-- The error of the parsers of responses. -/
inductive ResponseError where
  | unexpectedLength (len : ℕ)
  deriving DecidableEq, Repr

/-- `FaultLogEntry::parse`. -/
def FaultLogEntry.parse (payload : List UInt8) : Except ResponseError FaultLogEntry :=
  if payload.length < 10 then .error (.unexpectedLength payload.length)
  else
    let byte := fun i => payload.getD i 0
    .ok ⟨byte 0, byte 1, .fromCode (byte 2), byte 3, byte 4, byte 5, byte 6, byte 7, byte 8, byte 9⟩

/-- One cycle of the filter. -/
structure FilterCycle where
  startHour : UInt8
  startMinute : UInt8
  durationHours : UInt8
  durationMinutes : UInt8
  enabled : Bool
  deriving DecidableEq, Repr

/-- The two cycles of the filter. -/
structure FilterCycles where
  filter1 : FilterCycle
  filter2 : FilterCycle
  deriving DecidableEq, Repr

/-- `FilterCycles::parse`. -/
def FilterCycles.parse (payload : List UInt8) : Except ResponseError FilterCycles :=
  if payload.length < 8 then .error (.unexpectedLength payload.length)
  else
    let byte := fun i => payload.getD i 0
    .ok {
      filter1 := ⟨byte 0, byte 1, byte 2, byte 3, true⟩
      filter2 := ⟨byte 4 &&& 0x7F, byte 5, byte 6, byte 7, byte 4 &&& 0x80 != 0⟩ }

/-- What the spa has of a pump. -/
inductive PumpConfig where
  | none | singleSpeed | twoSpeed
  deriving DecidableEq, Repr

/-- What the spa is equipped with. -/
structure SpaConfig where
  pumpConfigs : Vector PumpConfig 6
  lights : Vector Bool 4
  circPump : Bool
  blower : Bool
  mister : Bool
  aux1 : Bool
  aux2 : Bool
  temperatureScaleCelsius : Bool
  deriving DecidableEq

/-- The configuration that the two bits of a pump say. -/
def decodePumpConfig (bits : UInt8) : PumpConfig :=
  if bits = 0 then .none
  else if bits = 1 then .singleSpeed
  else if bits = 2 then .twoSpeed
  else .none

/-- `SpaConfig::parse`. -/
def SpaConfig.parse (payload : List UInt8) : Except ResponseError SpaConfig :=
  if payload.length < 10 then .error (.unexpectedLength payload.length)
  else
    let byte := fun i => payload.getD i 0
    .ok {
      pumpConfigs := decodePumps (byte 5) (byte 6) decodePumpConfig
      lights := decodeLights (byte 7)
      circPump := byte 8 &&& 0x80 != 0
      blower := byte 8 &&& 0x03 != 0
      mister := byte 9 &&& 0x30 != 0
      aux1 := byte 9 &&& 0x01 != 0
      aux2 := byte 9 &&& 0x02 != 0
      temperatureScaleCelsius := byte 3 &&& 0x01 != 0 }

/-- The fields of an information response, as bytes. -/
structure InformationResponse where
  softwareId : List UInt8
  systemModel : List UInt8
  currentSetup : UInt8
  configSignature : List UInt8
  heaterVoltage : UInt8
  heaterType : UInt8
  dipSwitches : List UInt8
  deriving DecidableEq, Repr

/-- `InformationResponse::parse`, without the texts that the fields are rendered as. -/
def InformationResponse.parse (payload : List UInt8) : Except ResponseError InformationResponse :=
  if payload.length < 21 then .error (.unexpectedLength payload.length)
  else
    let byte := fun i => payload.getD i 0
    let bytes := fun i n => (payload.drop i).take n
    .ok ⟨bytes 0 4, bytes 4 8, byte 12, bytes 13 4, byte 17, byte 18, bytes 19 2⟩

/-! ## `dispatcher.rs` -/

/-- A dispatched message. -/
inductive IncomingMessage where
  | statusUpdate (status : StatusUpdate)
  | configurationResponse (config : SpaConfig)
  | informationResponse (information : InformationResponse)
  | faultLogResponse (faultLog : FaultLogEntry)
  | filterCyclesResponse (filterCycles : FilterCycles)
  | controlConfiguration (config : SpaConfig)
  /-- The spa tells the client of a channel that it can send. -/
  | ready (channel : UInt8)
  | registration (msg : RegistrationMessage)
  | preferencesResponse (payload : List UInt8)
  | setupParametersResponse (payload : List UInt8)
  | unknown (messageType : MessageType) (payload : List UInt8)

/-- `parse_or_unknown`. -/
def parseOrUnknown {ε α : Type} (msgType : MessageType) (payload : List UInt8) (parsed : Except ε α)
    (okVariant : α → IncomingMessage) : IncomingMessage :=
  match parsed with
  | .ok value => okVariant value
  | .error _ => .unknown msgType payload

/-- `handle_status`: the sub-type byte of the hardware is stripped. -/
def handleStatus (msgType : MessageType) (payload : List UInt8) : IncomingMessage :=
  let statusData :=
    if payload.length = 25 ∧ payload.getD 0 0 = 0x13 then payload.drop 1 else payload
  parseOrUnknown msgType payload (StatusUpdate.parse statusData) .statusUpdate

/-- `handle_registration`. -/
def handleRegistration (msgType : MessageType) (payload : List UInt8) : IncomingMessage :=
  parseOrUnknown msgType payload (RegistrationMessage.parse msgType payload) .registration

/-- `handle_settings_0x22`. -/
def handleSettings0x22 (msgType : MessageType) (payload : List UInt8) : IncomingMessage :=
  if payload.length < 2 then .unknown msgType payload
  else
    let subType := payload.getD 1 0
    let data := payload.drop 3
    if payload.length ≤ 3 then .unknown msgType payload
    else if subType = 0x01 then
      parseOrUnknown msgType payload (FilterCycles.parse data) .filterCyclesResponse
    else if subType = 0x02 then
      parseOrUnknown msgType payload (InformationResponse.parse data) .informationResponse
    else if subType = 0x20 then
      parseOrUnknown msgType payload (FaultLogEntry.parse data) .faultLogResponse
    else .unknown msgType payload

/-- `handle_0abf`: the first byte of the payload is a sub-type. -/
def handle0abf (msgType : MessageType) (payload : List UInt8) : IncomingMessage :=
  match payload with
  | [] => .unknown msgType payload
  | subType :: data =>
    if subType = 0x22 then handleSettings0x22 msgType payload
    else if subType = 0x23 then
      parseOrUnknown msgType payload (FilterCycles.parse data) .filterCyclesResponse
    else if subType = 0x24 then
      parseOrUnknown msgType payload (InformationResponse.parse data) .informationResponse
    else if subType = 0x25 then .setupParametersResponse data
    else if subType = 0x26 then .preferencesResponse data
    else if subType = 0x28 then
      parseOrUnknown msgType payload (FaultLogEntry.parse data) .faultLogResponse
    else if subType = 0x2E then
      parseOrUnknown msgType payload (SpaConfig.parse data) .controlConfiguration
    else if subType = 0x94 then
      parseOrUnknown msgType payload (SpaConfig.parse data) .configurationResponse
    else .unknown msgType payload

/-- `dispatch_frame`. -/
def dispatchFrame (frame : Frame) : IncomingMessage :=
  let msgType := frame.messageType
  let payload := frame.payload
  if msgType = (0xFF, 0xAF) then handleStatus msgType payload
  else if msgType = (0xFE, 0xBF) then handleRegistration msgType payload
  else if msgType = (0x0A, 0xBF) then handle0abf msgType payload
  else if msgType.2 = 0xBF then .ready msgType.1
  else .unknown msgType payload

section Kinds

variable {ε α : Type} {msgType : MessageType} {payload : List UInt8} {parsed : Except ε α}
  {okVariant : α → IncomingMessage} {f : Frame}

/-- The message is about the link: a grant to send, or registration. -/
def IncomingMessage.IsLinkMessage : IncomingMessage → Prop
  | .ready _ => True
  | .registration _ => True
  | _ => False

/-- A payload that is parsed or unknown is no message of the link. -/
theorem parseOrUnknown_not_link (h : ∀ value, ¬ (okVariant value).IsLinkMessage) :
    ¬ (parseOrUnknown msgType payload parsed okVariant).IsLinkMessage := by
  cases parsed with
  | ok value => exact h value
  | error e => exact id

/-- A status is no message of the link. -/
theorem handleStatus_not_link (msgType : MessageType) (payload : List UInt8) :
    ¬ (handleStatus msgType payload).IsLinkMessage :=
  parseOrUnknown_not_link fun _ => id

/-- What is parsed as something else is no status update. -/
theorem parseOrUnknown_ne_statusUpdate {status : StatusUpdate}
    (h : ∀ value, okVariant value ≠ .statusUpdate status) :
    parseOrUnknown msgType payload parsed okVariant ≠ .statusUpdate status := by
  cases parsed with
  | ok value => exact h value
  | error e => exact fun h => by cases h

/-- A message with a sub-type is neither about the link nor a status. -/
theorem handle0abf_kind (msgType : MessageType) (payload : List UInt8) :
    ¬ (handle0abf msgType payload).IsLinkMessage ∧
      ∀ status, handle0abf msgType payload ≠ .statusUpdate status := by
  obtain ⟨P, hP⟩ : ∃ P : IncomingMessage → Prop, ∀ m,
      P m ↔ ¬ m.IsLinkMessage ∧ ∀ status, m ≠ .statusUpdate status :=
    ⟨fun m => ¬ m.IsLinkMessage ∧ ∀ status, m ≠ .statusUpdate status, fun _ => Iff.rfl⟩
  have hunknown : P (.unknown msgType payload) := (hP _).2 ⟨id, fun status h => by cases h⟩
  have hparsed : ∀ {ε α : Type} (parsed : Except ε α) (okVariant : α → IncomingMessage),
      (∀ value, P (okVariant value)) → P (parseOrUnknown msgType payload parsed okVariant) := by
    intro ε α parsed okVariant h
    cases parsed with
    | ok value => exact h value
    | error e => exact hunknown
  have hsettings : P (handleSettings0x22 msgType payload) := by
    unfold handleSettings0x22
    dsimp only
    repeat' split
    all_goals first | exact hunknown | apply hparsed
    all_goals exact fun value => (hP _).2 ⟨id, fun status h => by cases h⟩
  rw [← hP]
  unfold handle0abf
  cases payload with
  | nil => exact hunknown
  | cons subType data =>
    dsimp only
    repeat' split
    all_goals first | exact hsettings | exact hunknown | apply hparsed | apply (hP _).2
    all_goals first
      | exact fun value => (hP _).2 ⟨id, fun status h => by cases h⟩
      | exact ⟨id, fun status h => by cases h⟩

/-- A registration message is what is parsed as one. -/
theorem handleRegistration_eq {msg : RegistrationMessage} :
    handleRegistration msgType payload = .registration msg ↔
      RegistrationMessage.parse msgType payload = .ok msg := by
  unfold handleRegistration parseOrUnknown
  cases RegistrationMessage.parse msgType payload with
  | error e => exact ⟨fun h => (nomatch h), fun h => (nomatch h)⟩
  | ok value =>
    exact ⟨fun h => congrArg _ (IncomingMessage.registration.inj h),
      fun h => congrArg _ (Except.ok.inj h)⟩

/-- No registration message is a Ready. -/
theorem handleRegistration_ne_ready {channel : UInt8} :
    handleRegistration msgType payload ≠ .ready channel := by
  unfold handleRegistration parseOrUnknown
  cases RegistrationMessage.parse msgType payload <;> exact nofun

/-- A grant is any frame of a channel, other than those of registration and of the WiFi module. -/
theorem dispatchFrame_eq_ready {channel : UInt8} : dispatchFrame f = .ready channel ↔
    f.messageType = (channel, 0xBF) ∧ channel ≠ 0xFE ∧ channel ≠ 0x0A := by
  obtain ⟨⟨hi, lo⟩, payload⟩ := f
  unfold dispatchFrame
  dsimp only
  constructor
  · intro h
    split_ifs at h with h1 h2 h3 h4
    · exact absurd (h ▸ trivial) (handleStatus_not_link (hi, lo) payload)
    · exact absurd h handleRegistration_ne_ready
    · exact absurd (h ▸ trivial) (handle0abf_kind (hi, lo) payload).1
    · obtain rfl := IncomingMessage.ready.inj h
      obtain rfl : lo = 0xBF := h4
      exact ⟨rfl, fun hfe => h2 (by rw [hfe]), fun h0a => h3 (by rw [h0a])⟩
  · rintro ⟨hmt, hfe, h0a⟩
    obtain ⟨rfl, rfl⟩ := Prod.mk.inj hmt
    rw [if_neg (fun h => absurd (Prod.mk.inj h).2 (by decide)),
      if_neg (fun h => hfe (Prod.mk.inj h).1), if_neg (fun h => h0a (Prod.mk.inj h).1), if_pos rfl]

/-- A registration message is dispatched from the broadcast frames only. -/
theorem dispatchFrame_eq_registration {msg : RegistrationMessage} :
    dispatchFrame f = .registration msg ↔
      f.messageType = (0xFE, 0xBF) ∧
        RegistrationMessage.parse f.messageType f.payload = .ok msg := by
  obtain ⟨⟨hi, lo⟩, payload⟩ := f
  unfold dispatchFrame
  dsimp only
  constructor
  · intro h
    split_ifs at h with h1 h2 h3 h4
    · exact absurd (h ▸ trivial) (handleStatus_not_link (hi, lo) payload)
    · exact ⟨h2, handleRegistration_eq.1 h⟩
    · exact absurd (h ▸ trivial) (handle0abf_kind (hi, lo) payload).1
  · rintro ⟨hmt, hparse⟩
    rw [if_neg (by rw [hmt]; decide), if_pos hmt]
    exact handleRegistration_eq.2 hparse

/-- No other frame than that of a status is dispatched as one. -/
theorem messageType_of_statusUpdate {status : StatusUpdate}
    (h : dispatchFrame f = .statusUpdate status) : f.messageType = (0xFF, 0xAF) := by
  by_contra hne
  unfold dispatchFrame at h
  dsimp only at h
  rw [if_neg hne] at h
  split_ifs at h
  · exact absurd h (parseOrUnknown_ne_statusUpdate fun _ h => by cases h)
  · exact absurd h ((handle0abf_kind _ _).2 status)

/-- A status that is dispatched has been parsed. -/
theorem dispatchFrame_statusUpdate {status : StatusUpdate}
    (h : dispatchFrame f = .statusUpdate status) :
    ∃ payload, StatusUpdate.parse payload = .ok status := by
  have htype := messageType_of_statusUpdate h
  unfold dispatchFrame at h
  dsimp only at h
  rw [if_pos htype] at h
  unfold handleStatus at h
  dsimp only at h
  cases hparse : StatusUpdate.parse
      (if f.payload.length = 25 ∧ f.payload.getD 0 0 = 0x13 then f.payload.drop 1
        else f.payload) with
  | ok value =>
    rw [hparse] at h
    exact ⟨_, hparse.trans (congrArg _ (IncomingMessage.statusUpdate.inj h))⟩
  | error e =>
    rw [hparse] at h
    cases h

end Kinds

end Launa.Protocol
