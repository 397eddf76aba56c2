import Launa.Sim.Emulator

/-!
# The responses of the simulated spa

`frame_gen.rs` encodes what the simulator is configured to answer the queries with. The dispatcher
reads each response back as it was configured: the scale of a configuration is that of the spa,
whatever the configuration says, the first filter cycle is always enabled, and a fault code that is
not known stays one only if it is not among the known ones (`fromCode_code_iff`).
-/

namespace Launa.Protocol

/-- `FaultCode::code`. -/
def FaultCode.code : FaultCode → UInt8
  | sync => 15
  | lowFlow => 16
  | flowFailed => 17
  | settingsReset => 18
  | priming => 19
  | clockFailed => 20
  | programMemory => 22
  | syncCallService => 26
  | heaterDry => 27
  | heaterMaybeDry => 28
  | waterTooHot => 29
  | heaterTooHot => 30
  | sensorAFault => 31
  | sensorBFault => 32
  | pumpStuckOn => 34
  | hotFault => 35
  | gfciTestFailed => 36
  | standbyHold => 37
  | unknown code => code

/-- The codes that have a name. -/
def knownFaultCodes : List UInt8 :=
  [15, 16, 17, 18, 19, 20, 22, 26, 27, 28, 29, 30, 31, 32, 34, 35, 36, 37]

/-- What holds of all numbers below 256 holds of all bytes. -/
theorem forall_uint8 {p : UInt8 → Prop} (h : ∀ n < 256, p (UInt8.ofNat n)) (b : UInt8) : p b := by
  have hb := h b.toNat b.toNat_lt
  rwa [UInt8.ofNat_toNat] at hb

set_option maxRecDepth 4000 in
/-- A code is unknown exactly if it is none of the known ones. -/
theorem FaultCode.fromCode_eq_unknown_iff :
    ∀ raw : UInt8, fromCode raw = unknown raw ↔ raw ∉ knownFaultCodes := forall_uint8 (by decide)

/-- A code is read back unless it is a known one that is called unknown. -/
theorem FaultCode.fromCode_code_iff (code : FaultCode) :
    fromCode code.code = code ↔ ∀ raw ∈ knownFaultCodes, code ≠ unknown raw := by
  cases code with
  | unknown raw =>
    refine (fromCode_eq_unknown_iff raw).trans
      ⟨fun h raw' hmem heq => ?_, fun h hmem => h raw hmem rfl⟩
    cases heq
    exact h hmem
  | _ => exact iff_of_true rfl fun raw _ heq => by cases heq

end Launa.Protocol

namespace Launa.Sim

open Protocol

/-! ## `config.rs` -/

/-- `FaultLogConfig`: its fields are those of an entry. -/
abbrev FaultLogConfig := FaultLogEntry

/-- `FilterCyclesConfig`: its fields are those of filter cycles. -/
abbrev FilterCyclesConfig := FilterCycles

/-- `InformationConfig`. -/
structure InformationConfig where
  softwareIdByte0 : UInt8
  softwareIdByte1 : UInt8
  softwareVersionByte0 : UInt8
  softwareVersionByte1 : UInt8
  systemModel : Vector UInt8 8
  currentSetup : UInt8
  configSigByte0 : UInt8
  configSigByte1 : UInt8
  configSigByte2 : UInt8
  configSigByte3 : UInt8
  heaterVoltage : UInt8
  heaterType : UInt8
  dipSwitchByte0 : UInt8
  dipSwitchByte1 : UInt8

/-- `SpaConfigConfig`: the raw payload. -/
abbrev SpaConfigConfig := Vector UInt8 10

/-- `FaultLogConfig::default`. -/
def defaultFaultLogConfig : FaultLogConfig := ⟨3, 1, .heaterDry, 2, 14, 30, 0x04, 104, 104, 102⟩

/-- `FilterCyclesConfig::default`. -/
def defaultFilterCyclesConfig : FilterCyclesConfig := ⟨⟨8, 0, 4, 0, true⟩, ⟨16, 0, 2, 0, true⟩⟩

/-- `InformationConfig::default`. -/
def InformationConfig.default : InformationConfig where
  softwareIdByte0 := 0x64
  softwareIdByte1 := 0xDC
  softwareVersionByte0 := 0x11
  softwareVersionByte1 := 0x00
  systemModel := #v[0x42, 0x46, 0x42, 0x50, 0x32, 0x30, 0x20, 0x20]
  currentSetup := 0x01
  configSigByte0 := 0x3D
  configSigByte1 := 0x12
  configSigByte2 := 0x38
  configSigByte3 := 0x2E
  heaterVoltage := 0x01
  heaterType := 0x0A
  dipSwitchByte0 := 0x04
  dipSwitchByte1 := 0x00

/-- `SpaConfigConfig::default`. -/
def defaultSpaConfigConfig : SpaConfigConfig := #v[0x02, 0x02, 0, 0, 0, 0x0A, 0, 0x01, 0x81, 0]

/-! ## `frame_gen.rs` -/

/-- `generate_config_response`: the bit of the scale is that of the spa. -/
def configResponse (s : SpaState) (config : SpaConfigConfig) : Frame :=
  let flags := if s.tempScale = .celsius then config[3] ||| 0x01 else config[3] &&& ~~~0x01
  ⟨(0x0A, 0xBF), 0x2E :: (config.set 3 flags).toList⟩

/-- `generate_information_response`. -/
def informationResponse (cfg : InformationConfig) : Frame :=
  ⟨(0x0A, 0xBF), 0x24 :: cfg.softwareIdByte0 :: cfg.softwareIdByte1 :: cfg.softwareVersionByte0 ::
    cfg.softwareVersionByte1 :: (cfg.systemModel.toList ++ [cfg.currentSetup, cfg.configSigByte0,
      cfg.configSigByte1, cfg.configSigByte2, cfg.configSigByte3, cfg.heaterVoltage, cfg.heaterType,
      cfg.dipSwitchByte0, cfg.dipSwitchByte1])⟩

/-- `fault_log_config_to_bytes`. -/
def faultLogConfigToBytes (cfg : FaultLogConfig) : List UInt8 :=
  [cfg.faultCount, cfg.entryNumber, cfg.messageCode.code, cfg.daysAgo, cfg.hour, cfg.minute,
    cfg.flags, cfg.setTemperature, cfg.sensorATemp, cfg.sensorBTemp]

/-- `generate_fault_log_response_for_entry`. -/
def faultLogResponseForEntry (config : FaultLogConfig) (entries : List FaultLogConfig)
    (entryNumber : UInt8) : Frame :=
  if entries ≠ [] then
    if entryNumber = 0 ∨ entries.length < entryNumber.toNat then
      ⟨(0x0A, 0xBF), 0x28 :: List.replicate 10 0⟩
    else
      let cfg := entries.getD (entryNumber.toNat - 1) config
      ⟨(0x0A, 0xBF), 0x28 :: faultLogConfigToBytes cfg⟩
  else ⟨(0x0A, 0xBF), 0x28 :: faultLogConfigToBytes config⟩

/-- `generate_fault_log_response`. -/
def faultLogResponse (config : FaultLogConfig) : Frame := faultLogResponseForEntry config [] 1

/-- `generate_filter_cycles_response`. -/
def filterCyclesResponse (cfg : FilterCyclesConfig) : Frame :=
  let f2StartHour :=
    if cfg.filter2.enabled then cfg.filter2.startHour ||| 0x80 else cfg.filter2.startHour &&& 0x7F
  ⟨(0x0A, 0xBF), [0x23, cfg.filter1.startHour, cfg.filter1.startMinute, cfg.filter1.durationHours,
    cfg.filter1.durationMinutes, f2StartHour, cfg.filter2.startMinute, cfg.filter2.durationHours,
    cfg.filter2.durationMinutes]⟩

/-- `generate_client_id_assignment`. -/
def clientIdAssignment (id : UInt8) (clientHash : UInt8 × UInt8) : Frame :=
  ⟨(0xFE, 0xBF), [0x02, id, clientHash.1, clientHash.2]⟩

/-- `generate_existing_client_response`. -/
def existingClientResponse (channel : UInt8) (clientHash : UInt8 × UInt8) : Frame :=
  ⟨(channel, 0xBF), [0x05, 0x04, channel, clientHash.1, clientHash.2]⟩

/-- The response about the configuration has eleven bytes. -/
theorem length_configResponse (s : SpaState) (config : SpaConfigConfig) :
    (configResponse s config).payload.length = 11 := by
  show (config.set 3 _).toList.length + 1 = 11
  rw [Vector.length_toList]

/-- The response with the information has 22 bytes. -/
theorem length_informationResponse (cfg : InformationConfig) :
    (informationResponse cfg).payload.length = 22 := by
  show (cfg.systemModel.toList ++ [_, _, _, _, _, _, _, _, _]).length + 5 = 22
  rw [List.length_append, Vector.length_toList]
  rfl

/-! ## What is read back -/

/-- What the bytes of a configuration say, in the scale of the spa. -/
def readConfig (s : SpaState) (config : SpaConfigConfig) : SpaConfig where
  pumpConfigs := decodePumps config[5] config[6] decodePumpConfig
  lights := decodeLights config[7]
  circPump := config[8] &&& 0x80 != 0
  blower := config[8] &&& 0x03 != 0
  mister := config[9] &&& 0x30 != 0
  aux1 := config[9] &&& 0x01 != 0
  aux2 := config[9] &&& 0x02 != 0
  temperatureScaleCelsius := s.tempScale = .celsius

/-- The information that is read. -/
def readInformation (cfg : InformationConfig) : InformationResponse where
  softwareId := [cfg.softwareIdByte0, cfg.softwareIdByte1, cfg.softwareVersionByte0,
    cfg.softwareVersionByte1]
  systemModel := cfg.systemModel.toList
  currentSetup := cfg.currentSetup
  configSignature := [cfg.configSigByte0, cfg.configSigByte1, cfg.configSigByte2,
    cfg.configSigByte3]
  heaterVoltage := cfg.heaterVoltage
  heaterType := cfg.heaterType
  dipSwitches := [cfg.dipSwitchByte0, cfg.dipSwitchByte1]

/-- The entry that is read. -/
def readFaultLog (cfg : FaultLogConfig) : FaultLogEntry :=
  { cfg with messageCode := .fromCode cfg.messageCode.code }

/-- The filter cycles that are read. -/
def readFilterCycles (cfg : FilterCyclesConfig) : FilterCycles where
  filter1 := { cfg.filter1 with enabled := true }
  filter2 := { cfg.filter2 with startHour := cfg.filter2.startHour &&& 0x7F }

/-- The response with the fault log is read as one. -/
theorem dispatchFrame_faultLogResponse (cfg : FaultLogConfig) :
    dispatchFrame (faultLogResponse cfg) = .faultLogResponse (readFaultLog cfg) := rfl

set_option maxRecDepth 4000 in
/-- The bit of the second cycle is read apart from its hour. -/
theorem startHour_enabled : ∀ hour : UInt8, (hour ||| 0x80) &&& 0x7F = hour &&& 0x7F ∧
    ((hour ||| 0x80) &&& 0x80 != 0) = true ∧ (hour &&& 0x7F) &&& 0x7F = hour &&& 0x7F ∧
      ((hour &&& 0x7F) &&& 0x80 != 0) = false := forall_uint8 (by decide)

/-- The response with the filter cycles is read as one. -/
theorem dispatchFrame_filterCyclesResponse (cfg : FilterCyclesConfig) :
    dispatchFrame (filterCyclesResponse cfg) = .filterCyclesResponse (readFilterCycles cfg) := by
  obtain ⟨f1, ⟨hour, minute, hours, minutes, enabled⟩⟩ := cfg
  obtain ⟨hkept, hon, hkept', hoff⟩ := startHour_enabled hour
  cases enabled with
  | false =>
    show IncomingMessage.filterCyclesResponse ⟨_, (hour &&& 0x7F) &&& 0x7F, _, _, _,
      (hour &&& 0x7F) &&& 0x80 != 0⟩ = _
    rw [hkept', hoff]
    rfl
  | true =>
    show IncomingMessage.filterCyclesResponse ⟨_, (hour ||| 0x80) &&& 0x7F, _, _, _,
      (hour ||| 0x80) &&& 0x80 != 0⟩ = _
    rw [hkept, hon]
    rfl

/-- The response with the information is read as one. -/
theorem dispatchFrame_informationResponse (cfg : InformationConfig) :
    dispatchFrame (informationResponse cfg) = .informationResponse (readInformation cfg) := by
  obtain ⟨id0, id1, version0, version1, ⟨⟨model⟩, hmodel⟩, setup⟩ := cfg
  have hlength : model.length = 8 := hmodel
  -- The model is eight bytes long, and the rest is read off their list.
  rcases model with _ | ⟨m0, _ | ⟨m1, _ | ⟨m2, _ | ⟨m3, _ | ⟨m4, _ | ⟨m5, _ | ⟨m6, _ | ⟨m7,
    _ | ⟨m8, model⟩⟩⟩⟩⟩⟩⟩⟩⟩
  all_goals first | rfl | simp at hlength

/-- The byte at a place, of which one has been set. -/
theorem getD_set_toList {n : ℕ} (xs : Vector UInt8 n) {i j : ℕ} (hi : i < n) (hj : j < n)
    (x : UInt8) : (xs.set i x).toList.getD j 0 = if i = j then x else xs[j] := by
  rw [List.getD_eq_getElem _ _ (by rw [Vector.length_toList]; exact hj), Vector.getElem_toList,
    Vector.getElem_set]

set_option maxRecDepth 4000 in
/-- The bit of the scale is the one that was written. -/
theorem scaleBit : ∀ flags : UInt8, ((flags ||| 0x01) &&& 0x01 != 0) = true ∧
    ((flags &&& ~~~0x01) &&& 0x01 != 0) = false := forall_uint8 (by decide)

/-- The response about the configuration is read as one. -/
theorem dispatchFrame_configResponse (s : SpaState) (config : SpaConfigConfig) :
    dispatchFrame (configResponse s config) = .controlConfiguration (readConfig s config) := by
  obtain ⟨hcelsius, hfahrenheit⟩ := scaleBit config[3]
  have hparse (flags : UInt8) (celsius : Bool) (h : (flags &&& 0x01 != 0) = celsius)
      (hscale : decide (s.tempScale = .celsius) = celsius) :
      SpaConfig.parse (config.set 3 flags).toList = .ok (readConfig s config) := by
    have hlength : ¬ (config.set 3 flags).toList.length < 10 := by
      rw [Vector.length_toList]
      decide
    have hbyte (j : ℕ) (hj : j < 10) (hne : 3 ≠ j) :
        (config.set 3 flags).toList.getD j 0 = config[j] :=
      (getD_set_toList config (by decide) hj flags).trans (if_neg hne)
    have hflags : (config.set 3 flags).toList.getD 3 0 = flags :=
      (getD_set_toList config (by decide) (by decide) flags).trans (if_pos rfl)
    rw [SpaConfig.parse, if_neg hlength]
    dsimp only
    rw [hbyte 5 (by decide) (by decide), hbyte 6 (by decide) (by decide),
      hbyte 7 (by decide) (by decide), hbyte 8 (by decide) (by decide),
      hbyte 9 (by decide) (by decide), hflags, h, ← hscale]
    rfl
  have hread (flags : UInt8) (hparsed : SpaConfig.parse (config.set 3 flags).toList =
      .ok (readConfig s config)) :
      dispatchFrame ⟨(0x0A, 0xBF), 0x2E :: (config.set 3 flags).toList⟩ =
        .controlConfiguration (readConfig s config) := by
    show parseOrUnknown _ _ (SpaConfig.parse (config.set 3 flags).toList) _ = _
    rw [hparsed]
    rfl
  unfold configResponse
  dsimp only
  apply hread
  by_cases hs : s.tempScale = .celsius
  · rw [if_pos hs]
    exact hparse _ true hcelsius (decide_eq_true hs)
  · rw [if_neg hs]
    exact hparse _ false hfahrenheit (decide_eq_false hs)

end Launa.Sim
