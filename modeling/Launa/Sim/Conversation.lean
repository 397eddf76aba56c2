import Launa.Sim.Transmission

/-!
# The simulator answers the firmware

A query of the firmware for the configuration, the information, a fault or the filter cycles is
answered with one frame, which the firmware understands as what is configured. No other command is
answered, and neither are the queries for the settings of the panel and for the preferences. As long
as registration is required no command is heard of a client that has not registered
(`answers_command`).
-/

namespace Launa.Sim.Simulator.SpaSim

open Protocol

/-! ## Answers -/

/-- Commands are heard. -/
def Hears (self : SpaSim) : Prop := ¬ (self.requireRegistration ∧ self.registered = false)

instance (self : SpaSim) : Decidable self.Hears := inferInstanceAs (Decidable (¬ _))

/-- The frame that a command is answered with. -/
def responseTo (self : SpaSim) : Command → Option Frame
  | .configurationRequest => some (configResponse self.state.toSpaState self.spaConfigConfig)
  | .filterCyclesRequest | .settingsRequest .filterCycles =>
    some (filterCyclesResponse self.filterCyclesConfig)
  | .informationRequest | .settingsRequest .information =>
    some (informationResponse self.informationConfig)
  | .faultLogRequest _ => some (faultLogResponse self.faultManager.faultLogConfig)
  | _ => none

/-- What the firmware understands of it. Whichever entry of the fault log it asks for, it is told
of the same. -/
def answer (self : SpaSim) : Command → Option IncomingMessage
  | .configurationRequest =>
    some (.controlConfiguration (readConfig self.state.toSpaState self.spaConfigConfig))
  | .filterCyclesRequest | .settingsRequest .filterCycles =>
    some (.filterCyclesResponse (readFilterCycles self.filterCyclesConfig))
  | .informationRequest | .settingsRequest .information =>
    some (.informationResponse (readInformation self.informationConfig))
  | .faultLogRequest _ => some (.faultLogResponse (readFaultLog self.faultManager.faultLogConfig))
  | _ => none

variable {self : SpaSim}

/-- A response is dispatched as the answer. -/
theorem dispatch_responseTo (self : SpaSim) (cmd : Command) :
    (self.responseTo cmd).map dispatchFrame = self.answer cmd := by
  have hconfig := dispatchFrame_configResponse self.state.toSpaState self.spaConfigConfig
  have hcycles := dispatchFrame_filterCyclesResponse self.filterCyclesConfig
  have hinformation := dispatchFrame_informationResponse self.informationConfig
  cases cmd with
  | configurationRequest => exact congrArg some hconfig
  | filterCyclesRequest => exact congrArg some hcycles
  | informationRequest => exact congrArg some hinformation
  | faultLogRequest entry => exact congrArg some (dispatchFrame_faultLogResponse _)
  | settingsRequest settings =>
    cases settings with
    | filterCycles => exact congrArg some hcycles
    | information => exact congrArg some hinformation
    | _ => rfl
  | _ => rfl

/-- What arrives in one frame. -/
theorem respond_frame {frame : Frame} {bytes : List UInt8} (hbytes : frame.encode = .ok bytes)
    (hne : frame.payload.length ≠ 122) :
    self.respond bytes = ((self.processFrame frame).1.toList, (self.processFrame frame).2) := by
  rw [respond, feedSlice_encode hbytes hne]
  show (_ ++ [], _) = _
  rw [List.append_nil]
  rfl

/-- A command that is heard. -/
theorem processFrame_hears (h : self.Hears) (payload : List UInt8) :
    self.processFrame ⟨(0x0A, 0xBF), payload⟩ = self.processCommand payload := by
  unfold processFrame
  rw [if_pos rfl]
  dsimp only
  split
  · next hempty =>
    rw [hempty]
    rfl
  · rw [if_neg h]

/-- A command that is refused is counted. -/
theorem processFrame_refuses (h : ¬ self.Hears) (payload : List UInt8) :
    ∃ count, self.processFrame ⟨(0x0A, 0xBF), payload⟩ =
      (none, { self with rejectedUnregisteredFrames := count }) := by
  unfold processFrame
  rw [if_pos rfl]
  dsimp only
  split
  · exact ⟨self.rejectedUnregisteredFrames, rfl⟩
  · rw [if_pos (not_not.1 h)]
    exact ⟨_, rfl⟩

/-- Of another type, the payload of a command is none of registration. -/
theorem processFrame_other {cmd : Command} {msgType : MessageType} {payload : List UInt8}
    (hencode : cmd.encode = .ok (msgType, payload)) (htype : msgType ≠ (0x0A, 0xBF)) :
    self.processFrame ⟨msgType, payload⟩ = (none, self) := by
  have hhead {b : UInt8} (hb : payload.head? = some b) :
      b ≠ 0x01 ∧ b ≠ 0x03 ∧ (b = 0x04 → msgType.1 ≠ 0xFE) := by
    rcases Command.encode_head hencode hb with hlarge | ⟨rfl, hchannel⟩
    · refine ⟨?_, ?_, ?_⟩
      · rintro rfl
        exact hlarge (by decide)
      · rintro rfl
        exact hlarge (by decide)
      · rintro rfl
        exact absurd (by decide) hlarge
    · exact ⟨by decide, by decide, fun _ => hchannel⟩
  unfold processFrame
  rw [if_neg htype]
  dsimp only
  split_ifs with hbroadcast hack
  · unfold processRegistration
    split
    · exact absurd rfl (hhead rfl).1
    · exact absurd (congrArg Prod.fst hbroadcast) ((hhead rfl).2.2 rfl)
    · rfl
  · exact absurd rfl (hhead hack.2).2.1
  · rfl

section Commands

variable {cmd : Command} {payload : List UInt8}

/-- A command that cannot be encoded has no response. -/
theorem respond_nothing {e : CommandError} (h : cmd.encode = .error e) :
    self.respond (encodeCommand cmd) = ([], self) := by
  rw [encodeCommand_eq_nil h, respond, FrameDecoder.feedSlice]
  rfl

/-- An encoded command is responded to as the frame that it is. -/
theorem respond_encoded {msgType : MessageType} (h : cmd.encode = .ok (msgType, payload)) :
    self.respond (encodeCommand cmd) = ((self.processFrame ⟨msgType, payload⟩).1.toList,
      (self.processFrame ⟨msgType, payload⟩).2) := by
  have hlen := Command.length_payload_le h
  exact respond_frame (encode_encodeCommand h) (show payload.length ≠ 122 by omega)

/-- A spa that hears processes the payload of a command. -/
theorem respond_command (hears : self.Hears) (h : cmd.encode = .ok ((0x0A, 0xBF), payload)) :
    self.respond (encodeCommand cmd) =
      ((self.processCommand payload).1.toList, (self.processCommand payload).2) := by
  rw [respond_encoded h, processFrame_hears hears]

end Commands

/-- A query is answered, and changes nothing. -/
theorem respond_encodeCommand (h : self.Hears) (cmd : Command) :
    (self.respond (encodeCommand cmd)).1 = (self.responseTo cmd).toList ∧
      (self.responseTo cmd ≠ none → (self.respond (encodeCommand cmd)).2 = self) := by
  cases cmd with
  | configurationRequest =>
    rw [respond_command h rfl]
    exact ⟨rfl, fun _ => rfl⟩
  | toggleItem item =>
    rw [respond_command h rfl]
    exact ⟨rfl, fun hsome => absurd rfl hsome⟩
  | setTemperature temp =>
    refine ⟨?_, fun hsome => absurd rfl hsome⟩
    cases hencode : (Command.setTemperature temp).encode with
    | error e =>
      rw [respond_nothing hencode]
      rfl
    | ok parts =>
      have hparts : (Command.setTemperature temp).encode = .ok ((0x0A, 0xBF), [0x20, temp]) := by
        rw [Command.encode] at hencode ⊢
        split at hencode
        · cases hencode
        · next hlimit => rw [if_neg hlimit]
      rw [respond_command h hparts]
      rfl
  | setTime hour minute is24h =>
    refine ⟨?_, fun hsome => absurd rfl hsome⟩
    cases hencode : (Command.setTime hour minute is24h).encode with
    | error e =>
      rw [respond_nothing hencode]
      rfl
    | ok parts =>
      obtain ⟨hourByte, hparts⟩ : ∃ hourByte, (Command.setTime hour minute is24h).encode =
          .ok ((0x0A, 0xBF), [0x21, hourByte, minute]) := by
        rw [Command.encode] at hencode ⊢
        split at hencode
        · cases hencode
        split at hencode
        · cases hencode
        · next hhour hminute => exact ⟨_, by rw [if_neg hhour, if_neg hminute]⟩
      rw [respond_command h hparts]
      rfl
  | settingsRequest settings =>
    cases settings <;> rw [respond_command h rfl] <;> exact ⟨rfl, fun _ => rfl⟩
  | nothingToSend clientId =>
    refine ⟨?_, fun hsome => absurd rfl hsome⟩
    have hencode : (Command.nothingToSend clientId).encode = .ok ((clientId, 0xBF), [0x07]) := rfl
    by_cases htype : ((clientId, 0xBF) : MessageType) = (0x0A, 0xBF)
    · rw [respond_command h (htype ▸ hencode)]
      rfl
    · rw [respond_encoded hencode, processFrame_other hencode htype]
      rfl
  | sniff seconds =>
    rw [respond_encoded rfl]
    exact ⟨rfl, fun _ => rfl⟩
  | reboot =>
    rw [respond_encoded rfl]
    exact ⟨rfl, fun _ => rfl⟩
  | _ =>
    rw [respond_command h rfl]
    exact ⟨rfl, fun _ => rfl⟩

/-- A client that is not registered is not answered, and what it sends is counted at most. -/
theorem respond_refused (h : ¬ self.Hears) (cmd : Command) :
    ∃ count, self.respond (encodeCommand cmd) =
      ([], { self with rejectedUnregisteredFrames := count }) := by
  have hrefused {payload : List UInt8} (hencode : cmd.encode = .ok ((0x0A, 0xBF), payload)) :
      ∃ count, self.respond (encodeCommand cmd) =
        ([], { self with rejectedUnregisteredFrames := count }) := by
    obtain ⟨count, hframe⟩ := processFrame_refuses h payload
    exact ⟨count, by rw [respond_encoded hencode, hframe]; rfl⟩
  cases hencode : cmd.encode with
  | error e => exact ⟨self.rejectedUnregisteredFrames, respond_nothing hencode⟩
  | ok parts =>
    obtain ⟨msgType, payload⟩ := parts
    by_cases htype : msgType = (0x0A, 0xBF)
    · exact hrefused (htype ▸ hencode)
    · refine ⟨self.rejectedUnregisteredFrames, ?_⟩
      rw [respond_encoded hencode, processFrame_other hencode htype]
      rfl

/-- A command of the firmware that asks for what the simulator knows is answered with what the
firmware understands as configured, and changes nothing. No other command is answered. Where
registration is required and missing, no command is answered, and none does anything. -/
theorem answers_command (self : SpaSim) (cmd : Command) :
    (self.Hears → ∃ frames,
      FrameDecoder.new.feedSlice (self.processIncomingBytes (encodeCommand cmd)).1 =
        some (frames, .new) ∧
      frames.map dispatchFrame = (self.answer cmd).toList ∧
      (self.answer cmd ≠ none → (self.processIncomingBytes (encodeCommand cmd)).2 = self)) ∧
    (¬ self.Hears → ∃ count, self.processIncomingBytes (encodeCommand cmd) =
      ([], { self with rejectedUnregisteredFrames := count })) := by
  refine ⟨fun h => ?_, fun h => ?_⟩
  · obtain ⟨hframes, hsame⟩ := respond_encodeCommand h cmd
    have hbytes : (self.processIncomingBytes (encodeCommand cmd)).1 =
        (self.responseTo cmd).toList.flatMap frameBytes :=
      congrArg (List.flatMap frameBytes) hframes
    have hdispatch := dispatch_responseTo self cmd
    rw [hbytes]
    cases hresponse : self.responseTo cmd with
    | none =>
      rw [hresponse] at hdispatch
      refine ⟨[], ?_, ?_, fun hsome => absurd hdispatch.symm hsome⟩
      · rw [Option.toList_none, List.flatMap_nil, FrameDecoder.feedSlice]
      · rw [← hdispatch]
        rfl
    | some response =>
      rw [hresponse] at hframes hdispatch
      have hshort : response.payload.length < 122 := by
        apply fits_respond
        rw [hframes]
        exact List.mem_singleton_self response
      refine ⟨[response], ?_, ?_, fun _ => ?_⟩
      · rw [Option.toList_some, List.flatMap_singleton, Sent.frameBytes_eq (by omega)]
        exact feedSlice_encode (Frame.encode_eq_ok.2 ⟨by omega, rfl⟩) (by omega)
      · rw [← hdispatch]
        rfl
      · exact hsame (by rw [hresponse]; exact Option.some_ne_none response)
  · obtain ⟨count, hrespond⟩ := respond_refused h cmd
    exact ⟨count, by rw [processIncomingBytes, hrespond]; rfl⟩

end Launa.Sim.Simulator.SpaSim
