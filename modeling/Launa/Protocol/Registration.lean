import Launa.Protocol.Frame

/-!
# Client registration

The registration messages, and the state machine of a client. Its channel is what it is registered
on (`clientId`). What a message does to a client is said once (`process_cases`): it becomes
registered by an assignment with its own hash or the legacy hash `0000` while it waits for one, or
by a response with its own hash while it waits for that.
-/

namespace Launa.Protocol

/-- The two bytes that identify a client. -/
abbrev ClientHash := UInt8 × UInt8

/-- The hash of the assignments that carry none. -/
def legacyHash : ClientHash := (0x00, 0x00)

/-- A parsed registration message. -/
inductive RegistrationMessage where
  | newClientQuery
  | newClientResponse (deviceType : UInt8) (clientHash : ClientHash)
  | clientIdAssignment (channel : UInt8) (clientHash : ClientHash)
  | clientIdAck (channel : UInt8)
  | existingClientRequest (channel : Option UInt8) (clientHash : Option ClientHash)
  | existingClientResponse (channel : UInt8) (clientHash : ClientHash)
  | clearToSend (channel : UInt8)
  deriving DecidableEq, Repr

/-- Why a payload is no registration message. -/
inductive RegistrationParseError where
  | truncatedPayload
  | notRegistrationFrame
  | unknownSubType (subType : UInt8)
  deriving DecidableEq, Repr

namespace RegistrationMessage

/-- `RegistrationMessage::parse` of the broadcast frames, `FE BF`. -/
def parseBroadcast : List UInt8 → Except RegistrationParseError RegistrationMessage
  | [] => .error .truncatedPayload
  | subType :: rest =>
    if subType = 0x00 then .ok .newClientQuery
    else if subType = 0x01 then
      match rest with
      | deviceType :: h0 :: h1 :: _ => .ok (.newClientResponse deviceType (h0, h1))
      | _ => .error .truncatedPayload
    else if subType = 0x02 then
      match rest with
      | channel :: h0 :: h1 :: _ => .ok (.clientIdAssignment channel (h0, h1))
      | channel :: _ => .ok (.clientIdAssignment channel legacyHash)
      | [] => .error .truncatedPayload
    else if subType = 0x04 then
      match rest with
      | channel :: h0 :: h1 :: _ => .ok (.existingClientRequest (some channel) (some (h0, h1)))
      | _ => .ok (.existingClientRequest none none)
    else .error (.unknownSubType subType)

/-- `RegistrationMessage::parse` of the frames of a channel. -/
def parseChannel (channel : UInt8) : List UInt8 → Except RegistrationParseError RegistrationMessage
  | [] => .error .truncatedPayload
  | subType :: rest =>
    if subType = 0x03 then .ok (.clientIdAck channel)
    else if subType = 0x05 then
      match rest with
      | len :: channel :: h0 :: h1 :: _ =>
        if len ≠ 0x04 then .error .truncatedPayload
        else .ok (.existingClientResponse channel (h0, h1))
      | _ => .error .truncatedPayload
    else if subType = 0x06 then .ok (.clearToSend channel)
    else .error .notRegistrationFrame

/-- `RegistrationMessage::parse`. -/
def parse (msgType : MessageType) (payload : List UInt8) :
    Except RegistrationParseError RegistrationMessage :=
  if msgType = (0xFE, 0xBF) then parseBroadcast payload
  else if msgType.2 = 0xBF ∧ msgType.1 ≠ 0xFE ∧ msgType.1 ≠ 0xFF ∧ msgType.1 ≠ 0x0A then
    parseChannel msgType.1 payload
  else .error .notRegistrationFrame

/-- `RegistrationMessage::encode_parts`. -/
def encodeParts : RegistrationMessage → MessageType × List UInt8
  | newClientQuery => ((0xFE, 0xBF), [0x00])
  | newClientResponse deviceType clientHash =>
    ((0xFE, 0xBF), [0x01, deviceType, clientHash.1, clientHash.2])
  | clientIdAssignment channel clientHash =>
    ((0xFE, 0xBF), [0x02, channel, clientHash.1, clientHash.2])
  | clientIdAck channel => ((channel, 0xBF), [0x03])
  | existingClientRequest channel clientHash =>
    ((0xFE, 0xBF), 0x04 :: match channel with
      | none => []
      | some ch => ch :: match clientHash with
        | none => []
        | some hash => [hash.1, hash.2])
  | existingClientResponse channel clientHash =>
    ((channel, 0xBF), [0x05, 0x04, channel, clientHash.1, clientHash.2])
  | clearToSend channel => ((channel, 0xBF), [0x06])

/-- `RegistrationMessage::encode`. -/
def encode (msg : RegistrationMessage) : Except FrameError (List UInt8) :=
  FrameEncoder.encode msg.encodeParts.1 msg.encodeParts.2

/-- A registration message fits a frame. -/
theorem encodeParts_length (msg : RegistrationMessage) : msg.encodeParts.2.length ≤ 5 := by
  cases msg with
  | existingClientRequest channel clientHash =>
    rcases channel with _ | ch <;> rcases clientHash with _ | hash <;> simp [encodeParts]
  | _ => simp [encodeParts]

/-- The frame of a registration message. -/
def frame (msg : RegistrationMessage) : Frame := ⟨msg.encodeParts.1, msg.encodeParts.2⟩

/-- The bytes of a registration message. -/
def bytes (msg : RegistrationMessage) : List UInt8 :=
  frameMarker :: (msg.frame.body ++ [crc8 msg.frame.body]) ++ [frameMarker]

/-- Every registration message can be encoded. -/
theorem encode_ok (msg : RegistrationMessage) : msg.encode = .ok msg.bytes :=
  Frame.encode_eq_ok.2 ⟨Nat.le_trans msg.encodeParts_length (by decide), rfl⟩

/-- A message that the protocol has: the channel whose frames it uses is not a reserved one, and the
channel and the hash of a request are there together or not at all. -/
def WellFormed : RegistrationMessage → Prop
  | clientIdAck channel | existingClientResponse channel _ | clearToSend channel =>
    channel ≠ 0x0A ∧ channel ≠ 0xFE ∧ channel ≠ 0xFF
  | existingClientRequest channel clientHash => channel.isSome = clientHash.isSome
  | newClientQuery | newClientResponse _ _ | clientIdAssignment _ _ => True

/-- The frames of a channel that is not reserved are parsed as such. -/
theorem parse_channel {channel : UInt8} (h : channel ≠ 0x0A ∧ channel ≠ 0xFE ∧ channel ≠ 0xFF)
    (payload : List UInt8) : parse (channel, 0xBF) payload = parseChannel channel payload := by
  obtain ⟨hwifi, hassignment, hbroadcast⟩ := h
  unfold parse
  rw [if_neg (fun heq => hassignment (Prod.mk.inj heq).1),
    if_pos ⟨rfl, hassignment, hbroadcast, hwifi⟩]

/-- A message is parsed from its parts. -/
theorem parse_parts {msg : RegistrationMessage} (h : msg.WellFormed) :
    parse msg.encodeParts.1 msg.encodeParts.2 = .ok msg := by
  cases msg with
  | newClientQuery => rfl
  | newClientResponse deviceType clientHash => rfl
  | clientIdAssignment channel clientHash => rfl
  | clientIdAck channel => exact parse_channel h _
  | existingClientResponse channel clientHash => exact parse_channel h _
  | clearToSend channel => exact parse_channel h _
  -- The short form of a request has neither part.
  | existingClientRequest channel clientHash =>
    rcases channel with _ | channel <;> rcases clientHash with _ | clientHash
    · rfl
    · cases h
    · cases h
    · rfl

/-- Round trip: a message is parsed from its parts, and from the frame that is read back from its
bytes, and no other message has its parts or its bytes. -/
theorem parse_encodeParts (msg : RegistrationMessage) (h : msg.WellFormed) :
    parse msg.encodeParts.1 msg.encodeParts.2 = .ok msg ∧
    (∃ bytes f, msg.encode = .ok bytes ∧ Frame.parse (bytes.drop 1) = .ok f ∧
      parse f.messageType f.payload = .ok msg) ∧
    ∀ other : RegistrationMessage, other.WellFormed →
      other.encodeParts = msg.encodeParts ∨ other.encode = msg.encode → other = msg := by
  have hframe : ∀ msg : RegistrationMessage, Frame.parse (msg.bytes.drop 1) = .ok msg.frame :=
    fun msg => Frame.parse_encode msg.encode_ok
  refine ⟨parse_parts h, ⟨msg.bytes, msg.frame, msg.encode_ok, hframe msg, parse_parts h⟩, ?_⟩
  intro other hother heq
  have hparts : other.encodeParts = msg.encodeParts := by
    rcases heq with heq | heq
    · exact heq
    -- Equal bytes are parsed as one frame.
    · rw [encode_ok, encode_ok] at heq
      have hsame : other.frame = msg.frame := by
        have hok : (.ok other.frame : Except FrameError Frame) = .ok msg.frame := by
          rw [← hframe, ← hframe, Except.ok.inj heq]
        exact Except.ok.inj hok
      exact congrArg (fun f : Frame => (f.messageType, f.payload)) hsame
  have hok : (.ok other : Except RegistrationParseError RegistrationMessage) = .ok msg := by
    rw [← parse_parts h, ← parse_parts hother, hparts]
  exact Except.ok.inj hok

/-- A response with the hash of the source's tests. -/
theorem parse_encodeParts_response :
    parse (0x05, 0xBF) [0x05, 0x04, 0x05, 0xF1, 0x73] =
      .ok (.existingClientResponse 0x05 (0xF1, 0x73)) :=
  (parse_encodeParts (.existingClientResponse 0x05 (0xF1, 0x73))
    ⟨by decide, by decide, by decide⟩).1

/-- What is parsed from the frames of a channel is no assignment. -/
theorem parseChannel_ne_assignment {channel ch : UInt8} {hash : ClientHash} {payload : List UInt8} :
    parseChannel channel payload ≠ .ok (.clientIdAssignment ch hash) := by
  intro h
  unfold parseChannel at h
  repeat' split at h
  all_goals cases h

/-- An assignment is a broadcast frame. -/
theorem parse_assignment {msgType : MessageType} {payload : List UInt8} {ch : UInt8}
    {hash : ClientHash} (h : parse msgType payload = .ok (.clientIdAssignment ch hash)) :
    msgType = (0xFE, 0xBF) := by
  unfold parse at h
  by_contra hne
  rw [if_neg hne] at h
  split at h
  · exact parseChannel_ne_assignment h
  · cases h

end RegistrationMessage

/-! ## The state machine -/

/-- The states of the registration. -/
inductive RegistrationState where
  | waitingForQuery
  | waitingForAssignment
  | waitingForExistingResponse
  | registered (clientId : UInt8)
  deriving DecidableEq, Repr

/-- What the caller does after a registration message. -/
inductive RegistrationAction where
  | sendNewClientResponse
  | sendClientIdAck (clientId : UInt8)
  | sendExistingClientRequest (message : RegistrationMessage)
  | none
  deriving DecidableEq, Repr

/-- The registration state machine of a client. -/
structure RegistrationStateMachine where
  state : RegistrationState
  clientHash : ClientHash
  previousChannel : Option UInt8
  deriving DecidableEq, Repr

namespace RegistrationStateMachine

/-- `RegistrationStateMachine::new`. -/
def new (clientHash : ClientHash) : RegistrationStateMachine := ⟨.waitingForQuery, clientHash, none⟩

/-- `RegistrationStateMachine::with_previous_channel`. -/
def withPreviousChannel (clientHash : ClientHash) (channel : UInt8) : RegistrationStateMachine :=
  ⟨.waitingForQuery, clientHash, some channel⟩

/-- `RegistrationStateMachine::client_id`: the channel that it is registered on. -/
def clientId (sm : RegistrationStateMachine) : Option UInt8 :=
  match sm.state with
  | .registered clientId => some clientId
  | _ => none

/-- `RegistrationStateMachine::is_registered`. -/
def isRegistered (sm : RegistrationStateMachine) : Bool :=
  match sm.state with
  | .registered _ => true
  | _ => false

/-- `RegistrationStateMachine::reset`. -/
def reset (sm : RegistrationStateMachine) : RegistrationStateMachine :=
  { sm with state := .waitingForQuery }

/-- `RegistrationStateMachine::process`. -/
def process (sm : RegistrationStateMachine) (msg : RegistrationMessage) :
    RegistrationAction × RegistrationStateMachine :=
  match sm.state with
  | .waitingForQuery =>
    match msg with
    | .newClientQuery =>
      match sm.previousChannel with
      | some ch =>
        (.sendExistingClientRequest (.existingClientRequest (some ch) (some sm.clientHash)),
          { sm with state := .waitingForExistingResponse })
      | none => (.sendNewClientResponse, { sm with state := .waitingForAssignment })
    | _ => (.none, sm)
  | .waitingForAssignment =>
    match msg with
    | .clientIdAssignment channel clientHash =>
      if clientHash ≠ legacyHash ∧ clientHash ≠ sm.clientHash then (.none, sm)
      else (.sendClientIdAck channel, { sm with state := .registered channel })
    | _ => (.none, sm)
  | .waitingForExistingResponse =>
    match msg with
    | .existingClientResponse channel clientHash =>
      if clientHash ≠ sm.clientHash then (.none, sm)
      else (.none, { sm with state := .registered channel })
    | .newClientQuery => (.sendNewClientResponse, { sm with state := .waitingForAssignment })
    | _ => (.none, sm)
  | .registered _ => (.none, sm)

variable {sm : RegistrationStateMachine}

/-- A new machine has no channel. -/
@[simp] theorem new_clientId (hash : ClientHash) : (new hash).clientId = none := rfl

/-- A machine that remembers a channel has none yet. -/
@[simp] theorem withPreviousChannel_clientId (hash : ClientHash) (channel : UInt8) :
    (withPreviousChannel hash channel).clientId = none := rfl

/-- A reset gives up the channel. -/
@[simp] theorem reset_clientId : sm.reset.clientId = none := rfl

/-- A reset keeps the hash. -/
@[simp] theorem reset_clientHash : sm.reset.clientHash = sm.clientHash := rfl

/-- The machine is registered exactly if it has a channel. -/
theorem isRegistered_iff : sm.isRegistered = true ↔ ∃ ch, sm.clientId = some ch := by
  unfold isRegistered clientId
  cases sm.state <;> simp

/-- The machine is not registered exactly if it has no channel. -/
theorem isRegistered_eq_false : sm.isRegistered = false ↔ sm.clientId = none := by
  unfold isRegistered clientId
  cases sm.state <;> simp

/-- No message changes the hash. -/
@[simp] theorem process_clientHash (msg : RegistrationMessage) :
    (sm.process msg).2.clientHash = sm.clientHash := by
  unfold process
  cases sm.state with
  | registered clientId => rfl
  | waitingForQuery =>
    cases msg <;> cases sm.previousChannel <;> rfl
  | waitingForAssignment =>
    cases msg with
    | clientIdAssignment channel hash =>
      dsimp only
      split <;> rfl
    | _ => rfl
  | waitingForExistingResponse =>
    cases msg with
    | existingClientResponse channel hash =>
      dsimp only
      split <;> rfl
    | _ => rfl

/-- A client that is not registered does not accept the message. -/
def Refuses (sm : RegistrationStateMachine) (msg : RegistrationMessage) : Prop :=
  (∀ channel hash, sm.state = .waitingForAssignment → msg = .clientIdAssignment channel hash →
    hash ≠ legacyHash ∧ hash ≠ sm.clientHash) ∧
  ∀ channel, sm.state = .waitingForExistingResponse →
    msg ≠ .existingClientResponse channel sm.clientHash

/-- What a message does to a client that is not registered: it stays so, without an acknowledgement,
or it accepts an assignment, or a response to its request. -/
theorem process_cases (h : sm.clientId = none) (msg : RegistrationMessage) :
    (sm.Refuses msg ∧ (sm.process msg).2.clientId = none ∧
        ∀ id, (sm.process msg).1 ≠ .sendClientIdAck id) ∨
      (∃ channel hash, sm.state = .waitingForAssignment ∧ msg = .clientIdAssignment channel hash ∧
        (hash = legacyHash ∨ hash = sm.clientHash) ∧
        sm.process msg = (.sendClientIdAck channel, { sm with state := .registered channel })) ∨
      (∃ channel, sm.state = .waitingForExistingResponse ∧
        msg = .existingClientResponse channel sm.clientHash ∧
        sm.process msg = (.none, { sm with state := .registered channel })) := by
  obtain ⟨state, clientHash, previousChannel⟩ := sm
  cases state with
  | registered clientId => cases h
  -- A query is answered with a request, for the previous channel if there is one.
  | waitingForQuery =>
    left
    cases msg <;> cases previousChannel <;> exact ⟨⟨nofun, nofun⟩, rfl, nofun⟩
  -- An assignment is accepted with the own hash or the legacy one.
  | waitingForAssignment =>
    cases msg with
    | clientIdAssignment channel hash =>
      by_cases hhash : hash ≠ legacyHash ∧ hash ≠ clientHash
      · left
        unfold process
        dsimp only
        rw [if_pos hhash]
        refine ⟨⟨fun channel' hash' _ heq => ?_, nofun⟩, rfl, nofun⟩
        cases heq
        exact hhash
      · right; left
        refine ⟨channel, hash, rfl, rfl, ?_, ?_⟩
        · by_contra hno
          exact hhash (not_or.1 hno)
        · unfold process
          dsimp only
          rw [if_neg hhash]
    | _ => exact .inl ⟨⟨nofun, nofun⟩, rfl, nofun⟩
  -- A response is accepted with the own hash.
  | waitingForExistingResponse =>
    cases msg with
    | existingClientResponse channel hash =>
      by_cases hhash : hash = clientHash
      · subst hhash
        right; right
        refine ⟨channel, rfl, rfl, ?_⟩
        unfold process
        dsimp only
        rw [if_neg (not_not_intro rfl)]
      · left
        unfold process
        dsimp only
        rw [if_pos hhash]
        refine ⟨⟨nofun, fun channel' _ heq => ?_⟩, rfl, nofun⟩
        cases heq
        exact hhash rfl
    | _ => exact .inl ⟨⟨nofun, nofun⟩, rfl, nofun⟩

end RegistrationStateMachine

end Launa.Protocol
