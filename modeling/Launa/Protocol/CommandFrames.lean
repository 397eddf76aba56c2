import Launa.Protocol.Command
import Launa.Protocol.Registration

/-!
# The frames of commands

What the frame of a command says of the command: no command is sent as a registration message
(`encodeCommand_not_registration`), and the frames that toggle an item or set a temperature are
those of the commands that do (`toggles_encodeCommand`, `setsTemperature_encodeCommand`).
-/

namespace Launa.Protocol

/-- The bytes are the frame of a registration message. -/
def IsRegistrationFrame (bytes : List UInt8) : Prop :=
  ∃ msg : RegistrationMessage, msg.encode = .ok bytes

/-- The payload of a registration message starts with its sub-type, which is at most 6. -/
theorem RegistrationMessage.frame_head (msg : RegistrationMessage) :
    ∃ b, msg.frame.payload.head? = some b ∧ b ≤ 0x06 ∧
      (b = 0x04 → msg.frame.messageType.1 = 0xFE) := by
  cases msg with
  | existingClientRequest ch hash => exact ⟨0x04, rfl, by decide, fun _ => rfl⟩
  | newClientQuery => exact ⟨0x00, rfl, by decide, nofun⟩
  | newClientResponse deviceType hash => exact ⟨0x01, rfl, by decide, nofun⟩
  | clientIdAssignment ch hash => exact ⟨0x02, rfl, by decide, nofun⟩
  | clientIdAck ch => exact ⟨0x03, rfl, by decide, nofun⟩
  | existingClientResponse ch hash => exact ⟨0x05, rfl, by decide, nofun⟩
  | clearToSend ch => exact ⟨0x06, rfl, by decide, nofun⟩

/-- The payload of a command starts with a byte above 6, but for the configuration request. -/
theorem Command.encode_head {cmd : Command} {msgType : MessageType} {payload : List UInt8}
    (h : cmd.encode = .ok (msgType, payload)) {b : UInt8} (hb : payload.head? = some b) :
    ¬ b ≤ 0x06 ∨ b = 0x04 ∧ msgType.1 ≠ 0xFE := by
  cases cmd with
  | nothingToSend clientId =>
    cases h
    cases hb
    exact .inl (show ¬ (0x07 : UInt8) ≤ 0x06 by decide)
  | setTemperature temp =>
    rw [encode] at h
    split at h <;> cases h
    cases hb
    exact .inl (by decide)
  | setTime hour minute is24h =>
    rw [encode] at h
    split at h
    · cases h
    split at h <;> cases h
    cases hb
    exact .inl (by decide)
  | settingsRequest settings =>
    cases settings <;> cases h <;> cases hb <;> exact .inl (by decide)
  | configurationRequest =>
    cases h
    cases hb
    exact .inr ⟨rfl, by decide⟩
  | sniff seconds =>
    cases h
    cases hb
  | reboot =>
    cases h
    cases hb
  | _ =>
    cases h
    cases hb
    exact .inl (by decide)

/-- No command is sent as a registration message. -/
theorem encodeCommand_not_registration (cmd : Command) :
    ¬ IsRegistrationFrame (encodeCommand cmd) := by
  rintro ⟨msg, hmsg⟩
  have hne : encodeCommand cmd ≠ [] := fun hnil => by
    rw [hnil, msg.encode_ok] at hmsg
    cases hmsg
  unfold encodeCommand at hmsg hne
  cases hcmd : cmd.encode with
  | error e =>
    rw [hcmd] at hne
    exact hne rfl
  | ok parts =>
    obtain ⟨msgType, payload⟩ := parts
    simp only [hcmd] at hmsg hne
    cases hframe : FrameEncoder.encode msgType payload with
    | error e =>
      rw [hframe] at hne
      exact hne rfl
    | ok encoded =>
      rw [hframe] at hmsg
      -- The frames of the command and of the message would be the same.
      have heq : (⟨msgType, payload⟩ : Frame) = msg.frame := Frame.encode_inj hframe hmsg
      obtain ⟨b, hhead, hle, hfe⟩ := msg.frame_head
      rw [← heq] at hhead hfe
      rcases Command.encode_head hcmd hhead with hgt | ⟨rfl, hne'⟩
      · exact hgt hle
      · exact hne' (hfe rfl)

namespace ToggleItem

/-- The item of a code. -/
def ofCode (code : UInt8) : Option ToggleItem :=
  [pump1, pump2, pump3, pump4, pump5, pump6, blower, light1, light2, light3, light4, mister, aux1,
    aux2, holdMode, heatingMode, temperatureRange, circulationPump, soakMode, normalOperation,
    clearNotification].find? (·.code = code)

/-- An item is read back from its code. -/
theorem ofCode_code (item : ToggleItem) : ofCode item.code = some item := by
  cases item <;> rfl

/-- Two items have different codes. -/
theorem code_inj {item item' : ToggleItem} (h : item.code = item'.code) : item = item' :=
  Option.some.inj (by rw [← ofCode_code item, h, ofCode_code])

end ToggleItem

variable {cmd cmd' : Command} {msgType : MessageType} {payload : List UInt8}

/-- The payload of a command has at most four bytes. -/
theorem Command.length_payload_le (h : cmd.encode = .ok (msgType, payload)) :
    payload.length ≤ 4 := by
  have hlen : ∀ a b c d : UInt8, [a, b, c, d].length ≤ 4 ∧ [a, b, c].length ≤ 4 ∧
      [a, b].length ≤ 4 ∧ [a].length ≤ 4 := fun a b c d => by simp
  cases cmd with
  | setTemperature temp =>
    rw [encode] at h
    split at h <;> cases h
    exact (hlen _ _ 0 0).2.2.1
  | setTime hour minute is24h =>
    rw [encode] at h
    split at h
    · cases h
    split at h <;> cases h
    exact (hlen _ _ _ 0).2.1
  | settingsRequest settings => cases settings <;> cases h <;> exact (hlen _ _ _ _).1
  | _ =>
    cases h
    simp

/-- The payload of a command fits a frame. -/
theorem Command.length_payload (h : cmd.encode = .ok (msgType, payload)) :
    payload.length ≤ 251 := (length_payload_le h).trans (by decide)

/-- The first byte of the payload of a toggle, and that of a set temperature, are those of no other
command. -/
theorem Command.opcode (h : cmd.encode = .ok (msgType, payload)) {b : UInt8}
    (hb : payload.head? = some b) :
    (b = 0x11 → ∃ item, cmd = .toggleItem item) ∧
        (b = 0x20 → ∃ temp, cmd = .setTemperature temp) := by
  cases cmd with
  | toggleItem item =>
    cases h
    cases hb
    exact ⟨fun _ => ⟨item, rfl⟩, fun h => absurd h (by decide)⟩
  | setTemperature temp =>
    rw [encode] at h
    split at h <;> cases h
    cases hb
    exact ⟨fun h => absurd h (by decide), fun _ => ⟨temp, rfl⟩⟩
  | setTime hour minute is24h =>
    rw [encode] at h
    split at h
    · cases h
    split at h <;> cases h
    cases hb
    exact ⟨fun h => absurd h (by decide), fun h => absurd h (by decide)⟩
  | settingsRequest settings =>
    cases settings <;> cases h <;> cases hb <;>
      exact ⟨fun h => absurd h (by decide), fun h => absurd h (by decide)⟩
  | sniff seconds =>
    cases h
    cases hb
  | reboot =>
    cases h
    cases hb
  | _ =>
    cases h
    cases hb
    exact ⟨fun h => absurd h (by decide), fun h => absurd h (by decide)⟩

/-- A command that can be encoded is sent as its frame. -/
theorem encode_encodeCommand (h : cmd.encode = .ok (msgType, payload)) :
    (Frame.mk msgType payload).encode = .ok (encodeCommand cmd) := by
  have hframe := Frame.encode_eq_ok (f := ⟨msgType, payload⟩).2 ⟨Command.length_payload h, rfl⟩
  rw [hframe, encodeCommand, h]
  dsimp only
  rw [FrameEncoder.encode, hframe]

/-- A command that cannot be encoded is sent as nothing. -/
theorem encodeCommand_eq_nil {e : CommandError} (h : cmd.encode = .error e) :
    encodeCommand cmd = [] := by
  rw [encodeCommand, h]

/-! ## Toggles and temperatures on the wire -/

/-- The frame that toggles an item. -/
def toggleFrame (item : ToggleItem) : Frame := ⟨(0x0A, 0xBF), [0x11, item.code, 0x00]⟩

/-- The frame that sets a temperature, given as it is on the wire. -/
def temperatureFrame (temp : UInt8) : Frame := ⟨(0x0A, 0xBF), [0x20, temp]⟩

/-- The bytes toggle the item. -/
def Toggles (item : ToggleItem) (bytes : List UInt8) : Prop := (toggleFrame item).encode = .ok bytes

instance (item : ToggleItem) : DecidablePred (Toggles item) :=
  fun bytes => inferInstanceAs (Decidable ((toggleFrame item).encode = .ok bytes))

/-- The bytes set the temperature. -/
def SetsTemperature (temp : UInt8) (bytes : List UInt8) : Prop :=
  (temperatureFrame temp).encode = .ok bytes

instance (temp : UInt8) : DecidablePred (SetsTemperature temp) :=
  fun bytes => inferInstanceAs (Decidable ((temperatureFrame temp).encode = .ok bytes))

/-- The frame of a command with the bytes of a frame. -/
theorem encode_of_frame {frame : Frame} (h : frame.encode = .ok (encodeCommand cmd)) :
    cmd.encode = .ok (frame.messageType, frame.payload) := by
  cases hcmd : cmd.encode with
  | error e =>
    rw [encodeCommand_eq_nil hcmd] at h
    exact absurd (Frame.encode_eq_ok.1 h).2 (List.cons_ne_nil _ _).symm
  | ok parts =>
    obtain ⟨msgType, payload⟩ := parts
    rw [← Frame.encode_inj (encode_encodeCommand hcmd) h]

/-- A command toggles an item on the wire exactly when it is its toggle. -/
theorem toggles_encodeCommand {item : ToggleItem} :
    Toggles item (encodeCommand cmd) ↔ cmd = .toggleItem item := by
  constructor
  · intro h
    have hcmd := encode_of_frame h
    obtain ⟨item', rfl⟩ := (Command.opcode hcmd rfl).1 rfl
    have hpayload := congrArg Prod.snd (Except.ok.inj hcmd)
    have hcode : item'.code = item.code := (List.cons.inj (List.cons.inj hpayload).2).1
    rw [ToggleItem.code_inj hcode]
  · rintro rfl
    exact encode_encodeCommand rfl

/-- A command sets a temperature on the wire exactly when it is a `SetTemperature` within the limit.
-/
theorem setsTemperature_encodeCommand {temp : UInt8} :
    SetsTemperature temp (encodeCommand cmd) ↔ cmd = .setTemperature temp ∧
      ¬ temp > absoluteMaxTempF := by
  constructor
  · intro h
    have hcmd := encode_of_frame h
    obtain ⟨temp', rfl⟩ := (Command.opcode hcmd rfl).2 rfl
    rw [Command.encode] at hcmd
    split at hcmd
    · cases hcmd
    · rename_i hmax
      have hpayload := congrArg Prod.snd (Except.ok.inj hcmd)
      obtain rfl : temp' = temp := (List.cons.inj (List.cons.inj hpayload).2).1
      exact ⟨rfl, hmax⟩
  · rintro ⟨rfl, hmax⟩
    exact encode_encodeCommand (if_neg hmax)

/-- The bytes carry a toggle or a set temperature. -/
def Carries : Command → List UInt8 → Prop
  | .toggleItem item, bytes => Toggles item bytes
  | .setTemperature temp, bytes => SetsTemperature temp bytes
  | _, _ => False

instance : (cmd : Command) → DecidablePred (Carries cmd)
  | .toggleItem item => inferInstanceAs (DecidablePred (Toggles item))
  | .setTemperature temp => inferInstanceAs (DecidablePred (SetsTemperature temp))
  | .configurationRequest | .setTime _ _ _ | .setPreference _ _ | .setTemperatureScale _
  | .settingsRequest _ | .filterCyclesRequest | .informationRequest | .faultLogRequest _
  | .nothingToSend _ | .sniff _ | .reboot => fun _ => isFalse not_false

/-- The frame of a command carries no other one. -/
theorem carries_encodeCommand (h : Carries cmd (encodeCommand cmd')) : cmd' = cmd := by
  cases cmd with
  | toggleItem item => exact toggles_encodeCommand.1 h
  | setTemperature temp => exact (setsTemperature_encodeCommand.1 h).1
  | _ => exact h.elim

/-- The bytes neither toggle an item nor set a temperature. -/
def IsOther (bytes : List UInt8) : Prop :=
  (∀ item, ¬ Toggles item bytes) ∧ ∀ temp, ¬ SetsTemperature temp bytes

/-- Other bytes carry no command. -/
theorem IsOther.not_carries {bytes : List UInt8} (h : IsOther bytes) : ¬ Carries cmd bytes := by
  cases cmd with
  | toggleItem item => exact h.1 item
  | setTemperature temp => exact h.2 temp
  | _ => exact not_false

/-- A registration message is another frame. -/
theorem isOther_registration (msg : RegistrationMessage) : IsOther msg.bytes := by
  obtain ⟨b, hhead, hle, -⟩ := msg.frame_head
  constructor
  · intro item h
    have heq : toggleFrame item = msg.frame := Frame.encode_inj h msg.encode_ok
    rw [← heq] at hhead
    cases hhead
    exact absurd hle (by decide)
  · intro temp h
    have heq : temperatureFrame temp = msg.frame := Frame.encode_inj h msg.encode_ok
    rw [← heq] at hhead
    cases hhead
    exact absurd hle (by decide)

/-- Having nothing to send is no command. -/
theorem isOther_nothingToSend (clientId : UInt8) :
    IsOther (encodeCommand (.nothingToSend clientId)) :=
  ⟨fun _ h => Command.noConfusion (toggles_encodeCommand.1 h),
    fun _ h => Command.noConfusion (setsTemperature_encodeCommand.1 h).1⟩

end Launa.Protocol
