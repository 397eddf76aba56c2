import Launa.Protocol.CommandFrames
import Launa.Protocol.Dispatcher
import Launa.Protocol.Framing
import Mathlib.Data.Nat.ModEq

/-!
# The simulated spa

The state of `SpaSim` and what the frames of the app do to it: a pump goes from off to low to high
and back to off, and the blower and the lights are switched over. The simulator is as `SpaSim::new`
leaves it, so a command is accepted, and applied at once (`processIncomingBytes_encodeCommand`).
-/

namespace Launa.Sim

open Protocol

/-- `SpaState`. -/
structure SpaState where
  setTemp : Temperature
  setTempHigh : Temperature
  setTempLow : Temperature
  heatingMode : HeatingMode
  tempScale : TemperatureScale
  isHeating : Bool
  tempRange : TempRange
  pumps : Vector PumpState 6
  circPump : Bool
  blower : Bool
  lights : Vector Bool 4
  mister : Bool
  hour : UInt8
  minute : UInt8
  hold : Bool
  deriving DecidableEq

/-- `cycle_pump`. -/
def cyclePump : PumpState → PumpState
  | .off => .low
  | .low => .high
  | .high => .off

/-- `cycle_heating_mode`. -/
def cycleHeatingMode : HeatingMode → HeatingMode
  | .ready => .rest
  | .rest => .readyInRest
  | .readyInRest => .ready

/-- `flip_temp_range`. -/
def flipTempRange : TempRange → TempRange
  | .high => .low
  | .low => .high

/-- `pump_state_to_bits`. -/
def pumpStateToBits : PumpState → UInt8
  | .off => 0
  | .low => 1
  | .high => 2

/-- The bits of the heating mode. -/
def heatingModeToBits : HeatingMode → UInt8
  | .ready => 0
  | .rest => 1
  | .readyInRest => 3

/-- Four two-bit fields. -/
def fields (a b c d : UInt8) : UInt8 := a ||| (b <<< 2) ||| (c <<< 4) ||| (d <<< 6)

/-- The two-bit field of a light. -/
def lightToBits (light : Bool) : UInt8 := if light then 3 else 0

namespace SpaState

/-- `SpaState::default`. -/
def default : SpaState where
  setTemp := ⟨40, .celsius⟩
  setTempHigh := ⟨40, .celsius⟩
  setTempLow := ⟨26, .celsius⟩
  heatingMode := .ready
  tempScale := .celsius
  isHeating := false
  tempRange := .high
  pumps := Vector.replicate 6 .off
  circPump := true
  blower := false
  lights := Vector.replicate 4 false
  mister := false
  hour := 14
  minute := 30
  hold := false

/-- `SpaState::set_target_temp`. -/
def setTargetTemp (s : SpaState) (temp : Temperature) : SpaState :=
  match s.tempRange with
  | .high => { s with setTemp := temp, setTempHigh := temp }
  | .low => { s with setTemp := temp, setTempLow := temp }

/-- A pump goes on to its next state. There is one for each item that toggles a pump. -/
def togglePump (s : SpaState) (idx : ℕ) : SpaState :=
  { s with pumps := s.pumps.setIfInBounds idx (cyclePump (s.pumps.getD idx .off)) }

/-- A light is switched over. -/
def toggleLight (s : SpaState) (idx : ℕ) : SpaState :=
  { s with lights := s.lights.setIfInBounds idx (!s.lights.getD idx false) }

/-- The other temperature range, with the set temperature that was saved for it. -/
def toggleTempRange (s : SpaState) : SpaState :=
  match s.tempRange with
  | .high => { s with setTempHigh := s.setTemp, tempRange := .low, setTemp := s.setTempLow }
  | .low => { s with setTempLow := s.setTemp, tempRange := .high, setTemp := s.setTempHigh }

/-- `apply_toggle_by_code`. -/
def applyToggleByCode (s : SpaState) (itemCode : UInt8) : SpaState :=
  match itemCode with
  | 0x04 => s.togglePump 0
  | 0x05 => s.togglePump 1
  | 0x06 => s.togglePump 2
  | 0x07 => s.togglePump 3
  | 0x08 => s.togglePump 4
  | 0x09 => s.togglePump 5
  | 0x0C => { s with blower := !s.blower }
  | 0x11 => s.toggleLight 0
  | 0x12 => s.toggleLight 1
  | 0x13 => s.toggleLight 2
  | 0x14 => s.toggleLight 3
  | 0x3C => { s with hold := !s.hold }
  | 0x51 => { s with heatingMode := cycleHeatingMode s.heatingMode }
  | 0x50 => s.toggleTempRange
  | _ => s

/-- The payload of `generate_status_frame`. The init mode and the current temperature come from the
physics, and are given. -/
def statusPayload (s : SpaState) (initMode currentTemp setTemp : UInt8) : List UInt8 :=
  let pump (idx : ℕ) := pumpStateToBits (s.pumps.getD idx .off)
  let light (idx : ℕ) := lightToBits (s.lights.getD idx false)
  [if s.hold then 0x05 else 0x00, initMode, currentTemp, s.hour, s.minute,
    heatingModeToBits s.heatingMode, 0, 0, 0,
    (if s.tempScale = .celsius then 0x01 else 0) ||| 0x02,
    (if s.isHeating then 0x30 else 0) ||| (if s.tempRange = .high then 0x04 else 0),
    fields (pump 0) (pump 1) (pump 2) (pump 3), fields (pump 4) (pump 5) 0 0,
    (if s.circPump then 0x02 else 0) ||| (if s.blower then 0x0C else 0),
    fields (light 0) (light 1) (light 2) (light 3),
    if s.mister then 0x01 else 0, 0, 0, 0, 0, setTemp, 0, 0, 0]

/-- `generate_status_frame`. It panics on a set temperature that does not fit in a byte. -/
def generateStatusFrame (s : SpaState) (initMode currentTemp : UInt8) : Option Frame :=
  s.setTemp.toWire.toOption.map fun setTemp =>
    ⟨(0xFF, 0xAF), 0x13 :: s.statusPayload initMode currentTemp setTemp⟩

/-- `SpaSim::process_frame`: what a frame does to the state. -/
def processFrame (s : SpaState) (frame : Frame) : SpaState :=
  if frame.messageType = (0x0A, 0xBF) then
    match frame.payload with
    | 0x11 :: itemCode :: _ => s.applyToggleByCode itemCode
    | 0x20 :: rawTemp :: _ => s.setTargetTemp (.fromWire rawTemp s.tempScale)
    | _ => s
  else s

/-- `SpaSim::process_incoming_bytes`. -/
def processIncomingBytes (s : SpaState) (bytes : List UInt8) : SpaState :=
  match FrameDecoder.new.feedSlice bytes with
  | some (frames, _) => frames.foldl processFrame s
  | none => s

end SpaState

variable (s : SpaState)

/-- A new decoder has an encoded frame from its bytes. -/
theorem feedSlice_encode {frame : Frame} {bytes : List UInt8} (h : frame.encode = .ok bytes)
    (hne : frame.payload.length ≠ 122) :
    FrameDecoder.new.feedSlice bytes = some ([frame], .new) := by
  obtain ⟨hlen, rfl⟩ := Frame.encode_eq_ok.1 h
  rw [FrameDecoder.feedSlice_eq (FrameDecoder.fits_of_idle rfl)]
  exact congrArg some (FrameDecoder.run_sliceByte_frame hlen (by decide) hne)

/-- A frame is processed from its bytes. -/
theorem processIncomingBytes_encode {frame : Frame} {bytes : List UInt8}
    (h : frame.encode = .ok bytes) (hne : frame.payload.length ≠ 122) :
    s.processIncomingBytes bytes = s.processFrame frame := by
  unfold SpaState.processIncomingBytes
  rw [feedSlice_encode h hne]
  rfl

/-- The bytes do nothing to the spa. -/
def Ignored (bytes : List UInt8) : Prop := ∀ s : SpaState, s.processIncomingBytes bytes = s

/-- The spa takes no notice of other sub-types than those of toggles and temperatures. -/
theorem processFrame_of_head {frame : Frame} {b : UInt8} (hb : frame.payload.head? = some b)
    (htoggle : b ≠ 0x11) (htemp : b ≠ 0x20) : s.processFrame frame = s := by
  obtain ⟨msgType, payload⟩ := frame
  unfold SpaState.processFrame
  dsimp only
  split
  · split
    · exact absurd (Option.some.inj hb).symm htoggle
    · exact absurd (Option.some.inj hb).symm htemp
    · rfl
  · rfl

/-- The spa ignores a registration message among the commands. -/
theorem ignored_registration (msg : RegistrationMessage) : Ignored msg.bytes := by
  obtain ⟨b, hhead, hle, -⟩ := msg.frame_head
  have hlen : msg.frame.payload.length ≠ 122 :=
    (msg.encodeParts_length.trans_lt (by decide)).ne
  intro s
  rw [@processIncomingBytes_encode s msg.frame _ msg.encode_ok hlen]
  refine processFrame_of_head s hhead ?_ ?_ <;>
    · rintro rfl
      exact absurd hle (by decide)

/-- What a command does to the spa: a toggle is applied, and a temperature set if it can be sent. -/
def SpaState.applyCommand (s : SpaState) : Command → SpaState
  | .toggleItem item => s.applyToggleByCode item.code
  | .setTemperature temp =>
    if temp > absoluteMaxTempF then s else s.setTargetTemp (.fromWire temp s.tempScale)
  | _ => s

/-- The command of the app is applied from its bytes. -/
theorem processIncomingBytes_eq_applyCommand (cmd : Command) :
    s.processIncomingBytes (encodeCommand cmd) = s.applyCommand cmd := by
  cases hcmd : cmd.encode with
  | error e =>
    -- Nothing is sent.
    have hnothing : s.processIncomingBytes [] = s := by
      rw [SpaState.processIncomingBytes, FrameDecoder.feedSlice]
      rfl
    rw [encodeCommand_eq_nil hcmd, hnothing]
    cases cmd with
    | setTemperature temp =>
      rw [Command.encode] at hcmd
      split at hcmd
      · rename_i hlimit
        exact (if_pos hlimit).symm
      · cases hcmd
    | toggleItem item => cases hcmd
    | _ => rfl
  | ok parts =>
    obtain ⟨msgType, payload⟩ := parts
    have hlen : payload.length ≠ 122 := ((Command.length_payload_le hcmd).trans_lt (by decide)).ne
    rw [processIncomingBytes_encode s (encode_encodeCommand hcmd) hlen]
    cases cmd with
    | toggleItem item =>
      cases hcmd
      rfl
    | setTemperature temp =>
      rw [Command.encode] at hcmd
      split at hcmd
      · cases hcmd
      · rename_i hlimit
        cases hcmd
        exact (if_neg hlimit).symm
    | _ =>
      cases hb : payload.head? with
      | none =>
        rw [List.head?_eq_none_iff.1 hb]
        unfold SpaState.processFrame
        split <;> rfl
      | some b =>
        obtain ⟨htoggle, htemp⟩ := Command.opcode hcmd hb
        refine processFrame_of_head s hb (fun h => ?_) fun h => ?_
        · obtain ⟨item, heq⟩ := htoggle h
          cases heq
        · obtain ⟨temp, heq⟩ := htemp h
          cases heq

/-- The command of the app toggles its item, or it leaves the spa or sets its temperature. -/
theorem processIncomingBytes_encodeCommand (cmd : Command) :
    (∃ item, cmd = .toggleItem item ∧
        s.processIncomingBytes (encodeCommand cmd) = s.applyToggleByCode item.code) ∨
      (∀ item, cmd ≠ .toggleItem item) ∧
        ((∃ temp, s.processIncomingBytes (encodeCommand cmd) = s.setTargetTemp temp) ∨
          s.processIncomingBytes (encodeCommand cmd) = s) := by
  rw [processIncomingBytes_eq_applyCommand]
  cases cmd with
  | toggleItem item => exact .inl ⟨item, rfl, rfl⟩
  | setTemperature temp =>
    refine .inr ⟨fun item h => Command.noConfusion h, ?_⟩
    by_cases hlimit : temp > absoluteMaxTempF
    · exact .inr (if_pos hlimit)
    · exact .inl ⟨_, if_neg hlimit⟩
  | _ => exact .inr ⟨fun item h => Command.noConfusion h, .inr rfl⟩

/-- The spa ignores that there is nothing to send. -/
theorem ignored_nothingToSend (clientId : UInt8) :
    Ignored (encodeCommand (.nothingToSend clientId)) := fun s =>
  (@processIncomingBytes_encode s ⟨(clientId, 0xBF), [0x07]⟩ _ (encode_encodeCommand rfl)
    (show 1 ≠ 122 by decide)).trans (processFrame_of_head s rfl (by decide) (by decide))

/-! ## What a toggle does -/

section Toggle

variable (item : ToggleItem)

/-- The other temperature range changes the range, and nothing else but set temperatures. -/
theorem toggleTempRange_eq : ∃ setTemp setTempHigh setTempLow, s.toggleTempRange =
    { s with
      tempRange := flipTempRange s.tempRange, setTemp := setTemp, setTempHigh := setTempHigh,
      setTempLow := setTempLow } := by
  cases h : s.tempRange with
  | high => exact ⟨s.setTempLow, s.setTemp, s.setTempLow, by rw [SpaState.toggleTempRange, h]; rfl⟩
  | low => exact ⟨s.setTempHigh, s.setTempHigh, s.setTemp, by rw [SpaState.toggleTempRange, h]; rfl⟩

/-- A temperature that is set changes nothing but set temperatures. -/
theorem setTargetTemp_eq (temp : Temperature) : ∃ setTempHigh setTempLow, s.setTargetTemp temp =
    { s with setTemp := temp, setTempHigh := setTempHigh, setTempLow := setTempLow } := by
  cases h : s.tempRange with
  | high => exact ⟨temp, s.setTempLow, by rw [SpaState.setTargetTemp, h]⟩
  | low => exact ⟨s.setTempHigh, temp, by rw [SpaState.setTargetTemp, h]⟩

/-- A toggle changes the pumps only if it is that of a pump. -/
theorem toggle_pumps : (s.applyToggleByCode item.code).pumps =
    match item.pumpIndex with
    | some idx => (s.togglePump idx).pumps
    | none => s.pumps := by
  cases item with
  | temperatureRange =>
    obtain ⟨_, _, _, h⟩ := toggleTempRange_eq s
    show s.toggleTempRange.pumps = s.pumps
    rw [h]
  | _ => rfl

/-- A toggle changes the lights only if it is that of a light. -/
theorem toggle_lights : (s.applyToggleByCode item.code).lights =
    match item.lightIndex with
    | some idx => (s.toggleLight idx).lights
    | none => s.lights := by
  cases item with
  | temperatureRange =>
    obtain ⟨_, _, _, h⟩ := toggleTempRange_eq s
    show s.toggleTempRange.lights = s.lights
    rw [h]
  | _ => rfl

/-- Within the bounds there is no need of the fallback. -/
theorem getD_eq_getElem {α : Type} {n : ℕ} (xs : Vector α n) (fallback : α) {i : ℕ} (h : i < n) :
    xs.getD i fallback = xs[i] := by
  rw [Vector.getD, Array.getD, dif_pos (by rw [xs.size_toArray]; exact h)]
  rfl

/-- Only the element at the index changes. -/
theorem get_setIfInBounds {α : Type} {n : ℕ} (xs : Vector α n) (f : α → α) (fallback : α)
    (i idx : Fin n) : (xs.setIfInBounds i (f (xs.getD i fallback))).get idx =
      if i = idx then f (xs.get idx) else xs.get idx := by
  rw [getD_eq_getElem xs fallback i.isLt]
  refine (Vector.getElem_setIfInBounds idx.isLt).trans ?_
  by_cases hidx : i = idx
  · subst hidx
    rw [if_pos rfl, if_pos rfl]
    rfl
  · rw [if_neg hidx, if_neg (mt Fin.ext hidx)]
    rfl

/-- A pump cycles exactly on its own toggle. -/
theorem toggle_pump (idx : Fin 6) : (s.applyToggleByCode item.code).pumps.get idx =
    if item.pumpIndex = some idx then cyclePump (s.pumps.get idx) else s.pumps.get idx := by
  rw [toggle_pumps]
  cases item.pumpIndex with
  | none => exact (if_neg (Option.some_ne_none idx).symm).symm
  | some i =>
    simp only [Option.some.injEq]
    exact get_setIfInBounds s.pumps cyclePump .off i idx

/-- A light changes exactly on its own toggle. -/
theorem toggle_light (idx : Fin 4) : (s.applyToggleByCode item.code).lights.get idx =
    if item.lightIndex = some idx then !s.lights.get idx else s.lights.get idx := by
  rw [toggle_lights]
  cases item.lightIndex with
  | none => exact (if_neg (Option.some_ne_none idx).symm).symm
  | some i =>
    simp only [Option.some.injEq]
    exact get_setIfInBounds s.lights (fun on => !on) false i idx

/-- The blower changes exactly on its own toggle. -/
theorem toggle_blower : (s.applyToggleByCode item.code).blower =
    if item = .blower then !s.blower else s.blower := by
  cases item with
  | temperatureRange =>
    obtain ⟨_, _, _, h⟩ := toggleTempRange_eq s
    show s.toggleTempRange.blower = s.blower
    rw [h]
  | _ => rfl

/-- The hold mode changes exactly on its own toggle. -/
theorem toggle_hold : (s.applyToggleByCode item.code).hold =
    if item = .holdMode then !s.hold else s.hold := by
  cases item with
  | temperatureRange =>
    obtain ⟨_, _, _, h⟩ := toggleTempRange_eq s
    show s.toggleTempRange.hold = s.hold
    rw [h]
  | _ => rfl

/-- The heating mode cycles exactly on its own toggle. -/
theorem toggle_heatingMode : (s.applyToggleByCode item.code).heatingMode =
    if item = .heatingMode then cycleHeatingMode s.heatingMode else s.heatingMode := by
  cases item with
  | temperatureRange =>
    obtain ⟨_, _, _, h⟩ := toggleTempRange_eq s
    show s.toggleTempRange.heatingMode = s.heatingMode
    rw [h]
  | _ => rfl

/-- The range is flipped exactly on its own toggle. -/
theorem toggle_tempRange : (s.applyToggleByCode item.code).tempRange =
    if item = .temperatureRange then flipTempRange s.tempRange else s.tempRange := by
  cases item with
  | temperatureRange =>
    obtain ⟨_, _, _, h⟩ := toggleTempRange_eq s
    show s.toggleTempRange.tempRange = flipTempRange s.tempRange
    rw [h]
  | _ => rfl

/-- Two items of one pump are the same, and two of one light. -/
theorem eq_of_pumpIndex {item item' : ToggleItem} {idx : Fin 6} (h : item.pumpIndex = some idx)
    (h' : item'.pumpIndex = some idx) : item = item' := by
  have hfrom : ∀ {item : ToggleItem}, item.pumpIndex = some idx →
      ToggleItem.fromPumpIndex idx = some item := fun {item} h => by
    cases item <;> cases h <;> rfl
  exact Option.some.inj ((hfrom h).symm.trans (hfrom h'))

/-- A light has one toggle only. -/
theorem eq_of_lightIndex {item item' : ToggleItem} {idx : Fin 4} (h : item.lightIndex = some idx)
    (h' : item'.lightIndex = some idx) : item = item' := by
  have hfrom : ∀ {item : ToggleItem}, item.lightIndex = some idx →
      ToggleItem.fromLightIndex idx = some item := fun {item} h => by
    cases item <;> cases h <;> rfl
  exact Option.some.inj ((hfrom h).symm.trans (hfrom h'))

end Toggle

/-! ## What a status shows -/

/-- The status shows what can be toggled as it is. -/
structure Truthful (s : SpaState) (status : StatusUpdate) : Prop where
  pumps : status.pumps = s.pumps
  lights : status.lights = s.lights
  blower : status.blower = s.blower
  isHold : status.isHold = s.hold
  heatingMode : status.heatingMode = s.heatingMode
  tempRange : status.tempRange = s.tempRange

/-- The pumps are decoded from their bits. -/
theorem decodePumps_fields (pumps : Vector PumpState 6) :
    decodePumps
      (fields (pumpStateToBits (pumps.getD 0 .off)) (pumpStateToBits (pumps.getD 1 .off))
        (pumpStateToBits (pumps.getD 2 .off)) (pumpStateToBits (pumps.getD 3 .off)))
      (fields (pumpStateToBits (pumps.getD 4 .off)) (pumpStateToBits (pumps.getD 5 .off)) 0 0)
      decodePumpState = pumps := by
  -- Each field is read back, whatever the others are.
  have hfields : ∀ a b c d : PumpState,
      let byte := fields (pumpStateToBits a) (pumpStateToBits b) (pumpStateToBits c)
        (pumpStateToBits d)
      decodePumpState (byte &&& 3) = a ∧ decodePumpState ((byte >>> 2) &&& 3) = b ∧
        decodePumpState ((byte >>> 4) &&& 3) = c ∧ decodePumpState ((byte >>> 6) &&& 3) = d := by
    intro a b c d
    cases a <;> cases b <;> cases c <;> cases d <;> decide
  obtain ⟨h0, h1, h2, h3⟩ := hfields (pumps.getD 0 .off) (pumps.getD 1 .off)
    (pumps.getD 2 .off) (pumps.getD 3 .off)
  obtain ⟨h4, h5, -, -⟩ := hfields (pumps.getD 4 .off) (pumps.getD 5 .off) .off .off
  ext i hi : 1
  rw [decodePumps, Vector.getElem_map, ← getD_eq_getElem pumps .off hi]
  rcases i with _ | _ | _ | _ | _ | _ | i
  · exact h0
  · exact h1
  · exact h2
  · exact h3
  · exact h4
  · exact h5
  · omega

/-- The lights are decoded from their bits. -/
theorem decodeLights_fields (lights : Vector Bool 4) :
    decodeLights
      (fields (lightToBits (lights.getD 0 false)) (lightToBits (lights.getD 1 false))
        (lightToBits (lights.getD 2 false)) (lightToBits (lights.getD 3 false))) = lights := by
  have hfields : ∀ a b c d : Bool,
      let byte := fields (lightToBits a) (lightToBits b) (lightToBits c) (lightToBits d)
      (byte &&& 0x03 != 0) = a ∧ (byte &&& 0x0C != 0) = b ∧ (byte &&& 0x30 != 0) = c ∧
        (byte &&& 0xC0 != 0) = d := by decide
  obtain ⟨h0, h1, h2, h3⟩ := hfields (lights.getD 0 false) (lights.getD 1 false)
    (lights.getD 2 false) (lights.getD 3 false)
  ext i hi : 1
  rw [← getD_eq_getElem lights false hi]
  rcases i with _ | _ | _ | _ | i
  · exact h0
  · exact h1
  · exact h2
  · exact h3
  · omega

/-- The status of the spa is truthful. -/
theorem dispatchFrame_status {initMode currentTemp : UInt8} {frame : Frame}
    (h : s.generateStatusFrame initMode currentTemp = some frame) :
    ∃ status, dispatchFrame frame = .statusUpdate status ∧ Truthful s status := by
  obtain ⟨setTemp, -, rfl⟩ := Option.map_eq_some_iff.1 h
  refine ⟨_, rfl, ?_⟩
  have hblower : ∀ circPump blower : Bool,
      (((if circPump then 0x02 else 0) ||| (if blower then 0x0C else 0) : UInt8) &&& 0x0C != 0) =
        blower := by decide
  constructor
  · exact decodePumps_fields s.pumps
  · exact decodeLights_fields s.lights
  · exact hblower s.circPump s.blower
  · show ((if s.hold then 0x05 else 0x00 : UInt8) == 0x05) = s.hold
    cases s.hold <;> rfl
  · show (if heatingModeToBits s.heatingMode &&& 0x03 = 0 then HeatingMode.ready
      else if heatingModeToBits s.heatingMode &&& 0x03 = 1 then .rest
      else if heatingModeToBits s.heatingMode &&& 0x03 = 3 then .readyInRest
      else .ready) = s.heatingMode
    cases s.heatingMode <;> rfl
  · show (if ((if s.isHeating then 0x30 else 0) ||| (if s.tempRange = .high then 0x04 else 0) :
      UInt8) &&& 0x04 != 0 then TempRange.high else .low) = s.tempRange
    cases s.isHeating <;> cases s.tempRange <;> rfl

/-! ## Accessories -/

/-- The accessories that the spa can toggle. -/
inductive Accessory where
  | pump (idx : Fin 6)
  | light (idx : Fin 4)
  | blower
  deriving DecidableEq, Repr

namespace Accessory

/-- The item that is toggled. -/
def item : Accessory → ToggleItem
  | pump idx => (ToggleItem.fromPumpIndex idx).getD .pump1
  | light idx => (ToggleItem.fromLightIndex idx).getD .light1
  | blower => .blower

/-- The accessory is on. -/
def isOn (s : SpaState) : Accessory → Bool
  | pump idx => s.pumps.get idx ≠ .off
  | light idx => s.lights.get idx
  | blower => s.blower

/-- The number of states that the accessory goes through. -/
def period : Accessory → ℕ
  | pump _ => 3
  | light _ | blower => 2

/-- How far a pump is in its cycle. -/
def pumpPhase : PumpState → ℕ
  | .off => 0
  | .low => 1
  | .high => 2

/-- How far the accessory is in its cycle, which starts when it is off. -/
def phase (s : SpaState) : Accessory → ℕ
  | pump idx => pumpPhase (s.pumps.get idx)
  | light idx => (s.lights.get idx).toNat
  | blower => s.blower.toNat

/-- The accessory is on when it is so many steps further in its cycle. -/
def onAfter (s : SpaState) (steps : ℕ) (accessory : Accessory) : Bool :=
  ¬ accessory.period ∣ accessory.phase s + steps

/-- An accessory is on in every state of its cycle but the first. -/
theorem onAfter_zero (accessory : Accessory) (s : SpaState) :
    accessory.onAfter s 0 = accessory.isOn s := by
  have hbool : ∀ b : Bool, decide (¬ 2 ∣ b.toNat + 0) = b := by decide
  cases accessory with
  | pump idx =>
    have hpump : ∀ state, decide (¬ 3 ∣ pumpPhase state + 0) = decide (state ≠ .off) :=
      fun state => by cases state <;> decide
    exact hpump (s.pumps.get idx)
  | light idx => exact hbool (s.lights.get idx)
  | blower => exact hbool s.blower

/-- The toggle of a pump has its index. -/
theorem pumpIndex_item : ∀ idx, (pump idx).item.pumpIndex = some idx := by decide

/-- The toggle of a light has its index. -/
theorem lightIndex_item : ∀ idx, (light idx).item.lightIndex = some idx := by decide

/-- A toggle is one step in the cycle of the accessory. -/
theorem phase_toggle (accessory : Accessory) (s : SpaState) :
    accessory.phase (s.applyToggleByCode accessory.item.code) =
      (accessory.phase s + 1) % accessory.period := by
  have hflip : ∀ b : Bool, (!b).toNat = (b.toNat + 1) % 2 := by decide
  cases accessory with
  | pump idx =>
    have hpump := toggle_pump s (pump idx).item idx
    rw [if_pos (pumpIndex_item idx)] at hpump
    have hcycle : ∀ state, pumpPhase (cyclePump state) = (pumpPhase state + 1) % 3 := by
      intro state
      cases state <;> rfl
    calc pumpPhase ((s.applyToggleByCode (pump idx).item.code).pumps.get idx)
        = pumpPhase (cyclePump (s.pumps.get idx)) := congrArg pumpPhase hpump
      _ = (pumpPhase (s.pumps.get idx) + 1) % 3 := hcycle _
  | light idx =>
    have hlight := toggle_light s (light idx).item idx
    rw [if_pos (lightIndex_item idx)] at hlight
    calc ((s.applyToggleByCode (light idx).item.code).lights.get idx).toNat
        = (!s.lights.get idx).toNat := congrArg Bool.toNat hlight
      _ = ((s.lights.get idx).toNat + 1) % 2 := hflip _
  | blower => exact hflip s.blower

/-- A toggle of another item leaves the accessory. -/
theorem phase_toggle_of_ne {accessory : Accessory} {item : ToggleItem} (h : item ≠ accessory.item)
    (s : SpaState) : accessory.phase (s.applyToggleByCode item.code) = accessory.phase s := by
  cases accessory with
  | pump idx =>
    have hother : item.pumpIndex ≠ some idx := fun hidx =>
      h (eq_of_pumpIndex hidx (pumpIndex_item idx))
    exact congrArg pumpPhase ((toggle_pump s item idx).trans (if_neg hother))
  | light idx =>
    have hother : item.lightIndex ≠ some idx := fun hidx =>
      h (eq_of_lightIndex hidx (lightIndex_item idx))
    exact congrArg Bool.toNat ((toggle_light s item idx).trans (if_neg hother))
  | blower => exact congrArg Bool.toNat ((toggle_blower s item).trans (if_neg h))

/-- Setting the temperature leaves the accessories alone. -/
theorem phase_setTargetTemp (accessory : Accessory) (s : SpaState) (temp : Temperature) :
    accessory.phase (s.setTargetTemp temp) = accessory.phase s := by
  obtain ⟨_, _, h⟩ := setTargetTemp_eq s temp
  rw [h]
  cases accessory <;> rfl

/-- A toggle is one step further. -/
theorem onAfter_toggle (accessory : Accessory) (s : SpaState) (steps : ℕ) :
    accessory.onAfter (s.applyToggleByCode accessory.item.code) steps =
      accessory.onAfter s (steps + 1) := by
  have hmod : (accessory.phase s + 1) % accessory.period + steps ≡
      accessory.phase s + (steps + 1) [MOD accessory.period] := by
    rw [Nat.add_comm steps, ← Nat.add_assoc]
    exact (Nat.mod_modEq _ _).add_right steps
  unfold onAfter
  rw [accessory.phase_toggle, decide_eq_decide]
  exact not_congr (hmod.dvd_iff dvd_rfl)

/-- A command moves the accessory on if it is its toggle. -/
theorem onAfter_encodeCommand (accessory : Accessory) (s : SpaState) (cmd : Command) (steps : ℕ) :
    accessory.onAfter (s.processIncomingBytes (encodeCommand cmd)) steps =
      accessory.onAfter s ((if cmd = .toggleItem accessory.item then 1 else 0) + steps) := by
  have hkept : ∀ s' : SpaState, accessory.phase s' = accessory.phase s →
      accessory.onAfter s' steps = accessory.onAfter s (0 + steps) := fun s' h => by
    rw [onAfter, h, Nat.zero_add, onAfter]
  rcases processIncomingBytes_encodeCommand s cmd with ⟨item, rfl, happlied⟩ | ⟨hother, hset⟩
  · rw [happlied]
    by_cases hitem : item = accessory.item
    · rw [hitem, if_pos rfl, Nat.add_comm, accessory.onAfter_toggle]
    · rw [if_neg fun h => hitem (Command.toggleItem.inj h)]
      exact hkept _ (phase_toggle_of_ne hitem s)
  · rw [if_neg (hother accessory.item)]
    rcases hset with ⟨temp, hset⟩ | hset
    · rw [hset]
      exact hkept _ (accessory.phase_setTargetTemp s temp)
    · rw [hset]
      exact hkept s rfl

end Accessory

end Launa.Sim
