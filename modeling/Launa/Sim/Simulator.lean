import Launa.Sim.Physics
import Launa.Sim.Responses

/-!
# The whole simulator

`SpaSim` with everything that can be set on it: injected errors, faults, priming, split frames, the
latency of commands, random gaps between the Ready frames, noise, and the checks of registration. A
tick sends the frames of a second, and the bytes of the app are decoded, processed and answered. A
tick panics on a set temperature that does not fit in a byte, and on an interval of Ready frames
that is empty.
-/

namespace Launa.Sim.Simulator

open Protocol

/-! ## `error_injection.rs` -/

/-- `ErrorInjection`. -/
structure ErrorInjection where
  commandSuccessRate : ℚ
  commandCounter : UInt64
  busSilenceRemaining : ℕ
  injectCorruptNext : Bool
  duplicateNext : Bool

namespace ErrorInjection

/-- `ErrorInjection::new`. -/
def new : ErrorInjection := ⟨1, 0, 0, false, false⟩

/-- `should_accept_command`. -/
def shouldAcceptCommand (self : ErrorInjection) : Bool × ErrorInjection :=
  let rate := self.commandSuccessRate
  if 1 ≤ rate then (true, self)
  else if rate ≤ 0 then (false, self)
  else
    let randVal := ((self.commandCounter * 1103515245 + 12345) >>> 16).toUInt8
    let threshold := UInt8.ofNat ⌊rate * 256⌋₊
    (randVal < threshold, { self with commandCounter := self.commandCounter + 1 })

end ErrorInjection

/-! ## `fault_manager.rs` -/

/-- `FaultManager`. -/
structure FaultManager where
  faultActive : Bool
  transientFaultRemainingTicks : ℕ
  faultLogConfig : FaultLogConfig
  faultLogEntries : List FaultLogConfig

namespace FaultManager

/-- `FaultManager::new`. -/
def new : FaultManager := ⟨false, 0, defaultFaultLogConfig, []⟩

/-- `simulate_fault_state`. -/
def simulateFaultState (self : FaultManager) (code : FaultCode) : FaultManager :=
  { self with
    faultActive := true
    faultLogConfig := { self.faultLogConfig with messageCode := code }
    transientFaultRemainingTicks := 0 }

/-- `clear_fault_state`. -/
def clearFaultState (self : FaultManager) : FaultManager :=
  { self with faultActive := false, transientFaultRemainingTicks := 0 }

/-- `simulate_transient_fault`. -/
def simulateTransientFault (self : FaultManager) (code : FaultCode) (ticks : ℕ) : FaultManager :=
  if ticks = 0 then { self with faultActive := false, transientFaultRemainingTicks := 0 }
  else
    { self with
      faultActive := true
      faultLogConfig := { self.faultLogConfig with messageCode := code }
      transientFaultRemainingTicks := ticks }

/-- `tick_transient_fault_countdown`. -/
def tickTransientFaultCountdown (self : FaultManager) : FaultManager :=
  if self.transientFaultRemainingTicks > 0 then
    let ticks := self.transientFaultRemainingTicks - 1
    { self with
      transientFaultRemainingTicks := ticks
      faultActive := if ticks = 0 then false else self.faultActive }
  else self

end FaultManager

/-! ## `frame_splitter.rs` -/

/-- `FrameSplitter`. -/
structure FrameSplitter where
  splitPoint : Option ℕ
  remainder : Option (List UInt8)

/-- `FrameSplitter::new`. -/
def FrameSplitter.new : FrameSplitter := ⟨none, none⟩

/-! ## `mod.rs` -/

/-- A command whose latency has not passed: a toggle, or a set temperature in the scale of the spa
when it came. -/
inductive DeferredCommand where
  | toggle (itemCode : UInt8)
  | setTemp (rawTemp : UInt8) (scale : TemperatureScale)

/-- `SpaEvent`: a filter cycle that starts at a tick. -/
structure SpaEvent where
  tick : ℕ
  pumpIndex : ℕ

/-- `SpaSim`. -/
structure SpaSim where
  state : WaterState
  clientId : Option UInt8
  nextClientId : UInt8
  tickCount : ℕ
  registered : Bool
  pendingClientHash : Option (UInt8 × UInt8)
  errorInjection : ErrorInjection
  faultManager : FaultManager
  frameSplitter : FrameSplitter
  pendingEvents : List SpaEvent
  jitterPaddingBytes : ℕ
  commandLatencyTicks : ℕ
  pendingCommands : List (ℕ × DeferredCommand)
  readyIntervalRange : ℕ × ℕ
  readyCountdown : ℕ
  readyRngState : UInt64
  reportUnknownTemp : Bool
  sensorNoiseJitter : ℚ
  physics : PhysicsContext
  physicsUnknownTempTicks : ℕ
  physicsNoiseAmplitude : ℚ
  physicsNoiseRng : UInt64
  primingRemainingTicks : ℕ
  filterCyclesConfig : FilterCyclesConfig
  informationConfig : InformationConfig
  spaConfigConfig : SpaConfigConfig
  requireRegistration : Bool
  rejectedUnregisteredFrames : ℕ
  registrationQueryTick : Option ℕ
  registrationWindowTicks : Option ℕ
  rejectedRegistrationResponses : ℕ

/-- `lcg_next`. -/
def lcgNext (state : UInt64) : UInt64 := state * 6364136223846793005 + 1442695040888963407

/-- The floats of the simulator: how they are rounded, and which number between -1 and 1 is made of
a random one. -/
structure Floats where
  r : Rounding
  unit : UInt64 → ℚ

/-- The state after a deferred command. -/
def DeferredCommand.apply (state : WaterState) : DeferredCommand → WaterState
  | .toggle itemCode => { state with toSpaState := state.applyToggleByCode itemCode }
  | .setTemp rawTemp scale =>
    { state with toSpaState := state.setTargetTemp (.fromWire rawTemp scale) }

/-- The loop of `process_pending_commands`. -/
def runPending : List (ℕ × DeferredCommand) → WaterState → List (ℕ × DeferredCommand) × WaterState
  | [], state => ([], state)
  | (ticks, cmd) :: cmds, state =>
    if ticks - 1 = 0 then runPending cmds (cmd.apply state)
    else
      let (cmds, state) := runPending cmds state
      ((ticks - 1, cmd) :: cmds, state)

/-- The loop of `process_pending_events`. -/
def runEvents (tickCount : ℕ) : List SpaEvent → WaterState → List SpaEvent × WaterState
  | [], state => ([], state)
  | event :: events, state =>
    if event.tick ≤ tickCount then
      let starts := event.pumpIndex < 6 ∧ state.pumps.getD event.pumpIndex .off = .off
      runEvents tickCount events (if starts then
        { state with pumps := state.pumps.setIfInBounds event.pumpIndex .low } else state)
    else
      let (events, state) := runEvents tickCount events state
      (event :: events, state)

namespace SpaSim

/-- `SpaSim::new`. -/
def new : SpaSim where
  state := .default
  clientId := none
  nextClientId := 0x11
  tickCount := 0
  registered := false
  pendingClientHash := none
  errorInjection := .new
  faultManager := .new
  frameSplitter := .new
  pendingEvents := []
  jitterPaddingBytes := 0
  commandLatencyTicks := 0
  pendingCommands := []
  readyIntervalRange := (1, 1)
  readyCountdown := 1
  readyRngState := 0
  reportUnknownTemp := false
  sensorNoiseJitter := 0
  physics := ⟨⟨21, .celsius⟩, 0, 0, 0, false⟩
  physicsUnknownTempTicks := 0
  physicsNoiseAmplitude := 0
  physicsNoiseRng := 0xDEADBEEFCAFE1234
  primingRemainingTicks := 0
  filterCyclesConfig := defaultFilterCyclesConfig
  informationConfig := .default
  spaConfigConfig := defaultSpaConfigConfig
  requireRegistration := false
  rejectedUnregisteredFrames := 0
  registrationQueryTick := none
  registrationWindowTicks := none
  rejectedRegistrationResponses := 0

/-- `should_accept_command`. -/
def shouldAcceptCommand (self : SpaSim) : Bool × SpaSim :=
  let (accepts, errorInjection) := self.errorInjection.shouldAcceptCommand
  (accepts, { self with errorInjection })

/-- `next_ready_rand`. -/
def nextReadyRand (self : SpaSim) : UInt64 × SpaSim :=
  let rand := lcgNext self.readyRngState
  (rand, { self with readyRngState := rand })

/-- `jitter_padding_len`. -/
def jitterPaddingLen (self : SpaSim) : ℕ × SpaSim :=
  if self.jitterPaddingBytes = 0 then (0, self)
  else
    let (rand, self) := self.nextReadyRand
    (rand.toNat % self.jitterPaddingBytes, self)

/-- `next_ready_interval`. It panics on an interval that is empty. -/
def nextReadyInterval (self : SpaSim) : Option (ℕ × SpaSim) :=
  let (min, max) := self.readyIntervalRange
  if min = max then some (min, self)
  else if max < min then none
  else
    let (rand, self) := self.nextReadyRand
    some (min + rand.toNat % (max - min + 1), self)

/-- `tick_transient_fault_countdown` and `tick_priming_countdown`. -/
def tickCountdowns (self : SpaSim) : SpaSim :=
  { self with
    faultManager := self.faultManager.tickTransientFaultCountdown
    primingRemainingTicks := self.primingRemainingTicks - 1 }

/-- `generate_ready_frame`. -/
def readyBytes (self : SpaSim) : List UInt8 := frameBytes (readyFrame (self.clientId.getD 0x10))

/-- `maybe_emit_ready`. -/
def maybeEmitReady (self : SpaSim) : Option (List UInt8 × SpaSim) :=
  let self := { self with readyCountdown := self.readyCountdown - 1 }
  if self.readyCountdown = 0 then do
    let (interval, sim) ← self.nextReadyInterval
    some (self.readyBytes, { sim with readyCountdown := interval })
  else some ([], self)

/-- `process_pending_commands`. -/
def processPendingCommands (self : SpaSim) : SpaSim :=
  let (pendingCommands, state) := runPending self.pendingCommands self.state
  { self with pendingCommands, state }

/-- `process_pending_events`. -/
def processPendingEvents (self : SpaSim) : SpaSim :=
  let (pendingEvents, state) := runEvents self.tickCount self.pendingEvents self.state
  { self with pendingEvents, state }

/-- `simulate_physics`. -/
def simulatePhysics (f : Floats) (self : SpaSim) : SpaSim :=
  let (state, physics) := Sim.simulatePhysics f.r self.state self.physics
  { self with state, physics }

/-- The noise of the physics. -/
def physicsNoise (f : Floats) (self : SpaSim) : ℚ × SpaSim :=
  if 0 < self.physicsNoiseAmplitude then
    let rng := lcgNext self.physicsNoiseRng
    (f.r.round (f.unit rng * self.physicsNoiseAmplitude), { self with physicsNoiseRng := rng })
  else (0, self)

/-- The noise of the sensor, before it is scaled. -/
def sensorNoise (f : Floats) (self : SpaSim) : ℚ × SpaSim :=
  if 0 < self.sensorNoiseJitter then
    let (rand, self) := self.nextReadyRand
    (f.unit rand, self)
  else (0, self)

/-- The byte of the current temperature in a status frame. -/
def currentTempByte (f : Floats) (self : SpaSim) (physicsNoise normalized : ℚ) : UInt8 :=
  let inUnknownPeriod := 0 < self.physicsUnknownTempTicks ∧
    self.physics.physicsTickCount ≤ self.physicsUnknownTempTicks
  if self.reportUnknownTemp ∨ inUnknownPeriod then 0xFF
  else
    let reportedF := self.state.currentTemp.toFahrenheit f.r
    let reportedF :=
      if 0 < self.physicsNoiseAmplitude then f.r.round (reportedF + physicsNoise) else reportedF
    let reportedF :=
      if 0 < self.sensorNoiseJitter then
        f.r.round (reportedF + f.r.round (normalized * self.sensorNoiseJitter))
      else reportedF
    match ((Temperature.mk reportedF .fahrenheit).convert f.r self.state.tempScale).toWire with
    | .ok raw => raw
    | .error _ => 0xFF

/-- The init mode in a status frame. -/
def initMode (self : SpaSim) : UInt8 :=
  if self.faultManager.faultActive then 0x02
  else if self.primingRemainingTicks > 0 then 0x01
  else 0x00

/-- A byte in the middle of a frame is flipped. -/
def corrupt (frame : List UInt8) : List UInt8 :=
  if frame.length > 6 then frame.set 5 (frame.getD 5 0 ^^^ 0xFF) else frame

/-- `generate_status_frame`. It panics on a set temperature that does not fit in a byte. -/
def generateStatusFrame (f : Floats) (self : SpaSim) : Option (List UInt8 × SpaSim) :=
  let (physicsNoise, self) := self.physicsNoise f
  let (normalized, self) := self.sensorNoise f
  let injectCorrupt := self.errorInjection.injectCorruptNext
  let self := { self with errorInjection.injectCorruptNext := false }
  (self.state.generateStatusFrame self.initMode
    (self.currentTempByte f physicsNoise normalized)).map fun frame =>
      (if injectCorrupt then corrupt (frameBytes frame) else frameBytes frame, self)

/-- What a tick sends of the status frame: it may be split or sent twice. -/
def emitStatus (self : SpaSim) (statusBytes : List UInt8) : Option (List UInt8 × SpaSim) :=
  match self.frameSplitter.splitPoint with
  | some splitPoint =>
    let self := { self with frameSplitter.splitPoint := none }
    if splitPoint = 0 then some (statusBytes, { self with frameSplitter.remainder := some [] })
    else if splitPoint ≥ statusBytes.length then
      self.maybeEmitReady.map fun (ready, self) => (statusBytes ++ ready, self)
    else
      some (statusBytes.take splitPoint,
        { self with frameSplitter.remainder := some (statusBytes.drop splitPoint) })
  | none =>
    if self.errorInjection.duplicateNext then
      let self := { self with errorInjection.duplicateNext := false }
      self.maybeEmitReady.map fun (ready, self) => (statusBytes ++ statusBytes ++ ready, self)
    else self.maybeEmitReady.map fun (ready, self) => (statusBytes ++ ready, self)

/-- What a tick does before it sends: the time goes on, and commands that are due are applied. -/
def startTick (self : SpaSim) : SpaSim :=
  { self with tickCount := self.tickCount + 1 }.processPendingCommands

/-- A tick of bus silence. -/
def tickSilent (self : SpaSim) : SpaSim :=
  { self with errorInjection.busSilenceRemaining := self.errorInjection.busSilenceRemaining - 1
    }.tickCountdowns

/-- A tick with the rest of a frame that was split. -/
def tickRemainder (self : SpaSim) (remainder : List UInt8) : Option (List UInt8 × SpaSim) := do
  let self := { self with frameSplitter.remainder := none }
  let (interval, sim) ← self.nextReadyInterval
  some (remainder ++ self.readyBytes, { sim with readyCountdown := interval }.tickCountdowns)

/-- A tick asks for clients as long as there is none. -/
def queryClients (self : SpaSim) : List UInt8 × SpaSim :=
  if self.registered then ([], self)
  else
    (frameBytes registrationQuery, { self with registrationQueryTick := some self.tickCount })

/-- A tick with a status. -/
def tickFrames (f : Floats) (self : SpaSim) : Option (List UInt8 × SpaSim) := do
  let (query, self) := self.queryClients
  let (paddingLen, self) := (self.processPendingEvents.simulatePhysics f).jitterPaddingLen
  let (statusBytes, self) ← self.generateStatusFrame f
  let (status, self) ← self.tickCountdowns.emitStatus statusBytes
  some (query ++ List.replicate paddingLen 0x00 ++ status, self)

/-- `tick`. -/
def tick (f : Floats) (self : SpaSim) : Option (List UInt8 × SpaSim) :=
  let self := self.startTick
  if self.errorInjection.busSilenceRemaining > 0 then some ([], self.tickSilent)
  else
    match self.frameSplitter.remainder with
    | some remainder => self.tickRemainder remainder
    | none => self.tickFrames f

/-- Apply a command, or defer it. -/
def accept (self : SpaSim) (cmd : DeferredCommand) : SpaSim :=
  let (accepts, self) := self.shouldAcceptCommand
  if accepts then
    if self.commandLatencyTicks = 0 then { self with state := cmd.apply self.state }
    else { self with pendingCommands := self.pendingCommands ++ [(self.commandLatencyTicks, cmd)] }
  else self

/-- What `process_frame` does with a command or a query. -/
def processCommand (self : SpaSim) (payload : List UInt8) : Option Frame × SpaSim :=
  match payload with
  | 0x04 :: _ => (some (configResponse self.state.toSpaState self.spaConfigConfig), self)
  | 0x11 :: itemCode :: _ => (none, self.accept (.toggle itemCode))
  | 0x20 :: rawTemp :: _ => (none, self.accept (.setTemp rawTemp self.state.tempScale))
  | 0x22 :: 0x01 :: _ => (some (filterCyclesResponse self.filterCyclesConfig), self)
  | 0x22 :: 0x02 :: _ => (some (informationResponse self.informationConfig), self)
  | 0x22 :: 0x20 :: _ => (some (faultLogResponse self.faultManager.faultLogConfig), self)
  | _ => (none, self)

/-- Whether the response of a client comes too late. -/
def isLate (self : SpaSim) : Bool :=
  match self.registrationWindowTicks, self.registrationQueryTick with
  | some windowTicks, some queryTick => self.tickCount - queryTick > windowTicks
  | _, _ => false

/-- The hash in a registration frame. -/
def hashOf (payload : List UInt8) : UInt8 × UInt8 :=
  if payload.length ≥ 4 then (payload.getD 2 0, payload.getD 3 0) else (0x00, 0x00)

/-- The next channel is taken. They are given out in a circle. -/
def takeChannel (self : SpaSim) : UInt8 × SpaSim :=
  (self.nextClientId,
    { self with nextClientId := if self.nextClientId ≥ 0x2F then 0x11 else self.nextClientId + 1 })

/-- The channel for a client: the one it has, or the next one. -/
def allocateChannel (self : SpaSim) (hash : UInt8 × UInt8) : UInt8 × SpaSim :=
  match self.clientId with
  | some id =>
    if self.registered ∧ self.pendingClientHash = some hash then (id, self) else self.takeChannel
  | none => self.takeChannel

/-- What `process_frame` does with a registration frame. -/
def processRegistration (self : SpaSim) (payload : List UInt8) : Option Frame × SpaSim :=
  match payload with
  | 0x01 :: _ =>
    if self.isLate then
      (none, { self with rejectedRegistrationResponses := self.rejectedRegistrationResponses + 1 })
    else
      let hash := hashOf payload
      let (id, self) := self.allocateChannel hash
      (some (clientIdAssignment id hash),
        { self with pendingClientHash := some hash, registrationQueryTick := none })
  | 0x04 :: channel :: _ =>
    let hash := hashOf payload
    (some (existingClientResponse channel hash),
      { self with clientId := some channel, registered := true, pendingClientHash := some hash })
  | _ => (none, self)

/-- `process_frame`. -/
def processFrame (self : SpaSim) (frame : Frame) : Option Frame × SpaSim :=
  if frame.messageType = (0x0A, 0xBF) then
    if frame.payload = [] then (none, self)
    else if self.requireRegistration ∧ self.registered = false then
      (none, { self with rejectedUnregisteredFrames := self.rejectedUnregisteredFrames + 1 })
    else self.processCommand frame.payload
  else if frame.messageType = (0xFE, 0xBF) then self.processRegistration frame.payload
  else if frame.messageType.2 = 0xBF ∧ frame.payload.head? = some 0x03 then
    (none, { self with clientId := some frame.messageType.1, registered := true })
  else (none, self)

/-- The loop of `process_incoming_bytes`. -/
def processFrames (self : SpaSim) : List Frame → List Frame × SpaSim
  | [] => ([], self)
  | frame :: frames =>
    let (response, self) := self.processFrame frame
    let (responses, self) := self.processFrames frames
    (response.toList ++ responses, self)

/-- The frames that bytes are answered with. -/
def respond (self : SpaSim) (bytes : List UInt8) : List Frame × SpaSim :=
  match FrameDecoder.new.feedSlice bytes with
  | some (frames, _) => self.processFrames frames
  | none => ([], self)

/-- `process_incoming_bytes`. -/
def processIncomingBytes (self : SpaSim) (bytes : List UInt8) : List UInt8 × SpaSim :=
  let (responses, self) := self.respond bytes
  (responses.flatMap frameBytes, self)

/-! ## What can be set -/

/-- A call that sets something. -/
inductive Setting where
  | commandSuccessRate (rate : ℚ)
  | busSilence (durationTicks : ℕ)
  | event (atTick pumpIndex : ℕ)
  | corruptFrame
  | duplicateFrame
  | spaReboot
  | client (channel : UInt8)
  | faultState (code : FaultCode)
  | clearFaultState
  | transientFault (code : FaultCode) (ticks : ℕ)
  | primingMode (durationTicks : ℕ)
  | clearPrimingMode
  | sensorNoise (jitter : ℚ)
  | unknownTemp
  | clearUnknownTemp
  | physicsUnknownTempTicks (ticks : ℕ)
  | physicsOvershoot (overshoot : Temperature)
  | physicsNoiseAmplitude (amplitude : ℚ)
  | ambientTemp (temp : Temperature)
  | pumpHeatContribution (contribution : Temperature)
  | partialFrameAt (splitPoint : ℕ)
  | jitterPaddingBytes (maxBytes : ℕ)
  | commandLatencyTicks (ticks : ℕ)
  | readyIntervalRange (min max : ℕ)
  | faultLogConfig (config : FaultLogConfig)
  | faultLogEntries (entries : List FaultLogConfig)
  | filterCyclesConfig (config : FilterCyclesConfig)
  | informationConfig (config : InformationConfig)
  | spaConfigConfig (config : SpaConfigConfig)
  | requireRegistration (require : Bool)
  | registrationWindow (windowTicks : Option ℕ)

/-- The simulator after a call that sets something. -/
def set (f : Floats) (self : SpaSim) : Setting → SpaSim
  | .commandSuccessRate rate =>
    { self with errorInjection.commandSuccessRate := max 0 (min rate 1) }
  | .busSilence durationTicks =>
    { self with errorInjection.busSilenceRemaining := durationTicks }
  | .event atTick pumpIndex =>
    { self with pendingEvents := self.pendingEvents ++ [⟨atTick, pumpIndex⟩] }
  | .corruptFrame => { self with errorInjection.injectCorruptNext := true }
  | .duplicateFrame => { self with errorInjection.duplicateNext := true }
  | .spaReboot =>
    { self with
      registered := false
      clientId := none
      pendingClientHash := none
      registrationQueryTick := none }
  | .client channel => { self with clientId := some channel, registered := true }
  | .faultState code => { self with faultManager := self.faultManager.simulateFaultState code }
  | .clearFaultState => { self with faultManager := self.faultManager.clearFaultState }
  | .transientFault code ticks =>
    { self with faultManager := self.faultManager.simulateTransientFault code ticks }
  | .primingMode durationTicks => { self with primingRemainingTicks := durationTicks }
  | .clearPrimingMode => { self with primingRemainingTicks := 0 }
  | .sensorNoise jitter => { self with sensorNoiseJitter := |jitter| }
  | .unknownTemp => { self with reportUnknownTemp := true }
  | .clearUnknownTemp => { self with reportUnknownTemp := false }
  | .physicsUnknownTempTicks ticks => { self with physicsUnknownTempTicks := ticks }
  | .physicsOvershoot overshoot =>
    { self with physics.physicsOvershoot := max (overshoot.toFahrenheit f.r) 0 }
  | .physicsNoiseAmplitude amplitude => { self with physicsNoiseAmplitude := max amplitude 0 }
  | .ambientTemp temp => { self with physics.ambientTemp := temp }
  | .pumpHeatContribution contribution =>
    { self with physics.pumpHeatContribution := max (contribution.toFahrenheit f.r) 0 }
  | .partialFrameAt splitPoint => { self with frameSplitter := ⟨some splitPoint, none⟩ }
  | .jitterPaddingBytes maxBytes => { self with jitterPaddingBytes := maxBytes }
  | .commandLatencyTicks ticks => { self with commandLatencyTicks := ticks }
  | .readyIntervalRange min max =>
    { self with readyIntervalRange := (Nat.max min 1, Nat.max max min) }
  | .faultLogConfig config => { self with faultManager.faultLogConfig := config }
  | .faultLogEntries entries => { self with faultManager.faultLogEntries := entries }
  | .filterCyclesConfig config => { self with filterCyclesConfig := config }
  | .informationConfig config => { self with informationConfig := config }
  | .spaConfigConfig config => { self with spaConfigConfig := config }
  | .requireRegistration require => { self with requireRegistration := require }
  | .registrationWindow windowTicks => { self with registrationWindowTicks := windowTicks }

/-- What is done with a simulator. -/
inductive SimEvent where
  | set (setting : Setting)
  | tick
  | incoming (bytes : List UInt8)

/-- What is sent after an event. It fails if a tick panics. -/
def step (f : Floats) (self : SpaSim) : SimEvent → Option (List UInt8 × SpaSim)
  | .set setting => some ([], self.set f setting)
  | .tick => self.tick f
  | .incoming bytes => some (self.processIncomingBytes bytes)

/-! ## What is drawn -/

section Drawn

variable {self : SpaSim}

/-- Padding only draws a number. -/
theorem jitterPaddingLen_snd (self : SpaSim) :
    ∃ rng, self.jitterPaddingLen.2 = { self with readyRngState := rng } := by
  unfold jitterPaddingLen
  split
  · exact ⟨self.readyRngState, rfl⟩
  · exact ⟨_, rfl⟩

/-- So does the interval of the Ready frames. -/
theorem nextReadyInterval_eq_some {next : ℕ × SpaSim} (h : self.nextReadyInterval = some next) :
    ∃ rng, next.2 = { self with readyRngState := rng } := by
  unfold nextReadyInterval at h
  dsimp only at h
  split_ifs at h
  · exact ⟨self.readyRngState, by rw [← Option.some.inj h]⟩
  · exact ⟨_, by rw [← Option.some.inj h]; rfl⟩

/-- The noise of the physics changes its own random numbers only. -/
theorem physicsNoise_snd (f : Floats) (self : SpaSim) :
    ∃ rng, (self.physicsNoise f).2 = { self with physicsNoiseRng := rng } := by
  unfold physicsNoise
  split
  · exact ⟨_, rfl⟩
  · exact ⟨self.physicsNoiseRng, rfl⟩

/-- The noise of the sensor changes its own random numbers only. -/
theorem sensorNoise_snd (f : Floats) (self : SpaSim) :
    ∃ rng, (self.sensorNoise f).2 = { self with readyRngState := rng } := by
  unfold sensorNoise
  split
  · exact ⟨_, rfl⟩
  · exact ⟨self.readyRngState, rfl⟩

end Drawn

/-! ## What sending changes -/

/-- The second simulator differs from the first in what sending changes: the injected errors, the
faults, the rest of a frame, the count until Ready, the random numbers, and priming. -/
def OnlySends (s s' : SpaSim) : Prop :=
  ∃ injection faults splitter countdown rng noise priming,
    s' = { s with
      errorInjection := injection
      faultManager := faults
      frameSplitter := splitter
      readyCountdown := countdown
      readyRngState := rng
      physicsNoiseRng := noise
      primingRemainingTicks := priming }

namespace OnlySends

variable {self s s' s'' : SpaSim} {o : List UInt8 × SpaSim}

/-- A simulator differs from itself in nothing. -/
theorem refl (s : SpaSim) : OnlySends s s := ⟨_, _, _, _, _, _, _, rfl⟩

/-- Two steps that only send only send one after the other. -/
theorem trans (h : OnlySends s s') (h' : OnlySends s' s'') : OnlySends s s'' := by
  obtain ⟨_, _, _, _, _, _, _, rfl⟩ := h
  obtain ⟨_, _, _, _, _, _, _, rfl⟩ := h'
  exact ⟨_, _, _, _, _, _, _, rfl⟩

/-- The length of the padding only changes what sending changes. -/
theorem jitterPaddingLen (self : SpaSim) : OnlySends self self.jitterPaddingLen.2 := by
  obtain ⟨rng, hdrawn⟩ := jitterPaddingLen_snd self
  exact ⟨_, _, _, _, rng, _, _, hdrawn⟩

/-- The countdowns only change what sending changes. -/
theorem tickCountdowns (self : SpaSim) : OnlySends self self.tickCountdowns :=
  ⟨_, _, _, _, _, _, _, rfl⟩

/-- Encoding the status only changes what sending changes. -/
theorem generateStatusFrame {f : Floats} (h : self.generateStatusFrame f = some o) :
    OnlySends self o.2 := by
  obtain ⟨noise, hphysics⟩ := physicsNoise_snd f self
  obtain ⟨rng, hsensor⟩ := sensorNoise_snd f (self.physicsNoise f).2
  unfold SpaSim.generateStatusFrame at h
  dsimp only at h
  obtain ⟨frame, -, rfl⟩ := Option.map_eq_some_iff.1 h
  rw [hsensor, hphysics]
  exact ⟨_, _, _, _, _, _, _, rfl⟩

/-- Emitting Ready only changes what sending changes. -/
theorem maybeEmitReady (h : self.maybeEmitReady = some o) : OnlySends self o.2 := by
  unfold SpaSim.maybeEmitReady at h
  dsimp only at h
  split at h
  · obtain ⟨next, hnext, hsome⟩ := Option.bind_eq_some_iff.1 h
    obtain ⟨rng, hdrawn⟩ := nextReadyInterval_eq_some hnext
    rw [← Option.some.inj hsome, hdrawn]
    exact ⟨_, _, _, _, _, _, _, rfl⟩
  · rw [← Option.some.inj h]
    exact ⟨_, _, _, _, _, _, _, rfl⟩

/-- Emitting a status only changes what sending changes. -/
theorem emitStatus {statusBytes : List UInt8} (h : self.emitStatus statusBytes = some o) :
    OnlySends self o.2 := by
  have hready {s : SpaSim} (hs : OnlySends self s) {bytes : List UInt8}
      (hmap : (s.maybeEmitReady.map fun o => (bytes ++ o.1, o.2)) = some o) :
      OnlySends self o.2 := by
    obtain ⟨o', ho', rfl⟩ := Option.map_eq_some_iff.1 hmap
    have hsent := maybeEmitReady ho'
    exact hs.trans hsent
  unfold SpaSim.emitStatus at h
  split at h
  · dsimp only at h
    split_ifs at h
    · rw [← Option.some.inj h]
      exact ⟨_, _, _, _, _, _, _, rfl⟩
    · refine hready ?_ h
      exact ⟨_, _, _, _, _, _, _, rfl⟩
    · rw [← Option.some.inj h]
      exact ⟨_, _, _, _, _, _, _, rfl⟩
  · split at h
    · refine hready ?_ h
      exact ⟨_, _, _, _, _, _, _, rfl⟩
    · exact hready (refl self) h

/-- A silent tick only changes what sending changes. -/
theorem tickSilent (self : SpaSim) : OnlySends self self.tickSilent := ⟨_, _, _, _, _, _, _, rfl⟩

/-- A tick that sends the rest of a frame only changes what sending changes. -/
theorem tickRemainder {remainder : List UInt8} (h : self.tickRemainder remainder = some o) :
    OnlySends self o.2 := by
  obtain ⟨next, hnext, hsome⟩ := Option.bind_eq_some_iff.1 h
  obtain ⟨rng, hdrawn⟩ := nextReadyInterval_eq_some hnext
  rw [← Option.some.inj hsome, hdrawn]
  exact ⟨_, _, _, _, _, _, _, rfl⟩

/-- A tick with a status asks for clients, does what is scheduled, warms the water, and sends. -/
theorem tickFrames {f : Floats} (h : self.tickFrames f = some o) :
    OnlySends (self.queryClients.2.processPendingEvents.simulatePhysics f) o.2 := by
  unfold SpaSim.tickFrames at h
  dsimp only at h
  obtain ⟨status, hstatus, hrest⟩ := Option.bind_eq_some_iff.1 h
  obtain ⟨sent, hsent, hsome⟩ := Option.bind_eq_some_iff.1 hrest
  have hdrawn := (jitterPaddingLen _).trans (generateStatusFrame hstatus)
  have hlast := (tickCountdowns status.2).trans (emitStatus hsent)
  rw [← Option.some.inj hsome]
  exact hdrawn.trans hlast

end OnlySends

end SpaSim

end Launa.Sim.Simulator
