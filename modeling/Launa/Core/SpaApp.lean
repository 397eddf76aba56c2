import Launa.Core.CommandTracker
import Launa.Core.Timers
import Launa.Protocol.Dispatcher

/-!
# The app

`SpaApp` of `spa_app.rs`: what it does with a frame, a command and the passing of time, as a
function to the actions that it asks for and its next state. Each call reads the clock once, and is
given the time that it reads. The counters wrap, and nothing reads them back but the diagnostics.

`AppCall` are the calls of a run, and `SpaApp.step` the state that one leaves.
-/

namespace Launa.Core

open Protocol

/-- The actions that the app asks for. -/
inductive AppAction where
  | sendFrame (bytes : List UInt8)
  | publishState (status : StatusUpdate) (fault : Option String) (recoveringFromStale : Bool)
      (registrationState : String)
  | publishAvailability (online : Bool)
  | publishStaleAvailability
  | publishDiscovery
  | publishDiagnostics (uptimeSecs : ℕ) (framesReceived unregisteredFrames commandRetries
      commandDrops : UInt32) (registrationState : String) (frameErrors uartBytes : UInt32)
  | publishAlert (level message : String)
  | requestOta (url : String)
  deriving DecidableEq

/-- The state of the app. -/
structure SpaApp where
  registration : RegistrationStateMachine
  registrationStartedAt : Option Timestamp
  cmdTracker : CommandTracker
  commandQueue : List Command
  pumpTimers : PumpTimerManager
  holdTimer : HoldModeTimer
  heapMonitor : HeapMonitor
  lastStatus : Option StatusUpdate
  lastFault : Option String
  clientId : Option UInt8
  lastStatusTime : Option Timestamp
  lastProbeTime : Option Timestamp
  lastDiagTime : Option Timestamp
  wasStale : Bool
  framesReceived : UInt32
  unregisteredFramesReceived : UInt32
  noQueryAlertSent : Bool
  regLog : RateLog
  bootTime : Timestamp
  clientHash : ClientHash
  failedRegistrationAttempts : UInt8
  lastUnregisteredFrameTime : Option Timestamp
  lastRegistrationProbeTime : Option Timestamp
  lastCtsTime : Option Timestamp
  deriving DecidableEq

/-- A call's actions, and the state that it leaves. -/
abbrev AppResult := List AppAction × SpaApp

namespace SpaApp

/-- `SpaApp::with_client_hash`. -/
def withClientHash (now : Timestamp) (clientHash : ClientHash) : SpaApp where
  registration := .new clientHash
  registrationStartedAt := none
  cmdTracker := .new
  commandQueue := []
  pumpTimers := .new
  holdTimer := .new
  heapMonitor := .new
  lastStatus := none
  lastFault := none
  clientId := none
  lastStatusTime := none
  lastProbeTime := none
  lastDiagTime := none
  wasStale := false
  framesReceived := 0
  unregisteredFramesReceived := 0
  noQueryAlertSent := false
  regLog := .new
  bootTime := now
  clientHash := clientHash
  failedRegistrationAttempts := 0
  lastUnregisteredFrameTime := none
  lastRegistrationProbeTime := none
  lastCtsTime := none

/-- `SpaApp::set_previous_channel`. -/
def setPreviousChannel (self : SpaApp) (channel : UInt8) : SpaApp :=
  { self with registration := .withPreviousChannel self.clientHash channel }

/-- `SpaApp::registration_state_str`. -/
def registrationStateStr (self : SpaApp) : String :=
  match self.registration.state with
  | .waitingForQuery => "waiting_for_query"
  | .waitingForAssignment => "waiting_for_assignment"
  | .waitingForExistingResponse => "waiting_for_existing_response"
  | .registered _ => "registered"

/-- `SpaApp::reset_registration_state`. -/
def resetRegistrationState (self : SpaApp) (clearCommands : Bool) : SpaApp :=
  let self := { self with
    registration := self.registration.reset
    clientId := none
    registrationStartedAt := none
    lastUnregisteredFrameTime := none
    lastRegistrationProbeTime := none
    lastCtsTime := none }
  if clearCommands then
    { self with
      commandQueue := []
      cmdTracker := self.cmdTracker.reset
      pumpTimers := self.pumpTimers.cancelAll }
  else self

/-- `SpaApp::force_publish`. -/
def forcePublish (self : SpaApp) : AppResult :=
  match self.lastStatus with
  | some status => ([.publishState status self.lastFault false self.registrationStateStr], self)
  | none => ([], self)

/-- `SpaApp::start_pump_timer`. -/
def startPumpTimer (self : SpaApp) (now : Timestamp) (pumpIndex : UInt8) (minutes : UInt32) :
    AppResult :=
  let (cmd, pumpTimers) := self.pumpTimers.startTimer pumpIndex minutes now
  let self := { self with pumpTimers := pumpTimers }
  match cmd with
  | some cmd => ([.sendFrame (encodeCommand cmd)], self)
  | none => ([], self)

/-! ## Frames -/

/-- Do what the registration state machine asks for. -/
def registrationAction (self : SpaApp) (now : Timestamp) : RegistrationAction → AppResult
  -- The driver has sent the response itself.
  | .sendNewClientResponse => ([], { self with registrationStartedAt := some now })
  | .sendClientIdAck id =>
    match (RegistrationMessage.clientIdAck id).encode with
    | .ok encoded =>
      ([.sendFrame encoded], { self with
        clientId := some id
        registrationStartedAt := none
        failedRegistrationAttempts := 0
        lastUnregisteredFrameTime := none
        lastRegistrationProbeTime := none })
    | .error _ => ([], self)
  | .sendExistingClientRequest message =>
    match message.encode with
    | .ok encoded => ([.sendFrame encoded], { self with registrationStartedAt := some now })
    | .error _ => ([], self)
  | .none => ([], self)

/-- `process_frame` of an app that is not registered. -/
def processUnregistered (self : SpaApp) (now : Timestamp) (frame : Frame) : AppResult :=
  let self := { self with
    unregisteredFramesReceived := self.unregisteredFramesReceived + 1
    lastUnregisteredFrameTime := some now }
  match RegistrationMessage.parse frame.messageType frame.payload with
  | .error _ => ([], self)
  | .ok msg =>
    let self := { self with regLog := (self.regLog.check (UInt32.ofNat (now / 1000)) 5).2 }
    let (action, registration) := self.registration.process msg
    { self with registration := registration }.registrationAction now action

/-- `process_frame` of a status. -/
def onStatus (self : SpaApp) (now : Timestamp) (status : StatusUpdate) : AppResult :=
  let regState := self.registrationStateStr
  let (retries, cmdTracker) := self.cmdTracker.verify status now
  let (expired, pumpTimers) := self.pumpTimers.tickAll now status.pumps
  let (release, holdTimer) := self.holdTimer.tick now status.isHold
  let recovering := self.wasStale
  ([.publishState status self.lastFault recovering regState], { self with
    framesReceived := self.framesReceived + 1
    cmdTracker := cmdTracker
    pumpTimers := pumpTimers
    holdTimer := holdTimer
    commandQueue := self.commandQueue ++ retries ++ expired ++ release.toList
    lastStatus := some status
    lastStatusTime := some now
    lastProbeTime := some now
    wasStale := false })

/-- `process_frame` of a grant: a queued command is sent, or else that there is none, unless the
grant is for another channel than that of the client ID. -/
def onReady (self : SpaApp) (now : Timestamp) (channel : UInt8) : AppResult :=
  if self.clientId.any (· ≠ channel) then ([], self)
  else
    let self := { self with lastCtsTime := some now }
    match self.commandQueue with
    | cmd :: queue =>
      let cmdTracker := match self.lastStatus with
        | some preStatus => self.cmdTracker.track cmd preStatus now
        | none => self.cmdTracker
      ([.sendFrame (encodeCommand cmd)],
        { self with commandQueue := queue, cmdTracker := cmdTracker })
    | [] =>
      match self.clientId with
      | some cid => ([.sendFrame (encodeCommand (.nothingToSend cid))], self)
      | none => ([], self)

/-- A number with at least two digits, as `{:02}` prints it. -/
def twoDigits (n : ℕ) : String := if n < 10 then "0" ++ toString n else toString n

/-- The text of a fault. -/
def faultText (fault : FaultLogEntry) : String :=
  fault.messageCode.debug ++ " (" ++ toString fault.daysAgo.toNat ++ "d ago, " ++
    toString fault.hour.toNat ++ ":" ++ twoDigits fault.minute.toNat ++ ", set=" ++
    toString fault.setTemperature.toNat ++ ")"

/-- `process_frame` of an app that is registered. -/
def processRegistered (self : SpaApp) (now : Timestamp) (frame : Frame) : AppResult :=
  match dispatchFrame frame with
  | .statusUpdate status => self.onStatus now status
  | .ready channel => self.onReady now channel
  | .registration (.clientIdAssignment channel _) => ([], { self with clientId := some channel })
  | .faultLogResponse faultLog => ([], { self with lastFault := some (faultText faultLog) })
  | _ => ([], self)

/-- `SpaApp::process_frame`. -/
def processFrame (self : SpaApp) (now : Timestamp) (frame : Frame) : AppResult :=
  if self.registration.isRegistered then self.processRegistered now frame
  else self.processUnregistered now frame

/-! ## Commands -/

/-- The command is a `SetTemperature`. -/
def isSetTemperature : Command → Bool
  | .setTemperature _ => true
  | _ => false

/-- The command sets the clock mode. -/
def isClockMode : Command → Bool
  | .setPreference code _ => code = preferenceClockMode
  | _ => false

/-- The queue with a queued `SetTemperature` replaced by the command, if it is one too. -/
def replaceTemperature (queue : List Command) (cmd : Command) : Option (List Command) :=
  if isSetTemperature cmd then (queue.findIdx? isSetTemperature).map fun i => queue.set i cmd
  else none

/-- The queue without the toggle that the command cancels out. -/
def cancelToggle (queue : List Command) : Command → Option (List Command)
  | .toggleItem item =>
    if .toggleItem item ∈ queue then some (queue.erase (.toggleItem item)) else none
  | _ => none

/-- Queue a command, or count it as dropped. -/
def enqueue (self : SpaApp) (cmd : Command) : SpaApp :=
  if self.commandQueue.length ≥ maxCommandQueue then
    { self with cmdTracker := self.cmdTracker.recordDropped }
  else { self with commandQueue := self.commandQueue ++ [cmd] }

/-- Queue the clock mode before a `SetTime` with the 24-hour flag, unless one is queued. -/
def enqueueClockMode (self : SpaApp) : Command → SpaApp
  | .setTime _ _ true =>
    if self.commandQueue.any isClockMode then self
    else self.enqueue (.setPreference preferenceClockMode 1)
  | _ => self

/-- `SpaApp::on_mqtt_command`. -/
def onMqttCommand (self : SpaApp) (cmd : Command) : AppResult :=
  match replaceTemperature self.commandQueue cmd with
  | some queue => ([], { self with commandQueue := queue })
  | none =>
    let self := self.enqueueClockMode cmd
    match cancelToggle self.commandQueue cmd with
    | some queue => ([], { self with commandQueue := queue })
    | none => ([], self.enqueue cmd)

/-! ## Time -/

/-- The time since `since`, if there is one, has reached the threshold. -/
def elapsedAtLeast (now : Timestamp) (since : Option Timestamp) (threshold : ℕ) : Bool :=
  since.any fun t => threshold ≤ elapsedSince now t

/-- One part of `tick` after another. -/
def andThen (r : AppResult) (part : SpaApp → AppResult) : AppResult :=
  (r.1 ++ (part r.2).1, (part r.2).2)

/-- `tick`: the registration timeout. -/
def timeoutRegistration (self : SpaApp) (now : Timestamp) : AppResult :=
  if elapsedAtLeast now self.registrationStartedAt registrationTimeoutMs then
    ([.publishAlert "warn" "registration_timeout"], { self with
      failedRegistrationAttempts := self.failedRegistrationAttempts + 1
      registration := self.registration.reset
      registrationStartedAt := none })
  else ([], self)

/-- `tick`: the alert when no query has been seen since boot. -/
def alertNoQuery (self : SpaApp) (now : Timestamp) : AppResult :=
  if !self.noQueryAlertSent && self.registrationStartedAt.isNone &&
      staleThresholdMs ≤ elapsedSince now self.bootTime then
    ([.publishAlert "warn" "no_registration_query"], { self with noQueryAlertSent := true })
  else ([], self)

/-- `tick`: the checks of a registration that has not completed. -/
def checkRegistration (self : SpaApp) (now : Timestamp) : AppResult :=
  if self.registration.isRegistered then
    ([], { self with registrationStartedAt := none, noQueryAlertSent := false })
  else andThen (self.timeoutRegistration now) (alertNoQuery · now)

/-- The app is registered and its grants have stopped. -/
def ctsLost (self : SpaApp) (now : Timestamp) : Bool :=
  self.registration.isRegistered && !self.wasStale &&
    elapsedAtLeast now self.lastCtsTime ctsLossThresholdMs

/-- `tick`: reset the registration when the grants have stopped. -/
def checkCts (self : SpaApp) (now : Timestamp) : AppResult :=
  if self.ctsLost now then
    ([.publishAlert "warn" "cts_loss"], self.resetRegistrationState true)
  else ([], self)

/-- The last status is old, and so is the last probe. -/
def probeDue (self : SpaApp) (now : Timestamp) : Bool :=
  elapsedAtLeast now self.lastStatusTime staleProbeIntervalMs &&
    self.lastProbeTime.all fun t => staleProbeIntervalMs ≤ elapsedSince now t

/-- `tick`: probe the bus. -/
def probe (self : SpaApp) (now : Timestamp) : AppResult :=
  if self.probeDue now then
    (match self.clientId with
      | some cid => [.sendFrame (encodeCommand (.nothingToSend cid))]
      | none => [],
      { self with lastProbeTime := some now })
  else ([], self)

/-- `tick`: give the spa up when its statuses have stopped. -/
def checkStale (self : SpaApp) (now : Timestamp) : AppResult :=
  if elapsedAtLeast now self.lastStatusTime staleThresholdMs && !self.wasStale then
    let self := { self with wasStale := true }.resetRegistrationState true
    let published := match self.lastStatus with
      | some staleStatus =>
        [.publishState staleStatus self.lastFault false self.registrationStateStr,
          .publishStaleAvailability]
      | none => []
    (.publishAlert "warn" "spa_communication_lost" :: published, self)
  else ([], self)

/-- `tick`: publish the diagnostics. -/
def checkDiagnostics (self : SpaApp) (now : Timestamp) : AppResult :=
  if self.lastDiagTime.all fun t => diagnosticsIntervalMs ≤ elapsedSince now t then
    ([.publishDiagnostics (elapsedSince now self.bootTime / 1000) self.framesReceived
        self.unregisteredFramesReceived self.cmdTracker.retryCount self.cmdTracker.droppedCount
        self.registrationStateStr 0 0],
      { self with lastDiagTime := some now })
  else ([], self)

/-- `SpaApp::tick`. -/
def tick (self : SpaApp) (now : Timestamp) : AppResult :=
  andThen (andThen (andThen (andThen (self.checkRegistration now)
    (checkCts · now)) (probe · now)) (checkStale · now)) (checkDiagnostics · now)

/-- `SpaApp::check_heap`. -/
def checkHeap (self : SpaApp) (now : Timestamp) (freeHeap : ℕ) : AppResult :=
  let (low, heapMonitor) := self.heapMonitor.tick now freeHeap
  (if low = some true then [.publishAlert "error" "heap_critically_low"] else [],
    { self with heapMonitor := heapMonitor })

end SpaApp

/-! ## Runs -/

/-- The calls of the app. -/
inductive AppCall where
  | processFrame (frame : Frame)
  | onMqttCommand (cmd : Command)
  | tick
  | startPumpTimer (pumpIndex : UInt8) (minutes : UInt32)
  | setPreviousChannel (channel : UInt8)
  | resetRegistrationState (clearCommands : Bool)
  | forcePublish
  | checkHeap (freeHeap : ℕ)

namespace SpaApp

/-- What a call at a time does. -/
def call (self : SpaApp) (now : Timestamp) : AppCall → AppResult
  | .processFrame frame => self.processFrame now frame
  | .onMqttCommand cmd => self.onMqttCommand cmd
  | .tick => self.tick now
  | .startPumpTimer pumpIndex minutes => self.startPumpTimer now pumpIndex minutes
  | .setPreviousChannel channel => ([], self.setPreviousChannel channel)
  | .resetRegistrationState clearCommands => ([], self.resetRegistrationState clearCommands)
  | .forcePublish => self.forcePublish
  | .checkHeap freeHeap => self.checkHeap now freeHeap

/-- The state that a call leaves. -/
def step (self : SpaApp) (c : Timestamp × AppCall) : SpaApp := (self.call c.1 c.2).2

end SpaApp

end Launa.Core
