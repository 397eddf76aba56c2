import Launa.Core.SpaApp
import Launa.Lib.Checked

/-!
# The counters of the app

`SpaApp` and `CommandTracker` count in fixed widths, most of them in 32 bits and the failed
registrations in 8, and no sum saturates. The functions here are those of the app as a build with
overflow checks runs them, where `none` is a panic. A call gives what it gives in the app exactly
when no counter that it increments is at the end of its type (`CountersFit`), and so does a run
(`runChecked_eq_iff`). A spa that queries and never assigns a channel breaks it with the 256th
failed registration (`runChecked_failures`).
-/

namespace Launa.Core

open Checked Protocol

/-! ## Sums -/

/-- `n + 1` of a `u8`. -/
def incrU8 (n : UInt8) : Option UInt8 := if n.toNat + 1 < 2^8 then some (n + 1) else none

/-- `n + k` of a `u32`. -/
def addU32 (n : UInt32) (k : ℕ) : Option UInt32 :=
  if n.toNat + k < 2^32 then some (n + UInt32.ofNat k) else none

/-- Counting in a byte overflows at 255. -/
theorem guards_incrU8 (n : UInt8) : Guards (incrU8 n) (n.toNat + 1 < 2^8) (n + 1) := .ite _

/-- Adding to a word overflows from `2^32` on. -/
theorem guards_addU32 (n : UInt32) (k : ℕ) :
    Guards (addU32 n k) (n.toNat + k < 2^32) (n + UInt32.ofNat k) := .ite _

/-! ## `command_tracker.rs` -/

namespace CommandTracker

/-- `CommandTracker::record_dropped`. -/
def recordDroppedChecked (t : CommandTracker) : Option CommandTracker :=
  (addU32 t.droppedCount 1).map fun n => { t with droppedCount := n }

/-- `CommandTracker::track`. -/
def trackChecked (t : CommandTracker) (command : Command) (preStatus : StatusUpdate)
    (now : Timestamp) : Option CommandTracker :=
  match ExpectedChange.fromCommand command preStatus with
  | none => some t
  | some expected =>
    match t.pending.findIdx? fun p => p.expected = expected with
    | some i => some
        { t with
          pending := t.pending.modify i fun p => { p with command := command, sentAt := now } }
    | none =>
      if t.pending.length ≥ maxPendingCommands then t.recordDroppedChecked
      else some { t with pending := t.pending ++ [⟨command, expected, now, 0⟩] }

/-- The number of pending commands on which a status has the verdict. -/
def countVerdict (t : CommandTracker) (status : StatusUpdate) (now : Timestamp) (v : Verdict) : ℕ :=
  t.pending.countP fun p => verdict status now p = v

/-- `CommandTracker::verify`: `dropped_this_call` is counted, then the retries of each entry that is
sent again, and then the counters of the tracker. -/
def verifyChecked (t : CommandTracker) (status : StatusUpdate) (now : Timestamp) :
    Option (List Command × CommandTracker) := do
  let dropped ← addU32 0 (t.countVerdict status now .dropped)
  let pending ← t.pending.mapM fun p =>
    match verdict status now p with
    | .confirmed | .dropped => some none
    | .retry => (incrU8 p.retries).map fun n => some { p with retries := n, sentAt := now }
    | .waiting => some (some p)
  let retries := (t.pending.filter (verdict status now · = .retry)).reverse.map (·.command)
  let retryCount ← addU32 t.retryCount retries.length
  let droppedCount ← addU32 t.droppedCount dropped.toNat
  some (retries, {
    pending := pending.reduceOption
    droppedCount := droppedCount
    retryCount := retryCount })

/-- The command would be a new entry, and there is no room for it. -/
def IsFullFor (t : CommandTracker) (command : Command) (preStatus : StatusUpdate) : Prop :=
  maxPendingCommands ≤ t.pending.length ∧
    ∃ expected, ExpectedChange.fromCommand command preStatus = some expected ∧
      ∀ p ∈ t.pending, p.expected ≠ expected

/-- Recording a dropped command overflows only in the counter of the dropped. -/
theorem guards_recordDropped (t : CommandTracker) :
    Guards t.recordDroppedChecked (t.droppedCount.toNat + 1 < 2^32) t.recordDropped :=
  (guards_addU32 t.droppedCount 1).map _

/-- Tracking overflows only if the tracker is full and drops. -/
theorem guards_track (t : CommandTracker) (command : Command) (preStatus : StatusUpdate)
    (now : Timestamp) :
    Guards (t.trackChecked command preStatus now)
      (t.IsFullFor command preStatus → t.droppedCount.toNat + 1 < 2^32)
      (t.track command preStatus now) := by
  unfold trackChecked track
  cases heq : ExpectedChange.fromCommand command preStatus with
  | none =>
    refine (Guards.pure t).congr (iff_of_true trivial ?_)
    rintro ⟨-, expected, hsome, -⟩
    exact absurd (heq.symm.trans hsome) (Option.some_ne_none _).symm
  | some expected =>
    dsimp only
    cases hi : t.pending.findIdx? fun p => p.expected = expected with
    | some i =>
      refine (Guards.pure _).congr (iff_of_true trivial ?_)
      rintro ⟨-, expected', hsome, hfresh⟩
      obtain rfl := Option.some.inj (heq.symm.trans hsome)
      -- The entry that was found expects the same.
      obtain ⟨hlt, hsame, -⟩ := List.findIdx?_eq_some_iff_getElem.1 hi
      exact absurd (of_decide_eq_true hsame) (hfresh _ (List.getElem_mem hlt))
    | none =>
      have hfresh : ∀ p ∈ t.pending, p.expected ≠ expected := fun p hp h =>
        absurd (List.findIdx?_eq_none_iff.1 hi p hp) (by simp [h])
      dsimp only
      split
      · rename_i hfull
        exact t.guards_recordDropped.congr
          ⟨fun hfits _ => hfits, fun hfits => hfits ⟨hfull, expected, heq, hfresh⟩⟩
      · rename_i hroom
        exact (Guards.pure _).congr (iff_of_true trivial fun hfull => absurd hfull.1 hroom)

/-- No entry is sent again with its counter of retries at the end. -/
theorem mapM_verify (t : CommandTracker) (status : StatusUpdate) (now : Timestamp) :
    (t.pending.mapM fun p =>
      match verdict status now p with
      | .confirmed | .dropped => some none
      | .retry => (incrU8 p.retries).map fun n => some { p with retries := n, sentAt := now }
      | .waiting => some (some p)) =
    some (t.pending.map fun p =>
      match verdict status now p with
      | .confirmed | .dropped => none
      | .retry => some { p with retries := p.retries + 1, sentAt := now }
      | .waiting => some p) := by
  induction t.pending with
  | nil => rfl
  | cons p ps ih =>
    rw [List.mapM_cons, ih, List.map_cons]
    cases hverdict : verdict status now p with
    | retry =>
      have hretries : p.retries.toNat < 2 := by
        unfold verdict at hverdict
        split_ifs at hverdict with hconf htimeout hlt
        exact UInt8.lt_iff_toNat_lt.1 hlt
      dsimp only
      rw [(guards_incrU8 p.retries).eq_some (by omega)]
      rfl
    | _ => rfl

/-- Verifying overflows only in the counters of the retried and of the dropped. -/
theorem guards_verify (t : CommandTracker) (status : StatusUpdate) (now : Timestamp) :
    Guards (t.verifyChecked status now)
      (t.retryCount.toNat + t.countVerdict status now .retry < 2^32 ∧
        t.droppedCount.toNat + t.countVerdict status now .dropped < 2^32)
      (t.verify status now) := by
  have hretries : ((t.pending.filter (verdict status now · = .retry)).reverse.map
      (·.command)).length = t.countVerdict status now .retry := by
    rw [List.length_map, List.length_reverse, countVerdict, List.countP_eq_length_filter]
  unfold verifyChecked
  rw [mapM_verify]
  generalize hd : t.countVerdict status now .dropped = d
  have hsum : (0 : UInt32) + UInt32.ofNat d = UInt32.ofNat d := UInt32.zero_add _
  have hverify : t.verify status now =
      ((t.pending.filter (verdict status now · = .retry)).reverse.map (·.command), {
        pending := (t.pending.map fun p =>
          match verdict status now p with
          | .confirmed | .dropped => none
          | .retry => some { p with retries := p.retries + 1, sentAt := now }
          | .waiting => some p).reduceOption
        droppedCount := t.droppedCount + UInt32.ofNat (UInt32.ofNat d).toNat
        retryCount := t.retryCount + UInt32.ofNat ((t.pending.filter
          (verdict status now · = .retry)).reverse.map (·.command)).length }) := by
    rw [UInt32.ofNat_toNat, ← hd, countVerdict, List.countP_eq_length_filter]
    have hreduce : ∀ ps : List (Option PendingCommand), ps.reduceOption = ps.filterMap id :=
      fun _ => rfl
    rw [hreduce, List.filterMap_map]
    rfl
  rw [hverify, ← hsum]
  refine Guards.congr ((guards_addU32 0 d).bind ((Guards.pure _).bind
    ((guards_addU32 t.retryCount _).bind ((guards_addU32 t.droppedCount _).bind
      (Guards.pure _))))) ?_
  rw [hretries, hsum]
  have hlt : d < 2^32 → (UInt32.ofNat d).toNat = d := fun h => UInt32.toNat_ofNat_of_lt h
  constructor
  · rintro ⟨hfits, -, hretry, hdropped, -⟩
    rw [hlt (by simpa using hfits)] at hdropped
    exact ⟨hretry, hdropped⟩
  · rintro ⟨hretry, hdropped⟩
    have hfits : d < 2^32 := by omega
    refine ⟨by simpa using hfits, trivial, hretry, ?_, trivial⟩
    rwa [hlt hfits]

end CommandTracker

/-! ## `spa_app.rs` -/

namespace SpaApp

/-- `now.as_secs() as u32`, which truncates. -/
def asSecsU32 (now : Timestamp) : Option UInt32 :=
  if now / 1000 < 2^32 then some (UInt32.ofNat (now / 1000)) else none

/-- `process_frame` of an app that is not registered. -/
def processUnregisteredChecked (self : SpaApp) (now : Timestamp) (frame : Frame) :
    Option AppResult := do
  let received ← addU32 self.unregisteredFramesReceived 1
  let self := { self with
    unregisteredFramesReceived := received
    lastUnregisteredFrameTime := some now }
  match RegistrationMessage.parse frame.messageType frame.payload with
  | .error _ => some ([], self)
  | .ok msg =>
    let nowSecs ← asSecsU32 now
    let self := { self with regLog := (self.regLog.check nowSecs 5).2 }
    let processed := self.registration.process msg
    some ({ self with registration := processed.2 }.registrationAction now processed.1)

/-- `process_frame` of a status. -/
def onStatusChecked (self : SpaApp) (now : Timestamp) (status : StatusUpdate) :
    Option AppResult := do
  let regState := self.registrationStateStr
  let received ← addU32 self.framesReceived 1
  let verified ← self.cmdTracker.verifyChecked status now
  let pumps := self.pumpTimers.tickAll now status.pumps
  let hold := self.holdTimer.tick now status.isHold
  some ([.publishState status self.lastFault self.wasStale regState], { self with
    framesReceived := received
    cmdTracker := verified.2
    pumpTimers := pumps.2
    holdTimer := hold.2
    commandQueue := self.commandQueue ++ verified.1 ++ pumps.1 ++ hold.1.toList
    lastStatus := some status
    lastStatusTime := some now
    lastProbeTime := some now
    wasStale := false })

/-- `process_frame` of a grant. -/
def onReadyChecked (self : SpaApp) (now : Timestamp) (channel : UInt8) : Option AppResult :=
  if self.clientId.any (· ≠ channel) then some ([], self)
  else
    let self := { self with lastCtsTime := some now }
    match self.commandQueue with
    | cmd :: queue => do
      let cmdTracker ← match self.lastStatus with
        | some preStatus => self.cmdTracker.trackChecked cmd preStatus now
        | none => some self.cmdTracker
      some ([.sendFrame (encodeCommand cmd)],
        { self with commandQueue := queue, cmdTracker := cmdTracker })
    | [] =>
      match self.clientId with
      | some cid => some ([.sendFrame (encodeCommand (.nothingToSend cid))], self)
      | none => some ([], self)

/-- `process_frame` of an app that is registered. -/
def processRegisteredChecked (self : SpaApp) (now : Timestamp) (frame : Frame) :
    Option AppResult :=
  match dispatchFrame frame with
  | .statusUpdate status => self.onStatusChecked now status
  | .ready channel => self.onReadyChecked now channel
  | .registration (.clientIdAssignment channel _) =>
    some ([], { self with clientId := some channel })
  | .faultLogResponse faultLog => some ([], { self with lastFault := some (faultText faultLog) })
  | _ => some ([], self)

/-- `SpaApp::process_frame`. -/
def processFrameChecked (self : SpaApp) (now : Timestamp) (frame : Frame) : Option AppResult :=
  if self.registration.isRegistered then self.processRegisteredChecked now frame
  else self.processUnregisteredChecked now frame

/-- Queue a command, or count it as dropped. -/
def enqueueChecked (self : SpaApp) (cmd : Command) : Option SpaApp :=
  if self.commandQueue.length ≥ maxCommandQueue then
    self.cmdTracker.recordDroppedChecked.map fun t => { self with cmdTracker := t }
  else some { self with commandQueue := self.commandQueue ++ [cmd] }

/-- Queue the clock mode before a `SetTime` with the 24-hour flag, unless one is queued. -/
def enqueueClockModeChecked (self : SpaApp) : Command → Option SpaApp
  | .setTime _ _ true =>
    if self.commandQueue.any isClockMode then some self
    else self.enqueueChecked (.setPreference preferenceClockMode 1)
  | _ => some self

/-- `SpaApp::on_mqtt_command`. -/
def onMqttCommandChecked (self : SpaApp) (cmd : Command) : Option AppResult :=
  match replaceTemperature self.commandQueue cmd with
  | some queue => some ([], { self with commandQueue := queue })
  | none => do
    let self ← self.enqueueClockModeChecked cmd
    match cancelToggle self.commandQueue cmd with
    | some queue => some ([], { self with commandQueue := queue })
    | none => (self.enqueueChecked cmd).map fun s => ([], s)

/-- `tick`: the registration timeout. -/
def timeoutRegistrationChecked (self : SpaApp) (now : Timestamp) : Option AppResult :=
  if elapsedAtLeast now self.registrationStartedAt registrationTimeoutMs then
    (incrU8 self.failedRegistrationAttempts).map fun n =>
      ([.publishAlert "warn" "registration_timeout"], { self with
        failedRegistrationAttempts := n
        registration := self.registration.reset
        registrationStartedAt := none })
  else some ([], self)

/-- `tick`: the checks of a registration that has not completed. -/
def checkRegistrationChecked (self : SpaApp) (now : Timestamp) : Option AppResult :=
  if self.registration.isRegistered then
    some ([], { self with registrationStartedAt := none, noQueryAlertSent := false })
  else (self.timeoutRegistrationChecked now).map (andThen · (alertNoQuery · now))

/-- `SpaApp::tick`. -/
def tickChecked (self : SpaApp) (now : Timestamp) : Option AppResult :=
  (self.checkRegistrationChecked now).map fun checked =>
    andThen (andThen (andThen (andThen checked
      (checkCts · now)) (probe · now)) (checkStale · now)) (checkDiagnostics · now)

/-- What a call at a time does. -/
def callChecked (self : SpaApp) (now : Timestamp) : AppCall → Option AppResult
  | .processFrame frame => self.processFrameChecked now frame
  | .onMqttCommand cmd => self.onMqttCommandChecked cmd
  | .tick => self.tickChecked now
  | .startPumpTimer pumpIndex minutes => some (self.startPumpTimer now pumpIndex minutes)
  | .setPreviousChannel channel => some ([], self.setPreviousChannel channel)
  | .resetRegistrationState clearCommands => some ([], self.resetRegistrationState clearCommands)
  | .forcePublish => some self.forcePublish
  | .checkHeap freeHeap => some (self.checkHeap now freeHeap)

/-- The state that a call leaves. -/
def stepChecked (self : SpaApp) (c : Timestamp × AppCall) : Option SpaApp :=
  (self.callChecked c.1 c.2).map (·.2)

/-- The state after a run, where `none` is a run in which a sum has overflowed. -/
def runChecked (self : SpaApp) (calls : List (Timestamp × AppCall)) : Option SpaApp :=
  calls.foldlM stepChecked self

/-! ## When they fit -/

/-- The counters fit a frame. -/
def FrameFits (self : SpaApp) (now : Timestamp) (frame : Frame) : Prop :=
  if self.registration.isRegistered then
    match dispatchFrame frame with
    | .statusUpdate status =>
      self.framesReceived.toNat + 1 < 2^32 ∧
      self.cmdTracker.retryCount.toNat + self.cmdTracker.countVerdict status now .retry < 2^32 ∧
      self.cmdTracker.droppedCount.toNat + self.cmdTracker.countVerdict status now .dropped < 2^32
    | .ready channel =>
      ∀ cmd ∈ self.commandQueue.head?, ∀ preStatus ∈ self.lastStatus,
        ¬ self.clientId.any (· ≠ channel) → self.cmdTracker.IsFullFor cmd preStatus →
          self.cmdTracker.droppedCount.toNat + 1 < 2^32
    | _ => True
  else
    self.unregisteredFramesReceived.toNat + 1 < 2^32 ∧
      ∀ msg, RegistrationMessage.parse frame.messageType frame.payload = .ok msg →
        now / 1000 < 2^32

/-- `on_mqtt_command` drops the clock mode of a `SetTime`. -/
def dropsClockMode (self : SpaApp) : Command → Bool
  | .setTime _ _ true =>
    !self.commandQueue.any isClockMode && self.commandQueue.length ≥ maxCommandQueue
  | _ => false

/-- `on_mqtt_command` drops the command. -/
def dropsCommand (self : SpaApp) (cmd : Command) : Bool :=
  let queue := (self.enqueueClockMode cmd).commandQueue
  (cancelToggle queue cmd).isNone && queue.length ≥ maxCommandQueue

/-- The number of commands that `on_mqtt_command` drops. -/
def drops (self : SpaApp) (cmd : Command) : ℕ :=
  if (replaceTemperature self.commandQueue cmd).isSome then 0
  else (self.dropsClockMode cmd).toNat + (self.dropsCommand cmd).toNat

/-- No counter that the call increments is at the end of its type, and the seconds that it casts are
in theirs. -/
def CountersFit (self : SpaApp) (c : Timestamp × AppCall) : Prop :=
  match c.2 with
  | .processFrame frame => self.FrameFits c.1 frame
  | .onMqttCommand cmd =>
    0 < self.drops cmd → self.cmdTracker.droppedCount.toNat + self.drops cmd < 2^32
  | .tick =>
    self.registration.isRegistered = false →
      elapsedAtLeast c.1 self.registrationStartedAt registrationTimeoutMs = true →
        self.failedRegistrationAttempts.toNat + 1 < 2^8
  | _ => True

/-! ## Frames -/

/-- A frame while unregistered overflows in its counter or in the seconds of the clock. -/
theorem guards_processUnregistered (self : SpaApp) (now : Timestamp) (frame : Frame) :
    Guards (self.processUnregisteredChecked now frame)
      (self.unregisteredFramesReceived.toNat + 1 < 2^32 ∧
        ∀ msg, RegistrationMessage.parse frame.messageType frame.payload = .ok msg →
          now / 1000 < 2^32)
      (self.processUnregistered now frame) := by
  unfold processUnregisteredChecked processUnregistered
  refine (guards_addU32 self.unregisteredFramesReceived 1).bind ?_
  cases hparse : RegistrationMessage.parse frame.messageType frame.payload with
  | error e => exact (Guards.pure _).congr (iff_of_true trivial fun msg h => nomatch h)
  | ok msg =>
    have hsecs : Guards (asSecsU32 now) (now / 1000 < 2^32) (UInt32.ofNat (now / 1000)) := .ite _
    exact (hsecs.bind_some _).congr ⟨fun h _ _ => h, fun h => h msg rfl⟩

/-- A status overflows in its counter or in those of the tracker. -/
theorem guards_onStatus (self : SpaApp) (now : Timestamp) (status : StatusUpdate) :
    Guards (self.onStatusChecked now status)
      (self.framesReceived.toNat + 1 < 2^32 ∧
        self.cmdTracker.retryCount.toNat + self.cmdTracker.countVerdict status now .retry < 2^32 ∧
        self.cmdTracker.droppedCount.toNat + self.cmdTracker.countVerdict status now .dropped <
          2^32)
      (self.onStatus now status) := by
  unfold onStatusChecked onStatus
  refine (guards_addU32 self.framesReceived 1).bind ?_
  exact (self.cmdTracker.guards_verify status now).bind_some _

/-- A grant overflows only if it makes a full tracker drop a command. -/
theorem guards_onReady (self : SpaApp) (now : Timestamp) (channel : UInt8) :
    Guards (self.onReadyChecked now channel)
      (∀ cmd ∈ self.commandQueue.head?, ∀ preStatus ∈ self.lastStatus,
        ¬ self.clientId.any (· ≠ channel) → self.cmdTracker.IsFullFor cmd preStatus →
          self.cmdTracker.droppedCount.toNat + 1 < 2^32)
      (self.onReady now channel) := by
  unfold onReadyChecked onReady
  split
  · rename_i hother
    exact (Guards.pure _).congr (iff_of_true trivial fun _ _ _ _ h => absurd hother h)
  rename_i hother
  cases hqueue : self.commandQueue with
  | nil =>
    dsimp only
    cases self.clientId <;>
      exact (Guards.pure _).congr (iff_of_true trivial fun _ h => nomatch h)
  | cons cmd queue =>
    dsimp only
    cases hlast : self.lastStatus with
    | none =>
      refine ((Guards.pure self.cmdTracker).bind_some _).congr ?_
      exact iff_of_true trivial fun _ _ _ h => nomatch h
    | some preStatus =>
      refine ((self.cmdTracker.guards_track cmd preStatus now).bind_some _).congr ?_
      refine ⟨fun h cmd' hcmd preStatus' hpre _ => ?_, fun h => h cmd rfl preStatus rfl hother⟩
      cases hcmd
      cases hpre
      exact h

/-- A frame does not overflow exactly if it fits. -/
theorem guards_processFrame (self : SpaApp) (now : Timestamp) (frame : Frame) :
    Guards (self.processFrameChecked now frame) (self.FrameFits now frame)
      (self.processFrame now frame) := by
  unfold processFrameChecked FrameFits processFrame
  split
  · unfold processRegisteredChecked processRegistered
    cases dispatchFrame frame with
    | statusUpdate status => exact self.guards_onStatus now status
    | ready channel => exact self.guards_onReady now channel
    | registration msg => cases msg <;> exact .pure _
    | _ => exact .pure _
  · exact self.guards_processUnregistered now frame

/-! ## Commands and time -/

/-- Enqueuing overflows only if the queue is full and drops. -/
theorem guards_enqueue (self : SpaApp) (cmd : Command) :
    Guards (self.enqueueChecked cmd)
      (maxCommandQueue ≤ self.commandQueue.length → self.cmdTracker.droppedCount.toNat + 1 < 2^32)
      (self.enqueue cmd) := by
  unfold enqueueChecked enqueue
  split
  · rename_i hfull
    exact (self.cmdTracker.guards_recordDropped.map _).congr
      ⟨fun h _ => h, fun h => h hfull⟩
  · rename_i hroom
    exact (Guards.pure _).congr (iff_of_true trivial fun h => absurd h hroom)

/-- Enqueuing a clock mode overflows only if it drops a command. -/
theorem guards_enqueueClockMode (self : SpaApp) (cmd : Command) :
    Guards (self.enqueueClockModeChecked cmd)
      (self.dropsClockMode cmd = true → self.cmdTracker.droppedCount.toNat + 1 < 2^32)
      (self.enqueueClockMode cmd) := by
  have hother : Guards (some self)
      (false = true → self.cmdTracker.droppedCount.toNat + 1 < 2^32) self :=
    (Guards.pure self).congr (iff_of_true trivial fun h => absurd h Bool.false_ne_true)
  cases cmd with
  | setTime hour minute is24h =>
    cases is24h with
    | false => exact hother
    | true =>
      unfold enqueueClockModeChecked dropsClockMode enqueueClockMode
      dsimp only
      cases self.commandQueue.any isClockMode with
      | true => exact hother
      | false =>
        rw [if_neg Bool.false_ne_true, if_neg Bool.false_ne_true, Bool.not_false, Bool.true_and,
          decide_eq_true_iff]
        exact self.guards_enqueue _
  | _ => exact hother

/-- The clock mode is counted if it is dropped. -/
theorem droppedCount_enqueueClockMode (self : SpaApp) (cmd : Command) :
    (self.enqueueClockMode cmd).cmdTracker.droppedCount =
      self.cmdTracker.droppedCount + UInt32.ofNat (self.dropsClockMode cmd).toNat := by
  have hzero : self.cmdTracker.droppedCount = self.cmdTracker.droppedCount + UInt32.ofNat 0 :=
    (UInt32.add_zero _).symm
  cases cmd with
  | setTime hour minute is24h =>
    cases is24h with
    | false => exact hzero
    | true =>
      unfold enqueueClockMode dropsClockMode
      dsimp only
      cases self.commandQueue.any isClockMode with
      | true => exact hzero
      | false =>
        rw [if_neg Bool.false_ne_true, enqueue]
        by_cases hfull : self.commandQueue.length ≥ maxCommandQueue
        · rw [if_pos hfull, decide_eq_true hfull]
          rfl
        · rw [if_neg hfull, decide_eq_false hfull]
          exact hzero
  | _ => exact hzero

/-- A toggle is cancelled out, or the command is queued. -/
theorem guards_cancelToggle (self : SpaApp) (cmd : Command) :
    Guards (match cancelToggle self.commandQueue cmd with
        | some queue => some (([] : List AppAction), { self with commandQueue := queue })
        | none => (self.enqueueChecked cmd).map fun s => ([], s))
      (((cancelToggle self.commandQueue cmd).isNone && self.commandQueue.length ≥ maxCommandQueue) =
        true → self.cmdTracker.droppedCount.toNat + 1 < 2^32)
      (match cancelToggle self.commandQueue cmd with
        | some queue => ([], { self with commandQueue := queue })
        | none => ([], self.enqueue cmd)) := by
  cases cancelToggle self.commandQueue cmd with
  | some queue =>
    exact (Guards.pure _).congr (iff_of_true trivial fun h => absurd h Bool.false_ne_true)
  | none =>
    rw [Option.isNone_none, Bool.true_and, decide_eq_true_iff]
    exact (self.guards_enqueue cmd).map _

/-- A command of the user overflows only in the counter of the dropped. -/
theorem guards_onMqttCommand (self : SpaApp) (cmd : Command) :
    Guards (self.onMqttCommandChecked cmd)
      (0 < self.drops cmd → self.cmdTracker.droppedCount.toNat + self.drops cmd < 2^32)
      (self.onMqttCommand cmd) := by
  unfold onMqttCommandChecked onMqttCommand drops
  cases replaceTemperature self.commandQueue cmd with
  | some queue =>
    exact (Guards.pure _).congr (iff_of_true trivial fun h => absurd h (Nat.lt_irrefl 0))
  | none =>
    have hrest := (self.enqueueClockMode cmd).guards_cancelToggle cmd
    refine ((self.guards_enqueueClockMode cmd).bind hrest).congr ?_
    -- Each of the two is counted if it is dropped, the clock mode before the command.
    have hlt := self.cmdTracker.droppedCount.toNat_lt
    rw [droppedCount_enqueueClockMode, UInt32.toNat_add]
    show (_ ∧ (self.dropsCommand cmd = true → _)) ↔ _
    cases self.dropsClockMode cmd <;> cases self.dropsCommand cmd <;> (simp; try omega)

/-- A tick overflows only in the failed attempts of a registration that timed out. -/
theorem guards_tick (self : SpaApp) (now : Timestamp) :
    Guards (self.tickChecked now)
      (self.registration.isRegistered = false →
        elapsedAtLeast now self.registrationStartedAt registrationTimeoutMs = true →
          self.failedRegistrationAttempts.toNat + 1 < 2^8)
      (self.tick now) := by
  unfold tickChecked tick
  refine Guards.map _ ?_
  unfold checkRegistrationChecked checkRegistration
  split
  · rename_i hreg
    exact (Guards.pure _).congr (iff_of_true trivial fun h => absurd (hreg.symm.trans h) nofun)
  rename_i hreg
  refine Guards.map _ ?_
  unfold timeoutRegistrationChecked timeoutRegistration
  split
  · rename_i htimeout
    exact ((guards_incrU8 self.failedRegistrationAttempts).map _).congr
      ⟨fun h _ _ => h, fun h => h (Bool.eq_false_iff.2 hreg) htimeout⟩
  · rename_i htimeout
    exact (Guards.pure _).congr (iff_of_true trivial fun _ h => absurd h htimeout)

/-! ## Runs -/

/-- A call gives what it gives in the app exactly when the counters fit it. -/
theorem guards_step (self : SpaApp) (c : Timestamp × AppCall) :
    Guards (self.stepChecked c) (self.CountersFit c) (self.step c) := by
  obtain ⟨now, call⟩ := c
  refine Guards.map _ ?_
  cases call with
  | processFrame frame => exact self.guards_processFrame now frame
  | onMqttCommand cmd => exact self.guards_onMqttCommand cmd
  | tick => exact self.guards_tick now
  | _ => exact .pure _

/-- A run gives what it gives in the app exactly when the counters fit every call of it. -/
theorem guards_run (self : SpaApp) (calls : List (Timestamp × AppCall)) :
    Guards (self.runChecked calls) (Run.Along step CountersFit self calls)
      (calls.foldl step self) := Guards.foldlM guards_step self calls

/-- No sum of a run overflows exactly when the counters fit every call of it, and then the run is
that of the app. -/
theorem runChecked_eq_iff (now : Timestamp) (clientHash : ClientHash)
    (calls : List (Timestamp × AppCall)) :
    (∀ pre post, calls = pre ++ post → (withClientHash now clientHash).runChecked pre =
      some (pre.foldl step (withClientHash now clientHash))) ↔
    Run.Along step CountersFit (withClientHash now clientHash) calls := by
  constructor
  · intro h
    by_contra hnot
    have hnone := ((withClientHash now clientHash).guards_run calls).eq_none hnot
    rw [h calls [] (List.append_nil calls).symm] at hnone
    exact absurd hnone (Option.some_ne_none _)
  · rintro h pre post rfl
    exact ((withClientHash now clientHash).guards_run pre).eq_some
      ((Run.along_append _ _ _ _).1 h).1

/-! ## A spa that assigns no channel -/

/-- The query for new clients. -/
def queryFrame : Frame := ⟨(0xFE, 0xBF), [0x00]⟩

/-- A query of the spa, and no assignment within the time for it. -/
def failure (i : ℕ) : List (Timestamp × AppCall) :=
  [(6000 * i, .processFrame queryFrame), (6000 * i + 5000, .tick)]

/-- So many failures. -/
def failures (n : ℕ) : List (Timestamp × AppCall) := (List.range n).flatMap failure

/-- The app waits for a query after so many failures, and has heard no status. -/
structure Failed (app : SpaApp) (n : ℕ) : Prop where
  state : app.registration.state = .waitingForQuery
  previousChannel : app.registration.previousChannel = none
  lastStatusTime : app.lastStatusTime = none
  attempts : app.failedRegistrationAttempts = UInt8.ofNat n

/-- The app waits for an assignment since a time. -/
structure Awaiting (app : SpaApp) (since : Timestamp) (n : ℕ) : Prop where
  state : app.registration.state = .waitingForAssignment
  previousChannel : app.registration.previousChannel = none
  lastStatusTime : app.lastStatusTime = none
  attempts : app.failedRegistrationAttempts = UInt8.ofNat n
  startedAt : app.registrationStartedAt = some since

/-- After so many failures a query makes the app wait for an assignment. -/
theorem Failed.query {self : SpaApp} {n : ℕ} (h : self.Failed n) (now : Timestamp) :
    (self.step (now, .processFrame queryFrame)).Awaiting now n := by
  have hreg : self.registration.isRegistered = false := by
    rw [RegistrationStateMachine.isRegistered, h.state]
  have hprocess : self.registration.process .newClientQuery =
      (.sendNewClientResponse, { self.registration with state := .waitingForAssignment }) := by
    unfold RegistrationStateMachine.process
    rw [h.state]
    dsimp only
    rw [h.previousChannel]
  have hparse : RegistrationMessage.parse queryFrame.messageType queryFrame.payload =
      .ok .newClientQuery := by decide
  have hstep : self.step (now, .processFrame queryFrame) =
      { self with
        registration := { self.registration with state := .waitingForAssignment }
        registrationStartedAt := some now
        unregisteredFramesReceived := self.unregisteredFramesReceived + 1
        lastUnregisteredFrameTime := some now
        regLog := (self.regLog.check (UInt32.ofNat (now / 1000)) 5).2 } := by
    rw [step, call, processFrame, hreg, if_neg Bool.false_ne_true, processUnregistered, hparse]
    dsimp only
    rw [hprocess]
    rfl
  rw [hstep]
  exact ⟨rfl, h.previousChannel, h.lastStatusTime, h.attempts, rfl⟩

/-- The assignment is overdue at the tick. -/
theorem Awaiting.overdue {self : SpaApp} {since : Timestamp} {n : ℕ} (h : self.Awaiting since n) :
    self.registration.isRegistered = false ∧
      elapsedAtLeast (since + 5000) self.registrationStartedAt registrationTimeoutMs = true := by
  constructor
  · rw [RegistrationStateMachine.isRegistered, h.state]
  · rw [h.startedAt]
    exact decide_eq_true (by rw [elapsedSince, Nat.add_sub_cancel_left]; exact Nat.le_refl _)

/-- An assignment that does not come is one more failure. -/
theorem Awaiting.tick {self : SpaApp} {since : Timestamp} {n : ℕ} (h : self.Awaiting since n) :
    (self.step (since + 5000, .tick)).Failed (n + 1) := by
  obtain ⟨hreg, hlate⟩ := h.overdue
  have hsucc : UInt8.ofNat n + 1 = UInt8.ofNat (n + 1) := (UInt8.ofNat_add n 1).symm
  -- The steps of a tick: the registration, the grants, the probe, the statuses, the diagnostics.
  set now := since + 5000
  set s1 := (self.checkRegistration now).2 with hs1
  have h1 : s1.Failed (n + 1) := by
    rw [hs1, checkRegistration, hreg, if_neg Bool.false_ne_true, andThen, timeoutRegistration,
      if_pos hlate]
    dsimp only
    unfold alertNoQuery
    split <;> exact ⟨rfl, h.previousChannel, h.lastStatusTime, by rw [h.attempts, hsucc]⟩
  have h2 : (s1.checkCts now).2 = s1 := by
    have hreg1 : s1.registration.isRegistered = false := by
      rw [RegistrationStateMachine.isRegistered, h1.state]
    rw [checkCts, ctsLost, hreg1]
    rfl
  have h3 : (s1.probe now).2 = s1 := by
    rw [probe, probeDue, h1.lastStatusTime]
    rfl
  have h4 : (s1.checkStale now).2 = s1 := by
    rw [checkStale, h1.lastStatusTime]
    rfl
  have htick : self.step (now, .tick) = (s1.checkDiagnostics now).2 := by
    show (checkDiagnostics (checkStale (probe (checkCts s1 now).2 now).2 now).2 now).2 = _
    rw [h2, h3, h4]
  rw [htick, checkDiagnostics]
  split
  · exact ⟨h1.state, h1.previousChannel, h1.lastStatusTime, h1.attempts⟩
  · exact h1

/-- Failures add up. -/
theorem failed_failures (now : Timestamp) (clientHash : ClientHash) (n : ℕ) :
    ((failures n).foldl step (withClientHash now clientHash)).Failed n := by
  induction n with
  | zero => exact ⟨rfl, rfl, rfl, rfl⟩
  | succ n ih =>
    rw [failures, List.range_succ, List.flatMap_append, List.foldl_append]
    exact (ih.query (6000 * n)).tick

/-- The failure after the 255th overflows the counter of eight bits. -/
theorem runChecked_failures (now : Timestamp) (clientHash : ClientHash) :
    (withClientHash now clientHash).runChecked (failures 256) = none := by
  refine (guards_run _ _).eq_none fun hfits => ?_
  have hsplit : failures 256 = failures 255 ++ failure 255 := by
    rw [failures, failures, List.range_succ, List.flatMap_append]
    rfl
  rw [hsplit] at hfits
  have hlast := ((Run.along_append _ _ _ _).1 hfits).2.2.1
  have hawaiting := (failed_failures now clientHash 255).query (6000 * 255)
  have hroom := hlast hawaiting.overdue.1 hawaiting.overdue.2
  rw [hawaiting.attempts] at hroom
  exact absurd hroom (by decide)

/-- The app that is started at time 0 with the default hash. -/
theorem not_forall_runChecked :
    (withClientHash 0 (0x00, 0x01)).runChecked (failures 256) = none ∧
      ¬ ∀ calls, ((withClientHash 0 (0x00, 0x01)).runChecked calls).isSome := by
  have hnone := runChecked_failures 0 (0x00, 0x01)
  refine ⟨hnone, fun h => ?_⟩
  have hsome := h (failures 256)
  rw [hnone] at hsome
  exact absurd hsome Bool.false_ne_true

end SpaApp

end Launa.Core
