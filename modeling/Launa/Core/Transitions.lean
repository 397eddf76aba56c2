import Launa.Core.SpaApp

/-!
# What a call does to the link

The link of the app is its client ID and its registration state machine, of which only the channel
matters here, and the frames that it sends. What a frame does to it is one of six things
(`processFrame_effect`), and `tick` can reset it and probe the bus (`tick_link`). No other call
but `set_previous_channel` and `reset_registration_state` touches it, and only `start_pump_timer`
sends.
-/

namespace Launa.Core

open Protocol

/-- The frames that the actions send. -/
def sends (actions : List AppAction) : List (List UInt8) :=
  actions.filterMap fun
    | .sendFrame bytes => some bytes
    | _ => none

/-- No actions send nothing. -/
@[simp] theorem sends_nil : sends [] = [] := rfl

/-- The frames of two lists of actions are put behind each other. -/
@[simp] theorem sends_append (xs ys : List AppAction) : sends (xs ++ ys) = sends xs ++ sends ys :=
  List.filterMap_append

/-- A frame that is sent comes before those behind it. -/
@[simp] theorem sends_sendFrame (bytes : List UInt8) (xs : List AppAction) :
    sends (.sendFrame bytes :: xs) = bytes :: sends xs := rfl

/-- A frame is sent exactly if an action sends it. -/
theorem mem_sends {bytes : List UInt8} {actions : List AppAction} :
    bytes ∈ sends actions ↔ .sendFrame bytes ∈ actions := by
  induction actions with
  | nil => simp
  | cons a as ih =>
    cases a with
    | sendFrame bs =>
      rw [sends_sendFrame, List.mem_cons, List.mem_cons, ih, AppAction.sendFrame.injEq]
    | _ => simpa [sends] using ih

namespace SpaApp

variable (self : SpaApp) (now : Timestamp)

/-- The channel that the registration state machine holds. -/
def channel : Option UInt8 := self.registration.clientId

/-- The frame is an assignment of the channel to a client. -/
def IsAssignment (frame : Frame) (channel : UInt8) (hash : ClientHash) : Prop :=
  RegistrationMessage.parse frame.messageType frame.payload = .ok (.clientIdAssignment channel hash)

/-- The frame is a confirmation of the channel to a client. -/
def IsConfirmation (frame : Frame) (channel : UInt8) (hash : ClientHash) : Prop :=
  RegistrationMessage.parse frame.messageType frame.payload =
    .ok (.existingClientResponse channel hash)

/-- What a frame does to the link. -/
inductive FrameEffect (frame : Frame) (r : AppResult) : Prop where
  /-- The app is not registered, and stays so; it sends at most a registration message. -/
  | waiting (held : self.channel = none)
      (refuses : ∀ msg, RegistrationMessage.parse frame.messageType frame.payload = .ok msg →
        self.registration.Refuses msg)
      (held' : r.2.channel = none)
      (id : r.2.clientId = self.clientId)
      (sent : sends r.1 = [] ∨ ∃ msg : RegistrationMessage, sends r.1 = [msg.bytes])
  /-- It accepts an assignment, and acknowledges it. -/
  | assigned (ch : UInt8) (hash : ClientHash) (held : self.channel = none)
      (state : self.registration.state = .waitingForAssignment)
      (frame_eq : IsAssignment frame ch hash)
      (own : hash = legacyHash ∨ hash = self.registration.clientHash)
      (held' : r.2.channel = some ch)
      (id : r.2.clientId = some ch)
      (sent : sends r.1 = [(RegistrationMessage.clientIdAck ch).bytes])
  /-- It accepts the confirmation of its previous channel, and does not note the client ID. -/
  | confirmed (ch : UInt8) (held : self.channel = none)
      (state : self.registration.state = .waitingForExistingResponse)
      (frame_eq : IsConfirmation frame ch self.registration.clientHash)
      (held' : r.2.channel = some ch)
      (id : r.2.clientId = self.clientId) (sent : sends r.1 = [])
  /-- It is registered, and takes the channel of an assignment, whatever its hash, as client ID. -/
  | reassigned (old ch : UInt8) (hash : ClientHash) (held : self.channel = some old)
      (frame_eq : IsAssignment frame ch hash) (held' : r.2.channel = self.channel)
      (id : r.2.clientId = some ch) (sent : sends r.1 = [])
  /-- It is registered, and is granted to send. -/
  | granted (old ch : UInt8) (held : self.channel = some old)
      (frame_eq : dispatchFrame frame = .ready ch) (held' : r.2.channel = self.channel)
      (id : r.2.clientId = self.clientId) (result : r = self.onReady now ch)
  /-- It is registered, and the frame does not concern the link. -/
  | other (old : UInt8) (held : self.channel = some old)
      (assignment : ∀ ch hash, ¬ IsAssignment frame ch hash)
      (ready : ∀ ch, dispatchFrame frame ≠ .ready ch)
      (held' : r.2.channel = self.channel) (id : r.2.clientId = self.clientId)
      (sent : sends r.1 = [])

/-- What the registration asks for leaves the channel of the app alone. -/
theorem registrationAction_channel (action : RegistrationAction) :
    (self.registrationAction now action).2.channel = self.channel := by
  unfold registrationAction
  repeat' split
  all_goals rfl

/-- What an action other than an acknowledgement does to the link. -/
theorem registrationAction_link {action : RegistrationAction}
    (h : ∀ id, action ≠ .sendClientIdAck id) :
    (self.registrationAction now action).2.clientId = self.clientId ∧
      (sends (self.registrationAction now action).1 = [] ∨
        ∃ msg : RegistrationMessage,
          sends (self.registrationAction now action).1 = [msg.bytes]) := by
  cases action with
  | sendClientIdAck id => exact absurd rfl (h id)
  | sendNewClientResponse => exact ⟨rfl, .inl rfl⟩
  | none => exact ⟨rfl, .inl rfl⟩
  | sendExistingClientRequest message =>
    unfold registrationAction
    dsimp only
    rw [message.encode_ok]
    exact ⟨rfl, .inr ⟨message, rfl⟩⟩

/-- What an acknowledgement does to the link. -/
theorem registrationAction_ack (id : UInt8) :
    (self.registrationAction now (.sendClientIdAck id)).2.clientId = some id ∧
      sends (self.registrationAction now (.sendClientIdAck id)).1 =
        [(RegistrationMessage.clientIdAck id).bytes] := by
  unfold registrationAction
  dsimp only
  rw [RegistrationMessage.encode_ok]
  exact ⟨rfl, rfl⟩

/-- What a frame does to an app that is not registered. -/
theorem processUnregistered_effect {frame : Frame} (held : self.channel = none) :
    self.FrameEffect now frame (self.processUnregistered now frame) := by
  unfold processUnregistered
  cases hparse : RegistrationMessage.parse frame.messageType frame.payload with
  | error e => exact .waiting held (fun msg h => nomatch hparse.symm.trans h) held rfl (.inl rfl)
  | ok msg =>
    dsimp only
    set s : SpaApp := { self with
      unregisteredFramesReceived := self.unregisteredFramesReceived + 1
      lastUnregisteredFrameTime := some now
      regLog := (self.regLog.check (UInt32.ofNat (now / 1000)) 5).2
      registration := (self.registration.process msg).2 } with hs
    rcases RegistrationStateMachine.process_cases held msg with
      ⟨hrefuses, hnone, hack⟩ | ⟨ch, hash, hstate, rfl, hown, hprocess⟩ |
        ⟨ch, hstate, rfl, hprocess⟩
    · obtain ⟨hid, hsent⟩ := s.registrationAction_link now hack
      have hrefuses' : ∀ msg',
        RegistrationMessage.parse frame.messageType frame.payload = .ok msg' →
          self.registration.Refuses msg' := fun msg' h => by
        obtain rfl := Except.ok.inj (hparse.symm.trans h)
        exact hrefuses
      exact .waiting held hrefuses' ((s.registrationAction_channel now _).trans hnone) hid hsent
    · obtain ⟨hid, hsent⟩ := s.registrationAction_ack now ch
      have hheld : s.channel = some ch := congrArg (fun r => r.2.clientId) hprocess
      rw [congrArg Prod.fst hprocess]
      exact .assigned ch hash held hstate hparse hown
        ((s.registrationAction_channel now _).trans hheld) hid hsent
    · have hheld : s.channel = some ch := congrArg (fun r => r.2.clientId) hprocess
      rw [congrArg Prod.fst hprocess]
      exact .confirmed ch held hstate hparse hheld rfl rfl

/-- An assignment is what the dispatcher takes for one. -/
theorem isAssignment_iff {frame : Frame} {ch : UInt8} {hash : ClientHash} :
    IsAssignment frame ch hash ↔
      dispatchFrame frame = .registration (.clientIdAssignment ch hash) := by
  rw [dispatchFrame_eq_registration, IsAssignment]
  refine (and_iff_right_of_imp fun h => ?_).symm
  exact RegistrationMessage.parse_assignment h

/-- A grant does not change the client ID and the channel. -/
theorem onReady_link (ch : UInt8) : (self.onReady now ch).2.channel = self.channel ∧
    (self.onReady now ch).2.clientId = self.clientId := by
  unfold onReady
  split
  · exact ⟨rfl, rfl⟩
  dsimp only
  cases self.commandQueue with
  | cons cmd queue => exact ⟨rfl, rfl⟩
  | nil => cases self.clientId <;> exact ⟨rfl, rfl⟩

/-- What a frame does to an app that is registered. -/
theorem processRegistered_effect {frame : Frame} {old : UInt8} (held : self.channel = some old) :
    self.FrameEffect now frame (self.processRegistered now frame) := by
  unfold processRegistered
  -- The frames of other kinds are no assignment and no grant.
  have hkind : ∀ m, dispatchFrame frame = m → (∀ ch, m ≠ .ready ch) →
      (∀ ch hash, m ≠ .registration (.clientIdAssignment ch hash)) →
      (∀ ch hash, ¬ IsAssignment frame ch hash) ∧ ∀ ch, dispatchFrame frame ≠ .ready ch := by
    rintro m rfl hready hassign
    refine ⟨fun ch hash h => hassign ch hash (isAssignment_iff.1 h), hready⟩
  cases hm : dispatchFrame frame with
  | ready ch =>
    exact .granted old ch held hm (self.onReady_link now ch).1 (self.onReady_link now ch).2 rfl
  | statusUpdate status =>
    obtain ⟨h1, h2⟩ := hkind _ hm nofun nofun
    exact .other old held h1 h2 rfl rfl rfl
  | faultLogResponse faultLog =>
    obtain ⟨h1, h2⟩ := hkind _ hm nofun nofun
    exact .other old held h1 h2 rfl rfl rfl
  | registration msg =>
    cases msg with
    | clientIdAssignment ch hash =>
      exact .reassigned old ch hash held (isAssignment_iff.2 hm) rfl rfl rfl
    | _ =>
      obtain ⟨h1, h2⟩ := hkind _ hm nofun nofun
      exact .other old held h1 h2 rfl rfl rfl
  | _ =>
    obtain ⟨h1, h2⟩ := hkind _ hm nofun nofun
    exact .other old held h1 h2 rfl rfl rfl

/-- What a frame does to the link. -/
theorem processFrame_effect (frame : Frame) :
    self.FrameEffect now frame (self.processFrame now frame) := by
  unfold processFrame
  cases held : self.channel with
  | none =>
    rw [RegistrationStateMachine.isRegistered_eq_false.2 held]
    exact self.processUnregistered_effect now held
  | some old =>
    rw [RegistrationStateMachine.isRegistered_iff.2 ⟨old, held⟩]
    exact self.processRegistered_effect now held

/-! ## The other calls -/

/-- A call that keeps the link, and sends nothing. -/
structure Silent (app : SpaApp) (r : AppResult) : Prop where
  held : r.2.channel = app.channel
  id : r.2.clientId = app.clientId
  sent : sends r.1 = []

/-- Enqueuing leaves both channels alone. -/
theorem enqueue_link (cmd : Command) :
    (self.enqueue cmd).channel = self.channel ∧ (self.enqueue cmd).clientId = self.clientId := by
  unfold enqueue
  split <;> exact ⟨rfl, rfl⟩

/-- Enqueuing a clock mode leaves both channels alone. -/
theorem enqueueClockMode_link (cmd : Command) : (self.enqueueClockMode cmd).channel = self.channel ∧
    (self.enqueueClockMode cmd).clientId = self.clientId := by
  unfold enqueueClockMode
  split
  · split
    · exact ⟨rfl, rfl⟩
    · exact self.enqueue_link _
  · exact ⟨rfl, rfl⟩

/-- A command of the user sends nothing and leaves the link alone. -/
theorem onMqttCommand_silent (cmd : Command) : self.Silent (self.onMqttCommand cmd) := by
  obtain ⟨hheld, hid⟩ := self.enqueueClockMode_link cmd
  unfold onMqttCommand
  split
  · exact ⟨rfl, rfl, rfl⟩
  dsimp only
  split
  · exact ⟨hheld, hid, rfl⟩
  · obtain ⟨hheld', hid'⟩ := (self.enqueueClockMode cmd).enqueue_link cmd
    exact ⟨hheld'.trans hheld, hid'.trans hid, rfl⟩

/-- Publishing sends nothing and leaves the link alone. -/
theorem forcePublish_silent : self.Silent self.forcePublish := by
  unfold forcePublish
  split <;> exact ⟨rfl, rfl, rfl⟩

/-- The check of the heap sends nothing and leaves the link alone. -/
theorem checkHeap_silent (freeHeap : ℕ) : self.Silent (self.checkHeap now freeHeap) := by
  unfold checkHeap
  refine ⟨rfl, rfl, ?_⟩
  dsimp only
  split <;> rfl

/-- `start_pump_timer` keeps the link, and sends the command for the index of a pump. -/
theorem startPumpTimer_link (pumpIndex : UInt8) (minutes : UInt32) :
    (self.startPumpTimer now pumpIndex minutes).2.channel = self.channel ∧
      (self.startPumpTimer now pumpIndex minutes).2.clientId = self.clientId ∧
      sends (self.startPumpTimer now pumpIndex minutes).1 =
        ((self.pumpTimers.startTimer pumpIndex minutes now).1.map encodeCommand).toList := by
  unfold startPumpTimer
  dsimp only
  split
  · rename_i cmd hcmd
    exact ⟨rfl, rfl, by rw [hcmd]; rfl⟩
  · rename_i hcmd
    exact ⟨rfl, rfl, by rw [hcmd]; rfl⟩

/-! ## `tick` -/

/-- A reset gives up both channels. -/
theorem resetRegistrationState_link (clearCommands : Bool) :
    (self.resetRegistrationState clearCommands).channel = none ∧
      (self.resetRegistrationState clearCommands).clientId = none := by
  unfold resetRegistrationState
  cases clearCommands <;> exact ⟨rfl, rfl⟩

/-- The registration timeout does not change the channel, and nothing that the other parts look at.
-/
theorem checkRegistration_link : (self.checkRegistration now).2.channel = self.channel ∧
    (self.checkRegistration now).2.clientId = self.clientId ∧
    sends (self.checkRegistration now).1 = [] ∧
    (self.checkRegistration now).2.ctsLost now = self.ctsLost now ∧
    (self.checkRegistration now).2.probeDue now = self.probeDue now := by
  unfold checkRegistration
  by_cases hreg : self.registration.isRegistered
  · rw [if_pos hreg]
    exact ⟨rfl, rfl, rfl, rfl, rfl⟩
  rw [if_neg hreg]
  have hnone : self.channel = none :=
    RegistrationStateMachine.isRegistered_eq_false.1 (by simpa using hreg)
  have hcts : self.ctsLost now = false := by
    unfold ctsLost
    rw [eq_false_of_ne_true hreg]
    rfl
  have halert : ∀ s : SpaApp, (s.alertNoQuery now).2.channel = s.channel ∧
      (s.alertNoQuery now).2.clientId = s.clientId ∧ sends (s.alertNoQuery now).1 = [] ∧
      (s.alertNoQuery now).2.ctsLost now = s.ctsLost now ∧
      (s.alertNoQuery now).2.probeDue now = s.probeDue now := fun s => by
    unfold alertNoQuery
    split <;> exact ⟨rfl, rfl, rfl, rfl, rfl⟩
  obtain ⟨hheld, hid, hsent, hlost, hdue⟩ := halert (self.timeoutRegistration now).2
  rw [andThen, sends_append, hheld, hid, hsent, hlost, hdue, timeoutRegistration]
  split
  · exact ⟨hnone.symm, rfl, rfl, hcts.symm, rfl⟩
  · exact ⟨rfl, rfl, rfl, rfl, rfl⟩

/-- Lost grants give up both channels, and nothing is sent. -/
theorem checkCts_link : sends (self.checkCts now).1 = [] ∧
    (self.checkCts now).2.probeDue now = self.probeDue now ∧
    (self.checkCts now).2.channel = (if self.ctsLost now then none else self.channel) ∧
    (self.checkCts now).2.clientId = if self.ctsLost now then none else self.clientId := by
  unfold checkCts
  split
  · exact ⟨rfl, rfl, rfl, rfl⟩
  · exact ⟨rfl, rfl, rfl, rfl⟩

/-- The probe is sent to the client ID. -/
theorem probe_link : (self.probe now).2.channel = self.channel ∧
    (self.probe now).2.clientId = self.clientId ∧
    sends (self.probe now).1 = if self.probeDue now then
      (self.clientId.map fun cid => encodeCommand (.nothingToSend cid)).toList else [] := by
  unfold probe
  split
  · cases self.clientId <;> exact ⟨rfl, rfl, rfl⟩
  · exact ⟨rfl, rfl, rfl⟩

/-- Stale data may give up both channels, and nothing is sent. -/
theorem checkStale_link : sends (self.checkStale now).1 = [] ∧
    ((self.checkStale now).2.channel = self.channel ∧
        (self.checkStale now).2.clientId = self.clientId ∨
      (self.checkStale now).2.channel = none ∧ (self.checkStale now).2.clientId = none) := by
  unfold checkStale
  split
  · refine ⟨?_, .inr ⟨rfl, rfl⟩⟩
    dsimp only
    split <;> rfl
  · exact ⟨rfl, .inl ⟨rfl, rfl⟩⟩

/-- The diagnostics send nothing and leave the link alone. -/
theorem checkDiagnostics_silent : self.Silent (self.checkDiagnostics now) := by
  unfold checkDiagnostics
  split <;> exact ⟨rfl, rfl, rfl⟩

/-- `tick` keeps the link or resets it, and sends a probe of the client ID when one is due and the
grants have not stopped. -/
theorem tick_link :
    ((self.tick now).2.channel = self.channel ∧ (self.tick now).2.clientId = self.clientId ∨
      (self.tick now).2.channel = none ∧ (self.tick now).2.clientId = none) ∧
    sends (self.tick now).1 = if self.probeDue now ∧ self.ctsLost now = false then
      (self.clientId.map fun cid => encodeCommand (.nothingToSend cid)).toList else [] := by
  set s1 := (self.checkRegistration now).2 with hs1
  set s2 := (s1.checkCts now).2 with hs2
  set s3 := (s2.probe now).2 with hs3
  set s4 := (s3.checkStale now).2 with hs4
  obtain ⟨hheld1, hid1, hsent1, hcts1, hdue1⟩ := self.checkRegistration_link now
  obtain ⟨hsent2, hdue2, hheld2, hid2⟩ := s1.checkCts_link now
  obtain ⟨hheld3, hid3, hsent3⟩ := s2.probe_link now
  obtain ⟨hsent4, hlink4⟩ := s3.checkStale_link now
  obtain ⟨hheld5, hid5, hsent5⟩ := s4.checkDiagnostics_silent now
  have hsends : sends (self.tick now).1 = sends (s2.probe now).1 := by
    unfold tick andThen
    simp only [sends_append, ← hs1, ← hs2, ← hs3, ← hs4, hsent1, hsent2, hsent4, hsent5,
      List.nil_append, List.append_nil]
  have hstate : (self.tick now).2 = (s4.checkDiagnostics now).2 := rfl
  rw [hsends, hsent3, hdue2, hdue1, hid2, hcts1, hid1, hstate, hheld5, hid5]
  rw [hcts1, hheld1] at hheld2
  rw [hcts1, hid1] at hid2
  refine ⟨?_, ?_⟩
  · rcases hlink4 with ⟨hheld4, hid4⟩ | hnone
    · rw [hheld4, hid4, hheld3, hid3, hheld2, hid2]
      cases self.ctsLost now with
      | false => exact .inl ⟨rfl, rfl⟩
      | true => exact .inr ⟨rfl, rfl⟩
    · exact .inr hnone
  · cases self.ctsLost now <;> cases self.probeDue now <;> rfl

/-! ## The hash -/

/-- The app and its state machine have the client hash. -/
def HasHash (hash : ClientHash) : Prop :=
  self.clientHash = hash ∧ self.registration.clientHash = hash

variable {self} {now} {hash : ClientHash}

/-- What the registration asks for keeps the hash. -/
theorem HasHash.registrationAction (h : self.HasHash hash) (action : RegistrationAction) :
    (self.registrationAction now action).2.HasHash hash := by
  unfold SpaApp.registrationAction
  repeat' split
  all_goals exact h

/-- A frame keeps the hash. -/
theorem HasHash.processFrame (h : self.HasHash hash) (frame : Frame) :
    (self.processFrame now frame).2.HasHash hash := by
  unfold SpaApp.processFrame
  split
  · unfold processRegistered
    split
    case h_2 channel _ =>
      unfold onReady
      split
      · exact h
      dsimp only
      cases self.commandQueue with
      | cons cmd queue => exact h
      | nil => cases self.clientId <;> exact h
    all_goals exact h
  · unfold processUnregistered
    dsimp only
    split
    · exact h
    · exact HasHash.registrationAction
        (by exact ⟨h.1, (RegistrationStateMachine.process_clientHash _).trans h.2⟩) _

/-- Enqueuing keeps the hash. -/
theorem HasHash.enqueue (h : self.HasHash hash) (cmd : Command) :
    (self.enqueue cmd).HasHash hash := by
  unfold SpaApp.enqueue
  split <;> exact h

/-- A command of the user keeps the hash. -/
theorem HasHash.onMqttCommand (h : self.HasHash hash) (cmd : Command) :
    (self.onMqttCommand cmd).2.HasHash hash := by
  have hmode : (self.enqueueClockMode cmd).HasHash hash := by
    unfold enqueueClockMode
    split
    · split
      · exact h
      · exact h.enqueue _
    · exact h
  unfold SpaApp.onMqttCommand
  split
  · exact h
  dsimp only
  split
  · exact hmode
  · exact hmode.enqueue _

/-- A reset keeps the hash. -/
theorem HasHash.resetRegistrationState (h : self.HasHash hash) (clearCommands : Bool) :
    (self.resetRegistrationState clearCommands).HasHash hash := by
  cases clearCommands <;> exact h

/-- The check of the registration keeps the hash. -/
theorem HasHash.checkRegistration (h : self.HasHash hash) :
    (self.checkRegistration now).2.HasHash hash := by
  have htimeout : (self.timeoutRegistration now).2.HasHash hash := by
    unfold timeoutRegistration
    split <;> exact h
  have halert : ∀ s : SpaApp, s.HasHash hash → (s.alertNoQuery now).2.HasHash hash := fun s hs => by
    unfold alertNoQuery
    split <;> exact hs
  unfold SpaApp.checkRegistration
  split
  · exact h
  · exact halert _ htimeout

/-- A tick keeps the hash. -/
theorem HasHash.tick (h : self.HasHash hash) : (self.tick now).2.HasHash hash := by
  have hcts : ∀ s : SpaApp, s.HasHash hash → (s.checkCts now).2.HasHash hash := fun s hs => by
    unfold checkCts
    split
    · exact hs.resetRegistrationState true
    · exact hs
  have hprobe : ∀ s : SpaApp, s.HasHash hash → (s.probe now).2.HasHash hash := fun s hs => by
    unfold probe
    split <;> exact hs
  have hstale : ∀ s : SpaApp, s.HasHash hash → (s.checkStale now).2.HasHash hash := fun s hs => by
    unfold checkStale
    split
    · exact HasHash.resetRegistrationState (by exact hs) true
    · exact hs
  have hdiag : ∀ s : SpaApp, s.HasHash hash → (s.checkDiagnostics now).2.HasHash hash :=
    fun s hs => by
    unfold checkDiagnostics
    split <;> exact hs
  exact hdiag _ (hstale _ (hprobe _ (hcts _ h.checkRegistration)))

/-- No call changes the hash. -/
theorem HasHash.call (h : self.HasHash hash) (c : AppCall) : (self.call now c).2.HasHash hash := by
  cases c with
  | processFrame frame => exact h.processFrame frame
  | onMqttCommand cmd => exact h.onMqttCommand cmd
  | tick => exact h.tick
  | startPumpTimer pumpIndex minutes =>
    unfold SpaApp.call startPumpTimer
    dsimp only
    split <;> exact h
  | setPreviousChannel channel => exact ⟨h.1, h.1⟩
  | resetRegistrationState clearCommands => exact h.resetRegistrationState clearCommands
  | forcePublish =>
    unfold SpaApp.call forcePublish
    dsimp only
    split <;> exact h
  | checkHeap freeHeap => exact h

end SpaApp

end Launa.Core
