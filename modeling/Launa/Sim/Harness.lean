import Launa.Core.Transitions
import Launa.Sim.Conversation

/-!
# The app and the simulator in the harness

The harness of the integration tests feeds what the simulator sends to the app, answers the query
for new clients as the driver of the firmware does, and feeds what the app sends to the simulator.
`completeRegistration` does so until the app is registered. With an app that waits for the query and
asks for no channel of before, it takes one tick more than the bus is silent for, and then the app
and the simulator have the channel that was next, and the hash of the app
(`completeRegistration_eq`).
-/

namespace Launa.Sim.Simulator

open Launa.Core Protocol SpaApp

/-! ## `harness.rs` -/

/-- `TestHarness`, without the broker. -/
structure TestHarness where
  sim : SpaSim
  app : SpaApp
  now : Timestamp
  decoder : FrameDecoder

namespace TestHarness

/-- `TestHarness::new`. -/
def new (now : Timestamp) (clientHash : ClientHash) : TestHarness where
  sim := { SpaSim.new with requireRegistration := true }
  app := .withClientHash now clientHash
  now := now
  decoder := .new

/-- The app processes a frame. -/
def processFrame (self : TestHarness) (frame : Frame) : List AppAction × TestHarness :=
  let (actions, app) := self.app.processFrame self.now frame
  (actions, { self with app })

/-- The app processes frames. -/
def processFrames (self : TestHarness) : List Frame → List AppAction × TestHarness
  | [] => ([], self)
  | frame :: frames =>
    let (actions, self) := self.processFrame frame
    let (actions', self) := self.processFrames frames
    (actions ++ actions', self)

/-- The frame asks for new clients. -/
def isNewClientQuery (frame : Frame) : Bool :=
  frame.messageType = (0xFE, 0xBF) ∧ frame.payload = [0x00]

/-- The response of the driver, and what the app does with the answer to it. -/
def answerQuery (self : TestHarness) : Option (List AppAction × TestHarness) :=
  match (RegistrationMessage.newClientResponse 0x02 self.app.clientHash).encode with
  | .ok encoded =>
    let (bytes, sim) := self.sim.processIncomingBytes encoded
    let self := { self with sim }
    if bytes = [] then some ([], self)
    else do
      let (frames, decoder) ← self.decoder.feedSlice bytes
      some ({ self with decoder }.processFrames frames)
  | .error _ => some ([], self)

/-- A frame of a tick while the app registers. -/
def registrationFrame (self : TestHarness) (frame : Frame) :
    Option (List AppAction × TestHarness) :=
  if isNewClientQuery frame then do
    let (actions, self) := self.processFrame frame
    let (actions', self) ← self.answerQuery
    some (actions ++ actions', self)
  else if self.app.registration.isRegistered = false then some (self.processFrame frame)
  else some ([], self)

/-- The frames of a tick while the app registers. -/
def registrationFrames (self : TestHarness) : List Frame → Option (List AppAction × TestHarness)
  | [] => some ([], self)
  | frame :: frames => do
    let (actions, self) ← self.registrationFrame frame
    let (actions', self) ← self.registrationFrames frames
    some (actions ++ actions', self)

/-- The simulator processes what the app sends. -/
def processSent (self : TestHarness) (bytes : List UInt8) : TestHarness :=
  { self with sim := (self.sim.processIncomingBytes bytes).2 }

/-- The app processes the responses to what it sends, too. -/
def processSentFrame (self : TestHarness) (bytes : List UInt8) : Option TestHarness :=
  let (responses, sim) := self.sim.processIncomingBytes bytes
  let self := { self with sim }
  if responses = [] then some self
  else do
    let (frames, decoder) ← self.decoder.feedSlice responses
    some (frames.foldl (fun self frame =>
      let (actions, self) := self.processFrame frame
      (sends actions).foldl processSent self) { self with decoder })

/-- A tick of `complete_registration`. -/
def registrationTick (f : Floats) (self : TestHarness) : Option TestHarness := do
  let (bytes, sim) ← self.sim.tick f
  let (frames, decoder) ← self.decoder.feedSlice bytes
  let (actions, self) ← { self with sim, decoder }.registrationFrames frames
  (sends actions).foldlM processSentFrame self

/-- `complete_registration`: the ticks that it takes. It panics when these are too many. -/
def completeRegistration (f : Floats) (self : TestHarness) : ℕ → Option (ℕ × TestHarness)
  | 0 => none
  | maxTicks + 1 => do
    let self ← self.registrationTick f
    if self.app.registration.isRegistered then some (1, self)
    else
      let (ticks, self) ← self.completeRegistration f maxTicks
      some (ticks + 1, self)

end TestHarness

namespace SpaSim

variable {self : SpaSim}

/-! ## What the simulator sends -/

/-- A tick of a silent bus sends nothing. -/
theorem tick_silent (f : Floats) (h : 0 < self.errorInjection.busSilenceRemaining) :
    self.tick f = some ([], self.startTick.tickSilent) := by
  unfold tick
  exact if_pos h

/-- A status is no query. -/
theorem statusSent_arrives {f : Floats} {o : Sent × SpaSim} (h : self.statusSent f = some o) :
    ∀ frame ∈ o.1.arrives, TestHarness.isNewClientQuery frame = false := by
  unfold statusSent at h
  dsimp only at h
  obtain ⟨status, hstatus, rfl⟩ := Option.map_eq_some_iff.1 h
  obtain ⟨setTemp, -, rfl⟩ := Option.map_eq_some_iff.1 hstatus
  dsimp only
  split
  · exact fun frame hframe => absurd hframe List.not_mem_nil
  · exact List.forall_mem_singleton.2 rfl

/-- At most the Ready frame is sent where it is due. -/
theorem maybeReadySent_spec {o : List Sent × SpaSim} (h : self.maybeReadySent = some o) :
    (∀ sent ∈ o.1, sent = self.readySent) ∧ o.2.frameSplitter = self.frameSplitter := by
  unfold maybeReadySent at h
  dsimp only at h
  split at h
  · obtain ⟨next, hnext, hsome⟩ := Option.bind_eq_some_iff.1 h
    obtain ⟨rng, hdrawn⟩ := nextReadyInterval_eq_some hnext
    rw [← Option.some.inj hsome, hdrawn]
    exact ⟨List.forall_mem_singleton.2 rfl, rfl⟩
  · rw [← Option.some.inj h]
    exact ⟨fun sent hsent => absurd hsent List.not_mem_nil, rfl⟩

/-- Where no split is due, the status is sent once or twice, and the Ready frame at most. -/
theorem sendStatus_spec {status : Sent} {o : List Sent × SpaSim}
    (hsplit : self.frameSplitter.splitPoint = none) (h : self.sendStatus status = some o) :
    (∀ sent ∈ o.1, sent = status ∨ sent = self.readySent) ∧
      o.2.frameSplitter = self.frameSplitter := by
  have hready {s : SpaSim} {ready : List Sent × SpaSim} (hs : s.maybeReadySent = some ready)
      (hclient : s.readySent = self.readySent) :
      ∀ sent ∈ ready.1, sent = status ∨ sent = self.readySent := fun sent hsent =>
    .inr (((maybeReadySent_spec hs).1 sent hsent).trans hclient)
  unfold sendStatus at h
  rw [hsplit] at h
  dsimp only at h
  split at h
  · obtain ⟨ready, hsome, rfl⟩ := Option.map_eq_some_iff.1 h
    refine ⟨?_, (maybeReadySent_spec hsome).2⟩
    exact List.forall_mem_cons.2 ⟨.inl rfl, List.forall_mem_cons.2 ⟨.inl rfl, hready hsome rfl⟩⟩
  · obtain ⟨ready, hsome, rfl⟩ := Option.map_eq_some_iff.1 h
    refine ⟨?_, (maybeReadySent_spec hsome).2⟩
    exact List.forall_mem_cons.2 ⟨.inl rfl, hready hsome rfl⟩

/-- Without a client, a tick that sends whole frames begins with the query for new clients, and has
no other. -/
theorem transmitStatus_unregistered {f : Floats} {o : List Sent × SpaSim}
    (hregistered : self.registered = false) (hsplitter : self.frameSplitter = .new)
    (h : self.transmitStatus f = some o) :
    o.2.frameSplitter = .new ∧ ∃ sents, o.1 = .frame registrationQuery :: sents ∧
      ∀ sent ∈ sents, ∀ frame ∈ sent.arrives, TestHarness.isNewClientQuery frame = false := by
  unfold transmitStatus at h
  dsimp only at h
  rw [if_neg (ne_true_of_eq_false hregistered)] at h
  obtain ⟨status, hstatus, hrest⟩ := Option.bind_eq_some_iff.1 h
  obtain ⟨sent, hsent, hsome⟩ := Option.bind_eq_some_iff.1 hrest
  have hsame : status.2.tickCountdowns.frameSplitter = .new := by
    obtain ⟨rng, hdrawn⟩ :=
      jitterPaddingLen_snd (self.queryClients.2.processPendingEvents.simulatePhysics f)
    refine (statusSent_spec hstatus).2.2.trans ?_
    rw [hdrawn, queryClients, if_neg (ne_true_of_eq_false hregistered)]
    exact hsplitter
  obtain ⟨hsents, hlast⟩ := sendStatus_spec (by rw [hsame]; rfl) hsent
  rw [← Option.some.inj hsome]
  refine ⟨hlast.trans hsame, _, rfl, ?_⟩
  refine List.forall_mem_cons.2 ⟨fun frame hframe => absurd hframe List.not_mem_nil, ?_⟩
  intro s hs
  rcases hsents s hs with rfl | rfl
  · exact statusSent_arrives hstatus
  · refine List.forall_mem_singleton.2 (decide_eq_false fun hquery => ?_)
    exact absurd (List.cons.inj hquery.2).1 (show ¬ (0x06 : UInt8) = 0x00 by decide)

/-- An answer in the tick of the query is not late. -/
theorem isLate_of_query (h : self.registrationQueryTick = some self.tickCount) :
    self.isLate = false := by
  unfold isLate
  rw [h]
  cases self.registrationWindowTicks with
  | none => rfl
  | some windowTicks => exact decide_eq_false (by omega)

/-- A tick has a status, as one that sends whole frames has, where the bus is not silent and no part
of a frame is left over. -/
theorem tick_eq_tickFrames (f : Floats) (hsplitter : self.frameSplitter = .new)
    (hsilence : self.errorInjection.busSilenceRemaining = 0) :
    self.tick f = self.startTick.tickFrames f ∧
      self.transmit f = self.startTick.transmitStatus f := by
  have hnoise : ¬ self.startTick.errorInjection.busSilenceRemaining > 0 := by
    show ¬ self.errorInjection.busSilenceRemaining > 0
    omega
  have hremainder : self.startTick.frameSplitter.remainder = none :=
    congrArg FrameSplitter.remainder hsplitter
  unfold tick transmit
  dsimp only
  rw [if_neg hnoise, if_neg hnoise, hremainder]
  exact ⟨rfl, rfl⟩

/-- What a tick sends without a client, where no frame is split: the query, and no other. An answer
to it is in time. -/
theorem tick_unregistered (f : Floats) (hsafe : self.Safe) (hregistered : self.registered = false)
    (hsplitter : self.frameSplitter = .new)
    (hsilence : self.errorInjection.busSilenceRemaining = 0) :
    ∃ sents sim,
      self.tick f = some ((Sent.frame registrationQuery :: sents).flatMap Sent.bytes, sim) ∧
      (∀ sent ∈ Sent.frame registrationQuery :: sents, sent.Fits) ∧
      (∀ sent ∈ sents, ∀ frame ∈ sent.arrives, TestHarness.isNewClientQuery frame = false) ∧
      sim.registered = false ∧ sim.isLate = false ∧ sim.nextClientId = self.nextClientId := by
  obtain ⟨o, ho, -⟩ := hsafe.tick f
  have hremainder : self.frameSplitter.remainder = none :=
    congrArg FrameSplitter.remainder hsplitter
  have hregistered' : self.startTick.registered = false := hregistered
  obtain ⟨htick, htransmit⟩ := tick_eq_tickFrames f hsplitter hsilence
  have hrel := tick_rel f self
  rw [ho, whole_of_none hremainder, htransmit] at hrel
  generalize hsent : self.startTick.transmitStatus f = sent at hrel
  cases hrel with
  | some hrest =>
    rename_i o'
    obtain ⟨hsame, sents, hsents, hother⟩ :=
      transmitStatus_unregistered hregistered' hsplitter hsent
    have hnone : o.2.frameSplitter.remainder = none := by
      rw [hrest.whole] at hsame
      exact Option.map_eq_none_iff.1 (congrArg FrameSplitter.remainder hsame)
    -- Nothing is put off before the tick or by it, so its bytes are those of whole frames.
    have hbytes := hrest.bytes
    rw [pending_of_none hnone, pending_of_none hremainder, List.append_nil, List.nil_append,
      hsents] at hbytes
    have hstate := OnlySends.tickFrames (htick.symm.trans ho)
    rw [queryClients, if_neg (ne_true_of_eq_false hregistered')] at hstate
    obtain ⟨_, _, _, _, _, _, _, hstate⟩ := hstate
    refine ⟨sents, o.2, ho.trans (congrArg some (Prod.ext hbytes rfl)), hsents ▸ hrest.fits, hother,
      ?_, ?_, ?_⟩
    · rw [hstate]
      exact hregistered
    · apply isLate_of_query
      rw [hstate]
      rfl
    · rw [hstate]
      rfl

/-! ## What it hears -/

/-- A registration message is processed from its bytes. -/
theorem processIncomingBytes_registration (self : SpaSim) (msg : RegistrationMessage) :
    self.processIncomingBytes msg.bytes =
      ((self.processFrame msg.frame).1.toList.flatMap frameBytes,
        (self.processFrame msg.frame).2) := by
  have hlen := msg.encodeParts_length
  have hrespond : self.respond msg.bytes = _ :=
    respond_frame msg.encode_ok (show msg.encodeParts.2.length ≠ 122 by omega)
  rw [processIncomingBytes, hrespond]
  rfl

/-- The answer to the query is answered with the channel that is next. -/
theorem processIncomingBytes_response (hregistered : self.registered = false)
    (hlate : self.isLate = false) (hash : ClientHash) :
    ∃ sim, self.processIncomingBytes (RegistrationMessage.newClientResponse 0x02 hash).bytes =
      (frameBytes (clientIdAssignment self.nextClientId hash), sim) ∧
      sim.pendingClientHash = some hash := by
  have hallocate : self.allocateChannel hash = self.takeChannel := by
    unfold allocateChannel
    rw [hregistered]
    cases self.clientId with
    | none => rfl
    | some id => exact if_neg fun h => absurd h.1 Bool.false_ne_true
  have hframe : self.processFrame (RegistrationMessage.newClientResponse 0x02 hash).frame =
      self.processRegistration [0x01, 0x02, hash.1, hash.2] := rfl
  have hhash : hashOf [0x01, 0x02, hash.1, hash.2] = hash := rfl
  rw [processIncomingBytes_registration, hframe, processRegistration]
  dsimp only
  rw [hlate, if_neg Bool.false_ne_true, hhash, hallocate]
  exact ⟨_, congrArg (·, _) (List.append_nil _), rfl⟩

/-- The acknowledgement of a channel registers its client. -/
theorem processIncomingBytes_ack (self : SpaSim) {channel : UInt8}
    (h : 0x11 ≤ channel ∧ channel ≤ 0x2F) :
    self.processIncomingBytes (RegistrationMessage.clientIdAck channel).bytes =
      ([], { self with clientId := some channel, registered := true }) := by
  have hcommand : channel ≠ 0x0A := by
    rintro rfl
    exact absurd h.1 (by decide)
  have hbroadcast : channel ≠ 0xFE := by
    rintro rfl
    exact absurd h.2 (by decide)
  have hframe : self.processFrame (RegistrationMessage.clientIdAck channel).frame =
      (none, { self with clientId := some channel, registered := true }) := by
    unfold processFrame
    rw [if_neg fun heq => hcommand (congrArg Prod.fst heq),
      if_neg fun heq => hbroadcast (congrArg Prod.fst heq)]
    exact if_pos ⟨rfl, rfl⟩
  rw [processIncomingBytes_registration, hframe]
  rfl

end SpaSim

namespace TestHarness

variable {harness : TestHarness} {hash : ClientHash}

/-! ## What the app does -/

/-- An app that waits for the query waits for an assignment from then on. -/
theorem spaApp_processFrame_query {app : SpaApp}
    (hwaiting : app.registration.state = .waitingForQuery)
    (hprevious : app.registration.previousChannel = none) (now : Timestamp) :
    ∃ app', app.processFrame now registrationQuery = ([], app') ∧
      app'.registration.state = .waitingForAssignment := by
  have hregistered : app.registration.isRegistered = false := by
    rw [RegistrationStateMachine.isRegistered, hwaiting]
  have hparse : RegistrationMessage.parse registrationQuery.messageType registrationQuery.payload =
      .ok .newClientQuery := rfl
  have hprocess : app.registration.process .newClientQuery =
      (.sendNewClientResponse, { app.registration with state := .waitingForAssignment }) := by
    generalize app.registration = sm at hwaiting hprevious
    obtain ⟨state, clientHash, previousChannel⟩ := sm
    cases hwaiting
    cases hprevious
    rfl
  unfold SpaApp.processFrame
  rw [hregistered, if_neg Bool.false_ne_true, processUnregistered, hparse]
  dsimp only
  rw [hprocess]
  exact ⟨_, rfl, rfl⟩

/-- With the assignment, it is registered, and acknowledges the channel. -/
theorem spaApp_processFrame_assignment {app : SpaApp}
    (hwaiting : app.registration.state = .waitingForAssignment) (hhash : app.HasHash hash)
    (now : Timestamp) (channel : UInt8) :
    ∃ app', app.processFrame now (clientIdAssignment channel hash) =
        ([.sendFrame (RegistrationMessage.clientIdAck channel).bytes], app') ∧
      app'.registration.state = .registered channel ∧ app'.clientId = some channel := by
  have hregistered : app.registration.isRegistered = false := by
    rw [RegistrationStateMachine.isRegistered, hwaiting]
  have hparse : RegistrationMessage.parse (clientIdAssignment channel hash).messageType
      (clientIdAssignment channel hash).payload = .ok (.clientIdAssignment channel hash) := rfl
  have hprocess : app.registration.process (.clientIdAssignment channel hash) =
      (.sendClientIdAck channel, { app.registration with state := .registered channel }) := by
    unfold RegistrationStateMachine.process
    rw [hwaiting]
    exact if_neg fun h => h.2 hhash.2.symm
  unfold SpaApp.processFrame
  rw [hregistered, if_neg Bool.false_ne_true, processUnregistered, hparse]
  dsimp only
  rw [hprocess, registrationAction, RegistrationMessage.encode_ok]
  exact ⟨_, rfl, rfl, rfl⟩

/-! ## A tick -/

/-- The app has the channel, and the simulator has given one to the hash. -/
structure Assigned (harness : TestHarness) (channel : UInt8) (hash : ClientHash) : Prop where
  app : harness.app.registration.state = .registered channel
  clientId : harness.app.clientId = some channel
  hash : harness.sim.pendingClientHash = some hash

/-- An app that was assigned a channel is registered. -/
theorem Assigned.isRegistered {channel : UInt8} (h : harness.Assigned channel hash) :
    harness.app.registration.isRegistered = true := by
  rw [RegistrationStateMachine.isRegistered, h.app]

/-- The driver answers the query, and the app has the channel that is assigned. -/
theorem answerQuery_eq (harness : TestHarness)
    (hwaiting : harness.app.registration.state = .waitingForAssignment)
    (hhash : harness.app.HasHash hash) {errors : UInt32}
    (hdecoder : harness.decoder = ⟨[], false, 0, errors, 512⟩)
    (hregistered : harness.sim.registered = false) (hlate : harness.sim.isLate = false) :
    ∃ harness', harness.answerQuery = some
        ([.sendFrame (RegistrationMessage.clientIdAck harness.sim.nextClientId).bytes], harness') ∧
      harness'.Assigned harness.sim.nextClientId hash := by
  set assignment := clientIdAssignment harness.sim.nextClientId hash
  obtain ⟨sim, hsim, hpending⟩ := SpaSim.processIncomingBytes_response hregistered hlate hash
  obtain ⟨app, happ, hstate, hid⟩ :=
    spaApp_processFrame_assignment hwaiting hhash harness.now harness.sim.nextClientId
  have hfits : ∀ sent ∈ [Sent.frame assignment], sent.Fits :=
    List.forall_mem_singleton.2 (show 4 < 122 by decide)
  have hbytes : [Sent.frame assignment].flatMap Sent.bytes = frameBytes assignment :=
    List.append_nil _
  obtain ⟨errors', hfed⟩ := Sent.feedSlice_flatMap hfits errors
  have hne : frameBytes assignment ≠ [] := by
    rw [Sent.frameBytes_eq (show assignment.payload.length ≤ 251 from show 4 ≤ 251 by decide)]
    exact List.cons_ne_nil _ _
  have hframes : TestHarness.processFrames ⟨sim, harness.app, harness.now,
        ⟨[], false, 0, errors', 512⟩⟩ [assignment] =
      ([.sendFrame (RegistrationMessage.clientIdAck harness.sim.nextClientId).bytes],
        ⟨sim, app, harness.now, ⟨[], false, 0, errors', 512⟩⟩) := by
    rw [TestHarness.processFrames, TestHarness.processFrame]
    dsimp only
    rw [happ]
    rfl
  rw [hbytes] at hfed
  unfold answerQuery
  rw [hhash.1, RegistrationMessage.encode_ok]
  dsimp only
  rw [hsim]
  dsimp only
  rw [if_neg hne, hdecoder, hfed]
  exact ⟨_, congrArg some hframes, hstate, hid, hpending⟩

/-- The query registers the app, as far as the acknowledgement that it sends. -/
theorem registrationFrame_query (harness : TestHarness)
    (hwaiting : harness.app.registration.state = .waitingForQuery)
    (hprevious : harness.app.registration.previousChannel = none) (hhash : harness.app.HasHash hash)
    {errors : UInt32} (hdecoder : harness.decoder = ⟨[], false, 0, errors, 512⟩)
    (hregistered : harness.sim.registered = false) (hlate : harness.sim.isLate = false) :
    ∃ harness', harness.registrationFrame registrationQuery = some
        ([.sendFrame (RegistrationMessage.clientIdAck harness.sim.nextClientId).bytes], harness') ∧
      harness'.Assigned harness.sim.nextClientId hash := by
  obtain ⟨app, happ, hwaiting'⟩ := spaApp_processFrame_query hwaiting hprevious harness.now
  have hhash' : (harness.app.processFrame harness.now registrationQuery).2.HasHash hash :=
    hhash.processFrame registrationQuery
  rw [happ] at hhash'
  obtain ⟨harness', hanswer, hassigned⟩ :=
    answerQuery_eq { harness with app } hwaiting' hhash' hdecoder hregistered hlate
  refine ⟨harness', ?_, hassigned⟩
  have hquery : isNewClientQuery registrationQuery = true := rfl
  rw [registrationFrame, if_pos hquery, TestHarness.processFrame, happ]
  dsimp only
  rw [hanswer]
  rfl

/-- The harness passes a registered app no frames but queries. -/
theorem registrationFrames_registered (h : harness.app.registration.isRegistered = true)
    {frames : List Frame} (hframes : ∀ frame ∈ frames, isNewClientQuery frame = false) :
    harness.registrationFrames frames = some ([], harness) := by
  induction frames with
  | nil => rfl
  | cons frame frames ih =>
    rw [List.forall_mem_cons] at hframes
    have hframe : harness.registrationFrame frame = some ([], harness) := by
      unfold registrationFrame
      rw [hframes.1, if_neg Bool.false_ne_true, if_neg (ne_false_of_eq_true h)]
    rw [registrationFrames, hframe, Option.bind_eq_bind, Option.bind_some]
    dsimp only
    rw [ih hframes.2]
    rfl

/-- A tick from what the simulator sends, what is decoded of it, and what the app does with that. -/
theorem registrationTick_eq {f : Floats} {bytes : List UInt8} {sim : SpaSim} {frames : List Frame}
    {decoder : FrameDecoder} {actions : List AppAction} {harness' : TestHarness}
    (htick : harness.sim.tick f = some (bytes, sim))
    (hfed : harness.decoder.feedSlice bytes = some (frames, decoder))
    (hframes : { harness with sim, decoder }.registrationFrames frames =
      some (actions, harness')) :
    harness.registrationTick f = (sends actions).foldlM processSentFrame harness' := by
  simp only [registrationTick, htick, hfed, hframes, Option.bind_eq_bind, Option.bind_some]

/-- The simulator registers the client that acknowledges its channel. -/
theorem processSentFrame_ack (harness : TestHarness) {channel : UInt8}
    (h : 0x11 ≤ channel ∧ channel ≤ 0x2F) :
    harness.processSentFrame (RegistrationMessage.clientIdAck channel).bytes =
      some { harness with sim.clientId := some channel, sim.registered := true } := by
  rw [processSentFrame, harness.sim.processIncomingBytes_ack h]
  exact if_pos rfl

/-- While the bus is silent, a tick does nothing to the app. -/
theorem registrationTick_silent (f : Floats)
    (h : 0 < harness.sim.errorInjection.busSilenceRemaining) :
    harness.registrationTick f =
      some { harness with sim := harness.sim.startTick.tickSilent } := by
  have hfed : harness.decoder.feedSlice [] = some ([], harness.decoder) := by
    rw [FrameDecoder.feedSlice]
  exact registrationTick_eq (SpaSim.tick_silent f h) hfed rfl

/-! ## Registration -/

/-- The app waits for a query and has no previous channel, its decoder has no part of a frame, and
the simulator has no client, and no part of a frame left over. -/
structure Unregistered (harness : TestHarness) (hash : ClientHash) : Prop where
  waiting : harness.app.registration.state = .waitingForQuery
  previousChannel : harness.app.registration.previousChannel = none
  hash : harness.app.HasHash hash
  decoder : ∃ errors, harness.decoder = ⟨[], false, 0, errors, 512⟩
  safe : harness.sim.Safe
  registered : harness.sim.registered = false
  splitter : harness.sim.frameSplitter = .new
  channel : 0x11 ≤ harness.sim.nextClientId ∧ harness.sim.nextClientId ≤ 0x2F

/-- The app and the simulator have the channel. -/
structure Registered (harness : TestHarness) (channel : UInt8) (hash : ClientHash) : Prop where
  app : harness.app.registration.state = .registered channel
  clientId : harness.app.clientId = some channel
  registered : harness.sim.registered = true
  simClientId : harness.sim.clientId = some channel
  hash : harness.sim.pendingClientHash = some hash

/-- A new harness waits for the query. -/
theorem unregistered_new (now : Timestamp) (hash : ClientHash) :
    (new now hash).Unregistered hash where
  waiting := rfl
  previousChannel := rfl
  hash := ⟨rfl, rfl⟩
  decoder := ⟨0, rfl⟩
  safe := SpaSim.Safe.new.of_eq rfl rfl rfl
  registered := rfl
  splitter := rfl
  channel := ⟨show (0x11 : UInt8) ≤ 0x11 by decide, show (0x11 : UInt8) ≤ 0x2F by decide⟩

/-- An app that waits for the query is not registered. -/
theorem Unregistered.isRegistered (h : harness.Unregistered hash) :
    harness.app.registration.isRegistered = false := by
  rw [RegistrationStateMachine.isRegistered, h.waiting]

/-- A registered app is registered with the spa. -/
theorem Registered.isRegistered {channel : UInt8} (h : harness.Registered channel hash) :
    harness.app.registration.isRegistered = true := by
  rw [RegistrationStateMachine.isRegistered, h.app]

/-- It goes on waiting while the bus is silent. -/
theorem Unregistered.silent (h : harness.Unregistered hash) :
    { harness with sim := harness.sim.startTick.tickSilent }.Unregistered hash where
  waiting := h.waiting
  previousChannel := h.previousChannel
  hash := h.hash
  decoder := h.decoder
  safe := h.safe.startTick.onlySends (.tickSilent _)
  registered := h.registered
  splitter := h.splitter
  channel := h.channel

/-- The tick with the query registers the app. -/
theorem Unregistered.registrationTick (f : Floats) (h : harness.Unregistered hash)
    (hsilence : harness.sim.errorInjection.busSilenceRemaining = 0) :
    ∃ harness', harness.registrationTick f = some harness' ∧
      harness'.Registered harness.sim.nextClientId hash := by
  obtain ⟨errors, hdecoder⟩ := h.decoder
  obtain ⟨sents, sim, htick, hfits, hother, hregistered, hlate, hnext⟩ :=
    SpaSim.tick_unregistered f h.safe h.registered h.splitter hsilence
  obtain ⟨errors', hfed⟩ := Sent.feedSlice_flatMap hfits errors
  obtain ⟨harness', hquery, hassigned⟩ :=
    registrationFrame_query ⟨sim, harness.app, harness.now, ⟨[], false, 0, errors', 512⟩⟩
      h.waiting h.previousChannel h.hash rfl hregistered hlate
  rw [hnext] at hquery hassigned
  set actions : List AppAction :=
    [.sendFrame (RegistrationMessage.clientIdAck harness.sim.nextClientId).bytes] with hactions
  -- The app is registered by then, and the frames behind the query pass it by.
  have hrest : harness'.registrationFrames (sents.flatMap Sent.arrives) = some ([], harness') := by
    apply registrationFrames_registered hassigned.isRegistered
    intro frame hframe
    obtain ⟨sent, hsent, harrives⟩ := List.mem_flatMap.1 hframe
    exact hother sent hsent frame harrives
  have hframes : TestHarness.registrationFrames ⟨sim, harness.app, harness.now,
        ⟨[], false, 0, errors', 512⟩⟩
        ((Sent.frame registrationQuery :: sents).flatMap Sent.arrives) =
      some (actions, harness') := by
    rw [List.flatMap_cons, Sent.arrives, List.singleton_append, registrationFrames, hquery,
      Option.bind_eq_bind, Option.bind_some]
    dsimp only
    rw [hrest]
    rfl
  rw [← hdecoder] at hfed
  refine ⟨{ harness' with sim.clientId := some harness.sim.nextClientId, sim.registered := true },
    ?_, hassigned.app, hassigned.clientId, rfl, rfl, hassigned.hash⟩
  rw [registrationTick_eq htick hfed hframes, hactions, sends_sendFrame, sends_nil,
    List.foldlM_cons, processSentFrame_ack harness' h.channel]
  rfl

/-- Registration takes one tick more than the bus is silent for, and fails where that is too many.
Then the app and the simulator have the channel that was next, and the simulator has the hash of the
app. -/
theorem completeRegistration_eq (f : Floats) (h : harness.Unregistered hash) (maxTicks : ℕ) :
    (maxTicks ≤ harness.sim.errorInjection.busSilenceRemaining →
      harness.completeRegistration f maxTicks = none) ∧
    (harness.sim.errorInjection.busSilenceRemaining < maxTicks →
      ∃ harness', harness.completeRegistration f maxTicks =
          some (harness.sim.errorInjection.busSilenceRemaining + 1, harness') ∧
        harness'.Registered harness.sim.nextClientId hash) := by
  induction maxTicks generalizing harness with
  | zero => exact ⟨fun _ => rfl, fun hlt => absurd hlt (Nat.not_lt_zero _)⟩
  | succ maxTicks ih =>
    rcases Nat.eq_zero_or_pos harness.sim.errorInjection.busSilenceRemaining with
      hsilence | hsilence
    -- The query comes with this tick.
    · obtain ⟨harness', htick, hregistered⟩ := h.registrationTick f hsilence
      rw [hsilence]
      refine ⟨fun hle => absurd hle (Nat.not_succ_le_zero _), fun _ => ⟨harness', ?_, hregistered⟩⟩
      rw [completeRegistration, htick]
      exact if_pos hregistered.isRegistered
    -- There is a tick less of silence before it.
    · obtain ⟨hnone, hsome⟩ := ih h.silent
      set next : TestHarness := { harness with sim := harness.sim.startTick.tickSilent }
      have hless : next.sim.errorInjection.busSilenceRemaining + 1 =
          harness.sim.errorInjection.busSilenceRemaining := Nat.succ_pred_eq_of_pos hsilence
      have hstep : harness.completeRegistration f (maxTicks + 1) =
          (next.completeRegistration f maxTicks).bind fun o => some (o.1 + 1, o.2) := by
        rw [completeRegistration, registrationTick_silent f hsilence]
        exact if_neg (ne_true_of_eq_false h.silent.isRegistered)
      rw [hstep, ← hless]
      constructor
      · intro hle
        rw [hnone (Nat.succ_le_succ_iff.1 hle)]
        rfl
      · intro hlt
        obtain ⟨harness', hcomplete, hregistered⟩ := hsome (Nat.succ_lt_succ_iff.1 hlt)
        exact ⟨harness', by rw [hcomplete]; rfl, hregistered⟩

/-- A new app, on a bus that is not silent. -/
theorem completeRegistration_eq_new : ∃ harness',
    (new 0 (0xF1, 0x73)).completeRegistration ⟨.exact, fun _ => 0⟩ 10 = some (1, harness') ∧
      harness'.Registered 0x11 (0xF1, 0x73) :=
  (completeRegistration_eq ⟨.exact, fun _ => 0⟩ (unregistered_new 0 (0xF1, 0x73)) 10).2
    (show 0 < 10 by decide)

end TestHarness

end Launa.Sim.Simulator
