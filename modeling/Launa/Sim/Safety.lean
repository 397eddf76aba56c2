import Launa.Protocol.CommandFrames
import Launa.Sim.Simulator
import Launa.Sim.StatusFrames

/-!
# When the simulator does not panic

A tick panics on a set temperature whose byte would be 0xFF, and on an interval of Ready frames that
is empty. A set temperature gets that byte from the bus alone: it is never sent by the firmware. So
the simulator does not panic in any run in which it hears the firmware (`run_eq_some`), whatever is
injected and whenever it is, unless the interval is set to one from zero to zero.
-/

namespace Launa.Sim.Simulator

open Protocol

/-! ## What is safe -/

/-- The temperature fits in a byte. -/
def FitsByte (t : Temperature) : Prop := t.toWire.toOption.isSome

/-- The set temperatures fit in a byte, that of either range. -/
structure SafeState (s : SpaState) : Prop where
  setTemp : FitsByte s.setTemp
  setTempHigh : FitsByte s.setTempHigh
  setTempLow : FitsByte s.setTempLow

/-- The command does not set the temperature that stands for none. -/
def DeferredCommand.Safe : DeferredCommand → Prop
  | .toggle _ => True
  | .setTemp rawTemp _ => rawTemp ≠ 0xFF

/-- What no tick of the simulator panics on. -/
structure SpaSim.Safe (sim : SpaSim) : Prop where
  state : SafeState sim.state.toSpaState
  pending : ∀ cmd ∈ sim.pendingCommands, cmd.2.Safe
  interval : sim.readyIntervalRange.1 ≤ sim.readyIntervalRange.2

/-- The frame does not set the temperature that stands for none. -/
def SafeFrame (frame : Frame) : Prop :=
  frame.messageType = (0x0A, 0xBF) → ∀ rest, frame.payload ≠ 0x20 :: 0xFF :: rest

/-- The frames are safe, and so is the interval that is set. -/
def SpaSim.SimEvent.Safe : SimEvent → Prop
  | .set (.readyIntervalRange min max) => min ≠ 0 ∨ max ≠ 0
  | .incoming bytes =>
    ∀ frames d, FrameDecoder.new.feedSlice bytes = some (frames, d) → ∀ frame ∈ frames,
      SafeFrame frame
  | _ => True

/-! ## The state of the spa -/

variable {s : SpaState}

/-- A temperature of a byte fits one, unless the byte stands for none. -/
theorem fitsByte_fromWire {raw : UInt8} (h : raw ≠ 0xFF) (scale : TemperatureScale) :
    FitsByte (.fromWire raw scale) := by
  rw [FitsByte, toWire_fromWire, if_neg h]
  rfl

/-- A set temperature of the bus is kept for the range. -/
theorem SafeState.setTargetTemp (h : SafeState s) {temp : Temperature} (ht : FitsByte temp) :
    SafeState (s.setTargetTemp temp) := by
  unfold SpaState.setTargetTemp
  split
  · exact ⟨ht, ht, h.setTempLow⟩
  · exact ⟨ht, h.setTempHigh, ht⟩

/-- A toggle leaves the set temperatures as they are, or exchanges them. -/
theorem SafeState.applyToggleByCode (h : SafeState s) (itemCode : UInt8) :
    SafeState (s.applyToggleByCode itemCode) := by
  have hrange : SafeState s.toggleTempRange := by
    unfold SpaState.toggleTempRange
    split
    · exact ⟨h.setTempLow, h.setTemp, h.setTempLow⟩
    · exact ⟨h.setTempHigh, h.setTempHigh, h.setTemp⟩
  unfold SpaState.applyToggleByCode
  split
  all_goals first | exact hrange | exact ⟨h.setTemp, h.setTempHigh, h.setTempLow⟩

/-- A safe command keeps the state safe. -/
theorem SafeState.apply {state : WaterState} (h : SafeState state.toSpaState)
    {cmd : DeferredCommand} (hcmd : cmd.Safe) : SafeState (cmd.apply state).toSpaState := by
  cases cmd with
  | toggle itemCode => exact h.applyToggleByCode itemCode
  | setTemp rawTemp scale => exact h.setTargetTemp (fitsByte_fromWire hcmd scale)

/-- Commands that are due keep the state safe, and those that are left are safe. -/
theorem SafeState.runPending {cmds : List (ℕ × DeferredCommand)} {state : WaterState}
    (h : SafeState state.toSpaState) (hcmds : ∀ cmd ∈ cmds, cmd.2.Safe) :
    (∀ cmd ∈ (runPending cmds state).1, cmd.2.Safe) ∧
      SafeState (runPending cmds state).2.toSpaState := by
  induction cmds generalizing state with
  | nil => exact ⟨hcmds, h⟩
  | cons cmd cmds ih =>
    obtain ⟨ticks, cmd⟩ := cmd
    rw [List.forall_mem_cons] at hcmds
    rw [Simulator.runPending]
    split
    · exact ih (h.apply hcmds.1) hcmds.2
    · obtain ⟨hrest, hstate⟩ := ih h hcmds.2
      exact ⟨List.forall_mem_cons.2 ⟨hcmds.1, hrest⟩, hstate⟩

/-- Events keep the state safe. -/
theorem SafeState.runEvents {tickCount : ℕ} {events : List SpaEvent} {state : WaterState}
    (h : SafeState state.toSpaState) :
    SafeState (runEvents tickCount events state).2.toSpaState := by
  induction events generalizing state with
  | nil => exact h
  | cons event events ih =>
    rw [Simulator.runEvents]
    dsimp only
    split
    · apply ih
      split <;> exact ⟨h.setTemp, h.setTempHigh, h.setTempLow⟩
    · exact ih h

/-- The physics keep the state safe. -/
theorem SafeState.simulatePhysics {r : Rounding} {state : WaterState} {ctx : PhysicsContext}
    (h : SafeState state.toSpaState) :
    SafeState (Sim.simulatePhysics r state ctx).1.toSpaState := by
  have hclock : SafeState state.advanceClock := by
    unfold SpaState.advanceClock
    dsimp only
    split <;> exact ⟨h.setTemp, h.setTempHigh, h.setTempLow⟩
  exact ⟨hclock.setTemp, hclock.setTempHigh, hclock.setTempLow⟩

/-! ## One step -/

namespace SpaSim.Safe

variable {self : SpaSim}

/-- The beginning of a tick keeps the simulator safe. -/
theorem startTick (h : self.Safe) : self.startTick.Safe := by
  obtain ⟨hrest, hstate⟩ := h.state.runPending h.pending
  exact ⟨hstate, hrest, h.interval⟩

/-- A simulator that differs in other things is as safe. -/
theorem of_eq {s : SpaSim} (h : self.Safe) (hstate : s.state = self.state)
    (hpending : s.pendingCommands = self.pendingCommands)
    (hinterval : s.readyIntervalRange = self.readyIntervalRange) : s.Safe :=
  ⟨by rw [hstate]; exact h.state, by rw [hpending]; exact h.pending,
    by rw [hinterval]; exact h.interval⟩

/-- Nor is a simulator less safe for what it has sent. -/
theorem onlySends {s : SpaSim} (h : self.Safe) (hsends : OnlySends self s) : s.Safe := by
  obtain ⟨_, _, _, _, _, _, _, rfl⟩ := hsends
  exact h.of_eq rfl rfl rfl

/-- A safe simulator has a next interval. -/
theorem nextReadyInterval (h : self.Safe) : ∃ next, self.nextReadyInterval = some next := by
  unfold SpaSim.nextReadyInterval
  dsimp only
  rw [if_neg (not_lt.2 h.interval)]
  split <;> exact ⟨_, rfl⟩

/-- A safe simulator does not panic when it emits Ready. -/
theorem maybeEmitReady (h : self.Safe) : ∃ o, self.maybeEmitReady = some o := by
  unfold SpaSim.maybeEmitReady
  dsimp only
  split
  · have hless : { self with readyCountdown := self.readyCountdown - 1 }.Safe :=
      h.of_eq rfl rfl rfl
    obtain ⟨next, hnext⟩ := hless.nextReadyInterval
    rw [hnext]
    exact ⟨_, rfl⟩
  · exact ⟨_, rfl⟩

/-- A safe simulator does not panic when it emits a status. -/
theorem emitStatus (h : self.Safe) (statusBytes : List UInt8) :
    ∃ o, self.emitStatus statusBytes = some o := by
  have hready {s : SpaSim} (hs : s.Safe) (bytes : List UInt8) :
      ∃ o, (s.maybeEmitReady.map fun o => (bytes ++ o.1, o.2)) = some o := by
    obtain ⟨o, ho⟩ := hs.maybeEmitReady
    rw [ho]
    exact ⟨_, rfl⟩
  unfold SpaSim.emitStatus
  split
  · dsimp only
    split_ifs
    · exact ⟨_, rfl⟩
    · apply hready
      exact h.of_eq rfl rfl rfl
    · exact ⟨_, rfl⟩
  · split
    · apply hready
      exact h.of_eq rfl rfl rfl
    · exact hready h _

/-- A safe simulator does not panic when it encodes its status. -/
theorem generateStatusFrame (f : Floats) (h : self.Safe) :
    ∃ o, self.generateStatusFrame f = some o := by
  obtain ⟨noise, hphysics⟩ := physicsNoise_snd f self
  obtain ⟨rng, hsensor⟩ := sensorNoise_snd f (self.physicsNoise f).2
  have hdrawn : ((self.physicsNoise f).2.sensorNoise f).2.Safe := by
    rw [hsensor, hphysics]
    exact h.of_eq rfl rfl rfl
  obtain ⟨setTemp, hset⟩ := Option.isSome_iff_exists.1 hdrawn.state.setTemp
  unfold SpaSim.generateStatusFrame
  dsimp only
  rw [SpaState.generateStatusFrame, hset]
  exact ⟨_, rfl⟩

/-- A tick that sends the rest of a frame does not panic and keeps the simulator safe. -/
theorem tickRemainder (h : self.Safe) (remainder : List UInt8) :
    ∃ o, self.tickRemainder remainder = some o ∧ o.2.Safe := by
  have hsent : { self with frameSplitter.remainder := none }.Safe := h.of_eq rfl rfl rfl
  obtain ⟨next, hnext⟩ := hsent.nextReadyInterval
  have hsome : ∃ o, self.tickRemainder remainder = some o := by
    unfold SpaSim.tickRemainder
    dsimp only
    rw [hnext]
    exact ⟨_, rfl⟩
  obtain ⟨o, ho⟩ := hsome
  exact ⟨o, ho, h.onlySends (.tickRemainder ho)⟩

/-- A tick that sends frames does not panic and keeps the simulator safe. -/
theorem tickFrames (f : Floats) (h : self.Safe) :
    ∃ o, self.tickFrames f = some o ∧ o.2.Safe := by
  have hquery : self.queryClients.2.Safe := by
    unfold queryClients
    split
    · exact h
    · exact h.of_eq rfl rfl rfl
  have hphysics : (self.queryClients.2.processPendingEvents.simulatePhysics f).Safe :=
    ⟨hquery.state.runEvents.simulatePhysics, hquery.pending, hquery.interval⟩
  have hpadding := hphysics.onlySends (.jitterPaddingLen _)
  obtain ⟨status, hstatus⟩ := hpadding.generateStatusFrame f
  have hframe := (hpadding.onlySends (.generateStatusFrame hstatus)).onlySends (.tickCountdowns _)
  obtain ⟨sent, hsent⟩ := hframe.emitStatus status.1
  have hsome : ∃ o, self.tickFrames f = some o := by
    unfold SpaSim.tickFrames
    dsimp only
    rw [hstatus, Option.bind_eq_bind, Option.bind_some, hsent]
    exact ⟨_, rfl⟩
  obtain ⟨o, ho⟩ := hsome
  exact ⟨o, ho, hphysics.onlySends (.tickFrames ho)⟩

/-- A tick does not panic and keeps the simulator safe. -/
theorem tick (f : Floats) (h : self.Safe) : ∃ o, self.tick f = some o ∧ o.2.Safe := by
  have hstart := h.startTick
  unfold SpaSim.tick
  dsimp only
  split
  · exact ⟨_, rfl, hstart.onlySends (.tickSilent _)⟩
  split
  · exact hstart.tickRemainder _
  · exact hstart.tickFrames f

/-- A safe command that is accepted keeps the simulator safe. -/
theorem accept (h : self.Safe) {cmd : DeferredCommand} (hcmd : cmd.Safe) :
    (self.accept cmd).Safe := by
  have hdrawn : self.shouldAcceptCommand.2.Safe := h.of_eq rfl rfl rfl
  unfold SpaSim.accept
  dsimp only
  split_ifs
  · exact ⟨hdrawn.state.apply hcmd, hdrawn.pending, hdrawn.interval⟩
  · refine ⟨hdrawn.state, ?_, hdrawn.interval⟩
    exact List.forall_mem_append.2 ⟨hdrawn.pending, List.forall_mem_singleton.2 hcmd⟩
  · exact hdrawn

/-- A safe payload keeps the simulator safe. -/
theorem processCommand (h : self.Safe) {payload : List UInt8}
    (hpayload : ∀ rest, payload ≠ 0x20 :: 0xFF :: rest) :
    (self.processCommand payload).2.Safe := by
  unfold SpaSim.processCommand
  split
  · exact h
  · exact h.accept trivial
  · refine h.accept fun hraw => ?_
    exact hpayload _ (by rw [hraw])
  all_goals exact h

/-- A registration keeps the simulator safe. -/
theorem processRegistration (h : self.Safe) (payload : List UInt8) :
    (self.processRegistration payload).2.Safe := by
  have hallocate (hash : UInt8 × UInt8) : (self.allocateChannel hash).2.Safe := by
    unfold allocateChannel
    split
    · split
      · exact h
      · exact h.of_eq rfl rfl rfl
    · exact h.of_eq rfl rfl rfl
  unfold SpaSim.processRegistration
  split
  · dsimp only
    split
    · exact h.of_eq rfl rfl rfl
    · exact (hallocate _).of_eq rfl rfl rfl
  · exact h.of_eq rfl rfl rfl
  · exact h

/-- A safe frame keeps the simulator safe. -/
theorem processFrame (h : self.Safe) {frame : Frame} (hframe : SafeFrame frame) :
    (self.processFrame frame).2.Safe := by
  unfold SpaSim.processFrame
  split_ifs with hcommand
  · exact h
  · exact h.of_eq rfl rfl rfl
  · exact h.processCommand (hframe hcommand)
  · exact h.processRegistration _
  · exact h.of_eq rfl rfl rfl
  · exact h

/-- Safe frames keep the simulator safe. -/
theorem processFrames (h : self.Safe) {frames : List Frame}
    (hframes : ∀ frame ∈ frames, SafeFrame frame) : (self.processFrames frames).2.Safe := by
  induction frames generalizing self with
  | nil => exact h
  | cons frame frames ih =>
    rw [List.forall_mem_cons] at hframes
    exact ih (h.processFrame hframes.1) hframes.2

/-- No step from a safe state fails, and none leads out of these states. -/
theorem step (f : Floats) (h : self.Safe) {event : SimEvent} (hevent : event.Safe) :
    ∃ o, self.step f event = some o ∧ o.2.Safe := by
  cases event with
  | tick => exact h.tick f
  | set setting =>
    refine ⟨_, rfl, ?_⟩
    cases setting with
    | readyIntervalRange least most =>
      refine ⟨h.state, h.pending, ?_⟩
      have hrange : least ≠ 0 ∨ most ≠ 0 := hevent
      show max least 1 ≤ max most least
      omega
    | _ => exact h.of_eq rfl rfl rfl
  | incoming bytes =>
    refine ⟨_, rfl, ?_⟩
    show (self.respond bytes).2.Safe
    unfold respond
    split
    · next frames d hfed => exact h.processFrames (hevent frames d hfed)
    · exact h

/-- No run over safe events fails. -/
theorem tryRun (f : Floats) {sim : SpaSim} (h : sim.Safe) {events : List SimEvent}
    (hevents : ∀ event ∈ events, event.Safe) :
    ∃ o, Mealy.tryRun (SpaSim.step f) sim events = some o ∧ o.2.Safe := by
  induction events generalizing sim with
  | nil => exact ⟨_, rfl, h⟩
  | cons event events ih =>
    rw [List.forall_mem_cons] at hevents
    obtain ⟨o, ho, hnext⟩ := h.step f hevents.1
    obtain ⟨o', ho', hlast⟩ := ih hnext hevents.2
    rw [Mealy.tryRun, ho, Option.bind_some, ho']
    exact ⟨_, rfl, hlast⟩

/-- A new simulator is safe. -/
theorem new : SpaSim.new.Safe := by
  have hhigh : Temperature.fromWire 80 .celsius = ⟨40, .celsius⟩ := by
    show Temperature.mk ((80 : ℕ) / 2) .celsius = _
    norm_num
  have hlow : Temperature.fromWire 52 .celsius = ⟨26, .celsius⟩ := by
    show Temperature.mk ((52 : ℕ) / 2) .celsius = _
    norm_num
  have hfits : FitsByte ⟨40, .celsius⟩ := by
    rw [← hhigh]
    exact fitsByte_fromWire (by decide) _
  have hfits' : FitsByte ⟨26, .celsius⟩ := by
    rw [← hlow]
    exact fitsByte_fromWire (by decide) _
  exact ⟨⟨hfits, hfits, hfits'⟩, fun cmd hcmd => absurd hcmd List.not_mem_nil, le_rfl⟩

end SpaSim.Safe

/-! ## What the firmware sends -/

namespace SpaSim.SimEvent

/-- The bytes of a frame are safe if the frame is. -/
theorem safe_frame {frame : Frame} {bytes : List UInt8} (hbytes : frame.encode = .ok bytes)
    (hne : frame.payload.length ≠ 122) (h : SafeFrame frame) :
    (SimEvent.incoming bytes).Safe := by
  intro frames d hfed
  rw [feedSlice_encode hbytes hne] at hfed
  obtain ⟨rfl, -⟩ := Prod.mk.inj (Option.some.inj hfed)
  exact List.forall_mem_singleton.2 h

/-- A command sets no temperature beyond the absolute limit. -/
theorem safe_encodeCommand (cmd : Command) : (SimEvent.incoming (encodeCommand cmd)).Safe := by
  cases hencode : cmd.encode with
  | error e =>
    intro frames d hfed
    rw [encodeCommand_eq_nil hencode, FrameDecoder.feedSlice] at hfed
    obtain ⟨rfl, -⟩ := Prod.mk.inj (Option.some.inj hfed)
    exact fun frame hframe => absurd hframe List.not_mem_nil
  | ok parts =>
    obtain ⟨msgType, payload⟩ := parts
    have hlen := Command.length_payload_le hencode
    refine safe_frame (encode_encodeCommand hencode) (show payload.length ≠ 122 by omega) ?_
    rintro - rest hpayload
    have hpayload : payload = 0x20 :: 0xFF :: rest := hpayload
    obtain ⟨temp, rfl⟩ := (Command.opcode hencode (by rw [hpayload]; rfl)).2 rfl
    rw [Command.encode] at hencode
    split at hencode
    · cases hencode
    · next hlimit =>
      -- The byte of the temperature would be beyond the limit.
      obtain ⟨-, rfl⟩ := Prod.mk.inj (Except.ok.inj hencode)
      obtain ⟨rfl, -⟩ := List.cons.inj (List.cons.inj hpayload).2
      exact hlimit (by decide)

/-- A registration message is safe. -/
theorem safe_registration (msg : RegistrationMessage) : (SimEvent.incoming msg.bytes).Safe := by
  have hlen := msg.encodeParts_length
  refine safe_frame msg.encode_ok (show msg.encodeParts.2.length ≠ 122 by omega) ?_
  rintro - rest hpayload
  obtain ⟨b, hhead, hle, -⟩ := msg.frame_head
  have hb : some (0x20 : UInt8) = some b := by
    rw [← hhead]
    exact congrArg List.head? hpayload.symm
  rw [← Option.some.inj hb] at hle
  exact absurd hle (by decide)

end SpaSim.SimEvent

/-- A simulator that hears safe frames does not panic in any run, and what the firmware encodes are
safe frames. -/
theorem SpaSim.run_eq_some (f : Floats) :
    (∀ sim : SpaSim, sim.Safe → ∀ events : List SimEvent, (∀ event ∈ events, event.Safe) →
      ∃ o, Mealy.tryRun (SpaSim.step f) sim events = some o ∧ o.2.Safe) ∧
    (∀ cmd, (SimEvent.incoming (encodeCommand cmd)).Safe) ∧
    ∀ msg : RegistrationMessage, (SimEvent.incoming msg.bytes).Safe := by
  refine ⟨fun sim hsim events hevents => ?_, SimEvent.safe_encodeCommand,
    SimEvent.safe_registration⟩
  exact hsim.tryRun f hevents

/-- A set temperature, in a run with a frame that is split. -/
theorem SpaSim.run_eq_some_split : ∃ o,
    Mealy.tryRun (SpaSim.step ⟨.exact, fun _ => 0⟩) .new
      [.set (.partialFrameAt 5), .tick, .incoming (encodeCommand (.setTemperature 78)), .tick] =
        some o ∧ o.2.Safe := by
  have hsafe := SpaSim.run_eq_some ⟨.exact, fun _ => 0⟩
  refine hsafe.1 .new .new _ ?_
  rw [List.forall_mem_cons, List.forall_mem_cons, List.forall_mem_cons, List.forall_mem_singleton]
  exact ⟨trivial, trivial, hsafe.2.1 _, trivial⟩

end Launa.Sim.Simulator
