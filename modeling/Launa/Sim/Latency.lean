import Launa.Lib.DelayLine
import Launa.Sim.Safety

/-!
# When commands take effect

A command that the simulator accepts takes effect a number of ticks later, or at once: the pending
commands are a delay line (`runPending_eq`). In a run in which no filter cycle is scheduled, what
commands control is what the accepted ones make of it, each at the tick that it was due at, whatever
else is sent, injected or set in between (`run_controls`).
-/

namespace Launa.Sim.Simulator

open Protocol

/-! ## What commands control -/

/-- The state after a command, without the water. -/
def DeferredCommand.applyTo (s : SpaState) : DeferredCommand → SpaState
  | .toggle itemCode => s.applyToggleByCode itemCode
  | .setTemp rawTemp scale => s.setTargetTemp (.fromWire rawTemp scale)

/-- The state without what the physics changes: the heater and the clock. -/
def controls (s : SpaState) : SpaState := { s with isHeating := false, hour := 0, minute := 0 }

/-- What a command does is not up to the heater and the clock. -/
theorem controls_applyTo (s : SpaState) (cmd : DeferredCommand) :
    controls (cmd.applyTo s) = cmd.applyTo (controls s) := by
  cases cmd with
  | setTemp rawTemp scale =>
    show controls (s.setTargetTemp _) = (controls s).setTargetTemp _
    have hrange : (controls s).tempRange = s.tempRange := rfl
    unfold SpaState.setTargetTemp
    rw [hrange]
    cases s.tempRange <;> rfl
  | toggle itemCode =>
    show controls (s.applyToggleByCode itemCode) = (controls s).applyToggleByCode itemCode
    have hswitch : controls s.toggleTempRange = (controls s).toggleTempRange := by
      have hrange : (controls s).tempRange = s.tempRange := rfl
      unfold SpaState.toggleTempRange
      rw [hrange]
      cases s.tempRange <;> rfl
    unfold SpaState.applyToggleByCode
    split
    all_goals first | exact hswitch | rfl

/-- What commands control depends on what they controlled before only. -/
theorem controls_foldl_apply (state : WaterState) (cmds : List DeferredCommand) :
    controls (cmds.foldl DeferredCommand.apply state).toSpaState =
      cmds.foldl DeferredCommand.applyTo (controls state.toSpaState) := by
  induction cmds generalizing state with
  | nil => rfl
  | cons cmd cmds ih =>
    have hcmd : (cmd.apply state).toSpaState = cmd.applyTo state.toSpaState := by
      cases cmd <;> rfl
    rw [List.foldl_cons, List.foldl_cons, ih, hcmd, controls_applyTo]

/-- The pending commands are a delay line. -/
theorem runPending_eq (cmds : List (ℕ × DeferredCommand)) (state : WaterState) :
    runPending cmds state = ((DelayLine.tick cmds).2,
      (DelayLine.tick cmds).1.foldl DeferredCommand.apply state) := by
  induction cmds generalizing state with
  | nil => rfl
  | cons cmd cmds ih =>
    obtain ⟨left, cmd⟩ := cmd
    rw [runPending, DelayLine.tick]
    split
    · rw [ih]
      rfl
    · rw [ih]

/-! ## What is accepted -/

namespace SpaSim

/-- The command in a payload. -/
def commandIn (scale : TemperatureScale) : List UInt8 → Option DeferredCommand
  | 0x11 :: itemCode :: _ => some (.toggle itemCode)
  | 0x20 :: rawTemp :: _ => some (.setTemp rawTemp scale)
  | _ => none

/-- The command of a frame, if it is not refused. -/
def commandOf (self : SpaSim) (frame : Frame) : Option DeferredCommand :=
  if frame.messageType = (0x0A, 0xBF) ∧ ¬ (self.requireRegistration ∧ self.registered = false) then
    commandIn self.state.tempScale frame.payload
  else none

/-- What a frame puts in the delay line. -/
def accepted (self : SpaSim) (frame : Frame) : List (DelayLine.Input DeferredCommand) :=
  match self.commandOf frame with
  | some cmd => if self.shouldAcceptCommand.1 then [.put self.commandLatencyTicks cmd] else []
  | none => []

/-- What frames put in the delay line. -/
def acceptedOf (self : SpaSim) : List Frame → List (DelayLine.Input DeferredCommand)
  | [] => []
  | frame :: frames => self.accepted frame ++ (self.processFrame frame).2.acceptedOf frames

/-- What an event is to the delay line. -/
def lineInputs (self : SpaSim) : SimEvent → List (DelayLine.Input DeferredCommand)
  | .set _ => []
  | .tick => [.tick]
  | .incoming bytes =>
    match FrameDecoder.new.feedSlice bytes with
    | some (frames, _) => self.acceptedOf frames
    | none => []

/-- What a run is to the delay line. -/
def runInputs (f : Floats) (self : SpaSim) : List SimEvent →
    List (DelayLine.Input DeferredCommand)
  | [] => []
  | event :: events =>
    self.lineInputs event ++ match self.step f event with
      | some o => o.2.runInputs f events
      | none => []

/-! ## One step -/

/-- What a step does to the pending commands, and to what commands control. -/
structure Follows (inputs : List (DelayLine.Input DeferredCommand)) (sim sim' : SpaSim) :
    Prop where
  line : sim'.pendingCommands = (Mealy.run DelayLine.step sim.pendingCommands inputs).2
  controls : controls sim'.state.toSpaState =
    (Mealy.run DelayLine.step sim.pendingCommands inputs).1.foldl DeferredCommand.applyTo
      (Simulator.controls sim.state.toSpaState)
  idle : sim.pendingEvents = [] → sim'.pendingEvents = []

variable {self sim sim' sim'' : SpaSim} {inputs inputs' : List (DelayLine.Input DeferredCommand)}

/-- What two steps do is done one after the other. -/
theorem Follows.trans (h : Follows inputs sim sim') (h' : Follows inputs' sim' sim'') :
    Follows (inputs ++ inputs') sim sim'' where
  line := by rw [Mealy.run_append, h'.line, h.line]
  controls := by rw [Mealy.run_append, List.foldl_append, h'.controls, h.controls, h.line]
  idle hidle := h'.idle (h.idle hidle)

/-- A step that does something else. -/
theorem Follows.other (hline : sim'.pendingCommands = sim.pendingCommands)
    (hcontrols : Simulator.controls sim'.state.toSpaState = Simulator.controls sim.state.toSpaState)
    (hevents : sim'.pendingEvents = sim.pendingEvents) : Follows [] sim sim' :=
  ⟨hline, hcontrols, hevents.trans⟩

/-- A command that is accepted is put in line. -/
theorem follows_accept (self : SpaSim) (cmd : DeferredCommand) :
    Follows (if self.shouldAcceptCommand.1 then [.put self.commandLatencyTicks cmd] else []) self
      (self.accept cmd) := by
  unfold accept
  dsimp only
  split
  · have hlatency : self.shouldAcceptCommand.2.commandLatencyTicks = self.commandLatencyTicks := rfl
    rw [hlatency]
    split
    · next hnow =>
      -- Without latency the command does not enter the line.
      have hrun : Mealy.run DelayLine.step self.pendingCommands
          [.put self.commandLatencyTicks cmd] = ([cmd], self.pendingCommands) := by
        rw [hnow]
        rfl
      refine ⟨?_, ?_, id⟩
      · rw [hrun]
        rfl
      · rw [hrun]
        exact controls_foldl_apply self.state [cmd]
    · next hlater =>
      have hrun : Mealy.run DelayLine.step self.pendingCommands
          [.put self.commandLatencyTicks cmd] =
            ([], self.pendingCommands ++ [(self.commandLatencyTicks, cmd)]) := by
        rw [Mealy.run_cons, DelayLine.step, if_neg hlater]
        rfl
      refine ⟨?_, ?_, id⟩
      · rw [hrun]
        rfl
      · rw [hrun]
        rfl
  · exact .other rfl rfl rfl

/-- The commands in a payload are the ones that are processed. -/
theorem processCommand_snd (self : SpaSim) (payload : List UInt8) :
    (self.processCommand payload).2 =
      (commandIn self.state.tempScale payload).elim self self.accept := by
  unfold processCommand
  split
  · rfl
  · rfl
  · rfl
  · rfl
  · rfl
  · rfl
  · next htoggle hset _ _ _ =>
    unfold commandIn
    split
    · exact absurd rfl (htoggle _ _)
    · exact absurd rfl (hset _ _)
    · rfl

/-- A registration leaves the line alone. -/
theorem follows_processRegistration (self : SpaSim) (payload : List UInt8) :
    Follows [] self (self.processRegistration payload).2 := by
  have hallocate (hash : UInt8 × UInt8) :
      ∃ id, (self.allocateChannel hash).2 = { self with nextClientId := id } := by
    unfold allocateChannel
    split
    · split
      · exact ⟨self.nextClientId, rfl⟩
      · exact ⟨_, rfl⟩
    · exact ⟨_, rfl⟩
  unfold processRegistration
  split
  · dsimp only
    split
    · exact .other rfl rfl rfl
    · obtain ⟨id, hid⟩ := hallocate (hashOf (1 :: _))
      rw [hid]
      exact .other rfl rfl rfl
  · exact .other rfl rfl rfl
  · exact .other rfl rfl rfl

/-- A frame puts in line what is accepted of it. -/
theorem follows_processFrame (self : SpaSim) (frame : Frame) :
    Follows (self.accepted frame) self (self.processFrame frame).2 := by
  have hnone (h : self.commandOf frame = none) : self.accepted frame = [] := by
    rw [accepted, h]
  unfold processFrame
  split_ifs with hcommand hempty hrefused hregistration hack
  · have hpayload : commandIn self.state.tempScale frame.payload = none := by
      rw [hempty]
      rfl
    rw [hnone (by rw [commandOf, hpayload, ite_self])]
    exact .other rfl rfl rfl
  · rw [hnone (if_neg fun h => h.2 hrefused)]
    exact .other rfl rfl rfl
  · rw [processCommand_snd, accepted, commandOf, if_pos ⟨hcommand, hrefused⟩]
    cases commandIn self.state.tempScale frame.payload with
    | some cmd => exact follows_accept self cmd
    | none => exact .other rfl rfl rfl
  · rw [hnone (if_neg fun h => hcommand h.1)]
    exact follows_processRegistration self _
  · rw [hnone (if_neg fun h => hcommand h.1)]
    exact .other rfl rfl rfl
  · rw [hnone (if_neg fun h => hcommand h.1)]
    exact .other rfl rfl rfl

/-- Frames put in line what is accepted of them. -/
theorem follows_processFrames (frames : List Frame) :
    Follows (self.acceptedOf frames) self (self.processFrames frames).2 := by
  induction frames generalizing self with
  | nil => exact .other rfl rfl rfl
  | cons frame frames ih => exact (follows_processFrame self frame).trans ih

/-- The beginning of a tick lets the line advance. -/
theorem follows_startTick (self : SpaSim) : Follows [.tick] self self.startTick := by
  have hrun : Mealy.run DelayLine.step self.pendingCommands [.tick] =
      DelayLine.tick self.pendingCommands := by
    rw [Mealy.run_cons, Mealy.run_nil, List.append_nil]
    rfl
  have hstart : (self.startTick.pendingCommands, self.startTick.state) =
      runPending self.pendingCommands self.state := rfl
  rw [runPending_eq] at hstart
  obtain ⟨hline, hstate⟩ := Prod.mk.inj hstart
  refine ⟨?_, ?_, id⟩
  · rw [hrun, hline]
  · rw [hrun, hstate, controls_foldl_apply]

/-- What is sent has no part in it. -/
theorem follows_onlySends (h : OnlySends sim sim') : Follows [] sim sim' := by
  obtain ⟨_, _, _, _, _, _, _, rfl⟩ := h
  exact .other rfl rfl rfl

/-- Nor have the water, the heater and the clock, where no filter cycle is scheduled. -/
theorem follows_simulatePhysics (f : Floats) (h : self.pendingEvents = []) :
    Follows [] self (self.queryClients.2.processPendingEvents.simulatePhysics f) := by
  have hquery : Follows [] self self.queryClients.2 := by
    unfold queryClients
    split
    · exact .other rfl rfl rfl
    · exact .other rfl rfl rfl
  have hidle := hquery.idle h
  generalize self.queryClients.2 = s at hquery hidle ⊢
  have hnothing : s.processPendingEvents = s := by
    have hevents : runEvents s.tickCount s.pendingEvents s.state = ([], s.state) := by
      rw [hidle]
      rfl
    unfold processPendingEvents
    rw [hevents, ← hidle]
  have hclock : controls s.state.advanceClock = controls s.state.toSpaState := by
    unfold SpaState.advanceClock
    dsimp only
    split <;> rfl
  rw [hnothing]
  exact hquery.trans (.other rfl hclock rfl)

/-- A tick lets the line advance. -/
theorem follows_tick {f : Floats} (h : self.pendingEvents = []) {o : List UInt8 × SpaSim}
    (ho : self.tick f = some o) : Follows [.tick] self o.2 := by
  have hstart := follows_startTick self
  unfold tick at ho
  dsimp only at ho
  split at ho
  · rw [← Option.some.inj ho]
    exact hstart.trans (follows_onlySends (.tickSilent _))
  split at ho
  · exact hstart.trans (follows_onlySends (.tickRemainder ho))
  · have hwater := follows_simulatePhysics f (hstart.idle h)
    exact hstart.trans (hwater.trans (follows_onlySends (.tickFrames ho)))

/-- A step does to the pending commands what its inputs do to the delay line. -/
theorem follows_step {f : Floats} {event : SimEvent} (h : self.pendingEvents = [])
    (hevent : ∀ atTick pumpIndex, event ≠ .set (.event atTick pumpIndex))
    {o : List UInt8 × SpaSim} (ho : self.step f event = some o) :
    Follows (self.lineInputs event) self o.2 := by
  cases event with
  | tick => exact follows_tick h ho
  | set setting =>
    rw [← Option.some.inj ho]
    cases setting with
    | event atTick pumpIndex => exact absurd rfl (hevent atTick pumpIndex)
    | _ => exact .other rfl rfl rfl
  | incoming bytes =>
    rw [← Option.some.inj ho]
    show Follows (self.lineInputs (.incoming bytes)) self (self.respond bytes).2
    cases hfed : FrameDecoder.new.feedSlice bytes with
    | some fed =>
      rw [lineInputs, respond, hfed]
      exact follows_processFrames fed.1
    | none =>
      rw [lineInputs, respond, hfed]
      exact .other rfl rfl rfl

/-! ## Runs -/

/-- A run puts in line what is accepted, and its ticks let the line advance. -/
theorem follows_run {f : Floats} {events : List SimEvent} (h : self.pendingEvents = [])
    (hevents : ∀ event ∈ events, ∀ atTick pumpIndex, event ≠ .set (.event atTick pumpIndex))
    {o : List UInt8 × SpaSim} (ho : Mealy.tryRun (step f) self events = some o) :
    Follows (self.runInputs f events) self o.2 := by
  induction events generalizing self o with
  | nil =>
    rw [← Option.some.inj ho]
    exact .other rfl rfl rfl
  | cons event events ih =>
    rw [List.forall_mem_cons] at hevents
    obtain ⟨o1, ho1, hrest⟩ := Option.bind_eq_some_iff.1 ho
    obtain ⟨o2, ho2, rfl⟩ := Option.map_eq_some_iff.1 hrest
    have hfirst := follows_step h hevents.1 ho1
    have hlast := ih (hfirst.idle h) hevents.2 ho2
    rw [runInputs, ho1]
    exact hfirst.trans hlast

/-- In every run in which no filter cycle is scheduled, what commands control is what the accepted
ones that are due make of it, in the order of the ticks that they are due at and of their arrival,
and the others are pending. -/
theorem run_controls {f : Floats} {events : List SimEvent} (hcommands : self.pendingCommands = [])
    (hidle : self.pendingEvents = [])
    (hevents : ∀ event ∈ events, ∀ atTick pumpIndex, event ≠ .set (.event atTick pumpIndex))
    {o : List UInt8 × SpaSim} (ho : Mealy.tryRun (step f) self events = some o) :
    controls o.2.state.toSpaState =
      (DelayLine.dueUntil (DelayLine.dues 0 (self.runInputs f events))
        (DelayLine.now (self.runInputs f events))).foldl DeferredCommand.applyTo
          (controls self.state.toSpaState) ∧
    o.2.pendingCommands = DelayLine.dueAfter (DelayLine.dues 0 (self.runInputs f events))
      (DelayLine.now (self.runInputs f events)) := by
  have hfollows := follows_run hidle hevents ho
  have hrun := DelayLine.run_eq (self.runInputs f events)
  rw [← hcommands] at hrun
  refine ⟨?_, ?_⟩
  · rw [hfollows.controls, hrun]
  · rw [hfollows.line, hrun]

/-- The blower is toggled with a latency of two ticks. -/
def toggleBlower : List SimEvent :=
  [.set (.commandLatencyTicks 2), .incoming (encodeCommand (.toggleItem .blower)), .tick, .tick]

/-- The blower that is toggled is on once its tick has come. -/
theorem run_controls_blower : ∃ o,
    Mealy.tryRun (step ⟨.exact, fun _ => 0⟩) new toggleBlower = some o ∧
    controls o.2.state.toSpaState =
      (DelayLine.dueUntil (DelayLine.dues 0 (new.runInputs ⟨.exact, fun _ => 0⟩ toggleBlower))
        (DelayLine.now (new.runInputs ⟨.exact, fun _ => 0⟩ toggleBlower))).foldl
          DeferredCommand.applyTo (controls new.state.toSpaState) := by
  have hsafe : ∀ event ∈ toggleBlower, event.Safe := by
    rw [toggleBlower, List.forall_mem_cons, List.forall_mem_cons, List.forall_mem_cons,
      List.forall_mem_singleton]
    exact ⟨trivial, SimEvent.safe_encodeCommand _, trivial, trivial⟩
  obtain ⟨o, ho, -⟩ := Safe.new.tryRun ⟨.exact, fun _ => 0⟩ hsafe
  refine ⟨o, ho, (run_controls rfl rfl ?_ ho).1⟩
  intro event hevent atTick pumpIndex
  simp only [toggleBlower, List.mem_cons, List.not_mem_nil, or_false] at hevent
  rcases hevent with rfl | rfl | rfl | rfl <;> exact fun h => by cases h

end SpaSim

end Launa.Sim.Simulator
