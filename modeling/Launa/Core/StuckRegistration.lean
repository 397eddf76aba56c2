import Launa.Core.CommandEffects
import Launa.Lib.Run

/-!
# A registration without grants

`tick` gives a registration up when the grants have stopped for five seconds, or the statuses for
thirty. Neither is noticed while the latch is set that the spa was lost, which only a status clears;
nor when the app has never taken a grant, or takes those of another channel for its own, while the
statuses go on. `run_unregisters_iff` says exactly when a tick gives up a registration that has had
no grant of its own for thirty seconds.
-/

namespace Launa.Core

open Protocol Run

namespace SpaApp

variable (self : SpaApp) (now : Timestamp)

/-- The channel that a call grants. -/
def readyChannel : AppCall → Option UInt8
  | .processFrame frame =>
    match dispatchFrame frame with
    | .ready channel => some channel
    | _ => none
  | _ => none

/-- The grant that the app takes for its own. -/
def takenGrant (c : AppCall) : Option UInt8 :=
  (readyChannel c).filter fun channel =>
    self.registration.isRegistered && self.clientId.all (· = channel)

/-- The registration state machine waits for a query, and there is no client ID. -/
def Unregistered : Prop := self.registration.state = .waitingForQuery ∧ self.clientId = none

instance : Decidable self.Unregistered :=
  inferInstanceAs (Decidable (self.registration.state = .waitingForQuery ∧ self.clientId = none))

/-- The registration is given up, and with it the time of the last grant. -/
structure GivenUp (app app' : SpaApp) : Prop where
  unregistered : app'.Unregistered
  status : app'.lastStatusTime = app.lastStatusTime
  cts : app'.lastCtsTime = none

/-- What a call does to the times of the last status and the last grant and to the latch. -/
inductive ClockEffect (c : AppCall) (app' : SpaApp) : Prop where
  | kept (heard : self.heardStatus c = none) (grant : self.takenGrant c = none)
      (stale : app'.wasStale = self.wasStale) (status : app'.lastStatusTime = self.lastStatusTime)
      (cts : app'.lastCtsTime = self.lastCtsTime)
  | heard (heard : self.heardStatus c ≠ none) (grant : self.takenGrant c = none)
      (stale : app'.wasStale = false) (status : app'.lastStatusTime = some now)
      (cts : app'.lastCtsTime = self.lastCtsTime)
  | granted (heard : self.heardStatus c = none) (grant : self.takenGrant c ≠ none)
      (stale : app'.wasStale = self.wasStale) (status : app'.lastStatusTime = self.lastStatusTime)
      (cts : app'.lastCtsTime = some now)
  | lost (givenUp : GivenUp self app')

variable {self} {now}

/-! ## Frames -/

/-- What the registration asks for leaves the clocks alone. -/
theorem registrationAction_clocks (self : SpaApp) (now : Timestamp) (action : RegistrationAction) :
    (self.registrationAction now action).2.wasStale = self.wasStale ∧
      (self.registrationAction now action).2.lastStatusTime = self.lastStatusTime ∧
      (self.registrationAction now action).2.lastCtsTime = self.lastCtsTime := by
  unfold registrationAction
  repeat' split
  all_goals exact ⟨rfl, rfl, rfl⟩

/-- A frame while unregistered leaves the clocks alone. -/
theorem processUnregistered_clocks (self : SpaApp) (now : Timestamp) (frame : Frame) :
    (self.processUnregistered now frame).2.wasStale = self.wasStale ∧
      (self.processUnregistered now frame).2.lastStatusTime = self.lastStatusTime ∧
      (self.processUnregistered now frame).2.lastCtsTime = self.lastCtsTime := by
  unfold processUnregistered
  dsimp only
  split
  · exact ⟨rfl, rfl, rfl⟩
  · obtain ⟨hstale, hstatus, hcts⟩ := registrationAction_clocks _ now _
    exact ⟨hstale, hstatus, hcts⟩

/-- A grant that is taken sets its time. -/
theorem onReady_clocks {frame : Frame} {channel : UInt8} (hm : dispatchFrame frame = .ready channel)
    (hreg : self.registration.isRegistered = true) :
    self.ClockEffect now (.processFrame frame) (self.onReady now channel).2 := by
  have hheard : self.heardStatus (.processFrame frame) = none := by rw [heardStatus, hm]
  have hready : readyChannel (.processFrame frame) = some channel := by rw [readyChannel, hm]
  unfold onReady
  by_cases hother : self.clientId.any (· ≠ channel) = true
  · rw [if_pos hother]
    -- A grant of another channel is refused.
    refine .kept hheard ?_ rfl rfl rfl
    rw [takenGrant, hready, Option.filter_some_neg]
    cases hid : self.clientId <;> simp_all
  · rw [if_neg hother]
    -- The grant is taken: its time is kept, whether a command is queued or not.
    have hgrant : self.takenGrant (.processFrame frame) ≠ none := by
      have htaken : self.takenGrant (.processFrame frame) = some channel := by
        rw [takenGrant, hready, Option.filter_some_pos]
        cases hid : self.clientId <;> simp_all
      rw [htaken]
      exact Option.some_ne_none _
    dsimp only
    split
    · exact .granted hheard hgrant rfl rfl rfl
    · split <;> exact .granted hheard hgrant rfl rfl rfl

/-- A frame that grants no channel. -/
theorem takenGrant_eq_none (self : SpaApp) {frame : Frame}
    (h : ∀ channel, dispatchFrame frame ≠ .ready channel) :
    self.takenGrant (.processFrame frame) = none := by
  have hready : readyChannel (.processFrame frame) = none := by
    rw [readyChannel]
    split
    · rename_i channel hm
      exact absurd hm (h channel)
    · rfl
  rw [takenGrant, hready, Option.filter_none]

/-- A frame while registered has its effect on the clocks. -/
theorem processRegistered_clocks (frame : Frame) (hreg : self.registration.isRegistered = true) :
    self.ClockEffect now (.processFrame frame) (self.processRegistered now frame).2 := by
  unfold processRegistered
  cases hm : dispatchFrame frame with
  | statusUpdate status =>
    have hheard : self.heardStatus (.processFrame frame) = some status := by
      rw [heardStatus, hm]
      exact if_pos hreg
    have hgrant := self.takenGrant_eq_none fun _ => by rw [hm]; exact IncomingMessage.noConfusion
    exact .heard (hheard ▸ Option.some_ne_none _) hgrant rfl rfl rfl
  | ready channel => exact onReady_clocks hm hreg
  | registration msg =>
    have hgrant := self.takenGrant_eq_none fun _ => by rw [hm]; exact IncomingMessage.noConfusion
    have hheard : self.heardStatus (.processFrame frame) = none := by rw [heardStatus, hm]
    cases msg with
    | clientIdAssignment channel hash => exact .kept hheard hgrant rfl rfl rfl
    | _ => exact .kept hheard hgrant rfl rfl rfl
  | _ =>
    have hgrant := self.takenGrant_eq_none fun _ => by rw [hm]; exact IncomingMessage.noConfusion
    exact .kept (by rw [heardStatus, hm]) hgrant rfl rfl rfl

/-- A frame has its effect on the clocks. -/
theorem processFrame_clocks (frame : Frame) :
    self.ClockEffect now (.processFrame frame) (self.processFrame now frame).2 := by
  unfold processFrame
  by_cases hreg : self.registration.isRegistered = true
  · rw [if_pos hreg]
    exact processRegistered_clocks frame hreg
  -- Before the registration completes, statuses and grants are not heard.
  · rw [if_neg hreg]
    obtain ⟨hstale, hstatus, hcts⟩ := self.processUnregistered_clocks now frame
    refine .kept ?_ ?_ hstale hstatus hcts
    · rw [heardStatus]
      split
      · exact if_neg hreg
      · rfl
    · rw [takenGrant]
      cases readyChannel (.processFrame frame) with
      | none => rfl
      | some channel => exact Option.filter_some_neg (by simp [hreg])

/-! ## `tick` -/

/-- The two states are registered alike, and have the same times and latch. -/
structure SameClocks (app app' : SpaApp) : Prop where
  registration : app'.registration = app.registration
  id : app'.clientId = app.clientId
  stale : app'.wasStale = app.wasStale
  status : app'.lastStatusTime = app.lastStatusTime
  cts : app'.lastCtsTime = app.lastCtsTime

/-- What leaves the clocks alone twice leaves them alone. -/
theorem SameClocks.trans {a b c : SpaApp} (h : SameClocks a b) (h' : SameClocks b c) :
    SameClocks a c :=
  ⟨h'.registration.trans h.registration, h'.id.trans h.id, h'.stale.trans h.stale,
    h'.status.trans h.status, h'.cts.trans h.cts⟩

/-- A registration that is given up stays so. -/
theorem GivenUp.same {a b c : SpaApp} (h : GivenUp a b) (h' : SameClocks b c) : GivenUp a c := by
  refine ⟨?_, h'.status.trans h.status, h'.cts.trans h.cts⟩
  unfold Unregistered
  rw [h'.registration, h'.id]
  exact h.unregistered

/-- A registration is given up also relative to an app of the same status. -/
theorem GivenUp.of_status {a b c : SpaApp} (h : GivenUp b c)
    (hstatus : b.lastStatusTime = a.lastStatusTime) : GivenUp a c :=
  ⟨h.unregistered, h.status.trans hstatus, h.cts⟩

/-- The check of a registered app leaves the clocks alone. -/
theorem checkRegistration_clocks (now : Timestamp) (hreg : self.registration.isRegistered = true) :
    SameClocks self (self.checkRegistration now).2 := by
  unfold checkRegistration
  rw [if_pos hreg]
  exact ⟨rfl, rfl, rfl, rfl, rfl⟩

/-- The checks of a registration that has not completed leave the times and the latch. -/
theorem checkRegistration_times (now : Timestamp) :
    (self.checkRegistration now).2.wasStale = self.wasStale ∧
      (self.checkRegistration now).2.lastStatusTime = self.lastStatusTime ∧
      (self.checkRegistration now).2.lastCtsTime = self.lastCtsTime ∧
      (self.registration.isRegistered = false →
        (self.checkRegistration now).2.registration.isRegistered = false) := by
  have htimeout : (self.timeoutRegistration now).2.wasStale = self.wasStale ∧
      (self.timeoutRegistration now).2.lastStatusTime = self.lastStatusTime ∧
      (self.timeoutRegistration now).2.lastCtsTime = self.lastCtsTime ∧
      (self.registration.isRegistered = false →
        (self.timeoutRegistration now).2.registration.isRegistered = false) := by
    unfold timeoutRegistration
    split
    · exact ⟨rfl, rfl, rfl, fun _ => rfl⟩
    · exact ⟨rfl, rfl, rfl, id⟩
  have halert : ∀ s : SpaApp, SameClocks s (s.alertNoQuery now).2 := fun s => by
    unfold alertNoQuery
    split <;> exact ⟨rfl, rfl, rfl, rfl, rfl⟩
  unfold checkRegistration
  split
  · exact ⟨rfl, rfl, rfl, id⟩
  · have h := halert (self.timeoutRegistration now).2
    refine ⟨h.stale.trans htimeout.1, h.status.trans htimeout.2.1, h.cts.trans htimeout.2.2.1,
      fun hno => ?_⟩
    show ((self.timeoutRegistration now).2.alertNoQuery now).2.registration.isRegistered = false
    rw [h.registration]
    exact htimeout.2.2.2 hno

/-- The registration is given up if the grants are lost, and nothing happens otherwise. -/
theorem checkCts_clocks (now : Timestamp) :
    (self.ctsLost now = true ∧ GivenUp self (self.checkCts now).2) ∨
      self.ctsLost now = false ∧ (self.checkCts now).2 = self := by
  unfold checkCts
  cases hlost : self.ctsLost now with
  | true => exact .inl ⟨rfl, ⟨rfl, rfl⟩, rfl, rfl⟩
  | false => exact .inr ⟨rfl, rfl⟩

/-- A probe leaves the clocks alone. -/
theorem probe_clocks (now : Timestamp) : SameClocks self (self.probe now).2 := by
  unfold probe
  split <;> exact ⟨rfl, rfl, rfl, rfl, rfl⟩

/-- The registration is given up if the data becomes stale, and nothing happens otherwise. -/
theorem checkStale_clocks (now : Timestamp) :
    (elapsedAtLeast now self.lastStatusTime staleThresholdMs = true ∧ self.wasStale = false ∧
        GivenUp self (self.checkStale now).2) ∨
      ¬ (elapsedAtLeast now self.lastStatusTime staleThresholdMs = true ∧ self.wasStale = false) ∧
        (self.checkStale now).2 = self := by
  unfold checkStale
  cases helapsed : elapsedAtLeast now self.lastStatusTime staleThresholdMs with
  | false => exact .inr ⟨fun h => Bool.false_ne_true h.1, rfl⟩
  | true =>
    cases hstale : self.wasStale with
    | true => exact .inr ⟨fun h => Bool.false_ne_true h.2.symm, rfl⟩
    | false => exact .inl ⟨rfl, rfl, ⟨rfl, rfl⟩, rfl, rfl⟩

/-- The diagnostics leave the clocks alone. -/
theorem checkDiagnostics_clocks (now : Timestamp) :
    SameClocks self (self.checkDiagnostics now).2 := by
  unfold checkDiagnostics
  split <;> exact ⟨rfl, rfl, rfl, rfl, rfl⟩

/-- The grants or the statuses have stopped, and the latch is clear. -/
def LinkLost (self : SpaApp) (now : Timestamp) : Prop :=
  self.wasStale = false ∧ (elapsedAtLeast now self.lastCtsTime ctsLossThresholdMs = true ∨
    elapsedAtLeast now self.lastStatusTime staleThresholdMs = true)

/-- A tick gives up a registration exactly when the link is lost, and leaves it alone otherwise. -/
theorem tick_clocks (now : Timestamp) (hreg : self.registration.isRegistered = true) :
    (self.LinkLost now ∧ GivenUp self (self.tick now).2) ∨
      ¬ self.LinkLost now ∧ SameClocks self (self.tick now).2 := by
  -- The steps of a tick: the registration, the grants, the probe, the statuses, the diagnostics.
  set s1 := (self.checkRegistration now).2 with hs1
  set s2 := (s1.checkCts now).2 with hs2
  set s3 := (s2.probe now).2 with hs3
  set s4 := (s3.checkStale now).2 with hs4
  have h1 : SameClocks self s1 := checkRegistration_clocks now hreg
  have h3 : SameClocks s2 s3 := probe_clocks now
  have h5 : SameClocks s4 (self.tick now).2 := checkDiagnostics_clocks now
  have hlost1 : s1.ctsLost now = true ↔
      self.wasStale = false ∧ elapsedAtLeast now self.lastCtsTime ctsLossThresholdMs = true := by
    unfold ctsLost
    rw [h1.registration, h1.stale, h1.cts, hreg]
    simp
  rcases s1.checkCts_clocks now with ⟨hlost, hup⟩ | ⟨hkept, heq2⟩
  · -- The grants have stopped.
    have hup3 : GivenUp self s3 := (hup.of_status h1.status).same h3
    refine .inl ⟨⟨(hlost1.1 hlost).1, .inl (hlost1.1 hlost).2⟩, ?_⟩
    rcases s3.checkStale_clocks now with ⟨-, -, hup4⟩ | ⟨-, heq4⟩
    · exact (hup4.of_status hup3.status).same h5
    · rw [← hs4] at heq4
      rw [heq4] at h5
      exact hup3.same h5
  · have h13 : SameClocks self s3 := by
      rw [← hs2] at heq2
      rw [heq2] at h3
      exact h1.trans h3
    have hcts : ¬ (self.wasStale = false ∧
        elapsedAtLeast now self.lastCtsTime ctsLossThresholdMs = true) := fun h =>
      Bool.false_ne_true (hkept.symm.trans (hlost1.2 h))
    rcases s3.checkStale_clocks now with ⟨helapsed, hstale, hup4⟩ | ⟨hno, heq4⟩
    · -- The statuses have stopped.
      rw [h13.status] at helapsed
      rw [h13.stale] at hstale
      exact .inl ⟨⟨hstale, .inr helapsed⟩, (hup4.of_status h13.status).same h5⟩
    · rw [h13.status, h13.stale] at hno
      rw [← hs4] at heq4
      rw [heq4] at h5
      refine .inr ⟨fun h => ?_, h13.trans h5⟩
      -- Neither has stopped, so the link is not lost.
      rcases h with ⟨hstale, hlost | hlost⟩
      · exact hcts ⟨hstale, hlost⟩
      · exact hno ⟨hlost, hstale⟩

/-- A tick of an app that is not registered leaves the times and the latch, or sets it. -/
theorem tick_times (now : Timestamp) (hreg : self.registration.isRegistered = false) :
    self.ClockEffect now .tick (self.tick now).2 := by
  set s1 := (self.checkRegistration now).2 with hs1
  set s2 := (s1.checkCts now).2 with hs2
  set s3 := (s2.probe now).2 with hs3
  set s4 := (s3.checkStale now).2 with hs4
  obtain ⟨hstale1, hstatus1, hcts1, hreg1⟩ := self.checkRegistration_times now
  have h3 : SameClocks s2 s3 := probe_clocks now
  have h5 : SameClocks s4 (self.tick now).2 := checkDiagnostics_clocks now
  -- The grants are checked only while the app is registered.
  rcases s1.checkCts_clocks now with ⟨hlost, -⟩ | ⟨-, heq2⟩
  · unfold ctsLost at hlost
    rw [hreg1 hreg] at hlost
    exact absurd hlost Bool.false_ne_true
  · rw [← hs2] at heq2
    rw [heq2] at h3
    rcases s3.checkStale_clocks now with ⟨-, -, hup4⟩ | ⟨-, heq4⟩
    · exact .lost ((hup4.of_status (h3.status.trans hstatus1)).same h5)
    · rw [← hs4] at heq4
      rw [heq4] at h5
      have h := h3.trans h5
      exact .kept rfl rfl (h.stale.trans hstale1) (h.status.trans hstatus1) (h.cts.trans hcts1)

/-! ## All calls -/

/-- Enqueuing leaves the clocks alone. -/
theorem enqueue_clocks (self : SpaApp) (cmd : Command) : SameClocks self (self.enqueue cmd) := by
  unfold enqueue
  split <;> exact ⟨rfl, rfl, rfl, rfl, rfl⟩

/-- A command of the user leaves the clocks alone. -/
theorem onMqttCommand_clocks (self : SpaApp) (cmd : Command) :
    SameClocks self (self.onMqttCommand cmd).2 := by
  have hmode : SameClocks self (self.enqueueClockMode cmd) := by
    unfold enqueueClockMode
    split
    · split
      · exact ⟨rfl, rfl, rfl, rfl, rfl⟩
      · exact enqueue_clocks _ _
    · exact ⟨rfl, rfl, rfl, rfl, rfl⟩
  unfold onMqttCommand
  split
  · exact ⟨rfl, rfl, rfl, rfl, rfl⟩
  · dsimp only
    split
    · exact hmode.trans ⟨rfl, rfl, rfl, rfl, rfl⟩
    · exact hmode.trans (enqueue_clocks _ _)

/-- What a call does to the times and the latch. -/
theorem call_clocks (self : SpaApp) (now : Timestamp) (c : AppCall) :
    self.ClockEffect now c (self.call now c).2 := by
  cases c with
  | processFrame frame => exact processFrame_clocks frame
  | onMqttCommand cmd =>
    have h := self.onMqttCommand_clocks cmd
    exact .kept rfl rfl h.stale h.status h.cts
  | tick =>
    cases hreg : self.registration.isRegistered with
    | false => exact tick_times now hreg
    | true =>
      rcases tick_clocks now hreg with ⟨-, hup⟩ | ⟨-, hsame⟩
      · exact .lost hup
      · exact .kept rfl rfl hsame.stale hsame.status hsame.cts
  | startPumpTimer pumpIndex minutes =>
    unfold call startPumpTimer
    dsimp only
    split <;> exact .kept rfl rfl rfl rfl rfl
  | setPreviousChannel channel => exact .kept rfl rfl rfl rfl rfl
  | resetRegistrationState clearCommands =>
    cases clearCommands <;> exact .lost ⟨⟨rfl, rfl⟩, rfl, rfl⟩
  | forcePublish =>
    have hsame : (self.call now .forcePublish).2 = self := by
      unfold call forcePublish
      dsimp only
      split <;> rfl
    rw [hsame]
    exact .kept rfl rfl rfl rfl rfl
  | checkHeap freeHeap => exact .kept rfl rfl rfl rfl rfl

/-! ## Runs -/

/-- The call tells the app no status. -/
def Unheard (app : SpaApp) (c : Timestamp × AppCall) : Prop := app.heardStatus c.2 = none

/-- The call grants the channel that the app is registered on. -/
def OwnReady (app : SpaApp) (c : Timestamp × AppCall) : Prop :=
  ∃ ch ∈ readyChannel c.2, app.channel = some ch

/-- The call grants another channel, and the app takes it for its own. -/
def MisreadsReady (app : SpaApp) (c : Timestamp × AppCall) : Prop :=
  ∃ ch ∈ app.takenGrant c.2, app.channel ≠ some ch

/-- The app is registered after the call. -/
def StaysRegistered (app : SpaApp) (c : Timestamp × AppCall) : Prop :=
  (app.step c).registration.isRegistered = true

instance : DecidableRel Unheard := fun app c =>
  inferInstanceAs (Decidable (app.heardStatus c.2 = none))

instance : DecidableRel OwnReady := fun app c =>
  inferInstanceAs (Decidable (∃ ch ∈ readyChannel c.2, app.channel = some ch))

instance : DecidableRel StaysRegistered := fun app c =>
  inferInstanceAs (Decidable ((app.step c).registration.isRegistered = true))

/-- What happened between two states of a run, in which the app stayed registered and had no grant
of its own. -/
structure Stayed (a : SpaApp) (cs : List (Timestamp × AppCall)) (b : SpaApp) : Prop where
  registered : b.registration.isRegistered = true
  stale : b.wasStale = true ↔ a.wasStale = true ∧ Along step Unheard a cs
  status : Along step Unheard a cs ∧ b.lastStatusTime = a.lastStatusTime ∨
    ¬ Along step Unheard a cs ∧ ∃ c ∈ cs, b.lastStatusTime = some c.1
  cts : Along step (fun app c => ¬ app.MisreadsReady c) a cs → b.lastCtsTime = a.lastCtsTime

/-- An unregistered app is not registered with the spa. -/
theorem not_registered_of_unregistered (h : self.Unregistered) :
    self.registration.isRegistered = false := by
  rw [RegistrationStateMachine.isRegistered, h.1]

/-- A grant that is taken is the app's own, or it is misread. -/
theorem misreads_of_taken {c : Timestamp × AppCall} (htaken : self.takenGrant c.2 ≠ none)
    (hown : ¬ self.OwnReady c) : self.MisreadsReady c := by
  obtain ⟨ch, hch⟩ := Option.ne_none_iff_exists'.1 htaken
  refine ⟨ch, hch, fun hheld => hown ⟨ch, ?_, hheld⟩⟩
  exact (Option.mem_filter_iff.1 hch).1

/-- A run in which the app stays registered keeps the latch and the time of the last status until
one is heard, and the time of the last grant until one is misread. -/
theorem stayed (cs : List (Timestamp × AppCall)) {a : SpaApp}
    (hreg : a.registration.isRegistered = true) (hstays : Along step StaysRegistered a cs)
    (hready : Along step (fun app c => ¬ app.OwnReady c) a cs) : Stayed a cs (cs.foldl step a) := by
  induction cs generalizing a with
  | nil =>
    refine ⟨hreg, ?_, .inl ⟨trivial, rfl⟩, fun _ => rfl⟩
    exact ⟨fun h => ⟨h, trivial⟩, And.left⟩
  | cons c cs ih =>
    have h := ih hstays.1 hstays.2 hready.2
    -- A call that tells no status: the condition is that of the rest.
    have hquiet : a.heardStatus c.2 = none → (a.step c).wasStale = a.wasStale →
        (a.step c).lastStatusTime = a.lastStatusTime →
        (Along step (fun app c => ¬ app.MisreadsReady c) a (c :: cs) →
          (a.step c).lastCtsTime = a.lastCtsTime) →
        Stayed a (c :: cs) ((c :: cs).foldl step a) := by
      intro heard stale status cts
      have hiff : Along step Unheard a (c :: cs) ↔ Along step Unheard (a.step c) cs :=
        and_iff_right heard
      refine ⟨h.registered, ?_, ?_, fun hcts => (h.cts hcts.2).trans (cts hcts)⟩
      · rw [hiff, ← stale]
        exact h.stale
      · rw [hiff]
        rcases h.status with ⟨hunheard, heq⟩ | ⟨hheard, c', hmem, heq⟩
        · exact .inl ⟨hunheard, heq.trans status⟩
        · exact .inr ⟨hheard, c', List.mem_cons_of_mem _ hmem, heq⟩
    cases a.call_clocks c.1 c.2 with
    | kept heard grant stale status cts => exact hquiet heard stale status fun _ => cts
    | granted heard grant stale status cts =>
      -- A grant that is not its own is misread.
      exact hquiet heard stale status fun hno => absurd (misreads_of_taken grant hready.1) hno.1
    | heard heard grant stale status cts =>
      -- A status clears the latch and sets its time.
      have hno : ¬ Along step Unheard a (c :: cs) := fun hun => heard hun.1
      refine ⟨h.registered, iff_of_false (fun hb => ?_) fun hb => hno hb.2, .inr ⟨hno, ?_⟩,
        fun hcts => (h.cts hcts.2).trans cts⟩
      · exact Bool.false_ne_true (stale.symm.trans (h.stale.1 hb).1)
      · rcases h.status with ⟨-, heq⟩ | ⟨-, c', hmem, heq⟩
        · exact ⟨c, List.mem_cons_self, heq.trans status⟩
        · exact ⟨c', List.mem_cons_of_mem _ hmem, heq⟩
    | lost givenUp =>
      -- The app stays registered.
      exact absurd (hstays.1.symm.trans (not_registered_of_unregistered givenUp.unregistered))
        Bool.false_ne_true.symm

/-- The times of the last status and the last grant are those of calls. -/
theorem times_le {t : ℕ} {cs : List (Timestamp × AppCall)}
    (hcs : ∀ c ∈ cs, c.1 + staleThresholdMs ≤ t)
    {a : SpaApp} (hstatus : ∀ time ∈ a.lastStatusTime, time + staleThresholdMs ≤ t)
    (hcts : ∀ time ∈ a.lastCtsTime, time + staleThresholdMs ≤ t) :
    (∀ time ∈ (cs.foldl step a).lastStatusTime, time + staleThresholdMs ≤ t) ∧
      ∀ time ∈ (cs.foldl step a).lastCtsTime, time + staleThresholdMs ≤ t := by
  induction cs generalizing a with
  | nil => exact ⟨hstatus, hcts⟩
  | cons c cs ih =>
    have hnow : ∀ time ∈ some c.1, time + staleThresholdMs ≤ t := by
      rintro time htime
      obtain rfl : c.1 = time := Option.some.inj htime
      exact hcs c List.mem_cons_self
    have hih := fun h h' =>
      ih (a := a.step c) (fun c' hc' => hcs c' (List.mem_cons_of_mem _ hc')) h h'
    cases a.call_clocks c.1 c.2 with
    | kept heard grant stale status cts =>
      exact hih (fun time h => hstatus time (status ▸ h)) fun time h => hcts time (cts ▸ h)
    | granted heard grant stale status cts =>
      exact hih (fun time h => hstatus time (status ▸ h)) fun time h => hnow time (cts ▸ h)
    | heard heard grant stale status cts =>
      exact hih (fun time h => hnow time (status ▸ h)) fun time h => hcts time (cts ▸ h)
    | lost givenUp =>
      refine hih (fun time h => hstatus time (givenUp.status ▸ h)) fun time h => ?_
      rw [show (a.step c).lastCtsTime = none from givenUp.cts] at h
      cases h

/-- What a tick needs to see of a run in which the app stayed registered, from a state to a time:
the latch was clear or a status was heard, and either the statuses have stopped, or the grants have,
those of another channel included that the app took for its own. -/
def Detects (a : SpaApp) (cs : List (Timestamp × AppCall)) (t : Timestamp) : Prop :=
  (a.wasStale = false ∨ ¬ Along step Unheard a cs) ∧
    (Along step Unheard a cs ∧ a.lastStatusTime ≠ none ∨
      Along step (fun app c => ¬ app.MisreadsReady c) a cs ∧ a.lastCtsTime ≠ none ∨
      ¬ Along step (fun app c => ¬ app.MisreadsReady c) a cs ∧
        elapsedAtLeast t (cs.foldl step a).lastCtsTime ctsLossThresholdMs = true)

/-- A time that is thirty seconds old is as old as any shorter threshold. -/
theorem elapsedAtLeast_iff {t threshold : ℕ} {since : Option Timestamp}
    (hsince : ∀ time ∈ since, time + staleThresholdMs ≤ t) (hle : threshold ≤ staleThresholdMs) :
    elapsedAtLeast t since threshold = true ↔ since ≠ none := by
  cases since with
  | none => exact iff_of_false Bool.false_ne_true fun h => h rfl
  | some time =>
    have hge : threshold ≤ t - time := hle.trans (Nat.le_sub_of_add_le' (hsince time rfl))
    exact iff_of_true (decide_eq_true hge) (Option.some_ne_none _)

/-- A tick gives up a registration that has had no grant of its own for thirty seconds exactly when
it detects it: `pre` are the calls up to thirty seconds before the tick, and `mid` those since. -/
theorem run_unregisters_iff (now : Timestamp) (hash : ClientHash)
    (pre mid : List (Timestamp × AppCall))
    (t : Timestamp) (hpre : ∀ c ∈ pre, c.1 + staleThresholdMs ≤ t)
    (hmid : ∀ c ∈ mid, t < c.1 + staleThresholdMs)
    (hreg : (pre.foldl step (withClientHash now hash)).registration.isRegistered = true)
    (hstays : Along step StaysRegistered (pre.foldl step (withClientHash now hash)) mid)
    (hready :
      Along step (fun app c => ¬ app.OwnReady c) (pre.foldl step (withClientHash now hash)) mid) :
    (((pre ++ mid).foldl step (withClientHash now hash)).step (t, .tick)).Unregistered ↔
      (pre.foldl step (withClientHash now hash)).Detects mid t := by
  obtain ⟨hstatus, hcts⟩ := times_le hpre (a := withClientHash now hash)
    (fun time h => absurd h (Option.some_ne_none _).symm)
    (fun time h => absurd h (Option.some_ne_none _).symm)
  have h := stayed mid hreg hstays hready
  rw [List.foldl_append]
  generalize pre.foldl step (withClientHash now hash) = a at *
  -- The tick gives the registration up exactly when the link is lost.
  have hb : ((mid.foldl step a).step (t, .tick)).Unregistered ↔ (mid.foldl step a).LinkLost t := by
    rcases tick_clocks t h.registered with ⟨hlost, hup⟩ | ⟨hno, hsame⟩
    · exact iff_of_true hup.unregistered hlost
    · refine iff_of_false (fun hun => ?_) hno
      have hreg' := h.registered
      rw [← hsame.registration] at hreg'
      exact Bool.false_ne_true ((not_registered_of_unregistered hun).symm.trans hreg')
  rw [hb, LinkLost, Detects]
  refine and_congr ?_ ?_
  · rw [← Bool.not_eq_true, h.stale, not_and_or, Bool.not_eq_true]
  · -- The times from before are thirty seconds old, and those since are not.
    have hstatus' : elapsedAtLeast t (mid.foldl step a).lastStatusTime staleThresholdMs = true ↔
        Along step Unheard a mid ∧ a.lastStatusTime ≠ none := by
      rcases h.status with ⟨hunheard, heq⟩ | ⟨hheard, c, hmem, heq⟩
      · rw [heq, and_iff_right hunheard]
        exact elapsedAtLeast_iff hstatus (Nat.le_refl _)
      · refine iff_of_false (fun helapsed => ?_) fun hun => hheard hun.1
        have hnow := hmid c hmem
        rw [heq] at helapsed
        have hle : staleThresholdMs ≤ t - c.1 := of_decide_eq_true helapsed
        have hpos : 0 < t - c.1 := Nat.lt_of_lt_of_le (by decide) hle
        have hold := Nat.add_le_of_le_sub' (Nat.le_of_lt (Nat.lt_of_sub_pos hpos)) hle
        exact absurd hnow (Nat.not_lt.2 hold)
    rw [hstatus', or_comm]
    refine or_congr Iff.rfl ?_
    by_cases hread : Along step (fun app c => ¬ app.MisreadsReady c) a mid
    · rw [h.cts hread, and_iff_right hread, elapsedAtLeast_iff hcts (by decide)]
      exact ⟨.inl, fun h => h.elim id fun h => absurd hread h.1⟩
    · exact ⟨fun h => .inr ⟨hread, h⟩, fun h => h.elim (fun h => absurd h.1 hread) And.right⟩

/-- An app that had a grant, and then statuses only. -/
theorem run_unregisters_granted :
    (((connect ++ [grant 200] ++ [statusAt 2000 []]).foldl step
      (withClientHash 0 (0x00, 0x01))).step
        (31000, .tick)).Unregistered ↔
      ((connect ++ [grant 200]).foldl step (withClientHash 0 (0x00, 0x01))).Detects
        [statusAt 2000 []]
        31000 :=
  run_unregisters_iff 0 (0x00, 0x01) (connect ++ [grant 200]) [statusAt 2000 []] 31000
    (by decide +kernel)
    (by decide +kernel) (by decide +kernel) (by decide +kernel) (by decide +kernel)

/-- An app that never had a grant, while the statuses go on, stays registered. -/
theorem run_never_granted :
    let mid := [statusAt 10000 [], statusAt 20000 [], statusAt 30000 []]
    let a := connect.foldl step (withClientHash 0 (0x00, 0x01))
    (∀ c ∈ connect, c.1 + staleThresholdMs ≤ 31000) ∧ (∀ c ∈ mid, 31000 < c.1 + staleThresholdMs) ∧
      a.registration.isRegistered = true ∧ Along step StaysRegistered a mid ∧
      Along step (fun app c => ¬ app.OwnReady c) a mid ∧
      ¬ ((mid.foldl step a).step (31000, .tick)).Unregistered := by
  intro mid a
  refine ⟨?_, ?_, ?_, ?_, ?_, ?_⟩ <;> decide +kernel

end SpaApp

end Launa.Core
