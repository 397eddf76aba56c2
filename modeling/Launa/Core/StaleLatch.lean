import Launa.Core.SpaApp
import Launa.Lib.Run

/-!
# The latch of a lost spa

`tick` sets the latch when the last status is thirty seconds old, and the next status clears it. Of
the states that the app publishes only that of such a status is marked as a recovery; the one that
goes with the loss is not (`call_status`).
-/

namespace Launa.Core

open Protocol Run

/-- The statuses that some actions publish, each with its mark of a recovery. -/
def reports (actions : List AppAction) : List (StatusUpdate × Bool) :=
  actions.filterMap fun
    | .publishState status _ recoveringFromStale _ => some (status, recoveringFromStale)
    | _ => none

/-- No actions report nothing. -/
@[simp] theorem reports_nil : reports [] = [] := rfl

/-- The reports of two lists of actions are put behind each other. -/
@[simp] theorem reports_append (xs ys : List AppAction) :
    reports (xs ++ ys) = reports xs ++ reports ys := List.filterMap_append

namespace SpaApp

variable (self : SpaApp) (now : Timestamp)

/-- A tick that comes when the last status is thirty seconds old. -/
def findsLost : AppCall → Bool
  | .tick => elapsedAtLeast now self.lastStatusTime staleThresholdMs
  | _ => false

/-- No state is published, and the latch and the last status are left. -/
structure KeepsStatus (app : SpaApp) (r : AppResult) : Prop where
  reported : reports r.1 = []
  stale : r.2.wasStale = app.wasStale
  status : r.2.lastStatus = app.lastStatus
  time : r.2.lastStatusTime = app.lastStatusTime

/-- What a call does to the latch and the last status, and what states it publishes. -/
inductive StatusEffect (c : AppCall) (r : AppResult) : Prop where
  /-- Nothing, and no state. -/
  | kept (keeps : KeepsStatus self r) (found : self.findsLost now c = true → self.wasStale = true)
  /-- The last status is published again. -/
  | forced (status : StatusUpdate) (known : self.lastStatus = some status)
      (reported : reports r.1 = [(status, false)]) (same : r.2 = self)
      (found : self.findsLost now c = false)
  /-- A status is heard and published, as a recovery if the latch is set. -/
  | heard (status : StatusUpdate) (parsed : ∃ payload, StatusUpdate.parse payload = .ok status)
      (reported : reports r.1 = [(status, self.wasStale)]) (stale : r.2.wasStale = false)
      (known : r.2.lastStatus = some status) (found : self.findsLost now c = false)
  /-- The spa is lost: the last status is published, if there is one. -/
  | lost (found : self.findsLost now c = true)
      (reported : reports r.1 = self.lastStatus.toList.map (·, false))
      (stale : r.2.wasStale = true) (status : r.2.lastStatus = self.lastStatus)
      (time : r.2.lastStatusTime = self.lastStatusTime)

variable {self} {now}

/-- Two parts that keep the status keep it one after the other. -/
theorem KeepsStatus.andThen {r : AppResult} {part : SpaApp → AppResult} (h : KeepsStatus self r)
    (h' : KeepsStatus r.2 (part r.2)) : KeepsStatus self (andThen r part) where
  reported := by
    show reports (r.1 ++ (part r.2).1) = []
    rw [reports_append, h.reported, h'.reported, List.append_nil]
  stale := h'.stale.trans h.stale
  status := h'.status.trans h.status
  time := h'.time.trans h.time

/-! ## Frames and commands -/

/-- What the registration asks for keeps the status. -/
theorem registrationAction_keepsStatus (self : SpaApp) (now : Timestamp)
    (action : RegistrationAction) :
    KeepsStatus self (self.registrationAction now action) := by
  unfold registrationAction
  repeat' split
  all_goals exact ⟨rfl, rfl, rfl, rfl⟩

/-- A frame while unregistered keeps the status. -/
theorem processUnregistered_keepsStatus (frame : Frame) :
    KeepsStatus self (self.processUnregistered now frame) := by
  unfold processUnregistered
  dsimp only
  split
  · exact ⟨rfl, rfl, rfl, rfl⟩
  · obtain ⟨hreported, hstale, hstatus, htime⟩ := registrationAction_keepsStatus _ now _
    exact ⟨hreported, hstale, hstatus, htime⟩

/-- A grant keeps the status. -/
theorem onReady_keepsStatus (channel : UInt8) : KeepsStatus self (self.onReady now channel) := by
  unfold onReady
  dsimp only
  repeat' split
  all_goals exact ⟨rfl, rfl, rfl, rfl⟩

/-- A frame has its effect on the status. -/
theorem processFrame_status (frame : Frame) :
    self.StatusEffect now (.processFrame frame) (self.processFrame now frame) := by
  have hfound : self.findsLost now (.processFrame frame) = true → self.wasStale = true := fun h =>
    absurd h Bool.false_ne_true
  unfold processFrame
  split
  · unfold processRegistered
    cases hm : dispatchFrame frame with
    -- A status publishes itself, and whether the latch was set.
    | statusUpdate status => exact .heard status (dispatchFrame_statusUpdate hm) rfl rfl rfl rfl
    | ready channel => exact .kept (onReady_keepsStatus channel) hfound
    | registration msg => cases msg <;> exact .kept ⟨rfl, rfl, rfl, rfl⟩ hfound
    | _ => exact .kept ⟨rfl, rfl, rfl, rfl⟩ hfound
  · exact .kept (processUnregistered_keepsStatus frame) hfound

/-- A command of the user keeps the status. -/
theorem onMqttCommand_keepsStatus (cmd : Command) : KeepsStatus self (self.onMqttCommand cmd) := by
  -- A command only moves the queue.
  have henqueue : ∀ (s : SpaApp) (cmd : Command), KeepsStatus s ([], s.enqueue cmd) := by
    intro s cmd
    unfold enqueue
    split <;> exact ⟨rfl, rfl, rfl, rfl⟩
  have hmode : KeepsStatus self ([], self.enqueueClockMode cmd) := by
    unfold enqueueClockMode
    split
    · split
      · exact ⟨rfl, rfl, rfl, rfl⟩
      · exact henqueue self _
    · exact ⟨rfl, rfl, rfl, rfl⟩
  unfold onMqttCommand
  split
  · exact ⟨rfl, rfl, rfl, rfl⟩
  · dsimp only
    split
    · exact ⟨rfl, hmode.stale, hmode.status, hmode.time⟩
    · have h := henqueue (self.enqueueClockMode cmd) cmd
      exact ⟨rfl, h.stale.trans hmode.stale, h.status.trans hmode.status, h.time.trans hmode.time⟩

/-! ## `tick` -/

/-- The check of the registration keeps the status. -/
theorem checkRegistration_keepsStatus (self : SpaApp) (now : Timestamp) :
    KeepsStatus self (self.checkRegistration now) := by
  unfold checkRegistration
  split
  · exact ⟨rfl, rfl, rfl, rfl⟩
  · have htimeout : KeepsStatus self (self.timeoutRegistration now) := by
      unfold timeoutRegistration
      split <;> exact ⟨rfl, rfl, rfl, rfl⟩
    refine htimeout.andThen ?_
    unfold alertNoQuery
    split <;> exact ⟨rfl, rfl, rfl, rfl⟩

/-- The check for lost grants keeps the status. -/
theorem checkCts_keepsStatus (self : SpaApp) (now : Timestamp) :
    KeepsStatus self (self.checkCts now) := by
  unfold checkCts
  split <;> exact ⟨rfl, rfl, rfl, rfl⟩

/-- A probe keeps the status. -/
theorem probe_keepsStatus (self : SpaApp) (now : Timestamp) :
    KeepsStatus self (self.probe now) := by
  unfold probe
  split
  · cases self.clientId <;> exact ⟨rfl, rfl, rfl, rfl⟩
  · exact ⟨rfl, rfl, rfl, rfl⟩

/-- The diagnostics keep the status. -/
theorem checkDiagnostics_keepsStatus (self : SpaApp) (now : Timestamp) :
    KeepsStatus self (self.checkDiagnostics now) := by
  unfold checkDiagnostics
  split <;> exact ⟨rfl, rfl, rfl, rfl⟩

/-- The spa is given up: the latch is set, and the last status published. -/
theorem checkStale_of_lost (h : (elapsedAtLeast now self.lastStatusTime staleThresholdMs &&
    !self.wasStale) = true) :
    reports (self.checkStale now).1 = self.lastStatus.toList.map (·, false) ∧
      (self.checkStale now).2.wasStale = true ∧
      (self.checkStale now).2.lastStatus = self.lastStatus ∧
      (self.checkStale now).2.lastStatusTime = self.lastStatusTime := by
  unfold checkStale
  rw [if_pos h]
  refine ⟨?_, rfl, rfl, rfl⟩
  dsimp only
  have hstatus : ({ self with wasStale := true }.resetRegistrationState true).lastStatus =
    self.lastStatus := rfl
  rw [hstatus]
  cases self.lastStatus <;> rfl

/-- A tick loses the spa when the last status is old and the latch is not set. -/
theorem tick_status : self.StatusEffect now .tick (self.tick now) := by
  -- What comes before the check for a stale spa keeps the status and the latch.
  obtain ⟨before, hbefore⟩ : ∃ r, r = andThen (andThen (self.checkRegistration now)
    (checkCts · now)) (probe · now) := ⟨_, rfl⟩
  have hkeeps : KeepsStatus self before := by
    rw [hbefore]
    exact ((checkRegistration_keepsStatus self now).andThen (checkCts_keepsStatus _ now)).andThen
      (probe_keepsStatus _ now)
  have htick : self.tick now =
      andThen (andThen before (checkStale · now)) (checkDiagnostics · now) := by
    rw [hbefore]
    rfl
  rw [htick]
  by_cases hlost : (elapsedAtLeast now before.2.lastStatusTime staleThresholdMs &&
      !before.2.wasStale) = true
  · -- The diagnostics come after the loss.
    have hafter := checkDiagnostics_keepsStatus (before.2.checkStale now).2 now
    obtain ⟨hreported, hstale, hstatus, htime⟩ := checkStale_of_lost hlost
    have hfound : elapsedAtLeast now self.lastStatusTime staleThresholdMs = true := by
      rw [Bool.and_eq_true, hkeeps.time] at hlost
      exact hlost.1
    refine .lost hfound ?_ (hafter.stale.trans hstale)
      (hafter.status.trans (hstatus.trans hkeeps.status))
      (hafter.time.trans (htime.trans hkeeps.time))
    show reports ((before.1 ++ (before.2.checkStale now).1) ++ _) = _
    rw [reports_append, reports_append, hkeeps.reported, hreported, hkeeps.status]
    exact (congrArg (_ ++ ·) hafter.reported).trans (List.append_nil _)
  · have hkept : before.2.checkStale now = ([], before.2) := by
      unfold checkStale
      rw [if_neg hlost]
    have hstale : KeepsStatus before.2 (before.2.checkStale now) := hkept ▸ ⟨rfl, rfl, rfl, rfl⟩
    refine .kept ((hkeeps.andThen hstale).andThen (checkDiagnostics_keepsStatus _ now))
      fun hfound => ?_
    -- With a latch that is clear, the spa would have been lost.
    by_contra hset
    refine hlost ?_
    rw [hkeeps.time, hkeeps.stale, Bool.eq_false_iff.2 hset, Bool.not_false, Bool.and_true]
    exact hfound

/-! ## Calls -/

/-- What a call does to the latch and the last status. -/
theorem call_status (self : SpaApp) (now : Timestamp) (c : AppCall) :
    self.StatusEffect now c (self.call now c) := by
  have hfalse : false = true → self.wasStale = true := fun h => absurd h Bool.false_ne_true
  cases c with
  | processFrame frame => exact processFrame_status frame
  | onMqttCommand cmd => exact .kept (onMqttCommand_keepsStatus cmd) hfalse
  | tick => exact tick_status
  | startPumpTimer pumpIndex minutes =>
    refine .kept ?_ hfalse
    show KeepsStatus self (self.startPumpTimer now pumpIndex minutes)
    unfold startPumpTimer
    dsimp only
    split <;> exact ⟨rfl, rfl, rfl, rfl⟩
  | setPreviousChannel channel => exact .kept ⟨rfl, rfl, rfl, rfl⟩ hfalse
  | resetRegistrationState clearCommands =>
    refine .kept ?_ hfalse
    cases clearCommands <;> exact ⟨rfl, rfl, rfl, rfl⟩
  | forcePublish =>
    show self.StatusEffect now .forcePublish self.forcePublish
    unfold forcePublish
    split
    · rename_i status known
      exact .forced status known rfl rfl rfl
    · exact .kept ⟨rfl, rfl, rfl, rfl⟩ hfalse
  | checkHeap freeHeap =>
    refine .kept ⟨?_, rfl, rfl, rfl⟩ hfalse
    show reports (self.checkHeap now freeHeap).1 = []
    unfold checkHeap
    dsimp only
    split <;> rfl

end SpaApp

end Launa.Core
