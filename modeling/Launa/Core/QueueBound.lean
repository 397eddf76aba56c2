import Launa.Core.CommandEffects
import Launa.Lib.Run
import Mathlib.Data.List.FinRange

/-!
# The bound of the queue

A command of the user is queued while there is room for it. What a status adds to the queue is not
asked for room: the commands to send again, the pumps to turn off and the hold mode to release. So
the queue holds at most `maxCommandQueue` commands along a run exactly when every status finds room
for those that are due (`queue_bounded_iff`).
-/

namespace Launa.Core

open Protocol

/-! ## What is due at a status -/

/-- The command is to be sent again: the status does not confirm it, it was sent long enough ago,
and it has a retry left. -/
def PendingCommand.Due (p : PendingCommand) (status : StatusUpdate) (now : Timestamp) : Prop :=
  CommandTracker.isConfirmed p.expected status = false ∧
    commandAckTimeoutMs ≤ elapsedSince now p.sentAt ∧ p.retries < maxCommandRetries

instance (p : PendingCommand) (status : StatusUpdate) (now : Timestamp) :
    Decidable (p.Due status now) := inferInstanceAs (Decidable (_ ∧ _ ∧ _))

/-- The timer runs, its pump is on and its duration is over. -/
def PumpTimer.Due (timer : PumpTimer) (now : Timestamp) (currentState : PumpState) : Prop :=
  currentState ≠ .off ∧ timer.startedAt.any fun t => timer.durationMs ≤ elapsedSince now t

instance (timer : PumpTimer) (now : Timestamp) (currentState : PumpState) :
    Decidable (timer.Due now currentState) := inferInstanceAs (Decidable (_ ∧ _))

/-- Hold mode is on, it has not been released, and its timeout is over. -/
def HoldModeTimer.Due (timer : HoldModeTimer) (now : Timestamp) (isHold : Bool) : Prop :=
  isHold = true ∧ timer.fired = false ∧
    timer.enteredAt.any fun t => timer.timeoutMs ≤ elapsedSince now t

instance (timer : HoldModeTimer) (now : Timestamp) (isHold : Bool) :
    Decidable (timer.Due now isHold) := inferInstanceAs (Decidable (_ ∧ _ ∧ _))

/-- How many commands are due at a status. -/
def SpaApp.dueCount (self : SpaApp) (now : Timestamp) (status : StatusUpdate) : ℕ :=
  self.cmdTracker.pending.countP (·.Due status now) +
    (List.finRange 6).countP
      (fun i => (self.pumpTimers.timers.get i).Due now (status.pumps.get i)) +
    if self.holdTimer.Due now status.isHold then 1 else 0

/-- A status that is heard finds room for the commands that are due. -/
def SpaApp.RoomForDue (self : SpaApp) (c : Timestamp × AppCall) : Prop :=
  ∀ status, self.heardStatus c.2 = some status →
    self.commandQueue.length + self.dueCount c.1 status ≤ maxCommandQueue

/-! ## What a status adds -/

/-- A command is retried exactly if a retry is due. -/
theorem CommandTracker.verdict_eq_retry {status : StatusUpdate} {now : Timestamp}
    {p : PendingCommand} : verdict status now p = .retry ↔ p.Due status now := by
  unfold verdict PendingCommand.Due
  by_cases hconf : isConfirmed p.expected status = true
  · simp [hconf]
  · by_cases htimeout : commandAckTimeoutMs ≤ elapsedSince now p.sentAt
    · by_cases hretries : p.retries < maxCommandRetries <;> simp [hconf, htimeout, hretries]
    · simp [hconf, htimeout]

/-- A status queues as many retries as are due. -/
theorem CommandTracker.length_retries (t : CommandTracker) (status : StatusUpdate)
    (now : Timestamp) : (t.verify status now).1.length = t.pending.countP (·.Due status now) := by
  unfold verify
  rw [List.length_map, List.length_reverse, List.countP_eq_length_filter]
  simp only [verdict_eq_retry]

/-- A timer queues a command exactly if it is due. -/
theorem PumpTimer.tick_isSome (timer : PumpTimer) (now : Timestamp) (currentState : PumpState) :
    (timer.tick now currentState).1.isSome = decide (timer.Due now currentState) := by
  rw [Bool.eq_iff_iff, decide_eq_true_eq]
  unfold tick Due
  cases timer.startedAt with
  | none => simp
  | some startedAt =>
    by_cases hoff : currentState = .off
    · simp [hoff]
    · by_cases hdue : timer.durationMs ≤ elapsedSince now startedAt <;> simp [hoff, hdue]

/-- A status queues as many toggles as timers are due. -/
theorem PumpTimerManager.length_expired (m : PumpTimerManager) (now : Timestamp)
    (pumps : Vector PumpState 6) : (m.tickAll now pumps).1.length =
      (List.finRange 6).countP fun i => (m.timers.get i).Due now (pumps.get i) := by
  unfold tickAll
  rw [List.length_filterMap_eq_countP, Vector.toList_ofFn, List.ofFn_eq_map, List.countP_map]
  simp only [Function.comp_def, PumpTimer.tick_isSome]

/-- A status releases the hold once, if that is due. -/
theorem HoldModeTimer.length_release (timer : HoldModeTimer) (now : Timestamp) (isHold : Bool) :
    (timer.tick now isHold).1.toList.length = if timer.Due now isHold then 1 else 0 := by
  obtain ⟨enteredAt, timeoutMs, fired⟩ := timer
  unfold tick Due
  cases enteredAt with
  | none => cases isHold <;> cases fired <;> simp
  | some t =>
    by_cases hdue : timeoutMs ≤ elapsedSince now t <;> cases isHold <;> cases fired <;> simp [hdue]

namespace SpaApp

variable (self : SpaApp) (now : Timestamp)

/-- A status adds the commands that are due. -/
theorem length_onStatus (status : StatusUpdate) :
    (self.onStatus now status).2.commandQueue.length =
      self.commandQueue.length + self.dueCount now status := by
  simp only [onStatus, dueCount, List.length_append, CommandTracker.length_retries,
    PumpTimerManager.length_expired, HoldModeTimer.length_release]
  omega

/-! ## What a command of the user adds -/

variable {self}

/-- Enqueuing keeps the bound of the queue. -/
theorem length_enqueue_le (h : self.commandQueue.length ≤ maxCommandQueue) (cmd : Command) :
    (self.enqueue cmd).commandQueue.length ≤ maxCommandQueue := by
  unfold enqueue
  split
  · exact h
  · simp only [List.length_append, List.length_singleton]
    omega

/-- Enqueuing a clock mode keeps the bound of the queue. -/
theorem length_enqueueClockMode_le (h : self.commandQueue.length ≤ maxCommandQueue)
    (cmd : Command) : (self.enqueueClockMode cmd).commandQueue.length ≤ maxCommandQueue := by
  unfold enqueueClockMode
  split
  · split
    · exact h
    · exact length_enqueue_le h _
  · exact h

/-- Replacing a temperature keeps the length of the queue. -/
theorem length_replaceTemperature {queue queue' : List Command} {cmd : Command}
    (h : replaceTemperature queue cmd = some queue') : queue'.length = queue.length := by
  obtain ⟨i, -, -, -, rfl⟩ := replaceTemperature_eq_some h
  exact List.length_set

/-- Cancelling a toggle makes the queue no longer. -/
theorem length_cancelToggle {queue queue' : List Command} {cmd : Command}
    (h : cancelToggle queue cmd = some queue') : queue'.length ≤ queue.length := by
  obtain ⟨-, -, -, rfl⟩ := cancelToggle_eq_some h
  exact List.length_erase_le

/-- A command of the user keeps the bound. -/
theorem length_onMqttCommand_le (h : self.commandQueue.length ≤ maxCommandQueue) (cmd : Command) :
    (self.onMqttCommand cmd).2.commandQueue.length ≤ maxCommandQueue := by
  unfold onMqttCommand
  split
  · rename_i queue hqueue
    simp only [length_replaceTemperature hqueue, h]
  · have hmode := length_enqueueClockMode_le h cmd
    dsimp only
    split
    · rename_i queue hqueue
      exact (length_cancelToggle hqueue).trans hmode
    · exact length_enqueue_le hmode cmd

/-! ## Along a run -/

/-- From a queue within the bound, a call leaves one exactly when a status finds room. -/
theorem length_step_le_iff (h : self.commandQueue.length ≤ maxCommandQueue)
    (c : Timestamp × AppCall) :
    (self.step c).commandQueue.length ≤ maxCommandQueue ↔ self.RoomForDue c := by
  have hnone : self.heardStatus c.2 = none → self.RoomForDue c := fun heard status hstatus =>
    absurd (heard.symm.trans hstatus) (Option.some_ne_none _).symm
  unfold step
  cases self.call_commands c.1 c.2 with
  | kept same heard taken sent =>
    rw [same.queue]
    exact iff_of_true h (hnone heard)
  | pumpStarted pumpIndex minutes item hcall queue tracker status sent =>
    rw [queue]
    exact iff_of_true h (hnone (by rw [hcall]; rfl))
  | submitted cmd hcall result =>
    rw [result]
    exact iff_of_true (length_onMqttCommand_le h cmd) (hnone (by rw [hcall]; rfl))
  | observed status heard taken result =>
    rw [result, length_onStatus]
    constructor
    · intro hroom status' heard'
      rw [Option.some.inj (heard'.symm.trans heard)]
      exact hroom
    · exact fun hroom => hroom status heard
  | granted cmd queue heard taken queued sent queue' status tracker timers =>
    rw [queue']
    rw [queued, List.length_cons] at h
    exact iff_of_true (by omega) (hnone heard)
  | dropped queue pending status timers heard taken sent =>
    rw [queue]
    exact iff_of_true (Nat.zero_le _) (hnone heard)

/-- The queue holds at most `maxCommandQueue` commands at every point of a run exactly when every
status that is heard finds room for the commands that are due. -/
theorem queue_bounded_iff (now : Timestamp) (clientHash : ClientHash)
    (calls : List (Timestamp × AppCall)) :
    (∀ pre post, calls = pre ++ post →
        (pre.foldl step (withClientHash now clientHash)).commandQueue.length ≤ maxCommandQueue) ↔
      Run.Along step RoomForDue (withClientHash now clientHash) calls :=
  Run.along_iff_forall (I := fun app : SpaApp => app.commandQueue.length ≤ maxCommandQueue)
    (fun _ => id) (fun _ c h => (length_step_le_iff h c).1)
    (fun _ c h => (length_step_le_iff h c).2) (Nat.zero_le _) calls

/-- A toggle is sent and not confirmed, the user fills the queue, and the retry is one command too
many. -/
theorem not_queue_bounded :
    ¬ ((connect ++ [(150, AppCall.onMqttCommand (.toggleItem .pump1)), grant 200] ++
        List.replicate 32 (300, AppCall.onMqttCommand .configurationRequest) ++
        [statusAt 5200 []]).foldl step (withClientHash 0 (0x00, 0x01))).commandQueue.length ≤
      maxCommandQueue := by
  decide +kernel

end SpaApp

end Launa.Core
