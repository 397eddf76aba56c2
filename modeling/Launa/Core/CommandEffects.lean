import Launa.Core.Transitions
import Launa.Protocol.CommandFrames

/-!
# What a call does to the commands

The commands of the app are those in its queue and those that its tracker waits for. A call does one
of six things to them (`call_commands`): nothing, or a pump timer sends its command at once, or a
command of the user is queued, or a status is checked against the pending ones, or a grant sends the
first one of the queue, or all of them are dropped. A frame that is sent otherwise is neither a
toggle nor a set temperature (`IsOther`).
-/

namespace Launa.Core

open Protocol

namespace SpaApp

variable (self : SpaApp) (now : Timestamp)

/-- The two states hold the same commands, have heard the same status and run the same pump timers.
-/
structure SameCommands (app app' : SpaApp) : Prop where
  queue : app'.commandQueue = app.commandQueue
  pending : app'.cmdTracker.pending = app.cmdTracker.pending
  status : app'.lastStatus = app.lastStatus
  timers : app'.pumpTimers = app.pumpTimers

/-- An app has the commands of itself. -/
theorem SameCommands.refl (app : SpaApp) : SameCommands app app := ⟨rfl, rfl, rfl, rfl⟩

/-- What leaves the commands alone twice leaves them alone. -/
theorem SameCommands.trans {a b c : SpaApp} (h : SameCommands a b) (h' : SameCommands b c) :
    SameCommands a c :=
  ⟨h'.queue.trans h.queue, h'.pending.trans h.pending, h'.status.trans h.status,
    h'.timers.trans h.timers⟩

/-- The command that a call takes from the queue. -/
def takenCommand : AppCall → Option Command
  | .processFrame frame =>
    match dispatchFrame frame with
    | .ready channel =>
      if self.registration.isRegistered ∧ self.clientId.all (· = channel) then
        self.commandQueue.head?
      else none
    | _ => none
  | _ => none

/-- The status that a call tells an app that is registered. -/
def heardStatus : AppCall → Option StatusUpdate
  | .processFrame frame =>
    match dispatchFrame frame with
    | .statusUpdate status => if self.registration.isRegistered then some status else none
    | _ => none
  | _ => none

/-- What a call does to the commands. -/
inductive CommandEffect (c : AppCall) (r : AppResult) : Prop where
  /-- Nothing. -/
  | kept (same : SameCommands self r.2) (heard : self.heardStatus c = none)
      (taken : self.takenCommand c = none)
      (sent : ∀ bytes ∈ sends r.1, IsOther bytes)
  /-- A pump timer is started, and its pump toggled. -/
  | pumpStarted (pumpIndex : UInt8) (minutes : UInt32) (item : ToggleItem)
      (call : c = .startPumpTimer pumpIndex minutes) (queue : r.2.commandQueue = self.commandQueue)
      (tracker : r.2.cmdTracker = self.cmdTracker) (status : r.2.lastStatus = self.lastStatus)
      (sent : sends r.1 = [encodeCommand (.toggleItem item)])
  /-- The user's command is queued. -/
  | submitted (cmd : Command) (call : c = .onMqttCommand cmd) (result : r = self.onMqttCommand cmd)
  /-- A status is checked. -/
  | observed (status : StatusUpdate) (heard : self.heardStatus c = some status)
      (taken : self.takenCommand c = none) (result : r = self.onStatus now status)
  /-- A grant sends the first command of the queue. -/
  | granted (cmd : Command) (queue : List Command) (heard : self.heardStatus c = none)
      (taken : self.takenCommand c = some cmd) (queued : self.commandQueue = cmd :: queue)
      (sent : sends r.1 = [encodeCommand cmd]) (queue' : r.2.commandQueue = queue)
      (status : r.2.lastStatus = self.lastStatus)
      (tracker : r.2.cmdTracker = match self.lastStatus with
        | some preStatus => self.cmdTracker.track cmd preStatus now
        | none => self.cmdTracker)
      (timers : r.2.pumpTimers = self.pumpTimers)
  /-- The commands are dropped, and the pump timers cancelled. -/
  | dropped (queue : r.2.commandQueue = []) (pending : r.2.cmdTracker.pending = [])
      (status : r.2.lastStatus = self.lastStatus) (timers : r.2.pumpTimers.Idle)
      (heard : self.heardStatus c = none)
      (taken : self.takenCommand c = none) (sent : ∀ bytes ∈ sends r.1, IsOther bytes)

variable {self} {now}

/-- Nothing that is sent is a command if nothing is sent. -/
theorem sends_isOther_nil {actions : List AppAction} (h : sends actions = []) :
    ∀ bytes ∈ sends actions, IsOther bytes := by
  rw [h]
  exact fun bytes hb => absurd hb List.not_mem_nil

/-! ## Frames -/

/-- What the registration asks for leaves the commands alone. -/
theorem registrationAction_sameCommands (action : RegistrationAction) :
    SameCommands self (self.registrationAction now action).2 := by
  unfold registrationAction
  repeat' split
  all_goals exact ⟨rfl, rfl, rfl, rfl⟩

/-- A frame while unregistered leaves the commands alone. -/
theorem processUnregistered_sameCommands (frame : Frame) :
    SameCommands self (self.processUnregistered now frame).2 := by
  unfold processUnregistered
  dsimp only
  split
  · exact ⟨rfl, rfl, rfl, rfl⟩
  · refine SameCommands.trans ?_ (registrationAction_sameCommands _)
    exact ⟨rfl, rfl, rfl, rfl⟩

/-- An app that is not registered sends registration messages only. -/
theorem processUnregistered_isOther (h : self.channel = none) (frame : Frame) :
    ∀ bytes ∈ sends (self.processUnregistered now frame).1, IsOther bytes := by
  have hsent : sends (self.processUnregistered now frame).1 = [] ∨
      ∃ msg : RegistrationMessage, sends (self.processUnregistered now frame).1 = [msg.bytes] := by
    have heffect : self.FrameEffect now frame (self.processUnregistered now frame) :=
      self.processUnregistered_effect now h
    cases heffect with
    | waiting _ _ _ _ sent => exact sent
    | assigned ch hash _ _ _ _ _ _ sent => exact .inr ⟨_, sent⟩
    | confirmed ch _ _ _ _ _ sent => exact .inl sent
    | reassigned old ch hash held => exact absurd (held.symm.trans h) (Option.some_ne_none _)
    | granted old ch held => exact absurd (held.symm.trans h) (Option.some_ne_none _)
    | other old held => exact absurd (held.symm.trans h) (Option.some_ne_none _)
  rcases hsent with hnil | ⟨msg, hmsg⟩
  · exact sends_isOther_nil hnil
  · rw [hmsg]
    intro bytes hb
    rw [List.mem_singleton.1 hb]
    exact isOther_registration msg

/-- A grant sends the first command of the queue, if there is one and the grant is not for another
channel. -/
theorem onReady_commands {frame : Frame} (hreg : self.registration.isRegistered = true)
    {channel : UInt8} (hm : dispatchFrame frame = .ready channel) :
    self.CommandEffect now (.processFrame frame) (self.onReady now channel) := by
  have htaken : self.takenCommand (.processFrame frame) =
      if self.registration.isRegistered ∧ self.clientId.all (· = channel) then
        self.commandQueue.head?
      else none := by
    rw [takenCommand, hm]
  have hheard : self.heardStatus (.processFrame frame) = none := by rw [heardStatus, hm]
  unfold onReady
  by_cases hother : self.clientId.any (· ≠ channel) = true
  · rw [if_pos hother]
    -- The grant is for another channel.
    have hnot : ¬ (self.registration.isRegistered = true ∧
        self.clientId.all (· = channel) = true) := by
      cases hid : self.clientId <;> simp_all
    exact .kept (.refl _) hheard (htaken.trans (if_neg hnot)) (sends_isOther_nil rfl)
  · rw [if_neg hother]
    have hown : self.registration.isRegistered = true ∧ self.clientId.all (· = channel) = true := by
      cases hid : self.clientId <;> simp_all
    rw [if_pos hown] at htaken
    dsimp only
    cases hqueue : self.commandQueue with
    | cons cmd queue =>
      rw [hqueue] at htaken
      exact .granted cmd queue hheard htaken hqueue rfl rfl rfl rfl rfl
    -- With an empty queue it answers that it has nothing to send.
    | nil =>
      rw [hqueue] at htaken
      cases self.clientId with
      | none => exact .kept ⟨hqueue.symm ▸ rfl, rfl, rfl, rfl⟩ hheard htaken (sends_isOther_nil rfl)
      | some cid =>
        refine .kept ⟨hqueue.symm ▸ rfl, rfl, rfl, rfl⟩ hheard htaken fun bytes hb => ?_
        rw [List.mem_singleton.1 hb]
        exact isOther_nothingToSend cid

/-- A frame has its effect on the commands. -/
theorem processFrame_commands (frame : Frame) :
    self.CommandEffect now (.processFrame frame) (self.processFrame now frame) := by
  unfold processFrame
  by_cases hreg : self.registration.isRegistered = true
  · rw [if_pos hreg]
    unfold processRegistered
    cases hm : dispatchFrame frame with
    | statusUpdate status =>
      refine .observed status ?_ (by rw [takenCommand, hm]) rfl
      rw [heardStatus, hm]
      exact if_pos hreg
    | ready channel => exact onReady_commands hreg hm
    | registration msg =>
      have htaken : self.takenCommand (.processFrame frame) = none := by rw [takenCommand, hm]
      have hheard : self.heardStatus (.processFrame frame) = none := by rw [heardStatus, hm]
      cases msg with
      | clientIdAssignment channel hash =>
        exact .kept ⟨rfl, rfl, rfl, rfl⟩ hheard htaken (sends_isOther_nil rfl)
      | _ => exact .kept (.refl _) hheard htaken (sends_isOther_nil rfl)
    | faultLogResponse faultLog =>
      exact .kept ⟨rfl, rfl, rfl, rfl⟩ (by rw [heardStatus, hm]) (by rw [takenCommand, hm])
        (sends_isOther_nil rfl)
    | _ =>
      exact .kept (.refl _) (by rw [heardStatus, hm]) (by rw [takenCommand, hm])
        (sends_isOther_nil rfl)
  · rw [if_neg hreg]
    -- Before the registration completes, no status is heard and nothing is taken.
    have hnone : self.channel = none :=
      RegistrationStateMachine.isRegistered_eq_false.1 (eq_false_of_ne_true hreg)
    refine .kept (processUnregistered_sameCommands frame) ?_ ?_
      (processUnregistered_isOther hnone frame)
    · rw [heardStatus]
      split
      · exact if_neg hreg
      · rfl
    · rw [takenCommand]
      split
      · exact if_neg fun h => hreg h.1
      · rfl

/-! ## `tick` -/

/-- The check of the registration leaves the commands alone. -/
theorem checkRegistration_sameCommands (now : Timestamp) :
    SameCommands self (self.checkRegistration now).2 := by
  have htimeout : SameCommands self (self.timeoutRegistration now).2 := by
    unfold timeoutRegistration
    split <;> exact ⟨rfl, rfl, rfl, rfl⟩
  have halert : ∀ s : SpaApp, SameCommands s (s.alertNoQuery now).2 := fun s => by
    unfold alertNoQuery
    split <;> exact ⟨rfl, rfl, rfl, rfl⟩
  unfold checkRegistration
  split
  · exact ⟨rfl, rfl, rfl, rfl⟩
  · exact htimeout.trans (halert _)

/-- A probe leaves the commands alone. -/
theorem probe_sameCommands (now : Timestamp) : SameCommands self (self.probe now).2 := by
  unfold probe
  split <;> exact ⟨rfl, rfl, rfl, rfl⟩

/-- The diagnostics leave the commands alone. -/
theorem checkDiagnostics_sameCommands (now : Timestamp) :
    SameCommands self (self.checkDiagnostics now).2 := by
  unfold checkDiagnostics
  split <;> exact ⟨rfl, rfl, rfl, rfl⟩

/-- The state holds the commands of the other, or none; and it has heard the same status. -/
def KeptOrDropped (app app' : SpaApp) : Prop :=
  SameCommands app app' ∨
    app'.commandQueue = [] ∧ app'.cmdTracker.pending = [] ∧ app'.lastStatus = app.lastStatus ∧
      app'.pumpTimers.Idle

/-- What keeps or drops the commands twice keeps or drops them. -/
theorem KeptOrDropped.trans {a b c : SpaApp} (h : KeptOrDropped a b) (h' : KeptOrDropped b c) :
    KeptOrDropped a c := by
  rcases h with h | ⟨hqueue, hpending, hstatus, hidle⟩ <;>
    rcases h' with h' | ⟨hqueue', hpending', hstatus', hidle'⟩
  · exact .inl (h.trans h')
  · exact .inr ⟨hqueue', hpending', hstatus'.trans h.status, hidle'⟩
  · refine .inr ⟨h'.queue.trans hqueue, h'.pending.trans hpending, h'.status.trans hstatus, ?_⟩
    rw [h'.timers]
    exact hidle
  · exact .inr ⟨hqueue', hpending', hstatus'.trans hstatus, hidle'⟩

/-- The check for lost grants keeps the commands or drops them. -/
theorem checkCts_commands (now : Timestamp) : KeptOrDropped self (self.checkCts now).2 := by
  unfold checkCts
  split
  · exact .inr ⟨rfl, rfl, rfl, PumpTimerManager.idle_cancelAll _⟩
  · exact .inl (.refl _)

/-- The check for stale data keeps the commands or drops them. -/
theorem checkStale_commands (now : Timestamp) : KeptOrDropped self (self.checkStale now).2 := by
  unfold checkStale
  split
  · exact .inr ⟨rfl, rfl, rfl, PumpTimerManager.idle_cancelAll _⟩
  · exact .inl (.refl _)

/-- `tick` keeps the commands or drops them, and sends probes only. -/
theorem tick_commands (self : SpaApp) (now : Timestamp) : KeptOrDropped self (self.tick now).2 ∧
    ∀ bytes ∈ sends (self.tick now).1, IsOther bytes := by
  refine ⟨?_, ?_⟩
  -- The steps of a tick one after the other.
  · have h1 : KeptOrDropped self (self.checkRegistration now).2 :=
      .inl (checkRegistration_sameCommands now)
    have h2 := h1.trans (checkCts_commands now)
    have h3 := h2.trans (.inl (probe_sameCommands now))
    have h4 := h3.trans (checkStale_commands now)
    exact h4.trans (.inl (checkDiagnostics_sameCommands now))
  · rw [(self.tick_link now).2]
    intro bytes hb
    -- The only frame is the probe.
    split at hb
    · cases hid : self.clientId with
      | none =>
        rw [hid] at hb
        exact absurd hb List.not_mem_nil
      | some cid =>
        rw [hid] at hb
        rw [List.mem_singleton.1 hb]
        exact isOther_nothingToSend cid
    · exact absurd hb List.not_mem_nil

/-! ## All calls -/

/-- What a call does to the commands. -/
theorem call_commands (self : SpaApp) (now : Timestamp) (c : AppCall) :
    self.CommandEffect now c (self.call now c) := by
  cases c with
  | processFrame frame => exact processFrame_commands frame
  | onMqttCommand cmd => exact .submitted cmd rfl rfl
  | tick =>
    obtain ⟨hkept | ⟨hqueue, hpending, hstatus, hidle⟩, hsent⟩ := self.tick_commands now
    · exact .kept hkept rfl rfl hsent
    · exact .dropped hqueue hpending hstatus hidle rfl rfl hsent
  | startPumpTimer pumpIndex minutes =>
    cases hcmd : (self.pumpTimers.startTimer pumpIndex minutes now).1 with
    | none =>
      have hresult : self.call now (.startPumpTimer pumpIndex minutes) =
          ([], { self with pumpTimers :=
            (self.pumpTimers.startTimer pumpIndex minutes now).2 }) := by
        rw [call, startPumpTimer]
        simp only [hcmd]
      rw [hresult]
      have htimers := PumpTimerManager.startTimer_eq_of_none hcmd
      exact .kept ⟨rfl, rfl, rfl, htimers⟩ rfl rfl (sends_isOther_nil rfl)
    | some cmd =>
      have hresult : self.call now (.startPumpTimer pumpIndex minutes) =
          ([.sendFrame (encodeCommand cmd)],
            { self with pumpTimers := (self.pumpTimers.startTimer pumpIndex minutes now).2 }) := by
        rw [call, startPumpTimer]
        simp only [hcmd]
      obtain ⟨item, rfl⟩ := PumpTimerManager.eq_toggleItem_of_startTimer hcmd
      rw [hresult]
      exact .pumpStarted pumpIndex minutes item rfl rfl rfl rfl rfl
  | setPreviousChannel channel => exact .kept ⟨rfl, rfl, rfl, rfl⟩ rfl rfl (sends_isOther_nil rfl)
  | resetRegistrationState clearCommands =>
    cases clearCommands with
    | false => exact .kept ⟨rfl, rfl, rfl, rfl⟩ rfl rfl (sends_isOther_nil rfl)
    | true =>
      exact .dropped rfl rfl rfl (PumpTimerManager.idle_cancelAll _) rfl rfl (sends_isOther_nil rfl)
  | forcePublish =>
    refine .kept ?_ rfl rfl (sends_isOther_nil self.forcePublish_silent.sent)
    unfold call forcePublish
    dsimp only
    split <;> exact ⟨rfl, rfl, rfl, rfl⟩
  | checkHeap freeHeap =>
    exact .kept ⟨rfl, rfl, rfl, rfl⟩ rfl rfl
      (sends_isOther_nil (self.checkHeap_silent now freeHeap).sent)

/-- A call does not both tell a status and take a command. -/
theorem takenCommand_of_heard {c : AppCall} {status : StatusUpdate}
    (h : self.heardStatus c = some status) : self.takenCommand c = none := by
  cases self.call_commands 0 c with
  | observed status heard taken result => exact taken
  | kept same heard taken sent => exact taken
  | dropped queue pending status timers heard taken sent => exact taken
  | granted cmd queue heard taken queued sent queue' status tracker timers =>
    exact absurd (h.symm.trans heard) (Option.some_ne_none _)
  | submitted cmd hcall result =>
    rw [hcall]
    rfl
  | pumpStarted pumpIndex minutes item hcall queue tracker status sent =>
    rw [hcall]
    rfl

/-- The command that is taken is the first one of the queue. -/
theorem head?_of_takenCommand {c : AppCall} {cmd : Command} (h : self.takenCommand c = some cmd) :
    self.commandQueue.head? = some cmd := by
  unfold takenCommand at h
  split at h
  · split at h
    · split at h
      · exact h
      · cases h
    · cases h
  · cases h

/-! ## The user's commands -/

/-- The queue after a command is appended, if there is room. -/
theorem enqueue_commands (cmd : Command) :
    ((self.enqueue cmd).commandQueue = self.commandQueue ∨
        (self.enqueue cmd).commandQueue = self.commandQueue ++ [cmd]) ∧
      (self.enqueue cmd).cmdTracker.pending = self.cmdTracker.pending ∧
      (self.enqueue cmd).lastStatus = self.lastStatus ∧
      (self.enqueue cmd).pumpTimers = self.pumpTimers := by
  unfold enqueue
  split
  · exact ⟨.inl rfl, rfl, rfl, rfl⟩
  · exact ⟨.inr rfl, rfl, rfl, rfl⟩

/-- The queue after the clock mode is appended, if it is. -/
theorem enqueueClockMode_commands (cmd : Command) :
    ((self.enqueueClockMode cmd).commandQueue = self.commandQueue ∨
        (∃ hour minute, cmd = .setTime hour minute true) ∧
          (self.enqueueClockMode cmd).commandQueue =
            self.commandQueue ++ [.setPreference preferenceClockMode 1]) ∧
      (self.enqueueClockMode cmd).cmdTracker.pending = self.cmdTracker.pending ∧
      (self.enqueueClockMode cmd).lastStatus = self.lastStatus ∧
      (self.enqueueClockMode cmd).pumpTimers = self.pumpTimers := by
  unfold enqueueClockMode
  split
  · rename_i hour minute
    split
    · exact ⟨.inl rfl, rfl, rfl, rfl⟩
    · obtain ⟨hqueue, hkept⟩ := self.enqueue_commands (.setPreference preferenceClockMode 1)
      exact ⟨hqueue.imp_right fun h => ⟨⟨hour, minute, rfl⟩, h⟩, hkept⟩
  · exact ⟨.inl rfl, rfl, rfl, rfl⟩

/-- What the user's command does to the queue: it replaces a queued `SetTemperature`, or cancels out
a queued toggle, or it is appended, with the clock mode before it, as far as there is room. -/
inductive QueueEffect (queue : List Command) (cmd : Command) (queue' : List Command) : Prop where
  | replaced (i : ℕ) (temp : UInt8) (eq : cmd = .setTemperature temp)
      (found : queue.findIdx? isSetTemperature = some i) (result : queue' = queue.set i cmd)
  | cancelled (item : ToggleItem) (eq : cmd = .toggleItem item) (queued : cmd ∈ queue)
      (result : queue' = queue.erase cmd)
  | appended (mode last : List Command)
      (toggle : ∀ item, cmd = .toggleItem item → cmd ∉ queue)
      (temperature : ∀ temp, cmd = .setTemperature temp → ∀ c ∈ queue, isSetTemperature c = false)
      (mode_eq : mode = [] ∨
        (∃ hour minute, cmd = .setTime hour minute true) ∧
          mode = [.setPreference preferenceClockMode 1])
      (last_eq : last = [] ∨ last = [cmd]) (result : queue' = queue ++ mode ++ last)

/-- A temperature that is queued was queued before, or it is the user's. -/
theorem QueueEffect.mem_temperature {queue queue' : List Command} {cmd c : Command}
    (h : QueueEffect queue cmd queue') (hc : c ∈ queue') (htemp : isSetTemperature c = true) :
    c ∈ queue ∨ c = cmd := by
  cases h with
  | replaced i temp eq found result =>
    rw [result] at hc
    exact List.mem_or_eq_of_mem_set hc
  | cancelled item eq queued result =>
    rw [result] at hc
    exact .inl (List.mem_of_mem_erase hc)
  | appended mode last toggle temperature mode_eq last_eq result =>
    rw [result, List.mem_append, List.mem_append] at hc
    rcases hc with (hc | hc) | hc
    · exact .inl hc
    · rcases mode_eq with rfl | ⟨-, rfl⟩
      · exact absurd hc List.not_mem_nil
      · rw [List.mem_singleton.1 hc] at htemp
        exact absurd htemp Bool.false_ne_true
    · rcases last_eq with rfl | rfl
      · exact absurd hc List.not_mem_nil
      · exact .inr (List.mem_singleton.1 hc)

/-- A toggle brings no clock mode command along. -/
@[simp] theorem enqueueClockMode_toggleItem (self : SpaApp) (item : ToggleItem) :
    self.enqueueClockMode (.toggleItem item) = self := rfl

/-- The first set temperature in the queue is replaced. -/
theorem replaceTemperature_setTemperature (queue : List Command) (temp : UInt8) :
    replaceTemperature queue (.setTemperature temp) =
      (queue.findIdx? isSetTemperature).map fun i => queue.set i (.setTemperature temp) :=
  if_pos rfl

/-- Only a temperature replaces one. -/
theorem replaceTemperature_eq_some {queue queue' : List Command} {cmd : Command}
    (h : replaceTemperature queue cmd = some queue') :
    ∃ i temp, cmd = .setTemperature temp ∧ queue.findIdx? isSetTemperature = some i ∧
      queue' = queue.set i cmd := by
  cases cmd with
  | setTemperature temp =>
    rw [replaceTemperature_setTemperature] at h
    obtain ⟨i, hi, rfl⟩ := Option.map_eq_some_iff.1 h
    exact ⟨i, temp, rfl, hi, rfl⟩
  | _ => cases h

/-- Only a toggle cancels one out. -/
theorem cancelToggle_eq_some {queue queue' : List Command} {cmd : Command}
    (h : cancelToggle queue cmd = some queue') :
    ∃ item, cmd = .toggleItem item ∧ cmd ∈ queue ∧ queue' = queue.erase cmd := by
  cases cmd with
  | toggleItem item =>
    rw [cancelToggle] at h
    split at h
    · rename_i hmem
      cases h
      exact ⟨item, rfl, hmem, rfl⟩
    · cases h
  | _ => cases h

/-- The user's command is queued; it leaves the pending ones and the timers, and sends nothing. -/
theorem onMqttCommand_commands (self : SpaApp) (cmd : Command) :
    QueueEffect self.commandQueue cmd (self.onMqttCommand cmd).2.commandQueue ∧
      (self.onMqttCommand cmd).2.cmdTracker.pending = self.cmdTracker.pending ∧
      (self.onMqttCommand cmd).2.lastStatus = self.lastStatus ∧
      (self.onMqttCommand cmd).2.pumpTimers = self.pumpTimers ∧
      sends (self.onMqttCommand cmd).1 = [] := by
  obtain ⟨hmode, hpending, hstatus, htimers⟩ := self.enqueueClockMode_commands cmd
  unfold onMqttCommand
  cases hreplace : replaceTemperature self.commandQueue cmd with
  | some queue =>
    -- A queued temperature is replaced.
    obtain ⟨i, temp, heq, hi, rfl⟩ := replaceTemperature_eq_some hreplace
    exact ⟨.replaced i temp heq hi rfl, rfl, rfl, rfl, rfl⟩
  | none =>
    dsimp only
    cases hcancel : cancelToggle (self.enqueueClockMode cmd).commandQueue cmd with
    | some queue =>
      -- A queued toggle is cancelled out.
      obtain ⟨item, rfl, hmem, rfl⟩ := cancelToggle_eq_some hcancel
      exact ⟨.cancelled item rfl hmem rfl, hpending, hstatus, htimers, rfl⟩
    | none =>
      -- Otherwise the command goes to the end, if there is room.
      obtain ⟨hlast, hpending', hstatus', htimers'⟩ :=
        (self.enqueueClockMode cmd).enqueue_commands cmd
      refine ⟨?_, hpending'.trans hpending, hstatus'.trans hstatus, htimers'.trans htimers, rfl⟩
      have htoggle : ∀ item, cmd = .toggleItem item → cmd ∉ self.commandQueue := by
        rintro item rfl hmem
        rw [enqueueClockMode_toggleItem, cancelToggle, if_pos hmem] at hcancel
        cases hcancel
      have htemp : ∀ temp, cmd = .setTemperature temp →
          ∀ c ∈ self.commandQueue, isSetTemperature c = false := by
        rintro temp rfl c hc
        rw [replaceTemperature_setTemperature, Option.map_eq_none_iff] at hreplace
        exact List.findIdx?_eq_none_iff.1 hreplace c hc
      rcases hmode with hmode | ⟨htime, hmode⟩ <;> rcases hlast with hlast | hlast
      · exact .appended [] [] htoggle htemp (.inl rfl) (.inl rfl) (by rw [hlast, hmode]; simp)
      · exact .appended [] [cmd] htoggle htemp (.inl rfl) (.inr rfl) (by rw [hlast, hmode]; simp)
      · exact .appended _ [] htoggle htemp (.inr ⟨htime, rfl⟩) (.inl rfl)
          (by rw [hlast, hmode]; simp)
      · exact .appended _ [cmd] htoggle htemp (.inr ⟨htime, rfl⟩) (.inr rfl) (by rw [hlast, hmode])

/-- A call that tells no status leaves the last one. -/
theorem lastStatus_of_unheard {c : AppCall} (h : self.heardStatus c = none) :
    (self.call now c).2.lastStatus = self.lastStatus := by
  cases self.call_commands now c with
  | kept same heard taken sent => exact same.status
  | observed status heard taken result => exact absurd (heard.symm.trans h) (Option.some_ne_none _)
  | granted cmd queue heard taken queued sent queue' status tracker timers => exact status
  | dropped queue pending status timers heard taken sent => exact status
  | pumpStarted pumpIndex minutes item hcall queue tracker status sent => exact status
  | submitted cmd hcall result =>
    rw [result]
    exact (self.onMqttCommand_commands cmd).2.2.1

/-- A temperature that is sent is taken from the queue by a grant. -/
theorem takenCommand_of_setsTemperature {c : AppCall} {bytes : List UInt8} {temp : UInt8}
    (hbytes : bytes ∈ sends (self.call now c).1) (hsets : SetsTemperature temp bytes) :
    self.takenCommand c = some (.setTemperature temp) := by
  cases self.call_commands now c with
  | granted cmd queue heard taken queued sent queue' status tracker timers =>
    rw [sent, List.mem_singleton] at hbytes
    subst hbytes
    obtain ⟨rfl, -⟩ := setsTemperature_encodeCommand.1 hsets
    exact taken
  | submitted cmd hcall result =>
    rw [result, (onMqttCommand_commands _ cmd).2.2.2.2] at hbytes
    exact absurd hbytes List.not_mem_nil
  | observed status heard taken result =>
    rw [result] at hbytes
    exact absurd hbytes List.not_mem_nil
  | pumpStarted pumpIndex minutes item hcall queue tracker status sent =>
    rw [sent, List.mem_singleton] at hbytes
    subst hbytes
    exact Command.noConfusion (setsTemperature_encodeCommand.1 hsets).1
  | kept same heard taken sent => exact absurd hsets ((sent bytes hbytes).2 temp)
  | dropped queue pending status timers heard taken sent =>
    exact absurd hsets ((sent bytes hbytes).2 temp)

/-! ## An app that is connected -/

/-- The frame of a status with some bytes, and zero elsewhere. -/
def statusFrame (bytes : List (ℕ × UInt8)) : Frame :=
  ⟨(0xFF, 0xAF), bytes.foldl (fun payload b => payload.set b.1 b.2) (List.replicate 24 0)⟩

/-- A status with some bytes. -/
def statusAt (now : Timestamp) (bytes : List (ℕ × UInt8)) : Timestamp × AppCall :=
  (now, .processFrame (statusFrame bytes))

/-- The calls that register a new app on a channel, and a first status. -/
def connect : List (Timestamp × AppCall) :=
  [(0, .processFrame ⟨(0xFE, 0xBF), [0x00]⟩),
    (0, .processFrame ⟨(0xFE, 0xBF), [0x02, 0x10, 0x00, 0x01]⟩), statusAt 100 []]

/-- A grant of the channel. -/
def grant (now : Timestamp) : Timestamp × AppCall := (now, .processFrame ⟨(0x10, 0xBF), [0x06]⟩)

end SpaApp

end Launa.Core
