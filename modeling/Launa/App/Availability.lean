import Launa.App.MqttTask
import Launa.Core.CommandEffects
import Launa.Core.StaleLatch

/-!
# The availability on the broker

The main loop does what the app asks for, of which the states that it publishes go to the MQTT task
through a channel of four messages; the task takes them at times of its own. The availability that
it publishes with a message is stale when the message is marked as a recovery, while the mark that
the app makes with a loss is dropped. `run_mirrors_iff` has the availability mirror the latch of the
app, however the task is scheduled, exactly when no tick of the app finds the spa lost.
-/

namespace Launa.App

open Launa.Core Protocol Run

/-! ## `main.rs` -/

/-- The capacity of `STATE_CHANNEL`. -/
def stateChannelCapacity : ℕ := 4

/-- `try_send`: a message to a channel that is full is dropped. -/
def trySend (channel : List StateMessage) (msg : StateMessage) : List StateMessage :=
  if channel.length < stateChannelCapacity then channel ++ [msg] else channel

/-- `execute_actions` on one action, as far as `STATE_CHANNEL` goes. -/
def executeAction (sniffMode : Bool) (wifiRssi : Option Int32) (channel : List StateMessage) :
    AppAction → List StateMessage
  | .publishState status fault recoveringFromStale registrationState =>
    trySend channel {
      status := status
      fault := fault.elim .empty FaultBuf.fromString
      recoveringFromStale := recoveringFromStale
      sniffMode := sniffMode
      wifiRssi := wifiRssi
      registrationState := registrationState.toList }
  -- Left to the task, when it sees a message that is stale.
  | .publishStaleAvailability => channel
  | _ => channel

/-- `execute_actions`. -/
def executeActions (actions : List AppAction) (sniffMode : Bool) (wifiRssi : Option Int32)
    (channel : List StateMessage) : List StateMessage :=
  actions.foldl (executeAction sniffMode wifiRssi) channel

/-- The app, the messages on their way, and the MQTT task. -/
structure Device where
  app : SpaApp
  stateChannel : List StateMessage
  task : MqttTask

/-- What happens in the device: the main loop makes a call of the app, or the task does something.
-/
inductive DeviceEvent where
  | call (now : Timestamp) (c : AppCall) (sniffMode : Bool) (wifiRssi : Option Int32)
  | receive (sent : Sent)
  | reconnect (sent : Sent)
  | homeAssistantOnline (sent : Sent)

namespace Device

/-- The device at its start. -/
def new (now : Timestamp) (clientHash : ClientHash) : Device where
  app := .withClientHash now clientHash
  stateChannel := []
  task := .new

/-- What an event does. -/
def step (r : Rounding) (firmware : List Char) (self : Device) : DeviceEvent → Device
  | .call now c sniffMode wifiRssi =>
    let (actions, app) := self.app.call now c
    { self with
      app := app
      stateChannel := executeActions actions sniffMode wifiRssi self.stateChannel }
  | .receive sent =>
    match self.stateChannel with
    | [] => self
    | msg :: rest =>
      { self with
        stateChannel := rest
        task := self.task.onStateMessage r firmware sent msg }
  | .reconnect sent => { self with task := self.task.reconnectAndSync firmware sent }
  | .homeAssistantOnline sent => { self with task := self.task.onHomeAssistantOnline sent }

/-- The availability is that of the spa: stale or offline while it is lost, and else online. -/
def Mirrors (self : Device) : Prop :=
  if self.app.wasStale then
    self.task.mqtt.availability = some .stale ∨ self.task.mqtt.availability = some .offline
  else self.task.mqtt.availability = some .online

instance (self : Device) : Decidable self.Mirrors :=
  inferInstanceAs (Decidable (if self.app.wasStale then
    self.task.mqtt.availability = some .stale ∨ self.task.mqtt.availability = some .offline
  else self.task.mqtt.availability = some .online))

/-- The availability is that of the spa whenever the task has taken a message and published it. -/
def MirrorsAlong (r : Rounding) (firmware : List Char) (self : Device) (events : List DeviceEvent) :
    Prop :=
  ∀ pre sent post, events = pre ++ .receive sent :: post → sent.availability = true →
    (pre.foldl (step r firmware) self).stateChannel ≠ [] →
    ((pre ++ [.receive sent]).foldl (step r firmware) self).Mirrors

end Device

/-- The calls of the app among some events. -/
def appCalls (events : List DeviceEvent) : List (Timestamp × AppCall) :=
  events.filterMap fun
    | .call now c _ _ => some (now, c)
    | _ => none

/-! ## The channel -/

variable {r : Rounding} {firmware : List Char} {sniffMode : Bool} {wifiRssi : Option Int32}
  {channel : List StateMessage}

/-- The calls of two lists of events are put behind each other. -/
theorem appCalls_append (events events' : List DeviceEvent) :
    appCalls (events ++ events') = appCalls events ++ appCalls events' := List.filterMap_append

/-- A message of the channel was in it, or was sent. -/
theorem mem_trySend {msg msg' : StateMessage} (h : msg ∈ trySend channel msg') :
    msg ∈ channel ∨ msg = msg' := by
  unfold trySend at h
  split at h
  · exact (List.mem_append.1 h).imp_right List.mem_singleton.1
  · exact .inl h

/-- A message keeps the channel within its capacity. -/
theorem trySend_length_le {msg : StateMessage} (h : channel.length ≤ stateChannelCapacity) :
    (trySend channel msg).length ≤ stateChannelCapacity := by
  unfold trySend
  split
  · rw [List.length_append, List.length_singleton]
    assumption
  · exact h

/-- After a message the channel is not empty. -/
theorem trySend_ne_nil (channel : List StateMessage) (msg : StateMessage) :
    trySend channel msg ≠ [] := by
  unfold trySend
  split
  · exact List.append_ne_nil_of_right_ne_nil _ (List.cons_ne_nil _ _)
  · rename_i hfull
    rintro rfl
    exact hfull (by decide)

/-- What a message reports: its status, and whether it is marked as a recovery. -/
def StateMessage.report (msg : StateMessage) : StatusUpdate × Bool :=
  (msg.status, msg.recoveringFromStale)

/-- An action other than a state leaves the channel. -/
theorem executeAction_cases (sniffMode : Bool) (wifiRssi : Option Int32)
    (channel : List StateMessage) (action : AppAction) :
    (reports [action] = [] ∧ executeAction sniffMode wifiRssi channel action = channel) ∨
      ∃ msg : StateMessage, reports [action] = [msg.report] ∧
        executeAction sniffMode wifiRssi channel action = trySend channel msg := by
  cases action with
  | publishState status fault recoveringFromStale registrationState => exact .inr ⟨_, rfl, rfl⟩
  | _ => exact .inl ⟨rfl, rfl⟩

/-- A message of the channel was in it, or is a report of the actions. -/
theorem executeActions_reports (actions : List AppAction) (channel : List StateMessage) :
    ∀ msg ∈ executeActions actions sniffMode wifiRssi channel,
      msg ∈ channel ∨ msg.report ∈ reports actions := by
  induction actions generalizing channel with
  | nil => exact fun msg hmsg => .inl hmsg
  | cons action actions ih =>
    intro msg hmsg
    have hreports : reports (action :: actions) = reports [action] ++ reports actions :=
      reports_append [action] actions
    rw [hreports, List.mem_append]
    rcases ih _ msg hmsg with hchannel | hrest
    · rcases executeAction_cases sniffMode wifiRssi channel action with
        ⟨-, hkept⟩ | ⟨msg', hreport, hsent⟩
      · exact .inl (hkept ▸ hchannel)
      · rw [hsent] at hchannel
        rcases mem_trySend hchannel with hmem | rfl
        · exact .inl hmem
        · exact .inr (.inl (hreport ▸ List.mem_singleton_self _))
    · exact .inr (.inr hrest)

/-- Actions keep the channel within its capacity. -/
theorem executeActions_length_le (sniffMode : Bool) (wifiRssi : Option Int32)
    (actions : List AppAction) (h : channel.length ≤ stateChannelCapacity) :
    (executeActions actions sniffMode wifiRssi channel).length ≤ stateChannelCapacity := by
  induction actions generalizing channel with
  | nil => exact h
  | cons action actions ih =>
    refine ih ?_
    rcases executeAction_cases sniffMode wifiRssi channel action with
      ⟨-, hkept⟩ | ⟨msg, -, hsent⟩
    · rwa [hkept]
    · rw [hsent]
      exact trySend_length_le h

/-- A state that is published is in the channel, or finds it full. -/
theorem executeActions_ne_nil {actions : List AppAction}
    (h : channel ≠ [] ∨ reports actions ≠ []) :
    executeActions actions sniffMode wifiRssi channel ≠ [] := by
  induction actions generalizing channel with
  | nil => exact h.resolve_right fun hnot => hnot rfl
  | cons action actions ih =>
    refine ih ?_
    rcases executeAction_cases sniffMode wifiRssi channel action with
      ⟨hreport, hkept⟩ | ⟨msg, -, hsent⟩
    · have hreports : reports (action :: actions) = reports actions :=
        (reports_append [action] actions).trans (by rw [hreport, List.nil_append])
      rwa [hkept, ← hreports]
    · rw [hsent]
      exact .inl (trySend_ne_nil _ _)

/-! ## The task -/

/-- A message publishes its mark. -/
theorem MqttTask.onStateMessage_availability (task : MqttTask) {sent : Sent}
    (hsent : sent.availability = true) (msg : StateMessage) :
    (task.onStateMessage r firmware sent msg).mqtt.availability =
      some (if msg.recoveringFromStale then .stale else .online) := by
  unfold MqttTask.onStateMessage MqttClient.publishAvailability MqttClient.publishAvailabilityStale
  dsimp only
  rw [if_pos hsent, if_pos hsent]
  split <;> rfl

namespace Device

/-! ## What the messages report -/

/-- The channel keeps to its capacity, the last status is known with its time, and the statuses of
the app and of the messages have been parsed. -/
structure WellFormed (device : Device) : Prop where
  capacity : device.stateChannel.length ≤ stateChannelCapacity
  known : device.app.lastStatusTime ≠ none → device.app.lastStatus ≠ none
  last : ∀ status ∈ device.app.lastStatus, ∃ payload, StatusUpdate.parse payload = .ok status
  messages : ∀ msg ∈ device.stateChannel, ∃ payload, StatusUpdate.parse payload = .ok msg.status

variable {self : Device}

/-- A new device is well formed. -/
theorem new_wellFormed (now : Timestamp) (clientHash : ClientHash) :
    (new now clientHash).WellFormed where
  capacity := Nat.zero_le _
  known h := absurd rfl h
  last _ h := by cases h
  messages _ h := absurd h List.not_mem_nil

/-- A call keeps the device well formed. -/
theorem WellFormed.call (h : self.WellFormed) (now : Timestamp) (c : AppCall) (sniffMode : Bool)
    (wifiRssi : Option Int32) :
    (self.step r firmware (.call now c sniffMode wifiRssi)).WellFormed := by
  -- A message of the channel was there before, or it is a report of the call.
  have hmessages : (∀ report ∈ reports (self.app.call now c).1,
      ∃ payload, StatusUpdate.parse payload = .ok report.1) →
      ∀ msg ∈ executeActions (self.app.call now c).1 sniffMode wifiRssi self.stateChannel,
        ∃ payload, StatusUpdate.parse payload = .ok msg.status := fun hall msg hmsg =>
    (executeActions_reports _ _ msg hmsg).elim (h.messages msg) (hall _)
  have hcapacity := executeActions_length_le sniffMode wifiRssi (self.app.call now c).1 h.capacity
  cases self.app.call_status now c with
  | kept keeps found =>
    refine ⟨hcapacity, ?_, fun status hlast => h.last status (keeps.status ▸ hlast), hmessages ?_⟩
    · show (self.app.call now c).2.lastStatusTime ≠ none → (self.app.call now c).2.lastStatus ≠ none
      rw [keeps.time, keeps.status]
      exact h.known
    · rw [keeps.reported]
      exact fun report hreport => absurd hreport List.not_mem_nil
  | forced status known reported same found =>
    refine ⟨hcapacity, ?_, fun status hlast => h.last status (same ▸ hlast), hmessages ?_⟩
    · show (self.app.call now c).2.lastStatusTime ≠ none → (self.app.call now c).2.lastStatus ≠ none
      rw [same]
      exact h.known
    · rw [reported]
      intro report hreport
      rw [List.mem_singleton.1 hreport]
      exact h.last status known
  | heard status parsed reported stale known found =>
    refine ⟨hcapacity, fun _ hnone => ?_, fun status' hlast => ?_, hmessages ?_⟩
    · exact absurd (known.symm.trans hnone) (Option.some_ne_none _)
    · obtain rfl : status = status' := Option.some.inj (known.symm.trans hlast)
      exact parsed
    · rw [reported]
      intro report hreport
      rw [List.mem_singleton.1 hreport]
      exact parsed
  -- The status that is published with a loss was the last one.
  | lost found reported stale status time =>
    refine ⟨hcapacity, ?_, fun status' hlast => h.last status' (status ▸ hlast), hmessages ?_⟩
    · show (self.app.call now c).2.lastStatusTime ≠ none → (self.app.call now c).2.lastStatus ≠ none
      rw [time, status]
      exact h.known
    · rw [reported]
      intro report hreport
      obtain ⟨status', hlast, rfl⟩ := List.mem_map.1 hreport
      exact h.last status' (Option.mem_toList.1 hlast)

/-- A message that is taken leaves the channel. -/
theorem receive_stateChannel (sent : Sent) :
    (self.step r firmware (.receive sent)).stateChannel = self.stateChannel.tail := by
  unfold step
  cases h : self.stateChannel with
  | nil => exact h
  | cons msg rest => rfl

/-- The task leaves the app alone. -/
theorem receive_app (sent : Sent) : (self.step r firmware (.receive sent)).app = self.app := by
  unfold step
  cases self.stateChannel <;> rfl

/-- The statuses of all messages of a run have been parsed. -/
theorem WellFormed.step (h : self.WellFormed) (event : DeviceEvent) :
    (self.step r firmware event).WellFormed := by
  cases event with
  | call now c sniffMode wifiRssi => exact h.call now c sniffMode wifiRssi
  | receive sent =>
    constructor
    · rw [receive_stateChannel, List.length_tail]
      exact (Nat.sub_le _ _).trans h.capacity
    · rw [receive_app]
      exact h.known
    · rw [receive_app]
      exact h.last
    · rw [receive_stateChannel]
      exact fun msg hmsg => h.messages msg (List.mem_of_mem_tail hmsg)
  | reconnect sent => exact ⟨h.capacity, h.known, h.last, h.messages⟩
  | homeAssistantOnline sent => exact ⟨h.capacity, h.known, h.last, h.messages⟩

/-- Every run keeps the device well formed. -/
theorem WellFormed.run (h : self.WellFormed) (events : List DeviceEvent) :
    (events.foldl (Device.step r firmware) self).WellFormed :=
  Run.invariant (fun _ event hself => hself.step event) h events

/-! ## While the spa is not lost -/

/-- The latch is not set, and no message is marked as a recovery. -/
structure Calm (device : Device) : Prop where
  latch : device.app.wasStale = false
  marks : ∀ msg ∈ device.stateChannel, msg.recoveringFromStale = false

/-- A new device is calm. -/
theorem new_calm (now : Timestamp) (clientHash : ClientHash) : (new now clientHash).Calm :=
  ⟨rfl, fun _ h => absurd h List.not_mem_nil⟩

/-- A call that does not find the spa lost sends no recovery. -/
theorem Calm.call (h : self.Calm) {now : Timestamp} {c : AppCall}
    (hfound : self.app.findsLost now c = false) (sniffMode : Bool) (wifiRssi : Option Int32) :
    (self.step r firmware (.call now c sniffMode wifiRssi)).Calm := by
  have hmarks : (∀ report ∈ reports (self.app.call now c).1, report.2 = false) →
      ∀ msg ∈ executeActions (self.app.call now c).1 sniffMode wifiRssi self.stateChannel,
        msg.recoveringFromStale = false := fun hall msg hmsg =>
    (executeActions_reports _ _ msg hmsg).elim (h.marks msg) (hall _)
  cases self.app.call_status now c with
  | kept keeps found =>
    refine ⟨keeps.stale.trans h.latch, hmarks ?_⟩
    rw [keeps.reported]
    exact fun report hreport => absurd hreport List.not_mem_nil
  | forced status known reported same found =>
    refine ⟨(congrArg SpaApp.wasStale same).trans h.latch, hmarks ?_⟩
    rw [reported]
    exact fun report hreport => congrArg Prod.snd (List.mem_singleton.1 hreport)
  -- The status is no recovery, since the latch is not set.
  | heard status parsed reported stale known found =>
    refine ⟨stale, hmarks ?_⟩
    rw [reported, h.latch]
    exact fun report hreport => congrArg Prod.snd (List.mem_singleton.1 hreport)
  | lost found => exact absurd (found.symm.trans hfound) (by decide)

/-- The task keeps the device calm. -/
theorem Calm.receive (h : self.Calm) (sent : Sent) :
    (self.step r firmware (.receive sent)).Calm := by
  constructor
  · rw [receive_app]
    exact h.latch
  · rw [receive_stateChannel]
    exact fun msg hmsg => h.marks msg (List.mem_of_mem_tail hmsg)

/-- The calls of the app are a run of it. -/
theorem run_app (events : List DeviceEvent) (self : Device) :
    (events.foldl (step r firmware) self).app = (appCalls events).foldl SpaApp.step self.app := by
  induction events generalizing self with
  | nil => rfl
  | cons event events ih =>
    rw [List.foldl_cons, ih]
    cases event with
    | call now c sniffMode wifiRssi => rfl
    | receive sent =>
      rw [receive_app]
      rfl
    | reconnect sent => rfl
    | homeAssistantOnline sent => rfl

/-- No tick finds the spa lost. -/
def NeverLost (app : SpaApp) (calls : List (Timestamp × AppCall)) : Prop :=
  Along SpaApp.step (fun app c => app.findsLost c.1 c.2 = false) app calls

/-- A run that never loses the spa keeps the device calm. -/
theorem Calm.run (h : self.Calm) {events : List DeviceEvent}
    (hcalls : NeverLost self.app (appCalls events)) :
    (events.foldl (step r firmware) self).Calm := by
  induction events generalizing self with
  | nil => exact h
  | cons event events ih =>
    rw [List.foldl_cons]
    cases event with
    | call now c sniffMode wifiRssi => exact ih (h.call hcalls.1 _ _) hcalls.2
    | receive sent =>
      refine ih (h.receive sent) ?_
      rw [receive_app]
      exact hcalls
    | reconnect sent => exact ih ⟨h.latch, h.marks⟩ hcalls
    | homeAssistantOnline sent => exact ih ⟨h.latch, h.marks⟩ hcalls

/-- A message that is not marked has the availability online. -/
theorem Calm.mirrors (h : self.Calm) {sent : Sent} (hsent : sent.availability = true)
    (hchannel : self.stateChannel ≠ []) : (self.step r firmware (.receive sent)).Mirrors := by
  obtain ⟨msg, rest, hcons⟩ := List.exists_cons_of_ne_nil hchannel
  have hmark : msg.recoveringFromStale = false := h.marks msg (hcons ▸ List.mem_cons_self)
  have hstep : self.step r firmware (.receive sent) =
      { self with stateChannel := rest, task := self.task.onStateMessage r firmware sent msg } := by
    rw [step, hcons]
  rw [hstep, Mirrors, if_neg (by rw [h.latch]; decide)]
  exact (self.task.onStateMessage_availability hsent msg).trans (by rw [hmark]; rfl)

/-! ## When the spa is lost -/

/-- The last status that has been lost is known, since it is old. -/
theorem WellFormed.known_of_findsLost (h : self.WellFormed) {now : Timestamp} {c : AppCall}
    (hfound : self.app.findsLost now c = true) : self.app.lastStatus ≠ none := by
  refine h.known fun htime => ?_
  cases c with
  | tick =>
    rw [SpaApp.findsLost, SpaApp.elapsedAtLeast, htime] at hfound
    exact absurd hfound Bool.false_ne_true
  | _ => exact absurd hfound Bool.false_ne_true

/-- The last status is published with a loss, without a mark, and the task takes it for online. -/
theorem Calm.not_mirrors_of_lost (h : self.Calm) (hw : self.WellFormed)
    (hempty : self.stateChannel = []) {now : Timestamp}
    {c : AppCall} (hfound : self.app.findsLost now c = true) (r : Rounding) (firmware : List Char)
    (sniffMode : Bool) (wifiRssi : Option Int32) (sent : Sent) (hsent : sent.availability = true) :
    (self.step r firmware (.call now c sniffMode wifiRssi)).stateChannel ≠ [] ∧
      ¬ ((self.step r firmware (.call now c sniffMode wifiRssi)).step r firmware
        (.receive sent)).Mirrors := by
  have hcontra : ∀ {P : Prop}, self.app.findsLost now c = false → P := fun hnot =>
    absurd (hfound.symm.trans hnot) (by decide)
  have heffect := self.app.call_status now c
  cases heffect with
  | kept keeps found => exact absurd ((found hfound).symm.trans h.latch) (by decide)
  | forced status known reported same found => exact hcontra found
  | heard status parsed reported stale known found => exact hcontra found
  | lost found reported stale status time =>
    obtain ⟨last, hlast⟩ := Option.ne_none_iff_exists'.1 (hw.known_of_findsLost hfound)
    rw [hlast] at reported
    have hchannel :
        executeActions (self.app.call now c).1 sniffMode wifiRssi self.stateChannel ≠ [] :=
      executeActions_ne_nil (.inr (by rw [reported]; exact List.cons_ne_nil _ _))
    refine ⟨hchannel, ?_⟩
    obtain ⟨msg, rest, hcons⟩ := List.exists_cons_of_ne_nil hchannel
    have hmark : msg.recoveringFromStale = false := by
      have hmem :
          msg ∈ executeActions (self.app.call now c).1 sniffMode wifiRssi self.stateChannel :=
        hcons ▸ List.mem_cons_self
      rcases executeActions_reports _ _ msg hmem with hold | hreport
      · rw [hempty] at hold
        exact absurd hold List.not_mem_nil
      · rw [reported] at hreport
        exact congrArg Prod.snd (List.mem_singleton.1 hreport)
    have hstep : (self.step r firmware (.call now c sniffMode wifiRssi)).step r firmware
        (.receive sent) = { self with
          app := (self.app.call now c).2
          stateChannel := rest
          task := self.task.onStateMessage r firmware sent msg } := by
      show Device.step r firmware { self with
        app := (self.app.call now c).2
        stateChannel :=
          executeActions (self.app.call now c).1 sniffMode wifiRssi self.stateChannel }
        (.receive sent) = _
      rw [hcons]
      rfl
    have honline :
        (self.task.onStateMessage r firmware sent msg).mqtt.availability = some .online :=
      (self.task.onStateMessage_availability hsent msg).trans (by rw [hmark]; rfl)
    rw [hstep, Mirrors, if_pos stale, honline]
    decide

/-- A call, after which the task takes all messages. -/
def prompt (c : Timestamp × AppCall) : List DeviceEvent :=
  .call c.1 c.2 false none :: List.replicate stateChannelCapacity (.receive .all)

/-- The task takes a message from the channel each time. -/
theorem receives_stateChannel (n : ℕ) (self : Device) :
    ((List.replicate n (.receive .all)).foldl (step r firmware) self).stateChannel =
      self.stateChannel.drop n := by
  induction n generalizing self with
  | zero => rfl
  | succ n ih =>
    rw [List.replicate_succ, List.foldl_cons, ih, receive_stateChannel, List.drop_tail]

/-- A task that is prompt leaves the calls of the app as they are. -/
theorem appCalls_prompt (calls : List (Timestamp × AppCall)) :
    appCalls (calls.flatMap prompt) = calls := by
  induction calls with
  | nil => rfl
  | cons c calls ih =>
    rw [List.flatMap_cons, appCalls_append, ih]
    rfl

/-- The messages of every call have been taken. -/
theorem prompt_drains (hw : self.WellFormed) (hempty : self.stateChannel = [])
    (calls : List (Timestamp × AppCall)) :
    ((calls.flatMap prompt).foldl (step r firmware) self).stateChannel = [] := by
  induction calls generalizing self with
  | nil => exact hempty
  | cons c calls ih =>
    rw [List.flatMap_cons, List.foldl_append]
    refine ih (hw.run (prompt c)) ?_
    rw [prompt, List.foldl_cons, receives_stateChannel]
    exact List.drop_eq_nil_of_le (hw.call c.1 c.2 false none).capacity

/-- However the task is scheduled and whatever becomes of its publishes, the availability mirrors
the latch of the app after every message, exactly when no tick finds the spa lost. -/
theorem run_mirrors_iff (r : Rounding) (firmware : List Char) (now : Timestamp)
    (clientHash : ClientHash) (calls : List (Timestamp × AppCall)) :
    (∀ events, appCalls events = calls → MirrorsAlong r firmware (new now clientHash) events) ↔
      NeverLost (.withClientHash now clientHash) calls := by
  have hcalm := new_calm now clientHash
  constructor
  · intro h
    by_contra hlost
    obtain ⟨pre, c, post, rfl, hpre, hc⟩ := exists_first_of_not_along hlost
    have hfound := eq_true_of_ne_false hc
    -- The task keeps up with the app until the loss.
    have happ : ((pre.flatMap prompt).foldl (step r firmware) (new now clientHash)).app =
        pre.foldl SpaApp.step (.withClientHash now clientHash) := by
      rw [run_app, appCalls_prompt]
      rfl
    have hbefore : ((pre.flatMap prompt).foldl (step r firmware) (new now clientHash)).Calm :=
      hcalm.run (by rw [appCalls_prompt]; exact hpre)
    have hwell := new_wellFormed now clientHash
    have hbroken := hbefore.not_mirrors_of_lost (hwell.run _) (prompt_drains hwell rfl pre)
      (by rw [happ]; exact hfound) r firmware false none .all rfl
    have hcalls : appCalls (pre.flatMap prompt ++ .call c.1 c.2 false none :: .receive .all ::
        post.map fun c => .call c.1 c.2 false none) = pre ++ c :: post := by
      have hpost : appCalls (post.map fun c => .call c.1 c.2 false none) = post := by
        rw [appCalls, List.filterMap_map]
        exact List.filterMap_some
      rw [appCalls_append, appCalls_prompt]
      exact congrArg (pre ++ c :: ·) hpost
    -- After the loss the task takes one more message, and marks the spa as online.
    have hmirrors := h _ hcalls (pre.flatMap prompt ++ [.call c.1 c.2 false none]) .all _
      (by rw [List.append_assoc]; rfl) rfl
    simp only [List.foldl_concat] at hmirrors
    exact hbroken.2 (hmirrors hbroken.1)
  · rintro h events rfl pre sent post rfl hsent hchannel
    -- A run without a loss stays calm.
    rw [appCalls_append] at h
    rw [List.foldl_concat]
    exact (hcalm.run ((along_append _ _ _ _).1 h).1).mirrors hsent hchannel

/-- The events of some calls, after each of which the task takes its message. -/
def promptly (calls : List (Timestamp × AppCall)) : List DeviceEvent :=
  calls.flatMap fun c => [.call c.1 c.2 false none, .receive .all]

/-- A device that hears a status and no more for thirty seconds. -/
def silence : List DeviceEvent := promptly (SpaApp.connect ++ [(30100, .tick)])

/-- And is registered anew, and hears a status. -/
def recovery : List DeviceEvent := silence ++
  promptly [(40000, .processFrame ⟨(0xFE, 0xBF), [0x00]⟩),
    (40000, .processFrame ⟨(0xFE, 0xBF), [0x02, 0x10, 0x00, 0x01]⟩), SpaApp.statusAt 40100 []]

/-- The availability is online when the spa is lost, and stale when it is heard again. -/
theorem silence_not_mirrors :
    ¬ MirrorsAlong .binary32 "0.1".toList (new 0 (0x00, 0x01)) silence ∧
      ¬ (recovery.foldl (step .binary32 "0.1".toList) (new 0 (0x00, 0x01))).Mirrors := by
  refine ⟨fun h => ?_, by decide +kernel⟩
  have hmirrors := h (promptly SpaApp.connect ++ [.call 30100 .tick false none]) .all [] rfl rfl
    (List.ne_nil_of_length_pos (by decide +kernel))
  exact absurd hmirrors (by decide +kernel)

end Device

end Launa.App
