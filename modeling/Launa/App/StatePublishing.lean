import Launa.App.MqttTask

/-!
# The state on the broker

The MQTT task publishes a state when it differs from the last one in what `status_changed` compares,
in a mode or in the signal strength, or ends a loss of the spa: it is a filter of changes
(`Tracks.onStateMessage`). The fault is published with the rest but not compared, so that
`run_publishesLatest_iff` has the state on the broker be that of the latest message exactly when
the fault changes only with something that is.
-/

namespace Launa.App

open ChangeFilter Mqtt Protocol

namespace StateMessage

/-- The text of a message's state. -/
def json (firmware : List Char) (msg : StateMessage) : List Char :=
  statusToJson msg.status msg.fault.asStr (some firmware) msg.sniffMode msg.wifiRssi
    msg.registrationState

/-- The message with another time of day. -/
def atTime (msg : StateMessage) (hour minute : UInt8) : StateMessage :=
  { msg with status := { msg.status with hour := hour, minute := minute } }

/-- The second message ends a loss of the spa, or differs from the first one in what the task
compares. -/
def Announces (r : Rounding) (msg msg' : StateMessage) : Prop :=
  msg'.recoveringFromStale = true ∨ msg'.sniffMode ≠ msg.sniffMode ∨
    msg'.registrationState ≠ msg.registrationState ∨ msg'.wifiRssi ≠ msg.wifiRssi ∨
    statusChanged r (some msg.status) msg'.status = true

instance (r : Rounding) : DecidableRel (Announces r) := fun msg msg' =>
  inferInstanceAs (Decidable (msg'.recoveringFromStale = true ∨ msg'.sniffMode ≠ msg.sniffMode ∨
    msg'.registrationState ≠ msg.registrationState ∨ msg'.wifiRssi ≠ msg.wifiRssi ∨
    statusChanged r (some msg.status) msg'.status = true))

/-- Two messages agree in what the task compares. -/
structure Agree (r : Rounding) (msg msg' : StateMessage) : Prop where
  sniffMode : msg.sniffMode = msg'.sniffMode
  registrationState : msg.registrationState = msg'.registrationState
  wifiRssi : msg.wifiRssi = msg'.wifiRssi
  status : compared r msg.status = compared r msg'.status

variable {r : Rounding} {msg msg' msg'' : StateMessage}

/-- A status has changed exactly if it differs in what is compared. -/
theorem statusChanged_some_iff {status status' : StatusUpdate} :
    statusChanged r (some status) status' = true ↔ compared r status ≠ compared r status' := by
  rw [Ne, ← statusFieldsDiffer_eq_false_iff, Bool.not_eq_false]
  rfl

/-- A message agrees with itself. -/
theorem Agree.refl (msg : StateMessage) : Agree r msg msg := ⟨rfl, rfl, rfl, rfl⟩

/-- A message that is not announced agrees with the one before it. -/
theorem Agree.of_not_announces (h : ¬ Announces r msg msg') : Agree r msg msg' := by
  simp only [Announces, not_or, Ne, not_not, statusChanged_some_iff] at h
  obtain ⟨-, hsniff, hreg, hrssi, hstatus⟩ := h
  exact ⟨hsniff.symm, hreg.symm, hrssi.symm, hstatus⟩

/-- Messages that agree announce the same ones. -/
theorem Agree.announces_iff (h : Agree r msg msg') :
    Announces r msg' msg'' ↔ Announces r msg msg'' := by
  simp only [Announces, statusChanged_some_iff, h.sniffMode, h.registrationState, h.wifiRssi,
    h.status]

/-- What was published last agrees with the latest message. -/
theorem Agree.of_filtered (h : Filtered (Announces r) (some (msg, msg'))) : Agree r msg msg' := by
  rcases h (msg, msg') rfl with heq | hnot
  · exact (show msg = msg' from heq) ▸ .refl msg
  · exact .of_not_announces hnot

/-- What a message announces depends on what agrees only. -/
theorem stable_announces : Stable (Announces r) := fun _ _ _ h =>
  (Agree.of_not_announces h).announces_iff

/-- The messages that agree have the same text, but for the clock and the fault. -/
theorem Agree.json_eq (h : Agree r msg msg') (hscale : msg.status.InScale)
    (hscale' : msg'.status.InScale) (hfault : msg.fault.asStr = msg'.fault.asStr)
    (firmware : List Char) :
    msg.json firmware = (msg'.atTime msg.status.hour msg.status.minute).json firmware := by
  unfold json atTime
  rw [h.sniffMode, h.registrationState, h.wifiRssi, hfault]
  exact statusToJson_eq_of_compared hscale hscale' h.status

/-- A message that agrees with another one and has its text has its fault. -/
theorem Agree.fault_eq (h : Agree r msg msg') (hscale : msg.status.InScale)
    (hscale' : msg'.status.InScale) {firmware : List Char} {hour minute : UInt8}
    (heq : msg.json firmware = (msg'.atTime hour minute).json firmware) :
    msg.fault.asStr = msg'.fault.asStr := by
  have hclock : (msg'.atTime hour minute).json firmware =
      statusToJson { msg.status with hour := hour, minute := minute } msg'.fault.asStr
        (some firmware)
        msg.sniffMode msg.wifiRssi msg.registrationState := by
    unfold json
    rw [h.sniffMode, h.registrationState, h.wifiRssi]
    have hscale'' : (msg'.atTime hour minute).status.InScale :=
      ⟨hscale'.currentTemp, hscale'.setTemp⟩
    exact statusToJson_eq_of_compared hscale'' hscale h.status.symm
  exact statusToJson_fault_injective (heq.trans hclock)

end StateMessage

open StateMessage

/-! ## The filter -/

variable {r : Rounding} {firmware : List Char} {task : MqttTask} {p m msg : StateMessage}

/-- The task has published `p` last and taken `m` last. -/
structure MqttTask.Holds (firmware : List Char) (task : MqttTask) (p m : StateMessage) : Prop where
  sniffMode : task.lastSniffMode = m.sniffMode
  registrationState : task.lastRegistrationState = m.registrationState
  wifiRssi : task.lastWifiRssi = m.wifiRssi
  status : task.lastPublishedStatus = some p.status
  fault : task.lastPublishedFault = some p.fault
  state : task.mqtt.state = some (p.json firmware)

/-- The task holds what the filter does. -/
def MqttTask.Tracks (firmware : List Char) (task : MqttTask) :
    Option (StateMessage × StateMessage) → Prop
  | none => task.lastPublishedStatus = none
  | some (p, m) => task.Holds firmware p m

/-- A publish to the availability topic leaves the state. -/
theorem MqttClient.publishAvailability_state (mqtt : MqttClient) (sent : Sent) (online : Bool) :
    (mqtt.publishAvailability sent online).state = mqtt.state := by
  unfold MqttClient.publishAvailability
  split_ifs <;> rfl

/-- Publishing the availability leaves the state of the client alone. -/
theorem MqttClient.publishAvailabilityStale_state (mqtt : MqttClient) (sent : Sent) :
    (mqtt.publishAvailabilityStale sent).state = mqtt.state := by
  unfold MqttClient.publishAvailabilityStale
  split_ifs <;> rfl

/-- The decision of the task on a message. -/
def MqttTask.publishes (r : Rounding) (task : MqttTask) (msg : StateMessage) : Bool :=
  msg.recoveringFromStale ||
    statusChanged r (if msg.sniffMode != task.lastSniffMode ||
        msg.registrationState != task.lastRegistrationState then none
      else task.lastPublishedStatus) msg.status ||
    msg.wifiRssi != task.lastWifiRssi

/-- A message that is published is the last one that was. -/
theorem MqttTask.onStateMessage_of_publishes (h : task.publishes r msg = true) :
    (task.onStateMessage r firmware .all msg).Holds firmware msg msg := by
  unfold MqttTask.publishes at h
  unfold MqttTask.onStateMessage
  simp only [h, if_true]
  refine ⟨rfl, rfl, rfl, rfl, rfl, ?_⟩
  dsimp only
  split_ifs
  · rw [MqttClient.publishAvailabilityStale_state]
    rfl
  · rw [MqttClient.publishAvailability_state]
    rfl

/-- A message that is withheld leaves what was published. -/
theorem MqttTask.onStateMessage_of_not_publishes (h : task.publishes r msg = false)
    (hholds : task.Holds firmware p m) :
    (task.onStateMessage r firmware .all msg).Holds firmware p msg := by
  unfold MqttTask.publishes at h
  -- A change of mode or registration would have been published.
  have hmodes : (msg.sniffMode != task.lastSniffMode ||
      msg.registrationState != task.lastRegistrationState) = false := by
    by_contra hne
    rw [Bool.not_eq_false] at hne
    simp [hne, statusChanged] at h
  simp only [hmodes, Bool.false_eq_true, if_false] at h
  unfold MqttTask.onStateMessage
  simp only [hmodes, h, Bool.false_eq_true, if_false]
  refine ⟨rfl, rfl, rfl, hholds.status, hholds.fault, ?_⟩
  dsimp only
  split_ifs
  · rw [MqttClient.publishAvailabilityStale_state]
    exact hholds.state
  · rw [MqttClient.publishAvailability_state]
    exact hholds.state

/-- The task publishes what the message that was published last announces. -/
theorem MqttTask.Holds.publishes_iff (h : task.Holds firmware p m) (msg : StateMessage)
    (hagree : Agree r p m) :
    task.publishes r msg = true ↔ Announces r p msg := by
  unfold MqttTask.publishes Announces
  rw [h.sniffMode, h.registrationState, h.wifiRssi, h.status, ← hagree.sniffMode,
    ← hagree.registrationState, ← hagree.wifiRssi]
  by_cases hsniff : msg.sniffMode = p.sniffMode <;>
    by_cases hreg : msg.registrationState = p.registrationState <;>
    simp [hsniff, hreg, statusChanged, or_comm, or_left_comm]

/-- The task is a filter of changes. -/
theorem MqttTask.Tracks.onStateMessage {s : Option (StateMessage × StateMessage)}
    (h : task.Tracks firmware s) (hfiltered : Filtered (Announces r) s) (msg : StateMessage) :
    (task.onStateMessage r firmware .all msg).Tracks firmware
      (ChangeFilter.step (Announces r) s msg) := by
  cases s with
  | none =>
    -- The first message is published.
    have hnone : task.lastPublishedStatus = none := h
    refine task.onStateMessage_of_publishes ?_
    simp [MqttTask.publishes, hnone, statusChanged]
  | some x =>
    obtain ⟨p, m⟩ := x
    have hholds : task.Holds firmware p m := h
    have hagree : Agree r p m := .of_filtered hfiltered
    have hdecision := hholds.publishes_iff msg hagree
    show MqttTask.Tracks firmware _ (some (if Announces r p msg then msg else p, msg))
    by_cases hannounced : Announces r p msg
    · rw [if_pos hannounced]
      exact task.onStateMessage_of_publishes (hdecision.2 hannounced)
    · rw [if_neg hannounced]
      exact task.onStateMessage_of_not_publishes
        (Bool.eq_false_iff.2 (mt hdecision.1 hannounced)) hholds

/-- A new connection publishes the last state again. -/
theorem MqttTask.Tracks.reconnectAndSync {s : Option (StateMessage × StateMessage)}
    (h : task.Tracks firmware s) (hfiltered : Filtered (Announces r) s) :
    (task.reconnectAndSync firmware .all).Tracks firmware s := by
  cases s with
  | none => exact h
  | some x =>
    obtain ⟨p, m⟩ := x
    have hholds : task.Holds firmware p m := h
    have hagree : Agree r p m := .of_filtered hfiltered
    -- It publishes the last status with the modes of the last message, which agree.
    refine ⟨hholds.sniffMode, hholds.registrationState, hholds.wifiRssi, hholds.status,
      hholds.fault, ?_⟩
    unfold MqttTask.reconnectAndSync json
    rw [hholds.status, hholds.fault, hholds.sniffMode, hholds.registrationState, hholds.wifiRssi,
      hagree.sniffMode, hagree.registrationState, hagree.wifiRssi]
    rfl

/-- The task tracks the messages through a run. -/
theorem run_tracks (r : Rounding) (firmware : List Char) (events : List TaskEvent) :
    (events.foldl (MqttTask.step r firmware .all) .new).Tracks firmware
        ((messages events).foldl (ChangeFilter.step (Announces r)) none) ∧
      Filtered (Announces r) ((messages events).foldl (ChangeFilter.step (Announces r)) none) := by
  induction events using List.reverseRecOn with
  | nil => exact ⟨rfl, fun x hx => by cases hx⟩
  | append_singleton events event ih =>
    -- By induction on the events: the last one steps the filter, if it is a message.
    obtain ⟨htracks, hfiltered⟩ := ih
    have hmessages : messages (events ++ [event]) = messages events ++ messages [event] :=
      List.filterMap_append
    rw [List.foldl_concat, hmessages, List.foldl_append]
    cases event with
    | stateMessage msg => exact ⟨htracks.onStateMessage hfiltered msg, hfiltered.step msg⟩
    | reconnect => exact ⟨htracks.reconnectAndSync hfiltered, hfiltered⟩
    | homeAssistantOnline =>
      refine ⟨?_, hfiltered⟩
      revert htracks
      cases (messages events).foldl (ChangeFilter.step (Announces r)) none with
      | none => exact id
      | some x =>
        intro h
        exact ⟨h.sniffMode, h.registrationState, h.wifiRssi, h.status, h.fault,
          (MqttClient.publishAvailability_state _ _ _).trans h.state⟩

/-! ## The latest message -/

/-- The state on the broker is that of the latest message, but for the clock. -/
def PublishesLatest (r : Rounding) (firmware : List Char) (events : List TaskEvent) : Prop :=
  ∀ msg ∈ (messages events).getLast?, ∃ hour minute,
    (events.foldl (MqttTask.step r firmware .all) .new).mqtt.state =
      some ((msg.atTime hour minute).json firmware)

/-- The state on the broker is that of the latest message exactly when what was published last has
its fault. -/
theorem publishesLatest_iff {events : List TaskEvent}
    (hscale : ∀ msg ∈ messages events, msg.status.InScale) :
    PublishesLatest r firmware events ↔ Shows (fun msg => msg.fault.asStr)
      ((messages events).foldl (ChangeFilter.step (Announces r)) none) := by
  obtain ⟨htracks, hfiltered⟩ := run_tracks r firmware events
  cases hs : (messages events).foldl (ChangeFilter.step (Announces r)) none with
  | none =>
    -- Nothing has been published, so there was no message.
    refine iff_of_true ?_ fun x hx => by cases hx
    intro msg hmsg
    obtain ⟨p, hp⟩ := exists_of_getLast?_eq_some (Announces r) hmsg
    rw [hs] at hp
    cases hp
  | some x =>
    obtain ⟨p, m⟩ := x
    obtain ⟨hp, hm⟩ := mem_of_foldl_step hs
    rw [hs] at htracks hfiltered
    have hholds : MqttTask.Holds firmware _ p m := htracks
    have hp : p.status.InScale := hscale p hp
    have hm' : m.status.InScale := hscale m (List.mem_of_getLast? hm)
    have hagree : Agree r p m := .of_filtered hfiltered
    constructor
    · intro h y hy
      cases hy
      obtain ⟨hour, minute, heq⟩ := h m hm
      exact hagree.fault_eq hp hm' (Option.some.inj (hholds.state.symm.trans heq))
    · intro h msg hmsg
      obtain rfl : m = msg := Option.some.inj (hm.symm.trans hmsg)
      exact ⟨_, _, hholds.state.trans
        (congrArg some (hagree.json_eq hp hm' (h (p, m) rfl) firmware))⟩

/-- After every event the state on the broker is that of the latest message, but for the clock,
exactly when the fault changes only with a message that the one before it announces. -/
theorem run_publishesLatest_iff (r : Rounding) (firmware : List Char) (events : List TaskEvent)
    (hparsed : ∀ msg ∈ messages events, ∃ payload, StatusUpdate.parse payload = .ok msg.status) :
    (∀ pre post, events = pre ++ post → PublishesLatest r firmware pre) ↔
      (messages events).IsChain fun msg msg' =>
        Announces r msg msg' ∨ msg.fault.asStr = msg'.fault.asStr := by
  have hscale : ∀ msg ∈ messages events, msg.status.InScale := fun msg hmsg => by
    obtain ⟨payload, hpayload⟩ := hparsed msg hmsg
    exact StatusUpdate.inScale_of_parse hpayload
  have hinitial : ∀ pre post, events = pre ++ post → ∀ msg ∈ messages pre, msg.status.InScale := by
    rintro pre post rfl msg hmsg
    refine hscale msg ?_
    rw [messages, List.filterMap_append]
    exact List.mem_append_left _ hmsg
  rw [← shows_iff_isChain stable_announces]
  constructor
  · intro h pre post heq
    obtain ⟨pre', post', hevents, rfl, -⟩ := List.filterMap_eq_append_iff.1 heq
    exact (publishesLatest_iff (hinitial pre' post' hevents)).1 (h pre' post' hevents)
  · intro h pre post heq
    refine (publishesLatest_iff (hinitial pre post heq)).2 (h (messages pre) (messages post) ?_)
    rw [heq]
    exact List.filterMap_append

/-- The status of a frame of zeros. -/
def quietStatus : StatusUpdate :=
  (StatusUpdate.parse (List.replicate 24 0)).toOption.get (by decide +kernel)

/-- The payload of zeros is the quiet status. -/
theorem parse_quietStatus : StatusUpdate.parse (List.replicate 24 0) = .ok quietStatus := rfl

/-- A message with a fault and a signal strength. -/
def quietMessage (fault : String) (wifiRssi : Option Int32) : StateMessage where
  status := quietStatus
  fault := .fromString fault
  recoveringFromStale := false
  sniffMode := false
  wifiRssi := wifiRssi
  registrationState := "registered".toList

/-- A fault that is told with a change of the signal strength is published. -/
theorem publishesLatest_of_rssi :
    PublishesLatest .binary32 "0.1".toList
      [.stateMessage (quietMessage "" none), .stateMessage (quietMessage "HeaterDry" (some (-60))),
        .reconnect] :=
  (run_publishesLatest_iff .binary32 "0.1".toList _ (by
    intro msg hmsg
    refine ⟨List.replicate 24 0, parse_quietStatus.trans ?_⟩
    rcases List.mem_cons.1 hmsg with rfl | hmsg
    · rfl
    · rw [List.mem_singleton.1 hmsg]
      rfl)).2 (by
    refine List.isChain_cons_cons.2 ⟨.inl ?_, List.isChain_singleton _⟩
    exact .inr (.inr (.inr (.inl (by decide))))) _ [] (List.append_nil _).symm

/-- A fault that is told alone is withheld. -/
theorem fault_withheld :
    ¬ PublishesLatest .binary32 "0.1".toList
      [.stateMessage (quietMessage "" none), .stateMessage (quietMessage "HeaterDry" none)] := by
  intro h
  have hscale : quietStatus.InScale := StatusUpdate.inScale_of_parse parse_quietStatus
  rw [publishesLatest_iff (by
    intro msg hmsg
    rcases List.mem_cons.1 hmsg with rfl | hmsg
    · exact hscale
    · rw [List.mem_singleton.1 hmsg]
      exact hscale)] at h
  have hnot : ¬ Announces .binary32 (quietMessage "" none) (quietMessage "HeaterDry" none) := by
    decide +kernel
  have hshown := h (quietMessage "" none, quietMessage "HeaterDry" none)
    (congrArg some (congrArg (·, _) (if_neg hnot)))
  exact absurd hshown (by decide +kernel)

end Launa.App
