import Launa.Lib.Journal
import Launa.Lib.JsonTree
import Launa.Mqtt.Codec
import Launa.Server.DeviceStatus

/-!
# The records of the server

`handle_forward` of `mqtt_bridge.rs` takes every message that the broker forwards, and the subtopic
decides what the server keeps of it. Logs, diagnostics, alerts and frames are kept for each device
in lists of bounded length, which can be cleared over the web. After any messages and clears a
reader is given the newest entries of the device that have come in since its list was cleared, the
last one first, and of its availability the latest changes (`run_records`). No message of another
device, and none under another subtopic, changes that.

`serde_json::from_str` is a parameter: of a text that is no JSON there is no value. So is the parser
of times.
-/

namespace Launa.Server

open Journal Json Mqtt RingBuffer

/-! ## `memory.rs` -/

/-- `LogEntry`. -/
structure LogEntry where
  level : String
  message : String
  timestampMs : ℕ
  receivedAt : String

/-- `TimestampedEntry`. -/
structure TimestampedEntry where
  payload : String
  receivedAt : String

/-- How many log entries of a device are kept. -/
def maxLogEntries : ℕ := 1000
/-- How many diagnostics of a device are kept. -/
def maxDiagnosticsEntries : ℕ := 200
/-- How many alerts of a device are kept. -/
def maxAlertEntries : ℕ := 200
/-- How many captures of a device are kept. -/
def maxSniffEntries : ℕ := 500

/-- `MemoryStore`: what it keeps of all messages. -/
structure ServerStore extends DeviceStore, StateHistory where
  logs : Journals String LogEntry
  diagnostics : Journals String TimestampedEntry
  alerts : Journals String TimestampedEntry
  sniffFrames : Journals String TimestampedEntry

namespace ServerStore

/-- `MemoryStore::new`. -/
def new (config : NotificationConfig) : ServerStore :=
  ⟨DeviceStore.new config, StateHistory.new, ∅, ∅, ∅, ∅⟩

/-- `insert_log`, at the time `now`. -/
def insertLog (store : ServerStore) (deviceId level message : String) (timestampMs : ℕ)
    (now : String) : ServerStore :=
  { store with
    logs := add maxLogEntries store.logs deviceId ⟨level, message, timestampMs, now⟩ }

/-- `get_logs`. -/
def getLogs (store : ServerStore) (deviceId : String) (limit : ℕ) : List LogEntry :=
  newest store.logs deviceId limit

/-- `clear_logs`. -/
def clearLogs (store : ServerStore) (deviceId : String) : ServerStore :=
  { store with logs := clear store.logs deviceId }

/-- `insert_diagnostics`. -/
def insertDiagnostics (store : ServerStore) (deviceId payload now : String) : ServerStore :=
  { store with
    diagnostics := add maxDiagnosticsEntries store.diagnostics deviceId ⟨payload, now⟩ }

/-- `get_diagnostics`. -/
def getDiagnostics (store : ServerStore) (deviceId : String) (limit : ℕ) :
    List TimestampedEntry := newest store.diagnostics deviceId limit

/-- `clear_diagnostics`. -/
def clearDiagnostics (store : ServerStore) (deviceId : String) : ServerStore :=
  { store with diagnostics := clear store.diagnostics deviceId }

/-- `insert_alert`. -/
def insertAlert (store : ServerStore) (deviceId payload now : String) : ServerStore :=
  { store with alerts := add maxAlertEntries store.alerts deviceId ⟨payload, now⟩ }

/-- `get_alerts`. -/
def getAlerts (store : ServerStore) (deviceId : String) (limit : ℕ) : List TimestampedEntry :=
  newest store.alerts deviceId limit

/-- `clear_alerts`. -/
def clearAlerts (store : ServerStore) (deviceId : String) : ServerStore :=
  { store with alerts := clear store.alerts deviceId }

/-- `insert_sniff_frame`. -/
def insertSniffFrame (store : ServerStore) (deviceId payload now : String) : ServerStore :=
  { store with sniffFrames := add maxSniffEntries store.sniffFrames deviceId ⟨payload, now⟩ }

/-- `get_sniff_frames`. -/
def getSniffFrames (store : ServerStore) (deviceId : String) (limit : ℕ) :
    List TimestampedEntry := newest store.sniffFrames deviceId limit

/-- `clear_sniff_frames`. -/
def clearSniffFrames (store : ServerStore) (deviceId : String) : ServerStore :=
  { store with sniffFrames := clear store.sniffFrames deviceId }

/-- `get_availability_history`. -/
def getAvailabilityHistory (store : ServerStore) (deviceId : String) (limit : ℕ) :
    List AvailabilityEntry := newest store.availability deviceId limit

end ServerStore

/-! ## `mqtt_bridge.rs` -/

/-- The times that the clock shows when a message is taken. -/
structure Clock where
  updatedAt : String
  offlineAt : String
  receivedAt : String
  temperatureAt : String
  componentsAt : String

/-- A message that the broker forwards. -/
structure Publish where
  topic : List UInt8
  payload : List UInt8
  clock : Clock

/-- The device and the subtopic: `splitn` cuts the topic at its first two slashes. -/
def deviceSubtopic (topic : List Char) : Option (String × String) :=
  match topic.dropWhile (· ≠ '/') with
  | [] => none
  | _ :: rest => match rest.dropWhile (· ≠ '/') with
    | [] => none
    | _ :: subtopic => some (.ofList (rest.takeWhile (· ≠ '/')), .ofList subtopic)

/-- The subtopics that `handle_forward` knows. -/
inductive Subtopic where
  | availability | boot | state | log | diagnostics | alert | sniff
  deriving DecidableEq

/-- The subtopic of a name. -/
def Subtopic.ofName : String → Option Subtopic
  | "availability" => some .availability
  | "boot" => some .boot
  | "state" => some .state
  | "log" => some .log
  | "diagnostics" => some .diagnostics
  | "alert" => some .alert
  | "sniff" => some .sniff
  | _ => none

/-- A message with its device, its subtopic and its payload. -/
structure Forwarded where
  deviceId : String
  subtopic : Subtopic
  payload : String

/-- What `handle_forward` finds in a message, unless it drops it. -/
def Publish.forwarded (publish : Publish) : Option Forwarded := do
  let topic ← fromUtf8 publish.topic
  let payload ← fromUtf8 publish.payload
  let (deviceId, name) ← deviceSubtopic topic.toList
  let subtopic ← Subtopic.ofName name
  some ⟨deviceId, subtopic, payload⟩

/-- What `handle_state` finds in a value. -/
def stateValue (val : Value) : StateValue where
  currentTemp := (val.get "current_temp").bind Value.asF64
  setTemp := (val.get "set_temp").bind Value.asF64
  field name := (val.get name).bind Value.asBool

/-- The level, the message and the time that `handle_log` finds in a payload. -/
def logParts (json : String → Option Value) (payload : String) : String × String × ℕ :=
  match json payload with
  | some val =>
    let level := (((val.get "level").bind Value.asStr).map .ofList).getD "unknown"
    let message := (((val.get "message").bind Value.asStr).map .ofList).getD payload
    let ts := ((val.get "ts").bind Value.asU64).getD 0
    (level, message, ts)
  | none => ("unknown", payload, 0)

namespace ServerStore

/-- `handle_log`. -/
def handleLog (json : String → Option Value) (store : ServerStore) (deviceId payload now : String) :
    ServerStore :=
  let (level, message, timestampMs) := logParts json payload
  store.insertLog deviceId level message timestampMs now

/-- `handle_forward`, behind the decoding of the message. -/
def dispatch (json : String → Option Value) (parse : String → Option ℤ) (store : ServerStore)
    (msg : Forwarded) (clock : Clock) : ServerStore :=
  let deviceMessage (isBoot : Bool) : DeviceMessage :=
    ⟨msg.deviceId, isBoot, msg.payload, clock.updatedAt, clock.offlineAt, clock.receivedAt⟩
  match msg.subtopic with
  | .availability =>
    { store with toDeviceStore := store.toDeviceStore.handleAvailability (deviceMessage false) }
  | .boot => { store with toDeviceStore := store.toDeviceStore.handleBoot (deviceMessage true) }
  | .state =>
    { store with
      toStateHistory := handleState parse store.toStateHistory
        ⟨msg.deviceId, (json msg.payload).map stateValue, clock.temperatureAt,
          clock.componentsAt⟩ }
  | .log => store.handleLog json msg.deviceId msg.payload clock.receivedAt
  | .diagnostics => store.insertDiagnostics msg.deviceId msg.payload clock.receivedAt
  | .alert => store.insertAlert msg.deviceId msg.payload clock.receivedAt
  | .sniff => store.insertSniffFrame msg.deviceId msg.payload clock.receivedAt

/-- `handle_forward`. -/
def handleForward (json : String → Option Value) (parse : String → Option ℤ) (store : ServerStore)
    (publish : Publish) : ServerStore :=
  match publish.forwarded with
  | some msg => store.dispatch json parse msg publish.clock
  | none => store

end ServerStore

/-! ## Runs -/

/-- What changes the records: a message, or a request to clear a list. -/
inductive ServerEvent where
  | forward (publish : Publish)
  | clearLogs (deviceId : String)
  | clearDiagnostics (deviceId : String)
  | clearAlerts (deviceId : String)
  | clearSniff (deviceId : String)

/-- The store after an event. -/
def ServerStore.step (json : String → Option Value) (parse : String → Option ℤ)
    (store : ServerStore) : ServerEvent → ServerStore
  | .forward publish => store.handleForward json parse publish
  | .clearLogs deviceId => store.clearLogs deviceId
  | .clearDiagnostics deviceId => store.clearDiagnostics deviceId
  | .clearAlerts deviceId => store.clearAlerts deviceId
  | .clearSniff deviceId => store.clearSniffFrames deviceId

/-- What a message under a subtopic adds to a list. -/
def Publish.added {α : Type} (subtopic : Subtopic) (entry : String → Clock → α)
    (publish : Publish) : Option (Op String α) :=
  publish.forwarded.bind fun msg =>
    if msg.subtopic = subtopic then some (.add msg.deviceId (entry msg.payload publish.clock))
    else none

namespace ServerEvent

/-- The entry of a log. -/
def keptLog (json : String → Option Value) (payload : String) (clock : Clock) : LogEntry :=
  let (level, message, timestampMs) := logParts json payload
  ⟨level, message, timestampMs, clock.receivedAt⟩

/-- A payload as it is kept, with the time when it came in. -/
def keptPayload (payload : String) (clock : Clock) : TimestampedEntry :=
  ⟨payload, clock.receivedAt⟩

/-- What an event does to the logs. -/
def logOp (json : String → Option Value) : ServerEvent → Option (Op String LogEntry)
  | .forward publish => publish.added .log (keptLog json)
  | .clearLogs deviceId => some (.clear deviceId)
  | _ => none

/-- What an event does to the diagnostics. -/
def diagnosticsOp : ServerEvent → Option (Op String TimestampedEntry)
  | .forward publish => publish.added .diagnostics keptPayload
  | .clearDiagnostics deviceId => some (.clear deviceId)
  | _ => none

/-- What an event does to the alerts. -/
def alertOp : ServerEvent → Option (Op String TimestampedEntry)
  | .forward publish => publish.added .alert keptPayload
  | .clearAlerts deviceId => some (.clear deviceId)
  | _ => none

/-- What an event does to the frames. -/
def sniffOp : ServerEvent → Option (Op String TimestampedEntry)
  | .forward publish => publish.added .sniff keptPayload
  | .clearSniff deviceId => some (.clear deviceId)
  | _ => none

/-- The availability of a device that an event reports. -/
def availabilityOf (deviceId : String) : ServerEvent → Option AvailabilityEntry
  | .forward publish => publish.forwarded.bind fun msg =>
    if msg.subtopic = .availability ∧ msg.deviceId = deviceId then
      some ⟨.ofList (Ota.trim msg.payload.toList), publish.clock.receivedAt⟩
    else none
  | _ => none

end ServerEvent

/-- The device is what stands between the first two slashes. -/
theorem deviceSubtopic_append {first device : List Char} (hfirst : '/' ∉ first)
    (hdevice : '/' ∉ device) (subtopic : List Char) :
    deviceSubtopic (first ++ '/' :: (device ++ '/' :: subtopic)) =
      some (.ofList device, .ofList subtopic) := by
  have hall : ∀ {cs : List Char}, '/' ∉ cs → ∀ c ∈ cs, (c ≠ '/') := fun hcs c hc heq =>
    hcs (heq ▸ hc)
  have hfind : ∀ {cs : List Char} (rest : List Char), '/' ∉ cs →
      (cs ++ '/' :: rest).dropWhile (· ≠ '/') = '/' :: rest := by
    intro cs rest hcs
    rw [List.dropWhile_append_of_pos fun c hc => decide_eq_true (hall hcs c hc)]
    rfl
  have htake : (device ++ '/' :: subtopic).takeWhile (· ≠ '/') = device := by
    rw [List.takeWhile_append_of_pos fun c hc => decide_eq_true (hall hdevice c hc)]
    exact List.append_nil device
  unfold deviceSubtopic
  rw [hfind _ hfirst]
  dsimp only
  rw [hfind _ hdevice, htake]

namespace ServerStore

variable (json : String → Option Value) (parse : String → Option ℤ) (store : ServerStore)

/-! ## One event -/

/-- How a message bears on a list, given how each subtopic does. -/
theorem field_handleForward {α β : Type} (field : ServerStore → β) (f : β → Op String α → β)
    (subtopic : Subtopic) (entry : String → Clock → α)
    (hdispatch : ∀ msg clock, field (store.dispatch json parse msg clock) =
      if msg.subtopic = subtopic then
        f (field store) (.add msg.deviceId (entry msg.payload clock))
      else field store) (publish : Publish) :
    field (store.handleForward json parse publish) =
      (publish.added subtopic entry).elim (field store) (f (field store)) := by
  unfold handleForward Publish.added
  cases publish.forwarded with
  | none => rfl
  | some msg =>
    refine (hdispatch msg publish.clock).trans ?_
    dsimp only [Option.bind_some]
    split <;> rfl

/-- A message adds to the list that its subtopic names, and to no other. -/
theorem logs_step (e : ServerEvent) : (store.step json parse e).logs =
    (e.logOp json).elim store.logs (apply maxLogEntries store.logs) := by
  cases e with
  | forward publish =>
    refine field_handleForward json parse store logs (apply maxLogEntries) .log
      (ServerEvent.keptLog json) (fun msg clock => ?_) publish
    rcases msg with ⟨deviceId, _ | _ | _ | _ | _ | _ | _, payload⟩ <;> rfl
  | _ => rfl

/-- An event has its operation applied to the diagnostics. -/
theorem diagnostics_step (e : ServerEvent) : (store.step json parse e).diagnostics =
    e.diagnosticsOp.elim store.diagnostics (apply maxDiagnosticsEntries store.diagnostics) := by
  cases e with
  | forward publish =>
    refine field_handleForward json parse store diagnostics (apply maxDiagnosticsEntries)
      .diagnostics ServerEvent.keptPayload (fun msg clock => ?_) publish
    rcases msg with ⟨deviceId, _ | _ | _ | _ | _ | _ | _, payload⟩ <;> rfl
  | _ => rfl

/-- An event has its operation applied to the alerts. -/
theorem alerts_step (e : ServerEvent) : (store.step json parse e).alerts =
    e.alertOp.elim store.alerts (apply maxAlertEntries store.alerts) := by
  cases e with
  | forward publish =>
    refine field_handleForward json parse store alerts (apply maxAlertEntries) .alert
      ServerEvent.keptPayload (fun msg clock => ?_) publish
    rcases msg with ⟨deviceId, _ | _ | _ | _ | _ | _ | _, payload⟩ <;> rfl
  | _ => rfl

/-- An event has its operation applied to the captures. -/
theorem sniffFrames_step (e : ServerEvent) : (store.step json parse e).sniffFrames =
    e.sniffOp.elim store.sniffFrames (apply maxSniffEntries store.sniffFrames) := by
  cases e with
  | forward publish =>
    refine field_handleForward json parse store sniffFrames (apply maxSniffEntries) .sniff
      ServerEvent.keptPayload (fun msg clock => ?_) publish
    rcases msg with ⟨deviceId, _ | _ | _ | _ | _ | _ | _, payload⟩ <;> rfl
  | _ => rfl

/-- A message writes an availability as a change. -/
theorem entries_insertAvailability (store : DeviceStore) (id status now deviceId : String) :
    entries (store.insertAvailability id status now).availability deviceId =
      if id = deviceId then
        addChange (fun last entry => last.status ≠ entry.status) maxAvailabilityEntries
          (entries store.availability deviceId) ⟨status, now⟩
      else entries store.availability deviceId := by
  unfold DeviceStore.insertAvailability entries addChange
  dsimp only
  by_cases h : id = deviceId
  · subst h
    rw [if_pos rfl, AList.lookup_insert, Option.getD_some]
    cases hlast : ((store.availability.lookup id).getD []).getLast? with
    | none => simp
    | some last => simp
  · rw [if_neg h, AList.lookup_insert_ne (Ne.symm h)]

/-- An event bears on the availability of a device if it reports it. -/
theorem entries_availability_step (deviceId : String) (e : ServerEvent) :
    entries (store.step json parse e).availability deviceId =
      (e.availabilityOf deviceId).elim (entries store.availability deviceId)
        (addChange (fun last entry => last.status ≠ entry.status) maxAvailabilityEntries
          (entries store.availability deviceId)) := by
  cases e with
  | forward publish =>
    change entries (store.handleForward json parse publish).availability deviceId =
      (publish.forwarded.bind fun msg => _).elim _ _
    unfold handleForward
    cases publish.forwarded with
    | none => rfl
    | some msg =>
      rcases msg with ⟨id, _ | _ | _ | _ | _ | _ | _, payload⟩
      case availability =>
        refine (entries_insertAvailability _ _ _ _ _).trans ?_
        by_cases h : id = deviceId
        · rw [if_pos h, Option.bind_some, if_pos ⟨rfl, h⟩]
          rfl
        · rw [if_neg h, Option.bind_some, if_neg fun hboth => h hboth.2]
          rfl
      all_goals rfl
  | _ => rfl

/-! ## Any events -/

/-- After any messages and clears a reader is given the newest entries of the device since its list
was cleared, and the latest changes of its availability. -/
theorem run_records (config : NotificationConfig) (events : List ServerEvent) (deviceId : String)
    (limit : ℕ) :
    let store := events.foldl (step json parse) (new config)
    store.getLogs deviceId limit = (recent (min limit maxLogEntries)
      (addedSince (events.filterMap (ServerEvent.logOp json)) deviceId)).reverse ∧
    store.getDiagnostics deviceId limit = (recent (min limit maxDiagnosticsEntries)
      (addedSince (events.filterMap ServerEvent.diagnosticsOp) deviceId)).reverse ∧
    store.getAlerts deviceId limit = (recent (min limit maxAlertEntries)
      (addedSince (events.filterMap ServerEvent.alertOp) deviceId)).reverse ∧
    store.getSniffFrames deviceId limit = (recent (min limit maxSniffEntries)
      (addedSince (events.filterMap ServerEvent.sniffOp) deviceId)).reverse ∧
    store.getAvailabilityHistory deviceId limit = (recent (min limit maxAvailabilityEntries)
      ((events.filterMap (ServerEvent.availabilityOf deviceId)).destutter
        fun last entry => last.status ≠ entry.status)).reverse := by
  intro store
  have hlogs := Run.foldl_part logs _ _ (logs_step json parse) (new config) events
  have hdiagnostics :=
    Run.foldl_part diagnostics _ _ (diagnostics_step json parse) (new config) events
  have halerts := Run.foldl_part alerts _ _ (alerts_step json parse) (new config) events
  have hsniff := Run.foldl_part sniffFrames _ _ (sniffFrames_step json parse) (new config) events
  have havailability := Run.foldl_part
    (fun store : ServerStore => entries store.availability deviceId) _ _
    (fun store => entries_availability_step json parse store deviceId) (new config) events
  refine ⟨?_, ?_, ?_, ?_, ?_⟩
  · rw [getLogs, hlogs]
    exact newest_run (by decide) _ _ _
  · rw [getDiagnostics, hdiagnostics]
    exact newest_run (by decide) _ _ _
  · rw [getAlerts, halerts]
    exact newest_run (by decide) _ _ _
  · rw [getSniffFrames, hsniff]
    exact newest_run (by decide) _ _ _
  · rw [getAvailabilityHistory, newest_eq, havailability, ← recent_recent]
    exact congrArg _ (congrArg _ (foldl_addChange (by decide) _))

end ServerStore

end Launa.Server
