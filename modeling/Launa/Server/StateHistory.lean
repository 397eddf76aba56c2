import Launa.Lib.ChangeLog
import Launa.Lib.Run
import Mathlib.Data.List.AList
import Mathlib.Data.List.Induction
import Mathlib.Data.Rat.Floor

/-!
# What the server keeps of the state messages

`handle_state` of `mqtt_bridge.rs` keeps temperatures and changes of components of each device, in
lists of bounded length. The state of a component is read from the last change that is left, and is
off when there is none. So a field that is on is read as off once the changes of the other fields
have pushed its own out, until it is reported again. After every message each field is read as it
was reported last exactly when no message pushes out the only change of a field that is on and does
not report it after that (`componentStates_latest_iff`).

`push_capped` is `ChangeLog.pushCapped`. The JSON of a message enters as what is found in it, and a
time as its text, with the function that parses it to nanoseconds.
-/

namespace Launa.Server

/-! ## `memory.rs` -/

/-- `TemperatureSample`. -/
structure TemperatureSample where
  currentTemp : Option ℚ
  setTemp : Option ℚ
  receivedAt : String
  deriving DecidableEq

/-- `ComponentEvent`. -/
structure ComponentEvent where
  component : String
  state : ℤ
  receivedAt : String
  deriving DecidableEq

/-- How many samples of a device are kept. -/
def maxTemperatureEntries : ℕ := 50000
/-- How many component changes of a device are kept. -/
def maxComponentEntries : ℕ := 10000
/-- How long a sample without a change is held back. -/
def tempSampleMinIntervalSecs : ℤ := 30
/-- How much a temperature has to change. -/
def tempMinDelta : ℚ := 2 / 5

/-- `COMPONENT_FIELDS`. -/
def componentFields : List String :=
  ["is_heating", "pump1_on", "pump2_on", "pump3_on", "pump4_on", "pump5_on", "pump6_on",
    "circ_pump", "blower", "light1", "light2", "light3", "light4", "mister"]

/-- `MemoryStore`: what it keeps of the state messages. -/
structure StateHistory where
  temperatures : AList fun _ : String => List TemperatureSample
  componentEvents : AList fun _ : String => List ComponentEvent

namespace StateHistory

/-- `MemoryStore::new`. -/
def new : StateHistory := ⟨∅, ∅⟩

/-- The whole seconds from one time to another, or as many as there are when one is no time. -/
def elapsedSecs (parse : String → Option ℤ) (now last : String) : ℤ :=
  ((do
    let t ← parse now
    let lt ← parse last
    some ((t - lt).tdiv (10^9))) : Option ℤ).getD (2^63 - 1)

/-- The current temperature has changed by enough. -/
def tempChanged : Option ℚ → Option ℚ → Bool
  | some cur, some last => tempMinDelta ≤ |cur - last|
  | some _, none => true
  | _, _ => false

/-- The set temperature has changed. -/
def setChanged : Option ℚ → Option ℚ → Bool
  | some cur, some last => cur ≠ last
  | some _, none => true
  | _, _ => false

/-- A report is to be stored behind the last sample. -/
def shouldInsert (parse : String → Option ℤ) (last : TemperatureSample)
    (currentTemp setTemp : Option ℚ) (now : String) : Bool :=
  tempSampleMinIntervalSecs ≤ elapsedSecs parse now last.receivedAt ||
    tempChanged currentTemp last.currentTemp || setChanged setTemp last.setTemp

/-- `insert_temperature_sample`, on the samples of the device. -/
def insertSample (parse : String → Option ℤ) (deque : List TemperatureSample)
    (currentTemp setTemp : Option ℚ) (now : String) : List TemperatureSample :=
  let inserts := match deque.getLast? with
    | some last => shouldInsert parse last currentTemp setTemp now
    | none => true
  if inserts then ChangeLog.pushCapped maxTemperatureEntries deque ⟨currentTemp, setTemp, now⟩
  else deque

/-- `insert_temperature_sample`, at the time `now`. -/
def insertTemperatureSample (parse : String → Option ℤ) (store : StateHistory) (deviceId : String)
    (currentTemp setTemp : Option ℚ) (now : String) : StateHistory :=
  let deque := (store.temperatures.lookup deviceId).getD []
  { store with
    temperatures :=
      store.temperatures.insert deviceId (insertSample parse deque currentTemp setTemp now) }

/-- `insert_component_changes`, on the events of the device and for one field. -/
def insertComponentChange (now : String) (deque : List ComponentEvent) (change : String × Bool) :
    List ComponentEvent :=
  let lastState := (deque.reverse.find? fun e => e.component = change.1).map fun e => e.state != 0
  if lastState ≠ some change.2 then
    ChangeLog.pushCapped maxComponentEntries deque ⟨change.1, if change.2 then 1 else 0, now⟩
  else deque

/-- `insert_component_changes`, at the time `now`. -/
def insertComponentChanges (store : StateHistory) (deviceId : String)
    (newStates : List (String × Bool)) (now : String) : StateHistory :=
  let deque := (store.componentEvents.lookup deviceId).getD []
  { store with
    componentEvents :=
      store.componentEvents.insert deviceId (newStates.foldl (insertComponentChange now) deque) }

/-- `get_latest_temperature`. -/
def getLatestTemperature (store : StateHistory) (deviceId : String) : Option TemperatureSample :=
  (store.temperatures.lookup deviceId).bind List.getLast?

/-- `get_latest_component_state`. -/
def getLatestComponentState (store : StateHistory) (deviceId component : String) : Bool :=
  ((store.componentEvents.lookup deviceId).bind fun deque =>
    (deque.reverse.find? fun e => e.component = component).map fun e => e.state != 0).getD false

end StateHistory

/-! ## `mqtt_bridge.rs` -/

/-- What `handle_state` finds in the JSON of a message: the temperatures that are numbers, and the
fields that are Booleans. -/
structure StateValue where
  currentTemp : Option ℚ
  setTemp : Option ℚ
  field : String → Option Bool

/-- A state message: of a payload that is no JSON there is no value. The clock is read for each of
the two lists. -/
structure ServerStateMessage where
  deviceId : String
  value : Option StateValue
  temperatureAt : String
  componentsAt : String

/-- The fields that a message reports. -/
def StateValue.componentStates (val : StateValue) : List (String × Bool) :=
  componentFields.filterMap fun field => (val.field field).map fun b => (field, b)

/-- `handle_state`. -/
def handleState (parse : String → Option ℤ) (store : StateHistory) (msg : ServerStateMessage) :
    StateHistory :=
  match msg.value with
  | none => store
  | some val =>
    (store.insertTemperatureSample parse msg.deviceId val.currentTemp val.setTemp
      msg.temperatureAt).insertComponentChanges msg.deviceId val.componentStates msg.componentsAt

/-! ## The changes of a device -/

open ChangeLog Run

/-- The event of a change. -/
def componentEvent (now : String) (change : String × Bool) : ComponentEvent :=
  ⟨change.1, if change.2 then 1 else 0, now⟩

/-- The component is on in the event. -/
def ComponentEvent.isOn (e : ComponentEvent) : Bool := e.state != 0

/-- What a message reports. -/
def ServerStateMessage.reports (msg : ServerStateMessage) : List (String × Bool) :=
  (msg.value.map StateValue.componentStates).getD []

/-- What a message reports of a field. -/
def ServerStateMessage.reported (msg : ServerStateMessage) (field : String) : Option Bool :=
  if field ∈ componentFields then msg.value.bind fun val => val.field field else none

/-- The value of a field of a device that was reported last. -/
def lastReported (messages : List ServerStateMessage) (deviceId field : String) : Option Bool :=
  messages.reverse.findSome? fun msg =>
    if msg.deviceId = deviceId then msg.reported field else none

namespace StateHistory

/-- The changes that are left of a device. -/
def events (store : StateHistory) (deviceId : String) : List ComponentEvent :=
  (store.componentEvents.lookup deviceId).getD []

/-- No change of a field that is on is pushed out by the message without being reported again
after that. -/
def KeepsComponents (store : StateHistory) (msg : ServerStateMessage) : Prop :=
  Keeps ComponentEvent.component ComponentEvent.isOn maxComponentEntries false
    (componentEvent msg.componentsAt) (store.events msg.deviceId) msg.reports

/-- A component change is recorded in the log of changes. -/
theorem insertComponentChange_eq (now : String) :
    insertComponentChange now = ChangeLog.record ComponentEvent.component ComponentEvent.isOn
      maxComponentEntries (componentEvent now) := by
  funext deque change
  exact ite_not _ _ _

/-- The entry of a component change has its key and its value. -/
theorem writes_componentEvent (now : String) :
    Writes ComponentEvent.component ComponentEvent.isOn (componentEvent now) where
  key_eq _ := rfl
  value_eq report := by rcases report with ⟨field, _ | _⟩ <;> rfl

/-- The state of a component is that of its last change, or off. -/
theorem getLatestComponentState_eq (store : StateHistory) (deviceId component : String) :
    store.getLatestComponentState deviceId component =
      (latest ComponentEvent.component ComponentEvent.isOn (store.events deviceId)
        component).getD false := by
  unfold getLatestComponentState events
  cases store.componentEvents.lookup deviceId <;> rfl

/-- Component changes are recorded for their own device only. -/
theorem events_insertComponentChanges (store : StateHistory) (id : String)
    (newStates : List (String × Bool)) (now deviceId : String) :
    (store.insertComponentChanges id newStates now).events deviceId =
      if id = deviceId then newStates.foldl (insertComponentChange now) (store.events deviceId)
      else store.events deviceId := by
  unfold insertComponentChanges events
  dsimp only
  by_cases h : id = deviceId
  · subst h
    rw [if_pos rfl, AList.lookup_insert]
    rfl
  · rw [if_neg h, AList.lookup_insert_ne (Ne.symm h)]

/-- A message records what it reports of its device, and leaves the others alone. -/
theorem events_handleState (parse : String → Option ℤ) (store : StateHistory)
    (msg : ServerStateMessage) (deviceId : String) :
    (handleState parse store msg).events deviceId =
      if msg.deviceId = deviceId then
        msg.reports.foldl (ChangeLog.record ComponentEvent.component ComponentEvent.isOn
          maxComponentEntries (componentEvent msg.componentsAt)) (store.events deviceId)
      else store.events deviceId := by
  rw [← insertComponentChange_eq]
  unfold handleState ServerStateMessage.reports
  cases msg.value with
  | none => exact (ite_self _).symm
  | some val => exact events_insertComponentChanges _ _ _ _ _

end StateHistory

/-! ## What was reported last -/

/-- What was reported last of each device, after one more message. -/
def noteMessage (reported : String → String → Option Bool) (msg : ServerStateMessage) :
    String → String → Option Bool :=
  Function.update reported msg.deviceId (msg.reports.foldl note (reported msg.deviceId))

/-- The reports of a message note what it reports of each field. -/
theorem foldl_note_filterMap (fields : List String) (val : String → Option Bool)
    (reported : String → Option Bool) (field : String) :
    (fields.filterMap fun field => (val field).map fun b => (field, b)).foldl note reported field =
      (if field ∈ fields then val field else none).or (reported field) := by
  induction fields generalizing reported with
  | nil => rfl
  | cons head fields ih =>
    cases hval : val head with
    | none =>
      rw [List.filterMap_cons_none (by rw [hval]; rfl), ih]
      by_cases h : field = head
      · subst h
        rw [hval, ite_self, ite_self]
      · simp only [List.mem_cons, h, false_or]
    | some b =>
      rw [List.filterMap_cons_some (b := (head, b)) (by rw [hval]; rfl), List.foldl_cons, ih]
      by_cases h : field = head
      · subst h
        rw [note, Function.update_self, hval, if_pos List.mem_cons_self]
        split <;> rfl
      · rw [note, Function.update_of_ne h]
        simp only [List.mem_cons, h, false_or]

/-- What a message reports comes before what was reported. -/
theorem foldl_note_reports (msg : ServerStateMessage) (reported : String → Option Bool)
    (field : String) :
    msg.reports.foldl note reported field = (msg.reported field).or (reported field) := by
  unfold ServerStateMessage.reports ServerStateMessage.reported
  cases msg.value with
  | none => exact (congrArg (Option.or · _) (ite_self none)).symm
  | some val => exact foldl_note_filterMap componentFields val.field reported field

/-- What has been noted is what was reported last. -/
theorem foldl_noteMessage (messages : List ServerStateMessage) (deviceId field : String) :
    messages.foldl noteMessage (fun _ _ => none) deviceId field =
      lastReported messages deviceId field := by
  induction messages using List.reverseRecOn with
  | nil => rfl
  | append_singleton messages msg ih =>
    rw [List.foldl_concat, noteMessage, lastReported, List.reverse_concat, List.findSome?_cons]
    by_cases h : msg.deviceId = deviceId
    · subst h
      rw [Function.update_self, foldl_note_reports, ih, if_pos rfl]
      cases msg.reported field <;> rfl
    · rw [Function.update_of_ne (Ne.symm h), ih, if_neg h]
      rfl

/-! ## Runs -/

/-- No field of a device is lost. -/
structure ReadsComponents (store : StateHistory) (reported : String → String → Option Bool) :
    Prop where
  faithful : ∀ deviceId, Faithful ComponentEvent.component ComponentEvent.isOn
    (store.events deviceId) (reported deviceId)
  kept : ∀ deviceId field, ¬ Lost ComponentEvent.component ComponentEvent.isOn false
    (store.events deviceId) (reported deviceId) field

/-- In the beginning nothing is known of any component. -/
theorem readsComponents_new : ReadsComponents .new fun _ _ => none :=
  ⟨fun _ _ => .inl rfl, fun _ _ h => h.2.elim fun _ hv => Option.some_ne_none _ hv.1.symm⟩

/-- A message keeps the events faithful, of every device. -/
theorem ReadsComponents.faithful_step {store : StateHistory}
    {reported : String → String → Option Bool} (h : ReadsComponents store reported)
    (parse : String → Option ℤ) (msg : ServerStateMessage) (deviceId : String) :
    Faithful ComponentEvent.component ComponentEvent.isOn
      ((handleState parse store msg).events deviceId) (noteMessage reported msg deviceId) := by
  rw [StateHistory.events_handleState, noteMessage]
  by_cases hd : msg.deviceId = deviceId
  · subst hd
    rw [if_pos rfl, Function.update_self]
    exact (h.faithful _).foldl (StateHistory.writes_componentEvent _) _
  · rw [if_neg hd, Function.update_of_ne (Ne.symm hd)]
    exact h.faithful deviceId

/-- After a message no field is lost exactly when it keeps what it pushes out. -/
theorem ReadsComponents.kept_step_iff {store : StateHistory}
    {reported : String → String → Option Bool} (h : ReadsComponents store reported)
    (parse : String → Option ℤ) (msg : ServerStateMessage) :
    (∀ deviceId field, ¬ Lost ComponentEvent.component ComponentEvent.isOn false
      ((handleState parse store msg).events deviceId) (noteMessage reported msg deviceId) field) ↔
      store.KeepsComponents msg := by
  have hself : (∀ field, ¬ Lost ComponentEvent.component ComponentEvent.isOn false
      ((handleState parse store msg).events msg.deviceId)
      (noteMessage reported msg msg.deviceId) field) ↔ store.KeepsComponents msg := by
    rw [StateHistory.events_handleState, if_pos rfl, noteMessage, Function.update_self]
    refine Iff.trans (lost_foldl_iff (StateHistory.writes_componentEvent _)
      (h.faithful msg.deviceId) msg.reports) ?_
    exact and_iff_right fun field hlost => absurd hlost (h.kept msg.deviceId field)
  rw [← hself]
  refine ⟨fun hall => hall msg.deviceId, fun hdevice deviceId => ?_⟩
  by_cases hd : msg.deviceId = deviceId
  · subst hd
    exact hdevice
  · rw [StateHistory.events_handleState, if_neg hd, noteMessage,
      Function.update_of_ne (Ne.symm hd)]
    exact h.kept deviceId

/-- Each field is read as it was reported last. -/
def ReadsLast (store : StateHistory) (reported : String → String → Option Bool) : Prop :=
  ∀ deviceId field b, reported deviceId field = some b →
    store.getLatestComponentState deviceId field = b

/-- Every component is read as last reported exactly if none has been lost. -/
theorem readsLast_iff {store : StateHistory} {reported : String → String → Option Bool}
    (h : ∀ deviceId, Faithful ComponentEvent.component ComponentEvent.isOn (store.events deviceId)
      (reported deviceId)) :
    ReadsLast store reported ↔
      ∀ deviceId field, ¬ Lost ComponentEvent.component ComponentEvent.isOn false
        (store.events deviceId) (reported deviceId) field := by
  unfold ReadsLast
  simp only [StateHistory.getLatestComponentState_eq]
  exact forall_congr' fun deviceId => forall_getD_latest_iff (h deviceId) false

/-- In a run every component is read as last reported exactly if no step loses one. -/
theorem run_readsLast_iff (parse : String → Option ℤ) (messages : List ServerStateMessage) :
    (∀ pre post, messages = pre ++ post →
      ReadsLast (pre.foldl (handleState parse) .new) (pre.foldl noteMessage fun _ _ => none)) ↔
    Along (handleState parse) StateHistory.KeepsComponents .new messages := by
  refine along_iff_forall_noted (I := ReadsComponents) ?_ ?_ ?_ readsComponents_new messages
  · exact fun store reported h => (readsLast_iff h.faithful).2 h.kept
  · exact fun store reported msg h hread => (h.kept_step_iff parse msg).1
      ((readsLast_iff (h.faithful_step parse msg)).1 hread)
  · exact fun store reported msg h hkeeps =>
      ⟨h.faithful_step parse msg, (h.kept_step_iff parse msg).2 hkeeps⟩

/-- After every message each field of each device is read as it was reported last exactly when no
message pushes out the only change of a field that is on, without reporting the field after that. -/
theorem componentStates_latest_iff (parse : String → Option ℤ)
    (messages : List ServerStateMessage) :
    (∀ pre post, messages = pre ++ post → ∀ deviceId field b,
      lastReported pre deviceId field = some b →
        (pre.foldl (handleState parse) .new).getLatestComponentState deviceId field = b) ↔
    Along (handleState parse) StateHistory.KeepsComponents .new messages := by
  rw [← run_readsLast_iff]
  simp only [ReadsLast, foldl_noteMessage]

/-! ## A field that is pushed out -/

/-- A message of a device that reports one field. -/
def reportOf (field : String) (b : Bool) : ServerStateMessage where
  deviceId := "spa"
  value := some ⟨none, none, fun f => if f = field then some b else none⟩
  temperatureAt := "2026-01-01T00:00:00+00:00"
  componentsAt := "2026-01-01T00:00:00+00:00"

/-- The blower is turned on and off. -/
def blowerReports (n : ℕ) : List ServerStateMessage :=
  (List.range n).map fun i => reportOf "blower" (i % 2 = 0)

/-- The event of a change that `reportOf` reports. -/
def eventOf (field : String) (b : Bool) : ComponentEvent :=
  componentEvent "2026-01-01T00:00:00+00:00" (field, b)

/-- The events of the blower. -/
def blowerEvents (n : ℕ) : List ComponentEvent :=
  (List.range n).map fun i => eventOf "blower" (i % 2 = 0)

/-- A report of one field has that field only. -/
theorem reports_reportOf {field : String} (b : Bool) (h : field = "pump1_on" ∨ field = "blower") :
    (reportOf field b).reports = [(field, b)] := by
  rcases h with rfl | rfl <;> cases b <;> decide

/-- One more report of the blower, with the other value. -/
theorem blowerReports_succ (n : ℕ) :
    blowerReports (n + 1) = blowerReports n ++ [reportOf "blower" (n % 2 = 0)] := by
  rw [blowerReports, List.range_succ, List.map_append]
  rfl

/-- One more event of the blower, with the other value. -/
theorem blowerEvents_succ (n : ℕ) :
    blowerEvents (n + 1) = blowerEvents n ++ [eventOf "blower" (n % 2 = 0)] := by
  rw [blowerEvents, List.range_succ, List.map_append]
  rfl

/-- There are as many events as were asked for. -/
theorem length_blowerEvents (n : ℕ) : (blowerEvents n).length = n := by
  rw [blowerEvents, List.length_map, List.length_range]

/-- The report is recorded. -/
theorem events_reportOf (parse : String → Option ℤ) (store : StateHistory) {field : String}
    (b : Bool) (h : field = "pump1_on" ∨ field = "blower") :
    (handleState parse store (reportOf field b)).events "spa" =
      ChangeLog.record ComponentEvent.component ComponentEvent.isOn maxComponentEntries
        (componentEvent "2026-01-01T00:00:00+00:00") (store.events "spa") (field, b) := by
  have hdevice : (reportOf field b).deviceId = "spa" := rfl
  rw [StateHistory.events_handleState, if_pos hdevice, reports_reportOf b h]
  rfl

/-- The blower changes with each report. -/
theorem latest_blowerEvents_ne (n : ℕ) :
    latest ComponentEvent.component ComponentEvent.isOn (eventOf "pump1_on" true :: blowerEvents n)
      "blower" ≠ some (decide (n % 2 = 0)) := by
  cases n with
  | zero => decide
  | succ n =>
    have hkey : (eventOf "blower" (n % 2 = 0)).component = "blower" := rfl
    rw [blowerEvents_succ, ← List.cons_append, latest_concat, if_pos hkey, eventOf,
      (StateHistory.writes_componentEvent _).value_eq]
    intro h
    have hparity := Option.some.inj h
    rw [decide_eq_decide] at hparity
    omega

/-- The changes of the blower fill the list behind that of the pump. -/
theorem events_blowerReports (parse : String → Option ℤ) {n : ℕ} (h : n < maxComponentEntries) :
    ((reportOf "pump1_on" true :: blowerReports n).foldl (handleState parse) .new).events "spa" =
      eventOf "pump1_on" true :: blowerEvents n := by
  induction n with
  | zero => exact events_reportOf parse _ true (.inl rfl)
  | succ n ih =>
    rw [blowerReports_succ, ← List.cons_append, List.foldl_concat,
      events_reportOf parse _ _ (.inr rfl), ih (Nat.lt_of_succ_lt h), ChangeLog.record,
      if_neg (latest_blowerEvents_ne n), ChangeLog.pushCapped, List.length_cons,
      length_blowerEvents, if_neg (Nat.not_le.2 h), blowerEvents_succ]
    rfl

/-- The change of the blower that fills the list pushes that of the pump out. -/
theorem events_blowerReports_full (parse : String → Option ℤ) {n : ℕ}
    (h : n + 1 = maxComponentEntries) :
    ((reportOf "pump1_on" true :: blowerReports (n + 1)).foldl (handleState parse) .new).events
      "spa" = blowerEvents (n + 1) := by
  rw [blowerReports_succ, ← List.cons_append, List.foldl_concat,
    events_reportOf parse _ _ (.inr rfl), events_blowerReports parse (by omega),
    ChangeLog.record, if_neg (latest_blowerEvents_ne n), ChangeLog.pushCapped,
    List.length_cons, length_blowerEvents, if_pos (Nat.le_of_eq h.symm), blowerEvents_succ]
  rfl

/-- Events of the blower say nothing of the pump. -/
theorem latest_blowerEvents (n : ℕ) :
    latest ComponentEvent.component ComponentEvent.isOn (blowerEvents n) "pump1_on" = none := by
  rw [latest, Option.map_eq_none_iff, List.find?_eq_none]
  intro e he
  obtain ⟨i, -, rfl⟩ := List.mem_map.1 (List.mem_reverse.1 he)
  exact of_decide_eq_false rfl

/-- The pump was reported on, and never off. -/
theorem lastReported_blowerReports (n : ℕ) :
    lastReported (reportOf "pump1_on" true :: blowerReports n) "spa" "pump1_on" = some true := by
  have hblower : ∀ b, (reportOf "blower" b).reported "pump1_on" = none := by decide
  have hnone : (blowerReports n).reverse.findSome? (fun msg =>
      if msg.deviceId = "spa" then msg.reported "pump1_on" else none) = none := by
    rw [List.findSome?_eq_none_iff]
    intro msg hmsg
    obtain ⟨i, -, rfl⟩ := List.mem_map.1 (List.mem_reverse.1 hmsg)
    rw [hblower, ite_self]
  rw [lastReported, List.reverse_cons, List.findSome?_append, hnone]
  decide

/-- A pump is on, and the blower is turned on and off 5000 times: the pump is read as off. -/
theorem not_componentStates_latest :
    lastReported (reportOf "pump1_on" true :: blowerReports 10000) "spa" "pump1_on" = some true ∧
      StateHistory.getLatestComponentState
        ((reportOf "pump1_on" true :: blowerReports 10000).foldl (handleState fun _ => none) .new)
        "spa" "pump1_on" = false := by
  refine ⟨lastReported_blowerReports 10000, ?_⟩
  have hevents := events_blowerReports_full (fun _ => none) (n := 9999) rfl
  rw [StateHistory.getLatestComponentState_eq, hevents, latest_blowerEvents]
  rfl

end Launa.Server
