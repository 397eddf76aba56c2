import Launa.App.PublishReading
import Launa.App.RemoteLog
import Launa.Mqtt.StateJson
import Launa.Server.Records

/-!
# From the remote log to the server

The firmware captures its log messages and publishes them as JSON, a few at a time, and the server
reads them into the log of the device. Messages may be lost on the way, and other messages may come
between them, and so may requests to clear the log. Then the server shows the newest of the entries
that arrived, the last one first, each with the level, the text and the time that were captured; and
those that arrived are, in their order, among the messages that the firmware logged (`getLogs_run`).
-/

namespace Launa.Mqtt.TopicBuilder

/-- `TopicBuilder::log_topic`. -/
def logTopic (deviceId : List Char) : List Char :=
  baseTopic ++ '/' :: (deviceId ++ "/log".toList)

end Launa.Mqtt.TopicBuilder

namespace Launa.Server

open App Journal Json Mqtt RingBuffer
open Launa.Core (RemoteLogBuffer truncateChars)

/-! ## One entry -/

/-- The entry as the server keeps it when it arrives. -/
def arrived (entry : Core.LogEntry) (clock : Clock) : LogEntry :=
  ⟨entry.level, entry.message, entry.timestampMs, clock.receivedAt⟩

/-- The entry without the time when it arrived. -/
def LogEntry.sent (entry : LogEntry) : Core.LogEntry :=
  ⟨entry.level, entry.message, entry.timestampMs⟩

/-- An entry as the firmware logs it. -/
structure Loggable (entry : Core.LogEntry) : Prop where
  level : ∃ level : LogLevel, entry.level = level.str
  timestampMs : entry.timestampMs < 2^64

/-- A value that `serde_json` keeps as it is: a string, or a number of 64 bits in plain digits. -/
def IsExact (v : Value) : Prop := (∃ s, v = .text s) ∨ ∃ n < 2^64, v = .scalar (.number (n : ℕ))

/-- What is relied on of `serde_json`: an object of strings and of numbers in plain digits is read
from its text, so that its members are found under their names. -/
def ReadsObjects (json : String → Option Value) : Prop :=
  ∀ raw members, SpellsValue raw (.object members) → (members.map Prod.fst).Nodup →
    (∀ m ∈ members, IsExact m.2) →
    ∃ val, json (.ofList raw) = some val ∧ ∀ name, val.get name = (Value.object members).get name

/-- The members of an entry. -/
def entryProperties (entry : Core.LogEntry) : List Property :=
  [.string "level" entry.level.toList,
    ⟨"message".toList, '"' :: (escapeJsonString entry.message.toList ++ ['"']),
      .text entry.message.toList⟩,
    ⟨"ts".toList, natText entry.timestampMs, .scalar (.number (entry.timestampMs : ℕ))⟩]

/-- An entry is printed as its properties. -/
theorem logEntryToJson_eq (entry : Core.LogEntry) :
    logEntryToJson entry = printProperties (entryProperties entry) := by
  have hopen : "\x7b\"level\":\"".toList = '{' :: '"' :: ("level".toList ++ ['"', ':', '"']) := by
    decide
  have hmessage : "\",\"message\":\"".toList =
      '"' :: ',' :: '"' :: ("message".toList ++ ['"', ':', '"']) := by decide
  have hts : "\",\"ts\":".toList = '"' :: ',' :: '"' :: ("ts".toList ++ ['"', ':']) := by decide
  have hclose : "\x7d".toList = ['}'] := by decide
  unfold logEntryToJson printProperties entryProperties
  rw [hopen, hmessage, hts, hclose, List.map_cons, List.map_cons, List.map_cons, List.map_nil,
    List.intercalate_cons_cons, List.intercalate_cons_cons, List.intercalate_singleton]
  unfold Property.text Property.string
  simp only [List.append_assoc, List.cons_append, List.nil_append]

/-- The properties of an entry are legal. -/
theorem legal_entryProperties {entry : Core.LogEntry} (h : Loggable entry) :
    ∀ p ∈ entryProperties entry, p.Legal := by
  obtain ⟨level, hlevel⟩ := h.level
  have hplain : entry.level.toList.all isPlain = true := by
    rw [hlevel]
    cases level <;> decide
  have hmessage : "message".toList.all isPlain = true := by decide
  have hts : "ts".toList.all isPlain = true := by decide
  intro p hp
  rw [entryProperties, List.mem_cons, List.mem_cons, List.mem_singleton] at hp
  rcases hp with rfl | rfl | rfl
  · exact Property.legal_string (by decide) hplain
  · exact ⟨hmessage, spellsValue_body (escapedBody _)⟩
  · exact ⟨hts, spellsValue_nat _⟩

/-- The server reads an entry as it was sent. -/
theorem keptLog_logEntryToJson {json : String → Option Value} (hreads : ReadsObjects json)
    {entry : Core.LogEntry} (h : Loggable entry) (clock : Clock) :
    ServerEvent.keptLog json (.ofList (logEntryToJson entry)) clock = arrived entry clock := by
  have hspells := spells_printProperties (legal_entryProperties h)
  rw [← logEntryToJson_eq] at hspells
  have hnames : ["level".toList, "message".toList, "ts".toList].Nodup := by decide
  obtain ⟨val, hval, hget⟩ := hreads _ _ hspells hnames (by
    intro m hm
    obtain ⟨p, hp, rfl⟩ := List.mem_map.1 hm
    rw [entryProperties, List.mem_cons, List.mem_cons, List.mem_singleton] at hp
    rcases hp with rfl | rfl | rfl
    · exact .inl ⟨_, rfl⟩
    · exact .inl ⟨_, rfl⟩
    · exact .inr ⟨_, h.timestampMs, rfl⟩)
  have hlevel : val.get "level" = some (.text entry.level.toList) := (hget _).trans rfl
  have hmessage : val.get "message" = some (.text entry.message.toList) := (hget _).trans rfl
  have hts : val.get "ts" = some (.scalar (.number (entry.timestampMs : ℕ))) := (hget _).trans rfl
  have hparts : logParts json (.ofList (logEntryToJson entry)) =
      (entry.level, entry.message, entry.timestampMs) := by
    unfold logParts
    rw [hval]
    dsimp only
    rw [hlevel, hmessage, hts, Option.bind_some, Option.bind_some, Option.bind_some,
      Value.asStr_text, Value.asStr_text, Value.asU64_number h.timestampMs, Option.map_some,
      Option.map_some, String.ofList_toList, String.ofList_toList]
    rfl
  rw [ServerEvent.keptLog, hparts]
  rfl

/-! ## One message -/

/-- An entry as it is published. -/
def logPublish (deviceId : String) (text : List Char) (clock : Clock) : Publish :=
  ⟨asBytes (.ofList (TopicBuilder.logTopic deviceId.toList)), asBytes (.ofList text), clock⟩

/-- The server finds an entry of the device in it. -/
theorem forwarded_logPublish {deviceId : String} (hdevice : '/' ∉ deviceId.toList)
    (text : List Char) (clock : Clock) :
    (logPublish deviceId text clock).forwarded = some ⟨deviceId, .log, .ofList text⟩ := by
  have hbase : '/' ∉ TopicBuilder.baseTopic := by decide
  have htopic : deviceSubtopic (TopicBuilder.logTopic deviceId.toList) =
      some (deviceId, "log") := by
    refine (deviceSubtopic_append hbase hdevice "log".toList).trans ?_
    rw [String.ofList_toList, String.ofList_toList]
  unfold logPublish Publish.forwarded
  dsimp only [bind]
  rw [fromUtf8_asBytes, fromUtf8_asBytes, Option.bind_some, Option.bind_some,
    String.toList_ofList, htopic]
  rfl

/-- An entry that arrives is kept behind the others of the device. -/
theorem entries_handleForward {json : String → Option Value} (hreads : ReadsObjects json)
    (parse : String → Option ℤ) {deviceId : String} (hdevice : '/' ∉ deviceId.toList)
    {entry : Core.LogEntry} (h : Loggable entry) (clock : Clock) (store : ServerStore) :
    entries (store.handleForward json parse
        (logPublish deviceId (logEntryToJson entry) clock)).logs deviceId =
      ChangeLog.pushCapped maxLogEntries (entries store.logs deviceId) (arrived entry clock) := by
  have hstep := ServerStore.logs_step json parse store
    (.forward (logPublish deviceId (logEntryToJson entry) clock))
  rw [ServerEvent.logOp, Publish.added, forwarded_logPublish hdevice, Option.bind_some,
    if_pos rfl, Option.elim_some, keptLog_logEntryToJson hreads h] at hstep
  refine (congrArg (entries · deviceId) hstep).trans ?_
  rw [apply, entries_add, if_pos rfl]
  rfl

/-! ## The firmware and the server -/

/-- What the server does, and what happens to the remote log. Of the messages that are under way the
first one arrives, or any one is lost. -/
inductive LogSystemEvent where
  | app (e : LogEvent)
  | arrives (clock : Clock)
  | lost (i : ℕ)
  | server (e : ServerEvent)

/-- The remote log of the device, the messages that are under way, and the store. -/
structure LogSystem where
  buf : Option RemoteLogBuffer
  underWay : List (List Char)
  store : ServerStore

/-- Nothing is captured, and nothing is kept. -/
def LogSystem.new (config : NotificationConfig) : LogSystem := ⟨none, [], .new config⟩

/-- What an event publishes. It fails if the buffer is read out of range. -/
def publishedTexts (buf : Option RemoteLogBuffer) :
    LogEvent → Option (List (List Char) × Option RemoteLogBuffer)
  | .iterate it => (drainRemoteLog buf it).map fun r => (r.1.published, r.2)
  | e => (remoteLogStep buf e).map ([], ·)

/-- The system after an event. -/
def LogSystem.step (json : String → Option Value) (parse : String → Option ℤ) (deviceId : String)
    (sys : LogSystem) : LogSystemEvent → Option LogSystem
  | .app e => (publishedTexts sys.buf e).map fun r => ⟨r.2, sys.underWay ++ r.1, sys.store⟩
  | .arrives clock => some (match sys.underWay with
    | [] => sys
    | text :: rest =>
      ⟨sys.buf, rest, sys.store.handleForward json parse (logPublish deviceId text clock)⟩)
  | .lost i => some { sys with underWay := sys.underWay.eraseIdx i }
  | .server e => some { sys with store := sys.store.step json parse e }

/-! ## What arrives -/

/-- The entries that the loop publishes, as `publishEntries` has them. -/
def sentEntries (sent : ℕ → Bool) : ℕ → List Core.LogEntry → List Core.LogEntry
  | _, [] => []
  | i, entry :: entries =>
    if i ≥ maxLogEntriesPerIter then []
    else if sent i then entry :: sentEntries sent (i + 1) entries
    else []

/-- The entries that an event publishes, of those that wait. -/
def entriesSent (waiting : RemoteLogBuffer.Accepted) : LogEvent → List Core.LogEntry
  | .iterate it => if it.reachesLog then sentEntries it.sent 0 (held waiting) else []
  | _ => []

/-- The entries that wait to be taken out of the buffer, those that are under way, and those that
have arrived since the log was cleared last. -/
structure Pipeline where
  waiting : RemoteLogBuffer.Accepted
  underWay : List Core.LogEntry
  arrived : List LogEntry

/-- No entries. -/
def Pipeline.empty : Pipeline := ⟨⟨false, []⟩, [], []⟩

/-- The pipeline after an event. -/
def Pipeline.step (deviceId : String) (p : Pipeline) : LogSystemEvent → Pipeline
  | .app e => ⟨captured p.waiting e, p.underWay ++ entriesSent p.waiting e, p.arrived⟩
  | .arrives clock => match p.underWay with
    | [] => p
    | entry :: rest => ⟨p.waiting, rest, p.arrived ++ [Server.arrived entry clock]⟩
  | .lost i => { p with underWay := p.underWay.eraseIdx i }
  | .server (.clearLogs id) => if id = deviceId then { p with arrived := [] } else p
  | .server _ => p

/-- The entry that an event logs. -/
def LogSystemEvent.logged : LogSystemEvent → Option Core.LogEntry
  | .app (.log level message ts) => some ⟨level.str, truncateChars (prefixed message ts), ts⟩
  | _ => none

/-- The time of an entry is one of 64 bits, and only the device publishes under the topic of its
log. -/
def LogSystemEvent.Allowed (json : String → Option Value) (deviceId : String) :
    LogSystemEvent → Prop
  | .app (.log _ _ ts) => ts < 2^64
  | .server e => ∀ entry, e.logOp json ≠ some (.add deviceId entry)
  | _ => True

/-- The entries that are published are those that are sent. -/
theorem publishEntries_eq_sentEntries (sent : ℕ → Bool) (i : ℕ) (entries : List Core.LogEntry) :
    publishEntries sent i entries = (sentEntries sent i entries).map logEntryToJson := by
  induction entries generalizing i with
  | nil => rfl
  | cons entry entries ih =>
    rw [publishEntries, sentEntries]
    split
    · rfl
    · split
      · rw [ih, List.map_cons]
      · rfl

/-- The loop publishes the first of the entries. -/
theorem isPrefix_sentEntries (sent : ℕ → Bool) (i : ℕ) (entries : List Core.LogEntry) :
    sentEntries sent i entries <+: entries := by
  induction entries generalizing i with
  | nil => exact List.nil_prefix
  | cons entry entries ih =>
    rw [sentEntries]
    split
    · exact List.nil_prefix
    · split
      · exact (List.prefix_cons_inj entry).2 (ih (i + 1))
      · exact List.nil_prefix

/-! ## One event -/

/-- The buffer holds what waits, what is under way is the text of what was sent, the server keeps
what has arrived, and all of that was logged. -/
structure Carries (deviceId : String) (sys : LogSystem) (p : Pipeline)
    (logged : List Core.LogEntry) : Prop where
  captures : Captures sys.buf p.waiting
  underWay : sys.underWay = p.underWay.map logEntryToJson
  kept : entries sys.store.logs deviceId = recent maxLogEntries p.arrived
  sublist : (p.arrived.map LogEntry.sent ++ (p.underWay ++
    p.waiting.entries.map (RemoteLogBuffer.cut truncateChars))).Sublist logged
  loggable : ∀ entry ∈ logged, Loggable entry

variable {json : String → Option Value} {parse : String → Option ℤ} {deviceId : String}
  {sys : LogSystem} {p : Pipeline} {logged : List Core.LogEntry}

/-- What an event publishes are the entries of the pipeline. -/
theorem publishedTexts_eq {buf : Option RemoteLogBuffer} {a : RemoteLogBuffer.Accepted}
    (h : Captures buf a) (e : LogEvent) :
    ∃ buf', publishedTexts buf e = some ((entriesSent a e).map logEntryToJson, buf') ∧
      Captures buf' (captured a e) := by
  cases e with
  | iterate it =>
    obtain ⟨buf', hdrain, h'⟩ := h.drainRemoteLog it
    refine ⟨buf', ?_, h'⟩
    rw [publishedTexts, hdrain, entriesSent]
    cases it.reachesLog with
    | true => exact congrArg (fun texts => some (texts, buf')) (publishEntries_eq_sentEntries _ _ _)
    | false => rfl
  | init =>
    obtain ⟨buf', hstep, h'⟩ := h.step .init
    exact ⟨buf', by rw [publishedTexts, hstep]; rfl; simp, h'⟩
  | log level message ts =>
    obtain ⟨buf', hstep, h'⟩ := h.step (.log level message ts)
    exact ⟨buf', by rw [publishedTexts, hstep]; rfl; simp, h'⟩

/-- What an event sends is left of what waited. -/
theorem sublist_waiting {a : RemoteLogBuffer.Accepted} (e : LogEvent)
    (hlog : ∀ level message ts, e ≠ .log level message ts) :
    (entriesSent a e ++ (captured a e).entries.map (RemoteLogBuffer.cut truncateChars)).Sublist
      (a.entries.map (RemoteLogBuffer.cut truncateChars)) := by
  cases e with
  | init => exact List.nil_sublist _
  | log level message ts => exact absurd rfl (hlog level message ts)
  | iterate it =>
    rw [entriesSent, captured_iterate]
    cases it.reachesLog with
    | false => exact List.Sublist.refl _
    | true =>
      have hsent : (sentEntries it.sent 0 (held a)).Sublist (held a) :=
        (isPrefix_sentEntries it.sent 0 (held a)).sublist
      have hheld : (held a).Sublist (a.entries.map (RemoteLogBuffer.cut truncateChars)) :=
        List.drop_sublist _ _
      refine (List.append_nil _).symm ▸ ?_
      exact hsent.trans hheld

/-- What is logged waits in the buffer, if there is one. -/
theorem sublist_logged (a : RemoteLogBuffer.Accepted) (level : LogLevel) (message : String)
    (ts : ℕ) :
    ((captured a (.log level message ts)).entries.map (RemoteLogBuffer.cut truncateChars)).Sublist
      (a.entries.map (RemoteLogBuffer.cut truncateChars) ++
        [⟨level.str, truncateChars (prefixed message ts), ts⟩]) := by
  rw [captured, RemoteLogBuffer.Accepted.call]
  split
  · rw [List.map_append]
    exact List.Sublist.refl _
  · exact List.sublist_append_left _ _

/-- A message adds no entry but under the topic of a log, and clears none. -/
theorem logOp_forward (json : String → Option Value) (publish : Publish) :
    (ServerEvent.forward publish).logOp json = none ∨
      ∃ id entry, (ServerEvent.forward publish).logOp json = some (.add id entry) := by
  rw [ServerEvent.logOp, Publish.added]
  cases publish.forwarded with
  | none => exact .inl rfl
  | some msg =>
    rw [Option.bind_some]
    split
    · exact .inr ⟨_, _, rfl⟩
    · exact .inl rfl

/-- What else the server does leaves the log of the device, or clears it. -/
theorem Carries.server (h : Carries deviceId sys p logged) {e : ServerEvent}
    (hallowed : ∀ entry, e.logOp json ≠ some (.add deviceId entry)) :
    Carries deviceId { sys with store := sys.store.step json parse e } (p.step deviceId (.server e))
      logged := by
  have hlogs := ServerStore.logs_step json parse sys.store e
  have hsame : (e.logOp json).elim sys.store.logs (apply maxLogEntries sys.store.logs) =
        sys.store.logs →
      Carries deviceId { sys with store := sys.store.step json parse e } p logged :=
    fun heq => ⟨h.captures, h.underWay, by rw [hlogs, heq]; exact h.kept, h.sublist, h.loggable⟩
  cases e with
  | forward publish =>
    rcases logOp_forward json publish with hnone | ⟨id, entry, hadd⟩
    · exact hsame (by rw [hnone]; rfl)
    · have hid : id ≠ deviceId := by
        rintro rfl
        exact hallowed entry hadd
      refine ⟨h.captures, h.underWay, ?_, h.sublist, h.loggable⟩
      rw [hlogs, hadd, Option.elim_some, apply, entries_add, if_neg hid]
      exact h.kept
  | clearLogs id =>
    rw [Pipeline.step]
    by_cases hid : id = deviceId
    · rw [if_pos hid]
      refine ⟨h.captures, h.underWay, ?_, ?_, h.loggable⟩
      · rw [hlogs, ServerEvent.logOp, Option.elim_some, apply, entries_clear, if_pos hid]
        exact (recent_nil _).symm
      · exact (List.sublist_append_right _ _).trans h.sublist
    · rw [if_neg hid]
      refine ⟨h.captures, h.underWay, ?_, h.sublist, h.loggable⟩
      rw [hlogs, ServerEvent.logOp, Option.elim_some, apply, entries_clear, if_neg hid]
      exact h.kept
  | clearDiagnostics id => exact hsame rfl
  | clearAlerts id => exact hsame rfl
  | clearSniff id => exact hsame rfl

/-- What is under way, waits and has arrived is left of what was logged. -/
theorem Carries.sublist_app (h : Carries deviceId sys p logged) (e : LogEvent) :
    (p.arrived.map LogEntry.sent ++ (p.underWay ++ entriesSent p.waiting e ++
      (captured p.waiting e).entries.map (RemoteLogBuffer.cut truncateChars))).Sublist
      (logged ++ (LogSystemEvent.app e).logged.toList) := by
  rw [List.append_assoc, ← List.append_assoc]
  have hsub := h.sublist
  rw [← List.append_assoc] at hsub
  by_cases hlog : ∃ level message ts, e = .log level message ts
  · obtain ⟨level, message, ts, rfl⟩ := hlog
    refine List.Sublist.trans (List.Sublist.append (List.Sublist.refl _)
      (sublist_logged p.waiting level message ts)) ?_
    rw [← List.append_assoc]
    exact hsub.append (List.Sublist.refl _)
  · have hwaiting := sublist_waiting (a := p.waiting) e fun level message ts heq =>
      hlog ⟨level, message, ts, heq⟩
    refine List.Sublist.trans ?_ (List.sublist_append_left _ _)
    exact (List.Sublist.append (List.Sublist.refl _) hwaiting).trans hsub

/-- What happens to the remote log sends what the pipeline has. -/
theorem Carries.app (h : Carries deviceId sys p logged) {e : LogEvent}
    (hallowed : (LogSystemEvent.app e).Allowed json deviceId) :
    ∃ sys', sys.step json parse deviceId (.app e) = some sys' ∧
      Carries deviceId sys' (p.step deviceId (.app e))
        (logged ++ (LogSystemEvent.app e).logged.toList) := by
  obtain ⟨buf', htexts, hcaptures⟩ := publishedTexts_eq h.captures e
  have hloggable : ∀ entry ∈ logged ++ (LogSystemEvent.app e).logged.toList, Loggable entry := by
    intro entry hentry
    rcases List.mem_append.1 hentry with hold | hnew
    · exact h.loggable entry hold
    · cases e with
      | log level message ts =>
        obtain rfl := List.mem_singleton.1 hnew
        exact ⟨⟨level, rfl⟩, hallowed⟩
      | init => exact absurd hnew List.not_mem_nil
      | iterate it => exact absurd hnew List.not_mem_nil
  rw [LogSystem.step, htexts]
  refine ⟨_, rfl, hcaptures, ?_, h.kept, h.sublist_app e, hloggable⟩
  dsimp only
  rw [h.underWay, Pipeline.step, List.map_append]

/-- The first message that is under way arrives as it was sent. -/
theorem Carries.arrives (hreads : ReadsObjects json) (parse : String → Option ℤ)
    (hdevice : '/' ∉ deviceId.toList)
    (h : Carries deviceId sys p logged) (clock : Clock) :
    ∃ sys', sys.step json parse deviceId (.arrives clock) = some sys' ∧
      Carries deviceId sys' (p.step deviceId (.arrives clock)) logged := by
  have hpos : 0 < maxLogEntries := by decide
  have hunderWay := h.underWay
  have hsub := h.sublist
  refine ⟨_, rfl, ?_⟩
  rw [Pipeline.step]
  cases hp : p.underWay with
  | nil =>
    rw [hp, List.map_nil] at hunderWay
    rw [hunderWay]
    exact h
  | cons entry rest =>
    rw [hp, List.map_cons] at hunderWay
    rw [hp, List.cons_append] at hsub
    have hentry : Loggable entry := h.loggable entry
      (hsub.subset (List.mem_append_right _ List.mem_cons_self))
    rw [hunderWay]
    refine ⟨h.captures, rfl, ?_, ?_, h.loggable⟩
    · dsimp only
      rw [entries_handleForward hreads parse hdevice hentry, h.kept, pushCapped_recent hpos]
    · dsimp only
      rw [List.map_append, List.append_assoc]
      exact hsub

/-- A message that is lost leaves the others. -/
theorem Carries.lost (h : Carries deviceId sys p logged) (i : ℕ) :
    Carries deviceId { sys with underWay := sys.underWay.eraseIdx i } (p.step deviceId (.lost i))
      logged := by
  have hleft : (p.underWay.eraseIdx i ++
      p.waiting.entries.map (RemoteLogBuffer.cut truncateChars)).Sublist
      (p.underWay ++ p.waiting.entries.map (RemoteLogBuffer.cut truncateChars)) :=
    (List.eraseIdx_sublist _ _).append (List.Sublist.refl _)
  refine ⟨h.captures, ?_, h.kept, ?_, h.loggable⟩
  · dsimp only
    rw [h.underWay, Pipeline.step, List.eraseIdx_map]
  · exact ((List.Sublist.refl _).append hleft).trans h.sublist

/-- An event keeps what is carried. -/
theorem Carries.step (hreads : ReadsObjects json) (parse : String → Option ℤ)
    (hdevice : '/' ∉ deviceId.toList) (h : Carries deviceId sys p logged) {e : LogSystemEvent}
    (hallowed : e.Allowed json deviceId) :
    ∃ sys', sys.step json parse deviceId e = some sys' ∧
      Carries deviceId sys' (p.step deviceId e) (logged ++ e.logged.toList) := by
  have hnone : ∀ {p' : Pipeline} {sys' : LogSystem}, e.logged = none →
      Carries deviceId sys' p' logged → Carries deviceId sys' p' (logged ++ e.logged.toList) := by
    intro p' sys' hlogged h'
    rwa [hlogged, Option.toList_none, List.append_nil]
  cases e with
  | app e => exact h.app hallowed
  | arrives clock =>
    obtain ⟨sys', hstep, h'⟩ := h.arrives hreads parse hdevice clock
    exact ⟨sys', hstep, hnone rfl h'⟩
  | lost i => exact ⟨_, rfl, hnone rfl (h.lost i)⟩
  | server e => exact ⟨_, rfl, hnone rfl (h.server hallowed)⟩

/-! ## Any events -/

/-- After any events the entries are carried. -/
theorem carries_events (hreads : ReadsObjects json) (parse : String → Option ℤ)
    (hdevice : '/' ∉ deviceId.toList) (config : NotificationConfig) {events : List LogSystemEvent}
    (hevents : ∀ e ∈ events, e.Allowed json deviceId) :
    ∃ sys, events.foldlM (LogSystem.step json parse deviceId) (.new config) = some sys ∧
      Carries deviceId sys (events.foldl (Pipeline.step deviceId) .empty)
        (events.filterMap LogSystemEvent.logged) := by
  induction events using List.reverseRecOn with
  | nil => exact ⟨_, rfl, rfl, rfl, (recent_nil _).symm, List.Sublist.slnil, fun _ h => by cases h⟩
  | append_singleton events e ih =>
    obtain ⟨sys, hrun, h⟩ := ih fun e he => hevents e (List.mem_append_left _ he)
    have hallowed : e.Allowed json deviceId :=
      hevents e (List.mem_append_right _ (List.mem_singleton_self e))
    have hlogged : (events ++ [e]).filterMap LogSystemEvent.logged =
        events.filterMap LogSystemEvent.logged ++ e.logged.toList := by
      rw [List.filterMap_append]
      cases h : e.logged with
      | none => rw [List.filterMap_cons_none h]; rfl
      | some entry => rw [List.filterMap_cons_some h]; rfl
    obtain ⟨sys', hstep, h'⟩ := h.step hreads parse hdevice hallowed
    rw [List.foldlM_append, hrun, List.foldl_concat, hlogged]
    exact ⟨sys', by simp [hstep], h'⟩

/-- After any events the server shows the newest entries of the device that have arrived since its
log was cleared, at most the limit and the capacity of them, the last one first, as they were
captured; and those that arrived are, in their order, among those that were logged. -/
theorem getLogs_run (hreads : ReadsObjects json) (parse : String → Option ℤ)
    (hdevice : '/' ∉ deviceId.toList) (config : NotificationConfig) {events : List LogSystemEvent}
    (hevents : ∀ e ∈ events, e.Allowed json deviceId) (limit : ℕ) :
    ∃ sys, events.foldlM (LogSystem.step json parse deviceId) (.new config) = some sys ∧
      let shown := (events.foldl (Pipeline.step deviceId) .empty).arrived
      sys.store.getLogs deviceId limit = (recent (min limit maxLogEntries) shown).reverse ∧
      (shown.map LogEntry.sent).Sublist (events.filterMap LogSystemEvent.logged) := by
  obtain ⟨sys, hrun, h⟩ := carries_events hreads parse hdevice config hevents
  refine ⟨sys, hrun, ?_, (List.sublist_append_left _ _).trans h.sublist⟩
  rw [ServerStore.getLogs, newest_eq, h.kept, recent_recent]

/-- A reader of JSON. -/
def readJson (s : String) : Option Value := (readValue s.toList.length s.toList).map Prod.fst

/-- The reader reads every object. -/
theorem readsObjects_readJson : ReadsObjects readJson := by
  intro raw members hspells _ _
  have hrest : Stops [] := fun c hc => by cases hc
  refine ⟨.object members, ?_, fun name => rfl⟩
  rw [readJson, String.toList_ofList]
  have hread := readValue_spells hspells (Nat.le_refl _) hrest
  rw [List.append_nil] at hread
  rw [hread]
  rfl

/-- A warning is logged, published and shown. -/
theorem getLogs_run_warning :
    let events : List LogSystemEvent := [.app .init, .app (.log .warn "x" 1000),
      .app (.iterate ⟨true, false, fun _ => true⟩), .arrives ⟨"t", "t", "t", "t", "t"⟩]
    ∃ sys, events.foldlM (LogSystem.step readJson (fun _ => none) "spa") (.new ⟨"", 2, []⟩) =
        some sys ∧
      let shown := (events.foldl (Pipeline.step "spa") .empty).arrived
      sys.store.getLogs "spa" 100 = (recent (min 100 maxLogEntries) shown).reverse ∧
      (shown.map LogEntry.sent).Sublist (events.filterMap LogSystemEvent.logged) := by
  refine getLogs_run readsObjects_readJson _ (by decide) _ (fun e he => ?_) 100
  simp only [List.mem_cons, List.not_mem_nil, or_false] at he
  rcases he with rfl | rfl | rfl | rfl
  · exact trivial
  · exact (by decide : 1000 < 2^64)
  · exact trivial
  · exact trivial

end Launa.Server
