import Launa.Core.LogBuffer
import Launa.Mqtt.State

/-!
# The remote log

The firmware captures its log messages in a buffer (`remote_log.rs`), and an iteration of the MQTT
task takes all of them out and publishes them. It publishes no more than three, and what it took out
beyond those is gone: the log is published in full exactly when no more than three messages have
been captured since the buffer was last drained (`published_iff`).
-/

namespace Launa.App

open Launa.Core Mqtt RingBuffer

/-! ## `remote_log.rs` -/

/-- The levels of `log`. -/
inductive LogLevel where
  | error | warn | info | debug | trace
  deriving DecidableEq, Repr

/-- The level as `capture_log` writes it. -/
def LogLevel.str : LogLevel → String
  | .error => "error"
  | .warn => "warn"
  | .info => "info"
  | .debug => "debug"
  | .trace => "trace"

/-- A message after its time, as `{:5}.{:03}s {}` prints them. -/
def prefixed (message : String) (ts : ℕ) : String :=
  let tsSecs := ts / 1000
  let tsFrac := ts % 1000
  .ofList (List.leftpad 5 ' ' (natText tsSecs) ++ ".".toList ++
    List.leftpad 3 '0' (natText tsFrac) ++ "s ".toList ++ message.toList)

/-- `init_remote_log`. -/
def initRemoteLog : Option RemoteLogBuffer := some (RemoteLogBuffer.new.init.setEnabled true)

/-- `capture_log`. -/
def captureLog (buf : Option RemoteLogBuffer) (level : LogLevel) (message : String) (ts : ℕ) :
    Option RemoteLogBuffer :=
  buf.map fun buf => buf.pushChars level.str (prefixed message ts) ts

/-- `log_entry_to_json`. -/
def logEntryToJson (entry : LogEntry) : List Char :=
  let escaped := escapeJsonString entry.message.toList
  "\x7b\"level\":\"".toList ++ entry.level.toList ++ "\",\"message\":\"".toList ++ escaped ++
    "\",\"ts\":".toList ++ natText entry.timestampMs ++ "\x7d".toList

/-! ## `mqtt_task.rs` -/

/-- `MAX_LOG_ENTRIES_PER_ITER`. -/
def maxLogEntriesPerIter : ℕ := 3

/-- An iteration of the task. -/
structure Iteration where
  connected : Bool
  /-- A payload of another channel waits, and is published instead. -/
  waiting : Bool
  /-- Whether a publish succeeds. -/
  sent : ℕ → Bool

/-- What an iteration takes out of the buffer, and what it publishes of that. -/
structure LogOutput where
  drained : List LogEntry
  published : List (List Char)

/-- The loop over the entries, from an index on. It stops at a publish that fails. -/
def publishEntries (sent : ℕ → Bool) : ℕ → List LogEntry → List (List Char)
  | _, [] => []
  | i, entry :: entries =>
    if i ≥ maxLogEntriesPerIter then []
    else if sent i then logEntryToJson entry :: publishEntries sent (i + 1) entries
    else []

/-- The iteration takes to the remote log. The count of other receives is zero then. -/
def Iteration.reachesLog (it : Iteration) : Bool := it.connected && !it.waiting

/-- What an iteration does with the remote log. It fails if the buffer is read out of range. -/
def drainRemoteLog (buf : Option RemoteLogBuffer) (it : Iteration) :
    Option (LogOutput × Option RemoteLogBuffer) :=
  if it.reachesLog then
    match buf with
    | some logBuf =>
      if !logBuf.isEmpty then
        logBuf.drain.map fun (entries, logBuf) =>
          (⟨entries, publishEntries it.sent 0 entries⟩, some logBuf)
      else some (⟨[], []⟩, buf)
    | none => some (⟨[], []⟩, buf)
  else some (⟨[], []⟩, buf)

/-! ## Runs -/

/-- What happens to the remote log. -/
inductive LogEvent where
  | init
  | log (level : LogLevel) (message : String) (ts : ℕ)
  | iterate (it : Iteration)

/-- The buffer after an event. -/
def remoteLogStep (buf : Option RemoteLogBuffer) : LogEvent → Option (Option RemoteLogBuffer)
  | .init => some initRemoteLog
  | .log level message ts => some (captureLog buf level message ts)
  | .iterate it => (drainRemoteLog buf it).map (·.2)

/-- What the buffer has accepted since it was last drained, after an event. -/
def captured (a : RemoteLogBuffer.Accepted) : LogEvent → RemoteLogBuffer.Accepted
  | .init => ⟨true, []⟩
  | .log level message ts => a.call (.push level.str (prefixed message ts) ts)
  | .iterate it => if it.reachesLog then a.call .drain else a

/-- The messages that were captured and wait to be drained. -/
def waitingLogs (events : List LogEvent) : List LogEntry :=
  (events.foldl captured ⟨false, []⟩).entries

/-! ## What is published -/

/-- When every publish succeeds, the loop publishes the entries that are left of the first three. -/
theorem publishEntries_eq {sent : ℕ → Bool} (hsent : ∀ i, sent i = true) (i : ℕ)
    (entries : List LogEntry) :
    publishEntries sent i entries =
      (entries.take (maxLogEntriesPerIter - i)).map logEntryToJson := by
  induction entries generalizing i with
  | nil => simp [publishEntries]
  | cons entry entries ih =>
    rw [publishEntries]
    by_cases hmax : i ≥ maxLogEntriesPerIter
    · rw [if_pos hmax, Nat.sub_eq_zero_of_le hmax, List.take_zero, List.map_nil]
    · have hsucc : maxLogEntriesPerIter - i = maxLogEntriesPerIter - (i + 1) + 1 := by omega
      rw [if_neg hmax, if_pos (hsent i), ih, hsucc, List.take_succ_cons, List.map_cons]

/-- The first three of some entries are all of them exactly when there are no more. -/
theorem publishEntries_eq_map_iff {sent : ℕ → Bool} (hsent : ∀ i, sent i = true)
    (entries : List LogEntry) :
    publishEntries sent 0 entries = entries.map logEntryToJson ↔
      entries.length ≤ maxLogEntriesPerIter := by
  rw [publishEntries_eq hsent, Nat.sub_zero]
  constructor
  · intro h
    have hlength := congrArg List.length h
    rw [List.length_map, List.length_map, List.length_take] at hlength
    omega
  · intro h
    rw [List.take_of_length_le h]

/-- The buffer, if there is one, holds what was captured. -/
def Captures (buf : Option RemoteLogBuffer) (a : RemoteLogBuffer.Accepted) : Prop :=
  match buf with
  | some logBuf => logBuf.Agrees truncateChars a
  | none => a = ⟨false, []⟩

variable {buf : Option RemoteLogBuffer} {a : RemoteLogBuffer.Accepted}

/-- What the buffer holds of some entries. -/
def held (a : RemoteLogBuffer.Accepted) : List LogEntry :=
  recent remoteLogBufSize (a.entries.map (RemoteLogBuffer.cut truncateChars))

/-- An empty buffer holds nothing. -/
theorem held_eq_nil {logBuf : RemoteLogBuffer} (h : logBuf.Agrees truncateChars a)
    (hempty : logBuf.isEmpty = true) : held a = [] := by
  apply List.eq_nil_of_length_eq_zero
  calc (held a).length
      = logBuf.len := h.holds.length
    _ = 0 := of_decide_eq_true hempty

/-- An iteration drains the buffer if it reaches the log. -/
theorem captured_iterate (a : RemoteLogBuffer.Accepted) (it : Iteration) :
    captured a (.iterate it) = if it.reachesLog then a.call .drain else a := rfl

/-- An iteration takes out what the buffer holds, if it takes to the log. -/
theorem Captures.drainRemoteLog (h : Captures buf a) (it : Iteration) :
    ∃ buf', App.drainRemoteLog buf it = some (
        if it.reachesLog then ⟨held a, publishEntries it.sent 0 (held a)⟩ else ⟨[], []⟩, buf') ∧
      Captures buf' (captured a (.iterate it)) := by
  rw [captured_iterate]
  unfold App.drainRemoteLog
  cases it.reachesLog with
  | false => exact ⟨buf, rfl, h⟩
  | true =>
    cases buf with
    | none =>
      obtain rfl : a = ⟨false, []⟩ := h
      exact ⟨none, rfl, rfl⟩
    | some logBuf =>
      have hagrees : logBuf.Agrees truncateChars a := h
      dsimp only
      cases hempty : logBuf.isEmpty with
      | true =>
        have hnil : held a = [] := held_eq_nil hagrees hempty
        have hholds : Holds remoteLogBufSize logBuf.toRingVec (held a) := hagrees.holds
        rw [hnil] at hholds ⊢
        exact ⟨some logBuf, rfl, hagrees.enabled, hholds⟩
      | false =>
        rw [hagrees.drain]
        exact ⟨_, rfl, hagrees.enabled, holds_empty RemoteLogBuffer.remoteLogBufSize_pos⟩

/-- An event does not fail, and the buffer holds what was captured. -/
theorem Captures.step (h : Captures buf a) (e : LogEvent) :
    ∃ buf', remoteLogStep buf e = some buf' ∧ Captures buf' (captured a e) := by
  cases e with
  | init =>
    exact ⟨_, rfl, rfl, holds_empty RemoteLogBuffer.remoteLogBufSize_pos⟩
  | log level message ts =>
    refine ⟨_, rfl, ?_⟩
    cases buf with
    | none =>
      obtain rfl : a = ⟨false, []⟩ := h
      rfl
    | some logBuf =>
      have hagrees : logBuf.Agrees truncateChars a := h
      obtain ⟨logBuf', hcall, hagrees'⟩ :=
        hagrees.call (.push level.str (prefixed message ts) ts)
      obtain rfl := Option.some.inj hcall
      exact hagrees'
  | iterate it =>
    obtain ⟨buf', hdrain, h'⟩ := h.drainRemoteLog it
    refine ⟨buf', ?_, h'⟩
    rw [remoteLogStep, hdrain]
    rfl

/-- After all events the buffer holds what was captured since it was last drained. -/
theorem captures_events (events : List LogEvent) :
    ∃ buf, events.foldlM remoteLogStep none = some buf ∧
      Captures buf (events.foldl captured ⟨false, []⟩) := by
  have hevents : ∀ (buf : Option RemoteLogBuffer) (a : RemoteLogBuffer.Accepted), Captures buf a →
      ∃ buf', events.foldlM remoteLogStep buf = some buf' ∧
        Captures buf' (events.foldl captured a) := by
    induction events with
    | nil => exact fun buf a h => ⟨buf, rfl, h⟩
    | cons e events ih =>
      intro buf a h
      obtain ⟨buf', hstep, h'⟩ := h.step e
      rw [List.foldlM_cons, hstep]
      exact ih buf' (captured a e) h'
  exact hevents none ⟨false, []⟩ rfl

/-- After every run, an iteration with the link up, in which every publish succeeds, publishes each
message that it takes out of the buffer, in order, exactly when another channel comes first or no
more than three messages were captured since the buffer was last drained. -/
theorem published_iff (events : List LogEvent) (it : Iteration) (hlink : it.connected = true)
    (hsent : ∀ i, it.sent i = true) :
    ∃ buf out buf', events.foldlM remoteLogStep none = some buf ∧
      drainRemoteLog buf it = some (out, buf') ∧
      (out.published = out.drained.map logEntryToJson ↔
        it.waiting = true ∨ (waitingLogs events).length ≤ maxLogEntriesPerIter) := by
  obtain ⟨buf, hevents, hcaptures⟩ := captures_events events
  obtain ⟨buf', hdrain, -⟩ := hcaptures.drainRemoteLog it
  refine ⟨buf, _, buf', hevents, hdrain, ?_⟩
  unfold Iteration.reachesLog
  rw [hlink, Bool.true_and]
  cases it.waiting with
  | true => exact iff_of_true rfl (.inl rfl)
  | false =>
    have hlength : (held (events.foldl captured ⟨false, []⟩)).length =
        min (waitingLogs events).length remoteLogBufSize := by
      rw [held, length_recent, List.length_map]
      rfl
    have hsize : maxLogEntriesPerIter < remoteLogBufSize := by decide
    rw [Bool.not_false, if_pos rfl, publishEntries_eq_map_iff hsent, hlength]
    simp only [Bool.false_eq_true, false_or]
    omega

/-- Three messages are published in the next iteration. -/
theorem published_three :
    let log := LogEvent.log .warn "x" 1000
    let it : Iteration := ⟨true, false, fun _ => true⟩
    ∃ buf out buf', [.init, log, log, log].foldlM remoteLogStep none = some buf ∧
      drainRemoteLog buf it = some (out, buf') ∧
      (out.published = out.drained.map logEntryToJson ↔
        it.waiting = true ∨
          (waitingLogs [.init, log, log, log]).length ≤ maxLogEntriesPerIter) :=
  published_iff _ _ rfl fun _ => rfl

/-- Of four messages the last one is taken out and not published. -/
theorem not_published_four :
    let log := LogEvent.log .warn "x" 1000
    ∃ buf out buf', [.init, log, log, log, log].foldlM remoteLogStep none = some buf ∧
      drainRemoteLog buf ⟨true, false, fun _ => true⟩ = some (out, buf') ∧
      out.drained.length = 4 ∧ out.published.length = 3 ∧
      ¬ out.published = out.drained.map logEntryToJson := by
  refine ⟨_, _, _, rfl, rfl, rfl, rfl, fun h => ?_⟩
  exact absurd (congrArg List.length h) (by decide)

end Launa.App
