import Launa.Lib.RingBuffer
import Mathlib.Data.String.Basic

/-!
# The remote log buffer

`RemoteLogBuffer` of `log_buffer.rs`: a ring of the log entries that are captured while it is
enabled. The buffer of the firmware, in `remote_log.rs`, is the same one, but for how it cuts a
message: at 128 characters, where `log_buffer.rs` cuts it at 128 bytes. A drain gives out the most
recent entries accepted since the drain before it, with their messages cut (`drain_recent`).
-/

namespace Launa.Core

open RingBuffer

/-- `REMOTE_LOG_BUF_SIZE`. -/
def remoteLogBufSize : ℕ := 16

/-- `MAX_LOG_MESSAGE_LEN`. -/
def maxLogMessageLen : ℕ := 128

/-- `LogEntry`. -/
structure LogEntry where
  level : String
  message : String
  timestampMs : ℕ
  deriving DecidableEq, Repr

/-- A buffer of log entries. -/
structure RemoteLogBuffer extends RingVec LogEntry where
  enabled : Bool

/-! ## Cutting a message -/

/-- The characters until their bytes exceed the limit. -/
def scanBytes (limit : ℕ) : ℕ → List Char → List Char
  | _, [] => []
  | bytes, ch :: chars =>
    let bytes := bytes + ch.utf8Size
    if bytes > limit then [] else ch :: scanBytes limit bytes chars

/-- How `log_buffer.rs` cuts a message. -/
def truncateBytes (message : String) : String :=
  .ofList (scanBytes maxLogMessageLen 0 message.toList)

/-- How `remote_log.rs` cuts a message. -/
def truncateChars (message : String) : String := .ofList (message.toList.take maxLogMessageLen)

namespace RemoteLogBuffer

/-- `RemoteLogBuffer::new`. -/
def new : RemoteLogBuffer := { RingVec.empty with enabled := false }

/-- `RemoteLogBuffer::init`, which reserves the memory. -/
def init (self : RemoteLogBuffer) : RemoteLogBuffer := self

/-- `RemoteLogBuffer::set_enabled`. -/
def setEnabled (self : RemoteLogBuffer) (enabled : Bool) : RemoteLogBuffer :=
  { self with enabled := enabled }

/-- `RemoteLogBuffer::push`, given how a message is cut. -/
def pushWith (truncate : String → String) (self : RemoteLogBuffer) (level message : String)
    (timestampMs : ℕ) : RemoteLogBuffer :=
  if !self.enabled then self
  else
    let truncated := truncate message
    let entry := ⟨level, truncated, timestampMs⟩
    { self with toRingVec := self.toRingVec.push remoteLogBufSize entry }

/-- `RemoteLogBuffer::push` of `log_buffer.rs`. -/
def push := pushWith truncateBytes

/-- `RemoteLogBuffer::push` of `remote_log.rs`. -/
def pushChars := pushWith truncateChars

/-- `RemoteLogBuffer::is_empty`. -/
def isEmpty (self : RemoteLogBuffer) : Bool := self.len = 0

/-- `RemoteLogBuffer::drain`. It fails if it reads out of range. -/
def drain (self : RemoteLogBuffer) : Option (List LogEntry × RemoteLogBuffer) :=
  self.toRingVec.drain.map fun r => (r.1, { self with toRingVec := r.2 })

end RemoteLogBuffer

/-! ## The longest prefix -/

/-- The text is made of the first characters of another one, it fits the limit of bytes, and no
longer one does. -/
structure LongestPrefix (limit : ℕ) (text cut : String) : Prop where
  isPrefix : cut.toList <+: text.toList
  fits : cut.utf8ByteSize ≤ limit
  longest : ∀ s : String, s.toList <+: text.toList → s.utf8ByteSize ≤ limit →
    s.toList <+: cut.toList

/-- What is scanned is the beginning of the text. -/
theorem scanBytes_prefix (limit bytes : ℕ) (chars : List Char) :
    scanBytes limit bytes chars <+: chars := by
  induction chars generalizing bytes with
  | nil => exact List.nil_prefix
  | cons ch chars ih =>
    rw [scanBytes]
    split
    · exact List.nil_prefix
    · exact (List.prefix_cons_inj ch).2 (ih _)

/-- What is scanned does not exceed the limit. -/
theorem utf8Len_scanBytes {limit bytes : ℕ} (h : bytes ≤ limit) (chars : List Char) :
    bytes + String.utf8Len (scanBytes limit bytes chars) ≤ limit := by
  induction chars generalizing bytes with
  | nil => exact h
  | cons ch chars ih =>
    rw [scanBytes]
    split
    · exact h
    · rename_i hfits
      have hrest := ih (Nat.not_lt.1 hfits)
      rw [String.utf8Len_cons]
      omega

/-- A prefix that fits is a prefix of the characters that are kept. -/
theorem prefix_scanBytes {limit bytes : ℕ} {chars p : List Char} (hp : p <+: chars)
    (hfits : bytes + String.utf8Len p ≤ limit) : p <+: scanBytes limit bytes chars := by
  induction chars generalizing bytes p with
  | nil => exact hp
  | cons ch chars ih =>
    cases p with
    | nil => exact List.nil_prefix
    | cons c p =>
      obtain ⟨rfl, hrest⟩ := List.cons_prefix_cons.1 hp
      rw [String.utf8Len_cons] at hfits
      rw [scanBytes, if_neg (by omega)]
      exact (List.prefix_cons_inj c).2 (ih hrest (by omega))

/-- `log_buffer.rs` keeps the longest prefix that fits. -/
theorem longestPrefix_truncateBytes (message : String) :
    LongestPrefix maxLogMessageLen message (truncateBytes message) := by
  unfold truncateBytes
  constructor
  · rw [String.toList_ofList]
    exact scanBytes_prefix _ _ _
  · rw [String.utf8ByteSize_ofList]
    have hfits := utf8Len_scanBytes (Nat.zero_le maxLogMessageLen) message.toList
    omega
  · intro s hs hfits
    rw [← String.ofList_toList (s := s), String.utf8ByteSize_ofList] at hfits
    rw [String.toList_ofList]
    exact prefix_scanBytes hs (by omega)

/-! ## All runs -/

/-- The calls of a buffer. -/
inductive LogCall where
  | push (level message : String) (timestampMs : ℕ)
  | drain
  | setEnabled (enabled : Bool)

namespace RemoteLogBuffer

/-- The buffer that a call leaves. -/
def callWith (truncate : String → String) (self : RemoteLogBuffer) :
    LogCall → Option RemoteLogBuffer
  | .push level message timestampMs => some (self.pushWith truncate level message timestampMs)
  | .drain => self.drain.map (·.2)
  | .setEnabled enabled => some (self.setEnabled enabled)

/-- What a buffer has accepted. -/
structure Accepted where
  enabled : Bool
  /-- The entries since the last drain, with their whole messages. -/
  entries : List LogEntry

/-- What is accepted after a call. -/
def Accepted.call (self : Accepted) : LogCall → Accepted
  | .push level message timestampMs =>
    if self.enabled then
      { self with entries := self.entries ++ [⟨level, message, timestampMs⟩] }
    else self
  | .drain => { self with entries := [] }
  | .setEnabled enabled => { self with enabled := enabled }

/-- What is accepted over some calls of a new buffer. -/
def accepted (calls : List LogCall) : Accepted := calls.foldl Accepted.call ⟨false, []⟩

/-- An entry with its message cut. -/
def cut (truncate : String → String) (entry : LogEntry) : LogEntry :=
  { entry with message := truncate entry.message }

variable {truncate : String → String}

/-- The buffer holds the most recent entries that were accepted, with their messages cut. -/
structure Agrees (truncate : String → String) (buf : RemoteLogBuffer) (a : Accepted) : Prop where
  enabled : buf.enabled = a.enabled
  holds : Holds remoteLogBufSize buf.toRingVec
    (recent remoteLogBufSize (a.entries.map (cut truncate)))

/-- The buffer has room for an entry. -/
theorem remoteLogBufSize_pos : 0 < remoteLogBufSize := by decide

/-- The new buffer is the empty window. -/
theorem agrees_new (truncate : String → String) : new.Agrees truncate ⟨false, []⟩ :=
  ⟨rfl, holds_empty remoteLogBufSize_pos⟩

/-- A drain does not fail, and gives out what the buffer holds. -/
theorem Agrees.drain {buf : RemoteLogBuffer} {a : Accepted} (h : buf.Agrees truncate a) :
    buf.drain = some (recent remoteLogBufSize (a.entries.map (cut truncate)),
      { buf with toRingVec := .empty }) := by
  rw [RemoteLogBuffer.drain, h.holds.drain remoteLogBufSize_pos]
  rfl

/-- A call does not fail, and keeps the buffer in agreement. -/
theorem Agrees.call {buf : RemoteLogBuffer} {a : Accepted} (h : buf.Agrees truncate a)
    (c : LogCall) :
    ∃ buf', buf.callWith truncate c = some buf' ∧ buf'.Agrees truncate (a.call c) := by
  cases c with
  | push level message timestampMs =>
    refine ⟨_, rfl, ?_⟩
    obtain ⟨ring, enabled⟩ := buf
    obtain ⟨enabled', entries⟩ := a
    obtain rfl : enabled = enabled' := h.enabled
    cases enabled with
    | false => exact h
    | true =>
      have hpush := h.holds.push remoteLogBufSize_pos (cut truncate ⟨level, message, timestampMs⟩)
      rw [← List.map_singleton, ← List.map_append] at hpush
      exact ⟨rfl, hpush⟩
  | drain =>
    refine ⟨{ buf with toRingVec := .empty }, ?_, h.enabled, holds_empty remoteLogBufSize_pos⟩
    rw [callWith, h.drain]
    rfl
  | setEnabled enabled => exact ⟨_, rfl, rfl, h.holds⟩

/-- After all calls the buffer agrees with what was accepted. -/
theorem agrees_calls (truncate : String → String) (calls : List LogCall) :
    ∃ buf, calls.foldlM (callWith truncate) new = some buf ∧
      buf.Agrees truncate (accepted calls) := by
  have hcalls : ∀ (buf : RemoteLogBuffer) (a : Accepted), buf.Agrees truncate a →
      ∃ buf', calls.foldlM (callWith truncate) buf = some buf' ∧
        buf'.Agrees truncate (calls.foldl Accepted.call a) := by
    induction calls with
    | nil => exact fun buf a h => ⟨buf, rfl, h⟩
    | cons c calls ih =>
      intro buf a h
      obtain ⟨buf', hcall, h'⟩ := h.call c
      rw [List.foldlM_cons, hcall]
      exact ih buf' (a.call c) h'
  exact hcalls new ⟨false, []⟩ (agrees_new truncate)

/-- After every run of the buffer a drain gives out the most recent entries accepted since the last
drain, as many as the buffer holds and the oldest first, each with the longest prefix of its message
that fits the limit. -/
theorem drain_recent (calls : List LogCall) :
    ∃ buf drained buf', calls.foldlM (callWith truncateBytes) new = some buf ∧
      buf.drain = some (drained, buf') ∧
      List.Forall₂ (fun entry out => out.level = entry.level ∧
          out.timestampMs = entry.timestampMs ∧
          LongestPrefix maxLogMessageLen entry.message out.message)
        (recent remoteLogBufSize (accepted calls).entries) drained := by
  obtain ⟨buf, hcalls, hagrees⟩ := agrees_calls truncateBytes calls
  refine ⟨buf, _, _, hcalls, hagrees.drain, ?_⟩
  have hmap : recent remoteLogBufSize ((accepted calls).entries.map (cut truncateBytes)) =
      (recent remoteLogBufSize (accepted calls).entries).map (cut truncateBytes) := by
    rw [recent, recent, List.length_map, List.map_drop]
  rw [hmap, List.forall₂_map_right_iff, List.forall₂_same]
  exact fun entry _ => ⟨rfl, rfl, longestPrefix_truncateBytes entry.message⟩

end RemoteLogBuffer

end Launa.Core
