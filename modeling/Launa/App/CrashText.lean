import Launa.Core.LogBuffer
import Launa.Lib.Utf8Bytes
import Launa.Mqtt.Codec

/-!
# The text of a crash report

The message of a report is cut twice by a number of bytes: at 200 when it is written, and at 80 when
the boot that reads it logs it. Both cuts are slices of a text, which panic within a character. So
nothing panics exactly if these bytes begin a character (`recorded_iff`), and then the boot reads
the longest prefix of the message that fits. Every call of NVS may fail here, which is where a
message that an earlier crash has left is read.
-/

namespace Launa.App

open Launa.Core Mqtt Utf8Bytes

/-- `CrashReason`. -/
inductive CrashReason where
  | panic
  | oom
  | stackOverflow
  | assertion
  | indexOutOfBounds
  | arithmeticOverflow
  | unknown
  deriving DecidableEq, Repr

namespace CrashReason

/-- The code of a reason in NVS. -/
def toU8 : CrashReason → UInt8
  | panic => 1
  | oom => 2
  | stackOverflow => 3
  | assertion => 4
  | indexOutOfBounds => 5
  | arithmeticOverflow => 6
  | unknown => 255

/-- `CrashReason::from_u8`. -/
def fromU8 (v : UInt8) : CrashReason :=
  if v = 1 then panic
  else if v = 2 then oom
  else if v = 3 then stackOverflow
  else if v = 4 then assertion
  else if v = 5 then indexOutOfBounds
  else if v = 6 then arithmeticOverflow
  else unknown

/-- A reason is read back from its code. -/
theorem fromU8_toU8 (r : CrashReason) : fromU8 r.toU8 = r := by
  cases r <;> decide

end CrashReason

/-- `MAX_MESSAGE_LEN`. -/
def maxMessageLen : ℕ := 200

/-- `CRASH_MAGIC`. -/
def crashMagic : UInt8 := 0xC7

/-- What `read_crash_info` says for a message that is not there. -/
def messageUnavailable : String := "<message unavailable>"

/-- `CrashInfo`. -/
structure CrashInfo where
  reason : CrashReason
  message : String
  deriving DecidableEq

/-- The namespace `crash` of NVS. -/
structure CrashKeys where
  magic : Option UInt8
  reason : Option UInt8
  message : Option String
  deriving DecidableEq

/-- What works of a recording: `NVS_PTR` is set, and which calls of NVS do not fail. -/
structure WriteCalls where
  pointer : Bool
  getMagic : Bool
  setMagic : Bool
  setReason : Bool
  setMessage : Bool
  deriving DecidableEq

/-- Which calls of NVS do not fail when a report is read. -/
structure ReadCalls where
  getMagic : Bool
  getReason : Bool
  getMessage : Bool
  deriving DecidableEq

/-- No call fails. -/
def WriteCalls.all : WriteCalls := ⟨true, true, true, true, true⟩

/-- No call fails. -/
def ReadCalls.all : ReadCalls := ⟨true, true, true⟩

/-- The message that is stored, where `none` panics. -/
def storedMessage (message : String) : Option String :=
  if maxMessageLen < message.utf8ByteSize then sliceTo message maxMessageLen else some message

/-- What is logged of a message, where `none` panics. -/
def loggedMessage (message : String) : Option String :=
  sliceTo message (min message.utf8ByteSize 80)

namespace CrashKeys

/-- `write_crash_info`, where `none` panics. -/
def write (keys : CrashKeys) (calls : WriteCalls) (reason : CrashReason) (message : String) :
    Option (Bool × CrashKeys) :=
  if !calls.pointer then some (false, keys)
  else if calls.getMagic && keys.magic.isSome then some (false, keys)
  else do
    let keys := if calls.setMagic then { keys with magic := some crashMagic } else keys
    let keys := if calls.setReason then { keys with reason := some reason.toU8 } else keys
    let truncated ← storedMessage message
    let keys := if calls.setMessage then { keys with message := some truncated } else keys
    some (calls.setMagic && calls.setReason && calls.setMessage, keys)

/-- `read_crash_info`, where `none` panics. -/
def read (keys : CrashKeys) (calls : ReadCalls) : Option (Option CrashInfo) :=
  match if calls.getMagic then keys.magic else none with
  | none => some none
  | some magic =>
    if magic ≠ crashMagic then some none
    else match if calls.getReason then keys.reason else none with
      | none => some none
      | some reasonU8 => do
        let reason := CrashReason.fromU8 reasonU8
        let message := (if calls.getMessage then keys.message else none).getD messageUnavailable
        let _ ← loggedMessage message
        some (some ⟨reason, message⟩)

/-- A report is written, and the next boot reads what is there. -/
def writeRead (keys : CrashKeys) (writes : WriteCalls) (reads : ReadCalls) (reason : CrashReason)
    (message : String) : Option (Option CrashInfo) := do
  let (_, keys) ← keys.write writes reason message
  keys.read reads

/-- A crash is recorded and read without a panic, whatever fails of NVS. If nothing does, and no
report was there, the boot reads the reason and the longest prefix of the message that fits. -/
structure Recorded (keys : CrashKeys) (reason : CrashReason) (message : String) : Prop where
  noPanic : ∀ writes reads, (keys.writeRead writes reads reason message).isSome
  readBack : keys.magic = none → ∃ cut, LongestPrefix maxMessageLen message cut ∧
    keys.writeRead .all .all reason message = some (some ⟨reason, cut⟩)

end CrashKeys

/-- The first bytes of a text, or all of it, end with a character. -/
def CutsAt (limit : ℕ) (text : String) : Prop :=
  text.utf8ByteSize ≤ limit ∨ isBoundary (asBytes text) limit

instance (limit : ℕ) (text : String) : Decidable (CutsAt limit text) :=
  inferInstanceAs (Decidable (_ ∨ _))

/-! ## The two cuts -/

variable {message text cut : String} {limit : ℕ}

/-- A text that is read from bytes has these bytes. -/
theorem asBytes_of_fromUtf8 {bytes : List UInt8} (h : fromUtf8 bytes = some text) :
    asBytes text = bytes := by
  unfold fromUtf8 String.fromUTF8? at h
  split at h
  · cases h
    rfl
  · cases h

/-- A message is stored exactly if it can be cut at the limit. -/
theorem isSome_storedMessage_iff :
    (storedMessage message).isSome ↔ CutsAt maxMessageLen message := by
  unfold storedMessage CutsAt
  split
  · rename_i hlong
    rw [isSome_sliceTo_iff]
    exact ⟨.inr, fun h => h.resolve_left (Nat.not_le.2 hlong)⟩
  · rename_i hshort
    exact iff_of_true rfl (.inl (Nat.not_lt.1 hshort))

/-- A message is logged exactly if it can be cut at 80 bytes. -/
theorem isSome_loggedMessage_iff : (loggedMessage text).isSome ↔ CutsAt 80 text := by
  rw [loggedMessage, CutsAt]
  rcases Nat.le_total text.utf8ByteSize 80 with hle | hge
  · rw [Nat.min_eq_left hle, sliceTo_utf8ByteSize]
    exact iff_of_true rfl (.inl hle)
  · rw [Nat.min_eq_right hge, isSome_sliceTo_iff]
    refine ⟨.inr, fun h => h.elim (fun hle => ?_) id⟩
    have hsize : text.utf8ByteSize = 80 := Nat.le_antisymm hle hge
    rw [← isSome_sliceTo_iff, ← hsize, sliceTo_utf8ByteSize]
    rfl

/-- What is stored of a message: all of it, or its first 200 bytes. -/
theorem storedMessage_eq_some (h : storedMessage message = some cut) :
    ∃ rest, message = cut ++ rest ∧ cut.utf8ByteSize ≤ maxMessageLen ∧
      (rest = "" ∨ cut.utf8ByteSize = maxMessageLen) := by
  unfold storedMessage at h
  split at h
  · obtain ⟨rest, hrest, hsize⟩ := sliceTo_eq_some_iff.1 h
    exact ⟨rest, hrest, Nat.le_of_eq hsize, .inr hsize⟩
  · rename_i hshort
    cases h
    exact ⟨"", String.append_empty.symm, Nat.not_lt.1 hshort, .inl rfl⟩

/-- What is stored is the longest prefix that fits. -/
theorem longestPrefix_storedMessage (h : storedMessage message = some cut) :
    LongestPrefix maxMessageLen message cut := by
  obtain ⟨rest, rfl, hfits, hrest⟩ := storedMessage_eq_some h
  refine ⟨by rw [String.toList_append]; exact List.prefix_append _ _, hfits, fun s hs hsize => ?_⟩
  rcases hrest with rfl | hfull
  · rwa [String.append_empty] at hs
  -- A prefix as long as the limit allows is none of the longer ones.
  · have hcut : cut.toList <+: (cut ++ rest).toList := by
      rw [String.toList_append]
      exact List.prefix_append _ _
    rcases List.prefix_or_prefix_of_prefix hs hcut with hle | ⟨more, hmore⟩
    · exact hle
    · have hs' : s = cut ++ .ofList more := by
        apply String.toList_injective
        rw [String.toList_append, String.toList_ofList, hmore]
      have hempty : (String.ofList more).utf8ByteSize = 0 := by
        have := String.utf8ByteSize_append (s := cut) (t := .ofList more)
        rw [← hs'] at this
        omega
      rw [hs', String.utf8ByteSize_eq_zero_iff.1 hempty, String.append_empty]

/-- What is stored of a message is cut where the message is. -/
theorem cutsAt_storedMessage (h : storedMessage message = some cut) :
    CutsAt 80 cut ↔ CutsAt 80 message := by
  obtain ⟨rest, rfl, -, hrest⟩ := storedMessage_eq_some h
  rcases hrest with rfl | hfull
  · rw [String.append_empty]
  · have hsize : maxMessageLen = 200 := rfl
    have hlong := String.utf8ByteSize_append (s := cut) (t := rest)
    have hcut : ¬cut.utf8ByteSize ≤ 80 := by omega
    have happend : ¬(cut ++ rest).utf8ByteSize ≤ 80 := by omega
    rw [CutsAt, CutsAt, or_iff_right hcut, or_iff_right happend]
    -- Both texts have the same byte there.
    have hlength : 80 < (asBytes cut).length := by
      have : (asBytes cut).length = cut.utf8ByteSize := Array.length_toList
      omega
    have hget : (asBytes (cut ++ rest))[80]? = (asBytes cut)[80]? := by
      rw [asBytes, toList_toByteArray_append]
      exact List.getElem?_append_left hlength
    have hlength' : (asBytes (cut ++ rest)).length = (cut ++ rest).utf8ByteSize :=
      Array.length_toList
    rw [isBoundary, isBoundary, hget, beq_false_of_ne (show 80 ≠ (asBytes cut).length by omega),
      beq_false_of_ne (show 80 ≠ (asBytes (cut ++ rest)).length by omega)]

namespace CrashKeys

variable {keys keys' : CrashKeys} {reason : CrashReason} {calls : WriteCalls} {written : Bool}

/-! ## Reading and writing -/

/-- A report is read without a panic if a message that is there is cut between two characters. -/
theorem isSome_read (h : ∀ text ∈ keys.message, CutsAt 80 text) (calls : ReadCalls) :
    (keys.read calls).isSome := by
  have hmessage : CutsAt 80 ((if calls.getMessage then keys.message else none).getD
      messageUnavailable) := by
    split
    · cases hkey : keys.message with
      | none => exact .inl (by decide +kernel)
      | some text => exact h text hkey
    · exact .inl (by decide +kernel)
  obtain ⟨logged, hlogged⟩ := Option.isSome_iff_exists.1 (isSome_loggedMessage_iff.2 hmessage)
  unfold read
  simp only [hlogged, Option.bind_eq_bind, Option.bind_some]
  split
  · rfl
  · split
    · rfl
    · split <;> rfl

/-- A report that is there is read, with a text for the message if that is not. -/
theorem read_of_reason {r : UInt8} (hmagic : keys.magic = some crashMagic)
    (hreason : keys.reason = some r) :
    keys.read .all = (loggedMessage (keys.message.getD messageUnavailable)).map fun _ =>
      some ⟨.fromU8 r, keys.message.getD messageUnavailable⟩ := by
  unfold read ReadCalls.all
  simp only [hmagic, hreason, if_true, ne_eq, not_true_eq_false, if_false]
  cases loggedMessage (keys.message.getD messageUnavailable) <;> rfl

/-- A report that is there is read with its message. -/
theorem read_all {r : UInt8} (hmagic : keys.magic = some crashMagic)
    (hreason : keys.reason = some r) (hmessage : keys.message = some text) :
    keys.read .all = (loggedMessage text).map fun _ => some ⟨.fromU8 r, text⟩ := by
  rw [read_of_reason hmagic hreason, hmessage, Option.getD_some]

/-- After a recording the message of NVS is the one that was there or what is stored of the new
one. -/
theorem message_of_write (h : keys.write calls reason message = some (written, keys')) :
    keys'.message = keys.message ∨
      ∃ cut, storedMessage message = some cut ∧ keys'.message = some cut := by
  unfold write at h
  split_ifs at h
  · cases h
    exact .inl rfl
  · cases h
    exact .inl rfl
  all_goals
    obtain ⟨cut, hcut, hkeys⟩ := Option.bind_eq_some_iff.1 h
    cases hkeys
    first
      | exact .inr ⟨cut, hcut, rfl⟩
      | exact .inl rfl

/-- A recording panics if it stores the message, and its cut panics. -/
theorem isSome_write (h : CutsAt maxMessageLen message) :
    (keys.write calls reason message).isSome := by
  obtain ⟨cut, hcut⟩ := Option.isSome_iff_exists.1 (isSome_storedMessage_iff.2 h)
  unfold write
  rw [hcut]
  split
  · rfl
  · split <;> rfl

/-- With the pre-check out of order, a recording goes on over a report that is there. -/
def unchecked (setMessage : Bool) : WriteCalls := ⟨true, false, true, true, setMessage⟩

/-- Without checks everything but the message is written in any case. -/
theorem write_unchecked (setMessage : Bool) :
    keys.write (unchecked setMessage) reason message =
      (storedMessage message).map fun cut => (setMessage,
        ⟨some crashMagic, some reason.toU8, if setMessage then some cut else keys.message⟩) := by
  unfold write unchecked
  cases storedMessage message <;> cases setMessage <;> rfl

/-- Without a report and without a failure, all of it is written. -/
theorem write_all (hmagic : keys.magic = none) :
    keys.write .all reason message =
      (storedMessage message).map fun cut => (true,
        ⟨some crashMagic, some reason.toU8, some cut⟩) := by
  unfold write WriteCalls.all
  rw [hmagic]
  cases storedMessage message <;> rfl

/-! ## When nothing panics -/

/-- With the pre-check out of order, the boot reads the cut of the message, or the message that was
there. -/
theorem writeRead_unchecked (setMessage : Bool) :
    keys.writeRead (unchecked setMessage) .all reason message =
      (storedMessage message).bind fun cut =>
        read ⟨some crashMagic, some reason.toU8, if setMessage then some cut else keys.message⟩
          .all := by
  rw [writeRead, write_unchecked]
  cases storedMessage message <;> rfl

/-- If no failure makes it panic, the cuts are between characters. -/
theorem cutsAt_of_isSome_writeRead
    (h : ∀ writes reads, (keys.writeRead writes reads reason message).isSome) :
    CutsAt maxMessageLen message ∧ CutsAt 80 message ∧ ∀ old ∈ keys.message, CutsAt 80 old := by
  obtain ⟨cut, hcut⟩ : ∃ cut, storedMessage message = some cut := by
    have hwrite := h (unchecked true) .all
    rw [writeRead_unchecked] at hwrite
    cases hstored : storedMessage message with
    | none =>
      rw [hstored] at hwrite
      cases hwrite
    | some cut => exact ⟨cut, rfl⟩
  -- If the message is not written, the boot reads the one that was there.
  have hread (setMessage : Bool) (text : String)
      (htext : (if setMessage then some cut else keys.message) = some text) :
      CutsAt 80 text := by
    have hboot := h (unchecked setMessage) .all
    rw [writeRead_unchecked, hcut, Option.bind_some, read_all rfl rfl htext,
      Option.isSome_map] at hboot
    exact isSome_loggedMessage_iff.1 hboot
  exact ⟨isSome_storedMessage_iff.1 (hcut ▸ rfl),
    (cutsAt_storedMessage hcut).1 (hread true cut rfl), fun old hold => hread false old hold⟩

/-- With the cuts between characters, no failure makes it panic. -/
theorem isSome_writeRead (hstored : CutsAt maxMessageLen message) (hlogged : CutsAt 80 message)
    (hold : ∀ old ∈ keys.message, CutsAt 80 old) (writes : WriteCalls) (reads : ReadCalls) :
    (keys.writeRead writes reads reason message).isSome := by
  have hwritten : (keys.write writes reason message).isSome := isSome_write hstored
  obtain ⟨⟨written, keys'⟩, hwrite⟩ := Option.isSome_iff_exists.1 hwritten
  rw [writeRead, hwrite]
  refine isSome_read (fun text htext => ?_) reads
  rcases message_of_write hwrite with hsame | ⟨cut, hcut, hnew⟩
  · exact hold text (hsame ▸ htext)
  · rw [hnew] at htext
    cases htext
    exact (cutsAt_storedMessage hcut).2 hlogged

/-- Recording a message and reading it does not panic, and gives the longest prefix that fits,
exactly if neither cut falls within a character: at 200 and at 80 in the message, and at 80 in one
that an earlier crash has left. -/
theorem recorded_iff (keys : CrashKeys) (reason : CrashReason) (message : String) :
    Recorded keys reason message ↔
      CutsAt maxMessageLen message ∧ CutsAt 80 message ∧ ∀ old ∈ keys.message, CutsAt 80 old := by
  constructor
  · exact fun h => cutsAt_of_isSome_writeRead h.noPanic
  · rintro ⟨hstored, hlogged, hold⟩
    refine ⟨isSome_writeRead hstored hlogged hold, fun hmagic => ?_⟩
    obtain ⟨cut, hcut⟩ := Option.isSome_iff_exists.1 (isSome_storedMessage_iff.2 hstored)
    refine ⟨cut, longestPrefix_storedMessage hcut, ?_⟩
    have hlogged' := (cutsAt_storedMessage hcut).2 hlogged
    obtain ⟨logged, hlog⟩ := Option.isSome_iff_exists.1 (isSome_loggedMessage_iff.2 hlogged')
    rw [writeRead, write_all hmagic, hcut]
    simp only [Option.map_some, Option.bind_eq_bind, Option.bind_some]
    rw [read_all rfl rfl rfl, hlog, CrashReason.fromU8_toU8]
    rfl

/-- A message with a character of two bytes across byte 200 panics when it is written, and one with
such a character across byte 80 when it is read. -/
theorem not_recorded :
    ¬Recorded ⟨none, none, none⟩ .panic (.ofList (List.replicate 199 'a' ++ ['é'])) ∧
      ¬Recorded ⟨none, none, none⟩ .panic (.ofList (List.replicate 79 'a' ++ ['é'])) := by
  constructor
  · intro h
    exact absurd (h.noPanic .all .all) (by decide +kernel)
  · intro h
    exact absurd (h.noPanic .all .all) (by decide +kernel)

end CrashKeys

end Launa.App
