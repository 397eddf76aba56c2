import Launa.Ota.Http
import Launa.EspOta.Updater

/-!
# Downloading a firmware

`perform_ota_update` of the app. The network is what it returns: whether host resolution, connecting
and sending the request succeed, and then the results of the socket's reads, of which an empty one
is the end of the stream. `download` is everything up to the call of `finalize`; it says whether
that call is reached, or how the attempt has ended before.
-/

namespace Launa.App

open Stateful Checked Nor EspOta Ota

/-- The longest header of a response. -/
def maxHeaderSize : ℕ := 4096
/-- The size of a read. -/
def httpReadBufSize : ℕ := 1024
/-- The size of an app partition. -/
def appPartitionSize : ℕ := 0x140000

/-- The bytes that one read returns. -/
abbrev Segment := { bytes : List UInt8 // bytes.length ≤ httpReadBufSize }

/-- What the network does in an attempt. The stream stays closed after the last read. -/
structure Network where
  /-- The host is resolved, the connection made, and the request sent. -/
  connects : Bool
  /-- The results of the reads, where `none` is an error. -/
  reads : List (Option Segment)

/-- How an attempt ends. -/
inductive Outcome where
  /-- It returns `Err(())`. -/
  | failed
  /-- It rolls back and resets. -/
  | rolledBack
  /-- It resets into the new firmware. -/
  | updated
  deriving DecidableEq, Repr

/-- The first phase: read until the headers are complete. The result is the header buffer, the
position of the end of the headers, and the reads that are left. -/
def readHeaders : List (Option Segment) → List UInt8 →
    Option (List UInt8 × ℕ × List (Option Segment))
  | [], _ => none
  | none :: _, _ => none
  | some seg :: reads, headerBuf =>
    if seg.val.isEmpty then none
    else if headerBuf.length + seg.val.length > maxHeaderSize then none
    else
      match findHeaderEnd (headerBuf ++ seg.val) with
      | some pos => some (headerBuf ++ seg.val, pos, reads)
      | none => readHeaders reads (headerBuf ++ seg.val)

section Driver

variable {S : Type} [NorFlash S]

/-- The second phase: write what is read until the stream is closed, and say whether that is how it
ended. -/
def writeBody : List (Option Segment) → OtaM (EspOtaFlash S) Bool
  | [] => pure true
  | none :: _ => pure false
  | some seg :: reads =>
    if seg.val.isEmpty then pure true
    else do
      match ← attempt (EspOtaFlash.write seg.val) with
      | none => pure false
      | some _ => writeBody reads

/-- `ota_rollback`: roll back, whether that succeeds or not, and reset. -/
def otaRollback : OtaM (EspOtaFlash S) Outcome := do
  let _ ← attempt EspOtaFlash.rollbackAndReboot
  return .rolledBack

/-- The body of the response: the bytes that arrived with the headers, and then those read. -/
def writeResponse (body : List UInt8) (reads : List (Option Segment)) :
    OtaM (EspOtaFlash S) Bool := do
  if body.isEmpty then writeBody reads
  else
    match ← attempt (EspOtaFlash.write body) with
    | none => pure false
    | some _ => writeBody reads

/-- Verify the expected CRC, when there is one. -/
def checkCrc (expectedCrc : Option UInt32) : OtaM (EspOtaFlash S) Bool :=
  match expectedCrc with
  | none => pure true
  | some crc => do
    match ← attempt (EspOtaFlash.verifyHash crc) with
    | none => pure false
    | some _ => pure true

/-- `perform_ota_update` from the call of `begin` up to that of `finalize`, where `none` is that
`finalize` is next. -/
def downloadBody (expectedCrc : Option UInt32) (headerBuf : List UInt8) (pos : ℕ)
    (reads : List (Option Segment)) : OtaM (EspOtaFlash S) (Option Outcome) := do
  match ← attempt EspOtaFlash.begin with
  | none => return some .failed
  | some _ =>
    if (parseContentLength headerBuf).any (· > appPartitionSize) then
      return some (← otaRollback)
    else if !(← writeResponse (headerBuf.drop (pos + 4)) reads) then
      return some (← otaRollback)
    else if !(← checkCrc expectedCrc) then
      return some (← otaRollback)
    else
      return none

/-- `perform_ota_update` up to the call of `finalize`. -/
def download (url : List Char) (net : Network) : OtaM (EspOtaFlash S) (Option Outcome) :=
  match parseHttpUrl url with
  | none => return some .failed
  | some _ =>
    if !net.connects then return some .failed
    else
      match readHeaders net.reads [] with
      | none => return some .failed
      | some (headerBuf, pos, reads) =>
        if !validateHttpStatus headerBuf then return some .failed
        else downloadBody (parseCrcFromUrl url) headerBuf pos reads

/-- `perform_ota_update`. -/
def performOtaUpdate (url : List Char) (net : Network) : OtaM (EspOtaFlash S) Outcome := do
  match ← download url net with
  | some outcome => return outcome
  | none =>
    match ← attempt EspOtaFlash.finalize with
    | none => otaRollback
    | some _ => return .updated

end Driver

end Launa.App
