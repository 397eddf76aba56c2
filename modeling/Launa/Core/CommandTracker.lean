import Launa.Core.Types
import Launa.Protocol.Command
import Launa.Protocol.Status

/-!
# Tracking commands

A command that was sent is pending until a status shows the change that it asked for. A status
confirms it, or finds it timed out: then it is sent again, and after `MAX_COMMAND_RETRIES` dropped.
-/

namespace Launa.Core

open Protocol

/-- The change that a command asks for. -/
inductive ExpectedChange where
  | pumpToggled (item : ToggleItem) (preState : PumpState)
  | blowerToggled (preState : Bool)
  | temperatureSet (temp : UInt8)
  | lightToggled (item : ToggleItem) (preState : Bool)
  | holdModeToggled (preState : Bool)
  | heatingModeToggled (preMode : HeatingMode)
  | tempRangeToggled (preRange : TempRange)
  deriving DecidableEq, Repr

/-- `ExpectedChange::from_command`. -/
def ExpectedChange.fromCommand (cmd : Command) (preStatus : StatusUpdate) : Option ExpectedChange :=
  match cmd with
  | .toggleItem item =>
    match item.pumpIndex, item.lightIndex with
    | some idx, _ => some (.pumpToggled item preStatus.pumps[idx])
    | none, some idx => some (.lightToggled item preStatus.lights[idx])
    | none, none =>
      match item with
      | .blower => some (.blowerToggled preStatus.blower)
      | .holdMode => some (.holdModeToggled preStatus.isHold)
      | .heatingMode => some (.heatingModeToggled preStatus.heatingMode)
      | .temperatureRange => some (.tempRangeToggled preStatus.tempRange)
      | _ => none
  | .setTemperature temp => some (.temperatureSet temp)
  | _ => none

/-- A command that was sent and not confirmed yet. -/
structure PendingCommand where
  command : Command
  expected : ExpectedChange
  sentAt : Timestamp
  retries : UInt8
  deriving DecidableEq, Repr

/-- The pending commands and two counters, which wrap. -/
structure CommandTracker where
  pending : List PendingCommand
  droppedCount : UInt32
  retryCount : UInt32
  deriving DecidableEq, Repr

namespace CommandTracker

/-- `CommandTracker::new`. -/
def new : CommandTracker := ⟨[], 0, 0⟩

/-- `CommandTracker::record_dropped`. -/
def recordDropped (t : CommandTracker) : CommandTracker :=
  { t with droppedCount := t.droppedCount + 1 }

/-- `CommandTracker::track`: an entry with the same expected change is updated. -/
def track (t : CommandTracker) (command : Command) (preStatus : StatusUpdate) (now : Timestamp) :
    CommandTracker :=
  match ExpectedChange.fromCommand command preStatus with
  | none => t
  | some expected =>
    match t.pending.findIdx? fun p => p.expected = expected with
    | some i =>
      { t with pending := t.pending.modify i fun p => { p with command := command, sentAt := now } }
    | none =>
      if t.pending.length ≥ maxPendingCommands then t.recordDropped
      else { t with pending := t.pending ++ [⟨command, expected, now, 0⟩] }

/-- `CommandTracker::is_confirmed`. -/
def isConfirmed (expected : ExpectedChange) (status : StatusUpdate) : Bool :=
  match expected with
  | .pumpToggled item preState =>
    match item.pumpIndex with
    | some idx => status.pumps[idx] ≠ preState
    | none => false
  | .blowerToggled preState => status.blower ≠ preState
  | .temperatureSet temp => status.setTemp.toWire.toOption = some temp
  | .lightToggled item preState =>
    match item.lightIndex with
    | some idx => status.lights[idx] ≠ preState
    | none => status.lights.get ToggleItem.firstLight ≠ preState
  | .holdModeToggled preState => status.isHold ≠ preState
  | .heatingModeToggled preMode => status.heatingMode ≠ preMode
  | .tempRangeToggled preRange => status.tempRange ≠ preRange

/-- What a status finds of a pending command. -/
inductive Verdict where
  | confirmed | retry | dropped | waiting
  deriving DecidableEq, Repr

/-- The verdict on a pending command. -/
def verdict (status : StatusUpdate) (now : Timestamp) (p : PendingCommand) : Verdict :=
  if isConfirmed p.expected status then .confirmed
  else if commandAckTimeoutMs ≤ elapsedSince now p.sentAt then
    if p.retries < maxCommandRetries then .retry else .dropped
  else .waiting

/-- `CommandTracker::verify`: the commands to send again, the last one first, and the tracker. -/
def verify (t : CommandTracker) (status : StatusUpdate) (now : Timestamp) :
    List Command × CommandTracker :=
  let retries := (t.pending.filter (verdict status now · = .retry)).reverse.map (·.command)
  let dropped := (t.pending.filter (verdict status now · = .dropped)).length
  (retries, {
    pending := t.pending.filterMap fun p =>
      match verdict status now p with
      | .confirmed | .dropped => none
      | .retry => some { p with retries := p.retries + 1, sentAt := now }
      | .waiting => some p
    droppedCount := t.droppedCount + UInt32.ofNat dropped
    retryCount := t.retryCount + UInt32.ofNat retries.length })

/-- `CommandTracker::reset`. -/
def reset (_ : CommandTracker) : CommandTracker := new

end CommandTracker

end Launa.Core
