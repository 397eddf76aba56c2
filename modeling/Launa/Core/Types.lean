import Mathlib.Algebra.Group.Nat.Defs
import Mathlib.Tactic.Common

/-!
# Times, limits and monitors

A timestamp is a number of milliseconds, and the time since a later one is zero. `RateLog` and
`HeapMonitor` are the two small monitors that the app consults.
-/

namespace Launa.Core

/-- A timestamp in milliseconds. -/
abbrev Timestamp := ℕ

/-- `Timestamp::elapsed_since`. -/
def elapsedSince (now earlier : Timestamp) : ℕ := now - earlier

/-! ## `types.rs` -/

/-- How long a command may stay unconfirmed. -/
def commandAckTimeoutMs : ℕ := 5000
/-- How often a command is sent again. -/
def maxCommandRetries : UInt8 := 2
/-- How many commands are tracked. -/
def maxPendingCommands : ℕ := 8
/-- How many commands wait for a grant. -/
def maxCommandQueue : ℕ := 32
/-- How long a pump runs if nothing else is said. -/
def defaultPumpDurationMs : ℕ := 20 * 60 * 1000
/-- How long the spa stays on hold if nothing else is said. -/
def defaultHoldModeTimeoutMs : ℕ := 60 * 60 * 1000
/-- How often the spa is probed while no status comes. -/
def staleProbeIntervalMs : ℕ := 5000
/-- How long the last status counts as fresh. -/
def staleThresholdMs : ℕ := 30000
/-- How long grants may be missing. -/
def ctsLossThresholdMs : ℕ := 5000
/-- How long an attempt to register may take. -/
def registrationTimeoutMs : ℕ := 5000
/-- How often diagnostics are reported. -/
def diagnosticsIntervalMs : ℕ := 60000
/-- How often the heap is checked. -/
def heapCheckIntervalMs : ℕ := 30000
/-- The free heap below which it counts as low. -/
def heapWarnThreshold : ℕ := 4096
/-- The free heap below which it counts as critically low. -/
def heapCritThreshold : ℕ := 1024

/-! ## `rate_log.rs` -/

/-- The state of one log site. -/
structure RateLog where
  lastEmitSecs : UInt32
  suppressed : UInt32
  deriving DecidableEq, Repr

/-- `RateLog::new`. -/
def RateLog.new : RateLog := ⟨0, 0⟩

/-- `RateLog::check`: emit with the number of suppressed messages, or suppress. -/
def RateLog.check (log : RateLog) (nowSecs cooldownSecs : UInt32) :
    Except UInt32 UInt32 × RateLog :=
  let last := log.lastEmitSecs
  let elapsed := if last ≤ nowSecs then nowSecs - last else 0
  if last = 0 ∨ cooldownSecs ≤ elapsed then
    (.ok log.suppressed, { lastEmitSecs := nowSecs, suppressed := 0 })
  else
    (.error (log.suppressed + 1), { log with suppressed := log.suppressed + 1 })

/-! ## `heap_monitor.rs` -/

/-- The state of the heap monitor. -/
structure HeapMonitor where
  lastCheck : Option Timestamp
  deriving DecidableEq, Repr

/-- `HeapMonitor::new`. -/
def HeapMonitor.new : HeapMonitor := ⟨none⟩

/-- `HeapMonitor::tick`: whether the heap is critically low, when a check fires and it is low. -/
def HeapMonitor.tick (monitor : HeapMonitor) (now : Timestamp) (freeHeap : ℕ) :
    Option Bool × HeapMonitor :=
  if monitor.lastCheck.all fun last => heapCheckIntervalMs ≤ elapsedSince now last then
    (if freeHeap < heapCritThreshold then some true
      else if freeHeap < heapWarnThreshold then some false
      else none,
      { lastCheck := some now })
  else (none, monitor)

end Launa.Core
