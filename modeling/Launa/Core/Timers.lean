import Launa.Core.Types
import Launa.Protocol.Command
import Launa.Protocol.Status

/-!
# Pump timers and the hold timer

A pump timer toggles its pump off after a duration, if a status still reports it on. The hold timer
releases hold mode after an hour of it.
-/

namespace Launa.Core

open Protocol

/-- The timer of one pump. -/
structure PumpTimer where
  pump : ToggleItem
  startedAt : Option Timestamp
  durationMs : ℕ
  deriving DecidableEq, Repr

namespace PumpTimer

/-- `PumpTimer::new`. -/
def new (pump : ToggleItem) : PumpTimer := ⟨pump, none, defaultPumpDurationMs⟩

/-- `PumpTimer::start`. -/
def start (timer : PumpTimer) (now : Timestamp) : Command × PumpTimer :=
  (.toggleItem timer.pump, { timer with startedAt := some now })

/-- `PumpTimer::start_with_minutes`. -/
def startWithMinutes (timer : PumpTimer) (minutes : UInt32) (now : Timestamp) :
    Command × PumpTimer :=
  { timer with durationMs := minutes.toNat * 60 * 1000 }.start now

/-- `PumpTimer::cancel`. -/
def cancel (timer : PumpTimer) : PumpTimer := { timer with startedAt := none }

/-- `PumpTimer::tick`. -/
def tick (timer : PumpTimer) (now : Timestamp) (currentState : PumpState) :
    Option Command × PumpTimer :=
  match timer.startedAt with
  | none => (none, timer)
  | some startedAt =>
    if currentState = .off then (none, timer.cancel)
    else if timer.durationMs ≤ elapsedSince now startedAt then
      (some (.toggleItem timer.pump), timer.cancel)
    else (none, timer)

end PumpTimer

/-- The timers of the six pumps. -/
structure PumpTimerManager where
  timers : Vector PumpTimer 6
  deriving DecidableEq

namespace PumpTimerManager

/-- `PumpTimerManager::new`. -/
def new : PumpTimerManager :=
  ⟨#v[.new .pump1, .new .pump2, .new .pump3, .new .pump4, .new .pump5, .new .pump6]⟩

/-- `PumpTimerManager::tick_all`: the commands of the timers that fire, in their order. -/
def tickAll (m : PumpTimerManager) (now : Timestamp) (pumps : Vector PumpState 6) :
    List Command × PumpTimerManager :=
  let ticked := Vector.ofFn fun i : Fin 6 => (m.timers.get i).tick now (pumps.get i)
  (ticked.toList.filterMap (·.1), ⟨ticked.map (·.2)⟩)

/-- `PumpTimerManager::start_timer`: the index counts from 1. -/
def startTimer (m : PumpTimerManager) (pumpIndex : UInt8) (minutes : UInt32) (now : Timestamp) :
    Option Command × PumpTimerManager :=
  if h : 1 ≤ pumpIndex.toNat ∧ pumpIndex.toNat - 1 < 6 then
    let (cmd, timer) := (m.timers.get ⟨pumpIndex.toNat - 1, h.2⟩).startWithMinutes minutes now
    (some cmd, ⟨m.timers.set (pumpIndex.toNat - 1) timer h.2⟩)
  else (none, m)

/-- `PumpTimerManager::cancel_all`. -/
def cancelAll (m : PumpTimerManager) : PumpTimerManager := ⟨m.timers.map PumpTimer.cancel⟩

/-- A timer is started for the indices of the pumps. -/
theorem startTimer_isSome (m : PumpTimerManager) (pumpIndex : UInt8) (minutes : UInt32)
    (now : Timestamp) : (m.startTimer pumpIndex minutes now).1.isSome ↔
      1 ≤ pumpIndex.toNat ∧ pumpIndex.toNat ≤ 6 := by
  unfold startTimer
  split
  · rename_i h
    exact ⟨fun _ => ⟨h.1, by omega⟩, fun _ => rfl⟩
  · rename_i h
    exact ⟨nofun, fun h' => absurd ⟨h'.1, by omega⟩ h⟩

/-- No timer is running. -/
def Idle (m : PumpTimerManager) : Prop := ∀ i, (m.timers.get i).startedAt = none

/-- New timers do not run. -/
theorem idle_new : new.Idle := by
  unfold Idle
  decide

/-- Cancelled timers do not run. -/
theorem idle_cancelAll (m : PumpTimerManager) : m.cancelAll.Idle := by
  intro i
  simp [cancelAll, PumpTimer.cancel, Vector.get]

/-- Timers that are not running do not fire. -/
theorem Idle.tickAll {m : PumpTimerManager} (h : m.Idle) (now : Timestamp)
    (pumps : Vector PumpState 6) : m.tickAll now pumps = ([], m) := by
  have htick : ∀ i, (m.timers.get i).tick now (pumps.get i) = (none, m.timers.get i) := fun i => by
    rw [PumpTimer.tick, h i]
  have hticked : (Vector.ofFn fun i : Fin 6 => (m.timers.get i).tick now (pumps.get i)) =
      m.timers.map fun timer => (none, timer) := by
    ext i hi : 1
    rw [Vector.getElem_ofFn, Vector.getElem_map]
    exact htick ⟨i, hi⟩
  unfold PumpTimerManager.tickAll
  rw [hticked]
  simp [List.filterMap_eq_nil_iff]

/-- A timer that is started toggles a pump. -/
theorem eq_toggleItem_of_startTimer {m : PumpTimerManager} {pumpIndex : UInt8} {minutes : UInt32}
    {now : Timestamp} {cmd : Command} (h : (m.startTimer pumpIndex minutes now).1 = some cmd) :
    ∃ item, cmd = .toggleItem item := by
  unfold startTimer at h
  split at h <;> cases h
  exact ⟨_, rfl⟩

/-- An index that is no pump's starts nothing. -/
theorem startTimer_eq_of_none {m : PumpTimerManager} {pumpIndex : UInt8} {minutes : UInt32}
    {now : Timestamp} (h : (m.startTimer pumpIndex minutes now).1 = none) :
    (m.startTimer pumpIndex minutes now).2 = m := by
  unfold startTimer at h ⊢
  split at h
  · cases h
  · rename_i hindex
    rw [dif_neg hindex]

/-- A timer that fires toggles a pump. -/
theorem eq_toggleItem_of_mem_tickAll {m : PumpTimerManager} {now : Timestamp}
    {pumps : Vector PumpState 6} {cmd : Command} (h : cmd ∈ (m.tickAll now pumps).1) :
    ∃ item, cmd = .toggleItem item := by
  obtain ⟨⟨fired, timer⟩, hmem, hfired⟩ := List.mem_filterMap.1 h
  obtain ⟨i, hi⟩ := Vector.mem_ofFn.1 (Vector.mem_toList_iff.1 hmem)
  obtain rfl : fired = some cmd := hfired
  unfold PumpTimer.tick at hi
  split at hi
  · cases hi
  · split at hi
    · cases hi
    · split at hi <;> cases hi
      exact ⟨_, rfl⟩

end PumpTimerManager

/-- The hold mode timer. -/
structure HoldModeTimer where
  enteredAt : Option Timestamp
  timeoutMs : ℕ
  /-- It has fired, and hold mode has not been released since. -/
  fired : Bool
  deriving DecidableEq, Repr

namespace HoldModeTimer

/-- `HoldModeTimer::new`. -/
def new : HoldModeTimer := ⟨none, defaultHoldModeTimeoutMs, false⟩

/-- `HoldModeTimer::with_timeout_ms`. -/
def withTimeoutMs (timeoutMs : ℕ) : HoldModeTimer := ⟨none, timeoutMs, false⟩

/-- `HoldModeTimer::tick`. -/
def tick (timer : HoldModeTimer) (now : Timestamp) (isHold : Bool) :
    Option Command × HoldModeTimer :=
  if isHold then
    if timer.fired then (none, timer)
    else
      match timer.enteredAt with
      | some enteredAt =>
        if timer.timeoutMs ≤ elapsedSince now enteredAt then
          (some (.toggleItem .holdMode), { timer with enteredAt := none, fired := true })
        else (none, timer)
      | none => (none, { timer with enteredAt := some now })
  else (none, { timer with enteredAt := none, fired := false })

/-- The timer toggles hold mode when it fires. -/
theorem eq_toggleItem_of_tick {timer : HoldModeTimer} {now : Timestamp} {isHold : Bool}
    {cmd : Command}
    (h : (timer.tick now isHold).1 = some cmd) : cmd = .toggleItem .holdMode := by
  unfold tick at h
  split at h
  · split at h
    · cases h
    · split at h
      · split at h <;> cases h
        rfl
      · cases h
  · cases h

end HoldModeTimer

end Launa.Core
