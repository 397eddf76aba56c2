import Launa.Core.ClockFormat
import Launa.Core.LastTemperature
import Launa.Lib.CoalescingQueue

/-!
# What the queue makes of the commands

Between two grants the commands of the user gather in the queue. Below the limit, it is a queue that
merges its entries, on which the commands are pushed with the clock mode before the first time that
needs it (`commandQueue_foldl_step`). So it holds each toggle at most once, one temperature, and the
other commands as they came (`Coalesced`).
-/

namespace Launa.Core

open Protocol Run CoalescingQueue

namespace SpaApp

/-- What a command does to the queue. -/
def queuePolicy : Command → Policy Unit
  | .toggleItem _ => .cancel
  | .setTemperature _ => .replace ()
  | _ => .keep

/-- The command sets the time with the 24-hour flag. -/
def setsTime24h : Command → Bool
  | .setTime _ _ is24h => is24h
  | _ => false

/-- The commands with the 24-hour clock mode before the first time that needs it, unless a clock
mode comes before it. -/
def insertClockMode : List Command → List Command
  | [] => []
  | cmd :: cmds =>
    if isClockMode cmd then cmd :: cmds
    else if setsTime24h cmd then .setPreference preferenceClockMode 1 :: cmd :: cmds
    else cmd :: insertClockMode cmds

/-- The queue holds a toggle of each item that was toggled an odd number of times, the last
temperature, and every other command in its order, with the clock mode before the time. -/
structure Coalesced (cmds queue : List Command) : Prop where
  toggles : ∀ item, queue.count (.toggleItem item) = cmds.count (.toggleItem item) % 2
  temperature : temperatures queue = (temperatures cmds).getLast?.toList
  others : queue.filter (queuePolicy · = .keep) =
    insertClockMode (cmds.filter (queuePolicy · = .keep))

/-- The user's command of a call. -/
def userCommand : AppCall → Option Command
  | .onMqttCommand cmd => some cmd
  | _ => none

/-- The user's commands of a run. -/
def requested (cs : List (Timestamp × AppCall)) : List Command :=
  cs.filterMap fun c => userCommand c.2

/-- The command of the user leaves the queue below its limit; any other call leaves the queue. -/
def Gathers (app : SpaApp) (c : Timestamp × AppCall) : Prop :=
  if (userCommand c.2).isSome then (app.step c).commandQueue.length < maxCommandQueue
  else (app.step c).commandQueue = app.commandQueue

instance (app : SpaApp) (c : Timestamp × AppCall) : Decidable (Gathers app c) :=
  inferInstanceAs (Decidable (if (userCommand c.2).isSome then _ else _))

/-- The queue with a command, when there is room. -/
def coalesce (queue : List Command) (cmd : Command) : List Command :=
  if setsTime24h cmd ∧ ¬ queue.any isClockMode then
    push queuePolicy (push queuePolicy queue (.setPreference preferenceClockMode 1)) cmd
  else push queuePolicy queue cmd

/-! ## One command -/

/-- The commands that replace others are those that set the temperature. -/
theorem queuePolicy_eq_replace (cmd : Command) :
    decide (queuePolicy cmd = .replace ()) = isSetTemperature cmd := by
  cases cmd <;> rfl

/-- A queue that is not full then had the command added. -/
theorem commandQueue_enqueue {self : SpaApp} {cmd : Command}
    (h : (self.enqueue cmd).commandQueue.length < maxCommandQueue) :
    (self.enqueue cmd).commandQueue = self.commandQueue ++ [cmd] := by
  unfold enqueue at h ⊢
  split at h
  · rename_i hfull
    exact absurd h (by dsimp only; omega)
  · rename_i hroom
    rw [if_neg hroom]

/-! Each kind of command does to the queue what its policy says, if that does not fill the queue. -/

/-- A temperature coalesces if the queue is not full then. -/
theorem commandQueue_setTemperature {self : SpaApp} {temp : UInt8}
    (h : (self.onMqttCommand (.setTemperature temp)).2.commandQueue.length < maxCommandQueue) :
    (self.onMqttCommand (.setTemperature temp)).2.commandQueue =
      coalesce self.commandQueue (.setTemperature temp) := by
  have hpush : coalesce self.commandQueue (.setTemperature temp) =
      replaceOrAppend queuePolicy () (.setTemperature temp) self.commandQueue := rfl
  rw [hpush, replaceOrAppend_eq, funext queuePolicy_eq_replace]
  unfold onMqttCommand at h ⊢
  rw [replaceTemperature_setTemperature] at h ⊢
  cases hfound : self.commandQueue.findIdx? isSetTemperature with
  | some i => rfl
  | none =>
    rw [hfound] at h
    exact commandQueue_enqueue h

/-- A toggle coalesces if the queue is not full then. -/
theorem commandQueue_toggleItem {self : SpaApp} {item : ToggleItem}
    (h : (self.onMqttCommand (.toggleItem item)).2.commandQueue.length < maxCommandQueue) :
    (self.onMqttCommand (.toggleItem item)).2.commandQueue =
      coalesce self.commandQueue (.toggleItem item) := by
  have hpush : coalesce self.commandQueue (.toggleItem item) =
      if .toggleItem item ∈ self.commandQueue then self.commandQueue.erase (.toggleItem item)
      else self.commandQueue ++ [.toggleItem item] := cancelOrAppend_eq _ _
  have hreplace : replaceTemperature self.commandQueue (.toggleItem item) = none := rfl
  rw [hpush]
  unfold onMqttCommand at h ⊢
  rw [hreplace] at h ⊢
  dsimp only at h ⊢
  rw [enqueueClockMode_toggleItem, cancelToggle] at h ⊢
  by_cases hmem : .toggleItem item ∈ self.commandQueue
  · rw [if_pos hmem, if_pos hmem]
  · rw [if_neg hmem] at h
    rw [if_neg hmem, if_neg hmem]
    exact commandQueue_enqueue h

/-- A time in 24 hour format coalesces if the queue is not full then. -/
theorem commandQueue_setTime24h {self : SpaApp} {hour minute : UInt8}
    (h : (self.onMqttCommand (.setTime hour minute true)).2.commandQueue.length <
      maxCommandQueue) :
    (self.onMqttCommand (.setTime hour minute true)).2.commandQueue =
      coalesce self.commandQueue (.setTime hour minute true) := by
  rw [onMqttCommand_setTime, ← any_isClockMode] at h ⊢
  by_cases hqueued : self.commandQueue.any isClockMode = true
  · have hpush : coalesce self.commandQueue (.setTime hour minute true) =
        self.commandQueue ++ [.setTime hour minute true] := if_neg fun hneeds => hneeds.2 hqueued
    rw [if_pos hqueued] at h ⊢
    rw [hpush]
    split at h
    · rename_i hroom
      rw [if_pos hroom]
    · exact absurd h (by omega)
  · have hpush : coalesce self.commandQueue (.setTime hour minute true) =
        self.commandQueue ++ [.setPreference preferenceClockMode 1] ++
          [.setTime hour minute true] := if_pos ⟨rfl, hqueued⟩
    rw [if_neg hqueued] at h ⊢
    rw [hpush]
    split at h
    · rename_i hroom
      rw [if_pos hroom]
      exact List.append_cons _ _ _
    -- Otherwise the queue is full.
    · split at h
      · rw [List.length_append, List.length_singleton] at h
        exact absurd h (by omega)
      · exact absurd h (by omega)

/-- The command is coalesced with the queued ones, if that does not fill the queue. -/
theorem commandQueue_onMqttCommand {self : SpaApp} {cmd : Command}
    (h : (self.onMqttCommand cmd).2.commandQueue.length < maxCommandQueue) :
    (self.onMqttCommand cmd).2.commandQueue = coalesce self.commandQueue cmd := by
  cases cmd with
  | setTemperature temp => exact commandQueue_setTemperature h
  | toggleItem item => exact commandQueue_toggleItem h
  | setTime hour minute is24h =>
    cases is24h with
    | false => exact commandQueue_enqueue h
    | true => exact commandQueue_setTime24h h
  | _ => exact commandQueue_enqueue h

/-- A clock mode is in the queue exactly if it was there or is pushed. -/
theorem any_isClockMode_push (queue : List Command) (cmd : Command) :
    (push queuePolicy queue cmd).any isClockMode = (queue.any isClockMode || isClockMode cmd) := by
  have hkeep : ∀ mode, isClockMode mode = true → queuePolicy mode = .keep := by
    intro mode hmode
    cases mode with
    | setPreference code value => rfl
    | _ => cases hmode
  rw [Bool.eq_iff_iff, Bool.or_eq_true, List.any_eq_true, List.any_eq_true]
  constructor
  · rintro ⟨mode, hmem, hmode⟩
    obtain hmem | rfl := (mem_push_of_keep (hkeep mode hmode) queue cmd).1 hmem
    · exact .inl ⟨mode, hmem, hmode⟩
    · exact .inr hmode
  · rintro (⟨mode, hmem, hmode⟩ | hmode)
    · exact ⟨mode, (mem_push_of_keep (hkeep mode hmode) queue cmd).2 (.inl hmem), hmode⟩
    · exact ⟨cmd, (mem_push_of_keep (hkeep cmd hmode) queue cmd).2 (.inr rfl), hmode⟩

/-- Setting the time is no clock mode command. -/
theorem isClockMode_of_setsTime24h {cmd : Command} (h : setsTime24h cmd = true) :
    isClockMode cmd = false := by
  cases cmd with
  | setTime hour minute is24h => rfl
  | _ => cases h

/-! ## All commands -/

/-- Coalescing pushes the commands with the clock mode, unless one is queued. -/
theorem foldl_coalesce (cmds queue : List Command) :
    cmds.foldl coalesce queue =
      (if queue.any isClockMode then cmds else insertClockMode cmds).foldl (push queuePolicy)
        queue := by
  induction cmds generalizing queue with
  | nil => split <;> rfl
  | cons cmd cmds ih =>
    rw [List.foldl_cons, ih]
    by_cases hqueued : queue.any isClockMode = true
    · -- A clock mode that is queued stays.
      have hpush : coalesce queue cmd = push queuePolicy queue cmd :=
        if_neg fun hneeds => hneeds.2 hqueued
      rw [hpush, any_isClockMode_push, hqueued, Bool.true_or, if_pos rfl, if_pos rfl,
        List.foldl_cons]
    · rw [if_neg hqueued, insertClockMode]
      by_cases hmode : isClockMode cmd = true
      · have hpush : coalesce queue cmd = push queuePolicy queue cmd := by
          refine if_neg fun hneeds => ?_
          exact absurd (hmode.symm.trans (isClockMode_of_setsTime24h hneeds.1)) (by decide)
        rw [hpush, any_isClockMode_push, hmode, Bool.or_true, if_pos rfl, if_pos rfl,
          List.foldl_cons]
      · rw [if_neg hmode]
        by_cases htime : setsTime24h cmd = true
        · have hpush : coalesce queue cmd = push queuePolicy
              (push queuePolicy queue (.setPreference preferenceClockMode 1)) cmd :=
            if_pos ⟨htime, hqueued⟩
          have hpref : isClockMode (.setPreference preferenceClockMode 1) = true := rfl
          rw [hpush, any_isClockMode_push, any_isClockMode_push, hpref, Bool.or_true, Bool.true_or,
            if_pos rfl, if_pos htime, List.foldl_cons, List.foldl_cons]
        · have hpush : coalesce queue cmd = push queuePolicy queue cmd :=
            if_neg fun hneeds => htime hneeds.1
          rw [hpush, any_isClockMode_push, eq_false_of_ne_true hqueued, eq_false_of_ne_true hmode,
            if_neg htime, List.foldl_cons]
          rfl

/-- A call coalesces its command, if it has one. -/
theorem commandQueue_step {self : SpaApp} {c : Timestamp × AppCall} (h : Gathers self c) :
    (self.step c).commandQueue = (userCommand c.2).toList.foldl coalesce self.commandQueue := by
  obtain ⟨now, c⟩ := c
  cases c with
  | onMqttCommand cmd => exact commandQueue_onMqttCommand h
  | _ => exact h

/-- What was requested begins with the command of the first call. -/
theorem requested_cons (c : Timestamp × AppCall) (cs : List (Timestamp × AppCall)) :
    requested (c :: cs) = (userCommand c.2).toList ++ requested cs := by
  rw [requested, List.filterMap_cons]
  cases userCommand c.2 <;> rfl

/-- The queue after the run: what the user asked for, coalesced. -/
theorem commandQueue_foldl_step {self : SpaApp} {cs : List (Timestamp × AppCall)}
    (hempty : self.commandQueue = []) (h : Along step Gathers self cs) :
    (cs.foldl step self).commandQueue =
      (insertClockMode (requested cs)).foldl (push queuePolicy) [] := by
  have hrun : (cs.foldl step self).commandQueue =
      (requested cs).foldl coalesce self.commandQueue := by
    clear hempty
    induction cs generalizing self with
    | nil => rfl
    | cons c cs ih =>
      rw [List.foldl_cons, ih h.2, commandQueue_step h.1, requested_cons, List.foldl_append]
  rw [hrun, hempty, foldl_coalesce]
  rfl

/-- The clock mode is not selected by what selects no clock mode. -/
theorem filter_insertClockMode {p : Command → Bool}
    (hp : p (.setPreference preferenceClockMode 1) = false) (cmds : List Command) :
    (insertClockMode cmds).filter p = cmds.filter p := by
  induction cmds with
  | nil => rfl
  | cons cmd cmds ih =>
    rw [insertClockMode]
    split
    · rfl
    · split
      · rw [List.filter_cons_of_neg (by simp [hp])]
      · rw [List.filter_cons, List.filter_cons, ih]

/-- The clock mode is inserted among the commands that stay in their order. -/
theorem filter_keep_insertClockMode (cmds : List Command) :
    (insertClockMode cmds).filter (queuePolicy · = .keep) =
      insertClockMode (cmds.filter (queuePolicy · = .keep)) := by
  induction cmds with
  | nil => rfl
  | cons cmd cmds ih =>
    rw [insertClockMode]
    by_cases hkeep : queuePolicy cmd = .keep
    · rw [List.filter_cons_of_pos (by simpa using hkeep), insertClockMode]
      split
      · rw [List.filter_cons_of_pos (by simpa using hkeep)]
      · split
        · rw [List.filter_cons_of_pos rfl, List.filter_cons_of_pos (by simpa using hkeep)]
        · rw [List.filter_cons_of_pos (by simpa using hkeep), ih]
    -- A toggle or a temperature is neither a clock mode nor a time.
    · have hmode : isClockMode cmd = false ∧ setsTime24h cmd = false := by
        cases cmd with
        | setTime hour minute is24h => exact absurd rfl hkeep
        | setPreference code value => exact absurd rfl hkeep
        | _ => exact ⟨rfl, rfl⟩
      rw [hmode.1, hmode.2, if_neg Bool.false_ne_true, if_neg Bool.false_ne_true,
        List.filter_cons_of_neg (by simpa using hkeep),
        List.filter_cons_of_neg (by simpa using hkeep), ih]

/-- The commands that replace others are those of the temperatures. -/
theorem filter_replace_eq (cmds : List Command) :
    cmds.filter (queuePolicy · = .replace ()) = (temperatures cmds).map .setTemperature := by
  rw [funext queuePolicy_eq_replace]
  induction cmds with
  | nil => rfl
  | cons cmd cmds ih =>
    cases hcmd : isSetTemperature cmd with
    | true =>
      obtain ⟨temp, rfl⟩ := exists_eq_setTemperature hcmd
      rw [List.filter_cons_of_pos hcmd, ih, temperatures_setTemperature, List.map_cons]
    | false =>
      rw [List.filter_cons_of_neg (ne_true_of_eq_false hcmd), ih, temperatures_cons hcmd]

/-- The queue coalesces the user's commands as long as it is below its limit and nothing else
touches it. -/
theorem coalesced_of_gathers {self : SpaApp} {cs : List (Timestamp × AppCall)}
    (hempty : self.commandQueue = []) (h : Along step Gathers self cs) :
    Coalesced (requested cs) (cs.foldl step self).commandQueue := by
  rw [commandQueue_foldl_step hempty h]
  generalize requested cs = cmds
  constructor
  · intro item
    rw [count_foldl_push rfl]
    refine congrArg (· % 2) ?_
    rw [List.count_eq_length_filter, List.count_eq_length_filter, filter_insertClockMode rfl]
  · refine List.map_injective_iff.2 (fun a b => Command.setTemperature.inj) ?_
    rw [← filter_replace_eq, filter_replace_foldl_push, filter_insertClockMode rfl,
      filter_replace_eq, List.getLast?_map, Option.toList_map]
  · rw [filter_keep_foldl_push, filter_keep_insertClockMode]

end SpaApp

end Launa.Core
