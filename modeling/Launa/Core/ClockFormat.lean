import Launa.Core.SpaApp

/-!
# The clock format before the time

A `SetTime` with the 24-hour flag is queued behind a preference for the clock mode, so that the spa
reads the time in the right format. `ClockFormatAtomic` says that it gets both or nothing, and
`clockFormatAtomic_iff` when it does: the preference takes the last place of the queue without
asking whether the time has one too, and it is left out for any clock mode that is queued, the other
one included.
-/

namespace Launa.Core

open Protocol

namespace SpaApp

/-- The clock mode that a command sets. -/
def clockModeValue : Command → Option UInt8
  | .setPreference code value => if code = preferenceClockMode then some value else none
  | _ => none

/-- The clock mode that the commands leave the spa in, if one of them sets it. -/
def clockModeAfter (queue : List Command) : Option UInt8 :=
  (queue.filterMap clockModeValue).getLast?

/-- The room that a `SetTime` with the 24-hour flag needs: its own place, and one for the clock mode
unless the queue leaves the spa in it. -/
def clockFormatRoom (queue : List Command) : ℕ :=
  if clockModeAfter queue = some 1 then 1 else 2

/-- What a `SetTime` with the 24-hour flag may do to a queue: it comes last, behind the queue's
commands and a clock mode that is the 24-hour one when the time is sent; or there is no room, and
nothing changes. -/
def ClockFormatAtomic (queue queue' : List Command) (hour minute : UInt8) : Prop :=
  (∃ before, queue' = before ++ [.setTime hour minute true] ∧ clockModeAfter before = some 1 ∧
    (before = queue ∨ before = queue ++ [.setPreference preferenceClockMode 1])) ∨
  maxCommandQueue < queue.length + clockFormatRoom queue ∧ queue' = queue

variable (self : SpaApp) (hour minute : UInt8)

/-- A clock mode command is one that has a value. -/
theorem isClockMode_iff (cmd : Command) : isClockMode cmd = true ↔ (clockModeValue cmd).isSome := by
  cases cmd with
  | setPreference code value =>
    simp only [isClockMode, clockModeValue, decide_eq_true_eq]
    split <;> simp [*]
  | _ => simp [isClockMode, clockModeValue]

/-- No clock mode is queued exactly when the commands leave the one that the spa has. -/
theorem any_isClockMode (queue : List Command) :
    queue.any isClockMode = (clockModeAfter queue).isSome := by
  rw [Bool.eq_iff_iff, clockModeAfter, List.any_eq_true, List.getLast?_isSome, ne_eq,
    List.filterMap_eq_nil_iff]
  simp only [isClockMode_iff, Option.isSome_iff_ne_none]
  push Not
  rfl

/-- The last clock mode command decides. -/
@[simp] theorem clockModeAfter_append_clockMode (queue : List Command) (value : UInt8) :
    clockModeAfter (queue ++ [.setPreference preferenceClockMode value]) = some value := by
  simp [clockModeAfter, clockModeValue]

/-- Where the two commands go, by what is queued. -/
theorem onMqttCommand_setTime :
    (self.onMqttCommand (.setTime hour minute true)).2.commandQueue =
      if (clockModeAfter self.commandQueue).isSome then
        if self.commandQueue.length < maxCommandQueue then
          self.commandQueue ++ [.setTime hour minute true]
        else self.commandQueue
      else if self.commandQueue.length + 1 < maxCommandQueue then
        self.commandQueue ++ [.setPreference preferenceClockMode 1, .setTime hour minute true]
      else if self.commandQueue.length < maxCommandQueue then
        self.commandQueue ++ [.setPreference preferenceClockMode 1]
      else self.commandQueue := by
  have hreplace : replaceTemperature self.commandQueue (.setTime hour minute true) = none := rfl
  have hcancel : ∀ queue, cancelToggle queue (.setTime hour minute true) = none := fun _ => rfl
  simp only [onMqttCommand, hreplace, hcancel, enqueueClockMode, any_isClockMode]
  by_cases hqueued : (clockModeAfter self.commandQueue).isSome = true
  · simp only [if_pos hqueued, enqueue]
    split <;> rename_i hfull
    · rw [if_neg (by omega)]
    · rw [if_pos (by omega)]
  · simp only [if_neg hqueued, enqueue]
    by_cases hfull : self.commandQueue.length ≥ maxCommandQueue
    · -- The queue is full before the preference.
      simp only [if_pos hfull]
      rw [if_neg (by omega), if_neg (by omega)]
    · simp only [if_neg hfull, List.length_append, List.length_singleton]
      split <;> rename_i hlast
      -- The preference has taken the last place.
      · rw [if_neg (by omega), if_pos (by omega)]
      · rw [if_pos (by omega)]
        simp

/-- A `SetTime` with the 24-hour flag gets a clock mode and its place, or neither, exactly when the
preference would not take the last place of the queue, and a clock mode that is queued is the
24-hour one or leaves no room for the time. -/
theorem clockFormatAtomic_iff :
    ClockFormatAtomic self.commandQueue
        (self.onMqttCommand (.setTime hour minute true)).2.commandQueue hour minute ↔
      match clockModeAfter self.commandQueue with
      | none => self.commandQueue.length + 1 ≠ maxCommandQueue
      | some value => self.commandQueue.length < maxCommandQueue → value = 1 := by
  rw [onMqttCommand_setTime, ClockFormatAtomic, clockFormatRoom]
  generalize self.commandQueue = queue
  cases hmode : clockModeAfter queue with
  | none =>
    simp only [Option.isSome_none, Bool.false_eq_true, if_false, reduceCtorEq]
    by_cases hroom : queue.length + 1 < maxCommandQueue
    · rw [if_pos hroom]
      refine iff_of_true (.inl ⟨queue ++ [.setPreference preferenceClockMode 1], ?_, ?_, .inr rfl⟩)
        (by omega)
      · simp
      · simp
    · rw [if_neg hroom]
      by_cases hplace : queue.length < maxCommandQueue
      · -- One of the two commands only.
        rw [if_pos hplace]
        refine iff_of_false ?_ (by omega)
        rintro (⟨before, heq, -⟩ | ⟨-, heq⟩)
        · have hlast := congrArg List.getLast? heq
          simp at hlast
        · simp at heq
      · rw [if_neg hplace]
        exact iff_of_true (.inr ⟨by omega, rfl⟩) (by omega)
  | some value =>
    simp only [Option.isSome_some, if_true, Option.some.injEq]
    by_cases hplace : queue.length < maxCommandQueue
    · rw [if_pos hplace]
      constructor
      · rintro (⟨before, heq, hbefore, -⟩ | ⟨-, heq⟩) -
        · rw [← List.append_cancel_right heq, hmode] at hbefore
          exact Option.some.inj hbefore
        · simp at heq
      · intro hvalue
        exact .inl ⟨queue, rfl, by rw [hmode, hvalue hplace], .inl rfl⟩
    · rw [if_neg hplace]
      refine iff_of_true (.inr ⟨?_, rfl⟩) fun h => absurd h hplace
      split <;> omega

/-- A queue that changes ends in the time, behind the 24-hour clock mode. -/
theorem ClockFormatAtomic.last {queue queue' : List Command} {hour minute : UInt8}
    (h : ClockFormatAtomic queue queue' hour minute) :
    queue' = queue ∨
      queue'.getLast? = some (.setTime hour minute true) ∧
        clockModeAfter queue'.dropLast = some 1 := by
  rcases h with ⟨before, rfl, hmode, -⟩ | ⟨-, heq⟩
  · right
    simp [hmode]
  · exact .inl heq

/-- With one place left, the preference takes it and the time is dropped; and with the 12-hour clock
mode queued, the time follows that one. -/
theorem not_clockFormatAtomic :
    let start := withClientHash 0 (0, 0)
    let full := (List.replicate 31 (0, .onMqttCommand .configurationRequest)).foldl step start
    let other := start.step (0, .onMqttCommand (.setPreference preferenceClockMode 0))
    ¬ ClockFormatAtomic full.commandQueue
        (full.onMqttCommand (.setTime 12 30 true)).2.commandQueue 12 30 ∧
      ¬ ClockFormatAtomic other.commandQueue
        (other.onMqttCommand (.setTime 12 30 true)).2.commandQueue 12 30 :=
  ⟨fun h => absurd h.last (by decide +kernel), fun h => absurd h.last (by decide +kernel)⟩

end SpaApp

end Launa.Core
