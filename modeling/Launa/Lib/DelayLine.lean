import Launa.Lib.Mealy
import Mathlib.Data.List.Range

/-!
# Delay lines

What is put in a delay line comes out a number of ticks later, and at once if that number is zero.
The line is a list of what is in it, each with the ticks that are left. In every run, what has come
out is what was due, in the order of the ticks that it was due at, and among those of one tick in
the order in which it was put in (`run_eq`).
-/

namespace Launa.DelayLine

variable {α : Type*}

/-- What is done with a delay line. -/
inductive Input (α : Type*) where
  | put (delay : ℕ) (a : α)
  | tick

/-- A tick: less is left, and what is left for none comes out. -/
def tick : List (ℕ × α) → List α × List (ℕ × α)
  | [] => ([], [])
  | (left, a) :: line =>
    if left - 1 = 0 then (a :: (tick line).1, (tick line).2)
    else ((tick line).1, (left - 1, a) :: (tick line).2)

/-- What comes out after an input. -/
def step (line : List (ℕ × α)) : Input α → List α × List (ℕ × α)
  | .put delay a => if delay = 0 then ([a], line) else ([], line ++ [(delay, a)])
  | .tick => tick line

/-! ## What is due -/

/-- The ticks. -/
def now : List (Input α) → ℕ
  | [] => 0
  | .put _ _ :: inputs => now inputs
  | .tick :: inputs => now inputs + 1

/-- What is put in, with the tick that it is due at. -/
def dues (start : ℕ) : List (Input α) → List (ℕ × α)
  | [] => []
  | .put delay a :: inputs => (start + delay, a) :: dues start inputs
  | .tick :: inputs => dues (start + 1) inputs

/-- What is due at a tick. -/
def dueAt (due : List (ℕ × α)) (t : ℕ) : List α := (due.filter (·.1 = t)).map Prod.snd

/-- What is due until a tick, in the order of the ticks. -/
def dueUntil (due : List (ℕ × α)) (t : ℕ) : List α := (List.range (t + 1)).flatMap (dueAt due)

/-- What is due later, with the ticks until then. -/
def dueAfter (due : List (ℕ × α)) (t : ℕ) : List (ℕ × α) :=
  (due.filter (t < ·.1)).map fun d => (d.1 - t, d.2)

/-- Ticks of two runs add up. -/
theorem now_append (inputs inputs' : List (Input α)) :
    now (inputs ++ inputs') = now inputs + now inputs' := by
  induction inputs with
  | nil => exact (Nat.zero_add _).symm
  | cons input inputs ih =>
    cases input with
    | put delay a => exact ih
    | tick =>
      rw [List.cons_append, now, now, ih]
      omega

/-- What is due after two runs is due after either, the second one starting later. -/
theorem dues_append (start : ℕ) (inputs inputs' : List (Input α)) :
    dues start (inputs ++ inputs') =
      dues start inputs ++ dues (start + now inputs) inputs' := by
  induction inputs generalizing start with
  | nil => rfl
  | cons input inputs ih =>
    cases input with
    | put delay a => exact congrArg _ (ih start)
    | tick =>
      rw [List.cons_append, dues, dues, ih, now]
      congr 2
      omega

/-- What is due at a tick comes from either list. -/
theorem dueAt_append (due due' : List (ℕ × α)) (t : ℕ) :
    dueAt (due ++ due') t = dueAt due t ++ dueAt due' t := by
  rw [dueAt, List.filter_append, List.map_append]
  rfl

/-- One tick later, what is due at that tick has come too. -/
theorem dueUntil_succ (due : List (ℕ × α)) (t : ℕ) :
    dueUntil due (t + 1) = dueUntil due t ++ dueAt due (t + 1) := by
  rw [dueUntil, List.range_succ, List.flatMap_append, List.flatMap_singleton]
  rfl

/-- What is put in now comes last of all that is due by now. -/
theorem dueUntil_put (due : List (ℕ × α)) (t delay : ℕ) (a : α) :
    dueUntil (due ++ [(t + delay, a)]) t = dueUntil due t ++ if delay = 0 then [a] else [] := by
  have hat (s : ℕ) : dueAt (due ++ [(t + delay, a)]) s =
      dueAt due s ++ if t + delay = s then [a] else [] := by
    rw [dueAt_append]
    congr 1
    by_cases hs : t + delay = s
    · rw [if_pos hs, dueAt, List.filter_singleton, decide_eq_true hs]
      rfl
    · rw [if_neg hs, dueAt, List.filter_singleton, decide_eq_false hs]
      rfl
  have hbefore : (List.range t).flatMap (dueAt (due ++ [(t + delay, a)])) =
      (List.range t).flatMap (dueAt due) := by
    apply List.flatMap_congr
    intro s hs
    have hlt := List.mem_range.1 hs
    rw [hat, if_neg (by omega), List.append_nil]
  have hnow : t + delay = t ↔ delay = 0 := by omega
  rw [dueUntil, List.range_succ, List.flatMap_append, hbefore, List.flatMap_singleton, hat,
    dueUntil, List.range_succ, List.flatMap_append, List.flatMap_singleton, List.append_assoc]
  simp only [hnow]

/-- The first item is due at its own tick. -/
theorem dueAt_cons (t' : ℕ) (a : α) (due : List (ℕ × α)) (t : ℕ) :
    dueAt ((t', a) :: due) t = if t' = t then a :: dueAt due t else dueAt due t := by
  rw [dueAt, List.filter_cons]
  by_cases h : t' = t
  · rw [if_pos (decide_eq_true h), if_pos h]
    rfl
  · rw [if_neg (by rw [decide_eq_false h]; exact Bool.false_ne_true), if_neg h]
    rfl

/-- The first item remains while its tick has not come. -/
theorem dueAfter_cons (t' : ℕ) (a : α) (due : List (ℕ × α)) (t : ℕ) :
    dueAfter ((t', a) :: due) t =
      if t < t' then (t' - t, a) :: dueAfter due t else dueAfter due t := by
  rw [dueAfter, List.filter_cons]
  by_cases h : t < t'
  · rw [if_pos (decide_eq_true h), if_pos h]
    rfl
  · rw [if_neg (by rw [decide_eq_false h]; exact Bool.false_ne_true), if_neg h]
    rfl

/-- A tick takes out what is due at it. -/
theorem tick_dueAfter (due : List (ℕ × α)) (t : ℕ) :
    tick (dueAfter due t) = (dueAt due (t + 1), dueAfter due (t + 1)) := by
  induction due with
  | nil => rfl
  | cons d due ih =>
    obtain ⟨t', a⟩ := d
    rw [dueAfter_cons, dueAfter_cons, dueAt_cons]
    rcases Nat.lt_trichotomy t' (t + 1) with hpast | rfl | hlater
    · rw [if_neg (by omega), if_neg (by omega), if_neg (by omega), ih]
    · rw [if_pos (by omega), if_pos rfl, if_neg (by omega), tick, if_pos (by omega), ih]
    · have hleft : t' - t - 1 = t' - (t + 1) := by omega
      rw [if_pos (by omega), if_neg (by omega), if_pos hlater, tick, if_neg (by omega), ih, hleft]

/-- In every run, what has come out is what was due until now, and the rest is still in the line. -/
theorem run_eq (inputs : List (Input α)) :
    Mealy.run step [] inputs =
      (dueUntil (dues 0 inputs) (now inputs), dueAfter (dues 0 inputs) (now inputs)) := by
  induction inputs using List.reverseRecOn with
  | nil => rfl
  | append_singleton inputs input ih =>
    rw [Mealy.run_append, ih, Mealy.run_cons, Mealy.run_nil, dues_append, now_append,
      List.append_nil, Nat.zero_add]
    generalize dues 0 inputs = due
    generalize now inputs = t
    cases input with
    | tick =>
      show (_ ++ (tick (dueAfter due t)).1, (tick (dueAfter due t)).2) =
        (dueUntil (due ++ []) (t + 1), dueAfter (due ++ []) (t + 1))
      rw [List.append_nil, tick_dueAfter, dueUntil_succ]
    | put delay a =>
      show (_ ++ (step (dueAfter due t) (.put delay a)).1,
          (step (dueAfter due t) (.put delay a)).2) =
        (dueUntil (due ++ [(t + delay, a)]) t, dueAfter (due ++ [(t + delay, a)]) t)
      have hafter : dueAfter (due ++ [(t + delay, a)]) t =
          dueAfter due t ++ if delay = 0 then [] else [(delay, a)] := by
        rw [dueAfter, List.filter_append, List.map_append]
        change dueAfter due t ++ dueAfter [(t + delay, a)] t = _
        rw [dueAfter_cons, Nat.add_sub_cancel_left]
        by_cases hdelay : delay = 0
        · rw [if_neg (by omega), if_pos hdelay]
          rfl
        · rw [if_pos (by omega), if_neg hdelay]
          rfl
      rw [dueUntil_put, hafter, step]
      split
      · rw [List.append_nil]
      · rfl

end Launa.DelayLine
