import Launa.Core.Timers
import Launa.Lib.Mealy

/-!
# The hold timer over its episodes

Hold mode is on in episodes: maximal sequences of ticks that find it on. The timer starts at the
first tick of an episode, and it fires at the first one that comes its timeout later, which is once
in each episode that is long enough (`fires_once_in_episode`).
-/

namespace Launa.Core

open Protocol

namespace HoldModeTimer

/-- A tick as a step, which gives out the command of the timer if it fires. -/
def tickStep (timer : HoldModeTimer) (tick : Timestamp × Bool) : List Command × HoldModeTimer :=
  ((timer.tick tick.1 tick.2).1.toList, (timer.tick tick.1 tick.2).2)

/-- The commands of a new timer over some ticks, once it has been through those before them. -/
def outputsAfter (timeoutMs : ℕ) (before ticks : List (Timestamp × Bool)) : List Command :=
  (Mealy.run tickStep (Mealy.run tickStep (withTimeoutMs timeoutMs) before).2 ticks).1

/-- The ticks of a hold episode: they find hold mode on, and those next to them do not. -/
structure Episode (ticks before episode after : List (Timestamp × Bool)) : Prop where
  eq : ticks = before ++ episode ++ after
  hold : ∀ t ∈ episode, t.2 = true
  starts : ∀ t ∈ before.getLast?, t.2 = false
  ends : ∀ t ∈ after.head?, t.2 = false

variable {timeoutMs : ℕ}

/-! ## One tick -/

/-- Without hold mode nothing fires, and the timer is reset. -/
theorem tickStep_released (timer : HoldModeTimer) (now : Timestamp) :
    timer.tickStep (now, false) = ([], withTimeoutMs timer.timeoutMs) := rfl

/-- The first tick of an episode starts the timer. -/
theorem tickStep_first (timeoutMs : ℕ) (now : Timestamp) :
    (withTimeoutMs timeoutMs).tickStep (now, true) = ([], ⟨some now, timeoutMs, false⟩) := rfl

/-- A timer that has fired waits for the end of the episode. -/
theorem tickStep_fired (enteredAt : Option Timestamp) (timeoutMs : ℕ) (now : Timestamp) :
    tickStep ⟨enteredAt, timeoutMs, true⟩ (now, true) = ([], ⟨enteredAt, timeoutMs, true⟩) := rfl

/-- A timer that was started fires when its timeout is over. -/
theorem tickStep_started (hpos : 0 < timeoutMs) (enteredAt now : ℕ) :
    tickStep ⟨some enteredAt, timeoutMs, false⟩ (now, true) =
      if enteredAt + timeoutMs ≤ now then ([.toggleItem .holdMode], ⟨none, timeoutMs, true⟩)
      else ([], ⟨some enteredAt, timeoutMs, false⟩) := by
  have hiff : timeoutMs ≤ elapsedSince now enteredAt ↔ enteredAt + timeoutMs ≤ now := by
    calc timeoutMs ≤ elapsedSince now enteredAt
        ↔ timeoutMs ≤ now - enteredAt := Iff.rfl
      _ ↔ enteredAt + timeoutMs ≤ now := by omega
  simp only [tickStep, tick, hiff]
  by_cases hdue : enteredAt + timeoutMs ≤ now <;> simp [hdue]

/-! ## An episode -/

/-- A timer that has fired does not fire again while the spa stays on hold. -/
theorem run_fired {rest : List (Timestamp × Bool)} (hold : ∀ t ∈ rest, t.2 = true) :
    Mealy.run tickStep ⟨none, timeoutMs, true⟩ rest = ([], ⟨none, timeoutMs, true⟩) := by
  induction rest with
  | nil => rfl
  | cons t rest ih =>
    obtain ⟨ht, hrest⟩ := List.forall_mem_cons.1 hold
    obtain ⟨now, isHold⟩ := t
    obtain rfl : isHold = true := ht
    rw [Mealy.run_cons, tickStep_fired, ih hrest]
    rfl

/-- After its first tick, an episode fires once if a tick comes late enough. -/
theorem run_started (hpos : 0 < timeoutMs) (enteredAt : Timestamp)
    {rest : List (Timestamp × Bool)} (hold : ∀ t ∈ rest, t.2 = true) :
    Mealy.run tickStep ⟨some enteredAt, timeoutMs, false⟩ rest =
      if ∃ t ∈ rest, enteredAt + timeoutMs ≤ t.1 then
        ([.toggleItem .holdMode], ⟨none, timeoutMs, true⟩)
      else ([], ⟨some enteredAt, timeoutMs, false⟩) := by
  induction rest with
  | nil => simp
  | cons t rest ih =>
    obtain ⟨ht, hrest⟩ := List.forall_mem_cons.1 hold
    obtain ⟨now, isHold⟩ := t
    obtain rfl : isHold = true := ht
    rw [Mealy.run_cons, tickStep_started hpos]
    by_cases hdue : enteredAt + timeoutMs ≤ now
    · rw [if_pos hdue, run_fired hrest, if_pos ⟨_, List.mem_cons_self, hdue⟩]
      rfl
    · rw [if_neg hdue, ih hrest]
      simp only [List.exists_mem_cons_iff, hdue, false_or]
      split <;> rfl

/-- A run keeps the timeout. -/
theorem timeoutMs_run (timer : HoldModeTimer) (ticks : List (Timestamp × Bool)) :
    (Mealy.run tickStep timer ticks).2.timeoutMs = timer.timeoutMs := by
  have htick : ∀ (s : HoldModeTimer) (t : Timestamp × Bool),
      (tickStep s t).2.timeoutMs = s.timeoutMs := fun s t => by
    unfold tickStep tick
    repeat' split
    all_goals rfl
  induction ticks generalizing timer with
  | nil => rfl
  | cons t ticks ih => exact (ih _).trans (htick timer t)

/-- Before an episode the timer is as new. -/
theorem run_before {before : List (Timestamp × Bool)}
    (starts : ∀ t ∈ before.getLast?, t.2 = false) :
    (Mealy.run tickStep (withTimeoutMs timeoutMs) before).2 = withTimeoutMs timeoutMs := by
  rcases List.eq_nil_or_concat before with rfl | ⟨before', ⟨now, isHold⟩, rfl⟩
  · rfl
  · obtain rfl : isHold = false := starts (now, isHold) (by simp)
    have htimeout := timeoutMs_run (withTimeoutMs timeoutMs) before'
    rw [List.concat_eq_append, Mealy.run_append, Mealy.run_cons, tickStep_released, htimeout]
    rfl

/-- The ticks of an episode up to one of them. -/
theorem outputsAfter_tick (hpos : 0 < timeoutMs) {before : List (Timestamp × Bool)}
    (starts : ∀ t ∈ before.getLast?, t.2 = false) {first tick : Timestamp × Bool}
    {rest pre post : List (Timestamp × Bool)} (hold : ∀ t ∈ first :: rest, t.2 = true)
    (hsplit : first :: rest = pre ++ tick :: post) :
    outputsAfter timeoutMs (before ++ pre) [tick] =
      if first.1 + timeoutMs ≤ tick.1 ∧ ∀ t ∈ pre, t.1 < first.1 + timeoutMs then
        [.toggleItem .holdMode]
      else [] := by
  rw [hsplit, List.forall_mem_append, List.forall_mem_cons] at hold
  obtain ⟨hpre, htick, -⟩ := hold
  obtain ⟨now, isHold⟩ := tick
  obtain rfl : isHold = true := htick
  unfold outputsAfter
  rw [Mealy.run_append, run_before starts]
  cases pre with
  | nil =>
    -- It is the first tick, and the timeout has just begun.
    obtain ⟨rfl, -⟩ := List.cons.inj hsplit
    rw [if_neg fun h => absurd h.1 (Nat.not_le.2 (Nat.lt_add_of_pos_right hpos))]
    rfl
  | cons t pre =>
    obtain ⟨rfl, -⟩ := List.cons.inj hsplit
    obtain ⟨hfirst, hrest⟩ := List.forall_mem_cons.1 hpre
    obtain ⟨enteredAt, isHold⟩ := first
    obtain rfl : isHold = true := hfirst
    have hrun : (Mealy.run tickStep (withTimeoutMs timeoutMs) ((enteredAt, true) :: pre)).2 =
        if ∃ t ∈ pre, enteredAt + timeoutMs ≤ t.1 then ⟨none, timeoutMs, true⟩
        else ⟨some enteredAt, timeoutMs, false⟩ := by
      rw [Mealy.run_cons, tickStep_first, run_started hpos enteredAt hrest]
      split <;> rfl
    rw [hrun]
    by_cases hlate : ∃ t ∈ pre, enteredAt + timeoutMs ≤ t.1
    · -- It has fired before.
      obtain ⟨t, ht, hle⟩ := hlate
      rw [if_pos ⟨t, ht, hle⟩, if_neg fun h => Nat.not_lt.2 hle (h.2 t (List.mem_cons_of_mem _ ht))]
      rfl
    · rw [if_neg hlate]
      push Not at hlate
      have hall : ∀ t ∈ (enteredAt, true) :: pre, t.1 < enteredAt + timeoutMs :=
        List.forall_mem_cons.2 ⟨Nat.lt_add_of_pos_right hpos, hlate⟩
      rw [Mealy.run_cons, tickStep_started hpos]
      by_cases hdue : enteredAt + timeoutMs ≤ now
      · rw [if_pos hdue, if_pos ⟨hdue, hall⟩]
        rfl
      · rw [if_neg hdue, if_neg fun h => hdue h.1]
        rfl

/-- The ticks of a whole episode, at times that do not decrease. -/
theorem outputsAfter_episode (hpos : 0 < timeoutMs) {before : List (Timestamp × Bool)}
    (starts : ∀ t ∈ before.getLast?, t.2 = false) {first : Timestamp × Bool}
    {rest : List (Timestamp × Bool)} (hold : ∀ t ∈ first :: rest, t.2 = true)
    (hmono : (first :: rest).Pairwise (·.1 ≤ ·.1)) :
    outputsAfter timeoutMs before (first :: rest) =
      if first.1 + timeoutMs ≤ (rest.getLastD first).1 then [.toggleItem .holdMode] else [] := by
  obtain ⟨hfirst, hrest⟩ := List.forall_mem_cons.1 hold
  obtain ⟨enteredAt, isHold⟩ := first
  obtain rfl : isHold = true := hfirst
  -- A tick comes late enough exactly when the last one does.
  have hlast : (∃ t ∈ rest, enteredAt + timeoutMs ≤ t.1) ↔
      enteredAt + timeoutMs ≤ (rest.getLastD (enteredAt, true)).1 := by
    rcases List.eq_nil_or_concat rest with rfl | ⟨init, last, rfl⟩
    · simp [Nat.ne_of_gt hpos]
    · have hle : ∀ t ∈ init, t.1 ≤ last.1 := fun t ht => by
        rw [List.concat_eq_append, List.pairwise_cons, List.pairwise_append] at hmono
        exact hmono.2.2.2 t ht last (List.mem_singleton_self last)
      simp only [List.concat_eq_append, List.getLastD_concat, List.mem_append, List.mem_singleton]
      constructor
      · rintro ⟨t, ht | rfl, hdue⟩
        · exact hdue.trans (hle t ht)
        · exact hdue
      · exact fun hdue => ⟨last, .inr rfl, hdue⟩
  unfold outputsAfter
  rw [run_before starts, Mealy.run_cons, tickStep_first, run_started hpos enteredAt hrest]
  simp only [hlast]
  split <;> rfl

/-- Over ticks at times that do not decrease, the timer fires in each hold episode that lasts its
timeout, and once: at the first tick that comes the timeout after the first one. It fires in no
other episode, and at no tick without hold mode. -/
theorem fires_once_in_episode (timeoutMs : ℕ) (hpos : 0 < timeoutMs)
    (ticks : List (Timestamp × Bool)) (hmono : ticks.Pairwise (·.1 ≤ ·.1)) :
    (∀ before tick after, ticks = before ++ tick :: after → tick.2 = false →
      outputsAfter timeoutMs before [tick] = []) ∧
    ∀ before first rest after, Episode ticks before (first :: rest) after →
      outputsAfter timeoutMs before (first :: rest) =
        (if first.1 + timeoutMs ≤ (rest.getLastD first).1 then [.toggleItem .holdMode] else []) ∧
      ∀ pre tick post, first :: rest = pre ++ tick :: post →
        outputsAfter timeoutMs (before ++ pre) [tick] =
          if first.1 + timeoutMs ≤ tick.1 ∧ ∀ t ∈ pre, t.1 < first.1 + timeoutMs then
            [.toggleItem .holdMode]
          else [] := by
  refine ⟨?_, ?_⟩
  · rintro before ⟨now, isHold⟩ after - rfl
    rfl
  · intro before first rest after h
    refine ⟨outputsAfter_episode hpos h.starts h.hold ?_, ?_⟩
    · rw [h.eq, List.pairwise_append, List.pairwise_append] at hmono
      exact hmono.1.2.1
    · exact fun pre tick post hsplit => outputsAfter_tick hpos h.starts h.hold hsplit

/-- Two episodes, of which the first lasts the timeout of 10. -/
theorem fires_once_in_two_episodes :
    outputsAfter 10 [] [(0, true), (4, true), (10, true), (30, true)] = [.toggleItem .holdMode] ∧
      outputsAfter 10 [(0, true), (4, true), (10, true), (30, true), (31, false)]
        [(40, true), (45, true)] = [] := by
  have h := (fires_once_in_episode 10 (by decide)
    [(0, true), (4, true), (10, true), (30, true), (31, false), (40, true), (45, true)]
    (by decide)).2
  constructor
  · have hfirst := (h [] (0, true) [(4, true), (10, true), (30, true)]
      [(31, false), (40, true), (45, true)] ⟨rfl, by simp, by simp, by simp⟩).1
    exact hfirst.trans (if_pos (by decide))
  · have hsecond := (h [(0, true), (4, true), (10, true), (30, true), (31, false)] (40, true)
      [(45, true)] [] ⟨rfl, by simp, by simp, by simp⟩).1
    exact hsecond.trans (if_neg (by decide))

end HoldModeTimer

end Launa.Core
