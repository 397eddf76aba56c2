import Launa.Core.QueueCoalescing
import Launa.Sim.SpaSim

/-!
# Delivering what was coalesced

The queue is to do to the spa what the commands would have done that it was made of. For a toggle
with two states, twice is not at all; but the temperature that is set is saved for the range that
the spa is in, so it does not commute with the toggle of the range. What the commands do to the two
saved temperatures is their `RangeEffect`, and the queue has the same exactly when the temperatures
come at even numbers of range toggles or behind all of them (`RangeSafe`, `queue_faithful_iff`).
-/

namespace Launa.Sim

open Launa.Core Launa.Core.SpaApp Launa.Run Launa.CoalescingQueue Protocol

/-- The commands are sent to the spa one after the other. -/
def deliver (cmds : List Command) (s : SpaState) : SpaState :=
  cmds.foldl (fun s cmd => s.processIncomingBytes (encodeCommand cmd)) s

/-- The item has two states. -/
def isTwoState : ToggleItem → Bool
  | .light1 | .light2 | .light3 | .light4 | .blower | .holdMode | .temperatureRange => true
  | _ => false

/-- The command toggles an item with two states, or none. -/
def togglesTwoStates : Command → Bool
  | .toggleItem item => isTwoState item
  | _ => true

/-- Only items with two states are toggled. -/
def TwoStateToggles (cmds : List Command) : Prop := ∀ cmd ∈ cmds, togglesTwoStates cmd = true

instance (cmds : List Command) : Decidable (TwoStateToggles cmds) :=
  inferInstanceAs (Decidable (∀ cmd ∈ cmds, togglesTwoStates cmd = true))

/-- The toggle of the temperature range. -/
def rangeToggle : Command := .toggleItem .temperatureRange

namespace SpaState

/-- The temperature that is saved for a range. -/
def saved (s : SpaState) : TempRange → Temperature
  | .high => s.setTempHigh
  | .low => s.setTempLow

/-- The temperature that is set is the one that is saved for the range of the spa. -/
def Consistent (s : SpaState) : Prop := s.setTemp = s.saved s.tempRange

end SpaState

/-- The queue does to every spa what the commands do. -/
def DeliversAs (queue cmds : List Command) : Prop :=
  ∀ s : SpaState, s.Consistent → deliver queue s = deliver cmds s

/-- The queue coalesces the commands, and if all toggles are of two states it does what they do. -/
structure Faithful (cmds queue : List Command) : Prop where
  coalesced : Coalesced cmds queue
  delivered : TwoStateToggles cmds → DeliversAs queue cmds

/-- Every temperature that can be sent is asked for in the range that the spa was in. -/
def TemperaturesInRange (cmds : List Command) : Prop :=
  ∀ before temp after, cmds = before ++ .setTemperature temp :: after → temp ≤ absoluteMaxTempF →
    Even (before.count rangeToggle)

/-- Every temperature is asked for after the last toggle of the range. -/
def TemperaturesLast (cmds : List Command) : Prop :=
  cmds.Pairwise fun a b => isSetTemperature a = true → b ≠ rangeToggle

instance (cmds : List Command) : Decidable (TemperaturesLast cmds) :=
  inferInstanceAs (Decidable (cmds.Pairwise _))

/-- The temperatures that can be sent. -/
def sendable (cmds : List Command) : List UInt8 :=
  (temperatures cmds).filter (· ≤ absoluteMaxTempF)

/-- No temperature can be sent; or the last one can, and all come in the range that the spa was in,
or after the last toggle of the range. -/
def RangeSafe (cmds : List Command) : Prop :=
  sendable cmds = [] ∨
    (∀ temp ∈ (temperatures cmds).getLast?, temp ≤ absoluteMaxTempF) ∧
      (TemperaturesInRange cmds ∨ TemperaturesLast cmds)

/-- What commands do to the range and the saved temperatures: whether the range is the other one in
the end, and what is saved for the range at the beginning and for the other one. -/
structure RangeEffect where
  flipped : Bool
  active : Option UInt8
  other : Option UInt8
  deriving DecidableEq, Repr

namespace RangeEffect

/-- One more command. -/
def step (e : RangeEffect) : Command → RangeEffect
  | .toggleItem .temperatureRange => { e with flipped := !e.flipped }
  | .setTemperature temp =>
    if temp > absoluteMaxTempF then e
    else if e.flipped then { e with other := some temp }
    else { e with active := some temp }
  | _ => e

end RangeEffect

/-- What the commands do to the range and the saved temperatures. -/
def rangeEffect (cmds : List Command) : RangeEffect :=
  cmds.foldl RangeEffect.step ⟨false, none, none⟩

/-- What is queued of the toggles of the range and the temperatures. -/
def queuedRange (flipped last : Bool) : Option UInt8 → List Command
  | none => if flipped then [rangeToggle] else []
  | some temp =>
    if flipped then
      if last then [rangeToggle, .setTemperature temp] else [.setTemperature temp, rangeToggle]
    else [.setTemperature temp]

/-- The command is a toggle of the range or a temperature. -/
def isRange (cmd : Command) : Bool := cmd = rangeToggle || isSetTemperature cmd

/-! ## The range effect -/

section RangeEffect

variable {cmds : List Command} {cmd : Command}

/-- A command that neither toggles the range nor sets a temperature has no effect on it. -/
theorem RangeEffect.step_of_not_isRange (e : RangeEffect) (h : isRange cmd = false) :
    e.step cmd = e := by
  cases cmd with
  | toggleItem item =>
    cases item with
    | temperatureRange => exact absurd h (by decide)
    | _ => rfl
  | setTemperature temp => exact absurd h (by simp [isRange, isSetTemperature])
  | _ => rfl

/-- A temperature does not flip the range. -/
theorem RangeEffect.flipped_step_setTemperature (e : RangeEffect) (temp : UInt8) :
    (e.step (.setTemperature temp)).flipped = e.flipped := by
  rw [RangeEffect.step]
  split
  · rfl
  · split <;> rfl

/-- The last command takes its effect last. -/
theorem rangeEffect_concat (cmds : List Command) (cmd : Command) :
    rangeEffect (cmds ++ [cmd]) = (rangeEffect cmds).step cmd := by
  rw [rangeEffect, List.foldl_append]
  rfl

/-- Other commands have no part in the effect. -/
theorem rangeEffect_filter (cmds : List Command) :
    rangeEffect (cmds.filter isRange) = rangeEffect cmds := by
  induction cmds using List.reverseRecOn with
  | nil => rfl
  | append_singleton cmds cmd ih =>
    rw [List.filter_append, rangeEffect_concat]
    cases hcmd : isRange cmd with
    | true => rw [List.filter_cons_of_pos hcmd, List.filter_nil, rangeEffect_concat, ih]
    | false =>
      rw [List.filter_cons_of_neg (ne_true_of_eq_false hcmd), List.filter_nil, List.append_nil, ih,
        RangeEffect.step_of_not_isRange _ hcmd]

/-- A command is the toggle of the range, or it is a temperature, or neither. -/
theorem isRange_cases (cmd : Command) :
    cmd = rangeToggle ∨ (∃ temp, cmd = .setTemperature temp) ∨
      isRange cmd = false ∧ cmd ≠ rangeToggle ∧ temperatures [cmd] = [] := by
  by_cases htoggle : cmd = rangeToggle
  · exact .inl htoggle
  · cases hcmd : isSetTemperature cmd with
    | true => exact .inr (.inl (exists_eq_setTemperature hcmd))
    | false =>
      exact .inr (.inr ⟨by simp [isRange, htoggle, hcmd], htoggle, temperatures_cons hcmd []⟩)

/-- The range is flipped exactly by an odd number of toggles. -/
theorem flipped_rangeEffect (cmds : List Command) :
    (rangeEffect cmds).flipped = true ↔ Odd (cmds.count rangeToggle) := by
  induction cmds using List.reverseRecOn with
  | nil => simp [rangeEffect]
  | append_singleton cmds cmd ih =>
    rw [rangeEffect_concat, List.count_append]
    obtain rfl | ⟨temp, rfl⟩ | ⟨hother, hne, -⟩ := isRange_cases cmd
    · have hcount : [rangeToggle].count rangeToggle = 1 := rfl
      rw [hcount, Nat.odd_add_one, ← ih]
      show (!(rangeEffect cmds).flipped) = true ↔ _
      simp
    · have hcount : [Command.setTemperature temp].count rangeToggle = 0 := rfl
      rw [hcount, Nat.add_zero, ← ih, RangeEffect.flipped_step_setTemperature]
    · have hcount : [cmd].count rangeToggle = 0 := List.count_eq_zero.2 (by simpa using Ne.symm hne)
      rw [hcount, Nat.add_zero, RangeEffect.step_of_not_isRange _ hother, ih]

/-- The commands are in range if they were before the last one, and it is no temperature for the
other range. -/
theorem temperaturesInRange_concat :
    TemperaturesInRange (cmds ++ [cmd]) ↔ TemperaturesInRange cmds ∧
      ∀ temp, cmd = .setTemperature temp → temp ≤ absoluteMaxTempF →
        Even (cmds.count rangeToggle) := by
  constructor
  · intro h
    refine ⟨?_, ?_⟩
    · rintro before temp after rfl
      exact h before temp (after ++ [cmd]) (by simp)
    · rintro temp rfl
      exact h cmds temp [] rfl
  · rintro ⟨hcmds, hcmd⟩ before temp after heq
    obtain rfl | ⟨after, x, rfl⟩ := List.eq_nil_or_concat' after
    · obtain ⟨rfl, hlast⟩ := List.append_inj' heq rfl
      exact hcmd temp (List.singleton_inj.1 hlast)
    · rw [← List.cons_append, ← List.append_assoc] at heq
      obtain ⟨heq, -⟩ := List.append_inj' heq rfl
      exact hcmds before temp after heq

/-- The temperatures come last if they did before the last command, and it does not toggle the range
behind one. -/
theorem temperaturesLast_concat :
    TemperaturesLast (cmds ++ [cmd]) ↔
      TemperaturesLast cmds ∧ (cmd = rangeToggle → temperatures cmds = []) := by
  rw [TemperaturesLast, List.pairwise_append]
  refine and_congr_right fun _ => ?_
  constructor
  · rintro ⟨-, h⟩ rfl
    refine temperatures_eq_nil fun a ha => eq_false_of_ne_true fun htemp => ?_
    exact h a ha rangeToggle List.mem_cons_self htemp rfl
  · intro h
    refine ⟨List.pairwise_singleton _ _, fun a ha b hb htemp hb' => ?_⟩
    obtain ⟨temp, rfl⟩ := exists_eq_setTemperature htemp
    rw [List.mem_singleton.1 hb] at hb'
    exact absurd (mem_temperatures.2 ha) (h hb' ▸ List.not_mem_nil)

/-- Without temperatures none is followed by a toggle of the range. -/
theorem temperaturesLast_of_nil (h : temperatures cmds = []) : TemperaturesLast cmds := by
  refine List.pairwise_iff_forall_sublist.2 fun {a b} hab htemp => ?_
  obtain ⟨temp, rfl⟩ := exists_eq_setTemperature htemp
  have hmem : temp ∈ temperatures cmds := mem_temperatures.2 (hab.subset List.mem_cons_self)
  rw [h] at hmem
  exact absurd hmem List.not_mem_nil

/-- Nothing is saved for the other range exactly when all temperatures that can be sent are asked
for in the range that the spa was in. -/
theorem other_rangeEffect (cmds : List Command) :
    (rangeEffect cmds).other = none ↔ TemperaturesInRange cmds := by
  induction cmds using List.reverseRecOn with
  | nil => exact iff_of_true rfl fun before temp after heq => by simp at heq
  | append_singleton cmds cmd ih =>
    rw [rangeEffect_concat, temperaturesInRange_concat, ← ih]
    obtain rfl | ⟨temp, rfl⟩ | ⟨hother, -, htemps⟩ := isRange_cases cmd
    · exact (and_iff_left fun temp h => by cases h).symm
    · rw [RangeEffect.step]
      by_cases hlimit : temp > absoluteMaxTempF
      · rw [if_pos hlimit]
        refine (and_iff_left ?_).symm
        rintro _ ⟨⟩ hle
        exact absurd hle (UInt8.not_le.2 hlimit)
      · rw [if_neg hlimit]
        have heven : (∀ temp', Command.setTemperature temp = .setTemperature temp' →
            temp' ≤ absoluteMaxTempF → Even (cmds.count rangeToggle)) ↔
              ¬ (rangeEffect cmds).flipped = true := by
          rw [flipped_rangeEffect, Nat.not_odd_iff_even]
          refine ⟨fun h => h temp rfl (UInt8.not_lt.1 hlimit), fun h _ _ _ => h⟩
        rw [heven]
        by_cases hflipped : (rangeEffect cmds).flipped = true
        · rw [if_pos hflipped]
          simp [hflipped]
        · rw [if_neg hflipped]
          simp [hflipped]
    · rw [RangeEffect.step_of_not_isRange _ hother]
      refine (and_iff_left ?_).symm
      rintro temp rfl
      cases htemps

/-- What an effect saves of the temperatures of its commands. -/
structure RangeEffect.Saves (e : RangeEffect) (cmds : List Command) : Prop where
  /-- The last temperature is saved for one of the ranges. -/
  other : e.active = none → e.other = (sendable cmds).getLast?
  active : e.other = none → e.active = (sendable cmds).getLast?
  nothing : sendable cmds = [] → e.active = none ∧ e.other = none
  /-- Temperatures that come last are saved for the range that the spa is in then. -/
  last : TemperaturesLast cmds → if e.flipped then e.active = none else e.other = none

/-- What can be sent of two lists of commands is put behind each other. -/
theorem sendable_append (xs ys : List Command) :
    sendable (xs ++ ys) = sendable xs ++ sendable ys := by
  rw [sendable, temperatures_append, List.filter_append]
  rfl

/-- A command without a temperature that can be sent leaves what is saved. -/
theorem RangeEffect.Saves.of_sendable_nil {e e' : RangeEffect} (h : e.Saves cmds)
    (hnone : sendable [cmd] = []) (hactive : e'.active = e.active) (hother : e'.other = e.other)
    (hlast : TemperaturesLast (cmds ++ [cmd]) →
      if e'.flipped then e.active = none else e.other = none) : e'.Saves (cmds ++ [cmd]) := by
  have hsame : sendable (cmds ++ [cmd]) = sendable cmds := by
    rw [sendable_append, hnone, List.append_nil]
  constructor
  · rw [hactive, hother, hsame]
    exact h.other
  · rw [hactive, hother, hsame]
    exact h.active
  · rw [hactive, hother, hsame]
    exact h.nothing
  · rw [hactive, hother]
    exact hlast

/-- A temperature that can be sent is saved for the range that the spa is in. -/
theorem RangeEffect.Saves.of_le {e : RangeEffect} (h : e.Saves cmds) {temp : UInt8}
    (hle : temp ≤ absoluteMaxTempF) :
    (e.step (.setTemperature temp)).Saves (cmds ++ [.setTemperature temp]) := by
  have hsend : sendable [Command.setTemperature temp] = [temp] :=
    List.filter_cons_of_pos (decide_eq_true hle)
  have hgetLast : (sendable (cmds ++ [.setTemperature temp])).getLast? = some temp := by
    rw [sendable_append, hsend, List.getLast?_concat]
  have hne : sendable (cmds ++ [.setTemperature temp]) ≠ [] := by
    intro hnil
    rw [hnil] at hgetLast
    cases hgetLast
  rw [RangeEffect.step, if_neg (UInt8.not_lt.2 hle)]
  by_cases hflipped : e.flipped = true
  · rw [if_pos hflipped]
    refine ⟨fun _ => hgetLast.symm, fun hnone => absurd hnone (Option.some_ne_none temp),
      fun hnil => absurd hnil hne, fun hlast => ?_⟩
    have hactive := h.last (temperaturesLast_concat.1 hlast).1
    rw [if_pos hflipped] at hactive ⊢
    exact hactive
  · rw [if_neg hflipped]
    refine ⟨fun hnone => absurd hnone (Option.some_ne_none temp), fun _ => hgetLast.symm,
      fun hnil => absurd hnil hne, fun hlast => ?_⟩
    have hother := h.last (temperaturesLast_concat.1 hlast).1
    rw [if_neg hflipped] at hother ⊢
    exact hother

/-- The effect saves the temperatures of the commands. -/
theorem rangeEffect_saves (cmds : List Command) : (rangeEffect cmds).Saves cmds := by
  induction cmds using List.reverseRecOn with
  | nil => exact ⟨fun _ => rfl, fun _ => rfl, fun _ => ⟨rfl, rfl⟩, fun _ => rfl⟩
  | append_singleton cmds cmd ih =>
    rw [rangeEffect_concat]
    obtain rfl | ⟨temp, rfl⟩ | ⟨hother, -, htemps⟩ := isRange_cases cmd
    · refine ih.of_sendable_nil rfl rfl rfl fun hlast => ?_
      -- There are no temperatures yet.
      have hnil : sendable cmds = [] := by
        rw [sendable, (temperaturesLast_concat.1 hlast).2 rfl, List.filter_nil]
      obtain ⟨hactive, hother⟩ := ih.nothing hnil
      split
      · exact hactive
      · exact hother
    · by_cases hle : temp ≤ absoluteMaxTempF
      · exact ih.of_le hle
      · have hnone : sendable [Command.setTemperature temp] = [] :=
          List.filter_cons_of_neg (by simpa using hle)
        rw [RangeEffect.step, if_pos (UInt8.not_le.1 hle)]
        exact ih.of_sendable_nil hnone rfl rfl fun hlast =>
          ih.last (temperaturesLast_concat.1 hlast).1
    · rw [RangeEffect.step_of_not_isRange _ hother]
      refine ih.of_sendable_nil ?_ rfl rfl fun hlast => ih.last (temperaturesLast_concat.1 hlast).1
      rw [sendable, htemps, List.filter_nil]

/-! ## The queue -/

/-- A toggle of the range is queued, or cancels the one that is. -/
theorem push_rangeToggle (flipped last : Bool) (temp : Option UInt8) :
    push queuePolicy (queuedRange flipped last temp) rangeToggle =
      queuedRange (!flipped) (last && temp.isNone) temp := by
  cases flipped <;> cases last <;> cases temp <;> rfl

/-- A temperature is queued, or replaces the one that is. -/
theorem push_setTemperature {flipped last : Bool} {temp : Option UInt8}
    (h : temp = none → last = true) (temp' : UInt8) :
    push queuePolicy (queuedRange flipped last temp) (.setTemperature temp') =
      queuedRange flipped last (some temp') := by
  cases temp with
  | none =>
    rw [h rfl]
    cases flipped <;> rfl
  | some temp => cases flipped <;> cases last <;> rfl

/-- Toggles of the range and temperatures coalesce among themselves. -/
theorem respects_isRange : Respects queuePolicy isRange := by
  intro key a b ha hb
  have htemp : ∀ c, queuePolicy c = .replace key → isRange c = true := by
    intro c hc
    cases c with
    | setTemperature temp => rfl
    | _ => cases hc
  rw [htemp a ha, htemp b hb]

/-- What the queue has of the toggles of the range and the temperatures. -/
theorem filter_isRange_foldl_push (cmds : List Command) :
    (cmds.foldl (push queuePolicy) []).filter isRange =
      queuedRange (rangeEffect cmds).flipped (decide (TemperaturesLast cmds))
        (temperatures cmds).getLast? := by
  induction cmds using List.reverseRecOn with
  | nil => rfl
  | append_singleton cmds cmd ih =>
    rw [List.foldl_append, List.foldl_cons, List.foldl_nil, filter_push respects_isRange, ih,
      rangeEffect_concat, temperatures_append]
    obtain rfl | ⟨temp, rfl⟩ | ⟨hother, hne, htemps⟩ := isRange_cases cmd
    · have hlast : decide (TemperaturesLast (cmds ++ [rangeToggle])) =
          (decide (TemperaturesLast cmds) && (temperatures cmds).getLast?.isNone) := by
        rw [Bool.eq_iff_iff, decide_eq_true_eq, temperaturesLast_concat, Bool.and_eq_true,
          decide_eq_true_eq, Option.isNone_iff_eq_none, List.getLast?_eq_none_iff]
        exact and_congr_right fun _ => ⟨fun h => h rfl, fun h _ => h⟩
      have htemps : temperatures [rangeToggle] = [] := rfl
      have hrange : isRange rangeToggle = true := rfl
      rw [hrange, if_pos rfl, push_rangeToggle, hlast, htemps, List.append_nil]
      rfl
    · have hlast : decide (TemperaturesLast (cmds ++ [.setTemperature temp])) =
          decide (TemperaturesLast cmds) := by
        rw [decide_eq_decide, temperaturesLast_concat]
        exact and_iff_left fun h => by cases h
      have hnone : (temperatures cmds).getLast? = none → decide (TemperaturesLast cmds) = true :=
        fun h => decide_eq_true (temperaturesLast_of_nil (List.getLast?_eq_none_iff.1 h))
      have hrange : isRange (.setTemperature temp) = true := rfl
      rw [hrange, if_pos rfl, push_setTemperature hnone, hlast,
        RangeEffect.flipped_step_setTemperature]
      exact congrArg _ List.getLast?_concat.symm
    · have hlast : decide (TemperaturesLast (cmds ++ [cmd])) = decide (TemperaturesLast cmds) := by
        rw [decide_eq_decide, temperaturesLast_concat]
        exact and_iff_left fun h => absurd h hne
      rw [hother, if_neg Bool.false_ne_true, hlast, htemps, List.append_nil,
        RangeEffect.step_of_not_isRange _ hother]

/-- The effect of what is queued: the last temperature, if it can be sent, is saved for the range
that the spa was in, unless it comes behind the toggle. -/
theorem rangeEffect_queuedRange (flipped last : Bool) (temp : Option UInt8) :
    rangeEffect (queuedRange flipped last temp) =
      let saved := temp.filter (· ≤ absoluteMaxTempF)
      if flipped && last then ⟨flipped, none, saved⟩ else ⟨flipped, saved, none⟩ := by
  cases temp with
  | none => cases flipped <;> cases last <;> rfl
  | some temp =>
    by_cases hlimit : temp > absoluteMaxTempF
    · have hsaved : (some temp).filter (· ≤ absoluteMaxTempF) = none := by simpa using hlimit
      rw [hsaved]
      cases flipped <;> cases last <;>
        simp [queuedRange, rangeEffect, RangeEffect.step, rangeToggle, hlimit]
    · have hsaved : (some temp).filter (· ≤ absoluteMaxTempF) = some temp := by simpa using hlimit
      rw [hsaved]
      cases flipped <;> cases last <;>
        simp [queuedRange, rangeEffect, RangeEffect.step, rangeToggle, hlimit]

/-- The last temperature is saved if it can be sent. -/
theorem getLast?_sendable (h : ∀ temp ∈ (temperatures cmds).getLast?, temp ≤ absoluteMaxTempF) :
    (temperatures cmds).getLast?.filter (· ≤ absoluteMaxTempF) = (sendable cmds).getLast? := by
  unfold sendable
  generalize temperatures cmds = temps at h
  induction temps using List.reverseRecOn with
  | nil => rfl
  | append_singleton temps temp ih =>
    rw [List.getLast?_concat] at h ⊢
    have hle : temp ≤ absoluteMaxTempF := h temp rfl
    rw [List.filter_append, List.filter_cons_of_pos (by simpa using hle), List.filter_nil,
      List.getLast?_concat]
    simpa using hle

/-- If nothing can be sent there is no last temperature to send. -/
theorem filter_getLast?_eq_none (h : sendable cmds = []) :
    (temperatures cmds).getLast?.filter (· ≤ absoluteMaxTempF) = none := by
  refine Option.eq_none_iff_forall_not_mem.2 fun temp htemp => ?_
  rw [Option.mem_filter_iff] at htemp
  have hsend : temp ∈ sendable cmds := List.mem_filter.2 ⟨List.mem_of_getLast? htemp.1, htemp.2⟩
  rw [h] at hsend
  exact absurd hsend List.not_mem_nil

/-- The effect of the queue, from that of the commands. -/
theorem rangeEffect_queue (cmds : List Command) :
    rangeEffect ((insertClockMode cmds).foldl (push queuePolicy) []) =
      let saved := (temperatures cmds).getLast?.filter (· ≤ absoluteMaxTempF)
      if (rangeEffect cmds).flipped && decide (TemperaturesLast cmds) then
        ⟨(rangeEffect cmds).flipped, none, saved⟩
      else ⟨(rangeEffect cmds).flipped, saved, none⟩ := by
  rw [← rangeEffect_queuedRange, ← filter_isRange_foldl_push, ← rangeEffect_filter,
    filter_foldl_push respects_isRange, filter_foldl_push respects_isRange,
    filter_insertClockMode rfl]

/-- If the queue has the effect of the commands, then what it saves is in its place. -/
theorem rangeSafe_of_rangeEffect_queue
    (h : rangeEffect ((insertClockMode cmds).foldl (push queuePolicy) []) = rangeEffect cmds) :
    RangeSafe cmds := by
  have hsaves : (rangeEffect cmds).Saves cmds := rangeEffect_saves cmds
  rw [rangeEffect_queue] at h
  by_cases hnone : sendable cmds = []
  · exact .inl hnone
  refine .inr ⟨fun temp htemp => ?_, ?_⟩
  · -- Something is saved, so the last temperature is.
    by_contra hlimit
    have hsaved : (temperatures cmds).getLast?.filter (· ≤ absoluteMaxTempF) = none := by
      rw [show (temperatures cmds).getLast? = some temp from htemp]
      simpa using hlimit
    dsimp only at h
    rw [hsaved, ite_self] at h
    have hlast := hsaves.other (congrArg RangeEffect.active h).symm
    rw [← h] at hlast
    exact hnone (List.getLast?_eq_none_iff.1 hlast.symm)
  · dsimp only at h
    split at h
    · rename_i hbehind
      exact .inr (of_decide_eq_true (Bool.and_eq_true_iff.1 hbehind).2)
    · exact .inl ((other_rangeEffect cmds).1 (congrArg RangeEffect.other h).symm)

/-- Commands that are safe have the effect of their queue. -/
theorem rangeEffect_queue_of_rangeSafe (h : RangeSafe cmds) :
    rangeEffect ((insertClockMode cmds).foldl (push queuePolicy) []) = rangeEffect cmds := by
  have hsaves : (rangeEffect cmds).Saves cmds := rangeEffect_saves cmds
  have hinRange : TemperaturesInRange cmds → (rangeEffect cmds).other = none :=
    (other_rangeEffect cmds).2
  rw [rangeEffect_queue]
  generalize rangeEffect cmds = e at hsaves hinRange
  obtain ⟨flipped, active, other⟩ := e
  obtain hnone | ⟨hle, hrange⟩ := h
  · obtain ⟨rfl, rfl⟩ : active = none ∧ other = none := hsaves.nothing hnone
    rw [filter_getLast?_eq_none hnone]
    exact ite_self _
  · rw [getLast?_sendable hle]
    have hother : active = none → other = (sendable cmds).getLast? := hsaves.other
    have hactive : other = none → active = (sendable cmds).getLast? := hsaves.active
    by_cases hlast : TemperaturesLast cmds
    · -- They are saved for the range that the spa is in at the end.
      have hend := hsaves.last hlast
      rw [decide_eq_true hlast, Bool.and_true]
      cases flipped with
      | true =>
        obtain rfl : active = none := hend
        rw [hother rfl]
        rfl
      | false =>
        obtain rfl : other = none := hend
        rw [hactive rfl]
        rfl
    · obtain rfl : other = none := hinRange (hrange.resolve_right hlast)
      rw [decide_eq_false hlast, Bool.and_false, hactive rfl]
      rfl

end RangeEffect

/-! ## The spa -/

section Spa

variable {s s' : SpaState} {cmds xs ys : List Command}

/-- Commands that are delivered are applied one after the other. -/
theorem deliver_eq_foldl (cmds : List Command) (s : SpaState) :
    deliver cmds s = cmds.foldl SpaState.applyCommand s :=
  congrArg (fun step => cmds.foldl step s)
    (funext₂ fun s cmd => processIncomingBytes_eq_applyCommand s cmd)

/-- A range that is flipped twice is the same. -/
theorem flipTempRange_flipTempRange (range : TempRange) :
    flipTempRange (flipTempRange range) = range := by
  cases range <;> rfl

/-- In a consistent spa, the other range is set to what is saved for it. -/
theorem toggleTempRange_of_consistent (h : s.Consistent) :
    s.toggleTempRange =
      { s with
        tempRange := flipTempRange s.tempRange
        setTemp := s.saved (flipTempRange s.tempRange) } := by
  obtain ⟨setTemp, setTempHigh, setTempLow, heatingMode, tempScale, isHeating, tempRange⟩ := s
  cases tempRange with
  | high =>
    obtain rfl : setTemp = setTempHigh := h
    rfl
  | low =>
    obtain rfl : setTemp = setTempLow := h
    rfl

/-- A temperature is saved for the range that is set, and nothing else changes. -/
theorem setTargetTemp_thermostat (s : SpaState) (temp : Temperature) :
    (s.setTargetTemp temp).tempRange = s.tempRange ∧
      (s.setTargetTemp temp).tempScale = s.tempScale ∧
      (s.setTargetTemp temp).Consistent ∧ (s.setTargetTemp temp).saved s.tempRange = temp ∧
      (s.setTargetTemp temp).saved (flipTempRange s.tempRange) =
        s.saved (flipTempRange s.tempRange) := by
  unfold SpaState.setTargetTemp SpaState.Consistent
  cases h : s.tempRange <;> simp [SpaState.saved, flipTempRange]

/-- Other commands leave the range and the temperatures. -/
theorem applyCommand_thermostat {cmd : Command} (h : isRange cmd = false) (s : SpaState) :
    (s.applyCommand cmd).tempRange = s.tempRange ∧ (s.applyCommand cmd).tempScale = s.tempScale ∧
      (s.applyCommand cmd).setTemp = s.setTemp ∧ (s.applyCommand cmd).saved = s.saved := by
  cases cmd with
  | toggleItem item =>
    cases item with
    | temperatureRange => exact absurd h (by decide)
    | _ => exact ⟨rfl, rfl, rfl, rfl⟩
  | setTemperature temp => exact absurd h (by simp [isRange, isSetTemperature])
  | _ => exact ⟨rfl, rfl, rfl, rfl⟩

/-- The effect tells the range and the saved temperatures of a spa from what they were. -/
structure RangeEffect.Describes (e : RangeEffect) (s s' : SpaState) : Prop where
  tempRange : s'.tempRange = if e.flipped then flipTempRange s.tempRange else s.tempRange
  active : s'.saved s.tempRange = e.active.elim (s.saved s.tempRange) (.fromWire · s.tempScale)
  other : s'.saved (flipTempRange s.tempRange) =
    e.other.elim (s.saved (flipTempRange s.tempRange)) (.fromWire · s.tempScale)
  tempScale : s'.tempScale = s.tempScale
  consistent : s'.Consistent

/-- A command that is applied has its effect. -/
theorem RangeEffect.Describes.step {e : RangeEffect} (h : e.Describes s s') (cmd : Command) :
    (e.step cmd).Describes s (s'.applyCommand cmd) := by
  obtain rfl | ⟨temp, rfl⟩ | ⟨hother, -, -⟩ := isRange_cases cmd
  · have htoggle : s'.applyCommand rangeToggle =
        { s' with
          tempRange := flipTempRange s'.tempRange
          setTemp := s'.saved (flipTempRange s'.tempRange) } :=
      toggleTempRange_of_consistent h.consistent
    rw [htoggle]
    refine ⟨?_, h.active, h.other, h.tempScale, rfl⟩
    show flipTempRange s'.tempRange =
      if (!e.flipped) = true then flipTempRange s.tempRange else s.tempRange
    rw [h.tempRange]
    cases e.flipped with
    | true => exact flipTempRange_flipTempRange s.tempRange
    | false => rfl
  · rw [RangeEffect.step, SpaState.applyCommand]
    by_cases hlimit : temp > absoluteMaxTempF
    · rw [if_pos hlimit, if_pos hlimit]
      exact h
    · rw [if_neg hlimit, if_neg hlimit, h.tempScale]
      obtain ⟨hrange, hscale, hconsistent, hset, hkept⟩ :=
        setTargetTemp_thermostat s' (.fromWire temp s.tempScale)
      have htempRange := h.tempRange
      -- The temperature is saved for the range that the spa is in now.
      cases hflipped : e.flipped with
      | true =>
        rw [hflipped, if_pos rfl] at htempRange
        rw [htempRange] at hrange hset hkept
        rw [flipTempRange_flipTempRange] at hkept
        refine ⟨?_, hkept.trans h.active, hset, hscale.trans h.tempScale, hconsistent⟩
        rw [hrange]
        rfl
      | false =>
        rw [hflipped, if_neg Bool.false_ne_true] at htempRange
        rw [htempRange] at hrange hset hkept
        refine ⟨?_, hset, hkept.trans h.other, hscale.trans h.tempScale, hconsistent⟩
        rw [hrange]
        rfl
  · obtain ⟨htempRange, htempScale, hsetTemp, hsaved⟩ := applyCommand_thermostat hother s'
    rw [RangeEffect.step_of_not_isRange _ hother]
    refine ⟨htempRange.trans h.tempRange, ?_, ?_, htempScale.trans h.tempScale, ?_⟩
    · rw [hsaved]
      exact h.active
    · rw [hsaved]
      exact h.other
    · rw [SpaState.Consistent, hsetTemp, hsaved, htempRange]
      exact h.consistent

/-- The range effect of the commands describes what they do to a spa. -/
theorem describes_deliver (hs : s.Consistent) (cmds : List Command) :
    (rangeEffect cmds).Describes s (deliver cmds s) := by
  rw [deliver_eq_foldl]
  induction cmds using List.reverseRecOn with
  | nil => exact ⟨rfl, rfl, rfl, rfl, hs⟩
  | append_singleton cmds cmd ih =>
    rw [rangeEffect_concat, List.foldl_append]
    exact ih.step cmd

/-- What one item switches is in the end as often switched as the item is toggled. -/
theorem read_deliver {read : SpaState → Bool} {item : ToggleItem}
    (hread : ∀ s cmd, read (s.applyCommand cmd) = (read s ^^ decide (cmd = .toggleItem item)))
    (cmds : List Command) (s : SpaState) :
    read (deliver cmds s) = (read s ^^ decide (Odd (cmds.count (.toggleItem item)))) := by
  rw [deliver_eq_foldl]
  induction cmds using List.reverseRecOn with
  | nil => simp
  | append_singleton cmds cmd ih =>
    rw [List.foldl_append, List.foldl_cons, List.foldl_nil, hread, ih, List.count_append]
    by_cases hcmd : cmd = .toggleItem item
    · subst hcmd
      rw [List.count_singleton_self, decide_eq_true rfl]
      simp only [Nat.odd_add_one, decide_not]
      cases read s <;> cases decide (Odd (cmds.count (.toggleItem item))) <;> rfl
    · have hcount : [cmd].count (.toggleItem item) = 0 :=
        List.count_eq_zero.2 (by simpa using Ne.symm hcmd)
      rw [hcount, Nat.add_zero, decide_eq_false hcmd, Bool.xor_false]

/-- A command switches a reading if it toggles the item that does. -/
theorem read_applyCommand {read : SpaState → Bool} {item : ToggleItem}
    (htoggle : ∀ s item', read (s.applyToggleByCode item'.code) = (read s ^^ decide (item' = item)))
    (hset : ∀ s temp, read (SpaState.setTargetTemp s temp) = read s) (s : SpaState)
    (cmd : Command) : read (s.applyCommand cmd) = (read s ^^ decide (cmd = .toggleItem item)) := by
  cases cmd with
  | toggleItem item' =>
    rw [SpaState.applyCommand, htoggle]
    simp only [Command.toggleItem.injEq]
  | setTemperature temp =>
    rw [SpaState.applyCommand]
    split
    · simp
    · simp [hset]
  | _ => simp [SpaState.applyCommand]

/-- Negating a flag on a condition is an exclusive or. -/
theorem ite_not_eq_xor (p : Prop) [Decidable p] (b : Bool) :
    (if p then !b else b) = (b ^^ decide p) := by
  by_cases hp : p <;> simp [hp]

/-- A light changes exactly on its own toggle. -/
theorem light_applyCommand (idx : Fin 4) (s : SpaState) (cmd : Command) :
    (s.applyCommand cmd).lights.get idx =
      (s.lights.get idx ^^ decide (cmd = .toggleItem (Accessory.light idx).item)) := by
  refine @read_applyCommand (fun s => s.lights.get idx) _ (fun s item => ?_) (fun s temp => ?_) s
    cmd
  · have hitem : item.lightIndex = some idx ↔ item = (Accessory.light idx).item :=
      ⟨fun h => eq_of_lightIndex h (Accessory.lightIndex_item idx),
        fun h => h ▸ Accessory.lightIndex_item idx⟩
    simp only [toggle_light, hitem, ite_not_eq_xor]
  · obtain ⟨_, _, hset⟩ := setTargetTemp_eq s temp
    rw [hset]

/-- The blower changes exactly on its own toggle. -/
theorem blower_applyCommand (s : SpaState) (cmd : Command) :
    (s.applyCommand cmd).blower = (s.blower ^^ decide (cmd = .toggleItem .blower)) := by
  refine read_applyCommand (fun s item => ?_) (fun s temp => ?_) s cmd
  · rw [toggle_blower, ite_not_eq_xor]
  · obtain ⟨_, _, hset⟩ := setTargetTemp_eq s temp
    rw [hset]

/-- The hold mode changes exactly on its own toggle. -/
theorem hold_applyCommand (s : SpaState) (cmd : Command) :
    (s.applyCommand cmd).hold = (s.hold ^^ decide (cmd = .toggleItem .holdMode)) := by
  refine read_applyCommand (fun s item => ?_) (fun s temp => ?_) s cmd
  · rw [toggle_hold, ite_not_eq_xor]
  · obtain ⟨_, _, hset⟩ := setTargetTemp_eq s temp
    rw [hset]

/-- What no temperature and no toggle with two states changes. -/
def fixedPart (s : SpaState) : HeatingMode × TemperatureScale × Bool × Vector PumpState 6 × Bool ×
    Bool × UInt8 × UInt8 :=
  (s.heatingMode, s.tempScale, s.isHeating, s.pumps, s.circPump, s.mister, s.hour, s.minute)

/-- Toggles of two states leave the rest of the spa alone. -/
theorem fixedPart_deliver (h : TwoStateToggles cmds) (s : SpaState) :
    fixedPart (deliver cmds s) = fixedPart s := by
  rw [deliver_eq_foldl]
  induction cmds generalizing s with
  | nil => rfl
  | cons cmd cmds ih =>
    rw [List.foldl_cons, ih fun other hother => h other (List.mem_cons_of_mem _ hother)]
    cases cmd with
    | toggleItem item =>
      have hitem : isTwoState item = true := h _ List.mem_cons_self
      cases item with
      | temperatureRange =>
        obtain ⟨_, _, _, htoggle⟩ := toggleTempRange_eq s
        show fixedPart s.toggleTempRange = fixedPart s
        rw [htoggle]
        rfl
      | light1 | light2 | light3 | light4 | blower | holdMode => rfl
      | _ => cases hitem
    | setTemperature temp =>
      rw [SpaState.applyCommand]
      split
      · rfl
      · obtain ⟨_, _, hset⟩ := setTargetTemp_eq s (.fromWire temp s.tempScale)
        rw [hset]
        rfl
    | _ => rfl

/-- A spa is what its parts are. -/
theorem SpaState.eq_of_parts (hfixed : fixedPart s = fixedPart s')
    (hlights : ∀ idx, s.lights.get idx = s'.lights.get idx) (hblower : s.blower = s'.blower)
    (hhold : s.hold = s'.hold) (htempRange : s.tempRange = s'.tempRange)
    (hsaved : ∀ range, s.saved range = s'.saved range) (hs : s.Consistent) (hs' : s'.Consistent) :
    s = s' := by
  have hsetTemp : s.setTemp = s'.setTemp := by
    rw [hs, hs', hsaved, htempRange]
  have hlight : s.lights = s'.lights := Vector.ext fun i hi => hlights ⟨i, hi⟩
  have hhigh : s.setTempHigh = s'.setTempHigh := hsaved .high
  have hlow : s.setTempLow = s'.setTempLow := hsaved .low
  cases s
  cases s'
  simp_all [fixedPart]

/-- Commands with two-state toggles do the same to every spa if they toggle each item as often, up
to two times, and have the same range effect. -/
theorem deliversAs_of_rangeEffect (hxs : TwoStateToggles xs) (hys : TwoStateToggles ys)
    (hcount : ∀ item, xs.count (.toggleItem item) % 2 = ys.count (.toggleItem item) % 2)
    (heffect : rangeEffect xs = rangeEffect ys) : DeliversAs xs ys := by
  intro s hs
  have hread : ∀ (read : SpaState → Bool) (item : ToggleItem),
      (∀ s cmd, read (s.applyCommand cmd) = (read s ^^ decide (cmd = .toggleItem item))) →
      read (deliver xs s) = read (deliver ys s) := by
    intro read item h
    have hodd : Odd (xs.count (.toggleItem item)) ↔ Odd (ys.count (.toggleItem item)) := by
      rw [Nat.odd_iff, Nat.odd_iff, hcount item]
    rw [read_deliver h, read_deliver h, decide_eq_decide.2 hodd]
  have hxdesc := describes_deliver hs xs
  have hydesc := describes_deliver hs ys
  rw [heffect] at hxdesc
  refine SpaState.eq_of_parts ?_ ?_ ?_ ?_ ?_ ?_ hxdesc.consistent hydesc.consistent
  · rw [fixedPart_deliver hxs, fixedPart_deliver hys]
  · intro idx
    exact hread (fun s => s.lights.get idx) _ (light_applyCommand idx)
  · exact hread SpaState.blower .blower blower_applyCommand
  · exact hread SpaState.hold .holdMode hold_applyCommand
  · exact hxdesc.tempRange.trans hydesc.tempRange.symm
  · intro range
    by_cases hrange : range = s.tempRange
    · rw [hrange]
      exact hxdesc.active.trans hydesc.active.symm
    · obtain rfl : range = flipTempRange s.tempRange := by
        cases range <;> cases hs' : s.tempRange <;> simp_all [flipTempRange]
      exact hxdesc.other.trans hydesc.other.symm

/-- Different bytes are different temperatures in Celsius. -/
theorem fromWire_celsius_injective {a b : UInt8}
    (h : Temperature.fromWire a .celsius = .fromWire b .celsius) : a = b := by
  have hvalue : (a.toNat : ℚ) / 2 = b.toNat / 2 := congrArg Temperature.value h
  have hnat : (a.toNat : ℚ) = b.toNat := by linarith
  exact UInt8.toNat_inj.1 (Nat.cast_injective hnat)

/-- What is saved over every temperature of the wire is known from the outcome. -/
theorem eq_of_elim_fromWire {a b : Option UInt8}
    (h : ∀ raw, a.elim (Temperature.fromWire raw .celsius) (.fromWire · .celsius) =
      b.elim (Temperature.fromWire raw .celsius) (.fromWire · .celsius)) : a = b := by
  have hgetD : ∀ raw, a.getD raw = b.getD raw := by
    intro raw
    refine fromWire_celsius_injective ?_
    have hraw := h raw
    cases a <;> cases b <;> exact hraw
  cases a with
  | none =>
    cases b with
    | none => rfl
    | some temp => exact absurd ((hgetD 0).trans (hgetD 1).symm) (by decide)
  | some temp =>
    cases b with
    | none => exact absurd ((hgetD 0).symm.trans (hgetD 1)) (by decide)
    | some temp' => exact congrArg some (hgetD 0)

/-- The default spa with one temperature saved for both ranges. -/
def SpaState.savedAt (raw : UInt8) : SpaState :=
  { SpaState.default with
    setTemp := .fromWire raw .celsius
    setTempHigh := .fromWire raw .celsius
    setTempLow := .fromWire raw .celsius }

/-- The spas whose saved temperatures are of the wire tell two range effects apart. -/
theorem rangeEffect_of_deliversAs (h : DeliversAs xs ys) : rangeEffect xs = rangeEffect ys := by
  have hspa : ∀ raw, (rangeEffect xs).Describes (.savedAt raw) (deliver xs (.savedAt raw)) ∧
      (rangeEffect ys).Describes (.savedAt raw) (deliver xs (.savedAt raw)) := by
    intro raw
    have hconsistent : (SpaState.savedAt raw).Consistent := rfl
    refine ⟨describes_deliver hconsistent xs, ?_⟩
    rw [h (.savedAt raw) hconsistent]
    exact describes_deliver hconsistent ys
  have hactive : (rangeEffect xs).active = (rangeEffect ys).active :=
    eq_of_elim_fromWire fun raw => (hspa raw).1.active.symm.trans (hspa raw).2.active
  have hother : (rangeEffect xs).other = (rangeEffect ys).other :=
    eq_of_elim_fromWire fun raw => (hspa raw).1.other.symm.trans (hspa raw).2.other
  have hflipped : (rangeEffect xs).flipped = (rangeEffect ys).flipped := by
    have hrange := (hspa 0).1.tempRange.symm.trans (hspa 0).2.tempRange
    cases hx : (rangeEffect xs).flipped <;> cases hy : (rangeEffect ys).flipped <;>
      rw [hx, hy] at hrange <;> first | rfl | cases hrange
  calc rangeEffect xs
      = ⟨(rangeEffect xs).flipped, (rangeEffect xs).active, (rangeEffect xs).other⟩ := rfl
    _ = ⟨(rangeEffect ys).flipped, (rangeEffect ys).active, (rangeEffect ys).other⟩ := by
        rw [hflipped, hactive, hother]
    _ = rangeEffect ys := rfl

end Spa

/-! ## The queue of the app -/

/-- Below its limit, the queue is faithful to the commands that gathered in it exactly when they
toggle an item with other than two states, or are safe for the temperature ranges. -/
theorem queue_faithful_iff {self : SpaApp} {cs : List (Timestamp × AppCall)}
    (hempty : self.commandQueue = []) (h : Along step Gathers self cs) :
    Faithful (requested cs) (cs.foldl step self).commandQueue ↔
      (TwoStateToggles (requested cs) → RangeSafe (requested cs)) := by
  have hcoalesced : Coalesced (requested cs) (cs.foldl step self).commandQueue :=
    coalesced_of_gathers hempty h
  have heffect : rangeEffect (cs.foldl step self).commandQueue = rangeEffect (requested cs) ↔
      RangeSafe (requested cs) := by
    rw [commandQueue_foldl_step hempty h]
    exact ⟨rangeSafe_of_rangeEffect_queue, rangeEffect_queue_of_rangeSafe⟩
  rw [← heffect]
  constructor
  · intro hfaithful htwo
    exact rangeEffect_of_deliversAs (hfaithful.delivered htwo)
  · intro hsafe
    refine ⟨hcoalesced, fun htwo => ?_⟩
    -- A toggle that is queued was asked for.
    have htwo' : TwoStateToggles (cs.foldl step self).commandQueue := by
      intro cmd hcmd
      cases cmd with
      | toggleItem item =>
        refine htwo (.toggleItem item) (List.count_pos_iff.1 ?_)
        have hpos := List.count_pos_iff.2 hcmd
        rw [hcoalesced.toggles item] at hpos
        omega
      | _ => rfl
    refine deliversAs_of_rangeEffect htwo' htwo (fun item => ?_) (hsafe htwo)
    rw [hcoalesced.toggles item, Nat.mod_mod]

/-- The commands of the user one after the other. -/
def ask (cmds : List Command) : List (Timestamp × AppCall) :=
  cmds.map fun cmd => (0, .onMqttCommand cmd)

/-- A toggle of the range before all temperatures is delivered as it was asked for. -/
theorem queue_faithful_rangeFirst :
    let cs := ask [rangeToggle, .toggleItem .light1, .setTemperature 80, .setTime 12 30 true,
      .toggleItem .light1, .setTemperature 60]
    Faithful (requested cs) (cs.foldl step (withClientHash 0 (0, 0))).commandQueue :=
  (queue_faithful_iff rfl (by decide +kernel)).2 fun _ =>
    .inr ⟨by decide +kernel, .inr (by decide +kernel)⟩

/-- The temperature for the low range is set in the high range, when the range is toggled before and
after it; and a temperature for each range is set in one. -/
theorem not_queue_faithful :
    let start := withClientHash 0 (0, 0)
    let low := ask [rangeToggle, .setTemperature 60, rangeToggle]
    let both := ask [.setTemperature 80, rangeToggle, .setTemperature 60]
    (Along step Gathers start low ∧
        ¬ Faithful (requested low) (low.foldl step start).commandQueue) ∧
      Along step Gathers start both ∧
        ¬ Faithful (requested both) (both.foldl step start).commandQueue := by
  refine ⟨⟨by decide +kernel, fun h => ?_⟩, by decide +kernel, fun h => ?_⟩
  · have hdelivered := h.delivered (by decide) SpaState.default rfl
    exact absurd (congrArg SpaState.setTempLow hdelivered) (by decide +kernel)
  · have hdelivered := h.delivered (by decide) SpaState.default rfl
    exact absurd (congrArg SpaState.setTempLow hdelivered) (by decide +kernel)

end Launa.Sim
