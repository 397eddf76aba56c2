import Mathlib.Data.List.Basic
import Mathlib.Logic.Function.Basic

/-!
# A bounded log of changes

Values are reported by key, and a report is written down only when it differs from the last one that
the log has for its key. All keys share a list of bounded length, of which a new entry pushes the
oldest out. A key of which the log has no entry is read as a default. So a key is read as it was
reported last unless its last entry, with another value than the default, was pushed out
(`Lost`); and that is what an entry for another key does to the only entry of a key (`Loses`). After
a message of several reports no key is lost exactly when each key that is pushed out on the way is
reported again in the same message (`lost_foldl_iff`).
-/

namespace Launa.ChangeLog

variable {ε κ β : Type*}

/-- Append to a list of a bounded length: the oldest entry goes when there is no room. -/
def pushCapped (max : ℕ) (xs : List ε) (x : ε) : List ε :=
  (if max ≤ xs.length then xs.tail else xs) ++ [x]

/-- The last one is what was appended. -/
theorem getLast?_pushCapped (max : ℕ) (xs : List ε) (x : ε) :
    (pushCapped max xs x).getLast? = some x := List.getLast?_concat

variable [DecidableEq κ] [DecidableEq β] (key : ε → κ) (value : ε → β)

/-- The value of the last entry for a key. -/
def latest (xs : List ε) (k : κ) : Option β := (xs.reverse.find? fun x => key x = k).map value

section Record

variable (max : ℕ) (entry : κ × β → ε)

/-- Write a report down if it differs from the last entry for its key. -/
def record (xs : List ε) (report : κ × β) : List ε :=
  if latest key value xs report.1 = some report.2 then xs else pushCapped max xs (entry report)

end Record

/-- What has been reported last, after one more report. -/
def note (reported : κ → Option β) (report : κ × β) : κ → Option β :=
  Function.update reported report.1 (some report.2)

/-- Writing the report down pushes out the only entry of the key, which has another value than the
default. -/
def Loses (max : ℕ) (default : β) (xs : List ε) (report : κ × β) (k : κ) : Prop :=
  latest key value xs report.1 ≠ some report.2 ∧ max ≤ xs.length ∧ k ≠ report.1 ∧
    ∃ x rest, xs = x :: rest ∧ key x = k ∧ value x ≠ default ∧ latest key value rest k = none

/-- The key is not read as it was reported last, since the log has no entry for it. -/
def Lost (default : β) (xs : List ε) (reported : κ → Option β) (k : κ) : Prop :=
  latest key value xs k = none ∧ ∃ v, reported k = some v ∧ v ≠ default

/-- Each key that is pushed out in the course of the reports is reported again after that. -/
def Keeps (max : ℕ) (default : β) (entry : κ × β → ε) : List ε → List (κ × β) → Prop
  | _, [] => True
  | xs, report :: reports =>
    (∀ k, Loses key value max default xs report k → k ∈ reports.map Prod.fst) ∧
      Keeps max default entry (record key value max entry xs report) reports

/-- Of each key the log has no entry, or the last report. -/
def Faithful (xs : List ε) (reported : κ → Option β) : Prop :=
  ∀ k, latest key value xs k = none ∨ latest key value xs k = reported k

/-- The entry of a report has its key and its value. -/
structure Writes (entry : κ × β → ε) : Prop where
  key_eq : ∀ report, key (entry report) = report.1
  value_eq : ∀ report, value (entry report) = report.2

/-! ## The last entry for a key -/

variable {key value} {max : ℕ} {default : β} {entry : κ × β → ε} {xs : List ε} {k : κ}
  {reported : κ → Option β} {report : κ × β}

omit [DecidableEq β] in
/-- The latest value of a key is that of the last entry, if it has the key. -/
theorem latest_concat (xs : List ε) (x : ε) (k : κ) :
    latest key value (xs ++ [x]) k =
      if key x = k then some (value x) else latest key value xs k := by
  rw [latest, List.reverse_concat, List.find?_cons]
  by_cases h : key x = k
  · rw [if_pos h, decide_eq_true h]
    rfl
  · rw [if_neg h, decide_eq_false h]
    rfl

omit [DecidableEq β] in
/-- The first entry is the latest of its key only if no later one has the key. -/
theorem latest_cons (x : ε) (xs : List ε) (k : κ) :
    latest key value (x :: xs) k =
      (latest key value xs k).or (if key x = k then some (value x) else none) := by
  rw [latest, latest, List.reverse_cons, List.find?_append]
  cases xs.reverse.find? fun x => key x = k with
  | some y => rfl
  | none =>
    by_cases h : key x = k
    · simp [h]
    · simp [h]

omit [DecidableEq β] in
/-- Without its first entry the list has the same last entry for a key, or none. -/
theorem latest_tail (xs : List ε) (k : κ) :
    latest key value xs.tail k = none ∨ latest key value xs.tail k = latest key value xs k := by
  cases xs with
  | nil => exact .inl rfl
  | cons x rest =>
    rw [List.tail_cons, latest_cons]
    cases latest key value rest k with
    | none => exact .inl rfl
    | some v => exact .inr rfl

omit [DecidableEq β] in
/-- When the first entry goes, a key is lost that was before, or of which it is the only entry. -/
theorem lost_tail_iff (h : Faithful key value xs reported) :
    Lost key value default xs.tail reported k ↔ Lost key value default xs reported k ∨
      ∃ x rest, xs = x :: rest ∧ key x = k ∧ value x ≠ default ∧
        latest key value rest k = none := by
  cases xs with
  | nil =>
    refine ⟨.inl, fun hlost => hlost.resolve_right ?_⟩
    rintro ⟨x, rest, hnil, -⟩
    cases hnil
  | cons x rest =>
    have hcons := @latest_cons _ _ _ _ key value x rest k
    -- An entry of the key has what was reported.
    have hreported : latest key value rest k = none → key x = k → reported k = some (value x) := by
      intro hrest hx
      rw [hrest, Option.none_or, if_pos hx] at hcons
      rcases h k with hnone | hsame
      · exact absurd (hcons.symm.trans hnone) (Option.some_ne_none _)
      · exact hsame.symm.trans hcons
    rw [List.tail_cons]
    constructor
    · rintro ⟨hrest, v, hv, hne⟩
      by_cases hx : key x = k
      · obtain rfl := Option.some.inj ((hreported hrest hx).symm.trans hv)
        exact .inr ⟨x, rest, rfl, hx, hne, hrest⟩
      · rw [hrest, Option.none_or, if_neg hx] at hcons
        exact .inl ⟨hcons, v, hv, hne⟩
    · rintro (⟨hnone, hv⟩ | ⟨y, rest', heq, hx, hne, hrest⟩)
      · rw [hcons, Option.or_eq_none_iff] at hnone
        exact ⟨hnone.1, hv⟩
      · obtain ⟨rfl, rfl⟩ := List.cons.inj heq
        exact ⟨hrest, value x, hreported hrest hx, hne⟩

/-! ## One report -/

section Step

variable (hentry : Writes key value entry)

include hentry

/-- The key of the report is read as reported. -/
theorem latest_record_self :
    latest key value (record key value max entry xs report) report.1 = some report.2 := by
  unfold record
  split
  · assumption
  · rw [pushCapped, latest_concat, if_pos (hentry.key_eq report), hentry.value_eq]

/-- Another key is read as before or has no entry. -/
theorem latest_record_of_ne (h : k ≠ report.1) :
    latest key value (record key value max entry xs report) k = none ∨
      latest key value (record key value max entry xs report) k = latest key value xs k := by
  unfold record
  split
  · exact .inr rfl
  · rw [pushCapped, latest_concat, if_neg (by rw [hentry.key_eq]; exact h.symm)]
    split
    · exact latest_tail xs k
    · exact .inr rfl

/-- A report keeps the log faithful. -/
theorem Faithful.record (h : Faithful key value xs reported) :
    Faithful key value (record key value max entry xs report) (note reported report) := by
  intro k
  by_cases hk : k = report.1
  · subst hk
    refine .inr ?_
    rw [latest_record_self hentry, note, Function.update_self]
  · rw [note, Function.update_of_ne hk]
    rcases latest_record_of_ne hentry hk with hnone | hsame
    · exact .inl hnone
    · rw [hsame]
      exact h k

/-- A key is lost after a report when it was before, or is pushed out, and is not reported. -/
theorem lost_record_iff (h : Faithful key value xs reported) :
    Lost key value default (record key value max entry xs report) (note reported report) k ↔
      k ≠ report.1 ∧
        (Lost key value default xs reported k ∨ Loses key value max default xs report k) := by
  by_cases hk : k = report.1
  · subst hk
    refine iff_of_false (fun hlost => ?_) fun hne => hne.1 rfl
    exact absurd (hlost.1.symm.trans (latest_record_self hentry)) (Option.some_ne_none _).symm
  · rw [and_iff_right hk, Lost, note, Function.update_of_ne hk, ChangeLog.record]
    split
    · rename_i hsame
      exact ⟨.inl, fun hlost => hlost.resolve_right fun hloses => hloses.1 hsame⟩
    · rename_i hpush
      rw [pushCapped, latest_concat, if_neg (by rw [hentry.key_eq]; exact Ne.symm hk)]
      split
      · rename_i hfull
        exact (lost_tail_iff h).trans (or_congr_right ⟨fun hfirst => ⟨hpush, hfull, hk, hfirst⟩,
          fun hloses => hloses.2.2.2⟩)
      · rename_i hroom
        exact ⟨.inl, fun hlost => hlost.resolve_right fun hloses => hroom hloses.2.1⟩

/-! ## A message -/

/-- Any number of reports keeps the log faithful. -/
theorem Faithful.foldl (h : Faithful key value xs reported) (reports : List (κ × β)) :
    Faithful key value (reports.foldl (ChangeLog.record key value max entry) xs)
      (reports.foldl note reported) := by
  induction reports generalizing xs reported with
  | nil => exact h
  | cons report reports ih => exact ih (h.record hentry)

/-- After a message no key is lost exactly when those that were before are reported, and those that
are pushed out on the way are reported after that. -/
theorem lost_foldl_iff (h : Faithful key value xs reported) (reports : List (κ × β)) :
    (∀ k, ¬ Lost key value default (reports.foldl (ChangeLog.record key value max entry) xs)
      (reports.foldl note reported) k) ↔
      (∀ k, Lost key value default xs reported k → k ∈ reports.map Prod.fst) ∧
        Keeps key value max default entry xs reports := by
  induction reports generalizing xs reported with
  | nil =>
    simp only [List.foldl_nil, List.map_nil, List.not_mem_nil, Keeps, and_true]
  | cons report reports ih =>
    rw [List.foldl_cons, List.foldl_cons, ih (h.record hentry), Keeps, List.map_cons,
      ← and_assoc]
    refine and_congr_left' ?_
    simp only [lost_record_iff hentry h, List.mem_cons]
    constructor
    · intro hafter
      refine ⟨fun k hlost => ?_, fun k hloses => hafter k ⟨hloses.2.2.1, .inr hloses⟩⟩
      by_cases hk : k = report.1
      · exact .inl hk
      · exact .inr (hafter k ⟨hk, .inl hlost⟩)
    · rintro ⟨hbefore, hloses⟩ k ⟨hk, hlost | hlost⟩
      · exact (hbefore k hlost).resolve_left hk
      · exact hloses k hlost

end Step

omit [DecidableEq β] in
/-- The reported keys are read as they were reported last exactly when none is lost. -/
theorem forall_getD_latest_iff (h : Faithful key value xs reported) (default : β) :
    (∀ k v, reported k = some v → (latest key value xs k).getD default = v) ↔
      ∀ k, ¬ Lost key value default xs reported k := by
  constructor
  · rintro hread k ⟨hnone, v, hv, hne⟩
    have hdefault := hread k v hv
    rw [hnone, Option.getD_none] at hdefault
    exact hne hdefault.symm
  · intro hnot k v hv
    rcases h k with hnone | hsame
    · rw [hnone, Option.getD_none]
      by_contra hne
      exact hnot k ⟨hnone, v, hv, Ne.symm hne⟩
    · rw [hsame, hv, Option.getD_some]

end Launa.ChangeLog
