import Launa.Lib.ChangeLog
import Launa.Lib.RingBuffer
import Mathlib.Data.List.AList
import Mathlib.Data.List.Destutter

/-!
# Journals by key

Each key has a journal of bounded length, to which entries are added one after the other. When it
is full, the oldest entry goes, and it can be cleared. A reader is given the newest entries first.
Of every key he is given those that were added since the journal of that key was cleared last,
whatever happened to the others (`newest_run`). A journal of changes takes an entry only if it
differs from the last one, and holds the most recent changes (`foldl_addChange`).
-/

namespace Launa.Journal

open ChangeLog RingBuffer

variable {κ α : Type} [DecidableEq κ]

/-! ## A journal -/

/-- Of nothing, nothing is recent. -/
theorem recent_nil (capacity : ℕ) : recent capacity ([] : List α) = [] := List.drop_nil

/-- An entry is added to the most recent ones. -/
theorem pushCapped_recent {capacity : ℕ} (hpos : 0 < capacity) (xs : List α) (x : α) :
    pushCapped capacity (recent capacity xs) x = recent capacity (xs ++ [x]) := by
  rw [pushCapped, length_recent]
  by_cases hfull : capacity ≤ xs.length
  · rw [if_pos (by omega), recent_concat hfull x hpos]
  · have hroom : (xs ++ [x]).length ≤ capacity := by
      rw [List.length_append, List.length_singleton]
      omega
    rw [if_neg (by omega), recent_of_le (by omega), recent_of_le hroom]

/-- The most recent of the most recent entries. -/
theorem recent_recent (limit capacity : ℕ) (xs : List α) :
    recent limit (recent capacity xs) = recent (min limit capacity) xs := by
  rw [recent, recent, recent, List.length_drop, List.drop_drop]
  congr 1
  omega

/-! ## The journals of all keys -/

/-- The journals. -/
abbrev Journals (κ α : Type) := AList fun _ : κ => List α

/-- What happens to the journals. -/
inductive Op (κ α : Type) where
  | add (key : κ) (entry : α)
  | clear (key : κ)
  deriving DecidableEq

/-- The journal of a key. -/
def entries (journals : Journals κ α) (key : κ) : List α := (journals.lookup key).getD []

/-- Add an entry to the journal of a key. -/
def add (capacity : ℕ) (journals : Journals κ α) (key : κ) (entry : α) : Journals κ α :=
  journals.insert key (pushCapped capacity (entries journals key) entry)

/-- Clear the journal of a key, if there is one. -/
def clear (journals : Journals κ α) (key : κ) : Journals κ α :=
  if key ∈ journals then journals.insert key [] else journals

/-- The newest entries of a key, the last one first. -/
def newest (journals : Journals κ α) (key : κ) (limit : ℕ) : List α :=
  ((journals.lookup key).map fun xs => (recent limit xs).reverse).getD []

/-- The journals after an operation. -/
def apply (capacity : ℕ) (journals : Journals κ α) : Op κ α → Journals κ α
  | .add key entry => add capacity journals key entry
  | .clear key => clear journals key

/-- The operation clears the journal of the key. -/
def Op.clears (key : κ) : Op κ α → Bool
  | .add _ _ => false
  | .clear k => k = key

/-- What the operation adds to the journal of the key. -/
def Op.added (key : κ) : Op κ α → Option α
  | .add k entry => if k = key then some entry else none
  | .clear _ => none

/-- What was added to the journal of a key since it was cleared last. -/
def addedSince (ops : List (Op κ α)) (key : κ) : List α :=
  (ops.reverse.takeWhile fun op => !op.clears key).reverse.filterMap (Op.added key)

/-- The newest entries are the recent ones of the key, the last one first. -/
theorem newest_eq (journals : Journals κ α) (key : κ) (limit : ℕ) :
    newest journals key limit = (recent limit (entries journals key)).reverse := by
  unfold newest entries
  cases journals.lookup key with
  | none => exact congrArg List.reverse (recent_nil limit).symm
  | some xs => rfl

/-- An entry goes into the journal of its own key only. -/
theorem entries_add (capacity : ℕ) (journals : Journals κ α) (k : κ) (entry : α) (key : κ) :
    entries (add capacity journals k entry) key =
      if k = key then pushCapped capacity (entries journals key) entry
      else entries journals key := by
  rw [entries, add]
  by_cases h : k = key
  · rw [if_pos h, h, AList.lookup_insert, Option.getD_some]
  · rw [if_neg h, AList.lookup_insert_ne (Ne.symm h)]
    rfl

/-- Only the journal of the key is cleared. -/
theorem entries_clear (journals : Journals κ α) (k key : κ) :
    entries (clear journals k) key = if k = key then [] else entries journals key := by
  rw [entries, clear]
  by_cases h : k = key
  · subst h
    rw [if_pos rfl]
    split
    · rw [AList.lookup_insert, Option.getD_some]
    next hmem =>
      rw [AList.lookup_eq_none.2 hmem, Option.getD_none]
  · rw [if_neg h]
    split
    · rw [AList.lookup_insert_ne (Ne.symm h)]
      rfl
    · rfl

/-- The last operation clears what was added, or is added itself. -/
theorem addedSince_concat (ops : List (Op κ α)) (op : Op κ α) (key : κ) :
    addedSince (ops ++ [op]) key =
      if op.clears key then [] else addedSince ops key ++ (op.added key).toList := by
  unfold addedSince
  rw [List.reverse_concat, List.takeWhile_cons]
  cases op.clears key with
  | true => rfl
  | false =>
    have hadded : [op].filterMap (Op.added key) = (op.added key).toList := by
      cases h : op.added key with
      | none => rw [List.filterMap_cons_none h]; rfl
      | some entry => rw [List.filterMap_cons_some h]; rfl
    rw [Bool.not_false, if_pos rfl, List.reverse_cons, List.filterMap_append,
      if_neg Bool.false_ne_true, hadded]

/-- The journals hold, of every key, the most recent entries since it was cleared last. -/
theorem entries_run {capacity : ℕ} (hpos : 0 < capacity) (ops : List (Op κ α)) (key : κ) :
    entries (ops.foldl (apply capacity) ∅) key = recent capacity (addedSince ops key) := by
  induction ops using List.reverseRecOn with
  | nil => exact (recent_nil capacity).symm
  | append_singleton ops op ih =>
    rw [List.foldl_concat, addedSince_concat]
    cases op with
    | add k entry =>
      rw [apply, entries_add, ih, Op.clears, if_neg Bool.false_ne_true, Op.added]
      by_cases h : k = key
      · rw [if_pos h, if_pos h, pushCapped_recent hpos]
        rfl
      · rw [if_neg h, if_neg h]
        exact congrArg _ (List.append_nil _).symm
    | clear k =>
      rw [apply, entries_clear, ih, Op.clears, Op.added]
      by_cases h : k = key
      · rw [if_pos h, if_pos (decide_eq_true h), recent_nil]
      · rw [if_neg h, if_neg (by simpa using h)]
        exact congrArg _ (List.append_nil _).symm

/-- A reader is given the newest entries of the key since it was cleared last. -/
theorem newest_run {capacity : ℕ} (hpos : 0 < capacity) (ops : List (Op κ α)) (key : κ)
    (limit : ℕ) :
    newest (ops.foldl (apply capacity) ∅) key limit =
      (recent (min limit capacity) (addedSince ops key)).reverse := by
  rw [newest_eq, entries_run hpos, recent_recent]

/-! ## A journal of changes -/

section Changes

variable (differs : α → α → Prop) [DecidableRel differs]

/-- Add an entry if it differs from the last one. -/
def addChange (capacity : ℕ) (xs : List α) (x : α) : List α :=
  if ∀ last ∈ xs.getLast?, differs last x then pushCapped capacity xs x else xs

variable {differs}

/-- The last of some changes decides on the next entry. -/
theorem destutter'_concat (a : α) (xs : List α) (x : α) :
    (xs ++ [x]).destutter' differs a =
      if ∀ last ∈ (xs.destutter' differs a).getLast?, differs last x then
        xs.destutter' differs a ++ [x]
      else xs.destutter' differs a := by
  induction xs generalizing a with
  | nil => simp [List.destutter'_singleton]
  | cons b xs ih =>
    rw [List.cons_append, List.destutter'_cons, List.destutter'_cons]
    by_cases h : differs a b
    · obtain ⟨c, cs, hcs⟩ := List.exists_cons_of_ne_nil
        (List.destutter'_ne_nil (l := xs) (a := b) differs)
      rw [if_pos h, if_pos h, ih, hcs, List.getLast?_cons_cons]
      split <;> rfl
    · rw [if_neg h, if_neg h, ih]

/-- The last change decides on the next entry. -/
theorem destutter_concat (xs : List α) (x : α) :
    (xs ++ [x]).destutter differs =
      if ∀ last ∈ (xs.destutter differs).getLast?, differs last x then
        xs.destutter differs ++ [x]
      else xs.destutter differs := by
  cases xs with
  | nil => rfl
  | cons a xs => exact destutter'_concat a xs x

/-- The last of the most recent entries is the last one. -/
theorem getLast?_recent {capacity : ℕ} (hpos : 0 < capacity) (xs : List α) :
    (recent capacity xs).getLast? = xs.getLast? := by
  cases xs using List.reverseRecOn with
  | nil => rw [recent_nil]
  | append_singleton xs x =>
    rw [← pushCapped_recent hpos, pushCapped, List.getLast?_concat, List.getLast?_concat]

/-- A journal of changes holds the most recent changes. -/
theorem foldl_addChange {capacity : ℕ} (hpos : 0 < capacity) (xs : List α) :
    xs.foldl (addChange differs capacity) [] = recent capacity (xs.destutter differs) := by
  induction xs using List.reverseRecOn with
  | nil => exact (recent_nil capacity).symm
  | append_singleton xs x ih =>
    rw [List.foldl_concat, ih, addChange, getLast?_recent hpos, destutter_concat,
      pushCapped_recent hpos]
    split <;> rfl

end Changes

end Launa.Journal
