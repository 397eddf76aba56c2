import Mathlib.Data.List.Induction

/-!
# A queue that merges its entries

An entry that is pushed cancels out an equal one, or takes the place of the one with its key, or
comes last, as its policy says. Only entries of one class merge, that is equal ones, or those with
one key: a predicate that does not tell the entries of a key apart selects from the queue what is
queued when nothing else is pushed (`filter_foldl_push`). So an entry that cancels is queued once or
not at all (`count_foldl_push`), a key has the entry pushed last (`filter_replace_foldl_push`), and
those that come last stay in their order (`filter_keep_foldl_push`).
-/

namespace Launa.CoalescingQueue

/-- What an entry does to the queue that it is pushed on. -/
inductive Policy (κ : Type*) where
  /-- It cancels out an equal entry. -/
  | cancel
  /-- It takes the place of the entry with the same key. -/
  | replace (key : κ)
  /-- It comes last. -/
  | keep
  deriving DecidableEq

variable {α κ : Type*} {policy : α → Policy κ} {entry other : α} {key : κ} {p : α → Bool}

/-- The predicate does not tell the entries of a key apart. -/
def Respects (policy : α → Policy κ) (p : α → Bool) : Prop :=
  ∀ key entry other, policy entry = .replace key → policy other = .replace key → p entry = p other

/-- The entries of a key have one policy. -/
theorem respects_policy (q : Policy κ → Prop) [DecidablePred q] :
    Respects policy fun entry => decide (q (policy entry)) := by
  intro key entry other hentry hother
  dsimp only
  rw [hentry, hother]

/-! ## One entry -/

section Replace

variable [DecidableEq κ]

/-- The queue with the entry in the place of the one with its key, or at the end. -/
def replaceOrAppend (policy : α → Policy κ) (key : κ) (entry : α) : List α → List α
  | [] => [entry]
  | other :: queue =>
    if policy other = .replace key then entry :: queue
    else other :: replaceOrAppend policy key entry queue

/-- The entry is set where its key is first found. -/
theorem replaceOrAppend_eq (key : κ) (entry : α) (queue : List α) :
    replaceOrAppend policy key entry queue =
      match queue.findIdx? (policy · = .replace key) with
      | some i => queue.set i entry
      | none => queue ++ [entry] := by
  induction queue with
  | nil => rfl
  | cons other queue ih =>
    rw [replaceOrAppend, List.findIdx?_cons]
    by_cases hkey : policy other = .replace key
    · simp [hkey]
    · rw [if_neg hkey, ih]
      cases hfound : queue.findIdx? (policy · = .replace key) <;> simp [hkey]

/-- Replacing or appending commutes with a filter that keeps the replaced entries together. -/
theorem filter_replaceOrAppend (hp : ∀ other, policy other = .replace key → p entry = p other)
    (queue : List α) :
    (replaceOrAppend policy key entry queue).filter p =
      if p entry then replaceOrAppend policy key entry (queue.filter p) else queue.filter p := by
  induction queue with
  | nil =>
    rw [replaceOrAppend, List.filter_cons]
    rfl
  | cons other queue ih =>
    rw [replaceOrAppend]
    by_cases hkey : policy other = .replace key
    · rw [if_pos hkey, List.filter_cons, List.filter_cons, ← hp other hkey]
      split
      · rw [replaceOrAppend, if_pos hkey]
      · rfl
    · rw [if_neg hkey]
      by_cases hother : p other = true
      · rw [List.filter_cons_of_pos hother, List.filter_cons_of_pos hother, ih, replaceOrAppend,
          if_neg hkey]
        split <;> rfl
      · rw [List.filter_cons_of_neg hother, List.filter_cons_of_neg hother, ih]

end Replace

variable [DecidableEq α]

/-- The queue without the entry, or with it at the end. -/
def cancelOrAppend (entry : α) : List α → List α
  | [] => [entry]
  | other :: queue => if other = entry then queue else other :: cancelOrAppend entry queue

/-- The entry is erased where it is first found. -/
theorem cancelOrAppend_eq (entry : α) (queue : List α) :
    cancelOrAppend entry queue =
      if entry ∈ queue then queue.erase entry else queue ++ [entry] := by
  induction queue with
  | nil => simp [cancelOrAppend]
  | cons other queue ih =>
    rw [cancelOrAppend]
    by_cases heq : other = entry
    · subst heq
      simp
    · rw [if_neg heq, ih, List.erase_cons_tail (by simpa using heq)]
      simp only [List.mem_cons, Ne.symm heq, false_or]
      split <;> rfl

/-- Cancelling or appending commutes with every filter. -/
theorem filter_cancelOrAppend (p : α → Bool) (entry : α) (queue : List α) :
    (cancelOrAppend entry queue).filter p =
      if p entry then cancelOrAppend entry (queue.filter p) else queue.filter p := by
  induction queue with
  | nil =>
    rw [cancelOrAppend, List.filter_cons]
    rfl
  | cons other queue ih =>
    rw [cancelOrAppend]
    by_cases heq : other = entry
    · subst heq
      rw [if_pos rfl]
      split
      · rename_i hp
        rw [List.filter_cons_of_pos hp, cancelOrAppend, if_pos rfl]
      · rename_i hp
        rw [List.filter_cons_of_neg hp]
    · rw [if_neg heq]
      by_cases hother : p other = true
      · rw [List.filter_cons_of_pos hother, List.filter_cons_of_pos hother, ih, cancelOrAppend,
          if_neg heq]
        split <;> rfl
      · rw [List.filter_cons_of_neg hother, List.filter_cons_of_neg hother, ih]

variable [DecidableEq κ]

/-- The queue after an entry is pushed. -/
def push (policy : α → Policy κ) (queue : List α) (entry : α) : List α :=
  match policy entry with
  | .cancel => cancelOrAppend entry queue
  | .replace key => replaceOrAppend policy key entry queue
  | .keep => queue ++ [entry]

/-- A class that the entry is not of is left alone, and its own class is that of a queue with
nothing else. -/
theorem filter_push (hp : Respects policy p) (queue : List α) (entry : α) :
    (push policy queue entry).filter p =
      if p entry then push policy (queue.filter p) entry else queue.filter p := by
  unfold push
  cases hpolicy : policy entry with
  | cancel => exact filter_cancelOrAppend p entry queue
  | replace key => exact filter_replaceOrAppend (fun other => hp key entry other hpolicy) queue
  | keep =>
    rw [List.filter_append, List.filter_cons, List.filter_nil]
    split
    · rfl
    · exact List.append_nil _

/-! ## All entries -/

/-- What is selected from the queue is what is queued when nothing else is pushed. -/
theorem filter_foldl_push (hp : Respects policy p) (entries queue : List α) :
    (entries.foldl (push policy) queue).filter p =
      (entries.filter p).foldl (push policy) (queue.filter p) := by
  induction entries generalizing queue with
  | nil => rfl
  | cons entry entries ih =>
    rw [List.foldl_cons, ih, filter_push hp]
    by_cases hentry : p entry = true
    · rw [if_pos hentry, List.filter_cons_of_pos hentry, List.foldl_cons]
    · rw [if_neg hentry, List.filter_cons_of_neg hentry]

/-- An entry that cancels is queued when it was pushed an odd number of times, and then once. -/
theorem count_foldl_push (h : policy entry = .cancel) (entries : List α) :
    (entries.foldl (push policy) []).count entry = entries.count entry % 2 := by
  have hp : Respects policy (· = entry) := by
    intro key a b ha hb
    have hne : ∀ c, policy c = .replace key → c ≠ entry := by
      rintro c hc rfl
      cases h.symm.trans hc
    simp [hne a ha, hne b hb]
  -- Pushed by itself, it comes and goes.
  have halone : ∀ n, (List.replicate n entry).foldl (push policy) [] =
      List.replicate (n % 2) entry := by
    intro n
    induction n with
    | zero => rfl
    | succ n ih =>
      rw [List.replicate_succ', List.foldl_append, ih, List.foldl_cons, List.foldl_nil, push, h]
      obtain hmod | hmod := Nat.mod_two_eq_zero_or_one n
      · rw [hmod, show (n + 1) % 2 = 1 by omega]
        rfl
      · rw [hmod, show (n + 1) % 2 = 0 by omega]
        simp [cancelOrAppend]
  calc (entries.foldl (push policy) []).count entry
      = ((entries.foldl (push policy) []).filter (· = entry)).length := by
        rw [List.filter_eq, List.length_replicate]
    _ = ((List.replicate (entries.count entry) entry).foldl (push policy) []).length := by
        rw [filter_foldl_push hp, List.filter_nil, List.filter_eq]
    _ = entries.count entry % 2 := by rw [halone, List.length_replicate]

/-- A key has the entry that was pushed last. -/
theorem filter_replace_foldl_push (key : κ) (entries : List α) :
    (entries.foldl (push policy) []).filter (policy · = .replace key) =
      (entries.filter (policy · = .replace key)).getLast?.toList := by
  rw [filter_foldl_push (respects_policy (· = .replace key)), List.filter_nil]
  have hall : ∀ a ∈ entries.filter (policy · = .replace key), policy a = .replace key :=
    fun a ha => of_decide_eq_true (List.mem_filter.1 ha).2
  generalize entries.filter (policy · = .replace key) = pushed at hall
  induction pushed using List.reverseRecOn with
  | nil => rfl
  | append_singleton pushed a ih =>
    rw [List.foldl_append, ih fun b hb => hall b (List.mem_append_left _ hb), List.getLast?_concat,
      List.foldl_cons, List.foldl_nil, push, hall a (by simp)]
    -- The entry of the key, if there is one, is replaced.
    cases hlast : pushed.getLast? with
    | none => rfl
    | some b =>
      have hb : policy b = .replace key :=
        hall b (List.mem_append_left _ (List.mem_of_getLast? hlast))
      simp [replaceOrAppend, hb]

/-- The entries that come last are queued in their order. -/
theorem filter_keep_foldl_push (entries : List α) :
    (entries.foldl (push policy) []).filter (policy · = .keep) =
      entries.filter (policy · = .keep) := by
  rw [filter_foldl_push (respects_policy (· = .keep)), List.filter_nil]
  have hall : ∀ a ∈ entries.filter (policy · = .keep), policy a = .keep :=
    fun a ha => of_decide_eq_true (List.mem_filter.1 ha).2
  generalize entries.filter (policy · = .keep) = pushed at hall
  induction pushed using List.reverseRecOn with
  | nil => rfl
  | append_singleton pushed a ih =>
    rw [List.foldl_append, ih fun b hb => hall b (List.mem_append_left _ hb), List.foldl_cons,
      List.foldl_nil, push, hall a (by simp)]

/-- An entry that comes last is queued for good. -/
theorem mem_push_of_keep (h : policy entry = .keep) (queue : List α) (other : α) :
    entry ∈ push policy queue other ↔ entry ∈ queue ∨ entry = other := by
  have hmem : ∀ queue : List α, entry ∈ queue ↔ entry ∈ queue.filter (policy · = .keep) :=
    fun queue => by simp [h]
  rw [hmem, filter_push (respects_policy (· = .keep))]
  by_cases hother : policy other = .keep
  · simp [push, hother, h]
  · have hne : entry ≠ other := fun heq => hother (heq ▸ h)
    simp [hother, h, hne]

end Launa.CoalescingQueue
