import Launa.Lib.Run
import Mathlib.Data.List.Chain

/-!
# Publishing on change

A publisher is given one item after the other, and withholds those that are not announced by what
they differ in from the one that it published last. An item that is withheld is a stand-in for the
next decision when the rule is `Stable`: then what was published last shows a view of the latest
item, after every item, exactly when the view changes only with an item that the one before it
announces (`shows_iff_isChain`).
-/

namespace Launa.ChangeFilter

open Run

variable {α β : Type*} (announces : α → α → Prop)

/-- An item that is withheld decides on the next one as the one that was published does. -/
def Stable : Prop := ∀ p a b, ¬ announces p a → (announces a b ↔ announces p b)

/-- What was published last and the latest item, after one more item. -/
def step [DecidableRel announces] (s : Option (α × α)) (b : α) : Option (α × α) :=
  match s with
  | none => some (b, b)
  | some (p, _) => some (if announces p b then b else p, b)

/-- What was published last has the view of the latest item. -/
def Shows (view : α → β) (s : Option (α × α)) : Prop := ∀ x ∈ s, view x.1 = view x.2

/-- The latest item was published, or is withheld. -/
def Filtered (s : Option (α × α)) : Prop := ∀ x ∈ s, x.1 = x.2 ∨ ¬ announces x.1 x.2

variable {announces} {view : α → β} {s : Option (α × α)} {b : α}

/-- The rule decides alike on what was published last and on the latest item. -/
theorem Filtered.announces_iff (hstable : Stable announces) (h : Filtered announces s) {x : α × α}
    (hx : x ∈ s) (b : α) : announces x.2 b ↔ announces x.1 b := by
  rcases h x hx with heq | hnot
  · rw [heq]
  · exact hstable x.1 x.2 b hnot

variable [DecidableRel announces]

/-- A value that comes in keeps what is announced filtered. -/
theorem Filtered.step (h : Filtered announces s) (b : α) :
    Filtered announces (step announces s b) := by
  intro x hx
  cases s with
  | none =>
    cases hx
    exact .inl rfl
  | some y =>
    cases hx
    by_cases hannounced : announces y.1 b
    · exact .inl (if_pos hannounced)
    · exact .inr (by rwa [if_neg hannounced])

/-- An item shows its view when it is announced, or has the view of the one before it. -/
theorem Shows.step_iff (hstable : Stable announces) (hf : Filtered announces s) (h : Shows view s) :
    Shows view (step announces s b) ↔ ∀ x ∈ s, announces x.2 b ∨ view x.2 = view b := by
  cases s with
  | none =>
    refine iff_of_true ?_ fun x hx => by cases hx
    intro x hx
    cases hx
    rfl
  | some y =>
    have hview : view y.1 = view y.2 := h y rfl
    have hdecide := hf.announces_iff hstable (x := y) rfl b
    have hshows : Shows view (step announces (some y) b) ↔
        view (if announces y.1 b then b else y.1) = view b :=
      ⟨fun h => h _ rfl, fun h x hx => by cases hx; exact h⟩
    rw [hshows]
    by_cases hannounced : announces y.1 b
    · rw [if_pos hannounced]
      refine iff_of_true rfl fun x hx => ?_
      cases hx
      exact .inl (hdecide.2 hannounced)
    · rw [if_neg hannounced, hview]
      constructor
      · intro heq x hx
        cases hx
        exact .inr heq
      · intro hall
        exact (hall y rfl).resolve_left (mt hdecide.1 hannounced)

/-- What was published last and the latest item are among the items. -/
theorem mem_of_foldl_step {items : List α} {x : α × α}
    (hx : x ∈ items.foldl (step announces) none) : x.1 ∈ items ∧ items.getLast? = some x.2 := by
  induction items using List.reverseRecOn generalizing x with
  | nil => cases hx
  | append_singleton items b ih =>
    rw [List.foldl_concat] at hx
    rw [List.getLast?_concat]
    cases hs : items.foldl (step announces) none with
    | none =>
      rw [hs] at hx
      cases hx
      simp
    | some y =>
      rw [hs] at hx
      cases hx
      refine ⟨?_, rfl⟩
      split_ifs
      · exact List.mem_append_right _ List.mem_cons_self
      · exact List.mem_append_left _ (ih hs).1

/-- There is a latest item when there is one. -/
theorem exists_of_getLast?_eq_some (announces : α → α → Prop) [DecidableRel announces]
    {items : List α} {b : α} (hb : items.getLast? = some b) :
    ∃ p, items.foldl (step announces) none = some (p, b) := by
  obtain ⟨pre, rfl⟩ := List.getLast?_eq_some_iff.1 hb
  rw [List.foldl_concat]
  cases pre.foldl (step announces) none with
  | none => exact ⟨b, rfl⟩
  | some y => exact ⟨_, rfl⟩

/-- The condition of a step, along a run from an item, is one on the neighbours. -/
theorem along_iff_isChain {R : α → α → Prop} (p a : α) (items : List α) :
    Along (step announces) (fun s b => ∀ x ∈ s, R x.2 b) (some (p, a)) items ↔
      (a :: items).IsChain R := by
  induction items generalizing p a with
  | nil => simp
  | cons b items ih =>
    rw [along_cons, List.isChain_cons_cons]
    refine and_congr ⟨fun h => h (p, a) rfl, fun h x hx => by cases hx; exact h⟩ ?_
    exact ih _ b

/-- What was published last shows the view of the latest item, after every item, exactly when the
view changes only with an item that is announced. -/
theorem shows_iff_isChain (hstable : Stable announces) (view : α → β) (items : List α) :
    (∀ pre post, items = pre ++ post → Shows view (pre.foldl (step announces) none)) ↔
      items.IsChain fun a b => announces a b ∨ view a = view b := by
  have hnone : ∀ {P : α × α → Prop}, ∀ x ∈ (none : Option (α × α)), P x := fun x hx => by cases hx
  rw [along_iff_forall (C := fun s b => ∀ x ∈ s, announces x.2 b ∨ view x.2 = view b)
    (I := fun s => Filtered announces s ∧ Shows view s) (fun s h => h.2)
    (fun s b h hshows => (h.2.step_iff hstable h.1).1 hshows)
    (fun s b h hc => ⟨h.1.step b, (h.2.step_iff hstable h.1).2 hc⟩) ⟨hnone, hnone⟩]
  cases items with
  | nil => simp
  | cons b items =>
    rw [along_cons]
    exact (and_iff_right hnone).trans
      (along_iff_isChain (R := fun a b => announces a b ∨ view a = view b) b b items)

end Launa.ChangeFilter
