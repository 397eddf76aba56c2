import Mathlib.Data.List.Basic
import Mathlib.Data.List.Induction

/-!
# Runs of a deterministic step function

A component that takes one input at a time is a function `step : σ → ι → σ`, and the state after a
list of inputs is a left fold. `Along step C s is` says that every step of the run from `s` over
`is` meets the condition `C` on the state before the step and its input. An invariant that each such
step preserves holds at every point of such a run (`Along.invariant`), and a property that a step
from the invariant has exactly under `C` holds at every point of a run exactly when the run is along
`C` (`along_iff_forall`).
-/

namespace Launa.Run

variable {σ ι : Type*} {step : σ → ι → σ}

/-- Every step of the run from `s` over the inputs meets `C`, which is given the state before the
step and the input. -/
def Along (step : σ → ι → σ) (C : σ → ι → Prop) : σ → List ι → Prop
  | _, [] => True
  | s, i :: is => C s i ∧ Along step C (step s i) is

/-- Nothing is asked of a run without steps. -/
@[simp] theorem along_nil (C : σ → ι → Prop) (s : σ) : Along step C s [] ↔ True := Iff.rfl

/-- The first step meets the condition and so does the rest of the run. -/
@[simp] theorem along_cons (C : σ → ι → Prop) (s : σ) (i : ι) (is : List ι) :
    Along step C s (i :: is) ↔ C s i ∧ Along step C (step s i) is := Iff.rfl

instance decidableAlong (C : σ → ι → Prop) [∀ s i, Decidable (C s i)] (s : σ) :
    (is : List ι) → Decidable (Along step C s is)
  | [] => isTrue trivial
  | i :: is =>
    have := decidableAlong C (step s i) is
    inferInstanceAs (Decidable (C s i ∧ Along step C (step s i) is))

/-- A run over two lists of inputs is a run over the first, and then over the second. -/
theorem along_append (C : σ → ι → Prop) (s : σ) (is js : List ι) :
    Along step C s (is ++ js) ↔ Along step C s is ∧ Along step C (is.foldl step s) js := by
  induction is generalizing s with
  | nil => simp
  | cons i is ih => simp [ih, and_assoc]

/-- A run that is not along a condition has a first step that does not meet it. -/
theorem exists_first_of_not_along {C : σ → ι → Prop} {s : σ} {is : List ι}
    (h : ¬ Along step C s is) :
    ∃ pre i post, is = pre ++ i :: post ∧ Along step C s pre ∧ ¬ C (pre.foldl step s) i := by
  induction is generalizing s with
  | nil => exact absurd trivial h
  | cons i is ih =>
    by_cases hi : C s i
    · obtain ⟨pre, j, post, rfl, hpre, hj⟩ := ih fun hrest => h ⟨hi, hrest⟩
      exact ⟨i :: pre, j, post, rfl, ⟨hi, hpre⟩, hj⟩
    · exact ⟨[], i, is, rfl, trivial, hi⟩

/-- A condition that implies another at every step implies it along every run. -/
theorem Along.imp {C D : σ → ι → Prop} (h : ∀ s i, C s i → D s i) {s : σ} {is : List ι}
    (ha : Along step C s is) : Along step D s is := by
  induction is generalizing s with
  | nil => trivial
  | cons i is ih => exact ⟨h s i ha.1, ih ha.2⟩

/-- Conditions that are equivalent at every step are equivalent along every run. -/
theorem along_congr {C D : σ → ι → Prop} (h : ∀ s i, C s i ↔ D s i) {s : σ} {is : List ι} :
    Along step C s is ↔ Along step D s is :=
  ⟨Along.imp fun s i => (h s i).1, Along.imp fun s i => (h s i).2⟩

/-- Two conditions hold along a run when each does. -/
theorem along_and {C D : σ → ι → Prop} {s : σ} {is : List ι} :
    Along step (fun s i => C s i ∧ D s i) s is ↔ Along step C s is ∧ Along step D s is := by
  induction is generalizing s with
  | nil => simp
  | cons i is ih =>
    simp only [along_cons, ih]
    exact and_and_and_comm

/-- What all inputs have is a condition of the run over them. -/
theorem along_of_forall_mem {D : ι → Prop} {is : List ι} (h : ∀ i ∈ is, D i) (s : σ) :
    Along step (fun _ i => D i) s is := by
  induction is generalizing s with
  | nil => trivial
  | cons i is ih =>
    exact ⟨h i List.mem_cons_self, ih (fun j hj => h j (List.mem_cons_of_mem i hj)) (step s i)⟩

/-- A condition that implies another at every step from an invariant, and keeps the invariant,
implies it along every run. -/
theorem Along.imp_of_invariant {C D : σ → ι → Prop} {I : σ → Prop}
    (h : ∀ s i, I s → C s i → D s i ∧ I (step s i)) {s : σ} {is : List ι} (h0 : I s)
    (ha : Along step C s is) : Along step D s is := by
  induction is generalizing s with
  | nil => trivial
  | cons i is ih =>
    obtain ⟨hd, hi⟩ := h s i h0 ha.1
    exact ⟨hd, ih hi ha.2⟩

/-- Conditions that are equivalent at every step from an invariant, which every step keeps, are
equivalent along every run. -/
theorem along_congr_of_invariant {C D : σ → ι → Prop} {I : σ → Prop}
    (h : ∀ s i, I s → (C s i ↔ D s i)) (hkeep : ∀ s i, I s → I (step s i)) {s : σ} {is : List ι}
    (h0 : I s) : Along step C s is ↔ Along step D s is :=
  ⟨Along.imp_of_invariant (fun s i hs hc => ⟨(h s i hs).1 hc, hkeep s i hs⟩) h0,
    Along.imp_of_invariant (fun s i hs hd => ⟨(h s i hs).2 hd, hkeep s i hs⟩) h0⟩

/-- A run is along a condition when every one of its steps meets it in the state that the steps
before it lead to. -/
theorem forall_split_iff_along {C : σ → ι → Prop} {s : σ} {is : List ι} :
    (∀ pre i post, is = pre ++ i :: post → C (pre.foldl step s) i) ↔ Along step C s is := by
  constructor
  · intro h
    induction is generalizing s with
    | nil => trivial
    | cons i is ih =>
      refine ⟨h [] i is rfl, ih ?_⟩
      rintro pre j post rfl
      exact h (i :: pre) j post rfl
  · rintro h pre i post rfl
    exact ((along_append C s pre (i :: post)).1 h).2.1

/-- What every step that meets `C` preserves holds after a run whose steps all meet it. -/
theorem Along.invariant {C : σ → ι → Prop} {I : σ → Prop}
    (hstep : ∀ s i, I s → C s i → I (step s i)) {s : σ} {is : List ι} (h0 : I s)
    (ha : Along step C s is) : I (is.foldl step s) := by
  induction is generalizing s with
  | nil => exact h0
  | cons i is ih => exact ih (hstep s i h0 ha.1) ha.2

/-- What every step preserves holds after every run. -/
theorem invariant {I : σ → Prop} (hstep : ∀ s i, I s → I (step s i)) {s : σ} (h0 : I s)
    (is : List ι) : I (is.foldl step s) := by
  induction is generalizing s with
  | nil => exact h0
  | cons i is ih => exact ih (hstep s i h0)

/-- Among the runs along `F`, a property `P` holds at every point of a run exactly when every step
of the run meets `C`, given an invariant that has `P` and from which `P` after a step says `C` of it
and `C` preserves the invariant. -/
theorem along_iff_forall_of_along {F C : σ → ι → Prop} {I P : σ → Prop} (hP : ∀ s, I s → P s)
    (hC : ∀ s i, I s → F s i → P (step s i) → C s i)
    (hkeep : ∀ s i, I s → F s i → C s i → I (step s i)) {s : σ} (h0 : I s) {is : List ι}
    (hF : Along step F s is) :
    (∀ pre post, is = pre ++ post → P (pre.foldl step s)) ↔ Along step C s is := by
  constructor
  · intro h
    induction is generalizing s with
    | nil => trivial
    | cons i is ih =>
      have hc : C s i := hC s i h0 hF.1 (h [i] is rfl)
      refine ⟨hc, ih (hkeep s i h0 hF.1 hc) hF.2 ?_⟩
      rintro pre post rfl
      exact h (i :: pre) post rfl
  · rintro h pre post rfl
    rw [along_append] at h hF
    refine hP _ (Along.invariant (C := fun s i => F s i ∧ C s i) ?_ h0 (along_and.2 ⟨hF.1, h.1⟩))
    exact fun s i hs hfc => hkeep s i hs hfc.1 hfc.2

/-- A property `P` holds at every point of a run exactly when every step of the run meets `C`, given
an invariant that has `P` and from which `P` after a step says `C` of it and `C` preserves the
invariant. -/
theorem along_iff_forall {C : σ → ι → Prop} {I P : σ → Prop} (hP : ∀ s, I s → P s)
    (hC : ∀ s i, I s → P (step s i) → C s i) (hkeep : ∀ s i, I s → C s i → I (step s i)) {s : σ}
    (h0 : I s) (is : List ι) :
    (∀ pre post, is = pre ++ post → P (pre.foldl step s)) ↔ Along step C s is :=
  along_iff_forall_of_along hP (fun s i hs _ => hC s i hs) (fun s i hs _ => hkeep s i hs) h0
    (along_of_forall_mem (fun _ _ => trivial) s)

/-! ## With what has been seen -/

/-- The rule for runs, of a property `P` of the state and of what a second function notes of the
inputs. -/
theorem along_iff_forall_noted {ρ : Type*} {note : ρ → ι → ρ} {C : σ → ι → Prop}
    {I P : σ → ρ → Prop} (hP : ∀ s r, I s r → P s r)
    (hC : ∀ s r i, I s r → P (step s i) (note r i) → C s i)
    (hkeep : ∀ s r i, I s r → C s i → I (step s i) (note r i)) {s : σ} {r : ρ} (h0 : I s r)
    (is : List ι) :
    (∀ pre post, is = pre ++ post → P (pre.foldl step s) (pre.foldl note r)) ↔
      Along step C s is := by
  induction is generalizing s r with
  | nil =>
    refine iff_of_true (fun pre post h => ?_) trivial
    obtain ⟨rfl, -⟩ := List.append_eq_nil_iff.1 h.symm
    exact hP s r h0
  | cons i is ih =>
    constructor
    · intro h
      have hc : C s i := hC s r i h0 (h [i] is rfl)
      refine ⟨hc, (ih (hkeep s r i h0 hc)).1 ?_⟩
      rintro pre post rfl
      exact h (i :: pre) post rfl
    · rintro ⟨hc, hrest⟩ pre post hsplit
      cases pre with
      | nil => exact hP s r h0
      | cons j pre =>
        obtain ⟨rfl, rfl⟩ := List.cons.inj hsplit
        exact (ih (hkeep s r i h0 hc)).2 hrest pre post rfl

/-- The rule for runs, of a property `P` of the state and of the inputs so far. -/
theorem along_iff_forall_seen {C : σ → ι → Prop} {I P : σ → List ι → Prop}
    (hP : ∀ s seen, I s seen → P s seen)
    (hC : ∀ s seen i, I s seen → P (step s i) (seen ++ [i]) → C s i)
    (hkeep : ∀ s seen i, I s seen → C s i → I (step s i) (seen ++ [i])) {s : σ} (h0 : I s [])
    (is : List ι) :
    (∀ pre post, is = pre ++ post → P (pre.foldl step s) pre) ↔ Along step C s is := by
  rw [← along_iff_forall_noted hP hC hkeep h0 is]
  refine forall_congr' fun pre => ?_
  have hseen : pre.foldl (fun seen i => seen ++ [i]) [] = pre := by
    induction pre using List.reverseRecOn with
    | nil => rfl
    | append_singleton pre i ih => rw [List.foldl_concat, ih]
  rw [hseen]

/-- A part of the state on which each input bears as an operation, or not at all. -/
theorem foldl_part {τ ω : Type*} (part : σ → τ) (op : ι → Option ω) (f : τ → ω → τ)
    (hstep : ∀ s i, part (step s i) = (op i).elim (part s) (f (part s))) (s : σ) (is : List ι) :
    part (is.foldl step s) = (is.filterMap op).foldl f (part s) := by
  rw [List.foldl_filterMap, List.foldl_hom]
  intro s i
  rw [hstep]
  cases op i <;> rfl

end Launa.Run
