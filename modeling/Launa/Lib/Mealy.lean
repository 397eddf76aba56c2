import Launa.Lib.Run

/-!
# Machines with outputs

A machine that answers each input with a list of outputs is a function `step : σ → ι → List ο × σ`,
and `run` collects the outputs of a list of inputs beside the last state, which is that of the run
of the states alone (`run_snd`). Inputs may be cut anywhere (`run_append`), and two machines that
answer alike at every step of a run answer the run alike (`run_congr`). A relation between the
outputs so far and the state that every step keeps holds after every run (`run_keeps`), and one
between each output and those before it is extended output by output (`AtEach.concat`). Where a step
may fail, a run fails with it (`tryRun`), and two machines whose steps keep them related, and fail
alike, have related runs (`tryRun_rel`).
-/

namespace Launa.Mealy

open Run

variable {σ ι ο : Type*} {step step' : σ → ι → List ο × σ}

/-- The outputs of a run, and the state after it. -/
def run (step : σ → ι → List ο × σ) : σ → List ι → List ο × σ
  | s, [] => ([], s)
  | s, i :: is =>
    let (os, s') := step s i
    let (os', s'') := run step s' is
    (os ++ os', s'')

/-- No inputs give no outputs. -/
@[simp] theorem run_nil (s : σ) : run step s [] = ([], s) := rfl

/-- The outputs of the first input come first. -/
theorem run_cons (s : σ) (i : ι) (is : List ι) :
    run step s (i :: is) =
      ((step s i).1 ++ (run step (step s i).2 is).1, (run step (step s i).2 is).2) := rfl

/-- A run over two lists of inputs is a run over the first, and then over the second. -/
theorem run_append (s : σ) (is js : List ι) :
    run step s (is ++ js) =
      ((run step s is).1 ++ (run step (run step s is).2 js).1,
        (run step (run step s is).2 js).2) := by
  induction is generalizing s with
  | nil => rfl
  | cons i is ih => simp only [List.cons_append, run_cons, ih, List.append_assoc]

/-- The states of a run do not depend on the outputs. -/
theorem run_snd (s : σ) (is : List ι) :
    (run step s is).2 = is.foldl (fun s i => (step s i).2) s := by
  induction is generalizing s with
  | nil => rfl
  | cons i is ih => exact ih _

/-- A machine that answers every step of a run as another does answers the run as the other does. -/
theorem run_congr {s : σ} {is : List ι}
    (h : Along (fun s i => (step s i).2) (fun s i => step' s i = step s i) s is) :
    run step' s is = run step s is := by
  induction is generalizing s with
  | nil => rfl
  | cons i is ih =>
    rw [run_cons, run_cons, h.1, ih h.2]

/-- What every output has from an invariant state holds of all outputs of a run from one. -/
theorem run_forall {I : σ → Prop} {P : ο → Prop}
    (h : ∀ s i, I s → (∀ o ∈ (step s i).1, P o) ∧ I (step s i).2) {s : σ} (h0 : I s) (is : List ι) :
    ∀ o ∈ (run step s is).1, P o := by
  induction is generalizing s with
  | nil => exact fun o ho => absurd ho List.not_mem_nil
  | cons i is ih =>
    intro o ho
    rcases List.mem_append.1 ho with ho | ho
    · exact (h s i h0).1 o ho
    · exact ih (h s i h0).2 o ho

/-! ## What the outputs say of the state -/

section History

variable {I : List ο → σ → Prop} {f g : σ → List ο × σ} {P : List ο → ο → Prop} {os outs : List ο}

/-- One answer, and then another. -/
def andThen (f g : σ → List ο × σ) (s : σ) : List ο × σ :=
  ((f s).1 ++ (g (f s).2).1, (g (f s).2).2)

/-- Parts may be put in sequence in either order of grouping. -/
theorem andThen_assoc (f g h : σ → List ο × σ) :
    andThen (andThen f g) h = andThen f (andThen g h) := by
  funext s
  simp only [andThen, List.append_assoc]

/-- No answer. -/
def skip (s : σ) : List ο × σ := ([], s)

/-- If the outputs so far and the state are in a relation, so are those behind the answer. -/
def Keeps (I : List ο → σ → Prop) (f : σ → List ο × σ) : Prop :=
  ∀ os s, I os s → I (os ++ (f s).1) (f s).2

/-- Doing nothing keeps every relation. -/
theorem Keeps.skip : Keeps I skip := fun os s h => by
  rw [Mealy.skip, List.append_nil]
  exact h

/-- Two parts that keep a relation keep it one after the other. -/
theorem Keeps.andThen (hf : Keeps I f) (hg : Keeps I g) : Keeps I (andThen f g) := by
  intro os s h
  have := hg _ _ (hf os s h)
  rwa [List.append_assoc] at this

/-- What every step keeps holds after a run. -/
theorem Keeps.run (h : ∀ i, Keeps I (step · i)) (is : List ι) : Keeps I (run step · is) := by
  induction is with
  | nil => exact Keeps.skip
  | cons i is ih => exact Keeps.andThen (h i) ih

/-- A run keeps what every step keeps. -/
theorem run_keeps (h : ∀ i, Keeps I (step · i)) {s : σ} (h0 : I [] s) (is : List ι) :
    I (Mealy.run step s is).1 (Mealy.run step s is).2 := Keeps.run h is [] s h0

/-- At each output, what was before it and the output are in a relation. -/
def AtEach (P : List ο → ο → Prop) (os : List ο) : Prop :=
  ∀ older o newer, os = older ++ o :: newer → P older o

/-- There is no output at which a property could fail. -/
theorem AtEach.nil : AtEach P [] := fun _ _ _ heq =>
  absurd heq.symm (List.append_ne_nil_of_right_ne_nil _ (List.cons_ne_nil _ _))

/-- One output more. -/
theorem AtEach.concat {o : ο} (h : AtEach P os) (ho : P os o) : AtEach P (os ++ [o]) := by
  intro older o' newer heq
  rcases List.eq_nil_or_concat newer with rfl | ⟨newer, last, rfl⟩
  · obtain ⟨rfl, hlast⟩ := List.append_inj' heq rfl
    rwa [List.singleton_inj.1 hlast] at ho
  · rw [List.concat_eq_append, ← List.cons_append, ← List.append_assoc] at heq
    exact h _ _ newer (List.append_inj' heq rfl).1

/-- Some outputs more, whatever was before them. -/
theorem AtEach.append (h : AtEach P os) (houts : ∀ o ∈ outs, ∀ older, P older o) :
    AtEach P (os ++ outs) := by
  induction outs generalizing os with
  | nil => rwa [List.append_nil]
  | cons o outs ih =>
    rw [List.append_cons]
    exact ih (h.concat (houts o List.mem_cons_self os)) fun o' ho' =>
      houts o' (List.mem_cons_of_mem o ho')

end History

/-! ## Machines that may fail -/

section Failing

variable {σ' ο' : Type*} {step : σ → ι → Option (List ο × σ)}
  {step' : σ' → ι → Option (List ο' × σ')}

variable {α β γ δ : Type*} {r : γ → δ → Prop}

/-- What two functions make of related values, or of none. -/
theorem rel_map {r' : α → β → Prop} {a : Option α} {b : Option β} {f : α → γ} {g : β → δ}
    (h : Option.Rel r' a b) (hfg : ∀ a b, r' a b → r (f a) (g b)) :
    Option.Rel r (a.map f) (b.map g) := by
  cases h with
  | none => exact .none
  | some hab => exact .some (hfg _ _ hab)

/-- A relation that implies another. -/
theorem rel_imp {r' : γ → δ → Prop} {a : Option γ} {b : Option δ} (h : Option.Rel r' a b)
    (himp : ∀ a b, r' a b → r a b) : Option.Rel r a b := by
  cases h with
  | none => exact .none
  | some hab => exact .some (himp _ _ hab)

/-- Two computations that go on from the same value, or fail there. -/
theorem rel_bind {a : Option α} {f : α → Option γ} {g : α → Option δ}
    (h : ∀ x, a = some x → Option.Rel r (f x) (g x)) : Option.Rel r (a.bind f) (a.bind g) := by
  cases a with
  | none => exact .none
  | some x => exact h x rfl

/-- The outputs of a run of a machine that may fail, and the state after it. -/
def tryRun (step : σ → ι → Option (List ο × σ)) : σ → List ι → Option (List ο × σ)
  | s, [] => some ([], s)
  | s, i :: is =>
    (step s i).bind fun o => (tryRun step o.2 is).map fun o' => (o.1 ++ o'.1, o'.2)

/-- Every step of the run meets a condition, up to one that fails. -/
def TryAlong (step : σ → ι → Option (List ο × σ)) (C : σ → ι → Prop) : σ → List ι → Prop
  | _, [] => True
  | s, i :: is => C s i ∧ ∀ o, step s i = some o → TryAlong step C o.2 is

/-- If related machines fail alike in a step that meets a condition, and are related behind it where
they do not fail, they fail alike in runs along the condition, and are related behind them. -/
theorem tryRun_rel {R : List ο → σ → List ο' → σ' → Prop} {C : σ → ι → Prop}
    (h : ∀ os s os' s' i, R os s os' s' → C s i →
      Option.Rel (fun o o' => R (os ++ o.1) o.2 (os' ++ o'.1) o'.2) (step s i) (step' s' i))
    {is : List ι} {os : List ο} {s : σ} {os' : List ο'} {s' : σ'} (h0 : R os s os' s')
    (ha : TryAlong step C s is) :
    Option.Rel (fun o o' => R (os ++ o.1) o.2 (os' ++ o'.1) o'.2) (tryRun step s is)
      (tryRun step' s' is) := by
  induction is generalizing os s os' s' with
  | nil =>
    apply Option.Rel.some
    rwa [List.append_nil, List.append_nil]
  | cons i is ih =>
    obtain ⟨hi, hrest⟩ := ha
    have hstep := h os s os' s' i h0 hi
    rw [tryRun, tryRun]
    generalize hnext : step s i = next at hstep ⊢
    generalize step' s' i = next' at hstep ⊢
    cases hstep with
    | none => exact .none
    | some hR =>
      have hruns := ih hR (hrest _ hnext)
      rw [Option.bind_some, Option.bind_some]
      generalize tryRun step _ is = run at hruns ⊢
      generalize tryRun step' _ is = run' at hruns ⊢
      cases hruns with
      | none => exact .none
      | some hR' =>
        apply Option.Rel.some
        rwa [List.append_assoc, List.append_assoc] at hR'

end Failing

end Launa.Mealy
