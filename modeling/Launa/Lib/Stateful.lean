import Mathlib.Algebra.Group.Nat.Defs
import Mathlib.Tactic.Common

/-!
# Fallible stateful code

Code that may stop with an error and keeps the state it had reached is a computation of `EStateM`.
The first lemmas step through a sequence when the outcome of its first part is known. `Keeps I m`
says that `m` preserves `I` whether it returns or throws; it is closed under the combinators of such
code, so that an invariant of the primitives is one of everything built from them.
-/

namespace Launa.Stateful

variable {ε σ τ α β : Type}

/-- The state that a computation leaves, whether it returns or throws. -/
def final (m : EStateM ε σ α) (s : σ) : σ :=
  match m s with
  | .ok _ s' => s'
  | .error _ s' => s'

/-- A computation that succeeds ends in the state that it gives. -/
theorem final_ok {m : EStateM ε σ α} {s s' : σ} {a : α} (h : m s = .ok a s') :
    final m s = s' := by
  simp [final, h]

/-- A computation that fails ends in the state that it gives. -/
theorem final_error {m : EStateM ε σ α} {s s' : σ} {e : ε} (h : m s = .error e s') :
    final m s = s' := by
  simp [final, h]

/-- Behind a success the next computation runs. -/
theorem bind_ok {m : EStateM ε σ α} {f : α → EStateM ε σ β} {s s' : σ} {a : α}
    (h : m s = .ok a s') : (m >>= f) s = f a s' := by
  show EStateM.bind m f s = f a s'
  simp [EStateM.bind, h]

/-- Behind a failure nothing runs. -/
theorem bind_error {m : EStateM ε σ α} {f : α → EStateM ε σ β} {s s' : σ} {e : ε}
    (h : m s = .error e s') : (m >>= f) s = .error e s' := by
  show EStateM.bind m f s = .error e s'
  simp [EStateM.bind, h]

/-- Behind a success the state is that in which the next computation ends. -/
theorem final_bind_ok {m : EStateM ε σ α} {f : α → EStateM ε σ β} {s s' : σ} {a : α}
    (h : m s = .ok a s') : final (m >>= f) s = final (f a) s' := by
  rw [final, bind_ok h, final]

/-- Behind a failure the state is the one in which it failed. -/
theorem final_bind_error {m : EStateM ε σ α} {f : α → EStateM ε σ β} {s s' : σ} {e : ε}
    (h : m s = .error e s') : final (m >>= f) s = s' :=
  final_error (bind_error h)

/-- A sequence returns exactly when its first part does and the rest does from there. -/
theorem bind_eq_ok {m : EStateM ε σ α} {f : α → EStateM ε σ β} {s s' : σ} {b : β} :
    (m >>= f) s = .ok b s' ↔ ∃ a t, m s = .ok a t ∧ f a t = .ok b s' := by
  constructor
  · intro h
    cases hm : m s with
    | ok a t => exact ⟨a, t, rfl, by rwa [bind_ok hm] at h⟩
    | error e t => rw [bind_error hm] at h; cases h
  · rintro ⟨a, t, hm, hf⟩
    rw [bind_ok hm, hf]

/-- A sequence throws exactly when its first part does, or the rest does from where it returned. -/
theorem bind_eq_error {m : EStateM ε σ α} {f : α → EStateM ε σ β} {s s' : σ} {e : ε} :
    (m >>= f) s = .error e s' ↔
      m s = .error e s' ∨ ∃ a t, m s = .ok a t ∧ f a t = .error e s' := by
  cases hm : m s with
  | ok a t => simp [bind_ok hm]
  | error e' t => simp [bind_error hm]

/-- A value is returned in the state as it is. -/
@[simp] theorem pure_apply (a : α) (s : σ) : (pure a : EStateM ε σ α) s = .ok a s := rfl

/-- An error is returned in the state as it is. -/
@[simp] theorem throw_apply (e : ε) (s : σ) :
    (throw e : EStateM ε σ α) s = .error e s := rfl

/-- Reading the state leaves it alone. -/
@[simp] theorem get_apply (s : σ) : (get : EStateM ε σ σ) s = .ok s s := rfl

/-- The state is replaced. -/
@[simp] theorem set_apply (s s' : σ) : (set s' : EStateM ε σ PUnit) s = .ok ⟨⟩ s' := rfl

/-- The state is changed by the function. -/
@[simp] theorem modify_apply (f : σ → σ) (s : σ) :
    (modify f : EStateM ε σ PUnit) s = .ok ⟨⟩ (f s) := rfl

/-- The computation `m` keeps `I`, whether it returns or throws. -/
def Keeps (I : σ → Prop) (m : EStateM ε σ α) : Prop := ∀ s, I s → I (final m s)

section Keeps

variable {I : σ → Prop}

/-- An invariant that is kept holds after a success. -/
theorem Keeps.ok {m : EStateM ε σ α} (hm : Keeps I m) {s s' : σ} {a : α} (hs : I s)
    (h : m s = .ok a s') : I s' :=
  final_ok h ▸ hm s hs

/-- An invariant that is kept holds after a failure. -/
theorem Keeps.error {m : EStateM ε σ α} (hm : Keeps I m) {s s' : σ} {e : ε} (hs : I s)
    (h : m s = .error e s') : I s' :=
  final_error h ▸ hm s hs

/-- Returning a value keeps every invariant. -/
theorem Keeps.pure (a : α) : Keeps I (pure a : EStateM ε σ α) := fun _ hs => hs

/-- Throwing an error keeps every invariant. -/
theorem Keeps.throw (e : ε) : Keeps I (throw e : EStateM ε σ α) := fun _ hs => hs

/-- Reading the state keeps every invariant. -/
theorem Keeps.get : Keeps I (get : EStateM ε σ σ) := fun _ hs => hs

/-- The continuation of a sequence need only keep the invariant for results that its first part can
return. -/
theorem Keeps.bind_of {m : EStateM ε σ α} {f : α → EStateM ε σ β} (hm : Keeps I m)
    (hf : ∀ a s t, m s = .ok a t → Keeps I (f a)) : Keeps I (m >>= f) := by
  intro s hs
  cases h : m s with
  | ok a t =>
    have ht : I t := hm.ok hs h
    have := hf a s t h t ht
    rwa [final, bind_ok h]
  | error e t =>
    rw [final_error (bind_error h)]
    exact hm.error hs h

/-- Two computations that keep an invariant keep it one after the other. -/
theorem Keeps.bind {m : EStateM ε σ α} {f : α → EStateM ε σ β} (hm : Keeps I m)
    (hf : ∀ a, Keeps I (f a)) : Keeps I (m >>= f) :=
  hm.bind_of fun a _ _ _ => hf a

/-- What holds after the first part of a sequence holds after it, if the rest keeps it. -/
theorem final_bind {m : EStateM ε σ α} {f : α → EStateM ε σ β} {s : σ} (h : I (final m s))
    (hf : ∀ a, Keeps I (f a)) : I (final (m >>= f) s) := by
  cases hm : m s with
  | ok a t =>
    rw [final_ok hm] at h
    have := hf a t h
    rwa [final, bind_ok hm]
  | error e t =>
    rw [final_error hm] at h
    rwa [final_error (bind_error hm)]

/-- Reading the state first does not change where a computation ends. -/
theorem final_get_bind (f : σ → EStateM ε σ β) (s : σ) :
    final (MonadState.get >>= f) s = final (f s) s :=
  rfl

/-- The continuation of `get` need only keep the invariant from the state it is given. -/
theorem keeps_get_bind {f : σ → EStateM ε σ β} (hf : ∀ s, I s → I (final (f s) s)) :
    Keeps I (get >>= f) :=
  hf

/-- A choice keeps what both branches keep. -/
theorem Keeps.ite {c : Prop} [Decidable c] {m n : EStateM ε σ α} (hm : Keeps I m)
    (hn : Keeps I n) : Keeps I (if c then m else n) := by
  split
  · exact hm
  · exact hn

/-- A change of the state keeps what its function keeps. -/
theorem Keeps.modify {f : σ → σ} (hf : ∀ s, I s → I (f s)) :
    Keeps I (modify f : EStateM ε σ PUnit) := hf

/-- A loop keeps what its body keeps. -/
theorem Keeps.forM {f : β → EStateM ε σ PUnit} (hf : ∀ b, Keeps I (f b)) (bs : List β) :
    Keeps I (bs.forM f) := by
  induction bs with
  | nil => exact Keeps.pure _
  | cons b bs ih => exact (hf b).bind fun _ => ih

end Keeps

/-- Replace the error that a computation throws. -/
def mapErr {ε' : Type} (f : ε → ε') (m : EStateM ε σ α) : EStateM ε' σ α := fun s =>
  match m s with
  | .ok a s' => .ok a s'
  | .error e s' => .error (f e) s'

section MapErr

variable {ε' : Type} {f : ε → ε'} {m : EStateM ε σ α} {s s' : σ}

/-- Renaming errors leaves a success alone. -/
theorem mapErr_ok {a : α} (h : m s = .ok a s') : mapErr f m s = .ok a s' := by
  simp [mapErr, h]

/-- A computation succeeds exactly as without the renaming of its errors. -/
theorem mapErr_eq_ok {a : α} : mapErr f m s = .ok a s' ↔ m s = .ok a s' := by
  unfold mapErr
  cases m s <;> simp

/-- Renaming errors leaves the state alone. -/
theorem final_mapErr : final (mapErr f m) s = final m s := by
  unfold final mapErr
  cases m s <;> rfl

/-- Renaming errors keeps what the computation keeps. -/
theorem Keeps.mapErr {I : σ → Prop} (hm : Keeps I m) : Keeps I (mapErr f m) := by
  intro s hs
  rw [final_mapErr]
  exact hm s hs

end MapErr

/-- Run a computation on a component of the state, reached by `get` and put back by `put`. -/
def zoom (get : σ → τ) (put : τ → σ → σ) (m : EStateM ε τ α) : EStateM ε σ α := fun s =>
  match m (get s) with
  | .ok a t => .ok a (put t s)
  | .error e t => .error e (put t s)

section Zoom

variable {get : σ → τ} {put : τ → σ → σ} {m : EStateM ε τ α} {s : σ} {t : τ}

/-- A success on a part of the state is one on the whole. -/
theorem zoom_ok {a : α} (h : m (get s) = .ok a t) : zoom get put m s = .ok a (put t s) := by
  simp [zoom, h]

/-- A failure on a part of the state is one on the whole. -/
theorem zoom_error {e : ε} (h : m (get s) = .error e t) :
    zoom get put m s = .error e (put t s) := by
  simp [zoom, h]

/-- What `m` keeps of the component is kept of the whole. -/
theorem Keeps.zoom {I : σ → Prop} {J : τ → Prop} (hm : Keeps J m)
    (hget : ∀ s, I s → J (get s)) (hput : ∀ s t, I s → J t → I (put t s)) :
    Keeps I (zoom get put m) := by
  intro s hs
  have ht := hm (get s) (hget s hs)
  unfold final Stateful.zoom
  unfold final at ht
  cases h : m (get s) <;> rw [h] at ht <;> exact hput _ _ hs ht

end Zoom

end Launa.Stateful
