import Launa.Lib.Run
import Launa.Lib.Stateful

/-!
# Checked 32-bit arithmetic

Unsigned 32-bit arithmetic with overflow checks: a sum or a product at or past `2^32` and a
difference below zero panic, and everything else is exact. `Stop` is how checked code stops early,
with an error that it returns or with a panic. Four little-endian bytes carry such a word
(`u32FromLe`, `u32ToLe`).

A checked computation that gives a result exactly under a condition (`Guards`) has a rule for each
way to compose it, and a run of such steps gives its result exactly along the condition
(`Guards.foldlM`).
-/

namespace Launa.Checked

open Stateful

/-- How checked code stops early. -/
inductive Stop (ε : Type) where
  /-- It returns the error `e`. -/
  | error (e : ε)
  /-- It panics. -/
  | panic
  deriving DecidableEq, Repr

variable {ε σ α β : Type}

/-- A checked result, where `none` panics. -/
def orPanic : Option α → EStateM (Stop ε) σ α
  | some a => pure a
  | none => throw .panic

/-- There is no panic if there is a value. -/
@[simp] theorem orPanic_some (a : α) : (orPanic (some a) : EStateM (Stop ε) σ α) = pure a := rfl

/-- There is a panic if there is no value. -/
@[simp] theorem orPanic_none : (orPanic none : EStateM (Stop ε) σ α) = throw .panic := rfl

/-- Unwrapping an option leaves the state alone. -/
theorem keeps_orPanic {I : σ → Prop} (o : Option α) :
    Keeps I (orPanic o : EStateM (Stop ε) σ α) := by
  cases o with
  | none => exact Keeps.throw _
  | some a => exact Keeps.pure a

/-- An assertion that panics when it does not hold. -/
def debugAssert (c : Bool) : EStateM (Stop ε) σ Unit :=
  if c then pure () else throw .panic

/-- An assertion that holds does nothing. -/
@[simp] theorem debugAssert_true : (debugAssert true : EStateM (Stop ε) σ Unit) = pure () := rfl

/-- An assertion leaves the state alone. -/
theorem keeps_debugAssert {I : σ → Prop} (c : Bool) :
    Keeps I (debugAssert c : EStateM (Stop ε) σ Unit) :=
  Keeps.ite (Keeps.pure _) (Keeps.throw _)

/-- Turn an error that a computation returns into `none`. A panic stays one. -/
def attempt (m : EStateM (Stop ε) σ α) : EStateM (Stop ε) σ (Option α) := fun s =>
  match m s with
  | .ok a s' => .ok (some a) s'
  | .error (.error _) s' => .ok none s'
  | .error .panic s' => .error .panic s'

/-- An attempt that succeeds gives its value. -/
theorem attempt_ok {m : EStateM (Stop ε) σ α} {s s' : σ} {a : α} (h : m s = .ok a s') :
    attempt m s = .ok (some a) s' := by
  simp [attempt, h]

/-- An attempt gives a value exactly if the computation succeeds with it. -/
theorem attempt_eq_some {m : EStateM (Stop ε) σ α} {s s' : σ} {a : α} :
    attempt m s = .ok (some a) s' ↔ m s = .ok a s' := by
  unfold attempt
  rcases m s with ⟨b, t⟩ | ⟨_ | _, t⟩ <;> simp

/-- An attempt gives nothing exactly if the computation returns an error. -/
theorem attempt_eq_none {m : EStateM (Stop ε) σ α} {s s' : σ} :
    attempt m s = .ok none s' ↔ ∃ e, m s = .error (.error e) s' := by
  unfold attempt
  rcases m s with ⟨b, t⟩ | ⟨_ | _, t⟩ <;> simp

/-- An attempt leaves the state in which the computation ended. -/
theorem final_attempt {m : EStateM (Stop ε) σ α} {s : σ} : final (attempt m) s = final m s := by
  rcases h : m s with ⟨a, t⟩ | ⟨_ | _, t⟩ <;> simp [attempt, final, h]

/-- An attempt keeps what the computation keeps. -/
theorem keeps_attempt {I : σ → Prop} {m : EStateM (Stop ε) σ α} (hm : Keeps I m) :
    Keeps I (attempt m) := by
  intro s hs
  rw [final_attempt]
  exact hm s hs

/-- The sum of two words. -/
def add32 (a b : ℕ) : Option ℕ := if a + b < 2^32 then some (a + b) else none

/-- The difference of two words. -/
def sub32 (a b : ℕ) : Option ℕ := if b ≤ a then some (a - b) else none

/-- The product of two words. -/
def mul32 (a b : ℕ) : Option ℕ := if a * b < 2^32 then some (a * b) else none

/-- A sum below `2^32` does not overflow. -/
theorem add32_of_lt {a b : ℕ} (h : a + b < 2^32) : add32 a b = some (a + b) := if_pos h

/-- A difference that is not negative does not overflow. -/
theorem sub32_of_le {a b : ℕ} (h : b ≤ a) : sub32 a b = some (a - b) := if_pos h

/-- A product below `2^32` does not overflow. -/
theorem mul32_of_lt {a b : ℕ} (h : a * b < 2^32) : mul32 a b = some (a * b) := if_pos h

/-- A product of `2^32` or more overflows. -/
theorem mul32_of_le {a b : ℕ} (h : 2^32 ≤ a * b) : mul32 a b = none := if_neg (Nat.not_lt.2 h)

/-- An addition succeeds exactly with the sum, if it is below `2^32`. -/
theorem add32_eq_some {a b c : ℕ} : add32 a b = some c ↔ a + b < 2^32 ∧ c = a + b := by
  unfold add32
  split
  · rename_i h
    simp only [Option.some.injEq, h, true_and]
    exact eq_comm
  · rename_i h
    exact ⟨nofun, fun h' => absurd h'.1 h⟩

/-- An addition overflows exactly from `2^32` on. -/
theorem add32_eq_none {a b : ℕ} : add32 a b = none ↔ 2^32 ≤ a + b := by
  unfold add32
  split <;> simp <;> omega

/-! ## Checked computations -/

/-- The computation gives the result under the condition, and panics otherwise. -/
structure Guards (m : Option α) (fits : Prop) (result : α) : Prop where
  eq_some : fits → m = some result
  eq_none : ¬ fits → m = none

namespace Guards

variable {m : Option α} {fits fits' : Prop} {result : α}

/-- A value needs no guard. -/
protected theorem pure (a : α) : Guards (some a) True a := ⟨fun _ => rfl, fun h => absurd trivial h⟩

/-- A guard may be replaced by an equivalent one. -/
theorem congr (h : Guards m fits result) (hiff : fits ↔ fits') : Guards m fits' result :=
  ⟨fun hfits => h.eq_some (hiff.2 hfits), fun hfits => h.eq_none (mt hiff.1 hfits)⟩

/-- A condition that is checked. -/
theorem ite [Decidable fits] (a : α) : Guards (if fits then some a else none) fits a :=
  ⟨fun h => if_pos h, fun h => if_neg h⟩

/-- One computation after another. -/
theorem bind {f : α → Option β} {b : β} (h : Guards m fits result)
    (hf : Guards (f result) fits' b) : Guards (m >>= f) (fits ∧ fits') b := by
  constructor
  · rintro ⟨hm, hrest⟩
    rw [h.eq_some hm]
    exact hf.eq_some hrest
  · intro hnot
    by_cases hm : fits
    · rw [h.eq_some hm]
      exact hf.eq_none fun hrest => hnot ⟨hm, hrest⟩
    · rw [h.eq_none hm]
      rfl

/-- A computation, and what does not panic after it. -/
theorem bind_some (f : α → β) (h : Guards m fits result) :
    Guards (m >>= fun a => some (f a)) fits (f result) :=
  (h.bind (Guards.pure (f result))).congr (and_iff_left trivial)

/-- A function of what a computation gives. -/
theorem map (f : α → β) (h : Guards m fits result) : Guards (m.map f) fits (f result) :=
  ⟨fun hfits => by rw [h.eq_some hfits]; rfl, fun hfits => by rw [h.eq_none hfits]; rfl⟩

/-- A step that gives its result under a condition gives that of a run along it. -/
theorem foldlM {ι : Type} {checked : α → ι → Option α} {step : α → ι → α} {C : α → ι → Prop}
    (h : ∀ s i, Guards (checked s i) (C s i) (step s i)) (s : α) (is : List ι) :
    Guards (is.foldlM checked s) (Run.Along step C s is) (is.foldl step s) := by
  induction is generalizing s with
  | nil => exact .pure s
  | cons i is ih =>
    rw [List.foldlM_cons]
    exact (h s i).bind (ih (step s i))

end Guards

/-! ## Little-endian words -/

/-- The word that the first four bytes carry. -/
def u32FromLe (bytes : List UInt8) : ℕ :=
  (bytes.getD 0 0).toNat + 2^8 * (bytes.getD 1 0).toNat + 2^16 * (bytes.getD 2 0).toNat +
    2^24 * (bytes.getD 3 0).toNat

/-- The four bytes of a word. -/
def u32ToLe (n : ℕ) : List UInt8 :=
  [UInt8.ofNat n, UInt8.ofNat (n / 2^8), UInt8.ofNat (n / 2^16), UInt8.ofNat (n / 2^24)]

/-- A word has four bytes. -/
@[simp] theorem u32ToLe_length (n : ℕ) : (u32ToLe n).length = 4 := rfl

/-- What is read from bytes fits a word. -/
theorem u32FromLe_lt (bytes : List UInt8) : u32FromLe bytes < 2^32 := by
  unfold u32FromLe
  have h0 := (bytes.getD 0 0).toNat_lt
  have h1 := (bytes.getD 1 0).toNat_lt
  have h2 := (bytes.getD 2 0).toNat_lt
  have h3 := (bytes.getD 3 0).toNat_lt
  omega

/-- The bytes of a word carry it. -/
theorem u32FromLe_u32ToLe {n : ℕ} (h : n < 2^32) : u32FromLe (u32ToLe n) = n := by
  simp only [u32FromLe, u32ToLe, List.getD_cons_zero, List.getD_cons_succ, UInt8.toNat_ofNat']
  omega

end Launa.Checked
