import Mathlib.Data.List.Induction
import Mathlib.Data.List.Rotate

/-!
# A ring buffer

A vector that grows up to a capacity and is then overwritten in a circle, the oldest entry first.
`drain` reads from the place that would be overwritten next, and empties the buffer. The buffer
holds the most recent entries (`recent`) of those pushed since it was empty, and `drain` gives them
out from the oldest to the newest (`Holds.drain`); it reads no entry out of range.
-/

namespace Launa.RingBuffer

variable {α : Type*}

/-- The vector, the place to write next and the number of entries. -/
structure RingVec (α : Type*) where
  entries : List α
  head : ℕ
  len : ℕ

/-- The empty ring. -/
def RingVec.empty : RingVec α := ⟨[], 0, 0⟩

/-- Append an entry while there is room, and then write it over the oldest one. -/
def RingVec.push (capacity : ℕ) (ring : RingVec α) (entry : α) : RingVec α :=
  if ring.len < capacity then
    let entries := ring.entries ++ [entry]
    ⟨entries, entries.length % capacity, entries.length⟩
  else
    ⟨if ring.head < ring.entries.length then ring.entries.set ring.head entry else ring.entries,
      (ring.head + 1) % capacity, ring.len⟩

/-- Take all entries out, in the order of the circle. It fails if it reads out of range. -/
def RingVec.drain (ring : RingVec α) : Option (List α × RingVec α) :=
  if ring.len = 0 then some ([], ring)
  else
    ((List.range (min ring.entries.length ring.len)).mapM fun i =>
      ring.entries[(ring.head + i) % ring.entries.length]?).map (·, .empty)

/-- The most recent entries, at most as many as the capacity. -/
def recent (capacity : ℕ) (xs : List α) : List α := xs.drop (xs.length - capacity)

/-- The ring holds some entries, from the oldest to the newest. -/
structure Holds (capacity : ℕ) (ring : RingVec α) (xs : List α) : Prop where
  len : ring.len = ring.entries.length
  le : ring.len ≤ capacity
  filling : ring.len < capacity → ring.head = ring.len
  full : ring.len = capacity → ring.head < capacity
  contents : xs = ring.entries.rotate ring.head

variable {capacity : ℕ} {ring : RingVec α} {xs ys : List α}

/-! ## The most recent entries -/

/-- As many are recent as there are, up to the capacity. -/
@[simp] theorem length_recent (capacity : ℕ) (xs : List α) :
    (recent capacity xs).length = min xs.length capacity := by
  rw [recent, List.length_drop]
  omega

/-- As long as there is room, all entries are recent. -/
theorem recent_of_le (h : xs.length ≤ capacity) : recent capacity xs = xs := by
  rw [recent, Nat.sub_eq_zero_of_le h, List.drop_zero]

/-- With no room left, a new entry takes the place of the oldest one. -/
theorem recent_concat (h : capacity ≤ xs.length) (x : α) (hpos : 0 < capacity) :
    recent capacity (xs ++ [x]) = (recent capacity xs).tail ++ [x] := by
  have hlen : (xs ++ [x]).length - capacity = xs.length - capacity + 1 := by
    rw [List.length_append, List.length_singleton]
    omega
  rw [recent, hlen, List.drop_append_of_le_length (by omega), recent, List.tail_drop]

/-! ## The ring -/

/-- The empty ring holds nothing. -/
theorem holds_empty (hpos : 0 < capacity) : Holds capacity (.empty : RingVec α) [] :=
  ⟨rfl, Nat.zero_le _, fun _ => rfl, fun _ => hpos, rfl⟩

/-- A ring has as many elements as it holds. -/
theorem Holds.length (h : Holds capacity ring xs) : xs.length = ring.len := by
  rw [h.contents, List.length_rotate, h.len]

/-- While there is room, the entries are in their order. -/
theorem Holds.entries (h : Holds capacity ring xs) (hlt : ring.len < capacity) :
    ring.entries = xs := by
  rw [h.contents, h.filling hlt, h.len, List.rotate_length]

/-- The entry at the place to write next is the oldest one. -/
theorem rotate_set {l : List α} {n : ℕ} (hn : n < l.length) (x : α) :
    (l.set n x).rotate ((n + 1) % l.length) = (l.rotate n).tail ++ [x] := by
  have hset : (l.set n x).rotate n = x :: (l.drop (n + 1) ++ l.take n) := by
    rw [List.rotate_eq_drop_append_take (by rw [List.length_set]; omega),
      List.take_set_of_le (Nat.le_refl n), List.drop_set, if_neg (Nat.lt_irrefl n), Nat.sub_self,
      List.drop_eq_getElem_cons hn, List.set_cons_zero, List.cons_append]
  have hrest : (l.rotate n).tail = l.drop (n + 1) ++ l.take n := by
    rw [List.rotate_eq_drop_append_take (Nat.le_of_lt hn), List.drop_eq_getElem_cons hn,
      List.cons_append, List.tail_cons]
  calc (l.set n x).rotate ((n + 1) % l.length)
      = ((l.set n x).rotate n).rotate 1 := by
        rw [List.rotate_rotate, ← List.rotate_mod (l.set n x) (n + 1), List.length_set]
    _ = (l.rotate n).tail ++ [x] := by
        rw [hset, hrest]
        simp

/-- A push keeps the most recent entries. -/
theorem Holds.push (hpos : 0 < capacity) (h : Holds capacity ring (recent capacity ys)) (x : α) :
    Holds capacity (ring.push capacity x) (recent capacity (ys ++ [x])) := by
  have hlength := h.length
  rw [length_recent] at hlength
  unfold RingVec.push
  by_cases hlt : ring.len < capacity
  · have hys : ys.length < capacity := by omega
    have hentries : ring.entries = ys := by
      rw [h.entries hlt, recent_of_le (Nat.le_of_lt hys)]
    rw [if_pos hlt, hentries,
      recent_of_le (by rw [List.length_append, List.length_singleton]; omega)]
    have hlen : (ys ++ [x]).length ≤ capacity := by
      rw [List.length_append, List.length_singleton]
      omega
    refine ⟨rfl, hlen, fun hroom => Nat.mod_eq_of_lt hroom, fun _ => Nat.mod_lt _ hpos, ?_⟩
    dsimp only
    rcases Nat.lt_or_eq_of_le hlen with hroom | hfull
    · rw [Nat.mod_eq_of_lt hroom, List.rotate_length]
    · rw [hfull, Nat.mod_self, List.rotate_zero]
  · have hfull : ring.len = capacity := Nat.le_antisymm h.le (Nat.not_lt.1 hlt)
    have hentries : ring.entries.length = capacity := h.len.symm.trans hfull
    have hhead : ring.head < ring.entries.length := hentries ▸ h.full hfull
    rw [if_neg hlt, if_pos hhead, recent_concat (by omega) x hpos]
    refine ⟨?_, h.le, fun hroom => absurd hroom hlt, fun _ => Nat.mod_lt _ hpos, ?_⟩
    · rw [List.length_set]
      exact h.len
    · rw [h.contents, ← rotate_set hhead, hentries]

/-- A traversal depends on what its function does at the elements of the list only. -/
theorem mapM_congr_mem {ι : Type*} {f g : ι → Option α} {is : List ι} (h : ∀ i ∈ is, f i = g i) :
    is.mapM f = is.mapM g := by
  induction is with
  | nil => rfl
  | cons i is ih =>
    rw [List.mapM_cons, List.mapM_cons, h i List.mem_cons_self,
      ih fun j hj => h j (List.mem_cons_of_mem i hj)]

/-- Reading a list by index gives the list. -/
theorem mapM_getElem?_range (xs : List α) :
    (List.range xs.length).mapM (fun i => xs[i]?) = some xs := by
  induction xs using List.reverseRecOn with
  | nil => rfl
  | append_singleton xs x ih =>
    have hbefore : (List.range xs.length).mapM (fun i => (xs ++ [x])[i]?) = some xs := by
      rw [← ih]
      refine mapM_congr_mem fun i hi => ?_
      exact List.getElem?_append_left (List.mem_range.1 hi)
    rw [List.length_append, List.length_singleton, List.range_succ, List.mapM_append, hbefore]
    simp

/-- Draining gives out what the ring holds, and leaves it empty. -/
theorem Holds.drain (hpos : 0 < capacity) (h : Holds capacity ring xs) :
    ring.drain = some (xs, .empty) := by
  obtain ⟨entries, head, len⟩ := ring
  obtain rfl : len = entries.length := h.len
  unfold RingVec.drain
  dsimp only
  by_cases hzero : entries.length = 0
  · -- An empty ring is left as it is.
    obtain rfl : entries = [] := List.eq_nil_of_length_eq_zero hzero
    obtain rfl : head = 0 := h.filling hpos
    rw [if_pos hzero, h.contents]
    rfl
  · have hread : ∀ i ∈ List.range entries.length,
        entries[(head + i) % entries.length]? = xs[i]? := fun i hi => by
      rw [h.contents, List.getElem?_rotate (List.mem_range.1 hi), Nat.add_comm]
    have hlength : entries.length = xs.length := h.length.symm
    rw [if_neg hzero, Nat.min_self, mapM_congr_mem hread, hlength, mapM_getElem?_range]
    rfl

end Launa.RingBuffer
