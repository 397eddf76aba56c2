import Launa.EspOta.Flash

/-!
# The otadata slots

What the otadata partition is for, without its bytes: two slots, one for each partition, each empty
or holding a sequence number. The highest number selects the partition that boots
(`Slots.selected`), and switching the boot partition is a short list of slot writes (`Slots.plan`).
`Otadata.lean` shows that the flash code refines this model.

`plan_eq` gives the plan in closed form: the requested partition's slot gets the first number above
both slots that maps to it, and an empty other slot the number below that one, except that on slots
without a number above 0 it gets its own index plus one.
-/

namespace Launa.EspOta

open Checked

/-- The partition that is not `p`. -/
def Partition.other : Partition → Partition
  | .ota0 => .ota1
  | .ota1 => .ota0

/-- The other of the other partition is the partition. -/
@[simp] theorem Partition.other_other (p : Partition) : p.other.other = p := by cases p <;> rfl

/-- The other partition is another one. -/
@[simp] theorem Partition.other_ne (p : Partition) : p.other ≠ p := by cases p <;> decide

/-- A partition is not the other one. -/
@[simp] theorem Partition.ne_other (p : Partition) : p ≠ p.other := by cases p <;> decide

/-- There are two partitions. -/
theorem Partition.index_lt (p : Partition) : p.index < 2 := by cases p <;> decide

/-- The other partition has the other index. -/
theorem Partition.index_other (p : Partition) : p.other.index = 1 - p.index := by cases p <;> rfl

/-- Every partition is `p` or the other one. -/
theorem Partition.eq_or_eq_other (p q : Partition) : q = p ∨ q = p.other := by
  cases p <;> cases q <;> simp [Partition.other]

/-- The slots: the sequence number of each valid one, by the partition of its index. -/
abbrev Slots := Partition → Option ℕ

/-- The partition that a positive sequence number maps to. -/
def partitionOf (seq : ℕ) : Partition := if (seq - 1) % 2 = 0 then .ota0 else .ota1

/-- A number belongs to the partition with its parity. -/
theorem partitionOf_eq_iff {seq : ℕ} {p : Partition} :
    partitionOf seq = p ↔ (seq - 1) % 2 = p.index := by
  unfold partitionOf
  have := Nat.mod_two_eq_zero_or_one (seq - 1)
  cases p <;> split <;> simp [Partition.index] <;> omega

/-- The partition that boots when `seq` is the highest number: `Ota0` for 0. -/
def bootOf (seq : ℕ) : Partition := if seq = 0 then .ota0 else partitionOf seq

/-- A number above zero boots the partition with its parity. -/
theorem bootOf_of_pos {seq : ℕ} {p : Partition} (h : 0 < seq) :
    bootOf seq = p ↔ (seq - 1) % 2 = p.index := by
  rw [bootOf, if_neg (by omega), partitionOf_eq_iff]

/-- What a slot holds after a sequence number is written to it: the erased number is not valid. -/
def stored (seq : ℕ) : Option ℕ := if seq = 0xFFFFFFFF then none else some seq

/-- A number below the last is stored as it is. -/
theorem stored_of_lt {seq : ℕ} (h : seq < 0xFFFFFFFF) : stored seq = some seq :=
  if_neg (by omega)

namespace Slots

variable (s : Slots) (p : Partition)

/-- A slot's number, with an empty slot's as 0. -/
def seq : ℕ := (s p).getD 0

/-- The highest number. -/
def maxSeq : ℕ := max (s.seq .ota0) (s.seq .ota1)

/-- The partition that boots: the one that the highest number maps to, and `Ota0` without one. -/
def selected : Partition := bootOf s.maxSeq

/-- The slots after `w.2` is written to the slot of `w.1`. -/
def write (w : Partition × ℕ) : Slots := Function.update s w.1 (stored w.2)

/-- The slots after the sector of `p`'s slot is erased. -/
def erase : Slots := Function.update s p none

/-- The slots at each point of erasing and writing the slots of a list of writes. -/
def visited (s : Slots) : List (Partition × ℕ) → List Slots
  | [] => [s]
  | w :: ws => s :: s.erase w.1 :: visited (s.write w) ws

/-- The slot writes that make `p` the boot partition, or `none` when the numbers overflow. -/
def plan : Option (List (Partition × ℕ)) := do
  let newSeq ← nextSeq p.index s.maxSeq
  if (s p.other).isSome then
    some [(p, newSeq)]
  else do
    let otherSeq ← seedSeq p.other.index s.maxSeq newSeq
    some [(p, newSeq), (p.other, otherSeq)]

/-- The slots hold numbers that `u32` can, and none is the erased one. -/
def InRange : Prop := ∀ p n, s p = some n → n < 0xFFFFFFFF

variable {s p}

/-- The highest number is that of one of the two slots. -/
theorem maxSeq_eq : s.maxSeq = max (s.seq p) (s.seq p.other) := by
  cases p
  · rfl
  · exact Nat.max_comm _ _

/-- No slot has a number above the highest. -/
theorem seq_le_maxSeq : s.seq p ≤ s.maxSeq := by
  rw [maxSeq_eq (p := p)]
  exact Nat.le_max_left _ _

/-- In range no slot has the last number. -/
theorem InRange.seq_lt (h : s.InRange) (p : Partition) : s.seq p < 0xFFFFFFFF := by
  unfold seq
  cases hp : s p with
  | none => simp
  | some n => simpa using h p n hp

/-- In range the highest number is below the last. -/
theorem InRange.maxSeq_lt (h : s.InRange) : s.maxSeq < 0xFFFFFFFF :=
  Nat.max_lt.2 ⟨h.seq_lt _, h.seq_lt _⟩

/-- The slot that is written has the new number. -/
@[simp] theorem write_self (w : Partition × ℕ) : s.write w w.1 = stored w.2 :=
  Function.update_self ..

/-- A write leaves the other slot alone. -/
@[simp] theorem write_other (w : Partition × ℕ) : s.write w w.1.other = s w.1.other :=
  Function.update_of_ne (Partition.other_ne _) ..

/-- The slot that is erased is empty. -/
@[simp] theorem erase_self : s.erase p p = none := Function.update_self ..

/-- Erasing leaves the other slot alone. -/
@[simp] theorem erase_other : s.erase p p.other = s p.other :=
  Function.update_of_ne (Partition.other_ne _) ..

end Slots

/-! ## The numbers of the plan -/

/-- The search goes up by at most one. -/
theorem searchUp_eq {t m : ℕ} (ht : t < 2) (hm : m + 1 < 2^32) :
    searchUp t (m + 1) =
      if m % 2 = t then some (m + 1) else if m + 2 < 2^32 then some (m + 2) else none := by
  have hsub : ∀ c, sub32 (c + 1) 1 = some c := fun c => by simp [sub32]
  rw [searchUp, hsub]
  simp only [ne_eq, ite_not]
  split
  · rfl
  · rename_i hne
    split
    · rename_i hov
      rw [add32_eq_none] at hov
      rw [if_neg (by omega)]
    · rename_i next hadd
      obtain ⟨hlt, rfl⟩ := add32_eq_some.1 hadd
      rw [if_pos (by omega), searchUp, hsub]
      -- The parity flips, so the second candidate maps to the target.
      simp only [ne_eq, ite_not]
      rw [if_pos (by omega)]

/-- The new number is the first one above `m` that maps to the target. -/
theorem nextSeq_eq {t m : ℕ} (ht : t < 2) (hm : m < 0xFFFFFFFF) :
    nextSeq t m =
      if m % 2 = t then some (m + 1) else if m + 2 < 2^32 then some (m + 2) else none := by
  unfold nextSeq
  by_cases h0 : m = 0
  · subst h0
    rcases (by omega : t = 0 ∨ t = 1) with rfl | rfl <;> rfl
  · have hadd : add32 m 1 = some (m + 1) := add32_of_lt (by omega)
    rw [if_neg h0, hadd]
    exact searchUp_eq ht (by omega)

/-- The new number, when it does not overflow, is above `m` by at most two and maps to the
target. -/
theorem nextSeq_some {t m n : ℕ} (ht : t < 2) (hm : m < 0xFFFFFFFF) (h : nextSeq t m = some n) :
    m < n ∧ n ≤ m + 2 ∧ n < 2^32 ∧ (n - 1) % 2 = t := by
  rw [nextSeq_eq ht hm] at h
  split at h
  · cases h; omega
  · split at h
    · cases h; omega
    · cases h

/-- The new number overflows only past the highest number that a slot can hold. -/
theorem nextSeq_eq_none {t m : ℕ} (ht : t < 2) (hm : m < 0xFFFFFFFF) :
    nextSeq t m = none ↔ t = 1 ∧ m = 0xFFFFFFFE := by
  rw [nextSeq_eq ht hm]
  split
  · simp; omega
  · split <;> simp <;> omega

/-- The seed is the number below the new one, and on slots without a number above 0 the slot's index
plus one. -/
theorem seedSeq_eq {t m n : ℕ} (ht : t < 2) (hm : m < n) (hn : (n - 1) % 2 = t) :
    seedSeq (1 - t) m n = some (if m = 0 then 1 - t + 1 else n - 1) := by
  unfold seedSeq
  by_cases h0 : m = 0
  · simp [h0]
  · obtain ⟨k, rfl⟩ : ∃ k, n = k + 2 := ⟨n - 2, by omega⟩
    have hsub : sub32 (k + 2) 1 = some (k + 1) := by simp [sub32]
    have hdown : searchDown (1 - t) (k + 1) = k + 1 := by
      rw [searchDown, if_neg]
      simp only [not_not]
      omega
    simp [h0, hsub, hdown]

/-- The plan in closed form, when the new number is `n`. -/
theorem Slots.plan_eq {s : Slots} {p : Partition} {n : ℕ} (hs : s.InRange)
    (h : nextSeq p.index s.maxSeq = some n) :
    s.plan p = some (if (s p.other).isSome then [(p, n)]
      else [(p, n), (p.other, if s.maxSeq = 0 then p.other.index + 1 else n - 1)]) := by
  obtain ⟨hlt, -, -, hmod⟩ := nextSeq_some p.index_lt hs.maxSeq_lt h
  have hseed := seedSeq_eq p.index_lt hlt hmod
  rw [← Partition.index_other] at hseed
  unfold Slots.plan
  rw [h]
  simp only [Option.bind_eq_bind, Option.bind_some, hseed]
  split <;> rfl

/-- The plan overflows only when `Ota1` is requested above the highest number that a slot can
hold. -/
theorem Slots.plan_eq_none {s : Slots} {p : Partition} (hs : s.InRange) :
    s.plan p = none ↔ p = .ota1 ∧ s.maxSeq = 0xFFFFFFFE := by
  have hnone := nextSeq_eq_none p.index_lt hs.maxSeq_lt
  have hp : p.index = 1 ↔ p = .ota1 := by cases p <;> simp [Partition.index]
  rw [hp] at hnone
  rw [← hnone]
  cases h : nextSeq p.index s.maxSeq with
  | none => simp [Slots.plan, h]
  | some n => simp [Slots.plan_eq hs h]

/-- The plan, when there is one, gives the requested partition the new number. -/
theorem Slots.plan_some {s : Slots} {p : Partition} {ws : List (Partition × ℕ)} (hs : s.InRange)
    (h : s.plan p = some ws) :
    ∃ n, nextSeq p.index s.maxSeq = some n ∧
      ws = if (s p.other).isSome then [(p, n)]
        else [(p, n), (p.other, if s.maxSeq = 0 then p.other.index + 1 else n - 1)] := by
  cases hn : nextSeq p.index s.maxSeq with
  | none => simp [Slots.plan, hn] at h
  | some n =>
    rw [Slots.plan_eq hs hn, Option.some.injEq] at h
    exact ⟨n, rfl, h.symm⟩

/-- The numbers of a plan are ones that `u32` holds. -/
theorem Slots.plan_lt {s : Slots} {p : Partition} {ws : List (Partition × ℕ)} (hs : s.InRange)
    (h : s.plan p = some ws) : ∀ w ∈ ws, w.2 < 2^32 := by
  obtain ⟨n, hn, rfl⟩ := Slots.plan_some hs h
  obtain ⟨-, -, hlt, -⟩ := nextSeq_some p.index_lt hs.maxSeq_lt hn
  have ho : p.other.index + 1 < 2^32 := by have := p.other.index_lt; omega
  intro w hw
  split at hw
  · rw [List.mem_singleton] at hw
    exact hw ▸ hlt
  · simp only [List.mem_cons, List.not_mem_nil, or_false] at hw
    rcases hw with rfl | rfl
    · exact hlt
    · dsimp only
      split <;> omega

end Launa.EspOta
