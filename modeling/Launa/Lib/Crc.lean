import Mathlib.Data.List.GetD
import Mathlib.Logic.Function.Iterate
import Mathlib.Tactic.Common

/-!
# Cyclic redundancy registers

A register of `w` bits takes the bits of a message at its top, and adds its generator whenever the
bit that leaves differs from the one that comes. All of this is linear (`feed_xor`), so what two
messages leave differs by what their difference leaves in an empty register. With an odd generator a
register forgets nothing (`feed_inj`), and it cannot come back to zero within `w` bits unless they
are the ones it held (`getMsbD_of_feed_eq_zero`). So two messages that differ inside a window of `w`
bits leave different registers (`Burst.feed_ne`).

A register of the usual code adds a whole word and shifts it out. That is the same as taking the
bits of the word one by one, the most significant first (`iterate_shift_xor`).
-/

namespace Launa.Crc

/-! ## Bursts -/

/-- Two bit strings of one length that differ, and only inside a window of `n` consecutive bits. -/
structure Burst (n : ℕ) (xs ys : List Bool) : Prop where
  length_eq : xs.length = ys.length
  ne : xs ≠ ys
  window : ∃ start, ∀ i, i < start ∨ start + n ≤ i → xs[i]? = ys[i]?

/-- Around the window of a burst the two strings are the same. -/
theorem Burst.split {n : ℕ} {xs ys : List Bool} (h : Burst n xs ys) :
    ∃ before mid mid' after, xs = before ++ (mid ++ after) ∧ ys = before ++ (mid' ++ after) ∧
      mid.length = mid'.length ∧ mid.length ≤ n ∧ mid ≠ mid' := by
  obtain ⟨start, hwindow⟩ := h.window
  have hbefore : xs.take start = ys.take start := by
    apply List.ext_getElem?
    intro i
    by_cases hi : i < start
    · rw [List.getElem?_take_of_lt hi, List.getElem?_take_of_lt hi, hwindow i (.inl hi)]
    · rw [List.getElem?_take_eq_none (by omega), List.getElem?_take_eq_none (by omega)]
  have hafter : xs.drop (start + n) = ys.drop (start + n) := by
    apply List.ext_getElem?
    intro i
    rw [List.getElem?_drop, List.getElem?_drop, hwindow _ (.inr (by omega))]
  have hxs : xs = xs.take start ++ ((xs.drop start).take n ++ xs.drop (start + n)) := by
    rw [← List.drop_drop, List.take_append_drop, List.take_append_drop]
  have hys : ys = xs.take start ++ ((ys.drop start).take n ++ xs.drop (start + n)) := by
    rw [hbefore, hafter, ← List.drop_drop, List.take_append_drop, List.take_append_drop]
  refine ⟨_, _, _, _, hxs, hys, ?_, List.length_take_le _ _, ?_⟩
  · rw [List.length_take, List.length_take, List.length_drop, List.length_drop, h.length_eq]
  · intro hmid
    apply h.ne
    rw [hxs, hys, hmid]

/-! ## The register -/

variable {w : ℕ} (poly : BitVec w)

/-- One bit of the message. -/
def step (r : BitVec w) (b : Bool) : BitVec w := r <<< 1 ^^^ if r.msb ^^ b then poly else 0

/-- The bits of a message. -/
def feed (r : BitVec w) (bits : List Bool) : BitVec w := bits.foldl (step poly) r

/-- No bits leave the register as it is. -/
@[simp] theorem feed_nil (r : BitVec w) : feed poly r [] = r := rfl

/-- The first bit is fed first. -/
@[simp] theorem feed_cons (r : BitVec w) (b : Bool) (bits : List Bool) :
    feed poly r (b :: bits) = feed poly (step poly r b) bits := rfl

/-- The bits of two strings are fed one after the other. -/
theorem feed_append (r : BitVec w) (xs ys : List Bool) :
    feed poly r (xs ++ ys) = feed poly (feed poly r xs) ys := List.foldl_append

/-- One bit is linear in the register and the bit. -/
theorem step_xor (r s : BitVec w) (a b : Bool) :
    step poly r a ^^^ step poly s b = step poly (r ^^^ s) (a ^^ b) := by
  -- What the generator is added for is the exclusive or of the two reasons.
  have hgen : ∀ p q : Bool, ((if p then poly else 0) ^^^ if q then poly else 0) =
      if p ^^ q then poly else 0 := by
    intro p q
    cases p <;> cases q <;> simp
  have hbits : ((r.msb ^^ a) ^^ (s.msb ^^ b)) = ((r ^^^ s).msb ^^ (a ^^ b)) := by
    rw [BitVec.msb_xor]
    cases r.msb <;> cases s.msb <;> simp
  calc step poly r a ^^^ step poly s b
      = (r <<< 1 ^^^ s <<< 1) ^^^
          ((if r.msb ^^ a then poly else 0) ^^^ if s.msb ^^ b then poly else 0) := by
        unfold step
        ac_rfl
    _ = step poly (r ^^^ s) (a ^^ b) := by
        rw [hgen, hbits, ← BitVec.shiftLeft_xor_distrib]
        rfl

/-- A message is linear in the register and its bits. -/
theorem feed_xor {xs ys : List Bool} (hlen : xs.length = ys.length) (r s : BitVec w) :
    feed poly r xs ^^^ feed poly s ys = feed poly (r ^^^ s) (List.zipWith xor xs ys) := by
  induction xs generalizing ys r s with
  | nil =>
    obtain rfl := List.length_eq_zero_iff.1 hlen.symm
    rfl
  | cons a xs ih =>
    obtain ⟨b, ys, rfl⟩ := List.exists_cons_of_length_eq_add_one hlen.symm
    rw [feed_cons, feed_cons, ih (Nat.succ.inj hlen), step_xor]
    rfl

variable {poly} (hodd : poly.getLsbD 0 = true)
include hodd

/-- The lowest bit tells whether the generator was added. -/
theorem getLsbD_step (r : BitVec w) (b : Bool) : (step poly r b).getLsbD 0 = (r.msb ^^ b) := by
  have hshift : (r <<< 1).getLsbD 0 = false := by
    rw [BitVec.getLsbD_shiftLeft]
    simp
  unfold step
  rw [BitVec.getLsbD_xor, hshift, Bool.false_xor]
  cases r.msb ^^ b
  · simp
  · simpa using hodd

/-- A register that is zero after at most `w` bits held them, and nothing else. -/
theorem getMsbD_of_feed_eq_zero {bits : List Bool} (hlen : bits.length ≤ w) {r : BitVec w}
    (h : feed poly r bits = 0) (i : ℕ) (hi : i < w) : r.getMsbD i = bits.getD i false := by
  induction bits generalizing r i with
  | nil =>
    rw [feed_nil] at h
    simp [h]
  | cons b bits ih =>
    rw [List.length_cons] at hlen
    have hrest := ih (by omega) h
    -- The rest is too short to reach the lowest bit, so the generator was not added.
    have hlow : (r.msb ^^ b) = false := by
      rw [← getLsbD_step hodd r b, BitVec.getLsbD_eq_getMsbD, hrest _ (by omega),
        List.getD_eq_default _ _ (by omega), Bool.and_false]
    have hstep : step poly r b = r <<< 1 := by
      unfold step
      rw [hlow]
      simp
    cases i with
    | zero =>
      rw [← BitVec.msb_eq_getMsbD_zero, List.getD_cons_zero]
      simpa using hlow
    | succ i =>
      rw [List.getD_cons_succ, ← hrest i (by omega), hstep, BitVec.getMsbD_shiftLeft]

/-- A message of at most `w` bits that leaves an empty register empty has no bit set. -/
theorem eq_replicate_of_feed_eq_zero {bits : List Bool} (hlen : bits.length ≤ w)
    (h : feed poly 0 bits = 0) : bits = List.replicate bits.length false := by
  apply List.eq_replicate_of_mem
  intro b hb
  obtain ⟨i, hi, rfl⟩ := List.mem_iff_getElem.1 hb
  calc bits[i] = bits.getD i false := (List.getD_eq_getElem _ _ hi).symm
    _ = (0 : BitVec w).getMsbD i := (getMsbD_of_feed_eq_zero hodd hlen h i (by omega)).symm
    _ = false := by simp

/-- A bit leaves different registers different. -/
theorem step_inj {r s : BitVec w} {b : Bool} (h : step poly r b = step poly s b) : r = s := by
  have hbits : feed poly (r ^^^ s) [false] = 0 := by
    calc feed poly (r ^^^ s) [false] = step poly (r ^^^ s) (b ^^ b) := by
          rw [feed_cons, feed_nil, Bool.xor_self]
      _ = step poly r b ^^^ step poly s b := (step_xor poly r s b b).symm
      _ = 0 := by rw [h, BitVec.xor_self]; rfl
  have hzero : r ^^^ s = 0#w := by
    apply BitVec.eq_of_getMsbD_eq
    intro i hi
    rw [getMsbD_of_feed_eq_zero hodd (by rw [List.length_singleton]; omega) hbits i hi]
    cases i <;> simp
  exact BitVec.xor_eq_zero_iff.1 hzero

/-- A message leaves different registers different. -/
theorem feed_inj {r s : BitVec w} {bits : List Bool} (h : feed poly r bits = feed poly s bits) :
    r = s := by
  induction bits generalizing r s with
  | nil => exact h
  | cons b bits ih => exact step_inj hodd (ih h)

/-- A burst of at most `w` bits changes what a message leaves in the register. -/
theorem Burst.feed_ne {xs ys : List Bool} (h : Burst w xs ys) (r : BitVec w) :
    feed poly r xs ≠ feed poly r ys := by
  obtain ⟨before, mid, mid', after, rfl, rfl, hlen, hle, hne⟩ := h.split
  intro heq
  rw [feed_append, feed_append, feed_append, feed_append] at heq
  have hmid := feed_inj hodd heq
  have hzero : feed poly 0 (List.zipWith xor mid mid') = 0 := by
    have hxor := feed_xor poly hlen (feed poly r before) (feed poly r before)
    rw [hmid, BitVec.xor_self, BitVec.xor_self] at hxor
    exact hxor.symm
  have hwidth : (List.zipWith xor mid mid').length ≤ w := by
    rw [List.length_zipWith]
    omega
  have hall := eq_replicate_of_feed_eq_zero hodd hwidth hzero
  apply hne
  apply List.ext_getElem hlen
  intro i hi hi'
  have hbit : (mid[i] ^^ mid'[i]) = false := by
    have hget := congrArg (fun bits => bits[i]?) hall
    rw [List.getElem?_replicate, List.getElem?_zipWith, List.getElem?_eq_getElem hi,
      List.getElem?_eq_getElem hi'] at hget
    rw [List.length_zipWith, if_pos (by omega)] at hget
    exact Option.some.inj hget
  simpa using hbit

omit hodd

/-! ## Whole words -/

variable (poly)

/-- One shift of a register that a word was added to. -/
def shift (r : BitVec w) : BitVec w := if r.msb then r <<< 1 ^^^ poly else r <<< 1

/-- The first `n` bits of a word, the most significant first. -/
def topBits (n : ℕ) (word : BitVec w) : List Bool := (List.range n).map word.getMsbD

/-- The top bits of a word are its highest bit and those of the shifted word. -/
theorem topBits_succ (n : ℕ) (word : BitVec w) :
    topBits (n + 1) word = word.msb :: topBits n (word <<< 1) := by
  unfold topBits
  rw [List.range_succ_eq_map, List.map_cons, List.map_map, ← BitVec.msb_eq_getMsbD_zero]
  congr 2
  funext i
  exact (BitVec.getMsbD_shiftLeft word 1).symm

/-- A shift takes the top bit of the word, and leaves the others added. -/
theorem shift_xor (r word : BitVec w) :
    shift poly (r ^^^ word) = step poly r word.msb ^^^ word <<< 1 := by
  unfold shift step
  rw [BitVec.msb_xor, BitVec.shiftLeft_xor_distrib]
  split
  · ac_rfl
  · rw [BitVec.ofNat_eq_ofNat, BitVec.xor_zero]

/-- So `n` shifts take the first `n` bits of the word. -/
theorem iterate_shift_xor (n : ℕ) (r word : BitVec w) :
    (shift poly)^[n] (r ^^^ word) = feed poly r (topBits n word) ^^^ word <<< n := by
  induction n generalizing r word with
  | zero => rw [BitVec.shiftLeft_zero]; rfl
  | succ n ih =>
    calc (shift poly)^[n + 1] (r ^^^ word)
        = (shift poly)^[n] (step poly r word.msb ^^^ word <<< 1) := by
          rw [Function.iterate_succ_apply, shift_xor]
      _ = feed poly r (topBits (n + 1) word) ^^^ word <<< (n + 1) := by
          rw [ih, topBits_succ, feed_cons, ← BitVec.shiftLeft_add, Nat.add_comm 1 n]

end Launa.Crc
