import Mathlib.Data.List.Basic
import Mathlib.Tactic.Common

/-!
# Counter mode and padding

A buffer of whole blocks, XORed with the key stream of a counter. The counter is only stepped, so
that a second pass from the same counter gives the buffer back (`ctr_ctr`), whatever the stream is.
-/

namespace Launa.BlockCipher

variable {κ : Type} {size : ℕ} {keystream : κ → List UInt8} {next : κ → κ}

/-- The first `blocks` blocks of a buffer, each XORed with the key stream of its counter. -/
def ctr (size : ℕ) (keystream : κ → List UInt8) (next : κ → κ) :
    ℕ → κ → List UInt8 → List UInt8
  | 0, _, buf => buf
  | blocks + 1, counter, buf =>
    List.zipWith (· ^^^ ·) (buf.take size) (keystream counter) ++
      ctr size keystream next blocks (next counter) (buf.drop size)

/-- A block that is XORed twice with the same bytes. -/
theorem zipWith_xor_zipWith_xor {bs ks : List UInt8} (h : bs.length ≤ ks.length) :
    List.zipWith (· ^^^ ·) (List.zipWith (· ^^^ ·) bs ks) ks = bs := by
  induction bs generalizing ks with
  | nil => rfl
  | cons b bs ih =>
    cases ks with
    | nil => exact absurd h (by simp)
    | cons k ks =>
      rw [List.zipWith_cons_cons, List.zipWith_cons_cons, ih (Nat.le_of_succ_le_succ h),
        UInt8.xor_assoc, UInt8.xor_self, UInt8.xor_zero]

variable {blocks : ℕ} {counter : κ} {buf : List UInt8}

/-- A block that is combined with its key stream keeps its length. -/
theorem length_block (hstream : ∀ c, (keystream c).length = size)
    (h : size * (blocks + 1) ≤ buf.length) :
    (List.zipWith (· ^^^ ·) (buf.take size) (keystream counter)).length = size := by
  have hsize : size ≤ buf.length := Nat.le_trans (Nat.le_mul_of_pos_right _ (Nat.succ_pos _)) h
  rw [List.length_zipWith, List.length_take, hstream]
  omega

/-- Counter mode keeps the length of the buffer. -/
theorem length_ctr (hstream : ∀ c, (keystream c).length = size)
    (h : size * blocks ≤ buf.length) :
    (ctr size keystream next blocks counter buf).length = buf.length := by
  induction blocks generalizing counter buf with
  | zero => rfl
  | succ blocks ih =>
    have hdrop : size * blocks ≤ (buf.drop size).length := by
      rw [Nat.mul_succ] at h
      rw [List.length_drop]
      omega
    have hsize : size ≤ buf.length := Nat.le_trans (Nat.le_mul_of_pos_right _ (Nat.succ_pos _)) h
    rw [ctr, List.length_append, length_block hstream h, ih hdrop, List.length_drop]
    omega

/-- The second pass from a counter undoes the first. -/
theorem ctr_ctr (hstream : ∀ c, (keystream c).length = size) (h : size * blocks ≤ buf.length) :
    ctr size keystream next blocks counter (ctr size keystream next blocks counter buf) = buf := by
  induction blocks generalizing counter buf with
  | zero => rfl
  | succ blocks ih =>
    have hdrop : size * blocks ≤ (buf.drop size).length := by
      rw [Nat.mul_succ] at h
      rw [List.length_drop]
      omega
    have hblock : (List.zipWith (· ^^^ ·) (buf.take size) (keystream counter)).length = size :=
      length_block hstream h
    have htake : (buf.take size).length ≤ (keystream counter).length := by
      rw [List.length_take, hstream]
      exact Nat.min_le_left _ _
    rw [ctr, ctr, List.take_left' hblock, List.drop_left' hblock, ih hdrop,
      zipWith_xor_zipWith_xor htake, List.take_append_drop]

end Launa.BlockCipher
