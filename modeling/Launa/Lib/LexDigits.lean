import Mathlib.Data.Char
import Mathlib.Data.List.Lex
import Mathlib.Tactic.Ring
import Mathlib.Tactic.Linarith

/-!
# The order of decimal texts

Numbers of one width compare in the lexicographic order as they do in value (`digits_lt`). So do
the fractions of different widths, each without the zeros behind its last digits, if what follows
them begins with a character below the digits (`digits_append_lt`).
-/

namespace Launa.LexDigits

variable {α : Type*} [LinearOrder α]

/-- Two lists of one length that differ compare as they do whatever follows them. -/
theorem append_lt_append_of_lt {u v : List α} (hlen : u.length = v.length) (h : u < v)
    (s t : List α) : u ++ s < v ++ t := by
  induction u generalizing v with
  | nil =>
    obtain rfl := List.length_eq_zero_iff.1 hlen.symm
    exact absurd h (lt_irrefl _)
  | cons a u ih =>
    cases v with
    | nil => cases hlen
    | cons b v =>
      rw [List.cons_append, List.cons_append, List.cons_lt_cons_iff]
      rw [List.cons_lt_cons_iff] at h
      exact h.imp_right fun h => ⟨h.1, ih (Nat.succ.inj hlen) h.2⟩

/-- What follows a common beginning decides. -/
theorem append_lt_append_left (u : List α) {s t : List α} (h : s < t) : u ++ s < u ++ t := by
  induction u with
  | nil => exact h
  | cons a u ih => exact List.cons_lt_cons_iff.2 (.inr ⟨rfl, ih⟩)

/-! ## Digits -/

/-- A decimal digit. -/
def digit (n : ℕ) : Char := Char.ofNat ('0'.toNat + n)

/-- The last `k` decimal digits of a number. -/
def digits : ℕ → ℕ → List Char
  | 0, _ => []
  | k + 1, n => digits k (n / 10) ++ [digit (n % 10)]

/-- Digits are ordered as their values are. -/
theorem digit_lt_digit {a b : ℕ} (hab : a < b) (hb : b < 10) : digit a < digit b := by
  have hall : ∀ b < 10, ∀ a < b, digit a < digit b := by decide
  exact hall b hb a hab

/-- What comes before `0` comes before every digit. -/
theorem lt_digit {c : Char} (hc : c < '0') {n : ℕ} (hn : n < 10) : c < digit n := by
  have hall : ∀ n < 10, '0' ≤ digit n := by decide
  exact lt_of_lt_of_le hc (hall n hn)

/-- So many digits are written. -/
@[simp] theorem length_digits (k n : ℕ) : (digits k n).length = k := by
  induction k generalizing n with
  | zero => rfl
  | succ k ih => rw [digits, List.length_append, ih, List.length_singleton]

/-- Numbers of one width compare as their values do. -/
theorem digits_lt {k a b : ℕ} (hab : a < b) (hb : b < 10 ^ k) : digits k a < digits k b := by
  induction k generalizing a b with
  | zero => omega
  | succ k ih =>
    rw [digits, digits]
    have hpow : b / 10 < 10 ^ k := by
      rw [Nat.pow_succ] at hb
      omega
    rcases Nat.lt_or_ge (a / 10) (b / 10) with hlt | hge
    · exact append_lt_append_of_lt (by simp) (ih hlt hpow) _ _
    · have hsame : a / 10 = b / 10 := by omega
      have hlast : a % 10 < b % 10 := by omega
      rw [hsame]
      refine append_lt_append_left _ (List.cons_lt_cons_iff.2 (.inl ?_))
      exact digit_lt_digit hlast (Nat.mod_lt _ (by decide))

/-- The digits of a number are those of its first part and those of the rest. -/
theorem digits_add (j k n : ℕ) : digits (j + k) n = digits j (n / 10 ^ k) ++ digits k n := by
  induction k generalizing n with
  | zero => rw [Nat.add_zero, Nat.pow_zero, Nat.div_one, digits, List.append_nil]
  | succ k ih =>
    rw [← Nat.add_assoc, digits, ih, digits, List.append_assoc, Nat.div_div_eq_div_mul,
      Nat.pow_succ, Nat.mul_comm]

/-! ## Digits of two widths -/

/-- Digits are above a character below zero, whatever follows. -/
theorem cons_lt_digits_append {c : Char} (hc : c < '0') {k : ℕ} (hk : 0 < k) (n : ℕ)
    (s t : List Char) : c :: s < digits k n ++ t := by
  obtain ⟨j, rfl⟩ : ∃ j, k = 1 + j := ⟨k - 1, by omega⟩
  rw [digits_add, List.append_assoc]
  exact List.cons_lt_cons_iff.2 (.inl (lt_digit hc (Nat.mod_lt _ (by decide))))

/-- A fraction is below a greater one with more digits, if what follows the shorter one begins with
a character below the digits. -/
theorem digits_append_lt {k j a b : ℕ} (hab : a * 10 ^ j < b) (hb : b < 10 ^ (k + j)) {c : Char}
    (hc : c < '0') (s t : List Char) : digits k a ++ c :: s < digits (k + j) b ++ t := by
  have hle : a ≤ b / 10 ^ j := (Nat.le_div_iff_mul_le (by positivity)).2 hab.le
  have hpow : b / 10 ^ j < 10 ^ k := by
    rw [Nat.pow_add] at hb
    exact Nat.div_lt_of_lt_mul (by rwa [Nat.mul_comm])
  rw [digits_add, List.append_assoc]
  rcases hle.lt_or_eq with hlt | rfl
  · exact append_lt_append_of_lt (by simp) (digits_lt hlt hpow) _ _
  · refine append_lt_append_left _ (cons_lt_digits_append hc (Nat.pos_of_ne_zero ?_) _ _ _)
    rintro rfl
    rw [Nat.pow_zero, Nat.mul_one, Nat.div_one] at hab
    exact lt_irrefl _ hab

/-- A fraction is below a greater one with fewer digits. -/
theorem digits_append_lt_of_shorter {k j a b : ℕ} (hab : a < b * 10 ^ j) (hb : b < 10 ^ k)
    (s t : List Char) : digits (k + j) a ++ s < digits k b ++ t := by
  have hlt : a / 10 ^ j < b := (Nat.div_lt_iff_lt_mul (by positivity)).2 hab
  rw [digits_add, List.append_assoc]
  exact append_lt_append_of_lt (by simp) (digits_lt hlt hb) _ _

/-- The first of two fields of one width decides, unless it is the same. -/
theorem digits_append_lt_of_or {k a b : ℕ} (hb : b < 10 ^ k) {s t : List Char}
    (h : a < b ∨ a = b ∧ s < t) : digits k a ++ s < digits k b ++ t := by
  rcases h with hlt | ⟨rfl, hst⟩
  · exact append_lt_append_of_lt (by simp) (digits_lt hlt hb) _ _
  · exact append_lt_append_left _ hst

end Launa.LexDigits
