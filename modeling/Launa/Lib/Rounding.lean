import Mathlib.Algebra.Order.Floor.Semiring
import Mathlib.Data.Rat.Floor
import Mathlib.Tactic.Linarith
import Mathlib.Tactic.Positivity
import Mathlib.Tactic.Ring
import Mathlib.Tactic.FieldSimp

/-!
# Rounding to binary floating point

A number is rounded to the nearest one with `p + 1` significant bits that is a multiple of `2^-q`,
and to the one with the even significand between two that are as near (`nearest`). That is monotone
(`nearest_mono`), and leaves what has so few bits (`nearest_of_bits`). A `Rounding` is any function
with these two properties: `binary32` and `binary64` are those of the two formats, without their
largest exponents, and `exact` rounds nothing. A rounded number that is neither small nor large has
its first bit at some place and the others below it (`Normal`), so that doubling it and adding a
half keep what matters of it.
-/

namespace Launa

/-- A way to round rational numbers: it is monotone, and leaves the numbers of 24 bits. -/
structure Rounding where
  round : ℚ → ℚ
  mono : Monotone round
  bits : ∀ n k : ℕ, n < 2^24 → k ≤ 149 → round (n / 2^k) = n / 2^k

namespace Rounding

/-- No rounding. -/
def exact : Rounding := ⟨id, monotone_id, fun _ _ _ _ => rfl⟩

/-- Exact arithmetic rounds nothing. -/
theorem exact_round (x : ℚ) : exact.round x = x := rfl

section Bounds

variable (r : Rounding) {n k : ℕ} {x : ℚ}

/-- What is at most a number of 24 bits is rounded to at most it. -/
theorem round_le (hn : n < 2^24) (hk : k ≤ 149) (h : x ≤ n / 2^k) : r.round x ≤ n / 2^k :=
  r.bits n k hn hk ▸ r.mono h

/-- What is at least a number of 24 bits is rounded to at least it. -/
theorem le_round (hn : n < 2^24) (hk : k ≤ 149) (h : n / 2^k ≤ x) : n / 2^k ≤ r.round x :=
  r.bits n k hn hk ▸ r.mono h

end Bounds

/-! ## To the nearest integer, ties to even -/

/-- The nearest integer, and the even one of two. -/
def halfEven (y : ℚ) : ℤ :=
  if y - ⌊y⌋ < 1 / 2 then ⌊y⌋
  else if 1 / 2 < y - ⌊y⌋ then ⌊y⌋ + 1
  else if ⌊y⌋ % 2 = 0 then ⌊y⌋
  else ⌊y⌋ + 1

/-- A whole number is its own rounding. -/
theorem halfEven_intCast (n : ℤ) : halfEven n = n := by
  have hfloor : ⌊(n : ℚ)⌋ = n := Int.floor_intCast n
  rw [halfEven, hfloor, sub_self, if_pos (by norm_num)]

/-- Rounding goes no further down than the floor. -/
theorem floor_le_halfEven (y : ℚ) : ⌊y⌋ ≤ halfEven y := by
  unfold halfEven
  split_ifs <;> omega

/-- Rounding goes up by less than one. -/
theorem halfEven_le_floor (y : ℚ) : halfEven y ≤ ⌊y⌋ + 1 := by
  unfold halfEven
  split_ifs <;> omega

/-- Rounding to whole numbers keeps the order. -/
theorem halfEven_mono {y y' : ℚ} (h : y ≤ y') : halfEven y ≤ halfEven y' := by
  rcases (Int.floor_le_floor h).lt_or_eq with hlt | heq
  · calc halfEven y ≤ ⌊y⌋ + 1 := halfEven_le_floor y
      _ ≤ ⌊y'⌋ := hlt
      _ ≤ halfEven y' := floor_le_halfEven y'
  · have hdist : y - ⌊y⌋ ≤ y' - ⌊y'⌋ := by
      rw [heq]
      exact sub_le_sub_right h _
    by_cases hbelow : y - ⌊y⌋ < 1 / 2
    · rw [halfEven, if_pos hbelow, heq]
      exact floor_le_halfEven y'
    · -- The second one is not below the half either, and is above it if the first one is.
      have hbelow' : ¬ y' - ⌊y'⌋ < 1 / 2 := fun h' => hbelow (hdist.trans_lt h')
      rw [halfEven, halfEven, if_neg hbelow, if_neg hbelow', heq]
      by_cases habove : 1 / 2 < y' - ⌊y'⌋
      · rw [if_pos habove]
        split_ifs <;> omega
      · have habove' : ¬ 1 / 2 < y - ⌊y'⌋ := fun h' => habove ((heq ▸ h').trans_le hdist)
        rw [if_neg habove, if_neg habove']

/-! ## To the nearest number with few bits -/

/-- The exponent of the last of `p + 1` bits. -/
def lastBit (p : ℕ) (y : ℚ) : ℕ := Nat.log2 ⌊y⌋₊ - p

/-- The nearest number that is not negative. -/
def nearestUnits (p : ℕ) (y : ℚ) : ℚ := halfEven (y / 2^lastBit p y) * 2^lastBit p y

/-- The nearest number. -/
def nearest (p q : ℕ) (x : ℚ) : ℚ :=
  if x < 0 then -(nearestUnits p (-x * 2^q) / 2^q) else nearestUnits p (x * 2^q) / 2^q

variable {p q : ℕ} {y y' : ℚ}

/-- A larger number has no smaller last bit. -/
theorem lastBit_mono (h : y ≤ y') : lastBit p y ≤ lastBit p y' := by
  refine Nat.sub_le_sub_right ?_ p
  have hfloor : ⌊y⌋₊ ≤ ⌊y'⌋₊ := Nat.floor_le_floor h
  rcases Nat.eq_zero_or_pos ⌊y⌋₊ with hzero | hpos
  · rw [hzero]
    exact Nat.zero_le _
  · exact (Nat.le_log2 (by omega)).2 ((Nat.log2_self_le (by omega)).trans hfloor)

/-- The nearest integer is at most a half away. -/
theorem abs_halfEven_sub_le (y : ℚ) : |halfEven y - y| ≤ 1 / 2 := by
  have hlow := Int.floor_le y
  have hhigh := Int.lt_floor_add_one y
  unfold halfEven
  rw [abs_le]
  split_ifs <;> push_cast <;> constructor <;> linarith

/-- A number is less than the next power of two above its last bit. -/
theorem div_lastBit_lt (p : ℕ) (y : ℚ) : y / 2^lastBit p y < 2^(p + 1) := by
  have hlog : Nat.log2 ⌊y⌋₊ + 1 ≤ p + 1 + lastBit p y := by
    unfold lastBit
    omega
  have hfloor : ⌊y⌋₊ + 1 ≤ 2^(p + 1 + lastBit p y) :=
    Nat.lt_log2_self.trans_le (Nat.pow_le_pow_right (by norm_num) hlog)
  rw [div_lt_iff₀ (by positivity), ← pow_add]
  calc y < ⌊y⌋₊ + 1 := Nat.lt_floor_add_one y
    _ ≤ 2^(p + 1 + lastBit p y) := by exact_mod_cast hfloor

/-- A number of more than `p + 1` bits is at least the power of two that has them. -/
theorem le_div_lastBit (hpos : 0 < lastBit p y) : 2^p ≤ y / 2^lastBit p y := by
  have hlog : Nat.log2 ⌊y⌋₊ = p + lastBit p y := by
    unfold lastBit at hpos ⊢
    omega
  have hne : ⌊y⌋₊ ≠ 0 := by
    intro hzero
    rw [hzero] at hlog
    have : Nat.log2 0 = 0 := by decide
    omega
  have hfloor : 2^(p + lastBit p y) ≤ ⌊y⌋₊ := hlog ▸ Nat.log2_self_le hne
  have hy : 0 ≤ y := by
    by_contra hneg
    exact hne (Nat.floor_of_nonpos (by linarith))
  rw [le_div_iff₀ (by positivity), ← pow_add]
  calc (2 : ℚ)^(p + lastBit p y) ≤ (⌊y⌋₊ : ℚ) := by exact_mod_cast hfloor
    _ ≤ y := Nat.floor_le hy

/-- A larger number is rounded to no smaller one. -/
theorem nearestUnits_mono (h : y ≤ y') : nearestUnits p y ≤ nearestUnits p y' := by
  unfold nearestUnits
  rcases (lastBit_mono (p := p) h).eq_or_lt with heq | hlt
  · rw [heq]
    have hdiv : y / 2^lastBit p y' ≤ y' / 2^lastBit p y' := by gcongr
    have hround : (halfEven (y / 2^lastBit p y') : ℚ) ≤ halfEven (y' / 2^lastBit p y') := by
      exact_mod_cast halfEven_mono hdiv
    gcongr
  · -- A power of two is between them.
    have hbelow : halfEven (y / 2^lastBit p y) ≤ 2^(p + 1) := by
      have hmono := halfEven_mono (div_lastBit_lt p y).le
      have hpow := halfEven_intCast (2^(p + 1))
      push_cast at hpow
      exact hpow ▸ hmono
    have habove : 2^p ≤ halfEven (y' / 2^lastBit p y') := by
      have hmono := halfEven_mono (le_div_lastBit (Nat.lt_of_le_of_lt (Nat.zero_le _) hlt))
      have hpow := halfEven_intCast (2^p)
      push_cast at hpow
      exact hpow ▸ hmono
    have hbelow' : (halfEven (y / 2^lastBit p y) : ℚ) ≤ 2^(p + 1) := by exact_mod_cast hbelow
    have habove' : (2 : ℚ)^p ≤ halfEven (y' / 2^lastBit p y') := by exact_mod_cast habove
    calc (halfEven (y / 2^lastBit p y) : ℚ) * 2^lastBit p y
        ≤ 2^(p + 1) * 2^lastBit p y := by gcongr
      _ = 2^p * 2^(lastBit p y + 1) := by ring
      _ ≤ 2^p * 2^lastBit p y' := by
        gcongr
        · norm_num
        · exact hlt
      _ ≤ halfEven (y' / 2^lastBit p y') * 2^lastBit p y' := by gcongr

/-- A number that is not negative is rounded to none that is. -/
theorem nearestUnits_nonneg (hy : 0 ≤ y) : 0 ≤ nearestUnits p y := by
  have hzero : nearestUnits p 0 = 0 := by
    have h := halfEven_intCast 0
    rw [nearestUnits, zero_div]
    push_cast at h
    rw [h]
    norm_num
  exact hzero ▸ nearestUnits_mono hy

/-- Rounding keeps the order. -/
theorem nearest_mono : Monotone (nearest p q) := by
  intro x x' h
  unfold nearest
  split_ifs with hx hx' hx'
  · have := nearestUnits_mono (p := p) (show -x' * 2^q ≤ -x * 2^q by gcongr)
    gcongr
  · have h1 := nearestUnits_nonneg (p := p) (show 0 ≤ -x * 2^q by have := neg_pos.2 hx; positivity)
    have h2 := nearestUnits_nonneg (p := p) (show 0 ≤ x' * 2^q by have := not_lt.1 hx'; positivity)
    calc -(nearestUnits p (-x * 2^q) / 2^q) ≤ 0 := neg_nonpos.2 (by positivity)
      _ ≤ nearestUnits p (x' * 2^q) / 2^q := by positivity
  · exact absurd (h.trans_lt hx') hx
  · have := nearestUnits_mono (p := p) (show x * 2^q ≤ x' * 2^q by gcongr)
    gcongr

/-- A number of `p + 1` bits is left. -/
theorem nearest_of_bits {n k : ℕ} (hn : n < 2^(p + 1)) (hk : k ≤ q) :
    nearest p q (n / 2^k) = n / 2^k := by
  have hunits : (n : ℚ) / 2^k * 2^q = (n * 2^(q - k) : ℕ) := by
    obtain ⟨d, rfl⟩ := Nat.exists_eq_add_of_le hk
    rw [Nat.add_sub_cancel_left, pow_add]
    push_cast
    field_simp
  have hlast : lastBit p (n * 2^(q - k) : ℕ) ≤ q - k := by
    unfold lastBit
    rw [Nat.floor_natCast]
    rcases Nat.eq_zero_or_pos n with rfl | hpos
    · have hzero : Nat.log2 0 = 0 := by decide
      rw [Nat.zero_mul, hzero]
      omega
    · have hlt : n * 2^(q - k) < 2^(p + 1 + (q - k)) := by
        rw [Nat.pow_add]
        exact Nat.mul_lt_mul_of_pos_right hn (by positivity)
      have := (Nat.log2_lt (by positivity)).2 hlt
      omega
  have hround : nearestUnits p (n * 2^(q - k) : ℕ) = (n * 2^(q - k) : ℕ) := by
    unfold nearestUnits
    generalize lastBit p (n * 2^(q - k) : ℕ) = s at hlast
    obtain ⟨d, hd⟩ := Nat.exists_eq_add_of_le hlast
    have hdiv : ((n * 2^(q - k) : ℕ) : ℚ) / 2^s = ((n * 2^d : ℕ) : ℤ) := by
      rw [hd, pow_add]
      push_cast
      field_simp
    rw [hdiv, halfEven_intCast, ← hdiv]
    field_simp
  have hpos : ¬ (n : ℚ) / 2^k < 0 := not_lt.2 (by positivity)
  rw [nearest, if_neg hpos, hunits, hround, ← hunits]
  field_simp

/-- Rounding a number up to `2^c` moves it by half a unit of the last of its bits at most. -/
theorem abs_nearest_sub_le (hq : p ≤ q) {c : ℕ} {v : ℚ} (hv : 0 ≤ v) (hc : v ≤ 2^c) :
    |nearest p q v - v| ≤ 2^c / 2^(p + 1) := by
  generalize hs : lastBit p (v * 2^q) = s
  have hround : nearest p q v - v = (halfEven (v * 2^q / 2^s) - v * 2^q / 2^s) * (2^s / 2^q) := by
    rw [nearest, if_neg (not_lt.2 hv), nearestUnits, hs]
    field_simp
  have hunit : (2 : ℚ)^(p + s) ≤ 2^(c + q) := by
    rcases Nat.eq_zero_or_pos s with rfl | hpos
    · exact pow_le_pow_right₀ (by norm_num) (by omega)
    · have hfirst := le_div_lastBit (p := p) (y := v * 2^q) (hs ▸ hpos)
      rw [hs, le_div_iff₀ (by positivity), ← pow_add] at hfirst
      calc (2 : ℚ)^(p + s) ≤ v * 2^q := hfirst
        _ ≤ 2^c * 2^q := by gcongr
        _ = 2^(c + q) := (pow_add _ _ _).symm
  calc |nearest p q v - v|
      = |halfEven (v * 2^q / 2^s) - v * 2^q / 2^s| * (2^s / 2^q) := by
        rw [hround, abs_mul, abs_of_nonneg (show (0 : ℚ) ≤ 2^s / 2^q by positivity)]
    _ ≤ 1 / 2 * (2^s / 2^q) := by
        gcongr
        exact abs_halfEven_sub_le _
    _ ≤ 2^c / 2^(p + 1) := by
        rw [← mul_div_assoc, div_le_div_iff₀ (by positivity) (by positivity)]
        calc (1 / 2 * 2^s * 2^(p + 1) : ℚ) = 2^(p + s) := by ring
          _ ≤ 2^(c + q) := hunit
          _ = 2^c * 2^q := pow_add _ _ _

/-! ## The first bit of a rounded number -/

/-- A number of `p + 1` bits whose first one is worth `2^e`. -/
structure Normal (p e : ℕ) (x : ℚ) : Prop where
  le : 2^e ≤ x
  lt : x < 2^(e + 1)
  units : ∃ n : ℕ, x = n / 2^(p - e)

/-- A rounded number has at most `2^(p+1)` units of its last bit. -/
theorem exists_units {v : ℚ} (hv : 0 ≤ v) :
    ∃ m s : ℕ, m ≤ 2^(p + 1) ∧ nearest p q v * 2^q = m * 2^s := by
  have hnonneg : 0 ≤ halfEven (v * 2^q / 2^lastBit p (v * 2^q)) :=
    (Int.floor_nonneg.2 (by positivity)).trans (floor_le_halfEven _)
  obtain ⟨m, hm⟩ : ∃ m : ℕ, (m : ℤ) = halfEven (v * 2^q / 2^lastBit p (v * 2^q)) :=
    ⟨_, Int.toNat_of_nonneg hnonneg⟩
  refine ⟨m, lastBit p (v * 2^q), ?_, ?_⟩
  · have hmono := halfEven_mono (div_lastBit_lt p (v * 2^q)).le
    have hpow := halfEven_intCast (2^(p + 1))
    push_cast at hpow
    rw [hpow, ← hm] at hmono
    exact_mod_cast hmono
  · rw [nearest, if_neg (not_lt.2 hv), nearestUnits, ← hm, Int.cast_natCast]
    exact div_mul_cancel₀ _ (by positivity)

/-- So many units that their first bit is at most `p` places above the one worth `2^c` are a
multiple of it. -/
theorem exists_mul_of_le {m s c : ℕ} (hm : m ≤ 2^(p + 1)) (h : 2^(p + c) ≤ m * 2^s) :
    ∃ n : ℕ, m * 2^s = n * 2^c := by
  rcases Nat.lt_or_ge s c with hsc | hsc
  · -- There are as many units as can be, which is one of the next power of two.
    have hupper : m * 2^s ≤ 2^(p + 1 + s) := by
      rw [Nat.pow_add]
      exact Nat.mul_le_mul_right _ hm
    have hle : p + c ≤ p + 1 + s := (Nat.pow_le_pow_iff_right (by norm_num)).1 (h.trans hupper)
    have hexp : p + 1 + s = p + c := by omega
    refine ⟨2^p, ?_⟩
    calc m * 2^s = 2^(p + c) := Nat.le_antisymm (hexp ▸ hupper) h
      _ = 2^p * 2^c := Nat.pow_add _ _ _
  · obtain ⟨d, rfl⟩ := Nat.exists_eq_add_of_le hsc
    exact ⟨m * 2^d, by ring⟩

/-- What is rounded to a number from one on has its first bit among the `p + 1`, if it is not too
large. -/
theorem exists_normal_nearest (hq : p ≤ q) {v : ℚ} (hle : 1 ≤ nearest p q v)
    (hlt : nearest p q v < 2^(p + 1)) : ∃ e ≤ p, Normal p e (nearest p q v) := by
  have hv : 0 ≤ v := by
    by_contra hneg
    have hmono := nearest_mono (p := p) (q := q) (not_le.1 hneg).le
    have hzero := nearest_of_bits (p := p) (q := q) (n := 0) (k := 0) (by positivity) (by omega)
    norm_num at hzero
    rw [hzero] at hmono
    linarith
  obtain ⟨m, s, hm, hunits⟩ := exists_units (p := p) (q := q) hv
  generalize nearest p q v = x at hle hlt hunits ⊢
  obtain ⟨e, he⟩ : ∃ e, e = Nat.log2 ⌊x⌋₊ := ⟨_, rfl⟩
  have hfirst : (2 : ℚ)^e ≤ x := by
    rw [he]
    calc (2 : ℚ)^Nat.log2 ⌊x⌋₊ ≤ (⌊x⌋₊ : ℚ) := by
          exact_mod_cast Nat.log2_self_le (Nat.floor_pos.2 hle).ne'
      _ ≤ x := Nat.floor_le (by linarith)
  have hnext : x < 2^(e + 1) := by
    rw [he]
    calc x < (⌊x⌋₊ + 1 : ℕ) := by exact_mod_cast Nat.lt_floor_add_one x
      _ ≤ 2^(Nat.log2 ⌊x⌋₊ + 1) := by exact_mod_cast Nat.lt_log2_self
  have hep : e < p + 1 :=
    (pow_lt_pow_iff_right₀ (by norm_num : (1 : ℚ) < 2)).1 (hfirst.trans_lt hlt)
  obtain ⟨c, hc⟩ : ∃ c, q = p - e + c := ⟨q - (p - e), by omega⟩
  have hlower : 2^(p + c) ≤ m * 2^s := by
    have h : (2 : ℚ)^(p + c) ≤ m * 2^s := by
      calc (2 : ℚ)^(p + c) = 2^e * 2^q := by
            rw [← pow_add]
            congr 1
            omega
        _ ≤ x * 2^q := by gcongr
        _ = m * 2^s := hunits
    exact_mod_cast h
  obtain ⟨n, hn⟩ := exists_mul_of_le hm hlower
  refine ⟨e, by omega, hfirst, hnext, n, ?_⟩
  have hcast : x * 2^(p - e) * 2^c = n * 2^c := by
    rw [mul_assoc, ← pow_add, ← hc, hunits]
    exact_mod_cast hn
  rw [eq_div_iff (by positivity)]
  exact mul_right_cancel₀ (by positivity) hcast

namespace Normal

variable {e : ℕ} {x : ℚ}

/-- The units of the last bit are fewer than `2^(p+1)`. -/
theorem exists_lt (h : Normal p e x) (he : e ≤ p) :
    ∃ n : ℕ, n < 2^(p + 1) ∧ x = n / 2^(p - e) := by
  obtain ⟨n, hn⟩ := h.units
  refine ⟨n, ?_, hn⟩
  have hlt := h.lt
  rw [hn, div_lt_iff₀ (by positivity), ← pow_add, show e + 1 + (p - e) = p + 1 by omega] at hlt
  exact_mod_cast hlt

/-- Such a number is left as it is. -/
theorem nearest_eq (h : Normal p e x) (he : e ≤ p) (hq : p ≤ q) : nearest p q x = x := by
  obtain ⟨n, hlt, hn⟩ := h.exists_lt he
  rw [hn]
  exact nearest_of_bits hlt (by omega)

/-- Its double has the next first bit. -/
theorem double (h : Normal p e x) (he : e < p) : Normal p (e + 1) (x * 2) := by
  obtain ⟨n, hn⟩ := h.units
  refine ⟨?_, ?_, n, ?_⟩
  · rw [pow_succ]
    linarith [h.le]
  · rw [pow_succ]
    linarith [h.lt]
  · rw [hn, show p - e = p - (e + 1) + 1 by omega, pow_succ]
    field_simp

/-- Adding a half and rounding keeps the whole part: up to the next power of two the sum is exact,
and from there on it is between that power and a half more. -/
theorem floor_nearest_add_half (h : Normal p e x) (he : e + 1 < p) (hq : p ≤ q) :
    ⌊nearest p q (x + 1 / 2)⌋ = ⌊x + 1 / 2⌋ := by
  have hle := h.le
  have hlt := h.lt
  by_cases hnext : x + 1 / 2 < 2^(e + 1)
  · obtain ⟨n, hn⟩ := h.units
    have hsum : Normal p e (x + 1 / 2) := by
      refine ⟨by linarith, hnext, n + 2^(p - e - 1), ?_⟩
      rw [hn, show p - e = p - e - 1 + 1 by omega, pow_succ, Nat.add_sub_cancel]
      push_cast
      field_simp
    rw [hsum.nearest_eq (by omega) hq]
  · have hpow : 2^(e + 2) ≤ 2^p := Nat.pow_le_pow_right (by norm_num) he
    have hpow' : 2^(e + 2) = 2 * 2^(e + 1) := by ring
    have hpos : 0 < 2^(e + 1) := by positivity
    have hlow := nearest_of_bits (p := p) (q := q) (n := 2^(e + 1)) (k := 0)
      (by rw [pow_succ 2 p]; omega) (by omega)
    have hhigh := nearest_of_bits (p := p) (q := q) (n := 2 * 2^(e + 1) + 1) (k := 1)
      (by rw [pow_succ 2 p]; omega) (by omega)
    push_cast at hlow hhigh
    have hbetween : ∀ y : ℚ, 2^(e + 1) ≤ y → y ≤ 2^(e + 1) + 1 / 2 → ⌊y⌋ = 2^(e + 1) := by
      intro y hy hy'
      rw [Int.floor_eq_iff]
      push_cast
      constructor <;> linarith
    rw [hbetween (x + 1 / 2) (by linarith) (by linarith)]
    apply hbetween
    · have hmono := nearest_mono (p := p) (q := q) (show 2^(e + 1) / 2^0 ≤ x + 1 / 2 by linarith)
      linarith
    · have hmono := nearest_mono (p := p) (q := q)
        (show x + 1 / 2 ≤ (2 * 2^(e + 1) + 1) / 2^1 by linarith)
      linarith

end Normal

/-- The 32-bit format. -/
def binary32 : Rounding := ⟨nearest 23 149, nearest_mono, fun _ _ => nearest_of_bits⟩

/-- The 64-bit format. -/
def binary64 : Rounding :=
  ⟨nearest 52 1074, nearest_mono, fun _ _ hn hk =>
    nearest_of_bits (hn.trans_le (by norm_num)) (hk.trans (by norm_num))⟩

-- Between `2^24` and `2^25` there are the even numbers.
example :
    binary32.round (2^24 + 1) = 2^24 ∧ binary32.round (2^24 + 3) = 2^24 + 4 := by decide +kernel

end Rounding

end Launa
