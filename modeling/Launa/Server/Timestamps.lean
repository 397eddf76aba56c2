import Launa.Lib.LexDigits
import Mathlib.Algebra.Order.BigOperators.Group.Finset
import Mathlib.Data.String.Basic

/-!
# Times as texts

The entries of the store carry the time as a text, `Utc::now().to_rfc3339()`, and `recent_since` of
`memory.rs` compares texts. A rendered instant has fields of fixed widths, from the year down to the
second, and then no fraction, or as few of 3, 6 and 9 digits as are exact. A fraction that ends is
followed by `+`, which is below the point and the digits, so texts compare as the instants do, and
`recent_since` returns the entries at or after an instant (`recentSince_toRfc3339`).
-/

namespace Launa.Server

open LexDigits

/-! ## The calendar -/

/-- Whether a year has a leap day. -/
def isLeapYear (year : ℕ) : Bool := year % 4 = 0 && (year % 100 ≠ 0 || year % 400 = 0)

/-- The number of days of a year. -/
def daysInYear (year : ℕ) : ℕ := if isLeapYear year then 366 else 365

/-- The number of days of a month. -/
def daysInMonth (year month : ℕ) : ℕ :=
  match month with
  | 2 => if isLeapYear year then 29 else 28
  | 4 | 6 | 9 | 11 => 30
  | _ => 31

/-- An instant of UTC in the years of four digits, without leap seconds. -/
structure Instant where
  year : ℕ
  month : ℕ
  day : ℕ
  hour : ℕ
  minute : ℕ
  second : ℕ
  nano : ℕ
  year_lt : year < 10000
  month_mem : 1 ≤ month ∧ month ≤ 12
  day_mem : 1 ≤ day ∧ day ≤ daysInMonth year month
  hour_lt : hour < 24
  minute_lt : minute < 60
  second_lt : second < 60
  nano_lt : nano < 10^9

/-- The number of days before a year. -/
def daysBeforeYear (year : ℕ) : ℕ := ∑ y ∈ Finset.range year, daysInYear y

/-- The number of days of a year before a month. -/
def daysBeforeMonth (year month : ℕ) : ℕ :=
  ∑ m ∈ Finset.range (month - 1), daysInMonth year (m + 1)

namespace Instant

/-- The days since the first of January of the year 0. -/
def dayNumber (t : Instant) : ℕ :=
  daysBeforeYear t.year + (daysBeforeMonth t.year t.month + (t.day - 1))

/-- The nanoseconds since midnight. -/
def nanoOfDay (t : Instant) : ℕ := (t.hour * 3600 + t.minute * 60 + t.second) * 10^9 + t.nano

/-- The instant as a number, in nanoseconds. -/
def nanos (t : Instant) : ℕ := t.dayNumber * (86400 * 10^9) + t.nanoOfDay

/-! ## `DateTime::to_rfc3339` -/

/-- The fraction of a second, with 0, 3, 6 or 9 digits. -/
def fraction (nano : ℕ) : List Char :=
  if nano = 0 then []
  else if nano % 10^6 = 0 then '.' :: digits 3 (nano / 10^6)
  else if nano % 10^3 = 0 then '.' :: digits 6 (nano / 10^3)
  else '.' :: digits 9 nano

/-- The characters of the rendering. -/
def rfc3339Chars (t : Instant) : List Char :=
  digits 4 t.year ++ '-' :: (digits 2 t.month ++ '-' :: (digits 2 t.day ++ 'T' ::
    (digits 2 t.hour ++ ':' :: (digits 2 t.minute ++ ':' :: (digits 2 t.second ++
      (fraction t.nano ++ "+00:00".toList))))))

/-- The rendering of an instant. -/
def toRfc3339 (t : Instant) : String := String.ofList t.rfc3339Chars

end Instant

/-- `recent_since`. -/
def recentSince {α : Type} (deque : List α) (getTime : α → String) (since : String) : List α :=
  deque.filter fun item => since ≤ getTime item

/-! ## The order of the fields -/

namespace Instant

/-- The fields of an instant, the greatest first. -/
def fields (t : Instant) : List ℕ :=
  [t.year, t.month, t.day, t.hour, t.minute, t.second, t.nano]

/-- An instant is told by its fields. -/
theorem fields_injective : Function.Injective fields := by
  rintro ⟨⟩ ⟨⟩ h
  simp only [fields, List.cons.injEq, and_true] at h
  obtain ⟨rfl, rfl, rfl, rfl, rfl, rfl, rfl⟩ := h
  rfl

end Instant

/-- The days of a unit that is over are more than those of any part of it. -/
theorem sum_range_add_lt {f : ℕ → ℕ} {i j r s : ℕ} (hr : r < f i) (h : i < j ∨ i = j ∧ r < s) :
    ∑ n ∈ Finset.range i, f n + r < ∑ n ∈ Finset.range j, f n + s := by
  rcases h with hij | ⟨rfl, hrs⟩
  · calc ∑ n ∈ Finset.range i, f n + r
        < ∑ n ∈ Finset.range (i + 1), f n := by
          rw [Finset.sum_range_succ]
          exact Nat.add_lt_add_left hr _
      _ ≤ ∑ n ∈ Finset.range j, f n := Finset.sum_le_sum_of_subset (Finset.range_mono hij)
      _ ≤ ∑ n ∈ Finset.range j, f n + s := Nat.le_add_right _ _
  · exact Nat.add_lt_add_left hrs _

/-- The months of a year have its days. -/
theorem sum_daysInMonth (year : ℕ) :
    ∑ m ∈ Finset.range 12, daysInMonth year (m + 1) = daysInYear year := by
  unfold daysInYear
  by_cases h : isLeapYear year = true <;> simp [Finset.sum_range_succ, daysInMonth, h]

/-- No month has more than 31 days. -/
theorem daysInMonth_le (year month : ℕ) : daysInMonth year month ≤ 31 := by
  unfold daysInMonth
  split
  next => split <;> decide
  all_goals decide

namespace Instant

/-- The day lies within its month. -/
theorem dayOfMonth_lt (t : Instant) : t.day - 1 < daysInMonth t.year (t.month - 1 + 1) := by
  have hmonth := t.month_mem
  have hday := t.day_mem
  rw [Nat.sub_add_cancel hmonth.1]
  omega

/-- The day lies within its year. -/
theorem dayOfYear_lt (t : Instant) :
    daysBeforeMonth t.year t.month + (t.day - 1) < daysInYear t.year := by
  have hmonth := t.month_mem
  have hover : t.month - 1 < 12 := by omega
  have hlt := sum_range_add_lt (f := fun m => daysInMonth t.year (m + 1)) (s := 0) t.dayOfMonth_lt
    (.inl hover)
  calc daysBeforeMonth t.year t.month + (t.day - 1)
      < ∑ m ∈ Finset.range 12, daysInMonth t.year (m + 1) + 0 := hlt
    _ = ∑ m ∈ Finset.range 12, daysInMonth t.year (m + 1) := Nat.add_zero _
    _ = daysInYear t.year := sum_daysInMonth t.year

/-- An earlier date has a lower number. -/
theorem dayNumber_lt {a b : Instant} (h : a.year < b.year ∨ a.year = b.year ∧
    (a.month < b.month ∨ a.month = b.month ∧ a.day < b.day)) : a.dayNumber < b.dayNumber := by
  have hma := a.month_mem
  have hmb := b.month_mem
  have hda := a.day_mem
  refine sum_range_add_lt a.dayOfYear_lt (h.imp_right fun ⟨hyear, h⟩ => ⟨hyear, ?_⟩)
  rw [← hyear]
  exact sum_range_add_lt a.dayOfMonth_lt (by omega)

/-- The time lies within its day. -/
theorem nanoOfDay_lt (t : Instant) : t.nanoOfDay < 86400 * 10^9 := by
  have hhour := t.hour_lt
  have hminute := t.minute_lt
  have hsecond := t.second_lt
  have hnano := t.nano_lt
  unfold nanoOfDay
  omega

/-- Instants compare by the first field in which they differ. -/
theorem nanos_lt {a b : Instant} (h : a.fields < b.fields) : a.nanos < b.nanos := by
  have ha := a.nanoOfDay_lt
  simp only [fields, List.cons_lt_cons_iff, List.not_lt_nil, and_false, or_false] at h
  by_cases hdate : a.year < b.year ∨ a.year = b.year ∧
      (a.month < b.month ∨ a.month = b.month ∧ a.day < b.day)
  · have hday := dayNumber_lt hdate
    unfold nanos
    omega
  · have hyear : a.year = b.year := by omega
    have hmonth : a.month = b.month := by omega
    have hday : a.dayNumber = b.dayNumber := by
      unfold dayNumber
      rw [hyear, hmonth, show a.day = b.day by omega]
    have htime : a.nanoOfDay < b.nanoOfDay := by
      have hminute := a.minute_lt
      have hsecond := a.second_lt
      have hnano := a.nano_lt
      unfold nanoOfDay
      omega
    unfold nanos
    omega

/-! ## The order of the texts -/

/-- A fraction that is not zero has `k` digits, of nine, and the others are zero. -/
theorem fraction_eq {n : ℕ} (hn : n ≠ 0) :
    ∃ m k j, k + j = 9 ∧ n = m * 10 ^ j ∧ fraction n = '.' :: digits k m := by
  unfold fraction
  rw [if_neg hn]
  split
  next h => exact ⟨n / 10^6, 3, 6, rfl, by omega, rfl⟩
  next =>
    split
    next h => exact ⟨n / 10^3, 6, 3, rfl, by omega, rfl⟩
    next => exact ⟨n, 9, 0, rfl, (Nat.mul_one n).symm, rfl⟩

/-- Fractions of all widths compare as their values do. -/
theorem fraction_lt {a b : ℕ} (hab : a < b) (hb : b < 10^9) :
    fraction a ++ "+00:00".toList < fraction b ++ "+00:00".toList := by
  obtain ⟨n, k, j, hkj, rfl, hfb⟩ := fraction_eq (Nat.ne_zero_of_lt hab)
  have hzone : "+00:00".toList = ['+', '0', '0', ':', '0', '0'] := by decide +kernel
  have hn : n < 10 ^ k := by
    rw [← hkj, Nat.pow_add] at hb
    exact Nat.lt_of_mul_lt_mul_right hb
  rw [hzone, hfb]
  rcases eq_or_ne a 0 with rfl | ha
  · exact List.cons_lt_cons_iff.2 (.inl (by decide))
  obtain ⟨m, k', j', hkj', rfl, hfa⟩ := fraction_eq ha
  rw [hfa]
  refine List.cons_lt_cons_iff.2 (.inr ⟨rfl, ?_⟩)
  rcases Nat.le_total k' k with hk | hk
  · obtain ⟨d, rfl⟩ := Nat.exists_eq_add_of_le hk
    obtain rfl : j' = d + j := by omega
    rw [Nat.pow_add, ← Nat.mul_assoc] at hab
    exact digits_append_lt (Nat.lt_of_mul_lt_mul_right hab) hn (by decide) _ _
  · obtain ⟨d, rfl⟩ := Nat.exists_eq_add_of_le hk
    obtain rfl : j = d + j' := by omega
    rw [Nat.pow_add, ← Nat.mul_assoc] at hab
    exact digits_append_lt_of_shorter (Nat.lt_of_mul_lt_mul_right hab) hn _ _

/-- A field and what separates it from the next one. -/
theorem field_append_lt {k a b : ℕ} (hb : b < 10 ^ k) (c : Char) {s t : List Char} {u v : List ℕ}
    (h : a :: u < b :: v) (hrest : u < v → s < t) : digits k a ++ c :: s < digits k b ++ c :: t :=
  digits_append_lt_of_or hb ((List.cons_lt_cons_iff.1 h).imp_right fun ⟨hab, huv⟩ =>
    ⟨hab, List.cons_lt_cons_iff.2 (.inr ⟨rfl, hrest huv⟩)⟩)

/-- An earlier instant is rendered as a smaller list of characters. -/
theorem rfc3339Chars_lt {a b : Instant} (h : a.fields < b.fields) :
    a.rfc3339Chars < b.rfc3339Chars := by
  have hmonth := b.month_mem
  have hday := b.day_mem.2.trans (daysInMonth_le _ _)
  have hhour := b.hour_lt
  have hminute := b.minute_lt
  have hsecond := b.second_lt
  refine field_append_lt b.year_lt '-' h fun h => ?_
  refine field_append_lt (by omega) '-' h fun h => ?_
  refine field_append_lt (by omega) 'T' h fun h => ?_
  refine field_append_lt (by omega) ':' h fun h => ?_
  refine field_append_lt (by omega) ':' h fun h => ?_
  refine digits_append_lt_of_or (by omega) ((List.cons_lt_cons_iff.1 h).imp_right fun h => ?_)
  have hnano := (List.cons_lt_cons_iff.1 h.2).resolve_right fun h => List.not_lt_nil _ h.2
  exact ⟨h.1, fraction_lt hnano b.nano_lt⟩

/-- An earlier instant is rendered as a smaller string. -/
theorem toRfc3339_lt {a b : Instant} (h : a.fields < b.fields) : a.toRfc3339 < b.toRfc3339 := by
  rw [String.lt_iff_toList_lt, toRfc3339, toRfc3339, String.toList_ofList, String.toList_ofList]
  exact rfc3339Chars_lt h

/-- Different instants are rendered differently. -/
theorem toRfc3339_injective : Function.Injective toRfc3339 := by
  intro a b h
  rcases lt_trichotomy a.fields b.fields with hlt | heq | hlt
  · exact absurd h (toRfc3339_lt hlt).ne
  · exact fields_injective heq
  · exact absurd h (toRfc3339_lt hlt).ne'

/-- Texts compare as the instants do. -/
theorem toRfc3339_le_iff (a b : Instant) : a.toRfc3339 ≤ b.toRfc3339 ↔ a.nanos ≤ b.nanos := by
  rcases lt_trichotomy a.fields b.fields with h | h | h
  · exact iff_of_true (toRfc3339_lt h).le (nanos_lt h).le
  · rw [fields_injective h]
    exact iff_of_true le_rfl le_rfl
  · exact iff_of_false (toRfc3339_lt h).not_ge (nanos_lt h).not_ge

end Instant

/-- A query since an instant returns the entries at or after it. -/
theorem recentSince_toRfc3339 {α : Type} (deque : List α) (getTime : α → String)
    (time : α → Instant) (since : Instant)
    (htime : ∀ item ∈ deque, getTime item = (time item).toRfc3339) :
    recentSince deque getTime since.toRfc3339 =
      deque.filter fun item => since.nanos ≤ (time item).nanos := by
  refine List.filter_congr fun item hmem => ?_
  rw [htime item hmem, decide_eq_decide]
  exact Instant.toRfc3339_le_iff since (time item)

/-- An instant in the first second of a year. -/
def newYear (nano : ℕ) (h : nano < 10^9) : Instant :=
  ⟨2026, 1, 1, 0, 0, 0, nano, by decide, by decide, by decide, by decide, by decide, by decide, h⟩

example : (newYear 1000 (by decide)).toRfc3339 = "2026-01-01T00:00:00.000001+00:00" := by
  decide +kernel

/-- Since a microsecond after New Year, what came at New Year is left out. -/
theorem recentSince_toRfc3339_newYear :
    recentSince ["2026-01-01T00:00:00.500+00:00", "2026-01-01T00:00:00+00:00"] id
      (newYear 1000 (by decide)).toRfc3339 = ["2026-01-01T00:00:00.500+00:00"] := by
  refine (recentSince_toRfc3339 _ _ (fun text =>
    if text = "2026-01-01T00:00:00+00:00" then newYear 0 (by decide)
    else newYear 500000000 (by decide)) (newYear 1000 (by decide)) ?_).trans ?_
  · rw [List.forall_mem_cons, List.forall_mem_singleton]
    decide +kernel
  · decide +kernel

end Launa.Server
