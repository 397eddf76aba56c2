import Launa.Lib.Rounding
import Launa.Protocol.Status

/-!
# Comparing and printing temperatures

`temperature.rs` compares two temperatures by their degrees Fahrenheit, which 32-bit floats round,
and prints a number without its scale. A byte of the wire is still told from every other one in its
scale (`toFahrenheit_fromWire_lt`), since between two of them there are numbers that no rounding
moves.
-/

namespace Launa.Protocol

namespace Temperature

/-- `Temperature::to_fahrenheit`. -/
def toFahrenheit (r : Rounding) (t : Temperature) : ℚ :=
  match t.scale with
  | .fahrenheit => t.value
  | .celsius => r.round (r.round (r.round (t.value * 9) / 5) + 32)

/-- `Temperature::to_celsius`. -/
def toCelsius (r : Rounding) (t : Temperature) : ℚ :=
  match t.scale with
  | .celsius => t.value
  | .fahrenheit => r.round (r.round (r.round (t.value - 32) * 5) / 9)

/-- `Temperature::convert`. -/
def convert (r : Rounding) (t : Temperature) (target : TemperatureScale) : Temperature :=
  if t.scale = target then t
  else
    match target with
    | .celsius => ⟨t.toCelsius r, .celsius⟩
    | .fahrenheit => ⟨t.toFahrenheit r, .fahrenheit⟩

/-- `PartialEq` of temperatures. -/
def eq (r : Rounding) (t t' : Temperature) : Bool := t.toFahrenheit r = t'.toFahrenheit r

/-- `PartialEq` of temperatures that may be unknown. -/
def optionEq (r : Rounding) : Option Temperature → Option Temperature → Bool
  | some t, some t' => t.eq r t'
  | none, none => true
  | _, _ => false

/-- The decimal places of a number below one, at most so many. -/
def decimalPlaces : ℕ → ℚ → List Char
  | 0, _ => []
  | n + 1, x =>
    if x = 0 then []
    else Nat.digitChar ⌊x * 10⌋.toNat :: decimalPlaces n (x * 10 - ⌊x * 10⌋)

/-- `Display` of the value. The whole and half degrees of the wire are printed exactly; a float has
at most 149 places. -/
def display (t : Temperature) : List Char :=
  let whole := ⌊|t.value|⌋
  let places := decimalPlaces 149 (|t.value| - whole)
  (if t.value < 0 then ['-'] else []) ++ (toString whole.toNat).toList ++
    if places.isEmpty then [] else '.' :: places

example : (fromWire 75 .celsius).display = "37.5".toList := by decide +kernel

variable (r : Rounding)

/-- Optional temperatures are equal exactly if they are in Fahrenheit. -/
theorem optionEq_iff {t t' : Option Temperature} :
    optionEq r t t' = true ↔ t.map (toFahrenheit r) = t'.map (toFahrenheit r) := by
  cases t <;> cases t' <;> simp [optionEq, eq]

/-- The degrees Fahrenheit of the half degrees Celsius of the wire are told apart by a quarter. -/
theorem toFahrenheit_celsius_lt {raw raw' : UInt8} (h : raw < raw') :
    (fromWire raw .celsius).toFahrenheit r < (fromWire raw' .celsius).toFahrenheit r := by
  have hexact : ∀ raw : UInt8, r.round ((raw.toNat : ℚ) / 2 * 9) = (raw.toNat : ℚ) / 2 * 9 := by
    intro raw
    have hlt := raw.toNat_lt
    have hbits := r.bits (9 * raw.toNat) 1 (by omega) (by norm_num)
    have heq : ((9 * raw.toNat : ℕ) : ℚ) / 2^1 = (raw.toNat : ℚ) / 2 * 9 := by
      push_cast
      ring
    rwa [heq] at hbits
  have hraw : raw.toNat + 1 ≤ raw'.toNat := UInt8.lt_iff_toNat_lt.1 h
  have hlt := raw.toNat_lt
  -- The first is at most `n / 4`, and the second at least the next one.
  obtain ⟨n, hn⟩ : ∃ n, n = (18 * raw.toNat + 4) / 5 := ⟨_, rfl⟩
  have hbelow : (18 * raw.toNat : ℚ) ≤ 5 * n := by
    exact_mod_cast (by omega : 18 * raw.toNat ≤ 5 * n)
  have habove : (5 * (n + 1) : ℚ) ≤ 18 * raw'.toNat := by
    exact_mod_cast (by omega : 5 * (n + 1) ≤ 18 * raw'.toNat)
  have hfirst : r.round ((raw.toNat : ℚ) / 2 * 9 / 5) ≤ (n : ℕ) / 2^2 :=
    r.round_le (by omega) (by norm_num) (by linarith)
  have hsecond : ((n + 1 : ℕ) : ℚ) / 2^2 ≤ r.round ((raw'.toNat : ℚ) / 2 * 9 / 5) :=
    r.le_round (by omega) (by norm_num) (by push_cast; linarith)
  show r.round (r.round (r.round ((raw.toNat : ℚ) / 2 * 9) / 5) + 32) <
    r.round (r.round (r.round ((raw'.toNat : ℚ) / 2 * 9) / 5) + 32)
  rw [hexact raw, hexact raw']
  calc r.round (r.round ((raw.toNat : ℚ) / 2 * 9 / 5) + 32)
      ≤ ((n + 128 : ℕ) : ℚ) / 2^2 := by
        refine r.round_le (by omega) (by norm_num) ?_
        push_cast
        linarith
    _ < ((n + 129 : ℕ) : ℚ) / 2^2 := by
        push_cast
        linarith
    _ ≤ r.round (r.round ((raw'.toNat : ℚ) / 2 * 9 / 5) + 32) := by
        refine r.le_round (by omega) (by norm_num) ?_
        push_cast at hsecond ⊢
        linarith

/-- A higher byte of the wire is a higher temperature. -/
theorem toFahrenheit_fromWire_lt {raw raw' : UInt8} (scale : TemperatureScale) (h : raw < raw') :
    (fromWire raw scale).toFahrenheit r < (fromWire raw' scale).toFahrenheit r := by
  cases scale with
  | fahrenheit => exact Nat.cast_lt.2 (UInt8.lt_iff_toNat_lt.1 h)
  | celsius => exact toFahrenheit_celsius_lt r h

/-- The temperatures of the wire that are equal are the same, in one scale. -/
theorem fromWire_eq_iff {raw raw' : UInt8} {scale : TemperatureScale} :
    (fromWire raw scale).toFahrenheit r = (fromWire raw' scale).toFahrenheit r ↔ raw = raw' := by
  constructor
  · intro h
    by_contra hne
    rcases UInt8.lt_or_lt_of_ne hne with hlt | hlt
    · exact (toFahrenheit_fromWire_lt r scale hlt).ne h
    · exact (toFahrenheit_fromWire_lt r scale hlt).ne h.symm
  · rintro rfl
    rfl

end Temperature

/-- The temperatures of a status are off the wire, in its scale. -/
structure StatusUpdate.InScale (status : StatusUpdate) : Prop where
  currentTemp : ∀ t ∈ status.currentTemp, ∃ raw, t = .fromWire raw status.temperatureScale
  setTemp : ∃ raw, status.setTemp = .fromWire raw status.temperatureScale

/-- A status that is parsed has its temperatures in its scale. -/
theorem StatusUpdate.inScale_of_parse {payload : List UInt8} {status : StatusUpdate}
    (h : StatusUpdate.parse payload = .ok status) : status.InScale := by
  unfold parse at h
  split at h
  · cases h
  · cases h
    refine ⟨?_, _, rfl⟩
    intro t ht
    dsimp only at ht
    split at ht
    · cases ht
    · cases ht
      exact ⟨_, rfl⟩

end Launa.Protocol
