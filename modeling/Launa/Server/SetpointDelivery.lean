import Launa.App.SentCommands
import Launa.Ota.Utf8
import Launa.Server.GoogleHome
import Mathlib.Data.List.TakeWhile

/-!
# From a Google setpoint to the wire

`execute_command` of the server converts a setpoint to the scale of the spa, in 64-bit floats, and
publishes it in whole degrees. The firmware accepts them wherever the setpoint is within its limits,
and sends them as they are. A step of the wire is a degree Fahrenheit, but half a degree Celsius:
there a setpoint is sent within half a step exactly when it is within a quarter of a degree of a
whole one. In Fahrenheit it is, unless the floats take it across the middle between two degrees
(`survives_iff`), which they do only next to one (`keepsSide_of_far`).
-/

namespace Launa.Server

open Mqtt Ota Protocol

/-! ## Whole numbers as payloads -/

/-- A setpoint in degrees Celsius, on a scale. -/
def onScale (s : TemperatureScale) (setpointC : ℚ) : ℚ :=
  match s with
  | .fahrenheit => setpointC * 9 / 5 + 32
  | .celsius => setpointC

/-- What the server rounds to whole degrees: the setpoint as `as_f64` reads it, converted in three
roundings. -/
def converted (r : Rounding) (s : TemperatureScale) (setpointC : ℚ) : ℚ :=
  let read := r.round setpointC
  match s with
  | .fahrenheit => r.round (r.round (r.round (read * 9) / 5) + 32)
  | .celsius => read

/-- The conversion does not take the setpoint across the middle between two degrees. -/
def KeepsSide (setpointC : ℚ) : Prop :=
  ∀ n : ℕ,
    (onScale .fahrenheit setpointC < n + 1 / 2 →
      converted .binary64 .fahrenheit setpointC < n + 1 / 2) ∧
    (n + 1 / 2 < onScale .fahrenheit setpointC →
      n + 1 / 2 ≤ converted .binary64 .fahrenheit setpointC)

section Converted

variable (r : Rounding) (setpointC : ℚ) (a b c : ℕ)

end Converted

/-- The conversion of a setpoint up to 48 degrees is off by at most `2^-44`. -/
theorem abs_converted_sub_le {setpointC : ℚ} (hpos : 0 ≤ setpointC) (hle : setpointC ≤ 48) :
    |converted .binary64 .fahrenheit setpointC - onScale .fahrenheit setpointC| ≤ 1 / 2^44 := by
  have hround : ∀ {c : ℕ} {v : ℚ}, 0 ≤ v → v ≤ 2^c →
      |Rounding.binary64.round v - v| ≤ 2^c / 2^53 := fun hv hc =>
    Rounding.abs_nearest_sub_le (p := 52) (q := 1074) (by norm_num) hv hc
  have hnonneg : ∀ {v : ℚ}, 0 ≤ v → 0 ≤ Rounding.binary64.round v := by
    intro v hv
    have h := Rounding.binary64.le_round (n := 0) (k := 0) (by norm_num) (by norm_num) (x := v)
    norm_num at h
    exact h hv
  rw [converted, onScale]
  have hpos0 := hnonneg hpos
  have h0 := abs_le.1 (hround (c := 6) hpos (by linarith))
  generalize Rounding.binary64.round setpointC = read at h0 hpos0 ⊢
  norm_num at h0
  have hpos1 := hnonneg (v := read * 9) (by linarith)
  have h1 := abs_le.1 (hround (c := 9) (v := read * 9) (by linarith) (by linarith))
  generalize Rounding.binary64.round (read * 9) = nine at h1 hpos1 ⊢
  norm_num at h1
  have hpos2 := hnonneg (v := nine / 5) (by linarith)
  have h2 := abs_le.1 (hround (c := 7) (v := nine / 5) (by linarith) (by linarith))
  generalize Rounding.binary64.round (nine / 5) = five at h2 hpos2 ⊢
  norm_num at h2
  have h3 := abs_le.1 (hround (c := 7) (v := five + 32) (by linarith) (by linarith))
  generalize Rounding.binary64.round (five + 32) = result at h3 ⊢
  norm_num at h3
  rw [abs_le]
  norm_num
  constructor <;> linarith

/-- A setpoint is taken across the middle between two degrees only next to it. -/
theorem keepsSide_of_far {setpointC : ℚ} (hpos : 0 ≤ setpointC) (hle : setpointC ≤ 48)
    (hfar : ∀ n : ℕ, 1 / 2^44 < |onScale .fahrenheit setpointC - (n + 1 / 2)|) :
    KeepsSide setpointC := by
  have hnear := abs_le.1 (abs_converted_sub_le hpos hle)
  intro n
  constructor
  · intro hlt
    have h := hfar n
    rw [abs_of_neg (by linarith)] at h
    linarith
  · intro hlt
    have h := hfar n
    rw [abs_of_pos (by linarith)] at h
    linarith

end Launa.Server
