import Launa.Mqtt.CommandParser
import Mathlib.Tactic.Linarith
import Mathlib.Tactic.NormNum

/-!
# Commands from MQTT

`parse_command` of the app's `mqtt_client.rs`: a set temperature is checked against the scale and
the range of the spa, and given as the wire has it. It is within the limit of its scale
(`parseCommand_setTemperature`).
-/

namespace Launa.App

open Ota Protocol Mqtt

/-- What a message asks for. -/
inductive MqttAction where
  | command (cmd : Command)
  | startPumpTimer (pump : UInt8) (minutes : UInt32)
  deriving DecidableEq, Repr

/-- `mqtt_client::parse_command`. -/
def parseCommand (r : Rounding) (commandTopicBase topic : List Char) (payload : List UInt8)
    (scale : Option TemperatureScale) (range : Option TempRange) : Option MqttAction :=
  match Mqtt.parseCommand r commandTopicBase topic payload with
  | .valid (.setTemperature temp) =>
    match scale, range with
    | some s, some rng =>
      match validateSetTemperature temp s rng with
      | .ok _ =>
        let wireValue := match s with
          -- Half degrees: the payload is read again.
          | .celsius =>
            let rawFloat := ((utf8Decode payload).bind (F32.parse r)).getD (.finite temp.toNat)
            ((rawFloat.mul r 2).add r (1 / 2)).toU8
          | .fahrenheit => temp
        some (.command (.setTemperature wireValue))
      | .error _ => none
    | _, _ => none
  | .valid cmd => some (.command cmd)
  | .timerPump minutes pumpIndex => some (.startPumpTimer pumpIndex minutes)
  | .temperatureOutOfRange _ _ => none
  | .unknownSubtopic _ => none
  | .invalidPayload _ => none

/-- The hard limit on a temperature on the wire, in a scale. -/
def hardLimit : TemperatureScale → UInt8
  | .fahrenheit => absoluteMaxTempF
  | .celsius => 2 * absoluteMaxTempC

/-- A temperature that is valid is within the range. -/
theorem validateSetTemperature_le {temp value : UInt8} {scale : TemperatureScale}
    {range : TempRange}
    (h : validateSetTemperature temp scale range = .ok value) :
    match scale with
    | .fahrenheit => temp ≤ 104
    | .celsius => temp ≤ 40 := by
  unfold validateSetTemperature at h
  cases scale <;> cases range <;> dsimp only at h ⊢ <;> split_ifs at h with h1 h2 h3 <;>
    have hle := UInt8.not_lt.1 h3 <;> first | exact hle | exact UInt8.le_trans hle (by decide)

/-- A number of at most 40 degrees, when it is rounded, is at most 81 half degrees. -/
theorem wireValue_le (r : Rounding) {t : ℚ} (ht : ((F32.finite t).add r (1 / 2)).toU8 ≤ 40) :
    (((F32.finite t).mul r 2).add r (1 / 2)).toU8 ≤ 81 := by
  have hhalf : ∀ n : ℕ, n < 2^24 → r.round (n / 2) = n / 2 := fun n hn => by
    have h := r.bits n 1 hn (by norm_num)
    rwa [pow_one] at h
  have h82 : r.round 41 = 41 := by
    have h := hhalf 82 (by norm_num)
    norm_num at h
    exact h
  have h162 : r.round 81 = 81 := by
    have h := hhalf 162 (by norm_num)
    norm_num at h
    exact h
  have h163 : r.round (163 / 2) = 163 / 2 := by
    have h := hhalf 163 (by norm_num)
    norm_num at h
    exact h
  -- Rounding is monotone, so 41 would have been reached.
  have hlt : t + 1 / 2 < 41 := by
    have hround : r.round (t + 1 / 2) < 41 := by
      have h : r.round (t + 1 / 2) < ((40 : ℕ) : ℚ) + 1 := (F32.toU8_finite_le (by decide)).1 ht
      norm_num at h
      exact h
    by_contra hge
    have hmono := r.mono (not_lt.1 hge)
    rw [h82] at hmono
    exact absurd hround (not_lt.2 hmono)
  have hdouble : r.round (t * 2) ≤ 81 := h162 ▸ r.mono (by linarith)
  have hsum : r.round (r.round (t * 2) + 1 / 2) ≤ 163 / 2 := h163 ▸ r.mono (by linarith)
  refine (F32.toU8_finite_le (by decide)).2 ?_
  show r.round (r.round (t * 2) + 1 / 2) < ((81 : ℕ) : ℚ) + 1
  push_cast
  linarith

/-- A set temperature that is accepted is within the hard limit of the scale. -/
theorem parseCommand_setTemperature {r : Rounding} {commandTopicBase topic : List Char}
    {payload : List UInt8} {scale : Option TemperatureScale} {range : Option TempRange}
    {wireValue : UInt8}
    (h : parseCommand r commandTopicBase topic payload scale range =
      some (.command (.setTemperature wireValue))) :
    ∃ s, scale = some s ∧ wireValue ≤ hardLimit s := by
  unfold parseCommand at h
  split at h
  · rename_i temp hparse
    obtain ⟨t, hfloat, -, -, htemp⟩ := Mqtt.parseCommand_setTemperature hparse
    split at h
    · rename_i s rng
      split at h
      · rename_i value hvalid
        have hle := validateSetTemperature_le hvalid
        have hwire := Command.setTemperature.inj (MqttAction.command.inj (Option.some.inj h))
        refine ⟨s, rfl, ?_⟩
        subst hwire
        cases s with
        | fahrenheit => exact UInt8.le_trans hle (by decide)
        | celsius =>
          subst htemp
          rw [hfloat, Option.getD_some]
          exact UInt8.le_trans (wireValue_le r hle) (by decide)
      · cases h
    · cases h
  · rename_i cmd hne hparse
    obtain rfl := MqttAction.command.inj (Option.some.inj h)
    exact absurd rfl (hne wireValue)
  all_goals cases h

end Launa.App
