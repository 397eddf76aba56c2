import Launa.Protocol.Temperature
import Launa.Sim.SpaSim

/-!
# The water of the simulated spa

`simulate_physics` warms the water towards the target of the thermostat while the heater is on, and
otherwise lets it cool down to the ambient temperature. It computes in degrees Fahrenheit with
floats of 32 bits, which are rounded in a given way. The heater is only ever on while a pump runs
(`isHeating_simulatePhysics`).
-/

namespace Launa.Sim

open Protocol

/-- `SpaState`, with the water. -/
structure WaterState extends SpaState where
  currentTemp : Temperature

/-- `SpaState::default`. -/
def WaterState.default : WaterState := { SpaState.default with currentTemp := ⟨38, .celsius⟩ }

/-- `PhysicsContext`. -/
structure PhysicsContext where
  ambientTemp : Temperature
  pumpHeatContribution : ℚ
  physicsTickCount : ℕ
  physicsOvershoot : ℚ
  heatingOvershot : Bool

/-! ## `physics.rs` -/

/-- `HYSTERESIS_F`. -/
def hysteresisF : ℚ := 1 / 2

/-- `DEFAULT_HEATING_RATE_F`. -/
def defaultHeatingRateF (r : Rounding) : ℚ := r.round (3 / 10)

/-- The float of a hundredth. -/
def hundredth (r : Rounding) : ℚ := r.round (1 / 100)

namespace SpaState

/-- Whether any pump runs. -/
def anyPumpOn (s : SpaState) : Bool := s.pumps.toList.any (· ≠ .off) || s.circPump

/-- How many pumps run. -/
def runningPumpCount (s : SpaState) : ℕ :=
  s.pumps.toList.countP (· ≠ .off) + if s.circPump then 1 else 0

/-- The clock goes on by a minute. -/
def advanceClock (s : SpaState) : SpaState :=
  let minute := s.minute + 1
  if minute ≥ 60 then { s with minute := 0, hour := (s.hour + 1) % 24 } else { s with minute }

end SpaState

/-- The water while it is heated towards a target: its temperature, whether the heater stays on, and
whether it has reached the overshoot. -/
def heatWater (r : Rounding) (effectiveTarget overshoot currentF : ℚ) (heatingOvershot : Bool) :
    ℚ × Bool × Bool :=
  let delta := max (r.round (effectiveTarget - currentF)) 0
  let currentF :=
    if hundredth r < delta then
      let proportionalRate := r.round (defaultHeatingRateF r * r.round (delta / 24))
      let baseRate := max (r.round (1 / 5)) (r.round (delta * hundredth r))
      let rate := r.round (proportionalRate + baseRate)
      min (r.round (currentF + rate)) effectiveTarget
    else currentF
  if r.round (effectiveTarget - hundredth r) ≤ currentF then
    -- The target counts as reached only from below.
    if currentF ≤ r.round (effectiveTarget + hundredth r) then
      (effectiveTarget, false, if 0 < overshoot then true else heatingOvershot)
    else (currentF, false, heatingOvershot)
  else (currentF, true, heatingOvershot)

/-- The water while it cools down. -/
def coolWater (r : Rounding) (ambientF currentF : ℚ) : ℚ :=
  let delta := max (r.round (currentF - ambientF)) 0
  if hundredth r < delta then
    let rate := r.round (1 / 4 * max (r.round (delta / 10)) (r.round (1 / 10)))
    max (r.round (currentF - rate)) ambientF
  else currentF

/-- The temperature of the water in degrees Fahrenheit. -/
structure Thermostat where
  currentF : ℚ
  isHeating : Bool
  heatingOvershot : Bool

/-- What `simulate_physics` does to the water, before the thermostat is asked. -/
def warmWater (r : Rounding) (state : WaterState) (ctx : PhysicsContext) : Thermostat :=
  let ambientF := ctx.ambientTemp.toFahrenheit r
  let setTempF := state.setTemp.toFahrenheit r
  let currentF := state.currentTemp.toFahrenheit r
  let overshoot := ctx.physicsOvershoot
  let hysteresis := if 0 < overshoot then r.round (overshoot / 2) else hysteresisF
  let overshootTarget := r.round (setTempF + overshoot)
  let effectiveTarget := if 0 < overshoot then overshootTarget else r.round (setTempF + hysteresis)
  -- A target that was lowered ends the overshoot.
  let heatingOvershot :=
    if ctx.heatingOvershot && r.round (setTempF + hundredth r) < currentF then false
    else ctx.heatingOvershot
  let isHeating := state.isHeating && state.anyPumpOn && !decide (effectiveTarget < currentF)
  let (currentF, isHeating, heatingOvershot) :=
    if isHeating then heatWater r effectiveTarget overshoot currentF heatingOvershot
    else if ambientF < currentF then (coolWater r ambientF currentF, false, heatingOvershot)
    else (currentF, false, heatingOvershot)
  let currentF :=
    if 0 < state.runningPumpCount ∧ 0 < ctx.pumpHeatContribution then
      let heatGain := r.round (ctx.pumpHeatContribution * state.runningPumpCount)
      let upperBound := max overshootTarget (r.round (currentF + heatGain))
      min (r.round (currentF + heatGain)) upperBound
    else currentF
  ⟨currentF, isHeating, heatingOvershot⟩

/-- The heater is turned on again when the water is cool enough. -/
def Thermostat.control (t : Thermostat) (anyPumpOn : Bool) (lowerTarget : ℚ) : Thermostat :=
  if anyPumpOn then
    if t.heatingOvershot then
      if t.currentF < lowerTarget then { t with isHeating := true, heatingOvershot := false } else t
    else if !t.isHeating && t.currentF < lowerTarget then { t with isHeating := true }
    else t
  else t

/-- `simulate_physics`. -/
def simulatePhysics (r : Rounding) (state : WaterState) (ctx : PhysicsContext) :
    WaterState × PhysicsContext :=
  let setTempF := state.setTemp.toFahrenheit r
  let hysteresis :=
    if 0 < ctx.physicsOvershoot then r.round (ctx.physicsOvershoot / 2) else hysteresisF
  let lowerTarget := r.round (setTempF - hysteresis)
  let t := (warmWater r state ctx).control state.anyPumpOn lowerTarget
  ({ state.advanceClock with
      isHeating := t.isHeating
      currentTemp := (Temperature.mk t.currentF .fahrenheit).convert r state.tempScale },
    { ctx with
      physicsTickCount := ctx.physicsTickCount + 1
      heatingOvershot := t.heatingOvershot })

/-! ## The heater -/

variable (r : Rounding) (state : WaterState) (ctx : PhysicsContext)

/-- The heater is off while no pump runs. -/
theorem isHeating_warmWater (h : state.anyPumpOn = false) :
    (warmWater r state ctx).isHeating = false := by
  have hoff : ∀ b : Bool, (state.isHeating && state.anyPumpOn && b) = false := by
    intro b
    rw [h, Bool.and_false, Bool.false_and]
  unfold warmWater
  dsimp only
  rw [hoff]
  split
  · rename_i hfalse
    exact absurd hfalse Bool.false_ne_true
  · split <;> rfl

/-- The heater is on only while a pump runs. -/
theorem isHeating_simulatePhysics (h : (simulatePhysics r state ctx).1.isHeating = true) :
    (simulatePhysics r state ctx).1.anyPumpOn = true := by
  have hpumps : (simulatePhysics r state ctx).1.anyPumpOn = state.anyPumpOn := by
    unfold simulatePhysics SpaState.anyPumpOn SpaState.advanceClock
    dsimp only
    split <;> rfl
  rw [hpumps]
  by_contra hoff
  rw [Bool.not_eq_true] at hoff
  have hwarm := isHeating_warmWater r state ctx hoff
  have hcontrol :
      (simulatePhysics r state ctx).1.isHeating = (warmWater r state ctx).isHeating := by
    unfold simulatePhysics Thermostat.control
    dsimp only
    rw [if_neg (by rw [hoff]; exact Bool.false_ne_true)]
  rw [hcontrol, hwarm] at h
  exact Bool.false_ne_true h

end Launa.Sim
