import Launa.App.MqttClient
import Launa.Protocol.CommandFrames

/-!
# What is sent for a message

Every command that the app accepts from MQTT has a frame (`parseCommand_sendable`): what the command
parser lets through is within what `Command::encode` takes.

A set temperature is rounded twice from one number: to whole degrees, which are checked against the
limits of the spa, and to the steps of the wire, which are sent. In degrees Celsius a step is half a
degree, so up to half a degree beyond a limit is let through, and what is sent is within the limits
only up to half a step beyond them (`sentInRange_iff`).
-/

namespace Launa.App

open Ota Protocol Mqtt

/-! ## What is accepted can be sent -/

/-- The command is encoded, and its payload is framed. -/
def Sendable (cmd : Command) : Prop :=
  ∃ msgType payload bytes, cmd.encode = .ok (msgType, payload) ∧
    FrameEncoder.encode msgType payload = .ok bytes ∧ encodeCommand cmd = bytes ∧ bytes ≠ []

/-- A command that is encoded is sent, since no payload of one is too long. -/
theorem sendable_of_encode {cmd : Command} {parts : MessageType × List UInt8}
    (h : cmd.encode = .ok parts) : Sendable cmd := by
  obtain ⟨msgType, payload⟩ := parts
  have hframe := encode_encodeCommand h
  refine ⟨msgType, payload, encodeCommand cmd, h, hframe, rfl, ?_⟩
  rw [(Frame.encode_eq_ok.1 hframe).2]
  exact List.cons_ne_nil _ _

/-- A temperature within the limit of the wire. -/
theorem sendable_setTemperature {temp : UInt8} (h : temp ≤ absoluteMaxTempF) :
    Sendable (.setTemperature temp) := by
  have hencode : (Command.setTemperature temp).encode = .ok ((0x0A, 0xBF), [0x20, temp]) := by
    rw [Command.encode, if_neg (UInt8.not_lt.2 h)]
  exact sendable_of_encode hencode

section Parser

variable {payload : List Char} {cmd : Command}

/-- A toggle can be sent. -/
theorem parseToggle_sendable {item : ToggleItem} (h : parseToggle payload item = .valid cmd) :
    Sendable cmd := by
  unfold parseToggle at h
  split at h
  · cases h
  · obtain rfl := ParseResult.valid.inj h
    exact sendable_of_encode rfl

/-- A pump timer is no command. -/
theorem parsePumpTimer_ne_valid {pumpIndex : UInt8} :
    parsePumpTimer payload pumpIndex ≠ .valid cmd := by
  intro h
  unfold parsePumpTimer at h
  split at h
  · split at h <;> cases h
  · cases h

/-- A set temperature that is parsed can be sent. -/
theorem parseSetTemperature_sendable {r : Rounding}
    (h : parseSetTemperature r payload = .valid cmd) : Sendable cmd := by
  unfold parseSetTemperature at h
  split at h
  · cases h
  · dsimp only at h
    split_ifs at h with hrange hzero hmax
    obtain rfl := ParseResult.valid.inj h
    exact sendable_setTemperature (UInt8.not_lt.1 hmax)
  · cases h

/-- A time that is valid has no bit where the 24-hour flag goes. -/
theorem validateTime_sendable {hour minute : ℕ} {is24h : Bool}
    (h : validateTime hour minute is24h = .valid cmd) : Sendable cmd := by
  unfold validateTime at h
  split at h
  · cases h
  · next hrange =>
    obtain rfl := ParseResult.valid.inj h
    have hhour : ∀ n < 24, (UInt8.ofNat n > 23 || UInt8.ofNat n &&& 0x80 != 0) = false := by decide
    have hminute : ∀ n < 60, ¬ UInt8.ofNat n > 59 := by decide
    apply sendable_of_encode
    rw [Command.encode, hhour hour (by omega), if_neg Bool.false_ne_true,
      if_neg (hminute minute (by omega))]

/-- A time that is parsed can be sent. -/
theorem parseSetTime_sendable (h : parseSetTime payload = .valid cmd) : Sendable cmd := by
  unfold parseSetTime at h
  dsimp only at h
  repeat' split at h
  all_goals first | exact validateTime_sendable h | cases h

/-- A preference that is parsed can be sent. -/
theorem parseSetPreference_sendable (h : parseSetPreference payload = .valid cmd) :
    Sendable cmd := by
  unfold parseSetPreference at h
  dsimp only at h
  repeat' split at h
  all_goals first
    | cases h; done
    | obtain rfl := ParseResult.valid.inj h; exact sendable_of_encode rfl

/-- Whatever the parser of a sub-topic accepts can be sent. -/
theorem parseSubtopic_sendable {r : Rounding} {subtopic : List Char}
    (h : parseSubtopic r subtopic payload = .valid cmd) : Sendable cmd := by
  unfold parseSubtopic at h
  repeat' split at h
  all_goals first
    | exact parseToggle_sendable h
    | exact absurd h parsePumpTimer_ne_valid
    | exact parseSetTemperature_sendable h
    | exact parseSetTime_sendable h
    | exact parseSetPreference_sendable h
    | cases h

end Parser

/-- Whatever the app accepts as a command can be sent, for every scale and range. -/
theorem parseCommand_sendable (r : Rounding) (commandTopicBase topic : List Char)
    (payload : List UInt8) (scale : Option TemperatureScale) (range : Option TempRange)
    (cmd : Command)
    (h : parseCommand r commandTopicBase topic payload scale range = some (.command cmd)) :
    Sendable cmd := by
  by_cases htemp : ∃ wireValue, cmd = .setTemperature wireValue
  · obtain ⟨wireValue, rfl⟩ := htemp
    obtain ⟨s, -, hle⟩ := parseCommand_setTemperature h
    have hmax : hardLimit s ≤ absoluteMaxTempF := by cases s <;> decide
    exact sendable_setTemperature (UInt8.le_trans hle hmax)
  · -- The command is the one that the parser made.
    have hparse : Mqtt.parseCommand r commandTopicBase topic payload = .valid cmd := by
      unfold parseCommand at h
      split at h
      · repeat' split at h
        all_goals first
          | cases h; done
          | exact absurd ⟨_, (MqttAction.command.inj (Option.some.inj h)).symm⟩ htemp
      · next hvalid =>
        rw [hvalid, MqttAction.command.inj (Option.some.inj h)]
      all_goals cases h
    unfold Mqtt.parseCommand at hparse
    split at hparse
    · split at hparse
      · cases hparse
      · split at hparse
        · cases hparse
        · exact parseSubtopic_sendable hparse
    · cases hparse

/-- The last minute of the day, which is the largest time that is encoded. -/
theorem parseCommand_sendable_lastMinute : Sendable (.setTime 23 59 false) :=
  parseCommand_sendable .exact "base".toList "base/set_time".toList
    [0x32, 0x33, 0x3A, 0x35, 0x39] none none _ (by decide +kernel)

/-! ## Where a set temperature is within its limits -/

/-- The minimum and the maximum of `validate_set_temperature`. -/
def temperatureLimits : TemperatureScale → TempRange → UInt8 × UInt8
  | .fahrenheit, .high => (80, 104)
  | .fahrenheit, .low => (50, 80)
  | .celsius, .high => (26, 40)
  | .celsius, .low => (10, 26)

/-- Three checks in a row, of which the first one is not stricter than the last. -/
theorem checks_eq_ok {temp value min max absMax : UInt8} (h : max ≤ absMax) :
    (if temp > absMax then .error TempError.aboveAbsoluteLimit
      else if temp < min then .error .belowMin
      else if temp > max then .error .aboveMax
      else .ok temp) = Except.ok value ↔ value = temp ∧ min ≤ temp ∧ temp ≤ max := by
  split
  · next habs =>
    exact ⟨nofun, fun ⟨_, _, hmax⟩ => absurd (UInt8.le_trans hmax h) (UInt8.not_le.2 habs)⟩
  split
  · next hmin => exact ⟨nofun, fun ⟨_, hle, _⟩ => absurd hle (UInt8.not_le.2 hmin)⟩
  split
  · next hmax => exact ⟨nofun, fun ⟨_, _, hle⟩ => absurd hle (UInt8.not_le.2 hmax)⟩
  · next hmin hmax =>
    exact ⟨fun heq => ⟨(Except.ok.inj heq).symm, UInt8.not_lt.1 hmin, UInt8.not_lt.1 hmax⟩,
      fun heq => congrArg _ heq.1.symm⟩

/-- These are its limits. -/
theorem validateSetTemperature_eq_ok {temp value : UInt8} {s : TemperatureScale} {rng : TempRange} :
    validateSetTemperature temp s rng = .ok value ↔ value = temp ∧
      (temperatureLimits s rng).1 ≤ temp ∧ temp ≤ (temperatureLimits s rng).2 := by
  cases s <;> cases rng <;> exact checks_eq_ok (by decide)

/-- The steps of the wire in a degree. -/
def wireSteps : TemperatureScale → ℕ
  | .fahrenheit => 1
  | .celsius => 2

/-- What is sent, read back in its scale, is within the limits of the scale and range, and no more
than half a step of the wire from what was asked for. -/
def SentInRange (s : TemperatureScale) (rng : TempRange) (wireValue : UInt8) (requested : ℚ) :
    Prop :=
  let sent := (Temperature.fromWire wireValue s).value
  ((temperatureLimits s rng).1.toNat : ℚ) ≤ sent ∧ sent ≤ (temperatureLimits s rng).2.toNat ∧
    |sent - requested| ≤ 1 / 2 / wireSteps s

/-- The number that the firmware reads is no more than half a step of the wire below the minimum,
and less than that above the maximum. And reading it as a 32-bit float does not take it from below
the middle between two steps to the upper one. -/
def RequestedInRange (s : TemperatureScale) (rng : TempRange) (requested : ℚ) : Prop :=
  let read := Rounding.binary32.round requested
  ((temperatureLimits s rng).1.toNat : ℚ) - 1 / 2 / wireSteps s ≤ read ∧
    read < (temperatureLimits s rng).2.toNat + 1 / 2 / wireSteps s ∧
    ∀ n : ℕ, requested < (n + 1 / 2) / wireSteps s → read < (n + 1 / 2) / wireSteps s

/-- What is sent for a number that the firmware read, and the whole degrees that it checked. -/
theorem parseCommand_wireValue {r : Rounding} {commandTopicBase topic : List Char}
    {payload : List UInt8} {s : TemperatureScale} {rng : TempRange} {wireValue : UInt8}
    (h : parseCommand r commandTopicBase topic payload (some s) (some rng) =
      some (.command (.setTemperature wireValue))) :
    ∃ t temp, (utf8Decode payload).bind (F32.parse r) = some (.finite t) ∧
      temp = ((F32.finite t).add r (1 / 2)).toU8 ∧ (temperatureLimits s rng).1 ≤ temp ∧
      temp ≤ (temperatureLimits s rng).2 ∧ (s = .fahrenheit → wireValue = temp) ∧
      (s = .celsius → wireValue = (((F32.finite t).mul r 2).add r (1 / 2)).toU8) := by
  unfold parseCommand at h
  split at h
  · next temp hparse =>
    obtain ⟨t, hread, -, -, htemp⟩ := Mqtt.parseCommand_setTemperature hparse
    dsimp only at h
    split at h
    · next value hvalid =>
      obtain ⟨-, hmin, hmax⟩ := validateSetTemperature_eq_ok.1 hvalid
      have hwire := Command.setTemperature.inj (MqttAction.command.inj (Option.some.inj h))
      refine ⟨t, temp, hread, htemp, hmin, hmax, ?_, ?_⟩
      · rintro rfl
        exact hwire.symm
      · rintro rfl
        rw [← hwire, hread]
        rfl
    · cases h
  · next cmd hne hparse =>
    obtain rfl := MqttAction.command.inj (Option.some.inj h)
    exact absurd rfl (hne wireValue)
  all_goals cases h

/-- A decimal number without a sign is not negative. -/
theorem parseDecimal_nonneg {cs : List Char} {value : ℚ} (h : F32.parseDecimal cs = some value) :
    0 ≤ value := by
  unfold F32.parseDecimal at h
  dsimp only at h
  repeat' split at h
  all_goals first
    | cases h; done
    | obtain ⟨exponent, -, hvalue⟩ := Option.bind_eq_some_iff.1 h
      obtain rfl := Option.some.inj hvalue
      exact mul_nonneg (Nat.cast_nonneg _) (zpow_nonneg (by norm_num) _)

/-- A number that is read exactly is also read with rounding: it is rounded, or with a minus sign it
is not positive. -/
theorem parse_of_parse_exact (r : Rounding) {text : List Char} {v : ℚ}
    (h : F32.parse .exact text = some (.finite v)) :
    ∃ t, F32.parse r text = some (.finite t) ∧ (t = r.round v ∨ t ≤ 0) := by
  have hsigned : ∀ (negative : Bool) (cs : List Char),
      (F32.parseDecimal cs).map (fun value => F32.finite
        (if negative then -Rounding.exact.round value else Rounding.exact.round value)) =
          some (.finite v) →
      ∃ t, (F32.parseDecimal cs).map (fun value => F32.finite
        (if negative then -r.round value else r.round value)) = some (.finite t) ∧
          (t = r.round v ∨ t ≤ 0) := by
    intro negative cs hread
    obtain ⟨value, hvalue, hfinite⟩ := Option.map_eq_some_iff.1 hread
    rw [hvalue]
    refine ⟨_, rfl, ?_⟩
    cases negative with
    | false =>
      left
      rw [← F32.finite.inj hfinite]
      rfl
    | true =>
      right
      have hround := r.le_round (n := 0) (k := 0) (by norm_num) (by norm_num)
        (show ((0 : ℕ) : ℚ) / 2^0 ≤ value by simpa using parseDecimal_nonneg hvalue)
      norm_num at hround
      simpa using hround
  revert h
  unfold F32.parse
  dsimp only
  split
  all_goals
    dsimp only
    split
    · intro h
      cases h
    split
    · intro h
      cases h
    exact hsigned _ _

/-- A finite number saturates at the bounds of a byte. -/
theorem toNat_toU8 (y : ℚ) : (F32.finite y).toU8.toNat = min ⌊y⌋.toNat 255 := by
  rw [F32.toU8, UInt8.toNat_ofNat']
  exact Nat.mod_eq_of_lt (by omega)

/-- A number whose whole degrees are between 10 and 104 is well inside what a float is exact for. -/
theorem read_bounds {r : Rounding} {t : ℚ} {temp : UInt8}
    (htemp : temp = ((F32.finite t).add r (1 / 2)).toU8) (hmin : 10 ≤ temp) (hmax : temp ≤ 104) :
    8 < t ∧ t < 105 := by
  have hnat : temp.toNat = min ⌊r.round (t + 1 / 2)⌋.toNat 255 := by
    rw [htemp]
    exact toNat_toU8 _
  have hmin' : 10 ≤ temp.toNat := UInt8.le_iff_toNat_le.1 hmin
  have hmax' : temp.toNat ≤ 104 := UInt8.le_iff_toNat_le.1 hmax
  have hlow : ((10 : ℤ) : ℚ) ≤ r.round (t + 1 / 2) := Int.le_floor.1 (by omega)
  have hhigh : r.round (t + 1 / 2) < ((105 : ℤ) : ℚ) := Int.floor_lt.1 (by omega)
  push_cast at hlow hhigh
  constructor
  · by_contra hle
    have hround := r.round_le (x := t + 1 / 2) (n := 9) (k := 0) (by norm_num) (by norm_num)
      (by push_cast; linarith)
    norm_num at hround
    linarith
  · by_contra hge
    have hround := r.le_round (x := t + 1 / 2) (n := 105) (k := 0) (by norm_num) (by norm_num)
      (by push_cast; linarith)
    norm_num at hround
    linarith

/-- The limits are all between these. -/
theorem temperatureLimits_bounds (s : TemperatureScale) (rng : TempRange) :
    10 ≤ (temperatureLimits s rng).1 ∧ (temperatureLimits s rng).2 ≤ 104 := by
  cases s <;> cases rng <;> decide

/-- The byte of a number whose whole part is one. -/
theorem toU8_of_floor_eq {y y' : ℚ} (hy : 1 ≤ y) (hlt : y < 255) (hfloor : ⌊y'⌋ = ⌊y⌋) :
    1 ≤ (F32.finite y').toU8.toNat ∧ ((F32.finite y').toU8.toNat : ℤ) = ⌊y⌋ := by
  have hone : 1 ≤ ⌊y⌋ := Int.le_floor.2 (by exact_mod_cast hy)
  have hbyte : ⌊y⌋ < 255 := Int.floor_lt.2 (by exact_mod_cast hlt)
  rw [toNat_toU8, hfloor]
  omega

/-- A positive number that is read is the rounded one. -/
theorem round_eq_of_parse {r : Rounding} {text : List Char} {v t : ℚ}
    (hv : F32.parse .exact text = some (.finite v)) (ht : F32.parse r text = some (.finite t))
    (hpos : 0 < t) : r.round v = t := by
  obtain ⟨t', hread, hround⟩ := parse_of_parse_exact r hv
  obtain rfl := F32.finite.inj (Option.some.inj (ht.symm.trans hread))
  exact (hround.resolve_right (not_le.2 hpos)).symm

/-- The first bit of a float below 105 leaves room for a half behind the last one. -/
theorem exists_normal_round {v : ℚ} (hlow : 8 < Rounding.binary32.round v)
    (hhigh : Rounding.binary32.round v < 105) :
    ∃ e < 7, Rounding.Normal 23 e (Rounding.binary32.round v) := by
  obtain ⟨e, -, hnormal⟩ : ∃ e ≤ 23, Rounding.Normal 23 e (Rounding.binary32.round v) :=
    Rounding.exists_normal_nearest (by norm_num) (by linarith : 1 ≤ Rounding.binary32.round v)
      (by norm_num; linarith : Rounding.binary32.round v < 2^(23 + 1))
  refine ⟨e, ?_, hnormal⟩
  have hpow : (2 : ℚ)^e < 2^7 := by
    norm_num
    linarith [hnormal.le]
  exact (pow_lt_pow_iff_right₀ (by norm_num)).1 hpow

/-- What is sent is the nearest step of the wire to the float that was read, the upper one of
two. -/
theorem wireValue_floor {v : ℚ} {commandTopicBase topic : List Char} {payload : List UInt8}
    {text : List Char} {s : TemperatureScale} {rng : TempRange} {wireValue : UInt8}
    (htext : utf8Decode payload = some text) (hv : F32.parse .exact text = some (.finite v))
    (h : parseCommand .binary32 commandTopicBase topic payload (some s) (some rng) =
      some (.command (.setTemperature wireValue))) :
    1 ≤ wireValue.toNat ∧
      (wireValue.toNat : ℤ) = ⌊wireSteps s * Rounding.binary32.round v + 1 / 2⌋ := by
  obtain ⟨t, temp, hread, htemp, hmin, hmax, hfahrenheit, hcelsius⟩ := parseCommand_wireValue h
  obtain ⟨hlow, hhigh⟩ := temperatureLimits_bounds s rng
  obtain ⟨ht8, ht105⟩ :=
    read_bounds htemp (UInt8.le_trans hlow hmin) (UInt8.le_trans hmax hhigh)
  rw [htext, Option.bind_some] at hread
  have ht : Rounding.binary32.round v = t := round_eq_of_parse hv hread (by linarith)
  rw [← ht] at htemp hcelsius ht8 ht105
  obtain ⟨e, he, hnormal⟩ := exists_normal_round ht8 ht105
  generalize Rounding.binary32.round v = t at htemp hcelsius ht8 ht105 hnormal ⊢
  cases s with
  | fahrenheit =>
    rw [hfahrenheit rfl, htemp, wireSteps, Nat.cast_one, one_mul]
    exact toU8_of_floor_eq (by linarith) (by linarith)
      (hnormal.floor_nearest_add_half (by omega) (by norm_num))
  | celsius =>
    have hdouble := hnormal.double (by omega)
    have hexact : Rounding.binary32.round (t * 2) = t * 2 :=
      hdouble.nearest_eq (by omega) (by norm_num)
    rw [hcelsius rfl, wireSteps, Nat.cast_ofNat, mul_comm 2 t, F32.mul, F32.add, hexact]
    exact toU8_of_floor_eq (by linarith) (by linarith)
      (hdouble.floor_nearest_add_half (by omega) (by norm_num))

section Steps

variable {k w : ℕ} {t v : ℚ}

/-- The nearest whole number of steps is no more than half a step away. -/
theorem step_bounds (hk : (0 : ℚ) < k) (hfloor : (w : ℤ) = ⌊k * t + 1 / 2⌋) :
    (w : ℚ) / k - 1 / 2 / k ≤ t ∧ t < (w : ℚ) / k + 1 / 2 / k := by
  have hle := Int.floor_le ((k : ℚ) * t + 1 / 2)
  have hlt := Int.lt_floor_add_one ((k : ℚ) * t + 1 / 2)
  rw [← hfloor, Int.cast_natCast] at hle hlt
  constructor
  · rw [← sub_div, div_le_iff₀ hk, mul_comm t]
    linarith
  · rw [← add_div, lt_div_iff₀ hk, mul_comm t]
    linarith

/-- Less than a step above a step there is no other one. -/
theorem step_le_of_lt (hk : (0 : ℚ) < k) {m n : ℕ} (h : (m : ℚ) / k < n / k + 1 / k) :
    (m : ℚ) / k ≤ n / k := by
  rw [← add_div, div_lt_div_iff_of_pos_right hk] at h
  have hlt : m < n + 1 := by exact_mod_cast h
  exact (div_le_div_iff_of_pos_right hk).2 (Nat.cast_le.2 (by omega))

/-- The middle above a step is a number that is not rounded, and that no rounding goes below. -/
theorem middle_le_round (r : Rounding) (hk : k = 1 ∨ k = 2) (hwlt : w < 2^8)
    (h : (w : ℚ) / k + 1 / 2 / k ≤ v) : (w : ℚ) / k + 1 / 2 / k ≤ r.round v := by
  rcases hk with rfl | rfl
  · have hround := r.le_round (x := v) (n := 2 * w + 1) (k := 1) (by omega) (by norm_num)
      (by push_cast at h ⊢; linarith)
    push_cast at hround ⊢
    linarith
  · have hround := r.le_round (x := v) (n := 2 * w + 1) (k := 2) (by omega) (by norm_num)
      (by push_cast at h ⊢; linarith)
    push_cast at hround ⊢
    linarith

/-- The whole number nearest to `k` times a rounded one, as a number of `k`-ths: where it is within
two limits and near the number before rounding. -/
theorem nearestStep_iff (r : Rounding) {lo hi : ℕ} (hk : k = 1 ∨ k = 2) (hw : 1 ≤ w)
    (hwlt : w < 2^8) (ht : t = r.round v) (hfloor : (w : ℤ) = ⌊k * t + 1 / 2⌋) :
    (lo : ℚ) ≤ w / k ∧ (w : ℚ) / k ≤ hi ∧ |(w : ℚ) / k - v| ≤ 1 / 2 / k ↔
      lo - 1 / 2 / (k : ℚ) ≤ t ∧ t < hi + 1 / 2 / (k : ℚ) ∧
        ∀ n : ℕ, v < (n + 1 / 2) / (k : ℚ) → t < (n + 1 / 2) / (k : ℚ) := by
  have hkpos : (0 : ℚ) < k := by
    rcases hk with rfl | rfl <;> norm_num
  obtain ⟨hle, hlt⟩ := step_bounds hkpos hfloor
  have hv : v ≤ (w : ℚ) / k + 1 / 2 / k := by
    by_contra h
    have hmiddle := middle_le_round r hk hwlt (not_le.1 h).le
    rw [← ht] at hmiddle
    linarith
  have hstep : ∀ n : ℕ, (n + 1 / 2) / (k : ℚ) = n / k + 1 / 2 / k := fun n => add_div _ _ _
  have hwhole : ∀ n : ℕ, (n : ℚ) = ((n * k : ℕ) : ℚ) / k := fun n => by
    push_cast
    exact (mul_div_cancel_right₀ _ hkpos.ne').symm
  have htwo : 1 / (k : ℚ) = 1 / 2 / k + 1 / 2 / k := by rw [← add_div, add_halves]
  constructor
  · rintro ⟨hlo, hhi, hnear⟩
    have hnear' := (abs_le.1 hnear).2
    refine ⟨by linarith, by linarith, fun n hn => ?_⟩
    rw [hstep] at hn ⊢
    have hwn : (w : ℚ) / k ≤ n / k := step_le_of_lt hkpos (by linarith)
    linarith
  · rintro ⟨hlo, hhi, hcarry⟩
    refine ⟨?_, ?_, abs_le.2 ⟨by linarith, ?_⟩⟩
    · rw [hwhole lo] at hlo ⊢
      exact step_le_of_lt hkpos (by linarith)
    · rw [hwhole hi] at hhi ⊢
      exact step_le_of_lt hkpos (by linarith)
    -- Otherwise the number has been rounded to the middle below the step.
    · by_contra h
      obtain ⟨n, rfl⟩ : ∃ n, w = n + 1 := ⟨w - 1, by omega⟩
      have hn := hcarry n
      rw [hstep] at hn
      have hnext : ((n + 1 : ℕ) : ℚ) / k = n / k + 1 / k := by rw [Nat.cast_add_one, add_div]
      rw [hnext] at hle h
      linarith [hn (by linarith)]

end Steps

/-- What is sent for an accepted set temperature is within the limits, and near to what was asked
for, if and only if what was asked for is within half a step of the wire of the limits, and is not
taken over the middle between two steps when it is read. -/
theorem sentInRange_iff (commandTopicBase topic : List Char) (payload : List UInt8)
    (text : List Char) (requested : ℚ) (s : TemperatureScale) (rng : TempRange)
    (wireValue : UInt8) (htext : utf8Decode payload = some text)
    (hrequested : F32.parse .exact text = some (.finite requested))
    (h : parseCommand .binary32 commandTopicBase topic payload (some s) (some rng) =
      some (.command (.setTemperature wireValue))) :
    SentInRange s rng wireValue requested ↔ RequestedInRange s rng requested := by
  obtain ⟨hone, hfloor⟩ := wireValue_floor htext hrequested h
  have hvalue : (Temperature.fromWire wireValue s).value = (wireValue.toNat : ℚ) / wireSteps s := by
    cases s with
    | fahrenheit => exact (div_one _).symm.trans (by rw [wireSteps, Nat.cast_one]; rfl)
    | celsius => rfl
  have hsteps : wireSteps s = 1 ∨ wireSteps s = 2 := by cases s <;> simp [wireSteps]
  unfold SentInRange RequestedInRange
  rw [hvalue]
  exact nearestStep_iff .binary32 hsteps hone wireValue.toNat_lt rfl hfloor

/-- 38.5 degrees Celsius are sent as they are. -/
theorem sentInRange_iff_celsius : SentInRange .celsius .high 77 (77 / 2) := by
  have hround : Rounding.binary32.round (77 / 2) = 77 / 2 := by
    have h := Rounding.binary32.bits 77 1 (by norm_num) (by norm_num)
    norm_num at h
    exact h
  refine (sentInRange_iff "base".toList "base/set_temperature".toList [0x33, 0x38, 0x2E, 0x35]
    "38.5".toList (77 / 2) .celsius .high 77 (by decide +kernel) (by decide +kernel)
    (by decide +kernel)).2 ?_
  unfold RequestedInRange
  rw [hround]
  refine ⟨?_, ?_, fun n h => h⟩
  · norm_num [temperatureLimits, wireSteps, show UInt8.toNat 26 = 26 from rfl]
  · norm_num [temperatureLimits, wireSteps, show UInt8.toNat 40 = 40 from rfl]

/-- 40.4 degrees Celsius are accepted as 40, and sent as 40.5, above the maximum. -/
theorem sent_aboveMax :
    F32.parse .exact "40.4".toList = some (.finite (404 / 10)) ∧
    parseCommand .binary32 "base".toList "base/set_temperature".toList [0x34, 0x30, 0x2E, 0x34]
      (some .celsius) (some .high) = some (.command (.setTemperature 81)) ∧
    ¬ SentInRange .celsius .high 81 (404 / 10) := by
  refine ⟨by decide +kernel, by decide +kernel, fun h => absurd h.2.1 ?_⟩
  norm_num [temperatureLimits, Temperature.fromWire, show UInt8.toNat 40 = 40 from rfl,
    show UInt8.toNat 81 = 81 from rfl]

end Launa.App
