import Launa.Protocol.Temperature
import Launa.Sim.SpaSim

/-!
# The status frames of the simulator

`generate_status_frame` converts the current temperature to the scale of the spa and sends it, but
sends the set temperature by its number in the scale that it is stored in. A status frame decodes to
the state of the spa exactly when the set temperature is stored in the scale of the spa, and neither
temperature is the one that the byte `0xFF` would be: that one says that the current temperature is
unknown, and the encoder rejects it (`decodes_iff`).
-/

namespace Launa.Sim

open Protocol

/-! ## `frame_gen.rs` -/

/-- The byte of the current temperature in `generate_status_frame`, without noise. -/
def currentTempByte (r : Rounding) (scale : TemperatureScale) (currentTemp : Temperature) : UInt8 :=
  match ((Temperature.mk (currentTemp.toFahrenheit r) .fahrenheit).convert r scale).toWire with
  | .ok raw => raw
  | .error _ => 0xFF

/-- The bytes of `generate_status_frame`, without a fault, priming or injected errors. -/
def SpaState.statusBytes (r : Rounding) (s : SpaState) (currentTemp : Temperature) :
    Option (List UInt8) :=
  (s.generateStatusFrame 0 (currentTempByte r s.tempScale currentTemp)).bind fun frame =>
    frame.encode.toOption

/-! ## What is decoded -/

/-- The same temperature, in whichever scales. -/
def SameTemp (t t' : Temperature) : Prop := t.toFahrenheit .exact = t'.toFahrenheit .exact

/-- The temperature is a whole number of steps of the wire. -/
def Representable (scale : TemperatureScale) (t : Temperature) : Prop :=
  ∃ raw : UInt8, SameTemp (.fromWire raw scale) t

/-- The status says of the spa what its state is. -/
structure Shows (s : SpaState) (currentTemp : Temperature) (status : StatusUpdate) : Prop
    extends Truthful s status where
  hour : status.hour = s.hour
  minute : status.minute = s.minute
  isHeating : status.isHeating = s.isHeating
  temperatureScale : status.temperatureScale = s.tempScale
  circPump : status.circPump = s.circPump
  mister : status.mister = s.mister
  currentTemp : ∃ t, status.currentTemp = some t ∧ SameTemp t currentTemp
  setTemp : SameTemp status.setTemp s.setTemp

/-- The bytes are one frame, which is dispatched as a status that shows the state. -/
def Decodes (s : SpaState) (currentTemp : Temperature) : Prop :=
  ∃ bytes frame status, s.statusBytes .exact currentTemp = some bytes ∧
    FrameDecoder.new.feedSlice bytes = some ([frame], .new) ∧
    dispatchFrame frame = .statusUpdate status ∧ Shows s currentTemp status

/-! ## The temperatures -/

/-- The byte of a number of steps of the wire. -/
def stepsToWire (steps : ℚ) : Except TemperatureError UInt8 :=
  if steps + 1 / 2 < 0 then .error .negative
  else if steps + 1 / 2 > 255 then .error .overflow
  else .ok (UInt8.ofNat ⌊steps + 1 / 2⌋.toNat)

/-- A temperature is sent in whole degrees Fahrenheit or in half degrees Celsius. -/
theorem toWire_eq (value : ℚ) (scale : TemperatureScale) :
    (Temperature.mk value scale).toWire =
      match scale with
      | .fahrenheit => stepsToWire value
      | .celsius => stepsToWire (value * 2) := by
  cases scale <;> rfl

/-- A whole number of steps is its byte, but for the last one. -/
theorem stepsToWire_toNat (raw : UInt8) :
    stepsToWire raw.toNat = if raw = 0xFF then .error .overflow else .ok raw := by
  have hfloor : ⌊(raw.toNat : ℚ) + 1 / 2⌋ = raw.toNat := by
    rw [Int.floor_eq_iff]
    constructor <;> push_cast <;> linarith
  have hpos : ¬ (raw.toNat : ℚ) + 1 / 2 < 0 := not_lt.2 (by positivity)
  rw [stepsToWire, if_neg hpos, hfloor, Int.toNat_natCast, UInt8.ofNat_toNat]
  by_cases hraw : raw = 0xFF
  · subst hraw
    norm_num [show UInt8.toNat 255 = 255 from rfl]
  · have hne : raw.toNat ≠ 255 := fun h => hraw (UInt8.toNat_inj.1 h)
    have hle : raw.toNat ≤ 254 := by
      have hlt := raw.toNat_lt
      omega
    have hcast : (raw.toNat : ℚ) ≤ 254 := by exact_mod_cast hle
    rw [if_neg hraw, if_neg (not_lt.2 (by linarith))]

/-- The byte of a number of steps is the nearest whole one. -/
theorem stepsToWire_bounds {steps : ℚ} {raw : UInt8} (h : stepsToWire steps = .ok raw) :
    (raw.toNat : ℚ) ≤ steps + 1 / 2 ∧ steps + 1 / 2 < raw.toNat + 1 := by
  unfold stepsToWire at h
  split_ifs at h with hneg hover
  have hlow : 0 ≤ ⌊steps + 1 / 2⌋ := Int.floor_nonneg.2 (not_lt.1 hneg)
  have hhigh : ⌊steps + 1 / 2⌋ < 256 := Int.floor_lt.2 (by push_cast; linarith [not_lt.1 hover])
  have hfloor : ⌊steps + 1 / 2⌋ = raw.toNat := by
    rw [← Except.ok.inj h, UInt8.toNat_ofNat', Nat.mod_eq_of_lt (by omega)]
    omega
  rw [Int.floor_eq_iff] at hfloor
  exact_mod_cast hfloor

/-- A byte is sent as it was received, unless it stands for none. -/
theorem toWire_fromWire (raw : UInt8) (scale : TemperatureScale) :
    (Temperature.fromWire raw scale).toWire =
      if raw = 0xFF then .error .overflow else .ok raw := by
  unfold Temperature.fromWire
  rw [← stepsToWire_toNat, toWire_eq]
  cases scale with
  | fahrenheit => rfl
  | celsius => exact congrArg stepsToWire (div_mul_cancel₀ _ two_ne_zero)

/-- A temperature that is equal to that of a byte converts to it. -/
theorem convert_eq_fromWire {raw : UInt8} {scale : TemperatureScale} {t : Temperature}
    (h : SameTemp (.fromWire raw scale) t) :
    (Temperature.mk (t.toFahrenheit .exact) .fahrenheit).convert .exact scale =
      .fromWire raw scale := by
  rw [← h]
  cases scale with
  | fahrenheit => rfl
  | celsius =>
    show Temperature.mk _ _ = Temperature.mk _ _
    simp only [Temperature.toCelsius, Temperature.toFahrenheit, Temperature.fromWire,
      Rounding.exact_round]
    congr 1
    ring

/-- The byte of a current temperature is that of an equal one. -/
theorem currentTempByte_eq {raw : UInt8} {scale : TemperatureScale} {t : Temperature}
    (h : SameTemp (.fromWire raw scale) t) : currentTempByte .exact scale t = raw := by
  rw [currentTempByte, convert_eq_fromWire h, toWire_fromWire]
  split_ifs with hraw
  · exact hraw.symm
  · rfl

/-- In one scale the same temperature is the same value. -/
theorem eq_fromWire_of_sameTemp {raw : UInt8} {t : Temperature}
    (h : SameTemp (.fromWire raw t.scale) t) : t = .fromWire raw t.scale := by
  obtain ⟨value, scale⟩ := t
  cases scale with
  | fahrenheit => exact congrArg (Temperature.mk · _) h.symm
  | celsius =>
    simp only [SameTemp, Temperature.toFahrenheit, Temperature.fromWire, Rounding.exact_round] at h
    refine congrArg (Temperature.mk · _) ?_
    dsimp only
    linarith

/-- By its number in the other scale a temperature is sent as another one. -/
theorem toWire_ne_of_scale_ne {raw : UInt8} {scale : TemperatureScale} {t : Temperature}
    (h : SameTemp (.fromWire raw scale) t) (hscale : t.scale ≠ scale) : t.toWire ≠ .ok raw := by
  have hlt : (raw.toNat : ℚ) < 256 := by exact_mod_cast raw.toNat_lt
  obtain ⟨value, tscale⟩ := t
  intro hwire
  rw [toWire_eq] at hwire
  cases scale <;> cases tscale
  · exact hscale rfl
  · have hbounds := stepsToWire_bounds hwire
    simp only [SameTemp, Temperature.toFahrenheit, Temperature.fromWire, Rounding.exact_round] at h
    linarith
  · have hbounds := stepsToWire_bounds hwire
    simp only [SameTemp, Temperature.toFahrenheit, Temperature.fromWire, Rounding.exact_round] at h
    linarith
  · exact hscale rfl

/-- A temperature is that of one byte. -/
theorem sameTemp_fromWire_iff {raw raw' : UInt8} {scale : TemperatureScale} {t : Temperature}
    (h : SameTemp (.fromWire raw scale) t) :
    SameTemp (.fromWire raw' scale) t ↔ raw' = raw := by
  have hbyte : (Temperature.fromWire raw' scale).toFahrenheit .exact =
      (Temperature.fromWire raw scale).toFahrenheit .exact ↔ raw' = raw :=
    Temperature.fromWire_eq_iff .exact
  rw [← hbyte]
  exact ⟨fun h' => h'.trans h.symm, fun h' => h'.trans h⟩

/-! ## The frame -/

/-- The status of a frame with these bytes of the temperatures. -/
def statusOf (s : SpaState) (currentTemp setTemp : UInt8) : StatusUpdate where
  currentTemp := if currentTemp = 0xFF then none else some (.fromWire currentTemp s.tempScale)
  setTemp := .fromWire setTemp s.tempScale
  hour := s.hour
  minute := s.minute
  heatingMode := s.heatingMode
  temperatureScale := s.tempScale
  timeFormat := .hour24
  filterMode := 0
  isHeating := s.isHeating
  tempRange := s.tempRange
  pumps := s.pumps
  circPump := s.circPump
  blower := s.blower
  mister := s.mister
  lights := s.lights
  isPriming := false
  isHold := s.hold
  notificationType := 0
  panelLocked := false
  settingsLock := false
  m8CycleTime := 0
  sensorATemp := if s.hold then none else some (.fromWire 0 s.tempScale)
  sensorBTemp := none
  holdTimerMinutes := if s.hold then some 0 else none

/-- Every field of the payload is read back. -/
theorem parse_statusPayload (s : SpaState) (currentTemp setTemp : UInt8) :
    StatusUpdate.parse (s.statusPayload 0 currentTemp setTemp) =
      .ok (statusOf s currentTemp setTemp) := by
  have hscale : (if ((if s.tempScale = .celsius then 0x01 else 0) ||| 0x02 : UInt8) &&& 0x01 != 0
      then TemperatureScale.celsius else .fahrenheit) = s.tempScale := by
    cases s.tempScale <;> rfl
  have hhold : ((if s.hold then 0x05 else 0x00 : UInt8) == 0x05) = s.hold := by
    cases s.hold <;> rfl
  have hmode : (if heatingModeToBits s.heatingMode &&& 0x03 = 0 then HeatingMode.ready
      else if heatingModeToBits s.heatingMode &&& 0x03 = 1 then .rest
      else if heatingModeToBits s.heatingMode &&& 0x03 = 3 then .readyInRest
      else .ready) = s.heatingMode := by
    cases s.heatingMode <;> rfl
  have hflags : ∀ (scale : TemperatureScale) (isHeating : Bool) (range : TempRange),
      ((((if scale = .celsius then 0x01 else 0) ||| 0x02 : UInt8) &&& 0x02 != 0) = true ∧
        (((if scale = .celsius then 0x01 else 0) ||| 0x02 : UInt8) >>> 2) &&& 0x03 = 0) ∧
      (((if isHeating then 0x30 else 0) ||| (if range = .high then 0x04 else 0) : UInt8) &&& 0x30
        != 0) = isHeating ∧
      (if ((if isHeating then 0x30 else 0) ||| (if range = .high then 0x04 else 0) : UInt8) &&& 0x04
        != 0 then TempRange.high else .low) = range := by
    intro scale isHeating range
    cases scale <;> cases isHeating <;> cases range <;> decide
  have hcirc : ∀ circPump blower : Bool,
      (((if circPump then 0x02 else 0) ||| (if blower then 0x0C else 0) : UInt8) &&& 0x02 != 0) =
        circPump ∧
      (((if circPump then 0x02 else 0) ||| (if blower then 0x0C else 0) : UInt8) &&& 0x0C != 0) =
        blower := by decide
  have hmister : ((if s.mister then 0x01 else 0 : UInt8) != 0) = s.mister := by
    cases s.mister <;> rfl
  have hclear : ((0x00 : UInt8) &&& 0x01 != 0) = false := by decide
  have hab : ((if s.hold then 0x05 else 0x00 : UInt8) == 0x14) = false := by
    cases s.hold <;> rfl
  obtain ⟨⟨htime, hfilter⟩, hheating, hrange⟩ := hflags s.tempScale s.isHeating s.tempRange
  obtain ⟨hcircPump, hblower⟩ := hcirc s.circPump s.blower
  have hlen : ¬ (s.statusPayload 0 currentTemp setTemp).length < 24 := show ¬ 24 < 24 by decide
  unfold StatusUpdate.parse statusOf
  rw [if_neg hlen]
  refine congrArg Except.ok ?_
  rw [StatusUpdate.mk.injEq]
  exact ⟨congrArg (fun scale => if currentTemp = 0xFF then none
      else some (Temperature.fromWire currentTemp scale)) hscale,
    congrArg (Temperature.fromWire setTemp) hscale, rfl, rfl, hmode, hscale, if_pos htime, hfilter,
    hheating, hrange, decodePumps_fields s.pumps, hcircPump, hblower, hmister,
    decodeLights_fields s.lights, rfl, hhold, rfl, hclear, hclear, rfl,
    congrArg₂ (fun (hold : Bool) scale => if hold then none
      else some (Temperature.fromWire 0 scale)) hhold hscale,
    if_neg (Bool.eq_false_iff.1 hab), congrArg (fun hold : Bool => if hold then some 0 else none)
      hhold⟩

/-- The frame with a set temperature is dispatched as its status. -/
theorem exists_frame (s : SpaState) (currentTemp : Temperature) {setTemp : UInt8}
    (h : s.setTemp.toWire = .ok setTemp) :
    ∃ bytes frame, s.statusBytes .exact currentTemp = some bytes ∧
      FrameDecoder.new.feedSlice bytes = some ([frame], .new) ∧
      dispatchFrame frame =
        .statusUpdate (statusOf s (currentTempByte .exact s.tempScale currentTemp) setTemp) := by
  generalize hbyte : currentTempByte .exact s.tempScale currentTemp = raw
  have hframe : s.generateStatusFrame 0 raw = some
      ⟨(0xFF, 0xAF), 0x13 :: s.statusPayload 0 raw setTemp⟩ := by
    rw [SpaState.generateStatusFrame, h]
    rfl
  have hlen : (0x13 :: s.statusPayload 0 raw setTemp).length ≤ 251 := show 25 ≤ 251 by decide
  have hencode : (Frame.mk (0xFF, 0xAF) (0x13 :: s.statusPayload 0 raw setTemp)).encode = .ok _ :=
    Frame.encode_eq_ok.2 ⟨hlen, rfl⟩
  refine ⟨_, _, ?_, feedSlice_encode hencode (show 25 ≠ 122 by decide), ?_⟩
  · rw [SpaState.statusBytes, hbyte, hframe, Option.bind_some, hencode]
    rfl
  · have hhandle : dispatchFrame ⟨(0xFF, 0xAF), 0x13 :: s.statusPayload 0 raw setTemp⟩ =
        parseOrUnknown (0xFF, 0xAF) (0x13 :: s.statusPayload 0 raw setTemp)
          (StatusUpdate.parse (s.statusPayload 0 raw setTemp)) .statusUpdate := rfl
    rw [hhandle, parse_statusPayload]
    rfl

/-- Where the frame decodes to the state, the byte that is sent is that of the set temperature, and
the current temperature is known. -/
theorem Decodes.toWire {s : SpaState} {currentTemp : Temperature} (h : Decodes s currentTemp)
    {setRaw : UInt8} (hset : SameTemp (.fromWire setRaw s.tempScale) s.setTemp) :
    s.setTemp.toWire = .ok setRaw ∧ currentTempByte .exact s.tempScale currentTemp ≠ 0xFF := by
  obtain ⟨bytes, frame, status, hbytes, hdecode, hdispatch, hshows⟩ := h
  cases hwire : s.setTemp.toWire with
  | error e =>
    rw [SpaState.statusBytes, SpaState.generateStatusFrame, hwire] at hbytes
    cases hbytes
  | ok w =>
    obtain ⟨bytes', frame', hbytes', hdecode', hdispatch'⟩ := exists_frame s currentTemp hwire
    obtain rfl := Option.some.inj (hbytes.symm.trans hbytes')
    obtain ⟨⟨rfl, -⟩, -⟩ := Prod.mk.inj (Option.some.inj (hdecode.symm.trans hdecode'))
    obtain rfl := IncomingMessage.statusUpdate.inj (hdispatch.symm.trans hdispatch')
    obtain rfl : w = setRaw := (sameTemp_fromWire_iff hset).1 hshows.setTemp
    refine ⟨rfl, fun hunknown => ?_⟩
    obtain ⟨t, ht, -⟩ := hshows.currentTemp
    rw [statusOf, if_pos hunknown] at ht
    cases ht

/-- A status frame decodes to the state of the spa exactly when the set temperature is stored in the
scale of the spa, and neither temperature is that of the byte that stands for none. -/
theorem decodes_iff (s : SpaState) (currentTemp : Temperature)
    (hcurrent : Representable s.tempScale currentTemp)
    (hset : Representable s.tempScale s.setTemp) :
    Decodes s currentTemp ↔ s.setTemp.scale = s.tempScale ∧
      ¬ SameTemp (.fromWire 0xFF s.tempScale) currentTemp ∧
      ¬ SameTemp (.fromWire 0xFF s.tempScale) s.setTemp := by
  obtain ⟨raw, hraw⟩ := hcurrent
  obtain ⟨setRaw, hsetRaw⟩ := hset
  have hbyte := currentTempByte_eq hraw
  rw [sameTemp_fromWire_iff hraw, sameTemp_fromWire_iff hsetRaw, eq_comm (b := raw),
    eq_comm (b := setRaw)]
  -- In the scale of the spa the encoder takes every byte but the last one.
  have hstored : s.setTemp.scale = s.tempScale →
      s.setTemp.toWire = if setRaw = 0xFF then .error .overflow else .ok setRaw := by
    intro hscale
    have hsame := hsetRaw
    rw [← hscale] at hsame
    rw [eq_fromWire_of_sameTemp hsame, toWire_fromWire]
  constructor
  · intro h
    obtain ⟨hwire, hne⟩ := h.toWire hsetRaw
    have hscale : s.setTemp.scale = s.tempScale := by
      by_contra hscale
      exact toWire_ne_of_scale_ne hsetRaw hscale hwire
    refine ⟨hscale, hbyte ▸ hne, fun hlast => ?_⟩
    rw [hstored hscale, if_pos hlast] at hwire
    cases hwire
  · rintro ⟨hscale, hne, hsetNe⟩
    have hwire := (hstored hscale).trans (if_neg hsetNe)
    obtain ⟨bytes, frame, hbytes, hdecode, hdispatch⟩ := exists_frame s currentTemp hwire
    rw [hbyte] at hdispatch
    exact ⟨bytes, frame, _, hbytes, hdecode, hdispatch, ⟨rfl, rfl, rfl, rfl, rfl, rfl⟩, rfl, rfl,
      rfl, rfl, rfl, rfl, ⟨_, if_neg hne, hraw⟩, hsetRaw⟩

/-! ## A set temperature in the other scale -/

/-- Every byte is a temperature in Celsius. -/
theorem representable_celsius (raw : UInt8) : Representable .celsius (.fromWire raw .celsius) :=
  ⟨raw, rfl⟩

/-- The spa as it starts, at 38 degrees Celsius. -/
theorem decodes_iff_default : Decodes .default (.fromWire 76 .celsius) := by
  have hset : SpaState.default.setTemp = .fromWire 80 .celsius := by
    norm_num [SpaState.default, Temperature.fromWire, show UInt8.toNat 80 = 80 from rfl]
  refine (decodes_iff .default (.fromWire 76 .celsius) (representable_celsius 76)
    (hset ▸ representable_celsius 80)).2 ⟨rfl, ?_, ?_⟩
  · exact fun h => absurd ((sameTemp_fromWire_iff rfl).1 h) (by decide)
  · rw [hset]
    exact fun h => absurd ((sameTemp_fromWire_iff rfl).1 h) (by decide)

/-- The same set temperature, stored as 104 degrees Fahrenheit. -/
def storedInFahrenheit : SpaState := { SpaState.default with setTemp := ⟨104, .fahrenheit⟩ }

/-- The set temperature that is stored in Fahrenheit is that of a byte. -/
theorem sameTemp_storedInFahrenheit :
    SameTemp (.fromWire 80 storedInFahrenheit.tempScale) storedInFahrenheit.setTemp := by
  norm_num [SameTemp, storedInFahrenheit, SpaState.default, Temperature.toFahrenheit,
    Temperature.fromWire, Rounding.exact_round, show UInt8.toNat 80 = 80 from rfl]

/-- A set temperature that is stored in the other scale is not decoded as it is. -/
theorem not_decodes_storedInFahrenheit :
    Representable storedInFahrenheit.tempScale (.fromWire 76 .celsius) ∧
      Representable storedInFahrenheit.tempScale storedInFahrenheit.setTemp ∧
      ¬ Decodes storedInFahrenheit (.fromWire 76 .celsius) := by
  refine ⟨representable_celsius 76, ⟨80, sameTemp_storedInFahrenheit⟩, fun h => ?_⟩
  exact toWire_ne_of_scale_ne sameTemp_storedInFahrenheit (by decide)
    (h.toWire sameTemp_storedInFahrenheit).1

end Launa.Sim
