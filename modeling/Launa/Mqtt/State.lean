import Launa.Ota.Http
import Launa.Protocol.Temperature

/-!
# The published state

What `state.rs` makes of a status for the state topic, and what `state_change.rs` takes for a change
of it. A text is the list of its characters. Two statuses that are not a change have the same text
up to the clock (`statusToJson_eq_of_compared`), and the text tells the fault
(`statusToJson_fault_injective`).
-/

namespace Launa.Mqtt

open Ota Protocol

/-! ## `escape.rs` -/

/-- A number with four hexadecimal digits, as `{:04x}` prints it. -/
def hex4 (n : ℕ) : List Char := [n / 4096, n / 256, n / 16, n].map fun d => Nat.digitChar (d % 16)

/-- A character in a JSON string. -/
def escapeChar (c : Char) : List Char :=
  if c = '\\' then ['\\', '\\']
  else if c = '"' then ['\\', '"']
  else if c = '\n' then ['\\', 'n']
  else if c = '\r' then ['\\', 'r']
  else if c = '\t' then ['\\', 't']
  else if c.toNat ≤ 0x1F then '\\' :: 'u' :: hex4 c.toNat
  else [c]

/-- `escape_json_string`. -/
def escapeJsonString (s : List Char) : List Char := s.flatMap escapeChar

/-- The character after a backslash, and the rest. -/
def readEscape : List Char → Option (Char × List Char)
  | 'n' :: rest => some ('\n', rest)
  | 'r' :: rest => some ('\r', rest)
  | 't' :: rest => some ('\t', rest)
  | 'u' :: d3 :: d2 :: d1 :: d0 :: rest =>
    (fromStrRadix 16 (2^16) [d3, d2, d1, d0]).map fun n => (Char.ofNat n, rest)
  | c :: rest => some (c, rest)
  | [] => none

/-- The first character of a JSON string, and the rest. -/
def readChar : List Char → Option (Char × List Char)
  | [] => none
  | c :: rest => if c = '\\' then readEscape rest else some (c, rest)

/-- A control character is read back from the four digits of its escape. -/
theorem fromStrRadix_hex4 {n : ℕ} (hn : n ≤ 0x1F) : fromStrRadix 16 (2^16) (hex4 n) = some n := by
  have h : ∀ i : Fin 32, fromStrRadix 16 (2^16) (hex4 i) = some i.val := by decide +kernel
  exact h ⟨n, by omega⟩

/-- An escaped character is read back. -/
theorem readChar_escapeChar (c : Char) (rest : List Char) :
    readChar (escapeChar c ++ rest) = some (c, rest) := by
  unfold escapeChar
  split_ifs with hbackslash hquote hn hr ht hcontrol
  · rw [hbackslash]
    rfl
  · rw [hquote]
    rfl
  · rw [hn]
    rfl
  · rw [hr]
    rfl
  · rw [ht]
    rfl
  · have hread : readChar ('\\' :: 'u' :: hex4 c.toNat ++ rest) =
        (fromStrRadix 16 (2^16) (hex4 c.toNat)).map fun n => (Char.ofNat n, rest) := rfl
    rw [hread, fromStrRadix_hex4 hcontrol, Option.map_some, Char.ofNat_toNat]
  · show (if c = '\\' then readEscape rest else some (c, rest)) = some (c, rest)
    rw [if_neg hbackslash]

/-- Two texts that are escaped alike are the same. -/
theorem escapeJsonString_injective : Function.Injective escapeJsonString := by
  have hne : ∀ c s, escapeJsonString (c :: s) ≠ [] := by
    intro c s h
    have hread := readChar_escapeChar c (escapeJsonString s)
    rw [show escapeChar c ++ escapeJsonString s = [] from h] at hread
    exact absurd hread.symm (Option.some_ne_none _)
  intro s
  induction s with
  | nil =>
    intro t h
    cases t with
    | nil => rfl
    | cons c t => exact absurd h.symm (hne c t)
  | cons c s ih =>
    intro t h
    cases t with
    | nil => exact absurd h (hne c s)
    | cons c' t =>
      have hread := readChar_escapeChar c (escapeJsonString s)
      rw [show escapeChar c ++ escapeJsonString s = escapeChar c' ++ escapeJsonString t from h,
        readChar_escapeChar] at hread
      obtain ⟨rfl, hrest⟩ := Prod.mk.inj (Option.some.inj hread)
      rw [ih hrest.symm]

/-! ## `state.rs` -/

/-- A flag, as `{}` prints it. -/
def boolText (b : Bool) : List Char := if b then "true".toList else "false".toList

/-- A number, as `{}` prints it. -/
def natText (n : ℕ) : List Char := Nat.toDigits 10 n

/-- A text between quotes, or `null`. -/
def quoted : Option (List Char) → List Char
  | some s => '"' :: escapeJsonString s ++ ['"']
  | none => "null".toList

/-- The numbered fields of the items. -/
def numberedFields {α : Type} (key suffix : List Char) (value : α → Bool) (items : List α) :
    List Char :=
  [','].intercalate (items.mapIdx fun i item =>
    '"' :: key ++ natText (i + 1) ++ suffix ++ "\":".toList ++ boolText (value item))

/-- The fields of the text before the clock. -/
def fieldsBeforeClock (status : StatusUpdate) : List Char :=
  let currentTemp := match status.currentTemp with
    | some t => t.display
    | none => "null".toList
  let pumpFields := numberedFields "pump".toList "_on".toList (· ≠ .off) status.pumps.toList
  let lightFields := numberedFields "light".toList [] id status.lights.toList
  let heatingMode := match status.heatingMode with
    | .ready => "ready"
    | .rest => "rest"
    | .readyInRest => "ready_in_rest"
  let tempRange := match status.tempRange with
    | .high => "high"
    | .low => "low"
  let tempScale := match status.temperatureScale with
    | .fahrenheit => "fahrenheit"
    | .celsius => "celsius"
  let timeFormat := match status.timeFormat with
    | .hour12 => "12h"
    | .hour24 => "24h"
  "\x7b\"current_temp\":".toList ++ currentTemp ++ ",\"set_temp\":".toList ++
    status.setTemp.display ++ ",\"is_heating\":".toList ++ boolText status.isHeating ++ [','] ++
    pumpFields ++ [','] ++ lightFields ++ ",\"blower\":".toList ++ boolText status.blower ++
    ",\"circ_pump\":".toList ++ boolText status.circPump ++
    ",\"mister\":".toList ++ boolText status.mister ++
    ",\"hold_mode\":".toList ++ boolText status.isHold ++ ",\"heating_mode\":\"".toList ++
    heatingMode.toList ++ "\",\"temp_range\":\"".toList ++ tempRange.toList ++
    "\",\"temp_scale\":\"".toList ++ tempScale.toList ++ "\",\"time_format\":\"".toList ++
    timeFormat.toList ++ ['"']

/-- The fields between the clock and the fault. -/
def fieldsAfterClock (status : StatusUpdate) : List Char :=
  "\"notification_type\":".toList ++ natText status.notificationType.toNat ++
    ",\"panel_locked\":".toList ++ boolText status.panelLocked ++ ",\"settings_lock\":".toList ++
    boolText status.settingsLock ++ ",\"m8_cycle_time\":".toList ++ natText status.m8CycleTime.toNat

/-- The fields after the fault. -/
def fieldsAfterFault (firmwareVersion : Option (List Char)) (sniffMode : Bool)
    (wifiRssi : Option Int32) (registrationState : List Char) : List Char :=
  ",\"firmware_version\":".toList ++ quoted firmwareVersion ++ ",\"sniff_mode\":".toList ++
    boolText sniffMode ++ ",\"wifi_rssi\":".toList ++
    (match wifiRssi with
      | some rssi => (toString rssi.toInt).toList
      | none => "null".toList) ++
    ",\"registration_state\":\"".toList ++ registrationState ++ "\"\x7d".toList

/-- `status_to_json`. -/
def statusToJson (status : StatusUpdate) (lastFault firmwareVersion : Option (List Char))
    (sniffMode : Bool) (wifiRssi : Option Int32) (registrationState : List Char) : List Char :=
  fieldsBeforeClock status ++ ",\"hour\":".toList ++ natText status.hour.toNat ++
    ",\"minute\":".toList ++ natText status.minute.toNat ++ ',' :: fieldsAfterClock status ++
    ",\"last_fault\":".toList ++ quoted lastFault ++
    fieldsAfterFault firmwareVersion sniffMode wifiRssi registrationState

/-! ## `state_change.rs` -/

/-- `status_fields_differ`. -/
def statusFieldsDiffer (r : Rounding) (prev current : StatusUpdate) : Bool :=
  !Temperature.optionEq r prev.currentTemp current.currentTemp
    || !prev.setTemp.eq r current.setTemp
    || prev.isHeating != current.isHeating
    || prev.pumps != current.pumps
    || prev.lights != current.lights
    || prev.blower != current.blower
    || prev.circPump != current.circPump
    || prev.mister != current.mister
    || prev.isHold != current.isHold
    || prev.heatingMode != current.heatingMode
    || prev.tempRange != current.tempRange
    || prev.holdTimerMinutes != current.holdTimerMinutes
    || prev.temperatureScale != current.temperatureScale
    || prev.timeFormat != current.timeFormat
    || prev.notificationType != current.notificationType
    || prev.panelLocked != current.panelLocked
    || prev.settingsLock != current.settingsLock
    || prev.m8CycleTime != current.m8CycleTime

/-- `status_changed`. -/
def statusChanged (r : Rounding) (prev : Option StatusUpdate) (current : StatusUpdate) : Bool :=
  match prev with
  | some p => statusFieldsDiffer r p current
  | none => true

/-! ## What is compared -/

/-- The fields of a status that are compared, with the temperatures in Fahrenheit. -/
structure Compared where
  currentTemp : Option ℚ
  setTemp : ℚ
  isHeating : Bool
  pumps : Vector PumpState 6
  lights : Vector Bool 4
  blower : Bool
  circPump : Bool
  mister : Bool
  isHold : Bool
  heatingMode : HeatingMode
  tempRange : TempRange
  holdTimerMinutes : Option UInt8
  temperatureScale : TemperatureScale
  timeFormat : TimeFormat
  notificationType : UInt8
  panelLocked : Bool
  settingsLock : Bool
  m8CycleTime : UInt8
  deriving DecidableEq

/-- The compared fields of a status. -/
def compared (r : Rounding) (status : StatusUpdate) : Compared where
  currentTemp := status.currentTemp.map (Temperature.toFahrenheit r)
  setTemp := status.setTemp.toFahrenheit r
  isHeating := status.isHeating
  pumps := status.pumps
  lights := status.lights
  blower := status.blower
  circPump := status.circPump
  mister := status.mister
  isHold := status.isHold
  heatingMode := status.heatingMode
  tempRange := status.tempRange
  holdTimerMinutes := status.holdTimerMinutes
  temperatureScale := status.temperatureScale
  timeFormat := status.timeFormat
  notificationType := status.notificationType
  panelLocked := status.panelLocked
  settingsLock := status.settingsLock
  m8CycleTime := status.m8CycleTime

variable {r : Rounding} {status status' : StatusUpdate}

/-- Statuses do not differ exactly if they agree in what is compared. -/
theorem statusFieldsDiffer_eq_false_iff :
    statusFieldsDiffer r status status' = false ↔ compared r status = compared r status' := by
  simp only [statusFieldsDiffer, Bool.or_eq_false_iff, Bool.not_eq_false', bne_eq_false_iff_eq,
    Temperature.optionEq_iff, Temperature.eq, decide_eq_true_eq, compared, Compared.mk.injEq,
    and_assoc]

/-- The temperatures of two statuses that compare equal are the same. -/
theorem temps_eq_of_compared (hscale : status.InScale) (hscale' : status'.InScale)
    (h : compared r status = compared r status') :
    status.currentTemp = status'.currentTemp ∧ status.setTemp = status'.setTemp := by
  have hsame : status.temperatureScale = status'.temperatureScale :=
    congrArg Compared.temperatureScale h
  have hcurrent := congrArg Compared.currentTemp h
  have hset := congrArg Compared.setTemp h
  dsimp only [compared] at hcurrent hset
  constructor
  · rcases hc : status.currentTemp with _ | t <;> rcases hc' : status'.currentTemp with _ | t' <;>
      rw [hc, hc'] at hcurrent
    · cases hcurrent
    · cases hcurrent
    · obtain ⟨raw, rfl⟩ := hscale.currentTemp t hc
      obtain ⟨raw', rfl⟩ := hscale'.currentTemp t' hc'
      rw [hsame] at hcurrent ⊢
      rw [(Temperature.fromWire_eq_iff r).1 (Option.some.inj hcurrent)]
  · obtain ⟨raw, hraw⟩ := hscale.setTemp
    obtain ⟨raw', hraw'⟩ := hscale'.setTemp
    rw [hraw, hraw', hsame] at hset ⊢
    rw [(Temperature.fromWire_eq_iff r).1 hset]

variable {fault fault' firmware : Option (List Char)} {sniffMode : Bool} {rssi : Option Int32}
  {registration : List Char}

/-- Two statuses that compare equal have the same text, but for the clock. -/
theorem statusToJson_eq_of_compared (hscale : status.InScale) (hscale' : status'.InScale)
    (h : compared r status = compared r status') :
    statusToJson status fault firmware sniffMode rssi registration =
      statusToJson { status' with hour := status.hour, minute := status.minute } fault firmware
        sniffMode rssi registration := by
  obtain ⟨hcurrent, hset⟩ := temps_eq_of_compared hscale hscale' h
  simp only [compared, Compared.mk.injEq] at h
  obtain ⟨-, -, hheating, hpumps, hlights, hblower, hcirc, hmister, hhold, hmode, hrange, -,
    htempScale, htime, hnotification, hpanel, hsettings, hcycle⟩ := h
  have hbefore : fieldsBeforeClock status = fieldsBeforeClock status' := by
    unfold fieldsBeforeClock
    rw [hcurrent, hset, hheating, hpumps, hlights, hblower, hcirc, hmister, hhold, hmode, hrange,
      htempScale, htime]
  have hafter : fieldsAfterClock status = fieldsAfterClock status' := by
    unfold fieldsAfterClock
    rw [hnotification, hpanel, hsettings, hcycle]
  unfold statusToJson
  rw [hbefore, hafter]
  rfl

/-- The digits of a number end at the text after it. -/
theorem natText_append_inj {m n : ℕ} {c : Char} {rest rest' : List Char} (hc : c.isDigit = false)
    (h : natText m ++ c :: rest = natText n ++ c :: rest') : rest = rest' := by
  have htake : ∀ (n : ℕ) (rest : List Char),
      (natText n ++ c :: rest).takeWhile Char.isDigit = natText n := by
    intro n rest
    have hdigits : ∀ d ∈ natText n, d.isDigit = true := fun d hd =>
      Nat.isDigit_of_mem_toDigits (by norm_num) (by norm_num) hd
    rw [List.takeWhile_append_of_pos hdigits, List.takeWhile_cons_of_neg (by rw [hc]; decide),
      List.append_nil]
  have hdigits : natText m = natText n := by rw [← htake m rest, h, htake]
  rw [hdigits] at h
  exact (List.cons.inj (List.append_cancel_left h)).2

/-- A text between quotes is told from another one and from `null`. -/
theorem quoted_injective : Function.Injective quoted := by
  intro s t h
  cases s with
  | none =>
    cases t with
    | none => rfl
    | some t => exact absurd (List.cons.inj h).1 (by decide)
  | some s =>
    cases t with
    | none => exact absurd (List.cons.inj h).1 (by decide)
    | some t =>
      have htext : escapeJsonString s ++ ['"'] = escapeJsonString t ++ ['"'] := (List.cons.inj h).2
      rw [escapeJsonString_injective (List.append_cancel_right htext)]

/-- The texts of a status with two faults differ, whatever the clock is. -/
theorem statusToJson_fault_injective {hour minute : UInt8}
    (h : statusToJson status fault firmware sniffMode rssi registration =
      statusToJson { status with hour := hour, minute := minute } fault' firmware sniffMode rssi
        registration) : fault = fault' := by
  have hbefore : fieldsBeforeClock { status with hour := hour, minute := minute } =
    fieldsBeforeClock status := rfl
  have hafter : fieldsAfterClock { status with hour := hour, minute := minute } =
    fieldsAfterClock status := rfl
  rw [statusToJson, statusToJson, hbefore, hafter] at h
  have hminute : ",\"minute\":".toList = ',' :: "\"minute\":".toList := rfl
  simp only [hminute, List.append_assoc, List.cons_append, List.append_cancel_left_eq] at h
  have hrest := natText_append_inj (by decide) (List.append_cancel_left
    (natText_append_inj (by decide) h))
  exact quoted_injective (List.append_cancel_right
    (List.append_cancel_left (List.append_cancel_left hrest)))

end Launa.Mqtt
