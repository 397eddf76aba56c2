import Launa.Core.SpaApp
import Launa.Lib.JsonPrint
import Launa.Mqtt.State

/-!
# The published state as JSON

The text that `status_to_json` puts together is a legal text of an object whose members have
different names and the values that it is given (`statusToJson_decode`).
-/

namespace Launa.Mqtt

open Launa.Core Json Ota Protocol

/-! ## Escapes -/

/-- An escaped character is spelled as JSON has it. -/
theorem spells_escapeChar (c : Char) : Spells (escapeChar c) c := by
  unfold escapeChar
  split_ifs with hbackslash hquote hn hr ht hcontrol
  · rw [hbackslash]
    exact .simple (by decide)
  · rw [hquote]
    exact .simple (by decide)
  · rw [hn]
    exact .simple (by decide)
  · rw [hr]
    exact .simple (by decide)
  · rw [ht]
    exact .simple (by decide)
  · have hhex : ∀ i : Fin 32, hexValue (hex4 i) = some i.val := by decide
    have h := Spells.unicode (hhex ⟨c.toNat, by omega⟩) (.inl (by dsimp only; omega))
    rwa [Char.ofNat_toNat] at h
  · exact .plain (by omega) hquote hbackslash

/-- An escaped text is spelled as JSON has it. -/
theorem spellsText_escapeJsonString (s : List Char) : SpellsText (escapeJsonString s) s := by
  induction s with
  | nil => exact .nil
  | cons c s ih => exact .cons (spells_escapeChar c) ih

/-- A text between quotes. -/
def escapedBody (s : List Char) : Body := ⟨escapeJsonString s, s, spellsText_escapeJsonString s⟩

/-! ## The members -/

/-- A flag. -/
def flagField (name : String) (b : Bool) : Field := ⟨name.toList, boolText b, .bool b⟩

/-- A number. -/
def natField (name : String) (n : ℕ) : Field := ⟨name.toList, natText n, .number n⟩

/-- A temperature, or `null`. -/
def temperatureField (name : String) (t : Option Temperature) : Field :=
  ⟨name.toList, t.elim "null".toList Temperature.display,
    t.elim .null fun t => .number t.value⟩

/-- A text without escapes. -/
def wordField (name word : String) : Field :=
  ⟨name.toList, '"' :: word.toList ++ ['"'], .string word.toList⟩

/-- A text, or `null`. -/
def textField (name : String) (s : Option (List Char)) : Field :=
  ⟨name.toList, quoted s, s.elim .null .string⟩

/-- The numbered flags of the items. -/
def itemFields {α : Type} (key suffix : List Char) (value : α → Bool) (items : List α) :
    List Field :=
  items.mapIdx fun i item =>
    ⟨key ++ natText (i + 1) ++ suffix, boolText (value item), .bool (value item)⟩

/-- The name of a heating mode. -/
def heatingModeName : HeatingMode → String
  | .ready => "ready"
  | .rest => "rest"
  | .readyInRest => "ready_in_rest"

/-- The name of a temperature range. -/
def tempRangeName : TempRange → String
  | .high => "high"
  | .low => "low"

/-- The name of a temperature scale. -/
def tempScaleName : TemperatureScale → String
  | .fahrenheit => "fahrenheit"
  | .celsius => "celsius"

/-- The name of a time format. -/
def timeFormatName : TimeFormat → String
  | .hour12 => "12h"
  | .hour24 => "24h"

/-- The members before the clock. -/
def membersBeforeClock (status : StatusUpdate) : List Field :=
  [temperatureField "current_temp" status.currentTemp, temperatureField "set_temp" status.setTemp,
    flagField "is_heating" status.isHeating] ++
  itemFields "pump".toList "_on".toList (· ≠ .off) status.pumps.toList ++
  itemFields "light".toList [] id status.lights.toList ++
  [flagField "blower" status.blower, flagField "circ_pump" status.circPump,
    flagField "mister" status.mister, flagField "hold_mode" status.isHold,
    wordField "heating_mode" (heatingModeName status.heatingMode),
    wordField "temp_range" (tempRangeName status.tempRange),
    wordField "temp_scale" (tempScaleName status.temperatureScale),
    wordField "time_format" (timeFormatName status.timeFormat)]

/-- The members from the clock to the one before the fault. -/
def membersAfterClock (status : StatusUpdate) : List Field :=
  [natField "hour" status.hour.toNat, natField "minute" status.minute.toNat,
    natField "notification_type" status.notificationType.toNat,
    flagField "panel_locked" status.panelLocked, flagField "settings_lock" status.settingsLock,
    natField "m8_cycle_time" status.m8CycleTime.toNat]

/-- The signal strength, or `null`. -/
def rssiField (rssi : Option Int32) : Field :=
  ⟨"wifi_rssi".toList, rssi.elim "null".toList fun rssi => (toString rssi.toInt).toList,
    rssi.elim .null fun rssi => .number rssi.toInt⟩

/-- The members of the published state. -/
def stateFields (status : StatusUpdate) (lastFault firmwareVersion : Option (List Char))
    (sniffMode : Bool) (wifiRssi : Option Int32) (registrationState : String) : List Field :=
  membersBeforeClock status ++ membersAfterClock status ++
    [textField "last_fault" lastFault, textField "firmware_version" firmwareVersion,
      flagField "sniff_mode" sniffMode, rssiField wifiRssi,
      wordField "registration_state" registrationState]

/-! ## The text -/

/-- A map behind an indexed map is an indexed map. -/
theorem map_mapIdx {α β γ : Type} (f : ℕ → α → β) (g : β → γ) (xs : List α) :
    (xs.mapIdx f).map g = xs.mapIdx fun i x => g (f i x) := by
  rw [List.mapIdx_eq_zipIdx_map, List.mapIdx_eq_zipIdx_map, List.map_map]
  rfl

/-- The fields of numbered items are joined as they are printed. -/
theorem joined_itemFields {α : Type} (key suffix : List Char) (value : α → Bool) (items : List α) :
    joined (itemFields key suffix value items) = numberedFields key suffix value items := by
  rw [joined, itemFields, map_mapIdx]
  unfold numberedFields
  congr 2
  funext i item
  simp [Field.text]

/-- There is a field of an item at least. -/
theorem itemFields_ne_nil {α : Type} {n : ℕ} (key suffix : List Char) (value : α → Bool)
    (items : Vector α (n + 1)) : itemFields key suffix value items.toList ≠ [] := by
  rw [itemFields, List.mapIdx_ne_nil_iff]
  intro h
  have := congrArg List.length h
  rw [Vector.length_toList] at this
  cases this

variable {status : StatusUpdate}

/-- The text of the members before the clock. -/
theorem fieldsBeforeClock_eq :
    fieldsBeforeClock status = '{' :: joined (membersBeforeClock status) := by
  unfold membersBeforeClock
  rw [joined_append (by simp) (by simp), joined_append (by simp) (itemFields_ne_nil _ _ _ _),
    joined_append (by simp) (itemFields_ne_nil _ _ _ _), joined_itemFields, joined_itemFields]
  unfold fieldsBeforeClock
  simp only [joined_cons_cons, joined_singleton, Field.text, flagField, temperatureField, wordField,
    List.append_assoc, List.cons_append, List.nil_append]
  generalize numberedFields "pump".toList "_on".toList _ status.pumps.toList = pumps
  generalize numberedFields "light".toList [] _ status.lights.toList = lights
  simp
  cases status.currentTemp with
  | none => rfl
  | some t => rfl

/-- The text of the members from the clock on. -/
theorem fieldsAfterClock_eq :
    ",\"hour\":".toList ++ natText status.hour.toNat ++ ",\"minute\":".toList ++
      natText status.minute.toNat ++ ',' :: fieldsAfterClock status =
        ',' :: joined (membersAfterClock status) := by
  unfold fieldsAfterClock membersAfterClock
  simp [Field.text, natField, flagField]

/-- The text of the members from the fault on. -/
theorem fieldsAfterFault_eq {lastFault firmwareVersion : Option (List Char)} {sniffMode : Bool}
    {wifiRssi : Option Int32} {registrationState : String} :
    ",\"last_fault\":".toList ++ quoted lastFault ++
      fieldsAfterFault firmwareVersion sniffMode wifiRssi registrationState.toList =
        ',' :: joined [textField "last_fault" lastFault,
          textField "firmware_version" firmwareVersion, flagField "sniff_mode" sniffMode,
          rssiField wifiRssi, wordField "registration_state" registrationState] ++ ['}'] := by
  delta fieldsAfterFault rssiField
  simp [Field.text, textField, flagField, wordField]
  cases wifiRssi with
  | none => rfl
  | some rssi => rfl

/-- The text is what is printed of the members. -/
theorem statusToJson_eq_printObject (status : StatusUpdate)
    (lastFault firmwareVersion : Option (List Char)) (sniffMode : Bool) (wifiRssi : Option Int32)
    (registrationState : String) :
    statusToJson status lastFault firmwareVersion sniffMode wifiRssi registrationState.toList =
      printObject (stateFields status lastFault firmwareVersion sniffMode wifiRssi
        registrationState) := by
  have hbefore : membersBeforeClock status ≠ [] := by simp [membersBeforeClock]
  have hafter : membersAfterClock status ≠ [] := by simp [membersAfterClock]
  have hjoined : joined (stateFields status lastFault firmwareVersion sniffMode wifiRssi
      registrationState) = joined (membersBeforeClock status) ++ ',' ::
        joined (membersAfterClock status) ++ ',' :: joined [textField "last_fault" lastFault,
          textField "firmware_version" firmwareVersion, flagField "sniff_mode" sniffMode,
          rssiField wifiRssi, wordField "registration_state" registrationState] := by
    rw [stateFields, joined_append (by simp [hbefore]) (by simp), joined_append hbefore hafter]
  calc statusToJson status lastFault firmwareVersion sniffMode wifiRssi registrationState.toList
      = fieldsBeforeClock status ++ (",\"hour\":".toList ++ natText status.hour.toNat ++
          ",\"minute\":".toList ++ natText status.minute.toNat ++ ',' :: fieldsAfterClock status) ++
          (",\"last_fault\":".toList ++ quoted lastFault ++
            fieldsAfterFault firmwareVersion sniffMode wifiRssi registrationState.toList) := by
        simp only [statusToJson, List.append_assoc]
    _ = _ := by
        rw [fieldsBeforeClock_eq, fieldsAfterClock_eq, fieldsAfterFault_eq, printObject, hjoined]
        simp only [List.append_assoc, List.cons_append]

/-! ## The values -/

/-- A flag is spelled. -/
theorem spells_boolText (b : Bool) : SpellsScalar (boolText b) (.bool b) := by
  cases b with
  | false => exact .isFalse
  | true => exact .isTrue

/-- A value is spelled as JSON has it. -/
def Spelled (f : Field) : Prop := SpellsScalar f.raw f.value

/-- A flag is spelled as its value. -/
theorem spelled_flagField (name : String) (b : Bool) : Spelled (flagField name b) :=
  spells_boolText b

/-- A number is spelled as its value. -/
theorem spelled_natField (name : String) (n : ℕ) : Spelled (natField name n) :=
  .number (numberValue_nat n)

/-- A plain word is spelled as its value. -/
theorem spelled_wordField (name : String) {word : String} (h : word.toList.all isPlain = true) :
    Spelled (wordField name word) := .string (.plain word.toList h)

/-- A text is spelled as its value. -/
theorem spelled_textField (name : String) (s : Option (List Char)) :
    Spelled (textField name s) := by
  cases s with
  | none => exact .isNull
  | some s => exact .string (escapedBody s)

/-- A signal strength is spelled as its value. -/
theorem spelled_rssiField (rssi : Option Int32) : Spelled (rssiField rssi) := by
  cases rssi with
  | none => exact .isNull
  | some rssi => exact .number (numberValue_int rssi.toInt)

/-- Numbered flags are spelled as their values. -/
theorem spelled_itemFields {α : Type} {key suffix : List Char} {value : α → Bool} {items : List α} :
    ∀ f ∈ itemFields key suffix value items, Spelled f := by
  intro f hf
  obtain ⟨i, hi, rfl⟩ := List.mem_mapIdx.1 hf
  exact spells_boolText _

/-- A temperature is displayed as its whole part and the places of the rest. -/
theorem display_eq {t : Temperature} {n : ℕ} {x : ℚ} (ht : t.value = n + x) (hx : 0 ≤ x)
    (hx' : x < 1) : t.display = natText n ++
      if (Temperature.decimalPlaces 149 x).isEmpty then []
      else '.' :: Temperature.decimalPlaces 149 x := by
  have hnonneg : 0 ≤ t.value := by
    rw [ht]
    positivity
  have hfloor : ⌊t.value⌋ = n := by
    rw [ht, Int.floor_natCast_add, Int.floor_eq_zero_iff.2 ⟨hx, hx'⟩, add_zero]
  have hrest : t.value - (n : ℤ) = x := by
    rw [ht]
    push_cast
    ring
  unfold Temperature.display
  rw [abs_of_nonneg hnonneg, if_neg (not_lt.2 hnonneg), hfloor]
  dsimp only
  rw [hrest, Int.toNat_natCast]
  simp [natText]

/-- A temperature of the wire is printed in digits, with a half as `.5`. -/
theorem numberValue_display (raw : UInt8) (scale : TemperatureScale) :
    numberValue (Temperature.fromWire raw scale).display =
      some (Temperature.fromWire raw scale).value := by
  cases scale with
  | fahrenheit =>
    have hvalue : (Temperature.fromWire raw .fahrenheit).value = (raw.toNat : ℚ) + 0 := by
      simp [Temperature.fromWire]
    have hplaces : Temperature.decimalPlaces 149 0 = [] := by decide
    rw [display_eq hvalue (by norm_num) (by norm_num), hplaces, hvalue, add_zero]
    exact (congrArg numberValue (List.append_nil _)).trans (numberValue_nat raw.toNat)
  | celsius =>
    obtain ⟨n, hn | hn⟩ := Nat.even_or_odd' raw.toNat
    · have hvalue : (Temperature.fromWire raw .celsius).value = (n : ℚ) + 0 := by
        simp [Temperature.fromWire, hn]
      have hplaces : Temperature.decimalPlaces 149 0 = [] := by decide
      rw [display_eq hvalue (by norm_num) (by norm_num), hplaces, hvalue, add_zero]
      exact (congrArg numberValue (List.append_nil _)).trans (numberValue_nat n)
    · have hvalue : (Temperature.fromWire raw .celsius).value = (n : ℚ) + 1 / 2 := by
        simp only [Temperature.fromWire, hn]
        push_cast
        ring
      have hplaces : Temperature.decimalPlaces 149 (1 / 2) = ['5'] := by decide +kernel
      rw [display_eq hvalue (by norm_num) (by norm_num), hplaces, hvalue]
      have hnumber : numberValue (Nat.toDigits 10 n ++ ['.', '5']) =
          some (n + ((('5'.toNat - '0'.toNat : ℕ) : ℚ) / 10)) := numberValue_tenths n (by decide)
      have hhalf : ((('5'.toNat - '0'.toNat : ℕ) : ℚ) / 10) = 1 / 2 := by
        rw [show '5'.toNat - '0'.toNat = 5 from rfl]
        norm_num
      rw [hhalf] at hnumber
      exact hnumber

/-- A temperature is spelled as its value. -/
theorem spelled_temperatureField {scale : TemperatureScale} {t : Option Temperature} (name : String)
    (ht : ∀ t' ∈ t, ∃ raw, t' = .fromWire raw scale) : Spelled (temperatureField name t) := by
  cases t with
  | none => exact .isNull
  | some t =>
    obtain ⟨raw, rfl⟩ := ht t rfl
    exact .number (numberValue_display raw scale)

/-- The members before the clock are spelled as their values. -/
theorem spelled_membersBeforeClock (h : status.InScale) :
    ∀ f ∈ membersBeforeClock status, Spelled f := by
  have hmode : ∀ mode, (heatingModeName mode).toList.all isPlain = true := by
    intro mode
    cases mode <;> decide
  have hrange : ∀ range, (tempRangeName range).toList.all isPlain = true := by
    intro range
    cases range <;> decide
  have hscale : ∀ scale, (tempScaleName scale).toList.all isPlain = true := by
    intro scale
    cases scale <;> decide
  have hformat : ∀ format, (timeFormatName format).toList.all isPlain = true := by
    intro format
    cases format <;> decide
  have hset : ∀ t ∈ some status.setTemp, ∃ raw, t = .fromWire raw status.temperatureScale := by
    rintro t ⟨⟩
    exact h.setTemp
  unfold membersBeforeClock
  simp only [List.forall_mem_append, List.forall_mem_cons]
  refine ⟨⟨⟨⟨spelled_temperatureField _ h.currentTemp, spelled_temperatureField _ hset,
    spelled_flagField _ _, by simp⟩, spelled_itemFields⟩, spelled_itemFields⟩, ?_⟩
  exact ⟨spelled_flagField _ _, spelled_flagField _ _, spelled_flagField _ _,
    spelled_flagField _ _, spelled_wordField _ (hmode _), spelled_wordField _ (hrange _),
    spelled_wordField _ (hscale _), spelled_wordField _ (hformat _), by simp⟩

/-- The members behind the clock are spelled as their values. -/
theorem spelled_membersAfterClock : ∀ f ∈ membersAfterClock status, Spelled f := by
  unfold membersAfterClock
  simp only [List.forall_mem_cons]
  exact ⟨spelled_natField _ _, spelled_natField _ _, spelled_natField _ _, spelled_flagField _ _,
    spelled_flagField _ _, spelled_natField _ _, by simp⟩

variable {lastFault firmwareVersion : Option (List Char)} {sniffMode : Bool}
  {wifiRssi : Option Int32}

/-- Every value is spelled as JSON has it. -/
theorem spelled_stateFields (h : status.InScale) (app : SpaApp) :
    ∀ f ∈ stateFields status lastFault firmwareVersion sniffMode wifiRssi app.registrationStateStr,
      Spelled f := by
  have hregistration : app.registrationStateStr.toList.all isPlain = true := by
    unfold SpaApp.registrationStateStr
    split <;> decide
  unfold stateFields
  simp only [List.forall_mem_append, List.forall_mem_cons]
  exact ⟨⟨spelled_membersBeforeClock h, spelled_membersAfterClock⟩, spelled_textField _ _,
    spelled_textField _ _, spelled_flagField _ _, spelled_rssiField _,
    spelled_wordField _ hregistration, by simp⟩

/-- The names of the numbered flags of so many items. -/
def itemNames (key suffix : List Char) (n : ℕ) : List (List Char) :=
  (List.range n).map fun i => key ++ natText (i + 1) ++ suffix

/-- The names of the members. -/
def stateNames : List (List Char) :=
  ["current_temp", "set_temp", "is_heating"].map String.toList ++
    itemNames "pump".toList "_on".toList 6 ++ itemNames "light".toList [] 4 ++
    ["blower", "circ_pump", "mister", "hold_mode", "heating_mode", "temp_range", "temp_scale",
      "time_format", "hour", "minute", "notification_type", "panel_locked", "settings_lock",
      "m8_cycle_time", "last_fault", "firmware_version", "sniff_mode", "wifi_rssi",
      "registration_state"].map String.toList

/-- Numbered fields have numbered names. -/
theorem map_name_itemFields {α : Type} (key suffix : List Char) (value : α → Bool)
    (items : List α) :
    (itemFields key suffix value items).map Field.name = itemNames key suffix items.length := by
  apply List.ext_getElem
  · simp [itemFields, itemNames]
  · intro i h h'
    simp [itemFields, itemNames]

/-- The fields of the state have its names. -/
theorem map_name_stateFields {registrationState : String} :
    (stateFields status lastFault firmwareVersion sniffMode wifiRssi registrationState).map
      Field.name = stateNames := by
  unfold stateFields membersBeforeClock membersAfterClock stateNames
  simp only [List.map_append, map_name_itemFields, Vector.length_toList]
  rfl

/-- No name needs escapes. -/
theorem legal_stateFields (h : status.InScale) (app : SpaApp) :
    ∀ f ∈ stateFields status lastFault firmwareVersion sniffMode wifiRssi app.registrationStateStr,
      f.Legal := by
  have hnames : stateNames.all (·.all isPlain) = true := by decide +kernel
  intro f hf
  have hmem : f.name ∈ stateNames := by
    rw [← map_name_stateFields]
    exact List.mem_map_of_mem hf
  exact ⟨List.all_eq_true.1 hnames _ hmem, spelled_stateFields h app f hf⟩

/-- The published text is one of an object whose members have different names, and the values that
it was given. An escaped text is spelled without raw quotes, backslashes and control characters, and
is what it was when it is unescaped. -/
theorem statusToJson_decode {payload : List UInt8}
    (hparse : StatusUpdate.parse payload = .ok status)
    (lastFault firmwareVersion : Option (List Char)) (sniffMode : Bool) (wifiRssi : Option Int32)
    (app : SpaApp) :
    (∃ L : Layout, L.text = statusToJson status lastFault firmwareVersion sniffMode wifiRssi
      app.registrationStateStr.toList) ∧
    decode (statusToJson status lastFault firmwareVersion sniffMode wifiRssi
      app.registrationStateStr.toList) = some (objectOf (stateFields status lastFault
        firmwareVersion sniffMode wifiRssi app.registrationStateStr)) ∧
    ((objectOf (stateFields status lastFault firmwareVersion sniffMode wifiRssi
      app.registrationStateStr)).map Prod.fst).Nodup ∧
    ∀ s, SpellsText (escapeJsonString s) s ∧ (∀ c ∈ escapeJsonString s, 0x20 ≤ c.toNat) ∧
      unescape (escapeJsonString s) = some s := by
  have hlegal : ∀ f ∈ stateFields status lastFault firmwareVersion sniffMode wifiRssi
      app.registrationStateStr, f.Legal :=
    legal_stateFields (StatusUpdate.inScale_of_parse hparse) app
  have hnames : (objectOf (stateFields status lastFault firmwareVersion sniffMode wifiRssi
      app.registrationStateStr)).map Prod.fst = stateNames := by
    rw [objectOf, List.map_map]
    exact map_name_stateFields
  rw [statusToJson_eq_printObject, hnames]
  refine ⟨?_, decode_printObject hlegal, by decide +kernel, fun s => ?_⟩
  · obtain ⟨L, htext, -⟩ := exists_layout hlegal
    exact ⟨L, htext⟩
  · have hspells := spellsText_escapeJsonString s
    exact ⟨hspells, hspells.no_control, unescape_spells hspells⟩

/-- A status of zeros with a fault of a quote and a line feed. -/
theorem statusToJson_decode_zeros : ∃ status : StatusUpdate,
    StatusUpdate.parse (List.replicate 24 0) = .ok status ∧
    ((decode (statusToJson status (some ['"', '\n']) none true (some (-60))
      (SpaApp.withClientHash 0 (0, 0)).registrationStateStr.toList)).bind
        fun entries => entries.lookup "last_fault".toList) = some (.string ['"', '\n']) := by
  obtain ⟨status, hparse⟩ : ∃ status, StatusUpdate.parse (List.replicate 24 0) = .ok status :=
    ⟨_, rfl⟩
  refine ⟨status, hparse, ?_⟩
  rw [(statusToJson_decode hparse (some ['"', '\n']) none true (some (-60))
    (SpaApp.withClientHash 0 (0, 0))).2.1]
  cases hparse
  decide +kernel

end Launa.Mqtt
