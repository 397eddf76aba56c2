import Launa.Mqtt.FieldSearch
import Launa.Ota.Utf8

/-!
# Commands in JSON

What `parse_command` makes of a time and of a preference that come as a JSON object. Each key is
searched for in the raw text, together with its colon (`parseSetTime_text`,
`parseSetPreference_text`). So white space before a colon hides a member, and whatever an object
says, it can be laid out so that it says nothing (`parseCommand_layout`).
-/

namespace Launa.Mqtt

open Json Ota Protocol TextSearch

/-! ## What is read of a text -/

/-- A key of a command. -/
theorem isKey_of {key : List Char} (h : key ∈ ["hour", "minute", "is_24h", "name", "value",
    "code"].map String.toList) : IsKey key := by
  have hall : (["hour", "minute", "is_24h", "name", "value", "code"].map String.toList).all
      (fun key => !key.isEmpty && key.all isWord) = true := by decide +kernel
  have hkey := List.all_eq_true.1 hall key h
  rw [Bool.and_eq_true, Bool.not_eq_true'] at hkey
  exact ⟨fun hnil => by rw [hnil] at hkey; exact absurd hkey.1 (by decide), hkey.2⟩

/-- The time that three values are. -/
def timeResult (hour minute is24h : Option Token) (payload : List Char) : ParseResult :=
  match hour.bind tokenNumber, minute.bind tokenNumber with
  | some hour, some minute => validateTime hour minute ((is24h.bind tokenFlag).getD false)
  | _, _ => .invalidPayload (.setTimeJson payload)

/-- The preference that three values are. -/
def preferenceResult (name value code : Option Token) (payload : List Char) : ParseResult :=
  match name.bind tokenString with
  | some name =>
    let valueStr := (value.bind tokenString).getD []
    match preferenceCode name with
    | none => .invalidPayload (.preferenceName name)
    | some code =>
      match preferenceValue valueStr with
      | some value => .valid (.setPreference code (UInt8.ofNat value))
      | none => .invalidPayload (.preferenceValue valueStr)
  | none =>
    match code.bind tokenNumber, value.bind tokenNumber with
    | some code, some value => .valid (.setPreference (UInt8.ofNat code) (UInt8.ofNat value))
    | _, _ => .invalidPayload (.setPreferenceJson payload)

/-- The time that is set depends on the values shown for its three keys. -/
theorem parseSetTime_text (L : Layout) :
    parseSetTime L.text = timeResult (shownValue L "hour".toList) (shownValue L "minute".toList)
      (shownValue L "is_24h".toList) L.text := by
  have hkey : ∀ key ∈ ["hour", "minute", "is_24h"].map String.toList, IsKey key := fun key h =>
    isKey_of (List.mem_of_mem_take (i := 3) h)
  unfold parseSetTime
  rw [trim_text]
  dsimp only
  rw [if_pos (head?_trimmed L), extractJsonNumber_text (hkey _ (by simp)),
    extractJsonNumber_text (hkey _ (by simp)), extractJsonBool_text (hkey _ (by simp))]
  rfl

/-- The preference that is set depends on the values shown for its three keys. -/
theorem parseSetPreference_text (L : Layout) :
    parseSetPreference L.text = preferenceResult (shownValue L "name".toList)
      (shownValue L "value".toList) (shownValue L "code".toList) L.text := by
  have hkey : ∀ key ∈ ["name", "value", "code"].map String.toList, IsKey key := fun key h =>
    isKey_of (List.mem_of_mem_drop (i := 3) h)
  unfold parseSetPreference
  rw [trim_text]
  dsimp only
  rw [if_neg (not_not.2 (head?_trimmed L)), extractJsonString_text (hkey _ (by simp)),
    extractJsonString_text (hkey _ (by simp)), extractJsonNumber_text (hkey _ (by simp)),
    extractJsonNumber_text (hkey _ (by simp))]
  rfl

/-- A result without the payload that a rejection quotes. -/
def ParseResult.unquoted : ParseResult → ParseResult
  | .invalidPayload (.setTimeJson _) => .invalidPayload (.setTimeJson [])
  | .invalidPayload (.setPreferenceJson _) => .invalidPayload (.setPreferenceJson [])
  | result => result

variable {hour minute is24h name value code : Option Token} {payload : List Char}

/-- A time is rejected as no time unless both numbers are read. -/
theorem timeResult_unquoted_eq_iff :
    (timeResult hour minute is24h payload).unquoted = .invalidPayload (.setTimeJson []) ↔
      ¬((hour.bind tokenNumber).isSome = true ∧ (minute.bind tokenNumber).isSome = true) := by
  unfold timeResult
  cases hour.bind tokenNumber with
  | none => simp [ParseResult.unquoted]
  | some h =>
    cases minute.bind tokenNumber with
    | none => simp [ParseResult.unquoted]
    | some m =>
      simp only [validateTime, Option.isSome_some, and_self, not_true_eq_false, iff_false]
      split <;> simp [ParseResult.unquoted]

/-- A preference is rejected as no preference unless its name is read, or both its numbers. -/
theorem preferenceResult_unquoted_eq_iff :
    (preferenceResult name value code payload).unquoted = .invalidPayload (.setPreferenceJson []) ↔
      ¬((name.bind tokenString).isSome = true ∨
        (code.bind tokenNumber).isSome = true ∧ (value.bind tokenNumber).isSome = true) := by
  unfold preferenceResult
  cases name.bind tokenString with
  | none =>
    cases code.bind tokenNumber with
    | none => simp [ParseResult.unquoted]
    | some c => cases value.bind tokenNumber <;> simp [ParseResult.unquoted]
  | some n =>
    simp only [Option.isSome_some, true_or, not_true_eq_false, iff_false]
    cases preferenceCode n with
    | none => simp [ParseResult.unquoted]
    | some c =>
      cases preferenceValue ((value.bind tokenString).getD []) <;> simp [ParseResult.unquoted]

/-! ## Texts of one object -/

/-- The name and the value of a member, as they are spelled. -/
def tokens (m : Member) : Body × Token := (m.name, m.value)

/-- A text with the members of another one in any order and with any white space, and with members
whose names are none of the keys, and do not end in a quote and one of them. -/
def Rearranged (keys : List (List Char)) (L L' : Layout) : Prop :=
  ∃ extra : List (Body × Token),
    (L'.members.map tokens).Perm (L.members.map tokens ++ extra) ∧
      ∀ key ∈ keys, ∀ e ∈ extra, ¬Taken key e.1.raw

/-- Some member named by a key has a value that is read. -/
def Holds {α : Type} (read : Token → Option α) (L : Layout) (key : List Char) : Prop :=
  ∃ m ∈ L.members, m.Named key ∧ (read m.value).isSome = true

/-- The text with a space before every colon, except behind the members of which `tight` holds. -/
def respace (tight : Token → Bool) (L : Layout) : Layout :=
  { L with
    members := L.members.map fun m =>
      { m with beforeColon := if tight m.value then .empty else ⟨[' '], by simp [isSpace]⟩ } }

variable {α : Type} {read : Token → Option α} {keys : List (List Char)} {key : List Char}
  {L L' : Layout}

/-- A member named by a key is in both texts. -/
theorem Rearranged.exists_tokens (h : Rearranged keys L L') (hkey : key ∈ keys) {t : Body × Token}
    (hnamed : Taken key t.1.raw) :
    (∃ m ∈ L'.members, tokens m = t) ↔ ∃ m ∈ L.members, tokens m = t := by
  obtain ⟨extra, hperm, hextra⟩ := h
  have hmem := hperm.mem_iff (a := t)
  rw [List.mem_map, List.mem_append, List.mem_map] at hmem
  rw [hmem, or_iff_left fun ht => hextra key hkey t ht hnamed]

/-- Rearranged objects hold the same values. -/
theorem Rearranged.holds_iff (h : Rearranged keys L L') (hkey : key ∈ keys) :
    Holds read L' key ↔ Holds read L key := by
  constructor
  · rintro ⟨m, hm, hnamed, hread⟩
    obtain ⟨m', hm', heq⟩ := (h.exists_tokens (t := tokens m) hkey hnamed).1 ⟨m, hm, rfl⟩
    obtain ⟨hname, hvalue⟩ := Prod.mk.inj heq
    refine ⟨m', hm', ?_, by rwa [hvalue]⟩
    rwa [Member.Named, hname]
  · rintro ⟨m, hm, hnamed, hread⟩
    obtain ⟨m', hm', heq⟩ := (h.exists_tokens (t := tokens m) hkey hnamed).2 ⟨m, hm, rfl⟩
    obtain ⟨hname, hvalue⟩ := Prod.mk.inj heq
    refine ⟨m', hm', ?_, by rwa [hvalue]⟩
    rwa [Member.Named, hname]

/-- White space only rearranges an object. -/
theorem rearranged_respace (tight : Token → Bool) : Rearranged keys L (respace tight L) := by
  refine ⟨[], ?_, by simp⟩
  rw [List.append_nil, respace, List.map_map]
  exact .refl _

/-- What is read is there. -/
theorem holds_of_shownValue (h : ((shownValue L key).bind read).isSome = true) :
    Holds read L key := by
  unfold shownValue Layout.shown at h
  cases hfind : L.members.find? fun m => decide (m.Legible key) with
  | none =>
    rw [hfind] at h
    cases h
  | some m =>
    rw [hfind] at h
    have hlegible : m.Legible key := by simpa using List.find?_some hfind
    exact ⟨m, List.mem_of_find?_eq_some hfind, hlegible.1, h⟩

/-- With a space before every colon nothing is shown. -/
theorem shownValue_respace_none : shownValue (respace (fun _ => false) L) key = none := by
  unfold shownValue Layout.shown
  rw [List.find?_eq_none.2 ?_]
  · rfl
  · intro m hm
    obtain ⟨m, -, rfl⟩ := List.mem_map.1 hm
    simp [Member.Legible]

/-- With a space before the colons of the other members what is there is read. -/
theorem shownValue_respace (h : Holds read L key) :
    ((shownValue (respace (fun t => (read t).isSome) L) key).bind read).isSome = true := by
  obtain ⟨m, hm, hnamed, hread⟩ := h
  unfold shownValue Layout.shown
  cases hfind : (respace (fun t => (read t).isSome) L).members.find?
      fun m => decide (m.Legible key) with
  | none =>
    have hlegible := List.find?_eq_none.1 hfind _ (List.mem_map.2 ⟨m, hm, rfl⟩)
    rw [decide_eq_true_eq] at hlegible
    refine absurd ⟨hnamed, ?_⟩ hlegible
    dsimp only
    rw [if_pos hread]
    rfl
  | some m' =>
    -- The member that is found has no space before its colon, so its value is one that is read.
    have hlegible : m'.Legible key := by simpa using List.find?_some hfind
    obtain ⟨m, -, rfl⟩ := List.mem_map.1 (List.mem_of_find?_eq_some hfind)
    have hgap := hlegible.2
    dsimp only at hgap
    split_ifs at hgap with hread'
    exact hread'

/-- Each key names one member at most in the two texts, which has white space before its colon in
both or in neither. -/
def SameSpacing (keys : List (List Char)) (L L' : Layout) : Prop :=
  ∀ key ∈ keys, ∀ m ∈ L.members, ∀ m' ∈ L'.members, m.Named key → m'.Named key →
    tokens m = tokens m' ∧ (m.beforeColon.text = [] ↔ m'.beforeColon.text = [])

/-- A value that one text shows is shown by the other one. -/
theorem shownValue_eq_some_of_same {t : Token}
    (hmem : ∀ m ∈ L.members, m.Named key → ∃ m' ∈ L'.members, tokens m' = tokens m)
    (hsame : ∀ m ∈ L.members, ∀ m' ∈ L'.members, m.Named key → m'.Named key →
      tokens m = tokens m' ∧ (m.beforeColon.text = [] ↔ m'.beforeColon.text = []))
    (h : shownValue L key = some t) : shownValue L' key = some t := by
  obtain ⟨m, hshown, rfl⟩ := Option.map_eq_some_iff.1 h
  have hlegible : m.Legible key := by simpa using List.find?_some hshown
  have hm := List.mem_of_find?_eq_some hshown
  obtain ⟨m₁, hm₁, htokens⟩ := hmem m hm hlegible.1
  have hnamed₁ : m₁.Named key := by
    rw [Member.Named, (Prod.mk.inj htokens).1]
    exact hlegible.1
  have hlegible₁ : m₁.Legible key :=
    ⟨hnamed₁, (hsame m hm m₁ hm₁ hlegible.1 hnamed₁).2.1 hlegible.2⟩
  unfold shownValue
  cases hshown' : L'.shown key with
  | none =>
    have hnone := List.find?_eq_none.1 hshown' m₁ hm₁
    rw [decide_eq_true_eq] at hnone
    exact absurd hlegible₁ hnone
  | some m' =>
    have hlegible' : m'.Legible key := by simpa using List.find?_some hshown'
    have heq := (hsame m hm m' (List.mem_of_find?_eq_some hshown') hlegible.1 hlegible'.1).1
    rw [Option.map_some, (Prod.mk.inj heq).2]

/-- Two texts of one object with the same spacing show the same values. -/
theorem shownValue_eq (h : Rearranged keys L L') (hsame : SameSpacing keys L L')
    (hkey : key ∈ keys) : shownValue L' key = shownValue L key := by
  have hmem : ∀ m ∈ L.members, m.Named key → ∃ m' ∈ L'.members, tokens m' = tokens m :=
    fun m hm hnamed => (h.exists_tokens (t := tokens m) hkey hnamed).2 ⟨m, hm, rfl⟩
  have hmem' : ∀ m' ∈ L'.members, m'.Named key → ∃ m ∈ L.members, tokens m = tokens m' :=
    fun m' hm' hnamed => (h.exists_tokens (t := tokens m') hkey hnamed).1 ⟨m', hm', rfl⟩
  have hsame' : ∀ m' ∈ L'.members, ∀ m ∈ L.members, m'.Named key → m.Named key →
      tokens m' = tokens m ∧ (m'.beforeColon.text = [] ↔ m.beforeColon.text = []) := by
    intro m' hm' m hm hnamed' hnamed
    obtain ⟨htokens, hgap⟩ := hsame key hkey m hm m' hm' hnamed hnamed'
    exact ⟨htokens.symm, hgap.symm⟩
  apply Option.ext
  intro t
  exact ⟨shownValue_eq_some_of_same hmem' hsame', shownValue_eq_some_of_same hmem (hsame key hkey)⟩

/-! ## Commands and layouts -/

/-- `parse_command` of a message to `set_time`. -/
def setTime (r : Rounding) (base : List Char) : List UInt8 → ParseResult :=
  parseCommand r base (base ++ "/set_time".toList)

/-- `parse_command` of a message to `set_preference`. -/
def setPreference (r : Rounding) (base : List Char) : List UInt8 → ParseResult :=
  parseCommand r base (base ++ "/set_preference".toList)

/-- The keys of a time. -/
def timeKeys : List (List Char) := ["hour", "minute", "is_24h"].map String.toList

/-- The keys of a preference. -/
def preferenceKeys : List (List Char) := ["name", "value", "code"].map String.toList

/-- No text of the object that a payload is of is parsed to something else. -/
def Insensitive (keys : List (List Char)) (parse : List UInt8 → ParseResult)
    (payload : List UInt8) (L : Layout) : Prop :=
  ∀ payload' L', utf8Decode payload' = some L'.text → Rearranged keys L L' →
    (parse payload').unquoted = (parse payload).unquoted

/-- An object with a number for the hour and one for the minute. -/
def HoldsTime (L : Layout) : Prop :=
  Holds tokenNumber L "hour".toList ∧ Holds tokenNumber L "minute".toList

/-- An object with a name, or with a number for the code and one for the value. -/
def HoldsPreference (L : Layout) : Prop :=
  Holds tokenString L "name".toList ∨
    Holds tokenNumber L "code".toList ∧ Holds tokenNumber L "value".toList

/-- A prefix is stripped. -/
theorem stripPrefix_append (base cs : List Char) : stripPrefix base (base ++ cs) = some cs := by
  simp [stripPrefix]

/-- The topic of the time has its payload parsed as one. -/
theorem setTime_eq {r : Rounding} {base s : List Char} {payload : List UInt8}
    (h : utf8Decode payload = some s) : setTime r base payload = parseSetTime s := by
  have hstrip : stripPrefix base (base ++ "/set_time".toList) = some ('/' :: "set_time".toList) :=
    stripPrefix_append base _
  have hallowed : ¬"set_time".toList ∉ allowedSubtopics := not_not.2 (by decide +kernel)
  rw [setTime, parseCommand, hstrip]
  refine (if_neg hallowed).trans ?_
  rw [h]
  rfl

/-- The topic of the preferences has its payload parsed as one. -/
theorem setPreference_eq {r : Rounding} {base s : List Char} {payload : List UInt8}
    (h : utf8Decode payload = some s) : setPreference r base payload = parseSetPreference s := by
  have hstrip : stripPrefix base (base ++ "/set_preference".toList) =
      some ('/' :: "set_preference".toList) := stripPrefix_append base _
  have hallowed : ¬"set_preference".toList ∉ allowedSubtopics := not_not.2 (by decide +kernel)
  rw [setPreference, parseCommand, hstrip]
  refine (if_neg hallowed).trans ?_
  rw [h]
  rfl

/-- A reader that rejects an object for the white space in it, but not for what it holds, is
insensitive to layouts only of objects that hold nothing. -/
theorem insensitive_iff {parse : List UInt8 → ParseResult} {parseText : List Char → ParseResult}
    {payload : List UInt8} (reject : ParseResult) (holds : Layout → Prop)
    (hparse : ∀ payload s, utf8Decode payload = some s → parse payload = parseText s)
    (hempty : ∀ L, ¬holds L → (parseText L.text).unquoted = reject)
    (hholds : ∀ L, holds L → ∃ tight, (parseText (respace tight L).text).unquoted ≠ reject)
    (hspaced : ∀ L, (parseText (respace (fun _ => false) L).text).unquoted = reject)
    (hrearranged : ∀ L L', Rearranged keys L L' → (holds L' ↔ holds L))
    (hpayload : utf8Decode payload = some L.text) :
    Insensitive keys parse payload L ↔ ¬holds L := by
  constructor
  · intro hinsensitive hL
    have hrespace : ∀ tight,
        (parseText (respace tight L).text).unquoted = (parse payload).unquoted := by
      intro tight
      obtain ⟨payload', hpayload'⟩ := exists_utf8Decode (respace tight L).text
      rw [← hparse _ _ hpayload']
      exact hinsensitive payload' _ hpayload' (rearranged_respace tight)
    obtain ⟨tight, htight⟩ := hholds L hL
    rw [hrespace tight, ← hrespace fun _ => false] at htight
    exact htight (hspaced L)
  · intro hL payload' L' hpayload' h
    rw [hparse _ _ hpayload', hparse _ _ hpayload, hempty L hL,
      hempty L' fun h' => hL ((hrearranged L L' h).1 h')]

/-- Setting the time ignores the layout exactly if the object holds no time. -/
theorem insensitive_setTime_iff {r : Rounding} {base : List Char} {payload : List UInt8}
    (hpayload : utf8Decode payload = some L.text) :
    Insensitive timeKeys (setTime r base) payload L ↔ ¬HoldsTime L := by
  have htext : ∀ L, (parseSetTime L.text).unquoted = .invalidPayload (.setTimeJson []) ↔
      ¬(((shownValue L "hour".toList).bind tokenNumber).isSome = true ∧
        ((shownValue L "minute".toList).bind tokenNumber).isSome = true) := by
    intro L
    rw [parseSetTime_text, timeResult_unquoted_eq_iff]
  refine insensitive_iff (.invalidPayload (.setTimeJson [])) HoldsTime
    (fun payload s h => setTime_eq h) ?_ ?_ ?_ ?_ hpayload
  · exact fun L hL => (htext L).2 fun h =>
      hL ⟨holds_of_shownValue h.1, holds_of_shownValue h.2⟩
  · exact fun L hL => ⟨fun t => (tokenNumber t).isSome, fun h =>
      (htext _).1 h ⟨shownValue_respace hL.1, shownValue_respace hL.2⟩⟩
  · intro L
    rw [htext, shownValue_respace_none]
    exact fun h => Bool.false_ne_true h.1
  · exact fun L L' h => and_congr (h.holds_iff (by simp [timeKeys]))
      (h.holds_iff (by simp [timeKeys]))

/-- Setting a preference ignores the layout exactly if the object holds none. -/
theorem insensitive_setPreference_iff {r : Rounding} {base : List Char} {payload : List UInt8}
    (hpayload : utf8Decode payload = some L.text) :
    Insensitive preferenceKeys (setPreference r base) payload L ↔ ¬HoldsPreference L := by
  have htext : ∀ L, (parseSetPreference L.text).unquoted =
      .invalidPayload (.setPreferenceJson []) ↔
        ¬(((shownValue L "name".toList).bind tokenString).isSome = true ∨
          ((shownValue L "code".toList).bind tokenNumber).isSome = true ∧
            ((shownValue L "value".toList).bind tokenNumber).isSome = true) := by
    intro L
    rw [parseSetPreference_text, preferenceResult_unquoted_eq_iff]
  refine insensitive_iff (.invalidPayload (.setPreferenceJson [])) HoldsPreference
    (fun payload s h => setPreference_eq h) ?_ ?_ ?_ ?_ hpayload
  · exact fun L hL => (htext L).2 fun h => hL (h.imp holds_of_shownValue fun h =>
      ⟨holds_of_shownValue h.1, holds_of_shownValue h.2⟩)
  · rintro L (hname | ⟨hcode, hvalue⟩)
    · exact ⟨fun t => (tokenString t).isSome, fun h =>
        (htext _).1 h (.inl (shownValue_respace hname))⟩
    · exact ⟨fun t => (tokenNumber t).isSome, fun h =>
        (htext _).1 h (.inr ⟨shownValue_respace hcode, shownValue_respace hvalue⟩)⟩
  · intro L
    rw [htext, shownValue_respace_none, shownValue_respace_none, shownValue_respace_none]
    rintro (h | h)
    · exact Bool.false_ne_true h
    · exact Bool.false_ne_true h.1
  · exact fun L L' h => or_congr (h.holds_iff (by simp [preferenceKeys]))
      (and_congr (h.holds_iff (by simp [preferenceKeys])) (h.holds_iff (by simp [preferenceKeys])))

/-- Rejections of two payloads with the same values differ in the quoted payload only. -/
theorem timeResult_unquoted_eq (payload' : List Char) :
    (timeResult hour minute is24h payload).unquoted =
      (timeResult hour minute is24h payload').unquoted := by
  unfold timeResult
  cases hour.bind tokenNumber with
  | none => rfl
  | some h => cases minute.bind tokenNumber <;> rfl

/-- Without the quoted text the result does not depend on the payload. -/
theorem preferenceResult_unquoted_eq (payload' : List Char) :
    (preferenceResult name value code payload).unquoted =
      (preferenceResult name value code payload').unquoted := by
  unfold preferenceResult
  cases name.bind tokenString with
  | none =>
    cases code.bind tokenNumber with
    | none => rfl
    | some c => cases value.bind tokenNumber <;> rfl
  | some n => rfl

/-- A message with a JSON object is parsed alike in every layout of it exactly when it holds no time
or preference at all. Two texts with the same spacing are parsed alike whatever they hold. -/
theorem parseCommand_layout (r : Rounding) (base : List Char) {payload : List UInt8}
    (hpayload : utf8Decode payload = some L.text) :
    (Insensitive timeKeys (setTime r base) payload L ↔ ¬HoldsTime L) ∧
    (Insensitive preferenceKeys (setPreference r base) payload L ↔ ¬HoldsPreference L) ∧
    ∀ payload' L', utf8Decode payload' = some L'.text →
      (Rearranged timeKeys L L' → SameSpacing timeKeys L L' →
        (setTime r base payload').unquoted = (setTime r base payload).unquoted) ∧
      (Rearranged preferenceKeys L L' → SameSpacing preferenceKeys L L' →
        (setPreference r base payload').unquoted = (setPreference r base payload).unquoted) := by
  refine ⟨insensitive_setTime_iff hpayload, insensitive_setPreference_iff hpayload, ?_⟩
  intro payload' L' hpayload'
  constructor
  · intro h hsame
    have hshown := fun key (hkey : key ∈ timeKeys) => shownValue_eq h hsame hkey
    rw [setTime_eq hpayload, setTime_eq hpayload', parseSetTime_text, parseSetTime_text,
      hshown _ (by simp [timeKeys]), hshown _ (by simp [timeKeys]), hshown _ (by simp [timeKeys])]
    exact timeResult_unquoted_eq _
  · intro h hsame
    have hshown := fun key (hkey : key ∈ preferenceKeys) => shownValue_eq h hsame hkey
    rw [setPreference_eq hpayload, setPreference_eq hpayload', parseSetPreference_text,
      parseSetPreference_text, hshown _ (by simp [preferenceKeys]),
      hshown _ (by simp [preferenceKeys]), hshown _ (by simp [preferenceKeys])]
    exact preferenceResult_unquoted_eq _

/-- The object of half past twelve. -/
def exampleTime : Layout :=
  .compact [(.plain "hour".toList (by decide),
      .number (show numberValue "12".toList = some 12 by decide +kernel)),
    (.plain "minute".toList (by decide),
      .number (show numberValue "30".toList = some 30 by decide +kernel))]

/-- White space behind a colon changes what is parsed of a time. -/
theorem parseCommand_layout_time :
    ¬Insensitive timeKeys (setTime .exact "launa".toList)
      (ascii "\x7b\"hour\":12,\"minute\":30\x7d") exampleTime := by
  have htext : utf8Decode (ascii "\x7b\"hour\":12,\"minute\":30\x7d") = some exampleTime.text := by
    decide +kernel
  intro h
  refine (parseCommand_layout .exact "launa".toList htext).1.1 h ⟨?_, ?_⟩
  · exact ⟨_, List.mem_cons_self, by decide +kernel, by decide +kernel⟩
  · exact ⟨_, List.mem_cons_of_mem _ List.mem_cons_self, by decide +kernel, by decide +kernel⟩

/-- With a space before the colons a time is rejected. -/
theorem setTime_space_before_colon :
    ¬∀ (payload payload' : List UInt8) (L L' : Layout), utf8Decode payload = some L.text →
      utf8Decode payload' = some L'.text → Rearranged timeKeys L L' →
      (setTime .exact "launa".toList payload').unquoted =
        (setTime .exact "launa".toList payload).unquoted := by
  intro h
  have heq := h (ascii "\x7b\"hour\":12,\"minute\":30\x7d")
    (ascii "\x7b\"hour\" :12,\"minute\" :30\x7d") exampleTime (respace (fun _ => false) exampleTime)
    (by decide +kernel) (by decide +kernel) (rearranged_respace _)
  revert heq
  decide +kernel

end Launa.Mqtt
