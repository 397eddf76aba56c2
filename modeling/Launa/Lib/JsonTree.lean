import Launa.Lib.JsonPrint

/-!
# JSON texts of nested values

How a value that holds others may be spelled (`SpellsValue`), with white space between its tokens.
`readValue` reads a value back from any of its texts (`readValue_spells`). A writer without white
space gives a legal text if its names need no escapes and the texts of its values are legal
(`spells_printProperties`). If it spells one string wrongly, that string still has to be read from
what is printed (`readBody_of_printProperties`).
-/

namespace Launa.Json

/-! ## Values -/

/-- A value. The members of an object are in the order of the text. A number that is spelled as a
float is one of its own, and a scalar is a number of plain digits only. -/
inductive Value where
  | scalar (s : Scalar)
  | float (q : ℚ)
  | array (values : List Value)
  | object (members : List (List Char × Value))

/-- A string. -/
def Value.text (s : List Char) : Value := .scalar (.string s)

/-- A number with a point or an exponent is a float, and so is `-0`. -/
def isFloat (raw : List Char) : Bool :=
  raw.any (fun c => c == '.' || c == 'e' || c == 'E') || raw == ['-', '0']

/-- The value of a scalar as it is spelled. -/
def Value.ofScalar (raw : List Char) : Scalar → Value
  | .number q => if isFloat raw then .float q else .scalar (.number q)
  | s => .scalar s

/-- No object in the value has two members of one name. -/
inductive Value.Distinct : Value → Prop
  | scalar (s : Scalar) : Distinct (.scalar s)
  | float (q : ℚ) : Distinct (.float q)
  | array {values : List Value} (h : ∀ v ∈ values, Distinct v) : Distinct (.array values)
  | object {members : List (List Char × Value)} (hnames : (members.map Prod.fst).Nodup)
    (h : ∀ m ∈ members, Distinct m.2) : Distinct (.object members)

/-- A value without objects, and with no arrays in an array. -/
def Value.isFlat : Value → Bool
  | .scalar _ | .float _ => true
  | .array values => values.all fun v => match v with
    | .scalar _ | .float _ => true
    | _ => false
  | .object _ => false

/-- A flat value has no two members of one name. -/
theorem Value.Distinct.of_isFlat {v : Value} (h : v.isFlat = true) : v.Distinct := by
  cases v with
  | scalar s => exact .scalar s
  | float q => exact .float q
  | array values =>
    refine .array fun v hv => ?_
    have hscalar := List.all_eq_true.1 h v hv
    cases v with
    | scalar s => exact .scalar s
    | float q => exact .float q
    | array values => cases hscalar
    | object members => cases hscalar
  | object members => cases h

/-- An object of flat values whose names differ. -/
theorem Value.Distinct.of_flat {members : List (List Char × Value)}
    (hnames : (members.map Prod.fst).Nodup) (h : ∀ m ∈ members, m.2.isFlat = true) :
    (Value.object members).Distinct := .object hnames fun m hm => .of_isFlat (h m hm)

/-! ## Reading parts -/

/-- The value of a name in an object. The last member of the name counts. -/
def Value.get (name : String) : Value → Option Value
  | .object members => (members.reverse.find? fun m => m.1 = name.toList).map Prod.snd
  | _ => none

/-- The values of an array. -/
def Value.asArray : Value → Option (List Value)
  | .array values => some values
  | _ => none

/-- The characters of a string. -/
def Value.asStr : Value → Option (List Char)
  | .scalar (.string s) => some s
  | _ => none

/-- A number of 64 bits, spelled without a point and an exponent. -/
def Value.asU64 : Value → Option ℕ
  | .scalar (.number q) => if q = q.num.toNat ∧ q.num.toNat < 2 ^ 64 then some q.num.toNat else none
  | _ => none

/-- Any number. -/
def Value.asF64 : Value → Option ℚ
  | .scalar (.number q) | .float q => some q
  | _ => none

/-- A Boolean. -/
def Value.asBool : Value → Option Bool
  | .scalar (.bool b) => some b
  | _ => none

/-- An array is read as its values. -/
@[simp] theorem Value.asArray_array (values : List Value) :
    (Value.array values).asArray = some values := rfl

/-- A string is read as its characters. -/
@[simp] theorem Value.asStr_text (s : List Char) : (Value.text s).asStr = some s := rfl

/-- A whole number below `2^64` is read as it is. -/
theorem Value.asU64_number {n : ℕ} (h : n < 2 ^ 64) :
    (Value.scalar (.number n)).asU64 = some n := by
  rw [asU64, if_pos ⟨by simp, by simpa using h⟩]
  simp

/-! ## Texts -/

/-- A value in an array or behind the colon of a member, with the white space around it. -/
structure Element where
  before : Gap
  raw : List Char
  value : Value
  after : Gap

/-- The text of an element. -/
def Element.text (e : Element) : List Char := e.before.text ++ e.raw ++ e.after.text

/-- An element without white space. -/
def Element.tight (raw : List Char) (value : Value) : Element := ⟨.empty, raw, value, .empty⟩

/-- A member of an object, with the white space around its name. -/
structure Entry where
  beforeName : Gap
  name : Body
  beforeColon : Gap
  element : Element

/-- The text of a member. -/
def Entry.text (e : Entry) : List Char :=
  e.beforeName.text ++ '"' :: e.name.raw ++ '"' :: e.beforeColon.text ++ ':' :: e.element.text

/-- The name and the value of a member. -/
def Entry.member (e : Entry) : List Char × Value := (e.name.text, e.element.value)

/-- A member without white space. -/
def Entry.tight (name : Body) (raw : List Char) (value : Value) : Entry :=
  ⟨.empty, name, .empty, .tight raw value⟩

/-- Some texts with commas between them, or the white space of an empty list. -/
def listText (inner : Gap) : List (List Char) → List Char
  | [] => inner.text
  | t :: ts => t ++ ts.flatMap fun t => ',' :: t

/-- How a value may be spelled. -/
inductive SpellsValue : List Char → Value → Prop
  | scalar {raw : List Char} {s : Scalar} (h : SpellsScalar raw s) :
    SpellsValue raw (.ofScalar raw s)
  | array (inner : Gap) (elements : List Element)
    (h : ∀ e ∈ elements, SpellsValue e.raw e.value) :
    SpellsValue ('[' :: (listText inner (elements.map Element.text) ++ [']']))
      (.array (elements.map Element.value))
  | object (inner : Gap) (entries : List Entry)
    (h : ∀ e ∈ entries, SpellsValue e.element.raw e.element.value) :
    SpellsValue ('{' :: (listText inner (entries.map Entry.text) ++ ['}']))
      (.object (entries.map Entry.member))

/-! ## The reader -/

section Lists

variable {α : Type}

/-- The items of a list behind its first one, and what follows the list. -/
def readRest (read : List Char → Option (α × List Char)) (close : Char) :
    (fuel : ℕ) → List Char → Option (List α × List Char)
  | _, [] => none
  | 0, c :: cs => if c = close then some ([], cs) else none
  | fuel + 1, c :: cs =>
    if c = close then some ([], cs)
    else if c = ',' then do
      let (x, cs) ← read cs
      let (xs, cs) ← readRest read close fuel cs
      return (x :: xs, cs)
    else none

/-- The items of a list, and what follows it. -/
def readList (read : List Char → Option (α × List Char)) (close : Char) (cs : List Char) :
    Option (List α × List Char) :=
  match expect close cs with
  | some rest => some ([], rest)
  | none => do
    let (x, cs) ← read cs
    let (xs, cs) ← readRest read close cs.length cs
    return (x :: xs, cs)

end Lists

/-- A value with the white space around it, and what follows it. -/
def readElement (read : List Char → Option (Value × List Char)) (cs : List Char) :
    Option (Value × List Char) :=
  (read (skipSpaces cs)).map fun (value, cs) => (value, skipSpaces cs)

/-- A member, and what follows it. -/
def readEntry (read : List Char → Option (Value × List Char)) (cs : List Char) :
    Option ((List Char × Value) × List Char) := do
  let cs ← expect '"' cs
  let (name, cs) ← readBody cs.length cs
  let cs ← expect ':' cs
  let (value, cs) ← readElement read cs
  return ((name, value), cs)

/-- A value, and what follows it; at most so many levels are read. -/
def readValue : (depth : ℕ) → List Char → Option (Value × List Char)
  | 0, _ => none
  | depth + 1, '[' :: cs =>
    (readList (readElement (readValue depth)) ']' cs).map fun (values, cs) => (.array values, cs)
  | depth + 1, '{' :: cs =>
    (readList (readEntry (readValue depth)) '}' cs).map fun (members, cs) => (.object members, cs)
  | _ + 1, cs =>
    (readScalar cs).map fun (s, rest) => (.ofScalar (cs.takeWhile isNumberChar) s, rest)

/-! ## What is read of a list -/

section Lists

variable {α ι : Type} {read : List Char → Option (α × List Char)} {close : Char}
  {text : ι → List Char} {value : ι → α} {items : List ι} {rest : List Char} {fuel : ℕ}

/-- A text behind an item of a list. -/
def ClosesList (close : Char) (rest : List Char) : Prop :=
  ∃ c cs, rest = c :: cs ∧ (c = ',' ∨ c = close)

/-- The items are read wherever they stand in a list. -/
def ReadsItems (read : List Char → Option (α × List Char)) (close : Char) (text : ι → List Char)
    (value : ι → α) (items : List ι) : Prop :=
  ∀ i ∈ items, ∀ rest, ClosesList close rest → read (text i ++ rest) = some (value i, rest)

/-- An item is closed by the comma of the next one or by the end of the list. -/
theorem closesList_flatMap (text : ι → List Char) (items : List ι) (h : ClosesList close rest) :
    ClosesList close (items.flatMap (fun i => ',' :: text i) ++ rest) := by
  cases items with
  | nil => exact h
  | cons i items => exact ⟨',', _, rfl, .inl rfl⟩

/-- Behind some items the reading goes on. -/
theorem readRest_append (h : ReadsItems read close text value items) (hclose : close ≠ ',')
    (hrest : ClosesList close rest) :
    readRest read close (items.length + fuel)
        (items.flatMap (fun i => ',' :: text i) ++ rest) =
      (readRest read close fuel rest).map fun r => (items.map value ++ r.1, r.2) := by
  induction items with
  | nil =>
    rw [List.length_nil, Nat.zero_add, List.flatMap_nil, List.nil_append]
    cases readRest read close fuel rest with
    | none => rfl
    | some r => rfl
  | cons i items ih =>
    have hi := h i List.mem_cons_self _ (closesList_flatMap text items hrest)
    rw [List.length_cons, Nat.add_right_comm, List.flatMap_cons, List.append_assoc,
      List.cons_append, readRest, if_neg hclose.symm, if_pos rfl, hi]
    rw [Option.bind_eq_bind, Option.bind_some]
    dsimp only
    rw [ih fun i hi => h i (List.mem_cons_of_mem _ hi)]
    cases readRest read close fuel rest with
    | none => rfl
    | some r => rfl

/-- Each item takes a character at least. -/
theorem length_le_flatMap (text : ι → List Char) (items : List ι) :
    items.length ≤ (items.flatMap fun i => ',' :: text i).length := by
  induction items with
  | nil => exact Nat.le_refl 0
  | cons i items ih =>
    rw [List.flatMap_cons, List.length_append, List.length_cons, List.length_cons]
    omega

/-- A list with an item is read from this on, and then the rest. -/
theorem readList_cons {i : ι} (h : ReadsItems read close text value (i :: items))
    (hclose : close ≠ ',') (hfirst : ∀ cs, expect close (text i ++ cs) = none)
    (hrest : ClosesList close rest) :
    ∃ fuel, readList read close
        (text i ++ (items.flatMap (fun i => ',' :: text i) ++ rest)) =
      (readRest read close fuel rest).map fun r => (value i :: (items.map value ++ r.1), r.2) := by
  have hi := h i List.mem_cons_self _ (closesList_flatMap text items hrest)
  have hle := length_le_flatMap text items
  have hlength : (items.flatMap (fun i => ',' :: text i) ++ rest).length =
      items.length + ((items.flatMap fun i => ',' :: text i).length - items.length +
        rest.length) := by
    rw [List.length_append]
    omega
  refine ⟨(items.flatMap fun i => ',' :: text i).length - items.length + rest.length, ?_⟩
  rw [readList, hfirst]
  dsimp only
  rw [hi, Option.bind_eq_bind, Option.bind_some]
  dsimp only
  rw [hlength, readRest_append (fun i hi => h i (List.mem_cons_of_mem _ hi)) hclose hrest]
  cases readRest read close _ rest with
  | none => rfl
  | some r => rfl

/-- The next item is read behind a comma. -/
theorem read_of_readRest {cs : List Char} {x : α} {xs : List α} (hclose : close ≠ ',')
    (h : readRest read close fuel (',' :: cs) = some (x :: xs, rest)) :
    ∃ rest, read cs = some (x, rest) := by
  cases fuel with
  | zero =>
    rw [readRest, if_neg hclose.symm] at h
    cases h
  | succ fuel =>
    rw [readRest, if_neg hclose.symm, if_pos rfl, Option.bind_eq_bind,
      Option.bind_eq_some_iff] at h
    obtain ⟨⟨x', rest'⟩, hread, h⟩ := h
    obtain ⟨⟨xs', rest''⟩, -, hpair⟩ := Option.bind_eq_some_iff.1 h
    cases hpair
    exact ⟨rest', hread⟩

/-- A whole list is read. -/
theorem readList_listText (h : ReadsItems read close text value items) (hclose : close ≠ ',')
    (hspace : isSpace close = false)
    (hfirst : ∀ i ∈ items, ∀ cs, expect close (text i ++ cs) = none) (inner : Gap)
    (rest : List Char) :
    readList read close (listText inner (items.map text) ++ close :: rest) =
      some (items.map value, rest) := by
  cases items with
  | nil =>
    rw [List.map_nil, listText, readList, expect_gap, expect_cons hspace]
    rfl
  | cons i items =>
    obtain ⟨fuel, hread⟩ := readList_cons h hclose (hfirst i List.mem_cons_self)
      (⟨close, rest, rfl, .inr rfl⟩ : ClosesList close (close :: rest))
    have hend : readRest read close fuel (close :: rest) = some ([], rest) := by
      cases fuel with
      | zero => exact if_pos rfl
      | succ fuel => exact if_pos rfl
    rw [hend] at hread
    rw [List.map_cons, listText, List.append_assoc, List.flatMap_map, hread, List.map_cons]
    exact congrArg (fun xs => some (value i :: xs, rest)) (List.append_nil _)

end Lists

/-! ## What is read of a value -/

variable {raw rest : List Char} {v : Value} {read : List Char → Option (Value × List Char)}
  {close : Char} {depth : ℕ}

/-- A text behind a value, or behind the white space after it. -/
def Stops (rest : List Char) : Prop :=
  ∀ c ∈ rest.head?, isSpace c = true ∨ c = ',' ∨ c = ']' ∨ c = '}'

/-- What stops a value does not continue a number. -/
theorem Stops.isNumberChar (h : Stops rest) : ∀ c ∈ rest.head?, isNumberChar c = false := by
  intro c hc
  rcases h c hc with hspace | rfl | rfl | rfl
  · have hends : Ends rest := by
      intro d hd
      rw [Option.mem_unique hd hc]
      exact .inl hspace
    exact hends.isNumberChar c hc
  · decide
  · decide
  · decide

/-- The closing character of an array or an object. -/
def IsClose (c : Char) : Prop := c = ']' ∨ c = '}'

/-- A closing bracket is no white space. -/
theorem IsClose.isSpace (h : IsClose close) : isSpace close = false := by
  rcases h with rfl | rfl <;> rfl

/-- What closes an item does not begin with white space. -/
theorem ClosesList.skipSpaces (h : ClosesList close rest) (hclose : IsClose close) :
    skipSpaces rest = rest := by
  obtain ⟨c, cs, rfl, rfl | rfl⟩ := h
  · exact skipSpaces_cons (by decide)
  · exact skipSpaces_cons hclose.isSpace

/-- What closes an item stops its value, also behind white space. -/
theorem ClosesList.stops (h : ClosesList close rest) (hclose : IsClose close) (gap : Gap) :
    Stops (gap.text ++ rest) := by
  obtain ⟨c, cs, rfl, hc⟩ := h
  intro d hd
  cases hgap : gap.text with
  | nil =>
    rw [hgap] at hd
    cases hd
    rcases hc with rfl | rfl
    · exact .inr (.inl rfl)
    · exact .inr (.inr hclose)
  | cons e es =>
    rw [hgap] at hd
    cases hd
    exact .inl (gap.isSpace d (by rw [hgap]; exact List.mem_cons_self))

/-- A value begins with no white space and no closing character. -/
theorem SpellsValue.exists_cons (h : SpellsValue raw v) :
    ∃ c cs, raw = c :: cs ∧ isSpace c = false ∧ ¬IsClose c := by
  cases h with
  | scalar h =>
    obtain ⟨c, cs, hraw, hc⟩ := h.head?
    obtain ⟨c', cs', hraw', hspace⟩ := isSpace_false_of_head h
    rw [hraw] at hraw'
    obtain ⟨rfl, rfl⟩ := List.cons.inj hraw'
    refine ⟨c, cs, hraw, hspace, ?_⟩
    rintro (rfl | rfl) <;> exact absurd hc (by decide)
  | array inner elements h => exact ⟨'[', _, rfl, rfl, by unfold IsClose; decide⟩
  | object inner entries h => exact ⟨'{', _, rfl, rfl, by unfold IsClose; decide⟩

/-- The value of an element is read where it begins. -/
def ReadsValue (read : List Char → Option (Value × List Char)) (e : Element) : Prop :=
  ∀ rest, Stops rest → read (e.raw ++ rest) = some (e.value, rest)

/-- An element is read back with the white space around it. -/
theorem readElement_text {e : Element} (h : SpellsValue e.raw e.value) (hread : ReadsValue read e)
    (hclose : IsClose close) (hrest : ClosesList close rest) :
    readElement read (e.text ++ rest) = some (e.value, rest) := by
  obtain ⟨c, cs, hraw, hspace, -⟩ := h.exists_cons
  have hskip : skipSpaces (e.raw ++ (e.after.text ++ rest)) = e.raw ++ (e.after.text ++ rest) := by
    rw [hraw]
    exact skipSpaces_cons hspace
  rw [readElement, Element.text, List.append_assoc, List.append_assoc, skipSpaces_gap, hskip,
    hread _ (hrest.stops hclose e.after), Option.map_some]
  dsimp only
  rw [skipSpaces_gap, hrest.skipSpaces hclose]

/-- A name in quotes is read, and the colon behind it. -/
theorem readBody_name (name : Body) (cs : List Char) :
    readBody (name.raw ++ '"' :: cs).length (name.raw ++ '"' :: cs) = some (name.text, cs) := by
  apply readBody_spells name.spells
  have := name.spells.length_le
  rw [List.length_append]
  omega

/-- A member is read up to the colon, and then its value. -/
theorem readEntry_name (before colon : Gap) (name : Body) (cs : List Char) :
    readEntry read (before.text ++ '"' :: (name.raw ++ '"' :: (colon.text ++ ':' :: cs))) =
      (readElement read cs).map fun (value, cs) => ((name.text, value), cs) := by
  rw [readEntry, expect_gap, expect_cons (by decide), Option.bind_eq_bind, Option.bind_some,
    readBody_name, Option.bind_eq_bind, Option.bind_some]
  dsimp only
  rw [expect_gap, expect_cons (by decide), Option.bind_eq_bind, Option.bind_some]
  cases readElement read cs with
  | none => rfl
  | some r => rfl

/-- An entry is read back with its name and the white space around it. -/
theorem readEntry_text {e : Entry} (h : SpellsValue e.element.raw e.element.value)
    (hread : ReadsValue read e.element) (hclose : IsClose close) (hrest : ClosesList close rest) :
    readEntry read (e.text ++ rest) = some (e.member, rest) := by
  have htext : e.text ++ rest = e.beforeName.text ++ '"' :: (e.name.raw ++ '"' ::
      (e.beforeColon.text ++ ':' :: (e.element.text ++ rest))) := by
    simp only [Entry.text, List.append_assoc, List.cons_append]
  rw [htext, readEntry_name, readElement_text h hread hclose hrest]
  rfl

/-- An element does not begin with a closing bracket. -/
theorem expect_element {e : Element} (h : SpellsValue e.raw e.value) (hclose : IsClose close)
    (cs : List Char) : expect close (e.text ++ cs) = none := by
  obtain ⟨c, cs', hraw, hspace, hc⟩ := h.exists_cons
  have hne : c ≠ close := by
    rintro rfl
    exact hc hclose
  rw [Element.text, List.append_assoc, List.append_assoc, expect_gap, hraw]
  exact expect_cons_of_ne hspace hne

/-- An entry does not begin with a closing bracket. -/
theorem expect_entry (e : Entry) (hclose : IsClose close) (cs : List Char) :
    expect close (e.text ++ cs) = none := by
  have hne : '"' ≠ close := by rcases hclose with rfl | rfl <;> decide
  simp only [Entry.text, List.append_assoc, List.cons_append, expect_gap]
  exact expect_cons_of_ne (by decide) hne

/-- An item is no longer than the list. -/
theorem length_le_listText {inner : Gap} {t : List Char} {ts : List (List Char)} (h : t ∈ ts) :
    t.length ≤ (listText inner ts).length := by
  cases ts with
  | nil => cases h
  | cons u us =>
    rw [listText, List.length_append]
    rcases List.mem_cons.1 h with rfl | h
    · exact Nat.le_add_right _ _
    · obtain ⟨us', us'', rfl⟩ := List.append_of_mem h
      simp only [List.flatMap_append, List.flatMap_cons, List.length_append, List.length_cons]
      omega

/-- The characters of a number are the ones it is spelled with. -/
theorem ofScalar_takeWhile {s : Scalar} (h : SpellsScalar raw s) (hrest : Stops rest) :
    Value.ofScalar ((raw ++ rest).takeWhile isNumberChar) s = .ofScalar raw s := by
  cases h with
  | number h => rw [TextSearch.takeWhile_append_of_stop (numberValue_chars h).2 hrest.isNumberChar]
  | string body => rfl
  | isTrue => rfl
  | isFalse => rfl
  | isNull => rfl

/-- A scalar is read back. -/
theorem readValue_scalar {s : Scalar} (h : SpellsScalar raw s) (hrest : Stops rest) :
    readValue (depth + 1) (raw ++ rest) = some (.ofScalar raw s, rest) := by
  have hread := readScalar_of_stop h hrest.isNumberChar
  have hvalue := ofScalar_takeWhile h hrest
  obtain ⟨c, cs, rfl, hc⟩ := h.head?
  have hbracket : c ≠ '[' := by
    rintro rfl
    exact absurd hc (by decide)
  have hbrace : c ≠ '{' := by
    rintro rfl
    exact absurd hc (by decide)
  rw [List.cons_append] at hread hvalue ⊢
  rw [readValue, hread, Option.map_some]
  · dsimp only
    rw [hvalue]
  · exact fun _ heq => hbracket (List.cons.inj heq).1
  · exact fun _ heq => hbrace (List.cons.inj heq).1

/-- A text that is no longer than the depth leaves a level for what it holds. -/
theorem SpellsValue.exists_depth (h : SpellsValue raw v) (hdepth : raw.length ≤ depth) :
    ∃ d, depth = d + 1 := by
  obtain ⟨c, cs, rfl, -⟩ := h.exists_cons
  rw [List.length_cons] at hdepth
  exact ⟨depth - 1, by omega⟩

/-- A value is no longer than its element. -/
theorem Element.length_raw_le (e : Element) : e.raw.length ≤ e.text.length := by
  rw [Element.text, List.length_append, List.length_append]
  omega

/-- A value is no longer than its entry. -/
theorem Entry.length_raw_le (e : Entry) : e.element.raw.length ≤ e.text.length := by
  have := e.element.length_raw_le
  simp only [Entry.text, List.length_append, List.length_cons]
  omega

/-- A value is read. The induction is on how it is spelled. -/
theorem readValue_spells (h : SpellsValue raw v) (hdepth : raw.length ≤ depth)
    (hrest : Stops rest) : readValue depth (raw ++ rest) = some (v, rest) := by
  induction h generalizing depth rest with
  | scalar h =>
    obtain ⟨d, rfl⟩ := (SpellsValue.scalar h).exists_depth hdepth
    exact readValue_scalar h hrest
  | array inner elements h ih =>
    obtain ⟨d, rfl⟩ := (SpellsValue.array inner elements h).exists_depth hdepth
    have hreads : ∀ e ∈ elements, ReadsValue (readValue d) e := by
      intro e he rest hrest
      have hle : e.text.length ≤ (listText inner (elements.map Element.text)).length :=
        length_le_listText (List.mem_map_of_mem he)
      have hraw := e.length_raw_le
      simp only [List.length_cons, List.length_append, List.length_nil] at hdepth
      exact ih e he (by omega) hrest
    have hitems : ReadsItems (readElement (readValue d)) ']' Element.text Element.value
        elements := fun e he rest hrest =>
      readElement_text (h e he) (hreads e he) (.inl rfl) hrest
    have hlist := readList_listText hitems (by decide) rfl
      (fun e he cs => expect_element (h e he) (.inl rfl) cs) inner rest
    rw [List.cons_append, List.append_assoc, readValue]
    exact congrArg (Option.map _) hlist
  | object inner entries h ih =>
    obtain ⟨d, rfl⟩ := (SpellsValue.object inner entries h).exists_depth hdepth
    have hreads : ∀ e ∈ entries, ReadsValue (readValue d) e.element := by
      intro e he rest hrest
      have hle : e.text.length ≤ (listText inner (entries.map Entry.text)).length :=
        length_le_listText (List.mem_map_of_mem he)
      have hraw := e.length_raw_le
      simp only [List.length_cons, List.length_append, List.length_nil] at hdepth
      exact ih e he (by omega) hrest
    have hitems : ReadsItems (readEntry (readValue d)) '}' Entry.text Entry.member
        entries := fun e he rest hrest =>
      readEntry_text (h e he) (hreads e he) (.inr rfl) hrest
    have hlist := readList_listText hitems (by decide) rfl
      (fun e _ cs => expect_entry e (.inr rfl) cs) inner rest
    rw [List.cons_append, List.append_assoc, readValue]
    exact congrArg (Option.map _) hlist

/-! ## Objects without white space -/

/-- A member as a writer prints it: its name, the text of its value, and what that is to be read
as. -/
structure Property where
  name : List Char
  raw : List Char
  value : Value

/-- The text of a member without white space. -/
def Property.text (p : Property) : List Char := '"' :: (p.name ++ '"' :: ':' :: p.raw)

/-- The name needs no escapes, and the value is spelled as JSON has it. -/
structure Property.Legal (p : Property) : Prop where
  name : p.name.all isPlain = true
  spells : SpellsValue p.raw p.value

/-- The member of a legal property. -/
def Property.entry (p : Property) (h : p.Legal) : Entry :=
  .tight (.plain p.name h.name) p.raw p.value

/-- A legal property is printed as an entry without white space. -/
theorem Property.text_entry (p : Property) (h : p.Legal) : (p.entry h).text = p.text := by
  simp [Entry.text, Property.entry, Entry.tight, Element.text, Element.tight, Gap.empty, Body.plain,
    Property.text]

/-- The entries of legal properties. -/
theorem exists_entries {ps : List Property} (h : ∀ p ∈ ps, p.Legal) :
    ∃ entries : List Entry, entries.map Entry.text = ps.map Property.text ∧
      entries.map Entry.member = ps.map (fun p => (p.name, p.value)) ∧
        ∀ e ∈ entries, SpellsValue e.element.raw e.element.value := by
  refine ⟨ps.pmap Property.entry h, ?_, ?_, ?_⟩
  · rw [List.map_pmap]
    simp only [Property.text_entry, List.pmap_eq_map]
  · rw [List.map_pmap, ← List.pmap_eq_map (p := Property.Legal) (H := h)]
    rfl
  · intro e he
    obtain ⟨p, hp, rfl⟩ := List.mem_pmap.1 he
    exact (h p hp).spells

/-- The text of an object without white space. -/
def printProperties (ps : List Property) : List Char :=
  '{' :: ([','].intercalate (ps.map Property.text) ++ ['}'])

/-- A list of texts is these with commas between them. -/
theorem listText_eq_intercalate (ts : List (List Char)) :
    listText .empty ts = [','].intercalate ts := by
  cases ts with
  | nil => rfl
  | cons t ts =>
    induction ts generalizing t with
    | nil => simp [listText]
    | cons u us ih =>
      have hus := ih u
      rw [listText] at hus
      rw [List.intercalate_cons_cons, ← hus, listText, List.flatMap_cons]
      simp

/-- Behind some texts there are the others, each with a comma. -/
theorem listText_append {ts : List (List Char)} (hne : ts ≠ []) (inner : Gap)
    (ts' : List (List Char)) :
    listText inner (ts ++ ts') = listText inner ts ++ ts'.flatMap fun t => ',' :: t := by
  obtain ⟨t, ts, rfl⟩ := List.exists_cons_of_ne_nil hne
  rw [List.cons_append, listText, listText, List.flatMap_append, List.append_assoc]

/-- A string that needs no escapes. -/
def Property.string (name : String) (s : List Char) : Property :=
  ⟨name.toList, '"' :: (s ++ ['"']), .text s⟩

/-- A string as it is spelled. -/
theorem spellsValue_body (body : Body) :
    SpellsValue ('"' :: (body.raw ++ ['"'])) (.text body.text) := .scalar (.string body)

/-- A plain name and a plain string make a legal property. -/
theorem Property.legal_string {name : String} {s : List Char}
    (hname : name.toList.all isPlain = true) (hs : s.all isPlain = true) :
    (Property.string name s).Legal := ⟨hname, spellsValue_body (.plain s hs)⟩

/-- Decimal digits are no float. -/
theorem isFloat_toDigits (n : ℕ) : isFloat (Nat.toDigits 10 n) = false := by
  have hdigit : ∀ c ∈ Nat.toDigits 10 n, c.isDigit = true := fun c hc => isDigit_toDigits hc
  rw [isFloat, Bool.or_eq_false_iff, List.any_eq_false, beq_eq_false_iff_ne]
  constructor
  · intro c hc hfloat
    rw [Bool.or_eq_true, Bool.or_eq_true, beq_iff_eq, beq_iff_eq, beq_iff_eq] at hfloat
    obtain (rfl | rfl) | rfl := hfloat <;> exact absurd (hdigit _ hc) (by decide)
  · intro hzero
    exact absurd (hdigit '-' (hzero ▸ List.mem_cons_self)) (by decide)

/-- The text of a number. -/
theorem spellsValue_nat (n : ℕ) :
    SpellsValue (Nat.toDigits 10 n) (.scalar (.number n)) := by
  have h := SpellsValue.scalar (.number (numberValue_nat n))
  rwa [Value.ofScalar, if_neg (by rw [isFloat_toDigits]; exact Bool.false_ne_true)] at h

/-- An array of strings without white space. -/
theorem spellsValue_texts (bodies : List Body) :
    SpellsValue ('[' :: ([','].intercalate (bodies.map fun b => '"' :: (b.raw ++ ['"'])) ++ [']']))
      (.array (bodies.map fun b => .text b.text)) := by
  have harray : SpellsValue _ _ := .array .empty
    (bodies.map fun b => Element.tight ('"' :: (b.raw ++ ['"'])) (.text b.text)) (by
      intro e he
      obtain ⟨b, -, rfl⟩ := List.mem_map.1 he
      exact spellsValue_body b)
  have htext : ∀ b : Body, (Element.tight ('"' :: (b.raw ++ ['"'])) (.text b.text)).text =
      '"' :: (b.raw ++ ['"']) := fun b => by simp [Element.text, Element.tight, Gap.empty]
  rw [List.map_map, List.map_map, listText_eq_intercalate] at harray
  simp only [Function.comp_def, htext] at harray
  exact harray

/-- An array of values without white space. -/
theorem spellsValue_tight (items : List (List Char × Value))
    (h : ∀ i ∈ items, SpellsValue i.1 i.2) :
    SpellsValue ('[' :: ([','].intercalate (items.map Prod.fst) ++ [']']))
      (.array (items.map Prod.snd)) := by
  have harray : SpellsValue _ _ := .array .empty (items.map fun i => .tight i.1 i.2) (by
    intro e he
    obtain ⟨i, hi, rfl⟩ := List.mem_map.1 he
    exact h i hi)
  have htext : ∀ i : List Char × Value, (Element.tight i.1 i.2).text = i.1 := fun i => by
    simp [Element.text, Element.tight, Gap.empty]
  rw [List.map_map, List.map_map, listText_eq_intercalate] at harray
  simp only [Function.comp_def, htext] at harray
  exact harray

/-- What is printed is a text of the object. -/
theorem spells_printProperties {ps : List Property} (h : ∀ p ∈ ps, p.Legal) :
    SpellsValue (printProperties ps) (.object (ps.map fun p => (p.name, p.value))) := by
  obtain ⟨entries, htext, hmember, hspells⟩ := exists_entries h
  rw [printProperties, ← listText_eq_intercalate, ← htext, ← hmember]
  exact .object .empty entries hspells

/-- A string is read up to its closing quote. -/
theorem readBody_of_readElement {text cs : List Char}
    (h : readElement (readValue depth) ('"' :: cs) = some (.text text, rest)) :
    ∃ rest, readBody ('"' :: cs).length cs = some (text, rest) := by
  have hskip : skipSpaces ('"' :: cs) = '"' :: cs := skipSpaces_cons (by decide)
  rw [readElement, hskip] at h
  obtain ⟨⟨value, rest'⟩, hread, hvalue⟩ := Option.map_eq_some_iff.1 h
  cases depth with
  | zero => cases hread
  | succ depth =>
    have hscalar : readValue (depth + 1) ('"' :: cs) =
        (readScalar ('"' :: cs)).map fun (s, rest) => (.ofScalar [] s, rest) := rfl
    rw [hscalar, readScalar, if_pos List.head?_cons, Option.map_map] at hread
    obtain ⟨⟨text', rest''⟩, hbody, hpair⟩ := Option.map_eq_some_iff.1 hread
    refine ⟨rest'', ?_⟩
    cases hpair
    cases hvalue
    exact hbody

/-- What is read of an object behind some members that are spelled as JSON has them. -/
theorem readRest_of_object {entries : List Entry} (hne : entries ≠ [])
    (hentries : ∀ e ∈ entries, SpellsValue e.element.raw e.element.value) {cs : List Char}
    {members : List (List Char × Value)}
    (hspells : SpellsValue ('{' :: (listText .empty (entries.map Entry.text) ++ ',' :: cs))
      (.object (entries.map Entry.member ++ members))) :
    ∃ depth fuel rest, readRest (readEntry (readValue depth)) '}' fuel (',' :: cs) =
      some (members, rest) := by
  have hstops : Stops [] := fun c hc => by cases hc
  have hread := readValue_spells hspells (Nat.le_refl _) hstops
  rw [List.append_nil, List.length_cons, readValue] at hread
  obtain ⟨⟨members', rest⟩, hlist, hpair⟩ := Option.map_eq_some_iff.1 hread
  cases hpair
  generalize hdepth : (listText .empty (entries.map Entry.text) ++ ',' :: cs).length = depth
    at hlist
  have hreads : ReadsItems (readEntry (readValue depth)) '}' Entry.text Entry.member entries := by
    intro e he rest hrest
    have hle : e.text.length ≤ (listText .empty (entries.map Entry.text)).length :=
      length_le_listText (List.mem_map_of_mem he)
    have hraw := e.length_raw_le
    rw [List.length_append] at hdepth
    exact readEntry_text (hentries e he)
      (fun _ => readValue_spells (hentries e he) (by omega)) (.inr rfl) hrest
  obtain ⟨e, entries, rfl⟩ := List.exists_cons_of_ne_nil hne
  obtain ⟨fuel, hcons⟩ := readList_cons hreads (by decide)
    (fun cs => expect_entry e (.inr rfl) cs) (⟨',', cs, rfl, .inl rfl⟩ : ClosesList '}' (',' :: cs))
  rw [List.map_cons, listText, List.append_assoc, List.flatMap_map, hcons] at hlist
  obtain ⟨⟨members', rest'⟩, hrest, hpair⟩ := Option.map_eq_some_iff.1 hlist
  obtain ⟨hmembers, rfl⟩ := Prod.mk.inj hpair
  rw [List.map_cons, List.cons_append, List.cons_inj_right, List.append_cancel_left_eq]
    at hmembers
  dsimp only at hmembers
  subst hmembers
  exact ⟨depth, fuel, _, hrest⟩

/-- An object that begins with some legal members and then has a string, maybe one that is spelled
wrongly: if the text is one of an object, a string is read there. -/
theorem readBody_of_printProperties {ps ps' : List Property} (hne : ps ≠ [])
    (h : ∀ p ∈ ps, p.Legal) {name : String} {s text : List Char}
    {members : List (List Char × Value)} (hname : name.toList.all isPlain = true)
    (hspells : SpellsValue (printProperties (ps ++ .string name s :: ps'))
      (.object (ps.map (fun p => (p.name, p.value)) ++ (name.toList, .text text) :: members))) :
    ∃ fuel cs rest, readBody fuel (s ++ '"' :: cs) = some (text, rest) := by
  have hprint : printProperties (ps ++ .string name s :: ps') =
      '{' :: (listText .empty (ps.map Property.text) ++ ',' :: '"' :: (name.toList ++ '"' :: ':' ::
        '"' :: (s ++ '"' :: ((ps'.map Property.text).flatMap (fun t => ',' :: t) ++ ['}'])))) := by
    rw [printProperties, ← listText_eq_intercalate, List.map_append, List.map_cons,
      listText_append (by simpa using hne)]
    simp [Property.text, Property.string]
  obtain ⟨entries, htext, hmember, hentries⟩ := exists_entries h
  have hentriesNe : entries ≠ [] := by
    rintro rfl
    exact hne (List.map_eq_nil_iff.1 htext.symm)
  rw [hprint, ← htext, ← hmember] at hspells
  obtain ⟨depth, fuel, rest, hrest⟩ := readRest_of_object hentriesNe hentries hspells
  obtain ⟨rest', hentry⟩ := read_of_readRest (by decide) hrest
  have hcolon : ∀ cs, readEntry (readValue depth) ('"' :: (name.toList ++ '"' :: ':' :: cs)) =
      (readElement (readValue depth) cs).map fun (value, cs) => ((name.toList, value), cs) :=
    fun cs => readEntry_name .empty .empty (.plain name.toList hname) cs
  rw [hcolon] at hentry
  obtain ⟨⟨value, rest''⟩, hread, hpair⟩ := Option.map_eq_some_iff.1 hentry
  cases hpair
  obtain ⟨rest, hbody⟩ := readBody_of_readElement hread
  exact ⟨_, _, rest, hbody⟩

end Launa.Json
