import Launa.Lib.TextSearch
import Mathlib.Algebra.Order.Ring.Rat
import Mathlib.Tactic.Common

/-!
# JSON texts of flat objects

A text of an object whose values are strings, numbers, flags and `null` is a `Layout`: its tokens as
they are spelled, and the white space between them. So every legal text of an object is one, and
each carries the proofs that its tokens are well formed. `decode` reads a text, and reads back the
object of every layout (`decode_text`), so that a text has one object only.
-/

namespace Launa.Json

open TextSearch

/-! ## White space -/

/-- JSON white space. -/
def isSpace (c : Char) : Bool := c == ' ' || c == '\t' || c == '\n' || c == '\r'

/-- The white space between two tokens. -/
structure Gap where
  text : List Char
  isSpace : ∀ c ∈ text, isSpace c = true

/-- No white space. -/
def Gap.empty : Gap := ⟨[], by simp⟩

/-! ## Strings -/

/-- The value of a hexadecimal digit. -/
def hexDigit (c : Char) : Option ℕ :=
  if '0' ≤ c ∧ c ≤ '9' then some (c.toNat - '0'.toNat)
  else if 'a' ≤ c ∧ c ≤ 'f' then some (c.toNat - 'a'.toNat + 10)
  else if 'A' ≤ c ∧ c ≤ 'F' then some (c.toNat - 'A'.toNat + 10)
  else none

/-- The number of four hexadecimal digits. -/
def hexValue : List Char → Option ℕ
  | [d3, d2, d1, d0] => do
    return (((← hexDigit d3) * 16 + (← hexDigit d2)) * 16 + (← hexDigit d1)) * 16 + (← hexDigit d0)
  | _ => none

/-- The character that a backslash and a letter stand for. -/
def simpleEscape (c : Char) : Option Char :=
  if c = '"' ∨ c = '\\' ∨ c = '/' then some c
  else if c = 'b' then some '\x08'
  else if c = 'f' then some '\x0c'
  else if c = 'n' then some '\n'
  else if c = 'r' then some '\r'
  else if c = 't' then some '\t'
  else none

/-- A number that is no surrogate, and so stands for a character alone. -/
def IsScalar (n : ℕ) : Prop := n < 0xD800 ∨ 0xE000 ≤ n

instance (n : ℕ) : Decidable (IsScalar n) := inferInstanceAs (Decidable (_ ∨ _))

/-- A high and a low surrogate. -/
def IsPair (high low : ℕ) : Prop :=
  0xD800 ≤ high ∧ high < 0xDC00 ∧ 0xDC00 ≤ low ∧ low < 0xE000

instance (high low : ℕ) : Decidable (IsPair high low) := inferInstanceAs (Decidable (_ ∧ _))

/-- The character of two surrogates. -/
def pairChar (high low : ℕ) : Char :=
  Char.ofNat (0x10000 + (high - 0xD800) * 0x400 + (low - 0xDC00))

/-- How a character may be spelled in a string. -/
inductive Spells : List Char → Char → Prop
  | plain {c : Char} (hcontrol : 0x20 ≤ c.toNat) (hquote : c ≠ '"') (hbackslash : c ≠ '\\') :
    Spells [c] c
  | simple {e c : Char} (h : simpleEscape e = some c) : Spells ['\\', e] c
  | unicode {ds : List Char} {n : ℕ} (h : hexValue ds = some n) (hscalar : IsScalar n) :
    Spells ('\\' :: 'u' :: ds) (Char.ofNat n)
  | pair {ds ds' : List Char} {high low : ℕ} (h : hexValue ds = some high)
    (h' : hexValue ds' = some low) (hpair : IsPair high low) :
    Spells ('\\' :: 'u' :: ds ++ '\\' :: 'u' :: ds') (pairChar high low)

/-- How a text may be spelled between the quotes of a string. -/
inductive SpellsText : List Char → List Char → Prop
  | nil : SpellsText [] []
  | cons {cs raw text : List Char} {c : Char} (hc : Spells cs c) (h : SpellsText raw text) :
    SpellsText (cs ++ raw) (c :: text)

/-- What stands between the quotes of a string. -/
structure Body where
  raw : List Char
  text : List Char
  spells : SpellsText raw text

/-- A character that is spelled as itself. -/
def isPlain (c : Char) : Bool := 0x20 ≤ c.toNat && c != '"' && c != '\\'

/-- Plain characters spell themselves. -/
theorem spellsText_self {text : List Char} (h : text.all isPlain = true) :
    SpellsText text text := by
  induction text with
  | nil => exact .nil
  | cons c text ih =>
    rw [List.all_cons, Bool.and_eq_true] at h
    have hc := h.1
    simp only [isPlain, Bool.and_eq_true, decide_eq_true_eq, bne_iff_ne] at hc
    exact .cons (.plain hc.1.1 hc.1.2 hc.2) (ih h.2)

/-- A text without escapes. -/
def Body.plain (text : List Char) (h : text.all isPlain = true) : Body :=
  ⟨text, text, spellsText_self h⟩

/-- The characters that `\u` and four digits, or two of these, stand for. -/
def readUnicode (cs : List Char) : Option (Char × List Char) := do
  let n ← hexValue (cs.take 4)
  let rest := cs.drop 4
  if IsScalar n then return (Char.ofNat n, rest)
  let low ← match rest with
    | '\\' :: 'u' :: ds => hexValue (ds.take 4)
    | _ => none
  if IsPair n low then return (pairChar n low, rest.drop 6) else none

/-- The first character of a string, and what follows it. -/
def readChar : List Char → Option (Char × List Char)
  | [] => none
  | '\\' :: rest =>
    match rest with
    | [] => none
    | 'u' :: rest => readUnicode rest
    | e :: rest => (simpleEscape e).map (·, rest)
  | c :: rest => if 0x20 ≤ c.toNat ∧ c ≠ '"' then some (c, rest) else none

/-- The text of a string up to its closing quote, and what follows that; at most `fuel` characters
are read. -/
def readBody : (fuel : ℕ) → List Char → Option (List Char × List Char)
  | _, '"' :: rest => some ([], rest)
  | 0, _ => none
  | fuel + 1, cs => do
    let (c, rest) ← readChar cs
    let (text, rest) ← readBody fuel rest
    return (c :: text, rest)

/-- The text that is spelled between quotes. -/
def unescape (raw : List Char) : Option (List Char) :=
  match readBody raw.length (raw ++ ['"']) with
  | some (text, []) => some text
  | _ => none

/-! ## Scalars -/

/-- The characters of a number. -/
def isNumberChar (c : Char) : Bool :=
  c.isDigit || c == '-' || c == '+' || c == '.' || c == 'e' || c == 'E'

/-- The number of some decimal digits. -/
def digitsValue (ds : List Char) : ℕ := Nat.ofDigitChars 10 ds 0

/-- The exponent of a number, after its `e`. -/
def exponentValue (cs : List Char) : Option ℤ :=
  let (negative, ds) := match cs with
    | '-' :: ds => (true, ds)
    | '+' :: ds => (false, ds)
    | ds => (false, ds)
  if ds.isEmpty || !ds.all Char.isDigit then none
  else some (if negative then -(digitsValue ds : ℤ) else digitsValue ds)

/-- A number without a sign: digits, of which only a single one may begin with zero, a point with
digits after it or none, and an exponent or none. -/
def unsignedValue (cs : List Char) : Option ℚ := do
  let whole := cs.takeWhile Char.isDigit
  if whole.isEmpty || (whole.head? == some '0' && 1 < whole.length) then none
  let (fraction, rest) ← match cs.dropWhile Char.isDigit with
    | '.' :: rest =>
      if (rest.takeWhile Char.isDigit).isEmpty then none
      else some (rest.takeWhile Char.isDigit, rest.dropWhile Char.isDigit)
    | rest => some ([], rest)
  let exponent ← match rest with
    | [] => some 0
    | c :: rest => if c = 'e' ∨ c = 'E' then exponentValue rest else none
  return digitsValue (whole ++ fraction) * (10 : ℚ)^(exponent - fraction.length)

/-- The value of a number. -/
def numberValue (cs : List Char) : Option ℚ :=
  if cs.all isNumberChar then
    match cs with
    | '-' :: rest => (unsignedValue rest).map Neg.neg
    | cs => unsignedValue cs
  else none

/-- A value that holds no others. -/
inductive Scalar where
  | string (text : List Char)
  | number (value : ℚ)
  | bool (b : Bool)
  | null
  deriving DecidableEq, Repr

/-- How a value may be spelled. -/
inductive SpellsScalar : List Char → Scalar → Prop
  | string (body : Body) : SpellsScalar ('"' :: body.raw ++ ['"']) (.string body.text)
  | number {raw : List Char} {value : ℚ} (h : numberValue raw = some value) :
    SpellsScalar raw (.number value)
  | isTrue : SpellsScalar "true".toList (.bool true)
  | isFalse : SpellsScalar "false".toList (.bool false)
  | isNull : SpellsScalar "null".toList .null

/-- A value as it is spelled. -/
structure Token where
  raw : List Char
  value : Scalar
  spells : SpellsScalar raw value

/-- A string. -/
def Token.string (body : Body) : Token := ⟨_, _, .string body⟩

/-- A number. -/
def Token.number {raw : List Char} {value : ℚ} (h : numberValue raw = some value) : Token :=
  ⟨raw, .number value, .number h⟩

/-- A value, and what follows it. -/
def readScalar (cs : List Char) : Option (Scalar × List Char) :=
  if cs.head? = some '"' then (readBody cs.length (cs.drop 1)).map fun (text, rest) =>
    (.string text, rest)
  else if "true".toList.isPrefixOf cs then some (.bool true, cs.drop 4)
  else if "false".toList.isPrefixOf cs then some (.bool false, cs.drop 5)
  else if "null".toList.isPrefixOf cs then some (.null, cs.drop 4)
  else (numberValue (cs.takeWhile isNumberChar)).map fun value =>
    (.number value, cs.dropWhile isNumberChar)

/-! ## Objects -/

/-- A member, with the white space around its tokens. -/
structure Member where
  beforeName : Gap
  name : Body
  beforeColon : Gap
  afterColon : Gap
  value : Token
  afterValue : Gap

/-- The text of a member. -/
def Member.text (m : Member) : List Char :=
  m.beforeName.text ++ '"' :: m.name.raw ++ '"' :: m.beforeColon.text ++ ':' :: m.afterColon.text ++
    m.value.raw ++ m.afterValue.text

/-- The name and the value of a member. -/
def Member.entry (m : Member) : List Char × Scalar := (m.name.text, m.value.value)

/-- The text of a member without white space. -/
def Member.tight (name : Body) (value : Token) : Member where
  beforeName := .empty
  name := name
  beforeColon := .empty
  afterColon := .empty
  value := value
  afterValue := .empty

/-- The members after the first one, each behind a comma. -/
def tailText (members : List Member) : List Char := members.flatMap fun m => ',' :: m.text

/-- A text of an object. `inner` is the white space of an object without members. -/
structure Layout where
  before : Gap
  members : List Member
  inner : Gap
  after : Gap

/-- The text between the braces. -/
def Layout.innerText (L : Layout) : List Char :=
  match L.members with
  | [] => L.inner.text
  | m :: ms => m.text ++ tailText ms

/-- The text. -/
def Layout.text (L : Layout) : List Char :=
  L.before.text ++ '{' :: L.innerText ++ '}' :: L.after.text

/-- The text of an object without white space. -/
def Layout.compact (members : List (Body × Token)) : Layout where
  before := .empty
  members := members.map fun m => .tight m.1 m.2
  inner := .empty
  after := .empty

/-- The object: its members' names and values, in order. -/
def Layout.object (L : Layout) : List (List Char × Scalar) := L.members.map Member.entry

/-- A text without its leading white space. -/
def skipSpaces (cs : List Char) : List Char := cs.dropWhile isSpace

/-- A text behind a character and the white space before it. -/
def expect (c : Char) (cs : List Char) : Option (List Char) :=
  match skipSpaces cs with
  | [] => none
  | d :: rest => if d = c then some rest else none

/-- A member, and what follows it. -/
def readMember (cs : List Char) : Option ((List Char × Scalar) × List Char) := do
  let cs ← expect '"' cs
  let (name, cs) ← readBody cs.length cs
  let cs ← expect ':' cs
  let (value, cs) ← readScalar (skipSpaces cs)
  return ((name, value), skipSpaces cs)

/-- The members after the first one up to the closing brace, and what follows that; at most `fuel`
members are read. -/
def readMembers : (fuel : ℕ) → List Char → Option (List (List Char × Scalar) × List Char)
  | _, '}' :: rest => some ([], rest)
  | fuel + 1, ',' :: rest => do
    let (entry, rest) ← readMember rest
    let (entries, rest) ← readMembers fuel rest
    return (entry :: entries, rest)
  | _, _ => none

/-- The members of an object and its closing brace, and what follows it. -/
def readEntries (cs : List Char) : Option (List (List Char × Scalar) × List Char) :=
  match expect '}' cs with
  | some rest => some ([], rest)
  | none => do
    let (entry, rest) ← readMember cs
    let (entries, rest) ← readMembers rest.length rest
    return (entry :: entries, rest)

/-- The members of the object that a text is of. -/
def decode (cs : List Char) : Option (List (List Char × Scalar)) := do
  let cs ← expect '{' cs
  let (entries, rest) ← readEntries cs
  if (skipSpaces rest).isEmpty then some entries else none

/-! ## What is read of a string -/

variable {c : Char} {cs ds raw text rest : List Char} {n fuel : ℕ} {value : Scalar}

/-- An escape has four hexadecimal digits. -/
theorem length_of_hexValue (h : hexValue ds = some n) : ds.length = 4 := by
  unfold hexValue at h
  split at h
  · rfl
  · cases h

/-- A hexadecimal digit needs no escape. -/
theorem hexDigit_printable {n : ℕ} (h : hexDigit c = some n) :
    0x20 ≤ c.toNat ∧ c ≠ '"' ∧ c ≠ '\\' := by
  refine ⟨?_, ?_, ?_⟩
  · unfold hexDigit at h
    split_ifs at h with hdigit hlower hupper
    · exact le_trans (by decide) (show '0'.toNat ≤ c.toNat from hdigit.1)
    · exact le_trans (by decide) (show 'a'.toNat ≤ c.toNat from hlower.1)
    · exact le_trans (by decide) (show 'A'.toNat ≤ c.toNat from hupper.1)
  · rintro rfl
    rw [show hexDigit '"' = none by decide] at h
    cases h
  · rintro rfl
    rw [show hexDigit '\\' = none by decide] at h
    cases h

/-- Hexadecimal digits are printable, and no quotes and no backslashes. -/
theorem isHexDigit_of_hexValue (h : hexValue ds = some n) :
    ∀ c ∈ ds, 0x20 ≤ c.toNat ∧ c ≠ '"' ∧ c ≠ '\\' := by
  unfold hexValue at h
  split at h
  · simp only [Option.pure_def, Option.bind_eq_bind, Option.bind_eq_some_iff] at h
    obtain ⟨n3, h3, n2, h2, n1, h1, n0, h0, -⟩ := h
    simp only [List.forall_mem_cons]
    exact ⟨hexDigit_printable h3, hexDigit_printable h2, hexDigit_printable h1,
      hexDigit_printable h0, by simp⟩
  · cases h

/-- The letter of an escape is printable. -/
theorem simpleEscape_printable {e : Char} (h : simpleEscape e = some c) : 0x20 ≤ e.toNat := by
  unfold simpleEscape at h
  split_ifs at h with hself hb hf hn hr ht
  · obtain rfl | rfl | rfl := hself <;> decide
  · rw [hb]
    decide
  · rw [hf]
    decide
  · rw [hn]
    decide
  · rw [hr]
    decide
  · rw [ht]
    decide

/-- A spelled character has no control characters. -/
theorem Spells.no_control (h : Spells cs c) : ∀ d ∈ cs, 0x20 ≤ d.toNat := by
  have hunicode : ∀ {ds : List Char} {n : ℕ}, hexValue ds = some n →
      ∀ d ∈ '\\' :: 'u' :: ds, 0x20 ≤ d.toNat := by
    intro ds n h
    rw [List.forall_mem_cons, List.forall_mem_cons]
    exact ⟨by decide, by decide, fun d hd => (isHexDigit_of_hexValue h d hd).1⟩
  cases h with
  | plain hcontrol hquote hbackslash =>
    intro d hd
    rwa [List.mem_singleton.1 hd]
  | simple h =>
    rw [List.forall_mem_cons, List.forall_mem_singleton]
    exact ⟨by decide, simpleEscape_printable h⟩
  | unicode h hscalar => exact hunicode h
  | pair h h' hpair => exact List.forall_mem_append.2 ⟨hunicode h, hunicode h'⟩

/-- A spelled text has no control characters. -/
theorem SpellsText.no_control (h : SpellsText raw text) : ∀ d ∈ raw, 0x20 ≤ d.toNat := by
  induction h with
  | nil => simp
  | cons hc h ih => exact List.forall_mem_append.2 ⟨hc.no_control, ih⟩

/-- A spelled character begins with no quote. -/
theorem Spells.head?_ne (h : Spells cs c) : ∃ d ds, cs = d :: ds ∧ d ≠ '"' := by
  cases h with
  | plain hcontrol hquote hbackslash => exact ⟨c, [], rfl, hquote⟩
  | simple h => exact ⟨'\\', _, rfl, by decide⟩
  | unicode h hscalar => exact ⟨'\\', _, rfl, by decide⟩
  | pair h h' hpair => exact ⟨'\\', _, rfl, by decide⟩

/-- A spelled character is read. -/
theorem readChar_spells (h : Spells cs c) : readChar (cs ++ rest) = some (c, rest) := by
  cases h with
  | plain hcontrol hquote hbackslash => simp [readChar, hcontrol, hquote]
  | @simple e c h =>
    have he : e ≠ 'u' := by
      rintro rfl
      rw [show simpleEscape 'u' = none by decide] at h
      cases h
    simp [readChar, h]
  | @unicode ds n h hscalar =>
    have hlength := length_of_hexValue h
    simp [readChar, readUnicode, hlength, h, hscalar]
  | @pair ds ds' high low h h' hpair =>
    have hlength := length_of_hexValue h
    have hlength' := length_of_hexValue h'
    have hscalar : ¬IsScalar high := by
      have := hpair.1
      have := hpair.2.1
      unfold IsScalar
      omega
    simp [readChar, readUnicode, hlength, hlength', h, h', hscalar, hpair]

/-- A closing quote ends a body. -/
theorem readBody_quote : readBody fuel ('"' :: rest) = some ([], rest) := by
  cases fuel <;> rfl

/-- A body is read a character at a time. -/
theorem readBody_succ (hc : c ≠ '"') :
    readBody (fuel + 1) (c :: cs) = do
      let (c, rest) ← readChar (c :: cs)
      let (text, rest) ← readBody fuel rest
      return (c :: text, rest) := by
  rw [readBody]
  exact fun _ h => hc (List.cons.inj h).1

/-- A spelled text is read up to its closing quote. -/
theorem readBody_spells (h : SpellsText raw text) (hfuel : text.length ≤ fuel) :
    readBody fuel (raw ++ '"' :: rest) = some (text, rest) := by
  induction h generalizing fuel with
  | nil => exact readBody_quote
  | @cons cs raw text c hc h ih =>
    obtain ⟨fuel, rfl⟩ : ∃ n, fuel = n + 1 := ⟨fuel - 1, by simp at hfuel; omega⟩
    obtain ⟨d, ds, rfl, hd⟩ := hc.head?_ne
    have hread : readChar (d :: ds ++ (raw ++ '"' :: rest)) = some (c, raw ++ '"' :: rest) :=
      readChar_spells hc
    rw [List.append_assoc, List.cons_append, readBody_succ hd, ← List.cons_append, hread]
    have hlength : text.length ≤ fuel := by simpa using hfuel
    simp [ih hlength]

/-- A text is no longer than its spelling. -/
theorem SpellsText.length_le (h : SpellsText raw text) : text.length ≤ raw.length := by
  induction h with
  | nil => rfl
  | cons hc h ih =>
    obtain ⟨d, ds, rfl, -⟩ := hc.head?_ne
    simp only [List.length_append, List.length_cons]
    omega

/-- A spelled text is unescaped. -/
theorem unescape_spells (h : SpellsText raw text) : unescape raw = some text := by
  rw [unescape, readBody_spells h h.length_le]

/-- Digits that are read are the beginning of the text. -/
theorem take_append_drop_of_hexValue (h : hexValue (cs.take 4) = some n) :
    ∃ ds, hexValue ds = some n ∧ cs = ds ++ cs.drop 4 :=
  ⟨cs.take 4, h, (List.take_append_drop 4 cs).symm⟩

/-- What is read behind `\u` is spelled by what was consumed. -/
theorem spells_of_readUnicode (h : readUnicode cs = some (c, rest)) :
    ∃ raw, Spells raw c ∧ '\\' :: 'u' :: cs = raw ++ rest := by
  rw [readUnicode, Option.bind_eq_bind, Option.bind_eq_some_iff] at h
  obtain ⟨n, hn, h⟩ := h
  obtain ⟨ds, hds, hcs⟩ := take_append_drop_of_hexValue hn
  split_ifs at h with hscalar
  · cases h
    exact ⟨_, .unicode hds hscalar, congrArg (fun cs => '\\' :: 'u' :: cs) hcs⟩
  · dsimp only at h
    split at h
    · rename_i ds' hdrop
      obtain ⟨low, hlow, h⟩ := Option.bind_eq_some_iff.1 h
      obtain ⟨ds'', hds'', hcs'⟩ := take_append_drop_of_hexValue hlow
      split_ifs at h with hpair
      obtain ⟨rfl, rfl⟩ := Prod.mk.inj (Option.some.inj h)
      have hrest : (cs.drop 4).drop 6 = ds'.drop 4 := by
        rw [hdrop]
        rfl
      refine ⟨_, .pair hds hds'' hpair, ?_⟩
      rw [hrest]
      calc '\\' :: 'u' :: cs = '\\' :: 'u' :: (ds ++ '\\' :: 'u' :: ds') := by rw [← hdrop, ← hcs]
        _ = '\\' :: 'u' :: (ds ++ '\\' :: 'u' :: (ds'' ++ ds'.drop 4)) := by rw [← hcs']
        _ = _ := by rw [List.append_assoc, List.cons_append, List.cons_append]; rfl
    · cases h

/-- A character that is read is spelled. -/
theorem spells_of_readChar (h : readChar cs = some (c, rest)) :
    ∃ raw, Spells raw c ∧ cs = raw ++ rest := by
  unfold readChar at h
  split at h
  · cases h
  · split at h
    · cases h
    · exact spells_of_readUnicode h
    · rename_i e rest' hne
      obtain ⟨c', hc', hpair⟩ := Option.map_eq_some_iff.1 h
      cases hpair
      exact ⟨_, .simple hc', rfl⟩
  · rename_i c' rest' hne
    split_ifs at h with hc
    cases h
    refine ⟨[c], .plain hc.1 hc.2 ?_, rfl⟩
    rintro rfl
    exact hne rfl

/-- A text that is read up to a quote is spelled. -/
theorem spells_of_readBody (h : readBody fuel cs = some (text, rest)) :
    ∃ raw, SpellsText raw text ∧ cs = raw ++ '"' :: rest := by
  induction fuel generalizing cs text rest with
  | zero =>
    unfold readBody at h
    split at h
    · cases h
      exact ⟨[], .nil, rfl⟩
    · cases h
    · contradiction
  | succ fuel ih =>
    unfold readBody at h
    split at h
    · cases h
      exact ⟨[], .nil, rfl⟩
    · contradiction
    · rename_i hfuel hquote
      cases hfuel
      simp only [Option.bind_eq_bind, Option.bind_eq_some_iff] at h
      obtain ⟨⟨c, cs'⟩, hread, ⟨text', cs''⟩, hbody, hpair⟩ := h
      obtain ⟨raw, hraw, rfl⟩ := spells_of_readChar hread
      obtain ⟨raw', hraw', rfl⟩ := ih hbody
      cases hpair
      exact ⟨raw ++ raw', .cons hraw hraw', (List.append_assoc _ _ _).symm⟩

/-- A text that is unescaped is spelled. -/
theorem spells_of_unescape (h : unescape raw = some text) : SpellsText raw text := by
  unfold unescape at h
  split at h
  · rename_i hbody
    cases h
    obtain ⟨raw', hraw', hsplit⟩ := spells_of_readBody hbody
    rwa [List.append_cancel_right hsplit]
  · cases h

/-- A quote is spelled behind a backslash. -/
theorem Spells.eq_of_quote_mem (h : Spells cs c) (hquote : '"' ∈ cs) : cs = ['\\', '"'] := by
  have hunicode : ∀ {ds : List Char} {n : ℕ}, hexValue ds = some n → '"' ∉ '\\' :: 'u' :: ds := by
    intro ds n h hmem
    rw [List.mem_cons, List.mem_cons] at hmem
    rcases hmem with hmem | hmem | hmem
    · exact absurd hmem (by decide)
    · exact absurd hmem (by decide)
    · exact (isHexDigit_of_hexValue h _ hmem).2.1 rfl
  cases h with
  | plain hcontrol hne hbackslash => exact absurd (List.mem_singleton.1 hquote).symm hne
  | simple h =>
    rw [List.mem_cons, List.mem_singleton] at hquote
    rcases hquote with hquote | hquote
    · exact absurd hquote (by decide)
    · rw [← hquote]
  | unicode h hscalar => exact absurd hquote (hunicode h)
  | pair h h' hpair =>
    rcases List.mem_append.1 hquote with hquote | hquote
    · exact absurd hquote (hunicode h)
    · exact absurd hquote (hunicode h')

/-- A quote in a spelled text is behind a backslash. -/
theorem SpellsText.getLast?_of_quote (h : SpellsText raw text) {u v : List Char}
    (hraw : raw = u ++ '"' :: v) : u.getLast? = some '\\' := by
  induction h generalizing u with
  | nil => exact absurd hraw.symm (List.append_ne_nil_of_right_ne_nil _ (List.cons_ne_nil _ _))
  | @cons cs raw text c hc h ih =>
    rcases List.append_eq_append_iff.1 hraw with ⟨u', rfl, hraw'⟩ | ⟨v', hcs, hraw'⟩
    · have hlast := ih hraw'
      rw [List.getLast?_append, hlast]
      rfl
    · cases v' with
      | nil =>
        have hlast := ih (u := []) hraw'.symm
        cases hlast
      -- The quote is in the spelling of this character.
      | cons d v' =>
        obtain ⟨rfl, -⟩ := List.cons.inj hraw'
        have hmem : '"' ∈ cs := by
          rw [hcs]
          exact List.mem_append_right _ List.mem_cons_self
        rw [hc.eq_of_quote_mem hmem] at hcs
        match u, hcs with
        | [], hcs => exact absurd (List.cons.inj hcs).1 (by decide)
        | [d], hcs => rw [← (List.cons.inj hcs).1]; rfl
        | d :: e :: u, hcs =>
          have := congrArg List.length hcs
          simp at this

/-- A text that is spelled in no more characters than it has is spelled as itself. -/
theorem SpellsText.all_isPlain (h : SpellsText raw text) (hlength : raw.length ≤ text.length) :
    text.all isPlain = true := by
  induction h with
  | nil => rfl
  | @cons cs raw text c hc h ih =>
    obtain ⟨d, ds, rfl, -⟩ := hc.head?_ne
    have hle := h.length_le
    simp only [List.length_append, List.length_cons] at hlength
    have hds : ds = [] := List.eq_nil_of_length_eq_zero (by omega)
    subst hds
    rw [List.all_cons, ih (by omega), Bool.and_true]
    cases hc with
    | plain hcontrol hquote hbackslash => simp [isPlain, hcontrol, hquote, hbackslash]

/-- A text that is read up to the quote behind it, and does not end with a backslash, has no
escapes. -/
theorem all_isPlain_of_readBody (h : readBody fuel (text ++ '"' :: cs) = some (text, rest))
    (hlast : text.getLast? ≠ some '\\') : text.all isPlain = true := by
  obtain ⟨raw, hraw, hsplit⟩ := spells_of_readBody h
  rcases List.append_eq_append_iff.1 hsplit with ⟨v, rfl, hv⟩ | ⟨v, hv, -⟩
  · cases v with
    | nil => exact hraw.all_isPlain (by rw [List.append_nil])
    | cons d v =>
      obtain ⟨rfl, -⟩ := List.cons.inj hv
      exact absurd (hraw.getLast?_of_quote rfl) hlast
  · refine hraw.all_isPlain ?_
    rw [hv, List.length_append]
    exact Nat.le_add_right _ _

/-! ## What is read of a value -/

/-- A text behind a value, or behind the white space after it. -/
def Ends (rest : List Char) : Prop :=
  ∀ c ∈ rest.head?, isSpace c = true ∨ c = ',' ∨ c = '}'

/-- What ends a value does not continue a number. -/
theorem Ends.isNumberChar (h : Ends rest) : ∀ c ∈ rest.head?, isNumberChar c = false := by
  intro c hc
  obtain hspace | rfl | rfl := h c hc
  · simp only [isSpace, Bool.or_eq_true, beq_iff_eq] at hspace
    obtain ((rfl | rfl) | rfl) | rfl := hspace <;> decide
  · decide
  · decide

/-- A number has number characters only, and at least one. -/
theorem numberValue_chars {q : ℚ} (h : numberValue raw = some q) :
    raw ≠ [] ∧ ∀ c ∈ raw, Json.isNumberChar c = true := by
  unfold numberValue at h
  split at h
  · rename_i hall
    refine ⟨?_, fun c hc => List.all_eq_true.1 hall c hc⟩
    rintro rfl
    cases h
  · cases h

/-- A number begins with a character of numbers. -/
theorem exists_cons_of_numberValue {q : ℚ} (h : numberValue raw = some q) :
    ∃ c cs, raw = c :: cs ∧ Json.isNumberChar c = true := by
  obtain ⟨hne, hchars⟩ := numberValue_chars h
  obtain ⟨c, cs, rfl⟩ := List.exists_cons_of_ne_nil hne
  exact ⟨c, cs, rfl, hchars c List.mem_cons_self⟩

/-- A character of numbers is none of the others. -/
theorem ne_of_isNumberChar {d : Char} (hc : Json.isNumberChar c = true)
    (hd : Json.isNumberChar d = false) : d ≠ c := by
  rintro rfl
  rw [hc] at hd
  cases hd

/-- A value begins with a quote, a letter or a character of a number. -/
theorem SpellsScalar.head? (h : SpellsScalar raw value) : ∃ c cs, raw = c :: cs ∧
    (c = '"' ∨ c = 't' ∨ c = 'f' ∨ c = 'n' ∨ isNumberChar c = true) := by
  cases h with
  | string body => exact ⟨'"', _, rfl, .inl rfl⟩
  | number h =>
    obtain ⟨c, cs, rfl, hc⟩ := exists_cons_of_numberValue h
    exact ⟨c, cs, rfl, .inr (.inr (.inr (.inr hc)))⟩
  | isTrue => exact ⟨'t', _, rfl, .inr (.inl rfl)⟩
  | isFalse => exact ⟨'f', _, rfl, .inr (.inr (.inl rfl))⟩
  | isNull => exact ⟨'n', _, rfl, .inr (.inr (.inr (.inl rfl)))⟩

/-- A value is read, if no character behind it is one of a number. -/
theorem readScalar_of_stop (h : SpellsScalar raw value)
    (hrest : ∀ c ∈ rest.head?, isNumberChar c = false) :
    readScalar (raw ++ rest) = some (value, rest) := by
  cases h with
  | string body =>
    have hfuel : body.text.length ≤ ('"' :: body.raw ++ ['"'] ++ rest).length := by
      have := body.spells.length_le
      simp only [List.length_append, List.length_cons]
      omega
    have hdrop : ('"' :: body.raw ++ ['"'] ++ rest).drop 1 = body.raw ++ '"' :: rest := by simp
    have hhead : ('"' :: body.raw ++ ['"'] ++ rest).head? = some '"' := rfl
    rw [readScalar, if_pos hhead, hdrop, readBody_spells body.spells hfuel]
    rfl
  | number h =>
    have hchars := (numberValue_chars h).2
    obtain ⟨c, cs, rfl, hc⟩ := exists_cons_of_numberValue h
    have hquote : c ≠ '"' := (ne_of_isNumberChar hc (by decide)).symm
    have ht : 't' ≠ c := ne_of_isNumberChar hc (by decide)
    have hf : 'f' ≠ c := ne_of_isNumberChar hc (by decide)
    have hn : 'n' ≠ c := ne_of_isNumberChar hc (by decide)
    rw [readScalar, takeWhile_append_of_stop hchars hrest,
      dropWhile_append_of_stop hchars hrest, h]
    simp [hquote, ht, hf, hn]
  | isTrue => rfl
  | isFalse => rfl
  | isNull => rfl

/-- A value in an object is read. -/
theorem readScalar_spells (h : SpellsScalar raw value) (hrest : Ends rest) :
    readScalar (raw ++ rest) = some (value, rest) := readScalar_of_stop h hrest.isNumberChar

/-! ## What is read of an object -/

/-- A scalar does not begin with white space. -/
theorem isSpace_false_of_head (h : SpellsScalar raw value) :
    ∃ c cs, raw = c :: cs ∧ isSpace c = false := by
  obtain ⟨c, cs, hraw, hc⟩ := h.head?
  refine ⟨c, cs, hraw, ?_⟩
  rw [Bool.eq_false_iff]
  intro hspace
  simp only [isSpace, Bool.or_eq_true, beq_iff_eq] at hspace
  obtain ((rfl | rfl) | rfl) | rfl := hspace <;> exact absurd hc (by decide)

/-- The white space of a gap is skipped. -/
@[simp]
theorem skipSpaces_gap (gap : Gap) : skipSpaces (gap.text ++ rest) = skipSpaces rest :=
  List.dropWhile_append_of_pos gap.isSpace

/-- Nothing is skipped in front of another character. -/
theorem skipSpaces_cons (hc : isSpace c = false) : skipSpaces (c :: cs) = c :: cs := by
  simp [skipSpaces, hc]

/-- White space may precede a token. -/
@[simp]
theorem expect_gap (gap : Gap) : expect c (gap.text ++ rest) = expect c rest := by
  rw [expect, skipSpaces_gap, ← expect]

/-- A token is found where it stands. -/
theorem expect_cons (hc : isSpace c = false) : expect c (c :: rest) = some rest := by
  simp [expect, skipSpaces_cons hc]

/-- Another character is not taken for the token. -/
theorem expect_cons_of_ne {d : Char} (hd : isSpace d = false) (hne : d ≠ c) :
    expect c (d :: rest) = none := by
  simp [expect, skipSpaces_cons hd, hne]

/-- A text behind a member: it begins with a comma or the closing brace. -/
def Closes (rest : List Char) : Prop := ∃ c cs, rest = c :: cs ∧ (c = ',' ∨ c = '}')

/-- What closes a member ends its value, also behind white space. -/
theorem Closes.ends (h : Closes rest) (gap : Gap) : Ends (gap.text ++ rest) := by
  obtain ⟨c, cs, rfl, hc⟩ := h
  intro d hd
  cases hgap : gap.text with
  | nil =>
    rw [hgap, List.nil_append] at hd
    cases hd
    exact .inr hc
  | cons e es =>
    rw [hgap] at hd
    cases hd
    exact .inl (gap.isSpace d (by rw [hgap]; exact List.mem_cons_self))

/-- What closes a member does not begin with white space. -/
theorem Closes.skipSpaces (h : Closes rest) : skipSpaces rest = rest := by
  obtain ⟨c, cs, rfl, rfl | rfl⟩ := h <;> exact skipSpaces_cons (by decide)

/-- Each further member stands behind a comma. -/
theorem tailText_cons (m : Member) (ms : List Member) :
    tailText (m :: ms) = ',' :: (m.text ++ tailText ms) := rfl

/-- A member is closed by a comma or by the brace. -/
theorem closes_tailText (ms : List Member) (cs : List Char) :
    Closes (tailText ms ++ '}' :: cs) := by
  cases ms with
  | nil => exact ⟨'}', cs, rfl, .inr rfl⟩
  | cons m ms => exact ⟨',', _, rfl, .inl rfl⟩

/-- A member is read. -/
theorem readMember_text (m : Member) (hrest : Closes rest) :
    readMember (m.text ++ rest) = some (m.entry, rest) := by
  have hlength := m.name.spells.length_le
  obtain ⟨c, cs, hraw, hc⟩ := isSpace_false_of_head m.value.spells
  have hvalue : skipSpaces (m.value.raw ++ (m.afterValue.text ++ rest)) =
      m.value.raw ++ (m.afterValue.text ++ rest) := by
    rw [hraw]
    exact skipSpaces_cons hc
  have hname : ∀ cs : List Char,
      readBody (m.name.raw ++ '"' :: cs).length (m.name.raw ++ '"' :: cs) =
        some (m.name.text, cs) := by
    intro cs
    apply readBody_spells m.name.spells
    rw [List.length_append]
    omega
  have hquote : ∀ cs, expect '"' ('"' :: cs) = some cs := fun cs => expect_cons (by decide)
  have hcolon : ∀ cs, expect ':' (':' :: cs) = some cs := fun cs => expect_cons (by decide)
  simp only [readMember, Member.text, List.append_assoc, List.cons_append, expect_gap, hquote,
    hcolon, hname, skipSpaces_gap, hvalue, readScalar_spells m.value.spells (hrest.ends _),
    hrest.skipSpaces, Option.bind_eq_bind, Option.bind_some, Option.pure_def, Member.entry]

/-- The members behind the first one are read back. -/
theorem readMembers_tailText (ms : List Member) (hfuel : ms.length ≤ fuel) :
    readMembers fuel (tailText ms ++ '}' :: rest) = some (ms.map Member.entry, rest) := by
  induction ms generalizing fuel with
  | nil => cases fuel <;> rfl
  | cons m ms ih =>
    obtain ⟨fuel, rfl⟩ : ∃ n, fuel = n + 1 := ⟨fuel - 1, by simp at hfuel; omega⟩
    have hms : ms.length ≤ fuel := by simpa using hfuel
    have hmember := readMember_text m (closes_tailText ms rest)
    show (do
      let (entry, rest) ← readMember (m.text ++ tailText ms ++ '}' :: rest)
      let (entries, rest) ← readMembers fuel rest
      return (entry :: entries, rest)) = _
    rw [List.append_assoc, hmember]
    simp [ih hms]

/-- Each member takes a character at least. -/
theorem length_le_tailText (ms : List Member) : ms.length ≤ (tailText ms).length := by
  induction ms with
  | nil => rfl
  | cons m ms ih =>
    rw [tailText_cons]
    simp only [List.length_append, List.length_cons]
    omega

/-- A text without members has the closing brace, and one with a member does not, where the first
member begins. -/
theorem expect_innerText (L : Layout) (cs : List Char) :
    expect '}' (L.innerText ++ '}' :: cs) = if L.members = [] then some cs else none := by
  unfold Layout.innerText
  cases L.members with
  | nil => rw [if_pos rfl, expect_gap, expect_cons (by decide)]
  | cons m ms =>
    simp only [Member.text, List.append_assoc, List.cons_append, expect_gap]
    rw [expect_cons_of_ne (by decide) (by decide), if_neg (List.cons_ne_nil m ms)]

/-- The inside of an object is read back. -/
theorem readEntries_innerText (L : Layout) (cs : List Char) :
    readEntries (L.innerText ++ '}' :: cs) = some (L.object, cs) := by
  have hclose := expect_innerText L cs
  unfold readEntries Layout.object
  unfold Layout.innerText at hclose ⊢
  cases hmembers : L.members with
  | nil =>
    rw [hmembers] at hclose
    rw [hclose, if_pos rfl]
    rfl
  | cons m ms =>
    rw [hmembers, if_neg (List.cons_ne_nil m ms)] at hclose
    have hfuel : ms.length ≤ (tailText ms ++ '}' :: cs).length := by
      have := length_le_tailText ms
      rw [List.length_append]
      omega
    rw [hclose]
    simp only [List.append_assoc, readMember_text m (closes_tailText ms cs), Option.bind_eq_bind,
      Option.bind_some, readMembers_tailText ms hfuel, Option.pure_def, List.map_cons]

/-- The object is read back from its text. -/
theorem decode_text (L : Layout) : decode L.text = some L.object := by
  have hend : skipSpaces L.after.text = [] := by
    have hgap : skipSpaces (L.after.text ++ []) = skipSpaces [] := skipSpaces_gap L.after
    rwa [List.append_nil] at hgap
  rw [decode, Layout.text, List.append_assoc, expect_gap, List.cons_append,
    expect_cons (by decide), Option.bind_eq_bind, Option.bind_some, readEntries_innerText,
    Option.bind_eq_bind, Option.bind_some]
  exact if_pos (by rw [hend]; rfl)

end Launa.Json
