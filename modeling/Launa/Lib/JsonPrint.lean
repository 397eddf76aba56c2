import Launa.Lib.Json
import Mathlib.Tactic.Ring

/-!
# Printing JSON objects

A writer that puts an object together from names, values and separators gives a legal text of it,
if its names need no escapes and every value is spelled as JSON has it (`exists_layout`). Integers
in decimal are (`numberValue_int`).
-/

namespace Launa.Json

open TextSearch

/-! ## Numbers -/

variable {n : ℕ}

/-- The decimal digits of a number are digits. -/
theorem isDigit_toDigits {c : Char} (hc : c ∈ Nat.toDigits 10 n) : c.isDigit = true :=
  Nat.isDigit_of_mem_toDigits (by decide) (by decide) hc

/-- A digit is a character of numbers. -/
theorem isNumberChar_of_isDigit {c : Char} (hc : c.isDigit = true) : isNumberChar c = true := by
  simp [isNumberChar, hc]

/-- Only zero begins with a zero. -/
theorem eq_zero_of_head?_toDigits (h : (Nat.toDigits 10 n).head? = some '0') : n = 0 := by
  induction n using Nat.strongRecOn with
  | _ n ih =>
    by_cases hlt : n < 10
    · have hdigit : ∀ d : Fin 10, [Nat.digitChar d].head? = some '0' → d.val = 0 := by decide
      rw [Nat.toDigits_of_lt_base hlt] at h
      exact hdigit ⟨n, hlt⟩ h
    · obtain ⟨d, ds, hdigits⟩ :=
        List.exists_cons_of_ne_nil (Nat.toDigits_ne_nil : Nat.toDigits 10 (n / 10) ≠ [])
      rw [Nat.toDigits_of_base_le (by decide) (not_lt.1 hlt), hdigits, List.cons_append] at h
      have hzero := ih (n / 10) (by omega) (by rw [hdigits]; exact h)
      omega

/-- The digits of a number are a legal whole part. -/
theorem whole_toDigits (n : ℕ) : ((Nat.toDigits 10 n).isEmpty ||
    ((Nat.toDigits 10 n).head? == some '0' &&
      decide (1 < (Nat.toDigits 10 n).length))) = false := by
  rw [Bool.or_eq_false_iff, Bool.and_eq_false_imp]
  refine ⟨by simp [Nat.toDigits_ne_nil], fun hhead => ?_⟩
  have hzero := eq_zero_of_head?_toDigits (beq_iff_eq.1 hhead)
  subst hzero
  rfl

/-- A natural number in decimal. -/
theorem unsignedValue_toDigits (n : ℕ) : unsignedValue (Nat.toDigits 10 n) = some (n : ℚ) := by
  have hall : ∀ c ∈ Nat.toDigits 10 n, c.isDigit = true := fun c hc => isDigit_toDigits hc
  have hwhole : (Nat.toDigits 10 n).takeWhile Char.isDigit = Nat.toDigits 10 n :=
    List.takeWhile_eq_self_iff.2 hall
  have hrest : (Nat.toDigits 10 n).dropWhile Char.isDigit = [] := List.dropWhile_eq_nil_iff.2 hall
  unfold unsignedValue
  simp only [hwhole, hrest, whole_toDigits]
  simp [digitsValue]

/-- A number with one decimal place. -/
theorem unsignedValue_tenths (n : ℕ) {d : Char} (hd : d.isDigit = true) :
    unsignedValue (Nat.toDigits 10 n ++ ['.', d]) =
      some (n + ((d.toNat - '0'.toNat : ℕ) : ℚ) / 10) := by
  have hall : ∀ c ∈ Nat.toDigits 10 n, c.isDigit = true := fun c hc => isDigit_toDigits hc
  have hstop : ∀ c ∈ ['.', d].head?, c.isDigit = false := by
    rintro c ⟨⟩
    rfl
  unfold unsignedValue
  simp only [takeWhile_append_of_stop hall hstop, dropWhile_append_of_stop hall hstop,
    whole_toDigits]
  simp [digitsValue, hd, Nat.ofDigitChars_append, Nat.ofDigitChars_cons]
  ring

/-- A number that begins with a digit has no sign. -/
theorem numberValue_eq {cs : List Char} (hhead : ∀ c ∈ cs.head?, c.isDigit = true)
    (hall : cs.all isNumberChar = true) : numberValue cs = unsignedValue cs := by
  unfold numberValue
  rw [if_pos hall]
  split
  · exact absurd (hhead '-' rfl) (by decide)
  · rfl

/-- What begins with a number begins with a digit. -/
theorem head?_toDigits_append (n : ℕ) (cs : List Char) :
    ∀ c ∈ (Nat.toDigits 10 n ++ cs).head?, c.isDigit = true := by
  obtain ⟨d, ds, hdigits⟩ :=
    List.exists_cons_of_ne_nil (Nat.toDigits_ne_nil : Nat.toDigits 10 n ≠ [])
  intro c hc
  rw [hdigits] at hc
  cases hc
  exact isDigit_toDigits (n := n) (by rw [hdigits]; exact List.mem_cons_self)

/-- A number is spelled in characters of numbers. -/
theorem all_isNumberChar_toDigits (n : ℕ) : (Nat.toDigits 10 n).all isNumberChar = true :=
  List.all_eq_true.2 fun _ hc => isNumberChar_of_isDigit (isDigit_toDigits hc)

/-- A natural number is read. -/
theorem numberValue_nat (n : ℕ) : numberValue (Nat.toDigits 10 n) = some (n : ℚ) := by
  have hhead := head?_toDigits_append n []
  rw [List.append_nil] at hhead
  rw [numberValue_eq hhead (all_isNumberChar_toDigits n), unsignedValue_toDigits]

/-- A number with one decimal place is read. -/
theorem numberValue_tenths (n : ℕ) {d : Char} (hd : d.isDigit = true) :
    numberValue (Nat.toDigits 10 n ++ ['.', d]) =
      some (n + ((d.toNat - '0'.toNat : ℕ) : ℚ) / 10) := by
  have hall : (Nat.toDigits 10 n ++ ['.', d]).all isNumberChar = true := by
    rw [List.all_append, all_isNumberChar_toDigits]
    simp [isNumberChar_of_isDigit hd, show isNumberChar '.' = true by decide]
  rw [numberValue_eq (head?_toDigits_append n _) hall, unsignedValue_tenths n hd]

/-- An integer is read. -/
theorem numberValue_int (i : ℤ) : numberValue (toString i).toList = some (i : ℚ) := by
  rw [Int.toString_eq_repr, Int.repr_eq_if]
  split
  · rename_i hi
    have hcast : ((i.toNat : ℕ) : ℚ) = i := by exact_mod_cast Int.toNat_of_nonneg hi
    rw [Nat.toList_repr, numberValue_nat, hcast]
  · rename_i hi
    have hcast : -((-i).toNat : ℚ) = i := by
      have := Int.toNat_of_nonneg (show 0 ≤ -i by omega)
      have hcast : (((-i).toNat : ℤ) : ℚ) = ((-i : ℤ) : ℚ) := by rw [this]
      rw [Int.cast_neg, Int.cast_natCast] at hcast
      rw [hcast, neg_neg]
    have htext : ("-" ++ (-i).toNat.repr).toList = '-' :: Nat.toDigits 10 (-i).toNat := by
      rw [String.toList_append, Nat.toList_repr]
      rfl
    have hall : ('-' :: Nat.toDigits 10 (-i).toNat).all isNumberChar = true := by
      rw [List.all_cons, all_isNumberChar_toDigits]
      rfl
    rw [htext, numberValue, if_pos hall]
    show (unsignedValue (Nat.toDigits 10 (-i).toNat)).map Neg.neg = _
    rw [unsignedValue_toDigits, Option.map_some, hcast]

/-! ## Objects -/

/-- A member as a writer prints it: its name, the text of its value, and what that is to be read
as. -/
structure Field where
  name : List Char
  raw : List Char
  value : Scalar

/-- The text of a member without white space. -/
def Field.text (f : Field) : List Char := '"' :: f.name ++ '"' :: ':' :: f.raw

/-- The name needs no escapes, and the value is spelled as JSON has it. -/
structure Field.Legal (f : Field) : Prop where
  name : f.name.all isPlain = true
  spells : SpellsScalar f.raw f.value

/-- The members with commas between them. -/
def joined (fields : List Field) : List Char := [','].intercalate (fields.map Field.text)

/-- The text of an object without white space. -/
def printObject (fields : List Field) : List Char := '{' :: joined fields ++ ['}']

/-- One field needs no comma. -/
@[simp]
theorem joined_singleton (f : Field) : joined [f] = f.text := by
  simp [joined]

/-- Fields are separated by commas. -/
@[simp]
theorem joined_cons_cons (f f' : Field) (fields : List Field) :
    joined (f :: f' :: fields) = f.text ++ ',' :: joined (f' :: fields) := by
  simp [joined]

/-- Between two parts of the members there is a comma. -/
theorem joined_append {fields fields' : List Field} (hne : fields ≠ []) (hne' : fields' ≠ []) :
    joined (fields ++ fields') = joined fields ++ ',' :: joined fields' := by
  obtain ⟨f', fs', rfl⟩ := List.exists_cons_of_ne_nil hne'
  induction fields with
  | nil => exact absurd rfl hne
  | cons f fs ih =>
    cases fs with
    | nil => simp
    | cons g fs =>
      rw [List.cons_append, List.cons_append, joined_cons_cons, ← List.cons_append,
        ih (List.cons_ne_nil g fs), joined_cons_cons]
      simp

/-- The object that is printed. -/
def objectOf (fields : List Field) : List (List Char × Scalar) :=
  fields.map fun f => (f.name, f.value)

/-- The first member and the others are all of them with commas between them. -/
theorem text_append_tailText (m : Member) (ms : List Member) :
    m.text ++ tailText ms = [','].intercalate ((m :: ms).map Member.text) := by
  induction ms generalizing m with
  | nil => simp [tailText]
  | cons m' ms ih =>
    rw [tailText_cons, ih m', List.map_cons, List.map_cons, List.map_cons,
      List.intercalate_cons_cons]
    simp

/-- Without white space the members are separated by single commas. -/
theorem innerText_compact (members : List (Body × Token)) :
    (Layout.compact members).innerText =
      [','].intercalate (members.map fun m => (Member.tight m.1 m.2).text) := by
  cases members with
  | nil => rfl
  | cons m ms =>
    show (Member.tight m.1 m.2).text ++ tailText (ms.map fun m => Member.tight m.1 m.2) = _
    rw [text_append_tailText, List.map_cons, List.map_map]
    rfl

/-- What is printed is a legal text of the object. -/
theorem exists_layout {fields : List Field} (h : ∀ f ∈ fields, f.Legal) :
    ∃ L : Layout, L.text = printObject fields ∧ L.object = objectOf fields := by
  let token (f : Field) (hf : f.Legal) : Body × Token :=
    (.plain f.name hf.name, ⟨f.raw, f.value, hf.spells⟩)
  refine ⟨.compact (fields.pmap token h), ?_, ?_⟩
  · have htext : ∀ f hf, (Member.tight (token f hf).1 (token f hf).2).text = f.text := by
      intro f hf
      simp [Member.text, Member.tight, Field.text, token, Gap.empty, Body.plain]
    rw [Layout.text, innerText_compact, List.map_pmap]
    simp only [htext, List.pmap_eq_map]
    rfl
  · rw [Layout.object, Layout.compact, List.map_map, List.map_pmap, objectOf,
      ← List.pmap_eq_map (p := Field.Legal) (H := h)]
    rfl

/-- What is printed is read back. -/
theorem decode_printObject {fields : List Field} (h : ∀ f ∈ fields, f.Legal) :
    decode (printObject fields) = some (objectOf fields) := by
  obtain ⟨L, htext, hobject⟩ := exists_layout h
  rw [← htext, decode_text, hobject]

end Launa.Json
