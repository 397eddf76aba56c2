import Launa.Lib.JsonSearch
import Launa.Mqtt.CommandParser

/-!
# How the fields of a JSON text are found

The readers of `command_parser.rs` and `ota_url.rs` search the raw text for a quoted key and go on
from there, over white space in the sense of `char::is_whitespace`. On a text of a flat object that
is the search of `Lib.JsonSearch`.
-/

namespace Launa.Mqtt

open Json Ota TextSearch

/-- `str::trim_start`. -/
def trimStart (cs : List Char) : List Char := cs.dropWhile isWhitespace

variable {rest raw key : List Char} {value : Scalar}

/-- The white space of JSON is white space. -/
theorem isWhitespace_of_isSpace {c : Char} (h : isSpace c = true) : isWhitespace c = true := by
  simp only [isSpace, Bool.or_eq_true, beq_iff_eq] at h
  obtain ((rfl | rfl) | rfl) | rfl := h <;> decide

/-- A character of numbers is no white space. -/
theorem isWhitespace_of_isNumberChar {c : Char} (h : isNumberChar c = true) :
    isWhitespace c = false := by
  simp only [isNumberChar, Bool.or_eq_true, beq_iff_eq] at h
  obtain ((((hdigit | rfl) | rfl) | rfl) | rfl) | rfl := h
  · simp only [Char.isDigit, Bool.and_eq_true, decide_eq_true_eq, UInt32.le_iff_toNat_le] at hdigit
    have hlow : 48 ≤ c.toNat := hdigit.1
    have hhigh : c.toNat ≤ 57 := hdigit.2
    simp only [isWhitespace, Bool.or_eq_false_iff, Bool.and_eq_false_iff, decide_eq_false_iff_not,
      beq_eq_false_iff_ne]
    omega
  all_goals decide

/-- The white space of a gap is trimmed. -/
@[simp]
theorem trimStart_gap (gap : Gap) : trimStart (gap.text ++ rest) = trimStart rest :=
  List.dropWhile_append_of_pos fun c hc => isWhitespace_of_isSpace (gap.isSpace c hc)

/-- Nothing is trimmed in front of another character. -/
theorem trimStart_cons {c : Char} (hc : isWhitespace c = false) (cs : List Char) :
    trimStart (c :: cs) = c :: cs := by
  simp [trimStart, hc]

/-- A value begins with no white space. -/
theorem trimStart_value (h : SpellsScalar raw value) : trimStart (raw ++ rest) = raw ++ rest := by
  obtain ⟨c, cs, rfl, hc⟩ := h.head?
  apply trimStart_cons
  obtain rfl | rfl | rfl | rfl | hnumber := hc
  · decide
  · decide
  · decide
  · decide
  · exact isWhitespace_of_isNumberChar hnumber

/-- What follows a member is not trimmed. -/
theorem trimStart_closes (h : Closes rest) : trimStart rest = rest := by
  obtain ⟨c, cs, rfl, rfl | rfl⟩ := h <;> exact trimStart_cons (by decide) cs

/-! ## A text between white space -/

/-- A text without the white space around the object. -/
def trimmed (L : Layout) : Layout := { L with before := .empty, after := .empty }

/-- `str::trim` of a text. -/
theorem trim_text (L : Layout) : trim L.text = (trimmed L).text := by
  have hopen : (L.text).dropWhile isWhitespace = '{' :: L.innerText ++ '}' :: L.after.text := by
    rw [Layout.text, List.append_assoc]
    exact (trimStart_gap L.before).trans (trimStart_cons (by decide) _)
  have hafter : ∀ c ∈ L.after.text.reverse, isWhitespace c = true := fun c hc =>
    isWhitespace_of_isSpace (L.after.isSpace c (List.mem_reverse.1 hc))
  have hclose : ('{' :: L.innerText ++ '}' :: L.after.text).reverse.dropWhile isWhitespace =
      '}' :: ('{' :: L.innerText).reverse := by
    rw [List.reverse_append, List.reverse_cons, List.append_assoc,
      List.dropWhile_append_of_pos hafter]
    exact trimStart_cons (by decide) _
  rw [trim, hopen, hclose, List.reverse_cons, List.reverse_reverse]
  rfl

/-- The text of an object begins with its brace. -/
theorem head?_trimmed (L : Layout) : (trimmed L).text.head? = some '{' := rfl

/-! ## What is extracted -/

/-- `str::find` of a key and a colon. -/
theorem afterPattern_eq_search (json : List Char) :
    afterPattern (keyPattern key [':']) json =
      search (keyPattern key [':']) (fun _ => false) 0 false json := by
  induction json with
  | nil => rfl
  | cons c cs ih =>
    rw [afterPattern, search_cons, ih]
    simp

/-- The text behind a key is that of the value of the first member that is found. -/
theorem afterKey_text (hkey : IsKey key) (L : Layout) :
    (L.shown key = none → afterKey L.text key = none) ∧
      ∀ m, L.shown key = some m → ∃ rest, Ends rest ∧
        afterKey L.text key = some (m.value.raw ++ rest) := by
  have hafter : afterKey L.text key =
      (search (keyPattern key [':']) (fun _ => false) 0 false L.text).map trimStart := by
    rw [← afterPattern_eq_search]
    rfl
  obtain ⟨hnone, hsome⟩ := search_colon hkey L
  refine ⟨fun h => by rw [hafter, hnone h]; rfl, fun m h => ?_⟩
  obtain ⟨rest, hrest, hsearch⟩ := hsome m h
  refine ⟨m.afterValue.text ++ rest, hrest.ends m.afterValue, ?_⟩
  rw [hafter, hsearch, Option.map_some, Member.behindColon, List.append_assoc, List.append_assoc,
    trimStart_gap, trimStart_value m.value.spells]

/-- The value of the first member that is found for a key. -/
def shownValue (L : Layout) (key : List Char) : Option Token := (L.shown key).map Member.value

/-- The number that a value begins with, as a `u8`. -/
def tokenNumber (t : Token) : Option ℕ := fromStrRadix 10 (2^8) (t.raw.takeWhile Char.isDigit)

/-- A string up to its first quote, escaped or not. -/
def tokenString (t : Token) : Option (List Char) :=
  match t.raw with
  | '"' :: inner => some (inner.takeWhile (· ≠ '"'))
  | _ => none

/-- A flag. -/
def tokenFlag (t : Token) : Option Bool :=
  match t.value with
  | .bool b => some b
  | _ => none

/-- What a reader makes of a key is what it makes of the value that is shown. -/
theorem extract_text {α : Type} (hkey : IsKey key) (L : Layout) (read : List Char → Option α)
    (readToken : Token → Option α)
    (hread : ∀ (t : Token) (rest : List Char), Ends rest → read (t.raw ++ rest) = readToken t) :
    (afterKey L.text key).bind read = (shownValue L key).bind readToken := by
  obtain ⟨hnone, hsome⟩ := afterKey_text hkey L
  unfold shownValue
  cases hshown : L.shown key with
  | none =>
    rw [hnone hshown]
    rfl
  | some m =>
    obtain ⟨rest, hrest, hafter⟩ := hsome m hshown
    rw [hafter, Option.bind_some, hread m.value rest hrest]
    rfl

/-- What ends a value is no digit. -/
theorem isDigit_false_of_ends (h : Ends rest) : ∀ c ∈ rest.head?, c.isDigit = false := by
  intro c hc
  have hnumber := h.isNumberChar c hc
  simp only [isNumberChar, Bool.or_eq_false_iff] at hnumber
  exact hnumber.1.1.1.1.1

/-- A number is extracted from the value shown for its key. -/
theorem extractJsonNumber_text (hkey : IsKey key) (L : Layout) :
    extractJsonNumber L.text key = (shownValue L key).bind tokenNumber := by
  refine extract_text hkey L (fun rest => fromStrRadix 10 (2^8) (rest.takeWhile Char.isDigit)) _ ?_
  intro t rest hrest
  rw [takeWhile_append_left t.raw (isDigit_false_of_ends hrest)]
  rfl

/-- Of a string what stands before its first quote is extracted. -/
theorem tokenString_string {t : Token} {body : Body} (hraw : t.raw = '"' :: body.raw ++ ['"']) :
    tokenString t = some (body.raw.takeWhile (· ≠ '"')) := by
  rw [tokenString, hraw]
  exact congrArg some (takeWhile_append_left body.raw (by simp))

/-- Nothing is extracted where no string stands. -/
theorem tokenString_of_no_quote {t : Token} (h : '"' ∉ t.raw) : tokenString t = none := by
  unfold tokenString
  split
  · rename_i inner hraw
    rw [hraw] at h
    exact absurd List.mem_cons_self h
  · rfl

/-- A string is extracted from the value shown for its key. -/
theorem extractJsonString_text (hkey : IsKey key) (L : Layout) :
    extractJsonString L.text key = (shownValue L key).bind tokenString := by
  refine extract_text hkey L _ _ ?_
  intro t rest hrest
  obtain ⟨body, hraw, -⟩ | ⟨hquote, -⟩ := t.string_or_no_quote
  · have htext : t.raw ++ rest = '"' :: (body.raw ++ '"' :: rest) := by
      rw [hraw]
      simp
    rw [tokenString_string hraw, htext]
    show (if '"' ∈ body.raw ++ '"' :: rest then _ else none) = _
    rw [if_pos (by simp)]
    exact congrArg some (takeWhile_append_left body.raw (by simp))
  · rw [tokenString_of_no_quote hquote]
    obtain ⟨c, cs, hraw, -⟩ := t.spells.head?
    rw [hraw] at hquote ⊢
    rw [List.cons_append]
    split
    · rename_i heq
      rw [(List.cons.inj heq).1] at hquote
      exact absurd List.mem_cons_self hquote
    · rfl

/-- A flag is extracted from the value shown for its key. -/
theorem extractJsonBool_text (hkey : IsKey key) (L : Layout) :
    extractJsonBool L.text key = (shownValue L key).bind tokenFlag := by
  refine extract_text hkey L _ _ ?_
  intro t rest hrest
  obtain ⟨raw, value, hspells⟩ := t
  unfold tokenFlag
  dsimp only
  cases hspells with
  | string body => rfl
  | number h =>
    obtain ⟨c, cs, rfl, hc⟩ := exists_cons_of_numberValue h
    have ht : 't' ≠ c := ne_of_isNumberChar hc (by decide)
    have hf : 'f' ≠ c := ne_of_isNumberChar hc (by decide)
    simp [ht, hf]
  | isTrue => rfl
  | isFalse => rfl
  | isNull => rfl

end Launa.Mqtt
