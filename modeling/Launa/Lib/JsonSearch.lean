import Launa.Lib.Json

/-!
# Searching a JSON text for a member

A reader that takes a member by a search for its quoted name in the raw text finds it in any string
token that is the name, or ends in an escaped quote and the name. Where the pattern has a colon
behind the name, only names of members are found, and only those whose colon follows at once
(`search_colon`). Without one the first such token counts, be it a name or a value (`search_name`).
-/

namespace Launa.Json

open TextSearch

variable {key tail raw text rest cs : List Char} {value : Scalar} {blocks : Char → Bool}

/-! ## Tokens -/

/-- Hexadecimal digits are no quotes and no backslashes. -/
theorem escaped_of_hexValue {n : ℕ} (h : hexValue raw = some n) : Escaped raw := by
  have hdigits := isHexDigit_of_hexValue h
  clear h
  induction raw with
  | nil => exact .nil
  | cons c cs ih =>
    obtain ⟨-, hquote, hbackslash⟩ := hdigits c List.mem_cons_self
    exact .char hquote hbackslash (ih fun d hd => hdigits d (List.mem_cons_of_mem c hd))

/-- In a spelled text every quote has a backslash before it. -/
theorem SpellsText.escaped (h : SpellsText raw text) : Escaped raw := by
  induction h with
  | nil => exact .nil
  | cons hc h ih =>
    refine Escaped.append ?_ ih
    cases hc with
    | plain hcontrol hquote hbackslash => exact .char hquote hbackslash .nil
    | simple h => exact .escape .nil
    | unicode h hscalar => exact .escape (escaped_of_hexValue h)
    | pair h h' hpair =>
      exact .append (.escape (escaped_of_hexValue h)) (.escape (escaped_of_hexValue h'))

/-- A value in which a quoted key is found. -/
def Token.Mentions (key : List Char) (t : Token) : Prop := '"' :: key ++ ['"'] <:+ t.raw

instance (key : List Char) (t : Token) : Decidable (t.Mentions key) :=
  inferInstanceAs (Decidable (_ <:+ _))

/-- A member in whose name a quoted key is found. -/
def Member.Named (key : List Char) (m : Member) : Prop := Taken key m.name.raw

instance (key : List Char) (m : Member) : Decidable (m.Named key) :=
  inferInstanceAs (Decidable (Taken _ _))

/-- A value is a string, or has no quotes. -/
theorem Token.string_or_no_quote (t : Token) :
    (∃ body : Body, t.raw = '"' :: body.raw ++ ['"'] ∧ t.value = .string body.text) ∨
      ('"' ∉ t.raw ∧ ∀ s, t.value ≠ .string s) := by
  obtain ⟨raw, value, h⟩ := t
  cases h with
  | string body => exact .inl ⟨body, rfl, rfl⟩
  | number h =>
    refine .inr ⟨fun hquote => ?_, by rintro s ⟨⟩⟩
    exact absurd ((numberValue_chars h).2 '"' hquote) (by decide)
  | isTrue => exact .inr ⟨by decide, by rintro s ⟨⟩⟩
  | isFalse => exact .inr ⟨by decide, by rintro s ⟨⟩⟩
  | isNull => exact .inr ⟨by decide, by rintro s ⟨⟩⟩

/-! ## The search of a member -/

/-- What follows a token: neither a quote nor a character of a key. -/
def Clear (rest : List Char) : Prop := ∀ c ∈ rest.head?, c ≠ '"' ∧ isWord c = false

/-- White space is neither a quote nor part of a word. -/
theorem isSpace_clear {c : Char} (h : isSpace c = true) : c ≠ '"' ∧ isWord c = false := by
  simp only [isSpace, Bool.or_eq_true, beq_iff_eq] at h
  obtain ((rfl | rfl) | rfl) | rfl := h <;> decide

/-- White space in front leaves a text clear. -/
theorem Clear.gap (gap : Gap) (h : Clear rest) : Clear (gap.text ++ rest) := by
  cases hgap : gap.text with
  | nil => exact h
  | cons c cs =>
    intro d hd
    cases hd
    exact isSpace_clear (gap.isSpace c (by rw [hgap]; exact List.mem_cons_self))

/-- What closes a member is clear. -/
theorem Closes.clear (h : Closes rest) : Clear rest := by
  obtain ⟨c, cs, rfl, hc⟩ := h
  intro d hd
  cases hd
  obtain rfl | rfl := hc <;> decide

/-- The text of a member behind its name. -/
def Member.behindName (m : Member) : List Char :=
  m.beforeColon.text ++ ':' :: m.afterColon.text ++ m.value.raw ++ m.afterValue.text

section

variable (hblocks : ∀ c, blocks c = true → isWord c = true)
include hblocks

/-- Only characters of words block a match. -/
theorem blocks_eq_false {c : Char} (hc : isWord c = false) : blocks c = false := by
  rw [Bool.eq_false_iff]
  intro h
  rw [hblocks c h] at hc
  cases hc

/-- The search passes over white space. -/
theorem search_gap (gap : Gap) :
    search (keyPattern key tail) blocks 0 false (gap.text ++ rest) =
      search (keyPattern key tail) blocks 0 false rest :=
  search_skip_free fun c hc =>
    have hclear := isSpace_clear (gap.isSpace c hc)
    ⟨hclear.1, blocks_eq_false hblocks hclear.2⟩

/-- A character between tokens is gone over. -/
theorem search_separator {c : Char} (hc : c ≠ '"' ∧ isWord c = false) :
    search (keyPattern key tail) blocks 0 false (c :: rest) =
      search (keyPattern key tail) blocks 0 false rest := by
  rw [search_cons_of_ne hc.1, blocks_eq_false hblocks hc.2]

/-- A value is gone over, unless it is a string in which the key is found. -/
theorem search_value (hkey : IsKey key) (t : Token) (hrest : Clear rest) :
    search (keyPattern key tail) blocks 0 false (t.raw ++ rest) =
      atEnd key tail blocks (t.Mentions key) rest := by
  obtain ⟨body, hraw, -⟩ | ⟨hquote, -⟩ := t.string_or_no_quote
  · have hiff : Taken key body.raw ↔ t.Mentions key := by
      rw [Token.Mentions, hraw, List.suffix_append_inj_of_length_eq rfl, and_iff_left rfl, Taken]
    rw [hraw, List.append_assoc, List.singleton_append,
      search_token hkey body.spells.escaped (blocks_eq_false hblocks (by decide)) hrest]
    exact if_congr (and_congr_left' hiff) rfl rfl
  · have hmentions : ¬t.Mentions key := fun h => hquote (h.subset List.mem_cons_self)
    rw [atEnd, if_neg fun h => hmentions h.1]
    exact search_skip (fun c hc => ne_of_mem_of_not_mem hc hquote) fun c hc => (hrest c hc).1

/-- A member is searched by its name, and then by its value. -/
theorem search_member (hkey : IsKey key) (m : Member) (hrest : Closes rest) (tail : List Char) :
    search (keyPattern key tail) blocks 0 false (m.text ++ rest) =
      if m.Named key ∧ tail <+: m.behindName ++ rest then
        some ((m.behindName ++ rest).drop tail.length)
      else atEnd key tail blocks (m.value.Mentions key) (m.afterValue.text ++ rest) := by
  have hcolon : ∀ cs, Clear (':' :: cs) := by
    intro cs d hd
    cases hd
    decide
  have hclear : Clear (m.behindName ++ rest) := by
    unfold Member.behindName
    simp only [List.append_assoc, List.cons_append]
    exact (hcolon _).gap m.beforeColon
  have htext : m.text ++ rest = m.beforeName.text ++ ('"' :: m.name.raw ++ '"' ::
      (m.behindName ++ rest)) := by
    simp only [Member.text, Member.behindName, List.append_assoc, List.cons_append]
  have hvalue : search (keyPattern key tail) blocks 0 false (m.behindName ++ rest) =
      atEnd key tail blocks (m.value.Mentions key) (m.afterValue.text ++ rest) := by
    unfold Member.behindName
    simp only [List.append_assoc, List.cons_append]
    rw [search_gap hblocks, search_separator hblocks (by decide),
      search_gap hblocks]
    exact search_value hblocks hkey m.value (hrest.clear.gap m.afterValue)
  rw [htext, search_gap hblocks, search_token hkey m.name.spells.escaped
    (blocks_eq_false hblocks (by decide)) hclear, atEnd, hvalue]
  rfl

/-- The comma before a member is gone over. -/
theorem search_tailText (m : Member) (ms : List Member) (cs : List Char) :
    search (keyPattern key tail) blocks 0 false (tailText (m :: ms) ++ cs) =
      search (keyPattern key tail) blocks 0 false (m.text ++ (tailText ms ++ cs)) := by
  rw [tailText_cons, List.cons_append, search_separator hblocks (by decide), List.append_assoc]

/-- The text is searched member by member. -/
theorem search_text (L : Layout) :
    search (keyPattern key tail) blocks 0 false L.text =
      search (keyPattern key tail) blocks 0 false (tailText L.members ++ '}' :: L.after.text) := by
  rw [Layout.text, List.append_assoc, search_gap hblocks, List.cons_append,
    search_separator hblocks (by decide)]
  unfold Layout.innerText
  cases L.members with
  | nil => exact search_gap hblocks L.inner
  | cons m ms =>
    rw [search_tailText hblocks]
    exact congrArg _ (List.append_assoc _ _ _)

/-- Nothing is found behind the members. -/
theorem search_after (gap : Gap) :
    search (keyPattern key tail) blocks 0 false ('}' :: gap.text) = none := by
  have hgap : search (keyPattern key tail) blocks 0 false (gap.text ++ []) =
      search (keyPattern key tail) blocks 0 false [] := search_gap hblocks gap
  rw [List.append_nil] at hgap
  rw [search_separator hblocks (by decide), hgap]
  rfl

/-- Where the search of a member finds the key in it or goes over it, the first one in which it is
found counts. -/
theorem search_first {found : Member → Prop} [DecidablePred found] {behind : Member → List Char}
    (hmember : ∀ m rest, Closes rest →
      search (keyPattern key tail) blocks 0 false (m.text ++ rest) =
        if found m then some (behind m ++ rest)
        else search (keyPattern key tail) blocks 0 false rest) (L : Layout) :
    (L.members.find? (fun m => decide (found m)) = none →
      search (keyPattern key tail) blocks 0 false L.text = none) ∧
    ∀ m, L.members.find? (fun m => decide (found m)) = some m → ∃ rest, Closes rest ∧
      search (keyPattern key tail) blocks 0 false L.text = some (behind m ++ rest) := by
  rw [search_text hblocks]
  induction L.members with
  | nil => exact ⟨fun _ => search_after hblocks L.after, by rintro m ⟨⟩⟩
  | cons m ms ih =>
    have hcloses := closes_tailText ms L.after.text
    rw [search_tailText hblocks, hmember m _ hcloses]
    by_cases hfound : found m
    · rw [List.find?_cons_of_pos (by simpa using hfound), if_pos hfound]
      refine ⟨by rintro ⟨⟩, ?_⟩
      rintro m' ⟨⟩
      exact ⟨_, hcloses, rfl⟩
    · rw [List.find?_cons_of_neg (by simpa using hfound), if_neg hfound]
      exact ih

end

/-! ## The first member that is found -/

/-- A member whose name a search for a quoted key and a colon finds. -/
def Member.Legible (key : List Char) (m : Member) : Prop := m.Named key ∧ m.beforeColon.text = []

instance (key : List Char) (m : Member) : Decidable (m.Legible key) :=
  inferInstanceAs (Decidable (_ ∧ _))

/-- The first member that is found for a key. -/
def Layout.shown (L : Layout) (key : List Char) : Option Member :=
  L.members.find? fun m => decide (m.Legible key)

/-- The text of a member behind its colon. -/
def Member.behindColon (m : Member) : List Char :=
  m.afterColon.text ++ m.value.raw ++ m.afterValue.text

/-- No colon follows a value. -/
theorem not_colon_prefix (gap : Gap) (hrest : Closes rest) : ¬[':'] <+: gap.text ++ rest := by
  rintro ⟨cs, hcs⟩
  obtain hspace | h | h := hrest.ends gap ':' (by rw [← hcs]; rfl)
  · exact absurd hspace (by decide)
  · exact absurd h (by decide)
  · exact absurd h (by decide)

/-- The colon follows a name at once exactly if no white space stands between them. -/
theorem colon_prefix_iff (m : Member) (rest : List Char) :
    [':'] <+: m.behindName ++ rest ↔ m.beforeColon.text = [] := by
  unfold Member.behindName
  cases hgap : m.beforeColon.text with
  | nil => simp
  | cons c cs =>
    have hc := m.beforeColon.isSpace c (by rw [hgap]; exact List.mem_cons_self)
    have hne : ':' ≠ c := by
      rintro rfl
      exact absurd hc (by decide)
    simp [hne]

/-- A search for a quoted key and a colon finds the first member whose name is taken for the key and
whose colon follows at once. -/
theorem search_colon (hkey : IsKey key) (L : Layout) :
    (L.shown key = none → search (keyPattern key [':']) (fun _ => false) 0 false L.text = none) ∧
      ∀ m, L.shown key = some m → ∃ rest, Closes rest ∧
        search (keyPattern key [':']) (fun _ => false) 0 false L.text =
          some (m.behindColon ++ rest) := by
  have hblocks : ∀ c : Char, (fun _ : Char => false) c = true → isWord c = true := by
    rintro c ⟨⟩
  refine search_first hblocks (fun m rest hrest => ?_) L
  have hvalue : atEnd key [':'] (fun _ => false) (m.value.Mentions key)
      (m.afterValue.text ++ rest) =
      search (keyPattern key [':']) (fun _ => false) 0 false (m.afterValue.text ++ rest) :=
    if_neg fun h => not_colon_prefix m.afterValue hrest h.2
  have hiff : m.Named key ∧ [':'] <+: m.behindName ++ rest ↔ m.Legible key :=
    and_congr_right' (colon_prefix_iff m rest)
  rw [search_member hblocks hkey m hrest [':'], hvalue, search_gap hblocks]
  by_cases hlegible : m.Legible key
  · rw [if_pos (hiff.2 hlegible), if_pos hlegible]
    unfold Member.behindName Member.behindColon
    rw [hlegible.2]
    simp
  · rw [if_neg fun h => hlegible (hiff.1 h), if_neg hlegible]

/-- A member in which a quoted key is found, as its name or in its value. -/
def Member.Mentions (key : List Char) (m : Member) : Prop := m.Named key ∨ m.value.Mentions key

instance (key : List Char) (m : Member) : Decidable (m.Mentions key) :=
  inferInstanceAs (Decidable (_ ∨ _))

/-- A search for a quoted key finds it in the first member with it, in the name or else in the
value. -/
theorem search_name (blocks : Char → Bool) (hblocks : ∀ c, blocks c = true → isWord c = true)
    (hkey : IsKey key) (L : Layout) :
    (L.members.find? (fun m => decide (m.Mentions key)) = none →
      search (keyPattern key []) blocks 0 false L.text = none) ∧
    ∀ m, L.members.find? (fun m => decide (m.Mentions key)) = some m → ∃ rest, Closes rest ∧
      search (keyPattern key []) blocks 0 false L.text =
        some ((if m.Named key then m.behindName else m.afterValue.text) ++ rest) := by
  refine search_first hblocks (fun m rest hrest => ?_) L
  have hmember := search_member hblocks hkey m hrest []
  simp only [List.nil_prefix, and_true, List.length_nil, List.drop_zero, atEnd] at hmember
  rw [hmember, search_gap hblocks]
  by_cases hnamed : m.Named key
  · rw [if_pos hnamed, if_pos (.inl hnamed), if_pos hnamed]
  · rw [if_neg hnamed, if_neg hnamed]
    exact if_congr (or_iff_right hnamed).symm rfl rfl

end Launa.Json
