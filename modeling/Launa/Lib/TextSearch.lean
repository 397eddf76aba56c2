import Mathlib.Data.List.TakeWhile
import Mathlib.Tactic.Common

/-!
# Searching a text for a key between quotes

A reader that looks for a quoted key in a text with string tokens finds it in a token that is the
key, and also in one that ends in an escaped quote and the key (`Taken`), and nowhere else:
`search_token` for a token, `search_skip` for text without quotes.
-/

namespace Launa.TextSearch

/-! ## Runs of characters -/

section Runs

variable {α : Type*} {p : α → Bool} {xs ys : List α}

/-- A run does not go on into a text that begins with an element without the property. -/
theorem takeWhile_append_left (xs : List α) (hys : ∀ y ∈ ys.head?, p y = false) :
    (xs ++ ys).takeWhile p = xs.takeWhile p := by
  rw [List.takeWhile_append]
  split
  · rename_i hlength
    have hall : xs.takeWhile p = xs := (List.takeWhile_prefix p).eq_of_length hlength
    have hstop : ys.takeWhile p = [] := by
      cases ys with
      | nil => rfl
      | cons y ys => exact List.takeWhile_cons_of_neg (by rw [hys y rfl]; exact Bool.false_ne_true)
    rw [hall, hstop, List.append_nil]
  · rfl

/-- A run with the property ends where the next element lacks it. -/
theorem takeWhile_append_of_stop (hxs : ∀ x ∈ xs, p x = true) (hys : ∀ y ∈ ys.head?, p y = false) :
    (xs ++ ys).takeWhile p = xs := by
  rw [takeWhile_append_left xs hys, List.takeWhile_eq_self_iff]
  exact hxs

/-- What follows a run begins where the next element lacks the property. -/
theorem dropWhile_append_of_stop (hxs : ∀ x ∈ xs, p x = true) (hys : ∀ y ∈ ys.head?, p y = false) :
    (xs ++ ys).dropWhile p = ys := by
  rw [List.dropWhile_append_of_pos hxs]
  cases ys with
  | nil => rfl
  | cons y ys => simp [hys y rfl]

/-- `str::contains`, of a list. -/
def contains [BEq α] (pattern : List α) : List α → Bool
  | [] => pattern.isEmpty
  | x :: xs => pattern.isPrefixOf (x :: xs) || contains pattern xs

/-- A text contains the pattern exactly if it is an infix. -/
theorem contains_iff [BEq α] [LawfulBEq α] {pattern : List α} :
    contains pattern xs = true ↔ pattern <:+: xs := by
  induction xs with
  | nil => rw [contains, List.isEmpty_iff, List.infix_nil]
  | cons x xs ih =>
    rw [contains, Bool.or_eq_true, List.isPrefixOf_iff_prefix, ih, List.infix_cons_iff]

end Runs

/-! ## The search -/

/-- The text after the first occurrence of a pattern that no blocking character precedes; the
characters of a blocked occurrence are skipped. `skip` of them are left, and `prev` tells whether
the character before the text blocks. -/
def search (pattern : List Char) (blocks : Char → Bool) : ℕ → Bool → List Char → Option (List Char)
  | _, _, [] => none
  | skip + 1, _, c :: cs => search pattern blocks skip (blocks c) cs
  | 0, prev, c :: cs =>
    if pattern.isPrefixOf (c :: cs) then
      if prev then search pattern blocks (pattern.length - 1) (blocks c) cs
      else some ((c :: cs).drop pattern.length)
    else search pattern blocks 0 (blocks c) cs

/-- The characters between the quotes of a string token: no quote without a backslash before it. -/
inductive Escaped : List Char → Prop
  | nil : Escaped []
  | char {c : Char} {raw : List Char} (hquote : c ≠ '"') (hbackslash : c ≠ '\\') (h : Escaped raw) :
    Escaped (c :: raw)
  | escape {c : Char} {raw : List Char} (h : Escaped raw) : Escaped ('\\' :: c :: raw)

/-- Escaped texts may be put behind each other. -/
theorem Escaped.append {raw raw' : List Char} (h : Escaped raw) (h' : Escaped raw') :
    Escaped (raw ++ raw') := by
  induction h with
  | nil => exact h'
  | char hquote hbackslash h ih => exact .char hquote hbackslash ih
  | escape h ih => exact .escape ih

/-- A string token in which a quoted key is found: it is the key, or ends in a quote and the key. -/
def Taken (key raw : List Char) : Prop := '"' :: key <:+ '"' :: raw

instance (key raw : List Char) : Decidable (Taken key raw) :=
  inferInstanceAs (Decidable ('"' :: key <:+ '"' :: raw))

/-- A key: a word of letters, digits and underscores. -/
def isWord (c : Char) : Bool := c == '_' || c.isAlphanum

/-- A key that a search can be for. -/
structure IsKey (key : List Char) : Prop where
  ne_nil : key ≠ []
  all_isWord : key.all isWord = true

/-- A key consists of characters of words. -/
theorem IsKey.isWord {key : List Char} (h : IsKey key) : ∀ c ∈ key, isWord c = true :=
  List.all_eq_true.1 h.all_isWord

/-- A body is taken for a key if it is the key or ends with a quote and the key. -/
theorem taken_iff {key raw : List Char} : Taken key raw ↔ raw = key ∨ '"' :: key <:+ raw := by
  rw [Taken, List.suffix_cons_iff, List.cons.injEq, and_iff_right rfl, eq_comm]

/-- The pattern of a quoted key with `tail` behind it. -/
def keyPattern (key tail : List Char) : List Char := '"' :: (key ++ '"' :: tail)

variable {key tail raw rest : List Char} {blocks : Char → Bool} {prev : Bool} {c : Char}

/-- Inside a string token a key and a quote are the rest of the token. -/
theorem key_prefix_iff (hkey : ∀ c ∈ key, isWord c = true) (hraw : Escaped raw) :
    key ++ '"' :: tail <+: raw ++ '"' :: rest ↔ raw = key ∧ tail <+: rest := by
  induction key generalizing raw with
  | nil =>
    cases hraw with
    | nil => simp
    | char hquote => simp [Ne.symm hquote]
    | escape => simp
  | cons k key ih =>
    have hk : isWord k = true := hkey k List.mem_cons_self
    have hrest : ∀ c ∈ key, isWord c = true := fun c hc => hkey c (List.mem_cons_of_mem k hc)
    cases hraw with
    | nil =>
      have hne : k ≠ '"' := fun h => by rw [h] at hk; exact absurd hk (by decide)
      simp [hne]
    | char hquote hbackslash h =>
      simp only [List.cons_append, List.cons_prefix_cons, ih hrest h, List.cons.injEq, and_assoc]
      rw [eq_comm]
    | escape =>
      have hne : k ≠ '\\' := fun h => by rw [h] at hk; exact absurd hk (by decide)
      simp [hne, Ne.symm hne]

/-- A match behind a blocking character is passed over. -/
theorem search_cons {pattern : List Char} (cs : List Char) :
    search pattern blocks 0 prev (c :: cs) =
      if pattern.isPrefixOf (c :: cs) then
        if prev then search pattern blocks (pattern.length - 1) (blocks c) cs
        else some ((c :: cs).drop pattern.length)
      else search pattern blocks 0 (blocks c) cs := rfl

/-- A character that is no quote begins no occurrence. -/
theorem search_cons_of_ne (hc : c ≠ '"') (cs : List Char) :
    search (keyPattern key tail) blocks 0 prev (c :: cs) =
      search (keyPattern key tail) blocks 0 (blocks c) cs := by
  rw [search_cons, if_neg]
  simp [keyPattern, Ne.symm hc]

/-- The character before the text counts only where the text begins with a quote. -/
theorem search_prev (hrest : ∀ c ∈ rest.head?, c ≠ '"') :
    search (keyPattern key tail) blocks 0 prev rest =
      search (keyPattern key tail) blocks 0 false rest := by
  cases rest with
  | nil => rfl
  | cons c cs => rw [search_cons_of_ne (hrest c rfl), search_cons_of_ne (hrest c rfl)]

/-- Text without quotes is gone over. -/
theorem search_skip {xs : List Char} (hxs : ∀ c ∈ xs, c ≠ '"')
    (hrest : ∀ c ∈ rest.head?, c ≠ '"') :
    search (keyPattern key tail) blocks 0 prev (xs ++ rest) =
      search (keyPattern key tail) blocks 0 false rest := by
  induction xs generalizing prev with
  | nil => exact search_prev hrest
  | cons c xs ih =>
    rw [List.cons_append, search_cons_of_ne (hxs c List.mem_cons_self),
      ih fun d hd => hxs d (List.mem_cons_of_mem c hd)]

/-- Text without quotes and blocking characters is gone over, whatever follows. -/
theorem search_skip_free {xs : List Char} (hxs : ∀ c ∈ xs, c ≠ '"' ∧ blocks c = false) :
    search (keyPattern key tail) blocks 0 false (xs ++ rest) =
      search (keyPattern key tail) blocks 0 false rest := by
  induction xs with
  | nil => rfl
  | cons c xs ih =>
    obtain ⟨hquote, hblocks⟩ := hxs c List.mem_cons_self
    rw [List.cons_append, search_cons_of_ne hquote, hblocks,
      ih fun d hd => hxs d (List.mem_cons_of_mem c hd)]

/-! ## A string token -/

/-- What a search for a quoted key comes to at the end of a string token: the rest behind `tail` if
the key is found there, and else the search of the rest. -/
def atEnd (key tail : List Char) (blocks : Char → Bool) (found : Prop) [Decidable found]
    (rest : List Char) : Option (List Char) :=
  if found ∧ tail <+: rest then some (rest.drop tail.length)
  else search (keyPattern key tail) blocks 0 false rest

/-- At a quote the key is the whole token, or the search goes on inside of it. -/
theorem search_quote (hkey : IsKey key) (hraw : Escaped raw)
    (hinside : search (keyPattern key tail) blocks 0 (blocks '"') (raw ++ '"' :: rest) =
      atEnd key tail blocks ('"' :: key <:+ raw) rest) :
    search (keyPattern key tail) blocks 0 false ('"' :: raw ++ '"' :: rest) =
      atEnd key tail blocks (Taken key raw) rest := by
  have hpre : (keyPattern key tail).isPrefixOf ('"' :: (raw ++ '"' :: rest)) = true ↔
      raw = key ∧ tail <+: rest := by
    rw [List.isPrefixOf_iff_prefix, keyPattern, List.cons_prefix_cons, and_iff_right rfl,
      key_prefix_iff hkey.isWord hraw]
  rw [show '"' :: raw ++ '"' :: rest = '"' :: (raw ++ '"' :: rest) from rfl, search_cons]
  by_cases hfound : raw = key ∧ tail <+: rest
  · have hdrop : ('"' :: (raw ++ '"' :: rest)).drop (keyPattern key tail).length =
        rest.drop tail.length := by
      have hlength : key.length + (tail.length + 1) - key.length = tail.length + 1 := by omega
      rw [hfound.1]
      simp [keyPattern, List.drop_append, hlength]
    rw [if_pos (hpre.2 hfound), if_neg Bool.false_ne_true, hdrop, atEnd,
      if_pos ⟨taken_iff.2 (.inl hfound.1), hfound.2⟩]
  · rw [if_neg fun h => hfound (hpre.1 h), hinside]
    have hiff : '"' :: key <:+ raw ∧ tail <+: rest ↔ Taken key raw ∧ tail <+: rest := by
      rw [taken_iff]
      tauto
    exact if_congr hiff rfl rfl

/-- A key at the end of a token is at the end of what follows an escape, or is that. -/
theorem suffix_escape_iff (hc : c ≠ '"') :
    '"' :: key <:+ '\\' :: c :: raw ↔ '"' :: key <:+ raw := by
  simp [List.suffix_cons_iff, Ne.symm hc]

/-- Inside a string token. -/
theorem search_inside (hkey : IsKey key) (hraw : Escaped raw) (hblocks : blocks '\\' = false)
    (hrest : ∀ c ∈ rest.head?, c ≠ '"' ∧ isWord c = false) :
    search (keyPattern key tail) blocks 0 prev (raw ++ '"' :: rest) =
      atEnd key tail blocks ('"' :: key <:+ raw) rest := by
  induction hraw generalizing prev with
  | nil =>
    -- The closing quote: what follows is not the key.
    have hpre : ¬(keyPattern key tail).isPrefixOf ('"' :: rest) = true := by
      intro h
      obtain ⟨k, key, rfl⟩ := List.exists_cons_of_ne_nil hkey.ne_nil
      rw [List.isPrefixOf_iff_prefix, keyPattern, List.cons_prefix_cons] at h
      obtain ⟨cs, hcs⟩ := h.2
      have hk := (hrest k (by rw [← hcs]; rfl)).2
      rw [hkey.isWord k List.mem_cons_self] at hk
      cases hk
    rw [List.nil_append, search_cons, if_neg hpre, atEnd, if_neg (by simp)]
    exact search_prev fun c hc => (hrest c hc).1
  | @char c raw hquote hbackslash hraw ih =>
    have hiff : '"' :: key <:+ c :: raw ↔ '"' :: key <:+ raw := by
      simp [List.suffix_cons_iff, Ne.symm hquote]
    rw [List.cons_append, search_cons_of_ne hquote, ih]
    exact if_congr (and_congr_left' hiff.symm) rfl rfl
  | @escape c raw hraw ih =>
    rw [List.cons_append, List.cons_append, search_cons_of_ne (by decide), hblocks]
    by_cases hc : c = '"'
    · subst hc
      have hiff : '"' :: key <:+ '\\' :: '"' :: raw ↔ Taken key raw := by
        rw [Taken, List.suffix_cons_iff, List.cons.injEq]
        simp
      rw [← List.cons_append, search_quote hkey hraw ih]
      exact if_congr (and_congr_left' hiff.symm) rfl rfl
    · rw [search_cons_of_ne hc, ih]
      exact if_congr (and_congr_left' (suffix_escape_iff hc).symm) rfl rfl

/-- A search for a quoted key finds it at the end of a token, if `tail` follows it there. -/
theorem search_token (hkey : IsKey key) (hraw : Escaped raw) (hblocks : blocks '\\' = false)
    (hrest : ∀ c ∈ rest.head?, c ≠ '"' ∧ isWord c = false) :
    search (keyPattern key tail) blocks 0 false ('"' :: raw ++ '"' :: rest) =
      atEnd key tail blocks (Taken key raw) rest :=
  search_quote hkey hraw (search_inside hkey hraw hblocks hrest)

end Launa.TextSearch
