import Mathlib.Data.List.Basic
import Mathlib.Tactic.Common

/-!
# The bytes of a text

The UTF-8 bytes of a list of characters. A byte below 128 is a character of its own
(`mem_bytes_iff`), so that a reader may look for one among the bytes, and the bytes are cut between
two characters exactly where no continuation byte follows (`isBoundary_iff`).
-/

namespace Launa.Utf8Bytes

/-- The bytes of a list of characters. -/
def bytes (cs : List Char) : List UInt8 := cs.flatMap String.utf8EncodeChar

variable {c : Char} {cs pre post : List Char} {b : UInt8} {i : ℕ}

/-- No characters have no bytes. -/
@[simp] theorem bytes_nil : bytes [] = [] := rfl

/-- The bytes of the first character come first. -/
@[simp] theorem bytes_cons : bytes (c :: cs) = String.utf8EncodeChar c ++ bytes cs := rfl

/-- The bytes of two texts are put behind each other. -/
@[simp] theorem bytes_append : bytes (pre ++ post) = bytes pre ++ bytes post :=
  List.flatMap_append

/-- A string of characters has their bytes. -/
theorem toList_toByteArray_ofList (cs : List Char) :
    (String.ofList cs).toByteArray.data.toList = bytes cs := by
  rw [String.toByteArray_ofList, List.utf8Encode, List.data_toByteArray, List.toList_toArray]
  rfl

/-- The bytes of a string are those of its characters. -/
theorem toList_toByteArray (s : String) : s.toByteArray.data.toList = bytes s.toList := by
  rw [← toList_toByteArray_ofList, String.ofList_toList]

/-! ## Bytes of one character -/

/-- A digit with its marker bits fits a byte. -/
theorem toNat_ofNat_add {n k m : ℕ} (hk : 0 < k) (h : k + m ≤ 256) :
    (UInt8.ofNat (n % k + m)).toNat = n % k + m := by
  have hlt := Nat.mod_lt n hk
  exact UInt8.toNat_ofNat_of_lt' (show _ < 256 by omega)

/-- An ASCII character is one byte. -/
theorem utf8EncodeChar_of_lt (h : c.toNat < 0x80) :
    String.utf8EncodeChar c = [UInt8.ofNat c.toNat] :=
  if_pos (Nat.le_of_lt_succ h)

/-- The bytes of a character that is not ASCII: a lead byte, and continuation bytes. -/
theorem utf8EncodeChar_of_le (h : 0x80 ≤ c.toNat) :
    ∃ lead conts, String.utf8EncodeChar c = lead :: conts ∧ 0xC0 ≤ lead.toNat ∧
      ∀ b ∈ conts, 0x80 ≤ b.toNat ∧ b.toNat < 0xC0 := by
  have hcont (n : ℕ) : 0x80 ≤ (UInt8.ofNat (n % 0x40 + 0x80)).toNat ∧
      (UInt8.ofNat (n % 0x40 + 0x80)).toNat < 0xC0 := by
    rw [toNat_ofNat_add (by decide) (by decide)]
    omega
  have hlead {n k m : ℕ} (hk : 0 < k) (hm : 0xC0 ≤ m) (hkm : k + m ≤ 256) :
      0xC0 ≤ (UInt8.ofNat (n % k + m)).toNat := by
    rw [toNat_ofNat_add hk hkm]
    omega
  have hneg : ¬c.val.toNat ≤ 0x7F := Nat.not_le.2 h
  unfold String.utf8EncodeChar
  rw [if_neg hneg]
  split_ifs
  · refine ⟨_, _, rfl, hlead (by decide) (by decide) (by decide), ?_⟩
    simp only [List.forall_mem_cons, hcont, and_self, List.not_mem_nil, false_implies,
      implies_true]
  · refine ⟨_, _, rfl, hlead (by decide) (by decide) (by decide), ?_⟩
    simp only [List.forall_mem_cons, hcont, and_self, List.not_mem_nil, false_implies,
      implies_true]
  · refine ⟨_, _, rfl, hlead (by decide) (by decide) (by decide), ?_⟩
    simp only [List.forall_mem_cons, hcont, and_self, List.not_mem_nil, false_implies,
      implies_true]

/-- An ASCII code is that of its character. -/
theorem toNat_charOfNat {n : ℕ} (h : n < 0x80) : (Char.ofNat n).toNat = n := by
  have hvalid : n.isValidChar := .inl (show n < 0xD800 by omega)
  rw [Char.ofNat, dif_pos hvalid]
  rfl

/-- A byte below 128 among the bytes of a text is a character of it. -/
theorem mem_bytes_iff (hb : b.toNat < 0x80) : b ∈ bytes cs ↔ Char.ofNat b.toNat ∈ cs := by
  have hchar := toNat_charOfNat hb
  rw [bytes, List.mem_flatMap]
  constructor
  · rintro ⟨c, hc, hmem⟩
    by_cases hlt : c.toNat < 0x80
    · rw [utf8EncodeChar_of_lt hlt, List.mem_singleton] at hmem
      rw [hmem, UInt8.toNat_ofNat_of_lt' (show _ < 256 by omega), Char.ofNat_toNat]
      exact hc
    -- No byte of another character is below 128.
    · obtain ⟨lead, conts, hbytes, hlead, hconts⟩ := utf8EncodeChar_of_le (Nat.not_lt.1 hlt)
      rw [hbytes, List.mem_cons] at hmem
      rcases hmem with rfl | hmem
      · omega
      · have := (hconts b hmem).1
        omega
  · intro hmem
    refine ⟨_, hmem, ?_⟩
    rw [utf8EncodeChar_of_lt (by rwa [hchar]), hchar, UInt8.ofNat_toNat]
    exact List.mem_singleton_self b

/-- The bytes of an ASCII text are its characters. -/
theorem bytes_of_ascii (h : ∀ c ∈ cs, c.toNat < 0x80) :
    bytes cs = cs.map fun c => UInt8.ofNat c.toNat := by
  induction cs with
  | nil => rfl
  | cons c cs ih =>
    have ⟨hc, hcs⟩ := List.forall_mem_cons.1 h
    rw [bytes_cons, utf8EncodeChar_of_lt hc, ih hcs]
    rfl

/-- A text is ASCII if its bytes are below 128. -/
theorem ascii_of_bytes (h : ∀ b ∈ bytes cs, b.toNat < 0x80) : ∀ c ∈ cs, c.toNat < 0x80 := by
  intro c hc
  by_contra hle
  obtain ⟨lead, conts, hbytes, hlead, -⟩ := utf8EncodeChar_of_le (Nat.not_lt.1 hle)
  have hmem : lead ∈ bytes cs := List.mem_flatMap.2 ⟨c, hc, by simp [hbytes]⟩
  have := h lead hmem
  omega

/-! ## Boundaries -/

/-- Whether the bytes may be cut at `i`: at the end, or before a byte that is no continuation. -/
def isBoundary (bs : List UInt8) (i : ℕ) : Bool :=
  i == 0 || i == bs.length || (bs[i]?.any fun b => b < 0x80 || 0xC0 ≤ b)

/-- Every character has a byte. -/
theorem length_utf8EncodeChar_pos (c : Char) : 0 < (String.utf8EncodeChar c).length := by
  rw [String.length_utf8EncodeChar]
  exact c.utf8Size_pos

/-- Within a character is no boundary. -/
theorem isBoundary_within (hpos : 0 < i) (hi : i < (String.utf8EncodeChar c).length) :
    isBoundary (bytes (c :: cs)) i = false := by
  by_cases hlt : c.toNat < 0x80
  · rw [utf8EncodeChar_of_lt hlt, List.length_singleton] at hi
    omega
  · obtain ⟨lead, conts, hbytes, -, hconts⟩ := utf8EncodeChar_of_le (Nat.not_lt.1 hlt)
    have hlength : i < (bytes (c :: cs)).length := by
      rw [bytes_cons, List.length_append]
      omega
    have hget : (bytes (c :: cs))[i] ∈ conts := by
      obtain ⟨j, rfl⟩ := Nat.exists_eq_add_of_lt hpos
      simp only [bytes_cons, hbytes, List.cons_append, Nat.zero_add, List.getElem_cons_succ]
      rw [hbytes, List.length_cons] at hi
      rw [List.getElem_append_left (by omega)]
      exact List.getElem_mem _
    obtain ⟨hge, hlt⟩ := hconts _ hget
    have hboundary : isBoundary (bytes (c :: cs)) i =
        (decide ((bytes (c :: cs))[i] < 0x80) || decide (0xC0 ≤ (bytes (c :: cs))[i])) := by
      rw [isBoundary, beq_false_of_ne (Nat.ne_of_gt hpos), beq_false_of_ne (Nat.ne_of_lt hlength),
        List.getElem?_eq_getElem hlength]
      rfl
    rw [hboundary, Bool.or_eq_false_iff, decide_eq_false_iff_not, decide_eq_false_iff_not,
      UInt8.lt_iff_toNat_lt, UInt8.le_iff_toNat_le]
    exact ⟨Nat.not_lt.2 hge, Nat.not_le.2 hlt⟩

/-- Before the first byte of a text is a boundary. -/
theorem isBoundary_length (pre post : List Char) :
    isBoundary (bytes (pre ++ post)) (bytes pre).length = true := by
  rw [isBoundary, bytes_append]
  cases post with
  | nil => simp
  | cons c post =>
    have hlead : ∃ lead conts, String.utf8EncodeChar c = lead :: conts ∧
        (decide (lead < 0x80) || decide (0xC0 ≤ lead)) = true := by
      by_cases hlt : c.toNat < 0x80
      · refine ⟨_, _, utf8EncodeChar_of_lt hlt, ?_⟩
        have hbyte : UInt8.ofNat c.toNat < 0x80 := by
          rw [UInt8.lt_iff_toNat_lt, UInt8.toNat_ofNat_of_lt' (show _ < 256 by omega)]
          exact hlt
        rw [decide_eq_true hbyte, Bool.true_or]
      · obtain ⟨lead, conts, hbytes, hlead, -⟩ := utf8EncodeChar_of_le (Nat.not_lt.1 hlt)
        refine ⟨lead, conts, hbytes, ?_⟩
        have hle : 0xC0 ≤ lead := UInt8.le_iff_toNat_le.2 hlead
        rw [decide_eq_true hle, Bool.or_true]
    obtain ⟨lead, conts, hbytes, hlead⟩ := hlead
    simp [hbytes, hlead]

/-- The bytes of a text are cut between characters exactly at the boundaries. -/
theorem isBoundary_iff :
    isBoundary (bytes cs) i = true ↔ ∃ pre post, cs = pre ++ post ∧ (bytes pre).length = i := by
  constructor
  · intro h
    induction cs generalizing i with
    | nil =>
      refine ⟨[], [], rfl, ?_⟩
      rw [isBoundary, bytes_nil, List.length_nil, List.getElem?_nil, Option.any_none, Bool.or_false,
        Bool.or_self] at h
      exact (beq_iff_eq.1 h).symm
    | cons c cs ih =>
      rcases Nat.eq_zero_or_pos i with rfl | hpos
      · exact ⟨[], c :: cs, rfl, rfl⟩
      · by_cases hi : i < (String.utf8EncodeChar c).length
        · rw [isBoundary_within hpos hi] at h
          cases h
        · obtain ⟨j, rfl⟩ := Nat.exists_eq_add_of_le (Nat.not_lt.1 hi)
          have hrest : isBoundary (bytes cs) j = true := by
            have hne : (String.utf8EncodeChar c).length ≠ 0 :=
              Nat.ne_of_gt (length_utf8EncodeChar_pos c)
            rw [bytes_cons, isBoundary, List.length_append,
              List.getElem?_append_right (Nat.le_add_right _ _), Nat.add_sub_cancel_left] at h
            rw [isBoundary]
            simp only [Bool.or_eq_true, beq_iff_eq, Nat.add_left_cancel_iff, Nat.add_eq_zero_iff,
              hne, false_and, false_or] at h ⊢
            exact or_assoc.2 (.inr h)
          obtain ⟨pre, post, rfl, hpre⟩ := ih hrest
          refine ⟨c :: pre, post, rfl, ?_⟩
          rw [bytes_cons, List.length_append, hpre]
  · rintro ⟨pre, post, rfl, rfl⟩
    exact isBoundary_length pre post

/-! ## Slices -/

/-- A slice of a text up to a byte, if that is a boundary. -/
def sliceTo (s : String) (i : ℕ) : Option String :=
  if isBoundary s.toByteArray.data.toList i then
    String.fromUTF8? ⟨(s.toByteArray.data.toList.take i).toArray⟩
  else none

/-- A slice of a text from a byte on, if that is a boundary. -/
def sliceFrom (s : String) (i : ℕ) : Option String :=
  if isBoundary s.toByteArray.data.toList i then
    String.fromUTF8? ⟨(s.toByteArray.data.toList.drop i).toArray⟩
  else none

/-- A string is read back from its bytes. -/
theorem fromUTF8?_toList (s : String) :
    String.fromUTF8? ⟨s.toByteArray.data.toList.toArray⟩ = some s := by
  rw [Array.toArray_toList, String.fromUTF8?, dif_pos s.isValidUTF8]
  rfl

/-- The bytes of two strings are put behind each other. -/
theorem toList_toByteArray_append (s t : String) :
    (s ++ t).toByteArray.data.toList = s.toByteArray.data.toList ++ t.toByteArray.data.toList := by
  rw [toList_toByteArray, String.toList_append, bytes_append, toList_toByteArray,
    toList_toByteArray]

/-- A string may be cut where its second part begins. -/
theorem isBoundary_append (s t : String) :
    isBoundary (s ++ t).toByteArray.data.toList s.utf8ByteSize = true := by
  have hsize : s.utf8ByteSize = (bytes s.toList).length := by
    rw [← toList_toByteArray, Array.length_toList]
    rfl
  rw [toList_toByteArray, String.toList_append, hsize]
  exact isBoundary_length _ _

/-- Cut there, the first part is left. -/
theorem sliceTo_append (s t : String) : sliceTo (s ++ t) s.utf8ByteSize = some s := by
  have htake : (s ++ t).toByteArray.data.toList.take s.utf8ByteSize =
      s.toByteArray.data.toList := by
    rw [toList_toByteArray_append]
    exact List.take_left' Array.length_toList
  rw [sliceTo, isBoundary_append, htake]
  exact fromUTF8?_toList s

/-- Cut there, the second part is left. -/
theorem sliceFrom_append (s t : String) : sliceFrom (s ++ t) s.utf8ByteSize = some t := by
  have hdrop : (s ++ t).toByteArray.data.toList.drop s.utf8ByteSize =
      t.toByteArray.data.toList := by
    rw [toList_toByteArray_append]
    exact List.drop_left' Array.length_toList
  rw [sliceFrom, isBoundary_append, hdrop]
  exact fromUTF8?_toList t

/-- At a boundary a text is put together from two. -/
theorem exists_append_of_isBoundary {s : String} {i : ℕ}
    (h : isBoundary s.toByteArray.data.toList i = true) :
    ∃ cut rest : String, s = cut ++ rest ∧ cut.utf8ByteSize = i := by
  rw [toList_toByteArray, isBoundary_iff] at h
  obtain ⟨pre, post, hs, rfl⟩ := h
  refine ⟨.ofList pre, .ofList post, ?_, ?_⟩
  · rw [← String.ofList_append, ← hs, String.ofList_toList]
  · rw [← toList_toByteArray_ofList, Array.length_toList]
    rfl

/-- A text is sliced exactly between two parts of it. -/
theorem sliceTo_eq_some_iff {s cut : String} {i : ℕ} :
    sliceTo s i = some cut ↔ ∃ rest, s = cut ++ rest ∧ cut.utf8ByteSize = i := by
  constructor
  · intro h
    have hboundary : isBoundary s.toByteArray.data.toList i = true := by
      unfold sliceTo at h
      split at h
      · assumption
      · cases h
    obtain ⟨cut', rest, rfl, rfl⟩ := exists_append_of_isBoundary hboundary
    rw [sliceTo_append] at h
    cases h
    exact ⟨rest, rfl, rfl⟩
  · rintro ⟨rest, rfl, rfl⟩
    exact sliceTo_append cut rest

/-- A text is sliced exactly at a boundary. -/
theorem isSome_sliceTo_iff {s : String} {i : ℕ} :
    (sliceTo s i).isSome ↔ isBoundary s.toByteArray.data.toList i = true := by
  constructor
  · intro h
    obtain ⟨cut, hcut⟩ := Option.isSome_iff_exists.1 h
    obtain ⟨rest, rfl, rfl⟩ := sliceTo_eq_some_iff.1 hcut
    exact isBoundary_append cut rest
  · intro h
    obtain ⟨cut, rest, rfl, rfl⟩ := exists_append_of_isBoundary h
    rw [sliceTo_append]
    rfl

/-- A string that is cut at its length is whole. -/
theorem sliceTo_utf8ByteSize (s : String) : sliceTo s s.utf8ByteSize = some s := by
  have h := sliceTo_append s ""
  rwa [String.append_empty] at h

end Launa.Utf8Bytes
