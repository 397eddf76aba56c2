import Mathlib.Algebra.Group.Nat.Defs
import Mathlib.Tactic.Common

/-!
# Numbers of a variable length

A number is written in digits of seven bits, the lowest first, and every byte but the last has its
high bit set (`IsField`). A reader that takes at most `limit` bytes reads such a field of at most
`limit` bytes and nothing else (`decode_eq_some`). So it reads back what was written, and as many
bytes, if the number has at most `limit` digits (`decode_encode`), and rejects a longer one
(`decode_encode_eq_none`).
-/

namespace Launa.Varint

/-- The digits of a number. -/
def encode (n : ℕ) : List UInt8 :=
  if n < 128 then [UInt8.ofNat n] else UInt8.ofNat (n % 128 + 128) :: encode (n / 128)
termination_by n
decreasing_by omega

/-- The number of at most `limit` digits at the start of the bytes, and how many it has. -/
def decode : ℕ → List UInt8 → Option (ℕ × ℕ)
  | 0, _ => none
  | _ + 1, [] => none
  | limit + 1, b :: bytes =>
    if b.toNat < 128 then some (b.toNat, 1)
    else (decode limit bytes).map fun (n, size) => (b.toNat - 128 + 128 * n, size + 1)

variable {n limit : ℕ}

/-- A number below 128 has one byte. -/
theorem encode_of_lt (h : n < 128) : encode n = [UInt8.ofNat n] := by
  rw [encode, if_pos h]

/-- A larger number has its lowest seven bits in the first byte. -/
theorem encode_of_le (h : 128 ≤ n) :
    encode n = UInt8.ofNat (n % 128 + 128) :: encode (n / 128) := by
  rw [encode, if_neg (Nat.not_lt.2 h)]

/-- A byte without the continuation bit ends the field. -/
theorem decode_cons_of_lt {b : UInt8} (h : b.toNat < 128) (bytes : List UInt8) :
    decode (limit + 1) (b :: bytes) = some (b.toNat, 1) := by
  rw [decode, if_pos h]

/-- Behind a byte with the continuation bit the field goes on. -/
theorem decode_cons_of_le {b : UInt8} (h : 128 ≤ b.toNat) (bytes : List UInt8) :
    decode (limit + 1) (b :: bytes) =
      (decode limit bytes).map fun (n, size) => (b.toNat - 128 + 128 * n, size + 1) := by
  rw [decode, if_neg (Nat.not_lt.2 h)]

/-- The last byte is the number that is left. -/
theorem toNat_last (h : n < 128) : (UInt8.ofNat n).toNat = n := by
  rw [UInt8.toNat_ofNat']
  omega

/-- A byte that is not the last has the continuation bit. -/
theorem toNat_digit (n : ℕ) : (UInt8.ofNat (n % 128 + 128)).toNat = n % 128 + 128 := by
  rw [UInt8.toNat_ofNat']
  omega

/-- A number of at most `limit + 1` digits is read back, whatever follows it. -/
theorem decode_encode (h : n < 128 ^ (limit + 1)) (rest : List UInt8) :
    decode (limit + 1) (encode n ++ rest) = some (n, (encode n).length) := by
  induction limit generalizing n with
  | zero =>
    rw [Nat.pow_one] at h
    rw [encode_of_lt h, List.singleton_append, decode_cons_of_lt (by rwa [toNat_last h]),
      toNat_last h]
    rfl
  | succ limit ih =>
    rcases Nat.lt_or_ge n 128 with hn | hn
    · rw [encode_of_lt hn, List.singleton_append, decode_cons_of_lt (by rwa [toNat_last hn]),
        toNat_last hn]
      rfl
    · have hdiv : n / 128 < 128 ^ (limit + 1) := Nat.div_lt_of_lt_mul (by rwa [Nat.mul_comm])
      rw [encode_of_le hn, List.cons_append, decode_cons_of_le (by rw [toNat_digit]; omega),
        ih hdiv,
        Option.map_some, toNat_digit, Option.some.injEq, Prod.mk.injEq]
      exact ⟨by omega, rfl⟩

/-- A number of more than `limit` digits is rejected. -/
theorem decode_encode_eq_none (h : 128 ^ limit ≤ n) (rest : List UInt8) :
    decode limit (encode n ++ rest) = none := by
  induction limit generalizing n with
  | zero => rfl
  | succ limit ih =>
    have hn : 128 ≤ n := Nat.le_trans (Nat.le_self_pow (Nat.succ_ne_zero limit) 128) h
    have hdiv : 128 ^ limit ≤ n / 128 := by
      rw [Nat.le_div_iff_mul_le (by decide)]
      exact h
    rw [encode_of_le hn, List.cons_append, decode_cons_of_le (by rw [toNat_digit]; omega), ih hdiv,
      Option.map_none]

/-! ## Fields -/

/-- A field: its last byte alone has its high bit clear. -/
inductive IsField : List UInt8 → Prop where
  | last {b : UInt8} (h : b.toNat < 128) : IsField [b]
  | digit {b : UInt8} {bytes : List UInt8} (h : 128 ≤ b.toNat) (hbytes : IsField bytes) :
    IsField (b :: bytes)

/-- The number that a field carries: seven bits a byte, the lowest first. -/
def fieldValue : List UInt8 → ℕ
  | [] => 0
  | b :: bytes => b.toNat % 128 + 128 * fieldValue bytes

/-- A field has a byte at least. -/
theorem IsField.length_pos {bytes : List UInt8} (h : IsField bytes) : 0 < bytes.length := by
  cases h <;> exact Nat.succ_pos _

/-- A field ends with the byte that has no continuation bit. -/
theorem IsField.eq_append_last {field : List UInt8} (h : IsField field) :
    ∃ init b, field = init ++ [b] ∧ b.toNat < 128 := by
  induction h with
  | @last b h => exact ⟨[], b, rfl, h⟩
  | @digit b bytes _ _ ih =>
    obtain ⟨init, c, rfl, hc⟩ := ih
    exact ⟨b :: init, c, rfl, hc⟩

/-- Every byte of a field but the last has its high bit set. -/
theorem IsField.le_of_mem_take {field : List UInt8} (h : IsField field) {k : ℕ} {b : UInt8}
    (hb : b ∈ field.take k) (hk : k < field.length) : 128 ≤ b.toNat := by
  induction h generalizing k with
  | last =>
    rw [List.length_singleton, Nat.lt_one_iff] at hk
    simp [hk] at hb
  | digit hdigit _ ih =>
    cases k with
    | zero => simp at hb
    | succ k =>
      rcases List.mem_cons.1 hb with rfl | hb
      · exact hdigit
      · exact ih hb (Nat.lt_of_succ_lt_succ hk)

/-- A byte of a field is its last one exactly when its high bit is clear. -/
theorem IsField.rest_eq_nil_iff {init rest : List UInt8} {b : UInt8}
    (h : IsField (init ++ b :: rest)) : rest = [] ↔ b.toNat < 128 := by
  constructor
  · rintro rfl
    obtain ⟨init', last, heq, hlast⟩ := h.eq_append_last
    obtain ⟨-, hb⟩ := List.append_inj' heq rfl
    rwa [List.singleton_inj.1 hb]
  · intro hb
    by_contra hrest
    have hpos := List.length_pos_iff.2 hrest
    -- Before the last byte the high bit is set.
    refine absurd hb (Nat.not_lt.2 (h.le_of_mem_take (k := init.length + 1) ?_ ?_))
    · rw [List.take_length_add_append, List.take_succ_cons]
      exact List.mem_append_right _ List.mem_cons_self
    · rw [List.length_append, List.length_cons]
      omega

/-- So many bytes spell a number of seven bits for each. -/
theorem fieldValue_lt (bytes : List UInt8) : fieldValue bytes < 128 ^ bytes.length := by
  induction bytes with
  | nil => exact Nat.one_pos
  | cons b bytes ih =>
    have hmod := Nat.mod_lt b.toNat (by decide : 128 > 0)
    rw [fieldValue, List.length_cons, Nat.pow_succ]
    omega

/-- What is written is a field, which carries the number. -/
theorem isField_encode (n : ℕ) : IsField (encode n) ∧ fieldValue (encode n) = n := by
  induction n using encode.induct with
  | case1 n h =>
    rw [encode_of_lt h, fieldValue, fieldValue, toNat_last h]
    exact ⟨.last (by rwa [toNat_last h]), by omega⟩
  | case2 n h ih =>
    obtain ⟨hfield, hvalue⟩ := ih
    rw [encode_of_le (Nat.not_lt.1 h), fieldValue, hvalue, toNat_digit]
    exact ⟨.digit (by rw [toNat_digit]; omega) hfield, by omega⟩

/-- The reader reads a field of at most `limit` bytes, whatever follows it, and nothing else. -/
theorem decode_eq_some {bytes : List UInt8} {size : ℕ} :
    decode limit bytes = some (n, size) ↔
      ∃ field rest, bytes = field ++ rest ∧ IsField field ∧ field.length ≤ limit ∧
        n = fieldValue field ∧ size = field.length := by
  induction limit generalizing bytes n size with
  | zero =>
    refine iff_of_false (by simp [decode]) ?_
    rintro ⟨field, rest, -, hfield, hle, -⟩
    exact absurd hfield.length_pos (Nat.not_lt.2 hle)
  | succ limit ih =>
    cases bytes with
    | nil =>
      refine iff_of_false (by simp [decode]) ?_
      rintro ⟨field, rest, hbytes, hfield, -⟩
      rw [(List.append_eq_nil_iff.1 hbytes.symm).1] at hfield
      exact absurd hfield.length_pos (Nat.lt_irrefl 0)
    | cons b bytes =>
      rcases Nat.lt_or_ge b.toNat 128 with hb | hb
      -- The byte is the field.
      · rw [decode_cons_of_lt hb, Option.some.injEq, Prod.mk.injEq]
        constructor
        · rintro ⟨rfl, rfl⟩
          exact ⟨[b], bytes, rfl, .last hb, Nat.succ_le_succ (Nat.zero_le _),
            by rw [fieldValue, fieldValue]; omega, rfl⟩
        · rintro ⟨field, rest, hbytes, hfield, -, rfl, rfl⟩
          cases hfield with
          | last h =>
            obtain ⟨rfl, -⟩ := List.cons.inj hbytes
            exact ⟨by rw [fieldValue, fieldValue]; omega, rfl⟩
          | digit h =>
            obtain ⟨rfl, -⟩ := List.cons.inj hbytes
            exact absurd hb (Nat.not_lt.2 h)
      -- The byte is a digit, and the rest of the field follows.
      · rw [decode_cons_of_le hb, Option.map_eq_some_iff]
        constructor
        · rintro ⟨⟨m, k⟩, hdec, heq⟩
          obtain ⟨field, rest, rfl, hfield, hle, rfl, rfl⟩ := ih.1 hdec
          obtain ⟨rfl, rfl⟩ := Prod.mk.inj heq
          have hbyte := b.toNat_lt
          exact ⟨b :: field, rest, rfl, .digit hb hfield, Nat.succ_le_succ hle,
            by rw [fieldValue]; omega, rfl⟩
        · rintro ⟨field, rest, hbytes, hfield, hle, rfl, rfl⟩
          cases hfield with
          | last h =>
            obtain ⟨rfl, -⟩ := List.cons.inj hbytes
            exact absurd h (Nat.not_lt.2 hb)
          | @digit c field h hfield =>
            obtain ⟨rfl, rfl⟩ := List.cons.inj hbytes
            have hbyte := b.toNat_lt
            refine ⟨(fieldValue field, field.length), ih.2 ⟨field, rest, rfl, hfield,
              Nat.le_of_succ_le_succ hle, rfl, rfl⟩, ?_⟩
            rw [fieldValue]
            exact Prod.ext (by show _ - _ + _ = _ + _; omega) rfl

/-- A number below `128 ^ (limit + 1)` takes `limit + 1` digits at most. -/
theorem length_encode_le (h : n < 128 ^ (limit + 1)) : (encode n).length ≤ limit + 1 := by
  obtain ⟨field, rest, -, -, hle, -, hsize⟩ := decode_eq_some.1 (decode_encode h [])
  rwa [hsize]

/-- Two fields at the start of the same bytes are the same. -/
theorem IsField.eq_of_append_eq {field field' : List UInt8} (h : IsField field)
    (h' : IsField field') {rest rest' : List UInt8} (heq : field ++ rest = field' ++ rest') :
    field = field' ∧ rest = rest' := by
  induction h generalizing field' with
  | last hb =>
    cases h' with
    | last => simpa using heq
    | digit hb' => exact absurd hb (Nat.not_lt.2 ((List.cons.inj heq).1 ▸ hb'))
  | digit hb _ ih =>
    cases h' with
    | last hb' => exact absurd hb' (Nat.not_lt.2 ((List.cons.inj heq).1 ▸ hb))
    | digit _ hfield' =>
      obtain ⟨rfl, hrest⟩ := List.cons.inj heq
      obtain ⟨rfl, rfl⟩ := ih hfield' hrest
      exact ⟨rfl, rfl⟩

end Launa.Varint
