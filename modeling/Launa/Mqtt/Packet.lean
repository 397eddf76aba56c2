import Launa.Lib.Checked
import Launa.Lib.Varint
import Mathlib.Tactic.Ring

/-!
# The fixed header of an MQTT packet

A packet starts with a type byte and the number of bytes that follow the header, a number of a
variable length (`encodeRemainingLength_eq`). The decoder of `packet.rs` takes up to five digits
(`decodeRemainingLength_cons`), one more than MQTT allows. A `usize` is a natural number here: of
the lengths that the decoder computes none reaches `2^36`. In `decodeRemainingLength32` it has the
32 bits of the ESP32, and there the fifth digit overflows (`decodesField_iff`).
-/

namespace Launa.Mqtt

open Checked

/-- `encode_remaining_length`: what it appends to the buffer. -/
def encodeRemainingLength (len : ℕ) : List UInt8 :=
  let byte := UInt8.ofNat (len &&& 0x7F)
  let len' := len >>> 7
  if 0 < len' then (byte ||| 0x80) :: encodeRemainingLength len' else [byte]
termination_by len
decreasing_by
  rw [Nat.shiftRight_eq_div_pow]
  have h : 0 < len >>> 7 := by assumption
  rw [Nat.shiftRight_eq_div_pow] at h
  omega

/-- The loop of `decode_remaining_length`, of which the bytes from `idx` on are left. -/
def decodeLoop : List UInt8 → ℕ → ℕ → ℕ → Option (ℕ × ℕ)
  | [], _, _, _ => none
  | byte :: rest, multiplier, value, idx =>
    let value' := value + (byte &&& 0x7F).toNat * multiplier
    let multiplier' := multiplier * 128
    if byte &&& 0x80 = 0 then some (value', idx + 1)
    else if multiplier' > 128 * 128 * 128 * 128 then none
    else decodeLoop rest multiplier' value' (idx + 1)

/-- `decode_remaining_length`: the remaining length, and the size of the header. -/
def decodeRemainingLength : List UInt8 → Option (ℕ × ℕ)
  | [] => none
  | _ :: rest => decodeLoop rest 1 0 1

/-- The loop of `decode_remaining_length` with a `usize` of 32 bits, as the ESP32 has it. `none` is
a step that overflows. -/
def decodeLoop32 : List UInt8 → ℕ → ℕ → ℕ → Option (Option (ℕ × ℕ))
  | [], _, _, _ => some none
  | byte :: rest, multiplier, value, idx => do
    let digit ← mul32 (byte &&& 0x7F).toNat multiplier
    let value' ← add32 value digit
    let multiplier' ← mul32 multiplier 128
    let idx' ← add32 idx 1
    if byte &&& 0x80 = 0 then some (some (value', idx'))
    else if multiplier' > 128 * 128 * 128 * 128 then some none
    else decodeLoop32 rest multiplier' value' idx'

/-- `decode_remaining_length` with a `usize` of 32 bits. -/
def decodeRemainingLength32 : List UInt8 → Option (Option (ℕ × ℕ))
  | [] => some none
  | _ :: rest => decodeLoop32 rest 1 0 1

/-- `try_extract_packet`: the packet at the front of the buffer, and the buffer after it. -/
def tryExtractPacket (buffer : List UInt8) : Option (List UInt8) × List UInt8 :=
  if buffer.length < 2 then (none, buffer)
  else match decodeRemainingLength buffer with
    | none => (none, buffer)
    | some (remainingLen, headerSize) =>
      let totalSize := headerSize + remainingLen
      if totalSize ≤ buffer.length then (some (buffer.take totalSize), buffer.drop totalSize)
      else (none, buffer)

-- The longest remaining length of MQTT takes four digits.
example : decodeRemainingLength [0x30, 0xFF, 0xFF, 0xFF, 0x7F] = some (268435455, 5) := by decide

/-! ## The digits -/

/-- Masking the low bits takes the rest modulo 128. -/
theorem and_low (n : ℕ) : n &&& 0x7F = n % 128 := Nat.and_two_pow_sub_one_eq_mod n 7

/-- The low bits of a byte are its rest modulo 128. -/
theorem toNat_and_low (b : UInt8) : (b &&& 0x7F).toNat = b.toNat % 128 := by
  rw [UInt8.toNat_and]
  exact and_low b.toNat

/-- The high bit of a byte. -/
theorem and_high (b : UInt8) : b &&& 0x80 = 0 ↔ b.toNat < 128 := by
  have hall : ∀ n < 256, n &&& 0x80 = 0 ↔ n < 128 := by decide +kernel
  rw [← UInt8.toNat_inj, UInt8.toNat_and]
  exact hall b.toNat b.toNat_lt

/-- Setting the high bit. -/
theorem toNat_or_high {b : UInt8} (h : b.toNat < 128) : (b ||| 0x80).toNat = b.toNat + 128 := by
  rw [UInt8.toNat_or, Nat.or_comm]
  have hor := Nat.two_pow_add_eq_or_of_lt (i := 7) h 1
  rw [Nat.mul_one] at hor
  exact hor.symm.trans (Nat.add_comm _ _)

/-- The remaining length is a number of a variable length. -/
theorem encodeRemainingLength_eq (len : ℕ) : encodeRemainingLength len = Varint.encode len := by
  have hshift : ∀ n : ℕ, n >>> 7 = n / 128 := fun n => Nat.shiftRight_eq_div_pow n 7
  have hbyte : ∀ n : ℕ, (UInt8.ofNat (n &&& 0x7F)).toNat = n % 128 := by
    intro n
    rw [and_low, UInt8.toNat_ofNat']
    omega
  fun_induction encodeRemainingLength len with
  -- A digit with the high bit set, and the digits of the rest.
  | case1 len byte len' h ih =>
    have hlen : 128 ≤ len := by
      simp only [len', hshift] at h
      omega
    rw [ih, Varint.encode_of_le hlen]
    congr 1
    · rw [← UInt8.toNat_inj, toNat_or_high (by rw [hbyte]; omega), hbyte, Varint.toNat_digit]
    · exact congrArg _ (hshift len)
  -- The last digit.
  | case2 len byte len' h =>
    have hlen : len < 128 := by
      simp only [len', hshift] at h
      omega
    rw [Varint.encode_of_lt hlen]
    congr 1
    rw [← UInt8.toNat_inj, hbyte, Varint.toNat_last hlen, Nat.mod_eq_of_lt hlen]

/-- With `limit` more digits to go after this one, the loop adds the number that it finds to the
value, and its digits to the index. -/
theorem decodeLoop_eq {limit : ℕ} (h : limit ≤ 4) (bytes : List UInt8) (value idx : ℕ) :
    decodeLoop bytes (128 ^ (4 - limit)) value idx =
      (Varint.decode (limit + 1) bytes).map fun (n, size) =>
        (value + n * 128 ^ (4 - limit), idx + size) := by
  induction limit generalizing bytes value idx with
  -- The last digit that the loop takes.
  | zero =>
    cases bytes with
    | nil => rfl
    | cons b bytes =>
      rw [decodeLoop]
      by_cases hb : b.toNat < 128
      · rw [if_pos ((and_high b).2 hb), Varint.decode_cons_of_lt hb, toNat_and_low,
          Nat.mod_eq_of_lt hb]
        rfl
      · rw [if_neg (mt (and_high b).1 hb), Varint.decode_cons_of_le (Nat.not_lt.1 hb)]
        rfl
  | succ limit ih =>
    have hpow : 128 ^ (4 - (limit + 1)) * 128 = 128 ^ (4 - limit) := by
      rw [← Nat.pow_succ]
      congr 1
      omega
    cases bytes with
    | nil => rfl
    | cons b bytes =>
      rw [decodeLoop]
      by_cases hb : b.toNat < 128
      · rw [if_pos ((and_high b).2 hb), Varint.decode_cons_of_lt hb, toNat_and_low,
          Nat.mod_eq_of_lt hb]
        rfl
      · have hle : 128 ^ (4 - limit) ≤ 128 ^ 4 := Nat.pow_le_pow_right (by decide) (by omega)
        have hbyte := b.toNat_lt
        have hmod : b.toNat % 128 = b.toNat - 128 := by omega
        rw [if_neg (mt (and_high b).1 hb), Varint.decode_cons_of_le (Nat.not_lt.1 hb), hpow,
          if_neg (Nat.not_lt.2 (by exact hle)), ih (by omega), Option.map_map, toNat_and_low, hmod]
        congr 1
        funext ⟨n, size⟩
        -- The digit is worth `128 ^ (4 - (limit + 1))`, and those behind it 128 times as much.
        refine Prod.ext ?_ ?_
        · show value + _ * _ + n * 128 ^ (4 - limit) = value + (_ + 128 * n) * _
          rw [← hpow]
          ring
        · show idx + 1 + size = idx + (size + 1)
          omega

/-- The remaining length is a number of at most five digits. -/
theorem decodeRemainingLength_cons (b : UInt8) (bytes : List UInt8) :
    decodeRemainingLength (b :: bytes) =
      (Varint.decode 5 bytes).map fun (n, size) => (n, 1 + size) := by
  rw [decodeRemainingLength]
  have hloop := decodeLoop_eq (Nat.le_refl 4) bytes 0 1
  rw [Nat.sub_self, Nat.pow_zero] at hloop
  rw [hloop]
  congr 1
  funext ⟨n, size⟩
  dsimp only
  rw [Nat.zero_add, Nat.mul_one]

/-! ## The fifth digit -/

/-- A remaining length that goes on after the fourth of its bytes. -/
def GoesOn (buf : List UInt8) : Prop := 5 < buf.length ∧ ∀ b ∈ (buf.drop 1).take 4, 128 ≤ b.toNat

instance (buf : List UInt8) : Decidable (GoesOn buf) :=
  @instDecidableAnd _ _ _ (List.decidableBAll _ _)

/-- The first `limit` bytes are digits that go on, and there is a byte behind them. -/
def DigitsGoOn (limit : ℕ) (bytes : List UInt8) : Prop :=
  limit < bytes.length ∧ ∀ b ∈ bytes.take limit, 128 ≤ b.toNat

instance (limit : ℕ) (bytes : List UInt8) : Decidable (DigitsGoOn limit bytes) :=
  @instDecidableAnd _ _ _ (List.decidableBAll _ _)

/-- Behind a digit that goes on the others have to go on. -/
theorem digitsGoOn_succ_iff {limit : ℕ} {b : UInt8} {bytes : List UInt8} (hb : 128 ≤ b.toNat) :
    DigitsGoOn (limit + 1) (b :: bytes) ↔ DigitsGoOn limit bytes := by
  rw [DigitsGoOn, DigitsGoOn, List.length_cons, Nat.add_lt_add_iff_right, List.take_succ_cons,
    List.forall_mem_cons, and_iff_right hb]

/-- With `limit` more digits to go, no step of the loop overflows 32 bits and it is the loop of the
natural numbers, unless the digits go on after them. -/
theorem decodeLoop32_eq {limit : ℕ} (h : limit ≤ 4) (bytes : List UInt8) (value : ℕ)
    (hvalue : value < 128 ^ (4 - limit)) :
    decodeLoop32 bytes (128 ^ (4 - limit)) value (5 - limit) =
      if DigitsGoOn limit bytes then none
      else some (decodeLoop bytes (128 ^ (4 - limit)) value (5 - limit)) := by
  induction limit generalizing bytes value with
  -- The fifth digit: the multiplier leaves the word, whatever the digit is.
  | zero =>
    cases bytes with
    | nil => rfl
    | cons b bytes =>
      have hmul : mul32 (128 ^ 4) 128 = none := mul32_of_le (by decide)
      rw [if_pos ⟨Nat.succ_pos _, fun _ hb => absurd hb List.not_mem_nil⟩]
      simp only [decodeLoop32, Option.bind_eq_bind, Option.bind_eq_none_iff, Nat.sub_zero]
      intro digit _ value' _ multiplier' hmultiplier
      rw [hmul] at hmultiplier
      exact absurd hmultiplier (Option.some_ne_none _).symm
  | succ limit ih =>
    cases bytes with
    | nil => rfl
    | cons b bytes =>
      have hpow : 128 ^ (4 - (limit + 1)) * 128 = 128 ^ (4 - limit) := by
        rw [← Nat.pow_succ]
        congr 1
        omega
      have hle : 128 ^ (4 - limit) ≤ 128 ^ 4 := Nat.pow_le_pow_right (by decide) (by omega)
      have hdigit : (b &&& 0x7F).toNat < 128 := by
        rw [toNat_and_low]
        exact Nat.mod_lt _ (by decide)
      have hsum : value + (b &&& 0x7F).toNat * 128 ^ (4 - (limit + 1)) < 128 ^ (4 - limit) := by
        calc value + (b &&& 0x7F).toNat * 128 ^ (4 - (limit + 1))
            < 128 ^ (4 - (limit + 1)) + 127 * 128 ^ (4 - (limit + 1)) :=
              Nat.add_lt_add_of_lt_of_le hvalue
                (Nat.mul_le_mul_right _ (Nat.le_of_lt_succ hdigit))
          _ = 128 ^ (4 - (limit + 1)) * 128 := by ring
          _ = 128 ^ (4 - limit) := hpow
      simp only [decodeLoop32, decodeLoop, Option.bind_eq_bind]
      rw [mul32_of_lt (by omega), Option.bind_some, add32_of_lt (by omega), Option.bind_some,
        mul32_of_lt (by omega), Option.bind_some, add32_of_lt (by omega), Option.bind_some, hpow]
      by_cases hb : b.toNat < 128
      · rw [if_pos ((and_high b).2 hb), if_pos ((and_high b).2 hb), if_neg]
        rintro ⟨-, hall⟩
        exact absurd (hall b List.mem_cons_self) (Nat.not_le.2 hb)
      · have hidx : 5 - (limit + 1) + 1 = 5 - limit := by omega
        rw [if_neg (mt (and_high b).1 hb), if_neg (mt (and_high b).1 hb),
          if_neg (Nat.not_lt.2 (by exact hle)), if_neg (Nat.not_lt.2 (by exact hle)), hidx,
          ih (by omega) bytes _ hsum]
        simp only [digitsGoOn_succ_iff (Nat.not_lt.1 hb)]

/-- On a 32-bit `usize` a step overflows exactly when the digits go on. -/
theorem decodeRemainingLength32_eq (buf : List UInt8) :
    decodeRemainingLength32 buf =
      if GoesOn buf then none else some (decodeRemainingLength buf) := by
  cases buf with
  | nil => rfl
  | cons b bytes =>
    rw [decodeRemainingLength32, decodeRemainingLength]
    have hloop := decodeLoop32_eq (Nat.le_refl 4) bytes 0 Nat.one_pos
    rw [Nat.sub_self, Nat.pow_zero] at hloop
    have hon : GoesOn (b :: bytes) ↔ DigitsGoOn 4 bytes := and_congr_left' Nat.succ_lt_succ_iff
    rw [hloop]
    simp only [hon]

/-- What MQTT asks of the decoder on a buffer: no step overflows 32 bits, and a result says that a
field of one to four bytes follows the first byte, and which. -/
structure DecodesField (buf : List UInt8) : Prop where
  /-- The 32-bit decoder does not overflow, and returns what the natural numbers do. -/
  fits : decodeRemainingLength32 buf = some (decodeRemainingLength buf)
  /-- It returns exactly the field's value and the size of the header. -/
  eq_some : ∀ value size, decodeRemainingLength buf = some (value, size) ↔
    ∃ kind field rest, buf = kind :: (field ++ rest) ∧ Varint.IsField field ∧ field.length ≤ 4 ∧
      value = Varint.fieldValue field ∧ size = 1 + field.length
  /-- The value is no larger than MQTT's. -/
  le : ∀ value size, decodeRemainingLength buf = some (value, size) → value ≤ 268435455

/-- The fields that the decoder reads, of five bytes at most. -/
theorem decodeRemainingLength_eq_some {buf : List UInt8} {value size : ℕ} :
    decodeRemainingLength buf = some (value, size) ↔
      ∃ kind field rest, buf = kind :: (field ++ rest) ∧ Varint.IsField field ∧
        field.length ≤ 5 ∧ value = Varint.fieldValue field ∧ size = 1 + field.length := by
  cases buf with
  | nil => simp [decodeRemainingLength]
  | cons b bytes =>
    rw [decodeRemainingLength_cons, Option.map_eq_some_iff]
    constructor
    · rintro ⟨⟨n, k⟩, hdec, heq⟩
      obtain ⟨rfl, rfl⟩ := Prod.mk.inj heq
      obtain ⟨field, rest, rfl, hfield, hle, rfl, rfl⟩ := Varint.decode_eq_some.1 hdec
      exact ⟨b, field, rest, rfl, hfield, hle, rfl, rfl⟩
    · rintro ⟨kind, field, rest, hbuf, hfield, hle, rfl, rfl⟩
      obtain ⟨rfl, rfl⟩ := List.cons.inj hbuf
      exact ⟨_, Varint.decode_eq_some.2 ⟨field, rest, rfl, hfield, hle, rfl, rfl⟩, rfl⟩

/-- A field of four bytes at most does not go on. -/
theorem not_goesOn {field : List UInt8} (hfield : Varint.IsField field) (hle : field.length ≤ 4)
    (kind : UInt8) (rest : List UInt8) : ¬ GoesOn (kind :: (field ++ rest)) := by
  rintro ⟨-, hall⟩
  obtain ⟨init, b, rfl, hb⟩ := hfield.eq_append_last
  refine absurd (hall b ?_) (Nat.not_le.2 hb)
  rw [List.drop_one, List.tail_cons, List.take_append, List.take_of_length_le hle]
  simp

/-- A field that does not go on has four bytes at most. -/
theorem length_le_of_not_goesOn {kind : UInt8} {field rest : List UInt8}
    (h : ¬ GoesOn (kind :: (field ++ rest))) (hfield : Varint.IsField field)
    (hle : field.length ≤ 5) : field.length ≤ 4 := by
  by_contra hlen
  have hfive : field.length = 5 := by omega
  have hlong : 5 < (kind :: (field ++ rest)).length := by
    rw [List.length_cons, List.length_append, hfive]
    omega
  refine h ⟨hlong, fun b hb => ?_⟩
  rw [List.drop_one, List.tail_cons, List.take_append_of_le_length (by omega)] at hb
  exact hfield.le_of_mem_take hb (by omega)

/-- The length that MQTT allows is read back on 32 bits, whatever follows it. -/
theorem decodeRemainingLength32_encode {len : ℕ} (h : len ≤ 268435455) (kind : UInt8)
    (rest : List UInt8) :
    decodeRemainingLength32 (kind :: (encodeRemainingLength len ++ rest)) =
      some (some (len, 1 + (encodeRemainingLength len).length)) := by
  rw [encodeRemainingLength_eq]
  have hlen : (Varint.encode len).length ≤ 3 + 1 := Varint.length_encode_le (by omega)
  have hon := not_goesOn (Varint.isField_encode len).1 hlen kind rest
  rw [decodeRemainingLength32_eq, if_neg hon, decodeRemainingLength_cons,
    Varint.decode_encode (by omega), Option.map_some]

/-- The decoder does on a buffer what MQTT asks exactly when the digits do not go on, and it reads
back, on 32 bits, every length that MQTT allows, whatever follows it. -/
theorem decodesField_iff (buf : List UInt8) :
    (DecodesField buf ↔ ¬ GoesOn buf) ∧
    ∀ len ≤ 268435455, ∀ kind rest,
      decodeRemainingLength32 (kind :: (encodeRemainingLength len ++ rest)) =
        some (some (len, 1 + (encodeRemainingLength len).length)) := by
  refine ⟨⟨fun h hon => ?_, fun hon => ⟨?_, fun value size => ?_, ?_⟩⟩,
    fun len hlen kind rest => decodeRemainingLength32_encode hlen kind rest⟩
  · have hfits := h.fits
    rw [decodeRemainingLength32_eq, if_pos hon] at hfits
    exact absurd hfits (Option.some_ne_none _).symm
  · rw [decodeRemainingLength32_eq, if_neg hon]
  · rw [decodeRemainingLength_eq_some]
    constructor
    · rintro ⟨kind, field, rest, rfl, hfield, hle, hvalue, hsize⟩
      exact ⟨kind, field, rest, rfl, hfield, length_le_of_not_goesOn hon hfield hle, hvalue, hsize⟩
    · rintro ⟨kind, field, rest, rfl, hfield, hle, hvalue, hsize⟩
      exact ⟨kind, field, rest, rfl, hfield, by omega, hvalue, hsize⟩
  · intro value size hdec
    obtain ⟨kind, field, rest, rfl, hfield, hle, rfl, rfl⟩ := decodeRemainingLength_eq_some.1 hdec
    have hlt := Varint.fieldValue_lt field
    have hpow : 128 ^ field.length ≤ 128 ^ 4 :=
      Nat.pow_le_pow_right (by decide) (length_le_of_not_goesOn hon hfield hle)
    omega

/-- A PINGRESP, and the longest length that MQTT allows. -/
theorem decodesField_pingresp :
    DecodesField [0xD0, 0x00] ∧
      decodeRemainingLength32 (0x30 :: (encodeRemainingLength 268435455 ++ [])) =
        some (some (268435455, 1 + (encodeRemainingLength 268435455).length)) :=
  ⟨(decodesField_iff _).1.2 (by decide), (decodesField_iff []).2 _ (Nat.le_refl _) _ _⟩

/-- Five digits, the last of them zero: the natural numbers read a length of a form that MQTT does
not have, and on 32 bits the multiplier overflows. -/
theorem not_decodesField :
    decodeRemainingLength [0x30, 0x80, 0x80, 0x80, 0x80, 0x00] = some (0, 6) ∧
      decodeRemainingLength32 [0x30, 0x80, 0x80, 0x80, 0x80, 0x00] = none ∧
      ¬ ∀ buf, DecodesField buf := by
  refine ⟨by decide, by decide, fun h => ?_⟩
  have hfits := (h [0x30, 0x80, 0x80, 0x80, 0x80, 0x00]).fits
  exact absurd hfits (by decide)

end Launa.Mqtt
