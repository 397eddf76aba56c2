import Launa.Lib.Utf8Bytes
import Launa.Mqtt.Codec

/-!
# Hexadecimal texts

`hex.rs`. The decoder goes by the bytes of a text, two at a time. A text that it accepts has no
other bytes than those of hex digits, so that it has as many characters, and they are what the
encoder writes for the result, but for their case (`toHex_of_fromHex`).
-/

namespace Launa.Protocol

open Mqtt Utf8Bytes

/-- `HEX_CHARS`. -/
def hexChars : List Char :=
  ['0', '1', '2', '3', '4', '5', '6', '7', '8', '9', 'a', 'b', 'c', 'd', 'e', 'f']

/-- The two characters of a byte. -/
def hexPair (b : UInt8) : List Char :=
  [hexChars.getD (b >>> 4).toNat '0', hexChars.getD (b &&& 0x0F).toNat '0']

/-- `to_hex`. -/
def toHex (bytes : List UInt8) : String := .ofList (bytes.flatMap hexPair)

/-- `MAX_HEX_LEN`. -/
def maxHexLen : ℕ := 1024

/-- `u8::to_ascii_lowercase`. -/
def toAsciiLowercase (b : UInt8) : UInt8 := if 0x41 ≤ b ∧ b ≤ 0x5A then b + 0x20 else b

/-- `decode_nibble`. -/
def decodeNibble (byte : UInt8) : Option UInt8 :=
  let lower := toAsciiLowercase byte
  if 0x30 ≤ lower ∧ lower ≤ 0x39 then some (byte - 0x30)
  else if 0x61 ≤ lower ∧ lower ≤ 0x66 then some (lower - 0x61 + 10)
  else none

/-- The bytes of the pairs of nibbles. A last byte without a partner is left out. -/
def decodePairs : List UInt8 → Option (List UInt8)
  | first :: second :: rest => do
    let hi ← decodeNibble first
    let lo ← decodeNibble second
    let bytes ← decodePairs rest
    return (hi <<< 4 ||| lo) :: bytes
  | _ => some []

/-- `from_hex`. -/
def fromHex (hex : String) : Option (List UInt8) :=
  let bytes := asBytes hex
  if bytes.length % 2 ≠ 0 ∨ maxHexLen < bytes.length then none else decodePairs bytes

/-- A hex digit, in either case. -/
def isHexDigit (c : Char) : Bool :=
  c.isDigit || ('a' ≤ c && c ≤ 'f') || ('A' ≤ c && c ≤ 'F')

/-! ## One nibble -/

/-- What is checked of every number below 256 holds of every byte. -/
theorem forall_byte {P : UInt8 → Prop} (h : ∀ n < 256, P (UInt8.ofNat n)) (b : UInt8) : P b := by
  have hb := h b.toNat b.toNat_lt
  rwa [UInt8.ofNat_toNat] at hb

/-- A byte is decoded exactly if it is a hex digit. -/
theorem isSome_decodeNibble :
    ∀ b : UInt8, (decodeNibble b).isSome = isHexDigit (Char.ofNat b.toNat) :=
  forall_byte (by decide +kernel)

/-- A decoded byte is the digit of its value, but for the case. -/
theorem hexChars_decodeNibble :
    ∀ b : UInt8, (decodeNibble b).all fun n =>
      n < 16 && hexChars.getD n.toNat '0' == (Char.ofNat b.toNat).toLower :=
  forall_byte (by decide +kernel)

/-- The characters of a byte are among the sixteen. -/
theorem mem_hexChars_of_mem_hexPair {b : UInt8} {c : Char} (hc : c ∈ hexPair b) :
    c ∈ hexChars := by
  have hget : ∀ n < 16, hexChars.getD n '0' ∈ hexChars := by decide
  have hhigh : (b >>> 4).toNat < 16 := by
    have hb := b.toNat_lt
    have hshift : (b >>> 4).toNat = b.toNat / 2 ^ 4 := by
      rw [UInt8.toNat_shiftRight, Nat.shiftRight_eq_div_pow]
      rfl
    omega
  have hlow : (b &&& 0x0F).toNat < 16 := by
    rw [UInt8.toNat_and]
    exact Nat.lt_of_le_of_lt Nat.and_le_right (by decide)
  rw [hexPair, List.mem_cons, List.mem_singleton] at hc
  rcases hc with rfl | rfl
  · exact hget _ hhigh
  · exact hget _ hlow

/-- The two characters of a byte are the bytes of its nibbles. -/
theorem bytes_hexPair (b : UInt8) : ∃ first second, bytes (hexPair b) = [first, second] ∧
    decodeNibble first = some (b >>> 4) ∧ decodeNibble second = some (b &&& 0x0F) := by
  have hpair : ∀ b : UInt8, bytes (hexPair b) = (hexPair b).map (fun c => UInt8.ofNat c.toNat) ∧
      (hexPair b).map (fun c => decodeNibble (UInt8.ofNat c.toNat)) =
        [some (b >>> 4), some (b &&& 0x0F)] := forall_byte (by decide +kernel)
  obtain ⟨hbytes, hdecode⟩ := hpair b
  have ⟨hfirst, hrest⟩ := List.cons.inj hdecode
  exact ⟨_, _, hbytes, hfirst, (List.cons.inj hrest).1⟩

/-- A byte is put together from its nibbles. -/
theorem nibbles_or : ∀ b : UInt8, b >>> 4 <<< 4 ||| (b &&& 0x0F) = b :=
  forall_byte (by decide +kernel)

/-- The nibbles of a byte that was put together. -/
theorem hexPair_or {hi lo : UInt8} (hhi : hi < 16) (hlo : lo < 16) :
    hexPair (hi <<< 4 ||| lo) = [hexChars.getD hi.toNat '0', hexChars.getD lo.toNat '0'] := by
  have hnibbles : ∀ m < 16, ∀ n < 16, hexPair (UInt8.ofNat m <<< 4 ||| UInt8.ofNat n) =
      [hexChars.getD m '0', hexChars.getD n '0'] := by decide +kernel
  have := hnibbles hi.toNat (UInt8.lt_iff_toNat_lt.1 hhi) lo.toNat (UInt8.lt_iff_toNat_lt.1 hlo)
  rwa [UInt8.ofNat_toNat, UInt8.ofNat_toNat] at this

/-! ## Whole texts -/

variable {bs out : List UInt8}

/-- The bytes of an encoded list are decoded. -/
theorem decodePairs_bytes (bs : List UInt8) :
    decodePairs (bytes (bs.flatMap hexPair)) = some bs := by
  induction bs with
  | nil => rfl
  | cons b bs ih =>
    obtain ⟨first, second, hpair, hfirst, hsecond⟩ := bytes_hexPair b
    rw [List.flatMap_cons, bytes_append, hpair, List.cons_append, List.cons_append,
      List.nil_append, decodePairs, hfirst, hsecond, ih]
    exact congrArg (fun b => some (b :: bs)) (nibbles_or b)

/-- Each byte is spelled in two. -/
theorem length_bytes_hexPair (bs : List UInt8) :
    (bytes (bs.flatMap hexPair)).length = 2 * bs.length := by
  induction bs with
  | nil => rfl
  | cons b bs ih =>
    obtain ⟨first, second, hpair, -⟩ := bytes_hexPair b
    rw [List.flatMap_cons, bytes_append, hpair, List.length_append, ih]
    simp only [List.length_cons, List.length_nil]
    omega

/-- The spelling has a pair of digits for each byte. -/
theorem asBytes_toHex (bs : List UInt8) : asBytes (toHex bs) = bytes (bs.flatMap hexPair) :=
  toList_toByteArray_ofList _

/-- What is encoded is decoded, up to the limit. -/
theorem fromHex_toHex (h : bs.length ≤ 512) : fromHex (toHex bs) = some bs := by
  have hlength := length_bytes_hexPair bs
  have hpass : ¬((bytes (bs.flatMap hexPair)).length % 2 ≠ 0 ∨
      maxHexLen < (bytes (bs.flatMap hexPair)).length) := by
    rw [hlength, maxHexLen]
    omega
  rw [fromHex, asBytes_toHex]
  exact (if_neg hpass).trans (decodePairs_bytes bs)

/-- An even number of bytes is decoded exactly if every one of them is. -/
theorem isSome_decodePairs_iff (heven : bs.length % 2 = 0) :
    (decodePairs bs).isSome ↔ ∀ b ∈ bs, (decodeNibble b).isSome := by
  induction bs using decodePairs.induct with
  | case1 first second rest ih =>
    have hrest : rest.length % 2 = 0 := by
      rw [List.length_cons, List.length_cons] at heven
      omega
    rw [List.forall_mem_cons, List.forall_mem_cons, ← ih hrest, decodePairs]
    cases decodeNibble first <;> cases decodeNibble second <;> cases decodePairs rest <;> simp
  | case2 bs hshort =>
    match bs, heven, hshort with
    | [], _, _ => simp [decodePairs]
    | first :: second :: rest, _, hshort => exact absurd rfl (hshort first second rest)

/-- The digits of what is decoded are the characters of the bytes in lower case. -/
theorem flatMap_hexPair_of_decodePairs (heven : bs.length % 2 = 0)
    (h : decodePairs bs = some out) :
    out.flatMap hexPair = bs.map fun b => (Char.ofNat b.toNat).toLower := by
  induction bs using decodePairs.induct generalizing out with
  | case1 first second rest ih =>
    have hrest : rest.length % 2 = 0 := by
      rw [List.length_cons, List.length_cons] at heven
      omega
    simp only [decodePairs, Option.bind_eq_bind, Option.bind_eq_some_iff, Option.pure_def,
      Option.some.injEq] at h
    obtain ⟨hi, hhi, lo, hlo, bytes, hbytes, rfl⟩ := h
    have hfirst := hexChars_decodeNibble first
    have hsecond := hexChars_decodeNibble second
    rw [hhi, Option.all_some, Bool.and_eq_true, decide_eq_true_eq, beq_iff_eq] at hfirst
    rw [hlo, Option.all_some, Bool.and_eq_true, decide_eq_true_eq, beq_iff_eq] at hsecond
    rw [List.flatMap_cons, hexPair_or hfirst.1 hsecond.1, hfirst.2, hsecond.2, ih hrest hbytes]
    rfl
  | case2 bs hshort =>
    match bs, heven, hshort with
    | [], _, _ =>
      cases h
      rfl
    | first :: second :: rest, _, hshort => exact absurd rfl (hshort first second rest)

/-- Hexadecimal digits are ASCII characters. -/
theorem toNat_lt_of_isHexDigit {c : Char} (h : isHexDigit c = true) : c.toNat < 0x80 := by
  simp only [isHexDigit, Char.isDigit, Bool.or_eq_true, Bool.and_eq_true, decide_eq_true_eq,
    Char.le_def, UInt32.le_iff_toNat_le, UInt32.reduceToNat, Char.reduceVal] at h
  change c.val.toNat < 0x80
  omega

/-- An ASCII character is read back from its byte. -/
theorem charOfNat_ofNat {c : Char} (h : c.toNat < 0x80) :
    Char.ofNat (UInt8.ofNat c.toNat).toNat = c := by
  rw [UInt8.toNat_ofNat_of_lt' (show _ < 256 by omega), Char.ofNat_toNat]

/-- The bytes of a text are those of hex digits exactly if its characters are hex digits. -/
theorem forall_isSome_decodeNibble_iff (s : String) :
    (∀ b ∈ asBytes s, (decodeNibble b).isSome) ↔ ∀ c ∈ s.toList, isHexDigit c = true := by
  rw [asBytes, toList_toByteArray]
  constructor
  · intro h
    have hbyte : ∀ b : UInt8, (decodeNibble b).isSome → b.toNat < 0x80 :=
      forall_byte (by decide +kernel)
    have hascii := ascii_of_bytes fun b hb => hbyte b (h b hb)
    intro c hc
    have hsome := h (UInt8.ofNat c.toNat) (by
      rw [bytes_of_ascii hascii]
      exact List.mem_map_of_mem hc)
    rwa [isSome_decodeNibble, charOfNat_ofNat (hascii c hc)] at hsome
  -- A hex digit is one byte, so there are no others.
  · intro h b hb
    rw [bytes_of_ascii fun c hc => toNat_lt_of_isHexDigit (h c hc), List.mem_map] at hb
    obtain ⟨c, hc, rfl⟩ := hb
    rw [isSome_decodeNibble, charOfNat_ofNat (toNat_lt_of_isHexDigit (h c hc))]
    exact h c hc

/-- A text is accepted exactly if its length is even and within the limit, and it has only hex
digits. -/
theorem isSome_fromHex_iff (s : String) : (fromHex s).isSome ↔
    s.utf8ByteSize % 2 = 0 ∧ s.utf8ByteSize ≤ maxHexLen ∧ ∀ c ∈ s.toList, isHexDigit c = true := by
  have hsize : (asBytes s).length = s.utf8ByteSize := Array.length_toList
  rw [fromHex, ← hsize, ← forall_isSome_decodeNibble_iff]
  split_ifs with h
  · have hnot : ¬((asBytes s).length % 2 = 0 ∧ (asBytes s).length ≤ maxHexLen) := by omega
    simp only [Option.isSome_none, Bool.false_eq_true, false_iff]
    exact fun hall => hnot ⟨hall.1, hall.2.1⟩
  · have heven : (asBytes s).length % 2 = 0 := by omega
    rw [isSome_decodePairs_iff heven]
    exact ⟨fun hall => ⟨heven, by omega, hall⟩, fun hall => hall.2.2⟩

/-- What an accepted text is decoded to is encoded as the text in lower case. -/
theorem toHex_of_fromHex {s : String} (h : fromHex s = some out) : toHex out = s.toLower := by
  obtain ⟨-, -, hdigits⟩ := (isSome_fromHex_iff s).1 (by rw [h]; rfl)
  unfold fromHex at h
  dsimp only at h
  split_ifs at h with hlimit
  have heven : (asBytes s).length % 2 = 0 := by omega
  have hascii : ∀ c ∈ s.toList, c.toNat < 0x80 := fun c hc => toNat_lt_of_isHexDigit (hdigits c hc)
  have hbytes : asBytes s = s.toList.map fun c => UInt8.ofNat c.toNat := by
    rw [asBytes, toList_toByteArray, bytes_of_ascii hascii]
  have hlower : (asBytes s).map (fun b => (Char.ofNat b.toNat).toLower) =
      s.toList.map Char.toLower := by
    rw [hbytes, List.map_map]
    exact List.map_congr_left fun c hc => congrArg Char.toLower (charOfNat_ofNat (hascii c hc))
  have htoLower : s.toLower.toList = s.toList.map Char.toLower := String.toList_map
  apply String.toList_injective
  rw [toHex, String.toList_ofList, flatMap_hexPair_of_decodePairs heven h, hlower, htoLower]

/-- The hex codec: up to 512 bytes are decoded from their encoding, and a text is decoded exactly if
its length is even and within the limit and it has only hex digits, to bytes that are encoded as the
text in lower case. -/
theorem hex_codec :
    (∀ bs : List UInt8, bs.length ≤ 512 → fromHex (toHex bs) = some bs) ∧
      ∀ s : String,
        ((fromHex s).isSome ↔ s.utf8ByteSize % 2 = 0 ∧ s.utf8ByteSize ≤ maxHexLen ∧
          ∀ c ∈ s.toList, isHexDigit c = true) ∧
        ∀ bs ∈ fromHex s, toHex bs = s.toLower :=
  ⟨fun _ h => fromHex_toHex h, fun s => ⟨isSome_fromHex_iff s, fun _ h => toHex_of_fromHex h⟩⟩

/-- Two bytes are read back from their spelling, and a mixed spelling gives the lower case one. -/
theorem hex_codec_abc : fromHex (toHex [0xAB, 0xC0]) = some [0xAB, 0xC0] ∧
    ∀ bs ∈ fromHex "aBC0", toHex bs = "aBC0".toLower :=
  ⟨hex_codec.1 _ (by decide), (hex_codec.2 _).2⟩

end Launa.Protocol
