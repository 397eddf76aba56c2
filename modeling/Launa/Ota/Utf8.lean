import Launa.Ota.Http

/-!
# Texts as bytes

`str::from_utf8` reads the bytes of every character (`utf8Decode_utf8Encode`), so that every text is
what some payload is read as.
-/

namespace Launa.Ota

variable {rest bs : List UInt8} {b0 b1 b2 b3 : UInt8}

/-- One byte. -/
theorem utf8Decode_one (h0 : b0 < 0x80) :
    utf8Decode (b0 :: rest) = (utf8Decode rest).map (Char.ofNat b0.toNat :: ·) := by
  rw [utf8Decode.eq_def]
  exact if_pos h0

/-- A byte above the first of a range is not below its beginning. -/
theorem not_lt_of_le {a b c : UInt8} (h : b ≤ a) (hcb : c ≤ b) : ¬a < c :=
  UInt8.not_lt.2 (UInt8.le_trans hcb h)

/-- Two bytes. -/
theorem utf8Decode_two (h0 : 0xC2 ≤ b0 ∧ b0 < 0xE0) (hconts : areConts [b1] = true) :
    utf8Decode (b0 :: b1 :: rest) =
      (utf8Decode rest).map (Char.ofNat (codePoint (b0.toNat % 32) [b1]) :: ·) := by
  have h80 : ¬b0 < 0x80 := not_lt_of_le h0.1 (by decide)
  rw [utf8Decode.eq_def]
  simp [h80, h0, hconts]

/-- Three bytes. -/
theorem utf8Decode_three (h0 : 0xE0 ≤ b0 ∧ b0 < 0xF0) (hconts : areConts [b1, b2] = true)
    (hcp : 0x800 ≤ codePoint (b0.toNat % 16) [b1, b2] ∧
      ¬(0xD800 ≤ codePoint (b0.toNat % 16) [b1, b2] ∧
        codePoint (b0.toNat % 16) [b1, b2] < 0xE000)) :
    utf8Decode (b0 :: b1 :: b2 :: rest) =
      (utf8Decode rest).map (Char.ofNat (codePoint (b0.toNat % 16) [b1, b2]) :: ·) := by
  have h80 : ¬b0 < 0x80 := not_lt_of_le h0.1 (by decide)
  have he0 : ¬b0 < 0xE0 := UInt8.not_lt.2 h0.1
  rw [utf8Decode.eq_def]
  simp [h80, he0, h0, hconts, hcp]

/-- Four bytes. -/
theorem utf8Decode_four (h0 : 0xF0 ≤ b0 ∧ b0 ≤ 0xF4) (hconts : areConts [b1, b2, b3] = true)
    (hcp : 0x10000 ≤ codePoint (b0.toNat % 8) [b1, b2, b3] ∧
      codePoint (b0.toNat % 8) [b1, b2, b3] < 0x110000) :
    utf8Decode (b0 :: b1 :: b2 :: b3 :: rest) =
      (utf8Decode rest).map (Char.ofNat (codePoint (b0.toNat % 8) [b1, b2, b3]) :: ·) := by
  have h80 : ¬b0 < 0x80 := not_lt_of_le h0.1 (by decide)
  have he0 : ¬b0 < 0xE0 := not_lt_of_le h0.1 (by decide)
  have hf0 : ¬b0 < 0xF0 := UInt8.not_lt.2 h0.1
  rw [utf8Decode.eq_def]
  simp [h80, he0, hf0, h0, hconts, hcp]

/-- A continuation byte with the low six bits of a number. -/
def contByte (n : ℕ) : UInt8 := UInt8.ofNat (0x80 + n % 64)

/-- The UTF-8 bytes of a character. -/
def utf8Encode (c : Char) : List UInt8 :=
  let n := c.toNat
  if n < 0x80 then [UInt8.ofNat n]
  else if n < 0x800 then [UInt8.ofNat (0xC0 + n / 64), contByte n]
  else if n < 0x10000 then [UInt8.ofNat (0xE0 + n / 64 / 64), contByte (n / 64), contByte n]
  else
    [UInt8.ofNat (0xF0 + n / 64 / 64 / 64), contByte (n / 64 / 64), contByte (n / 64), contByte n]

/-- A continuation byte carries six bits behind its marker. -/
theorem toNat_contByte (n : ℕ) : (contByte n).toNat = 0x80 + n % 64 :=
  UInt8.toNat_ofNat_of_lt' (show _ < 256 by omega)

/-- A continuation byte continues a character. -/
theorem areConts_cons_contByte (n : ℕ) : areConts (contByte n :: bs) = areConts bs := by
  have hle : 0x80 ≤ contByte n := by
    rw [UInt8.le_iff_toNat_le, toNat_contByte]
    exact Nat.le_add_right _ _
  have hlt : contByte n < 0xC0 := by
    rw [UInt8.lt_iff_toNat_lt, toNat_contByte]
    simp only [UInt8.reduceToNat]
    omega
  simp [areConts, hle, hlt]

/-- A continuation byte adds its six bits to the code point. -/
theorem codePoint_cons_contByte (lead n : ℕ) :
    codePoint lead (contByte n :: bs) = codePoint (lead * 64 + n % 64) bs := by
  have hmod : (0x80 + n % 64) % 64 = n % 64 := by omega
  rw [codePoint, List.foldl_cons, toNat_contByte, hmod]
  rfl

/-- A number of eleven bits is read from its two bytes. -/
theorem utf8Decode_encode_two {n : ℕ} (hge : 0x80 ≤ n) (hlt : n < 0x800) :
    utf8Decode (UInt8.ofNat (0xC0 + n / 64) :: contByte n :: rest) =
      (utf8Decode rest).map (Char.ofNat n :: ·) := by
  have hn : (UInt8.ofNat (0xC0 + n / 64)).toNat = 0xC0 + n / 64 :=
    UInt8.toNat_ofNat_of_lt' (show _ < 256 by omega)
  have hcp : codePoint ((0xC0 + n / 64) % 32) [contByte n] = n := by
    rw [codePoint_cons_contByte, codePoint, List.foldl_nil]
    omega
  have hlead : 0xC2 ≤ UInt8.ofNat (0xC0 + n / 64) ∧ UInt8.ofNat (0xC0 + n / 64) < 0xE0 := by
    rw [UInt8.le_iff_toNat_le, UInt8.lt_iff_toNat_lt, hn]
    simp only [UInt8.reduceToNat]
    omega
  rw [utf8Decode_two hlead (areConts_cons_contByte n), hn, hcp]

/-- A number of sixteen bits that is no surrogate is read from its three bytes. -/
theorem utf8Decode_encode_three {n : ℕ} (hge : 0x800 ≤ n) (hlt : n < 0x10000)
    (hvalid : n < 0xD800 ∨ 0xDFFF < n) :
    utf8Decode (UInt8.ofNat (0xE0 + n / 64 / 64) :: contByte (n / 64) :: contByte n :: rest) =
      (utf8Decode rest).map (Char.ofNat n :: ·) := by
  have hn : (UInt8.ofNat (0xE0 + n / 64 / 64)).toNat = 0xE0 + n / 64 / 64 :=
    UInt8.toNat_ofNat_of_lt' (show _ < 256 by omega)
  have hcp : codePoint ((0xE0 + n / 64 / 64) % 16) [contByte (n / 64), contByte n] = n := by
    rw [codePoint_cons_contByte, codePoint_cons_contByte, codePoint, List.foldl_nil]
    omega
  have hlead : 0xE0 ≤ UInt8.ofNat (0xE0 + n / 64 / 64) ∧
      UInt8.ofNat (0xE0 + n / 64 / 64) < 0xF0 := by
    rw [UInt8.le_iff_toNat_le, UInt8.lt_iff_toNat_lt, hn]
    simp only [UInt8.reduceToNat]
    omega
  have hconts : areConts [contByte (n / 64), contByte n] = true := by
    rw [areConts_cons_contByte, areConts_cons_contByte]
    rfl
  rw [utf8Decode_three hlead hconts (by rw [hn, hcp]; omega), hn, hcp]

/-- A number above sixteen bits is read from its four bytes. -/
theorem utf8Decode_encode_four {n : ℕ} (hge : 0x10000 ≤ n) (hlt : n < 0x110000) :
    utf8Decode (UInt8.ofNat (0xF0 + n / 64 / 64 / 64) :: contByte (n / 64 / 64) ::
      contByte (n / 64) :: contByte n :: rest) = (utf8Decode rest).map (Char.ofNat n :: ·) := by
  have hn : (UInt8.ofNat (0xF0 + n / 64 / 64 / 64)).toNat = 0xF0 + n / 64 / 64 / 64 :=
    UInt8.toNat_ofNat_of_lt' (show _ < 256 by omega)
  have hcp : codePoint ((0xF0 + n / 64 / 64 / 64) % 8)
      [contByte (n / 64 / 64), contByte (n / 64), contByte n] = n := by
    rw [codePoint_cons_contByte, codePoint_cons_contByte, codePoint_cons_contByte, codePoint,
      List.foldl_nil]
    omega
  have hlead : 0xF0 ≤ UInt8.ofNat (0xF0 + n / 64 / 64 / 64) ∧
      UInt8.ofNat (0xF0 + n / 64 / 64 / 64) ≤ 0xF4 := by
    rw [UInt8.le_iff_toNat_le, UInt8.le_iff_toNat_le, hn]
    simp only [UInt8.reduceToNat]
    omega
  have hconts : areConts [contByte (n / 64 / 64), contByte (n / 64), contByte n] = true := by
    rw [areConts_cons_contByte, areConts_cons_contByte, areConts_cons_contByte]
    rfl
  rw [utf8Decode_four hlead hconts (by rw [hn, hcp]; omega), hn, hcp]

/-- The bytes of a character are read as it. -/
theorem utf8Decode_utf8Encode (c : Char) :
    utf8Decode (utf8Encode c ++ rest) = (utf8Decode rest).map (c :: ·) := by
  have hvalid : c.toNat < 0xD800 ∨ 0xDFFF < c.toNat ∧ c.toNat < 0x110000 := c.valid
  have hc := Char.ofNat_toNat c
  unfold utf8Encode
  generalize c.toNat = n at hvalid hc ⊢
  dsimp only
  split_ifs with h1 h2 h3
  · have hn : (UInt8.ofNat n).toNat = n := UInt8.toNat_ofNat_of_lt' (show _ < 256 by omega)
    rw [List.singleton_append, utf8Decode_one (UInt8.lt_iff_toNat_lt.2 (by rwa [hn])), hn, hc]
  · rw [← hc]
    exact utf8Decode_encode_two (by omega) h2
  · rw [← hc]
    exact utf8Decode_encode_three (by omega) h3 (by omega)
  · rw [← hc]
    exact utf8Decode_encode_four (by omega) (by omega)

/-- The bytes of an ASCII text are read. -/
theorem utf8Decode_map_ascii {cs : List Char} (h : ∀ c ∈ cs, c.toNat < 0x80) :
    utf8Decode (cs.map fun c => UInt8.ofNat c.toNat) = some cs := by
  induction cs with
  | nil => rfl
  | cons c cs ih =>
    have hlt : c.toNat < 0x80 := h c List.mem_cons_self
    have hbyte : (UInt8.ofNat c.toNat).toNat = c.toNat := by
      rw [UInt8.toNat_ofNat']
      omega
    have hone : UInt8.ofNat c.toNat < 0x80 := UInt8.lt_iff_toNat_lt.2 (by rw [hbyte]; exact hlt)
    rw [List.map_cons, utf8Decode_one hone, ih fun d hd => h d (List.mem_cons_of_mem _ hd), hbyte,
      Char.ofNat_toNat]
    rfl

/-- Every text is a payload. -/
theorem exists_utf8Decode (cs : List Char) : ∃ payload, utf8Decode payload = some cs := by
  induction cs with
  | nil => exact ⟨[], rfl⟩
  | cons c cs ih =>
    obtain ⟨payload, hpayload⟩ := ih
    exact ⟨utf8Encode c ++ payload, by rw [utf8Decode_utf8Encode, hpayload]; rfl⟩

end Launa.Ota
