import Launa.Lib.Crc
import Launa.Protocol.Frame

/-!
# The frames as a code

What `Frame::parse` accepts is what the format says, and nothing else (`parse_eq_ok`): it is the
image of `Frame::encode`, up to the bytes that follow. The loop of the CRC-8 is a register with the
generator `x^8 + x^2 + x + 1` that takes the bits of a message one by one (`crc8Byte_toBitVec`).
The generator is odd, so a burst of at most eight bits changes the checksum, wherever it is.
-/

namespace Launa.Protocol

/-! ## What is accepted -/

/-- What the format asks of the bytes after the start marker: a length that counts at least itself,
the type and the CRC, as many bytes as it says, and the CRC-8 of the others as the last of them. -/
def Frame.Consistent (data : List UInt8) : Prop :=
  let length := (data.getD 0 0).toNat
  4 ≤ length ∧ length ≤ data.length ∧ crc8 (data.take (length - 1)) = data.getD (length - 1) 0

variable {data : List UInt8} {f : Frame}

/-- `Frame::parse` checks the format, and takes the frame from its places. -/
theorem Frame.parse_eq_ok : Frame.parse data = .ok f ↔ Frame.Consistent data ∧
    f = ⟨(data.getD 1 0, data.getD 2 0), (data.take ((data.getD 0 0).toNat - 1)).drop 3⟩ := by
  unfold Frame.parse Frame.Consistent
  dsimp only
  split
  · next h => exact ⟨fun h => (nomatch h), fun ⟨⟨_, _, _⟩, _⟩ => by omega⟩
  split
  · next h => exact ⟨fun h => (nomatch h), fun ⟨⟨_, _, _⟩, _⟩ => by omega⟩
  split
  · next h => exact ⟨fun h => (nomatch h), fun ⟨⟨_, _, _⟩, _⟩ => by omega⟩
  split
  · next h => exact ⟨fun h => (nomatch h), fun ⟨⟨_, _, hcrc⟩, _⟩ => absurd hcrc h⟩
  · next h4 hlen hle hcrc =>
    exact ⟨fun h => ⟨⟨by omega, by omega, not_not.1 hcrc⟩, (Except.ok.inj h).symm⟩,
      fun ⟨_, hf⟩ => congrArg _ hf.symm⟩

/-- What consistent bytes start with is the body of their frame, and its CRC-8. -/
theorem Frame.body_of_parse (h : Frame.parse data = .ok f) :
    f.payload.length ≤ 251 ∧ data.take (data.getD 0 0).toNat = f.body ++ [crc8 f.body] := by
  obtain ⟨⟨h4, hle, hcrc⟩, hf⟩ := Frame.parse_eq_ok.1 h
  have hlen := Frame.length_of_parse h
  have hbyte := (data.getD 0 0).toNat_lt
  have hbody : f.body = data.take ((data.getD 0 0).toNat - 1) := by
    obtain ⟨length, t0, t1, rest, rfl⟩ :
        ∃ length t0 t1 rest, data = length :: t0 :: t1 :: rest := by
      match data, hle with
      | length :: t0 :: t1 :: rest, _ => exact ⟨_, _, _, _, rfl⟩
      | [], hle => simp at h4
      | [_], hle => simp only [List.length_singleton] at hle; omega
      | [_, _], hle => simp only [List.length_cons, List.length_nil] at hle; omega
    obtain ⟨n, hn⟩ : ∃ n, length.toNat - 1 = n + 3 := ⟨length.toNat - 4, by
      rw [List.getD_cons_zero] at h4
      omega⟩
    have hlength : UInt8.ofNat (4 + f.payload.length) = length := by
      rw [Nat.add_comm, hlen, List.getD_cons_zero, UInt8.ofNat_toNat]
    unfold Frame.body
    rw [hlength, hf, List.getD_cons_zero, hn]
    rfl
  refine ⟨by omega, ?_⟩
  obtain ⟨n, hn⟩ : ∃ n, (data.getD 0 0).toNat = n + 1 := ⟨(data.getD 0 0).toNat - 1, by omega⟩
  rw [hbody, hcrc, hn, Nat.add_sub_cancel, List.take_add_one, List.getD_eq_getElem _ _ (by omega),
    List.getElem?_eq_getElem (by omega)]
  rfl

/-- Parsing is exact: it accepts the consistent byte strings, the frame that it returns encodes to
the bytes that it was read from, and what it accepts is what an encoded frame starts with. -/
theorem Frame.parse_exact (data : List UInt8) :
    ((∃ f, Frame.parse data = .ok f) ↔ Frame.Consistent data) ∧
    (∀ f, Frame.parse data = .ok f →
      f.encode = .ok (0x7E :: data.take (data.getD 0 0).toNat ++ [0x7E])) ∧
    ((∃ f, Frame.parse data = .ok f) ↔ ∃ f bytes rest,
      Frame.encode f = .ok (0x7E :: bytes ++ [0x7E]) ∧ data = bytes ++ rest) := by
  have hencode : ∀ f, Frame.parse data = .ok f →
      f.encode = .ok (0x7E :: data.take (data.getD 0 0).toNat ++ [0x7E]) := by
    intro f h
    obtain ⟨hlen, hbody⟩ := Frame.body_of_parse h
    rw [hbody]
    exact Frame.encode_eq_ok.2 ⟨hlen, rfl⟩
  refine ⟨⟨fun ⟨f, h⟩ => (Frame.parse_eq_ok.1 h).1, fun h => ⟨_, Frame.parse_eq_ok.2 ⟨h, rfl⟩⟩⟩,
    hencode, ?_, ?_⟩
  · rintro ⟨f, h⟩
    exact ⟨f, _, _, hencode f h, (List.take_append_drop _ _).symm⟩
  · rintro ⟨f, bytes, rest, h, rfl⟩
    obtain ⟨hlen, hbytes⟩ := Frame.encode_eq_ok.1 h
    obtain rfl := List.append_cancel_right (List.cons.inj hbytes).2
    exact ⟨f, Frame.parse_append hlen rest⟩

/-! ## What the CRC-8 tells apart -/

/-- The bits of a byte string, each byte with its most significant bit first. -/
def bits (data : List UInt8) : List Bool := data.flatMap fun byte => Crc.topBits 8 byte.toBitVec

/-- A bit of the CRC-8 is a shift of the register with the generator `x^8 + x^2 + x + 1`. -/
theorem crc8Bit_toBitVec (crc : UInt8) :
    (crc8Bit crc).toBitVec = Crc.shift 0x07#8 crc.toBitVec := by
  have hall : ∀ r : BitVec 8, (crc8Bit ⟨r⟩).toBitVec = Crc.shift 0x07#8 r := by decide +kernel
  exact hall crc.toBitVec

/-- A byte of the CRC-8 is its eight bits. -/
theorem crc8Byte_toBitVec (crc byte : UInt8) :
    (crc8Byte crc byte).toBitVec =
      Crc.feed 0x07#8 crc.toBitVec (Crc.topBits 8 byte.toBitVec) := by
  have hiter : ∀ (n : ℕ) (r : UInt8),
      (crc8Bit^[n] r).toBitVec = (Crc.shift 0x07#8)^[n] r.toBitVec := by
    intro n
    induction n with
    | zero => intro r; rfl
    | succ n ih =>
      intro r
      rw [Function.iterate_succ_apply, ih, crc8Bit_toBitVec]
      rfl
  calc (crc8Byte crc byte).toBitVec
      = (Crc.shift 0x07#8)^[8] (crc.toBitVec ^^^ byte.toBitVec) := hiter 8 _
    _ = Crc.feed 0x07#8 crc.toBitVec (Crc.topBits 8 byte.toBitVec) := by
        rw [Crc.iterate_shift_xor, BitVec.shiftLeft_eq_zero (by omega), BitVec.xor_zero]

/-- The CRC-8 register after a byte string took its bits. -/
theorem foldl_crc8Byte_toBitVec (data : List UInt8) (crc : UInt8) :
    (data.foldl crc8Byte crc).toBitVec = Crc.feed 0x07#8 crc.toBitVec (bits data) := by
  induction data generalizing crc with
  | nil => rfl
  | cons byte data ih =>
    calc ((byte :: data).foldl crc8Byte crc).toBitVec
        = Crc.feed 0x07#8 (crc8Byte crc byte).toBitVec (bits data) := ih _
      _ = Crc.feed 0x07#8 crc.toBitVec (bits (byte :: data)) := by
          rw [crc8Byte_toBitVec, ← Crc.feed_append]
          rfl

variable {xs ys : List UInt8}

/-- A burst of at most eight bits changes the register. -/
theorem foldl_crc8Byte_ne (h : Crc.Burst 8 (bits xs) (bits ys)) (crc : UInt8) :
    xs.foldl crc8Byte crc ≠ ys.foldl crc8Byte crc := by
  intro heq
  have hodd : (0x07#8).getLsbD 0 = true := rfl
  apply Crc.Burst.feed_ne hodd h crc.toBitVec
  rw [← foldl_crc8Byte_toBitVec, ← foldl_crc8Byte_toBitVec, heq]

/-- A byte that is changed changes the register. -/
theorem crc8_ne_of_byte {b b' : UInt8} (h : b ≠ b') (before after : List UInt8) :
    crc8 (before ++ b :: after) ≠ crc8 (before ++ b' :: after) := by
  intro heq
  have hodd : (0x07#8).getLsbD 0 = true := rfl
  have hregs := congrArg UInt8.toBitVec ((UInt8.xor_left_inj 0x02).1 heq)
  rw [List.foldl_append, List.foldl_append, List.foldl_cons, List.foldl_cons,
    foldl_crc8Byte_toBitVec, foldl_crc8Byte_toBitVec] at hregs
  generalize before.foldl crc8Byte 0x02 = crc at hregs
  have hbyte : crc8Byte crc b = crc8Byte crc b' :=
    UInt8.toBitVec_inj.1 (Crc.feed_inj hodd hregs)
  -- The byte is added to the register before it is shifted.
  have hshift (b : UInt8) : (crc8Byte crc b).toBitVec =
      Crc.feed 0x07#8 (crc ^^^ b).toBitVec (Crc.topBits 8 (0 : UInt8).toBitVec) := by
    rw [← crc8Byte_toBitVec, crc8Byte, crc8Byte, UInt8.xor_zero]
  have hsum := congrArg UInt8.toBitVec hbyte
  rw [hshift, hshift] at hsum
  exact h ((UInt8.xor_right_inj crc).1 (UInt8.toBitVec_inj.1 (Crc.feed_inj hodd hsum)))

/-- The body of a frame of which a byte behind the length byte was changed is rejected. -/
theorem Frame.parse_changed {len b b' : UInt8} {before after : List UInt8}
    (hbody : f.body = len :: (before ++ b :: after)) (hlen : f.payload.length ≤ 251) (h : b ≠ b') :
    ∃ e, Frame.parse (len :: (before ++ b' :: after) ++ [crc8 f.body]) = .error e := by
  set changed := len :: (before ++ b' :: after) with hchanged
  cases hparse : Frame.parse (changed ++ [crc8 f.body]) with
  | error e => exact ⟨e, rfl⟩
  | ok g =>
    obtain ⟨-, hle, hcrc⟩ := (Frame.parse_eq_ok.1 hparse).1
    have hlength : ((changed ++ [crc8 f.body]).getD 0 0).toNat = changed.length + 1 := by
      have hcount := congrArg List.length hbody
      have hbyte : (UInt8.ofNat (4 + f.payload.length)).toNat = 4 + f.payload.length := by
        rw [UInt8.toNat_ofNat']
        omega
      have hfirst : len = UInt8.ofNat (4 + f.payload.length) := (List.cons.inj hbody).1.symm
      show len.toNat = _
      rw [hfirst, hbyte]
      simp only [Frame.body, hchanged, List.length_cons, List.length_append] at hcount ⊢
      omega
    rw [hlength, Nat.add_sub_cancel, List.take_left,
      List.getD_append_right _ _ _ _ (Nat.le_refl _), Nat.sub_self, List.getD_cons_zero,
      hbody] at hcrc
    exact absurd hcrc.symm (crc8_ne_of_byte h (len :: before) after)

/-- The register after consistent bytes, up to their CRC, does not depend on them. -/
theorem foldl_of_consistent (h : Frame.Consistent data) :
    (data.take (data.getD 0 0).toNat).foldl crc8Byte 0x02 = crc8Byte 0x02 0x00 := by
  obtain ⟨f, hf⟩ : ∃ f, Frame.parse data = .ok f := ⟨_, Frame.parse_eq_ok.2 ⟨h, rfl⟩⟩
  rw [(Frame.body_of_parse hf).2, List.foldl_append]
  -- The register, with the CRC added, is what it started with.
  show crc8Bit^[8] (f.body.foldl crc8Byte 0x02 ^^^ (f.body.foldl crc8Byte 0x02 ^^^ 0x02)) = _
  rw [← UInt8.xor_assoc, UInt8.xor_self, UInt8.zero_xor]
  rfl

/-- Bursts of at most eight bits are detected: two byte strings that differ by one have different
checksums, and what one makes of a valid frame, with the length byte left as it is, is rejected. The
window may lie anywhere in the bytes that the length byte counts, the CRC among them. -/
theorem crc8_detects_burst :
    (∀ xs ys : List UInt8, Crc.Burst 8 (bits xs) (bits ys) → crc8 xs ≠ crc8 ys) ∧
    ∀ (data corrupted : List UInt8) (f : Frame), Frame.parse data = .ok f →
      corrupted.getD 0 0 = data.getD 0 0 →
      Crc.Burst 8 (bits (data.take (data.getD 0 0).toNat))
        (bits (corrupted.take (data.getD 0 0).toNat)) →
      ∃ e, Frame.parse corrupted = .error e := by
  constructor
  · intro xs ys h heq
    exact foldl_crc8Byte_ne h 0x02 ((UInt8.xor_left_inj 0x02).1 heq)
  · intro data corrupted f hf hlength h
    cases hparse : Frame.parse corrupted with
    | error e => exact ⟨e, rfl⟩
    | ok g =>
      have hdata := foldl_of_consistent (Frame.parse_eq_ok.1 hf).1
      have hcorrupted := foldl_of_consistent (Frame.parse_eq_ok.1 hparse).1
      rw [hlength] at hcorrupted
      exact absurd (hdata.trans hcorrupted.symm) (foldl_crc8Byte_ne h 0x02)

/-- A flipped bit in the type of an empty frame. -/
theorem crc8_detects_burst_flip : ∃ e, Frame.parse [0x04, 0x0A, 0xBE, 0xC9] = .error e := by
  have hlen : ∀ byte, (bits [0x04, 0x0A, byte, 0xC9]).length = 32 := fun _ => rfl
  have hburst : Crc.Burst 8 (bits [0x04, 0x0A, 0xBF, 0xC9]) (bits [0x04, 0x0A, 0xBE, 0xC9]) := by
    refine ⟨rfl, by decide +kernel, 23, fun i hi => ?_⟩
    by_cases hlt : i < 32
    · have hall : ∀ i < 32, i < 23 ∨ 23 + 8 ≤ i → (bits [0x04, 0x0A, 0xBF, 0xC9])[i]? =
          (bits [0x04, 0x0A, 0xBE, 0xC9])[i]? := by decide +kernel
      exact hall i hlt hi
    · calc (bits [0x04, 0x0A, 0xBF, 0xC9])[i]? = none :=
            List.getElem?_eq_none (by rw [hlen]; omega)
        _ = (bits [0x04, 0x0A, 0xBE, 0xC9])[i]? :=
            (List.getElem?_eq_none (by rw [hlen]; omega)).symm
  have hparse : Frame.parse [0x04, 0x0A, 0xBF, 0xC9] = .ok ⟨(0x0A, 0xBF), []⟩ := by decide +kernel
  exact crc8_detects_burst.2 [0x04, 0x0A, 0xBF, 0xC9] [0x04, 0x0A, 0xBE, 0xC9] _ hparse rfl hburst

end Launa.Protocol
