import Mathlib.Algebra.Group.Nat.Defs
import Mathlib.Data.List.GetD
import Mathlib.Logic.Function.Iterate
import Mathlib.Tactic.Common

/-!
# Frames of the spa bus

A frame is a two-byte message type and a payload. On the wire it stands between two markers, as a
length byte that counts everything between them, the type, the payload, and a CRC-8. Nothing is
escaped, so what a frame encodes to is read back by its length (`parse_encode`), and two frames with
one encoding are the same (`encode_inj`).
-/

namespace Launa.Protocol

/-! ## `crc8.rs` -/

/-- One bit of the CRC-8. -/
def crc8Bit (crc : UInt8) : UInt8 :=
  if crc &&& 0x80 != 0 then (crc <<< 1) ^^^ 0x07 else crc <<< 1

/-- One byte of the CRC-8. -/
def crc8Byte (crc byte : UInt8) : UInt8 := crc8Bit^[8] (crc ^^^ byte)

/-- `crc8::compute`. -/
def crc8 (data : List UInt8) : UInt8 := data.foldl crc8Byte 0x02 ^^^ 0x02

-- The message of the source's test.
example : crc8 [0x1D, 0xFF, 0xAF, 0x13, 0x00, 0x00, 0x64, 0x07, 0x07, 0x00, 0x00, 0x01, 0x00, 0x00,
    0x04, 0x00, 0x00, 0x00, 0x00, 0x00, 0x00, 0x00, 0x00, 0x00, 0x64, 0x00, 0x00, 0x00] = 0xC2 := by
  decide +kernel

/-! ## `frame.rs` -/

/-- The start and end marker. -/
def frameMarker : UInt8 := 0x7E

/-- A message type. -/
abbrev MessageType := UInt8 × UInt8

/-- A parsed frame. -/
structure Frame where
  messageType : MessageType
  payload : List UInt8
  deriving DecidableEq, Repr

/-- Why bytes are not a frame. -/
inductive FrameError where
  | tooShort (len : ℕ)
  | incomplete (expected got : ℕ)
  | crcMismatch (expected got : UInt8)
  | payloadTooLarge (len : ℕ)
  deriving DecidableEq, Repr

namespace Frame

/-- `Frame::parse`: parse what follows the start marker. -/
def parse (data : List UInt8) : Except FrameError Frame :=
  if data.length < 4 then .error (.tooShort data.length)
  else
    let length := (data.getD 0 0).toNat
    if length < 4 then .error (.tooShort length)
    else if data.length < length then .error (.incomplete length data.length)
    else
      let body := data.take (length - 1)
      let expectedCrc := data.getD (length - 1) 0
      let computedCrc := crc8 body
      if computedCrc ≠ expectedCrc then .error (.crcMismatch expectedCrc computedCrc)
      else .ok ⟨(data.getD 1 0, data.getD 2 0), body.drop 3⟩

/-- What the CRC covers: the length byte, the type and the payload. -/
def body (f : Frame) : List UInt8 :=
  UInt8.ofNat (4 + f.payload.length) :: f.messageType.1 :: f.messageType.2 :: f.payload

/-- `Frame::encode`: the bytes of a frame with its markers. -/
def encode (f : Frame) : Except FrameError (List UInt8) :=
  if 4 + f.payload.length > 255 then .error (.payloadTooLarge f.payload.length)
  else .ok (frameMarker :: (f.body ++ [crc8 f.body]) ++ [frameMarker])

variable {f g : Frame} {bytes : List UInt8}

/-- A frame is encoded exactly if its payload fits, with its CRC between the markers. -/
theorem encode_eq_ok : f.encode = .ok bytes ↔ f.payload.length ≤ 251 ∧
    bytes = frameMarker :: (f.body ++ [crc8 f.body]) ++ [frameMarker] := by
  unfold encode
  split
  · exact ⟨fun h => (nomatch h), fun ⟨h, _⟩ => absurd h (by omega)⟩
  · exact ⟨fun h => ⟨by omega, (Except.ok.inj h).symm⟩, fun ⟨_, h⟩ => congrArg _ h.symm⟩

/-- A frame whose payload fits is read back from its bytes, whatever follows them. -/
theorem parse_append (hlen : f.payload.length ≤ 251) (rest : List UInt8) :
    parse (f.body ++ [crc8 f.body] ++ rest) = .ok f := by
  have hbody : f.body.length = 3 + f.payload.length := by
    simp only [body, List.length_cons]
    omega
  set data := f.body ++ [crc8 f.body] ++ rest with hdata
  have hdlen : data.length = 4 + f.payload.length + rest.length := by
    rw [hdata, List.length_append, List.length_append, hbody]
    simp only [List.length_singleton]
    omega
  have hlength : (data.getD 0 0).toNat = 4 + f.payload.length := by
    show (UInt8.ofNat (4 + f.payload.length)).toNat = _
    rw [UInt8.toNat_ofNat']
    omega
  -- The CRC covers the body, and follows it.
  have htake : data.take (4 + f.payload.length - 1) = f.body := by
    rw [hdata, List.append_assoc, List.take_append_of_le_length (by omega)]
    exact List.take_of_length_le (by omega)
  have hcrc : data.getD (4 + f.payload.length - 1) 0 = crc8 f.body := by
    rw [hdata, List.append_assoc, List.getD_append_right _ _ _ _ (by omega), hbody,
      show 4 + f.payload.length - 1 - (3 + f.payload.length) = 0 by omega]
    rfl
  unfold parse
  rw [if_neg (by omega)]
  simp only [hlength]
  rw [if_neg (by omega), if_neg (by omega), htake, hcrc, if_neg (not_not_intro rfl)]
  rfl

/-- A frame is read back from its encoding. -/
theorem parse_encode (h : f.encode = .ok bytes) : parse (bytes.drop 1) = .ok f := by
  obtain ⟨hlen, rfl⟩ := encode_eq_ok.1 h
  exact parse_append hlen [frameMarker]

/-- The payload of a parsed frame has the length that the length byte says. -/
theorem length_of_parse {data : List UInt8} (h : parse data = .ok f) :
    f.payload.length + 4 = (data.getD 0 0).toNat := by
  unfold parse at h
  split at h
  · cases h
  dsimp only at h
  split at h
  · cases h
  split at h
  · cases h
  split at h
  · cases h
  · cases h
    simp only [List.length_drop, List.length_take]
    omega

/-- Frames with one encoding are the same. -/
theorem encode_inj (hf : f.encode = .ok bytes) (hg : g.encode = .ok bytes) : f = g :=
  Except.ok.inj ((parse_encode hf).symm.trans (parse_encode hg))

end Frame

/-- `FrameEncoder::encode`. -/
def FrameEncoder.encode (messageType : MessageType) (payload : List UInt8) :
    Except FrameError (List UInt8) :=
  (Frame.mk messageType payload).encode

end Launa.Protocol
