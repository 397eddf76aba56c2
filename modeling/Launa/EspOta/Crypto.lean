import Mathlib.Algebra.Group.Nat.Defs
import Mathlib.Logic.Function.Iterate

/-!
# The checksums of `crypto.rs`

CRC-32/MPEG-2 over the firmware, which is fed in chunks, and the ROM's reflected CRC-32 over the
sequence number of an otadata entry. Both are folds over the bytes, so the firmware checksum does
not depend on the chunks it is fed in (`crc32Update_append`).
-/

namespace Launa.EspOta

/-- One bit of CRC-32/MPEG-2. -/
def crc32Bit (crc : UInt32) : UInt32 :=
  if crc &&& 0x80000000 != 0 then (crc <<< 1) ^^^ 0x04C11DB7 else crc <<< 1

/-- One byte of CRC-32/MPEG-2. -/
def crc32Byte (crc : UInt32) (byte : UInt8) : UInt32 :=
  crc32Bit^[8] (crc ^^^ (byte.toUInt32 <<< 24))

/-- `crc32_update`: CRC-32/MPEG-2 continued over `data`. -/
def crc32Update (crc : UInt32) (data : List UInt8) : UInt32 := data.foldl crc32Byte crc

/-- `crc32`: CRC-32/MPEG-2 of `data`. -/
def crc32 (data : List UInt8) : UInt32 := crc32Update 0xFFFFFFFF data

/-- One bit of the ROM's reflected CRC-32. -/
def crc32OtaBit (crc : UInt32) : UInt32 :=
  if crc &&& 1 != 0 then (crc >>> 1) ^^^ 0xEDB88320 else crc >>> 1

/-- One byte of the ROM's reflected CRC-32. -/
def crc32OtaByte (crc : UInt32) (byte : UInt8) : UInt32 :=
  crc32OtaBit^[8] (crc ^^^ byte.toUInt32)

/-- `crc32_ota`: `esp_rom_crc32_le(UINT32_MAX, data, len)`, complemented at both ends. -/
def crc32Ota (data : List UInt8) : UInt32 := ~~~(data.foldl crc32OtaByte 0)

/-- No bytes leave the CRC as it is. -/
@[simp] theorem crc32Update_nil (crc : UInt32) : crc32Update crc [] = crc := rfl

/-- Feeding two chunks one after the other is feeding both at once. -/
theorem crc32Update_append (crc : UInt32) (xs ys : List UInt8) :
    crc32Update crc (xs ++ ys) = crc32Update (crc32Update crc xs) ys :=
  List.foldl_append

-- The vector of the source's tests for the ROM checksum.
example : crc32Ota [1, 0, 0, 0] = 0x4743989A := by decide +kernel

end Launa.EspOta
