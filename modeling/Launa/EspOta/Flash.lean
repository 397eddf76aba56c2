import Launa.Lib.Checked
import Launa.Lib.NorFlash
import Launa.EspOta.Crypto

/-!
# Flash partition operations and otadata management

The functions of `flash.rs`, generic over the flash driver. Offsets and sequence numbers are `u32`
with the overflow checks of the `dev` profile, which the firmware is built with. The otadata
partition is two sectors, one entry at the start of each; an entry is 32 bytes, of which the
sequence number (bytes 0 to 3) and its checksum (bytes 28 to 31) are read.
-/

namespace Launa.EspOta

open Stateful Checked Nor

/-- `OtaError` of `launa-ota`. -/
inductive OtaError where
  | beginFailed
  | writeFailed (byteOffset : ℕ)
  | finalizeFailed
  | noOtaPartition
  | invalidFirmware
  | flashError (address : ℕ)
  | hashMismatch (expected actual : UInt32)
  | invalidImageHeader
  | verificationFailed (expected actual : UInt32)
  deriving DecidableEq, Repr

/-- Code over a state `σ` that returns `Result<α, OtaError>` or panics. -/
abbrev OtaM (σ α : Type) := EStateM (Stop OtaError) σ α

/-- Where otadata begins. -/
def otadataOffset : ℕ := 0x10000
/-- Where the first partition begins. -/
def ota0Offset : ℕ := 0x160000
/-- The size of the first partition. -/
def ota0Size : ℕ := 0x140000
/-- Where the second partition begins. -/
def ota1Offset : ℕ := 0x2A0000
/-- The size of the second partition. -/
def ota1Size : ℕ := 0x140000

/-- The size of a sector. -/
def sectorSize : ℕ := 4096
/-- The size of a word. -/
def wordSize : ℕ := 4

/-- The size of an otadata entry, and the offsets and sizes of the fields that are read. -/
def otaEntrySize : ℕ := 32
/-- Where the sequence number stands in an entry. -/
def otaSeqOffset : ℕ := 0
/-- The size of the sequence number. -/
def otaSeqSize : ℕ := 4
/-- Where the CRC stands in an entry. -/
def otaCrcOffset : ℕ := 28
/-- The size of the CRC. -/
def otaCrcSize : ℕ := 4

/-- The chip's write and erase units. -/
def geometry : Geometry := ⟨wordSize, sectorSize⟩

/-- Boot partition identifier. -/
inductive Partition where
  | ota0
  | ota1
  deriving DecidableEq, Repr

namespace Partition

/-- Where the partition begins. -/
def offset : Partition → ℕ
  | ota0 => ota0Offset
  | ota1 => ota1Offset

/-- The size of the partition. -/
def size : Partition → ℕ
  | ota0 => ota0Size
  | ota1 => ota1Size

/-- The index of the partition. -/
def index : Partition → ℕ
  | ota0 => 0
  | ota1 => 1

end Partition

section Driver

variable {S : Type} [NorFlash S]

/-- A driver call whose failure is reported as `FlashError` at `address`. -/
def flashCall {α : Type} (address : ℕ) (m : EStateM Unit S α) : OtaM S α :=
  mapErr (fun _ => .error (.flashError address)) m

/-- The loop of `erase_range`. The checked addition of the sector's end also keeps the loop's own
`offset += SECTOR_SIZE` from overflowing. -/
def eraseLoop (base alignedEnd offset : ℕ) : OtaM S Unit :=
  if offset < alignedEnd then do
    let absOffset ← orPanic (add32 base offset)
    let absEnd ← orPanic (add32 absOffset sectorSize)
    flashCall absOffset (NorFlash.erase absOffset absEnd)
    eraseLoop base alignedEnd (offset + sectorSize)
  else
    pure ()
termination_by alignedEnd - offset
decreasing_by unfold sectorSize; omega

/-- `erase_range`: erase the sectors of the target partition from `start` to `stop`. -/
def eraseRange (target : Partition) (start stop : ℕ) : OtaM S Unit :=
  let alignedStart := start / sectorSize * sectorSize
  let alignedEnd := (stop + sectorSize - 1) / sectorSize * sectorSize
  eraseLoop target.offset alignedEnd alignedStart

/-- The buffer padded to whole words with `0xFF`. -/
def padToWords (data : List UInt8) : List UInt8 :=
  let padLen := (wordSize - data.length % wordSize) % wordSize
  data ++ List.replicate padLen 0xFF

/-- `aligned_write`: write `data` at `offset` of the target partition, padded to whole words. -/
def alignedWrite (target : Partition) (offset : ℕ) (data : List UInt8) : OtaM S Unit := do
  let absOffset ← orPanic (add32 target.offset offset)
  if data.length % wordSize = 0 then
    flashCall absOffset (NorFlash.write absOffset data)
  else
    flashCall absOffset (NorFlash.write absOffset (padToWords data))

/-- `read_otadata_entry`: read a single otadata entry. -/
def readOtadataEntry (slot : ℕ) : OtaM S (List UInt8) :=
  let offset := otadataOffset + slot * sectorSize
  flashCall offset (NorFlash.read offset otaEntrySize)

/-- The sequence number as stored in an entry. -/
def rawSeq (entry : List UInt8) : ℕ := u32FromLe ((entry.drop otaSeqOffset).take otaSeqSize)

/-- `otadata_entry_valid`: the entry is not erased, and its checksum is the one of its sequence
number. -/
def otadataEntryValid (entry : List UInt8) : Bool :=
  if rawSeq entry = 0xFFFFFFFF then false
  else
    let storedCrc := u32FromLe ((entry.drop otaCrcOffset).take otaCrcSize)
    let computedCrc := crc32Ota ((entry.drop otaSeqOffset).take otaSeqSize)
    storedCrc == computedCrc.toNat

/-- `seq_from_entry`: the sequence number of an entry, with erased as 0. -/
def seqFromEntry (entry : List UInt8) : ℕ :=
  if rawSeq entry = 0xFFFFFFFF then 0 else rawSeq entry

/-- `read_otadata_entries`: both entries, each with whether it is valid. -/
def readOtadataEntries : OtaM S (List UInt8 × Bool × List UInt8 × Bool) := do
  let entry0 ← readOtadataEntry 0
  let entry1 ← readOtadataEntry 1
  return (entry0, otadataEntryValid entry0, entry1, otadataEntryValid entry1)

/-- `read_otadata_sequences`: both sequence numbers, with an invalid slot's as 0. -/
def readOtadataSequences : OtaM S (ℕ × ℕ) := do
  let (entry0, valid0, entry1, valid1) ← readOtadataEntries
  let seq0 := if valid0 then seqFromEntry entry0 else 0
  let seq1 := if valid1 then seqFromEntry entry1 else 0
  return (seq0, seq1)

/-- `build_otadata_entry`: the entry for a sequence number. -/
def buildOtadataEntry (seq : ℕ) : List UInt8 :=
  u32ToLe seq ++ List.replicate (otaCrcOffset - otaSeqSize) 0xFF ++
    u32ToLe (crc32Ota (u32ToLe seq)).toNat

/-- `write_otadata_slot`: write an entry to a slot by reading, erasing and rewriting its sector. -/
def writeOtadataSlot (slot : ℕ) (entry : List UInt8) : OtaM S Unit := do
  let slotOffset := otadataOffset + slot * sectorSize
  let sector ← flashCall slotOffset (NorFlash.read slotOffset sectorSize)
  let sectorBuf := entry ++ sector.drop otaEntrySize
  flashCall slotOffset (NorFlash.erase slotOffset (slotOffset + sectorSize))
  flashCall slotOffset (NorFlash.write slotOffset sectorBuf)

/-- The search for the smallest sequence number from `candidate` on that maps to `targetIndex`. -/
def searchUp (targetIndex candidate : ℕ) : Option ℕ :=
  match sub32 candidate 1 with
  | none => none
  | some below =>
    if below % 2 ≠ targetIndex then
      match _h : add32 candidate 1 with
      | none => none
      | some next => searchUp targetIndex next
    else
      some candidate
termination_by 2^32 - candidate
decreasing_by have := add32_eq_some.1 _h; omega

/-- The search for the largest sequence number up to `candidate` that maps to `otherIndex`, down to
0 when there is none. -/
def searchDown (otherIndex : ℕ) : ℕ → ℕ
  | 0 => 0
  | c + 1 => if c % 2 ≠ otherIndex then searchDown otherIndex c else c + 1

/-- The sequence number that `set_boot_partition` gives the requested partition. -/
def nextSeq (targetIndex maxSeq : ℕ) : Option ℕ :=
  if maxSeq = 0 then some (targetIndex + 1)
  else do
    let candidate ← add32 maxSeq 1
    searchUp targetIndex candidate

/-- The sequence number that `set_boot_partition` seeds an invalid other slot with. -/
def seedSeq (otherIndex maxSeq newSeq : ℕ) : Option ℕ :=
  if maxSeq = 0 then some (otherIndex + 1)
  else do
    let below ← sub32 newSeq 1
    let candidate := searchDown otherIndex below
    if candidate = 0 then some (otherIndex + 1) else some candidate

/-- `set_boot_partition`: write the requested partition's otadata slot, and seed the other slot when
it is invalid. -/
def setBootPartition (partition : Partition) : OtaM S Unit := do
  let (entry0, valid0, entry1, valid1) ← readOtadataEntries
  let seq0 := if valid0 then seqFromEntry entry0 else 0
  let seq1 := if valid1 then seqFromEntry entry1 else 0
  let maxSeq := max seq0 seq1
  let targetIndex := partition.index
  let newSeq ← orPanic (nextSeq targetIndex maxSeq)
  let below ← orPanic (sub32 newSeq 1)
  debugAssert (below % 2 = targetIndex)
  let targetSlot := partition.index
  writeOtadataSlot targetSlot (buildOtadataEntry newSeq)
  let otherSlot := 1 - targetSlot
  let otherValid := if otherSlot = 0 then valid0 else valid1
  if !otherValid then
    let otherSeq ← orPanic (seedSeq otherSlot maxSeq newSeq)
    writeOtadataSlot otherSlot (buildOtadataEntry otherSeq)

/-- `detect_running_partition`: the partition that the highest valid sequence number maps to, and
`Ota0` when there is none. -/
def detectRunningPartition : OtaM S Partition := do
  let (seq0, seq1) ← readOtadataSequences
  let runningSeq := if seq1 > seq0 then seq1 else seq0
  if runningSeq = 0 then
    return .ota0
  let slot := (runningSeq - 1) % 2
  return if slot = 0 then .ota0 else .ota1

end Driver

end Launa.EspOta
