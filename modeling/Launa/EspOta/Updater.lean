import Launa.EspOta.Flash

/-!
# The OTA updater

`EspOtaFlash` of `ota.rs`, generic over the flash driver, with the operations of the `OtaUpdate`
trait. NOR flash is written in whole words, so `write` keeps up to three trailing bytes of a chunk
in a buffer, which the next `write` puts before its own chunk and `finalize` flushes. `write` is cut
into the sections that the source separates by comments.

`EspOtaFlash.step` makes one call of a run, and `run` a list of them. A call may return an error or
panic; either way the next one starts from the state it left.
-/

namespace Launa.EspOta

open Stateful Checked Nor

/-- The OTA updater over a flash driver. -/
structure EspOtaFlash (S : Type) where
  flash : S
  running : Partition
  target : Partition
  writeOffset : ℕ
  bytesWritten : ℕ
  inProgress : Bool
  firmwareCrc : UInt32
  firstChunkValidated : Bool
  /-- The buffer of a partial word, of which the first `pendingLen` bytes are valid. -/
  pendingBytes : Vector UInt8 3
  pendingLen : Fin 4

/-- `EspOtaFlash::new`. -/
def EspOtaFlash.new {S : Type} (flash : S) (running : Partition) : EspOtaFlash S where
  flash := flash
  running := running
  target := match running with
    | .ota0 => .ota1
    | .ota1 => .ota0
  writeOffset := 0
  bytesWritten := 0
  inProgress := false
  firmwareCrc := 0xFFFFFFFF
  firstChunkValidated := false
  pendingBytes := Vector.replicate 3 0xFF
  pendingLen := 0

/-- `copy_from_slice` into the first bytes of the buffer. -/
def copyFront (buf : Vector UInt8 3) (tail : List UInt8) : Vector UInt8 3 :=
  Vector.ofFn fun i => tail.getD i buf[i]

namespace EspOtaFlash

section Driver

variable {S : Type} [NorFlash S]

/-- The valid bytes of the buffer. -/
def pending (o : EspOtaFlash S) : List UInt8 := o.pendingBytes.toList.take o.pendingLen

/-- A flash function run on the updater's flash. -/
def onFlash {α : Type} (m : OtaM S α) : OtaM (EspOtaFlash S) α :=
  zoom (fun o => o.flash) (fun f o => { o with flash := f }) m

section OnFlash

variable {α : Type} {m : OtaM S α} {o : EspOtaFlash S} {f : S}

omit [NorFlash S]

/-- A success of the flash is one of the updater. -/
theorem onFlash_ok {a : α} (h : m o.flash = .ok a f) :
    onFlash m o = .ok a { o with flash := f } :=
  zoom_ok h

/-- A failure of the flash is one of the updater. -/
theorem onFlash_error {e : Stop OtaError} (h : m o.flash = .error e f) :
    onFlash m o = .error e { o with flash := f } :=
  zoom_error h

end OnFlash

/-- `EspOtaFlash::detect_running_partition`. -/
def detectRunningPartition : OtaM (EspOtaFlash S) Partition := onFlash EspOta.detectRunningPartition

/-- `begin`: erase the target partition and reset the progress. -/
def begin : OtaM (EspOtaFlash S) Unit := do
  let self ← get
  if self.inProgress then
    throw (.error .beginFailed)
  else
    onFlash (eraseRange self.target 0 self.target.size)
    modify fun o => { o with
      writeOffset := 0, bytesWritten := 0, inProgress := true, firmwareCrc := 0xFFFFFFFF,
      firstChunkValidated := false, pendingLen := 0 }

/-- Validate the image header magic on the first chunk. -/
def checkMagic (chunk : List UInt8) : OtaM (EspOtaFlash S) Unit := do
  let self ← get
  if self.firstChunkValidated then
    pure ()
  else if chunk.head? ≠ some 0xE9 then
    throw (.error .invalidImageHeader)
  else
    modify fun o => { o with firstChunkValidated := true }

/-- Refuse a chunk that would end past the partition, counted from `write_offset`. -/
def checkBound (chunk : List UInt8) : OtaM (EspOtaFlash S) Unit := do
  let self ← get
  let stop ← orPanic (add32 self.writeOffset (chunk.length % 2^32))
  if stop > self.target.size then
    throw (.error (.writeFailed self.bytesWritten))
  else
    pure ()

/-- Prepend the pending bytes of the previous write. -/
def takePending (chunk : List UInt8) : OtaM (EspOtaFlash S) (List UInt8) := do
  let self ← get
  if 0 < self.pendingLen.val then
    modify fun o => { o with pendingLen := 0 }
    return self.pending ++ chunk
  else
    return chunk

/-- Write all whole words. -/
def writeWords (data : List UInt8) : OtaM (EspOtaFlash S) Unit := do
  let wholeWords := data.length / wordSize
  if 0 < wholeWords then
    let alignedEnd := wholeWords * wordSize
    let self ← get
    onFlash (alignedWrite self.target self.writeOffset (data.take alignedEnd))
    let writeOffset ← orPanic (add32 self.writeOffset (alignedEnd % 2^32))
    modify fun o => { o with writeOffset := writeOffset }
  else
    pure ()

/-- Fewer than four bytes are left of whole words. -/
theorem mod_wordSize_lt (n : ℕ) : n % wordSize < 4 := Nat.mod_lt _ (by decide)

/-- Buffer the trailing partial word. -/
def bufferTail (data : List UInt8) : OtaM (EspOtaFlash S) Unit :=
  let wholeWords := data.length / wordSize
  if 0 < data.length % wordSize then
    modify fun o => { o with
      pendingBytes := copyFront o.pendingBytes (data.drop (wholeWords * wordSize)),
      pendingLen := ⟨data.length % wordSize, mod_wordSize_lt _⟩ }
  else
    pure ()

/-- Count the bytes of a chunk as written. -/
def countBytes (chunk : List UInt8) : OtaM (EspOtaFlash S) Unit := do
  let self ← get
  let bytesWritten ← orPanic (add32 self.bytesWritten (chunk.length % 2^32))
  modify fun o => { o with bytesWritten := bytesWritten }

/-- `write`: write a chunk of the firmware. -/
def write (chunk : List UInt8) : OtaM (EspOtaFlash S) Unit := do
  let self ← get
  if !self.inProgress then
    throw (.error (.writeFailed 0))
  else if chunk.isEmpty then
    pure ()
  else
    checkMagic chunk
    checkBound chunk
    modify fun o => { o with firmwareCrc := crc32Update o.firmwareCrc chunk }
    let data ← takePending chunk
    writeWords data
    bufferTail data
    countBytes chunk

/-- Flush the remaining bytes of a partial word. -/
def flushPending : OtaM (EspOtaFlash S) Unit := do
  let self ← get
  if 0 < self.pendingLen.val then
    onFlash (alignedWrite self.target self.writeOffset self.pending)
    let writeOffset ← orPanic (add32 self.writeOffset self.pendingLen)
    modify fun o => { o with writeOffset := writeOffset, pendingLen := 0 }
  else
    pure ()

/-- `finalize`: flush, and make the target the boot partition. -/
def finalize : OtaM (EspOtaFlash S) Unit := do
  let self ← get
  if !self.inProgress then
    throw (.error .finalizeFailed)
  else if self.bytesWritten = 0 then
    modify fun o => { o with inProgress := false }
    throw (.error .finalizeFailed)
  else
    flushPending
    onFlash (setBootPartition self.target)
    modify fun o => { o with inProgress := false }

/-- `mark_valid`: confirm the boot, repairing otadata where it does not name the running
partition. -/
def markValid : OtaM (EspOtaFlash S) Unit := do
  let (entry0, valid0, entry1, valid1) ← onFlash readOtadataEntries
  if !valid0 && !valid1 then
    pure ()
  else
    let self ← get
    let runningSlot := self.running.index
    let runningEntry := if runningSlot = 0 then entry0 else entry1
    let runningValid := if runningSlot = 0 then valid0 else valid1
    let runningSeq := if runningValid then seqFromEntry runningEntry else 0
    let runningCorrect := 0 < runningSeq ∧ (runningSeq - 1) % 2 = runningSlot
    let otherValid := if 1 - runningSlot = 0 then valid0 else valid1
    if runningCorrect ∧ otherValid then
      pure ()
    else
      onFlash (setBootPartition self.running)

/-- The verdict of `needs_validation` on the otadata entries. -/
def needsValidationOf (running : Partition) (entry0 : List UInt8) (valid0 : Bool)
    (entry1 : List UInt8) (valid1 : Bool) : Bool :=
  if !valid0 && !valid1 then false
  else
    let runningIndex := running.index
    let entry := if runningIndex = 0 then entry0 else entry1
    let valid := if runningIndex = 0 then valid0 else valid1
    if !valid then true
    else
      let seq := seqFromEntry entry
      if seq = 0 then true
      else decide ((seq - 1) % 2 ≠ runningIndex)

/-- `needs_validation`: true when otadata cannot be read. -/
def needsValidation : OtaM (EspOtaFlash S) Bool := do
  match ← attempt (onFlash readOtadataEntries) with
  | none => return true
  | some (entry0, valid0, entry1, valid1) =>
    return needsValidationOf (← get).running entry0 valid0 entry1 valid1

/-- `rollback_and_reboot`: make the running partition the boot partition. The caller resets. -/
def rollbackAndReboot : OtaM (EspOtaFlash S) Unit := do
  onFlash (setBootPartition (← get).running)

/-- `verify_hash`. -/
def verifyHash (expectedCrc : UInt32) : OtaM (EspOtaFlash S) Unit := do
  let self ← get
  if self.firmwareCrc ≠ expectedCrc then
    throw (.error (.hashMismatch expectedCrc self.firmwareCrc))
  else
    pure ()

/-- `validate_first_chunk`. -/
def validateFirstChunk (chunk : List UInt8) : OtaM (EspOtaFlash S) Unit :=
  if chunk.head? ≠ some 0xE9 then throw (.error .invalidImageHeader) else pure ()

/-- The calls of an update with the chunks of a firmware. -/
def update (chunks : List (List UInt8)) : OtaM (EspOtaFlash S) Unit := do
  begin
  chunks.forM write
  finalize

end Driver

end EspOtaFlash

/-- The calls of the `OtaUpdate` trait, and `detect_running_partition`. -/
inductive OtaCall where
  | begin
  | write (chunk : List UInt8)
  | finalize
  | markValid
  | needsValidation
  | rollbackAndReboot
  | verifyHash (expectedCrc : UInt32)
  | validateFirstChunk (chunk : List UInt8)
  | detectRunningPartition

namespace EspOtaFlash

section Driver

variable {S : Type} [NorFlash S]

/-- Make a call, and drop its result. -/
def call : OtaCall → OtaM (EspOtaFlash S) Unit
  | .begin => begin
  | .write chunk => write chunk
  | .finalize => finalize
  | .markValid => markValid
  | .needsValidation => do let _ ← needsValidation
  | .rollbackAndReboot => rollbackAndReboot
  | .verifyHash expectedCrc => verifyHash expectedCrc
  | .validateFirstChunk chunk => validateFirstChunk chunk
  | .detectRunningPartition => do let _ ← detectRunningPartition

/-- The state that a call leaves. -/
def step (o : EspOtaFlash S) (c : OtaCall) : EspOtaFlash S := final (call c) o

/-- The state after a list of calls. -/
def run (o : EspOtaFlash S) (cs : List OtaCall) : EspOtaFlash S := cs.foldl step o

/-- No calls leave the updater alone. -/
@[simp] theorem run_nil (o : EspOtaFlash S) : o.run [] = o := rfl

/-- The first call is made first. -/
@[simp] theorem run_cons (o : EspOtaFlash S) (c : OtaCall) (cs : List OtaCall) :
    o.run (c :: cs) = (o.step c).run cs := rfl

end Driver

end EspOtaFlash

/-- `create_ota` of the app: a new updater whose running partition is the one that otadata selects,
and `Ota0` when it cannot be read. -/
def createOta {S : Type} [NorFlash S] (flash : S) : EspOtaFlash S :=
  match EspOtaFlash.detectRunningPartition (EspOtaFlash.new flash .ota0) with
  | .ok running temp => EspOtaFlash.new temp.flash running
  | .error _ temp => EspOtaFlash.new temp.flash .ota0

end Launa.EspOta
