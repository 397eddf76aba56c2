import Launa.EspOta.Otadata
import Launa.EspOta.Updater

/-!
# What the flash code issues

Each function of `flash.rs` issues operations in a range of its own, whatever the chip does: so it
keeps an invariant of the chip that every operation in that range keeps. `erase_range` stays in the
sectors of its partition, the otadata functions in the otadata partition, and `aligned_write` issues
one write, of its data padded to whole words.
-/

namespace Launa.EspOta

open Stateful Checked Nor

variable {I : Device geometry → Prop}

/-- The addresses up to twice the size of a partition fit a word. -/
theorem Partition.size_lt (p : Partition) : p.offset + p.size + p.size < 2^32 := by
  cases p <;> decide

/-- A call of the flash keeps what its operation keeps. -/
theorem keeps_flashCall {α : Type} {address : ℕ} {m : EStateM Unit (Device geometry) α}
    (h : Keeps I m) : Keeps I (flashCall address m) :=
  h.mapErr

/-- The loop erases one sector at each step of `sectorSize`. -/
theorem keeps_eraseLoop {base alignedEnd : ℕ} (offset : ℕ)
    (h : ∀ k, offset ≤ k → k < alignedEnd → k % sectorSize = offset % sectorSize →
      Keeps I (Device.issue (.erase (base + k) (base + k + sectorSize)))) :
    Keeps I (eraseLoop base alignedEnd offset) := by
  induction offset using eraseLoop.induct alignedEnd with
  | case1 offset hlt ih =>
    have hnext : Keeps I (eraseLoop base alignedEnd (offset + sectorSize)) :=
      ih fun k h1 h2 h3 => h k (by omega) h2 (by rw [h3, Nat.add_mod_right])
    rw [eraseLoop, if_pos hlt]
    cases h1 : add32 base offset with
    | none => exact Keeps.throw _
    | some absOffset =>
      obtain ⟨-, rfl⟩ := add32_eq_some.1 h1
      cases h2 : add32 (base + offset) sectorSize with
      | none =>
        rw [orPanic_some, pure_bind, h2]
        exact Keeps.throw _
      | some absEnd =>
        obtain ⟨-, rfl⟩ := add32_eq_some.1 h2
        rw [orPanic_some, pure_bind, h2, orPanic_some, pure_bind]
        exact (keeps_flashCall (h offset (Nat.le_refl _) hlt rfl)).bind fun _ => hnext
  | case2 offset hge =>
    rw [eraseLoop, if_neg hge]
    exact Keeps.pure _

/-- `erase_range` over a whole partition erases its sectors. -/
theorem keeps_eraseRange (target : Partition)
    (h : ∀ k, k % sectorSize = 0 → k + sectorSize ≤ target.size →
      Keeps I (Device.issue (.erase (target.offset + k) (target.offset + k + sectorSize)))) :
    Keeps I (eraseRange target 0 target.size) := by
  have hsize : target.size = 320 * sectorSize := by cases target <;> rfl
  have hss : sectorSize = 4096 := rfl
  refine keeps_eraseLoop _ fun k _ h2 h3 => ?_
  rw [Nat.zero_div, Nat.zero_mul, Nat.zero_mod] at h3
  rw [hsize, hss] at h2
  have hfit : k + sectorSize ≤ target.size := by
    rw [hss] at h3
    rw [hsize, hss]
    omega
  exact h k h3 hfit

/-- Padded data has whole words. -/
theorem padToWords_length (data : List UInt8) :
    (padToWords data).length = (data.length + 3) / wordSize * wordSize := by
  have hw : wordSize = 4 := rfl
  simp only [padToWords, List.length_append, List.length_replicate, hw]
  omega

/-- Whole words are not padded. -/
theorem padToWords_of_aligned {data : List UInt8} (h : data.length % wordSize = 0) :
    padToWords data = data := by
  have hw : wordSize = 4 := rfl
  rw [hw] at h
  simp [padToWords, hw, h]

/-- `aligned_write` issues one write, of its data padded to whole words. -/
theorem alignedWrite_eq {target : Partition} {offset : ℕ} (data : List UInt8)
    (h : target.offset + offset < 2^32) :
    (alignedWrite target offset data : OtaM (Device geometry) Unit) =
      flashCall (target.offset + offset)
        (NorFlash.write (target.offset + offset) (padToWords data)) := by
  unfold alignedWrite
  rw [add32_of_lt h, orPanic_some, pure_bind]
  split
  · rename_i hal
    rw [padToWords_of_aligned hal]
  · rfl

/-- An aligned write keeps what the write of the padded data keeps. -/
theorem keeps_alignedWrite {target : Partition} {offset : ℕ} {data : List UInt8}
    (h : Keeps I (Device.issue (.write (target.offset + offset) (padToWords data)))) :
    Keeps I (alignedWrite target offset data) := by
  by_cases hlt : target.offset + offset < 2^32
  · rw [alignedWrite_eq data hlt]
    exact keeps_flashCall h
  · unfold alignedWrite
    rw [add32_eq_none.2 (by omega)]
    exact Keeps.throw _

section Otadata

variable (h : ∀ op : Op, op.Within otadataOffset otadataEnd → Keeps I (Device.issue op))
include h

/-- Reading an entry keeps the invariant. -/
theorem keeps_readOtadataEntry (p : Partition) : Keeps I (readOtadataEntry p.index) := by
  have hb := slotOffset_bounds p
  have he : otaEntrySize ≤ sectorSize := by decide
  exact keeps_flashCall (Device.keeps_read
    (h (.read (slotOffset p) otaEntrySize) ⟨hb.1, by simp only [Op.stop]; omega⟩))

/-- Reading both entries keeps the invariant. -/
theorem keeps_readOtadataEntries : Keeps I readOtadataEntries :=
  (keeps_readOtadataEntry h .ota0).bind fun _ =>
    (keeps_readOtadataEntry h .ota1).bind fun _ => Keeps.pure _

/-- Writing an entry keeps the invariant. -/
theorem keeps_writeOtadataSlot (p : Partition) {entry : List UInt8}
    (hlen : entry.length = otaEntrySize) : Keeps I (writeOtadataSlot p.index entry) := by
  have hb := slotOffset_bounds p
  have he : otaEntrySize ≤ sectorSize := by decide
  have hr : Keeps I (Device.issue (.read (slotOffset p) sectorSize)) := h _ hb
  refine (keeps_flashCall (Device.keeps_read hr)).bind_of fun sector d d' hread => ?_
  have hsector : sector.length = sectorSize := by
    have hread' : NorFlash.read (slotOffset p) sectorSize d = .ok sector d' := mapErr_eq_ok.1 hread
    exact Device.read_length hread'
  have hw : Keeps I (Device.issue (.write (slotOffset p) (entry ++ sector.drop otaEntrySize))) := by
    refine h _ ⟨hb.1, ?_⟩
    simp only [Op.stop, List.length_append, hlen, List.length_drop, hsector]
    omega
  exact (keeps_flashCall (h (.erase (slotOffset p) (slotOffset p + sectorSize)) hb)).bind
    fun _ => keeps_flashCall hw

/-- Switching the boot partition keeps the invariant. -/
theorem keeps_setBootPartition (p : Partition) : Keeps I (setBootPartition p) := by
  unfold setBootPartition
  refine (keeps_readOtadataEntries h).bind fun entries => ?_
  refine (keeps_orPanic _).bind fun newSeq => (keeps_orPanic _).bind fun below =>
    (keeps_debugAssert _).bind fun _ => ?_
  refine (keeps_writeOtadataSlot h p (buildOtadataEntry_length _)).bind fun _ => Keeps.ite ?_
    (Keeps.pure _)
  rw [← Partition.index_other]
  exact (keeps_orPanic _).bind fun _ =>
    keeps_writeOtadataSlot h p.other (buildOtadataEntry_length _)

/-- Finding the running partition keeps the invariant. -/
theorem keeps_detectRunningPartition : Keeps I detectRunningPartition := by
  have hseqs : Keeps I readOtadataSequences :=
    (keeps_readOtadataEntries h).bind fun _ => Keeps.pure _
  unfold detectRunningPartition
  exact hseqs.bind fun _ => Keeps.ite (Keeps.pure _) (Keeps.pure _)

end Otadata

/-! ## The updater -/

namespace EspOtaFlash

/-- The chunk gets past the checks of `write`. -/
def Passes {S : Type} (o : EspOtaFlash S) (chunk : List UInt8) : Prop :=
  o.inProgress ∧ chunk ≠ [] ∧ (o.firstChunkValidated ∨ chunk.head? = some 0xE9) ∧
    o.writeOffset + chunk.length % 2^32 ≤ o.target.size

section Generic

variable {S : Type} {o : EspOtaFlash S} {chunk : List UInt8}

/-- As many bytes are pending as are counted. -/
@[simp] theorem pending_length (o : EspOtaFlash S) : o.pending.length = o.pendingLen := by
  have := o.pendingLen.isLt
  simp only [pending, List.length_take, Vector.length_toList]
  omega

/-- The check of the magic byte passes if it passed before or the byte is right. -/
theorem checkMagic_ok (h : o.firstChunkValidated ∨ chunk.head? = some 0xE9) :
    checkMagic chunk o = .ok () { o with firstChunkValidated := true } := by
  unfold checkMagic
  refine (bind_ok (get_apply o)).trans ?_
  by_cases hv : o.firstChunkValidated
  · rw [if_pos hv, pure_apply, ← hv]
  · rw [if_neg hv, if_neg (by simpa [hv] using h), modify_apply]

/-- The check of the bound passes if the chunk fits the partition. -/
theorem checkBound_ok (h : o.writeOffset + chunk.length % 2^32 ≤ o.target.size) :
    checkBound chunk o = .ok () o := by
  have hlt := o.target.size_lt
  unfold checkBound
  refine (bind_ok (get_apply o)).trans ?_
  rw [add32_of_lt (by omega), orPanic_some, pure_bind, if_neg (by omega), pure_apply]

/-- The pending bytes come before those of the chunk. -/
theorem takePending_ok :
    takePending chunk o = .ok (o.pending ++ chunk) { o with pendingLen := 0 } := by
  unfold takePending
  refine (bind_ok (get_apply o)).trans ?_
  by_cases hp : 0 < o.pendingLen.val
  · rw [if_pos hp]
    rfl
  · have h0 : o.pendingLen = 0 := by omega
    have hnil : o.pending = [] := List.eq_nil_of_length_eq_zero (by simp [h0])
    rw [if_neg hp, hnil, ← h0]
    rfl

variable [NorFlash S]

/-- A chunk that gets past the checks is written with the pending bytes before it. -/
theorem write_of_passes (h : o.Passes chunk) :
    write chunk o =
      (do
        writeWords (o.pending ++ chunk)
        bufferTail (o.pending ++ chunk)
        countBytes chunk : OtaM (EspOtaFlash S) Unit)
      { o with
        firstChunkValidated := true, firmwareCrc := crc32Update o.firmwareCrc chunk,
        pendingLen := 0 } := by
  obtain ⟨hprog, hne, hmagic, hbound⟩ := h
  have hempty : chunk.isEmpty = false := by simpa using hne
  unfold write
  refine (bind_ok (get_apply o)).trans ?_
  rw [if_neg (by simp [hprog]), if_neg (by simp [hempty])]
  have hchecked := checkBound_ok (o := { o with firstChunkValidated := true }) hbound
  refine (bind_ok (checkMagic_ok hmagic)).trans ((bind_ok hchecked).trans ?_)
  exact (bind_ok (modify_apply _ _)).trans (bind_ok takePending_ok)

/-- An empty chunk changes nothing. -/
theorem final_write_nil : final (write []) o = o := by
  unfold write
  rw [final_get_bind]
  by_cases hprog : o.inProgress
  · rw [if_neg (by simpa using hprog), if_pos List.isEmpty_nil]
    rfl
  · rw [if_pos (by simpa using hprog)]
    rfl

/-- A chunk that does not get past the checks is refused, and changes at most whether the first
chunk counts as validated. -/
theorem write_of_not_passes (hne : chunk ≠ []) (h : ¬ o.Passes chunk) :
    ∃ e b, write chunk o = .error e { o with firstChunkValidated := b } := by
  unfold write
  rw [bind_ok (get_apply o)]
  by_cases hprog : o.inProgress
  swap
  · rw [if_pos (by simpa using hprog)]
    exact ⟨_, o.firstChunkValidated, rfl⟩
  rw [if_neg (by simpa using hprog), if_neg (by simpa using hne)]
  by_cases hmagic : o.firstChunkValidated ∨ chunk.head? = some 0xE9
  · -- The bound is the check that fails: either the sum panics, or it is past the partition.
    have hbound : o.target.size < o.writeOffset + chunk.length % 2^32 :=
      Nat.lt_of_not_le fun hle => h ⟨hprog, hne, hmagic, hle⟩
    have hfail : ∃ e, checkBound chunk { o with firstChunkValidated := true } =
        .error e { o with firstChunkValidated := true } := by
      unfold checkBound
      rw [bind_ok (get_apply _)]
      cases hadd : add32 o.writeOffset (chunk.length % 2^32) with
      | none => exact ⟨_, rfl⟩
      | some stop =>
        obtain ⟨-, rfl⟩ := add32_eq_some.1 hadd
        rw [orPanic_some, pure_bind, if_pos hbound]
        exact ⟨_, rfl⟩
    obtain ⟨e, hfail⟩ := hfail
    exact ⟨e, true, (bind_ok (checkMagic_ok hmagic)).trans (bind_error hfail)⟩
  · rw [not_or] at hmagic
    have hfail : checkMagic chunk o = .error (.error .invalidImageHeader) o := by
      unfold checkMagic
      refine (bind_ok (get_apply o)).trans ?_
      rw [if_neg hmagic.1, if_pos hmagic.2, throw_apply]
    exact ⟨_, o.firstChunkValidated, bind_error hfail⟩

/-- The whole words of a chunk of data. -/
def wholeWords (data : List UInt8) : List UInt8 :=
  data.take (data.length / wordSize * wordSize)

/-- As many whole words are taken as there are. -/
theorem wholeWords_length (data : List UInt8) :
    (wholeWords data).length = data.length / wordSize * wordSize := by
  rw [wholeWords, List.length_take]
  exact Nat.min_eq_left (Nat.div_mul_le_self _ _)

/-- What `writeWords` does to the flash. -/
def wordsFlash (o : EspOtaFlash S) (data : List UInt8) : OtaM S Unit :=
  if 0 < data.length / wordSize then alignedWrite o.target o.writeOffset (wholeWords data)
  else pure ()

/-- What `flushPending` does to the flash. -/
def flushFlash (o : EspOtaFlash S) : OtaM S Unit :=
  if 0 < o.pendingLen.val then alignedWrite o.target o.writeOffset o.pending else pure ()

/-- `writeWords` changes the flash, and moves `write_offset` by the words or leaves it. -/
theorem writeWords_cases (o : EspOtaFlash S) (data : List UInt8) :
    ∃ w, final (writeWords data) o =
        { o with flash := final (wordsFlash o data) o.flash, writeOffset := w } ∧
      (w = o.writeOffset ∨
        0 < data.length / wordSize ∧
          w = o.writeOffset + data.length / wordSize * wordSize % 2^32) := by
  unfold writeWords wordsFlash wholeWords
  dsimp only
  by_cases hwords : 0 < data.length / wordSize
  · rw [if_pos hwords, if_pos hwords, final_get_bind]
    cases hw : alignedWrite o.target o.writeOffset
        (data.take (data.length / wordSize * wordSize)) o.flash with
    | error e f =>
      rw [final_error hw]
      exact ⟨o.writeOffset, final_bind_error (onFlash_error hw), .inl rfl⟩
    | ok a f =>
      rw [final_ok hw]
      rw [final_bind_ok (onFlash_ok hw)]
      cases hadd : add32 o.writeOffset (data.length / wordSize * wordSize % 2^32) with
      | none => exact ⟨o.writeOffset, rfl, .inl rfl⟩
      | some w =>
        obtain ⟨-, rfl⟩ := add32_eq_some.1 hadd
        exact ⟨_, rfl, .inr ⟨hwords, rfl⟩⟩
  · rw [if_neg hwords, if_neg hwords]
    exact ⟨o.writeOffset, rfl, .inl rfl⟩

/-- What `write` can do: nothing but mark the first chunk, or the effect of its whole words. -/
theorem write_cases (o : EspOtaFlash S) (chunk : List UInt8) :
    (¬ o.Passes chunk ∧ ∃ b, final (write chunk) o = { o with firstChunkValidated := b }) ∨
      (o.Passes chunk ∧ ∃ w buf len n, final (write chunk) o =
          { o with
            flash := final (wordsFlash o (o.pending ++ chunk)) o.flash, writeOffset := w,
            firstChunkValidated := true, firmwareCrc := crc32Update o.firmwareCrc chunk,
            pendingBytes := buf, pendingLen := len, bytesWritten := n } ∧
        (w = o.writeOffset ∨
          0 < (o.pending ++ chunk).length / wordSize ∧
            w = o.writeOffset + (o.pending ++ chunk).length / wordSize * wordSize % 2^32)) := by
  by_cases hp : o.Passes chunk
  swap
  -- A chunk that is refused is at most marked as the first one.
  · refine .inl ⟨hp, ?_⟩
    by_cases hne : chunk = []
    · subst hne
      exact ⟨o.firstChunkValidated, final_write_nil⟩
    · obtain ⟨e, b, hfail⟩ := write_of_not_passes hne hp
      exact ⟨b, final_error hfail⟩
  refine .inr ⟨hp, ?_⟩
  obtain ⟨w, hfinal, hw⟩ := writeWords_cases
    { o with
      firstChunkValidated := true, firmwareCrc := crc32Update o.firmwareCrc chunk,
      pendingLen := 0 } (o.pending ++ chunk)
  refine ⟨w, ?_⟩
  -- What follows changes no field but those of the buffer and the count.
  let J : EspOtaFlash S → Prop := fun s => ∃ buf len n, s =
    { o with
      flash := final (wordsFlash o (o.pending ++ chunk)) o.flash, writeOffset := w,
      firstChunkValidated := true, firmwareCrc := crc32Update o.firmwareCrc chunk,
      pendingBytes := buf, pendingLen := len, bytesWritten := n }
  have htail : Keeps J (bufferTail (o.pending ++ chunk)) := by
    unfold bufferTail
    refine Keeps.ite (Keeps.modify ?_) (Keeps.pure _)
    rintro s ⟨buf, len, n, rfl⟩
    exact ⟨_, _, _, rfl⟩
  have hcount : Keeps J (countBytes chunk) := by
    refine keeps_get_bind fun s hs => ?_
    refine ((keeps_orPanic _).bind fun n' => Keeps.modify ?_) s hs
    rintro s ⟨buf, len, n, rfl⟩
    exact ⟨_, _, _, rfl⟩
  have hwords : J (final (writeWords (o.pending ++ chunk))
      { o with
        firstChunkValidated := true, firmwareCrc := crc32Update o.firmwareCrc chunk,
        pendingLen := 0 }) := ⟨_, _, _, hfinal⟩
  have hrest := final_bind hwords fun _ => htail.bind fun _ => hcount
  obtain ⟨buf, len, n, h⟩ := hrest
  refine ⟨buf, len, n, ?_, hw⟩
  rw [← h, final, write_of_passes hp]
  rfl

/-- A chunk that is written got past the checks, and is summed and counted. -/
theorem write_eq_ok {o' : EspOtaFlash S} (hne : chunk ≠ []) (h : write chunk o = .ok () o') :
    o.Passes chunk ∧ o'.firmwareCrc = crc32Update o.firmwareCrc chunk ∧
      o'.bytesWritten = o.bytesWritten + chunk.length % 2^32 := by
  by_cases hp : o.Passes chunk
  swap
  · obtain ⟨e, b, hfail⟩ := write_of_not_passes hne hp
    rw [hfail] at h
    cases h
  -- Before the count, the sum is that of the chunk and the count is the old one.
  let J : EspOtaFlash S → Prop := fun s =>
    s.firmwareCrc = crc32Update o.firmwareCrc chunk ∧ s.bytesWritten = o.bytesWritten
  have htail : Keeps J (bufferTail (o.pending ++ chunk)) :=
    Keeps.ite (Keeps.modify fun _ hs => hs) (Keeps.pure _)
  rw [write_of_passes hp] at h
  obtain ⟨_, o1, hwords, h⟩ := bind_eq_ok.1 h
  obtain ⟨_, o2, hbuffer, hcount⟩ := bind_eq_ok.1 h
  have h1 : J o1 := by
    obtain ⟨w, hfinal, -⟩ := writeWords_cases
      { o with
        firstChunkValidated := true, firmwareCrc := crc32Update o.firmwareCrc chunk,
        pendingLen := 0 } (o.pending ++ chunk)
    rw [final_ok hwords] at hfinal
    rw [hfinal]
    exact ⟨rfl, rfl⟩
  obtain ⟨hcrc, hbytes⟩ := htail.ok h1 hbuffer
  refine ⟨hp, ?_⟩
  unfold countBytes at hcount
  rw [bind_ok (get_apply o2)] at hcount
  cases hadd : add32 o2.bytesWritten (chunk.length % 2^32) with
  | none =>
    rw [hadd] at hcount
    cases hcount
  | some n =>
    rw [hadd] at hcount
    cases hcount
    obtain ⟨-, rfl⟩ := add32_eq_some.1 hadd
    exact ⟨hcrc, by rw [hbytes]⟩

/-- What `finalize` does when it gets past its checks: the flush, and then, unless it stops, the
switch of the boot partition. -/
theorem finalize_keeps {J : S → Prop} (o : EspOtaFlash S)
    (h0 : ¬ (o.inProgress ∧ o.bytesWritten ≠ 0) → J o.flash)
    (hflush : o.inProgress → o.bytesWritten ≠ 0 → J (final (flushFlash o) o.flash))
    (hset : Keeps J (setBootPartition o.target)) :
    J (final finalize o).flash ∧ (final finalize o).running = o.running ∧
      (final finalize o).target = o.target ∧
      ((final finalize o).writeOffset = o.writeOffset ∨
        o.inProgress ∧ o.bytesWritten ≠ 0 ∧ 0 < o.pendingLen.val ∧
          (final finalize o).writeOffset = o.writeOffset + o.pendingLen) := by
  unfold finalize
  rw [final_get_bind]
  by_cases hprog : o.inProgress
  swap
  · rw [if_pos (by simpa using hprog)]
    exact ⟨h0 fun h => hprog h.1, rfl, rfl, .inl rfl⟩
  rw [if_neg (by simpa using hprog)]
  by_cases hbytes : o.bytesWritten = 0
  · rw [if_pos hbytes]
    exact ⟨h0 fun h => h.2 hbytes, rfl, rfl, .inl rfl⟩
  rw [if_neg hbytes]
  -- The flush moves the offset at most by the bytes of the buffer, and the switch keeps it.
  let K : EspOtaFlash S → Prop := fun s => J s.flash ∧ s.running = o.running ∧
    s.target = o.target ∧ (s.writeOffset = o.writeOffset ∨
      o.inProgress ∧ o.bytesWritten ≠ 0 ∧ 0 < o.pendingLen.val ∧
        s.writeOffset = o.writeOffset + o.pendingLen)
  have hflush' : K (final flushPending o) := by
    have hj := hflush hprog hbytes
    unfold flushFlash at hj
    unfold flushPending
    rw [final_get_bind]
    by_cases hpend : 0 < o.pendingLen.val
    · rw [if_pos hpend] at hj ⊢
      cases hw : alignedWrite o.target o.writeOffset o.pending o.flash with
      | error e f =>
        rw [final_error hw] at hj
        rw [final_bind_error (onFlash_error hw)]
        exact ⟨hj, rfl, rfl, .inl rfl⟩
      | ok a f =>
        rw [final_ok hw] at hj
        rw [final_bind_ok (onFlash_ok hw)]
        cases hadd : add32 o.writeOffset o.pendingLen with
        | none => exact ⟨hj, rfl, rfl, .inl rfl⟩
        | some w =>
          obtain ⟨-, rfl⟩ := add32_eq_some.1 hadd
          exact ⟨hj, rfl, rfl, .inr ⟨hprog, hbytes, hpend, rfl⟩⟩
    · rw [if_neg hpend] at hj ⊢
      exact ⟨hj, rfl, rfl, .inl rfl⟩
  have hset' : Keeps K (onFlash (setBootPartition o.target)) :=
    Keeps.zoom hset (fun s hs => hs.1) fun s t hs ht => ⟨ht, hs.2⟩
  have hmod : Keeps K (modify fun s => { s with inProgress := false } :
      OtaM (EspOtaFlash S) Unit) := Keeps.modify fun s hs => hs
  exact final_bind hflush' fun _ => hset'.bind fun _ => hmod

/-- What `begin` does when it gets past its check: the erase, and then the reset of the progress. -/
theorem begin_keeps {J : S → Prop} (o : EspOtaFlash S) (h0 : J o.flash)
    (herase : Keeps J (eraseRange o.target 0 o.target.size)) :
    J (final begin o).flash ∧ (final begin o).running = o.running ∧
      (final begin o).target = o.target ∧
      ((final begin o).writeOffset = o.writeOffset ∨ (final begin o).writeOffset = 0) := by
  unfold begin
  rw [final_get_bind]
  split
  · exact ⟨h0, rfl, rfl, .inl rfl⟩
  · have hj := herase o.flash h0
    cases he : eraseRange o.target 0 o.target.size o.flash with
    | error e f =>
      rw [final_error he] at hj
      rw [final_bind_error (onFlash_error he)]
      exact ⟨hj, rfl, rfl, .inl rfl⟩
    | ok a f =>
      rw [final_ok he] at hj
      rw [final_bind_ok (onFlash_ok he)]
      exact ⟨hj, rfl, rfl, .inr rfl⟩

end Generic

end EspOtaFlash

/-- The calls that download firmware. The others only read otadata, or switch the boot partition. -/
def OtaCall.downloads : OtaCall → Bool
  | .begin | .write _ | .finalize => true
  | _ => false

/-- A call that does not download firmware changes nothing but the otadata partition. -/
theorem EspOtaFlash.step_keeps (h : ∀ op : Op, op.Within otadataOffset otadataEnd →
    Keeps I (Device.issue op)) (o : EspOtaFlash (Device geometry)) {c : OtaCall}
    (hc : c.downloads = false) (h0 : I o.flash) :
    ∃ f, o.step c = { o with flash := f } ∧ I f := by
  let K : EspOtaFlash (Device geometry) → Prop := fun s => ∃ f, s = { o with flash := f } ∧ I f
  have hK : K o := ⟨o.flash, rfl, h0⟩
  have hflash : ∀ {α : Type} {m : OtaM (Device geometry) α}, Keeps I m → Keeps K (onFlash m) := by
    rintro α m hm
    refine Keeps.zoom hm ?_ ?_
    · rintro s ⟨f, rfl, hf⟩
      exact hf
    · rintro s t ⟨f, rfl, -⟩ ht
      exact ⟨t, rfl, ht⟩
  have hset : ∀ p, Keeps K (onFlash (setBootPartition p)) := fun p =>
    hflash (keeps_setBootPartition h p)
  have hread : Keeps K (onFlash readOtadataEntries) := hflash (keeps_readOtadataEntries h)
  suffices hcall : Keeps K (call c) from hcall o hK
  cases c with
  | begin => cases hc
  | write chunk => cases hc
  | finalize => cases hc
  | markValid =>
    refine hread.bind fun entries => Keeps.ite (Keeps.pure _) (keeps_get_bind fun s hs => ?_)
    exact Keeps.ite (Keeps.pure _) (hset _) s hs
  | needsValidation =>
    refine Keeps.bind ((keeps_attempt hread).bind fun entries => ?_) fun _ => Keeps.pure _
    cases entries with
    | none => exact Keeps.pure _
    | some entries => exact Keeps.get.bind fun _ => Keeps.pure _
  | rollbackAndReboot => exact keeps_get_bind fun s hs => hset _ s hs
  | verifyHash crc =>
    exact keeps_get_bind fun s hs => Keeps.ite (Keeps.throw _) (Keeps.pure _) s hs
  | validateFirstChunk chunk => exact Keeps.ite (Keeps.throw _) (Keeps.pure _)
  | detectRunningPartition =>
    exact (hflash (keeps_detectRunningPartition h)).bind fun _ => Keeps.pure _

/-! ## The download apart from otadata -/

namespace EspOtaFlash

/-- The updater for `r` and `t` whose flash has `I`. -/
def With (r t : Partition) (I : Device geometry → Prop) (o : EspOtaFlash (Device geometry)) :
    Prop :=
  o.running = r ∧ o.target = t ∧ I o.flash

section Download

variable {r t : Partition} (h : ∀ op : Op, otadataEnd ≤ op.start → Keeps I (Device.issue op))

/-- An operation on the flash keeps of the updater what it keeps of the flash. -/
theorem keeps_onFlash {α : Type} {m : OtaM (Device geometry) α} (hm : Keeps I m) :
    Keeps (With r t I) (onFlash m) :=
  hm.zoom (fun _ hs => hs.2.2) fun _ _ hs ht => ⟨hs.1, hs.2.1, ht⟩

include h

/-- An aligned write in the target keeps the invariant. -/
theorem keeps_alignedWrite_of_start (offset : ℕ) (data : List UInt8) :
    Keeps I (alignedWrite t offset data) := by
  have ht : otadataEnd ≤ t.offset := by cases t <;> decide
  exact keeps_alignedWrite (h _ (Nat.le_trans ht (Nat.le_add_right _ _)))

/-- `begin` issues nothing before the end of otadata. -/
theorem keeps_begin : Keeps (With r t I) begin := by
  rintro o ⟨rfl, rfl, ho⟩
  have ht : otadataEnd ≤ o.target.offset := by cases o.target <;> decide
  obtain ⟨hf, hr, ht, -⟩ := begin_keeps o ho (keeps_eraseRange _ fun k _ _ =>
    h _ (Nat.le_trans ht (Nat.le_add_right _ _)))
  exact ⟨hr, ht, hf⟩

/-- `write` issues nothing before the end of otadata. -/
theorem keeps_write (chunk : List UInt8) : Keeps (With r t I) (write chunk) := by
  rintro o ⟨rfl, rfl, ho⟩
  rcases write_cases o chunk with ⟨-, b, hf⟩ | ⟨-, w, buf, len, n, hf, -⟩
  · rw [hf]
    exact ⟨rfl, rfl, ho⟩
  · rw [hf]
    exact ⟨rfl, rfl, Keeps.ite (keeps_alignedWrite_of_start h _ _) (Keeps.pure _) _ ho⟩

/-- `flushPending` issues nothing before the end of otadata. -/
theorem keeps_flushPending : Keeps (With r t I) flushPending := by
  refine keeps_get_bind fun o ho => ?_
  have hwrite : Keeps (With r t I) (onFlash (alignedWrite o.target o.writeOffset o.pending)) :=
    keeps_onFlash (keeps_alignedWrite_of_start h _ _)
  have hrest : ∀ (w : ℕ), Keeps (With r t I)
      (modify fun s => { s with writeOffset := w, pendingLen := 0 } : OtaM _ Unit) := fun w =>
    Keeps.modify fun _ hs => hs
  exact Keeps.ite (hwrite.bind fun _ => (keeps_orPanic _).bind hrest) (Keeps.pure _) o ho

end Download

end EspOtaFlash

end Launa.EspOta
