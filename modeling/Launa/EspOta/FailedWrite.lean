import Launa.EspOta.Issued

/-!
# A write that fails

`write` marks the first chunk, sums the CRC and empties the buffer of pending bytes before it calls
the flash, and none of this is undone when a check or the flash then fails. So a failed write leaves
the progress alone unless it is the first chunk and too long for the partition (`TooLongFirst`), or
the flash refuses its whole words (`WordsRefused`) when there was something to lose
(`keepsProgress_iff`). A write that keeps the progress can be tried again: it then does what it
would have done the first time.
-/

namespace Launa.EspOta

open Stateful Checked Nor

namespace EspOtaFlash

variable {S : Type} {o o' : EspOtaFlash S} {chunk : List UInt8}

/-- The progress of an update, as far as `write` keeps it, is the same. -/
structure SameProgress (o o' : EspOtaFlash S) : Prop where
  writeOffset : o'.writeOffset = o.writeOffset
  bytesWritten : o'.bytesWritten = o.bytesWritten
  firmwareCrc : o'.firmwareCrc = o.firmwareCrc
  pending : o'.pending = o.pending
  firstChunkValidated : o'.firstChunkValidated = o.firstChunkValidated

/-- A first chunk that has the magic byte and ends past the partition. -/
def TooLongFirst (o : EspOtaFlash S) (chunk : List UInt8) : Prop :=
  o.inProgress ∧ o.firstChunkValidated = false ∧ chunk.head? = some 0xE9 ∧
    o.target.size < o.writeOffset + chunk.length % 2^32 ∧
    o.writeOffset + chunk.length % 2^32 < 2^32

/-- An error that leaves all but the flash as it was keeps the progress. -/
theorem sameProgress_flash (f : S) : SameProgress o { o with flash := f } :=
  ⟨rfl, rfl, rfl, rfl, rfl⟩

/-- After the whole words there is no error but a panic. -/
theorem bufferTail_countBytes_ne_error {data : List UInt8} {e : OtaError} :
    (bufferTail data >>= fun _ => countBytes chunk) o ≠ .error (.error e) o' := by
  intro h
  obtain ⟨o1, hbuffer⟩ : ∃ o1, bufferTail data o = .ok () o1 := by
    unfold bufferTail
    by_cases htail : 0 < data.length % wordSize
    · exact ⟨_, by rw [if_pos htail, modify_apply]⟩
    · exact ⟨o, by rw [if_neg htail, pure_apply]⟩
  rw [bind_ok hbuffer] at h
  unfold countBytes at h
  rw [bind_ok (get_apply o1)] at h
  cases hadd : add32 o1.bytesWritten (chunk.length % 2^32) with
  | none =>
    rw [hadd] at h
    cases h
  | some n =>
    rw [hadd] at h
    cases h

variable [NorFlash S]

/-- The flash refuses the whole words of a chunk that gets past the checks. -/
def WordsRefused (o : EspOtaFlash S) (chunk : List UInt8) : Prop :=
  o.Passes chunk ∧
    ∃ e f, wordsFlash o (o.pending ++ chunk) o.flash = .error (.error e) f

/-- An error of the write leaves the progress as it was, and the same chunk written again, on
whatever flash, gives what it would have given in place of the write that failed. -/
def KeepsProgress (o : EspOtaFlash S) (chunk : List UInt8) : Prop :=
  ∀ (e : OtaError) (o' : EspOtaFlash S), write chunk o = .error (.error e) o' →
    SameProgress o o' ∧
      ∀ f : S, write chunk { o' with flash := f } = write chunk { o with flash := f }

/-! ## What an error leaves -/

/-- An error of the whole words is one of the flash. -/
theorem writeWords_eq_error {data : List UInt8} {e : OtaError} :
    writeWords data o = .error (.error e) o' ↔
      ∃ f, wordsFlash o data o.flash = .error (.error e) f ∧ o' = { o with flash := f } := by
  unfold writeWords wordsFlash wholeWords
  dsimp only
  by_cases hwords : 0 < data.length / wordSize
  · rw [if_pos hwords, if_pos hwords, bind_ok (get_apply o)]
    cases hw : alignedWrite o.target o.writeOffset
        (data.take (data.length / wordSize * wordSize)) o.flash with
    | error e' f =>
      rw [bind_error (onFlash_error hw)]
      constructor
      · intro h
        cases h
        exact ⟨f, rfl, rfl⟩
      · rintro ⟨f', h, rfl⟩
        cases h
        rfl
    | ok a f =>
      rw [bind_ok (onFlash_ok hw)]
      -- Only the sum can stop it now, and that is a panic.
      refine iff_of_false (fun h => ?_) (by simp)
      cases hadd : add32 o.writeOffset (data.length / wordSize * wordSize % 2^32) with
      | none =>
        rw [hadd] at h
        cases h
      | some w =>
        rw [hadd] at h
        cases h
  · rw [if_neg hwords, if_neg hwords]
    simp

/-- An error of a chunk that gets past the checks is one of the flash, and leaves the chunk summed
and the pending bytes dropped. -/
theorem write_eq_error_of_passes (h : o.Passes chunk) {e : OtaError} :
    write chunk o = .error (.error e) o' ↔
      ∃ f, wordsFlash o (o.pending ++ chunk) o.flash = .error (.error e) f ∧
        o' = { o with
          flash := f, firstChunkValidated := true,
          firmwareCrc := crc32Update o.firmwareCrc chunk, pendingLen := 0 } := by
  rw [write_of_passes h, bind_eq_error, writeWords_eq_error, or_iff_left]
  · rfl
  · rintro ⟨_, o1, -, hrest⟩
    exact bufferTail_countBytes_ne_error hrest

omit [NorFlash S] in
/-- A chunk that is too long is refused by the check of the bound. -/
theorem checkBound_of_lt (hbound : o.target.size < o.writeOffset + chunk.length % 2^32)
    (hsum : o.writeOffset + chunk.length % 2^32 < 2^32) :
    checkBound chunk o = .error (.error (.writeFailed o.bytesWritten)) o := by
  unfold checkBound
  rw [bind_ok (get_apply _), add32_of_lt hsum, orPanic_some, pure_bind, if_pos hbound]
  rfl

/-- A first chunk that is too long is refused, and marked. -/
theorem write_of_tooLongFirst (h : o.TooLongFirst chunk) :
    write chunk o = .error (.error (.writeFailed o.bytesWritten))
      { o with firstChunkValidated := true } := by
  obtain ⟨hprog, -, hmagic, hbound, hsum⟩ := h
  have hne : chunk ≠ [] := by
    rintro rfl
    exact absurd hmagic (Option.some_ne_none _).symm
  have hfail : checkBound chunk { o with firstChunkValidated := true } =
      .error (.error (.writeFailed o.bytesWritten)) { o with firstChunkValidated := true } :=
    checkBound_of_lt hbound hsum
  unfold write
  rw [bind_ok (get_apply o), if_neg (by simpa using hprog), if_neg (by simpa using hne),
    bind_ok (checkMagic_ok (.inr hmagic))]
  exact bind_error hfail

/-- An error of a chunk that does not get past the checks leaves everything, unless it is a first
chunk that is too long. -/
theorem write_error_of_not_passes (h : ¬ o.Passes chunk) (hlong : ¬ o.TooLongFirst chunk)
    {e : OtaError} (herr : write chunk o = .error (.error e) o') : o' = o := by
  by_cases hne : chunk = []
  · subst hne
    exact (final_error herr).symm.trans final_write_nil
  unfold write at herr
  rw [bind_ok (get_apply o)] at herr
  by_cases hprog : o.inProgress
  swap
  · rw [if_pos (by simpa using hprog)] at herr
    cases herr
    rfl
  rw [if_neg (by simpa using hprog), if_neg (by simpa using hne)] at herr
  by_cases hmagic : o.firstChunkValidated ∨ chunk.head? = some 0xE9
  swap
  · rw [not_or] at hmagic
    have hfail : checkMagic chunk o = .error (.error .invalidImageHeader) o := by
      unfold checkMagic
      rw [bind_ok (get_apply o), if_neg hmagic.1, if_pos hmagic.2, throw_apply]
    rw [bind_error hfail] at herr
    cases herr
    rfl
  -- The bound is the check that fails, and the chunk was not the first.
  have hbound : o.target.size < o.writeOffset + chunk.length % 2^32 :=
    Nat.lt_of_not_le fun hle => h ⟨hprog, hne, hmagic, hle⟩
  rw [bind_ok (checkMagic_ok hmagic)] at herr
  by_cases hsum : o.writeOffset + chunk.length % 2^32 < 2^32
  · have hvalid : o.firstChunkValidated = true := by
      by_contra hv
      refine hlong ⟨hprog, by simpa using hv, hmagic.resolve_left hv, hbound, hsum⟩
    have hfail : checkBound chunk { o with firstChunkValidated := true } =
        .error (.error (.writeFailed o.bytesWritten)) { o with firstChunkValidated := true } :=
      checkBound_of_lt hbound hsum
    rw [bind_error hfail, ← hvalid] at herr
    cases herr
    rfl
  · have hfail : checkBound chunk { o with firstChunkValidated := true } =
        .error .panic { o with firstChunkValidated := true } := by
      unfold checkBound
      rw [bind_ok (get_apply _), add32_eq_none.2 (Nat.not_lt.1 hsum)]
      rfl
    rw [bind_error hfail] at herr
    cases herr

/-! ## When the progress is kept -/

/-- A failed write leaves the progress as it was, and can be tried again, exactly when the chunk is
not a first one that is too long, and the flash does not refuse its whole words, unless no byte is
pending, the first chunk has been seen and the CRC of the chunk leaves the sum as it is. -/
theorem keepsProgress_iff (o : EspOtaFlash S) (chunk : List UInt8) :
    KeepsProgress o chunk ↔
      ¬ o.TooLongFirst chunk ∧
        (o.WordsRefused chunk →
          o.firstChunkValidated = true ∧ o.pendingLen = 0 ∧
            crc32Update o.firmwareCrc chunk = o.firmwareCrc) := by
  constructor
  · intro h
    refine ⟨fun hlong => ?_, ?_⟩
    · have hmark := (h _ _ (write_of_tooLongFirst hlong)).1.firstChunkValidated
      exact absurd (hmark.trans hlong.2.1) (by simp)
    · rintro ⟨hpass, e, f, hrefused⟩
      have hsame := (h e _ ((write_eq_error_of_passes hpass).2 ⟨f, hrefused, rfl⟩)).1
      refine ⟨hsame.firstChunkValidated.symm, ?_, hsame.firmwareCrc⟩
      -- The pending bytes are gone, so there were none.
      have hlen := congrArg List.length hsame.pending
      rw [pending_length, pending_length] at hlen
      exact Fin.ext hlen.symm
  · rintro ⟨hlong, hrefused⟩ e o' herr
    have hflash : o' = { o with flash := o'.flash } := by
      by_cases hpass : o.Passes chunk
      · obtain ⟨f, hwords, rfl⟩ := (write_eq_error_of_passes hpass).1 herr
        obtain ⟨hvalid, hlen, hcrc⟩ := hrefused ⟨hpass, e, f, hwords⟩
        rw [← hvalid, hcrc, ← hlen]
      · rw [write_error_of_not_passes hpass hlong herr]
    rw [hflash]
    exact ⟨sameProgress_flash _, fun f => rfl⟩

/-- The updater after `begin`, on an erased chip whose first operation from here on fails. -/
def firstFails : EspOtaFlash (Device geometry) :=
  { EspOtaFlash.new (Device.start geometry (fun _ => 0xFF) fun n _ =>
      if n = 0 then some fun _ => 0xFF else none) .ota0 with
    inProgress := true }

/-- The flash refuses the first word, and the chunk stays summed. -/
theorem firstFails_not_keepsProgress :
    ¬ KeepsProgress firstFails [0xE9, 0, 0, 0] := by
  intro h
  have hpass : firstFails.Passes [0xE9, 0, 0, 0] := ⟨rfl, by decide, .inr rfl, by decide⟩
  have herr : write [0xE9, 0, 0, 0] firstFails =
      .error (.error (.flashError 0x2A0000)) _ :=
    (write_eq_error_of_passes hpass).2 ⟨_, rfl, rfl⟩
  have hcrc := (h _ _ herr).1.firmwareCrc
  exact absurd hcrc (by decide +kernel)

end EspOtaFlash

end Launa.EspOta
