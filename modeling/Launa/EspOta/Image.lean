import Launa.EspOta.BootSwitch
import Launa.EspOta.Issued

/-!
# The image that an update leaves

On a chip whose operations do not fail, `begin` leaves the target partition erased, and each `write`
extends the image on flash by the whole words of the bytes received so far and keeps the rest in the
buffer (`Holds`). The words go to erased flash, so what is programmed is what is read back. After
`finalize` has flushed the buffer the target partition holds the firmware and `0xFF` after it, and
nothing of this depends on how the firmware was cut into chunks (`update_image`).
-/

namespace Launa.EspOta

open Stateful Checked Nor

/-- The end of a partition. -/
def Partition.stop (p : Partition) : ℕ := p.offset + p.size

section Flash

variable {d : Device geometry}

/-- The erase loop on a healthy chip erases the sectors from `offset` to `alignedEnd`. -/
theorem eraseLoop_ok {base alignedEnd : ℕ} (hbase : base % sectorSize = 0)
    (hend : alignedEnd % sectorSize = 0) (hlt : base + alignedEnd < 2^32) (offset : ℕ)
    (hoff : offset % sectorSize = 0) (hle : offset ≤ alignedEnd) (d : Device geometry)
    (h : d.HealthyOn (base + offset) (base + alignedEnd)) :
    ∃ ops, eraseLoop base alignedEnd offset d = .ok () (d.after ops) ∧
      ∀ mem a, replay ops mem a =
        if base + offset ≤ a ∧ a < base + alignedEnd then 0xFF else mem a := by
  have hss : sectorSize = 4096 := rfl
  induction offset using eraseLoop.induct alignedEnd generalizing d with
  | case1 offset hin ih =>
    have hnext : offset + sectorSize ≤ alignedEnd := by rw [hss] at hoff hend ⊢; omega
    let op : Op := .erase (base + offset) (base + offset + sectorSize)
    have hal : op.Aligned geometry := by
      show (base + offset) % sectorSize = 0 ∧ (base + offset + sectorSize) % sectorSize = 0
      rw [Nat.add_mod_right, Nat.add_mod, hbase, hoff]
      exact ⟨rfl, rfl⟩
    have hissue := Device.issue_ok hal (h.fault_eq_none op (Nat.le_refl _)
      (Nat.add_lt_add_left hin _) (Nat.lt_add_of_pos_right (by decide)) d.issued.length)
    obtain ⟨ops, hrest, hmem⟩ := ih (by rw [Nat.add_mod_right, hoff]) hnext (d.after [op])
      (fun n o a ht h1 h2 => h n o a ht (by omega) h2)
    refine ⟨op :: ops, ?_, fun mem a => ?_⟩
    · rw [eraseLoop, if_pos hin, add32_of_lt (by omega), orPanic_some, pure_bind,
        add32_of_lt (by omega), orPanic_some, pure_bind]
      refine (bind_ok (mapErr_ok hissue)).trans (hrest.trans ?_)
      rw [Device.after_after]
      rfl
    · rw [replay_cons, hmem]
      simp only [op, Op.apply]
      split_ifs <;> first | rfl | omega
  | case2 offset hout =>
    refine ⟨[], ?_, fun mem a => ?_⟩
    · rw [eraseLoop, if_neg hout, Device.after_nil]
      rfl
    · rw [if_neg (by omega), replay_nil]

/-- `erase_range` over a whole partition on a healthy chip erases it. -/
theorem eraseRange_ok {t : Partition} (h : d.HealthyOn t.offset t.stop) :
    ∃ ops, eraseRange t 0 t.size d = .ok () (d.after ops) ∧
      ∀ mem a, replay ops mem a = if t.offset ≤ a ∧ a < t.stop then 0xFF else mem a := by
  have hend : (t.size + sectorSize - 1) / sectorSize * sectorSize = t.size := by
    cases t <;> decide
  have hgeom : t.offset % sectorSize = 0 ∧ t.size % sectorSize = 0 ∧ t.stop < 2^32 := by
    cases t <;> decide
  have hloop := eraseLoop_ok hgeom.1 hgeom.2.1 hgeom.2.2 0 rfl (Nat.zero_le _) d h
  unfold eraseRange
  rw [hend]
  exact hloop

/-- `aligned_write` on a healthy chip, at a word of the partition. -/
theorem alignedWrite_ok {t : Partition} (h : d.HealthyOn t.offset t.stop) (offset : ℕ)
    (data : List UInt8) (hoff : offset % wordSize = 0) (hlt : offset < t.size) (hne : data ≠ []) :
    alignedWrite t offset data d =
      .ok () (d.after [.write (t.offset + offset) (padToWords data)]) := by
  have hw : wordSize = 4 := rfl
  have hsize := t.size_lt
  have hpos : 0 < data.length := List.length_pos_iff.2 hne
  have hlen := padToWords_length data
  have hal : (Op.write (t.offset + offset) (padToWords data)).Aligned geometry := by
    have hbase : t.offset % wordSize = 0 := by cases t <;> decide
    show (t.offset + offset) % wordSize = 0 ∧ (padToWords data).length % wordSize = 0
    rw [hlen, Nat.mul_mod_left, Nat.add_mod, hbase, hoff]
    exact ⟨rfl, rfl⟩
  have hstop : t.stop = t.offset + t.size := rfl
  rw [alignedWrite_eq data (by omega)]
  refine mapErr_ok (Device.issue_ok hal (h.fault_eq_none (.write _ _) ?_ ?_ ?_ _))
  · simp only [Op.start]; omega
  · simp only [Op.start]; omega
  · simp only [Op.start, Op.stop, hlen, hw]; omega

end Flash

/-! ## The bytes received so far -/

/-- The number of bytes in the whole words of `n` bytes. -/
def flushed (n : ℕ) : ℕ := n / wordSize * wordSize

/-- Whole words are flushed, and fewer than a word is left. -/
theorem flushed_bounds (n : ℕ) : flushed n ≤ n ∧ n < flushed n + 4 ∧ flushed n % 4 = 0 := by
  have hw : wordSize = 4 := rfl
  rw [flushed, hw]
  omega

namespace EspOtaFlash

/-- The update of the partition `t`, begun on the chip `d0`, has received `bytes`: the whole words
of them are on flash, over an otherwise erased partition, and the rest is in the buffer. -/
structure Holds (t : Partition) (d0 : Device geometry) (bytes : List UInt8)
    (o : EspOtaFlash (Device geometry)) : Prop where
  target_eq : o.target = t
  inProgress : o.inProgress = true
  validated : bytes ≠ [] → o.firstChunkValidated = true
  crc : o.firmwareCrc = crc32Update 0xFFFFFFFF bytes
  written : o.bytesWritten = bytes.length
  offset : o.writeOffset = flushed bytes.length
  pending : o.pending = bytes.drop (flushed bytes.length)
  fault : o.flash.fault = d0.fault
  outside : ∀ a, a < t.offset ∨ t.stop ≤ a → o.flash.mem a = d0.mem a
  image : ∀ i, i < t.size → o.flash.mem (t.offset + i) =
    if i < flushed bytes.length then bytes.getD i 0xFF else 0xFF

variable {t : Partition} {d0 : Device geometry} {bytes chunk : List UInt8}
  {o : EspOtaFlash (Device geometry)}

/-- `begin` on a healthy chip starts an update that has received nothing. -/
theorem begin_holds (h : o.flash.HealthyOn o.target.offset o.target.stop)
    (hidle : o.inProgress = false) :
    ∃ o', begin o = .ok () o' ∧ Holds o.target o.flash [] o' ∧ o'.running = o.running := by
  obtain ⟨ops, herase, hmem⟩ := eraseRange_ok h
  have hrun : begin o = .ok () { o with
      flash := o.flash.after ops, writeOffset := 0, bytesWritten := 0, inProgress := true,
      firmwareCrc := 0xFFFFFFFF, firstChunkValidated := false, pendingLen := 0 } := by
    unfold begin
    refine (bind_ok (get_apply o)).trans ?_
    rw [if_neg (by simp [hidle])]
    exact (bind_ok (onFlash_ok herase)).trans (modify_apply _ _)
  refine ⟨_, hrun, ⟨rfl, rfl, fun hne => absurd rfl hne, rfl, rfl, rfl, rfl, rfl, fun a ha => ?_,
    fun i hi => ?_⟩, rfl⟩
  · exact (hmem _ _).trans (if_neg (by omega))
  · have hstop : o.target.stop = o.target.offset + o.target.size := rfl
    exact (hmem _ _).trans (if_pos (by omega))

/-- The bytes that an operation of the partition is not about keep their contents. -/
theorem write_outside {t : Partition} {offset : ℕ} {data : List UInt8}
    (hfit : offset + data.length ≤ t.size) (mem : ℕ → UInt8) {a : ℕ}
    (ha : a < t.offset ∨ t.stop ≤ a) :
    replay [.write (t.offset + offset) data] mem a = mem a := by
  have hstop : t.stop = t.offset + t.size := rfl
  have hout : ¬ (Op.write (t.offset + offset) data).Touches a := by
    simp only [Op.Touches, Op.start, Op.stop]
    omega
  exact Op.apply_of_not_touches hout mem

/-- Behind the first bytes the flash is erased. -/
theorem getD_take (bytes : List UInt8) (n i : ℕ) :
    (bytes.take n).getD i 0xFF = if i < n then bytes.getD i 0xFF else 0xFF := by
  rw [List.getD_eq_getElem?_getD, List.getElem?_take, List.getD_eq_getElem?_getD]
  split <;> rfl

/-- The whole words of the bytes that are not on flash yet complete those that are. -/
theorem take_append_wholeWords {n : ℕ} {all : List UInt8} (hn : n % 4 = 0) (hle : n ≤ all.length) :
    all.take n ++ wholeWords (all.drop n) = all.take (flushed all.length) := by
  have hw : wordSize = 4 := rfl
  have hsplit : flushed all.length = n + (all.length - n) / 4 * 4 := by
    rw [flushed, hw]
    omega
  rw [wholeWords, List.length_drop, hw, hsplit, List.take_add]

/-- The whole words of some bytes are written at the end of what is on flash. -/
theorem writeWords_of_pos {data : List UInt8} {n : ℕ}
    (hd : o.flash.HealthyOn t.offset t.stop) (htarget : o.target = t) (hoff : o.writeOffset = n)
    (hn : n % wordSize = 0) (hpos : 0 < data.length / wordSize)
    (hfit : n + (wholeWords data).length ≤ t.size) :
    writeWords data o = .ok () { o with
      flash := o.flash.after [.write (t.offset + n) (wholeWords data)],
      writeOffset := n + (wholeWords data).length } := by
  have hsize := t.size_lt
  have hmore : 0 < (wholeWords data).length := by
    rw [wholeWords_length]
    exact Nat.mul_pos hpos (by decide)
  have hal : padToWords (wholeWords data) = wholeWords data :=
    padToWords_of_aligned (by rw [wholeWords_length, Nat.mul_mod_left])
  have hwrite := alignedWrite_ok hd n (wholeWords data) hn (by omega)
    (List.ne_nil_of_length_pos hmore)
  rw [hal] at hwrite
  unfold writeWords
  dsimp only
  rw [if_pos hpos]
  refine (bind_ok (get_apply o)).trans ?_
  rw [htarget, hoff]
  refine (bind_ok (onFlash_ok hwrite)).trans ?_
  rw [← wholeWords_length, Nat.mod_eq_of_lt (by omega), add32_of_lt (by omega), orPanic_some,
    pure_bind, modify_apply, htarget]

/-- `writeWords` of the bytes that are not on flash yet puts their whole words there. -/
theorem writeWords_ok (chunk : List UInt8) {f : Device geometry} (hd : f.HealthyOn t.offset t.stop)
    (htarget : o.target = t) (hoff : o.writeOffset = flushed bytes.length) (hflash : o.flash = f)
    (himage : ∀ i, i < t.size →
      f.mem (t.offset + i) = (bytes.take (flushed bytes.length)).getD i 0xFF)
    (hfit : flushed (bytes ++ chunk).length ≤ t.size) :
    ∃ ops, writeWords ((bytes ++ chunk).drop (flushed bytes.length)) o =
        .ok () { o with
          flash := f.after ops, writeOffset := flushed (bytes ++ chunk).length } ∧
      (∀ a, a < t.offset ∨ t.stop ≤ a → replay ops f.mem a = f.mem a) ∧
      ∀ i, i < t.size → replay ops f.mem (t.offset + i) =
        ((bytes ++ chunk).take (flushed (bytes ++ chunk).length)).getD i 0xFF := by
  have hb := flushed_bounds bytes.length
  have hb' := flushed_bounds (bytes ++ chunk).length
  have hlen : (bytes ++ chunk).length = bytes.length + chunk.length := List.length_append
  -- What is on flash is a prefix of the bytes received after the chunk, too.
  have hprev : bytes.take (flushed bytes.length) =
      (bytes ++ chunk).take (flushed bytes.length) := by
    rw [List.take_append_of_le_length hb.1]
  rw [hprev] at himage
  have hjoin := take_append_wholeWords hb.2.2
    (show flushed bytes.length ≤ (bytes ++ chunk).length by omega)
  set all := bytes ++ chunk
  set data := all.drop (flushed bytes.length)
  have hplen : (all.take (flushed bytes.length)).length = flushed bytes.length :=
    List.length_take_of_le (by omega)
  have hblen : flushed bytes.length + (wholeWords data).length = flushed all.length := by
    have := congrArg List.length hjoin
    rw [List.length_append, hplen, List.length_take_of_le hb'.1] at this
    exact this
  subst hflash
  by_cases hpos : 0 < data.length / wordSize
  · have hrun := writeWords_of_pos hd htarget hoff hb.2.2 hpos (by rwa [hblen])
    rw [hblen] at hrun
    refine ⟨_, hrun, fun a ha => write_outside (by rwa [hblen]) _ ha, fun i hi => ?_⟩
    -- The words are appended to the image.
    have happend := write_append (wholeWords data) himage i hi
    rw [hplen, hjoin] at happend
    exact happend
  -- There is no whole word, and the image is that of before.
  · have hnone : wholeWords data = [] := by
      rw [← List.length_eq_zero_iff, wholeWords_length, Nat.eq_zero_of_not_pos hpos, Nat.zero_mul]
    rw [hnone, List.append_nil] at hjoin
    rw [hnone, List.length_nil, Nat.add_zero] at hblen
    refine ⟨[], ?_, fun a _ => rfl, fun i hi => ?_⟩
    · unfold writeWords
      dsimp only
      rw [if_neg hpos, pure_apply, ← hblen, ← hoff, Device.after_nil]
    · rw [replay_nil, himage i hi, hjoin]

/-- What is copied to the front of the buffer is found there. -/
theorem copyFront_take (buf : Vector UInt8 3) (tail : List UInt8) (h : tail.length ≤ 3) :
    (copyFront buf tail).toList.take tail.length = tail := by
  apply List.ext_getElem
  · simp; omega
  · intro i h1 h2
    simp [copyFront, h2]

/-- `bufferTail` leaves the partial word in an empty buffer. -/
theorem bufferTail_ok (data : List UInt8) (h : o.pendingLen = 0) :
    ∃ buf len, bufferTail data o = .ok () { o with pendingBytes := buf, pendingLen := len } ∧
      buf.toList.take len = data.drop (flushed data.length) := by
  have hw : wordSize = 4 := rfl
  unfold bufferTail
  by_cases hrem : 0 < data.length % wordSize
  · rw [if_pos hrem]
    refine ⟨_, _, modify_apply _ _, ?_⟩
    have hlen : (data.drop (data.length / wordSize * wordSize)).length =
        data.length % wordSize := by
      rw [List.length_drop, hw]
      omega
    have hcopy := copyFront_take o.pendingBytes
      (data.drop (data.length / wordSize * wordSize)) (by rw [hlen, hw]; omega)
    rw [hlen] at hcopy
    exact hcopy
  · rw [if_neg hrem]
    refine ⟨o.pendingBytes, 0, by rw [pure_apply, ← h], ?_⟩
    have hall : flushed data.length = data.length := by
      rw [flushed, hw]
      rw [hw] at hrem
      omega
    rw [hall, List.drop_length]
    rfl

/-- The partition holds what was flushed and is erased behind it. -/
theorem Holds.image_take (h : Holds t d0 bytes o) (i : ℕ) (hi : i < t.size) :
    o.flash.mem (t.offset + i) = (bytes.take (flushed bytes.length)).getD i 0xFF := by
  rw [h.image i hi, getD_take]

/-- A chunk that gets past the checks, and whose words fit, is received. -/
theorem Holds.write (h : Holds t d0 bytes o) (hd : d0.HealthyOn t.offset t.stop)
    (hpass : o.Passes chunk) (hfit : flushed (bytes ++ chunk).length ≤ t.size)
    (hlt : (bytes ++ chunk).length < 2^32) :
    ∃ o', EspOtaFlash.write chunk o = .ok () o' ∧ Holds t d0 (bytes ++ chunk) o' := by
  have hb := flushed_bounds bytes.length
  have hb' := flushed_bounds (bytes ++ chunk).length
  have hlen : (bytes ++ chunk).length = bytes.length + chunk.length := List.length_append
  have hdata : o.pending ++ chunk = (bytes ++ chunk).drop (flushed bytes.length) := by
    rw [h.pending, List.drop_append_of_le_length hb.1]
  have hdlen : (o.pending ++ chunk).length = (bytes ++ chunk).length - flushed bytes.length := by
    rw [hdata, List.length_drop]
  obtain ⟨ops, hwords, hout, himage⟩ := writeWords_ok chunk (f := o.flash)
    (o := { o with
      firstChunkValidated := true, firmwareCrc := crc32Update o.firmwareCrc chunk,
      pendingLen := 0 }) (hd.of_fault h.fault) h.target_eq h.offset rfl h.image_take hfit
  rw [← hdata] at hwords
  obtain ⟨buf, len, htail, hbuf⟩ := bufferTail_ok (o := { o with
    firstChunkValidated := true, firmwareCrc := crc32Update o.firmwareCrc chunk, pendingLen := 0,
    flash := o.flash.after ops, writeOffset := flushed (bytes ++ chunk).length })
    (o.pending ++ chunk) rfl
  have hcount : add32 o.bytesWritten (chunk.length % 2^32) = some (bytes ++ chunk).length := by
    rw [h.written, Nat.mod_eq_of_lt (by omega), hlen]
    exact add32_of_lt (by omega)
  refine ⟨{ o with
      firstChunkValidated := true, firmwareCrc := crc32Update o.firmwareCrc chunk,
      flash := o.flash.after ops, writeOffset := flushed (bytes ++ chunk).length,
      pendingBytes := buf, pendingLen := len, bytesWritten := (bytes ++ chunk).length }, ?_, ?_⟩
  · rw [write_of_passes hpass]
    refine (bind_ok hwords).trans ((bind_ok htail).trans ?_)
    refine (bind_ok (get_apply _)).trans ?_
    rw [hcount, orPanic_some, pure_bind, modify_apply]
  · refine ⟨h.target_eq, h.inProgress, fun _ => rfl, ?_, rfl, rfl, ?_, h.fault, fun a ha => ?_,
      fun i hi => (himage i hi).trans (getD_take ..)⟩
    · show crc32Update o.firmwareCrc chunk = _
      rw [h.crc, crc32Update_append]
    · show buf.toList.take len = _
      rw [hbuf, hdlen, hdata, List.drop_drop]
      congr 1
      have hw : wordSize = 4 := rfl
      simp only [flushed, hw] at hb hb' ⊢
      omega
    · exact (hout a ha).trans (h.outside a ha)

/-- An empty chunk is received. -/
theorem Holds.write_nil (h : Holds t d0 bytes o) : EspOtaFlash.write [] o = .ok () o := by
  unfold EspOtaFlash.write
  refine (bind_ok (get_apply o)).trans ?_
  rw [if_neg (by simp [h.inProgress]), if_pos List.isEmpty_nil, pure_apply]

/-- Chunks of a firmware that fits the partition are received, if it starts with the magic byte. -/
theorem Holds.writes (h : Holds t d0 bytes o) (hd : d0.HealthyOn t.offset t.stop)
    (chunks : List (List UInt8)) (hmagic : (bytes ++ chunks.flatten).head? = some 0xE9)
    (hfit : (bytes ++ chunks.flatten).length ≤ t.size) :
    ∃ o', chunks.forM EspOtaFlash.write o = .ok () o' ∧ Holds t d0 (bytes ++ chunks.flatten) o' ∧
      o'.running = o.running := by
  induction chunks generalizing bytes o with
  | nil => exact ⟨o, rfl, by simpa using h, rfl⟩
  | cons chunk chunks ih =>
    rw [List.flatten_cons, ← List.append_assoc] at hmagic hfit ⊢
    by_cases hne : chunk = []
    · subst hne
      rw [List.append_nil] at hmagic hfit ⊢
      obtain ⟨o', hrest, hholds, hrun⟩ := ih h hmagic hfit
      exact ⟨o', (bind_ok h.write_nil).trans hrest, hholds, hrun⟩
    have hsize := t.size_lt
    have hb := flushed_bounds bytes.length
    have hb' := flushed_bounds (bytes ++ chunk).length
    have hlen : (bytes ++ chunk).length = bytes.length + chunk.length := List.length_append
    have hle : (bytes ++ chunk).length ≤ t.size := by
      rw [List.length_append] at hfit
      omega
    have hpass : o.Passes chunk := by
      refine ⟨h.inProgress, hne, ?_, ?_⟩
      · by_cases hbytes : bytes = []
        · subst hbytes
          right
          rw [List.nil_append, List.head?_append] at hmagic
          cases chunk with
          | nil => exact absurd rfl hne
          | cons b chunk => exact hmagic
        · exact .inl (h.validated hbytes)
      · rw [h.offset, h.target_eq, Nat.mod_eq_of_lt (by omega)]
        omega
    obtain ⟨o1, hwrite, hholds⟩ := h.write hd hpass (by omega) (by omega)
    obtain ⟨o', hrest, hholds', hrun⟩ := ih hholds hmagic hfit
    have hrun1 : o1.running = o.running := by
      rcases write_cases o chunk with ⟨-, b, hf⟩ | ⟨-, w, buf, len, n, hf, -⟩ <;>
        rw [final_ok hwrite] at hf <;> rw [hf]
    exact ⟨o', (bind_ok hwrite).trans hrest, hholds', hrun.trans hrun1⟩

/-! ## The end of the update -/

/-- Padding bytes read as erased flash does. -/
theorem append_padToWords_getD (old data : List UInt8) (i : ℕ) :
    (old ++ padToWords data).getD i 0xFF = (old ++ data).getD i 0xFF := by
  have hpad : ∀ k j, (List.replicate k (0xFF : UInt8)).getD j 0xFF = 0xFF := by
    intro k j
    rw [List.getD_eq_getElem?_getD, List.getElem?_replicate]
    split <;> rfl
  unfold padToWords
  rw [← List.append_assoc]
  by_cases hi : i < (old ++ data).length
  · exact List.getD_append _ _ _ _ hi
  · rw [List.getD_append_right _ _ _ _ (Nat.not_lt.1 hi), hpad]
    exact (List.getD_eq_default _ _ (Nat.not_lt.1 hi)).symm

/-- The partitions are apart from otadata. -/
theorem otadataEnd_le_offset (p : Partition) : otadataEnd ≤ p.offset := by cases p <;> decide

/-- The slots do not depend on the update in the partition. -/
theorem Holds.slotsAt (h : Holds t d0 bytes o) : slotsAt o.flash.mem = EspOta.slotsAt d0.mem :=
  slotsAt_eq_of_otadata fun a _ ha =>
    h.outside a (.inl (Nat.lt_of_lt_of_le ha (otadataEnd_le_offset t)))

/-- The bytes on flash and those in the buffer are the bytes received. -/
theorem Holds.take_append_pending (h : Holds t d0 bytes o) :
    bytes.take (flushed bytes.length) ++ o.pending = bytes := by
  rw [h.pending, List.take_append_drop]

/-- `flushPending` puts the bytes of the buffer on flash. -/
theorem Holds.flush (h : Holds t d0 bytes o) (hd : d0.HealthyOn t.offset t.stop)
    (hfit : bytes.length ≤ t.size) :
    ∃ ops w, flushPending o = .ok () { o with
        flash := o.flash.after ops, writeOffset := w, pendingLen := 0 } ∧
      (∀ a, a < t.offset ∨ t.stop ≤ a → replay ops o.flash.mem a = d0.mem a) ∧
      ∀ i, i < t.size → replay ops o.flash.mem (t.offset + i) = bytes.getD i 0xFF := by
  have hw : wordSize = 4 := rfl
  have hb := flushed_bounds bytes.length
  have hsize := t.size_lt
  have hwords : t.size % 4 = 0 := by cases t <;> decide
  have hlen : (bytes.take (flushed bytes.length)).length = flushed bytes.length :=
    List.length_take_of_le hb.1
  by_cases hpos : 0 < o.pendingLen.val
  · have hplen : (o.pendingLen : ℕ) = bytes.length - flushed bytes.length := by
      rw [← pending_length, h.pending, List.length_drop]
    have hne : o.pending ≠ [] := List.ne_nil_of_length_pos (by rw [pending_length]; exact hpos)
    have hpad : (padToWords o.pending).length = 4 := by
      have := o.pendingLen.isLt
      rw [padToWords_length, pending_length, hw]
      omega
    have hwrite := alignedWrite_ok (hd.of_fault h.fault) (flushed bytes.length) o.pending
      (by rw [hw]; omega) (by omega) hne
    rw [← h.offset, ← h.target_eq] at hwrite
    have hadd : add32 o.writeOffset o.pendingLen = some (flushed bytes.length + o.pendingLen) := by
      rw [h.offset]
      exact add32_of_lt (by omega)
    refine ⟨[.write (t.offset + flushed bytes.length) (padToWords o.pending)],
      flushed bytes.length + o.pendingLen, ?_, fun a ha => ?_, fun i hi => ?_⟩
    · unfold flushPending
      refine (bind_ok (get_apply o)).trans ?_
      rw [if_pos hpos]
      refine (bind_ok (onFlash_ok hwrite)).trans ?_
      rw [hadd, orPanic_some, pure_bind, modify_apply, h.target_eq, h.offset]
    · exact (write_outside (by omega) _ ha).trans (h.outside a ha)
    -- The padding reads as erased flash.
    · have happend := write_append (padToWords o.pending) h.image_take i hi
      rw [hlen, append_padToWords_getD, h.take_append_pending] at happend
      exact happend
  -- The buffer is empty, so the image is complete.
  · have hnone : o.pending = [] := by
      rw [← List.length_eq_zero_iff, pending_length, Nat.eq_zero_of_not_pos hpos]
    have hall := h.take_append_pending
    rw [hnone, List.append_nil] at hall
    refine ⟨[], o.writeOffset, ?_, fun a ha => h.outside a ha, fun i hi => ?_⟩
    · have h0 : o.pendingLen = 0 := by omega
      unfold flushPending
      refine (bind_ok (get_apply o)).trans ?_
      rw [if_neg hpos, pure_apply, Device.after_nil, ← h0]
    · rw [replay_nil, h.image_take i hi, hall]

/-- Operations in the otadata partition keep the rest of the flash. -/
theorem keeps_outside_otadata (mem : ℕ → UInt8) (op : Op)
    (hop : op.Within otadataOffset otadataEnd) :
    Keeps (fun d : Device geometry => ∀ a, otadataEnd ≤ a → d.mem a = mem a) (Device.issue op) := by
  refine Device.keeps_mem (.inr fun a ha => ?_)
  rintro ⟨-, h2⟩
  exact absurd (Nat.lt_of_lt_of_le h2 hop.2) (Nat.not_lt.2 ha)

/-- `finalize` of a received firmware completes the image, and carries out the plan that makes the
target the boot partition. -/
theorem Holds.finalize (h : Holds t d0 bytes o) (hd : d0.HealthyOn t.offset t.stop)
    (hota : d0.HealthyOn otadataOffset otadataEnd) (hne : bytes ≠ [])
    (hfit : bytes.length ≤ t.size) {ws : List (Partition × ℕ)}
    (hplan : (EspOta.slotsAt d0.mem).plan t = some ws) :
    ∃ o', EspOtaFlash.finalize o = .ok () o' ∧
      (∀ i, i < t.size → o'.flash.mem (t.offset + i) = bytes.getD i 0xFF) ∧
      o'.bytesWritten = bytes.length ∧ o'.firmwareCrc = crc32Update 0xFFFFFFFF bytes ∧
      EspOta.slotsAt o'.flash.mem = ws.foldl Slots.write (EspOta.slotsAt d0.mem) ∧
      o'.flash.fault = d0.fault ∧ o'.running = o.running ∧ o'.target = t ∧
      o'.inProgress = false := by
  obtain ⟨ops, w, hflush, hout, himage⟩ := h.flush hd hfit
  have hslots : EspOta.slotsAt (o.flash.after ops).mem = EspOta.slotsAt d0.mem :=
    slotsAt_eq_of_otadata fun a _ ha =>
      hout a (.inl (Nat.lt_of_lt_of_le ha (otadataEnd_le_offset t)))
  have hota' : (o.flash.after ops).HealthyOn otadataOffset otadataEnd := hota.of_fault h.fault
  have hset := setBootPartition_ok hota' (hslots ▸ hplan)
  have hbytes : o.bytesWritten ≠ 0 := by
    rw [h.written]
    exact fun h0 => hne (List.eq_nil_of_length_eq_zero h0)
  -- The switch keeps the image.
  have hkept := (keeps_setBootPartition (keeps_outside_otadata (replay ops o.flash.mem)) t).ok
    (fun _ _ => rfl) hset
  refine ⟨{ o with
      flash := (o.flash.after ops).after (entryReads ++ planOps (o.flash.after ops).mem ws),
      writeOffset := w, pendingLen := 0, inProgress := false }, ?_, fun i hi => ?_, h.written,
    h.crc, ?_, h.fault, rfl, h.target_eq, rfl⟩
  · unfold EspOtaFlash.finalize
    refine (bind_ok (get_apply o)).trans ?_
    rw [if_neg (by simp [h.inProgress]), if_neg hbytes, h.target_eq]
    refine (bind_ok hflush).trans ((bind_ok (onFlash_ok hset)).trans ?_)
    rw [modify_apply, h.target_eq]
  · refine (hkept (t.offset + i) ?_).trans (himage i hi)
    exact Nat.le_trans (otadataEnd_le_offset t) (Nat.le_add_right _ _)
  · rw [Device.after_mem, replay_append, replay_entryReads,
      slotsAt_planOps (Slots.plan_lt (slotsAt_inRange _) (hslots ▸ hplan)), hslots]

/-- What an update with chunks of a firmware that starts with the magic byte and fits the partition
leaves on a healthy chip. -/
theorem update_ok (chunks : List (List UInt8)) (hidle : o.inProgress = false)
    (hd : o.flash.HealthyOn o.target.offset o.target.stop)
    (hota : o.flash.HealthyOn otadataOffset otadataEnd)
    (hmagic : chunks.flatten.head? = some 0xE9) (hfit : chunks.flatten.length ≤ o.target.size)
    {ws : List (Partition × ℕ)} (hplan : (EspOta.slotsAt o.flash.mem).plan o.target = some ws) :
    ∃ o', update chunks o = .ok () o' ∧
      (∀ i, i < o.target.size →
        o'.flash.mem (o.target.offset + i) = chunks.flatten.getD i 0xFF) ∧
      o'.bytesWritten = chunks.flatten.length ∧
      o'.firmwareCrc = crc32Update 0xFFFFFFFF chunks.flatten ∧
      EspOta.slotsAt o'.flash.mem = ws.foldl Slots.write (EspOta.slotsAt o.flash.mem) ∧
      o'.flash.fault = o.flash.fault ∧ o'.running = o.running ∧ o'.target = o.target := by
  have hne : chunks.flatten ≠ [] := by
    intro h0
    rw [h0] at hmagic
    cases hmagic
  obtain ⟨o1, hbegin, hholds, hrun1⟩ := begin_holds hd hidle
  obtain ⟨o2, hwrites, hholds', hrun2⟩ := hholds.writes hd chunks hmagic (by simpa using hfit)
  rw [List.nil_append] at hholds'
  obtain ⟨o3, hfinal, himage, hwritten, hcrc, hslots, hfault, hrun3, htarget, -⟩ :=
    hholds'.finalize hd hota hne hfit hplan
  exact ⟨o3, (bind_ok hbegin).trans ((bind_ok hwrites).trans hfinal), himage, hwritten, hcrc,
    hslots, hfault, hrun3.trans (hrun2.trans hrun1), htarget⟩

/-- An update that returns `Ok` is a run of its calls. -/
theorem run_update {chunks : List (List UInt8)} {o' : EspOtaFlash (Device geometry)}
    (hok : update chunks o = .ok () o') :
    o.run (.begin :: (chunks.map .write ++ [.finalize])) = o' := by
  obtain ⟨_, o1, hbegin, hrest⟩ := bind_eq_ok.1 hok
  have hstep : o.step .begin = o1 := final_ok hbegin
  rw [run_cons, hstep]
  clear hok hstep hbegin
  induction chunks generalizing o1 with
  | nil => exact final_ok hrest
  | cons chunk chunks ih =>
    obtain ⟨_, o2, hwrites, hfinal⟩ := bind_eq_ok.1 hrest
    obtain ⟨_, o3, hwrite, hwrites⟩ := bind_eq_ok.1 hwrites
    have hstep : o1.step (.write chunk) = o3 := final_ok hwrite
    rw [List.map_cons, List.cons_append, run_cons, hstep]
    exact ih o3 ((bind_ok hwrites).trans hfinal)

/-- An update with chunks of a firmware that starts with the magic byte and fits the partition, on a
chip on which no operation fails, leaves the firmware at the start of the target partition and
`0xFF` after it, and counts and sums its bytes. -/
theorem update_image (hidle : o.inProgress = false) (hd : o.flash.Healthy)
    (hseq : (EspOta.slotsAt o.flash.mem).Headroom) {firmware : List UInt8}
    (hmagic : firmware.head? = some 0xE9) (hfit : firmware.length ≤ o.target.size)
    {chunks : List (List UInt8)} (hchunks : chunks.flatten = firmware) :
    ∃ o', update chunks o = .ok () o' ∧ o'.target = o.target ∧
      (∀ i (hi : i < firmware.length), o'.flash.mem (o.target.offset + i) = firmware[i]) ∧
      (∀ i, firmware.length ≤ i → i < o.target.size →
        o'.flash.mem (o.target.offset + i) = 0xFF) ∧
      o'.bytesWritten = firmware.length ∧
      o'.firmwareCrc = crc32Update 0xFFFFFFFF firmware := by
  subst hchunks
  obtain ⟨ws, n, hplan, -, -⟩ := hseq.plan (slotsAt_inRange _) o.target
  obtain ⟨o', hok, himage, hwritten, hcrc, -, -, -, htarget⟩ :=
    update_ok chunks hidle (hd.healthyOn _ _) (hd.healthyOn _ _) hmagic hfit hplan
  refine ⟨o', hok, htarget, fun i hi => ?_, fun i h1 h2 => ?_, hwritten, hcrc⟩
  · rw [himage i (Nat.lt_of_lt_of_le hi hfit), List.getD_eq_getElem _ _ hi]
  · rw [himage i h2, List.getD_eq_default _ _ h1]

/-- Five bytes in three chunks, one of them empty, on a chip that was never used. -/
theorem update_image_five :
    ∃ o', update [[0xE9], [], [1, 2, 3, 4]] (new blankDevice .ota0) = .ok () o' ∧
      o'.target = .ota1 ∧
      (∀ i (hi : i < 5), o'.flash.mem (ota1Offset + i) = [0xE9, 1, 2, 3, 4][i]) ∧
      (∀ i, 5 ≤ i → i < ota1Size → o'.flash.mem (ota1Offset + i) = 0xFF) ∧
      o'.bytesWritten = 5 ∧ o'.firmwareCrc = crc32Update 0xFFFFFFFF [0xE9, 1, 2, 3, 4] :=
  update_image (o := new blankDevice .ota0) rfl (Device.healthy_healthy _)
    (slotsAt_blankFlash ▸ fun _ _ h => nomatch h)
    (show ([0xE9, 1, 2, 3, 4] : List UInt8).head? = some 0xE9 from rfl) (by decide) rfl

end EspOtaFlash

end Launa.EspOta
