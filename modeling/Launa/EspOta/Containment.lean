import Launa.Lib.Run
import Launa.EspOta.Image

/-!
# Where an update writes

The updater may erase and write the target partition and the otadata partition, and nothing else: on
a chip that may fail any operation in any way, and over every run of its calls. `write` checks its
chunk against `write_offset`, which does not count the bytes in the buffer, so the words that it and
`finalize` program may end past the partition. `WordsFit` says of one call that they do not.
`run_contained_iff` shows that all operations of a run stay in range exactly when its calls all do
so.

The invariant of such a run is `Confined`: the operations so far are in range, and `write_offset` is
inside the partition.
-/

namespace Launa.EspOta

open Stateful Checked Nor

/-- The operation lies in the target partition of an update from `running`, or in the otadata
partition. -/
def InRange (running : Partition) (op : Op) : Prop :=
  op.Within running.other.offset (running.other.offset + running.other.size) ∨
    op.Within otadataOffset otadataEnd

/-- Every erase and write issued is in range. -/
def AllInRange (running : Partition) (d : Device geometry) : Prop :=
  ∀ op ∈ d.issued, op.modifies = true → InRange running op

/-- The running partition holds what it did in `mem`. -/
def RunningKept (running : Partition) (mem : ℕ → UInt8) (d : Device geometry) : Prop :=
  ∀ a, running.offset ≤ a → a < running.offset + running.size → d.mem a = mem a

/-- The words that the call programs from `write_offset` end inside the target partition. -/
def EspOtaFlash.WordsFit {S : Type} (o : EspOtaFlash S) : OtaCall → Prop
  | .write chunk => o.Passes chunk →
      o.writeOffset + (o.pendingLen + chunk.length) / wordSize * wordSize ≤ o.target.size
  | .finalize => o.inProgress → o.bytesWritten ≠ 0 → 0 < o.pendingLen.val →
      o.writeOffset + wordSize ≤ o.target.size
  | _ => True

/-- An operation in range is not about an address of the running partition. -/
theorem InRange.not_touches {running : Partition} {op : Op} (h : InRange running op) {a : ℕ}
    (hlo : running.offset ≤ a) (hhi : a < running.offset + running.size) : ¬ op.Touches a := by
  have hsep : ∀ p : Partition, otadataEnd ≤ p.offset ∧ (p.other.offset + p.other.size ≤ p.offset ∨
      p.offset + p.size ≤ p.other.offset) := by
    intro p
    cases p <;> decide
  obtain ⟨hota, hother⟩ := hsep running
  rintro ⟨h1, h2⟩
  rcases h with ⟨h3, h4⟩ | ⟨h3, h4⟩
  · omega
  · omega

/-- While the operations issued are in range, the running partition is kept. -/
theorem keeps_running {running : Partition} {mem : ℕ → UInt8} (op : Op) :
    Keeps (fun d => AllInRange running d → RunningKept running mem d) (Device.issue op) := by
  intro d hd hall a hlo hhi
  have hrest : AllInRange running d := fun o ho => hall o (by simp [Device.final_issue_issued, ho])
  have hop := hall op (by simp [Device.final_issue_issued])
  rw [Device.final_issue_mem, hd hrest a hlo hhi]
  cases hm : op.modifies with
  | false => exact .inl rfl
  | true => exact .inr ((hop hm).not_touches hlo hhi)

/-- An operation in range keeps all that was issued in range. -/
theorem keeps_allInRange {running : Partition} {op : Op}
    (h : op.modifies = true → InRange running op) :
    Keeps (AllInRange running) (Device.issue op) :=
  Device.keeps_issued h

/-- What was issued stays issued. -/
theorem keeps_mem_issued {op op' : Op} :
    Keeps (fun d : Device geometry => op ∈ d.issued) (Device.issue op') := by
  intro d hd
  rw [Device.final_issue_issued]
  exact List.mem_append_left _ hd

namespace EspOtaFlash

variable {r : Partition} {o : EspOtaFlash (Device geometry)}

/-- The invariant of an update from `r` whose words fit. -/
structure Confined (r : Partition) (o : EspOtaFlash (Device geometry)) : Prop where
  target_eq : o.target = r.other
  offset_le : o.writeOffset ≤ r.other.size
  inRange : AllInRange r o.flash

/-- Data of a word or more has whole words. -/
theorem wholeWords_pos {data : List UInt8} (h : 0 < data.length / wordSize) :
    0 < (wholeWords data).length := by
  rw [wholeWords_length]
  exact Nat.mul_pos h (by decide)

/-- The write of `writeWords` is issued. -/
theorem wordsFlash_issues {data : List UInt8} (hlt : o.target.offset + o.writeOffset < 2^32)
    (hwords : 0 < data.length / wordSize) :
    final (wordsFlash o data) o.flash =
      final (Device.issue (.write (o.target.offset + o.writeOffset) (wholeWords data)))
        o.flash := by
  have hal : (wholeWords data).length % wordSize = 0 := by
    rw [wholeWords_length, Nat.mul_mod_left]
  rw [wordsFlash, if_pos hwords, alignedWrite_eq _ hlt, padToWords_of_aligned hal, flashCall,
    final_mapErr]
  rfl

/-- The write of `flushPending` is issued. -/
theorem flushFlash_issues (hlt : o.target.offset + o.writeOffset < 2^32)
    (hpend : 0 < o.pendingLen.val) :
    final (flushFlash o) o.flash =
      final (Device.issue (.write (o.target.offset + o.writeOffset) (padToWords o.pending)))
        o.flash := by
  rw [flushFlash, if_pos hpend, alignedWrite_eq _ hlt, flashCall, final_mapErr]
  rfl

/-- What is pending is padded to one word. -/
theorem padToWords_pending (hpend : 0 < o.pendingLen.val) :
    (padToWords o.pending).length = wordSize := by
  have hw : wordSize = 4 := rfl
  have := o.pendingLen.isLt
  rw [padToWords_length, pending_length, hw]
  omega

/-- The write of `flushPending` stays in the log of `finalize`. -/
theorem finalize_issues (hlt : o.target.offset + o.writeOffset < 2^32) (hprog : o.inProgress)
    (hbytes : o.bytesWritten ≠ 0) (hpend : 0 < o.pendingLen.val) :
    Op.write (o.target.offset + o.writeOffset) (padToWords o.pending) ∈
      (final finalize o).flash.issued := by
  refine (finalize_keeps (J := fun d => _ ∈ d.issued) o (fun hno => ?_) (fun _ _ => ?_)
    (keeps_setBootPartition (fun _ _ => keeps_mem_issued) _)).1
  · exact absurd ⟨hprog, hbytes⟩ hno
  · rw [flushFlash_issues hlt hpend]
    simp [Device.final_issue_issued]

/-- A write of whole words from `write_offset` on is in range exactly when it ends inside the target
partition. -/
theorem Confined.write_inRange (h : Confined r o) {bytes : List UInt8} (_ : 0 < bytes.length) :
    InRange r (.write (o.target.offset + o.writeOffset) bytes) ↔
      o.writeOffset + bytes.length ≤ o.target.size := by
  have hota : otadataEnd ≤ o.target.offset := by cases o.target <;> decide
  rw [InRange, ← h.target_eq]
  simp only [Op.Within, Op.start, Op.stop]
  omega

/-- The address of the next write fits a word. -/
theorem Confined.offset_lt (h : Confined r o) : o.target.offset + o.writeOffset < 2^32 := by
  have hoff := h.offset_le
  have hlt := o.target.size_lt
  rw [← h.target_eq] at hoff
  omega

/-- Operations in the otadata partition are in range. -/
theorem keeps_otadata (op : Op) (hop : op.Within otadataOffset otadataEnd) :
    Keeps (AllInRange r) (Device.issue op) :=
  keeps_allInRange fun _ => .inr hop

/-- Beginning keeps the updater confined. -/
theorem Confined.step_begin (h : Confined r o) : Confined r (o.step .begin) := by
  -- `erase_range` erases sectors of the partition only.
  have herase : Keeps (AllInRange r) (eraseRange o.target 0 o.target.size) := by
    refine keeps_eraseRange _ fun k _ hk => keeps_allInRange fun _ => .inl ?_
    rw [← h.target_eq]
    simp only [Op.Within, Op.start, Op.stop]
    omega
  obtain ⟨hf, -, htarget, hoff⟩ := begin_keeps o h.inRange herase
  refine ⟨htarget.trans h.target_eq, ?_, hf⟩
  show (final begin o).writeOffset ≤ _
  rcases hoff with hoff | hoff
  · exact hoff ▸ h.offset_le
  · exact hoff ▸ Nat.zero_le _

/-- A write whose words fit keeps the updater confined. -/
theorem Confined.step_write (h : Confined r o) {chunk : List UInt8}
    (hfit : o.WordsFit (.write chunk)) : Confined r (o.step (.write chunk)) := by
  rcases write_cases o chunk with ⟨-, b, hstep⟩ | ⟨hpass, w, buf, len, n, hstep, hoff⟩
  · rw [EspOtaFlash.step, call, hstep]
    exact ⟨h.target_eq, h.offset_le, h.inRange⟩
  -- The words of a chunk that passes fit.
  have hle := hfit hpass
  have hlen : (o.pending ++ chunk).length = o.pendingLen + chunk.length := by simp
  rw [← hlen] at hle
  have hsize := o.target.size_lt
  have hw : wordSize = 4 := rfl
  rw [EspOtaFlash.step, call, hstep]
  refine ⟨h.target_eq, ?_, ?_⟩
  · show w ≤ _
    rw [← h.target_eq]
    rcases hoff with rfl | ⟨-, rfl⟩
    · exact h.target_eq ▸ h.offset_le
    · rw [Nat.mod_eq_of_lt (by omega)]
      exact hle
  · show AllInRange r (final (wordsFlash o (o.pending ++ chunk)) o.flash)
    by_cases hwords : 0 < (o.pending ++ chunk).length / wordSize
    · rw [wordsFlash_issues h.offset_lt hwords]
      refine keeps_allInRange (fun _ => ?_) o.flash h.inRange
      rw [h.write_inRange (wholeWords_pos hwords), wholeWords_length]
      exact hle
    · rw [wordsFlash, if_neg hwords]
      exact h.inRange

/-- Finishing with words that fit keeps the updater confined. -/
theorem Confined.step_finalize (h : Confined r o) (hfit : o.WordsFit .finalize) :
    Confined r (o.step .finalize) := by
  have hw : wordSize = 4 := rfl
  -- The word that flushes the buffer fits.
  have hflush : o.inProgress → o.bytesWritten ≠ 0 →
      AllInRange r (final (flushFlash o) o.flash) := by
    intro hprog hbytes
    by_cases hpend : 0 < o.pendingLen.val
    · have hpad := padToWords_pending hpend
      rw [flushFlash_issues h.offset_lt hpend]
      refine keeps_allInRange (fun _ => ?_) o.flash h.inRange
      rw [h.write_inRange (by omega), hpad]
      exact hfit hprog hbytes hpend
    · rw [flushFlash, if_neg hpend]
      exact h.inRange
  obtain ⟨hf, -, htarget, hoff⟩ := finalize_keeps o (fun _ => h.inRange) hflush
    (keeps_setBootPartition keeps_otadata o.target)
  refine ⟨htarget.trans h.target_eq, ?_, hf⟩
  show (final finalize o).writeOffset ≤ _
  rw [← h.target_eq]
  rcases hoff with hoff | ⟨hprog, hbytes, hpend, hoff⟩
  · rw [hoff, h.target_eq]
    exact h.offset_le
  · have hle := hfit hprog hbytes hpend
    have hlt := o.pendingLen.isLt
    omega

/-- A call whose words fit keeps the invariant. -/
theorem Confined.step (h : Confined r o) {c : OtaCall} (hfit : o.WordsFit c) :
    Confined r (o.step c) := by
  cases hc : c.downloads with
  | false =>
    obtain ⟨f, hstep, hf⟩ := step_keeps keeps_otadata o hc h.inRange
    rw [hstep]
    exact ⟨h.target_eq, h.offset_le, hf⟩
  | true =>
    cases c with
    | begin => exact h.step_begin
    | write chunk => exact h.step_write hfit
    | finalize => exact h.step_finalize hfit
    | _ => cases hc

/-- When the operations after a call are in range, its words fit. -/
theorem Confined.wordsFit (h : Confined r o) {c : OtaCall}
    (hstep : AllInRange r (o.step c).flash) : o.WordsFit c := by
  have hw : wordSize = 4 := rfl
  cases c with
  | write chunk =>
    intro hpass
    rcases write_cases o chunk with ⟨hnot, -⟩ | ⟨-, w, buf, len, n, hfinal, -⟩
    · exact absurd hpass hnot
    rw [EspOtaFlash.step, call, hfinal] at hstep
    have hlen : (o.pending ++ chunk).length = o.pendingLen + chunk.length := by simp
    by_cases hwords : 0 < (o.pending ++ chunk).length / wordSize
    · replace hstep : AllInRange r (final (wordsFlash o (o.pending ++ chunk)) o.flash) := hstep
      rw [wordsFlash_issues h.offset_lt hwords] at hstep
      have hop := hstep (.write (o.target.offset + o.writeOffset) (wholeWords (o.pending ++ chunk)))
        (by simp [Device.final_issue_issued]) rfl
      rw [h.write_inRange (wholeWords_pos hwords), wholeWords_length, hlen] at hop
      exact hop
    · rw [← hlen, Nat.eq_zero_of_not_pos hwords, Nat.zero_mul, h.target_eq]
      exact h.offset_le
  | finalize =>
    intro hprog hbytes hpend
    have hop := hstep _ (finalize_issues h.offset_lt hprog hbytes hpend) rfl
    have hpad := padToWords_pending hpend
    rw [h.write_inRange (by omega), hpad] at hop
    exact hop
  | _ => trivial

/-- What every operation keeps, every call keeps. -/
theorem step_keeps_flash {I : Device geometry → Prop} (h : ∀ op, Keeps I (Device.issue op))
    (o : EspOtaFlash (Device geometry)) (c : OtaCall) (h0 : I o.flash) : I (o.step c).flash := by
  cases hc : c.downloads with
  | false =>
    obtain ⟨f, hstep, hf⟩ := step_keeps (fun op _ => h op) o hc h0
    rw [hstep]
    exact hf
  | true =>
  cases c with
  | begin => exact (keeps_begin (fun op _ => h op) o ⟨rfl, rfl, h0⟩).2.2
  | write chunk => exact (keeps_write (fun op _ => h op) chunk o ⟨rfl, rfl, h0⟩).2.2
  | finalize =>
    exact (finalize_keeps o (fun _ => h0)
      (fun _ _ => Keeps.ite (keeps_alignedWrite (h _)) (Keeps.pure _) _ h0)
      (keeps_setBootPartition (fun op _ => h op) _)).1
  | _ => cases hc

/-- On a chip with any contents and any faults, every run of calls of an updater for `running`
erases and writes only in range, and keeps the running partition, exactly when the words of each
call fit. -/
theorem run_contained_iff (running : Partition) (mem : ℕ → UInt8)
    (fault : ℕ → Op → Option (ℕ → UInt8)) (cs : List OtaCall) :
    (∀ pre post, cs = pre ++ post →
        AllInRange running ((new (Device.start geometry mem fault) running).run pre).flash ∧
          RunningKept running mem ((new (Device.start geometry mem fault) running).run pre).flash) ↔
      Run.Along step WordsFit (new (Device.start geometry mem fault) running) cs := by
  set o0 := new (Device.start geometry mem fault) running with ho0
  have h0 : Confined running o0 :=
    ⟨by cases running <;> rfl, Nat.zero_le _, fun op hop => nomatch hop⟩
  have hkept : ∀ pre, AllInRange running (o0.run pre).flash →
      RunningKept running mem (o0.run pre).flash := by
    refine Run.invariant (I := fun o =>
      AllInRange running o.flash → RunningKept running mem o.flash)
      (fun o c ho => step_keeps_flash keeps_running o c ho) ?_
    exact fun _ _ _ _ => rfl
  rw [← Run.along_iff_forall (P := fun o => AllInRange running o.flash) (fun _ h => h.inRange)
    (fun _ _ h => h.wordsFit) (fun _ _ h => h.step) h0 cs]
  exact forall₃_congr fun pre _ _ => and_iff_left_of_imp (hkept pre)

/-- An update from `Ota1` whose chunks pass every check writes the first word of `Ota1`: of a chunk
one byte short of the partition three bytes wait in the buffer, the four bytes of the next chunk
fill the last word, and the three that wait then are flushed past the end. -/
theorem run_overruns {chunk1 chunk2 : List UInt8} (hmagic : chunk1.head? = some 0xE9)
    (hlen1 : chunk1.length = ota0Size - 1) (hlen2 : chunk2.length = 4) :
    ∃ op ∈ ((new blankDevice .ota1).run
        [.begin, .write chunk1, .write chunk2, .finalize]).flash.issued,
      op.modifies = true ∧ op.Touches Partition.ota1.offset := by
  have hsize : Partition.ota0.size = 1310720 := rfl
  have hlen1' : chunk1.length = 1310719 := hlen1
  have hlen : (chunk1 ++ chunk2).length = 1310723 := by rw [List.length_append, hlen1', hlen2]
  have hne1 : chunk1 ≠ [] := List.ne_nil_of_length_pos (by omega)
  have hne2 : chunk2 ≠ [] := List.ne_nil_of_length_pos (by omega)
  have hf1 : flushed chunk1.length = 1310716 := by rw [hlen1']; rfl
  have hf : flushed (chunk1 ++ chunk2).length = 1310720 := by rw [hlen]; rfl
  obtain ⟨o1, hbegin, h1, -⟩ := begin_holds (o := new blankDevice .ota1)
    (blankDevice_healthyOn _ _) rfl
  replace h1 : Holds .ota0 blankDevice [] o1 := h1
  have hd := blankDevice_healthyOn Partition.ota0.offset Partition.ota0.stop
  have hpass1 : o1.Passes chunk1 := by
    refine ⟨h1.inProgress, hne1, .inr hmagic, ?_⟩
    rw [h1.offset, h1.target_eq, hlen1']
    decide
  obtain ⟨o2, hwrite1, h2⟩ := h1.write hd hpass1 (by rw [List.nil_append, hf1, hsize]; omega)
    (by rw [List.nil_append, hlen1']; omega)
  rw [List.nil_append] at h2
  have hpass2 : o2.Passes chunk2 := by
    refine ⟨h2.inProgress, hne2, .inl (h2.validated hne1), ?_⟩
    rw [h2.offset, h2.target_eq, hf1, hlen2]
    decide
  obtain ⟨o3, hwrite2, h3⟩ := h2.write hd hpass2 (Nat.le_of_eq (hf.trans hsize.symm))
    (by rw [hlen]; omega)
  have hoffset : o3.writeOffset = 1310720 := h3.offset.trans hf
  have hpend : (o3.pendingLen : ℕ) = 3 := by
    rw [← pending_length, h3.pending, List.length_drop, hf, hlen]
  have hstep1 : (new blankDevice .ota1).step .begin = o1 := final_ok hbegin
  have hstep2 : o1.step (.write chunk1) = o2 := final_ok hwrite1
  have hstep3 : o2.step (.write chunk2) = o3 := final_ok hwrite2
  rw [run_cons, hstep1, run_cons, hstep2, run_cons, hstep3, run_cons, run_nil]
  have htarget : o3.target = .ota0 := h3.target_eq
  have hpos : 0 < o3.pendingLen.val := by omega
  have hissued := finalize_issues (o := o3) (by rw [htarget, hoffset]; decide) h3.inProgress
    (by rw [h3.written, hlen]; omega) hpos
  have hpad := padToWords_pending hpos
  have hstart : Partition.ota0.offset + 1310720 = Partition.ota1.offset := rfl
  rw [htarget, hoffset, hstart] at hissued
  refine ⟨_, hissued, rfl, Nat.le_refl _, ?_⟩
  rw [Op.stop, hpad]
  exact Nat.lt_add_of_pos_right (by decide)

/-- Such chunks exist. -/
theorem run_overruns_zeros :
    ∃ op ∈ ((new blankDevice .ota1).run [.begin, .write (0xE9 :: List.replicate (ota0Size - 2) 0),
        .write (List.replicate 4 0), .finalize]).flash.issued,
      op.modifies = true ∧ op.Touches Partition.ota1.offset :=
  run_overruns List.head?_cons
    (by rw [List.length_cons, List.length_replicate]; rfl) List.length_replicate

end EspOtaFlash

end Launa.EspOta
