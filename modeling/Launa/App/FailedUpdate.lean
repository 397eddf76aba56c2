import Launa.App.Ota
import Launa.EspOta.Validation

/-!
# What boots after a failed download

An attempt that fails after `begin` rolls back, which makes the running partition the boot
partition. Nothing before that touches otadata, so the slots after the attempt are the plan of the
running partition on the slots before it (`rolledBack_slots`), and what the bootloader chooses can
be compared on the slots alone (`Slots.switch_bootChoice`).

The bootloader starts the factory image when no slot is valid, and otherwise the partition that the
highest number maps to. `create_ota` takes the running partition to be `Ota0` where no number is
above 0, and the rollback then writes numbers that say something else.
-/

namespace Launa.EspOta.Slots

open Checked

/-- The choice of the bootloader, where `none` is the factory image: with a valid slot, the
partition that the highest number minus one is the index of, modulo 2. -/
def bootChoice (s : Slots) : Option Partition :=
  if (s .ota0).isSome ∨ (s .ota1).isSome then
    some (if ((s.maxSeq : ℤ) - 1) % 2 = 0 then .ota0 else .ota1)
  else none

variable {s : Slots} {ws : List (Partition × ℕ)}

/-- With a number above 0 the bootloader chooses the selected partition. -/
theorem bootChoice_of_pos (h : 0 < s.maxSeq) : s.bootChoice = some s.selected := by
  have hmod : ((s.maxSeq : ℤ) - 1) % 2 = 0 ↔ (s.maxSeq - 1) % 2 = 0 := by omega
  have hvalid : (s .ota0).isSome ∨ (s .ota1).isSome := by
    by_contra hno
    rw [not_or, Option.not_isSome_iff_eq_none, Option.not_isSome_iff_eq_none] at hno
    rw [maxSeq, seq, seq, hno.1, hno.2] at h
    exact absurd h (by decide)
  rw [bootChoice, if_pos hvalid, selected, bootOf,
    if_neg (show ¬ s.maxSeq = 0 by omega), partitionOf]
  simp only [hmod]

/-- Without a number above 0 the running partition is a guess, `Ota0`, whose new number is 1. The
boot loader takes the second one, if a slot is valid. -/
theorem selected_guess_iff {s' : Slots} (h0 : s.maxSeq = 0) (hself : s' .ota0 = some 1)
    (hother : s' .ota1 = if (s .ota1).isSome then s .ota1 else some 2) :
    some s'.selected = s.bootChoice ↔ s .ota0 = some 0 ∧ s .ota1 = none := by
  have hboot : s.bootChoice =
      if (s .ota0).isSome ∨ (s .ota1).isSome then some .ota1 else none := by
    rw [bootChoice, h0]
    rfl
  have hzero : ∀ q m, s q = some m → m = 0 := fun q m hq => by
    have hle : s.seq q ≤ s.maxSeq := seq_le_maxSeq
    rw [h0, seq, hq] at hle
    exact Nat.le_zero.1 hle
  have hswitch : ∀ m, s' .ota1 = some m → s'.selected = bootOf (max 1 m) := fun m hm => by
    rw [selected, maxSeq, seq, seq, hself, hm]
    rfl
  rw [hboot]
  cases h1 : s .ota1 with
  | none =>
    rw [h1] at hother
    rw [hswitch 2 hother]
    cases hq : s .ota0 with
    | none => simp
    | some m =>
      obtain rfl := hzero _ _ hq
      simp
      decide
  | some m =>
    obtain rfl := hzero _ _ h1
    rw [h1] at hother
    rw [hswitch 0 hother]
    simp
    decide

/-- Making the selected partition the boot partition does not change what boots exactly when a slot
holds a number above 0, or slot 0 alone is valid and holds 0. -/
theorem switch_bootChoice (hs : s.InRange) (hroom : s.Headroom) (h : s.plan s.selected = some ws) :
    (ws.foldl write s).bootChoice = s.bootChoice ↔
      0 < s.maxSeq ∨ (s .ota0 = some 0 ∧ s .ota1 = none) := by
  obtain ⟨ws', n, hplan, hn, hlt⟩ := hroom.plan hs s.selected
  obtain rfl : ws = ws' := by rw [h] at hplan; exact Option.some.inj hplan
  have hself := (switch_self hs h hn).trans (stored_of_lt hlt)
  have hother := switch_other hs h hn
  obtain ⟨hmax, -, -, -⟩ := nextSeq_some s.selected.index_lt hs.maxSeq_lt hn
  have hpos : 0 < (ws.foldl write s).maxSeq := by
    refine Nat.lt_of_lt_of_le (Nat.lt_of_le_of_lt (Nat.zero_le _) hmax) ?_
    have hseq : (ws.foldl write s).seq s.selected = n := by rw [seq, hself]; rfl
    exact hseq ▸ seq_le_maxSeq
  rw [bootChoice_of_pos hpos]
  rcases Nat.eq_zero_or_pos s.maxSeq with h0 | h0
  · have hsel : s.selected = .ota0 := by rw [selected, h0]; rfl
    rw [hsel] at hself hother
    rw [hsel, h0] at hn
    obtain rfl : 1 = n := Option.some.inj hn
    rw [h0] at hother
    rw [selected_guess_iff h0 hself hother, h0]
    exact ⟨.inr, fun h => h.resolve_left (Nat.lt_irrefl 0)⟩
  -- The running partition is the one that boots, and keeps doing so.
  · have hgood : ¬ (s.selected = .ota0 ∧ s.maxSeq = 0 ∧ s .ota1 = none) := by
      rintro ⟨-, hz, -⟩
      omega
    rw [(switch_selected hs h hn hlt).2 hgood, bootChoice_of_pos h0]
    simp [h0]

end Launa.EspOta.Slots

namespace Launa.App

open Stateful Checked Nor Ota EspOta EspOtaFlash

section Keeps

variable {r t : Partition} {I : Device geometry → Prop}
  (h : ∀ op : Op, otadataEnd ≤ op.start → Keeps I (Device.issue op))
include h

/-- Writing the body keeps the invariant. -/
theorem keeps_writeBody (reads : List (Option Segment)) : Keeps (With r t I) (writeBody reads) := by
  induction reads with
  | nil => exact Keeps.pure _
  | cons read reads ih =>
    cases read with
    | none => exact Keeps.pure _
    | some seg =>
      refine Keeps.ite (Keeps.pure _) ((keeps_attempt (keeps_write h _)).bind fun result => ?_)
      cases result with
      | none => exact Keeps.pure _
      | some _ => exact ih

/-- Writing the response keeps the invariant. -/
theorem keeps_writeResponse (body : List UInt8) (reads : List (Option Segment)) :
    Keeps (With r t I) (writeResponse body reads) := by
  refine Keeps.ite (keeps_writeBody h _)
    ((keeps_attempt (keeps_write h _)).bind fun result => ?_)
  cases result with
  | none => exact Keeps.pure _
  | some _ => exact keeps_writeBody h _

omit h in
/-- The check of the CRC keeps the invariant. -/
theorem keeps_checkCrc (expectedCrc : Option UInt32) :
    Keeps (With r t I) (checkCrc expectedCrc) := by
  cases expectedCrc with
  | none => exact Keeps.pure _
  | some crc =>
    have hverify : Keeps (With r t I) (verifyHash crc) :=
      keeps_get_bind fun o ho => Keeps.ite (Keeps.throw _) (Keeps.pure _) o ho
    refine (keeps_attempt hverify).bind fun result => ?_
    cases result <;> exact Keeps.pure _

end Keeps

/-- A `finalize` that returns an error on healthy otadata has not touched it. -/
theorem finalize_error {r t : Partition} {d0 : Device geometry}
    (hota : d0.HealthyOn otadataOffset otadataEnd) {o o' : EspOtaFlash (Device geometry)}
    {e : OtaError} (h : With r t (SameOtadata d0) o) (he : finalize o = .error (.error e) o') :
    With r t (SameOtadata d0) o' := by
  unfold finalize at he
  replace he := (bind_ok (get_apply o)).symm.trans he
  split at he
  · cases he
    exact h
  split at he
  · cases he
    exact h
  cases hflush : flushPending o with
  | error e1 o1 =>
    rw [bind_error hflush] at he
    cases he
    exact (keeps_flushPending (keeps_sameOtadata d0)).error h hflush
  | ok a o1 =>
    rw [bind_ok hflush] at he
    -- The switch on healthy otadata returns or panics.
    have h1 := (keeps_flushPending (keeps_sameOtadata d0)).ok h hflush
    have hota1 := h1.2.2.healthyOn hota
    cases hplan : (slotsAt o1.flash.mem).plan o.target with
    | none =>
      rw [bind_error (onFlash_error (setBootPartition_panic hota1 hplan))] at he
      cases he
    | some ws =>
      rw [bind_ok (onFlash_ok (setBootPartition_ok hota1 hplan))] at he
      cases he

/-- `ota_rollback` resets after a rollback. -/
theorem otaRollback_eq_ok {o o' : EspOtaFlash (Device geometry)} {out : Outcome}
    (h : otaRollback o = .ok out o') :
    out = .rolledBack ∧ ∃ result, attempt rollbackAndReboot o = .ok result o' := by
  obtain ⟨result, o1, hroll, h⟩ := bind_eq_ok.1 h
  cases h
  exact ⟨rfl, result, hroll⟩

/-- How `downloadBody` ends: before anything happened, with a rollback of untouched otadata, or with
untouched otadata before `finalize`. -/
theorem downloadBody_cases {r t : Partition} {d0 : Device geometry}
    {o o' : EspOtaFlash (Device geometry)} (h : With r t (SameOtadata d0) o)
    {expectedCrc : Option UInt32} {headerBuf : List UInt8} {pos : ℕ}
    {reads : List (Option Segment)} {out : Option Outcome}
    (hout : downloadBody expectedCrc headerBuf pos reads o = .ok out o') :
    out = some .failed ∨
      (out = some .rolledBack ∧ ∃ o1, With r t (SameOtadata d0) o1 ∧
        otaRollback o1 = .ok .rolledBack o') ∨
      (out = none ∧ With r t (SameOtadata d0) o') := by
  have hkeep := keeps_sameOtadata d0
  -- Each check that fails leads to the rollback.
  have hroll : ∀ {o1}, With r t (SameOtadata d0) o1 →
      (do return some (← otaRollback) : OtaM (EspOtaFlash (Device geometry)) (Option Outcome)) o1 =
        .ok out o' →
      out = some .rolledBack ∧ ∃ o1, With r t (SameOtadata d0) o1 ∧
        otaRollback o1 = .ok .rolledBack o' := by
    intro o1 h1 hout
    obtain ⟨out1, o2, hroll, hout⟩ := bind_eq_ok.1 hout
    obtain ⟨rfl, -⟩ := otaRollback_eq_ok hroll
    cases hout
    exact ⟨rfl, o1, h1, hroll⟩
  obtain ⟨result, o1, hbegin, hout⟩ := bind_eq_ok.1 hout
  have h1 := (keeps_attempt (keeps_begin hkeep)).ok h hbegin
  cases result with
  | none =>
    cases hout
    exact .inl rfl
  | some _ =>
    dsimp only at hout
    split at hout
    · exact .inr (.inl (hroll h1 hout))
    obtain ⟨written, o2, hwrite, hout⟩ := bind_eq_ok.1 hout
    have h2 := (keeps_writeResponse hkeep _ _).ok h1 hwrite
    split at hout
    · exact .inr (.inl (hroll h2 hout))
    obtain ⟨verified, o3, hcheck, hout⟩ := bind_eq_ok.1 hout
    have h3 := (keeps_checkCrc _).ok h2 hcheck
    split at hout
    · exact .inr (.inl (hroll h3 hout))
    cases hout
    exact .inr (.inr ⟨rfl, h3⟩)

/-- `download` fails early, or ends as `downloadBody` does. -/
theorem download_cases {r t : Partition} {d0 : Device geometry}
    {o o' : EspOtaFlash (Device geometry)} (h : With r t (SameOtadata d0) o) {url : List Char}
    {net : Network} {out : Option Outcome} (hout : download url net o = .ok out o') :
    out = some .failed ∨
      (out = some .rolledBack ∧ ∃ o1, With r t (SameOtadata d0) o1 ∧
        otaRollback o1 = .ok .rolledBack o') ∨
      (out = none ∧ With r t (SameOtadata d0) o') := by
  have hfailed : ∀ {o1}, (pure (some .failed) : OtaM (EspOtaFlash (Device geometry)) _) o1 =
      .ok out o' → out = some .failed := fun h => by
    cases h
    rfl
  unfold download at hout
  cases hurl : parseHttpUrl url with
  | none =>
    rw [hurl] at hout
    exact .inl (hfailed hout)
  | some parts =>
    simp only [hurl] at hout
    split at hout
    · exact .inl (hfailed hout)
    cases hheaders : readHeaders net.reads [] with
    | none =>
      rw [hheaders] at hout
      exact .inl (hfailed hout)
    | some headers =>
      simp only [hheaders] at hout
      split at hout
      · exact .inl (hfailed hout)
      · exact downloadBody_cases h hout

/-- An attempt that rolls back does so on untouched otadata. -/
theorem performOtaUpdate_rolledBack {o o' : EspOtaFlash (Device geometry)}
    (hota : o.flash.HealthyOn otadataOffset otadataEnd) {url : List Char} {net : Network}
    (h : performOtaUpdate url net o = .ok .rolledBack o') :
    ∃ o1, With o.running o.target (SameOtadata o.flash) o1 ∧
      otaRollback o1 = .ok .rolledBack o' := by
  have h0 : With o.running o.target (SameOtadata o.flash) o := ⟨rfl, rfl, rfl, fun _ _ => rfl⟩
  obtain ⟨out, o1, hdownload, h⟩ := bind_eq_ok.1 h
  rcases download_cases h0 hdownload with rfl | ⟨rfl, o2, h2, hroll⟩ | ⟨rfl, h1⟩
  · cases h
  · cases h
    exact ⟨o2, h2, hroll⟩
  · obtain ⟨result, o2, hfinal, h⟩ := bind_eq_ok.1 h
    cases result with
    | some _ => cases h
    | none =>
      obtain ⟨e, hfinal⟩ := attempt_eq_none.1 hfinal
      exact ⟨o2, finalize_error hota h1 hfinal, h⟩

/-- The slots after an attempt that rolled back are the plan of the running partition. -/
theorem rolledBack_slots {o o' : EspOtaFlash (Device geometry)}
    (hota : o.flash.HealthyOn otadataOffset otadataEnd) {url : List Char} {net : Network}
    (h : performOtaUpdate url net o = .ok .rolledBack o') {ws : List (Partition × ℕ)}
    (hplan : (slotsAt o.flash.mem).plan o.running = some ws) :
    slotsAt o'.flash.mem = ws.foldl Slots.write (slotsAt o.flash.mem) := by
  obtain ⟨o1, ⟨hrun, -, hsame⟩, hroll⟩ := performOtaUpdate_rolledBack hota h
  obtain ⟨-, result, hroll⟩ := otaRollback_eq_ok hroll
  rw [← hsame.slotsAt, ← hrun] at hplan
  have hset := setBootPartition_ok (hsame.healthyOn hota) hplan
  have hok : rollbackAndReboot o1 = .ok () _ := (bind_ok (get_apply o1)).trans (onFlash_ok hset)
  rw [attempt_ok hok] at hroll
  cases hroll
  rw [Device.after_mem, replay_append, replay_entryReads,
    slotsAt_planOps (Slots.plan_lt (slotsAt_inRange _) hplan), hsame.slotsAt]

/-- After an attempt that fails and rolls back, on otadata whose operations do not fail, what boots
is what booted before exactly when a slot held a number above 0, or slot 0 alone was valid and held
0. -/
theorem performOtaUpdate_bootChoice {d : Device geometry}
    (hota : d.HealthyOn otadataOffset otadataEnd) (hroom : (slotsAt d.mem).Headroom)
    {url : List Char} {net : Network} {o' : EspOtaFlash (Device geometry)}
    (h : performOtaUpdate url net (createOta d) = .ok .rolledBack o') :
    (slotsAt o'.flash.mem).bootChoice = (slotsAt d.mem).bootChoice ↔
      0 < (slotsAt d.mem).maxSeq ∨ (slotsAt d.mem .ota0 = some 0 ∧ slotsAt d.mem .ota1 = none) := by
  rw [createOta_ok hota] at h
  have hs := slotsAt_inRange d.mem
  obtain ⟨ws, n, hplan, -, -⟩ := hroom.plan hs (slotsAt d.mem).selected
  have hslots := rolledBack_slots (o := new (d.after entryReads) (slotsAt d.mem).selected) hota h
    hplan
  rw [hslots]
  exact Slots.switch_bootChoice hs hroom hplan

/-- `download` of a response whose headers pass is `downloadBody`. -/
theorem download_eq {url : List Char} {net : Network} {parts : List Char × ℕ × List Char}
    {headerBuf : List UInt8} {pos : ℕ} {reads : List (Option Segment)}
    (hurl : parseHttpUrl url = some parts) (hconnects : net.connects = true)
    (hheaders : readHeaders net.reads [] = some (headerBuf, pos, reads))
    (hstatus : validateHttpStatus headerBuf = true) :
    (download url net : OtaM (EspOtaFlash (Device geometry)) _) =
      downloadBody (parseCrcFromUrl url) headerBuf pos reads := by
  unfold download
  simp only [hurl, hconnects, hheaders, hstatus, Bool.not_true, Bool.false_eq_true, if_false]

/-- A response with status 200 and an empty body. -/
def emptyResponse : Network := ⟨true, [some ⟨ascii "HTTP/1.1 200 OK\r\n\r\n", by decide⟩]⟩

/-- An attempt on a healthy chip whose response has an empty body rolls back. -/
theorem performOtaUpdate_emptyResponse {d : Device geometry} (hd : d.Healthy)
    (hroom : (slotsAt d.mem).Headroom) :
    ∃ o', performOtaUpdate "http://h/f".toList emptyResponse (createOta d) =
      .ok .rolledBack o' := by
  rw [createOta_ok (hd.healthyOn _ _)]
  set o := new (d.after entryReads) (slotsAt d.mem).selected with ho
  have hd' : o.flash.Healthy := hd
  obtain ⟨o1, hbegin, hholds, hrun⟩ := begin_holds (o := o) (hd'.healthyOn _ _) rfl
  have hbody : (downloadBody none (ascii "HTTP/1.1 200 OK\r\n\r\n") 15 [] :
      OtaM (EspOtaFlash (Device geometry)) _) o = .ok none o1 := by
    have hlength : parseContentLength (ascii "HTTP/1.1 200 OK\r\n\r\n") = none := by
      decide +kernel
    refine (bind_ok (attempt_ok hbegin)).trans ?_
    rw [hlength]
    rfl
  have hdownload : download "http://h/f".toList emptyResponse o = .ok none o1 := by
    have hheaders : readHeaders emptyResponse.reads [] =
        some (ascii "HTTP/1.1 200 OK\r\n\r\n", 15, []) := by decide
    have hurl : parseHttpUrl "http://h/f".toList = some (['h'], 80, ['/', 'f']) := by decide
    rw [download_eq hurl rfl hheaders (by decide),
      show parseCrcFromUrl "http://h/f".toList = none by decide]
    exact hbody
  have hfinal : finalize o1 = .error (.error .finalizeFailed) { o1 with inProgress := false } := by
    unfold finalize
    refine (bind_ok (get_apply o1)).trans ?_
    rw [if_neg (by simp [hholds.inProgress]), if_pos (show o1.bytesWritten = 0 from hholds.written)]
    rfl
  have hslots : slotsAt o1.flash.mem = slotsAt d.mem := hholds.slotsAt
  have hota : o1.flash.HealthyOn otadataOffset otadataEnd :=
    (hd.healthyOn _ _).of_fault hholds.fault
  obtain ⟨ws, n, hplan, -, -⟩ := hroom.plan (slotsAt_inRange _) o1.running
  have hset := setBootPartition_ok hota (hslots ▸ hplan)
  have hroll : rollbackAndReboot { o1 with inProgress := false } = .ok () _ :=
    (bind_ok (get_apply _)).trans (onFlash_ok hset)
  have hnone : attempt finalize o1 = .ok none { o1 with inProgress := false } :=
    attempt_eq_none.2 ⟨_, hfinal⟩
  have hback : otaRollback { o1 with inProgress := false } = .ok .rolledBack _ :=
    bind_ok (attempt_ok hroll)
  exact ⟨_, (bind_ok hdownload).trans ((bind_ok hnone).trans hback)⟩

/-- On a chip that was never used, which boots the factory image, a response with an empty body
makes the bootloader choose `Ota1`. -/
theorem performOtaUpdate_blank :
    ∃ o', performOtaUpdate "http://h/f".toList emptyResponse (createOta blankDevice) =
        .ok .rolledBack o' ∧
      (slotsAt blankDevice.mem).bootChoice = none ∧
      (slotsAt o'.flash.mem).bootChoice = some .ota1 := by
  have hblank : slotsAt blankDevice.mem = fun _ => none := slotsAt_blankFlash
  have hd : blankDevice.Healthy := Device.healthy_healthy _
  obtain ⟨o', h⟩ := performOtaUpdate_emptyResponse hd (hblank ▸ fun _ _ h => nomatch h)
  refine ⟨o', h, by rw [hblank]; rfl, ?_⟩
  rw [createOta_ok (hd.healthyOn _ _)] at h
  have hplan : (slotsAt blankDevice.mem).plan (slotsAt blankDevice.mem).selected =
      some [(.ota0, 1), (.ota1, 2)] := by
    rw [hblank]
    rfl
  rw [rolledBack_slots (o := new (blankDevice.after entryReads) (slotsAt blankDevice.mem).selected)
    (hd.healthyOn _ _) h hplan]
  show (List.foldl _ (slotsAt blankDevice.mem) _).bootChoice = _
  rw [hblank]
  rfl

/-- On a chip whose slot 0 holds the number 1, that response leaves the choice as it was. -/
theorem performOtaUpdate_firstBoot :
    ∃ o', performOtaUpdate "http://h/f".toList emptyResponse (createOta firstBootDevice) =
        .ok .rolledBack o' ∧
      ((slotsAt o'.flash.mem).bootChoice = (slotsAt firstBootDevice.mem).bootChoice ↔
        0 < (slotsAt firstBootDevice.mem).maxSeq ∨
          (slotsAt firstBootDevice.mem .ota0 = some 0 ∧
            slotsAt firstBootDevice.mem .ota1 = none)) :=
  have hroom : (slotsAt firstBootDevice.mem).Headroom := by
    rw [slotsAt_firstBootDevice]
    rintro (_ | _) n hn
    · cases hn
      decide
    · cases hn
  let ⟨o', h⟩ := performOtaUpdate_emptyResponse (Device.healthy_healthy _) hroom
  ⟨o', h, performOtaUpdate_bootChoice (firstBootDevice_healthyOn _ _) hroom h⟩

end Launa.App
