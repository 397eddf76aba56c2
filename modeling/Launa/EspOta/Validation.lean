import Launa.EspOta.Image

/-!
# Validation of a new image

`needs_validation` asks otadata: whether it is in use, and then whether the running partition's slot
fails to hold a number that maps to it (`needsValidation_ok`). `finalize` writes the slot of the
partition that it makes the boot partition, with such a number, so the image that boots next is
confirmed before it has run: `needs_validation` is false after an update, either at once or after
one more update (`update_not_needsValidation`).
-/

namespace Launa.EspOta

open Stateful Checked Nor

namespace Slots

/-- The slot of `p` holds a number that maps to `p`. -/
def Confirms (s : Slots) (p : Partition) : Prop := ∃ n, s p = some n ∧ 0 < n ∧ (n - 1) % 2 = p.index

/-- Some slot is valid, and that of `p` does not confirm it. -/
def Unconfirmed (s : Slots) (p : Partition) : Prop := (∃ q, (s q).isSome) ∧ ¬ s.Confirms p

variable {s : Slots} {p : Partition} {ws : List (Partition × ℕ)}

/-- A plan whose new number is below the erased one leaves the selected partition confirmed. -/
theorem switch_confirms {n : ℕ} (hs : s.InRange) (h : s.plan p = some ws)
    (hn : nextSeq p.index s.maxSeq = some n) (hlt : n < 0xFFFFFFFF) :
    (ws.foldl write s).Confirms (ws.foldl write s).selected := by
  obtain ⟨hmax, -, -, hmod⟩ := nextSeq_some p.index_lt hs.maxSeq_lt hn
  by_cases hbad : p = .ota0 ∧ s.maxSeq = 0 ∧ s .ota1 = none
  · -- The seed 2 of slot 1 is selected.
    obtain ⟨rfl, h0, hnone⟩ := hbad
    obtain ⟨hfirst, hsecond⟩ := switch_seeded hs h h0 hnone
    have hsel : (ws.foldl write s).selected = .ota1 := by
      rw [selected, maxSeq, seq, seq, hfirst, hsecond]
      rfl
    rw [hsel]
    exact ⟨2, hsecond, by decide, rfl⟩
  · rw [(switch_selected hs h hn hlt).2 hbad]
    exact ⟨n, (switch_self hs h hn).trans (stored_of_lt hlt), by omega, hmod⟩

/-- A plan whose new number is the erased one leaves slot 0 empty, and slot 1 not. -/
theorem switch_exhausted {n : ℕ} (hs : s.InRange) (h : s.plan p = some ws)
    (hn : nextSeq p.index s.maxSeq = some n) (hge : ¬ n < 0xFFFFFFFF) :
    ws.foldl write s .ota0 = none ∧ ∃ m, ws.foldl write s .ota1 = some m := by
  have hself := switch_self hs h hn
  have hother := switch_other hs h hn
  obtain ⟨-, -, hlt, hmod⟩ := nextSeq_some p.index_lt hs.maxSeq_lt hn
  obtain rfl : n = 0xFFFFFFFF := by omega
  have hp : p = .ota0 := by
    cases p with
    | ota0 => rfl
    | ota1 => exact absurd hmod (by decide)
  subst hp
  refine ⟨hself, ?_⟩
  rw [show Partition.ota0.other = .ota1 from rfl] at hother
  rw [hother]
  split
  · exact Option.isSome_iff_exists.1 ‹_›
  · exact ⟨_, rfl⟩

/-- With slot 0 empty and slot 1 selecting `Ota0`, the plan for `Ota1` confirms `Ota0` by its seed.
-/
theorem switch_confirms_ota0 {m : ℕ} (hs : s.InRange) (h0 : s .ota0 = none)
    (h1 : s .ota1 = some m) (hm : bootOf m = .ota0) :
    ∃ ws, s.plan .ota1 = some ws ∧ (ws.foldl write s).Confirms .ota0 := by
  have hseq0 : s.seq .ota0 = 0 := by rw [seq, h0]; rfl
  have hseq1 : s.seq .ota1 = m := by rw [seq, h1]; rfl
  have hmax : s.maxSeq = m := by rw [maxSeq, hseq0, hseq1, Nat.max_eq_right (Nat.zero_le _)]
  have hlt := hs .ota1 m h1
  have hodd : m = 0 ∨ (m - 1) % 2 = 0 := by
    rcases Nat.eq_zero_or_pos m with hz | hpos
    · exact .inl hz
    · exact .inr ((bootOf_of_pos hpos).1 hm)
  cases hn : nextSeq Partition.ota1.index s.maxSeq with
  | none =>
    have := ((nextSeq_eq_none (by decide) hs.maxSeq_lt).1 hn).2
    omega
  | some n =>
    obtain ⟨ws, hplan⟩ : ∃ ws, s.plan .ota1 = some ws := ⟨_, plan_eq hs hn⟩
    have hother := switch_other hs hplan hn
    obtain ⟨hgt, hle, -, hmod⟩ := nextSeq_some (by decide) hs.maxSeq_lt hn
    refine ⟨ws, hplan, ?_⟩
    rw [show Partition.ota1.other = .ota0 from rfl, h0, if_neg (by decide)] at hother
    rw [hmax] at hgt hle
    have hmod' : (n - 1) % 2 = 1 := hmod
    refine ⟨_, hother, ?_, ?_⟩
    · split
      · exact Nat.succ_pos _
      · omega
    · rw [hmax]
      show _ % 2 = 0
      split
      · rfl
      · omega

/-- With slot 0 empty, a number in slot 1 that does not confirm what it selects selects `Ota0`. -/
theorem selected_of_not_confirms {m : ℕ} (h0 : s .ota0 = none) (h1 : s .ota1 = some m)
    (hc : ¬ s.Confirms s.selected) : s.selected = .ota0 ∧ bootOf m = .ota0 := by
  have hsel : s.selected = bootOf m := by
    rw [selected, maxSeq, seq, seq, h0, h1]
    exact congrArg bootOf (Nat.max_eq_right (Nat.zero_le _))
  rw [hsel] at hc ⊢
  rw [and_self]
  cases hm : bootOf m with
  | ota0 => rfl
  | ota1 =>
    -- A number that selects `Ota1` confirms it.
    have hpos : 0 < m := Nat.pos_of_ne_zero fun hz => by
      subst hz
      cases hm
    rw [hm] at hc
    exact absurd ⟨m, h1, hpos, (bootOf_of_pos hpos).1 hm⟩ hc

end Slots

/-- `create_ota` on healthy otadata. -/
theorem createOta_ok {d : Device geometry} (h : d.HealthyOn otadataOffset otadataEnd) :
    createOta d = EspOtaFlash.new (d.after entryReads) (slotsAt d.mem).selected := by
  have hdetect := EspOtaFlash.onFlash_ok (o := EspOtaFlash.new d .ota0)
    (detectRunningPartition_ok h)
  unfold createOta EspOtaFlash.detectRunningPartition
  rw [hdetect]
  rfl

namespace EspOtaFlash

variable {o : EspOtaFlash (Device geometry)}

/-- The verdict on the entries, in terms of the slots. -/
theorem needsValidationOf_iff (mem : ℕ → UInt8) (running : Partition) :
    needsValidationOf running (entryAt mem .ota0) (otadataEntryValid (entryAt mem .ota0))
        (entryAt mem .ota1) (otadataEntryValid (entryAt mem .ota1)) = true ↔
      (slotsAt mem).Unconfirmed running := by
  have hslot : ∀ q, slotsAt mem q =
      if otadataEntryValid (entryAt mem q) then some (seqFromEntry (entryAt mem q)) else none :=
    fun _ => rfl
  have hvalid : (∃ q, (slotsAt mem q).isSome) ↔
      otadataEntryValid (entryAt mem .ota0) ∨ otadataEntryValid (entryAt mem .ota1) := by
    simp only [slotsAt_isSome]
    constructor
    · rintro ⟨_ | _, hq⟩
      · exact .inl hq
      · exact .inr hq
    · rintro (hq | hq)
      · exact ⟨_, hq⟩
      · exact ⟨_, hq⟩
  rw [Slots.Unconfirmed, hvalid, Slots.Confirms, hslot]
  unfold needsValidationOf
  cases running <;> cases h0 : otadataEntryValid (entryAt mem .ota0) <;>
    cases h1 : otadataEntryValid (entryAt mem .ota1) <;>
    simp [Partition.index, Nat.pos_iff_ne_zero, or_iff_not_imp_left]

/-- `needs_validation` on healthy otadata. -/
theorem needsValidation_ok (h : o.flash.HealthyOn otadataOffset otadataEnd) :
    ∃ b, needsValidation o = .ok b { o with flash := o.flash.after entryReads } ∧
      (b = true ↔ (slotsAt o.flash.mem).Unconfirmed o.running) := by
  refine ⟨_, (bind_ok (attempt_ok (onFlash_ok (readOtadataEntries_ok h)))).trans
    (bind_ok (get_apply _)), ?_⟩
  exact needsValidationOf_iff o.flash.mem o.running

/-- The faults of `d0`, and its contents up to the end of otadata. -/
def SameOtadata (d0 d : Device geometry) : Prop :=
  d.fault = d0.fault ∧ ∀ a, a < otadataEnd → d.mem a = d0.mem a

/-- An operation behind otadata leaves it alone. -/
theorem keeps_sameOtadata (d0 : Device geometry) (op : Op) (h : otadataEnd ≤ op.start) :
    Keeps (SameOtadata d0) (Device.issue op) := by
  intro d hd
  refine ⟨(Device.final_issue_fault op d).trans hd.1, fun a ha => ?_⟩
  rw [Device.final_issue_mem (.inr fun ht => absurd ht.1 (by omega)), hd.2 a ha]

/-- With the same otadata the slots are the same. -/
theorem SameOtadata.slotsAt {d0 d : Device geometry} (h : SameOtadata d0 d) :
    slotsAt d.mem = EspOta.slotsAt d0.mem :=
  slotsAt_eq_of_otadata fun a _ ha => h.2 a ha

/-- With the same otadata the health of the flash is the same. -/
theorem SameOtadata.healthyOn {d0 d : Device geometry} (h : SameOtadata d0 d) {lo hi : ℕ}
    (hd : d0.HealthyOn lo hi) : d.HealthyOn lo hi :=
  hd.of_fault h.1

/-- A `finalize` that returns `Ok` has flushed the buffer and then switched the boot partition. -/
theorem finalize_eq_ok {o' : EspOtaFlash (Device geometry)} (hok : finalize o = .ok () o') :
    ∃ o1 f, flushPending o = .ok () o1 ∧ setBootPartition o.target o1.flash = .ok () f ∧
      o' = { o1 with flash := f, inProgress := false } := by
  unfold finalize at hok
  rw [bind_ok (get_apply o)] at hok
  split at hok
  · cases hok
  split at hok
  · cases hok
  obtain ⟨_, o1, hflush, hok⟩ := bind_eq_ok.1 hok
  obtain ⟨_, o2, hset, hok⟩ := bind_eq_ok.1 hok
  cases hok
  cases hb : setBootPartition o.target o1.flash with
  | error e f =>
    rw [onFlash_error hb] at hset
    cases hset
  | ok a f =>
    rw [onFlash_ok hb] at hset
    cases hset
    exact ⟨o1, f, hflush, hb, rfl⟩

/-- An update that returns `Ok` has carried out the plan that makes its target the boot
partition. -/
theorem update_slots (h : o.flash.HealthyOn otadataOffset otadataEnd)
    {chunks : List (List UInt8)} {o' : EspOtaFlash (Device geometry)}
    (hok : update chunks o = .ok () o') :
    ∃ ws, (slotsAt o.flash.mem).plan o.target = some ws ∧ o'.flash.fault = o.flash.fault ∧
      slotsAt o'.flash.mem = ws.foldl Slots.write (slotsAt o.flash.mem) := by
  obtain ⟨_, o1, hbegin, hok⟩ := bind_eq_ok.1 hok
  obtain ⟨_, o2, hwrites, hok⟩ := bind_eq_ok.1 hok
  obtain ⟨o3, f, hflush, hset, rfl⟩ := finalize_eq_ok hok
  have hkeep := keeps_sameOtadata o.flash
  have h0 : With o.running o.target (SameOtadata o.flash) o := ⟨rfl, rfl, rfl, fun _ _ => rfl⟩
  have h1 := (keeps_begin hkeep).ok h0 hbegin
  have h2 := (Keeps.forM (keeps_write hkeep) chunks).ok h1 hwrites
  have h3 := ((keeps_flushPending hkeep).ok h2 hflush).2.2
  rw [h2.2.1] at hset
  have hota := h3.healthyOn h
  rw [← h3.slotsAt]
  cases hplan : (EspOta.slotsAt o3.flash.mem).plan o.target with
  | none =>
    rw [setBootPartition_panic hota hplan] at hset
    cases hset
  | some ws =>
    rw [setBootPartition_ok hota hplan] at hset
    cases hset
    refine ⟨ws, rfl, h3.1, ?_⟩
    rw [Device.after_mem, replay_append, replay_entryReads,
      slotsAt_planOps (Slots.plan_lt (slotsAt_inRange _) hplan)]

/-- `needs_validation` returns false on healthy otadata that confirms the running partition. -/
theorem needsValidation_of_confirms (h : o.flash.HealthyOn otadataOffset otadataEnd)
    (hc : (slotsAt o.flash.mem).Confirms o.running) :
    ∃ o', needsValidation o = .ok false o' := by
  obtain ⟨b, hb, hiff⟩ := needsValidation_ok h
  cases b with
  | false => exact ⟨_, hb⟩
  | true => exact absurd hc (hiff.1 rfl).2

/-- The calls neither confirm nor roll back. -/
def Unsettled (cs : List OtaCall) : Prop := ∀ c ∈ cs, c ≠ .markValid ∧ c ≠ .rollbackAndReboot

/-- An update neither confirms nor rolls back. -/
theorem unsettled_update (chunks : List (List UInt8)) :
    Unsettled (.begin :: (chunks.map .write ++ [.finalize])) := by
  intro c hc
  simp only [List.mem_cons, List.mem_append, List.mem_map, List.not_mem_nil, or_false] at hc
  rcases hc with rfl | ⟨chunk, -, rfl⟩ | rfl <;> simp

/-- If `Ota0` runs with slot 0 empty and slot 1 selecting it, one more update confirms `Ota0` by its
seed. -/
theorem run_confirms_ota0 {d : Device geometry} (hd : d.Healthy) {m : ℕ}
    (h0 : slotsAt d.mem .ota0 = none) (h1 : slotsAt d.mem .ota1 = some m) (hm : bootOf m = .ota0) :
    ∃ cs, Unsettled cs ∧ ∃ o', needsValidation ((new d .ota0).run cs) = .ok false o' := by
  obtain ⟨ws, hplan, hconf⟩ := Slots.switch_confirms_ota0 (slotsAt_inRange _) h0 h1 hm
  obtain ⟨o', hok, -, -, -, hslots, hfault, hrunning, -⟩ :=
    update_ok (o := new d .ota0) [[0xE9]] rfl
    (hd.healthyOn _ _) (hd.healthyOn _ _) rfl (show 1 ≤ ota1Size by decide) hplan
  have hd' : o'.flash.Healthy := fun n op => by rw [hfault]; exact hd n op
  refine ⟨_, unsettled_update [[0xE9]], ?_⟩
  rw [run_update hok]
  refine needsValidation_of_confirms (hd'.healthyOn _ _) ?_
  rw [hslots, hrunning]
  exact hconf

/-- After an update that returns `Ok` and a reboot, it is not so that `needs_validation` stays true
while the new image is neither marked valid nor rolled back. -/
theorem update_not_needsValidation (hd : o.flash.Healthy) {chunks : List (List UInt8)}
    {o' : EspOtaFlash (Device geometry)} (hok : update chunks o = .ok () o') :
    ¬ ∀ cs, Unsettled cs → ∃ o'', needsValidation ((createOta o'.flash).run cs) = .ok true o'' := by
  intro hall
  suffices hfalse : ∃ cs, Unsettled cs ∧
      ∃ o'', needsValidation ((createOta o'.flash).run cs) = .ok false o'' by
    obtain ⟨cs, hcs, o2, h2⟩ := hfalse
    obtain ⟨o1, h1⟩ := hall cs hcs
    rw [h1] at h2
    cases h2
  obtain ⟨ws, hplan, hfault, hslots⟩ := update_slots (hd.healthyOn _ _) hok
  have hs := slotsAt_inRange o.flash.mem
  have hd' : o'.flash.Healthy := fun n op => by rw [hfault]; exact hd n op
  rw [createOta_ok (hd'.healthyOn _ _)]
  by_cases hc : (slotsAt o'.flash.mem).Confirms (slotsAt o'.flash.mem).selected
  · -- The number that `finalize` wrote confirms the new image at once.
    have hnil : Unsettled [] := by simp [Unsettled]
    exact ⟨[], hnil, needsValidation_of_confirms (hd'.healthyOn _ _) hc⟩
  · -- The new number was the erased one; the next update confirms the image by its seed.
    obtain ⟨n, hn, -⟩ := Slots.plan_some hs hplan
    have hge : ¬ n < 0xFFFFFFFF := fun hlt => hc (hslots ▸ Slots.switch_confirms hs hplan hn hlt)
    obtain ⟨h0, m, h1⟩ := Slots.switch_exhausted hs hplan hn hge
    rw [← hslots] at h0 h1
    obtain ⟨hsel, hm⟩ := Slots.selected_of_not_confirms h0 h1 hc
    rw [hsel]
    exact run_confirms_ota0 (d := o'.flash.after entryReads) hd' h0 h1 hm

/-- The first update of a chip that was never used. -/
theorem update_blank :
    ∃ o', update [[0xE9]] (new blankDevice .ota0) = .ok () o' ∧
      slotsAt o'.flash.mem = Slots.write (Slots.write (fun _ => none) (.ota1, 2)) (.ota0, 1) ∧
      o'.flash.Healthy := by
  have hplan : (slotsAt (new blankDevice .ota0).flash.mem).plan (new blankDevice .ota0).target =
      some [(.ota1, 2), (.ota0, 1)] := by
    rw [show (new blankDevice .ota0).flash.mem = blankFlash from rfl, slotsAt_blankFlash]
    rfl
  obtain ⟨o', hok, -, -, -, hslots, hfault, -⟩ := update_ok [[0xE9]] rfl
    (blankDevice_healthyOn _ _) (blankDevice_healthyOn _ _) rfl (by decide) hplan
  refine ⟨o', hok, ?_, fun n op => by rw [hfault]; rfl⟩
  rw [hslots, show (new blankDevice .ota0).flash.mem = blankFlash from rfl, slotsAt_blankFlash]
  rfl

/-- After that update and the reboot, `needs_validation` returns false. -/
theorem update_blank_not_needsValidation :
    ∃ o', update [[0xE9]] (new blankDevice .ota0) = .ok () o' ∧
      (createOta o'.flash).running = .ota1 ∧
      ∃ o'', needsValidation (createOta o'.flash) = .ok false o'' := by
  obtain ⟨o', hok, hslots, hd⟩ := update_blank
  have hsel : (slotsAt o'.flash.mem).selected = .ota1 := by rw [hslots]; rfl
  refine ⟨o', hok, ?_⟩
  rw [createOta_ok (hd.healthyOn _ _), hsel]
  refine ⟨rfl, needsValidation_of_confirms (hd.healthyOn _ _) ⟨2, ?_, by decide, rfl⟩⟩
  show slotsAt o'.flash.mem .ota1 = some 2
  rw [hslots]
  rfl

/-- The update of a chip that was never used is one that returns `Ok`. -/
theorem update_blank_needsValidation :
    ∃ o', update [[0xE9]] (new blankDevice .ota0) = .ok () o' ∧
      ¬ ∀ cs, Unsettled cs →
        ∃ o'', needsValidation ((createOta o'.flash).run cs) = .ok true o'' :=
  let ⟨o', hok, _⟩ := update_blank
  ⟨o', hok, update_not_needsValidation (Device.healthy_healthy _) hok⟩

end EspOtaFlash

end Launa.EspOta
