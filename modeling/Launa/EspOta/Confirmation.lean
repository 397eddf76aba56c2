import Launa.EspOta.Validation

/-!
# Confirming the boot

`mark_valid` leaves otadata alone when it is settled: no slot is valid, or both are and that of the
running partition confirms it. Otherwise it makes the running partition the boot partition
(`markValid_eq`), which settles otadata (`Slots.switch_settled`), so that a second call only reads.
The selection stays the running partition unless slot 0 is valid with the number 0 and slot 1 is
not valid (`markValid_marked_iff`): then slot 1 is seeded with a number above the one that slot 0
gets.
-/

namespace Launa.EspOta

open Stateful Checked Nor

namespace Slots

variable {s : Slots} {p : Partition} {ws : List (Partition × ℕ)}

/-- There is nothing to repair for `p`. -/
def Settled (s : Slots) (p : Partition) : Prop :=
  (∀ q, s q = none) ∨ s.Confirms p ∧ (s p.other).isSome

/-- A slot confirms its partition by its number, with an empty slot's as 0. -/
theorem confirms_iff : s.Confirms p ↔ 0 < s.seq p ∧ (s.seq p - 1) % 2 = p.index := by
  unfold Confirms seq
  cases s p with
  | none => simp
  | some n => simp

/-- A plan whose new number is below the erased one settles the slots for its partition. -/
theorem switch_settled {n : ℕ} (hs : s.InRange) (h : s.plan p = some ws)
    (hn : nextSeq p.index s.maxSeq = some n) (hlt : n < 0xFFFFFFFF) :
    (ws.foldl write s).Settled p := by
  have hself := switch_self hs h hn
  obtain ⟨hmax, -, -, hmod⟩ := nextSeq_some p.index_lt hs.maxSeq_lt hn
  have hother := switch_other hs h hn
  right
  refine ⟨⟨n, hself.trans (stored_of_lt hlt), by omega, hmod⟩, ?_⟩
  rw [hother]
  split
  · assumption
  · rfl

/-- Settled slots confirm the partition, if they hold anything. -/
theorem Settled.not_unconfirmed (h : s.Settled p) : ¬ s.Unconfirmed p := by
  rintro ⟨⟨q, hq⟩, hc⟩
  rcases h with hnone | ⟨hconf, -⟩
  · rw [hnone q] at hq
    cases hq
  · exact hc hconf

/-- Of unsettled slots that select `p`, the ones whose plan selects the other partition. -/
theorem zero_alone_iff (hsel : s.selected = p) (hset : ¬ s.Settled p) :
    p = .ota0 ∧ s.maxSeq = 0 ∧ s .ota1 = none ↔ s .ota0 = some 0 ∧ s .ota1 = none := by
  constructor
  · rintro ⟨-, hmax, h1⟩
    refine ⟨?_, h1⟩
    have hle : s.seq .ota0 ≤ 0 := hmax ▸ seq_le_maxSeq
    cases h0 : s .ota0 with
    | none =>
      -- Empty slots are settled.
      exact absurd (.inl fun q => by cases q <;> assumption) hset
    | some n =>
      rw [seq, h0, Option.getD_some] at hle
      rw [Nat.le_zero.1 hle]
  · rintro ⟨h0, h1⟩
    have hmax : s.maxSeq = 0 := by
      rw [maxSeq, seq, seq, h0, h1]
      rfl
    refine ⟨?_, hmax, h1⟩
    rw [← hsel, selected, hmax]
    rfl

end Slots

namespace EspOtaFlash

variable {o : EspOtaFlash (Device geometry)}

/-- `mark_valid` only reads settled otadata, and repairs any other with `set_boot_partition`. -/
theorem markValid_eq (h : o.flash.HealthyOn otadataOffset otadataEnd) :
    ((slotsAt o.flash.mem).Settled o.running →
      markValid o = .ok () { o with flash := o.flash.after entryReads }) ∧
    (¬ (slotsAt o.flash.mem).Settled o.running →
      markValid o = onFlash (setBootPartition o.running)
        { o with flash := o.flash.after entryReads }) := by
  have hread := onFlash_ok (o := o) (readOtadataEntries_ok h)
  have hnone : (∀ q, slotsAt o.flash.mem q = none) ↔
      (!otadataEntryValid (entryAt o.flash.mem .ota0) &&
        !otadataEntryValid (entryAt o.flash.mem .ota1)) = true := by
    simp only [← slotsAt_isSome, Bool.and_eq_true, Bool.not_eq_true', Option.isSome_eq_false_iff,
      Option.isNone_iff_eq_none]
    exact ⟨fun hq => ⟨hq _, hq _⟩, fun hq q => by cases q; exacts [hq.1, hq.2]⟩
  -- What is looked at of the running partition's slot, and of the other one.
  have hentry : (if o.running.index = 0 then entryAt o.flash.mem .ota0
      else entryAt o.flash.mem .ota1) = entryAt o.flash.mem o.running := by
    cases o.running <;> rfl
  have hvalid : (if o.running.index = 0 then otadataEntryValid (entryAt o.flash.mem .ota0)
      else otadataEntryValid (entryAt o.flash.mem .ota1)) =
        otadataEntryValid (entryAt o.flash.mem o.running) := by
    cases o.running <;> rfl
  have hother : (if 1 - o.running.index = 0 then otadataEntryValid (entryAt o.flash.mem .ota0)
      else otadataEntryValid (entryAt o.flash.mem .ota1)) =
        (slotsAt o.flash.mem o.running.other).isSome := by
    rw [slotsAt_isSome]
    cases o.running <;> rfl
  unfold markValid Slots.Settled
  rw [bind_ok hread, hnone, Slots.confirms_iff]
  dsimp only
  split
  · next hinvalid => exact ⟨fun _ => rfl, fun hset => absurd (.inl hinvalid) hset⟩
  · next hinvalid =>
    rw [bind_ok (get_apply _)]
    dsimp only
    rw [hentry, hvalid, hother, slotsAt_seq, or_iff_right hinvalid]
    exact ⟨fun hset => by rw [if_pos hset]; rfl, fun hset => by rw [if_neg hset]⟩

/-- The selection is the running partition, its boot needs no validation, and marking it valid again
neither erases nor writes. -/
structure Marked (o : EspOtaFlash (Device geometry)) : Prop where
  selected : ∃ f, EspOta.detectRunningPartition o.flash = .ok o.running f
  validated : ∃ o', needsValidation o = .ok false o'
  idempotent : ∃ o' ops, markValid o = .ok () o' ∧ o'.flash.issued = o.flash.issued ++ ops ∧
    ∀ op ∈ ops, op.modifies = false

/-- With settled otadata only the selection is in question. -/
theorem marked_iff (h : o.flash.HealthyOn otadataOffset otadataEnd)
    (hset : (slotsAt o.flash.mem).Settled o.running) :
    Marked o ↔ (slotsAt o.flash.mem).selected = o.running := by
  constructor
  · rintro ⟨⟨f, hf⟩, -, -⟩
    exact (EStateM.Result.ok.inj ((detectRunningPartition_ok h).symm.trans hf)).1
  · intro hsel
    have hdetect := detectRunningPartition_ok h
    rw [hsel] at hdetect
    refine ⟨⟨_, hdetect⟩, ?_, _, entryReads, (markValid_eq h).1 hset, rfl, by decide⟩
    obtain ⟨b, hb, hiff⟩ := needsValidation_ok h
    cases b with
    | false => exact ⟨_, hb⟩
    | true => exact absurd (hiff.1 rfl) hset.not_unconfirmed

/-- The repair of unsettled otadata carries out the plan for the running partition. -/
theorem markValid_repair (h : o.flash.HealthyOn otadataOffset otadataEnd)
    (hset : ¬ (slotsAt o.flash.mem).Settled o.running) {ws : List (Partition × ℕ)}
    (hplan : (slotsAt o.flash.mem).plan o.running = some ws) :
    ∃ o', markValid o = .ok () o' ∧ o'.running = o.running ∧ o'.flash.fault = o.flash.fault ∧
      slotsAt o'.flash.mem = ws.foldl Slots.write (slotsAt o.flash.mem) := by
  have hrepair := setBootPartition_ok (d := o.flash.after entryReads) h hplan
  refine ⟨_, ((markValid_eq h).2 hset).trans (onFlash_ok hrepair), rfl, rfl, ?_⟩
  rw [Device.after_mem, Device.after_mem, replay_entryReads, replay_append, replay_entryReads,
    slotsAt_planOps (Slots.plan_lt (slotsAt_inRange _) hplan)]

/-- After `mark_valid`, of otadata that selects the running partition and has headroom, the
selection is still that partition, its boot needs no validation, and a second call only reads, if
and only if it is not so that slot 0 is valid with the number 0 and slot 1 is not valid. -/
theorem markValid_marked_iff (o : EspOtaFlash (Device geometry))
    (h : o.flash.HealthyOn otadataOffset otadataEnd) (hseq : (slotsAt o.flash.mem).Headroom)
    (hrun : ∃ f, EspOta.detectRunningPartition o.flash = .ok o.running f) :
    (∃ o', markValid o = .ok () o' ∧ o'.running = o.running ∧ Marked o') ↔
      ¬ (slotsAt o.flash.mem .ota0 = some 0 ∧ slotsAt o.flash.mem .ota1 = none) := by
  have hs := slotsAt_inRange o.flash.mem
  have hsel : (slotsAt o.flash.mem).selected = o.running := by
    obtain ⟨f, hf⟩ := hrun
    exact (EStateM.Result.ok.inj ((detectRunningPartition_ok h).symm.trans hf)).1
  by_cases hset : (slotsAt o.flash.mem).Settled o.running
  · -- Settled otadata is not touched, and slot 0 is not valid with the number 0 alone.
    have hmarked := (marked_iff (o := { o with flash := o.flash.after entryReads }) h hset).2 hsel
    refine iff_of_true ⟨_, (markValid_eq h).1 hset, rfl, hmarked⟩ ?_
    rintro ⟨h0, h1⟩
    rcases hset with hnone | ⟨hconf, hother⟩
    · rw [hnone] at h0
      cases h0
    · have hrunning : o.running = .ota0 := by
        rw [← hsel, Slots.selected, Slots.maxSeq, Slots.seq, Slots.seq, h0, h1]
        rfl
      rw [hrunning, show Partition.ota0.other = .ota1 from rfl, h1] at hother
      cases hother
  · -- Otherwise the plan settles it, and selects the partition but for one case.
    obtain ⟨ws, n, hplan, hn, hlt⟩ := hseq.plan hs o.running
    obtain ⟨o', hok, hrunning, hfault, hslots⟩ := markValid_repair h hset hplan
    have hset' : (slotsAt o'.flash.mem).Settled o'.running := by
      rw [hslots, hrunning]
      exact Slots.switch_settled hs hplan hn hlt
    have hmarked := marked_iff (h.of_fault hfault) hset'
    rw [hslots, hrunning, Slots.switch_selected hs hplan hn hlt, Slots.zero_alone_iff hsel hset]
      at hmarked
    rw [← hmarked]
    constructor
    · rintro ⟨o'', hok', -, hm⟩
      rwa [(EStateM.Result.ok.inj (hok.symm.trans hok')).2]
    · exact fun hm => ⟨o', hok, hrunning, hm⟩

/-- On a chip whose slot 0 holds the number 1 and whose slot 1 is blank, slot 1 is seeded and `Ota0`
stays selected. -/
theorem markValid_marked_iff_firstBoot :
    ∃ o', markValid (new firstBootDevice .ota0) = .ok () o' ∧ o'.running = .ota0 ∧ Marked o' := by
  have hslots := slotsAt_firstBootDevice
  refine (markValid_marked_iff (new firstBootDevice .ota0) (firstBootDevice_healthyOn _ _)
    ?_ ?_).2 ?_
  · intro q n hq
    rw [show (new firstBootDevice .ota0).flash.mem = firstBootDevice.mem from rfl, hslots] at hq
    cases q with
    | ota0 => cases hq; decide
    | ota1 => cases hq
  · have hdetect := detectRunningPartition_ok (firstBootDevice_healthyOn otadataOffset otadataEnd)
    rw [hslots] at hdetect
    exact ⟨_, hdetect⟩
  · rw [show (new firstBootDevice .ota0).flash.mem = firstBootDevice.mem from rfl, hslots]
    decide

/-- A chip whose slot 0 holds the number 0, and whose slot 1 is blank. -/
def zeroDevice : Device geometry :=
  Device.healthy geometry (replay (planOps blankFlash [(.ota0, 0)]) blankFlash)

/-- There `Ota0` is selected, and `mark_valid` of it makes `Ota1` the selection: slot 0 gets the
number 1, and slot 1 is seeded with 2. -/
theorem markValid_zero_selects_ota1 :
    zeroDevice.Healthy ∧ (slotsAt zeroDevice.mem).Headroom ∧
    (∃ f, EspOta.detectRunningPartition zeroDevice = .ok .ota0 f) ∧
    ∃ o' f, markValid (new zeroDevice .ota0) = .ok () o' ∧
      EspOta.detectRunningPartition o'.flash = .ok .ota1 f := by
  have hhealthy : zeroDevice.HealthyOn otadataOffset otadataEnd :=
    (Device.healthy_healthy _).healthyOn _ _
  have hslots : slotsAt zeroDevice.mem = Slots.write (fun _ => none) (.ota0, 0) := by
    show slotsAt (replay (planOps blankFlash [(.ota0, 0)]) blankFlash) = _
    rw [slotsAt_planOps (by decide), slotsAt_blankFlash]
    rfl
  have hdetect := detectRunningPartition_ok hhealthy
  rw [hslots] at hdetect
  have hheadroom : (slotsAt zeroDevice.mem).Headroom := by
    intro q n hq
    rw [hslots] at hq
    cases q with
    | ota0 => cases hq; decide
    | ota1 => cases hq
  have hset : ¬ (slotsAt zeroDevice.mem).Settled .ota0 := by
    rw [hslots]
    rintro (hnone | ⟨-, hother⟩)
    · cases hnone .ota0
    · cases hother
  have hplan : (slotsAt zeroDevice.mem).plan .ota0 = some [(.ota0, 1), (.ota1, 2)] := by
    rw [hslots]
    rfl
  obtain ⟨o', hok, -, hfault, hslots'⟩ :=
    markValid_repair (o := new zeroDevice .ota0) hhealthy hset hplan
  have hdetect' := detectRunningPartition_ok (hhealthy.of_fault hfault)
  rw [hslots', show (new zeroDevice .ota0).flash.mem = zeroDevice.mem from rfl, hslots] at hdetect'
  exact ⟨Device.healthy_healthy _, hheadroom, ⟨_, hdetect⟩, o', _, hok, hdetect'⟩

end EspOtaFlash

end Launa.EspOta
