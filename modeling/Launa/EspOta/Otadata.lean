import Mathlib.Data.List.GetD
import Launa.EspOta.Slots

/-!
# The flash code refines the slots

`slotsAt` reads the slots off the flash contents. Erasing a slot's sector empties the slot, and
rewriting it stores the number and leaves the other slot alone (`slotsAt_erase`, `slotsAt_write`).
So `set_boot_partition`, on a chip whose otadata operations do not fail, carries out the plan of the
slots that it reads (`setBootPartition_ok`), and `detect_running_partition` returns the partition
that they select (`detectRunningPartition_ok`).
-/

namespace Launa.EspOta

open Stateful Checked Nor

/-- The offset of the sector of a partition's slot. -/
def slotOffset (p : Partition) : ℕ := otadataOffset + p.index * sectorSize

/-- The end of the otadata partition. -/
def otadataEnd : ℕ := otadataOffset + 2 * sectorSize

/-- The entry at the start of a slot's sector. -/
def entryAt (mem : ℕ → UInt8) (p : Partition) :
    List UInt8 := bytesAt mem (slotOffset p) otaEntrySize

/-- What an entry's slot holds. -/
def entrySlot (entry : List UInt8) : Option ℕ :=
  if otadataEntryValid entry then some (seqFromEntry entry) else none

/-- The slots that the flash contents hold. -/
def slotsAt (mem : ℕ → UInt8) : Slots := fun p => entrySlot (entryAt mem p)

/-- A slot lies within otadata. -/
theorem slotOffset_bounds (p : Partition) :
    otadataOffset ≤ slotOffset p ∧ slotOffset p + sectorSize ≤ otadataEnd := by
  cases p <;> decide

/-- The two slots do not overlap. -/
theorem slotOffset_other (p : Partition) :
    slotOffset p.other + sectorSize ≤ slotOffset p ∨
      slotOffset p + sectorSize ≤ slotOffset p.other := by
  cases p <;> decide

/-! ## Entries -/

/-- A sequence number fits a word. -/
theorem rawSeq_lt (entry : List UInt8) : rawSeq entry < 2^32 := u32FromLe_lt _

/-- An entry has its size. -/
@[simp] theorem buildOtadataEntry_length (seq : ℕ) :
    (buildOtadataEntry seq).length = otaEntrySize := rfl

/-- The bytes of the sequence number in the entry built for `seq`. -/
theorem buildOtadataEntry_seq (seq : ℕ) :
    ((buildOtadataEntry seq).drop otaSeqOffset).take otaSeqSize = u32ToLe seq := rfl

/-- The bytes of the checksum in the entry built for `seq`. -/
theorem buildOtadataEntry_crc (seq : ℕ) :
    ((buildOtadataEntry seq).drop otaCrcOffset).take otaCrcSize =
      u32ToLe (crc32Ota (u32ToLe seq)).toNat := rfl

/-- The sequence number of the entry built for `seq` is `seq`. -/
theorem rawSeq_buildOtadataEntry {seq : ℕ} (h : seq < 2^32) :
    rawSeq (buildOtadataEntry seq) = seq := by
  rw [rawSeq, buildOtadataEntry_seq, u32FromLe_u32ToLe h]

/-- The entry built for `seq` is valid unless `seq` is the erased number, and holds `seq`. -/
theorem entrySlot_buildOtadataEntry {seq : ℕ} (h : seq < 2^32) :
    entrySlot (buildOtadataEntry seq) = stored seq := by
  have hraw := rawSeq_buildOtadataEntry h
  unfold entrySlot otadataEntryValid seqFromEntry stored
  rw [hraw, buildOtadataEntry_seq, buildOtadataEntry_crc, u32FromLe_u32ToLe (UInt32.toNat_lt _)]
  split <;> simp

/-- An erased entry is not valid. -/
theorem entrySlot_of_erased {entry : List UInt8} (h : rawSeq entry = 0xFFFFFFFF) :
    entrySlot entry = none := by
  simp [entrySlot, otadataEntryValid, h]

/-- A valid slot's number is one that `u32` holds, and not the erased one. -/
theorem slotsAt_inRange (mem : ℕ → UInt8) : (slotsAt mem).InRange := by
  intro p n h
  have hlt := rawSeq_lt (entryAt mem p)
  unfold slotsAt entrySlot otadataEntryValid seqFromEntry at h
  by_cases hraw : rawSeq (entryAt mem p) = 0xFFFFFFFF
  · simp [hraw] at h
  · simp only [hraw, if_false, Option.ite_none_right_eq_some, Option.some.injEq] at h
    omega

/-- A slot depends only on the contents of its entry. -/
theorem slotsAt_congr {mem mem' : ℕ → UInt8} {p : Partition}
    (h : ∀ a, slotOffset p ≤ a → a < slotOffset p + otaEntrySize → mem a = mem' a) :
    slotsAt mem p = slotsAt mem' p := by
  unfold slotsAt entryAt
  rw [bytesAt_congr h]

/-- Contents that agree on the otadata partition hold the same slots. -/
theorem slotsAt_eq_of_otadata {mem mem' : ℕ → UInt8}
    (h : ∀ a, otadataOffset ≤ a → a < otadataEnd → mem a = mem' a) :
    slotsAt mem = slotsAt mem' := by
  funext p
  have hb := slotOffset_bounds p
  have he : otaEntrySize ≤ sectorSize := by decide
  exact slotsAt_congr fun a h1 h2 => h a (by omega) (by omega)

/-! ## Erasing and rewriting a slot's sector -/

/-- The operations of `write_otadata_slot` on the contents `mem`. -/
def slotOps (mem : ℕ → UInt8) (p : Partition) (entry : List UInt8) : List Op :=
  [.read (slotOffset p) sectorSize,
    .erase (slotOffset p) (slotOffset p + sectorSize),
    .write (slotOffset p) (entry ++ (bytesAt mem (slotOffset p) sectorSize).drop otaEntrySize)]

/-- Erasing the sector of a slot empties the slot and no other. -/
theorem slotsAt_erase (mem : ℕ → UInt8) (p : Partition) :
    slotsAt ((Op.erase (slotOffset p) (slotOffset p + sectorSize)).apply mem) =
      (slotsAt mem).erase p := by
  funext q
  rcases p.eq_or_eq_other q with rfl | rfl
  · rw [Slots.erase_self]
    apply entrySlot_of_erased
    have hbytes : ∀ i, i < 4 → (((entryAt ((Op.erase (slotOffset q)
        (slotOffset q + sectorSize)).apply mem) q).drop otaSeqOffset).take otaSeqSize).getD i 0 =
          0xFF := by
      intro i hi
      have h1 : i < otaSeqSize := hi
      have h2 : i < otaEntrySize := by unfold otaEntrySize; omega
      have h3 : i < sectorSize := by unfold sectorSize; omega
      simp [List.getD, entryAt, bytesAt, Op.apply, otaSeqOffset, h1, h2, h3]
    simp only [rawSeq, u32FromLe, hbytes 0 (by omega), hbytes 1 (by omega), hbytes 2 (by omega),
      hbytes 3 (by omega)]
    rfl
  · rw [Slots.erase_other]
    have he : otaEntrySize ≤ sectorSize := by decide
    have ho := slotOffset_other p
    refine slotsAt_congr fun a h1 h2 => Op.apply_of_not_touches ?_ mem
    simp only [Op.Touches, Op.start, Op.stop]
    omega

/-- The contents of a slot's sector after it is rewritten with an entry. -/
theorem replay_slotOps {mem : ℕ → UInt8} {p : Partition} {entry : List UInt8}
    (hlen : entry.length = otaEntrySize) (a : ℕ) :
    replay (slotOps mem p entry) mem a =
      if slotOffset p ≤ a ∧ a < slotOffset p + otaEntrySize then
        entry.getD (a - slotOffset p) 0xFF
      else mem a := by
  have he : otaEntrySize ≤ sectorSize := by decide
  simp only [slotOps, replay_cons, replay_nil,
    Op.apply_of_not_modifies (show (Op.read _ _).modifies = false from rfl)]
  by_cases hin : slotOffset p ≤ a ∧ a < slotOffset p + sectorSize
  · have herased : (Op.erase (slotOffset p) (slotOffset p + sectorSize)).apply mem a = 0xFF := by
      simp [Op.apply, hin]
    rw [write_erased herased hin.1 (by simp [hlen]; omega)]
    by_cases hentry : a < slotOffset p + otaEntrySize
    · rw [if_pos ⟨hin.1, hentry⟩, List.getD_append _ _ _ _ (by omega)]
    · rw [if_neg (by omega), List.getD_append_right _ _ _ _ (by omega), hlen]
      have hlt : a - slotOffset p - otaEntrySize <
          ((bytesAt mem (slotOffset p) sectorSize).drop otaEntrySize).length := by
        simp; omega
      rw [List.getD_eq_getElem _ _ hlt, List.getElem_drop, bytesAt_getElem]
      congr 1
      omega
  · rw [if_neg (by omega)]
    have hw : ¬ (Op.write (slotOffset p)
        (entry ++ (bytesAt mem (slotOffset p) sectorSize).drop otaEntrySize)).Touches a := by
      simp only [Op.Touches, Op.start, Op.stop, List.length_append, List.length_drop,
        bytesAt_length, hlen]
      omega
    rw [Op.apply_of_not_touches hw, Op.apply_of_not_touches]
    exact hin

/-- Rewriting the sector of a slot stores the number in the slot and leaves the other alone. -/
theorem slotsAt_write (mem : ℕ → UInt8) (p : Partition) {seq : ℕ} (h : seq < 2^32) :
    slotsAt (replay (slotOps mem p (buildOtadataEntry seq)) mem) =
      (slotsAt mem).write (p, seq) := by
  have hlen := buildOtadataEntry_length seq
  funext q
  rcases p.eq_or_eq_other q with rfl | rfl
  · have hentry : entryAt (replay (slotOps mem q (buildOtadataEntry seq)) mem) q =
        buildOtadataEntry seq := by
      apply List.ext_getElem
      · simp [entryAt, hlen]
      · intro i h1 h2
        have hi : i < otaEntrySize := by simpa [entryAt] using h1
        simp only [entryAt, bytesAt_getElem, replay_slotOps hlen]
        rw [if_pos (by omega), Nat.add_sub_cancel_left, List.getD_eq_getElem _ _ h2]
    have hself := (slotsAt mem).write_self (q, seq)
    simp only at hself
    rw [hself, slotsAt, hentry, entrySlot_buildOtadataEntry h]
  · have hother := (slotsAt mem).write_other (p, seq)
    simp only at hother
    rw [hother]
    have he : otaEntrySize ≤ sectorSize := by decide
    have ho := slotOffset_other p
    refine slotsAt_congr fun a h1 h2 => ?_
    rw [replay_slotOps hlen, if_neg (by omega)]

/-! ## The flash code on healthy otadata -/

/-- The reads of `read_otadata_entries`. -/
def entryReads : List Op :=
  [.read (slotOffset .ota0) otaEntrySize, .read (slotOffset .ota1) otaEntrySize]

/-- The operations of a list of slot writes on the contents `mem`. -/
def planOps (mem : ℕ → UInt8) : List (Partition × ℕ) → List Op
  | [] => []
  | w :: ws =>
    let ops := slotOps mem w.1 (buildOtadataEntry w.2)
    ops ++ planOps (replay ops mem) ws

/-- Reading the entries leaves the flash alone. -/
@[simp] theorem replay_entryReads (mem : ℕ → UInt8) : replay entryReads mem = mem := rfl

/-- The operations of a list of slot writes perform it. -/
theorem slotsAt_planOps {mem : ℕ → UInt8} {ws : List (Partition × ℕ)}
    (h : ∀ w ∈ ws, w.2 < 2^32) :
    slotsAt (replay (planOps mem ws) mem) = ws.foldl Slots.write (slotsAt mem) := by
  induction ws generalizing mem with
  | nil => rfl
  | cons w ws ih =>
    rw [planOps, replay_append, ih fun v hv => h v (List.mem_cons_of_mem _ hv),
      slotsAt_write mem w.1 (h w List.mem_cons_self)]
    rfl

/-- The slots after a prefix of the operations of a list of slot writes are the ones that the list
visits. -/
theorem forall_take_planOps {P : Slots → Prop} {mem : ℕ → UInt8} {ws : List (Partition × ℕ)}
    (h : ∀ w ∈ ws, w.2 < 2^32) :
    (∀ k, P (slotsAt (replay ((planOps mem ws).take k) mem))) ↔
      ∀ s ∈ (slotsAt mem).visited ws, P s := by
  induction ws generalizing mem with
  | nil => simp [planOps, Slots.visited]
  | cons w ws ih =>
    have hw := slotsAt_write mem w.1 (h w List.mem_cons_self)
    have herase := slotsAt_erase mem w.1
    rw [planOps, Slots.visited]
    set ops := slotOps mem w.1 (buildOtadataEntry w.2) with hops
    rw [← hw, List.forall_mem_cons, List.forall_mem_cons,
      ← ih fun v hv => h v (List.mem_cons_of_mem _ hv), ← herase]
    have hlen : ops.length = 3 := rfl
    constructor
    · intro hall
      refine ⟨hall 0, hall 2, fun k => ?_⟩
      have := hall (3 + k)
      rwa [← hlen, List.take_length_add_append, replay_append] at this
    · rintro ⟨h0, h2, h3⟩ k
      -- The first three operations are the read, the erase and the write of the first slot.
      match k with
      | 0 => exact h0
      | 1 => exact h0
      | 2 => exact h2
      | k + 3 =>
        rw [Nat.add_comm, ← hlen, List.take_length_add_append, replay_append]
        exact h3 k

section Healthy

variable {d : Device geometry}

/-- On healthy flash an entry is read as it stands. -/
theorem readOtadataEntry_ok (h : d.HealthyOn otadataOffset otadataEnd) (p : Partition) :
    readOtadataEntry p.index d =
      .ok (entryAt d.mem p) (d.after [.read (slotOffset p) otaEntrySize]) := by
  have hb := slotOffset_bounds p
  have hs : 0 < sectorSize := by decide
  have hf := h.fault_eq_none (.read (slotOffset p) otaEntrySize) hb.1
    (by simp only [Op.start]; omega) (by simp [Op.start, Op.stop, otaEntrySize])
  exact mapErr_ok (Device.read_ok (hf _))

/-- `read_otadata_entries` returns both entries. -/
theorem readOtadataEntries_ok (h : d.HealthyOn otadataOffset otadataEnd) :
    readOtadataEntries d =
      .ok (entryAt d.mem .ota0, otadataEntryValid (entryAt d.mem .ota0),
        entryAt d.mem .ota1, otadataEntryValid (entryAt d.mem .ota1)) (d.after entryReads) := by
  have h1 := readOtadataEntry_ok (d := d.after [.read (slotOffset .ota0) otaEntrySize]) h .ota1
  refine (bind_ok (readOtadataEntry_ok h .ota0)).trans ((bind_ok h1).trans ?_)
  rw [Device.after_after]
  rfl

/-- The sequence number that the code uses for an entry is its slot's. -/
theorem slotsAt_seq (mem : ℕ → UInt8) (p : Partition) :
    (if otadataEntryValid (entryAt mem p) then seqFromEntry (entryAt mem p) else 0) =
      (slotsAt mem).seq p := by
  unfold Slots.seq slotsAt entrySlot
  split <;> rfl

/-- An entry is valid exactly when its slot holds a number. -/
theorem slotsAt_isSome (mem : ℕ → UInt8) (p : Partition) :
    (slotsAt mem p).isSome = otadataEntryValid (entryAt mem p) := by
  unfold slotsAt entrySlot
  split <;> simp_all

/-- `write_otadata_slot` rewrites the slot's sector. -/
theorem writeOtadataSlot_ok (h : d.HealthyOn otadataOffset otadataEnd) (p : Partition)
    {entry : List UInt8} (hlen : entry.length = otaEntrySize) :
    writeOtadataSlot p.index entry d = .ok () (d.after (slotOps d.mem p entry)) := by
  have hb := slotOffset_bounds p
  have hs : 0 < sectorSize := by decide
  have hsector : (entry ++ (bytesAt d.mem (slotOffset p) sectorSize).drop otaEntrySize).length =
      sectorSize := by
    simp only [List.length_append, hlen, List.length_drop, bytesAt_length]
    decide
  have hfault : ∀ op : Op, op.start = slotOffset p → op.stop = slotOffset p + sectorSize →
      ∀ n, d.fault n op = none := fun op h1 h2 n =>
    h.fault_eq_none _ (by omega) (by omega) (by omega) n
  have hr := Device.read_ok (hfault (.read (slotOffset p) sectorSize) rfl rfl d.issued.length)
  set d1 := d.after [.read (slotOffset p) sectorSize] with hd1
  have he : Device.issue (.erase (slotOffset p) (slotOffset p + sectorSize)) d1 = _ :=
    Device.issue_ok (by cases p <;> decide) (hfault _ rfl rfl _)
  set d2 := d1.after [.erase (slotOffset p) (slotOffset p + sectorSize)] with hd2
  have hw : Device.issue (.write (slotOffset p)
      (entry ++ (bytesAt d.mem (slotOffset p) sectorSize).drop otaEntrySize)) d2 = _ :=
    Device.issue_ok ⟨by cases p <;> decide, by rw [hsector]; decide⟩
      (hfault _ rfl (by rw [Op.stop, hsector]) _)
  refine (bind_ok (mapErr_ok hr)).trans ((bind_ok (mapErr_ok he)).trans ((mapErr_ok hw).trans ?_))
  rw [hd2, hd1, Device.after_after, Device.after_after]
  rfl

/-- `set_boot_partition` performs the plan of the slots. -/
theorem setBootPartition_ok (h : d.HealthyOn otadataOffset otadataEnd) {p : Partition}
    {ws : List (Partition × ℕ)} (hplan : (slotsAt d.mem).plan p = some ws) :
    setBootPartition p d = .ok () (d.after (entryReads ++ planOps d.mem ws)) := by
  have hs := slotsAt_inRange d.mem
  obtain ⟨n, hn, hws⟩ := Slots.plan_some hs hplan
  obtain ⟨hlt, -, -, hmod⟩ := nextSeq_some p.index_lt hs.maxSeq_lt hn
  have hseed := seedSeq_eq p.index_lt hlt hmod
  have hbelow : sub32 n 1 = some (n - 1) := sub32_of_le (by omega)
  have hw1 := writeOtadataSlot_ok (d := d.after entryReads) h p (buildOtadataEntry_length n)
  rw [Device.after_mem, replay_entryReads, Device.after_after] at hw1
  have hvalid : (if 1 - p.index = 0 then otadataEntryValid (entryAt d.mem .ota0)
      else otadataEntryValid (entryAt d.mem .ota1)) = (slotsAt d.mem p.other).isSome := by
    rw [slotsAt_isSome]
    cases p <;> rfl
  unfold setBootPartition
  refine (bind_ok (readOtadataEntries_ok h)).trans ?_
  simp only [slotsAt_seq]
  rw [show max ((slotsAt d.mem).seq .ota0) ((slotsAt d.mem).seq .ota1) = (slotsAt d.mem).maxSeq
    from rfl, hn, orPanic_some, pure_bind, hbelow, orPanic_some, pure_bind, hmod,
    decide_eq_true rfl, debugAssert_true, pure_bind]
  refine (bind_ok hw1).trans ?_
  rw [hvalid]
  by_cases hother : (slotsAt d.mem p.other).isSome
  · rw [if_pos hother] at hws
    rw [if_neg (by simp [hother]), pure_apply, hws]
    simp [planOps]
  · rw [if_neg hother] at hws
    rw [if_pos (by simp [hother]), hseed, orPanic_some, pure_bind, ← Partition.index_other]
    refine (writeOtadataSlot_ok (d := d.after _) h p.other (buildOtadataEntry_length _)).trans ?_
    rw [Device.after_after, hws]
    simp [planOps, replay_append]

/-- `set_boot_partition` panics before it changes anything when the plan overflows. -/
theorem setBootPartition_panic (h : d.HealthyOn otadataOffset otadataEnd) {p : Partition}
    (hplan : (slotsAt d.mem).plan p = none) :
    setBootPartition p d = .error .panic (d.after entryReads) := by
  have hs := slotsAt_inRange d.mem
  have hn : nextSeq p.index (slotsAt d.mem).maxSeq = none := by
    rw [nextSeq_eq_none p.index_lt hs.maxSeq_lt]
    obtain ⟨rfl, hmax⟩ := (Slots.plan_eq_none hs).1 hplan
    exact ⟨rfl, hmax⟩
  unfold setBootPartition
  refine (bind_ok (readOtadataEntries_ok h)).trans ?_
  simp only [slotsAt_seq]
  rw [show max ((slotsAt d.mem).seq .ota0) ((slotsAt d.mem).seq .ota1) = (slotsAt d.mem).maxSeq
    from rfl, hn]
  rfl

/-- `detect_running_partition` returns the partition that the slots select. -/
theorem detectRunningPartition_ok (h : d.HealthyOn otadataOffset otadataEnd) :
    detectRunningPartition d = .ok (slotsAt d.mem).selected (d.after entryReads) := by
  have hmax : (if (slotsAt d.mem).seq .ota1 > (slotsAt d.mem).seq .ota0 then
      (slotsAt d.mem).seq .ota1 else (slotsAt d.mem).seq .ota0) = (slotsAt d.mem).maxSeq := by
    unfold Slots.maxSeq
    split <;> omega
  have hseqs : readOtadataSequences d =
      .ok ((slotsAt d.mem).seq .ota0, (slotsAt d.mem).seq .ota1) (d.after entryReads) := by
    refine (bind_ok (readOtadataEntries_ok h)).trans ?_
    simp only [slotsAt_seq, pure_apply]
  unfold detectRunningPartition
  refine (bind_ok hseqs).trans ?_
  simp only [hmax, Slots.selected, bootOf, partitionOf]
  split <;> rfl

end Healthy

end Launa.EspOta
