import Launa.EspOta.Otadata

/-!
# Switching the boot partition

What `set_boot_partition` leaves in the slots, and what a power loss in the middle of it does. Of
the slots after the call, the requested partition's holds the new number and the other one its old
number or the seed (`switch_self`, `switch_other`), so the selection that is read back is decided by
comparing the two. On the way to it the requested partition's slot is erased before it is written,
so the selection in between is the other slot's.
-/

namespace Launa.EspOta

open Stateful Checked Nor

namespace Slots

variable {s : Slots} {p : Partition} {ws : List (Partition × ℕ)}

/-- The requested partition's slot after its plan holds the new number. -/
theorem switch_self {n : ℕ} (hs : s.InRange) (h : s.plan p = some ws)
    (hn : nextSeq p.index s.maxSeq = some n) : ws.foldl write s p = stored n := by
  obtain ⟨n', hn', rfl⟩ := plan_some hs h
  obtain rfl : n = n' := by rw [hn] at hn'; exact Option.some.inj hn'
  have hfirst := s.write_self (p, n)
  split
  · exact hfirst
  · have hsecond := (s.write (p, n)).write_other (p.other, if s.maxSeq = 0 then p.other.index + 1
      else n - 1)
    rw [Partition.other_other] at hsecond
    exact hsecond.trans hfirst

/-- The other slot after the plan holds its old number, or the seed when it had none. -/
theorem switch_other {n : ℕ} (hs : s.InRange) (h : s.plan p = some ws)
    (hn : nextSeq p.index s.maxSeq = some n) :
    ws.foldl write s p.other =
      if (s p.other).isSome then s p.other
      else some (if s.maxSeq = 0 then p.other.index + 1 else n - 1) := by
  obtain ⟨n', hn', rfl⟩ := plan_some hs h
  obtain rfl : n = n' := by rw [hn] at hn'; exact Option.some.inj hn'
  obtain ⟨-, -, hlt, -⟩ := nextSeq_some p.index_lt hs.maxSeq_lt hn
  split
  · exact s.write_other (p, n)
  · have hsecond := (s.write (p, n)).write_self (p.other, if s.maxSeq = 0 then p.other.index + 1
      else n - 1)
    refine hsecond.trans (stored_of_lt ?_)
    have ho := p.other.index_lt
    split <;> omega

/-- On slots without a number above 0 whose second one is empty, the plan of `Ota0` numbers it 1,
and seeds the other one with 2. -/
theorem switch_seeded (hs : s.InRange) (h : s.plan .ota0 = some ws) (h0 : s.maxSeq = 0)
    (hnone : s .ota1 = none) :
    ws.foldl write s .ota0 = some 1 ∧ ws.foldl write s .ota1 = some 2 := by
  have hn : nextSeq Partition.ota0.index s.maxSeq = some 1 := by
    rw [h0]
    rfl
  have hother := switch_other hs h hn
  rw [show Partition.ota0.other = .ota1 from rfl, hnone, h0] at hother
  exact ⟨switch_self hs h hn, hother⟩

/-- The plan of a partition whose new number is below the erased one selects it, except that of
`Ota0` on slots without a number above 0 whose second one is empty. -/
theorem switch_selected {n : ℕ} (hs : s.InRange) (h : s.plan p = some ws)
    (hn : nextSeq p.index s.maxSeq = some n) (hlt : n < 0xFFFFFFFF) :
    (ws.foldl write s).selected = p ↔ ¬ (p = .ota0 ∧ s.maxSeq = 0 ∧ s .ota1 = none) := by
  have hother := switch_other hs h hn
  obtain ⟨hmax, hle, -, hmod⟩ := nextSeq_some p.index_lt hs.maxSeq_lt hn
  have hseqSelf : (ws.foldl write s).seq p = n := by
    rw [seq, switch_self hs h hn, stored_of_lt hlt]
    rfl
  by_cases hbad : p = .ota0 ∧ s.maxSeq = 0 ∧ s .ota1 = none
  · -- The new number is 1, and the seed of the other slot is 2.
    obtain ⟨rfl, h0, hnone⟩ := hbad
    obtain ⟨hfirst, hsecond⟩ := switch_seeded hs h h0 hnone
    simp only [h0, hnone, and_self, not_true_eq_false, iff_false]
    rw [selected, maxSeq, seq, seq, hfirst, hsecond]
    decide
  · -- The other slot's number is at most the new one.
    simp only [hbad, not_false_eq_true, iff_true]
    have hseqOther : (ws.foldl write s).seq p.other ≤ n := by
      rw [seq, hother]
      split
      · exact Nat.le_of_lt (Nat.lt_of_le_of_lt seq_le_maxSeq hmax)
      · rename_i hnone
        rw [Option.not_isSome_iff_eq_none] at hnone
        dsimp only [Option.getD_some]
        split
        · rename_i h0
          cases p with
          | ota0 => exact absurd ⟨rfl, h0, hnone⟩ hbad
          | ota1 =>
            rw [h0] at hn
            obtain rfl : 2 = n := Option.some.inj hn
            decide
        · omega
    rw [selected, maxSeq_eq (p := p), hseqSelf, Nat.max_eq_left hseqOther,
      bootOf_of_pos (by omega), hmod]

/-- The slots hold numbers with room for a few more above them. -/
def Headroom (s : Slots) : Prop := ∀ q n, s q = some n → n < 0xFFFFFFFF - 4

/-- With headroom no slot is near the last number. -/
theorem Headroom.seq_lt (h : s.Headroom) (q : Partition) : s.seq q < 0xFFFFFFFF - 4 := by
  unfold seq
  cases hq : s q with
  | none => simp
  | some n => simpa using h q n hq

/-- With headroom the highest number is not near the last one. -/
theorem Headroom.maxSeq_lt (h : s.Headroom) : s.maxSeq < 0xFFFFFFFF - 4 :=
  Nat.max_lt.2 ⟨h.seq_lt _, h.seq_lt _⟩

/-- With headroom there is a plan, and its new number is below the erased one. -/
theorem Headroom.plan (h : s.Headroom) (hs : s.InRange) (p : Partition) :
    ∃ ws n, s.plan p = some ws ∧ nextSeq p.index s.maxSeq = some n ∧ n < 0xFFFFFFFF := by
  have hmax := h.maxSeq_lt
  cases hn : nextSeq p.index s.maxSeq with
  | none =>
    obtain ⟨-, h'⟩ := (nextSeq_eq_none p.index_lt hs.maxSeq_lt).1 hn
    omega
  | some n =>
    obtain ⟨-, hle, -, -⟩ := nextSeq_some p.index_lt hs.maxSeq_lt hn
    exact ⟨_, n, plan_eq hs hn, rfl, by omega⟩

/-- Without one slot, the selection is the other one's. -/
theorem erase_selected : (s.erase p).selected = bootOf (s.seq p.other) := by
  have hself : (s.erase p).seq p = 0 := by rw [seq, erase_self]; rfl
  have hother : (s.erase p).seq p.other = s.seq p.other := by rw [seq, erase_other, seq]
  rw [selected, maxSeq_eq (p := p), hself, hother, Nat.max_eq_right (Nat.zero_le _)]

end Slots

/-! ## The selection read back -/

/-- The contents of flash that was never written. -/
def blankFlash : ℕ → UInt8 := fun _ => 0xFF

/-- Blank flash holds no sequence number. -/
theorem slotsAt_blankFlash : slotsAt blankFlash = fun _ => none := by
  funext p
  exact entrySlot_of_erased (by cases p <;> decide)

/-- A chip that was never used. -/
def blankDevice : Device geometry := Device.healthy geometry blankFlash

/-- The blank device has no faults. -/
theorem blankDevice_healthyOn (lo hi : ℕ) : blankDevice.HealthyOn lo hi :=
  (Device.healthy_healthy _).healthyOn lo hi

section ReadBack

variable {d : Device geometry}

/-- After `set_boot_partition(p)` the selection that `detect_running_partition` reads back is `p`,
except when `p` is `Ota0`, no slot holds a number above 0, and slot 1 is not valid. -/
theorem setBootPartition_selects (h : d.HealthyOn otadataOffset otadataEnd)
    (hseq : (slotsAt d.mem).Headroom) (p : Partition) :
    ∃ d' d'' q, setBootPartition p d = .ok () d' ∧ detectRunningPartition d' = .ok q d'' ∧
      (q = p ↔
        ¬ (p = .ota0 ∧ (slotsAt d.mem).maxSeq = 0 ∧ slotsAt d.mem .ota1 = none)) := by
  have hs := slotsAt_inRange d.mem
  obtain ⟨ws, n, hplan, hn, hlt⟩ := hseq.plan hs p
  have hset := setBootPartition_ok h hplan
  have hdetect := detectRunningPartition_ok (d := d.after (entryReads ++ planOps d.mem ws)) h
  refine ⟨_, _, _, hset, hdetect, ?_⟩
  rw [Device.after_mem, replay_append, replay_entryReads, slotsAt_planOps (Slots.plan_lt hs hplan)]
  exact Slots.switch_selected hs hplan hn hlt

/-- On a chip that was never used, requesting `Ota1` selects it. -/
theorem setBootPartition_selects_blank :
    ∃ d' d'' q, setBootPartition .ota1 blankDevice = .ok () d' ∧
      detectRunningPartition d' = .ok q d'' ∧
      (q = .ota1 ↔ ¬ (Partition.ota1 = .ota0 ∧ (slotsAt blankDevice.mem).maxSeq = 0 ∧
        slotsAt blankDevice.mem .ota1 = none)) :=
  setBootPartition_selects (blankDevice_healthyOn _ _)
    (by
      intro q n hq
      rw [show blankDevice.mem = blankFlash from rfl, slotsAt_blankFlash] at hq
      cases hq) .ota1

/-- On a chip that was never used, requesting `Ota0` selects `Ota1`: slot 0 gets the number 1, and
slot 1 is seeded with 2. -/
theorem setBootPartition_blank_selects_ota1 :
    blankDevice.Healthy ∧ (∀ q, slotsAt blankDevice.mem q = none) ∧
      ∃ d' d'', setBootPartition .ota0 blankDevice = .ok () d' ∧
        detectRunningPartition d' = .ok .ota1 d'' := by
  have hblank : slotsAt blankDevice.mem = fun _ => none := slotsAt_blankFlash
  have hplan : (slotsAt blankDevice.mem).plan .ota0 = some [(.ota0, 1), (.ota1, 2)] := by
    rw [hblank]; rfl
  have hset := setBootPartition_ok (blankDevice_healthyOn _ _) hplan
  have hdetect := detectRunningPartition_ok
    (d := blankDevice.after (entryReads ++ planOps blankDevice.mem [(.ota0, 1), (.ota1, 2)]))
    (blankDevice_healthyOn _ _)
  rw [Device.after_mem, replay_append, replay_entryReads, slotsAt_planOps (by decide), hblank]
    at hdetect
  exact ⟨Device.healthy_healthy _, fun q => by rw [hblank], _, _, hset, hdetect⟩

end ReadBack

/-! ## Power loss -/

section PowerLoss

variable {d : Device geometry}

/-- The operations that `set_boot_partition` issues. -/
def switchOps (p : Partition) (d : Device geometry) : List Op :=
  (final (setBootPartition p) d).issued.drop d.issued.length

/-- Some slot is valid, and the selection is the one of `before` or `p`. -/
def Slots.BootsAs (before : Slots) (p : Partition) (s : Slots) : Prop :=
  (∃ q, (s q).isSome) ∧ (s.selected = before.selected ∨ s.selected = p)

/-- A switch that panics has read both entries and written nothing. -/
theorem switchOps_of_panic (h : d.HealthyOn otadataOffset otadataEnd) {p : Partition}
    (hplan : (slotsAt d.mem).plan p = none) : switchOps p d = entryReads := by
  simp [switchOps, final_error (setBootPartition_panic h hplan)]

/-- A switch reads both entries and then carries out its plan. -/
theorem switchOps_of_plan (h : d.HealthyOn otadataOffset otadataEnd) {p : Partition}
    {ws : List (Partition × ℕ)} (hplan : (slotsAt d.mem).plan p = some ws) :
    switchOps p d = entryReads ++ planOps d.mem ws := by
  simp [switchOps, final_ok (setBootPartition_ok h hplan)]

/-- The two reads that come first change nothing. -/
theorem forall_take_entryReads {P : (ℕ → UInt8) → Prop} (mem : ℕ → UInt8) (ops : List Op) :
    (∀ k, P (replay ((entryReads ++ ops).take k) mem)) ↔ ∀ k, P (replay (ops.take k) mem) := by
  constructor
  · intro h k
    exact h (k + 2)
  · intro h k
    match k with
    | 0 => exact h 0
    | 1 => exact h 0
    | k + 2 => exact h k

/-- The slots at the points of a plan all boot as before or `p` exactly when the other slot is
valid and would do so alone. -/
theorem Slots.forall_visited {s : Slots} {p : Partition} {ws : List (Partition × ℕ)}
    (hs : s.InRange) (hvalid : ∃ q, (s q).isSome) (h : s.plan p = some ws) :
    (∀ t ∈ s.visited ws, s.BootsAs p t) ↔
      ∃ m, s p.other = some m ∧ (bootOf m = s.selected ∨ bootOf m = p) := by
  obtain ⟨n, hn, rfl⟩ := plan_some hs h
  cases ho : s p.other with
  | none =>
    -- No slot is valid once the sector of the only valid one is erased.
    simp only [reduceCtorEq, false_and, exists_false, iff_false]
    intro hall
    obtain ⟨⟨q, hq⟩, -⟩ := hall (s.erase p) (by simp [visited])
    rcases p.eq_or_eq_other q with rfl | rfl
    · simp at hq
    · simp [ho] at hq
  | some m =>
    have hseq : s.seq p.other = m := by rw [seq, ho]; rfl
    have herase : s.BootsAs p (s.erase p) ↔ bootOf m = s.selected ∨ bootOf m = p := by
      have hother : ∃ q, (s.erase p q).isSome := ⟨p.other, by simp [ho]⟩
      rw [BootsAs, erase_selected, hseq]
      exact and_iff_right hother
    have hwrite : s.BootsAs p (s.erase p) → s.BootsAs p (s.write (p, n)) := by
      intro he
      by_cases hlt : n < 0xFFFFFFFF
      · have hplan := plan_eq hs hn
        rw [if_pos (by simp [ho])] at hplan
        have hsel := (switch_selected hs hplan hn hlt).2 ?_
        · refine ⟨⟨p, ?_⟩, .inr hsel⟩
          rw [s.write_self (p, n), stored_of_lt hlt]
          rfl
        · rintro ⟨rfl, -, hnone⟩
          rw [show Partition.ota0.other = .ota1 from rfl, hnone] at ho
          cases ho
      · -- The erased number: writing it leaves the slot as erasing it did.
        obtain ⟨-, -, hn32, -⟩ := nextSeq_some p.index_lt hs.maxSeq_lt hn
        have hstored : stored n = none := if_pos (by omega)
        rwa [show s.write (p, n) = s.erase p by rw [write, erase, hstored]]
    simp only [Option.isSome_some, if_true, visited, List.forall_mem_cons, List.not_mem_nil,
      false_implies, implies_true, and_true, Option.some.injEq, exists_eq_left']
    rw [← herase]
    exact ⟨fun hall => hall.2.1, fun he => ⟨⟨hvalid, .inl rfl⟩, he, hwrite he⟩⟩

/-- Cutting `set_boot_partition(p)` after any prefix of its operations leaves a valid slot and the
selection from before or `p` exactly when it panics before its first erase, or the other slot is
valid and alone selects the partition from before or `p`. -/
theorem setBootPartition_powerLoss (h : d.HealthyOn otadataOffset otadataEnd)
    (hvalid : ∃ q, (slotsAt d.mem q).isSome) (p : Partition) :
    (∀ k, (slotsAt d.mem).BootsAs p (slotsAt (replay ((switchOps p d).take k) d.mem))) ↔
      (p = .ota1 ∧ (slotsAt d.mem).maxSeq = 0xFFFFFFFE) ∨
        ∃ m, slotsAt d.mem p.other = some m ∧
          (bootOf m = (slotsAt d.mem).selected ∨ bootOf m = p) := by
  have hs := slotsAt_inRange d.mem
  rw [← Slots.plan_eq_none hs]
  cases hplan : (slotsAt d.mem).plan p with
  | none =>
    rw [switchOps_of_panic h hplan]
    simp only [true_or, iff_true]
    have hreads := forall_take_entryReads (P := fun mem =>
      (slotsAt d.mem).BootsAs p (slotsAt mem)) d.mem []
    rw [List.append_nil] at hreads
    refine hreads.2 fun k => ?_
    rw [List.take_nil, replay_nil]
    exact ⟨hvalid, .inl rfl⟩
  | some ws =>
    rw [switchOps_of_plan h hplan,
      forall_take_entryReads (P := fun mem => (slotsAt d.mem).BootsAs p (slotsAt mem)) d.mem,
      forall_take_planOps (Slots.plan_lt hs hplan), Slots.forall_visited hs hvalid hplan]
    simp

/-- A chip whose slot 0 holds the number 1, and whose slot 1 is blank. -/
def firstBootDevice : Device geometry :=
  Device.healthy geometry (replay (planOps blankFlash [(.ota0, 1)]) blankFlash)

/-- The device of the first boot has no faults. -/
theorem firstBootDevice_healthyOn (lo hi : ℕ) : firstBootDevice.HealthyOn lo hi :=
  (Device.healthy_healthy _).healthyOn lo hi

/-- On the device of the first boot only the first slot is written. -/
theorem slotsAt_firstBootDevice :
    slotsAt firstBootDevice.mem = Slots.write (fun _ => none) (.ota0, 1) := by
  show slotsAt (replay (planOps blankFlash [(.ota0, 1)]) blankFlash) = _
  rw [slotsAt_planOps (by decide), slotsAt_blankFlash]
  rfl

/-- Requesting `Ota1` there can be cut anywhere. -/
theorem setBootPartition_powerLoss_firstBoot :
    (∀ k, (slotsAt firstBootDevice.mem).BootsAs .ota1
      (slotsAt (replay ((switchOps .ota1 firstBootDevice).take k) firstBootDevice.mem))) ↔
      (Partition.ota1 = .ota1 ∧ (slotsAt firstBootDevice.mem).maxSeq = 0xFFFFFFFE) ∨
        ∃ m, slotsAt firstBootDevice.mem Partition.ota1.other = some m ∧
          (bootOf m = (slotsAt firstBootDevice.mem).selected ∨ bootOf m = .ota1) :=
  setBootPartition_powerLoss (firstBootDevice_healthyOn _ _)
    ⟨.ota0, by rw [slotsAt_firstBootDevice]; rfl⟩ .ota1

/-- Requesting `Ota0` there, which selects it already, and losing power after the erase leaves no
valid slot. -/
theorem setBootPartition_powerLoss_firstBoot_ota0 :
    slotsAt firstBootDevice.mem .ota0 = some 1 ∧
      ∃ k, ∀ q, slotsAt (replay ((switchOps .ota0 firstBootDevice).take k)
        firstBootDevice.mem) q = none := by
  have hslots := slotsAt_firstBootDevice
  refine ⟨by rw [hslots]; rfl, 4, ?_⟩
  have hnext : nextSeq Partition.ota0.index (slotsAt firstBootDevice.mem).maxSeq = some 3 := by
    rw [hslots, nextSeq_eq (by decide) (by decide)]
    rfl
  have hempty : ¬ (slotsAt firstBootDevice.mem Partition.ota0.other).isSome := by
    rw [hslots]
    decide
  have hplan := Slots.plan_eq (slotsAt_inRange _) hnext
  rw [if_neg hempty] at hplan
  rw [switchOps_of_plan (firstBootDevice_healthyOn _ _) hplan]
  have herase : ∀ mem ws, replay ((entryReads ++ planOps mem ((.ota0, 3) :: ws)).take 4) mem =
      (Op.erase (slotOffset .ota0) (slotOffset .ota0 + sectorSize)).apply mem := fun _ _ => rfl
  intro q
  rw [herase, slotsAt_erase, hslots]
  cases q <;> rfl

end PowerLoss

end Launa.EspOta
