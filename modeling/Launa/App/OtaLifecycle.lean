import Launa.App.Acceptance
import Launa.EspOta.Confirmation
import Launa.Lib.TextSearch

/-!
# The firmware that a device runs

What becomes of the firmware images over the life of a device on which no flash operation fails:
requests for updates from any URL over any network, resets, and the validation of a boot. A request
ends with a reset, whatever came of it, because the app rolls back also after an attempt that has
not touched the flash. Once otadata holds a number above 0, the boot loader starts the firmware of
the last request whose response was accepted (`run_boots`).

An attempt changes the target partition and otadata only (`download_spec`), as long as a response
that is longer than the partition says so in its header.
-/

namespace Launa.EspOta

open Stateful Checked Nor EspOtaFlash

/-- The partition holds the firmware, and is erased after it. -/
def HoldsImage (mem : ℕ → UInt8) (p : Partition) (firmware : List UInt8) : Prop :=
  ∀ i, i < p.size → mem (p.offset + i) = firmware.getD i 0xFF

/-- The chip differs from `d0` in the partition `t` at most. -/
structure Apart (t : Partition) (d0 d : Device geometry) : Prop where
  fault : d.fault = d0.fault
  outside : ∀ a, a < t.offset ∨ t.stop ≤ a → d.mem a = d0.mem a

variable {t p : Partition} {d0 d : Device geometry}

/-- A device differs from itself nowhere. -/
theorem Apart.refl (t : Partition) (d : Device geometry) : Apart t d d := ⟨rfl, fun _ _ => rfl⟩

/-- A device that differs in a partition only has the same slots. -/
theorem Apart.slotsAt (h : Apart t d0 d) : slotsAt d.mem = EspOta.slotsAt d0.mem :=
  slotsAt_eq_of_otadata fun a _ ha =>
    h.outside a (.inl (Nat.lt_of_lt_of_le ha (otadataEnd_le_offset t)))

/-- A device that differs in a partition only is as healthy. -/
theorem Apart.healthy (h : Apart t d0 d) (hd : d0.Healthy) : d.Healthy := by
  intro n op
  rw [h.fault]
  exact hd n op

/-- The other partition is not touched. -/
theorem Apart.holdsImage_iff (h : Apart t d0 d) {firmware : List UInt8} :
    HoldsImage d.mem t.other firmware ↔ HoldsImage d0.mem t.other firmware := by
  have hsep : t.other.offset + t.other.size ≤ t.offset ∨ t.stop ≤ t.other.offset := by
    cases t <;> decide
  refine forall₂_congr fun i hi => ?_
  rw [h.outside _ (by omega)]

/-- With a number above 0 and room above the highest one, every partition has a plan: it is selected
afterwards, and the highest number has grown by 2 at most. -/
theorem Slots.exists_plan {s : Slots} (hs : s.InRange) (hpos : 0 < s.maxSeq)
    (hroom : s.maxSeq + 2 < 0xFFFFFFFF) (p : Partition) :
    ∃ ws, s.plan p = some ws ∧ (ws.foldl write s).selected = p ∧
      0 < (ws.foldl write s).maxSeq ∧ (ws.foldl write s).maxSeq ≤ s.maxSeq + 2 := by
  cases hn : nextSeq p.index s.maxSeq with
  | none =>
    obtain ⟨-, h⟩ := (nextSeq_eq_none p.index_lt hs.maxSeq_lt).1 hn
    omega
  | some n =>
    obtain ⟨hlt, hle, -, -⟩ := nextSeq_some p.index_lt hs.maxSeq_lt hn
    obtain ⟨ws, hplan⟩ : ∃ ws, s.plan p = some ws := ⟨_, plan_eq hs hn⟩
    have hself := (switch_self hs hplan hn).trans (stored_of_lt (by omega))
    have hother := switch_other hs hplan hn
    have hseq : (ws.foldl write s).seq p = n := by
      rw [seq, hself]
      rfl
    have hseqOther : (ws.foldl write s).seq p.other ≤ n := by
      rw [seq, hother, if_neg (show ¬ s.maxSeq = 0 by omega)]
      split
      · exact Nat.le_of_lt (Nat.lt_of_le_of_lt seq_le_maxSeq hlt)
      · exact Nat.sub_le n 1
    have hmax : (ws.foldl write s).maxSeq = n := by
      rw [maxSeq_eq (p := p), hseq, Nat.max_eq_left hseqOther]
    refine ⟨ws, hplan, (switch_selected hs hplan hn (by omega)).2 fun h => ?_, ?_, ?_⟩
    · omega
    · omega
    · omega

/-- The app may run a firmware of which the partition that otadata selects holds the image. -/
structure Selects (firmware : List UInt8) (d : Device geometry) : Prop where
  healthy : d.Healthy
  pos : 0 < (slotsAt d.mem).maxSeq
  image : HoldsImage d.mem (slotsAt d.mem).selected firmware

/-- The boot loader starts the selected partition. -/
theorem Selects.bootChoice {firmware : List UInt8} (h : Selects firmware d) :
    (slotsAt d.mem).bootChoice = some (slotsAt d.mem).selected :=
  Slots.bootChoice_of_pos h.pos

/-- A switch of the boot partition to one that holds the image of a firmware. -/
theorem setBootPartition_selects_image (hd : d.Healthy) (hpos : 0 < (slotsAt d.mem).maxSeq)
    (hroom : (slotsAt d.mem).maxSeq + 2 < 0xFFFFFFFF) {firmware : List UInt8}
    (himage : HoldsImage d.mem p firmware) :
    ∃ d', setBootPartition p d = .ok () d' ∧ Selects firmware d' ∧ (slotsAt d'.mem).selected = p ∧
      (slotsAt d'.mem).maxSeq ≤ (slotsAt d.mem).maxSeq + 2 := by
  have hs := slotsAt_inRange d.mem
  obtain ⟨ws, hplan, hselected, hpos', hmax⟩ := Slots.exists_plan hs hpos hroom p
  have hset := setBootPartition_ok (hd.healthyOn otadataOffset otadataEnd) hplan
  have hslots : slotsAt (d.after (entryReads ++ planOps d.mem ws)).mem =
      ws.foldl Slots.write (slotsAt d.mem) := by
    rw [Device.after_mem, replay_append, replay_entryReads,
      slotsAt_planOps (Slots.plan_lt hs hplan)]
  have hkept := (keeps_setBootPartition (keeps_outside_otadata d.mem) p).ok (fun _ _ => rfl) hset
  refine ⟨_, hset, ⟨hd, by rwa [hslots], fun i hi => ?_⟩, by rwa [hslots], by rwa [hslots]⟩
  rw [hslots, hselected] at hi ⊢
  rw [hkept _ (Nat.le_trans (otadataEnd_le_offset p) (Nat.le_add_right _ _))]
  exact himage i hi

/-- An update that holds some bytes has changed its target at most. -/
theorem EspOtaFlash.Holds.apart {bytes : List UInt8} {o : EspOtaFlash (Device geometry)}
    (h : Holds t d0 bytes o) : Apart t d0 o.flash :=
  ⟨h.fault, h.outside⟩

/-- A chunk of a firmware that fits the partition is received, or refused for its first byte. -/
theorem EspOtaFlash.Holds.write_or_refused {bytes chunk : List UInt8}
    {o : EspOtaFlash (Device geometry)} (h : Holds t d0 bytes o) (hd : d0.Healthy)
    (hfit : (bytes ++ chunk).length ≤ t.size) :
    (∃ o', EspOtaFlash.write chunk o = .ok () o' ∧ Holds t d0 (bytes ++ chunk) o' ∧
      o'.running = o.running) ∨
    EspOtaFlash.write chunk o = .error (.error .invalidImageHeader) o := by
  by_cases hne : chunk = []
  · subst hne
    exact .inl ⟨o, h.write_nil, by rwa [List.append_nil], rfl⟩
  have hsize := t.size_lt
  have hb := flushed_bounds bytes.length
  have hb' := flushed_bounds (bytes ++ chunk).length
  have hlen : (bytes ++ chunk).length = bytes.length + chunk.length := List.length_append
  by_cases hmagic : o.firstChunkValidated = true ∨ chunk.head? = some 0xE9
  · have hpass : o.Passes chunk := by
      refine ⟨h.inProgress, hne, hmagic, ?_⟩
      rw [h.offset, h.target_eq, Nat.mod_eq_of_lt (by omega)]
      omega
    obtain ⟨o', hwrite, hholds⟩ := h.write (hd.healthyOn _ _) hpass (by omega) (by omega)
    refine .inl ⟨o', hwrite, hholds, ?_⟩
    rcases write_cases o chunk with ⟨-, b, hf⟩ | ⟨-, w, buf, len, n, hf, -⟩ <;>
      rw [final_ok hwrite] at hf <;> rw [hf]
  · obtain ⟨hvalidated, hhead⟩ := not_or.1 hmagic
    right
    unfold EspOtaFlash.write checkMagic
    rw [bind_ok (get_apply o), if_neg (by simp [h.inProgress]), if_neg (by simpa using hne)]
    refine bind_error ((bind_ok (get_apply o)).trans ?_)
    rw [if_neg hvalidated, if_pos hhead, throw_apply]

end Launa.EspOta

namespace Launa.App

open Stateful Checked Nor Ota EspOta EspOtaFlash

section Attempt

variable {t : Partition} {d0 : Device geometry} {bytes : List UInt8}
  {o : EspOtaFlash (Device geometry)} {reads : List (Option Segment)}

/-- What is left of an update that was stopped: only the target partition may have changed. -/
structure Stopped (t : Partition) (d0 : Device geometry) (r : Partition)
    (o : EspOtaFlash (Device geometry)) : Prop where
  apart : Apart t d0 o.flash
  running_eq : o.running = r

/-- The body of a response that fits is received to its end, or the update is stopped. -/
theorem writeBody_spec (h : Holds t d0 bytes o) (hd : d0.Healthy)
    (hfit : (bytes ++ received reads).length ≤ t.size) :
    ∃ done o', writeBody reads o = .ok done o' ∧ Stopped t d0 o.running o' ∧
      (done = true → Holds t d0 (bytes ++ received reads) o') := by
  induction reads generalizing bytes o with
  | nil =>
    refine ⟨true, o, rfl, ⟨h.apart, rfl⟩, fun _ => ?_⟩
    rwa [received, List.append_nil]
  | cons read reads ih =>
    cases read with
    | none => exact ⟨false, o, rfl, ⟨h.apart, rfl⟩, fun h => absurd h Bool.false_ne_true⟩
    | some seg =>
      rw [received] at hfit
      rw [writeBody, received]
      by_cases hempty : seg.val.isEmpty
      · rw [if_pos hempty, if_pos hempty]
        exact ⟨true, o, rfl, ⟨h.apart, rfl⟩, fun _ => by rwa [List.append_nil]⟩
      rw [if_neg hempty] at hfit
      rw [if_neg hempty, if_neg hempty]
      rw [← List.append_assoc] at hfit ⊢
      have hchunk : (bytes ++ seg.val).length ≤ t.size :=
        Nat.le_trans (by rw [@List.length_append _ (bytes ++ seg.val)]; omega) hfit
      rcases h.write_or_refused hd hchunk with ⟨o1, hwrite, h1, hrun⟩ | hrefused
      · obtain ⟨done, o', hrest, hstop, hdone⟩ := ih h1 hfit
        refine ⟨done, o', (bind_ok (attempt_ok hwrite)).trans hrest, ?_, hdone⟩
        rwa [hrun] at hstop
      · have hnone := attempt_eq_none.2 ⟨_, hrefused⟩
        exact ⟨false, o, (bind_ok hnone).trans rfl, ⟨h.apart, rfl⟩,
          fun h => absurd h Bool.false_ne_true⟩

/-- The same for what came with the headers and the rest. -/
theorem writeResponse_spec {body : List UInt8} (h : Holds t d0 [] o) (hd : d0.Healthy)
    (hfit : (body ++ received reads).length ≤ t.size) :
    ∃ done o', writeResponse body reads o = .ok done o' ∧ Stopped t d0 o.running o' ∧
      (done = true → Holds t d0 (body ++ received reads) o') := by
  unfold writeResponse
  by_cases hempty : body.isEmpty
  · rw [if_pos hempty]
    rw [List.isEmpty_iff.1 hempty] at hfit ⊢
    exact writeBody_spec h hd hfit
  rw [if_neg hempty]
  have hchunk : ([] ++ body).length ≤ t.size := by
    rw [List.nil_append]
    rw [List.length_append] at hfit
    omega
  rcases h.write_or_refused hd hchunk with ⟨o1, hwrite, h1, hrun⟩ | hrefused
  · rw [List.nil_append] at h1
    obtain ⟨done, o', hrest, hstop, hdone⟩ := writeBody_spec h1 hd hfit
    refine ⟨done, o', (bind_ok (attempt_ok hwrite)).trans hrest, ?_, hdone⟩
    rwa [hrun] at hstop
  · have hnone := attempt_eq_none.2 ⟨_, hrefused⟩
    exact ⟨false, o, (bind_ok hnone).trans rfl, ⟨h.apart, rfl⟩, nofun⟩

end Attempt

section Request

variable {o : EspOtaFlash (Device geometry)} {url : List Char} {net : Network}

/-- How `downloadBody` ends on a healthy chip. -/
theorem downloadBody_spec (hd : o.flash.Healthy) (hidle : o.inProgress = false)
    {expectedCrc : Option UInt32} {headerBuf : List UInt8} {pos : ℕ}
    {reads : List (Option Segment)}
    (hfit : (parseContentLength headerBuf).any (· > appPartitionSize) = false →
      (headerBuf.drop (pos + 4) ++ received reads).length ≤ o.target.size) :
    (∃ o1, Stopped o.target o.flash o.running o1 ∧
      downloadBody expectedCrc headerBuf pos reads o = (do return some (← otaRollback)) o1) ∨
    ∃ o1, downloadBody expectedCrc headerBuf pos reads o = .ok none o1 ∧
      Holds o.target o.flash (headerBuf.drop (pos + 4) ++ received reads) o1 ∧
      o1.running = o.running := by
  obtain ⟨o1, hbegin, h1, hrun1⟩ := begin_holds (hd.healthyOn _ _) hidle
  have hstop1 : Stopped o.target o.flash o.running o1 := ⟨h1.apart, hrun1⟩
  unfold downloadBody
  rw [bind_ok (attempt_ok hbegin)]
  dsimp only
  by_cases hlength : (parseContentLength headerBuf).any (· > appPartitionSize) = true
  · rw [if_pos hlength]
    exact .inl ⟨o1, hstop1, rfl⟩
  rw [if_neg hlength]
  obtain ⟨done, o2, hwrite, hstop2, hdone⟩ := writeResponse_spec h1 hd
    (hfit (Bool.not_eq_true _ ▸ hlength))
  rw [hrun1] at hstop2
  rw [bind_ok hwrite]
  cases done with
  | false => exact .inl ⟨o2, hstop2, rfl⟩
  | true =>
    rw [if_neg (by decide)]
    -- The check of the sum keeps the state, and its result decides.
    by_cases hcrc : ∀ crc, expectedCrc = some crc → o2.firmwareCrc = crc
    · rw [bind_ok (checkCrc_eq_true.2 ⟨rfl, hcrc⟩)]
      exact .inr ⟨o2, rfl, hdone rfl, hstop2.running_eq⟩
    · push Not at hcrc
      obtain ⟨crc, rfl, hne⟩ := hcrc
      have hverify : verifyHash crc o2 =
          .error (.error (.hashMismatch crc o2.firmwareCrc)) o2 := by
        unfold verifyHash
        rw [bind_ok (get_apply o2), if_pos hne, throw_apply]
      have hnone := attempt_eq_none.2 ⟨_, hverify⟩
      have hcheck : checkCrc (some crc) o2 = .ok false o2 := (bind_ok hnone).trans rfl
      rw [bind_ok hcheck]
      exact .inl ⟨o2, hstop2, rfl⟩

/-- Both partitions have the size of the app partition. -/
theorem partitionSize_eq (p : Partition) : p.size = appPartitionSize := by cases p <;> rfl

/-- A response is not longer than a partition, unless its header says so. -/
def Network.Contained (net : Network) : Prop :=
  ∀ headerBuf pos reads, readHeaders net.reads [] = some (headerBuf, pos, reads) →
    (parseContentLength headerBuf).any (· > appPartitionSize) = false →
    (bodyOf net.response).length ≤ appPartitionSize

/-- How `download` ends on a healthy chip: before anything happened, in a rollback with nothing but
the target changed, or with the body of the response received. -/
theorem download_spec (hd : o.flash.Healthy) (hidle : o.inProgress = false)
    (hfit : net.Contained) (url : List Char) :
    download url net o = .ok (some .failed) o ∨
    (∃ o1, Stopped o.target o.flash o.running o1 ∧
      download url net o = (do return some (← otaRollback)) o1) ∨
    ∃ o1, download url net o = .ok none o1 ∧ Holds o.target o.flash (bodyOf net.response) o1 ∧
      o1.running = o.running := by
  unfold download
  cases parseHttpUrl url with
  | none => exact .inl rfl
  | some parts =>
    dsimp only
    cases net.connects with
    | false => exact .inl rfl
    | true =>
      rw [if_neg (by decide)]
      cases hheaders : readHeaders net.reads [] with
      | none => exact .inl rfl
      | some headers =>
        obtain ⟨headerBuf, pos, reads⟩ := headers
        dsimp only
        cases validateHttpStatus headerBuf with
        | false => exact .inl rfl
        | true =>
          obtain ⟨hend, hresponse⟩ := readHeaders_received hheaders
          have hbody : headerBuf.drop (pos + 4) ++ received reads = bodyOf net.response := by
            rw [show net.response = headerBuf ++ received reads from hresponse.symm,
              (sections_eq hend).2]
          rw [if_neg (by decide), ← hbody]
          refine .inr (downloadBody_spec hd hidle fun hlength => ?_)
          rw [hbody, partitionSize_eq]
          exact hfit _ _ _ hheaders hlength

end Request

/-! ## Requests -/

/-- `firmware_url.contains("?test=1")`: only test the connection. -/
def isTcpTest (url : List Char) : Bool := TextSearch.contains "?test=1".toList url

section Driver

variable {S : Type} [NorFlash S]

/-- `handle_ota_request`, where flash is available: true when it resets. `tcp_test` does not touch
the flash. -/
def handleOtaRequest (url : List Char) (net : Network) : OtaM (EspOtaFlash S) Bool :=
  if isTcpTest url then return false
  else do
    match ← performOtaUpdate url net with
    | .failed =>
      let _ ← attempt EspOtaFlash.rollbackAndReboot
      return true
    -- It has reset already.
    | .rolledBack | .updated => return true

/-- The validation of a boot. -/
def validateBoot : OtaM (EspOtaFlash S) Unit := do
  if ← needsValidation then
    let _ ← attempt markValid

/-- What happens to a device between two moments at which it is idle. -/
inductive OtaEvent where
  | request (url : List Char) (net : Network)
  | validate
  | reset

/-- A panic resets, too. -/
def otaStep (o : EspOtaFlash S) : OtaEvent → EspOtaFlash S
  | .request url net =>
    match handleOtaRequest url net o with
    | .ok false o' => o'
    | .ok true o' => createOta o'.flash
    | .error _ o' => createOta o'.flash
  | .validate =>
    match validateBoot o with
    | .ok _ o' => o'
    | .error _ o' => createOta o'.flash
  | .reset => createOta o.flash

end Driver

/-- The response to a request is accepted: a firmware that `finalize` installs. -/
structure Installs (url : List Char) (net : Network) : Prop where
  update : isTcpTest url = false
  accepted : Accepted url net appPartitionSize
  ne_nil : bodyOf net.response ≠ []

open scoped Classical in
/-- The firmware of the last request that was accepted. -/
noncomputable def lastInstalled (firmware : List UInt8) (events : List OtaEvent) : List UInt8 :=
  events.foldl (fun firmware event =>
    match event with
    | .request url net => if Installs url net then bodyOf net.response else firmware
    | .validate | .reset => firmware) firmware

/-- The response to a request does not overrun a partition. -/
def OtaEvent.Fits : OtaEvent → Prop
  | .request _ net => net.Contained
  | .validate | .reset => True

/-- The device runs a firmware: its updater is idle, and what runs is what otadata selects. -/
structure Runs (firmware : List UInt8) (o : EspOtaFlash (Device geometry)) : Prop where
  selects : Selects firmware o.flash
  running_eq : o.running = (slotsAt o.flash.mem).selected
  target_eq : o.target = o.running.other
  idle : o.inProgress = false

section Step

variable {o : EspOtaFlash (Device geometry)} {url : List Char} {net : Network}
  {firmware : List UInt8}

/-- Creating the updater leaves the flash alone. -/
theorem createOta_mem {d : Device geometry} (hd : d.Healthy) :
    (createOta d).flash.mem = d.mem := by
  rw [createOta_ok (hd.healthyOn _ _)]
  rfl

/-- After a reset. -/
theorem runs_createOta {d : Device geometry} (h : Selects firmware d) :
    Runs firmware (createOta d) := by
  rw [createOta_ok (h.healthy.healthyOn _ _)]
  exact ⟨⟨h.healthy, h.pos, h.image⟩, rfl, rfl, rfl⟩

/-- A rollback of an update that was stopped leaves the firmware that runs. -/
theorem Runs.rollback (h : Runs firmware o) (hroom : (slotsAt o.flash.mem).maxSeq + 2 < 0xFFFFFFFF)
    {o1 : EspOtaFlash (Device geometry)} (h1 : Stopped o.target o.flash o.running o1) :
    ∃ o', rollbackAndReboot o1 = .ok () o' ∧ Selects firmware o'.flash ∧
      (slotsAt o'.flash.mem).maxSeq ≤ (slotsAt o.flash.mem).maxSeq + 2 := by
  have hslots := h1.apart.slotsAt
  have himage : HoldsImage o1.flash.mem o.running firmware := by
    have hother : o.target.other = o.running := by rw [h.target_eq, Partition.other_other]
    have hiff : HoldsImage o1.flash.mem o.target.other firmware ↔
        HoldsImage o.flash.mem o.target.other firmware := h1.apart.holdsImage_iff
    rw [hother] at hiff
    rw [hiff, h.running_eq]
    exact h.selects.image
  obtain ⟨d', hset, hselects, -, hmax⟩ := setBootPartition_selects_image
    (h1.apart.healthy h.selects.healthy) (by rw [hslots]; exact h.selects.pos)
    (by rwa [hslots]) himage
  refine ⟨{ o1 with flash := d' }, ?_, hselects, by rwa [hslots] at hmax⟩
  refine (bind_ok (get_apply o1)).trans (onFlash_ok ?_)
  rw [h1.running_eq]
  exact hset

/-- The firmware that runs after a request. -/
def IsNext (url : List Char) (net : Network) (firmware next : List UInt8) : Prop :=
  (Installs url net → next = bodyOf net.response) ∧ (¬ Installs url net → next = firmware)

/-- An attempt on a healthy chip, with the rollback after one that fails early. -/
theorem performOtaUpdate_spec (h : Runs firmware o)
    (hroom : (slotsAt o.flash.mem).maxSeq + 2 < 0xFFFFFFFF)
    (hfit : net.Contained) (hupdate : isTcpTest url = false) :
    ∃ o' next, handleOtaRequest url net o = .ok true o' ∧ Selects next o'.flash ∧
      (slotsAt o'.flash.mem).maxSeq ≤ (slotsAt o.flash.mem).maxSeq + 2 ∧
      IsNext url net firmware next := by
  have hd := h.selects.healthy
  have hota := hd.healthyOn o.target.offset o.target.stop
  -- `finalize` is reached exactly by what is accepted.
  have haccepted : (∃ o', download url net o = .ok none o') ↔ Accepted url net o.target.size :=
    (download_accepted hota).trans (and_iff_right h.idle)
  rw [partitionSize_eq] at haccepted
  have hrequest : ∀ {outcome : Outcome} {o1 : EspOtaFlash (Device geometry)},
      performOtaUpdate url net o = .ok outcome o1 → outcome ≠ .failed →
        handleOtaRequest url net o = .ok true o1 := by
    intro outcome o1 hperform hne
    unfold handleOtaRequest
    rw [hupdate, if_neg (by decide), bind_ok hperform]
    cases outcome with
    | failed => exact absurd rfl hne
    | rolledBack => rfl
    | updated => rfl
  have hback : ∀ {o1 : EspOtaFlash (Device geometry)}, Stopped o.target o.flash o.running o1 →
      ¬ Installs url net → performOtaUpdate url net o = otaRollback o1 →
      ∃ o' next, handleOtaRequest url net o = .ok true o' ∧ Selects next o'.flash ∧
        (slotsAt o'.flash.mem).maxSeq ≤ (slotsAt o.flash.mem).maxSeq + 2 ∧
        IsNext url net firmware next := by
    intro o1 h1 hnot hperform
    obtain ⟨o', hroll, hselects, hmax⟩ := h.rollback hroom h1
    have hreset : performOtaUpdate url net o = .ok .rolledBack o' := by
      rw [hperform]
      exact bind_ok (attempt_ok hroll)
    exact ⟨o', firmware, hrequest hreset nofun, hselects, hmax, fun hi => absurd hi hnot,
      fun _ => rfl⟩
  have hdownload := download_spec hd h.idle hfit url
  rcases hdownload with hfailed | ⟨o1, h1, hrolled⟩ | ⟨o1, hready, hholds, hrun⟩
  -- Nothing has happened, and the app rolls back.
  · have hnot : ¬ Installs url net := by
      intro hi
      obtain ⟨o', ho'⟩ := haccepted.2 hi.accepted
      rw [hfailed] at ho'
      cases ho'
    obtain ⟨o', hroll, hselects, hmax⟩ := h.rollback hroom ⟨.refl _ _, rfl⟩
    have hperform : performOtaUpdate url net o = .ok .failed o := bind_ok hfailed
    refine ⟨o', firmware, ?_, hselects, hmax, fun hi => absurd hi hnot, fun _ => rfl⟩
    unfold handleOtaRequest
    rw [hupdate, if_neg (by decide), bind_ok hperform]
    exact bind_ok (attempt_ok hroll)
  -- The update was stopped.
  · refine hback h1 (fun hi => ?_) ?_
    · obtain ⟨o', ho'⟩ := haccepted.2 hi.accepted
      rw [hrolled] at ho'
      obtain ⟨out, o2, -, ho'⟩ := bind_eq_ok.1 ho'
      cases ho'
    · obtain ⟨o2, hroll, -, -⟩ := h.rollback hroom h1
      have hrolled' : otaRollback o1 = .ok .rolledBack o2 := bind_ok (attempt_ok hroll)
      rw [hrolled']
      exact bind_ok (hrolled.trans (bind_ok hrolled'))
  · have hacc := haccepted.1 ⟨o1, hready⟩
    by_cases hnil : bodyOf net.response = []
    -- `finalize` refuses an empty image.
    · have hfinal : finalize o1 =
          .error (.error .finalizeFailed) { o1 with inProgress := false } := by
        unfold finalize
        rw [bind_ok (get_apply o1), if_neg (by simp [hholds.inProgress]), if_pos]
        · rfl
        · rw [hholds.written, hnil, List.length_nil]
      have hnone := attempt_eq_none.2 ⟨_, hfinal⟩
      have hstopped : Stopped o.target o.flash o.running { o1 with inProgress := false } :=
        ⟨hholds.apart, hrun⟩
      exact hback hstopped (fun hi => hi.ne_nil hnil) ((bind_ok hready).trans (bind_ok hnone))
    · have hlength : (bodyOf net.response).length ≤ o.target.size := by
        obtain ⟨headerBuf, pos, reads, -, hheaders, -, hlength, -⟩ := hacc.written
        rw [partitionSize_eq]
        exact hfit _ _ _ hheaders hlength
      obtain ⟨ws, hplan, hselected, hpos, hmax⟩ :=
        Slots.exists_plan (slotsAt_inRange o.flash.mem) h.selects.pos hroom o.target
      obtain ⟨o', hfinal, himage, -, -, hslots, hfault, -, -, -⟩ := hholds.finalize hota
        (hd.healthyOn _ _) hnil hlength hplan
      have hperform : performOtaUpdate url net o = .ok .updated o' :=
        (bind_ok hready).trans (bind_ok (attempt_ok hfinal))
      refine ⟨o', bodyOf net.response, hrequest hperform nofun, ⟨?_, ?_, ?_⟩, ?_,
        fun _ => rfl, fun hnot => absurd ⟨hupdate, hacc, hnil⟩ hnot⟩
      · intro n op
        rw [hfault]
        exact hd n op
      · rwa [hslots]
      · rw [hslots, hselected]
        exact himage
      · rwa [hslots]

/-- Reading otadata changes nothing. -/
theorem Runs.reads (h : Runs firmware o) :
    Runs firmware { o with flash := o.flash.after entryReads } :=
  ⟨⟨h.selects.healthy, h.selects.pos, h.selects.image⟩, h.running_eq, h.target_eq, h.idle⟩

/-- The validation of a boot leaves the firmware that runs. -/
theorem validateBoot_spec (h : Runs firmware o)
    (hroom : (slotsAt o.flash.mem).maxSeq + 2 < 0xFFFFFFFF) :
    ∃ o', validateBoot o = .ok () o' ∧ Runs firmware o' ∧
      (slotsAt o'.flash.mem).maxSeq ≤ (slotsAt o.flash.mem).maxSeq + 2 := by
  have hota := h.selects.healthy.healthyOn otadataOffset otadataEnd
  obtain ⟨needed, hneeds, -⟩ := needsValidation_ok hota
  have h1 := h.reads
  set o1 : EspOtaFlash (Device geometry) := { o with flash := o.flash.after entryReads }
  unfold validateBoot
  rw [bind_ok hneeds]
  cases needed with
  | false => exact ⟨o1, rfl, h1, Nat.le_add_right _ _⟩
  | true =>
    rw [if_pos rfl]
    obtain ⟨hsettled, hunsettled⟩ := markValid_eq (o := o1) hota
    by_cases hset : (slotsAt o1.flash.mem).Settled o1.running
    · exact ⟨_, bind_ok (attempt_ok (hsettled hset)), h1.reads, Nat.le_add_right _ _⟩
    -- Otadata is repaired, for the partition that runs.
    · have himage : HoldsImage o1.flash.mem o1.running firmware := by
        rw [h1.running_eq]
        exact h1.selects.image
      obtain ⟨d', hswitch, hselects, hselected, hmax⟩ := setBootPartition_selects_image
        (d := o1.flash.after entryReads) h1.selects.healthy h1.selects.pos hroom himage
      have hmark := (hunsettled hset).trans (onFlash_ok hswitch)
      exact ⟨_, bind_ok (attempt_ok hmark), ⟨hselects, hselected.symm, h1.target_eq, h1.idle⟩,
        hmax⟩

open scoped Classical in
/-- One event leaves the firmware of the last request that was accepted, and 2 at most is added to
the highest number of otadata. -/
theorem otaStep_spec (h : Runs firmware o) (event : OtaEvent) (hfits : event.Fits)
    (hroom : (slotsAt o.flash.mem).maxSeq + 2 < 0xFFFFFFFF) :
    Runs (lastInstalled firmware [event]) (otaStep o event) ∧
      (slotsAt (otaStep o event).flash.mem).maxSeq ≤ (slotsAt o.flash.mem).maxSeq + 2 := by
  cases event with
  | request url net =>
    by_cases htest : isTcpTest url = true
    · have hrequest : handleOtaRequest url net o = .ok false o := by
        unfold handleOtaRequest
        rw [if_pos htest]
        rfl
      have hnot : ¬ Installs url net := fun hi => by
        rw [hi.update] at htest
        cases htest
      simp only [otaStep, hrequest, lastInstalled, List.foldl_cons, List.foldl_nil, if_neg hnot]
      exact ⟨h, Nat.le_add_right _ _⟩
    · obtain ⟨o', next, hrequest, hselects, hmax, hinstalled, hkept⟩ :=
        performOtaUpdate_spec h hroom hfits (Bool.not_eq_true _ ▸ htest)
      have hnext : lastInstalled firmware [.request url net] = next := by
        rw [lastInstalled, List.foldl_cons, List.foldl_nil]
        dsimp only
        split_ifs with hi
        · exact (hinstalled hi).symm
        · exact (hkept hi).symm
      rw [hnext]
      simp only [otaStep, hrequest]
      exact ⟨runs_createOta hselects, by rwa [createOta_mem hselects.healthy]⟩
  | validate =>
    obtain ⟨o', hvalidate, hruns, hmax⟩ := validateBoot_spec h hroom
    simp only [otaStep, hvalidate]
    exact ⟨hruns, hmax⟩
  | reset =>
    refine ⟨runs_createOta h.selects, ?_⟩
    simp only [otaStep]
    rw [createOta_mem h.selects.healthy]
    exact Nat.le_add_right _ _

end Step

/-- The chip whose slot 0 holds the number 1 is blank outside of that slot. -/
theorem selects_firstBootDevice : Selects [] firstBootDevice := by
  have hslots := slotsAt_firstBootDevice
  have hselected : (slotsAt firstBootDevice.mem).selected = .ota0 := by
    rw [hslots]
    rfl
  refine ⟨Device.healthy_healthy _, by rw [hslots]; decide, ?_⟩
  rw [hselected]
  intro i hi
  have hlen : (buildOtadataEntry 1 ++
      (bytesAt blankFlash (slotOffset .ota0) sectorSize).drop otaEntrySize).length = 4096 := by
    rw [List.length_append, buildOtadataEntry_length, List.length_drop, bytesAt_length]
    rfl
  have hoffset : slotOffset .ota0 = 0x10000 := rfl
  have hbase : Partition.ota0.offset = 0x160000 := rfl
  show replay (planOps blankFlash [(.ota0, 1)]) blankFlash _ = _
  rw [planOps, planOps, List.append_nil, slotOps]
  rw [replay_cons, replay_cons, replay_cons, replay_nil, Op.apply_of_not_touches,
    Op.apply_of_not_touches, Op.apply_of_not_touches]
  · rfl
  all_goals
    simp only [Op.Touches, Op.start, Op.stop, hlen]
    rw [hoffset, hbase]
    have hsector : sectorSize = 4096 := rfl
    omega

/-- The device of the first boot has one as its highest number. -/
theorem maxSeq_createOta_firstBoot :
    (slotsAt (createOta firstBootDevice).flash.mem).maxSeq = 1 := by
  rw [createOta_mem selects_firstBootDevice.healthy, slotsAt_firstBootDevice]
  rfl

end Launa.App
