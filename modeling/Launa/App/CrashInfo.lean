import Launa.App.CrashText
import Launa.Lib.Run

/-!
# The crash report in NVS

The panic handler writes a report to NVS in three keys: a magic byte, the reason and the message
(`writeCrashInfo`). The next boot reads it into memory (`CrashKeys.read`), deletes the keys one by
one before it gives the flash to the updater (`clearCrashInfo`), and publishes the alarm when MQTT
has connected. NVS is exposed to the panic handler only between the reading and the deletion.

`CrashLog` takes one step of this at a time, so a reset may fall between any two operations. A
report is safe, and NVS takes the next one, exactly as long as no boot deletes a key of a report
that is not published, none ends with the magic byte in NVS but no reason, and no report is
completed by a message that cannot be logged (`preserved_iff`). Without a reason no report is read,
nothing is deleted, and the pre-check of `write_crash_info` refuses every later one; and with such a
message every boot panics when it reads the report, before NVS is exposed to the panic handler.
-/

namespace Launa.App

open Run Mqtt Utf8Bytes

/-- `u8::to_ascii_lowercase`. -/
def toAsciiLowercase (b : UInt8) : UInt8 := if 0x41 ≤ b ∧ b ≤ 0x5A then b + 0x20 else b

/-- `contains_ci`: the needle occurs in the haystack, ASCII letters in either case. -/
def containsCi (haystack needle : List UInt8) : Bool :=
  haystack.tails.any fun t =>
    (needle.map toAsciiLowercase).isPrefixOf (t.map toAsciiLowercase)

/-- `CrashReason::classify`. -/
def CrashReason.classify (message : String) : CrashReason :=
  let has := fun needle => containsCi (asBytes message) (asBytes needle)
  if has "out of memory" || has "allocation failed" || has "oom" then .oom
  else if has "stack overflow" then .stackOverflow
  else if has "assertion" then .assertion
  else if has "index out of bounds" || has "range start index " then .indexOutOfBounds
  else if has "attempt to add with overflow" || has "attempt to multiply with overflow" ||
    has "attempt to subtract with overflow" || has "overflow" then .arithmeticOverflow
  else .panic

/-- The message of the panic handler, whose buffer has 1024 bytes. -/
def panicMessage (info : List UInt8) : String :=
  (fromUtf8 ((asBytes "MSG: " ++ info ++ asBytes "\n").take 1024)).getD "PANIC"

/-- The magic byte is in NVS, and no reason. -/
def CrashKeys.Halfway (nvs : CrashKeys) : Prop := nvs.magic.isSome ∧ nvs.reason = none

/-- An operation on the keys of the namespace. -/
inductive NvsOp where
  | setMagic (v : UInt8)
  | setReason (v : UInt8)
  | setMessage (text : String)
  | deleteMessage
  | deleteReason
  | deleteMagic
  deriving DecidableEq

/-- What an operation does to the keys. -/
def NvsOp.apply : NvsOp → CrashKeys → CrashKeys
  | setMagic v, nvs => { nvs with magic := some v }
  | setReason v, nvs => { nvs with reason := some v }
  | setMessage text, nvs => { nvs with message := some text }
  | deleteMessage, nvs => { nvs with message := none }
  | deleteReason, nvs => { nvs with reason := none }
  | deleteMagic, nvs => { nvs with magic := none }

/-- `write_crash_info` with `NVS_PTR` set: the operations that it makes, of which a panic in the cut
of the message keeps the last one. -/
def writeCrashInfo (nvs : CrashKeys) (reason : CrashReason) (message : String) : List NvsOp :=
  if nvs.magic.isSome then []
  else
    let ops := [.setMagic crashMagic, .setReason reason.toU8]
    match storedMessage message with
    | some text => ops ++ [.setMessage text]
    | none => ops

/-- `clear_crash_info`: the operations that it makes. -/
def clearCrashInfo : List NvsOp := [.deleteMessage, .deleteReason, .deleteMagic]

/-! ## Boots -/

/-- How far a boot is. -/
inductive BootPhase where
  /-- NVS is not read yet. -/
  | starting
  /-- The report is read, and `NVS_PTR` is set. -/
  | exposed (pending : Option CrashInfo)
  /-- `NVS_PTR` is null again, while the boot waits for a configuration. -/
  | polling (pending : Option CrashInfo)
  /-- The panic handler, with the operations that it has left. -/
  | panicking (ops : List NvsOp)
  /-- `NVS_PTR` is null, and these deletions are left. Behind them NVS is given up. -/
  | clearing (pending : Option CrashInfo) (ops : List NvsOp)

/-- The device, as far as its crash reports go. -/
structure CrashLog where
  nvs : CrashKeys
  phase : BootPhase
  /-- The report that was written as a whole last, until its alarm is published. -/
  recorded : Option CrashInfo

/-- A step of the device. -/
inductive BootEvent where
  /-- Power loss, or a reset of any kind. -/
  | reset
  /-- The boot reads the report, and sets `NVS_PTR`. -/
  | readCrashInfo
  /-- The boot clears `NVS_PTR` and polls for a configuration. -/
  | pollSerial
  /-- A panic. -/
  | panic (info : List UInt8)
  /-- The next operation of the panic handler or of the deletion. -/
  | nvsOp
  /-- The boot clears `NVS_PTR`, and goes on to delete the report if it has read one. -/
  | recoverFlash
  /-- The alarm of the report that the boot has read is published. -/
  | publishAlarm

namespace CrashLog

/-- The first boot of a device. -/
def start : CrashLog := ⟨⟨none, none, none⟩, .starting, none⟩

/-- What an event does. -/
def step (s : CrashLog) : BootEvent → CrashLog
  | .reset => { s with phase := .starting }
  | .readCrashInfo =>
    match s.phase with
    | .starting =>
      match s.nvs.read .all with
      | some pending => { s with phase := .exposed pending }
      -- A message that cannot be logged panics, and `NVS_PTR` is not set yet.
      | none => s
    | _ => s
  | .pollSerial =>
    match s.phase with
    | .exposed pending => { s with phase := .polling pending }
    | _ => s
  | .panic info =>
    let message := panicMessage info
    let ops := writeCrashInfo s.nvs (.classify message) message
    match s.phase with
    | .exposed _ => { s with phase := .panicking ops }
    | .panicking _ => { s with phase := .panicking ops }
    -- Without `NVS_PTR` nothing is written, and the handler ends with a reset.
    | _ => { s with phase := .starting }
  | .nvsOp =>
    match s.phase with
    | .panicking (op :: ops) =>
      let nvs := op.apply s.nvs
      let recorded := match op with
        | .setMessage text => nvs.reason.map fun r => ⟨.fromU8 r, text⟩
        | _ => s.recorded
      { s with nvs := nvs, phase := .panicking ops, recorded := recorded }
    | .clearing pending (op :: ops) =>
      { s with nvs := op.apply s.nvs, phase := .clearing pending ops }
    | _ => s
  | .recoverFlash =>
    match s.phase with
    | .exposed pending =>
      { s with phase := .clearing pending (if pending.isSome then clearCrashInfo else []) }
    | .polling pending =>
      { s with phase := .clearing pending (if pending.isSome then clearCrashInfo else []) }
    | _ => s
  | .publishAlarm =>
    match s.phase with
    | .clearing (some _) [] => { s with phase := .clearing none [], recorded := none }
    | _ => s

/-- A boot that nothing cuts short, as far as NVS is concerned. -/
def uninterrupted (s : CrashLog) : CrashLog :=
  [.reset, .readCrashInfo, .recoverFlash, .nvsOp, .nvsOp, .nvsOp].foldl step s

/-- Some boots later `write_crash_info` records again. -/
def Recordable (s : CrashLog) : Prop := ∃ k, ((uninterrupted^[k]) s).nvs.magic = none

/-- A report that was written as a whole is read back as long as it is not published, and when a
boot has ended, those that follow make NVS take a report again. -/
structure Preserved (s : CrashLog) : Prop where
  readable : ∀ crash ∈ s.recorded, s.nvs.read .all = some (some crash)
  recordable : s.phase = .starting → s.Recordable

/-- No deletion is made while a report is not published, no report is completed by a message whose
byte 80 is within a character, and no boot ends halfway. -/
def Unharmed (s : CrashLog) : BootEvent → Prop
  | .nvsOp =>
    (∀ pending op ops, s.phase = .clearing pending (op :: ops) → s.recorded = none) ∧
      ∀ text ops, s.phase = .panicking (.setMessage text :: ops) → CutsAt 80 text
  | .reset => ¬ s.nvs.Halfway
  | .panic _ =>
    match s.phase with
    | .exposed _ => True
    | .panicking _ => True
    | _ => ¬ s.nvs.Halfway
  | _ => True

end CrashLog

/-! ## What is written -/

/-- A message of the panic handler does not start with the `<` of `messageUnavailable`. -/
theorem head?_panicMessage (info : List UInt8) :
    ∃ b, (asBytes (panicMessage info)).head? = some b ∧ b ≠ 0x3C := by
  have hmsg : asBytes "MSG: " = [0x4D, 0x53, 0x47, 0x3A, 0x20] := by decide
  have hpanic : asBytes "PANIC" = [0x50, 0x41, 0x4E, 0x49, 0x43] := by decide
  unfold panicMessage
  cases htext : fromUtf8 ((asBytes "MSG: " ++ info ++ asBytes "\n").take 1024) with
  | none =>
    rw [Option.getD_none, hpanic]
    exact ⟨0x50, rfl, by decide⟩
  | some text =>
    rw [Option.getD_some, asBytes_of_fromUtf8 htext, hmsg]
    exact ⟨0x4D, rfl, by decide⟩

/-- So it is not taken for a message that is not there, also after the cut. -/
theorem storedMessage_ne {info : List UInt8} {text : String}
    (h : storedMessage (panicMessage info) = some text) : text ≠ messageUnavailable := by
  obtain ⟨b, hhead, hne⟩ := head?_panicMessage info
  obtain ⟨rest, hmessage, -⟩ := storedMessage_eq_some h
  have hunavailable : (asBytes messageUnavailable).head? = some 0x3C := by decide
  rintro rfl
  rw [hmessage, asBytes, toList_toByteArray_append, List.head?_append, ← asBytes,
    hunavailable] at hhead
  exact hne (Option.some.inj hhead).symm

/-- A recording in which no call of NVS fails makes the operations of `writeCrashInfo`. -/
theorem CrashKeys.write_eq_foldl {keys keys' : CrashKeys} {reason : CrashReason} {message : String}
    {written : Bool} (h : keys.write .all reason message = some (written, keys')) :
    keys' = (writeCrashInfo keys reason message).foldl (fun nvs op => op.apply nvs) keys := by
  unfold writeCrashInfo
  cases hmagic : keys.magic with
  | some m =>
    have hkeep : keys.write .all reason message = some (false, keys) := by
      rw [write, hmagic]
      rfl
    rw [hkeep] at h
    cases h
    rfl
  | none =>
    rw [write_all hmagic] at h
    obtain ⟨cut, hcut, hkeys⟩ := Option.map_eq_some_iff.1 h
    cases hkeys
    rw [hcut]
    rfl

/-- A report that is in NVS with all three keys. -/
structure Stored (nvs : CrashKeys) (crash : CrashInfo) : Prop where
  magic : nvs.magic = some crashMagic
  reason : nvs.reason.map CrashReason.fromU8 = some crash.reason
  message : nvs.message = some crash.message
  available : crash.message ≠ messageUnavailable
  logged : CutsAt 80 crash.message

/-- It is read. -/
theorem Stored.read {nvs : CrashKeys} {crash : CrashInfo} (h : Stored nvs crash) :
    nvs.read .all = some (some crash) := by
  obtain ⟨r, hr, hreason⟩ := Option.map_eq_some_iff.1 h.reason
  obtain ⟨logged, hlogged⟩ := Option.isSome_iff_exists.1 (isSome_loggedMessage_iff.2 h.logged)
  rw [CrashKeys.read_all h.magic hr h.message, hlogged, Option.map_some, hreason]

/-- A deletion sets no magic byte. -/
theorem NvsOp.mem_magic_of_delete {op : NvsOp} (hop : op ∈ clearCrashInfo) {nvs : CrashKeys}
    {m : UInt8} (h : m ∈ (op.apply nvs).magic) : m ∈ nvs.magic := by
  simp only [clearCrashInfo, List.mem_cons, List.not_mem_nil, or_false] at hop
  rcases hop with rfl | rfl | rfl
  · exact h
  · exact h
  · exact absurd h (Option.not_mem_none m)

/-- A deletion sets no message. -/
theorem NvsOp.mem_message_of_delete {op : NvsOp} (hop : op ∈ clearCrashInfo) {nvs : CrashKeys}
    {text : String} (h : text ∈ (op.apply nvs).message) : text ∈ nvs.message := by
  simp only [clearCrashInfo, List.mem_cons, List.not_mem_nil, or_false] at hop
  rcases hop with rfl | rfl | rfl
  · exact absurd h (Option.not_mem_none text)
  · exact h
  · exact h

/-- No deletion leaves the report to be read. -/
theorem Stored.read_delete {nvs : CrashKeys} {crash : CrashInfo} (h : Stored nvs crash)
    {op : NvsOp} (hop : op ∈ clearCrashInfo) : (op.apply nvs).read .all ≠ some (some crash) := by
  obtain ⟨r, hr, -⟩ := Option.map_eq_some_iff.1 h.reason
  simp only [clearCrashInfo, List.mem_cons, List.not_mem_nil, or_false] at hop
  rcases hop with rfl | rfl | rfl
  · intro heq
    have hreport : (NvsOp.apply .deleteMessage nvs).read .all = _ :=
      CrashKeys.read_of_reason h.magic hr
    obtain ⟨logged, -, hread⟩ := Option.map_eq_some_iff.1 (hreport.symm.trans heq)
    exact h.available (congrArg CrashInfo.message (Option.some.inj hread)).symm
  · simp [CrashKeys.read, ReadCalls.all, NvsOp.apply, h.magic]
  · simp [CrashKeys.read, ReadCalls.all, NvsOp.apply]

/-! ## Which states recover -/

namespace CrashLog

variable {s : CrashLog}

/-- Halfway, a boot reads no report, and so it deletes nothing. -/
theorem uninterrupted_of_halfway (h : s.nvs.Halfway) : s.uninterrupted.nvs = s.nvs := by
  obtain ⟨hmagic, hreason⟩ := h
  have hread : s.nvs.read .all = some none := by
    obtain ⟨m, hm⟩ := Option.isSome_iff_exists.1 hmagic
    simp [CrashKeys.read, ReadCalls.all, hm, hreason]
  simp [uninterrupted, step, hread]

/-- With the magic byte and a reason, a boot reads the report and deletes all of it. -/
theorem uninterrupted_of_reads {crash : CrashInfo} (h : s.nvs.read .all = some (some crash)) :
    s.uninterrupted.nvs.magic = none := by
  simp [uninterrupted, step, h, clearCrashInfo, NvsOp.apply]

/-- With a message that can be logged, NVS takes a report again exactly if it is not halfway. -/
theorem recordable_iff (hmagic : ∀ m ∈ s.nvs.magic, m = crashMagic)
    (hlogged : ∀ text ∈ s.nvs.message, CutsAt 80 text) : s.Recordable ↔ ¬ s.nvs.Halfway := by
  constructor
  · rintro ⟨k, hk⟩ hhalf
    have hkeep : ((uninterrupted^[k]) s).nvs = s.nvs := by
      clear hk
      induction k with
      | zero => rfl
      | succ k ih =>
        rw [Function.iterate_succ_apply', uninterrupted_of_halfway (by rw [ih]; exact hhalf), ih]
    have hsome := hhalf.1
    rw [← hkeep, hk] at hsome
    cases hsome
  · intro hhalf
    cases hm : s.nvs.magic with
    | none => exact ⟨0, hm⟩
    | some m =>
      cases hr : s.nvs.reason with
      | none => exact absurd ⟨by rw [hm]; rfl, hr⟩ hhalf
      | some r =>
        obtain ⟨read, hread⟩ := Option.isSome_iff_exists.1 (CrashKeys.isSome_read hlogged .all)
        have hreport := CrashKeys.read_of_reason (hmagic m hm ▸ hm) hr
        rw [hread] at hreport
        obtain ⟨logged, -, rfl⟩ := Option.map_eq_some_iff.1 hreport.symm
        exact ⟨1, uninterrupted_of_reads hread⟩

/-! ## The invariant -/

/-- The last operation of a recording, if the cut of the message did not panic. -/
def Tail (ops : List NvsOp) : Prop :=
  ops = [] ∨ ∃ text, text ≠ messageUnavailable ∧ ops = [.setMessage text]

/-- What is left of a recording, with what it has written so far. -/
inductive Writing (nvs : CrashKeys) : List NvsOp → Prop where
  | magic (r : CrashReason) {ops : List NvsOp} (h : Tail ops) :
    Writing nvs (.setMagic crashMagic :: .setReason r.toU8 :: ops)
  | reason (r : CrashReason) {ops : List NvsOp} (hmagic : nvs.magic = some crashMagic)
    (h : Tail ops) : Writing nvs (.setReason r.toU8 :: ops)
  | tail {ops : List NvsOp} (hmagic : nvs.magic = some crashMagic) (hreason : nvs.reason.isSome)
    (h : Tail ops) : Writing nvs ops
  | skipped : Writing nvs []

/-- The message is written last. -/
theorem Writing.of_setMessage {nvs : CrashKeys} {text : String} {ops : List NvsOp}
    (h : Writing nvs (.setMessage text :: ops)) :
    nvs.magic = some crashMagic ∧ nvs.reason.isSome := by
  cases h with
  | tail hmagic hreason htail => exact ⟨hmagic, hreason⟩

/-- A recording starts with all its operations, or is skipped. -/
theorem writing_writeCrashInfo (nvs : CrashKeys) (reason : CrashReason) (info : List UInt8) :
    Writing nvs (writeCrashInfo nvs reason (panicMessage info)) := by
  unfold writeCrashInfo
  split
  · exact .skipped
  · cases htext : storedMessage (panicMessage info) with
    | none => exact .magic reason (.inl rfl)
    | some text => exact .magic reason (.inr ⟨text, storedMessage_ne htext, rfl⟩)

/-- What holds in every run whose steps are unharmed. -/
structure Inv (s : CrashLog) : Prop where
  magic : ∀ m ∈ s.nvs.magic, m = crashMagic
  logged : ∀ text ∈ s.nvs.message, CutsAt 80 text
  recorded : ∀ crash ∈ s.recorded, Stored s.nvs crash
  panicking : ∀ ops, s.phase = .panicking ops → Writing s.nvs ops ∧ (ops ≠ [] → s.recorded = none)
  clearing : ∀ pending ops, s.phase = .clearing pending ops → ∀ op ∈ ops, op ∈ clearCrashInfo
  starting : s.phase = .starting → ¬ s.nvs.Halfway

/-- The invariant holds before anything is recorded. -/
theorem inv_start : start.Inv where
  magic := fun _ h => absurd h (Option.not_mem_none _)
  logged := fun _ h => absurd h (Option.not_mem_none _)
  recorded := fun _ h => absurd h (Option.not_mem_none _)
  panicking := fun _ h => by cases h
  clearing := fun _ _ h => by cases h
  starting := fun _ h => by cases h.1

/-- A state of the invariant has its report preserved. -/
theorem Inv.preserved (h : s.Inv) : s.Preserved where
  readable := fun crash hcrash => (h.recorded crash hcrash).read
  recordable := fun hphase => (recordable_iff h.magic h.logged).2 (h.starting hphase)

/-- A step that leaves the report and the phase of a boot to come preserved was unharmed. -/
theorem unharmed_of_preserved (h : s.Inv) {e : BootEvent} (hp : (s.step e).Preserved) :
    s.Unharmed e := by
  cases e with
  | reset => exact (recordable_iff (s := s.step .reset) h.magic h.logged).1 (hp.recordable rfl)
  | readCrashInfo => trivial
  | pollSerial => trivial
  | panic info =>
    unfold Unharmed
    cases hphase : s.phase with
    | exposed pending => trivial
    | panicking ops => trivial
    | starting => exact h.starting hphase
    | polling pending =>
      simp only [step, hphase] at hp
      exact (recordable_iff (s := { s with phase := .starting }) h.magic h.logged).1
        (hp.recordable rfl)
    | clearing pending ops =>
      simp only [step, hphase] at hp
      exact (recordable_iff (s := { s with phase := .starting }) h.magic h.logged).1
        (hp.recordable rfl)
  | nvsOp =>
    refine ⟨fun pending op ops hphase => ?_, fun text ops hphase => ?_⟩
    · cases hrecorded : s.recorded with
      | none => rfl
      | some crash =>
        simp only [step, hphase] at hp
        have hop := h.clearing pending _ hphase op List.mem_cons_self
        exact absurd (hp.readable crash hrecorded) ((h.recorded crash hrecorded).read_delete hop)
    -- The report is complete, and would not be read back.
    · obtain ⟨hmagic, hreason⟩ := (h.panicking _ hphase).1.of_setMessage
      obtain ⟨r, hr⟩ := Option.isSome_iff_exists.1 hreason
      simp only [step, hphase, NvsOp.apply, hr] at hp
      have hread := hp.readable ⟨.fromU8 r, text⟩ rfl
      have hreport : CrashKeys.read ⟨s.nvs.magic, some r, some text⟩ .all = _ :=
        CrashKeys.read_all hmagic rfl rfl
      obtain ⟨logged, hlogged, -⟩ := Option.map_eq_some_iff.1 (hreport.symm.trans hread)
      exact isSome_loggedMessage_iff.1 (hlogged ▸ rfl)
  | recoverFlash => trivial
  | publishAlarm => trivial

/-- A change of the phase keeps the invariant if the new phase has what it says of it. -/
theorem Inv.of_phase (h : s.Inv) {phase : BootPhase}
    (hpanicking : ∀ ops, phase = .panicking ops →
      Writing s.nvs ops ∧ (ops ≠ [] → s.recorded = none))
    (hclearing : ∀ pending ops, phase = .clearing pending ops → ∀ op ∈ ops, op ∈ clearCrashInfo)
    (hstarting : phase = .starting → ¬ s.nvs.Halfway) : Inv { s with phase := phase } :=
  ⟨h.magic, h.logged, h.recorded, hpanicking, hclearing, hstarting⟩

/-- The end of a boot. -/
theorem Inv.reset (h : s.Inv) (hhalf : ¬ s.nvs.Halfway) : Inv { s with phase := .starting } :=
  h.of_phase (fun _ hphase => by cases hphase) (fun _ _ hphase => by cases hphase) fun _ => hhalf

/-- The start of the panic handler. -/
theorem Inv.panics (h : s.Inv) (info : List UInt8) :
    Inv { s with
      phase := .panicking
        (writeCrashInfo s.nvs (.classify (panicMessage info)) (panicMessage info)) } := by
  refine h.of_phase (fun ops hphase => ?_) (fun _ _ hphase => by cases hphase)
    (fun hphase => by cases hphase)
  cases hphase
  refine ⟨writing_writeCrashInfo _ _ _, fun hne => ?_⟩
  -- Something is written only without the magic byte, so no report is there.
  rw [Option.eq_none_iff_forall_not_mem]
  intro crash hcrash
  have hmagic := (h.recorded crash hcrash).magic
  rw [writeCrashInfo, hmagic] at hne
  exact hne rfl

/-- The start of the deletion. -/
theorem Inv.clears (h : s.Inv) (pending : Option CrashInfo) :
    Inv { s with
      phase := .clearing pending (if pending.isSome then clearCrashInfo else []) } := by
  refine h.of_phase (fun _ hphase => by cases hphase) (fun pending' ops hphase op hop => ?_)
    (fun hphase => by cases hphase)
  cases hphase
  split at hop
  · exact hop
  · exact absurd hop List.not_mem_nil

/-- In the panic handler. -/
theorem inv_panicking {nvs : CrashKeys} {ops : List NvsOp} {recorded : Option CrashInfo}
    (hmagic : ∀ m ∈ nvs.magic, m = crashMagic) (hlogged : ∀ text ∈ nvs.message, CutsAt 80 text)
    (hrecorded : ∀ crash ∈ recorded, Stored nvs crash)
    (hwriting : Writing nvs ops) (hnone : ops ≠ [] → recorded = none) :
    Inv ⟨nvs, .panicking ops, recorded⟩ := by
  refine ⟨hmagic, hlogged, hrecorded, fun ops' hphase => ?_, fun _ _ hphase => ?_, fun hphase => ?_⟩
  · cases hphase
    exact ⟨hwriting, hnone⟩
  · cases hphase
  · cases hphase

/-- While the report is deleted. -/
theorem inv_clearing {nvs : CrashKeys} {pending : Option CrashInfo} {ops : List NvsOp}
    {recorded : Option CrashInfo} (hmagic : ∀ m ∈ nvs.magic, m = crashMagic)
    (hlogged : ∀ text ∈ nvs.message, CutsAt 80 text)
    (hrecorded : ∀ crash ∈ recorded, Stored nvs crash) (hops : ∀ op ∈ ops, op ∈ clearCrashInfo) :
    Inv ⟨nvs, .clearing pending ops, recorded⟩ := by
  refine ⟨hmagic, hlogged, hrecorded, fun ops' hphase => ?_, fun _ _ hphase => ?_, fun hphase => ?_⟩
  · cases hphase
  · cases hphase
    exact hops
  · cases hphase

/-- One operation of the panic handler, which completes no report that cannot be logged. -/
theorem Inv.writes (h : s.Inv) {op : NvsOp} {ops : List NvsOp}
    (hphase : s.phase = .panicking (op :: ops)) (hcut : ∀ text, op = .setMessage text →
      CutsAt 80 text) : (s.step .nvsOp).Inv := by
  obtain ⟨hwriting, hnone⟩ := h.panicking _ hphase
  have hrecorded := hnone (List.cons_ne_nil _ _)
  simp only [step, hphase]
  cases hwriting with
  | magic r htail =>
    exact inv_panicking (fun m hm => (Option.some.inj hm).symm) h.logged
      (fun crash hcrash => absurd hcrash (by simp [hrecorded])) (.reason r rfl htail)
      fun _ => hrecorded
  | reason r hmagic htail =>
    exact inv_panicking h.magic h.logged
      (fun crash hcrash => absurd hcrash (by simp [hrecorded]))
      (.tail hmagic rfl htail) fun _ => hrecorded
  | tail hmagic hreason htail =>
    rcases htail with htail | ⟨text, htext, htail⟩
    · cases htail
    -- The message completes the report.
    · cases htail
      obtain ⟨r, hr⟩ := Option.isSome_iff_exists.1 hreason
      refine inv_panicking h.magic (fun text' htext' => ?_) (fun crash hcrash => ?_) .skipped
        fun hne => absurd rfl hne
      · exact hcut text' (congrArg NvsOp.setMessage (Option.some.inj htext'))
      · obtain ⟨r', hr', rfl⟩ := Option.map_eq_some_iff.1 hcrash
        exact ⟨hmagic, Option.map_eq_some_iff.2 ⟨r', hr', rfl⟩, rfl, htext, hcut text rfl⟩

/-- One operation of the deletion, which deletes no key of a report. -/
theorem Inv.deletes (h : s.Inv) {pending : Option CrashInfo} {op : NvsOp} {ops : List NvsOp}
    (hphase : s.phase = .clearing pending (op :: ops)) (hnone : s.recorded = none) :
    (s.step .nvsOp).Inv := by
  have hop := h.clearing pending _ hphase
  simp only [step, hphase]
  refine inv_clearing (fun m hm => ?_) (fun text htext => ?_)
    (fun crash hcrash => absurd hcrash (by simp [hnone]))
    fun o ho => hop o (List.mem_cons_of_mem _ ho)
  · exact h.magic m (NvsOp.mem_magic_of_delete (hop op List.mem_cons_self) hm)
  · exact h.logged text (NvsOp.mem_message_of_delete (hop op List.mem_cons_self) htext)

/-- An unharmed step keeps the invariant. -/
theorem Inv.step (h : s.Inv) {e : BootEvent} (he : s.Unharmed e) : (s.step e).Inv := by
  cases e with
  | reset => exact h.reset he
  | readCrashInfo =>
    unfold CrashLog.step
    cases hphase : s.phase with
    | starting =>
      dsimp only
      split
      · exact h.of_phase (fun _ hphase => by cases hphase) (fun _ _ hphase => by cases hphase)
          (fun hphase => by cases hphase)
      · exact h
    | _ => exact h
  | pollSerial =>
    unfold CrashLog.step
    cases hphase : s.phase with
    | exposed pending =>
      exact h.of_phase (fun _ hphase => by cases hphase) (fun _ _ hphase => by cases hphase)
        (fun hphase => by cases hphase)
    | _ => exact h
  | panic info =>
    unfold Unharmed at he
    unfold CrashLog.step
    cases hphase : s.phase with
    | exposed pending => exact h.panics info
    | panicking ops => exact h.panics info
    | starting => exact h.reset (h.starting hphase)
    | polling pending =>
      rw [hphase] at he
      exact h.reset he
    | clearing pending ops =>
      rw [hphase] at he
      exact h.reset he
  | nvsOp =>
    cases hphase : s.phase with
    | panicking ops =>
      cases ops with
      | nil =>
        simp only [CrashLog.step, hphase]
        exact h
      | cons op ops => exact h.writes hphase fun text hop => he.2 text ops (hop ▸ hphase)
    | clearing pending ops =>
      cases ops with
      | nil =>
        simp only [CrashLog.step, hphase]
        exact h
      | cons op ops => exact h.deletes hphase (he.1 pending op ops hphase)
    | _ =>
      simp only [CrashLog.step, hphase]
      exact h
  | recoverFlash =>
    unfold CrashLog.step
    cases hphase : s.phase with
    | exposed pending => exact h.clears pending
    | polling pending => exact h.clears pending
    | _ => exact h
  | publishAlarm =>
    simp only [CrashLog.step]
    split
    · exact inv_clearing h.magic h.logged
        (fun crash hcrash => absurd hcrash (Option.not_mem_none _))
        fun _ hop => absurd hop List.not_mem_nil
    · exact h

/-- In every run, a report that was written as a whole is read back at every point until it is
published, and after every boot NVS takes a report again, exactly when no boot deletes a key of a
report that is not published, none ends with the magic byte in NVS but no reason, and no report is
completed by a message whose byte 80 is within a character. -/
theorem preserved_iff (events : List BootEvent) :
    (∀ pre post, events = pre ++ post → (pre.foldl CrashLog.step start).Preserved) ↔
      Along CrashLog.step Unharmed start events :=
  along_iff_forall (C := Unharmed) (I := Inv) (P := Preserved) (fun _ h => h.preserved)
    (fun _ _ h hp => unharmed_of_preserved h hp) (fun _ _ h he => h.step he) inv_start events

/-- A report is written, and the next boot reads it and makes its first deletion. -/
def clearedEvents : List BootEvent :=
  [.readCrashInfo, .panic (asBytes "x"), .nvsOp, .nvsOp, .nvsOp, .reset, .readCrashInfo,
    .recoverFlash, .nvsOp]

/-- A recording is cut short between its first and its second operation. -/
def halfwayEvents : List BootEvent :=
  [.readCrashInfo, .panic (asBytes "x"), .nvsOp, .reset]

/-- A report is written whose message has a character of two bytes across byte 80. -/
def unloggedEvents : List BootEvent :=
  [.readCrashInfo, .panic (List.replicate 74 0x61 ++ asBytes "é"), .nvsOp, .nvsOp, .nvsOp]

/-- The first report is not read any more after the deletion, and the third one never is. After the
second run NVS takes no report again. -/
theorem cleared_not_preserved :
    ¬ (clearedEvents.foldl CrashLog.step start).Preserved ∧
      ¬ (halfwayEvents.foldl CrashLog.step start).Preserved ∧
      ¬ (unloggedEvents.foldl CrashLog.step start).Preserved := by
  have hunread : ∀ events : List BootEvent,
      (events.foldl CrashLog.step start).recorded.isSome →
      (events.foldl CrashLog.step start).nvs.read .all ≠
        (events.foldl CrashLog.step start).recorded.map some →
      ¬ (events.foldl CrashLog.step start).Preserved := by
    intro events hsome hread h
    obtain ⟨crash, hcrash⟩ := Option.isSome_iff_exists.1 hsome
    rw [h.readable crash hcrash, hcrash] at hread
    exact hread rfl
  refine ⟨hunread _ (by decide +kernel) (by decide +kernel), fun h => ?_,
    hunread _ (by decide +kernel) (by decide +kernel)⟩
  have hmagic : ∀ m ∈ (halfwayEvents.foldl CrashLog.step start).nvs.magic, m = crashMagic := by
    decide +kernel
  have hlogged : ∀ text ∈ (halfwayEvents.foldl CrashLog.step start).nvs.message,
      CutsAt 80 text := by
    decide +kernel
  refine (recordable_iff hmagic hlogged).1 (h.recordable ?_) ⟨?_, ?_⟩
  · rfl
  · decide +kernel
  · decide +kernel

end CrashLog

end Launa.App
