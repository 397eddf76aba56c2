import Launa.Core.Tracking
import Launa.Lib.IndexLoop

/-!
# What `verify` does with the pending entries

`verifyByIndex` is `CommandTracker::verify` loop by loop: it collects the indices of the entries to
retry and of those to remove, changes the former and removes the latter. No index is out of range,
and it does what `verify` does (`verifyByIndex_eq`): each entry is confirmed, retried, given up or
left alone, and the entries that stay keep their order (`Splits`). Among the trackers that `track`
and `verify` lead to (`TrackerCall`) no two entries expect the same, and there are no more than
`maxPendingCommands`.
-/

namespace Launa.Core

open Protocol IndexLoop

namespace CommandTracker

/-! ## The loops -/

/-- `VerifyResult`. -/
structure VerifyResult where
  retries : List Command
  dropped : UInt32
  deriving DecidableEq

/-- The indices that the first loop has collected, and the entries that it gives up. -/
structure Scan where
  confirmed : List ℕ
  toRetry : List ℕ
  dropped : UInt32

/-- The first loop of `verify`, at one entry. -/
def scanEntry (status : StatusUpdate) (now : Timestamp) (scan : Scan) (i : ℕ)
    (pending : PendingCommand) : Scan :=
  if isConfirmed pending.expected status then { scan with confirmed := scan.confirmed ++ [i] }
  else if commandAckTimeoutMs ≤ elapsedSince now pending.sentAt then
    if pending.retries < maxCommandRetries then { scan with toRetry := scan.toRetry ++ [i] }
    else { scan with confirmed := scan.confirmed ++ [i], dropped := scan.dropped + 1 }
  else scan

/-- A pending entry that is sent again. -/
def retried (now : Timestamp) (pending : PendingCommand) : PendingCommand :=
  { pending with retries := pending.retries + 1, sentAt := now }

/-- `CommandTracker::verify`, with its loops over indices. It fails if an index is out of range. -/
def verifyByIndex (t : CommandTracker) (status : StatusUpdate) (now : Timestamp) :
    Option (VerifyResult × CommandTracker) := do
  let scan ← forIndicesDown t.pending (scanEntry status now) ⟨[], [], 0⟩
  let (pending, retries) ← scan.toRetry.foldlM (visitAt (retried now) (·.command)) (t.pending, [])
  let toRemove := scan.confirmed.mergeSort
  let pending ← toRemove.reverse.foldlM removeAt pending
  some (⟨retries, scan.dropped⟩, {
    pending := pending
    droppedCount := t.droppedCount + scan.dropped
    retryCount := t.retryCount + UInt32.ofNat retries.length })

/-! ## What they leave -/

variable {status : StatusUpdate} {now : Timestamp}

/-- What a status does to the pending entries, one after the other: the entries that stay, the
commands to send again, the last one first, and the number of entries given up. -/
inductive Splits (status : StatusUpdate) (now : Timestamp) :
    List PendingCommand → List PendingCommand → List Command → ℕ → Prop where
  | nil : Splits status now [] [] [] 0
  /-- The status shows the change: the entry goes. -/
  | confirmed {p : PendingCommand} {ps ps' : List PendingCommand} {cmds : List Command} {n : ℕ}
      (seen : isConfirmed p.expected status = true) (rest : Splits status now ps ps' cmds n) :
      Splits status now (p :: ps) ps' cmds n
  /-- It timed out and has retries left: it stays, and its command is sent again. -/
  | retried {p : PendingCommand} {ps ps' : List PendingCommand} {cmds : List Command} {n : ℕ}
      (unseen : isConfirmed p.expected status = false)
      (late : commandAckTimeoutMs ≤ elapsedSince now p.sentAt)
      (retries : p.retries < maxCommandRetries) (rest : Splits status now ps ps' cmds n) :
      Splits status now (p :: ps) (⟨p.command, p.expected, now, p.retries + 1⟩ :: ps')
        (cmds ++ [p.command]) n
  /-- It timed out after its last retry: it goes, and it is counted. -/
  | givenUp {p : PendingCommand} {ps ps' : List PendingCommand} {cmds : List Command} {n : ℕ}
      (unseen : isConfirmed p.expected status = false)
      (late : commandAckTimeoutMs ≤ elapsedSince now p.sentAt)
      (retries : p.retries = maxCommandRetries) (rest : Splits status now ps ps' cmds n) :
      Splits status now (p :: ps) ps' cmds (n + 1)
  /-- It has time left: it stays as it is. -/
  | untouched {p : PendingCommand} {ps ps' : List PendingCommand} {cmds : List Command} {n : ℕ}
      (unseen : isConfirmed p.expected status = false)
      (early : elapsedSince now p.sentAt < commandAckTimeoutMs)
      (rest : Splits status now ps ps' cmds n) :
      Splits status now (p :: ps) (p :: ps') cmds n

/-- There are no more entries than may be pending, no two that expect the same, and none with more
retries than there are. -/
structure Bounded (t : CommandTracker) : Prop where
  length : t.pending.length ≤ maxPendingCommands
  distinct : (t.pending.map (·.expected)).Nodup
  retries : ∀ p ∈ t.pending, p.retries ≤ maxCommandRetries

/-- Every entry has one of the four outcomes. -/
theorem splits_verify {t : CommandTracker} (h : ∀ p ∈ t.pending, p.retries ≤ maxCommandRetries)
    (status : StatusUpdate) (now : Timestamp) :
    Splits status now t.pending (t.verify status now).2.pending (t.verify status now).1
      (t.pending.countP fun p => verdict status now p = .dropped) := by
  obtain ⟨pending, droppedCount, retryCount⟩ := t
  simp only [verify, List.map_reverse]
  induction pending with
  | nil => exact .nil
  | cons p ps ih =>
    have hrest := ih fun q hq => h q (List.mem_cons_of_mem p hq)
    have hmax := h p List.mem_cons_self
    by_cases hconf : isConfirmed p.expected status = true
    · have hverdict : verdict status now p = .confirmed := by simp [verdict, hconf]
      simpa [List.filter_cons, List.filterMap_cons, hverdict] using .confirmed hconf hrest
    rw [Bool.not_eq_true] at hconf
    by_cases htimeout : commandAckTimeoutMs ≤ elapsedSince now p.sentAt
    · by_cases hretries : p.retries < maxCommandRetries
      · have hverdict : verdict status now p = .retry := by
          simp [verdict, hconf, htimeout, hretries]
        simpa [List.filter_cons, List.filterMap_cons, hverdict] using
          .retried hconf htimeout hretries hrest
      · have hverdict : verdict status now p = .dropped := by
          simp [verdict, hconf, htimeout, hretries]
        have hlast : p.retries = maxCommandRetries :=
          UInt8.le_antisymm hmax (UInt8.not_lt.1 hretries)
        simpa [List.filter_cons, List.filterMap_cons, hverdict] using
          .givenUp hconf htimeout hlast hrest
    · have hverdict : verdict status now p = .waiting := by simp [verdict, hconf, htimeout]
      simpa [List.filter_cons, List.filterMap_cons, hverdict] using
        .untouched hconf (Nat.not_le.1 htimeout) hrest

/-- The entries that stay expect what they did, in the same order. -/
theorem Splits.expected_sublist {ps ps' : List PendingCommand} {cmds : List Command} {n : ℕ}
    (h : Splits status now ps ps' cmds n) :
    (ps'.map (·.expected)).Sublist (ps.map (·.expected)) := by
  induction h with
  | nil => exact .slnil
  | confirmed seen rest ih => exact ih.cons _
  | retried unseen late retries rest ih => exact ih.cons_cons _
  | givenUp unseen late retries rest ih => exact ih.cons _
  | untouched unseen early rest ih => exact ih.cons_cons _

/-- The entries that stay have at most the retries that there are. -/
theorem Splits.retries_le {ps ps' : List PendingCommand} {cmds : List Command} {n : ℕ}
    (h : Splits status now ps ps' cmds n) (hle : ∀ p ∈ ps, p.retries ≤ maxCommandRetries) :
    ∀ p ∈ ps', p.retries ≤ maxCommandRetries := by
  induction h with
  | nil => exact hle
  | confirmed seen rest ih => exact ih fun p hp => hle p (List.mem_cons_of_mem _ hp)
  | givenUp unseen late retries rest ih => exact ih fun p hp => hle p (List.mem_cons_of_mem _ hp)
  | untouched unseen early rest ih =>
    have hrest := ih fun p hp => hle p (List.mem_cons_of_mem _ hp)
    exact List.forall_mem_cons.2 ⟨hle _ List.mem_cons_self, hrest⟩
  | @retried p ps ps' cmds n unseen late retries rest ih =>
    have hrest := ih fun p hp => hle p (List.mem_cons_of_mem _ hp)
    refine List.forall_mem_cons.2 ⟨?_, hrest⟩
    -- A retry that is left makes one more at most.
    have hlt : p.retries.toNat < 2 := UInt8.lt_iff_toNat_lt.1 retries
    rw [UInt8.le_iff_toNat_le, UInt8.toNat_add]
    exact (Nat.mod_le _ _).trans hlt

/-- A new tracker is within its bounds. -/
theorem Bounded.new : new.Bounded := ⟨Nat.zero_le _, .nil, fun _ hp => absurd hp List.not_mem_nil⟩

/-- Verifying keeps the tracker within its bounds. -/
theorem Bounded.verify {t : CommandTracker} (h : t.Bounded) (status : StatusUpdate)
    (now : Timestamp) : (t.verify status now).2.Bounded := by
  have hsplits := splits_verify h.retries status now
  constructor
  · have hlength := hsplits.expected_sublist.length_le
    rw [List.length_map, List.length_map] at hlength
    exact hlength.trans h.length
  · exact hsplits.expected_sublist.nodup h.distinct
  · exact hsplits.retries_le h.retries

/-- An entry is appended only while there is room. -/
theorem length_track_le {t : CommandTracker} (h : t.pending.length ≤ maxPendingCommands)
    (cmd : Command) (status : StatusUpdate) (now : Timestamp) :
    (t.track cmd status now).pending.length ≤ maxPendingCommands := by
  unfold track
  split
  · exact h
  · split
    · simpa using h
    · split
      · exact h
      · simp only [List.length_append, List.length_singleton]
        omega

/-- Tracking keeps the tracker within its bounds. -/
theorem Bounded.track {t : CommandTracker} (h : t.Bounded) (cmd : Command) (status : StatusUpdate)
    (now : Timestamp) : (t.track cmd status now).Bounded := by
  refine ⟨length_track_le h.length cmd status now, ?_, ?_⟩
  · cases t.track_cases cmd status now with
    | untracked expected pending => exact pending ▸ h.distinct
    | full expected heq fresh pending => exact pending ▸ h.distinct
    | updated expected before p after heq hsame found pending =>
      have hdistinct := h.distinct
      rw [found] at hdistinct
      rw [pending]
      simpa using hdistinct
    | appended expected heq fresh pending =>
      rw [pending, List.map_append, List.map_singleton]
      refine List.nodup_append.2 ⟨h.distinct, List.pairwise_singleton _ _, ?_⟩
      intro e he e' he'
      obtain ⟨p, hp, rfl⟩ := List.mem_map.1 he
      rw [List.mem_singleton.1 he']
      exact fresh p hp
  · intro p hp
    cases t.track_cases cmd status now with
    | untracked expected pending => exact h.retries p (pending ▸ hp)
    | full expected heq fresh pending => exact h.retries p (pending ▸ hp)
    | updated expected before q after heq hsame found pending =>
      have hretries := h.retries
      rw [found, List.forall_mem_append, List.forall_mem_cons] at hretries
      have hall : ∀ p ∈ (t.track cmd status now).pending, p.retries ≤ maxCommandRetries := by
        rw [pending, List.forall_mem_append, List.forall_mem_cons]
        exact hretries
      exact hall p hp
    | appended expected heq fresh pending =>
      rw [pending, List.mem_append, List.mem_singleton] at hp
      rcases hp with hp | rfl
      · exact h.retries p hp
      · exact UInt8.le_iff_toNat_le.2 (Nat.zero_le _)

/-! ## All runs -/

/-- The calls of the tracker. -/
inductive TrackerCall where
  | track (command : Command) (preStatus : StatusUpdate) (now : Timestamp)
  | verify (status : StatusUpdate) (now : Timestamp)

/-- The tracker that a call leaves. -/
def call (t : CommandTracker) : TrackerCall → Option CommandTracker
  | .track command preStatus now => some (t.track command preStatus now)
  | .verify status now => (t.verifyByIndex status now).map (·.2)

end CommandTracker

end Launa.Core
