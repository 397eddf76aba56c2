import Launa.Core.CommandTracker

/-!
# What the tracker holds

An entry of the tracker expects the change that its command makes of the status before it, and while
no status confirms it, that is still the change that the command makes
(`fromCommand_of_not_confirmed`). `track` adds an entry or updates the one with the same expected
change (`track_cases`), and `verify` keeps those that wait or are sent again (`mem_verify`).
-/

namespace Launa.Core

open Protocol

namespace ExpectedChange

/-- The command that asks for a change. -/
def command : ExpectedChange → Command
  | pumpToggled item _ => .toggleItem item
  | blowerToggled _ => .toggleItem .blower
  | temperatureSet temp => .setTemperature temp
  | lightToggled item _ => .toggleItem item
  | holdModeToggled _ => .toggleItem .holdMode
  | heatingModeToggled _ => .toggleItem .heatingMode
  | tempRangeToggled _ => .toggleItem .temperatureRange

variable {cmd : Command} {status status' : StatusUpdate} {expected : ExpectedChange}

/-- The expected change tells the command. -/
theorem command_of_fromCommand (h : fromCommand cmd status = some expected) :
    expected.command = cmd := by
  cases cmd with
  | toggleItem item =>
    cases item <;> cases h <;> rfl
  | setTemperature temp =>
    cases h
    rfl
  | _ => cases h

/-- A change that a status does not confirm is the change that the command makes of it. -/
theorem fromCommand_of_not_confirmed (h : fromCommand cmd status = some expected)
    (hconf : CommandTracker.isConfirmed expected status' = false) :
    fromCommand cmd status' = some expected := by
  cases cmd with
  | toggleItem item =>
    cases item <;> cases h
    all_goals
      have heq := of_not_not (of_decide_eq_false hconf)
      exact congrArg (fun s => some _) heq
  | setTemperature temp =>
    cases h
    rfl
  | _ => cases h

end ExpectedChange

namespace CommandTracker

variable {t : CommandTracker} {cmd : Command} {status : StatusUpdate} {now : Timestamp}
  {expected : ExpectedChange} {p : PendingCommand}

/-- Every entry expects what its command changes of some status. -/
def WellFormed (t : CommandTracker) : Prop :=
  ∀ p ∈ t.pending, ∃ status, ExpectedChange.fromCommand p.command status = some p.expected

/-- What `track` does to the entries: nothing, if the command changes nothing that is tracked or
there is no room; or it updates an entry with the same expected change; or it appends one. -/
inductive TrackEffect (t : CommandTracker) (cmd : Command) (status : StatusUpdate) (now : Timestamp)
    (t' : CommandTracker) : Prop where
  | untracked (expected : ExpectedChange.fromCommand cmd status = none)
      (pending : t'.pending = t.pending)
  | updated (expected : ExpectedChange) (before : List PendingCommand) (p : PendingCommand)
      (after : List PendingCommand) (eq : ExpectedChange.fromCommand cmd status = some expected)
      (same : p.expected = expected) (found : t.pending = before ++ p :: after)
      (pending : t'.pending = before ++ { p with command := cmd, sentAt := now } :: after)
  | full (expected : ExpectedChange) (eq : ExpectedChange.fromCommand cmd status = some expected)
      (fresh : ∀ p ∈ t.pending, p.expected ≠ expected) (pending : t'.pending = t.pending)
  | appended (expected : ExpectedChange)
      (eq : ExpectedChange.fromCommand cmd status = some expected)
      (fresh : ∀ p ∈ t.pending, p.expected ≠ expected)
      (pending : t'.pending = t.pending ++ [⟨cmd, expected, now, 0⟩])

/-- Tracking has one of the effects that it can have. -/
theorem track_cases (t : CommandTracker) (cmd : Command) (status : StatusUpdate) (now : Timestamp) :
    TrackEffect t cmd status now (t.track cmd status now) := by
  unfold track
  cases heq : ExpectedChange.fromCommand cmd status with
  | none => exact .untracked heq rfl
  | some expected =>
    dsimp only
    cases hi : t.pending.findIdx? fun p => p.expected = expected with
    | some i =>
      obtain ⟨hlt, hsame, -⟩ := List.findIdx?_eq_some_iff_getElem.1 hi
      obtain ⟨before, p, after, hfound, hlen, hpending⟩ :=
        List.exists_of_modify (fun p => { p with command := cmd, sentAt := now }) hlt
      refine .updated expected before p after heq ?_ hfound hpending
      have hget : t.pending[i] = p := by simp [hfound, ← hlen]
      rw [← hget]
      exact of_decide_eq_true hsame
    | none =>
      have hfresh : ∀ p ∈ t.pending, p.expected ≠ expected := fun p hp h =>
        absurd (List.findIdx?_eq_none_iff.1 hi p hp) (by simp [h])
      dsimp only
      split
      · exact .full expected heq hfresh rfl
      · exact .appended expected heq hfresh rfl

/-- The entries after a command is tracked: one of the command, and those from before. -/
theorem mem_track {p' : PendingCommand} (hp : p' ∈ (t.track cmd status now).pending) :
    p'.command = cmd ∧ ExpectedChange.fromCommand cmd status = some p'.expected ∨
      p' ∈ t.pending := by
  cases t.track_cases cmd status now with
  | untracked expected pending => exact .inr (pending ▸ hp)
  | updated expected before q after heq hsame found pending =>
    rw [pending] at hp
    rw [found]
    rcases List.mem_append.1 hp with hp | hp
    · exact .inr (List.mem_append_left _ hp)
    · rcases List.mem_cons.1 hp with rfl | hp
      · exact .inl ⟨rfl, hsame ▸ heq⟩
      · exact .inr (List.mem_append_right _ (List.mem_cons_of_mem _ hp))
  | full expected heq fresh pending => exact .inr (pending ▸ hp)
  | appended expected heq fresh pending =>
    rw [pending] at hp
    rcases List.mem_append.1 hp with hp | hp
    · exact .inr hp
    · rw [List.mem_singleton.1 hp]
      exact .inl ⟨rfl, heq⟩

/-- What an entry expects is still expected after a command is tracked. -/
theorem exists_mem_track (hp : p ∈ t.pending) (cmd : Command) (status : StatusUpdate)
    (now : Timestamp) : ∃ p' ∈ (t.track cmd status now).pending, p'.expected = p.expected := by
  cases t.track_cases cmd status now with
  | untracked expected pending => exact ⟨p, pending ▸ hp, rfl⟩
  | updated expected before q after heq hsame found pending =>
    rw [found] at hp
    rw [pending]
    rcases List.mem_append.1 hp with hp | hp
    · exact ⟨p, List.mem_append_left _ hp, rfl⟩
    -- The entry itself may be the one updated, and it expects the same.
    · rcases List.mem_cons.1 hp with rfl | hp
      · exact ⟨_, List.mem_append_right _ List.mem_cons_self, rfl⟩
      · exact ⟨p, List.mem_append_right _ (List.mem_cons_of_mem _ hp), rfl⟩
  | full expected heq fresh pending => exact ⟨p, pending ▸ hp, rfl⟩
  | appended expected heq fresh pending =>
    rw [pending]
    exact ⟨p, List.mem_append_left _ hp, rfl⟩

/-- The entries after a status: those that wait, and those that are sent again. -/
theorem mem_verify {p' : PendingCommand} : p' ∈ (t.verify status now).2.pending ↔
    ∃ p ∈ t.pending, verdict status now p = .waiting ∧ p' = p ∨
      verdict status now p = .retry ∧ p' = { p with retries := p.retries + 1, sentAt := now } := by
  unfold verify
  rw [List.mem_filterMap]
  constructor
  · rintro ⟨p, hp, hp'⟩
    refine ⟨p, hp, ?_⟩
    split at hp'
    · cases hp'
    · cases hp'
    · rename_i hverdict
      exact .inr ⟨hverdict, (Option.some.inj hp').symm⟩
    · rename_i hverdict
      exact .inl ⟨hverdict, (Option.some.inj hp').symm⟩
  · rintro ⟨q, hq, ⟨hverdict, rfl⟩ | ⟨hverdict, rfl⟩⟩ <;> exact ⟨_, hq, by rw [hverdict]⟩

/-- The commands that a status finds timed out. -/
theorem mem_verify_retries : cmd ∈ (t.verify status now).1 ↔
    ∃ p ∈ t.pending, verdict status now p = .retry ∧ p.command = cmd := by
  unfold verify
  simp only [List.mem_map, List.mem_reverse, List.mem_filter, decide_eq_true_eq, and_assoc]

/-- A command is confirmed exactly if the status shows what is expected. -/
theorem verdict_eq_confirmed :
    verdict status now p = .confirmed ↔ isConfirmed p.expected status = true := by
  unfold verdict
  constructor
  · intro h
    split_ifs at h with hconf
    exact hconf
  · exact fun h => if_pos h

/-- What waits or is sent again is not confirmed. -/
theorem not_confirmed_of_verdict
    (h : verdict status now p = .waiting ∨ verdict status now p = .retry) :
    isConfirmed p.expected status = false := by
  by_contra hconf
  rw [verdict_eq_confirmed.2 (eq_true_of_ne_false hconf)] at h
  rcases h with h | h <;> cases h

/-- What is sent again has timed out. -/
theorem elapsed_of_verdict_retry (h : verdict status now p = .retry) :
    commandAckTimeoutMs ≤ elapsedSince now p.sentAt := by
  unfold verdict at h
  split_ifs at h with _ htimeout
  exact htimeout

/-- It is a matter of the pending entries only. -/
theorem WellFormed.of_pending {t' : CommandTracker} (h : t.WellFormed)
    (hp : t'.pending = t.pending) :
    t'.WellFormed := fun p hmem => h p (hp ▸ hmem)

/-- A new tracker is well formed. -/
theorem WellFormed.new : WellFormed new := fun _ hp => absurd hp List.not_mem_nil

/-- Tracking keeps the tracker well formed. -/
theorem WellFormed.track (h : t.WellFormed) (cmd : Command) (status : StatusUpdate)
    (now : Timestamp) :
    (t.track cmd status now).WellFormed := by
  intro p hp
  rcases mem_track hp with ⟨rfl, hexpected⟩ | hp
  · exact ⟨status, hexpected⟩
  · exact h p hp

/-- Verifying keeps the tracker well formed. -/
theorem WellFormed.verify (h : t.WellFormed) (status : StatusUpdate) (now : Timestamp) :
    (t.verify status now).2.WellFormed := by
  intro p' hp'
  obtain ⟨p, hp, ⟨-, rfl⟩ | ⟨-, rfl⟩⟩ := mem_verify.1 hp'
  · exact h p' hp
  · exact h p hp

/-- An entry has the command that its expected change asks for. -/
theorem WellFormed.command (h : t.WellFormed) (hp : p ∈ t.pending) :
    p.expected.command = p.command := by
  obtain ⟨status, hstatus⟩ := h p hp
  exact ExpectedChange.command_of_fromCommand hstatus

/-! ## The retries that are left -/

/-- The retries that an entry has left, if it is of the command. -/
def retriesLeft (cmd : Command) (p : PendingCommand) : ℕ :=
  if p.command = cmd then maxCommandRetries.toNat - p.retries.toNat else 0

/-- The retries that all entries of the command have left. -/
def budget (t : CommandTracker) (cmd : Command) : ℕ := (t.pending.map (retriesLeft cmd)).sum

/-- An entry that is sent again has one retry less. -/
theorem retriesLeft_retry (h : verdict status now p = .retry) (cmd : Command) :
    retriesLeft cmd { p with retries := p.retries + 1, sentAt := now } + [p.command].count cmd =
      retriesLeft cmd p := by
  -- An entry is sent again only while it has retries left.
  have hlt : p.retries.toNat < 2 := by
    unfold verdict at h
    split_ifs at h with _ _ hlt
    exact UInt8.lt_iff_toNat_lt.1 hlt
  have hsucc : (p.retries + 1).toNat = p.retries.toNat + 1 := by
    rw [UInt8.toNat_add]
    exact Nat.mod_eq_of_lt (show p.retries.toNat + 1 < 256 by omega)
  have hmax : maxCommandRetries.toNat = 2 := rfl
  unfold retriesLeft
  rw [List.count_singleton]
  by_cases hcmd : p.command = cmd
  · rw [if_pos hcmd, if_pos hcmd, if_pos (beq_iff_eq.2 hcmd), hsucc, hmax]
    omega
  · rw [if_neg hcmd, if_neg hcmd, if_neg (mt beq_iff_eq.1 hcmd)]

/-- The commands that a status has sent again are paid for by the retries that were left. -/
theorem budget_verify (t : CommandTracker) (cmd : Command) (status : StatusUpdate)
    (now : Timestamp) :
    (t.verify status now).2.budget cmd + (t.verify status now).1.count cmd ≤ t.budget cmd := by
  obtain ⟨pending, droppedCount, retryCount⟩ := t
  unfold budget verify
  dsimp only
  rw [List.map_reverse, List.count_reverse]
  induction pending with
  | nil => exact Nat.le_refl 0
  | cons p pending ih =>
    rw [List.filterMap_cons, List.filter_cons, List.map_cons, List.sum_cons]
    cases hverdict : verdict status now p with
    -- The entry pays for the command that is queued again.
    | retry =>
      have hpaid := retriesLeft_retry hverdict cmd
      rw [if_pos (decide_eq_true rfl), List.map_cons, List.map_cons, List.sum_cons,
        ← List.singleton_append, List.count_append]
      omega
    | waiting =>
      rw [if_neg (by decide), List.map_cons, List.sum_cons]
      omega
    -- An entry that goes takes its retries along.
    | confirmed =>
      rw [if_neg (by decide)]
      exact Nat.le_trans ih (Nat.le_add_left _ _)
    | dropped =>
      rw [if_neg (by decide)]
      exact Nat.le_trans ih (Nat.le_add_left _ _)

/-- An entry that is updated was of the command already, and keeps its retries. -/
theorem WellFormed.map_retriesLeft (h : t.WellFormed) {before after : List PendingCommand}
    (heq : ExpectedChange.fromCommand cmd status = some expected) (hsame : p.expected = expected)
    (hfound : t.pending = before ++ p :: after) (cmd' : Command) (now : Timestamp) :
    (before ++ { p with command := cmd, sentAt := now } :: after).map (retriesLeft cmd') =
      t.pending.map (retriesLeft cmd') := by
  have hp : p ∈ t.pending := hfound ▸ List.mem_append_right _ List.mem_cons_self
  have hcommand : p.command = cmd :=
    (h.command hp).symm.trans (hsame ▸ ExpectedChange.command_of_fromCommand heq)
  have hleft : retriesLeft cmd' { p with command := cmd, sentAt := now } = retriesLeft cmd' p := by
    unfold retriesLeft
    rw [hcommand]
  rw [hfound, List.map_append, List.map_append, List.map_cons, List.map_cons, hleft]

/-- A command that is tracked has its retries, and another one none. -/
theorem WellFormed.budget_track (h : t.WellFormed) (cmd cmd' : Command) (status : StatusUpdate)
    (now : Timestamp) : (t.track cmd status now).budget cmd' ≤
      t.budget cmd' + if cmd = cmd' then maxCommandRetries.toNat else 0 := by
  unfold budget
  cases t.track_cases cmd status now with
  | untracked expected pending =>
    rw [pending]
    exact Nat.le_add_right _ _
  | updated expected before q after heq hsame found pending =>
    rw [pending, h.map_retriesLeft heq hsame found]
    exact Nat.le_add_right _ _
  | full expected heq fresh pending =>
    rw [pending]
    exact Nat.le_add_right _ _
  | appended expected heq fresh pending =>
    rw [pending, List.map_append, List.sum_append]
    exact Nat.le_refl _

/-- A command that an entry waits for already has no more retries. -/
theorem WellFormed.budget_track_of_mem (h : t.WellFormed) (hp : p ∈ t.pending)
    (hexpected : ExpectedChange.fromCommand cmd status = some p.expected) (now : Timestamp) :
    (t.track cmd status now).budget cmd = t.budget cmd := by
  unfold budget
  cases t.track_cases cmd status now with
  | untracked expected pending => rw [pending]
  | updated expected before q after heq hsame found pending =>
    rw [pending, h.map_retriesLeft heq hsame found]
  | full expected heq fresh pending => rw [pending]
  | appended expected heq fresh pending =>
    exact absurd (Option.some.inj (hexpected.symm.trans heq)) (fresh p hp)

end CommandTracker

end Launa.Core
