import Launa.Core.CommandEffects
import Launa.Core.Tracking
import Launa.Lib.Run
import Mathlib.Algebra.Order.BigOperators.Group.List

/-!
# Commands that are sent again

A toggle or a temperature is sent once for the command of the user, or of the hold timer, and once
for each retry. A retransmission is queued, and its entry can be gone before it is sent: then it is
tracked afresh, with retries of its own. As long as no status confirms or drops a command of which a
retransmission is queued (`InTime`), each one accepted is sent three times at most, and none is sent
again after it is confirmed (`retransmissions_bounded`). The proof counts what is still due: three
frames for a command that is queued, one for a retransmission, and the retries left of an entry.
-/

namespace Launa.Core

open Protocol Run

namespace SpaApp

/-- The index of the queued `SetTemperature` that the user's command replaces. -/
def replacedIndex (queue : List Command) (user : Command) : Option ℕ :=
  if isSetTemperature user then queue.findIdx? isSetTemperature else none

/-- The commands that a call queues, the retransmissions apart: those of the user, and those of the
timers at a status. -/
def added (self : SpaApp) (c : Timestamp × AppCall) : List Command :=
  let queue := (self.step c).commandQueue
  match c.2 with
  | .onMqttCommand user =>
    match replacedIndex self.commandQueue user with
    | some _ => [user]
    | none => queue.drop self.commandQueue.length
  | call =>
    match self.heardStatus call with
    | some status =>
      queue.drop (self.commandQueue.length + (self.cmdTracker.verify status c.1).1.length)
    | none => []

/-- What a run has queued, sent and accepted of a command. -/
structure CommandLedger (cmd : Command) where
  app : SpaApp
  /-- The queue, and of each command whether it is a retransmission. -/
  marked : List (Command × Bool)
  /-- The frames that carry the command. -/
  sent : ℕ
  /-- How often the command was accepted: of the user, and for hold mode of its timer. -/
  accepted : ℕ

namespace CommandLedger

variable {cmd : Command}

/-- The ledger of a new app. -/
def start (cmd : Command) (now : Timestamp) (clientHash : ClientHash) : CommandLedger cmd :=
  ⟨.withClientHash now clientHash, [], 0, 0⟩

variable (ledger : CommandLedger cmd)

/-- The queue after a call. A command that the user replaces is no retransmission any more, and one
that the user cancels out is gone. -/
def markedAfter (c : Timestamp × AppCall) : List (Command × Bool) :=
  let new := (ledger.app.added c).map fun cmd => (cmd, false)
  match c.2 with
  | .onMqttCommand user =>
    match replacedIndex ledger.app.commandQueue user with
    | some i => ledger.marked.set i (user, false)
    | none =>
      if (cancelToggle ledger.app.commandQueue user).isSome then
        ledger.marked.eraseP fun m => m.1 = user
      else ledger.marked ++ new
  | call =>
    match ledger.app.heardStatus call with
    | some status =>
      ledger.marked ++ (ledger.app.cmdTracker.verify status c.1).1.map (·, true) ++ new
    | none =>
      if (ledger.app.takenCommand call).isSome then ledger.marked.tail
      else ledger.marked.take (ledger.app.step c).commandQueue.length

/-- The ledger after a call. -/
def step (c : Timestamp × AppCall) : CommandLedger cmd where
  app := ledger.app.step c
  marked := ledger.markedAfter c
  sent := ledger.sent + (sends (ledger.app.call c.1 c.2).1).countP fun bytes => Carries cmd bytes
  accepted := ledger.accepted + (ledger.app.added c).count cmd

/-- The call sends the command as a retransmission, or not as one. -/
def SendsMarked (c : Timestamp × AppCall) (resent : Bool) : Prop :=
  ledger.app.takenCommand c.2 = some cmd ∧ ledger.marked.head? = some (cmd, resent)

/-- A status confirms the command: its entry is removed. -/
def Confirms (c : Timestamp × AppCall) : Prop :=
  ∃ status ∈ ledger.app.heardStatus c.2, ∃ p ∈ ledger.app.cmdTracker.pending,
    p.command = cmd ∧ CommandTracker.verdict status c.1 p = .confirmed

/-- No status confirms or drops the command while a retransmission of it is queued. -/
def InTime (c : Timestamp × AppCall) : Prop :=
  ∀ status ∈ ledger.app.heardStatus c.2, (cmd, true) ∈ ledger.marked →
    ∀ p ∈ ledger.app.cmdTracker.pending, p.command = cmd →
      CommandTracker.verdict status c.1 p ≠ .confirmed ∧
        CommandTracker.verdict status c.1 p ≠ .dropped

instance (ledger : CommandLedger cmd) (c : Timestamp × AppCall) (resent : Bool) :
    Decidable (ledger.SendsMarked c resent) :=
  inferInstanceAs (Decidable (ledger.app.takenCommand c.2 = some cmd ∧
    ledger.marked.head? = some (cmd, resent)))

instance (ledger : CommandLedger cmd) : DecidablePred ledger.Confirms := fun c =>
  inferInstanceAs (Decidable (∃ status ∈ ledger.app.heardStatus c.2,
    ∃ p ∈ ledger.app.cmdTracker.pending,
      p.command = cmd ∧ CommandTracker.verdict status c.1 p = .confirmed))

instance (ledger : CommandLedger cmd) : DecidablePred ledger.InTime := fun c =>
  inferInstanceAs (Decidable (∀ status ∈ ledger.app.heardStatus c.2, (cmd, true) ∈ ledger.marked →
    ∀ p ∈ ledger.app.cmdTracker.pending, p.command = cmd →
      CommandTracker.verdict status c.1 p ≠ .confirmed ∧
        CommandTracker.verdict status c.1 p ≠ .dropped))

/-- The frames that are due for a queued command, if it is this one. -/
def due (cmd : Command) (m : Command × Bool) : ℕ :=
  if m.1 = cmd then if m.2 then 1 else 1 + maxCommandRetries.toNat else 0

/-- Every entry expects the change that its command makes of the last status; a retransmission is
queued only with an entry; and the frames sent and due are those of the commands accepted. -/
structure Bounded (ledger : CommandLedger cmd) : Prop where
  wellFormed : ledger.app.cmdTracker.WellFormed
  idle : ledger.app.pumpTimers.Idle
  expected : ∀ p ∈ ledger.app.cmdTracker.pending, ∃ status, ledger.app.lastStatus = some status ∧
    ExpectedChange.fromCommand p.command status = some p.expected
  queued : ledger.marked.map Prod.fst = ledger.app.commandQueue
  resent : (cmd, true) ∈ ledger.marked → ∃ p ∈ ledger.app.cmdTracker.pending, p.command = cmd
  paid : ledger.sent + (ledger.marked.map (due cmd)).sum + ledger.app.cmdTracker.budget cmd ≤
    (1 + maxCommandRetries.toNat) * ledger.accepted

variable {ledger}

/-- A new app has sent and accepted nothing. -/
theorem bounded_start (cmd : Command) (now : Timestamp) (clientHash : ClientHash) :
    (start cmd now clientHash).Bounded where
  wellFormed := .new
  idle := PumpTimerManager.idle_new
  expected := fun _ hp => absurd hp List.not_mem_nil
  queued := rfl
  resent := fun hmem => absurd hmem List.not_mem_nil
  paid := Nat.zero_le _

/-! ## What is due -/

/-- A retransmission that is queued has its own frame due. -/
@[simp] theorem due_resent (cmd : Command) : due cmd (cmd, true) = 1 := if_pos rfl

/-- A command that is queued has its own frame and its retransmissions due. -/
@[simp] theorem due_fresh (cmd : Command) :
    due cmd (cmd, false) = 1 + maxCommandRetries.toNat := if_pos rfl

/-- Nothing is due for another command. -/
theorem due_of_ne {m : Command × Bool} (h : m.1 ≠ cmd) : due cmd m = 0 := if_neg h

/-- Commands that are queued with the same mark have the same number of frames due. -/
theorem sum_due_map (cmd : Command) (cmds : List Command) (resent : Bool) :
    ((cmds.map (·, resent)).map (due cmd)).sum = due cmd (cmd, resent) * cmds.count cmd := by
  induction cmds with
  | nil => rfl
  | cons c cmds ih =>
    rw [List.map_cons, List.map_cons, List.sum_cons, ih, List.count_cons, Nat.mul_add,
      Nat.add_comm]
    by_cases hc : c = cmd
    · rw [hc, if_pos (beq_self_eq_true cmd), Nat.mul_one]
    · rw [if_neg (mt beq_iff_eq.1 hc), due_of_ne (m := (c, resent)) hc,
        Nat.mul_zero]

/-- A command that takes the place of another one adds its own frames at most. -/
theorem sum_due_set (cmd : Command) (marked : List (Command × Bool)) (i : ℕ) (m : Command × Bool) :
    ((marked.set i m).map (due cmd)).sum ≤ (marked.map (due cmd)).sum + due cmd m := by
  induction marked generalizing i with
  | nil => exact Nat.zero_le _
  | cons m' marked ih =>
    cases i with
    | zero =>
      simp only [List.set_cons_zero, List.map_cons, List.sum_cons]
      omega
    | succ i =>
      have := ih i
      simp only [List.set_cons_succ, List.map_cons, List.sum_cons]
      omega

/-- Fewer commands have no more frames due. -/
theorem sum_due_le_of_sublist (cmd : Command) {marked marked' : List (Command × Bool)}
    (h : marked'.Sublist marked) : (marked'.map (due cmd)).sum ≤ (marked.map (due cmd)).sum :=
  (h.map _).sum_le_sum fun _ _ => Nat.zero_le _

/-- Of commands that are queued as no retransmissions, none is one. -/
theorem not_mem_map_false {cmds : List Command} : (cmd, true) ∉ cmds.map (·, false) := by
  intro hmem
  obtain ⟨c, -, hc⟩ := List.mem_map.1 hmem
  exact Bool.false_ne_true (Prod.mk.inj hc).2

/-! ## Calls of the user -/

/-- Frames that neither toggle nor set a temperature are not counted. -/
theorem countP_carries_eq_zero {frames : List (List UInt8)} (h : ∀ bytes ∈ frames, IsOther bytes) :
    frames.countP (fun bytes => Carries cmd bytes) = 0 :=
  List.countP_eq_zero.2 fun bytes hb => by
    rw [decide_eq_true_eq]
    exact (h bytes hb).not_carries

/-- A call that leaves the pending entries keeps the bound, if it takes or pays what it queues. -/
theorem Bounded.of_pending (h : ledger.Bounded) {ledger' : CommandLedger cmd}
    (hpending : ledger'.app.cmdTracker.pending = ledger.app.cmdTracker.pending)
    (hstatus : ledger'.app.lastStatus = ledger.app.lastStatus)
    (htimers : ledger'.app.pumpTimers = ledger.app.pumpTimers)
    (hqueued : ledger'.marked.map Prod.fst = ledger'.app.commandQueue)
    (hresent : (cmd, true) ∈ ledger'.marked → (cmd, true) ∈ ledger.marked)
    (hpaid : ledger'.sent + (ledger'.marked.map (due cmd)).sum +
        (1 + maxCommandRetries.toNat) * ledger.accepted ≤
      ledger.sent + (ledger.marked.map (due cmd)).sum +
        (1 + maxCommandRetries.toNat) * ledger'.accepted) :
    ledger'.Bounded where
  wellFormed := h.wellFormed.of_pending hpending
  idle := htimers ▸ h.idle
  expected := by
    rw [hpending, hstatus]
    exact h.expected
  queued := hqueued
  resent := fun hmem => by
    rw [hpending]
    exact h.resent (hresent hmem)
  paid := by
    have hbudget : ledger'.app.cmdTracker.budget cmd = ledger.app.cmdTracker.budget cmd := by
      unfold CommandTracker.budget
      rw [hpending]
    have := h.paid
    omega

/-- What the user's command does to the marks: it takes the place of a `SetTemperature`, or cancels
out a toggle, or what it adds is appended. -/
theorem markedAfter_user (ledger : CommandLedger cmd) (now : Timestamp) (user : Command) :
    (∃ i, ledger.markedAfter (now, .onMqttCommand user) = ledger.marked.set i (user, false) ∧
        ledger.app.added (now, .onMqttCommand user) = [user] ∧
        (ledger.app.onMqttCommand user).2.commandQueue = ledger.app.commandQueue.set i user) ∨
      (ledger.markedAfter (now, .onMqttCommand user) =
          ledger.marked.eraseP (fun m => m.1 = user) ∧
        ledger.app.added (now, .onMqttCommand user) = [] ∧
        (ledger.app.onMqttCommand user).2.commandQueue = ledger.app.commandQueue.erase user) ∨
      ledger.markedAfter (now, .onMqttCommand user) =
          ledger.marked ++ (ledger.app.added (now, .onMqttCommand user)).map (·, false) ∧
        (ledger.app.onMqttCommand user).2.commandQueue =
          ledger.app.commandQueue ++ ledger.app.added (now, .onMqttCommand user) := by
  have hstep : ledger.app.step (now, .onMqttCommand user) = (ledger.app.onMqttCommand user).2 := rfl
  cases (ledger.app.onMqttCommand_commands user).1 with
  | replaced i temp eq found result =>
    have hindex : replacedIndex ledger.app.commandQueue user = some i := by
      subst eq
      exact (if_pos rfl).trans found
    refine .inl ⟨i, ?_, ?_, result⟩
    · simp only [markedAfter, hindex]
    · simp only [added, hindex]
  | cancelled item eq queued result =>
    have hindex : replacedIndex ledger.app.commandQueue user = none := by rw [eq]; rfl
    have hcancel : (cancelToggle ledger.app.commandQueue user).isSome := by
      subst eq
      rw [cancelToggle, if_pos queued]
      rfl
    refine .inr (.inl ⟨?_, ?_, result⟩)
    · simp only [markedAfter, hindex, if_pos hcancel]
    · simp only [added, hindex, hstep, result]
      exact List.drop_of_length_le List.length_erase_le
  | appended mode last toggle temperature mode_eq last_eq result =>
    have hindex : replacedIndex ledger.app.commandQueue user = none := by
      cases user with
      | setTemperature temp =>
        exact (if_pos rfl).trans (List.findIdx?_eq_none_iff.2 (temperature temp rfl))
      | _ => rfl
    have hcancel : ¬ (cancelToggle ledger.app.commandQueue user).isSome := by
      cases user with
      | toggleItem item =>
        exact Bool.eq_false_iff.1 (by rw [cancelToggle, if_neg (toggle item rfl)]; rfl)
      | _ => exact Bool.false_ne_true
    have hadded : ledger.app.added (now, .onMqttCommand user) = mode ++ last := by
      simp only [added, hindex, hstep, result, List.append_assoc, List.drop_left]
    refine .inr (.inr ⟨?_, ?_⟩)
    · simp only [markedAfter, hindex, if_neg hcancel]
    · rw [hadded, result, List.append_assoc]

/-- The user's command sends nothing. -/
theorem sent_onMqttCommand (now : Timestamp) (user : Command) :
    (ledger.step (now, .onMqttCommand user)).sent = ledger.sent := by
  show ledger.sent + (sends (ledger.app.onMqttCommand user).1).countP _ = ledger.sent
  rw [(ledger.app.onMqttCommand_commands user).2.2.2.2]
  rfl

/-- The user's command keeps the bound: all that is due of it is paid for by its being accepted. -/
theorem Bounded.onMqttCommand (h : ledger.Bounded) (now : Timestamp) (user : Command) :
    (ledger.step (now, .onMqttCommand user)).Bounded := by
  obtain ⟨-, hpending, hstatus, htimers, -⟩ := ledger.app.onMqttCommand_commands user
  have hsent := ledger.sent_onMqttCommand now user
  have haccepted : (ledger.step (now, .onMqttCommand user)).accepted =
      ledger.accepted + (ledger.app.added (now, .onMqttCommand user)).count cmd := rfl
  have hmarks : (ledger.step (now, .onMqttCommand user)).marked =
    ledger.markedAfter (now, .onMqttCommand user) := rfl
  have hqueue : (ledger.step (now, .onMqttCommand user)).app.commandQueue =
    (ledger.app.onMqttCommand user).2.commandQueue := rfl
  rcases ledger.markedAfter_user now user with
    ⟨i, hmarked, hadded, hresult⟩ | ⟨hmarked, hadded, hresult⟩ | ⟨hmarked, hresult⟩
  -- It takes the place of a temperature, for which nothing is due any more.
  · refine h.of_pending hpending hstatus htimers ?_ (fun hmem => ?_) ?_
    · rw [hmarks, hmarked, hqueue, hresult, List.map_set, h.queued]
    · rw [hmarks, hmarked] at hmem
      rcases List.mem_or_eq_of_mem_set hmem with hmem | heq
      · exact hmem
      · exact absurd (Prod.mk.inj heq).2 Bool.false_ne_true.symm
    · have hsum := sum_due_set cmd ledger.marked i (user, false)
      have huser := sum_due_map cmd [user] false
      rw [List.map_singleton, List.map_singleton, List.sum_singleton, due_fresh] at huser
      rw [hmarks, hmarked, hsent, haccepted, hadded, Nat.mul_add]
      omega
  -- It cancels out a toggle.
  · refine h.of_pending hpending hstatus htimers ?_ (fun hmem => ?_) ?_
    · rw [hmarks, hmarked, hqueue, hresult, ← h.queued, List.erase_eq_eraseP, List.eraseP_map]
      congr 2
      funext m
      simp only [Function.comp_apply, beq_eq_decide, eq_comm]
    · rw [hmarks, hmarked] at hmem
      exact List.mem_of_mem_eraseP hmem
    · have hsum := sum_due_le_of_sublist cmd
        (List.eraseP_sublist (p := fun m : Command × Bool => m.1 = user) (l := ledger.marked))
      rw [hmarks, hmarked, hsent, haccepted, hadded]
      exact Nat.add_le_add_right (Nat.add_le_add_left hsum _) _
  -- It is appended, with three frames due.
  · refine h.of_pending hpending hstatus htimers ?_ (fun hmem => ?_) ?_
    · rw [hmarks, hmarked, hqueue, hresult, List.map_append, h.queued, List.map_map]
      exact congrArg _ (List.map_id _)
    · rw [hmarks, hmarked] at hmem
      exact (List.mem_append.1 hmem).resolve_right not_mem_map_false
    · rw [hmarks, hmarked, hsent, haccepted, List.map_append, List.sum_append, sum_due_map,
        due_fresh, Nat.mul_add]
      omega

/-! ## Statuses -/

/-- Which commands a status queues. -/
theorem added_of_heard {app : SpaApp} {c : Timestamp × AppCall} {status : StatusUpdate}
    (hmqtt : ∀ user, c.2 ≠ .onMqttCommand user) (hheard : app.heardStatus c.2 = some status) :
    app.added c = (app.step c).commandQueue.drop
      (app.commandQueue.length + (app.cmdTracker.verify status c.1).1.length) := by
  obtain ⟨now, c⟩ := c
  cases c with
  | onMqttCommand user => exact absurd rfl (hmqtt user)
  | processFrame frame => simp only [added, hheard]
  | _ => cases hheard

/-- Another call queues none. -/
theorem added_of_not_heard {app : SpaApp} {c : Timestamp × AppCall}
    (hmqtt : ∀ user, c.2 ≠ .onMqttCommand user) (hheard : app.heardStatus c.2 = none) :
    app.added c = [] := by
  obtain ⟨now, c⟩ := c
  cases c with
  | onMqttCommand user => exact absurd rfl (hmqtt user)
  | processFrame frame => simp only [added, hheard]
  | _ => rfl

/-- The queue after a status: what has timed out is appended, and then what the status adds. -/
theorem markedAfter_of_heard {c : Timestamp × AppCall} {status : StatusUpdate}
    (hmqtt : ∀ user, c.2 ≠ .onMqttCommand user)
    (hheard : ledger.app.heardStatus c.2 = some status) :
    ledger.markedAfter c = ledger.marked ++
      (ledger.app.cmdTracker.verify status c.1).1.map (·, true) ++
        (ledger.app.added c).map (·, false) := by
  obtain ⟨now, c⟩ := c
  cases c with
  | onMqttCommand user => exact absurd rfl (hmqtt user)
  | processFrame frame => simp only [markedAfter, hheard]
  | _ => cases hheard

/-- The queue after another call: the command that is taken is gone, or the commands dropped. -/
theorem markedAfter_of_not_heard {c : Timestamp × AppCall}
    (hmqtt : ∀ user, c.2 ≠ .onMqttCommand user) (hheard : ledger.app.heardStatus c.2 = none) :
    ledger.markedAfter c =
      if (ledger.app.takenCommand c.2).isSome then ledger.marked.tail
      else ledger.marked.take (ledger.app.step c).commandQueue.length := by
  obtain ⟨now, c⟩ := c
  cases c with
  | onMqttCommand user => exact absurd rfl (hmqtt user)
  | processFrame frame => simp only [markedAfter, hheard]
  | _ => rfl

/-- The entries that are still pending after a status expect their change of it. -/
theorem Bounded.expected_verify (h : ledger.Bounded) (status : StatusUpdate) (now : Timestamp) :
    ∀ p ∈ (ledger.app.cmdTracker.verify status now).2.pending,
      ExpectedChange.fromCommand p.command status = some p.expected := by
  intro p' hp'
  obtain ⟨p, hp, hverdict⟩ := CommandTracker.mem_verify.1 hp'
  obtain ⟨status', -, hexpected⟩ := h.expected p hp
  -- What is still pending is not confirmed, so its change is that of this status.
  have hunconfirmed : CommandTracker.isConfirmed p.expected status = false :=
    CommandTracker.not_confirmed_of_verdict (hverdict.imp And.left And.left)
  have hexpected' := ExpectedChange.fromCommand_of_not_confirmed hexpected hunconfirmed
  rcases hverdict with ⟨-, rfl⟩ | ⟨-, rfl⟩ <;> exact hexpected'

/-- An entry that is neither confirmed nor dropped stays, for its command. -/
theorem exists_mem_verify {t : CommandTracker} {p : PendingCommand} {status : StatusUpdate}
    {now : Timestamp} (hp : p ∈ t.pending)
    (hverdict : CommandTracker.verdict status now p = .waiting ∨
      CommandTracker.verdict status now p = .retry) :
    ∃ p' ∈ (t.verify status now).2.pending, p'.command = p.command := by
  rcases hverdict with hverdict | hverdict
  · exact ⟨p, CommandTracker.mem_verify.2 ⟨p, hp, .inl ⟨hverdict, rfl⟩⟩, rfl⟩
  · exact ⟨_, CommandTracker.mem_verify.2 ⟨p, hp, .inr ⟨hverdict, rfl⟩⟩, rfl⟩

/-- A retransmission that is queued after a status in time has its entry. -/
theorem Bounded.resent_verify (h : ledger.Bounded) {c : Timestamp × AppCall} {status : StatusUpdate}
    (hc : ledger.InTime c) (hheard : ledger.app.heardStatus c.2 = some status)
    (hmem : (cmd, true) ∈ ledger.marked ∨ cmd ∈ (ledger.app.cmdTracker.verify status c.1).1) :
    ∃ p ∈ (ledger.app.cmdTracker.verify status c.1).2.pending, p.command = cmd := by
  rcases hmem with hmem | hretry
  · obtain ⟨p, hp, hcommand⟩ := h.resent hmem
    obtain ⟨hconfirmed, hdropped⟩ := hc status hheard hmem p hp hcommand
    have hstays : CommandTracker.verdict status c.1 p = .waiting ∨
        CommandTracker.verdict status c.1 p = .retry := by
      cases hverdict : CommandTracker.verdict status c.1 p with
      | confirmed => exact absurd hverdict hconfirmed
      | dropped => exact absurd hverdict hdropped
      | waiting => exact .inl rfl
      | retry => exact .inr rfl
    obtain ⟨p', hp', heq⟩ := exists_mem_verify hp hstays
    exact ⟨p', hp', heq.trans hcommand⟩
  · obtain ⟨p, hp, hverdict, hcommand⟩ := CommandTracker.mem_verify_retries.1 hretry
    obtain ⟨p', hp', heq⟩ := exists_mem_verify hp (.inr hverdict)
    exact ⟨p', hp', heq.trans hcommand⟩

/-- A command that is queued as a retransmission at a status was one before, or has timed out. -/
theorem mem_markedAfter_of_heard {c : Timestamp × AppCall} {status : StatusUpdate}
    (hmqtt : ∀ user, c.2 ≠ .onMqttCommand user)
    (hheard : ledger.app.heardStatus c.2 = some status)
    (hmem : (cmd, true) ∈ ledger.markedAfter c) :
    (cmd, true) ∈ ledger.marked ∨ cmd ∈ (ledger.app.cmdTracker.verify status c.1).1 := by
  rw [markedAfter_of_heard hmqtt hheard, List.mem_append, List.mem_append] at hmem
  rcases hmem with (hmem | hmem) | hmem
  · exact .inl hmem
  · obtain ⟨retry, hretry, heq⟩ := List.mem_map.1 hmem
    exact .inr ((Prod.mk.inj heq).1 ▸ hretry)
  · exact absurd hmem not_mem_map_false

section Heard

variable {c : Timestamp × AppCall} {status : StatusUpdate}
variable (hresult : ledger.app.call c.1 c.2 = ledger.app.onStatus c.1 status)
include hresult

/-- The state after a status. -/
theorem app_onStatus : (ledger.step c).app = (ledger.app.onStatus c.1 status).2 :=
  congrArg Prod.snd hresult

/-- The tracker after a status. -/
theorem tracker_onStatus :
    (ledger.step c).app.cmdTracker = (ledger.app.cmdTracker.verify status c.1).2 := by
  rw [app_onStatus hresult]
  rfl

/-- A status is answered with no frame. -/
theorem sent_onStatus : (ledger.step c).sent = ledger.sent := by
  show ledger.sent + (sends (ledger.app.call c.1 c.2).1).countP _ = ledger.sent
  rw [hresult]
  rfl

/-- What is queued when no pump is timed: the retransmissions, and the toggle of the hold timer. -/
theorem Bounded.queue_onStatus (h : ledger.Bounded) :
    (ledger.step c).app.commandQueue = ledger.app.commandQueue ++
      (ledger.app.cmdTracker.verify status c.1).1 ++
        (ledger.app.holdTimer.tick c.1 status.isHold).1.toList := by
  rw [app_onStatus hresult]
  unfold SpaApp.onStatus
  dsimp only
  rw [h.idle.tickAll c.1 status.pumps, List.append_nil]

/-- No pump is timed after a status either. -/
theorem Bounded.idle_onStatus (h : ledger.Bounded) : (ledger.step c).app.pumpTimers.Idle := by
  rw [app_onStatus hresult]
  unfold SpaApp.onStatus
  dsimp only
  rw [h.idle.tickAll c.1 status.pumps]
  exact h.idle

/-- The only command that a status adds is the toggle of the hold timer. -/
theorem Bounded.added_onStatus (h : ledger.Bounded) (hmqtt : ∀ user, c.2 ≠ .onMqttCommand user)
    (hheard : ledger.app.heardStatus c.2 = some status) :
    ledger.app.added c = (ledger.app.holdTimer.tick c.1 status.isHold).1.toList := by
  have hqueue : (ledger.app.step c).commandQueue = _ := h.queue_onStatus hresult
  rw [added_of_heard hmqtt hheard, hqueue, ← List.length_append, List.drop_left]

end Heard

/-- A status in time keeps the bound: what is queued again is paid for by the retries left. -/
theorem Bounded.onStatus (h : ledger.Bounded) {c : Timestamp × AppCall} {status : StatusUpdate}
    (hc : ledger.InTime c) (hmqtt : ∀ user, c.2 ≠ .onMqttCommand user)
    (hheard : ledger.app.heardStatus c.2 = some status)
    (hresult : ledger.app.call c.1 c.2 = ledger.app.onStatus c.1 status) :
    (ledger.step c).Bounded := by
  have htracker := tracker_onStatus hresult
  have hmarked : (ledger.step c).marked = _ := markedAfter_of_heard hmqtt hheard
  refine ⟨?_, h.idle_onStatus hresult, ?_, ?_, fun hmem => ?_, ?_⟩
  · rw [htracker]
    exact h.wellFormed.verify status c.1
  · rw [htracker, app_onStatus hresult]
    exact fun p hp => ⟨status, rfl, h.expected_verify status c.1 p hp⟩
  · rw [hmarked, h.queue_onStatus hresult, h.added_onStatus hresult hmqtt hheard]
    simp only [List.map_append, List.map_map, h.queued, Function.comp_def, List.map_id']
  · rw [htracker]
    exact h.resent_verify hc hheard (mem_markedAfter_of_heard hmqtt hheard hmem)
  -- Each retransmission spends one of the retries of its entry.
  · have hbudget := ledger.app.cmdTracker.budget_verify cmd status c.1
    have hpaid := h.paid
    have haccepted : (ledger.step c).accepted =
      ledger.accepted + (ledger.app.added c).count cmd := rfl
    have hmax : 1 + maxCommandRetries.toNat = 3 := rfl
    rw [hmarked, sent_onStatus hresult, haccepted, htracker, List.map_append, List.map_append,
      List.sum_append, List.sum_append, sum_due_map, sum_due_map, due_resent, due_fresh]
    rw [hmax] at hpaid ⊢
    omega

/-! ## Grants -/

/-- A retransmission keeps its entry when a command is tracked. -/
theorem Bounded.resent_track (h : ledger.Bounded) {t : CommandTracker} (hwell : t.WellFormed)
    {taken : Command} {now : Timestamp}
    (htracker : t = match ledger.app.lastStatus with
      | some preStatus => ledger.app.cmdTracker.track taken preStatus now
      | none => ledger.app.cmdTracker) (hmem : (cmd, true) ∈ ledger.marked) :
    ∃ p ∈ t.pending, p.command = cmd := by
  obtain ⟨p, hp, hcommand⟩ := h.resent hmem
  obtain ⟨p', hp', hexpected⟩ : ∃ p' ∈ t.pending, p'.expected = p.expected := by
    rw [htracker]
    split
    · exact CommandTracker.exists_mem_track hp _ _ _
    · exact ⟨p, hp, rfl⟩
  refine ⟨p', hp', ?_⟩
  rw [← hwell.command hp', hexpected, h.wellFormed.command hp, hcommand]

/-- A command that is sent was due: a retransmission is tracked by its entry, and another one has
the retries that it was due. -/
theorem Bounded.paid_track (h : ledger.Bounded) {t : CommandTracker} {m : Command × Bool}
    {marked : List (Command × Bool)} {now : Timestamp} (hmarked : ledger.marked = m :: marked)
    (htracker : t = match ledger.app.lastStatus with
      | some preStatus => ledger.app.cmdTracker.track m.1 preStatus now
      | none => ledger.app.cmdTracker) :
    ledger.sent + (if m.1 = cmd then 1 else 0) + (marked.map (due cmd)).sum + t.budget cmd ≤
      (1 + maxCommandRetries.toNat) * ledger.accepted := by
  have hpaid := h.paid
  rw [hmarked, List.map_cons, List.sum_cons] at hpaid
  have htrack : t.budget cmd ≤ ledger.app.cmdTracker.budget cmd +
      if m.1 = cmd then maxCommandRetries.toNat else 0 := by
    rw [htracker]
    split
    · exact h.wellFormed.budget_track _ _ _ _
    · exact Nat.le_add_right _ _
  by_cases hcmd : m.1 = cmd
  · obtain ⟨taken, resent⟩ := m
    obtain rfl : taken = cmd := hcmd
    rw [if_pos rfl] at htrack ⊢
    cases resent with
    | false =>
      rw [due_fresh] at hpaid
      omega
    | true =>
      -- Its entry is there, and expects what it changes of the last status.
      obtain ⟨p, hp, hcommand⟩ := h.resent (hmarked ▸ List.mem_cons_self)
      obtain ⟨preStatus, hlast, hexpected⟩ := h.expected p hp
      rw [hcommand] at hexpected
      have hsame : t.budget taken = ledger.app.cmdTracker.budget taken := by
        rw [htracker, hlast]
        exact h.wellFormed.budget_track_of_mem hp hexpected now
      rw [due_resent] at hpaid
      omega
  -- Another command is none of the frames, and its entry none of the retries.
  · rw [if_neg hcmd] at htrack ⊢
    omega

/-- A grant keeps the bound. -/
theorem Bounded.granted (h : ledger.Bounded) {ledger' : CommandLedger cmd} {now : Timestamp}
    {taken : Command} {queue : List Command} (hqueued : ledger.app.commandQueue = taken :: queue)
    (hqueue' : ledger'.app.commandQueue = queue)
    (hstatus : ledger'.app.lastStatus = ledger.app.lastStatus)
    (htracker : ledger'.app.cmdTracker = match ledger.app.lastStatus with
      | some preStatus => ledger.app.cmdTracker.track taken preStatus now
      | none => ledger.app.cmdTracker)
    (htimers : ledger'.app.pumpTimers = ledger.app.pumpTimers)
    (hmarked : ledger'.marked = ledger.marked.tail)
    (hsent : ledger'.sent ≤ ledger.sent + if taken = cmd then 1 else 0)
    (haccepted : ledger'.accepted = ledger.accepted) : ledger'.Bounded := by
  have hwell : ledger'.app.cmdTracker.WellFormed := by
    rw [htracker]
    split
    · exact h.wellFormed.track _ _ _
    · exact h.wellFormed
  refine ⟨hwell, htimers ▸ h.idle, ?_, ?_, fun hmem => ?_, ?_⟩
  · rw [htracker, hstatus]
    intro p hp
    split at hp
    -- A tracked command expects what it changes of the last status.
    · rename_i preStatus hlast
      rcases CommandTracker.mem_track hp with ⟨rfl, hexpected⟩ | hp
      · exact ⟨preStatus, hlast, hexpected⟩
      · exact h.expected p hp
    · exact h.expected p hp
  · rw [hmarked, hqueue', List.map_tail, h.queued, hqueued, List.tail_cons]
  · exact h.resent_track hwell htracker (List.mem_of_mem_tail (hmarked ▸ hmem))
  · cases hmark : ledger.marked with
    | nil =>
      have hnil := h.queued
      rw [hmark, hqueued] at hnil
      cases hnil
    | cons m marked =>
      have htaken : m.1 = taken := by
        have hhead := h.queued
        rw [hmark, hqueued, List.map_cons] at hhead
        exact (List.cons.inj hhead).1
      have hpaid := h.paid_track hmark (htaken ▸ htracker)
      rw [hmarked, hmark, List.tail_cons, haccepted]
      rw [htaken] at hpaid
      omega

/-! ## All calls -/

section Unheard

variable {now : Timestamp} {c : AppCall} (hmqtt : ∀ user, (now, c).2 ≠ .onMqttCommand user)
  (heard : ledger.app.heardStatus c = none)
include hmqtt heard

/-- A call that hears no status and takes no command drops marks with the queue. -/
theorem step_marked (taken : ledger.app.takenCommand c = none) : (ledger.step (now, c)).marked =
    ledger.marked.take (ledger.app.step (now, c)).commandQueue.length := by
  show ledger.markedAfter (now, c) = _
  rw [markedAfter_of_not_heard hmqtt heard, taken]
  rfl

/-- A call that hears no status accepts no command. -/
theorem step_accepted : (ledger.step (now, c)).accepted = ledger.accepted := by
  show ledger.accepted + (ledger.app.added (now, c)).count cmd = _
  rw [added_of_not_heard hmqtt heard]
  rfl

end Unheard

/-- Frames of other kinds leave the count. -/
theorem step_sent {now : Timestamp} {c : AppCall}
    (sent : ∀ bytes ∈ sends (ledger.app.call now c).1, IsOther bytes) :
    (ledger.step (now, c)).sent = ledger.sent := by
  show ledger.sent + (sends (ledger.app.call now c).1).countP _ = _
  rw [countP_carries_eq_zero sent, Nat.add_zero]

/-- A call that drops all commands keeps the bound. -/
theorem Bounded.dropped (h : ledger.Bounded) {ledger' : CommandLedger cmd}
    (hqueue : ledger'.app.commandQueue = []) (hpending : ledger'.app.cmdTracker.pending = [])
    (htimers : ledger'.app.pumpTimers.Idle) (hmarked : ledger'.marked = [])
    (hsent : ledger'.sent = ledger.sent) (haccepted : ledger'.accepted = ledger.accepted) :
    ledger'.Bounded where
  wellFormed p hp := by
    rw [hpending] at hp
    exact absurd hp List.not_mem_nil
  idle := htimers
  expected p hp := by
    rw [hpending] at hp
    exact absurd hp List.not_mem_nil
  queued := by
    rw [hmarked, hqueue]
    rfl
  resent hmem := by
    rw [hmarked] at hmem
    exact absurd hmem List.not_mem_nil
  paid := by
    rw [hmarked, hsent, haccepted, CommandTracker.budget, hpending]
    exact Nat.le_trans (Nat.le_add_right _ _) ((Nat.le_add_right _ _).trans h.paid)

/-- A call in time keeps the bound. -/
theorem Bounded.step (h : ledger.Bounded) {c : Timestamp × AppCall} (hc : ledger.InTime c)
    (htimer : ∀ pumpIndex minutes, c.2 ≠ .startPumpTimer pumpIndex minutes) :
    (ledger.step c).Bounded := by
  obtain ⟨now, c⟩ := c
  by_cases hmqtt : ∃ user, c = .onMqttCommand user
  · obtain ⟨user, rfl⟩ := hmqtt
    exact h.onMqttCommand now user
  have hmqtt : ∀ user, (now, c).2 ≠ .onMqttCommand user := fun user hcall => hmqtt ⟨user, hcall⟩
  cases ledger.app.call_commands now c with
  | submitted user hcall result => exact absurd hcall (hmqtt user)
  | pumpStarted pumpIndex minutes item hcall queue tracker status sent =>
    exact absurd hcall (htimer pumpIndex minutes)
  | observed status heard taken result => exact h.onStatus hc hmqtt heard result
  | granted taken queue heard htaken queued sent queue' status tracker timers =>
    refine h.granted queued queue' status tracker timers ?_ ?_ (step_accepted hmqtt heard)
    · show ledger.markedAfter (now, c) = _
      rw [markedAfter_of_not_heard hmqtt heard, htaken]
      rfl
    · show ledger.sent + (sends (ledger.app.call now c).1).countP _ ≤ _
      rw [sent, List.countP_singleton]
      refine Nat.add_le_add_left ?_ _
      by_cases hcarries : Carries cmd (encodeCommand taken)
      · rw [if_pos (carries_encodeCommand hcarries)]
        split <;> omega
      · rw [if_neg (by rwa [decide_eq_true_eq])]
        exact Nat.zero_le _
  | kept same heard taken sent =>
    have hlength : ledger.marked.length = (ledger.app.step (now, c)).commandQueue.length := by
      have hqueue : (ledger.app.step (now, c)).commandQueue = ledger.app.commandQueue := same.queue
      rw [hqueue, ← h.queued, List.length_map]
    have hmarked : (ledger.step (now, c)).marked = ledger.marked :=
      (step_marked hmqtt heard taken).trans (List.take_of_length_le (Nat.le_of_eq hlength))
    refine h.of_pending same.pending same.status same.timers ?_ (fun hmem => hmarked ▸ hmem) ?_
    · rw [hmarked, h.queued]
      exact same.queue.symm
    · rw [hmarked, step_sent sent, step_accepted hmqtt heard]
  | dropped queue pending status timers heard taken sent =>
    have hempty : (ledger.app.step (now, c)).commandQueue = [] := queue
    refine h.dropped queue pending timers ?_ (step_sent sent) (step_accepted hmqtt heard)
    rw [step_marked hmqtt heard taken, hempty, List.length_nil, List.take_zero]

/-! ## After a confirmation -/

/-- A retransmission was queued before, or it is queued again by a status. -/
theorem mem_marked_step {c : Timestamp × AppCall} (h : (cmd, true) ∈ (ledger.step c).marked) :
    (cmd, true) ∈ ledger.marked ∨ ∃ status ∈ ledger.app.heardStatus c.2,
      ∃ p ∈ ledger.app.cmdTracker.pending,
      p.command = cmd ∧ CommandTracker.verdict status c.1 p = .retry := by
  replace h : (cmd, true) ∈ ledger.markedAfter c := h
  by_cases hmqtt : ∃ user, c.2 = .onMqttCommand user
  · obtain ⟨now, c⟩ := c
    obtain ⟨user, rfl⟩ := hmqtt
    refine .inl ?_
    rcases ledger.markedAfter_user now user with ⟨i, hmarked, -⟩ | ⟨hmarked, -⟩ | ⟨hmarked, -⟩ <;>
      rw [hmarked] at h
    · rcases List.mem_or_eq_of_mem_set h with h | heq
      · exact h
      · exact absurd (Prod.mk.inj heq).2 Bool.false_ne_true.symm
    · exact List.mem_of_mem_eraseP h
    · exact (List.mem_append.1 h).resolve_right not_mem_map_false
  have hmqtt : ∀ user, c.2 ≠ .onMqttCommand user := fun user hcall => hmqtt ⟨user, hcall⟩
  cases hheard : ledger.app.heardStatus c.2 with
  | some status =>
    refine (mem_markedAfter_of_heard hmqtt hheard h).imp_right fun hretry => ?_
    obtain ⟨p, hp, hverdict, hcommand⟩ := CommandTracker.mem_verify_retries.1 hretry
    exact ⟨status, rfl, p, hp, hcommand, hverdict⟩
  | none =>
    refine .inl ?_
    rw [markedAfter_of_not_heard hmqtt hheard] at h
    split at h
    · exact List.mem_of_mem_tail h
    · exact List.mem_of_mem_take h

/-- An entry that is pending was pending and not confirmed, or it is taken from the queue. -/
theorem mem_pending_step {c : Timestamp × AppCall} {p' : PendingCommand}
    (hp' : p' ∈ (ledger.step c).app.cmdTracker.pending) :
    ledger.app.takenCommand c.2 = some p'.command ∨ ∃ p ∈ ledger.app.cmdTracker.pending,
      p.command = p'.command ∧ ∀ status ∈ ledger.app.heardStatus c.2,
        CommandTracker.verdict status c.1 p ≠ .confirmed := by
  obtain ⟨now, c⟩ := c
  -- A call that tells no status confirms nothing.
  have hsame : ledger.app.heardStatus c = none → p' ∈ ledger.app.cmdTracker.pending →
      ∃ p ∈ ledger.app.cmdTracker.pending, p.command = p'.command ∧
        ∀ status ∈ ledger.app.heardStatus c, CommandTracker.verdict status now p ≠ .confirmed := by
    intro heard hp
    refine ⟨p', hp, rfl, fun status hstatus => ?_⟩
    exact absurd (hstatus.symm.trans heard) (Option.some_ne_none _)
  cases ledger.app.call_commands now c with
  | observed status heard taken result =>
    have htracker : (ledger.step (now, c)).app.cmdTracker =
        (ledger.app.cmdTracker.verify status now).2 :=
      congrArg (fun r => r.2.cmdTracker) result
    rw [htracker] at hp'
    obtain ⟨p, hp, hverdict⟩ := CommandTracker.mem_verify.1 hp'
    refine .inr ⟨p, hp, ?_, fun status' hstatus => ?_⟩
    · rcases hverdict with ⟨-, rfl⟩ | ⟨-, rfl⟩ <;> rfl
    · obtain rfl : status = status' := Option.some.inj (heard.symm.trans hstatus)
      rcases hverdict with ⟨hverdict, -⟩ | ⟨hverdict, -⟩ <;> rw [hverdict] <;>
        exact CommandTracker.Verdict.noConfusion
  | granted cmd queue heard taken queued sent queue' status tracker timers =>
    have hmem : p'.command = cmd ∨ p' ∈ ledger.app.cmdTracker.pending := by
      rw [show (ledger.step (now, c)).app.cmdTracker = _ from tracker] at hp'
      split at hp'
      · exact (CommandTracker.mem_track hp').imp_left And.left
      · exact .inr hp'
    rcases hmem with hcommand | hmem
    · exact .inl (hcommand ▸ taken)
    · exact .inr (hsame heard hmem)
  | submitted cmd hcall result =>
    subst hcall
    have hpending : (ledger.app.onMqttCommand cmd).2.cmdTracker.pending = _ :=
      (SpaApp.onMqttCommand_commands _ cmd).2.1
    exact .inr (hsame rfl (hpending ▸ hp'))
  | pumpStarted pumpIndex minutes item' hcall queue tracker status sent =>
    subst hcall
    refine .inr (hsame rfl ?_)
    rw [← congrArg CommandTracker.pending tracker]
    exact hp'
  | kept same heard taken sent => exact .inr (hsame heard (same.pending ▸ hp'))
  | dropped queue pending status timers heard taken sent =>
    rw [show (ledger.step (now, c)).app.cmdTracker.pending = [] from pending] at hp'
    exact absurd hp' List.not_mem_nil

/-- The command is not pending, and no retransmission of it is queued. -/
def Quiet (ledger : CommandLedger cmd) : Prop :=
  (cmd, true) ∉ ledger.marked ∧ ∀ p ∈ ledger.app.cmdTracker.pending, p.command ≠ cmd

/-- All entries of a command expect the same change. -/
theorem Bounded.expected_eq (h : ledger.Bounded) {p q : PendingCommand}
    (hp : p ∈ ledger.app.cmdTracker.pending) (hq : q ∈ ledger.app.cmdTracker.pending)
    (hsame : p.command = q.command) : p.expected = q.expected := by
  obtain ⟨preStatus, hlast, hexpected⟩ := h.expected p hp
  obtain ⟨preStatus', hlast', hexpected'⟩ := h.expected q hq
  obtain rfl : preStatus = preStatus' := Option.some.inj (hlast.symm.trans hlast')
  rw [hsame] at hexpected
  exact Option.some.inj (hexpected.symm.trans hexpected')

/-- After a status has confirmed the command in time, it is not pending or queued again. -/
theorem Bounded.quiet_of_confirms (h : ledger.Bounded) {c : Timestamp × AppCall}
    (hc : ledger.InTime c) (hconfirms : ledger.Confirms c) : (ledger.step c).Quiet := by
  obtain ⟨status, hheard, p, hp, hcommand, hverdict⟩ := hconfirms
  -- All its entries expect the same, so the status confirms them all.
  have hall : ∀ q ∈ ledger.app.cmdTracker.pending, q.command = cmd →
      CommandTracker.verdict status c.1 q = .confirmed := by
    intro q hq hcommand'
    have hsame := h.expected_eq hp hq (hcommand.trans hcommand'.symm)
    have hconfirmed := CommandTracker.verdict_eq_confirmed.1 hverdict
    exact CommandTracker.verdict_eq_confirmed.2 (hsame ▸ hconfirmed)
  constructor
  · intro hmem
    rcases mem_marked_step hmem with hmem | ⟨status', hheard', q, hq, hcommand', hretry⟩
    · exact (hc status hheard hmem p hp hcommand).1 hverdict
    · obtain rfl : status = status' := Option.some.inj (hheard.symm.trans hheard')
      rw [hall q hq hcommand'] at hretry
      cases hretry
  · intro p' hp' hcommand'
    rcases mem_pending_step hp' with htaken | ⟨q, hq, hsame, hnot⟩
    · exact absurd ((takenCommand_of_heard hheard).symm.trans htaken) (Option.some_ne_none _).symm
    · exact hnot status hheard (hall q hq (hsame.trans hcommand'))

/-- The command, taken while no retransmission of it is queued, is none. -/
theorem Bounded.sendsMarked_of_fresh (h : ledger.Bounded) (hfresh : (cmd, true) ∉ ledger.marked)
    {c : Timestamp × AppCall} (htaken : ledger.app.takenCommand c.2 = some cmd) :
    ledger.SendsMarked c false := by
  refine ⟨htaken, ?_⟩
  have hhead := head?_of_takenCommand htaken
  rw [← h.queued, List.head?_map] at hhead
  obtain ⟨⟨taken, resent⟩, hm, rfl⟩ := Option.map_eq_some_iff.1 hhead
  cases resent with
  | false => exact hm
  | true => exact absurd (List.mem_of_head? hm) hfresh

/-- Nothing is pending or queued again until the command is sent as no retransmission. -/
theorem Quiet.step (h : ledger.Quiet) (hb : ledger.Bounded) {c : Timestamp × AppCall}
    (hc : ¬ ledger.SendsMarked c false) : (ledger.step c).Quiet := by
  constructor
  · intro hmem
    rcases mem_marked_step hmem with hmem | ⟨status, -, q, hq, hcommand, -⟩
    · exact h.1 hmem
    · exact h.2 q hq hcommand
  · intro p' hp' hcommand
    rcases mem_pending_step hp' with htaken | ⟨q, hq, hsame, -⟩
    · rw [hcommand] at htaken
      exact hc (hb.sendsMarked_of_fresh h.1 htaken)
    · exact h.2 q hq (hsame.trans hcommand)

/-- The call starts no pump timer, and it is in time. -/
def InBounds (ledger : CommandLedger cmd) (c : Timestamp × AppCall) : Prop :=
  (∀ pumpIndex minutes, c.2 ≠ .startPumpTimer pumpIndex minutes) ∧ ledger.InTime c

/-- Such a call keeps the bound. -/
theorem InBounds.step (ledger : CommandLedger cmd) (c : Timestamp × AppCall) (h : ledger.Bounded)
    (hc : ledger.InBounds c) : (ledger.step c).Bounded := h.step hc.2 hc.1

/-- In a run a retransmission is sent only after a frame that is none, if nothing was pending or
queued again before. -/
theorem Quiet.foldl (cs : List (Timestamp × AppCall)) (h : ledger.Quiet) (hb : ledger.Bounded)
    (hrun : Along CommandLedger.step InBounds ledger cs) :
    (cs.foldl CommandLedger.step ledger).Quiet ∨
      ∃ pre c post, cs = pre ++ c :: post ∧
        (pre.foldl CommandLedger.step ledger).SendsMarked c false := by
  induction cs generalizing ledger with
  | nil => exact .inl h
  | cons c cs ih =>
    -- By induction on the calls: the first one sends such a frame, or stays quiet.
    by_cases hc : ledger.SendsMarked c false
    · exact .inr ⟨[], c, cs, rfl, hc⟩
    · rcases ih (h.step hb hc) (InBounds.step ledger c hb hrun.1) hrun.2 with hquiet | hsends
      · exact .inl hquiet
      · obtain ⟨pre, c', post, rfl, hsends⟩ := hsends
        exact .inr ⟨c :: pre, c', post, rfl, hsends⟩

/-- In a run without pump timers and in time, at most three frames carry a toggle or a temperature
for each time that it was accepted, and after a status has confirmed it a retransmission is sent
only after a frame that is none. -/
theorem retransmissions_bounded (cmd : Command) (now : Timestamp) (hash : ClientHash)
    (cs : List (Timestamp × AppCall))
    (htimer : ∀ c ∈ cs, ∀ pumpIndex minutes, c.2 ≠ .startPumpTimer pumpIndex minutes)
    (hrun : Along step InTime (start cmd now hash) cs) :
    (cs.foldl step (start cmd now hash)).sent ≤
        (1 + maxCommandRetries.toNat) * (cs.foldl step (start cmd now hash)).accepted ∧
      ∀ pre b mid a post, cs = pre ++ b :: (mid ++ a :: post) →
        (pre.foldl step (start cmd now hash)).Confirms b →
        ((pre ++ b :: mid).foldl step (start cmd now hash)).SendsMarked a true →
        ∃ mid₁ c mid₂, mid = mid₁ ++ c :: mid₂ ∧
          ((pre ++ b :: mid₁).foldl step (start cmd now hash)).SendsMarked c false := by
  have hbounds : Along step InBounds (start cmd now hash) cs :=
    along_and.2 ⟨along_of_forall_mem htimer _, hrun⟩
  have hstart := bounded_start cmd now hash
  refine ⟨?_, ?_⟩
  · have h := (hbounds.invariant InBounds.step hstart).paid
    omega
  · rintro pre b mid a post rfl hconfirms hsends
    rw [along_append, along_cons, along_append] at hbounds
    -- After the confirmation the ledger is quiet.
    obtain ⟨hpre, hb, hmid, -⟩ := hbounds
    have h := hpre.invariant InBounds.step hstart
    have hquiet := h.quiet_of_confirms hb.2 hconfirms
    rw [List.foldl_append, List.foldl_cons] at hsends
    rcases hquiet.foldl mid (InBounds.step _ b h hb) hmid with
      hquiet' | ⟨mid₁, c, mid₂, hmid, hsends'⟩
    · exact absurd (List.mem_of_head? hsends.2) hquiet'.1
    · refine ⟨mid₁, c, mid₂, hmid, ?_⟩
      rw [List.foldl_append, List.foldl_cons]
      exact hsends'

/-- The calls that connect and send a command, which a status finds timed out. -/
def timedOut (cmd : Command) : List (Timestamp × AppCall) :=
  connect ++ [(200, .onMqttCommand cmd), grant 300, statusAt 5300 []]

/-- A temperature is sent, sent again, and then confirmed. -/
def temperatureConfirmed : List (Timestamp × AppCall) :=
  timedOut (.setTemperature 100) ++ [grant 5400, statusAt 5500 [(20, 100)]]

/-- It is sent twice, and not again. -/
theorem retransmissions_bounded_temperature :
    (temperatureConfirmed.foldl step (start (.setTemperature 100) 0 (0x00, 0x01))).sent ≤
        (1 + maxCommandRetries.toNat) *
          (temperatureConfirmed.foldl step (start (.setTemperature 100) 0 (0x00, 0x01))).accepted ∧
      ∀ pre b mid a post, temperatureConfirmed = pre ++ b :: (mid ++ a :: post) →
        (pre.foldl step (start (.setTemperature 100) 0 (0x00, 0x01))).Confirms b →
        ((pre ++ b :: mid).foldl step
          (start (.setTemperature 100) 0 (0x00, 0x01))).SendsMarked a true →
        ∃ mid₁ c mid₂, mid = mid₁ ++ c :: mid₂ ∧
          ((pre ++ b :: mid₁).foldl step
            (start (.setTemperature 100) 0 (0x00, 0x01))).SendsMarked c false := by
  have htimer : ∀ c ∈ temperatureConfirmed,
      ∀ pumpIndex minutes, c.2 ≠ .startPumpTimer pumpIndex minutes := by
    intro c hc pumpIndex minutes hcall
    simp only [temperatureConfirmed, timedOut, connect, grant, statusAt, List.mem_append,
      List.mem_cons, List.not_mem_nil, or_false] at hc
    rcases hc with ((rfl | rfl | rfl) | rfl | rfl | rfl) | rfl | rfl <;> cases hcall
  exact retransmissions_bounded (.setTemperature 100) 0 (0x00, 0x01) temperatureConfirmed htimer
    (by decide +kernel)

/-- A status with the first pump on. -/
def pumpOn (now : Timestamp) : Timestamp × AppCall := statusAt now [(11, 0x01)]

/-- A toggle is confirmed while its retransmission is queued: it is sent once more, and tracked
afresh, so that four frames are sent for one command. And so is a temperature. -/
theorem resent_after_confirmation :
    (((timedOut (.toggleItem .pump1)).foldl step
        (start (.toggleItem .pump1) 0 (0x00, 0x01))).Confirms (pumpOn 5400) ∧
      ((timedOut (.toggleItem .pump1) ++ [pumpOn 5400]).foldl step
        (start (.toggleItem .pump1) 0 (0x00, 0x01))).SendsMarked (grant 5500) true ∧
      let after := (timedOut (.toggleItem .pump1) ++ [pumpOn 5400, grant 5500, pumpOn 10500,
        grant 10600, pumpOn 15600, grant 15700]).foldl step
          (start (.toggleItem .pump1) 0 (0x00, 0x01))
      after.sent = 4 ∧ after.accepted = 1) ∧
    ((timedOut (.setTemperature 100)).foldl step
        (start (.setTemperature 100) 0 (0x00, 0x01))).Confirms (statusAt 5400 [(20, 100)]) ∧
      ((timedOut (.setTemperature 100) ++ [statusAt 5400 [(20, 100)]]).foldl step
        (start (.setTemperature 100) 0 (0x00, 0x01))).SendsMarked (grant 5500) true := by
  decide +kernel

end CommandLedger

end SpaApp

end Launa.Core
