import Launa.Core.CommandEffects
import Launa.Core.Tracking
import Launa.Lib.Run

/-!
# The last temperature asked for

A temperature that the user asks for replaces the one in the queue, but not those that were sent
before: each of them is sent again until a status shows it. So an older temperature can follow a
newer one. It does not in a run in which no status finds another temperature timed out than the one
taken from the queue last, and none is taken while another is queued behind it (`InOrder`): there
every temperature sent is the one asked for last (`setTemperature_lastWriter`).
-/

namespace Launa.Core

open Protocol Run

namespace SpaApp

/-- The temperatures of the queued commands. -/
def temperatures (queue : List Command) : List UInt8 :=
  queue.filterMap fun
    | .setTemperature temp => some temp
    | _ => none

/-- The empty queue sets no temperature. -/
@[simp] theorem temperatures_nil : temperatures [] = [] := rfl

/-- The temperatures of two queues are put behind each other. -/
@[simp] theorem temperatures_append (xs ys : List Command) :
    temperatures (xs ++ ys) = temperatures xs ++ temperatures ys := List.filterMap_append

/-- A set temperature comes before those behind it. -/
@[simp] theorem temperatures_setTemperature (temp : UInt8) (queue : List Command) :
    temperatures (.setTemperature temp :: queue) = temp :: temperatures queue := rfl

/-- Another command sets no temperature. -/
theorem temperatures_cons {cmd : Command} (h : isSetTemperature cmd = false)
    (queue : List Command) :
    temperatures (cmd :: queue) = temperatures queue := by
  cases cmd with
  | setTemperature temp => exact absurd h.symm Bool.false_ne_true
  | _ => rfl

/-- A command that sets a temperature has one. -/
theorem exists_eq_setTemperature {cmd : Command} (h : isSetTemperature cmd = true) :
    ∃ temp, cmd = .setTemperature temp := by
  cases cmd with
  | setTemperature temp => exact ⟨temp, rfl⟩
  | _ => exact absurd h Bool.false_ne_true

/-- A temperature is one of the queue exactly if its command is queued. -/
theorem mem_temperatures {queue : List Command} {temp : UInt8} :
    temp ∈ temperatures queue ↔ .setTemperature temp ∈ queue := by
  induction queue with
  | nil => exact iff_of_false List.not_mem_nil List.not_mem_nil
  | cons cmd queue ih =>
    cases hcmd : isSetTemperature cmd with
    | true =>
      obtain ⟨old, rfl⟩ := exists_eq_setTemperature hcmd
      rw [temperatures_setTemperature, List.mem_cons, List.mem_cons, ih,
        Command.setTemperature.injEq]
    | false =>
      have hne : Command.setTemperature temp ≠ cmd := by
        rintro rfl
        cases hcmd
      rw [temperatures_cons hcmd, ih, List.mem_cons, or_iff_right hne]

/-- Other commands have no temperatures. -/
theorem temperatures_eq_nil {queue : List Command}
    (h : ∀ cmd ∈ queue, isSetTemperature cmd = false) : temperatures queue = [] := by
  refine List.eq_nil_iff_forall_not_mem.2 fun temp htemp => ?_
  exact absurd (h _ (mem_temperatures.1 htemp)).symm Bool.false_ne_true

/-- A toggle that is cancelled out is no temperature. -/
theorem temperatures_erase {cmd : Command} (h : isSetTemperature cmd = false)
    (queue : List Command) :
    temperatures (queue.erase cmd) = temperatures queue := by
  by_cases hmem : cmd ∈ queue
  · obtain ⟨before, after, -, hqueue, herase⟩ := List.exists_erase_eq hmem
    rw [herase, hqueue, temperatures_append, temperatures_append, temperatures_cons h]
  · rw [List.erase_of_not_mem hmem]

/-- A temperature replaces the first one. -/
theorem temperatures_set {queue : List Command} {i : ℕ}
    (h : queue.findIdx? isSetTemperature = some i) (temp : UInt8) :
    temperatures (queue.set i (.setTemperature temp)) = temp :: (temperatures queue).tail := by
  obtain ⟨hlt, hfound, hbefore⟩ := List.findIdx?_eq_some_iff_getElem.1 h
  have hnone : temperatures (queue.take i) = [] := by
    refine temperatures_eq_nil fun cmd hcmd => ?_
    obtain ⟨j, hj, rfl⟩ := List.mem_take_iff_getElem.1 hcmd
    exact eq_false_of_ne_true (hbefore j (by omega))
  obtain ⟨old, hold⟩ : ∃ old, queue[i] = .setTemperature old := by
    cases hcmd : queue[i] with
    | setTemperature old => exact ⟨old, rfl⟩
    | _ => rw [hcmd] at hfound; cases hfound
  have hqueue : queue = queue.take i ++ .setTemperature old :: queue.drop (i + 1) := by
    rw [← hold, List.getElem_cons_drop, List.take_append_drop]
  rw [List.set_eq_take_append_cons_drop, if_pos hlt, temperatures_append, hnone, List.nil_append,
    temperatures_setTemperature]
  conv_rhs => rw [hqueue, temperatures_append, hnone, List.nil_append, temperatures_setTemperature]
  rfl

/-- A command that is no temperature leaves the temperatures. -/
theorem QueueEffect.temperatures_eq {queue queue' : List Command} {cmd : Command}
    (h : QueueEffect queue cmd queue') (hcmd : isSetTemperature cmd = false) :
    temperatures queue' = temperatures queue := by
  cases h with
  | replaced i temp eq found result =>
    subst eq
    cases hcmd
  | cancelled item eq queued result => rw [result, temperatures_erase hcmd]
  | appended mode last toggle temperature mode_eq last_eq result =>
    have hmode : temperatures mode = [] := by
      rcases mode_eq with rfl | ⟨-, rfl⟩ <;> rfl
    have hlast : temperatures last = [] := by
      rcases last_eq with rfl | rfl
      · rfl
      · rw [temperatures_cons hcmd, temperatures_nil]
    rw [result, temperatures_append, temperatures_append, hmode, hlast, List.append_nil,
      List.append_nil]

/-- A temperature is the first one after it is queued, or it is dropped and there is none. -/
theorem QueueEffect.temperatures_cons {queue queue' : List Command} {temp : UInt8}
    (h : QueueEffect queue (.setTemperature temp) queue') :
    (∃ rest, temperatures queue' = temp :: rest) ∨
      temperatures queue' = [] ∧ temperatures queue = [] := by
  cases h with
  | replaced i temp eq found result => exact .inl ⟨_, result ▸ temperatures_set found _⟩
  | cancelled item eq queued result => cases eq
  | appended mode last toggle temperature mode_eq last_eq result =>
    have hqueue : temperatures queue = [] := temperatures_eq_nil (temperature temp rfl)
    -- Only a command that sets the time brings its clock mode along.
    have hmode : mode = [] := by
      rcases mode_eq with rfl | ⟨⟨hour, minute, htime⟩, -⟩
      · rfl
      · cases htime
    rw [result, hmode, List.append_nil, temperatures_append, hqueue]
    rcases last_eq with rfl | rfl
    · exact .inr ⟨rfl, rfl⟩
    · exact .inl ⟨[], rfl⟩

/-- A status queues the temperatures that it finds timed out. -/
theorem temperatures_onStatus (self : SpaApp) (now : Timestamp) (status : StatusUpdate) :
    temperatures (self.onStatus now status).2.commandQueue =
      temperatures self.commandQueue ++ temperatures (self.cmdTracker.verify status now).1 := by
  -- The timers queue toggles only.
  have hexpired : temperatures (self.pumpTimers.tickAll now status.pumps).1 = [] := by
    refine temperatures_eq_nil fun cmd hcmd => ?_
    obtain ⟨item, rfl⟩ := PumpTimerManager.eq_toggleItem_of_mem_tickAll hcmd
    rfl
  have hrelease : temperatures (self.holdTimer.tick now status.isHold).1.toList = [] := by
    refine temperatures_eq_nil fun cmd hcmd => ?_
    rw [HoldModeTimer.eq_toggleItem_of_tick (Option.mem_toList.1 hcmd)]
    rfl
  unfold onStatus
  dsimp only
  rw [temperatures_append, temperatures_append, temperatures_append, hexpired, hrelease,
    List.append_nil, List.append_nil]

/-- The app, with the temperature that the user asked for last, of those that were queued, and the
one that was taken from the queue last. -/
structure TemperatureLog where
  app : SpaApp
  asked : Option UInt8
  taken : Option UInt8

namespace TemperatureLog

/-- The log of a new app. -/
def start (now : Timestamp) (clientHash : ClientHash) : TemperatureLog :=
  ⟨.withClientHash now clientHash, none, none⟩

/-- The log after a call. -/
def step (log : TemperatureLog) (c : Timestamp × AppCall) : TemperatureLog where
  app := log.app.step c
  asked := match c.2 with
    | .onMqttCommand (.setTemperature temp) =>
      if .setTemperature temp ∈ (log.app.step c).commandQueue then some temp else log.asked
    | _ => log.asked
  taken := match log.app.takenCommand c.2 with
    | some (.setTemperature temp) => some temp
    | _ => log.taken

/-- A status finds no other temperature timed out than the one taken last, and a grant takes none
with another behind it. -/
def InOrder (log : TemperatureLog) (c : Timestamp × AppCall) : Prop :=
  (∀ status ∈ log.app.heardStatus c.2, ∀ p ∈ log.app.cmdTracker.pending,
      isSetTemperature p.command = true → CommandTracker.verdict status c.1 p = .retry →
        log.taken.map .setTemperature = some p.command) ∧
    ∀ cmd ∈ log.app.takenCommand c.2, isSetTemperature cmd = true →
      ∀ other ∈ log.app.commandQueue, isSetTemperature other = true → other = cmd

instance (log : TemperatureLog) : DecidablePred log.InOrder := fun c =>
  inferInstanceAs (Decidable ((∀ status ∈ log.app.heardStatus c.2, ∀ p ∈ log.app.cmdTracker.pending,
      isSetTemperature p.command = true → CommandTracker.verdict status c.1 p = .retry →
        log.taken.map .setTemperature = some p.command) ∧
    ∀ cmd ∈ log.app.takenCommand c.2, isSetTemperature cmd = true →
      ∀ other ∈ log.app.commandQueue, isSetTemperature other = true → other = cmd))

/-- The call sends a frame that sets the temperature. -/
def Sends (log : TemperatureLog) (c : Timestamp × AppCall) (temp : UInt8) : Prop :=
  ∃ bytes ∈ sends (log.app.call c.1 c.2).1, SetsTemperature temp bytes

instance (log : TemperatureLog) (c : Timestamp × AppCall) :
    DecidablePred (log.Sends c) := fun temp =>
  inferInstanceAs (Decidable (∃ bytes ∈ sends (log.app.call c.1 c.2).1, SetsTemperature temp bytes))

/-- What is asked for last is queued first, or has been taken, as long as any is pending. -/
structure Ordered (log : TemperatureLog) : Prop where
  wellFormed : log.app.cmdTracker.WellFormed
  queued : ∀ temp, (temperatures log.app.commandQueue).head? = some temp → log.asked = some temp
  taken : temperatures log.app.commandQueue = [] →
    (∃ p ∈ log.app.cmdTracker.pending, ∃ temp, p.command = .setTemperature temp) →
    log.asked = log.taken

variable {log : TemperatureLog} {now : Timestamp}

/-- In the beginning nothing was taken or sent. -/
theorem ordered_start (now : Timestamp) (clientHash : ClientHash) :
    (start now clientHash).Ordered where
  wellFormed := .new
  queued := fun _ h => absurd h (Option.some_ne_none _).symm
  taken := fun _ ⟨_, hp, _⟩ => absurd hp List.not_mem_nil

/-- What was asked for last changes only when the user asks for a temperature. -/
theorem step_asked (log : TemperatureLog) (c : Timestamp × AppCall) :
    (log.step c).asked = log.asked ∨
      ∃ temp, c.2 = .onMqttCommand (.setTemperature temp) ∧ (log.step c).asked = some temp := by
  obtain ⟨now, c⟩ := c
  cases c with
  | onMqttCommand cmd =>
    cases cmd with
    | setTemperature temp =>
      by_cases hmem : .setTemperature temp ∈
        (log.app.step (now, .onMqttCommand (.setTemperature temp))).commandQueue
      · exact .inr ⟨temp, rfl, if_pos hmem⟩
      · exact .inl (if_neg hmem)
    | _ => exact .inl rfl
  | _ => exact .inl rfl

/-- A call that takes no command leaves what was taken as it is. -/
theorem step_taken (log : TemperatureLog) {c : Timestamp × AppCall}
    (h : log.app.takenCommand c.2 = none) : (log.step c).taken = log.taken := by
  unfold step
  simp only [h]

/-- A call that leaves the temperatures, or drops them, keeps the order. -/
theorem Ordered.of_kept {log' : TemperatureLog} (h : log.Ordered)
    (hwell : log'.app.cmdTracker.WellFormed)
    (hqueue : temperatures log'.app.commandQueue = temperatures log.app.commandQueue ∨
      temperatures log'.app.commandQueue = [] ∧ log'.app.cmdTracker.pending = [])
    (hpending : log'.app.cmdTracker.pending = log.app.cmdTracker.pending ∨
      log'.app.cmdTracker.pending = [])
    (hasked : log'.asked = log.asked) (htaken : log'.taken = log.taken) : log'.Ordered := by
  refine ⟨hwell, fun temp htemp => ?_, fun hnil hp => ?_⟩
  · rw [hasked]
    rcases hqueue with hqueue | ⟨hqueue, -⟩
    · exact h.queued temp (hqueue ▸ htemp)
    -- Nothing is queued.
    · rw [hqueue] at htemp
      cases htemp
  · rw [hasked, htaken]
    rcases hpending with hpending | hpending
    · rcases hqueue with hqueue | ⟨-, hnone⟩
      · exact h.taken (hqueue ▸ hnil) (hpending ▸ hp)
      · obtain ⟨p, hp, -⟩ := hp
        rw [hnone] at hp
        exact absurd hp List.not_mem_nil
    · obtain ⟨p, hp, -⟩ := hp
      rw [hpending] at hp
      exact absurd hp List.not_mem_nil

/-- The user's command is queued in order. -/
theorem Ordered.onMqttCommand (h : log.Ordered) (cmd : Command) :
    (log.step (now, .onMqttCommand cmd)).Ordered := by
  obtain ⟨hqueue, hpending, -⟩ := log.app.onMqttCommand_commands cmd
  have hwell : (log.app.onMqttCommand cmd).2.cmdTracker.WellFormed :=
    h.wellFormed.of_pending hpending
  cases hcmd : isSetTemperature cmd with
  | false =>
    have hasked : (log.step (now, .onMqttCommand cmd)).asked = log.asked := by
      cases cmd with
      | setTemperature temp => cases hcmd
      | _ => rfl
    exact h.of_kept hwell (.inl (hqueue.temperatures_eq hcmd)) (.inl hpending) hasked rfl
  | true =>
    obtain ⟨temp, rfl⟩ := exists_eq_setTemperature hcmd
    rcases hqueue.temperatures_cons with ⟨rest, hfirst⟩ | ⟨hnone, hnone'⟩
    · -- It is the first one, and it is the one asked for.
      have hmem : Command.setTemperature temp ∈
          (log.app.onMqttCommand (.setTemperature temp)).2.commandQueue :=
        mem_temperatures.1 (hfirst ▸ List.mem_cons_self)
      have hasked : (log.step (now, .onMqttCommand (.setTemperature temp))).asked = some temp :=
        if_pos hmem
      refine ⟨hwell, fun other hother => ?_, fun hnil _ => ?_⟩
      · rw [hasked, ← hother]
        exact (congrArg List.head? hfirst).symm
      · exact absurd (hfirst.symm.trans hnil) (List.cons_ne_nil _ _)
    · -- There was no room.
      have hmem : Command.setTemperature temp ∉
          (log.app.onMqttCommand (.setTemperature temp)).2.commandQueue :=
        fun hmem => List.not_mem_nil (hnone ▸ mem_temperatures.2 hmem)
      exact h.of_kept hwell (.inl (hnone.trans hnone'.symm)) (.inl hpending) (if_neg hmem) rfl

/-- A status that finds nothing but the temperature taken last timed out keeps the order. -/
theorem Ordered.onStatus {log' : TemperatureLog} (h : log.Ordered) {status : StatusUpdate}
    (happ : log'.app = (log.app.onStatus now status).2) (hasked : log'.asked = log.asked)
    (htaken : log'.taken = log.taken)
    (hlast : ∀ p ∈ log.app.cmdTracker.pending, isSetTemperature p.command = true →
      CommandTracker.verdict status now p = .retry →
        log.taken.map Command.setTemperature = some p.command) : log'.Ordered := by
  have hqueue : temperatures log'.app.commandQueue =
      temperatures log.app.commandQueue ++
        temperatures (log.app.cmdTracker.verify status now).1 := by
    rw [happ, temperatures_onStatus]
  have htracker : log'.app.cmdTracker =
      (log.app.cmdTracker.verify status now).2 := by
    rw [happ]
    rfl
  refine ⟨htracker ▸ h.wellFormed.verify status now, fun temp htemp => ?_, fun hnil hp => ?_⟩
  · rw [hqueue, List.head?_append] at htemp
    cases hfirst : (temperatures log.app.commandQueue).head? with
    | some first =>
      rw [hfirst] at htemp
      obtain rfl : first = temp := Option.some.inj htemp
      exact hasked.trans (h.queued first hfirst)
    | none =>
      -- The first one is sent again, so it is the one taken last.
      rw [hfirst] at htemp
      have hretry := mem_temperatures.1 (List.mem_of_head? htemp)
      obtain ⟨p, hp, hverdict, hcommand⟩ := CommandTracker.mem_verify_retries.1 hretry
      have htemp : log.taken.map Command.setTemperature = some (.setTemperature temp) :=
        hcommand ▸ hlast p hp (hcommand ▸ rfl) hverdict
      obtain ⟨last, hlast, hsame⟩ := Option.map_eq_some_iff.1 htemp
      rw [hasked, ← Command.setTemperature.inj hsame, ← hlast]
      exact h.taken (List.head?_eq_none_iff.1 hfirst) ⟨p, hp, temp, hcommand⟩
  · rw [hasked, htaken]
    obtain ⟨p', hp', temp, hcommand⟩ := hp
    rw [htracker] at hp'
    -- An entry that is still pending was so before, for the same command.
    have hpending : ∃ p ∈ log.app.cmdTracker.pending, ∃ temp, p.command = .setTemperature temp := by
      obtain ⟨p, hp, ⟨-, rfl⟩ | ⟨-, rfl⟩⟩ := CommandTracker.mem_verify.1 hp'
      · exact ⟨p', hp, temp, hcommand⟩
      · exact ⟨p, hp, temp, hcommand⟩
    exact h.taken (List.append_eq_nil_iff.1 (hqueue ▸ hnil)).1 hpending

/-- A grant that takes a command with no other temperature behind it keeps the order. -/
theorem Ordered.granted (h : log.Ordered) {c : AppCall} {cmd : Command} {queue : List Command}
    (htaken : log.app.takenCommand c = some cmd) (hasked : (log.step (now, c)).asked = log.asked)
    (hqueued : log.app.commandQueue = cmd :: queue)
    (hqueue' : (log.step (now, c)).app.commandQueue = queue)
    (htracker : (log.step (now, c)).app.cmdTracker = match log.app.lastStatus with
      | some preStatus => log.app.cmdTracker.track cmd preStatus now
      | none => log.app.cmdTracker)
    (hbehind : ∀ temp, cmd = .setTemperature temp → ∀ other ∈ temperatures queue, other = temp) :
    (log.step (now, c)).Ordered := by
  have hwell : (log.step (now, c)).app.cmdTracker.WellFormed := by
    rw [htracker]
    split
    · exact h.wellFormed.track _ _ _
    · exact h.wellFormed
  cases hcmd : isSetTemperature cmd with
  | true =>
    obtain ⟨temp, rfl⟩ := exists_eq_setTemperature hcmd
    -- What is taken is the first in the queue, and so the one asked for last.
    have htemp : log.asked = some temp := h.queued temp (by rw [hqueued]; rfl)
    have htaken' : (log.step (now, c)).taken = some temp := by
      unfold step
      simp only [htaken]
    refine ⟨hwell, fun other hother => ?_, fun _ _ => ?_⟩
    · rw [hqueue'] at hother
      rw [hbehind temp rfl other (List.mem_of_head? hother)]
      exact hasked.trans htemp
    · exact (hasked.trans htemp).trans htaken'.symm
  | false =>
    -- Another command leaves the temperatures.
    have htemps : temperatures (log.step (now, c)).app.commandQueue =
        temperatures log.app.commandQueue := by
      rw [hqueue', hqueued, SpaApp.temperatures_cons hcmd]
    have htaken' : (log.step (now, c)).taken = log.taken := by
      unfold step
      cases cmd with
      | setTemperature temp => cases hcmd
      | _ => simp only [htaken]
    refine ⟨hwell, fun temp htemp => ?_, fun hnil hp => ?_⟩
    · rw [hasked]
      exact h.queued temp (htemps ▸ htemp)
    rw [hasked, htaken']
    refine h.taken (htemps ▸ hnil) ?_
    obtain ⟨p, hp, temp, hcommand⟩ := hp
    rw [htracker] at hp
    split at hp
    · rcases CommandTracker.mem_track hp with ⟨hp, -⟩ | hp
      · rw [hcommand] at hp
        rw [← hp] at hcmd
        cases hcmd
      · exact ⟨p, hp, temp, hcommand⟩
    · exact ⟨p, hp, temp, hcommand⟩

/-- A call in order keeps the order. -/
theorem Ordered.step (h : log.Ordered) (c : Timestamp × AppCall) (hc : log.InOrder c) :
    (log.step c).Ordered := by
  obtain ⟨now, c⟩ := c
  by_cases hcommand : ∃ cmd, c = .onMqttCommand cmd
  · obtain ⟨cmd, rfl⟩ := hcommand
    exact h.onMqttCommand cmd
  have hasked : (log.step (now, c)).asked = log.asked :=
    (log.step_asked (now, c)).resolve_right fun ⟨temp, hcall, _⟩ => hcommand ⟨_, hcall⟩
  cases log.app.call_commands now c with
  | submitted cmd hcall result => exact absurd ⟨cmd, hcall⟩ hcommand
  | observed status heard taken result =>
    exact h.onStatus (congrArg Prod.snd result) hasked (step_taken log taken) (hc.1 status heard)
  | granted cmd queue heard taken queued sent queue' status tracker timers =>
    refine h.granted taken hasked queued queue' tracker fun temp htemp other hother => ?_
    subst htemp
    have hsame := hc.2 _ taken rfl (.setTemperature other) ?_ rfl
    · exact Command.setTemperature.inj hsame
    · rw [queued]
      exact List.mem_cons_of_mem _ (mem_temperatures.1 hother)
  | pumpStarted pumpIndex minutes item hcall queue tracker status sent =>
    subst hcall
    have hpending := congrArg CommandTracker.pending tracker
    exact h.of_kept (h.wellFormed.of_pending hpending) (.inl (congrArg temperatures queue))
      (.inl hpending) rfl rfl
  | kept same heard taken sent =>
    exact h.of_kept (h.wellFormed.of_pending same.pending) (.inl (congrArg temperatures same.queue))
      (.inl same.pending) hasked (step_taken log taken)
  | dropped queue pending status timers heard taken sent =>
    refine h.of_kept (fun p hp => ?_) (.inr ⟨congrArg temperatures queue, pending⟩)
      (.inr pending) hasked
      (step_taken log taken)
    rw [show (log.step (now, c)).app.cmdTracker.pending = [] from pending] at hp
    exact absurd hp List.not_mem_nil

/-- A temperature that is sent in order is the one asked for last, before and after. -/
theorem Ordered.asked_of_sends (h : log.Ordered) {c : Timestamp × AppCall} {temp : UInt8}
    (hsends : log.Sends c temp) : log.asked = some temp ∧ (log.step c).asked = some temp := by
  obtain ⟨now, c⟩ := c
  obtain ⟨bytes, hbytes, hsets⟩ := hsends
  have htaken := SpaApp.takenCommand_of_setsTemperature hbytes hsets
  have hasked : log.asked = some temp := by
    obtain ⟨queue, hqueue⟩ := List.head?_eq_some_iff.1 (SpaApp.head?_of_takenCommand htaken)
    exact h.queued temp (by rw [hqueue]; rfl)
  refine ⟨hasked, ((log.step_asked (now, c)).resolve_right fun ⟨_, hcall, _⟩ => ?_).trans hasked⟩
  rw [show c = _ from hcall] at htaken
  cases htaken

/-- The temperature asked for last after a run was asked for before it or in it. -/
theorem asked_foldl {temp : UInt8} (cs : List (Timestamp × AppCall)) {log : TemperatureLog}
    (h : (cs.foldl step log).asked = some temp) :
    log.asked = some temp ∨ ∃ c ∈ cs, c.2 = .onMqttCommand (.setTemperature temp) := by
  induction cs generalizing log with
  | nil => exact .inl h
  | cons c cs ih =>
    rcases ih h with hasked | ⟨c', hmem, hcall⟩
    · rcases log.step_asked c with hstep | ⟨temp', hcall, hstep⟩
      · exact .inl (hstep ▸ hasked)
      · obtain rfl : temp' = temp := Option.some.inj (hstep.symm.trans hasked)
        exact .inr ⟨c, List.mem_cons_self, hcall⟩
    · exact .inr ⟨c', List.mem_cons_of_mem _ hmem, hcall⟩

/-- In a run in order a temperature that is sent is the one asked for last, and it differs from one
that was sent before only if the user asked for it in between. -/
theorem setTemperature_lastWriter (now : Timestamp) (hash : ClientHash)
    (pre mid : List (Timestamp × AppCall)) (b a : Timestamp × AppCall) (tempB tempA : UInt8)
    (hrun : Along step InOrder (start now hash) (pre ++ b :: (mid ++ [a])))
    (hb : (pre.foldl step (start now hash)).Sends b tempB)
    (ha : ((pre ++ b :: mid).foldl step (start now hash)).Sends a tempA) :
    ((pre ++ b :: mid).foldl step (start now hash)).asked = some tempA ∧
      (tempA ≠ tempB → ∃ c ∈ mid, c.2 = .onMqttCommand (.setTemperature tempA)) := by
  rw [along_append, along_cons, along_append] at hrun
  obtain ⟨hpre, hb', hmid, -⟩ := hrun
  have hstep : ∀ log c, Ordered log → InOrder log c → Ordered (log.step c) := fun log c h hc =>
    h.step c hc
  have h1 : (pre.foldl step (start now hash)).Ordered :=
    hpre.invariant hstep (ordered_start now hash)
  have h2 : ((pre.foldl step (start now hash)).step b).Ordered := h1.step b hb'
  have h3 : (mid.foldl step ((pre.foldl step (start now hash)).step b)).Ordered :=
    hmid.invariant hstep h2
  have hfold : (pre ++ b :: mid).foldl step (start now hash) =
      mid.foldl step ((pre.foldl step (start now hash)).step b) := by
    rw [List.foldl_append, List.foldl_cons]
  rw [hfold] at ha ⊢
  have hasked := (h3.asked_of_sends ha).1
  refine ⟨hasked, fun hne => ?_⟩
  -- It was asked for before the first one was sent, or since.
  rcases asked_foldl mid hasked with hold | hnew
  · exact absurd (Option.some.inj (hold.symm.trans (h1.asked_of_sends hb).2)) hne
  · exact hnew

/-- The user asks for a temperature. -/
def ask (now : Timestamp) (temp : UInt8) : Timestamp × AppCall :=
  (now, .onMqttCommand (.setTemperature temp))

/-- A temperature is asked for and sent, and then another. -/
theorem setTemperature_lastWriter_two :
    ((connect ++ [ask 200 100] ++ grant 300 :: [ask 400 101]).foldl step
        (start 0 (0x00, 0x01))).asked = some 101 ∧
      ((101 : UInt8) ≠ 100 → ∃ c ∈ [ask 400 101], c.2 = .onMqttCommand (.setTemperature 101)) :=
  setTemperature_lastWriter 0 (0x00, 0x01) (connect ++ [ask 200 100]) [ask 400 101] (grant 300)
    (grant 500) 100 101 (by decide +kernel) (by decide +kernel) (by decide +kernel)

/-- Of two temperatures that were sent, the first one is sent again when it times out, though the
second one has been confirmed. -/
theorem setTemperature_resent :
    let pre := connect ++ [ask 200 100, grant 300, ask 400 101]
    let mid := [statusAt 5300 [(20, 101)]]
    (pre.foldl step (start 0 (0x00, 0x01))).Sends (grant 500) 101 ∧
      ((pre ++ grant 500 :: mid).foldl step (start 0 (0x00, 0x01))).Sends (grant 5400) 100 ∧
      ¬ ∃ c ∈ mid, c.2 = .onMqttCommand (.setTemperature 100) := by
  refine ⟨by decide +kernel, by decide +kernel, ?_⟩
  rintro ⟨c, hc, hcall⟩
  rw [List.mem_singleton.1 hc] at hcall
  cases hcall

end TemperatureLog

end SpaApp

end Launa.Core
