import Launa.Core.StaleLatch
import Launa.Core.CommandEffects
import Launa.Lib.Run

/-!
# The pump timers over a run

A call does one of four things to the pump timers (`call_timers`): nothing, or it starts one of
them, or a status ticks them all, or a reset cancels them. A timer that was started stays armed
while no reset comes, it is not started again and no status reports its pump off; and the first
status that comes with its duration over queues the toggle of its pump (`pumpTimer_autoOff`).
-/

namespace Launa.Core

open Protocol Run

/-! ## The timers of the manager -/

namespace PumpTimerManager

/-- The timer at each place is the one of that pump. -/
def Labelled (m : PumpTimerManager) : Prop := ∀ i, (m.timers.get i).pump.pumpIndex = some i

/-- New timers have the index of their pump. -/
theorem labelled_new : new.Labelled := by
  unfold Labelled
  decide

variable {m : PumpTimerManager} {now : Timestamp}

/-- Starting a timer changes that one only. -/
theorem get_startTimer (m : PumpTimerManager) (pumpIndex : UInt8) (minutes : UInt32)
    (now : Timestamp) (i : Fin 6) :
    (m.startTimer pumpIndex minutes now).2.timers.get i =
      if pumpIndex.toNat = i + 1 then ((m.timers.get i).startWithMinutes minutes now).2
      else m.timers.get i := by
  obtain ⟨i, hi⟩ := i
  unfold startTimer
  dsimp only
  by_cases hvalid : 1 ≤ pumpIndex.toNat ∧ pumpIndex.toNat - 1 < 6
  · rw [dif_pos hvalid]
    show (m.timers.set (pumpIndex.toNat - 1) _ hvalid.2)[i] = _
    rw [Vector.getElem_set]
    by_cases hindex : pumpIndex.toNat = i + 1
    · have hsame : pumpIndex.toNat - 1 = i := by omega
      rw [if_pos hsame, if_pos hindex]
      simp only [hsame]
    · rw [if_neg (by omega), if_neg hindex]
      rfl
  · rw [dif_neg hvalid, if_neg (by omega)]

/-- A tick goes through all timers. -/
theorem get_tickAll (m : PumpTimerManager) (now : Timestamp) (pumps : Vector PumpState 6)
    (i : Fin 6) :
    (m.tickAll now pumps).2.timers.get i = ((m.timers.get i).tick now (pumps.get i)).2 := by
  show ((Vector.ofFn fun i : Fin 6 => (m.timers.get i).tick now (pumps.get i)).map (·.2))[i.val] = _
  rw [Vector.getElem_map, Vector.getElem_ofFn]

/-- The command of a timer that fires is among those of the tick. -/
theorem mem_tickAll {pumps : Vector PumpState 6} {i : Fin 6} {cmd : Command}
    (h : ((m.timers.get i).tick now (pumps.get i)).1 = some cmd) :
    cmd ∈ (m.tickAll now pumps).1 := by
  refine List.mem_filterMap.2 ⟨(m.timers.get i).tick now (pumps.get i), ?_, h⟩
  exact Vector.mem_toList_iff.2 (Vector.mem_ofFn.2 ⟨i, rfl⟩)

/-- Every timer is cancelled. -/
theorem get_cancelAll (m : PumpTimerManager) (i : Fin 6) :
    m.cancelAll.timers.get i = (m.timers.get i).cancel := by
  show (m.timers.map PumpTimer.cancel)[i.val] = _
  rw [Vector.getElem_map]
  rfl

/-- Cancelling twice is cancelling once. -/
theorem cancelAll_cancelAll (m : PumpTimerManager) : m.cancelAll.cancelAll = m.cancelAll := by
  simp only [cancelAll, Vector.map_map]
  rfl

end PumpTimerManager

namespace SpaApp

/-! ## What a call does to the timers -/

/-- The call resets the registration and drops the commands: on its own, or as a tick that finds the
grants or the statuses gone. -/
def resets (self : SpaApp) (now : Timestamp) : AppCall → Bool
  | .tick => self.ctsLost now ||
    (elapsedAtLeast now self.lastStatusTime staleThresholdMs && !self.wasStale)
  | .resetRegistrationState clearCommands => clearCommands
  | _ => false

/-- The timers after a call. -/
inductive TimersEffect (self : SpaApp) (now : Timestamp) (c : AppCall) (m : PumpTimerManager) :
    Prop where
  /-- They stay. -/
  | kept (heard : self.heardStatus c = none) (result : m = self.pumpTimers)
  /-- One of them is started. -/
  | started (pumpIndex : UInt8) (minutes : UInt32) (call : c = .startPumpTimer pumpIndex minutes)
      (result : m = (self.pumpTimers.startTimer pumpIndex minutes now).2)
  /-- A status ticks them. -/
  | ticked (status : StatusUpdate) (heard : self.heardStatus c = some status)
      (result : m = (self.pumpTimers.tickAll now status.pumps).2)
  /-- A reset cancels them. -/
  | cancelled (resets : self.resets now c = true) (result : m = self.pumpTimers.cancelAll)

variable {self : SpaApp} {now : Timestamp}

/-- A grant leaves the timers alone. -/
theorem onReady_pumpTimers (channel : UInt8) :
    (self.onReady now channel).2.pumpTimers = self.pumpTimers := by
  unfold onReady
  dsimp only
  repeat' split
  all_goals rfl

/-- A frame has its effect on the timers. -/
theorem processFrame_timers (frame : Frame) :
    self.TimersEffect now (.processFrame frame) (self.processFrame now frame).2.pumpTimers := by
  unfold processFrame
  split
  · rename_i hreg
    unfold processRegistered
    cases hm : dispatchFrame frame with
    | statusUpdate status =>
      refine .ticked status ?_ rfl
      rw [heardStatus, hm]
      exact if_pos hreg
    | ready channel => exact .kept (by rw [heardStatus, hm]) (onReady_pumpTimers channel)
    | registration msg => cases msg <;> exact .kept (by rw [heardStatus, hm]) rfl
    | _ => exact .kept (by rw [heardStatus, hm]) rfl
  · rename_i hreg
    refine .kept ?_ (processUnregistered_sameCommands frame).timers
    rw [heardStatus]
    split
    · exact if_neg hreg
    · rfl

/-- Lost grants cancel all timers. -/
theorem checkCts_timers (self : SpaApp) (now : Timestamp) :
    (self.checkCts now).2.pumpTimers =
      if self.ctsLost now then self.pumpTimers.cancelAll else self.pumpTimers := by
  unfold checkCts
  split <;> rfl

/-- Data that becomes stale cancels all timers. -/
theorem checkStale_timers (self : SpaApp) (now : Timestamp) :
    (self.checkStale now).2.pumpTimers =
      if elapsedAtLeast now self.lastStatusTime staleThresholdMs && !self.wasStale then
        self.pumpTimers.cancelAll
      else self.pumpTimers := by
  unfold checkStale
  split <;> rfl

/-- A tick cancels the timers if it finds the grants or the statuses gone. -/
theorem tick_timers : self.TimersEffect now .tick (self.tick now).2.pumpTimers := by
  set s1 := (self.checkRegistration now).2 with hs1
  set s2 := (s1.checkCts now).2 with hs2
  set s3 := (s2.probe now).2 with hs3
  -- What the checks look at is not changed before them.
  have hcts : s1.ctsLost now = self.ctsLost now := (self.checkRegistration_link now).2.2.2.1
  have hkeeps1 := checkRegistration_keepsStatus self now
  have hkeeps2 := checkCts_keepsStatus s1 now
  have hkeeps3 := probe_keepsStatus s2 now
  have hstale : s3.wasStale = self.wasStale :=
    hkeeps3.stale.trans (hkeeps2.stale.trans hkeeps1.stale)
  have htime : s3.lastStatusTime = self.lastStatusTime :=
    hkeeps3.time.trans (hkeeps2.time.trans hkeeps1.time)
  have htimers3 : s3.pumpTimers =
      if self.ctsLost now then self.pumpTimers.cancelAll else self.pumpTimers := by
    calc s3.pumpTimers
        = s2.pumpTimers := (probe_sameCommands now).timers
      _ = if s1.ctsLost now then s1.pumpTimers.cancelAll else s1.pumpTimers :=
          checkCts_timers s1 now
      _ = if self.ctsLost now then self.pumpTimers.cancelAll else self.pumpTimers := by
          rw [hcts, hs1, (checkRegistration_sameCommands now).timers]
  have htick : (self.tick now).2.pumpTimers =
      if elapsedAtLeast now self.lastStatusTime staleThresholdMs && !self.wasStale then
        s3.pumpTimers.cancelAll
      else s3.pumpTimers := by
    calc (self.tick now).2.pumpTimers
        = ((s3.checkStale now).2.checkDiagnostics now).2.pumpTimers := rfl
      _ = (s3.checkStale now).2.pumpTimers := (checkDiagnostics_sameCommands now).timers
      _ = _ := by rw [checkStale_timers, htime, hstale]
  rw [htick, htimers3]
  cases hlost : self.ctsLost now <;>
    cases hold : elapsedAtLeast now self.lastStatusTime staleThresholdMs && !self.wasStale
  · exact .kept rfl rfl
  · exact .cancelled (by simp only [resets, hlost, hold, Bool.false_or]) rfl
  · exact .cancelled (by simp only [resets, hlost, Bool.true_or]) rfl
  · refine .cancelled (by simp only [resets, hlost, Bool.true_or]) ?_
    exact PumpTimerManager.cancelAll_cancelAll _

/-- Starting a timer changes that timer only. -/
theorem startPumpTimer_timers (self : SpaApp) (now : Timestamp) (pumpIndex : UInt8)
    (minutes : UInt32) : (self.startPumpTimer now pumpIndex minutes).2.pumpTimers =
      (self.pumpTimers.startTimer pumpIndex minutes now).2 := by
  unfold startPumpTimer
  dsimp only
  split <;> rfl

/-- What a call does to the timers. -/
theorem call_timers (self : SpaApp) (now : Timestamp) (c : AppCall) :
    self.TimersEffect now c (self.call now c).2.pumpTimers := by
  cases c with
  | processFrame frame => exact processFrame_timers frame
  | onMqttCommand cmd => exact .kept rfl (self.onMqttCommand_commands cmd).2.2.2.1
  | tick => exact tick_timers
  | startPumpTimer pumpIndex minutes =>
    exact .started pumpIndex minutes rfl (self.startPumpTimer_timers now pumpIndex minutes)
  | setPreviousChannel channel => exact .kept rfl rfl
  | resetRegistrationState clearCommands =>
    cases clearCommands with
    | false => exact .kept rfl rfl
    | true => exact .cancelled rfl rfl
  | forcePublish =>
    refine .kept rfl ?_
    show (self.forcePublish).2.pumpTimers = _
    unfold forcePublish
    split <;> rfl
  | checkHeap freeHeap => exact .kept rfl rfl

/-! ## Labels -/

/-- A tick leaves the index of a timer as it is. -/
theorem tick_pump (timer : PumpTimer) (now : Timestamp) (currentState : PumpState) :
    (timer.tick now currentState).2.pump = timer.pump := by
  unfold PumpTimer.tick
  repeat' split
  all_goals rfl

/-- A call keeps the timers with their pumps. -/
theorem labelled_call (h : self.pumpTimers.Labelled) (c : AppCall) :
    (self.call now c).2.pumpTimers.Labelled := by
  intro i
  cases self.call_timers now c with
  | kept heard result =>
    rw [result]
    exact h i
  | started pumpIndex minutes hcall result =>
    rw [result, PumpTimerManager.get_startTimer]
    split <;> exact h i
  | ticked status heard result =>
    rw [result, PumpTimerManager.get_tickAll, tick_pump]
    exact h i
  | cancelled hresets result =>
    rw [result, PumpTimerManager.get_cancelAll]
    exact h i

/-- In every run the timers have the index of their pump. -/
theorem labelled_run (now : Timestamp) (clientHash : ClientHash)
    (calls : List (Timestamp × AppCall)) :
    (calls.foldl step (withClientHash now clientHash)).pumpTimers.Labelled :=
  Run.invariant (I := fun app : SpaApp => app.pumpTimers.Labelled)
    (fun _ c h => labelled_call h c.2) PumpTimerManager.labelled_new calls

/-! ## One timer -/

/-- The timer of the pump was started at a time, for a duration. -/
def Armed (self : SpaApp) (pump : Fin 6) (startedAt : Timestamp) (durationMs : ℕ) : Prop :=
  (self.pumpTimers.timers.get pump).startedAt = some startedAt ∧
    (self.pumpTimers.timers.get pump).durationMs = durationMs

/-- The call starts the timer of the pump. -/
def startsTimer (pump : Fin 6) : AppCall → Bool
  | .startPumpTimer pumpIndex _ => pumpIndex.toNat = pump + 1
  | _ => false

/-- The call does not reset the app or start the pump's timer, and no status that it tells reports
the pump off. -/
def Undisturbed (self : SpaApp) (pump : Fin 6) (c : Timestamp × AppCall) : Prop :=
  self.resets c.1 c.2 = false ∧ startsTimer pump c.2 = false ∧
    (self.heardStatus c.2).all fun status => status.pumps.get pump ≠ .off

/-- A status that the call tells comes before the duration is over. -/
def InTime (self : SpaApp) (startedAt : Timestamp) (durationMs : ℕ) (c : Timestamp × AppCall) :
    Prop :=
  (self.heardStatus c.2).all fun _ => elapsedSince c.1 startedAt < durationMs

instance (pump : Fin 6) (c : Timestamp × AppCall) : Decidable (self.Undisturbed pump c) :=
  inferInstanceAs (Decidable (_ ∧ _ ∧ _))

instance (startedAt : Timestamp) (durationMs : ℕ) (c : Timestamp × AppCall) :
    Decidable (self.InTime startedAt durationMs c) := inferInstanceAs (Decidable (_ = _))

variable {pump : Fin 6} {startedAt : Timestamp} {durationMs : ℕ} {c : Timestamp × AppCall}
  {status : StatusUpdate}

/-- Starting the timer arms it. -/
theorem armed_start {pumpIndex : UInt8} (hindex : pumpIndex.toNat = pump + 1) (self : SpaApp)
    (now : Timestamp) (minutes : UInt32) :
    (self.step (now, .startPumpTimer pumpIndex minutes)).Armed pump now
      (minutes.toNat * 60 * 1000) := by
  show Armed (self.startPumpTimer now pumpIndex minutes).2 _ _ _
  unfold Armed
  rw [startPumpTimer_timers, PumpTimerManager.get_startTimer, if_pos hindex]
  exact ⟨rfl, rfl⟩

/-- A call that does not disturb the timer keeps it armed, if it does not come too late. -/
theorem Armed.step (h : self.Armed pump startedAt durationMs) (hcalm : self.Undisturbed pump c)
    (htime : self.InTime startedAt durationMs c) :
    (self.step c).Armed pump startedAt durationMs := by
  obtain ⟨hresets, hstart, hon⟩ := hcalm
  show Armed (self.call c.1 c.2).2 _ _ _
  unfold Armed
  cases self.call_timers c.1 c.2 with
  | kept heard result =>
    rw [result]
    exact h
  | started pumpIndex minutes hcall result =>
    rw [hcall, startsTimer, decide_eq_false_iff_not] at hstart
    rw [result, PumpTimerManager.get_startTimer, if_neg hstart]
    exact h
  | ticked status heard result =>
    rw [InTime, heard, Option.all_some, decide_eq_true_eq, ← h.2] at htime
    rw [heard, Option.all_some, decide_eq_true_eq] at hon
    rw [result, PumpTimerManager.get_tickAll, PumpTimer.tick, h.1]
    -- The pump is on, and the duration is not over.
    dsimp only
    rw [if_neg hon, if_neg (Nat.not_le.2 htime)]
    exact h
  | cancelled hcancel result => exact absurd (hresets.symm.trans hcancel) Bool.false_ne_true

/-- A call that tells a status does with it what the app does. -/
theorem call_of_heardStatus (heard : self.heardStatus c.2 = some status) :
    self.call c.1 c.2 = self.onStatus c.1 status := by
  have hnone : self.heardStatus c.2 ≠ none := by
    rw [heard]
    exact Option.some_ne_none _
  cases self.call_commands c.1 c.2 with
  | observed status' heard' taken result =>
    obtain rfl := Option.some.inj (heard'.symm.trans heard)
    exact result
  | kept same heard' taken sent => exact absurd heard' hnone
  | granted cmd queue heard' taken queued sent queue' status tracker timers =>
    exact absurd heard' hnone
  | dropped queue pending status timers heard' taken sent => exact absurd heard' hnone
  | submitted cmd hcall result => exact absurd (by rw [hcall]; rfl) hnone
  | pumpStarted pumpIndex minutes item hcall queue tracker status sent =>
    exact absurd (by rw [hcall]; rfl) hnone

/-- The timer of the pump does not run. -/
def Disarmed (self : SpaApp) (pump : Fin 6) : Prop :=
  (self.pumpTimers.timers.get pump).startedAt = none

/-- A status queues the retries, the expired pumps and the release of the hold, in this order. -/
theorem onStatus_commandQueue (self : SpaApp) (now : Timestamp) (status : StatusUpdate) :
    (self.onStatus now status).2.commandQueue =
      self.commandQueue ++ (self.cmdTracker.verify status now).1 ++
        (self.pumpTimers.tickAll now status.pumps).1 ++
        (self.holdTimer.tick now status.isHold).1.toList := rfl

/-- A status that reports the pump on after the duration queues its toggle and disarms the timer. -/
theorem Armed.expires (h : self.Armed pump startedAt durationMs)
    (hlabel : self.pumpTimers.Labelled) (heard : self.heardStatus c.2 = some status)
    (hon : status.pumps.get pump ≠ .off) (hdue : durationMs ≤ elapsedSince c.1 startedAt) :
    (∃ item before after, item.pumpIndex = some pump ∧ (self.step c).commandQueue =
        self.commandQueue ++ before ++ .toggleItem item :: after) ∧
      (self.step c).Disarmed pump := by
  have hresult : self.step c = (self.onStatus c.1 status).2 :=
    congrArg Prod.snd (call_of_heardStatus heard)
  have htick : (self.pumpTimers.timers.get pump).tick c.1 (status.pumps.get pump) =
      (some (.toggleItem (self.pumpTimers.timers.get pump).pump),
        (self.pumpTimers.timers.get pump).cancel) := by
    rw [PumpTimer.tick, h.1]
    dsimp only
    rw [if_neg hon, if_pos (by rw [h.2]; exact hdue)]
  rw [hresult]
  constructor
  · obtain ⟨before, after, hexpired⟩ := List.append_of_mem
      (PumpTimerManager.mem_tickAll (by rw [htick]) :
        Command.toggleItem (self.pumpTimers.timers.get pump).pump ∈
          (self.pumpTimers.tickAll c.1 status.pumps).1)
    refine ⟨(self.pumpTimers.timers.get pump).pump, (self.cmdTracker.verify status c.1).1 ++ before,
      after ++ (self.holdTimer.tick c.1 status.isHold).1.toList, hlabel pump, ?_⟩
    rw [onStatus_commandQueue, hexpired]
    simp only [List.append_assoc, List.cons_append]
  · show ((self.pumpTimers.tickAll c.1 status.pumps).2.timers.get pump).startedAt = none
    rw [PumpTimerManager.get_tickAll, htick]
    rfl

/-- A status that reports the pump off disarms the timer. -/
theorem disarmed_of_off (heard : self.heardStatus c.2 = some status)
    (hoff : status.pumps.get pump = .off) : (self.step c).Disarmed pump := by
  have hresult : self.step c = (self.onStatus c.1 status).2 :=
    congrArg Prod.snd (call_of_heardStatus heard)
  rw [hresult]
  show ((self.pumpTimers.tickAll c.1 status.pumps).2.timers.get pump).startedAt = none
  rw [PumpTimerManager.get_tickAll, hoff]
  unfold PumpTimer.tick
  split
  · assumption
  · rw [if_pos rfl]
    rfl

/-! ## Over a run -/

/-- The app after a run that starts a pump timer, and some calls more. -/
def afterStart (app : SpaApp) (startedAt : Timestamp) (pumpIndex : UInt8) (minutes : UInt32)
    (calls : List (Timestamp × AppCall)) : SpaApp :=
  calls.foldl step (app.step (startedAt, .startPumpTimer pumpIndex minutes))

/-- A timer that was started stays armed, as long as the app is not reset, the timer is not started
again, and no status reports its pump off or comes after its duration. The first status that comes
after it and reports the pump on queues the toggle of the pump and disarms the timer; and a status
that reports the pump off, once one has reported it on, disarms it. -/
theorem pumpTimer_autoOff (now : Timestamp) (clientHash : ClientHash)
    (before mid : List (Timestamp × AppCall)) (startedAt : Timestamp) (pump : Fin 6)
    (pumpIndex : UInt8) (minutes : UInt32) (hindex : pumpIndex.toNat = pump + 1) :
    let run := (before.foldl step (withClientHash now clientHash)).afterStart startedAt pumpIndex
      minutes
    Along step
      (fun app c => app.Undisturbed pump c ∧ app.InTime startedAt (minutes.toNat * 60 * 1000) c)
      (run []) mid →
    ((run mid).pumpTimers.timers.get pump).startedAt = some startedAt ∧
    ∀ c status, (run mid).heardStatus c.2 = some status →
      (status.pumps.get pump ≠ .off → minutes.toNat * 60 * 1000 ≤ elapsedSince c.1 startedAt →
        (∃ item earlier later, item.pumpIndex = some pump ∧ (run (mid ++ [c])).commandQueue =
          (run mid).commandQueue ++ earlier ++ .toggleItem item :: later) ∧
        (run (mid ++ [c])).Disarmed pump) ∧
      (status.pumps.get pump = .off →
        (∃ mid₁ c' mid₂, mid = mid₁ ++ c' :: mid₂ ∧ ((run mid₁).heardStatus c'.2).isSome) →
        (run (mid ++ [c])).Disarmed pump) := by
  intro run hmid
  have hlast : ∀ c, run (mid ++ [c]) = (run mid).step c := fun c => List.foldl_append
  have harmed : (run mid).Armed pump startedAt (minutes.toNat * 60 * 1000) :=
    Along.invariant (I := fun app : SpaApp => app.Armed pump startedAt (minutes.toNat * 60 * 1000))
      (fun app c h hc => h.step hc.1 hc.2) (armed_start hindex _ startedAt minutes) hmid
  have hlabel : (run mid).pumpTimers.Labelled :=
    Run.invariant (I := fun app : SpaApp => app.pumpTimers.Labelled)
      (fun _ c h => labelled_call h c.2) (labelled_call (labelled_run now clientHash before) _) mid
  refine ⟨harmed.1, fun c status heard => ?_⟩
  rw [hlast]
  exact ⟨fun hon hdue => harmed.expires hlabel heard hon hdue,
    fun hoff _ => disarmed_of_off heard hoff⟩

/-- The first pump. -/
def firstPump : Fin 6 := ⟨0, by decide⟩

/-- A status with the first pump on. -/
def firstPumpOn (now : Timestamp) : Timestamp × AppCall := statusAt now [(11, 0x01)]

/-- A timer of a minute that expires. -/
theorem pumpTimer_autoOff_minute :
    let run := (connect.foldl step (withClientHash 0 (0x00, 0x01))).afterStart 200 1 1
    ((run [firstPumpOn 300]).pumpTimers.timers.get firstPump).startedAt = some 200 ∧
      (run ([firstPumpOn 300] ++ [firstPumpOn 60200])).Disarmed firstPump := by
  have h := pumpTimer_autoOff 0 (0x00, 0x01) connect [firstPumpOn 300] 200 firstPump 1 1 rfl
    (by decide +kernel)
  obtain ⟨status, heard, hon⟩ : ∃ status, ((connect.foldl step
      (withClientHash 0 (0x00, 0x01))).afterStart 200 1 1 [firstPumpOn 300]).heardStatus
        (firstPumpOn 60200).2 = some status ∧ status.pumps.get firstPump ≠ .off := by
    refine ⟨_, rfl, ?_⟩
    decide +kernel
  exact ⟨h.1, ((h.2 (firstPumpOn 60200) status heard).1 hon (by decide)).2⟩

/-- The timer of a pump that comes on is lost when the grants stop for a while, and the app
registers again; and when a status reports the pump off before it has come on. A status that reports
the pump on after the duration finds no timer. -/
theorem pumpTimer_lost :
    let run := (connect ++ [grant 150]).foldl step (withClientHash 0 (0x00, 0x01))
    let lost := run.afterStart 200 1 1 ([firstPumpOn 300, (5200, .tick)] ++
      [(5300, .processFrame ⟨(0xFE, 0xBF), [0x00]⟩),
        (5300, .processFrame ⟨(0xFE, 0xBF), [0x02, 0x10, 0x00, 0x01]⟩), firstPumpOn 5400])
    let early := run.afterStart 200 1 1 [statusAt 250 [], firstPumpOn 300]
    (lost.Disarmed firstPump ∧ (lost.heardStatus (firstPumpOn 60200).2).isSome ∧
        (lost.step (firstPumpOn 60200)).commandQueue = []) ∧
      early.Disarmed firstPump ∧ (early.heardStatus (firstPumpOn 60200).2).isSome ∧
        (early.step (firstPumpOn 60200)).commandQueue = [] := by
  unfold Disarmed
  decide +kernel

end SpaApp

end Launa.Core
