import Launa.App.MqttClient
import Launa.Core.CommandEffects
import Launa.Core.Tracking
import Launa.Lib.Run

/-!
# The cap on the set temperature

A temperature is checked in the scale of the last status that the app has heard when its message
arrives, and is sent when a grant takes it from the queue, or later still when it is sent again. In
between the spa can change its scale: what is within the limit in Fahrenheit exceeds that of
Celsius. An app that has lost its registration does not even hear it. As long as no status frame in
Celsius finds such a temperature, and none arrives after one (`KeepsCap`), every temperature that is
sent is within the limit of the last status frame (`run_capped`).
-/

namespace Launa.App

open Launa.Core Launa.Core.SpaApp Ota Protocol Run

/-- What a run of the app takes in: a call, or a message from MQTT. -/
inductive AppInput where
  | call (c : AppCall)
  | message (topic : List Char) (payload : List UInt8)

/-- The call that an input makes; a message is parsed in the scale and the range of the last status
that the app has heard. -/
def AppInput.request (r : Rounding) (commandTopicBase : List Char) (app : SpaApp) :
    AppInput → Option AppCall
  | .call c => some c
  | .message topic payload =>
    match parseCommand r commandTopicBase topic payload (app.lastStatus.map (·.temperatureScale))
      (app.lastStatus.map (·.tempRange)) with
    | some (.command cmd) => some (.onMqttCommand cmd)
    | some (.startPumpTimer pump minutes) => some (.startPumpTimer pump minutes)
    | none => none

/-- The status of a call that brings one, whether the app is registered or not. -/
def shownStatus : AppCall → Option StatusUpdate
  | .processFrame frame =>
    match dispatchFrame frame with
    | .statusUpdate status => some status
    | _ => none
  | _ => none

/-- The command of a call of the user. -/
def userCommand : AppCall → Option Command
  | .onMqttCommand cmd => some cmd
  | _ => none

/-- The app in a run. -/
structure CapRun where
  app : SpaApp
  /-- The last status frame of the run. The app has not heard those from before its registration. -/
  shown : Option StatusUpdate

namespace CapRun

/-- The start of a run. -/
def start (now : Timestamp) (hash : ClientHash) : CapRun := ⟨withClientHash now hash, none⟩

/-- The run after a call. -/
def afterCall (run : CapRun) (now : Timestamp) (c : AppCall) : CapRun :=
  ⟨(run.app.call now c).2, (shownStatus c).or run.shown⟩

/-- What the app does with an input. -/
def respond (r : Rounding) (commandTopicBase : List Char) (run : CapRun)
    (i : Timestamp × AppInput) : List AppAction :=
  match i.2.request r commandTopicBase run.app with
  | some c => (run.app.call i.1 c).1
  | none => []

/-- The run after an input. -/
def step (r : Rounding) (commandTopicBase : List Char) (run : CapRun) (i : Timestamp × AppInput) :
    CapRun :=
  match i.2.request r commandTopicBase run.app with
  | some c => run.afterCall i.1 c
  | none => run

end CapRun

/-- The command sets a temperature above the limit of a scale. -/
def exceeds (scale : TemperatureScale) : Command → Bool
  | .setTemperature temp => hardLimit scale < temp
  | _ => false

/-- No status frame in Celsius leaves a temperature above its limit, queued or pending, and none is
asked for after one. -/
structure CallKeepsCap (run : CapRun) (now : Timestamp) (c : AppCall) : Prop where
  queued : ∀ status ∈ shownStatus c, status.temperatureScale = .celsius →
    ∀ cmd ∈ run.app.commandQueue, exceeds .celsius cmd = false
  pending : ∀ status ∈ shownStatus c, status.temperatureScale = .celsius →
    ∀ p ∈ run.app.cmdTracker.pending, exceeds .celsius p.command = true →
      run.app.registration.isRegistered = true ∧
        CommandTracker.verdict status now p ≠ .waiting ∧
        CommandTracker.verdict status now p ≠ .retry
  requested : ∀ status ∈ run.shown, status.temperatureScale = .celsius →
    ∀ cmd ∈ userCommand c, exceeds .celsius cmd = false

/-- The call of an input, if it makes one, keeps the cap. -/
def KeepsCap (r : Rounding) (commandTopicBase : List Char) (run : CapRun)
    (i : Timestamp × AppInput) : Prop :=
  ∀ c ∈ i.2.request r commandTopicBase run.app, CallKeepsCap run i.1 c

instance (run : CapRun) (now : Timestamp) (c : AppCall) : Decidable (CallKeepsCap run now c) :=
  decidable_of_iff
    ((∀ status ∈ shownStatus c, status.temperatureScale = .celsius →
        ∀ cmd ∈ run.app.commandQueue, exceeds .celsius cmd = false) ∧
      (∀ status ∈ shownStatus c, status.temperatureScale = .celsius →
        ∀ p ∈ run.app.cmdTracker.pending, exceeds .celsius p.command = true →
          run.app.registration.isRegistered = true ∧
            CommandTracker.verdict status now p ≠ .waiting ∧
            CommandTracker.verdict status now p ≠ .retry) ∧
      ∀ status ∈ run.shown, status.temperatureScale = .celsius →
        ∀ cmd ∈ userCommand c, exceeds .celsius cmd = false)
    ⟨fun ⟨h, h', h''⟩ => ⟨h, h', h''⟩, fun ⟨h, h', h''⟩ => ⟨h, h', h''⟩⟩

instance (r : Rounding) (commandTopicBase : List Char) :
    DecidableRel (KeepsCap r commandTopicBase) := fun run i =>
  inferInstanceAs (Decidable (∀ c ∈ i.2.request r commandTopicBase run.app,
    CallKeepsCap run i.1 c))

/-- The input is no temperature that has not been parsed. -/
def IsParsed (i : Timestamp × AppInput) : Prop :=
  ∀ temp, i.2 ≠ .call (.onMqttCommand (.setTemperature temp))

/-- The command is within the limit in the scale of a status. -/
def Within (shown : Option StatusUpdate) (cmd : Command) : Prop :=
  ∃ status, shown = some status ∧ exceeds status.temperatureScale cmd = false

/-- Every temperature that is queued or pending is within the limit in the scale of the last status
frame, which there is if the app has heard one. -/
structure Capped (run : CapRun) : Prop where
  within : ∀ cmd, cmd ∈ run.app.commandQueue ∨
      (∃ p ∈ run.app.cmdTracker.pending, p.command = cmd) →
    isSetTemperature cmd = true → Within run.shown cmd
  heard : run.app.lastStatus.isSome → run.shown.isSome

variable {run : CapRun} {now : Timestamp}

/-- The limit in Fahrenheit is the higher one. -/
theorem exceeds_fahrenheit {scale : TemperatureScale} {cmd : Command}
    (h : exceeds scale cmd = false) :
    exceeds .fahrenheit cmd = false := by
  cases cmd with
  | setTemperature temp =>
    have hle : temp ≤ hardLimit scale := UInt8.not_lt.1 (of_decide_eq_false h)
    refine decide_eq_false (UInt8.not_lt.2 (UInt8.le_trans hle ?_))
    cases scale <;> decide
  | _ => rfl

/-- What is within some limit is within that of a status, unless it exceeds that of Celsius. -/
theorem Within.of_scale {shown : Option StatusUpdate} {cmd : Command} (h : Within shown cmd)
    {status : StatusUpdate}
    (hcelsius : status.temperatureScale = .celsius → exceeds .celsius cmd = false) :
    exceeds status.temperatureScale cmd = false := by
  obtain ⟨last, -, hlast⟩ := h
  cases hscale : status.temperatureScale with
  | fahrenheit => exact exceeds_fahrenheit hlast
  | celsius => exact hcelsius hscale

/-- What the app hears is the status of the call. -/
theorem heardStatus_eq (app : SpaApp) (c : AppCall) :
    app.heardStatus c = if app.registration.isRegistered then shownStatus c else none := by
  cases c with
  | processFrame frame =>
    unfold heardStatus shownStatus
    cases hm : dispatchFrame frame <;> split <;> simp_all
  | _ => exact (ite_self _).symm

/-- A temperature that was queued, or pending and is still unconfirmed, is within the limit after a
call that keeps the cap. -/
theorem Capped.within_after (h : Capped run) {c : AppCall} (hc : CallKeepsCap run now c)
    {cmd : Command} (htemp : isSetTemperature cmd = true)
    (hmem : cmd ∈ run.app.commandQueue ∨ ∃ p ∈ run.app.cmdTracker.pending, p.command = cmd ∧
      ∀ status ∈ run.app.heardStatus c, CommandTracker.verdict status now p = .waiting ∨
        CommandTracker.verdict status now p = .retry) :
    Within ((shownStatus c).or run.shown) cmd := by
  have hwithin : Within run.shown cmd :=
    h.within cmd (hmem.imp_right fun ⟨p, hp, hcommand, _⟩ => ⟨p, hp, hcommand⟩) htemp
  cases hshown : shownStatus c with
  | none => exact hwithin
  | some status =>
    refine ⟨status, rfl, hwithin.of_scale fun hscale => ?_⟩
    rcases hmem with hqueued | ⟨p, hp, rfl, hverdict⟩
    · exact hc.queued status hshown hscale cmd hqueued
    · by_contra hexceeds
      -- An entry above the limit would be confirmed or dropped by a status that is heard.
      obtain ⟨hreg, hwaiting, hretry⟩ :=
        hc.pending status hshown hscale p hp (eq_true_of_ne_false hexceeds)
      have hheard : run.app.heardStatus c = some status := by
        rw [heardStatus_eq, if_pos hreg, hshown]
      exact (hverdict status hheard).elim hwaiting hretry

/-- Without a status that is heard nothing is confirmed. -/
theorem unheard {app : SpaApp} {c : AppCall} (h : app.heardStatus c = none) (p : PendingCommand) :
    ∀ status ∈ app.heardStatus c, CommandTracker.verdict status now p = .waiting ∨
      CommandTracker.verdict status now p = .retry :=
  fun _ hstatus => absurd (hstatus.symm.trans h) (Option.some_ne_none _)

/-- A temperature that is queued or pending after a status was heard is within the limit, if the
call keeps the cap: it was queued, or it comes from an entry that the status has left. -/
theorem Capped.within_observed (h : Capped run) {c : AppCall} (hc : CallKeepsCap run now c)
    {status : StatusUpdate} (heard : run.app.heardStatus c = some status) {cmd : Command}
    (htemp : isSetTemperature cmd = true)
    (hcmd : cmd ∈ (run.app.onStatus now status).2.commandQueue ∨
      ∃ p ∈ (run.app.onStatus now status).2.cmdTracker.pending, p.command = cmd) :
    Within ((shownStatus c).or run.shown) cmd := by
  have hkept : ∀ p ∈ run.app.cmdTracker.pending, p.command = cmd →
      CommandTracker.verdict status now p = .waiting ∨
        CommandTracker.verdict status now p = .retry →
      Within ((shownStatus c).or run.shown) cmd := fun p hp hcommand hverdict =>
    h.within_after hc htemp (.inr ⟨p, hp, hcommand, fun status' hstatus' =>
      Option.some.inj (heard.symm.trans hstatus') ▸ hverdict⟩)
  -- The queue, the retransmissions, and the toggles of the timers.
  rcases hcmd with hcmd | ⟨p', hp', hcommand⟩
  · rcases List.mem_append.1 hcmd with hcmd | hrelease
    · rcases List.mem_append.1 hcmd with hcmd | hexpired
      · rcases List.mem_append.1 hcmd with hold | hretry
        · exact h.within_after hc htemp (.inl hold)
        · obtain ⟨p, hp, hverdict, hcommand⟩ := CommandTracker.mem_verify_retries.1 hretry
          exact hkept p hp hcommand (.inr hverdict)
      · obtain ⟨item, rfl⟩ := PumpTimerManager.eq_toggleItem_of_mem_tickAll hexpired
        cases htemp
    · rw [HoldModeTimer.eq_toggleItem_of_tick (Option.mem_toList.1 hrelease)] at htemp
      cases htemp
  · obtain ⟨p, hp, ⟨hverdict, rfl⟩ | ⟨hverdict, rfl⟩⟩ := CommandTracker.mem_verify.1 hp'
    · exact hkept p' hp hcommand (.inl hverdict)
    · exact hkept p hp hcommand (.inr hverdict)

/-- After a call there is a last status frame if the app has heard one: it is that of the call, or
there was one before. -/
theorem Capped.isSome_shown (h : Capped run) {c : AppCall}
    (hheard : (run.afterCall now c).app.lastStatus.isSome) :
    (run.afterCall now c).shown.isSome := by
  show ((shownStatus c).or run.shown).isSome
  rw [Option.isSome_or, Bool.or_eq_true]
  by_cases hnone : run.app.heardStatus c = none
  · exact .inr (h.heard (lastStatus_of_unheard hnone ▸ hheard))
  · rw [heardStatus_eq] at hnone
    split at hnone
    · exact .inl (Option.isSome_iff_ne_none.2 hnone)
    · exact absurd rfl hnone

/-- A call keeps the cap if its command is within the limit of the last status frame, and its status
does not leave a higher temperature. -/
theorem Capped.afterCall (h : Capped run) {c : AppCall} (hc : CallKeepsCap run now c)
    (huser : ∀ cmd ∈ userCommand c, isSetTemperature cmd = true → Within run.shown cmd) :
    Capped (run.afterCall now c) := by
  refine ⟨fun cmd hcmd htemp => ?_, h.isSome_shown⟩
  cases run.app.call_commands now c with
  | kept same heard taken sent =>
    refine h.within_after hc htemp (hcmd.imp (fun hmem => same.queue ▸ hmem) ?_)
    rintro ⟨p, hp, hcommand⟩
    exact ⟨p, same.pending ▸ hp, hcommand, unheard heard p⟩
  | pumpStarted pumpIndex minutes item hcall queue tracker status sent =>
    have heard : run.app.heardStatus c = none := by rw [hcall]; rfl
    refine h.within_after hc htemp (hcmd.imp (fun hmem => queue ▸ hmem) ?_)
    rintro ⟨p, hp, hcommand⟩
    exact ⟨p, congrArg CommandTracker.pending tracker ▸ hp, hcommand, unheard heard p⟩
  | submitted user hcall result =>
    have heard : run.app.heardStatus c = none := by rw [hcall]; rfl
    obtain ⟨hqueue, hpending, -⟩ := run.app.onMqttCommand_commands user
    have happ : (run.afterCall now c).app = (run.app.onMqttCommand user).2 :=
      congrArg Prod.snd result
    rw [happ] at hcmd
    rcases hcmd with hmem | ⟨p, hp, hcommand⟩
    · rcases hqueue.mem_temperature hmem htemp with hold | rfl
      · exact h.within_after hc htemp (.inl hold)
      · subst hcall
        exact huser _ rfl htemp
    · exact h.within_after hc htemp (.inr ⟨p, hpending ▸ hp, hcommand, unheard heard p⟩)
  | observed status heard taken result =>
    have happ : (run.afterCall now c).app = (run.app.onStatus now status).2 :=
      congrArg Prod.snd result
    rw [happ] at hcmd
    exact h.within_observed hc heard htemp hcmd
  | granted taken queue heard htaken queued sent queue' status tracker timers =>
    have hold : ∀ c' ∈ queue, c' ∈ run.app.commandQueue := fun c' hmem =>
      queued ▸ List.mem_cons_of_mem _ hmem
    refine h.within_after hc htemp ?_
    rcases hcmd with hmem | ⟨p, hp, hcommand⟩
    · exact .inl (hold cmd (queue' ▸ hmem))
    -- The command that is sent moves from the queue to the pending ones.
    · rw [show (run.afterCall now c).app.cmdTracker = _ from tracker] at hp
      split at hp
      · rcases CommandTracker.mem_track hp with ⟨hsent, -⟩ | hp
        · exact .inl (by rw [← hcommand, hsent, queued]; exact List.mem_cons_self)
        · exact .inr ⟨p, hp, hcommand, unheard heard p⟩
      · exact .inr ⟨p, hp, hcommand, unheard heard p⟩
  | dropped queue pending status timers heard taken sent =>
    rcases hcmd with hmem | ⟨p, hp, -⟩
    · rw [show (run.afterCall now c).app.commandQueue = [] from queue] at hmem
      exact absurd hmem List.not_mem_nil
    · rw [show (run.afterCall now c).app.cmdTracker.pending = [] from pending] at hp
      exact absurd hp List.not_mem_nil

/-- An input keeps the cap. -/
theorem Capped.step {r : Rounding} {commandTopicBase : List Char} (h : Capped run)
    {i : Timestamp × AppInput} (hi : KeepsCap r commandTopicBase run i ∧ IsParsed i) :
    Capped (run.step r commandTopicBase i) := by
  obtain ⟨now, i⟩ := i
  obtain ⟨hkeeps, hparsed⟩ := hi
  unfold CapRun.step
  split
  next c hrequest =>
    refine h.afterCall (hkeeps c hrequest) fun cmd hcmd htemp => ?_
    obtain ⟨temp, rfl⟩ : ∃ temp, cmd = .setTemperature temp := by
      cases cmd with
      | setTemperature temp => exact ⟨temp, rfl⟩
      | _ => cases htemp
    cases i with
    | call c' =>
      -- The temperatures all come from messages.
      obtain rfl := Option.some.inj hrequest
      cases c' with
      | onMqttCommand cmd => exact absurd (by rw [Option.some.inj hcmd]) (hparsed temp)
      | _ => cases hcmd
    | message topic payload =>
      have hlimit := (hkeeps c hrequest).requested
      dsimp only [AppInput.request] at hrequest
      split at hrequest
      next cmd hparse =>
        obtain rfl := Option.some.inj hrequest
        obtain rfl := Option.some.inj hcmd
        -- It was checked in the scale of the last status that the app has heard.
        obtain ⟨scale, hscale, hle⟩ := parseCommand_setTemperature hparse
        obtain ⟨last, hlast, rfl⟩ := Option.map_eq_some_iff.1 hscale
        have hwithin : Within (some last) (.setTemperature temp) :=
          ⟨last, rfl, decide_eq_false (UInt8.not_lt.2 hle)⟩
        obtain ⟨status, hshown⟩ :=
          Option.isSome_iff_exists.1 (h.heard (Option.isSome_iff_exists.2 ⟨last, hlast⟩))
        exact ⟨status, hshown, hwithin.of_scale fun hscale => hlimit status hshown hscale _ rfl⟩
      next pump minutes hparse =>
        obtain rfl := Option.some.inj hrequest
        cases hcmd
      next => cases hrequest
  next => exact h

/-- A temperature that is sent from a capped state is within the limit. -/
theorem Capped.sent {r : Rounding} {commandTopicBase : List Char} (h : Capped run)
    {i : Timestamp × AppInput} {bytes : List UInt8}
    (hbytes : bytes ∈ sends (run.respond r commandTopicBase i)) {temp : UInt8}
    (hsets : SetsTemperature temp bytes) :
    ∃ status, run.shown = some status ∧ temp ≤ hardLimit status.temperatureScale := by
  unfold CapRun.respond at hbytes
  split at hbytes
  next c hrequest =>
    have hhead := head?_of_takenCommand (takenCommand_of_setsTemperature hbytes hsets)
    obtain ⟨status, hstatus, hle⟩ :=
      h.within (.setTemperature temp) (.inl (List.mem_of_mem_head? hhead)) rfl
    exact ⟨status, hstatus, UInt8.not_lt.1 (of_decide_eq_false hle)⟩
  next => exact absurd hbytes List.not_mem_nil

/-- In a run whose temperatures all come from messages, and in which no status frame in Celsius
finds one above its limit or is followed by one, every temperature that is sent is within the hard
limit in the scale of the last status frame. -/
theorem run_capped (r : Rounding) (commandTopicBase : List Char) (now : Timestamp)
    (hash : ClientHash)
    (is : List (Timestamp × AppInput)) (hparsed : ∀ i ∈ is, IsParsed i)
    (hrun : Along (CapRun.step r commandTopicBase) (KeepsCap r commandTopicBase)
      (.start now hash) is)
    (pre post : List (Timestamp × AppInput)) (i : Timestamp × AppInput)
    (his : is = pre ++ i :: post)
    (bytes : List UInt8) (temp : UInt8)
    (hbytes : bytes ∈ sends ((pre.foldl (CapRun.step r commandTopicBase)
      (.start now hash)).respond r commandTopicBase i))
    (hsets : SetsTemperature temp bytes) :
    ∃ status, (pre.foldl (CapRun.step r commandTopicBase) (.start now hash)).shown =
      some status ∧ temp ≤ hardLimit status.temperatureScale := by
  have hstart : Capped (.start now hash) := by
    refine ⟨?_, fun h => h⟩
    rintro cmd (hcmd | ⟨p, hp, -⟩) -
    · exact absurd hcmd List.not_mem_nil
    · exact absurd hp List.not_mem_nil
  have hrun' := along_and.2 ⟨hrun, along_of_forall_mem hparsed _⟩
  rw [his, along_append] at hrun'
  -- The cap is an invariant of the run.
  have hkeep : ∀ run i, Capped run → KeepsCap r commandTopicBase run i ∧ IsParsed i →
      Capped (CapRun.step r commandTopicBase run i) := fun _ _ h hi => h.step hi
  exact (hrun'.1.invariant hkeep hstart).sent hbytes hsets

/-- The calls that connect, and a message that sets 104 degrees in the high range of Fahrenheit. -/
def setHigh : List (Timestamp × AppInput) :=
  connect.map (fun c => (c.1, .call c.2)) ++
    [(200, .call (statusAt 200 [(10, 0x04)]).2),
      (300, .message "c/set_temperature".toList (ascii "104"))]

/-- The temperature is sent while the spa is still in Fahrenheit. -/
theorem run_capped_fahrenheit :
    ∃ status, (setHigh.foldl (CapRun.step .binary32 "c".toList) (.start 0 (0x00, 0x01))).shown =
      some status ∧ 104 ≤ hardLimit status.temperatureScale := by
  have hparsed : ∀ i ∈ setHigh ++ [(400, .call (grant 400).2)], IsParsed i := by
    intro i hi temp hcall
    simp only [setHigh, connect, grant, statusAt, List.map_cons, List.map_nil, List.cons_append,
      List.nil_append, List.mem_cons, List.not_mem_nil, or_false] at hi
    rcases hi with rfl | rfl | rfl | rfl | rfl | rfl <;> cases hcall
  exact run_capped .binary32 "c".toList 0 (0x00, 0x01)
    (setHigh ++ [(400, .call (grant 400).2)]) hparsed
    (by decide +kernel) setHigh [] (400, .call (grant 400).2) rfl
    (encodeCommand (.setTemperature 104)) 104 (by decide +kernel) (by decide +kernel)

/-- The spa changes to Celsius before the temperature is sent: 52 degrees, where 42 is the limit. -/
theorem run_exceeds_celsius :
    let pre := setHigh ++ [(400, .call (statusAt 400 [(9, 0x01)]).2)]
    let run := pre.foldl (CapRun.step .binary32 "c".toList) (.start 0 (0x00, 0x01))
    (∃ bytes ∈ sends (run.respond .binary32 "c".toList (500, .call (grant 500).2)),
        SetsTemperature 104 bytes) ∧
      run.shown.map (·.temperatureScale) = some .celsius ∧ hardLimit .celsius = 84 := by
  intro pre run
  exact ⟨by decide +kernel, by decide +kernel, rfl⟩

end Launa.App
