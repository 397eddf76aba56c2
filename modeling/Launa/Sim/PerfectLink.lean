import Launa.Core.Retransmission
import Launa.Sim.SpaSim

/-!
# The app and the spa on a perfect link

Every frame of the app reaches the spa and is applied at once, and every status shows the spa as it
is. A toggle that is pending is still found unconfirmed when its item was toggled back before the
next status: then it is sent again after it has timed out, and undoes what the user asked for. As
long as no status finds such a toggle (`SeenInTime`), each toggle that is taken from the queue is
applied once (`appliedOnce_of_seenInTime`); in particular when no toggle brings its item back to
what the last status showed (`seenInTime_of_apart`).
-/

namespace Launa.Sim

open Launa.Core Protocol Run SpaApp

/-- What happens on the link. -/
inductive LinkEvent where
  /-- The user toggles an item. -/
  | toggle (item : ToggleItem)
  /-- The spa grants a channel to send. -/
  | ready (channel : UInt8)
  /-- The spa sends a status. -/
  | status (initMode currentTemp : UInt8)
  /-- The spa sends a registration message. -/
  | registration (payload : List UInt8)
  /-- The time of the app passes. -/
  | tick
  deriving DecidableEq, Repr

/-- The change that a toggle makes of the state, as the tracker expects it of a status. -/
def SpaState.changeBy (s : SpaState) (item : ToggleItem) : Option ExpectedChange :=
  match item.pumpIndex, item.lightIndex with
  | some idx, _ => some (.pumpToggled item (s.pumps.get idx))
  | none, some idx => some (.lightToggled item (s.lights.get idx))
  | none, none =>
    match item with
    | .blower => some (.blowerToggled s.blower)
    | .holdMode => some (.holdModeToggled s.hold)
    | .heatingMode => some (.heatingModeToggled s.heatingMode)
    | .temperatureRange => some (.tempRangeToggled s.tempRange)
    | _ => none

/-- The app and the spa, and the toggles of an item on the link. -/
structure PerfectLink (item : ToggleItem) where
  ledger : CommandLedger (.toggleItem item)
  spa : SpaState
  /-- The toggles of the item that were taken from the queue, without the retransmissions. -/
  taken : ℕ

namespace PerfectLink

variable {item : ToggleItem}

/-- A new app and a spa. -/
def start (item : ToggleItem) (now : Timestamp) (clientHash : ClientHash) (spa : SpaState) :
    PerfectLink item := ⟨.start (.toggleItem item) now clientHash, spa, 0⟩

/-- The call of the app that an event is. -/
def call (link : PerfectLink item) : LinkEvent → Option AppCall
  | .toggle item => some (.onMqttCommand (.toggleItem item))
  | .ready channel => some (.processFrame ⟨(channel, 0xBF), [0x06]⟩)
  | .status initMode currentTemp =>
    (link.spa.generateStatusFrame initMode currentTemp).map .processFrame
  | .registration payload => some (.processFrame ⟨(0xFE, 0xBF), payload⟩)
  | .tick => some .tick

/-- The link after a call of the app, of which the spa processes the frames. -/
def afterCall (link : PerfectLink item) (c : Timestamp × AppCall) : PerfectLink item where
  ledger := link.ledger.step c
  spa := (sends (link.ledger.app.call c.1 c.2).1).foldl SpaState.processIncomingBytes link.spa
  taken := link.taken + if link.ledger.SendsMarked c false then 1 else 0

/-- The link after an event. -/
def step (link : PerfectLink item) (e : Timestamp × LinkEvent) : PerfectLink item :=
  match link.call e.2 with
  | some c => link.afterCall (e.1, c)
  | none => link

/-- Only toggles that were taken from the queue have been sent, and when no command is left the item
is as it was and so many toggles further. -/
structure AppliedOnce (spa : SpaState) (link : PerfectLink item) : Prop where
  sent : link.ledger.sent = link.taken
  shown : link.ledger.app.commandQueue = [] → link.ledger.app.cmdTracker.pending = [] →
    ∀ accessory : Accessory, accessory.item = item →
      accessory.isOn link.spa = accessory.onAfter spa link.taken

/-- No status finds the item as it was before a toggle that was sent `COMMAND_ACK_TIMEOUT_MS` ago or
more. -/
def SeenInTime (link : PerfectLink item) (e : Timestamp × LinkEvent) : Prop :=
  match e.2 with
  | .status _ _ => ∀ p ∈ link.ledger.app.cmdTracker.pending, p.command = .toggleItem item →
    commandAckTimeoutMs ≤ elapsedSince e.1 p.sentAt → link.spa.changeBy item ≠ some p.expected
  | _ => True

instance (link : PerfectLink item) : DecidablePred link.SeenInTime := fun (now, e) =>
  match e with
  | .status _ _ => inferInstanceAs (Decidable (∀ p ∈ link.ledger.app.cmdTracker.pending,
    p.command = .toggleItem item → commandAckTimeoutMs ≤ elapsedSince now p.sentAt →
      link.spa.changeBy item ≠ some p.expected))
  | .toggle _ | .ready _ | .registration _ | .tick => isTrue trivial

/-- No toggle of the item brings it back to what the last status showed. -/
def Apart (link : PerfectLink item) (e : Timestamp × LinkEvent) : Prop :=
  ∀ c ∈ link.call e.2, link.ledger.app.takenCommand c = some (.toggleItem item) →
    ∀ status ∈ link.ledger.app.lastStatus, ∀ change,
      ExpectedChange.fromCommand (.toggleItem item) status = some change →
        (link.spa.applyToggleByCode item.code).changeBy item ≠ some change

end PerfectLink

/-! ## The change of a toggle -/

section ChangeBy

variable {s : SpaState} {item item' : ToggleItem}

/-- What the app expects of a truthful status is the change of the spa. -/
theorem fromCommand_of_truthful {status : StatusUpdate} (h : Truthful s status)
    (item : ToggleItem) :
    ExpectedChange.fromCommand (.toggleItem item) status = s.changeBy item := by
  unfold ExpectedChange.fromCommand SpaState.changeBy
  cases item <;>
    simp only [h.pumps, h.lights, h.blower, h.isHold, h.heatingMode, h.tempRange] <;> rfl

/-- The toggle of another item does not change what one makes of the state. -/
theorem changeBy_toggle_of_ne (h : item' ≠ item) (s : SpaState) :
    (s.applyToggleByCode item'.code).changeBy item = s.changeBy item := by
  unfold SpaState.changeBy
  cases hpump : item.pumpIndex with
  | some idx =>
    have hother : item'.pumpIndex ≠ some idx := fun hidx => h (eq_of_pumpIndex hidx hpump)
    simp only [toggle_pump, if_neg hother]
  | none =>
    cases hlight : item.lightIndex with
    | some idx =>
      have hother : item'.lightIndex ≠ some idx := fun hidx => h (eq_of_lightIndex hidx hlight)
      simp only [toggle_light, if_neg hother]
    | none =>
      cases item with
      | blower => simp only [toggle_blower, if_neg h]
      | holdMode => simp only [toggle_hold, if_neg h]
      | heatingMode => simp only [toggle_heatingMode, if_neg h]
      | temperatureRange => simp only [toggle_tempRange, if_neg h]
      | _ => rfl

/-- Setting the temperature leaves what a toggle would change alone. -/
theorem changeBy_setTargetTemp (s : SpaState) (temp : Temperature) (item : ToggleItem) :
    (s.setTargetTemp temp).changeBy item = s.changeBy item := by
  obtain ⟨_, _, h⟩ := setTargetTemp_eq s temp
  rw [h]
  rfl

end ChangeBy

namespace PerfectLink

variable {item : ToggleItem} {link : PerfectLink item} {e : Timestamp × LinkEvent} {c : AppCall}

/-! ## What an event does -/

/-- A status that the app hears is truthful. -/
theorem truthful_of_heard (hc : link.call e.2 = some c) {status : StatusUpdate}
    (hheard : link.ledger.app.heardStatus c = some status) :
    (∃ initMode currentTemp, e.2 = .status initMode currentTemp) ∧ Truthful link.spa status := by
  obtain ⟨now, e⟩ := e
  -- The other frames are no statuses.
  have hother : ∀ frame : Frame, frame.messageType ≠ (0xFF, 0xAF) →
      link.ledger.app.heardStatus (.processFrame frame) ≠ some status := by
    intro frame hne h
    dsimp only [SpaApp.heardStatus] at h
    split at h
    · rename_i hdispatch
      exact hne (messageType_of_statusUpdate hdispatch)
    · cases h
  cases e with
  | toggle item' =>
    cases hc
    cases hheard
  | ready channel =>
    cases hc
    exact absurd hheard (hother _ fun h => absurd (Prod.mk.inj h).2 (by decide))
  | status initMode currentTemp =>
    obtain ⟨frame, hframe, rfl⟩ := Option.map_eq_some_iff.1 hc
    obtain ⟨status', hdispatch, htruthful⟩ := dispatchFrame_status link.spa hframe
    dsimp only [SpaApp.heardStatus] at hheard
    rw [hdispatch] at hheard
    dsimp only at hheard
    split_ifs at hheard
    cases hheard
    exact ⟨⟨initMode, currentTemp, rfl⟩, htruthful⟩
  | registration payload =>
    cases hc
    exact absurd hheard (hother _ fun h => absurd (Prod.mk.inj h).1 (by decide))
  | tick =>
    cases hc
    cases hheard

/-- The app starts no pump timer. -/
theorem call_ne_startPumpTimer (hc : link.call e.2 = some c) (pumpIndex : UInt8)
    (minutes : UInt32) : c ≠ .startPumpTimer pumpIndex minutes := by
  rintro rfl
  obtain ⟨now, e⟩ := e
  cases e with
  | status initMode currentTemp =>
    obtain ⟨frame, -, h⟩ := Option.map_eq_some_iff.1 hc
    cases h
  | _ => cases hc

/-- A grant without a command to send is answered with a frame that the spa ignores, if at all. -/
theorem ignored_onReady {app : SpaApp} {now : Timestamp} {frame : Frame} {channel : UInt8}
    (hreg : app.registration.isRegistered = true) (hframe : dispatchFrame frame = .ready channel)
    (htaken : app.takenCommand (.processFrame frame) = none) :
    ∀ bytes ∈ sends (app.onReady now channel).1, Ignored bytes := by
  intro bytes hb
  unfold SpaApp.onReady at hb
  by_cases hother : app.clientId.any (· ≠ channel) = true
  · rw [if_pos hother] at hb
    exact absurd hb List.not_mem_nil
  rw [if_neg hother] at hb
  dsimp only at hb
  cases hqueue : app.commandQueue with
  | nil =>
    rw [hqueue] at hb
    cases hid : app.clientId with
    | none =>
      rw [hid] at hb
      exact absurd hb List.not_mem_nil
    | some cid =>
      rw [hid] at hb
      rw [List.mem_singleton.1 hb]
      exact ignored_nothingToSend cid
  | cons cmd queue =>
    -- A queued command would be taken.
    have hown : app.clientId.all (· = channel) = true := by
      cases hid : app.clientId <;> simp_all
    dsimp only [SpaApp.takenCommand] at htaken
    rw [hframe] at htaken
    dsimp only at htaken
    rw [if_pos ⟨hreg, hown⟩, hqueue] at htaken
    cases htaken

/-- A call that takes no command sends only frames that the spa ignores. -/
theorem ignored_of_taken_eq_none (hc : link.call e.2 = some c)
    (htaken : link.ledger.app.takenCommand c = none) :
    ∀ bytes ∈ sends (link.ledger.app.call e.1 c).1, Ignored bytes := by
  obtain ⟨now, e⟩ := e
  have hframe : ∀ frame, link.ledger.app.takenCommand (.processFrame frame) = none →
      ∀ bytes ∈ sends (link.ledger.app.processFrame now frame).1, Ignored bytes := by
    intro frame htaken bytes hb
    cases link.ledger.app.processFrame_effect now frame with
    | waiting held refuses held' id sent =>
      rcases sent with hnil | ⟨msg, hmsg⟩
      · exact absurd (hnil ▸ hb) List.not_mem_nil
      · rw [hmsg, List.mem_singleton] at hb
        exact hb ▸ ignored_registration msg
    | assigned ch hash held state frame_eq own held' id sent =>
      rw [sent, List.mem_singleton] at hb
      exact hb ▸ ignored_registration _
    | granted old ch held frame_eq held' id result =>
      rw [result] at hb
      exact ignored_onReady (RegistrationStateMachine.isRegistered_iff.2 ⟨old, held⟩) frame_eq
        htaken bytes hb
    | confirmed ch held state frame_eq held' id sent => exact absurd (sent ▸ hb) List.not_mem_nil
    | reassigned old ch hash held frame_eq held' id sent =>
      exact absurd (sent ▸ hb) List.not_mem_nil
    | other old held assignment ready held' id sent => exact absurd (sent ▸ hb) List.not_mem_nil
  cases e with
  | toggle item' =>
    cases hc
    intro bytes hb
    exact absurd ((link.ledger.app.onMqttCommand_commands _).2.2.2.2 ▸ hb) List.not_mem_nil
  | ready channel =>
    cases hc
    exact hframe _ htaken
  | status initMode currentTemp =>
    obtain ⟨frame, -, rfl⟩ := Option.map_eq_some_iff.1 hc
    exact hframe _ htaken
  | registration payload =>
    cases hc
    exact hframe _ htaken
  | tick =>
    cases hc
    intro bytes hb
    replace hb : bytes ∈ sends (link.ledger.app.tick now).1 := hb
    rw [(link.ledger.app.tick_link now).2] at hb
    split at hb
    · obtain ⟨cid, -, rfl⟩ := Option.map_eq_some_iff.1 (Option.mem_toList.1 hb)
      exact ignored_nothingToSend cid
    · exact absurd hb List.not_mem_nil

/-- A call sends a command that it takes from the queue, or the spa is left as it is. -/
theorem spa_afterCall (hc : link.call e.2 = some c) :
    (∃ cmd, link.ledger.app.takenCommand c = some cmd ∧
        sends (link.ledger.app.call e.1 c).1 = [encodeCommand cmd] ∧
        (link.afterCall (e.1, c)).spa = link.spa.processIncomingBytes (encodeCommand cmd)) ∨
      link.ledger.app.takenCommand c = none ∧ (link.afterCall (e.1, c)).spa = link.spa ∧
        ∀ bytes ∈ sends (link.ledger.app.call e.1 c).1, IsOther bytes := by
  have hkept : link.ledger.app.takenCommand c = none →
      (link.afterCall (e.1, c)).spa = link.spa := by
    intro htaken
    have hignored := ignored_of_taken_eq_none hc htaken
    unfold afterCall
    dsimp only
    generalize sends (link.ledger.app.call e.1 c).1 = frames at hignored
    induction frames with
    | nil => rfl
    | cons bytes frames ih =>
      rw [List.forall_mem_cons] at hignored
      rw [List.foldl_cons, hignored.1, ih hignored.2]
  cases link.ledger.app.call_commands e.1 c with
  | granted cmd queue heard taken queued sent queue' status tracker timers =>
    refine .inl ⟨cmd, taken, sent, ?_⟩
    unfold afterCall
    dsimp only
    rw [sent]
    rfl
  | kept same heard taken sent => exact .inr ⟨taken, hkept taken, sent⟩
  | observed status heard taken result =>
    refine .inr ⟨taken, hkept taken, sends_isOther_nil ?_⟩
    rw [result]
    rfl
  | submitted cmd hcall result =>
    have htaken : link.ledger.app.takenCommand c = none := by
      rw [hcall]
      rfl
    refine .inr ⟨htaken, hkept htaken, sends_isOther_nil ?_⟩
    rw [result]
    exact (link.ledger.app.onMqttCommand_commands cmd).2.2.2.2
  | dropped queue pending status timers heard taken sent => exact .inr ⟨taken, hkept taken, sent⟩
  | pumpStarted pumpIndex minutes item' hcall =>
    exact absurd hcall (call_ne_startPumpTimer hc pumpIndex minutes)

/-! ## Runs -/

/-- No retransmission is queued, and the item is where the toggles taken have brought it. -/
structure Kept (spa : SpaState) (link : PerfectLink item) : Prop where
  bounded : link.ledger.Bounded
  fresh : (.toggleItem item, true) ∉ link.ledger.marked
  sent : link.ledger.sent = link.taken
  moved : ∀ accessory : Accessory, accessory.item = item → ∀ steps,
    accessory.onAfter link.spa steps = accessory.onAfter spa (link.taken + steps)

variable {spa : SpaState}

/-- In the beginning nothing is under way. -/
theorem kept_start (item : ToggleItem) (now : Timestamp) (clientHash : ClientHash)
    (spa : SpaState) : (start item now clientHash spa).Kept spa where
  bounded := CommandLedger.bounded_start (.toggleItem item) now clientHash
  fresh := List.not_mem_nil
  sent := rfl
  moved := fun accessory _ steps => congrArg (accessory.onAfter spa ·) (Nat.zero_add steps).symm

/-- A link that keeps its invariant has applied every toggle once. -/
theorem Kept.appliedOnce (h : link.Kept spa) : link.AppliedOnce spa where
  sent := h.sent
  shown := fun _ _ accessory hitem => by
    rw [← accessory.onAfter_zero, h.moved accessory hitem 0, Nat.add_zero]

/-- A toggle of the item that is taken is no retransmission. -/
theorem Kept.sendsMarked_iff (h : link.Kept spa) (now : Timestamp) :
    link.ledger.SendsMarked (now, c) false ↔
      link.ledger.app.takenCommand c = some (.toggleItem item) := by
  exact ⟨And.left, h.bounded.sendsMarked_of_fresh (c := (now, c)) h.fresh⟩

/-- A status that does not confirm a toggle shows the item as it was before it. -/
theorem Kept.changeBy_of_not_confirmed (h : link.Kept spa) (hc : link.call e.2 = some c)
    {status : StatusUpdate} (hheard : link.ledger.app.heardStatus c = some status)
    {p : PendingCommand} (hp : p ∈ link.ledger.app.cmdTracker.pending)
    (hcommand : p.command = .toggleItem item)
    (hconf : CommandTracker.isConfirmed p.expected status = false) :
    link.spa.changeBy item = some p.expected := by
  obtain ⟨preStatus, hexpected⟩ := h.bounded.wellFormed p hp
  have hstill := ExpectedChange.fromCommand_of_not_confirmed hexpected hconf
  rw [hcommand, fromCommand_of_truthful (truthful_of_heard hc hheard).2] at hstill
  exact hstill

/-- No retransmission is queued after an event in time. -/
theorem Kept.fresh_afterCall (h : link.Kept spa) (hc : link.call e.2 = some c)
    (htime : link.SeenInTime e) :
    (.toggleItem item, true) ∉ (link.afterCall (e.1, c)).ledger.marked := by
  intro hmem
  rcases CommandLedger.mem_marked_step hmem with hmem | ⟨status, hheard, p, hp, hcommand, hretry⟩
  · exact h.fresh hmem
  · obtain ⟨⟨initMode, currentTemp, he⟩, -⟩ := truthful_of_heard hc hheard
    have hconf := CommandTracker.not_confirmed_of_verdict (.inr hretry)
    unfold SeenInTime at htime
    rw [he] at htime
    exact htime p hp hcommand (CommandTracker.elapsed_of_verdict_retry hretry)
      (h.changeBy_of_not_confirmed hc hheard hp hcommand hconf)

/-- A call keeps the count: the frames that toggle the item are the toggles taken. -/
theorem Kept.sent_afterCall (h : link.Kept spa) (hc : link.call e.2 = some c) :
    (link.afterCall (e.1, c)).ledger.sent = (link.afterCall (e.1, c)).taken := by
  have htaken' : (link.afterCall (e.1, c)).taken = link.taken +
      if link.ledger.app.takenCommand c = some (.toggleItem item) then 1 else 0 := by
    simp only [afterCall, h.sendsMarked_iff]
  rw [htaken', ← h.sent]
  rcases spa_afterCall hc with ⟨cmd, htaken, hsends, -⟩ | ⟨htaken, -, hother⟩
  · show link.ledger.sent + (sends (link.ledger.app.call e.1 c).1).countP _ = _
    rw [hsends, htaken, List.countP_singleton]
    simp only [decide_eq_true_eq, Carries, toggles_encodeCommand, Option.some.injEq]
  · rw [htaken, if_neg (Option.some_ne_none _).symm]
    exact CommandLedger.step_sent hother

/-- A call moves the item by the toggles taken. -/
theorem Kept.moved_afterCall (h : link.Kept spa) (hc : link.call e.2 = some c)
    {accessory : Accessory} (hitem : accessory.item = item) (steps : ℕ) :
    accessory.onAfter (link.afterCall (e.1, c)).spa steps =
      accessory.onAfter spa ((link.afterCall (e.1, c)).taken + steps) := by
  have htaken' : (link.afterCall (e.1, c)).taken = link.taken +
      if link.ledger.app.takenCommand c = some (.toggleItem item) then 1 else 0 := by
    simp only [afterCall, h.sendsMarked_iff]
  rw [htaken', Nat.add_assoc]
  rcases spa_afterCall hc with ⟨cmd, htaken, -, hspa⟩ | ⟨htaken, hspa, -⟩
  · rw [hspa, accessory.onAfter_encodeCommand, h.moved accessory hitem, htaken, hitem]
    simp only [Option.some.injEq]
  · rw [hspa, h.moved accessory hitem, htaken, if_neg (Option.some_ne_none _).symm, Nat.zero_add]

/-- An event in time keeps the invariant. -/
theorem Kept.step (h : link.Kept spa) (htime : link.SeenInTime e) : (link.step e).Kept spa := by
  unfold PerfectLink.step
  cases hc : link.call e.2 with
  | none => exact h
  | some c =>
    have hbounded : (link.afterCall (e.1, c)).ledger.Bounded :=
      h.bounded.step (fun _ _ hmem => absurd hmem h.fresh) (call_ne_startPumpTimer hc)
    exact ⟨hbounded, h.fresh_afterCall hc htime, h.sent_afterCall hc,
      fun accessory hitem => h.moved_afterCall hc hitem⟩

/-- In a run in which every status comes in time, each toggle that is taken from the queue is
applied once: the app sends no other one, and when no command is left the item is where they have
brought it. -/
theorem appliedOnce_of_seenInTime (item : ToggleItem) (now : Timestamp) (clientHash : ClientHash)
    (spa : SpaState) (events : List (Timestamp × LinkEvent))
    (hrun : Along step SeenInTime (start item now clientHash spa) events) :
    ∀ pre post, events = pre ++ post →
      (pre.foldl step (start item now clientHash spa)).AppliedOnce spa := by
  rintro pre post rfl
  rw [along_append] at hrun
  have hkept := hrun.1.invariant (I := Kept spa) (fun _ _ h htime => h.step htime)
    (kept_start item now clientHash spa)
  exact hkept.appliedOnce

/-- A light that is switched on and off again, with a status before and after. -/
def switchedTwice : List (Timestamp × LinkEvent) :=
  [(0, .registration [0x00]), (0, .registration [0x02, 0x11, 0x00, 0x01]), (100, .status 0 0x64),
    (200, .toggle .light1), (300, .ready 0x11), (1100, .status 0 0x64), (1200, .toggle .light1),
    (1300, .ready 0x11), (7000, .status 0 0x64)]

/-- The light is switched twice, and the app has no command left. -/
theorem appliedOnce_switchedTwice :
    (switchedTwice.foldl step (start .light1 0 (0x00, 0x01) SpaState.default)).AppliedOnce
      SpaState.default :=
  appliedOnce_of_seenInTime .light1 0 (0x00, 0x01) SpaState.default switchedTwice
    (by decide +kernel) switchedTwice [] (List.append_nil _).symm

/-- A light that is switched on and off again between two statuses. After the second status its
toggle is sent a third time, and the light is on. -/
theorem not_appliedOnce :
    let link := [(0, .registration [0x00]), (0, .registration [0x02, 0x11, 0x00, 0x01]),
      (100, .status 0 0x64), (200, .toggle .light1), (300, .ready 0x11), (400, .toggle .light1),
      (500, .ready 0x11), (5500, .status 0 0x64), (5600, .ready 0x11),
      (6500, LinkEvent.status 0 0x64)].foldl step
        (start .light1 0 (0x00, 0x01) SpaState.default)
    link.ledger.app.commandQueue = [] ∧ link.ledger.app.cmdTracker.pending = [] ∧
      ¬ link.AppliedOnce SpaState.default := by
  intro link
  have hrun : link.ledger.app.commandQueue = [] ∧ link.ledger.app.cmdTracker.pending = [] ∧
      link.ledger.sent = 3 ∧ link.taken = 2 := by decide +kernel
  refine ⟨hrun.1, hrun.2.1, fun h => ?_⟩
  have hsent := h.sent
  rw [hrun.2.2.1, hrun.2.2.2] at hsent
  exact absurd hsent (by decide)

/-! ## Toggles that are apart -/

/-- Every toggle of the item that is pending has changed it. -/
def Changed (link : PerfectLink item) : Prop :=
  ∀ p ∈ link.ledger.app.cmdTracker.pending, p.command = .toggleItem item →
    link.spa.changeBy item ≠ some p.expected

/-- A command that is no toggle of the item does not change what one makes of the spa. -/
theorem changeBy_encodeCommand {cmd : Command} (h : cmd ≠ .toggleItem item) (s : SpaState) :
    (s.processIncomingBytes (encodeCommand cmd)).changeBy item = s.changeBy item := by
  rcases processIncomingBytes_encodeCommand s cmd with
    ⟨item', rfl, happlied⟩ | ⟨-, ⟨temp, hset⟩ | hset⟩
  · rw [happlied]
    exact changeBy_toggle_of_ne (fun hitem => h (congrArg _ hitem)) s
  · rw [hset]
    exact changeBy_setTargetTemp s temp item
  · rw [hset]

/-- The status confirms every toggle that has changed the item. -/
theorem Kept.changed_of_heard (h : link.Kept spa) (hchanged : link.Changed)
    (hc : link.call e.2 = some c) {status : StatusUpdate}
    (hheard : link.ledger.app.heardStatus c = some status) :
    (link.afterCall (e.1, c)).Changed := by
  intro p' hp' hcommand
  rcases CommandLedger.mem_pending_step hp' with htaken | ⟨p, hp, hsame, hnot⟩
  · exact absurd ((takenCommand_of_heard hheard).symm.trans htaken) (Option.some_ne_none _).symm
  · have hconf : CommandTracker.isConfirmed p.expected status = false :=
      eq_false_of_ne_true fun hconf =>
        hnot status hheard (CommandTracker.verdict_eq_confirmed.2 hconf)
    have hcommand' := hsame.trans hcommand
    exact absurd (h.changeBy_of_not_confirmed hc hheard hp hcommand' hconf)
      (hchanged p hp hcommand')

/-- A toggle that is apart from the last status has changed the item. -/
theorem Kept.changed_of_not_heard (h : link.Kept spa) (hchanged : link.Changed)
    (hc : link.call e.2 = some c) (hapart : link.Apart e)
    (hkept : (link.afterCall (e.1, c)).Kept spa)
    (hheard : link.ledger.app.heardStatus c = none) : (link.afterCall (e.1, c)).Changed := by
  intro p' hp' hcommand
  -- An entry expects the change of the last status, which is still the same.
  obtain ⟨status, hstatus, hexpected⟩ := hkept.bounded.expected p' hp'
  rw [show (link.afterCall (e.1, c)).ledger.app.lastStatus = _ from lastStatus_of_unheard hheard]
    at hstatus
  rw [hcommand] at hexpected
  by_cases htaken : link.ledger.app.takenCommand c = some (.toggleItem item)
  · rcases spa_afterCall hc with ⟨cmd, htaken', -, hspa⟩ | ⟨htaken', -, -⟩
    · obtain rfl := Option.some.inj (htaken'.symm.trans htaken)
      rcases processIncomingBytes_encodeCommand link.spa (.toggleItem item) with
        ⟨item', heq, happlied⟩ | ⟨hother, -⟩
      · obtain rfl := Command.toggleItem.inj heq
        rw [hspa, happlied]
        exact hapart c hc htaken status hstatus p'.expected hexpected
      · exact absurd rfl (hother item)
    · exact absurd (htaken'.symm.trans htaken) (Option.some_ne_none _).symm
  -- Otherwise the entry was pending before, and the item is as it was.
  have hsame : (link.afterCall (e.1, c)).spa.changeBy item = link.spa.changeBy item := by
    rcases spa_afterCall hc with ⟨cmd, htaken', -, hspa⟩ | ⟨-, hspa, -⟩
    · rw [hspa]
      exact changeBy_encodeCommand (fun heq => htaken (htaken'.trans (congrArg some heq))) link.spa
    · rw [hspa]
  rcases CommandLedger.mem_pending_step hp' with htaken' | ⟨p, hp, hcommand', -⟩
  · exact absurd (htaken'.trans (congrArg some hcommand)) htaken
  · obtain ⟨status', hstatus', hexpected'⟩ := h.bounded.expected p hp
    obtain rfl := Option.some.inj (hstatus.symm.trans hstatus')
    rw [hcommand', hcommand] at hexpected'
    rw [hsame, ← hexpected, hexpected']
    exact hchanged p hp (hcommand'.trans hcommand)

/-- In a run in which no toggle brings its item back to what the last status showed, every status
comes in time. -/
theorem seenInTime_of_apart (item : ToggleItem) (now : Timestamp) (clientHash : ClientHash)
    (spa : SpaState) (events : List (Timestamp × LinkEvent))
    (hrun : Along step Apart (start item now clientHash spa) events) :
    Along step SeenInTime (start item now clientHash spa) events := by
  refine hrun.imp_of_invariant (I := fun link => link.Kept spa ∧ link.Changed) ?_
    ⟨kept_start item now clientHash spa, fun p hp => absurd hp List.not_mem_nil⟩
  rintro link e ⟨h, hchanged⟩ hapart
  have htime : link.SeenInTime e := by
    unfold SeenInTime
    split
    · exact fun p hp hcommand _ => hchanged p hp hcommand
    · trivial
  refine ⟨htime, h.step htime, ?_⟩
  have hkept := h.step htime
  unfold PerfectLink.step at hkept ⊢
  cases hc : link.call e.2 with
  | none => exact hchanged
  | some c =>
    rw [hc] at hkept
    cases hheard : link.ledger.app.heardStatus c with
    | some status => exact h.changed_of_heard hchanged hc hheard
    | none => exact h.changed_of_not_heard hchanged hc hapart hkept hheard

end PerfectLink

end Launa.Sim
