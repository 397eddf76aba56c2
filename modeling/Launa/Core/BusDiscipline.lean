import Launa.Core.ChannelAgreement
import Launa.Protocol.CommandFrames

/-!
# Who may send, and when

The bus is half duplex: apart from registration, a client sends when the controller has granted it
to. The app sends out of turn on three paths: `start_pump_timer` sends its command at once, `tick`
probes a bus that has fallen silent, and a grant for another channel than the one held is answered
when the client ID says so, or when there is none and a command is queued. These are all: a step
keeps the discipline exactly when it takes none of them (`disciplined_iff`).

What counts as a grant is a parameter of the discipline: every frame that is dispatched as `Ready`,
or only the clear-to-send frames `XX BF 06` among them.
-/

namespace Launa.Protocol

/-- The frame is dispatched as a grant of the channel. -/
def IsReady (frame : Frame) (channel : UInt8) : Prop := dispatchFrame frame = .ready channel

/-- The frame is a clear-to-send of the channel, `XX BF 06`. -/
def IsClearToSend (frame : Frame) (channel : UInt8) : Prop :=
  frame.messageType = (channel, 0xBF) ∧ frame.payload.head? = some 0x06

end Launa.Protocol

namespace Launa.Core.SpaApp

open Protocol Run

/-- What the call at a time sends, registration messages apart, it sends for a frame that grants the
channel that the registration state machine holds; and a frame makes it send at most once. -/
structure Disciplined (grants : Frame → UInt8 → Prop) (app : SpaApp) (c : Timestamp × AppCall) :
    Prop where
  inTurn : ∀ bytes, .sendFrame bytes ∈ (app.call c.1 c.2).1 → ¬ IsRegistrationFrame bytes →
    ∃ frame channel, c.2 = .processFrame frame ∧ grants frame channel ∧ app.channel = some channel
  once : ∀ frame, c.2 = .processFrame frame → (sends (app.call c.1 c.2).1).length ≤ 1

/-- The call is on none of the paths that send out of turn: a grant for another channel than the one
held does not reach the client ID, nor an app without one that has a command queued; no probe is due
for a client ID whose grants have not stopped; and the index is of no pump. -/
def InTurn (grants : Frame → UInt8 → Prop) (self : SpaApp) (c : Timestamp × AppCall) : Prop :=
  match c.2 with
  | .processFrame frame => ∀ held channel, self.channel = some held →
    dispatchFrame frame = .ready channel → ¬ (grants frame channel ∧ channel = held) →
    self.clientId ≠ some channel ∧ (self.clientId = none → self.commandQueue = [])
  | .tick => self.probeDue c.1 = true → self.ctsLost c.1 = false → self.clientId = none
  | .startPumpTimer pumpIndex _ => ¬ (1 ≤ pumpIndex.toNat ∧ pumpIndex.toNat ≤ 6)
  | _ => True

variable {grants : Frame → UInt8 → Prop} {self : SpaApp} {now : Timestamp}

/-- A grant makes the app send at most one frame, the encoding of a command, and none at all exactly
when it is for another client ID, or there is none and no command is queued. -/
theorem sends_onReady (self : SpaApp) (now : Timestamp) (channel : UInt8) :
    (sends (self.onReady now channel).1 = [] ∧
        self.clientId ≠ some channel ∧ (self.clientId = none → self.commandQueue = [])) ∨
      ((∃ cmd, sends (self.onReady now channel).1 = [encodeCommand cmd]) ∧
        ¬ (self.clientId ≠ some channel ∧ (self.clientId = none → self.commandQueue = []))) := by
  unfold onReady
  cases hid : self.clientId with
  | some cid =>
    by_cases hcid : cid = channel
    · subst hcid
      rw [if_neg (by simp)]
      dsimp only
      refine .inr ⟨?_, fun h => h.1 rfl⟩
      cases self.commandQueue with
      | nil => exact ⟨_, rfl⟩
      | cons cmd queue => exact ⟨cmd, rfl⟩
    · rw [if_pos (by simpa using hcid)]
      exact .inl ⟨rfl, fun h => hcid (Option.some.inj h), nofun⟩
  | none =>
    rw [if_neg (by simp)]
    dsimp only
    cases hqueue : self.commandQueue with
    | nil => exact .inl ⟨rfl, nofun, fun _ => rfl⟩
    | cons cmd queue => exact .inr ⟨⟨cmd, rfl⟩, fun h => nomatch h.2 rfl⟩

/-- A call that sends nothing, or registration messages only, is disciplined. -/
theorem disciplined_of_registration {c : Timestamp × AppCall}
    (h : sends (self.call c.1 c.2).1 = [] ∨
      ∃ msg : RegistrationMessage, sends (self.call c.1 c.2).1 = [msg.bytes]) :
    self.Disciplined grants c := by
  constructor
  · intro bytes hbytes hreg
    rw [← mem_sends] at hbytes
    rcases h with h | ⟨msg, h⟩
    · rw [h] at hbytes
      cases hbytes
    · rw [h, List.mem_singleton] at hbytes
      exact absurd ⟨msg, hbytes ▸ msg.encode_ok⟩ hreg
  · intro _ _
    rcases h with h | ⟨msg, h⟩
    · rw [h]
      exact Nat.zero_le _
    · rw [h]
      exact Nat.le_refl _

/-- A call other than a frame that sends a command is not disciplined. -/
theorem not_disciplined_of_command {c : Timestamp × AppCall}
    (hframe : ∀ frame, c.2 ≠ .processFrame frame)
    {cmd : Command} (h : sends (self.call c.1 c.2).1 = [encodeCommand cmd]) :
    ¬ self.Disciplined grants c := by
  intro hd
  have hmem : encodeCommand cmd ∈ sends (self.call c.1 c.2).1 := by
    rw [h]
    exact List.mem_singleton.2 rfl
  obtain ⟨frame, _, hc, -, -⟩ :=
    hd.inTurn _ (mem_sends.1 hmem) (encodeCommand_not_registration cmd)
  exact hframe frame hc

/-- A frame keeps the discipline exactly when it is not a grant that is answered out of turn. -/
theorem processFrame_disciplined_iff
    (hgrants : ∀ frame ch ch', grants frame ch → dispatchFrame frame = .ready ch' → ch = ch')
    (frame : Frame) : self.Disciplined grants (now, .processFrame frame) ↔
      self.InTurn grants (now, .processFrame frame) := by
  cases self.processFrame_effect now frame with
  | waiting held refuses held' id sent =>
    exact iff_of_true (disciplined_of_registration sent) fun old _ hold =>
      nomatch held.symm.trans hold
  | assigned ch hash held state frame_eq own held' id sent =>
    exact iff_of_true (disciplined_of_registration (.inr ⟨_, sent⟩)) fun old _ hold =>
      nomatch held.symm.trans hold
  | confirmed ch held state frame_eq held' id sent =>
    exact iff_of_true (disciplined_of_registration (.inl sent)) fun old _ hold =>
      nomatch held.symm.trans hold
  | reassigned old ch hash held frame_eq held' id sent =>
    exact iff_of_true (disciplined_of_registration (.inl sent)) fun _ _ _ hready =>
      nomatch (isAssignment_iff.1 frame_eq).symm.trans hready
  | other old held assignment ready held' id sent =>
    exact iff_of_true (disciplined_of_registration (.inl sent)) fun _ ch _ hready =>
      absurd hready (ready ch)
  | granted old ch held frame_eq held' id result =>
    have hcall : self.call now (.processFrame frame) = self.onReady now ch := result
    rcases self.sends_onReady now ch with ⟨hsent, hquiet⟩ | ⟨⟨cmd, hsent⟩, hloud⟩
    -- The grant is not answered.
    · refine iff_of_true (disciplined_of_registration (.inl (by rw [hcall, hsent]))) ?_
      intro held2 ch2 _ hready _
      cases frame_eq.symm.trans hready
      exact hquiet
    · -- A command is sent, so the discipline says that the grant is for the channel held.
      constructor
      · intro hd held2 ch2 hheld2 hready hno
        cases frame_eq.symm.trans hready
        have hmem : encodeCommand cmd ∈ sends (self.call now (.processFrame frame)).1 := by
          rw [hcall, hsent]
          exact List.mem_singleton.2 rfl
        obtain ⟨frame', ch', hc, hgrant, hheld'⟩ :=
          hd.inTurn _ (mem_sends.1 hmem) (encodeCommand_not_registration cmd)
        cases hc
        obtain rfl := hgrants frame ch' ch hgrant frame_eq
        exact absurd ⟨hgrant, Option.some.inj (hheld'.symm.trans hheld2)⟩ hno
      · intro hturn
        have hgrant : grants frame ch ∧ ch = old := by
          by_contra hno
          exact hloud (hturn old ch held frame_eq hno)
        obtain ⟨hgrant, rfl⟩ := hgrant
        refine ⟨fun _ _ _ => ⟨frame, ch, rfl, hgrant, held⟩, fun _ _ => ?_⟩
        show (sends (self.call now (.processFrame frame)).1).length ≤ 1
        rw [hcall, hsent]
        exact Nat.le_refl _

/-- A step keeps the discipline exactly when it is on none of the paths that send out of turn. -/
theorem disciplined_iff
    (hgrants : ∀ frame ch ch', grants frame ch → dispatchFrame frame = .ready ch' → ch = ch')
    (self : SpaApp) (c : Timestamp × AppCall) : self.Disciplined grants c ↔
      self.InTurn grants c := by
  obtain ⟨now, c⟩ := c
  have hsilent : sends (self.call now c).1 = [] → self.Disciplined grants (now, c) := fun h =>
    disciplined_of_registration (.inl h)
  cases c with
  | processFrame frame => exact processFrame_disciplined_iff hgrants frame
  | onMqttCommand cmd => exact iff_of_true (hsilent (self.onMqttCommand_silent cmd).sent) trivial
  | forcePublish => exact iff_of_true (hsilent self.forcePublish_silent.sent) trivial
  | checkHeap freeHeap =>
    exact iff_of_true (hsilent (self.checkHeap_silent now freeHeap).sent) trivial
  | setPreviousChannel ch => exact iff_of_true (hsilent rfl) trivial
  | resetRegistrationState clearCommands => exact iff_of_true (hsilent rfl) trivial
  | startPumpTimer pumpIndex minutes =>
    obtain ⟨-, -, hsent⟩ := self.startPumpTimer_link now pumpIndex minutes
    have hvalid := self.pumpTimers.startTimer_isSome pumpIndex minutes now
    cases hcmd : (self.pumpTimers.startTimer pumpIndex minutes now).1 with
    | none =>
      rw [hcmd] at hsent hvalid
      exact iff_of_true (hsilent hsent) fun h => nomatch hvalid.2 h
    | some cmd =>
      rw [hcmd] at hsent hvalid
      exact iff_of_false (not_disciplined_of_command nofun hsent) fun h => h (hvalid.1 rfl)
  | tick =>
    have hsent := (self.tick_link now).2
    by_cases hprobe : self.probeDue now = true ∧ self.ctsLost now = false
    · rw [if_pos hprobe] at hsent
      cases hid : self.clientId with
      | none =>
        rw [hid] at hsent
        exact iff_of_true (hsilent hsent) fun _ _ => hid
      | some cid =>
        rw [hid] at hsent
        exact iff_of_false (not_disciplined_of_command nofun hsent) fun h =>
          nomatch hid.symm.trans (h hprobe.1 hprobe.2)
    · rw [if_neg hprobe] at hsent
      exact iff_of_true (hsilent hsent) fun h1 h2 => absurd ⟨h1, h2⟩ hprobe

/-- In a run every step keeps the discipline exactly when every step is on none of the paths that
send out of turn, whether the grants are the frames dispatched as `Ready` or the clear-to-send
frames. -/
theorem run_disciplined_iff (app : SpaApp) (cs : List (Timestamp × AppCall)) :
    (Along step (Disciplined IsReady) app cs ↔ Along step (InTurn IsReady) app cs) ∧
      (Along step (Disciplined IsClearToSend) app cs ↔
        Along step (InTurn IsClearToSend) app cs) := by
  constructor
  · refine along_congr (disciplined_iff fun frame ch ch' h h' => ?_)
    exact IncomingMessage.ready.inj (h.symm.trans h')
  · refine along_congr (disciplined_iff fun frame ch ch' h h' => ?_)
    exact (Prod.mk.inj (h.1.symm.trans (dispatchFrame_eq_ready.1 h').1)).1

/-- A pump timer that is started before the app has registered sends at once. -/
theorem run_startPumpTimer_undisciplined :
    ¬ Along step (Disciplined IsReady)
      (withClientHash 0 (0x00, 0x01)) [(0, .startPumpTimer 1 20)] := by
  intro h
  have hsent : sends ((withClientHash 0 (0x00, 0x01)).call 0 (.startPumpTimer 1 20)).1 =
      [encodeCommand (.toggleItem .pump1)] := rfl
  have hframe : ∀ frame, AppCall.startPumpTimer 1 20 ≠ .processFrame frame := nofun
  exact not_disciplined_of_command hframe hsent h.1

end Launa.Core.SpaApp
