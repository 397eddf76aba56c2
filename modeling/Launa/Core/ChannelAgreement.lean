import Launa.Core.Transitions
import Launa.Lib.Run

/-!
# The client ID and the channel

The app stores its channel twice, as its client ID and in its registration state machine. Three
paths update one and not the other: a confirmation of the previous channel registers the state
machine alone, an assignment that reaches a registered app changes the client ID alone, and
`set_previous_channel` replaces the state machine alone. A run agrees in every state exactly when it
takes none of them where it matters (`run_agrees_iff`).
-/

namespace Launa.Core.SpaApp

open Protocol Run

/-- The client ID is the channel of a registered state machine, and none without one. -/
structure Agrees (app : SpaApp) : Prop where
  registered : ∀ channel, app.registration.state = .registered channel →
    app.clientId = some channel
  unregistered : app.registration.isRegistered = false → app.clientId = none

/-- The call is not one of those that part the client ID from the channel: the confirmation that an
app waits for, an assignment of another channel than the one held, or a new state machine in place
of one that holds a channel. -/
def KeepsAgreement (self : SpaApp) (c : Timestamp × AppCall) : Prop :=
  match c.2 with
  | .processFrame frame =>
    (self.registration.state = .waitingForExistingResponse →
      ∀ ch, ¬ IsConfirmation frame ch self.registration.clientHash) ∧
    ∀ held ch hash, self.channel = some held → IsAssignment frame ch hash → ch = held
  | .setPreviousChannel _ => self.channel = none
  | _ => True

variable {self : SpaApp}

/-- App and registration agree exactly if they have the same channel, or none. -/
theorem agrees_iff : self.Agrees ↔ self.clientId = self.channel := by
  unfold channel RegistrationStateMachine.clientId
  constructor
  · rintro ⟨h1, h2⟩
    cases hstate : self.registration.state with
    | registered ch => exact h1 ch hstate
    | _ => exact h2 (by rw [RegistrationStateMachine.isRegistered, hstate])
  · intro h
    constructor
    · intro ch hstate
      rw [h, hstate]
    · intro hreg
      rw [h]
      exact RegistrationStateMachine.isRegistered_eq_false.1 hreg

/-- A call that keeps the link keeps the agreement. -/
theorem Silent.agrees {r : AppResult} (h : self.Silent r) (ha : self.Agrees) : r.2.Agrees := by
  rw [agrees_iff] at ha ⊢
  rw [h.held, h.id, ha]

/-- A frame keeps the agreement exactly when it is none of those that break it. -/
theorem processFrame_agrees (ha : self.Agrees) (now : Timestamp) (frame : Frame) :
    (self.processFrame now frame).2.Agrees ↔ self.KeepsAgreement (now, .processFrame frame) := by
  rw [agrees_iff] at ha ⊢
  have hregistered : ∀ ch, self.channel = some ch →
      self.registration.state ≠ .waitingForExistingResponse := fun ch h hstate => by
    rw [channel, RegistrationStateMachine.clientId, hstate] at h
    cases h
  cases self.processFrame_effect now frame with
  | waiting held refuses held' id sent =>
    refine iff_of_true (by rw [held', id, ha, held])
      ⟨fun hstate ch hconfirm => ?_, fun old _ _ h => ?_⟩
    · exact (refuses _ hconfirm).2 ch hstate rfl
    · exact nomatch held.symm.trans h
  | assigned ch hash held state frame_eq own held' id sent =>
    refine iff_of_true (by rw [held', id]) ⟨fun hstate => ?_, fun old _ _ h => ?_⟩
    · exact nomatch state.symm.trans hstate
    · exact nomatch held.symm.trans h
  | confirmed ch held state frame_eq held' id sent =>
    -- The client ID stays none.
    refine iff_of_false (fun h => ?_) fun h => h.1 state ch frame_eq
    rw [held', id, ha, held] at h
    cases h
  | reassigned old ch hash held frame_eq held' id sent =>
    rw [held', id, held]
    constructor
    · intro h
      refine ⟨fun hstate => absurd hstate (hregistered old held), fun old' ch' hash' hold h' => ?_⟩
      cases held.symm.trans hold
      cases frame_eq.symm.trans h'
      exact Option.some.inj h
    · intro h
      rw [h.2 old ch hash held frame_eq]
  | granted old ch held frame_eq held' id result =>
    refine iff_of_true (by rw [held', id, ha])
      ⟨fun hstate => absurd hstate (hregistered old held), fun _ ch' hash' _ h => ?_⟩
    exact nomatch frame_eq.symm.trans (isAssignment_iff.1 h)
  | other old held assignment ready held' id sent =>
    exact iff_of_true (by rw [held', id, ha])
      ⟨fun hstate => absurd hstate (hregistered old held), fun _ ch' hash' _ h =>
        absurd h (assignment ch' hash')⟩

/-- A call keeps the agreement exactly when it is none of those that break it. -/
theorem step_agrees (ha : self.Agrees) (c : Timestamp × AppCall) :
    (self.step c).Agrees ↔ self.KeepsAgreement c := by
  obtain ⟨now, c⟩ := c
  cases c with
  | processFrame frame => exact processFrame_agrees ha now frame
  | onMqttCommand cmd => exact iff_of_true ((self.onMqttCommand_silent cmd).agrees ha) trivial
  | forcePublish => exact iff_of_true (self.forcePublish_silent.agrees ha) trivial
  | checkHeap freeHeap => exact iff_of_true ((self.checkHeap_silent now freeHeap).agrees ha) trivial
  | startPumpTimer pumpIndex minutes =>
    obtain ⟨hheld, hid, -⟩ := self.startPumpTimer_link now pumpIndex minutes
    refine iff_of_true (agrees_iff.2 ?_) trivial
    exact hid.trans ((agrees_iff.1 ha).trans hheld.symm)
  | tick =>
    refine iff_of_true (agrees_iff.2 ?_) trivial
    rcases (self.tick_link now).1 with ⟨hheld, hid⟩ | ⟨hheld, hid⟩
    · exact hid.trans ((agrees_iff.1 ha).trans hheld.symm)
    · exact hid.trans hheld.symm
  | setPreviousChannel ch =>
    rw [agrees_iff] at ha ⊢
    show self.clientId = none ↔ self.channel = none
    rw [ha]
  | resetRegistrationState clearCommands =>
    obtain ⟨hheld, hid⟩ := self.resetRegistrationState_link clearCommands
    exact iff_of_true (agrees_iff.2 (hid.trans hheld.symm)) trivial

/-- In every state of a run the client ID and the registration state machine agree exactly when no
call of the run is one of those that part them. -/
theorem run_agrees_iff (now : Timestamp) (hash : ClientHash) (cs : List (Timestamp × AppCall)) :
    (∀ pre post, cs = pre ++ post → (pre.foldl step (withClientHash now hash)).Agrees) ↔
      Along step KeepsAgreement (withClientHash now hash) cs := by
  have hbreak : ∀ s c, Agrees s → Agrees (step s c) → KeepsAgreement s c :=
    fun s c ha => (step_agrees ha c).1
  have hkeep : ∀ s c, Agrees s → KeepsAgreement s c → Agrees (step s c) :=
    fun s c ha => (step_agrees ha c).2
  exact along_iff_forall (fun _ ha => ha) hbreak hkeep (agrees_iff.2 rfl) cs

/-- An app that reconnects on its previous channel is registered without a client ID. -/
theorem run_reconnect_disagrees :
    ¬ (List.foldl step (withClientHash 0 (0x00, 0x01))
      [(0, .setPreviousChannel 0x10),
        (1000, .processFrame ⟨(0xFE, 0xBF), [0x00]⟩),
        (1020, .processFrame ⟨(0x10, 0xBF), [0x05, 0x04, 0x10, 0x00, 0x01]⟩)]).Agrees := by
  rw [agrees_iff]
  decide +kernel

end Launa.Core.SpaApp
