import Launa.Core.Transitions
import Launa.Lib.Run

/-!
# Clients that share a bus

Several apps hear the frames of one bus, each at its own time, and each may miss some. The
controller gives a channel to a client by naming its hash, in an assignment or in the confirmation
of a channel that the client had. An app that is not registered takes only what is given to its own
hash. One that is registered takes any assignment, so two apps come to hold the channel of one.

`run_owned_iff` says when they do not: from a controller that names a client in every message and
gives no channel to two clients, the apps own their channels along a run exactly when no app that is
registered hears an assignment to another client.
-/

namespace Launa.Core

open Protocol Run SpaApp

/-- The frame gives the channel to the client. -/
def Gives (frame : Frame) (channel : UInt8) (hash : ClientHash) : Prop :=
  IsAssignment frame channel hash ∨ IsConfirmation frame channel hash

/-- What happens to the apps `ι` of a bus. -/
inductive BusEvent (ι : Type) where
  /-- A frame is on the bus. An app handles it at its own time, or misses it. -/
  | frame (frame : Frame) (heard : ι → Option Timestamp)
  /-- An app is called for something else. -/
  | call (i : ι) (now : Timestamp) (c : AppCall) (other : ∀ frame, c ≠ .processFrame frame)

/-- The apps of a bus. -/
abbrev Bus (ι : Type) := ι → SpaApp

namespace Bus

variable {ι : Type} [DecidableEq ι]

/-- The apps with their hashes, at their boot times. -/
def start (boot : ι → Timestamp) (hash : ι → ClientHash) : Bus ι :=
  fun i => withClientHash (boot i) (hash i)

/-- What an event leaves of the apps. -/
def step (apps : Bus ι) : BusEvent ι → Bus ι
  | .frame frame heard => fun i =>
    match heard i with
    | some now => (apps i).step (now, .processFrame frame)
    | none => apps i
  | .call i now c _ => Function.update apps i ((apps i).step (now, c))

/-- The controller names a client in every message that gives a channel, and gives no channel to two
clients. -/
structure Controlled (es : List (BusEvent ι)) : Prop where
  named : ∀ frame heard, .frame frame heard ∈ es → ∀ channel hash,
    Gives frame channel hash → hash ≠ legacyHash
  once : ∀ frame heard frame' heard', .frame frame heard ∈ es → .frame frame' heard' ∈ es →
    ∀ channel hash hash', Gives frame channel hash → Gives frame' channel hash' → hash = hash'

/-- No two apps hold the same client ID. -/
def Apart (apps : Bus ι) : Prop :=
  ∀ i j channel, i ≠ j → (apps i).clientId = some channel → (apps j).clientId ≠ some channel

/-- No app that hears the frame adopts a channel that is assigned to another client. -/
def NoAdoption (apps : Bus ι) (e : BusEvent ι) : Prop :=
  ∀ frame heard, e = .frame frame heard → ∀ channel hash, IsAssignment frame channel hash →
    ∀ i now, heard i = some now → hash ≠ (apps i).clientHash →
      (apps.step e i).clientId = some channel → (apps i).clientId = some channel

/-- No app that is registered hears an assignment to another client. -/
def OwnAssignments (apps : Bus ι) (e : BusEvent ι) : Prop :=
  ∀ frame heard, e = .frame frame heard → ∀ channel hash, IsAssignment frame channel hash →
    ∀ i now, heard i = some now → hash ≠ (apps i).clientHash → (apps i).channel = none

/-- Every app has its hash, and has been given the channel of its client ID. -/
def Given (hash : ι → ClientHash) (es : List (BusEvent ι)) (apps : Bus ι) : Prop :=
  ∀ i, (apps i).HasHash (hash i) ∧ ∀ channel, (apps i).clientId = some channel →
    ∃ frame heard, .frame frame heard ∈ es ∧ Gives frame channel (hash i)

variable {hash : ι → ClientHash} {es : List (BusEvent ι)} {apps : Bus ι}

omit [DecidableEq ι] in
/-- Apps that have been given their channels hold different ones. -/
theorem Given.apart (h : Given hash es apps) (hes : Controlled es)
    (hinj : Function.Injective hash) :
    Apart apps := by
  intro i j channel hij hi hj
  obtain ⟨frame, heard, hmem, hgives⟩ := (h i).2 channel hi
  obtain ⟨frame', heard', hmem', hgives'⟩ := (h j).2 channel hj
  exact hij (hinj (hes.once _ _ _ _ hmem hmem' _ _ _ hgives hgives'))

end Bus

namespace SpaApp

/-- A call other than of a frame keeps the client ID or drops it. -/
theorem call_clientId (self : SpaApp) (now : Timestamp) {c : AppCall}
    (hc : ∀ frame, c ≠ .processFrame frame) :
    (self.call now c).2.clientId = self.clientId ∨ (self.call now c).2.clientId = none := by
  cases c with
  | processFrame frame => exact absurd rfl (hc frame)
  | onMqttCommand cmd => exact .inl (self.onMqttCommand_silent cmd).id
  | tick => exact (self.tick_link now).1.imp And.right And.right
  | startPumpTimer pumpIndex minutes =>
    exact .inl (self.startPumpTimer_link now pumpIndex minutes).2.1
  | setPreviousChannel ch => exact .inl rfl
  | resetRegistrationState clearCommands =>
    exact .inr (self.resetRegistrationState_link clearCommands).2
  | forcePublish => exact .inl self.forcePublish_silent.id
  | checkHeap freeHeap => exact .inl (self.checkHeap_silent now freeHeap).id

/-- A frame keeps the client ID, or is an assignment of the new one: to the app's own client or to
none, if the app is not registered, and to any if it is. -/
theorem processFrame_clientId (self : SpaApp) (now : Timestamp) (frame : Frame) :
    (self.processFrame now frame).2.clientId = self.clientId ∨
      ∃ ch hash, IsAssignment frame ch hash ∧
        (self.processFrame now frame).2.clientId = some ch ∧
        (self.channel = none → hash = legacyHash ∨ hash = self.registration.clientHash) := by
  cases self.processFrame_effect now frame with
  | waiting held refuses held' id sent => exact .inl id
  | assigned ch hash held state frame_eq own held' id sent =>
    exact .inr ⟨ch, hash, frame_eq, id, fun _ => own⟩
  | confirmed ch held state frame_eq held' id sent => exact .inl id
  | reassigned old ch hash held frame_eq held' id sent =>
    exact .inr ⟨ch, hash, frame_eq, id, fun hnone => nomatch held.symm.trans hnone⟩
  | granted old ch held frame_eq held' id result => exact .inl id
  | other old held assignment ready held' id sent => exact .inl id

/-- A registered app takes the channel of any assignment. -/
theorem processFrame_assignment (self : SpaApp) (now : Timestamp) {frame : Frame} {old ch : UInt8}
    {hash : ClientHash} (held : self.channel = some old) (h : IsAssignment frame ch hash) :
    (self.processFrame now frame).2.clientId = some ch := by
  cases self.processFrame_effect now frame with
  | waiting held' => exact nomatch held'.symm.trans held
  | assigned _ _ held' => exact nomatch held'.symm.trans held
  | confirmed _ held' => exact nomatch held'.symm.trans held
  | reassigned old' ch' hash' held' frame_eq _ id _ =>
    cases frame_eq.symm.trans h
    exact id
  | granted _ _ _ frame_eq => exact nomatch frame_eq.symm.trans (isAssignment_iff.1 h)
  | other _ _ assignment => exact absurd h (assignment ch hash)

end SpaApp

namespace Bus

variable {ι : Type} [DecidableEq ι] {hash : ι → ClientHash} {es : List (BusEvent ι)} {apps : Bus ι}

/-- An event in which no registered app hears an assignment to another client keeps the apps at what
they have been given. -/
theorem Given.step (h : Given hash es apps) (hes : Controlled es) {e : BusEvent ι} (hmem : e ∈ es)
    (hown : OwnAssignments apps e) : Given hash es (apps.step e) := by
  intro i
  cases e with
  | call j now c hc =>
    by_cases hij : i = j
    · subst hij
      rw [Bus.step, Function.update_self]
      refine ⟨(h i).1.call c, fun ch hch => ?_⟩
      rcases (apps i).call_clientId now hc with hid | hid
      · exact (h i).2 ch (hid.symm.trans hch)
      · exact nomatch hid.symm.trans hch
    · rw [Bus.step, Function.update_of_ne hij]
      exact h i
  | frame frame heard =>
    cases hheard : heard i with
    | none =>
      simp only [Bus.step, hheard]
      exact h i
    | some now =>
      simp only [Bus.step, hheard]
      refine ⟨(h i).1.call (.processFrame frame), fun ch hch => ?_⟩
      rcases (apps i).processFrame_clientId now frame with hid | ⟨ch', hash', hassign, hid, htaken⟩
      · exact (h i).2 ch (hid.symm.trans hch)
      · obtain rfl : ch' = ch := Option.some.inj (hid.symm.trans hch)
        refine ⟨frame, heard, hmem, .inl ?_⟩
        -- The assignment is to the app's own client.
        have hhash : hash' = hash i := by
          by_contra hne
          have hnone := hown frame heard rfl ch' hash' hassign i now hheard
            (by rw [(h i).1.1]; exact hne)
          rcases htaken hnone with hlegacy | hself
          · exact hes.named frame heard hmem ch' hash' (.inl hassign) hlegacy
          · exact hne (hself.trans (h i).1.2)
        rwa [← hhash]

/-- From apps at what they have been given, no channel of another client is adopted exactly when no
registered app hears its assignment. -/
theorem Given.noAdoption_iff (h : Given hash es apps) (hes : Controlled es) {e : BusEvent ι}
    (hmem : e ∈ es) : NoAdoption apps e ↔ OwnAssignments apps e := by
  constructor
  · intro hno frame heard he ch hash' hassign i now hheard hne
    subst he
    by_contra hreg
    obtain ⟨old, held⟩ := Option.ne_none_iff_exists'.1 hreg
    have hid : (apps.step (.frame frame heard) i).clientId = some ch := by
      simp only [Bus.step, hheard]
      exact (apps i).processFrame_assignment now held hassign
    -- The app held the channel before, so it had been given to it, too.
    have hbefore := hno frame heard rfl ch hash' hassign i now hheard hne hid
    obtain ⟨frame', heard', hmem', hgives⟩ := (h i).2 ch hbefore
    have := hes.once _ _ _ _ hmem hmem' ch hash' (hash i) (.inl hassign) hgives
    exact hne (this.trans (h i).1.1.symm)
  · intro hown frame heard he ch hash' hassign i now hheard hne hid
    subst he
    have hnone := hown frame heard rfl ch hash' hassign i now hheard hne
    simp only [Bus.step, hheard] at hid
    rcases (apps i).processFrame_clientId now frame with hsame | ⟨ch', hash'', hassign', -, htaken⟩
    · exact hsame.symm.trans hid
    · cases hassign.symm.trans hassign'
      rcases htaken hnone with hlegacy | hself
      · exact absurd hlegacy (hes.named frame heard hmem ch hash' (.inl hassign))
      · exact absurd (hself.trans ((h i).1.2.trans (h i).1.1.symm)) hne

/-- Apps with different hashes, on a bus whose controller names a client in every message and gives
no channel to two, hold different client IDs in every state of a run and adopt no channel of another
client, exactly when no registered app hears an assignment to another client. -/
theorem run_owned_iff (boot : ι → Timestamp) (hash : ι → ClientHash)
    (hinj : Function.Injective hash)
    (es : List (BusEvent ι)) (hes : Controlled es) :
    ((∀ pre post, es = pre ++ post → Apart (pre.foldl step (start boot hash))) ∧
        Along step NoAdoption (start boot hash) es) ↔
      Along step OwnAssignments (start boot hash) es := by
  have hstart : Given hash es (start boot hash) := fun i => ⟨⟨rfl, rfl⟩, nofun⟩
  have hmem : Along step (fun _ e => e ∈ es) (start boot hash) es :=
    along_of_forall_mem (fun _ h => h) _
  constructor
  · rintro ⟨-, hno⟩
    refine Along.imp_of_invariant (fun apps e h hc => ?_) hstart (along_and.2 ⟨hno, hmem⟩)
    have hown := (h.noAdoption_iff hes hc.2).1 hc.1
    exact ⟨hown, h.step hes hc.2 hown⟩
  · intro hown
    have hboth := along_and.2 ⟨hown, hmem⟩
    have hkeep : ∀ (apps : Bus ι) (e : BusEvent ι), Given hash es apps →
        OwnAssignments apps e ∧ e ∈ es → Given hash es (apps.step e) :=
      fun apps e h hc => h.step hes hc.2 hc.1
    refine ⟨fun pre post hsplit => ?_, ?_⟩
    · have hpre := ((along_append (fun apps e => OwnAssignments apps e ∧ e ∈ es) _ pre post).1
        (by rw [← hsplit]; exact hboth)).1
      exact (hpre.invariant hkeep hstart).apart hes hinj
    · refine Along.imp_of_invariant (fun apps e h hc => ?_) hstart hboth
      exact ⟨(h.noAdoption_iff hes hc.2).2 hc.1, hkeep apps e h hc⟩

/-! ## Two clients -/

/-- The hashes of two clients. -/
def twoHashes : Bool → ClientHash
  | false => (0x00, 0x01)
  | true => (0x00, 0x02)

/-- The two hashes differ. -/
theorem twoHashes_injective : Function.Injective twoHashes := by
  intro i j
  cases i <;> cases j <;> decide

/-- The controller asks for new clients, and then gives a channel to each of two. -/
def twoClients (heard : Bool → Option Timestamp) : List (BusEvent Bool) :=
  [.frame (RegistrationMessage.frame .newClientQuery) fun _ => some 0,
    .frame (RegistrationMessage.frame (.clientIdAssignment 0x10 (twoHashes false)))
      fun _ => some 20,
    .frame (RegistrationMessage.frame (.clientIdAssignment 0x11 (twoHashes true))) heard]

/-- Each of the two clients is given a channel of its own. -/
theorem mem_twoClients {heard heard' : Bool → Option Timestamp} {frame : Frame} {channel : UInt8}
    {hash : ClientHash} (hmem : .frame frame heard' ∈ twoClients heard)
    (h : Gives frame channel hash) :
    (channel, hash) = (0x10, twoHashes false) ∨ (channel, hash) = (0x11, twoHashes true) := by
  have hno : ¬ Gives (RegistrationMessage.frame .newClientQuery) channel hash := nofun
  simp only [twoClients, List.mem_cons, BusEvent.frame.injEq, List.not_mem_nil, or_false] at hmem
  rcases hmem with ⟨rfl, -⟩ | ⟨rfl, -⟩ | ⟨rfl, -⟩
  · exact absurd h hno
  · rcases h with h | h
    · cases h
      exact .inl rfl
    · exact nomatch h
  · rcases h with h | h
    · cases h
      exact .inr rfl
    · exact nomatch h

/-- The events of the two clients are those of a controlled bus. -/
theorem twoClients_controlled (heard : Bool → Option Timestamp) :
    Controlled (twoClients heard) where
  named frame heard' hmem channel hash h := by
    rcases mem_twoClients hmem h with heq | heq <;> cases heq <;> decide
  once frame heard' frame' heard'' hmem hmem' channel hash hash' h h' := by
    rcases mem_twoClients hmem h with heq | heq <;>
      rcases mem_twoClients hmem' h' with heq' | heq' <;> cases heq <;> cases heq' <;> rfl

/-- If the first client misses the assignment to the second, they own their channels. -/
theorem run_owned_twoClients :
    (∀ pre post, twoClients (fun i => if i then some 40 else none) = pre ++ post →
        Apart (pre.foldl step (start (fun _ => 0) twoHashes))) ∧
      Along step NoAdoption (start (fun _ => 0) twoHashes)
        (twoClients fun i => if i then some 40 else none) := by
  refine (run_owned_iff (fun _ => 0) twoHashes twoHashes_injective _ (twoClients_controlled _)).2
    ⟨?_, ?_, ?_, trivial⟩
  · rintro frame heard ⟨⟩ channel hash ⟨⟩
  · rintro frame heard ⟨⟩ channel hash ⟨⟩ i now - hne
    cases i with
    | false => exact absurd rfl hne
    | true => rfl
  · rintro frame heard ⟨⟩ channel hash ⟨⟩ i now hheard hne
    cases i with
    | false => exact nomatch hheard
    | true => exact absurd rfl hne

/-- If the first client hears the assignment to the second, both hold the channel. -/
theorem run_twoClients_shared :
    Function.Injective twoHashes ∧ Controlled (twoClients fun _ => some 40) ∧
      ¬ Apart ((twoClients fun _ => some 40).foldl step (start (fun _ => 0) twoHashes)) := by
  refine ⟨twoHashes_injective, twoClients_controlled _, fun h => ?_⟩
  exact h false true 0x11 nofun (by decide +kernel) (by decide +kernel)

end Bus

end Launa.Core
