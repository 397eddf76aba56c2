import Launa.App.Firmware

/-!
# Captures of the bus traffic

A capture that is requested while the firmware runs records every chunk that is read or written, and
is published when it has lasted too long or has too many bytes. A published document has the time
and the direction of each, and what the tool shows of it is a partition of all bytes that passed
since the capture began (`run_captures`).
-/

namespace Launa.App

open Launa.Core Json Mealy Mqtt Protocol Xtask

/-- The traffic in some outputs: what comes from the other side is received. -/
def traffic (os : List BusOutput) : List Traffic :=
  os.filterMap fun
    | .passed .bus now data => some ⟨now, .rx, data⟩
    | .passed _ now data => some ⟨now, .tx, data⟩
    | _ => none

/-- The traffic of two lists of outputs is put behind each other. -/
theorem traffic_append (os os' : List BusOutput) :
    traffic (os ++ os') = traffic os ++ traffic os' := List.filterMap_append

/-- The document shows the traffic since the capture began. It goes on up to the last of it, and
not behind that. -/
def IsCapture (os : List BusOutput) (document : List Char) : Prop :=
  ∃ before start window captureUs ts t, os = before ++ .started start :: window ∧
    (∀ o ∈ window, o.isOfCapture = false) ∧ traffic window = ts ++ [t] ∧
    GoesOn start ts ∧ ¬GoesOn start (ts ++ [t]) ∧
    document = buildSniffJson ((traffic window).map (Traffic.chunk start)) captureUs

/-- Every document that is published is a capture of what was before. -/
def Published : List BusOutput → Prop :=
  AtEach fun older o => ∀ document, o = .published document → IsCapture older document

/-- No capture is on, or one is on that goes on and has recorded what passed since it began. -/
inductive Capturing (os : List BusOutput) : SniffState → Prop where
  | off : Capturing os .new
  | on {before : List BusOutput} {start : UInt64} {window : List BusOutput}
    (hos : os = before ++ .started start :: window)
    (hwindow : ∀ o ∈ window, o.isOfCapture = false) (hgoes : GoesOn start (traffic window)) :
    Capturing os (.recorded start (traffic window))

/-- What the outputs so far say of captures. -/
structure Records (os : List BusOutput) (s : Firmware) : Prop where
  published : Published os
  calm : .panicked ∉ os
  capturing : Capturing os s.sniff

/-- An output that does not concern captures. -/
def BusOutput.isQuiet : BusOutput → Bool
  | .decoded _ | .called _ | .queued _ | .dropped _ => true
  | _ => false

/-- An action that does not concern captures. -/
def Quiet (f : BusAction) : Prop :=
  ∀ s, (f s).2.sniff = s.sniff ∧ (f s).1.all BusOutput.isQuiet = true

variable {os outs : List BusOutput} {s s' : Firmware} {f g : BusAction} {sniff : SniffState}

/-- Traffic that is recorded, and that is to be told apart from a capture's other outputs. -/
theorem Capturing.append (h : Capturing os sniff)
    (houts : outs.all BusOutput.isQuiet = true) : Capturing (os ++ outs) sniff := by
  have hquiet : ∀ o ∈ outs, o.isOfCapture = false ∧ traffic [o] = [] := by
    intro o ho
    have := List.all_eq_true.1 houts o ho
    cases o with
    | started => exact absurd this Bool.false_ne_true
    | passed => exact absurd this Bool.false_ne_true
    | published => exact absurd this Bool.false_ne_true
    | panicked => exact absurd this Bool.false_ne_true
    | _ => exact ⟨rfl, rfl⟩
  have htraffic : traffic outs = [] := by
    rw [traffic, List.filterMap_eq_nil_iff]
    intro o ho
    have := (hquiet o ho).2
    revert this
    cases o <;> simp [traffic]
  cases h with
  | off => exact .off
  | on hos hwindow hgoes =>
    rename_i before start window
    have heq : traffic window = traffic (window ++ outs) := by
      rw [traffic_append, htraffic, List.append_nil]
    rw [heq] at hgoes ⊢
    have hos' : os ++ outs = before ++ .started start :: (window ++ outs) := by
      rw [hos, List.append_assoc, List.cons_append]
    refine .on hos' (fun o ho => ?_) hgoes
    · rcases List.mem_append.1 ho with ho | ho
      · exact hwindow o ho
      · exact (hquiet o ho).1

/-- What does not concern captures keeps what is said of them. -/
theorem Quiet.keeps (hf : Quiet f) : Keeps Records f := by
  intro os s h
  obtain ⟨hsniff, houts⟩ := hf s
  refine ⟨h.published.append fun o ho older document heq => ?_, fun hmem => ?_, ?_⟩
  · rw [heq] at ho
    exact absurd (List.all_eq_true.1 houts _ ho) Bool.false_ne_true
  · rcases List.mem_append.1 hmem with hmem | hmem
    · exact h.calm hmem
    · exact absurd (List.all_eq_true.1 houts _ hmem) Bool.false_ne_true
  · rw [hsniff]
    exact h.capturing.append houts

/-- Doing nothing does not concern captures. -/
theorem Quiet.skip : Quiet skip := fun _ => ⟨rfl, rfl⟩

/-- Two parts that do not concern captures do not concern them one after the other. -/
theorem Quiet.andThen (hf : Quiet f) (hg : Quiet g) : Quiet (andThen f g) := by
  intro s
  refine ⟨(hg _).1.trans (hf s).1, ?_⟩
  rw [Mealy.andThen, List.all_append, (hf s).2, (hg _).2]
  rfl

namespace Firmware

/-- A capture begins when it is requested and none is on. -/
theorem records_checkStart (now : UInt64) : Keeps Records (checkStart now) := by
  intro os s h
  obtain ⟨hpublished, hcalm, hcapturing⟩ := h
  unfold checkStart
  dsimp only
  generalize hsniff : s.sniff = sniff at hcapturing
  cases hcapturing with
  | off =>
    rw [SniffState.checkStart_new]
    by_cases hrequested : s.sniffCapture > 0
    · rw [if_pos hrequested]
      refine ⟨hpublished.concat nofun, fun hmem => ?_, ?_⟩
      · rcases List.mem_append.1 hmem with hmem | hmem
        · exact hcalm hmem
        · exact absurd (List.mem_singleton.1 hmem) nofun
      · have hgoes : GoesOn now (traffic []) := ⟨nofun, by decide⟩
        exact .on rfl nofun hgoes
    · rw [if_neg hrequested, Bool.not_and_self, if_neg Bool.false_ne_true, List.append_nil]
      exact ⟨hpublished, hcalm, .off⟩
  | on hos hwindow hgoes =>
    rw [SniffState.checkStart_recorded, Bool.not_and_self, if_neg Bool.false_ne_true,
      List.append_nil]
    exact ⟨hpublished, hcalm, .on hos hwindow hgoes⟩

/-- What passes is recorded, and a capture that ends with it is published. -/
theorem records_passBytes (origin : Origin) (now later : UInt64) (data : List UInt8) :
    Keeps Records (passBytes origin now later data) := by
  intro os s h
  obtain ⟨hpublished, hcalm, hcapturing⟩ := h
  have hpassed : Published (os ++ [.passed origin now data]) := hpublished.concat nofun
  have hcalm' : .panicked ∉ os ++ [.passed origin now data] := by
    intro hmem
    rcases List.mem_append.1 hmem with hmem | hmem
    · exact hcalm hmem
    · exact absurd (List.mem_singleton.1 hmem) nofun
  unfold passBytes
  generalize hsniff : s.sniff = sniff at hcapturing
  cases hcapturing with
  | off =>
    rw [SniffState.recordChunk_new]
    exact ⟨hpassed, hcalm', .off⟩
  | on hos hwindow hgoes =>
    rename_i before start window
    have hrecord := SniffState.recordChunk_recorded start (traffic window) ⟨now, origin.dir, data⟩
    have hends := SniffState.recordChunk_eq_false_iff hgoes ⟨now, origin.dir, data⟩
    have hos' : os ++ [.passed origin now data] =
        before ++ .started start :: (window ++ [.passed origin now data]) := by
      rw [hos, List.append_assoc, List.cons_append]
    have hwindow' : ∀ o ∈ window ++ [.passed origin now data], o.isOfCapture = false := by
      intro o ho
      rcases List.mem_append.1 ho with ho | ho
      · exact hwindow o ho
      · rw [List.mem_singleton.1 ho]
        rfl
    have htraffic : traffic (window ++ [.passed origin now data]) =
        traffic window ++ [⟨now, origin.dir, data⟩] := by
      rw [traffic_append]
      cases origin <;> rfl
    dsimp only at hrecord hends
    rw [hrecord] at hends ⊢
    generalize (_ || _ : Bool) = done at hends
    cases done with
    | false =>
      have hgoes' := hends.1 rfl
      rw [← htraffic] at hgoes' ⊢
      exact ⟨hpassed, hcalm', .on hos' hwindow' hgoes'⟩
    -- The capture ends with this, and is published.
    | true =>
      have hnot : ¬GoesOn start (traffic window ++ [⟨now, origin.dir, data⟩]) :=
        fun hgoes' => absurd (hends.2 hgoes').symm Bool.false_ne_true
      dsimp only
      rw [SniffState.finish_recorded]
      dsimp only
      rw [List.append_cons]
      refine ⟨hpassed.concat fun document hdocument => ?_, fun hmem => ?_, .off⟩
      · refine ⟨before, start, _, later - start, _, _, hos', hwindow', htraffic, hgoes, hnot, ?_⟩
        rw [htraffic]
        exact (BusOutput.published.inj hdocument).symm
      · rcases List.mem_append.1 hmem with hmem | hmem
        · exact hcalm' hmem
        · exact absurd (List.mem_singleton.1 hmem) nofun

/-! ### Steps that do not concern captures -/

/-- What the app asks for does not concern captures. -/
theorem quiet_executeActions (actions : List AppAction) : Quiet (executeActions actions) := by
  intro s
  obtain ⟨outs, tx, heq, -, hall⟩ := executeActions_eq actions s
  rw [heq]
  refine ⟨rfl, List.all_eq_true.2 fun o ho => ?_⟩
  have := List.all_eq_true.1 hall o ho
  cases o with
  | queued bytes => rfl
  | dropped bytes => rfl
  | _ => exact absurd this Bool.false_ne_true

/-- A call of the app does not concern captures. -/
theorem quiet_callApp (c : Timestamp × AppCall) : Quiet (callApp c) := fun s =>
  Quiet.andThen (fun _ => ⟨rfl, rfl⟩) (quiet_executeActions _) s

/-- Processing frames does not concern captures. -/
theorem quiet_processFrames (clock : ℕ → Timestamp) (n : ℕ) : Quiet (processFrames clock n) := by
  induction n with
  | zero => exact Quiet.skip
  | succ n ih =>
    refine Quiet.andThen (fun s => ?_) ih
    split
    · exact quiet_callApp _ _
    · exact ⟨rfl, rfl⟩

/-- Several calls of the app do not concern captures. -/
theorem quiet_callEach (clock : ℕ → Timestamp) (calls : List AppCall) :
    Quiet (callEach clock calls) := by
  induction calls with
  | nil => exact Quiet.skip
  | cons c calls ih => exact Quiet.andThen (quiet_callApp _) ih

/-- A command of the user does not concern captures. -/
theorem quiet_handleMqttCommand (now : Timestamp) (cmd : Command) :
    Quiet (handleMqttCommand now cmd) := by
  intro s
  cases cmd with
  | reboot => exact ⟨rfl, rfl⟩
  | _ => exact quiet_callApp _ _

/-- The commands that wait do not concern captures. -/
theorem quiet_drainCommands (clock : ℕ → Timestamp) (n : ℕ) : Quiet (drainCommands clock n) := by
  induction n with
  | zero => exact Quiet.skip
  | succ n ih =>
    refine Quiet.andThen (fun s => ?_) ih
    split
    · exact quiet_handleMqttCommand _ _ _
    · exact ⟨rfl, rfl⟩

/-- Switching the capture off does not concern captures. -/
theorem quiet_autoDisable (now : Timestamp) : Quiet (autoDisable now) := by
  intro s
  unfold autoDisable
  split
  · exact quiet_callApp _ _
  · exact ⟨rfl, rfl⟩

/-- Storing the registration does not concern captures. -/
theorem quiet_storeRegistered : Quiet storeRegistered := fun _ => ⟨rfl, rfl⟩

/-- A tick of the main loop does not concern captures. -/
theorem quiet_mainTick (it : Iteration) : Quiet (mainTick it) := by
  intro s
  unfold mainTick
  split
  · exact ⟨rfl, rfl⟩
  refine Quiet.andThen ?_ (Quiet.andThen (quiet_drainCommands _ _) fun s => ?_) s
  · split
    · exact (quiet_processFrames _ _).andThen quiet_storeRegistered
    · exact Quiet.skip
  split
  · exact ⟨rfl, rfl⟩
  · exact (quiet_autoDisable _).andThen ((quiet_callApp _).andThen
      (quiet_storeRegistered.andThen (quiet_callApp _))) s

/-- The pump timers that wait do not concern captures. -/
theorem quiet_drainPumpTimers (clock : ℕ → Timestamp) : Quiet (drainPumpTimers clock) := by
  intro s
  unfold drainPumpTimers
  split
  · exact ⟨rfl, rfl⟩
  · exact quiet_callEach _ _ _

/-! ### Runs -/

/-- A byte that arrives is recorded. -/
theorem records_uartByte (now later : UInt64) : Keeps Records (uartByte now later) := by
  intro os s h
  unfold uartByte
  split
  · split
    · rw [List.append_nil]
      exact ⟨h.published, h.calm, h.capturing⟩
    · rename_i frame decoder _
      have hanswer : Keeps Records (answerQuery frame now later) := by
        intro os s h
        rcases answerQuery_eq frame now later s with ⟨heq, -⟩ | ⟨heq, -⟩
        · rw [heq, List.append_nil]
          exact h
        · rw [heq]
          exact records_passBytes _ _ _ _ os s h
      refine Keeps.andThen (Quiet.keeps fun _ => ⟨rfl, rfl⟩) hanswer os _ ?_
      exact ⟨h.published, h.calm, h.capturing⟩
  · rw [List.append_nil]
    exact h

/-- The check of the capture keeps the records. -/
theorem records_uartCheck (now : UInt64) : Keeps Records (uartCheck now) := by
  intro os s h
  unfold uartCheck
  split
  · exact records_checkStart now os _ ⟨h.published, h.calm, h.capturing⟩
  · rw [List.append_nil]
    exact h

/-- What is read or sent is recorded. -/
theorem records_uartRead (now later : UInt64) (read : Option (List UInt8)) :
    Keeps Records (uartRead now later read) := by
  intro os s h
  unfold uartRead
  split
  · have hread : Records os { s with reading := false } := ⟨h.published, h.calm, h.capturing⟩
    split
    · exact Keeps.skip os _ hread
    · unfold transmit
      split
      · exact records_passBytes _ _ _ _ os _ ⟨h.published, h.calm, h.capturing⟩
      · rw [List.append_nil]
        exact hread
    · exact Keeps.andThen (records_passBytes _ _ _ _) (Quiet.keeps fun _ => ⟨rfl, rfl⟩) os _ hread
  · rw [List.append_nil]
    exact h

/-- An event keeps the records. -/
theorem records_step (e : Event) : Keeps Records (step · e) := by
  cases e with
  | uartCheck now => exact records_uartCheck now
  | uartRead now later read => exact records_uartRead now later read
  | uartByte now later => exact records_uartByte now later
  | mainTick it => exact (quiet_mainTick it).keeps
  | drainPumpTimers clock => exact (quiet_drainPumpTimers clock).keeps
  | uartSend =>
    refine Quiet.keeps fun s => ?_
    dsimp only [step]
    unfold uartSend
    repeat' split
    all_goals exact ⟨rfl, rfl⟩
  | command cmd =>
    refine Quiet.keeps fun s => ?_
    dsimp only [step]
    unfold sendCommand
    split <;> exact ⟨rfl, rfl⟩
  | pumpTimer pump minutes =>
    refine Quiet.keeps fun s => ?_
    dsimp only [step]
    unfold sendPumpTimer
    split <;> exact ⟨rfl, rfl⟩

/-- A document that is published in a run has the chunks of all traffic since its capture began, up
to what ended it, with their times and directions. The tool takes these chunks out of it, and
decodes them to a partition of the bytes of that traffic. Nothing panics. -/
theorem run_captures (describe : Frame → String) (toolId : String) (now : Timestamp)
    (deviceId : String) (events : List Event) :
    .panicked ∉ (run step (start now deviceId) events).1 ∧
    ∀ older document newer,
      (run step (start now deviceId) events).1 = older ++ .published document :: newer →
      ∃ before began window captureUs ts t, older = before ++ .started began :: window ∧
        (∀ o ∈ window, o.isOfCapture = false) ∧ traffic window = ts ++ [t] ∧
        GoesOn began ts ∧ ¬GoesOn began (ts ++ [t]) ∧
        document = buildSniffJson ((traffic window).map (Traffic.chunk began)) captureUs ∧
        let values := ((traffic window).map (Traffic.info began)).map ChunkInfo.value
        ∃ json entries pieces, SpellsValue document json ∧ chunksArr json = some values ∧
          handleChunksFormat describe toolId values = some entries ∧
          Partition describe (Traffic.bytes (traffic window)) entries pieces := by
  have hstart : Records [] (start now deviceId) := ⟨AtEach.nil, List.not_mem_nil, .off⟩
  obtain ⟨hpublished, hcalm, -⟩ := run_keeps (fun e => records_step e) hstart events
  refine ⟨hcalm, fun older document newer heq => ?_⟩
  obtain ⟨before, began, window, captureUs, ts, t, hos, hwindow, htraffic, hgoes, hnot, rfl⟩ :=
    hpublished older _ newer heq document rfl
  exact ⟨before, began, window, captureUs, ts, t, hos, hwindow, htraffic, hgoes, hnot, rfl,
    shown_buildSniffJson describe toolId began captureUs (traffic window)⟩

end Firmware

end Launa.App
