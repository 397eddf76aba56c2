import Launa.Protocol.FrameCode
import Launa.Protocol.Framing
import Launa.Sim.Safety

/-!
# What is received from the simulator

The simulator sends bytes, among them padding, frames with a byte flipped, frames that are sent
twice, and frames that are split between two ticks. `transmit` is a tick that sends whole frames. In
a run in which nothing comes between the two parts of a frame, the bytes of the one are those of the
other, but for the part that is put off (`step_rel`), and the decoder of the firmware has every
frame of the other that was not corrupted, in whatever slices the bytes arrive (`run_received`).
-/

namespace Launa.Sim.Simulator

open Protocol

/-! ## The frames that are sent -/

/-- What is put on the bus: padding, a frame, or a frame with a byte flipped. -/
inductive Sent where
  | padding (len : ℕ)
  | frame (f : Frame)
  | corrupted (f : Frame)

namespace Sent

/-- The bytes on the bus. -/
def bytes : Sent → List UInt8
  | .padding len => List.replicate len 0x00
  | .frame f => frameBytes f
  | .corrupted f => SpaSim.corrupt (frameBytes f)

/-- The frames that arrive. -/
def arrives : Sent → List Frame
  | .frame f => [f]
  | _ => []

/-- The errors that are counted. -/
def errors : Sent → ℕ
  | .corrupted _ => 1
  | _ => 0

/-- The length byte of a frame is no marker, and it is not the one that is flipped. -/
def Fits : Sent → Prop
  | .padding _ => True
  | .frame f => f.payload.length < 122
  | .corrupted f => 2 ≤ f.payload.length ∧ f.payload.length < 122

end Sent

namespace SpaSim

/-- The rest of a frame that is put off. -/
def pending (self : SpaSim) : List UInt8 := self.frameSplitter.remainder.getD []

/-- The simulator that has sent the rest, but for the Ready frame behind it. -/
def whole (self : SpaSim) : SpaSim :=
  { self with frameSplitter.remainder := self.frameSplitter.remainder.map fun _ => [] }

/-- The bytes of a status frame. -/
def statusLength : ℕ := 31

/-- The status that is sent. -/
def statusSent (f : Floats) (self : SpaSim) : Option (Sent × SpaSim) :=
  let (physicsNoise, self) := self.physicsNoise f
  let (normalized, self) := self.sensorNoise f
  let injectCorrupt := self.errorInjection.injectCorruptNext
  let self := { self with errorInjection.injectCorruptNext := false }
  (self.state.generateStatusFrame self.initMode
    (self.currentTempByte f physicsNoise normalized)).map fun frame =>
      (if injectCorrupt then .corrupted frame else .frame frame, self)

/-- The Ready frame. -/
def readySent (self : SpaSim) : Sent := .frame (readyFrame (self.clientId.getD 0x10))

/-- The Ready frame, if it is time for it. -/
def maybeReadySent (self : SpaSim) : Option (List Sent × SpaSim) :=
  let self := { self with readyCountdown := self.readyCountdown - 1 }
  if self.readyCountdown = 0 then do
    let (interval, sim) ← self.nextReadyInterval
    some ([self.readySent], { sim with readyCountdown := interval })
  else some ([], self)

/-- What is sent of the status: of a frame that is split, all of it, and no Ready frame. -/
def sendStatus (self : SpaSim) (status : Sent) : Option (List Sent × SpaSim) :=
  match self.frameSplitter.splitPoint with
  | some splitPoint =>
    let self := { self with frameSplitter.splitPoint := none }
    if splitPoint < statusLength then
      some ([status], { self with frameSplitter.remainder := some [] })
    else self.maybeReadySent.map fun (ready, self) => (status :: ready, self)
  | none =>
    if self.errorInjection.duplicateNext then
      let self := { self with errorInjection.duplicateNext := false }
      self.maybeReadySent.map fun (ready, self) => (status :: status :: ready, self)
    else self.maybeReadySent.map fun (ready, self) => (status :: ready, self)

/-- A tick with a status, with whole frames. -/
def transmitStatus (f : Floats) (self : SpaSim) : Option (List Sent × SpaSim) := do
  let query := if self.registered then [] else [Sent.frame registrationQuery]
  let (paddingLen, self) :=
    (self.queryClients.2.processPendingEvents.simulatePhysics f).jitterPaddingLen
  let (status, self) ← self.statusSent f
  let (sent, self) ← self.tickCountdowns.sendStatus status
  some (query ++ Sent.padding paddingLen :: sent, self)

/-- The Ready frame behind a status that went out a tick before. -/
def transmitReady (self : SpaSim) : Option (List Sent × SpaSim) := do
  let self := { self with frameSplitter.remainder := none }
  let (interval, sim) ← self.nextReadyInterval
  some ([self.readySent], { sim with readyCountdown := interval }.tickCountdowns)

/-- A tick, with whole frames. -/
def transmit (f : Floats) (self : SpaSim) : Option (List Sent × SpaSim) :=
  let self := self.startTick
  if self.errorInjection.busSilenceRemaining > 0 then some ([], self.tickSilent)
  else if self.frameSplitter.remainder.isSome then self.transmitReady
  else self.transmitStatus f

/-- An event, with whole frames. -/
def stepSent (f : Floats) (self : SpaSim) : SimEvent → Option (List Sent × SpaSim)
  | .set setting => some ([], self.set f setting)
  | .tick => self.transmit f
  | .incoming bytes =>
    let (responses, self) := self.respond bytes
    some (responses.map .frame, self)

/-- Nothing comes between the parts of a frame: it is not given up for another split, and there is
no answer to what arrives. -/
def Undisturbed (self : SpaSim) (event : SimEvent) : Prop :=
  self.pending = [] ∨
    match event with
    | .set setting => ∀ splitPoint, setting ≠ .partialFrameAt splitPoint
    | .tick => True
    | .incoming bytes => (self.respond bytes).1 = []

end SpaSim

/-! ## What is decoded -/

namespace Sent

open FrameDecoder

/-- The bytes of a frame that fits stand between two markers. -/
theorem frameBytes_eq {f : Frame} (h : f.payload.length ≤ 251) :
    frameBytes f = frameMarker :: (f.body ++ [crc8 f.body]) ++ [frameMarker] := by
  rw [frameBytes, Frame.encode_eq_ok.2 ⟨h, rfl⟩]
  rfl

/-- A byte that is flipped is another. -/
theorem ne_xor_ff (b : UInt8) : b ≠ b ^^^ 0xFF := by
  intro heq
  have hself : b ^^^ b = b ^^^ (b ^^^ 0xFF) := congrArg (b ^^^ ·) heq
  rw [UInt8.xor_self, ← UInt8.xor_assoc, UInt8.xor_self, UInt8.zero_xor] at hself
  exact absurd hself (by decide)

variable {step : FrameDecoder → UInt8 → List Frame × FrameDecoder} {size : ℕ}

/-- An idle decoder receives what is sent, and is idle again. -/
theorem run_bytes (hsteps : Steps step size) (hsize : 255 ≤ size) {sent : Sent} (h : sent.Fits)
    (errors : UInt32) :
    Mealy.run step ⟨[], false, 0, errors, size⟩ sent.bytes =
      (sent.arrives, countError^[sent.errors] ⟨[], false, 0, errors, size⟩) := by
  cases sent with
  | padding len =>
    apply hsteps.run_noise
    intro hmem
    exact absurd (List.eq_of_mem_replicate hmem) (by decide)
  | frame f =>
    have hshort : f.payload.length < 122 := h
    rw [bytes, frameBytes_eq (by omega), hsteps.run_frame (by omega) hsize (by omega)]
    rfl
  | corrupted f =>
    obtain ⟨hlong, hshort⟩ := h
    obtain ⟨⟨t0, t1⟩, payload⟩ := f
    rcases payload with _ | ⟨p0, _ | ⟨p1, rest⟩⟩
    · exact absurd hlong (show ¬ 2 ≤ 0 by decide)
    · exact absurd hlong (show ¬ 2 ≤ 1 by decide)
    set f : Frame := ⟨(t0, t1), p0 :: p1 :: rest⟩ with hf
    set len := UInt8.ofNat (4 + f.payload.length) with hlen
    have hbody : f.body = len :: ([t0, t1, p0] ++ p1 :: rest) := rfl
    have hlenval : len.toNat = 4 + f.payload.length := by
      rw [hlen, UInt8.toNat_ofNat']
      have : f.payload.length < 122 := hshort
      omega
    -- The byte that is flipped is the second one of the payload.
    have hbytes : (Sent.corrupted f).bytes = frameMarker :: len ::
        ([t0, t1, p0] ++ (p1 ^^^ 0xFF) :: rest ++ [crc8 f.body]) ++ [frameMarker] := by
      have hlarge : (frameBytes f).length > 6 := by
        rw [frameBytes_eq (le_trans hshort.le (by decide)), hbody]
        simp only [List.length_append, List.length_cons]
        omega
      rw [bytes, SpaSim.corrupt, if_pos hlarge, frameBytes_eq (le_trans hshort.le (by decide)),
        hbody]
      rfl
    obtain ⟨e, he⟩ := Frame.parse_changed hbody (le_trans hshort.le (by decide)) (ne_xor_ff p1)
    have hmarker : len ≠ frameMarker := by
      intro heq
      rw [heq] at hlenval
      have : frameMarker.toNat = 126 := rfl
      have : f.payload.length < 122 := hshort
      omega
    have hcount : (len :: ([t0, t1, p0] ++ (p1 ^^^ 0xFF) :: rest ++ [crc8 f.body])).length =
        len.toNat := by
      rw [hlenval, hf]
      simp only [List.length_append, List.length_cons, List.length_nil]
      omega
    rw [hbytes, hsteps.run_rejected hsize hmarker (by omega) hcount he]
    rfl

/-- An idle decoder is idle however many errors it counts. -/
theorem iterate_countError (size : ℕ) (errors : UInt32) (n : ℕ) :
    ∃ errors', countError^[n] (⟨[], false, 0, errors, size⟩ : FrameDecoder) =
      ⟨[], false, 0, errors', size⟩ := by
  induction n with
  | zero => exact ⟨errors, rfl⟩
  | succ n ih =>
    obtain ⟨errors', h⟩ := ih
    rw [Function.iterate_succ_apply', h]
    exact ⟨_, rfl⟩

/-- An idle decoder receives all that is sent, and has counted an error for each frame that was
corrupted. -/
theorem run_flatMap (hsteps : Steps step size) (hsize : 255 ≤ size) {sents : List Sent}
    (h : ∀ sent ∈ sents, sent.Fits) (errors : UInt32) :
    Mealy.run step ⟨[], false, 0, errors, size⟩ (sents.flatMap bytes) =
      (sents.flatMap arrives,
        countError^[(sents.map Sent.errors).sum] ⟨[], false, 0, errors, size⟩) := by
  induction sents generalizing errors with
  | nil => rfl
  | cons sent sents ih =>
    rw [List.forall_mem_cons] at h
    obtain ⟨errors', herrors'⟩ := iterate_countError size errors sent.errors
    rw [List.flatMap_cons, Mealy.run_append, run_bytes hsteps hsize h.1, herrors', ih h.2,
      List.map_cons, List.sum_cons, Nat.add_comm, Function.iterate_add_apply, herrors']
    rfl

/-- The decoder of the firmware receives all that is sent in one slice, and is idle again. -/
theorem feedSlice_flatMap {sents : List Sent} (h : ∀ sent ∈ sents, sent.Fits) (errors : UInt32) :
    ∃ errors', (⟨[], false, 0, errors, 512⟩ : FrameDecoder).feedSlice (sents.flatMap bytes) =
      some (sents.flatMap arrives, ⟨[], false, 0, errors', 512⟩) := by
  obtain ⟨errors', hidle⟩ := iterate_countError 512 errors (sents.map Sent.errors).sum
  refine ⟨errors', ?_⟩
  rw [FrameDecoder.feedSlice_eq (fits_of_idle rfl), run_flatMap steps_sliceByte (by decide) h,
    hidle]

end Sent

/-! ## One step -/

namespace SpaSim

/-- The bytes that a step sends are those of the frames, but for the rest of a frame that was put
off before it and the one that is put off by it, and this rest is all that the states differ in. -/
structure SendsRest (sim : SpaSim) (o : List UInt8 × SpaSim) (o' : List Sent × SpaSim) : Prop where
  whole : o'.2 = o.2.whole
  bytes : o.1 ++ o.2.pending = sim.pending ++ o'.1.flatMap Sent.bytes
  fits : ∀ sent ∈ o'.1, sent.Fits

/-- What is sent where no frame is split. -/
structure Sends (o : List UInt8 × SpaSim) (o' : List Sent × SpaSim) : Prop where
  state : o'.2 = o.2
  remainder : o.2.frameSplitter.remainder = none
  bytes : o.1 = o'.1.flatMap Sent.bytes
  fits : ∀ sent ∈ o'.1, sent.Fits

variable {self : SpaSim}

/-- Without the rest of a frame the simulator is whole. -/
theorem whole_of_none (h : self.frameSplitter.remainder = none) : self.whole = self := by
  unfold whole
  rw [h, Option.map_none, ← h]

/-- Without the rest of a frame nothing is pending. -/
theorem pending_of_none (h : self.frameSplitter.remainder = none) : self.pending = [] := by
  rw [pending, h]
  rfl

/-- A Ready fits the decoder. -/
theorem fits_readySent (self : SpaSim) : self.readySent.Fits := show 1 < 122 by decide

/-- The bytes of the status frame are those that are sent. -/
theorem generateStatusFrame_eq (f : Floats) (self : SpaSim) :
    self.generateStatusFrame f = (self.statusSent f).map fun o => (o.1.bytes, o.2) := by
  unfold generateStatusFrame statusSent
  dsimp only
  rw [Option.map_map]
  congr 1
  funext frame
  dsimp only [Function.comp]
  split <;> rfl

/-- A frame has six bytes more than its payload. -/
theorem length_frameBytes {frame : Frame} (h : frame.payload.length ≤ 251) :
    (frameBytes frame).length = frame.payload.length + 6 := by
  rw [Sent.frameBytes_eq h]
  simp only [Frame.body, List.length_append, List.length_cons, List.length_nil]

/-- A corrupted frame is as long as it was. -/
theorem length_corrupt (bytes : List UInt8) : (corrupt bytes).length = bytes.length := by
  unfold corrupt
  split
  · exact List.length_set
  · rfl

/-- A status frame is as long as any other. -/
theorem statusSent_spec {f : Floats} {o : Sent × SpaSim} (h : self.statusSent f = some o) :
    o.1.Fits ∧ o.1.bytes.length = statusLength ∧ o.2.frameSplitter = self.frameSplitter := by
  unfold statusSent at h
  dsimp only at h
  obtain ⟨frame, hframe, rfl⟩ := Option.map_eq_some_iff.1 h
  obtain ⟨setTemp, -, rfl⟩ := Option.map_eq_some_iff.1 hframe
  generalize hstatus : Frame.mk (0xFF, 0xAF) _ = frame
  have hpayload : frame.payload.length = 25 := by
    rw [← hstatus]
    rfl
  have hbytes : (frameBytes frame).length = statusLength := by
    rw [length_frameBytes (by omega), hpayload]
    rfl
  have hsplitter : ((self.physicsNoise f).2.sensorNoise f).2.frameSplitter =
      self.frameSplitter := by
    obtain ⟨rng, hphysics⟩ := physicsNoise_snd f self
    obtain ⟨rng', hsensor⟩ := sensorNoise_snd f (self.physicsNoise f).2
    rw [hsensor, hphysics]
  dsimp only
  split
  · exact ⟨⟨by omega, by omega⟩, (length_corrupt _).trans hbytes, hsplitter⟩
  · exact ⟨show frame.payload.length < 122 by omega, hbytes, hsplitter⟩

/-- It is time for the Ready frame in both, or in neither. -/
theorem maybeEmitReady_rel (h : self.frameSplitter.remainder = none) :
    Option.Rel Sends self.maybeEmitReady self.maybeReadySent := by
  unfold maybeEmitReady maybeReadySent
  dsimp only
  split
  · apply Mealy.rel_bind
    rintro ⟨interval, sim⟩ hnext
    refine .some ⟨rfl, ?_, rfl, ?_⟩
    · obtain ⟨rng, rfl⟩ := nextReadyInterval_eq_some hnext
      exact h
    · exact List.forall_mem_singleton.2 (fits_readySent self)
  · exact .some ⟨rfl, h, rfl, fun sent hsent => absurd hsent List.not_mem_nil⟩

/-- Where no frame is split before or in a step, nothing is put off. -/
theorem Sends.sendsRest {o : List UInt8 × SpaSim} {o' : List Sent × SpaSim} (h : Sends o o')
    (hself : self.frameSplitter.remainder = none) {before : List Sent}
    (hbefore : ∀ sent ∈ before, sent.Fits) :
    SendsRest self (before.flatMap Sent.bytes ++ o.1, o.2) (before ++ o'.1, o'.2) where
  whole := h.state.trans (whole_of_none h.remainder).symm
  bytes := by
    rw [pending_of_none h.remainder, pending_of_none hself, h.bytes, List.append_nil,
      List.nil_append, List.flatMap_append]
  fits := List.forall_mem_append.2 ⟨hbefore, h.fits⟩

/-- The Ready frame behind a status that is not split. -/
theorem statusReady_rel {s : SpaSim} (hs : s.frameSplitter.remainder = none)
    (hself : self.frameSplitter.remainder = none) {before : List Sent} {bytes : List UInt8}
    (hbytes : bytes = before.flatMap Sent.bytes) (hbefore : ∀ sent ∈ before, sent.Fits) :
    Option.Rel (SendsRest self) (s.maybeEmitReady.map fun o => (bytes ++ o.1, o.2))
      (s.maybeReadySent.map fun o => (before ++ o.1, o.2)) := by
  rw [hbytes]
  apply Mealy.rel_map (maybeEmitReady_rel hs)
  intro o o' h
  exact h.sendsRest hself hbefore

/-- A status that is split is sent in two parts, and the other one sends all of it. -/
theorem emitStatus_rel (h : self.frameSplitter.remainder = none) {status : Sent}
    (hfits : status.Fits) (hlength : status.bytes.length = statusLength) :
    Option.Rel (SendsRest self) (self.emitStatus status.bytes) (self.sendStatus status) := by
  have hpending := pending_of_none h
  have hone : ∀ sent ∈ [status], sent.Fits := List.forall_mem_singleton.2 hfits
  have htwo : ∀ sent ∈ [status, status], sent.Fits := List.forall_mem_cons.2 ⟨hfits, hone⟩
  have hbytes : status.bytes = [status].flatMap Sent.bytes := (List.append_nil _).symm
  have hbytes' : status.bytes ++ status.bytes = [status, status].flatMap Sent.bytes :=
    congrArg (status.bytes ++ ·) hbytes
  unfold emitStatus sendStatus
  cases hsplit : self.frameSplitter.splitPoint with
  | some splitPoint =>
    dsimp only
    rw [hlength]
    by_cases hzero : splitPoint = 0
    · rw [if_pos hzero, if_pos (by rw [hzero]; decide)]
      refine .some ⟨rfl, ?_, hone⟩
      rw [hpending, ← hbytes]
      exact List.append_nil status.bytes
    rw [if_neg hzero]
    by_cases hpast : splitPoint ≥ statusLength
    · rw [if_pos hpast, if_neg (not_lt.2 hpast)]
      refine statusReady_rel ?_ h hbytes hone
      exact h
    · rw [if_neg hpast, if_pos (not_le.1 hpast)]
      refine .some ⟨rfl, ?_, hone⟩
      rw [hpending, ← hbytes]
      exact List.take_append_drop splitPoint status.bytes
  | none =>
    dsimp only
    split
    · refine statusReady_rel ?_ h hbytes' htwo
      exact h
    · exact statusReady_rel h h hbytes hone

/-- What is sent before a step in which nothing is put off yet. -/
theorem SendsRest.prepend {o : List UInt8 × SpaSim} {o' : List Sent × SpaSim} {s : SpaSim}
    (h : SendsRest s o o') (hs : s.pending = self.pending) (hself : self.pending = [])
    {before : List Sent} (hbefore : ∀ sent ∈ before, sent.Fits) :
    SendsRest self (before.flatMap Sent.bytes ++ o.1, o.2) (before ++ o'.1, o'.2) where
  whole := h.whole
  bytes := by
    have hsent := h.bytes
    rw [hs, hself, List.nil_append] at hsent
    rw [hself, List.nil_append, List.append_assoc, hsent, List.flatMap_append]
  fits := List.forall_mem_append.2 ⟨hbefore, h.fits⟩

/-- A tick sends its frames, with the rest of one put off. -/
theorem tickFrames_rel (f : Floats) (h : self.frameSplitter.remainder = none) :
    Option.Rel (SendsRest self) (self.tickFrames f) (self.transmitStatus f) := by
  have hquery : self.queryClients.2.frameSplitter = self.frameSplitter := by
    unfold queryClients
    split <;> rfl
  set before := (if self.registered then [] else [Sent.frame registrationQuery]) with hbeforedef
  have hbytes : self.queryClients.1 = before.flatMap Sent.bytes := by
    rw [hbeforedef]
    unfold queryClients
    split
    · rfl
    · exact (List.append_nil _).symm
  have hbefore : ∀ sent ∈ before, sent.Fits := by
    rw [hbeforedef]
    split
    · exact fun sent hsent => absurd hsent List.not_mem_nil
    · exact List.forall_mem_singleton.2 (show 1 < 122 by decide)
  have hidle : ∀ s : SpaSim, s.frameSplitter = self.frameSplitter →
      s.frameSplitter.remainder = none := fun s hs => by rw [hs, h]
  unfold tickFrames transmitStatus
  dsimp only
  rw [hbytes]
  generalize hdrawn : (self.queryClients.2.processPendingEvents.simulatePhysics f).jitterPaddingLen
    = drawn
  have hsplitter : drawn.2.frameSplitter = self.frameSplitter := by
    obtain ⟨rng, hpadding⟩ :=
      jitterPaddingLen_snd (self.queryClients.2.processPendingEvents.simulatePhysics f)
    rw [← hdrawn, hpadding]
    exact hquery
  simp only [generateStatusFrame_eq, Option.bind_eq_bind, Option.bind_map]
  apply Mealy.rel_bind
  intro o ho
  obtain ⟨hfits, hlength, hsame⟩ := statusSent_spec ho
  have hremainder := hidle o.2.tickCountdowns (hsame.trans hsplitter)
  have hpad : Sent.Fits (.padding drawn.1) := trivial
  have hall : ∀ sent ∈ before ++ [.padding drawn.1], sent.Fits :=
    List.forall_mem_append.2 ⟨hbefore, List.forall_mem_singleton.2 hpad⟩
  have hsent := emitStatus_rel hremainder hfits hlength
  rw [← hbeforedef, Function.comp_apply]
  dsimp only
  generalize o.2.tickCountdowns.emitStatus o.1.bytes = emitted at hsent ⊢
  generalize o.2.tickCountdowns.sendStatus o.1 = sent at hsent ⊢
  cases hsent with
  | none => exact .none
  | some hrest =>
    have hpending : o.2.tickCountdowns.pending = self.pending := by
      rw [pending_of_none hremainder, pending_of_none h]
    have hfull := hrest.prepend hpending (pending_of_none h) hall
    have hpadbytes : [Sent.padding drawn.1].flatMap Sent.bytes = List.replicate drawn.1 0x00 :=
      List.append_nil _
    rw [List.flatMap_append, hpadbytes, List.append_assoc before] at hfull
    exact .some hfull

/-- The rest of a frame that is sent, and the Ready frame behind it. -/
theorem tickRemainder_rel {remainder : List UInt8}
    (h : self.frameSplitter.remainder = some remainder) :
    Option.Rel (SendsRest self) (self.tickRemainder remainder) self.whole.transmitReady := by
  have hpending : self.pending = remainder := by
    rw [pending, h]
    rfl
  unfold tickRemainder transmitReady
  apply Mealy.rel_bind
  intro next hnext
  have hidle : next.2.frameSplitter.remainder = none := by
    obtain ⟨rng, hdrawn⟩ := nextReadyInterval_eq_some hnext
    rw [hdrawn]
  refine .some ⟨(whole_of_none ?_).symm, ?_, List.forall_mem_singleton.2 (fits_readySent _)⟩
  · exact hidle
  · have hready : [self.readySent].flatMap Sent.bytes = self.readyBytes := List.append_nil _
    have hnone : { next.2 with readyCountdown := next.1 }.tickCountdowns.pending = [] :=
      pending_of_none hidle
    calc remainder ++ self.readyBytes ++ { next.2 with readyCountdown := next.1
          }.tickCountdowns.pending
        = remainder ++ self.readyBytes := by rw [hnone, List.append_nil]
      _ = self.pending ++ [self.readySent].flatMap Sent.bytes := by rw [hpending, hready]

/-- A tick of the simulator, and one that sends whole frames. -/
theorem tick_rel (f : Floats) (self : SpaSim) :
    Option.Rel (SendsRest self) (self.tick f) (self.whole.transmit f) := by
  have hstart : self.whole.startTick = self.startTick.whole := rfl
  have hpending : self.startTick.pending = self.pending := rfl
  have hrest (o o') (h : SendsRest self.startTick o o') : SendsRest self o o' :=
    ⟨h.whole, h.bytes.trans (congrArg (· ++ _) hpending), h.fits⟩
  unfold tick transmit
  rw [hstart]
  generalize self.startTick = s at hrest ⊢
  dsimp only
  by_cases hsilent : s.errorInjection.busSilenceRemaining > 0
  · rw [if_pos hsilent, if_pos (show s.whole.errorInjection.busSilenceRemaining > 0 from hsilent)]
    refine .some (hrest _ _ ⟨rfl, (List.append_nil _).symm, ?_⟩)
    exact fun sent hsent => absurd hsent List.not_mem_nil
  rw [if_neg hsilent, if_neg (show ¬ s.whole.errorInjection.busSilenceRemaining > 0 from hsilent)]
  cases hremainder : s.frameSplitter.remainder with
  | none =>
    rw [whole_of_none hremainder, hremainder, if_neg (by decide)]
    exact Mealy.rel_imp (tickFrames_rel f hremainder) hrest
  | some remainder =>
    have hsome : s.whole.frameSplitter.remainder.isSome = true := by
      show (s.frameSplitter.remainder.map _).isSome = true
      rw [hremainder]
      rfl
    rw [if_pos hsome]
    exact Mealy.rel_imp (tickRemainder_rel hremainder) hrest

/-- The response to a command fits the decoder. -/
theorem length_processCommand {payload : List UInt8} {response : Frame}
    (h : (self.processCommand payload).1 = some response) : response.payload.length < 122 := by
  unfold processCommand at h
  split at h
  · cases h
    rw [length_configResponse]
    decide
  · cases h
  · cases h
  · cases h
    exact show 9 < 122 by decide
  · cases h
    rw [length_informationResponse]
    decide
  · cases h
    exact show 11 < 122 by decide
  · cases h

/-- The response to a registration fits the decoder. -/
theorem length_processRegistration {payload : List UInt8} {response : Frame}
    (h : (self.processRegistration payload).1 = some response) :
    response.payload.length < 122 := by
  unfold processRegistration at h
  split at h
  · split at h
    · cases h
    · cases h
      exact show 4 < 122 by decide
  · cases h
    exact show 5 < 122 by decide
  · cases h

/-- The payload of no answer is long. -/
theorem length_processFrame {frame response : Frame}
    (h : (self.processFrame frame).1 = some response) : response.payload.length < 122 := by
  unfold processFrame at h
  split_ifs at h
  · exact length_processCommand h
  · exact length_processRegistration h

/-- Responses fit the decoder. -/
theorem fits_processFrames (frames : List Frame) :
    ∀ response ∈ (self.processFrames frames).1, response.payload.length < 122 := by
  induction frames generalizing self with
  | nil => exact fun response hresponse => absurd hresponse List.not_mem_nil
  | cons frame frames ih =>
    intro response hresponse
    rcases List.mem_append.1 hresponse with hfirst | hrest
    · exact length_processFrame (Option.mem_toList.1 hfirst)
    · exact ih response hrest

/-- Another splitter. -/
def setSplitter (self : SpaSim) (frameSplitter : FrameSplitter) : SpaSim :=
  { self with frameSplitter }

section Splitter

variable (splitter : FrameSplitter)

/-- Accepting a command does not depend on the rest of a frame. -/
theorem setSplitter_accept (cmd : DeferredCommand) :
    (self.setSplitter splitter).accept cmd = (self.accept cmd).setSplitter splitter := by
  unfold accept
  have hdrawn : (self.setSplitter splitter).shouldAcceptCommand =
      (self.shouldAcceptCommand.1, self.shouldAcceptCommand.2.setSplitter splitter) := rfl
  have hlatency : (self.shouldAcceptCommand.2.setSplitter splitter).commandLatencyTicks =
      self.shouldAcceptCommand.2.commandLatencyTicks := rfl
  rw [hdrawn]
  dsimp only
  split
  · rw [hlatency]
    split <;> rfl
  · rfl

/-- Processing a command does not depend on the rest of a frame. -/
theorem setSplitter_processCommand (payload : List UInt8) :
    (self.setSplitter splitter).processCommand payload =
      ((self.processCommand payload).1, (self.processCommand payload).2.setSplitter splitter) := by
  unfold processCommand
  split
  · rfl
  · rw [setSplitter_accept]
  · rw [← setSplitter_accept]
    rfl
  all_goals rfl

/-- Allocating a channel does not depend on the rest of a frame. -/
theorem setSplitter_allocateChannel (hash : UInt8 × UInt8) :
    (self.setSplitter splitter).allocateChannel hash =
      ((self.allocateChannel hash).1, (self.allocateChannel hash).2.setSplitter splitter) := by
  have hclient : (self.setSplitter splitter).clientId = self.clientId := rfl
  have hsame : ((self.setSplitter splitter).registered = true ∧
      (self.setSplitter splitter).pendingClientHash = some hash) ↔
        (self.registered = true ∧ self.pendingClientHash = some hash) := Iff.rfl
  unfold allocateChannel
  rw [hclient]
  split
  · simp only [hsame]
    split <;> rfl
  · rfl

/-- Processing a registration does not depend on the rest of a frame. -/
theorem setSplitter_processRegistration (payload : List UInt8) :
    (self.setSplitter splitter).processRegistration payload =
      ((self.processRegistration payload).1,
        (self.processRegistration payload).2.setSplitter splitter) := by
  have hlate : (self.setSplitter splitter).isLate = self.isLate := rfl
  unfold processRegistration
  split
  · dsimp only
    rw [hlate, setSplitter_allocateChannel]
    split <;> rfl
  all_goals rfl

/-- Processing a frame does not depend on the rest of another. -/
theorem setSplitter_processFrame (frame : Frame) :
    (self.setSplitter splitter).processFrame frame =
      ((self.processFrame frame).1, (self.processFrame frame).2.setSplitter splitter) := by
  have hsame : ((self.setSplitter splitter).requireRegistration = true ∧
      (self.setSplitter splitter).registered = false) ↔
        (self.requireRegistration = true ∧ self.registered = false) := Iff.rfl
  unfold processFrame
  rw [setSplitter_processCommand, setSplitter_processRegistration]
  simp only [hsame]
  split_ifs <;> rfl

/-- Processing frames does not depend on the rest of another. -/
theorem setSplitter_processFrames (frames : List Frame) :
    (self.setSplitter splitter).processFrames frames =
      ((self.processFrames frames).1, (self.processFrames frames).2.setSplitter splitter) := by
  induction frames generalizing self with
  | nil => rfl
  | cons frame frames ih =>
    rw [processFrames, setSplitter_processFrame]
    dsimp only
    rw [ih]
    rfl

/-- The splitter has nothing to do with what arrives. -/
theorem setSplitter_respond (bytes : List UInt8) :
    (self.setSplitter splitter).respond bytes =
      ((self.respond bytes).1, (self.respond bytes).2.setSplitter splitter) := by
  unfold respond
  split
  · exact setSplitter_processFrames splitter _
  · rfl

end Splitter

/-- A response leaves the rest of a frame alone. -/
theorem frameSplitter_respond (self : SpaSim) (bytes : List UInt8) :
    (self.respond bytes).2.frameSplitter = self.frameSplitter :=
  congrArg (fun o => o.2.frameSplitter)
    (setSplitter_respond self.frameSplitter bytes : self.respond bytes = _)

/-- A response to bytes fits the decoder. -/
theorem fits_respond {bytes : List UInt8} {response : Frame}
    (h : response ∈ (self.respond bytes).1) : response.payload.length < 122 := by
  unfold respond at h
  split at h
  · exact fits_processFrames _ response h
  · exact absurd h List.not_mem_nil

/-- A step of the simulator, and one that sends whole frames. -/
theorem step_rel (f : Floats) {event : SimEvent} (h : self.Undisturbed event) :
    Option.Rel (SendsRest self) (self.step f event) (self.whole.stepSent f event) := by
  cases event with
  | tick => exact tick_rel f self
  | set setting =>
    have hpending : (self.set f setting).pending = self.pending := by
      cases setting with
      | partialFrameAt splitPoint =>
        rcases h with hnone | hsplit
        · exact hnone.symm
        · exact absurd rfl (hsplit splitPoint)
      | _ => rfl
    refine .some ⟨?_, hpending.trans (List.append_nil _).symm, ?_⟩
    · cases setting <;> rfl
    · exact fun sent hsent => absurd hsent List.not_mem_nil
  | incoming bytes =>
    have hwhole : self.whole.respond bytes =
        ((self.respond bytes).1, (self.respond bytes).2.whole) := by
      have hsplitter := frameSplitter_respond self bytes
      have hset : (self.setSplitter self.whole.frameSplitter).respond bytes = _ :=
        setSplitter_respond self.whole.frameSplitter bytes
      unfold whole
      rw [hsplitter]
      exact hset
    have hpending : (self.respond bytes).2.pending = self.pending :=
      congrArg (·.remainder.getD []) (frameSplitter_respond self bytes)
    have hbytes : ((self.respond bytes).1.map Sent.frame).flatMap Sent.bytes =
        (self.respond bytes).1.flatMap frameBytes := List.flatMap_map _ _ _
    show Option.Rel _ (some (self.processIncomingBytes bytes))
      (some ((self.whole.respond bytes).1.map Sent.frame, (self.whole.respond bytes).2))
    rw [hwhole]
    refine .some ⟨rfl, ?_, ?_⟩
    · show (self.respond bytes).1.flatMap frameBytes ++ (self.respond bytes).2.pending =
        self.pending ++ ((self.respond bytes).1.map Sent.frame).flatMap Sent.bytes
      rw [hpending, hbytes]
      rcases h with hnone | hsilent
      · rw [hnone, List.append_nil, List.nil_append]
      · have hnothing : (self.respond bytes).1 = [] := hsilent
        rw [hnothing]
        exact (List.append_nil _).symm
    · rintro sent hsent
      obtain ⟨response, hresponse, rfl⟩ := List.mem_map.1 hsent
      exact fits_respond hresponse

/-! ## Runs -/

/-- The decoder of the firmware has the frames that were sent, whatever slices the bytes arrive in,
when it also has the rest that is put off. An error is counted for each frame that was corrupted. -/
def Received (bytes rest : List UInt8) (sents : List Sent) : Prop :=
  ∀ chunks : List (List UInt8), chunks.flatten = bytes → ∃ frames d frames',
    FrameDecoder.new.feedSlices chunks = some (frames, d) ∧
    d.feedSlice rest =
      some (frames', FrameDecoder.countError^[(sents.map Sent.errors).sum] .new) ∧
    frames ++ frames' = sents.flatMap Sent.arrives

/-- Bytes of frames that were sent are received as these frames. -/
theorem received {bytes rest : List UInt8} {sents : List Sent}
    (h : bytes ++ rest = sents.flatMap Sent.bytes) (hfits : ∀ sent ∈ sents, sent.Fits) :
    Received bytes rest sents := by
  rintro chunks rfl
  have hshape : FrameDecoder.Shape 512 .new := .idle 0
  have hfit : FrameDecoder.new.Fits := FrameDecoder.fits_of_idle rfl
  obtain ⟨-, hfit'⟩ := hshape.run_sliceByte hfit chunks.flatten
  have hrun := Sent.run_flatMap FrameDecoder.steps_sliceByte (by decide : 255 ≤ 512) hfits 0
  rw [← h, Mealy.run_append] at hrun
  obtain ⟨hframes, hstate⟩ := Prod.mk.inj hrun
  refine ⟨_, _, _, FrameDecoder.feedSlices_eq hshape hfit chunks,
    (FrameDecoder.feedSlice_eq hfit' rest).trans (congrArg some (Prod.ext rfl hstate)), hframes⟩

/-- The bytes so far are those of the frames so far, but for the rest of the last one. -/
structure Agrees (bytes : List UInt8) (sim : SpaSim) (sents : List Sent) (sim' : SpaSim) :
    Prop where
  whole : sim' = sim.whole
  bytes : bytes ++ sim.pending = sents.flatMap Sent.bytes
  fits : ∀ sent ∈ sents, sent.Fits

/-- An event keeps the two simulators in agreement. -/
theorem Agrees.step {bytes : List UInt8} {sim sim' : SpaSim} {sents : List Sent}
    {event : SimEvent} (f : Floats) (h : Agrees bytes sim sents sim')
    (hevent : sim.Undisturbed event) :
    Option.Rel (fun o o' => Agrees (bytes ++ o.1) o.2 (sents ++ o'.1) o'.2)
      (sim.step f event) (sim'.stepSent f event) := by
  rw [h.whole]
  apply Mealy.rel_imp (step_rel f hevent)
  intro o o' hstep
  refine ⟨hstep.whole, ?_, List.forall_mem_append.2 ⟨h.fits, hstep.fits⟩⟩
  rw [List.append_assoc, hstep.bytes, ← List.append_assoc, h.bytes, List.flatMap_append]

/-- In every run in which nothing comes between the parts of a frame, the simulator panics when the
one that sends whole frames does, and otherwise the firmware receives what that one sends. -/
theorem run_received (f : Floats) {self : SpaSim} (h : self.pending = []) {events : List SimEvent}
    (ha : Mealy.TryAlong (step f) Undisturbed self events) :
    Option.Rel (fun o o' => o'.2 = o.2.whole ∧ Received o.1 o.2.pending o'.1)
      (Mealy.tryRun (step f) self events) (Mealy.tryRun (stepSent f) self.whole events) := by
  have h0 : Agrees [] self [] self.whole :=
    ⟨rfl, h, fun sent hsent => absurd hsent List.not_mem_nil⟩
  have hruns := Mealy.tryRun_rel (fun _ _ _ _ _ hagrees hevent => hagrees.step f hevent) h0 ha
  apply Mealy.rel_imp hruns
  intro o o' hagrees
  exact ⟨hagrees.whole, received hagrees.bytes hagrees.fits⟩

/-- A status that is corrupted and split, and then one that is sent twice. -/
theorem run_received_split : ∃ o o',
    Mealy.tryRun (step ⟨.exact, fun _ => 0⟩) new [.set .corruptFrame, .set (.partialFrameAt 5),
      .tick, .tick, .set .duplicateFrame, .tick] = some o ∧
    Mealy.tryRun (stepSent ⟨.exact, fun _ => 0⟩) new [.set .corruptFrame, .set (.partialFrameAt 5),
      .tick, .tick, .set .duplicateFrame, .tick] = some o' ∧ Received o.1 o.2.pending o'.1 := by
  set f : Floats := ⟨.exact, fun _ => 0⟩
  set events : List SimEvent := [.set .corruptFrame, .set (.partialFrameAt 5), .tick, .tick,
    .set .duplicateFrame, .tick] with hevents
  have ha : Mealy.TryAlong (step f) Undisturbed new events := by
    refine ⟨.inl rfl, fun o ho => ?_⟩
    obtain rfl := Option.some.inj ho
    refine ⟨.inl rfl, fun o ho => ⟨.inr trivial, fun o ho => ⟨.inr trivial, fun o ho =>
      ⟨.inr ?_, fun o ho => ⟨.inr trivial, fun o ho => trivial⟩⟩⟩⟩⟩
    exact fun splitPoint hset => by cases hset
  have hsafe : ∀ event ∈ events, event.Safe := by
    rw [hevents]
    simp only [List.forall_mem_cons]
    exact ⟨trivial, trivial, trivial, trivial, trivial, trivial,
      fun event hevent => absurd hevent List.not_mem_nil⟩
  obtain ⟨o, ho, -⟩ := Safe.new.tryRun f hsafe
  have hpending : new.pending = [] := rfl
  have hrel := run_received f hpending ha
  rw [ho] at hrel
  generalize hrun : Mealy.tryRun (stepSent f) new.whole events = run at hrel
  cases hrel with
  | some hreceived => exact ⟨o, _, ho, hrun, hreceived.2⟩

end SpaSim

end Launa.Sim.Simulator
