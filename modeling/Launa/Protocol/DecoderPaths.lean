import Launa.Protocol.Decoder

/-!
# The two interfaces of the decoder

`feed` and `feed_slice` do the same with a byte, but for one case: when the body of a frame is
complete and the next byte is not the end marker, `feed_slice` counts an error, and `feed` buffers
the byte and goes on to wait for a marker. So the two agree on a stream exactly when no body is
followed by such a byte (`feedSlice_eq_feed_iff`), and what `feed` buffers then exceeds the buffer's
limit, or makes the bytes that `feed_slice` needs underflow, unless a marker comes first
(`run_bounded_iff`).
-/

namespace Launa.Protocol

open Run

namespace FrameDecoder

variable {d : FrameDecoder} {byte : UInt8} {size : ℕ}

/-- If the body of a frame is complete, it is not exceeded and the byte is its end marker. -/
def InStep (d : FrameDecoder) (byte : UInt8) : Prop :=
  d.inFrame = true → 0 < d.expectedLength → d.expectedLength ≤ d.buffer.length →
    d.buffer.length = d.expectedLength ∧ byte = frameMarker

instance (d : FrameDecoder) (byte : UInt8) : Decidable (d.InStep byte) :=
  inferInstanceAs (Decidable (_ → _ → _ → _ ∧ _))

/-- Behind the start marker a byte is taken as the length. -/
theorem feed_started (errors : UInt32) (hbyte : byte ≠ frameMarker) :
    feed ⟨[], true, 0, errors, size⟩ byte = (none, sized ⟨[], true, 0, errors, size⟩ byte) := by
  rw [feed, if_neg hbyte, if_pos rfl]
  unfold sized
  dsimp only [List.nil_append, List.length_singleton]
  rw [if_pos rfl]
  by_cases hmin : byte.toNat < 4
  · rw [if_pos hmin, if_pos (.inl hmin)]
  · rw [if_neg hmin]
    by_cases hmax : byte.toNat > size
    · rw [if_pos hmax, if_pos (.inr hmax)]
    · rw [if_neg hmax, if_neg (by omega)]

/-- In step, `feed` does what `feed_slice` does. -/
theorem Shape.feedByte_eq (h : Shape size d) (hstep : d.InStep byte) :
    d.feedByte byte = d.sliceByte byte := by
  unfold feedByte
  cases h with
  | idle errors =>
    rw [FrameDecoder.sliceByte, if_pos rfl, feed]
    by_cases hbyte : byte = frameMarker
    · rw [if_pos hbyte, if_pos hbyte]
      rfl
    · rw [if_neg hbyte, if_neg hbyte]
      rfl
  | started errors =>
    rw [FrameDecoder.sliceByte, if_neg Bool.false_ne_true.symm, if_pos rfl]
    by_cases hbyte : byte = frameMarker
    · rw [feed, if_pos hbyte, if_pos hbyte]
      rfl
    · rw [feed_started _ hbyte, if_neg hbyte]
      rfl
  | body len data errors hne hmin hmax =>
    rw [FrameDecoder.sliceByte, if_neg Bool.false_ne_true.symm, if_neg (by dsimp only; omega)]
    by_cases hshort : (len :: data).length < len.toNat
    · -- The byte is data.
      rw [if_pos hshort, feed]
      split
      · rw [if_pos rfl, if_neg fun h => absurd h.2 (Nat.not_le.2 hshort),
          if_pos ⟨by dsimp only; omega, hshort⟩]
        rfl
      · rw [if_pos rfl]
        dsimp only
        rw [if_neg (by simp)]
        rfl
    · -- The byte ends the frame.
      obtain ⟨-, rfl⟩ := hstep rfl (by dsimp only; omega) (Nat.not_lt.1 hshort)
      rw [if_neg hshort, if_pos rfl, feed, if_pos rfl, if_pos rfl,
        if_pos ⟨by dsimp only; omega, Nat.not_lt.1 hshort⟩]

/-- Out of step, `feed` buffers a byte that is no marker, and stays in the frame. -/
theorem feed_body {len : UInt8} {data : List UInt8} {errors : UInt32}
    (hbyte : byte ≠ frameMarker) :
    feed ⟨len :: data, true, len.toNat, errors, size⟩ byte =
      (none, ⟨len :: (data ++ [byte]), true, len.toNat, errors, size⟩) := by
  rw [feed, if_neg hbyte, if_pos rfl]
  dsimp only
  rw [if_neg (by simp)]
  rfl

/-- A decoder that is in step with a byte fits its buffer. -/
theorem Shape.fits_of_inStep (h : Shape size d) (hstep : d.InStep byte) : d.Fits := by
  intro hin
  cases h with
  | idle errors => exact absurd hin Bool.false_ne_true
  | started errors => exact Nat.le_refl _
  | body len data errors hne hmin hmax =>
    by_contra hover
    have := (hstep rfl (by dsimp only; omega) (by omega)).1
    omega

/-- If the buffer does not fit, the bytes that `feed_slice` needs underflow. -/
theorem feedSlice_of_not_fits (h : Shape size d) (hfit : ¬ d.Fits) (rest : List UInt8) :
    d.feedSlice (byte :: rest) = none := by
  cases h with
  | idle errors => exact absurd (fits_of_idle rfl) hfit
  | started errors => exact absurd (fun _ => Nat.le_refl _) hfit
  | body len data errors hne hmin hmax =>
    have hover : len.toNat < (len :: data).length := Nat.not_le.1 fun h => hfit fun _ => h
    rw [feedSlice, if_neg Bool.false_ne_true.symm, if_neg (by dsimp only; omega), if_pos hover]

/-- If `feed` and `feed_slice` do the same with a byte, it is in step. -/
theorem inStep_of_eq (h : Shape size d) (heq : d.feedSlice [byte] = some (d.feedByte byte)) :
    d.InStep byte := by
  by_cases hfit : d.Fits
  · intro hin hpos hfull
    refine ⟨Nat.le_antisymm (hfit hin) hfull, ?_⟩
    by_contra hbyte
    -- `feed_slice` is idle after the byte, and `feed` still in the frame.
    rw [feedSlice_eq hfit, Mealy.run_cons, Mealy.run_nil, Option.some.injEq] at heq
    have hstate := congrArg (fun r => r.2.inFrame) heq
    cases h with
    | idle errors => exact absurd hin Bool.false_ne_true
    | started errors => exact absurd hpos (Nat.lt_irrefl 0)
    | body len data errors hne hmin hmax =>
      rw [feedByte, feed_body hbyte, FrameDecoder.sliceByte, if_neg Bool.false_ne_true.symm,
        if_neg (by dsimp only; omega), if_neg (Nat.not_lt.2 hfull), if_neg hbyte] at hstate
      exact Bool.false_ne_true hstate
  · rw [feedSlice_of_not_fits h hfit] at heq
    cases heq

/-- From a decoder that is in step all along, the bytes one after the other are the slice. -/
theorem feedSlice_of_along (h : Shape size d) {data : List UInt8}
    (ha : Along (fun d b => (feedByte d b).2) InStep d data) :
    d.feedSlice data = some (Mealy.run feedByte d data) := by
  have hsame : Along (fun d b => (feedByte d b).2)
    (fun d b => sliceByte d b = feedByte d b) d data := by
    refine Along.imp_of_invariant (fun d b hshape hstep => ?_) h ha
    have heq := hshape.feedByte_eq hstep
    exact ⟨heq.symm, heq ▸ hshape.sliceByte b⟩
  cases data with
  | nil => rw [feedSlice, Mealy.run_nil]
  | cons b rest => rw [feedSlice_eq (h.fits_of_inStep ha.1), Mealy.run_congr hsame]

/-- On every prefix of a stream `feed_slice` gives the frames and the decoder that `feed` gives byte
by byte exactly when the stream is in step. -/
theorem forall_feedSlice_iff (h : Shape size d) (data : List UInt8) :
    (∀ pre post, data = pre ++ post → d.feedSlice pre = some (Mealy.run feedByte d pre)) ↔
      Along (fun d b => (feedByte d b).2) InStep d data := by
  constructor
  · intro hall
    -- By induction on the stream: its first byte is in step, and the prefixes of the rest agree.
    induction data generalizing d with
    | nil => trivial
    | cons b rest ih =>
      have hfirst := hall [b] rest rfl
      rw [Mealy.run_cons, Mealy.run_nil, List.append_nil] at hfirst
      have hstep := inStep_of_eq h hfirst
      have hfit := h.fits_of_inStep hstep
      have heq := h.feedByte_eq hstep
      have hshape' : Shape size (d.feedByte b).2 := by rw [heq]; exact h.sliceByte b
      have hfit' : (d.feedByte b).2.Fits := by rw [heq]; exact h.fits_sliceByte hfit b
      refine ⟨hstep, ih hshape' ?_⟩
      rintro pre post rfl
      have := hall (b :: pre) post rfl
      rw [feedSlice_eq hfit, Mealy.run_cons, Mealy.run_cons, ← heq, Option.some.injEq,
        Prod.mk.injEq, List.append_cancel_left_eq] at this
      rw [feedSlice_eq hfit', Option.some.injEq]
      exact Prod.ext this.1 this.2
  -- A prefix of a stream in step is in step.
  · rintro ha pre post rfl
    exact feedSlice_of_along h ((along_append _ _ _ _).1 ha).1

/-! ## Runs of both interfaces -/

/-- A call of the decoder. -/
inductive Call where
  | feed (byte : UInt8)
  | feedSlice (data : List UInt8)
  deriving Repr

/-- The frames of a call, and the decoder after it. -/
def call (d : FrameDecoder) : Call → Option (List Frame × FrameDecoder)
  | .feed byte => some (d.feedByte byte)
  | .feedSlice data => d.feedSlice data

/-- The decoder after a call, if it and those before it returned. -/
def step (o : Option FrameDecoder) (c : Call) : Option FrameDecoder :=
  o.bind fun d => (d.call c).map Prod.snd

/-- The decoder after calls on a new one with a buffer of `size` bytes. -/
def after (size : ℕ) (cs : List Call) : Option FrameDecoder :=
  cs.foldl step (some (new.withMaxBuffer size))

/-- Out of step, the body is complete: a marker ends it, and another byte is buffered. -/
theorem Shape.feed_of_not_inStep (h : Shape size d) (hstep : ¬ d.InStep byte) :
    d.feed byte = d.finish ∨
      byte ≠ frameMarker ∧ d.inFrame = true ∧ d.buffer ≠ [] ∧
        d.feed byte = (none, { d with buffer := d.buffer ++ [byte] }) := by
  cases h with
  | idle errors => exact absurd (fun h => absurd h Bool.false_ne_true) hstep
  | started errors => exact absurd (fun _ h => absurd h (Nat.lt_irrefl 0)) hstep
  | body len data errors hne hmin hmax =>
    by_cases hbyte : byte = frameMarker
    · have hfull : len.toNat ≤ (len :: data).length := by
        by_contra hshort
        exact hstep fun _ _ h => absurd h hshort
      left
      rw [feed, if_pos hbyte, if_pos rfl, if_pos ⟨by dsimp only; omega, hfull⟩]
    · exact .inr ⟨hbyte, rfl, List.cons_ne_nil _ _, feed_body hbyte⟩

/-- A byte that is added to a frame keeps the shape of the decoder. -/
theorem Shape.push (h : Shape size d) (hne : d.buffer ≠ []) (byte : UInt8) :
    Shape size { d with buffer := d.buffer ++ [byte] } := by
  cases h with
  | idle errors => exact absurd rfl hne
  | started errors => exact absurd rfl hne
  | body len data errors hlen hmin hmax => exact .body len (data ++ [byte]) errors hlen hmin hmax

/-- The size of the buffer is that of the shape. -/
theorem Shape.maxBufferSize (h : Shape size d) : d.maxBufferSize = size := by
  cases h <;> rfl

/-- A single byte keeps the shape of the decoder. -/
theorem Shape.feedByte (h : Shape size d) (byte : UInt8) : Shape size (d.feedByte byte).2 := by
  by_cases hstep : d.InStep byte
  · rw [h.feedByte_eq hstep]
    exact h.sliceByte byte
  · rw [FrameDecoder.feedByte]
    rcases h.feed_of_not_inStep hstep with heq | ⟨-, -, hne, heq⟩
    · rw [heq]
      exact shape_finish h.maxBufferSize
    · rw [heq]
      exact h.push hne byte

/-- A call that returns keeps the shape. -/
theorem Shape.call (h : Shape size d) {c : Call} {r : List Frame × FrameDecoder}
    (hr : d.call c = some r) : Shape size r.2 := by
  cases c with
  | feed byte =>
    cases hr
    exact h.feedByte byte
  | feedSlice data =>
    by_cases hfit : d.Fits
    · rw [FrameDecoder.call, feedSlice_eq hfit] at hr
      cases hr
      exact (h.run_sliceByte hfit data).1
    · cases data with
      | nil =>
        rw [FrameDecoder.call, feedSlice] at hr
        cases hr
        exact h
      | cons b rest =>
        rw [FrameDecoder.call, feedSlice_of_not_fits h hfit] at hr
        cases hr

/-- The decoder after calls, if they return, has a shape. -/
theorem shape_after (size : ℕ) (cs : List Call) (h : after size cs = some d) : Shape size d := by
  have hinv : ∀ o c, (∀ d, o = some d → Shape size d) → ∀ d, step o c = some d → Shape size d := by
    intro o c ho d hd
    obtain ⟨d', rfl, hd⟩ := Option.bind_eq_some_iff.1 hd
    obtain ⟨r, hr, rfl⟩ := Option.map_eq_some_iff.1 hd
    exact (ho d' rfl).call hr
  refine invariant hinv (s := some (new.withMaxBuffer size)) ?_ cs d h
  intro d hd
  cases hd
  exact shape_withMaxBuffer size

/-- What fits the frame that is expected fits the buffer. -/
theorem Shape.length_le (h : Shape size d) (hfit : d.Fits) : d.buffer.length ≤ size := by
  cases h with
  | idle errors => exact Nat.zero_le _
  | started errors => exact Nat.zero_le _
  | body len data errors hne hmin hmax => exact Nat.le_trans (hfit rfl) hmax

/-- After any calls, a stream fed byte by byte with `feed` and every prefix of it fed to
`feed_slice` give the same frames and the same decoder exactly when no complete body in the stream
is followed by another byte than a marker. -/
theorem feedSlice_eq_feed_iff (size : ℕ) (cs : List Call) {d : FrameDecoder}
    (hd : after size cs = some d) (data : List UInt8) :
    (∀ pre post, data = pre ++ post → d.feedSlice pre = some (Mealy.run feedByte d pre)) ↔
      Along (fun d b => (feedByte d b).2) InStep d data :=
  forall_feedSlice_iff (shape_after size cs hd) data

/-- The bytes of the frame `0A BF` with an empty payload. -/
def shortFrame : List UInt8 := [0x7E, 0x04, 0x0A, 0xBF, 0xC9, 0x7E]

/-- A frame on the wire is in step, so every prefix of it gives the same. -/
theorem feedSlice_eq_feed_shortFrame :
    new.feedSlice shortFrame = some (Mealy.run feedByte new shortFrame) :=
  (feedSlice_eq_feed_iff 512 [] rfl shortFrame).2 (by decide +kernel) shortFrame []
    (List.append_nil _).symm

/-- With a byte before its end marker it is a frame for `feed` and an error for `feed_slice`. -/
theorem feedSlice_ne_feed_shortFrame :
    ¬ new.feedSlice [0x7E, 0x04, 0x0A, 0xBF, 0xC9, 0x00, 0x7E] =
      some (Mealy.run feedByte new [0x7E, 0x04, 0x0A, 0xBF, 0xC9, 0x00, 0x7E]) := by
  decide +kernel

/-- The call neither exceeds the buffer nor finds it exceed the frame: a byte that is no marker
finds room after a length byte, and bytes for `feed_slice` find no more than the frame. -/
def InBounds (d : FrameDecoder) : Call → Prop
  | .feed byte => byte ≠ frameMarker → d.inFrame = true → d.buffer ≠ [] →
    d.buffer.length < d.maxBufferSize
  | .feedSlice data => data ≠ [] → d.Fits

/-- A byte of `feed` keeps to the buffer's size, if it finds room. -/
theorem Shape.feedByte_length_le (h : Shape size d) (hc : d.InBounds (.feed byte)) :
    (d.feedByte byte).2.buffer.length ≤ size := by
  by_cases hstep : d.InStep byte
  · rw [h.feedByte_eq hstep]
    exact (h.sliceByte byte).length_le (h.fits_sliceByte (h.fits_of_inStep hstep) byte)
  · rw [FrameDecoder.feedByte]
    rcases h.feed_of_not_inStep hstep with heq | ⟨hbyte, hin, hne, heq⟩
    · rw [heq, finish_buffer]
      exact Nat.zero_le _
    -- The byte is buffered, and finds room.
    · have hroom := hc hbyte hin hne
      rw [h.maxBufferSize] at hroom
      rw [heq, List.length_append]
      exact hroom

/-- A call in bounds returns, and keeps to the buffer's size. -/
theorem Shape.call_inBounds (h : Shape size d) (hlen : d.buffer.length ≤ size) {c : Call}
    (hc : d.InBounds c) : ∃ d', step (some d) c = some d' ∧ d'.buffer.length ≤ size := by
  cases c with
  | feed byte => exact ⟨_, rfl, h.feedByte_length_le hc⟩
  | feedSlice data =>
    -- A buffer that does not fit underflows at the first byte.
    cases data with
    | nil =>
      refine ⟨d, ?_, hlen⟩
      show (d.feedSlice []).map Prod.snd = some d
      rw [feedSlice]
      rfl
    | cons b rest =>
      have hfit := hc (List.cons_ne_nil _ _)
      obtain ⟨hshape', hfit'⟩ := h.run_sliceByte hfit (b :: rest)
      refine ⟨_, ?_, hshape'.length_le hfit'⟩
      show (d.feedSlice (b :: rest)).map Prod.snd = _
      rw [feedSlice_eq hfit]
      rfl

/-- A call that returns and keeps to the buffer's size is in bounds. -/
theorem Shape.inBounds_of_call (h : Shape size d) {c : Call}
    (hc : ∃ d', step (some d) c = some d' ∧ d'.buffer.length ≤ size) : d.InBounds c := by
  obtain ⟨d', hd', hlen⟩ := hc
  cases c with
  | feed byte =>
    intro hbyte hin hne
    cases h with
    | idle errors => exact absurd hin Bool.false_ne_true
    | started errors => exact absurd rfl hne
    | body len data errors hne hmin hmax =>
      cases hd'
      -- The byte that was buffered kept to the size.
      rw [FrameDecoder.feedByte, feed_body hbyte, ← List.cons_append, List.length_append] at hlen
      exact hlen
  | feedSlice data =>
    intro hne
    by_contra hfit
    obtain ⟨b, rest, rfl⟩ := List.exists_cons_of_ne_nil hne
    have hnone : step (some d) (.feedSlice (b :: rest)) = none := by
      show (d.feedSlice (b :: rest)).map Prod.snd = none
      rw [feedSlice_of_not_fits h hfit]
      rfl
    exact absurd (hd'.symm.trans hnone) (Option.some_ne_none _)

/-- In every run of both interfaces the calls return and the buffer keeps to its size exactly when
every call is in bounds. -/
theorem run_bounded_iff (size : ℕ) (cs : List Call) :
    (∀ pre post, cs = pre ++ post → ∃ d, after size pre = some d ∧ d.buffer.length ≤ size) ↔
      Along step (fun o c => ∀ d, o = some d → d.InBounds c) (some (new.withMaxBuffer size))
        cs := by
  refine along_iff_forall (P := fun o => ∃ d, o = some d ∧ d.buffer.length ≤ size)
    (I := fun o => ∃ d, o = some d ∧ Shape size d ∧ d.buffer.length ≤ size)
    ?_ ?_ ?_ ⟨_, rfl, shape_withMaxBuffer size, Nat.zero_le _⟩ cs
  -- The invariant holds the shape beside the size.
  · rintro _ ⟨d, rfl, -, hlen⟩
    exact ⟨d, rfl, hlen⟩
  · rintro _ c ⟨d, rfl, hshape, -⟩ hd' _ ⟨⟩
    exact hshape.inBounds_of_call hd'
  · rintro _ c ⟨d, rfl, hshape, hlen⟩ hc
    obtain ⟨d', hd', hlen'⟩ := hshape.call_inBounds hlen (hc d rfl)
    obtain ⟨r, hr, rfl⟩ := Option.map_eq_some_iff.1 hd'
    exact ⟨r.2, hd', hshape.call hr, hlen'⟩

/-- Five bytes after the length byte 4 exceed the frame, and 512 exceed the buffer. -/
theorem run_exceeds :
    after 512 [.feed 0x7E, .feed 0x04, .feed 0, .feed 0, .feed 0, .feed 0, .feedSlice [0]] = none ∧
      (after 512 (.feed 0x7E :: .feed 0x04 :: List.replicate 512 (.feed 0))).map
        (fun d => d.buffer.length) = some 513 := by
  decide +kernel

end FrameDecoder

end Launa.Protocol
