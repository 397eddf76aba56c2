import Launa.Protocol.Decoder

/-!
# Frames from a stream

A stream of encoded frames, with other bytes than markers between them, is decoded to the frames, in
whatever slices it arrives (`decode_stream_iff`). The exception are frames with a payload of 122
bytes: their length byte is the marker, which the decoder takes for another start, so that it never
has a frame of that length (`length_ne_of_run`).
-/

namespace Launa.Protocol

/-- The bytes are the encodings of the frames, with other bytes than markers between them. -/
inductive Stream : List Frame → List UInt8 → Prop
  | nil (noise : List UInt8) (hnoise : frameMarker ∉ noise) : Stream [] noise
  | cons (noise : List UInt8) (hnoise : frameMarker ∉ noise) {frame : Frame} {bytes : List UInt8}
      (hframe : frame.encode = .ok bytes) {frames : List Frame} {rest : List UInt8}
      (hrest : Stream frames rest) : Stream (frame :: frames) (noise ++ bytes ++ rest)

namespace FrameDecoder

/-- Slices fed one after the other. -/
def feedSlices (d : FrameDecoder) : List (List UInt8) → Option (List Frame × FrameDecoder)
  | [] => some ([], d)
  | chunk :: chunks => do
    let (frames, d') ← d.feedSlice chunk
    let (frames', d'') ← d'.feedSlices chunks
    return (frames ++ frames', d'')

variable {d : FrameDecoder} {size : ℕ}

/-- Slices fed one after the other are their bytes fed one after the other. -/
theorem feedSlices_eq (h : Shape size d) (hfit : d.Fits) (chunks : List (List UInt8)) :
    d.feedSlices chunks = some (Mealy.run sliceByte d chunks.flatten) := by
  induction chunks generalizing d with
  | nil => rfl
  | cons chunk chunks ih =>
    obtain ⟨hshape', hfit'⟩ := h.run_sliceByte hfit chunk
    rw [feedSlices, feedSlice_eq hfit, List.flatten_cons, Mealy.run_append]
    show (feedSlices _ chunks).bind _ = _
    rw [ih hshape' hfit']
    rfl

/-! ## What both interfaces do with a byte -/

/-- What an interface of the decoder does with a byte, whichever of the two it is. -/
structure Steps (step : FrameDecoder → UInt8 → List Frame × FrameDecoder) (size : ℕ) : Prop where
  noise : ∀ errors byte, byte ≠ frameMarker →
    step ⟨[], false, 0, errors, size⟩ byte = ([], ⟨[], false, 0, errors, size⟩)
  start : ∀ inFrame errors,
    step ⟨[], inFrame, 0, errors, size⟩ frameMarker = ([], ⟨[], true, 0, errors, size⟩)
  length : ∀ errors byte, byte ≠ frameMarker → 4 ≤ byte.toNat → byte.toNat ≤ size →
    step ⟨[], true, 0, errors, size⟩ byte = ([], ⟨[byte], true, byte.toNat, errors, size⟩)
  data : ∀ len data errors byte, (len :: data).length < len.toNat →
    step ⟨len :: data, true, len.toNat, errors, size⟩ byte =
      ([], ⟨len :: (data ++ [byte]), true, len.toNat, errors, size⟩)
  finish : ∀ len data errors, 0 < len.toNat → len.toNat ≤ (len :: data).length →
    step ⟨len :: data, true, len.toNat, errors, size⟩ frameMarker =
      ((FrameDecoder.finish ⟨len :: data, true, len.toNat, errors, size⟩).1.toList,
        (FrameDecoder.finish ⟨len :: data, true, len.toNat, errors, size⟩).2)
  /-- Here the two differ: one resets, the other buffers the byte. -/
  overrun : ∀ len data errors byte, 0 < len.toNat → len.toNat ≤ (len :: data).length →
    byte ≠ frameMarker →
    step ⟨len :: data, true, len.toNat, errors, size⟩ byte =
        ([], resetOnError ⟨len :: data, true, len.toNat, errors, size⟩) ∨
      step ⟨len :: data, true, len.toNat, errors, size⟩ byte =
        ([], ⟨len :: (data ++ [byte]), true, len.toNat, errors, size⟩)

/-- The bytes of a slice are decoded as the format of frames asks. -/
theorem steps_sliceByte : Steps sliceByte size where
  noise errors byte hbyte := by rw [sliceByte, if_pos rfl, if_neg hbyte]
  start inFrame errors := by cases inFrame <;> rfl
  length errors byte hbyte hmin hmax := by
    rw [sliceByte, if_neg Bool.false_ne_true.symm, if_pos rfl, if_neg hbyte]
    refine congrArg _ (if_neg ?_)
    dsimp only
    omega
  data len data errors byte hshort := by
    rw [sliceByte, if_neg Bool.false_ne_true.symm, if_neg (by dsimp only; omega), if_pos hshort]
    rfl
  finish len data errors hpos hfull := by
    rw [sliceByte, if_neg Bool.false_ne_true.symm, if_neg (Nat.ne_of_gt hpos),
      if_neg (Nat.not_lt.2 hfull), if_pos rfl]
  overrun len data errors byte hpos hfull hbyte := by
    left
    rw [sliceByte, if_neg Bool.false_ne_true.symm, if_neg (Nat.ne_of_gt hpos),
      if_neg (Nat.not_lt.2 hfull), if_neg hbyte]

namespace Steps

variable {step : FrameDecoder → UInt8 → List Frame × FrameDecoder} {errors : UInt32}

/-- An idle decoder ignores other bytes than markers. -/
theorem run_noise (h : Steps step size) {noise : List UInt8} (hnoise : frameMarker ∉ noise) :
    Mealy.run step ⟨[], false, 0, errors, size⟩ noise = ([], ⟨[], false, 0, errors, size⟩) := by
  induction noise with
  | nil => rfl
  | cons b noise ih =>
    rw [List.mem_cons, not_or] at hnoise
    rw [Mealy.run_cons, h.noise errors b (Ne.symm hnoise.1), ih hnoise.2]
    rfl

/-- Bytes that the body needs are its data, whatever they are. -/
theorem run_data (h : Steps step size) {len : UInt8} {data bytes : List UInt8}
    (hlen : (len :: data).length + bytes.length ≤ len.toNat) :
    Mealy.run step ⟨len :: data, true, len.toNat, errors, size⟩ bytes =
      ([], ⟨len :: (data ++ bytes), true, len.toNat, errors, size⟩) := by
  induction bytes generalizing data with
  | nil => rw [Mealy.run_nil, List.append_nil]
  | cons b bytes ih =>
    simp only [List.length_cons] at hlen
    have hshort : (len :: data).length < len.toNat := by
      rw [List.length_cons]
      omega
    have hrest : (len :: (data ++ [b])).length + bytes.length ≤ len.toNat := by
      rw [List.length_cons, List.length_append, List.length_singleton]
      omega
    rw [Mealy.run_cons, h.data len data errors b hshort, ih hrest, List.append_assoc]
    rfl

/-- A decoder that waits for a frame buffers the body of one, unless the length byte is the
marker. -/
theorem run_open (h : Steps step size) {inFrame : Bool} {f : Frame}
    (hlen : f.payload.length ≤ 251) (hsize : 255 ≤ size) (hne : f.payload.length ≠ 122) :
    Mealy.run step ⟨[], inFrame, 0, errors, size⟩ (frameMarker :: (f.body ++ [crc8 f.body])) =
      ([], ⟨f.body ++ [crc8 f.body], true, (UInt8.ofNat (4 + f.payload.length)).toNat, errors,
        size⟩) := by
  set len := UInt8.ofNat (4 + f.payload.length) with hlendef
  have hlenval : len.toNat = 4 + f.payload.length := by
    rw [hlendef, UInt8.toNat_ofNat']
    omega
  -- The payload would have 122 bytes.
  have hmarker : len ≠ frameMarker := by
    intro hm
    rw [hm] at hlenval
    have : frameMarker.toNat = 126 := rfl
    omega
  set data := f.messageType.1 :: f.messageType.2 :: f.payload ++ [crc8 f.body] with hdata
  have hbody : f.body ++ [crc8 f.body] = len :: data := rfl
  have hdlen : data.length = 3 + f.payload.length := by
    simp only [hdata, List.length_append, List.length_cons, List.length_nil]
    omega
  -- The rest of the body follows the length byte.
  have hcopy : Mealy.run step ⟨[len], true, len.toNat, errors, size⟩ data =
      ([], ⟨len :: data, true, len.toNat, errors, size⟩) :=
    h.run_data (by rw [List.length_singleton]; omega)
  rw [hbody, Mealy.run_cons, h.start, Mealy.run_cons, h.length errors len hmarker (by omega)
    (by omega), hcopy]
  rfl

/-- The end marker behind the body of a frame. -/
theorem step_end (h : Steps step size) {f : Frame} (hlen : f.payload.length ≤ 251) :
    step ⟨f.body ++ [crc8 f.body], true, (UInt8.ofNat (4 + f.payload.length)).toNat, errors, size⟩
        frameMarker = ([f], ⟨[], false, 0, errors, size⟩) := by
  set len := UInt8.ofNat (4 + f.payload.length) with hlendef
  have hlenval : len.toNat = 4 + f.payload.length := by
    rw [hlendef, UInt8.toNat_ofNat']
    omega
  set data := f.messageType.1 :: f.messageType.2 :: f.payload ++ [crc8 f.body] with hdata
  have hbody : f.body ++ [crc8 f.body] = len :: data := rfl
  have hdlen : data.length = 3 + f.payload.length := by
    simp only [hdata, List.length_append, List.length_cons, List.length_nil]
    omega
  have hparse : Frame.parse ((len :: data).take len.toNat) = .ok f := by
    rw [List.take_of_length_le (by rw [List.length_cons]; omega), ← hbody]
    have := Frame.parse_append hlen []
    rwa [List.append_nil] at this
  rw [hbody, h.finish len data errors (by omega) (by rw [List.length_cons]; omega)]
  unfold FrameDecoder.finish
  dsimp only
  rw [hparse]
  rfl

/-- A decoder that waits for a frame decodes one, unless the length byte is the marker. -/
theorem run_frame (h : Steps step size) {inFrame : Bool} {f : Frame}
    (hlen : f.payload.length ≤ 251) (hsize : 255 ≤ size) (hne : f.payload.length ≠ 122) :
    Mealy.run step ⟨[], inFrame, 0, errors, size⟩
        (frameMarker :: (f.body ++ [crc8 f.body]) ++ [frameMarker]) =
      ([f], ⟨[], false, 0, errors, size⟩) := by
  rw [Mealy.run_append, h.run_open hlen hsize hne, Mealy.run_cons, h.step_end hlen]
  rfl

/-- An idle decoder decodes a stream of frames, if no length byte is the marker. -/
theorem run_stream (h : Steps step size) {frames : List Frame} {bytes : List UInt8}
    (hsize : 255 ≤ size) (hstream : Stream frames bytes)
    (hne : ∀ f ∈ frames, f.payload.length ≠ 122) :
    Mealy.run step ⟨[], false, 0, errors, size⟩ bytes =
      (frames, ⟨[], false, 0, errors, size⟩) := by
  induction hstream with
  | nil noise hnoise => exact h.run_noise hnoise
  | cons noise hnoise hframe hrest ih =>
    obtain ⟨hlen, rfl⟩ := Frame.encode_eq_ok.1 hframe
    rw [List.forall_mem_cons] at hne
    rw [Mealy.run_append, Mealy.run_append, h.run_noise hnoise, h.run_frame hlen hsize hne.1,
      ih hne.2]
    rfl

/-- A decoder that waits for a frame skips a body that is rejected, and counts an error. -/
theorem run_rejected (h : Steps step size) (hsize : 255 ≤ size) {inFrame : Bool} {len : UInt8}
    {data : List UInt8} {e : FrameError} (hmarker : len ≠ frameMarker) (hpos : 4 ≤ len.toNat)
    (hlen : (len :: data).length = len.toNat) (hparse : Frame.parse (len :: data) = .error e) :
    Mealy.run step ⟨[], inFrame, 0, errors, size⟩ (frameMarker :: len :: data ++ [frameMarker]) =
      ([], (⟨[], false, 0, errors, size⟩ : FrameDecoder).countError) := by
  have hbyte := len.toNat_lt
  have hdata : Mealy.run step ⟨[len], true, len.toNat, errors, size⟩ data =
      ([], ⟨len :: data, true, len.toNat, errors, size⟩) := by
    apply h.run_data
    rw [List.length_singleton, Nat.add_comm]
    exact Nat.le_of_eq hlen
  have hend : step ⟨len :: data, true, len.toNat, errors, size⟩ frameMarker =
      ([], (⟨[], false, 0, errors, size⟩ : FrameDecoder).countError) := by
    rw [h.finish len data errors (by omega) (Nat.le_of_eq hlen.symm)]
    unfold FrameDecoder.finish
    dsimp only
    rw [List.take_of_length_le (Nat.le_of_eq hlen), hparse]
    rfl
  rw [List.cons_append, List.cons_append, Mealy.run_cons, h.start, Mealy.run_cons,
    h.length errors len hmarker hpos (by omega), Mealy.run_append, hdata, Mealy.run_cons, hend]
  rfl

end Steps

/-- An idle decoder decodes an encoded frame, unless the length byte is the marker. -/
theorem run_sliceByte_frame {errors : UInt32} {f : Frame} (hlen : f.payload.length ≤ 251)
    (hsize : 255 ≤ size) (hne : f.payload.length ≠ 122) :
    Mealy.run sliceByte ⟨[], false, 0, errors, size⟩
        (frameMarker :: (f.body ++ [crc8 f.body]) ++ [frameMarker]) =
      ([f], ⟨[], false, 0, errors, size⟩) :=
  steps_sliceByte.run_frame hlen hsize hne

/-- An idle decoder decodes a stream of frames, if no length byte is the marker. -/
theorem run_sliceByte_stream {errors : UInt32} {frames : List Frame} {bytes : List UInt8}
    (hsize : 255 ≤ size) (h : Stream frames bytes) (hne : ∀ f ∈ frames, f.payload.length ≠ 122) :
    Mealy.run sliceByte ⟨[], false, 0, errors, size⟩ bytes =
      (frames, ⟨[], false, 0, errors, size⟩) :=
  steps_sliceByte.run_stream hsize h hne

/-- A frame of the decoder has the length that its length byte says, and this is no marker. -/
theorem length_ne_of_sliceByte (h : Shape size d) (byte : UInt8) :
    ∀ f ∈ (d.sliceByte byte).1, f.payload.length ≠ 122 := by
  intro f hf
  cases h with
  | idle errors =>
    -- A decoder that waits for a marker or a length has no frame yet.
    rw [sliceByte, if_pos rfl] at hf
    split at hf <;> exact absurd hf List.not_mem_nil
  | started errors =>
    rw [sliceByte, if_neg Bool.false_ne_true.symm, if_pos rfl] at hf
    split at hf <;> exact absurd hf List.not_mem_nil
  | body len data errors hne hmin hmax =>
    rw [sliceByte, if_neg Bool.false_ne_true.symm, if_neg (by dsimp only; omega)] at hf
    split at hf
    · exact absurd hf List.not_mem_nil
    split at hf
    · -- The frame is parsed from the length byte on.
      unfold finish at hf
      split at hf
      · rename_i frame hparse
        rw [Option.toList_some, List.mem_singleton] at hf
        subst hf
        have hlen := Frame.length_of_parse hparse
        obtain ⟨n, hn⟩ : ∃ n, len.toNat = n + 1 := ⟨len.toNat - 1, by omega⟩
        rw [hn, List.take_succ_cons, List.getD_cons_zero] at hlen
        intro h122
        exact hne (UInt8.toNat_inj.1 (by rw [← hlen, h122]; rfl))
      · exact absurd hf List.not_mem_nil
    · exact absurd hf List.not_mem_nil

/-- The decoder never has a frame whose length byte is the marker. -/
theorem length_ne_of_run (h : Shape size d) (bytes : List UInt8) :
    ∀ f ∈ (Mealy.run sliceByte d bytes).1, f.payload.length ≠ 122 :=
  Mealy.run_forall (I := Shape size) (fun _ b hd => ⟨length_ne_of_sliceByte hd b, hd.sliceByte b⟩) h
    bytes

/-- A stream of encoded frames, cut into any slices, is decoded to the frames without an error
exactly when no frame has a payload of 122 bytes. -/
theorem decode_stream_iff {frames : List Frame} {bytes : List UInt8} (h : Stream frames bytes)
    {chunks : List (List UInt8)} (hchunks : chunks.flatten = bytes) :
    (∃ d, new.feedSlices chunks = some (frames, d) ∧ d.frameErrorCount = 0) ↔
      ∀ f ∈ frames, f.payload.length ≠ 122 := by
  have hshape : Shape 512 new := .idle 0
  rw [feedSlices_eq hshape (fits_of_idle rfl), hchunks]
  constructor
  · rintro ⟨d, hd, -⟩
    rw [Option.some.injEq] at hd
    have := length_ne_of_run hshape bytes
    rwa [hd] at this
  · intro hne
    exact ⟨_, congrArg some (run_sliceByte_stream (by decide) h hne), rfl⟩

/-- Two frames with noise before, between and after them, cut in the body of the first. -/
theorem decode_stream_two :
    ∃ d, new.feedSlices [[0x11, 0x7E, 0x05, 0x0A], [0xBF, 0x7E, 0x16, 0x7E, 0x00],
        [0x7E, 0x04, 0x0A, 0xBF, 0xC9, 0x7E, 0x22]] =
      some ([⟨(0x0A, 0xBF), [0x7E]⟩, ⟨(0x0A, 0xBF), []⟩], d) ∧ d.frameErrorCount = 0 := by
  have hfirst : (Frame.mk (0x0A, 0xBF) [0x7E]).encode =
      .ok [0x7E, 0x05, 0x0A, 0xBF, 0x7E, 0x16, 0x7E] := by decide +kernel
  have hsecond : (Frame.mk (0x0A, 0xBF) []).encode =
      .ok [0x7E, 0x04, 0x0A, 0xBF, 0xC9, 0x7E] := by decide +kernel
  -- The whole is a stream of the two frames.
  have hstream := Stream.cons [0x11] (by decide) hfirst
    (Stream.cons [0x00] (by decide) hsecond (Stream.nil [0x22] (by decide)))
  exact (decode_stream_iff hstream rfl).2 (by decide)

/-- A frame with a payload of 122 bytes is encoded, and not decoded. -/
theorem not_decode_marker_length :
    ∃ bytes, (Frame.mk (0x0A, 0xBF) (List.replicate 122 0)).encode = .ok bytes ∧
      ∀ d, new.feedSlices [bytes] ≠ some ([⟨(0x0A, 0xBF), List.replicate 122 0⟩], d) := by
  refine ⟨_, Frame.encode_eq_ok.2 ⟨by decide, rfl⟩, fun d hd => ?_⟩
  have hshape : Shape 512 new := .idle 0
  rw [feedSlices_eq hshape (fits_of_idle rfl), Option.some.injEq] at hd
  have hne := length_ne_of_run hshape
  specialize hne _ ⟨(0x0A, 0xBF), List.replicate 122 0⟩
    (by rw [hd]; exact List.mem_singleton_self _)
  exact hne List.length_replicate

end FrameDecoder

end Launa.Protocol
