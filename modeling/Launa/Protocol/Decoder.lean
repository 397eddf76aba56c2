import Launa.Lib.Mealy
import Launa.Protocol.Frame

/-!
# The streaming decoder of `frame.rs`

The decoder finds the frames in a stream of bytes by their length bytes. It has two interfaces:
`feed` takes one byte, `feed_slice` takes many. Between two calls it is idle, after a start marker,
or in the body of a frame whose length byte it has (`Shape`).
-/

namespace Launa.Protocol

open Run

/-- The streaming frame decoder. -/
structure FrameDecoder where
  buffer : List UInt8
  inFrame : Bool
  expectedLength : ℕ
  frameErrorCount : UInt32
  maxBufferSize : ℕ
  deriving DecidableEq, Repr

namespace FrameDecoder

/-- `FrameDecoder::new`. -/
def new : FrameDecoder := ⟨[], false, 0, 0, 512⟩

/-- `FrameDecoder::with_max_buffer`. -/
def withMaxBuffer (d : FrameDecoder) (size : ℕ) : FrameDecoder := { d with maxBufferSize := size }

/-- Count an error; the count saturates. -/
def countError (d : FrameDecoder) : FrameDecoder :=
  { d with frameErrorCount :=
      if d.frameErrorCount = 0xFFFFFFFF then d.frameErrorCount else d.frameErrorCount + 1 }

/-- `FrameDecoder::reset`. -/
def reset (d : FrameDecoder) : FrameDecoder :=
  { d with buffer := [], inFrame := false, expectedLength := 0 }

/-- `FrameDecoder::reset_on_error`. -/
def resetOnError (d : FrameDecoder) : FrameDecoder := d.reset.countError

/-- The end of a frame: its body is parsed, and the decoder is idle again. -/
def finish (d : FrameDecoder) : Option Frame × FrameDecoder :=
  match Frame.parse (d.buffer.take d.expectedLength) with
  | .ok frame => (some frame, d.reset)
  | .error _ => (none, d.reset.countError)

/-- `FrameDecoder::feed`. -/
def feed (d : FrameDecoder) (byte : UInt8) : Option Frame × FrameDecoder :=
  if byte = frameMarker then
    if d.inFrame then
      if 0 < d.expectedLength ∧ d.expectedLength ≤ d.buffer.length then d.finish
      else if 0 < d.expectedLength ∧ d.buffer.length < d.expectedLength then
        -- A marker in the body of a frame is data.
        (none, { d with buffer := d.buffer ++ [byte] })
      else if d.buffer ≠ [] then (none, { d.resetOnError with inFrame := true })
      else (none, { d with inFrame := true })
    else (none, { d with buffer := [], expectedLength := 0, inFrame := true })
  else if d.inFrame then
    -- Nothing here looks at the expected length: bytes after a full body are buffered, too.
    let pushed := { d with buffer := d.buffer ++ [byte] }
    if pushed.buffer.length = 1 then
      let sized := { pushed with expectedLength := byte.toNat }
      if sized.expectedLength < 4 then (none, sized.resetOnError)
      else if sized.expectedLength > sized.maxBufferSize then (none, sized.resetOnError)
      else (none, sized)
    else (none, pushed)
  else (none, d)

/-- `FrameDecoder::feed_slice`: the frames, or `none` when the bytes still needed underflow. -/
def feedSlice (d : FrameDecoder) : List UInt8 → Option (List Frame × FrameDecoder)
  | [] => some ([], d)
  | byte :: rest =>
    if d.inFrame = false then
      if byte = frameMarker then
        feedSlice { d with inFrame := true, buffer := [], expectedLength := 0 } rest
      else feedSlice d rest
    else if d.expectedLength = 0 then
      if byte = frameMarker then
        feedSlice { d with buffer := [], expectedLength := 0 } rest
      else
        let sized := { d with buffer := d.buffer ++ [byte], expectedLength := byte.toNat }
        if sized.expectedLength < 4 ∨ sized.expectedLength > sized.maxBufferSize then
          feedSlice sized.resetOnError rest
        else feedSlice sized rest
    else if d.expectedLength < d.buffer.length then none
    else
      let needed := d.expectedLength - d.buffer.length
      let toCopy := min needed (byte :: rest).length
      let copied := { d with buffer := d.buffer ++ (byte :: rest).take toCopy }
      if _h : copied.buffer.length < d.expectedLength then
        feedSlice copied ((byte :: rest).drop toCopy)
      else
        -- The body is full, and the next byte has to be the end marker.
        match _hrest : (byte :: rest).drop toCopy with
        | [] => some ([], copied)
        | next :: rest' =>
          if next = frameMarker then
            let (frame, d') := copied.finish
            (feedSlice d' rest').map fun (frames, d'') => (frame.toList ++ frames, d'')
          else feedSlice copied.resetOnError rest'
termination_by data => data.length
decreasing_by
  any_goals exact Nat.lt_succ_self _
  · -- Bytes are missing, so at least one was copied.
    simp only [copied, toCopy, needed, List.length_append, List.length_take] at _h
    simp only [List.length_drop, List.length_cons] at _h ⊢
    omega
  all_goals
    have hlen := congrArg List.length _hrest
    simp only [List.length_drop, List.length_cons] at hlen ⊢
    omega

/-! ## One byte at a time -/

/-- `feed`, with the frame as a list. -/
def feedByte (d : FrameDecoder) (byte : UInt8) : List Frame × FrameDecoder :=
  ((d.feed byte).1.toList, (d.feed byte).2)

/-- The decoder after a length byte, which starts a body unless no frame is of that length or the
buffer cannot hold it. -/
def sized (d : FrameDecoder) (byte : UInt8) : FrameDecoder :=
  let pushed := { d with buffer := d.buffer ++ [byte], expectedLength := byte.toNat }
  if pushed.expectedLength < 4 ∨ pushed.expectedLength > pushed.maxBufferSize then
    pushed.resetOnError
  else pushed

/-- What `feed_slice` does with one byte. -/
def sliceByte (d : FrameDecoder) (byte : UInt8) : List Frame × FrameDecoder :=
  if d.inFrame = false then
    if byte = frameMarker then
      ([], { d with inFrame := true, buffer := [], expectedLength := 0 })
    else ([], d)
  else if d.expectedLength = 0 then
    if byte = frameMarker then ([], { d with buffer := [], expectedLength := 0 })
    else ([], d.sized byte)
  else if d.buffer.length < d.expectedLength then
    ([], { d with buffer := d.buffer ++ [byte] })
  else if byte = frameMarker then (d.finish.1.toList, d.finish.2)
  else ([], d.resetOnError)

/-- The buffer holds no more than the frame that is expected. -/
def Fits (d : FrameDecoder) : Prop := d.inFrame = true → d.buffer.length ≤ d.expectedLength

variable {d : FrameDecoder}

/-- Outside a frame there is nothing that has to fit. -/
theorem fits_of_idle (h : d.inFrame = false) :
    d.Fits := fun h' => absurd (h.symm.trans h') Bool.false_ne_true

/-- A reset leaves the frame. -/
@[simp] theorem reset_inFrame : d.reset.inFrame = false := rfl

/-- A reset on an error leaves the frame. -/
@[simp] theorem resetOnError_inFrame : d.resetOnError.inFrame = false := rfl

/-- A finished frame is left. -/
theorem finish_inFrame (d : FrameDecoder) : d.finish.2.inFrame = false := by
  unfold finish
  split <;> rfl

/-- A finished frame leaves nothing in the buffer. -/
theorem finish_buffer (d : FrameDecoder) : d.finish.2.buffer = [] := by
  unfold finish
  split <;> rfl

/-- `feed_slice` copies the bytes of a body one after the other. -/
theorem run_sliceByte_body (hin : d.inFrame = true) (hpos : d.expectedLength ≠ 0) {xs : List UInt8}
    (hlen : d.buffer.length + xs.length ≤ d.expectedLength) :
    Mealy.run sliceByte d xs = ([], { d with buffer := d.buffer ++ xs }) := by
  induction xs generalizing d with
  | nil => simp
  | cons x xs ih =>
    rw [List.length_cons] at hlen
    have hstep : d.sliceByte x = ([], { d with buffer := d.buffer ++ [x] }) := by
      rw [sliceByte, if_neg (by simp [hin]), if_neg hpos, if_pos (by omega)]
    have hrest : (d.buffer ++ [x]).length + xs.length ≤ d.expectedLength := by
      rw [List.length_append, List.length_singleton]
      omega
    rw [Mealy.run_cons, hstep, ih (d := { d with buffer := d.buffer ++ [x] }) hin hpos hrest,
      List.append_assoc]
    rfl

/-- A step without a frame. -/
theorem run_sliceByte_cons {byte : UInt8} {d' : FrameDecoder} (h : d.sliceByte byte = ([], d'))
    (rest : List UInt8) : Mealy.run sliceByte d (byte :: rest) = Mealy.run sliceByte d' rest := by
  rw [Mealy.run_cons, h]
  rfl

/-- `feed_slice` copies the bytes that the body needs, as far as there are any. -/
theorem run_sliceByte_copy (hin : d.inFrame = true) (hpos : d.expectedLength ≠ 0)
    (hfit : ¬ d.expectedLength < d.buffer.length) (data : List UInt8) :
    let toCopy := min (d.expectedLength - d.buffer.length) data.length
    Mealy.run sliceByte d data =
      Mealy.run sliceByte { d with buffer := d.buffer ++ data.take toCopy } (data.drop toCopy) := by
  intro toCopy
  have hlen : d.buffer.length + (data.take toCopy).length ≤ d.expectedLength := by
    rw [List.length_take]
    omega
  conv_lhs => rw [← List.take_append_drop toCopy data]
  rw [Mealy.run_append, run_sliceByte_body hin hpos hlen]
  rfl

/-- `feed_slice` of a buffer that fits takes its bytes one after the other. -/
theorem feedSlice_eq (h : d.Fits) (data : List UInt8) :
    d.feedSlice data = some (Mealy.run sliceByte d data) := by
  fun_induction feedSlice d data with
  | case1 d => rfl
  -- No frame has started: a marker starts one, and other bytes are noise.
  | case2 d rest hidle ih =>
    rw [ih fun _ => Nat.le_refl _, run_sliceByte_cons]
    rw [sliceByte, if_pos hidle, if_pos rfl]
  | case3 d byte rest hidle hbyte ih =>
    rw [ih h, run_sliceByte_cons]
    rw [sliceByte, if_pos hidle, if_neg hbyte]
  -- The length byte: another marker, a length that is out of bounds, or the length.
  | case4 d rest hin hlen ih =>
    rw [ih fun _ => Nat.le_refl _, run_sliceByte_cons]
    rw [sliceByte, if_neg hin, if_pos hlen, if_pos rfl]
  | case5 d byte rest hin hlen hbyte sized hbad ih =>
    rw [ih (fits_of_idle rfl), run_sliceByte_cons]
    rw [sliceByte, if_neg hin, if_pos hlen, if_neg hbyte]
    exact congrArg _ (if_pos hbad)
  | case6 d byte rest hin hlen hbyte sized hok ih =>
    have hempty : d.buffer.length = 0 := by
      have := h (eq_true_of_ne_false hin)
      omega
    have hfits : sized.Fits := fun _ => by
      show (d.buffer ++ [byte]).length ≤ byte.toNat
      have : 4 ≤ byte.toNat := Nat.not_lt.1 fun hlt => hok (.inl hlt)
      rw [List.length_append, List.length_singleton]
      omega
    rw [ih hfits, run_sliceByte_cons]
    rw [sliceByte, if_neg hin, if_pos hlen, if_neg hbyte]
    exact congrArg _ (if_neg hok)
  -- The body: the bytes that it needs are copied at once.
  | case7 d byte rest hin hlen hover =>
    exact absurd (h (eq_true_of_ne_false hin)) (Nat.not_le.2 hover)
  | case8 d byte rest hin hlen hfit needed toCopy copied hshort ih =>
    rw [ih fun _ => Nat.le_of_lt hshort,
      run_sliceByte_copy (eq_true_of_ne_false hin) hlen hfit (byte :: rest)]
  | case9 d byte rest hin hlen hfit needed toCopy copied hfull hrest =>
    have hcopy := run_sliceByte_copy (eq_true_of_ne_false hin) hlen hfit (byte :: rest)
    dsimp only at hcopy
    have hmin : min (d.expectedLength - d.buffer.length) (byte :: rest).length = toCopy := rfl
    rw [hcopy, hmin, hrest, Mealy.run_nil]
  -- The body is complete: the next byte ends the frame, or is an error.
  | case10 d byte rest hin hlen hfit needed toCopy copied hfull rest' frame d' hfinish hrest ih =>
    have hcopy := run_sliceByte_copy (eq_true_of_ne_false hin) hlen hfit (byte :: rest)
    have hbyte : copied.sliceByte frameMarker = (frame.toList, d') := by
      rw [sliceByte, if_neg hin, if_neg hlen, if_neg hfull, if_pos rfl, hfinish]
    have hidle : d'.inFrame = false := by
      have := copied.finish_inFrame
      rwa [hfinish] at this
    rw [ih (fits_of_idle hidle), hcopy]
    show _ = some (Mealy.run sliceByte copied ((byte :: rest).drop toCopy))
    rw [hrest, Mealy.run_cons, hbyte]
    rfl
  | case11 d byte rest hin hlen hfit needed toCopy copied hfull next rest' hrest hnext ih =>
    have hcopy := run_sliceByte_copy (eq_true_of_ne_false hin) hlen hfit (byte :: rest)
    have hbyte : copied.sliceByte next = ([], copied.resetOnError) := by
      rw [sliceByte, if_neg hin, if_neg hlen, if_neg hfull, if_neg hnext]
    rw [ih (fits_of_idle rfl), hcopy]
    show _ = some (Mealy.run sliceByte copied ((byte :: rest).drop toCopy))
    rw [hrest, run_sliceByte_cons hbyte]

/-! ## What the fields can be -/

/-- What a decoder with a buffer of `size` bytes is between two bytes. -/
inductive Shape (size : ℕ) : FrameDecoder → Prop
  /-- It waits for a start marker. -/
  | idle (errors : UInt32) : Shape size ⟨[], false, 0, errors, size⟩
  /-- It waits for a length byte. -/
  | started (errors : UInt32) : Shape size ⟨[], true, 0, errors, size⟩
  /-- It has the length byte of a frame, and some more bytes. -/
  | body (len : UInt8) (data : List UInt8) (errors : UInt32) (not_marker : len ≠ frameMarker)
      (min : 4 ≤ len.toNat) (max : len.toNat ≤ size) :
      Shape size ⟨len :: data, true, len.toNat, errors, size⟩

variable {size : ℕ}

/-- A new decoder waits outside a frame. -/
theorem shape_withMaxBuffer (size : ℕ) : Shape size (new.withMaxBuffer size) := .idle 0

/-- After an error the decoder waits outside a frame. -/
theorem shape_resetOnError (h : d.maxBufferSize = size) : Shape size d.resetOnError := by
  subst h
  exact .idle _

/-- After a frame the decoder waits outside the next. -/
theorem shape_finish (h : d.maxBufferSize = size) : Shape size d.finish.2 := by
  subst h
  unfold finish
  split <;> exact .idle _

/-- The length byte is kept as the first of the frame, or the frame is given up. -/
theorem shape_sized {byte : UInt8} (hbyte : byte ≠ frameMarker) (errors : UInt32) :
    Shape size (sized ⟨[], true, 0, errors, size⟩ byte) := by
  unfold sized
  dsimp only [List.nil_append]
  split
  · exact shape_resetOnError rfl
  · exact .body byte [] errors hbyte (by omega) (by omega)

/-- A byte of a slice keeps the shape of the decoder. -/
theorem Shape.sliceByte (h : Shape size d) (byte : UInt8) : Shape size (d.sliceByte byte).2 := by
  cases h with
  | idle errors =>
    by_cases hbyte : byte = frameMarker
    · rw [FrameDecoder.sliceByte, if_pos rfl, if_pos hbyte]
      exact .started _
    · rw [FrameDecoder.sliceByte, if_pos rfl, if_neg hbyte]
      exact .idle _
  | started errors =>
    by_cases hbyte : byte = frameMarker
    · rw [FrameDecoder.sliceByte, if_neg Bool.false_ne_true.symm, if_pos rfl, if_pos hbyte]
      exact .started _
    · rw [FrameDecoder.sliceByte, if_neg Bool.false_ne_true.symm, if_pos rfl, if_neg hbyte]
      exact shape_sized hbyte errors
  | body len data errors hne hmin hmax =>
    rw [FrameDecoder.sliceByte, if_neg Bool.false_ne_true.symm, if_neg (by dsimp only; omega)]
    split
    · exact .body len (data ++ [byte]) errors hne hmin hmax
    split
    · exact shape_finish rfl
    · exact shape_resetOnError rfl

/-- A buffer that fits still does after a byte of `feed_slice`. -/
theorem Shape.fits_sliceByte (h : Shape size d) (hfit : d.Fits) (byte : UInt8) :
    (d.sliceByte byte).2.Fits := by
  cases h with
  | idle errors =>
    rw [FrameDecoder.sliceByte, if_pos rfl]
    split
    · exact fun _ => Nat.le_refl _
    · exact fits_of_idle rfl
  | started errors =>
    rw [FrameDecoder.sliceByte, if_neg Bool.false_ne_true.symm, if_pos rfl]
    by_cases hbyte : byte = frameMarker
    · rw [if_pos hbyte]
      exact fun _ => Nat.le_refl _
    · rw [if_neg hbyte]
      unfold sized
      dsimp only [List.nil_append]
      split
      · exact fits_of_idle rfl
      · intro _
        simp only [List.length_singleton]
        omega
  | body len data errors hne hmin hmax =>
    rw [FrameDecoder.sliceByte, if_neg Bool.false_ne_true.symm, if_neg (by dsimp only; omega)]
    split
    · rename_i hshort
      intro _
      rw [List.length_append, List.length_singleton]
      exact hshort
    split
    · exact fits_of_idle (finish_inFrame _)
    · exact fits_of_idle rfl

/-- A run of `feed_slice` on a buffer that fits stays in shape and fits. -/
theorem Shape.run_sliceByte (h : Shape size d) (hfit : d.Fits) (data : List UInt8) :
    Shape size (Mealy.run FrameDecoder.sliceByte d data).2 ∧
      (Mealy.run FrameDecoder.sliceByte d data).2.Fits := by
  rw [Mealy.run_snd]
  exact invariant (I := fun d => Shape size d ∧ d.Fits)
    (fun s b hs => ⟨hs.1.sliceByte b, hs.1.fits_sliceByte hs.2 b⟩) ⟨h, hfit⟩ data

end FrameDecoder

end Launa.Protocol
