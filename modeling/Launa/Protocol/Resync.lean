import Launa.Protocol.DecoderPaths
import Launa.Protocol.Framing

/-!
# The decoder finds the frames again

A decoder that took some byte for the start of a frame stays with this frame up to the end that its
length byte gives, and takes the markers on the way for data. How many bytes this still lasts is
`behind`, at most 255 of them. In a stream of frames that have no marker between their own two, a
frame that goes by makes the decoder less behind by its length, wherever in it the wrong frame ends
(`Steps.behind_run_frame`). So it has caught up at the end of some frame, and decodes all frames
from there on (`Steps.run_encodeAll`), with either interface (`resync`).
-/

namespace Launa.Protocol

open Run

namespace Frame

/-- No byte between the markers of the frame is a marker. -/
def Clear (f : Frame) : Prop := frameMarker ∉ f.body ++ [crc8 f.body]

instance (f : Frame) : Decidable f.Clear := inferInstanceAs (Decidable (¬ _))

/-- The bytes of frames that follow one another without a gap. -/
def encodeAll : List Frame → Except FrameError (List UInt8)
  | [] => .ok []
  | f :: frames => do
    let bytes ← f.encode
    let rest ← encodeAll frames
    return bytes ++ rest

variable {f : Frame} {frames : List Frame} {bytes : List UInt8}

/-- The bytes of several frames begin with those of the first, which fits. -/
theorem encodeAll_cons (h : encodeAll (f :: frames) = .ok bytes) :
    f.payload.length ≤ 251 ∧ ∃ rest, encodeAll frames = .ok rest ∧
      bytes = (frameMarker :: (f.body ++ [crc8 f.body]) ++ [frameMarker]) ++ rest := by
  rw [encodeAll] at h
  cases hf : f.encode with
  | error e =>
    rw [hf] at h
    cases h
  | ok own =>
    rw [hf] at h
    cases hr : encodeAll frames with
    | error e =>
      rw [hr] at h
      cases h
    | ok rest =>
      rw [hr] at h
      cases h
      obtain ⟨hlen, rfl⟩ := encode_eq_ok.1 hf
      exact ⟨hlen, rest, rfl, rfl⟩

/-- The length byte of a frame without markers is none. -/
theorem Clear.length_ne (h : f.Clear) : f.payload.length ≠ 122 := by
  intro h122
  refine h (List.mem_append_left _ ?_)
  rw [body, h122]
  exact List.mem_cons_self

end Frame

namespace FrameDecoder

variable {d : FrameDecoder} {size : ℕ}

/-- How many bytes the frame that the decoder is in still takes, with its end marker. -/
def behind (d : FrameDecoder) : ℕ :=
  if d.inFrame = true ∧ 0 < d.expectedLength then d.expectedLength - d.buffer.length + 1 else 0

/-- Outside a frame the decoder is not behind. -/
theorem behind_of_idle (h : d.inFrame = false) : d.behind = 0 :=
  if_neg fun hin => absurd (h.symm.trans hin.1) Bool.false_ne_true

/-- In a frame the decoder is behind by what is missing of it, and the marker. -/
theorem behind_body {len : UInt8} {data : List UInt8} {errors : UInt32} (hpos : 0 < len.toNat) :
    behind ⟨len :: data, true, len.toNat, errors, size⟩ =
      len.toNat - (len :: data).length + 1 :=
  if_pos ⟨rfl, hpos⟩

/-- The length byte bounds how far the decoder is behind. -/
theorem Shape.behind_le (h : Shape size d) : d.behind ≤ 255 := by
  cases h with
  | idle errors => exact Nat.zero_le _
  | started errors => exact Nat.zero_le _
  | body len data errors hne hmin hmax =>
    have := len.toNat_lt
    rw [behind_body (by omega), List.length_cons]
    omega

/-- A decoder that is not behind waits for a frame. -/
theorem Shape.eq_of_behind (h : Shape size d) (hd : d.behind = 0) :
    ∃ inFrame errors, d = ⟨[], inFrame, 0, errors, size⟩ := by
  cases h with
  | idle errors => exact ⟨false, errors, rfl⟩
  | started errors => exact ⟨true, errors, rfl⟩
  | body len data errors hne hmin hmax =>
    rw [behind_body (by omega)] at hd
    exact absurd hd (Nat.succ_ne_zero _)

/-- Only a marker gets the decoder on: it is idle, or the body of its frame is complete. -/
def AwaitsMarker (d : FrameDecoder) : Prop :=
  d.inFrame = true → 0 < d.expectedLength ∧ d.expectedLength ≤ d.buffer.length

/-- Outside a frame the decoder awaits a marker. -/
theorem awaitsMarker_of_idle (h : d.inFrame = false) : d.AwaitsMarker :=
  fun hin => absurd (h.symm.trans hin) Bool.false_ne_true

/-- Single bytes are decoded as the format of frames asks. -/
theorem steps_feedByte : Steps feedByte size where
  noise errors byte hbyte := by
    have hstep : InStep ⟨[], false, 0, errors, size⟩ byte :=
      fun hin => absurd hin Bool.false_ne_true
    rw [(Shape.idle errors).feedByte_eq hstep, steps_sliceByte.noise errors byte hbyte]
  start inFrame errors := by cases inFrame <;> rfl
  length errors byte hbyte hmin hmax := by
    have hstep : InStep ⟨[], true, 0, errors, size⟩ byte :=
      fun _ hpos => absurd hpos (Nat.lt_irrefl 0)
    rw [(Shape.started errors).feedByte_eq hstep,
      steps_sliceByte.length errors byte hbyte hmin hmax]
  data len data errors byte hshort := by
    by_cases hbyte : byte = frameMarker
    · rw [feedByte, feed, if_pos hbyte, if_pos rfl,
        if_neg fun h => absurd h.2 (Nat.not_le.2 hshort), if_pos ⟨Nat.zero_lt_of_lt hshort, hshort⟩]
      rfl
    · rw [feedByte, feed_body hbyte]
      rfl
  finish len data errors hpos hfull := by
    rw [feedByte, feed, if_pos rfl, if_pos rfl, if_pos ⟨hpos, hfull⟩]
  overrun len data errors byte hpos hfull hbyte := by
    right
    rw [feedByte, feed_body hbyte]
    rfl

namespace Steps

variable {step : FrameDecoder → UInt8 → List Frame × FrameDecoder}

/-- A decoder that waits for a marker still does after other bytes. -/
theorem awaitsMarker_run (h : Steps step size) (hd : Shape size d) (hwait : d.AwaitsMarker)
    {noise : List UInt8} (hnoise : frameMarker ∉ noise) :
    Shape size (Mealy.run step d noise).2 ∧ (Mealy.run step d noise).2.AwaitsMarker := by
  induction noise generalizing d with
  | nil => exact ⟨hd, hwait⟩
  | cons b noise ih =>
    rw [List.mem_cons, not_or] at hnoise
    rw [Mealy.run_cons]
    cases hd with
    | idle errors =>
      rw [h.noise errors b (Ne.symm hnoise.1)]
      exact ih (.idle errors) hwait hnoise.2
    | started errors => exact absurd (hwait rfl).1 (Nat.lt_irrefl 0)
    | body len data errors hne hmin hmax =>
      obtain ⟨hpos, hfull⟩ := hwait rfl
      rcases h.overrun len data errors b hpos hfull (Ne.symm hnoise.1) with hreset | hpush
      · rw [hreset]
        exact ih (shape_resetOnError rfl) (awaitsMarker_of_idle rfl) hnoise.2
      · rw [hpush]
        have hfull' : len.toNat ≤ (len :: (data ++ [b])).length := by
          rw [← List.cons_append, List.length_append]
          exact Nat.le_add_right_of_le hfull
        exact ih (.body len _ errors hne hmin hmax) (fun _ => ⟨hpos, hfull'⟩) hnoise.2

/-- The marker starts a frame, or ends the one that it is in. -/
theorem behind_marker (h : Steps step size) (hd : Shape size d) (hwait : d.AwaitsMarker) :
    Shape size (step d frameMarker).2 ∧ (step d frameMarker).2.behind = 0 := by
  cases hd with
  | idle errors =>
    rw [h.start]
    exact ⟨.started errors, rfl⟩
  | started errors => exact absurd (hwait rfl).1 (Nat.lt_irrefl 0)
  | body len data errors hne hmin hmax =>
    obtain ⟨hpos, hfull⟩ := hwait rfl
    rw [h.finish len data errors hpos hfull]
    exact ⟨shape_finish rfl, behind_of_idle (finish_inFrame _)⟩

/-- The rest of a frame after the end of a wrong one. -/
theorem behind_run_rest (h : Steps step size) (hd : Shape size d) (hwait : d.AwaitsMarker)
    {noise : List UInt8} (hnoise : frameMarker ∉ noise) :
    Shape size (Mealy.run step d (noise ++ [frameMarker])).2 ∧
      (Mealy.run step d (noise ++ [frameMarker])).2.behind = 0 := by
  obtain ⟨hd', hwait'⟩ := h.awaitsMarker_run hd hwait hnoise
  rw [Mealy.run_append, Mealy.run_cons, Mealy.run_nil]
  exact h.behind_marker hd' hwait'

/-- Within the body of a wrong frame, a frame that goes by makes the decoder less behind by its
length. -/
theorem behind_run_body (h : Steps step size) {len : UInt8} {data : List UInt8} {errors : UInt32}
    (hne : len ≠ frameMarker) (hmin : 4 ≤ len.toNat) (hmax : len.toNat ≤ size)
    {inner : List UInt8} (hinner : frameMarker ∉ inner) :
    let d := ⟨len :: data, true, len.toNat, errors, size⟩
    let r := Mealy.run step d (frameMarker :: inner ++ [frameMarker])
    Shape size r.2 ∧ r.2.behind = behind d - (inner.length + 2) := by
  intro d r
  have hd : Shape size d := .body len data errors hne hmin hmax
  have hpos : 0 < len.toNat := by omega
  have hbehind : behind d = len.toNat - (len :: data).length + 1 := behind_body hpos
  by_cases hlong : (len :: data).length + (inner.length + 2) ≤ len.toNat
  · -- All of the frame is data of the wrong one.
    have hr : r = ([], ⟨len :: (data ++ (frameMarker :: inner ++ [frameMarker])), true,
        len.toNat, errors, size⟩) := by
      refine h.run_data ?_
      rwa [List.length_append, List.length_cons (a := frameMarker), List.length_singleton]
    rw [hr, hbehind, behind_body hpos]
    refine ⟨.body len _ errors hne hmin hmax, ?_⟩
    simp only [List.length_cons, List.length_append, List.length_nil] at hlong ⊢
    omega
  -- The wrong frame ends in this one, at the latest with its end marker.
  suffices Shape size r.2 ∧ r.2.behind = 0 from ⟨this.1, by omega⟩
  by_cases hfull : len.toNat ≤ (len :: data).length
  · -- The start marker ends it.
    have hidle : (step d frameMarker).2.inFrame = false := by
      rw [h.finish len data errors hpos hfull]
      exact finish_inFrame _
    obtain ⟨hd', -⟩ := h.behind_marker hd fun _ => ⟨hpos, hfull⟩
    exact h.behind_run_rest hd' (awaitsMarker_of_idle hidle) hinner
  · -- The marker and `k` bytes complete it, and the next byte is not its end marker, or the last.
    obtain ⟨k, hk⟩ : ∃ k, len.toNat = (len :: data).length + 1 + k :=
      ⟨len.toNat - ((len :: data).length + 1), by omega⟩
    have hle : k ≤ inner.length := by omega
    have htaken : (frameMarker :: inner.take k).length = 1 + k := by
      rw [List.length_cons, List.length_take_of_le hle, Nat.add_comm]
    have hsplit : frameMarker :: inner ++ [frameMarker] =
        (frameMarker :: inner.take k) ++ (inner.drop k ++ [frameMarker]) := by
      rw [List.cons_append, List.cons_append, ← List.append_assoc, List.take_append_drop]
    have hr : r.2 = (Mealy.run step ⟨len :: (data ++ frameMarker :: inner.take k), true,
        len.toNat, errors, size⟩ (inner.drop k ++ [frameMarker])).2 := by
      show (Mealy.run step d _).2 = _
      rw [hsplit, Mealy.run_append, h.run_data (by rw [htaken]; omega)]
    rw [hr]
    refine h.behind_run_rest (.body len _ errors hne hmin hmax) (fun _ => ⟨hpos, ?_⟩)
      fun hmem => hinner (List.mem_of_mem_drop hmem)
    show len.toNat ≤ (len :: (data ++ frameMarker :: inner.take k)).length
    rw [← List.cons_append, List.length_append, htaken]
    omega

/-- A frame that goes by makes the decoder less behind by its length. -/
theorem behind_run_frame (h : Steps step size) (hsize : 255 ≤ size) (hd : Shape size d)
    {f : Frame} (hlen : f.payload.length ≤ 251) (hclear : f.Clear) :
    let r := Mealy.run step d (frameMarker :: (f.body ++ [crc8 f.body]) ++ [frameMarker])
    Shape size r.2 ∧ r.2.behind = d.behind - (f.body ++ [crc8 f.body]).length - 2 := by
  intro r
  rw [Nat.sub_sub]
  cases hd with
  | idle errors =>
    have hr : r = ([f], ⟨[], false, 0, errors, size⟩) := h.run_frame hlen hsize hclear.length_ne
    rw [hr]
    exact ⟨.idle errors, (Nat.zero_sub _).symm⟩
  | started errors =>
    have hr : r = ([f], ⟨[], false, 0, errors, size⟩) := h.run_frame hlen hsize hclear.length_ne
    rw [hr]
    exact ⟨.idle errors, (Nat.zero_sub _).symm⟩
  | body len data errors hne hmin hmax => exact h.behind_run_body hne hmin hmax hclear

/-- Frames that go by make the decoder less behind by their length. -/
theorem behind_run_encodeAll (h : Steps step size) (hsize : 255 ≤ size) (hd : Shape size d)
    {frames : List Frame} {bytes : List UInt8} (hbytes : Frame.encodeAll frames = .ok bytes)
    (hclear : ∀ f ∈ frames, f.Clear) :
    Shape size (Mealy.run step d bytes).2 ∧
      (Mealy.run step d bytes).2.behind = d.behind - bytes.length := by
  induction frames generalizing d bytes with
  | nil =>
    cases hbytes
    exact ⟨hd, rfl⟩
  | cons f frames ih =>
    obtain ⟨hlen, rest, hrest, rfl⟩ := Frame.encodeAll_cons hbytes
    rw [List.forall_mem_cons] at hclear
    obtain ⟨hd', hbehind⟩ := h.behind_run_frame hsize hd hlen hclear.1
    obtain ⟨hd'', hbehind'⟩ := ih hd' hrest hclear.2
    rw [Mealy.run_append]
    refine ⟨hd'', hbehind'.trans ?_⟩
    rw [hbehind]
    simp only [List.length_append, List.length_cons, List.length_nil]
    omega

/-- A decoder that waits for a frame decodes frames without markers. -/
theorem run_encodeAll (h : Steps step size) (hsize : 255 ≤ size) {inFrame : Bool}
    {errors : UInt32} {frames : List Frame} {bytes : List UInt8}
    (hbytes : Frame.encodeAll frames = .ok bytes) (hclear : ∀ f ∈ frames, f.Clear) :
    (Mealy.run step ⟨[], inFrame, 0, errors, size⟩ bytes).1 = frames := by
  induction frames generalizing inFrame bytes with
  | nil =>
    cases hbytes
    rfl
  | cons f frames ih =>
    obtain ⟨hlen, rest, hrest, rfl⟩ := Frame.encodeAll_cons hbytes
    rw [List.forall_mem_cons] at hclear
    rw [Mealy.run_append, h.run_frame hlen hsize hclear.1.length_ne]
    exact congrArg (f :: ·) (ih hrest hclear.2)

/-- After 255 bytes of frames without markers the decoder has caught up, whatever its state was. -/
theorem run_catchUp (h : Steps step size) (hsize : 255 ≤ size) (hd : Shape size d)
    {lost kept : List Frame} {lostBytes keptBytes : List UInt8}
    (hlost : Frame.encodeAll lost = .ok lostBytes) (hkept : Frame.encodeAll kept = .ok keptBytes)
    (hclear : ∀ f ∈ lost ++ kept, f.Clear) (hlen : 255 ≤ lostBytes.length) :
    (Mealy.run step d (lostBytes ++ keptBytes)).1 = (Mealy.run step d lostBytes).1 ++ kept := by
  rw [List.forall_mem_append] at hclear
  obtain ⟨hd', hbehind⟩ := h.behind_run_encodeAll hsize hd hlost hclear.1
  have hle := hd.behind_le
  obtain ⟨inFrame, errors, hready⟩ := hd'.eq_of_behind (by omega)
  rw [Mealy.run_append, hready, h.run_encodeAll hsize hkept hclear.2]

end Steps

/-- The decoder has its shape after any bytes. -/
theorem shape_run_feedByte (fed : List UInt8) : Shape 512 (Mealy.run feedByte new fed).2 := by
  rw [Mealy.run_snd]
  exact invariant (I := Shape 512) (fun _ b hd => hd.feedByte b) (.idle 0) fed

/-- Whatever bytes a decoder with the default buffer was fed, by one interface, it decodes from a
stream of frames without markers the frames that start after 512 bytes, after those that it had from
these bytes, in whatever slices they come. -/
theorem resync {lost kept : List Frame} {lostBytes keptBytes : List UInt8}
    (hlost : Frame.encodeAll lost = .ok lostBytes) (hkept : Frame.encodeAll kept = .ok keptBytes)
    (hclear : ∀ f ∈ lost ++ kept, f.Clear) (hlen : 512 ≤ lostBytes.length) :
    (∀ fed d, (Mealy.run feedByte new fed).2 = d →
      (Mealy.run feedByte d (lostBytes ++ keptBytes)).1 =
        (Mealy.run feedByte d lostBytes).1 ++ kept) ∧
    ∀ fed, ∃ before d, new.feedSlices fed = some (before, d) ∧
      ∃ early, (∃ d', d.feedSlice lostBytes = some (early, d')) ∧
        ∀ chunks, chunks.flatten = lostBytes ++ keptBytes →
          ∃ d', d.feedSlices chunks = some (early ++ kept, d') := by
  constructor
  · rintro fed _ rfl
    exact steps_feedByte.run_catchUp (by decide) (shape_run_feedByte fed) hlost hkept hclear
      (by omega)
  · intro fed
    have hfit : new.Fits := fits_of_idle rfl
    obtain ⟨hd, hfit'⟩ := Shape.run_sliceByte (.idle 0) hfit fed.flatten
    refine ⟨_, _, feedSlices_eq (.idle 0) hfit fed, _, ⟨_, feedSlice_eq hfit' lostBytes⟩, ?_⟩
    intro chunks hchunks
    rw [feedSlices_eq hd hfit', hchunks]
    have hcatch := steps_sliceByte.run_catchUp (by decide) hd hlost hkept hclear (by omega)
    exact ⟨_, congrArg some (Prod.ext hcatch rfl)⟩

/-- A decoder in the body of a frame of 255 bytes is fed 86 short frames, and has the next one. -/
theorem resync_shortFrames :
    let d := (Mealy.run feedByte new [0x7E, 0xFF]).2
    let lostBytes := (List.replicate 86 shortFrame).flatten
    (Mealy.run feedByte d (lostBytes ++ shortFrame)).1 =
      (Mealy.run feedByte d lostBytes).1 ++ [⟨(0x0A, 0xBF), []⟩] := by
  have hlost : Frame.encodeAll (List.replicate 86 ⟨(0x0A, 0xBF), []⟩) =
      .ok (List.replicate 86 shortFrame).flatten := by decide +kernel
  have hkept : Frame.encodeAll [⟨(0x0A, 0xBF), []⟩] = .ok shortFrame := by decide +kernel
  exact (resync hlost hkept (by decide +kernel) (by decide +kernel)).1 _ _ rfl

end FrameDecoder

end Launa.Protocol
