import Launa.Protocol.Resync
import Mathlib.Data.List.TakeWhile

/-!
# The segments of a stream

A stream of bytes, cut behind every frame that `feed` decodes from it. A segment ends with its
frame, but may have more than noise before it, a start marker that came to nothing, and more than
the frame between its markers, since `feed` buffers what follows a full body (`IsSegment`). No
segment has either exactly if the stream is one of encoded frames, up to bytes from which none is
decoded (`exact_iff`).
-/

namespace Launa.Protocol

/-- The bytes of a frame on the wire. -/
def Frame.wire (f : Frame) : List UInt8 :=
  frameMarker :: (f.body ++ [crc8 f.body]) ++ [frameMarker]

/-- A frame whose payload fits is encoded as its wire bytes. -/
theorem Frame.encode_eq_wire {f : Frame} {bytes : List UInt8} :
    f.encode = .ok bytes ↔ f.payload.length ≤ 251 ∧ bytes = f.wire := encode_eq_ok

/-- What is parsed without a rest is the body of the frame. -/
theorem Frame.eq_of_parse {f : Frame} {data : List UInt8} (h : parse data = .ok f)
    (hlen : data.length = (data.getD 0 0).toNat) : data = f.body ++ [crc8 f.body] := by
  have hlength := length_of_parse h
  unfold parse at h
  dsimp only at h
  split_ifs at h with h4 hmin hshort hcrc
  match data, h4 with
  | [], h4 => exact absurd (show 0 < 4 by decide) h4
  | [_], h4 => exact absurd (show 1 < 4 by decide) h4
  | [_, _], h4 => exact absurd (show 2 < 4 by decide) h4
  | len :: t0 :: t1 :: rest, _ =>
    rw [List.getD_cons_zero] at hlen hlength hcrc h
    obtain ⟨n, hn⟩ : ∃ n, len.toNat = n + 4 := ⟨len.toNat - 4, by omega⟩
    have hrest : rest.length = n + 1 := by
      simp only [List.length_cons] at hlen
      omega
    have hbody : f = ⟨(t0, t1), rest.take n⟩ := by
      rw [hn] at h
      exact (Except.ok.inj h).symm
    have hframe : f.body = len :: t0 :: t1 :: rest.take n := by
      have hlenByte : UInt8.ofNat (4 + (rest.take n).length) = len := by
        rw [List.length_take, hrest, Nat.min_eq_left (Nat.le_succ n), Nat.add_comm, ← hn,
          UInt8.ofNat_toNat]
      rw [hbody, body, hlenByte]
    have hlast : crc8 f.body = rest.getD n 0 := by
      rw [hn] at hcrc
      have := Decidable.not_not.1 hcrc
      rw [hframe]
      exact this
    have hsplit : rest = rest.take n ++ [rest.getD n 0] := by
      rw [List.getD_eq_getElem _ _ (by omega), List.take_append_getElem]
      exact (List.take_of_length_le (Nat.le_of_eq hrest)).symm
    rw [hlast, hframe, List.cons_append, List.cons_append, List.cons_append, ← hsplit]

namespace FrameDecoder

variable {d d' : FrameDecoder} {seen bytes : List UInt8} {byte : UInt8} {f : Frame}

/-- The bytes up to the end of each frame, with the frame, and those behind the last one. The bytes
that have been seen are those since the last frame. -/
def segments (d : FrameDecoder) (seen : List UInt8) :
    List UInt8 → List (List UInt8 × Frame) × List UInt8
  | [] => ([], seen)
  | byte :: rest =>
    match d.feed byte with
    | (some frame, d) =>
      let (segs, tail) := d.segments [] rest
      ((seen ++ [byte], frame) :: segs, tail)
    | (none, d) => d.segments (seen ++ [byte]) rest

/-- A byte that ends a frame ends the segment. -/
theorem segments_some (h : d.feed byte = (some f, d')) (rest : List UInt8) :
    d.segments seen (byte :: rest) =
      ((seen ++ [byte], f) :: (d'.segments [] rest).1, (d'.segments [] rest).2) := by
  rw [segments, h]

/-- Another byte is added to the segment. -/
theorem segments_none (h : d.feed byte = (none, d')) (rest : List UInt8) :
    d.segments seen (byte :: rest) = d'.segments (seen ++ [byte]) rest := by
  rw [segments, h]

/-- The segments and what is behind them are all of the bytes. -/
theorem segments_flatMap (d : FrameDecoder) (seen bytes : List UInt8) :
    (d.segments seen bytes).1.flatMap Prod.fst ++ (d.segments seen bytes).2 = seen ++ bytes := by
  induction bytes generalizing d seen with
  | nil => exact (List.append_nil _).symm
  | cons byte rest ih =>
    rcases hfeed : d.feed byte with ⟨_ | f, d'⟩
    · rw [segments_none hfeed, ih, List.append_assoc]
      rfl
    · rw [segments_some hfeed, List.flatMap_cons, List.append_assoc, ih, List.append_assoc]
      rfl

/-- The frames of the segments are those that are decoded. -/
theorem segments_frames (d : FrameDecoder) (seen bytes : List UInt8) :
    (d.segments seen bytes).1.map Prod.snd = (Mealy.run feedByte d bytes).1 := by
  induction bytes generalizing d seen with
  | nil => rfl
  | cons byte rest ih =>
    rw [Mealy.run_cons, feedByte]
    rcases hfeed : d.feed byte with ⟨_ | f, d'⟩
    · rw [segments_none hfeed, ih]
      rfl
    · rw [segments_some hfeed, List.map_cons, ih]
      rfl

/-- Bytes without a frame belong to the segment of the next one. -/
theorem segments_append {xs : List UInt8} (h : Mealy.run feedByte d xs = ([], d'))
    (seen ys : List UInt8) : d.segments seen (xs ++ ys) = d'.segments (seen ++ xs) ys := by
  induction xs generalizing d seen with
  | nil =>
    cases h
    rw [List.append_nil, List.nil_append]
  | cons byte xs ih =>
    rw [Mealy.run_cons, feedByte] at h
    rcases hfeed : d.feed byte with ⟨_ | f, d₁⟩
    · rw [hfeed] at h
      rw [List.cons_append, segments_none hfeed, ih h, List.append_assoc]
      rfl
    · rw [hfeed] at h
      cases (Prod.mk.inj h).1

/-! ## What a segment is made of -/

/-- In a frame, the buffer holds what follows the last start marker. -/
def Buffered (d : FrameDecoder) (seen : List UInt8) : Prop :=
  d.inFrame = true → ∃ pre, seen = pre ++ frameMarker :: d.buffer

/-- What ends with a frame: its bytes, behind others, and with others before the end marker. -/
def IsSegment (seg : List UInt8) (f : Frame) : Prop :=
  f.payload.length ≤ 251 ∧ f.payload.length ≠ 122 ∧ ∃ pre extra,
    seg = pre ++ frameMarker :: (f.body ++ [crc8 f.body] ++ extra) ++ [frameMarker]

/-- Outside a frame nothing is buffered. -/
theorem buffered_of_idle (h : d.inFrame = false) : d.Buffered seen :=
  fun hin => absurd (h.symm.trans hin) Bool.false_ne_true

/-- What a byte without a frame does to the buffer. -/
theorem Buffered.feed (h : d.Buffered seen) (hfeed : d.feed byte = (none, d')) :
    d'.Buffered (seen ++ [byte]) := by
  unfold FrameDecoder.feed at hfeed
  dsimp only at hfeed
  split_ifs at hfeed with hmarker hin hfull hshort hne hin' hone hmin hmax
  -- A full body that is no frame.
  · have hidle := d.finish_inFrame
    rw [hfeed] at hidle
    exact buffered_of_idle hidle
  · cases hfeed
    intro _
    obtain ⟨pre, rfl⟩ := h hin
    exact ⟨pre, List.append_assoc _ _ _⟩
  -- A marker that starts anew.
  · cases hfeed
    exact fun _ => ⟨seen, by rw [hmarker]; rfl⟩
  · cases hfeed
    intro _
    have hnil : d.buffer = [] := Decidable.not_not.1 hne
    exact ⟨seen, by rw [hmarker, hnil]⟩
  · cases hfeed
    exact fun _ => ⟨seen, by rw [hmarker]⟩
  -- A length byte.
  · cases hfeed
    exact buffered_of_idle rfl
  · cases hfeed
    exact buffered_of_idle rfl
  · cases hfeed
    intro _
    obtain ⟨pre, rfl⟩ := h hin'
    exact ⟨pre, List.append_assoc _ _ _⟩
  · cases hfeed
    intro _
    obtain ⟨pre, rfl⟩ := h hin'
    exact ⟨pre, List.append_assoc _ _ _⟩
  -- Noise.
  · cases hfeed
    exact fun hin => absurd hin hin'

/-- A frame is decoded at a marker, from a body that is full. -/
theorem feed_eq_some (h : d.feed byte = (some f, d')) :
    byte = frameMarker ∧ d.inFrame = true ∧ 0 < d.expectedLength ∧
      d.expectedLength ≤ d.buffer.length ∧
        Frame.parse (d.buffer.take d.expectedLength) = .ok f ∧ d' = d.reset := by
  unfold FrameDecoder.feed at h
  dsimp only at h
  split_ifs at h with hmarker hin hfull
  · unfold FrameDecoder.finish at h
    split at h
    · rename_i hparse
      cases h
      exact ⟨hmarker, hin, hfull.1, hfull.2, hparse, rfl⟩
    · cases h
  all_goals cases (Prod.mk.inj h).1

/-- A frame ends a segment. -/
theorem isSegment_of_feed (hshape : Shape 512 d) (hbuffered : d.Buffered seen)
    (h : d.feed byte = (some f, d')) : IsSegment (seen ++ [byte]) f := by
  obtain ⟨hbyte, hin, -, hfull, hparse, -⟩ := feed_eq_some h
  obtain ⟨pre, hseen⟩ := hbuffered hin
  cases hshape with
  | idle errors => cases hin
  | started errors =>
    rw [List.take_nil] at hparse
    cases hparse
  | body len data errors hne hmin hmax =>
    obtain ⟨n, hn⟩ : ∃ n, len.toNat = n + 1 := ⟨len.toNat - 1, by omega⟩
    have hhead : (((len :: data).take len.toNat).getD 0 0) = len := by rw [hn]; rfl
    have hlength := Frame.length_of_parse hparse
    rw [hhead] at hlength
    have hbody := Frame.eq_of_parse hparse (by
      rw [hhead, List.length_take]
      exact Nat.min_eq_left hfull)
    have hlt := len.toNat_lt
    refine ⟨by omega, fun h122 => ?_, pre, (len :: data).drop len.toNat, ?_⟩
    · refine hne (UInt8.toNat_inj.1 ?_)
      rw [← hlength, h122]
      rfl
    · rw [hseen, hbyte, ← hbody, List.take_append_drop]

/-- All segments of a decoder are. -/
theorem isSegment_of_mem (hshape : Shape 512 d) (hbuffered : d.Buffered seen)
    (bytes : List UInt8) : ∀ s ∈ (d.segments seen bytes).1, IsSegment s.1 s.2 := by
  induction bytes generalizing d seen with
  | nil => exact fun s hs => absurd hs List.not_mem_nil
  | cons byte rest ih =>
    have hshape' := hshape.feedByte byte
    rw [feedByte] at hshape'
    rcases hfeed : d.feed byte with ⟨_ | f, d'⟩
    · rw [hfeed] at hshape'
      rw [segments_none hfeed]
      exact ih hshape' (hbuffered.feed hfeed)
    · rw [hfeed] at hshape'
      have hidle : d'.Buffered [] := by
        obtain ⟨-, -, -, -, -, rfl⟩ := feed_eq_some hfeed
        exact buffered_of_idle rfl
      rw [segments_some hfeed]
      intro s hs
      rcases List.mem_cons.1 hs with rfl | hs
      · exact isSegment_of_feed hshape hbuffered hfeed
      · exact ih hshape' hidle s hs

end FrameDecoder

/-! ## Segments from their first marker on -/

/-- The bytes of a segment before its first marker. -/
def noiseOf (seg : List UInt8) : List UInt8 := seg.takeWhile (· ≠ frameMarker)

/-- The bytes of a segment from its first marker on. -/
def rawOf (seg : List UInt8) : List UInt8 := seg.dropWhile (· ≠ frameMarker)

/-- A segment is its noise and the bytes of its frame. -/
theorem noiseOf_append_rawOf (seg : List UInt8) : noiseOf seg ++ rawOf seg = seg :=
  List.takeWhile_append_dropWhile

/-- There is no marker in the noise. -/
theorem not_mem_noiseOf (seg : List UInt8) : frameMarker ∉ noiseOf seg := by
  intro h
  have hne : decide (frameMarker ≠ frameMarker) = true :=
    List.mem_takeWhile_imp (p := fun b => decide (b ≠ frameMarker)) h
  exact of_decide_eq_true hne rfl

/-- Behind noise a marker is the first one. -/
theorem rawOf_append {noise rest : List UInt8} (h : frameMarker ∉ noise) :
    rawOf (noise ++ frameMarker :: rest) = frameMarker :: rest := by
  have hnoise : ∀ b ∈ noise, decide (b ≠ frameMarker) = true := fun b hb =>
    decide_eq_true fun heq => h (heq ▸ hb)
  rw [rawOf, List.dropWhile_append_of_pos hnoise, List.dropWhile_cons_of_neg (by simp)]

namespace FrameDecoder

variable {seg : List UInt8} {f : Frame}

/-- From its first marker on a segment has the bytes of its frame, and maybe more on either side. -/
theorem IsSegment.rawOf_eq (h : IsSegment seg f) : ∃ pre extra,
    rawOf seg = pre ++ frameMarker :: (f.body ++ [crc8 f.body] ++ extra) ++ [frameMarker] := by
  obtain ⟨-, -, pre, extra, rfl⟩ := h
  refine ⟨pre.dropWhile (· ≠ frameMarker), extra, ?_⟩
  rw [rawOf, List.append_assoc, List.dropWhile_append]
  split
  · rename_i hnil
    rw [List.isEmpty_iff.1 hnil, List.cons_append, List.dropWhile_cons_of_neg (by simp)]
    rfl
  · exact (List.append_assoc _ _ _).symm

/-- The bytes of a segment are no fewer than those of its frame. -/
theorem IsSegment.length_le (h : IsSegment seg f) : f.wire.length ≤ (rawOf seg).length := by
  obtain ⟨pre, extra, hraw⟩ := h.rawOf_eq
  rw [hraw, Frame.wire]
  simp only [List.length_append, List.length_cons, List.length_nil]
  omega

/-- With no more bytes than its frame, a segment has just those of the frame. -/
theorem IsSegment.rawOf_eq_wire (h : IsSegment seg f)
    (hlength : (rawOf seg).length = f.wire.length) : rawOf seg = f.wire := by
  obtain ⟨pre, extra, hraw⟩ := h.rawOf_eq
  rw [hraw, Frame.wire] at hlength
  simp only [List.length_append, List.length_cons, List.length_nil] at hlength
  have hpre : pre = [] := List.eq_nil_of_length_eq_zero (by omega)
  have hextra : extra = [] := List.eq_nil_of_length_eq_zero (by omega)
  rw [hraw, hpre, hextra, Frame.wire, List.append_nil, List.nil_append]

/-! ## Exact segments -/

/-- Segments that begin with noise and are otherwise just their frames. -/
def Exact (segs : List (List UInt8 × Frame)) : Prop := ∀ s ∈ segs, rawOf s.1 = s.2.wire

/-- Exact segments are a stream of their frames. -/
theorem stream_of_exact {segs : List (List UInt8 × Frame)} (hexact : Exact segs)
    (hsegs : ∀ s ∈ segs, IsSegment s.1 s.2) :
    Stream (segs.map Prod.snd) (segs.flatMap Prod.fst) := by
  induction segs with
  | nil => exact .nil [] List.not_mem_nil
  | cons s segs ih =>
    obtain ⟨hs, hexact'⟩ := List.forall_mem_cons.1 hexact
    obtain ⟨hseg, hsegs'⟩ := List.forall_mem_cons.1 hsegs
    have hencode : s.2.encode = .ok (rawOf s.1) := Frame.encode_eq_wire.2 ⟨hseg.1, hs⟩
    rw [List.map_cons, List.flatMap_cons, ← noiseOf_append_rawOf s.1]
    exact .cons _ (not_mem_noiseOf s.1) hencode (ih hexact' hsegs')

/-- A stream of frames is cut into exact segments. -/
theorem exact_of_stream {frames : List Frame} {bytes tail : List UInt8} {errors : UInt32}
    (h : Stream frames bytes) (hne : ∀ f ∈ frames, f.payload.length ≠ 122)
    (htail : (Mealy.run feedByte ⟨[], false, 0, errors, 512⟩ tail).1 = []) :
    Exact (segments ⟨[], false, 0, errors, 512⟩ [] (bytes ++ tail)).1 := by
  induction h with
  | nil noise hnoise =>
    rw [segments_append (steps_feedByte.run_noise hnoise)]
    have hframes := segments_frames ⟨[], false, 0, errors, 512⟩ ([] ++ noise) tail
    rw [htail, List.map_eq_nil_iff] at hframes
    rw [hframes]
    exact fun s hs => absurd hs List.not_mem_nil
  | @cons noise hnoise frame bytes hframe frames rest hrest ih =>
    obtain ⟨hlen, rfl⟩ := Frame.encode_eq_wire.1 hframe
    obtain ⟨hframe122, hne⟩ := List.forall_mem_cons.1 hne
    have hopen : Mealy.run feedByte ⟨[], false, 0, errors, 512⟩
        (frameMarker :: (frame.body ++ [crc8 frame.body])) = _ := steps_feedByte.run_open hlen
      (show 255 ≤ 512 by decide) hframe122
    have hend : feedByte ⟨frame.body ++ [crc8 frame.body], true,
        (UInt8.ofNat (4 + frame.payload.length)).toNat, errors, 512⟩ frameMarker =
          ([frame], ⟨[], false, 0, errors, 512⟩) := steps_feedByte.step_end hlen
    have hfeed : feed ⟨frame.body ++ [crc8 frame.body], true,
        (UInt8.ofNat (4 + frame.payload.length)).toNat, errors, 512⟩ frameMarker =
          (some frame, ⟨[], false, 0, errors, 512⟩) := by
      obtain ⟨hsome, hstate⟩ := Prod.mk.inj hend
      exact Prod.ext (Option.toList_eq_singleton_iff.1 hsome) hstate
    have hbytes : noise ++ frame.wire ++ rest ++ tail =
        noise ++ ((frameMarker :: (frame.body ++ [crc8 frame.body])) ++
          frameMarker :: (rest ++ tail)) := by
      simp only [Frame.wire, List.append_assoc, List.cons_append, List.nil_append]
    have hseg : [] ++ noise ++ (frameMarker :: (frame.body ++ [crc8 frame.body])) ++
        [frameMarker] = noise ++ frame.wire := by
      rw [List.nil_append, List.append_assoc, Frame.wire]
    rw [hbytes, segments_append (steps_feedByte.run_noise hnoise), segments_append hopen,
      segments_some hfeed, hseg]
    refine List.forall_mem_cons.2 ⟨?_, ih hne⟩
    exact rawOf_append hnoise

/-- A capture is cut into exact segments exactly if it is a stream of encoded frames, with bytes
behind it from which no frame is decoded. -/
theorem exact_iff (bytes : List UInt8) :
    Exact (new.segments [] bytes).1 ↔ ∃ frames pre tail, bytes = pre ++ tail ∧
      Stream frames pre ∧ (∀ f ∈ frames, f.payload.length ≠ 122) ∧
        (Mealy.run feedByte new tail).1 = [] := by
  constructor
  · intro hexact
    have hsegs : ∀ s ∈ (new.segments [] bytes).1, IsSegment s.1 s.2 :=
      isSegment_of_mem (shape_withMaxBuffer 512) (buffered_of_idle rfl) bytes
    have hstream := stream_of_exact hexact hsegs
    have hne : ∀ f ∈ (new.segments [] bytes).1.map Prod.snd, f.payload.length ≠ 122 := by
      intro f hf
      obtain ⟨s, hs, rfl⟩ := List.mem_map.1 hf
      exact (hsegs s hs).2.1
    have hsplit := new.segments_flatMap [] bytes
    rw [List.nil_append] at hsplit
    refine ⟨_, _, _, hsplit.symm, hstream, hne, ?_⟩
    -- The decoder is new again behind the last segment.
    have hrun : Mealy.run feedByte new ((new.segments [] bytes).1.flatMap Prod.fst) =
        ((new.segments [] bytes).1.map Prod.snd, new) :=
      steps_feedByte.run_stream (show 255 ≤ 512 by decide) hstream hne
    have hframes := new.segments_frames [] bytes
    have happend : Mealy.run feedByte new ((new.segments [] bytes).1.flatMap Prod.fst ++
        (new.segments [] bytes).2) = _ := Mealy.run_append new _ _
    rw [hsplit, hrun] at happend
    rw [happend] at hframes
    exact List.append_cancel_left (hframes.symm.trans (List.append_nil _).symm)
  · rintro ⟨frames, pre, tail, rfl, hstream, hne, htail⟩
    exact exact_of_stream hstream hne htail

end FrameDecoder

end Launa.Protocol
