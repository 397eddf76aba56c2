import Launa.Lib.Utf8Bytes
import Launa.Ota.Http
import Launa.Protocol.Hex
import Launa.Protocol.Segments
import Mathlib.Algebra.Order.BigOperators.Group.List

/-!
# Captures of the bus

`sniff_decode.rs` decodes the bytes that the app has captured, in chunks, and shows them as frames
and garbage. It notes where a frame begins at the first marker since the frame before it, while the
decoder goes on to later markers when what it has read is no frame. So the entries always are a
partition of the capture (`partition_handleChunksFormat`), but the bytes of a frame entry are those
of its frame exactly as long as the capture is a stream of encoded frames
(`decodes_iff_stream`).
-/

namespace Launa.Xtask

open Ota Protocol Utf8Bytes

/-! ## The source -/

/-- `SniffEntry`. -/
structure SniffEntry where
  deviceId : String
  direction : Option String
  timestamp : Option String
  messageType : String
  crcOk : Bool
  rawHex : String
  parsed : Option String
  deriving DecidableEq

/-- `ChunkInfo`. -/
structure ChunkInfo where
  tsUs : ℕ
  dir : String
  data : List UInt8
  deriving DecidableEq

/-- A chunk in JSON: what the first three elements of its array are read as. -/
structure ChunkValue where
  dir : Option String
  tsUs : Option ℕ
  hex : Option String
  deriving DecidableEq

/-- `trim_start_matches`, of a zero and a letter. -/
def trimStartMatches (letter : Char) : List Char → List Char
  | '0' :: c :: rest => if c = letter then trimStartMatches letter rest else '0' :: c :: rest
  | cs => cs

/-- The bytes of so many pairs of digits. A pair that is no number is left out, and a cut within a
character panics. -/
def hexPairs : ℕ → String → Option (List UInt8)
  | 0, _ => some []
  | pairs + 1, hex => do
    let pair ← sliceTo hex 2
    let rest ← sliceFrom hex 2
    let bytes ← hexPairs pairs rest
    some (((fromStrRadix 16 (2 ^ 8) pair.toList).map UInt8.ofNat).toList ++ bytes)

/-- `hex_to_bytes`, where `none` panics. -/
def hexToBytes (hex : String) : Option (List UInt8) :=
  let hex := String.ofList (trimStartMatches 'X' (trimStartMatches 'x' (trim hex.toList)))
  let hex := if hex.utf8ByteSize % 2 ≠ 0 then "0" ++ hex else hex
  hexPairs (hex.utf8ByteSize / 2) hex

/-- `bytes_to_hex`. -/
def bytesToHex (bytes : List UInt8) : String :=
  .ofList (bytes.flatMap fun b => (hexPair b).map Char.toUpper)

/-- `OffsetFrameDecoder`. -/
structure OffsetFrameDecoder where
  decoder : FrameDecoder
  inFrame : Bool
  frameStart : Option ℕ

namespace OffsetFrameDecoder

/-- `OffsetFrameDecoder::new`. -/
def new : OffsetFrameDecoder := ⟨.new, false, none⟩

/-- What `OffsetFrameDecoder::feed` does first: it notes the marker that starts a frame. -/
def mark (self : OffsetFrameDecoder) (byte : UInt8) (offset : ℕ) : OffsetFrameDecoder :=
  if byte = 0x7E ∧ self.inFrame = false then
    { self with inFrame := true, frameStart := some offset }
  else self

/-- `OffsetFrameDecoder::feed`. -/
def feed (self : OffsetFrameDecoder) (byte : UInt8) (offset : ℕ) :
    Option (ℕ × Frame) × OffsetFrameDecoder :=
  let self := self.mark byte offset
  match self.decoder.feed byte with
  | (some decoded, decoder) =>
    (some (self.frameStart.getD offset, decoded), ⟨decoder, false, none⟩)
  | (none, decoder) => (none, { self with decoder := decoder })

/-- The frames of the bytes from an offset on, with their starts and ends. -/
def decodedFrames (self : OffsetFrameDecoder) (offset : ℕ) : List UInt8 → List (ℕ × ℕ × Frame)
  | [] => []
  | byte :: bytes =>
    match self.feed byte offset with
    | (some (start, frame), self) =>
      (start, offset + 1, frame) :: self.decodedFrames (offset + 1) bytes
    | (none, self) => self.decodedFrames (offset + 1) bytes

end OffsetFrameDecoder

/-- Which of so many bytes are covered by the frames. -/
def coveredBytes (len : ℕ) (frames : List (ℕ × ℕ × Frame)) : List Bool :=
  (List.range len).map fun i => frames.any fun (start, stop, _) => start ≤ i && i < stop

/-- The ranges that are not covered, from an index on, with the start of the one that is open. -/
def garbageRanges (i : ℕ) (garbageStart : Option ℕ) : List Bool → List (ℕ × ℕ)
  | [] => (garbageStart.map fun start => (start, i)).toList
  | isCovered :: covered =>
    if !isCovered then garbageRanges (i + 1) (garbageStart.or (some i)) covered
    else (garbageStart.map fun start => (start, i)).toList ++ garbageRanges (i + 1) none covered

/-- The chunks with their first and last offsets. -/
def chunkOffsets (absOffset : ℕ) : List ChunkInfo → List (ℕ × ℕ × ChunkInfo)
  | [] => []
  | c :: chunks =>
    (absOffset, absOffset + c.data.length, c) :: chunkOffsets (absOffset + c.data.length) chunks

/-- `find_chunk_for_offset`. -/
def findChunkForOffset (offsets : List (ℕ × ℕ × ChunkInfo)) (offset : ℕ) : Option ChunkInfo :=
  match offsets.find? fun (start, stop, _) => start ≤ offset && offset < stop with
  | some (_, _, c) => some c
  | none => (offsets.reverse.find? fun (start, _, _) => start ≤ offset).map fun (_, _, c) => c

/-- `parse_ts_us`. -/
def parseTsUs (ts : Option String) : Option ℕ := do
  let s ← stripPrefix ['+'] (← ts).toList
  let s ← stripPrefix ['s', 'u'] s.reverse
  fromStrRadix 10 (2 ^ 64) s.reverse

/-- The order of `Option<u64>`. -/
def keyLe : Option ℕ → Option ℕ → Bool
  | none, _ => true
  | some _, none => false
  | some a, some b => a ≤ b

/-- An entry of the bytes from an offset on. -/
def entryAt (deviceId : String) (offsets : List (ℕ × ℕ × ChunkInfo)) (start : ℕ)
    (messageType : String) (crcOk : Bool) (rawHex parsed : String) : SniffEntry :=
  let chunkInfo := findChunkForOffset offsets start
  let tsUs := (chunkInfo.map ChunkInfo.tsUs).getD 0
  let dir := (chunkInfo.map ChunkInfo.dir).getD "?"
  ⟨deviceId, some dir, some ("+" ++ toString tsUs ++ "us"), messageType, crcOk, rawHex,
    some parsed⟩

/-- What is said of some bytes of garbage. -/
def garbageText (bytes : List UInt8) : String :=
  toString bytes.length ++ " bytes of inter-frame garbage"

/-- The type of a frame in an entry. -/
def typeText (frame : Frame) : String :=
  bytesToHex [frame.messageType.1] ++ " " ++ bytesToHex [frame.messageType.2]

/-- A range of the captured bytes. The ranges of frames and garbage lie within them. -/
def sliceOf (bytes : List UInt8) (start stop : ℕ) : List UInt8 := (bytes.take stop).drop start

/-- The chunks of the JSON document, where `none` panics. A value that is no array of three elements
is left out, and so is a chunk without bytes. -/
def chunkInfos : List (Option ChunkValue) → Option (List ChunkInfo)
  | [] => some []
  | none :: values => chunkInfos values
  | some value :: values => do
    let data ← hexToBytes (value.hex.getD "")
    let chunks ← chunkInfos values
    some (if data.isEmpty then chunks
      else ⟨value.tsUs.getD 0, value.dir.getD "R", data⟩ :: chunks)

/-- The entries of the garbage and then those of the frames, before they are sorted. -/
def unsortedEntries (describe : Frame → String) (deviceId : String) (chunks : List ChunkInfo) :
    List SniffEntry :=
  let allBytes := chunks.flatMap ChunkInfo.data
  let decoded := OffsetFrameDecoder.new.decodedFrames 0 allBytes
  let offsets := chunkOffsets 0 chunks
  let garbage := garbageRanges 0 none (coveredBytes allBytes.length decoded)
  (garbage.filter fun (start, stop) => !(sliceOf allBytes start stop).isEmpty).map
      (fun (start, stop) =>
        let garbageBytes := sliceOf allBytes start stop
        entryAt deviceId offsets start "GARBAGE" false (bytesToHex garbageBytes)
          (garbageText garbageBytes)) ++
    decoded.map fun (start, stop, frame) =>
      entryAt deviceId offsets start (typeText frame) true
        (bytesToHex (sliceOf allBytes start stop)) (describe frame)

/-- `handle_chunks_format`, without what it prints. The decoder that it is given only counts errors
for that, and `describe` is what `describe_message` says of a frame. -/
def handleChunksFormat (describe : Frame → String) (deviceId : String)
    (chunksArr : List (Option ChunkValue)) : Option (List SniffEntry) :=
  (chunkInfos chunksArr).map fun chunks =>
    (unsortedEntries describe deviceId chunks).mergeSort fun a b =>
      keyLe (parseTsUs a.timestamp) (parseTsUs b.timestamp)

/-- A chunk as the app writes it into the document. -/
def ChunkInfo.value (chunk : ChunkInfo) : Option ChunkValue :=
  some ⟨some chunk.dir, some chunk.tsUs, some (toHex chunk.data)⟩

/-! ## What the entries should be -/

/-- A part of a capture: garbage, or the bytes of a frame. -/
structure Piece where
  frame : Option Frame
  bytes : List UInt8
  deriving DecidableEq

/-- What an entry says of its bytes. -/
structure EntryText where
  messageType : String
  crcOk : Bool
  rawHex : String
  parsed : Option String
  deriving DecidableEq

/-- The text of an entry. -/
def SniffEntry.text (entry : SniffEntry) : EntryText :=
  ⟨entry.messageType, entry.crcOk, entry.rawHex, entry.parsed⟩

/-- What the entry of a piece says. -/
def Piece.text (describe : Frame → String) (piece : Piece) : EntryText :=
  match piece.frame with
  | none => ⟨"GARBAGE", false, bytesToHex piece.bytes, some (garbageText piece.bytes)⟩
  | some frame => ⟨typeText frame, true, bytesToHex piece.bytes, some (describe frame)⟩

/-- The entries are those of the pieces, in some order. The pieces are the capture, one behind the
other, and their frames are those that are decoded from it. -/
structure Partition (describe : Frame → String) (captured : List UInt8) (entries : List SniffEntry)
    (pieces : List Piece) : Prop where
  covers : pieces.flatMap Piece.bytes = captured
  decoded : pieces.filterMap Piece.frame = (Mealy.run FrameDecoder.feedByte .new captured).1
  shown : (entries.map SniffEntry.text).Perm (pieces.map (Piece.text describe))

/-- The pieces that are frames have the bytes of their frames. -/
def ExactPieces (pieces : List Piece) : Prop :=
  ∀ piece ∈ pieces, ∀ frame ∈ piece.frame, frame.encode = .ok piece.bytes

/-- The document of these chunks is shown as a partition of their bytes, with the encodings of the
frames. -/
def Decodes (describe : Frame → String) (deviceId : String) (chunks : List ChunkInfo) : Prop :=
  ∃ entries, handleChunksFormat describe deviceId (chunks.map ChunkInfo.value) = some entries ∧
    ∃ pieces, Partition describe (chunks.flatMap ChunkInfo.data) entries pieces ∧
      ExactPieces pieces

/-! ## Hex texts -/

/-- What a pair of digits is read as. -/
theorem fromStrRadix_hexPair :
    ∀ b : UInt8, (fromStrRadix 16 (2 ^ 8) (hexPair b)).map UInt8.ofNat = some b :=
  forall_byte (by decide +kernel)

/-- Each byte is spelled in two. -/
theorem utf8ByteSize_hexPair (b : UInt8) : (String.ofList (hexPair b)).utf8ByteSize = 2 := by
  obtain ⟨first, second, hbytes, -⟩ := bytes_hexPair b
  have hsize : (String.ofList (hexPair b)).utf8ByteSize = (bytes (hexPair b)).length := by
    rw [← toList_toByteArray_ofList]
    rfl
  rw [hsize, hbytes]
  rfl

/-- A spelling is twice as long as its bytes. -/
theorem utf8ByteSize_toHex (bs : List UInt8) : (toHex bs).utf8ByteSize = 2 * bs.length := by
  have h : (toHex bs).utf8ByteSize = (Mqtt.asBytes (toHex bs)).length := Array.length_toList.symm
  rw [h, asBytes_toHex, length_bytes_hexPair]

/-- The bytes are read back from their pairs of digits. -/
theorem hexPairs_toHex (bs : List UInt8) : hexPairs bs.length (toHex bs) = some bs := by
  induction bs with
  | nil => rfl
  | cons b bs ih =>
    have hsplit : toHex (b :: bs) = .ofList (hexPair b) ++ toHex bs := by
      rw [toHex, List.flatMap_cons, String.ofList_append]
      rfl
    have hpair := sliceTo_append (.ofList (hexPair b)) (toHex bs)
    have hrest := sliceFrom_append (.ofList (hexPair b)) (toHex bs)
    rw [utf8ByteSize_hexPair, ← hsplit] at hpair hrest
    rw [List.length_cons, hexPairs, hpair, hrest]
    simp only [Option.bind_eq_bind, Option.bind_some, ih, String.toList_ofList,
      fromStrRadix_hexPair]
    rfl

/-- A hex digit is no whitespace, and no letter of a prefix. -/
theorem isHexDigit_hexPair (b : UInt8) :
    ∀ c ∈ hexPair b, isWhitespace c = false ∧ c ≠ 'x' ∧ c ≠ 'X' := by
  intro c hc
  have hchars : (hexChars.all fun c => !isWhitespace c && c != 'x' && c != 'X') = true := by decide
  have hchar := List.all_eq_true.1 hchars c (mem_hexChars_of_mem_hexPair hc)
  simpa [and_assoc] using hchar

/-- What does not have the letter is not trimmed. -/
theorem trimStartMatches_of_not_mem {letter : Char} {cs : List Char} (h : letter ∉ cs) :
    trimStartMatches letter cs = cs := by
  unfold trimStartMatches
  split
  · rename_i c rest
    have hc : c ≠ letter := fun heq => h (by simp [heq])
    rw [if_neg hc]
  · rfl

/-- What has no white space is not trimmed. -/
theorem dropWhile_eq_self {cs : List Char} (h : ∀ c ∈ cs, isWhitespace c = false) :
    cs.dropWhile isWhitespace = cs := by
  cases cs with
  | nil => rfl
  | cons c cs =>
    exact List.dropWhile_cons_of_neg (by rw [h c List.mem_cons_self]; exact Bool.false_ne_true)

/-- The bytes that the app writes are read. -/
theorem hexToBytes_toHex (bs : List UInt8) : hexToBytes (toHex bs) = some bs := by
  have hchars : ∀ c ∈ (toHex bs).toList, isWhitespace c = false ∧ c ≠ 'x' ∧ c ≠ 'X' := by
    intro c hc
    rw [toHex, String.toList_ofList, List.mem_flatMap] at hc
    obtain ⟨b, -, hb⟩ := hc
    exact isHexDigit_hexPair b c hb
  have htrim : trim (toHex bs).toList = (toHex bs).toList := by
    have hreverse : ∀ c ∈ (toHex bs).toList.reverse, isWhitespace c = false :=
      fun c hc => (hchars c (List.mem_reverse.1 hc)).1
    rw [trim, dropWhile_eq_self fun c hc => (hchars c hc).1, dropWhile_eq_self hreverse,
      List.reverse_reverse]
  have hx : 'x' ∉ (toHex bs).toList := fun hc => (hchars _ hc).2.1 rfl
  have hX : 'X' ∉ (toHex bs).toList := fun hc => (hchars _ hc).2.2 rfl
  have heven : ¬(toHex bs).utf8ByteSize % 2 ≠ 0 := by
    rw [utf8ByteSize_toHex]
    omega
  have hhalf : (toHex bs).utf8ByteSize / 2 = bs.length := by
    rw [utf8ByteSize_toHex]
    omega
  rw [hexToBytes, htrim, trimStartMatches_of_not_mem hx, trimStartMatches_of_not_mem hX,
    String.ofList_toList, if_neg heven, hhalf, hexPairs_toHex]

/-- The bytes of the chunks are read, and chunks without bytes do not matter. -/
theorem chunkInfos_value (chunks : List ChunkInfo) :
    chunkInfos (chunks.map ChunkInfo.value) = some (chunks.filter fun c => !c.data.isEmpty) := by
  induction chunks with
  | nil => rfl
  | cons c chunks ih =>
    rw [List.map_cons, ChunkInfo.value, chunkInfos, ih]
    simp only [Option.getD_some, hexToBytes_toHex, Option.bind_eq_bind, Option.bind_some]
    cases hdata : c.data.isEmpty with
    | true => rw [if_pos rfl, List.filter_cons_of_neg (by simp [hdata])]
    | false => rw [if_neg Bool.false_ne_true, List.filter_cons_of_pos (by simp [hdata])]

/-- Empty chunks have no bytes. -/
theorem flatMap_filter (chunks : List ChunkInfo) :
    (chunks.filter fun c => !c.data.isEmpty).flatMap ChunkInfo.data =
      chunks.flatMap ChunkInfo.data := by
  induction chunks with
  | nil => rfl
  | cons c chunks ih =>
    cases hdata : c.data.isEmpty with
    | true =>
      rw [List.filter_cons_of_neg (by simp [hdata]), ih, List.flatMap_cons,
        List.isEmpty_iff.1 hdata, List.nil_append]
    | false =>
      rw [List.filter_cons_of_pos (by simp [hdata]), List.flatMap_cons, List.flatMap_cons, ih]

/-- The text of some bytes has two characters for each. -/
theorem length_bytesToHex (bytes : List UInt8) :
    (bytesToHex bytes).toList.length = 2 * bytes.length := by
  rw [bytesToHex, String.toList_ofList]
  induction bytes with
  | nil => rfl
  | cons b bytes ih =>
    rw [List.flatMap_cons, List.length_append, ih, List.length_map, List.length_cons]
    change 2 + 2 * bytes.length = _
    omega

/-! ## Where the frames are -/

/-- The starts and ends of the frames of segments that begin at an offset. -/
def segmentRanges (offset : ℕ) : List (List UInt8 × Frame) → List (ℕ × ℕ × Frame)
  | [] => []
  | (seg, frame) :: segs =>
    (offset + (noiseOf seg).length, offset + seg.length, frame) ::
      segmentRanges (offset + seg.length) segs

namespace OffsetFrameDecoder

variable {self : OffsetFrameDecoder} {offset : ℕ} {seen : List UInt8} {byte : UInt8}

/-- The start that is noted is the first marker of the bytes since the last frame. -/
structure Tracks (d : OffsetFrameDecoder) (offset : ℕ) (seen : List UInt8) : Prop where
  marked : frameMarker ∈ seen →
    d.inFrame = true ∧ d.frameStart = some (offset + (noiseOf seen).length)
  unmarked : frameMarker ∉ seen → d.inFrame = false ∧ d.frameStart = none

/-- Behind a marker nothing is noise. -/
theorem noiseOf_append_of_mem (h : frameMarker ∈ seen) :
    noiseOf (seen ++ [byte]) = noiseOf seen := by
  rw [noiseOf, List.takeWhile_append, if_neg]
  · rfl
  · intro hlength
    have hall := (List.takeWhile_prefix (fun b => decide (b ≠ frameMarker))).eq_of_length hlength
    have hmem := not_mem_noiseOf seen
    rw [noiseOf, hall] at hmem
    exact hmem h

/-- The first marker ends the noise. -/
theorem noiseOf_append_marker (h : frameMarker ∉ seen) :
    noiseOf (seen ++ [frameMarker]) = seen := by
  have hseen : ∀ b ∈ seen, decide (b ≠ frameMarker) = true := fun b hb =>
    decide_eq_true fun heq => h (heq ▸ hb)
  rw [noiseOf, List.takeWhile_append_of_pos hseen, List.takeWhile_cons_of_neg (by simp),
    List.append_nil]

/-- A byte keeps track. -/
theorem Tracks.mark (h : self.Tracks offset seen) (byte : UInt8) :
    (self.mark byte (offset + seen.length)).Tracks offset (seen ++ [byte]) := by
  unfold OffsetFrameDecoder.mark
  by_cases hmem : frameMarker ∈ seen
  -- A later marker is not noted, also if the decoder starts again at it.
  · obtain ⟨hin, hstart⟩ := h.marked hmem
    rw [if_neg fun hmark => absurd (hin.symm.trans hmark.2) Bool.false_ne_true.symm]
    refine ⟨fun _ => ⟨hin, ?_⟩, fun hnot => absurd (List.mem_append_left _ hmem) hnot⟩
    rw [noiseOf_append_of_mem hmem, hstart]
  · obtain ⟨hin, hstart⟩ := h.unmarked hmem
    by_cases hbyte : byte = frameMarker
    · rw [if_pos ⟨hbyte, hin⟩, hbyte]
      refine ⟨fun _ => ⟨rfl, ?_⟩, fun hnot => ?_⟩
      · rw [noiseOf_append_marker hmem]
      · exact absurd (List.mem_append_right _ List.mem_cons_self) hnot
    · rw [if_neg fun hmark => hbyte hmark.1]
      refine ⟨fun hin' => ?_, fun _ => ⟨hin, hstart⟩⟩
      rcases List.mem_append.1 hin' with hin' | hin'
      · exact absurd hin' hmem
      · exact absurd (List.mem_singleton.1 hin').symm hbyte

/-- A mark leaves the decoder alone. -/
theorem decoder_mark (self : OffsetFrameDecoder) (byte : UInt8) (offset : ℕ) :
    (self.mark byte offset).decoder = self.decoder := by
  unfold OffsetFrameDecoder.mark
  split <;> rfl

/-- The frames are those of the segments, each from the first marker of its segment on. -/
theorem decodedFrames_eq (h : self.Tracks offset seen) (bytes : List UInt8) :
    self.decodedFrames (offset + seen.length) bytes =
      segmentRanges offset (self.decoder.segments seen bytes).1 := by
  induction bytes generalizing self offset seen with
  | nil => rfl
  | cons byte bytes ih =>
    have hmark := h.mark byte
    have hdecoder := self.decoder_mark byte (offset + seen.length)
    rcases hfeed : self.decoder.feed byte with ⟨_ | frame, d⟩
    · have hstep : self.feed byte (offset + seen.length) =
          (none, { self.mark byte (offset + seen.length) with decoder := d }) := by
        rw [OffsetFrameDecoder.feed, hdecoder, hfeed]
      have htracks : OffsetFrameDecoder.Tracks
          { self.mark byte (offset + seen.length) with decoder := d } offset (seen ++ [byte]) :=
        ⟨hmark.marked, hmark.unmarked⟩
      have hrest := ih htracks
      rw [List.length_append, List.length_singleton, ← Nat.add_assoc] at hrest
      rw [decodedFrames, hstep, FrameDecoder.segments_none hfeed]
      exact hrest
    -- The frame ends at a marker, so that one has been noted.
    · obtain ⟨hbyte, -⟩ := FrameDecoder.feed_eq_some hfeed
      have hmem : frameMarker ∈ seen ++ [byte] :=
        List.mem_append_right _ (by rw [hbyte]; exact List.mem_cons_self)
      have hstep : self.feed byte (offset + seen.length) =
          (some (offset + (noiseOf (seen ++ [byte])).length, frame), ⟨d, false, none⟩) := by
        rw [OffsetFrameDecoder.feed, hdecoder, hfeed]
        dsimp only
        rw [(hmark.marked hmem).2, Option.getD_some]
      have htracks : OffsetFrameDecoder.Tracks ⟨d, false, none⟩
          (offset + (seen ++ [byte]).length) [] :=
        ⟨fun hmem => absurd hmem List.not_mem_nil, fun _ => ⟨rfl, rfl⟩⟩
      have hrest := ih htracks
      rw [List.length_nil, Nat.add_zero] at hrest
      have hstop : offset + seen.length + 1 = offset + (seen ++ [byte]).length := by
        rw [List.length_append, List.length_singleton, Nat.add_assoc]
      rw [decodedFrames, hstep, FrameDecoder.segments_some hfeed, segmentRanges, hstop]
      exact congrArg _ hrest

end OffsetFrameDecoder

/-! ## Which bytes are covered -/

/-- The flags of segments and of what is behind them. -/
def segmentFlags (segs : List (List UInt8 × Frame)) (tail : List UInt8) : List Bool :=
  segs.flatMap (fun s => List.replicate (noiseOf s.1).length false ++
    List.replicate (rawOf s.1).length true) ++ List.replicate tail.length false

/-- Whether an index is in one of the ranges. -/
def isCovered (frames : List (ℕ × ℕ × Frame)) (i : ℕ) : Bool :=
  frames.any fun (start, stop, _) => start ≤ i && i < stop

/-- A byte is covered by the first frame or by a later one. -/
theorem isCovered_cons (s : List UInt8 × Frame) (segs : List (List UInt8 × Frame))
    (offset i : ℕ) : isCovered (segmentRanges offset (s :: segs)) i =
      ((decide (offset + (noiseOf s.1).length ≤ i) && decide (i < offset + s.1.length)) ||
        isCovered (segmentRanges (offset + s.1.length) segs) i) := rfl

/-- Nothing is covered before the first segment. -/
theorem isCovered_segmentRanges_of_lt {segs : List (List UInt8 × Frame)} {offset i : ℕ}
    (h : i < offset) : isCovered (segmentRanges offset segs) i = false := by
  induction segs generalizing offset with
  | nil => rfl
  | cons s segs ih =>
    rw [isCovered_cons, ih (Nat.lt_add_right _ h), decide_eq_false (by omega)]
    rfl

/-- A segment is as long as its noise and its frame. -/
theorem length_noiseOf_add (seg : List UInt8) :
    (noiseOf seg).length + (rawOf seg).length = seg.length := by
  rw [← List.length_append, noiseOf_append_rawOf]

/-- A function that is constant on a range repeats its value. -/
theorem map_range'_eq_replicate {f : ℕ → Bool} {offset n : ℕ} {b : Bool}
    (h : ∀ i, offset ≤ i → i < offset + n → f i = b) :
    (List.range' offset n).map f = List.replicate n b := by
  rw [List.eq_replicate_iff]
  refine ⟨by rw [List.length_map, List.length_range'], fun c hc => ?_⟩
  obtain ⟨i, hi, rfl⟩ := List.mem_map.1 hc
  rw [List.mem_range'_1] at hi
  exact h i hi.1 hi.2

/-- The indices of the first segment: its noise is not covered, its frame is. -/
theorem map_isCovered_first (s : List UInt8 × Frame) (segs : List (List UInt8 × Frame))
    (offset : ℕ) :
    (List.range' offset s.1.length).map (isCovered (segmentRanges offset (s :: segs))) =
      List.replicate (noiseOf s.1).length false ++ List.replicate (rawOf s.1).length true := by
  have hsum := length_noiseOf_add s.1
  rw [← hsum, ← List.range'_append_1, List.map_append]
  congr 1
  · refine map_range'_eq_replicate fun i _ hlt => ?_
    rw [isCovered_cons, isCovered_segmentRanges_of_lt (by omega), decide_eq_false (by omega)]
    rfl
  · refine map_range'_eq_replicate fun i hle hlt => ?_
    rw [isCovered_cons, decide_eq_true hle, decide_eq_true (by omega)]
    rfl

/-- The first segment covers no later index. -/
theorem map_isCovered_rest (s : List UInt8 × Frame) (segs : List (List UInt8 × Frame))
    (offset n : ℕ) :
    (List.range' (offset + s.1.length) n).map (isCovered (segmentRanges offset (s :: segs))) =
      (List.range' (offset + s.1.length) n).map
        (isCovered (segmentRanges (offset + s.1.length) segs)) := by
  refine List.map_congr_left fun i hi => ?_
  rw [List.mem_range'_1] at hi
  rw [isCovered_cons, decide_eq_false (p := i < offset + s.1.length) (by omega), Bool.and_false,
    Bool.false_or]

/-- The ranges cover just the frames of the segments. -/
theorem map_isCovered (segs : List (List UInt8 × Frame)) (tail : List UInt8) (offset : ℕ) :
    (List.range' offset ((segs.flatMap Prod.fst).length + tail.length)).map
      (isCovered (segmentRanges offset segs)) = segmentFlags segs tail := by
  induction segs generalizing offset with
  | nil =>
    rw [List.flatMap_nil, List.length_nil, Nat.zero_add, segmentFlags, List.flatMap_nil,
      List.nil_append]
    exact map_range'_eq_replicate fun _ _ _ => rfl
  | cons s segs ih =>
    rw [List.flatMap_cons, List.length_append, Nat.add_assoc, ← List.range'_append_1,
      List.map_append, map_isCovered_first, map_isCovered_rest, ih]
    simp only [segmentFlags, List.flatMap_cons, List.append_assoc]

/-! ## Where the garbage is -/

/-- Bytes that are not covered start or continue a range. -/
theorem garbageRanges_false (i n : ℕ) (garbageStart : Option ℕ) (covered : List Bool) :
    garbageRanges i garbageStart (List.replicate n false ++ covered) =
      garbageRanges (i + n) (if n = 0 then garbageStart else garbageStart.or (some i)) covered := by
  induction n generalizing i garbageStart with
  | zero => rfl
  | succ n ih =>
    rw [List.replicate_succ, List.cons_append, garbageRanges, Bool.not_false, if_pos rfl, ih,
      if_neg (Nat.succ_ne_zero n), Nat.add_right_comm, Nat.add_assoc]
    split
    · rfl
    · cases garbageStart <;> rfl

/-- Bytes that are covered end a range. -/
theorem garbageRanges_true {n : ℕ} (hn : n ≠ 0) (i : ℕ) (garbageStart : Option ℕ)
    (covered : List Bool) :
    garbageRanges i garbageStart (List.replicate n true ++ covered) =
      (garbageStart.map fun start => (start, i)).toList ++ garbageRanges (i + n) none covered := by
  induction n generalizing i garbageStart with
  | zero => exact absurd rfl hn
  | succ n ih =>
    rw [List.replicate_succ, List.cons_append, garbageRanges, Bool.not_true,
      if_neg Bool.false_ne_true]
    by_cases hzero : n = 0
    · rw [hzero]
      rfl
    · rw [ih hzero, Nat.add_right_comm, Nat.add_assoc]
      rfl

/-- The ranges before the frames of segments that begin at an offset, and behind them. -/
def gapRanges (offset : ℕ) (tail : List UInt8) : List (List UInt8 × Frame) → List (ℕ × ℕ)
  | [] => if tail.length = 0 then [] else [(offset, offset + tail.length)]
  | s :: segs =>
    (if (noiseOf s.1).length = 0 then [] else [(offset, offset + (noiseOf s.1).length)]) ++
      gapRanges (offset + s.1.length) tail segs

/-- The ranges that are not covered are those between the frames. -/
theorem garbageRanges_segmentFlags {segs : List (List UInt8 × Frame)}
    (hraw : ∀ s ∈ segs, (rawOf s.1).length ≠ 0) (tail : List UInt8) (offset : ℕ) :
    garbageRanges offset none (segmentFlags segs tail) = gapRanges offset tail segs := by
  induction segs generalizing offset with
  | nil =>
    rw [segmentFlags, List.flatMap_nil, List.nil_append, ← List.append_nil (List.replicate _ _),
      garbageRanges_false, gapRanges]
    split <;> rfl
  | cons s segs ih =>
    obtain ⟨hs, hsegs⟩ := List.forall_mem_cons.1 hraw
    have hflags : segmentFlags (s :: segs) tail =
        List.replicate (noiseOf s.1).length false ++
          (List.replicate (rawOf s.1).length true ++ segmentFlags segs tail) := by
      simp only [segmentFlags, List.flatMap_cons, List.append_assoc]
    rw [hflags, garbageRanges_false, garbageRanges_true hs, Nat.add_assoc, length_noiseOf_add,
      ih hsegs, gapRanges]
    split <;> rfl

/-! ## The pieces of a capture -/

/-- A piece of garbage, if there are bytes. -/
def garbagePiece (bytes : List UInt8) : List Piece :=
  if bytes.length = 0 then [] else [⟨none, bytes⟩]

/-- The piece of the frame of a segment. -/
def framePiece (s : List UInt8 × Frame) : Piece := ⟨some s.2, rawOf s.1⟩

/-- The pieces of segments and of what is behind them. -/
def segmentPieces (tail : List UInt8) : List (List UInt8 × Frame) → List Piece
  | [] => garbagePiece tail
  | s :: segs => garbagePiece (noiseOf s.1) ++ framePiece s :: segmentPieces tail segs

variable {segs : List (List UInt8 × Frame)} {tail : List UInt8}

/-- The bytes of a piece of garbage are its own. -/
theorem garbagePiece_bytes (bytes : List UInt8) :
    (garbagePiece bytes).flatMap Piece.bytes = bytes := by
  unfold garbagePiece
  split
  · rename_i hlength
    rw [List.eq_nil_of_length_eq_zero hlength]
    rfl
  · exact List.append_nil bytes

/-- There is no frame in garbage. -/
theorem garbagePiece_frame (bytes : List UInt8) :
    (garbagePiece bytes).filterMap Piece.frame = [] := by
  unfold garbagePiece
  split <;> rfl

/-- The pieces have all bytes of the segments. -/
theorem segmentPieces_bytes (segs : List (List UInt8 × Frame)) (tail : List UInt8) :
    (segmentPieces tail segs).flatMap Piece.bytes = segs.flatMap Prod.fst ++ tail := by
  induction segs with
  | nil => exact garbagePiece_bytes tail
  | cons s segs ih =>
    rw [segmentPieces, List.flatMap_append, garbagePiece_bytes, List.flatMap_cons, ih,
      List.flatMap_cons, ← List.append_assoc, List.append_assoc (s.1)]
    exact congrArg (· ++ _) (noiseOf_append_rawOf s.1)

/-- The pieces have all frames of the segments. -/
theorem segmentPieces_frame (segs : List (List UInt8 × Frame)) (tail : List UInt8) :
    (segmentPieces tail segs).filterMap Piece.frame = segs.map Prod.snd := by
  induction segs with
  | nil => exact garbagePiece_frame tail
  | cons s segs ih =>
    rw [segmentPieces, List.filterMap_append, garbagePiece_frame, List.filterMap_cons, ih]
    rfl

/-- The pieces of the garbage, and then those of the frames, are all of them. -/
theorem perm_segmentPieces (segs : List (List UInt8 × Frame)) (tail : List UInt8) :
    (segs.flatMap (fun s => garbagePiece (noiseOf s.1)) ++ garbagePiece tail ++
      segs.map framePiece).Perm (segmentPieces tail segs) := by
  induction segs with
  | nil => rw [List.map_nil, List.append_nil]; exact .refl _
  | cons s segs ih =>
    rw [List.flatMap_cons, List.append_assoc, List.append_assoc, segmentPieces, List.map_cons]
    refine (List.Perm.append_left _ ?_)
    rw [← List.append_assoc]
    exact List.perm_middle.trans (ih.cons _)

/-- A part is sliced out from between the others. -/
theorem sliceOf_append (before mid rest : List UInt8) :
    sliceOf (before ++ (mid ++ rest)) before.length (before.length + mid.length) = mid := by
  rw [sliceOf, ← List.append_assoc, ← List.length_append, List.take_left, List.drop_left]

/-- A capture at the first of some segments. -/
theorem split_segment {captured before : List UInt8} {s : List UInt8 × Frame}
    (h : captured = before ++ ((s :: segs).flatMap Prod.fst ++ tail)) :
    captured = before ++ (noiseOf s.1 ++ (rawOf s.1 ++ (segs.flatMap Prod.fst ++ tail))) ∧
      captured = (before ++ s.1) ++ (segs.flatMap Prod.fst ++ tail) := by
  have hcaptured : captured = (before ++ s.1) ++ (segs.flatMap Prod.fst ++ tail) := by
    rw [h, List.flatMap_cons, List.append_assoc, List.append_assoc]
  refine ⟨?_, hcaptured⟩
  rw [hcaptured, List.append_assoc, ← List.append_assoc (noiseOf s.1), noiseOf_append_rawOf]

/-- The slices of the gaps. -/
theorem map_gapRanges {captured before : List UInt8}
    (h : captured = before ++ (segs.flatMap Prod.fst ++ tail)) :
    (gapRanges before.length tail segs).map
        (fun r => (⟨none, sliceOf captured r.1 r.2⟩ : Piece)) =
      segs.flatMap (fun s => garbagePiece (noiseOf s.1)) ++ garbagePiece tail := by
  induction segs generalizing before with
  | nil =>
    have hslice : sliceOf captured before.length (before.length + tail.length) = tail := by
      have := sliceOf_append before tail []
      rw [List.append_nil] at this
      rw [h]
      exact this
    rw [gapRanges, garbagePiece]
    split
    · rfl
    · rw [List.map_singleton, hslice]
      rfl
  | cons s segs ih =>
    obtain ⟨hsplit, hcaptured⟩ := split_segment h
    have hslice : sliceOf captured before.length (before.length + (noiseOf s.1).length) =
        noiseOf s.1 := by
      rw [hsplit]
      exact sliceOf_append _ _ _
    have hrest := ih hcaptured
    rw [List.length_append] at hrest
    rw [gapRanges, List.map_append, hrest, List.flatMap_cons, List.append_assoc]
    congr 1
    rw [garbagePiece]
    split
    · rfl
    · rw [List.map_singleton, hslice]

/-- The slices of the frames. -/
theorem map_segmentRanges {captured before : List UInt8}
    (h : captured = before ++ (segs.flatMap Prod.fst ++ tail)) :
    (segmentRanges before.length segs).map
        (fun r => (⟨some r.2.2, sliceOf captured r.1 r.2.1⟩ : Piece)) = segs.map framePiece := by
  induction segs generalizing before with
  | nil => rfl
  | cons s segs ih =>
    obtain ⟨hsplit, hcaptured⟩ := split_segment h
    have hslice : sliceOf captured (before.length + (noiseOf s.1).length)
        (before.length + s.1.length) = rawOf s.1 := by
      have := sliceOf_append (before ++ noiseOf s.1) (rawOf s.1) (segs.flatMap Prod.fst ++ tail)
      rw [List.append_assoc, ← hsplit, List.length_append, Nat.add_assoc, length_noiseOf_add]
        at this
      exact this
    have hrest := ih hcaptured
    rw [List.length_append] at hrest
    rw [segmentRanges, List.map_cons, hrest, List.map_cons, framePiece, hslice]

/-! ## The entries -/

variable {describe : Frame → String} {deviceId : String} {chunks : List ChunkInfo}

/-- The segments of the bytes of the chunks, and what is behind them. -/
def segmentsOf (chunks : List ChunkInfo) : List (List UInt8 × Frame) × List UInt8 :=
  FrameDecoder.new.segments [] (chunks.flatMap ChunkInfo.data)

/-- The segments of a capture are segments of the decoder. -/
theorem isSegment_segmentsOf (chunks : List ChunkInfo) :
    ∀ s ∈ (segmentsOf chunks).1, FrameDecoder.IsSegment s.1 s.2 :=
  FrameDecoder.isSegment_of_mem (FrameDecoder.shape_withMaxBuffer 512)
    (FrameDecoder.buffered_of_idle rfl) _

/-- The segments have all bytes of the capture. -/
theorem segmentsOf_flatMap (chunks : List ChunkInfo) :
    (segmentsOf chunks).1.flatMap Prod.fst ++ (segmentsOf chunks).2 =
      chunks.flatMap ChunkInfo.data :=
  FrameDecoder.new.segments_flatMap [] _

/-- The frame of a segment has bytes. -/
theorem length_rawOf_ne_zero {s : List UInt8 × Frame} (hs : s ∈ (segmentsOf chunks).1) :
    (rawOf s.1).length ≠ 0 := by
  have hle := (isSegment_segmentsOf chunks s hs).length_le
  intro hzero
  rw [hzero, Frame.wire] at hle
  exact Nat.not_succ_le_zero _ hle

/-- The frames are those of the segments. -/
theorem decodedFrames_segmentsOf (chunks : List ChunkInfo) :
    OffsetFrameDecoder.new.decodedFrames 0 (chunks.flatMap ChunkInfo.data) =
      segmentRanges 0 (segmentsOf chunks).1 := by
  have htracks : OffsetFrameDecoder.Tracks .new 0 [] :=
    ⟨fun hmem => absurd hmem List.not_mem_nil, fun _ => ⟨rfl, rfl⟩⟩
  exact OffsetFrameDecoder.decodedFrames_eq htracks _

/-- The garbage is what is between the frames of the segments. -/
theorem garbageRanges_segmentsOf (chunks : List ChunkInfo) :
    garbageRanges 0 none (coveredBytes (chunks.flatMap ChunkInfo.data).length
      (segmentRanges 0 (segmentsOf chunks).1)) =
        gapRanges 0 (segmentsOf chunks).2 (segmentsOf chunks).1 := by
  have hflags := map_isCovered (segmentsOf chunks).1 (segmentsOf chunks).2 0
  rw [← List.length_append, segmentsOf_flatMap] at hflags
  rw [← garbageRanges_segmentFlags (fun s => length_rawOf_ne_zero), ← hflags, coveredBytes,
    List.range_eq_range']
  rfl

/-- A piece of garbage has bytes. -/
theorem ne_nil_of_mem_garbagePiece {bytes : List UInt8} {piece : Piece}
    (h : piece ∈ garbagePiece bytes) : piece.bytes ≠ [] := by
  unfold garbagePiece at h
  split at h
  · cases h
  · rename_i hlength
    rw [List.mem_singleton.1 h]
    exact fun hnil => hlength (congrArg List.length hnil)

/-- The entries say what the pieces of the segments do. -/
theorem text_unsortedEntries (describe : Frame → String) (deviceId : String)
    (chunks : List ChunkInfo) :
    ((unsortedEntries describe deviceId chunks).map SniffEntry.text).Perm
      ((segmentPieces (segmentsOf chunks).2 (segmentsOf chunks).1).map (Piece.text describe)) := by
  have hsplit : chunks.flatMap ChunkInfo.data =
      [] ++ ((segmentsOf chunks).1.flatMap Prod.fst ++ (segmentsOf chunks).2) :=
    (segmentsOf_flatMap chunks).symm
  have hgaps : (gapRanges 0 (segmentsOf chunks).2 (segmentsOf chunks).1).map
      (fun r => (⟨none, sliceOf (chunks.flatMap ChunkInfo.data) r.1 r.2⟩ : Piece)) =
        (segmentsOf chunks).1.flatMap (fun s => garbagePiece (noiseOf s.1)) ++
          garbagePiece (segmentsOf chunks).2 := map_gapRanges hsplit
  have hframes : (segmentRanges 0 (segmentsOf chunks).1).map (fun r =>
      (⟨some r.2.2, sliceOf (chunks.flatMap ChunkInfo.data) r.1 r.2.1⟩ : Piece)) =
        (segmentsOf chunks).1.map framePiece := map_segmentRanges hsplit
  -- No gap is empty, so none is left out.
  have hfilter : (gapRanges 0 (segmentsOf chunks).2 (segmentsOf chunks).1).filter (fun r =>
      !(sliceOf (chunks.flatMap ChunkInfo.data) r.1 r.2).isEmpty) =
        gapRanges 0 (segmentsOf chunks).2 (segmentsOf chunks).1 := by
    rw [List.filter_eq_self]
    intro r hr
    have hpiece := List.mem_map_of_mem (f := fun r : ℕ × ℕ =>
      (⟨none, sliceOf (chunks.flatMap ChunkInfo.data) r.1 r.2⟩ : Piece)) hr
    rw [hgaps, List.mem_append, List.mem_flatMap] at hpiece
    have hne : sliceOf (chunks.flatMap ChunkInfo.data) r.1 r.2 ≠ [] := by
      rcases hpiece with ⟨s, -, hs⟩ | htail
      · exact ne_nil_of_mem_garbagePiece hs
      · exact ne_nil_of_mem_garbagePiece htail
    rwa [Bool.not_eq_true', List.isEmpty_eq_false_iff]
  have hentries : (unsortedEntries describe deviceId chunks).map SniffEntry.text =
      ((gapRanges 0 (segmentsOf chunks).2 (segmentsOf chunks).1).map
          (fun r => (⟨none, sliceOf (chunks.flatMap ChunkInfo.data) r.1 r.2⟩ : Piece)) ++
        (segmentRanges 0 (segmentsOf chunks).1).map (fun r =>
          (⟨some r.2.2, sliceOf (chunks.flatMap ChunkInfo.data) r.1 r.2.1⟩ : Piece))).map
            (Piece.text describe) := by
    unfold unsortedEntries
    dsimp only
    rw [decodedFrames_segmentsOf, garbageRanges_segmentsOf, hfilter, List.map_append,
      List.map_append, List.map_map, List.map_map, List.map_map, List.map_map]
    rfl
  rw [hentries, hgaps, hframes]
  exact (perm_segmentPieces _ _).map _

/-- The entries are a partition of the capture. -/
theorem partition_handleChunksFormat (describe : Frame → String) (deviceId : String)
    (chunks : List ChunkInfo) :
    ∃ entries, handleChunksFormat describe deviceId (chunks.map ChunkInfo.value) = some entries ∧
      Partition describe (chunks.flatMap ChunkInfo.data) entries
        (segmentPieces (segmentsOf chunks).2 (segmentsOf chunks).1) := by
  have hinfos := chunkInfos_value chunks
  have hdata := flatMap_filter chunks
  have hsegments : segmentsOf (chunks.filter fun c => !c.data.isEmpty) = segmentsOf chunks := by
    rw [segmentsOf, segmentsOf, hdata]
  refine ⟨_, by rw [handleChunksFormat, hinfos]; rfl, ?_, ?_, ?_⟩
  · rw [segmentPieces_bytes, segmentsOf_flatMap]
  · rw [segmentPieces_frame]
    exact FrameDecoder.new.segments_frames [] _
  · have htext := text_unsortedEntries describe deviceId (chunks.filter fun c => !c.data.isEmpty)
    rw [hsegments] at htext
    exact ((List.mergeSort_perm _ _).map _).trans htext

/-! ## Which captures are decoded into the encodings of their frames -/

/-- The length of what an entry of a frame shows. -/
def EntryText.frameHexLength (text : EntryText) : ℕ :=
  if text.crcOk then text.rawHex.toList.length else 0

/-- A piece of garbage shows no digits of frames. -/
theorem sum_frameHexLength_garbagePiece (describe : Frame → String) (bytes : List UInt8) :
    (((garbagePiece bytes).map (Piece.text describe)).map EntryText.frameHexLength).sum = 0 := by
  unfold garbagePiece
  split <;> rfl

/-- The entries of the pieces of segments show these from their first markers on. -/
theorem sum_frameHexLength_segmentPieces (describe : Frame → String)
    (segs : List (List UInt8 × Frame)) (tail : List UInt8) :
    (((segmentPieces tail segs).map (Piece.text describe)).map EntryText.frameHexLength).sum =
      (segs.map fun s => 2 * (rawOf s.1).length).sum := by
  induction segs with
  | nil => exact sum_frameHexLength_garbagePiece describe tail
  | cons s segs ih =>
    have hframe : ((framePiece s).text describe).frameHexLength = 2 * (rawOf s.1).length :=
      length_bytesToHex (rawOf s.1)
    rw [segmentPieces, List.map_append, List.map_append, List.sum_append,
      sum_frameHexLength_garbagePiece, Nat.zero_add, List.map_cons, List.map_cons, List.sum_cons,
      hframe, ih, List.map_cons, List.sum_cons]

/-- The entries of exact pieces show the encodings of their frames. -/
theorem sum_frameHexLength_of_exact (describe : Frame → String) {pieces : List Piece}
    (h : ExactPieces pieces) :
    ((pieces.map (Piece.text describe)).map EntryText.frameHexLength).sum =
      ((pieces.filterMap Piece.frame).map fun frame => 2 * frame.wire.length).sum := by
  induction pieces with
  | nil => rfl
  | cons piece pieces ih =>
    obtain ⟨hpiece, hpieces⟩ := List.forall_mem_cons.1 h
    obtain ⟨_ | frame, bytes⟩ := piece
    · rw [List.map_cons, List.map_cons, List.sum_cons, ih hpieces, List.filterMap_cons]
      exact Nat.zero_add _
    · obtain ⟨-, rfl⟩ := Frame.encode_eq_wire.1 (hpiece frame rfl)
      have hframe : ((⟨some frame, frame.wire⟩ : Piece).text describe).frameHexLength =
          2 * frame.wire.length := length_bytesToHex frame.wire
      rw [List.map_cons, List.map_cons, List.sum_cons, ih hpieces, hframe, List.filterMap_cons]
      rfl

/-- The frames of exact segments are exact pieces. -/
theorem exactPieces_segmentPieces {segs : List (List UInt8 × Frame)} (tail : List UInt8)
    (hsegs : ∀ s ∈ segs, FrameDecoder.IsSegment s.1 s.2) (h : FrameDecoder.Exact segs) :
    ExactPieces (segmentPieces tail segs) := by
  have hgarbage : ∀ bytes, ExactPieces (garbagePiece bytes) := by
    intro bytes piece hmem frame hframe
    unfold garbagePiece at hmem
    split at hmem
    · cases hmem
    · rw [List.mem_singleton.1 hmem] at hframe
      cases hframe
  induction segs with
  | nil => exact hgarbage tail
  | cons s segs ih =>
    obtain ⟨hs, hsegs'⟩ := List.forall_mem_cons.1 hsegs
    obtain ⟨hexact, hexact'⟩ := List.forall_mem_cons.1 h
    intro piece hmem
    rw [segmentPieces, List.mem_append, List.mem_cons] at hmem
    rcases hmem with hmem | rfl | hmem
    · exact hgarbage _ piece hmem
    · intro frame hframe
      cases hframe
      exact Frame.encode_eq_wire.2 ⟨hs.1, hexact⟩
    · exact ih hsegs' hexact' piece hmem

/-- The entries have the encodings of the frames exactly if the segments are exact. The entries of
any pieces show equally many characters for the frames, and the segments have no fewer bytes than
the encodings of theirs. -/
theorem decodes_iff_exact (describe : Frame → String) (deviceId : String)
    (chunks : List ChunkInfo) :
    Decodes describe deviceId chunks ↔ FrameDecoder.Exact (segmentsOf chunks).1 := by
  obtain ⟨entries, hentries, hpartition⟩ := partition_handleChunksFormat describe deviceId chunks
  have hsegs := isSegment_segmentsOf chunks
  constructor
  · rintro ⟨entries', hentries', pieces, hpieces, hexact⟩
    obtain rfl : entries = entries' := Option.some.inj (hentries.symm.trans hentries')
    have hframes : pieces.filterMap Piece.frame = (segmentsOf chunks).1.map Prod.snd := by
      rw [hpieces.decoded, ← hpartition.decoded, segmentPieces_frame]
    have hsum : ((segmentsOf chunks).1.map fun s => 2 * s.2.wire.length).sum =
        ((segmentsOf chunks).1.map fun s => 2 * (rawOf s.1).length).sum := by
      calc ((segmentsOf chunks).1.map fun s => 2 * s.2.wire.length).sum
          = ((pieces.filterMap Piece.frame).map fun frame => 2 * frame.wire.length).sum := by
            rw [hframes, List.map_map]
            rfl
        _ = ((pieces.map (Piece.text describe)).map EntryText.frameHexLength).sum :=
            (sum_frameHexLength_of_exact describe hexact).symm
        _ = (((segmentPieces (segmentsOf chunks).2 (segmentsOf chunks).1).map
              (Piece.text describe)).map EntryText.frameHexLength).sum :=
            ((hpieces.shown.symm.trans hpartition.shown).map _).sum_eq
        _ = ((segmentsOf chunks).1.map fun s => 2 * (rawOf s.1).length).sum :=
            sum_frameHexLength_segmentPieces describe _ _
    intro s hs
    refine (hsegs s hs).rawOf_eq_wire ?_
    by_contra hne
    -- One segment that is longer than its frame would make the sum larger.
    have hle : ∀ s ∈ (segmentsOf chunks).1, 2 * s.2.wire.length ≤ 2 * (rawOf s.1).length :=
      fun s hs => Nat.mul_le_mul_left 2 (hsegs s hs).length_le
    have hlt : 2 * s.2.wire.length < 2 * (rawOf s.1).length := by
      have := hle s hs
      omega
    exact absurd hsum (List.sum_lt_sum _ _ hle ⟨s, hs, hlt⟩).ne
  · intro hexact
    exact ⟨entries, hentries, _, hpartition, exactPieces_segmentPieces _ hsegs hexact⟩

/-- A capture is shown as the encodings of its frames, and garbage, exactly if it is marker-free
noise and encoded frames, with bytes behind them from which no frame is decoded. -/
theorem decodes_iff_stream (describe : Frame → String) (deviceId : String)
    (chunks : List ChunkInfo) :
    Decodes describe deviceId chunks ↔ ∃ frames pre tail,
      chunks.flatMap ChunkInfo.data = pre ++ tail ∧ Stream frames pre ∧
        (∀ f ∈ frames, f.payload.length ≠ 122) ∧
          (Mealy.run FrameDecoder.feedByte .new tail).1 = [] := by
  rw [decodes_iff_exact]
  exact FrameDecoder.exact_iff _

/-- A marker in front of a frame is shown with it. -/
theorem not_decodes_doubledMarker : ¬∀ (describe : Frame → String) (deviceId : String)
    (chunks : List ChunkInfo), Decodes describe deviceId chunks := by
  intro h
  have hexact := (decodes_iff_exact _ _ _).1
    (h (fun _ => "") "" [⟨0, "R", [0x7E, 0x7E, 0x04, 0x0A, 0xBF, 0xC9, 0x7E]⟩])
  revert hexact
  unfold FrameDecoder.Exact
  decide +kernel

end Launa.Xtask
