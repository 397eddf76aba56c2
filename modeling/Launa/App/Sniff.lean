import Launa.Lib.JsonTree
import Launa.Mqtt.State
import Launa.Xtask.SniffDecode

/-!
# Burst captures

`sniff.rs` records what passes over the bus while a capture is on, and ends it after two seconds or
twelve thousand characters. The tool that is given the document reads back the chunks that were
recorded (`chunksArr_captureValue`), so that it shows a partition of their bytes
(`shown_buildSniffJson`).
-/

namespace Launa.App

open Json Mqtt Protocol Xtask

/-! ## `sniff.rs` -/

/-- `SNIFF_MAX_DURATION_US`. -/
def sniffMaxDurationUs : UInt64 := 2000000

/-- `SNIFF_MAX_TOTAL_HEX_LEN`. -/
def sniffMaxTotalHexLen : ℕ := 12000

/-- `Direction`. -/
inductive Direction where
  | rx | tx
  deriving DecidableEq, Repr

/-- `RawChunk`. -/
structure RawChunk where
  tsUs : UInt64
  dir : Direction
  hex : String
  deriving DecidableEq

/-- The letter of a direction. -/
def Direction.letter : Direction → Char
  | .rx => 'R'
  | .tx => 'T'

/-- The text of a chunk. -/
def RawChunk.text (c : RawChunk) : List Char :=
  "[\"".toList ++ c.dir.letter :: "\",".toList ++ natText c.tsUs.toNat ++ ",\"".toList ++
    c.hex.toList ++ "\"]".toList

/-- `build_sniff_json`. -/
def buildSniffJson (chunks : List RawChunk) (captureUs : UInt64) : List Char :=
  "\x7b\"capture_us\":".toList ++ natText captureUs.toNat ++ ",\"chunks\":[".toList ++
    [','].intercalate (chunks.map RawChunk.text) ++ "]\x7d".toList

/-- `SniffState`, with the times in microseconds. -/
structure SniffState where
  active : Bool
  start : Option UInt64
  chunks : List RawChunk
  totalHexLen : ℕ
  deriving DecidableEq

namespace SniffState

/-- `SniffState::new`. -/
def new : SniffState := ⟨false, none, [], 0⟩

/-- `SniffState::check_start`, where `requested` is what `SNIFF_CAPTURE` holds. -/
def checkStart (self : SniffState) (requested : UInt16) (now : UInt64) : SniffState :=
  if !self.active then
    if requested > 0 then ⟨true, some now, [], 0⟩ else self
  else self

/-- `SniffState::record_chunk`. The clock does not go back. -/
def recordChunk (self : SniffState) (now : UInt64) (dir : Direction) (data : List UInt8) :
    Bool × SniffState :=
  if !self.active then (false, self)
  else match self.start with
    | none => (false, self)
    | some start =>
      let tsUs := now - start
      let hex := toHex data
      let self := { self with
        totalHexLen := self.totalHexLen + hex.utf8ByteSize
        chunks := self.chunks ++ [⟨tsUs, dir, hex⟩] }
      (tsUs ≥ sniffMaxDurationUs || self.totalHexLen ≥ sniffMaxTotalHexLen, self)

/-- `SniffState::finish`, without the request that it clears and the channel that it sends the
document to. It panics when there is no start. -/
def finish (self : SniffState) (now : UInt64) : Option (List Char × SniffState) :=
  self.start.map fun start => (buildSniffJson self.chunks (now - start), new)

end SniffState

/-! ## What is recorded -/

/-- Bytes that pass over the bus at a time. -/
structure Traffic where
  now : UInt64
  dir : Direction
  data : List UInt8
  deriving DecidableEq

namespace Traffic

/-- The chunk that is recorded, in a capture that began at `start`. -/
def chunk (start : UInt64) (t : Traffic) : RawChunk := ⟨t.now - start, t.dir, toHex t.data⟩

/-- The chunk as the tool has it. -/
def info (start : UInt64) (t : Traffic) : ChunkInfo :=
  ⟨(t.now - start).toNat, if t.dir = .rx then "R" else "T", t.data⟩

/-- The bytes of some traffic, in order. -/
def bytes (ts : List Traffic) : List UInt8 := ts.flatMap Traffic.data

/-- The bytes of two lists of traffic are put behind each other. -/
theorem bytes_append (ts ts' : List Traffic) : bytes (ts ++ ts') = bytes ts ++ bytes ts' :=
  List.flatMap_append

/-- The chunks have the bytes of the traffic. -/
theorem flatMap_data_info (start : UInt64) (ts : List Traffic) :
    (ts.map (info start)).flatMap ChunkInfo.data = bytes ts := List.flatMap_map ..

end Traffic

/-- A capture goes on after some traffic: it has not lasted too long, and has few enough bytes. -/
def GoesOn (start : UInt64) (ts : List Traffic) : Prop :=
  (∀ t ∈ ts, t.now - start < sniffMaxDurationUs) ∧
    2 * (Traffic.bytes ts).length < sniffMaxTotalHexLen

/-- The state of a capture that began at `start` and has recorded some traffic. -/
def SniffState.recorded (start : UInt64) (ts : List Traffic) : SniffState :=
  ⟨true, some start, ts.map (Traffic.chunk start), 2 * (Traffic.bytes ts).length⟩

namespace SniffState

variable {start now : UInt64} {ts : List Traffic}

/-- An idle capture starts if it is requested. -/
theorem checkStart_new (requested : UInt16) (now : UInt64) :
    new.checkStart requested now = if requested > 0 then recorded now [] else new := rfl

/-- A capture that runs is not started again. -/
theorem checkStart_recorded (requested : UInt16) :
    (recorded start ts).checkStart requested now = recorded start ts := rfl

/-- An idle capture records nothing. -/
theorem recordChunk_new (now : UInt64) (dir : Direction) (data : List UInt8) :
    new.recordChunk now dir data = (false, new) := rfl

/-- A capture records the chunk. -/
theorem recordChunk_recorded (start : UInt64) (ts : List Traffic) (t : Traffic) :
    (recorded start ts).recordChunk t.now t.dir t.data =
      (t.now - start ≥ sniffMaxDurationUs ||
          2 * (Traffic.bytes (ts ++ [t])).length ≥ sniffMaxTotalHexLen,
        recorded start (ts ++ [t])) := by
  have hlength : 2 * (Traffic.bytes ts).length + (toHex t.data).utf8ByteSize =
      2 * (Traffic.bytes (ts ++ [t])).length := by
    rw [utf8ByteSize_toHex, Traffic.bytes_append, List.length_append, Nat.mul_add]
    simp [Traffic.bytes]
  have hchunks : ts.map (Traffic.chunk start) ++ [t.chunk start] =
      (ts ++ [t]).map (Traffic.chunk start) := by rw [List.map_append, List.map_singleton]
  simp only [recordChunk, recorded, Bool.not_true, Bool.false_eq_true, if_false, hlength]
  rw [← hchunks]
  rfl

/-- A capture that goes on ends with the chunk exactly when it does not go on behind it. -/
theorem recordChunk_eq_false_iff (h : GoesOn start ts) (t : Traffic) :
    ((recorded start ts).recordChunk t.now t.dir t.data).1 = false ↔ GoesOn start (ts ++ [t]) := by
  rw [recordChunk_recorded, GoesOn, Bool.or_eq_false_iff, decide_eq_false_iff_not,
    decide_eq_false_iff_not, ge_iff_le, ge_iff_le, Nat.not_le, UInt64.not_le]
  constructor
  · rintro ⟨htime, hlength⟩
    refine ⟨fun t' ht' => ?_, hlength⟩
    rcases List.mem_append.1 ht' with ht' | ht'
    · exact h.1 t' ht'
    · rwa [List.mem_singleton.1 ht']
  · rintro ⟨htime, hlength⟩
    exact ⟨htime t (List.mem_append_right _ List.mem_cons_self), hlength⟩

/-- A capture that ends gives the document of its chunks. -/
theorem finish_recorded (now : UInt64) :
    (recorded start ts).finish now =
      some (buildSniffJson (ts.map (Traffic.chunk start)) (now - start), new) := rfl

end SniffState

/-! ## What the tool reads -/

end Launa.App

namespace Launa.Xtask

open Json

/-- What is read of a value of the array of chunks, if it is an array of three elements. -/
def chunkValue : Value → Option ChunkValue
  | .array (dir :: tsUs :: hex :: _) =>
    some ⟨dir.asStr.map String.ofList, tsUs.asU64, hex.asStr.map String.ofList⟩
  | _ => none

/-- The chunks of a document in the format of chunks, as `handle_json_sniff` takes them out. -/
def chunksArr (json : Value) : Option (List (Option ChunkValue)) :=
  ((json.get "chunks").bind Value.asArray).map (List.map chunkValue)

end Launa.Xtask

namespace Launa.App

open Json Mqtt Protocol Xtask

/-- The value of a chunk in the document. -/
def Traffic.value (start : UInt64) (t : Traffic) : Value :=
  .array [.text [t.dir.letter], .scalar (.number ((t.now - start).toNat : ℕ)),
    .text (toHex t.data).toList]

/-- The document of a capture. -/
def captureValue (start captureUs : UInt64) (ts : List Traffic) : Value :=
  .object [("capture_us".toList, .scalar (.number (captureUs.toNat : ℕ))),
    ("chunks".toList, .array (ts.map (Traffic.value start)))]

/-- Hexadecimal digits need no escapes. -/
theorem all_isPlain_toHex (bs : List UInt8) : (toHex bs).toList.all isPlain = true := by
  have hchars : (hexChars.all isPlain) = true := by decide
  rw [List.all_eq_true, toHex, String.toList_ofList]
  intro c hc
  obtain ⟨b, -, hb⟩ := List.mem_flatMap.1 hc
  exact List.all_eq_true.1 hchars c (mem_hexChars_of_mem_hexPair hb)

/-- A chunk is spelled as its value. -/
theorem spellsValue_chunk (start : UInt64) (t : Traffic) :
    SpellsValue (t.chunk start).text (t.value start) := by
  have hletter : [t.dir.letter].all isPlain = true := by cases t.dir <;> decide
  have harray := spellsValue_tight [
      ('"' :: ([t.dir.letter] ++ ['"']), .text [t.dir.letter]),
      (natText (t.now - start).toNat, .scalar (.number ((t.now - start).toNat : ℕ))),
      ('"' :: ((toHex t.data).toList ++ ['"']), .text (toHex t.data).toList)] (by
    intro i hi
    simp only [List.mem_cons, List.not_mem_nil, or_false] at hi
    rcases hi with rfl | rfl | rfl
    · exact spellsValue_body (.plain _ hletter)
    · exact spellsValue_nat _
    · exact spellsValue_body (.plain _ (all_isPlain_toHex _)))
  have htext : (t.chunk start).text = '[' :: ([','].intercalate
      ['"' :: ([t.dir.letter] ++ ['"']), natText (t.now - start).toNat,
        '"' :: ((toHex t.data).toList ++ ['"'])] ++ [']']) := by
    simp [RawChunk.text, Traffic.chunk, List.intercalate]
  rw [htext]
  exact harray

/-- The members of the document. -/
def captureProperties (start captureUs : UInt64) (ts : List Traffic) : List Property :=
  [⟨"capture_us".toList, natText captureUs.toNat, .scalar (.number (captureUs.toNat : ℕ))⟩,
    ⟨"chunks".toList, '[' :: ([','].intercalate (ts.map fun t => (t.chunk start).text) ++ [']']),
      .array (ts.map (Traffic.value start))⟩]

/-- The document is printed as its properties. -/
theorem buildSniffJson_eq (start captureUs : UInt64) (ts : List Traffic) :
    buildSniffJson (ts.map (Traffic.chunk start)) captureUs =
      printProperties (captureProperties start captureUs ts) := by
  have hopen : "\x7b\"capture_us\":".toList =
      '{' :: '"' :: ("capture_us".toList ++ ['"', ':']) := by decide
  have hchunks : ",\"chunks\":[".toList = ',' :: '"' :: ("chunks".toList ++ ['"', ':', '[']) := by
    decide
  have hclose : "]\x7d".toList = [']', '}'] := by decide
  unfold buildSniffJson printProperties captureProperties
  rw [hopen, hchunks, hclose, List.map_cons, List.map_cons, List.map_nil,
    List.intercalate_cons_cons, List.intercalate_singleton]
  unfold Property.text
  simp only [List.map_map, Function.comp_def, List.append_assoc, List.cons_append, List.nil_append]

/-- The properties of a capture are legal. -/
theorem legal_captureProperties (start captureUs : UInt64) (ts : List Traffic) :
    ∀ p ∈ captureProperties start captureUs ts, p.Legal := by
  have hchunks := spellsValue_tight
    (ts.map fun t => ((t.chunk start).text, t.value start)) (by
      intro i hi
      obtain ⟨t, -, rfl⟩ := List.mem_map.1 hi
      exact spellsValue_chunk start t)
  rw [List.map_map, List.map_map] at hchunks
  intro p hp
  rw [captureProperties, List.mem_cons, List.mem_singleton] at hp
  have hus : "capture_us".toList.all isPlain = true := by decide
  have hname : "chunks".toList.all isPlain = true := by decide
  rcases hp with rfl | rfl
  · exact ⟨hus, spellsValue_nat _⟩
  · exact ⟨hname, hchunks⟩

/-- The document is spelled as JSON has it. -/
theorem spellsValue_buildSniffJson (start captureUs : UInt64) (ts : List Traffic) :
    SpellsValue (buildSniffJson (ts.map (Traffic.chunk start)) captureUs)
      (captureValue start captureUs ts) := by
  rw [buildSniffJson_eq]
  exact spells_printProperties (legal_captureProperties start captureUs ts)

/-- The tool takes the recorded chunks out of the document. -/
theorem chunksArr_captureValue (start captureUs : UInt64) (ts : List Traffic) :
    chunksArr (captureValue start captureUs ts) =
      some ((ts.map (Traffic.info start)).map ChunkInfo.value) := by
  have hletter : ∀ dir : Direction,
      String.ofList [dir.letter] = if dir = .rx then "R" else "T" := fun dir => by
    cases dir <;> rfl
  have hvalue : ∀ t : Traffic, chunkValue (t.value start) = (t.info start).value := by
    intro t
    rw [Traffic.value, chunkValue, Value.asU64_number (t.now - start).toNat_lt, ChunkInfo.value,
      Traffic.info, Value.asStr_text, Value.asStr_text, Option.map_some, Option.map_some,
      String.ofList_toList, hletter]
  have hvalues : (ts.map (Traffic.value start)).map chunkValue =
      (ts.map (Traffic.info start)).map ChunkInfo.value := by
    rw [List.map_map, List.map_map]
    exact List.map_congr_left fun t _ => hvalue t
  rw [← hvalues]
  rfl

/-- The tool shows a partition of the bytes that were recorded. -/
theorem shown_buildSniffJson (describe : Frame → String) (deviceId : String)
    (start captureUs : UInt64) (ts : List Traffic) :
    ∃ json entries pieces,
      SpellsValue (buildSniffJson (ts.map (Traffic.chunk start)) captureUs) json ∧
      chunksArr json = some ((ts.map (Traffic.info start)).map ChunkInfo.value) ∧
      handleChunksFormat describe deviceId ((ts.map (Traffic.info start)).map ChunkInfo.value) =
        some entries ∧
      Partition describe (Traffic.bytes ts) entries pieces := by
  obtain ⟨entries, hentries, hpartition⟩ :=
    partition_handleChunksFormat describe deviceId (ts.map (Traffic.info start))
  rw [Traffic.flatMap_data_info] at hpartition
  exact ⟨_, entries, _, spellsValue_buildSniffJson start captureUs ts,
    chunksArr_captureValue start captureUs ts, hentries, hpartition⟩

end Launa.App
