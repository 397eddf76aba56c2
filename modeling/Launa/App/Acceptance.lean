import Launa.App.FailedUpdate

/-!
# What a download that is accepted has shown

`download` ends before `finalize` with the whole response written: its header section is what is up
to the first empty line, wherever the reads cut it, and its body is the rest (`download_body`). The
checks on the way do not amount to the integrity of the download: the length of the body is not
compared with `Content-Length`, a malformed `crc=` parameter counts as none, and the status field
may continue after `200`. `Complete` is the condition on the URL and the response under which they
do (`faithful_iff`).

Which downloads reach `finalize` at all is `Accepted` where the flash does not fail
(`download_accepted`), so that the downloads with integrity are known from their input
(`download_faithful_iff`).
-/

namespace Launa.App

open Stateful Checked Nor Ota EspOta EspOtaFlash

/-! ## The response -/

/-- The bytes read until the stream is closed or fails. -/
def received : List (Option Segment) → List UInt8
  | [] => []
  | none :: _ => []
  | some seg :: reads => if seg.val.isEmpty then [] else seg.val ++ received reads

/-- The bytes of the response. -/
def Network.response (net : Network) : List UInt8 := received net.reads

/-- The header section of a response, with the empty line that ends it. -/
def headerSection (response : List UInt8) : List UInt8 :=
  match findHeaderEnd response with
  | some pos => response.take (pos + 4)
  | none => response

/-- The body of a response. -/
def bodyOf (response : List UInt8) : List UInt8 :=
  match findHeaderEnd response with
  | some pos => response.drop (pos + 4)
  | none => []

/-- The first line of a response. -/
def statusLine (response : List UInt8) : List UInt8 :=
  response.takeWhile fun b => b ≠ 0x0D && b ≠ 0x0A

/-- The field of a line between its first space and the next one, or the end. -/
def secondField (line : List UInt8) : List UInt8 :=
  ((line.dropWhile (· ≠ 0x20)).drop 1).takeWhile (· ≠ 0x20)

/-- The status of the response is 200. -/
def StatusIs200 (response : List UInt8) : Prop :=
  (ascii "HTTP/1.").isPrefixOf (statusLine response) = true ∧
    secondField (statusLine response) = ascii "200"

/-- The end of the headers is where the empty line is. -/
theorem findHeaderEnd_drop {xs : List UInt8} {pos : ℕ} (h : findHeaderEnd xs = some pos) :
    ascii "\r\n\r\n" <+: xs.drop pos := by
  induction xs generalizing pos with
  | nil => cases h
  | cons x xs ih =>
    rw [findHeaderEnd] at h
    by_cases hpre : (ascii "\r\n\r\n").isPrefixOf (x :: xs)
    · rw [if_pos hpre] at h
      cases h
      exact List.isPrefixOf_iff_prefix.1 hpre
    · rw [if_neg hpre, Option.map_eq_some_iff] at h
      obtain ⟨pos', hpos', rfl⟩ := h
      exact ih hpos'

/-- The end of the header is found with its four bytes. -/
theorem findHeaderEnd_le {xs : List UInt8} {pos : ℕ} (h : findHeaderEnd xs = some pos) :
    pos + 4 ≤ xs.length := by
  have hlen := (findHeaderEnd_drop h).length_le
  rw [List.length_drop, show (ascii "\r\n\r\n").length = 4 from by decide] at hlen
  omega

/-- Finding the end of the headers does not depend on what follows. -/
theorem findHeaderEnd_append {xs : List UInt8} {pos : ℕ} (h : findHeaderEnd xs = some pos)
    (ys : List UInt8) : findHeaderEnd (xs ++ ys) = some pos := by
  induction xs generalizing pos with
  | nil => cases h
  | cons x xs ih =>
    have hle := findHeaderEnd_le h
    rw [findHeaderEnd] at h
    rw [List.cons_append, findHeaderEnd, ← List.cons_append]
    by_cases hpre : (ascii "\r\n\r\n").isPrefixOf (x :: xs)
    · rw [if_pos hpre] at h
      rw [List.isPrefixOf_iff_prefix] at hpre
      rw [if_pos (List.isPrefixOf_iff_prefix.2 (hpre.trans (List.prefix_append (x :: xs) ys))), h]
    · rw [if_neg hpre, Option.map_eq_some_iff] at h
      obtain ⟨pos', hpos', rfl⟩ := h
      have hpre' : ¬ (ascii "\r\n\r\n").isPrefixOf (x :: xs ++ ys) := by
        rw [List.isPrefixOf_iff_prefix] at hpre ⊢
        intro hlong
        refine hpre (List.prefix_of_prefix_length_le hlong (List.prefix_append (x :: xs) ys) ?_)
        exact Nat.le_trans (by decide) (Nat.le_trans (Nat.le_add_left 4 _) hle)
      rw [if_neg hpre', ih hpos']
      rfl

/-- What the first phase has read, and what is left, is the response. -/
theorem readHeaders_received {reads rest : List (Option Segment)} {buf headerBuf : List UInt8}
    {pos : ℕ} (h : readHeaders reads buf = some (headerBuf, pos, rest)) :
    findHeaderEnd headerBuf = some pos ∧ headerBuf ++ received rest = buf ++ received reads := by
  induction reads generalizing buf with
  | nil => cases h
  | cons read reads ih =>
    cases read with
    | none => cases h
    | some seg =>
      rw [readHeaders] at h
      by_cases hempty : seg.val.isEmpty
      · rw [if_pos hempty] at h
        cases h
      rw [if_neg hempty] at h
      rw [received, if_neg hempty, ← List.append_assoc]
      split at h
      · cases h
      cases hfind : findHeaderEnd (buf ++ seg.val) with
      | none =>
        rw [hfind] at h
        exact ih h
      | some pos' =>
        rw [hfind] at h
        cases h
        exact ⟨hfind, rfl⟩

/-- The sections of a response whose headers end in its first part. -/
theorem sections_eq {headerBuf rest : List UInt8} {pos : ℕ}
    (h : findHeaderEnd headerBuf = some pos) :
    headerSection (headerBuf ++ rest) = headerBuf.take (pos + 4) ∧
      bodyOf (headerBuf ++ rest) = headerBuf.drop (pos + 4) ++ rest := by
  have hle := findHeaderEnd_le h
  rw [headerSection, bodyOf, findHeaderEnd_append h]
  exact ⟨List.take_append_of_le_length hle, List.drop_append_of_le_length hle⟩

/-- The first line of a response ends in the part that its headers end in. -/
theorem statusLine_append {headerBuf : List UInt8} {pos : ℕ}
    (h : findHeaderEnd headerBuf = some pos) (rest : List UInt8) :
    statusLine (headerBuf ++ rest) = statusLine headerBuf := by
  have hmem : (0x0D : UInt8) ∈ headerBuf := by
    have hpre := (findHeaderEnd_drop h).subset (show (0x0D : UInt8) ∈ ascii "\r\n\r\n" by decide)
    exact List.mem_of_mem_drop hpre
  unfold statusLine
  rw [List.takeWhile_append, if_neg]
  intro hlen
  rw [← (List.takeWhile_prefix _).eq_of_length hlen] at hmem
  exact absurd (List.all_eq_true.1 List.all_takeWhile _ hmem) (by decide)

/-- What follows the first `b` of a list, as cut by its position. -/
theorem drop_idxOf {b : UInt8} {xs : List UInt8} {pos : ℕ} (h : xs.idxOf? b = some pos) :
    xs.drop (pos + 1) = (xs.dropWhile (· ≠ b)).drop 1 := by
  induction xs generalizing pos with
  | nil => cases h
  | cons x xs ih =>
    rw [List.idxOf?_cons] at h
    by_cases hx : x = b
    · rw [if_pos (by simpa using hx)] at h
      cases h
      rw [List.dropWhile_cons_of_neg (by simpa using hx)]
    · rw [if_neg (by simpa using hx), Option.map_eq_some_iff] at h
      obtain ⟨pos', hpos', rfl⟩ := h
      rw [List.dropWhile_cons_of_pos (by simpa using hx), ← ih hpos', List.drop_succ_cons]

/-- The second field of a line is a prefix of what follows the first space of the data that the line
begins. -/
theorem secondField_prefix {line data : List UInt8} {pos : ℕ} (hline : line <+: data)
    (hpos : data.idxOf? 0x20 = some pos) : secondField line <+: data.drop (pos + 1) := by
  obtain ⟨rest, rfl⟩ := hline
  rw [drop_idxOf hpos, List.dropWhile_append]
  refine (List.takeWhile_prefix _).trans ?_
  split
  · rename_i hempty
    rw [List.isEmpty_iff.1 hempty]
    exact List.nil_prefix
  · rename_i hne
    cases hdrop : line.dropWhile (· ≠ 0x20) with
    | nil => exact absurd (by rw [hdrop]; rfl) hne
    | cons b rest' => exact List.prefix_append rest' rest

/-- A response that passes `validate_http_status` has status 200 exactly when its status field is
three bytes long. -/
theorem statusIs200_iff {headerBuf : List UInt8} (h : validateHttpStatus headerBuf = true) :
    StatusIs200 headerBuf ↔ (secondField (statusLine headerBuf)).length = 3 := by
  unfold validateHttpStatus at h
  split at h
  · cases h
  rename_i hversion
  rw [Bool.not_eq_true', Bool.not_eq_false] at hversion
  cases hspace : headerBuf.idxOf? 0x20 with
  | none =>
    rw [hspace] at h
    cases h
  | some pos =>
    rw [hspace] at h
    have hcode : (headerBuf.drop (pos + 1)).take 3 = ascii "200" := beq_iff_eq.1 h
    have hfield : secondField (statusLine headerBuf) <+: headerBuf.drop (pos + 1) :=
      secondField_prefix (List.takeWhile_prefix _) hspace
    refine ⟨fun hstatus => by rw [hstatus.2]; decide, fun hlen => ⟨?_, ?_⟩⟩
    · -- No byte of the version ends the line.
      obtain ⟨rest, hrest⟩ := List.isPrefixOf_iff_prefix.1 hversion
      rw [List.isPrefixOf_iff_prefix, statusLine, ← hrest,
        List.takeWhile_append_of_pos (by decide +kernel)]
      exact List.prefix_append _ _
    · rw [← hcode, ← hlen]
      exact List.prefix_iff_eq_take.1 hfield

/-! ## What is written -/

/-- The segments read until the stream is closed, and `none` when a read fails before that. -/
def segmentsOf : List (Option Segment) → Option (List (List UInt8))
  | [] => some []
  | none :: _ => none
  | some seg :: reads =>
    if seg.val.isEmpty then some [] else (segmentsOf reads).map (seg.val :: ·)

/-- The chunks that a response is written in: the start of the body that came with the headers,
unless it is empty, and the segments after it. -/
def chunksOf (body : List UInt8) (segments : List (List UInt8)) : List (List UInt8) :=
  if body.isEmpty then segments else body :: segments

/-- The chunks are not empty, and none is longer than the header buffer. -/
def Chunks (chunks : List (List UInt8)) : Prop :=
  ∀ chunk ∈ chunks, chunk ≠ [] ∧ chunk.length ≤ maxHeaderSize

/-- The segments of a stream that is closed are what is received of it. -/
theorem segmentsOf_received {reads : List (Option Segment)} {segments : List (List UInt8)}
    (h : segmentsOf reads = some segments) :
    segments.flatten = received reads ∧ Chunks segments := by
  induction reads generalizing segments with
  | nil =>
    cases h
    exact ⟨rfl, nofun⟩
  | cons read reads ih =>
    cases read with
    | none => cases h
    | some seg =>
      rw [segmentsOf] at h
      rw [received]
      by_cases hempty : seg.val.isEmpty
      · rw [if_pos hempty] at h ⊢
        cases h
        exact ⟨rfl, nofun⟩
      rw [if_neg hempty, Option.map_eq_some_iff] at h
      obtain ⟨segments', hsegments, rfl⟩ := h
      obtain ⟨hflatten, hchunks⟩ := ih hsegments
      refine ⟨by rw [if_neg hempty, List.flatten_cons, hflatten], ?_⟩
      rintro chunk (_ | ⟨_, hmem⟩)
      · exact ⟨by simpa using hempty, Nat.le_trans seg.property (by decide)⟩
      · exact hchunks chunk hmem

/-- The chunks are the body and what was read behind it. -/
theorem chunksOf_flatten (body : List UInt8) (segments : List (List UInt8)) :
    (chunksOf body segments).flatten = body ++ segments.flatten := by
  unfold chunksOf
  split
  · rename_i hempty
    rw [List.isEmpty_iff.1 hempty, List.nil_append]
  · rw [List.flatten_cons]

/-- No chunk is too long or empty. -/
theorem Chunks.chunksOf {body : List UInt8} {segments : List (List UInt8)} (h : Chunks segments)
    (hbody : body.length ≤ maxHeaderSize) : Chunks (chunksOf body segments) := by
  unfold App.chunksOf
  split
  · exact h
  · rename_i hne
    rintro chunk (_ | ⟨_, hmem⟩)
    · exact ⟨by simpa using hne, hbody⟩
    · exact h chunk hmem

/-- The header buffer does not outgrow its array. -/
theorem readHeaders_length {reads rest : List (Option Segment)} {buf headerBuf : List UInt8}
    {pos : ℕ}
    (h : readHeaders reads buf = some (headerBuf, pos, rest)) :
    headerBuf.length ≤ maxHeaderSize := by
  induction reads generalizing buf with
  | nil => cases h
  | cons read reads ih =>
    cases read with
    | none => cases h
    | some seg =>
      rw [readHeaders] at h
      split at h
      · cases h
      split at h
      · cases h
      rename_i hfits
      cases hfind : findHeaderEnd (buf ++ seg.val) with
      | none =>
        rw [hfind] at h
        exact ih h
      | some pos' =>
        rw [hfind] at h
        cases h
        rw [List.length_append]
        exact Nat.le_of_not_lt hfits

section Driver

variable {S : Type} [NorFlash S] {o o' : EspOtaFlash S} {reads : List (Option Segment)}

/-- The second phase ends with the stream closed exactly when that is how the stream ends and all
its segments are written. -/
theorem writeBody_eq_true : writeBody reads o = .ok true o' ↔
    ∃ segments, segmentsOf reads = some segments ∧
      segments.forM EspOtaFlash.write o = .ok () o' := by
  induction reads generalizing o with
  | nil =>
    constructor
    · intro h
      cases h
      exact ⟨[], rfl, rfl⟩
    · rintro ⟨segments, ⟨⟩, h⟩
      cases h
      rfl
  | cons read reads ih =>
    cases read with
    | none => exact ⟨fun h => (nomatch h), fun ⟨_, h, _⟩ => (nomatch h)⟩
    | some seg =>
      rw [writeBody, segmentsOf]
      by_cases hempty : seg.val.isEmpty
      · rw [if_pos hempty, if_pos hempty]
        constructor
        · intro h
          cases h
          exact ⟨[], rfl, rfl⟩
        · rintro ⟨segments, ⟨⟩, h⟩
          cases h
          rfl
      rw [if_neg hempty, if_neg hempty]
      constructor
      · intro h
        obtain ⟨result, o1, hwrite, h⟩ := bind_eq_ok.1 h
        cases result with
        | none => cases h
        | some _ =>
          obtain ⟨segments, hsegments, hrest⟩ := ih.1 h
          exact ⟨seg.val :: segments, by rw [hsegments]; rfl,
            (bind_ok (attempt_eq_some.1 hwrite)).trans hrest⟩
      · rintro ⟨segments, hsegments, h⟩
        obtain ⟨segments', hsegments', rfl⟩ := Option.map_eq_some_iff.1 hsegments
        obtain ⟨_, o1, hwrite, hrest⟩ := bind_eq_ok.1 h
        exact (bind_ok (attempt_ok hwrite)).trans (ih.2 ⟨segments', hsegments', hrest⟩)

/-- A response is written exactly if every read succeeds and every chunk is written. -/
theorem writeResponse_eq_true {body : List UInt8} : writeResponse body reads o = .ok true o' ↔
    ∃ segments, segmentsOf reads = some segments ∧
      (chunksOf body segments).forM EspOtaFlash.write o = .ok () o' := by
  unfold writeResponse chunksOf
  by_cases hempty : body.isEmpty
  · simp only [if_pos hempty]
    exact writeBody_eq_true
  simp only [if_neg hempty]
  constructor
  · intro h
    obtain ⟨result, o1, hwrite, h⟩ := bind_eq_ok.1 h
    cases result with
    | none => cases h
    | some _ =>
      obtain ⟨segments, hsegments, hrest⟩ := writeBody_eq_true.1 h
      exact ⟨segments, hsegments, (bind_ok (attempt_eq_some.1 hwrite)).trans hrest⟩
  · rintro ⟨segments, hsegments, h⟩
    obtain ⟨_, o1, hwrite, hrest⟩ := bind_eq_ok.1 h
    exact (bind_ok (attempt_ok hwrite)).trans (writeBody_eq_true.2 ⟨segments, hsegments, hrest⟩)

omit [NorFlash S] in
/-- The check passes exactly if there is no CRC to meet or it is met. -/
theorem checkCrc_eq_true {expectedCrc : Option UInt32} : checkCrc expectedCrc o = .ok true o' ↔
    o' = o ∧ ∀ crc, expectedCrc = some crc → o.firmwareCrc = crc := by
  cases expectedCrc with
  | none => exact ⟨fun h => by cases h; exact ⟨rfl, nofun⟩, fun ⟨h, _⟩ => by rw [h]; rfl⟩
  | some crc =>
    constructor
    · intro h
      obtain ⟨result, o1, hverify, h⟩ := bind_eq_ok.1 h
      cases result with
      | none => cases h
      | some _ =>
        cases h
        obtain hverify := attempt_eq_some.1 hverify
        unfold verifyHash at hverify
        rw [bind_ok (get_apply o)] at hverify
        by_cases heq : o.firmwareCrc = crc
        · rw [if_neg (not_not_intro heq)] at hverify
          cases hverify
          exact ⟨rfl, fun crc' h => by cases h; exact heq⟩
        · rw [if_pos heq] at hverify
          cases hverify
    · rintro ⟨rfl, h⟩
      have hverify : verifyHash crc o' = .ok () o' := by
        unfold verifyHash
        rw [bind_ok (get_apply o'), if_neg (not_not_intro (h crc rfl))]
        rfl
      exact bind_ok (attempt_ok hverify)

/-- `downloadBody` reaches `finalize` exactly when nothing on the way fails. -/
theorem downloadBody_eq_none {expectedCrc : Option UInt32} {headerBuf : List UInt8} {pos : ℕ} :
    downloadBody expectedCrc headerBuf pos reads o = .ok none o' ↔
      (parseContentLength headerBuf).any (· > appPartitionSize) = false ∧
        ∃ segments, segmentsOf reads = some segments ∧
          (∃ o1, EspOtaFlash.begin o = .ok () o1 ∧
            (chunksOf (headerBuf.drop (pos + 4)) segments).forM EspOtaFlash.write o1 = .ok () o') ∧
          ∀ crc, expectedCrc = some crc → o'.firmwareCrc = crc := by
  -- A rollback does not reach `finalize`.
  have hroll : ∀ {o1 : EspOtaFlash S},
      (do return some (← otaRollback) : OtaM (EspOtaFlash S) (Option Outcome)) o1 ≠
        .ok none o' := by
    intro o1 h
    obtain ⟨out, o2, -, h⟩ := bind_eq_ok.1 h
    cases h
  unfold downloadBody
  constructor
  · intro h
    obtain ⟨result, o1, hbegin, h⟩ := bind_eq_ok.1 h
    cases result with
    | none => cases h
    | some _ =>
      dsimp only at h
      split at h
      · exact absurd h hroll
      rename_i hlength
      obtain ⟨written, o2, hwrite, h⟩ := bind_eq_ok.1 h
      split at h
      · exact absurd h hroll
      rename_i hwritten
      rw [Bool.not_eq_true', Bool.not_eq_false] at hwritten
      subst hwritten
      obtain ⟨verified, o3, hcheck, h⟩ := bind_eq_ok.1 h
      split at h
      · exact absurd h hroll
      rename_i hverified
      rw [Bool.not_eq_true', Bool.not_eq_false] at hverified
      subst hverified
      cases h
      obtain ⟨segments, hsegments, hwrites⟩ := writeResponse_eq_true.1 hwrite
      obtain ⟨rfl, hcrc⟩ := checkCrc_eq_true.1 hcheck
      exact ⟨by simpa using hlength, segments, hsegments,
        ⟨o1, attempt_eq_some.1 hbegin, hwrites⟩, hcrc⟩
  · rintro ⟨hlength, segments, hsegments, ⟨o1, hbegin, hwrites⟩, hcrc⟩
    refine (bind_ok (attempt_ok hbegin)).trans ?_
    dsimp only
    rw [if_neg (by rw [hlength]; decide)]
    refine (bind_ok (writeResponse_eq_true.2 ⟨segments, hsegments, hwrites⟩)).trans ?_
    refine (bind_ok (checkCrc_eq_true.2 ⟨rfl, hcrc⟩)).trans rfl

/-- `download` reaches `finalize` exactly when the response is there, its headers pass, and
`downloadBody` does. -/
theorem download_eq_none {url : List Char} {net : Network} :
    download url net o = .ok none o' ↔
      (parseHttpUrl url).isSome ∧ net.connects = true ∧
        ∃ headerBuf pos reads, readHeaders net.reads [] = some (headerBuf, pos, reads) ∧
          validateHttpStatus headerBuf = true ∧
          downloadBody (parseCrcFromUrl url) headerBuf pos reads o = .ok none o' := by
  unfold download
  cases hurl : parseHttpUrl url with
  | none => exact ⟨fun h => (nomatch h), fun ⟨h, _⟩ => (nomatch h)⟩
  | some parts =>
    cases hconnects : net.connects with
    | false => exact ⟨fun h => (nomatch h), fun ⟨_, h, _⟩ => (nomatch h)⟩
    | true =>
      cases hheaders : readHeaders net.reads [] with
      | none => exact ⟨fun h => (nomatch h), fun ⟨_, _, _, _, _, h, _⟩ => (nomatch h)⟩
      | some headers =>
        obtain ⟨headerBuf, pos, reads⟩ := headers
        cases hstatus : validateHttpStatus headerBuf with
        | false =>
          constructor
          · intro h
            simp only [hstatus, Bool.not_true, Bool.false_eq_true, if_false, Bool.not_false,
              if_true] at h
            cases h
          · rintro ⟨-, -, _, _, _, ⟨⟩, h, -⟩
            rw [hstatus] at h
            cases h
        | true =>
          simp only [hstatus, Bool.not_true, Bool.false_eq_true, if_false]
          constructor
          · intro h
            exact ⟨rfl, trivial, headerBuf, pos, reads, rfl, hstatus, h⟩
          · rintro ⟨-, -, _, _, _, ⟨⟩, -, h⟩
            exact h

/-- Writing chunks sums and counts their bytes. -/
theorem writes_eq_ok {chunks : List (List UInt8)} (hchunks : Chunks chunks)
    (h : chunks.forM EspOtaFlash.write o = .ok () o') :
    o'.firmwareCrc = crc32Update o.firmwareCrc chunks.flatten ∧
      o'.bytesWritten = o.bytesWritten + chunks.flatten.length := by
  induction chunks generalizing o with
  | nil =>
    cases h
    exact ⟨rfl, rfl⟩
  | cons chunk chunks ih =>
    obtain ⟨hne, hlen⟩ := hchunks chunk List.mem_cons_self
    obtain ⟨_, o1, hwrite, hrest⟩ := bind_eq_ok.1 h
    obtain ⟨-, hcrc, hbytes⟩ := write_eq_ok hne hwrite
    obtain ⟨hcrc', hbytes'⟩ := ih (fun c hc => hchunks c (List.mem_cons_of_mem _ hc)) hrest
    have hmax : maxHeaderSize = 4096 := rfl
    rw [Nat.mod_eq_of_lt (by omega)] at hbytes
    rw [List.flatten_cons, crc32Update_append, List.length_append]
    exact ⟨by rw [hcrc', hcrc], by rw [hbytes', hbytes, Nat.add_assoc]⟩

/-- An update that begins was not in progress and starts afresh. -/
theorem begin_eq_ok (h : EspOtaFlash.begin o = .ok () o') :
    o.inProgress = false ∧ o'.firmwareCrc = 0xFFFFFFFF ∧ o'.bytesWritten = 0 ∧
      o'.firstChunkValidated = false := by
  unfold EspOtaFlash.begin at h
  rw [bind_ok (get_apply o)] at h
  by_cases hprog : o.inProgress
  · rw [if_pos hprog] at h
    cases h
  · rw [if_neg hprog] at h
    obtain ⟨_, o1, -, h⟩ := bind_eq_ok.1 h
    cases h
    exact ⟨by simpa using hprog, rfl, rfl, rfl⟩

/-- A download that reaches `finalize` has written the whole body of the response, its checksum is
that of the body, and the checks of the status and of a well-formed `crc=` parameter have passed. -/
theorem download_body {url : List Char} {net : Network} (h : download url net o = .ok none o') :
    (StatusIs200 net.response ↔ (secondField (statusLine net.response)).length = 3) ∧
      o'.bytesWritten = (bodyOf net.response).length ∧
      o'.firmwareCrc = crc32 (bodyOf net.response) ∧
      ∀ crc, parseCrcFromUrl url = some crc → o'.firmwareCrc = crc := by
  obtain ⟨-, -, headerBuf, pos, reads, hheaders, hstatus, h⟩ := download_eq_none.1 h
  obtain ⟨-, segments, hsegments, ⟨o1, hbegin, hwrites⟩, hcrc⟩ := downloadBody_eq_none.1 h
  obtain ⟨hend, hresponse⟩ := readHeaders_received hheaders
  obtain ⟨hflatten, hchunks⟩ := segmentsOf_received hsegments
  have hresponse' : net.response = headerBuf ++ received reads := hresponse.symm
  have hbody : (chunksOf (headerBuf.drop (pos + 4)) segments).flatten = bodyOf net.response := by
    rw [chunksOf_flatten, hflatten, hresponse', (sections_eq hend).2]
  have hlen : (headerBuf.drop (pos + 4)).length ≤ maxHeaderSize := by
    have := readHeaders_length hheaders
    rw [List.length_drop]
    omega
  obtain ⟨-, hcrc0, hbytes0, -⟩ := begin_eq_ok hbegin
  obtain ⟨hsum, hcount⟩ := writes_eq_ok (hchunks.chunksOf hlen) hwrites
  rw [hbody, hcrc0] at hsum
  rw [hbody, hbytes0, Nat.zero_add] at hcount
  refine ⟨?_, hcount, hsum, hcrc⟩
  have hline := statusLine_append hend (received reads)
  rw [StatusIs200, hresponse', hline]
  exact statusIs200_iff hstatus

end Driver

/-! ## Integrity -/

/-- A download has integrity: the status is 200, as many bytes are written as a `Content-Length`
says, and a `crc=` parameter is well formed and the CRC-32 of the body. -/
structure Faithful {S : Type} (url : List Char) (response : List UInt8) (o : EspOtaFlash S) :
    Prop where
  status : StatusIs200 response
  length : (contentLengthStart (headerSection response)).isSome →
    parseContentLength (headerSection response) = some o.bytesWritten
  crc : (crcParam url).isSome → parseCrcFromUrl url = some (crc32 (bodyOf response))

/-- What the checks leave open: the status field is no longer than `200`, a `Content-Length` is the
length of the body, and a `crc=` parameter is well formed. -/
structure Complete (url : List Char) (response : List UInt8) : Prop where
  status : (secondField (statusLine response)).length = 3
  length : (contentLengthStart (headerSection response)).isSome →
    parseContentLength (headerSection response) = some (bodyOf response).length
  crc : (crcParam url).isSome → (parseCrcFromUrl url).isSome

/-- A download that reaches `finalize` has integrity exactly when the response and the URL are
complete. -/
theorem faithful_iff {S : Type} [NorFlash S] {url : List Char} {net : Network}
    {o o' : EspOtaFlash S} (h : download url net o = .ok none o') :
    Faithful url net.response o' ↔ Complete url net.response := by
  obtain ⟨hstatus, hbytes, hsum, hcrc⟩ := download_body h
  constructor
  · rintro ⟨h1, h2, h3⟩
    exact ⟨hstatus.1 h1, fun hsome => by rw [h2 hsome, hbytes],
      fun hsome => by rw [h3 hsome]; rfl⟩
  · rintro ⟨h1, h2, h3⟩
    refine ⟨hstatus.2 h1, fun hsome => by rw [h2 hsome, hbytes], fun hsome => ?_⟩
    obtain ⟨crc, hparse⟩ := Option.isSome_iff_exists.1 (h3 hsome)
    rw [hparse, ← hsum, hcrc crc hparse]

/-! ## Acceptance -/

/-- The chunks fit a partition of `size` bytes of which `n` are received. The bytes that are not a
whole word yet do not count. -/
def Fits (size : ℕ) : ℕ → List (List UInt8) → Prop
  | _, [] => True
  | n, chunk :: chunks => flushed n + chunk.length ≤ size ∧ Fits size (n + chunk.length) chunks

/-- An idle updater on a chip that does not fail accepts the download into a partition of `size`
bytes. -/
structure Accepted (url : List Char) (net : Network) (size : ℕ) : Prop where
  url_ok : (parseHttpUrl url).isSome
  connects : net.connects = true
  written : ∃ headerBuf pos reads segments,
    readHeaders net.reads [] = some (headerBuf, pos, reads) ∧
      validateHttpStatus headerBuf = true ∧
      (parseContentLength headerBuf).any (· > appPartitionSize) = false ∧
      segmentsOf reads = some segments ∧
      Fits size 0 (chunksOf (headerBuf.drop (pos + 4)) segments)
  magic : ∀ b, (bodyOf net.response).head? = some b → b = 0xE9
  crc : ∀ crc, parseCrcFromUrl url = some crc → crc32 (bodyOf net.response) = crc

end Launa.App

namespace Launa.EspOta.EspOtaFlash

open Stateful Checked Nor App

/-- On a healthy chip chunks are received exactly when they fit, and start with the magic byte. -/
theorem Holds.writes_iff {t : Partition} {d0 : Device geometry} {bytes : List UInt8}
    {o : EspOtaFlash (Device geometry)} (h : Holds t d0 bytes o)
    (hd : d0.HealthyOn t.offset t.stop) (hfirst : bytes = [] → o.firstChunkValidated = false)
    {chunks : List (List UInt8)} (hchunks : Chunks chunks) :
    (∃ o', chunks.forM EspOtaFlash.write o = .ok () o') ↔
      Fits t.size bytes.length chunks ∧
        (bytes = [] → ∀ b, chunks.flatten.head? = some b → b = 0xE9) := by
  induction chunks generalizing bytes o with
  | nil => exact ⟨fun _ => ⟨trivial, fun _ _ h => (nomatch h)⟩, fun _ => ⟨o, rfl⟩⟩
  | cons chunk chunks ih =>
    obtain ⟨hne, hlen⟩ := hchunks chunk List.mem_cons_self
    have hrest := fun c hc => hchunks c (List.mem_cons_of_mem chunk hc)
    have hsize := t.size_lt
    have hwords : t.size % 4 = 0 := by cases t <;> decide
    have hmax : maxHeaderSize = 4096 := rfl
    have hb := flushed_bounds bytes.length
    have hb' := flushed_bounds (bytes ++ chunk).length
    have happend : (bytes ++ chunk).length = bytes.length + chunk.length := List.length_append
    have hhead : (chunk :: chunks).flatten.head? = chunk.head? := by
      cases chunk with
      | nil => exact absurd rfl hne
      | cons b chunk => rfl
    -- The chunk passes the checks exactly when its own part of the right side holds.
    have hpasses : o.Passes chunk ↔ flushed bytes.length + chunk.length ≤ t.size ∧
        (bytes = [] → ∀ b, chunk.head? = some b → b = 0xE9) := by
      rw [Passes, h.offset, h.target_eq, Nat.mod_eq_of_lt (by omega)]
      by_cases hbytes : bytes = []
      · cases hchunk : chunk with
        | nil => exact absurd hchunk hne
        | cons b chunk =>
          simp [h.inProgress, hfirst hbytes, hbytes, and_comm]
      · simp [h.inProgress, h.validated hbytes, hbytes, hne]
    -- After the chunk the magic byte has been checked, and only the room matters.
    have hstep : ∀ o1, Holds t d0 (bytes ++ chunk) o1 →
        ((∃ o', chunks.forM EspOtaFlash.write o1 = .ok () o') ↔
          Fits t.size (bytes.length + chunk.length) chunks) := fun o1 h1 => by
      rw [ih h1 (fun hnil => absurd (List.append_eq_nil_iff.1 hnil).2 hne) hrest, happend]
      exact and_iff_left fun hnil => absurd (List.append_eq_nil_iff.1 hnil).2 hne
    rw [hhead, Fits, and_right_comm, ← hpasses]
    constructor
    · rintro ⟨o', hall⟩
      obtain ⟨_, o1, hwrite, hall⟩ := bind_eq_ok.1 hall
      have hpass := (write_eq_ok hne hwrite).1
      have hfit := (hpasses.1 hpass).1
      obtain ⟨o2, hwrite2, h2⟩ := h.write hd hpass (by omega) (by omega)
      rw [hwrite2] at hwrite
      cases hwrite
      exact ⟨hpass, (hstep _ h2).1 ⟨o', hall⟩⟩
    · rintro ⟨hpass, hfits⟩
      have hfit := (hpasses.1 hpass).1
      obtain ⟨o1, hwrite, h1⟩ := h.write hd hpass (by omega) (by omega)
      obtain ⟨o', hall⟩ := (hstep _ h1).2 hfits
      exact ⟨o', (bind_ok hwrite).trans hall⟩

end Launa.EspOta.EspOtaFlash

namespace Launa.App

open Stateful Checked Nor Ota EspOta EspOtaFlash

/-- On a chip whose target partition does not fail, a download reaches `finalize` exactly when the
updater is idle and it is accepted. -/
theorem download_accepted {url : List Char} {net : Network} {o : EspOtaFlash (Device geometry)}
    (hd : o.flash.HealthyOn o.target.offset o.target.stop) :
    (∃ o', download url net o = .ok none o') ↔
      o.inProgress = false ∧ Accepted url net o.target.size := by
  -- The chunks written are those of the response, and their bytes its body.
  have hbody : ∀ {headerBuf pos reads segments},
      readHeaders net.reads [] = some (headerBuf, pos, reads) → segmentsOf reads = some segments →
      (chunksOf (headerBuf.drop (pos + 4)) segments).flatten = bodyOf net.response ∧
        Chunks (chunksOf (headerBuf.drop (pos + 4)) segments) := by
    intro headerBuf pos reads segments hheaders hsegments
    obtain ⟨hend, hresponse⟩ := readHeaders_received hheaders
    obtain ⟨hflatten, hchunks⟩ := segmentsOf_received hsegments
    have hresponse' : net.response = headerBuf ++ received reads := hresponse.symm
    refine ⟨by rw [chunksOf_flatten, hflatten, hresponse', (sections_eq hend).2],
      hchunks.chunksOf ?_⟩
    have := readHeaders_length hheaders
    rw [List.length_drop]
    omega
  constructor
  · rintro ⟨o', h⟩
    obtain ⟨-, -, hsum, hcrc⟩ := download_body h
    obtain ⟨hurl, hconnects, headerBuf, pos, reads, hheaders, hstatus, h⟩ := download_eq_none.1 h
    obtain ⟨hlength, segments, hsegments, ⟨o1, hbegin, hwrites⟩, -⟩ := downloadBody_eq_none.1 h
    obtain ⟨hflatten, hchunks⟩ := hbody hheaders hsegments
    obtain ⟨hidle, -, -, hfirst⟩ := begin_eq_ok hbegin
    obtain ⟨o2, hbegin2, hholds, -⟩ := begin_holds hd hidle
    rw [hbegin2] at hbegin
    cases hbegin
    obtain ⟨hfits, hmagic⟩ := (hholds.writes_iff hd (fun _ => hfirst) hchunks).1 ⟨o', hwrites⟩
    rw [hflatten] at hmagic
    exact ⟨hidle, hurl, hconnects,
      ⟨headerBuf, pos, reads, segments, hheaders, hstatus, hlength, hsegments, hfits⟩,
      hmagic rfl, fun crc hparse => by rw [← hsum, hcrc crc hparse]⟩
  · rintro ⟨hidle, hurl, hconnects,
      ⟨headerBuf, pos, reads, segments, hheaders, hstatus, hlength, hsegments, hfits⟩,
      hmagic, hcrc⟩
    obtain ⟨hflatten, hchunks⟩ := hbody hheaders hsegments
    obtain ⟨o1, hbegin, hholds, -⟩ := begin_holds hd hidle
    obtain ⟨-, hcrc0, -, hfirst⟩ := begin_eq_ok hbegin
    obtain ⟨o', hwrites⟩ := (hholds.writes_iff hd (fun _ => hfirst) hchunks).2
      ⟨hfits, fun _ => by rwa [hflatten]⟩
    -- The checksum is that of the bytes received, which are the body.
    have hsum : o'.firmwareCrc = crc32 (bodyOf net.response) := by
      rw [(writes_eq_ok hchunks hwrites).1, hcrc0, hflatten]
      rfl
    exact ⟨o', download_eq_none.2 ⟨hurl, hconnects, headerBuf, pos, reads, hheaders, hstatus,
      downloadBody_eq_none.2 ⟨hlength, segments, hsegments, ⟨o1, hbegin, hwrites⟩,
        fun crc hparse => by rw [hsum, hcrc crc hparse]⟩⟩⟩

/-- A download that reaches `finalize`, on whatever chip, has integrity exactly when the response
and the URL are complete; and where the target partition does not fail, it has integrity whenever it
reaches `finalize` exactly when they are complete or it is not accepted. -/
theorem download_faithful_iff (url : List Char) (net : Network)
    (o : EspOtaFlash (Device geometry)) :
    (∀ o', download url net o = .ok none o' →
      (Faithful url net.response o' ↔ Complete url net.response)) ∧
    (o.flash.HealthyOn o.target.offset o.target.stop →
      ((∀ o', download url net o = .ok none o' → Faithful url net.response o') ↔
        (o.inProgress = false → Accepted url net o.target.size → Complete url net.response))) := by
  refine ⟨fun o' h => faithful_iff h, fun hd =>
    ⟨fun h hidle haccepted => ?_, fun h o' hready => ?_⟩⟩
  · obtain ⟨o', hready⟩ := (download_accepted hd).2 ⟨hidle, haccepted⟩
    exact (faithful_iff hready).1 (h o' hready)
  · obtain ⟨hidle, haccepted⟩ := (download_accepted hd).1 ⟨o', hready⟩
    exact (faithful_iff hready).2 (h hidle haccepted)

/-- A response in one read, with a `Content-Length` of one digit and the four bytes of a body. -/
def fourBytes (digit : Char) : List UInt8 :=
  ascii "HTTP/1.1 200 OK\r\nContent-Length: " ++ [UInt8.ofNat digit.toNat] ++
    ascii "\r\n\r\n" ++ [0xE9, 0, 0, 0]

/-- The response of four bytes fits one read. -/
theorem fourBytes_length (digit : Char) : (fourBytes digit).length ≤ httpReadBufSize := by
  simp [fourBytes, ascii, httpReadBufSize]

/-- The network that returns such a response and closes. -/
def fourBytesNetwork (digit : Char) :
    Network := ⟨true, [some ⟨fourBytes digit, fourBytes_length _⟩]⟩

/-- The response is read at once, its headers pass, and its body starts with the magic byte. -/
theorem fourBytes_headers : ∀ digit ∈ ['4', '8'],
    readHeaders (fourBytesNetwork digit).reads [] = some (fourBytes digit, 34, []) ∧
      validateHttpStatus (fourBytes digit) = true ∧
      (parseContentLength (fourBytes digit)).any (· > appPartitionSize) = false ∧
      bodyOf (fourBytesNetwork digit).response = [0xE9, 0, 0, 0] := by
  rintro _ (_ | ⟨_, _ | ⟨_, ⟨⟩⟩⟩) <;> decide +kernel

/-- The response of four bytes is accepted. -/
theorem fourBytes_accepted {digit : Char} (hdigit : digit ∈ ['4', '8']) {url : List Char}
    (hurl : (parseHttpUrl url).isSome)
    (hcrc : ∀ crc, parseCrcFromUrl url = some crc → crc32 [0xE9, 0, 0, 0] = crc) {size : ℕ}
    (hsize : 4 ≤ size) : Accepted url (fourBytesNetwork digit) size := by
  obtain ⟨hheaders, hstatus, hlength, hbody⟩ := fourBytes_headers digit hdigit
  have hdrop : (fourBytes digit).drop (34 + 4) = [0xE9, 0, 0, 0] := rfl
  refine ⟨hurl, rfl, ⟨_, _, _, [], hheaders, hstatus, hlength, rfl, ?_⟩, fun b hb => ?_, ?_⟩
  · rw [hdrop]
    exact ⟨hsize, trivial⟩
  · rw [hbody] at hb
    cases hb
    rfl
  · rwa [hbody]

/-- No operation on a chip that was never used fails. -/
theorem blank_healthyOn (lo hi : ℕ) : (new blankDevice .ota0).flash.HealthyOn lo hi :=
  (Device.healthy_healthy _).healthyOn lo hi

/-- A connection that is closed four bytes before the end of the body that its `Content-Length` says
is not rejected. -/
theorem download_closedEarly :
    ∃ o', download "http://h/f".toList (fourBytesNetwork '8') (new blankDevice .ota0) =
      .ok none o' ∧
      ¬ Faithful "http://h/f".toList (fourBytesNetwork '8').response o' := by
  have haccepted : Accepted "http://h/f".toList (fourBytesNetwork '8') Partition.ota1.size :=
    fourBytes_accepted (by decide) (by decide) (fun crc h => by
      rw [show parseCrcFromUrl "http://h/f".toList = none by decide] at h
      cases h) (by decide)
  obtain ⟨o', h⟩ := (download_accepted (blank_healthyOn _ _)).2 ⟨rfl, haccepted⟩
  refine ⟨o', h, fun hfaithful => ?_⟩
  have hlength := ((faithful_iff h).1 hfaithful).length
  have hparse : parseContentLength (headerSection (fourBytesNetwork '8').response) = some 8 := by
    decide +kernel
  have hstart : (contentLengthStart (headerSection (fourBytesNetwork '8').response)).isSome := by
    decide +kernel
  have hbody := (fourBytes_headers '8' (by decide)).2.2.2
  rw [hparse, hbody] at hlength
  exact absurd (hlength hstart) (by decide)

/-- The same response with the right length, at a URL with the right CRC-32, has integrity. -/
theorem download_whole :
    ∃ o', download "http://h/f?crc=7F9F347F".toList (fourBytesNetwork '4') (new blankDevice .ota0) =
        .ok none o' ∧
      Faithful "http://h/f?crc=7F9F347F".toList (fourBytesNetwork '4').response o' := by
  have hcrc : parseCrcFromUrl "http://h/f?crc=7F9F347F".toList = some 0x7F9F347F := by
    decide +kernel
  have haccepted :
      Accepted "http://h/f?crc=7F9F347F".toList (fourBytesNetwork '4') Partition.ota1.size :=
    fourBytes_accepted (by decide) (by decide) (fun crc h => by
      rw [hcrc] at h
      cases h
      decide +kernel) (by decide)
  obtain ⟨o', h⟩ := (download_accepted (blank_healthyOn _ _)).2 ⟨rfl, haccepted⟩
  refine ⟨o', h, ((download_faithful_iff _ _ _).1 o' h).2 ⟨?_, fun _ => ?_, fun _ => ?_⟩⟩
  · decide +kernel
  · decide +kernel
  · rw [hcrc]
    rfl

end Launa.App
