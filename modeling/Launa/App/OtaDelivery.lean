import Launa.App.OtaLifecycle
import Launa.Xtask.OtaServe
import Launa.Lib.Utf8Bytes

/-!
# From `ota-flash` to the flash

`ota_flash.rs` serves a firmware from the host it runs on and publishes a message with its URL, in
which the host is an address. The device takes the URL from the message (`parseOtaUrl_otaPayload`),
connects to that address (`resolveHost_ipText`), sends its request, and installs what it gets back.
The server reads once, so it may see the front of the request only. As little as the first 22 bytes
make it answer with the firmware, but no less (`isHttp_take_iff`).

However the answer is cut into reads, the firmware runs afterwards exactly when the server has seen
that much, and the firmware begins with the magic byte and is not longer than a partition
(`installs_firmwareUrl_iff`).
-/

namespace Launa.App

open Stateful Checked Nor Ota EspOta EspOtaFlash Launa.Core Mqtt Xtask

/-- `build_http_get`. -/
def buildHttpGet (host path : List Char) : List Char :=
  "GET ".toList ++ path ++ " HTTP/1.1\r\nHost: ".toList ++ host ++
    "\r\nConnection: close\r\n\r\n".toList

/-- `resolve_host`, with the first address that a DNS query returns, if any. -/
def resolveHost (dns : List Char → Option Ipv4) (host : List Char) : Option Ipv4 :=
  match parseIp host with
  | some addr => some addr
  | none => dns host

/-- The network of a device on which a host serves a firmware. -/
structure Lan where
  dns : List Char → Option Ipv4
  address : Ipv4
  port : UInt16
  firmware : List UInt8
  /-- How much of a request the server's read returns. -/
  firstRead : ℕ
  firstRead_pos : 0 < firstRead
  firstRead_le : firstRead ≤ 4096
  /-- The device's reads of what the server has sent. -/
  reads : List UInt8 → List (Option Segment)
  /-- They lose nothing, and end with the end of the stream. -/
  reads_ok : ∀ sent, ∃ segments, segmentsOf (reads sent) = some segments ∧ segments.flatten = sent

/-- What the network does in an attempt to download from a URL. -/
def Lan.network (lan : Lan) (url : List Char) : Network :=
  match parseHttpUrl url with
  | none => ⟨false, []⟩
  | some (host, port, path) =>
    if resolveHost lan.dns host = some lan.address ∧ port = lan.port.toNat then
      ⟨true, lan.reads (serve lan.firmware
        ((Utf8Bytes.bytes (buildHttpGet host path)).take lan.firstRead))⟩
    else ⟨false, []⟩

/-- The URL of the firmware. -/
def firmwareUrl (address : Ipv4) (port : UInt16) : List Char :=
  "http://".toList ++ (ipText address ++ ':' :: Nat.toDigits 10 port.toNat ++
    "/firmware.bin".toList)

/-- The message with a URL. Nothing in the URL of a firmware needs an escape. -/
def otaPayload (url : List Char) : List UInt8 :=
  Utf8Bytes.bytes ("\x7b\"url\":\"".toList ++ (url ++ "\"\x7d".toList))

/-! ## The URL -/

variable {address : Ipv4} {port : UInt16}

/-- Four fields stand between three dots. -/
theorem dotted_eq (fa fb fc fd : List Char) :
    dotted [fa, fb, fc, fd] = fa ++ '.' :: (fb ++ '.' :: (fc ++ '.' :: fd)) := by
  simp [dotted, List.intercalate]

/-- The characters of four fields. -/
theorem mem_dotted {fa fb fc fd : List Char} {c : Char} (hc : c ∈ dotted [fa, fb, fc, fd]) :
    c = '.' ∨ ∃ field ∈ [fa, fb, fc, fd], c ∈ field := by
  rw [dotted_eq] at hc
  simp only [List.mem_append, List.mem_cons] at hc
  simp only [List.mem_cons, List.not_mem_nil, or_false, exists_eq_or_imp, exists_eq_left]
  tauto

/-- An ASCII character that is neither a quote nor a question mark. -/
def isUrlChar (c : Char) : Bool := c.toNat < 0x80 && c ≠ '"' && c ≠ '?'

/-- A digit may stand in an address. -/
theorem isUrlChar_of_isDigit {c : Char} (hc : c.isDigit = true) : isUrlChar c = true := by
  obtain ⟨hlow, hhigh⟩ := Char.isDigit_iff_toNat.1 hc
  have hlt : c.toNat < 0x80 := hhigh.trans_lt (by decide)
  have hquote : c ≠ '"' := by
    rintro rfl
    exact absurd hlow (by decide)
  have hmark : c ≠ '?' := by
    rintro rfl
    exact absurd hhigh (by decide)
  simp [isUrlChar, hlt, hquote, hmark]

/-- The URL of a firmware is made of such characters. -/
theorem isUrlChar_of_mem {c : Char} (hc : c ∈ firmwareUrl address port) : isUrlChar c = true := by
  have hconst : ∀ text : List Char, text.all isUrlChar = true → c ∈ text → isUrlChar c = true :=
    fun text hall hmem => List.all_eq_true.1 hall c hmem
  have hip : c ∈ ipText address → isUrlChar c = true := by
    intro hc
    rw [ipText_eq] at hc
    rcases mem_dotted hc with rfl | ⟨field, hfield, hc⟩
    · decide
    · simp only [List.mem_cons, List.not_mem_nil, or_false] at hfield
      obtain rfl | rfl | rfl | rfl := hfield <;>
        exact isUrlChar_of_isDigit (Json.isDigit_toDigits hc)
  unfold firmwareUrl at hc
  rw [List.mem_append, List.mem_append, List.mem_append, List.mem_cons] at hc
  obtain hc | (hc | hc | hc) | hc := hc
  · exact hconst _ (by decide) hc
  · exact hip hc
  · rw [hc]
    decide
  · exact isUrlChar_of_isDigit (Json.isDigit_toDigits hc)
  · exact hconst _ (by decide) hc

/-- It has at most 41 characters. -/
theorem length_firmwareUrl_le : (firmwareUrl address port).length ≤ 41 := by
  have hoctet : ∀ octet : UInt8, (Nat.toDigits 10 octet.toNat).length ≤ 3 := fun octet =>
    (Nat.length_toDigits_le_iff (by omega) (by omega)).2 (octet.toNat_lt.trans (by omega))
  have hport : (Nat.toDigits 10 port.toNat).length ≤ 5 :=
    (Nat.length_toDigits_le_iff (by omega) (by omega)).2 (port.toNat_lt.trans (by omega))
  have h0 := hoctet address[0]
  have h1 := hoctet address[1]
  have h2 := hoctet address[2]
  have h3 := hoctet address[3]
  have hhead : "http://".toList.length = 7 := rfl
  have htail : "/firmware.bin".toList.length = 13 := rfl
  unfold firmwareUrl
  rw [ipText_eq, dotted_eq]
  simp only [List.length_append, List.length_cons, hhead, htail]
  omega

/-- It passes the checks of `parse_ota_url`. -/
theorem isOtaUrl_firmwareUrl : IsOtaUrl (firmwareUrl address port) := by
  refine ⟨List.prefix_append _ _, ?_⟩
  have hsize : (firmwareUrl address port).map Char.utf8Size =
      (firmwareUrl address port).map fun _ => 1 := by
    refine List.map_congr_left fun c hc => ?_
    have hchar := isUrlChar_of_mem hc
    simp only [isUrlChar, Bool.and_eq_true, decide_eq_true_eq] at hchar
    exact Char.utf8Size_eq_one_iff.2 (UInt32.le_iff_toNat_le.2 (Nat.le_of_lt_succ hchar.1.1))
  have hle : (firmwareUrl address port).length ≤ 41 := length_firmwareUrl_le
  rw [byteLength, hsize, List.map_const', List.sum_replicate_nat, Nat.mul_one]
  exact hle.trans (by decide)

/-- The device takes the URL from the message. -/
theorem parseOtaUrl_otaPayload :
    parseOtaUrl (otaPayload (firmwareUrl address port)) = some (firmwareUrl address port) := by
  set url := firmwareUrl address port with hurl
  have hchars : ∀ c ∈ url, isUrlChar c = true := fun c hc => isUrlChar_of_mem (hurl ▸ hc)
  have hquote : '"' ∉ url := fun h => absurd (hchars _ h) (by decide)
  have hascii : ∀ c ∈ "\x7b\"url\":\"".toList ++ (url ++ "\"\x7d".toList), c.toNat < 0x80 := by
    have hfront : ("\x7b\"url\":\"".toList.all fun c => c.toNat < 0x80) = true := by decide
    have hback : ("\"\x7d".toList.all fun c => c.toNat < 0x80) = true := by decide
    intro c hc
    rw [List.mem_append, List.mem_append] at hc
    obtain hc | hc | hc := hc
    · exact of_decide_eq_true (List.all_eq_true.1 hfront c hc)
    · have hchar := hchars c hc
      simp only [isUrlChar, Bool.and_eq_true, decide_eq_true_eq] at hchar
      exact hchar.1.1
    · exact of_decide_eq_true (List.all_eq_true.1 hback c hc)
  have hdecode : utf8Decode (otaPayload url) =
      some ("\x7b\"url\":\"".toList ++ (url ++ "\"\x7d".toList)) := by
    rw [otaPayload, Utf8Bytes.bytes_of_ascii hascii]
    exact utf8Decode_map_ascii hascii
  have hkey : afterUrlKey ("\x7b\"url\":\"".toList ++ (url ++ "\"\x7d".toList)) =
      some (":\"".toList ++ (url ++ "\"\x7d".toList)) := rfl
  -- Behind the colon and the quote the URL is what is up to the next quote.
  have hread : readUrl (":\"".toList ++ (url ++ "\"\x7d".toList)) =
      if '"' ∈ url ++ "\"\x7d".toList then
        checkOtaUrl ((url ++ "\"\x7d".toList).takeWhile (· ≠ '"')) else none := rfl
  have htake : (url ++ "\"\x7d".toList).takeWhile (· ≠ '"') = url := by
    refine TextSearch.takeWhile_append_of_stop (fun c hc => ?_) fun c hc => ?_
    · simpa using ne_of_mem_of_not_mem hc hquote
    · cases hc
      rfl
  have hmem : '"' ∈ url ++ "\"\x7d".toList := List.mem_append_right _ List.mem_cons_self
  rw [parseOtaUrl, hdecode, Option.bind_eq_bind, Option.bind_some, hkey, Option.bind_some, hread,
    if_pos hmem, htake]
  exact checkOtaUrl_eq_some_iff.2 ⟨rfl, isOtaUrl_firmwareUrl⟩

/-- Without a query there is no checksum, and no test is asked for. -/
theorem parseCrcFromUrl_of_notMem {url : List Char} (h : '?' ∉ url) :
    parseCrcFromUrl url = none := by
  have hnone : afterFirst '?' url = none := if_neg h
  rw [parseCrcFromUrl, crcParam, hnone]
  rfl

/-- An address without a query is no test. -/
theorem isTcpTest_of_notMem {url : List Char} (h : '?' ∉ url) : isTcpTest url = false := by
  rw [isTcpTest, ← Bool.not_eq_true, TextSearch.contains_iff]
  exact fun hwithin => h (hwithin.subset List.mem_cons_self)

/-- The address of the firmware has no query. -/
theorem question_notMem_firmwareUrl : '?' ∉ firmwareUrl address port :=
  fun h => absurd (isUrlChar_of_mem h) (by decide)

/-- It is split into the address, the port and the path. -/
theorem parseHttpUrl_firmwareUrl :
    parseHttpUrl (firmwareUrl address port) =
      some (ipText address, port.toNat, "/firmware.bin".toList) := by
  have hchar : ∀ c ∈ ipText address, c.isDigit = true ∨ c = '.' := by
    intro c hc
    rw [ipText_eq] at hc
    rcases mem_dotted hc with hdot | ⟨field, hfield, hc⟩
    · exact .inr hdot
    · simp only [List.mem_cons, List.not_mem_nil, or_false] at hfield
      obtain rfl | rfl | rfl | rfl := hfield <;> exact .inl (Json.isDigit_toDigits hc)
  have hcolon : ':' ∉ ipText address := fun h => absurd (hchar _ h) (by decide)
  have hslash : '/' ∉ ipText address ++ Nat.toDigits 10 port.toNat := by
    rw [List.mem_append, not_or]
    exact ⟨fun h => absurd (hchar _ h) (by decide),
      fun h => absurd (Json.isDigit_toDigits h) (by decide)⟩
  have htarget : IsTarget "/firmware.bin".toList := by
    rintro c ⟨⟩
    rfl
  have hport := fromStrRadix_eq_some_iff.2 (isNumber_toDigits port.toNat_lt)
  unfold firmwareUrl
  rw [parseHttpUrl_port hcolon hslash htarget, hport]
  rfl

/-- Its host needs no name resolution. -/
theorem resolveHost_ipText (dns : List Char → Option Ipv4) :
    resolveHost dns (ipText address) = some address := by
  rw [resolveHost, parseIp_ipText]

/-! ## The request -/

/-- The front of the request, up to the word that the server looks for. -/
def requestFront : List UInt8 := ascii "GET /firmware.bin HTTP"

/-- The request begins as the server expects. -/
theorem exists_bytes_buildHttpGet (host : List Char) :
    ∃ rest, Utf8Bytes.bytes (buildHttpGet host "/firmware.bin".toList) = requestFront ++ rest := by
  have hsplit : buildHttpGet host "/firmware.bin".toList = "GET /firmware.bin HTTP".toList ++
      ("/1.1\r\nHost: ".toList ++ host ++ "\r\nConnection: close\r\n\r\n".toList) := rfl
  have hascii : ("GET /firmware.bin HTTP".toList.all fun c => c.toNat < 0x80) = true := by decide
  rw [hsplit, Utf8Bytes.bytes_append, Utf8Bytes.bytes_of_ascii fun c hc =>
    of_decide_eq_true (List.all_eq_true.1 hascii c hc)]
  exact ⟨_, rfl⟩

/-- The server answers with the firmware from the first 22 bytes of the request on. -/
theorem isHttp_take_iff (host : List Char) (n : ℕ) :
    isHttp ((Utf8Bytes.bytes (buildHttpGet host "/firmware.bin".toList)).take n) = true ↔
      22 ≤ n := by
  obtain ⟨rest, hrest⟩ := exists_bytes_buildHttpGet host
  have hlength : requestFront.length = 22 := rfl
  rw [hrest]
  constructor
  · intro h
    by_contra hlt
    have hshort : ∀ k < 22, isHttp (requestFront.take k) = false := by decide
    rw [List.take_append_of_le_length (by omega), hshort n (by omega)] at h
    cases h
  · intro hle
    have hline : (requestFront.all fun b => b ≠ 0x0A) = true := by decide
    rw [List.take_append, List.take_of_length_le (by omega), isHttp, firstLine,
      List.takeWhile_append_of_pos (List.all_eq_true.1 hline), TextSearch.contains_iff]
    exact ⟨ascii "GET /firmware.bin ", _, rfl⟩

/-! ## The answer -/

/-- The end of the headers is found in the part of a response that it is in. -/
theorem findHeaderEnd_of_append {xs ys : List UInt8} {pos : ℕ}
    (h : findHeaderEnd (xs ++ ys) = some pos) (hle : pos + 4 ≤ xs.length) :
    findHeaderEnd xs = some pos := by
  induction xs generalizing pos with
  | nil => simp at hle
  | cons x xs ih =>
    rw [List.cons_append, findHeaderEnd] at h
    rw [findHeaderEnd]
    split at h
    · rename_i hpre
      cases h
      have hshort := List.prefix_of_prefix_length_le (List.isPrefixOf_iff_prefix.1 hpre)
        (List.prefix_append (x :: xs) ys) hle
      rw [if_pos (List.isPrefixOf_iff_prefix.2 hshort)]
    · rename_i hpre
      obtain ⟨pos', hpos', rfl⟩ := Option.map_eq_some_iff.1 h
      rw [List.length_cons] at hle
      have hnot : ¬ (ascii "\r\n\r\n").isPrefixOf (x :: xs) = true := by
        rw [List.isPrefixOf_iff_prefix] at hpre ⊢
        exact fun hshort => hpre (hshort.trans (List.prefix_append (x :: xs) ys))
      rw [if_neg hnot, ih hpos' (by omega)]
      rfl

/-- Without a carriage return there is no end of the header. -/
theorem findHeaderEnd_eq_none {xs : List UInt8} (h : 0x0D ∉ xs) : findHeaderEnd xs = none := by
  by_contra hsome
  obtain ⟨pos, hpos⟩ := Option.ne_none_iff_exists'.1 hsome
  have hmem := (findHeaderEnd_drop hpos).subset (show (0x0D : UInt8) ∈ ascii "\r\n\r\n" by decide)
  exact h (List.mem_of_mem_drop hmem)

/-- Headers that end well within the buffer are found, however the stream is cut. -/
theorem readHeaders_of_segments {reads : List (Option Segment)} {buf : List UInt8} {pos : ℕ}
    (hclosed : (segmentsOf reads).isSome) (hend : findHeaderEnd (buf ++ received reads) = some pos)
    (hbuf : buf.length < pos + 4) (hpos : pos + 4 + httpReadBufSize ≤ maxHeaderSize) :
    ∃ headerBuf rest, readHeaders reads buf = some (headerBuf, pos, rest) ∧
      (segmentsOf rest).isSome := by
  induction reads generalizing buf with
  | nil =>
    have := findHeaderEnd_le hend
    rw [received, List.append_nil] at this
    omega
  | cons read reads ih =>
    cases read with
    | none => cases hclosed
    | some seg =>
      rw [segmentsOf] at hclosed
      rw [received] at hend
      rw [readHeaders]
      by_cases hempty : seg.val.isEmpty
      · rw [if_pos hempty, List.append_nil] at hend
        have := findHeaderEnd_le hend
        omega
      rw [if_neg hempty, Option.isSome_map] at hclosed
      rw [if_neg hempty, ← List.append_assoc] at hend
      have hseg := seg.property
      rw [if_neg hempty, if_neg (by omega)]
      cases hfind : findHeaderEnd (buf ++ seg.val) with
      | some pos' =>
        rw [findHeaderEnd_append hfind] at hend
        cases hend
        exact ⟨_, _, rfl, hclosed⟩
      | none =>
        refine ih hclosed hend ?_
        by_contra hlong
        rw [findHeaderEnd_of_append hend (not_lt.1 hlong)] at hfind
        cases hfind

/-- Chunks that end in a partition fit it. -/
theorem fits_of_le {size n : ℕ} {chunks : List (List UInt8)}
    (h : n + chunks.flatten.length ≤ size) : Fits size n chunks := by
  induction chunks generalizing n with
  | nil => trivial
  | cons chunk chunks ih =>
    rw [List.flatten_cons, List.length_append] at h
    have := (flushed_bounds n).1
    exact ⟨by omega, ih (by omega)⟩

/-! ## A firmware that is served -/

variable {lan : Lan}

/-- The response to the request. -/
theorem network_firmwareUrl (lan : Lan) : ∃ reads,
    lan.network (firmwareUrl lan.address lan.port) = ⟨true, reads⟩ ∧ (segmentsOf reads).isSome ∧
      received reads = if 22 ≤ lan.firstRead then otaHeader lan.firmware.length ++ lan.firmware
        else ascii "echo: " ++ ascii (toString lan.firstRead) ++ ascii " bytes received\n" := by
  set request := Utf8Bytes.bytes (buildHttpGet (ipText lan.address) "/firmware.bin".toList)
  have hnetwork : lan.network (firmwareUrl lan.address lan.port) =
      ⟨true, lan.reads (serve lan.firmware (request.take lan.firstRead))⟩ := by
    rw [Lan.network, parseHttpUrl_firmwareUrl]
    exact if_pos ⟨resolveHost_ipText _, rfl⟩
  obtain ⟨segments, hsegments, hflatten⟩ :=
    lan.reads_ok (serve lan.firmware (request.take lan.firstRead))
  refine ⟨_, hnetwork, Option.isSome_iff_exists.2 ⟨_, hsegments⟩, ?_⟩
  rw [← (segmentsOf_received hsegments).1, hflatten]
  have hhttp := isHttp_take_iff (ipText lan.address) lan.firstRead
  obtain ⟨rest, hrest⟩ := exists_bytes_buildHttpGet (ipText lan.address)
  have hne : (request.take lan.firstRead).isEmpty = false := by
    have hpos := lan.firstRead_pos
    rw [List.isEmpty_eq_false_iff, ne_eq, List.take_eq_nil_iff, not_or]
    exact ⟨by omega, by rw [show request = _ from hrest]; exact List.cons_ne_nil _ _⟩
  rw [serve, if_neg (by rw [hne]; exact Bool.false_ne_true)]
  by_cases hread : 22 ≤ lan.firstRead
  · rw [if_pos (hhttp.2 hread), if_pos hread]
  · have hlength : (request.take lan.firstRead).length = lan.firstRead := by
      have hfront : requestFront.length = 22 := rfl
      rw [List.length_take, show request = _ from hrest, List.length_append]
      omega
    rw [if_neg (mt hhttp.1 hread), if_neg hread, hlength]

/-- Nothing of an answer that is not the firmware is a header. -/
theorem readHeaders_echo {reads : List (Option Segment)} {n : ℕ}
    (h : received reads = ascii "echo: " ++ ascii (toString n) ++ ascii " bytes received\n") :
    readHeaders reads [] = none := by
  cases hheaders : readHeaders reads [] with
  | none => rfl
  | some headers =>
    obtain ⟨headerBuf, pos, rest⟩ := headers
    obtain ⟨hend, hreceived⟩ := readHeaders_received hheaders
    have hfront : (0x0D : UInt8) ∉ ascii "echo: " := by decide
    have hback : (0x0D : UInt8) ∉ ascii " bytes received\n" := by decide
    have hnone : findHeaderEnd (received reads) = none := by
      refine findHeaderEnd_eq_none fun hmem => ?_
      rw [h, List.mem_append, List.mem_append] at hmem
      obtain (hmem | hmem) | hmem := hmem
      · exact hfront hmem
      · exact (ascii_toString_ne hmem).1 rfl
      · exact hback hmem
    rw [List.nil_append] at hreceived
    rw [← hreceived, findHeaderEnd_append hend] at hnone
    cases hnone

/-- The headers of an answer with the firmware are read with the front of it. -/
theorem readHeaders_otaHeader {reads : List (Option Segment)} {firmware : List UInt8}
    (hlength : firmware.length < 2^32) (hclosed : (segmentsOf reads).isSome)
    (h : received reads = otaHeader firmware.length ++ firmware) :
    ∃ front rest, firmware = front ++ received rest ∧ (segmentsOf rest).isSome ∧
      readHeaders reads [] =
        some (otaHeader firmware.length ++ front, headerEnd firmware.length, rest) := by
  have hend : findHeaderEnd ([] ++ received reads) = some (headerEnd firmware.length) := by
    rw [List.nil_append, h]
    exact findHeaderEnd_otaHeader _ _
  have hdigits : (ascii (toString firmware.length)).length ≤ 10 := by
    rw [ascii, List.length_map, show (toString firmware.length).toList =
      Nat.toDigits 10 firmware.length from Nat.toList_repr]
    exact (Nat.length_toDigits_le_iff (by omega) (by omega)).2 (hlength.trans (by omega))
  have hshort : headerEnd firmware.length + 4 + httpReadBufSize ≤ maxHeaderSize := by
    have hname : (ascii "Content-Length: ").length = 16 := rfl
    have hclose : closeBytes.length = 17 := rfl
    have htype : typeBytes.length = 38 := rfl
    have hstatus : statusBytes.length = 15 := rfl
    have hbuf : httpReadBufSize = 1024 ∧ maxHeaderSize = 4096 := ⟨rfl, rfl⟩
    rw [headerEnd, lengthBytes, List.length_append, hname]
    omega
  obtain ⟨headerBuf, rest, hheaders, hrest⟩ :=
    readHeaders_of_segments hclosed hend (Nat.succ_pos _) hshort
  obtain ⟨hbufEnd, hreceived⟩ := readHeaders_received hheaders
  rw [List.nil_append, h] at hreceived
  -- The buffer reaches as far as the header does.
  have hprefix : otaHeader firmware.length <+: headerBuf := by
    have hall : otaHeader firmware.length <+: headerBuf ++ received rest := by
      rw [hreceived]
      exact List.prefix_append _ _
    refine List.prefix_of_prefix_length_le hall (List.prefix_append _ _) ?_
    rw [otaHeader_length]
    exact findHeaderEnd_le hbufEnd
  obtain ⟨front, rfl⟩ := hprefix
  rw [List.append_assoc] at hreceived
  exact ⟨front, rest, (List.append_cancel_left hreceived).symm, hrest, hheaders⟩

/-- The served firmware is installed exactly when the server has seen enough of the request, and the
firmware begins with the magic byte and is not longer than a partition. -/
theorem installs_firmwareUrl_iff (hlength : lan.firmware.length < 2^32) :
    (lan.network (firmwareUrl lan.address lan.port)).Contained ∧
    (Installs (firmwareUrl lan.address lan.port)
        (lan.network (firmwareUrl lan.address lan.port)) ↔
      22 ≤ lan.firstRead ∧ lan.firmware.head? = some 0xE9 ∧
        lan.firmware.length ≤ appPartitionSize) ∧
    (22 ≤ lan.firstRead →
      bodyOf (lan.network (firmwareUrl lan.address lan.port)).response = lan.firmware) := by
  obtain ⟨reads, hnetwork, hclosed, hreceived⟩ := network_firmwareUrl lan
  rw [hnetwork]
  by_cases hread : 22 ≤ lan.firstRead
  swap
  -- There are no headers.
  · rw [if_neg hread] at hreceived
    have hnone := readHeaders_echo hreceived
    refine ⟨fun _ _ _ h => ?_, iff_of_false (fun hi => ?_) fun h => hread h.1,
      fun h => absurd h hread⟩
    · rw [show readHeaders reads [] = none from hnone] at h
      cases h
    · obtain ⟨_, _, _, _, h, -⟩ := hi.accepted.written
      rw [show readHeaders reads [] = none from hnone] at h
      cases h
  rw [if_pos hread] at hreceived
  obtain ⟨front, rest, hfirmware, hrest, hheaders⟩ :=
    readHeaders_otaHeader hlength hclosed hreceived
  have hbody : bodyOf (Network.response ⟨true, reads⟩) = lan.firmware := by
    rw [Network.response, hreceived, bodyOf, findHeaderEnd_otaHeader]
    dsimp only
    rw [← otaHeader_length, List.drop_left]
  have hcontent := parseContentLength_otaHeader hlength front
  refine ⟨?_, ?_, fun _ => hbody⟩
  · intro headerBuf pos reads' h hlong
    rw [show readHeaders reads [] = _ from hheaders] at h
    cases h
    rw [hcontent, Option.any_some, decide_eq_false_iff_not, not_lt] at hlong
    rwa [hbody]
  constructor
  · rintro ⟨-, haccepted, hne⟩
    rw [hbody] at hne
    have hmagic := haccepted.magic
    rw [hbody] at hmagic
    refine ⟨hread, ?_, ?_⟩
    · obtain ⟨b, bs, hcons⟩ := List.exists_cons_of_ne_nil hne
      rw [hcons] at hmagic ⊢
      rw [hmagic b rfl]
      rfl
    · obtain ⟨headerBuf, pos, reads', segments, h, -, hlong, -⟩ := haccepted.written
      rw [show readHeaders reads [] = _ from hheaders] at h
      cases h
      rwa [hcontent, Option.any_some, decide_eq_false_iff_not, not_lt] at hlong
  · rintro ⟨-, hmagic, hfit⟩
    obtain ⟨segments, hsegments⟩ := Option.isSome_iff_exists.1 hrest
    refine ⟨isTcpTest_of_notMem question_notMem_firmwareUrl, ⟨?_, rfl, ?_, ?_, ?_⟩, ?_⟩
    · rw [parseHttpUrl_firmwareUrl]
      rfl
    · refine ⟨_, _, _, segments, hheaders, validateHttpStatus_otaHeader _ _, ?_, hsegments, ?_⟩
      · rwa [hcontent, Option.any_some, decide_eq_false_iff_not, not_lt]
      · rw [← otaHeader_length, List.drop_left]
        refine fits_of_le ?_
        rw [chunksOf_flatten, (segmentsOf_received hsegments).1, ← hfirmware, Nat.zero_add]
        exact hfit
    · intro b hb
      rw [hbody, hmagic] at hb
      exact (Option.some.inj hb).symm
    · intro crc hcrc
      rw [parseCrcFromUrl_of_notMem question_notMem_firmwareUrl] at hcrc
      cases hcrc
    · rw [hbody]
      rintro hnil
      rw [hnil] at hmagic
      cases hmagic

/-- A device on which no flash operation fails, with a number above 0 in otadata and room for one
more, gets the message of `ota-flash`: however the network cuts the answer, the boot loader then
starts the served firmware if the server has seen enough of the request, and the firmware begins
with the magic byte and is not longer than a partition; and otherwise the one that ran before. -/
theorem otaPayload_boots (lan : Lan) (hlength : lan.firmware.length < 2^32)
    {firmware : List UInt8} {o : EspOtaFlash (Nor.Device geometry)} (h : Runs firmware o)
    (hroom : (slotsAt o.flash.mem).maxSeq + 2 < 0xFFFFFFFF) :
    ∃ url p o', parseOtaUrl (otaPayload (firmwareUrl lan.address lan.port)) = some url ∧
      otaStep o (.request url (lan.network url)) = o' ∧
      (slotsAt o'.flash.mem).bootChoice = some p ∧
      HoldsImage o'.flash.mem p
        (if 22 ≤ lan.firstRead ∧ lan.firmware.head? = some 0xE9 ∧
          lan.firmware.length ≤ appPartitionSize then lan.firmware else firmware) := by
  obtain ⟨hcontained, hinstalls, hbody⟩ := installs_firmwareUrl_iff hlength
  obtain ⟨hruns, -⟩ := otaStep_spec h (.request _ _) hcontained hroom
  refine ⟨_, _, _, parseOtaUrl_otaPayload, rfl, hruns.selects.bootChoice, ?_⟩
  have hnext := hruns.selects.image
  rw [lastInstalled, List.foldl_cons, List.foldl_nil] at hnext
  dsimp only at hnext
  by_cases hi : 22 ≤ lan.firstRead ∧ lan.firmware.head? = some 0xE9 ∧
      lan.firmware.length ≤ appPartitionSize
  · rw [if_pos hi]
    rwa [if_pos (hinstalls.2 hi), hbody hi.1] at hnext
  · rw [if_neg hi]
    rwa [if_neg (mt hinstalls.1 hi)] at hnext

/-- A network that delivers one byte at a time. -/
def bytewise (sent : List UInt8) : List (Option Segment) :=
  sent.map fun b => some ⟨[b], by simp [httpReadBufSize]⟩

/-- Bytes that come one by one are read as they were sent. -/
theorem bytewise_ok (sent : List UInt8) :
    ∃ segments, segmentsOf (bytewise sent) = some segments ∧ segments.flatten = sent := by
  induction sent with
  | nil => exact ⟨[], rfl, rfl⟩
  | cons b sent ih =>
    obtain ⟨segments, hsegments, hflatten⟩ := ih
    refine ⟨[b] :: segments, ?_, by rw [List.flatten_cons, hflatten]; rfl⟩
    show Option.map ([b] :: ·) (segmentsOf (bytewise sent)) = _
    rw [hsegments]
    rfl

/-- A host at `192.168.1.10` that serves four bytes, and whose server sees `n` bytes of a
request. -/
def exampleLan (n : ℕ) (hpos : 0 < n) (hle : n ≤ 4096) : Lan where
  dns := fun _ => none
  address := #v[192, 168, 1, 10]
  port := 8080
  firmware := [0xE9, 0, 0, 0]
  firstRead := n
  firstRead_pos := hpos
  firstRead_le := hle
  reads := bytewise
  reads_ok := bytewise_ok

/-- The message of that host to a device that has booted from slot 0. -/
theorem otaPayload_boots_example :
    ∃ url p o', parseOtaUrl (otaPayload (firmwareUrl #v[192, 168, 1, 10] 8080)) = some url ∧
      otaStep (createOta firstBootDevice)
        (.request url ((exampleLan 30 (by decide) (by decide)).network url)) = o' ∧
      (slotsAt o'.flash.mem).bootChoice = some p ∧
      HoldsImage o'.flash.mem p
        (if 22 ≤ 30 ∧ [0xE9, 0, 0, 0].head? = some 0xE9 ∧
          [0xE9, 0, 0, 0].length ≤ appPartitionSize then [0xE9, 0, 0, 0] else []) :=
  otaPayload_boots (exampleLan 30 (by decide) (by decide)) (by simp [exampleLan])
    (runs_createOta selects_firstBootDevice) (by rw [maxSeq_createOta_firstBoot]; decide)

end Launa.App
