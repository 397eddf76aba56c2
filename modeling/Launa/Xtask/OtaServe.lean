import Launa.App.Ota
import Launa.Core.Network
import Launa.Lib.JsonPrint
import Launa.Lib.TextSearch
import Launa.Ota.Utf8

/-!
# Serving a firmware

`ota_serve.rs` reads once from a connection. If the first line of what it got has `HTTP` in it, it
answers with the firmware behind a header that gives its length, and otherwise with the number of
bytes. How the device reads that answer is settled here for the header alone, whatever follows it:
where it ends (`findHeaderEnd_otaHeader`), its status and its length
(`parseContentLength_otaHeader`).
-/

namespace Launa.Xtask

open Ota TextSearch
open Json (isDigit_toDigits isNumberChar_of_isDigit)

/-! ## The answer -/

/-- The first line of a request, up to its line feed. Its text is searched for `HTTP` only, of
which no byte takes part in a character of more than one byte or is put in for an invalid one, so
the bytes are searched. -/
def firstLine (request : List UInt8) : List UInt8 := request.takeWhile (· ≠ 0x0A)

/-- `first_line.contains("HTTP")`. -/
def isHttp (request : List UInt8) : Bool := TextSearch.contains (ascii "HTTP") (firstLine request)

/-- The header before a firmware of `n` bytes. -/
def otaHeader (n : ℕ) : List UInt8 :=
  ascii "HTTP/1.1 200 OK\r\nContent-Type: application/octet-stream\r\nContent-Length: " ++
    ascii (toString n) ++ ascii "\r\nConnection: close\r\n\r\n"

/-- What `serve` writes to a connection whose read has returned `request`, if no write fails. The
firmware goes out in pieces of 4096 bytes, which a stream does not keep apart. -/
def serve (firmware request : List UInt8) : List UInt8 :=
  if request.isEmpty then []
  else if isHttp request then otaHeader firmware.length ++ firmware
  else ascii "echo: " ++ ascii (toString request.length) ++ ascii " bytes received\n"

/-! ## Reading the header -/

/-- Of a line without a carriage return nothing ends the headers, unless an empty line follows. -/
theorem findHeaderEnd_line {line rest : List UInt8} (hline : ∀ b ∈ line, b ≠ 0x0D)
    (hrest : (ascii "\r\n").isPrefixOf rest = false) :
    findHeaderEnd (line ++ (0x0D :: 0x0A :: rest)) =
      (findHeaderEnd rest).map (· + (line.length + 2)) := by
  induction line with
  | nil =>
    have hcr : (ascii "\r\n\r\n").isPrefixOf (0x0D :: 0x0A :: rest) = false := hrest
    have hlf : (ascii "\r\n\r\n").isPrefixOf (0x0A :: rest) = false := rfl
    rw [List.nil_append, findHeaderEnd, hcr, findHeaderEnd, hlf]
    simp [Option.map_map, Function.comp_def]
  | cons b line ih =>
    obtain ⟨hb, hline⟩ := List.forall_mem_cons.1 hline
    have hno : (ascii "\r\n\r\n").isPrefixOf (b :: (line ++ 0x0D :: 0x0A :: rest)) = false := by
      show ((0x0D == b) && _) = false
      rw [beq_false_of_ne hb.symm, Bool.false_and]
    rw [List.cons_append, findHeaderEnd, hno, ih hline]
    simp [Option.map_map, Function.comp_def, Nat.add_assoc, Nat.add_comm 1]

/-- Behind the last line the headers end. -/
theorem findHeaderEnd_lastLine {line : List UInt8} (hline : ∀ b ∈ line, b ≠ 0x0D)
    (rest : List UInt8) :
    findHeaderEnd (line ++ (ascii "\r\n\r\n" ++ rest)) = some line.length := by
  induction line with
  | nil =>
    show (if (ascii "\r\n\r\n").isPrefixOf (0x0D :: 0x0A :: 0x0D :: 0x0A :: rest) then some 0
      else _) = some 0
    exact if_pos rfl
  | cons b line ih =>
    obtain ⟨hb, hline⟩ := List.forall_mem_cons.1 hline
    have hno :
        (ascii "\r\n\r\n").isPrefixOf (b :: (line ++ (ascii "\r\n\r\n" ++ rest))) = false := by
      show ((0x0D == b) && _) = false
      rw [beq_false_of_ne hb.symm, Bool.false_and]
    rw [List.cons_append, findHeaderEnd, hno, ih hline]
    rfl

/-- A line that is not the one looked for is passed over. -/
theorem findLine_line {name line rest : List UInt8} {pos : ℕ} (hline : ∀ b ∈ line, b ≠ 0x0D) :
    findLine name pos (line ++ (0x0D :: 0x0A :: rest)) =
      if startsWithIgnoreCase rest name then some (pos + line.length + 2)
      else findLine name (pos + line.length + 2) rest := by
  induction line generalizing pos with
  | nil => rfl
  | cons b line ih =>
    obtain ⟨hb, hline⟩ := List.forall_mem_cons.1 hline
    have hstep : findLine name pos (b :: (line ++ (0x0D :: 0x0A :: rest))) =
        findLine name (pos + 1) (line ++ (0x0D :: 0x0A :: rest)) := by
      rw [findLine]
      rintro rest' rfl
      exact absurd rfl hb
    rw [List.cons_append, hstep, ih hline, List.length_cons]
    simp only [Nat.add_assoc, Nat.add_comm 1]

/-- Whether a name is at the start depends on as many bytes as it has. -/
theorem startsWithIgnoreCase_append {data pre : List UInt8} (h : pre.length ≤ data.length)
    (rest : List UInt8) :
    startsWithIgnoreCase (data ++ rest) pre = startsWithIgnoreCase data pre := by
  have hle : pre.length ≤ (data ++ rest).length := by
    rw [List.length_append]
    omega
  simp only [startsWithIgnoreCase, h, hle, List.take_append_of_le_length h]

/-! ## The header of the server -/

/-- The lines of the header. -/
def statusBytes : List UInt8 := ascii "HTTP/1.1 200 OK"
/-- The line of the content type. -/
def typeBytes : List UInt8 := ascii "Content-Type: application/octet-stream"
/-- The line of the content length. -/
def lengthBytes (n : ℕ) : List UInt8 := ascii "Content-Length: " ++ ascii (toString n)
/-- The line that closes the connection. -/
def closeBytes : List UInt8 := ascii "Connection: close"

/-- The header is its four lines and an empty one. -/
theorem otaHeader_append (n : ℕ) (rest : List UInt8) :
    otaHeader n ++ rest = statusBytes ++ 0x0D :: 0x0A :: (typeBytes ++ 0x0D :: 0x0A ::
      (lengthBytes n ++ 0x0D :: 0x0A :: (closeBytes ++ (ascii "\r\n\r\n" ++ rest)))) := by
  have hfirst : ascii
      "HTTP/1.1 200 OK\r\nContent-Type: application/octet-stream\r\nContent-Length: " =
        statusBytes ++ 0x0D :: 0x0A :: (typeBytes ++ 0x0D :: 0x0A :: ascii "Content-Length: ") :=
    rfl
  have hlast : ascii "\r\nConnection: close\r\n\r\n" =
      0x0D :: 0x0A :: (closeBytes ++ ascii "\r\n\r\n") := rfl
  rw [otaHeader, hfirst, hlast, lengthBytes]
  simp only [List.append_assoc, List.cons_append]

/-- The bytes of a number are digits. -/
theorem mem_ascii_toString {n : ℕ} {b : UInt8} (hb : b ∈ ascii (toString n)) :
    0x30 ≤ b ∧ b ≤ 0x39 := by
  obtain ⟨c, hc, rfl⟩ := List.mem_map.1 hb
  have hdigit : c.isDigit = true := by
    rw [show (toString n).toList = Nat.toDigits 10 n from Nat.toList_repr] at hc
    exact isDigit_toDigits hc
  obtain ⟨hlow, hhigh⟩ := Char.isDigit_iff_toNat.1 hdigit
  have hbyte : (UInt8.ofNat c.toNat).toNat = c.toNat :=
    UInt8.toNat_ofNat_of_lt' (hhigh.trans_lt (by decide))
  exact ⟨UInt8.le_iff_toNat_le.2 (by rw [hbyte]; exact hlow),
    UInt8.le_iff_toNat_le.2 (by rw [hbyte]; exact hhigh)⟩

/-- A number has no end of line and no space. -/
theorem ascii_toString_ne {n : ℕ} {b : UInt8} (hb : b ∈ ascii (toString n)) :
    b ≠ 0x0D ∧ b ≠ 0x0A ∧ b ≠ 0x20 := by
  obtain ⟨hlow, -⟩ := mem_ascii_toString hb
  have hlow' : 48 ≤ b.toNat := UInt8.le_iff_toNat_le.1 hlow
  refine ⟨?_, ?_, ?_⟩
  all_goals
    rintro rfl
    exact absurd hlow' (by decide)

/-- The line of the length has no carriage return. -/
theorem lengthBytes_ne {n : ℕ} : ∀ b ∈ lengthBytes n, b ≠ 0x0D := by
  have hname : ∀ b ∈ ascii "Content-Length: ", b ≠ 0x0D :=
    List.forall_mem_ne'.2 (by decide)
  intro b hb
  rcases List.mem_append.1 hb with h | h
  · exact hname b h
  · exact (ascii_toString_ne h).1

/-- The position at which the header ends. -/
def headerEnd (n : ℕ) : ℕ :=
  closeBytes.length + ((lengthBytes n).length + 2) + (typeBytes.length + 2) +
    (statusBytes.length + 2)

/-- The header ends with four bytes. -/
theorem otaHeader_length (n : ℕ) : (otaHeader n).length = headerEnd n + 4 := by
  have happend := congrArg List.length (otaHeader_append n [])
  have hend : (ascii "\r\n\r\n").length = 4 := rfl
  simp only [List.append_nil, List.length_append, List.length_cons, hend] at happend
  rw [happend, headerEnd]
  omega

/-- The header ends where the server has ended it, whatever follows. -/
theorem findHeaderEnd_otaHeader (n : ℕ) (rest : List UInt8) :
    findHeaderEnd (otaHeader n ++ rest) = some (headerEnd n) := by
  have hstatus : ∀ b ∈ statusBytes, b ≠ 0x0D := List.forall_mem_ne'.2 (by decide)
  have htype : ∀ b ∈ typeBytes, b ≠ 0x0D := List.forall_mem_ne'.2 (by decide)
  have hclose : ∀ b ∈ closeBytes, b ≠ 0x0D := List.forall_mem_ne'.2 (by decide)
  rw [otaHeader_append, findHeaderEnd_line hstatus rfl, findHeaderEnd_line htype rfl,
    findHeaderEnd_line lengthBytes_ne rfl, findHeaderEnd_lastLine hclose]
  rfl

/-- The status of the header passes. -/
theorem validateHttpStatus_otaHeader (n : ℕ) (rest : List UInt8) :
    validateHttpStatus (otaHeader n ++ rest) = true := by
  rw [otaHeader_append]
  rfl

/-- What stands in front of the value of `Content-Length`, without its space. -/
def beforeLength : List UInt8 :=
  statusBytes ++ 0x0D :: 0x0A :: (typeBytes ++ 0x0D :: 0x0A :: ascii "Content-Length:")

/-- The value of `Content-Length` and what follows it. -/
def fromLength (n : ℕ) (rest : List UInt8) : List UInt8 :=
  ascii (toString n) ++ 0x0D :: 0x0A :: (closeBytes ++ (ascii "\r\n\r\n" ++ rest))

/-- The length stands behind a space in the header. -/
theorem otaHeader_eq_beforeLength (n : ℕ) (rest : List UInt8) :
    otaHeader n ++ rest = beforeLength ++ 0x20 :: fromLength n rest := by
  have hname : ascii "Content-Length: " = ascii "Content-Length:" ++ [0x20] := rfl
  rw [otaHeader_append, lengthBytes, hname, beforeLength, fromLength]
  simp only [List.append_assoc, List.cons_append, List.nil_append]

/-- The value of `Content-Length` is found. -/
theorem contentLengthStart_otaHeader (n : ℕ) (rest : List UInt8) :
    contentLengthStart (otaHeader n ++ rest) = some (beforeLength.length + 1) := by
  have hstatus : ∀ b ∈ statusBytes, b ≠ 0x0D := List.forall_mem_ne'.2 (by decide)
  have htype : ∀ b ∈ typeBytes, b ≠ 0x0D := List.forall_mem_ne'.2 (by decide)
  -- It is neither the first line nor the second one, but the third.
  have hfirst : ∀ tail, startsWithIgnoreCase (statusBytes ++ tail) (ascii "Content-Length:") =
      false := fun tail => (startsWithIgnoreCase_append (by decide) tail).trans (by decide)
  have hsecond : ∀ tail, startsWithIgnoreCase (typeBytes ++ tail) (ascii "Content-Length:") =
      false := fun tail => (startsWithIgnoreCase_append (by decide) tail).trans (by decide)
  have hthird : ∀ tail, startsWithIgnoreCase (lengthBytes n ++ tail) (ascii "Content-Length:") =
      true := fun tail => by
    rw [lengthBytes, List.append_assoc]
    exact (startsWithIgnoreCase_append (by decide) _).trans (by decide)
  have hline : findLine (ascii "Content-Length:") 0 (otaHeader n ++ rest) = some 57 := by
    rw [otaHeader_append, findLine_line hstatus, hsecond, if_neg Bool.false_ne_true,
      findLine_line htype, hthird, if_pos rfl]
    rfl
  -- The one space behind the name is skipped.
  have hskip : skipSpaces (otaHeader n ++ rest) beforeLength.length = beforeLength.length + 1 := by
    have hstop : ∀ b ∈ (fromLength n rest).head?, (b == 0x20) = false := by
      intro b hb
      obtain ⟨d, ds, hdigits⟩ : ∃ d ds, ascii (toString n) = d :: ds := by
        refine List.exists_cons_of_ne_nil fun hnil => ?_
        have htext : (toString n).toList = [] := List.map_eq_nil_iff.1 hnil
        rw [show (toString n).toList = Nat.toDigits 10 n from Nat.toList_repr] at htext
        exact Nat.toDigits_ne_nil htext
      rw [fromLength, hdigits] at hb
      cases hb
      exact beq_false_of_ne (ascii_toString_ne (hdigits ▸ List.mem_cons_self)).2.2
    rw [skipSpaces, otaHeader_eq_beforeLength, List.drop_left, List.takeWhile_cons_of_pos rfl]
    rw [← List.nil_append (fromLength n rest),
      takeWhile_append_of_stop (fun _ h => absurd h List.not_mem_nil) hstop]
    rfl
  have hheaders : startsWithIgnoreCase (otaHeader n ++ rest) (ascii "Content-Length:") = false := by
    rw [otaHeader_append]
    exact hfirst _
  have hname : (ascii "Content-Length:").isEmpty = false := rfl
  have hlength : beforeLength.length = 57 + (ascii "Content-Length:").length := rfl
  rw [contentLengthStart, findHeaderValueStart, hname, hheaders, hline]
  simp only [Bool.false_eq_true, if_false, Option.map_some]
  rw [← hlength, hskip]

/-- There is nothing to trim around digits. -/
theorem trim_of_isDigit {cs : List Char} (h : ∀ c ∈ cs, c.isDigit = true) : trim cs = cs := by
  have hstop : ∀ cs : List Char, (∀ c ∈ cs, c.isDigit = true) → cs.dropWhile isWhitespace = cs := by
    intro cs hcs
    cases cs with
    | nil => rfl
    | cons c cs =>
      have hc := Mqtt.isWhitespace_of_isNumberChar
        (isNumberChar_of_isDigit (hcs c List.mem_cons_self))
      exact List.dropWhile_cons_of_neg (by rw [hc]; exact Bool.false_ne_true)
  rw [trim, hstop cs h, hstop cs.reverse fun c hc => h c (List.mem_reverse.1 hc),
    List.reverse_reverse]

/-- The length that the server has given is read, if it is below `2^32`. -/
theorem parseContentLength_otaHeader {n : ℕ} (hn : n < 2^32) (rest : List UInt8) :
    parseContentLength (otaHeader n ++ rest) = some n := by
  have hvalue : ((otaHeader n ++ rest).drop (beforeLength.length + 1)).takeWhile
      (fun b => b ≠ 0x0D && b ≠ 0x0A) = ascii (toString n) := by
    have hdrop : beforeLength ++ 0x20 :: fromLength n rest =
        (beforeLength ++ [0x20]) ++ fromLength n rest := by simp
    have hlength : beforeLength.length + 1 = (beforeLength ++ [0x20]).length := rfl
    rw [otaHeader_eq_beforeLength, hdrop, hlength, List.drop_left, fromLength]
    refine takeWhile_append_of_stop (fun b hb => ?_) fun b hb => ?_
    · obtain ⟨hcr, hlf, -⟩ := ascii_toString_ne hb
      simp [hcr, hlf]
    · cases hb
      rfl
  have hdigits : ∀ c ∈ Nat.toDigits 10 n, c.isDigit = true := fun c hc => isDigit_toDigits hc
  have htext : utf8Decode (ascii (toString n)) = some (Nat.toDigits 10 n) := by
    rw [← show (toString n).toList = Nat.toDigits 10 n from Nat.toList_repr] at hdigits ⊢
    exact utf8Decode_map_ascii fun c hc =>
      ((Char.isDigit_iff_toNat.1 (hdigits c hc)).2).trans_lt (by decide)
  rw [parseContentLength, contentLengthStart_otaHeader, Option.bind_eq_bind, Option.bind_some,
    hvalue]
  dsimp only
  rw [htext, Option.bind_eq_bind, Option.bind_some, trim_of_isDigit hdigits]
  exact Core.fromStrRadix_eq_some_iff.2 (Core.isNumber_toDigits hn)

end Launa.Xtask
