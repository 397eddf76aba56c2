import Mathlib.Algebra.Group.Nat.Defs
import Mathlib.Tactic.Common

/-!
# HTTP parsing for firmware downloads

The pure functions of `http.rs`. A byte buffer is a list of bytes and a `&str` the list of its
characters. Of the standard library `str::from_utf8`, `str::trim` and `from_str_radix` are defined
here as documented: UTF-8 without surrogates and overlong forms, Unicode white space, and digits
after at most one `+`.
-/

namespace Launa.Ota

/-! ## Strings -/

/-- The code point of a lead byte's payload and its continuation bytes. -/
def codePoint (lead : ℕ) (conts : List UInt8) : ℕ :=
  conts.foldl (fun cp b => cp * 64 + b.toNat % 64) lead

/-- The bytes are all continuation bytes. -/
def areConts (bs : List UInt8) : Bool := bs.all fun b => 0x80 ≤ b && b < 0xC0

/-- `str::from_utf8`. -/
def utf8Decode : List UInt8 → Option (List Char)
  | [] => some []
  | b0 :: rest0 =>
    if b0 < 0x80 then (utf8Decode rest0).map (Char.ofNat b0.toNat :: ·)
    else match rest0 with
      | [] => none
      | b1 :: rest1 =>
        if 0xC2 ≤ b0 && b0 < 0xE0 then
          if areConts [b1] then
            (utf8Decode rest1).map (Char.ofNat (codePoint (b0.toNat % 32) [b1]) :: ·)
          else none
        else match rest1 with
          | [] => none
          | b2 :: rest2 =>
            if 0xE0 ≤ b0 && b0 < 0xF0 then
              let cp := codePoint (b0.toNat % 16) [b1, b2]
              if areConts [b1, b2] && 0x800 ≤ cp && !(0xD800 ≤ cp && cp < 0xE000) then
                (utf8Decode rest2).map (Char.ofNat cp :: ·)
              else none
            else match rest2 with
              | [] => none
              | b3 :: rest3 =>
                let cp := codePoint (b0.toNat % 8) [b1, b2, b3]
                if 0xF0 ≤ b0 && b0 ≤ 0xF4 && areConts [b1, b2, b3] && 0x10000 ≤ cp &&
                    cp < 0x110000 then
                  (utf8Decode rest3).map (Char.ofNat cp :: ·)
                else none

/-- `char::is_whitespace`: the characters with the property `White_Space`. -/
def isWhitespace (c : Char) : Bool :=
  let n := c.toNat
  (9 ≤ n && n ≤ 13) || n == 0x20 || n == 0x85 || n == 0xA0 || n == 0x1680 ||
    (0x2000 ≤ n && n ≤ 0x200A) || n == 0x2028 || n == 0x2029 || n == 0x202F || n == 0x205F ||
    n == 0x3000

/-- `str::trim`. -/
def trim (cs : List Char) : List Char :=
  ((cs.dropWhile isWhitespace).reverse.dropWhile isWhitespace).reverse

/-- `char::to_digit`. -/
def toDigit (radix : ℕ) (c : Char) : Option ℕ :=
  let d :=
    if '0' ≤ c && c ≤ '9' then c.toNat - '0'.toNat
    else if 'a' ≤ c && c ≤ 'z' then c.toNat - 'a'.toNat + 10
    else if 'A' ≤ c && c ≤ 'Z' then c.toNat - 'A'.toNat + 10
    else radix
  if d < radix then some d else none

/-- `from_str_radix` of an unsigned type with the numbers below `bound`. -/
def fromStrRadix (radix bound : ℕ) (cs : List Char) : Option ℕ :=
  let digits := match cs with
    | '+' :: rest => rest
    | cs => cs
  if digits.isEmpty then none
  else digits.foldlM (fun n c => do
    let d ← toDigit radix c
    let next := n * radix + d
    if next < bound then some next else none) 0

/-- `str::strip_prefix`, of a list. -/
def stripPrefix {α : Type} [BEq α] (pre cs : List α) : Option (List α) :=
  if pre.isPrefixOf cs then some (cs.drop pre.length) else none

/-- The characters after the first `c`. -/
def afterFirst (c : Char) (cs : List Char) : Option (List Char) :=
  if c ∈ cs then some ((cs.dropWhile (· ≠ c)).drop 1) else none

/-- The bytes of an ASCII string. -/
def ascii (s : String) : List UInt8 := s.toList.map fun c => UInt8.ofNat c.toNat

/-! ## `http.rs` -/

/-- `validate_http_status`: `HTTP/1.`, and `200` after the first space. -/
def validateHttpStatus (headers : List UInt8) : Bool :=
  if !(ascii "HTTP/1.").isPrefixOf headers then false
  else
    match headers.idxOf? 0x20 with
    | none => false
    | some spacePos => (headers.drop (spacePos + 1)).take 3 == ascii "200"

/-- `find_header_end`: the position of the first `\r\n\r\n`. -/
def findHeaderEnd : List UInt8 → Option ℕ
  | [] => none
  | b :: rest =>
    if (ascii "\r\n\r\n").isPrefixOf (b :: rest) then some 0 else (findHeaderEnd rest).map (· + 1)

/-- The value of the first `crc=` parameter of the query. -/
def crcParam (url : List Char) : Option (List Char) := do
  let query ← afterFirst '?' url
  (query.splitOn '&').findSome? (stripPrefix "crc=".toList)

/-- `parse_crc_from_url`. -/
def parseCrcFromUrl (url : List Char) : Option UInt32 := do
  let value ← crcParam url
  let crc ← fromStrRadix 16 (2^32) value
  return UInt32.ofNat crc

/-- `parse_http_url`: host, port and path. -/
def parseHttpUrl (url : List Char) : Option (List Char × ℕ × List Char) := do
  let url ← stripPrefix "http://".toList url
  let hostPort := url.takeWhile (· ≠ '/')
  let path := if '/' ∈ url then url.dropWhile (· ≠ '/') else "/".toList
  if ':' ∈ hostPort then
    let port ← fromStrRadix 10 (2^16) ((hostPort.dropWhile (· ≠ ':')).drop 1)
    return (hostPort.takeWhile (· ≠ ':'), port, path)
  else
    return (hostPort, 80, path)

/-- `u8::to_ascii_lowercase`. -/
def toAsciiLowercase (b : UInt8) : UInt8 := if 0x41 ≤ b && b ≤ 0x5A then b + 0x20 else b

/-- `starts_with_ignore_case`. -/
def startsWithIgnoreCase (data pre : List UInt8) : Bool :=
  pre.length ≤ data.length &&
    ((data.take pre.length).map toAsciiLowercase == pre.map toAsciiLowercase)

/-- `skip_spaces`: the position of the first byte from `pos` on that is not a space. -/
def skipSpaces (data : List UInt8) (pos : ℕ) : ℕ :=
  pos + ((data.drop pos).takeWhile (· == 0x20)).length

/-- The start of the first line after position `pos`, of which `rest` is the data, that begins with
`name`. -/
def findLine (name : List UInt8) : ℕ → List UInt8 → Option ℕ
  | _, [] => none
  | pos, 0x0D :: 0x0A :: rest =>
    if startsWithIgnoreCase rest name then some (pos + 2) else findLine name (pos + 2) rest
  | pos, _ :: rest => findLine name (pos + 1) rest

/-- `find_header_value_start_case_insensitive`: the position of a header's value. The loop's bound
only leaves out an empty last line, which begins with no name. -/
def findHeaderValueStart (headers name : List UInt8) : Option ℕ :=
  if name.isEmpty then none
  else if startsWithIgnoreCase headers name then some (skipSpaces headers name.length)
  else (findLine name 0 headers).map fun lineStart => skipSpaces headers (lineStart + name.length)

/-- The position of the value of `Content-Length`. -/
def contentLengthStart (headers : List UInt8) : Option ℕ :=
  findHeaderValueStart headers (ascii "Content-Length:")

/-- `parse_content_length`. -/
def parseContentLength (headers : List UInt8) : Option ℕ := do
  let pos ← contentLengthStart headers
  let value := (headers.drop pos).takeWhile fun b => b ≠ 0x0D && b ≠ 0x0A
  let valueStr ← utf8Decode value
  fromStrRadix 10 (2^32) (trim valueStr)

-- A name in other letter case, and the value up to the end of its line.
example : parseContentLength (ascii "HTTP/1.1 200 OK\r\ncontent-LENGTH:   512\r\nA: b\r\n\r\n") =
    some 512 := by decide +kernel

end Launa.Ota
