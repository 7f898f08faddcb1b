import DurableStreams.Storage.Basic

/-!
# Request headers

The header names and parsers of `protocol/headers.rs`, and the pieces of the standard library and of
the `http` crate they rest on. A header value is a byte string; the handlers only use values that
`to_str` accepts, which are visible ASCII, so lower-casing below is that of ASCII.
-/

namespace DurableStreams

/-! ## Text -/

/-- `char::is_whitespace`. -/
def isWhitespace (c : Char) : Bool :=
  (9 ≤ c.toNat && c.toNat ≤ 13) || (0x2000 ≤ c.toNat && c.toNat ≤ 0x200A) ||
    [0x20, 0x85, 0xA0, 0x1680, 0x2028, 0x2029, 0x202F, 0x205F, 0x3000].contains c.toNat

/-- `str::trim`. -/
def trim (text : String) : String :=
  String.ofList
    (((text.toList.dropWhile isWhitespace).reverse.dropWhile isWhitespace).reverse)

/-- `str::to_lowercase` of an ASCII string. -/
def toLowercase (text : String) : String := String.ofList (text.toList.map Char.toLower)

/-- One digit of `u64::from_str`. A character that is no digit is reported before an overflow. -/
def parseDigit (value : Nat) (c : Char) : Except String Nat :=
  if c.isDigit then
    if 10 * value + (c.toNat - 48) < 2 ^ 64 then .ok (10 * value + (c.toNat - 48))
    else .error "number too large to fit in target type"
  else .error "invalid digit found in string"

/-- `u64::from_str`, which accepts a leading plus sign. -/
def parseU64 (text : String) : Except String Nat :=
  match text.toList with
  | [] => .error "cannot parse integer from empty string"
  | ['+'] => .error "invalid digit found in string"
  | '+' :: digits => digits.foldlM parseDigit 0
  | digits => digits.foldlM parseDigit 0

/-! ## Header maps -/

/-- The headers of a request, in order. -/
abbrev HeaderMap := List (String × Bytes)

/-- `HeaderMap::get`: the first value of a header, whose name is compared ignoring case. -/
def HeaderMap.get (headers : HeaderMap) (name : String) : Option Bytes :=
  (headers.find? fun header => eqIgnoreAsciiCase header.1 name).map Prod.snd

/-- The bytes `HeaderValue::to_str` accepts: visible ASCII and tab. -/
def isVisibleAscii (byte : UInt8) : Bool :=
  (32 ≤ byte.toNat && byte.toNat < 127) || byte.toNat == 9

/-- `HeaderValue::to_str`. -/
def toStr (value : Bytes) : Option String :=
  if value.all isVisibleAscii then
    some (String.ofList (value.map fun byte => Char.ofNat byte.toNat))
  else none

/-- The text of a header, if it is there and is text. -/
def HeaderMap.getStr (headers : HeaderMap) (name : String) : Option String :=
  (headers.get name).bind toStr

namespace Names

def streamTtl : String := "Stream-TTL"
def streamExpiresAt : String := "Stream-Expires-At"
def streamClosed : String := "Stream-Closed"
def streamSeq : String := "Stream-Seq"
def producerId : String := "Producer-Id"
def producerEpoch : String := "Producer-Epoch"
def producerSeq : String := "Producer-Seq"

end Names

/-! ## Parsers -/

/-- Parse the TTL header value: an unsigned integer without leading zeros, decimals, scientific
notation or sign. -/
def parseTtl (value : String) : Result Nat :=
  let trimmed := trim value
  let chars := trimmed.toList
  if chars.isEmpty then .error (.invalidTtl "empty value")
  else if 1 < chars.length ∧ chars.head? = some '0' then
    .error (.invalidTtl ("leading zeros not allowed: '" ++ trimmed ++ "'"))
  else if '.' ∈ chars then
    .error (.invalidTtl ("decimal values not allowed: '" ++ trimmed ++ "'"))
  else if 'e' ∈ chars ∨ 'E' ∈ chars then
    .error (.invalidTtl ("scientific notation not allowed: '" ++ trimmed ++ "'"))
  else if chars.head? = some '-' then
    .error (.invalidTtl ("negative values not allowed: '" ++ trimmed ++ "'"))
  else if chars.head? = some '+' then
    .error (.invalidTtl ("leading plus sign not allowed: '" ++ trimmed ++ "'"))
  else
    (parseU64 trimmed).mapError fun error =>
      .invalidTtl ("invalid integer '" ++ trimmed ++ "': " ++ error)

/-- What the server uses of `chrono`: parsing of ISO 8601 timestamps, and its latest instant. -/
structure Chrono where
  parse : String → Except String Timestamp
  maxUtc : Timestamp

/-- Parse the Expires-At header value. -/
def parseExpiresAt (chrono : Chrono) (value : String) : Result Timestamp :=
  (chrono.parse value).mapError fun error =>
    .invalidHeader Names.streamExpiresAt ("invalid ISO 8601 timestamp: " ++ error)

/-- Parse a boolean header value: `true` in any case, anything else is false. -/
def parseBool (value : String) : Bool := eqIgnoreAsciiCase (trim value) "true"

/-- Normalize a content type for storage and comparison: without parameters, in lower case. -/
def normalizeContentType (contentType : String) : String :=
  toLowercase (trim (String.ofList (contentType.toList.takeWhile (· != ';'))))

example : normalizeContentType " Application/JSON ; charset=utf-8" = "application/json" := by
  decide

end DurableStreams
