import DurableStreams.Storage.Basic

/-!
# SSE frames

The frames of `protocol/sse.rs`. A text is kept as its UTF-8 bytes, as the source walks through it
byte by byte. How invalid UTF-8 is repaired (`repair`) and how a string is written in JSON (`quote`)
are left open.
-/

namespace DurableStreams

/-- The bytes of a character of the standard base64 alphabet. -/
def base64Char (sextet : Nat) : UInt8 :=
  (strBytes "ABCDEFGHIJKLMNOPQRSTUVWXYZabcdefghijklmnopqrstuvwxyz0123456789+/").getD sextet 47

/-- `base64::engine::general_purpose::STANDARD.encode`: four characters for three bytes, padded with
`=` at the end. -/
def base64Encode : Bytes → Bytes
  | [] => []
  | [first] => [base64Char (first.toNat / 4), base64Char (first.toNat % 4 * 16), 61, 61]
  | [first, second] =>
      [base64Char (first.toNat / 4), base64Char (first.toNat % 4 * 16 + second.toNat / 16),
        base64Char (second.toNat % 16 * 4), 61]
  | first :: second :: third :: rest =>
      base64Char (first.toNat / 4) :: base64Char (first.toNat % 4 * 16 + second.toNat / 16) ::
        base64Char (second.toNat % 16 * 4 + third.toNat / 64) :: base64Char (third.toNat % 64) ::
        base64Encode rest

example : base64Encode [1, 2, 3] = strBytes "AQID" := by decide +kernel

/-- `String::from_utf8_lossy`: valid UTF-8 stays as it is. -/
def fromUtf8Lossy (repair : Bytes → Bytes) (data : Bytes) : Bytes :=
  if data.toByteArray.validateUTF8 then data else repair data

/-! ## Frames -/

/-- The loop of `split_lines`: `start` is where the current line begins and `i` where the scan
stands. -/
def splitLinesFrom (bytes : Bytes) (start i : Nat) (lines : List Bytes) : List Bytes :=
  if h : i < bytes.length then
    if bytes[i] = 13 then
      -- A carriage return and the line feed behind it are one line ending.
      if bytes[i + 1]? = some 10 then
        splitLinesFrom bytes (i + 2) (i + 2) (lines ++ [(bytes.take i).drop start])
      else splitLinesFrom bytes (i + 1) (i + 1) (lines ++ [(bytes.take i).drop start])
    else if bytes[i] = 10 then
      splitLinesFrom bytes (i + 1) (i + 1) (lines ++ [(bytes.take i).drop start])
    else splitLinesFrom bytes start (i + 1) lines
  else lines ++ [bytes.drop start]
termination_by bytes.length - i

/-- Split a text on all line endings: CRLF, CR and LF. -/
def splitLines (text : Bytes) : List Bytes := splitLinesFrom text 0 0 []

/-- Format a text as a data frame, one `data:` line for each of its lines. -/
def formatRawDataFrame (text : Bytes) : Bytes :=
  strBytes "event: data\n" ++
    ((splitLines text).map fun line => strBytes "data:" ++ line ++ [10]).flatten ++ [10]

/-- Format the data frame of a single message. -/
def formatDataFrame (repair : Bytes → Bytes) (data : Bytes) (isBinary isJson : Bool) : Bytes :=
  formatRawDataFrame
    (if isBinary then base64Encode data
    else if isJson then [91] ++ fromUtf8Lossy repair data ++ [93]
    else fromUtf8Lossy repair data)

/-- Format the data frames of one read: a single frame with an array for JSON, one frame for each
message otherwise. -/
def formatDataFrames (repair : Bytes → Bytes) (messages : List Bytes) (isBinary isJson : Bool) :
    Bytes :=
  if messages.isEmpty then []
  else if isJson then
    formatRawDataFrame
      ([91] ++ ((messages.map (fromUtf8Lossy repair)).intersperse [44]).flatten ++ [93])
  else (messages.map fun data => formatDataFrame repair data isBinary false).flatten

/-- The JSON payload of a control frame. -/
structure Sse.ControlPayload where
  streamNextOffset : String
  streamCursor : Option String
  upToDate : Option Bool
  streamClosed : Option Bool
  deriving DecidableEq, Repr

/-- `serde_json::to_string` of a boolean. -/
def boolJson (value : Bool) : Bytes := strBytes (if value then "true" else "false")

/-- The members of the payload as `serde` writes them: in camel case, and without those that are
`None`. -/
def Sse.ControlPayload.members (quote : String → Bytes) (payload : ControlPayload) : List Bytes :=
  [strBytes "\"streamNextOffset\":" ++ quote payload.streamNextOffset] ++
    (payload.streamCursor.map fun cursor => strBytes "\"streamCursor\":" ++ quote cursor).toList ++
    (payload.upToDate.map fun value => strBytes "\"upToDate\":" ++ boolJson value).toList ++
    (payload.streamClosed.map fun value => strBytes "\"streamClosed\":" ++ boolJson value).toList

/-- `serde_json::to_string` of a payload. -/
def Sse.ControlPayload.toJson (quote : String → Bytes) (payload : ControlPayload) : Bytes :=
  [123] ++ [44].intercalate (payload.members quote) ++ [125]

/-- Format a control frame. -/
def formatControlFrame (quote : String → Bytes) (payload : Sse.ControlPayload) : Bytes :=
  strBytes "event: control\ndata:" ++ payload.toJson quote ++ strBytes "\n\n"

/-- Format a keep-alive comment frame. -/
def formatKeepaliveFrame : Bytes := strBytes ":\n\n"

/-! ## Texts of one line -/

/-- A text without line breaks is one line. -/
theorem split_lines_single {text : Bytes} (h : 10 ∉ text ∧ 13 ∉ text) : splitLines text = [text] := by
  suffices hfrom : ∀ rest i, text.length = i + rest → splitLinesFrom text 0 i [] = [text] from
    hfrom text.length 0 (by omega)
  intro rest
  induction rest with
  | zero =>
      intro i hi
      rw [splitLinesFrom, dif_neg (by omega)]
      rfl
  | succ rest ih =>
      intro i hi
      have hlt : i < text.length := by omega
      have hne (byte : UInt8) (hmem : byte ∉ text) : text[i] ≠ byte := by
        rintro rfl
        exact hmem (List.getElem_mem hlt)
      rw [splitLinesFrom, dif_pos hlt, if_neg (hne 13 h.2), if_neg (hne 10 h.1)]
      exact ih (i + 1) (by omega)

end DurableStreams
