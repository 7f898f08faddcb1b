import DurableStreams.Lib.EventStream
import DurableStreams.Protocol.SplitLines

/-!
# What a client reads from the frames

The frames are read by a client of the event-stream format. A data frame conveys one event, whatever
bytes its text has (`conveys_raw_data_frame`), and so does a control frame if the strings in it are
written in JSON without control characters (`conveys_control_frame`). Hence no content can add an
event, take one away or set another field.

The frames have no space behind `data:`. A client drops one there, so a line that begins with a space
loses it.
-/

namespace DurableStreams

open Lib Lib.EventStream

/-! ## Frames as lines -/

/-- What a client gets from a text: its lines, each without the space in front of it. -/
def receivedText (text : Bytes) : Bytes := [10].intercalate ((splitLines text).map stripSpace)

/-- The lines of a text are lines. -/
theorem split_lines_one_line {text line : Bytes} (h : line ∈ splitLines text) : OneLine 13 10 line := by
  rw [split_lines_eq] at h
  exact one_line_of_mem false h

theorem split_lines_ne_nil (text : Bytes) : splitLines text ≠ [] := by
  rw [split_lines_eq]
  exact break_lines_ne_nil false text

/-- A data frame conveys its text. -/
theorem conveys_raw_data_frame (text : Bytes) :
    Conveys (formatRawDataFrame text) (ascii "data") (receivedText text) := by
  have hframe : formatRawDataFrame text =
      unlines 10 ((ascii "event:" ++ ascii " data") ::
        ((splitLines text).map (ascii "data:" ++ ·) ++ [[]])) := by
    have hhead : strBytes "event: data\n" = ascii "event:" ++ ascii " data" ++ [10] := by
      decide +kernel
    have hdata : strBytes "data:" = ascii "data:" := by decide +kernel
    rw [formatRawDataFrame, hhead, hdata]
    simp [unlines, List.flatMap_def, Function.comp_def]
  rw [hframe]
  exact @conveys_event (ascii " data") (by decide) (by decide) _ (split_lines_ne_nil text)
    fun _ => split_lines_one_line

/-! ## Control frames -/

section Control

variable {quote : String → Bytes} (hquote : ∀ text, ∀ byte ∈ quote text, 32 ≤ byte.toNat)
  (payload : Sse.ControlPayload)
include hquote

/-- If no string has a control character in it, neither has a payload. -/
theorem mem_to_json : ∀ byte ∈ payload.toJson quote, 32 ≤ byte.toNat := by
  have hlabel (label : String) (h : (strBytes label).all (32 ≤ ·.toNat) = true) {value : Bytes}
      (hvalue : ∀ byte ∈ value, 32 ≤ byte.toNat) :
      ∀ byte ∈ strBytes label ++ value, 32 ≤ byte.toNat := by
    intro byte hbyte
    rcases List.mem_append.mp hbyte with hbyte | hbyte
    · simpa using List.all_eq_true.mp h byte hbyte
    · exact hvalue byte hbyte
  have hbool (value : Bool) : ∀ byte ∈ boolJson value, 32 ≤ byte.toNat := by
    cases value <;> exact List.forall_iff_forall_mem.mp (by decide +kernel)
  have hmembers : ∀ member ∈ payload.members quote, ∀ byte ∈ member, 32 ≤ byte.toNat := by
    intro member hmember
    simp only [Sse.ControlPayload.members, List.mem_append, List.mem_singleton, Option.mem_toList,
      Option.map_eq_some_iff] at hmember
    rcases hmember with ((rfl | ⟨cursor, -, rfl⟩) | ⟨value, -, rfl⟩) | ⟨value, -, rfl⟩
    · exact hlabel _ (by decide +kernel) (hquote _)
    · exact hlabel _ (by decide +kernel) (hquote _)
    · exact hlabel _ (by decide +kernel) (hbool _)
    · exact hlabel _ (by decide +kernel) (hbool _)
  intro byte hbyte
  simp only [Sse.ControlPayload.toJson, List.mem_append, List.mem_singleton] at hbyte
  rcases hbyte with (rfl | hbyte) | rfl
  · decide
  · exact forall_mem_intercalate (by simp) hmembers byte hbyte
  · decide

/-- A control frame conveys its payload. -/
theorem conveys_control_frame :
    Conveys (formatControlFrame quote payload) (ascii "control") (payload.toJson quote) := by
  have hframe : formatControlFrame quote payload =
      unlines 10 ((ascii "event:" ++ ascii " control") ::
        ([payload.toJson quote].map (ascii "data:" ++ ·) ++ [[]])) := by
    have hhead : strBytes "event: control\ndata:" =
        ascii "event:" ++ ascii " control" ++ [10] ++ ascii "data:" := by decide +kernel
    have hend : strBytes "\n\n" = [10, 10] := by decide +kernel
    rw [formatControlFrame, hhead, hend]
    simp [unlines]
  have hline : OneLine 13 10 (payload.toJson quote) :=
    ⟨fun h => absurd (mem_to_json hquote payload _ h) (by decide),
      fun h => absurd (mem_to_json hquote payload _ h) (by decide)⟩
  have hconveys := @conveys_event (ascii " control") (by decide) (by decide)
    [payload.toJson quote] (by simp) (by simpa using hline)
  -- The text of an object begins with a brace, so no space is dropped.
  have hstrip : stripSpace (payload.toJson quote) = payload.toJson quote :=
    (length_strip_space _).2.mpr (by simp [Sse.ControlPayload.toJson])
  have hdata : [10].intercalate ([payload.toJson quote].map stripSpace) = payload.toJson quote := by
    rw [List.map_singleton, hstrip, List.intercalate_singleton]
  rw [hdata] at hconveys
  rwa [hframe]

end Control

/-- A keep-alive frame conveys nothing. -/
theorem feed_keepalive_frame {client : Client} (hidle : client.Idle) (rest : Bytes) :
    feed client (formatKeepaliveFrame ++ rest) = feed client rest := by
  have hframe : formatKeepaliveFrame = unlines 10 [ascii ":", []] := by decide +kernel
  rw [hframe, feed_unlines (by decide)]
  obtain ⟨eventType, data, lastEventId, retry, events⟩ := client
  obtain rfl : eventType = [] := hidle.eventType
  obtain rfl : data = [] := hidle.data
  rfl

/-! ## The frames of a read -/

/-- The texts that are framed. -/
def frameTexts (repair : Bytes → Bytes) (messages : List Bytes) (isBinary isJson : Bool) :
    List Bytes :=
  if messages.isEmpty then []
  else if isJson then
    [[91] ++ ((messages.map (fromUtf8Lossy repair)).intersperse [44]).flatten ++ [93]]
  else messages.map fun data => if isBinary then base64Encode data else fromUtf8Lossy repair data

/-- The data frames of one read, apart. -/
def dataFrames (repair : Bytes → Bytes) (messages : List Bytes) (isBinary isJson : Bool) :
    List Bytes :=
  (frameTexts repair messages isBinary isJson).map formatRawDataFrame

theorem data_frames_flatten (repair : Bytes → Bytes) (messages : List Bytes)
    (isBinary isJson : Bool) :
    (dataFrames repair messages isBinary isJson).flatten =
      formatDataFrames repair messages isBinary isJson := by
  unfold dataFrames frameTexts formatDataFrames
  split
  · rfl
  split
  · simp
  · rw [List.map_map]
    rfl

/-- The events of one read. -/
def readEvents (repair : Bytes → Bytes) (quote : String → Bytes) (messages : List Bytes)
    (isBinary isJson : Bool) (payload : Sse.ControlPayload) : List (Bytes × Bytes) :=
  (frameTexts repair messages isBinary isJson).map (fun text => (ascii "data", receivedText text)) ++
    [(ascii "control", payload.toJson quote)]

/-- Every frame of a read conveys its event. -/
theorem conveys_read_events {quote : String → Bytes}
    (hquote : ∀ text, ∀ byte ∈ quote text, 32 ≤ byte.toNat) (repair : Bytes → Bytes)
    (messages : List Bytes) (isBinary isJson : Bool) (payload : Sse.ControlPayload) :
    List.Forall₂ (fun frame event => Conveys frame event.1 event.2)
      (dataFrames repair messages isBinary isJson ++ [formatControlFrame quote payload])
      (readEvents repair quote messages isBinary isJson payload) := by
  refine List.rel_append ?_ (.cons (conveys_control_frame hquote payload) .nil)
  rw [dataFrames, List.forall₂_map_left_iff, List.forall₂_map_right_iff, List.forall₂_same]
  exact fun text _ => conveys_raw_data_frame text

/-- The framing cannot be injected into. Whatever bytes the messages and whatever strings the payload
have, and whatever keep-alive frames are sent in between, a client gets one data event for each frame
and then the control event, and nothing else of its state changes. -/
theorem read_frames_parse {quote : String → Bytes}
    (hquote : ∀ text, ∀ byte ∈ quote text, 32 ≤ byte.toNat) (repair : Bytes → Bytes)
    (messages : List Bytes) (isBinary isJson : Bool) (payload : Sse.ControlPayload) :
    Interspersed formatKeepaliveFrame
      (dataFrames repair messages isBinary isJson ++ [formatControlFrame quote payload])
      (formatDataFrames repair messages isBinary isJson ++ formatControlFrame quote payload) ∧
    (frameTexts repair messages isBinary isJson).length =
      (if isJson && !messages.isEmpty then 1 else messages.length) ∧
    ∀ wire, Interspersed formatKeepaliveFrame
        (dataFrames repair messages isBinary isJson ++ [formatControlFrame quote payload]) wire →
      ∀ client : Client, client.Idle →
        feed client wire = client.received
          ((frameTexts repair messages isBinary isJson).map
              (fun text => ⟨ascii "data", receivedText text, client.lastEventId⟩) ++
            [⟨ascii "control", payload.toJson quote, client.lastEventId⟩]) := by
  refine ⟨?_, ?_, ?_⟩
  · rw [← data_frames_flatten, ← List.flatten_concat]
    exact .flatten _ _
  · unfold frameTexts
    cases messages <;> cases isJson <;> simp
  · intro wire hwire client hidle
    rw [feed_interspersed (fun client rest hidle => feed_keepalive_frame hidle rest)
      (conveys_read_events hquote repair messages isBinary isJson payload) hwire hidle]
    rw [readEvents, List.map_append, List.map_map]
    rfl

/-- How `serde_json` writes a byte of a string. -/
def escapeByte (byte : UInt8) : Bytes :=
  if byte = 8 then ascii "\\b"
  else if byte = 9 then ascii "\\t"
  else if byte = 10 then ascii "\\n"
  else if byte = 12 then ascii "\\f"
  else if byte = 13 then ascii "\\r"
  else if byte = 34 then ascii "\\\""
  else if byte = 92 then ascii "\\\\"
  else if byte.toNat < 32 then
    ascii "\\u00" ++ [byte.toNat / 16, byte.toNat % 16].map fun digit =>
      if digit < 10 then UInt8.ofNat (48 + digit) else UInt8.ofNat (87 + digit)
  else [byte]

/-- How `serde_json` writes a string. -/
def quoteJson (text : String) : Bytes := [34] ++ (strBytes text).flatMap escapeByte ++ [34]

/-- No control character is left. -/
theorem mem_quote_json (text : String) : ∀ byte ∈ quoteJson text, 32 ≤ byte.toNat := by
  have hescape : ∀ code < 256, (escapeByte (UInt8.ofNat code)).Forall (32 ≤ ·.toNat) := by
    decide +kernel
  intro byte hbyte
  simp only [quoteJson, List.mem_append, List.mem_singleton, List.mem_flatMap] at hbyte
  rcases hbyte with (rfl | ⟨source, -, hbyte⟩) | rfl
  · decide
  · refine List.forall_iff_forall_mem.mp (hescape source.toNat source.toNat_lt) byte ?_
    rwa [UInt8.ofNat_toNat]
  · decide

/-- A message that looks like the end of its frame and a control frame behind it stays one event. -/
theorem forged_frame_parses :
    feed Client.new (formatDataFrames id [strBytes "a\r\n\r\nevent: control\ndata:b\r\r"] false false ++
        formatControlFrame quoteJson ⟨"\n\n", none, some true, none⟩) =
      Client.new.received
        [⟨ascii "data", ascii "a\n\nevent: control\ndata:b\n\n", []⟩,
          ⟨ascii "control", strBytes "\x7b\"streamNextOffset\":\"\\n\\n\",\"upToDate\":true\x7d", []⟩] := by
  have hparse := read_frames_parse mem_quote_json id
    [strBytes "a\r\n\r\nevent: control\ndata:b\r\r"] false false ⟨"\n\n", none, some true, none⟩
  rw [hparse.2.2 _ hparse.1 Client.new ⟨rfl, rfl⟩]
  decide +kernel

/-! ## Texts -/

/-- A text of UTF-8 is sent as it is. -/
theorem from_utf8_lossy_str_bytes (repair : Bytes → Bytes) (text : String) :
    fromUtf8Lossy repair (strBytes text) = strBytes text := by
  have hvalid : (strBytes text).toByteArray.validateUTF8 = true := by
    rw [ByteArray.validateUTF8_eq_true_iff, str_bytes_eq, utf8Encode]
    exact ⟨text.toList, by simp [List.utf8Encode]⟩
  rw [fromUtf8Lossy, if_pos hvalid]

/-- The bytes of a text with line feeds for its line ends. -/
theorem intercalate_split_lines (text : String) :
    [10].intercalate (splitLines (strBytes text)) = strBytes (normalizeLines text) := by
  have hjoin := intercalate_flat_map String.utf8EncodeChar ['\n'] (breakLines '\r' '\n' false text.toList)
  rw [intercalate_break_lines] at hjoin
  rw [split_lines_eq, str_bytes_eq, break_lines_utf8, str_bytes_eq, normalizeLines,
    String.toList_ofList]
  exact hjoin

/-- A client gets the text, with line feeds for its line ends, if and only if no line of it begins
with a space. -/
theorem received_text_eq (text : String) :
    receivedText (strBytes text) = strBytes (normalizeLines text) ↔
      ∀ line ∈ linesOf text, line.toList.head? ≠ some ' ' := by
  rw [receivedText, ← intercalate_split_lines, intercalate_strip_space (split_lines_ne_nil _),
    split_lines_str_bytes, List.forall_mem_map]
  refine forall_congr' fun line => imp_congr_right fun _ => not_congr ?_
  rw [str_bytes_eq]
  exact head_utf8_encode_eq (show ' '.toNat < 128 by decide) line.toList

/-! ## Base64 -/

/-- The six bits of a character of the base64 alphabet. -/
def base64Value (byte : UInt8) : Option Nat :=
  if 65 ≤ byte.toNat ∧ byte.toNat ≤ 90 then some (byte.toNat - 65)
  else if 97 ≤ byte.toNat ∧ byte.toNat ≤ 122 then some (byte.toNat - 71)
  else if 48 ≤ byte.toNat ∧ byte.toNat ≤ 57 then some (byte.toNat + 4)
  else if byte = 43 then some 62
  else if byte = 47 then some 63
  else none

/-- Decode base64: three bytes for four characters. Only the last four may be padded, and the bits
that are left over are zero then. -/
def base64Decode : Bytes → Option Bytes
  | [] => some []
  | first :: second :: third :: fourth :: rest => do
      let a ← base64Value first
      let b ← base64Value second
      if rest = [] ∧ fourth = 61 then
        if third = 61 then
          if b % 16 = 0 then some [UInt8.ofNat (a * 4 + b / 16)] else none
        else do
          let c ← base64Value third
          if c % 4 = 0 then
            some [UInt8.ofNat (a * 4 + b / 16), UInt8.ofNat (b % 16 * 16 + c / 4)]
          else none
      else do
        let c ← base64Value third
        let d ← base64Value fourth
        let bytes ← base64Decode rest
        some (UInt8.ofNat (a * 4 + b / 16) :: UInt8.ofNat (b % 16 * 16 + c / 4) ::
          UInt8.ofNat (c % 4 * 64 + d) :: bytes)
  | _ => none

/-- The characters of the alphabet stand for their six bits, and none is a space, a control character
or the padding. -/
theorem base64_char_spec {sextet : Nat} (h : sextet < 64) :
    base64Value (base64Char sextet) = some sextet ∧ 32 < (base64Char sextet).toNat ∧
      base64Char sextet ≠ 61 := by
  have hall : ∀ sextet < 64, base64Value (base64Char sextet) = some sextet ∧
      32 < (base64Char sextet).toNat ∧ base64Char sextet ≠ 61 := by
    decide +kernel
  exact hall sextet h

/-- Decoding is the inverse of encoding. -/
theorem base64_decode_encode (data : Bytes) : base64Decode (base64Encode data) = some data := by
  have hbyte (byte : UInt8) {code : Nat} (h : code = byte.toNat) : UInt8.ofNat code = byte := by
    rw [h, UInt8.ofNat_toNat]
  fun_induction base64Encode data with
  | case1 => rfl
  | case2 first =>
      have hfirst := first.toNat_lt
      rw [base64Decode, (base64_char_spec (by omega)).1, (base64_char_spec (by omega)).1]
      dsimp only [Option.bind_eq_bind, Option.bind_some]
      rw [if_pos ⟨rfl, rfl⟩, if_pos rfl, if_pos (by omega), hbyte first (by omega)]
  | case3 first second =>
      have hfirst := first.toNat_lt
      have hsecond := second.toNat_lt
      rw [base64Decode, (base64_char_spec (by omega)).1, (base64_char_spec (by omega)).1]
      dsimp only [Option.bind_eq_bind, Option.bind_some]
      rw [if_pos ⟨rfl, rfl⟩, if_neg (base64_char_spec (by omega)).2.2, (base64_char_spec (by omega)).1]
      dsimp only [Option.bind_eq_bind, Option.bind_some]
      rw [if_pos (by omega), hbyte first (by omega), hbyte second (by omega)]
  | case4 first second third rest ih =>
      have hfirst := first.toNat_lt
      have hsecond := second.toNat_lt
      have hthird := third.toNat_lt
      rw [base64Decode, (base64_char_spec (by omega)).1, (base64_char_spec (by omega)).1]
      dsimp only [Option.bind_eq_bind, Option.bind_some]
      rw [if_neg fun h => (base64_char_spec (by omega)).2.2 h.2, (base64_char_spec (by omega)).1,
        (base64_char_spec (by omega)).1, ih]
      dsimp only [Option.bind_eq_bind, Option.bind_some]
      rw [hbyte first (by omega), hbyte second (by omega), hbyte third (by omega)]

/-- Encoded data has no space and no control character in it. -/
theorem mem_base64_encode {data : Bytes} : ∀ byte ∈ base64Encode data, 32 < byte.toNat := by
  have hchar {sextet : Nat} (h : sextet < 64) : 32 < (base64Char sextet).toNat :=
    (base64_char_spec h).2.1
  fun_induction base64Encode data with
  | case1 => simp
  | case2 first =>
      have hfirst := first.toNat_lt
      simp only [List.forall_mem_cons]
      exact ⟨hchar (by omega), hchar (by omega), by decide, by decide, by simp⟩
  | case3 first second =>
      have hfirst := first.toNat_lt
      have hsecond := second.toNat_lt
      simp only [List.forall_mem_cons]
      exact ⟨hchar (by omega), hchar (by omega), hchar (by omega), by decide, by simp⟩
  | case4 first second third rest ih =>
      have hfirst := first.toNat_lt
      have hsecond := second.toNat_lt
      have hthird := third.toNat_lt
      simp only [List.forall_mem_cons]
      exact ⟨hchar (by omega), hchar (by omega), hchar (by omega), hchar (by omega), ih⟩

/-- So a client gets it as it is. -/
theorem received_text_base64 (data : Bytes) : receivedText (base64Encode data) = base64Encode data := by
  have habsent {byte : UInt8} (h : byte.toNat ≤ 32) : byte ∉ base64Encode data := by
    intro hmem
    have := mem_base64_encode byte hmem
    omega
  have hstrip : stripSpace (base64Encode data) = base64Encode data :=
    (length_strip_space _).2.mpr fun h => habsent (by decide) (List.mem_of_head? h)
  rw [receivedText, split_lines_single ⟨habsent (by decide), habsent (by decide)⟩,
    List.map_singleton, hstrip, List.intercalate_singleton]

/-! ## A message on the wire -/

/-- A client gets one data event from a frame. -/
theorem feed_raw_data_frame (text : Bytes) :
    feed Client.new (formatRawDataFrame text) =
      Client.new.received [⟨ascii "data", receivedText text, []⟩] := by
  have hfeed := conveys_raw_data_frame text Client.new [] ⟨rfl, rfl⟩
  rwa [List.append_nil] at hfeed

/-- What survives the wire. A text is read as a single data event, and the data of it is the text with
line feeds for its line ends if and only if no line begins with a space. The data of a message on a
binary stream decodes to the message. -/
theorem format_data_frame_read_back (repair : Bytes → Bytes) :
    (∀ text : String,
      (∃ data, feed Client.new (formatDataFrame repair (strBytes text) false false) =
        Client.new.received [⟨ascii "data", data, []⟩]) ∧
      (feed Client.new (formatDataFrame repair (strBytes text) false false) =
          Client.new.received [⟨ascii "data", strBytes (normalizeLines text), []⟩] ↔
        ∀ line ∈ linesOf text, line.toList.head? ≠ some ' ')) ∧
    ∀ (data : Bytes) (isJson : Bool), ∃ encoded,
      feed Client.new (formatDataFrame repair data true isJson) =
        Client.new.received [⟨ascii "data", encoded, []⟩] ∧
      base64Decode encoded = some data := by
  refine ⟨fun text => ?_, fun data isJson => ?_⟩
  · have hframe : formatDataFrame repair (strBytes text) false false =
        formatRawDataFrame (strBytes text) := by
      rw [formatDataFrame, if_neg Bool.false_ne_true, if_neg Bool.false_ne_true,
        from_utf8_lossy_str_bytes]
    rw [hframe, feed_raw_data_frame, ← received_text_eq]
    refine ⟨⟨_, rfl⟩, fun h => ?_, fun h => by rw [h]⟩
    simpa [Client.received, Client.new] using h
  · refine ⟨base64Encode data, ?_, base64_decode_encode data⟩
    rw [formatDataFrame, if_pos rfl, feed_raw_data_frame, received_text_base64]

/-- The space in front of a text is lost. -/
theorem leading_space_lost :
    feed Client.new (formatDataFrame id (strBytes " a") false false) =
        Client.new.received [⟨ascii "data", strBytes "a", []⟩] ∧
      feed Client.new (formatDataFrame id (strBytes " a") false false) ≠
        Client.new.received [⟨ascii "data", strBytes (normalizeLines " a"), []⟩] := by
  decide +kernel

end DurableStreams
