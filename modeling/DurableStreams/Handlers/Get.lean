import DurableStreams.Storage.Basic

/-!
# Responses of the GET handlers

The response builders of `handlers/get.rs`. A response keeps the messages its body was built from.
The cursor is whatever `cursor::generate` returned for the response, so it is an argument here.
-/

namespace DurableStreams.Get

/-- The status codes of a read. -/
inductive Status where
  | ok
  | noContent
  | notModified
  deriving DecidableEq, Repr

/-- A response with its headers and body. -/
structure Response where
  status : Status
  contentType : Option String
  nextOffset : Offset
  upToDate : Bool
  etag : Option String
  closed : Bool
  cursor : Option String
  messages : List Bytes
  body : Bytes
  deriving DecidableEq, Repr

/-- Check if a content type is JSON. -/
def isJsonContentType (contentType : String) : Bool := contentType == "application/json"

/-- Wrap stored JSON messages in an array: `[`, the messages joined by `,`, and `]`. -/
def wrapReadIter (messages : List Bytes) : Bytes :=
  [91] ++ (messages.intersperse [44]).flatten ++ [93]

/-- Build the response body from the messages of a read. -/
def buildBody (messages : List Bytes) (contentType : String) : Bytes :=
  if isJsonContentType contentType then wrapReadIter messages else messages.flatten

/-- Whether a read reached the end of a closed stream. -/
def closedAtTail (result : ReadResult) : Bool := result.closed && result.atTail

/-- Generate the `ETag` of a read result, marked when the stream is closed at the tail. -/
def generateEtag (startOffset : String) (result : ReadResult) : String :=
  if closedAtTail result then "\"" ++ startOffset ++ ":" ++ result.nextOffset.asStr ++ ":c\""
  else "\"" ++ startOffset ++ ":" ++ result.nextOffset.asStr ++ "\""

/-- Build a 304 Not Modified response. -/
def build304Response (result : ReadResult) : Response :=
  ⟨.notModified, none, result.nextOffset, true, none, false, none, [], []⟩

/-- Build a 200 OK response with message data. -/
def buildDataResponse (result : ReadResult) (contentType etag : String) (cursor : Option String) :
    Response :=
  ⟨.ok, some contentType, result.nextOffset, result.atTail, some etag, closedAtTail result, cursor,
    result.messages, buildBody result.messages contentType⟩

/-- Build a 204 No Content response for a long-poll timeout or a closed stream. -/
def build204Response (nextOffset : Offset) (isClosed : Bool) (cursor : String) : Response :=
  ⟨.noContent, none, nextOffset, true, none, isClosed, some cursor, [], []⟩

/-- The response of a catch-up read: a 304 if the client has the response already, else the data. -/
def catchUpResponse (rawOffset : String) (ifNoneMatch : Option String) (contentType : String)
    (result : ReadResult) : Response :=
  let etag := generateEtag rawOffset result
  if ifNoneMatch = some etag then build304Response result
  else buildDataResponse result contentType etag none

/-- A long-poll request as the handler gets it: the offset, its text, the validator of a cached
response, and the content type of the stream. -/
structure PollRequest where
  offset : Offset
  rawOffset : String
  ifNoneMatch : Option String
  contentType : String
  deriving DecidableEq, Repr

/-- What the first read of a long-poll comes to: an immediate response, or waiting at the tail
offset it returned. -/
def afterFirstRead (request : PollRequest) (result : ReadResult) (cursor : String) :
    Response ⊕ Offset :=
  let etag := generateEtag request.rawOffset result
  if request.ifNoneMatch = some etag then .inl (build304Response result)
  else if result.messages ≠ [] then
    .inl (buildDataResponse result request.contentType etag (some cursor))
  else if closedAtTail result then .inl (build204Response result.nextOffset true cursor)
  else .inr result.nextOffset

/-- A first read either answers with exactly what it read, unless that is a 304, or has read nothing
and waits at the offset it returned. -/
theorem after_first_read_cases (request : PollRequest) (result : ReadResult) (cursor : String) :
    (∃ response, afterFirstRead request result cursor = .inl response ∧
      (response.status ≠ .notModified → response.nextOffset = result.nextOffset ∧
        response.messages = result.messages)) ∨
    (result.messages = [] ∧ afterFirstRead request result cursor = .inr result.nextOffset) := by
  unfold afterFirstRead
  by_cases hmatch : request.ifNoneMatch = some (generateEtag request.rawOffset result)
  · exact .inl ⟨_, if_pos hmatch, fun hstatus => absurd rfl hstatus⟩
  by_cases hmessages : result.messages = []
  · by_cases hclosed : closedAtTail result = true
    · exact .inl ⟨build204Response result.nextOffset true cursor, by simp [hmatch, hmessages, hclosed],
        fun _ => ⟨rfl, hmessages.symm⟩⟩
    · exact .inr ⟨hmessages, by simp [hmatch, hmessages, hclosed]⟩
  · exact .inl ⟨buildDataResponse result request.contentType
      (generateEtag request.rawOffset result) (some cursor), by simp [hmatch, hmessages],
      fun _ => ⟨rfl, rfl⟩⟩

/-- The response to a wake-up, from a second read at the tail offset. -/
def handleLongPollWake (tailOffset : Offset) (contentType : String) (result : ReadResult)
    (cursor : String) : Response :=
  if result.messages = [] then build204Response result.nextOffset (closedAtTail result) cursor
  else
    buildDataResponse result contentType (generateEtag tailOffset.asStr result) (some cursor)

/-- The response to a timeout, from a second read at the tail offset. It carries the offset of that
read but none of its messages. -/
def timeoutResponse (result : ReadResult) (cursor : String) : Response :=
  build204Response result.nextOffset (closedAtTail result) cursor

/-- The answer to a wake-up carries all that was read. -/
theorem wake_carries (tailOffset : Offset) (contentType : String) (result : ReadResult)
    (cursor : String) :
    (handleLongPollWake tailOffset contentType result cursor).nextOffset = result.nextOffset ∧
      (handleLongPollWake tailOffset contentType result cursor).messages = result.messages := by
  unfold handleLongPollWake
  split
  · next hempty => exact ⟨rfl, hempty.symm⟩
  · exact ⟨rfl, rfl⟩

end DurableStreams.Get
