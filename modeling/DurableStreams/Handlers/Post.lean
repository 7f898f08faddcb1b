import DurableStreams.Lib.Programs
import DurableStreams.Protocol.JsonMode
import DurableStreams.Protocol.Producer
import DurableStreams.Storage.Interface

/-!
# The POST handler

`append_data` of `handlers/post.rs`. It parses the headers and the body into an `Append` and then
takes the path with or without producer sequencing. Each path is a program that calls the storage:
the one without a producer appends and closes in two calls, the one with a producer in one.
-/

namespace DurableStreams

open Lib

/-- A handler from its first storage call on. -/
abbrev Handler (α : Type) := Program Op Reply (Result α)

/-- The answer to an operation is of its own kind, so this is never used. -/
def unexpectedReply {α : Type} : Handler α := .done (.error (.storage "unexpected reply"))

/-- Call `head` and go on with what it returns. -/
def callHead {α : Type} (name : String) (after : Result StreamMetadata → Handler α) : Handler α :=
  .call (.head name) fun
    | .metadata result => after result
    | _ => unexpectedReply

/-- Call `batch_append`. -/
def callBatchAppend {α : Type} (name : String) (messages : List Bytes) (contentType : String)
    (seq : Option String) (fits : payloadBytes messages < 2 ^ 64)
    (after : Result Offset → Handler α) : Handler α :=
  .call (.batchAppend name messages contentType seq fits) fun
    | .offset result => after result
    | _ => unexpectedReply

/-- Call `close_stream`. -/
def callCloseStream {α : Type} (name : String) (after : Result Unit → Handler α) : Handler α :=
  .call (.closeStream name) fun
    | .done result => after result
    | _ => unexpectedReply

/-- Call `append_with_producer`. -/
def callAppendWithProducer {α : Type} (name : String) (messages : List Bytes)
    (contentType : String) (producer : ProducerHeaders) (shouldClose : Bool) (seq : Option String)
    (fits : payloadBytes messages < 2 ^ 64) (after : Result ProducerAppendResult → Handler α) :
    Handler α :=
  .call (.appendWithProducer name messages contentType producer shouldClose seq fits) fun
    | .producer result => after result
    | _ => unexpectedReply

section Calls

variable {α : Type} {allowed : Op → Prop} {name contentType : String} {messages : List Bytes}
  {seq : Option String} {fits : payloadBytes messages < 2 ^ 64}

/-- The calls of a program that begins with `head`. -/
theorem call_head_calls {after : Result StreamMetadata → Handler α} (h : allowed (.head name))
    (hafter : ∀ result, (after result).Calls allowed) : (callHead name after).Calls allowed := by
  refine ⟨h, fun reply => ?_⟩
  cases reply with
  | metadata result => exact hafter result
  | _ => trivial

/-- The calls of a program that begins with `batch_append`. -/
theorem call_batch_append_calls {after : Result Offset → Handler α}
    (h : allowed (.batchAppend name messages contentType seq fits))
    (hafter : ∀ result, (after result).Calls allowed) :
    (callBatchAppend name messages contentType seq fits after).Calls allowed := by
  refine ⟨h, fun reply => ?_⟩
  cases reply with
  | offset result => exact hafter result
  | _ => trivial

/-- The calls of a program that begins with `close_stream`. -/
theorem call_close_stream_calls {after : Result Unit → Handler α} (h : allowed (.closeStream name))
    (hafter : ∀ result, (after result).Calls allowed) :
    (callCloseStream name after).Calls allowed := by
  refine ⟨h, fun reply => ?_⟩
  cases reply with
  | done result => exact hafter result
  | _ => trivial

/-- The calls of a program that begins with `append_with_producer`. -/
theorem call_append_with_producer_calls {producer : ProducerHeaders} {shouldClose : Bool}
    {after : Result ProducerAppendResult → Handler α}
    (h : allowed (.appendWithProducer name messages contentType producer shouldClose seq fits))
    (hafter : ∀ result, (after result).Calls allowed) :
    (callAppendWithProducer name messages contentType producer shouldClose seq fits after).Calls
      allowed := by
  refine ⟨h, fun reply => ?_⟩
  cases reply with
  | producer result => exact hafter result
  | _ => trivial

end Calls

end DurableStreams

namespace DurableStreams.Post

open Lib

/-- The status codes of an append. -/
inductive Status where
  | ok
  | noContent
  | forbidden
  | conflict
  deriving DecidableEq, Repr

/-- A response with its headers and body. -/
structure Response where
  status : Status
  nextOffset : Option Offset
  closed : Bool
  producerEpoch : Option Nat
  producerSeq : Option Nat
  expectedSeq : Option Nat
  receivedSeq : Option Nat
  body : String
  deriving DecidableEq, Repr

/-- An append after its headers and body have been parsed. -/
structure Append where
  name : String
  messages : List Bytes
  contentType : String
  producer : Option ProducerHeaders
  shouldClose : Bool
  isCloseOnly : Bool
  seq : Option String
  fits : payloadBytes messages < 2 ^ 64

/-! ## The two append paths -/

/-- The 409 response for a closed stream. -/
def closedConflict (metadata : StreamMetadata) : Response :=
  ⟨.conflict, some metadata.nextOffset, true, none, none, none, none, "Stream is closed"⟩

/-- Look the final offset up and build the 409 response for a closed stream. -/
def streamClosedResponse (name : String) : Handler Response :=
  callHead name fun result => .done (result.map closedConflict)

/-- The 204 response of the path without a producer. -/
def appendedResponse (request : Append) (nextOffset : Offset) : Response :=
  ⟨.noContent, some nextOffset, request.shouldClose, none, none, none, none, ""⟩

/-- Close the stream if asked to and respond with the offset of the first call. -/
def finishAppend (request : Append) (nextOffset : Offset) : Handler Response :=
  if request.shouldClose then
    callCloseStream request.name fun result =>
      .done (result.map fun _ => appendedResponse request nextOffset)
  else .done (.ok (appendedResponse request nextOffset))

/-- The append path without a producer. -/
def handleNonProducerAppend (request : Append) : Handler Response :=
  if request.messages.isEmpty then
    callHead request.name fun
      | .ok metadata => finishAppend request metadata.nextOffset
      | .error error => .done (.error error)
  else
    callBatchAppend request.name request.messages request.contentType request.seq request.fits fun
      | .ok nextOffset => finishAppend request nextOffset
      | .error .streamClosed => streamClosedResponse request.name
      | .error error => .done (.error error)

/-- The response to a producer append that was accepted or is a duplicate. -/
def producerResponse (isCloseOnly : Bool) : ProducerAppendResult → Response
  | .accepted epoch seq nextOffset closed =>
      ⟨if isCloseOnly then .noContent else .ok, some nextOffset, closed, some epoch, some seq, none,
        none, ""⟩
  | .duplicate epoch seq nextOffset closed =>
      ⟨.noContent, some nextOffset, closed, some epoch, some seq, none, none, ""⟩

/-- The append path with idempotent sequencing. -/
def handleProducerAppend (request : Append) (producer : ProducerHeaders) : Handler Response :=
  callAppendWithProducer request.name request.messages request.contentType producer
    request.shouldClose request.seq request.fits fun
    | .ok result => .done (.ok (producerResponse request.isCloseOnly result))
    | .error .streamClosed => streamClosedResponse request.name
    | .error (.epochFenced current _) =>
        .done (.ok ⟨.forbidden, none, false, some current, none, none, none,
          "Producer epoch fenced"⟩)
    | .error (.sequenceGap expected actual) =>
        .done (.ok ⟨.conflict, none, false, none, none, some expected, some actual,
          "Producer sequence gap"⟩)
    | .error error => .done (.error error)

/-- The append path of a parsed request. -/
def Append.handle (request : Append) : Handler Response :=
  match request.producer with
  | some producer => handleProducerAppend request producer
  | none => handleNonProducerAppend request

/-! ## Parsing -/

/-- A request as the handler gets it: the name in its path, its headers and its body, or why the
body could not be read. -/
structure Request where
  name : String
  headers : HeaderMap
  body : Except String Bytes

/-- The content type of an append. Only a close without a body may leave it out. -/
def contentTypeOf (headers : HeaderMap) (isCloseOnly : Bool) : Result String :=
  match headers.getStr "content-type", isCloseOnly with
  | some contentType, _ => .ok (normalizeContentType contentType)
  | none, true => .ok ""
  | none, false => .error (.invalidHeader "Content-Type" "missing required header")

/-- The messages of a body. An empty array is refused unless the request closes the stream. -/
def messagesOf (serde : SerdeJson) (contentType : String) (shouldClose : Bool) (body : Bytes) :
    Result (List Bytes) :=
  if body.isEmpty then .ok []
  else if Get.isJsonContentType contentType then
    match processAppend serde body with
    | .error error => .error error
    | .ok parsed =>
        if parsed.isEmpty && !shouldClose then
          .error (.invalidJson "empty arrays are not permitted")
        else .ok parsed
  else .ok [body]

/-- The append a request asks for. Messages that do not fit in memory have no append. -/
def parseAppend (serde : SerdeJson) (request : Request) : Result (Option Append) := do
  let body ← request.body.mapError fun error =>
    Error.invalidHeader "Content-Length" ("Failed to read body: " ++ error)
  let shouldClose := (request.headers.getStr Names.streamClosed).any parseBool
  let isCloseOnly := body.isEmpty && shouldClose
  let contentType ← contentTypeOf request.headers isCloseOnly
  let producer ← parseProducerHeaders request.headers
  let seq := request.headers.getStr Names.streamSeq
  if body.isEmpty && !shouldClose then
    throw (.invalidHeader "Content-Length" "empty body requires Stream-Closed header")
  let messages ← messagesOf serde contentType shouldClose body
  if fits : payloadBytes messages < 2 ^ 64 then
    return some ⟨request.name, messages, contentType, producer, shouldClose, isCloseOnly, seq, fits⟩
  else return none

/-- `append_data`. It returns `none` when its messages do not fit in memory. -/
def appendData (serde : SerdeJson) (request : Request) :
    Program Op Reply (Option (Result Response)) :=
  match parseAppend serde request with
  | .error error => .done (some (.error error))
  | .ok none => .done none
  | .ok (some append) => append.handle.map some

end DurableStreams.Post
