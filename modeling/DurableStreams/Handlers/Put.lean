import DurableStreams.Handlers.Post

/-!
# The PUT handler

`create_stream` of `handlers/put.rs`. It parses the headers and the body into a `Create`, which it
hands to the storage in one call. Two places can panic: the computation of the expiry from a TTL, and
the conversion of the response headers after the stream has been created.
-/

namespace DurableStreams.Put

open Lib

/-- The status codes of a create. -/
inductive Status where
  | created
  | ok
  deriving DecidableEq, Repr

/-- A response with its headers. -/
structure Response where
  status : Status
  contentType : String
  nextOffset : Offset
  location : String
  closed : Bool
  deriving DecidableEq, Repr

/-- A request as the handler gets it: the name in its path, its headers, its body, or why the body
could not be read, and the clock reading from which the expiry is computed. -/
structure Request where
  name : String
  headers : HeaderMap
  body : Except String Bytes
  now : Timestamp

/-- A create after its headers and body have been parsed. -/
structure Create where
  config : StreamConfig
  messages : List Bytes
  fits : payloadBytes messages < 2 ^ 64

/-! ## Parsing -/

/-- The normalized content type of a new stream. It may be left out but not empty. -/
def contentTypeOf (headers : HeaderMap) : Result String :=
  match headers.getStr "content-type" with
  | none => .ok "application/octet-stream"
  | some contentType =>
      if (trim contentType).isEmpty then .error (.invalidHeader "Content-Type" "empty value")
      else .ok (normalizeContentType contentType)

/-- An optional header that has to parse if it is there. -/
def optionalHeader {α : Type} (headers : HeaderMap) (name : String) (parse : String → Result α) :
    Result (Option α) :=
  match headers.getStr name with
  | none => .ok none
  | some value => (parse value).map some

/-- The largest number of seconds in a `chrono::Duration`. -/
def maxDurationSeconds : Nat := (2 ^ 63 - 1) / 1000

/-- `Utc::now() + chrono::Duration::seconds(i64::try_from(ttl).unwrap_or(i64::MAX))`, or `none` when
that panics. -/
def ttlExpiry (chrono : Chrono) (now : Timestamp) (ttl : Nat) : Option Timestamp :=
  let seconds := if ttl < 2 ^ 63 then ttl else 2 ^ 63 - 1
  if maxDurationSeconds < seconds then none
  else if chrono.maxUtc < now + seconds * 1000000000 then none
  else some (now + seconds * 1000000000)

/-- The configuration of a new stream, or `none` when the computation of its expiry panics. -/
def streamConfig (chrono : Chrono) (now : Timestamp) (contentType : String)
    (ttlSeconds : Option Nat) (expiresAt : Option Timestamp) (createdClosed : Bool) :
    Option StreamConfig :=
  match ttlSeconds with
  | some ttl =>
      (ttlExpiry chrono now ttl).map fun expiry => ⟨contentType, some ttl, some expiry, createdClosed⟩
  | none => some ⟨contentType, none, expiresAt, createdClosed⟩

/-- The messages of a body. An empty array is no message. -/
def messagesOf (serde : SerdeJson) (contentType : String) (body : Bytes) : Result (List Bytes) :=
  if body.isEmpty then .ok []
  else if Get.isJsonContentType contentType then processAppend serde body
  else .ok [body]

/-- The create a request asks for, or `none` when the handler panics or the messages do not fit in
memory. -/
def parseCreate (chrono : Chrono) (serde : SerdeJson) (request : Request) :
    Result (Option Create) := do
  let body ← request.body.mapError fun error =>
    Error.invalidHeader "Content-Length" ("Failed to read body: " ++ error)
  let contentType ← contentTypeOf request.headers
  let ttlSeconds ← optionalHeader request.headers Names.streamTtl parseTtl
  let expiresAt ← optionalHeader request.headers Names.streamExpiresAt (parseExpiresAt chrono)
  if ttlSeconds.isSome && expiresAt.isSome then throw .conflictingExpiration
  let createdClosed := (request.headers.getStr Names.streamClosed).any parseBool
  match streamConfig chrono request.now contentType ttlSeconds expiresAt createdClosed with
  | none => return none
  | some config =>
      let messages ← messagesOf serde contentType body
      if fits : payloadBytes messages < 2 ^ 64 then return some ⟨config, messages, fits⟩
      else return none

/-- The content type of a configuration. -/
theorem stream_config_content_type {chrono : Chrono} {now : Timestamp} {contentType : String}
    {ttlSeconds : Option Nat} {expiresAt : Option Timestamp} {createdClosed : Bool}
    {config : StreamConfig}
    (h : streamConfig chrono now contentType ttlSeconds expiresAt createdClosed = some config) :
    config.contentType = contentType := by
  unfold streamConfig at h
  split at h
  · obtain ⟨expiry, -, rfl⟩ := Option.map_eq_some_iff.mp h
    rfl
  · obtain rfl := Option.some.inj h
    rfl

/-- What a parsed create was parsed from. -/
theorem parse_create_ok {chrono : Chrono} {serde : SerdeJson} {request : Request} {create : Create}
    (h : parseCreate chrono serde request = .ok (some create)) :
    ∃ body, request.body = .ok body ∧
      contentTypeOf request.headers = .ok create.config.contentType ∧
      messagesOf serde create.config.contentType body = .ok create.messages := by
  unfold parseCreate at h
  obtain ⟨body, hbody, h⟩ := Result.bind_ok h
  obtain ⟨contentType, htype, h⟩ := Result.bind_ok h
  obtain ⟨ttlSeconds, -, h⟩ := Result.bind_ok h
  obtain ⟨expiresAt, -, h⟩ := Result.bind_ok h
  split at h
  · cases h
  dsimp only at h
  split at h
  · cases Except.ok.inj h
  next config hconfig =>
  obtain ⟨messages, hmessages, h⟩ := Result.bind_ok h
  split at h
  · obtain rfl := Option.some.inj (Except.ok.inj h)
    rw [stream_config_content_type hconfig]
    exact ⟨body, Result.body_ok hbody, htype, hmessages⟩
  · cases Except.ok.inj h

/-! ## The response -/

/-- Build an absolute Location URL from request headers. -/
def buildLocationUrl (headers : HeaderMap) (name : String) : String :=
  let scheme := (headers.getStr "x-forwarded-proto").getD "http"
  let host := ((headers.getStr "x-forwarded-host").or (headers.getStr "host")).getD "localhost"
  scheme ++ "://" ++ host ++ "/v1/stream/" ++ name

/-- Whether a text can be a header value: no control bytes other than tab. -/
def isHeaderValue (text : String) : Bool :=
  (strBytes text).all fun byte => (32 ≤ byte.toNat && byte.toNat != 127) || byte.toNat == 9

/-- The response to a create, or `none` when one of its headers is no header value. -/
def respond (request : Request) (contentType : String) (result : CreateWithDataResult) :
    Option Response :=
  let location := buildLocationUrl request.headers request.name
  if isHeaderValue contentType && isHeaderValue location then
    some ⟨match result.status with | .created => .created | .alreadyExists => .ok, contentType,
      result.nextOffset, location, result.closed⟩
  else none

/-- `create_stream`. It returns `none` when it panics. -/
def createStream (chrono : Chrono) (serde : SerdeJson) (request : Request) :
    Program Op Reply (Option (Result Response)) :=
  match parseCreate chrono serde request with
  | .error error => .done (some (.error error))
  | .ok none => .done none
  | .ok (some create) =>
      .call (.createStreamWithData request.name create.config create.messages
          create.config.createdClosed create.fits) fun
        | .createdWithData (.ok result) =>
            .done ((respond request create.config.contentType result).map .ok)
        | .createdWithData (.error error) => .done (some (.error error))
        | _ => .done (some (.error (.storage "unexpected reply")))

end DurableStreams.Put
