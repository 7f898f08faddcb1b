import Mathlib
import DurableStreams.Handlers.Locations
import DurableStreams.Protocol.Sse
import DurableStreams.Storage.Memory.Reads
import DurableStreams.Storage.Memory.Writes
import DurableStreams.Storage.Services

/-!
# JSON mode from the write to the read

PUT and POST requests run concurrently against any of the backends, one storage call at a time. What
a request stores in a JSON stream is decided when its body is parsed: `Stores` says how the messages of
a request come from its body, and `Makes` that its storage calls carry these messages. From that
follows what a JSON stream holds after every run (`Holds`), and what reads make of it.
-/

namespace DurableStreams.JsonStreams

open Lib

/-- Texts in lower case that are the same ignoring case are the same. -/
theorem eq_of_eq_ignore_ascii_case {left right : String} (hleft : toLowercase left = left)
    (hright : toLowercase right = right) (h : eqIgnoreAsciiCase left right = true) :
    left = right := by
  have hchars : left.toList.map Char.toLower = right.toList.map Char.toLower := by
    simpa [eqIgnoreAsciiCase] using h
  rw [← hleft, ← hright, toLowercase, toLowercase, hchars]

/-- A normalized content type is in lower case. -/
theorem normalize_content_type_lower (contentType : String) :
    toLowercase (normalizeContentType contentType) = normalizeContentType contentType := by
  simp [normalizeContentType, toLowercase, Function.comp_def]

/-- A request that can store data. -/
inductive Request where
  | put (request : Put.Request)
  | post (request : Post.Request)

/-- The stream it is for. -/
def Request.name : Request → String
  | .put request => request.name
  | .post request => request.name

/-- The body of a request, or why it could not be read. -/
def Request.body : Request → Except String Bytes
  | .put request => request.body
  | .post request => request.body

/-- The response of one of the handlers. -/
inductive Response where
  | put (response : Put.Response)
  | post (response : Post.Response)

section Requests

variable (chrono : Chrono) (serde : SerdeJson)

/-- The program of a request. -/
def Request.handle : Request → Program Op Reply (Option (Result Response))
  | .put request =>
      (Put.createStream chrono serde request).map fun answer => answer.map (·.map .put)
  | .post request =>
      (Post.appendData serde request).map fun answer => answer.map (·.map .post)

/-- The elements of a body whose top-level value is an array, and the single value of any other
body. -/
def bodyElements (request : Request) : List serde.Value :=
  match request.body with
  | .error _ => []
  | .ok body =>
      if body.isEmpty then []
      else
        match serde.fromSlice body with
        | .error _ => []
        | .ok value => serde.elements value

/-! ## What a request stores -/

/-- How the messages of a request come from its body. Without messages there is nothing in the
body. -/
structure Stores (request : Request) (contentType : String) (messages : List Bytes) : Prop where
  lower : toLowercase contentType = contentType
  nonempty : ∀ data ∈ messages, data ≠ []
  elements : contentType = "application/json" ∨ messages = [] →
    messages = (bodyElements serde request).map serde.toVec

/-- A storage call on the stream of the request that carries what it stores, or nothing. -/
def Makes (request : Request) (op : Op) : Prop :=
  op.name = request.name ∧ match op with
    | .createStreamWithData _ config messages _ _ =>
        Stores serde request config.contentType messages
    | .batchAppend _ messages contentType _ _ | .appendWithProducer _ messages contentType _ _ _ _ =>
        Stores serde request contentType messages
    | .head _ | .closeStream _ => True
    | _ => False

variable {chrono serde}

/-- No message of such a call is empty. -/
theorem Makes.nonempty {request : Request} {op : Op} (h : Makes serde request op) :
    ∀ data ∈ op.messages, data ≠ [] := by
  cases op with
  | createStreamWithData | batchAppend | appendWithProducer => exact Stores.nonempty h.2
  | head | closeStream => simp [Op.messages]
  | _ => exact h.2.elim

/-- The messages of a body that is parsed as JSON. -/
theorem stores_json (hserde : serde.Lawful) {request : Request} {contentType : String}
    {body : Bytes} {messages : List Bytes} (hbody : request.body = .ok body)
    (hnonempty : body.isEmpty = false) (hlower : toLowercase contentType = contentType)
    (h : processAppend serde body = .ok messages) : Stores serde request contentType messages := by
  obtain ⟨value, hvalue, rfl⟩ := (process_append_ok_iff serde).mp h
  refine ⟨hlower, fun data hdata => ?_, fun _ => ?_⟩
  · obtain ⟨element, -, rfl⟩ := List.mem_map.mp hdata
    exact hserde.nonempty element
  · simp [bodyElements, hbody, hnonempty, hvalue]

/-- The messages of an empty body. -/
theorem stores_nothing {request : Request} {contentType : String} {body : Bytes}
    (hbody : request.body = .ok body) (hempty : body.isEmpty = true)
    (hlower : toLowercase contentType = contentType) : Stores serde request contentType [] :=
  ⟨hlower, by simp, fun _ => by simp [bodyElements, hbody, hempty]⟩

/-- The single message of any other body. -/
theorem stores_raw {request : Request} {contentType : String} {body : Bytes}
    (hnonempty : body.isEmpty = false) (hlower : toLowercase contentType = contentType)
    (hjson : Get.isJsonContentType contentType = false) :
    Stores serde request contentType [body] := by
  refine ⟨hlower, fun data hdata => ?_, fun h => ?_⟩
  · obtain rfl := List.mem_singleton.mp hdata
    simpa using hnonempty
  · obtain rfl | h := h
    · cases hjson
    · cases h

/-- The messages of a PUT. -/
theorem put_messages_stores (hserde : serde.Lawful) {request : Request} {contentType : String}
    {body : Bytes} {messages : List Bytes} (hbody : request.body = .ok body)
    (hlower : toLowercase contentType = contentType)
    (h : Put.messagesOf serde contentType body = .ok messages) :
    Stores serde request contentType messages := by
  unfold Put.messagesOf at h
  split at h
  · next hempty =>
      cases h
      exact stores_nothing hbody hempty hlower
  next hnonempty =>
  have hnonempty : body.isEmpty = false := by simpa using hnonempty
  split at h
  · exact stores_json hserde hbody hnonempty hlower h
  · next hjson =>
      cases h
      exact stores_raw hnonempty hlower (by simpa using hjson)

/-- The messages of a POST. -/
theorem post_messages_stores (hserde : serde.Lawful) {request : Request} {contentType : String}
    {shouldClose : Bool} {body : Bytes} {messages : List Bytes} (hbody : request.body = .ok body)
    (hlower : toLowercase contentType = contentType)
    (h : Post.messagesOf serde contentType shouldClose body = .ok messages) :
    Stores serde request contentType messages := by
  unfold Post.messagesOf at h
  split at h
  · next hempty =>
      cases h
      exact stores_nothing hbody hempty hlower
  next hnonempty =>
  have hnonempty : body.isEmpty = false := by simpa using hnonempty
  split at h
  · cases hparsed : processAppend serde body with
    | error error => simp [hparsed] at h
    | ok parsed =>
        rw [hparsed] at h
        dsimp only at h
        split at h
        · cases h
        · cases h
          exact stores_json hserde hbody hnonempty hlower hparsed
  · next hjson =>
      cases h
      exact stores_raw hnonempty hlower (by simpa using hjson)

/-- The content type of an append is in lower case. -/
theorem post_content_type_lower {headers : HeaderMap} {isCloseOnly : Bool} {contentType : String}
    (h : Post.contentTypeOf headers isCloseOnly = .ok contentType) :
    toLowercase contentType = contentType := by
  unfold Post.contentTypeOf at h
  split at h
  · rw [← Except.ok.inj h]
    exact normalize_content_type_lower _
  · rw [← Except.ok.inj h]
    rfl
  · exact nomatch h

/-- The content type of a new stream is in lower case. -/
theorem put_content_type_lower {headers : HeaderMap} {contentType : String}
    (h : Put.contentTypeOf headers = .ok contentType) : toLowercase contentType = contentType := by
  unfold Put.contentTypeOf at h
  split at h
  · rw [← Except.ok.inj h]
    decide
  · split at h
    · exact nomatch h
    · rw [← Except.ok.inj h]
      exact normalize_content_type_lower _

/-- What a parsed POST appends, and whether it closes the stream. -/
theorem parse_append_stores (hserde : serde.Lawful) {request : Post.Request}
    {append : Post.Append} (h : Post.parseAppend serde request = .ok (some append)) :
    append.name = request.name ∧
      Stores serde (.post request) append.contentType append.messages ∧
      (bodyElements serde (.post request) ≠ [] → append.isCloseOnly = false) ∧
      append.shouldClose = (request.headers.getStr Names.streamClosed).any parseBool := by
  unfold Post.parseAppend at h
  obtain ⟨body, hbody, h⟩ := Result.bind_ok h
  obtain ⟨contentType, htype, h⟩ := Result.bind_ok h
  obtain ⟨producer, -, h⟩ := Result.bind_ok h
  split at h
  · exact nomatch h
  obtain ⟨messages, hmessages, h⟩ := Result.bind_ok h
  split at h
  · obtain rfl := Option.some.inj (Except.ok.inj h)
    have hbody := Result.body_ok hbody
    refine ⟨rfl, post_messages_stores hserde hbody (post_content_type_lower htype) hmessages, ?_, rfl⟩
    intro helements
    cases hempty : body.isEmpty with
    | false => rfl
    | true => simp [bodyElements, Request.body, hbody, hempty] at helements
  · exact nomatch Except.ok.inj h

/-- What a parsed PUT stores. -/
theorem parse_create_stores (hserde : serde.Lawful) {request : Put.Request}
    {create : Put.Create} (h : Put.parseCreate chrono serde request = .ok (some create)) :
    Stores serde (.put request) create.config.contentType create.messages := by
  obtain ⟨body, hbody, htype, hmessages⟩ := Put.parse_create_ok h
  exact put_messages_stores hserde hbody (put_content_type_lower htype) hmessages

/-! ## The storage calls of a request -/

/-- What a POST calls after it has been parsed. -/
theorem append_handle_calls {request : Request} {append : Post.Append}
    (hname : append.name = request.name) (h : Stores serde request append.contentType append.messages) :
    append.handle.Calls (Makes serde request) := by
  have hclosed : (Post.streamClosedResponse append.name).Calls (Makes serde request) :=
    call_head_calls ⟨hname, trivial⟩ fun _ => trivial
  have hfinish (nextOffset : Offset) :
      (Post.finishAppend append nextOffset).Calls (Makes serde request) := by
    unfold Post.finishAppend
    split
    · exact call_close_stream_calls ⟨hname, trivial⟩ fun _ => trivial
    · trivial
  unfold Post.Append.handle
  cases append.producer with
  | some producer =>
      refine call_append_with_producer_calls ⟨hname, h⟩ fun result => ?_
      split <;> first | exact hclosed | trivial
  | none =>
      simp only [Post.handleNonProducerAppend]
      split
      · refine call_head_calls ⟨hname, trivial⟩ fun result => ?_
        cases result with
        | ok metadata => exact hfinish _
        | error error => trivial
      · refine call_batch_append_calls ⟨hname, h⟩ fun result => ?_
        split
        · exact hfinish _
        · exact hclosed
        · trivial

variable (chrono) in
/-- The calls of a request carry what it stores. -/
theorem handle_calls (hserde : serde.Lawful) (request : Request) :
    (request.handle chrono serde).Calls (Makes serde request) := by
  cases request with
  | put request =>
      refine Program.Calls.map ?_
      unfold Put.createStream
      split
      · trivial
      · trivial
      · next create hcreate =>
          refine ⟨⟨rfl, parse_create_stores hserde hcreate⟩, fun reply => ?_⟩
          dsimp only
          split <;> trivial
  | post request =>
      refine Program.Calls.map ?_
      unfold Post.appendData
      split
      · trivial
      · trivial
      · next append happend =>
          obtain ⟨hname, hstores, -⟩ := parse_append_stores hserde happend
          exact (append_handle_calls hname hstores).map

/-! ## The answer to a request -/

/-- A reply of the kind of its operation. -/
def Proper : Op → Reply → Prop
  | .createStreamWithData .., .createdWithData _ | .batchAppend .., .offset _
  | .appendWithProducer .., .producer _ | .head _, .metadata _ | .closeStream _, .done _ => True
  | _, _ => False

/-- A reply that reports that data was stored. -/
def stored (reply : Reply) : Bool := reply.createdStream || reply.appended

/-- An answer that reports it: 201 to a PUT, and to a POST 200, or 204 without a producer. A duplicate
is answered with 204 and its producer. -/
def accepts : Option (Result Response) → Bool
  | some (.ok (.put response)) => response.status = .created
  | some (.ok (.post response)) =>
      response.status = .ok || (response.status = .noContent && response.producerEpoch = none)
  | _ => false

/-- How a request can fail that has stored data: the name of a new stream is no header value, or the
stream cannot be closed after the append. -/
def Interrupted : Request → Option (Result Response) → Prop
  | .put request, answer => answer = none ∧ Put.isHeaderValue request.name = false
  | .post request, answer => (∃ error, answer = some (.error error)) ∧
      (request.headers.getStr Names.streamClosed).any parseBool = true

variable (serde) in
/-- The answer to a request with values in its body says whether it has stored them. -/
def Tells (request : Request) (counted : Bool) (answer : Option (Result Response)) : Prop :=
  bodyElements serde request ≠ [] → (accepts answer = true → counted = true) ∧
    (counted = true → accepts answer = true ∨ Interrupted request answer)

/-- A request that is refused. -/
theorem Tells.refused {request : Request} {answer : Option (Result Response)}
    (h : accepts answer = false) : Tells serde request false answer :=
  fun _ => ⟨fun haccepts => h.symm.trans haccepts, fun hcounted => by cases hcounted⟩

/-- A request that is accepted. -/
theorem Tells.accepted {request : Request} {answer : Option (Result Response)}
    (h : accepts answer = true ∨ Interrupted request answer) : Tells serde request true answer :=
  fun _ => ⟨fun _ => rfl, fun _ => h⟩

variable (chrono) in
/-- The answer to a PUT. -/
theorem put_reports (request : Put.Request) :
    (Put.createStream chrono serde request).Reports Proper stored (fun counted answer =>
      Tells serde (.put request) counted (answer.map (·.map .put))) false := by
  unfold Put.createStream
  split
  · exact .refused rfl
  · exact .refused rfl
  next create hcreate =>
  intro reply hproper
  cases reply with
  | createdWithData result =>
      cases result with
      | error error => exact .refused rfl
      | ok result =>
          obtain ⟨body, -, htype, -⟩ := Put.parse_create_ok hcreate
          obtain ⟨status, nextOffset, closed⟩ := result
          dsimp only [Program.Reports]
          rw [Put.respond, Put.content_type_is_header_value htype, Put.location_is_header_value,
            Bool.true_and]
          cases hname : Put.isHeaderValue request.name with
          | true => cases status with
            | created => exact .accepted (.inl rfl)
            | alreadyExists => exact .refused rfl
          | false => cases status with
            | created => exact .accepted (.inr ⟨rfl, hname⟩)
            | alreadyExists => exact .refused rfl
  | _ => exact hproper.elim

/-- The answer to a POST after it has been parsed. -/
theorem append_reports {request : Post.Request} {append : Post.Append}
    (hmessages : append.messages ≠ []) (hcloseOnly : append.isCloseOnly = false)
    (hclose : append.shouldClose = (request.headers.getStr Names.streamClosed).any parseBool) :
    append.handle.Reports Proper stored (fun counted answer =>
      Tells serde (.post request) counted (some (answer.map .post))) false := by
  have hclosed : (Post.streamClosedResponse append.name).Reports Proper stored (fun counted answer =>
      Tells serde (.post request) counted (some (answer.map .post))) false := by
    intro reply hproper
    cases reply with
    | metadata result => cases result <;> exact .refused rfl
    | _ => exact hproper.elim
  unfold Post.Append.handle
  cases append.producer with
  | some producer =>
      intro reply hproper
      cases reply with
      | producer result =>
          dsimp only
          split
          · next result =>
              rw [hcloseOnly]
              cases result with
              | accepted => exact .accepted (.inl rfl)
              | duplicate => exact .refused rfl
          · exact hclosed
          all_goals exact .refused rfl
      | _ => exact hproper.elim
  | none =>
      rw [Post.handleNonProducerAppend, if_neg (by simpa using hmessages)]
      intro reply hproper
      cases reply with
      | offset result =>
          dsimp only
          split
          · unfold Post.finishAppend
            split
            · next hshould =>
                rw [hshould] at hclose
                intro reply hproper
                cases reply with
                | done result => cases result with
                  | ok _ => exact .accepted (.inl rfl)
                  | error error => exact .accepted (.inr ⟨⟨error, rfl⟩, hclose.symm⟩)
                | _ => exact hproper.elim
            · exact .accepted (.inl rfl)
          · exact hclosed
          · exact .refused rfl
      | _ => exact hproper.elim

variable (chrono) in
/-- The answer to a request. -/
theorem handle_reports (hserde : serde.Lawful) (request : Request) :
    (request.handle chrono serde).Reports Proper stored (Tells serde request) false := by
  cases request with
  | put request => exact (put_reports chrono request).map fun _ _ h => h
  | post request =>
      refine Program.Reports.map ?_ fun _ _ h => h
      by_cases helements : bodyElements serde (.post request) = []
      · exact .of_forall (fun _ _ hnonempty => absurd helements hnonempty) _ _
      unfold Post.appendData
      split
      · exact .refused rfl
      · exact .refused rfl
      · next append happend =>
          obtain ⟨-, hstores, hcloseOnly, hclose⟩ := parse_append_stores hserde happend
          have hmessages : append.messages ≠ [] := fun hnil => helements <| by
            simpa [hnil] using (hstores.elements (.inr hnil)).symm
          exact (append_reports hmessages (hcloseOnly helements) hclose).map fun _ _ h => h

end Requests

/-! ## What the streams hold -/

/-- The requests that have stored data in the stream of a name, from its creation on. -/
def record (name : String) (ledger : List Request) (served : Served Request Clock Op Reply) :
    List Request :=
  if served.request.name ≠ name then ledger
  else if served.output.createdStream then [served.request]
  else if served.output.appended then ledger ++ [served.request]
  else ledger

/-- Going by the calls of a run, in the order in which they were made. -/
def storedBy (name : String) (log : List (Option (Served Request Clock Op Reply))) :
    List Request :=
  log.foldl (fun ledger served => served.elim ledger (record name ledger)) []

section Holding

variable (serde : SerdeJson)

/-- The values in the bodies of some requests. -/
def valuesOf (ledger : List Request) : List serde.Value := ledger.flatMap (bodyElements serde)

/-- What a stream holds: no empty message, and the values of the requests if it is a JSON stream. -/
structure Holds (ledger : List Request) (stream : Memory.StreamEntry) : Prop where
  lower : toLowercase stream.config.contentType = stream.config.contentType
  nonempty : ∀ data ∈ stream.payloads, data ≠ []
  values : stream.config.contentType = "application/json" →
    stream.payloads = (valuesOf serde ledger).map serde.toVec

variable {serde} {ledger : List Request} {request : Request}

/-- A new stream holds what its request stores. -/
theorem Holds.created {contentType : String} {messages : List Bytes} {entry : Memory.StreamEntry}
    (h : Stores serde request contentType messages) (hconfig : entry.config.contentType = contentType)
    (hpayloads : entry.payloads = messages) : Holds serde [request] entry := by
  subst hconfig hpayloads
  refine ⟨h.lower, h.nonempty, fun hjson => ?_⟩
  rw [h.elements (.inl hjson), valuesOf, List.flatMap_singleton]

/-- Messages appended with the content type of the stream. -/
theorem Holds.appended {contentType : String} {messages : List Bytes}
    {stream after : Memory.StreamEntry} (h : Holds serde ledger stream)
    (hstores : Stores serde request contentType messages) (hconfig : after.config = stream.config)
    (hpayloads : after.payloads = stream.payloads ++ messages)
    (htype : messages ≠ [] → eqIgnoreAsciiCase contentType stream.config.contentType = true) :
    Holds serde (ledger ++ [request]) after := by
  refine ⟨by rw [hconfig]; exact h.lower, fun data hdata => ?_, fun hjson => ?_⟩
  · rw [hpayloads] at hdata
    exact (List.mem_append.mp hdata).elim (h.nonempty data) (hstores.nonempty data)
  · rw [hconfig] at hjson
    have helements : messages = (bodyElements serde request).map serde.toVec := by
      refine hstores.elements ?_
      by_cases hmessages : messages = []
      · exact .inr hmessages
      · left
        rw [eq_of_eq_ignore_ascii_case hstores.lower h.lower (htype hmessages), hjson]
    rw [hpayloads, h.values hjson, helements, valuesOf, valuesOf, List.flatMap_append,
      List.flatMap_singleton, List.map_append]

/-- A stream with the same log holds the same. -/
theorem Holds.same {stream after : Memory.StreamEntry} (h : Holds serde ledger stream)
    (hconfig : after.config = stream.config) (hpayloads : after.payloads = stream.payloads) :
    Holds serde ledger after := by
  refine ⟨by rw [hconfig]; exact h.lower, by rw [hpayloads]; exact h.nonempty, ?_⟩
  rw [hconfig, hpayloads]
  exact h.values

variable (serde) in
/-- What every stream of a storage holds, going by the calls so far. -/
def AllHold (ledger : String → List Request) (memory : Memory.InMemoryStorage) : Prop :=
  ∀ name stream, memory.streams.lookup name = some stream → Holds serde (ledger name) stream

variable {limits : Limits} {memory : Memory.InMemoryStorage} {index : Nat} {clock : Clock} {op : Op}
  {reply : Reply} {ledgers : String → List Request}

/-- A call that stores nothing is not recorded. -/
theorem record_quiet {name : String} {served : Served Request Clock Op Reply}
    (h : served.request.name = name →
      served.output.createdStream = false ∧ served.output.appended = false) :
    record name ledger served = ledger := by
  unfold record
  split
  · rfl
  · next hname =>
      obtain ⟨hcreated, happended⟩ := h (by simpa using hname)
      simp [hcreated, happended]

/-- What a create with data stores in the in-memory storage. -/
theorem create_holds {config : StreamConfig} {messages : List Bytes}
    {shouldClose : Bool} {fits : payloadBytes messages < 2 ^ 64} {stream : Memory.StreamEntry}
    (hinvariant : Memory.Invariant limits memory)
    (hstores : Stores serde request config.contentType messages)
    (h : ∀ stream, memory.streams.lookup request.name = some stream → Holds serde ledger stream)
    (hlookup : (Memory.step limits ⟨clock, .createStreamWithData request.name config messages
      shouldClose fits⟩ memory).2.streams.lookup request.name = some stream)
    (hcreated : reply.createdStream = (Memory.step limits ⟨clock, .createStreamWithData request.name
      config messages shouldClose fits⟩ memory).1.createdStream)
    (happended : reply.appended = false) :
    Holds serde (record request.name ledger ⟨index, request, clock, op, reply⟩) stream := by
  obtain ⟨-, hcases⟩ := Memory.create_with_data_cases hinvariant
  obtain ⟨hmade, entry, hentry, hconfig, hpayloads⟩ | ⟨hnot, hsame | hgone⟩ := hcases
  · rw [hmade] at hcreated
    obtain rfl : entry = stream := Option.some.inj (hentry.symm.trans hlookup)
    have hrecord : record request.name ledger ⟨index, request, clock, op, reply⟩ = [request] := by
      simp [record, hcreated]
    rw [hrecord]
    exact .created hstores (by rw [hconfig]) hpayloads
  · rw [hnot] at hcreated
    rw [record_quiet fun _ => ⟨hcreated, happended⟩]
    exact h stream (hsame.symm.trans hlookup)
  · cases hgone.symm.trans hlookup

/-- What an operation on a stream stores in the in-memory storage. -/
theorem append_holds {stream : Memory.StreamEntry} (hinvariant : Memory.Invariant limits memory)
    (hop : Memory.onStream op = true) (hmakes : Makes serde request op)
    (h : ∀ stream, memory.streams.lookup request.name = some stream → Holds serde ledger stream)
    (hlookup : (Memory.step limits ⟨clock, op⟩ memory).2.streams.lookup request.name = some stream)
    (hcreated : reply.createdStream = false)
    (happended : reply.appended = (Memory.step limits ⟨clock, op⟩ memory).1.appended) :
    Holds serde (record request.name ledger ⟨index, request, clock, op, reply⟩) stream := by
  rw [← hmakes.1] at h hlookup
  cases hbefore : memory.streams.lookup op.name with
  | none =>
      rw [Memory.step_of_stream_op limits memory hop, hbefore] at hlookup
      cases hbefore.symm.trans hlookup
  | some before =>
      obtain ⟨after, hafter, hconfig, hpayloads, htype⟩ :=
        @Memory.append_cases limits memory before ⟨clock, op⟩ hinvariant hop hbefore
      obtain rfl : after = stream := Option.some.inj (hafter.symm.trans hlookup)
      rw [Call.added, ← happended] at hpayloads
      cases hadded : reply.appended with
      | false =>
          rw [record_quiet fun _ => ⟨hcreated, hadded⟩]
          rw [hadded, if_neg Bool.false_ne_true, List.append_nil] at hpayloads
          exact (h before hbefore).same hconfig hpayloads
      | true =>
          have hrecord : record request.name ledger ⟨index, request, clock, op, reply⟩ =
              ledger ++ [request] := by
            simp [record, hcreated, hadded]
          rw [hadded, if_pos rfl] at hpayloads
          rw [hadded] at happended
          rw [hrecord]
          cases op with
          | batchAppend name messages contentType seq fits =>
              exact (h before hbefore).appended hmakes.2 hconfig hpayloads fun hmessages =>
                htype contentType rfl happended.symm hmessages
          | appendWithProducer name messages contentType producer shouldClose seq fits =>
              exact (h before hbefore).appended hmakes.2 hconfig hpayloads fun hmessages =>
                htype contentType rfl happended.symm hmessages
          | head | closeStream => cases happended
          | createStreamWithData => cases hop
          | _ => exact hmakes.2.elim

/-- A storage call of a request, with a reply that reports what the in-memory storage reports. -/
theorem AllHold.step (h : AllHold serde ledgers memory)
    (hinvariant : Memory.Invariant limits memory) (hmakes : Makes serde request op)
    (hreply : reply.observed = (Memory.step limits ⟨clock, op⟩ memory).1.observed) :
    AllHold serde
      (fun name => record name (ledgers name) ⟨index, request, clock, op, reply⟩)
      (Memory.step limits ⟨clock, op⟩ memory).2 := by
  have hcreated := congrArg Reply.createdStream hreply
  have happended := congrArg Reply.appended hreply
  rw [Reply.observed_created_stream, Reply.observed_created_stream] at hcreated
  rw [Reply.observed_appended, Reply.observed_appended] at happended
  intro name stream hlookup
  dsimp only
  by_cases hname : request.name = name
  · subst hname
    have h := h request.name
    cases op with
    | createStreamWithData name config messages shouldClose fits =>
        obtain rfl : name = request.name := hmakes.1
        exact create_holds hinvariant hmakes.2 h hlookup hcreated happended
    | batchAppend name messages contentType seq fits =>
        by_cases hmessages : messages.isEmpty = true
        · simp only [Memory.step, Memory.batchAppend, hmessages, if_true] at hlookup happended hcreated
          have hquiet : reply.createdStream = false ∧ reply.appended = false := ⟨hcreated, happended⟩
          rw [record_quiet fun _ => hquiet]
          exact h stream hlookup
        · have hop : Memory.onStream (.batchAppend name messages contentType seq fits) = true := by
            simpa [Memory.onStream] using hmessages
          exact append_holds hinvariant hop hmakes h hlookup hcreated happended
    | appendWithProducer name messages contentType producer shouldClose seq fits =>
        exact append_holds hinvariant rfl hmakes h hlookup hcreated happended
    | head | closeStream => exact append_holds hinvariant rfl hmakes h hlookup hcreated happended
    | _ => exact hmakes.2.elim
  · rw [record_quiet fun hsame => absurd hsame hname]
    refine h name stream ?_
    rw [← (Memory.step_effect ⟨clock, op⟩ hinvariant).others fun hsame =>
      hname (hmakes.1.symm.trans hsame.symm)]
    exact hlookup

/-- A storage call of a request to any backend. -/
theorem AllHold.follow {memory' : Memory.InMemoryStorage}
    (h : AllHold serde ledgers memory) (hinvariant : Memory.Invariant limits memory)
    (hmakes : Makes serde request op) (hfollows : Follows limits ⟨clock, op⟩ memory reply memory') :
    AllHold serde
      (fun name => record name (ledgers name) ⟨index, request, clock, op, reply⟩) memory' := by
  cases hfollows with
  | refused error =>
      intro name stream hlookup
      dsimp only
      rw [record_quiet fun _ => by cases op <;> exact ⟨rfl, rfl⟩]
      exact h name stream hlookup
  | quiet hwrites =>
      intro name stream hlookup
      dsimp only
      rw [record_quiet fun _ => ⟨Reply.created_stream_of_not_writes hwrites,
        Reply.appended_of_not_writes hwrites⟩]
      exact h name stream hlookup
  | same hreply => exact h.step hinvariant hmakes hreply

/-- The reply to it is of its kind. -/
theorem Makes.proper {memory' : Memory.InMemoryStorage} (h : Makes serde request op)
    (hfollows : Follows limits ⟨clock, op⟩ memory reply memory') : Proper op reply := by
  have hkind : Proper op (Memory.step limits ⟨clock, op⟩ memory).1 := by
    cases op with
    | createStreamWithData | batchAppend | appendWithProducer | head | closeStream => trivial
    | _ => exact h.2.elim
  have hsame (hreply : reply.observed = (Memory.step limits ⟨clock, op⟩ memory).1.observed) :
      Proper op reply := by
    rwa [Reply.eq_of_observed hreply fun receiver heq => by rw [heq] at hkind; cases op <;> exact hkind]
  cases hfollows with
  | refused error => cases op <;> trivial
  | quiet _ hreply => exact hsame hreply
  | same hreply => exact hsame hreply

end Holding

/-! ## Runs of the server -/

section Runs

variable (chrono : Chrono) (serde : SerdeJson) (service : Service)

/-- A server with the requests it works on. -/
abbrev Server := Lib.Server service.State Request Op Reply (Option (Result Response))

/-- Accept a request, or make the next storage call of one. -/
abbrev Event := ServerEvent Request Clock

/-- One event of the server. -/
def next : Event → Server service → Option (Served Request Clock Op Reply) × Server service :=
  serve (Request.handle chrono serde) fun clock op state => service.step ⟨clock, op⟩ state

/-- A server that has seen no request. -/
def start : Server service := ⟨service.start, []⟩

/-- The backend admits the storage call of the event. -/
def Admitted : Event → Server service → Prop
  | .accept _, _ => True
  | .advance index clock, server =>
      ∀ running ∈ server.running[index]?, ∀ op ∈ running.program.next,
        service.Admits ⟨clock, op⟩ server.state

/-- The calls of a run and the server after it. -/
def run (events : List Event) :
    List (Option (Served Request Clock Op Reply)) × Server service :=
  exec (next chrono serde service) events (start service)

/-- The backend holds the streams the calls so far have stored, and all programs keep to what they
may call and tell what their calls have stored. -/
structure Inv (log : List (Option (Served Request Clock Op Reply))) (server : Server service) :
    Prop where
  obeys : server.Obeys (Makes serde)
  answers : server.Answers Proper stored (Tells serde) log
  holds : ∃ memory, service.Backs server.state memory ∧
    AllHold serde (fun name => storedBy name log) memory

variable {serde service}

/-- One more call. -/
theorem stored_by_concat (name : String) (log : List (Option (Served Request Clock Op Reply)))
    (served : Option (Served Request Clock Op Reply)) :
    storedBy name (log ++ [served]) =
      served.elim (storedBy name log) (record name (storedBy name log)) := by
  simp [storedBy]

/-- Every event keeps the invariant. -/
theorem Inv.next (hserde : serde.Lawful) {log : List (Option (Served Request Clock Op Reply))}
    {server : Server service} {event : Event} (h : Inv serde service log server)
    (hadmitted : Admitted service event server) :
    Inv serde service (log ++ [(next chrono serde service event server).1])
      (next chrono serde service event server).2 := by
  suffices hrest : (∀ served ∈ (JsonStreams.next chrono serde service event server).1,
      Proper served.input served.output) ∧ ∃ memory, service.Backs
        (JsonStreams.next chrono serde service event server).2.state memory ∧ AllHold serde
          (fun name => storedBy name (log ++ [(JsonStreams.next chrono serde service event server).1]))
          memory from
    ⟨(serve_obeys (handle_calls chrono hserde) event h.obeys).1,
      serve_answers (handle_reports chrono hserde) event h.answers hrest.1, hrest.2⟩
  obtain ⟨memory, hbacks, hholds⟩ := h.holds
  obtain heq | ⟨request, -, heq⟩ | ⟨index, clock, request, op, resume, rfl, hrunning, heq⟩ :=
    serve_cases (Request.handle chrono serde) (fun clock op state => service.step ⟨clock, op⟩ state)
      event server
  · rw [JsonStreams.next, heq]
    refine ⟨by simp, memory, hbacks, ?_⟩
    simp only [stored_by_concat, Option.elim_none]
    exact hholds
  · rw [JsonStreams.next, heq]
    refine ⟨by simp, memory, hbacks, ?_⟩
    simp only [stored_by_concat, Option.elim_none]
    exact hholds
  · have hmakes : Makes serde request op := (h.obeys _ (List.mem_of_getElem? hrunning)).1
    have hadmits : service.Admits ⟨clock, op⟩ server.state := hadmitted _ hrunning op rfl
    obtain ⟨memory', hbacks', hfollows⟩ := service.step_backs hbacks hadmits hmakes.nonempty
    rw [JsonStreams.next, heq]
    refine ⟨by rintro _ ⟨⟩; exact hmakes.proper hfollows, memory', hbacks', ?_⟩
    simp only [stored_by_concat, Option.elim_some]
    exact hholds.follow (service.backs_invariant hbacks) hmakes hfollows

end Runs

/-! ## Reading -/

section Reading

variable {serde : SerdeJson} {service : Service}

variable {log : List (Option (Served Request Clock Op Reply))} {server : Server service}
  {name : String} {clock : Clock} {metadata : StreamMetadata}

/-- Every read of a JSON stream returns the values the requests have stored, from the position of the
offset on. -/
theorem Inv.read (h : Inv serde service log server)
    (hhead : (service.step ⟨clock, .head name⟩ server.state).1 = .metadata (.ok metadata))
    (hjson : metadata.config.contentType = "application/json") (offset : Offset) :
    let values := valuesOf serde (storedBy name log)
    values.length < 2 ^ 64 ∧
    (service.step ⟨clock, .read name offset⟩ server.state).1 =
      .read (.ok ⟨(values.drop (Log.position (values.map serde.toVec) offset)).map serde.toVec,
        Log.tail (values.map serde.toVec), true, metadata.closed⟩) := by
  intro values
  obtain ⟨memory, hbacks, hholds⟩ := h.holds
  have hinvariant := service.backs_invariant hbacks
  rw [service.head_backs hbacks] at hhead
  simp only [Memory.step, Memory.readStream] at hhead
  cases hlookup : memory.streams.lookup name with
  | none => simp [hlookup] at hhead
  | some stream =>
      simp only [hlookup, Memory.headSection] at hhead
      split at hhead
      · cases hhead
      next hlive =>
      obtain rfl := Except.ok.inj (Reply.metadata.inj hhead)
      have hholds := hholds name stream hlookup
      have hpayloads : stream.payloads = values.map serde.toVec := hholds.values hjson
      -- No message is empty, so there are fewer messages than bytes.
      have hcount : stream.messages.length < 2 ^ 64 := by
        have hlength := length_le_payload_bytes hholds.nonempty
        have hlimit := hinvariant.streamLimit hlookup
        have hbytes := (hinvariant.wellFormed hlookup).totalBytes
        have hmax := service.limits.maxStreamBytes.toNat_lt
        have hsame : stream.payloads.length = stream.messages.length := List.length_map ..
        omega
      refine ⟨?_, ?_⟩
      · have hlength := congrArg List.length hpayloads
        simp only [Memory.StreamEntry.payloads, List.length_map] at hlength
        rwa [← hlength]
      · rw [service.read_backs hbacks]
        simp only [Memory.step]
        rw [Memory.read_stream_eq hinvariant hlookup hcount (by simpa using hlive), hpayloads,
          List.map_drop]

end Reading

/-- A JSON content type as clients may write it. -/
def jsonHeaders : HeaderMap := [("Content-Type", strBytes "Application/JSON; charset=utf-8")]

/-- A PUT that creates a stream with an array of two values, a POST of a nested array, and a POST of a
single value by a producer, which is sent twice. -/
def mixedRun : List Event :=
  let producer : HeaderMap := jsonHeaders ++ [("producer-id", strBytes "p"),
    ("producer-epoch", strBytes "0"), ("producer-seq", strBytes "0")]
  [.accept (.put ⟨"s", jsonHeaders, .ok (strBytes "[0,[0]]"), 0⟩),
    .accept (.post ⟨"s", producer, .ok (strBytes "0")⟩),
    .accept (.post ⟨"s", jsonHeaders, .ok (strBytes "[[0,0]]")⟩),
    .accept (.post ⟨"s", producer, .ok (strBytes "0")⟩),
    .advance 0 (.at 0), .advance 2 (.at 1), .advance 1 (.at 2), .advance 3 (.at 3)]

end DurableStreams.JsonStreams
