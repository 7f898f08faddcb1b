import DurableStreams.Handlers.NotModified
import DurableStreams.Lib.Programs

/-!
# One snapshot per response

`read_stream` of `handlers/get.rs`, in catch-up and long-poll mode. It asks for the content type with
one storage call and for the messages with another, and other requests run between the two. As long as
no other stream is put in the place of the one `head` found, every 200 response is built from a single
moment (`responses_are_snapshots`). A stream that is deleted and created with another content type in
between is served with the content type of the old one.
-/

namespace DurableStreams.Get

open Lib

/-! ## The handler -/

/-- What the handler does between two moments in which others run: a storage call, or waiting for a
notification. -/
inductive Action where
  | storage (op : Op)
  | wait
  deriving DecidableEq

/-- What comes back: the reply of the storage, or which of the two ended the waiting. -/
inductive Answer where
  | reply (reply : Reply)
  | woken
  | timedOut
  deriving DecidableEq

/-- The handler of a read. -/
abbrev Reading := Program Action Answer (Result Response)

/-- A live mode of `read_stream`: long-poll, or any text but `sse`, which is a handler of its own. -/
inductive Live where
  | longPoll
  | unsupported (text : String)
  deriving DecidableEq, Repr

/-- The text of a live mode in the query. -/
def Live.text : Live → String
  | .longPoll => "long-poll"
  | .unsupported text => text

/-- The parameters of a read. -/
structure Query where
  name : String
  offset : Option String
  live : Option Live
  ifNoneMatch : Option String
  deriving DecidableEq, Repr

/-- The text of the offset. Live modes require one, a catch-up read starts at the beginning. -/
def Query.rawOffset (query : Query) : Result String :=
  match query.live, query.offset with
  | some live, none =>
      .error (.invalidHeader "offset"
        ("offset query parameter is required for live=" ++ live.text ++ " mode"))
  | none, none => .ok "-1"
  | _, some offset => .ok offset

/-- Call the storage and go on with the reply. -/
def callStorage (op : Op) (after : Reply → Reading) : Reading :=
  .call (.storage op) fun
    | .reply reply => after reply
    | _ => .done (.error (.storage "unexpected answer"))

/-- Call `read` and go on with what was read. -/
def callRead (name : String) (offset : Offset) (after : ReadResult → Reading) : Reading :=
  callStorage (.read name offset) fun
    | .read (.ok result) => after result
    | .read (.error error) => .done (.error error)
    | _ => .done (.error (.storage "unexpected answer"))

/-- Catch-up mode: an immediate read of all available data. -/
def readCatchUp (name : String) (request : PollRequest) : Reading :=
  callRead name request.offset fun result =>
    .done (.ok (catchUpResponse request.rawOffset request.ifNoneMatch request.contentType result))

section LongPoll

variable (cursor : Offset → String) (name : String) (request : PollRequest)

/-- The second read of a long-poll after a wake-up. -/
def readWoken (tailOffset : Offset) : Reading :=
  callRead name tailOffset fun result =>
    .done (.ok (handleLongPollWake tailOffset request.contentType result (cursor result.nextOffset)))

/-- The second read of a long-poll after a timeout. -/
def readTimedOut (tailOffset : Offset) : Reading :=
  callRead name tailOffset fun result =>
    .done (.ok (timeoutResponse result (cursor result.nextOffset)))

/-- Wait at the tail for a notification or the timeout. -/
def waitAtTail (tailOffset : Offset) : Reading :=
  .call .wait fun
    | .woken => readWoken cursor name request tailOffset
    | .timedOut => readTimedOut cursor name tailOffset
    | .reply _ => .done (.error (.storage "unexpected answer"))

/-- The first read of a long-poll, and what it comes to. -/
def readFirst : Reading :=
  callRead name request.offset fun result =>
    match afterFirstRead request result (cursor result.nextOffset) with
    | .inl response => .done (.ok response)
    | .inr tailOffset => waitAtTail cursor name request tailOffset

/-- Long-poll mode: subscribe, then read, and wait for new data at the tail. -/
def readLongPoll : Reading :=
  callStorage (.subscribe name) fun
    | .receiver (some _) => readFirst cursor name request
    | .receiver none => .done (.error (.notFound name))
    | _ => .done (.error (.storage "unexpected answer"))

end LongPoll

/-- The part of the handler behind `head`. -/
def readMode (cursor : Offset → String) (query : Query) (offset : Offset) (rawOffset : String)
    (contentType : String) : Reading :=
  let request : PollRequest := ⟨offset, rawOffset, query.ifNoneMatch, contentType⟩
  match query.live with
  | none => readCatchUp query.name request
  | some .longPoll => readLongPoll cursor query.name request
  | some (.unsupported text) =>
      .done (.error (.invalidHeader "live" ("unsupported live mode: " ++ text)))

/-- What the handler does with the reply of `head`. -/
def afterHead (cursor : Offset → String) (query : Query) (offset : Offset) (rawOffset : String) :
    Reply → Reading
  | .metadata (.ok metadata) => readMode cursor query offset rawOffset metadata.config.contentType
  | .metadata (.error error) => .done (.error error)
  | _ => .done (.error (.storage "unexpected answer"))

/-- GET handler for reading stream data. The cursor is whatever `cursor::generate` returns for the
offset of the response. -/
def readStream (cursor : Offset → String) (query : Query) : Reading :=
  match query.rawOffset with
  | .error error => .done (.error error)
  | .ok rawOffset =>
      match Offset.fromStr rawOffset with
      | .error error => .done (.error error)
      | .ok offset =>
          callStorage (.head query.name) (afterHead cursor query offset rawOffset)

/-! ## Interleavings -/

/-- The storage and what is left of the read. -/
structure Session (σ : Type) where
  state : σ
  reading : Reading

/-- Another request calls the storage, or the read goes on. The flag settles whether a notification
or the timeout ends its waiting. -/
inductive Event (κ : Type) where
  | other (choice : κ) (op : Op)
  | advance (choice : κ) (woken : Bool)

section Sessions

variable {σ κ : Type} (store : Store σ κ)

/-- One event. A read that has returned does nothing. -/
def next : Event κ → Session σ → Option Reply × Session σ
  | .other choice op, ⟨state, reading⟩ =>
      let (reply, state) := store.step choice op state
      (some reply, ⟨state, reading⟩)
  | .advance choice woken, ⟨state, reading⟩ =>
      match reading with
      | .done _ => (none, ⟨state, reading⟩)
      | .call (.storage op) resume =>
          let (reply, state) := store.step choice op state
          (some reply, ⟨state, resume (.reply reply)⟩)
      | .call .wait resume => (none, ⟨state, resume (if woken then .woken else .timedOut)⟩)

/-- Whether the read has called `head` and not yet returned. -/
def Session.underway (name : String) (session : Session σ) : Bool :=
  match session.reading.next with
  | none => false
  | some action => action != .storage (.head name)

/-- While the read is under way, no other request puts another stream in the place of the one it
reads. -/
def Undisturbed (name : String) : Event κ → Session σ → Prop
  | .other choice op, session =>
      session.underway name = true → store.Spares name (choice, op) session.state
  | .advance .., _ => True

instance (name : String) : (event : Event κ) → (session : Session σ) →
    Decidable (Undisturbed store name event session)
  | .other choice op, session =>
      inferInstanceAs (Decidable (session.underway name = true →
        store.Spares name (choice, op) session.state))
  | .advance .., _ => isTrue trivial

variable (query : Query) (start : Session σ)

/-- The session after some events. -/
def after (events : List (Event κ)) : Session σ := (exec (next store) events start).2

/-- The response is what `head` and `read` give in one state, for an offset and its text. -/
def SnapshotAt (state : σ) (choice : κ) (offset : Offset) (rawOffset : String)
    (response : Response) : Prop :=
  ∃ metadata result cursor,
    (store.step choice (.head query.name) state).1 = .metadata (.ok metadata) ∧
    (store.step choice (.read query.name offset) state).1 = .read (.ok result) ∧
    result.nextOffset = metadata.nextOffset ∧ result.closed = metadata.closed ∧
    response =
      buildDataResponse result metadata.config.contentType (generateEtag rawOffset result) cursor

/-- The offset of the query and its text. -/
def Query.Asks (query : Query) (offset : Offset) (rawOffset : String) : Prop :=
  query.rawOffset = .ok rawOffset ∧ Offset.fromStr rawOffset = .ok offset

/-- A long-poll has found nothing at the offset of the query, and this is the tail it found. -/
def Resolved (past : List (Event κ)) (tailOffset : Offset) : Prop :=
  query.live = some .longPoll ∧ ∃ earlier choice woken between offset rawOffset result,
    past = earlier ++ .advance choice woken :: between ∧ query.Asks offset rawOffset ∧
    (store.step choice (.read query.name offset) (after store start earlier).state).1 =
      .read (.ok result) ∧
    result.messages = [] ∧ result.nextOffset = tailOffset

/-- The response is that of one moment in a run: of a read at the offset of the query, or at the tail
a long-poll had found before. -/
def FromSnapshot (events : List (Event κ)) (response : Response) : Prop :=
  ∃ past choice woken future offset rawOffset,
    events = past ++ .advance choice woken :: future ∧
    (query.Asks offset rawOffset ∨
      rawOffset = offset.asStr ∧ Resolved store query start past offset) ∧
    SnapshotAt store query (after store start past).state choice offset rawOffset response

end Sessions

/-! ## Responses with data -/

section Responses

variable {result : ReadResult} {response : Response} {cursor : String}

/-- A catch-up read with status 200. -/
theorem catch_up_ok {rawOffset : String} {ifNoneMatch : Option String} {contentType : String}
    (h : (catchUpResponse rawOffset ifNoneMatch contentType result).status = .ok) :
    catchUpResponse rawOffset ifNoneMatch contentType result =
      buildDataResponse result contentType (generateEtag rawOffset result) none := by
  unfold catchUpResponse at h ⊢
  dsimp only at h ⊢
  split at h
  · cases h
  next hmiss => exact if_neg hmiss

/-- A long-poll that is answered at once with status 200. -/
theorem first_read_ok {request : PollRequest}
    (hresponse : afterFirstRead request result cursor = .inl response)
    (h : response.status = .ok) :
    response = buildDataResponse result request.contentType (generateEtag request.rawOffset result)
      (some cursor) := by
  unfold afterFirstRead at hresponse
  dsimp only at hresponse
  split at hresponse
  · obtain rfl := Sum.inl.inj hresponse
    cases h
  split at hresponse
  · exact (Sum.inl.inj hresponse).symm
  split at hresponse
  · obtain rfl := Sum.inl.inj hresponse
    cases h
  · cases hresponse

/-- A wake-up with status 200. -/
theorem wake_ok {tailOffset : Offset} {contentType : String}
    (h : (handleLongPollWake tailOffset contentType result cursor).status = .ok) :
    handleLongPollWake tailOffset contentType result cursor =
      buildDataResponse result contentType (generateEtag tailOffset.asStr result) (some cursor) := by
  unfold handleLongPollWake at h ⊢
  split at h
  · cases h
  next hmessages => exact if_neg hmessages

end Responses

end DurableStreams.Get

namespace DurableStreams

open Lib Get

/-- The laws the argument uses: a stream that is not replaced keeps its configuration, `head` returns
it, and where `read` succeeds `head` does, with the same offset and closed flag. -/
structure Store.Steady {σ κ : Type} (store : Store σ κ) : Prop where
  continues : ∀ {name input state}, store.Spares name input state →
    Continues (· = ·) (store.configOf name state) (store.configOf name (store.run input state).2)
  head : ∀ {choice name state metadata},
    (store.step choice (.head name) state).1 = .metadata (.ok metadata) →
    store.configOf name state = some metadata.config
  read : ∀ {choice name offset state result},
    (store.step choice (.read name offset) state).1 = .read (.ok result) →
    ∃ metadata, (store.step choice (.head name) state).1 = .metadata (.ok metadata) ∧
      result.nextOffset = metadata.nextOffset ∧ result.closed = metadata.closed

namespace Get

section Stages

variable {σ κ : Type} {store : Store σ κ} {cursor : Offset → String} {query : Query}
  {start : Session σ} {past : List (Event κ)} {event : Event κ} {contentType rawOffset : String}
  {offset tailOffset : Offset} {state : σ} {choice : κ} {woken : Bool}

/-- The stream under a name has this content type, if there is one. -/
def Typed (store : Store σ κ) (name contentType : String) (state : σ) : Prop :=
  ∀ config ∈ store.configOf name state, config.contentType = contentType

/-- A call that spares the stream leaves its content type. -/
theorem Typed.run {name : String} {input : κ × Op} (hsteady : store.Steady)
    (h : Typed store name contentType state) (hspares : store.Spares name input state) :
    Typed store name contentType (store.run input state).2 := by
  intro config hconfig
  obtain ⟨earlier, hearlier, rfl⟩ := hsteady.continues hspares config hconfig
  exact h earlier hearlier

/-- A call that creates nothing spares every stream. -/
theorem spares_of_no_config {name : String} {op : Op} (hop : op.config = none) :
    store.Spares name (choice, op) state := by
  rintro ⟨-, hcreates, -⟩
  simp [hop] at hcreates

/-- What a successful read gives is a snapshot if the content type is that of the stream. -/
theorem snapshot_of_read {result : ReadResult} {cursor : Option String} (hsteady : store.Steady)
    (htyped : Typed store query.name contentType state)
    (hread : (store.step choice (.read query.name offset) state).1 = .read (.ok result)) :
    SnapshotAt store query state choice offset rawOffset
      (buildDataResponse result contentType (generateEtag rawOffset result) cursor) := by
  obtain ⟨metadata, hhead, hoffset, hclosed⟩ := hsteady.read hread
  refine ⟨metadata, result, cursor, hhead, hread, hoffset, hclosed, ?_⟩
  rw [htyped _ (hsteady.head hhead)]

/-- Where a read stands after some events: what is left of it, and what has been found out. -/
inductive Stage (store : Store σ κ) (cursor : Offset → String) (query : Query) (start : Session σ)
    (past : List (Event κ)) : Reading → Prop
  | asking {offset : Offset} {rawOffset : String} (hasks : query.Asks offset rawOffset) :
      Stage store cursor query start past (readStream cursor query)
  | catchingUp {offset : Offset} {rawOffset contentType : String}
      (hasks : query.Asks offset rawOffset)
      (htyped : Typed store query.name contentType (after store start past).state) :
      Stage store cursor query start past
        (readCatchUp query.name ⟨offset, rawOffset, query.ifNoneMatch, contentType⟩)
  | subscribing {offset : Offset} {rawOffset contentType : String}
      (hasks : query.Asks offset rawOffset) (hlive : query.live = some .longPoll)
      (htyped : Typed store query.name contentType (after store start past).state) :
      Stage store cursor query start past
        (readLongPoll cursor query.name ⟨offset, rawOffset, query.ifNoneMatch, contentType⟩)
  | subscribed {offset : Offset} {rawOffset contentType : String} (hasks : query.Asks offset rawOffset)
      (hlive : query.live = some .longPoll)
      (htyped : Typed store query.name contentType (after store start past).state) :
      Stage store cursor query start past
        (readFirst cursor query.name ⟨offset, rawOffset, query.ifNoneMatch, contentType⟩)
  | waiting {request : PollRequest} {tailOffset : Offset}
      (hresolved : Resolved store query start past tailOffset)
      (htyped : Typed store query.name request.contentType (after store start past).state) :
      Stage store cursor query start past (waitAtTail cursor query.name request tailOffset)
  | woken {request : PollRequest} {tailOffset : Offset}
      (hresolved : Resolved store query start past tailOffset)
      (htyped : Typed store query.name request.contentType (after store start past).state) :
      Stage store cursor query start past (readWoken cursor query.name request tailOffset)
  | timedOut {tailOffset : Offset} :
      Stage store cursor query start past (readTimedOut cursor query.name tailOffset)
  | done {result : Result Response} (hresult : ∀ response, result = .ok response → response.status = .ok →
        FromSnapshot store query start past response) :
      Stage store cursor query start past (.done result)

/-- A read that has failed. -/
theorem Stage.failed (error : Error) : Stage store cursor query start past (.done (.error error)) :=
  .done fun _ h => by cases h

/-- Every read starts at its first stage. -/
theorem Stage.initial (cursor : Offset → String) (query : Query) (start : Session σ) :
    Stage store cursor query start past (readStream cursor query) := by
  cases hraw : query.rawOffset with
  | error error =>
      rw [readStream, hraw]
      exact .failed error
  | ok rawOffset =>
      cases hoffset : Offset.fromStr rawOffset with
      | error error =>
          simp only [readStream, hraw, hoffset]
          exact .failed error
      | ok offset => exact .asking ⟨hraw, hoffset⟩

/-- A read whose offset is accepted begins with `head`. -/
theorem read_stream_eq (h : query.Asks offset rawOffset) : readStream cursor query =
    callStorage (.head query.name) (afterHead cursor query offset rawOffset) := by
  simp only [readStream, h.1, h.2]

/-- Once the content type is known, the read is in its mode. -/
theorem Stage.mode (hasks : query.Asks offset rawOffset)
    (htyped : Typed store query.name contentType (after store start past).state) :
    Stage store cursor query start past (readMode cursor query offset rawOffset contentType) := by
  unfold readMode
  cases hlive : query.live with
  | none => exact .catchingUp hasks htyped
  | some live =>
      cases live with
      | longPoll => exact .subscribing hasks hlive htyped
      | unsupported text => exact .failed _

/-- The session after one more event. -/
theorem after_concat (store : Store σ κ) (start : Session σ) (past : List (Event κ))
    (event : Event κ) :
    after store start (past ++ [event]) = (next store event (after store start past)).2 :=
  exec_concat ..

/-- A tail stays the one that was found. -/
theorem Resolved.concat (h : Resolved store query start past tailOffset) :
    Resolved store query start (past ++ [event]) tailOffset := by
  obtain ⟨hlive, earlier, choice, woken, between, offset, rawOffset, result, rfl, hfound⟩ := h
  exact ⟨hlive, earlier, choice, woken, between ++ [event], offset, rawOffset, result, by simp, hfound⟩

/-- A moment of a run is one of every longer run. -/
theorem FromSnapshot.concat {response : Response} (h : FromSnapshot store query start past response) :
    FromSnapshot store query start (past ++ [event]) response := by
  obtain ⟨earlier, choice, woken, future, offset, rawOffset, rfl, hmoment⟩ := h
  exact ⟨earlier, choice, woken, future ++ [event], offset, rawOffset, by simp, hmoment⟩

/-- Other requests leave a read at its stage if they do not replace the stream. -/
theorem Stage.other {op : Op} {reading : Reading} (hsteady : store.Steady)
    (h : Stage store cursor query start past reading)
    (hreading : (after store start past).reading = reading)
    (hspares : (after store start past).underway query.name = true →
      store.Spares query.name (choice, op) (after store start past).state) :
    Stage store cursor query start (past ++ [.other choice op]) reading := by
  have hstate : (after store start (past ++ [.other choice op])).state =
      (store.run (choice, op) (after store start past).state).2 := by
    rw [after_concat]
    rfl
  have hkeeps (contentType : String) (action : Action) (hnext : reading.next = some action)
      (haction : action ≠ .storage (.head query.name))
      (htyped : Typed store query.name contentType (after store start past).state) :
      Typed store query.name contentType (after store start (past ++ [.other choice op])).state := by
    rw [hstate]
    refine htyped.run hsteady (hspares ?_)
    simp [Session.underway, hreading, hnext, haction]
  cases h with
  | asking hasks => exact .asking hasks
  | catchingUp hasks htyped => exact .catchingUp hasks (hkeeps _ _ rfl (by simp) htyped)
  | subscribing hasks hlive htyped =>
      exact .subscribing hasks hlive (hkeeps _ _ rfl (by simp) htyped)
  | subscribed hasks hlive htyped =>
      exact .subscribed hasks hlive (hkeeps _ _ rfl (by simp) htyped)
  | waiting hresolved htyped => exact .waiting hresolved.concat (hkeeps _ _ rfl (by simp) htyped)
  | woken hresolved htyped => exact .woken hresolved.concat (hkeeps _ _ rfl (by simp) htyped)
  | timedOut => exact .timedOut
  | done hresult => exact .done fun response hok hstatus => (hresult response hok hstatus).concat

/-- The next storage call of a read. -/
theorem after_call {op : Op} {resume : Reply → Reading} (choice : κ) (woken : Bool)
    (h : (after store start past).reading = callStorage op resume) :
    after store start (past ++ [.advance choice woken]) =
      ⟨(store.run (choice, op) (after store start past).state).2,
        resume (store.run (choice, op) (after store start past).state).1⟩ := by
  rw [after_concat]
  generalize after store start past = session at h ⊢
  obtain ⟨state, reading⟩ := session
  obtain rfl : reading = callStorage op resume := h
  rfl

/-- The end of the waiting. -/
theorem after_wait {resume : Answer → Reading} (choice : κ) (woken : Bool)
    (h : (after store start past).reading = .call .wait resume) :
    after store start (past ++ [.advance choice woken]) =
      ⟨(after store start past).state, resume (if woken then .woken else .timedOut)⟩ := by
  rw [after_concat]
  generalize after store start past = session at h ⊢
  obtain ⟨state, reading⟩ := session
  obtain rfl : reading = .call .wait resume := h
  rfl

/-- A read that has returned. -/
theorem after_done {result : Result Response} (choice : κ) (woken : Bool)
    (h : (after store start past).reading = .done result) :
    (after store start (past ++ [.advance choice woken])).reading = .done result := by
  rw [after_concat]
  generalize after store start past = session at h ⊢
  obtain ⟨state, reading⟩ := session
  obtain rfl : reading = .done result := h
  rfl

/-- The calls of a read keep the content type. -/
theorem Typed.call {op : Op} {resume : Reply → Reading} (hsteady : store.Steady) (choice : κ)
    (woken : Bool) (hop : op.config = none) (h : (after store start past).reading = callStorage op resume)
    (htyped : Typed store query.name contentType (after store start past).state) :
    Typed store query.name contentType
      (after store start (past ++ [.advance choice woken])).state := by
  rw [after_call choice woken h]
  exact htyped.run hsteady (spares_of_no_config hop)

/-- A read of messages fails, or goes on with what was read. -/
theorem Stage.read {resume : ReadResult → Reading}
    (h : (after store start past).reading = callRead query.name offset resume)
    (hresume : ∀ result, (store.step choice (.read query.name offset)
        (after store start past).state).1 = .read (.ok result) →
      Stage store cursor query start (past ++ [.advance choice woken]) (resume result)) :
    Stage store cursor query start (past ++ [.advance choice woken])
      (after store start (past ++ [.advance choice woken])).reading := by
  rw [after_call choice woken h]
  dsimp only [Store.run]
  cases hreply : (store.step choice (.read query.name offset) (after store start past).state).1 with
  | read result =>
      cases result with
      | ok result => exact hresume result hreply
      | error error => exact .failed error
  | _ => exact .failed _

/-- The read goes on to its next stage. -/
theorem Stage.advance {reading : Reading} (hsteady : store.Steady)
    (h : Stage store cursor query start past reading)
    (hreading : (after store start past).reading = reading) :
    Stage store cursor query start (past ++ [.advance choice woken])
      (after store start (past ++ [.advance choice woken])).reading := by
  -- The moment of a read that is answered at once.
  have hmoment {offset : Offset} {rawOffset contentType : String} {result : ReadResult}
      {cursor : Option String} (hoffset : query.Asks offset rawOffset ∨
        rawOffset = offset.asStr ∧ Resolved store query start past offset)
      (htyped : Typed store query.name contentType (after store start past).state)
      (hread : (store.step choice (.read query.name offset) (after store start past).state).1 =
        .read (.ok result)) :
      FromSnapshot store query start (past ++ [.advance choice woken])
        (buildDataResponse result contentType (generateEtag rawOffset result) cursor) :=
    ⟨past, choice, woken, [], offset, rawOffset, rfl, hoffset,
      snapshot_of_read hsteady htyped hread⟩
  cases h with
  | asking hasks =>
      have hcall := hreading.trans (read_stream_eq hasks)
      rw [after_call choice woken hcall]
      dsimp only
      cases hreply : (store.run (choice, .head query.name) (after store start past).state).1 with
      | metadata result =>
          cases result with
          | ok metadata =>
              refine .mode hasks (Typed.call hsteady choice woken rfl hcall fun config hconfig => ?_)
              rw [hsteady.head hreply] at hconfig
              rw [Option.some.inj hconfig]
          | error error => exact .failed error
      | _ => exact .failed _
  | catchingUp hasks htyped =>
      refine Stage.read hreading fun result hread => .done fun response hok hstatus => ?_
      obtain rfl := Except.ok.inj hok
      rw [catch_up_ok hstatus]
      exact hmoment (.inl hasks) htyped hread
  | subscribing hasks hlive htyped =>
      have hkept := htyped.call hsteady choice woken rfl hreading
      rw [after_call choice woken hreading]
      dsimp only [Store.run]
      cases (store.step choice (.subscribe query.name) (after store start past).state).1 with
      | receiver receiver =>
          cases receiver with
          | some receiver => exact .subscribed hasks hlive hkept
          | none => exact .failed _
      | _ => exact .failed _
  | subscribed hasks hlive htyped =>
      have hkept := htyped.call hsteady choice woken rfl hreading
      refine Stage.read hreading fun result hread => ?_
      cases hfirst : afterFirstRead _ result (cursor result.nextOffset) with
      | inl response =>
          refine .done fun response hok hstatus => ?_
          obtain rfl := Except.ok.inj hok
          rw [first_read_ok hfirst hstatus]
          exact hmoment (.inl hasks) htyped hread
      | inr tailOffset =>
          obtain ⟨response, hresponse, -⟩ | ⟨hempty, htail⟩ := after_first_read_cases _ result _
          · cases hresponse.symm.trans hfirst
          · obtain rfl := Sum.inr.inj (htail.symm.trans hfirst)
            exact .waiting ⟨hlive, past, choice, woken, [], _, _, result, rfl, hasks, hread, hempty,
              rfl⟩ hkept
  | waiting hresolved htyped =>
      have hsession := after_wait choice woken hreading
      have hstate : (after store start (past ++ [.advance choice woken])).state =
        (after store start past).state := by rw [hsession]
      rw [← hstate] at htyped
      rw [hsession]
      cases woken with
      | true => exact .woken hresolved.concat htyped
      | false => exact .timedOut
  | woken hresolved htyped =>
      refine Stage.read hreading fun result hread => .done fun response hok hstatus => ?_
      obtain rfl := Except.ok.inj hok
      rw [wake_ok hstatus]
      exact hmoment (.inr ⟨rfl, hresolved⟩) htyped hread
  | timedOut =>
      refine Stage.read hreading fun result _ => .done fun response hok hstatus => ?_
      obtain rfl := Except.ok.inj hok
      cases hstatus
  | done hresult =>
      rw [after_done choice woken hreading]
      exact .done fun response hok hstatus => (hresult response hok hstatus).concat

/-- Every event of an undisturbed run leaves the read at one of its stages. -/
theorem exec_stage {events : List (Event κ)} {state : σ} (hsteady : store.Steady)
    (halong : Along (next store) (Undisturbed store query.name) events
      ⟨state, readStream cursor query⟩) :
    Stage store cursor query ⟨state, readStream cursor query⟩ events
      (after store ⟨state, readStream cursor query⟩ events).reading := by
  have hstep (past : List (Event κ)) (event : Event κ)
      (hevent : Undisturbed store query.name event
        (after store ⟨state, readStream cursor query⟩ past))
      (hstage : Stage store cursor query ⟨state, readStream cursor query⟩ past
        (after store ⟨state, readStream cursor query⟩ past).reading) :
      Stage store cursor query ⟨state, readStream cursor query⟩ (past ++ [event])
        (after store ⟨state, readStream cursor query⟩ (past ++ [event])).reading := by
    cases event with
    | advance choice woken => exact hstage.advance hsteady rfl
    | other choice op =>
        have hreading : (after store ⟨state, readStream cursor query⟩
            (past ++ [.other choice op])).reading =
            (after store ⟨state, readStream cursor query⟩ past).reading := by
          rw [after_concat]
          rfl
        rw [hreading]
        exact hstage.other hsteady rfl hevent
  exact exec_history (.initial cursor query _) hstep halong

end Stages

end Get

/-- Every 200 response of a catch-up or long-poll read comes from one moment, whatever other requests
do, unless one of them puts another stream in the place of the one that is read. -/
def Store.Snapshots {σ κ : Type} (store : Store σ κ) : Prop :=
  ∀ (cursor : Offset → String) (query : Query) (state : σ) (events : List (Event κ))
    (response : Response),
    let start : Session σ := ⟨state, readStream cursor query⟩
    Along (next store) (Undisturbed store query.name) events start →
    (after store start events).reading.result = some (.ok response) → response.status = .ok →
    FromSnapshot store query start events response

/-- The rule for a storage that obeys the laws. -/
theorem Store.Steady.snapshots {σ κ : Type} {store : Store σ κ} (h : store.Steady) :
    store.Snapshots := by
  intro cursor query state events response start halong hresult hstatus
  have hstage := exec_stage h halong
  generalize hreading : (after store ⟨state, readStream cursor query⟩ events).reading = reading
    at hstage
  rw [hreading] at hresult
  cases hstage with
  | done hsnapshot => exact hsnapshot response (Option.some.inj hresult) hstatus
  | asking hasks =>
      rw [read_stream_eq hasks] at hresult
      cases hresult
  | catchingUp | subscribing | subscribed | waiting | woken | timedOut => cases hresult

end DurableStreams

namespace DurableStreams.Memory

open Lib

/-- The in-memory storage obeys the laws. -/
theorem store_steady (limits : Limits) : (store limits).Steady where
  continues := fun hspares => .or_gone hspares (config_continues limits)
  head := by
    intro clock name storage metadata hhead
    replace hhead := Reply.metadata.inj hhead
    unfold readStream at hhead
    cases hlookup : storage.streams.lookup name with
    | none => simp [hlookup] at hhead
    | some stream =>
        simp only [hlookup, headSection] at hhead
        split at hhead
        · cases hhead
        · obtain rfl := Except.ok.inj hhead
          simp [store, configOf, hlookup]
  read := by
    intro clock name offset storage result hread
    obtain ⟨stream, hlookup, hlive, hoffset, hclosed, -⟩ := read_ok (Reply.read.inj hread)
    refine ⟨⟨stream.config, stream.nextOffset, stream.closed, stream.totalBytes,
      stream.messages.length, stream.createdAt⟩, ?_, hoffset, hclosed⟩
    simp [store, step, readStream, hlookup, headSection, hlive]

end DurableStreams.Memory

namespace DurableStreams.File

open Lib

/-- The file backend obeys the laws, whichever calls to the file system fail. -/
theorem store_steady (config : Config) : (store config).Steady where
  continues := fun hspares => .or_gone hspares (config_continues config _)
  head := by
    intro choice name file metadata hhead
    replace hhead := Reply.metadata.inj hhead
    unfold readStream at hhead
    cases hlookup : file.streams.lookup name with
    | none => simp [hlookup] at hhead
    | some stream =>
        simp only [hlookup, headSection] at hhead
        split at hhead
        · cases hhead
        · obtain rfl := Except.ok.inj hhead
          simp [store, configOf, hlookup]
  read := by
    intro choice name offset file result hread
    obtain ⟨stream, hlookup, hlive, hoffset, hclosed, -⟩ := read_ok (Reply.read.inj hread)
    refine ⟨⟨stream.config, stream.nextOffset, stream.closed, stream.totalBytes,
      stream.index.length, stream.createdAt⟩, ?_, hoffset, hclosed⟩
    simp [store, step, readStream, hlookup, headSection, hlive]

end DurableStreams.File

namespace DurableStreams.Acid

open Lib

/-- What a read that succeeds has found. -/
theorem read_txn_ok {clock : Clock} {name : String} {offset : Offset} {shard : Shard}
    {result : ReadResult} (h : readTxn clock name offset shard = .ok result) :
    ∃ saved, shard.streams.lookup name = some saved ∧
      isStreamExpired clock.expiry saved.config = false ∧ result.nextOffset = saved.nextOffset ∧
      result.closed = saved.closed := by
  unfold readTxn at h
  cases hlookup : shard.streams.lookup name with
  | none => simp [hlookup] at h
  | some saved =>
      rw [hlookup] at h
      dsimp only at h
      refine ⟨saved, rfl, ?_⟩
      split at h
      · cases h
      next hlive =>
        refine ⟨by simpa using hlive, ?_⟩
        split at h
        · obtain rfl := Except.ok.inj h
          exact ⟨rfl, rfl⟩
        · split at h
          · cases h
          · obtain rfl := Except.ok.inj h
            exact ⟨rfl, rfl⟩

/-- The transactional storage obeys the laws, whichever calls the database aborts. -/
theorem store_steady (config : Config) : (store config).Steady where
  continues := fun hspares => .or_gone hspares attempt_continues
  head := by
    rintro ⟨_ | error, clock⟩ name storage metadata hhead
    swap
    · cases hhead
    replace hhead := Reply.metadata.inj hhead
    unfold headTxn at hhead
    cases hlookup : (storage.shard name).streams.lookup name with
    | none => simp [hlookup] at hhead
    | some saved =>
        simp only [hlookup] at hhead
        split at hhead
        · cases hhead
        · obtain rfl := Except.ok.inj hhead
          simp [store, configOf, hlookup]
  read := by
    rintro ⟨_ | error, clock⟩ name offset storage result hread
    swap
    · cases hread
    obtain ⟨saved, hlookup, hlive, hoffset, hclosed⟩ := read_txn_ok (Reply.read.inj hread)
    refine ⟨⟨saved.config, saved.nextOffset, saved.closed, saved.totalBytes, saved.nextReadSeq,
      saved.createdAt⟩, ?_, hoffset, hclosed⟩
    simp [store, attempt, step, headTxn, hlookup, hlive]

end DurableStreams.Acid

namespace DurableStreams

open Lib Get

/-- In each of the three storages, in every state and for every interleaving in which the stream that
is read is not replaced, a 200 response comes from one moment. -/
theorem responses_are_snapshots (limits : Limits) (fileConfig : File.Config)
    (acidConfig : Acid.Config) :
    (Memory.store limits).Snapshots ∧ (File.store fileConfig).Snapshots ∧
      (Acid.store acidConfig).Snapshots :=
  ⟨(Memory.store_steady limits).snapshots, (File.store_steady fileConfig).snapshots,
    (Acid.store_steady acidConfig).snapshots⟩

/-- A read of a stream with one message. -/
def readOf (query : Query) : Session Memory.InMemoryStorage :=
  ⟨(exec (Memory.store ⟨100, 50⟩).run firstStream .new).2, readStream (fun _ => "0") query⟩

/-- A long-poll from the tail. While it waits the stream receives another message. -/
def wokenRun : List (Event Clock) :=
  [.advance (.at 2) false, .advance (.at 3) false, .advance (.at 4) false,
    .other (.at 5) (.append "s" [2] "text/plain" (Size.fits .one)), .advance (.at 6) true,
    .advance (.at 7) false]

/-- The response to it comes from the moment of the second read. -/
theorem responses_are_snapshots_woken :
    let query : Query := ⟨"s", some "now", some .longPoll, none⟩
    let result : ReadResult := ⟨[[2]], Offset.new 2 2, true, false⟩
    FromSnapshot (Memory.store ⟨100, 50⟩) query (readOf query) wokenRun
      (buildDataResponse result "text/plain" (generateEtag (Offset.new 1 1).asStr result)
        (some "0")) :=
  (responses_are_snapshots ⟨100, 50⟩ File.smallConfig Acid.crowded).1 (fun _ => "0")
    ⟨"s", some "now", some .longPoll, none⟩ _ wokenRun _ (by decide +kernel) (by decide +kernel) rfl

/-- A catch-up read from the beginning. -/
def catchUp : Query := ⟨"s", none, none, none⟩

/-- Between the `head` and the `read` of a request the stream is deleted, and one with JSON messages
takes its place. -/
def replacedRun : List (Event Clock) :=
  [.advance (.at 2) false, .other (.at 3) (.delete "s"),
    .other (.at 4) (.createStreamWithData "s" ⟨"application/json", none, none, false⟩ [[49], [50]] false
      (by decide)), .advance (.at 5) false]

/-- The tail and the content type that `head` shows. -/
def shown : Reply → Option (Offset × String)
  | .metadata (.ok metadata) => some (metadata.nextOffset, metadata.config.contentType)
  | _ => none

/-- The JSON messages are then served as `text/plain`, joined as they are, which is no snapshot. -/
theorem replaced_stream_is_no_snapshot :
    let store := Memory.store ⟨100, 50⟩
    ∃ response, (after store (readOf catchUp) replacedRun).reading.result = some (.ok response) ∧
      response.status = .ok ∧ response.contentType = some "text/plain" ∧
      response.messages = [[49], [50]] ∧ response.body = [49, 50] ∧
      ¬ FromSnapshot store catchUp (readOf catchUp) replacedRun response := by
  intro store
  refine ⟨buildDataResponse ⟨[[49], [50]], Offset.new 2 2, true, false⟩ "text/plain"
    (generateEtag "-1" ⟨[[49], [50]], Offset.new 2 2, true, false⟩) none,
    by decide +kernel, rfl, rfl, rfl, by decide +kernel, ?_⟩
  rintro ⟨past, choice, woken, future, offset, rawOffset, hevents, -, metadata, result, cursor, hhead,
    -, hoffset, -, hresponse⟩
  have htail : metadata.nextOffset = Offset.new 2 2 :=
    hoffset.symm.trans (congrArg Response.nextOffset hresponse).symm
  have htype : metadata.config.contentType = "text/plain" :=
    (Option.some.inj (congrArg Response.contentType hresponse)).symm
  have hshown : shown (store.step choice (.head catchUp.name)
      (after store (readOf catchUp) past).state).1 = some (Offset.new 2 2, "text/plain") := by
    rw [hhead, shown, htail, htype]
  -- The read makes its calls at the first and the last event, and `head` shows neither pair there.
  rcases past with _ | ⟨first, _ | ⟨second, _ | ⟨third, _ | ⟨fourth, past⟩⟩⟩⟩
  · obtain ⟨⟨rfl, -⟩, -⟩ : (.at 2 = choice ∧ false = woken) ∧ _ := by
      simpa [replacedRun] using hevents
    exact absurd hshown (by decide +kernel)
  · simp [replacedRun] at hevents
  · simp [replacedRun] at hevents
  · obtain ⟨rfl, rfl, rfl, ⟨rfl, -⟩, -⟩ := by simpa [replacedRun] using hevents
    exact absurd hshown (by decide +kernel)
  · simp [replacedRun] at hevents

end DurableStreams
