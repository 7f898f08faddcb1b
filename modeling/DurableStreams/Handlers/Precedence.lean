import DurableStreams.Handlers.Post
import DurableStreams.Storage.Acid.Bounds
import DurableStreams.Storage.Errors
import DurableStreams.Storage.File.Refinement
import DurableStreams.Storage.Memory.Producers

/-!
# Appends to closed streams

An append to a closed stream has to be refused as such, before its other errors. An `Appender` is a
storage backend with the answer it gives: an append with a producer checks the content type first, and
the transactional storage reserves the bytes of a batch before it looks at anything. What follows for
the POST handler is proved once for all backends (`Appender.post_closed_iff`).
-/

namespace DurableStreams

open Lib

/-- What an append sees of a stream. -/
structure StreamView where
  config : StreamConfig
  closed : Bool
  producers : HashMap ProducerState
  nextOffset : Offset
  deriving DecidableEq

/-- A request that is neither a duplicate nor below the stored epoch, by the records that are not
stale. -/
def Unseen (clock : Clock) (producers : HashMap ProducerState) (producer : ProducerHeaders) : Prop :=
  ∀ state, (cleanupStaleProducers clock.cleanup producers).lookup producer.id = some state →
    state.epoch ≤ producer.epoch ∧ ¬ (producer.epoch = state.epoch ∧ producer.seq ≤ state.lastSeq)

/-- An operation that would add to a stream. -/
def NewAppend (clock : Clock) (view : StreamView) : Op → Prop
  | .append .. => True
  | .batchAppend _ messages _ _ _ => messages ≠ []
  | .appendWithProducer _ _ _ producer _ _ _ => Unseen clock view.producers producer
  | _ => False

/-- The error such an operation gets on a closed stream once it has been looked up. -/
def closedVerdict (view : StreamView) : Op → Error
  | .appendWithProducer _ messages contentType _ _ _ _ =>
      if messages.isEmpty || eqIgnoreAsciiCase contentType view.config.contentType then .streamClosed
      else .contentTypeMismatch view.config.contentType contentType
  | _ => .streamClosed

/-- The content type of a producer request is that of the stream, or it has no messages. -/
def TypeFits (view : StreamView) : Op → Prop
  | .appendWithProducer _ messages contentType _ _ _ _ =>
      messages ≠ [] → eqIgnoreAsciiCase contentType view.config.contentType = true
  | _ => True

/-- A storage backend as appends use it. `full` says that a batch is refused for want of room before
the stream is looked up. -/
structure Appender where
  State : Type
  Reached : State → Prop
  step : Call → State → Reply × State
  find : State → String → Option StreamView
  full : Op → State → Bool
  head_found : ∀ {clock : Clock} {state : State} {name : String} {view : StreamView},
    find state name = some view → isStreamExpired clock.expiry view.config = false →
    ∃ metadata, (step ⟨clock, .head name⟩ state).1 = .metadata (.ok metadata) ∧
      metadata.nextOffset = view.nextOffset
  closed_reply : ∀ {call : Call} {state : State} {view : StreamView}, Reached state →
    find state call.op.name = some view → view.closed = true →
    isStreamExpired call.clock.expiry view.config = false → NewAppend call.clock view call.op →
    (step call state).1 = call.op.failure
        (if full call.op state then .memoryLimitExceeded else closedVerdict view call.op) ∧
      ∃ after, find (step call state).2 call.op.name = some after ∧ after.config = view.config ∧
        after.nextOffset = view.nextOffset

/-! ## The checks -/

/-- The producer check refuses unseen requests on a closed stream. -/
theorem Unseen.check {clock : Clock} {producers : HashMap ProducerState} {producer : ProducerHeaders}
    (h : Unseen clock producers producer) :
    checkProducer ((cleanupStaleProducers clock.cleanup producers).lookup producer.id) producer true =
      .error .streamClosed := by
  cases hstate : (cleanupStaleProducers clock.cleanup producers).lookup producer.id with
  | none => rfl
  | some state =>
      obtain ⟨hepoch, hseq⟩ := h state hstate
      rw [checkProducer, if_neg (by omega), if_neg hseq, if_pos rfl]

/-- The check of the content type in front of it passes, or it is the one that fails. -/
theorem type_check_cases (view : StreamView) (name : String) (messages : List Bytes)
    (contentType : String) (producer : ProducerHeaders) (shouldClose : Bool) (seq : Option String)
    (fits : payloadBytes messages < 2 ^ 64) :
    let op : Op := .appendWithProducer name messages contentType producer shouldClose seq fits
    let check : Result Unit := if messages.isEmpty then .ok ()
      else validateContentType view.config.contentType contentType
    (check = .ok () ∧ closedVerdict view op = .streamClosed) ∨ check = .error (closedVerdict view op) := by
  simp only [closedVerdict, validateContentType]
  cases messages.isEmpty <;> cases eqIgnoreAsciiCase contentType view.config.contentType <;> simp

/-- When the closed check comes first. -/
theorem closed_verdict_iff {view : StreamView} {op : Op} :
    closedVerdict view op = .streamClosed ↔ TypeFits view op := by
  cases op with
  | appendWithProducer name messages contentType producer shouldClose seq fits =>
      simp only [closedVerdict, TypeFits]
      cases messages <;> cases eqIgnoreAsciiCase contentType view.config.contentType <;> simp
  | _ => exact iff_of_true rfl trivial

/-- The errors in front of the closed check. -/
theorem verdict_cases {full : Bool} {view : StreamView} {op : Op}
    (h : (if full then .memoryLimitExceeded else closedVerdict view op) ≠ Error.streamClosed) :
    (if full then .memoryLimitExceeded else closedVerdict view op) = Error.memoryLimitExceeded ∨
      ∃ expected actual, (if full then .memoryLimitExceeded else closedVerdict view op) =
        Error.contentTypeMismatch expected actual := by
  cases full with
  | true => exact .inl rfl
  | false =>
      rw [if_neg Bool.false_ne_true] at h ⊢
      cases op with
      | appendWithProducer name messages contentType producer shouldClose seq fits =>
          by_cases hfits :
              (messages.isEmpty || eqIgnoreAsciiCase contentType view.config.contentType) = true
          · exact absurd (if_pos hfits) h
          · exact .inr ⟨_, _, if_neg hfits⟩
      | _ => exact absurd rfl h

/-! ## The backends -/

namespace Memory

/-- What an append sees of an entry. -/
def StreamEntry.appendView (stream : StreamEntry) : StreamView :=
  ⟨stream.config, stream.closed, stream.producers, stream.nextOffset⟩

/-- The plan of an append to a closed stream. Only an append with a producer touches the entry. -/
theorem plan_closed {call : Call} {stream : StreamEntry} (hclosed : stream.closed = true)
    (hlive : isStreamExpired call.clock.expiry stream.config = false)
    (hnew : NewAppend call.clock stream.appendView call.op) :
    onStream call.op = true ∧ ∃ after, after.appendView.config = stream.appendView.config ∧
      after.appendView.nextOffset = stream.appendView.nextOffset ∧
      plan call stream = .finish (call.op.failure (closedVerdict stream.appendView call.op)) after := by
  obtain ⟨clock, op⟩ := call
  dsimp only at hlive hnew ⊢
  cases op with
  | append name data contentType fits =>
      refine ⟨rfl, stream, rfl, rfl, ?_⟩
      simp only [plan, appendPlan, hlive, hclosed, Bool.false_eq_true, ↓reduceIte]
      rfl
  | batchAppend name messages contentType seq fits =>
      have hmessages : messages ≠ [] := hnew
      refine ⟨by simp [onStream, hmessages], stream, rfl, rfl, ?_⟩
      simp only [plan, batchAppendPlan, hlive, hclosed, Bool.false_eq_true, ↓reduceIte]
      rfl
  | appendWithProducer name messages contentType producer shouldClose seq fits =>
      have hcheck := Unseen.check hnew
      refine ⟨rfl, stream.cleanup clock.cleanup, rfl, rfl, ?_⟩
      simp only [plan, producerPlan, hlive, Bool.false_eq_true, ↓reduceIte]
      simp only [StreamEntry.appendView] at hcheck
      rcases type_check_cases stream.appendView name messages contentType producer shouldClose seq fits
        with ⟨htype, hverdict⟩ | htype
      · rw [hverdict]
        simp only [StreamEntry.appendView] at htype
        simp only [StreamEntry.cleanup, htype, hclosed, hcheck]
        rfl
      · simp only [StreamEntry.appendView] at htype
        simp only [StreamEntry.cleanup, StreamEntry.appendView, htype]
        rfl
  | createStream | read | delete | head | closeStream | createStreamWithData | «exists»
  | subscribe => exact absurd hnew id

/-- The in-memory storage, in any state. -/
def appender (limits : Limits) : Appender where
  State := InMemoryStorage
  Reached _ := True
  step := step limits
  find storage name := (storage.streams.lookup name).map StreamEntry.appendView
  full _ _ := false
  head_found := by
    intro clock storage name view hfind hlive
    obtain ⟨stream, hlookup, rfl⟩ := Option.map_eq_some_iff.mp hfind
    have hlive : isStreamExpired clock.expiry stream.config = false := hlive
    refine ⟨⟨stream.config, stream.nextOffset, stream.closed, stream.totalBytes,
      stream.messages.length, stream.createdAt⟩, ?_, rfl⟩
    simp only [step, readStream, hlookup, headSection, hlive, Bool.false_eq_true, ↓reduceIte]
  closed_reply := by
    intro call storage view _ hfind hclosed hlive hnew
    obtain ⟨stream, hlookup, rfl⟩ := Option.map_eq_some_iff.mp hfind
    obtain ⟨hop, after, hconfig, hoffset, hplan⟩ := plan_closed hclosed hlive hnew
    rw [step_on_stream limits hop hlookup, hplan]
    exact ⟨rfl, after.appendView, by simp [Plan.run], hconfig, hoffset⟩

end Memory

namespace File

/-- What an append sees of an entry. -/
def StreamEntry.appendView (stream : StreamEntry) : StreamView :=
  ⟨stream.config, stream.closed, stream.producers, stream.nextOffset⟩

variable {config : Config} {faults : Faults} {storage : FileStorage} {stream : StreamEntry}

/-- An append to a closed stream writes nothing to disk. Only an append with a producer touches the
entry. -/
theorem step_closed {call : Call} (hlookup : storage.streams.lookup call.op.name = some stream)
    (hclosed : stream.closed = true)
    (hlive : isStreamExpired call.clock.expiry stream.config = false)
    (hnew : NewAppend call.clock stream.appendView call.op) :
    ∃ after, after.appendView.config = stream.appendView.config ∧
      after.appendView.nextOffset = stream.appendView.nextOffset ∧
      step config faults call storage = (call.op.failure (closedVerdict stream.appendView call.op),
        ⟨storage.streams.insert call.op.name after, storage.totalBytes, storage.disk⟩) := by
  obtain ⟨clock, op⟩ := call
  dsimp only at hlookup hlive hnew ⊢
  cases op with
  | append name data contentType fits =>
      have hlookup : storage.streams.lookup name = some stream := hlookup
      refine ⟨stream, rfl, rfl, ?_⟩
      simp only [step, withStream, hlookup, appendSection, hlive, hclosed, Bool.false_eq_true,
        ↓reduceIte, within_nil]
      rfl
  | batchAppend name messages contentType seq fits =>
      have hlookup : storage.streams.lookup name = some stream := hlookup
      have hmessages : messages.isEmpty = false := by
        have hmessages : messages ≠ [] := hnew
        simpa using hmessages
      refine ⟨stream, rfl, rfl, ?_⟩
      simp only [step, batchAppend, hmessages, withStream, hlookup, batchAppendSection, hlive, hclosed,
        Bool.false_eq_true, ↓reduceIte, within_nil]
      rfl
  | appendWithProducer name messages contentType producer shouldClose seq fits =>
      have hlookup : storage.streams.lookup name = some stream := hlookup
      have hcheck := Unseen.check hnew
      refine ⟨stream.cleanup clock.cleanup, rfl, rfl, ?_⟩
      simp only [step, withStream, hlookup, appendWithProducerSection, hlive, Bool.false_eq_true,
        ↓reduceIte]
      simp only [StreamEntry.appendView] at hcheck
      rcases type_check_cases stream.appendView name messages contentType producer shouldClose seq fits
        with ⟨htype, hverdict⟩ | htype
      · rw [hverdict]
        simp only [StreamEntry.appendView] at htype
        simp only [StreamEntry.cleanup, htype, hclosed, hcheck, within_nil]
        rfl
      · simp only [StreamEntry.appendView] at htype
        simp only [StreamEntry.cleanup, StreamEntry.appendView, htype, within_nil]
        rfl
  | createStream | read | delete | head | closeStream | createStreamWithData | «exists»
  | subscribe => exact absurd hnew id

/-- The file storage, in any state, while no file-system call fails. -/
def appender (config : Config) : Appender where
  State := FileStorage
  Reached _ := True
  step := step config .none
  find storage name := (storage.streams.lookup name).map StreamEntry.appendView
  full _ _ := false
  head_found := by
    intro clock storage name view hfind hlive
    obtain ⟨stream, hlookup, rfl⟩ := Option.map_eq_some_iff.mp hfind
    have hlive : isStreamExpired clock.expiry stream.config = false := hlive
    refine ⟨⟨stream.config, stream.nextOffset, stream.closed, stream.totalBytes,
      stream.index.length, stream.createdAt⟩, ?_, rfl⟩
    simp only [step, readStream, hlookup, headSection, hlive, Bool.false_eq_true, ↓reduceIte]
  closed_reply := by
    intro call storage view _ hfind hclosed hlive hnew
    obtain ⟨stream, hlookup, rfl⟩ := Option.map_eq_some_iff.mp hfind
    obtain ⟨after, hconfig, hoffset, hstep⟩ :=
      @step_closed config .none storage stream call hlookup hclosed hlive hnew
    rw [hstep]
    exact ⟨rfl, after.appendView, by simp, hconfig, hoffset⟩

end File

namespace Acid

/-- What an append sees of a stored stream. -/
def StoredStreamMeta.appendView (saved : StoredStreamMeta) : StreamView :=
  ⟨saved.config, saved.closed, saved.producers, saved.nextOffset⟩

variable {config : Config} {storage : AcidStorage config} {saved : StoredStreamMeta}

/-- The reply to an append to a closed stream, if there is room for its batch. -/
theorem step_closed {call : Call}
    (hlookup : (storage.shard call.op.name).streams.lookup call.op.name = some saved)
    (hclosed : saved.closed = true)
    (hlive : isStreamExpired call.clock.expiry saved.config = false)
    (hnew : NewAppend call.clock saved.appendView call.op)
    (hroom : storage.totalBytes + batchBytes call.op.messages ≤ config.limits.maxTotalBytes.toNat) :
    (step call storage).1 = call.op.failure (closedVerdict saved.appendView call.op) := by
  obtain ⟨clock, op⟩ := call
  have hreserve := reserve_ok hroom
  dsimp only at hlookup hlive hnew ⊢
  cases op with
  | append name data contentType fits =>
      have hlookup : (storage.shard name).streams.lookup name = some saved := hlookup
      simp only [Op.messages, Memory.batch_bytes_singleton] at hreserve
      simp only [step, append, hreserve, appendTxn, shard_with_total, hlookup, hlive, hclosed,
        Bool.false_eq_true, ↓reduceIte]
      rfl
  | batchAppend name messages contentType seq fits =>
      have hlookup : (storage.shard name).streams.lookup name = some saved := hlookup
      have hmessages : messages.isEmpty = false := by
        have hmessages : messages ≠ [] := hnew
        simpa using hmessages
      simp only [Op.messages] at hreserve
      simp only [step, batchAppend, hmessages, hreserve, batchAppendTxn, shard_with_total, hlookup,
        hlive, hclosed, Bool.false_eq_true, ↓reduceIte]
      rfl
  | appendWithProducer name messages contentType producer shouldClose seq fits =>
      have hlookup : (storage.shard name).streams.lookup name = some saved := hlookup
      have hcheck := Unseen.check hnew
      simp only [Op.messages] at hreserve
      simp only [step, appendWithProducer, hreserve, appendWithProducerTxn, shard_with_total, hlookup,
        hlive, Bool.false_eq_true, ↓reduceIte]
      simp only [StoredStreamMeta.appendView] at hcheck
      rcases type_check_cases saved.appendView name messages contentType producer shouldClose seq fits
        with ⟨htype, hverdict⟩ | htype
      · rw [hverdict]
        simp only [StoredStreamMeta.appendView] at htype
        simp only [StoredStreamMeta.cleanup, htype, hclosed, hcheck]
        rfl
      · simp only [StoredStreamMeta.appendView] at htype
        simp only [StoredStreamMeta.cleanup, StoredStreamMeta.appendView, htype]
        rfl
  | createStream | read | delete | head | closeStream | createStreamWithData | «exists»
  | subscribe => exact absurd hnew id

/-- An operation that fails, fails. -/
theorem failure_failed {clock : Clock} {view : StreamView} {op : Op} (h : NewAppend clock view op)
    (error : Error) : (op.failure error).failed = true ∧ Memory.onStream op = true := by
  cases op with
  | append | appendWithProducer => exact ⟨rfl, rfl⟩
  | batchAppend name messages contentType seq fits =>
      have hmessages : messages ≠ [] := h
      exact ⟨rfl, by simp [Memory.onStream, hmessages]⟩
  | createStream | read | delete | head | closeStream | createStreamWithData | «exists»
  | subscribe => exact absurd h id

/-- The transactional storage, in every state it gets to. -/
def appender (config : Config) : Appender where
  State := AcidStorage config
  Reached storage := ∃ events, storage = (exec Event.run events (.new config)).2
  step := step
  find storage name := ((storage.shard name).streams.lookup name).map StoredStreamMeta.appendView
  full op storage :=
    decide (config.limits.maxTotalBytes.toNat < storage.totalBytes + batchBytes op.messages)
  head_found := by
    intro clock storage name view hfind hlive
    obtain ⟨saved, hlookup, rfl⟩ := Option.map_eq_some_iff.mp hfind
    have hlive : isStreamExpired clock.expiry saved.config = false := hlive
    refine ⟨⟨saved.config, saved.nextOffset, saved.closed, saved.totalBytes, saved.nextReadSeq,
      saved.createdAt⟩, ?_, rfl⟩
    simp only [step, headTxn, hlookup, hlive, Bool.false_eq_true, ↓reduceIte]
  closed_reply := by
    rintro call storage view ⟨events, hevents⟩ hfind hclosed hlive hnew
    obtain ⟨saved, hlookup, rfl⟩ := Option.map_eq_some_iff.mp hfind
    have htotal : storage.totalBytes ≤ config.limits.maxTotalBytes.toNat := by
      rw [hevents]
      exact (reachable_fits_counted config events).2.limit
    have hreply : (step call storage).1 = call.op.failure
        (if decide (config.limits.maxTotalBytes.toNat <
            storage.totalBytes + batchBytes call.op.messages) then .memoryLimitExceeded
          else closedVerdict saved.appendView call.op) := by
      by_cases hfull : config.limits.maxTotalBytes.toNat <
          storage.totalBytes + batchBytes call.op.messages
      · rw [if_pos (decide_eq_true hfull),
          step_no_room (failure_failed hnew .streamClosed).2 htotal hfull]
      · rw [if_neg (by simpa using hfull)]
        exact step_closed hlookup hclosed hlive hnew (Nat.le_of_not_lt hfull)
    -- An append that fails leaves everything as it was.
    have hafter : (step call storage).2 = storage :=
      step_failed (by rw [hreply]; exact (failure_failed hnew _).1)
    refine ⟨hreply, saved.appendView, ?_, rfl, rfl⟩
    rw [hafter, hlookup]
    rfl

end Acid

/-! ## The handler -/

/-- The storage call an append starts with, if there is something to append. -/
def Post.Append.op (request : Post.Append) : Op :=
  match request.producer with
  | some producer => .appendWithProducer request.name request.messages request.contentType producer
      request.shouldClose request.seq request.fits
  | none => .batchAppend request.name request.messages request.contentType request.seq request.fits

/-- The 409 response with the final offset of a closed stream. -/
def Post.streamClosed (nextOffset : Offset) : Post.Response :=
  ⟨.conflict, some nextOffset, true, none, none, none, none, "Stream is closed"⟩

namespace Appender

variable {backend : Appender}

/-- Answer the calls of a handler, each at an instant of its own. -/
def answer (backend : Appender) (clock : Clock) (op : Op) (state : backend.State) :
    Reply × backend.State :=
  backend.step ⟨clock, op⟩ state

/-- Run a handler that makes at most two calls. -/
def respond {α : Type} (backend : Appender) (handler : Program Op Reply α) (first second : Clock)
    (state : backend.State) : Option α :=
  (handler.run backend.answer [first, second] state).1

/-- The errors of an append tell its replies apart. -/
theorem failure_inj {clock : Clock} {view : StreamView} {op : Op} (h : NewAppend clock view op)
    {error other : Error} : op.failure error = op.failure other ↔ error = other := by
  cases op with
  | append | batchAppend | appendWithProducer => simp [Op.failure]
  | createStream | read | delete | head | closeStream | createStreamWithData | «exists»
  | subscribe => exact absurd h id

/-- When an append to a closed stream is refused as such. -/
theorem closed_reply_iff {call : Call} {state : backend.State} {view : StreamView}
    (hreached : backend.Reached state) (hfind : backend.find state call.op.name = some view)
    (hclosed : view.closed = true) (hlive : isStreamExpired call.clock.expiry view.config = false)
    (hnew : NewAppend call.clock view call.op) :
    (backend.step call state).1 = call.op.failure .streamClosed ↔
      TypeFits view call.op ∧ backend.full call.op state = false := by
  rw [(backend.closed_reply hreached hfind hclosed hlive hnew).1, failure_inj hnew,
    ← closed_verdict_iff]
  cases backend.full call.op state <;> simp

/-- The name an append is about. -/
theorem op_name (request : Post.Append) : request.op.name = request.name := by
  rw [Post.Append.op]
  cases request.producer <;> rfl

section Respond

variable {request : Post.Append} {view : StreamView} {first second : Clock} {state : backend.State}

/-- The handler looks the final offset of a closed stream up. -/
theorem respond_closed (hnew : NewAppend first view request.op)
    (hreply : (backend.step ⟨first, request.op⟩ state).1 = request.op.failure .streamClosed) :
    backend.respond request.handle first second state =
      ((Post.streamClosedResponse request.name).run backend.answer [second]
        (backend.step ⟨first, request.op⟩ state).2).1 := by
  rw [Post.Append.op] at hnew hreply ⊢
  rw [Post.Append.handle]
  cases hproducer : request.producer with
  | some producer =>
      rw [hproducer] at hreply
      simp only [respond, Post.handleProducerAppend, callAppendWithProducer, Program.run, answer, hreply,
        Op.failure, Post.streamClosedResponse, callHead]
  | none =>
      rw [hproducer] at hreply hnew
      have hmessages : request.messages ≠ [] := hnew
      simp only [respond, Post.handleNonProducerAppend, List.isEmpty_iff, hmessages, if_false,
        callBatchAppend, Program.run, answer, hreply, Op.failure, Post.streamClosedResponse, callHead]

/-- The handler passes the errors in front of the closed check on. -/
theorem respond_refused {error : Error} (hnew : NewAppend first view request.op)
    (hreply : (backend.step ⟨first, request.op⟩ state).1 = request.op.failure error)
    (herror : error = .memoryLimitExceeded ∨
      ∃ expected actual, error = .contentTypeMismatch expected actual) :
    backend.respond request.handle first second state = some (.error error) := by
  rw [Post.Append.op] at hnew hreply
  rw [Post.Append.handle]
  cases hproducer : request.producer with
  | some producer =>
      rw [hproducer] at hreply
      obtain rfl | ⟨expected, actual, rfl⟩ := herror <;>
        simp only [respond, Post.handleProducerAppend, callAppendWithProducer, Program.run, answer,
          hreply, Op.failure]
  | none =>
      rw [hproducer] at hreply hnew
      have hmessages : request.messages ≠ [] := hnew
      obtain rfl | ⟨expected, actual, rfl⟩ := herror <;>
        simp only [respond, Post.handleNonProducerAppend, List.isEmpty_iff, hmessages, if_false,
          callBatchAppend, Program.run, answer, hreply, Op.failure]

/-- When the handler answers an append to a closed stream with its final offset. -/
theorem post_closed_iff (hreached : backend.Reached state)
    (hfind : backend.find state request.name = some view) (hclosed : view.closed = true)
    (hfirst : isStreamExpired first.expiry view.config = false)
    (hsecond : isStreamExpired second.expiry view.config = false)
    (hnew : NewAppend first view request.op) :
    backend.respond request.handle first second state =
        some (.ok (Post.streamClosed view.nextOffset)) ↔
      TypeFits view request.op ∧ backend.full request.op state = false := by
  rw [← op_name request] at hfind
  have hiff := @closed_reply_iff backend ⟨first, request.op⟩ state view hreached hfind hclosed hfirst hnew
  obtain ⟨hreply, after, hafter, hconfig, hoffset⟩ :=
    @Appender.closed_reply backend ⟨first, request.op⟩ state view hreached hfind hclosed hfirst hnew
  by_cases h : TypeFits view request.op ∧ backend.full request.op state = false
  · refine iff_of_true ?_ h
    -- The stream is still there for the second call.
    rw [op_name] at hafter
    obtain ⟨metadata, hhead, hnext⟩ :=
      @Appender.head_found backend second _ _ _ hafter (by rw [hconfig]; exact hsecond)
    rw [respond_closed hnew (hiff.mpr h)]
    simp only [Post.streamClosedResponse, callHead, Program.run, answer, hhead, Except.map,
      Post.closedConflict, hnext, hoffset, Post.streamClosed]
  · refine iff_of_false ?_ h
    rw [respond_refused hnew hreply]
    · simp
    · exact verdict_cases fun hverdict => h (hiff.mp (by rw [hreply, hverdict]))

end Respond

/-- A backend refuses an append to a closed and live stream as such, and the handler answers it with
409 and the final offset, if and only if the content type fits and there is room for the batch. -/
def ClosedFirst (backend : Appender) (room : Op → backend.State → Prop) : Prop :=
  (∀ (call : Call) (state : backend.State) (view : StreamView), backend.Reached state →
    backend.find state call.op.name = some view → view.closed = true →
    isStreamExpired call.clock.expiry view.config = false → NewAppend call.clock view call.op →
    ((backend.step call state).1 = call.op.failure .streamClosed ↔
      TypeFits view call.op ∧ room call.op state)) ∧
  ∀ (serde : SerdeJson) (request : Post.Request) (append : Post.Append) (first second : Clock)
    (state : backend.State) (view : StreamView),
    Post.parseAppend serde request = .ok (some append) → backend.Reached state →
    backend.find state append.name = some view → view.closed = true →
    isStreamExpired first.expiry view.config = false →
    isStreamExpired second.expiry view.config = false → NewAppend first view append.op →
    (backend.respond (Post.appendData serde request) first second state =
        some (some (.ok (Post.streamClosed view.nextOffset))) ↔
      TypeFits view append.op ∧ room append.op state)

theorem closed_first (backend : Appender) {room : Op → backend.State → Prop}
    (hroom : ∀ op state, backend.full op state = false ↔ room op state) :
    backend.ClosedFirst room := by
  constructor
  · intro call state view hreached hfind hclosed hlive hnew
    rw [closed_reply_iff hreached hfind hclosed hlive hnew, hroom]
  · intro serde request append first second state view hparse hreached hfind hclosed hfirst hsecond hnew
    rw [← hroom, ← post_closed_iff hreached hfind hclosed hfirst hsecond hnew, Post.appendData, hparse]
    simp only [respond, Program.run_map, Option.map_eq_some_iff, Option.some.injEq, exists_eq_right]

end Appender

/-- Closed takes precedence for every backend, in every state it gets to, if and only if a producer
request has no messages or the content type of the stream, and the transactional storage has room for
the batch. -/
theorem closed_takes_precedence_iff (limits : Limits) (file : File.Config) (acid : Acid.Config) :
    ((Memory.appender limits).ClosedFirst fun _ _ => True) ∧
      ((File.appender file).ClosedFirst fun _ _ => True) ∧
      (Acid.appender acid).ClosedFirst fun op storage =>
        storage.totalBytes + batchBytes op.messages ≤ acid.limits.maxTotalBytes.toNat := by
  refine ⟨?_, ?_, ?_⟩
  · exact (Memory.appender limits).closed_first fun op state => iff_of_true rfl trivial
  · exact (File.appender file).closed_first fun op state => iff_of_true rfl trivial
  · refine (Acid.appender acid).closed_first fun op storage => ?_
    simp only [Acid.appender, decide_eq_false_iff_not, Nat.not_lt]

/-- Create a stream, append a byte to it and close it. -/
def closedRun : List Call :=
  [⟨.at 0, .createStream "s" .plain⟩, ⟨.at 1, .append "s" [1] "text/plain" (Size.fits .one)⟩,
    ⟨.at 2, .closeStream "s"⟩]

/-- A binary body, for a stream of text. -/
def binaryRequest : Post.Request :=
  ⟨"s", [("content-type", strBytes "application/octet-stream")], .ok [1]⟩

/-- The content type does not matter without a producer. -/
theorem binary_append_conflicts :
    let storage := (exec (Memory.step ⟨100, 10⟩) closedRun .new).2
    (Memory.step ⟨100, 10⟩ ⟨.at 3, .append "s" [1] "application/octet-stream" (Size.fits .one)⟩
        storage).1 = .offset (.error .streamClosed) ∧
      (Memory.appender ⟨100, 10⟩).respond (Post.appendData nestedZeros binaryRequest) (.at 3) (.at 4)
        storage = some (some (.ok (Post.streamClosed (.new 1 1)))) := by
  intro storage
  have hfind : (storage.streams.lookup "s").map Memory.StreamEntry.appendView =
      some ⟨.plain, true, ∅, .new 1 1⟩ := by decide +kernel
  obtain ⟨hcall, hpost⟩ :=
    (closed_takes_precedence_iff ⟨100, 10⟩ File.smallConfig Acid.crowded).1
  constructor
  · exact (hcall ⟨.at 3, .append "s" [1] "application/octet-stream" (Size.fits .one)⟩ storage _
      trivial hfind rfl (by decide) trivial).mpr ⟨trivial, trivial⟩
  · exact (hpost nestedZeros binaryRequest ⟨"s", [[1]], "application/octet-stream", none, false, false,
      none, (Size.fits .one)⟩ _ _ storage _ rfl trivial hfind rfl (by decide) (by decide)
      (List.cons_ne_nil _ _)).mpr ⟨trivial, trivial⟩

/-- A producer gets another error from a closed stream if its content type is another one, and so does
every append to a transactional storage that is full. -/
theorem closed_not_first :
    let full : Acid.Config := { Acid.crowded with limits := ⟨1, 1⟩ }
    let memory := (exec (Memory.step ⟨100, 10⟩) closedRun .new).2
    let file := (exec (File.step File.smallConfig .none) closedRun .new).2
    let acid := (exec Acid.step closedRun (.new full)).2
    let produce : Call := ⟨.at 3, .appendWithProducer "s" [[1]] "application/octet-stream" ⟨"p", 0, 0⟩
      false none (Size.fits .one)⟩
    let append : Call := ⟨.at 3, .append "s" [1] "text/plain" (Size.fits .one)⟩
    ((memory.streams.lookup "s").map fun stream => (stream.closed, stream.producers)) =
        some (true, ∅) ∧
      ((file.streams.lookup "s").map fun stream => (stream.closed, stream.producers)) =
        some (true, ∅) ∧
      ((acid.shard "s").streams.lookup "s").map (·.closed) = some true ∧
      (Memory.step ⟨100, 10⟩ produce memory).1 = .producer
        (.error (.contentTypeMismatch "text/plain" "application/octet-stream")) ∧
      (File.step File.smallConfig .none produce file).1 = .producer
        (.error (.contentTypeMismatch "text/plain" "application/octet-stream")) ∧
      (Acid.step append acid).1 = .offset (.error .memoryLimitExceeded) := by
  decide +kernel

end DurableStreams
