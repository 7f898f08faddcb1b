import DurableStreams.Handlers.Post
import DurableStreams.Storage.Memory.Growth

/-!
# Closing a stream by POST

Requests run concurrently against one in-memory storage, one storage call at a time. A POST without
a producer that asks to close the stream appends, or looks the tail up, and then closes the stream in
a second call. `Stage` says where such a POST stands and what it has done so far. As long as nothing
is appended between the two calls, the offset it answers with is final (`Tracked.next`).
-/

namespace DurableStreams.Closing

open Lib Memory Post

/-- A request to the server: a POST, or any other request, given by the storage calls it makes. -/
inductive Request where
  | post (append : Append)
  | other (program : Handler Response)

/-- The program of a request. -/
def Request.handle : Request → Handler Response
  | .post append => append.handle
  | .other program => program

/-- A server with the requests it works on. -/
abbrev Server := Lib.Server InMemoryStorage Request Op Reply (Result Response)

/-- Accept a request, or make the next storage call of one. -/
abbrev Event := ServerEvent Request Clock

/-- One event of the server. -/
def next (limits : Limits) : Event → Server → Option (Served Request Clock Op Reply) × Server :=
  serve Request.handle fun clock op storage => step limits ⟨clock, op⟩ storage

/-- The storage call an event makes. -/
def nextCall (server : Server) : Event → Option Call
  | .accept _ => none
  | .advance index clock =>
      ((server.running[index]?).bind fun running => running.program.next).map fun op => ⟨clock, op⟩

/-- Whether a request is a POST without a producer that asks to close the stream. -/
def Request.closes (name : String) : Request → Bool
  | .post append => append.name = name ∧ append.producer = none ∧ append.shouldClose = true
  | .other _ => false

/-- Whether such a request has made its first call and is about to close the stream. -/
def pendingClose (name : String) (running : Running Request Op Reply (Result Response)) : Bool :=
  running.request.closes name && running.program.next == some (.closeStream name)

/-- The event neither deletes the stream nor meets it expired. -/
def Live (name : String) (config : StreamConfig) (event : Event) (server : Server) : Prop :=
  ∀ call ∈ nextCall server event, Spares name config call

/-- The event adds no messages to the stream while a POST is about to close it. -/
def Undisturbed (limits : Limits) (name : String) (event : Event) (server : Server) : Prop :=
  ∀ call ∈ nextCall server event, call.op.name = name →
    call.added (step limits call server.state).1 ≠ [] →
      ∀ running ∈ server.running, pendingClose name running = false

instance instDecidableLive (name : String) (config : StreamConfig) (event : Event)
    (server : Server) : Decidable (Live name config event server) :=
  inferInstanceAs (Decidable (∀ call ∈ nextCall server event, call.op.name = name →
    call.op ≠ .delete name ∧ isStreamExpired call.clock.expiry config = false))

instance instDecidableUndisturbed (limits : Limits) (name : String) (event : Event)
    (server : Server) : Decidable (Undisturbed limits name event server) :=
  inferInstanceAs (Decidable (∀ call ∈ nextCall server event, call.op.name = name →
    call.added (step limits call server.state).1 ≠ [] →
      ∀ running ∈ server.running, pendingClose name running = false))

/-- The messages of a stream and whether it is closed. -/
def contents (storage : InMemoryStorage) (name : String) : Option (List Bytes × Bool) :=
  (storage.streams.lookup name).map fun stream => (stream.payloads, stream.closed)

/-! ## The calls of a closing POST -/

section Calls

variable (limits : Limits) {clock : Clock} {storage : InMemoryStorage} {name : String}
  {stream : StreamEntry}

/-- Looking up the tail of a live stream. -/
theorem head_live (hlookup : storage.streams.lookup name = some stream)
    (hlive : isStreamExpired clock.expiry stream.config = false) :
    ∃ metadata, step limits ⟨clock, .head name⟩ storage = (.metadata (.ok metadata), storage) ∧
      metadata.nextOffset = stream.nextOffset := by
  simp [step, readStream, hlookup, headSection, hlive]

/-- Closing a live stream. -/
theorem close_live (hlookup : storage.streams.lookup name = some stream)
    (hlive : isStreamExpired clock.expiry stream.config = false) :
    (step limits ⟨clock, .closeStream name⟩ storage).1 = .done (.ok ()) ∧
      (step limits ⟨clock, .closeStream name⟩ storage).2.streams.lookup name =
        some { stream with closed := true }.notifyAll := by
  simp [step, withStream, hlookup, closeSection, hlive]

/-- What the plan of a batch leaves: the batch at the end of the log and the new tail as its reply,
or the stream as it was. -/
theorem batch_append_plan_leaves (clock : Clock) (messages : List Bytes) (contentType : String)
    (seq : Option String) (stream : StreamEntry) :
    (batchAppendPlan clock messages contentType seq stream).Leaves fun reply after =>
      (reply = .offset (.ok after.nextOffset) ∧ after.payloads = stream.payloads ++ messages) ∨
        (∃ error, reply = .offset (.error error)) ∧ after = stream := by
  unfold batchAppendPlan
  split
  · exact .inr ⟨⟨_, rfl⟩, rfl⟩
  split
  · exact .inr ⟨⟨_, rfl⟩, rfl⟩
  cases validateContentType stream.config.contentType contentType with
  | error error => exact .inr ⟨⟨_, rfl⟩, rfl⟩
  | ok _ =>
      cases validateSeq stream.lastSeq seq with
      | error error => exact .inr ⟨⟨_, rfl⟩, rfl⟩
      | ok pending =>
          refine ⟨fun error => .inr ⟨⟨error, rfl⟩, rfl⟩, .inl ⟨rfl, ?_⟩⟩
          have hsame : SameLog (messages.foldl StreamEntry.push stream)
              ((stream.store messages).recordSeq pending) :=
            (SameLog.notifyAll _).trans (.recordSeq pending _)
          rw [hsame.payloads, payloads_foldl_push]

/-- Appending a batch to a stream stores it at the end of the log and returns the new tail, or leaves
the stream as it was. -/
theorem batch_append_cases {messages : List Bytes} {contentType : String} {seq : Option String}
    {fits : payloadBytes messages < 2 ^ 64}
    (hlookup : storage.streams.lookup name = some stream) (hmessages : messages ≠ []) :
    let outcome := step limits ⟨clock, .batchAppend name messages contentType seq fits⟩ storage
    ∃ after, outcome.2.streams.lookup name = some after ∧
      ((outcome.1 = .offset (.ok after.nextOffset) ∧
          after.payloads = stream.payloads ++ messages) ∨
        (∃ error, outcome.1 = .offset (.error error)) ∧ after = stream) := by
  intro outcome
  have hop : onStream (.batchAppend name messages contentType seq fits) = true := by
    simp [onStream, hmessages]
  have houtcome : outcome = _ := step_on_stream limits hop hlookup
  have hleaves := (batch_append_plan_leaves clock messages contentType seq stream).run limits
    storage.totalBytes
  rw [houtcome]
  exact ⟨_, Finmap.lookup_insert _, hleaves⟩

end Calls

/-! ## Where a closing POST stands -/

section Stages

variable (limits : Limits) (name : String) (start : Server)

/-- The server after some events. -/
def run (past : List Event) : Server := (exec (next limits) past start).2

/-- No call of the request has changed the messages of the stream or closed it. -/
def Untouched (past : List Event) (index : Nat) : Prop :=
  ∀ first clock rest, past = first ++ .advance index clock :: rest →
    contents (run limits start (first ++ [.advance index clock])).state name =
      contents (run limits start first).state name

/-- Since a call of the request, its messages and nothing else have been stored. -/
def StoredLast (past : List Event) (index : Nat) (messages : List Bytes) (stream : StreamEntry) :
    Prop :=
  ∃ first clock rest before, past = first ++ .advance index clock :: rest ∧
    (run limits start first).state.streams.lookup name = some before ∧
    stream.payloads = before.payloads ++ messages

/-- Where a POST that closes the stream stands, by what is left of its program. -/
inductive Stage (past : List Event) (index : Nat) (append : Append) (stream : StreamEntry) :
    Handler Response → Prop
  | start (h : Untouched limits name start past index) :
      Stage past index append stream append.handle
  | conflict (h : Untouched limits name start past index) :
      Stage past index append stream (streamClosedResponse append.name)
  | failed (result : Result Response)
      (hresult : ∀ response, result = .ok response → response.status ≠ .noContent)
      (h : Untouched limits name start past index) : Stage past index append stream (.done result)
  | closing (h : StoredLast limits name start past index append.messages stream) :
      Stage past index append stream (finishAppend append stream.nextOffset)
  | closed (h : StoredLast limits name start past index append.messages stream)
      (hclosed : stream.closed = true) :
      Stage past index append stream (.done (.ok (appendedResponse append stream.nextOffset)))

/-- What is known of the request with an index, which may not have been accepted yet. -/
def Tracked (past : List Event) (stream : StreamEntry) (index : Nat) :
    Option (Running Request Op Reply (Result Response)) → Prop
  | none => Untouched limits name start past index
  | some ⟨.post append, program⟩ =>
      (Request.post append).closes name = true →
        Stage limits name start past index append stream program
  | some ⟨.other _, _⟩ => True

/-- The stream is there, and all requests that close it are where they should be. -/
structure Inv (config : StreamConfig) (past : List Event) : Prop where
  tracked : ∃ stream, (run limits start past).state.streams.lookup name = some stream ∧
    stream.config = config ∧
    ∀ index, Tracked limits name start past stream index (run limits start past).running[index]?

variable {limits name start} {past : List Event} {index : Nat} {append : Append}
  {stream after : StreamEntry} {event : Event}

/-- One more event that is not a call of the request, or changes nothing. -/
theorem Untouched.concat (h : Untouched limits name start past index)
    (hevent : ∀ clock, event = .advance index clock →
      contents (run limits start (past ++ [event])).state name =
        contents (run limits start past).state name) :
    Untouched limits name start (past ++ [event]) index := by
  intro first clock rest hsplit
  obtain ⟨-, rfl, rfl⟩ | ⟨rest, -, hpast⟩ := concat_split hsplit
  · exact hevent clock rfl
  · exact h first clock rest hpast

/-- One more event after which the log is the same. -/
theorem StoredLast.concat {messages : List Bytes}
    (h : StoredLast limits name start past index messages stream) (event : Event)
    (hpayloads : after.payloads = stream.payloads) :
    StoredLast limits name start (past ++ [event]) index messages after := by
  obtain ⟨first, clock, rest, before, rfl, hbefore, hstored⟩ := h
  exact ⟨first, clock, rest ++ [event], before, by simp, hbefore, hpayloads.trans hstored⟩

/-- The parts of a request that closes the stream. -/
theorem closes_iff : (Request.post append).closes name = true ↔
    append.name = name ∧ append.producer = none ∧ append.shouldClose = true := by
  simp [Request.closes]

/-- The second call of a POST that closes the stream. -/
theorem finish_append_eq (hcloses : (Request.post append).closes name = true)
    (nextOffset : Offset) :
    finishAppend append nextOffset = callCloseStream name fun result =>
      .done (result.map fun _ => appendedResponse append nextOffset) := by
  obtain ⟨rfl, -, hclose⟩ := closes_iff.mp hcloses
  rw [finishAppend, if_pos hclose]

/-- A POST that closes the stream stays where it is while others make calls, as long as the log does
not change while it is about to close the stream. -/
theorem Stage.wait {program : Handler Response}
    (hcloses : (Request.post append).closes name = true)
    (h : Stage limits name start past index append stream program)
    (hother : ∀ clock, event = .advance index clock →
      contents (run limits start (past ++ [event])).state name =
        contents (run limits start past).state name)
    (hgrows : Grows stream after)
    (hsame : program.next = some (.closeStream name) → SameLog stream after) :
    Stage limits name start (past ++ [event]) index append after program := by
  cases h with
  | start huntouched => exact .start (huntouched.concat hother)
  | conflict huntouched => exact .conflict (huntouched.concat hother)
  | failed result hresult huntouched => exact .failed result hresult (huntouched.concat hother)
  | closing hstored =>
      have hlog := hsame (by rw [finish_append_eq hcloses]; rfl)
      rw [← hlog.nextOffset]
      exact .closing (hstored.concat event hlog.payloads)
  | closed hstored hclosed =>
      obtain ⟨hstays, hlog, -⟩ := hgrows.frozen hclosed
      rw [← hlog.nextOffset]
      exact .closed (hstored.concat event hlog.payloads) hstays

/-- The state a call of a request finds and the one it leaves. -/
structure Calling (limits : Limits) (name : String) (start : Server) (past : List Event)
    (index : Nat) (clock : Clock) (op : Op) (stream after : StreamEntry) : Prop where
  live : Spares name stream.config ⟨clock, op⟩
  before : (run limits start past).state.streams.lookup name = some stream
  state : (run limits start (past ++ [.advance index clock])).state =
    (step limits ⟨clock, op⟩ (run limits start past).state).2
  after : (run limits start (past ++ [.advance index clock])).state.streams.lookup name = some after

section Advance

variable {clock : Clock} {op : Op}

/-- A call after which the stream is as it was. -/
theorem Calling.untouched (hcall : Calling limits name start past index clock op stream stream)
    (h : Untouched limits name start past index) :
    Untouched limits name start (past ++ [.advance index clock]) index :=
  h.concat fun _ _ => by rw [contents, contents, hcall.after, hcall.before]

/-- A call that stores messages. -/
theorem Calling.storedLast {messages : List Bytes}
    (hcall : Calling limits name start past index clock op stream after)
    (hpayloads : after.payloads = stream.payloads ++ messages) :
    StoredLast limits name start (past ++ [.advance index clock]) index messages after :=
  ⟨past, clock, [], stream, rfl, hcall.before, hpayloads⟩

/-- Looking up the tail leaves the stream as it was. -/
theorem Calling.head (hcall : Calling limits name start past index clock (.head name) stream after) :
    after = stream ∧ ∃ metadata, metadata.nextOffset = stream.nextOffset ∧
      (step limits ⟨clock, .head name⟩ (run limits start past).state).1 =
        .metadata (.ok metadata) := by
  obtain ⟨metadata, hstep, hoffset⟩ := head_live limits hcall.before (hcall.live rfl).2
  have hafter := hcall.after
  rw [hcall.state, hstep, hcall.before] at hafter
  exact ⟨(Option.some.inj hafter).symm, metadata, hoffset, by rw [hstep]⟩

/-- The first call of a POST without messages looks up the tail. -/
theorem Calling.start_head (hmessages : append.messages = [])
    (hcall : Calling limits name start past index clock (.head name) stream after) :
    ∃ metadata, (step limits ⟨clock, .head name⟩ (run limits start past).state).1 =
        .metadata (.ok metadata) ∧
      Stage limits name start (past ++ [.advance index clock]) index append after
        (finishAppend append metadata.nextOffset) := by
  obtain ⟨rfl, metadata, hoffset, hreply⟩ := hcall.head
  refine ⟨metadata, hreply, ?_⟩
  rw [hoffset]
  exact .closing (hcall.storedLast (by rw [hmessages, List.append_nil]))

/-- The first call of a POST with messages appends them. -/
theorem Calling.start_append (huntouched : Untouched limits name start past index)
    (hmessages : append.messages ≠ [])
    (hcall : Calling limits name start past index clock
      (.batchAppend name append.messages append.contentType append.seq append.fits) stream after) :
    ∃ result, (step limits ⟨clock, .batchAppend name append.messages append.contentType append.seq
          append.fits⟩ (run limits start past).state).1 = .offset result ∧
      match result with
      | .ok nextOffset => Stage limits name start (past ++ [.advance index clock]) index append after
          (finishAppend append nextOffset)
      | .error _ => Untouched limits name start (past ++ [.advance index clock]) index := by
  obtain ⟨found, hfound, hcases⟩ := batch_append_cases limits hcall.before hmessages
  obtain rfl : found = after := by
    rw [← hcall.state, hcall.after] at hfound
    exact (Option.some.inj hfound).symm
  obtain ⟨hreply, hpayloads⟩ | ⟨⟨error, hreply⟩, rfl⟩ := hcases
  · exact ⟨.ok found.nextOffset, hreply, .closing (hcall.storedLast hpayloads)⟩
  · exact ⟨.error error, hreply, hcall.untouched huntouched⟩

/-- The second call of a POST closes the stream, and the answer is the tail. -/
theorem Calling.close (hstored : StoredLast limits name start past index append.messages stream)
    (hcall : Calling limits name start past index clock (.closeStream name) stream after) :
    (step limits ⟨clock, .closeStream name⟩ (run limits start past).state).1 = .done (.ok ()) ∧
      Stage limits name start (past ++ [.advance index clock]) index append after
        (.done (.ok (appendedResponse append stream.nextOffset))) := by
  obtain ⟨hreply, hlookup⟩ := close_live limits hcall.before (hcall.live rfl).2
  obtain rfl : { stream with closed := true }.notifyAll = after := by
    rw [← hcall.state, hcall.after] at hlookup
    exact (Option.some.inj hlookup).symm
  exact ⟨hreply, .closed (hstored.concat _ rfl) rfl⟩

/-- Every call of a POST that closes the stream leads to a further stage. -/
theorem Stage.advance {resume : Reply → Handler Response}
    (hcloses : (Request.post append).closes name = true)
    (h : Stage limits name start past index append stream (.call op resume))
    (hcall : Calling limits name start past index clock op stream after) :
    Stage limits name start (past ++ [.advance index clock]) index append after
      (resume (step limits ⟨clock, op⟩ (run limits start past).state).1) := by
  obtain ⟨hname, hproducer, hclose⟩ := closes_iff.mp hcloses
  generalize hprogram : Program.call op resume = program at h
  cases h with
  | start huntouched =>
      rw [Append.handle, hproducer] at hprogram
      simp only [handleNonProducerAppend, hname] at hprogram
      by_cases hmessages : append.messages = []
      · rw [if_pos (by simp [hmessages])] at hprogram
        cases hprogram
        obtain ⟨metadata, hreply, hstage⟩ := hcall.start_head hmessages
        rw [hreply]
        exact hstage
      · rw [if_neg (by simp [hmessages])] at hprogram
        cases hprogram
        obtain ⟨result, hreply, hstage⟩ := hcall.start_append huntouched hmessages
        rw [hreply]
        cases result with
        | ok nextOffset => exact hstage
        | error error =>
            cases error with
            | streamClosed =>
                have hconflict : Stage limits name start (past ++ [.advance index clock]) index append
                    after (streamClosedResponse append.name) := .conflict hstage
                rwa [hname] at hconflict
            | _ => exact .failed _ (fun _ h => nomatch h) hstage
  | conflict huntouched =>
      rw [streamClosedResponse, hname] at hprogram
      cases hprogram
      obtain ⟨rfl, metadata, -, hreply⟩ := hcall.head
      rw [hreply]
      refine .failed _ (fun response hresponse => ?_) (hcall.untouched huntouched)
      cases hresponse
      exact Status.noConfusion
  | failed result => cases hprogram
  | closing hstored =>
      rw [finish_append_eq hcloses] at hprogram
      cases hprogram
      obtain ⟨hreply, hstage⟩ := hcall.close hstored
      rw [hreply]
      exact hstage
  | closed => cases hprogram

end Advance

/-- The server after one more event. -/
theorem run_concat (limits : Limits) (start : Server) (past : List Event) (event : Event) :
    run limits start (past ++ [event]) = (next limits event (run limits start past)).2 :=
  exec_concat past event start

/-- A call that leaves the stream in place and does not disturb a POST about to close it leaves the
log alone if there is such a POST. -/
theorem undisturbed_grows {server : Server} {call : Call} (hcall : call ∈ nextCall server event)
    (hlookup : server.state.streams.lookup name = some stream)
    (hspares : Spares name stream.config call)
    (hundisturbed : Undisturbed limits name event server) :
    ∃ after, (step limits call server.state).2.streams.lookup name = some after ∧
      Grows stream after ∧
      ∀ running ∈ server.running, pendingClose name running = true → SameLog stream after := by
  by_cases hquiet : call.op.name = name → call.added (step limits call server.state).1 = []
  · obtain ⟨after, hafter, hgrows, hsame⟩ := step_same_log limits hlookup hspares.keeps hquiet
    exact ⟨after, hafter, hgrows, fun _ _ _ => hsame⟩
  · obtain ⟨after, hafter, hgrows⟩ := step_grows limits hlookup hspares.keeps
    refine ⟨after, hafter, hgrows, fun running hrunning hpending => ?_⟩
    obtain ⟨hname, hadded⟩ := Classical.not_imp.mp hquiet
    rw [hundisturbed call hcall hname hadded running hrunning] at hpending
    cases hpending

/-- A request that makes no call with the event, or one that changes nothing. -/
theorem Tracked.wait {running : Option (Running Request Op Reply (Result Response))}
    (h : Tracked limits name start past stream index running)
    (hother : ∀ clock, event = .advance index clock →
      contents (run limits start (past ++ [event])).state name =
        contents (run limits start past).state name)
    (hgrows : Grows stream after)
    (hsame : ∀ request ∈ running, pendingClose name request = true → SameLog stream after) :
    Tracked limits name start (past ++ [event]) after index running := by
  match running with
  | none => exact Untouched.concat h hother
  | some ⟨.other _, _⟩ => trivial
  | some ⟨.post append, program⟩ =>
      intro hcloses
      refine (h hcloses).wait hcloses hother hgrows fun hnext => hsame _ rfl ?_
      rw [pendingClose, hcloses, hnext]
      simp

/-- Every event that spares the stream and disturbs no POST about to close it keeps the invariant. -/
theorem Inv.next {config : StreamConfig} (hlive : Live name config event (run limits start past))
    (hundisturbed : Undisturbed limits name event (run limits start past))
    (h : Inv limits name start config past) : Inv limits name start config (past ++ [event]) := by
  obtain ⟨stream, hlookup, rfl, htracked⟩ := h.tracked
  have hrun := run_concat limits start past event
  obtain heq | ⟨request, hevent, heq⟩ |
      ⟨index, clock, request, op, resume, hevent, hrunning, heq⟩ :=
    serve_cases Request.handle (fun clock op storage => step limits ⟨clock, op⟩ storage) event
      (run limits start past)
  · rw [Closing.next, heq] at hrun
    refine ⟨stream, by rw [hrun]; exact hlookup, rfl, fun index => ?_⟩
    rw [hrun]
    exact (htracked index).wait (fun _ _ => by rw [hrun]) (.refl stream) fun _ _ _ => .refl stream
  · rw [Closing.next, heq] at hrun
    refine ⟨stream, by rw [hrun]; exact hlookup, rfl, fun index => ?_⟩
    have hwait : Tracked limits name start (past ++ [event]) stream index _ :=
      (htracked index).wait (fun _ _ => by rw [hrun]) (.refl stream) fun _ _ _ => .refl stream
    rw [hrun]
    dsimp only
    rw [List.getElem?_append]
    split
    · exact hwait
    · next hnew =>
        rw [List.getElem?_eq_none (Nat.le_of_not_lt hnew)] at hwait
        cases hnth : [(⟨request, request.handle⟩ : Running _ _ _ _)][index -
            (run limits start past).running.length]? with
        | none => exact hwait
        | some running =>
            obtain rfl := List.mem_singleton.mp (List.mem_of_getElem? hnth)
            cases request with
            | post append => exact fun _ => .start hwait
            | other program => trivial
  · have hmem : ⟨clock, op⟩ ∈ nextCall (run limits start past) event := by
      rw [hevent, nextCall, hrunning]
      rfl
    have hspares := hlive _ hmem
    obtain ⟨after, hafter, hgrows, hsame⟩ := undisturbed_grows hmem hlookup hspares hundisturbed
    rw [Closing.next, heq] at hrun
    have hstate := congrArg Lib.Server.state hrun
    refine ⟨after, by rw [hrun]; exact hafter, hgrows.config, fun other => ?_⟩
    rw [hrun]
    dsimp only
    rw [List.getElem?_set]
    split
    · next hindex =>
        subst hindex hevent
        rw [if_pos (List.getElem?_eq_some_iff.mp hrunning).1]
        have hcalling : Calling limits name start past index clock op stream after :=
          ⟨hspares, hlookup, hstate, by rw [hstate]; exact hafter⟩
        cases request with
        | post append =>
            intro hcloses
            have hstage := htracked index
            rw [hrunning] at hstage
            exact (hstage hcloses).advance hcloses hcalling
        | other program => trivial
    · next hindex =>
        refine (htracked other).wait (fun clock' hclock' => ?_) hgrows fun running hget =>
          hsame running (List.mem_of_getElem? hget)
        rw [hevent] at hclock'
        injection hclock' with hother
        exact absurd hother hindex

end Stages

/-! ## Runs -/

section Runs

variable {limits : Limits} {name : String} {server : Server} {stream : StreamEntry}

/-- An event that spares the stream lets it grow. -/
theorem next_grows {event : Event} (hlookup : server.state.streams.lookup name = some stream)
    (hlive : Live name stream.config event server) :
    ∃ after, (next limits event server).2.state.streams.lookup name = some after ∧
      Grows stream after := by
  obtain heq | ⟨request, -, heq⟩ | ⟨index, clock, request, op, resume, rfl, hrunning, heq⟩ :=
    serve_cases Request.handle (fun clock op storage => step limits ⟨clock, op⟩ storage) event server
  · rw [Closing.next, heq]
    exact ⟨stream, hlookup, .refl stream⟩
  · rw [Closing.next, heq]
    exact ⟨stream, hlookup, .refl stream⟩
  · rw [Closing.next, heq]
    have hspares := hlive ⟨clock, op⟩ (by rw [nextCall, hrunning]; rfl)
    exact step_grows limits hlookup hspares.keeps

/-- A run that spares the stream lets it grow. -/
theorem exec_next_grows {events : List Event}
    (hlookup : server.state.streams.lookup name = some stream)
    (hlive : Along (next limits) (Live name stream.config) events server) :
    ∃ after, (run limits server events).state.streams.lookup name = some after ∧
      Grows stream after := by
  induction events generalizing server stream with
  | nil => exact ⟨stream, hlookup, .refl stream⟩
  | cons event events ih =>
      obtain ⟨middle, hmiddle, hgrows⟩ := next_grows hlookup hlive.1
      obtain ⟨after, hafter, hgrows'⟩ := ih hmiddle (by rw [hgrows.config]; exact hlive.2)
      exact ⟨after, hafter, hgrows.trans hgrows'⟩

end Runs

/-- A POST without a producer that closes the stream, in any run in which the stream is neither
deleted nor meets a call expired and no messages are added to it while such a POST is about to close
it. If it is answered 204, only its messages have been stored since its first call, the offset
in the answer is the tail, and the closed stream keeps its log and its tail from then on. If it is
answered otherwise, none of its calls has changed the messages of the stream or closed it. -/
theorem post_close_final (limits : Limits) (calls : List Call) (name : String)
    (initial : StreamEntry)
    (hlookup : (exec (step limits) calls .new).2.streams.lookup name = some initial)
    (events : List Event)
    (halong : Along (next limits)
      (fun event server =>
        Live name initial.config event server ∧ Undisturbed limits name event server)
      events ⟨(exec (step limits) calls .new).2, []⟩) :
    let start : Server := ⟨(exec (step limits) calls .new).2, []⟩
    let server := run limits start events
    ∃ stream, server.state.streams.lookup name = some stream ∧
      ∀ index append result, server.running[index]? = some ⟨.post append, .done result⟩ →
        (Request.post append).closes name = true →
        (∀ response, result = .ok response → response.status = .noContent →
          response.nextOffset = some stream.nextOffset ∧ response.closed = true ∧
          stream.closed = true ∧
          StoredLast limits name start events index append.messages stream ∧
          ∀ later, Along (next limits) (Live name initial.config) later server →
            ∃ after, (run limits server later).state.streams.lookup name = some after ∧
              after.closed = true ∧ after.payloads = stream.payloads ∧
              after.nextOffset = stream.nextOffset) ∧
        ((∀ response, result = .ok response → response.status ≠ .noContent) →
          Untouched limits name start events index) := by
  intro start server
  have hinv : Inv limits name start initial.config events :=
    exec_history ⟨initial, hlookup, rfl, fun _ _ _ rest hsplit => by simp at hsplit⟩
      (fun past event hallowed hpast => hpast.next hallowed.1 hallowed.2) halong
  obtain ⟨stream, hstream, hconfig, htracked⟩ := hinv.tracked
  refine ⟨stream, hstream, fun index append result hrunning hcloses => ?_⟩
  have hstage := htracked index
  rw [show (run limits start events).running[index]? = _ from hrunning] at hstage
  have hstage := hstage hcloses
  obtain ⟨hname, hproducer, hclose⟩ := closes_iff.mp hcloses
  generalize hprogram : Program.done result = program at hstage
  cases hstage with
  | start huntouched =>
      rw [Append.handle, hproducer] at hprogram
      simp only [handleNonProducerAppend] at hprogram
      split at hprogram <;> cases hprogram
  | conflict => cases hprogram
  | failed result hresult huntouched =>
      cases hprogram
      exact ⟨fun response hresponse hstatus => absurd hstatus (hresult response hresponse),
        fun _ => huntouched⟩
  | closing =>
      rw [finish_append_eq hcloses] at hprogram
      cases hprogram
  | closed hstored hclosed =>
      cases hprogram
      refine ⟨fun response hresponse _ => ?_, fun hstatus => absurd rfl (hstatus _ rfl)⟩
      cases hresponse
      refine ⟨rfl, hclose, hclosed, hstored, fun later hlater => ?_⟩
      rw [← hconfig] at hlater
      obtain ⟨after, hafter, hgrows⟩ := exec_next_grows hstream hlater
      obtain ⟨hstays, hsame, -⟩ := hgrows.frozen hclosed
      exact ⟨after, hafter, hstays, hsame.payloads, hsame.nextOffset⟩

/-- A POST that appends one message and closes the stream. -/
def closingPost : Append := ⟨"s", [[1]], "text/plain", none, true, false, none, by decide⟩

/-- A POST that appends another message. -/
def appendingPost : Append := ⟨"s", [[2]], "text/plain", none, false, false, none, by decide⟩

/-- A storage with one open stream and no requests. -/
def opened : Server := ⟨(exec (step ⟨100, 50⟩) [⟨.at 0, .createStream "s" .plain⟩] .new).2, []⟩

/-- The closing POST runs to its end, and only then the other one makes its call. -/
def undisturbedRun : List Event :=
  [.accept (.post closingPost), .accept (.post appendingPost), .advance 0 (.at 1),
    .advance 0 (.at 2), .advance 1 (.at 3), .advance 1 (.at 4)]

theorem post_close_final_undisturbed_run :
    let server := run ⟨100, 50⟩ opened undisturbedRun
    (server.running.map fun running => running.program.result) =
        [some (.ok ⟨.noContent, some (Offset.new 1 1), true, none, none, none, none, ""⟩),
          some (.ok ⟨.conflict, some (Offset.new 1 1), true, none, none, none, none,
            "Stream is closed"⟩)] ∧
      contents server.state "s" = some ([[1]], true) ∧
      ∃ stream, server.state.streams.lookup "s" = some stream ∧
        StoredLast ⟨100, 50⟩ "s" opened undisturbedRun 0 [[1]] stream := by
  intro server
  refine ⟨by decide +kernel, by decide +kernel, ?_⟩
  have hlookup : opened.state.streams.lookup "s" = some (.new 0 .plain) := by decide +kernel
  obtain ⟨stream, hstream, hanswers⟩ := post_close_final ⟨100, 50⟩ _ "s" (.new 0 .plain) hlookup
    undisturbedRun (by decide +kernel)
  refine ⟨stream, hstream, ?_⟩
  exact ((hanswers 0 closingPost _ rfl rfl).1 _ rfl rfl).2.2.2.1

/-- A POST that only closes the stream. -/
def closeOnlyPost : Append := ⟨"s", [], "", none, true, true, none, by decide⟩

/-- The other POST makes its call between the two calls of a closing one. -/
def overtakenRun (closing : Append) : List Event :=
  [.accept (.post closing), .accept (.post appendingPost), .advance 0 (.at 1), .advance 1 (.at 2),
    .advance 0 (.at 3)]

/-- The answer to the first request, and the stream with its tail. -/
def outcome (server : Server) :
    Option (Result Response) × Option (List Bytes × Offset × Bool) :=
  (server.running[0]?.bind fun running => running.program.result,
    (server.state.streams.lookup "s").map fun stream =>
      (stream.payloads, stream.nextOffset, stream.closed))

/-- With or without a message of its own, the closing POST is answered with an offset that is not the
tail, and a message is stored behind its own. -/
theorem post_close_final_overtaken :
    Along (next ⟨100, 50⟩) (Live "s" .plain) (overtakenRun closingPost) opened ∧
    outcome (run ⟨100, 50⟩ opened (overtakenRun closingPost)) =
      (some (.ok ⟨.noContent, some (Offset.new 1 1), true, none, none, none, none, ""⟩),
        some ([[1], [2]], Offset.new 2 2, true)) ∧
    Along (next ⟨100, 50⟩) (Live "s" .plain) (overtakenRun closeOnlyPost) opened ∧
    outcome (run ⟨100, 50⟩ opened (overtakenRun closeOnlyPost)) =
      (some (.ok ⟨.noContent, some (Offset.new 0 0), true, none, none, none, none, ""⟩),
        some ([[2]], Offset.new 1 1, true)) := by
  exact ⟨by decide +kernel, by decide +kernel, by decide +kernel, by decide +kernel⟩

end DurableStreams.Closing
