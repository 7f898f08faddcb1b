import DurableStreams.Handlers.Get
import DurableStreams.Storage.Memory.Reads

/-!
# Long-poll reads

A client polls one stream over and over, always resuming from the `Stream-Next-Offset` of the last
response, while other clients use the same storage. `read_long_poll` runs as separate steps:
subscribe, first read, wait, wake or timeout, second read. `Session.Inv` says where the client
stands in the log of the stream; it is kept by every step except a timeout that finds data appended
since the first read.
-/

namespace DurableStreams.LongPoll

open Lib Memory Get

/-- Where a poll stands. While it waits it holds the tail offset its first read returned. -/
inductive Phase where
  | idle
  | started (request : PollRequest)
  | subscribed (request : PollRequest) (receiver : Receiver)
  | waiting (request : PollRequest) (receiver : Receiver) (tailOffset : Offset)
  | woken (request : PollRequest) (tailOffset : Offset)
  | timedOut (request : PollRequest) (tailOffset : Offset)
  deriving DecidableEq

/-- A response with the position its request had resolved to at the first read. -/
structure Delivered where
  response : Response
  resolved : Nat
  deriving DecidableEq

/-- The storage, the running poll, the offset the client asks for next, the position the running
poll resolved to, and the responses so far. -/
structure Session where
  storage : InMemoryStorage
  phase : Phase
  offset : Offset
  resolved : Nat
  delivered : List Delivered

/-- A client about to poll from an offset of its choice. -/
def Session.start (storage : InMemoryStorage) (offset : Offset) : Session :=
  ⟨storage, .idle, offset, 0, []⟩

/-- The steps of the poll and of everyone else. Steps that read the storage carry a clock, and
steps that may build a response the cursor generated for it. -/
inductive Event where
  | poll (rawOffset : String) (ifNoneMatch : Option String) (contentType : String)
  | subscribe (clock : Clock)
  | firstRead (clock : Clock) (cursor : String)
  | wake
  | timeout
  | secondRead (clock : Clock) (cursor : String)
  | other (call : Call)

/-- The poll ends. After a 200 or 204 the client resumes from the next offset; after a 304 or an
error it asks for the same offset again. -/
def respond (session : Session) (result : Result Response) :
    Option (Result Response) × Session :=
  match result with
  | .error error => (some (.error error), { session with phase := .idle })
  | .ok response =>
      (some (.ok response),
        { session with
          phase := .idle
          offset := if response.status = .notModified then session.offset else response.nextOffset
          delivered := session.delivered ++ [⟨response, session.resolved⟩] })

section Steps

variable (limits : Limits) (name : String)

/-- The payloads of the polled stream. -/
def log (storage : InMemoryStorage) : List Bytes :=
  match storage.streams.lookup name with
  | some stream => stream.payloads
  | none => []

/-- The first read of a poll. -/
def firstRead (clock : Clock) (cursor : String) (request : PollRequest) (receiver : Receiver)
    (session : Session) : Option (Result Response) × Session :=
  match readStream session.storage name (readSection clock request.offset) with
  | .error error => respond session (.error error)
  | .ok result =>
      let session := { session with
        resolved := Log.position (log name session.storage) request.offset }
      match afterFirstRead request result cursor with
      | .inl response => respond session (.ok response)
      | .inr tailOffset => (none, { session with phase := .waiting request receiver tailOffset })

/-- The second read of a poll, at the tail offset. -/
def secondRead (clock : Clock) (tailOffset : Offset) (build : ReadResult → Response)
    (session : Session) : Option (Result Response) × Session :=
  respond session
    ((readStream session.storage name (readSection clock tailOffset)).map build)

/-- One step. A step that does not fit the phase of the poll does nothing. -/
def next : Event → Session → Option (Result Response) × Session
  | .poll rawOffset ifNoneMatch contentType, session =>
      match session.phase with
      | .idle =>
          (none, { session with
            phase := .started ⟨session.offset, rawOffset, ifNoneMatch, contentType⟩ })
      | _ => (none, session)
  | .subscribe clock, session =>
      match session.phase with
      | .started request =>
          match Memory.subscribe clock session.storage name with
          | none => respond session (.error (.notFound name))
          | some receiver => (none, { session with phase := .subscribed request receiver })
      | _ => (none, session)
  | .firstRead clock cursor, session =>
      match session.phase with
      | .subscribed request receiver => firstRead name clock cursor request receiver session
      | _ => (none, session)
  | .wake, session =>
      match session.phase with
      | .waiting request receiver tailOffset =>
          -- The receiver returns once the channel has seen a further send.
          match session.storage.streams.lookup name with
          | some stream =>
              if receiver.seen < stream.notify then
                (none, { session with phase := .woken request tailOffset })
              else (none, session)
          | none => (none, { session with phase := .woken request tailOffset })
      | _ => (none, session)
  | .timeout, session =>
      match session.phase with
      | .waiting request _ tailOffset =>
          (none, { session with phase := .timedOut request tailOffset })
      | _ => (none, session)
  | .secondRead clock cursor, session =>
      match session.phase with
      | .woken request tailOffset =>
          secondRead name clock tailOffset
            (fun result => handleLongPollWake tailOffset request.contentType result cursor) session
      | .timedOut _ tailOffset =>
          secondRead name clock tailOffset (fun result => timeoutResponse result cursor) session
      | _ => (none, session)
  | .other call, session =>
      (none, { session with storage := (step limits call session.storage).2 })

/-- The stream is there, not expired at the clock reading, and has fewer than `2 ^ 64` messages. -/
def Readable (clock : Clock) (session : Session) : Prop :=
  ∀ stream, session.storage.streams.lookup name = some stream →
    isStreamExpired clock.expiry stream.config = false ∧ stream.messages.length < 2 ^ 64

/-- Which steps may happen: the stream is not deleted or expired meanwhile. -/
def Allowed : Event → Session → Prop
  | .subscribe clock, session | .firstRead clock _, session | .secondRead clock _, session =>
      Readable name clock session
  | .other call, session =>
      ∀ stream, session.storage.streams.lookup name = some stream → Spares name stream.config call
  | _, _ => True

/-- Nothing has been appended since the first read when the second read after a timeout runs. -/
def Quiet : Event → Session → Prop
  | .secondRead _ _, session =>
      ∀ request tailOffset stream, session.phase = .timedOut request tailOffset →
        session.storage.streams.lookup name = some stream → stream.nextOffset = tailOffset
  | _, _ => True

end Steps

/-! ## The invariant -/

/-- The 200 and 204 responses so far. -/
def Session.answers (session : Session) : List Delivered :=
  session.delivered.filter fun delivered => delivered.response.status ≠ .notModified

/-- Everything the client has received, in order. -/
def Session.received (session : Session) : List Bytes :=
  (session.answers.map fun delivered => delivered.response.messages).flatten

/-- The response carries exactly the messages between the position the request resolved to and its
next offset. -/
def Correct (payloads : List Bytes) (delivered : Delivered) : Prop :=
  delivered.response.messages =
    Log.segment payloads delivered.resolved
      (Log.position payloads delivered.response.nextOffset)

instance (payloads : List Bytes) (delivered : Delivered) :
    Decidable (Correct payloads delivered) :=
  inferInstanceAs (Decidable (_ = _))

/-- The response covers the log from a position to the message whose offset it names next. -/
def Placed (payloads : List Bytes) (first : Nat) (response : Response) : Prop :=
  ∃ last ≤ payloads.length, first ≤ last ∧ response.nextOffset = Log.offsetAt payloads last ∧
    response.messages = Log.segment payloads first last

/-- What is known in each phase. A waiting poll resolved to the tail it waits at. -/
def PhaseInv (payloads : List Bytes) (session : Session) : Prop :=
  match session.phase with
  | .idle => True
  | .started request | .subscribed request _ => request.offset = session.offset
  | .waiting _ _ tailOffset | .woken _ tailOffset | .timedOut _ tailOffset =>
      session.resolved ≤ payloads.length ∧
        tailOffset = Log.offsetAt payloads session.resolved ∧
        (session.answers ≠ [] → session.offset = tailOffset)

/-- Where the client stands: it has received the log from its first position up to its offset. -/
def Standing (payloads : List Bytes) (session : Session) : Prop :=
  ∀ first rest, session.answers = first :: rest →
    ∃ last ≤ payloads.length, first.resolved ≤ last ∧
      session.offset = Log.offsetAt payloads last ∧
      session.received = Log.segment payloads first.resolved last

/-- The invariant of a session. -/
structure Inv (limits : Limits) (name : String) (session : Session) : Prop where
  storage : Invariant limits session.storage
  stream : ∃ stream, session.storage.streams.lookup name = some stream
  placed : ∀ delivered ∈ session.answers,
    Placed (log name session.storage) delivered.resolved delivered.response
  phase : PhaseInv (log name session.storage) session
  standing : Standing (log name session.storage) session

section Growth

variable {payloads more : List Bytes} {session : Session}

/-- A placed response stays placed when the log grows. -/
theorem Placed.grow {first : Nat} {response : Response} (h : Placed payloads first response) :
    Placed (payloads ++ more) first response := by
  obtain ⟨last, hlast, hfirst, hoffset, hmessages⟩ := h
  exact ⟨last, by rw [List.length_append]; omega, hfirst,
    by rw [Log.offset_at_append hlast, hoffset], by rw [Log.segment_of_append hlast, hmessages]⟩

/-- A placed response is correct. -/
theorem Placed.correct {delivered : Delivered}
    (h : Placed payloads delivered.resolved delivered.response)
    (hcount : payloads.length < 2 ^ 64) : Correct payloads delivered := by
  obtain ⟨last, hlast, -, hoffset, hmessages⟩ := h
  rw [Correct, hoffset, Log.position_offset_at hlast hcount, hmessages]

/-- A response that carries the rest of the log and names its tail is placed. -/
theorem placed_of_drop {first : Nat} {response : Response} (hfirst : first ≤ payloads.length)
    (hoffset : response.nextOffset = Log.tail payloads)
    (hmessages : response.messages = payloads.drop first) : Placed payloads first response :=
  ⟨payloads.length, Nat.le_refl _, hfirst, hoffset,
    by rw [Log.segment_length, hmessages]⟩

/-- The phase invariant survives growth of the log. -/
theorem PhaseInv.grow (h : PhaseInv payloads session) : PhaseInv (payloads ++ more) session := by
  unfold PhaseInv at h ⊢
  split at h
  · trivial
  · exact h
  · exact h
  all_goals
    obtain ⟨hresolved, htail, hoffset⟩ := h
    exact ⟨by rw [List.length_append]; omega, by rw [Log.offset_at_append hresolved, htail],
      hoffset⟩

/-- So does the standing of the client. -/
theorem Standing.grow (h : Standing payloads session) : Standing (payloads ++ more) session := by
  intro first rest hanswers
  obtain ⟨last, hlast, hfirst, hoffset, hreceived⟩ := h first rest hanswers
  exact ⟨last, by rw [List.length_append]; omega, hfirst,
    by rw [Log.offset_at_append hlast, hoffset], by rw [Log.segment_of_append hlast, hreceived]⟩

end Growth

section Preservation

variable {limits : Limits} {name : String} {session : Session} {stream : StreamEntry}

/-- The log of a stream that is there. -/
theorem log_eq {storage : InMemoryStorage} (h : storage.streams.lookup name = some stream) :
    log name storage = stream.payloads := by
  rw [log, h]

/-- Ending the poll with a response that is placed where the client stands. -/
theorem Inv.respond {response : Response} (h : Inv limits name session)
    (hcount : (log name session.storage).length < 2 ^ 64)
    (hplaced : response.status ≠ .notModified →
      Placed (log name session.storage) session.resolved response)
    (hoffset : session.answers ≠ [] →
      session.offset = Log.offsetAt (log name session.storage) session.resolved) :
    Inv limits name (respond session (.ok response)).2 := by
  by_cases hstatus : response.status = .notModified
  · have hanswers : (LongPoll.respond session (.ok response)).2.answers = session.answers := by
      simp [LongPoll.respond, Session.answers, hstatus]
    refine ⟨h.storage, h.stream, ?_, trivial, ?_⟩
    · rw [hanswers]
      exact h.placed
    · intro first rest hfirst
      rw [hanswers] at hfirst
      obtain ⟨last, hlast, hle, hstands, hreceived⟩ := h.standing first rest hfirst
      refine ⟨last, hlast, hle, ?_, ?_⟩
      · simpa [LongPoll.respond, hstatus] using hstands
      · rw [Session.received, hanswers]
        exact hreceived
  · have hanswers : (LongPoll.respond session (.ok response)).2.answers =
        session.answers ++ [⟨response, session.resolved⟩] := by
      simp [LongPoll.respond, Session.answers, hstatus]
    have hplaced := hplaced hstatus
    refine ⟨h.storage, h.stream, ?_, trivial, ?_⟩
    · intro delivered hdelivered
      rw [hanswers] at hdelivered
      rcases List.mem_append.mp hdelivered with hold | hnew
      · exact h.placed delivered hold
      · obtain rfl := List.mem_singleton.mp hnew
        exact hplaced
    · intro first rest hfirst
      rw [hanswers] at hfirst
      obtain ⟨last, hlast, hle, hnext, hmessages⟩ := hplaced
      cases hold : session.answers with
      | nil =>
          rw [hold, List.nil_append, List.cons.injEq] at hfirst
          obtain ⟨rfl, -⟩ := hfirst
          refine ⟨last, hlast, hle, ?_, ?_⟩
          · simpa [LongPoll.respond, hstatus] using hnext
          · rw [Session.received, hanswers, hold]
            exact (List.flatten_singleton ..).trans hmessages
      | cons earlier others =>
          rw [hold, List.cons_append, List.cons.injEq] at hfirst
          obtain ⟨rfl, -⟩ := hfirst
          obtain ⟨middle, hmiddle, hbegin, hstands, hreceived⟩ := h.standing _ _ hold
          -- The client asked from where it stands, so the two segments join.
          have hjoin : middle = session.resolved :=
            Log.offset_at_inj (by omega) (by omega)
              (hstands.symm.trans (hoffset (by simp [hold])))
          subst hjoin
          refine ⟨last, hlast, by omega, ?_, ?_⟩
          · simpa [LongPoll.respond, hstatus] using hnext
          · rw [Session.received, hanswers, List.map_append, List.flatten_append]
            change session.received ++ [response.messages].flatten = _
            rw [hreceived, List.flatten_singleton, hmessages]
            exact Log.segment_append hle hlast hbegin

/-- An error ends the poll and leaves the client where it stands. -/
theorem Inv.fail {error : Error} (h : Inv limits name session) :
    Inv limits name (LongPoll.respond session (.error error)).2 :=
  ⟨h.storage, h.stream, h.placed, trivial, h.standing⟩

/-- What a read of the polled stream returns. -/
theorem read_eq {clock : Clock} (h : Inv limits name session)
    (hreadable : Readable name clock session) (offset : Offset) :
    (log name session.storage).length < 2 ^ 64 ∧
    ∃ closed, readStream session.storage name (readSection clock offset) =
      .ok ⟨(log name session.storage).drop (Log.position (log name session.storage) offset),
        Log.tail (log name session.storage), true, closed⟩ := by
  obtain ⟨stream, hlookup⟩ := h.stream
  obtain ⟨hlive, hcount⟩ := hreadable stream hlookup
  rw [log_eq hlookup]
  refine ⟨?_, stream.closed, read_stream_eq h.storage hlookup hcount hlive offset⟩
  rw [StreamEntry.payloads, List.length_map]
  exact hcount

/-- When nothing is left to read, the position is the end of the log. -/
theorem position_eq_length {payloads : List Bytes} {offset : Offset}
    (h : payloads.drop (Log.position payloads offset) = []) :
    Log.position payloads offset = payloads.length :=
  Nat.le_antisymm (Log.position_le _ _) (List.drop_eq_nil_iff.mp h)

/-- The first read keeps the invariant. -/
theorem inv_firstRead {clock : Clock} {cursor : String} {request : PollRequest}
    {receiver : Receiver} (h : Inv limits name session)
    (hphase : session.phase = .subscribed request receiver)
    (hreadable : Readable name clock session) :
    Inv limits name (firstRead name clock cursor request receiver session).2 := by
  obtain ⟨hcount, closed, hread⟩ := read_eq h hreadable request.offset
  have hrequest : request.offset = session.offset := by
    have hinv := h.phase
    rwa [PhaseInv, hphase] at hinv
  rw [firstRead, hread]
  dsimp only
  have hsession : Inv limits name
      { session with resolved := Log.position (log name session.storage) request.offset } := by
    refine ⟨h.storage, h.stream, h.placed, ?_, h.standing⟩
    rw [PhaseInv, hphase]
    exact hrequest
  -- A client that has received something asks for the offset of a message.
  have hoffset : session.answers ≠ [] → session.offset =
      Log.offsetAt (log name session.storage)
        (Log.position (log name session.storage) request.offset) := by
    intro hanswers
    obtain ⟨first, rest, hfirst⟩ := List.exists_cons_of_ne_nil hanswers
    obtain ⟨last, hlast, -, hstands, -⟩ := h.standing first rest hfirst
    rw [hrequest, hstands, Log.position_offset_at hlast hcount]
  have hle := Log.position_le (log name session.storage) request.offset
  obtain ⟨response, hresponse, hcarries⟩ | ⟨hempty, hwait⟩ :=
    after_first_read_cases request ⟨(log name session.storage).drop
      (Log.position (log name session.storage) request.offset),
      Log.tail (log name session.storage), true, closed⟩ cursor
  · rw [hresponse]
    refine hsession.respond hcount (fun hstatus => ?_) hoffset
    obtain ⟨hnext, hmessages⟩ := hcarries hstatus
    exact placed_of_drop hle hnext hmessages
  · rw [hwait]
    have hend := position_eq_length hempty
    refine ⟨h.storage, h.stream, h.placed, ⟨hle, ?_, ?_⟩, h.standing⟩
    · dsimp only
      rw [hend]
      rfl
    · intro hanswers
      exact (hoffset hanswers).trans (by rw [hend]; rfl)

/-- A second read that answers with all it has read keeps the invariant. -/
theorem inv_secondRead {clock : Clock} {tailOffset : Offset} {build : ReadResult → Response}
    (h : Inv limits name session)
    (hresolved : session.resolved ≤ (log name session.storage).length)
    (htail : tailOffset = Log.offsetAt (log name session.storage) session.resolved)
    (hoffset : session.answers ≠ [] → session.offset = tailOffset)
    (hreadable : Readable name clock session)
    (hbuild : ∀ closed,
      let result : ReadResult := ⟨(log name session.storage).drop session.resolved,
        Log.tail (log name session.storage), true, closed⟩
      (build result).nextOffset = result.nextOffset ∧ (build result).messages = result.messages) :
    Inv limits name (secondRead name clock tailOffset build session).2 := by
  obtain ⟨hcount, closed, hread⟩ := read_eq h hreadable tailOffset
  rw [htail, Log.position_offset_at hresolved hcount] at hread
  rw [secondRead, htail, hread]
  obtain ⟨hnext, hmessages⟩ := hbuild closed
  exact h.respond hcount (fun _ => placed_of_drop hresolved hnext hmessages)
    (fun hanswers => (hoffset hanswers).trans htail)

/-- Nothing was appended since the first read exactly when the poll resolved to the end of the
log. -/
theorem timeout_quiet_iff {clock : Clock} {tailOffset : Offset} (h : Inv limits name session)
    (hresolved : session.resolved ≤ (log name session.storage).length)
    (htail : tailOffset = Log.offsetAt (log name session.storage) session.resolved)
    (hreadable : Readable name clock session) :
    (∀ stream, session.storage.streams.lookup name = some stream →
      stream.nextOffset = tailOffset) ↔
      session.resolved = (log name session.storage).length := by
  obtain ⟨hcount, -⟩ := read_eq h hreadable tailOffset
  obtain ⟨stream, hlookup⟩ := h.stream
  have hnext : stream.nextOffset = Log.tail (log name session.storage) := by
    rw [log_eq hlookup]
    exact (h.storage.wellFormed hlookup).next_offset
  constructor
  · intro hquiet
    have heq := hquiet stream hlookup
    rw [hnext, htail] at heq
    exact (Log.offset_at_inj (by omega) (by omega) heq).symm
  · intro hend other hother
    obtain rfl := Option.some.inj (hlookup.symm.trans hother)
    rw [hnext, htail, hend]
    rfl

/-- A call by another client keeps the invariant. -/
theorem inv_other {call : Call} (h : Inv limits name session)
    (hallowed : Allowed name (.other call) session) :
    Inv limits name { session with storage := (step limits call session.storage).2 } := by
  obtain ⟨stream, hlookup⟩ := h.stream
  obtain ⟨after, hafter, -, hpayloads⟩ :=
    step_spares h.storage hlookup (hallowed stream hlookup)
  obtain ⟨more, hlog⟩ : ∃ more, log name (step limits call session.storage).2 =
      log name session.storage ++ more :=
    ⟨_, by rw [log_eq hafter, log_eq hlookup]; exact hpayloads⟩
  refine ⟨step_invariant call h.storage, ⟨after, hafter⟩, ?_, ?_, ?_⟩
  · intro delivered hdelivered
    dsimp only
    rw [hlog]
    exact (h.placed delivered hdelivered).grow
  · dsimp only
    rw [hlog]
    exact h.phase.grow
  · dsimp only
    rw [hlog]
    exact h.standing.grow

/-- Every step keeps the invariant, as long as a timeout finds nothing appended. -/
theorem inv_next {event : Event}
    (hcondition : Allowed name event session ∧ Quiet name event session)
    (h : Inv limits name session) : Inv limits name (next limits name event session).2 := by
  obtain ⟨hallowed, hquiet⟩ := hcondition
  have hphaseInv := h.phase
  cases event with
  | other call => exact inv_other h hallowed
  | poll rawOffset ifNoneMatch contentType =>
      simp only [next]
      split
      · exact ⟨h.storage, h.stream, h.placed, rfl, h.standing⟩
      · exact h
  | subscribe clock =>
      simp only [next]
      split
      · next request hphase =>
          rw [PhaseInv, hphase] at hphaseInv
          split
          · exact h.fail
          · exact ⟨h.storage, h.stream, h.placed, hphaseInv, h.standing⟩
      · exact h
  | firstRead clock cursor =>
      simp only [next]
      split
      · next request receiver hphase => exact inv_firstRead h hphase hallowed
      · exact h
  | wake =>
      simp only [next]
      split
      · next request receiver tailOffset hphase =>
          rw [PhaseInv, hphase] at hphaseInv
          have hwoken : Inv limits name
              { session with phase := .woken request tailOffset } :=
            ⟨h.storage, h.stream, h.placed, hphaseInv, h.standing⟩
          split
          · split
            · exact hwoken
            · exact h
          · exact hwoken
      · exact h
  | timeout =>
      simp only [next]
      split
      · next request receiver tailOffset hphase =>
          rw [PhaseInv, hphase] at hphaseInv
          exact ⟨h.storage, h.stream, h.placed, hphaseInv, h.standing⟩
      · exact h
  | secondRead clock cursor =>
      simp only [next]
      split
      · next request tailOffset hphase =>
          rw [PhaseInv, hphase] at hphaseInv
          obtain ⟨hresolved, htail, hoffset⟩ := hphaseInv
          exact inv_secondRead h hresolved htail hoffset hallowed fun closed => wake_carries ..
      · next request tailOffset hphase =>
          rw [PhaseInv, hphase] at hphaseInv
          obtain ⟨hresolved, htail, hoffset⟩ := hphaseInv
          refine inv_secondRead h hresolved htail hoffset hallowed fun closed => ⟨rfl, ?_⟩
          rw [(timeout_quiet_iff h hresolved htail hallowed).mp fun stream hlookup =>
            hquiet request tailOffset stream hphase hlookup]
          simp [timeoutResponse, build204Response]
      · exact h

/-- After a timeout the answers are correct exactly when nothing was appended since the first
read. -/
theorem timeout_correct_iff {clock : Clock} (cursor : String) {request : PollRequest}
    {tailOffset : Offset} (h : Inv limits name session)
    (hphase : session.phase = .timedOut request tailOffset)
    (hreadable : Readable name clock session) :
    (∀ delivered ∈ (next limits name (.secondRead clock cursor) session).2.answers,
      Correct (log name session.storage) delivered) ↔
    Quiet name (.secondRead clock cursor) session := by
  have hphaseInv := h.phase
  rw [PhaseInv, hphase] at hphaseInv
  obtain ⟨hresolved, htail, -⟩ := hphaseInv
  obtain ⟨hcount, closed, hread⟩ := read_eq h hreadable tailOffset
  have hnext : next limits name (.secondRead clock cursor) session =
      respond session (.ok (build204Response (Log.tail (log name session.storage))
        (closed && true) cursor)) := by
    simp only [next, hphase, secondRead, hread]
    rfl
  constructor
  · intro hcorrect other otherTail stream hother hlookup
    obtain ⟨-, rfl⟩ := Phase.timedOut.inj (hphase.symm.trans hother)
    refine (timeout_quiet_iff h hresolved htail hreadable).mpr ?_ stream hlookup
    have hnew := hcorrect ⟨build204Response (Log.tail (log name session.storage)) (closed && true)
      cursor, session.resolved⟩ (by simp [hnext, respond, Session.answers, build204Response])
    rw [Correct] at hnew
    have hposition : Log.position (log name session.storage) (Log.tail (log name session.storage)) =
        (log name session.storage).length := Log.position_offset_at (Nat.le_refl _) hcount
    simp only [build204Response, hposition, Log.segment_length] at hnew
    exact Nat.le_antisymm hresolved (List.drop_eq_nil_iff.mp hnew.symm)
  · intro hquiet delivered hdelivered
    have hinv : Inv limits name (next limits name (.secondRead clock cursor) session).2 :=
      inv_next ⟨hreadable, hquiet⟩ h
    have hplaced := hinv.placed delivered hdelivered
    have hstorage : (next limits name (.secondRead clock cursor) session).2.storage =
        session.storage := by rw [hnext]; rfl
    rw [hstorage] at hplaced
    exact hplaced.correct hcount

/-- A new session stands nowhere yet. -/
theorem inv_start {storage : InMemoryStorage} (h : Invariant limits storage)
    (hlookup : storage.streams.lookup name = some stream) (offset : Offset) :
    Inv limits name (.start storage offset) :=
  ⟨h, ⟨stream, hlookup⟩, by simp [Session.start, Session.answers], trivial,
    by simp [Standing, Session.start, Session.answers]⟩

end Preservation

/-- A long-poll client receives the log of the stream without a gap or a repeat, in every run in
which no timeout finds data appended since the first read; and a timeout that does is exactly the
step that breaks this. -/
theorem long_poll_never_skips_data (limits : Limits) (calls : List Call) (name : String)
    (offset : Offset) (initial : StreamEntry)
    (hlookup : (exec (step limits) calls .new).2.streams.lookup name = some initial)
    (events : List Event)
    (halong : Along (next limits name)
      (fun event session => Allowed name event session ∧ Quiet name event session) events
      (.start (exec (step limits) calls .new).2 offset)) :
    let session := (exec (next limits name) events
      (.start (exec (step limits) calls .new).2 offset)).2
    ∃ stream, session.storage.streams.lookup name = some stream ∧
      (stream.messages.length < 2 ^ 64 →
        (∀ delivered ∈ session.answers, Correct stream.payloads delivered) ∧
        (∀ first rest, session.answers = first :: rest →
          session.received = Log.segment stream.payloads first.resolved
            (Log.position stream.payloads session.offset)) ∧
        ∀ clock cursor request tailOffset, session.phase = .timedOut request tailOffset →
          Allowed name (.secondRead clock cursor) session →
          ((∀ delivered ∈ (next limits name (.secondRead clock cursor) session).2.answers,
            Correct stream.payloads delivered) ↔
          Quiet name (.secondRead clock cursor) session)) := by
  intro session
  have h : Inv limits name session :=
    exec_invariant (fun _ _ => inv_next) halong
      (inv_start (reachable_invariant limits calls) hlookup offset)
  obtain ⟨stream, hstream⟩ := h.stream
  refine ⟨stream, hstream, fun hcount => ?_⟩
  have hlength : stream.payloads.length < 2 ^ 64 := by
    rw [StreamEntry.payloads, List.length_map]
    exact hcount
  have hlog := log_eq hstream
  refine ⟨?_, ?_, ?_⟩
  · intro delivered hdelivered
    have hplaced := h.placed delivered hdelivered
    rw [hlog] at hplaced
    exact hplaced.correct hlength
  · intro first rest hfirst
    obtain ⟨last, hlast, -, hoffset, hreceived⟩ := h.standing first rest hfirst
    rw [hlog] at hlast hoffset hreceived
    rw [hoffset, Log.position_offset_at hlast hlength, hreceived]
  · intro clock cursor request tailOffset hphase hallowed
    have hiff := timeout_correct_iff cursor h hphase hallowed
    rwa [hlog] at hiff

/-- A poll from the start of a stream with one message delivers that message. The next one waits at
the tail, times out and finds nothing in its second read. -/
theorem poll_delivers_first_message :
    let limits : Limits := ⟨100, 100⟩
    let calls : List Call := [⟨.at 0, .createStream "s" .plain⟩,
      ⟨.at 0, .append "s" [65] "text/plain" (by decide)⟩]
    let events : List Event := [.poll "-1" none "text/plain", .subscribe (.at 0),
      .firstRead (.at 0) "0", .poll "1_1" none "text/plain", .subscribe (.at 0),
      .firstRead (.at 0) "0", .timeout, .secondRead (.at 0) "1"]
    let session := (exec (next limits "s") events
      (.start (exec (step limits) calls .new).2 .start)).2
    session.received = [[65]] ∧
      session.answers.map (·.response.status) = [.ok, .noContent] ∧
      ∃ stream, session.storage.streams.lookup "s" = some stream ∧
        ∀ delivered ∈ session.answers, Correct stream.payloads delivered := by
  intro limits calls events session
  have hlookup : (exec (step limits) calls .new).2.streams.lookup "s" =
      some ((StreamEntry.new 0 .plain).push [65]) := by decide
  have hreadable : ∀ stream, (exec (step limits) calls .new).2.streams.lookup "s" = some stream →
      isStreamExpired 0 stream.config = false ∧ stream.messages.length < 2 ^ 64 := by
    intro stream hstream
    obtain rfl := Option.some.inj (hlookup.symm.trans hstream)
    decide
  have hphase : (exec (next limits "s") (events.take 7)
      (.start (exec (step limits) calls .new).2 .start)).2.phase =
        .timedOut ⟨Offset.new 1 1, "1_1", none, "text/plain"⟩ (Offset.new 1 1) := by decide
  have hquiet : Quiet "s" (.secondRead (.at 0) "1") (exec (next limits "s") (events.take 7)
      (.start (exec (step limits) calls .new).2 .start)).2 := by
    intro request tailOffset stream htimedOut hstream
    obtain rfl := Option.some.inj (hlookup.symm.trans hstream)
    cases hphase.symm.trans htimedOut
    decide
  obtain ⟨stream, hstream, hcorrect⟩ :=
    long_poll_never_skips_data limits calls "s" .start _ hlookup events
      ⟨⟨trivial, trivial⟩, ⟨hreadable, trivial⟩, ⟨hreadable, trivial⟩, ⟨trivial, trivial⟩,
        ⟨hreadable, trivial⟩, ⟨hreadable, trivial⟩, ⟨trivial, trivial⟩, ⟨hreadable, hquiet⟩, trivial⟩
  exact ⟨by decide, by decide, stream, hstream, (hcorrect (hreadable stream hstream).2).1⟩

/-- A message appended while a poll waits, without a notification, is skipped by the timeout: the
204 names the offset behind the message but does not carry it. -/
theorem timeout_skips_message :
    let limits : Limits := ⟨100, 100⟩
    let calls : List Call := [⟨.at 0, .createStream "s" .plain⟩]
    let append : Call := ⟨.at 0, .append "s" [65] "text/plain" (by decide)⟩
    let events : List Event := [.poll "now" none "text/plain", .subscribe (.at 0),
      .firstRead (.at 0) "0", .other append, .timeout, .secondRead (.at 0) "134217729"]
    let start := Session.start (exec (step limits) calls .new).2 .now
    let session := (exec (next limits "s") events start).2
    Along (next limits "s") (Allowed "s") events start ∧
      ∃ delivered ∈ session.answers, delivered.response.status = .noContent ∧
        delivered.response.nextOffset = Offset.new 1 1 ∧
        ¬ Correct (log "s" session.storage) delivered := by
  intro limits calls append events start session
  have hcreated : start.storage.streams.lookup "s" = some (.new 0 .plain) := by decide
  have happended : session.storage.streams.lookup "s" =
      some ((StreamEntry.new 0 .plain).push [65]) := by decide
  have hreadable : Readable "s" (.at 0) start := by
    intro stream hstream
    obtain rfl := Option.some.inj (hcreated.symm.trans hstream)
    decide
  refine ⟨⟨trivial, hreadable, hreadable, ?_, trivial, ?_, trivial⟩, ?_⟩
  · intro stream hstream _
    obtain rfl := Option.some.inj (hcreated.symm.trans hstream)
    decide
  · intro stream hstream
    obtain rfl := Option.some.inj (happended.symm.trans hstream)
    decide
  · decide

end DurableStreams.LongPoll
