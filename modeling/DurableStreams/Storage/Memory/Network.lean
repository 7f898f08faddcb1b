import DurableStreams.Storage.Memory.Producers

/-!
# Producers over an unreliable network

Producers send requests tagged with an epoch and a sequence number, the network drops, duplicates
and reorders them, and the server hands each delivery to `append_with_producer` while other calls
run on the same storage. A `Session` is the storage together with the requests in flight and, as
ghost state, the history of what was appended to the stream in which order. `Session.Inv` ties the
producer table to that history; `exactly_once_over_the_network` reads the exactly-once guarantee
off it.
-/

namespace DurableStreams.Memory

open Lib

/-! ## Tags of accepted requests -/

/-- The tag, epoch and sequence number, may follow the last accepted tag. -/
def Follows : Option (Nat × Nat) → Nat × Nat → Prop
  | none, tag => tag.2 = 0
  | some last, tag => last.1 < tag.1 ∧ tag.2 = 0 ∨ last.1 = tag.1 ∧ tag.2 = last.2 + 1

/-- Lists of tags in which each tag may follow the one before. -/
inductive Sequenced : List (Nat × Nat) → Prop
  | nil : Sequenced []
  | snoc {tags : List (Nat × Nat)} {tag : Nat × Nat} (htags : Sequenced tags)
      (hnext : Follows tags.getLast? tag) : Sequenced (tags ++ [tag])

/-- The order in which a producer's tags are accepted: by epoch, then by sequence number. -/
def TagLt (first second : Nat × Nat) : Prop :=
  first.1 < second.1 ∨ first.1 = second.1 ∧ first.2 < second.2

namespace Sequenced

variable {tags : List (Nat × Nat)} {tag last : Nat × Nat}

/-- A tag that may follow is above all earlier ones and numbers its epoch on. -/
theorem next_spec (h : Sequenced tags) (hnext : Follows tags.getLast? tag) :
    (∀ other ∈ tags, TagLt other tag) ∧ tags.countP (fun other => other.1 = tag.1) = tag.2 := by
  induction h generalizing tag with
  | nil => exact ⟨by simp, hnext.symm⟩
  | @snoc tags last htags hlast ih =>
      obtain ⟨hbelow, hcount⟩ := ih hlast
      rw [List.getLast?_concat] at hnext
      have hle : ∀ other ∈ tags ++ [last], other.1 ≤ last.1 ∧ TagLt other tag := by
        intro other hother
        rcases List.mem_append.mp hother with hold | hnew
        · have hlt := hbelow other hold
          unfold TagLt at hlt ⊢
          rcases hnext with ⟨hepoch, hseq⟩ | ⟨hepoch, hseq⟩ <;> omega
        · obtain rfl := List.mem_singleton.mp hnew
          unfold TagLt
          rcases hnext with ⟨hepoch, hseq⟩ | ⟨hepoch, hseq⟩ <;> omega
      refine ⟨fun other hother => (hle other hother).2, ?_⟩
      rcases hnext with ⟨hepoch, hseq⟩ | ⟨hepoch, hseq⟩
      · -- A new epoch is above every epoch so far.
        rw [hseq, List.countP_eq_zero]
        intro other hother
        have := (hle other hother).1
        simp only [decide_eq_true_eq]
        omega
      · rw [List.countP_append, List.countP_singleton, ← hepoch, hcount, if_pos (by simp), hseq]

/-- The last tag is the greatest. -/
theorem last_spec (h : Sequenced tags) (hlast : tags.getLast? = some last) :
    ∀ tag ∈ tags, tag = last ∨ TagLt tag last := by
  cases h with
  | nil => simp at hlast
  | @snoc tags tag htags hnext =>
      rw [List.getLast?_concat, Option.some.injEq] at hlast
      subst hlast
      intro other hother
      rcases List.mem_append.mp hother with hold | hnew
      · exact .inr ((htags.next_spec hnext).1 other hold)
      · exact .inl (List.mem_singleton.mp hnew)

/-- Tags are accepted in strictly increasing order. -/
theorem increasing (h : Sequenced tags) : tags.Pairwise TagLt := by
  induction h with
  | nil => exact .nil
  | snoc htags hnext ih =>
      refine List.pairwise_append.mpr ⟨ih, List.pairwise_singleton _ _, ?_⟩
      intro other hother tag htag
      obtain rfl := List.mem_singleton.mp htag
      exact (htags.next_spec hnext).1 other hother

/-- Within an epoch the sequence numbers count up from zero without a gap or a repeat. -/
theorem contiguous (h : Sequenced tags) (epoch : Nat) :
    (tags.filter fun tag => tag.1 = epoch).map Prod.snd =
      List.range (tags.countP fun tag => tag.1 = epoch) := by
  induction h with
  | nil => rfl
  | @snoc tags tag htags hnext ih =>
      rw [List.filter_append, List.map_append, ih, List.countP_append, List.countP_singleton]
      by_cases hepoch : tag.1 = epoch
      · subst hepoch
        simp [List.range_succ, (htags.next_spec hnext).2]
      · simp [hepoch]

end Sequenced

/-! ## Sessions -/

/-- What is fixed for a session: the limits, the stream, and the batch that every request of a
producer, epoch and sequence number carries. -/
structure Setting where
  limits : Limits
  name : String
  batch : ProducerHeaders → List Bytes
  fits : ∀ headers, payloadBytes (batch headers) < 2 ^ 64

/-- A request in flight. Requests with the same tag carry the same batch but may differ in
everything else. -/
structure Request where
  headers : ProducerHeaders
  contentType : String
  shouldClose : Bool
  seq : Option String
  deriving DecidableEq

/-- A piece of the stream's log: the messages of one append, with the tag of the producer request
that appended them. -/
structure Chunk where
  source : Option ProducerHeaders
  messages : List Bytes

/-- When a producer's last request was accepted, and the latest clock reading since. -/
structure Horizon where
  accepted : Timestamp
  latest : Timestamp
  deriving DecidableEq

/-- The storage, the requests in flight, and the ghost history of the stream. -/
structure Session where
  storage : InMemoryStorage
  inFlight : List Request
  history : List Chunk
  horizon : String → Option Horizon

/-- A session starts on a stream that already holds some messages. -/
def Session.start (storage : InMemoryStorage) (stream : StreamEntry) : Session :=
  ⟨storage, [], [⟨none, stream.payloads⟩], fun _ => none⟩

/-- What can happen next: the network takes a request, loses one, copies one or delivers one, or
some other call runs on the storage. -/
inductive Event where
  | send (request : Request)
  | drop (request : Request)
  | duplicate (request : Request)
  | deliver (clock : Clock) (request : Request)
  | other (call : Call)

/-- The tags of a producer's accepted requests, in the order of acceptance. -/
def tags (id : String) (history : List Chunk) : List (Nat × Nat) :=
  history.filterMap fun chunk =>
    chunk.source.bind fun headers =>
      if headers.id = id then some (headers.epoch, headers.seq) else none

/-- Extend the history if the reply reports an append. -/
def record (chunk : Chunk) (reply : Reply) (history : List Chunk) : List Chunk :=
  if reply.appended then history ++ [chunk] else history

/-- Take note of a clock reading for every producer. -/
def observe (now : Timestamp) (horizon : String → Option Horizon) : String → Option Horizon :=
  fun id => (horizon id).map fun seen => { seen with latest := max seen.latest now }

/-- Take note of a delivery: the clock reading, and the acceptance if there was one. -/
def noteDelivery (clock : Clock) (id : String) (reply : Reply)
    (horizon : String → Option Horizon) : String → Option Horizon :=
  if reply.appended then
    Function.update (observe clock.cleanup horizon) id (some ⟨clock.stamp, clock.stamp⟩)
  else observe clock.cleanup horizon

namespace Setting

variable (setting : Setting)

/-- The call the server makes for a delivered request. -/
def delivery (clock : Clock) (request : Request) : Call :=
  ⟨clock, .appendWithProducer setting.name (setting.batch request.headers) request.contentType
    request.headers request.shouldClose request.seq (setting.fits request.headers)⟩

/-- One event of a session, with the reply of the storage if it was called. -/
def next : Event → Session → Option Reply × Session
  | .send request, session => (none, { session with inFlight := request :: session.inFlight })
  | .drop request, session => (none, { session with inFlight := session.inFlight.erase request })
  | .duplicate request, session => (none, { session with inFlight := request :: session.inFlight })
  | .deliver clock request, session =>
      let (reply, storage) := step setting.limits (setting.delivery clock request) session.storage
      (some reply,
        { storage
          inFlight := session.inFlight.erase request
          history := record ⟨some request.headers, setting.batch request.headers⟩ reply
            session.history
          horizon := noteDelivery clock request.headers.id reply session.horizon })
  | .other call, session =>
      let (reply, storage) := step setting.limits call session.storage
      (some reply,
        { session with
          storage
          history := if call.op.name = setting.name then
            record ⟨none, call.op.messages⟩ reply session.history else session.history })

/-- The clock has not got the producer TTL past the last accepted append of any producer that has
requests in flight. -/
def Timely (clock : Clock) (session : Session) : Prop :=
  ∀ request ∈ session.inFlight, ∀ seen,
    observe clock.cleanup session.horizon request.headers.id = some seen →
    staleCutoff seen.latest < seen.accepted

/-- Which events may happen. The network delivers, loses and copies only what is in flight. The
stream is not deleted and not found expired, and producer appends to it come from the network. -/
def Allowed : Event → Session → Prop
  | .send _, _ => True
  | .drop request, session | .duplicate request, session => request ∈ session.inFlight
  | .deliver clock request, session =>
      request ∈ session.inFlight ∧ Timely clock session ∧
        ∀ stream, session.storage.streams.lookup setting.name = some stream →
          isStreamExpired clock.expiry stream.config = false
  | .other call, session =>
      (call.op.name = setting.name → call.op.isProducerAppend = false) ∧
        ∀ stream, session.storage.streams.lookup setting.name = some stream →
          Spares setting.name stream.config call

end Setting

/-! ## The invariant -/

/-- The producer table knows a producer's last accepted tag, unless the producer has been away for
longer than the TTL. -/
def Tracked (producers : HashMap ProducerState) (horizon : String → Option Horizon)
    (tags : List (Nat × Nat)) (id : String) : Prop :=
  match tags.getLast? with
  | none => producers.lookup id = none
  | some (epoch, seq) =>
      ∃ seen, horizon id = some seen ∧ (staleCutoff seen.latest < seen.accepted →
        producers.lookup id = some ⟨epoch, seq, seen.accepted⟩)

/-- The invariant of a session. -/
structure Setting.Inv (setting : Setting) (session : Session) : Prop where
  storage : Invariant setting.limits session.storage
  sequenced : ∀ id, Sequenced (tags id session.history)
  sources : ∀ chunk ∈ session.history, ∀ headers, chunk.source = some headers →
    chunk.messages = setting.batch headers
  stream : ∃ stream, session.storage.streams.lookup setting.name = some stream ∧
    stream.payloads = (session.history.map Chunk.messages).flatten ∧
    ∀ id, Tracked stream.producers session.horizon (tags id session.history) id

section Tracking

variable {producers : HashMap ProducerState} {horizon : String → Option Horizon}
  {accepted : List (Nat × Nat)} {id : String}

/-- The cutoff for the later of two instants is the later cutoff. -/
theorem stale_cutoff_max {first second instant : Timestamp} :
    staleCutoff (max first second) < instant ↔
      staleCutoff first < instant ∧ staleCutoff second < instant := by
  rcases Int.le_total first second with hle | hle
  · rw [max_eq_right hle]
    exact ⟨fun h => ⟨Int.lt_of_le_of_lt (stale_cutoff_mono hle) h, h⟩, And.right⟩
  · rw [max_eq_left hle]
    exact ⟨fun h => ⟨h, Int.lt_of_le_of_lt (stale_cutoff_mono hle) h⟩, And.left⟩

/-- Dropping stale records keeps track of everyone who is not late. -/
theorem Tracked.cleanup (h : Tracked producers horizon accepted id) (now : Timestamp) :
    Tracked (cleanupStaleProducers now producers) (observe now horizon) accepted id := by
  unfold Tracked at h ⊢
  cases hlast : accepted.getLast? with
  | none =>
      rw [hlast] at h
      dsimp only at h ⊢
      rw [lookup_cleanup, h, Option.filter_none]
  | some last =>
      rw [hlast] at h
      obtain ⟨seen, hseen, hlookup⟩ := h
      refine ⟨{ seen with latest := max seen.latest now }, by simp [observe, hseen], fun hlate => ?_⟩
      obtain ⟨hbefore, hnow⟩ := stale_cutoff_max.mp hlate
      rw [lookup_cleanup, hlookup hbefore, Option.filter_some, if_pos (decide_eq_true hnow)]

/-- For a producer that is not late, the request the table expects next may follow the last
accepted tag. -/
theorem Tracked.follows {headers : ProducerHeaders}
    (h : Tracked producers horizon accepted headers.id)
    (htimely : ∀ seen, horizon headers.id = some seen → staleCutoff seen.latest < seen.accepted)
    (hnext : NextRequest (producers.lookup headers.id) headers) :
    Follows accepted.getLast? (headers.epoch, headers.seq) := by
  unfold Tracked at h
  cases hlast : accepted.getLast? with
  | none =>
      rw [hlast] at h
      rwa [h] at hnext
  | some last =>
      rw [hlast] at h
      obtain ⟨seen, hseen, hlookup⟩ := h
      rwa [hlookup (htimely seen hseen)] at hnext

/-- The tags of a history with one more chunk. -/
theorem tags_record (id : String) (headers : ProducerHeaders) (messages : List Bytes) (reply : Reply)
    (history : List Chunk) :
    tags id (record ⟨some headers, messages⟩ reply history) =
      tags id history ++
        if reply.appended = true ∧ headers.id = id then [(headers.epoch, headers.seq)] else [] := by
  unfold record
  by_cases hreply : reply.appended = true <;> by_cases hid : headers.id = id <;>
    simp [hreply, hid, tags]

/-- A chunk without a producer has no tag. -/
theorem tags_record_none (id : String) (messages : List Bytes) (reply : Reply)
    (history : List Chunk) : tags id (record ⟨none, messages⟩ reply history) = tags id history := by
  unfold record
  split <;> simp [tags]

/-- The log described by a history with one more chunk. -/
theorem flatten_record (chunk : Chunk) (reply : Reply) (history : List Chunk) :
    ((record chunk reply history).map Chunk.messages).flatten =
      (history.map Chunk.messages).flatten ++ if reply.appended then chunk.messages else [] := by
  unfold record
  split <;> simp

end Tracking

namespace Setting

variable {setting : Setting} {session : Session} {stream : StreamEntry}

/-- What a delivery does to the stream. -/
theorem delivery_spec {clock : Clock} (request : Request)
    (h : Invariant setting.limits session.storage)
    (hlookup : session.storage.streams.lookup setting.name = some stream)
    (hlive : isStreamExpired clock.expiry stream.config = false) :
    let outcome := step setting.limits (setting.delivery clock request) session.storage
    ∃ after, outcome.2.streams.lookup setting.name = some after ∧
      after.payloads = stream.payloads ++
        (if outcome.1.appended then setting.batch request.headers else []) ∧
      ProducerEffect clock request.headers request.shouldClose stream outcome.1 after := by
  have hspares : Spares setting.name stream.config (setting.delivery clock request) :=
    fun _ => ⟨nofun, hlive⟩
  have hname : (setting.delivery clock request).op.name = setting.name := rfl
  obtain ⟨after, hafter, -, hpayloads⟩ := step_spares h hlookup hspares
  rw [if_pos hname] at hpayloads
  refine ⟨after, hafter, hpayloads, ?_⟩
  have hstep : step setting.limits (setting.delivery clock request) session.storage = _ :=
    step_on_stream setting.limits rfl hlookup
  rw [hstep] at hafter ⊢
  obtain rfl := Option.some.inj ((Finmap.lookup_insert _).symm.trans hafter)
  exact (producer_plan_effect hlive).run setting.limits session.storage.totalBytes

/-- After a delivery the table tracks every producer again. -/
theorem delivery_tracked {clock : Clock} {request : Request} {reply : Reply} {after : StreamEntry}
    (h : ∀ id, Tracked stream.producers session.horizon (tags id session.history) id)
    (heffect : ProducerEffect clock request.headers request.shouldClose stream reply after)
    (id : String) :
    Tracked after.producers (noteDelivery clock request.headers.id reply session.horizon)
      (tags id (record ⟨some request.headers, setting.batch request.headers⟩ reply
        session.history)) id := by
  rw [tags_record]
  cases heffect with
  | accepted hreply _ _ hproducers _ =>
      simp only [noteDelivery, hreply, true_and, ↓reduceIte, hproducers]
      by_cases hid : request.headers.id = id
      · subst hid
        rw [if_pos rfl, Tracked, List.getLast?_concat]
        exact ⟨⟨clock.stamp, clock.stamp⟩, Function.update_self .., fun _ => Finmap.lookup_insert _⟩
      · have hcleanup := (h id).cleanup clock.cleanup
        rw [if_neg hid, List.append_nil]
        unfold Tracked at hcleanup ⊢
        rwa [FiniteMap.lookup_insert_ite, if_neg (Ne.symm hid),
          Function.update_of_ne (Ne.symm hid)]
  | refused hreply hproducers _ =>
      simp only [noteDelivery, hreply, Bool.false_eq_true, false_and, ↓reduceIte, List.append_nil,
        hproducers]
      exact (h id).cleanup clock.cleanup

/-- Only a tag that may follow is accepted from a producer that is not late. -/
theorem delivery_follows {clock : Clock} {request : Request} {reply : Reply} {after : StreamEntry}
    (h : Tracked stream.producers session.horizon (tags request.headers.id session.history)
      request.headers.id)
    (hflight : request ∈ session.inFlight) (htimely : Timely clock session)
    (heffect : ProducerEffect clock request.headers request.shouldClose stream reply after)
    (hreply : reply.appended = true) :
    Follows (tags request.headers.id session.history).getLast?
      (request.headers.epoch, request.headers.seq) := by
  cases heffect with
  | accepted _ _ hnext _ _ => exact (h.cleanup clock.cleanup).follows (htimely request hflight) hnext
  | refused hrefused _ _ => simp [hrefused] at hreply

/-- A delivery keeps the invariant. -/
theorem inv_deliver {clock : Clock} {request : Request} (h : setting.Inv session)
    (hallowed : setting.Allowed (.deliver clock request) session) :
    setting.Inv (setting.next (.deliver clock request) session).2 := by
  obtain ⟨stream, hlookup, hpayloads, htracked⟩ := h.stream
  obtain ⟨hflight, htimely, hlive⟩ := hallowed
  obtain ⟨after, hafter, hgrown, heffect⟩ :=
    delivery_spec request h.storage hlookup (hlive stream hlookup)
  have hstorage := step_invariant (setting.delivery clock request) h.storage
  simp only [next]
  generalize step setting.limits (setting.delivery clock request) session.storage = outcome
    at hafter hgrown heffect hstorage ⊢
  obtain ⟨reply, storage⟩ := outcome
  refine ⟨hstorage, ?_, ?_, after, hafter, ?_, delivery_tracked htracked heffect⟩
  · intro id
    dsimp only
    rw [tags_record]
    split
    · next hnew =>
        obtain ⟨hreply, rfl⟩ := hnew
        exact (h.sequenced _).snoc (delivery_follows (htracked _) hflight htimely heffect hreply)
    · rw [List.append_nil]
      exact h.sequenced id
  · intro chunk hchunk headers hsource
    simp only [record] at hchunk
    split at hchunk
    · rcases List.mem_append.mp hchunk with hold | hnew
      · exact h.sources chunk hold headers hsource
      · obtain rfl := List.mem_singleton.mp hnew
        cases hsource
        rfl
    · exact h.sources chunk hchunk headers hsource
  · rw [hgrown, flatten_record, hpayloads]

/-- What any other call does to the stream. -/
theorem other_spec {call : Call} (h : Invariant setting.limits session.storage)
    (hlookup : session.storage.streams.lookup setting.name = some stream)
    (hallowed : setting.Allowed (.other call) session) :
    let outcome := step setting.limits call session.storage
    ∃ after, outcome.2.streams.lookup setting.name = some after ∧
      after.payloads = stream.payloads ++
        (if call.op.name = setting.name then call.added outcome.1 else []) ∧
      after.producers = stream.producers ∧
      (stream.closed = true → after.closed = true ∧
        (call.op.name = setting.name → outcome.1.appended = false)) := by
  obtain ⟨hop, hspares⟩ := hallowed
  have hspares := hspares stream hlookup
  obtain ⟨after, hafter, -, hpayloads⟩ := step_spares h hlookup hspares
  refine ⟨after, hafter, hpayloads, ?_⟩
  obtain ⟨hname, -, hreply, hplanned⟩ | ⟨hquiet, hsame⟩ :=
    step_lookup setting.limits hlookup hspares.keeps
  · have hkeeps := (plan_keeps_producers stream (hop hname)).run setting.limits
      session.storage.totalBytes
    obtain rfl := Option.some.inj (hafter.symm.trans hplanned)
    exact ⟨hkeeps.1, fun hclosed => ⟨(hkeeps.2 hclosed).2, fun _ => hreply ▸ (hkeeps.2 hclosed).1⟩⟩
  · obtain rfl := Option.some.inj (hafter.symm.trans hsame)
    exact ⟨rfl, fun hclosed => ⟨hclosed, hquiet⟩⟩

/-- Any other call keeps the invariant. -/
theorem inv_other {call : Call} (h : setting.Inv session)
    (hallowed : setting.Allowed (.other call) session) :
    setting.Inv (setting.next (.other call) session).2 := by
  obtain ⟨stream, hlookup, hpayloads, htracked⟩ := h.stream
  obtain ⟨after, hafter, hgrown, hproducers, -⟩ := other_spec h.storage hlookup hallowed
  have hstorage := step_invariant call h.storage
  simp only [next]
  generalize step setting.limits call session.storage = outcome at hafter hgrown hstorage ⊢
  obtain ⟨reply, storage⟩ := outcome
  have htags (id : String) :
      tags id (if call.op.name = setting.name then
        record ⟨none, call.op.messages⟩ reply session.history else session.history) =
        tags id session.history := by
    split
    · exact tags_record_none ..
    · rfl
  refine ⟨hstorage, fun id => htags id ▸ h.sequenced id, ?_, after, hafter, ?_, ?_⟩
  · intro chunk hchunk headers hsource
    simp only [record] at hchunk
    split_ifs at hchunk
    · rcases List.mem_append.mp hchunk with hold | hnew
      · exact h.sources chunk hold headers hsource
      · obtain rfl := List.mem_singleton.mp hnew
        cases hsource
    · exact h.sources chunk hchunk headers hsource
    · exact h.sources chunk hchunk headers hsource
  · rw [hgrown, hpayloads]
    dsimp only
    split
    · rw [flatten_record, Call.added]
    · rw [List.append_nil]
  · intro id
    dsimp only
    rw [htags, hproducers]
    exact htracked id

/-- Every event keeps the invariant. -/
theorem inv_next {event : Event} (hallowed : setting.Allowed event session)
    (h : setting.Inv session) : setting.Inv (setting.next event session).2 := by
  cases event with
  | deliver clock request => exact inv_deliver h hallowed
  | other call => exact inv_other h hallowed
  | send | drop | duplicate => exact ⟨h.storage, h.sequenced, h.sources, h.stream⟩

/-- A session on a stream that no producer has used yet starts in the invariant. -/
theorem inv_start {storage : InMemoryStorage} (h : Invariant setting.limits storage)
    (hlookup : storage.streams.lookup setting.name = some stream)
    (hnew : stream.producers = ∅) : setting.Inv (.start storage stream) := by
  refine ⟨h, fun _ => .nil, ?_, stream, hlookup, by simp [Session.start], ?_⟩
  · intro chunk hchunk headers hsource
    obtain rfl := List.mem_singleton.mp hchunk
    cases hsource
  · intro id
    change stream.producers.lookup id = none
    rw [hnew, Finmap.lookup_empty]

/-- A closed stream: no event appends to it or opens it again. -/
theorem closed_next {event : Event} (hallowed : setting.Allowed event session)
    (h : setting.Inv session) (hlookup : session.storage.streams.lookup setting.name = some stream)
    (hclosed : stream.closed = true) :
    (setting.next event session).2.history = session.history ∧
      ∃ after, (setting.next event session).2.storage.streams.lookup setting.name = some after ∧
        after.closed = true ∧ after.payloads = stream.payloads := by
  cases event with
  | send | drop | duplicate => exact ⟨rfl, stream, hlookup, hclosed, rfl⟩
  | deliver clock request =>
      obtain ⟨-, -, hlive⟩ := hallowed
      obtain ⟨after, hafter, hgrown, heffect⟩ :=
        delivery_spec request h.storage hlookup (hlive stream hlookup)
      simp only [next]
      generalize step setting.limits (setting.delivery clock request) session.storage = outcome
        at hafter hgrown heffect ⊢
      cases heffect with
      | accepted _ hopen => simp [hclosed] at hopen
      | refused hreply _ hsame =>
          simp only [record, hreply, Bool.false_eq_true, ↓reduceIte, List.append_nil] at hgrown ⊢
          exact ⟨trivial, after, hafter, hsame.trans hclosed, hgrown⟩
  | other call =>
      obtain ⟨after, hafter, hgrown, -, hkeeps⟩ := other_spec h.storage hlookup hallowed
      simp only [next]
      generalize step setting.limits call session.storage = outcome at hafter hgrown hkeeps ⊢
      obtain ⟨hafterClosed, hquiet⟩ := hkeeps hclosed
      by_cases hname : call.op.name = setting.name
      · simp only [hname, ↓reduceIte, Call.added, record, hquiet hname, Bool.false_eq_true,
          List.append_nil] at hgrown ⊢
        exact ⟨trivial, after, hafter, hafterClosed, hgrown⟩
      · simp only [hname, ↓reduceIte, List.append_nil] at hgrown ⊢
        exact ⟨trivial, after, hafter, hafterClosed, hgrown⟩

/-- Once the stream is closed, the history and the log stay as they are for good. -/
theorem closed_exec {events : List Event}
    (halong : Along setting.next setting.Allowed events session) (h : setting.Inv session)
    (hlookup : session.storage.streams.lookup setting.name = some stream)
    (hclosed : stream.closed = true) :
    (exec setting.next events session).2.history = session.history ∧
      ∃ after, (exec setting.next events session).2.storage.streams.lookup setting.name =
        some after ∧ after.payloads = stream.payloads := by
  induction events generalizing session stream with
  | nil => exact ⟨rfl, stream, hlookup, rfl⟩
  | cons event events ih =>
      obtain ⟨hhistory, next, hnext, hnextClosed, hpayloads⟩ :=
        closed_next halong.1 h hlookup hclosed
      obtain ⟨hhistory', after, hafter, hpayloads'⟩ :=
        ih halong.2 (inv_next halong.1 h) hnext hnextClosed
      exact ⟨hhistory'.trans hhistory, after, hafter, hpayloads'.trans hpayloads⟩

/-- A delivery whose tag was accepted before is recognised: it is a duplicate of its producer's
current epoch, or it comes from an epoch that has been fenced off. -/
theorem retry_reply {clock : Clock} {request : Request} (h : setting.Inv session)
    (hlookup : session.storage.streams.lookup setting.name = some stream)
    (hallowed : setting.Allowed (.deliver clock request) session)
    (htype : setting.batch request.headers ≠ [] →
      eqIgnoreAsciiCase request.contentType stream.config.contentType = true)
    (hold : (request.headers.epoch, request.headers.seq) ∈
      tags request.headers.id session.history) :
    ∃ epoch seq, (tags request.headers.id session.history).getLast? = some (epoch, seq) ∧
      (setting.next (.deliver clock request) session).1 =
        some (.producer (if request.headers.epoch = epoch then
          .ok (.duplicate epoch seq stream.nextOffset stream.closed)
          else .error (.epochFenced epoch request.headers.epoch))) := by
  obtain ⟨found, hfound, -, htracked⟩ := h.stream
  obtain rfl : stream = found := Option.some.inj (hlookup.symm.trans hfound)
  obtain ⟨hflight, htimely, hlive⟩ := hallowed
  have hlive := hlive stream hlookup
  have htracked := (htracked request.headers.id).cleanup clock.cleanup
  cases hlast : (tags request.headers.id session.history).getLast? with
  | none =>
      rw [List.getLast?_eq_none_iff] at hlast
      simp [hlast] at hold
  | some last =>
      obtain ⟨epoch, seq⟩ := last
      refine ⟨epoch, seq, rfl, ?_⟩
      rw [Tracked, hlast] at htracked
      obtain ⟨seen, hseen, hrecord⟩ := htracked
      have hrecord := hrecord (htimely request hflight seen hseen)
      have hstep : step setting.limits (setting.delivery clock request) session.storage = _ :=
        step_on_stream setting.limits rfl hlookup
      have hplan : plan (setting.delivery clock request) stream =
          producerPlan clock (setting.batch request.headers) request.contentType request.headers
            request.shouldClose request.seq stream := rfl
      simp only [next, hstep, hplan]
      have hbelow := (h.sequenced request.headers.id).last_spec hlast _ hold
      by_cases hepoch : request.headers.epoch = epoch
      · have hseq : request.headers.seq ≤ seq := by
          unfold TagLt at hbelow
          simp only [Prod.mk.injEq] at hbelow
          omega
        rw [producer_plan_duplicate hlive htype hrecord hepoch hseq, if_pos hepoch]
        rfl
      · have hfenced : request.headers.epoch < epoch := by
          unfold TagLt at hbelow
          simp only [Prod.mk.injEq] at hbelow
          omega
        have hcheck : checkProducer
            ((cleanupStaleProducers clock.cleanup stream.producers).lookup request.headers.id)
            request.headers stream.closed =
              .error (.epochFenced epoch request.headers.epoch) := by
          rw [hrecord, checkProducer, if_pos hfenced]
        rw [producer_plan_error hlive htype hcheck, if_neg hepoch]
        rfl

/-- A delivery that is not accepted leaves the history and the log alone. -/
theorem refused_delivery {clock : Clock} {request : Request} (h : setting.Inv session)
    (hlookup : session.storage.streams.lookup setting.name = some stream)
    (hallowed : setting.Allowed (.deliver clock request) session) {reply : Reply}
    (hreply : (setting.next (.deliver clock request) session).1 = some reply)
    (hrefused : reply.appended = false) :
    (setting.next (.deliver clock request) session).2.history = session.history ∧
      ∃ after, (setting.next (.deliver clock request) session).2.storage.streams.lookup
        setting.name = some after ∧ after.payloads = stream.payloads := by
  obtain ⟨-, -, hlive⟩ := hallowed
  obtain ⟨after, hafter, hgrown, -⟩ :=
    delivery_spec request h.storage hlookup (hlive stream hlookup)
  simp only [next, Option.some.injEq] at hreply ⊢
  simp only [hreply, record, hrefused, Bool.false_eq_true, ↓reduceIte, List.append_nil] at hgrown ⊢
  exact ⟨trivial, after, hafter, hgrown⟩

/-- An accepted request leaves the stream closed exactly when it asks for that. -/
theorem accepted_delivery {clock : Clock} {request : Request} (h : setting.Inv session)
    (hlookup : session.storage.streams.lookup setting.name = some stream)
    (hallowed : setting.Allowed (.deliver clock request) session) {reply : Reply}
    (hreply : (setting.next (.deliver clock request) session).1 = some reply)
    (haccepted : reply.appended = true) :
    ∃ after, (setting.next (.deliver clock request) session).2.storage.streams.lookup
      setting.name = some after ∧ after.closed = request.shouldClose := by
  obtain ⟨-, -, hlive⟩ := hallowed
  obtain ⟨after, hafter, -, heffect⟩ :=
    delivery_spec request h.storage hlookup (hlive stream hlookup)
  simp only [next, Option.some.injEq] at hreply ⊢
  rw [hreply] at heffect
  cases heffect with
  | accepted _ _ _ _ hclosed => exact ⟨after, hafter, hclosed⟩
  | refused hrefused _ _ => simp [hrefused] at haccepted

/-- Exactly-once appends over an unreliable network. -/
theorem exactly_once_over_the_network (setting : Setting) (calls : List Call) (initial : StreamEntry)
    (hlookup : (exec (step setting.limits) calls .new).2.streams.lookup setting.name = some initial)
    (hnew : initial.producers = ∅) (events : List Event)
    (halong : Along setting.next setting.Allowed events
      (.start (exec (step setting.limits) calls .new).2 initial)) :
    let session := (exec setting.next events
      (.start (exec (step setting.limits) calls .new).2 initial)).2
    -- Each producer's accepted tags increase, and count every epoch up from zero.
    (∀ id, (tags id session.history).Pairwise TagLt ∧
      ∀ epoch, ((tags id session.history).filter fun tag => tag.1 = epoch).map Prod.snd =
        List.range ((tags id session.history).countP fun tag => tag.1 = epoch)) ∧
    -- The log is made of the accepted batches and the other appends, one after the other.
    (∀ chunk ∈ session.history, ∀ headers, chunk.source = some headers →
      chunk.messages = setting.batch headers) ∧
    ∃ stream, session.storage.streams.lookup setting.name = some stream ∧
      stream.payloads = (session.history.map Chunk.messages).flatten ∧
      -- A delivery that is not accepted changes nothing in the log.
      (∀ clock request reply, setting.Allowed (.deliver clock request) session →
        (setting.next (.deliver clock request) session).1 = some reply → reply.appended = false →
        (setting.next (.deliver clock request) session).2.history = session.history ∧
          ∃ after, (setting.next (.deliver clock request) session).2.storage.streams.lookup
            setting.name = some after ∧ after.payloads = stream.payloads) ∧
      -- An accepted request closes the stream exactly when it asks for that.
      (∀ clock request reply, setting.Allowed (.deliver clock request) session →
        (setting.next (.deliver clock request) session).1 = some reply → reply.appended = true →
        ∃ after, (setting.next (.deliver clock request) session).2.storage.streams.lookup
          setting.name = some after ∧ after.closed = request.shouldClose) ∧
      -- Once an append has been accepted, every further delivery of it is recognised.
      (∀ clock request, setting.Allowed (.deliver clock request) session →
        (setting.batch request.headers ≠ [] →
          eqIgnoreAsciiCase request.contentType stream.config.contentType = true) →
        (request.headers.epoch, request.headers.seq) ∈
          tags request.headers.id session.history →
        ∃ epoch seq, (tags request.headers.id session.history).getLast? = some (epoch, seq) ∧
          (setting.next (.deliver clock request) session).1 =
            some (.producer (if request.headers.epoch = epoch then
              .ok (.duplicate epoch seq stream.nextOffset stream.closed)
              else .error (.epochFenced epoch request.headers.epoch)))) ∧
      -- Once an append has closed the stream, nothing is appended any more.
      (stream.closed = true → ∀ later, Along setting.next setting.Allowed later session →
        (exec setting.next later session).2.history = session.history ∧
          ∃ after, (exec setting.next later session).2.storage.streams.lookup setting.name =
            some after ∧ after.payloads = stream.payloads) := by
  intro session
  have h : setting.Inv session :=
    exec_invariant (fun _ _ => inv_next) halong
      (inv_start (reachable_invariant setting.limits calls) hlookup hnew)
  obtain ⟨stream, hstream, hpayloads, -⟩ := h.stream
  refine ⟨fun id => ⟨(h.sequenced id).increasing, (h.sequenced id).contiguous⟩, h.sources,
    stream, hstream, hpayloads, ?_, ?_, ?_, ?_⟩
  · intro clock request reply hallowed hreply hrefused
    exact refused_delivery h hstream hallowed hreply hrefused
  · intro clock request reply hallowed hreply haccepted
    exact accepted_delivery h hstream hallowed hreply haccepted
  · intro clock request hallowed htype hold
    exact retry_reply h hstream hallowed htype hold
  · intro hclosed later hlater
    exact closed_exec hlater h hstream hclosed

/-- A request that the network delivers twice is stored once. -/
theorem duplicated_request_stored_once :
    let setting : Setting := ⟨⟨100, 100⟩, "s", fun _ => [[65]], fun _ => by decide⟩
    let calls : List Call := [⟨.at 0, .createStream "s" .plain⟩]
    let request : Request := ⟨⟨"p", 0, 0⟩, "text/plain", false, none⟩
    let events : List Event := [.send request, .duplicate request, .deliver (.at 0) request,
      .deliver (.at 0) request]
    let session := (exec setting.next events
      (.start (exec (step setting.limits) calls .new).2 (.new 0 .plain))).2
    tags "p" session.history = [(0, 0)] ∧ (tags "p" session.history).Pairwise TagLt := by
  intro setting calls request events session
  have hlookup : (exec (step setting.limits) calls .new).2.streams.lookup "s" =
      some (.new 0 .plain) := by decide
  let delivered := (exec setting.next (events.take 3)
    (.start (exec (step setting.limits) calls .new).2 (.new 0 .plain))).2
  have hdelivered : delivered.storage.streams.lookup "s" =
      some (((StreamEntry.new 0 .plain).store [[65]]).accept (.at 0) request.headers false none) := by
    decide
  have hhorizon : observe 0 delivered.horizon "p" = some ⟨0, 0⟩ := by decide
  have halong : Along setting.next setting.Allowed events
      (.start (exec (step setting.limits) calls .new).2 (.new 0 .plain)) := by
    refine ⟨trivial, List.mem_singleton_self _, ⟨List.mem_cons_self, nofun, ?_⟩,
      ⟨List.mem_singleton_self _, ?_, ?_⟩, trivial⟩
    · intro stream hstream
      obtain rfl := Option.some.inj (hlookup.symm.trans hstream)
      rfl
    · intro other hother seen hseen
      obtain rfl := List.mem_singleton.mp hother
      obtain rfl := Option.some.inj (hhorizon.symm.trans hseen)
      decide
    · intro stream hstream
      obtain rfl := Option.some.inj (hdelivered.symm.trans hstream)
      rfl
  exact ⟨by decide, ((exactly_once_over_the_network setting calls (.new 0 .plain) hlookup rfl events
    halong).1 "p").1⟩

end Setting

end DurableStreams.Memory
