import DurableStreams.Storage.Memory.Operations

/-!
# What an operation does under a stream lock

Every operation on an existing stream first looks at the entry and then either finishes, touching
the entry but not its log, or reserves bytes for a batch and commits it. `plan` is that decision,
and `step_of_stream_op` says that running the plan is running the operation. The plan separates
what depends on the entry alone from the two updates of the global counter, so facts about all
stream operations are proved once, from `plan_spec`.
-/

namespace DurableStreams.Memory

open Lib

/-- The decision of an operation that holds a stream lock: a final reply and entry, or a batch to
commit with the replies for a refusal and for success. -/
inductive Plan where
  | finish (reply : Reply) (stream : StreamEntry)
  | commit (messages : List Bytes) (stream : StreamEntry) (refused : Error → Reply)
      (reply : Reply) (committed : StreamEntry)

/-- Whether a batch would take the stream over its own limit. -/
def overStreamLimit (limits : Limits) (messages : List Bytes) (stream : StreamEntry) : Bool :=
  limits.maxStreamBytes.toNat < wrap64 (stream.totalBytes + batchBytes messages)

/-- Carry out a plan against the global counter. -/
def Plan.run (limits : Limits) (total : Nat) : Plan → Reply × Nat × StreamEntry
  | .finish reply stream => (reply, total, stream)
  | .commit messages stream refused reply committed =>
      match reserveTotalBytes limits total (batchBytes messages) with
      | none => (refused .memoryLimitExceeded, total, stream)
      | some reserved =>
          if overStreamLimit limits messages stream then
            (refused .streamSizeLimitExceeded, reserved - batchBytes messages, stream)
          else (reply, reserved, committed)

/-- Every way to carry out the plan ends in a reply and an entry with the property. -/
def Plan.Leaves (property : Reply → StreamEntry → Prop) : Plan → Prop
  | .finish reply stream => property reply stream
  | .commit _ stream refused reply committed =>
      (∀ error, property (refused error) stream) ∧ property reply committed

/-- So carrying it out does. -/
theorem Plan.Leaves.run {property : Reply → StreamEntry → Prop} {plan : Plan}
    (h : plan.Leaves property) (limits : Limits) (total : Nat) :
    property (plan.run limits total).1 (plan.run limits total).2.2 := by
  cases plan with
  | finish reply stream => exact h
  | commit messages stream refused reply committed =>
      simp only [Plan.run]
      cases reserveTotalBytes limits total (batchBytes messages) with
      | none => exact h.1 _
      | some reserved =>
          dsimp only
          split
          · exact h.1 _
          · exact h.2

/-- The plan of `append`. -/
def appendPlan (clock : Clock) (data : Bytes) (contentType : String) (stream : StreamEntry) :
    Plan :=
  if isStreamExpired clock.expiry stream.config then
    .finish (.offset (.error .streamExpired)) stream
  else if stream.closed then .finish (.offset (.error .streamClosed)) stream
  else
    match validateContentType stream.config.contentType contentType with
    | .error error => .finish (.offset (.error error)) stream
    | .ok () =>
        .commit [data] stream (fun error => .offset (.error error))
          (.offset (.ok stream.nextOffset)) (stream.push data)

/-- A stream after a batch has been stored and its subscribers have been woken. -/
def StreamEntry.store (stream : StreamEntry) (messages : List Bytes) : StreamEntry :=
  (messages.foldl StreamEntry.push stream).notifyAll

/-- The plan of `batch_append` for a batch that is not empty. -/
def batchAppendPlan (clock : Clock) (messages : List Bytes) (contentType : String)
    (seq : Option String) (stream : StreamEntry) : Plan :=
  if isStreamExpired clock.expiry stream.config then
    .finish (.offset (.error .streamExpired)) stream
  else if stream.closed then .finish (.offset (.error .streamClosed)) stream
  else
    match validateContentType stream.config.contentType contentType with
    | .error error => .finish (.offset (.error error)) stream
    | .ok () =>
        match validateSeq stream.lastSeq seq with
        | .error error => .finish (.offset (.error error)) stream
        | .ok pending =>
            let committed := (stream.store messages).recordSeq pending
            .commit messages stream (fun error => .offset (.error error))
              (.offset (.ok committed.nextOffset)) committed

/-- The entry an accepted producer request leaves, given the entry with its messages stored. -/
def StreamEntry.accept (clock : Clock) (producer : ProducerHeaders) (shouldClose : Bool)
    (pending : Option String) (stream : StreamEntry) : StreamEntry :=
  ((stream.recordSeq pending).closeIf shouldClose).recordProducer clock.stamp producer

/-- The reply to an accepted producer request. -/
def acceptedReply (producer : ProducerHeaders) (stream : StreamEntry) : Reply :=
  .producer (.ok (.accepted producer.epoch producer.seq stream.nextOffset stream.closed))

/-- The plan of `append_with_producer`. A request without messages reserves nothing. -/
def producerPlan (clock : Clock) (messages : List Bytes) (contentType : String)
    (producer : ProducerHeaders) (shouldClose : Bool) (seq : Option String)
    (stream : StreamEntry) : Plan :=
  if isStreamExpired clock.expiry stream.config then
    .finish (.producer (.error .streamExpired)) stream
  else
    let stream := stream.cleanup clock.cleanup
    match if messages.isEmpty then .ok ()
        else validateContentType stream.config.contentType contentType with
    | .error error => .finish (.producer (.error error)) stream
    | .ok () =>
        match checkProducer (stream.producers.lookup producer.id) producer stream.closed with
        | .error error => .finish (.producer (.error error)) stream
        | .ok (.duplicate epoch seq) =>
            .finish (.producer (.ok (.duplicate epoch seq stream.nextOffset stream.closed))) stream
        | .ok .accept =>
            match validateSeq stream.lastSeq seq with
            | .error error => .finish (.producer (.error error)) stream
            | .ok pending =>
                if messages.isEmpty then
                  let accepted := stream.accept clock producer shouldClose pending
                  .finish (acceptedReply producer accepted) accepted
                else
                  let accepted :=
                    (stream.store messages).accept clock producer shouldClose pending
                  .commit messages stream (fun error => .producer (.error error))
                    (acceptedReply producer accepted) accepted

/-- The plan of `close_stream`. -/
def closePlan (clock : Clock) (stream : StreamEntry) : Plan :=
  if isStreamExpired clock.expiry stream.config then
    .finish (.done (.error .streamExpired)) stream
  else .finish (.done (.ok ())) { stream with closed := true }.notifyAll

/-- The operations that look a stream up and then work on it under its lock. -/
def onStream : Op → Bool
  | .append .. | .read .. | .head .. | .closeStream .. | .appendWithProducer .. | .subscribe .. =>
      true
  | .batchAppend _ messages _ _ _ => !messages.isEmpty
  | _ => false

/-- They do not create streams. -/
theorem on_stream_config {op : Op} (h : onStream op = true) : op.config = none := by
  cases op with
  | createStream | createStreamWithData => simp [onStream] at h
  | _ => rfl

/-- The reply of such an operation when there is no stream of that name. -/
def missingReply : Op → Reply
  | .append name .. | .batchAppend name .. => .offset (.error (.notFound name))
  | .read name _ => .read (.error (.notFound name))
  | .head name => .metadata (.error (.notFound name))
  | .closeStream name => .done (.error (.notFound name))
  | .appendWithProducer name .. => .producer (.error (.notFound name))
  | _ => .receiver none

/-- The plan of an operation on a stream. -/
def plan (call : Call) (stream : StreamEntry) : Plan :=
  match call.op with
  | .append _ data contentType _ => appendPlan call.clock data contentType stream
  | .batchAppend _ messages contentType seq _ =>
      batchAppendPlan call.clock messages contentType seq stream
  | .read _ fromOffset => .finish (.read (readSection call.clock fromOffset stream)) stream
  | .head _ => .finish (.metadata (headSection call.clock stream)) stream
  | .closeStream _ => closePlan call.clock stream
  | .appendWithProducer _ messages contentType producer shouldClose seq _ =>
      producerPlan call.clock messages contentType producer shouldClose seq stream
  | _ =>
      .finish (.receiver (if isStreamExpired call.clock.expiry stream.config then none
        else some ⟨stream.notify⟩)) stream

/-! ## Running a plan is running the operation -/

/-- The accumulated size of a batch of one message. -/
@[simp] theorem batch_bytes_singleton (data : Bytes) : batchBytes [data] = byteLen data := by
  have hlt : byteLen data < 2 ^ 64 := by
    unfold byteLen
    split <;> omega
  simp [batchBytes, wrap64_of_lt hlt]

/-- Reserving and committing a batch is running a commit plan. -/
theorem reserve_and_commit_eq {α : Type} (limits : Limits) (total : Nat) (messages : List Bytes)
    (stream : StreamEntry) (commit : Result α × StreamEntry) (wrap : Result α → Reply) :
    (reserveAndCommit limits total (batchBytes messages) stream commit).map wrap id =
      (Plan.commit messages stream (fun error => wrap (.error error)) (wrap commit.1)
        commit.2).run limits total := by
  simp only [reserveAndCommit, Plan.run, overStreamLimit, decide_eq_true_eq]
  cases reserveTotalBytes limits total (batchBytes messages) with
  | none => rfl
  | some reserved => dsimp only; split_ifs <;> rfl

/-- The section of `append` carries out its plan. -/
theorem append_section_eq (limits : Limits) (clock : Clock) (data : Bytes) (contentType : String)
    (total : Nat) (stream : StreamEntry) :
    (appendSection limits clock data contentType total stream).map .offset id =
      (appendPlan clock data contentType stream).run limits total := by
  unfold appendSection appendPlan
  split
  · rfl
  split
  · rfl
  cases validateContentType stream.config.contentType contentType with
  | error error => rfl
  | ok _ =>
      rw [← batch_bytes_singleton]
      exact reserve_and_commit_eq limits total [data] stream _ .offset

/-- The section of `batch_append` carries out its plan. -/
theorem batch_append_section_eq (limits : Limits) (clock : Clock) {messages : List Bytes}
    (contentType : String) (seq : Option String) (total : Nat) (stream : StreamEntry)
    (h : messages.isEmpty = false) :
    (batchAppendSection limits clock messages contentType seq total stream).map .offset id =
      (batchAppendPlan clock messages contentType seq stream).run limits total := by
  unfold batchAppendSection batchAppendPlan
  split
  · rfl
  split
  · rfl
  cases validateContentType stream.config.contentType contentType with
  | error error => rfl
  | ok _ =>
      cases validateSeq stream.lastSeq seq with
      | error error => rfl
      | ok pending =>
          simp only [commitMessages, h, Bool.false_eq_true, ↓reduceIte, reserveAndCommit, Plan.run,
            overStreamLimit, decide_eq_true_eq]
          cases reserveTotalBytes limits total (batchBytes messages) with
          | none => rfl
          | some reserved => dsimp only; split_ifs <;> rfl

/-- The section of `append_with_producer` carries out its plan. -/
theorem producer_section_eq (limits : Limits) (clock : Clock) (messages : List Bytes)
    (contentType : String) (producer : ProducerHeaders) (shouldClose : Bool)
    (seq : Option String) (total : Nat) (stream : StreamEntry) :
    (appendWithProducerSection limits clock messages contentType producer shouldClose seq total
        stream).map .producer id =
      (producerPlan clock messages contentType producer shouldClose seq stream).run limits
        total := by
  unfold appendWithProducerSection producerPlan
  split
  · rfl
  dsimp only
  generalize stream.cleanup clock.cleanup = stream
  cases (if messages.isEmpty then .ok ()
      else validateContentType stream.config.contentType contentType : Result Unit) with
  | error error => rfl
  | ok _ =>
      dsimp only
      cases checkProducer (stream.producers.lookup producer.id) producer stream.closed with
      | error error => rfl
      | ok check =>
          cases check with
          | duplicate epoch seq => rfl
          | accept =>
              dsimp only
              cases validateSeq stream.lastSeq seq with
              | error error => rfl
              | ok pending =>
                  cases hempty : messages.isEmpty with
                  | true => simp [commitMessages, hempty, Plan.run, StreamEntry.accept, acceptedReply]
                  | false =>
                      simp only [commitMessages, hempty, Bool.false_eq_true, ↓reduceIte,
                        reserveAndCommit, Plan.run, overStreamLimit, decide_eq_true_eq]
                      cases reserveTotalBytes limits total (batchBytes messages) with
                      | none => rfl
                      | some reserved => dsimp only; split_ifs <;> rfl

/-- The section of `close_stream` carries out its plan. -/
theorem close_section_eq (limits : Limits) (clock : Clock) (total : Nat) (stream : StreamEntry) :
    (closeSection clock total stream).map .done id = (closePlan clock stream).run limits total := by
  unfold closeSection closePlan
  split <;> rfl

/-- Running a section on an existing stream keeps what the section leaves. -/
theorem with_stream_eq {α : Type} {storage : InMemoryStorage} {name : String}
    {stream : StreamEntry} {body : Nat → StreamEntry → Result α × Nat × StreamEntry}
    {wrap : Result α → Reply} {outcome : Reply × Nat × StreamEntry}
    (hlookup : storage.streams.lookup name = some stream)
    (h : (body storage.totalBytes stream).map wrap id = outcome) :
    (withStream storage name body).map wrap id =
      (outcome.1, ⟨storage.streams.insert name outcome.2.2, outcome.2.1⟩) := by
  subst h
  simp [withStream, hlookup]

/-- Running an operation on a stream is looking the stream up and carrying out the plan. -/
theorem step_of_stream_op (limits : Limits) {call : Call} (storage : InMemoryStorage)
    (h : onStream call.op = true) :
    step limits call storage =
      match storage.streams.lookup call.op.name with
      | none => (missingReply call.op, storage)
      | some stream =>
          let outcome := (plan call stream).run limits storage.totalBytes
          (outcome.1, ⟨storage.streams.insert call.op.name outcome.2.2, outcome.2.1⟩) := by
  obtain ⟨clock, op⟩ := call
  cases hlookup : storage.streams.lookup op.name with
  | none =>
      cases op <;>
        simp_all [step, withStream, readStream, batchAppend, subscribe, onStream, missingReply,
          Op.name]
  | some stream =>
      -- A read-only operation puts back the entry it found.
      have hkeep := FiniteMap.insert_lookup hlookup
      cases op with
      | append name data contentType =>
          exact with_stream_eq hlookup (append_section_eq limits clock data contentType _ stream)
      | batchAppend name messages contentType seq =>
          have hempty : messages.isEmpty = false := by simpa [onStream] using h
          simp only [step, batchAppend, hempty, Bool.false_eq_true, ↓reduceIte]
          exact with_stream_eq hlookup
            (batch_append_section_eq limits clock contentType seq _ stream hempty)
      | closeStream name =>
          exact with_stream_eq hlookup (close_section_eq limits clock _ stream)
      | appendWithProducer name messages contentType producer shouldClose seq =>
          exact with_stream_eq hlookup
            (producer_section_eq limits clock messages contentType producer shouldClose seq _ stream)
      | read name fromOffset =>
          simp_all [step, readStream, plan, Plan.run, Op.name]
      | head name => simp_all [step, readStream, plan, Plan.run, Op.name]
      | subscribe name => simp_all [step, subscribe, plan, Plan.run, Op.name]
      | createStream | delete | createStreamWithData | «exists» => simp [onStream] at h

/-- On an existing stream that is carrying out the plan. -/
theorem step_on_stream (limits : Limits) {call : Call} {storage : InMemoryStorage}
    {stream : StreamEntry} (hop : onStream call.op = true)
    (hlookup : storage.streams.lookup call.op.name = some stream) :
    step limits call storage =
      (((plan call stream).run limits storage.totalBytes).1,
        ⟨storage.streams.insert call.op.name ((plan call stream).run limits storage.totalBytes).2.2,
          ((plan call stream).run limits storage.totalBytes).2.1⟩) := by
  rw [step_of_stream_op limits storage hop, hlookup]

/-! ## What a plan does to the entry -/

/-- Two states of an entry with the same log, configuration and creation time. -/
structure SameLog (before after : StreamEntry) : Prop where
  config : after.config = before.config
  messages : after.messages = before.messages
  nextReadSeq : after.nextReadSeq = before.nextReadSeq
  nextByteOffset : after.nextByteOffset = before.nextByteOffset
  totalBytes : after.totalBytes = before.totalBytes
  createdAt : after.createdAt = before.createdAt

namespace SameLog

variable {first second third : StreamEntry}

theorem refl (stream : StreamEntry) : SameLog stream stream := ⟨rfl, rfl, rfl, rfl, rfl, rfl⟩

theorem trans (h : SameLog first second) (h' : SameLog second third) : SameLog first third :=
  ⟨h'.config.trans h.config, h'.messages.trans h.messages, h'.nextReadSeq.trans h.nextReadSeq,
    h'.nextByteOffset.trans h.nextByteOffset, h'.totalBytes.trans h.totalBytes,
    h'.createdAt.trans h.createdAt⟩

theorem cleanup (now : Timestamp) (stream : StreamEntry) : SameLog stream (stream.cleanup now) :=
  ⟨rfl, rfl, rfl, rfl, rfl, rfl⟩

theorem notifyAll (stream : StreamEntry) : SameLog stream stream.notifyAll :=
  ⟨rfl, rfl, rfl, rfl, rfl, rfl⟩

theorem recordSeq (pending : Option String) (stream : StreamEntry) :
    SameLog stream (stream.recordSeq pending) := by
  cases pending <;> exact ⟨rfl, rfl, rfl, rfl, rfl, rfl⟩

theorem closeIf (shouldClose : Bool) (stream : StreamEntry) :
    SameLog stream (stream.closeIf shouldClose) := by
  cases shouldClose <;> exact ⟨rfl, rfl, rfl, rfl, rfl, rfl⟩

theorem accept (clock : Clock) (producer : ProducerHeaders) (shouldClose : Bool)
    (pending : Option String) (stream : StreamEntry) :
    SameLog stream (stream.accept clock producer shouldClose pending) :=
  ((recordSeq pending stream).trans (closeIf shouldClose _)).trans ⟨rfl, rfl, rfl, rfl, rfl, rfl⟩

/-- The tail offset is part of the log. -/
theorem nextOffset (h : SameLog first second) : second.nextOffset = first.nextOffset := by
  rw [StreamEntry.nextOffset, StreamEntry.nextOffset, h.nextReadSeq, h.nextByteOffset]

end SameLog

/-- What a plan may do: finish with the log untouched, or commit exactly the messages of the
call behind the log it found. Its replies tell which of the two happened. -/
def Plan.Respects (call : Call) (stream : StreamEntry) : Plan → Prop
  | .finish reply after => SameLog stream after ∧ (reply.appended = true → call.op.messages = [])
  | .commit messages checked refused reply committed =>
      (messages = call.op.messages ∧ SameLog stream checked ∧
        SameLog (messages.foldl StreamEntry.push checked) committed) ∧
      (∀ error, (refused error).appended = false) ∧ reply.appended = true

/-- Finishing with a reply that reports no append respects the log. -/
theorem Plan.Respects.finish {call : Call} {stream after : StreamEntry} {reply : Reply}
    (h : SameLog stream after) (hreply : reply.appended = false) :
    (Plan.finish reply after).Respects call stream :=
  ⟨h, fun hadded => absurd hadded (by rw [hreply]; exact Bool.false_ne_true)⟩

/-- The plans `append_with_producer` can come to: refuse an expired stream, refuse the request or
report a duplicate after dropping stale producer records, accept a request without messages, or
commit the messages of a request. -/
inductive ProducerCase (clock : Clock) (messages : List Bytes) (producer : ProducerHeaders)
    (shouldClose : Bool) (seq : Option String) (stream : StreamEntry) : Plan → Prop
  | expired (h : isStreamExpired clock.expiry stream.config = true) :
      ProducerCase clock messages producer shouldClose seq stream
        (.finish (.producer (.error .streamExpired)) stream)
  | refused {reply : Reply} (hreply : reply.appended = false) :
      ProducerCase clock messages producer shouldClose seq stream
        (.finish reply (stream.cleanup clock.cleanup))
  | closeOnly (pending : Option String) (hmessages : messages = [])
      (hcheck : checkProducer ((stream.cleanup clock.cleanup).producers.lookup producer.id) producer
        stream.closed = .ok .accept) (hseq : validateSeq stream.lastSeq seq = .ok pending) :
      ProducerCase clock messages producer shouldClose seq stream
        (.finish (acceptedReply producer
            ((stream.cleanup clock.cleanup).accept clock producer shouldClose pending))
          ((stream.cleanup clock.cleanup).accept clock producer shouldClose pending))
  | store (pending : Option String)
      (hcheck : checkProducer ((stream.cleanup clock.cleanup).producers.lookup producer.id) producer
        stream.closed = .ok .accept) (hseq : validateSeq stream.lastSeq seq = .ok pending) :
      ProducerCase clock messages producer shouldClose seq stream
        (.commit messages (stream.cleanup clock.cleanup) (fun error => .producer (.error error))
          (acceptedReply producer (((stream.cleanup clock.cleanup).store messages).accept clock
            producer shouldClose pending))
          (((stream.cleanup clock.cleanup).store messages).accept clock producer shouldClose
            pending))

/-- The plan of `append_with_producer` is one of these. -/
theorem producer_plan_cases (clock : Clock) (messages : List Bytes) (contentType : String)
    (producer : ProducerHeaders) (shouldClose : Bool) (seq : Option String)
    (stream : StreamEntry) :
    ProducerCase clock messages producer shouldClose seq stream
      (producerPlan clock messages contentType producer shouldClose seq stream) := by
  unfold producerPlan
  split
  · next hexpired => exact .expired hexpired
  dsimp only
  cases (if messages.isEmpty then .ok ()
      else validateContentType (stream.cleanup clock.cleanup).config.contentType contentType :
        Result Unit) with
  | error error => exact .refused rfl
  | ok _ =>
      dsimp only
      cases hcheck : checkProducer ((stream.cleanup clock.cleanup).producers.lookup producer.id)
          producer (stream.cleanup clock.cleanup).closed with
      | error error => exact .refused rfl
      | ok check =>
          cases check with
          | duplicate epoch seq => exact .refused rfl
          | accept =>
              dsimp only
              cases hseq : validateSeq (stream.cleanup clock.cleanup).lastSeq seq with
              | error error => exact .refused rfl
              | ok pending =>
                  dsimp only
                  split
                  · next hempty => exact .closeOnly pending (List.isEmpty_iff.mp hempty) hcheck hseq
                  · exact .store pending hcheck hseq

/-- The plans an operation on a stream can come to: leave the stream alone, commit the messages of an
append to an open stream, close it, or one of the plans of a producer. -/
inductive PlanCase (stream : StreamEntry) : Call → Plan → Prop
  | same {call : Call} {reply : Reply} (hreply : reply.appended = false) :
      PlanCase stream call (.finish reply stream)
  | append {clock : Clock} {name : String} {data : Bytes} {contentType : String}
      {fits : payloadBytes [data] < 2 ^ 64} (hopen : stream.closed = false) :
      PlanCase stream ⟨clock, .append name data contentType fits⟩
        (.commit [data] stream (fun error => .offset (.error error))
          (.offset (.ok stream.nextOffset)) (stream.push data))
  | batch {clock : Clock} {name : String} {messages : List Bytes} {contentType : String}
      {seq : Option String} {fits : payloadBytes messages < 2 ^ 64} (pending : Option String)
      (hopen : stream.closed = false) (hseq : validateSeq stream.lastSeq seq = .ok pending) :
      PlanCase stream ⟨clock, .batchAppend name messages contentType seq fits⟩
        (.commit messages stream (fun error => .offset (.error error))
          (.offset (.ok ((stream.store messages).recordSeq pending).nextOffset))
          ((stream.store messages).recordSeq pending))
  | close {clock : Clock} {name : String} : PlanCase stream ⟨clock, .closeStream name⟩
      (.finish (.done (.ok ())) { stream with closed := true }.notifyAll)
  | producer {clock : Clock} {name : String} {messages : List Bytes} {contentType : String}
      {producer : ProducerHeaders} {shouldClose : Bool} {seq : Option String}
      {fits : payloadBytes messages < 2 ^ 64} {plan : Plan}
      (h : ProducerCase clock messages producer shouldClose seq stream plan) :
      PlanCase stream
        ⟨clock, .appendWithProducer name messages contentType producer shouldClose seq fits⟩ plan

/-- Every plan is one of these. -/
theorem plan_cases (call : Call) (stream : StreamEntry) :
    PlanCase stream call (plan call stream) := by
  obtain ⟨clock, op⟩ := call
  cases op with
  | append name data contentType =>
      simp only [plan, appendPlan]
      split_ifs with _ hclosed <;> try exact .same rfl
      cases validateContentType stream.config.contentType contentType with
      | error error => exact .same rfl
      | ok _ => exact .append (by simpa using hclosed)
  | batchAppend name messages contentType seq =>
      simp only [plan, batchAppendPlan]
      split_ifs with _ hclosed <;> try exact .same rfl
      cases validateContentType stream.config.contentType contentType with
      | error error => exact .same rfl
      | ok _ =>
          cases hseq : validateSeq stream.lastSeq seq with
          | error error => exact .same rfl
          | ok pending => exact .batch pending (by simpa using hclosed) hseq
  | closeStream name =>
      simp only [plan, closePlan]
      split
      · exact .same rfl
      · exact .close
  | appendWithProducer => exact .producer (producer_plan_cases ..)
  | read | head | subscribe | createStream | delete | createStreamWithData | «exists» =>
      exact .same rfl

/-- Every plan respects the log. -/
theorem plan_spec (call : Call) (stream : StreamEntry) : (plan call stream).Respects call stream := by
  have hcase := plan_cases call stream
  generalize plan call stream = planned at hcase ⊢
  cases hcase with
  | same hreply => exact .finish (.refl stream) hreply
  | append => exact ⟨⟨rfl, .refl stream, .refl _⟩, fun _ => rfl, rfl⟩
  | batch pending =>
      exact ⟨⟨rfl, .refl stream, (SameLog.notifyAll _).trans (.recordSeq pending _)⟩,
        fun _ => rfl, rfl⟩
  | close => exact .finish ⟨rfl, rfl, rfl, rfl, rfl, rfl⟩ rfl
  | @producer clock _ messages _ producer shouldClose _ _ _ hcase =>
      have hclean := SameLog.cleanup clock.cleanup stream
      cases hcase with
      | expired => exact .finish (.refl stream) rfl
      | refused hreply => exact .finish hclean hreply
      | closeOnly pending hmessages =>
          exact ⟨hclean.trans (.accept clock producer shouldClose pending _), fun _ => hmessages⟩
      | store pending =>
          exact ⟨⟨rfl, hclean, (SameLog.notifyAll _).trans
            (.accept clock producer shouldClose pending _)⟩, fun _ => rfl, rfl⟩

/-! ## What a call does to one stream -/

section Lookup

variable {storage free : InMemoryStorage} {name : String} {stream : StreamEntry}

/-- A create finds room when there is no stream of that name or an expired one. -/
theorem claim_name_vacant {clock : Clock} (h : claimName clock storage name = .vacant free) :
    (storage.streams.lookup name = none ∧ free = storage) ∨
      ∃ old, storage.streams.lookup name = some old ∧
        isStreamExpired clock.expiry old.config = true ∧ free = removeStream storage name old := by
  unfold claimName at h
  cases hlookup : storage.streams.lookup name with
  | none =>
      rw [hlookup] at h
      injection h with hfree
      exact .inl ⟨rfl, hfree.symm⟩
  | some old =>
      rw [hlookup] at h
      dsimp only at h
      split at h
      · next hexpired =>
          injection h with hfree
          exact .inr ⟨old, rfl, hexpired, hfree.symm⟩
      · cases h

/-- The room a create finds is free, and nothing else has changed. -/
theorem claim_name_lookup {clock : Clock} (h : claimName clock storage name = .vacant free)
    (other : String) :
    free.streams.lookup other = if other = name then none else storage.streams.lookup other := by
  obtain ⟨hlookup, rfl⟩ | ⟨old, hlookup, -, rfl⟩ := claim_name_vacant h
  · split
    · next heq => rw [heq, hlookup]
    · rfl
  · exact FiniteMap.lookup_erase_ite _ _ _

/-- A missing stream is not appended to. -/
theorem missing_reply_appended (op : Op) : (missingReply op).appended = false := by
  cases op <;> rfl

/-- A call that neither deletes the stream nor meets it expired. -/
def Spares (name : String) (config : StreamConfig) (call : Call) : Prop :=
  call.op.name = name →
    call.op ≠ .delete name ∧ isStreamExpired call.clock.expiry config = false

/-- A call that neither deletes the stream nor creates one in its place because it has expired. -/
def Keeps (name : String) (config : StreamConfig) (call : Call) : Prop :=
  call.op.name = name → call.op ≠ .delete name ∧
    (call.op.config.isSome → isStreamExpired call.clock.expiry config = false)

/-- A call that spares a stream keeps it. -/
theorem Spares.keeps {config : StreamConfig} {call : Call} (h : Spares name config call) :
    Keeps name config call := fun hname => ⟨(h hname).1, fun _ => (h hname).2⟩

/-- A create that keeps a stream makes room under another name only. -/
theorem claim_name_kept {clock : Clock} {op : Op}
    (hclaim : claimName clock storage op.name = .vacant free)
    (hlookup : storage.streams.lookup name = some stream)
    (hkeeps : Keeps name stream.config ⟨clock, op⟩) (hconfig : op.config.isSome) :
    name ≠ op.name := by
  rintro rfl
  obtain ⟨hnone, -⟩ | ⟨old, hold, hexpired, -⟩ := claim_name_vacant hclaim
  · simp [hnone] at hlookup
  · obtain rfl : stream = old := Option.some.inj (hlookup.symm.trans hold)
    simp [(hkeeps rfl).2 hconfig] at hexpired

theorem foldl_push_last_seq (stream : StreamEntry) (messages : List Bytes) :
    (messages.foldl StreamEntry.push stream).lastSeq = stream.lastSeq := by
  induction messages generalizing stream with
  | nil => rfl
  | cons data messages ih => exact ih (stream.push data)

theorem close_if_last_seq (stream : StreamEntry) (shouldClose : Bool) :
    (stream.closeIf shouldClose).lastSeq = stream.lastSeq := by
  cases shouldClose <;> rfl

theorem commit_messages_last_seq (stream : StreamEntry) (limits : Limits) (total : Nat)
    (messages : List Bytes) :
    (commitMessages limits total stream messages).2.2.lastSeq = stream.lastSeq := by
  unfold commitMessages reserveAndCommit
  split
  · rfl
  split
  · rfl
  split
  · rfl
  · exact foldl_push_last_seq stream messages

/-- A reservation succeeds exactly when the new total respects the global limit. -/
theorem reserve_eq_some_iff {limits : Limits} {total bytes reserved : Nat} :
    reserveTotalBytes limits total bytes = some reserved ↔
      reserved = total + bytes ∧ reserved ≤ limits.maxTotalBytes.toNat := by
  have hlimit := limits.maxTotalBytes.toNat_lt
  simp only [reserveTotalBytes, checkedAdd, Option.filter_eq_some_iff, decide_eq_true_eq]
  split
  · simp only [Option.some.injEq]
    omega
  · simp only [reduceCtorEq, false_and, false_iff, not_and]
    omega

/-- A batch that does not fit leaves the counter as it was. -/
theorem commit_messages_error {limits : Limits} {total total' : Nat} {stream entry : StreamEntry}
    {messages : List Bytes} {error : Error}
    (h : commitMessages limits total stream messages = (.error error, total', entry)) :
    total' = total := by
  unfold commitMessages reserveAndCommit at h
  split at h
  · cases h
  cases hreserve : reserveTotalBytes limits total (batchBytes messages) with
  | none =>
      rw [hreserve] at h
      cases h
      rfl
  | some reserved =>
      obtain ⟨rfl, -⟩ := reserve_eq_some_iff.mp hreserve
      rw [hreserve] at h
      dsimp only at h
      split at h
      · cases h
        exact Nat.add_sub_cancel _ _
      · cases h

/-- What a call does that does not work on a stream: nothing, or it removes a stream, or makes room
for one, and then it may create one. -/
inductive Whole (call : Call) (storage : InMemoryStorage) : Reply × InMemoryStorage → Prop
  | unchanged {reply : Reply} (hreply : reply.writes = false) : Whole call storage (reply, storage)
  | removed {stream : StreamEntry} (hdelete : call.op = .delete call.op.name)
      (hlookup : storage.streams.lookup call.op.name = some stream) :
      Whole call storage (.done (.ok ()), removeStream storage call.op.name stream)
  | claimed {reply : Reply} {free : InMemoryStorage} (hconfig : call.op.config.isSome = true)
      (hclaim : claimName call.clock storage call.op.name = .vacant free)
      (hreply : reply.writes = false) : Whole call storage (reply, free)
  | created {reply : Reply} {free : InMemoryStorage} {entry : StreamEntry} {total : Nat}
      (hconfig : call.op.config.isSome = true)
      (hclaim : claimName call.clock storage call.op.name = .vacant free)
      (hreply : reply.writes = true) (hlast : entry.lastSeq = none) :
      Whole call storage (reply, ⟨free.streams.insert call.op.name entry, total⟩)

/-- Every such call is one of these. -/
theorem step_whole (limits : Limits) {call : Call} (storage : InMemoryStorage)
    (hop : onStream call.op = false) : Whole call storage (step limits call storage) := by
  obtain ⟨clock, op⟩ := call
  cases op with
  | createStream target config =>
      simp only [step, createStream]
      cases hclaim : claimName clock storage target with
      | occupied found => dsimp only; split <;> exact .unchanged rfl
      | vacant free => exact .created rfl hclaim rfl rfl
  | createStreamWithData target config messages shouldClose fits =>
      simp only [step, createStreamWithData]
      cases hclaim : claimName clock storage target with
      | occupied found => dsimp only; split <;> exact .unchanged rfl
      | vacant free =>
          have hlast := commit_messages_last_seq (.new clock.stamp config) limits free.totalBytes
            messages
          dsimp only
          rcases hcommit : commitMessages limits free.totalBytes (.new clock.stamp config) messages
            with ⟨error | ⟨⟩, total, entry⟩
          · rw [commit_messages_error hcommit]
            exact .claimed rfl hclaim rfl
          · rw [hcommit] at hlast
            exact .created rfl hclaim rfl ((close_if_last_seq entry shouldClose).trans hlast)
  | delete target =>
      simp only [step, delete]
      cases hlookup : storage.streams.lookup target with
      | none => exact .unchanged rfl
      | some found => exact .removed rfl hlookup
  | batchAppend target messages contentType seq fits =>
      have hempty : messages.isEmpty = true := by simpa [onStream] using hop
      simp only [step, batchAppend, hempty, ↓reduceIte]
      exact .unchanged rfl
  | «exists» target => exact .unchanged rfl
  | append | read | head | closeStream | appendWithProducer | subscribe => simp [onStream] at hop

/-- A call does not touch the streams of other names. -/
theorem step_others (limits : Limits) (call : Call) (storage : InMemoryStorage) {name : String}
    (hne : call.op.name ≠ name) :
    (step limits call storage).2.streams.lookup name = storage.streams.lookup name := by
  have hinsert (streams : HashMap StreamEntry) (stream : StreamEntry) :
      (streams.insert call.op.name stream).lookup name = streams.lookup name := by
    rw [FiniteMap.lookup_insert_ite, if_neg hne.symm]
  cases hop : onStream call.op with
  | true =>
      rw [step_of_stream_op limits storage hop]
      cases storage.streams.lookup call.op.name with
      | none => rfl
      | some other => exact hinsert _ _
  | false =>
      have hwhole := step_whole limits storage hop
      generalize step limits call storage = result at hwhole ⊢
      cases hwhole with
      | unchanged _ => rfl
      | removed _ _ => exact (FiniteMap.lookup_erase_ite ..).trans (if_neg hne.symm)
      | claimed _ hclaim _ => rw [claim_name_lookup hclaim, if_neg hne.symm]
      | created _ hclaim _ _ => rw [hinsert, claim_name_lookup hclaim, if_neg hne.symm]

/-- A call that keeps a stream either carries out its plan on that stream or leaves the stream as
it is and appends nothing to it. -/
theorem step_lookup (limits : Limits) {call : Call}
    (hlookup : storage.streams.lookup name = some stream)
    (hkeeps : Keeps name stream.config call) :
    (call.op.name = name ∧ onStream call.op = true ∧
      (step limits call storage).1 = ((plan call stream).run limits storage.totalBytes).1 ∧
      (step limits call storage).2.streams.lookup name =
        some ((plan call stream).run limits storage.totalBytes).2.2) ∨
    ((call.op.name = name → (step limits call storage).1.appended = false) ∧
      (step limits call storage).2.streams.lookup name = some stream) := by
  cases hop : onStream call.op with
  | true =>
      by_cases hname : call.op.name = name
      · subst hname
        rw [step_on_stream limits hop hlookup]
        exact .inl ⟨rfl, rfl, rfl, Finmap.lookup_insert _⟩
      · exact .inr ⟨fun h => absurd h hname, (step_others limits call storage hname).trans hlookup⟩
  | false =>
      right
      by_cases hname : call.op.name = name
      swap
      · exact ⟨fun h => absurd h hname, (step_others limits call storage hname).trans hlookup⟩
      subst hname
      have hwhole := step_whole limits storage hop
      generalize step limits call storage = result at hwhole ⊢
      cases hwhole with
      | unchanged hreply => exact ⟨fun _ => Reply.appended_of_not_writes hreply, hlookup⟩
      | removed hdelete _ => exact absurd hdelete (hkeeps rfl).1
      | claimed hconfig hclaim _ => exact absurd rfl (claim_name_kept hclaim hlookup hkeeps hconfig)
      | created hconfig hclaim _ _ =>
          exact absurd rfl (claim_name_kept hclaim hlookup hkeeps hconfig)

end Lookup

end DurableStreams.Memory
