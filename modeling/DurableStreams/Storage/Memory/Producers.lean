import DurableStreams.Storage.Memory.Invariant

/-!
# Producers of the in-memory storage

What `append_with_producer` does to the producer table of a live stream, by cases on its reply, and
that no other operation touches the table. A closed stream accepts nothing, whatever the operation.
-/

namespace DurableStreams.Memory

open Lib

/-- The two ways a producer request on a live stream can end. Either it is the next request of its
producer on an open stream, or nothing but stale producer records is lost. -/
inductive ProducerEffect (clock : Clock) (producer : ProducerHeaders) (shouldClose : Bool)
    (stream : StreamEntry) : Reply → StreamEntry → Prop
  | accepted {reply : Reply} {after : StreamEntry} (hreply : reply.appended = true)
      (hopen : stream.closed = false)
      (hnext : NextRequest
        ((cleanupStaleProducers clock.cleanup stream.producers).lookup producer.id) producer)
      (hproducers : after.producers =
        (cleanupStaleProducers clock.cleanup stream.producers).insert producer.id
          ⟨producer.epoch, producer.seq, clock.stamp⟩)
      (hclosed : after.closed = shouldClose) :
      ProducerEffect clock producer shouldClose stream reply after
  | refused {reply : Reply} {after : StreamEntry} (hreply : reply.appended = false)
      (hproducers : after.producers = cleanupStaleProducers clock.cleanup stream.producers)
      (hclosed : after.closed = stream.closed) :
      ProducerEffect clock producer shouldClose stream reply after

section Plans

variable {limits : Limits} {total : Nat} {clock : Clock} {messages : List Bytes}
  {contentType : String} {producer : ProducerHeaders} {shouldClose : Bool} {seq : Option String}
  {stream : StreamEntry}

/-- Pushing messages leaves the producer table and the closed flag alone. -/
theorem foldl_push_producers (stream : StreamEntry) (messages : List Bytes) :
    (messages.foldl StreamEntry.push stream).producers = stream.producers ∧
      (messages.foldl StreamEntry.push stream).closed = stream.closed := by
  induction messages generalizing stream with
  | nil => exact ⟨rfl, rfl⟩
  | cons data messages ih => exact ih (stream.push data)

/-- The table and closed flag of an entry that has accepted a request. -/
theorem accept_producers (clock : Clock) (producer : ProducerHeaders) (shouldClose : Bool)
    (pending : Option String) (stream : StreamEntry) :
    (stream.accept clock producer shouldClose pending).producers =
        stream.producers.insert producer.id ⟨producer.epoch, producer.seq, clock.stamp⟩ ∧
      (stream.accept clock producer shouldClose pending).closed =
        (stream.closed || shouldClose) := by
  cases pending <;> cases shouldClose <;>
    simp [StreamEntry.accept, StreamEntry.recordSeq, StreamEntry.closeIf,
      StreamEntry.recordProducer]

/-- A producer request on a live stream has one of the two effects. -/
theorem producer_plan_effect (hlive : isStreamExpired clock.expiry stream.config = false) :
    (producerPlan clock messages contentType producer shouldClose seq stream).Leaves
      (ProducerEffect clock producer shouldClose stream) := by
  have hcase := producer_plan_cases clock messages contentType producer shouldClose seq stream
  generalize producerPlan clock messages contentType producer shouldClose seq stream = planned
    at hcase ⊢
  cases hcase with
  | expired hexpired => simp [hlive] at hexpired
  | refused hreply => exact .refused hreply rfl rfl
  | closeOnly pending hmessages hcheck =>
      obtain ⟨hopen, hnext⟩ := check_producer_accept_iff.mp hcheck
      obtain ⟨hproducers, hclosed⟩ := accept_producers clock producer shouldClose pending
        (stream.cleanup clock.cleanup)
      exact .accepted rfl hopen hnext hproducers
        (hclosed.trans (by rw [StreamEntry.cleanup, hopen, Bool.false_or]))
  | store pending hcheck =>
      obtain ⟨hopen, hnext⟩ := check_producer_accept_iff.mp hcheck
      obtain ⟨hproducers, hclosed⟩ := accept_producers clock producer shouldClose pending
        ((stream.cleanup clock.cleanup).store messages)
      obtain ⟨hkeep, hkeepClosed⟩ := foldl_push_producers (stream.cleanup clock.cleanup) messages
      refine ⟨fun error => .refused rfl rfl rfl, .accepted rfl hopen hnext ?_ ?_⟩
      · rw [hproducers, StreamEntry.store, StreamEntry.notifyAll, hkeep]
        rfl
      · rw [hclosed, StreamEntry.store, StreamEntry.notifyAll, hkeepClosed, StreamEntry.cleanup,
          hopen, Bool.false_or]

/-- A request without messages or with the stream's content type passes the content-type check. -/
theorem producer_type_ok
    (htype : messages ≠ [] → eqIgnoreAsciiCase contentType stream.config.contentType = true) :
    (if messages.isEmpty then .ok ()
      else validateContentType (stream.cleanup clock.cleanup).config.contentType contentType :
        Result Unit) = .ok () := by
  split
  · rfl
  · next hempty => exact if_pos (htype fun hnil => hempty (by rw [hnil]; rfl))

/-- A request the producer check rejects is answered with that error. -/
theorem producer_plan_error {error : Error}
    (hlive : isStreamExpired clock.expiry stream.config = false)
    (htype : messages ≠ [] → eqIgnoreAsciiCase contentType stream.config.contentType = true)
    (hcheck : checkProducer
      ((cleanupStaleProducers clock.cleanup stream.producers).lookup producer.id) producer
      stream.closed = .error error) :
    producerPlan clock messages contentType producer shouldClose seq stream =
      .finish (.producer (.error error)) (stream.cleanup clock.cleanup) := by
  have hcheck : checkProducer ((stream.cleanup clock.cleanup).producers.lookup producer.id)
      producer (stream.cleanup clock.cleanup).closed = .error error := hcheck
  simp only [producerPlan, hlive, Bool.false_eq_true, ↓reduceIte, producer_type_ok htype, hcheck]

/-- A repeated request of the stored epoch is answered as a duplicate, on open and closed streams
alike, and only drops stale producer records. -/
theorem producer_plan_duplicate {state : ProducerState}
    (hlive : isStreamExpired clock.expiry stream.config = false)
    (htype : messages ≠ [] → eqIgnoreAsciiCase contentType stream.config.contentType = true)
    (hstate : (cleanupStaleProducers clock.cleanup stream.producers).lookup producer.id = some state)
    (hepoch : producer.epoch = state.epoch) (hseq : producer.seq ≤ state.lastSeq) :
    producerPlan clock messages contentType producer shouldClose seq stream =
      .finish (.producer (.ok (.duplicate state.epoch state.lastSeq stream.nextOffset
        stream.closed))) (stream.cleanup clock.cleanup) := by
  have hcheck : checkProducer ((stream.cleanup clock.cleanup).producers.lookup producer.id)
      producer (stream.cleanup clock.cleanup).closed =
        .ok (.duplicate state.epoch state.lastSeq) :=
    check_producer_duplicate_iff.mpr ⟨state, hstate, hepoch, hseq, rfl, rfl⟩
  simp only [producerPlan, hlive, Bool.false_eq_true, ↓reduceIte, producer_type_ok htype, hcheck]
  rfl

/-- What makes a producer request with messages succeed: every check on the stream passes and both
limits leave room for the batch. -/
structure Accepts (limits : Limits) (clock : Clock) (messages : List Bytes) (contentType : String)
    (producer : ProducerHeaders) (seq : Option String) (total : Nat) (stream : StreamEntry) :
    Prop where
  live : isStreamExpired clock.expiry stream.config = false
  type : validateContentType stream.config.contentType contentType = .ok ()
  check : checkProducer ((cleanupStaleProducers clock.cleanup stream.producers).lookup producer.id)
    producer stream.closed = .ok .accept
  seq : ∃ pending, validateSeq stream.lastSeq seq = .ok pending
  room : total + batchBytes messages ≤ limits.maxTotalBytes.toNat
  streamRoom : overStreamLimit limits messages stream = false

/-- A producer request with messages is reported as appended exactly if all this holds. -/
theorem producer_plan_appended_iff (hmessages : messages ≠ []) :
    ((producerPlan clock messages contentType producer shouldClose seq stream).run limits
        total).1.appended = true ↔
      Accepts limits clock messages contentType producer seq total stream := by
  have hempty : messages.isEmpty = false := List.isEmpty_eq_false_iff.mpr hmessages
  have hover : overStreamLimit limits messages (stream.cleanup clock.cleanup) =
      overStreamLimit limits messages stream := rfl
  constructor
  · intro happended
    simp only [producerPlan, hempty, Bool.false_eq_true, ↓reduceIte] at happended
    cases hlive : isStreamExpired clock.expiry stream.config with
    | true => simp [hlive, Plan.run, Reply.appended] at happended
    | false =>
        simp only [hlive, Bool.false_eq_true, ↓reduceIte] at happended
        cases htype : validateContentType stream.config.contentType contentType with
        | error error => simp [StreamEntry.cleanup, htype, Plan.run, Reply.appended] at happended
        | ok _ =>
            cases hcheck : checkProducer
                ((cleanupStaleProducers clock.cleanup stream.producers).lookup producer.id) producer
                stream.closed with
            | error error =>
                simp [StreamEntry.cleanup, htype, hcheck, Plan.run, Reply.appended] at happended
            | ok check =>
                cases check with
                | duplicate epoch last =>
                    simp [StreamEntry.cleanup, htype, hcheck, Plan.run, Reply.appended] at happended
                | accept =>
                    cases hseq : validateSeq stream.lastSeq seq with
                    | error error =>
                        simp [StreamEntry.cleanup, htype, hcheck, hseq, Plan.run,
                          Reply.appended] at happended
                    | ok pending =>
                        have htype' : validateContentType
                            (stream.cleanup clock.cleanup).config.contentType contentType =
                            .ok () := htype
                        have hcheck' : checkProducer
                            ((stream.cleanup clock.cleanup).producers.lookup producer.id) producer
                            (stream.cleanup clock.cleanup).closed = .ok .accept := hcheck
                        have hseq' : validateSeq (stream.cleanup clock.cleanup).lastSeq seq =
                            .ok pending := hseq
                        simp only [htype', hcheck', hseq', Plan.run, hover] at happended
                        cases hreserve : reserveTotalBytes limits total (batchBytes messages) with
                        | none => simp [hreserve, Reply.appended] at happended
                        | some reserved =>
                            obtain ⟨rfl, hroom⟩ := reserve_eq_some_iff.mp hreserve
                            cases hfull : overStreamLimit limits messages stream with
                            | true => simp [hreserve, hfull, Reply.appended] at happended
                            | false => exact ⟨hlive, htype, hcheck, ⟨pending, hseq⟩, hroom, hfull⟩
  · intro h
    obtain ⟨pending, hseq⟩ := h.seq
    have htype : validateContentType (stream.cleanup clock.cleanup).config.contentType contentType =
        .ok () := h.type
    have hcheck : checkProducer ((stream.cleanup clock.cleanup).producers.lookup producer.id)
        producer (stream.cleanup clock.cleanup).closed = .ok .accept := h.check
    have hseq : validateSeq (stream.cleanup clock.cleanup).lastSeq seq = .ok pending := hseq
    simp only [producerPlan, hempty, h.live, htype, hcheck, hseq, Bool.false_eq_true, ↓reduceIte,
      Plan.run, reserve_eq_some_iff.mpr ⟨rfl, h.room⟩, hover, h.streamRoom]
    rfl

/-- A producer request on an existing stream carries out its plan. -/
theorem step_append_with_producer {storage : InMemoryStorage} {name : String}
    (fits : payloadBytes messages < 2 ^ 64) (hlookup : storage.streams.lookup name = some stream) :
    (step limits ⟨clock, .appendWithProducer name messages contentType producer shouldClose seq
        fits⟩ storage).1 =
      ((producerPlan clock messages contentType producer shouldClose seq stream).run limits
        storage.totalBytes).1 ∧
    (step limits ⟨clock, .appendWithProducer name messages contentType producer shouldClose seq
        fits⟩ storage).2.streams.lookup name =
      some ((producerPlan clock messages contentType producer shouldClose seq stream).run limits
        storage.totalBytes).2.2 := by
  have hlookup : storage.streams.lookup (Op.appendWithProducer name messages contentType producer
      shouldClose seq fits).name = some stream := hlookup
  rw [@step_on_stream limits ⟨clock, _⟩ storage stream rfl hlookup]
  exact ⟨rfl, Finmap.lookup_insert _⟩

/-- A request that would have succeeded succeeds later, on the same log, if its producer's record is
still the same and no more bytes are in use. -/
theorem Accepts.again {retry : Clock} {total' : Nat} {producers : HashMap ProducerState}
    (h : Accepts limits clock messages contentType producer seq total stream)
    (hlive : isStreamExpired retry.expiry stream.config = false)
    (hrecord : (cleanupStaleProducers retry.cleanup producers).lookup producer.id =
      (cleanupStaleProducers clock.cleanup stream.producers).lookup producer.id)
    (htotal : total' ≤ total) :
    Accepts limits retry messages contentType producer seq total'
      { stream with producers := producers } :=
  ⟨hlive, h.type, (congrArg (checkProducer · producer stream.closed) hrecord).trans h.check, h.seq,
    (Nat.add_le_add_right htotal _).trans h.room, h.streamRoom⟩

/-- What the other operations leave: the producer table as it was, and a closed stream closed and
without new messages. -/
def KeepsProducers (stream : StreamEntry) (reply : Reply) (after : StreamEntry) : Prop :=
  after.producers = stream.producers ∧
    (stream.closed = true → reply.appended = false ∧ after.closed = true)

/-- Every operation but `append_with_producer` keeps the producer table. -/
theorem plan_keeps_producers (stream : StreamEntry) {call : Call}
    (hop : call.op.isProducerAppend = false) :
    (plan call stream).Leaves (KeepsProducers stream) := by
  have hfinish {reply : Reply} (hreply : reply.appended = false) :
      KeepsProducers stream reply stream := ⟨rfl, fun hclosed => ⟨hreply, hclosed⟩⟩
  have hcase := plan_cases call stream
  generalize plan call stream = planned at hcase ⊢
  cases hcase with
  | same hreply => exact hfinish hreply
  | append hopen =>
      exact ⟨fun error => hfinish rfl, rfl, fun hclosed => absurd (hopen.symm.trans hclosed) (by simp)⟩
  | @batch _ _ messages _ _ _ pending hopen =>
      refine ⟨fun error => hfinish rfl, ?_, fun hclosed => absurd (hopen.symm.trans hclosed) (by simp)⟩
      have hkeep := (foldl_push_producers stream messages).1
      cases pending <;> exact hkeep
  | close => exact ⟨rfl, fun _ => ⟨rfl, rfl⟩⟩
  | producer => cases hop

end Plans

end DurableStreams.Memory
