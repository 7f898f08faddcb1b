import DurableStreams.Storage.Acid.Transactions
import DurableStreams.Storage.File.Operations
import DurableStreams.Storage.Memory.Producers

/-!
# Retries of producer appends

A request that repeats what its producer has already been acknowledged is answered as a duplicate in
all three backends and stores nothing, as long as the record of the producer is not stale
(`retries_are_duplicates`). The transactional storage reserves the bytes of the batch before it finds
out, so it needs room for a batch that it will not store (`retry_refused_without_room`).
-/

namespace DurableStreams

open Lib

/-- A request that repeats an acknowledged one: the stream is live, the content type fits, and the
record of the producer, which is not stale, has the epoch of the request and a sequence number that
is not smaller. -/
structure Retry (clock : Clock) (config : StreamConfig) (producers : HashMap ProducerState)
    (messages : List Bytes) (contentType : String) (producer : ProducerHeaders)
    (state : ProducerState) : Prop where
  live : isStreamExpired clock.expiry config = false
  type : messages ≠ [] → eqIgnoreAsciiCase contentType config.contentType = true
  record : producers.lookup producer.id = some state
  fresh : staleCutoff clock.cleanup < state.updatedAt
  epoch : producer.epoch = state.epoch
  seq : producer.seq ≤ state.lastSeq

/-- The answer to a retry. -/
def duplicateReply (state : ProducerState) (nextOffset : Offset) (closed : Bool) : Reply :=
  .producer (.ok (.duplicate state.epoch state.lastSeq nextOffset closed))

section Retries

variable {clock : Clock} {streamConfig : StreamConfig} {producers : HashMap ProducerState}
  {messages : List Bytes} {contentType : String} {producer : ProducerHeaders}
  {state : ProducerState} {shouldClose : Bool} {seq : Option String}

/-- The record is still there after cleaning up. -/
theorem Retry.lookup_cleanup
    (h : Retry clock streamConfig producers messages contentType producer state) :
    (cleanupStaleProducers clock.cleanup producers).lookup producer.id = some state := by
  rw [DurableStreams.lookup_cleanup, h.record]
  exact Option.filter_eq_some_iff.mpr ⟨rfl, decide_eq_true h.fresh⟩

/-- The checks before the producer check pass. -/
theorem Retry.type_ok (h : Retry clock streamConfig producers messages contentType producer state) :
    (if messages.isEmpty then .ok ()
      else validateContentType streamConfig.contentType contentType : Result Unit) = .ok () := by
  split
  · rfl
  · next hempty => exact if_pos (h.type fun hnil => hempty (by rw [hnil]; rfl))

/-- The producer check finds a duplicate, whether or not the stream is closed. -/
theorem Retry.check (h : Retry clock streamConfig producers messages contentType producer state)
    (closed : Bool) :
    checkProducer ((cleanupStaleProducers clock.cleanup producers).lookup producer.id) producer
      closed = .ok (.duplicate state.epoch state.lastSeq) :=
  check_producer_duplicate_iff.mpr ⟨state, h.lookup_cleanup, h.epoch, h.seq, rfl, rfl⟩

/-- The in-memory storage drops stale records and nothing else. -/
theorem memory_retry {limits : Limits} {storage : Memory.InMemoryStorage} {name : String}
    {stream : Memory.StreamEntry} (fits : payloadBytes messages < 2 ^ 64)
    (hlookup : storage.streams.lookup name = some stream)
    (h : Retry clock stream.config stream.producers messages contentType producer state) :
    Memory.step limits ⟨clock, .appendWithProducer name messages contentType producer shouldClose seq
        fits⟩ storage =
      (duplicateReply state stream.nextOffset stream.closed,
        ⟨storage.streams.insert name (stream.cleanup clock.cleanup), storage.totalBytes⟩) := by
  have hplan := @Memory.producer_plan_duplicate clock messages contentType producer shouldClose seq
    stream state h.live h.type h.lookup_cleanup h.epoch h.seq
  rw [@Memory.step_on_stream limits ⟨clock, .appendWithProducer name messages contentType producer
    shouldClose seq fits⟩ storage stream rfl hlookup]
  simp only [Memory.plan, hplan]
  rfl

/-- So does the file storage, and it writes nothing to disk. -/
theorem file_retry {config : File.Config} {faults : File.Faults} {storage : File.FileStorage}
    {name : String} {stream : File.StreamEntry} (fits : payloadBytes messages < 2 ^ 64)
    (hlookup : storage.streams.lookup name = some stream)
    (h : Retry clock stream.config stream.producers messages contentType producer state) :
    File.step config faults ⟨clock, .appendWithProducer name messages contentType producer
        shouldClose seq fits⟩ storage =
      (duplicateReply state stream.nextOffset stream.closed,
        ⟨storage.streams.insert name (stream.cleanup clock.cleanup), storage.totalBytes,
          storage.disk⟩) := by
  have htype := h.type_ok
  have hcheck := h.check stream.closed
  simp only [File.step, File.withStream, hlookup, File.appendWithProducerSection, h.live,
    Bool.false_eq_true, ↓reduceIte, File.StreamEntry.cleanup, htype, hcheck, File.within_nil]
  rfl

/-- The transactional storage changes neither its tables nor its counter, if there is room for the
batch. -/
theorem acid_retry {config : Acid.Config} {storage : Acid.AcidStorage config} {name : String}
    {saved : Acid.StoredStreamMeta} (fits : payloadBytes messages < 2 ^ 64)
    (hlookup : (storage.shard name).streams.lookup name = some saved)
    (h : Retry clock saved.config saved.producers messages contentType producer state)
    (hroom : storage.totalBytes + batchBytes messages ≤ config.limits.maxTotalBytes.toNat) :
    let after := Acid.step ⟨clock, .appendWithProducer name messages contentType producer shouldClose
      seq fits⟩ storage
    after.1 = duplicateReply state saved.nextOffset saved.closed ∧
      after.2.shards = storage.shards ∧ after.2.totalBytes = storage.totalBytes := by
  intro after
  have htype := h.type_ok
  have hcheck := h.check saved.closed
  have hreserve := Acid.reserve_ok hroom
  have hback := Acid.reserved_back hreserve
  have hafter : after = (duplicateReply state saved.nextOffset saved.closed,
      if !messages.isEmpty || shouldClose then storage.notifyStream name else storage) := by
    simp only [after, Acid.step, Acid.appendWithProducer, hreserve, Acid.appendWithProducerTxn,
      Acid.shard_with_total, hlookup, h.live, Bool.false_eq_true, ↓reduceIte,
      Acid.StoredStreamMeta.cleanup, htype, hcheck, hback]
    rfl
  rw [hafter]
  exact ⟨rfl, Acid.notified_shards _ storage name⟩

/-- Without room the transactional storage refuses a retry, whatever it repeats. -/
theorem retry_refused_without_room {config : Acid.Config} {storage : Acid.AcidStorage config}
    {name : String} (fits : payloadBytes messages < 2 ^ 64)
    (htotal : storage.totalBytes ≤ config.limits.maxTotalBytes.toNat)
    (hfull : config.limits.maxTotalBytes.toNat < storage.totalBytes + batchBytes messages) :
    Acid.step ⟨clock, .appendWithProducer name messages contentType producer shouldClose seq fits⟩
      storage = (.producer (.error .memoryLimitExceeded), storage) := by
  simp only [Acid.step, Acid.appendWithProducer, Acid.reserve_refused htotal hfull]
  rfl

/-- Retries of acknowledged requests are answered as duplicates with the stored epoch and sequence
number and the current tail and closed flag, in every state of the three backends, whatever the
messages, the Stream-Seq value and the close flag of the retry are. They store nothing: the in-memory
and file storages only drop stale producer records of the stream, and the transactional storage
changes none of its tables. -/
theorem retries_are_duplicates (name : String) (clock : Clock) (messages : List Bytes)
    (contentType : String) (producer : ProducerHeaders) (shouldClose : Bool) (seq : Option String)
    (fits : payloadBytes messages < 2 ^ 64) (state : ProducerState) :
    let call : Call :=
      ⟨clock, .appendWithProducer name messages contentType producer shouldClose seq fits⟩
    (∀ (limits : Limits) (storage : Memory.InMemoryStorage) (stream : Memory.StreamEntry),
      storage.streams.lookup name = some stream →
      Retry clock stream.config stream.producers messages contentType producer state →
      Memory.step limits call storage =
        (duplicateReply state stream.nextOffset stream.closed,
          ⟨storage.streams.insert name (stream.cleanup clock.cleanup), storage.totalBytes⟩)) ∧
    (∀ (config : File.Config) (storage : File.FileStorage) (stream : File.StreamEntry),
      storage.streams.lookup name = some stream →
      Retry clock stream.config stream.producers messages contentType producer state →
      File.step config .none call storage =
        (duplicateReply state stream.nextOffset stream.closed,
          ⟨storage.streams.insert name (stream.cleanup clock.cleanup), storage.totalBytes,
            storage.disk⟩)) ∧
    ∀ (config : Acid.Config) (storage : Acid.AcidStorage config) (saved : Acid.StoredStreamMeta),
      (storage.shard name).streams.lookup name = some saved →
      Retry clock saved.config saved.producers messages contentType producer state →
      storage.totalBytes + batchBytes messages ≤ config.limits.maxTotalBytes.toNat →
      (Acid.step call storage).1 = duplicateReply state saved.nextOffset saved.closed ∧
        (Acid.step call storage).2.shards = storage.shards ∧
        (Acid.step call storage).2.totalBytes = storage.totalBytes :=
  ⟨fun _ _ _ hlookup h => memory_retry fits hlookup h,
    fun _ _ _ hlookup h => file_retry fits hlookup h,
    fun _ _ _ hlookup h hroom => acid_retry fits hlookup h hroom⟩

end Retries

/-- A request of a producer. -/
def firstRequest (now : Timestamp) : Call :=
  ⟨.at now, .appendWithProducer "s" [[1]] "text/plain" ⟨"p", 0, 0⟩ false none (Size.fits .one)⟩

/-- A stream with one acknowledged request, on a storage that is full. -/
def fullRun : List Call := [⟨.at 0, .createStream "s" .plain⟩, firstRequest 0]

/-- The stream that the run leaves. -/
def fullStream : Memory.StreamEntry where
  config := .plain
  messages := [.new (Offset.new 0 0) [1]]
  closed := false
  nextReadSeq := 1
  nextByteOffset := 1
  totalBytes := 1
  createdAt := 0
  producers := Finmap.insert "p" ⟨0, 0, 0⟩ ∅
  notify := 1
  lastSeq := none

theorem retries_are_duplicates_full_store :
    let storage := (exec (Memory.step ⟨1, 1⟩) fullRun .new).2
    (Memory.step ⟨1, 1⟩ (firstRequest 1) storage).1 =
        duplicateReply ⟨0, 0, 0⟩ (Offset.new 1 1) false ∧
      (Memory.step ⟨1, 1⟩ (firstRequest 1) storage).2.totalBytes = storage.totalBytes := by
  intro storage
  have hlookup : storage.streams.lookup "s" = some fullStream := by decide +kernel
  have hretry : Retry (.at 1) fullStream.config fullStream.producers [[1]] "text/plain"
      ⟨"p", 0, 0⟩ ⟨0, 0, 0⟩ :=
    ⟨by decide, fun _ => by decide +kernel, by decide +kernel, by decide, rfl, le_rfl⟩
  have hstep := (retries_are_duplicates "s" (.at 1) [[1]] "text/plain" ⟨"p", 0, 0⟩ false none
    (by decide) ⟨0, 0, 0⟩).1 ⟨1, 1⟩ storage fullStream hlookup hretry
  exact ⟨congrArg Prod.fst hstep, congrArg (fun result => result.2.totalBytes) hstep⟩

/-- After eight days the record is stale, and the retry is stored again. -/
theorem retries_are_duplicates_stale :
    let storage := (exec (Memory.step ⟨100, 100⟩) fullRun .new).2
    storage.streams.lookup "s" = some fullStream ∧
      isStreamExpired (8 * 24 * 60 * 60 * 1000000000) fullStream.config = false ∧
      fullStream.producers.lookup "p" = some ⟨0, 0, 0⟩ ∧
      (Memory.step ⟨100, 100⟩ (firstRequest (8 * 24 * 60 * 60 * 1000000000)) storage).1 =
        .producer (.ok (.accepted 0 0 (Offset.new 2 2) false)) := by
  decide +kernel

end DurableStreams
