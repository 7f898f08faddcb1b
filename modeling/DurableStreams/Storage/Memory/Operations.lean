import DurableStreams.Lib.BinarySearch
import DurableStreams.Storage.Interface

/-!
# In-memory storage

The operations of `InMemoryStorage` (`storage/memory.rs`), each run to completion. An operation on
an existing stream is a section under the stream lock, written as a function of the global byte
counter and the stream entry; `withStream` finds the entry and puts it back. A failing operation
keeps whatever it changed before it failed, so every operation returns its result together with
the storage. `step` runs one call of the `Storage` trait.
-/

namespace DurableStreams.Memory

open Lib

/-- The internal state of one stream. `notify` counts the sends on the stream's broadcast channel,
so that a receiver has something pending when it has seen fewer. -/
structure StreamEntry where
  config : StreamConfig
  messages : List Message
  closed : Bool
  nextReadSeq : Nat
  nextByteOffset : Nat
  totalBytes : Nat
  createdAt : Timestamp
  producers : HashMap ProducerState
  notify : Nat
  lastSeq : Option String
  deriving DecidableEq

namespace StreamEntry

/-- A new, open and empty stream. -/
def new (now : Timestamp) (config : StreamConfig) : StreamEntry where
  config := config
  messages := []
  closed := false
  nextReadSeq := 0
  nextByteOffset := 0
  totalBytes := 0
  createdAt := now
  producers := ∅
  notify := 0
  lastSeq := none

/-- The offset the next message will get. -/
def nextOffset (stream : StreamEntry) : Offset :=
  Offset.new stream.nextReadSeq stream.nextByteOffset

/-- Store one message at the tail and advance the three counters. -/
def push (stream : StreamEntry) (data : Bytes) : StreamEntry :=
  { stream with
    messages := stream.messages ++ [Message.new stream.nextOffset data]
    nextReadSeq := wrap64 (stream.nextReadSeq + 1)
    nextByteOffset := wrap64 (stream.nextByteOffset + byteLen data)
    totalBytes := wrap64 (stream.totalBytes + byteLen data) }

/-- Wake the stream's subscribers. -/
def notifyAll (stream : StreamEntry) : StreamEntry :=
  { stream with notify := stream.notify + 1 }

/-- Remember a validated Stream-Seq value, if the request had one. -/
def recordSeq (pending : Option String) (stream : StreamEntry) : StreamEntry :=
  match pending with
  | some newSeq => { stream with lastSeq := some newSeq }
  | none => stream

/-- Close the stream if asked to. -/
def closeIf (shouldClose : Bool) (stream : StreamEntry) : StreamEntry :=
  if shouldClose then { stream with closed := true } else stream

/-- Remember the producer's accepted epoch and sequence number. -/
def recordProducer (now : Timestamp) (producer : ProducerHeaders) (stream : StreamEntry) :
    StreamEntry :=
  { stream with
    producers := stream.producers.insert producer.id ⟨producer.epoch, producer.seq, now⟩ }

/-- Forget the producers whose state is stale at `now`. -/
def cleanup (now : Timestamp) (stream : StreamEntry) : StreamEntry :=
  { stream with producers := cleanupStaleProducers now stream.producers }

end StreamEntry

/-- The storage: its streams and the global byte counter. -/
structure InMemoryStorage where
  streams : HashMap StreamEntry
  totalBytes : Nat
  deriving DecidableEq

/-- A storage without streams. -/
def InMemoryStorage.new : InMemoryStorage := ⟨∅, 0⟩

/-! ## Limits -/

/-- The global reservation: add the bytes unless that overflows or exceeds the global limit. -/
def reserveTotalBytes (limits : Limits) (total bytes : Nat) : Option Nat :=
  (checkedAdd total bytes).filter fun next => next ≤ limits.maxTotalBytes.toNat

/-- Reserve bytes globally, then check the stream limit: either give the reservation back or
commit. The committed result and entry do not depend on the counter. -/
def reserveAndCommit {α : Type} (limits : Limits) (total bytes : Nat) (stream : StreamEntry)
    (commit : Result α × StreamEntry) : Result α × Nat × StreamEntry :=
  match reserveTotalBytes limits total bytes with
  | none => (.error .memoryLimitExceeded, total, stream)
  | some reserved =>
      if limits.maxStreamBytes.toNat < wrap64 (stream.totalBytes + bytes) then
        (.error .streamSizeLimitExceeded, reserved - bytes, stream)
      else (commit.1, reserved, commit.2)

/-- Commit messages to a stream, checking the limits first. -/
def commitMessages (limits : Limits) (total : Nat) (stream : StreamEntry)
    (messages : List Bytes) : Result Unit × Nat × StreamEntry :=
  if messages.isEmpty then (.ok (), total, stream)
  else
    reserveAndCommit limits total (batchBytes messages) stream
      (.ok (), (messages.foldl StreamEntry.push stream).notifyAll)

/-! ## Sections under the stream lock -/

/-- The section of `append`. It notifies nobody. -/
def appendSection (limits : Limits) (clock : Clock) (data : Bytes) (contentType : String)
    (total : Nat) (stream : StreamEntry) : Result Offset × Nat × StreamEntry :=
  if isStreamExpired clock.expiry stream.config then (.error .streamExpired, total, stream)
  else if stream.closed then (.error .streamClosed, total, stream)
  else
    match validateContentType stream.config.contentType contentType with
    | .error error => (.error error, total, stream)
    | .ok () =>
        reserveAndCommit limits total (byteLen data) stream
          (.ok stream.nextOffset, stream.push data)

/-- The section of `batch_append`. -/
def batchAppendSection (limits : Limits) (clock : Clock) (messages : List Bytes)
    (contentType : String) (seq : Option String) (total : Nat) (stream : StreamEntry) :
    Result Offset × Nat × StreamEntry :=
  if isStreamExpired clock.expiry stream.config then (.error .streamExpired, total, stream)
  else if stream.closed then (.error .streamClosed, total, stream)
  else
    match validateContentType stream.config.contentType contentType with
    | .error error => (.error error, total, stream)
    | .ok () =>
        match validateSeq stream.lastSeq seq with
        | .error error => (.error error, total, stream)
        | .ok pending =>
            match commitMessages limits total stream messages with
            | (.error error, total, stream) => (.error error, total, stream)
            | (.ok (), total, stream) =>
                let stream := stream.recordSeq pending
                (.ok stream.nextOffset, total, stream)

/-- The section of `append_with_producer`. -/
def appendWithProducerSection (limits : Limits) (clock : Clock) (messages : List Bytes)
    (contentType : String) (producer : ProducerHeaders) (shouldClose : Bool)
    (seq : Option String) (total : Nat) (stream : StreamEntry) :
    Result ProducerAppendResult × Nat × StreamEntry :=
  if isStreamExpired clock.expiry stream.config then (.error .streamExpired, total, stream)
  else
    let stream := stream.cleanup clock.cleanup
    -- Close-only requests carry no messages and need no content type.
    match if messages.isEmpty then .ok ()
        else validateContentType stream.config.contentType contentType with
    | .error error => (.error error, total, stream)
    | .ok () =>
        match checkProducer (stream.producers.lookup producer.id) producer stream.closed with
        | .error error => (.error error, total, stream)
        | .ok (.duplicate epoch seq) =>
            (.ok (.duplicate epoch seq stream.nextOffset stream.closed), total, stream)
        | .ok .accept =>
            match validateSeq stream.lastSeq seq with
            | .error error => (.error error, total, stream)
            | .ok pending =>
                match commitMessages limits total stream messages with
                | (.error error, total, stream) => (.error error, total, stream)
                | (.ok (), total, stream) =>
                    let stream := ((stream.recordSeq pending).closeIf shouldClose).recordProducer
                      clock.stamp producer
                    (.ok (.accepted producer.epoch producer.seq stream.nextOffset stream.closed),
                      total, stream)

/-- The section of `close_stream`. -/
def closeSection (clock : Clock) (total : Nat) (stream : StreamEntry) :
    Result Unit × Nat × StreamEntry :=
  if isStreamExpired clock.expiry stream.config then (.error .streamExpired, total, stream)
  else (.ok (), total, { stream with closed := true }.notifyAll)

/-- The position of the first message a read from a start or concrete offset returns. -/
def startIndex (stream : StreamEntry) (fromOffset : Offset) : Nat :=
  if fromOffset.isStart then 0
  else searchIndex (binarySearchBy (fun message => message.offset.cmp fromOffset) stream.messages)

/-- The section of `read`. -/
def readSection (clock : Clock) (fromOffset : Offset) (stream : StreamEntry) :
    Result ReadResult :=
  if isStreamExpired clock.expiry stream.config then .error .streamExpired
  else if fromOffset.isNow then .ok ⟨[], stream.nextOffset, true, stream.closed⟩
  else
    let start := startIndex stream fromOffset
    let messages := (stream.messages.drop start).map Message.data
    .ok ⟨messages, stream.nextOffset, decide (stream.messages.length ≤ start + messages.length),
      stream.closed⟩

/-- The section of `head`. -/
def headSection (clock : Clock) (stream : StreamEntry) : Result StreamMetadata :=
  if isStreamExpired clock.expiry stream.config then .error .streamExpired
  else
    .ok ⟨stream.config, stream.nextOffset, stream.closed, stream.totalBytes,
      stream.messages.length, stream.createdAt⟩

/-! ## Operations -/

/-- Find a stream, run a section on it under its lock and keep what the section leaves. -/
def withStream {α : Type} (storage : InMemoryStorage) (name : String)
    (body : Nat → StreamEntry → Result α × Nat × StreamEntry) : Result α × InMemoryStorage :=
  match storage.streams.lookup name with
  | none => (.error (.notFound name), storage)
  | some stream =>
      let (result, total, stream) := body storage.totalBytes stream
      (result, ⟨storage.streams.insert name stream, total⟩)

/-- Find a stream and read from it under its lock. -/
def readStream {α : Type} (storage : InMemoryStorage) (name : String)
    (body : StreamEntry → Result α) : Result α :=
  match storage.streams.lookup name with
  | none => .error (.notFound name)
  | some stream => body stream

/-- Take a stream out of the map and its bytes off the global counter. -/
def removeStream (storage : InMemoryStorage) (name : String) (stream : StreamEntry) :
    InMemoryStorage :=
  ⟨storage.streams.erase name, storage.totalBytes - stream.totalBytes⟩

/-- What a create finds under its name: a live stream, or room for a new one after an expired
stream has been taken out. -/
inductive Slot where
  | occupied (stream : StreamEntry)
  | vacant (storage : InMemoryStorage)

/-- Look up the name of a create, dropping the stream there if it has expired. -/
def claimName (clock : Clock) (storage : InMemoryStorage) (name : String) : Slot :=
  match storage.streams.lookup name with
  | none => .vacant storage
  | some stream =>
      if isStreamExpired clock.expiry stream.config then
        .vacant (removeStream storage name stream)
      else .occupied stream

/-- `create_stream`. -/
def createStream (clock : Clock) (storage : InMemoryStorage) (name : String)
    (config : StreamConfig) : Result CreateStreamResult × InMemoryStorage :=
  match claimName clock storage name with
  | .occupied stream =>
      if stream.config.partialEq config then (.ok .alreadyExists, storage)
      else (.error .configMismatch, storage)
  | .vacant storage =>
      (.ok .created,
        ⟨storage.streams.insert name (StreamEntry.new clock.stamp config), storage.totalBytes⟩)

/-- `create_stream_with_data`. When the data does not fit, no stream is created, but an expired
stream of that name stays removed. -/
def createStreamWithData (limits : Limits) (clock : Clock) (storage : InMemoryStorage)
    (name : String) (config : StreamConfig) (messages : List Bytes) (shouldClose : Bool) :
    Result CreateWithDataResult × InMemoryStorage :=
  match claimName clock storage name with
  | .occupied stream =>
      if stream.config.partialEq config then
        (.ok ⟨.alreadyExists, stream.nextOffset, stream.closed⟩, storage)
      else (.error .configMismatch, storage)
  | .vacant storage =>
      match commitMessages limits storage.totalBytes (StreamEntry.new clock.stamp config)
          messages with
      | (.error error, total, _) => (.error error, ⟨storage.streams, total⟩)
      | (.ok (), total, entry) =>
          let entry := entry.closeIf shouldClose
          (.ok ⟨.created, entry.nextOffset, entry.closed⟩,
            ⟨storage.streams.insert name entry, total⟩)

/-- `delete`. An expired stream can still be deleted. -/
def delete (storage : InMemoryStorage) (name : String) : Result Unit × InMemoryStorage :=
  match storage.streams.lookup name with
  | none => (.error (.notFound name), storage)
  | some stream => (.ok (), removeStream storage name stream)

/-- `batch_append`. An empty batch is refused before the stream is looked up. -/
def batchAppend (limits : Limits) (clock : Clock) (storage : InMemoryStorage) (name : String)
    (messages : List Bytes) (contentType : String) (seq : Option String) :
    Result Offset × InMemoryStorage :=
  if messages.isEmpty then
    (.error (.invalidHeader "Content-Length" "batch cannot be empty"), storage)
  else withStream storage name (batchAppendSection limits clock messages contentType seq)

/-- `exists`. -/
def existsStream (clock : Clock) (storage : InMemoryStorage) (name : String) : Bool :=
  match storage.streams.lookup name with
  | none => false
  | some stream => !isStreamExpired clock.expiry stream.config

/-- `subscribe`. -/
def subscribe (clock : Clock) (storage : InMemoryStorage) (name : String) : Option Receiver :=
  match storage.streams.lookup name with
  | none => none
  | some stream =>
      if isStreamExpired clock.expiry stream.config then none else some ⟨stream.notify⟩

/-- Run one call of the storage trait. -/
def step (limits : Limits) (call : Call) (storage : InMemoryStorage) : Reply × InMemoryStorage :=
  let clock := call.clock
  match call.op with
  | .createStream name config => (createStream clock storage name config).map .created id
  | .append name data contentType _ =>
      (withStream storage name (appendSection limits clock data contentType)).map .offset id
  | .batchAppend name messages contentType seq _ =>
      (batchAppend limits clock storage name messages contentType seq).map .offset id
  | .read name fromOffset => (.read (readStream storage name (readSection clock fromOffset)), storage)
  | .delete name => (delete storage name).map .done id
  | .head name => (.metadata (readStream storage name (headSection clock)), storage)
  | .closeStream name => (withStream storage name (closeSection clock)).map .done id
  | .appendWithProducer name messages contentType producer shouldClose seq _ =>
      (withStream storage name
        (appendWithProducerSection limits clock messages contentType producer shouldClose
          seq)).map .producer id
  | .createStreamWithData name config messages shouldClose _ =>
      (createStreamWithData limits clock storage name config messages shouldClose).map
        .createdWithData id
  | .exists name => (.exists (existsStream clock storage name), storage)
  | .subscribe name => (.receiver (subscribe clock storage name), storage)

end DurableStreams.Memory
