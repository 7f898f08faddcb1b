import DurableStreams.Lib.OrderedTable
import DurableStreams.Storage.Interface
import Mathlib.Data.Finset.Sort
import Mathlib.Data.List.Lex
import Mathlib.Data.Prod.Lex

/-!
# Transactional storage

The operations of `AcidStorage` (`storage/acid.rs`). Streams are spread over shards by a hash of
their name. A shard is a database with a table of stream metadata and an ordered table of messages,
and an operation is one transaction on one shard, written as a function that returns the changed
shard if it commits. A transaction that ends in an error, or returns early, leaves the shard as it
was. The global byte counter and the notification channels are kept in memory. The counter is
changed outside the transaction: appends reserve their bytes before it and give them back after it
if nothing was stored. The hash function comes from a library and is a parameter.
-/

namespace DurableStreams.Acid

open Lib

/-- The shard counts that `validate_shard_count` accepts. -/
def ValidShardCount (count : Nat) : Prop := (1 ≤ count ∧ count ≤ 256) ∧ count.isPowerOfTwo

/-- How the backend is configured. -/
structure Config where
  limits : Limits
  shardCount : Nat
  valid : ValidShardCount shardCount
  hash : Bytes → UInt64

/-- A storage with two shards, where all names hash alike. -/
def crowded : Config where
  limits := ⟨100, 50⟩
  shardCount := 2
  valid := ⟨by decide, 1, rfl⟩
  hash := fun _ => 0

/-- The metadata stored for a stream. -/
structure StoredStreamMeta where
  config : StreamConfig
  closed : Bool
  nextReadSeq : Nat
  nextByteOffset : Nat
  totalBytes : Nat
  createdAt : Timestamp
  lastSeq : Option String
  producers : HashMap ProducerState
  deriving DecidableEq

/-- The key of a message: the bytes of the name of its stream, by which it is ordered first, and its
offset. -/
abbrev MessageKey := List Nat ×ₗ (Nat ×ₗ Nat)

/-- The key of the message of a stream at an offset. -/
def messageKey (name : String) (readSeq byteOffset : Nat) : MessageKey :=
  toLex ((strBytes name).map UInt8.toNat, toLex (readSeq, byteOffset))

/-- A shard database. -/
structure Shard where
  streams : HashMap StoredStreamMeta
  messages : OrderedTable MessageKey Bytes

/-- The storage. `notifiers` counts the sends on each channel that is open. -/
structure AcidStorage (config : Config) where
  shards : Fin config.shardCount → Shard
  totalBytes : Nat
  notifiers : HashMap Nat

/-- The storage over empty databases. -/
def AcidStorage.new (config : Config) : AcidStorage config := ⟨fun _ => ⟨∅, .empty⟩, 0, ∅⟩

namespace StoredStreamMeta

/-- The metadata of a new, open and empty stream. -/
def new (now : Timestamp) (config : StreamConfig) : StoredStreamMeta where
  config := config
  closed := false
  nextReadSeq := 0
  nextByteOffset := 0
  totalBytes := 0
  createdAt := now
  lastSeq := none
  producers := ∅

/-- The offset the next message will get. -/
def nextOffset (saved : StoredStreamMeta) : Offset :=
  Offset.new saved.nextReadSeq saved.nextByteOffset

/-- Advance the counters behind a message. -/
def advance (saved : StoredStreamMeta) (data : Bytes) : StoredStreamMeta :=
  { saved with
    nextReadSeq := wrap64 (saved.nextReadSeq + 1)
    nextByteOffset := wrap64 (saved.nextByteOffset + byteLen data)
    totalBytes := wrap64 (saved.totalBytes + byteLen data) }

/-- Remember a validated Stream-Seq value, if the request had one. -/
def recordSeq (pending : Option String) (saved : StoredStreamMeta) : StoredStreamMeta :=
  match pending with
  | some newSeq => { saved with lastSeq := some newSeq }
  | none => saved

/-- Close the stream if asked to. -/
def closeIf (shouldClose : Bool) (saved : StoredStreamMeta) : StoredStreamMeta :=
  if shouldClose then { saved with closed := true } else saved

/-- Remember the producer's accepted epoch and sequence number. -/
def recordProducer (now : Timestamp) (producer : ProducerHeaders) (saved : StoredStreamMeta) :
    StoredStreamMeta :=
  { saved with
    producers := saved.producers.insert producer.id ⟨producer.epoch, producer.seq, now⟩ }

/-- Forget the producers whose state is stale at `now`. -/
def cleanup (now : Timestamp) (saved : StoredStreamMeta) : StoredStreamMeta :=
  { saved with producers := cleanupStaleProducers now saved.producers }

end StoredStreamMeta

/-! ## The counter, the shards and the notifiers -/

section Parts

variable {config : Config}

/-- Reserve bytes below the global limit. Nothing is checked if there are none. -/
def reserveTotalBytes (limits : Limits) (total bytes : Nat) : Result Nat :=
  if bytes = 0 then .ok total
  else
    match (checkedAdd total bytes).filter fun next => next ≤ limits.maxTotalBytes.toNat with
    | some next => .ok next
    | none => .error .memoryLimitExceeded

/-- The shard of a stream, by the low bits of the hash of its name. -/
def shardIndex (config : Config) (name : String) : Fin config.shardCount :=
  ⟨(config.hash (strBytes name)).toNat &&& (config.shardCount - 1),
    have hcount : 1 ≤ config.shardCount := config.valid.1.1
    Nat.lt_of_le_of_lt Nat.and_le_right (Nat.sub_lt hcount Nat.one_pos)⟩

/-- The database of a stream. -/
def AcidStorage.shard (storage : AcidStorage config) (name : String) : Shard :=
  storage.shards (shardIndex config name)

/-- Commit a transaction on the shard of a stream. -/
def AcidStorage.commit (storage : AcidStorage config) (name : String) (shard : Shard) :
    AcidStorage config :=
  { storage with shards := Function.update storage.shards (shardIndex config name) shard }

/-- Give bytes back to the counter. -/
def AcidStorage.subTotalBytes (storage : AcidStorage config) (bytes : Nat) : AcidStorage config :=
  { storage with totalBytes := storage.totalBytes - bytes }

/-- Send on the channel of a stream, if it is open. -/
def AcidStorage.notifyStream (storage : AcidStorage config) (name : String) :
    AcidStorage config :=
  match storage.notifiers.lookup name with
  | none => storage
  | some sent => { storage with notifiers := storage.notifiers.insert name (sent + 1) }

/-- Close the channel of a stream. -/
def AcidStorage.dropNotifier (storage : AcidStorage config) (name : String) :
    AcidStorage config :=
  { storage with notifiers := storage.notifiers.erase name }

/-- The first and the last key a message of the stream can have. -/
def firstKey (name : String) : MessageKey := messageKey name 0 0

/-- The last key a message of the stream can have. -/
def lastKey (name : String) : MessageKey := messageKey name (2 ^ 64 - 1) (2 ^ 64 - 1)

/-- Collect the keys of a stream's messages, then remove them one by one. -/
def deleteStreamMessages (name : String) (messages : OrderedTable MessageKey Bytes) :
    OrderedTable MessageKey Bytes :=
  messages.removeAll ((messages.range (firstKey name) (lastKey name)).map Prod.fst)

/-- Write one message at the tail of its stream. -/
def insertMessage (name : String) (state : StoredStreamMeta × OrderedTable MessageKey Bytes)
    (data : Bytes) : StoredStreamMeta × OrderedTable MessageKey Bytes :=
  (state.1.advance data,
    state.2.insert (messageKey name state.1.nextReadSeq state.1.nextByteOffset) data)

/-- Write messages at the tail of their stream. The metadata is written later. -/
def insertMessages (name : String) (messages : List Bytes) (saved : StoredStreamMeta)
    (table : OrderedTable MessageKey Bytes) : StoredStreamMeta × OrderedTable MessageKey Bytes :=
  messages.foldl (insertMessage name) (saved, table)

/-- Write the metadata of a stream next to a table of messages. -/
def Shard.write (shard : Shard) (name : String)
    (state : StoredStreamMeta × OrderedTable MessageKey Bytes) : Shard :=
  ⟨shard.streams.insert name state.1, state.2⟩

/-- Remove a stream with its messages. -/
def Shard.removeStream (shard : Shard) (name : String) : Shard :=
  ⟨shard.streams.erase name, deleteStreamMessages name shard.messages⟩

end Parts

/-! ## Transactions -/

section Transactions

variable (limits : Limits) (clock : Clock)

/-- The transaction of `append`. -/
def appendTxn (name : String) (data : Bytes) (contentType : String) (shard : Shard) :
    Result (Offset × Shard) :=
  match shard.streams.lookup name with
  | none => .error (.notFound name)
  | some saved =>
      if isStreamExpired clock.expiry saved.config then .error .streamExpired
      else if saved.closed then .error .streamClosed
      else
        match validateContentType saved.config.contentType contentType with
        | .error error => .error error
        | .ok () =>
            if limits.maxStreamBytes.toNat < wrap64 (saved.totalBytes + byteLen data) then
              .error .streamSizeLimitExceeded
            else
              .ok (saved.nextOffset,
                shard.write name (insertMessage name (saved, shard.messages) data))

/-- The transaction of `batch_append`. -/
def batchAppendTxn (name : String) (messages : List Bytes) (contentType : String)
    (seq : Option String) (shard : Shard) : Result (Offset × Shard) :=
  match shard.streams.lookup name with
  | none => .error (.notFound name)
  | some saved =>
      if isStreamExpired clock.expiry saved.config then .error .streamExpired
      else if saved.closed then .error .streamClosed
      else
        match validateContentType saved.config.contentType contentType with
        | .error error => .error error
        | .ok () =>
            match validateSeq saved.lastSeq seq with
            | .error error => .error error
            | .ok pending =>
                if limits.maxStreamBytes.toNat < wrap64 (saved.totalBytes + batchBytes messages) then
                  .error .streamSizeLimitExceeded
                else
                  let (written, table) := insertMessages name messages saved shard.messages
                  let written := written.recordSeq pending
                  .ok (written.nextOffset, shard.write name (written, table))

/-- The transaction of `append_with_producer`. A duplicate commits nothing. -/
def appendWithProducerTxn (name : String) (messages : List Bytes) (contentType : String)
    (producer : ProducerHeaders) (shouldClose : Bool) (seq : Option String) (shard : Shard) :
    Result (ProducerAppendResult × Option Shard) :=
  match shard.streams.lookup name with
  | none => .error (.notFound name)
  | some saved =>
      if isStreamExpired clock.expiry saved.config then .error .streamExpired
      else
        let saved := saved.cleanup clock.cleanup
        match if messages.isEmpty then .ok ()
            else validateContentType saved.config.contentType contentType with
        | .error error => .error error
        | .ok () =>
            match checkProducer (saved.producers.lookup producer.id) producer saved.closed with
            | .error error => .error error
            | .ok (.duplicate epoch seq) =>
                .ok (.duplicate epoch seq saved.nextOffset saved.closed, none)
            | .ok .accept =>
                match validateSeq saved.lastSeq seq with
                | .error error => .error error
                | .ok pending =>
                    if limits.maxStreamBytes.toNat <
                        wrap64 (saved.totalBytes + batchBytes messages) then
                      .error .streamSizeLimitExceeded
                    else
                      let (written, table) := insertMessages name messages saved shard.messages
                      let written := ((written.recordSeq pending).closeIf shouldClose).recordProducer
                        clock.stamp producer
                      .ok (.accepted producer.epoch producer.seq written.nextOffset written.closed,
                        some (shard.write name (written, table)))

/-- The transaction of `close_stream`. -/
def closeTxn (name : String) (shard : Shard) : Result Shard :=
  match shard.streams.lookup name with
  | none => .error (.notFound name)
  | some saved =>
      if isStreamExpired clock.expiry saved.config then .error .streamExpired
      else .ok (shard.write name ({ saved with closed := true }, shard.messages))

/-- What a create finds under its name: a live stream, or room for a new one after an expired
stream, with its bytes, has been taken out. -/
inductive Slot where
  | occupied (saved : StoredStreamMeta)
  | vacant (shard : Shard) (removed : Nat)

/-- Look up the name of a create, dropping the stream there if it has expired. -/
def claimName (name : String) (shard : Shard) : Slot :=
  match shard.streams.lookup name with
  | none => .vacant shard 0
  | some saved =>
      if isStreamExpired clock.expiry saved.config then
        .vacant (shard.removeStream name) saved.totalBytes
      else .occupied saved

/-- The section of `read`, on a snapshot of the shard. -/
def readTxn (name : String) (fromOffset : Offset) (shard : Shard) : Result ReadResult :=
  match shard.streams.lookup name with
  | none => .error (.notFound name)
  | some saved =>
      if isStreamExpired clock.expiry saved.config then .error .streamExpired
      else if fromOffset.isNow then .ok ⟨[], saved.nextOffset, true, saved.closed⟩
      else
        match if fromOffset.isStart then some (0, 0) else fromOffset.parseComponents with
        | none => .error (.invalidOffset "non-concrete offset in read range")
        | some (readSeq, byteOffset) =>
            let found := shard.messages.range (messageKey name readSeq byteOffset) (lastKey name)
            .ok ⟨found.map Prod.snd, saved.nextOffset, true, saved.closed⟩

/-- The section of `head`, on a snapshot of the shard. -/
def headTxn (name : String) (shard : Shard) : Result StreamMetadata :=
  match shard.streams.lookup name with
  | none => .error (.notFound name)
  | some saved =>
      if isStreamExpired clock.expiry saved.config then .error .streamExpired
      else .ok ⟨saved.config, saved.nextOffset, saved.closed, saved.totalBytes, saved.nextReadSeq,
        saved.createdAt⟩

end Transactions

/-! ## Operations -/

section Operations

variable {config : Config} (clock : Clock) (storage : AcidStorage config)

/-- `append`. -/
def append (name : String) (data : Bytes) (contentType : String) :
    Result Offset × AcidStorage config :=
  match reserveTotalBytes config.limits storage.totalBytes (byteLen data) with
  | .error error => (.error error, storage)
  | .ok reserved =>
      let storage := { storage with totalBytes := reserved }
      match appendTxn config.limits clock name data contentType (storage.shard name) with
      | .error error => (.error error, storage.subTotalBytes (byteLen data))
      | .ok (offset, shard) => (.ok offset, (storage.commit name shard).notifyStream name)

/-- `batch_append`. -/
def batchAppend (name : String) (messages : List Bytes) (contentType : String)
    (seq : Option String) : Result Offset × AcidStorage config :=
  if messages.isEmpty then
    (.error (.invalidHeader "Content-Length" "batch cannot be empty"), storage)
  else
    match reserveTotalBytes config.limits storage.totalBytes (batchBytes messages) with
    | .error error => (.error error, storage)
    | .ok reserved =>
        let storage := { storage with totalBytes := reserved }
        match batchAppendTxn config.limits clock name messages contentType seq
            (storage.shard name) with
        | .error error => (.error error, storage.subTotalBytes (batchBytes messages))
        | .ok (offset, shard) => (.ok offset, (storage.commit name shard).notifyStream name)

/-- `append_with_producer`. The bytes are reserved before the request is checked. -/
def appendWithProducer (name : String) (messages : List Bytes) (contentType : String)
    (producer : ProducerHeaders) (shouldClose : Bool) (seq : Option String) :
    Result ProducerAppendResult × AcidStorage config :=
  match reserveTotalBytes config.limits storage.totalBytes (batchBytes messages) with
  | .error error => (.error error, storage)
  | .ok reserved =>
      let storage := { storage with totalBytes := reserved }
      let notified (storage : AcidStorage config) :=
        if !messages.isEmpty || shouldClose then storage.notifyStream name else storage
      match appendWithProducerTxn config.limits clock name messages contentType producer shouldClose
          seq (storage.shard name) with
      | .error error => (.error error, storage.subTotalBytes (batchBytes messages))
      | .ok (result, none) => (.ok result, notified (storage.subTotalBytes (batchBytes messages)))
      | .ok (result, some shard) => (.ok result, notified (storage.commit name shard))

/-- Take the bytes of a removed expired stream off the counter and close its channel. -/
def releaseExpired (name : String) (removed : Nat) : AcidStorage config :=
  if 0 < removed then (storage.subTotalBytes removed).dropNotifier name else storage

/-- `create_stream`. -/
def createStream (name : String) (streamConfig : StreamConfig) :
    Result CreateStreamResult × AcidStorage config :=
  match claimName clock name (storage.shard name) with
  | .occupied saved =>
      if saved.config.partialEq streamConfig then (.ok .alreadyExists, storage)
      else (.error .configMismatch, storage)
  | .vacant shard removed =>
      let shard := shard.write name (.new clock.stamp streamConfig, shard.messages)
      (.ok .created, releaseExpired (storage.commit name shard) name removed)

/-- `create_stream_with_data`. The bytes of an expired stream are released after those of the new
one were reserved. -/
def createStreamWithData (name : String) (streamConfig : StreamConfig) (messages : List Bytes)
    (shouldClose : Bool) : Result CreateWithDataResult × AcidStorage config :=
  let bytes := batchBytes messages
  match claimName clock name (storage.shard name) with
  | .occupied saved =>
      if saved.config.partialEq streamConfig then
        (.ok ⟨.alreadyExists, saved.nextOffset, saved.closed⟩,
          if shouldClose || !messages.isEmpty then storage.notifyStream name else storage)
      else (.error .configMismatch, storage)
  | .vacant shard removed =>
      match if 0 < bytes then reserveTotalBytes config.limits storage.totalBytes bytes
          else .ok storage.totalBytes with
      | .error error => (.error error, storage)
      | .ok reserved =>
          let storage := { storage with totalBytes := reserved }
          let saved := StoredStreamMeta.new clock.stamp streamConfig
          if 0 < bytes ∧ config.limits.maxStreamBytes.toNat < wrap64 (saved.totalBytes + bytes) then
            (.error .streamSizeLimitExceeded, storage.subTotalBytes bytes)
          else
            let (written, table) :=
              if 0 < bytes then insertMessages name messages saved shard.messages
              else (saved, shard.messages)
            let written := written.closeIf shouldClose
            let storage := releaseExpired (storage.commit name (shard.write name (written, table)))
              name removed
            (.ok ⟨.created, written.nextOffset, written.closed⟩,
              if shouldClose || !messages.isEmpty then storage.notifyStream name else storage)

/-- `delete`. An expired stream can still be deleted. -/
def delete (name : String) : Result Unit × AcidStorage config :=
  match (storage.shard name).streams.lookup name with
  | none => (.error (.notFound name), storage)
  | some saved =>
      let storage := storage.commit name ((storage.shard name).removeStream name)
      (.ok (), (storage.subTotalBytes saved.totalBytes).dropNotifier name)

/-- `close_stream`. -/
def closeStream (name : String) : Result Unit × AcidStorage config :=
  match closeTxn clock name (storage.shard name) with
  | .error error => (.error error, storage)
  | .ok shard => (.ok (), (storage.commit name shard).notifyStream name)

/-- `exists`. -/
def existsStream (name : String) : Bool :=
  match (storage.shard name).streams.lookup name with
  | none => false
  | some saved => !isStreamExpired clock.expiry saved.config

/-- `subscribe`. The channel of a stream is opened when somebody subscribes to it. -/
def subscribe (name : String) : Option Receiver × AcidStorage config :=
  match (storage.shard name).streams.lookup name with
  | none => (none, storage)
  | some saved =>
      if isStreamExpired clock.expiry saved.config then (none, storage)
      else
        match storage.notifiers.lookup name with
        | some sent => (some ⟨sent⟩, storage)
        | none => (some ⟨0⟩, { storage with notifiers := storage.notifiers.insert name 0 })

/-- Run one call of the storage trait. -/
def step (call : Call) (storage : AcidStorage config) : Reply × AcidStorage config :=
  let clock := call.clock
  match call.op with
  | .createStream name streamConfig => (createStream clock storage name streamConfig).map .created id
  | .append name data contentType _ => (append clock storage name data contentType).map .offset id
  | .batchAppend name messages contentType seq _ =>
      (batchAppend clock storage name messages contentType seq).map .offset id
  | .read name fromOffset => (.read (readTxn clock name fromOffset (storage.shard name)), storage)
  | .delete name => (delete storage name).map .done id
  | .head name => (.metadata (headTxn clock name (storage.shard name)), storage)
  | .closeStream name => (closeStream clock storage name).map .done id
  | .appendWithProducer name messages contentType producer shouldClose seq _ =>
      (appendWithProducer clock storage name messages contentType producer shouldClose seq).map
        .producer id
  | .createStreamWithData name streamConfig messages shouldClose _ =>
      (createStreamWithData clock storage name streamConfig messages shouldClose).map
        .createdWithData id
  | .exists name => (.exists (existsStream clock storage name), storage)
  | .subscribe name => (subscribe clock storage name).map .receiver id

/-- What a call leaves if a database call of its transaction fails: bytes that were reserved are
given back, and nothing is committed. -/
def abort (call : Call) : AcidStorage config :=
  let bytes := batchBytes call.op.messages
  match reserveTotalBytes config.limits storage.totalBytes bytes with
  | .error _ => storage
  | .ok reserved => { storage with totalBytes := reserved }.subTotalBytes bytes

end Operations

/-! ## Opening existing databases -/

section Reopening

/-- `u64::saturating_add`. -/
def saturatingAdd (left right : Nat) : Nat := min (left + right) (2 ^ 64 - 1)

/-- The names in the table of streams, in the order of the table. -/
def Shard.names (shard : Shard) : List String := shard.streams.keys.sort (· ≤ ·)

/-- Whether a shard has a stream that has expired. Every stream is looked at on its own, so each may
see another time. -/
def Shard.expired (now : String → Timestamp) (shard : Shard) (name : String) : Bool :=
  match shard.streams.lookup name with
  | none => false
  | some saved => isStreamExpired (now name) saved.config

/-- The bytes of a stream of a shard. -/
def Shard.streamBytes (shard : Shard) (name : String) : Nat :=
  match shard.streams.lookup name with
  | none => 0
  | some saved => saved.totalBytes

/-- `rebuild_shard`: sum up the bytes of the live streams and remove the expired ones. -/
def rebuildShard (now : String → Timestamp) (shard : Shard) : Nat × Shard :=
  let liveBytes := shard.names.foldl (fun live name =>
    if shard.expired now name then live else saturatingAdd live (shard.streamBytes name)) 0
  let expiredNames := shard.names.filter (shard.expired now)
  (liveBytes, expiredNames.foldl Shard.removeStream shard)

/-- Open the databases again. No channel is open then. -/
def AcidStorage.reopen {config : Config} (now : String → Timestamp) (storage : AcidStorage config) :
    AcidStorage config where
  shards := fun index => (rebuildShard now (storage.shards index)).2
  totalBytes := (List.finRange config.shardCount).foldl (fun total index =>
    saturatingAdd total (rebuildShard now (storage.shards index)).1) 0
  notifiers := ∅

end Reopening

end DurableStreams.Acid
