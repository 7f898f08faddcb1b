import DurableStreams.Lib.BinarySearch
import DurableStreams.Lib.RecordLog
import DurableStreams.Storage.File.Disk

/-!
# File-backed storage

The operations of `FileStorage` (`storage/file.rs`), each run to completion. A stream entry keeps an
index of record positions into the stream's `data.log`; the payloads are on disk only. `Faults` says
which file-system calls of an operation fail, with the error text of the operating system; with
`Faults.none` every call succeeds. As in the in-memory storage, an operation that fails keeps
whatever it changed before it failed. `reopen` is `FileStorage::new` on an existing directory.
-/

namespace DurableStreams.File

open Lib

/-- Where a message is: its offset, the position of its payload in the log, and its length. -/
structure MessageIndex where
  offset : Offset
  filePos : Nat
  byteLen : Nat
  deriving DecidableEq, Repr

/-- The internal state of one stream. `fileLen` is the cached length of its log. -/
structure StreamEntry where
  config : StreamConfig
  index : List MessageIndex
  closed : Bool
  nextReadSeq : Nat
  nextByteOffset : Nat
  totalBytes : Nat
  createdAt : Timestamp
  producers : HashMap ProducerState
  notify : Nat
  lastSeq : Option String
  fileLen : Nat
  dir : String
  deriving DecidableEq

/-- Which file-system calls of an operation fail. A failing write first persists some bytes of its
buffer; `stat` is the length query that follows a failed write or sync. -/
structure Faults where
  createDir : Option String
  openLog : Option String
  write : Option (Nat × String)
  sync : Option String
  stat : Bool
  writeTmp : Option String
  rename : Option String
  removeDir : Option String
  readLog : Option String
  deriving DecidableEq

/-- No call fails. -/
def Faults.none : Faults :=
  ⟨Option.none, Option.none, Option.none, Option.none, false, Option.none, Option.none,
    Option.none, Option.none⟩

namespace StreamEntry

/-- A new, open and empty stream over a log of the given length. -/
def new (now : Timestamp) (config : StreamConfig) (fileLen : Nat) (dir : String) : StreamEntry where
  config := config
  index := []
  closed := false
  nextReadSeq := 0
  nextByteOffset := 0
  totalBytes := 0
  createdAt := now
  producers := ∅
  notify := 0
  lastSeq := none
  fileLen := fileLen
  dir := dir

/-- The offset the next message will get. -/
def nextOffset (stream : StreamEntry) : Offset :=
  Offset.new stream.nextReadSeq stream.nextByteOffset

/-- Index one record behind the cached end of the log and advance the counters. -/
def pushRecord (stream : StreamEntry) (data : Bytes) : StreamEntry :=
  { stream with
    index := stream.index ++ [⟨stream.nextOffset, stream.fileLen + 4, byteLen data⟩]
    nextReadSeq := wrap64 (stream.nextReadSeq + 1)
    nextByteOffset := wrap64 (stream.nextByteOffset + byteLen data)
    totalBytes := wrap64 (stream.totalBytes + byteLen data)
    fileLen := stream.fileLen + (4 + byteLen data) }

/-- Wake the stream's subscribers. -/
def notifyAll (stream : StreamEntry) : StreamEntry :=
  { stream with notify := stream.notify + 1 }

/-- Remember a validated Stream-Seq value, if the request had one. -/
def recordSeq (pending : Option String) (stream : StreamEntry) : StreamEntry :=
  match pending with
  | some newSeq => { stream with lastSeq := some newSeq }
  | none => stream

/-- Close the stream if asked to. -/
def closeIf (shouldClose : Bool) (stream : StreamEntry) : StreamEntry :=
  if shouldClose then { stream with closed := true } else stream

/-- Remember the producer's accepted epoch and sequence number. -/
def recordProducer (now : Timestamp) (producer : ProducerHeaders) (stream : StreamEntry) :
    StreamEntry :=
  { stream with
    producers := stream.producers.insert producer.id ⟨producer.epoch, producer.seq, now⟩ }

/-- Forget the producers whose state is stale at `now`. -/
def cleanup (now : Timestamp) (stream : StreamEntry) : StreamEntry :=
  { stream with producers := cleanupStaleProducers now stream.producers }

/-- The metadata that is persisted for the stream. -/
def metadata (name : String) (stream : StreamEntry) : StreamMeta :=
  ⟨name, stream.config, stream.closed, stream.createdAt, stream.lastSeq, stream.producers⟩

end StreamEntry

/-- The storage: its streams, the global byte counter and the disk. -/
structure FileStorage where
  streams : HashMap StreamEntry
  totalBytes : Nat
  disk : Disk
  deriving DecidableEq

/-- Change the files in a directory. -/
def FileStorage.act (storage : FileStorage) (dir : String) (actions : List DirAction) :
    FileStorage :=
  { storage with disk := Disk.within dir actions storage.disk }

/-- What a section under a stream lock leaves behind, with the changes it made in the directory of
the stream. -/
structure Outcome (α : Type) where
  result : Result α
  total : Nat
  stream : StreamEntry
  actions : List DirAction

/-! ## Writing -/

section Writing

variable (config : Config) (faults : Faults)

/-- `write_metadata_for`: write the temporary file, then rename it into place. -/
def writeMetadataFor (name : String) (stream : StreamEntry) : Result Unit × List DirAction :=
  match validateStreamDir config stream.dir with
  | .error error => (.error error, [])
  | .ok () =>
      let path := config.rootDir ++ "/" ++ stream.dir
      match faults.writeTmp with
      | some error =>
          (.error (.storage ("failed to write metadata temp file " ++ path ++ "/meta.json.tmp: " ++
            error)), [])
      | none =>
          match faults.rename with
          | some error =>
              (.error (.storage ("failed to atomically replace metadata " ++ path ++
                "/meta.json: " ++ error)), [.writeTmp (stream.metadata name)])
          | none =>
              (.ok (), [.writeTmp (stream.metadata name), .renameMeta])

/-- A failed write or sync: the cached length is refreshed and the reservation given back. -/
def failedAppend (stream : StreamEntry) (total bytes logLen : Nat) (persisted : Bytes)
    (message : String) : Outcome Unit where
  result := .error (.storage message)
  total := total - bytes
  stream := if faults.stat then stream else { stream with fileLen := logLen + persisted.length }
  actions := [.appendLog persisted]

/-- `append_records`: check the sizes and limits, write all records in one buffer, then index
them. `logLen` is the real length of the log. -/
def appendRecords (name : String) (total logLen : Nat) (stream : StreamEntry)
    (messages : List Bytes) : Outcome Unit :=
  if messages.isEmpty then ⟨.ok (), total, stream, []⟩
  else if messages.any fun data => 2 ^ 32 - 1 < byteLen data then
    ⟨.error (.invalidHeader "Content-Length" "message too large for file record format"), total,
      stream, []⟩
  else
    let bytes := batchBytes messages
    if config.limits.maxTotalBytes.toNat < wrap64 (total + bytes) then
      ⟨.error .memoryLimitExceeded, total, stream, []⟩
    else if config.limits.maxStreamBytes.toNat < wrap64 (stream.totalBytes + bytes) then
      ⟨.error .streamSizeLimitExceeded, total, stream, []⟩
    else
      let reserved := wrap64 (total + bytes)
      let buffer := encodeRecords messages
      match faults.write with
      | some (persisted, error) =>
          failedAppend faults stream reserved bytes logLen (buffer.take persisted)
            ("failed to append stream log for " ++ name ++ ": " ++ error)
      | none =>
          match if config.syncOnAppend then faults.sync else none with
          | some error =>
              failedAppend faults stream reserved bytes logLen buffer
                ("failed to sync stream log for " ++ name ++ ": " ++ error)
          | none =>
              ⟨.ok (), reserved, (messages.foldl StreamEntry.pushRecord stream).notifyAll,
                [.appendLog buffer]⟩

/-- The section of `append`. Plain appends change no persisted metadata. -/
def appendSection (clock : Clock) (name : String) (data : Bytes) (contentType : String)
    (total logLen : Nat) (stream : StreamEntry) : Outcome Offset :=
  if isStreamExpired clock.expiry stream.config then ⟨.error .streamExpired, total, stream, []⟩
  else if stream.closed then ⟨.error .streamClosed, total, stream, []⟩
  else
    match validateContentType stream.config.contentType contentType with
    | .error error => ⟨.error error, total, stream, []⟩
    | .ok () =>
        let offset := stream.nextOffset
        let written := appendRecords config faults name total logLen stream [data]
        ⟨written.result.map fun _ => offset, written.total, written.stream, written.actions⟩

/-- The section of `batch_append`. Metadata is persisted only if Stream-Seq changed, and a failure
to persist it is ignored. -/
def batchAppendSection (clock : Clock) (name : String) (messages : List Bytes)
    (contentType : String) (seq : Option String) (total logLen : Nat) (stream : StreamEntry) :
    Outcome Offset :=
  if isStreamExpired clock.expiry stream.config then ⟨.error .streamExpired, total, stream, []⟩
  else if stream.closed then ⟨.error .streamClosed, total, stream, []⟩
  else
    match validateContentType stream.config.contentType contentType with
    | .error error => ⟨.error error, total, stream, []⟩
    | .ok () =>
        match validateSeq stream.lastSeq seq with
        | .error error => ⟨.error error, total, stream, []⟩
        | .ok pending =>
            let written := appendRecords config faults name total logLen stream messages
            match written.result with
            | .error error => ⟨.error error, written.total, written.stream, written.actions⟩
            | .ok () =>
                let stream := written.stream.recordSeq pending
                let persisted :=
                  if pending.isSome then (writeMetadataFor config faults name stream).2 else []
                ⟨.ok stream.nextOffset, written.total, stream, written.actions ++ persisted⟩

/-- The section of `append_with_producer`. A failure to persist the metadata is ignored. -/
def appendWithProducerSection (clock : Clock) (name : String) (messages : List Bytes)
    (contentType : String) (producer : ProducerHeaders) (shouldClose : Bool)
    (seq : Option String) (total logLen : Nat) (stream : StreamEntry) :
    Outcome ProducerAppendResult :=
  if isStreamExpired clock.expiry stream.config then ⟨.error .streamExpired, total, stream, []⟩
  else
    let stream := stream.cleanup clock.cleanup
    match if messages.isEmpty then .ok ()
        else validateContentType stream.config.contentType contentType with
    | .error error => ⟨.error error, total, stream, []⟩
    | .ok () =>
        match checkProducer (stream.producers.lookup producer.id) producer stream.closed with
        | .error error => ⟨.error error, total, stream, []⟩
        | .ok (.duplicate epoch seq) =>
            ⟨.ok (.duplicate epoch seq stream.nextOffset stream.closed), total, stream, []⟩
        | .ok .accept =>
            match validateSeq stream.lastSeq seq with
            | .error error => ⟨.error error, total, stream, []⟩
            | .ok pending =>
                let written := appendRecords config faults name total logLen stream messages
                match written.result with
                | .error error => ⟨.error error, written.total, written.stream, written.actions⟩
                | .ok () =>
                    let stream := ((written.stream.recordSeq pending).closeIf
                      shouldClose).recordProducer clock.stamp producer
                    ⟨.ok (.accepted producer.epoch producer.seq stream.nextOffset stream.closed),
                      written.total, stream,
                      written.actions ++ (writeMetadataFor config faults name stream).2⟩

/-- The section of `close_stream`. The stream is closed in memory even if persisting that fails. -/
def closeSection (clock : Clock) (name : String) (total : Nat) (stream : StreamEntry) :
    Outcome Unit :=
  if isStreamExpired clock.expiry stream.config then ⟨.error .streamExpired, total, stream, []⟩
  else
    let stream := { stream with closed := true }
    match writeMetadataFor config faults name stream with
    | (.error error, actions) => ⟨.error error, total, stream, actions⟩
    | (.ok (), actions) => ⟨.ok (), total, stream.notifyAll, actions⟩

end Writing

/-! ## Reading -/

/-- `read_messages`: one bulk read from the first record's payload to the end of the last one, cut
up by the index. Reading past the end of the log is an error. -/
def readMessages (faults : Faults) (log : Bytes) (slice : List MessageIndex) :
    Result (List Bytes) :=
  match slice.head?, slice.getLast? with
  | some first, some last =>
      match faults.readLog with
      | some error => .error (.storage ("failed to read message data: " ++ error))
      | none =>
          let readLen := last.filePos + last.byteLen - first.filePos
          if readLen ≠ 0 ∧ log.length < first.filePos + readLen then
            .error (.storage "failed to read message data: failed to fill whole buffer")
          else
            let raw := (log.drop first.filePos).take readLen
            .ok (slice.map fun entry => (raw.drop (entry.filePos - first.filePos)).take entry.byteLen)
  | _, _ => .ok []

/-- The position of the first message a read from a start or concrete offset returns. -/
def startIndex (stream : StreamEntry) (fromOffset : Offset) : Nat :=
  if fromOffset.isStart then 0
  else searchIndex (binarySearchBy (fun entry => entry.offset.cmp fromOffset) stream.index)

/-- The section of `read`. -/
def readSection (faults : Faults) (clock : Clock) (fromOffset : Offset) (log : Bytes)
    (stream : StreamEntry) : Result ReadResult :=
  if isStreamExpired clock.expiry stream.config then .error .streamExpired
  else if fromOffset.isNow then .ok ⟨[], stream.nextOffset, true, stream.closed⟩
  else
    let start := startIndex stream fromOffset
    match readMessages faults log (stream.index.drop start) with
    | .error error => .error error
    | .ok messages =>
        .ok ⟨messages, stream.nextOffset, decide (stream.index.length ≤ start + messages.length),
          stream.closed⟩

/-- The section of `head`. -/
def headSection (clock : Clock) (stream : StreamEntry) : Result StreamMetadata :=
  if isStreamExpired clock.expiry stream.config then .error .streamExpired
  else
    .ok ⟨stream.config, stream.nextOffset, stream.closed, stream.totalBytes, stream.index.length,
      stream.createdAt⟩

/-! ## Operations -/

/-- The bytes of a stream's log on disk. -/
def FileStorage.log (storage : FileStorage) (dir : String) : Bytes :=
  match storage.disk.lookup dir with
  | some found => found.logBytes
  | none => []

/-- Find a stream, run a section on it under its lock and keep what the section leaves, in memory
and on disk. -/
def withStream {α : Type} (storage : FileStorage) (name : String)
    (body : Nat → Nat → StreamEntry → Outcome α) : Result α × FileStorage :=
  match storage.streams.lookup name with
  | none => (.error (.notFound name), storage)
  | some stream =>
      let outcome := body storage.totalBytes (storage.log stream.dir).length stream
      (outcome.result,
        ⟨storage.streams.insert name outcome.stream, outcome.total,
          Disk.within stream.dir outcome.actions storage.disk⟩)

/-- Find a stream and read from it under its lock. -/
def readStream {α : Type} (storage : FileStorage) (name : String)
    (body : Bytes → StreamEntry → Result α) : Result α :=
  match storage.streams.lookup name with
  | none => .error (.notFound name)
  | some stream => body (storage.log stream.dir) stream

section Operations

variable (config : Config) (faults : Faults)

/-- Take a stream out of the map and its bytes off the global counter, then remove its directory.
If the removal fails the stream is gone from memory all the same. -/
def removeStream (storage : FileStorage) (name : String) (stream : StreamEntry) :
    Result Unit × FileStorage :=
  let storage : FileStorage :=
    ⟨storage.streams.erase name, storage.totalBytes - stream.totalBytes, storage.disk⟩
  match validateStreamDir config stream.dir with
  | .error error => (.error error, storage)
  | .ok () =>
      match faults.removeDir with
      | some error =>
          (.error (.storage ("failed to remove stream directory " ++ config.rootDir ++ "/" ++
            stream.dir ++ ": " ++ error)), storage)
      | none => (.ok (), { storage with disk := storage.disk.erase stream.dir })

/-- What a create finds under its name: a live stream, a failure to remove an expired one, or room
for a new one. -/
inductive Slot where
  | occupied (stream : StreamEntry)
  | failed (error : Error) (storage : FileStorage)
  | vacant (storage : FileStorage)

/-- Look up the name of a create, dropping the stream there if it has expired. -/
def claimName (clock : Clock) (storage : FileStorage) (name : String) : Slot :=
  match storage.streams.lookup name with
  | none => .vacant storage
  | some stream =>
      if isStreamExpired clock.expiry stream.config then
        match removeStream config faults storage name stream with
        | (.error error, storage) => .failed error storage
        | (.ok (), storage) => .vacant storage
      else .occupied stream

/-- Create the directory of a new stream, open its log and make an entry over it. -/
def prepareEntry (clock : Clock) (storage : FileStorage) (name : String)
    (streamConfig : StreamConfig) : Result StreamEntry × FileStorage :=
  match streamDirForName name with
  | .error error => (.error error, storage)
  | .ok dir =>
      let path := config.rootDir ++ "/" ++ dir
      match faults.createDir with
      | some error =>
          (.error (.storage ("failed to create stream directory " ++ path ++ ": " ++ error)), storage)
      | none =>
          let storage := { storage with disk := Disk.createDir dir storage.disk }
          match validateStreamDir config dir with
          | .error error => (.error error, storage)
          | .ok () =>
              match faults.openLog with
              | some error =>
                  (.error (.storage ("failed to open stream log " ++ path ++ "/data.log: " ++
                    error)), storage)
              | none =>
                  let storage := storage.act dir [.openLog]
                  (.ok (.new clock.stamp streamConfig (storage.log dir).length dir), storage)

/-- Persist the metadata of a new entry and put the entry into the map. -/
def installEntry {α : Type} (storage : FileStorage) (name : String) (entry : StreamEntry)
    (reply : α) : Result α × FileStorage :=
  match writeMetadataFor config faults name entry with
  | (.error error, actions) => (.error error, storage.act entry.dir actions)
  | (.ok (), actions) =>
      (.ok reply,
        { storage.act entry.dir actions with streams := storage.streams.insert name entry })

/-- `create_stream`. -/
def createStream (clock : Clock) (storage : FileStorage) (name : String)
    (streamConfig : StreamConfig) : Result CreateStreamResult × FileStorage :=
  match claimName config faults clock storage name with
  | .occupied stream =>
      if stream.config.partialEq streamConfig then (.ok .alreadyExists, storage)
      else (.error .configMismatch, storage)
  | .failed error storage => (.error error, storage)
  | .vacant storage =>
      match prepareEntry config faults clock storage name streamConfig with
      | (.error error, storage) => (.error error, storage)
      | (.ok entry, storage) => installEntry config faults storage name entry .created

/-- `create_stream_with_data`. When the data is refused the new directory and its empty log stay
behind. -/
def createStreamWithData (clock : Clock) (storage : FileStorage) (name : String)
    (streamConfig : StreamConfig) (messages : List Bytes) (shouldClose : Bool) :
    Result CreateWithDataResult × FileStorage :=
  match claimName config faults clock storage name with
  | .occupied stream =>
      if stream.config.partialEq streamConfig then
        (.ok ⟨.alreadyExists, stream.nextOffset, stream.closed⟩, storage)
      else (.error .configMismatch, storage)
  | .failed error storage => (.error error, storage)
  | .vacant storage =>
      match prepareEntry config faults clock storage name streamConfig with
      | (.error error, storage) => (.error error, storage)
      | (.ok entry, storage) =>
          let written := appendRecords config faults name storage.totalBytes
            (storage.log entry.dir).length entry messages
          let storage := { storage.act entry.dir written.actions with totalBytes := written.total }
          match written.result with
          | .error error => (.error error, storage)
          | .ok () =>
              let entry := written.stream.closeIf shouldClose
              installEntry config faults storage name entry
                ⟨.created, entry.nextOffset, entry.closed⟩

/-- `delete`. An expired stream can still be deleted. -/
def delete (storage : FileStorage) (name : String) : Result Unit × FileStorage :=
  match storage.streams.lookup name with
  | none => (.error (.notFound name), storage)
  | some stream => removeStream config faults storage name stream

/-- `batch_append`. An empty batch is refused before the stream is looked up. -/
def batchAppend (clock : Clock) (storage : FileStorage) (name : String) (messages : List Bytes)
    (contentType : String) (seq : Option String) : Result Offset × FileStorage :=
  if messages.isEmpty then
    (.error (.invalidHeader "Content-Length" "batch cannot be empty"), storage)
  else
    withStream storage name (batchAppendSection config faults clock name messages contentType seq)

/-- `exists`. -/
def existsStream (clock : Clock) (storage : FileStorage) (name : String) : Bool :=
  match storage.streams.lookup name with
  | none => false
  | some stream => !isStreamExpired clock.expiry stream.config

/-- `subscribe`. -/
def subscribe (clock : Clock) (storage : FileStorage) (name : String) : Option Receiver :=
  match storage.streams.lookup name with
  | none => none
  | some stream =>
      if isStreamExpired clock.expiry stream.config then none else some ⟨stream.notify⟩

/-- Run one call of the storage trait. -/
def step (call : Call) (storage : FileStorage) : Reply × FileStorage :=
  let clock := call.clock
  match call.op with
  | .createStream name streamConfig =>
      (createStream config faults clock storage name streamConfig).map .created id
  | .append name data contentType _ =>
      (withStream storage name
        (appendSection config faults clock name data contentType)).map .offset id
  | .batchAppend name messages contentType seq _ =>
      (batchAppend config faults clock storage name messages contentType seq).map .offset id
  | .read name fromOffset =>
      (.read (readStream storage name (readSection faults clock fromOffset)), storage)
  | .delete name => (delete config faults storage name).map .done id
  | .head name => (.metadata (readStream storage name fun _ => headSection clock), storage)
  | .closeStream name =>
      (withStream storage name fun total _ =>
        closeSection config faults clock name total).map .done id
  | .appendWithProducer name messages contentType producer shouldClose seq _ =>
      (withStream storage name
        (appendWithProducerSection config faults clock name messages contentType producer
          shouldClose seq)).map .producer id
  | .createStreamWithData name streamConfig messages shouldClose _ =>
      (createStreamWithData config faults clock storage name streamConfig messages
        shouldClose).map .createdWithData id
  | .exists name => (.exists (existsStream clock storage name), storage)
  | .subscribe name => (.receiver (subscribe clock storage name), storage)

end Operations

/-! ## Reopening -/

/-- What `rebuild_index` makes of a log: the index, the two counters, and the length the log is cut
to. -/
structure Rebuilt where
  index : List MessageIndex
  nextReadSeq : Nat
  nextByteOffset : Nat
  length : Nat
  deriving DecidableEq

/-- The loop of `rebuild_index`. A partial record at the end is cut off. -/
def rebuildLoop (log : Bytes) : Nat → Nat → Rebuilt → Rebuilt
  | 0, _, rebuilt => rebuilt
  | fuel + 1, cursor, rebuilt =>
      if cursor < log.length then
        let header := (log.drop cursor).take 4
        if header.length < 4 then { rebuilt with length := cursor }
        else
          let recordLen := decodeLe header
          let recordEnd := cursor + 4 + recordLen
          if log.length < recordEnd then { rebuilt with length := cursor }
          else
            rebuildLoop log fuel recordEnd
              { rebuilt with
                index := rebuilt.index ++ [⟨Offset.new rebuilt.nextReadSeq rebuilt.nextByteOffset,
                  cursor + 4, recordLen⟩]
                nextReadSeq := wrap64 (rebuilt.nextReadSeq + 1)
                nextByteOffset := wrap64 (rebuilt.nextByteOffset + recordLen) }
      else rebuilt

/-- `rebuild_index`: parse the log from the start. -/
def rebuildIndex (log : Bytes) : Rebuilt :=
  rebuildLoop log (log.length + 1) 0 ⟨[], 0, 0, log.length⟩

/-- The entry of a stream loaded from its directory. -/
def loadEntry (dir : String) (log : Bytes) (saved : StreamMeta) : StreamEntry :=
  let rebuilt := rebuildIndex log
  { config := saved.config
    index := rebuilt.index
    closed := saved.closed
    nextReadSeq := rebuilt.nextReadSeq
    nextByteOffset := rebuilt.nextByteOffset
    totalBytes := rebuilt.nextByteOffset
    createdAt := saved.createdAt
    producers := saved.producers
    notify := 0
    lastSeq := saved.lastSeq
    fileLen := rebuilt.length
    dir := dir }

/-- Load one directory. A directory without metadata is skipped and an expired stream removed. -/
def loadStream (now : Timestamp) (storage : FileStorage) (dir : String) : FileStorage :=
  match storage.disk.lookup dir with
  | none => storage
  | some found =>
      match found.metaJson with
      | none => storage
      | some saved =>
          let entry := loadEntry dir found.logBytes saved
          if isStreamExpired now entry.config then
            { storage with disk := storage.disk.erase dir }
          else
            { streams := storage.streams.insert saved.name entry
              totalBytes := min (storage.totalBytes + entry.totalBytes) (2 ^ 64 - 1)
              disk := storage.disk.insert dir
                { found with log := some (found.logBytes.take entry.fileLen) } }

/-- `FileStorage::new` on an existing disk: `load_existing_streams` goes through the directories in
the order in which the operating system lists them. -/
def reopen (now : Timestamp) (listing : List String) (disk : Disk) : FileStorage :=
  listing.foldl (loadStream now) ⟨∅, 0, disk⟩

end DurableStreams.File
