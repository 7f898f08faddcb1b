import DurableStreams.Storage.File.Index
import DurableStreams.Storage.Memory.Invariant

/-!
# File-backed streams mirror in-memory streams

`StreamEntry.ofMemory` is the entry the file backend keeps for a stream of the in-memory backend:
the same fields, with the index of the payloads in place of the payloads. `Stored` says that the
directory of the stream holds its payloads and its metadata. With no file-system call failing, every
section of the file backend `Mirrors` the one of the in-memory backend: the same result, the same
counter, and an entry and a directory that belong to the stream the in-memory section leaves.
-/

namespace DurableStreams.File

open Lib

/-- The file-backed entry of a stream. Its subscribers are counted on their own: a plain append
wakes them in this backend only. -/
@[simps]
def StreamEntry.ofMemory (name : String) (notify : Nat) (stream : Memory.StreamEntry) :
    StreamEntry where
  config := stream.config
  index := indexOf stream.payloads
  closed := stream.closed
  nextReadSeq := stream.nextReadSeq
  nextByteOffset := stream.nextByteOffset
  totalBytes := stream.totalBytes
  createdAt := stream.createdAt
  producers := stream.producers
  notify := notify
  lastSeq := stream.lastSeq
  fileLen := (encodeRecords stream.payloads).length
  dir := encodeName name

/-- A directory whose log holds exactly the payloads of the stream. -/
structure Logged (stream : Memory.StreamEntry) (found : Dir) : Prop where
  log : found.log = some (encodeRecords stream.payloads)
  sizes : ∀ data ∈ stream.payloads, data.length < 2 ^ 32

/-- Metadata that agrees with the stream, up to producer records that are stale at the horizon. -/
structure Saved (horizon : Timestamp) (name : String) (stream : Memory.StreamEntry)
    (saved : StreamMeta) : Prop where
  name : saved.name = name
  config : saved.config = stream.config
  closed : saved.closed = stream.closed
  createdAt : saved.createdAt = stream.createdAt
  lastSeq : saved.lastSeq = stream.lastSeq
  producers : cleanupStaleProducers horizon saved.producers =
    cleanupStaleProducers horizon stream.producers

/-- A directory that holds the payloads and the metadata of the stream. -/
structure Stored (horizon : Timestamp) (name : String) (stream : Memory.StreamEntry)
    (found : Dir) : Prop extends Logged stream found where
  saved : ∃ saved, found.metaJson = some saved ∧ Saved horizon name stream saved

variable {config : Config} {horizon : Timestamp} {name : String} {notify total logLen : Nat}
  {stream after : Memory.StreamEntry} {found : Dir} {messages : List Bytes}

/-! ## Entries -/

section Entries

/-- An entry records a Stream-Seq value as the stream does. -/
theorem of_memory_record_seq (pending : Option String) :
    (StreamEntry.ofMemory name notify stream).recordSeq pending =
      .ofMemory name notify (stream.recordSeq pending) := by
  cases pending <;> rfl

/-- An entry is closed as the stream is. -/
theorem of_memory_close_if (shouldClose : Bool) :
    (StreamEntry.ofMemory name notify stream).closeIf shouldClose =
      .ofMemory name notify (stream.closeIf shouldClose) := by
  cases shouldClose <;> rfl

/-- Indexing one record is storing one message. -/
theorem push_record_of_memory (hstream : Memory.WellFormed stream) {data : Bytes}
    (hsize : data.length < 2 ^ 32) :
    (StreamEntry.ofMemory name notify stream).pushRecord data =
      .ofMemory name notify (stream.push data) := by
  have hlen : byteLen data = data.length := byte_len_of_lt (by omega)
  have htail : (StreamEntry.ofMemory name notify stream).nextOffset = Log.tail stream.payloads :=
    hstream.next_offset
  simp only [StreamEntry.pushRecord, htail, hlen]
  simp only [StreamEntry.ofMemory, Memory.payloads_push, index_of_concat, encode_records_append,
    encode_records_cons, encode_records_nil, List.append_nil, List.length_append,
    length_encode_record]
  simp only [Memory.StreamEntry.push, hlen]

/-- Indexing a batch of records is storing a batch of messages. -/
theorem foldl_push_record_of_memory (name : String) (notify : Nat)
    (hstream : Memory.WellFormed stream)
    (hsizes : ∀ data ∈ messages, data.length < 2 ^ 32)
    (hfits : stream.totalBytes + payloadBytes messages < 2 ^ 64) :
    messages.foldl StreamEntry.pushRecord (.ofMemory name notify stream) =
      .ofMemory name notify (messages.foldl Memory.StreamEntry.push stream) := by
  induction messages generalizing stream with
  | nil => rfl
  | cons data messages ih =>
      rw [payload_bytes_cons] at hfits
      have hpush : Memory.WellFormed (stream.push data) := hstream.push (by omega)
      rw [List.foldl_cons, push_record_of_memory hstream (hsizes data (by simp)), List.foldl_cons]
      refine ih hpush (fun other hother => hsizes other (by simp [hother])) ?_
      rw [hpush.totalBytes, Memory.payloads_push, payload_bytes_append, ← hstream.totalBytes]
      simpa [payloadBytes, Nat.add_assoc] using hfits

end Entries

/-! ## Directories -/

section Directories

/-- Metadata says nothing about the messages. -/
theorem Saved.foldl_push {saved : StreamMeta} (h : Saved horizon name stream saved)
    (messages : List Bytes) :
    Saved horizon name (messages.foldl Memory.StreamEntry.push stream) saved := by
  induction messages generalizing stream with
  | nil => exact h
  | cons data messages ih =>
      exact ih ⟨h.name, h.config, h.closed, h.createdAt, h.lastSeq, h.producers⟩

/-- Dropping producer records that are stale before the horizon needs no new metadata. -/
theorem Stored.cleanup (h : Stored horizon name stream found) {now : Timestamp}
    (hnow : now ≤ horizon) : Stored horizon name (stream.cleanup now) found := by
  obtain ⟨saved, hjson, hsaved⟩ := h.saved
  refine ⟨⟨h.log, h.sizes⟩, saved, hjson, hsaved.name, hsaved.config, hsaved.closed,
    hsaved.createdAt, hsaved.lastSeq, ?_⟩
  exact hsaved.producers.trans (cleanup_cleanup hnow stream.producers).symm

/-- The change in a stream's directory when messages are appended. -/
def logActions (messages : List Bytes) : List DirAction :=
  if messages.isEmpty then [] else [.appendLog (encodeRecords messages)]

/-- The change in a stream's directory when its metadata is persisted. -/
def metaActions (name : String) (stream : Memory.StreamEntry) : List DirAction :=
  [.writeTmp ((StreamEntry.ofMemory name 0 stream).metadata name), .renameMeta]

/-- Appending records keeps the log and the stream together. -/
theorem Logged.append (h : Logged stream found)
    (hpayloads : after.payloads = stream.payloads ++ messages)
    (hsizes : ∀ data ∈ messages, data.length < 2 ^ 32) :
    Logged after (found.run (logActions messages)) := by
  refine ⟨?_, fun data hdata => ?_⟩
  · rw [hpayloads, encode_records_append]
    cases messages with
    | nil => simpa [logActions, Dir.run] using h.log
    | cons data messages => simp [logActions, Dir.run, DirAction.apply, Dir.logBytes, h.log]
  · rw [hpayloads] at hdata
    rcases List.mem_append.mp hdata with hold | hnew
    · exact h.sizes data hold
    · exact hsizes data hnew

/-- The log of a directory says nothing about the rest of an entry. -/
theorem Logged.same (h : Logged stream found) (hsame : Memory.SameLog stream after) :
    Logged after found := by
  refine ⟨?_, ?_⟩
  · rw [hsame.payloads]
    exact h.log
  · rw [hsame.payloads]
    exact h.sizes

/-- Appending records leaves the metadata alone. -/
theorem run_log_actions_meta (found : Dir) (messages : List Bytes) :
    (found.run (logActions messages)).metaJson = found.metaJson := by
  unfold logActions
  split <;> rfl

/-- Persisting the metadata stores the stream as it is. -/
theorem Logged.persist (h : Logged stream found) (horizon : Timestamp) (name : String) :
    Stored horizon name stream (found.run (metaActions name stream)) :=
  ⟨⟨h.log, h.sizes⟩, _, rfl, rfl, rfl, rfl, rfl, rfl, rfl⟩

/-- Changes made one after the other. -/
theorem run_append (first second : List DirAction) (found : Dir) :
    found.run (first ++ second) = (found.run first).run second :=
  List.foldl_append

/-- Persisting metadata succeeds when no file-system call fails. -/
theorem write_metadata_for_eq (config : Config) (hname : name ≠ "") (notify : Nat)
    (stream : Memory.StreamEntry) :
    writeMetadataFor config .none name (.ofMemory name notify stream) =
      (.ok (), metaActions name stream) := by
  have hdir : validateStreamDir config (StreamEntry.ofMemory name notify stream).dir = .ok () :=
    validate_stream_dir_ok config (encode_name_ne hname)
  simp only [writeMetadataFor, hdir, Faults.none]
  rfl

end Directories

/-! ## Appending records -/

section Appending

/-- What a stream keeps when messages are stored: everything but its log. -/
structure Stores (messages : List Bytes) (stream after : Memory.StreamEntry) : Prop where
  payloads : after.payloads = stream.payloads ++ messages
  saved : ∀ {horizon name saved}, Saved horizon name stream saved → Saved horizon name after saved

/-- A batch that was stored. -/
theorem Stores.foldl_push (messages : List Bytes) (stream : Memory.StreamEntry) :
    Stores messages stream (messages.foldl Memory.StreamEntry.push stream) :=
  ⟨Memory.payloads_foldl_push stream messages, fun h => h.foldl_push messages⟩

/-- Waking the subscribers makes no difference to that. -/
theorem Stores.store (messages : List Bytes) (stream : Memory.StreamEntry) :
    Stores messages stream (stream.store messages) := by
  refine ⟨(Stores.foldl_push messages stream).payloads, fun h => ?_⟩
  have hpush := h.foldl_push messages
  exact ⟨hpush.name, hpush.config, hpush.closed, hpush.createdAt, hpush.lastSeq, hpush.producers⟩

/-- Storing messages and appending their records keeps the stream stored. -/
theorem Stored.append (h : Stored horizon name stream found) (hstores : Stores messages stream after)
    (hsizes : ∀ data ∈ messages, data.length < 2 ^ 32) :
    Stored horizon name after (found.run (logActions messages)) := by
  obtain ⟨saved, hjson, hsaved⟩ := h.saved
  refine ⟨h.toLogged.append hstores.payloads hsizes, saved, ?_, hstores.saved hsaved⟩
  rw [run_log_actions_meta, hjson]

/-- The limit checks of both backends come to the same verdict when the totals fit in 64 bits. -/
theorem append_records_eq (config : Config) (name : String) (notify logLen : Nat)
    (hstream : Memory.WellFormed stream) (hle : stream.totalBytes ≤ total)
    (hsizes : ∀ data ∈ messages, data.length < 2 ^ 32)
    (hfits : total + payloadBytes messages < 2 ^ 64) (hempty : messages.isEmpty = false) :
    appendRecords config .none name total logLen (.ofMemory name notify stream) messages =
      match Memory.reserveTotalBytes config.limits total (batchBytes messages) with
      | none => ⟨.error .memoryLimitExceeded, total, .ofMemory name notify stream, []⟩
      | some reserved =>
          if config.limits.maxStreamBytes.toNat < wrap64 (stream.totalBytes + batchBytes messages)
          then ⟨.error .streamSizeLimitExceeded, total, .ofMemory name notify stream, []⟩
          else ⟨.ok (), reserved,
            .ofMemory name (notify + 1) (messages.foldl Memory.StreamEntry.push stream),
            logActions messages⟩ := by
  have hbytes : batchBytes messages = payloadBytes messages := batch_bytes_eq (by omega)
  have hsmall : (messages.any fun data => 2 ^ 32 - 1 < byteLen data) = false := by
    refine List.any_eq_false.mpr fun data hdata => ?_
    have hsize := hsizes data hdata
    rw [byte_len_of_lt (by omega), decide_eq_true_eq]
    omega
  have hentry : (StreamEntry.ofMemory name notify stream).totalBytes = stream.totalBytes := rfl
  have hpush := foldl_push_record_of_memory name notify hstream hsizes (by omega)
  simp only [appendRecords, hempty, hsmall, Bool.false_eq_true, ↓reduceIte, hbytes, Faults.none,
    ite_self, hentry, hpush]
  rw [wrap64_of_lt hfits]
  by_cases hglobal : total + payloadBytes messages ≤ config.limits.maxTotalBytes.toNat
  · rw [if_neg (by omega), Memory.reserve_eq_some_iff.mpr ⟨rfl, hglobal⟩]
    dsimp only
    congr 1
    simp only [logActions, hempty, Bool.false_eq_true, ↓reduceIte]
    rfl
  · rw [if_pos (by omega), Memory.reserve_eq_none_iff.mpr (by omega)]

/-- So either both backends refuse a batch and change nothing, or both store it. -/
theorem append_records_cases (config : Config) (name : String) (notify logLen : Nat)
    (hstream : Memory.WellFormed stream) (hle : stream.totalBytes ≤ total)
    (hsizes : ∀ data ∈ messages, data.length < 2 ^ 32)
    (hfits : total + payloadBytes messages < 2 ^ 64) :
    (∃ error,
      Memory.commitMessages config.limits total stream messages = (.error error, total, stream) ∧
      appendRecords config .none name total logLen (.ofMemory name notify stream) messages =
        ⟨.error error, total, .ofMemory name notify stream, []⟩) ∨
    (∃ total' after notify',
      Memory.commitMessages config.limits total stream messages = (.ok (), total', after) ∧
      appendRecords config .none name total logLen (.ofMemory name notify stream) messages =
        ⟨.ok (), total', .ofMemory name notify' after, logActions messages⟩ ∧
      Stores messages stream after) := by
  cases hempty : messages.isEmpty with
  | true =>
      obtain rfl := List.isEmpty_iff.mp hempty
      exact .inr ⟨total, stream, notify, rfl, rfl, .foldl_push [] stream⟩
  | false =>
      rw [append_records_eq config name notify logLen hstream hle hsizes hfits hempty]
      simp only [Memory.commitMessages, hempty, Bool.false_eq_true, ↓reduceIte,
        Memory.reserveAndCommit]
      cases hreserve : Memory.reserveTotalBytes config.limits total (batchBytes messages) with
      | none => exact .inl ⟨_, rfl, rfl⟩
      | some reserved =>
          obtain ⟨rfl, -⟩ := Memory.reserve_eq_some_iff.mp hreserve
          dsimp only
          split_ifs with hover
          · exact .inl ⟨_, by rw [Nat.add_sub_cancel], rfl⟩
          · exact .inr ⟨_, _, notify + 1, rfl, rfl, .store messages stream⟩

end Appending

/-! ## Sections -/

section Sections

/-- A section leaves what the section of the in-memory backend leaves, in memory and on disk. -/
structure Mirrors (horizon : Timestamp) (name : String) (found : Dir) {α : Type}
    (outcome : Outcome α) (mirrored : Result α × Nat × Memory.StreamEntry) : Prop where
  result : outcome.result = mirrored.1
  total : outcome.total = mirrored.2.1
  stream : ∃ notify, outcome.stream = .ofMemory name notify mirrored.2.2
  stored : Stored horizon name mirrored.2.2 (found.run outcome.actions)

/-- A section that touches nothing but its entry. -/
theorem Mirrors.quiet {α : Type} (result : Result α) (notify total : Nat)
    (h : Stored horizon name stream found) :
    Mirrors horizon name found ⟨result, total, .ofMemory name notify stream, []⟩
      (result, total, stream) :=
  ⟨rfl, rfl, ⟨notify, rfl⟩, h⟩

/-- The section of `append` mirrors the in-memory one. -/
theorem append_section_mirrors (config : Config) (clock : Clock) (contentType : String)
    (notify logLen : Nat) {data : Bytes} (hstored : Stored horizon name stream found)
    (hstream : Memory.WellFormed stream) (hle : stream.totalBytes ≤ total)
    (hsize : data.length < 2 ^ 32) (hfits : total + data.length < 2 ^ 64) :
    Mirrors horizon name found
      (appendSection config .none clock name data contentType total logLen
        (.ofMemory name notify stream))
      (Memory.appendSection config.limits clock data contentType total stream) := by
  unfold appendSection Memory.appendSection
  simp only [StreamEntry.ofMemory_config, StreamEntry.ofMemory_closed]
  split_ifs
  · exact .quiet _ notify total hstored
  · exact .quiet _ notify total hstored
  cases validateContentType stream.config.contentType contentType with
  | error error => exact .quiet _ notify total hstored
  | ok _ =>
      have hsizes : ∀ other ∈ [data], other.length < 2 ^ 32 := by simpa using hsize
      dsimp only
      rw [append_records_eq config name notify logLen hstream hle hsizes
        (by simpa [payloadBytes] using hfits) rfl]
      simp only [Memory.reserveAndCommit, Memory.batch_bytes_singleton]
      cases hreserve : Memory.reserveTotalBytes config.limits total (byteLen data) with
      | none => exact .quiet _ notify total hstored
      | some reserved =>
          obtain ⟨rfl, -⟩ := Memory.reserve_eq_some_iff.mp hreserve
          dsimp only
          split_ifs with hover
          · rw [Nat.add_sub_cancel]
            exact .quiet _ notify total hstored
          · exact ⟨rfl, rfl, ⟨notify + 1, rfl⟩, hstored.append (.foldl_push [data] stream) hsizes⟩

/-- The section of `batch_append` mirrors the in-memory one. -/
theorem batch_append_section_mirrors (config : Config) (clock : Clock) (contentType : String)
    (seq : Option String) (notify logLen : Nat) (hname : name ≠ "")
    (hstored : Stored horizon name stream found) (hstream : Memory.WellFormed stream)
    (hle : stream.totalBytes ≤ total) (hsizes : ∀ data ∈ messages, data.length < 2 ^ 32)
    (hfits : total + payloadBytes messages < 2 ^ 64) :
    Mirrors horizon name found
      (batchAppendSection config .none clock name messages contentType seq total logLen
        (.ofMemory name notify stream))
      (Memory.batchAppendSection config.limits clock messages contentType seq total stream) := by
  unfold batchAppendSection Memory.batchAppendSection
  simp only [StreamEntry.ofMemory_config, StreamEntry.ofMemory_closed, StreamEntry.ofMemory_lastSeq]
  split_ifs
  · exact .quiet _ notify total hstored
  · exact .quiet _ notify total hstored
  cases validateContentType stream.config.contentType contentType with
  | error error => exact .quiet _ notify total hstored
  | ok _ =>
      cases validateSeq stream.lastSeq seq with
      | error error => exact .quiet _ notify total hstored
      | ok pending =>
          dsimp only
          obtain ⟨error, hcommit, happend⟩ | ⟨total', after, notify', hcommit, happend, hstores⟩ :=
            append_records_cases config name notify logLen hstream hle hsizes hfits
          · rw [hcommit, happend]
            exact .quiet _ notify total hstored
          · rw [hcommit, happend]
            have hafter := hstored.append hstores hsizes
            dsimp only
            rw [of_memory_record_seq]
            refine ⟨rfl, rfl, ⟨notify', rfl⟩, ?_⟩
            -- The metadata is rewritten exactly when it has changed.
            cases pending with
            | none => simpa [Memory.StreamEntry.recordSeq] using hafter
            | some newSeq =>
                dsimp only [Option.isSome_some]
                rw [if_pos rfl, write_metadata_for_eq config hname, run_append]
                exact (hafter.toLogged.same (.recordSeq _ after)).persist horizon name

/-- The section of `append_with_producer` mirrors the in-memory one. -/
theorem producer_section_mirrors (config : Config) (clock : Clock) (contentType : String)
    (producer : ProducerHeaders) (shouldClose : Bool) (seq : Option String) (notify logLen : Nat)
    (hname : name ≠ "") (hclock : clock.cleanup ≤ horizon)
    (hstored : Stored horizon name stream found) (hstream : Memory.WellFormed stream)
    (hle : stream.totalBytes ≤ total) (hsizes : ∀ data ∈ messages, data.length < 2 ^ 32)
    (hfits : total + payloadBytes messages < 2 ^ 64) :
    Mirrors horizon name found
      (appendWithProducerSection config .none clock name messages contentType producer shouldClose
        seq total logLen (.ofMemory name notify stream))
      (Memory.appendWithProducerSection config.limits clock messages contentType producer
        shouldClose seq total stream) := by
  unfold appendWithProducerSection Memory.appendWithProducerSection
  rw [StreamEntry.ofMemory_config]
  by_cases hexpired : isStreamExpired clock.expiry stream.config = true
  · rw [if_pos hexpired, if_pos hexpired]
    exact .quiet _ notify total hstored
  rw [if_neg hexpired, if_neg hexpired]
  have hstored := hstored.cleanup hclock
  have hstream := (Memory.SameLog.cleanup clock.cleanup stream).wellFormed hstream
  have hclean : (StreamEntry.ofMemory name notify stream).cleanup clock.cleanup =
      .ofMemory name notify (stream.cleanup clock.cleanup) := rfl
  have hle : (stream.cleanup clock.cleanup).totalBytes ≤ total := hle
  dsimp only
  rw [hclean]
  generalize stream.cleanup clock.cleanup = stream at hstored hstream hle ⊢
  simp only [StreamEntry.ofMemory_config, StreamEntry.ofMemory_closed, StreamEntry.ofMemory_lastSeq,
    StreamEntry.ofMemory_producers]
  cases (if messages.isEmpty then .ok ()
      else validateContentType stream.config.contentType contentType : Result Unit) with
  | error error => exact .quiet _ notify total hstored
  | ok _ =>
      dsimp only
      cases checkProducer (stream.producers.lookup producer.id) producer stream.closed with
      | error error => exact .quiet _ notify total hstored
      | ok check =>
          cases check with
          | duplicate epoch last => exact .quiet _ notify total hstored
          | accept =>
              dsimp only
              cases validateSeq stream.lastSeq seq with
              | error error => exact .quiet _ notify total hstored
              | ok pending =>
                  dsimp only
                  obtain ⟨error, hcommit, happend⟩ |
                      ⟨total', after, notify', hcommit, happend, hstores⟩ :=
                    append_records_cases config name notify logLen hstream hle hsizes hfits
                  · rw [hcommit, happend]
                    exact .quiet _ notify total hstored
                  · rw [hcommit, happend]
                    have hafter := hstored.append hstores hsizes
                    have haccept : (((StreamEntry.ofMemory name notify' after).recordSeq
                        pending).closeIf shouldClose).recordProducer clock.stamp producer =
                        .ofMemory name notify' (after.accept clock producer shouldClose pending) := by
                      rw [of_memory_record_seq, of_memory_close_if]
                      rfl
                    dsimp only
                    rw [haccept, write_metadata_for_eq config hname]
                    refine ⟨rfl, rfl, ⟨notify', rfl⟩, ?_⟩
                    rw [run_append]
                    exact (hafter.toLogged.same
                      (.accept clock producer shouldClose pending after)).persist horizon name

/-- The section of `close_stream` mirrors the in-memory one. -/
theorem close_section_mirrors (config : Config) (clock : Clock) (notify total : Nat)
    (hname : name ≠ "") (hstored : Stored horizon name stream found) :
    Mirrors horizon name found
      (closeSection config .none clock name total (.ofMemory name notify stream))
      (Memory.closeSection clock total stream) := by
  unfold closeSection Memory.closeSection
  simp only [StreamEntry.ofMemory_config]
  split_ifs
  · exact .quiet _ notify total hstored
  have hpersist := write_metadata_for_eq config hname notify { stream with closed := true }
  have hlogged : Logged { stream with closed := true }.notifyAll found :=
    ⟨hstored.log, hstored.sizes⟩
  split
  · next hwritten => cases hpersist.symm.trans hwritten
  · next hwritten =>
      obtain ⟨-, rfl⟩ := Prod.mk.inj (hpersist.symm.trans hwritten)
      exact ⟨rfl, rfl, ⟨notify + 1, rfl⟩, hlogged.persist horizon name⟩

/-- Reading through the index returns what the in-memory backend returns. -/
theorem read_section_mirrors (clock : Clock) (fromOffset : Offset) (notify : Nat)
    (hstored : Stored horizon name stream found) (hstream : Memory.WellFormed stream) :
    readSection .none clock fromOffset found.logBytes (.ofMemory name notify stream) =
      Memory.readSection clock fromOffset stream := by
  have hlog : found.logBytes = encodeRecords stream.payloads ++ [] := by
    rw [Dir.logBytes, hstored.log, Option.getD_some, List.append_nil]
  have hoffsets : (indexOf stream.payloads).map MessageIndex.offset =
      stream.messages.map Message.offset := by rw [index_of_offsets, hstream.offsets]
  have hstart : startIndex (.ofMemory name notify stream) fromOffset =
      Memory.startIndex stream fromOffset := by
    unfold startIndex Memory.startIndex
    split
    · rfl
    · rw [StreamEntry.ofMemory_index, binary_search_by_map MessageIndex.offset (·.cmp fromOffset),
        hoffsets, ← binary_search_by_map Message.offset (·.cmp fromOffset)]
  have hlength : stream.payloads.length = stream.messages.length := List.length_map _
  unfold readSection Memory.readSection
  simp only [StreamEntry.ofMemory_config, StreamEntry.ofMemory_closed, StreamEntry.ofMemory_index,
    length_index_of, hstart, hlog, read_messages_eq, List.map_drop, hlength]
  rfl

end Sections

end DurableStreams.File
