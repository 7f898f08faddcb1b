import DurableStreams.Storage.File.Operations

/-!
# What an append does under a stream lock

The three sections that append check the request against the entry and then call `append_records`,
whatever file-system calls fail on the way. `AppendCase` lists the ways this can end, and
`append_section_cases`, `batch_append_section_cases` and `producer_section_cases` say that these are
all. Facts about every append are proved from the cases.
-/

namespace DurableStreams.File

open Lib

/-- Two states of an entry with the same index, counters and cached length. -/
structure SameIndex (before after : StreamEntry) : Prop where
  config : after.config = before.config
  index : after.index = before.index
  nextReadSeq : after.nextReadSeq = before.nextReadSeq
  nextByteOffset : after.nextByteOffset = before.nextByteOffset
  totalBytes : after.totalBytes = before.totalBytes
  createdAt : after.createdAt = before.createdAt
  fileLen : after.fileLen = before.fileLen
  dir : after.dir = before.dir

namespace SameIndex

variable {first second third : StreamEntry}

theorem refl (stream : StreamEntry) : SameIndex stream stream :=
  ⟨rfl, rfl, rfl, rfl, rfl, rfl, rfl, rfl⟩

theorem trans (h : SameIndex first second) (h' : SameIndex second third) : SameIndex first third :=
  ⟨h'.config.trans h.config, h'.index.trans h.index, h'.nextReadSeq.trans h.nextReadSeq,
    h'.nextByteOffset.trans h.nextByteOffset, h'.totalBytes.trans h.totalBytes,
    h'.createdAt.trans h.createdAt, h'.fileLen.trans h.fileLen, h'.dir.trans h.dir⟩

theorem cleanup (now : Timestamp) (stream : StreamEntry) : SameIndex stream (stream.cleanup now) :=
  ⟨rfl, rfl, rfl, rfl, rfl, rfl, rfl, rfl⟩

theorem recordSeq (pending : Option String) (stream : StreamEntry) :
    SameIndex stream (stream.recordSeq pending) := by
  cases pending <;> exact ⟨rfl, rfl, rfl, rfl, rfl, rfl, rfl, rfl⟩

theorem closeIf (shouldClose : Bool) (stream : StreamEntry) :
    SameIndex stream (stream.closeIf shouldClose) := by
  cases shouldClose <;> exact ⟨rfl, rfl, rfl, rfl, rfl, rfl, rfl, rfl⟩

theorem recordProducer (now : Timestamp) (producer : ProducerHeaders) (stream : StreamEntry) :
    SameIndex stream (stream.recordProducer now producer) :=
  ⟨rfl, rfl, rfl, rfl, rfl, rfl, rfl, rfl⟩

end SameIndex

/-- The entry an append works on: the one it found, or that entry without its stale producers. -/
def Checked (now : Timestamp) (stream checked : StreamEntry) : Prop :=
  checked = stream ∨ checked = stream.cleanup now

/-- The changes in a directory that persist metadata of the stream, as far as they get. -/
def PersistsMeta (name : String) (config : StreamConfig) (actions : List DirAction) : Prop :=
  actions = [] ∨ ∃ saved : StreamMeta, (saved.name = name ∧ saved.config = config) ∧
    (actions = [.writeTmp saved] ∨ actions = [.writeTmp saved, .renameMeta])

/-- What an append makes of the entry with its records: it notes its Stream-Seq value, and may note
its producer and close the stream. -/
structure Settles (pending : Option String) (closes : Bool) (written after : StreamEntry) : Prop where
  index : SameIndex written after
  closed : after.closed = (closes || written.closed)
  notify : after.notify = written.notify
  lastSeq : after.lastSeq = pending.or written.lastSeq

/-- The entry `batch_append` leaves. -/
theorem Settles.batch (pending : Option String) (written : StreamEntry) :
    Settles pending false written (written.recordSeq pending) := by
  cases pending <;> exact ⟨.recordSeq _ _, rfl, rfl, rfl⟩

/-- The entry `append_with_producer` leaves. -/
theorem Settles.producer (pending : Option String) (closes : Bool) (now : Timestamp)
    (producer : ProducerHeaders) (written : StreamEntry) : Settles pending closes written
      (((written.recordSeq pending).closeIf closes).recordProducer now producer) := by
  refine ⟨((SameIndex.recordSeq pending _).trans (.closeIf closes _)).trans
    (.recordProducer now producer _), ?_, ?_, ?_⟩ <;> cases pending <;> cases closes <;> rfl

/-- How a section that appends can end: it stops before writing, writing fails, or the records are
written and the metadata may follow. -/
inductive AppendCase (config : Config) (faults : Faults) (name : String) (messages : List Bytes)
    (seq : Option String) (closes : Bool) (now : Timestamp) (total logLen : Nat)
    (stream : StreamEntry) {α : Type} (wrap : Result α → Reply) : Outcome α → Prop
  | quiet {result : Result α} {checked : StreamEntry} (hchecked : Checked now stream checked)
      (hreply : (wrap result).appended = false) :
      AppendCase config faults name messages seq closes now total logLen stream wrap
        ⟨result, total, checked, []⟩
  | failed {checked : StreamEntry} {error : Error} {pending : Option String}
      (hchecked : Checked now stream checked) (hseq : validateSeq checked.lastSeq seq = .ok pending)
      (hwritten : (appendRecords config faults name total logLen checked messages).result =
        .error error) (hreply : (wrap (.error error)).appended = false) :
      AppendCase config faults name messages seq closes now total logLen stream wrap
        ⟨.error error, (appendRecords config faults name total logLen checked messages).total,
          (appendRecords config faults name total logLen checked messages).stream,
          (appendRecords config faults name total logLen checked messages).actions⟩
  | stored {checked after : StreamEntry} {result : Result α} {persisted : List DirAction}
      {pending : Option String} (hchecked : Checked now stream checked)
      (hseq : validateSeq checked.lastSeq seq = .ok pending)
      (hwritten : (appendRecords config faults name total logLen checked messages).result = .ok ())
      (hafter : Settles pending closes
        (appendRecords config faults name total logLen checked messages).stream after)
      (hpersisted : PersistsMeta name stream.config persisted)
      (hreply : (wrap result).appended = true) :
      AppendCase config faults name messages seq closes now total logLen stream wrap
        ⟨result, (appendRecords config faults name total logLen checked messages).total, after,
          (appendRecords config faults name total logLen checked messages).actions ++ persisted⟩

/-- The changes `write_metadata_for` makes. -/
theorem write_metadata_for_actions (config : Config) (faults : Faults) (name : String)
    {stream : StreamEntry} {streamConfig : StreamConfig} (hconfig : stream.config = streamConfig) :
    PersistsMeta name streamConfig (writeMetadataFor config faults name stream).2 := by
  unfold writeMetadataFor
  cases validateStreamDir config stream.dir with
  | error error => exact .inl rfl
  | ok _ =>
      cases faults.writeTmp with
      | some error => exact .inl rfl
      | none =>
          cases faults.rename with
          | some error => exact .inr ⟨_, ⟨rfl, hconfig⟩, .inl rfl⟩
          | none => exact .inr ⟨_, ⟨rfl, hconfig⟩, .inr rfl⟩

/-- Persisting metadata does not touch the log. -/
theorem PersistsMeta.log_bytes {name : String} {config : StreamConfig} {actions : List DirAction}
    (h : PersistsMeta name config actions) (found : Dir) :
    (found.run actions).logBytes = found.logBytes := by
  obtain rfl | ⟨saved, -, rfl | rfl⟩ := h <;> rfl

/-- Indexing records leaves the configuration and the directory alone. -/
theorem foldl_push_record_keeps (messages : List Bytes) (stream : StreamEntry) :
    (messages.foldl StreamEntry.pushRecord stream).config = stream.config ∧
      (messages.foldl StreamEntry.pushRecord stream).dir = stream.dir := by
  induction messages generalizing stream with
  | nil => exact ⟨rfl, rfl⟩
  | cons data messages ih => exact ih (stream.pushRecord data)

/-- How `append_records` can end: it writes nothing, the write fails after some bytes and the cached
length may be refreshed, or the records are written and indexed. -/
inductive RecordsCase (total : Nat) (stream : StreamEntry) (messages : List Bytes) :
    Outcome Unit → Prop
  | quiet {result : Result Unit} (hresult : result = .ok () → messages = []) :
      RecordsCase total stream messages ⟨result, total, stream, []⟩
  | failed {error : Error} {counter fileLen : Nat} {persisted : Bytes} (hcounter : counter < 2 ^ 64) :
      RecordsCase total stream messages
        ⟨.error error, counter, { stream with fileLen := fileLen }, [.appendLog persisted]⟩
  | written {counter : Nat} {bytes : Bytes} (hcounter : counter < 2 ^ 64) :
      RecordsCase total stream messages ⟨.ok (), counter,
        (messages.foldl StreamEntry.pushRecord stream).notifyAll, [.appendLog bytes]⟩

/-- These are all. -/
theorem append_records_outcome (config : Config) (faults : Faults) (name : String)
    (total logLen : Nat) (stream : StreamEntry) (messages : List Bytes) :
    RecordsCase total stream messages
      (appendRecords config faults name total logLen stream messages) := by
  have hreserved (bytes : Nat) : wrap64 (total + bytes) < 2 ^ 64 := Nat.mod_lt _ (Nat.two_pow_pos 64)
  have hfailed (bytes : Nat) (persisted : Bytes) (message : String) :
      RecordsCase total stream messages
        (failedAppend faults stream (wrap64 (total + bytes)) bytes logLen persisted message) := by
    have hcounter := (Nat.sub_le _ bytes).trans_lt (hreserved bytes)
    unfold failedAppend
    split
    · exact @RecordsCase.failed _ stream _ _ _ stream.fileLen _ hcounter
    · exact .failed hcounter
  unfold appendRecords
  split
  · next hempty => exact .quiet fun _ => List.isEmpty_iff.mp hempty
  split
  · exact .quiet nofun
  dsimp only
  split
  · exact .quiet nofun
  split
  · exact .quiet nofun
  split
  · exact hfailed _ _ _
  split
  · exact hfailed _ _ _
  · exact .written (hreserved _)

/-- Neither writing records nor failing to changes the configuration. -/
theorem RecordsCase.config {total : Nat} {stream : StreamEntry} {messages : List Bytes}
    {written : Outcome Unit} (h : RecordsCase total stream messages written) :
    written.stream.config = stream.config := by
  cases h with
  | quiet | failed => rfl
  | written => exact (foldl_push_record_keeps messages stream).1

/-- The configuration of the entry an append works on. -/
theorem Checked.config {now : Timestamp} {stream checked : StreamEntry}
    (h : Checked now stream checked) : checked.config = stream.config := by
  obtain rfl | rfl := h <;> rfl

/-- The ways `append` can end. -/
theorem append_section_cases (config : Config) (faults : Faults) (clock : Clock) (name : String)
    (data : Bytes) (contentType : String) (total logLen : Nat) (stream : StreamEntry) :
    AppendCase config faults name [data] none false clock.cleanup total logLen stream .offset
      (appendSection config faults clock name data contentType total logLen stream) := by
  unfold appendSection
  split_ifs
  · exact .quiet (.inl rfl) rfl
  · exact .quiet (.inl rfl) rfl
  cases validateContentType stream.config.contentType contentType with
  | error error => exact .quiet (.inl rfl) rfl
  | ok _ =>
      dsimp only
      cases hwritten : (appendRecords config faults name total logLen stream [data]).result with
      | error error => exact .failed (.inl rfl) rfl hwritten rfl
      | ok _ =>
          rw [← List.append_nil (appendRecords config faults name total logLen stream
            [data]).actions]
          exact .stored (.inl rfl) rfl hwritten (.batch none _) (.inl rfl) rfl

/-- The ways `batch_append` can end. -/
theorem batch_append_section_cases (config : Config) (faults : Faults) (clock : Clock)
    (name : String) (messages : List Bytes) (contentType : String) (seq : Option String)
    (total logLen : Nat) (stream : StreamEntry) :
    AppendCase config faults name messages seq false clock.cleanup total logLen stream .offset
      (batchAppendSection config faults clock name messages contentType seq total logLen
        stream) := by
  unfold batchAppendSection
  split_ifs
  · exact .quiet (.inl rfl) rfl
  · exact .quiet (.inl rfl) rfl
  cases validateContentType stream.config.contentType contentType with
  | error error => exact .quiet (.inl rfl) rfl
  | ok _ =>
      cases hseq : validateSeq stream.lastSeq seq with
      | error error => exact .quiet (.inl rfl) rfl
      | ok pending =>
          dsimp only
          cases hwritten : (appendRecords config faults name total logLen stream messages).result with
          | error error => exact .failed (.inl rfl) hseq hwritten rfl
          | ok _ =>
              have hsettles := Settles.batch pending
                (appendRecords config faults name total logLen stream messages).stream
              refine .stored (.inl rfl) hseq hwritten hsettles ?_ rfl
              split
              · exact write_metadata_for_actions config faults name
                  (hsettles.index.config.trans (append_records_outcome ..).config)
              · exact .inl rfl

/-- The ways `append_with_producer` can end. -/
theorem producer_section_cases (config : Config) (faults : Faults) (clock : Clock)
    (name : String) (messages : List Bytes) (contentType : String) (producer : ProducerHeaders)
    (shouldClose : Bool) (seq : Option String) (total logLen : Nat) (stream : StreamEntry) :
    AppendCase config faults name messages seq shouldClose clock.cleanup total logLen stream .producer
      (appendWithProducerSection config faults clock name messages contentType producer shouldClose
        seq total logLen stream) := by
  unfold appendWithProducerSection
  by_cases hexpired : isStreamExpired clock.expiry stream.config = true
  · rw [if_pos hexpired]
    exact .quiet (.inl rfl) rfl
  rw [if_neg hexpired]
  dsimp only
  have hchecked : Checked clock.cleanup stream (stream.cleanup clock.cleanup) := .inr rfl
  generalize stream.cleanup clock.cleanup = checked at hchecked ⊢
  cases (if messages.isEmpty then .ok ()
      else validateContentType checked.config.contentType contentType : Result Unit) with
  | error error => exact .quiet hchecked rfl
  | ok _ =>
      dsimp only
      cases checkProducer (checked.producers.lookup producer.id) producer checked.closed with
      | error error => exact .quiet hchecked rfl
      | ok check =>
          cases check with
          | duplicate epoch last => exact .quiet hchecked rfl
          | accept =>
              dsimp only
              cases hseq : validateSeq checked.lastSeq seq with
              | error error => exact .quiet hchecked rfl
              | ok pending =>
                  dsimp only
                  cases hwritten :
                      (appendRecords config faults name total logLen checked messages).result with
                  | error error => exact .failed hchecked hseq hwritten rfl
                  | ok _ =>
                      have hsettles := Settles.producer pending shouldClose clock.stamp producer
                        (appendRecords config faults name total logLen checked messages).stream
                      exact .stored hchecked hseq hwritten hsettles
                        (write_metadata_for_actions config faults name (hsettles.index.config.trans
                          ((append_records_outcome ..).config.trans hchecked.config))) rfl

/-- A call that appends does nothing, or it carries out a section that appends. -/
theorem append_step {call : Call} (config : Config) (faults : Faults) (file : FileStorage)
    (hop : call.op.isAppend = true) :
    (∃ reply, reply.writes = false ∧ step config faults call file = (reply, file)) ∨
    ∃ (α : Type) (wrap : Result α → Reply) (body : Nat → Nat → StreamEntry → Outcome α)
      (closes : Bool), (closes = true → ∃ name contentType producer seq fits, call.op =
        .appendWithProducer name call.op.messages contentType producer true seq fits) ∧
      (∀ total logLen stream, AppendCase config faults call.op.name call.op.messages call.op.seq
        closes call.clock.cleanup total logLen stream wrap (body total logLen stream)) ∧
      step config faults call file = (withStream file call.op.name body).map wrap id := by
  obtain ⟨clock, op⟩ := call
  cases op with
  | append name data contentType =>
      exact .inr ⟨_, _, _, false, nofun, append_section_cases config faults clock name data contentType,
        rfl⟩
  | batchAppend name messages contentType seq =>
      cases hempty : messages.isEmpty with
      | true => exact .inl ⟨_, rfl, by simp only [step, batchAppend, hempty, ↓reduceIte]; rfl⟩
      | false =>
          refine .inr ⟨_, _, _, false, nofun, batch_append_section_cases config faults clock name
            messages contentType seq, ?_⟩
          simp only [step, batchAppend, hempty, Bool.false_eq_true, ↓reduceIte]
          rfl
  | appendWithProducer name messages contentType producer shouldClose seq fits =>
      refine .inr ⟨_, _, _, shouldClose, ?_, producer_section_cases config faults clock name messages
        contentType producer shouldClose seq, rfl⟩
      rintro rfl
      exact ⟨name, contentType, producer, seq, fits, rfl⟩
  | createStream | read | delete | head | closeStream | createStreamWithData | «exists»
  | subscribe => cases hop

/-- A create without data does the same as one with an empty batch. -/
theorem create_stream_eq (config : Config) (faults : Faults) (clock : Clock) (file : FileStorage)
    (name : String) (streamConfig : StreamConfig) :
    createStream config faults clock file name streamConfig =
      (createStreamWithData config faults clock file name streamConfig [] false).map
        (Except.map CreateWithDataResult.status) id := by
  unfold createStream createStreamWithData
  cases claimName config faults clock file name with
  | occupied stream =>
      dsimp only
      split <;> rfl
  | failed error left => rfl
  | vacant left =>
      dsimp only
      obtain ⟨error | entry, opened⟩ := prepareEntry config faults clock left name streamConfig
      · rfl
      · simp only [appendRecords, List.isEmpty_nil, ↓reduceIte, FileStorage.act, within_nil,
          StreamEntry.closeIf, Bool.false_eq_true, installEntry]
        obtain ⟨_ | _, actions⟩ := writeMetadataFor config faults name entry <;> rfl

end DurableStreams.File
