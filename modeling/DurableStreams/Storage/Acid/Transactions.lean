import DurableStreams.Storage.Acid.Rows

/-!
# Transactions carry out plans

An operation on an existing stream decides what to do in the same way in both backends: a transaction
of the transactional storage comes to the plan of the in-memory storage for the entry the shard holds.
`step_on_stream` says so for a call whose reservation succeeds: the reply and the counter are those of
the plan. If the reply reports a write, the shard holds the entry the plan leaves, and otherwise
nothing is written, not even the removal of stale producer records.
-/

namespace DurableStreams.Acid

open Lib

section Reservations

variable {limits : Limits} {total bytes : Nat}

/-- A reservation within the global limit succeeds. -/
theorem reserve_ok (h : total + bytes ≤ limits.maxTotalBytes.toNat) :
    reserveTotalBytes limits total bytes = .ok (total + bytes) := by
  have hreserve := Memory.reserve_eq_some_iff.mpr ⟨rfl, h⟩
  unfold Memory.reserveTotalBytes at hreserve
  unfold reserveTotalBytes
  split
  · next hzero => rw [hzero, Nat.add_zero]
  · rw [hreserve]

/-- A reservation over the global limit is refused. -/
theorem reserve_refused (htotal : total ≤ limits.maxTotalBytes.toNat)
    (h : limits.maxTotalBytes.toNat < total + bytes) :
    reserveTotalBytes limits total bytes = .error .memoryLimitExceeded := by
  have hreserve := Memory.reserve_eq_none_iff.mpr h
  unfold Memory.reserveTotalBytes at hreserve
  unfold reserveTotalBytes
  rw [if_neg (by omega), hreserve]

/-- A reservation that succeeds adds its bytes, within the limit. -/
theorem reserve_eq_add {reserved : Nat} (h : reserveTotalBytes limits total bytes = .ok reserved) :
    reserved = total + bytes ∧ (bytes = 0 ∨ reserved ≤ limits.maxTotalBytes.toNat) := by
  unfold reserveTotalBytes at h
  split at h
  · next hzero =>
      cases h
      exact ⟨by omega, .inl hzero⟩
  split at h
  · next reserved hreserve =>
      cases h
      obtain ⟨rfl, hlimit⟩ := Memory.reserve_eq_some_iff.mp hreserve
      exact ⟨rfl, .inr hlimit⟩
  · cases h

/-- Carrying out a commit plan whose reservation succeeds. -/
theorem run_commit_of_room {messages : List Bytes} {checked committed : Memory.StreamEntry}
    {refused : Error → Reply} {reply : Reply}
    (h : total + batchBytes messages ≤ limits.maxTotalBytes.toNat) :
    (Memory.Plan.commit messages checked refused reply committed).run limits total =
      if Memory.overStreamLimit limits messages checked then
        (refused .streamSizeLimitExceeded, total, checked)
      else (reply, total + batchBytes messages, committed) := by
  simp only [Memory.Plan.run, Memory.reserve_eq_some_iff.mpr ⟨rfl, h⟩, Nat.add_sub_cancel]

end Reservations

/-! ## What a transaction writes -/

/-- Writing messages has nothing to do with the producer records. -/
theorem insert_messages_cleanup (name : String) (messages : List Bytes) (now : Timestamp)
    (saved : StoredStreamMeta) (table : OrderedTable MessageKey Bytes) :
    insertMessages name messages (saved.cleanup now) table =
      ((insertMessages name messages saved table).1.cleanup now,
        (insertMessages name messages saved table).2) := by
  unfold insertMessages
  induction messages generalizing saved table with
  | nil => rfl
  | cons data messages ih => exact ih (saved.advance data) _

theorem record_seq_last_seq (pending : Option String) (saved : StoredStreamMeta) :
    (saved.recordSeq pending).lastSeq = pending.or saved.lastSeq := by
  cases pending <;> rfl

theorem close_if_last_seq (shouldClose : Bool) (saved : StoredStreamMeta) :
    (saved.closeIf shouldClose).lastSeq = saved.lastSeq := by
  cases shouldClose <;> rfl

theorem insert_messages_keeps (name : String) (messages : List Bytes) (saved : StoredStreamMeta)
    (table : OrderedTable MessageKey Bytes) :
    (insertMessages name messages saved table).1.lastSeq = saved.lastSeq ∧
      (insertMessages name messages saved table).1.config = saved.config := by
  unfold insertMessages
  induction messages generalizing saved table with
  | nil => exact ⟨rfl, rfl⟩
  | cons data messages ih => exact ih (saved.advance data) _

/-- The configuration and the counters are the same. -/
structure StoredStreamMeta.SameLog (saved other : StoredStreamMeta) : Prop where
  config : other.config = saved.config
  nextReadSeq : other.nextReadSeq = saved.nextReadSeq
  nextByteOffset : other.nextByteOffset = saved.nextByteOffset
  totalBytes : other.totalBytes = saved.totalBytes

/-- The row and the table when all messages of a batch have been written behind a stream and
counted. -/
def WrittenRow (name : String) (messages : List Bytes) (saved : StoredStreamMeta)
    (before : OrderedTable MessageKey Bytes) (written : StoredStreamMeta)
    (table : OrderedTable MessageKey Bytes) : Prop :=
  (insertMessages name messages saved before).1.SameLog written ∧
    table = (insertMessages name messages saved before).2

/-- A shard in which all messages of a batch have been written. -/
def Written (name : String) (messages : List Bytes) (before after : Shard) : Prop :=
  ∃ saved written table, before.streams.lookup name = some saved ∧
    WrittenRow name messages saved before.messages written table ∧
    after = before.write name (written, table)

/-- A Stream-Seq value changes neither the configuration nor the counters. -/
theorem StoredStreamMeta.SameLog.recordSeq (pending : Option String) (saved : StoredStreamMeta) :
    saved.SameLog (saved.recordSeq pending) := by
  cases pending <;> exact ⟨rfl, rfl, rfl, rfl⟩

/-- Nor does accepting a request. -/
theorem StoredStreamMeta.SameLog.accept (pending : Option String) (shouldClose : Bool)
    (now : Timestamp) (producer : ProducerHeaders) (saved : StoredStreamMeta) :
    saved.SameLog
      (((saved.recordSeq pending).closeIf shouldClose).recordProducer now producer) := by
  cases pending <;> cases shouldClose <;> exact ⟨rfl, rfl, rfl, rfl⟩

/-- The same with a Stream-Seq value, which has been checked and recorded. -/
def WrittenSeq (seq : Option String) (name : String) (messages : List Bytes) (before after : Shard) :
    Prop :=
  ∃ saved written table pending, before.streams.lookup name = some saved ∧
    WrittenRow name messages saved before.messages written table ∧
    validateSeq saved.lastSeq seq = .ok pending ∧ written.lastSeq = pending.or saved.lastSeq ∧
    after = before.write name (written, table)

theorem WrittenSeq.written {seq : Option String} {name : String} {messages : List Bytes}
    {before after : Shard} (h : WrittenSeq seq name messages before after) :
    Written name messages before after := by
  obtain ⟨saved, written, table, pending, hlookup, hrow, -, -, hafter⟩ := h
  exact ⟨saved, written, table, hlookup, hrow, hafter⟩

section Transactions

variable {limits : Limits} {clock : Clock} {name contentType : String} {messages : List Bytes}
  {seq : Option String} {shard after : Shard}

/-- The transaction of `append` writes its message. -/
theorem append_txn_written {data : Bytes} {offset : Offset}
    (h : appendTxn limits clock name data contentType shard = .ok (offset, after)) :
    WrittenSeq none name [data] shard after := by
  unfold appendTxn at h
  cases hlookup : shard.streams.lookup name with
  | none => simp [hlookup] at h
  | some saved =>
      simp only [hlookup] at h
      split at h
      · cases h
      split at h
      · cases h
      split at h
      · cases h
      split at h
      · cases h
      · cases h
        exact ⟨saved, _, _, none, hlookup, ⟨⟨rfl, rfl, rfl, rfl⟩, rfl⟩, rfl, rfl, rfl⟩

/-- The transaction of `batch_append` writes its messages. -/
theorem batch_append_txn_written {offset : Offset}
    (h : batchAppendTxn limits clock name messages contentType seq shard = .ok (offset, after)) :
    WrittenSeq seq name messages shard after := by
  unfold batchAppendTxn at h
  cases hlookup : shard.streams.lookup name with
  | none => simp [hlookup] at h
  | some saved =>
      simp only [hlookup] at h
      split at h
      · cases h
      split at h
      · cases h
      split at h
      · cases h
      split at h
      · cases h
      next pending hseq =>
      split at h
      · cases h
      · cases h
        refine ⟨saved, _, _, pending, hlookup, ⟨.recordSeq _ _, rfl⟩, hseq, ?_, rfl⟩
        rw [record_seq_last_seq, (insert_messages_keeps name messages _ _).1]

section Producer

variable {producer : ProducerHeaders} {shouldClose : Bool} {result : ProducerAppendResult}
  {committed : Option Shard}

/-- A transaction of `append_with_producer` finds a duplicate, or has written what it accepts. -/
theorem producer_txn_ok
    (h : appendWithProducerTxn limits clock name messages contentType producer shouldClose seq
      shard = .ok (result, committed)) :
    (committed = none ∧ (Reply.producer (.ok result)).appended = false) ∨
      (Reply.producer (.ok result)).appended = true ∧
      ∃ saved pending, shard.streams.lookup name = some saved ∧
        validateSeq saved.lastSeq seq = .ok pending ∧
        let row := insertMessages name messages (saved.cleanup clock.cleanup) shard.messages
        committed = some (shard.write name
          (((row.1.recordSeq pending).closeIf shouldClose).recordProducer clock.stamp producer,
            row.2)) := by
  unfold appendWithProducerTxn at h
  cases hlookup : shard.streams.lookup name with
  | none => simp [hlookup] at h
  | some saved =>
      simp only [hlookup] at h
      split at h
      · cases h
      split at h
      · cases h
      split at h
      · cases h
      · cases h
        exact .inl ⟨rfl, rfl⟩
      split at h
      · cases h
      next pending hseq =>
      split at h
      · cases h
      · cases h
        exact .inr ⟨rfl, saved, pending, rfl, hseq, rfl⟩

/-- It writes its messages, unless it is a duplicate. -/
theorem producer_txn_written
    (h : appendWithProducerTxn limits clock name messages contentType producer shouldClose seq
      shard = .ok (result, some after)) : WrittenSeq seq name messages shard after := by
  obtain ⟨hnone, -⟩ | ⟨-, saved, pending, hlookup, hseq, hafter⟩ := producer_txn_ok h
  · cases hnone
  obtain rfl := Option.some.inj hafter
  rw [insert_messages_cleanup]
  have hsame := StoredStreamMeta.SameLog.accept pending shouldClose clock.stamp producer
    ((insertMessages name messages saved shard.messages).1.cleanup clock.cleanup)
  refine ⟨saved, _, _, pending, hlookup, ⟨⟨hsame.config, hsame.nextReadSeq, hsame.nextByteOffset,
    hsame.totalBytes⟩, rfl⟩, hseq, (close_if_last_seq shouldClose _).trans ?_, rfl⟩
  rw [record_seq_last_seq]
  exact congrArg pending.or (insert_messages_keeps name messages _ _).1

/-- What it commits it has accepted. -/
theorem producer_txn_some
    (h : appendWithProducerTxn limits clock name messages contentType producer shouldClose seq
      shard = .ok (result, some after)) :
    (Reply.producer (.ok result)).appended = true ∧ (Reply.producer (.ok result)).writes = true := by
  obtain ⟨hnone, -⟩ | ⟨happended, -⟩ := producer_txn_ok h
  · cases hnone
  · cases result with
    | accepted => exact ⟨rfl, rfl⟩
    | duplicate => cases happended

/-- Otherwise it is a duplicate. -/
theorem producer_txn_none
    (h : appendWithProducerTxn limits clock name messages contentType producer shouldClose seq
      shard = .ok (result, none)) : (Reply.producer (.ok result)).appended = false := by
  obtain ⟨-, hquiet⟩ | ⟨-, _, _, -, -, hafter⟩ := producer_txn_ok h
  · exact hquiet
  · cases hafter

end Producer

/-- The transaction of `close_stream` writes no messages. -/
theorem close_txn_written (h : closeTxn clock name shard = .ok after) :
    WrittenSeq none name [] shard after := by
  unfold closeTxn at h
  cases hlookup : shard.streams.lookup name with
  | none => simp [hlookup] at h
  | some saved =>
      simp only [hlookup] at h
      split at h
      · cases h
      · cases h
        exact ⟨saved, { saved with closed := true }, _, none, hlookup, ⟨⟨rfl, rfl, rfl, rfl⟩, rfl⟩, rfl,
          rfl, rfl⟩

end Transactions

section Streams

variable {config : Config} {storage : AcidStorage config} {name : String}
  {stream : Memory.StreamEntry}

/-- Giving back what was reserved leaves the storage as it was. -/
theorem reserved_back {bytes reserved : Nat}
    (h : reserveTotalBytes config.limits storage.totalBytes bytes = .ok reserved) :
    { storage with totalBytes := reserved }.subTotalBytes bytes = storage := by
  rw [(reserve_eq_add h).1, AcidStorage.subTotalBytes]
  simp only [Nat.add_sub_cancel]

/-- A call whose transaction fails in the database changes nothing. -/
theorem abort_eq (call : Call) (storage : AcidStorage config) : abort storage call = storage := by
  unfold abort
  dsimp only
  cases hreserve : reserveTotalBytes config.limits storage.totalBytes
      (batchBytes call.op.messages) with
  | error error => rfl
  | ok reserved => exact reserved_back hreserve

/-- A storage that holds a stream under a name. -/
structure HoldsStream (storage : AcidStorage config) (name : String) (stream : Memory.StreamEntry) :
    Prop where
  saved : (storage.shard name).streams.lookup name = some (.ofEntry stream)
  rows : (storage.shard name).messages.part (ofName name) = rows name stream
  wellFormed : Memory.WellFormed stream
  limit : stream.totalBytes ≤ config.limits.maxStreamBytes.toNat
  bounded : stream.totalBytes ≤ storage.totalBytes

/-- A write to the shard of a stream: the shard holds the new entry and nothing else has changed. -/
def Writes (storage : AcidStorage config) (name : String) (after : Memory.StreamEntry)
    (shards : Fin config.shardCount → Shard) : Prop :=
  ∃ table, shards = (storage.commit name ((storage.shard name).write name
      (.ofEntry after, table))).shards ∧
    OnlyTouches name (storage.shard name).messages table ∧
    table.part (ofName name) = rows name after

/-- How an operation on a stream ends, given the outcome of its plan. -/
structure Ends (storage : AcidStorage config) (name : String) (result : Reply × AcidStorage config)
    (outcome : Reply × Nat × Memory.StreamEntry) : Prop where
  reply : result.1.observed = outcome.1.observed
  total : result.2.totalBytes = outcome.2.1
  kept : outcome.1.writes = false → result.2.shards = storage.shards
  written : outcome.1.writes = true → Writes storage name outcome.2.2 result.2.shards

/-- An operation that gives up. -/
theorem Ends.refused {reply : Reply} {result : AcidStorage config} {after : Memory.StreamEntry}
    (hreply : reply.writes = false) (htotal : result.totalBytes = storage.totalBytes)
    (hshards : result.shards = storage.shards) :
    Ends storage name (reply, result) (reply, storage.totalBytes, after) :=
  ⟨rfl, htotal, fun _ => hshards, fun h => by simp [hreply] at h⟩

/-- Notifications change neither the shards nor the counter. -/
theorem notify_stream_shards (storage : AcidStorage config) (name : String) :
    (storage.notifyStream name).shards = storage.shards ∧
      (storage.notifyStream name).totalBytes = storage.totalBytes := by
  unfold AcidStorage.notifyStream
  cases storage.notifiers.lookup name <;> exact ⟨rfl, rfl⟩

/-- Nor do notifications that are sent only sometimes. -/
theorem notified_shards (notify : Bool) (storage : AcidStorage config) (name : String) :
    (if notify then storage.notifyStream name else storage).shards = storage.shards ∧
      (if notify then storage.notifyStream name else storage).totalBytes = storage.totalBytes := by
  cases notify
  · exact ⟨rfl, rfl⟩
  · exact notify_stream_shards storage name

/-- Subscribing opens a channel at most. -/
theorem subscribe_shards (clock : Clock) (storage : AcidStorage config) (name : String) :
    (subscribe clock storage name).2.shards = storage.shards := by
  unfold subscribe
  repeat' split
  all_goals rfl

/-- Giving the bytes of an expired stream back does not touch the shards. -/
theorem release_expired_shards (storage : AcidStorage config) (name : String) (removed : Nat) :
    (releaseExpired storage name removed).shards = storage.shards ∧
      (releaseExpired storage name removed).totalBytes = storage.totalBytes - removed := by
  unfold releaseExpired
  split
  · exact ⟨rfl, rfl⟩
  · exact ⟨rfl, by omega⟩

/-- An operation that changes the metadata of a stream without touching its log. -/
theorem Ends.updated {reply : Reply} {result : AcidStorage config} {after : Memory.StreamEntry}
    (h : HoldsStream storage name stream) (hsame : Memory.SameLog stream after)
    (hreply : reply.writes = true) (htotal : result.totalBytes = storage.totalBytes)
    (hshards : result.shards = (storage.commit name ((storage.shard name).write name
      (.ofEntry after, (storage.shard name).messages))).shards) :
    Ends storage name (reply, result) (reply, storage.totalBytes, after) :=
  ⟨rfl, htotal, fun hnot => by simp [hreply] at hnot, fun _ =>
    ⟨_, hshards, .refl name _, h.rows.trans (rows_of_same_log name hsame).symm⟩⟩

/-- Storing a batch that fits. -/
theorem HoldsStream.writes_batch {messages : List Bytes} {checked after : Memory.StreamEntry}
    (h : HoldsStream storage name stream) (hsame : Memory.SameLog stream checked)
    (hafter : Memory.SameLog (messages.foldl .push checked) after)
    (hfits : stream.totalBytes + payloadBytes messages < 2 ^ 64)
    (hcount : stream.messages.length + messages.length ≤ 2 ^ 64) :
    Writes storage name after (storage.commit name ((storage.shard name).write name
      (.ofEntry after,
        (insertMessages name messages (.ofEntry checked) (storage.shard name).messages).2))).shards := by
  have hchecked : Holds name checked (.ofEntry checked, (storage.shard name).messages) :=
    ⟨rfl, h.rows.trans (rows_of_same_log name hsame).symm⟩
  have hstored := hchecked.foldl_push (hsame.wellFormed h.wellFormed)
    (hsame.totalBytes ▸ hfits) (hsame.messages ▸ hcount)
  exact ⟨_, rfl, foldl_insert_message_touches name messages
    (.ofEntry checked, (storage.shard name).messages),
    hstored.rows.trans (rows_of_same_log name hafter).symm⟩

/-- Reserving does not touch the shards. -/
@[simp] theorem shard_with_total (storage : AcidStorage config) (total : Nat) (name : String) :
    ({ storage with totalBytes := total } : AcidStorage config).shard name = storage.shard name :=
  rfl

section Commits

variable {messages : List Bytes} {checked committed : Memory.StreamEntry} {reply : Reply}
  {refused : Error → Reply} {result : AcidStorage config}

/-- An operation whose batch is stored. -/
theorem Ends.stored (h : HoldsStream storage name stream)
    (hroom : storage.totalBytes + batchBytes messages ≤ config.limits.maxTotalBytes.toNat)
    (hbatch : payloadBytes messages < 2 ^ 64)
    (hcount : stream.messages.length + messages.length ≤ 2 ^ 64)
    (hover : Memory.overStreamLimit config.limits messages checked = false)
    (hreply : reply.writes = true) (hchecked : Memory.SameLog stream checked)
    (hcommitted : Memory.SameLog (messages.foldl .push checked) committed)
    (htotal : result.totalBytes = storage.totalBytes + batchBytes messages)
    (hshards : result.shards = (storage.commit name ((storage.shard name).write name
      (.ofEntry committed,
        (insertMessages name messages (.ofEntry checked) (storage.shard name).messages).2))).shards) :
    Ends storage name (reply, result)
      ((Memory.Plan.commit messages checked refused reply committed).run config.limits
        storage.totalBytes) := by
  have hmax := config.limits.maxTotalBytes.toNat_lt
  have hbounded := h.bounded
  rw [run_commit_of_room hroom, hover, if_neg Bool.false_ne_true]
  refine ⟨rfl, htotal, fun hnot => by simp [hreply] at hnot, fun _ => ?_⟩
  rw [batch_bytes_eq hbatch] at hroom
  rw [hshards]
  exact h.writes_batch hchecked hcommitted (by omega) hcount

end Commits

/-- A transaction checks the limit of the stream as a plan does. -/
theorem over_limit_iff {limits : Limits} {messages : List Bytes} {stream : Memory.StreamEntry} :
    limits.maxStreamBytes.toNat <
        wrap64 ((StoredStreamMeta.ofEntry stream).totalBytes + batchBytes messages) ↔
      Memory.overStreamLimit limits messages stream = true := decide_eq_true_iff.symm

/-- The metadata written with a batch is that of the entry with the batch stored. -/
theorem insert_messages_meta (name : String) (messages : List Bytes) (stream : Memory.StreamEntry)
    (table : OrderedTable MessageKey Bytes) :
    (insertMessages name messages (.ofEntry stream) table).1 = .ofEntry (stream.store messages) := by
  have hfold : (messages.foldl (insertMessage name) (.ofEntry stream, table)).1 =
      .ofEntry (messages.foldl .push stream) := by
    induction messages generalizing stream table with
    | nil => rfl
    | cons data messages ih => exact ih (stream.push data) _
  exact hfold

variable {clock : Clock} {contentType : String} {seq : Option String} {messages : List Bytes}

/-- `append` carries out its plan. -/
theorem append_ends {data : Bytes} (h : HoldsStream storage name stream)
    (hroom : storage.totalBytes + batchBytes [data] ≤ config.limits.maxTotalBytes.toNat)
    (hbatch : payloadBytes [data] < 2 ^ 64) (hcount : stream.messages.length + 1 ≤ 2 ^ 64) :
    Ends storage name ((append clock storage name data contentType).map .offset id)
      ((Memory.appendPlan clock data contentType stream).run config.limits storage.totalBytes) := by
  have hbytes : byteLen data = batchBytes [data] := (Memory.batch_bytes_singleton data).symm
  have hback := Nat.add_sub_cancel storage.totalBytes (batchBytes [data])
  simp only [append, hbytes, reserve_ok hroom, appendTxn, shard_with_total, h.saved,
    Memory.appendPlan, StoredStreamMeta.ofEntry_config, StoredStreamMeta.ofEntry_closed]
  cases isStreamExpired clock.expiry stream.config with
  | true => exact .refused rfl hback rfl
  | false =>
      simp only [Bool.false_eq_true, ↓reduceIte]
      cases stream.closed with
      | true => exact .refused rfl hback rfl
      | false =>
          simp only [Bool.false_eq_true, ↓reduceIte]
          cases validateContentType stream.config.contentType contentType with
          | error error => exact .refused rfl hback rfl
          | ok _ =>
              simp only [over_limit_iff]
              cases hover : Memory.overStreamLimit config.limits [data] stream with
              | true =>
                  rw [run_commit_of_room hroom, if_pos hover]
                  exact .refused rfl hback rfl
              | false =>
                  refine .stored h hroom hbatch hcount hover rfl (.refl stream) (.refl _) ?_ ?_
                  · exact (notify_stream_shards _ _).2
                  · exact (notify_stream_shards _ _).1

/-- `batch_append` carries out its plan. -/
theorem batch_append_ends (h : HoldsStream storage name stream) (hmessages : messages.isEmpty = false)
    (hroom : storage.totalBytes + batchBytes messages ≤ config.limits.maxTotalBytes.toNat)
    (hbatch : payloadBytes messages < 2 ^ 64)
    (hcount : stream.messages.length + messages.length ≤ 2 ^ 64) :
    Ends storage name ((batchAppend clock storage name messages contentType seq).map .offset id)
      ((Memory.batchAppendPlan clock messages contentType seq stream).run config.limits
        storage.totalBytes) := by
  have hback := Nat.add_sub_cancel storage.totalBytes (batchBytes messages)
  simp only [batchAppend, hmessages, Bool.false_eq_true, ↓reduceIte, reserve_ok hroom,
    batchAppendTxn, shard_with_total, h.saved, Memory.batchAppendPlan,
    StoredStreamMeta.ofEntry_config, StoredStreamMeta.ofEntry_closed,
    StoredStreamMeta.ofEntry_lastSeq]
  cases isStreamExpired clock.expiry stream.config with
  | true => exact .refused rfl hback rfl
  | false =>
      simp only [Bool.false_eq_true, ↓reduceIte]
      cases stream.closed with
      | true => exact .refused rfl hback rfl
      | false =>
          simp only [Bool.false_eq_true, ↓reduceIte]
          cases validateContentType stream.config.contentType contentType with
          | error error => exact .refused rfl hback rfl
          | ok _ =>
              dsimp only
              cases validateSeq stream.lastSeq seq with
              | error error => exact .refused rfl hback rfl
              | ok pending =>
                  simp only [over_limit_iff]
                  cases hover : Memory.overStreamLimit config.limits messages stream with
                  | true =>
                      rw [run_commit_of_room hroom, if_pos hover]
                      exact .refused rfl hback rfl
                  | false =>
                      have hsame := (Memory.SameLog.notifyAll
                        (messages.foldl .push stream)).trans (.recordSeq pending _)
                      simp only [Bool.false_eq_true, ↓reduceIte, insert_messages_meta,
                        StoredStreamMeta.record_seq_of_entry]
                      refine .stored h hroom hbatch hcount hover rfl (.refl stream) hsame ?_ ?_
                      · exact (notify_stream_shards _ _).2
                      · exact (notify_stream_shards _ _).1

/-- Nothing is over the limit of a stream that respects it. -/
theorem HoldsStream.not_over_empty (h : HoldsStream storage name stream) :
    Memory.overStreamLimit config.limits [] stream = false :=
  decide_eq_false (Nat.not_lt.mpr ((Nat.mod_le _ _).trans h.limit))

/-- `append_with_producer` carries out its plan. -/
theorem append_with_producer_ends {producer : ProducerHeaders} {shouldClose : Bool}
    (h : HoldsStream storage name stream)
    (hroom : storage.totalBytes + batchBytes messages ≤ config.limits.maxTotalBytes.toNat)
    (hbatch : payloadBytes messages < 2 ^ 64)
    (hcount : stream.messages.length + messages.length ≤ 2 ^ 64) :
    Ends storage name
      ((appendWithProducer clock storage name messages contentType producer shouldClose seq).map
        .producer id)
      ((Memory.producerPlan clock messages contentType producer shouldClose seq stream).run
        config.limits storage.totalBytes) := by
  have hback := Nat.add_sub_cancel storage.totalBytes (batchBytes messages)
  have hclean := Memory.SameLog.cleanup clock.cleanup stream
  simp only [appendWithProducer, reserve_ok hroom, appendWithProducerTxn, shard_with_total, h.saved,
    Memory.producerPlan, StoredStreamMeta.cleanup_of_entry, StoredStreamMeta.ofEntry_config]
  cases isStreamExpired clock.expiry stream.config with
  | true => exact .refused rfl hback rfl
  | false =>
      simp only [Bool.false_eq_true, ↓reduceIte, StoredStreamMeta.ofEntry_closed,
        StoredStreamMeta.ofEntry_producers, StoredStreamMeta.ofEntry_lastSeq]
      cases (if messages.isEmpty then .ok ()
          else validateContentType (stream.cleanup clock.cleanup).config.contentType contentType :
            Result Unit) with
      | error error => exact .refused rfl hback rfl
      | ok _ =>
          dsimp only
          cases checkProducer ((stream.cleanup clock.cleanup).producers.lookup producer.id) producer
              (stream.cleanup clock.cleanup).closed with
          | error error => exact .refused rfl hback rfl
          | ok check =>
              cases check with
              | duplicate epoch seq =>
                  refine .refused rfl ?_ ?_
                  · exact (notified_shards _ _ _).2.trans hback
                  · exact (notified_shards _ _ _).1
              | accept =>
                  dsimp only
                  cases validateSeq (stream.cleanup clock.cleanup).lastSeq seq with
                  | error error => exact .refused rfl hback rfl
                  | ok pending =>
                      simp only [over_limit_iff]
                      cases hempty : messages.isEmpty with
                      | true =>
                          obtain rfl := List.isEmpty_iff.mp hempty
                          have hover : Memory.overStreamLimit config.limits []
                              (stream.cleanup clock.cleanup) = false := h.not_over_empty
                          simp only [hover, Bool.false_eq_true, ↓reduceIte, insertMessages,
                            List.foldl_nil, StoredStreamMeta.accept_of_entry]
                          have hsame :=
                            hclean.trans (.accept clock producer shouldClose pending _)
                          refine .updated h hsame rfl ?_ ?_
                          · exact (notified_shards _ _ _).2
                          · exact (notified_shards _ _ _).1
                      | false =>
                          simp only [Bool.false_eq_true, ↓reduceIte, Bool.not_false, Bool.true_or]
                          cases hover : Memory.overStreamLimit config.limits messages
                              (stream.cleanup clock.cleanup) with
                          | true =>
                              rw [run_commit_of_room hroom, if_pos hover]
                              exact .refused rfl hback rfl
                          | false =>
                              simp only [Bool.false_eq_true, ↓reduceIte, insert_messages_meta,
                                StoredStreamMeta.accept_of_entry]
                              have hsame := (Memory.SameLog.notifyAll (messages.foldl .push
                                (stream.cleanup clock.cleanup))).trans
                                (.accept clock producer shouldClose pending _)
                              refine .stored h hroom hbatch hcount hover rfl hclean hsame ?_ ?_
                              · exact (notify_stream_shards _ _).2
                              · exact (notify_stream_shards _ _).1

/-- `close_stream` carries out its plan. -/
theorem close_stream_ends (h : HoldsStream storage name stream) :
    Ends storage name ((closeStream clock storage name).map .done id)
      ((Memory.closePlan clock stream).run config.limits storage.totalBytes) := by
  simp only [closeStream, closeTxn, h.saved, Memory.closePlan, StoredStreamMeta.ofEntry_config]
  cases isStreamExpired clock.expiry stream.config with
  | true => exact .refused rfl rfl rfl
  | false =>
      refine .updated h ⟨rfl, rfl, rfl, rfl, rfl, rfl⟩ rfl ?_ ?_
      · exact (notify_stream_shards _ _).2
      · exact (notify_stream_shards _ _).1

/-- `read` returns what it returns from the entry. -/
theorem read_txn_eq (h : HoldsStream storage name stream) (hcount : stream.messages.length < 2 ^ 64)
    (fromOffset : Offset) :
    readTxn clock name fromOffset (storage.shard name) =
      Memory.readSection clock fromOffset stream := by
  have hbytes : stream.totalBytes < 2 ^ 64 :=
    h.limit.trans_lt config.limits.maxStreamBytes.toNat_lt
  simp only [readTxn, h.saved, StoredStreamMeta.ofEntry_config]
  cases hexpired : isStreamExpired clock.expiry stream.config with
  | true => simp only [Memory.readSection, hexpired, ↓reduceIte]
  | false =>
      rw [Memory.read_section_eq h.wellFormed hcount hexpired, if_neg Bool.false_ne_true,
        ← h.wellFormed.next_offset]
      cases fromOffset with
      | now =>
          rw [Log.position, List.drop_length]
          rfl
      | start =>
          have hall := range_all h.wellFormed hbytes h.rows
          simp only [Offset.isNow, Offset.isStart, Bool.false_eq_true, ↓reduceIte, ← hall]
          rfl
      | concrete readSeq byteOffset raw =>
          have hnow : Offset.concrete readSeq byteOffset raw ≠ .now := by simp
          simp only [Offset.isNow, Offset.isStart, Offset.parseComponents, Bool.false_eq_true,
            ↓reduceIte, range_messages raw h.wellFormed hbytes h.rows,
            Memory.drop_position_eq_filter h.wellFormed hcount hnow]
          rfl

/-- `head` returns what it returns for the entry. -/
theorem head_txn_eq (h : HoldsStream storage name stream) (hcount : stream.messages.length < 2 ^ 64) :
    headTxn clock name (storage.shard name) = Memory.headSection clock stream := by
  have hseq : stream.nextReadSeq = stream.messages.length :=
    h.wellFormed.nextReadSeq.trans (wrap64_of_lt hcount)
  simp only [headTxn, h.saved, StoredStreamMeta.ofEntry_config, StoredStreamMeta.ofEntry_nextReadSeq,
    hseq]
  rfl

/-- The calls that look a stream up, with the stream there and room for their messages, carry out
their plans. -/
theorem step_on_stream {call : Call} (hop : Memory.onStream call.op = true)
    (h : HoldsStream storage call.op.name stream)
    (hroom : storage.totalBytes + batchBytes call.op.messages ≤ config.limits.maxTotalBytes.toNat)
    (hcount : stream.messages.length + call.op.messages.length < 2 ^ 64) :
    Ends storage call.op.name (step call storage)
      ((Memory.plan call stream).run config.limits storage.totalBytes) := by
  have hbatch := call.op.payload_lt
  obtain ⟨clock, op⟩ := call
  cases op with
  | append name data contentType fits => exact append_ends h hroom hbatch hcount.le
  | batchAppend name messages contentType seq fits =>
      have hempty : messages.isEmpty = false := by simpa [Memory.onStream] using hop
      exact batch_append_ends h hempty hroom hbatch hcount.le
  | appendWithProducer name messages contentType producer shouldClose seq fits =>
      exact append_with_producer_ends h hroom hbatch hcount.le
  | closeStream name => exact close_stream_ends h
  | read name fromOffset =>
      have h : HoldsStream storage name stream := h
      simp only [step, read_txn_eq h hcount fromOffset, Memory.plan, Memory.Plan.run]
      exact .refused rfl rfl rfl
  | head name =>
      have h : HoldsStream storage name stream := h
      simp only [step, head_txn_eq h hcount, Memory.plan, Memory.Plan.run]
      exact .refused rfl rfl rfl
  | subscribe name =>
      have h : HoldsStream storage name stream := h
      simp only [step, subscribe, h.saved, Memory.plan, Memory.Plan.run,
        StoredStreamMeta.ofEntry_config]
      cases isStreamExpired clock.expiry stream.config with
      | true => exact .refused rfl rfl rfl
      | false =>
          simp only [Bool.false_eq_true, ↓reduceIte]
          cases storage.notifiers.lookup name <;>
            exact ⟨rfl, rfl, fun _ => rfl, fun hwrites => by cases hwrites⟩
  | createStream | delete | createStreamWithData | «exists» => simp [Memory.onStream] at hop

/-- Without the stream they report that it is missing and leave everything as it was. -/
theorem step_missing {call : Call} (hop : Memory.onStream call.op = true)
    (hlookup : (storage.shard call.op.name).streams.lookup call.op.name = none)
    (hroom : storage.totalBytes + batchBytes call.op.messages ≤
      config.limits.maxTotalBytes.toNat) :
    step call storage = (Memory.missingReply call.op, storage) := by
  have hback := Nat.add_sub_cancel storage.totalBytes (batchBytes call.op.messages)
  obtain ⟨clock, op⟩ := call
  cases op with
  | append name data contentType fits =>
      simp only [Op.messages, Memory.batch_bytes_singleton] at hroom hback
      simp only [Op.name] at hlookup
      simp [step, append, reserve_ok hroom, appendTxn, hlookup, AcidStorage.subTotalBytes, hback,
        Memory.missingReply]
  | batchAppend name messages contentType seq fits =>
      have hempty : messages.isEmpty = false := by simpa [Memory.onStream] using hop
      simp only [Op.messages] at hroom hback
      simp only [Op.name] at hlookup
      simp [step, batchAppend, hempty, reserve_ok hroom, batchAppendTxn, hlookup,
        AcidStorage.subTotalBytes, hback, Memory.missingReply]
  | appendWithProducer name messages contentType producer shouldClose seq fits =>
      simp only [Op.messages] at hroom hback
      simp only [Op.name] at hlookup
      simp [step, appendWithProducer, reserve_ok hroom, appendWithProducerTxn, hlookup,
        AcidStorage.subTotalBytes, hback, Memory.missingReply]
  | closeStream name =>
      simp only [Op.name] at hlookup
      simp [step, closeStream, closeTxn, hlookup, Memory.missingReply]
  | read name fromOffset =>
      simp only [Op.name] at hlookup
      simp [step, readTxn, hlookup, Memory.missingReply]
  | head name =>
      simp only [Op.name] at hlookup
      simp [step, headTxn, hlookup, Memory.missingReply]
  | subscribe name =>
      simp only [Op.name] at hlookup
      simp [step, subscribe, hlookup, Memory.missingReply]
  | createStream | delete | createStreamWithData | «exists» => simp [Memory.onStream] at hop

/-- Without room for their messages they are refused before anything is looked at. -/
theorem step_no_room {call : Call} (hop : Memory.onStream call.op = true)
    (htotal : storage.totalBytes ≤ config.limits.maxTotalBytes.toNat)
    (hroom : config.limits.maxTotalBytes.toNat <
      storage.totalBytes + batchBytes call.op.messages) :
    step call storage = (call.op.failure .memoryLimitExceeded, storage) := by
  obtain ⟨clock, op⟩ := call
  have hrefused := reserve_refused htotal hroom
  cases op with
  | append name data contentType fits =>
      simp only [Op.messages, Memory.batch_bytes_singleton] at hrefused
      simp [step, append, hrefused, Op.failure]
  | batchAppend name messages contentType seq fits =>
      have hempty : messages.isEmpty = false := by simpa [Memory.onStream] using hop
      simp only [Op.messages] at hrefused
      simp [step, batchAppend, hempty, hrefused, Op.failure]
  | appendWithProducer name messages contentType producer shouldClose seq fits =>
      simp only [Op.messages] at hrefused
      simp [step, appendWithProducer, hrefused, Op.failure]
  | closeStream | read | head | subscribe => exact absurd hroom (Nat.not_lt.mpr htotal)
  | createStream | delete | createStreamWithData | «exists» => simp [Memory.onStream] at hop

end Streams

end DurableStreams.Acid
