import DurableStreams.Storage.Acid.Operations
import DurableStreams.Storage.Memory.Reads

/-!
# The rows of a stream

The messages of all streams of a shard are kept in one ordered table, under keys that start with the
name of the stream. The rows of a stream are the part of the table with its name. What they should be
is said by an in-memory entry: one row for each message, under the components of its offset. Writing
messages extends the rows of their stream, purging a stream empties them, and both leave the rows of
every other stream alone, also if one name is a prefix of the other.
-/

namespace DurableStreams.Acid

open Lib

/-- The part of a message key that names the stream. -/
def nameKey (name : String) : List Nat := (strBytes name).map UInt8.toNat

/-- Whether a key belongs to a stream. -/
def ofName (name : String) (key : MessageKey) : Bool := (ofLex key).1 = nameKey name

/-- The key of a stored message, by the components of its offset. -/
def rowKey (name : String) (message : Message) : MessageKey :=
  match message.offset.parseComponents with
  | some (readSeq, byteOffset) => messageKey name readSeq byteOffset
  | none => firstKey name

/-- The rows that hold the messages of an entry. -/
def rows (name : String) (stream : Memory.StreamEntry) : List (MessageKey × Bytes) :=
  stream.messages.map fun message => (rowKey name message, message.data)

/-! ## Keys -/

/-- Different names have different keys. -/
theorem name_key_inj {left right : String} (h : nameKey left = nameKey right) : left = right :=
  str_bytes_inj (List.map_injective_iff.mpr (fun _ _ heq => UInt8.toNat_inj.mp heq) h)

/-- A key belongs to the stream it was made for. -/
@[simp] theorem of_name_message_key (name other : String) (readSeq byteOffset : Nat) :
    ofName other (messageKey name readSeq byteOffset) = decide (name = other) := by
  refine decide_eq_decide.mpr ⟨fun h => name_key_inj h, fun h => ?_⟩
  rw [h]
  rfl

/-- Keys of one stream are ordered by their offsets. -/
theorem message_key_lt_iff {name : String} {readSeq byteOffset readSeq' byteOffset' : Nat} :
    messageKey name readSeq byteOffset < messageKey name readSeq' byteOffset' ↔
      readSeq < readSeq' ∨ readSeq = readSeq' ∧ byteOffset < byteOffset' := by
  simp [messageKey, Prod.Lex.toLex_lt_toLex]

/-- Keys of one stream are ordered by their offsets. -/
theorem message_key_le_iff {name : String} {readSeq byteOffset readSeq' byteOffset' : Nat} :
    messageKey name readSeq byteOffset ≤ messageKey name readSeq' byteOffset' ↔
      readSeq < readSeq' ∨ readSeq = readSeq' ∧ byteOffset ≤ byteOffset' := by
  simp [messageKey, Prod.Lex.toLex_le_toLex]

/-- Between two keys of a stream there are only keys of that stream. -/
theorem of_name_of_between {name : String} {key : MessageKey}
    {readSeq byteOffset readSeq' byteOffset' : Nat} (hlow : messageKey name readSeq byteOffset ≤ key)
    (hhigh : key ≤ messageKey name readSeq' byteOffset') : ofName name key = true := by
  have hlow := Prod.Lex.monotone_fst _ _ hlow
  have hhigh := Prod.Lex.monotone_fst _ _ hhigh
  exact decide_eq_true (le_antisymm hhigh hlow)

/-- A change to a table of messages that touches the rows of one stream only. -/
structure OnlyTouches (name : String) (before after : OrderedTable MessageKey Bytes) : Prop where
  others : ∀ other, other ≠ name → after.part (ofName other) = before.part (ofName other)
  origin : ∀ entry ∈ after.entries, entry ∈ before.entries ∨ ofName name entry.1 = true

namespace OnlyTouches

variable {name : String} {first second third : OrderedTable MessageKey Bytes}

theorem refl (name : String) (table : OrderedTable MessageKey Bytes) :
    OnlyTouches name table table := ⟨fun _ _ => rfl, fun _ => .inl⟩

theorem trans (h : OnlyTouches name first second) (h' : OnlyTouches name second third) :
    OnlyTouches name first third where
  others := fun other hother => (h'.others other hother).trans (h.others other hother)
  origin := fun entry hentry => (h'.origin entry hentry).elim (h.origin entry) .inr

/-- Writing a message of a stream. -/
theorem insert (table : OrderedTable MessageKey Bytes) (name : String) (readSeq byteOffset : Nat)
    (data : Bytes) : OnlyTouches name table (table.insert (messageKey name readSeq byteOffset) data)
    where
  others := fun other hother => OrderedTable.part_insert_other (by simp [hother.symm])
  origin := fun entry hentry => by
    rcases OrderedTable.mem_insert_entry hentry with rfl | hold
    · exact .inr (by simp)
    · exact .inl hold

/-- Purging a stream. -/
theorem delete (name : String) (table : OrderedTable MessageKey Bytes) :
    OnlyTouches name table (deleteStreamMessages name table) where
  others := fun other hother => by
    refine OrderedTable.part_remove_all_other fun key hkey => ?_
    obtain ⟨entry, hentry, rfl⟩ := List.mem_map.mp hkey
    obtain ⟨hlow, hhigh⟩ := of_decide_eq_true (OrderedTable.mem_part.mp hentry).2
    have hname := of_decide_eq_true (of_name_of_between hlow hhigh)
    exact decide_eq_false fun h => hother (name_key_inj (h.symm.trans hname))
  origin := fun entry hentry => by
    rw [deleteStreamMessages, OrderedTable.remove_all_entries] at hentry
    exact .inl (List.mem_of_mem_filter hentry)

end OnlyTouches

/-! ## Rows -/

section Rows

variable {name : String} {stream : Memory.StreamEntry} {table : OrderedTable MessageKey Bytes}

/-- The rows are about the log alone. -/
theorem rows_of_same_log {after : Memory.StreamEntry} (name : String)
    (h : Memory.SameLog stream after) : rows name after = rows name stream := by
  rw [rows, h.messages, rows]

/-- The key of a message is its number and the bytes before it. -/
theorem row_key_eq (h : Memory.WellFormed stream) {index : Nat}
    (hindex : index < stream.messages.length) :
    rowKey name stream.messages[index] =
      messageKey name (wrap64 index) (payloadBytes (stream.payloads.take index)) := by
  rw [rowKey, h.message_offset hindex]
  rfl

/-- The keys of a stream with fewer than `2 ^ 64` messages. -/
theorem rows_keys (name : String) (h : Memory.WellFormed stream)
    (hcount : stream.messages.length < 2 ^ 64) :
    (rows name stream).map Prod.fst = (List.range stream.messages.length).map fun index =>
      messageKey name index (payloadBytes (stream.payloads.take index)) := by
  refine List.ext_getElem (by simp [rows]) fun index hleft hright => ?_
  have hindex : index < stream.messages.length := by simpa using hright
  simp [rows, row_key_eq h hindex, wrap64_of_lt (hindex.trans hcount)]

/-- Every row comes before the next key of its stream. -/
theorem rows_lt_next (name : String) (h : Memory.WellFormed stream)
    (hcount : stream.messages.length < 2 ^ 64) :
    ∀ entry ∈ rows name stream,
      entry.1 < messageKey name stream.nextReadSeq stream.nextByteOffset := by
  intro entry hentry
  obtain ⟨message, hmessage, rfl⟩ := List.mem_map.mp hentry
  obtain ⟨index, hindex, rfl⟩ := List.mem_iff_getElem.mp hmessage
  rw [row_key_eq h hindex, h.nextReadSeq, wrap64_of_lt hcount, wrap64_of_lt (hindex.trans hcount)]
  exact message_key_lt_iff.mpr (.inl hindex)

/-- No row lies outside the range of keys a purge of its stream covers. -/
theorem rows_in_range (name : String) (h : Memory.WellFormed stream) (hbytes : stream.totalBytes < 2 ^ 64) :
    ∀ entry ∈ rows name stream, firstKey name ≤ entry.1 ∧ entry.1 ≤ lastKey name := by
  intro entry hentry
  obtain ⟨message, hmessage, rfl⟩ := List.mem_map.mp hentry
  obtain ⟨index, hindex, rfl⟩ := List.mem_iff_getElem.mp hmessage
  rw [row_key_eq h hindex]
  have hseq := wrap64_lt index
  have hoffset : payloadBytes (stream.payloads.take index) ≤ payloadBytes stream.payloads := by
    conv_rhs => rw [← List.take_append_drop index stream.payloads, payload_bytes_append]
    exact Nat.le_add_right ..
  rw [← h.totalBytes] at hoffset
  exact ⟨message_key_le_iff.mpr (by omega), message_key_le_iff.mpr (by omega)⟩

/-- Purging a stream leaves no row of it. -/
theorem part_delete (h : Memory.WellFormed stream) (hbytes : stream.totalBytes < 2 ^ 64)
    (hrows : table.part (ofName name) = rows name stream) :
    (deleteStreamMessages name table).part (ofName name) = [] := by
  refine OrderedTable.part_remove_all fun entry hentry => ?_
  have hmem := OrderedTable.mem_part.mp hentry
  rw [hrows] at hentry
  have hrange := rows_in_range name h hbytes entry hentry
  exact List.mem_map.mpr ⟨entry, OrderedTable.mem_part.mpr ⟨hmem.1, decide_eq_true hrange⟩, rfl⟩

/-- A range of keys of one stream is taken from the rows of that stream. -/
theorem range_eq_filter (readSeq byteOffset : Nat) :
    table.range (messageKey name readSeq byteOffset) (lastKey name) =
      (table.part (ofName name)).filter fun entry =>
        messageKey name readSeq byteOffset ≤ entry.1 ∧ entry.1 ≤ lastKey name := by
  rw [OrderedTable.range, OrderedTable.part, OrderedTable.part, List.filter_filter]
  refine List.filter_congr fun entry _ => ?_
  rw [Eq.comm, Bool.and_eq_left_iff_imp]
  intro hrange
  obtain ⟨hlow, hhigh⟩ := of_decide_eq_true hrange
  exact of_name_of_between hlow hhigh

/-- Reading the keys from an offset on returns the messages that are not before the offset. -/
theorem range_messages {readSeq byteOffset : Nat} (raw : List UInt8) (h : Memory.WellFormed stream)
    (hbytes : stream.totalBytes < 2 ^ 64) (hrows : table.part (ofName name) = rows name stream) :
    (table.range (messageKey name readSeq byteOffset) (lastKey name)).map Prod.snd =
      (stream.messages.filter fun message =>
        message.offset.cmp (.concrete readSeq byteOffset raw) ≠ .lt).map Message.data := by
  rw [range_eq_filter, hrows, rows, List.filter_map, List.map_map]
  refine congrArg (List.map Message.data) (List.filter_congr fun message hmessage => ?_)
  have hrange := rows_in_range name h hbytes _
    (List.mem_map.mpr ⟨message, hmessage, rfl⟩)
  obtain ⟨index, hindex, rfl⟩ := List.mem_iff_getElem.mp hmessage
  refine decide_eq_decide.mpr ?_
  rw [and_iff_left hrange.2]
  dsimp only
  rw [row_key_eq h hindex, h.message_offset hindex, Log.offsetAt, Ne, Offset.cmp_new_lt_iff,
    message_key_le_iff]
  omega

/-- Reading all keys returns all messages. -/
theorem range_all (h : Memory.WellFormed stream) (hbytes : stream.totalBytes < 2 ^ 64)
    (hrows : table.part (ofName name) = rows name stream) :
    (table.range (firstKey name) (lastKey name)).map Prod.snd = stream.payloads := by
  have hall : ∀ entry ∈ rows name stream,
      decide (messageKey name 0 0 ≤ entry.1 ∧ entry.1 ≤ lastKey name) = true :=
    fun entry hentry => decide_eq_true (rows_in_range name h hbytes entry hentry)
  rw [firstKey, range_eq_filter, hrows, List.filter_eq_self.mpr hall, rows, List.map_map]
  rfl

end Rows

/-! ## Metadata and rows together -/

/-- The metadata of an entry. Its messages are kept elsewhere. -/
@[simps] def StoredStreamMeta.ofEntry (stream : Memory.StreamEntry) : StoredStreamMeta where
  config := stream.config
  closed := stream.closed
  nextReadSeq := stream.nextReadSeq
  nextByteOffset := stream.nextByteOffset
  totalBytes := stream.totalBytes
  createdAt := stream.createdAt
  lastSeq := stream.lastSeq
  producers := stream.producers

namespace StoredStreamMeta

/-- Remembering a Stream-Seq value commutes with taking the metadata. -/
theorem record_seq_of_entry (pending : Option String) (stream : Memory.StreamEntry) :
    (ofEntry stream).recordSeq pending = ofEntry (stream.recordSeq pending) := by
  cases pending <;> rfl

/-- Closing commutes with taking the metadata. -/
theorem close_if_of_entry (shouldClose : Bool) (stream : Memory.StreamEntry) :
    (ofEntry stream).closeIf shouldClose = ofEntry (stream.closeIf shouldClose) := by
  cases shouldClose <;> rfl

/-- Dropping stale producer records commutes with taking the metadata. -/
theorem cleanup_of_entry (now : Timestamp) (stream : Memory.StreamEntry) :
    (ofEntry stream).cleanup now = ofEntry (stream.cleanup now) := rfl

/-- Accepting a producer request commutes with taking the metadata. -/
theorem accept_of_entry (clock : Clock) (producer : ProducerHeaders) (shouldClose : Bool)
    (pending : Option String) (stream : Memory.StreamEntry) :
    (((ofEntry stream).recordSeq pending).closeIf shouldClose).recordProducer clock.stamp producer =
      ofEntry (stream.accept clock producer shouldClose pending) := by
  rw [record_seq_of_entry, close_if_of_entry]
  rfl

end StoredStreamMeta

/-- Metadata and a table of messages that hold a stream. -/
structure Holds (name : String) (stream : Memory.StreamEntry)
    (state : StoredStreamMeta × OrderedTable MessageKey Bytes) : Prop where
  saved : state.1 = .ofEntry stream
  rows : state.2.part (ofName name) = rows name stream

namespace Holds

variable {name : String} {stream : Memory.StreamEntry}
  {state : StoredStreamMeta × OrderedTable MessageKey Bytes}

/-- Writing one message at the tail. -/
theorem push (h : Holds name stream state) (hstream : Memory.WellFormed stream)
    (hcount : stream.messages.length < 2 ^ 64) (data : Bytes) :
    Holds name (stream.push data) (insertMessage name state data) where
  saved := by
    rw [insertMessage, h.saved]
    rfl
  rows := by
    have hlast := rows_lt_next name hstream hcount
    rw [← h.rows] at hlast
    simp only [insertMessage, h.saved]
    refine (OrderedTable.part_insert_last (by simp) hlast).trans ?_
    rw [h.rows, Acid.rows, Acid.rows, Memory.StreamEntry.push, List.map_append]
    rfl

/-- Writing a batch at the tail, as long as it fits. -/
theorem foldl_push (h : Holds name stream state) (hstream : Memory.WellFormed stream)
    {messages : List Bytes} (hfits : stream.totalBytes + payloadBytes messages < 2 ^ 64)
    (hcount : stream.messages.length + messages.length ≤ 2 ^ 64) :
    Holds name (messages.foldl .push stream) (messages.foldl (insertMessage name) state) := by
  induction messages generalizing stream state with
  | nil => exact h
  | cons data messages ih =>
      rw [payload_bytes_cons] at hfits
      rw [List.length_cons] at hcount
      have hpush : Memory.WellFormed (stream.push data) := hstream.push (by omega)
      refine ih (h.push hstream (by omega) data) hpush ?_ ?_
      · rw [hpush.totalBytes, Memory.payloads_push, payload_bytes_append, ← hstream.totalBytes]
        simpa [payloadBytes, Nat.add_assoc] using hfits
      · simp only [Memory.StreamEntry.push, List.length_append, List.length_singleton]
        omega

end Holds

/-- Writing messages touches the rows of their stream only. -/
theorem foldl_insert_message_touches (name : String) (messages : List Bytes)
    (state : StoredStreamMeta × OrderedTable MessageKey Bytes) :
    OnlyTouches name state.2 (messages.foldl (insertMessage name) state).2 := by
  induction messages generalizing state with
  | nil => exact .refl name state.2
  | cons data messages ih =>
      have hfirst : OnlyTouches name state.2 (insertMessage name state data).2 := .insert ..
      exact hfirst.trans (ih _)

end DurableStreams.Acid
