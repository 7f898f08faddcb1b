import DurableStreams.Lib.FiniteMap
import DurableStreams.Protocol.Error
import DurableStreams.Protocol.Offset

/-!
# Data model and validation shared by the storage backends

The types and helpers of `storage/mod.rs`. All three backends delegate content-type, Stream-Seq,
producer and expiry validation to the functions below, so their specification lemmas
(`check_producer_accept_iff`, `check_producer_duplicate_iff`) are stated once here.

Unsigned 64-bit counters are natural numbers; every addition the source leaves unchecked goes
through `wrap64`. An operation reads the wall clock at up to three points of its body; `Clock`
carries one reading for each, in no assumed order.
-/

namespace DurableStreams

open Lib

/-- A message payload or any other byte string. -/
abbrev Bytes := List UInt8

/-- An instant, in nanoseconds since the epoch. -/
abbrev Timestamp := Int

/-- A `std::collections::HashMap` keyed by strings. -/
abbrev HashMap (α : Type) := FiniteMap String α

/-- The readings of `Utc::now()` during one operation: the one that decides expiry, the one that
sets the cutoff for stale producers, and the one stored as a creation or update time. -/
structure Clock where
  expiry : Timestamp
  cleanup : Timestamp
  stamp : Timestamp
  deriving DecidableEq, Repr

/-- A clock that shows the same instant at every reading of an operation. -/
def Clock.at (now : Timestamp) : Clock := ⟨now, now, now⟩

/-! ## 64-bit arithmetic -/

/-- The value kept by a `u64` addition that overflows. -/
def wrap64 (value : Nat) : Nat := value % 2 ^ 64

/-- Values below `2 ^ 64` do not wrap. -/
theorem wrap64_of_lt {value : Nat} (h : value < 2 ^ 64) : wrap64 value = value :=
  Nat.mod_eq_of_lt h

/-- A wrapped value fits in 64 bits. -/
theorem wrap64_lt (value : Nat) : wrap64 value < 2 ^ 64 :=
  Nat.mod_lt _ (by decide)

/-- `u64::checked_add`. -/
def checkedAdd (left right : Nat) : Option Nat :=
  if left + right < 2 ^ 64 then some (left + right) else none

/-- `u64::try_from(data.len()).unwrap_or(u64::MAX)`. -/
def byteLen (data : Bytes) : Nat :=
  if data.length < 2 ^ 64 then data.length else 2 ^ 64 - 1

/-- The byte length of a payload that fits in memory is its length. -/
theorem byte_len_of_lt {data : Bytes} (h : data.length < 2 ^ 64) : byteLen data = data.length :=
  if_pos h

/-- The number of payload bytes of a batch. -/
def payloadBytes (messages : List Bytes) : Nat := (messages.map List.length).sum

/-- The payload bytes of a batch with one more message in front. -/
@[simp] theorem payload_bytes_cons (data : Bytes) (messages : List Bytes) :
    payloadBytes (data :: messages) = data.length + payloadBytes messages := rfl

/-- The payload bytes of two batches add up. -/
@[simp] theorem payload_bytes_append (first second : List Bytes) :
    payloadBytes (first ++ second) = payloadBytes first + payloadBytes second := by
  simp [payloadBytes]

/-- There are at most as many messages as bytes, if none is empty. -/
theorem length_le_payload_bytes {messages : List Bytes} (h : ∀ data ∈ messages, data ≠ []) :
    messages.length ≤ payloadBytes messages := by
  induction messages with
  | nil => exact Nat.zero_le _
  | cons data messages ih =>
      have hdata := List.length_pos_iff.mpr (h data (by simp))
      have hrest := ih fun other hother => h other (by simp [hother])
      rw [payload_bytes_cons, List.length_cons]
      omega

/-- The batch size as the code accumulates it, one `u64` addition for each message. -/
def batchBytes (messages : List Bytes) : Nat :=
  messages.foldl (fun total data => wrap64 (total + byteLen data)) 0

/-- The accumulated batch size is the payload size when that fits in 64 bits. -/
theorem batch_bytes_eq {messages : List Bytes} (h : payloadBytes messages < 2 ^ 64) :
    batchBytes messages = payloadBytes messages := by
  suffices hfold : ∀ total, total + payloadBytes messages < 2 ^ 64 →
      messages.foldl (fun total data => wrap64 (total + byteLen data)) total =
        total + payloadBytes messages by
    simpa [batchBytes] using hfold 0 (by simpa using h)
  clear h
  induction messages with
  | nil => simp [payloadBytes]
  | cons data messages ih =>
      intro total hfits
      rw [payload_bytes_cons] at hfits ⊢
      rw [List.foldl_cons, byte_len_of_lt (by omega), wrap64_of_lt (by omega), ih _ (by omega)]
      omega

/-! ## Streams and messages -/

/-- Immutable configuration set when a stream is created. -/
structure StreamConfig where
  contentType : String
  ttlSeconds : Option Nat
  expiresAt : Option Timestamp
  createdClosed : Bool
  deriving DecidableEq, Repr

/-- A plain-text stream that never expires. -/
def StreamConfig.plain : StreamConfig := ⟨"text/plain", none, none, false⟩

/-- `PartialEq for StreamConfig`: with a TTL the derived expiry drifts and is not compared. -/
def StreamConfig.partialEq (left right : StreamConfig) : Bool :=
  left.contentType == right.contentType && left.ttlSeconds == right.ttlSeconds &&
    left.createdClosed == right.createdClosed &&
    (left.ttlSeconds.isSome || left.expiresAt == right.expiresAt)

/-- A stored message with its offset and byte length. -/
structure Message where
  offset : Offset
  data : Bytes
  byteLen : Nat
  deriving DecidableEq, Repr

/-- Create a message. -/
def Message.new (offset : Offset) (data : Bytes) : Message :=
  ⟨offset, data, DurableStreams.byteLen data⟩

/-- What a read returns: messages, resumption offset and tail state from one snapshot. -/
structure ReadResult where
  messages : List Bytes
  nextOffset : Offset
  atTail : Bool
  closed : Bool
  deriving DecidableEq, Repr

/-- Stream metadata as returned by `head`. -/
structure StreamMetadata where
  config : StreamConfig
  nextOffset : Offset
  closed : Bool
  totalBytes : Nat
  messageCount : Nat
  createdAt : Timestamp
  deriving DecidableEq, Repr

/-- Whether a create made a new stream or found a matching one. -/
inductive CreateStreamResult where
  | created
  | alreadyExists
  deriving DecidableEq, Repr

/-- The result of an atomic create with data. -/
structure CreateWithDataResult where
  status : CreateStreamResult
  nextOffset : Offset
  closed : Bool
  deriving DecidableEq, Repr

/-- The result of an append with producer sequencing. -/
inductive ProducerAppendResult where
  | accepted (epoch seq : Nat) (nextOffset : Offset) (closed : Bool)
  | duplicate (epoch seq : Nat) (nextOffset : Offset) (closed : Bool)
  deriving DecidableEq, Repr

/-- Parsed producer headers of a request. -/
structure ProducerHeaders where
  id : String
  epoch : Nat
  seq : Nat
  deriving DecidableEq, Repr

/-- Per-producer state tracked within a stream. -/
structure ProducerState where
  epoch : Nat
  lastSeq : Nat
  updatedAt : Timestamp
  deriving DecidableEq, Repr

/-- The outcome of producer validation before any mutation. -/
inductive ProducerCheck where
  | accept
  | duplicate (epoch seq : Nat)
  deriving DecidableEq, Repr

/-! ## Shared validation -/

/-- Duration after which stale producer state is cleaned up: 7 days. -/
def producerStateTtlSecs : Int := 7 * 24 * 60 * 60

/-- The instant at or before which producer state is stale for a request made at `now`. -/
def staleCutoff (now : Timestamp) : Timestamp := now - producerStateTtlSecs * 1000000000

/-- The cutoff moves with the clock. -/
theorem stale_cutoff_mono {first second : Timestamp} (h : first ≤ second) :
    staleCutoff first ≤ staleCutoff second :=
  Int.sub_le_sub_right h _

/-- Whether the stream has expired at `now`. -/
def isStreamExpired (now : Timestamp) (config : StreamConfig) : Bool :=
  match config.expiresAt with
  | some expiresAt => decide (expiresAt ≤ now)
  | none => false

/-- `str::eq_ignore_ascii_case`. -/
def eqIgnoreAsciiCase (left right : String) : Bool :=
  left.toList.map Char.toLower == right.toList.map Char.toLower

/-- Check the request's content type against the stream's, ignoring ASCII case. -/
def validateContentType (streamCt requestCt : String) : Result Unit :=
  if eqIgnoreAsciiCase requestCt streamCt then .ok ()
  else .error (.contentTypeMismatch streamCt requestCt)

/-- The UTF-8 bytes of a string, by which Rust compares `str` values. -/
def strBytes (text : String) : Bytes := text.toByteArray.data.toList

/-- Strings with the same bytes are the same. -/
theorem str_bytes_inj {left right : String} (h : strBytes left = strBytes right) : left = right := by
  unfold strBytes at h
  have hdata : left.toByteArray.data = right.toByteArray.data := Array.toList_inj.mp h
  exact String.toByteArray_inj.mp (ByteArray.ext hdata)

/-- Check Stream-Seq ordering and return the pending value to commit. -/
def validateSeq (lastSeq newSeq : Option String) : Result (Option String) :=
  match newSeq with
  | none => .ok none
  | some new =>
      match lastSeq with
      | none => .ok (some new)
      | some last =>
          if strBytes last < strBytes new then .ok (some new)
          else .error (.seqOrderingViolation last new)

/-- Drop the producer entries whose last update is not after the cutoff. -/
def cleanupStaleProducers (now : Timestamp) (producers : HashMap ProducerState) :
    HashMap ProducerState :=
  FiniteMap.retain (fun state => decide (staleCutoff now < state.updatedAt)) producers

/-- Check a producer's epoch and sequence against its stored state: epoch fencing, then duplicate
detection, then the closed check, then gap and epoch-bump validation. -/
def checkProducer (existing : Option ProducerState) (producer : ProducerHeaders)
    (streamClosed : Bool) : Result ProducerCheck :=
  match existing with
  | some state =>
      if producer.epoch < state.epoch then .error (.epochFenced state.epoch producer.epoch)
      else if producer.epoch = state.epoch ∧ producer.seq ≤ state.lastSeq then
        .ok (.duplicate state.epoch state.lastSeq)
      else if streamClosed then .error .streamClosed
      else if state.epoch < producer.epoch then
        if producer.seq ≠ 0 then .error (.invalidProducerState "new epoch must start at seq 0")
        else .ok .accept
      else if state.lastSeq + 1 < producer.seq then
        .error (.sequenceGap (state.lastSeq + 1) producer.seq)
      else .ok .accept
  | none =>
      if streamClosed then .error .streamClosed
      else if producer.seq ≠ 0 then .error (.sequenceGap 0 producer.seq)
      else .ok .accept

/-- The requests a producer may make next: the first of a new producer or epoch, or the successor
of the last accepted one. -/
def NextRequest (existing : Option ProducerState) (producer : ProducerHeaders) : Prop :=
  match existing with
  | none => producer.seq = 0
  | some state =>
      state.epoch < producer.epoch ∧ producer.seq = 0 ∨
      state.epoch = producer.epoch ∧ producer.seq = state.lastSeq + 1

/-- Validation accepts exactly the next request of an open stream. -/
theorem check_producer_accept_iff {existing : Option ProducerState} {producer : ProducerHeaders}
    {closed : Bool} :
    checkProducer existing producer closed = .ok .accept ↔
      closed = false ∧ NextRequest existing producer := by
  cases existing with
  | none => cases closed <;> simp [checkProducer, NextRequest]
  | some state =>
      cases closed <;> simp only [checkProducer, NextRequest] <;> grind

/-- Validation reports a duplicate exactly for a request of the stored epoch that is not newer
than the stored sequence number, whether or not the stream is closed. -/
theorem check_producer_duplicate_iff {existing : Option ProducerState}
    {producer : ProducerHeaders} {closed : Bool} {epoch seq : Nat} :
    checkProducer existing producer closed = .ok (.duplicate epoch seq) ↔
      ∃ state, existing = some state ∧ producer.epoch = state.epoch ∧
        producer.seq ≤ state.lastSeq ∧ state.epoch = epoch ∧ state.lastSeq = seq := by
  cases existing with
  | none => cases closed <;> simp only [checkProducer] <;> grind
  | some state => cases closed <;> simp only [checkProducer] <;> grind

/-- A lookup after cleanup finds the record exactly when it is newer than the cutoff. -/
theorem lookup_cleanup (now : Timestamp) (producers : HashMap ProducerState) (id : String) :
    (cleanupStaleProducers now producers).lookup id =
      (producers.lookup id).filter fun state => decide (staleCutoff now < state.updatedAt) :=
  FiniteMap.lookup_retain _ _ _

/-- An earlier cleanup makes no difference to a later one. -/
theorem cleanup_cleanup {first second : Timestamp} (h : first ≤ second)
    (producers : HashMap ProducerState) :
    cleanupStaleProducers second (cleanupStaleProducers first producers) =
      cleanupStaleProducers second producers := by
  refine Finmap.ext_lookup fun id => ?_
  rw [lookup_cleanup, lookup_cleanup, lookup_cleanup, Option.filter_filter]
  congr 1
  funext state
  have hcutoff := stale_cutoff_mono h
  rw [Bool.and_eq_right_iff_imp, decide_eq_true_eq, decide_eq_true_eq]
  exact Int.lt_of_le_of_lt hcutoff

end DurableStreams
