import DurableStreams.Storage.Basic

/-!
# The storage interface

The operations of the `Storage` trait as data, so that a run of a backend is a list of calls. A
call pairs an operation with the clock readings it makes. The messages of one request are slices
of one body buffer, so an operation carries the fact that its payload bytes fit in 64 bits.
-/

namespace DurableStreams

/-- The byte limits a backend is configured with. -/
structure Limits where
  maxTotalBytes : UInt64
  maxStreamBytes : UInt64
  deriving DecidableEq, Repr

/-- The receiving end of a stream's notification channel: how many sends it has missed nothing
of. A receiver has something pending once the channel has seen more sends. -/
structure Receiver where
  seen : Nat
  deriving DecidableEq, Repr

/-- One operation of the `Storage` trait with its arguments. -/
inductive Op where
  | createStream (name : String) (config : StreamConfig)
  | append (name : String) (data : Bytes) (contentType : String)
      (fits : data.length < 2 ^ 64)
  | batchAppend (name : String) (messages : List Bytes) (contentType : String)
      (seq : Option String) (fits : payloadBytes messages < 2 ^ 64)
  | read (name : String) (fromOffset : Offset)
  | delete (name : String)
  | head (name : String)
  | closeStream (name : String)
  | appendWithProducer (name : String) (messages : List Bytes) (contentType : String)
      (producer : ProducerHeaders) (shouldClose : Bool) (seq : Option String)
      (fits : payloadBytes messages < 2 ^ 64)
  | createStreamWithData (name : String) (config : StreamConfig) (messages : List Bytes)
      (shouldClose : Bool) (fits : payloadBytes messages < 2 ^ 64)
  | exists (name : String)
  | subscribe (name : String)
  deriving DecidableEq

/-- The stream an operation is about. -/
def Op.name : Op → String
  | .createStream name _ | .append name _ _ _ | .batchAppend name _ _ _ _ | .read name _
  | .delete name | .head name | .closeStream name | .appendWithProducer name _ _ _ _ _ _
  | .createStreamWithData name _ _ _ _ | .exists name | .subscribe name => name

/-- The messages an operation carries. -/
def Op.messages : Op → List Bytes
  | .append _ data _ _ => [data]
  | .batchAppend _ messages _ _ _ | .appendWithProducer _ messages _ _ _ _ _
  | .createStreamWithData _ _ messages _ _ => messages
  | _ => []

/-- The configuration of the stream that an operation would create. -/
def Op.config : Op → Option StreamConfig
  | .createStream _ config | .createStreamWithData _ config _ _ _ => some config
  | _ => none

/-- Whether an operation is an append with producer sequencing. -/
def Op.isProducerAppend : Op → Bool
  | .appendWithProducer .. => true
  | _ => false

/-- The Stream-Seq value an operation carries. -/
def Op.seq : Op → Option String
  | .batchAppend _ _ _ seq _ | .appendWithProducer _ _ _ _ _ seq _ => seq
  | _ => none

/-- Whether an operation appends a batch and may change the metadata of its stream with it. -/
def Op.isBatch : Op → Bool
  | .batchAppend .. | .appendWithProducer .. => true
  | _ => false

/-- A create is no append of a batch. -/
theorem Op.is_batch_of_config {op : Op} (h : op.config.isSome = true) : op.isBatch = false := by
  cases op with
  | createStream | createStreamWithData => rfl
  | _ => cases h

/-- Whether an operation appends to a stream. -/
def Op.isAppend : Op → Bool
  | .append .. | .batchAppend .. | .appendWithProducer .. => true
  | _ => false

/-- The payload of every operation fits in 64 bits. -/
theorem Op.payload_lt (op : Op) : payloadBytes op.messages < 2 ^ 64 := by
  cases op with
  | append _ data _ fits => simpa [Op.messages, payloadBytes] using fits
  | batchAppend _ _ _ _ fits => exact fits
  | appendWithProducer _ _ _ _ _ _ fits => exact fits
  | createStreamWithData _ _ _ _ fits => exact fits
  | _ => exact Nat.two_pow_pos 64

/-- The size of a small payload. -/
inductive Size where
  | zero | one | two | three

/-- Its number of bytes. -/
def Size.bytes : Size → Nat
  | .zero => 0
  | .one => 1
  | .two => 2
  | .three => 3

/-- A small payload fits. -/
theorem Size.fits (size : Size) : size.bytes < 2 ^ 64 := by cases size <;> decide

/-- An operation together with the clock readings it makes. -/
structure Call where
  clock : Clock
  op : Op
  deriving DecidableEq

/-- The value returned by an operation. -/
inductive Reply where
  | created (result : Result CreateStreamResult)
  | offset (result : Result Offset)
  | read (result : Result ReadResult)
  | done (result : Result Unit)
  | metadata (result : Result StreamMetadata)
  | producer (result : Result ProducerAppendResult)
  | createdWithData (result : Result CreateWithDataResult)
  | exists (present : Bool)
  | receiver (receiver : Option Receiver)
  deriving DecidableEq

/-- The reply of an operation that fails. -/
def Op.failure (error : Error) : Op → Reply
  | .createStream .. => .created (.error error)
  | .append .. | .batchAppend .. => .offset (.error error)
  | .read .. => .read (.error error)
  | .delete .. | .closeStream .. => .done (.error error)
  | .head .. => .metadata (.error error)
  | .appendWithProducer .. => .producer (.error error)
  | .createStreamWithData .. => .createdWithData (.error error)
  | .exists .. => .exists false
  | .subscribe .. => .receiver none

/-- Whether a reply is an error. -/
def Reply.failed : Reply → Bool
  | .created (.error _) | .offset (.error _) | .read (.error _) | .done (.error _)
  | .metadata (.error _) | .producer (.error _) | .createdWithData (.error _) => true
  | _ => false

/-- Whether a reply reports that the messages of the call were appended. -/
def Reply.appended : Reply → Bool
  | .offset (.ok _) | .producer (.ok (.accepted ..)) => true
  | _ => false

/-- Whether a reply reports that the call wrote to a stream, created or removed one. -/
def Reply.writes : Reply → Bool
  | .offset (.ok _) | .producer (.ok (.accepted ..)) | .done (.ok ())
  | .created (.ok .created) | .createdWithData (.ok ⟨.created, _, _⟩) => true
  | _ => false

/-- An append is a write. -/
theorem Reply.appended_of_not_writes {reply : Reply} (h : reply.writes = false) :
    reply.appended = false := by
  unfold Reply.writes at h
  unfold Reply.appended
  split <;> simp_all

/-- An error reports no write. -/
theorem Reply.writes_of_failed {reply : Reply} (h : reply.failed = true) : reply.writes = false := by
  unfold Reply.failed at h
  unfold Reply.writes
  split <;> simp_all

/-- What a reply shows besides the state of a notification channel. -/
def Reply.observed : Reply → Reply
  | .receiver (some _) => .receiver (some ⟨0⟩)
  | reply => reply

/-- It shows whether the call wrote. -/
@[simp] theorem Reply.observed_writes (reply : Reply) : reply.observed.writes = reply.writes := by
  unfold Reply.observed
  split <;> rfl

/-- Whether a call has created a stream, going by its reply. -/
def Call.creates (call : Call) (reply : Reply) : Bool := call.op.config.isSome && reply.writes

/-- A call that wrote nothing has created nothing. -/
theorem Call.creates_of_not_writes {call : Call} {reply : Reply} (h : reply.writes = false) :
    call.creates reply = false := by
  rw [Call.creates, h, Bool.and_false]

/-- The messages a call appended, going by its reply. -/
def Call.added (call : Call) (reply : Reply) : List Bytes :=
  if reply.appended then call.op.messages else []

/-- The messages a run appended to a stream, going by its replies. -/
def appendedTo (name : String) (calls : List Call) (replies : List Reply) : List Bytes :=
  ((calls.zip replies).map fun (call, reply) =>
    if call.op.name = name then call.added reply else []).flatten

/-- The messages of a run are those of its first call and those of the rest. -/
@[simp] theorem appended_to_cons (name : String) (call : Call) (calls : List Call) (reply : Reply)
    (replies : List Reply) :
    appendedTo name (call :: calls) (reply :: replies) =
      (if call.op.name = name then call.added reply else []) ++
        appendedTo name calls replies := rfl

end DurableStreams
