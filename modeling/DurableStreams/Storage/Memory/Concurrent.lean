import DurableStreams.Lib.Locks
import DurableStreams.Lib.Serial
import DurableStreams.Storage.Memory.Sections
import Mathlib.Data.List.Permutation

/-!
# Concurrent operations of the in-memory storage

`InMemoryStorage` keeps its entries behind reference counts, each with a lock of its own, and the map
of names behind another lock. An operation on a stream looks its entry up and then works on it under
the lock of the entry, whether or not it is still in the map. Creates and deletes hold the lock of
the map throughout. The global byte counter is an atomic of its own; every update is one step.

A thread is an operation and how far it has got. Its writes under a lock are made together with the
step before them, which makes no difference to the others, since the lock is held until the operation
returns. `Serializable` compares a whole run with one that executes the operations one after another.
-/

namespace DurableStreams.Memory.Concurrent

open Lib

/-! ## Shared state -/

/-- The shared state. Entries are numbered as they are allocated and stay there, so that an operation
can hold on to one that is no longer in the map. -/
structure Shared where
  entries : Nat → StreamEntry
  allocated : Nat
  streams : HashMap Nat
  totalBytes : Nat

namespace Shared

/-- No entries. -/
def new : Shared := ⟨fun _ => .new 0 .plain, 0, ∅, 0⟩

/-- Write an entry. -/
def write (shared : Shared) (id : Nat) (stream : StreamEntry) : Shared :=
  { shared with entries := Function.update shared.entries id stream }

/-- Allocate an entry and put it into the map. -/
def insert (shared : Shared) (name : String) (stream : StreamEntry) : Shared where
  entries := Function.update shared.entries shared.allocated stream
  allocated := shared.allocated + 1
  streams := shared.streams.insert name shared.allocated
  totalBytes := shared.totalBytes

/-- Take an entry out of the map. -/
def remove (shared : Shared) (name : String) : Shared :=
  { shared with streams := shared.streams.erase name }

/-- Update the counter. -/
def count (shared : Shared) (totalBytes : Nat) : Shared := { shared with totalBytes := totalBytes }

/-- The shared state is that of a storage. -/
def Shows (shared : Shared) (storage : InMemoryStorage) : Prop :=
  storage.totalBytes = shared.totalBytes ∧
    ∀ name, storage.streams.lookup name = (shared.streams.lookup name).map shared.entries

end Shared

/-! ## Creating a stream -/

/-- A create: what it puts into the map, and its replies when there is a live stream, when it is
refused and when the stream has been created. -/
structure Creation where
  config : StreamConfig
  messages : List Bytes
  shouldClose : Bool
  existing : StreamEntry → Reply
  refused : Error → Reply
  reply : StreamEntry → Reply

/-- `create_stream`. -/
def Creation.empty (config : StreamConfig) : Creation where
  config := config
  messages := []
  shouldClose := false
  existing stream := .created
    (if stream.config.partialEq config then .ok .alreadyExists else .error .configMismatch)
  refused error := .created (.error error)
  reply _ := .created (.ok .created)

/-- `create_stream_with_data`. -/
def Creation.withData (config : StreamConfig) (messages : List Bytes) (shouldClose : Bool) :
    Creation where
  config := config
  messages := messages
  shouldClose := shouldClose
  existing stream := .createdWithData
    (if stream.config.partialEq config then .ok ⟨.alreadyExists, stream.nextOffset, stream.closed⟩
    else .error .configMismatch)
  refused error := .createdWithData (.error error)
  reply entry := .createdWithData (.ok ⟨.created, entry.nextOffset, entry.closed⟩)

/-- The create of an operation. -/
def creation : Op → Option Creation
  | .createStream _ config => some (.empty config)
  | .createStreamWithData _ config messages shouldClose _ =>
      some (.withData config messages shouldClose)
  | _ => none

/-- The entry of a new stream, without messages and with them. -/
def Creation.entry (create : Creation) (clock : Clock) : StreamEntry :=
  if create.messages.isEmpty then (StreamEntry.new clock.stamp create.config).closeIf create.shouldClose
  else ((StreamEntry.new clock.stamp create.config).store create.messages).closeIf create.shouldClose

/-! ## Threads -/

/-- The lock of the map and those of the entries. -/
inductive Lock where
  | map
  | entry (id : Nat)
  deriving DecidableEq, Repr

/-- How far an operation has got. -/
inductive Phase where
  /-- It has been called. -/
  | invoked
  /-- `get_stream` has returned an entry. -/
  | found (id : Nat)
  /-- It holds the lock of an entry and is about to reserve the bytes of a batch. -/
  | reserving (id : Nat) (messages : List Bytes) (stream : StreamEntry) (refused : Error → Reply)
      (reply : Reply) (committed : StreamEntry)
  /-- An `exists` has found an entry and keeps the map locked. -/
  | probing (id : Nat)
  /-- A delete has taken an entry out of the map and waits for its lock. -/
  | deleting (id : Nat)
  /-- A delete has locked the entry and is about to take its bytes off the counter. -/
  | uncharging (id : Nat)
  /-- A create has found an entry and waits for its lock. -/
  | claiming (id : Nat)
  /-- A create has taken an expired entry out and is about to take its bytes off the counter. -/
  | releasing (id bytes : Nat)
  /-- A create is about to reserve the bytes of its messages, after it has released those of an
  expired entry. -/
  | creating (released : Option (Nat × Nat))
  /-- It is about to give a reservation back. -/
  | rollback (held : Lock) (bytes : Nat) (reply : Reply)
  /-- It is about to give its lock back. -/
  | unlocking (held : Lock) (reply : Reply)
  /-- It has returned. -/
  | returned (reply : Reply)

namespace Phase

/-- How a lock is held. -/
def mode (phase : Phase) (lock : Lock) : Mode :=
  match phase with
  | .reserving id .. => if lock = .entry id then .exclusive else .free
  | .probing _ => if lock = .map then .shared else .free
  | .deleting _ | .claiming _ | .releasing _ _ | .creating _ =>
      if lock = .map then .exclusive else .free
  | .uncharging id =>
      if lock = .map then .exclusive else if lock = .entry id then .shared else .free
  | .rollback held _ _ | .unlocking held _ => if lock = held then .exclusive else .free
  | _ => .free

/-- The answer of an operation once it is settled. -/
def answer : Phase → Option Reply
  | .rollback _ _ reply | .unlocking _ reply | .returned reply => some reply
  | _ => none

/-- Whether an operation has returned. -/
def isReturned : Phase → Bool
  | .returned _ => true
  | _ => false

/-- The bytes that were reserved and are about to be given back. -/
def pending : Phase → Nat
  | .rollback _ bytes _ => bytes
  | _ => 0

/-- The bytes that a create has released before it reserves its own. -/
def released : Phase → Nat
  | .creating (some (_, bytes)) => bytes
  | _ => 0

/-- A delete that has not locked an entry yet. -/
def deletes (id : Nat) : Phase → Bool
  | .deleting other => other == id
  | _ => false

end Phase

/-- An operation in flight. -/
structure Thread where
  call : Call
  phase : Phase

/-- How a thread holds a lock. -/
def Thread.mode (thread : Thread) (lock : Lock) : Mode := thread.phase.mode lock

/-- Whether an operation locks its entry for writing. -/
def writes : Op → Bool
  | .read .. | .head .. | .subscribe .. => false
  | _ => true

section Steps

variable (limits : Limits) (call : Call) (threads : List Thread) (shared : Shared)

/-- The first step: `get_stream`, or the lock of the map for the other operations. An empty batch is
refused before that. -/
def invoke : Option (Shared × Phase) :=
  let name := call.op.name
  if onStream call.op then
    if canShare Thread.mode threads .map then
      match shared.streams.lookup name with
      | none => some (shared, .returned (missingReply call.op))
      | some id => some (shared, .found id)
    else none
  else
    match call.op with
    | .exists _ =>
        if canShare Thread.mode threads .map then
          match shared.streams.lookup name with
          | none => some (shared, .returned (.exists false))
          | some id => some (shared, .probing id)
        else none
    | .delete _ =>
        if canLock Thread.mode threads .map then
          match shared.streams.lookup name with
          | none => some (shared, .returned (.done (.error (.notFound name))))
          | some id => some (shared.remove name, .deleting id)
        else none
    | .batchAppend .. =>
        some (shared, .returned (.offset (.error
          (.invalidHeader "Content-Length" "batch cannot be empty"))))
    | _ => none

/-- A create goes on once there is no entry of its name in the map. -/
def proceed (create : Creation) (released : Option (Nat × Nat)) : Shared × Phase :=
  if create.messages.isEmpty then
    (shared.insert call.op.name (create.entry call.clock),
      .unlocking .map (create.reply (create.entry call.clock)))
  else (shared, .creating released)

/-- The first step of a create. -/
def claim (create : Creation) : Option (Shared × Phase) :=
  if canLock Thread.mode threads .map then
    match shared.streams.lookup call.op.name with
    | none => some (proceed call shared create none)
    | some id => some (shared, .claiming id)
  else none

/-- Work on an entry under its lock, up to a reservation. -/
def enter (id : Nat) : Option (Shared × Phase) :=
  if if writes call.op then canLock Thread.mode threads (.entry id)
      else canShare Thread.mode threads (.entry id) then
    match plan call (shared.entries id) with
    | .finish reply stream => some (shared.write id stream, .returned reply)
    | .commit messages stream refused reply committed =>
        some (shared, .reserving id messages stream refused reply committed)
  else none

/-- Reserve the bytes of a batch. -/
def reserve (id : Nat) (messages : List Bytes) (stream : StreamEntry) (refused : Error → Reply)
    (reply : Reply) (committed : StreamEntry) : Shared × Phase :=
  match reserveTotalBytes limits shared.totalBytes (batchBytes messages) with
  | none => (shared.write id stream, .unlocking (.entry id) (refused .memoryLimitExceeded))
  | some reserved =>
      if overStreamLimit limits messages stream then
        ((shared.write id stream).count reserved,
          .rollback (.entry id) (batchBytes messages) (refused .streamSizeLimitExceeded))
      else ((shared.write id committed).count reserved, .unlocking (.entry id) reply)

/-- Reserve the bytes of the messages of a create. -/
def create (create : Creation) : Shared × Phase :=
  match reserveTotalBytes limits shared.totalBytes (batchBytes create.messages) with
  | none => (shared, .unlocking .map (create.refused .memoryLimitExceeded))
  | some reserved =>
      if overStreamLimit limits create.messages (StreamEntry.new call.clock.stamp create.config) then
        (shared.count reserved, .rollback .map (batchBytes create.messages)
          (create.refused .streamSizeLimitExceeded))
      else
        ((shared.count reserved).insert call.op.name (create.entry call.clock),
          .unlocking .map (create.reply (create.entry call.clock)))

/-- One step of an operation, or `none` if it has to wait. -/
def advance : Phase → Option (Shared × Phase)
  | .invoked =>
      match creation call.op with
      | some create => claim call threads shared create
      | none => invoke call threads shared
  | .found id => enter call threads shared id
  | .reserving id messages stream refused reply committed =>
      some (reserve limits shared id messages stream refused reply committed)
  | .probing id =>
      if canShare Thread.mode threads (.entry id) then
        some (shared,
          .returned (.exists (!isStreamExpired call.clock.expiry (shared.entries id).config)))
      else none
  | .deleting id =>
      if canShare Thread.mode threads (.entry id) then some (shared, .uncharging id) else none
  | .uncharging id =>
      some (shared.count (shared.totalBytes - (shared.entries id).totalBytes),
        .returned (.done (.ok ())))
  | .claiming id =>
      if canShare Thread.mode threads (.entry id) then
        (creation call.op).map fun create =>
          if isStreamExpired call.clock.expiry (shared.entries id).config then
            (shared.remove call.op.name, .releasing id (shared.entries id).totalBytes)
          else (shared, .returned (create.existing (shared.entries id)))
      else none
  | .releasing id bytes =>
      (creation call.op).map fun create =>
        proceed call (shared.count (shared.totalBytes - bytes)) create (some (id, bytes))
  | .creating _ => (creation call.op).map (create limits call shared)
  | .rollback held bytes reply =>
      some (shared.count (shared.totalBytes - bytes), .unlocking held reply)
  | .unlocking _ reply => some (shared, .returned reply)
  | .returned _ => none

end Steps

/-- Operations in flight as threads of a machine. -/
def machine (limits : Limits) : Machine Shared Thread Call Unit where
  start call := ⟨call, .invoked⟩
  next _ system thread :=
    (advance limits thread.call system.threads system.shared thread.phase).map fun result =>
      (result.1, ⟨thread.call, result.2⟩)

/-- A run of operations on an empty storage. -/
def run (limits : Limits) (actions : List (Action Call Unit)) : System Shared Thread :=
  (exec (machine limits).step actions ⟨.new, []⟩).2

/-! ## Serializability -/

/-- An operation had returned when another one was called. -/
def Precedes (limits : Limits) (actions : List (Action Call Unit)) (i j : Nat) : Prop :=
  ∃ front back, actions = front ++ back ∧
    (∃ thread, (run limits front).threads[i]? = some thread ∧ thread.phase.isReturned = true) ∧
    (run limits front).threads.length ≤ j

/-- All operations have returned. -/
def Finished (system : System Shared Thread) : Prop :=
  ∀ thread ∈ system.threads, thread.phase.isReturned = true

/-- The replies, the map and the counter are those of executing the operations one after another, in
an order that is consistent with real time. -/
def Serializable (limits : Limits) (actions : List (Action Call Unit)) : Prop :=
  ∃ (order : List Nat) (storage : InMemoryStorage),
    order.Perm (List.range (run limits actions).threads.length) ∧
    (∀ i j, j < (run limits actions).threads.length → Precedes limits actions i j →
      [i, j].Sublist order) ∧
    exec (step limits) (order.filterMap fun i => (run limits actions).threads[i]?.map Thread.call)
        .new =
      (order.filterMap fun i => (run limits actions).threads[i]?.bind (·.phase.answer), storage) ∧
    (run limits actions).shared.Shows storage

/-- A run whose replies and counter no order of its operations gives is not serializable. -/
theorem not_serializable {limits : Limits} {actions : List (Action Call Unit)}
    (h : ∀ order ∈ (List.range (run limits actions).threads.length).permutations',
      let serial := exec (step limits)
        (order.filterMap fun i => (run limits actions).threads[i]?.map Thread.call) .new
      serial.1 ≠ (order.filterMap fun i => (run limits actions).threads[i]?.bind (·.phase.answer)) ∨
        serial.2.totalBytes ≠ (run limits actions).shared.totalBytes) :
    ¬ Serializable limits actions := by
  rintro ⟨order, storage, hperm, -, hexec, hshows⟩
  have hserial := h order (List.mem_permutations'.mpr hperm)
  dsimp only at hserial
  rw [hexec] at hserial
  rcases hserial with hreplies | htotal
  · exact hreplies rfl
  · exact htotal hshows.1

/-- A number of steps of one operation. -/
def steps (index count : Nat) : List (Action Call Unit) := List.replicate count (.run index ())

/-- An append that exceeds the limit of its stream reserves bytes, another one is refused for it, and
then the bytes are given back. -/
def visibleRollback : List (Action Call Unit) :=
  [.spawn ⟨.at 0, .createStream "a" .plain⟩] ++ steps 0 2 ++
  [.spawn ⟨.at 1, .createStream "b" .plain⟩] ++ steps 1 2 ++
  [.spawn ⟨.at 2, .append "a" [1, 2] "text/plain" (Size.fits .two)⟩] ++ steps 2 3 ++
  [.spawn ⟨.at 3, .append "b" [1] "text/plain" (Size.fits .one)⟩] ++ steps 3 4 ++ steps 2 2

/-- An append finds its entry, the stream is deleted, and then the append stores its message in the
entry. Its bytes are never taken off the counter. -/
def appendToDeleted : List (Action Call Unit) :=
  [.spawn ⟨.at 0, .createStream "a" .plain⟩] ++ steps 0 2 ++
  [.spawn ⟨.at 1, .append "a" [1] "text/plain" (Size.fits .one)⟩] ++ steps 1 1 ++
  [.spawn ⟨.at 2, .delete "a"⟩] ++ steps 2 3 ++ steps 1 3

/-- A create releases the bytes of an expired stream, and another append takes them before the create
reserves its own. -/
def stolenBytes : List (Action Call Unit) :=
  [.spawn ⟨.at 0, .createStreamWithData "a" ⟨"text/plain", none, some 10, false⟩ [[1]] false
    (Size.fits .one)⟩] ++ steps 0 3 ++
  [.spawn ⟨.at 1, .createStream "b" .plain⟩] ++ steps 1 2 ++
  [.spawn ⟨.at 20, .append "b" [1] "text/plain" (Size.fits .one)⟩] ++ steps 2 1 ++
  [.spawn ⟨.at 21, .createStreamWithData "a" .plain [[1]] false (Size.fits .one)⟩] ++ steps 3 3 ++
  steps 2 3 ++ steps 3 2

/-- Three ways in which operations interfere with each other. -/
theorem operations_interfere :
    (Finished (run ⟨2, 1⟩ visibleRollback) ∧ ¬ Serializable ⟨2, 1⟩ visibleRollback) ∧
      (Finished (run ⟨2, 1⟩ appendToDeleted) ∧ ¬ Serializable ⟨2, 1⟩ appendToDeleted) ∧
      Finished (run ⟨1, 1⟩ stolenBytes) ∧ ¬ Serializable ⟨1, 1⟩ stolenBytes := by
  unfold Finished
  refine ⟨⟨?_, not_serializable ?_⟩, ⟨?_, not_serializable ?_⟩, ?_, not_serializable ?_⟩ <;>
    decide +kernel

end DurableStreams.Memory.Concurrent
