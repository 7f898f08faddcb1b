import DurableStreams.Storage.Memory.Sections
import DurableStreams.Storage.Subscribers

/-!
# Subscribers of the in-memory storage

The channel of a stream is kept with the stream. Every section that moves the tail or closes the
stream sends on it, except `append` and requests of producers that only close the stream.
-/

namespace DurableStreams.Memory

open Lib

/-- The operations that may move the tail or close the stream without a send: `append`, and requests
of producers that only close the stream. -/
def Silent : Op → Bool
  | .append .. => true
  | .appendWithProducer _ messages _ _ shouldClose _ _ => messages.isEmpty && shouldClose
  | _ => false

/-- What a subscriber watches. -/
def StreamEntry.signal (stream : StreamEntry) : (Offset × Bool) × Nat :=
  ((stream.nextOffset, stream.closed), stream.notify)

/-- Pushing sends nothing. -/
theorem foldl_push_notify (stream : StreamEntry) (messages : List Bytes) :
    (messages.foldl StreamEntry.push stream).notify = stream.notify := by
  induction messages generalizing stream with
  | nil => rfl
  | cons data messages ih => exact ih (stream.push data)

theorem record_seq_signal (pending : Option String) (stream : StreamEntry) :
    (stream.recordSeq pending).signal = stream.signal := by
  cases pending <;> rfl

/-- Accepting a request sends nothing by itself. -/
theorem accept_signal (clock : Clock) (producer : ProducerHeaders) (shouldClose : Bool)
    (pending : Option String) (stream : StreamEntry) :
    (stream.accept clock producer shouldClose pending).signal =
      ((stream.nextOffset, shouldClose || stream.closed), stream.notify) := by
  cases pending <;> cases shouldClose <;> rfl

/-- Storing messages sends. -/
theorem store_notify (messages : List Bytes) (stream : StreamEntry) :
    (stream.store messages).notify = stream.notify + 1 :=
  congrArg (· + 1) (foldl_push_notify stream messages)

/-- Every operation on a stream tells its subscribers, except the silent ones. -/
theorem plan_tells (call : Call) (stream : StreamEntry) :
    (plan call stream).Leaves fun _ after =>
      Tells (Silent call.op = true) stream.signal after.signal := by
  have hcase := plan_cases call stream
  generalize plan call stream = planned at hcase ⊢
  cases hcase with
  | same => exact .same rfl
  | append => exact ⟨fun _ => .same rfl, Nat.le_refl _, .inr (.inr rfl)⟩
  | batch pending =>
      refine ⟨fun _ => .same rfl, .sends ?_⟩
      rw [record_seq_signal]
      exact store_notify _ stream
  | close => exact .sends rfl
  | @producer _ _ _ _ _ shouldClose _ _ _ hcase =>
      cases hcase with
      | expired => exact .same rfl
      | refused => exact .same rfl
      | closeOnly pending hmessages hcheck =>
          rw [Plan.Leaves, accept_signal]
          cases shouldClose with
          | false => exact .same rfl
          | true => exact ⟨Nat.le_refl _, .inr (.inr (by simp [Silent, hmessages]))⟩
      | store pending hcheck =>
          refine ⟨fun _ => .same rfl, .sends ?_⟩
          rw [accept_signal]
          exact store_notify _ _

/-- What a subscriber watches in the storage. -/
def signal (name : String) (storage : InMemoryStorage) : Option ((Offset × Bool) × Nat) :=
  (storage.streams.lookup name).map StreamEntry.signal

section Storage

variable {limits : Limits} {name : String} {storage : InMemoryStorage} {stream : StreamEntry}

theorem signal_eq (hlookup : storage.streams.lookup name = some stream) :
    signal name storage = some stream.signal := by
  rw [signal, hlookup, Option.map_some]

/-- A call that keeps a stream tells its subscribers, unless it is a silent one on this stream. -/
theorem step_tells (limits : Limits) {call : Call} (hlookup : storage.streams.lookup name = some stream)
    (hkeeps : Keeps name stream.config call) :
    ∃ after, signal name (step limits call storage).2 = some after ∧
      Tells (call.op.name = name ∧ Silent call.op = true) stream.signal after := by
  obtain ⟨hname, -, -, hafter⟩ | ⟨-, hsame⟩ := step_lookup limits hlookup hkeeps
  · have htells := (plan_tells call stream).run limits storage.totalBytes
    refine ⟨_, signal_eq hafter, htells.sent, ?_⟩
    exact htells.told.imp_right (Or.imp_right fun hsilent => ⟨hname, hsilent⟩)
  · exact ⟨_, signal_eq hsame, .same rfl⟩

/-- The receiver of a subscriber has seen what was sent so far. -/
theorem subscribe_signal {clock : Clock} {receiver : Receiver} {after : InMemoryStorage}
    (h : step limits ⟨clock, .subscribe name⟩ storage = (.receiver (some receiver), after)) :
    ∃ stream, after.streams.lookup name = some stream ∧ receiver.seen = stream.notify := by
  simp only [step, subscribe] at h
  cases hlookup : storage.streams.lookup name with
  | none => simp [hlookup] at h
  | some stream =>
      simp only [hlookup] at h
      split at h
      · simp at h
      · cases h
        exact ⟨stream, hlookup, rfl⟩

/-- A read returns the tail offset and the closed flag. -/
theorem read_signal {clock : Clock} {offset : Offset} {result : ReadResult} {after : InMemoryStorage}
    (h : step limits ⟨clock, .read name offset⟩ storage = (.read (.ok result), after)) :
    after = storage ∧ ∃ stream, storage.streams.lookup name = some stream ∧
      stream.nextOffset = result.nextOffset ∧ stream.closed = result.closed := by
  simp only [step, readStream] at h
  cases hlookup : storage.streams.lookup name with
  | none => simp [hlookup] at h
  | some stream =>
      simp only [hlookup, Prod.mk.injEq, Reply.read.injEq] at h
      obtain ⟨hread, rfl⟩ := h
      refine ⟨rfl, stream, rfl, ?_⟩
      unfold readSection at hread
      split at hread
      · cases hread
      split at hread
      · cases hread
        exact ⟨rfl, rfl⟩
      · cases hread
        exact ⟨rfl, rfl⟩

end Storage

/-- The in-memory storage as a subscriber uses it. Every call is one step. -/
def backend (limits : Limits) : Backend InMemoryStorage Call where
  call := step limits
  other := fun call storage => (step limits call storage).2
  board := fun name => signalBoard (signal name)
  Open := fun name storage => ∃ stream, storage.streams.lookup name = some stream
  Keeps := fun name call storage =>
    ∀ stream, storage.streams.lookup name = some stream → Keeps name stream.config call
  Heard := fun name call storage => call.op.name = name → Silent call.op = true →
    (signal name (step limits call storage).2).map Prod.fst = (signal name storage).map Prod.fst
  subscribe_opens := by
    intro clock name storage receiver after hcall
    obtain ⟨stream, hlookup, hseen⟩ := subscribe_signal hcall
    refine ⟨⟨stream, hlookup⟩, ?_⟩
    simp [signalBoard, signal, hlookup, hseen, StreamEntry.signal]
  read_views := by
    intro clock name offset storage result after hcall
    obtain ⟨rfl, stream, hlookup, hoffset, hclosed⟩ := read_signal hcall
    refine ⟨rfl, ?_⟩
    simp [signalBoard, signal, hlookup, hoffset, hclosed, StreamEntry.signal]
  other_advances := by
    rintro name call storage ⟨stream, hlookup⟩ hkeeps
    obtain ⟨after, hafter, htells⟩ := step_tells limits hlookup (hkeeps stream hlookup)
    obtain ⟨found, hfound, -⟩ := Option.map_eq_some_iff.mp hafter
    exact ⟨⟨found, hfound⟩, htells.advances (signal_eq hlookup) hafter⟩
  other_announces := by
    rintro name call storage ⟨stream, hlookup⟩ hkeeps hheard
    obtain ⟨after, hafter, htells⟩ := step_tells limits hlookup (hkeeps stream hlookup)
    exact htells.announces (signal_eq hlookup) hafter fun ⟨hname, hsilent⟩ => hheard hname hsilent

end DurableStreams.Memory
