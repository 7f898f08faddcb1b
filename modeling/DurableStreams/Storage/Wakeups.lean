import DurableStreams.Storage.Acid.Signals
import DurableStreams.Storage.File.Refinement
import DurableStreams.Storage.File.Signals
import DurableStreams.Storage.Memory.Signals

/-!
# Live readers are woken

In the transactional storage a subscriber is always woken when the tail of its stream moves or the
stream is closed. The other two leave out a send: the in-memory storage for `append` and for requests
of producers that only close the stream, the file storage for the latter and for a close whose
metadata cannot be written. In every run without such steps no wake-up is lost.
-/

namespace DurableStreams

open Lib

/-- In each of the three storages, with any steps of the subscriber and of other clients that neither
delete the stream nor replace it after its expiry: a subscriber that waits with nothing pending has
read the tail offset and the closed flag of the stream, if every silent operation that comes while it
waits with nothing pending leaves both as they are. The transactional storage has no silent
operations; there a send may be due for an operation that has not returned. -/
theorem wakeups_not_lost (name : String) :
    (∀ limits storage events,
      Along ((Memory.backend limits).next name) ((Memory.backend limits).Admits name) events
        ⟨storage, .idle⟩ →
      (Memory.backend limits).Current name
        (exec ((Memory.backend limits).next name) events ⟨storage, .idle⟩).2) ∧
    (∀ config storage events,
      Along ((File.backend config).next name) ((File.backend config).Admits name) events
        ⟨storage, .idle⟩ →
      (File.backend config).Current name
        (exec ((File.backend config).next name) events ⟨storage, .idle⟩).2) ∧
    ∀ config server events,
      Along ((Acid.backend config).next name) ((Acid.backend config).Admits name) events
        ⟨server, .idle⟩ →
      (Acid.backend config).Current name
        (exec ((Acid.backend config).next name) events ⟨server, .idle⟩).2 :=
  ⟨fun _ _ _ => Backend.exec_current, fun _ _ _ => Backend.exec_current,
    fun _ _ _ => Backend.exec_current⟩

/-- A storage with one empty stream. -/
def oneEmptyStream : Memory.InMemoryStorage :=
  (Memory.step ⟨100, 50⟩ ⟨.at 0, .createStream "s" .plain⟩ .new).2

/-- A subscriber that is woken by a batch and reads again, before the stream is closed. -/
def heardRun : List (SubscriberEvent Call) :=
  [.subscribe (.at 1) .start, .read (.at 2),
    .other ⟨.at 3, .batchAppend "s" [[1, 2]] "text/plain" none (by decide)⟩, .wake 1, .read (.at 4),
    .other ⟨.at 5, .closeStream "s"⟩]

theorem wakeups_not_lost_heard :
    let backend := Memory.backend ⟨100, 50⟩
    let session := (exec (backend.next "s") heardRun ⟨oneEmptyStream, .idle⟩).2
    session.subscriber = .waiting ⟨1⟩ (Offset.new 1 2) false ∧
      (backend.board "s").sent session.storage = 2 ∧ backend.Current "s" session := by
  refine ⟨by decide +kernel, by decide +kernel, (wakeups_not_lost "s").1 _ _ _ ?_⟩
  refine ⟨trivial, trivial, ⟨fun stream _ _ => ⟨by simp, fun h => by cases h⟩,
    fun _ _ h => by cases h⟩, trivial, trivial,
    ⟨fun stream _ _ => ⟨by simp, fun h => by cases h⟩, fun _ _ h => by cases h⟩, trivial⟩

/-- A request of a producer that only closes the stream. -/
def closeOnly : Call :=
  ⟨.at 3, .appendWithProducer "s" [] "text/plain" ⟨"p", 0, 0⟩ true none (Size.fits .zero)⟩

/-- The sends that are missing: `append` and a request that only closes the stream in memory, and such
a request in files. The subscriber waits with nothing pending, and has not seen the change. -/
theorem wakeups_not_lost_silent :
    (let board := (Memory.backend ⟨100, 50⟩).board "s"
      let session := (exec ((Memory.backend ⟨100, 50⟩).next "s") [.subscribe (.at 1) .start,
        .read (.at 2), .other ⟨.at 3, .append "s" [1, 2] "text/plain" (by decide)⟩]
        ⟨oneEmptyStream, .idle⟩).2
      session.subscriber = .waiting ⟨0⟩ (Offset.new 0 0) false ∧ board.sent session.storage = 0 ∧
        board.view session.storage = some (Offset.new 1 2, false)) ∧
    (let board := (Memory.backend ⟨100, 50⟩).board "s"
      let session := (exec ((Memory.backend ⟨100, 50⟩).next "s") [.subscribe (.at 1) .start,
        .read (.at 2), .other closeOnly] ⟨oneEmptyStream, .idle⟩).2
      session.subscriber = .waiting ⟨0⟩ (Offset.new 0 0) false ∧ board.sent session.storage = 0 ∧
        board.view session.storage = some (Offset.new 0 0, true)) ∧
    (let board := (File.backend File.smallConfig).board "s"
      let session := (exec ((File.backend File.smallConfig).next "s") [.subscribe (.at 1) .start,
        .read (.at 2), .other (.none, closeOnly)] ⟨File.oneStream, .idle⟩).2
      session.subscriber = .waiting ⟨0⟩ (Offset.new 0 0) false ∧ board.sent session.storage = 0 ∧
        board.view session.storage = some (Offset.new 0 0, true)) := by
  decide +kernel

end DurableStreams
