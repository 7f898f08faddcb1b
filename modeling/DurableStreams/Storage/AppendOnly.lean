import DurableStreams.Storage.Acid.Reachable
import DurableStreams.Storage.Memory.Growth

/-!
# Streams are append-only

What a client can see of a stream is a `View`. In both backends the log of a stream that is neither
deleted nor replaced after its expiry is only extended, its configuration and creation time stay,
and once it is closed its view does not change at all. The tail offset does not move back as long as
the stream has fewer than `2 ^ 64` messages (`streams_append_only`).
-/

namespace DurableStreams

open Lib

/-- A stream as its clients see it, with the offset of every message. -/
structure View where
  config : StreamConfig
  createdAt : Timestamp
  log : List (Offset × Bytes)
  nextOffset : Offset
  closed : Bool
  lastSeq : Option String
  totalBytes : Nat
  deriving DecidableEq

/-- What may become of a view. -/
structure View.Extends (before after : View) : Prop where
  config : after.config = before.config
  createdAt : after.createdAt = before.createdAt
  log : before.log <+: after.log
  frozen : before.closed = true → after = before

end DurableStreams

namespace DurableStreams.Memory

open Lib

/-- The view of an entry. -/
def StreamEntry.view (stream : StreamEntry) : View where
  config := stream.config
  createdAt := stream.createdAt
  log := stream.messages.map fun message => (message.offset, message.data)
  nextOffset := stream.nextOffset
  closed := stream.closed
  lastSeq := stream.lastSeq
  totalBytes := stream.totalBytes

/-- The view of a stream. -/
def view (storage : InMemoryStorage) (name : String) : Option View :=
  (storage.streams.lookup name).map StreamEntry.view

/-- Growing extends the view. -/
theorem Grows.view {before after : StreamEntry} (h : Grows before after) :
    before.view.Extends after.view := by
  refine ⟨h.config, h.createdAt, h.messages.map _, fun hclosed => ?_⟩
  obtain ⟨hafter, hsame, hseq⟩ := h.frozen hclosed
  have hbefore : before.closed = true := hclosed
  simp only [StreamEntry.view, h.config, h.createdAt, hsame.messages, hsame.nextOffset, hafter,
    hbefore, hseq, hsame.totalBytes]

end DurableStreams.Memory

namespace DurableStreams.Acid

open Lib

variable {config : Config}

/-- The offset in the key of a message. -/
def keyOffset (key : MessageKey) : Offset :=
  Offset.new (ofLex (ofLex key).2).1 (ofLex (ofLex key).2).2

/-- The view of a stream, from the tables of its shard. -/
def view (storage : AcidStorage config) (name : String) : Option View :=
  ((storage.shard name).streams.lookup name).map fun saved =>
    { config := saved.config
      createdAt := saved.createdAt
      log := ((storage.shard name).messages.part (ofName name)).map fun entry =>
        (keyOffset entry.1, entry.2)
      nextOffset := saved.nextOffset
      closed := saved.closed
      lastSeq := saved.lastSeq
      totalBytes := saved.totalBytes }

namespace Represents

variable {storage : AcidStorage config} {memory : Memory.InMemoryStorage} {name : String}

/-- The tables show the represented streams. -/
theorem view_eq (h : Represents storage memory) (name : String) :
    view storage name = Memory.view memory name := by
  rw [view, Memory.view, h.streams, h.rows]
  cases hlookup : memory.streams.lookup name with
  | none => rfl
  | some stream =>
      have hlog : ((Acid.rows name stream).map fun entry => (keyOffset entry.1, entry.2)) =
          stream.messages.map fun message => (message.offset, message.data) := by
        rw [Acid.rows, List.map_map]
        refine List.map_congr_left fun message hmessage => ?_
        obtain ⟨index, hindex, rfl⟩ := List.getElem_of_mem hmessage
        have hwf := h.invariant.wellFormed hlookup
        simp only [Function.comp, row_key_eq hwf hindex, hwf.message_offset hindex]
        rfl
      simp only [Option.map_some, optionalRows, Option.elim_some, hlog]
      rfl

end Represents

/-- Dropping messages that are not stored does not change what a call keeps. -/
theorem keeps_trimmed {name : String} {streamConfig : StreamConfig} {call : Call}
    (h : Memory.Keeps name streamConfig call) :
    Memory.Keeps name streamConfig ⟨call.clock, trimmed call.op⟩ := by
  obtain ⟨clock, op⟩ := call
  cases op with
  | createStreamWithData target created messages shouldClose fits =>
      intro hname
      have hkeeps := h ((trimmed_name _).symm.trans hname)
      refine ⟨?_, fun _ => hkeeps.2 rfl⟩
      simp only [trimmed]
      split <;> simp
  | _ => exact h

section Runs

variable {storage : AcidStorage config} {memory : Memory.InMemoryStorage} {name : String}
  {stream : Memory.StreamEntry}

/-- Over a run that keeps a stream, the represented stream grows. -/
theorem exec_grows {calls : List Call} (h : Represents storage memory)
    (hlookup : memory.streams.lookup name = some stream)
    (hcount : Along step Countable calls storage)
    (hkeeps : ∀ call ∈ calls, Memory.Keeps name stream.config call) :
    ∃ memory' after, Represents (exec step calls storage).2 memory' ∧
      memory'.streams.lookup name = some after ∧ Memory.Grows stream after := by
  induction calls generalizing storage memory stream with
  | nil => exact ⟨memory, stream, h, hlookup, .refl stream⟩
  | cons call calls ih =>
      obtain ⟨next, hnext, htracks⟩ := h.step hcount.1
      obtain ⟨middle, hmiddle, hgrows⟩ : ∃ middle, next.streams.lookup name = some middle ∧
          Memory.Grows stream middle := by
        generalize (step call storage).1 = reply at htracks
        cases htracks with
        | refused => exact ⟨stream, hlookup, .refl stream⟩
        | quiet => exact ⟨stream, hlookup, .refl stream⟩
        | same =>
            exact Memory.step_grows config.limits hlookup (keeps_trimmed (hkeeps call (by simp)))
      obtain ⟨memory', after, hafter, hlast, hgrows'⟩ := ih hnext hmiddle hcount.2
        fun other hother => hgrows.config ▸ hkeeps other (by simp [hother])
      exact ⟨memory', after, hafter, hlast, hgrows.trans hgrows'⟩

end Runs

end DurableStreams.Acid

namespace DurableStreams

open Lib

/-- In both backends, after any run, every further run that neither deletes a stream nor creates one
in its place extends its view. Its tail does not move back while it has fewer than `2 ^ 64` messages;
the transactional storage is followed up to that number of messages only. -/
theorem streams_append_only (config : Acid.Config) (name : String) :
    (∀ (calls later : List Call) (view : View),
      let storage := (exec (Memory.step config.limits) calls .new).2
      Memory.view storage name = some view →
      (∀ call ∈ later, Memory.Keeps name view.config call) →
      ∃ view', Memory.view (exec (Memory.step config.limits) later storage).2 name = some view' ∧
        view.Extends view' ∧
        (view'.log.length < 2 ^ 64 → view'.nextOffset.cmp view.nextOffset ≠ .lt)) ∧
    ∀ (events : List Acid.Event) (later : List Call) (view : View),
      let storage := (exec Acid.Event.run events (.new config)).2
      Along Acid.Event.run Acid.Event.Counted events (.new config) →
      Along Acid.step Acid.Countable later storage →
      Acid.view storage name = some view →
      (∀ call ∈ later, Memory.Keeps name view.config call) →
      ∃ view', Acid.view (exec Acid.step later storage).2 name = some view' ∧
        view.Extends view' ∧ view'.nextOffset.cmp view.nextOffset ≠ .lt := by
  constructor
  · intro calls later view storage hview hkeeps
    obtain ⟨stream, hlookup, rfl⟩ := Option.map_eq_some_iff.mp hview
    obtain ⟨after, hafter, hgrows⟩ := Memory.exec_grows config.limits hlookup hkeeps
    have hinvariant := Memory.reachable_invariant config.limits calls
    have hwf := (Memory.exec_keeps_invariant later hinvariant).wellFormed hafter
    refine ⟨after.view, ?_, hgrows.view, fun hcount => ?_⟩
    · rw [Memory.view, hafter, Option.map_some]
    · exact hgrows.next_offset (hinvariant.wellFormed hlookup) hwf
        (by simpa [Memory.StreamEntry.view] using hcount)
  · intro events later view storage hcounted hcount hview hkeeps
    obtain ⟨memory, h⟩ := Acid.reachable_represents hcounted
    rw [h.view_eq] at hview
    obtain ⟨stream, hlookup, rfl⟩ := Option.map_eq_some_iff.mp hview
    obtain ⟨memory', after, h', hafter, hgrows⟩ := Acid.exec_grows h hlookup hcount hkeeps
    refine ⟨after.view, ?_, hgrows.view, ?_⟩
    · rw [h'.view_eq, Memory.view, hafter, Option.map_some]
    · exact hgrows.next_offset (h.invariant.wellFormed hlookup) (h'.invariant.wellFormed hafter)
        (h'.counts hafter)

/-- A stream with one message is closed, and then appends, a producer and a create meet it. -/
def closingRun : List Call :=
  [⟨.at 2, .closeStream "s"⟩, ⟨.at 3, .append "s" [2] "text/plain" (Size.fits .one)⟩,
    ⟨.at 4, .appendWithProducer "s" [[3]] "text/plain" ⟨"p", 1, 0⟩ true none (Size.fits .one)⟩,
    ⟨.at 5, .createStreamWithData "s" .plain [[4]] true (by decide)⟩]

/-- A stream with one message. -/
def openingRun : List Call :=
  [⟨.at 0, .createStream "s" .plain⟩, ⟨.at 1, .append "s" [1] "text/plain" (by decide)⟩]

theorem streams_append_only_closing_run :
    let opened := (exec (Memory.step Acid.crowded.limits) openingRun .new).2
    ∃ view view', Memory.view opened "s" = some view ∧
      Memory.view (exec (Memory.step Acid.crowded.limits) closingRun opened).2 "s" = some view' ∧
      view.Extends view' := by
  intro opened
  have hview : Memory.view opened "s" =
      some ⟨.plain, 0, [(Offset.new 0 0, [1])], Offset.new 1 1, false, none, 1⟩ := by
    decide +kernel
  obtain ⟨view', hview', hextends, -⟩ := (streams_append_only Acid.crowded "s").1 openingRun
    closingRun _ hview (by simp [closingRun, Memory.Keeps, isStreamExpired, StreamConfig.plain])
  exact ⟨_, view', hview, hview', hextends⟩

/-- After `2 ^ 64` empty messages the tail is before the tail after one. -/
theorem streams_append_only_wraps :
    ∃ view view',
      Acid.view (exec Acid.Event.run (.request ⟨.at 0, .createStream "s" .plain⟩ ::
        List.replicate 1 Acid.emptyAppend) (.new Acid.crowded)).2 "s" = some view ∧
      Acid.view (exec Acid.Event.run (.request ⟨.at 0, .createStream "s" .plain⟩ ::
        List.replicate (2 ^ 64) Acid.emptyAppend) (.new Acid.crowded)).2 "s" = some view' ∧
      view'.nextOffset.cmp view.nextOffset = .lt := by
  have hview {count : Nat} {storage : Acid.AcidStorage Acid.crowded}
      (h : Acid.Received count storage) : ∃ view, Acid.view storage "s" = some view ∧
        ∃ byteOffset, view.nextOffset = Offset.new (wrap64 count) byteOffset := by
    obtain ⟨saved, hlookup, -, -, -, hseq⟩ := h.saved
    rw [Acid.view, hlookup]
    exact ⟨_, rfl, saved.nextByteOffset, by rw [← hseq]; rfl⟩
  obtain ⟨view, hone, byteOffset, hnext⟩ := hview (Acid.received_replicate 1)
  obtain ⟨view', hall, byteOffset', hnext'⟩ := hview (Acid.received_replicate (2 ^ 64))
  refine ⟨view, view', hone, hall, ?_⟩
  rw [hnext, hnext']
  exact Offset.cmp_new_lt_iff.mpr (.inl (by decide))

end DurableStreams
