import DurableStreams.Storage.Acid.Signals
import DurableStreams.Storage.Memory.Agreement

/-!
# Operations that fail

An operation of the in-memory storage that returns an error leaves the live streams as they are,
except for producer records that are stale by then; a create that fails may have dropped an expired
stream of its name. An operation of the transactional storage that returns an error changes nothing
at all. In both a batch is stored in full or not at all (`errors_change_nothing`).
-/

namespace DurableStreams.Memory

open Lib

/-- The bytes of the streams that have expired. -/
def expiredBytes (now : Timestamp) (storage : InMemoryStorage) : Nat :=
  FiniteMap.total (fun stream => if isStreamExpired now stream.config then stream.totalBytes else 0)
    storage.streams

/-- What a failed call leaves, by the clock of the call: the live streams up to stale producer
records, no new stream, and the bytes of the live streams. -/
structure Kept (clock : Clock) (before after : InMemoryStorage) : Prop where
  live : ∀ name stream, before.streams.lookup name = some stream →
    isStreamExpired clock.expiry stream.config = false →
      ∃ stream', after.streams.lookup name = some stream' ∧ Agrees clock.cleanup stream stream'
  old : ∀ name stream', after.streams.lookup name = some stream' →
    ∃ stream, before.streams.lookup name = some stream ∧ Agrees clock.cleanup stream stream'
  bytes : (after.totalBytes : Int) - expiredBytes clock.expiry after =
    before.totalBytes - expiredBytes clock.expiry before

/-- A batch is stored in full or not at all: the log of a stream stays, is extended by the whole
batch, or is that of a new stream with the whole batch. -/
def InFull (messages : List Bytes) (before after : InMemoryStorage) : Prop :=
  ∀ name stream', after.streams.lookup name = some stream' →
    (∃ stream, before.streams.lookup name = some stream ∧
      (stream'.payloads = stream.payloads ∨ stream'.payloads = stream.payloads ++ messages)) ∨
    stream'.payloads = messages

section Storages

variable {limits : Limits} {clock : Clock} {call : Call} {name : String}
  {storage before after free : InMemoryStorage}

/-- Similar storages are kept. -/
theorem Similar.kept (clock : Clock) (h : Similar clock.cleanup before after) :
    Kept clock before after := by
  refine ⟨fun name stream hlookup _ => h.streams.lookup_some hlookup,
    fun name stream' hlookup => h.streams.flip.lookup_some hlookup, ?_⟩
  have hexpired : expiredBytes clock.expiry after = expiredBytes clock.expiry before := by
    refine h.streams.total_eq fun {left right} hagrees => ?_
    obtain ⟨producers, notify, rfl, -⟩ := hagrees
    rfl
  rw [h.total, hexpired]

/-- Dropping an expired stream keeps the others. -/
theorem claim_kept (h : Invariant limits storage)
    (hclaim : claimName clock storage name = .vacant free) : Kept clock storage free := by
  obtain ⟨-, rfl⟩ | ⟨expired, hlookup, hexpired, rfl⟩ := claim_name_vacant hclaim
  · exact (Similar.refl _ _).kept clock
  refine ⟨fun other stream hother hlive => ?_, fun other stream' hother => ?_, ?_⟩
  · refine ⟨stream, ?_, .refl _ stream⟩
    rw [claim_name_lookup hclaim, if_neg, hother]
    rintro rfl
    obtain rfl := Option.some.inj (hlookup.symm.trans hother)
    simp [hexpired] at hlive
  · rw [claim_name_lookup hclaim] at hother
    split at hother
    · cases hother
    · exact ⟨stream', hother, .refl _ stream'⟩
  · have hbytes := FiniteMap.total_erase (fun stream : StreamEntry =>
      if isStreamExpired clock.expiry stream.config then stream.totalBytes else 0) hlookup
    have hle := h.stream_le_total hlookup
    rw [if_pos hexpired] at hbytes
    simp only [removeStream, expiredBytes]
    omega

/-- What was kept twice is kept. -/
theorem Kept.trans {middle : InMemoryStorage} (h : Kept clock before middle)
    (h' : Kept clock middle after) : Kept clock before after := by
  refine ⟨fun name stream hlookup hlive => ?_, fun name stream'' hlookup => ?_,
    h'.bytes.trans h.bytes⟩
  · obtain ⟨stream', hlookup', hagrees⟩ := h.live name stream hlookup hlive
    obtain ⟨stream'', hlookup'', hagrees'⟩ := h'.live name stream' hlookup'
      (hagrees.shown.1 ▸ hlive)
    exact ⟨stream'', hlookup'', hagrees.trans hagrees'⟩
  · obtain ⟨stream', hlookup', hagrees'⟩ := h'.old name stream'' hlookup
    obtain ⟨stream, hlookup, hagrees⟩ := h.old name stream' hlookup'
    exact ⟨stream, hlookup, hagrees.trans hagrees'⟩

/-- A call that fails keeps everything that is live. -/
theorem step_failed_kept (h : Invariant limits storage)
    (hfailed : (step limits call storage).1.failed = true) :
    Kept call.clock storage (step limits call storage).2 := by
  obtain ⟨rest, hrest, hsimilar⟩ := step_quiet (Reply.writes_of_failed hfailed)
  obtain rfl | hclaim := hrest
  · exact hsimilar.kept call.clock
  · exact (claim_kept h hclaim).trans (hsimilar.kept call.clock)

/-- Every call stores its batch in full or not at all. -/
theorem Effect.inFull {reply : Reply} (h : Effect limits call before reply after) :
    InFull call.op.messages before after := by
  intro name stream' hlookup
  have hkeep {stream : StreamEntry} (hbefore : before.streams.lookup name = some stream)
      (hsame : stream'.payloads = stream.payloads) :
      (∃ stream, before.streams.lookup name = some stream ∧
        (stream'.payloads = stream.payloads ∨
          stream'.payloads = stream.payloads ++ call.op.messages)) ∨
      stream'.payloads = call.op.messages := .inl ⟨stream, hbefore, .inl hsame⟩
  cases h with
  | unchanged => exact hkeep hlookup rfl
  | update hbefore houtcome =>
      rw [FiniteMap.lookup_insert_ite] at hlookup
      split at hlookup
      · next hname =>
          obtain rfl := Option.some.inj hlookup
          refine .inl ⟨_, hname ▸ hbefore, ?_⟩
          rw [houtcome.payloads, Call.added]
          split
          · exact .inr rfl
          · exact .inl (List.append_nil _)
      · exact hkeep hlookup rfl
  | delete =>
      rw [removeStream, FiniteMap.lookup_erase_ite] at hlookup
      split at hlookup
      · cases hlookup
      · exact hkeep hlookup rfl
  | claim _ hclaim =>
      rw [claim_name_lookup hclaim] at hlookup
      split at hlookup
      · cases hlookup
      · exact hkeep hlookup rfl
  | create _ hclaim _ houtcome =>
      rw [FiniteMap.lookup_insert_ite] at hlookup
      split at hlookup
      · obtain rfl := Option.some.inj hlookup
        exact .inr houtcome.payloads
      · next hne =>
          rw [claim_name_lookup hclaim, if_neg hne] at hlookup
          exact hkeep hlookup rfl

end Storages

end DurableStreams.Memory

namespace DurableStreams.Acid

open Lib

variable {config : Config} {call : Call} {storage : AcidStorage config}

/-- A call that fails changes nothing. -/
theorem step_failed (h : (step call storage).1.failed = true) : (step call storage).2 = storage := by
  have hwrites := Reply.writes_of_failed h
  cases hupdates : updates call.op with
  | true =>
      cases step_updated call storage hupdates with
      | nothing _ _ _ hfailed => exact hfailed h
      | row _ _ _ _ _ _ _ _ hrow _ => cases hwrites.symm.trans hrow
  | false =>
      by_cases hcreate : call.op.config.isSome = true
      · cases step_created call storage hcreate with
        | nothing _ _ _ hfailed => exact hfailed h
        | row _ _ _ hreply _ _ => cases hwrites.symm.trans hreply
      obtain ⟨clock, op⟩ := call
      cases op with
      | delete name =>
          simp only [step, delete] at h ⊢
          cases hlookup : (storage.shard name).streams.lookup name with
          | none => rfl
          | some saved => simp [hlookup, Reply.failed] at h
      | subscribe name => simp [step, Reply.failed] at h
      | read | head | «exists» => rfl
      | createStream | createStreamWithData => exact absurd rfl hcreate
      | append | batchAppend | appendWithProducer | closeStream => cases hupdates

/-- A call that reports an append has written all its messages. -/
theorem step_appended (h : (step call storage).1.appended = true) :
    Written call.op.name call.op.messages (storage.shard call.op.name)
      ((step call storage).2.shard call.op.name) := by
  have hupdates : updates call.op = true := by
    obtain ⟨clock, op⟩ := call
    cases op with
    | append | batchAppend | appendWithProducer | closeStream => rfl
    | _ => simp [step, Reply.appended] at h
  cases step_updated call storage hupdates with
  | nothing _ _ hquiet _ => cases hquiet.symm.trans h
  | row total saved written table hlookup hstep _ hrow _ _ =>
      rw [Call.added, if_pos h] at hrow
      refine ⟨saved, written, table, hlookup, hrow, ?_⟩
      rw [AcidStorage.shard, hstep, announced_shards]
      exact Function.update_self ..

/-- A shard with a new stream, in place of an expired one if there was one, in which the whole batch
of the create has been written. A batch without a byte is not written. -/
def WrittenNew (call : Call) (before after : Shard) : Prop :=
  ∃ free removed streamConfig closed, call.op.config = some streamConfig ∧
    claimName call.clock call.op.name before = .vacant free removed ∧
    after = free.write call.op.name
      ((newRow call streamConfig free.messages).1.closeIf closed,
        (newRow call streamConfig free.messages).2)

/-- A call that reports a new stream has written all its messages. -/
theorem step_creates (h : call.creates (step call storage).1 = true) :
    WrittenNew call (storage.shard call.op.name) ((step call storage).2.shard call.op.name) := by
  obtain ⟨hcreate, hwrites⟩ := Bool.and_eq_true_iff.mp h
  cases step_created call storage hcreate with
  | nothing hreply _ _ _ => cases hreply.symm.trans hwrites
  | row closed hclaim hconfig _ hshards _ =>
      refine ⟨_, _, _, closed, hconfig, hclaim, ?_⟩
      rw [AcidStorage.shard, hshards]
      exact Function.update_self ..

end DurableStreams.Acid

namespace DurableStreams

open Lib

/-- An operation that returns an error changes nothing, and a batch is stored in full or not at all.
After any run, a failed operation of the in-memory storage keeps the live streams up to stale
producer records, creates nothing and keeps the bytes of the live streams. A failed operation or
transaction of the transactional storage leaves everything as it was. -/
theorem errors_change_nothing (config : Acid.Config) (calls : List Call) (call : Call) :
    let memory := (exec (Memory.step config.limits) calls .new).2
    let acid := (exec Acid.step calls (.new config)).2
    Memory.InFull call.op.messages memory (Memory.step config.limits call memory).2 ∧
      ((Memory.step config.limits call memory).1.failed = true →
        Memory.Kept call.clock memory (Memory.step config.limits call memory).2) ∧
      ((Acid.step call acid).1.appended = true →
        Acid.Written call.op.name call.op.messages (acid.shard call.op.name)
          ((Acid.step call acid).2.shard call.op.name)) ∧
      (call.creates (Acid.step call acid).1 = true →
        Acid.WrittenNew call (acid.shard call.op.name)
          ((Acid.step call acid).2.shard call.op.name)) ∧
      ((Acid.step call acid).1.failed = true → (Acid.step call acid).2 = acid) ∧
      Acid.abort acid call = acid := by
  have hinvariant := Memory.reachable_invariant config.limits calls
  exact ⟨(Memory.step_effect call hinvariant).inFull, Memory.step_failed_kept hinvariant,
    Acid.step_appended, Acid.step_creates, Acid.step_failed, Acid.abort_eq call _⟩

/-- A batch that does not fit, after an expired stream and a live one. -/
def crowdedRun : List Call :=
  [⟨.at 0, .createStream "old" ⟨"text/plain", none, some 10, false⟩⟩,
    ⟨.at 1, .append "old" [1, 2] "text/plain" (Size.fits .two)⟩,
    ⟨.at 2, .createStreamWithData "s" .plain [List.replicate 40 0] false (by decide)⟩]

theorem errors_change_nothing_crowded :
    let call : Call := ⟨.at 20, .createStreamWithData "old" .plain [List.replicate 60 0] false
      (by decide)⟩
    let memory := (exec (Memory.step Acid.crowded.limits) crowdedRun .new).2
    let acid := (exec Acid.step crowdedRun (.new Acid.crowded)).2
    Memory.Kept call.clock memory (Memory.step Acid.crowded.limits call memory).2 ∧
      (Acid.step call acid).2 = acid := by
  intro call memory acid
  obtain ⟨-, hmemory, -, -, hacid, -⟩ := errors_change_nothing Acid.crowded crowdedRun call
  exact ⟨hmemory (by decide +kernel), hacid (by decide +kernel)⟩

end DurableStreams
