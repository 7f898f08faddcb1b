import DurableStreams.Lib.Execution
import DurableStreams.Storage.Log
import DurableStreams.Storage.Memory.Sections

/-!
# The invariant of the in-memory storage

`WellFormed` ties the three redundant counters of an entry and the offsets of its messages to the
abstract log of its payloads. `Invariant` adds the byte accounting: the global counter is the sum
over all streams and both limits hold. `step_invariant` is the step lemma and
`reachable_invariant` the run lemma. Since every reservation keeps the counter below a 64-bit
limit, the invariant also shows that no byte counter wraps.
-/

namespace DurableStreams.Memory

open Lib

/-- The payloads of a stream, in order: its abstract log. -/
def StreamEntry.payloads (stream : StreamEntry) : List Bytes := stream.messages.map Message.data

/-- The messages carry the offsets of the abstract log and the counters describe its tail. Message
numbers are kept modulo `2 ^ 64`. -/
structure WellFormed (stream : StreamEntry) : Prop where
  offsets : stream.messages.map Message.offset = Log.offsets stream.payloads
  byteLens : ∀ message ∈ stream.messages, message.byteLen = message.data.length
  nextReadSeq : stream.nextReadSeq = wrap64 stream.messages.length
  nextByteOffset : stream.nextByteOffset = payloadBytes stream.payloads
  totalBytes : stream.totalBytes = payloadBytes stream.payloads

/-- The storage invariant: well-formed streams within their limit, and a global counter that is
the sum over all streams and within its own limit. -/
structure Invariant (limits : Limits) (storage : InMemoryStorage) : Prop where
  wellFormed : ∀ {name stream}, storage.streams.lookup name = some stream → WellFormed stream
  streamLimit : ∀ {name stream}, storage.streams.lookup name = some stream →
    stream.totalBytes ≤ limits.maxStreamBytes.toNat
  total : storage.totalBytes = FiniteMap.total StreamEntry.totalBytes storage.streams
  globalLimit : storage.totalBytes ≤ limits.maxTotalBytes.toNat

/-! ## Entries -/

variable {stream after : StreamEntry}

@[simp] theorem payloads_push (stream : StreamEntry) (data : Bytes) :
    (stream.push data).payloads = stream.payloads ++ [data] := by
  simp [StreamEntry.payloads, StreamEntry.push, Message.new]

@[simp] theorem payloads_foldl_push (stream : StreamEntry) (messages : List Bytes) :
    (messages.foldl StreamEntry.push stream).payloads = stream.payloads ++ messages := by
  induction messages generalizing stream with
  | nil => simp
  | cons data messages ih => simp [ih]

/-- Pushing leaves the configuration and creation time alone. -/
theorem foldl_push_config (stream : StreamEntry) (messages : List Bytes) :
    (messages.foldl StreamEntry.push stream).config = stream.config ∧
      (messages.foldl StreamEntry.push stream).createdAt = stream.createdAt := by
  induction messages generalizing stream with
  | nil => exact ⟨rfl, rfl⟩
  | cons data messages ih => exact ih (stream.push data)

theorem SameLog.payloads (h : SameLog stream after) : after.payloads = stream.payloads := by
  rw [StreamEntry.payloads, h.messages, StreamEntry.payloads]

/-- Well-formedness is about the log alone. -/
theorem SameLog.wellFormed (h : SameLog stream after) (hstream : WellFormed stream) :
    WellFormed after where
  offsets := by rw [h.messages, h.payloads, hstream.offsets]
  byteLens := by rw [h.messages]; exact hstream.byteLens
  nextReadSeq := by rw [h.nextReadSeq, h.messages, hstream.nextReadSeq]
  nextByteOffset := by rw [h.nextByteOffset, h.payloads, hstream.nextByteOffset]
  totalBytes := by rw [h.totalBytes, h.payloads, hstream.totalBytes]

namespace WellFormed

/-- A new stream is well formed. -/
theorem new (now : Timestamp) (config : StreamConfig) : WellFormed (.new now config) :=
  ⟨rfl, by simp [StreamEntry.new], rfl, rfl, rfl⟩

/-- The entry's next offset is the tail of its log. -/
theorem next_offset (h : WellFormed stream) : stream.nextOffset = Log.tail stream.payloads := by
  rw [StreamEntry.nextOffset, h.nextReadSeq, h.nextByteOffset, Log.tail, Log.offsetAt,
    List.take_length, StreamEntry.payloads, List.length_map]

/-- Storing one message keeps the entry well formed, as long as the bytes fit. -/
theorem push (h : WellFormed stream) {data : Bytes}
    (hfits : stream.totalBytes + data.length < 2 ^ 64) : WellFormed (stream.push data) where
  offsets := by
    rw [payloads_push, Log.offsets_concat, ← h.offsets, ← h.next_offset]
    simp [StreamEntry.push, Message.new]
  byteLens := by
    intro message hmessage
    rcases List.mem_append.mp hmessage with hold | hnew
    · exact h.byteLens message hold
    · obtain rfl := List.mem_singleton.mp hnew
      exact byte_len_of_lt (by omega)
  nextReadSeq := by
    simp [StreamEntry.push, h.nextReadSeq, wrap64]
  nextByteOffset := by
    rw [payloads_push, payload_bytes_append]
    simp only [StreamEntry.push]
    rw [h.nextByteOffset, ← h.totalBytes, byte_len_of_lt (by omega), wrap64_of_lt hfits]
    simp [payloadBytes]
  totalBytes := by
    rw [payloads_push, payload_bytes_append]
    simp only [StreamEntry.push]
    rw [byte_len_of_lt (by omega), wrap64_of_lt hfits, ← h.totalBytes]
    simp [payloadBytes]

/-- Storing a batch keeps the entry well formed, as long as the bytes fit. -/
theorem foldl_push (h : WellFormed stream) {messages : List Bytes}
    (hfits : stream.totalBytes + payloadBytes messages < 2 ^ 64) :
    WellFormed (messages.foldl StreamEntry.push stream) := by
  induction messages generalizing stream with
  | nil => exact h
  | cons data messages ih =>
      rw [payload_bytes_cons] at hfits
      have hpush : WellFormed (stream.push data) := h.push (by omega)
      refine ih hpush ?_
      rw [hpush.totalBytes, payloads_push, payload_bytes_append, ← h.totalBytes]
      simpa [payloadBytes, Nat.add_assoc] using hfits

end WellFormed

/-! ## Reservations -/

/-- A refused reservation would have exceeded the global limit. -/
theorem reserve_eq_none_iff {limits : Limits} {total bytes : Nat} :
    reserveTotalBytes limits total bytes = none ↔ limits.maxTotalBytes.toNat < total + bytes := by
  rw [Option.eq_none_iff_forall_ne_some]
  constructor
  · intro h
    by_contra hle
    exact h (total + bytes) (reserve_eq_some_iff.mpr ⟨rfl, by omega⟩)
  · intro h reserved hreserved
    obtain ⟨rfl, hle⟩ := reserve_eq_some_iff.mp hreserved
    omega

/-- What an operation does to the counter and an entry when it adds messages to the log: the same
bytes are added to both, and both limits hold. -/
structure Outcome (limits : Limits) (added : List Bytes) (total : Nat) (stream : StreamEntry)
    (total' : Nat) (after : StreamEntry) : Prop where
  wellFormed : WellFormed after
  config : after.config = stream.config
  createdAt : after.createdAt = stream.createdAt
  balance : total' + stream.totalBytes = total + after.totalBytes
  streamLimit : after.totalBytes ≤ limits.maxStreamBytes.toNat
  globalLimit : total' ≤ limits.maxTotalBytes.toNat
  payloads : after.payloads = stream.payloads ++ added

/-- An outcome is about the log of the entry alone. -/
theorem Outcome.sameLog {limits : Limits} {added : List Bytes} {total total' : Nat}
    {entry : StreamEntry} (h : Outcome limits added total stream total' after)
    (hsame : SameLog after entry) : Outcome limits added total stream total' entry :=
  ⟨hsame.wellFormed h.wellFormed, hsame.config.trans h.config, hsame.createdAt.trans h.createdAt,
    hsame.totalBytes ▸ h.balance, hsame.totalBytes ▸ h.streamLimit, h.globalLimit,
    hsame.payloads.trans h.payloads⟩

/-- Without new messages the counter stays as it is. -/
theorem Outcome.total_eq {limits : Limits} {total total' : Nat} (hstream : WellFormed stream)
    (h : Outcome limits [] total stream total' after) : total' = total := by
  have hbalance := h.balance
  have hsame : after.totalBytes = stream.totalBytes := by
    rw [h.wellFormed.totalBytes, h.payloads, List.append_nil, hstream.totalBytes]
  omega

section Outcomes

variable {limits : Limits} {total : Nat} {messages : List Bytes}

/-- Committing a batch that was reserved and is within the stream limit. -/
theorem commit_outcome {checked committed : StreamEntry} (hstream : WellFormed stream)
    (hle : stream.totalBytes ≤ total) (hbatch : payloadBytes messages < 2 ^ 64)
    (hchecked : SameLog stream checked)
    (hcommitted : SameLog (messages.foldl StreamEntry.push checked) committed)
    (hglobal : total + batchBytes messages ≤ limits.maxTotalBytes.toNat)
    (hlimit : overStreamLimit limits messages checked = false) :
    Outcome limits messages total stream (total + batchBytes messages) committed := by
  have hmax := limits.maxTotalBytes.toNat_lt
  have hbytes := batch_bytes_eq hbatch
  rw [hbytes] at hglobal ⊢
  have hfits : checked.totalBytes + payloadBytes messages < 2 ^ 64 := by
    rw [hchecked.totalBytes]
    omega
  have hpush := (hchecked.wellFormed hstream).foldl_push hfits
  have htotal : committed.totalBytes = stream.totalBytes + payloadBytes messages := by
    rw [hcommitted.totalBytes, hpush.totalBytes, payloads_foldl_push, payload_bytes_append,
      hchecked.payloads, ← hstream.totalBytes]
  obtain ⟨hconfig, hcreated⟩ := foldl_push_config checked messages
  refine ⟨hcommitted.wellFormed hpush, ?_, ?_, by omega, ?_, hglobal, ?_⟩
  · rw [hcommitted.config, hconfig, hchecked.config]
  · rw [hcommitted.createdAt, hcreated, hchecked.createdAt]
  · rw [overStreamLimit, decide_eq_false_iff_not, hbytes, wrap64_of_lt hfits,
      hchecked.totalBytes] at hlimit
    omega
  · rw [hcommitted.payloads, payloads_foldl_push, hchecked.payloads]

/-- An entry whose log is untouched, against an untouched counter. -/
theorem quiet_outcome (hstream : WellFormed stream)
    (hlimit : stream.totalBytes ≤ limits.maxStreamBytes.toNat)
    (hglobal : total ≤ limits.maxTotalBytes.toNat) (h : SameLog stream after) :
    Outcome limits [] total stream total after :=
  ⟨h.wellFormed hstream, h.config, h.createdAt, by rw [h.totalBytes], h.totalBytes ▸ hlimit,
    hglobal, by rw [h.payloads, List.append_nil]⟩

/-- Every plan adds the messages of the call if its reply says so, and otherwise none. -/
theorem plan_outcome (call : Call) (hstream : WellFormed stream)
    (hlimit : stream.totalBytes ≤ limits.maxStreamBytes.toNat) (hle : stream.totalBytes ≤ total)
    (hglobal : total ≤ limits.maxTotalBytes.toNat) :
    Outcome limits (call.added ((plan call stream).run limits total).1) total stream
      ((plan call stream).run limits total).2.1 ((plan call stream).run limits total).2.2 := by
  have hspec := plan_spec call stream
  cases hplan : plan call stream with
  | finish reply finished =>
      rw [hplan] at hspec
      have hnone : call.added reply = [] := by
        rw [Call.added]
        split
        · next hreply => exact hspec.2 hreply
        · rfl
      simpa only [Plan.run, hnone] using quiet_outcome hstream hlimit hglobal hspec.1
  | commit messages checked refused reply committed =>
      rw [hplan] at hspec
      obtain ⟨⟨hmessages, hchecked, hcommitted⟩, hrefused, hreply⟩ := hspec
      have hnone (error : Error) : call.added (refused error) = [] := by
        simp [Call.added, hrefused error]
      simp only [Plan.run]
      cases hreserve : reserveTotalBytes limits total (batchBytes messages) with
      | none => simpa only [hnone] using quiet_outcome hstream hlimit hglobal hchecked
      | some reserved =>
          obtain ⟨rfl, hfits⟩ := reserve_eq_some_iff.mp hreserve
          dsimp only
          split
          · -- The reservation is given back in full.
            simpa only [hnone, Nat.add_sub_cancel] using
              quiet_outcome hstream hlimit hglobal hchecked
          · next hover =>
              have hall : call.added reply = messages := by
                rw [Call.added, hreply, if_pos rfl, hmessages]
              rw [hall]
              exact commit_outcome hstream hle (hmessages ▸ call.op.payload_lt) hchecked hcommitted
                hfits (by simpa using hover)

/-- A commit on its own either fails and changes nothing or stores the whole batch. -/
theorem commit_messages_outcome (hstream : WellFormed stream) (hle : stream.totalBytes ≤ total)
    (hlimit : stream.totalBytes ≤ limits.maxStreamBytes.toNat)
    (hglobal : total ≤ limits.maxTotalBytes.toNat) (hbatch : payloadBytes messages < 2 ^ 64) :
    match commitMessages limits total stream messages with
    | (.error _, total', after) => total' = total ∧ after = stream
    | (.ok (), total', after) => Outcome limits messages total stream total' after := by
  by_cases hempty : messages.isEmpty
  · obtain rfl := List.isEmpty_iff.mp hempty
    exact quiet_outcome hstream hlimit hglobal (.refl stream)
  · simp only [commitMessages, hempty, Bool.false_eq_true, ↓reduceIte, reserveAndCommit]
    cases hreserve : reserveTotalBytes limits total (batchBytes messages) with
    | none => exact ⟨rfl, rfl⟩
    | some reserved =>
        obtain ⟨rfl, hfits⟩ := reserve_eq_some_iff.mp hreserve
        dsimp only
        split_ifs with hover
        · exact ⟨Nat.add_sub_cancel .., rfl⟩
        · exact commit_outcome hstream hle hbatch (.refl stream) (.notifyAll _) hfits
            (by simpa [overStreamLimit] using hover)

end Outcomes

/-! ## Storages -/

section Storages

variable {limits : Limits} {storage free : InMemoryStorage} {name : String}

/-- Everything one call can do to the storage. -/
inductive Effect (limits : Limits) (call : Call) (storage : InMemoryStorage) :
    Reply → InMemoryStorage → Prop
  | unchanged {reply : Reply} (hreply : reply.appended = false) :
      Effect limits call storage reply storage
  | update {reply : Reply} {stream after : StreamEntry} {total : Nat}
      (hlookup : storage.streams.lookup call.op.name = some stream)
      (houtcome : Outcome limits (call.added reply) storage.totalBytes stream total after) :
      Effect limits call storage reply ⟨storage.streams.insert call.op.name after, total⟩
  | delete {reply : Reply} {stream : StreamEntry} (hreply : reply.appended = false)
      (hlookup : storage.streams.lookup call.op.name = some stream)
      (hop : call.op = .delete call.op.name) :
      Effect limits call storage reply (removeStream storage call.op.name stream)
  | claim {reply : Reply} {free : InMemoryStorage} (hreply : reply.appended = false)
      (hclaim : claimName call.clock storage call.op.name = .vacant free) :
      Effect limits call storage reply free
  | create {reply : Reply} {free : InMemoryStorage} {config : StreamConfig} {entry : StreamEntry}
      {total : Nat} (hreply : reply.appended = false)
      (hclaim : claimName call.clock storage call.op.name = .vacant free)
      (hconfig : call.op.config = some config)
      (houtcome : Outcome limits call.op.messages free.totalBytes (.new call.clock.stamp config)
        total entry) :
      Effect limits call storage reply ⟨free.streams.insert call.op.name entry, total⟩

namespace Invariant

/-- A storage without streams satisfies the invariant. -/
theorem new (limits : Limits) : Invariant limits .new := by
  refine ⟨?_, ?_, rfl, Nat.zero_le _⟩ <;> simp [InMemoryStorage.new]

/-- No stream counts more bytes than the storage. -/
theorem stream_le_total (h : Invariant limits storage)
    (hlookup : storage.streams.lookup name = some stream) :
    stream.totalBytes ≤ storage.totalBytes := by
  rw [h.total]
  exact FiniteMap.measure_le_total StreamEntry.totalBytes hlookup

/-- Writing an entry keeps the invariant when the counter follows the sum. -/
theorem insert {total : Nat} (h : Invariant limits storage) (hwellFormed : WellFormed after)
    (hstream : after.totalBytes ≤ limits.maxStreamBytes.toNat)
    (htotal : total = FiniteMap.total StreamEntry.totalBytes (storage.streams.insert name after))
    (hglobal : total ≤ limits.maxTotalBytes.toNat) :
    Invariant limits ⟨storage.streams.insert name after, total⟩ := by
  refine ⟨?_, ?_, htotal, hglobal⟩ <;>
  · intro other entry hother
    rw [FiniteMap.lookup_insert_ite] at hother
    split at hother
    · cases hother
      assumption
    · first
        | exact h.wellFormed hother
        | exact h.streamLimit hother

/-- Writing the outcome of an operation over the entry it started from. -/
theorem update {added : List Bytes} {total : Nat} (h : Invariant limits storage)
    (hlookup : storage.streams.lookup name = some stream)
    (houtcome : Outcome limits added storage.totalBytes stream total after) :
    Invariant limits ⟨storage.streams.insert name after, total⟩ := by
  refine h.insert houtcome.wellFormed houtcome.streamLimit ?_ houtcome.globalLimit
  have hsum := FiniteMap.total_insert StreamEntry.totalBytes after hlookup
  have hbalance := houtcome.balance
  rw [h.total] at hbalance
  omega

/-- Taking a stream out with its bytes keeps the invariant. -/
theorem remove (h : Invariant limits storage)
    (hlookup : storage.streams.lookup name = some stream) :
    Invariant limits (removeStream storage name stream) := by
  have hsum := FiniteMap.total_erase StreamEntry.totalBytes hlookup
  have hlimit := h.globalLimit
  rw [h.total] at hlimit
  refine ⟨?_, ?_, ?_, ?_⟩
  · intro other entry hother
    simp only [removeStream, FiniteMap.lookup_erase_ite] at hother
    split at hother
    · cases hother
    · exact h.wellFormed hother
  · intro other entry hother
    simp only [removeStream, FiniteMap.lookup_erase_ite] at hother
    split at hother
    · cases hother
    · exact h.streamLimit hother
  · simp only [removeStream]
    rw [h.total]
    omega
  · simp only [removeStream]
    rw [h.total]
    omega

/-- Claiming a name keeps the invariant. -/
theorem claim {clock : Clock} (h : Invariant limits storage)
    (hclaim : claimName clock storage name = .vacant free) : Invariant limits free := by
  obtain ⟨-, rfl⟩ | ⟨old, hlookup, -, rfl⟩ := claim_name_vacant hclaim
  · exact h
  · exact h.remove hlookup

/-- Every effect keeps the invariant. -/
theorem effect {call : Call} {reply : Reply} {storage' : InMemoryStorage}
    (h : Invariant limits storage) (heffect : Effect limits call storage reply storage') :
    Invariant limits storage' := by
  cases heffect with
  | unchanged => exact h
  | update hlookup houtcome => exact h.update hlookup houtcome
  | delete _ hlookup _ => exact h.remove hlookup
  | claim _ hclaim => exact h.claim hclaim
  | create _ hclaim _ houtcome =>
      have hfree := h.claim hclaim
      refine hfree.insert houtcome.wellFormed houtcome.streamLimit ?_ houtcome.globalLimit
      have hvacant := claim_name_lookup hclaim call.op.name
      rw [if_pos rfl] at hvacant
      have hsum := FiniteMap.total_insert_new StreamEntry.totalBytes (by assumption) hvacant
      have hbalance := houtcome.balance
      rw [hfree.total] at hbalance
      simp only [StreamEntry.new] at hbalance
      omega

end Invariant

/-- The effect of a create without data. -/
theorem create_stream_effect {clock : Clock} {config : StreamConfig}
    (h : Invariant limits storage) :
    Effect limits ⟨clock, .createStream name config⟩ storage
      (.created (createStream clock storage name config).1)
      (createStream clock storage name config).2 := by
  unfold createStream
  cases hclaim : claimName clock storage name with
  | occupied stream =>
      dsimp only
      split <;> exact .unchanged rfl
  | vacant free =>
      have hglobal := (h.claim hclaim).globalLimit
      exact .create rfl hclaim rfl
        (quiet_outcome (.new clock.stamp config) (Nat.zero_le _) hglobal (.refl _))

/-- The effect of a create with data. -/
theorem create_with_data_effect {clock : Clock} {config : StreamConfig} {messages : List Bytes}
    {shouldClose : Bool} {fits : payloadBytes messages < 2 ^ 64} (h : Invariant limits storage) :
    Effect limits ⟨clock, .createStreamWithData name config messages shouldClose fits⟩ storage
      (.createdWithData
        (createStreamWithData limits clock storage name config messages shouldClose).1)
      (createStreamWithData limits clock storage name config messages shouldClose).2 := by
  unfold createStreamWithData
  cases hclaim : claimName clock storage name with
  | occupied stream =>
      dsimp only
      split <;> exact .unchanged rfl
  | vacant free =>
      have hcommit := commit_messages_outcome (.new clock.stamp config) (Nat.zero_le _)
        (Nat.zero_le _) (h.claim hclaim).globalLimit fits
      dsimp only
      generalize commitMessages limits free.totalBytes (.new clock.stamp config) messages =
        outcome at hcommit ⊢
      obtain ⟨result, total, entry⟩ := outcome
      cases result with
      | error error =>
          obtain ⟨rfl, -⟩ := hcommit
          exact .claim rfl hclaim
      | ok _ =>
          exact .create rfl hclaim rfl (hcommit.sameLog (.closeIf shouldClose entry))

/-- Every call has one of the effects, in any storage that satisfies the invariant. -/
theorem step_effect (call : Call) (h : Invariant limits storage) :
    Effect limits call storage (step limits call storage).1 (step limits call storage).2 := by
  cases hop : onStream call.op with
  | true =>
      rw [step_of_stream_op limits storage hop]
      cases hlookup : storage.streams.lookup call.op.name with
      | none => exact .unchanged (missing_reply_appended call.op)
      | some stream =>
          exact .update hlookup (plan_outcome call (h.wellFormed hlookup) (h.streamLimit hlookup)
            (h.stream_le_total hlookup) h.globalLimit)
  | false =>
      obtain ⟨clock, op⟩ := call
      cases op with
      | createStream name config => exact create_stream_effect h
      | createStreamWithData name config messages shouldClose fits =>
          exact create_with_data_effect h
      | delete name =>
          simp only [step, delete]
          cases hlookup : storage.streams.lookup name with
          | none => exact .unchanged rfl
          | some stream => exact .delete rfl hlookup rfl
      | batchAppend name messages contentType seq fits =>
          have hempty : messages.isEmpty = true := by simpa [onStream] using hop
          simp only [step, batchAppend, hempty, ↓reduceIte]
          exact .unchanged rfl
      | «exists» name => exact .unchanged rfl
      | append | read | head | closeStream | appendWithProducer | subscribe =>
          simp [onStream] at hop

/-- A call leaves the streams with other names alone. -/
theorem Effect.others {call : Call} {reply : Reply} {storage' : InMemoryStorage} {other : String}
    (h : Effect limits call storage reply storage') (hother : other ≠ call.op.name) :
    storage'.streams.lookup other = storage.streams.lookup other := by
  cases h with
  | unchanged => rfl
  | update => rw [FiniteMap.lookup_insert_ite, if_neg hother]
  | delete => rw [removeStream, FiniteMap.lookup_erase_ite, if_neg hother]
  | claim _ hclaim => rw [claim_name_lookup hclaim, if_neg hother]
  | create _ hclaim =>
      rw [FiniteMap.lookup_insert_ite, if_neg hother, claim_name_lookup hclaim, if_neg hother]

/-- One call keeps the invariant. -/
theorem step_invariant (call : Call) (h : Invariant limits storage) :
    Invariant limits (step limits call storage).2 :=
  h.effect (step_effect call h)

/-- The invariant holds after every run from a storage that satisfies it. -/
theorem exec_keeps_invariant (calls : List Call) (h : Invariant limits storage) :
    Invariant limits (exec (step limits) calls storage).2 := by
  have halong : Along (step limits) (fun _ _ => True) calls storage :=
    along_of_forall fun _ _ _ => trivial
  exact exec_invariant (fun call _ _ => step_invariant call) halong h

/-- The invariant holds in every reachable storage. -/
theorem reachable_invariant (limits : Limits) (calls : List Call) :
    Invariant limits (exec (step limits) calls .new).2 :=
  exec_keeps_invariant calls (.new limits)

end Storages

/-! ## Streams over runs -/

section Growth

variable {limits : Limits} {storage : InMemoryStorage} {name : String}

/-- An operation on a stream leaves it in place, with what the call added behind its log. -/
theorem step_on_stream_grows {call : Call} (h : Invariant limits storage)
    (hop : onStream call.op = true) (hlookup : storage.streams.lookup call.op.name = some stream) :
    ∃ after, (step limits call storage).2.streams.lookup call.op.name = some after ∧
      after.config = stream.config ∧
      after.payloads = stream.payloads ++ call.added (step limits call storage).1 := by
  have houtcome := plan_outcome call (h.wellFormed hlookup) (h.streamLimit hlookup)
    (h.stream_le_total hlookup) h.globalLimit
  rw [step_on_stream limits hop hlookup]
  exact ⟨_, Finmap.lookup_insert _, houtcome.config, houtcome.payloads⟩

/-- A call that spares a stream leaves it in place, with what the call added behind its log. -/
theorem step_spares {call : Call} (h : Invariant limits storage)
    (hlookup : storage.streams.lookup name = some stream) (hspares : Spares name stream.config call) :
    ∃ after, (step limits call storage).2.streams.lookup name = some after ∧
      after.config = stream.config ∧
      after.payloads = stream.payloads ++
        if call.op.name = name then call.added (step limits call storage).1 else [] := by
  obtain ⟨rfl, -, hreply, hafter⟩ | ⟨hquiet, hsame⟩ := step_lookup limits hlookup hspares.keeps
  · have houtcome := plan_outcome call (h.wellFormed hlookup) (h.streamLimit hlookup)
      (h.stream_le_total hlookup) h.globalLimit
    rw [if_pos rfl, hreply]
    exact ⟨_, hafter, houtcome.config, houtcome.payloads⟩
  · refine ⟨stream, hsame, rfl, ?_⟩
    split
    · next hname => rw [Call.added, hquiet hname, if_neg Bool.false_ne_true, List.append_nil]
    · rw [List.append_nil]

/-- Over a run that spares a stream, its log grows by exactly what the run appended to it. -/
theorem exec_spares {calls : List Call} (h : Invariant limits storage)
    (hlookup : storage.streams.lookup name = some stream)
    (hspares : ∀ call ∈ calls, Spares name stream.config call) :
    ∃ after, (exec (step limits) calls storage).2.streams.lookup name = some after ∧
      after.config = stream.config ∧
      after.payloads =
        stream.payloads ++ appendedTo name calls (exec (step limits) calls storage).1 := by
  induction calls generalizing storage stream with
  | nil => exact ⟨stream, hlookup, rfl, by simp [appendedTo]⟩
  | cons call calls ih =>
      obtain ⟨next, hnext, hconfig, hpayloads⟩ := step_spares h hlookup (hspares call (by simp))
      obtain ⟨after, hafter, hconfig', hpayloads'⟩ := ih (step_invariant call h) hnext
        (fun other hmem => hconfig ▸ hspares other (by simp [hmem]))
      refine ⟨after, hafter, hconfig'.trans hconfig, ?_⟩
      rw [hpayloads', hpayloads, exec_cons, appended_to_cons, List.append_assoc]

end Growth

end DurableStreams.Memory
