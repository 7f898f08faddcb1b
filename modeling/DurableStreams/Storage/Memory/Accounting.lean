import DurableStreams.Storage.Memory.Invariant

/-!
# Byte accounting of the in-memory storage

The byte counters are changed by unchecked 64-bit additions and by saturating subtractions, either
of which could hide a mistake. `stepChecked` runs a call with arithmetic that fails where an addition
would overflow or a subtraction would stop at zero. `step_checked_eq` shows that it never fails in a
storage that satisfies the invariant, so the counters are exact.
-/

namespace DurableStreams.Memory

open Lib

/-! ## Calls with checked arithmetic -/

/-- A subtraction that must not go below zero. -/
def checkedSub (left right : Nat) : Option Nat :=
  if right ≤ left then some (left - right) else none

/-- The size of a batch, summed up without overflow. -/
def batchBytesChecked (messages : List Bytes) : Option Nat :=
  messages.foldlM (fun total data => checkedAdd total (byteLen data)) 0

/-- Store one message, advancing both byte counters without overflow. -/
def StreamEntry.pushChecked (stream : StreamEntry) (data : Bytes) : Option StreamEntry := do
  let nextByteOffset ← checkedAdd stream.nextByteOffset (byteLen data)
  let totalBytes ← checkedAdd stream.totalBytes (byteLen data)
  return { stream.push data with nextByteOffset := nextByteOffset, totalBytes := totalBytes }

/-- Commit messages to a stream, as `commitMessages` does. -/
def commitMessagesChecked (limits : Limits) (total : Nat) (stream : StreamEntry)
    (messages : List Bytes) : Option (Result Unit × Nat × StreamEntry) :=
  if messages.isEmpty then some (.ok (), total, stream)
  else do
    let bytes ← batchBytesChecked messages
    match reserveTotalBytes limits total bytes with
    | none => return (.error .memoryLimitExceeded, total, stream)
    | some reserved =>
        let grown ← checkedAdd stream.totalBytes bytes
        if limits.maxStreamBytes.toNat < grown then
          let released ← checkedSub reserved bytes
          return (.error .streamSizeLimitExceeded, released, stream)
        else
          let stored ← messages.foldlM StreamEntry.pushChecked stream
          return (.ok (), reserved, stored.notifyAll)

/-- Carry out a plan, as `Plan.run` does. -/
def Plan.runChecked (limits : Limits) (total : Nat) : Plan → Option (Reply × Nat × StreamEntry)
  | .finish reply stream => some (reply, total, stream)
  | .commit messages stream refused reply committed => do
      match ← commitMessagesChecked limits total stream messages with
      | (.error error, total, stream) => return (refused error, total, stream)
      | (.ok (), total, _) => return (reply, total, committed)

/-- Take a stream out of the map and its bytes off the global counter. -/
def removeStreamChecked (storage : InMemoryStorage) (name : String) (stream : StreamEntry) :
    Option InMemoryStorage := do
  let total ← checkedSub storage.totalBytes stream.totalBytes
  return ⟨storage.streams.erase name, total⟩

/-- Look up the name of a create, dropping the stream there if it has expired. -/
def claimNameChecked (clock : Clock) (storage : InMemoryStorage) (name : String) : Option Slot :=
  match storage.streams.lookup name with
  | none => some (.vacant storage)
  | some stream =>
      if isStreamExpired clock.expiry stream.config then do
        return .vacant (← removeStreamChecked storage name stream)
      else some (.occupied stream)

/-- `create_stream`. -/
def createStreamChecked (clock : Clock) (storage : InMemoryStorage) (name : String)
    (config : StreamConfig) : Option (Result CreateStreamResult × InMemoryStorage) := do
  match ← claimNameChecked clock storage name with
  | .occupied stream =>
      if stream.config.partialEq config then return (.ok .alreadyExists, storage)
      else return (.error .configMismatch, storage)
  | .vacant storage =>
      return (.ok .created,
        ⟨storage.streams.insert name (StreamEntry.new clock.stamp config), storage.totalBytes⟩)

/-- `create_stream_with_data`. -/
def createStreamWithDataChecked (limits : Limits) (clock : Clock) (storage : InMemoryStorage)
    (name : String) (config : StreamConfig) (messages : List Bytes) (shouldClose : Bool) :
    Option (Result CreateWithDataResult × InMemoryStorage) := do
  match ← claimNameChecked clock storage name with
  | .occupied stream =>
      if stream.config.partialEq config then
        return (.ok ⟨.alreadyExists, stream.nextOffset, stream.closed⟩, storage)
      else return (.error .configMismatch, storage)
  | .vacant storage =>
      match ← commitMessagesChecked limits storage.totalBytes (.new clock.stamp config)
          messages with
      | (.error error, total, _) => return (.error error, ⟨storage.streams, total⟩)
      | (.ok (), total, entry) =>
          let entry := entry.closeIf shouldClose
          return (.ok ⟨.created, entry.nextOffset, entry.closed⟩,
            ⟨storage.streams.insert name entry, total⟩)

/-- `delete`. -/
def deleteChecked (storage : InMemoryStorage) (name : String) :
    Option (Result Unit × InMemoryStorage) :=
  match storage.streams.lookup name with
  | none => some (.error (.notFound name), storage)
  | some stream => do return (.ok (), ← removeStreamChecked storage name stream)

/-- Run one call of the storage trait. -/
def stepChecked (limits : Limits) (call : Call) (storage : InMemoryStorage) :
    Option (Reply × InMemoryStorage) :=
  match call.op with
  | .createStream name config =>
      (createStreamChecked call.clock storage name config).map (·.map .created id)
  | .createStreamWithData name config messages shouldClose _ =>
      (createStreamWithDataChecked limits call.clock storage name config messages shouldClose).map
        (·.map .createdWithData id)
  | .delete name => (deleteChecked storage name).map (·.map .done id)
  | op =>
      if onStream op then
        match storage.streams.lookup op.name with
        | none => some (missingReply op, storage)
        | some stream => do
            let (reply, total, stream) ←
              (plan call stream).runChecked limits storage.totalBytes
            return (reply, ⟨storage.streams.insert op.name stream, total⟩)
      else some (step limits call storage)

/-! ## The checks never fail -/

section Checks

variable {limits : Limits} {total : Nat} {stream : StreamEntry} {messages : List Bytes}

/-- A checked sum below `2 ^ 64` is the sum. -/
theorem checked_add_of_lt {left right : Nat} (h : left + right < 2 ^ 64) :
    checkedAdd left right = some (left + right) := if_pos h

/-- A checked difference of nothing more than there is. -/
theorem checked_sub_of_le {left right : Nat} (h : right ≤ left) :
    checkedSub left right = some (left - right) := if_pos h

/-- The size of a batch that fits in 64 bits is summed up without overflow. -/
theorem batch_bytes_checked_eq (h : payloadBytes messages < 2 ^ 64) :
    batchBytesChecked messages = some (batchBytes messages) := by
  rw [batch_bytes_eq h]
  suffices hfold : ∀ total, total + payloadBytes messages < 2 ^ 64 →
      messages.foldlM (fun total data => checkedAdd total (byteLen data)) total =
        some (total + payloadBytes messages) by
    simpa [batchBytesChecked] using hfold 0 (by simpa using h)
  clear h
  induction messages with
  | nil => intro total _; rfl
  | cons data messages ih =>
      intro total hfits
      rw [payload_bytes_cons] at hfits ⊢
      rw [List.foldlM_cons, byte_len_of_lt (by omega), checked_add_of_lt (by omega)]
      exact (ih _ (by omega)).trans (by rw [Nat.add_assoc])

/-- Storing one message, as long as the bytes of the stream fit. -/
theorem push_checked_eq (hstream : WellFormed stream) {data : Bytes}
    (hfits : stream.totalBytes + data.length < 2 ^ 64) :
    stream.pushChecked data = some (stream.push data) := by
  have hlen : byteLen data = data.length := byte_len_of_lt (by omega)
  have hoffset : stream.nextByteOffset = stream.totalBytes :=
    hstream.nextByteOffset.trans hstream.totalBytes.symm
  simp only [StreamEntry.pushChecked, hoffset, hlen, checked_add_of_lt hfits, Option.bind_eq_bind,
    Option.bind_some, Option.pure_def, StreamEntry.push, wrap64_of_lt hfits]

/-- Storing a batch, as long as the bytes of the stream fit. -/
theorem foldlM_push_checked_eq (hstream : WellFormed stream)
    (hfits : stream.totalBytes + payloadBytes messages < 2 ^ 64) :
    messages.foldlM StreamEntry.pushChecked stream =
      some (messages.foldl StreamEntry.push stream) := by
  induction messages generalizing stream with
  | nil => rfl
  | cons data messages ih =>
      rw [payload_bytes_cons] at hfits
      have hpush : WellFormed (stream.push data) := hstream.push (by omega)
      rw [List.foldlM_cons, push_checked_eq hstream (by omega)]
      refine ih hpush ?_
      rw [hpush.totalBytes, payloads_push, payload_bytes_append, ← hstream.totalBytes]
      simpa [payloadBytes, Nat.add_assoc] using hfits

/-- No check of a commit fails: what was reserved bounds the bytes of the stream as well. -/
theorem commit_messages_checked_eq (hstream : WellFormed stream) (hle : stream.totalBytes ≤ total)
    (hbatch : payloadBytes messages < 2 ^ 64) :
    commitMessagesChecked limits total stream messages =
      some (commitMessages limits total stream messages) := by
  unfold commitMessagesChecked commitMessages
  split
  · rfl
  rw [batch_bytes_checked_eq hbatch, batch_bytes_eq hbatch]
  simp only [Option.bind_eq_bind, Option.bind_some, Option.pure_def, reserveAndCommit]
  cases hreserve : reserveTotalBytes limits total (payloadBytes messages) with
  | none => rfl
  | some reserved =>
      obtain ⟨rfl, hglobal⟩ := reserve_eq_some_iff.mp hreserve
      have hfits : stream.totalBytes + payloadBytes messages < 2 ^ 64 := by
        have hmax := limits.maxTotalBytes.toNat_lt
        omega
      simp only [checked_add_of_lt hfits, Option.bind_some, wrap64_of_lt hfits]
      split
      · rw [checked_sub_of_le (Nat.le_add_left ..)]
        rfl
      · rw [foldlM_push_checked_eq hstream hfits]
        rfl

/-- Committing is running a commit plan, also for a batch without messages. -/
theorem commit_messages_run {checked committed : StreamEntry} {refused : Error → Reply}
    {reply : Reply} (hlimit : checked.totalBytes ≤ limits.maxStreamBytes.toNat)
    (hglobal : total ≤ limits.maxTotalBytes.toNat) :
    (match commitMessages limits total checked messages with
      | (.error error, total, stream) => (refused error, total, stream)
      | (.ok (), total, _) => (reply, total, committed)) =
      (Plan.commit messages checked refused reply committed).run limits total := by
  by_cases hempty : messages.isEmpty
  · obtain rfl := List.isEmpty_iff.mp hempty
    have hfits : overStreamLimit limits [] checked = false := by
      rw [overStreamLimit, decide_eq_false_iff_not, Nat.not_lt]
      exact (Nat.mod_le _ _).trans hlimit
    have hreserve : reserveTotalBytes limits total (batchBytes []) = some total :=
      reserve_eq_some_iff.mpr ⟨rfl, hglobal⟩
    simp [commitMessages, Plan.run, hreserve, hfits]
  · simp only [commitMessages, hempty, Bool.false_eq_true, ↓reduceIte, reserveAndCommit, Plan.run,
      overStreamLimit, decide_eq_true_eq]
    cases reserveTotalBytes limits total (batchBytes messages) with
    | none => rfl
    | some reserved => dsimp only; split_ifs <;> rfl

/-- No check of a plan fails. -/
theorem run_checked_eq (call : Call) (hstream : WellFormed stream)
    (hlimit : stream.totalBytes ≤ limits.maxStreamBytes.toNat) (hle : stream.totalBytes ≤ total)
    (hglobal : total ≤ limits.maxTotalBytes.toNat) :
    (plan call stream).runChecked limits total = some ((plan call stream).run limits total) := by
  have hspec := plan_spec call stream
  cases hplan : plan call stream with
  | finish reply finished => rfl
  | commit messages checked refused reply committed =>
      rw [hplan] at hspec
      obtain ⟨⟨hmessages, hchecked, -⟩, -⟩ := hspec
      rw [Plan.runChecked, commit_messages_checked_eq (hchecked.wellFormed hstream)
        (hchecked.totalBytes ▸ hle) (hmessages ▸ call.op.payload_lt), ← commit_messages_run
        (hchecked.totalBytes ▸ hlimit) hglobal]
      rcases commitMessages limits total checked messages with ⟨error | ⟨⟩, total, after⟩ <;> rfl

end Checks

section Storages

variable {limits : Limits} {storage : InMemoryStorage} {name : String} {stream : StreamEntry}

/-- A stream is taken out without taking off more than was counted. -/
theorem remove_stream_checked_eq (h : Invariant limits storage)
    (hlookup : storage.streams.lookup name = some stream) :
    removeStreamChecked storage name stream = some (removeStream storage name stream) := by
  rw [removeStreamChecked, checked_sub_of_le (h.stream_le_total hlookup)]
  rfl

/-- A name is claimed without taking off more than was counted. -/
theorem claim_name_checked_eq (h : Invariant limits storage) (clock : Clock) (name : String) :
    claimNameChecked clock storage name = some (claimName clock storage name) := by
  unfold claimNameChecked claimName
  cases hlookup : storage.streams.lookup name with
  | none => rfl
  | some stream =>
      dsimp only
      split
      · rw [remove_stream_checked_eq h hlookup]
        rfl
      · rfl

/-- No check of a call fails, in any storage that satisfies the invariant. -/
theorem step_checked_eq (call : Call) (h : Invariant limits storage) :
    stepChecked limits call storage = some (step limits call storage) := by
  obtain ⟨clock, op⟩ := call
  have hstream (hop : onStream op = true) :
      (match storage.streams.lookup op.name with
        | none => some (missingReply op, storage)
        | some stream => do
            let (reply, total, stream) ←
              (plan ⟨clock, op⟩ stream).runChecked limits storage.totalBytes
            return (reply, ⟨storage.streams.insert op.name stream, total⟩)) =
        some (step limits ⟨clock, op⟩ storage) := by
    rw [@step_of_stream_op limits ⟨clock, op⟩ storage hop]
    cases hlookup : storage.streams.lookup op.name with
    | none => rfl
    | some stream =>
        dsimp only
        rw [run_checked_eq _ (h.wellFormed hlookup) (h.streamLimit hlookup)
          (h.stream_le_total hlookup) h.globalLimit]
        rfl
  cases op with
  | createStream name config =>
      simp only [stepChecked, createStreamChecked, claim_name_checked_eq h, Option.bind_eq_bind,
        Option.bind_some, step, createStream]
      cases claimName clock storage name with
      | occupied found => dsimp only; split <;> rfl
      | vacant free => rfl
  | createStreamWithData name config messages shouldClose fits =>
      simp only [stepChecked, createStreamWithDataChecked, claim_name_checked_eq h,
        Option.bind_eq_bind, Option.bind_some, step, createStreamWithData]
      cases claimName clock storage name with
      | occupied found => dsimp only; split <;> rfl
      | vacant free =>
          simp only [commit_messages_checked_eq (.new clock.stamp config) (Nat.zero_le _) fits,
            Option.bind_some]
          rcases commitMessages limits free.totalBytes (.new clock.stamp config) messages with
            ⟨error | ⟨⟩, total, entry⟩ <;> rfl
  | delete name =>
      simp only [stepChecked, deleteChecked, step, delete]
      cases hlookup : storage.streams.lookup name with
      | none => rfl
      | some stream =>
          dsimp only
          rw [remove_stream_checked_eq h hlookup]
          rfl
  | batchAppend name messages contentType seq fits =>
      simp only [stepChecked]
      split
      · next hop => exact hstream hop
      · rfl
  | «exists» name => rfl
  | append | read | head | closeStream | appendWithProducer | subscribe => exact hstream rfl

/-- The byte accounting of every run is exact: the global counter is the sum over all entries and
within its limit, every entry is within its own limit, and whatever call comes next, no subtraction
from the counter saturates and no addition of byte counts overflows. -/
theorem byte_accounting_exact (limits : Limits) (calls : List Call) :
    let storage := (exec (step limits) calls .new).2
    storage.totalBytes = FiniteMap.total StreamEntry.totalBytes storage.streams ∧
      storage.totalBytes ≤ limits.maxTotalBytes.toNat ∧
      (∀ name stream, storage.streams.lookup name = some stream →
        stream.totalBytes ≤ limits.maxStreamBytes.toNat) ∧
      ∀ call, stepChecked limits call storage = some (step limits call storage) := by
  intro storage
  have h : Invariant limits storage := reachable_invariant limits calls
  exact ⟨h.total, h.globalLimit, fun _ _ hlookup => h.streamLimit hlookup,
    fun call => step_checked_eq call h⟩

end Storages

end DurableStreams.Memory
