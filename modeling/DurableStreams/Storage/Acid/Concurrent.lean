import DurableStreams.Lib.Interleaving
import DurableStreams.Storage.Acid.Reopening
import Mathlib.Algebra.BigOperators.Fin
import Mathlib.Algebra.Order.BigOperators.Group.Finset

/-!
# The global counter under concurrency

An operation of the transactional storage is a sequence of steps that others may come between: the
reservation on the counter, the transaction on its shard, and the subtraction of what was reserved in
vain or removed. A create with data reserves while its transaction is open, and until it is committed
or aborted no other write transaction begins on the shard. Any database call may fail.

The counter is the sum of the stored bytes and of what the operations in flight still owe
(`Balanced`). So it never falls below the stored bytes nor exceeds the limit, no subtraction
saturates, and between operations it is exactly the number of stored bytes.
-/

namespace DurableStreams.Acid

open Lib

variable {config : Config}

/-! ## Steps -/

/-- How far an operation has got: not begun, bytes reserved before the transaction, room found in an
open transaction, bytes reserved in it, bytes still to be subtracted, or finished. -/
inductive Phase where
  | start
  | reserved (bytes : Nat)
  | claimed (shard : Shard) (removed : Nat)
  | charged (shard : Shard) (removed bytes : Nat)
  | owes (bytes : Nat) (reply : Reply)
  | done (reply : Reply)

/-- An operation in flight. -/
structure Thread where
  call : Call
  phase : Phase

/-- The shard on which the operation has a write transaction open between two steps. -/
def Thread.holds (config : Config) (thread : Thread) : Option (Fin config.shardCount) :=
  match thread.phase with
  | .claimed .. | .charged .. => some (shardIndex config thread.call.op.name)
  | _ => none

/-- Whether the next step of the operation begins a write transaction. -/
def Thread.begins (thread : Thread) : Bool :=
  match thread.phase, thread.call.op with
  | .reserved _, _ => true
  | .start, .createStream .. | .start, .createStreamWithData .. | .start, .delete ..
  | .start, .closeStream .. => true
  | _, _ => false

/-- The transaction of an append: its reply, and the shard to commit if there is something to
commit. -/
def writeTxn (limits : Limits) (call : Call) (shard : Shard) : Result (Reply × Option Shard) :=
  match call.op with
  | .append name data contentType _ =>
      (appendTxn limits call.clock name data contentType shard).map fun (offset, shard) =>
        (.offset (.ok offset), some shard)
  | .batchAppend name messages contentType seq _ =>
      (batchAppendTxn limits call.clock name messages contentType seq shard).map
        fun (offset, shard) => (.offset (.ok offset), some shard)
  | .appendWithProducer name messages contentType producer shouldClose seq _ =>
      (appendWithProducerTxn limits call.clock name messages contentType producer shouldClose seq
        shard).map fun (result, shard) => (.producer (.ok result), shard)
  | _ => .error (.notFound call.op.name)

/-- Finish, after the bytes of a removed stream have been subtracted. -/
def Phase.release (removed : Nat) (reply : Reply) : Phase :=
  if 0 < removed then .owes removed reply else .done reply

/-- The first step of an operation. Appends reserve their bytes; every other operation begins a
transaction, which may fail. -/
def firstStep (fault : Option Error) (call : Call) (storage : AcidStorage config) :
    AcidStorage config × Phase :=
  if call.op.isAppend then
    if call.op.isBatch && !call.op.isProducerAppend && call.op.messages.isEmpty then
      (storage, .done (step call storage).1)
    else
      match reserveTotalBytes config.limits storage.totalBytes (batchBytes call.op.messages) with
      | .error error => (storage, .done (call.op.failure error))
      | .ok reserved =>
          ({ storage with totalBytes := reserved }, .reserved (batchBytes call.op.messages))
  else
    match fault with
    | some error => (storage, .done (call.op.failure error))
    | none =>
        match call.op with
        | .createStream name streamConfig =>
            match claimName call.clock name (storage.shard name) with
            | .occupied _ => (storage, .done (step call storage).1)
            | .vacant shard removed =>
                (storage.commit name
                    (shard.write name (.new call.clock.stamp streamConfig, shard.messages)),
                  .release removed (.created (.ok .created)))
        | .createStreamWithData name _ _ _ _ =>
            match claimName call.clock name (storage.shard name) with
            | .occupied _ => (storage, .done (step call storage).1)
            | .vacant shard removed => (storage, .claimed shard removed)
        | .delete name =>
            match (storage.shard name).streams.lookup name with
            | none => (storage, .done (step call storage).1)
            | some saved =>
                (storage.commit name ((storage.shard name).removeStream name),
                  .owes saved.totalBytes (.done (.ok ())))
        | .closeStream name =>
            match closeTxn call.clock name (storage.shard name) with
            | .error error => (storage, .done (.done (.error error)))
            | .ok shard => (storage.commit name shard, .done (.done (.ok ())))
        | _ => (storage, .done (step call storage).1)

/-- The end of the transaction of a create with data, after its bytes were reserved. -/
def createStep (call : Call) (shard : Shard) (removed bytes : Nat) (storage : AcidStorage config) :
    AcidStorage config × Phase :=
  match call.op with
  | .createStreamWithData name streamConfig messages shouldClose _ =>
      let saved := StoredStreamMeta.new call.clock.stamp streamConfig
      if 0 < bytes ∧ config.limits.maxStreamBytes.toNat < wrap64 (saved.totalBytes + bytes) then
        (storage, .owes bytes (.createdWithData (.error .streamSizeLimitExceeded)))
      else
        let (written, table) :=
          if 0 < bytes then insertMessages name messages saved shard.messages
          else (saved, shard.messages)
        let written := written.closeIf shouldClose
        (storage.commit name (shard.write name (written, table)),
          .release removed (.createdWithData (.ok ⟨.created, written.nextOffset, written.closed⟩)))
  | op => (storage, .owes bytes (op.failure (.notFound op.name)))

/-- The next step of an operation. -/
def Thread.step (fault : Option Error) (thread : Thread) (storage : AcidStorage config) :
    AcidStorage config × Phase :=
  let call := thread.call
  match thread.phase with
  | .start => firstStep fault call storage
  | .reserved bytes =>
      match fault with
      | some error => (storage, .owes bytes (call.op.failure error))
      | none =>
          match writeTxn config.limits call (storage.shard call.op.name) with
          | .error error => (storage, .owes bytes (call.op.failure error))
          | .ok (reply, none) => (storage, .owes bytes reply)
          | .ok (reply, some shard) => (storage.commit call.op.name shard, .done reply)
  | .claimed shard removed =>
      match fault with
      | some error => (storage, .done (call.op.failure error))
      | none =>
          let bytes := batchBytes call.op.messages
          match if 0 < bytes then reserveTotalBytes config.limits storage.totalBytes bytes
              else .ok storage.totalBytes with
          | .error error => (storage, .done (call.op.failure error))
          | .ok reserved => ({ storage with totalBytes := reserved }, .charged shard removed bytes)
  | .charged shard removed bytes =>
      match fault with
      | some error => (storage, .owes bytes (call.op.failure error))
      | none => createStep call shard removed bytes storage
  | .owes bytes reply => (storage.subTotalBytes bytes, .done reply)
  | .done reply => (storage, .done reply)

/-- The machine that interleaves operations. A write transaction waits for the one that is open on
its shard. -/
def machine (config : Config) : Machine (AcidStorage config) Thread Call (Option Error) where
  start := fun call => ⟨call, .start⟩
  next := fun fault system thread =>
    let index := some (shardIndex config thread.call.op.name)
    if thread.begins && system.threads.any fun other => other.holds config == index then none
    else
      let (storage, phase) := thread.step fault system.shared
      some (storage, ⟨thread.call, phase⟩)

/-! ## Stored bytes -/

section Bytes

variable {shard after : Shard} {name : String} {messages : List Bytes}

/-- The bytes of the streams of a shard. -/
def Shard.storedBytes (shard : Shard) : Nat :=
  FiniteMap.total StoredStreamMeta.totalBytes shard.streams

/-- The bytes of all committed streams. -/
def AcidStorage.storedBytes (storage : AcidStorage config) : Nat :=
  ∑ index, (storage.shards index).storedBytes

/-- A commit trades the bytes of one shard. -/
theorem stored_bytes_commit (storage : AcidStorage config) (name : String) (shard : Shard) :
    (storage.commit name shard).storedBytes + (storage.shard name).storedBytes =
      storage.storedBytes + shard.storedBytes := by
  have hrest : ∑ index ∈ Finset.univ.erase (shardIndex config name),
      ((storage.commit name shard).shards index).storedBytes =
        ∑ index ∈ Finset.univ.erase (shardIndex config name),
          (storage.shards index).storedBytes := by
    refine Finset.sum_congr rfl fun index hindex => ?_
    simp only [AcidStorage.commit]
    rw [Function.update_of_ne (Finset.ne_of_mem_erase hindex)]
  have hbefore := Finset.add_sum_erase Finset.univ
    (fun index => (storage.shards index).storedBytes) (Finset.mem_univ (shardIndex config name))
  have hafter := Finset.add_sum_erase Finset.univ
    (fun index => ((storage.commit name shard).shards index).storedBytes)
    (Finset.mem_univ (shardIndex config name))
  have hself : (storage.commit name shard).shards (shardIndex config name) = shard :=
    Function.update_self ..
  rw [hself, hrest] at hafter
  unfold AcidStorage.storedBytes AcidStorage.shard
  omega

/-- A shard has at most all bytes. -/
theorem shard_bytes_le (storage : AcidStorage config) (name : String) :
    (storage.shard name).storedBytes ≤ storage.storedBytes := by
  have hmem := Finset.mem_univ (shardIndex config name)
  exact Finset.single_le_sum (f := fun index => (storage.shards index).storedBytes)
    (fun _ _ => Nat.zero_le _) hmem

/-- Messages are counted without overflow if their bytes fit. -/
theorem insert_messages_bytes (name : String) {saved : StoredStreamMeta}
    (table : OrderedTable MessageKey Bytes)
    (h : saved.totalBytes + payloadBytes messages < 2 ^ 64) :
    (insertMessages name messages saved table).1.totalBytes =
      saved.totalBytes + payloadBytes messages := by
  unfold insertMessages
  induction messages generalizing saved table with
  | nil => rfl
  | cons data messages ih =>
      rw [payload_bytes_cons] at h ⊢
      have hadvance : (saved.advance data).totalBytes = saved.totalBytes + data.length := by
        simp only [StoredStreamMeta.advance]
        rw [byte_len_of_lt (by omega), wrap64_of_lt (by omega)]
      rw [List.foldl_cons]
      refine (ih _ (hadvance.symm ▸ by omega)).trans ?_
      rw [hadvance]
      omega

/-- Writing a batch adds its bytes. -/
theorem Written.storedBytes (h : Written name messages shard after)
    (hfits : shard.storedBytes + payloadBytes messages < 2 ^ 64) :
    after.storedBytes = shard.storedBytes + payloadBytes messages := by
  obtain ⟨saved, written, table, hlookup, ⟨hsame, -⟩, rfl⟩ := h
  have hbytes := hsame.totalBytes
  have hle := FiniteMap.measure_le_total StoredStreamMeta.totalBytes hlookup
  have hinsert := FiniteMap.total_insert StoredStreamMeta.totalBytes written hlookup
  unfold Shard.storedBytes at hfits ⊢
  rw [insert_messages_bytes name _ (by omega)] at hbytes
  simp only [Shard.write]
  omega

/-- Removing a stream takes its bytes away. -/
theorem remove_stream_bytes {saved : StoredStreamMeta}
    (hlookup : shard.streams.lookup name = some saved) :
    saved.totalBytes + (shard.removeStream name).storedBytes = shard.storedBytes :=
  FiniteMap.total_erase StoredStreamMeta.totalBytes hlookup

/-- A create takes away the bytes of an expired stream, and its name is free then. -/
theorem claim_bytes {clock : Clock} {removed : Nat}
    (h : claimName clock name shard = .vacant after removed) :
    removed + after.storedBytes = shard.storedBytes ∧ after.streams.lookup name = none := by
  unfold claimName at h
  cases hlookup : shard.streams.lookup name with
  | none =>
      simp only [hlookup] at h
      cases h
      exact ⟨Nat.zero_add _, hlookup⟩
  | some saved =>
      simp only [hlookup] at h
      split at h
      · cases h
        exact ⟨remove_stream_bytes hlookup, Finmap.lookup_erase ..⟩
      · cases h

/-- A new stream adds its bytes. -/
theorem write_new_bytes (saved : StoredStreamMeta) (table : OrderedTable MessageKey Bytes)
    (hlookup : shard.streams.lookup name = none) :
    (shard.write name (saved, table)).storedBytes = saved.totalBytes + shard.storedBytes :=
  FiniteMap.total_insert_new StoredStreamMeta.totalBytes saved hlookup

/-- A new stream has the bytes it was created with. -/
theorem created_bytes {bytes : Nat} (stamp : Timestamp) (streamConfig : StreamConfig)
    (shouldClose : Bool) (fits : payloadBytes messages < 2 ^ 64)
    (table : OrderedTable MessageKey Bytes) (hbytes : bytes = payloadBytes messages) :
    ((if 0 < bytes then insertMessages name messages (.new stamp streamConfig) table
      else (.new stamp streamConfig, table)).1.closeIf shouldClose).totalBytes = bytes := by
  have hclose : ∀ saved : StoredStreamMeta,
      (saved.closeIf shouldClose).totalBytes = saved.totalBytes := fun saved => by
    unfold StoredStreamMeta.closeIf
    split <;> rfl
  have hnew : (StoredStreamMeta.new stamp streamConfig).totalBytes = 0 := rfl
  rw [hclose]
  split
  · rw [insert_messages_bytes name table (by omega), hnew, hbytes, Nat.zero_add]
  · next hzero => exact (Nat.eq_zero_of_not_pos hzero).symm

/-- Closing a stream keeps its bytes. -/
theorem close_txn_bytes {clock : Clock} (h : closeTxn clock name shard = .ok after) :
    after.storedBytes = shard.storedBytes := by
  unfold closeTxn at h
  cases hlookup : shard.streams.lookup name with
  | none => simp [hlookup] at h
  | some saved =>
      simp only [hlookup] at h
      split at h
      · cases h
      · cases h
        exact FiniteMap.total_insert_same StoredStreamMeta.totalBytes hlookup rfl

end Bytes

/-- An append that commits has written its messages. -/
theorem write_txn_written {limits : Limits} {call : Call} {shard after : Shard} {reply : Reply}
    (h : writeTxn limits call shard = .ok (reply, some after)) :
    Written call.op.name call.op.messages shard after := by
  obtain ⟨clock, op⟩ := call
  cases op with
  | append name data contentType fits =>
      simp only [writeTxn] at h
      cases htxn : appendTxn limits clock name data contentType shard with
      | error error => simp [htxn, Except.map] at h
      | ok result =>
          simp only [htxn, Except.map] at h
          cases h
          exact (append_txn_written htxn).written
  | batchAppend name messages contentType seq fits =>
      simp only [writeTxn] at h
      cases htxn : batchAppendTxn limits clock name messages contentType seq shard with
      | error error => simp [htxn, Except.map] at h
      | ok result =>
          simp only [htxn, Except.map] at h
          cases h
          exact (batch_append_txn_written htxn).written
  | appendWithProducer name messages contentType producer shouldClose seq fits =>
      simp only [writeTxn] at h
      cases htxn : appendWithProducerTxn limits clock name messages contentType producer shouldClose
          seq shard with
      | error error => simp [htxn, Except.map] at h
      | ok result =>
          obtain ⟨result, written⟩ := result
          simp only [htxn, Except.map] at h
          cases h
          exact (producer_txn_written htxn).written
  | _ => cases h

/-! ## What a step does to the balance -/

/-- The bytes on the counter that an operation has to its account: reserved and not yet stored, or
still to be subtracted. -/
def Phase.owed : Phase → Nat
  | .reserved bytes | .charged _ _ bytes | .owes bytes _ => bytes
  | .start | .claimed .. | .done _ => 0

/-- Whether an operation is past its transaction. -/
def Phase.ended : Phase → Bool
  | .owes .. | .done _ => true
  | _ => false

/-- What an operation remembers is still so: the bytes it has reserved are those of its messages, and
what it found in its open transaction is what the shard holds. -/
def Thread.Sound (storage : AcidStorage config) (thread : Thread) : Prop :=
  let name := thread.call.op.name
  match thread.phase with
  | .reserved bytes => bytes = batchBytes thread.call.op.messages
  | .claimed shard removed =>
      claimName thread.call.clock name (storage.shard name) = .vacant shard removed
  | .charged shard removed bytes =>
      claimName thread.call.clock name (storage.shard name) = .vacant shard removed ∧
        bytes = batchBytes thread.call.op.messages
  | _ => True

/-- Whether an operation may write to the shard of its stream. -/
def Thread.Writes (config : Config) (thread : Thread) : Prop :=
  thread.begins = true ∨ thread.holds config ≠ none

/-- What one step of an operation may do. -/
structure Moves (thread : Thread) (storage after : AcidStorage config) (phase : Phase) : Prop where
  balance : after.totalBytes + storage.storedBytes + thread.phase.owed =
    storage.totalBytes + after.storedBytes + phase.owed
  limit : after.totalBytes ≤ config.limits.maxTotalBytes.toNat
  frame : after.shards = storage.shards ∨ thread.Writes config ∧
    ∀ index, index ≠ shardIndex config thread.call.op.name → after.shards index = storage.shards index
  sound : Thread.Sound after ⟨thread.call, phase⟩
  opens : Thread.holds config ⟨thread.call, phase⟩ ≠ none → thread.Writes config

section Moves

variable {thread : Thread} {storage : AcidStorage config} {phase : Phase} {fault : Option Error}

/-- An operation past its transaction remembers nothing. -/
theorem ended_sound {call : Call} (h : phase.ended = true) (storage : AcidStorage config) :
    Thread.Sound storage ⟨call, phase⟩ ∧ Thread.holds config ⟨call, phase⟩ = none := by
  cases phase with
  | owes | done => exact ⟨trivial, rfl⟩
  | start | reserved | claimed | charged => cases h

/-- A step that writes nothing and ends the transaction. -/
theorem Moves.finish (hlimit : storage.totalBytes ≤ config.limits.maxTotalBytes.toNat)
    (hended : phase.ended = true) (howed : thread.phase.owed = phase.owed) :
    Moves thread storage storage phase := by
  obtain ⟨hsound, hholds⟩ := ended_sound hended storage
  exact ⟨by omega, hlimit, .inl rfl, hsound, fun h => absurd hholds h⟩

/-- A step that commits a transaction. -/
theorem Moves.commit {shard : Shard} (hlimit : storage.totalBytes ≤ config.limits.maxTotalBytes.toNat)
    (hwrites : thread.Writes config) (hended : phase.ended = true)
    (hbytes : (storage.shard thread.call.op.name).storedBytes + thread.phase.owed =
      shard.storedBytes + phase.owed) :
    Moves thread storage (storage.commit thread.call.op.name shard) phase := by
  have hcommit := stored_bytes_commit storage thread.call.op.name shard
  have htotal : (storage.commit thread.call.op.name shard).totalBytes = storage.totalBytes := rfl
  obtain ⟨hsound, hholds⟩ := ended_sound hended (storage.commit thread.call.op.name shard)
  refine ⟨by omega, hlimit, .inr ⟨hwrites, fun index hindex => ?_⟩, hsound,
    fun h => absurd hholds h⟩
  exact Function.update_of_ne hindex ..

/-- A step that reserves bytes. -/
theorem Moves.reserve {reserved : Nat}
    (hlimit : storage.totalBytes ≤ config.limits.maxTotalBytes.toNat)
    (hreserved : reserved = storage.totalBytes + phase.owed ∧
      (phase.owed = 0 ∨ reserved ≤ config.limits.maxTotalBytes.toNat))
    (hbefore : thread.phase.owed = 0) (hsound : Thread.Sound storage ⟨thread.call, phase⟩)
    (hopens : Thread.holds config ⟨thread.call, phase⟩ ≠ none → thread.Writes config) :
    Moves thread storage { storage with totalBytes := reserved } phase := by
  have hstored : ({ storage with totalBytes := reserved } : AcidStorage config).storedBytes =
      storage.storedBytes := rfl
  obtain ⟨htotal, hroom⟩ := hreserved
  refine ⟨?_, ?_, .inl rfl, hsound, hopens⟩
  · simp only [hstored]
    omega
  · simp only
    omega

/-- The bytes a thread has to its account are accounted for. -/
def Covered (thread : Thread) (storage : AcidStorage config) : Prop :=
  storage.storedBytes + thread.phase.owed ≤ storage.totalBytes ∧
    storage.totalBytes ≤ config.limits.maxTotalBytes.toNat

/-- The last phases. -/
@[simp] theorem release_ended (removed : Nat) (reply : Reply) :
    (Phase.release removed reply).ended = true := by
  unfold Phase.release
  split <;> rfl

@[simp] theorem release_owed (removed : Nat) (reply : Reply) :
    (Phase.release removed reply).owed = removed := by
  unfold Phase.release
  split
  · rfl
  · next hzero => exact (Nat.eq_zero_of_not_pos hzero).symm

/-- The transaction of an append. -/
theorem reserved_moves {bytes : Nat} (hphase : thread.phase = .reserved bytes)
    (hcovered : Covered thread storage) (hsound : thread.Sound storage) :
    Moves thread storage (thread.step fault storage).1 (thread.step fault storage).2 := by
  obtain ⟨hstored, hlimit⟩ := hcovered
  have hmax := config.limits.maxTotalBytes.toNat_lt
  have hwrites : thread.Writes config := .inl (by simp [Thread.begins, hphase])
  have hbytes : bytes = payloadBytes thread.call.op.messages := by
    rw [← batch_bytes_eq thread.call.op.payload_lt]
    simpa [Thread.Sound, hphase] using hsound
  rw [hphase, Phase.owed] at hstored
  simp only [Thread.step, hphase]
  cases fault with
  | some error => exact .finish hlimit rfl (by rw [hphase]; rfl)
  | none =>
      dsimp only
      cases htxn : writeTxn config.limits thread.call (storage.shard thread.call.op.name) with
      | error error => exact .finish hlimit rfl (by rw [hphase]; rfl)
      | ok result =>
          obtain ⟨reply, _ | shard⟩ := result
          · exact .finish hlimit rfl (by rw [hphase]; rfl)
          · have hle := shard_bytes_le storage thread.call.op.name
            have hshard := (write_txn_written htxn).storedBytes (by omega)
            refine .commit hlimit hwrites rfl ?_
            rw [hshard, hphase, hbytes]
            rfl

/-- The reservation of a create with data. -/
theorem claimed_moves {shard : Shard} {removed : Nat} (hphase : thread.phase = .claimed shard removed)
    (hcovered : Covered thread storage) (hsound : thread.Sound storage) :
    Moves thread storage (thread.step fault storage).1 (thread.step fault storage).2 := by
  have hwrites : thread.Writes config := .inr (by simp [Thread.holds, hphase])
  simp only [Thread.Sound, hphase] at hsound
  simp only [Thread.step, hphase]
  cases fault with
  | some error => exact .finish hcovered.2 rfl (by rw [hphase]; rfl)
  | none =>
      dsimp only
      split
      · exact .finish hcovered.2 rfl (by rw [hphase]; rfl)
      · next reserved hreserve =>
          refine .reserve hcovered.2 ?_ (by rw [hphase]; rfl) ⟨hsound, rfl⟩ fun _ => hwrites
          split at hreserve
          · exact reserve_eq_add hreserve
          · next hzero =>
              cases hreserve
              have hnone := Nat.eq_zero_of_not_pos hzero
              exact ⟨by rw [Phase.owed, hnone, Nat.add_zero], .inl hnone⟩

/-- The commit of a create with data. -/
theorem charged_moves {shard : Shard} {removed bytes : Nat}
    (hphase : thread.phase = .charged shard removed bytes) (hcovered : Covered thread storage)
    (hsound : thread.Sound storage) :
    Moves thread storage (thread.step fault storage).1 (thread.step fault storage).2 := by
  obtain ⟨hstored, hlimit⟩ := hcovered
  have hmax := config.limits.maxTotalBytes.toNat_lt
  have hwrites : thread.Writes config := .inr (by simp [Thread.holds, hphase])
  simp only [Thread.Sound, hphase] at hsound
  obtain ⟨hclaim, hbytes⟩ := hsound
  rw [batch_bytes_eq thread.call.op.payload_lt] at hbytes
  obtain ⟨hremoved, hfree⟩ := claim_bytes hclaim
  rw [hphase, Phase.owed] at hstored
  have howes : ∀ reply, Moves thread storage storage (.owes bytes reply) := fun reply =>
    .finish hlimit rfl (by rw [hphase]; rfl)
  simp only [Thread.step, hphase]
  cases fault with
  | some error => exact howes _
  | none =>
      dsimp only
      obtain ⟨⟨clock, op⟩, _⟩ := thread
      cases op with
      | createStreamWithData name streamConfig messages shouldClose fits =>
          simp only [createStep]
          split
          · exact howes _
          · change shard.streams.lookup name = none at hfree
            refine .commit hlimit hwrites (release_ended ..) ?_
            rw [write_new_bytes _ _ hfree, created_bytes clock.stamp streamConfig shouldClose fits
              shard.messages hbytes, release_owed, hphase, Phase.owed, ← hremoved]
            omega
      | _ => exact howes _

/-- The first step of an operation. -/
theorem start_moves (hphase : thread.phase = .start) (hcovered : Covered thread storage) :
    Moves thread storage (thread.step fault storage).1 (thread.step fault storage).2 := by
  have hlimit := hcovered.2
  have hstop : ∀ reply, Moves thread storage storage (.done reply) := fun reply =>
    .finish hlimit rfl (by rw [hphase]; rfl)
  simp only [Thread.step, hphase, firstStep]
  split
  · split
    · exact hstop _
    · cases hreserve : reserveTotalBytes config.limits storage.totalBytes
          (batchBytes thread.call.op.messages) with
      | error error => exact hstop _
      | ok reserved =>
          exact .reserve hlimit (reserve_eq_add hreserve) (by rw [hphase]; rfl) rfl
            fun h => absurd rfl h
  · cases fault with
    | some error => exact hstop _
    | none =>
        obtain ⟨⟨clock, op⟩, _⟩ := thread
        subst hphase
        cases op with
        | createStream name streamConfig =>
            dsimp only
            cases hclaim : claimName clock name (storage.shard name) with
            | occupied saved => exact hstop _
            | vacant shard removed =>
                obtain ⟨hremoved, hfree⟩ := claim_bytes hclaim
                refine .commit hlimit (.inl rfl) (release_ended ..) ?_
                rw [write_new_bytes _ _ hfree, release_owed]
                change (storage.shard name).storedBytes + 0 = 0 + shard.storedBytes + removed
                omega
        | createStreamWithData name streamConfig messages shouldClose fits =>
            dsimp only
            cases hclaim : claimName clock name (storage.shard name) with
            | occupied saved => exact hstop _
            | vacant shard removed =>
                exact ⟨rfl, hlimit, .inl rfl, hclaim, fun _ => .inl rfl⟩
        | delete name =>
            dsimp only
            cases hlookup : (storage.shard name).streams.lookup name with
            | none => exact hstop _
            | some saved =>
                refine .commit hlimit (.inl rfl) rfl ?_
                change (storage.shard name).storedBytes + 0 =
                  ((storage.shard name).removeStream name).storedBytes + saved.totalBytes
                rw [← remove_stream_bytes hlookup]
                omega
        | closeStream name =>
            dsimp only
            cases htxn : closeTxn clock name (storage.shard name) with
            | error error => exact hstop _
            | ok shard =>
                refine .commit hlimit (.inl rfl) rfl ?_
                rw [close_txn_bytes htxn]
                rfl
        | _ => exact hstop _

/-- Every step of an operation. -/
theorem step_moves (fault : Option Error) (hcovered : Covered thread storage)
    (hsound : thread.Sound storage) :
    Moves thread storage (thread.step fault storage).1 (thread.step fault storage).2 := by
  cases hphase : thread.phase with
  | start => exact start_moves hphase hcovered
  | reserved bytes => exact reserved_moves hphase hcovered hsound
  | claimed shard removed => exact claimed_moves hphase hcovered hsound
  | charged shard removed bytes => exact charged_moves hphase hcovered hsound
  | owes bytes reply =>
      obtain ⟨hstored, hlimit⟩ := hcovered
      rw [hphase, Phase.owed] at hstored
      have hbytes : (storage.subTotalBytes bytes).storedBytes = storage.storedBytes := rfl
      have htotal : (storage.subTotalBytes bytes).totalBytes = storage.totalBytes - bytes := rfl
      simp only [Thread.step, hphase]
      refine ⟨?_, by omega, .inl rfl, trivial, fun h => absurd rfl h⟩
      rw [hbytes, htotal, hphase, Phase.owed, Phase.owed]
      omega
  | done reply =>
      simp only [Thread.step, hphase]
      exact .finish hcovered.2 rfl (by rw [hphase])

end Moves

/-! ## Any interleaving -/

/-- Two operations do not hold the same shard. -/
def Apart (config : Config) (one other : Thread) : Prop :=
  ∀ index, one.holds config = some index → other.holds config ≠ some index

/-- The invariant of every interleaving: the counter is the sum of the stored bytes and of those that
the operations in flight have to their account. -/
structure Balanced (system : System (AcidStorage config) Thread) : Prop where
  balance : system.shared.totalBytes =
    system.shared.storedBytes + (system.threads.map fun thread => thread.phase.owed).sum
  limit : system.shared.totalBytes ≤ config.limits.maxTotalBytes.toNat
  apart : system.threads.Pairwise (Apart config)
  sound : ∀ thread ∈ system.threads, thread.Sound system.shared

section Balanced

variable {thread : Thread} {storage after : AcidStorage config}
  {system : System (AcidStorage config) Thread}

/-- Operations are apart from each other if one is from all others and those are from each other. -/
theorem pairwise_apart_middle {front back : List Thread} :
    (front ++ thread :: back).Pairwise (Apart config) ↔
      (∀ other ∈ front ++ back, Apart config thread other) ∧
        (front ++ back).Pairwise (Apart config) := by
  have hsymm : ∀ {one other}, Apart config one other → Apart config other one :=
    fun h index hone hother => h index hother hone
  rw [List.perm_middle.pairwise_iff hsymm, List.pairwise_cons]

/-- An operation can only hold the shard of its stream. -/
theorem holds_eq (h : thread.holds config ≠ none) :
    thread.holds config = some (shardIndex config thread.call.op.name) := by
  unfold Thread.holds at h ⊢
  split
  · rfl
  · rfl
  · exact absurd (by simp_all) h

/-- An operation still remembers what is so if others leave the shard it holds alone. -/
theorem Thread.Sound.transfer (h : thread.Sound storage)
    (hshard : thread.holds config ≠ none →
      after.shard thread.call.op.name = storage.shard thread.call.op.name) :
    thread.Sound after := by
  unfold Thread.Sound Thread.holds at *
  cases hphase : thread.phase with
  | claimed shard removed =>
      simp only [hphase] at h hshard ⊢
      rwa [hshard (by simp)]
  | charged shard removed bytes =>
      simp only [hphase] at h hshard ⊢
      rwa [hshard (by simp)]
  | reserved bytes => simpa only [hphase] using h
  | start | owes | done => trivial

/-- A store without operations in flight is balanced if its counter is right. -/
theorem Balanced.init (htotal : storage.totalBytes = storage.storedBytes)
    (hlimit : storage.storedBytes ≤ config.limits.maxTotalBytes.toNat) :
    Balanced ⟨storage, []⟩ :=
  ⟨htotal, htotal.trans_le hlimit, .nil, by simp⟩

/-- Starting an operation changes nothing. -/
theorem Balanced.spawn (call : Call) (h : Balanced system) :
    Balanced ⟨system.shared, system.threads ++ [⟨call, .start⟩]⟩ := by
  refine ⟨?_, h.limit, ?_, fun thread hmem => ?_⟩
  · simpa [Phase.owed] using h.balance
  · refine List.pairwise_append.mpr ⟨h.apart, List.pairwise_singleton _ _, ?_⟩
    intro one _ other hother index _ hindex
    rw [List.mem_singleton.mp hother] at hindex
    cases hindex
  · rcases List.mem_append.mp hmem with hmem | hmem
    · exact h.sound thread hmem
    · rw [List.mem_singleton.mp hmem]
      trivial

/-- An operation that may write, and is not blocked, has the shard to itself. -/
theorem writes_alone {fault : Option Error} {front back : List Thread} {stepped : Thread}
    (h : Balanced system) (hthreads : system.threads = front ++ thread :: back)
    (hnext : (machine config).next fault system thread = some (after, stepped))
    (hwrites : thread.Writes config) :
    ∀ other ∈ front ++ back,
      other.holds config ≠ some (shardIndex config thread.call.op.name) := by
  intro other hother hholds
  rcases hwrites with hbegins | hheld
  · have hmem : other ∈ system.threads := by
      rw [hthreads, List.perm_middle.mem_iff]
      exact List.mem_cons_of_mem _ hother
    have hblocked : system.threads.any (fun other =>
        other.holds config == some (shardIndex config thread.call.op.name)) = true :=
      List.any_eq_true.mpr ⟨other, hmem, beq_iff_eq.mpr hholds⟩
    simp only [machine, hbegins, hblocked, Bool.and_self, ↓reduceIte] at hnext
    cases hnext
  · have hpairs := hthreads ▸ h.apart
    exact (pairwise_apart_middle.mp hpairs).1 other hother _ (holds_eq hheld) hholds

/-- A step of an operation keeps the balance. -/
theorem Balanced.next {fault : Option Error} {front back : List Thread} {stepped : Thread}
    (h : Balanced system) (hthreads : system.threads = front ++ thread :: back)
    (hnext : (machine config).next fault system thread = some (after, stepped)) :
    Balanced ⟨after, front ++ stepped :: back⟩ := by
  have halone := writes_alone h hthreads hnext
  have hbalance := h.balance
  rw [hthreads] at hbalance
  simp only [List.map_append, List.map_cons, List.sum_append, List.sum_cons] at hbalance
  have hmem : thread ∈ system.threads := by simp [hthreads]
  have hmoves : Moves thread system.shared after stepped.phase ∧ stepped.call = thread.call := by
    have hstep := step_moves fault ⟨by omega, h.limit⟩ (h.sound thread hmem)
    simp only [machine] at hnext
    split at hnext
    · cases hnext
    · cases hnext
      exact ⟨hstep, rfl⟩
  obtain ⟨call, phase⟩ := stepped
  obtain ⟨hmoves, rfl⟩ := hmoves
  have hpairs := hthreads ▸ h.apart
  refine ⟨?_, hmoves.limit, ?_, fun other hother => ?_⟩
  · have hmoved := hmoves.balance
    simp only [List.map_append, List.map_cons, List.sum_append, List.sum_cons]
    dsimp only at hmoved
    omega
  · refine pairwise_apart_middle.mpr ⟨fun other hother index hheld hholds => ?_,
      (pairwise_apart_middle.mp hpairs).2⟩
    have hopen : Thread.holds config ⟨thread.call, phase⟩ ≠ none := by simp [hheld]
    obtain rfl := Option.some.inj ((holds_eq hopen).symm.trans hheld)
    exact halone (hmoves.opens hopen) other hother hholds
  · rcases List.mem_cons.mp (List.perm_middle.mem_iff.mp hother) with rfl | hother
    · exact hmoves.sound
    · have hsound : other.Sound system.shared := by
        refine h.sound other ?_
        rw [hthreads, List.perm_middle.mem_iff]
        exact List.mem_cons_of_mem _ hother
      refine hsound.transfer fun hheld => ?_
      rcases hmoves.frame with hshards | ⟨hwrites, hothers⟩
      · rw [AcidStorage.shard, hshards]
        rfl
      · refine hothers _ fun heq => halone hwrites other hother ?_
        rw [holds_eq hheld, heq]

/-- Every action keeps the balance. -/
theorem Balanced.act (action : Action Call (Option Error)) (h : Balanced system) :
    Balanced ((machine config).act system action) := by
  obtain hact | ⟨call, hact⟩ | ⟨front, thread, back, fault, after, stepped, hthreads, hnext, hact⟩ :=
    Machine.act_cases action system <;> rw [hact]
  · exact h
  · exact h.spawn call
  · exact h.next hthreads hnext

end Balanced

/-! ## The steps of one operation -/

section Alone

variable (call : Call) (storage : AcidStorage config)

/-- The next step of an operation that nothing comes between and no fault hits. -/
def advance (state : AcidStorage config × Phase) : AcidStorage config × Phase :=
  Thread.step none ⟨call, state.2⟩ state.1

/-- An operation that is alone is never blocked. -/
theorem execute_alone (count : Nat) (phase : Phase) :
    (machine config).execute (List.replicate count (.run 0 none)) ⟨storage, [⟨call, phase⟩]⟩ =
      ⟨((advance call)^[count] (storage, phase)).1,
        [⟨call, ((advance call)^[count] (storage, phase)).2⟩]⟩ := by
  induction count generalizing storage phase with
  | zero => rfl
  | succ count ih =>
      have hact : (machine config).act ⟨storage, [⟨call, phase⟩]⟩ (.run 0 none) =
          ⟨(advance call (storage, phase)).1, [⟨call, (advance call (storage, phase)).2⟩]⟩ := by
        have hfree : (Thread.begins ⟨call, phase⟩ &&
            ([⟨call, phase⟩] : List Thread).any fun other =>
              other.holds config == some (shardIndex config call.op.name)) = false := by
          cases phase <;> simp [Thread.begins, Thread.holds]
        simp only [Machine.act, machine, List.getElem?_cons_zero, hfree]
        rfl
      rw [List.replicate_succ, Machine.execute, List.foldl_cons, hact, Function.iterate_succ_apply]
      exact ih ..

/-- An operation that nothing comes between ends with a reply, a counter and shards. -/
def Finishes (state : AcidStorage config × Phase) (reply : Reply) (after : AcidStorage config) :
    Prop :=
  ∃ count result, (advance call)^[count] state = (result, .done reply) ∧
    result.shards = after.shards ∧ result.totalBytes = after.totalBytes

variable {call storage} {reply : Reply} {after : AcidStorage config}

theorem Finishes.done (hshards : storage.shards = after.shards)
    (htotal : storage.totalBytes = after.totalBytes) :
    Finishes call (storage, .done reply) reply after :=
  ⟨0, storage, rfl, hshards, htotal⟩

theorem Finishes.step {state : AcidStorage config × Phase}
    (h : Finishes call (advance call state) reply after) : Finishes call state reply after := by
  obtain ⟨count, result, hcount, hsame⟩ := h
  exact ⟨count + 1, result, hcount, hsame⟩

theorem Finishes.owes {bytes : Nat} (hshards : storage.shards = after.shards)
    (htotal : storage.totalBytes - bytes = after.totalBytes) :
    Finishes call (storage, .owes bytes reply) reply after :=
  .step (.done hshards htotal)

theorem Finishes.release {removed : Nat} (hshards : storage.shards = after.shards)
    (htotal : storage.totalBytes - removed = after.totalBytes) :
    Finishes call (storage, .release removed reply) reply after := by
  unfold Phase.release
  split
  · exact .owes hshards htotal
  · next hzero => exact .done hshards (by omega)

/-- An append that has reserved its bytes in vain. -/
theorem Finishes.vain {bytes : Nat} {txn : Result (Reply × Option Shard)}
    (htxn : writeTxn config.limits call (storage.shard call.op.name) = txn)
    (hreply : txn = .ok (reply, none) ∨ ∃ error, txn = .error error ∧ reply = call.op.failure error)
    (hshards : storage.shards = after.shards)
    (htotal : storage.totalBytes - bytes = after.totalBytes) :
    Finishes call (storage, .reserved bytes) reply after := by
  refine .step ?_
  simp only [advance, Thread.step, htxn]
  rcases hreply with rfl | ⟨error, rfl, rfl⟩ <;> exact .owes hshards htotal

/-- An append that has reserved its bytes and commits. -/
theorem Finishes.commits {bytes : Nat} {shard : Shard}
    (htxn : writeTxn config.limits call (storage.shard call.op.name) = .ok (reply, some shard))
    (hshards : (storage.commit call.op.name shard).shards = after.shards)
    (htotal : storage.totalBytes = after.totalBytes) :
    Finishes call (storage, .reserved bytes) reply after := by
  refine .step ?_
  simp only [advance, Thread.step, htxn]
  exact .done hshards htotal

variable (call storage) in
/-- The steps of an operation that nothing comes between do what the operation does. -/
theorem finishes_step :
    Finishes call (storage, .start) (Acid.step call storage).1 (Acid.step call storage).2 := by
  obtain ⟨clock, op⟩ := call
  refine .step ?_
  cases op with
  | append name data contentType fits =>
      simp only [advance, Thread.step, firstStep, Acid.step, append, Op.isAppend, Op.isBatch,
        Op.messages, Memory.batch_bytes_singleton, Bool.false_and, Bool.false_eq_true, ↓reduceIte]
      cases hreserve : reserveTotalBytes config.limits storage.totalBytes (byteLen data) with
      | error error => exact .done rfl rfl
      | ok reserved =>
          dsimp only
          cases htxn : appendTxn config.limits clock name data contentType
              (AcidStorage.shard { storage with totalBytes := reserved } name) with
          | error error =>
              exact .vain (by simp only [writeTxn, Op.name, htxn]; rfl) (.inr ⟨error, rfl, rfl⟩) rfl rfl
          | ok result =>
              obtain ⟨hshards, htotal⟩ := notify_stream_shards
                (AcidStorage.commit { storage with totalBytes := reserved } name result.2) name
              exact .commits (by simp only [writeTxn, Op.name, htxn]; rfl) hshards.symm htotal.symm
  | batchAppend name messages contentType seq fits =>
      simp only [advance, Thread.step, firstStep, Acid.step, batchAppend, Op.isAppend, Op.isBatch,
        Op.messages, Op.isProducerAppend, Bool.not_false, Bool.true_and, ↓reduceIte]
      split
      · exact .done rfl rfl
      · cases hreserve : reserveTotalBytes config.limits storage.totalBytes
            (batchBytes messages) with
        | error error => exact .done rfl rfl
        | ok reserved =>
            dsimp only
            cases htxn : batchAppendTxn config.limits clock name messages contentType seq
                (AcidStorage.shard { storage with totalBytes := reserved } name) with
            | error error =>
                exact .vain (by simp only [writeTxn, Op.name, htxn]; rfl) (.inr ⟨error, rfl, rfl⟩)
                  rfl rfl
            | ok result =>
                obtain ⟨hshards, htotal⟩ := notify_stream_shards
                  (AcidStorage.commit { storage with totalBytes := reserved } name result.2) name
                exact .commits (by simp only [writeTxn, Op.name, htxn]; rfl) hshards.symm htotal.symm
  | appendWithProducer name messages contentType producer shouldClose seq fits =>
      simp only [advance, Thread.step, firstStep, Acid.step, appendWithProducer, Op.isAppend,
        Op.isBatch, Op.messages, Op.isProducerAppend, Bool.not_true, Bool.and_false, Bool.false_and,
        Bool.false_eq_true, ↓reduceIte]
      cases hreserve : reserveTotalBytes config.limits storage.totalBytes (batchBytes messages) with
      | error error => exact .done rfl rfl
      | ok reserved =>
          dsimp only
          cases htxn : appendWithProducerTxn config.limits clock name messages contentType producer
              shouldClose seq (AcidStorage.shard { storage with totalBytes := reserved } name) with
          | error error =>
              exact .vain (by simp only [writeTxn, Op.name, htxn]; rfl) (.inr ⟨error, rfl, rfl⟩) rfl rfl
          | ok result =>
              obtain ⟨result, _ | shard⟩ := result
              · obtain ⟨hshards, htotal⟩ := notified_shards (!messages.isEmpty || shouldClose)
                  (AcidStorage.subTotalBytes { storage with totalBytes := reserved }
                    (batchBytes messages)) name
                exact .vain (by simp only [writeTxn, Op.name, htxn]; rfl) (.inl rfl) hshards.symm
                  htotal.symm
              · obtain ⟨hshards, htotal⟩ := notified_shards (!messages.isEmpty || shouldClose)
                  (AcidStorage.commit { storage with totalBytes := reserved } name shard) name
                exact .commits (by simp only [writeTxn, Op.name, htxn]; rfl) hshards.symm htotal.symm
  | createStream name streamConfig =>
      simp only [advance, Thread.step, firstStep, Acid.step, createStream, Op.isAppend,
        Bool.false_eq_true, ↓reduceIte]
      cases hclaim : claimName clock name (storage.shard name) with
      | occupied saved =>
          dsimp only
          split <;> exact .done rfl rfl
      | vacant shard removed =>
          obtain ⟨hshards, htotal⟩ := release_expired_shards (storage.commit name
            (shard.write name (.new clock.stamp streamConfig, shard.messages))) name removed
          exact .release hshards.symm htotal.symm
  | createStreamWithData name streamConfig messages shouldClose fits =>
      simp only [advance, Thread.step, firstStep, Acid.step, createStreamWithData, Op.isAppend,
        Bool.false_eq_true, ↓reduceIte]
      cases hclaim : claimName clock name (storage.shard name) with
      | occupied saved =>
          obtain ⟨hshards, htotal⟩ := notified_shards (shouldClose || !messages.isEmpty) storage name
          dsimp only
          split
          · exact .done hshards.symm htotal.symm
          · exact .done rfl rfl
      | vacant shard removed =>
          have hmessages : (Op.createStreamWithData name streamConfig messages shouldClose
              fits).messages = messages := rfl
          refine .step ?_
          simp only [advance, Thread.step]
          rw [hmessages]
          generalize (if 0 < batchBytes messages then
            reserveTotalBytes config.limits storage.totalBytes (batchBytes messages)
            else .ok storage.totalBytes) = reservation
          cases reservation with
          | error error => exact .done rfl rfl
          | ok reserved =>
              refine .step ?_
              simp only [advance, Thread.step, createStep]
              split
              · exact .owes rfl rfl
              · obtain ⟨hshards, htotal⟩ := release_expired_shards
                  (AcidStorage.commit { storage with totalBytes := reserved } name
                    (shard.write name _)) name removed
                obtain ⟨hsent, hcounted⟩ := notified_shards (shouldClose || !messages.isEmpty)
                  (releaseExpired _ name removed) name
                exact .release (hsent.trans hshards).symm (hcounted.trans htotal).symm
  | delete name =>
      simp only [advance, Thread.step, firstStep, Acid.step, delete, Op.isAppend,
        Bool.false_eq_true, ↓reduceIte]
      cases hlookup : (storage.shard name).streams.lookup name with
      | none => exact .done rfl rfl
      | some saved => exact .owes rfl rfl
  | closeStream name =>
      simp only [advance, Thread.step, firstStep, Acid.step, closeStream, Op.isAppend,
        Bool.false_eq_true, ↓reduceIte]
      cases htxn : closeTxn clock name (storage.shard name) with
      | error error => exact .done rfl rfl
      | ok shard =>
          obtain ⟨hshards, htotal⟩ := notify_stream_shards (storage.commit name shard) name
          exact .done hshards.symm htotal.symm
  | read | head | «exists» => exact .done rfl rfl
  | subscribe name =>
      simp only [advance, Thread.step, firstStep, Acid.step, subscribe, Op.isAppend,
        Bool.false_eq_true, ↓reduceIte]
      split
      · exact .done rfl rfl
      · split
        · exact .done rfl rfl
        · split <;> exact .done rfl rfl

variable (call storage) in
/-- An operation that nothing comes between and no fault hits gives the reply, the shards and the
counter of the sequential storage. -/
theorem execute_eq_step :
    ∃ count result, (machine config).execute (.spawn call :: List.replicate count (.run 0 none))
        ⟨storage, []⟩ = ⟨result, [⟨call, .done (Acid.step call storage).1⟩]⟩ ∧
      result.shards = (Acid.step call storage).2.shards ∧
      result.totalBytes = (Acid.step call storage).2.totalBytes := by
  obtain ⟨count, result, hcount, hsame⟩ := finishes_step call storage
  refine ⟨count, result, ?_, hsame⟩
  refine (execute_alone call storage count .start).trans ?_
  rw [hcount]

end Alone

/-! ## From opening the databases on -/

section Reopened

variable {storage : AcidStorage config} {now : String → Timestamp}

/-- What a shard keeps when it is opened again are the bytes of its live streams. -/
theorem rebuild_shard_stored (shard : Shard) :
    (rebuildShard now shard).2.storedBytes = shard.liveBytes now := by
  have hlookup (name : String) : (rebuildShard now shard).2.streams.lookup name =
      if shard.expired now name then none else shard.streams.lookup name := by
    refine (foldl_remove_streams _ _ _).trans ?_
    rw [if_congr mem_filter_expired rfl rfl]
  have hkeys (name : String) (hsome : ((rebuildShard now shard).2.streams.lookup name).isSome) :
      name ∈ shard.names := by
    rw [hlookup] at hsome
    split at hsome
    · cases hsome
    · exact mem_names.mpr hsome
  rw [Shard.storedBytes, FiniteMap.total_eq_sum _ (Finset.sort_nodup _ _) hkeys]
  refine congrArg List.sum (List.map_congr_left fun name _ => ?_)
  rw [hlookup, Shard.streamBytes]
  split
  · rfl
  · cases shard.streams.lookup name <;> rfl

/-- The counter starts as the number of stored bytes, if they fit. -/
theorem reopen_total_bytes (h : (storage.reopen now).storedBytes < 2 ^ 64) :
    (storage.reopen now).totalBytes = (storage.reopen now).storedBytes := by
  have hstored : (storage.reopen now).storedBytes =
      ((List.finRange config.shardCount).map fun index =>
        (storage.shards index).liveBytes now).sum := by
    rw [AcidStorage.storedBytes, Fin.sum_univ_def]
    exact congrArg List.sum (List.map_congr_left fun index _ => rebuild_shard_stored _)
  rw [hstored] at h ⊢
  exact reopen_live_bytes h

/-- Opening databases in which no stream has expired removes nothing. -/
theorem reopen_stored_bytes
    (h : ∀ index name, (storage.shards index).expired now name = false) :
    (storage.reopen now).storedBytes = storage.storedBytes := by
  refine Finset.sum_congr rfl fun index _ => ?_
  have hnone : (storage.shards index).names.filter ((storage.shards index).expired now) = [] :=
    List.filter_eq_nil_iff.mpr fun name _ => by simp [h index name]
  simp only [AcidStorage.reopen, rebuildShard, hnone, List.foldl_nil]

/-- Whether an operation has not begun or is finished. -/
def Phase.idle : Phase → Bool
  | .start | .done _ => true
  | _ => false

/-- Along any interleaving, with any faults, from opening databases that fit in the limit: the counter
is never less than the stored bytes nor more than the limit, and no subtraction saturates. When no
operation is in flight the counter is the number of stored bytes, which is also what opening the
databases again would make it if no stream has expired. -/
theorem counter_covers_stored (disk : AcidStorage config) (now : String → Timestamp)
    (hfits : (disk.reopen now).storedBytes ≤ config.limits.maxTotalBytes.toNat)
    (actions : List (Action Call (Option Error))) :
    let system := (machine config).execute actions ⟨disk.reopen now, []⟩
    let storage := system.shared
    (storage.storedBytes ≤ storage.totalBytes ∧
      storage.totalBytes ≤ config.limits.maxTotalBytes.toNat) ∧
    (∀ thread ∈ system.threads, ∀ bytes reply, thread.phase = .owes bytes reply →
      bytes ≤ storage.totalBytes) ∧
    ((∀ thread ∈ system.threads, thread.phase.idle = true) →
      storage.totalBytes = storage.storedBytes ∧
      ∀ later, (∀ index name, (storage.shards index).expired later name = false) →
        (storage.reopen later).totalBytes = storage.totalBytes) := by
  intro system storage
  have hmax := config.limits.maxTotalBytes.toNat_lt
  have hbalanced : Balanced system :=
    Machine.execute_invariant (fun _ action h => h.act action) actions
      (.init (reopen_total_bytes (by omega)) hfits)
  have hbalance : storage.totalBytes =
    storage.storedBytes + (system.threads.map fun thread => thread.phase.owed).sum := hbalanced.balance
  have hlimit : storage.totalBytes ≤ config.limits.maxTotalBytes.toNat := hbalanced.limit
  refine ⟨⟨by omega, hlimit⟩, fun thread hmem bytes reply hphase => ?_, fun hidle => ?_⟩
  · have howed : thread.phase.owed ≤ (system.threads.map fun thread => thread.phase.owed).sum :=
      List.single_le_sum (by simp) _ (List.mem_map_of_mem hmem)
    rw [hphase, Phase.owed] at howed
    omega
  · have hzero : (system.threads.map fun thread => thread.phase.owed).sum = 0 := by
      refine List.sum_eq_zero fun owed hmem => ?_
      obtain ⟨thread, hthread, rfl⟩ := List.mem_map.mp hmem
      have hphase := hidle thread hthread
      cases heq : thread.phase with
      | start | done => rfl
      | claimed => rfl
      | reserved | charged | owes => simp [heq, Phase.idle] at hphase
    have hexact : storage.totalBytes = storage.storedBytes := by omega
    refine ⟨hexact, fun later hlive => ?_⟩
    have hstored := reopen_stored_bytes hlive
    rw [reopen_total_bytes (by omega), hstored, hexact]

/-- A create with data, an append that has to wait for it, and a delete that comes before the append:
both owe bytes in the end. -/
def contendedRun : List (Action Call (Option Error)) :=
  [.spawn ⟨.at 0, .createStreamWithData "a" .plain [[1, 2, 3]] false (Size.fits .three)⟩,
    .run 0 none, .spawn ⟨.at 1, .append "a" [4, 5] "text/plain" (by decide)⟩, .run 1 none, .run 1 none,
    .run 0 none, .run 0 none, .spawn ⟨.at 2, .delete "a"⟩, .run 2 none, .run 1 none]

theorem counter_covers_stored_contended :
    let storage := ((machine crowded).execute contendedRun
      ⟨(AcidStorage.new crowded).reopen fun _ => 0, []⟩).shared
    (storage.totalBytes, storage.storedBytes) = (5, 0) ∧ storage.storedBytes ≤ storage.totalBytes :=
  ⟨by decide +kernel,
    (counter_covers_stored (.new crowded) (fun _ => 0) (by decide +kernel) contendedRun).1.1⟩

end Reopened

end DurableStreams.Acid
