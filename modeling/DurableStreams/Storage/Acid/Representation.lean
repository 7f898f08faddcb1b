import DurableStreams.Storage.Acid.Transactions

/-!
# The representation of streams in shards

`Represents` says that the shards of the transactional storage hold the streams of an in-memory
storage: the metadata of every stream in the table of its shard, its messages in the rows with its
name, and nothing else anywhere. `Represents.step` follows one call: it either leaves the represented
streams as they are or does to them what the in-memory storage does.
-/

namespace DurableStreams.Acid

open Lib

variable {config : Config}

/-- The rows that hold the messages of a stream, if there is one. -/
def optionalRows (name : String) (stream : Option Memory.StreamEntry) : List (MessageKey × Bytes) :=
  stream.elim [] (rows name)

/-- The shards hold the streams of an in-memory storage that satisfies its invariant. Every stream
has fewer than `2 ^ 64` messages, so that no key is used twice. -/
structure Represents (storage : AcidStorage config) (memory : Memory.InMemoryStorage) : Prop where
  streams : ∀ name, (storage.shard name).streams.lookup name =
    (memory.streams.lookup name).map .ofEntry
  rows : ∀ name, (storage.shard name).messages.part (ofName name) =
    optionalRows name (memory.streams.lookup name)
  placed : ∀ index name, ((storage.shards index).streams.lookup name).isSome →
    index = shardIndex config name
  rowsPlaced : ∀ index, ∀ entry ∈ (storage.shards index).messages.entries,
    ∃ name, index = shardIndex config name ∧ ofName name entry.1 = true
  total : storage.totalBytes = memory.totalBytes
  invariant : Memory.Invariant config.limits memory
  counts : ∀ {name stream}, memory.streams.lookup name = some stream →
    stream.messages.length < 2 ^ 64

/-- The number of messages a stream has received. -/
def messageCount (storage : AcidStorage config) (name : String) : Nat :=
  ((storage.shard name).streams.lookup name).elim 0 StoredStreamMeta.nextReadSeq

/-- A call after which its stream still has fewer than `2 ^ 64` messages. A create starts from
none. -/
def Countable (call : Call) (storage : AcidStorage config) : Prop :=
  (if call.op.config.isSome then 0 else messageCount storage call.op.name) +
    call.op.messages.length < 2 ^ 64

/-- Whether it is such a call can be computed. -/
instance instDecidableCountable (call : Call) (storage : AcidStorage config) :
    Decidable (Countable call storage) := inferInstanceAs (Decidable (_ < _))

namespace Represents

variable {storage : AcidStorage config} {memory : Memory.InMemoryStorage} {name : String}
  {stream : Memory.StreamEntry}

/-- New databases hold no streams. -/
theorem new (config : Config) : Represents (.new config) .new where
  streams := fun _ => rfl
  rows := fun _ => rfl
  placed := by simp [AcidStorage.new]
  rowsPlaced := by simp [AcidStorage.new, OrderedTable.empty]
  total := rfl
  invariant := .new config.limits
  counts := by simp [Memory.InMemoryStorage.new]

/-- A stream of the memory is held under its name. -/
theorem holds (h : Represents storage memory) (hlookup : memory.streams.lookup name = some stream) :
    HoldsStream storage name stream where
  saved := by rw [h.streams, hlookup, Option.map_some]
  rows := by rw [h.rows, hlookup, optionalRows, Option.elim_some]
  wellFormed := h.invariant.wellFormed hlookup
  limit := h.invariant.streamLimit hlookup
  bounded := h.total ▸ h.invariant.stream_le_total hlookup

/-- The counter is within its limit. -/
theorem total_le (h : Represents storage memory) :
    storage.totalBytes ≤ config.limits.maxTotalBytes.toNat :=
  h.total ▸ h.invariant.globalLimit

/-- The count of a stream is the length of its log. -/
theorem count_eq (h : Represents storage memory)
    (hlookup : memory.streams.lookup name = some stream) :
    messageCount storage name = stream.messages.length := by
  have hseq := (h.invariant.wellFormed hlookup).nextReadSeq
  rw [wrap64_of_lt (h.counts hlookup)] at hseq
  rw [messageCount, h.streams, hlookup]
  exact hseq

/-- A transaction on the shard of a stream that changes only this stream. -/
theorem update {storage' : AcidStorage config} {memory' : Memory.InMemoryStorage} {shard : Shard}
    (h : Represents storage memory)
    (hshards : storage'.shards = (storage.commit name shard).shards)
    (hstreams : ∀ other, shard.streams.lookup other =
      if other = name then (memory'.streams.lookup name).map .ofEntry
      else (storage.shard name).streams.lookup other)
    (hothers : ∀ other, other ≠ name → memory'.streams.lookup other = memory.streams.lookup other)
    (htouches : OnlyTouches name (storage.shard name).messages shard.messages)
    (hrows : shard.messages.part (ofName name) = optionalRows name (memory'.streams.lookup name))
    (htotal : storage'.totalBytes = memory'.totalBytes)
    (hinvariant : Memory.Invariant config.limits memory')
    (hcounts : ∀ {stream}, memory'.streams.lookup name = some stream →
      stream.messages.length < 2 ^ 64) : Represents storage' memory' := by
  have hshard (index : Fin config.shardCount) : storage'.shards index =
      if index = shardIndex config name then shard else storage.shards index := by
    rw [hshards]
    exact Function.update_apply ..
  have hother (other : String) : storage'.shard other =
      if shardIndex config other = shardIndex config name then shard else storage.shard other :=
    hshard _
  have hsame {other : String} (hindex : shardIndex config other = shardIndex config name) :
      storage.shard name = storage.shard other := congrArg storage.shards hindex.symm
  refine ⟨fun other => ?_, fun other => ?_, fun index other hsome => ?_,
    fun index entry hentry => ?_, htotal, hinvariant, fun {other stream} hlookup => ?_⟩
  · rw [hother]
    split
    · next hindex =>
        rw [hstreams]
        split
        · next heq => rw [heq]
        · next hne => rw [hsame hindex, h.streams, hothers other hne]
    · next hindex =>
        rw [h.streams, hothers other fun heq => hindex (by rw [heq])]
  · rw [hother]
    split
    · next hindex =>
        by_cases hname : other = name
        · rw [hname, hrows]
        · rw [htouches.others other hname, hsame hindex, h.rows, hothers other hname]
    · next hindex =>
        rw [h.rows, hothers other fun heq => hindex (by rw [heq])]
  · rw [hshard] at hsome
    split at hsome
    · next hindex =>
        rw [hstreams] at hsome
        split at hsome
        · next heq => rw [hindex, heq]
        · rw [hindex]
          exact h.placed (shardIndex config name) other hsome
    · exact h.placed index other hsome
  · rw [hshard] at hentry
    split at hentry
    · next hindex =>
        rcases htouches.origin entry hentry with hold | hnew
        · rw [hindex]
          exact h.rowsPlaced (shardIndex config name) entry hold
        · exact ⟨name, hindex, hnew⟩
    · exact h.rowsPlaced index entry hentry
  · by_cases hname : other = name
    · exact hcounts (hname ▸ hlookup)
    · rw [hothers other hname] at hlookup
      exact h.counts hlookup

/-- Nothing but notifications. -/
theorem unchanged {storage' : AcidStorage config} (h : Represents storage memory)
    (hshards : storage'.shards = storage.shards) (htotal : storage'.totalBytes = storage.totalBytes) :
    Represents storage' memory := by
  obtain ⟨shards, total, notifiers⟩ := storage
  obtain ⟨shards', total', notifiers'⟩ := storage'
  obtain rfl : shards' = shards := hshards
  obtain rfl : total' = total := htotal
  exact ⟨h.streams, h.rows, h.placed, h.rowsPlaced, h.total, h.invariant, h.counts⟩

/-- Writing a stream. -/
theorem write {storage' : AcidStorage config} {after : Memory.StreamEntry} {total : Nat}
    (h : Represents storage memory) (hwrites : Writes storage name after storage'.shards)
    (htotal : storage'.totalBytes = total)
    (hinvariant : Memory.Invariant config.limits ⟨memory.streams.insert name after, total⟩)
    (hcount : after.messages.length < 2 ^ 64) :
    Represents storage' ⟨memory.streams.insert name after, total⟩ := by
  obtain ⟨table, hshards, htouches, hrows⟩ := hwrites
  refine h.update hshards (fun other => ?_) (fun other hother => ?_) htouches ?_ htotal hinvariant
    fun {stream} hlookup => ?_
  · rw [Finmap.lookup_insert]
    exact FiniteMap.lookup_insert_ite _ _ _ _
  · exact Finmap.lookup_insert_of_ne _ hother
  · rw [Finmap.lookup_insert]
    exact hrows
  · rw [Finmap.lookup_insert] at hlookup
    exact Option.some.inj hlookup ▸ hcount

/-- Removing a stream. -/
theorem remove {storage' : AcidStorage config} (h : Represents storage memory)
    (hlookup : memory.streams.lookup name = some stream)
    (hshards : storage'.shards =
      (storage.commit name ((storage.shard name).removeStream name)).shards)
    (htotal : storage'.totalBytes = storage.totalBytes - stream.totalBytes) :
    Represents storage' (Memory.removeStream memory name stream) := by
  have hholds := h.holds hlookup
  have hbytes : stream.totalBytes < 2 ^ 64 :=
    hholds.limit.trans_lt config.limits.maxStreamBytes.toNat_lt
  have hgone : (Memory.removeStream memory name stream).streams.lookup name = none :=
    Finmap.lookup_erase _ _
  refine h.update hshards (fun other => ?_) (fun other hother => ?_) (.delete name _) ?_ ?_
    (h.invariant.remove hlookup) fun {stream} hsome => ?_
  · rw [hgone]
    exact FiniteMap.lookup_erase_ite _ _ _
  · exact Finmap.lookup_erase_ne hother
  · rw [hgone]
    exact part_delete hholds.wellFormed hbytes hholds.rows
  · rw [htotal, h.total]
    rfl
  · simp [hgone] at hsome

/-- A create finds what a create on the represented streams finds. -/
theorem claim (h : Represents storage memory) (clock : Clock) (name : String) :
    match Memory.claimName clock memory name with
    | .occupied stream => claimName clock name (storage.shard name) = .occupied (.ofEntry stream)
    | .vacant free => ∃ shard removed,
        claimName clock name (storage.shard name) = .vacant shard removed ∧
          removed ≤ storage.totalBytes ∧
          Represents { storage.commit name shard with
            totalBytes := storage.totalBytes - removed } free := by
  simp only [Memory.claimName, claimName, h.streams name]
  cases hlookup : memory.streams.lookup name with
  | none =>
      refine ⟨storage.shard name, 0, rfl, Nat.zero_le _, h.unchanged ?_ rfl⟩
      exact Function.update_eq_self ..
  | some stream =>
      simp only [Option.map_some, StoredStreamMeta.ofEntry_config]
      cases isStreamExpired clock.expiry stream.config with
      | true => exact ⟨_, _, rfl, (h.holds hlookup).bounded, h.remove hlookup rfl rfl⟩
      | false => rfl

end Represents

/-! ## Following a call -/

/-- The operation without messages that a create does not store: a batch without bytes is dropped. -/
def trimmed : Op → Op
  | .createStreamWithData name config messages shouldClose fits =>
      if batchBytes messages = 0 then
        .createStreamWithData name config [] shouldClose (Size.fits .zero)
      else .createStreamWithData name config messages shouldClose fits
  | op => op

/-- It is about the same stream. -/
@[simp] theorem trimmed_name (op : Op) : (trimmed op).name = op.name := by
  cases op with
  | createStreamWithData =>
      rw [trimmed]
      split <;> rfl
  | _ => rfl

/-- A batch of messages that are not empty is not dropped. -/
theorem trimmed_of_nonempty {op : Op} (h : ∀ data ∈ op.messages, data ≠ []) : trimmed op = op := by
  cases op with
  | createStreamWithData name streamConfig messages shouldClose fits =>
      rw [trimmed]
      split
      · next hzero =>
          have hlength := length_le_payload_bytes h
          rw [Op.messages, ← batch_bytes_eq fits, hzero, Nat.le_zero, List.length_eq_zero_iff]
            at hlength
          simp only [hlength]
      · rfl
  | _ => rfl

/-- What a call does to the represented streams: nothing, because there is no room or because the
in-memory storage would report no write either, or what it does in the in-memory storage. -/
inductive Tracks (limits : Limits) (call : Call) (memory : Memory.InMemoryStorage) :
    Reply → Memory.InMemoryStorage → Prop
  | refused (hroom : limits.maxTotalBytes.toNat <
        memory.totalBytes + batchBytes call.op.messages) :
      Tracks limits call memory (call.op.failure .memoryLimitExceeded) memory
  | quiet {reply : Reply} (hwrites : reply.writes = false)
      (hreply : reply.observed =
        (Memory.step limits ⟨call.clock, trimmed call.op⟩ memory).1.observed) :
      Tracks limits call memory reply memory
  | same {reply : Reply}
      (hreply : reply.observed =
        (Memory.step limits ⟨call.clock, trimmed call.op⟩ memory).1.observed) :
      Tracks limits call memory reply (Memory.step limits ⟨call.clock, trimmed call.op⟩ memory).2

/-- An operation on a stream is carried out as it is. -/
theorem trimmed_on_stream {op : Op} (h : Memory.onStream op = true) : trimmed op = op := by
  cases op with
  | createStreamWithData => simp [Memory.onStream] at h
  | _ => rfl

/-- A missing stream is not written to. -/
theorem missing_reply_writes (op : Op) : (Memory.missingReply op).writes = false := by
  cases op <;> rfl

/-- Whether a reply reports a write can be observed. -/
theorem writes_observed (reply : Reply) : reply.observed.writes = reply.writes := by
  unfold Reply.observed
  split <;> rfl

namespace Represents

variable {storage : AcidStorage config} {memory : Memory.InMemoryStorage} {name : String}
  {stream : Memory.StreamEntry}

/-- Following an operation on a stream. -/
theorem step_on_stream {call : Call} (h : Represents storage memory)
    (hop : Memory.onStream call.op = true) (hcount : Countable call storage) :
    ∃ memory', Represents (step call storage).2 memory' ∧
      Tracks config.limits call memory (step call storage).1 memory' := by
  by_cases hroom : storage.totalBytes + batchBytes call.op.messages ≤
      config.limits.maxTotalBytes.toNat
  · have htrimmed := trimmed_on_stream hop
    cases hlookup : memory.streams.lookup call.op.name with
    | none =>
        have hmissing : (storage.shard call.op.name).streams.lookup call.op.name = none := by
          rw [h.streams, hlookup, Option.map_none]
        rw [step_missing hop hmissing hroom]
        refine ⟨memory, h, .quiet (missing_reply_writes call.op) ?_⟩
        rw [htrimmed, Memory.step_of_stream_op config.limits memory hop, hlookup]
    | some stream =>
        have hcount : stream.messages.length + call.op.messages.length < 2 ^ 64 := by
          rwa [Countable, Memory.on_stream_config hop, h.count_eq hlookup] at hcount
        have hends := Acid.step_on_stream hop (h.holds hlookup) hroom hcount
        have hmemory := Memory.step_on_stream config.limits hop hlookup
        have houtcome := Memory.plan_outcome call (h.invariant.wellFormed hlookup)
          (h.invariant.streamLimit hlookup) (h.invariant.stream_le_total hlookup)
          h.invariant.globalLimit
        have hinvariant := Memory.step_invariant call h.invariant
        rw [h.total] at hends
        generalize (Memory.plan call stream).run config.limits memory.totalBytes = outcome
          at hends hmemory houtcome
        have hreply : (Acid.step call storage).1.observed =
            (Memory.step config.limits ⟨call.clock, trimmed call.op⟩ memory).1.observed := by
          rw [htrimmed, hmemory, hends.reply]
        cases hwrites : outcome.1.writes with
        | false =>
            have hnone : call.added outcome.1 = [] := by
              rw [Call.added, Reply.appended_of_not_writes hwrites, if_neg Bool.false_ne_true]
            rw [hnone] at houtcome
            have htotal := houtcome.total_eq (h.invariant.wellFormed hlookup)
            refine ⟨memory, h.unchanged (hends.kept hwrites) ?_, .quiet ?_ hreply⟩
            · rw [hends.total, htotal, h.total]
            · rw [← writes_observed, hends.reply, writes_observed, hwrites]
        | true =>
            have hsame := Tracks.same hreply
            rw [htrimmed, hmemory] at hsame
            rw [hmemory] at hinvariant
            refine ⟨_, h.write (hends.written hwrites) hends.total hinvariant ?_, hsame⟩
            have hlength := congrArg List.length houtcome.payloads
            have hadded : (call.added outcome.1).length ≤ call.op.messages.length := by
              rw [Call.added]
              split
              · exact Nat.le_refl _
              · exact Nat.zero_le _
            simp only [Memory.StreamEntry.payloads, List.length_append, List.length_map] at hlength
            omega
  · have hroom := Nat.not_le.mp hroom
    rw [step_no_room hop h.total_le hroom]
    exact ⟨memory, h, .refused (h.total ▸ hroom)⟩

/-- A stream written where a create has found room. -/
theorem create {storage' : AcidStorage config} {free : Memory.InMemoryStorage} {shard : Shard}
    {entry : Memory.StreamEntry} {released total : Nat} {table : OrderedTable MessageKey Bytes}
    (h : Represents { storage.commit name shard with totalBytes := released } free)
    (hshards : storage'.shards =
      (storage.commit name (shard.write name (.ofEntry entry, table))).shards)
    (htouches : OnlyTouches name shard.messages table)
    (hrows : table.part (ofName name) = Acid.rows name entry)
    (htotal : storage'.totalBytes = total)
    (hinvariant : Memory.Invariant config.limits ⟨free.streams.insert name entry, total⟩)
    (hcount : entry.messages.length < 2 ^ 64) :
    Represents storage' ⟨free.streams.insert name entry, total⟩ := by
  have hshard : ({ storage.commit name shard with totalBytes := released } :
      AcidStorage config).shard name = shard := Function.update_self ..
  refine h.write ⟨table, ?_, ?_, hrows⟩ htotal hinvariant hcount
  · rw [hshards, hshard]
    exact (Function.update_idem ..).symm
  · rw [hshard]
    exact htouches

/-- Where a create has found room there are no rows of its stream. -/
theorem claimed_rows {clock : Clock} {free : Memory.InMemoryStorage} {shard : Shard}
    {released : Nat} (h : Represents { storage.commit name shard with totalBytes := released } free)
    (hclaim : Memory.claimName clock memory name = .vacant free) :
    shard.messages.part (ofName name) = [] := by
  have hshard : ({ storage.commit name shard with totalBytes := released } :
      AcidStorage config).shard name = shard := Function.update_self ..
  have hrows := h.rows name
  rwa [hshard, Memory.claim_name_lookup hclaim, if_pos rfl] at hrows

/-- Following a create without data. -/
theorem step_create_stream {clock : Clock} {streamConfig : StreamConfig}
    (h : Represents storage memory) :
    let call : Call := ⟨clock, .createStream name streamConfig⟩
    ∃ memory', Represents (step call storage).2 memory' ∧
      Tracks config.limits call memory (step call storage).1 memory' := by
  intro call
  have hclaim := h.claim clock name
  have hinvariant := Memory.step_invariant call h.invariant
  have hsame {reply : Reply}
      (hreply : reply.observed = (Memory.step config.limits call memory).1.observed) :
      Tracks config.limits call memory reply (Memory.step config.limits call memory).2 :=
    @Tracks.same config.limits call memory reply hreply
  simp only [call, Memory.step, Memory.createStream] at hinvariant hsame
  simp only [step, createStream, call]
  cases hmemory : Memory.claimName clock memory name with
  | occupied stream =>
      simp only [hmemory] at hclaim hsame
      simp only [hclaim, StoredStreamMeta.ofEntry_config]
      split
      · next heq =>
          rw [if_pos heq] at hsame
          exact ⟨memory, h, hsame rfl⟩
      · next hne =>
          rw [if_neg hne] at hsame
          exact ⟨memory, h, hsame rfl⟩
  | vacant free =>
      simp only [hmemory] at hclaim hsame hinvariant
      obtain ⟨shard, removed, hclaim, hle, hfree⟩ := hclaim
      simp only [hclaim]
      obtain ⟨hshards, htotal⟩ := release_expired_shards (storage.commit name
        (shard.write name (.ofEntry (.new clock.stamp streamConfig), shard.messages))) name removed
      refine ⟨_, hfree.create hshards (.refl name _) ?_ (htotal.trans hfree.total) hinvariant
        (Nat.two_pow_pos 64), hsame rfl⟩
      exact hfree.claimed_rows hmemory

/-- Following a create with data that finds its name taken. -/
theorem step_create_occupied {clock : Clock} {streamConfig : StreamConfig} {messages : List Bytes}
    {shouldClose : Bool} {fits : payloadBytes messages < 2 ^ 64} (h : Represents storage memory)
    (hmemory : Memory.claimName clock memory name = .occupied stream) :
    let call : Call := ⟨clock, .createStreamWithData name streamConfig messages shouldClose fits⟩
    ∃ memory', Represents (step call storage).2 memory' ∧
      Tracks config.limits call memory (step call storage).1 memory' := by
  intro call
  have hclaim := h.claim clock name
  simp only [hmemory] at hclaim
  have hstep : (Memory.step config.limits ⟨clock, trimmed call.op⟩ memory).1 =
      .createdWithData (if stream.config.partialEq streamConfig then
        .ok ⟨.alreadyExists, stream.nextOffset, stream.closed⟩ else .error .configMismatch) := by
    simp only [call, trimmed]
    split <;> simp only [Memory.step, Memory.createStreamWithData, hmemory] <;> split <;> rfl
  simp only [step, createStreamWithData, call, hclaim, StoredStreamMeta.ofEntry_config]
  split
  · next heq =>
      obtain ⟨hshards, htotal⟩ := notified_shards (shouldClose || !messages.isEmpty) storage name
      refine ⟨memory, h.unchanged hshards htotal, .quiet rfl ?_⟩
      rw [hstep, if_pos heq]
      rfl
  · next hne =>
      refine ⟨memory, h, .quiet rfl ?_⟩
      rw [hstep, if_neg hne]
      rfl

section CreateVacant

variable {clock : Clock} {streamConfig : StreamConfig} {messages : List Bytes} {shouldClose : Bool}
  {fits : payloadBytes messages < 2 ^ 64} {free : Memory.InMemoryStorage}

/-- Following a create that finds room and has no bytes to store. -/
theorem step_create_empty (h : Represents storage memory)
    (hmemory : Memory.claimName clock memory name = .vacant free) (hbytes : batchBytes messages = 0) :
    let call : Call := ⟨clock, .createStreamWithData name streamConfig messages shouldClose fits⟩
    ∃ memory', Represents (step call storage).2 memory' ∧
      Tracks config.limits call memory (step call storage).1 memory' := by
  intro call
  have hclaim := h.claim clock name
  simp only [hmemory] at hclaim
  obtain ⟨shard, removed, hclaim, hle, hfree⟩ := hclaim
  have htrimmed : trimmed call.op =
      .createStreamWithData name streamConfig [] shouldClose (by decide) := if_pos hbytes
  have hinvariant := Memory.step_invariant ⟨clock, trimmed call.op⟩ h.invariant
  have hsame {reply : Reply} (hreply : reply.observed =
      (Memory.step config.limits ⟨clock, trimmed call.op⟩ memory).1.observed) :=
    @Tracks.same config.limits call memory reply hreply
  have hnew : StoredStreamMeta.new clock.stamp streamConfig =
      .ofEntry (.new clock.stamp streamConfig) := rfl
  simp only [call] at htrimmed
  simp only [call, htrimmed, Memory.step, Memory.createStreamWithData, hmemory,
    Memory.commitMessages, List.isEmpty_nil, ↓reduceIte] at hinvariant hsame
  simp only [step, createStreamWithData, call, hclaim, hbytes, Nat.lt_irrefl, ↓reduceIte, false_and,
    hnew, StoredStreamMeta.close_if_of_entry]
  obtain ⟨hshards, htotal⟩ := notified_shards (shouldClose || !messages.isEmpty) (releaseExpired
    (storage.commit name (shard.write name
      (.ofEntry ((Memory.StreamEntry.new clock.stamp streamConfig).closeIf shouldClose),
        shard.messages))) name removed) name
  obtain ⟨hreleased, hback⟩ := release_expired_shards (storage.commit name (shard.write name
      (.ofEntry ((Memory.StreamEntry.new clock.stamp streamConfig).closeIf shouldClose),
        shard.messages))) name removed
  have hsameLog := Memory.SameLog.closeIf shouldClose (.new clock.stamp streamConfig)
  refine ⟨_, hfree.create (hshards.trans hreleased) (.refl name _) ?_
    ((htotal.trans hback).trans hfree.total) hinvariant ?_, hsame rfl⟩
  · rw [hfree.claimed_rows hmemory, rows_of_same_log name hsameLog]
    rfl
  · rw [hsameLog.messages]
    exact Nat.two_pow_pos 64

/-- Following a create that finds room and has bytes to store. -/
theorem step_create_data (h : Represents storage memory)
    (hmemory : Memory.claimName clock memory name = .vacant free)
    (hbytes : 0 < batchBytes messages) (hcount : messages.length < 2 ^ 64) :
    let call : Call := ⟨clock, .createStreamWithData name streamConfig messages shouldClose fits⟩
    ∃ memory', Represents (step call storage).2 memory' ∧
      Tracks config.limits call memory (step call storage).1 memory' := by
  intro call
  have hclaim := h.claim clock name
  simp only [hmemory] at hclaim
  obtain ⟨shard, removed, hclaim, hle, hfree⟩ := hclaim
  by_cases hroom : storage.totalBytes + batchBytes messages ≤ config.limits.maxTotalBytes.toNat
  case neg =>
    have hroom := Nat.not_le.mp hroom
    simp only [step, createStreamWithData, call, hclaim, hbytes, ↓reduceIte,
      reserve_refused h.total_le hroom]
    exact ⟨memory, h, @Tracks.refused _ call memory (h.total ▸ hroom)⟩
  have htrimmed : trimmed call.op = call.op := if_neg hbytes.ne'
  have hempty : messages.isEmpty = false := by
    cases messages with
    | nil => exact absurd hbytes (Nat.lt_irrefl 0)
    | cons => rfl
  have hinvariant := Memory.step_invariant ⟨clock, trimmed call.op⟩ h.invariant
  have hsame {reply : Reply} (hreply : reply.observed =
      (Memory.step config.limits ⟨clock, trimmed call.op⟩ memory).1.observed) :=
    @Tracks.same config.limits call memory reply hreply
  have hquiet {reply : Reply} (hwrites : reply.writes = false) (hreply : reply.observed =
      (Memory.step config.limits ⟨clock, trimmed call.op⟩ memory).1.observed) :=
    @Tracks.quiet config.limits call memory reply hwrites hreply
  have hreserve : Memory.reserveTotalBytes config.limits free.totalBytes (batchBytes messages) =
      some (free.totalBytes + batchBytes messages) := by
    have htotal := hfree.total
    dsimp only at htotal
    exact Memory.reserve_eq_some_iff.mpr ⟨rfl, by omega⟩
  have hnew : StoredStreamMeta.new clock.stamp streamConfig =
      .ofEntry (.new clock.stamp streamConfig) := rfl
  rw [htrimmed] at hinvariant hsame hquiet
  simp only [call, Memory.step, Memory.createStreamWithData, hmemory, Memory.commitMessages, hempty,
    Bool.false_eq_true, ↓reduceIte, Memory.reserveAndCommit, hreserve] at hinvariant hsame hquiet
  simp only [step, createStreamWithData, call, hclaim, hbytes, ↓reduceIte, reserve_ok hroom, true_and,
    hnew]
  -- Both storages compare the size of the batch with the limit of the stream.
  by_cases hover : config.limits.maxStreamBytes.toNat < wrap64
      ((Memory.StreamEntry.new clock.stamp streamConfig).totalBytes + batchBytes messages)
  · rw [if_pos hover] at hquiet
    rw [if_pos (by exact hover)]
    have hback := Nat.add_sub_cancel storage.totalBytes (batchBytes messages)
    exact ⟨memory, h.unchanged rfl hback, hquiet rfl rfl⟩
  · rw [if_neg hover] at hsame hinvariant
    rw [if_neg (by exact hover)]
    simp only [insert_messages_meta, StoredStreamMeta.close_if_of_entry]
    have hholds : Holds name (.new clock.stamp streamConfig)
        (.ofEntry (.new clock.stamp streamConfig), shard.messages) :=
      ⟨rfl, hfree.claimed_rows hmemory⟩
    have hstored := hholds.foldl_push (.new clock.stamp streamConfig)
      (by simpa [Memory.StreamEntry.new] using fits)
      (by simpa [Memory.StreamEntry.new] using hcount.le)
    have hsameLog := (Memory.SameLog.notifyAll (messages.foldl .push
      (.new clock.stamp streamConfig))).trans (.closeIf shouldClose _)
    refine ⟨_, hfree.create ?_ (foldl_insert_message_touches name messages
      (.ofEntry (.new clock.stamp streamConfig), shard.messages)) ?_ ?_ hinvariant ?_, hsame rfl⟩
    · exact (notified_shards _ _ _).1.trans (release_expired_shards _ _ _).1
    · exact hstored.rows.trans (rows_of_same_log name hsameLog).symm
    · refine ((notified_shards _ _ _).2.trans (release_expired_shards _ _ _).2).trans ?_
      have htotal := hfree.total
      dsimp only [AcidStorage.commit] at htotal ⊢
      omega
    · have hlength := congrArg List.length
        (Memory.payloads_foldl_push (.new clock.stamp streamConfig) messages)
      rw [hsameLog.messages]
      simp only [Memory.StreamEntry.payloads, List.length_append, List.length_map,
        Memory.StreamEntry.new, List.length_nil] at hlength
      exact hlength ▸ by simpa using hcount

end CreateVacant

/-- Following a delete. -/
theorem step_delete {clock : Clock} (h : Represents storage memory) :
    let call : Call := ⟨clock, .delete name⟩
    ∃ memory', Represents (step call storage).2 memory' ∧
      Tracks config.limits call memory (step call storage).1 memory' := by
  intro call
  have hsame {reply : Reply}
      (hreply : reply.observed = (Memory.step config.limits call memory).1.observed) :
      Tracks config.limits call memory reply (Memory.step config.limits call memory).2 :=
    @Tracks.same config.limits call memory reply hreply
  simp only [call, Memory.step, Memory.delete] at hsame
  simp only [step, delete, call, h.streams name]
  cases hlookup : memory.streams.lookup name with
  | none =>
      simp only [hlookup] at hsame
      exact ⟨memory, h, hsame rfl⟩
  | some stream =>
      simp only [hlookup] at hsame
      exact ⟨_, h.remove hlookup rfl rfl, hsame rfl⟩

/-- Every call of a storage that represents streams is followed by one on these streams. -/
theorem step {call : Call} (h : Represents storage memory) (hcount : Countable call storage) :
    ∃ memory', Represents (Acid.step call storage).2 memory' ∧
      Tracks config.limits call memory (Acid.step call storage).1 memory' := by
  cases hop : Memory.onStream call.op with
  | true => exact h.step_on_stream hop hcount
  | false =>
      obtain ⟨clock, op⟩ := call
      cases op with
      | createStream name streamConfig => exact h.step_create_stream
      | createStreamWithData name streamConfig messages shouldClose fits =>
          have hlength : messages.length < 2 ^ 64 := Nat.zero_add messages.length ▸ hcount
          cases hmemory : Memory.claimName clock memory name with
          | occupied stream => exact h.step_create_occupied hmemory
          | vacant free =>
              rcases Nat.eq_zero_or_pos (batchBytes messages) with hzero | hpos
              · exact h.step_create_empty hmemory hzero
              · exact h.step_create_data hmemory hpos hlength
      | delete name => exact h.step_delete
      | batchAppend name messages contentType seq fits =>
          have hempty : messages.isEmpty = true := by simpa [Memory.onStream] using hop
          refine ⟨memory, ?_, ?_⟩
          · simpa [Acid.step, batchAppend, hempty] using h
          · simp only [Acid.step, batchAppend, hempty, ↓reduceIte]
            refine .quiet rfl ?_
            simp [trimmed, Memory.step, Memory.batchAppend, hempty]
      | «exists» name =>
          refine ⟨memory, h, .quiet rfl ?_⟩
          simp only [Acid.step, existsStream, h.streams name, trimmed, Memory.step,
            Memory.existsStream]
          cases memory.streams.lookup name <;> rfl
      | append | read | head | closeStream | appendWithProducer | subscribe =>
          simp [Memory.onStream] at hop

end Represents

end DurableStreams.Acid
