import DurableStreams.Storage.Acid.Reopening

/-!
# The tables in every reachable state

A run of the transactional storage consists of calls, calls whose transaction fails in the database,
and restarts. As long as no stream has received `2 ^ 64` messages, the tables have the form that
`Canonical` describes after every run, and a call leaves the entries of all other names as they are.
With `2 ^ 64` messages, all of them empty, the sequence number of a stream wraps around and the form
is lost.
-/

namespace DurableStreams.Acid

open Lib

variable {config : Config}

/-- What can happen to the storage. -/
inductive Event where
  | request (call : Call)
  | fault (call : Call)
  | reopen (now : String → Timestamp)

/-- The storage after an event, and the reply if there is one. -/
def Event.run (event : Event) (storage : AcidStorage config) : Option Reply × AcidStorage config :=
  match event with
  | .request call => (some (step call storage).1, (step call storage).2)
  | .fault call => (none, abort storage call)
  | .reopen now => (none, storage.reopen now)

/-- An event after which every stream still has fewer than `2 ^ 64` messages. -/
def Event.Counted (event : Event) (storage : AcidStorage config) : Prop :=
  match event with
  | .request call => Countable call storage
  | _ => True

/-- Whether it is such an event can be computed. -/
instance instDecidableCounted (event : Event) (storage : AcidStorage config) :
    Decidable (event.Counted storage) :=
  match event with
  | .request call => instDecidableCountable call storage
  | .fault _ | .reopen _ => isTrue trivial

/-- The payloads in the rows of a stream. -/
def Shard.payloads (shard : Shard) (name : String) : List Bytes :=
  (shard.messages.part (ofName name)).map Prod.snd

/-- The form of the tables: every stream is in the shard of its name, its rows are numbered from zero
and keyed by the bytes before them, its counters agree with its rows, and there are no other rows. -/
structure Canonical (storage : AcidStorage config) : Prop where
  placed : ∀ index name, ((storage.shards index).streams.lookup name).isSome →
    index = shardIndex config name
  keys : ∀ index name saved, (storage.shards index).streams.lookup name = some saved →
    ((storage.shards index).messages.part (ofName name)).map Prod.fst =
      (List.range saved.nextReadSeq).map fun number =>
        messageKey name number (payloadBytes (((storage.shards index).payloads name).take number))
  bytes : ∀ index name saved, (storage.shards index).streams.lookup name = some saved →
    saved.nextByteOffset = saved.totalBytes ∧
      saved.totalBytes = payloadBytes ((storage.shards index).payloads name) ∧
      saved.totalBytes ≤ config.limits.maxStreamBytes.toNat
  owned : ∀ index, ∀ entry ∈ (storage.shards index).messages.entries,
    ∃ name, ofName name entry.1 = true ∧ ((storage.shards index).streams.lookup name).isSome

/-- The entries of a name are the same in all tables. -/
def SameEntries (name : String) (before after : AcidStorage config) : Prop :=
  ∀ index, (after.shards index).streams.lookup name = (before.shards index).streams.lookup name ∧
    (after.shards index).messages.part (ofName name) =
      (before.shards index).messages.part (ofName name)

/-! ## From the represented streams to the tables -/

namespace Represents

variable {storage storage' : AcidStorage config} {memory memory' : Memory.InMemoryStorage}
  {name : String}

/-- The tables of a shard have no entry of a name that belongs to another shard. -/
theorem absent (h : Represents storage memory) {index : Fin config.shardCount}
    (hindex : index ≠ shardIndex config name) :
    (storage.shards index).streams.lookup name = none ∧
      (storage.shards index).messages.part (ofName name) = [] := by
  constructor
  · cases hlookup : (storage.shards index).streams.lookup name with
    | none => rfl
    | some saved => exact absurd (h.placed index name (hlookup ▸ rfl)) hindex
  · refine List.eq_nil_iff_forall_not_mem.mpr fun entry hentry => hindex ?_
    obtain ⟨hmem, hname⟩ := OrderedTable.mem_part.mp hentry
    obtain ⟨owner, howner, hkey⟩ := h.rowsPlaced index entry hmem
    have hsame := (of_decide_eq_true hkey).symm.trans (of_decide_eq_true hname)
    rw [howner, name_key_inj hsame]

/-- The entries of a name follow from the stream it has. -/
theorem sameEntries (h : Represents storage memory) (h' : Represents storage' memory')
    (hsame : memory'.streams.lookup name = memory.streams.lookup name) :
    SameEntries name storage storage' := by
  intro index
  by_cases hindex : index = shardIndex config name
  · subst hindex
    have hstreams := (h'.streams name).trans ((congrArg _ hsame).trans (h.streams name).symm)
    have hrows := (h'.rows name).trans ((congrArg _ hsame).trans (h.rows name).symm)
    exact ⟨hstreams, hrows⟩
  · obtain ⟨hstreams, hrows⟩ := h.absent hindex
    obtain ⟨hstreams', hrows'⟩ := h'.absent hindex
    exact ⟨hstreams'.trans hstreams.symm, hrows'.trans hrows.symm⟩

/-- The payloads of a stream are in its rows. -/
theorem payloads_eq (h : Represents storage memory) {stream : Memory.StreamEntry}
    (hlookup : memory.streams.lookup name = some stream) :
    (storage.shard name).payloads name = stream.payloads := by
  rw [Shard.payloads, (h.holds hlookup).rows, Acid.rows, List.map_map]
  rfl

/-- Tables that represent streams are canonical. -/
theorem canonical (h : Represents storage memory) : Canonical storage := by
  have hfound : ∀ index name saved, (storage.shards index).streams.lookup name = some saved →
      index = shardIndex config name ∧ ∃ stream, memory.streams.lookup name = some stream ∧
        saved = .ofEntry stream := by
    intro index name saved hlookup
    obtain rfl := h.placed index name (hlookup ▸ rfl)
    have hsaved := (h.streams name).symm.trans hlookup
    obtain ⟨stream, hstream, rfl⟩ := Option.map_eq_some_iff.mp hsaved
    exact ⟨rfl, stream, hstream, rfl⟩
  refine ⟨h.placed, fun index name saved hlookup => ?_, fun index name saved hlookup => ?_,
    fun index entry hentry => ?_⟩
  · obtain ⟨rfl, stream, hstream, rfl⟩ := hfound index name saved hlookup
    have hwf := h.invariant.wellFormed hstream
    have hkeys := rows_keys name hwf (h.counts hstream)
    have hseq := hwf.nextReadSeq
    rw [wrap64_of_lt (h.counts hstream)] at hseq
    have hpayloads := h.payloads_eq hstream
    have hrows := (h.holds hstream).rows
    rw [AcidStorage.shard] at hpayloads hrows
    rw [hrows, hkeys, hpayloads, StoredStreamMeta.ofEntry_nextReadSeq, hseq]
  · obtain ⟨rfl, stream, hstream, rfl⟩ := hfound index name saved hlookup
    have hwf := h.invariant.wellFormed hstream
    have hpayloads := h.payloads_eq hstream
    rw [AcidStorage.shard] at hpayloads
    rw [hpayloads]
    refine ⟨?_, ?_, h.invariant.streamLimit hstream⟩
    · exact hwf.nextByteOffset.trans hwf.totalBytes.symm
    · exact hwf.totalBytes
  · obtain ⟨name, rfl, hname⟩ := h.rowsPlaced index entry hentry
    refine ⟨name, hname, ?_⟩
    have hrows := h.rows name
    have hmem := OrderedTable.mem_part.mpr ⟨hentry, hname⟩
    rw [AcidStorage.shard] at hrows
    rw [hrows] at hmem
    have hstreams := h.streams name
    rw [AcidStorage.shard] at hstreams
    rw [hstreams]
    cases hstream : memory.streams.lookup name with
    | none => simp [hstream, optionalRows] at hmem
    | some stream => rfl

/-- A call leaves the represented streams of the other names alone. -/
theorem tracks_others {call : Call} {reply : Reply} (h : Represents storage memory)
    (htracks : Tracks config.limits call memory reply memory')
    (hname : name ≠ call.op.name) :
    memory'.streams.lookup name = memory.streams.lookup name := by
  cases htracks with
  | refused => rfl
  | quiet => rfl
  | same =>
      refine (Memory.step_effect ⟨call.clock, trimmed call.op⟩ h.invariant).others ?_
      rwa [trimmed_name]

/-- The tables represent streams after every event. -/
theorem event {event : Event} (h : Represents storage memory) (hcounted : event.Counted storage) :
    ∃ memory', Represents (event.run storage).2 memory' := by
  cases event with
  | request call =>
      obtain ⟨memory', hafter, -⟩ := h.step hcounted
      exact ⟨memory', hafter⟩
  | fault call =>
      refine ⟨memory, ?_⟩
      rw [Event.run, abort_eq call storage]
      exact h
  | reopen now => exact ⟨_, h.reopen now⟩

end Represents

/-- The tables represent streams in every reachable state. -/
theorem reachable_represents {events : List Event}
    (hcounted : Along Event.run Event.Counted events (.new config)) :
    ∃ memory, Represents (exec Event.run events (.new config)).2 memory := by
  refine @exec_invariant _ _ _ _ _ (fun storage => ∃ memory, Represents storage memory) ?_ _ _
    hcounted ⟨_, .new config⟩
  rintro event storage hevent ⟨memory, h⟩
  exact h.event hevent

/-! ## The form of the tables -/

/-- As long as no stream has received `2 ^ 64` messages, the tables are canonical after every run of
calls, failing transactions and restarts, and a call, whether or not its transaction fails, leaves
the entries of every other name as they are. -/
theorem tables_canonical (config : Config) (events : List Event)
    (hcounted : Along Event.run Event.Counted events (.new config)) :
    let storage := (exec Event.run events (.new config)).2
    Canonical storage ∧ ∀ call : Call, Countable call storage → ∀ other, other ≠ call.op.name →
      SameEntries other storage (step call storage).2 ∧
        SameEntries other storage (abort storage call) := by
  intro storage
  obtain ⟨memory, h⟩ := reachable_represents hcounted
  refine ⟨h.canonical, fun call hcount other hother => ?_⟩
  obtain ⟨memory', hafter, htracks⟩ := h.step hcount
  exact ⟨h.sameEntries hafter (h.tracks_others htracks hother),
    h.sameEntries ((abort_eq call storage).symm ▸ h) rfl⟩

/-- Two streams in one shard, where one name is a prefix of the other. -/
def prefixRun : List Event :=
  [.request ⟨.at 0, .createStream "a" .plain⟩, .request ⟨.at 1, .createStream "ab" .plain⟩,
    .request ⟨.at 2, .append "ab" [1, 2] "text/plain" (Size.fits .two)⟩,
    .request ⟨.at 3, .batchAppend "a" [[3], [4, 5]] "text/plain" none (by decide)⟩,
    .fault ⟨.at 4, .append "a" [6] "text/plain" (by decide)⟩,
    .request ⟨.at 5, .delete "a"⟩, .reopen fun _ => 6]

theorem tables_canonical_prefix_run :
    Canonical (exec Event.run prefixRun (.new crowded)).2 :=
  (tables_canonical crowded prefixRun (by decide +kernel)).1

/-! ## Wrapping around -/

section Wrapping

/-- An append of no bytes. -/
def emptyAppend : Event := .request ⟨.at 0, .append "s" [] "text/plain" (Size.fits .zero)⟩

/-- A stream that has received a number of empty messages, counted modulo `2 ^ 64`. -/
structure Received (count : Nat) (storage : AcidStorage crowded) : Prop where
  saved : ∃ saved, (storage.shard "s").streams.lookup "s" = some saved ∧ saved.config = .plain ∧
    saved.closed = false ∧ saved.totalBytes = 0 ∧ saved.nextReadSeq = wrap64 count
  rows : 0 < count → (storage.shard "s").messages.part (ofName "s") ≠ []

/-- One more empty message. -/
theorem Received.next {count : Nat} {storage : AcidStorage crowded} (h : Received count storage) :
    Received (count + 1) (emptyAppend.run storage).2 := by
  obtain ⟨saved, hlookup, hconfig, hclosed, hbytes, hseq⟩ := h.saved
  have hstep : (emptyAppend.run storage).2 =
      (storage.commit "s" ((storage.shard "s").write "s"
        (insertMessage "s" (saved, (storage.shard "s").messages) []))).notifyStream "s" := by
    have htype : validateContentType "text/plain" "text/plain" = .ok () := by decide +kernel
    have hfits : ¬ crowded.limits.maxStreamBytes.toNat < wrap64 (0 + 0) := by decide
    simp only [emptyAppend, Event.run, step, append, byteLen, reserveTotalBytes, List.length_nil,
      Nat.two_pow_pos, ↓reduceIte, appendTxn, shard_with_total, hlookup, hconfig, hclosed,
      isStreamExpired, StreamConfig.plain, Bool.false_eq_true, hbytes, htype, hfits]
    rfl
  have hshard : (emptyAppend.run storage).2.shard "s" = (storage.shard "s").write "s"
      (insertMessage "s" (saved, (storage.shard "s").messages) []) := by
    rw [hstep, AcidStorage.shard, (notify_stream_shards _ _).1]
    simp [AcidStorage.commit]
  constructor
  · refine ⟨saved.advance [], ?_, hconfig, hclosed, ?_, ?_⟩
    · rw [hshard]
      exact Finmap.lookup_insert _
    · simp [StoredStreamMeta.advance, hbytes, byteLen, wrap64]
    · simp [StoredStreamMeta.advance, hseq, wrap64]
  · intro _
    rw [hshard]
    refine List.ne_nil_of_mem (OrderedTable.mem_part.mpr ⟨OrderedTable.mem_insert_self _ _ _, ?_⟩)
    exact (of_name_message_key ..).trans (decide_eq_true rfl)

/-- Any number of further empty messages. -/
theorem Received.replicate {count : Nat} {storage : AcidStorage crowded}
    (h : Received count storage) (more : Nat) :
    Received (count + more) (exec Event.run (List.replicate more emptyAppend) storage).2 := by
  induction more generalizing count storage with
  | zero => exact h
  | succ more ih =>
      have hrest := ih h.next
      rwa [Nat.add_assoc, Nat.add_comm 1] at hrest

/-- After `2 ^ 64` empty messages a stream with rows is counted as empty. -/
theorem Received.not_canonical {storage : AcidStorage crowded} (h : Received (2 ^ 64) storage) :
    ¬ Canonical storage := by
  intro hcanonical
  obtain ⟨saved, hlookup, -, -, -, hseq⟩ := h.saved
  have hkeys := hcanonical.keys _ _ _ hlookup
  rw [hseq, wrap64, Nat.mod_self, List.range_zero, List.map_nil, List.map_eq_nil_iff] at hkeys
  exact h.rows (Nat.two_pow_pos 64) hkeys

/-- A new stream after any number of empty messages. -/
theorem received_replicate (count : Nat) :
    Received count (exec Event.run (.request ⟨.at 0, .createStream "s" .plain⟩ ::
      List.replicate count emptyAppend) (.new crowded)).2 := by
  have hcreated : Received 0 (Event.run (.request ⟨.at 0, .createStream "s" .plain⟩)
      (.new crowded)).2 := by
    refine ⟨⟨.new 0 .plain, ?_, rfl, rfl, rfl, rfl⟩, fun hpos => absurd hpos (Nat.lt_irrefl 0)⟩
    decide +kernel
  have hreceived := hcreated.replicate count
  rwa [Nat.zero_add] at hreceived

theorem tables_canonical_wraps :
    ¬ Canonical (exec Event.run (.request ⟨.at 0, .createStream "s" .plain⟩ ::
      List.replicate (2 ^ 64) emptyAppend) (.new crowded)).2 :=
  (received_replicate (2 ^ 64)).not_canonical

end Wrapping

end DurableStreams.Acid
