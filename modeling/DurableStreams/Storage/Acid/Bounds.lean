import DurableStreams.Storage.Acid.Concurrent
import DurableStreams.Storage.Acid.Reachable
import DurableStreams.Storage.Acid.Signals

/-!
# Keys, counters and bytes in every reachable state

Whatever the numbers of messages, the keys of the rows and the counters of the streams fit in 64 bits
after every run of calls, failing transactions and restarts. So removing a stream removes all its rows
(`delete_stream_messages_eq`). The global counter is the number of stored bytes.
-/

namespace DurableStreams.Lib.OrderedTable

variable {κ β : Type} [LinearOrder κ]

/-- The table without the entries whose keys pass a test. -/
def discard (drop : κ → Bool) (table : OrderedTable κ β) : OrderedTable κ β :=
  ⟨table.entries.filter fun entry => !drop entry.1, table.sorted.filter _⟩

/-- Removing all keys that pass a test. -/
theorem remove_all_eq_discard {keys : List κ} {drop : κ → Bool} {table : OrderedTable κ β}
    (h : ∀ entry ∈ table.entries, entry.1 ∈ keys ↔ drop entry.1 = true) :
    table.removeAll keys = table.discard drop := by
  have hentries : (table.removeAll keys).entries = (table.discard drop).entries := by
    rw [remove_all_entries]
    refine List.filter_congr fun entry hentry => ?_
    rw [Bool.eq_iff_iff, decide_eq_true_iff, Bool.not_eq_true', ← Bool.not_eq_true, h entry hentry]
  generalize table.removeAll keys = left at hentries
  obtain ⟨entries, sorted⟩ := left
  obtain rfl : entries = _ := hentries
  rfl

end DurableStreams.Lib.OrderedTable

namespace DurableStreams.Acid

open Lib

variable {config : Config}

/-! ## Keys and counters -/

/-- A key whose offset fits in 64 bits. -/
def KeyFits (key : MessageKey) : Prop :=
  ∃ name readSeq byteOffset, key = messageKey name readSeq byteOffset ∧ readSeq < 2 ^ 64 ∧
    byteOffset < 2 ^ 64

/-- The offset of the next message fits in 64 bits. -/
def StoredStreamMeta.Fits (saved : StoredStreamMeta) : Prop :=
  saved.nextReadSeq < 2 ^ 64 ∧ saved.nextByteOffset < 2 ^ 64

theorem StoredStreamMeta.Fits.closeIf {saved : StoredStreamMeta} (shouldClose : Bool)
    (h : saved.Fits) : (saved.closeIf shouldClose).Fits := by
  cases shouldClose <;> exact h

/-- The keys of a table fit. -/
def TableFits (table : OrderedTable MessageKey Bytes) : Prop :=
  ∀ entry ∈ table.entries, KeyFits entry.1

/-- The keys and counters of a shard fit. -/
structure Shard.Fits (shard : Shard) : Prop where
  rows : TableFits shard.messages
  counters : ∀ name saved, shard.streams.lookup name = some saved → saved.Fits

section Shards

variable {shard after : Shard} {name : String} {saved written : StoredStreamMeta}
  {table : OrderedTable MessageKey Bytes} {messages : List Bytes}

/-- Written messages fit. -/
theorem insert_messages_fits (messages : List Bytes) (hsaved : saved.Fits) (htable : TableFits table) :
    (insertMessages name messages saved table).1.Fits ∧
      TableFits (insertMessages name messages saved table).2 := by
  unfold insertMessages
  induction messages generalizing saved table with
  | nil => exact ⟨hsaved, htable⟩
  | cons data messages ih =>
      refine ih ⟨wrap64_lt _, wrap64_lt _⟩ fun entry hentry => ?_
      obtain rfl | hold := OrderedTable.mem_insert_entry hentry
      · exact ⟨name, saved.nextReadSeq, saved.nextByteOffset, rfl, hsaved.1, hsaved.2⟩
      · exact htable entry hold

/-- A row with counters that fit. -/
theorem Shard.Fits.write (h : shard.Fits) (hwritten : written.Fits) (htable : TableFits table) :
    (shard.write name (written, table)).Fits := by
  refine ⟨htable, fun other found hfound => ?_⟩
  rw [Shard.write, FiniteMap.lookup_insert_ite] at hfound
  split at hfound
  · obtain rfl := Option.some.inj hfound
    exact hwritten
  · exact h.counters other found hfound

/-- A row that was written behind a stream. -/
theorem WrittenRow.fits (h : WrittenRow name messages saved shard.messages written table)
    (hshard : shard.Fits) (hsaved : saved.Fits) : written.Fits ∧ TableFits table := by
  obtain ⟨hsame, rfl⟩ := h
  obtain ⟨hcounters, htable⟩ := @insert_messages_fits name _ _ messages hsaved hshard.rows
  refine ⟨⟨?_, ?_⟩, htable⟩
  · rw [hsame.nextReadSeq]
    exact hcounters.1
  · rw [hsame.nextByteOffset]
    exact hcounters.2

/-- Removing a stream. -/
theorem Shard.Fits.removeStream (h : shard.Fits) (name : String) : (shard.removeStream name).Fits := by
  refine ⟨fun entry hentry => ?_, fun other found hfound => ?_⟩
  · rw [Shard.removeStream, deleteStreamMessages, OrderedTable.remove_all_entries] at hentry
    exact h.rows entry (List.mem_of_mem_filter hentry)
  · rw [Shard.removeStream, FiniteMap.lookup_erase_ite] at hfound
    split at hfound
    · cases hfound
    · exact h.counters other found hfound

/-- What a create goes on with. -/
theorem Shard.Fits.claim {clock : Clock} {removed : Nat} (h : shard.Fits)
    (hclaim : claimName clock name shard = .vacant after removed) : after.Fits := by
  unfold claimName at hclaim
  split at hclaim
  · cases hclaim
    exact h
  · split at hclaim
    · cases hclaim
      exact h.removeStream name
    · cases hclaim

/-- Removing a stream removes all its rows. -/
theorem delete_stream_messages_eq (name : String) (h : TableFits table) :
    deleteStreamMessages name table = table.discard (ofName name) := by
  refine OrderedTable.remove_all_eq_discard fun entry hentry => ?_
  constructor
  · intro hkey
    obtain ⟨row, hrow, hsame⟩ := List.mem_map.mp hkey
    obtain ⟨hlow, hhigh⟩ := of_decide_eq_true (OrderedTable.mem_part.mp hrow).2
    rw [hsame] at hlow hhigh
    exact of_name_of_between hlow hhigh
  · intro hname
    obtain ⟨owner, readSeq, byteOffset, hkey, hseq, hbyte⟩ := h entry hentry
    rw [hkey, of_name_message_key] at hname
    obtain rfl := of_decide_eq_true hname
    refine List.mem_map.mpr ⟨entry, OrderedTable.mem_part.mpr ⟨hentry, decide_eq_true ?_⟩, rfl⟩
    rw [hkey]
    exact ⟨message_key_le_iff.mpr (by omega), message_key_le_iff.mpr (by omega)⟩

end Shards

section Storage

variable {storage after : AcidStorage config} {name : String}

/-- The keys and counters of all shards fit. -/
def AcidStorage.Fits (storage : AcidStorage config) : Prop := ∀ index, (storage.shards index).Fits

theorem AcidStorage.Fits.congr (h : storage.Fits) (hshards : after.shards = storage.shards) :
    after.Fits := by
  intro index
  rw [hshards]
  exact h index

theorem AcidStorage.Fits.commit {shard : Shard} (h : storage.Fits) (hshard : shard.Fits)
    (hshards : after.shards = (storage.commit name shard).shards) : after.Fits := by
  intro index
  rw [hshards]
  dsimp only [AcidStorage.commit]
  by_cases hindex : index = shardIndex config name
  · rw [hindex, Function.update_self]
    exact hshard
  · rw [Function.update_of_ne hindex]
    exact h index

/-- A call leaves keys and counters that fit. -/
theorem AcidStorage.Fits.step (h : storage.Fits) (call : Call) : (step call storage).2.Fits := by
  cases hupdates : updates call.op with
  | true =>
      cases step_updated call storage hupdates with
      | nothing total hstep _ _ =>
          rw [hstep]
          exact h.congr (announced_shards ..)
      | row total saved written table hlookup hstep _ hrow _ _ =>
          have hshard := h (shardIndex config call.op.name)
          obtain ⟨hwritten, htable⟩ := hrow.fits hshard (hshard.counters _ saved hlookup)
          rw [hstep]
          exact h.commit (hshard.write hwritten htable) (announced_shards ..)
  | false =>
      by_cases hcreate : call.op.config.isSome = true
      · cases step_created call storage hcreate with
        | nothing _ hshards _ _ => exact h.congr hshards
        | @row _ _ streamConfig closed hclaim _ _ hshards _ =>
            have hshard := (h (shardIndex config call.op.name)).claim hclaim
            have hnew : (StoredStreamMeta.new call.clock.stamp streamConfig).Fits :=
              ⟨Nat.two_pow_pos 64, Nat.two_pow_pos 64⟩
            obtain ⟨hwritten, htable⟩ := insert_messages_fits _ hnew hshard.rows
            exact h.commit (hshard.write (.closeIf closed hwritten) htable) hshards
      obtain ⟨clock, op⟩ := call
      cases op with
      | createStream | createStreamWithData => exact absurd rfl hcreate
      | delete target =>
          simp only [Acid.step, delete]
          cases (storage.shard target).streams.lookup target with
          | none => exact h
          | some found =>
              exact h.commit ((h (shardIndex config target)).removeStream target) rfl
      | subscribe target => exact h.congr (subscribe_shards ..)
      | read | head | «exists» => exact h
      | append | batchAppend | appendWithProducer | closeStream => cases hupdates

/-- So does opening the databases again. -/
theorem AcidStorage.Fits.reopen (h : storage.Fits) (now : String → Timestamp) :
    (storage.reopen now).Fits := by
  intro index
  dsimp only [AcidStorage.reopen, rebuildShard]
  generalize (storage.shards index).names.filter _ = names
  have hshard := h index
  generalize storage.shards index = shard at hshard
  induction names generalizing shard with
  | nil => exact hshard
  | cons name names ih => exact ih _ (hshard.removeStream name)

/-! ## The counter -/

/-- The counter is the number of stored bytes and within the limit. -/
structure AcidStorage.Counted (storage : AcidStorage config) : Prop where
  total : storage.totalBytes = storage.storedBytes
  limit : storage.totalBytes ≤ config.limits.maxTotalBytes.toNat

/-- A call keeps the counter right, as it does among others. -/
theorem AcidStorage.Counted.step (h : storage.Counted) (call : Call) :
    (step call storage).2.Counted := by
  obtain ⟨count, result, hrun, hshards, htotal⟩ := execute_eq_step call storage
  have hbalanced : Balanced ((machine config).execute
      (.spawn call :: List.replicate count (.run 0 none)) ⟨storage, []⟩) :=
    Machine.execute_invariant (fun _ action hsystem => hsystem.act action) _
      (.init h.total (h.total ▸ h.limit))
  rw [hrun] at hbalanced
  have hbalance : result.totalBytes = result.storedBytes := hbalanced.balance
  have hlimit : result.totalBytes ≤ config.limits.maxTotalBytes.toNat := hbalanced.limit
  rw [htotal] at hbalance hlimit
  rw [AcidStorage.storedBytes, hshards] at hbalance
  exact ⟨hbalance, hlimit⟩

/-- Only live streams are counted when the databases are opened again. -/
theorem live_bytes_le (now : String → Timestamp) (shard : Shard) :
    shard.liveBytes now ≤ shard.storedBytes := by
  have hkeys : ∀ name, (shard.streams.lookup name).isSome → name ∈ shard.names :=
    fun name => mem_names.mpr
  rw [Shard.storedBytes, FiniteMap.total_eq_sum _ (Finset.sort_nodup _ _) hkeys, Shard.liveBytes]
  refine List.sum_le_sum fun name _ => ?_
  split
  · exact Nat.zero_le _
  · rw [Shard.streamBytes]
    cases shard.streams.lookup name <;> exact Nat.le_refl _

/-- Opening the databases again keeps the counter right. -/
theorem AcidStorage.Counted.reopen (h : storage.Counted) (now : String → Timestamp) :
    (storage.reopen now).Counted := by
  have hmax := config.limits.maxTotalBytes.toNat_lt
  have hle : (storage.reopen now).storedBytes ≤ storage.storedBytes :=
    Finset.sum_le_sum fun index _ => (rebuild_shard_stored _).trans_le (live_bytes_le now _)
  have hstored : storage.storedBytes ≤ config.limits.maxTotalBytes.toNat := h.total ▸ h.limit
  have htotal := reopen_total_bytes (hle.trans_lt (hstored.trans_lt hmax))
  exact ⟨htotal, htotal.trans_le (hle.trans hstored)⟩

/-- A stream has at most all bytes. -/
theorem AcidStorage.Counted.stream_le {saved : StoredStreamMeta} (h : storage.Counted)
    (hlookup : (storage.shard name).streams.lookup name = some saved) :
    saved.totalBytes ≤ storage.totalBytes := by
  rw [h.total]
  exact (FiniteMap.measure_le_total StoredStreamMeta.totalBytes hlookup).trans
    (shard_bytes_le storage name)

/-- What holds in every reachable state. -/
theorem reachable_fits_counted (config : Config) (events : List Event) :
    (exec Event.run events (.new config)).2.Fits ∧
      (exec Event.run events (.new config)).2.Counted := by
  have hstart : (AcidStorage.new config).Fits ∧ (AcidStorage.new config).Counted := by
    refine ⟨fun index => ⟨fun entry hentry => ?_, fun name saved hlookup => ?_⟩, ?_, Nat.zero_le _⟩
    · cases hentry
    · cases hlookup
    · exact (Finset.sum_eq_zero fun _ _ => rfl).symm
  have hrun (event : Event) (storage : AcidStorage config) (_ : True)
      (h : storage.Fits ∧ storage.Counted) :
      (event.run storage).2.Fits ∧ (event.run storage).2.Counted := by
    cases event with
    | request call => exact ⟨h.1.step call, h.2.step call⟩
    | fault call =>
        rw [Event.run, abort_eq call storage]
        exact h
    | reopen now => exact ⟨h.1.reopen now, h.2.reopen now⟩
  exact exec_invariant hrun (along_of_forall fun _ _ _ => trivial) hstart

end Storage

end DurableStreams.Acid
