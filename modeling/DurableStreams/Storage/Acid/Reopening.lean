import DurableStreams.Storage.Acid.Representation

/-!
# Opening the databases again

`rebuild_state_from_disk` removes the expired streams from every shard and counts the bytes of the
others. The streams it leaves are those of the in-memory storage after deleting the expired ones
(`Represents.reopen`). With this the representation holds after any sequence of calls, failing
transactions and restarts.
-/

namespace DurableStreams.Memory

open Lib

/-- Delete several streams, one after the other. -/
def purge (names : List String) (memory : InMemoryStorage) : InMemoryStorage :=
  names.foldl (fun memory name => (delete memory name).2) memory

section Purge

variable {limits : Limits} {memory : InMemoryStorage}

/-- A delete leaves the other streams as they are. -/
theorem delete_lookup (memory : InMemoryStorage) (name other : String) :
    (delete memory name).2.streams.lookup other =
      if other = name then none else memory.streams.lookup other := by
  unfold delete
  cases hlookup : memory.streams.lookup name with
  | none =>
      dsimp only
      split
      · next heq => rw [heq, hlookup]
      · rfl
  | some stream => exact FiniteMap.lookup_erase_ite _ _ _

/-- What is left after deleting several streams. -/
theorem purge_lookup (names : List String) (memory : InMemoryStorage) (other : String) :
    (purge names memory).streams.lookup other =
      if other ∈ names then none else memory.streams.lookup other := by
  induction names generalizing memory with
  | nil => rfl
  | cons name names ih =>
      rw [purge, List.foldl_cons]
      refine (ih _).trans ?_
      rw [delete_lookup]
      by_cases hmem : other ∈ names <;> by_cases heq : other = name <;> simp [hmem, heq]

/-- Deleting several streams keeps the invariant. -/
theorem Invariant.purge (names : List String) (h : Invariant limits memory) :
    Invariant limits (purge names memory) := by
  induction names generalizing memory with
  | nil => exact h
  | cons name names ih => exact ih (step_invariant ⟨.at 0, .delete name⟩ h)

end Purge

end DurableStreams.Memory

namespace DurableStreams.Acid

open Lib

/-! ## One shard -/

section Shards

variable {shard : Shard} {names : List String}

/-- What is left in the table of streams after several of them were removed. -/
theorem foldl_remove_streams (names : List String) (shard : Shard) (other : String) :
    (names.foldl Shard.removeStream shard).streams.lookup other =
      if other ∈ names then none else shard.streams.lookup other := by
  induction names generalizing shard with
  | nil => rfl
  | cons name names ih =>
      rw [List.foldl_cons, ih, Shard.removeStream, FiniteMap.lookup_erase_ite]
      by_cases hmem : other ∈ names <;> by_cases heq : other = name <;> simp [hmem, heq]

/-- The rows of a stream that is not removed stay. -/
theorem foldl_remove_rows_other {other : String} (h : other ∉ names) :
    (names.foldl Shard.removeStream shard).messages.part (ofName other) =
      shard.messages.part (ofName other) := by
  induction names generalizing shard with
  | nil => rfl
  | cons name names ih =>
      obtain ⟨hne, hnot⟩ := not_or.mp fun hmem => h (List.mem_cons.mpr hmem)
      rw [List.foldl_cons, ih hnot]
      exact (OnlyTouches.delete name shard.messages).others other hne

/-- No row is added. -/
theorem foldl_remove_entries {entry : MessageKey × Bytes}
    (h : entry ∈ (names.foldl Shard.removeStream shard).messages.entries) :
    entry ∈ shard.messages.entries := by
  induction names generalizing shard with
  | nil => exact h
  | cons name names ih =>
      have hrest := ih h
      rw [Shard.removeStream, deleteStreamMessages, OrderedTable.remove_all_entries] at hrest
      exact List.mem_of_mem_filter hrest

/-- Where there are no rows of a stream there will be none. -/
theorem foldl_remove_rows_nil {name : String} (h : shard.messages.part (ofName name) = []) :
    (names.foldl Shard.removeStream shard).messages.part (ofName name) = [] := by
  refine List.eq_nil_iff_forall_not_mem.mpr fun entry hentry => ?_
  obtain ⟨hmem, hname⟩ := OrderedTable.mem_part.mp hentry
  have hold := OrderedTable.mem_part.mpr ⟨foldl_remove_entries hmem, hname⟩
  simp [h] at hold

/-- The rows of a stream that is removed are gone. -/
theorem foldl_remove_rows {name : String} {stream : Memory.StreamEntry} (hmem : name ∈ names)
    (hstream : Memory.WellFormed stream) (hbytes : stream.totalBytes < 2 ^ 64)
    (hrows : shard.messages.part (ofName name) = rows name stream) :
    (names.foldl Shard.removeStream shard).messages.part (ofName name) = [] := by
  induction names generalizing shard with
  | nil => simp at hmem
  | cons head names ih =>
      rw [List.foldl_cons]
      by_cases heq : name = head
      · subst heq
        exact foldl_remove_rows_nil (part_delete hstream hbytes hrows)
      · refine ih ((List.mem_cons.mp hmem).resolve_left heq) ?_
        rw [← hrows]
        exact (OnlyTouches.delete head shard.messages).others name heq

/-- The table of a shard lists the names of its streams. -/
theorem mem_names {name : String} :
    name ∈ shard.names ↔ (shard.streams.lookup name).isSome := by
  rw [Shard.names, Finset.mem_sort, Finmap.mem_keys, Finmap.lookup_isSome]

/-- Only a stream of the shard can have expired. -/
theorem mem_filter_expired {now : String → Timestamp} {name : String} :
    name ∈ shard.names.filter (shard.expired now) ↔ shard.expired now name = true := by
  rw [List.mem_filter, and_iff_right_iff_imp, mem_names]
  intro hexpired
  unfold Shard.expired at hexpired
  cases hlookup : shard.streams.lookup name with
  | none => simp [hlookup] at hexpired
  | some saved => rfl

/-- A sum of values that stays below `2 ^ 64` does not saturate. Values may be left out. -/
theorem foldl_saturating_add {α : Type} (skip : α → Bool) (value : α → Nat) (items : List α)
    (start : Nat)
    (h : start + (items.map fun item => if skip item then 0 else value item).sum < 2 ^ 64) :
    items.foldl (fun total item => if skip item then total else saturatingAdd total (value item))
        start =
      start + (items.map fun item => if skip item then 0 else value item).sum := by
  induction items generalizing start with
  | nil => rfl
  | cons item items ih =>
      rw [List.map_cons, List.sum_cons] at h ⊢
      rw [List.foldl_cons]
      split at h
      · next hskip =>
          rw [if_pos hskip, if_pos hskip, ih _ (by omega)]
          omega
      · next hkeep =>
          have hadd : saturatingAdd start (value item) = start + value item := by
            rw [saturatingAdd]
            omega
          rw [if_neg hkeep, if_neg hkeep, hadd, ih _ (by omega)]
          omega

/-- The bytes of the live streams of a shard. -/
def Shard.liveBytes (now : String → Timestamp) (shard : Shard) : Nat :=
  (shard.names.map fun name => if shard.expired now name then 0 else shard.streamBytes name).sum

/-- A shard counts the bytes of its live streams. -/
theorem rebuild_shard_bytes {now : String → Timestamp} (h : shard.liveBytes now < 2 ^ 64) :
    (rebuildShard now shard).1 = shard.liveBytes now := by
  have hzero : 0 + shard.liveBytes now < 2 ^ 64 := by rwa [Nat.zero_add]
  exact (foldl_saturating_add _ _ _ _ hzero).trans (Nat.zero_add _)

end Shards

/-! ## All shards -/

section Reopening

variable {config : Config} {storage : AcidStorage config} {memory : Memory.InMemoryStorage}
  {now : String → Timestamp}

/-- The names of the streams in all shards. -/
def AcidStorage.names (storage : AcidStorage config) : List String :=
  (List.finRange config.shardCount).flatMap fun index => (storage.shards index).names

/-- The names of the expired streams in all shards. -/
def AcidStorage.expiredNames (now : String → Timestamp) (storage : AcidStorage config) :
    List String :=
  (List.finRange config.shardCount).flatMap fun index =>
    (storage.shards index).names.filter ((storage.shards index).expired now)

/-- The counter of the reopened storage is the number of bytes of the live streams, if they fit. -/
theorem reopen_live_bytes
    (h : ((List.finRange config.shardCount).map fun index =>
      (storage.shards index).liveBytes now).sum < 2 ^ 64) :
    (storage.reopen now).totalBytes =
      ((List.finRange config.shardCount).map fun index =>
        (storage.shards index).liveBytes now).sum := by
  have hshard (index : Fin config.shardCount) :
      (rebuildShard now (storage.shards index)).1 = (storage.shards index).liveBytes now := by
    refine rebuild_shard_bytes (lt_of_le_of_lt ?_ h)
    exact List.single_le_sum (by simp) _ (List.mem_map_of_mem (List.mem_finRange index))
  have hfold := foldl_saturating_add (fun _ => false)
    (fun index => (storage.shards index).liveBytes now) (List.finRange config.shardCount) 0
  simp only [Bool.false_eq_true, ↓reduceIte, Nat.zero_add] at hfold
  simp only [AcidStorage.reopen, hshard]
  exact hfold h

namespace Represents

/-- Every name is in one shard only. -/
theorem names_nodup (h : Represents storage memory) : storage.names.Nodup := by
  refine List.nodup_flatMap.mpr ⟨fun index _ => Finset.sort_nodup _ _, ?_⟩
  refine (List.nodup_finRange _).imp fun {first second} hne => ?_
  intro name hfirst hsecond
  exact hne ((h.placed first name (mem_names.mp hfirst)).trans
    (h.placed second name (mem_names.mp hsecond)).symm)

/-- Every stream has a name. -/
theorem mem_storage_names (h : Represents storage memory) {name : String}
    (hsome : (memory.streams.lookup name).isSome) : name ∈ storage.names := by
  refine List.mem_flatMap.mpr ⟨shardIndex config name, List.mem_finRange _, mem_names.mpr ?_⟩
  have hstreams := h.streams name
  rw [AcidStorage.shard] at hstreams
  rwa [hstreams, Option.isSome_map]

/-- A stream is purged if the shard of its name holds it and it has expired. -/
theorem mem_expired_names (h : Represents storage memory) {name : String} :
    name ∈ storage.expiredNames now ↔ (storage.shard name).expired now name = true := by
  rw [AcidStorage.expiredNames, List.mem_flatMap]
  constructor
  · rintro ⟨index, -, hmem⟩
    obtain rfl := h.placed index name (mem_names.mp (List.mem_of_mem_filter hmem))
    exact mem_filter_expired.mp hmem
  · intro hexpired
    exact ⟨shardIndex config name, List.mem_finRange _, mem_filter_expired.mpr hexpired⟩

/-- The bytes of the live streams in all shards are the bytes of the streams that are left. -/
theorem live_bytes_eq (now : String → Timestamp) (h : Represents storage memory) :
    ((List.finRange config.shardCount).map fun index =>
        (storage.shards index).liveBytes now).sum =
      (Memory.purge (storage.expiredNames now) memory).totalBytes := by
  have hkeys : ∀ name, ((Memory.purge (storage.expiredNames now) memory).streams.lookup name).isSome →
      name ∈ storage.names := by
    intro name hsome
    rw [Memory.purge_lookup] at hsome
    split at hsome
    · simp at hsome
    · exact h.mem_storage_names hsome
  rw [(h.invariant.purge _).total, FiniteMap.total_eq_sum _ h.names_nodup hkeys, AcidStorage.names,
    List.map_flatMap, List.flatMap_def, List.sum_flatten, List.map_map]
  refine congrArg List.sum (List.map_congr_left fun index _ => ?_)
  refine congrArg List.sum (List.map_congr_left fun name hname => ?_)
  obtain rfl := h.placed index name (mem_names.mp hname)
  have hshard : storage.shards (shardIndex config name) = storage.shard name := rfl
  rw [Memory.purge_lookup, if_congr h.mem_expired_names rfl rfl, hshard]
  split
  · rfl
  · rw [Shard.streamBytes, h.streams]
    cases memory.streams.lookup name <;> rfl

/-- The counter of the reopened storage is the number of bytes of the streams that are left. -/
theorem reopen_bytes (now : String → Timestamp) (h : Represents storage memory) :
    (storage.reopen now).totalBytes =
      (Memory.purge (storage.expiredNames now) memory).totalBytes := by
  rw [← h.live_bytes_eq now]
  refine reopen_live_bytes ?_
  rw [h.live_bytes_eq now]
  exact lt_of_le_of_lt (h.invariant.purge _).globalLimit config.limits.maxTotalBytes.toNat_lt

/-- Opening the databases again deletes the expired streams. -/
theorem reopen (now : String → Timestamp) (h : Represents storage memory) :
    Represents (storage.reopen now) (Memory.purge (storage.expiredNames now) memory) := by
  have hlookup (name : String) :
      (Memory.purge (storage.expiredNames now) memory).streams.lookup name =
        if (storage.shard name).expired now name then none else memory.streams.lookup name := by
    rw [Memory.purge_lookup, if_congr h.mem_expired_names rfl rfl]
  refine ⟨fun name => ?_, fun name => ?_, fun index name hsome => ?_,
    fun index entry hentry => ?_, h.reopen_bytes now, h.invariant.purge _,
    fun {name stream} hstream => ?_⟩
  · refine (foldl_remove_streams _ _ _).trans ?_
    rw [hlookup, if_congr mem_filter_expired rfl rfl]
    split
    · next hexpired => rw [if_pos (by exact hexpired), Option.map_none]
    · next hlive =>
        rw [if_neg (by exact hlive)]
        exact h.streams name
  · rw [hlookup]
    cases hstream : memory.streams.lookup name with
    | none =>
        have hrows := h.rows name
        rw [hstream] at hrows
        rw [ite_self]
        exact foldl_remove_rows_nil hrows
    | some stream =>
        have hholds := h.holds hstream
        split
        · next hexpired =>
            refine foldl_remove_rows (mem_filter_expired.mpr hexpired) hholds.wellFormed ?_
              hholds.rows
            exact lt_of_le_of_lt hholds.limit config.limits.maxStreamBytes.toNat_lt
        · next hlive =>
            refine (foldl_remove_rows_other fun hmem => hlive (mem_filter_expired.mp hmem)).trans ?_
            exact hholds.rows
  · refine h.placed index name ?_
    rw [show ((storage.reopen now).shards index).streams.lookup name = _ from
      foldl_remove_streams _ _ _] at hsome
    split at hsome
    · simp at hsome
    · exact hsome
  · exact h.rowsPlaced index entry (foldl_remove_entries hentry)
  · rw [hlookup] at hstream
    split at hstream
    · cases hstream
    · exact h.counts hstream

end Represents

end Reopening

end DurableStreams.Acid
