import DurableStreams.Storage.File.Loading
import DurableStreams.Storage.File.Reachable

/-!
# Recovering from what is on disk

`Recoverable` says what a disk has to hold for the streams of a storage to come back: their records,
with at most torn bytes behind them, and their metadata. `reopen_related` is the recovery theorem:
opening such a disk gives a storage that is again related to an in-memory one, namely to the original
without its expired streams. Producer records that were already stale may have come back.
-/

namespace DurableStreams.File

open Lib

/-- A directory from which a stream can be recovered. Torn bytes may follow its records. -/
structure Kept (horizon : Timestamp) (name : String) (stream : Memory.StreamEntry) (found : Dir) :
    Prop where
  log : ∃ torn, Torn torn ∧ found.logBytes = encodeRecords stream.payloads ++ torn
  sizes : ∀ data ∈ stream.payloads, data.length < 2 ^ 32
  saved : ∃ saved, found.metaJson = some saved ∧ Saved horizon name stream saved

/-- A disk from which every stream of a storage can be recovered, and no other. -/
structure Recoverable (horizon : Timestamp) (memory : Memory.InMemoryStorage) (disk : Disk) :
    Prop where
  present : ∀ {name stream}, memory.streams.lookup name = some stream →
    name ≠ "" ∧ ∃ found, disk.lookup (encodeName name) = some found ∧
      Kept horizon name stream found
  absent : ∀ {name found}, memory.streams.lookup name = none →
    disk.lookup (encodeName name) = some found → found.metaJson = none ∧ found.logBytes = []
  dirs : ∀ {dir found}, disk.lookup dir = some found → ∃ name, name ≠ "" ∧ dir = encodeName name

/-- What a restart makes of a stream. -/
inductive Restarted (now horizon : Timestamp) :
    Option Memory.StreamEntry → Option Memory.StreamEntry → Prop
  | absent : Restarted now horizon none none
  | expired {stream : Memory.StreamEntry} (hexpired : isStreamExpired now stream.config = true) :
      Restarted now horizon (some stream) none
  | live {stream : Memory.StreamEntry} (producers : HashMap ProducerState)
      (hlive : isStreamExpired now stream.config = false)
      (hproducers : cleanupStaleProducers horizon producers =
        cleanupStaleProducers horizon stream.producers) :
      Restarted now horizon (some stream) (some { stream with producers := producers })

variable {config : Config} {now horizon : Timestamp} {name : String}
  {memory : Memory.InMemoryStorage} {file : FileStorage} {disk : Disk}
  {stream after : Memory.StreamEntry} {found : Dir}

/-- A stream that comes back is one of the original that has not expired. -/
theorem Restarted.some_inv {before : Option Memory.StreamEntry}
    (h : Restarted now horizon before (some after)) :
    ∃ stream producers, before = some stream ∧ isStreamExpired now stream.config = false ∧
      after = { stream with producers := producers } ∧
      cleanupStaleProducers horizon producers =
        cleanupStaleProducers horizon stream.producers := by
  cases h with
  | live producers hlive hproducers => exact ⟨_, producers, rfl, hlive, rfl, hproducers⟩

/-- The log of a stored stream. -/
theorem Logged.log_bytes (h : Logged stream found) :
    found.logBytes = encodeRecords stream.payloads := by
  rw [Dir.logBytes, h.log, Option.getD_some]

/-- A stored stream can be recovered. -/
theorem Stored.kept (h : Stored horizon name stream found) : Kept horizon name stream found :=
  ⟨⟨[], .inl (by decide), by rw [h.toLogged.log_bytes, List.append_nil]⟩, h.sizes, h.saved⟩

/-- The streams of a tracked storage can be recovered from its disk. -/
theorem Related.recoverable (h : Related horizon memory file) :
    Recoverable horizon memory file.disk where
  present hlookup := by
    obtain ⟨-, found, hname, -, hfound, hstored⟩ := h.present hlookup
    exact ⟨hname, found, hfound, hstored.kept⟩
  absent hlookup hfound := (h.absent hlookup).2 _ hfound
  dirs hfound := h.dirs _ _ hfound

/-- So they can from a disk that differs in the directory of one stream, if this stream can be
recovered from it. -/
theorem Recoverable.replace {disk' : Disk} (h : Recoverable horizon memory disk)
    (hlookup : memory.streams.lookup name = some stream)
    (hdirs : ∀ dir, dir ≠ encodeName name → disk'.lookup dir = disk.lookup dir)
    (hfound : disk'.lookup (encodeName name) = some found) (hkept : Kept horizon name stream found) :
    Recoverable horizon memory disk' := by
  have hother {other : String} (hne : other ≠ name) :
      disk'.lookup (encodeName other) = disk.lookup (encodeName other) :=
    hdirs _ fun heq => hne (encode_name_inj heq)
  refine ⟨fun {other} stream' hstream' => ?_, fun {other} dir hnone hdir => ?_,
    fun {dir} changed hchanged => ?_⟩
  · by_cases heq : other = name
    · subst heq
      obtain rfl := Option.some.inj (hlookup.symm.trans hstream')
      exact ⟨(h.present hlookup).1, found, hfound, hkept⟩
    · rw [hother heq]
      exact h.present hstream'
  · have hne : other ≠ name := by
      rintro rfl
      rw [hlookup] at hnone
      cases hnone
    exact h.absent hnone (hother hne ▸ hdir)
  · by_cases heq : dir = encodeName name
    · exact ⟨name, (h.present hlookup).1, heq⟩
    · exact h.dirs (hdirs dir heq ▸ hchanged)

/-- The metadata on disk names the streams their directories belong to. -/
theorem Recoverable.wellNamed (h : Recoverable horizon memory disk) : WellNamed disk := by
  intro dir found saved hfound hjson
  obtain ⟨name, -, rfl⟩ := h.dirs hfound
  cases hlookup : memory.streams.lookup name with
  | none =>
      rw [(h.absent hlookup hfound).1] at hjson
      cases hjson
  | some stream =>
      obtain ⟨-, dir, hdir, hkept⟩ := h.present hlookup
      obtain rfl := Option.some.inj (hfound.symm.trans hdir)
      obtain ⟨persisted, hpersisted, hsaved⟩ := hkept.saved
      obtain rfl := Option.some.inj (hjson.symm.trans hpersisted)
      rw [hsaved.name]

/-- The entry recovered from a log of these payloads and this metadata. -/
def recovered (dir : String) (payloads : List Bytes) (saved : StreamMeta) : StreamEntry where
  config := saved.config
  index := indexOf payloads
  closed := saved.closed
  nextReadSeq := wrap64 payloads.length
  nextByteOffset := payloadBytes payloads
  totalBytes := payloadBytes payloads
  createdAt := saved.createdAt
  producers := saved.producers
  notify := 0
  lastSeq := saved.lastSeq
  fileLen := (encodeRecords payloads).length
  dir := dir

/-- A live stream is recovered from its complete records and its metadata. -/
theorem revive_eq (dir : String) {payloads : List Bytes} {torn : Bytes} {saved : StreamMeta}
    (htorn : Torn torn) (hsizes : ∀ data ∈ payloads, data.length < 2 ^ 32)
    (hbytes : payloadBytes payloads < 2 ^ 64)
    (hlog : found.logBytes = encodeRecords payloads ++ torn) (hjson : found.metaJson = some saved)
    (hlive : isStreamExpired now saved.config = false) :
    revive now dir found = some (recovered dir payloads saved) := by
  simp only [revive, hjson, hlive, Bool.false_eq_true, ↓reduceIte, loadEntry, hlog,
    rebuild_index_eq htorn hsizes hbytes]
  rfl

/-- Loading a directory gives back the entry of the stream, with the producers that were saved. -/
theorem load_entry_eq {saved : StreamMeta} (hkept : Kept horizon name stream found)
    (hsaved : Saved horizon name stream saved) (hstream : Memory.WellFormed stream)
    (hbytes : stream.totalBytes < 2 ^ 64) :
    loadEntry (encodeName name) found.logBytes saved =
      .ofMemory name 0 { stream with producers := saved.producers } := by
  obtain ⟨torn, htorn, hlog⟩ := hkept.log
  have hlength : stream.payloads.length = stream.messages.length := List.length_map _
  have hrebuilt : rebuildIndex found.logBytes = rebuiltOf stream.payloads := by
    rw [hlog]
    exact rebuild_index_eq htorn hkept.sizes (hstream.totalBytes ▸ hbytes)
  have hnext : stream.nextByteOffset = stream.totalBytes := by
    rw [hstream.nextByteOffset, hstream.totalBytes]
  simp only [loadEntry, hrebuilt, rebuiltOf, hsaved.config, hsaved.closed, hsaved.createdAt,
    hsaved.lastSeq, hlength, ← hstream.nextReadSeq, ← hstream.totalBytes]
  simp only [StreamEntry.ofMemory, Memory.StreamEntry.payloads, hnext]

/-- Storages that hold the same streams count the same bytes. -/
theorem total_of_slots {entries : HashMap StreamEntry} {streams : HashMap Memory.StreamEntry}
    (h : ∀ name, ∃ dir, Slotted horizon name (streams.lookup name) (entries.lookup name) dir) :
    FiniteMap.total StreamEntry.totalBytes entries =
      FiniteMap.total Memory.StreamEntry.totalBytes streams := by
  refine Nat.le_antisymm (FiniteMap.total_le_total fun name entry hentry => ?_)
    (FiniteMap.total_le_total fun name stream hstream => ?_)
  · obtain ⟨dir, hslot⟩ := h name
    rw [hentry] at hslot
    generalize streams.lookup name = stream at hslot ⊢
    cases hslot with
    | present => exact ⟨_, rfl, Nat.le_refl _⟩
  · obtain ⟨dir, hslot⟩ := h name
    rw [hstream] at hslot
    generalize entries.lookup name = entry at hslot ⊢
    cases hslot with
    | present => exact ⟨_, rfl, Nat.le_refl _⟩

/-- Opening the directory of a stream gives the stream back, or removes it if it has expired. -/
theorem Kept.restarted (now : Timestamp) (hkept : Kept horizon name stream found) (hname : name ≠ "")
    (hstream : Memory.WellFormed stream) (hbytes : stream.totalBytes < 2 ^ 64) :
    ∃ restarted, Restarted now horizon (some stream) restarted ∧
      Slotted horizon name restarted (revive now (encodeName name) found)
        (remains now (encodeName name) found) := by
  obtain ⟨saved, hjson, hsaved⟩ := hkept.saved
  have hentry := load_entry_eq hkept hsaved hstream hbytes
  simp only [revive, remains, hjson, hsaved.config, hentry]
  split
  · next hexpired => exact ⟨none, .expired hexpired, .absent (by simp)⟩
  · next hlive =>
      refine ⟨_, .live saved.producers (by simpa using hlive) hsaved.producers,
        .present 0 hname ⟨⟨?_, hkept.sizes⟩, saved, rfl, hsaved.name, hsaved.config,
          hsaved.closed, hsaved.createdAt, hsaved.lastSeq, rfl⟩⟩
      obtain ⟨torn, -, hlog⟩ := hkept.log
      dsimp only
      rw [hlog, StreamEntry.ofMemory_fileLen]
      exact congrArg some List.take_left

/-- Opening a disk gives back the streams that can be recovered from it. -/
theorem reopen_related (now : Timestamp) {listing : List String}
    (hinv : Memory.Invariant config.limits memory) (h : Recoverable horizon memory disk)
    (hlisting : Lists listing disk) :
    ∃ restarted, Memory.Invariant config.limits restarted ∧
      Related horizon restarted (reopen now listing disk) ∧
      ∀ name, Restarted now horizon (memory.streams.lookup name)
        (restarted.streams.lookup name) := by
  have hloading := reopen_loads now hlisting h.wellNamed
  have hmax := config.limits.maxTotalBytes.toNat_lt
  have hglobal := hinv.globalLimit
  have hslots (name : String) : ∃ restarted,
      Restarted now horizon (memory.streams.lookup name) restarted ∧
      Slotted horizon name restarted ((reopen now listing disk).streams.lookup name)
        ((reopen now listing disk).disk.lookup (encodeName name)) := by
    rw [hloading.streams, if_neg List.not_mem_nil, hloading.dirs, if_neg List.not_mem_nil]
    cases hlookup : memory.streams.lookup name with
    | none =>
        refine ⟨none, .absent, ?_⟩
        cases hfound : disk.lookup (encodeName name) with
        | none => exact .absent (by simp)
        | some found =>
            obtain ⟨hjson, hlog⟩ := h.absent hlookup hfound
            simp only [Option.bind_some, revive, remains, hjson]
            exact .absent (by simpa using ⟨hjson, hlog⟩)
    | some stream =>
        obtain ⟨hname, found, hfound, hkept⟩ := h.present hlookup
        rw [hfound]
        have hle := hinv.stream_le_total hlookup
        exact hkept.restarted now hname (hinv.wellFormed hlookup) (by omega)
  choose value hrestarted hslotted using hslots
  obtain ⟨streams, hstreams⟩ := FiniteMap.exists_of_keys memory.streams.keys.toList value
    fun name hsome => by
      obtain ⟨after, hafter⟩ := Option.isSome_iff_exists.mp hsome
      obtain ⟨stream, -, hstream, -⟩ := (hafter ▸ hrestarted name).some_inv
      rw [Finset.mem_toList, Finmap.mem_keys, ← Finmap.lookup_isSome, hstream]
      rfl
  have hsome {name : String} {after : Memory.StreamEntry} (hafter : streams.lookup name = some after) :
      ∃ stream producers, memory.streams.lookup name = some stream ∧
        after = { stream with producers := producers } := by
    have hvalue := hrestarted name
    rw [← hstreams, hafter] at hvalue
    obtain ⟨stream, producers, hstream, -, heq, -⟩ := hvalue.some_inv
    exact ⟨stream, producers, hstream, heq⟩
  -- What has come back is part of the original, so no limit is exceeded and the sum is exact.
  have hle : FiniteMap.total Memory.StreamEntry.totalBytes streams ≤ memory.totalBytes := by
    rw [hinv.total]
    refine FiniteMap.total_le_total fun name after hafter => ?_
    obtain ⟨stream, producers, hstream, rfl⟩ := hsome hafter
    exact ⟨stream, hstream, Nat.le_refl _⟩
  refine ⟨⟨streams, FiniteMap.total Memory.StreamEntry.totalBytes streams⟩,
    ⟨?_, ?_, rfl, hle.trans hglobal⟩, ⟨?_, ?_, ?_⟩, ?_⟩
  · intro name after hafter
    obtain ⟨stream, producers, hstream, rfl⟩ := hsome hafter
    have hsame : Memory.SameLog stream { stream with producers := producers } :=
      ⟨rfl, rfl, rfl, rfl, rfl, rfl⟩
    exact hsame.wellFormed (hinv.wellFormed hstream)
  · intro name after hafter
    obtain ⟨stream, producers, hstream, rfl⟩ := hsome hafter
    have hlimit := hinv.streamLimit hstream
    exact hlimit
  · have hsum : FiniteMap.total StreamEntry.totalBytes (reopen now listing disk).streams =
        FiniteMap.total Memory.StreamEntry.totalBytes streams :=
      total_of_slots fun name => ⟨_, hstreams name ▸ hslotted name⟩
    have htotal := hloading.total
    dsimp only
    omega
  · intro name
    rw [hstreams]
    exact hslotted name
  · intro dir found hfound
    rw [hloading.dirs, if_neg List.not_mem_nil] at hfound
    obtain ⟨before, hbefore, -⟩ := Option.bind_eq_some_iff.mp hfound
    exact h.dirs hbefore
  · intro name
    rw [hstreams]
    exact hrestarted name

/-! ## Reachable storages -/

/-- The storages reached by calls and restarts, where no call cleans up producers later than at
`horizon` and byte totals fit in 64 bits. -/
inductive Reached (config : Config) (horizon : Timestamp) : FileStorage → Prop
  | new : Reached config horizon .new
  | step {file : FileStorage} (h : Reached config horizon file) (call : Call)
      (hclock : call.clock.cleanup ≤ horizon)
      (hfits : file.totalBytes + payloadBytes call.op.messages < 2 ^ 64) :
      Reached config horizon (step config .none call file).2
  | reopen {file : FileStorage} (h : Reached config horizon file) (now : Timestamp)
      (listing : List String) (hlisting : Lists listing file.disk) :
      Reached config horizon (reopen now listing file.disk)

/-- They are all tracked. -/
theorem Reached.tracked (h : Reached config horizon file) : Tracked config horizon file := by
  induction h with
  | new => exact ⟨.new, .new config.limits, .new horizon⟩
  | step _ call hclock hfits ih => exact step_tracked ih hclock hfits
  | reopen _ now listing hlisting ih =>
      obtain ⟨memory, hinv, hrelated⟩ := ih
      obtain ⟨restarted, hinv', hrelated', -⟩ :=
        reopen_related now hinv hrelated.recoverable hlisting
      exact ⟨restarted, hinv', hrelated'⟩

end DurableStreams.File
