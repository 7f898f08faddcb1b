import DurableStreams.Storage.File.Mirror

/-!
# The file backend refines the in-memory backend

`Related` ties a file-backed storage to an in-memory one: under every name both hold the same
stream, and the directory of that name stores it. `step_mirrors` is the step lemma: a call with no
failing file-system call is answered alike by both and keeps them related. `exec_mirrors` is the run
lemma.
-/

namespace DurableStreams.File

open Lib

/-- The storage on an empty directory. -/
def FileStorage.new : FileStorage := ⟨∅, 0, ∅⟩

/-- What the two backends and the disk hold under one name. A create whose data was refused leaves a
directory without metadata behind. -/
inductive Slotted (horizon : Timestamp) (name : String) :
    Option Memory.StreamEntry → Option StreamEntry → Option Dir → Prop
  | absent {found : Option Dir}
      (hfound : ∀ dir, found = some dir → dir.metaJson = none ∧ dir.logBytes = []) :
      Slotted horizon name none none found
  | present {stream : Memory.StreamEntry} (notify : Nat) {dir : Dir} (hname : name ≠ "")
      (hstored : Stored horizon name stream dir) :
      Slotted horizon name (some stream) (some (.ofMemory name notify stream)) (some dir)

/-- A file-backed storage holds what an in-memory storage holds, in memory and on disk. -/
structure Related (horizon : Timestamp) (memory : Memory.InMemoryStorage) (file : FileStorage) :
    Prop where
  total : file.totalBytes = memory.totalBytes
  slots : ∀ name, Slotted horizon name (memory.streams.lookup name) (file.streams.lookup name)
    (file.disk.lookup (encodeName name))
  dirs : ∀ dir found, file.disk.lookup dir = some found → ∃ name, name ≠ "" ∧ dir = encodeName name

variable {config : Config} {horizon : Timestamp} {name : String} {notify : Nat}
  {memory memory' free : Memory.InMemoryStorage} {file file' : FileStorage}
  {stream : Memory.StreamEntry} {found : Dir}

namespace Related

/-- Two empty storages are related. -/
theorem new (horizon : Timestamp) : Related horizon .new .new :=
  ⟨rfl, fun _ => .absent (by simp [FileStorage.new]), by simp [FileStorage.new]⟩

/-- What the file backend holds for a stream. -/
theorem present (h : Related horizon memory file)
    (hlookup : memory.streams.lookup name = some stream) :
    ∃ notify found, name ≠ "" ∧
      file.streams.lookup name = some (.ofMemory name notify stream) ∧
      file.disk.lookup (encodeName name) = some found ∧ Stored horizon name stream found := by
  have hslot := h.slots name
  rw [hlookup] at hslot
  generalize file.streams.lookup name = entry, file.disk.lookup (encodeName name) = dir at hslot ⊢
  cases hslot with
  | present notify hname hstored => exact ⟨notify, _, hname, rfl, rfl, hstored⟩

/-- What the file backend holds when there is no stream. -/
theorem absent (h : Related horizon memory file) (hlookup : memory.streams.lookup name = none) :
    file.streams.lookup name = none ∧
      ∀ dir, file.disk.lookup (encodeName name) = some dir →
        dir.metaJson = none ∧ dir.logBytes = [] := by
  have hslot := h.slots name
  rw [hlookup] at hslot
  generalize file.streams.lookup name = entry, file.disk.lookup (encodeName name) = dir at hslot ⊢
  cases hslot with
  | absent hfound => exact ⟨rfl, hfound⟩

/-- Producer records that are stale at the horizon are stale at every later one. -/
theorem mono {later : Timestamp} (h : Related horizon memory file) (hle : horizon ≤ later) :
    Related later memory file := by
  refine ⟨h.total, fun name => ?_, h.dirs⟩
  have hslot := h.slots name
  generalize memory.streams.lookup name = stream, file.streams.lookup name = entry,
    file.disk.lookup (encodeName name) = dir at hslot ⊢
  cases hslot with
  | absent hfound => exact .absent hfound
  | present notify hname hstored =>
      obtain ⟨saved, hjson, hsaved⟩ := hstored.saved
      refine .present notify hname ⟨hstored.toLogged, saved, hjson, { hsaved with producers := ?_ }⟩
      rw [← cleanup_cleanup hle saved.producers, hsaved.producers, cleanup_cleanup hle]

/-- Changes under one name keep the storages related when they agree under that name. -/
theorem replace (h : Related horizon memory file) (hname : name ≠ "")
    (htotal : file'.totalBytes = memory'.totalBytes)
    (hmemory : ∀ other, other ≠ name →
      memory'.streams.lookup other = memory.streams.lookup other)
    (hfile : ∀ other, other ≠ name → file'.streams.lookup other = file.streams.lookup other)
    (hdisk : ∀ dir, dir ≠ encodeName name → file'.disk.lookup dir = file.disk.lookup dir)
    (hslot : Slotted horizon name (memory'.streams.lookup name) (file'.streams.lookup name)
      (file'.disk.lookup (encodeName name))) : Related horizon memory' file' := by
  refine ⟨htotal, fun other => ?_, fun dir found hfound => ?_⟩
  · by_cases hother : other = name
    · rwa [hother]
    · rw [hmemory other hother, hfile other hother,
        hdisk _ fun heq => hother (encode_name_inj heq)]
      exact h.slots other
  · by_cases hdir : dir = encodeName name
    · exact ⟨name, hname, hdir⟩
    · exact h.dirs dir found (hdisk dir hdir ▸ hfound)

end Related

/-! ## Operations on a stream -/

section OnStream

/-- The log of a directory that is there. -/
theorem log_of_lookup (h : file.disk.lookup (encodeName name) = some found) :
    file.log (encodeName name) = found.logBytes := by
  rw [FileStorage.log, h]

/-- Sections that mirror each other make operations that do. -/
theorem with_stream_mirrors {α : Type} (body : Nat → Nat → StreamEntry → Outcome α)
    (mirrored : Nat → Memory.StreamEntry → Result α × Nat × Memory.StreamEntry)
    (h : Related horizon memory file)
    (hbody : ∀ {stream found}, name ≠ "" → memory.streams.lookup name = some stream →
      Stored horizon name stream found → ∀ notify logLen,
      Mirrors horizon name found (body memory.totalBytes logLen (.ofMemory name notify stream))
        (mirrored memory.totalBytes stream)) :
    (Memory.withStream memory name mirrored).1 = (withStream file name body).1 ∧
      Related horizon (Memory.withStream memory name mirrored).2 (withStream file name body).2 := by
  unfold Memory.withStream withStream
  cases hlookup : memory.streams.lookup name with
  | none =>
      rw [(h.absent hlookup).1]
      exact ⟨rfl, h⟩
  | some stream =>
      obtain ⟨notify, found, hname, hentry, hdir, hstored⟩ := h.present hlookup
      have hmirrors := hbody hname hlookup hstored notify (file.log (encodeName name)).length
      obtain ⟨notify', hstream⟩ := hmirrors.stream
      rw [hentry]
      dsimp only
      rw [StreamEntry.ofMemory_dir, h.total, hstream]
      refine ⟨hmirrors.result.symm, h.replace hname hmirrors.total ?_ ?_ ?_ ?_⟩
      · exact fun other hother => Finmap.lookup_insert_of_ne _ hother
      · exact fun other hother => Finmap.lookup_insert_of_ne _ hother
      · intro dir hother
        rw [lookup_within, if_neg hother]
      · dsimp only
        rw [lookup_within, if_pos rfl, hdir, Finmap.lookup_insert, Finmap.lookup_insert,
          Option.map_some]
        exact .present notify' hname hmirrors.stored

end OnStream

/-! ## Creating and deleting -/

section Creating

/-- Removing a stream removes its directory as well. -/
theorem remove_mirrors (config : Config) (h : Related horizon memory file)
    (hlookup : memory.streams.lookup name = some stream) (notify : Nat) :
    ∃ file', removeStream config .none file name (.ofMemory name notify stream) = (.ok (), file') ∧
      Related horizon (Memory.removeStream memory name stream) file' := by
  obtain ⟨-, -, hname, -, -, -⟩ := h.present hlookup
  have hdir : validateStreamDir config (StreamEntry.ofMemory name notify stream).dir = .ok () :=
    validate_stream_dir_ok config (encode_name_ne hname)
  simp only [removeStream, hdir, Faults.none]
  refine ⟨_, rfl, h.replace hname ?_ ?_ ?_ ?_ ?_⟩
  · exact congrArg (· - stream.totalBytes) h.total
  · exact fun other hother => Finmap.lookup_erase_ne hother
  · exact fun other hother => Finmap.lookup_erase_ne hother
  · exact fun dir hother => Finmap.lookup_erase_ne hother
  · dsimp only [Memory.removeStream]
    rw [StreamEntry.ofMemory_dir, Finmap.lookup_erase, Finmap.lookup_erase, Finmap.lookup_erase]
    exact .absent (by simp)

/-- A create finds the same under its name in both backends. -/
theorem claim_mirrors (config : Config) (clock : Clock) (name : String)
    (h : Related horizon memory file) :
    (∃ stream notify, Memory.claimName clock memory name = .occupied stream ∧
      claimName config .none clock file name = .occupied (.ofMemory name notify stream)) ∨
    ∃ free file', Memory.claimName clock memory name = .vacant free ∧
      claimName config .none clock file name = .vacant file' ∧ Related horizon free file' ∧
      free.streams.lookup name = none := by
  unfold Memory.claimName claimName
  cases hlookup : memory.streams.lookup name with
  | none =>
      rw [(h.absent hlookup).1]
      exact .inr ⟨memory, file, rfl, rfl, h, hlookup⟩
  | some stream =>
      obtain ⟨notify, found, hname, hentry, -, -⟩ := h.present hlookup
      rw [hentry]
      dsimp only
      rw [StreamEntry.ofMemory_config]
      split
      · obtain ⟨file', hremove, hrelated⟩ := remove_mirrors config h hlookup notify
        rw [hremove]
        exact .inr ⟨_, file', rfl, rfl, hrelated, Finmap.lookup_erase _ _⟩
      · exact .inl ⟨stream, notify, rfl, rfl⟩

/-- Preparing the directory of a new stream leaves the storages related. -/
theorem prepare_mirrors (config : Config) (clock : Clock) (streamConfig : StreamConfig)
    (h : Related horizon memory file) (hname : name ≠ "")
    (hfree : memory.streams.lookup name = none) :
    ∃ file' found,
      prepareEntry config .none clock file name streamConfig =
        (.ok (.ofMemory name 0 (.new clock.stamp streamConfig)), file') ∧
      Related horizon memory file' ∧ file'.disk.lookup (encodeName name) = some found ∧
      Logged (.new clock.stamp streamConfig) found := by
  obtain ⟨hentry, hresidue⟩ := h.absent hfree
  -- A directory that is already there holds nothing.
  obtain ⟨found, hfound, hjson, hlog⟩ : ∃ found,
      (file.disk.lookup (encodeName name)).getD .empty = found ∧ found.metaJson = none ∧
        found.logBytes = [] := by
    cases hdir : file.disk.lookup (encodeName name) with
    | none => exact ⟨.empty, rfl, rfl, rfl⟩
    | some found => exact ⟨found, rfl, hresidue found hdir⟩
  have hdir := encode_name_ne hname
  have hdisk (other : String) : (Disk.within (encodeName name) [.openLog]
      (Disk.createDir (encodeName name) file.disk)).lookup other =
      if other = encodeName name then some (found.run [.openLog]) else file.disk.lookup other := by
    rw [lookup_within, lookup_create_dir _ hdir, if_pos rfl, hfound, Option.map_some,
      lookup_create_dir _ hdir]
    split <;> rfl
  have hopen : (found.run [.openLog]).logBytes = [] := hlog
  simp only [prepareEntry, stream_dir_for_name_eq, validate_stream_dir_ok config hdir, Faults.none,
    FileStorage.act, FileStorage.log, hdisk, ↓reduceIte, hopen]
  refine ⟨_, found.run [.openLog], rfl, h.replace hname h.total (fun _ _ => rfl) (fun _ _ => rfl)
    ?_ ?_, ?_, ⟨congrArg some hlog, ?_⟩⟩
  · intro other hother
    rw [hdisk, if_neg hother]
  · dsimp only
    rw [hfree, hentry, hdisk, if_pos rfl]
    refine .absent fun dir hsome => ?_
    obtain rfl := Option.some.inj hsome
    exact ⟨hjson, hopen⟩
  · dsimp only
    rw [hdisk, if_pos rfl]
  · simp [Memory.StreamEntry.payloads, Memory.StreamEntry.new]

/-- Installing a stream whose log is in its directory. -/
theorem install_mirrors {α : Type} (config : Config) (reply : α) (notify : Nat)
    (file' : FileStorage) (h : Related horizon memory file) (hname : name ≠ "")
    (hstreams : file'.streams = file.streams)
    (hdisk : ∀ dir, dir ≠ encodeName name → file'.disk.lookup dir = file.disk.lookup dir)
    (hfound : file'.disk.lookup (encodeName name) = some found) (hlogged : Logged stream found) :
    ∃ installed,
      installEntry config .none file' name (.ofMemory name notify stream) reply =
        (.ok reply, installed) ∧
      Related horizon ⟨memory.streams.insert name stream, file'.totalBytes⟩ installed := by
  rw [installEntry, write_metadata_for_eq config hname]
  refine ⟨_, rfl, h.replace hname rfl ?_ ?_ ?_ ?_⟩
  · exact fun other hother => Finmap.lookup_insert_of_ne _ hother
  · intro other hother
    exact (Finmap.lookup_insert_of_ne _ hother).trans (by rw [hstreams])
  · intro dir hother
    simp only [FileStorage.act, StreamEntry.ofMemory_dir]
    rw [lookup_within, if_neg hother, hdisk dir hother]
  · simp only [FileStorage.act, StreamEntry.ofMemory_dir]
    rw [lookup_within, if_pos rfl, hfound, Finmap.lookup_insert, Finmap.lookup_insert,
      Option.map_some]
    exact .present notify hname (hlogged.persist horizon name)

/-- Both backends create a stream alike. -/
theorem create_stream_mirrors (config : Config) (clock : Clock) (streamConfig : StreamConfig)
    (h : Related horizon memory file) (hname : name ≠ "") :
    (Memory.createStream clock memory name streamConfig).1 =
        (createStream config .none clock file name streamConfig).1 ∧
      Related horizon (Memory.createStream clock memory name streamConfig).2
        (createStream config .none clock file name streamConfig).2 := by
  unfold Memory.createStream createStream
  obtain ⟨stream, notify, hmemory, hfile⟩ | ⟨free, file', hmemory, hfile, hrelated, hfree⟩ :=
    claim_mirrors config clock name h
  · rw [hmemory, hfile]
    dsimp only
    rw [StreamEntry.ofMemory_config]
    split <;> exact ⟨rfl, h⟩
  · obtain ⟨prepared, found, hprepare, hprepared, hfound, hlogged⟩ :=
      prepare_mirrors config clock streamConfig hrelated hname hfree
    obtain ⟨installed, hinstall, hinstalled⟩ := install_mirrors config CreateStreamResult.created 0
      prepared hprepared hname rfl (fun _ _ => rfl) hfound hlogged
    rw [hmemory, hfile]
    dsimp only
    rw [hprepare]
    dsimp only
    rw [hinstall, ← hprepared.total]
    exact ⟨rfl, hinstalled⟩

/-- Both backends create a stream with data alike. -/
theorem create_with_data_mirrors (config : Config) (clock : Clock) (streamConfig : StreamConfig)
    (shouldClose : Bool) {messages : List Bytes} (h : Related horizon memory file)
    (hname : name ≠ "") (hsizes : ∀ data ∈ messages, data.length < 2 ^ 32)
    (hfits : memory.totalBytes + payloadBytes messages < 2 ^ 64) :
    (Memory.createStreamWithData config.limits clock memory name streamConfig messages
        shouldClose).1 =
        (createStreamWithData config .none clock file name streamConfig messages shouldClose).1 ∧
      Related horizon
        (Memory.createStreamWithData config.limits clock memory name streamConfig messages
          shouldClose).2
        (createStreamWithData config .none clock file name streamConfig messages
          shouldClose).2 := by
  unfold Memory.createStreamWithData createStreamWithData
  obtain ⟨stream, notify, hmemory, hfile⟩ | ⟨free, file', hmemory, hfile, hrelated, hfree⟩ :=
    claim_mirrors config clock name h
  · rw [hmemory, hfile]
    dsimp only
    rw [StreamEntry.ofMemory_config]
    split <;> exact ⟨rfl, h⟩
  · obtain ⟨prepared, found, hprepare, hprepared, hfound, hlogged⟩ :=
      prepare_mirrors config clock streamConfig hrelated hname hfree
    have hle : free.totalBytes ≤ memory.totalBytes := by
      obtain ⟨-, rfl⟩ | ⟨old, -, -, rfl⟩ := Memory.claim_name_vacant hmemory
      · exact Nat.le_refl _
      · exact Nat.sub_le _ _
    rw [hmemory, hfile]
    dsimp only
    rw [hprepare]
    dsimp only
    rw [hprepared.total, StreamEntry.ofMemory_dir]
    obtain ⟨error, hcommit, happend⟩ | ⟨total, after, notify, hcommit, happend, hstores⟩ :=
      append_records_cases config name 0 (prepared.log (encodeName name)).length
        (Memory.WellFormed.new clock.stamp streamConfig) (Nat.zero_le free.totalBytes) hsizes
        (by omega)
    · rw [hcommit, happend]
      refine ⟨rfl, rfl, ?_, ?_⟩ <;> simp only [FileStorage.act, within_nil]
      · exact hprepared.slots
      · exact hprepared.dirs
    · rw [hcommit, happend]
      dsimp only
      rw [of_memory_close_if]
      have hdisk : ∀ dir, dir ≠ encodeName name →
          (Disk.within (encodeName name) (logActions messages) prepared.disk).lookup dir =
            prepared.disk.lookup dir := fun dir hother => by rw [lookup_within, if_neg hother]
      have hwritten : (Disk.within (encodeName name) (logActions messages) prepared.disk).lookup
          (encodeName name) = some (found.run (logActions messages)) := by
        rw [lookup_within, if_pos rfl, hfound, Option.map_some]
      obtain ⟨installed, hinstall, hinstalled⟩ := install_mirrors config
        (CreateWithDataResult.mk .created (after.closeIf shouldClose).nextOffset
          (after.closeIf shouldClose).closed) notify
        { prepared.act (encodeName name) (logActions messages) with totalBytes := total } hprepared
        hname rfl hdisk hwritten
        ((hlogged.append hstores.payloads hsizes).same (.closeIf shouldClose after))
      have hreply : CreateWithDataResult.mk .created
          (StreamEntry.ofMemory name notify (after.closeIf shouldClose)).nextOffset
          (StreamEntry.ofMemory name notify (after.closeIf shouldClose)).closed =
          ⟨.created, (after.closeIf shouldClose).nextOffset,
            (after.closeIf shouldClose).closed⟩ := rfl
      rw [hreply, hinstall]
      exact ⟨rfl, hinstalled⟩

end Creating

/-! ## Runs -/

section Runs

/-- Some instant is not before any clock reading of a run. -/
theorem exists_horizon (calls : List Call) :
    ∃ horizon : Timestamp, ∀ call ∈ calls, call.clock.cleanup ≤ horizon := by
  induction calls with
  | nil => exact ⟨0, by simp⟩
  | cons call calls ih =>
      obtain ⟨horizon, hle⟩ := ih
      refine ⟨max call.clock.cleanup horizon, fun other hother => ?_⟩
      rcases List.mem_cons.mp hother with rfl | hmem
      · exact le_max_left _ _
      · exact (hle other hmem).trans (le_max_right _ _)

/-- The calls the backends are compared on: a named stream, messages that fit the record format,
totals that fit in 64 bits, and a clock that does not run past the horizon. Subscriptions are left
out, because a plain append wakes subscribers in the file backend only. -/
structure Admissible (horizon : Timestamp) (call : Call) (memory : Memory.InMemoryStorage) :
    Prop where
  named : call.op.name ≠ ""
  sizes : ∀ data ∈ call.op.messages, data.length < 2 ^ 32
  fits : memory.totalBytes + payloadBytes call.op.messages < 2 ^ 64
  clock : call.clock.cleanup ≤ horizon
  op : call.op ≠ .subscribe call.op.name

/-- A read is answered alike by both backends. -/
theorem read_mirrors (clock : Clock) (name : String) (fromOffset : Offset)
    (hinv : Memory.Invariant config.limits memory) (h : Related horizon memory file) :
    (Memory.step config.limits ⟨clock, .read name fromOffset⟩ memory).1 =
      (step config .none ⟨clock, .read name fromOffset⟩ file).1 := by
  simp only [Memory.step, step, Memory.readStream, readStream]
  cases hlookup : memory.streams.lookup name with
  | none => rw [(h.absent hlookup).1]
  | some stream =>
      obtain ⟨notify, found, -, hentry, hdir, hstored⟩ := h.present hlookup
      rw [hentry]
      dsimp only
      rw [StreamEntry.ofMemory_dir, log_of_lookup hdir,
        read_section_mirrors clock fromOffset notify hstored (hinv.wellFormed hlookup)]

/-- A head request is answered alike by both backends. -/
theorem head_mirrors (clock : Clock) (name : String) (h : Related horizon memory file) :
    (Memory.step config.limits ⟨clock, .head name⟩ memory).1 =
      (step config .none ⟨clock, .head name⟩ file).1 := by
  simp only [Memory.step, step, Memory.readStream, readStream]
  cases hlookup : memory.streams.lookup name with
  | none => rw [(h.absent hlookup).1]
  | some stream =>
      obtain ⟨notify, found, -, hentry, -, -⟩ := h.present hlookup
      rw [hentry]
      have hcount : (indexOf stream.payloads).length = stream.messages.length := by
        rw [length_index_of, Memory.StreamEntry.payloads, List.length_map]
      simp only [Memory.headSection, headSection, StreamEntry.ofMemory_config,
        StreamEntry.ofMemory_index, hcount]
      rfl

/-- One call is answered alike by both backends and keeps them related. -/
theorem step_mirrors {call : Call} (hinv : Memory.Invariant config.limits memory)
    (h : Related horizon memory file) (hcall : Admissible horizon call memory) :
    (Memory.step config.limits call memory).1 = (step config .none call file).1 ∧
      Related horizon (Memory.step config.limits call memory).2
        (step config .none call file).2 := by
  obtain ⟨clock, op⟩ := call
  have hsizes := hcall.sizes
  have hfits := hcall.fits
  cases op with
  | createStream name streamConfig =>
      obtain ⟨hreply, hrelated⟩ := create_stream_mirrors config clock streamConfig h hcall.named
      exact ⟨congrArg Reply.created hreply, hrelated⟩
  | createStreamWithData name streamConfig messages shouldClose fits =>
      obtain ⟨hreply, hrelated⟩ := create_with_data_mirrors config clock streamConfig shouldClose h
        hcall.named hsizes hfits
      exact ⟨congrArg Reply.createdWithData hreply, hrelated⟩
  | append name data contentType fits =>
      obtain ⟨hreply, hrelated⟩ := with_stream_mirrors
        (appendSection config .none clock name data contentType)
        (Memory.appendSection config.limits clock data contentType) h
        fun hname hlookup hstored notify logLen =>
          append_section_mirrors config clock contentType notify logLen hstored
            (hinv.wellFormed hlookup) (hinv.stream_le_total hlookup)
            (hsizes data (List.mem_singleton_self data))
            (by simpa [Op.messages, payloadBytes] using hfits)
      exact ⟨congrArg Reply.offset hreply, hrelated⟩
  | batchAppend name messages contentType seq fits =>
      simp only [Memory.step, step, Memory.batchAppend, batchAppend]
      split
      · exact ⟨rfl, h⟩
      · obtain ⟨hreply, hrelated⟩ := with_stream_mirrors _ _ h
          fun hname hlookup hstored notify logLen =>
            batch_append_section_mirrors config clock contentType seq notify logLen hname hstored
              (hinv.wellFormed hlookup) (hinv.stream_le_total hlookup) hsizes hfits
        exact ⟨congrArg Reply.offset hreply, hrelated⟩
  | appendWithProducer name messages contentType producer shouldClose seq fits =>
      obtain ⟨hreply, hrelated⟩ := with_stream_mirrors _ _ h
        fun hname hlookup hstored notify logLen =>
          producer_section_mirrors config clock contentType producer shouldClose seq notify logLen
            hname hcall.clock hstored (hinv.wellFormed hlookup) (hinv.stream_le_total hlookup)
            hsizes hfits
      exact ⟨congrArg Reply.producer hreply, hrelated⟩
  | closeStream name =>
      obtain ⟨hreply, hrelated⟩ := with_stream_mirrors
        (fun total _ => closeSection config .none clock name total) (Memory.closeSection clock) h
        fun hname hlookup hstored notify _ =>
          close_section_mirrors config clock notify memory.totalBytes hname hstored
      exact ⟨congrArg Reply.done hreply, hrelated⟩
  | delete name =>
      simp only [Memory.step, step, Memory.delete, delete]
      cases hlookup : memory.streams.lookup name with
      | none =>
          rw [(h.absent hlookup).1]
          exact ⟨rfl, h⟩
      | some stream =>
          obtain ⟨notify, found, -, hentry, -, -⟩ := h.present hlookup
          obtain ⟨file', hremove, hrelated⟩ := remove_mirrors config h hlookup notify
          rw [hentry]
          dsimp only
          rw [hremove]
          exact ⟨rfl, hrelated⟩
  | read name fromOffset => exact ⟨read_mirrors clock name fromOffset hinv h, h⟩
  | head name => exact ⟨head_mirrors clock name h, h⟩
  | «exists» name =>
      simp only [Memory.step, step, Memory.existsStream, existsStream]
      cases hlookup : memory.streams.lookup name with
      | none =>
          rw [(h.absent hlookup).1]
          exact ⟨rfl, h⟩
      | some stream =>
          obtain ⟨notify, found, -, hentry, -, -⟩ := h.present hlookup
          rw [hentry]
          exact ⟨rfl, h⟩
  | subscribe name => exact absurd rfl hcall.op

/-- A run of such calls is answered alike by both backends and leaves them related. -/
theorem exec_mirrors {calls : List Call} (hinv : Memory.Invariant config.limits memory)
    (h : Related horizon memory file)
    (hcalls : Along (Memory.step config.limits) (Admissible horizon) calls memory) :
    (exec (Memory.step config.limits) calls memory).1 = (exec (step config .none) calls file).1 ∧
      Related horizon (exec (Memory.step config.limits) calls memory).2
        (exec (step config .none) calls file).2 := by
  have hrun := exec_simulation
    (fun memory file => Memory.Invariant config.limits memory ∧ Related horizon memory file)
    (fun call memory file hcall hrelated => by
      obtain ⟨hreply, hnext⟩ := step_mirrors hrelated.1 hrelated.2 hcall
      exact ⟨hreply, Memory.step_invariant call hrelated.1, hnext⟩)
    hcalls ⟨hinv, h⟩
  exact ⟨hrun.1, hrun.2.2⟩

/-- The byte totals of a run stay within 64 bits. -/
def TotalsFit (limits : Limits) (calls : List Call) : Prop :=
  Along (Memory.step limits)
    (fun call memory => memory.totalBytes + payloadBytes call.op.messages < 2 ^ 64) calls .new

/-- With no file-system call failing, the file backend answers every run as the in-memory backend
does. -/
theorem file_storage_refines_memory (config : Config) (calls : List Call)
    (hnamed : ∀ call ∈ calls, call.op.name ≠ "")
    (hops : ∀ call ∈ calls, call.op ≠ .subscribe call.op.name)
    (hsizes : ∀ call ∈ calls, ∀ data ∈ call.op.messages, data.length ≤ 2 ^ 32 - 1)
    (htotals : TotalsFit config.limits calls) :
    (exec (step config .none) calls .new).1 = (exec (Memory.step config.limits) calls .new).1 := by
  obtain ⟨horizon, hclock⟩ := exists_horizon calls
  have hcalls : Along (Memory.step config.limits) (Admissible horizon) calls .new := by
    refine htotals.imp fun call hcall memory hfits => ?_
    refine ⟨hnamed call hcall, fun data hdata => ?_, hfits, hclock call hcall, hops call hcall⟩
    have hsize := hsizes call hcall data hdata
    omega
  exact (exec_mirrors (.new config.limits) (.new horizon) hcalls).1.symm

/-- Limits of a hundred bytes in total and ten for each stream. -/
def smallConfig : Config := ⟨⟨100, 10⟩, "streams", true⟩

/-- A storage with one empty stream. -/
def oneStream : FileStorage := (step smallConfig .none ⟨.at 0, .createStream "s" .plain⟩ .new).2

/-- Create a stream, append two messages, exceed the stream limit and read from the second one. -/
def sampleCalls : List Call :=
  [⟨.at 0, .createStream "s" .plain⟩, ⟨.at 1, .append "s" [1, 2, 3] "text/plain" (by decide)⟩,
    ⟨.at 2, .append "s" [4] "text/plain" (by decide)⟩,
    ⟨.at 3, .append "s" [5, 6, 7, 8, 9, 10, 11] "text/plain" (by decide)⟩,
    ⟨.at 4, .read "s" (.new 1 3)⟩]

/-- The file backend reads the second message back and refuses the one that does not fit. -/
theorem sample_calls_refine :
    (exec (step smallConfig .none) sampleCalls .new).1 =
      [.created (.ok .created), .offset (.ok (.new 0 0)), .offset (.ok (.new 1 3)),
        .offset (.error .streamSizeLimitExceeded),
        .read (.ok ⟨[[4]], .new 2 4, true, false⟩)] := by
  rw [file_storage_refines_memory smallConfig sampleCalls (by decide) (by decide) (by decide) ?_]
  · decide +kernel
  · refine ⟨?_, ?_, ?_, ?_, ?_, trivial⟩ <;> decide +kernel

end Runs

end DurableStreams.File
