import DurableStreams.Storage.File.Refinement
import DurableStreams.Storage.File.Sections

/-!
# Reachable file-backed storages

`Tracked` says that some in-memory storage which satisfies its own invariant holds what the
file-backed storage holds. Every call with no failing file-system call keeps a storage tracked
(`step_tracked`), also the calls only this backend refuses: those for a stream without a name and
those with a message too long for the record format. So every reachable storage is tracked
(`reachable_tracked`).
-/

namespace DurableStreams.File

open Lib

/-- Some in-memory storage holds what the file-backed storage holds. -/
def Tracked (config : Config) (horizon : Timestamp) (file : FileStorage) : Prop :=
  ∃ memory, Memory.Invariant config.limits memory ∧ Related horizon memory file

variable {config : Config} {horizon : Timestamp} {name : String} {file : FileStorage}
  {messages : List Bytes}

/-- A batch with a message that is too long for the record format. -/
def TooLong (messages : List Bytes) : Prop := ∃ data ∈ messages, 2 ^ 32 ≤ data.length

/-- Any other batch fits the record format. -/
theorem sizes_of_not_too_long (h : ¬ TooLong messages) : ∀ data ∈ messages, data.length < 2 ^ 32 := by
  intro data hdata
  by_contra hsize
  exact h ⟨data, hdata, by omega⟩

/-- A batch that is too long is refused before anything is written. -/
theorem append_records_too_long (config : Config) (faults : Faults) (name : String)
    (total logLen : Nat) (stream : StreamEntry) (hlong : TooLong messages) :
    ∃ error, appendRecords config faults name total logLen stream messages =
      ⟨.error error, total, stream, []⟩ := by
  obtain ⟨data, hdata, hsize⟩ := hlong
  have hempty : messages.isEmpty = false := by
    cases messages with
    | nil => simp at hdata
    | cons => rfl
  have hany : (messages.any fun data => 2 ^ 32 - 1 < byteLen data) = true := by
    refine List.any_eq_true.mpr ⟨data, hdata, ?_⟩
    rw [decide_eq_true_eq, byteLen]
    split <;> omega
  simp only [appendRecords, hempty, hany, Bool.false_eq_true, ↓reduceIte]
  exact ⟨_, rfl⟩

/-- A section that writes nothing, and at most drops stale producer records from its entry, keeps
the storage tracked. -/
theorem with_stream_quiet {α : Type} (body : Nat → Nat → StreamEntry → Outcome α) (name : String)
    {now : Timestamp} (hnow : now ≤ horizon) (h : Tracked config horizon file)
    (hbody : ∀ total logLen stream, ∃ result after,
      body total logLen stream = ⟨result, total, after, []⟩ ∧
        (after = stream ∨ after = stream.cleanup now)) :
    Tracked config horizon (withStream file name body).2 := by
  obtain ⟨memory, hinv, hrelated⟩ := h
  unfold withStream
  cases hlookup : memory.streams.lookup name with
  | none =>
      rw [(hrelated.absent hlookup).1]
      exact ⟨memory, hinv, hrelated⟩
  | some stream =>
      obtain ⟨notify, found, hname, hentry, hdir, hstored⟩ := hrelated.present hlookup
      rw [hentry]
      obtain ⟨result, after, houtcome, hafter⟩ := hbody file.totalBytes
        (file.log (encodeName name)).length (.ofMemory name notify stream)
      obtain ⟨kept, hkept, hsame, hstored⟩ : ∃ kept, after = .ofMemory name notify kept ∧
          Memory.SameLog stream kept ∧ Stored horizon name kept found := by
        rcases hafter with rfl | rfl
        · exact ⟨stream, rfl, .refl stream, hstored⟩
        · exact ⟨stream.cleanup now, rfl, .cleanup now stream, hstored.cleanup hnow⟩
      have hquiet := Memory.quiet_outcome (hinv.wellFormed hlookup) (hinv.streamLimit hlookup)
        hinv.globalLimit hsame
      refine ⟨⟨memory.streams.insert name kept, memory.totalBytes⟩, hinv.update hlookup hquiet, ?_⟩
      dsimp only
      rw [StreamEntry.ofMemory_dir, houtcome, hkept]
      refine hrelated.replace hname hrelated.total ?_ ?_ ?_ ?_
      · exact fun other hother => Finmap.lookup_insert_of_ne _ hother
      · exact fun other hother => Finmap.lookup_insert_of_ne _ hother
      · intro dir hother
        rw [lookup_within, if_neg hother]
      · dsimp only
        rw [lookup_within, if_pos rfl, hdir, Finmap.lookup_insert, Finmap.lookup_insert]
        exact .present notify hname hstored

/-- A section that appends a batch that is too long writes nothing. -/
theorem AppendCase.too_long {α : Type} {now : Timestamp} {total logLen : Nat} {stream : StreamEntry}
    {seq : Option String} {closes : Bool} {wrap : Result α → Reply} {outcome : Outcome α}
    (hlong : TooLong messages)
    (h : AppendCase config .none name messages seq closes now total logLen stream wrap outcome) :
    (wrap outcome.result).appended = false ∧ ∃ result after, outcome = ⟨result, total, after, []⟩ ∧
      (after = stream ∨ after = stream.cleanup now) := by
  cases h with
  | @quiet result checked hchecked hreply => exact ⟨hreply, result, checked, rfl, hchecked⟩
  | @failed checked _ _ hchecked _ _ hreply =>
      obtain ⟨_, happend⟩ := append_records_too_long config .none name total logLen checked hlong
      rw [happend]
      exact ⟨hreply, _, checked, rfl, hchecked⟩
  | @stored checked _ _ _ _ _ _ hwritten =>
      obtain ⟨_, happend⟩ := append_records_too_long config .none name total logLen checked hlong
      simp [happend] at hwritten

/-- A call for a stream without a name changes nothing. -/
theorem step_unnamed {call : Call} (h : Tracked config horizon file) (hname : call.op.name = "") :
    (step config .none call file).2 = file := by
  obtain ⟨memory, -, hrelated⟩ := h
  have hlookup : file.streams.lookup "" = none := by
    cases hmemory : memory.streams.lookup "" with
    | none => exact (hrelated.absent hmemory).1
    | some stream =>
        obtain ⟨-, -, hne, -⟩ := hrelated.present hmemory
        exact absurd rfl hne
  -- The directory of such a stream would be the storage root, which fails the depth check.
  have hdir : encodeName "" = "" := by decide +kernel
  obtain ⟨clock, op⟩ := call
  cases op <;> obtain rfl : _ = "" := hname <;>
    simp [step, createStream, createStreamWithData, claimName, prepareEntry, withStream,
      readStream, batchAppend, delete, hlookup, stream_dir_for_name_eq, hdir, Faults.none,
      Disk.createDir, validateStreamDir]
  split <;> rfl

/-- A create with data that is too long leaves at most an empty directory behind. -/
theorem create_with_data_too_long (clock : Clock) (streamConfig : StreamConfig)
    (shouldClose : Bool) (hname : name ≠ "") (h : Tracked config horizon file)
    (hlong : TooLong messages) :
    Tracked config horizon
      (createStreamWithData config .none clock file name streamConfig messages shouldClose).2 := by
  obtain ⟨memory, hinv, hrelated⟩ := h
  unfold createStreamWithData
  obtain ⟨stream, notify, -, hfile⟩ | ⟨free, file', hmemory, hfile, hvacant, hfree⟩ :=
    claim_mirrors config clock name hrelated
  · rw [hfile]
    dsimp only
    split <;> exact ⟨memory, hinv, hrelated⟩
  · obtain ⟨prepared, found, hprepare, hprepared, -, -⟩ :=
      prepare_mirrors config clock streamConfig hvacant hname hfree
    obtain ⟨error, happend⟩ := append_records_too_long config .none name prepared.totalBytes
      (prepared.log (encodeName name)).length (.ofMemory name 0 (.new clock.stamp streamConfig))
      hlong
    rw [hfile]
    dsimp only
    rw [hprepare]
    dsimp only
    rw [StreamEntry.ofMemory_dir, happend]
    simp only [FileStorage.act, within_nil]
    exact ⟨free, hinv.claim hmemory, hprepared⟩

/-- A call with a message that is too long keeps the storage tracked. -/
theorem step_too_long {call : Call} (h : Tracked config horizon file) (hname : call.op.name ≠ "")
    (hclock : call.clock.cleanup ≤ horizon) (hlong : TooLong call.op.messages) :
    Tracked config horizon (step config .none call file).2 := by
  cases hop : call.op.isAppend with
  | true =>
      obtain ⟨_, -, hstep⟩ | ⟨_, _, body, _, -, hcases, hstep⟩ := append_step config .none file hop
      · rw [hstep]
        exact h
      · rw [hstep]
        exact with_stream_quiet body _ hclock h fun total logLen stream =>
          ((hcases total logLen stream).too_long hlong).2
  | false =>
  obtain ⟨clock, op⟩ := call
  cases op with
  | append | batchAppend | appendWithProducer => cases hop
  | createStreamWithData name streamConfig messages shouldClose fits =>
      exact create_with_data_too_long clock streamConfig shouldClose hname h hlong
  | createStream | read | delete | head | closeStream | «exists» | subscribe =>
      simp [TooLong, Op.messages] at hlong

/-- Every call keeps the storage tracked, as long as the byte totals fit in 64 bits. -/
theorem step_tracked {call : Call} (h : Tracked config horizon file)
    (hclock : call.clock.cleanup ≤ horizon)
    (hfits : file.totalBytes + payloadBytes call.op.messages < 2 ^ 64) :
    Tracked config horizon (step config .none call file).2 := by
  by_cases hname : call.op.name = ""
  · rwa [step_unnamed h hname]
  by_cases hlong : TooLong call.op.messages
  · exact step_too_long h hname hclock hlong
  by_cases hop : call.op = .subscribe call.op.name
  · simp only [step]
    rw [hop]
    exact h
  obtain ⟨memory, hinv, hrelated⟩ := h
  have hcall : Admissible horizon call memory :=
    ⟨hname, sizes_of_not_too_long hlong, hrelated.total ▸ hfits, hclock, hop⟩
  exact ⟨_, Memory.step_invariant call hinv, (step_mirrors hinv hrelated hcall).2⟩

/-- The byte totals of a run stay within 64 bits. -/
def ByteTotalsFit (config : Config) (calls : List Call) : Prop :=
  Along (step config .none)
    (fun call file => file.totalBytes + payloadBytes call.op.messages < 2 ^ 64) calls .new

/-- Every storage reached by a run without failing file-system calls is tracked. -/
theorem reachable_tracked {calls : List Call} (hfits : ByteTotalsFit config calls)
    (hclock : ∀ call ∈ calls, call.clock.cleanup ≤ horizon) :
    Tracked config horizon (exec (step config .none) calls .new).2 := by
  have halong : Along (step config .none) (fun call file => call.clock.cleanup ≤ horizon ∧
      file.totalBytes + payloadBytes call.op.messages < 2 ^ 64) calls .new :=
    hfits.imp fun call hcall _ hfits => ⟨hclock call hcall, hfits⟩
  exact exec_invariant (fun _ _ hcall h => step_tracked h hcall.1 hcall.2) halong
    ⟨.new, .new config.limits, .new horizon⟩

end DurableStreams.File
