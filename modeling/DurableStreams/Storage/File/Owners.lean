import DurableStreams.Lib.Interleaving
import DurableStreams.Storage.File.Named

/-!
# Streams that are deleted and created again

An operation on a stream first finds the entry in the map and then works on it under the lock of the
entry. In between the stream may be deleted and another one created under its name. The entry lives
on for the operation that holds it. What it appends goes to its own log, which has no name any more,
but its metadata goes to the directory of the name, and that belongs to the new stream by then.

The metadata on disk describes every stream in the map as long as no such operation writes to the disk
while another stream has the name, and no request drops stale producers without being accepted
(`metadata_describes_entries`).
-/

namespace DurableStreams.File

open Lib

/-! ## Operations in flight -/

/-- An entry that was taken out of the map, with the content of its log. -/
structure Orphan where
  stream : StreamEntry
  log : Bytes
  deriving DecidableEq

/-- The storage while operations are in flight, with the entries that were taken out of the map under
a name, oldest first. -/
structure Shared where
  file : FileStorage
  removed : String → List Orphan

/-- How far an operation has got: not begun, its entry found, or returned. The entry has a number,
which is how many others of its name were removed before it. -/
inductive Phase where
  | start
  | found (number : Nat)
  | done (reply : Reply)
  deriving DecidableEq

/-- An operation in flight. -/
structure Thread where
  call : Call
  phase : Phase
  deriving DecidableEq

/-- Whether an operation calls `get_stream` and then locks the entry. -/
def looksUp : Op → Bool
  | .append .. | .appendWithProducer .. | .closeStream .. | .read .. | .head .. | .subscribe .. => true
  | .batchAppend _ messages _ _ _ => !messages.isEmpty
  | _ => false

/-- `get_stream`. -/
def getStream (call : Call) (shared : Shared) : Phase :=
  match shared.file.streams.lookup call.op.name with
  | none => .done (call.op.failure (.notFound call.op.name))
  | some _ => .found (shared.removed call.op.name).length

/-- Whether an operation takes the entry it finds out of the map: a delete, or a create that finds an
expired stream. -/
def unlinks (call : Call) (stream : StreamEntry) : Bool :=
  match call.op with
  | .delete _ => true
  | .createStream .. | .createStreamWithData .. => isStreamExpired call.clock.expiry stream.config
  | _ => false

/-- An operation that works under the lock of the map from beginning to end. -/
def underMapLock (config : Config) (call : Call) (shared : Shared) : Shared × Reply :=
  let (reply, file) := step config .none call shared.file
  let name := call.op.name
  match shared.file.streams.lookup name with
  | none => (⟨file, shared.removed⟩, reply)
  | some stream =>
      if unlinks call stream then
        (⟨file, Function.update shared.removed name
          (shared.removed name ++ [⟨stream, shared.file.log stream.dir⟩])⟩, reply)
      else (⟨file, shared.removed⟩, reply)

/-- No call fails, except that the temporary file of a metadata write cannot be created in a directory
that is gone. -/
def faultsIn (disk : Disk) (dir : String) : Faults :=
  if (disk.lookup dir).isSome then .none
  else { Faults.none with writeTmp := some "No such file or directory (os error 2)" }

/-- Whether a change goes through the open file handle of the log, and not through a path. -/
def DirAction.onLog : DirAction → Bool
  | .openLog | .appendLog _ => true
  | .writeTmp _ | .renameMeta => false

/-- Run a section on an entry that is not in the map. Its log is its own, its metadata goes to the
directory of its name. -/
def withOrphan {α : Type} (shared : Shared) (name : String) (number : Nat) (orphan : Orphan)
    (wrap : Result α → Reply) (body : Nat → Bytes → StreamEntry → Outcome α) : Shared × Reply :=
  let outcome := body shared.file.totalBytes orphan.log orphan.stream
  let log := (Dir.run (outcome.actions.filter DirAction.onLog) ⟨some orphan.log, none, none⟩).logBytes
  let metaActions := outcome.actions.filter fun action => !action.onLog
  (⟨⟨shared.file.streams, outcome.total,
      Disk.within orphan.stream.dir metaActions shared.file.disk⟩,
    Function.update shared.removed name ((shared.removed name).set number ⟨outcome.stream, log⟩)⟩,
    wrap outcome.result)

/-- The section of an operation on an entry that is not in the map. -/
def orphanSection (config : Config) (call : Call) (number : Nat) (orphan : Orphan)
    (shared : Shared) : Shared × Reply :=
  let clock := call.clock
  let faults := faultsIn shared.file.disk orphan.stream.dir
  match call.op with
  | .append name data contentType _ =>
      withOrphan shared name number orphan .offset fun total log =>
        appendSection config faults clock name data contentType total log.length
  | .batchAppend name messages contentType seq _ =>
      withOrphan shared name number orphan .offset fun total log =>
        batchAppendSection config faults clock name messages contentType seq total log.length
  | .appendWithProducer name messages contentType producer shouldClose seq _ =>
      withOrphan shared name number orphan .producer fun total log =>
        appendWithProducerSection config faults clock name messages contentType producer shouldClose
          seq total log.length
  | .closeStream name =>
      withOrphan shared name number orphan .done fun total _ =>
        closeSection config faults clock name total
  | .read _ fromOffset =>
      (shared, .read (readSection faults clock fromOffset orphan.log orphan.stream))
  | .head _ => (shared, .metadata (headSection clock orphan.stream))
  | .subscribe _ =>
      (shared, .receiver (if isStreamExpired clock.expiry orphan.stream.config then none
        else some ⟨orphan.stream.notify⟩))
  | op => (shared, op.failure (.notFound op.name))

/-- The section of an operation under the lock of the entry it has found. An entry that was not
removed is still in the map. -/
def underEntryLock (config : Config) (call : Call) (number : Nat) (shared : Shared) :
    Shared × Reply :=
  match (shared.removed call.op.name)[number]?, shared.file.streams.lookup call.op.name with
  | some orphan, _ => orphanSection config call number orphan shared
  | none, some stream =>
      let (reply, file) := step config (faultsIn shared.file.disk stream.dir) call shared.file
      (⟨file, shared.removed⟩, reply)
  | none, none => (shared, call.op.failure (.notFound call.op.name))

/-- The next step of an operation. -/
def Thread.next (config : Config) (thread : Thread) (shared : Shared) : Shared × Phase :=
  match thread.phase with
  | .start =>
      if looksUp thread.call.op then (shared, getStream thread.call shared)
      else (underMapLock config thread.call shared).map id .done
  | .found number => (underEntryLock config thread.call number shared).map id .done
  | .done reply => (shared, .done reply)

/-- The machine that interleaves operations. Every step takes its locks and gives them back, so none
waits for another. -/
def machine (config : Config) : Machine Shared Thread Call Unit where
  start := fun call => ⟨call, .start⟩
  next := fun _ system thread =>
    let (shared, phase) := thread.next config system.shared
    some (shared, ⟨thread.call, phase⟩)

/-- A storage that has just been opened, before the first operation. -/
def opened (file : FileStorage) : System Shared Thread := ⟨⟨file, fun _ => []⟩, []⟩

/-- An operation that nobody comes in between of does what it does in the sequential model. -/
theorem uninterrupted (config : Config) {call : Call} {shared : Shared} {number : Nat}
    (h : getStream call shared = .found number) :
    ∃ stream, shared.file.streams.lookup call.op.name = some stream ∧
      underEntryLock config call number shared =
        (step config (faultsIn shared.file.disk stream.dir) call shared.file).swap.map
          (⟨·, shared.removed⟩) id := by
  unfold getStream at h
  cases hlookup : shared.file.streams.lookup call.op.name with
  | none => simp [hlookup] at h
  | some stream =>
      rw [hlookup] at h
      have hlive : (shared.removed call.op.name)[number]? = none := by
        simp [← Phase.found.inj h]
      refine ⟨stream, rfl, ?_⟩
      rw [underEntryLock, hlive, hlookup]
      rfl

/-! ## Metadata that describes its entry -/

/-- The metadata in the directory of the stream under a name, if there is one, is that of its entry. -/
def DescribedAt (name : String) (file : FileStorage) : Prop :=
  ∀ stream, file.streams.lookup name = some stream →
    ∃ found, file.disk.lookup stream.dir = some found ∧ found.metaJson = some (stream.metadata name)

/-- A section that finds the metadata of its entry on disk leaves it there. -/
def Outcome.Describes {α : Type} (name : String) (stream : StreamEntry) (outcome : Outcome α) :
    Prop :=
  ∀ found : Dir, found.metaJson = some (stream.metadata name) →
    (found.run outcome.actions).metaJson = some (outcome.stream.metadata name)

section Sections

variable {config : Config} {faults : Faults} {name : String} {stream : StreamEntry}
  {messages : List Bytes} {actions : List DirAction}

/-- Changes in the log leave the metadata alone. -/
theorem run_on_log (hactions : ∀ action ∈ actions, action.onLog = true) (found : Dir) :
    (found.run actions).metaJson = found.metaJson := by
  induction actions generalizing found with
  | nil => rfl
  | cons action actions ih =>
      have hrest := ih (fun other hother => hactions other (List.mem_cons_of_mem _ hother))
        (action.apply found)
      have hfirst : action.onLog = true := hactions action (List.mem_cons_self ..)
      refine hrest.trans ?_
      cases action with
      | openLog | appendLog => rfl
      | writeTmp | renameMeta => cases hfirst

/-- Persisting succeeds if no call fails. -/
theorem write_metadata_for_none (config : Config) (name : String) (hdir : stream.dir ≠ "") :
    writeMetadataFor config .none name stream =
      (.ok (), [.writeTmp (stream.metadata name), .renameMeta]) := by
  simp only [writeMetadataFor, validate_stream_dir_ok config hdir, Faults.none]

/-- Indexing records leaves the metadata alone. -/
theorem foldl_push_record_metadata (name : String) (messages : List Bytes) (stream : StreamEntry) :
    (messages.foldl StreamEntry.pushRecord stream).metadata name = stream.metadata name := by
  induction messages generalizing stream with
  | nil => rfl
  | cons data messages ih => exact ih (stream.pushRecord data)

/-- Writing records, or failing to, changes nothing but the log. -/
theorem RecordsCase.metadata (name : String) {total : Nat} {written : Outcome Unit}
    (h : RecordsCase total stream messages written) :
    written.stream.dir = stream.dir ∧ written.stream.metadata name = stream.metadata name ∧
      ∀ action ∈ written.actions, action.onLog = true := by
  cases h with
  | quiet => exact ⟨rfl, rfl, by simp⟩
  | failed => exact ⟨rfl, rfl, by simp [DirAction.onLog]⟩
  | written =>
      exact ⟨(foldl_push_record_keeps messages stream).2,
        foldl_push_record_metadata name messages stream, by simp [DirAction.onLog]⟩

/-- Records and then the metadata of the entry they leave. -/
theorem run_persist (config : Config) (name : String) (actions : List DirAction) (found : Dir)
    (hdir : stream.dir ≠ "") :
    (found.run (actions ++ (writeMetadataFor config .none name stream).2)).metaJson =
      some (stream.metadata name) := by
  rw [run_append, write_metadata_for_none config name hdir]
  rfl

/-- `append` writes no metadata, and changes none. -/
theorem append_section_on_log (config : Config) (faults : Faults) (clock : Clock) (name : String)
    (data : Bytes) (contentType : String) (total logLen : Nat) (stream : StreamEntry) :
    let outcome := appendSection config faults clock name data contentType total logLen stream
    outcome.stream.metadata name = stream.metadata name ∧
      ∀ action ∈ outcome.actions, action.onLog = true := by
  unfold appendSection
  split
  · exact ⟨rfl, by simp⟩
  split
  · exact ⟨rfl, by simp⟩
  split
  · exact ⟨rfl, by simp⟩
  · exact ((append_records_outcome config faults name total logLen stream [data]).metadata name).2

/-- A section that changes only the log. -/
theorem Outcome.Describes.of_on_log {α : Type} {outcome : Outcome α}
    (h : outcome.stream.metadata name = stream.metadata name ∧
      ∀ action ∈ outcome.actions, action.onLog = true) : outcome.Describes name stream := by
  intro found hfound
  rw [run_on_log h.2, hfound, h.1]

/-- `batch_append` persists a new Stream-Seq value. -/
theorem batch_append_section_describes (config : Config) (clock : Clock) (name : String)
    (messages : List Bytes) (contentType : String) (seq : Option String) (total logLen : Nat)
    (hdir : stream.dir ≠ "") :
    (batchAppendSection config .none clock name messages contentType seq total logLen
      stream).Describes name stream := by
  obtain ⟨hkept, hwritten⟩ :=
    (append_records_outcome config .none name total logLen stream messages).metadata name
  unfold batchAppendSection
  split
  · exact .of_on_log ⟨rfl, by simp⟩
  split
  · exact .of_on_log ⟨rfl, by simp⟩
  split
  · exact .of_on_log ⟨rfl, by simp⟩
  split
  · exact .of_on_log ⟨rfl, by simp⟩
  next pending _ =>
  dsimp only
  split
  · exact .of_on_log hwritten
  cases pending with
  | none => exact .of_on_log (by simpa [StreamEntry.recordSeq] using hwritten)
  | some value =>
      exact fun found _ => run_persist config name _ found (hkept.trans_ne hdir)

/-- `append_with_producer` persists what it accepts. If it drops no stale producer, there is nothing
else to persist. -/
theorem producer_section_describes (config : Config) (clock : Clock) (name : String)
    (messages : List Bytes) (contentType : String) (producer : ProducerHeaders) (shouldClose : Bool)
    (seq : Option String) (total logLen : Nat) (hdir : stream.dir ≠ "") :
    let outcome := appendWithProducerSection config .none clock name messages contentType producer
      shouldClose seq total logLen stream
    (Reply.producer outcome.result).appended = true ∨ outcome.stream.producers = stream.producers →
      outcome.Describes name stream := by
  obtain ⟨hkept, hmetadata, hactions⟩ := (append_records_outcome config .none name total logLen
    (stream.cleanup clock.cleanup) messages).metadata name
  have hclean (h : (stream.cleanup clock.cleanup).producers = stream.producers) :
      (stream.cleanup clock.cleanup).metadata name = stream.metadata name := by
    rw [StreamEntry.metadata, h]
    rfl
  unfold appendWithProducerSection
  split
  · exact fun _ => .of_on_log ⟨rfl, by simp⟩
  dsimp only
  split
  · exact fun h => .of_on_log ⟨hclean (h.resolve_left Bool.false_ne_true), by simp⟩
  split
  · exact fun h => .of_on_log ⟨hclean (h.resolve_left Bool.false_ne_true), by simp⟩
  · exact fun h => .of_on_log ⟨hclean (h.resolve_left Bool.false_ne_true), by simp⟩
  split
  · exact fun h => .of_on_log ⟨hclean (h.resolve_left Bool.false_ne_true), by simp⟩
  next pending _ =>
  split
  · intro h
    have hproducers := congrArg StreamMeta.producers hmetadata
    exact .of_on_log ⟨hmetadata.trans (hclean (hproducers.symm.trans
      (h.resolve_left Bool.false_ne_true))), hactions⟩
  · intro _ found _
    refine run_persist config name _ found ?_
    rw [(SameIndex.recordProducer ..).dir, (SameIndex.closeIf ..).dir, (SameIndex.recordSeq ..).dir,
      hkept]
    exact hdir

/-- `close_stream` persists that the stream is closed. -/
theorem close_section_describes (config : Config) (clock : Clock) (name : String) (total : Nat)
    (hdir : stream.dir ≠ "") :
    (closeSection config .none clock name total stream).Describes name stream := by
  unfold closeSection
  split
  · exact .of_on_log ⟨rfl, by simp⟩
  · have hpersist :=
      @write_metadata_for_none { stream with closed := true } config name hdir
    dsimp only
    rw [hpersist]
    exact fun _ _ => rfl

end Sections

section Steps

variable {config : Config} {file : FileStorage} {name : String} {stream : StreamEntry}

/-- The directory of a stream has a name. -/
theorem Named.dir_ne (h : Named file) (hlookup : file.streams.lookup name = some stream) :
    stream.dir ≠ "" := by
  rw [h.entries name stream hlookup]
  exact encode_name_ne (h.name_ne hlookup)

/-- The directory of a described stream is there, so nothing fails in it. -/
theorem faults_in_described (h : DescribedAt name file)
    (hlookup : file.streams.lookup name = some stream) : faultsIn file.disk stream.dir = .none := by
  obtain ⟨found, hfound, -⟩ := h stream hlookup
  rw [faultsIn, hfound]
  rfl

/-- A section on a stream keeps it described. -/
theorem with_stream_describes {α : Type} (h : DescribedAt name file)
    (body : Nat → Nat → StreamEntry → Outcome α)
    (hbody : ∀ stream, file.streams.lookup name = some stream →
      let outcome := body file.totalBytes (file.log stream.dir).length stream
      outcome.stream.dir = stream.dir ∧ outcome.Describes name stream) :
    DescribedAt name (withStream file name body).2 := by
  intro after hafter
  unfold withStream at hafter ⊢
  cases hlookup : file.streams.lookup name with
  | none =>
      rw [hlookup] at hafter
      cases hlookup.symm.trans hafter
  | some stream =>
      obtain ⟨found, hfound, hjson⟩ := h stream hlookup
      obtain ⟨hdir, hdescribes⟩ := hbody stream hlookup
      rw [hlookup] at hafter
      obtain rfl := Option.some.inj ((Finmap.lookup_insert _).symm.trans hafter)
      refine ⟨_, ?_, hdescribes found hjson⟩
      dsimp only
      rw [lookup_within, hdir, if_pos rfl, hfound, Option.map_some]

/-- A prepared entry has a directory. -/
theorem prepare_dir (config : Config) (clock : Clock) (file : FileStorage) (name : String)
    (streamConfig : StreamConfig) :
    let prepared := prepareEntry config .none clock file name streamConfig
    ∀ entry, prepared.1 = .ok entry →
      entry.dir ≠ "" ∧ (prepared.2.disk.lookup entry.dir).isSome := by
  by_cases hname : encodeName name = ""
  · simp [prepareEntry, stream_dir_for_name_eq, Faults.none, validateStreamDir, hname]
  · simp only [prepareEntry, stream_dir_for_name_eq, Faults.none,
      validate_stream_dir_ok config hname]
    intro entry hentry
    obtain rfl := Except.ok.inj hentry
    refine ⟨hname, ?_⟩
    simp only [StreamEntry.new, FileStorage.act, lookup_within, ↓reduceIte,
      lookup_create_dir file.disk hname, Option.map_some, Option.isSome_some]

/-- Installing an entry describes it. -/
theorem install_describes {α : Type} {entry : StreamEntry} (config : Config) (hdir : entry.dir ≠ "")
    (hfound : (file.disk.lookup entry.dir).isSome) (reply : α) :
    DescribedAt name (installEntry config .none file name entry reply).2 := by
  obtain ⟨found, hfound⟩ := Option.isSome_iff_exists.mp hfound
  intro stream hstream
  rw [installEntry, write_metadata_for_none config name hdir] at hstream ⊢
  obtain rfl := Option.some.inj ((Finmap.lookup_insert _).symm.trans hstream)
  refine ⟨found.run [.writeTmp (entry.metadata name), .renameMeta], ?_, rfl⟩
  dsimp only [FileStorage.act]
  rw [lookup_within, if_pos rfl, hfound, Option.map_some]

/-- A create describes the stream it makes, and leaves the one that is there described. -/
theorem create_describes (config : Config) (clock : Clock) (streamConfig : StreamConfig)
    (messages : List Bytes) (shouldClose : Bool) (h : DescribedAt name file) :
    DescribedAt name (createStreamWithData config .none clock file name streamConfig messages
      shouldClose).2 := by
  have habsent {left : FileStorage} (hleft : left.streams.lookup name = none) :
      DescribedAt name left := fun stream hstream => by cases hleft.symm.trans hstream
  have hfree := claim_name_free config .none clock file name
  unfold createStreamWithData
  generalize claimName config .none clock file name = slot at hfree
  cases slot with
  | occupied stream =>
      dsimp only
      split <;> exact h
  | failed error left => exact habsent hfree
  | vacant left =>
      have hprepared := prepare_dir config clock left name streamConfig
      have hstreams : (prepareEntry config .none clock left name streamConfig).2.streams.lookup name =
          none := by
        rw [prepare_streams]
        exact hfree
      dsimp only at hprepared ⊢
      generalize prepareEntry config .none clock left name streamConfig = prepared
        at hprepared hstreams
      obtain ⟨error | entry, opened⟩ := prepared
      · exact habsent hstreams
      · obtain ⟨hdir, hfound⟩ := hprepared entry rfl
        obtain ⟨hkept, -⟩ := (append_records_outcome config .none name opened.totalBytes
          (opened.log entry.dir).length entry messages).metadata name
        dsimp only
        split
        · exact habsent hstreams
        · have hsame := (SameIndex.closeIf shouldClose _).dir.trans hkept
          refine install_describes config (hsame.trans_ne hdir) ?_ _
          rw [hsame]
          simp only [FileStorage.act]
          rw [lookup_within, if_pos rfl, Option.isSome_map]
          exact hfound

/-- A call that is accepted, or drops no producers of the stream it finds. -/
def KeepsProducers (name : String) (before after : FileStorage) (reply : Reply) : Prop :=
  reply.appended = true ∨ ∀ stream ∈ before.streams.lookup name,
    ∀ later ∈ after.streams.lookup name, later.producers = stream.producers

instance (name : String) (before after : FileStorage) (reply : Reply) :
    Decidable (KeepsProducers name before after reply) :=
  inferInstanceAs (Decidable (_ ∨ ∀ stream ∈ before.streams.lookup name,
    ∀ later ∈ after.streams.lookup name, later.producers = stream.producers))

/-- A call in which nothing fails keeps the stream under its name described, if it drops no stale
producers without being accepted. -/
theorem own_step_describes (config : Config) {call : Call} (hnamed : Named file)
    (h : DescribedAt call.op.name file)
    (hkeeps : call.op.isProducerAppend = true → KeepsProducers call.op.name file
      (step config .none call file).2 (step config .none call file).1) :
    DescribedAt call.op.name (step config .none call file).2 := by
  obtain ⟨clock, op⟩ := call
  have hcases (logLen : Nat) {stream : StreamEntry} {α : Type} {now : Timestamp}
      {wrap : Result α → Reply} {messages : List Bytes} {seq : Option String} {closes : Bool}
      {outcome : Outcome α} (houtcome : AppendCase config .none op.name messages seq closes now
        file.totalBytes logLen stream wrap outcome) : outcome.stream.dir = stream.dir :=
    (houtcome.own hnamed.total).dir
  cases op with
  | createStream name streamConfig =>
      simp only [step, create_stream_eq]
      exact create_describes config clock streamConfig [] false h
  | createStreamWithData name streamConfig messages shouldClose fits =>
      exact create_describes config clock streamConfig messages shouldClose h
  | append name data contentType fits =>
      refine with_stream_describes h (appendSection config .none clock name data contentType)
        fun stream hlookup => ⟨hcases _ (append_section_cases ..), .of_on_log ?_⟩
      exact append_section_on_log ..
  | batchAppend name messages contentType seq fits =>
      simp only [step, batchAppend]
      split
      · exact h
      · exact with_stream_describes h
          (batchAppendSection config .none clock name messages contentType seq)
          fun stream hlookup => ⟨hcases _ (batch_append_section_cases ..),
            batch_append_section_describes config clock name messages contentType seq _ _
              (hnamed.dir_ne hlookup)⟩
  | appendWithProducer name messages contentType producer shouldClose seq fits =>
      refine with_stream_describes h
        (appendWithProducerSection config .none clock name messages contentType producer shouldClose
          seq)
        fun stream hlookup => ⟨hcases _ (producer_section_cases ..),
          producer_section_describes config clock name messages contentType producer shouldClose seq
            _ _ (hnamed.dir_ne hlookup) ?_⟩
      have hkept := hkeeps rfl
      simp only [step, withStream, Op.name, show file.streams.lookup name = _ from hlookup] at hkept
      exact hkept.imp_right fun hsame => hsame stream hlookup _ (Finmap.lookup_insert _)
  | closeStream name =>
      exact with_stream_describes h (fun total _ => closeSection config .none clock name total)
        fun stream hlookup => ⟨(close_section_own config .none clock name stream
          hnamed.total).dir, close_section_describes config clock name _ (hnamed.dir_ne hlookup)⟩
  | delete name =>
      simp only [step, delete]
      cases hlookup : file.streams.lookup name with
      | none => exact h
      | some stream =>
          intro after hafter
          cases (remove_gone config .none file name stream).symm.trans hafter
  | read | head | «exists» | subscribe => exact h

/-- A call leaves the streams under other names described. -/
theorem step_describes_others (config : Config) (faults : Faults) {call : Call} (hnamed : Named file)
    (hname : call.op.name ≠ name) (h : DescribedAt name file) :
    DescribedAt name (step config faults call file).2 := by
  intro stream hstream
  rw [step_others config faults call file hname] at hstream
  obtain ⟨found, hfound, hjson⟩ := h stream hstream
  refine ⟨found, ?_, hjson⟩
  rw [hnamed.entries name stream hstream] at hfound ⊢
  rwa [step_dir_others config faults hnamed hname]

end Steps

/-! ## Runs -/

/-- An operation that is about to work on its entry. If the entry was removed, then it leaves the disk
as it is, or no other stream has the name. If it is there, then the operation is accepted or drops no
stale producers. -/
def Keeps (config : Config) (shared : Shared) (thread : Thread) : Prop :=
  match thread.phase with
  | .found number =>
      let name := thread.call.op.name
      let after := underEntryLock config thread.call number shared
      if number < (shared.removed name).length then
        after.1.file.disk = shared.file.disk ∨ shared.file.streams.lookup name = none
      else KeepsProducers name shared.file after.1.file after.2
  | _ => True

instance (config : Config) (shared : Shared) (thread : Thread) :
    Decidable (Keeps config shared thread) :=
  match thread with
  | ⟨_, .start⟩ | ⟨_, .done _⟩ => isTrue trivial
  | ⟨_, .found _⟩ => inferInstanceAs (Decidable (ite _ _ _))

/-- What holds while operations are in flight. -/
structure Sound (shared : Shared) : Prop where
  named : Named shared.file
  described : ∀ name, DescribedAt name shared.file
  orphans : ∀ name, ∀ orphan ∈ shared.removed name, orphan.stream.dir = encodeName name

section Invariant

variable {config : Config} {shared : Shared} {call : Call} {name : String} {number : Nat}
  {orphan : Orphan}

/-- A storage that has just been opened. -/
theorem Sound.opened {disk : Disk} {listing : List String} (now : Timestamp) (h : DirsNamed disk)
    (hlisting : Lists listing disk) : Sound (opened (reopen now listing disk)).shared := by
  have hloading := reopen_loads now hlisting h.wellNamed
  refine ⟨reopen_named now h hlisting, fun name stream hstream => ?_, by simp [File.opened]⟩
  simp only [File.opened] at hstream ⊢
  rw [hloading.streams, if_neg List.not_mem_nil] at hstream
  obtain ⟨found, hfound, hrevive⟩ := Option.bind_eq_some_iff.mp hstream
  unfold revive at hrevive
  cases hjson : found.metaJson with
  | none => simp [hjson] at hrevive
  | some saved =>
      rw [hjson] at hrevive
      dsimp only at hrevive
      split at hrevive
      · cases hrevive
      next hlive =>
      obtain rfl := Option.some.inj hrevive
      have hname := encode_name_inj ((h _ found hfound).saved saved (.inl hjson))
      refine ⟨{ found with log := some (found.logBytes.take
        (loadEntry (encodeName name) found.logBytes saved).fileLen) }, ?_, ?_⟩
      · rw [hloading.dirs, if_neg List.not_mem_nil]
        simp only [loadEntry] at hfound ⊢
        rw [hfound, Option.bind_some, remains, hjson]
        simp [hlive, loadEntry]
      · rw [hjson, hname]
        rfl

/-- An operation on the streams in the map. -/
theorem Sound.step (h : Sound shared) (config : Config) {removed : String → List Orphan}
    (hremoved : ∀ name, ∀ orphan ∈ removed name, orphan.stream.dir = encodeName name)
    (hkeeps : call.op.isProducerAppend = true → KeepsProducers call.op.name shared.file
      (File.step config .none call shared.file).2 (File.step config .none call shared.file).1) :
    Sound ⟨(File.step config .none call shared.file).2, removed⟩ := by
  refine ⟨step_named config .none call h.named, fun name => ?_, hremoved⟩
  by_cases hname : call.op.name = name
  · subst hname
    exact own_step_describes config h.named (h.described _) hkeeps
  · exact step_describes_others config .none h.named hname (h.described name)

/-- An operation under the lock of the map. -/
theorem Sound.underMapLock (h : Sound shared) (config : Config)
    (hlooks : looksUp call.op = false) : Sound (underMapLock config call shared).1 := by
  have hkeeps : call.op.isProducerAppend = true → KeepsProducers call.op.name shared.file
      (File.step config .none call shared.file).2 (File.step config .none call shared.file).1 := by
    intro hproducer
    cases hop : call.op <;> simp_all [looksUp, Op.isProducerAppend]
  unfold File.underMapLock
  dsimp only
  split
  · exact h.step config h.orphans hkeeps
  next stream hlookup =>
  split
  swap
  · exact h.step config h.orphans hkeeps
  refine h.step config (fun name orphan horphan => ?_) hkeeps
  by_cases hname : name = call.op.name
  · subst hname
    rw [Function.update_self, List.mem_append, List.mem_singleton] at horphan
    obtain hold | rfl := horphan
    · exact h.orphans _ orphan hold
    · exact h.named.entries _ stream hlookup
  · rw [Function.update_of_ne hname] at horphan
    exact h.orphans name orphan horphan

/-- A section on an entry that is not in the map. Either it leaves the disk alone, or no stream has its
name. -/
theorem Sound.withOrphan {α : Type} (h : Sound shared)
    (horphan : orphan ∈ shared.removed name) (wrap : Result α → Reply)
    (body : Nat → Bytes → StreamEntry → Outcome α)
    (hown : (body shared.file.totalBytes orphan.log orphan.stream).Own name orphan.stream)
    (hquiet : (File.withOrphan shared name number orphan wrap body).1.file.disk = shared.file.disk ∨
      shared.file.streams.lookup name = none) :
    Sound (withOrphan shared name number orphan wrap body).1 := by
  have hdir := h.orphans name orphan horphan
  unfold File.withOrphan at hquiet ⊢
  dsimp only at hquiet ⊢
  generalize body shared.file.totalBytes orphan.log orphan.stream = outcome at hown hquiet
  rw [hdir] at hquiet ⊢
  have hactions : WritesOwn (encodeName name)
      (outcome.actions.filter fun action => !action.onLog) :=
    fun saved hsaved => hown.actions saved (List.mem_of_mem_filter hsaved)
  refine ⟨⟨h.named.entries, h.named.names, h.named.dirs.within hactions, hown.total⟩,
    fun other stream hstream => ?_, fun other entry hentry => ?_⟩
  · obtain ⟨found, hfound, hjson⟩ := h.described other stream hstream
    dsimp only at hstream ⊢
    refine ⟨found, ?_, hjson⟩
    rcases hquiet with hsame | hfree
    · rwa [hsame]
    · have hother : stream.dir ≠ encodeName name := by
        rw [h.named.entries other stream hstream]
        rintro heq
        rw [encode_name_inj heq, hfree] at hstream
        cases hstream
      rwa [lookup_within, if_neg hother]
  · by_cases hname : other = name
    · subst hname
      dsimp only at hentry
      rw [Function.update_self] at hentry
      obtain hold | rfl := List.mem_or_eq_of_mem_set hentry
      · exact h.orphans _ entry hold
      · exact hown.dir.trans hdir
    · dsimp only at hentry
      rw [Function.update_of_ne hname] at hentry
      exact h.orphans other entry hentry

/-- An operation on an entry that is not in the map. -/
theorem Sound.orphanSection (h : Sound shared) (config : Config)
    (horphan : orphan ∈ shared.removed call.op.name)
    (hquiet : (File.orphanSection config call number orphan shared).1.file.disk = shared.file.disk ∨
      shared.file.streams.lookup call.op.name = none) :
    Sound (orphanSection config call number orphan shared).1 := by
  obtain ⟨clock, op⟩ := call
  have htotal := h.named.total
  unfold File.orphanSection at hquiet ⊢
  cases op with
  | append name data contentType fits =>
      exact h.withOrphan horphan .offset _ ((append_section_cases ..).own htotal) hquiet
  | batchAppend name messages contentType seq fits =>
      exact h.withOrphan horphan .offset _ ((batch_append_section_cases ..).own htotal) hquiet
  | appendWithProducer name messages contentType producer shouldClose seq fits =>
      exact h.withOrphan horphan .producer _ ((producer_section_cases ..).own htotal) hquiet
  | closeStream name =>
      exact h.withOrphan horphan .done _ (close_section_own _ _ _ _ _ htotal) hquiet
  | createStream | createStreamWithData | delete | read | head | «exists» | subscribe => exact h

/-- An operation under the lock of the entry it has found. -/
theorem Sound.underEntryLock (h : Sound shared) (config : Config)
    (hkeeps : Keeps config shared ⟨call, .found number⟩) :
    Sound (underEntryLock config call number shared).1 := by
  simp only [Keeps] at hkeeps
  cases hnumber : (shared.removed call.op.name)[number]? with
  | some orphan =>
      rw [if_pos (List.getElem?_eq_some_iff.mp hnumber).1] at hkeeps
      simp only [File.underEntryLock, hnumber] at hkeeps ⊢
      exact h.orphanSection config (List.mem_of_getElem? hnumber) hkeeps
  | none =>
      rw [if_neg (List.getElem?_eq_none_iff.mp hnumber).not_gt] at hkeeps
      cases hlookup : shared.file.streams.lookup call.op.name with
      | none =>
          simp only [File.underEntryLock, hnumber, hlookup]
          exact h
      | some stream =>
          simp only [File.underEntryLock, hnumber, hlookup,
            faults_in_described (h.described _) hlookup] at hkeeps ⊢
          exact h.step config h.orphans fun _ => hkeeps

/-- A step that is permitted. -/
theorem Sound.next {thread : Thread} (h : Sound shared) (config : Config)
    (hkeeps : Keeps config shared thread) : Sound (thread.next config shared).1 := by
  obtain ⟨call, phase⟩ := thread
  cases phase with
  | start =>
      simp only [Thread.next]
      split
      · exact h
      next hlooks => exact h.underMapLock config (Bool.eq_false_iff.mpr hlooks)
  | found number => exact h.underEntryLock config hkeeps
  | done reply => exact h

end Invariant

/-- In every run in which no operation on a removed entry writes to the disk while another stream has
the name, and none drops stale producers without being accepted, the metadata on disk describes every
stream in the map. So a restart restores it. -/
theorem metadata_describes_entries (config : Config) {earlier : FileStorage}
    (hearlier : Possible config earlier) (now : Timestamp) {listing : List String}
    (hlisting : Lists listing earlier.disk) (actions : List (Action Call Unit))
    (hkeeps : Along (machine config).step (Machine.Turn (Keeps config)) actions
      (opened (reopen now listing earlier.disk))) :
    let file := (exec (machine config).step actions
      (opened (reopen now listing earlier.disk))).2.shared.file
    ∀ name stream, file.streams.lookup name = some stream →
      (∃ found, file.disk.lookup stream.dir = some found ∧
        found.metaJson = some (stream.metadata name)) ∧
      ∀ later listed, Lists listed file.disk → isStreamExpired later stream.config = false →
        ∃ restored, (reopen later listed file.disk).streams.lookup name = some restored ∧
          restored.metadata name = stream.metadata name := by
  intro file name stream hstream
  have hsound : Sound (exec (machine config).step actions
      (opened (reopen now listing earlier.disk))).2.shared := by
    refine Machine.shared_invariant ?_ hkeeps (.opened now hearlier.named.dirs hlisting)
    intro _ system thread shared after hpermits hnext hsystem
    obtain ⟨rfl, -⟩ := Prod.mk.inj (Option.some.inj hnext)
    exact hsystem.next config hpermits
  obtain ⟨found, hfound, hjson⟩ := hsound.described name stream hstream
  refine ⟨⟨found, hfound, hjson⟩, fun later listed hlisted hlive => ?_⟩
  have hloading := reopen_loads later hlisted hsound.named.dirs.wellNamed
  rw [hsound.named.entries name stream hstream] at hfound
  refine ⟨loadEntry (encodeName name) found.logBytes (stream.metadata name), ?_, rfl⟩
  rw [hloading.streams, if_neg List.not_mem_nil, hfound, Option.bind_some, revive, hjson]
  simp [StreamEntry.metadata, hlive]

/-- A new storage. -/
def fresh : System Shared Thread := opened (reopen 0 [] FileStorage.new.disk)

/-- Four operations that take turns as given: create a stream, append to it and close it as a
producer, delete it, and create another one under its name. -/
def taking (turns : List Nat) : List (Action Call Unit) :=
  ([⟨.at 0, .createStream "s" .plain⟩,
    ⟨.at 3, .appendWithProducer "s" [[1]] "text/plain" ⟨"p", 0, 0⟩ true none (Size.fits .one)⟩,
    ⟨.at 1, .delete "s"⟩,
    ⟨.at 2, .createStream "s" ⟨"text/html", none, none, false⟩⟩] : List Call).map .spawn ++
  turns.map fun index => .run index ()

/-- The producer finds the stream and works on it after it was deleted, when its directory is gone.
The stream created then is described by its metadata. -/
theorem metadata_describes_recreated :
    let file := (exec (machine smallConfig).step (taking [0, 1, 2, 1, 3]) fresh).2.shared.file
    ∃ stream found, file.streams.lookup "s" = some stream ∧
      file.disk.lookup stream.dir = some found ∧ found.metaJson = some (stream.metadata "s") ∧
      (stream.config.contentType, stream.closed) = ("text/html", false) := by
  intro file
  have hsome : (file.streams.lookup "s").map (fun stream =>
      (stream.config.contentType, stream.closed)) = some ("text/html", false) := by decide +kernel
  obtain ⟨stream, hstream, hshown⟩ := Option.map_eq_some_iff.mp hsome
  obtain ⟨⟨found, hfound, hjson⟩, -⟩ := metadata_describes_entries smallConfig .new 0
    (by decide +kernel) (taking [0, 1, 2, 1, 3]) (by decide +kernel) "s" stream hstream
  exact ⟨stream, found, hstream, hfound, hjson, hshown⟩

/-- If it works on the old stream after the new one was created, all four operations succeed, but the
metadata on disk is that of the deleted stream, and that is what a restart finds. -/
theorem deleted_stream_overwrites_metadata :
    let system := (exec (machine smallConfig).step (taking [0, 1, 2, 3, 1]) fresh).2
    let file := system.shared.file
    let old : StreamMeta := ⟨"s", .plain, true, 0, none, Finmap.singleton "p" ⟨0, 0, 3⟩⟩
    system.threads.map Thread.phase = [.done (.created (.ok .created)),
        .done (.producer (.ok (.accepted 0 0 (.new 1 1) true))), .done (.done (.ok ())),
        .done (.created (.ok .created))] ∧
      (file.streams.lookup "s").map (StreamEntry.metadata "s") =
        some ⟨"s", ⟨"text/html", none, none, false⟩, false, 2, none, ∅⟩ ∧
      (file.disk.lookup (encodeName "s")).bind Dir.metaJson = some old ∧
      ((reopen 4 [encodeName "s"] file.disk).streams.lookup "s").map (StreamEntry.metadata "s") =
        some old := by
  decide +kernel

end DurableStreams.File
