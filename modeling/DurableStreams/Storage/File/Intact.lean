import DurableStreams.Storage.File.Failures
import DurableStreams.Storage.File.Named

/-!
# What a failed operation leaves for its clients

Creating, closing and deleting a stream change memory and several files. When a file-system call
fails and the operation returns an error, the streams and the byte counter that clients see should be
as before. They are exactly when the failure is one the operation takes back (`Undone`): a stream that
cannot be persisted as closed is closed all the same, a stream whose directory cannot be removed is
gone, and the bytes of a stream whose metadata cannot be written stay on the counter.
-/

namespace DurableStreams.File

open Lib

/-- What clients are served of a stream: its entry and the log its messages are read from. -/
def served (file : FileStorage) (name : String) : Option (StreamEntry × Bytes) :=
  (file.streams.lookup name).map fun stream => (stream, file.log stream.dir)

/-- Clients are served the same as before. -/
structure Intact (before after : FileStorage) : Prop where
  streams : ∀ name, served after name = served before name
  total : after.totalBytes = before.totalBytes

/-- The operations that create, close or delete a stream. -/
def manages : Op → Bool
  | .createStream .. | .createStreamWithData .. | .closeStream .. | .delete .. => true
  | _ => false

/-- No stream has expired. -/
def NoneExpired (now : Timestamp) (file : FileStorage) : Prop :=
  ∀ name stream, file.streams.lookup name = some stream → isStreamExpired now stream.config = false

/-- The failures an operation takes back. A create with data does so until the data is written, or if
there is none. Closing a stream changes nothing if it is closed already. A delete never does. -/
def Undone (config : Config) (faults : Faults) (file : FileStorage) : Op → Prop
  | .createStreamWithData name _ messages _ _ =>
      name = "" ∨ faults.createDir.isSome ∨ faults.openLog.isSome ∨ payloadBytes messages = 0 ∨
        (writeFails config faults = true ∧ file.totalBytes + payloadBytes messages < 2 ^ 64)
  | .closeStream name => ∃ stream, file.streams.lookup name = some stream ∧ stream.closed = true
  | .delete _ => False
  | _ => True

variable {config : Config} {faults : Faults} {file after : FileStorage} {name : String}
  {stream : StreamEntry} {messages : List Bytes}

/-- The log of a directory after changes in another one. -/
theorem log_within_of_ne {dir other : String} (actions : List DirAction) (hne : other ≠ dir) :
    (file.act dir actions).log other = file.log other := by
  rw [FileStorage.log, FileStorage.act, lookup_within, if_neg hne]
  rfl

/-- The log of a directory after changes that do not append to it. -/
theorem log_within_of_quiet {dir : String} {actions : List DirAction}
    (hactions : ∀ found : Dir, (found.run actions).logBytes = found.logBytes) (other : String) :
    (file.act dir actions).log other = file.log other := by
  by_cases hne : other = dir
  · subst hne
    simp only [FileStorage.log, FileStorage.act, lookup_within, ↓reduceIte]
    cases file.disk.lookup other with
    | none => rfl
    | some found => exact hactions found
  · exact log_within_of_ne actions hne

/-- A directory that has just been created has no log. -/
theorem log_create_dir (dir other : String) :
    ({ file with disk := Disk.createDir dir file.disk } : FileStorage).log other = file.log other := by
  by_cases hdir : dir = ""
  · rw [Disk.createDir, if_pos (.inl hdir)]
  · simp only [FileStorage.log, lookup_create_dir _ hdir]
    by_cases heq : other = dir
    · rw [if_pos heq, heq]
      cases file.disk.lookup dir <;> rfl
    · rw [if_neg heq]

/-- Clients are served the same if the map is the same and only the log of a directory has changed
that belongs to no stream. -/
theorem served_of_others (h : Named file) (hlookup : file.streams.lookup name = none)
    (hstreams : after.streams = file.streams)
    (hlogs : ∀ dir, dir ≠ encodeName name → after.log dir = file.log dir) (other : String) :
    served after other = served file other := by
  unfold served
  rw [hstreams]
  cases hother : file.streams.lookup other with
  | none => rfl
  | some stream =>
      have hne : stream.dir ≠ encodeName name := by
        rw [h.entries other stream hother]
        intro heq
        rw [encode_name_inj heq, hlookup] at hother
        cases hother
      rw [Option.map_some, Option.map_some, hlogs _ hne]

/-! ## Creating -/

/-- How writing the records of a new stream ends: they are refused for another reason, the write fails
and the counter is set back, or they are written and counted. -/
theorem append_records_counts (config : Config) (faults : Faults) (name : String) {total : Nat}
    (logLen : Nat) (stream : StreamEntry) (hbytes : payloadBytes messages < 2 ^ 64)
    (htotal : total < 2 ^ 64) :
    let written := appendRecords config faults name total logLen stream messages
    (∃ error, written.result = .error error ∧ ∀ message, error ≠ .storage message) ∨
    (writeFails config faults = true ∧ (∃ error, written.result = .error error) ∧
      written.total = wrap64 (total + payloadBytes messages) - payloadBytes messages) ∨
    ((messages = [] ∨ writeFails config faults = false) ∧ written.result = .ok () ∧
      written.total = wrap64 (total + payloadBytes messages)) := by
  unfold appendRecords
  split
  · next hempty =>
      obtain rfl := List.isEmpty_iff.mp hempty
      exact .inr (.inr ⟨.inl rfl, rfl, (Nat.mod_eq_of_lt htotal).symm⟩)
  split
  · exact .inl ⟨_, rfl, nofun⟩
  rw [batch_bytes_eq hbytes]
  dsimp only
  split
  · exact .inl ⟨_, rfl, nofun⟩
  split
  · exact .inl ⟨_, rfl, nofun⟩
  cases hwrite : faults.write with
  | some failure =>
      exact .inr (.inl ⟨by simp [writeFails, hwrite], ⟨_, rfl⟩, rfl⟩)
  | none =>
      dsimp only
      split
      · next error hsync =>
          refine .inr (.inl ⟨?_, ⟨_, rfl⟩, rfl⟩)
          split at hsync
          · next hsynced => simp [writeFails, hsynced, hsync]
          · cases hsync
      · next hsync =>
          refine .inr (.inr ⟨.inr ?_, rfl, rfl⟩)
          cases hsynced : config.syncOnAppend with
          | false => simp [writeFails, hwrite, hsynced]
          | true =>
              rw [if_pos hsynced] at hsync
              simp [writeFails, hwrite, hsync]

/-- Preparing an entry changes neither the map nor the counter nor any log. It works out unless the
directory or the log cannot be opened. -/
theorem prepare_quiet (config : Config) (faults : Faults) (clock : Clock) (file : FileStorage)
    (name : String) (streamConfig : StreamConfig) :
    let prepared := prepareEntry config faults clock file name streamConfig
    prepared.2.streams = file.streams ∧ prepared.2.totalBytes = file.totalBytes ∧
      (∀ dir, prepared.2.log dir = file.log dir) ∧
      ((∃ error, prepared.1 = .error error) ↔
        name = "" ∨ faults.createDir.isSome ∨ faults.openLog.isSome) := by
  have hcreated := @log_create_dir file (encodeName name)
  simp only [prepareEntry, stream_dir_for_name_eq]
  cases hcreate : faults.createDir with
  | some error => simp
  | none =>
      by_cases hname : name = ""
      · have hdir : encodeName name = "" := by rw [hname]; rfl
        simp only [hdir, validateStreamDir, ↓reduceIte] at hcreated ⊢
        exact ⟨trivial, trivial, hcreated, by simp [hname]⟩
      · simp only [validate_stream_dir_ok config (encode_name_ne hname)]
        cases hopen : faults.openLog with
        | some error => exact ⟨rfl, rfl, hcreated, by simp⟩
        | none =>
            refine ⟨rfl, rfl, fun dir => ?_, by simp [hname]⟩
            exact (log_within_of_quiet (fun _ => rfl) dir).trans (hcreated dir)

/-- Installing an entry changes no log. It works out, or nothing but the disk changes. -/
theorem install_quiet {α : Type} (config : Config) (faults : Faults) (file : FileStorage)
    (name : String) (entry : StreamEntry) (reply : α) :
    let installed := installEntry config faults file name entry reply
    (∀ dir, installed.2.log dir = file.log dir) ∧ installed.2.totalBytes = file.totalBytes ∧
      (∀ error, installed.1 = .error error → installed.2.streams = file.streams) := by
  have hlog := (@write_metadata_for_actions config faults name entry _ rfl).log_bytes
  unfold installEntry
  generalize writeMetadataFor config faults name entry = written at hlog
  obtain ⟨_ | _, actions⟩ := written
  · exact ⟨log_within_of_quiet hlog, rfl, fun _ _ => rfl⟩
  · exact ⟨@log_within_of_quiet file entry.dir actions hlog, rfl, nofun⟩

/-- A create with data that fails with an error of the file system leaves everything as it was exactly
if it fails before the data is counted, or sets the counter back. -/
theorem create_with_data_intact {clock : Clock} {streamConfig : StreamConfig} {shouldClose : Bool}
    {fits : payloadBytes messages < 2 ^ 64} {message : String}
    (h : Named file) (hexpired : NoneExpired clock.expiry file)
    (hreply : (createStreamWithData config faults clock file name streamConfig messages
      shouldClose).1 = .error (.storage message)) :
    Intact file (createStreamWithData config faults clock file name streamConfig messages
        shouldClose).2 ↔
      Undone config faults file (.createStreamWithData name streamConfig messages shouldClose fits) := by
  have hcounter := h.total
  unfold createStreamWithData at hreply ⊢
  cases hlookup : file.streams.lookup name with
  | some stream =>
      have hclaim : claimName config faults clock file name = .occupied stream := by
        simp [claimName, hlookup, hexpired name stream hlookup]
      rw [hclaim] at hreply
      dsimp only at hreply
      split at hreply <;> cases hreply
  | none =>
      have hclaim : claimName config faults clock file name = .vacant file := by
        simp [claimName, hlookup]
      obtain ⟨hstreams, htotal, hlogs, hfails⟩ :=
        prepare_quiet config faults clock file name streamConfig
      have hdir := (h.prepare config faults clock name streamConfig).2
      rw [hclaim] at hreply ⊢
      dsimp only at hreply hstreams htotal hlogs hfails hdir ⊢
      generalize prepareEntry config faults clock file name streamConfig = prepared at *
      obtain ⟨error | entry, left⟩ := prepared
      · have hundone := hfails.mp ⟨error, rfl⟩
        refine iff_of_true ?_ (by rw [Undone]; tauto)
        exact ⟨served_of_others h hlookup hstreams fun dir _ => hlogs dir, htotal⟩
      · -- From here on the failure is that of a write, of the records or of the metadata.
        have hprepared : ¬ (name = "" ∨ faults.createDir.isSome ∨ faults.openLog.isSome) :=
          fun hfailed => by obtain ⟨_, herror⟩ := hfails.mpr hfailed; cases herror
        have hdir : entry.dir = encodeName name := (hdir entry rfl).1
        have htotal : left.totalBytes = file.totalBytes := htotal
        have hothers (actions : List DirAction) (dir : String) (hne : dir ≠ encodeName name) :
            (left.act entry.dir actions).log dir = file.log dir :=
          (log_within_of_ne actions (hdir ▸ hne)).trans (hlogs dir)
        have hundone : Undone config faults file
            (.createStreamWithData name streamConfig messages shouldClose fits) ↔
              payloadBytes messages = 0 ∨ (writeFails config faults = true ∧
                file.totalBytes + payloadBytes messages < 2 ^ 64) := by
          rw [Undone]
          tauto
        have hcases := append_records_counts config faults name (left.log entry.dir).length entry fits
          (htotal ▸ hcounter)
        dsimp only at hreply hcases ⊢
        generalize appendRecords config faults name left.totalBytes (left.log entry.dir).length entry
          messages = written at *
        obtain ⟨result, total, pushed, actions⟩ := written
        rw [hundone]
        obtain ⟨error, hresult, hother⟩ | ⟨hwrite, ⟨error, hresult⟩, hwritten⟩ |
          ⟨hwrite, hresult, hwritten⟩ := hcases
        all_goals dsimp only at hresult; subst hresult
        · exact absurd (Except.error.inj hreply) (hother message)
        · dsimp only at hwritten
          rw [htotal] at hwritten
          have hcount : total = file.totalBytes ↔ payloadBytes messages = 0 ∨
              file.totalBytes + payloadBytes messages < 2 ^ 64 := by
            unfold wrap64 at hwritten
            omega
          rw [hwrite]
          simp only [true_and]
          rw [← hcount]
          refine ⟨fun hintact => hintact.total, fun hsame => ⟨?_, hsame⟩⟩
          exact served_of_others h hlookup hstreams (hothers actions)
        · dsimp only at hwritten
          rw [htotal] at hwritten
          have hcount : total = file.totalBytes ↔ payloadBytes messages = 0 := by
            unfold wrap64 at hwritten
            omega
          have hnone : payloadBytes messages = 0 ∨ (writeFails config faults = true ∧
              file.totalBytes + payloadBytes messages < 2 ^ 64) ↔ payloadBytes messages = 0 := by
            obtain rfl | hwrite := hwrite
            · simp [payloadBytes]
            · simp [hwrite]
          obtain ⟨hinstalled, hkeptTotal, hkept⟩ := install_quiet config faults
            { left.act entry.dir actions with totalBytes := total } name (pushed.closeIf shouldClose)
            (CreateWithDataResult.mk .created (pushed.closeIf shouldClose).nextOffset
              (pushed.closeIf shouldClose).closed)
          rw [hnone, ← hcount]
          refine ⟨fun hintact => hkeptTotal.symm.trans hintact.total,
            fun hsame => ⟨?_, hkeptTotal.trans hsame⟩⟩
          refine served_of_others h hlookup ((hkept _ hreply).trans hstreams) fun dir hne => ?_
          exact (hinstalled dir).trans (hothers actions dir hne)

/-! ## Closing and deleting -/

/-- A close that cannot be persisted leaves everything as it was exactly if the stream was closed. -/
theorem close_stream_intact {clock : Clock} {message : String}
    (hexpired : NoneExpired clock.expiry file)
    (hreply : (withStream file name fun total _ =>
      closeSection config faults clock name total).1 = .error (.storage message)) :
    Intact file (withStream file name fun total _ =>
        closeSection config faults clock name total).2 ↔
      Undone config faults file (.closeStream name) := by
  rw [Undone]
  unfold withStream closeSection at hreply ⊢
  cases hlookup : file.streams.lookup name with
  | none =>
      rw [hlookup] at hreply
      cases hreply
  | some stream =>
      have hlog := (@write_metadata_for_actions config faults name { stream with closed := true } _
        rfl).log_bytes
      simp only [hlookup, hexpired name stream hlookup, Bool.false_eq_true, ↓reduceIte,
        Option.some.injEq, exists_eq_left'] at hreply ⊢
      generalize writeMetadataFor config faults name { stream with closed := true } = written at *
      obtain ⟨error | _, actions⟩ := written
      · dsimp only
        constructor
        · intro hintact
          have hserved := hintact.streams name
          simp only [served, Finmap.lookup_insert, hlookup, Option.map_some, Option.some.injEq,
            Prod.mk.injEq] at hserved
          rw [← hserved.1]
        · intro hclosed
          have hsame : ({ stream with closed := true } : StreamEntry) = stream := by rw [← hclosed]
          rw [hsame, FiniteMap.insert_lookup hlookup]
          refine ⟨fun other => ?_, rfl⟩
          simp only [served]
          congr 1
          funext found
          exact congrArg _ (log_within_of_quiet hlog found.dir)
      · cases hreply

/-- A delete that fails after it has found its stream leaves the stream removed. -/
theorem delete_not_intact {message : String}
    (hreply : (delete config faults file name).1 = .error (.storage message)) :
    ¬ Intact file (delete config faults file name).2 := by
  intro hintact
  have hserved := hintact.streams name
  unfold delete at hreply hserved
  cases hlookup : file.streams.lookup name with
  | none =>
      rw [hlookup] at hreply
      cases hreply
  | some stream =>
      rw [hlookup] at hserved
      dsimp only at hserved
      rw [served, served, hlookup, remove_gone] at hserved
      cases hserved

/-- Of all storages that any calls, failures and restarts lead to, and with no stream expired: if
creating, closing or deleting a stream fails with an error of the file system, clients are served the
same as before exactly if the operation takes the failure back. -/
theorem failed_operation_intact_iff (config : Config) (faults : Faults) (file : FileStorage)
    (call : Call) (message : String) (hpossible : Possible config file)
    (hop : manages call.op = true) (hexpired : NoneExpired call.clock.expiry file)
    (hreply : (step config faults call file).1 = call.op.failure (.storage message)) :
    Intact file (step config faults call file).2 ↔ Undone config faults file call.op := by
  have hnamed := hpossible.named
  obtain ⟨clock, op⟩ := call
  cases op with
  | createStream name streamConfig =>
      have hintact := @create_with_data_intact config faults file name [] clock streamConfig false
        (Size.fits .zero) message hnamed hexpired
      simp only [step, create_stream_eq] at hreply ⊢
      generalize createStreamWithData config faults clock file name streamConfig [] false = created
        at hreply hintact ⊢
      obtain ⟨error | made, after⟩ := created
      · have hreply := Except.error.inj (Reply.created.inj hreply)
        exact iff_of_true ((hintact (congrArg _ hreply)).mpr (by simp [Undone, payloadBytes])) trivial
      · cases hreply
  | createStreamWithData name streamConfig messages shouldClose fits =>
      exact create_with_data_intact hnamed hexpired (Reply.createdWithData.inj hreply)
  | closeStream name => exact close_stream_intact hexpired (Reply.done.inj hreply)
  | delete name => exact iff_of_false (delete_not_intact (Reply.done.inj hreply)) id
  | append | batchAppend | read | head | appendWithProducer | «exists» | subscribe => cases hop

/-- No metadata can be renamed into place and no directory removed. -/
def readOnly : Faults :=
  ⟨none, none, none, none, false, none, some "read-only", some "read-only", none⟩

/-- An operation on a storage with one stream that fails there. -/
def refusedBy (faults : Faults) (op : Op) : Reply × FileStorage :=
  step smallConfig faults ⟨.at 1, op⟩ oneStream

/-- Its stream does not expire. -/
theorem one_stream_live : NoneExpired 1 oneStream := by
  intro name stream hlookup
  have hstreams : oneStream.streams =
      (∅ : HashMap StreamEntry).insert "s" (.new 0 .plain 0 "cw") := by decide +kernel
  rw [hstreams, FiniteMap.lookup_insert_ite] at hlookup
  split at hlookup
  · obtain rfl := Option.some.inj hlookup
    rfl
  · cases hlookup

/-- A failed close leaves the stream closed, a failed delete leaves it removed, and a failed create
leaves its bytes on the counter. -/
theorem failed_operations_change_served_state :
    Possible smallConfig oneStream ∧ NoneExpired 1 oneStream ∧
    ((refusedBy readOnly (.closeStream "s")).1 = .done (.error (.storage
        "failed to atomically replace metadata streams/cw/meta.json: read-only")) ∧
      ¬ Intact oneStream (refusedBy readOnly (.closeStream "s")).2) ∧
    ((refusedBy readOnly (.delete "s")).1 = .done (.error (.storage
        "failed to remove stream directory streams/cw: read-only")) ∧
      ¬ Intact oneStream (refusedBy readOnly (.delete "s")).2) ∧
    ((refusedBy readOnly (.createStreamWithData "t" .plain [[1, 2]] false (by decide))).1 =
        .createdWithData (.error (.storage
          "failed to atomically replace metadata streams/dA/meta.json: read-only")) ∧
      ¬ Intact oneStream
        (refusedBy readOnly (.createStreamWithData "t" .plain [[1, 2]] false (by decide))).2) := by
  refine ⟨.attempt .new .none _, one_stream_live, ⟨by decide +kernel, fun h => ?_⟩,
    ⟨by decide +kernel, fun h => ?_⟩, by decide +kernel, fun h => ?_⟩
  · exact absurd (h.streams "s") (by decide +kernel)
  · exact absurd (h.streams "s") (by decide +kernel)
  · exact absurd h.total (by decide +kernel)

/-- No space is left after three bytes of a write. -/
def noSpace : Faults :=
  ⟨none, none, some (3, "no space left"), none, false, none, none, none, none⟩

/-- The same create takes the failure back if it comes earlier, while the data is written. -/
theorem failed_operation_intact_no_space :
    (refusedBy noSpace (.createStreamWithData "t" .plain [[1, 2]] false (by decide))).1 =
        .createdWithData (.error (.storage "failed to append stream log for t: no space left")) ∧
      Intact oneStream
        (refusedBy noSpace (.createStreamWithData "t" .plain [[1, 2]] false (by decide))).2 := by
  have hreply : (refusedBy noSpace (.createStreamWithData "t" .plain [[1, 2]] false (by decide))).1 =
      .createdWithData (.error (.storage "failed to append stream log for t: no space left")) := by
    decide +kernel
  refine ⟨hreply, (failed_operation_intact_iff smallConfig noSpace oneStream
    ⟨.at 1, .createStreamWithData "t" .plain [[1, 2]] false (by decide)⟩ _ (.attempt .new .none _) rfl
    one_stream_live hreply).mpr ?_⟩
  exact .inr (.inr (.inr (.inr (by decide +kernel))))

end DurableStreams.File
