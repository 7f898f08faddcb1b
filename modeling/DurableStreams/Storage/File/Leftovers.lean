import DurableStreams.Storage.File.Failures
import DurableStreams.Storage.File.Named

/-!
# What is left under the name of a new stream

A create that crashes before its metadata is written leaves a log, and so does a delete that crashes
after it has removed the metadata. A restart skips such a directory. The next create of that name
opens the log as it is and answers that the stream was created, but the old records come back when the
index is rebuilt (`leftovers_come_back`). When the directory of a new stream has no log, or an empty
one, the stream holds its own messages only, over any later appends and restarts
(`created_stream_has_own_data`).
-/

namespace DurableStreams.File

open Lib

/-- What happens to a stream after it was created: an append or a restart. -/
inductive Later where
  | append (call : Call)
  | restart (now : Timestamp) (listing : List String)

namespace Later

/-- Carry it out. The messages are those that were appended, going by the reply. -/
def run (config : Config) : Later → FileStorage → List Bytes × FileStorage
  | .append call, file =>
      let (reply, after) := step config .none call file
      (call.added reply, after)
  | .restart now listing, file => ([], reopen now listing file.disk)

/-- An append to the stream whose bytes can be counted, or a restart that goes through the whole
disk. -/
def Regular (name : String) : Later → FileStorage → Prop
  | .append call, file => call.op.name = name ∧ call.op.isAppend = true ∧
      file.totalBytes + payloadBytes call.op.messages < 2 ^ 64
  | .restart _ listing, file => Lists listing file.disk

instance (name : String) (event : Later) (file : FileStorage) :
    Decidable (event.Regular name file) :=
  match event with
  | .append call => inferInstanceAs (Decidable (call.op.name = name ∧ call.op.isAppend = true ∧
      file.totalBytes + payloadBytes call.op.messages < 2 ^ 64))
  | .restart _ listing => inferInstanceAs (Decidable (Lists listing file.disk))

/-- Whether the stream has expired when it is loaded. -/
def expires (streamConfig : StreamConfig) : Later → Bool
  | .append _ => false
  | .restart now _ => isStreamExpired now streamConfig

end Later

variable {config : Config} {clock : Clock} {name : String} {streamConfig : StreamConfig}
  {messages payloads : List Bytes} {shouldClose : Bool} {file left : FileStorage}

/-! ## Creating -/

section Creating

/-- A name that is claimed has nothing in its directory, unless something was left there under no
stream. -/
theorem claim_clean (h : Named file)
    (hclean : file.streams.lookup name = none → file.log (encodeName name) = [])
    (hclaim : claimName config .none clock file name = .vacant left) :
    left.log (encodeName name) = [] ∧ left.totalBytes ≤ file.totalBytes := by
  unfold claimName at hclaim
  cases hlookup : file.streams.lookup name with
  | none =>
      rw [hlookup] at hclaim
      obtain rfl := Slot.vacant.inj hclaim
      exact ⟨hclean hlookup, Nat.le_refl _⟩
  | some stream =>
      have hdir := h.entries name stream hlookup
      rw [hlookup] at hclaim
      dsimp only [removeStream, Faults.none] at hclaim
      split at hclaim
      · cases hvalid : validateStreamDir config stream.dir with
        | error error => simp [hvalid] at hclaim
        | ok =>
            simp only [hvalid, Slot.vacant.injEq] at hclaim
            rw [← hclaim, ← hdir]
            exact ⟨by simp [FileStorage.log], Nat.sub_le ..⟩
      · cases hclaim

/-- Preparing an entry when no file-system call fails. -/
theorem prepare_eq (config : Config) (clock : Clock) (left : FileStorage)
    (streamConfig : StreamConfig) (hname : name ≠ "") :
    prepareEntry config .none clock left name streamConfig =
      (.ok (.new clock.stamp streamConfig (left.log (encodeName name)).length (encodeName name)),
        ⟨left.streams, left.totalBytes, Disk.within (encodeName name) [.openLog]
          (Disk.createDir (encodeName name) left.disk)⟩) := by
  have hdir := encode_name_ne hname
  have hlog : (FileStorage.mk left.streams left.totalBytes (Disk.within (encodeName name) [.openLog]
      (Disk.createDir (encodeName name) left.disk))).log (encodeName name) =
        left.log (encodeName name) := by
    simp only [FileStorage.log, lookup_within, lookup_create_dir _ hdir, ↓reduceIte, Option.map_some]
    cases left.disk.lookup (encodeName name) <;> rfl
  simp only [prepareEntry, stream_dir_for_name_eq, validate_stream_dir_ok config hdir, Faults.none,
    FileStorage.act, hlog]

/-- The empty name has no directory of its own. -/
theorem prepare_unnamed (config : Config) (clock : Clock) (left : FileStorage)
    (streamConfig : StreamConfig) :
    ∃ error, (prepareEntry config .none clock left "" streamConfig).1 = .error error :=
  ⟨_, rfl⟩

/-- Writing the records of a batch when no file-system call fails. -/
theorem append_records_done {total logLen : Nat} {entry : StreamEntry}
    (hfits : total + payloadBytes messages < 2 ^ 64)
    (hresult : (appendRecords config .none name total logLen entry messages).result = .ok ()) :
    (∀ data ∈ messages, data.length < 2 ^ 32) ∧ ∃ after,
      SameIndex (messages.foldl StreamEntry.pushRecord entry) after ∧
      appendRecords config .none name total logLen entry messages =
        ⟨.ok (), total + payloadBytes messages, after, logActions messages⟩ := by
  by_cases hempty : messages = []
  · subst hempty
    exact ⟨by simp, entry, .refl _, rfl⟩
  obtain ⟨error, hrecords⟩ | ⟨hfails, -⟩ | ⟨-, hsizes, hrecords⟩ :=
    append_records_ends config .none name total logLen entry hempty hfits
  · rw [hrecords] at hresult
    cases hresult
  · simp [writeFails, Faults.none] at hfails
  · refine ⟨hsizes, (messages.foldl StreamEntry.pushRecord entry).notifyAll, ?_, ?_⟩
    · constructor <;> rfl
    · simp [hrecords, logActions, hempty]

/-- What a batch adds to a log. -/
theorem run_log_actions (found : Dir) (messages : List Bytes) :
    (found.run (logActions messages)).logBytes = found.logBytes ++ encodeRecords messages := by
  cases messages with
  | nil => exact (List.append_nil _).symm
  | cons data messages => rfl

/-- A directory with the log of an entry, once the entry is installed. -/
theorem install_survives {α : Type} {entry : StreamEntry} {opened : FileStorage} {found : Dir}
    (config : Config) (reply : α) (hname : name ≠ "") (hdir : entry.dir = encodeName name)
    (hfound : opened.disk.lookup (encodeName name) = some found)
    (hlog : found.logBytes = encodeRecords messages) (hindexed : Indexed messages entry)
    (hlen : entry.fileLen = (encodeRecords messages).length)
    (hsizes : ∀ data ∈ messages, data.length < 2 ^ 32)
    (htotal : payloadBytes messages ≤ opened.totalBytes)
    (hafter : Named (installEntry config .none opened name entry reply).2) :
    Surviving name entry.config messages [] (installEntry config .none opened name entry reply).2 := by
  have hmeta : writeMetadataFor config .none name entry =
      (.ok (), [.writeTmp (entry.metadata name), .renameMeta]) := by
    simp only [writeMetadataFor, hdir, validate_stream_dir_ok config (encode_name_ne hname),
      Faults.none]
  rw [installEntry, hmeta] at hafter ⊢
  refine ⟨⟨entry, Finmap.lookup_insert _, hdir, rfl, hindexed, fun _ => hlen⟩,
    ⟨found.run [.writeTmp (entry.metadata name), .renameMeta], entry.metadata name, ?_, ?_, rfl, rfl,
      rfl⟩, .inl (by decide), hsizes, htotal, hafter.total, hafter.dirs.wellNamed⟩
  · simp only [FileStorage.act, hdir, lookup_within, hfound, ↓reduceIte, Option.map_some]
  · rw [List.append_nil]
    exact hlog

/-- A create with data that answers that the stream was created has made a stream of its own messages,
if it has found no log. -/
theorem create_with_data_survives (h : Named file)
    (hclean : file.streams.lookup name = none → file.log (encodeName name) = [])
    (hfits : file.totalBytes + payloadBytes messages < 2 ^ 64)
    (hafter : Named (createStreamWithData config .none clock file name streamConfig messages
      shouldClose).2)
    (hcreated : ∃ offset closed, (createStreamWithData config .none clock file name streamConfig
      messages shouldClose).1 = .ok ⟨.created, offset, closed⟩) :
    Surviving name streamConfig messages [] (createStreamWithData config .none clock file name
      streamConfig messages shouldClose).2 := by
  obtain ⟨offset, closed, hcreated⟩ := hcreated
  unfold createStreamWithData at hcreated hafter ⊢
  cases hclaim : claimName config .none clock file name with
  | occupied stream =>
      rw [hclaim] at hcreated
      dsimp only at hcreated
      split at hcreated
      · simp at hcreated
      · cases hcreated
  | failed error left =>
      rw [hclaim] at hcreated
      cases hcreated
  | vacant left =>
      obtain ⟨hlog, htotal⟩ := claim_clean h hclean hclaim
      rw [hclaim] at hcreated hafter
      dsimp only at hcreated hafter ⊢
      by_cases hname : name = ""
      · obtain ⟨error, hprepared⟩ := prepare_unnamed config clock left streamConfig
        subst hname
        generalize prepareEntry config .none clock left "" streamConfig = prepared at *
        obtain ⟨_, _⟩ := prepared
        dsimp only at hprepared
        subst hprepared
        cases hcreated
      have hdir := encode_name_ne hname
      rw [prepare_eq config clock left streamConfig hname, hlog] at hcreated hafter ⊢
      dsimp only at hcreated hafter ⊢
      generalize hlen : (FileStorage.log _ _).length = logLen at hcreated hafter ⊢
      generalize hwritten : appendRecords config .none name left.totalBytes logLen
        (.new clock.stamp streamConfig 0 (encodeName name)) messages = written at *
      obtain ⟨result, total, pushed, actions⟩ := written
      cases result with
      | error error => cases hcreated
      | ok =>
          obtain ⟨hsizes, after, hsame, hdone⟩ := append_records_done
            ((Nat.add_le_add_right htotal _).trans_lt hfits) (congrArg Outcome.result hwritten)
          obtain ⟨-, rfl, rfl, rfl⟩ := Outcome.mk.inj (hwritten.symm.trans hdone)
          have hsame := hsame.trans (SameIndex.closeIf shouldClose pushed)
          obtain ⟨hkeepConfig, hkeepDir⟩ := foldl_push_record_keeps messages
            (.new clock.stamp streamConfig 0 (encodeName name))
          have hnew : Indexed [] (.new clock.stamp streamConfig 0 (encodeName name)) :=
            ⟨rfl, rfl, rfl, rfl⟩
          have hbytes : payloadBytes [] + payloadBytes messages < 2 ^ 64 := by
            rw [payloadBytes, List.map_nil, List.sum_nil]
            omega
          obtain ⟨hindexed, hlength⟩ := hnew.foldl_push rfl hbytes
          have hempty : ((left.disk.lookup (encodeName name)).getD .empty).logBytes = [] := by
            rw [← hlog, FileStorage.log]
            cases left.disk.lookup (encodeName name) <;> rfl
          have hfound : (Disk.within (encodeName name) (logActions messages)
              (Disk.within (encodeName name) [.openLog]
                (Disk.createDir (encodeName name) left.disk))).lookup (encodeName name) =
              some ((((left.disk.lookup (encodeName name)).getD .empty).run [.openLog]).run
                (logActions messages)) := by
            simp only [lookup_within, lookup_create_dir _ hdir, ↓reduceIte, Option.map_some]
          have hrecords : ((((left.disk.lookup (encodeName name)).getD .empty).run [.openLog]).run
              (logActions messages)).logBytes = encodeRecords messages := by
            rw [run_log_actions]
            exact congrArg (· ++ encodeRecords messages) hempty
          rw [← show _ = streamConfig from hsame.config.trans hkeepConfig]
          exact install_survives config _ hname (hsame.dir.trans hkeepDir) hfound hrecords
            (hindexed.same hsame) (hsame.fileLen.trans hlength) hsizes (Nat.le_add_left ..) hafter

/-- A call that answers that a stream was created has made a stream of its own messages, if it has
found no log. -/
theorem created_survives {call : Call} (h : Named file)
    (hclean : file.streams.lookup call.op.name = none → file.log (encodeName call.op.name) = [])
    (hfits : file.totalBytes + payloadBytes call.op.messages < 2 ^ 64)
    (hcreated : call.creates (step config .none call file).1 = true) :
    ∃ streamConfig ∈ call.op.config,
      Surviving call.op.name streamConfig call.op.messages [] (step config .none call file).2 := by
  have hafter := step_named config .none call h
  obtain ⟨clock, op⟩ := call
  cases op with
  | createStream name streamConfig =>
      refine ⟨streamConfig, rfl, ?_⟩
      simp only [step, create_stream_eq, Prod.map, id] at hcreated hafter ⊢
      refine create_with_data_survives h hclean hfits hafter ?_
      generalize hresult : (createStreamWithData config .none clock file name streamConfig []
        false).1 = reply at hcreated
      obtain error | ⟨_ | _, offset, closed⟩ := reply
      · cases hcreated
      · exact ⟨offset, closed, hresult⟩
      · cases hcreated
  | createStreamWithData name streamConfig messages shouldClose fits =>
      refine ⟨streamConfig, rfl, create_with_data_survives h hclean hfits hafter ?_⟩
      simp only [step, Prod.map, id] at hcreated
      generalize hresult : (createStreamWithData config .none clock file name streamConfig messages
        shouldClose).1 = reply at hcreated
      obtain error | ⟨_ | _, offset, closed⟩ := reply
      · cases hcreated
      · exact ⟨offset, closed, hresult⟩
      · cases hcreated
  | append | batchAppend | read | delete | head | closeStream | appendWithProducer | «exists»
  | subscribe => cases hcreated

end Creating

/-! ## Appends and restarts -/

section Runs

/-- A stream that is neither in memory nor on disk. -/
structure Gone (name : String) (file : FileStorage) : Prop where
  entry : file.streams.lookup name = none
  dir : file.disk.lookup (encodeName name) = none
  named : WellNamed file.disk

variable {event : Later}

/-- A section on a stream that is not there is not run. -/
theorem with_stream_absent {α : Type} (body : Nat → Nat → StreamEntry → Outcome α)
    (h : file.streams.lookup name = none) :
    withStream file name body = (.error (.notFound name), file) := by
  rw [withStream, h]

/-- An append to a stream that is not there changes nothing. -/
theorem append_absent {call : Call} (config : Config) (hop : call.op.isAppend = true)
    (h : file.streams.lookup call.op.name = none) : (step config .none call file).2 = file := by
  obtain ⟨clock, op⟩ := call
  cases op with
  | append => exact congrArg Prod.snd (congrArg (Prod.map _ id) (with_stream_absent _ h))
  | batchAppend name messages =>
      simp only [step, batchAppend]
      split
      · rfl
      · exact congrArg Prod.snd (congrArg (Prod.map _ id) (with_stream_absent _ h))
  | appendWithProducer =>
      exact congrArg Prod.snd (congrArg (Prod.map _ id) (with_stream_absent _ h))
  | createStream | read | delete | head | closeStream | createStreamWithData | «exists»
  | subscribe => cases hop

/-- A stream that is gone stays away. -/
theorem Gone.later (config : Config) (h : Gone name file) (hregular : event.Regular name file) :
    Gone name (event.run config file).2 := by
  cases event with
  | append call =>
      obtain ⟨rfl, hop, -⟩ := hregular
      rw [Later.run, append_absent config hop h.entry]
      exact h
  | restart now listing =>
      have hloading := reopen_loads now hregular h.named
      refine ⟨?_, ?_, h.named.reopen now hregular⟩
      · rw [Later.run, hloading.streams, h.dir, Option.bind_none, ite_self]
      · rw [Later.run, hloading.dirs, h.dir, Option.bind_none, ite_self]

/-- An append adds its messages to the stream, and a restart keeps them unless the stream has
expired. -/
theorem Surviving.later (config : Config) (h : Surviving name streamConfig payloads [] file)
    (hregular : event.Regular name file) (hlive : event.expires streamConfig = false) :
    Surviving name streamConfig (payloads ++ (event.run config file).1) []
      (event.run config file).2 := by
  cases event with
  | append call =>
      obtain ⟨rfl, hop, hfits⟩ := hregular
      have hnone : writeFails config .none = false := by simp [writeFails, Faults.none]
      have hharmless : Harmless config (.none, call) file := by
        intro entry hentry
        rw [hnone]
        exact .inr (h.leftover_eq hentry)
      obtain ⟨torn, htorn, hafter⟩ := h.attempt rfl hop hfits hharmless
      rw [htorn hnone] at hafter
      exact hafter
  | restart now listing =>
      rw [Later.run, List.append_nil]
      exact h.reopen hregular hlive

/-- A restart removes a stream that has expired. -/
theorem Surviving.expired (config : Config) (h : Surviving name streamConfig payloads [] file)
    (hregular : event.Regular name file) (hexpired : event.expires streamConfig = true) :
    Gone name (event.run config file).2 := by
  cases event with
  | append call => cases hexpired
  | restart now listing =>
      have hloading := reopen_loads now hregular h.named
      obtain ⟨found, saved, hfound, -, hjson, -, rfl⟩ := h.dir
      have hexpired : isStreamExpired now saved.config = true := hexpired
      refine ⟨?_, ?_, h.named.reopen now hregular⟩
      · rw [Later.run, hloading.streams, if_neg List.not_mem_nil, hfound]
        simp [revive, hjson, hexpired]
      · rw [Later.run, hloading.dirs, if_neg List.not_mem_nil, hfound]
        simp [remains, hjson, hexpired]

/-- A stream that is gone stays away over a whole run. -/
theorem gone_run {events : List Later} (h : Gone name file)
    (hregular : Along (Later.run config) (Later.Regular name) events file) :
    Gone name (exec (Later.run config) events file).2 :=
  exec_invariant (fun _ _ hevent hgone => Gone.later config hgone hevent) hregular h

/-- Over appends and restarts a stream collects the messages that are appended to it. It is there at
the end unless it has expired at a restart. -/
theorem surviving_run {events : List Later} (h : Surviving name streamConfig payloads [] file)
    (hregular : Along (Later.run config) (Later.Regular name) events file) :
    (Surviving name streamConfig (payloads ++ (exec (Later.run config) events file).1.flatten) []
        (exec (Later.run config) events file).2) ∨
      (∃ event ∈ events, event.expires streamConfig = true) ∧
        Gone name (exec (Later.run config) events file).2 := by
  induction events generalizing payloads file with
  | nil =>
      rw [exec_nil, List.flatten_nil, List.append_nil]
      exact .inl h
  | cons event events ih =>
      obtain ⟨hevent, hevents⟩ := hregular
      rw [exec_cons, List.flatten_cons, ← List.append_assoc]
      cases hexpires : event.expires streamConfig with
      | true =>
          refine .inr ⟨⟨event, by simp, hexpires⟩, ?_⟩
          exact gone_run (h.expired config hevent hexpires) hevents
      | false =>
          obtain hfinal | ⟨⟨other, hother, hexpired⟩, hgone⟩ :=
            ih (h.later config hevent hexpires) hevents
          · exact .inl hfinal
          · exact .inr ⟨⟨other, by simp [hother], hexpired⟩, hgone⟩

/-- In any storage that crashes, failures and restarts can lead to, a create that answers that the
stream was created makes a stream of its own messages only, if it has found no log under its name.
After any later appends and restarts the stream holds these and the appended messages, from offset
zero on, and it is there unless it has expired at a restart. -/
theorem created_stream_has_own_data (config : Config) (file : FileStorage) (call : Call)
    (events : List Later) (hpossible : Possible config file)
    (hcreated : call.creates (step config .none call file).1 = true)
    (hclean : file.streams.lookup call.op.name = none → file.log (encodeName call.op.name) = [])
    (hfits : file.totalBytes + payloadBytes call.op.messages < 2 ^ 64)
    (hregular : Along (Later.run config) (Later.Regular call.op.name) events
      (step config .none call file).2) :
    let later := exec (Later.run config) events (step config .none call file).2
    let messages := call.op.messages ++ later.1.flatten
    (∀ entry, later.2.streams.lookup call.op.name = some entry →
      contents later.2 entry = .ok messages ∧
        entry.index.map MessageIndex.offset = Log.offsets messages) ∧
      (later.2.streams.lookup call.op.name = none →
        ∃ streamConfig ∈ call.op.config, ∃ event ∈ events, event.expires streamConfig = true) := by
  intro later messages
  obtain ⟨streamConfig, hconfig, hsurviving⟩ := created_survives hpossible.named hclean hfits hcreated
  obtain hfinal | ⟨hexpired, hgone⟩ := surviving_run hsurviving hregular
  · obtain ⟨entry, hlookup, -, -, hindexed, -⟩ := hfinal.entry
    refine ⟨fun found hfound => ?_, fun hnone => ?_⟩
    · obtain rfl := Option.some.inj (hfound.symm.trans hlookup)
      refine ⟨hfinal.contents hfound, ?_⟩
      rw [hindexed.index, index_of_offsets]
    · cases hnone.symm.trans hlookup
  · refine ⟨fun found hfound => ?_, fun _ => ⟨streamConfig, hconfig, hexpired⟩⟩
    cases hfound.symm.trans hgone.entry

/-- Creating a stream with one message. -/
def createOne : Call := ⟨.at 0, .createStreamWithData "s" .plain [[1]] false (Size.fits .one)⟩

/-- The storage after a create with data has crashed before writing its metadata. -/
def crashedCreate : FileStorage :=
  reopen 1 [encodeName "s"] (Disk.within (encodeName "s")
    ((createActions smallConfig (.at 0) .new "s" .plain [[1]] false).take 2)
    (Disk.createDir (encodeName "s") FileStorage.new.disk))

/-- The storage after a delete has crashed when the metadata was removed and the log was not. -/
def crashedDelete : FileStorage :=
  reopen 1 [encodeName "s"] ((step smallConfig .none createOne .new).2.disk.insert (encodeName "s")
    ⟨some (encodeRecords [[1]]), none, none⟩)

/-- What a new, empty stream holds after it was created and the storage was restarted. -/
def recreated (file : FileStorage) : Reply × Option (Result (List Bytes)) :=
  let (reply, created) := step smallConfig .none ⟨.at 2, .createStream "s" .plain⟩ file
  let reopened := reopen 3 [encodeName "s"] created.disk
  (reply, (reopened.streams.lookup "s").map (contents reopened))

/-- The message of a create or of a delete that crashed is in the next stream of that name after a
restart, although that stream was created empty and nothing was appended to it. -/
theorem leftovers_come_back :
    (Possible smallConfig crashedCreate ∧
      recreated crashedCreate = (.created (.ok .created), some (.ok [[1]]))) ∧
    Possible smallConfig crashedDelete ∧
      recreated crashedDelete = (.created (.ok .created), some (.ok [[1]])) := by
  have hcreate : Crashed smallConfig .new createOne (Disk.within (encodeName "s")
      ((createActions smallConfig (.at 0) .new "s" .plain [[1]] false).take 2)
      (Disk.createDir (encodeName "s") FileStorage.new.disk)) :=
    .creating rfl 2
  have hdelete : Crashed smallConfig (step smallConfig .none createOne .new).2
      ⟨.at 0, .delete "s"⟩ ((step smallConfig .none createOne .new).2.disk.insert (encodeName "s")
        ⟨some (encodeRecords [[1]]), none, none⟩) := by
    obtain ⟨stream, hstream, hdir⟩ : ∃ stream,
        (step smallConfig .none createOne .new).2.streams.lookup "s" = some stream ∧
          stream.dir = encodeName "s" := ⟨_, rfl, by decide +kernel⟩
    obtain ⟨found, hfound, hlog⟩ : ∃ found,
        (step smallConfig .none createOne .new).2.disk.lookup (encodeName "s") = some found ∧
          found.log = some (encodeRecords [[1]]) := ⟨_, rfl, by decide +kernel⟩
    rw [← hdir] at hfound ⊢
    exact .removing hstream hfound (.inl rfl) ⟨.inr hlog.symm, .inl rfl, .inl rfl⟩
  exact ⟨⟨.crash .new _ hcreate 1 _ (by decide +kernel), by decide +kernel⟩,
    .crash (.attempt .new .none createOne) _ hdelete 1 _ (by decide +kernel), by decide +kernel⟩

/-- Creating a stream with a message, appending another one and restarting. -/
def createThenAppend : List Bytes × FileStorage :=
  (exec (Later.run smallConfig) [.append ⟨.at 1, .append "s" [7] "text/plain" (Size.fits .one)⟩,
    .restart 2 [encodeName "s"]] (step smallConfig .none createOne .new).2).map List.flatten id

/-- The stream holds both messages. -/
theorem created_stream_has_own_data_restart :
    ∃ entry, createThenAppend.2.streams.lookup "s" = some entry ∧
      contents createThenAppend.2 entry = .ok [[1], [7]] ∧
      entry.index.map MessageIndex.offset = [.new 0 0, .new 1 1] := by
  have hmessages : createThenAppend.1 = [[7]] := by decide +kernel
  have hpresent : createThenAppend.2.streams.lookup "s" ≠ none := by decide +kernel
  have hown := (created_stream_has_own_data smallConfig .new createOne
    [.append ⟨.at 1, .append "s" [7] "text/plain" (by decide)⟩, .restart 2 [encodeName "s"]]
    .new (by decide +kernel) (fun _ => by decide +kernel) (by decide +kernel) (by decide +kernel)).1
  obtain ⟨entry, hentry⟩ := Option.ne_none_iff_exists'.mp hpresent
  obtain ⟨hcontents, hoffsets⟩ := hown entry hentry
  refine ⟨entry, hentry, hcontents.trans ?_, hoffsets.trans ?_⟩
  · exact congrArg (fun rest => Except.ok ([[1]] ++ rest)) hmessages
  · exact (congrArg (fun rest => Log.offsets ([[1]] ++ rest)) hmessages).trans (by decide +kernel)

end Runs

end DurableStreams.File
