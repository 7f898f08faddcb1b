import DurableStreams.Storage.File.Loading
import DurableStreams.Storage.File.Refinement
import DurableStreams.Storage.File.Sections
import DurableStreams.Storage.File.Signals

/-!
# Storages after any failures

What holds of a file-backed storage whatever file-system calls have failed: every entry works in the
directory of its name, every metadata file is in the directory of the name it carries, and the byte
counter fits in 64 bits. A call keeps this (`step_named`), and so does reopening the disk
(`reopen_named`), also after a crash. So it holds of every storage that is possible at all
(`Possible.named`).
-/

namespace DurableStreams.File

open Lib

/-- A directory has a name, and the metadata in it, written or about to be renamed, is that of the
stream it belongs to. -/
structure Dir.Belongs (dir : String) (found : Dir) : Prop where
  name : dir ≠ ""
  saved : ∀ saved, found.metaJson = some saved ∨ found.metaTmp = some saved →
    dir = encodeName saved.name

/-- Every directory belongs to the stream its metadata names. -/
def DirsNamed (disk : Disk) : Prop :=
  ∀ dir found, disk.lookup dir = some found → found.Belongs dir

/-- What holds of a storage whatever has failed. -/
structure Named (file : FileStorage) : Prop where
  entries : ∀ name stream, file.streams.lookup name = some stream → stream.dir = encodeName name
  names : file.streams.lookup "" = none
  dirs : DirsNamed file.disk
  total : file.totalBytes < 2 ^ 64

/-- Changes in a directory that write metadata of its stream only. -/
def WritesOwn (dir : String) (actions : List DirAction) : Prop :=
  ∀ saved, DirAction.writeTmp saved ∈ actions → dir = encodeName saved.name

section Disks

variable {disk : Disk} {dir name : String} {actions : List DirAction}

/-- A directory belongs to its stream after such changes. -/
theorem Dir.Belongs.run {found : Dir} (h : found.Belongs dir) (hactions : WritesOwn dir actions) :
    (found.run actions).Belongs dir := by
  induction actions generalizing found with
  | nil => exact h
  | cons action actions ih =>
      refine ih ?_ fun saved hsaved => hactions saved (List.mem_cons_of_mem _ hsaved)
      cases action with
      | openLog | appendLog => exact ⟨h.name, h.saved⟩
      | writeTmp content =>
          refine ⟨h.name, ?_⟩
          rintro saved (hjson | htmp)
          · exact h.saved saved (.inl hjson)
          · obtain rfl := Option.some.inj htmp
            exact hactions content (List.mem_cons_self ..)
      | renameMeta =>
          refine ⟨h.name, ?_⟩
          rintro saved (hjson | htmp)
          · exact h.saved saved (.inr hjson)
          · cases htmp

/-- Directories keep their names. -/
theorem DirsNamed.within (h : DirsNamed disk) (hactions : WritesOwn dir actions) :
    DirsNamed (Disk.within dir actions disk) := by
  intro other found hfound
  rw [lookup_within] at hfound
  split at hfound
  · next heq =>
      obtain ⟨old, hold, rfl⟩ := Option.map_eq_some_iff.mp hfound
      rw [heq]
      exact (h dir old hold).run hactions
  · exact h other found hfound

theorem DirsNamed.erase (h : DirsNamed disk) (dir : String) : DirsNamed (disk.erase dir) := by
  intro other found hfound
  rw [FiniteMap.lookup_erase_ite] at hfound
  split at hfound
  · cases hfound
  · exact h other found hfound

theorem DirsNamed.insert {found : Dir} (h : DirsNamed disk) (hfound : found.Belongs dir) :
    DirsNamed (disk.insert dir found) := by
  intro other changed hchanged
  rw [FiniteMap.lookup_insert_ite] at hchanged
  split at hchanged
  · next heq =>
      obtain rfl := Option.some.inj hchanged
      rwa [heq]
  · exact h other changed hchanged

theorem DirsNamed.createDir (h : DirsNamed disk) (dir : String) :
    DirsNamed (Disk.createDir dir disk) := by
  unfold Disk.createDir
  split
  · exact h
  next hnew =>
    refine h.insert ⟨fun hdir => hnew (.inl hdir), ?_⟩
    rintro saved (hjson | htmp) <;> contradiction

theorem DirsNamed.wellNamed (h : DirsNamed disk) : WellNamed disk :=
  fun dir found saved hfound hjson => (h dir found hfound).saved saved (.inl hjson)

/-- Changes that only touch the log. -/
theorem WritesOwn.nil (dir : String) : WritesOwn dir [] := by simp [WritesOwn]

theorem WritesOwn.appendLog (dir : String) (bytes : Bytes) : WritesOwn dir [.appendLog bytes] := by
  simp [WritesOwn]

theorem WritesOwn.append {first second : List DirAction} (h : WritesOwn dir first)
    (h' : WritesOwn dir second) : WritesOwn dir (first ++ second) := by
  intro saved hsaved
  exact (List.mem_append.mp hsaved).elim (h saved) (h' saved)

/-- Persisting the metadata of a stream in its own directory. -/
theorem PersistsMeta.writesOwn {config : StreamConfig} (h : PersistsMeta name config actions) :
    WritesOwn (encodeName name) actions := by
  obtain rfl | ⟨saved, ⟨rfl, -⟩, rfl | rfl⟩ := h
  · exact .nil _
  · simp [WritesOwn]
  · simp [WritesOwn]

end Disks

section Steps

variable {config : Config} {faults : Faults} {name : String} {file : FileStorage}
  {stream : StreamEntry} {messages : List Bytes} {total logLen : Nat}

/-- What writing records leaves: the directory of the entry, a counter that fits, and bytes in the
log. -/
theorem RecordsCase.own {written : Outcome Unit} (h : RecordsCase total stream messages written)
    (htotal : total < 2 ^ 64) :
    written.stream.dir = stream.dir ∧ written.total < 2 ^ 64 ∧
      ∀ dir, WritesOwn dir written.actions := by
  cases h with
  | quiet => exact ⟨rfl, htotal, WritesOwn.nil⟩
  | failed hcounter => exact ⟨rfl, hcounter, fun dir => .appendLog dir _⟩
  | written hcounter =>
      exact ⟨(foldl_push_record_keeps messages stream).2, hcounter, fun dir => .appendLog dir _⟩

/-- What a section on an entry leaves. -/
structure Outcome.Own {α : Type} (name : String) (stream : StreamEntry) (outcome : Outcome α) :
    Prop where
  dir : outcome.stream.dir = stream.dir
  total : outcome.total < 2 ^ 64
  actions : WritesOwn (encodeName name) outcome.actions

/-- However an append ends. -/
theorem AppendCase.own {α : Type} {seq : Option String} {closes : Bool} {now : Timestamp}
    {wrap : Result α → Reply} {outcome : Outcome α}
    (h : AppendCase config faults name messages seq closes now total logLen stream wrap outcome)
    (htotal : total < 2 ^ 64) : outcome.Own name stream := by
  have hdir {checked : StreamEntry} (hchecked : Checked now stream checked) :
      checked.dir = stream.dir := by
    obtain rfl | rfl := hchecked <;> rfl
  cases h with
  | quiet hchecked => exact ⟨hdir hchecked, htotal, .nil _⟩
  | @failed checked _ _ hchecked =>
      obtain ⟨hkept, hcounter, hactions⟩ :=
        (append_records_outcome config faults name total logLen checked messages).own htotal
      exact ⟨hkept.trans (hdir hchecked), hcounter, hactions _⟩
  | @stored checked _ _ _ _ hchecked _ _ hafter hpersisted =>
      obtain ⟨hkept, hcounter, hactions⟩ :=
        (append_records_outcome config faults name total logLen checked messages).own htotal
      exact ⟨hafter.index.dir.trans (hkept.trans (hdir hchecked)), hcounter,
        (hactions _).append hpersisted.writesOwn⟩

/-- However closing ends. -/
theorem close_section_own (config : Config) (faults : Faults) (clock : Clock) (name : String)
    (stream : StreamEntry) (htotal : total < 2 ^ 64) :
    (closeSection config faults clock name total stream).Own name stream := by
  unfold closeSection
  split
  · exact ⟨rfl, htotal, .nil _⟩
  have hactions := (@write_metadata_for_actions config faults name { stream with closed := true } _
    rfl).writesOwn
  dsimp only
  generalize writeMetadataFor config faults name { stream with closed := true } = written at hactions
  obtain ⟨_ | _, actions⟩ := written <;> exact ⟨rfl, htotal, hactions⟩

/-- Every stream has a name. -/
theorem Named.name_ne (h : Named file) (hlookup : file.streams.lookup name = some stream) :
    name ≠ "" := by
  rintro rfl
  cases h.names.symm.trans hlookup

/-- A section on a stream keeps the storage named. -/
theorem Named.runSection {α : Type} (h : Named file) (body : Nat → Nat → StreamEntry → Outcome α)
    (hbody : ∀ logLen stream, (body file.totalBytes logLen stream).Own name stream) :
    Named (withStream file name body).2 := by
  unfold withStream
  cases hlookup : file.streams.lookup name with
  | none => exact h
  | some stream =>
      have hown := hbody (file.log stream.dir).length stream
      have hdir := h.entries name stream hlookup
      refine ⟨fun other entry hentry => ?_, ?_, h.dirs.within (hdir ▸ hown.actions), hown.total⟩
      · rw [FiniteMap.lookup_insert_ite] at hentry
        split at hentry
        · next heq =>
            obtain rfl := Option.some.inj hentry
            rw [heq, hown.dir, hdir]
        · exact h.entries other entry hentry
      · rw [FiniteMap.lookup_insert_ite, if_neg (h.name_ne hlookup).symm]
        exact h.names

/-- Removing a stream keeps the storage named. -/
theorem Named.remove (h : Named file) (config : Config) (faults : Faults) (name : String)
    (stream : StreamEntry) : Named (removeStream config faults file name stream).2 := by
  have hentries : ∀ other entry, (file.streams.erase name).lookup other = some entry →
      entry.dir = encodeName other := by
    intro other entry hentry
    rw [FiniteMap.lookup_erase_ite] at hentry
    split at hentry
    · cases hentry
    · exact h.entries other entry hentry
  have hnames : (file.streams.erase name).lookup "" = none := by
    rw [FiniteMap.lookup_erase_ite, h.names, ite_self]
  have htotal : file.totalBytes - stream.totalBytes < 2 ^ 64 := (Nat.sub_le _ _).trans_lt h.total
  unfold removeStream
  dsimp only
  split
  · exact ⟨hentries, hnames, h.dirs, htotal⟩
  split
  · exact ⟨hentries, hnames, h.dirs, htotal⟩
  · exact ⟨hentries, hnames, h.dirs.erase _, htotal⟩

/-- The storage a create goes on with. -/
def Slot.Named : Slot → Prop
  | .occupied _ => True
  | .failed _ left | .vacant left => File.Named left

theorem Named.claim (h : Named file) (config : Config) (faults : Faults) (clock : Clock)
    (name : String) : (claimName config faults clock file name).Named := by
  unfold claimName
  cases file.streams.lookup name with
  | none => exact h
  | some stream =>
      dsimp only
      split
      · have hremove := h.remove config faults name stream
        generalize removeStream config faults file name stream = removed at hremove
        obtain ⟨_ | _, left⟩ := removed <;> exact hremove
      · trivial

/-- Preparing an entry keeps the storage named and works in the directory of the stream. -/
theorem Named.prepare (h : Named file) (config : Config) (faults : Faults) (clock : Clock)
    (name : String) (streamConfig : StreamConfig) :
    let prepared := prepareEntry config faults clock file name streamConfig
    Named prepared.2 ∧
      ∀ entry, prepared.1 = .ok entry → entry.dir = encodeName name ∧ name ≠ "" := by
  have hcreated : Named { file with disk := Disk.createDir (encodeName name) file.disk } :=
    ⟨h.entries, h.names, h.dirs.createDir _, h.total⟩
  unfold prepareEntry
  rw [stream_dir_for_name_eq]
  dsimp only
  split
  · exact ⟨h, by simp⟩
  split
  · exact ⟨hcreated, by simp⟩
  next hvalid =>
  split
  · exact ⟨hcreated, by simp⟩
  · refine ⟨⟨h.entries, h.names, hcreated.dirs.within (by simp [WritesOwn]), h.total⟩,
      fun entry hentry => ?_⟩
    obtain rfl := Except.ok.inj hentry
    refine ⟨rfl, ?_⟩
    rintro rfl
    simp [validateStreamDir, show encodeName "" = "" from rfl] at hvalid

/-- Installing an entry that works in the directory of its stream keeps the storage named. -/
theorem Named.install {α : Type} {entry : StreamEntry} (h : Named file) (config : Config)
    (faults : Faults) (hdir : entry.dir = encodeName name ∧ name ≠ "") (reply : α) :
    Named (installEntry config faults file name entry reply).2 := by
  have hactions := (@write_metadata_for_actions config faults name entry _ rfl).writesOwn
  unfold installEntry
  generalize writeMetadataFor config faults name entry = written at hactions
  have hdirs : DirsNamed (Disk.within entry.dir written.2 file.disk) :=
    h.dirs.within (hdir.1 ▸ hactions)
  obtain ⟨_ | _, actions⟩ := written
  · exact ⟨h.entries, h.names, hdirs, h.total⟩
  · refine ⟨fun other found hfound => ?_, ?_, hdirs, h.total⟩
    · dsimp only at hfound
      rw [FiniteMap.lookup_insert_ite] at hfound
      split at hfound
      · next heq =>
          obtain rfl := Option.some.inj hfound
          rw [heq, hdir.1]
      · exact h.entries other found hfound
    · rw [FiniteMap.lookup_insert_ite, if_neg hdir.2.symm]
      exact h.names

/-- A create puts the stream where its name says. -/
theorem Named.create (h : Named file) (config : Config) (faults : Faults) (clock : Clock)
    (name : String) (streamConfig : StreamConfig) (messages : List Bytes) (shouldClose : Bool) :
    Named (createStreamWithData config faults clock file name streamConfig messages
      shouldClose).2 := by
  have hclaim := h.claim config faults clock name
  unfold createStreamWithData
  generalize claimName config faults clock file name = slot at hclaim
  cases slot with
  | occupied found => dsimp only; split <;> exact h
  | failed error left => exact hclaim
  | vacant left =>
      obtain ⟨hprepared, hdir⟩ := Named.prepare hclaim config faults clock name streamConfig
      dsimp only
      generalize prepareEntry config faults clock left name streamConfig = prepared at *
      obtain ⟨_ | entry, left⟩ := prepared
      · exact hprepared
      · obtain ⟨hkept, hcounter, hactions⟩ := (append_records_outcome config faults name
          left.totalBytes (left.log entry.dir).length entry messages).own hprepared.total
        dsimp only
        have hwritten : Named { left.act entry.dir (appendRecords config faults name
            left.totalBytes (left.log entry.dir).length entry messages).actions with
            totalBytes := (appendRecords config faults name left.totalBytes
              (left.log entry.dir).length entry messages).total } :=
          ⟨hprepared.entries, hprepared.names, hprepared.dirs.within (hactions _), hcounter⟩
        split
        · exact hwritten
        · refine hwritten.install config faults ⟨?_, (hdir entry rfl).2⟩ _
          rw [(SameIndex.closeIf shouldClose _).dir, hkept, (hdir entry rfl).1]

/-- Whatever fails in a call, the storage stays named. -/
theorem step_named (config : Config) (faults : Faults) (call : Call) (h : Named file) :
    Named (step config faults call file).2 := by
  cases hop : call.op.isAppend with
  | true =>
      obtain ⟨_, -, hstep⟩ | ⟨_, _, body, _, -, hcases, hstep⟩ := append_step config faults file hop
      · rw [hstep]
        exact h
      · rw [hstep]
        exact h.runSection body fun logLen stream => (hcases _ logLen stream).own h.total
  | false =>
  obtain ⟨clock, op⟩ := call
  cases op with
  | createStream name streamConfig =>
      simp only [step, create_stream_eq]
      exact h.create config faults clock name streamConfig [] false
  | createStreamWithData name streamConfig messages shouldClose fits =>
      exact h.create config faults clock name streamConfig messages shouldClose
  | append | batchAppend | appendWithProducer => cases hop
  | closeStream name =>
      exact h.runSection (fun total _ => closeSection config faults clock name total)
        fun logLen stream => close_section_own config faults clock name stream h.total
  | delete name =>
      simp only [step, delete]
      cases file.streams.lookup name with
      | none => exact h
      | some stream => exact h.remove config faults name stream
  | read | head | «exists» | subscribe => exact h

/-! ## Other directories -/

/-- Removing a stream leaves the other directories alone. -/
theorem remove_dir_others (config : Config) (faults : Faults) {target : String}
    (hdir : stream.dir = encodeName target) (hname : target ≠ name) :
    (removeStream config faults file target stream).2.disk.lookup (encodeName name) =
      file.disk.lookup (encodeName name) := by
  have hother : encodeName name ≠ stream.dir := fun heq => hname (encode_name_inj (hdir ▸ heq)).symm
  unfold removeStream
  dsimp only
  split
  · rfl
  · split
    · rfl
    · exact Finmap.lookup_erase_ne hother

/-- What a create finds leaves the other directories alone. -/
def Slot.KeepsDir (name : String) (file : FileStorage) : Slot → Prop
  | .occupied _ => True
  | .failed _ left | .vacant left =>
      left.disk.lookup (encodeName name) = file.disk.lookup (encodeName name)

theorem claim_name_keeps_dir (config : Config) (faults : Faults) (clock : Clock) {target : String}
    (h : Named file) (hname : target ≠ name) :
    (claimName config faults clock file target).KeepsDir name file := by
  unfold claimName
  cases hlookup : file.streams.lookup target with
  | none => rfl
  | some stream =>
      dsimp only
      split
      · have hremove := @remove_dir_others name file stream config faults target
          (h.entries target stream hlookup) hname
        generalize removeStream config faults file target stream = removed at hremove
        obtain ⟨_ | _, left⟩ := removed <;> exact hremove
      · trivial

/-- Preparing an entry leaves the other directories alone. -/
theorem prepare_dir_others (config : Config) (faults : Faults) (clock : Clock) {target : String}
    (streamConfig : StreamConfig) (hname : target ≠ name) :
    (prepareEntry config faults clock file target streamConfig).2.disk.lookup (encodeName name) =
      file.disk.lookup (encodeName name) := by
  have hother : encodeName name ≠ encodeName target := fun heq => hname (encode_name_inj heq).symm
  have hcreated : (Disk.createDir (encodeName target) file.disk).lookup (encodeName name) =
      file.disk.lookup (encodeName name) := by
    unfold Disk.createDir
    split
    · rfl
    · exact Finmap.lookup_insert_of_ne _ hother
  unfold prepareEntry
  rw [stream_dir_for_name_eq]
  dsimp only
  split
  · rfl
  split
  · exact hcreated
  split
  · exact hcreated
  · rw [FileStorage.act, lookup_within, if_neg hother]
    exact hcreated

/-- A section leaves the directories of other streams alone. -/
theorem with_stream_dir_others {α : Type} {target : String} (h : Named file) (hname : target ≠ name)
    (body : Nat → Nat → StreamEntry → Outcome α) :
    (withStream file target body).2.disk.lookup (encodeName name) =
      file.disk.lookup (encodeName name) := by
  unfold withStream
  cases hlookup : file.streams.lookup target with
  | none => rfl
  | some stream =>
      refine (lookup_within ..).trans (if_neg fun heq => hname ?_)
      exact (encode_name_inj (heq.trans (h.entries target stream hlookup))).symm

/-- A create leaves the directories of other streams alone. -/
theorem create_dir_others (config : Config) (faults : Faults) (clock : Clock) {target : String}
    (streamConfig : StreamConfig) (messages : List Bytes) (shouldClose : Bool) (h : Named file)
    (hname : target ≠ name) :
    (createStreamWithData config faults clock file target streamConfig messages
      shouldClose).2.disk.lookup (encodeName name) = file.disk.lookup (encodeName name) := by
  have hclaim := claim_name_keeps_dir config faults clock h hname
  have hleft := h.claim config faults clock target
  unfold createStreamWithData
  generalize claimName config faults clock file target = slot at hclaim hleft
  cases slot with
  | occupied stream =>
      dsimp only
      split <;> rfl
  | failed error left => exact hclaim
  | vacant left =>
      have hkept := @prepare_dir_others name left config faults clock target streamConfig hname
      obtain ⟨hprepared, hdir⟩ := hleft.prepare config faults clock target streamConfig
      dsimp only at hprepared hdir ⊢
      generalize prepareEntry config faults clock left target streamConfig =
        prepared at hkept hprepared hdir
      obtain ⟨error | entry, opened⟩ := prepared
      · exact hkept.trans hclaim
      · have hother (written : StreamEntry) (hwritten : written.dir = entry.dir) :
            encodeName name ≠ written.dir := fun heq =>
          hname (encode_name_inj (heq.trans (hwritten.trans (hdir entry rfl).1))).symm
        have hwithin (actions : List DirAction) :
            (Disk.within entry.dir actions opened.disk).lookup (encodeName name) =
              file.disk.lookup (encodeName name) :=
          (lookup_within ..).trans ((if_neg (hother entry rfl)).trans (hkept.trans hclaim))
        dsimp only
        split
        · exact hwithin _
        · have hsame := (SameIndex.closeIf shouldClose _).dir.trans
            ((append_records_outcome config faults target opened.totalBytes
              (opened.log entry.dir).length entry messages).own hprepared.total).1
          unfold installEntry
          split <;> exact (lookup_within ..).trans ((if_neg (hother _ hsame)).trans (hwithin _))

/-- An operation under another name leaves the directory of a stream alone. -/
theorem step_dir_others (config : Config) (faults : Faults) {call : Call} (h : Named file)
    (hname : call.op.name ≠ name) :
    (step config faults call file).2.disk.lookup (encodeName name) =
      file.disk.lookup (encodeName name) := by
  obtain ⟨clock, op⟩ := call
  cases op with
  | createStream target streamConfig =>
      simp only [step, create_stream_eq]
      exact create_dir_others config faults clock streamConfig [] false h hname
  | createStreamWithData target streamConfig messages shouldClose fits =>
      exact create_dir_others config faults clock streamConfig messages shouldClose h hname
  | append target data contentType fits => exact with_stream_dir_others h hname _
  | batchAppend target messages contentType seq fits =>
      simp only [step, batchAppend]
      split
      · rfl
      · exact with_stream_dir_others h hname _
  | appendWithProducer target messages contentType producer shouldClose seq fits =>
      exact with_stream_dir_others h hname _
  | closeStream target =>
      exact with_stream_dir_others h hname fun total _ => closeSection config faults clock target total
  | delete target =>
      simp only [step, delete]
      cases hlookup : file.streams.lookup target with
      | none => rfl
      | some stream => exact remove_dir_others config faults (h.entries target stream hlookup) hname
  | read | head | «exists» | subscribe => rfl

end Steps

/-- Reopening a disk whose directories are named. -/
theorem reopen_named {disk : Disk} {listing : List String} (now : Timestamp) (h : DirsNamed disk)
    (hlisting : Lists listing disk) : Named (reopen now listing disk) := by
  have hloading := reopen_loads now hlisting h.wellNamed
  refine ⟨fun name stream hlookup => ?_, ?_, fun dir left hleft => ?_, ?_⟩
  · rw [hloading.streams, if_neg List.not_mem_nil] at hlookup
    obtain ⟨found, -, hrevive⟩ := Option.bind_eq_some_iff.mp hlookup
    unfold revive at hrevive
    split at hrevive
    · cases hrevive
    · split at hrevive
      · cases hrevive
      · obtain rfl := Option.some.inj hrevive
        rfl
  · rw [hloading.streams, if_neg List.not_mem_nil, Option.bind_eq_none_iff]
    exact fun found hfound => absurd rfl (h _ found hfound).name
  · rw [hloading.dirs, if_neg List.not_mem_nil] at hleft
    obtain ⟨found, hfound, hremains⟩ := Option.bind_eq_some_iff.mp hleft
    have hbelongs := h dir found hfound
    unfold remains at hremains
    split at hremains
    · obtain rfl := Option.some.inj hremains
      exact hbelongs
    · split at hremains
      · cases hremains
      · obtain rfl := Option.some.inj hremains
        exact ⟨hbelongs.name, hbelongs.saved⟩
  · rw [hloading.total]
    exact (Nat.min_le_right ..).trans_lt (by decide)

/-! ## Crashes -/

/-- The changes that a create makes in the directory of its stream, in order. -/
def createActions (config : Config) (clock : Clock) (file : FileStorage) (name : String)
    (streamConfig : StreamConfig) (messages : List Bytes) (shouldClose : Bool) : List DirAction :=
  let dir := encodeName name
  let logLen := (file.log dir).length
  let written := appendRecords config .none name file.totalBytes logLen
    (.new clock.stamp streamConfig logLen dir) messages
  .openLog :: (written.actions ++
    match written.result with
    | .error _ => []
    | .ok () => (writeMetadataFor config .none name (written.stream.closeIf shouldClose)).2)

/-- Some of the files of a directory. -/
structure Dir.PartOf (kept found : Dir) : Prop where
  log : kept.log = none ∨ kept.log = found.log
  metaJson : kept.metaJson = none ∨ kept.metaJson = found.metaJson
  metaTmp : kept.metaTmp = none ∨ kept.metaTmp = found.metaTmp

/-- The disk after a crash in a call: while an expired or deleted stream is removed, some files of its
directory are left; a create with data gets as far as some of its changes. -/
inductive Crashed (config : Config) (file : FileStorage) : Call → Disk → Prop
  | removing {call : Call} {stream : StreamEntry} {found kept : Dir}
      (hlookup : file.streams.lookup call.op.name = some stream)
      (hfound : file.disk.lookup stream.dir = some found)
      (hop : call.op = .delete call.op.name ∨
        call.op.config.isSome ∧ isStreamExpired call.clock.expiry stream.config = true)
      (hkept : kept.PartOf found) : Crashed config file call (file.disk.insert stream.dir kept)
  | claimed {call : Call} {left : FileStorage}
      (hclaim : claimName config .none call.clock file call.op.name = .vacant left)
      (hop : call.op.config.isSome) : Crashed config file call left.disk
  | creating {clock : Clock} {name : String} {streamConfig : StreamConfig} {messages : List Bytes}
      {shouldClose : Bool} {fits : payloadBytes messages < 2 ^ 64} {left : FileStorage}
      (hclaim : claimName config .none clock file name = .vacant left) (count : Nat) :
      Crashed config file
        ⟨clock, .createStreamWithData name streamConfig messages shouldClose fits⟩
        (Disk.within (encodeName name)
          ((createActions config clock left name streamConfig messages shouldClose).take count)
          (Disk.createDir (encodeName name) left.disk))

/-- The storages reached by calls in which any file-system calls may fail, by crashes and by
restarts. -/
inductive Possible (config : Config) : FileStorage → Prop
  | new : Possible config .new
  | attempt {file : FileStorage} (h : Possible config file) (faults : Faults) (call : Call) :
      Possible config (step config faults call file).2
  | reopen {file : FileStorage} (h : Possible config file) (now : Timestamp) (listing : List String)
      (hlisting : Lists listing file.disk) : Possible config (reopen now listing file.disk)
  | crash {file : FileStorage} {disk : Disk} (h : Possible config file) (call : Call)
      (hcrash : Crashed config file call disk) (now : Timestamp) (listing : List String)
      (hlisting : Lists listing disk) : Possible config (File.reopen now listing disk)

/-- A create writes metadata of its own stream. -/
theorem create_actions_own (config : Config) (clock : Clock) {file : FileStorage} (name : String)
    (streamConfig : StreamConfig) (messages : List Bytes) (shouldClose : Bool)
    (htotal : file.totalBytes < 2 ^ 64) :
    WritesOwn (encodeName name)
      (createActions config clock file name streamConfig messages shouldClose) := by
  obtain ⟨-, -, hactions⟩ := (append_records_outcome config .none name file.totalBytes
    (file.log (encodeName name)).length (.new clock.stamp streamConfig
      (file.log (encodeName name)).length (encodeName name)) messages).own htotal
  intro saved hsaved
  unfold createActions at hsaved
  dsimp only at hactions hsaved
  obtain hopen | hsaved := List.mem_cons.mp hsaved
  · cases hopen
  refine (hactions (encodeName name)).append ?_ saved hsaved
  split
  · exact .nil _
  · exact (write_metadata_for_actions config .none name rfl).writesOwn

/-- After a crash the directories are still named. -/
theorem Crashed.dirs {config : Config} {file : FileStorage} {call : Call} {disk : Disk}
    (hcrash : Crashed config file call disk) (h : Named file) : DirsNamed disk := by
  cases hcrash with
  | @removing _ stream found kept hlookup hfound hop hkept =>
      have hbelongs := h.dirs stream.dir found hfound
      refine h.dirs.insert ⟨hbelongs.name, ?_⟩
      rintro saved (hjson | htmp)
      · exact hbelongs.saved saved (.inl ((hkept.metaJson.resolve_left (by simp [hjson])) ▸ hjson))
      · exact hbelongs.saved saved (.inr ((hkept.metaTmp.resolve_left (by simp [htmp])) ▸ htmp))
  | claimed hclaim hop =>
      have hleft := h.claim config .none call.clock call.op.name
      rw [hclaim] at hleft
      exact hleft.dirs
  | @creating clock name streamConfig messages shouldClose fits left hclaim count =>
      have hleft := h.claim config .none clock name
      rw [hclaim] at hleft
      refine (hleft.dirs.createDir _).within fun saved hsaved => ?_
      exact create_actions_own config clock name streamConfig messages shouldClose hleft.total saved
        (List.mem_of_mem_take hsaved)

/-- Possible storages are named. -/
theorem Possible.named {config : Config} {file : FileStorage} (h : Possible config file) :
    Named file := by
  induction h with
  | new => exact ⟨by simp [FileStorage.new], rfl, by simp [FileStorage.new, DirsNamed], by decide⟩
  | attempt _ faults call ih => exact step_named config faults call ih
  | reopen _ now listing hlisting ih => exact reopen_named now ih.dirs hlisting
  | crash _ call hcrash now listing hlisting ih => exact reopen_named now (hcrash.dirs ih) hlisting

end DurableStreams.File
