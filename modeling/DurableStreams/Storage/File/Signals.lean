import DurableStreams.Storage.File.Sections
import DurableStreams.Storage.Memory.Sections
import DurableStreams.Storage.Subscribers

/-!
# Subscribers of the file storage

As in the in-memory storage the channel of a stream is kept with the stream. Here `append` sends, but
a close does not when the metadata of the stream cannot be written.
-/

namespace DurableStreams.File

open Lib

/-- Whether the metadata of a stream cannot be written. -/
def metadataFails (config : Config) (faults : Faults) (stream : StreamEntry) : Bool :=
  faults.writeTmp.isSome || faults.rename.isSome || !(validateStreamDir config stream.dir).toBool

/-- The operations that may move the tail or close the stream without a send: requests of producers
that only close the stream, and closing it when its metadata cannot be written. -/
def Silent (config : Config) (faults : Faults) (stream : StreamEntry) : Op → Bool
  | .appendWithProducer _ messages _ _ shouldClose _ _ => messages.isEmpty && shouldClose
  | .closeStream _ => metadataFails config faults stream
  | _ => false

/-- What a subscriber watches. -/
def StreamEntry.signal (stream : StreamEntry) : (Offset × Bool) × Nat :=
  ((stream.nextOffset, stream.closed), stream.notify)

section Sections

variable (config : Config) (faults : Faults) (clock : Clock) (name : String) (total logLen : Nat)
  (stream : StreamEntry)

theorem push_records_notify (messages : List Bytes) :
    (messages.foldl StreamEntry.pushRecord stream).notify = stream.notify := by
  induction messages generalizing stream with
  | nil => rfl
  | cons data messages ih => exact ih (stream.pushRecord data)

/-- Records are appended with a send, or nothing is. -/
theorem RecordsCase.signal {messages : List Bytes} {written : Outcome Unit}
    (h : RecordsCase total stream messages written) :
    (written.stream.signal = stream.signal ∧ (written.result = .ok () → messages = [])) ∨
      written.stream.notify = stream.notify + 1 := by
  cases h with
  | quiet hresult => exact .inl ⟨rfl, hresult⟩
  | failed => exact .inl ⟨rfl, nofun⟩
  | written => exact .inr (congrArg (· + 1) (push_records_notify stream messages))

variable {config faults name total logLen stream} in
/-- An append tells its subscribers unless it only closes the stream. -/
theorem AppendCase.tells {α : Type} {silent : Prop} {messages : List Bytes} {seq : Option String}
    {closes : Bool} {now : Timestamp} {wrap : Result α → Reply} {outcome : Outcome α}
    (h : AppendCase config faults name messages seq closes now total logLen stream wrap outcome)
    (hsilent : messages = [] → closes = true → silent) :
    Tells silent stream.signal outcome.stream.signal := by
  have hsignal {checked : StreamEntry} (hchecked : Checked now stream checked) :
      checked.signal = stream.signal := by
    obtain rfl | rfl := hchecked <;> rfl
  cases h with
  | quiet hchecked => exact .same (hsignal hchecked)
  | @failed checked _ _ hchecked =>
      rw [← hsignal hchecked]
      obtain ⟨hsame, -⟩ | hsent :=
        (append_records_outcome config faults name total logLen checked messages).signal
      · exact .same hsame
      · exact .sends hsent
  | @stored checked after _ _ _ hchecked _ hwritten hafter =>
      have hoffset : after.nextOffset = _ := congrArg₂ Offset.new hafter.index.nextReadSeq
        hafter.index.nextByteOffset
      have hafter : after.signal = _ :=
        congrArg₂ Prod.mk (congrArg₂ Prod.mk hoffset hafter.closed) hafter.notify
      dsimp only
      rw [← hsignal hchecked, hafter]
      obtain ⟨hsame, hempty⟩ | hsent :=
        (append_records_outcome config faults name total logLen checked messages).signal
      · cases closes with
        | false => exact .same hsame
        | true =>
            exact ⟨(congrArg Prod.snd hsame).ge, .inr (.inr (hsilent (hempty hwritten) rfl))⟩
      · exact .sends hsent

/-- When writing the metadata fails. -/
theorem metadata_fails {error : Error} {actions : List DirAction} {written : StreamEntry}
    (h : writeMetadataFor config faults name written = (.error error, actions)) :
    metadataFails config faults written = true := by
  unfold writeMetadataFor at h
  cases hdir : validateStreamDir config written.dir with
  | error error => simp [metadataFails, hdir, Except.toBool]
  | ok _ =>
      simp only [hdir] at h
      cases htmp : faults.writeTmp with
      | some error => simp [metadataFails, htmp]
      | none =>
          simp only [htmp] at h
          cases hrename : faults.rename with
          | some error => simp [metadataFails, hrename]
          | none => simp [hrename] at h

/-- `close_stream` does unless the metadata cannot be written. -/
theorem close_section_tells :
    Tells (metadataFails config faults stream = true) stream.signal
      (closeSection config faults clock name total stream).stream.signal := by
  unfold closeSection
  split
  · exact .same rfl
  dsimp only
  split
  · next error actions hwrite =>
      have hfails := metadata_fails config faults name hwrite
      exact ⟨Nat.le_refl _, .inr (.inr hfails)⟩
  · exact .sends rfl

end Sections

/-- What a subscriber watches in the storage. -/
def signal (name : String) (storage : FileStorage) : Option ((Offset × Bool) × Nat) :=
  (storage.streams.lookup name).map StreamEntry.signal

section Storage

variable {config : Config} {faults : Faults} {name : String} {storage : FileStorage}
  {stream : StreamEntry}

theorem signal_eq (hlookup : storage.streams.lookup name = some stream) :
    signal name storage = some stream.signal := by
  rw [signal, hlookup, Option.map_some]

/-- A section on a stream tells the subscribers of the stream, and no others. -/
theorem with_stream_tells {α : Type} {silent : Prop} (target : String)
    {body : Nat → Nat → StreamEntry → Outcome α} (hlookup : storage.streams.lookup name = some stream)
    (hbody : ∀ total logLen, Tells silent stream.signal (body total logLen stream).stream.signal) :
    ∃ after, signal name (withStream storage target body).2 = some after ∧
      Tells (target = name ∧ silent) stream.signal after := by
  unfold withStream
  by_cases htarget : target = name
  · subst htarget
    rw [hlookup]
    refine ⟨_, signal_eq (Finmap.lookup_insert _), ?_⟩
    have htells := hbody storage.totalBytes (storage.log stream.dir).length
    exact ⟨htells.sent, htells.told.imp_right (Or.imp_right fun hsilent => ⟨rfl, hsilent⟩)⟩
  · refine ⟨stream.signal, ?_, .same rfl⟩
    cases storage.streams.lookup target with
    | none => exact signal_eq hlookup
    | some other =>
        dsimp only
        rw [signal, FiniteMap.lookup_insert_ite, if_neg fun h => htarget h.symm]
        exact signal_eq hlookup

/-- A new entry under another name. -/
theorem install_lookup {α : Type} {target : String} (hne : target ≠ name) (entry : StreamEntry)
    (reply : α) :
    (installEntry config faults storage target entry reply).2.streams.lookup name =
      storage.streams.lookup name := by
  unfold installEntry
  split
  · rfl
  · dsimp only
    rw [FiniteMap.lookup_insert_ite, if_neg fun h => hne h.symm]

/-- Preparing an entry does not touch the map. -/
theorem prepare_streams {clock : Clock} {target : String} {streamConfig : StreamConfig} :
    (prepareEntry config faults clock storage target streamConfig).2.streams = storage.streams := by
  unfold prepareEntry
  repeat' (first | rfl | split)

/-- Removing a stream leaves the others. -/
theorem remove_lookup {target : String} (hne : target ≠ name) (removed : StreamEntry) :
    (removeStream config faults storage target removed).2.streams.lookup name =
      storage.streams.lookup name := by
  have herase : (storage.streams.erase target).lookup name = storage.streams.lookup name := by
    rw [FiniteMap.lookup_erase_ite, if_neg fun h => hne h.symm]
  unfold removeStream
  dsimp only
  split
  · exact herase
  · split <;> exact herase

/-- A removed stream is gone, even if its directory stays. -/
theorem remove_gone (config : Config) (faults : Faults) (storage : FileStorage) (name : String)
    (stream : StreamEntry) :
    (removeStream config faults storage name stream).2.streams.lookup name = none := by
  unfold removeStream
  dsimp only
  split
  · exact Finmap.lookup_erase ..
  · split <;> exact Finmap.lookup_erase ..

/-- What a create finds leaves the streams of other names. -/
def Slot.Others (target : String) (storage : FileStorage) : Slot → Prop
  | .occupied _ => True
  | .failed _ left | .vacant left =>
      ∀ name, target ≠ name → left.streams.lookup name = storage.streams.lookup name

theorem claim_name_others (config : Config) (faults : Faults) (clock : Clock) (storage : FileStorage)
    (target : String) : (claimName config faults clock storage target).Others target storage := by
  unfold claimName
  cases storage.streams.lookup target with
  | none => exact fun _ _ => rfl
  | some other =>
      dsimp only
      split
      · have hremove {name : String} (hne : target ≠ name) :=
          @remove_lookup config faults name storage target hne other
        generalize removeStream config faults storage target other = removed at hremove
        obtain ⟨_ | _, left⟩ := removed <;> exact fun name hne => hremove hne
      · trivial

/-- What a create finds under its name is a live stream or room. -/
def Slot.Free (name : String) : Slot → Prop
  | .occupied _ => True
  | .failed _ left | .vacant left => left.streams.lookup name = none

theorem claim_name_free (config : Config) (faults : Faults) (clock : Clock) (storage : FileStorage)
    (name : String) : (claimName config faults clock storage name).Free name := by
  unfold claimName
  cases hlookup : storage.streams.lookup name with
  | none => exact hlookup
  | some stream =>
      dsimp only
      split
      · have hremove := remove_gone config faults storage name stream
        generalize removeStream config faults storage name stream = removed at hremove
        obtain ⟨_ | _, left⟩ := removed <;> exact hremove
      · trivial

/-- A create does not touch the streams of other names. -/
theorem create_others (config : Config) (faults : Faults) (clock : Clock) (storage : FileStorage)
    (streamConfig : StreamConfig) (messages : List Bytes) (shouldClose : Bool) {target name : String}
    (hne : target ≠ name) :
    (createStreamWithData config faults clock storage target streamConfig messages
      shouldClose).2.streams.lookup name = storage.streams.lookup name := by
  have hclaim := claim_name_others config faults clock storage target
  unfold createStreamWithData
  generalize claimName config faults clock storage target = slot at hclaim
  cases slot with
  | occupied found => dsimp only; split <;> rfl
  | failed error left => exact hclaim name hne
  | vacant left =>
      have hprepared := (congrArg (Finmap.lookup name) (@prepare_streams config faults left clock
        target streamConfig)).trans (hclaim name hne)
      dsimp only
      generalize prepareEntry config faults clock left target streamConfig = prepared at hprepared
      obtain ⟨_ | entry, left⟩ := prepared
      · exact hprepared
      · dsimp only
        split
        · exact hprepared
        · exact (install_lookup hne _ _).trans hprepared

/-- A prepared entry is a new one. -/
theorem prepare_new {clock : Clock} {streamConfig : StreamConfig} {entry : StreamEntry}
    {left : FileStorage}
    (h : prepareEntry config faults clock storage name streamConfig = (.ok entry, left)) :
    ∃ fileLen dir, entry = .new clock.stamp streamConfig fileLen dir := by
  unfold prepareEntry at h
  repeat' split at h
  all_goals try cases h
  exact ⟨_, _, rfl⟩

/-- What a create does: it leaves everything as it is, it leaves no stream under its name, or it puts
a new entry with its messages there. Only then it answers that it has created a stream. -/
theorem create_cases (config : Config) (faults : Faults) (clock : Clock) (file : FileStorage)
    (name : String) (streamConfig : StreamConfig) (messages : List Bytes) (shouldClose : Bool) :
    let (reply, after) := createStreamWithData config faults clock file name streamConfig messages
      shouldClose
    (after = file ∧ ∀ result, reply = .ok result → result.status = .alreadyExists) ∨
    after.streams.lookup name = none ∨
    ∃ total logLen fileLen dir offset closed, reply = .ok ⟨.created, offset, closed⟩ ∧
      after.streams.lookup name = some ((appendRecords config faults name total logLen
        (.new clock.stamp streamConfig fileLen dir) messages).stream.closeIf shouldClose) := by
  have hfree := claim_name_free config faults clock file name
  unfold createStreamWithData
  generalize claimName config faults clock file name = slot at hfree
  cases slot with
  | occupied stream =>
      dsimp only
      split <;> exact .inl ⟨rfl, fun _ h => by cases h <;> rfl⟩
  | failed error left => exact .inr (.inl hfree)
  | vacant left =>
      have hprepared := (congrArg (Finmap.lookup name) (@prepare_streams config faults left clock name
        streamConfig)).trans hfree
      dsimp only
      cases hprepare : prepareEntry config faults clock left name streamConfig with
      | mk result opened =>
          rw [hprepare] at hprepared
          cases result with
          | error error => exact .inr (.inl hprepared)
          | ok entry =>
              obtain ⟨fileLen, dir, rfl⟩ := prepare_new hprepare
              dsimp only
              split
              · exact .inr (.inl hprepared)
              · unfold installEntry
                split
                · exact .inr (.inl hprepared)
                · exact .inr (.inr ⟨_, _, _, _, _, _, rfl, Finmap.lookup_insert _⟩)

/-- A call does not touch the streams of other names. -/
theorem step_others (config : Config) (faults : Faults) (call : Call) (storage : FileStorage)
    {name : String} (hne : call.op.name ≠ name) :
    (step config faults call storage).2.streams.lookup name = storage.streams.lookup name := by
  have hsection {α : Type} (body : Nat → Nat → StreamEntry → Outcome α) :
      (withStream storage call.op.name body).2.streams.lookup name =
        storage.streams.lookup name := by
    unfold withStream
    cases storage.streams.lookup call.op.name with
    | none => rfl
    | some other => exact (FiniteMap.lookup_insert_ite ..).trans (if_neg hne.symm)
  obtain ⟨clock, op⟩ := call
  cases op with
  | createStream target streamConfig =>
      simp only [step, create_stream_eq]
      exact create_others config faults clock storage streamConfig [] false hne
  | createStreamWithData target streamConfig messages shouldClose fits =>
      exact create_others config faults clock storage streamConfig messages shouldClose hne
  | append target data contentType fits => exact hsection _
  | batchAppend target messages contentType seq fits =>
      simp only [step, batchAppend]
      split
      · rfl
      · exact hsection _
  | appendWithProducer => exact hsection _
  | closeStream target =>
      exact hsection fun total _ => closeSection config faults clock target total
  | delete target =>
      simp only [step, delete]
      cases storage.streams.lookup target with
      | none => rfl
      | some removed => exact remove_lookup hne removed
  | read | head | «exists» | subscribe => rfl

/-- A create that does not replace a stream leaves it alone. -/
theorem create_leaves (config : Config) (faults : Faults) {call : Call}
    (hconfig : call.op.config.isSome) (hlookup : storage.streams.lookup name = some stream)
    (hlive : call.op.name = name → isStreamExpired call.clock.expiry stream.config = false) :
    (step config faults call storage).2.streams.lookup name = some stream := by
  by_cases hname : call.op.name = name
  · obtain ⟨clock, op⟩ := call
    have hlive := hlive hname
    subst hname
    have hclaim : claimName config faults clock storage op.name = .occupied stream := by
      simp only at hlive hlookup
      simp [claimName, hlookup, hlive]
    cases op with
    | createStream | createStreamWithData =>
        simp only [Op.name] at hclaim
        simp only [step, createStream, createStreamWithData, hclaim]
        split <;> exact hlookup
    | _ => cases hconfig
  · exact (step_others config faults call storage hname).trans hlookup

/-- A call that keeps a stream tells its subscribers, unless it is a silent one on this stream. -/
theorem step_tells (config : Config) (faults : Faults) {call : Call}
    (hlookup : storage.streams.lookup name = some stream)
    (hkeeps : Memory.Keeps name stream.config call) :
    ∃ after, signal name (step config faults call storage).2 = some after ∧
      Tells (call.op.name = name ∧ Silent config faults stream call.op = true) stream.signal
        after := by
  have hsame {left : FileStorage} (hleft : left.streams.lookup name = some stream) :
      ∃ after, signal name left = some after ∧
        Tells (call.op.name = name ∧ Silent config faults stream call.op = true) stream.signal
          after :=
    ⟨stream.signal, signal_eq hleft, .same rfl⟩
  cases hop : call.op.isAppend with
  | true =>
      obtain ⟨_, -, hstep⟩ | ⟨_, _, body, closes, hcloses, hcases, hstep⟩ :=
        append_step config faults storage hop
      · rw [hstep]
        exact hsame hlookup
      · rw [hstep]
        refine with_stream_tells _ hlookup fun total logLen =>
          (hcases total logLen stream).tells fun hmessages hclose => ?_
        obtain ⟨_, _, _, _, _, hop⟩ := hcloses hclose
        rw [hop, Silent, hmessages]
        rfl
  | false =>
  obtain ⟨clock, op⟩ := call
  cases op with
  | createStream | createStreamWithData =>
      exact hsame (create_leaves config faults rfl hlookup fun htarget => (hkeeps htarget).2 rfl)
  | append | batchAppend | appendWithProducer => cases hop
  | closeStream target =>
      exact with_stream_tells target hlookup fun total logLen =>
        close_section_tells config faults clock target total stream
  | delete target =>
      have hne : target ≠ name := fun htarget => (hkeeps htarget).1 (by rw [htarget])
      refine hsame ?_
      simp only [step, delete]
      cases storage.streams.lookup target with
      | none => exact hlookup
      | some removed => exact (remove_lookup hne removed).trans hlookup
  | read | head | «exists» | subscribe => exact hsame hlookup

/-- The receiver of a subscriber has seen what was sent so far. -/
theorem subscribe_signal {clock : Clock} {receiver : Receiver} {after : FileStorage}
    (h : step config faults ⟨clock, .subscribe name⟩ storage = (.receiver (some receiver), after)) :
    ∃ stream, after.streams.lookup name = some stream ∧ receiver.seen = stream.notify := by
  simp only [step, subscribe] at h
  cases hlookup : storage.streams.lookup name with
  | none => simp [hlookup] at h
  | some stream =>
      simp only [hlookup] at h
      split at h
      · simp at h
      · cases h
        exact ⟨stream, hlookup, rfl⟩

/-- A read returns the tail offset and the closed flag. -/
theorem read_signal {clock : Clock} {offset : Offset} {result : ReadResult} {after : FileStorage}
    (h : step config faults ⟨clock, .read name offset⟩ storage = (.read (.ok result), after)) :
    after = storage ∧ ∃ stream, storage.streams.lookup name = some stream ∧
      stream.nextOffset = result.nextOffset ∧ stream.closed = result.closed := by
  simp only [step, readStream] at h
  cases hlookup : storage.streams.lookup name with
  | none => simp [hlookup] at h
  | some stream =>
      simp only [hlookup, Prod.mk.injEq, Reply.read.injEq] at h
      obtain ⟨hread, rfl⟩ := h
      refine ⟨rfl, stream, rfl, ?_⟩
      unfold readSection at hread
      split at hread
      · cases hread
      split at hread
      · cases hread
        exact ⟨rfl, rfl⟩
      · dsimp only at hread
        split at hread
        · cases hread
        · cases hread
          exact ⟨rfl, rfl⟩

end Storage

/-- The file storage as a subscriber uses it. Every call is one step, and the calls of others may
fail in any way. -/
def backend (config : Config) : Backend FileStorage (Faults × Call) where
  call := step config .none
  other := fun event storage => (step config event.1 event.2 storage).2
  board := fun name => signalBoard (signal name)
  Open := fun name storage => ∃ stream, storage.streams.lookup name = some stream
  Keeps := fun name event storage =>
    ∀ stream, storage.streams.lookup name = some stream → Memory.Keeps name stream.config event.2
  Heard := fun name event storage =>
    ∀ stream, storage.streams.lookup name = some stream → event.2.op.name = name →
      Silent config event.1 stream event.2.op = true →
        (signal name (step config event.1 event.2 storage).2).map Prod.fst =
          (signal name storage).map Prod.fst
  subscribe_opens := by
    intro clock name storage receiver after hcall
    obtain ⟨stream, hlookup, hseen⟩ := subscribe_signal hcall
    refine ⟨⟨stream, hlookup⟩, ?_⟩
    simp [signalBoard, signal, hlookup, hseen, StreamEntry.signal]
  read_views := by
    intro clock name offset storage result after hcall
    obtain ⟨rfl, stream, hlookup, hoffset, hclosed⟩ := read_signal hcall
    refine ⟨rfl, ?_⟩
    simp [signalBoard, signal, hlookup, hoffset, hclosed, StreamEntry.signal]
  other_advances := by
    rintro name ⟨faults, call⟩ storage ⟨stream, hlookup⟩ hkeeps
    obtain ⟨after, hafter, htells⟩ := step_tells config faults hlookup (hkeeps stream hlookup)
    obtain ⟨found, hfound, -⟩ := Option.map_eq_some_iff.mp hafter
    exact ⟨⟨found, hfound⟩, htells.advances (signal_eq hlookup) hafter⟩
  other_announces := by
    rintro name ⟨faults, call⟩ storage ⟨stream, hlookup⟩ hkeeps hheard
    obtain ⟨after, hafter, htells⟩ := step_tells config faults hlookup (hkeeps stream hlookup)
    exact htells.announces (signal_eq hlookup) hafter fun ⟨hname, hsilent⟩ =>
      hheard stream hlookup hname hsilent

end DurableStreams.File
