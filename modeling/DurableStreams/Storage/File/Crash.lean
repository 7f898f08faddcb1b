import DurableStreams.Storage.File.Restart
import DurableStreams.Storage.Memory.Producers

/-!
# Crashes during an append

`batch_append` and `append_with_producer` write their records to the log and then replace the
metadata. `Persisted` lists what a crash between or inside these steps can leave in the directory.
The two files are not tied together: a crash shows all or nothing of a call exactly if it is a
`CleanCrash`, that is, no complete record has reached the log and the metadata is still the old one,
or both files are as the finished call leaves them (`crash_shows_all_or_nothing_iff`). After a clean
crash a producer that repeats its request has its batch in the log exactly once.
-/

namespace DurableStreams.File

open Lib

/-- What a crash leaves of a list of changes in a directory: the changes up to some point, where the
last log write may have persisted a part of its bytes only. Bytes that were not synced may be lost
although later changes were not. -/
inductive Persisted (synced : Bool) : List DirAction → List DirAction → Prop
  | cut (actions : List DirAction) : Persisted synced actions []
  | torn (bytes : Bytes) (count : Nat) (rest : List DirAction) :
      Persisted synced (.appendLog bytes :: rest) [.appendLog (bytes.take count)]
  | next (action : DirAction) {rest persisted : List DirAction}
      (h : Persisted synced rest persisted) :
      Persisted synced (action :: rest) (action :: persisted)
  | lost (hsync : synced = false) (bytes : Bytes) (count : Nat) {rest persisted : List DirAction}
      (h : Persisted synced rest persisted) :
      Persisted synced (.appendLog bytes :: rest) (.appendLog (bytes.take count) :: persisted)

/-- The changes an operation that appends a batch makes in the directory of its stream. -/
def changes (config : Config) (call : Call) (file : FileStorage) : List DirAction :=
  match file.streams.lookup call.op.name with
  | none => []
  | some entry =>
      match call.op with
      | .batchAppend name messages contentType seq _ =>
          if messages.isEmpty then []
          else (batchAppendSection config .none call.clock name messages contentType seq
            file.totalBytes (file.log entry.dir).length entry).actions
      | .appendWithProducer name messages contentType producer shouldClose seq _ =>
          (appendWithProducerSection config .none call.clock name messages contentType producer
            shouldClose seq file.totalBytes (file.log entry.dir).length entry).actions
      | _ => []

/-- The log of a directory on disk. -/
def logAt (disk : Disk) (dir : String) : Bytes := ((disk.lookup dir).map Dir.logBytes).getD []

/-- The metadata of a directory on disk. -/
def metaAt (disk : Disk) (dir : String) : Option StreamMeta := (disk.lookup dir).bind Dir.metaJson

/-- The crash has left both files as they were, up to a part of the first record, or both as the
finished call leaves them. -/
def CleanCrash (dir : String) (first : Bytes) (before crashed after : Disk) : Prop :=
  ((logAt crashed dir).length < (logAt before dir).length + (4 + first.length) ∧
    metaAt crashed dir = metaAt before dir) ∨
  (logAt crashed dir = logAt after dir ∧ metaAt crashed dir = metaAt after dir)

instance (dir : String) (first : Bytes) (before crashed after : Disk) :
    Decidable (CleanCrash dir first before crashed after) :=
  inferInstanceAs (Decidable (_ ∨ _))

variable {config : Config} {now horizon : Timestamp} {name : String} {synced : Bool}
  {memory : Memory.InMemoryStorage} {file : FileStorage} {stream after : Memory.StreamEntry}
  {found : Dir} {messages : List Bytes} {call : Call}

/-! ## What a crash leaves in a directory -/

section Directories

/-- A crash while metadata is persisted leaves the log alone and one of the two metadata files. -/
theorem Persisted.metadata {rest persisted : List DirAction} {streamConfig : StreamConfig}
    (hrest : PersistsMeta name streamConfig rest)
    (h : Persisted synced rest persisted) (found : Dir) :
    (found.run persisted).logBytes = found.logBytes ∧
      ((found.run persisted).metaJson = found.metaJson ∨
        (found.run persisted).metaJson = (found.run rest).metaJson) := by
  obtain rfl | ⟨saved, -, rfl | rfl⟩ := hrest
  · cases h
    exact ⟨rfl, .inl rfl⟩
  · cases h with
    | cut => exact ⟨rfl, .inl rfl⟩
    | next _ h =>
        cases h
        exact ⟨rfl, .inl rfl⟩
  · cases h with
    | cut => exact ⟨rfl, .inl rfl⟩
    | next _ h =>
        cases h with
        | cut => exact ⟨rfl, .inl rfl⟩
        | next _ h =>
            cases h
            exact ⟨rfl, .inr rfl⟩

/-- The metadata a list of changes leaves does not depend on the log. -/
theorem PersistsMeta.meta_json {rest : List DirAction} {streamConfig : StreamConfig}
    (hrest : PersistsMeta name streamConfig rest) (found : Dir) (log : Option Bytes) :
    (({ found with log := log } : Dir).run rest).metaJson = (found.run rest).metaJson := by
  obtain rfl | ⟨saved, -, rfl | rfl⟩ := hrest <;> rfl

/-- A crash while a batch is appended leaves a part of its records and one of the two metadata
files. -/
theorem Persisted.dir {bytes : Bytes} {rest persisted : List DirAction} {streamConfig : StreamConfig}
    (hrest : PersistsMeta name streamConfig rest)
    (h : Persisted synced (.appendLog bytes :: rest) persisted) (found : Dir) :
    ∃ count, (found.run persisted).logBytes = found.logBytes ++ bytes.take count ∧
      ((found.run persisted).metaJson = found.metaJson ∨
        (found.run persisted).metaJson = (found.run (.appendLog bytes :: rest)).metaJson) := by
  have hafter : (found.run (.appendLog bytes :: rest)).metaJson = (found.run rest).metaJson :=
    hrest.meta_json found _
  rw [hafter]
  cases h with
  | cut => exact ⟨0, by simp [Dir.run], .inl rfl⟩
  | torn _ count => exact ⟨count, rfl, .inl rfl⟩
  | @next _ _ persisted h =>
      obtain ⟨hlog, hjson⟩ := h.metadata hrest { found with log := some (found.logBytes ++ bytes) }
      rw [hrest.meta_json] at hjson
      exact ⟨bytes.length, hlog.trans (by rw [List.take_length]; rfl), hjson⟩
  | @lost _ _ count _ persisted h =>
      obtain ⟨hlog, hjson⟩ :=
        h.metadata hrest { found with log := some (found.logBytes ++ bytes.take count) }
      rw [hrest.meta_json] at hjson
      exact ⟨count, hlog, hjson⟩

/-- Different logs or different metadata of a stream recover to different entries. -/
theorem recovered_inj {dir : String} {first second : List Bytes} {saved saved' : StreamMeta}
    (hname : saved.name = saved'.name) (h : recovered dir first saved = recovered dir second saved') :
    first.length = second.length ∧ saved = saved' := by
  have hlength := congrArg (fun entry => entry.index.length) h
  refine ⟨by simpa [recovered] using hlength, ?_⟩
  have hconfig := congrArg StreamEntry.config h
  have hclosed := congrArg StreamEntry.closed h
  have hcreated := congrArg StreamEntry.createdAt h
  have hlast := congrArg StreamEntry.lastSeq h
  have hproducers := congrArg StreamEntry.producers h
  obtain ⟨_, _, _, _, _, _⟩ := saved
  obtain ⟨_, _, _, _, _, _⟩ := saved'
  simp only [recovered] at hconfig hclosed hcreated hlast hproducers
  simp only at hname
  rw [hname, hconfig, hclosed, hcreated, hlast, hproducers]

/-- A part of a batch that is shorter than its first record holds no complete record. -/
theorem length_take_records {first : Bytes} {rest : List Bytes} {complete : Nat} {torn : Bytes}
    {count : Nat} (hsize : first.length < 2 ^ 32) (htorn : Torn torn)
    (htake : (encodeRecords (first :: rest)).take count =
      encodeRecords ((first :: rest).take complete) ++ torn) :
    ((encodeRecords (first :: rest)).take count).length < 4 + first.length ↔ complete = 0 := by
  constructor
  · intro hlength
    cases complete with
    | zero => rfl
    | succ complete =>
        rw [htake, List.take_succ_cons, encode_records_cons, List.length_append, List.length_append,
          length_encode_record] at hlength
        omega
  · rintro rfl
    by_contra hlength
    rw [List.take_zero, encode_records_nil, List.nil_append] at htake
    rw [encode_records_cons, List.take_append] at htake hlength
    have hfull : (encodeRecord first).take count = encodeRecord first := by
      refine List.take_of_length_le ?_
      rw [List.length_append, List.length_take, List.length_take, length_encode_record] at hlength
      rw [length_encode_record]
      omega
    rw [hfull] at htake
    exact not_torn_record hsize (htake ▸ htorn)

/-- The directory of a crashed append recovers to its state before or after the append exactly in a
clean crash. -/
theorem revive_crashed_iff {dir : String} {payloads : List Bytes} {first : Bytes} {rest : List Bytes}
    {count : Nat} {before crashed finished : Dir} {old new : StreamMeta}
    (hsizes : ∀ data ∈ payloads ++ first :: rest, data.length < 2 ^ 32)
    (hbytes : payloadBytes (payloads ++ first :: rest) < 2 ^ 64)
    (hbefore : before.logBytes = encodeRecords payloads) (hold : before.metaJson = some old)
    (hfinished : finished.logBytes = encodeRecords (payloads ++ first :: rest))
    (hnew : finished.metaJson = some new) (hname : old.name = new.name)
    (hliveOld : isStreamExpired now old.config = false)
    (hliveNew : isStreamExpired now new.config = false)
    (hlog : crashed.logBytes = before.logBytes ++ (encodeRecords (first :: rest)).take count)
    (hjson : crashed.metaJson = before.metaJson ∨ crashed.metaJson = finished.metaJson) :
    (revive now dir crashed = revive now dir before ∨
      revive now dir crashed = revive now dir finished) ↔
    (crashed.logBytes.length < before.logBytes.length + (4 + first.length) ∧
      crashed.metaJson = before.metaJson) ∨
    (crashed.logBytes = finished.logBytes ∧ crashed.metaJson = finished.metaJson) := by
  have hmessages : ∀ data ∈ first :: rest, data.length < 2 ^ 32 := fun data hdata =>
    hsizes data (List.mem_append_right _ hdata)
  obtain ⟨complete, torn, hle, htorn, htake⟩ := take_encode_records hmessages count
  have hcut := length_take_records (hmessages first (List.mem_cons_self ..)) htorn htake
  have hsplit := List.take_append_drop complete (first :: rest)
  -- The crashed directory holds the old payloads and the complete ones of the batch.
  have hcrashed : crashed.logBytes =
      encodeRecords (payloads ++ (first :: rest).take complete) ++ torn := by
    rw [hlog, hbefore, htake, encode_records_append, List.append_assoc]
  have hpart : payloadBytes (payloads ++ (first :: rest).take complete) < 2 ^ 64 := by
    rw [← hsplit, ← List.append_assoc, payload_bytes_append] at hbytes
    omega
  have hpartSizes : ∀ data ∈ payloads ++ (first :: rest).take complete, data.length < 2 ^ 32 := by
    intro data hdata
    refine hsizes data ?_
    rw [← hsplit, ← List.append_assoc]
    exact List.mem_append_left _ hdata
  have holdBytes : payloadBytes payloads < 2 ^ 64 := by
    rw [payload_bytes_append] at hbytes
    omega
  obtain ⟨saved, hsaved, hnamed, hlive⟩ : ∃ saved, crashed.metaJson = some saved ∧
      saved.name = old.name ∧ isStreamExpired now saved.config = false := by
    rcases hjson with hjson | hjson
    · exact ⟨old, hjson.trans hold, rfl, hliveOld⟩
    · exact ⟨new, hjson.trans hnew, hname.symm, hliveNew⟩
  rw [revive_eq dir htorn hpartSizes hpart hcrashed hsaved hlive,
    revive_eq dir (.inl (by decide)) (fun data hdata => hsizes data (List.mem_append_left _ hdata))
      holdBytes (hbefore.trans (List.append_nil _).symm) hold hliveOld,
    revive_eq dir (.inl (by decide)) hsizes hbytes (hfinished.trans (List.append_nil _).symm) hnew
      hliveNew, Option.some.injEq, Option.some.injEq, hsaved, hold, hnew, Option.some.injEq,
    Option.some.injEq]
  have hlength : crashed.logBytes.length < before.logBytes.length + (4 + first.length) ↔
      complete = 0 := by
    rw [← hcut, hlog, List.length_append]
    omega
  rw [hlength]
  constructor
  · rintro (hsame | hsame)
    · obtain ⟨hcount, rfl⟩ := recovered_inj hnamed hsame
      rw [List.length_append, List.length_take] at hcount
      exact .inl ⟨by omega, rfl⟩
    · obtain ⟨hcount, rfl⟩ := recovered_inj (hnamed.trans hname) hsame
      rw [List.length_append, List.length_append, List.length_take] at hcount
      have hall : (first :: rest).take complete = first :: rest :=
        List.take_of_length_le (by omega)
      refine .inr ⟨?_, rfl⟩
      -- Nothing is left behind the last record of the batch.
      have hnone : torn = [] := by
        have hlen := congrArg List.length htake
        rw [hall, List.length_append, List.length_take] at hlen
        exact List.length_eq_zero_iff.mp (by omega)
      rw [hcrashed, hfinished, hall, hnone, List.append_nil]
  · rintro (⟨rfl, rfl⟩ | ⟨hsame, rfl⟩)
    · rw [List.take_zero, List.append_nil]
      exact .inl rfl
    · refine .inr ?_
      have hrevive := revive_eq dir htorn hpartSizes hpart hcrashed hsaved hlive
      have hrevive' := revive_eq dir (.inl (by decide)) hsizes hbytes
        (hsame.trans (hfinished.trans (List.append_nil _).symm)) hsaved hlive
      exact Option.some.inj (hrevive.symm.trans hrevive')

end Directories

/-! ## The changes of an append -/

section Changes

/-- An append that ends well writes the records of its batch and then, maybe, its metadata. One that
does not changes nothing on disk. -/
theorem AppendCase.actions {α : Type} {clock : Timestamp} {total logLen notify : Nat}
    {seq : Option String} {closes : Bool} {wrap : Result α → Reply} {outcome : Outcome α}
    (hstream : Memory.WellFormed stream) (hle : stream.totalBytes ≤ total)
    (hfits : total + payloadBytes messages < 2 ^ 64)
    (h : AppendCase config .none name messages seq closes clock total logLen
      (.ofMemory name notify stream) wrap outcome) :
    ((wrap outcome.result).appended = false ∧ outcome.actions = []) ∨
    ((wrap outcome.result).appended = true ∧ (∀ data ∈ messages, data.length < 2 ^ 32) ∧
      ∃ rest, PersistsMeta name stream.config rest ∧
        outcome.actions = logActions messages ++ rest) := by
  by_cases hlong : TooLong messages
  · obtain ⟨hreply, result, after, rfl, -⟩ := h.too_long hlong
    exact .inl ⟨hreply, rfl⟩
  have hsizes := sizes_of_not_too_long hlong
  -- The entry the records are written for is that of the stream, or of the stream cleaned up.
  have hwritten {checked : StreamEntry}
      (hchecked : Checked clock (.ofMemory name notify stream) checked) :
      (∃ error, appendRecords config .none name total logLen checked messages =
        ⟨.error error, total, checked, []⟩) ∨
      ∃ total' after, appendRecords config .none name total logLen checked messages =
        ⟨.ok (), total', after, logActions messages⟩ := by
    obtain ⟨kept, rfl, hkept, hkeptLe⟩ : ∃ kept, checked = .ofMemory name notify kept ∧
        Memory.WellFormed kept ∧ kept.totalBytes ≤ total := by
      rcases hchecked with rfl | rfl
      · exact ⟨stream, rfl, hstream, hle⟩
      · exact ⟨stream.cleanup clock, rfl,
          (Memory.SameLog.cleanup clock stream).wellFormed hstream, hle⟩
    obtain ⟨error, -, happend⟩ | ⟨total', _, _, -, happend, -⟩ :=
      append_records_cases config name notify logLen hkept hkeptLe hsizes hfits
    · exact .inl ⟨error, happend⟩
    · exact .inr ⟨total', _, happend⟩
  cases h with
  | quiet _ hreply => exact .inl ⟨hreply, rfl⟩
  | failed hchecked _ hresult hreply =>
      obtain ⟨error, happend⟩ | ⟨total', after, happend⟩ := hwritten hchecked
      · exact .inl ⟨hreply, by rw [happend]⟩
      · rw [happend] at hresult
        cases hresult
  | @stored _ _ _ persisted _ hchecked _ hresult _ hpersisted hreply =>
      obtain ⟨error, happend⟩ | ⟨total', after, happend⟩ := hwritten hchecked
      · rw [happend] at hresult
        cases hresult
      · exact .inr ⟨hreply, hsizes, persisted, hpersisted, by rw [happend]⟩

/-- An append of a batch either writes nothing and reports no append, or writes the records first
and reports it. -/
theorem changes_cases (hinv : Memory.Invariant config.limits memory)
    (hrelated : Related horizon memory file)
    (hfits : file.totalBytes + payloadBytes call.op.messages < 2 ^ 64)
    (hop : call.op.isBatch = true) (hmessages : call.op.messages ≠ [])
    (hlookup : memory.streams.lookup call.op.name = some stream) :
    (step config .none call file).2.disk =
        Disk.within (encodeName call.op.name) (changes config call file) file.disk ∧
      (((step config .none call file).1.appended = false ∧ changes config call file = []) ∨
        ((step config .none call file).1.appended = true ∧
          (∀ data ∈ call.op.messages, data.length < 2 ^ 32) ∧
          ∃ rest, PersistsMeta call.op.name stream.config rest ∧
          changes config call file = .appendLog (encodeRecords call.op.messages) :: rest)) := by
  obtain ⟨clock, op⟩ := call
  obtain ⟨notify, found, hname, hentry, hdir, hstored⟩ := hrelated.present hlookup
  have hwell := hinv.wellFormed hlookup
  have hle := hinv.stream_le_total hlookup
  rw [← hrelated.total] at hle
  have hempty : op.messages.isEmpty = false := by
    simpa [List.isEmpty_eq_false_iff] using hmessages
  have hactions : logActions op.messages = [.appendLog (encodeRecords op.messages)] := by
    rw [logActions, hempty, if_neg Bool.false_ne_true]
  cases op with
  | batchAppend name messages contentType seq fits =>
      have hempty : messages.isEmpty = false := hempty
      have hcase := (batch_append_section_cases config .none clock name messages contentType seq
        file.totalBytes (file.log (encodeName name)).length (.ofMemory name notify stream)).actions
        hwell hle hfits
      simp only [Op.name] at hentry
      simp only [step, batchAppend, withStream, changes, Op.name, Op.messages, hentry, hempty,
        Bool.false_eq_true, ↓reduceIte, StreamEntry.ofMemory_dir]
      dsimp only [Op.messages] at hactions hcase
      rw [hactions] at hcase
      exact ⟨rfl, hcase⟩
  | appendWithProducer name messages contentType producer shouldClose seq fits =>
      have hcase := (producer_section_cases config .none clock name messages contentType producer
        shouldClose seq file.totalBytes (file.log (encodeName name)).length
        (.ofMemory name notify stream)).actions hwell hle hfits
      simp only [Op.name] at hentry
      simp only [step, withStream, changes, Op.name, Op.messages, hentry, StreamEntry.ofMemory_dir]
      dsimp only [Op.messages] at hactions hcase
      rw [hactions] at hcase
      exact ⟨rfl, hcase⟩
  | createStream | append | read | delete | head | closeStream | createStreamWithData | «exists»
  | subscribe => simp [Op.isBatch] at hop

/-- Interrupted or not, changes in a directory leave the list of directories alone. -/
theorem Lists.within {listing : List String} {disk : Disk} (h : Lists listing disk) (dir : String)
    (actions : List DirAction) : Lists listing (Disk.within dir actions disk) := by
  refine ⟨h.1, fun other => ?_⟩
  rw [h.2, lookup_within]
  split
  · next heq => rw [heq, Option.isSome_map]
  · rfl

/-- A call that appends a batch and is interrupted: what the directory of its stream held before,
what it would hold if the call had finished, and which part of it is there. -/
structure Interrupted (config : Config) (horizon : Timestamp) (call : Call)
    (memory : Memory.InMemoryStorage) (file : FileStorage) (persisted : List DirAction)
    (stream after : Memory.StreamEntry) (found : Dir) : Prop where
  admissible : Admissible horizon call memory
  dir : file.disk.lookup (encodeName call.op.name) = some found
  before : Stored horizon call.op.name stream found
  lookup : (Memory.step config.limits call memory).2.streams.lookup call.op.name = some after
  payloads : after.payloads = stream.payloads ++ call.op.messages
  sameConfig : after.config = stream.config
  finished : Stored horizon call.op.name after (found.run (changes config call file))
  log : ∃ count, (found.run persisted).logBytes =
    found.logBytes ++ (encodeRecords call.op.messages).take count
  json : (found.run persisted).metaJson = found.metaJson ∨
    (found.run persisted).metaJson = (found.run (changes config call file)).metaJson

/-- A call that appends a batch is refused and changes nothing on disk, or it is interrupted. -/
theorem interrupted_cases {persisted : List DirAction}
    (hinv : Memory.Invariant config.limits memory) (hrelated : Related horizon memory file)
    (hclock : call.clock.cleanup ≤ horizon)
    (hfits : file.totalBytes + payloadBytes call.op.messages < 2 ^ 64)
    (hop : call.op.isBatch = true) (hmessages : call.op.messages ≠ [])
    (hlookup : memory.streams.lookup call.op.name = some stream)
    (hcrash : Persisted synced (changes config call file) persisted) :
    ((step config .none call file).1.appended = false ∧ persisted = []) ∨
      ∃ after found, Interrupted config horizon call memory file persisted stream after found := by
  obtain ⟨hdisk, hcase⟩ := changes_cases hinv hrelated hfits hop hmessages hlookup
  obtain ⟨hreply, hnone⟩ | ⟨happended, hsizes, rest, hrest, hchanges⟩ := hcase
  · rw [hnone] at hcrash
    cases hcrash
    exact .inl ⟨hreply, rfl⟩
  obtain ⟨-, found, hname, -, hfound, hstored⟩ := hrelated.present hlookup
  have hcall : Admissible horizon call memory := by
    refine ⟨hname, hsizes, hrelated.total ▸ hfits, hclock, fun heq => ?_⟩
    rw [heq] at hop
    cases hop
  have hon : Memory.onStream call.op = true := by
    cases hcase : call.op <;> simp_all [Op.isBatch, Op.messages, Memory.onStream]
  obtain ⟨hreply, hrelated'⟩ := step_mirrors hinv hrelated hcall
  obtain ⟨after, hafter, hconfig, hpayloads⟩ := Memory.step_on_stream_grows hinv hon hlookup
  obtain ⟨-, found', -, -, hfound', hstored'⟩ := hrelated'.present hafter
  rw [hdisk, lookup_within, if_pos rfl, hfound, Option.map_some, Option.some.injEq] at hfound'
  rw [Call.added, hreply, if_pos happended] at hpayloads
  have hpersisted := hcrash
  rw [hchanges] at hpersisted
  obtain ⟨count, hlog, hjson⟩ := hpersisted.dir hrest found
  exact .inr ⟨after, found, hcall, hfound, hstored, hafter, hpayloads, hconfig, hfound' ▸ hstored',
    ⟨count, hlog⟩, hchanges ▸ hjson⟩

end Changes

/-! ## What the restart shows -/

section Restarts

/-- The stream that opening a disk shows under a name. -/
def shown (now : Timestamp) (listing : List String) (disk : Disk) (name : String) :
    Option StreamEntry :=
  (reopen now listing disk).streams.lookup name

/-- It is the one its directory contributes. -/
theorem shown_eq {listing : List String} {disk : Disk} (hlisting : Lists listing disk)
    (hnamed : WellNamed disk) (hfound : disk.lookup (encodeName name) = some found) :
    shown now listing disk name = revive now (encodeName name) found := by
  rw [shown, (reopen_loads now hlisting hnamed).streams, if_neg List.not_mem_nil, hfound]
  rfl

/-- An expired stream is not shown. -/
theorem revive_expired {dir : String} {saved : StreamMeta} (hjson : found.metaJson = some saved)
    (hexpired : isStreamExpired now saved.config = true) : revive now dir found = none := by
  simp [revive, hjson, hexpired]

/-- The reopened stream is as before or as after the append exactly if it has expired or the crash
was clean. -/
theorem crash_iff {listing : List String} {persisted : List DirAction} {first : Bytes}
    {rest : List Bytes} (hinv : Memory.Invariant config.limits memory)
    (hrelated : Related horizon memory file) (hclock : call.clock.cleanup ≤ horizon)
    (hfits : file.totalBytes + payloadBytes call.op.messages < 2 ^ 64)
    (hop : call.op.isBatch = true) (hmessages : call.op.messages = first :: rest)
    (hlookup : memory.streams.lookup call.op.name = some stream)
    (hlisting : Lists listing file.disk)
    (hcrash : Persisted synced (changes config call file) persisted) :
    (shown now listing (Disk.within (encodeName call.op.name) persisted file.disk) call.op.name =
        shown now listing file.disk call.op.name ∨
      shown now listing (Disk.within (encodeName call.op.name) persisted file.disk) call.op.name =
        shown now listing (step config .none call file).2.disk call.op.name) ↔
    (isStreamExpired now stream.config = true ∨
      CleanCrash (encodeName call.op.name) first file.disk
        (Disk.within (encodeName call.op.name) persisted file.disk)
        (step config .none call file).2.disk) := by
  have hnonempty : call.op.messages ≠ [] := hmessages ▸ List.cons_ne_nil _ _
  have hnamed := hrelated.recoverable.wellNamed
  obtain ⟨-, rfl⟩ | ⟨after, found, h⟩ :=
    interrupted_cases hinv hrelated hclock hfits hop hnonempty hlookup hcrash
  · rw [within_nil]
    exact iff_of_true (.inl rfl) (.inr (.inl ⟨by omega, rfl⟩))
  have hfound := h.dir
  obtain ⟨hdisk, -⟩ := changes_cases hinv hrelated hfits hop hnonempty hlookup
  obtain ⟨old, hold, hsavedOld⟩ := h.before.saved
  obtain ⟨new, hnew, hsavedNew⟩ := h.finished.saved
  have hliveOld : isStreamExpired now old.config = isStreamExpired now stream.config := by
    rw [hsavedOld.config]
  have hliveNew : isStreamExpired now new.config = isStreamExpired now stream.config := by
    rw [hsavedNew.config, h.sameConfig]
  obtain ⟨saved, hsaved, hsavedName, hsavedLive⟩ : ∃ saved,
      (found.run persisted).metaJson = some saved ∧ saved.name = call.op.name ∧
        isStreamExpired now saved.config = isStreamExpired now stream.config := by
    rcases h.json with hjson | hjson
    · exact ⟨old, hjson.trans hold, hsavedOld.name, hliveOld⟩
    · exact ⟨new, hjson.trans hnew, hsavedNew.name, hliveNew⟩
  -- All three disks are opened directory by directory.
  have hlookupWithin (actions : List DirAction) :
      (Disk.within (encodeName call.op.name) actions file.disk).lookup (encodeName call.op.name) =
        some (found.run actions) := by
    rw [lookup_within, if_pos rfl, hfound, Option.map_some]
  rw [hdisk, shown_eq hlisting hnamed hfound,
    shown_eq (hlisting.within _ _) (hnamed.within hfound hsaved hsavedName) (hlookupWithin _),
    shown_eq (hlisting.within _ _) (hnamed.within hfound hnew hsavedNew.name) (hlookupWithin _)]
  simp only [CleanCrash, logAt, metaAt, hlookupWithin, hfound, Option.map_some, Option.getD_some,
    Option.bind_some]
  cases hlive : isStreamExpired now stream.config with
  | true =>
      refine iff_of_true (.inl ?_) (.inl rfl)
      rw [revive_expired hsaved (hsavedLive.trans hlive), revive_expired hold (hliveOld.trans hlive)]
  | false =>
      have hbytes : payloadBytes (stream.payloads ++ call.op.messages) < 2 ^ 64 := by
        have hle := hinv.stream_le_total hlookup
        have hfits := h.admissible.fits
        rw [payload_bytes_append, ← (hinv.wellFormed hlookup).totalBytes]
        omega
      obtain ⟨count, hlog⟩ := h.log
      have hfinished := h.finished.toLogged.log_bytes
      have hsizes := h.admissible.sizes
      rw [h.payloads, hmessages] at hfinished
      rw [hmessages] at hbytes hsizes hlog
      simp only [Bool.false_eq_true, false_or]
      refine revive_crashed_iff (fun data hdata => ?_) hbytes h.before.toLogged.log_bytes hold
        hfinished hnew (hsavedOld.name.trans hsavedNew.name.symm) (hliveOld.trans hlive)
        (hliveNew.trans hlive) hlog h.json
      rcases List.mem_append.mp hdata with hdata | hdata
      · exact h.before.sizes data hdata
      · exact hsizes data hdata

end Restarts

/-! ## Repeating the request -/

section Retries

variable {restarted : Memory.InMemoryStorage} {reopened : FileStorage} {retry : Clock} {id : String}

/-- When a producer repeats its request: the stream has not expired, no earlier call has cleaned up
by a later clock, and neither the record the first request met nor the one it would have left has
become stale. -/
structure RetryClock (horizon : Timestamp) (first retry : Clock) (id : String)
    (config : StreamConfig) (producers : HashMap ProducerState) : Prop where
  live : isStreamExpired retry.expiry config = false
  later : horizon ≤ retry.cleanup
  fresh : ∀ state, producers.lookup id = some state → staleCutoff first.cleanup < state.updatedAt →
    staleCutoff retry.cleanup < state.updatedAt
  own : staleCutoff retry.cleanup < first.stamp

/-- A directory with a part of the first record behind the old ones. -/
theorem Stored.kept_part {crashed : Dir} {first : Bytes} {rest : List Bytes} {count : Nat}
    (h : Stored horizon name stream found) (hsizes : ∀ data ∈ first :: rest, data.length < 2 ^ 32)
    (hlog : crashed.logBytes = found.logBytes ++ (encodeRecords (first :: rest)).take count)
    (hlength : crashed.logBytes.length < found.logBytes.length + (4 + first.length))
    (hjson : crashed.metaJson = found.metaJson) : Kept horizon name stream crashed := by
  obtain ⟨complete, torn, -, htorn, htake⟩ := take_encode_records hsizes count
  have hnone : complete = 0 := by
    rw [hlog, List.length_append] at hlength
    exact (length_take_records (hsizes first (List.mem_cons_self ..)) htorn htake).mp (by omega)
  refine ⟨⟨torn, htorn, ?_⟩, h.sizes, hjson ▸ h.saved⟩
  rw [hlog, htake, hnone, List.take_zero, encode_records_nil, List.nil_append,
    h.toLogged.log_bytes]

/-- After a clean crash the streams can be recovered as they were before the call or after it. -/
theorem Interrupted.recoverable {persisted : List DirAction} {first : Bytes} {rest : List Bytes}
    (h : Interrupted config horizon call memory file persisted stream after found)
    (hinv : Memory.Invariant config.limits memory) (hrelated : Related horizon memory file)
    (hlookup : memory.streams.lookup call.op.name = some stream)
    (hmessages : call.op.messages = first :: rest)
    (hdisk : (step config .none call file).2.disk =
      Disk.within (encodeName call.op.name) (changes config call file) file.disk)
    (hclean : CleanCrash (encodeName call.op.name) first file.disk
      (Disk.within (encodeName call.op.name) persisted file.disk)
      (step config .none call file).2.disk) :
    Recoverable horizon memory (Disk.within (encodeName call.op.name) persisted file.disk) ∨
      Recoverable horizon (Memory.step config.limits call memory).2
        (Disk.within (encodeName call.op.name) persisted file.disk) := by
  have hwithin (actions : List DirAction) :
      (Disk.within (encodeName call.op.name) actions file.disk).lookup (encodeName call.op.name) =
        some (found.run actions) := by
    rw [lookup_within, if_pos rfl, h.dir, Option.map_some]
  simp only [CleanCrash, hdisk, logAt, metaAt, hwithin, h.dir, Option.map_some, Option.getD_some,
    Option.bind_some] at hclean
  obtain ⟨count, hlog⟩ := h.log
  have hsizes := h.admissible.sizes
  rw [hmessages] at hlog hsizes
  rcases hclean with ⟨hlength, hjson⟩ | ⟨hsame, hjson⟩
  · refine .inl (hrelated.recoverable.replace hlookup (fun dir hdir => ?_) (hwithin _)
      (h.before.kept_part hsizes hlog hlength hjson))
    rw [lookup_within, if_neg hdir]
  · have hkept := h.finished.kept
    refine .inr ((step_mirrors hinv hrelated h.admissible).2.recoverable.replace h.lookup
      (fun dir hdir => ?_) (hwithin _) ⟨hsame ▸ hkept.log, hkept.sizes, hjson ▸ hkept.saved⟩)
    rw [hdisk, lookup_within, lookup_within, if_neg hdir, if_neg hdir]

/-- What comes back counts no more bytes than there were. -/
theorem restarted_total_le {limits : Limits} (hinv : Memory.Invariant limits memory)
    (hinv' : Memory.Invariant limits restarted)
    (h : ∀ name, Restarted now horizon (memory.streams.lookup name)
      (restarted.streams.lookup name)) : restarted.totalBytes ≤ memory.totalBytes := by
  rw [hinv.total, hinv'.total]
  refine FiniteMap.total_le_total fun name after hafter => ?_
  obtain ⟨stream, producers, hstream, -, rfl, -⟩ := (hafter ▸ h name).some_inv
  exact ⟨stream, hstream, Nat.le_refl _⟩

/-- A live stream comes back with its log. -/
theorem Restarted.live_inv {restored : Option Memory.StreamEntry}
    (h : Restarted now horizon (some stream) restored)
    (hlive : isStreamExpired now stream.config = false) :
    ∃ producers, restored = some { stream with producers := producers } ∧
      ∀ later, horizon ≤ later → cleanupStaleProducers later producers =
        cleanupStaleProducers later stream.producers := by
  cases h with
  | expired hexpired =>
      rw [hlive] at hexpired
      cases hexpired
  | live producers _ hproducers =>
      refine ⟨producers, rfl, fun later hlater => ?_⟩
      rw [← cleanup_cleanup hlater, hproducers, cleanup_cleanup hlater]

/-- The repeated request meets the record of its producer that the first one met. -/
theorem RetryClock.record {first : Clock} {streamConfig : StreamConfig}
    {producers : HashMap ProducerState}
    (h : RetryClock horizon first retry id streamConfig producers) (hfirst : first.cleanup ≤ horizon) :
    (cleanupStaleProducers retry.cleanup producers).lookup id =
      (cleanupStaleProducers first.cleanup producers).lookup id := by
  rw [lookup_cleanup, lookup_cleanup]
  cases hstate : producers.lookup id with
  | none => rfl
  | some state =>
      rw [Option.filter_some, Option.filter_some]
      have hcutoff := stale_cutoff_mono (hfirst.trans h.later)
      have hiff : staleCutoff retry.cleanup < state.updatedAt ↔
          staleCutoff first.cleanup < state.updatedAt :=
        ⟨Int.lt_of_le_of_lt hcutoff, h.fresh state hstate⟩
      simp only [hiff]

/-- A request that the tracked storage answers is answered so by the file backend, which then holds
the payloads of the tracked stream. -/
theorem answered_by_file {payloads : List Bytes} (hinv : Memory.Invariant config.limits restarted)
    (hrelated : Related horizon restarted reopened) (hcall : Admissible horizon call restarted)
    (hop : Memory.onStream call.op = true)
    (hlookup : restarted.streams.lookup call.op.name = some stream)
    (hpayloads : stream.payloads ++ call.added (Memory.step config.limits call restarted).1 =
      payloads) :
    (step config .none call reopened).1 = (Memory.step config.limits call restarted).1 ∧
      ∃ entry, (step config .none call reopened).2.streams.lookup call.op.name = some entry ∧
        contents (step config .none call reopened).2 entry = .ok payloads := by
  obtain ⟨hreply, hrelated'⟩ := step_mirrors hinv hrelated hcall
  obtain ⟨after, hafter, -, hgrown⟩ := Memory.step_on_stream_grows hinv hop hlookup
  obtain ⟨notify, -, -, hentry, -⟩ := hrelated'.present hafter
  refine ⟨hreply.symm, _, hentry, ?_⟩
  rw [hrelated'.contents hafter notify, hgrown, hpayloads]

variable {clock : Clock} {contentType : String} {producer : ProducerHeaders} {shouldClose : Bool}
  {seq : Option String} (fits : payloadBytes messages < 2 ^ 64)

/-- Nothing of the request is there: repeating it appends the batch. -/
theorem retry_of_lost {total : Nat}
    (haccepts : Memory.Accepts config.limits clock messages contentType producer seq total stream)
    (hretry : RetryClock horizon clock retry producer.id stream.config stream.producers)
    (hmessages : messages ≠ []) (hclock : clock.cleanup ≤ horizon)
    (hrestarted : Restarted now horizon (some stream) (restarted.streams.lookup name))
    (hlive : isStreamExpired now stream.config = false) (htotal : restarted.totalBytes ≤ total) :
    ∃ before, restarted.streams.lookup name = some before ∧ before.payloads = stream.payloads ∧
      (Memory.step config.limits ⟨retry, .appendWithProducer name messages contentType producer
        shouldClose seq fits⟩ restarted).1.appended = true := by
  obtain ⟨producers, hlookup, hcleanup⟩ := hrestarted.live_inv hlive
  refine ⟨_, hlookup, rfl, ?_⟩
  rw [(Memory.step_append_with_producer fits hlookup).1]
  refine (Memory.producer_plan_appended_iff hmessages).mpr (haccepts.again hretry.live ?_ htotal)
  rw [hcleanup _ hretry.later, hretry.record hclock]

/-- The whole request is there: repeating it is answered as a duplicate. -/
theorem retry_of_kept {total : Nat}
    (haccepts : Memory.Accepts config.limits clock messages contentType producer seq total stream)
    (happended : ((Memory.producerPlan clock messages contentType producer shouldClose seq
      stream).run config.limits total).1.appended = true)
    (hafter : ((Memory.producerPlan clock messages contentType producer shouldClose seq
      stream).run config.limits total).2.2 = after) (hconfig : after.config = stream.config)
    (hretry : RetryClock horizon clock retry producer.id stream.config stream.producers)
    (hrestarted : Restarted now horizon (some after) (restarted.streams.lookup name))
    (hlive : isStreamExpired now stream.config = false) :
    ∃ before result, restarted.streams.lookup name = some before ∧
      before.payloads = after.payloads ∧ Reply.appended (.producer (.ok result)) = false ∧
      (Memory.step config.limits ⟨retry, .appendWithProducer name messages contentType producer
        shouldClose seq fits⟩ restarted).1 = .producer (.ok result) := by
  obtain ⟨producers, hlookup, hcleanup⟩ := hrestarted.live_inv (hconfig ▸ hlive)
  have hproducers : after.producers =
      (cleanupStaleProducers clock.cleanup stream.producers).insert producer.id
        ⟨producer.epoch, producer.seq, clock.stamp⟩ := by
    have heffect : (Memory.producerPlan clock messages contentType producer shouldClose seq
        stream).Leaves (Memory.ProducerEffect clock producer shouldClose stream) :=
      Memory.producer_plan_effect haccepts.live
    cases hafter ▸ heffect.run config.limits total with
    | accepted _ _ _ hproducers => exact hproducers
    | refused hrefused =>
        rw [happended] at hrefused
        cases hrefused
  obtain ⟨state, hstate, hepoch, hseq⟩ : ∃ state,
      (cleanupStaleProducers retry.cleanup producers).lookup producer.id = some state ∧
        producer.epoch = state.epoch ∧ producer.seq ≤ state.lastSeq := by
    refine ⟨⟨producer.epoch, producer.seq, clock.stamp⟩, ?_, rfl, Nat.le_refl _⟩
    rw [hcleanup _ hretry.later, lookup_cleanup, hproducers, Finmap.lookup_insert]
    exact Option.filter_eq_some_iff.mpr ⟨rfl, decide_eq_true hretry.own⟩
  have htype : eqIgnoreAsciiCase contentType after.config.contentType = true := by
    have htype := haccepts.type
    rw [validateContentType, ← hconfig] at htype
    split at htype
    · next heq => exact heq
    · cases htype
  have hlive' : isStreamExpired retry.expiry
      ({ after with producers := producers } : Memory.StreamEntry).config = false :=
    (congrArg _ hconfig).trans hretry.live
  refine ⟨_, .duplicate state.epoch state.lastSeq after.nextOffset after.closed, hlookup, rfl, rfl,
    ?_⟩
  rw [(Memory.step_append_with_producer fits hlookup).1,
    Memory.producer_plan_duplicate hlive' (fun _ => htype) hstate hepoch hseq]
  rfl

/-- A reply to a producer request that reports an append is a success. -/
theorem producer_reply_ok {storage : FileStorage}
    (h : (step config .none ⟨retry, .appendWithProducer name messages contentType producer
      shouldClose seq fits⟩ storage).1.appended = true) :
    ∃ result, (step config .none ⟨retry, .appendWithProducer name messages contentType producer
      shouldClose seq fits⟩ storage).1 = .producer (.ok result) := by
  simp only [step, Prod.map_fst] at h ⊢
  generalize (withStream storage name _).1 = result at h ⊢
  cases result with
  | error error => cases h
  | ok result => exact ⟨result, rfl⟩

/-- After a clean crash a producer that repeats its request has its batch in the log once. -/
theorem retry_exactly_once {listing : List String} {persisted : List DirAction} {first : Bytes}
    {rest : List Bytes} (hinv : Memory.Invariant config.limits memory)
    (hrelated : Related horizon memory file) (hclock : call.clock.cleanup ≤ horizon)
    (hcall : call.op = .appendWithProducer name messages contentType producer shouldClose seq fits)
    (hmessages : messages = first :: rest) (hlookup : memory.streams.lookup name = some stream)
    (hdisk : (step config .none call file).2.disk =
      Disk.within (encodeName name) (changes config call file) file.disk)
    (happended : (step config .none call file).1.appended = true)
    (hlisting : Lists listing file.disk)
    (h : Interrupted config horizon call memory file persisted stream after found)
    (hclean : CleanCrash (encodeName name) first file.disk
      (Disk.within (encodeName name) persisted file.disk) (step config .none call file).2.disk)
    (hlive : isStreamExpired now stream.config = false)
    (hretry : RetryClock horizon call.clock retry producer.id stream.config stream.producers)
    (hreopened : reopened =
      reopen now listing (Disk.within (encodeName name) persisted file.disk))
    (hfits : reopened.totalBytes + payloadBytes messages < 2 ^ 64) :
    ∃ result entry, (step config .none ⟨retry, call.op⟩ reopened).1 = .producer (.ok result) ∧
      (step config .none ⟨retry, call.op⟩ reopened).2.streams.lookup name = some entry ∧
      contents (step config .none ⟨retry, call.op⟩ reopened).2 entry =
        .ok (stream.payloads ++ messages) := by
  obtain ⟨clock, op⟩ := call
  obtain rfl : op = _ := hcall
  have hnonempty : messages ≠ [] := hmessages ▸ List.cons_ne_nil _ _
  -- The first request was accepted, so the checks it passed are known.
  rw [← (step_mirrors hinv hrelated h.admissible).1,
    (Memory.step_append_with_producer fits hlookup).1] at happended
  have haccepts := (Memory.producer_plan_appended_iff hnonempty).mp happended
  have hadmissible {restarted : Memory.InMemoryStorage} (hrestarted : Related horizon restarted
      reopened) : Admissible retry.cleanup ⟨retry, .appendWithProducer name messages contentType
        producer shouldClose seq fits⟩ restarted :=
    ⟨h.admissible.named, h.admissible.sizes, hrestarted.total ▸ hfits, le_refl _, by simp⟩
  have hlisting' := hlisting.within (encodeName name) persisted
  have hrecoverable : Recoverable horizon memory (Disk.within (encodeName name) persisted file.disk) ∨
      Recoverable horizon _ (Disk.within (encodeName name) persisted file.disk) :=
    h.recoverable hinv hrelated hlookup hmessages hdisk hclean
  rcases hrecoverable with hrecover | hrecover
  · obtain ⟨restarted, hinv', hrelated', hrestarted⟩ := reopen_related now hinv hrecover hlisting'
    rw [← hreopened] at hrelated'
    obtain ⟨before, hbefore, hpayloads, hreply⟩ := retry_of_lost fits haccepts hretry
      hnonempty hclock (hlookup ▸ hrestarted name) hlive (restarted_total_le hinv hinv' hrestarted)
    obtain ⟨hsame, entry, hentry, hcontents⟩ := answered_by_file hinv' (hrelated'.mono hretry.later)
      (hadmissible hrelated') rfl hbefore rfl
    obtain ⟨result, hresult⟩ := producer_reply_ok fits (hsame ▸ hreply)
    refine ⟨result, entry, hresult, hentry, ?_⟩
    rw [hcontents, hpayloads, Call.added, if_pos hreply]
    rfl
  · obtain ⟨restarted, hinv', hrelated', hrestarted⟩ := reopen_related now
      (Memory.step_invariant _ hinv) hrecover hlisting'
    rw [← hreopened] at hrelated'
    obtain ⟨before, result, hbefore, hpayloads, hquiet, hreply⟩ := retry_of_kept fits haccepts
      happended (Option.some.inj ((Memory.step_append_with_producer fits hlookup).2.symm.trans
        h.lookup)) h.sameConfig hretry
      (h.lookup ▸ hrestarted name) hlive
    obtain ⟨hsame, entry, hentry, hcontents⟩ := answered_by_file hinv' (hrelated'.mono hretry.later)
      (hadmissible hrelated') rfl hbefore rfl
    refine ⟨result, entry, hsame.trans hreply, hentry, ?_⟩
    rw [hcontents, hreply, Call.added, hquiet, if_neg Bool.false_ne_true, List.append_nil, hpayloads,
      h.payloads]
    rfl

end Retries

/-- A crash during the append of a batch to a live stream leaves all or nothing of the call visible
exactly if it is clean. A producer that repeats its request after a clean crash has its batch in the
log exactly once. -/
theorem crash_shows_all_or_nothing_iff (config : Config) (horizon : Timestamp) (file : FileStorage)
    (call : Call) (now : Timestamp) (listing : List String) (persisted : List DirAction)
    (first : Bytes) (rest : List Bytes) (entry : StreamEntry)
    (hreached : Reached config horizon file) (hclock : call.clock.cleanup ≤ horizon)
    (hfits : file.totalBytes + payloadBytes call.op.messages < 2 ^ 64)
    (hop : call.op.isBatch = true) (hmessages : call.op.messages = first :: rest)
    (hentry : file.streams.lookup call.op.name = some entry) (hlisting : Lists listing file.disk)
    (hcrash : Persisted config.syncOnAppend (changes config call file) persisted) :
    let crashed := Disk.within (encodeName call.op.name) persisted file.disk
    let finished := (step config .none call file).2.disk
    ((shown now listing crashed call.op.name = shown now listing file.disk call.op.name ∨
        shown now listing crashed call.op.name = shown now listing finished call.op.name) ↔
      (isStreamExpired now entry.config = true ∨
        CleanCrash (encodeName call.op.name) first file.disk crashed finished)) ∧
    ∀ contentType producer shouldClose seq fits retry,
      call.op = .appendWithProducer call.op.name (first :: rest) contentType producer shouldClose seq
        fits →
      (step config .none call file).1.appended = true →
      CleanCrash (encodeName call.op.name) first file.disk crashed finished →
      isStreamExpired now entry.config = false →
      RetryClock horizon call.clock retry producer.id entry.config entry.producers →
      (reopen now listing crashed).totalBytes + payloadBytes (first :: rest) < 2 ^ 64 →
      ∃ payloads result after, contents file entry = .ok payloads ∧
        (step config .none ⟨retry, call.op⟩ (reopen now listing crashed)).1 =
          .producer (.ok result) ∧
        (step config .none ⟨retry, call.op⟩ (reopen now listing crashed)).2.streams.lookup
          call.op.name = some after ∧
        contents (step config .none ⟨retry, call.op⟩ (reopen now listing crashed)).2 after =
          .ok (payloads ++ first :: rest) := by
  intro crashed finished
  obtain ⟨memory, hinv, hrelated⟩ := hreached.tracked
  obtain ⟨stream, notify, hlookup, rfl⟩ := hrelated.of_file hentry
  refine ⟨crash_iff hinv hrelated hclock hfits hop hmessages hlookup hlisting hcrash, ?_⟩
  intro contentType producer shouldClose seq fits retry hcall happended hclean hlive hretry hfits'
  have hnonempty : call.op.messages ≠ [] := hmessages ▸ List.cons_ne_nil _ _
  obtain ⟨hrefused, -⟩ | ⟨after, found, h⟩ :=
    interrupted_cases hinv hrelated hclock hfits hop hnonempty hlookup hcrash
  · rw [happended] at hrefused
    cases hrefused
  have hdisk := (changes_cases hinv hrelated hfits hop hnonempty hlookup).1
  obtain ⟨result, after, hreply, hafter, hcontents⟩ := retry_exactly_once fits hinv hrelated hclock
    hcall rfl hlookup hdisk happended hlisting h hclean hlive hretry rfl hfits'
  exact ⟨_, result, after, hrelated.contents hlookup notify, hreply, hafter, hcontents⟩

/-- A crash may fall between any two steps. -/
theorem persisted_take (synced : Bool) (actions : List DirAction) (count : Nat) :
    Persisted synced actions (actions.take count) := by
  induction actions generalizing count with
  | nil => rw [List.take_nil]; exact .cut _
  | cons action actions ih =>
      cases count with
      | zero => exact .cut _
      | succ count => exact .next action (ih count)

/-- A producer's first request, a batch of two messages. -/
def batchCall : Call :=
  ⟨.at 1, .appendWithProducer "s" [[1], [2]] "text/plain" ⟨"p", 0, 0⟩ false none (by decide)⟩

/-- After a crash before the metadata is written, the batch is there and its producer is not, so the
repeated request stores it twice. -/
theorem crash_before_metadata_duplicates :
    Persisted true (changes smallConfig batchCall oneStream)
        ((changes smallConfig batchCall oneStream).take 1) ∧
      (step smallConfig .none batchCall oneStream).1.appended = true ∧
      (let crashed := Disk.within (encodeName "s")
        ((changes smallConfig batchCall oneStream).take 1) oneStream.disk
      let reopened := reopen 2 [encodeName "s"] crashed
      let retried := (step smallConfig .none { batchCall with clock := .at 3 } reopened).2
      shown 2 [encodeName "s"] crashed "s" ≠ shown 2 [encodeName "s"] oneStream.disk "s" ∧
      shown 2 [encodeName "s"] crashed "s" ≠
        shown 2 [encodeName "s"] (step smallConfig .none batchCall oneStream).2.disk "s" ∧
      (retried.streams.lookup "s").map (contents retried) = some (.ok [[1], [2], [1], [2]])) := by
  refine ⟨persisted_take _ _ _, ?_, ?_, ?_, ?_⟩ <;> decide +kernel

/-- After a crash inside the first record the repeated request stores the batch once. -/
theorem crash_inside_record_recovers :
    let crashed := Disk.within (encodeName "s") [.appendLog [1, 0, 0]] oneStream.disk
    let reopened := reopen 2 [encodeName "s"] crashed
    let retried := step smallConfig .none ⟨.at 3, batchCall.op⟩ reopened
    ∃ payloads result after, contents oneStream (.ofMemory "s" 0 (.new 0 .plain)) = .ok payloads ∧
      retried.1 = .producer (.ok result) ∧ retried.2.streams.lookup "s" = some after ∧
      contents retried.2 after = .ok (payloads ++ [[1], [2]]) := by
  have hreached : Reached smallConfig 1 oneStream :=
    .step .new ⟨.at 0, .createStream "s" .plain⟩ (by decide) (by decide)
  have hcrash : Persisted true (changes smallConfig batchCall oneStream)
      [.appendLog [1, 0, 0]] := by
    have hchanges : changes smallConfig batchCall oneStream =
        .appendLog (encodeRecords [[1], [2]]) :: (changes smallConfig batchCall oneStream).tail := by
      decide +kernel
    rw [hchanges]
    exact .torn (encodeRecords [[1], [2]]) 3 _
  refine (crash_shows_all_or_nothing_iff smallConfig 1 oneStream batchCall 2 [encodeName "s"] _ [1]
    [[2]] _ hreached (by decide) (by decide +kernel) rfl rfl (by decide +kernel) (by decide +kernel)
    hcrash).2 "text/plain" ⟨"p", 0, 0⟩ false none (by decide) (.at 3) rfl (by decide +kernel)
    (by decide +kernel) (by decide +kernel) ⟨by decide, by decide, ?_, by decide⟩ (by decide +kernel)
  intro state hstate
  simp [StreamEntry.ofMemory, Memory.StreamEntry.new] at hstate

end DurableStreams.File
