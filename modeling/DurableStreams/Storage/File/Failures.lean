import DurableStreams.Storage.File.Restart

/-!
# Failed appends

`append_records` gives the reserved bytes back when writing or syncing the log fails, but leaves what
has reached the log. `leftover` are the bytes behind the last record of the index. As long as they
are not a complete record and nothing is written behind them, a restart cuts them off and finds the
index as it was. `Harmless` states this for one attempt, and `harmless_failures_leave_log_intact`
says that after any run of harmless attempts a restart shows exactly the messages of the appends that
ended well.
-/

namespace DurableStreams.File

open Lib

/-- Whether writing or syncing the log fails. -/
def writeFails (config : Config) (faults : Faults) : Bool :=
  faults.write.isSome || (config.syncOnAppend && faults.sync.isSome)

/-- The bytes of a batch that reach the log. -/
def reaching (faults : Faults) (messages : List Bytes) : Bytes :=
  match faults.write with
  | some (persisted, _) => (encodeRecords messages).take persisted
  | none => encodeRecords messages

/-- The length of the records of an index. -/
def recordedLen (index : List MessageIndex) : Nat := (index.map fun entry => 4 + entry.byteLen).sum

/-- The bytes of a stream's log behind the records of its index. -/
def leftover (file : FileStorage) (entry : StreamEntry) : Bytes :=
  (file.log entry.dir).drop (recordedLen entry.index)

/-- One operation, with the file-system calls that fail in it. -/
def attemptStep (config : Config) (attempt : Faults × Call) (file : FileStorage) :
    Reply × FileStorage :=
  step config attempt.1 attempt.2 file

/-- An attempt to append that a restart can cope with. It leaves the log as it is, as one that is
refused does. If it fails, what it leaves behind the records is not a complete record. If it does not,
there is nothing behind them yet. -/
def Harmless (config : Config) (attempt : Faults × Call) (file : FileStorage) : Prop :=
  ∀ entry ∈ file.streams.lookup attempt.2.op.name,
    (attemptStep config attempt file).2.log entry.dir = file.log entry.dir ∨
    if writeFails config attempt.1 then
      Torn (leftover file entry ++ reaching attempt.1 attempt.2.op.messages)
    else leftover file entry = []

instance (config : Config) (attempt : Faults × Call) (file : FileStorage) :
    Decidable (Harmless config attempt file) :=
  inferInstanceAs (Decidable (∀ entry ∈ file.streams.lookup attempt.2.op.name,
    (attemptStep config attempt file).2.log entry.dir = file.log entry.dir ∨
    if writeFails config attempt.1 then
      Torn (leftover file entry ++ reaching attempt.1 attempt.2.op.messages)
    else leftover file entry = []))

/-- An entry whose index and counters are those of these payloads. -/
structure Indexed (payloads : List Bytes) (entry : StreamEntry) : Prop where
  index : entry.index = indexOf payloads
  nextReadSeq : entry.nextReadSeq = wrap64 payloads.length
  nextByteOffset : entry.nextByteOffset = payloadBytes payloads
  totalBytes : entry.totalBytes = payloadBytes payloads

/-- A stream whose log holds the records of its index, with torn bytes behind them. While there are
none, the cached length of the log is right. -/
structure Surviving (name : String) (streamConfig : StreamConfig) (payloads : List Bytes)
    (torn : Bytes) (file : FileStorage) : Prop where
  entry : ∃ entry, file.streams.lookup name = some entry ∧ entry.dir = encodeName name ∧
    entry.config = streamConfig ∧ Indexed payloads entry ∧
    (torn = [] → entry.fileLen = (encodeRecords payloads).length)
  dir : ∃ found saved, file.disk.lookup (encodeName name) = some found ∧
    found.logBytes = encodeRecords payloads ++ torn ∧ found.metaJson = some saved ∧
    saved.name = name ∧ saved.config = streamConfig
  torn : Torn torn
  sizes : ∀ data ∈ payloads, data.length < 2 ^ 32
  total : payloadBytes payloads ≤ file.totalBytes
  fits : file.totalBytes < 2 ^ 64
  named : WellNamed file.disk

variable {config : Config} {faults : Faults} {horizon now : Timestamp} {name : String}
  {streamConfig : StreamConfig} {payloads messages : List Bytes} {torn : Bytes}
  {file : FileStorage} {entry after : StreamEntry} {total logLen : Nat}

/-! ## Indexes -/

section Indexes

/-- The records of an index are as long as their log. -/
theorem recorded_len_index_of (payloads : List Bytes) :
    recordedLen (indexOf payloads) = (encodeRecords payloads).length := by
  induction payloads using List.reverseRecOn with
  | nil => rfl
  | append_singleton payloads data ih =>
      rw [index_of_concat, encode_records_append, List.length_append, ← ih]
      simp [recordedLen, encode_records_cons]

/-- Indexing one more record. -/
theorem Indexed.push (h : Indexed payloads entry) (data : Bytes)
    (hlen : entry.fileLen = (encodeRecords payloads).length)
    (hfits : payloadBytes payloads + data.length < 2 ^ 64) :
    Indexed (payloads ++ [data]) (entry.pushRecord data) ∧
      (entry.pushRecord data).fileLen = (encodeRecords (payloads ++ [data])).length := by
  have hdata : byteLen data = data.length := byte_len_of_lt (by omega)
  have hoffset : entry.nextOffset = Log.tail payloads := by
    rw [StreamEntry.nextOffset, h.nextReadSeq, h.nextByteOffset, Log.tail, Log.offsetAt,
      List.take_length]
  have hbytes : payloadBytes (payloads ++ [data]) = payloadBytes payloads + data.length := by
    rw [payload_bytes_append]
    simp [payloadBytes]
  refine ⟨⟨?_, ?_, ?_, ?_⟩, ?_⟩
  · simp only [StreamEntry.pushRecord, h.index, hoffset, hlen, hdata, index_of_concat]
  · simp [StreamEntry.pushRecord, h.nextReadSeq, wrap64]
  · simp only [StreamEntry.pushRecord, h.nextByteOffset, hdata, wrap64_of_lt hfits, hbytes]
  · simp only [StreamEntry.pushRecord, h.totalBytes, hdata, wrap64_of_lt hfits, hbytes]
  · simp [StreamEntry.pushRecord, hlen, hdata, encode_records_append, encode_records_cons]

/-- Indexing a batch of records. -/
theorem Indexed.foldl_push (h : Indexed payloads entry)
    (hlen : entry.fileLen = (encodeRecords payloads).length)
    (hfits : payloadBytes payloads + payloadBytes messages < 2 ^ 64) :
    Indexed (payloads ++ messages) (messages.foldl StreamEntry.pushRecord entry) ∧
      (messages.foldl StreamEntry.pushRecord entry).fileLen =
        (encodeRecords (payloads ++ messages)).length := by
  induction messages generalizing payloads entry with
  | nil =>
      rw [List.append_nil]
      exact ⟨h, hlen⟩
  | cons data messages ih =>
      rw [payload_bytes_cons] at hfits
      obtain ⟨hnext, hlen'⟩ := h.push data hlen (by omega)
      have hbytes : payloadBytes (payloads ++ [data]) = payloadBytes payloads + data.length := by
        rw [payload_bytes_append]
        simp [payloadBytes]
      have hall := ih hnext hlen' (by omega)
      rwa [List.append_assoc] at hall

/-- The index does not depend on what else an operation changes. -/
theorem Indexed.same (h : Indexed payloads entry) (hsame : SameIndex entry after) :
    Indexed payloads after :=
  ⟨hsame.index.trans h.index, hsame.nextReadSeq.trans h.nextReadSeq,
    hsame.nextByteOffset.trans h.nextByteOffset, hsame.totalBytes.trans h.totalBytes⟩

/-- The entry an append works on has the index of the one it found. -/
theorem Checked.sameIndex {checked : StreamEntry} (h : Checked now entry checked) :
    SameIndex entry checked := by
  obtain rfl | rfl := h
  · exact .refl _
  · exact .cleanup now entry

end Indexes

/-! ## One attempt -/

section Attempts

/-- How `append_records` can end for a batch with messages: it stops before writing, writing or
syncing fails, or the batch is written and indexed. -/
theorem append_records_ends (config : Config) (faults : Faults) (name : String) (total logLen : Nat)
    (entry : StreamEntry) (hmessages : messages ≠ [])
    (hfits : total + payloadBytes messages < 2 ^ 64) :
    (∃ error, appendRecords config faults name total logLen entry messages =
      ⟨.error error, total, entry, []⟩) ∨
    (writeFails config faults = true ∧ ∃ error fileLen,
      appendRecords config faults name total logLen entry messages =
        ⟨.error error, total, { entry with fileLen := fileLen },
          [.appendLog (reaching faults messages)]⟩ ∧
      (fileLen = entry.fileLen ∨ fileLen = logLen + (reaching faults messages).length)) ∨
    (writeFails config faults = false ∧ (∀ data ∈ messages, data.length < 2 ^ 32) ∧
      appendRecords config faults name total logLen entry messages =
        ⟨.ok (), total + payloadBytes messages,
          (messages.foldl StreamEntry.pushRecord entry).notifyAll,
          [.appendLog (encodeRecords messages)]⟩) := by
  by_cases hlong : TooLong messages
  · exact .inl (append_records_too_long config faults name total logLen entry hlong)
  have hsizes := sizes_of_not_too_long hlong
  have hempty : messages.isEmpty = false := List.isEmpty_eq_false_iff.mpr hmessages
  have hbytes : batchBytes messages = payloadBytes messages := batch_bytes_eq (by omega)
  have hsmall : (messages.any fun data => 2 ^ 32 - 1 < byteLen data) = false := by
    refine List.any_eq_false.mpr fun data hdata => ?_
    have hsize := hsizes data hdata
    rw [byte_len_of_lt (by omega), decide_eq_true_eq]
    omega
  have hfailed (persisted : Bytes) (message : String) :
      ∃ fileLen, failedAppend faults entry (total + payloadBytes messages) (payloadBytes messages)
          logLen persisted message =
        ⟨.error (.storage message), total, { entry with fileLen := fileLen },
          [.appendLog persisted]⟩ ∧
        (fileLen = entry.fileLen ∨ fileLen = logLen + persisted.length) := by
    unfold failedAppend
    cases faults.stat with
    | true => exact ⟨entry.fileLen, by simp, .inl rfl⟩
    | false => exact ⟨logLen + persisted.length, by simp, .inr rfl⟩
  simp only [appendRecords, hempty, hsmall, hbytes, wrap64_of_lt hfits, Bool.false_eq_true,
    ↓reduceIte]
  by_cases hglobal : config.limits.maxTotalBytes.toNat < total + payloadBytes messages
  · rw [if_pos hglobal]
    exact .inl ⟨_, rfl⟩
  by_cases hstream : config.limits.maxStreamBytes.toNat <
      wrap64 (entry.totalBytes + payloadBytes messages)
  · rw [if_neg hglobal, if_pos hstream]
    exact .inl ⟨_, rfl⟩
  rw [if_neg hglobal, if_neg hstream]
  refine .inr ?_
  cases hwrite : faults.write with
  | some failure =>
      obtain ⟨persisted, error⟩ := failure
      obtain ⟨fileLen, hfailed, hlen⟩ := hfailed ((encodeRecords messages).take persisted)
        ("failed to append stream log for " ++ name ++ ": " ++ error)
      have hreach : reaching faults messages = (encodeRecords messages).take persisted := by
        simp only [reaching, hwrite]
      rw [hreach]
      exact .inl ⟨by simp [writeFails, hwrite], _, fileLen, hfailed, hlen⟩
  | none =>
      cases hsync : (if config.syncOnAppend then faults.sync else none) with
      | some error =>
          obtain ⟨fileLen, hfailed, hlen⟩ := hfailed (encodeRecords messages)
            ("failed to sync stream log for " ++ name ++ ": " ++ error)
          obtain ⟨hsynced, hsync⟩ := Option.ite_none_right_eq_some.mp hsync
          have hreach : reaching faults messages = encodeRecords messages := by
            simp only [reaching, hwrite]
          rw [hreach]
          exact .inl ⟨by simp [writeFails, hsynced, hsync], _, fileLen, hfailed, hlen⟩
      | none =>
          refine .inr ⟨?_, hsizes, rfl⟩
          cases hsynced : config.syncOnAppend with
          | false => simp [writeFails, hwrite, hsynced]
          | true =>
              rw [if_pos hsynced] at hsync
              simp [writeFails, hwrite, hsync]

/-- An attempt on an existing stream changes nothing, or it carries out a section that appends. -/
theorem attempt_cases {call : Call} (config : Config) (faults : Faults)
    (hop : call.op.isAppend = true) (hlookup : file.streams.lookup call.op.name = some entry) :
    (∃ reply, reply.appended = false ∧ step config faults call file = (reply, file)) ∨
    ∃ (α : Type) (wrap : Result α → Reply) (outcome : Outcome α) (closes : Bool),
      AppendCase config faults call.op.name call.op.messages call.op.seq closes call.clock.cleanup
        file.totalBytes (file.log entry.dir).length entry wrap outcome ∧
      step config faults call file = (wrap outcome.result,
        ⟨file.streams.insert call.op.name outcome.stream, outcome.total,
          Disk.within entry.dir outcome.actions file.disk⟩) := by
  obtain ⟨reply, hreply, hstep⟩ | ⟨α, wrap, body, closes, -, hcases, hstep⟩ :=
    append_step config faults file hop
  · exact .inl ⟨reply, Reply.appended_of_not_writes hreply, hstep⟩
  · refine .inr ⟨α, wrap, _, closes, hcases _ _ _, ?_⟩
    rw [hstep, withStream, hlookup]
    rfl

/-- Changes that add bytes to the log, if any, and then persist metadata of the stream. -/
def Writes (name : String) (streamConfig : StreamConfig) (bytes : Bytes)
    (actions : List DirAction) : Prop :=
  ∃ persisted, PersistsMeta name streamConfig persisted ∧
    ((actions = persisted ∧ bytes = []) ∨ actions = [.appendLog bytes] ++ persisted)

/-- What such changes leave. -/
theorem Writes.run {bytes : Bytes} {actions : List DirAction} {saved : StreamMeta} {found : Dir}
    (h : Writes name streamConfig bytes actions) (hjson : found.metaJson = some saved)
    (hsaved : saved.name = name ∧ saved.config = streamConfig) :
    (found.run actions).logBytes = found.logBytes ++ bytes ∧
      ∃ saved', (found.run actions).metaJson = some saved' ∧ saved'.name = name ∧
        saved'.config = streamConfig := by
  obtain ⟨persisted, hpersisted, ⟨rfl, rfl⟩ | rfl⟩ := h
  · refine ⟨(hpersisted.log_bytes found).trans (List.append_nil _).symm, ?_⟩
    obtain rfl | ⟨written, hwritten, rfl | rfl⟩ := hpersisted
    · exact ⟨saved, hjson, hsaved⟩
    · exact ⟨saved, hjson, hsaved⟩
    · exact ⟨written, rfl, hwritten⟩
  · refine ⟨hpersisted.log_bytes (DirAction.apply found (.appendLog bytes)), ?_⟩
    obtain rfl | ⟨written, hwritten, rfl | rfl⟩ := hpersisted
    · exact ⟨saved, hjson, hsaved⟩
    · exact ⟨saved, hjson, hsaved⟩
    · exact ⟨written, rfl, hwritten⟩

namespace Surviving

/-- The bytes behind the records of the index. -/
theorem leftover_eq (h : Surviving name streamConfig payloads torn file)
    (hlookup : file.streams.lookup name = some entry) : leftover file entry = torn := by
  obtain ⟨_, hentry, hdir, -, hindexed, -⟩ := h.entry
  obtain rfl := Option.some.inj (hlookup.symm.trans hentry)
  obtain ⟨found, -, hfound, hlog, -⟩ := h.dir
  rw [leftover, hdir, log_of_lookup hfound, hlog, hindexed.index, recorded_len_index_of,
    List.drop_left]

/-- An operation that leaves the log as it is has written nothing to it. -/
theorem writes_nothing {bytes : Bytes} {actions : List DirAction} {streams : HashMap StreamEntry}
    (h : Surviving name streamConfig payloads torn file)
    (hwrites : Writes name streamConfig bytes actions)
    (hlog : FileStorage.log ⟨streams, total, Disk.within (encodeName name) actions file.disk⟩
      (encodeName name) = file.log (encodeName name)) : bytes = [] := by
  obtain ⟨found, saved, hfound, -, hjson, hsaved⟩ := h.dir
  have hafter : (Disk.within (encodeName name) actions file.disk).lookup (encodeName name) =
      some (found.run actions) := by
    rw [lookup_within, if_pos rfl, hfound, Option.map_some]
  rw [log_of_lookup hfound, log_of_lookup hafter, (hwrites.run hjson hsaved).1] at hlog
  exact List.append_right_eq_self.mp hlog

/-- A stream survives when the records of some messages are written behind its own, or else bytes
that are still torn. -/
theorem update {bytes : Bytes} {actions : List DirAction} {total : Nat}
    (h : Surviving name streamConfig payloads torn file) (added : List Bytes) (torn' : Bytes)
    (hindexed : Indexed (payloads ++ added) after) (hdir : after.dir = encodeName name)
    (hconfig : after.config = streamConfig)
    (hlen : torn' = [] → after.fileLen = (encodeRecords (payloads ++ added)).length)
    (hwrites : Writes name streamConfig bytes actions)
    (hbytes : torn ++ bytes = encodeRecords added ++ torn') (htorn : Torn torn')
    (hsizes : ∀ data ∈ added, data.length < 2 ^ 32)
    (htotal : payloadBytes (payloads ++ added) ≤ total) (hfits : total < 2 ^ 64) :
    Surviving name streamConfig (payloads ++ added) torn'
      ⟨file.streams.insert name after, total,
        Disk.within (encodeName name) actions file.disk⟩ := by
  obtain ⟨found, saved, hfound, hlog, hjson, hsaved⟩ := h.dir
  obtain ⟨hlog', saved', hjson', hsaved'⟩ := hwrites.run hjson hsaved
  have hchanged : (Disk.within (encodeName name) actions file.disk).lookup (encodeName name) =
      some (found.run actions) := by
    rw [lookup_within, if_pos rfl, hfound, Option.map_some]
  refine ⟨⟨after, Finmap.lookup_insert _, hdir, hconfig, hindexed, hlen⟩,
    ⟨found.run actions, saved', hchanged, ?_, hjson', hsaved'⟩, htorn, fun data hdata => ?_, htotal,
    hfits, h.named.within hfound hjson' hsaved'.1⟩
  · rw [hlog', hlog, List.append_assoc, hbytes, encode_records_append, List.append_assoc]
  · rcases List.mem_append.mp hdata with hdata | hdata
    · exact h.sizes data hdata
    · exact hsizes data hdata

/-- A stream survives an operation that writes no records. -/
theorem quiet {actions : List DirAction} (h : Surviving name streamConfig payloads torn file)
    (hlookup : file.streams.lookup name = some entry) (hsame : SameIndex entry after)
    (hpersists : PersistsMeta name streamConfig actions) :
    Surviving name streamConfig payloads torn
      ⟨file.streams.insert name after, file.totalBytes,
        Disk.within (encodeName name) actions file.disk⟩ := by
  obtain ⟨_, hentry, hdir, hconfig, hindexed, hlen⟩ := h.entry
  obtain rfl := Option.some.inj (hlookup.symm.trans hentry)
  have hwrites : Writes name streamConfig [] actions := ⟨actions, hpersists, .inl ⟨rfl, rfl⟩⟩
  have hupdate := h.update [] torn ((List.append_nil payloads).symm ▸ hindexed.same hsame)
    (hsame.dir.trans hdir) (hsame.config.trans hconfig)
    (fun hnone => by rw [hsame.fileLen, hlen hnone, List.append_nil]) hwrites
    (by rw [List.append_nil]; rfl) h.torn (by simp) (by rw [List.append_nil]; exact h.total) h.fits
  rwa [List.append_nil] at hupdate

/-- A stream survives a failed write that leaves torn bytes in the log. -/
theorem failed {checked : StreamEntry} {bytes : Bytes} {fileLen : Nat}
    (h : Surviving name streamConfig payloads torn file)
    (hlookup : file.streams.lookup name = some entry) (hsame : SameIndex entry checked)
    (htorn : Torn (torn ++ bytes))
    (hfileLen : fileLen = checked.fileLen ∨
      fileLen = (file.log (encodeName name)).length + bytes.length) :
    Surviving name streamConfig payloads (torn ++ bytes)
      ⟨file.streams.insert name { checked with fileLen := fileLen }, file.totalBytes,
        Disk.within (encodeName name) [.appendLog bytes] file.disk⟩ := by
  obtain ⟨_, hentry, hdir, hconfig, hindexed, hlen⟩ := h.entry
  obtain rfl := Option.some.inj (hlookup.symm.trans hentry)
  obtain ⟨found, -, hfound, hlog, -⟩ := h.dir
  have hchecked := hindexed.same hsame
  have hindexed' : Indexed (payloads ++ []) { checked with fileLen := fileLen } := by
    rw [List.append_nil]
    exact ⟨hchecked.index, hchecked.nextReadSeq, hchecked.nextByteOffset, hchecked.totalBytes⟩
  have hlen' (hnone : torn ++ bytes = []) :
      fileLen = (encodeRecords (payloads ++ [])).length := by
    obtain ⟨rfl, rfl⟩ := List.append_eq_nil_iff.mp hnone
    rw [List.append_nil]
    rcases hfileLen with rfl | rfl
    · rw [hsame.fileLen, hlen rfl]
    · rw [log_of_lookup hfound, hlog, List.append_nil]
      rfl
  have hupdate := h.update [] (torn ++ bytes) hindexed' (hsame.dir.trans hdir)
    (hsame.config.trans hconfig) hlen' ⟨[], .inl rfl, .inr rfl⟩ rfl htorn (by simp)
    (by rw [List.append_nil]; exact h.total) h.fits
  rwa [List.append_nil] at hupdate

/-- A stream whose log has nothing behind its records takes a batch. -/
theorem stored {checked : StreamEntry} {persisted : List DirAction}
    (h : Surviving name streamConfig payloads [] file)
    (hlookup : file.streams.lookup name = some entry) (hsame : SameIndex entry checked)
    (hafter : SameIndex (messages.foldl StreamEntry.pushRecord checked).notifyAll after)
    (hpersisted : PersistsMeta name streamConfig persisted)
    (hsizes : ∀ data ∈ messages, data.length < 2 ^ 32)
    (hfits : file.totalBytes + payloadBytes messages < 2 ^ 64) :
    Surviving name streamConfig (payloads ++ messages) []
      ⟨file.streams.insert name after, file.totalBytes + payloadBytes messages,
        Disk.within (encodeName name) ([.appendLog (encodeRecords messages)] ++ persisted)
          file.disk⟩ := by
  obtain ⟨_, hentry, hdir, hconfig, hindexed, hlen⟩ := h.entry
  obtain rfl := Option.some.inj (hlookup.symm.trans hentry)
  have htotal := h.total
  have hbytes : payloadBytes payloads + payloadBytes messages < 2 ^ 64 := by omega
  obtain ⟨hpushed, hpushedLen⟩ :=
    (hindexed.same hsame).foldl_push (hsame.fileLen.trans (hlen rfl)) hbytes
  obtain ⟨hkeepConfig, hkeepDir⟩ := foldl_push_record_keeps messages checked
  have hindexed' : Indexed (payloads ++ messages) after :=
    ⟨hafter.index.trans hpushed.index, hafter.nextReadSeq.trans hpushed.nextReadSeq,
      hafter.nextByteOffset.trans hpushed.nextByteOffset, hafter.totalBytes.trans hpushed.totalBytes⟩
  refine h.update messages [] hindexed' (hafter.dir.trans (hkeepDir.trans (hsame.dir.trans hdir)))
    (hafter.config.trans (hkeepConfig.trans (hsame.config.trans hconfig)))
    (fun _ => hafter.fileLen.trans hpushedLen) ⟨persisted, hpersisted, .inr rfl⟩
    (List.append_nil _).symm h.torn hsizes ?_ hfits
  rw [payload_bytes_append]
  omega

/-- A harmless attempt adds its messages if it ends well, and otherwise nothing. No bytes are left
behind the records unless it fails to write them. -/
theorem attempt {attempt : Faults × Call} (h : Surviving name streamConfig payloads torn file)
    (hname : attempt.2.op.name = name) (hop : attempt.2.op.isAppend = true)
    (hfits : file.totalBytes + payloadBytes attempt.2.op.messages < 2 ^ 64)
    (hharmless : Harmless config attempt file) :
    ∃ torn', (writeFails config attempt.1 = false → torn' = torn) ∧ Surviving name streamConfig
      (payloads ++ attempt.2.added (attemptStep config attempt file).1) torn'
      (attemptStep config attempt file).2 := by
  obtain ⟨faults, call⟩ := attempt
  subst hname
  obtain ⟨entry, hlookup, hdir, hconfig, hindexed, hlen⟩ := h.entry
  have hleftover := h.leftover_eq hlookup
  have hbehind := hharmless entry hlookup
  rw [hleftover] at hbehind
  simp only [attemptStep] at hbehind ⊢
  obtain ⟨reply, hreply, hstep⟩ | ⟨α, wrap, outcome, closes, hcase, hstep⟩ :=
    attempt_cases config faults hop hlookup
  · rw [hstep]
    refine ⟨torn, fun _ => rfl, ?_⟩
    rwa [Call.added, hreply, if_neg Bool.false_ne_true, List.append_nil]
  rw [hstep, hdir] at hbehind ⊢
  cases hcase with
  | quiet hchecked hreply =>
      refine ⟨torn, fun _ => rfl, ?_⟩
      rw [Call.added, hreply, if_neg Bool.false_ne_true, List.append_nil]
      exact h.quiet hlookup hchecked.sameIndex (.inl rfl)
  | @failed checked _ _ hchecked _ hwritten hreply =>
      rw [Call.added, hreply, if_neg Bool.false_ne_true, List.append_nil]
      have hsame := hchecked.sameIndex
      by_cases hempty : call.op.messages = []
      · rw [hempty] at hwritten
        cases hwritten
      obtain ⟨_, hrecords⟩ | ⟨hfails, _, fileLen, hrecords, hfileLen⟩ | ⟨-, -, hrecords⟩ :=
        append_records_ends config faults call.op.name file.totalBytes
          (file.log entry.dir).length checked hempty hfits
      · rw [hrecords]
        exact ⟨torn, fun _ => rfl, h.quiet hlookup hsame (.inl rfl)⟩
      · -- What has reached the log stays there.
        rw [if_pos hfails, hrecords] at hbehind
        rw [hrecords]
        have htorn : Torn (torn ++ reaching faults call.op.messages) := by
          rcases hbehind with hlog | htorn
          · rw [h.writes_nothing ⟨[], .inl rfl, .inr rfl⟩ hlog, List.append_nil]
            exact h.torn
          · exact htorn
        refine ⟨_, fun hwrites => ?_, h.failed hlookup hsame htorn (hdir ▸ hfileLen)⟩
        rw [hfails] at hwrites
        cases hwrites
      · rw [hrecords] at hwritten
        cases hwritten
  | @stored checked _ _ persisted _ hchecked _ hwritten hsettles hpersisted hreply =>
      rw [hconfig] at hpersisted
      have hafter := hsettles.index
      have hsame := hchecked.sameIndex
      rw [Call.added, hreply, if_pos rfl]
      by_cases hempty : call.op.messages = []
      · rw [hempty] at hafter ⊢
        rw [List.append_nil]
        exact ⟨torn, fun _ => rfl, h.quiet hlookup (hsame.trans hafter) hpersisted⟩
      obtain ⟨_, hrecords⟩ | ⟨-, _, _, hrecords, -⟩ | ⟨hfails, hsizes, hrecords⟩ :=
        append_records_ends config faults call.op.name file.totalBytes
          (file.log entry.dir).length checked hempty hfits
      · rw [hrecords] at hwritten
        cases hwritten
      · rw [hrecords] at hwritten
        cases hwritten
      · rw [hrecords] at hafter hbehind
        rw [hrecords]
        have hbehind := hbehind.resolve_left fun hlog => by
          obtain ⟨data, messages, hmessages⟩ := List.exists_cons_of_ne_nil hempty
          have hnothing := congrArg List.length
            (h.writes_nothing ⟨persisted, hpersisted, .inr rfl⟩ hlog)
          simp [hmessages] at hnothing
        rw [hfails, if_neg Bool.false_ne_true] at hbehind
        subst hbehind
        exact ⟨[], fun _ => rfl, h.stored hlookup hsame hafter hpersisted hsizes hfits⟩

end Surviving

end Attempts

/-! ## Runs of attempts -/

section Runs

namespace Surviving

/-- Over a run of harmless attempts a stream collects the messages of those that end well. -/
theorem exec {attempts : List (Faults × Call)} (h : Surviving name streamConfig payloads torn file)
    (hops : ∀ attempt ∈ attempts, attempt.2.op.name = name ∧ attempt.2.op.isAppend = true)
    (hfits : Along (attemptStep config)
      (fun attempt file => file.totalBytes + payloadBytes attempt.2.op.messages < 2 ^ 64) attempts file)
    (hharmless : Along (attemptStep config) (Harmless config) attempts file) :
    ∃ torn', Surviving name streamConfig
      (payloads ++
        appendedTo name (attempts.map Prod.snd) (exec (attemptStep config) attempts file).1) torn'
      (exec (attemptStep config) attempts file).2 := by
  induction attempts generalizing payloads torn file with
  | nil =>
      refine ⟨torn, ?_⟩
      rw [exec_nil, List.map_nil, appendedTo, List.zip_nil_left, List.map_nil, List.flatten_nil,
        List.append_nil]
      exact h
  | cons attempt attempts ih =>
      obtain ⟨hname, hop⟩ := hops attempt (by simp)
      obtain ⟨torn', -, hnext⟩ := h.attempt hname hop hfits.1 hharmless.1
      obtain ⟨torn'', hfinal⟩ := ih hnext (fun other hother => hops other (by simp [hother]))
        hfits.2 hharmless.2
      refine ⟨torn'', ?_⟩
      rwa [exec_cons, List.map_cons, appended_to_cons, if_pos hname, ← List.append_assoc]

/-- The streams of a tracked storage survive. -/
theorem of_related {memory : Memory.InMemoryStorage} {stream : Memory.StreamEntry}
    (hinv : Memory.Invariant config.limits memory) (hrelated : Related horizon memory file)
    (hlookup : memory.streams.lookup name = some stream) :
    Surviving name stream.config stream.payloads [] file := by
  obtain ⟨notify, found, -, hentry, hfound, hstored⟩ := hrelated.present hlookup
  obtain ⟨saved, hjson, hsaved⟩ := hstored.saved
  have hstream := hinv.wellFormed hlookup
  have hle := hinv.stream_le_total hlookup
  have hglobal := hinv.globalLimit
  have hmax := config.limits.maxTotalBytes.toNat_lt
  have hlength : stream.payloads.length = stream.messages.length := List.length_map _
  refine ⟨⟨_, hentry, rfl, rfl, ⟨rfl, ?_, hstream.nextByteOffset, hstream.totalBytes⟩, fun _ => rfl⟩,
    ⟨found, saved, hfound, ?_, hjson, hsaved.name, hsaved.config⟩, .inl (by decide), hstored.sizes,
    ?_, ?_, hrelated.recoverable.wellNamed⟩
  · rw [hlength]
    exact hstream.nextReadSeq
  · rw [hstored.toLogged.log_bytes, List.append_nil]
  · rw [hrelated.total, ← hstream.totalBytes]
    exact hle
  · rw [hrelated.total]
    omega

/-- What is read from a surviving stream. -/
theorem contents (h : Surviving name streamConfig payloads torn file)
    (hlookup : file.streams.lookup name = some entry) : contents file entry = .ok payloads := by
  obtain ⟨_, hentry, hdir, -, hindexed, -⟩ := h.entry
  obtain rfl := Option.some.inj (hlookup.symm.trans hentry)
  obtain ⟨found, -, hfound, hlog, -⟩ := h.dir
  rw [File.contents, hdir, log_of_lookup hfound, hlog, hindexed.index]
  exact read_messages_eq payloads torn 0

/-- A restart cuts off what is torn, and a live stream survives with its payloads. -/
theorem reopen {listing : List String} (h : Surviving name streamConfig payloads torn file)
    (hlisting : Lists listing file.disk) (hlive : isStreamExpired now streamConfig = false) :
    Surviving name streamConfig payloads [] (reopen now listing file.disk) := by
  obtain ⟨found, saved, hfound, hlog, hjson, hname, rfl⟩ := h.dir
  have hloading := reopen_loads now hlisting h.named
  have hbytes := h.total.trans_lt h.fits
  have hrevive := revive_eq (encodeName name) h.torn h.sizes hbytes hlog hjson hlive
  have hentry : (File.reopen now listing file.disk).streams.lookup name =
      some (recovered (encodeName name) payloads saved) := by
    rw [hloading.streams, if_neg List.not_mem_nil, hfound]
    exact hrevive
  have hdir : (File.reopen now listing file.disk).disk.lookup (encodeName name) =
      some { found with log := some (encodeRecords payloads) } := by
    have hload : loadEntry (encodeName name) found.logBytes saved =
        recovered (encodeName name) payloads saved := by
      simpa [revive, hjson, hlive] using hrevive
    rw [hloading.dirs, if_neg List.not_mem_nil, hfound]
    simp only [Option.bind_some, remains, hjson, hlive, Bool.false_eq_true, ↓reduceIte, hload]
    rw [hlog, recovered, List.take_left]
  refine ⟨⟨_, hentry, rfl, rfl, ⟨rfl, rfl, rfl, rfl⟩, fun _ => rfl⟩,
    ⟨_, saved, hdir, (List.append_nil _).symm, hjson, hname, rfl⟩, .inl (by decide), h.sizes, ?_, ?_,
    h.named.reopen now hlisting⟩
  · have hmeasure := FiniteMap.measure_le_total StreamEntry.totalBytes hentry
    rw [hloading.total]
    exact Nat.le_min.mpr ⟨hmeasure, by omega⟩
  · rw [hloading.total]
    exact (Nat.min_le_right ..).trans_lt (by decide)

/-- A restart brings a live stream back with its payloads at their offsets. -/
theorem reopened {listing : List String} (h : Surviving name streamConfig payloads torn file)
    (hlisting : Lists listing file.disk) (hlive : isStreamExpired now streamConfig = false) :
    ∃ after, (File.reopen now listing file.disk).streams.lookup name = some after ∧
      after.index = indexOf payloads ∧
      File.contents (File.reopen now listing file.disk) after = .ok payloads := by
  have hafter := h.reopen hlisting hlive
  obtain ⟨after, hlookup, -, -, hindexed, -⟩ := hafter.entry
  exact ⟨after, hlookup, hindexed.index, hafter.contents hlookup⟩

end Surviving

/-- After a run of harmless attempts to append to a stream, a restart shows exactly the messages of
the appends that ended well, at the offsets they had before. -/
theorem harmless_failures_leave_log_intact (config : Config) (horizon : Timestamp)
    (file : FileStorage) (name : String) (entry : StreamEntry) (attempts : List (Faults × Call))
    (now : Timestamp) (listing : List String) (hreached : Reached config horizon file)
    (hentry : file.streams.lookup name = some entry)
    (hops : ∀ attempt ∈ attempts, attempt.2.op.name = name ∧ attempt.2.op.isAppend = true)
    (hfits : Along (attemptStep config)
      (fun attempt file => file.totalBytes + payloadBytes attempt.2.op.messages < 2 ^ 64) attempts file)
    (hharmless : Along (attemptStep config) (Harmless config) attempts file)
    (hlisting : Lists listing (exec (attemptStep config) attempts file).2.disk)
    (hlive : isStreamExpired now entry.config = false) :
    let run := exec (attemptStep config) attempts file
    let reopened := reopen now listing run.2.disk
    ∃ payloads before after, contents file entry = .ok payloads ∧
      run.2.streams.lookup name = some before ∧ reopened.streams.lookup name = some after ∧
      contents run.2 before = .ok (payloads ++ appendedTo name (attempts.map Prod.snd) run.1) ∧
      contents reopened after = .ok (payloads ++ appendedTo name (attempts.map Prod.snd) run.1) ∧
      after.index.map MessageIndex.offset = before.index.map MessageIndex.offset := by
  intro run reopened
  obtain ⟨memory, hinv, hrelated⟩ := hreached.tracked
  obtain ⟨stream, notify, hlookup, rfl⟩ := hrelated.of_file hentry
  obtain ⟨torn, hfinal⟩ := (Surviving.of_related hinv hrelated hlookup).exec hops hfits hharmless
  obtain ⟨before, hbefore, -, -, hindexed, -⟩ := hfinal.entry
  obtain ⟨after, hafter, hindex, hcontents⟩ := hfinal.reopened hlisting hlive
  exact ⟨stream.payloads, before, after, hrelated.contents hlookup notify, hbefore, hafter,
    hfinal.contents hbefore, hcontents, by rw [hindex, hindexed.index]⟩

/-- Appending one message while the disk is full after some bytes. -/
def diskFull (bytes : Nat) (data : Bytes) (fits : data.length < 2 ^ 64) : Faults × Call :=
  (⟨none, none, some (bytes, "no space left"), none, false, none, none, none, none⟩,
    ⟨.at 1, .append "s" data "text/plain" fits⟩)

/-- Appending one message while the log cannot be synced. -/
def syncFailure (data : Bytes) (fits : data.length < 2 ^ 64) : Faults × Call :=
  (⟨none, none, none, some "input/output error", false, none, none, none, none⟩,
    ⟨.at 1, .append "s" data "text/plain" fits⟩)

/-- Appending one message while nothing fails. -/
def goodAppend (data : Bytes) (fits : data.length < 2 ^ 64) : Faults × Call :=
  (.none, ⟨.at 2, .append "s" data "text/plain" fits⟩)

/-- The payloads of the stream after a run and a restart. -/
def survivors (attempts : List (Faults × Call)) : Option (Result (List Bytes)) :=
  let reopened := reopen 3 [encodeName "s"] (exec (attemptStep smallConfig) attempts oneStream).2.disk
  (reopened.streams.lookup "s").map (contents reopened)

/-- A message that was appended behind the rest of a failed write is lost, and one whose append
failed to sync comes back. -/
theorem failures_damage_log :
    ((exec (attemptStep smallConfig) [diskFull 3 [1, 2] (by decide), goodAppend [7] (by decide)]
          oneStream).1 =
        [.offset (.error (.storage "failed to append stream log for s: no space left")),
          .offset (.ok (.new 0 0))] ∧
      survivors [diskFull 3 [1, 2] (by decide), goodAppend [7] (by decide)] = some (.ok [])) ∧
    ((exec (attemptStep smallConfig) [syncFailure [1, 2] (by decide)] oneStream).1 =
        [.offset (.error (.storage "failed to sync stream log for s: input/output error"))] ∧
      survivors [syncFailure [1, 2] (by decide)] = some (.ok [[1, 2]])) := by
  refine ⟨⟨?_, ?_⟩, ?_, ?_⟩ <;> decide +kernel

/-- Failed writes that leave nothing, and one that leaves a part of its record at the end. An append
that comes after it is refused. -/
def harmlessAttempts : List (Faults × Call) :=
  [diskFull 0 [1, 2] (by decide), goodAppend [7] (by decide), diskFull 3 [1, 2] (by decide),
    (.none, ⟨.at 2, .append "s" [7] "text/html" (by decide)⟩)]

/-- After these attempts a restart shows the one message whose append ended well. -/
theorem harmless_attempts_keep_message :
    ∃ payloads before after, contents oneStream (.ofMemory "s" 0 (.new 0 .plain)) = .ok payloads ∧
      (exec (attemptStep smallConfig) harmlessAttempts oneStream).2.streams.lookup "s" =
        some before ∧
      (reopen 3 [encodeName "s"] (exec (attemptStep smallConfig) harmlessAttempts
        oneStream).2.disk).streams.lookup "s" = some after ∧
      contents (exec (attemptStep smallConfig) harmlessAttempts oneStream).2 before =
        .ok (payloads ++ [[7]]) ∧
      contents (reopen 3 [encodeName "s"] (exec (attemptStep smallConfig) harmlessAttempts
        oneStream).2.disk) after = .ok (payloads ++ [[7]]) ∧
      after.index.map MessageIndex.offset = before.index.map MessageIndex.offset := by
  have hreached : Reached smallConfig 0 oneStream :=
    .step .new ⟨.at 0, .createStream "s" .plain⟩ (by decide) (by decide)
  have hadded : appendedTo "s" (harmlessAttempts.map Prod.snd)
      (exec (attemptStep smallConfig) harmlessAttempts oneStream).1 = [[7]] := by decide +kernel
  rw [← hadded]
  refine harmless_failures_leave_log_intact smallConfig 0 oneStream "s" _ harmlessAttempts 3
    [encodeName "s"] hreached (by decide +kernel) (by decide) ?_ ?_ (by decide +kernel) (by decide)
  · exact ⟨by decide +kernel, by decide +kernel, by decide +kernel, by decide +kernel, trivial⟩
  · exact ⟨by decide +kernel, by decide +kernel, by decide +kernel, by decide +kernel, trivial⟩

end Runs

end DurableStreams.File
