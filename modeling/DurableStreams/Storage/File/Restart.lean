import DurableStreams.Storage.File.Recovery

/-!
# Restarting the file backend

A storage that was closed and opened again holds the streams that have not expired, with their logs
and metadata, except that producer records which were already stale may have come back.
`Equivalent` storages answer producer appends alike, so later producer appends find no difference
to the original without its expired streams (`restart_keeps_live_streams`).
-/

namespace DurableStreams.File

open Lib

variable {config : Config} {now horizon : Timestamp} {name : String}
  {memory : Memory.InMemoryStorage} {file storage : FileStorage} {stream : Memory.StreamEntry}
  {found : Dir}

/-! ## Answering producers alike -/

section Answers

/-- Give an entry another notification channel. -/
@[simps]
def StreamEntry.setNotify (notify : Nat) (stream : StreamEntry) : StreamEntry :=
  { stream with notify := notify }

/-- Two states of an entry that differ in their subscribers and in producer records that are stale
at the horizon. -/
def Agrees (horizon : Timestamp) (left right : StreamEntry) : Prop :=
  ∃ producers notify, right = { left with producers := producers, notify := notify } ∧
    cleanupStaleProducers horizon producers = cleanupStaleProducers horizon left.producers

/-- Two storages whose streams agree. -/
structure Equivalent (horizon : Timestamp) (left right : FileStorage) : Prop where
  total : right.totalBytes = left.totalBytes
  streams : ∀ name,
    Option.Rel (Agrees horizon) (left.streams.lookup name) (right.streams.lookup name)

variable {clock : Clock} {left right : StreamEntry} {messages : List Bytes}

/-- Entries that differ in their subscribers agree. -/
theorem Agrees.setNotify (horizon : Timestamp) (notify : Nat) (stream : StreamEntry) :
    Agrees horizon stream (stream.setNotify notify) :=
  ⟨stream.producers, notify, rfl, rfl⟩

/-- Indexing records has nothing to do with the subscribers. -/
theorem foldl_push_record_notify (messages : List Bytes) (notify : Nat) (stream : StreamEntry) :
    messages.foldl StreamEntry.pushRecord (stream.setNotify notify) =
      (messages.foldl StreamEntry.pushRecord stream).setNotify notify := by
  induction messages generalizing stream with
  | nil => rfl
  | cons data messages ih => exact ih (stream.pushRecord data)

/-- Appending records has nothing to do with the subscribers or the length of the log. -/
theorem append_records_notify (config : Config) (name : String) (total logLen logLen' : Nat)
    (notify : Nat) (stream : StreamEntry) (messages : List Bytes) :
    ∃ notify',
      appendRecords config .none name total logLen' (stream.setNotify notify) messages =
        { appendRecords config .none name total logLen stream messages with
          stream := (appendRecords config .none name total logLen stream
            messages).stream.setNotify notify' } := by
  have htotal : (stream.setNotify notify).totalBytes = stream.totalBytes := rfl
  simp only [appendRecords, Faults.none, ite_self, htotal, foldl_push_record_notify]
  split_ifs
  · exact ⟨notify, rfl⟩
  · exact ⟨notify, rfl⟩
  · exact ⟨notify, rfl⟩
  · exact ⟨notify, rfl⟩
  · exact ⟨notify + 1, rfl⟩

/-- The section of `append_with_producer` drops the stale records before it looks at any. -/
theorem producer_section_agrees (config : Config) (name : String) (messages : List Bytes)
    (contentType : String) (producer : ProducerHeaders) (shouldClose : Bool) (seq : Option String)
    (total logLen logLen' : Nat) (hclock : horizon ≤ clock.cleanup) (h : Agrees horizon left right) :
    let first := appendWithProducerSection config .none clock name messages contentType producer
      shouldClose seq total logLen left
    let second := appendWithProducerSection config .none clock name messages contentType producer
      shouldClose seq total logLen' right
    second.result = first.result ∧ second.total = first.total ∧
      Agrees horizon first.stream second.stream := by
  obtain ⟨producers, notify, rfl, hproducers⟩ := id h
  have hclean : StreamEntry.cleanup clock.cleanup
      { left with producers := producers, notify := notify } =
      (left.cleanup clock.cleanup).setNotify notify := by
    have hsame : cleanupStaleProducers clock.cleanup producers =
        cleanupStaleProducers clock.cleanup left.producers := by
      rw [← cleanup_cleanup hclock producers, hproducers, cleanup_cleanup hclock]
    simp only [StreamEntry.cleanup, StreamEntry.setNotify, hsame]
  unfold appendWithProducerSection
  dsimp only
  by_cases hexpired : isStreamExpired clock.expiry left.config = true
  · rw [if_pos hexpired, if_pos hexpired]
    exact ⟨rfl, rfl, h⟩
  rw [if_neg hexpired, if_neg hexpired, hclean]
  generalize left.cleanup clock.cleanup = stream
  have hagrees := Agrees.setNotify horizon notify stream
  simp only [StreamEntry.setNotify_config, StreamEntry.setNotify_closed,
    StreamEntry.setNotify_lastSeq, StreamEntry.setNotify_producers]
  cases (if messages.isEmpty then .ok ()
      else validateContentType stream.config.contentType contentType : Result Unit) with
  | error error => exact ⟨rfl, rfl, hagrees⟩
  | ok _ =>
      dsimp only
      cases checkProducer (stream.producers.lookup producer.id) producer stream.closed with
      | error error => exact ⟨rfl, rfl, hagrees⟩
      | ok check =>
          cases check with
          | duplicate epoch last => exact ⟨rfl, rfl, hagrees⟩
          | accept =>
              dsimp only
              cases validateSeq stream.lastSeq seq with
              | error error => exact ⟨rfl, rfl, hagrees⟩
              | ok pending =>
                  obtain ⟨notify', happend⟩ := append_records_notify config name total logLen
                    logLen' notify stream messages
                  dsimp only
                  rw [happend]
                  dsimp only
                  cases (appendRecords config .none name total logLen stream messages).result with
                  | error error => exact ⟨rfl, rfl, .setNotify horizon notify' _⟩
                  | ok _ =>
                      generalize (appendRecords config .none name total logLen stream
                        messages).stream = written
                      cases pending <;> cases shouldClose <;>
                        exact ⟨rfl, rfl, .setNotify horizon notify' _⟩

/-- One producer append is answered alike by equivalent storages. -/
theorem step_equivalent (config : Config) {call : Call}
    (hop : call.op.isProducerAppend = true)
    (hclock : horizon ≤ call.clock.cleanup) (h : Equivalent horizon file storage) :
    (step config .none call file).1 = (step config .none call storage).1 ∧
      Equivalent horizon (step config .none call file).2 (step config .none call storage).2 := by
  obtain ⟨clock, op⟩ := call
  cases op with
  | appendWithProducer name messages contentType producer shouldClose seq fits =>
      have hslot := h.streams name
      simp only [step, withStream]
      cases hleft : file.streams.lookup name with
      | none =>
          rw [hleft] at hslot
          generalize storage.streams.lookup name = found at hslot ⊢
          cases hslot
          exact ⟨rfl, h⟩
      | some left =>
          rw [hleft] at hslot
          cases hright : storage.streams.lookup name with
          | none =>
              rw [hright] at hslot
              cases hslot
          | some right =>
              rw [hright] at hslot
              cases hslot with
              | some hagrees =>
                  have hsection := producer_section_agrees config name messages contentType producer
                    shouldClose seq file.totalBytes (file.log left.dir).length
                    (storage.log right.dir).length hclock hagrees
                  obtain ⟨hresult, htotal, hstream⟩ := hsection
                  dsimp only
                  rw [h.total]
                  refine ⟨congrArg Reply.producer hresult.symm, htotal, fun other => ?_⟩
                  simp only [Prod.map_apply, id_eq, FiniteMap.lookup_insert_ite]
                  split
                  · exact .some hstream
                  · exact h.streams other
  | createStream | append | batchAppend | read | delete | head | closeStream
  | createStreamWithData | «exists» | subscribe => simp [Op.isProducerAppend] at hop

/-- A run of producer appends is answered alike by equivalent storages. -/
theorem exec_equivalent {later : List Call}
    (hlater : ∀ call ∈ later, call.op.isProducerAppend = true ∧ horizon ≤ call.clock.cleanup)
    (h : Equivalent horizon file storage) :
    (exec (step config .none) later file).1 = (exec (step config .none) later storage).1 := by
  have halong : Along (step config .none)
      (fun call _ => call.op.isProducerAppend = true ∧ horizon ≤ call.clock.cleanup) later file :=
    along_of_forall fun call hcall _ => hlater call hcall
  have hstep (call : Call) (left right : FileStorage)
      (hcall : call.op.isProducerAppend = true ∧ horizon ≤ call.clock.cleanup)
      (h : Equivalent horizon left right) := step_equivalent config hcall.1 hcall.2 h
  exact (exec_simulation (Equivalent horizon) hstep halong h).1

end Answers

/-! ## A restart -/

section Restart

/-- A stream of the file backend is one of the tracked storage. -/
theorem Related.of_file {entry : StreamEntry} (h : Related horizon memory file)
    (hlookup : file.streams.lookup name = some entry) :
    ∃ stream notify, memory.streams.lookup name = some stream ∧
      entry = .ofMemory name notify stream := by
  cases hmemory : memory.streams.lookup name with
  | none =>
      rw [(h.absent hmemory).1] at hlookup
      cases hlookup
  | some stream =>
      obtain ⟨notify, -, -, hentry, -⟩ := h.present hmemory
      exact ⟨stream, notify, rfl, Option.some.inj (hlookup.symm.trans hentry)⟩

/-- Requests to delete streams. -/
def deletes (clock : Clock) (names : List String) : List Call :=
  names.map fun name => ⟨clock, .delete name⟩

/-- Deleting streams takes exactly these streams out, with their bytes. -/
theorem exec_deletes (clock : Clock) (names : List String)
    (hinv : Memory.Invariant config.limits memory) (hrelated : Related horizon memory file) :
    ∃ memory', Memory.Invariant config.limits memory' ∧
      Related horizon memory' (exec (step config .none) (deletes clock names) file).2 ∧
      ∀ name, memory'.streams.lookup name =
        if name ∈ names then none else memory.streams.lookup name := by
  induction names generalizing memory file with
  | nil => exact ⟨memory, hinv, hrelated, by simp⟩
  | cons target names ih =>
      obtain ⟨next, hinv', hrelated', hnext⟩ : ∃ next, Memory.Invariant config.limits next ∧
          Related horizon next (delete config .none file target).2 ∧
          ∀ name, next.streams.lookup name =
            if name = target then none else memory.streams.lookup name := by
        unfold delete
        cases hlookup : memory.streams.lookup target with
        | none =>
            rw [(hrelated.absent hlookup).1]
            refine ⟨memory, hinv, hrelated, fun name => ?_⟩
            split
            · next heq => rw [heq, hlookup]
            · rfl
        | some stream =>
            obtain ⟨notify, -, -, hentry, -⟩ := hrelated.present hlookup
            obtain ⟨file', hremove, hremoved⟩ := remove_mirrors config hrelated hlookup notify
            rw [hentry]
            dsimp only
            rw [hremove]
            exact ⟨_, hinv.remove hlookup, hremoved, fun name =>
              FiniteMap.lookup_erase_ite _ _ _⟩
      obtain ⟨memory', hinv'', hrelated'', hlookup⟩ := ih hinv' hrelated'
      refine ⟨memory', hinv'', hrelated'', fun name => ?_⟩
      rw [hlookup, hnext]
      simp only [List.mem_cons]
      split_ifs <;> simp_all

/-- The payloads of a stream, read through its index. -/
def contents (storage : FileStorage) (entry : StreamEntry) : Result (List Bytes) :=
  readMessages .none (storage.log entry.dir) entry.index

/-- The parts of a stream that a restart has to keep. -/
structure SameStream (original reopened : FileStorage) (before after : StreamEntry) : Prop where
  config : after.config = before.config
  createdAt : after.createdAt = before.createdAt
  closed : after.closed = before.closed
  lastSeq : after.lastSeq = before.lastSeq
  offsets : after.index.map MessageIndex.offset = before.index.map MessageIndex.offset
  payloads : ∃ payloads, contents original before = .ok payloads ∧
    contents reopened after = .ok payloads
  nextOffset : after.nextOffset = before.nextOffset
  totalBytes : after.totalBytes = before.totalBytes

/-- The payloads of a stream of a tracked storage. -/
theorem Related.contents (h : Related horizon memory file)
    (hlookup : memory.streams.lookup name = some stream) (notify : Nat) :
    contents file (.ofMemory name notify stream) = .ok stream.payloads := by
  obtain ⟨-, found, -, -, hfound, hstored⟩ := h.present hlookup
  rw [File.contents, StreamEntry.ofMemory_dir, log_of_lookup hfound, hstored.toLogged.log_bytes,
    ← List.append_nil (encodeRecords stream.payloads)]
  exact read_messages_eq stream.payloads [] 0

/-- A tracked storage counts the bytes of its streams. -/
theorem Related.total_eq (hinv : Memory.Invariant config.limits memory)
    (h : Related horizon memory file) :
    file.totalBytes = FiniteMap.total StreamEntry.totalBytes file.streams := by
  rw [h.total, hinv.total]
  exact (total_of_slots fun name => ⟨_, h.slots name⟩).symm

variable {restarted : Memory.InMemoryStorage} {reopened : FileStorage}

/-- A live stream is the same after a restart. -/
theorem live_stream_survives {entry : StreamEntry} (hrelated : Related horizon memory file)
    (hreopened : Related horizon restarted reopened)
    (hrestarted : Restarted now horizon (memory.streams.lookup name)
      (restarted.streams.lookup name))
    (hlookup : file.streams.lookup name = some entry)
    (hlive : isStreamExpired now entry.config = false) :
    ∃ after, reopened.streams.lookup name = some after ∧
      SameStream file reopened entry after := by
  obtain ⟨stream, notify, hmemory, rfl⟩ := hrelated.of_file hlookup
  rw [hmemory] at hrestarted
  cases hafter : restarted.streams.lookup name with
  | none =>
      rw [hafter] at hrestarted
      cases hrestarted with
      | expired hexpired => exact absurd (hlive.symm.trans hexpired) (by decide)
  | some after =>
      rw [hafter] at hrestarted
      obtain ⟨original, producers, horiginal, -, rfl, -⟩ := hrestarted.some_inv
      obtain rfl := Option.some.inj horiginal
      obtain ⟨notify', -, -, hentry, -⟩ := hreopened.present hafter
      exact ⟨_, hentry, rfl, rfl, rfl, rfl, rfl, ⟨stream.payloads, hrelated.contents hmemory notify,
        hreopened.contents hafter notify'⟩, rfl, rfl⟩

/-- After a restart the storage is equivalent to the original without its expired streams. -/
theorem reopen_equivalent {expired : List String} (clock : Clock)
    (hinv : Memory.Invariant config.limits memory) (hrelated : Related horizon memory file)
    (hinv' : Memory.Invariant config.limits restarted)
    (hreopened : Related horizon restarted reopened)
    (hrestarted : ∀ name, Restarted now horizon (memory.streams.lookup name)
      (restarted.streams.lookup name))
    (hexpired : ∀ name, name ∈ expired ↔ ∃ entry, file.streams.lookup name = some entry ∧
      isStreamExpired now entry.config = true) :
    Equivalent horizon (exec (step config .none) (deletes clock expired) file).2 reopened := by
  obtain ⟨trimmed, hinvt, htrimmed, hlookup⟩ := exec_deletes clock expired hinv hrelated
  -- Under each name, either both hold nothing or both hold the live stream.
  have hslot (name : String) :
      (trimmed.streams.lookup name = none ∧ restarted.streams.lookup name = none) ∨
      ∃ stream producers, trimmed.streams.lookup name = some stream ∧
        restarted.streams.lookup name = some { stream with producers := producers } ∧
        cleanupStaleProducers horizon producers =
          cleanupStaleProducers horizon stream.producers := by
    have hslot := hrestarted name
    rw [hlookup name]
    cases hmemory : memory.streams.lookup name with
    | none =>
        rw [hmemory] at hslot
        generalize restarted.streams.lookup name = after at hslot ⊢
        cases hslot
        exact .inl ⟨ite_self _, rfl⟩
    | some stream =>
        obtain ⟨notify, -, -, hentry, -⟩ := hrelated.present hmemory
        rw [hmemory] at hslot
        generalize restarted.streams.lookup name = after at hslot ⊢
        cases hslot with
        | expired hdead => exact .inl ⟨if_pos ((hexpired name).mpr ⟨_, hentry, hdead⟩), rfl⟩
        | live producers hlive hproducers =>
            have hkept : name ∉ expired := by
              intro hmem
              obtain ⟨entry, hentry', hdead⟩ := (hexpired name).mp hmem
              obtain rfl := Option.some.inj (hentry.symm.trans hentry')
              exact absurd (hlive.symm.trans hdead) (by decide)
            exact .inr ⟨stream, producers, if_neg hkept, rfl, hproducers⟩
  refine ⟨?_, fun name => ?_⟩
  · rw [hreopened.total, htrimmed.total, hinv'.total, hinvt.total]
    refine Nat.le_antisymm (FiniteMap.total_le_total fun name after hafter => ?_)
      (FiniteMap.total_le_total fun name stream hstream => ?_)
    · obtain ⟨-, hnone⟩ | ⟨stream, producers, hstream, hsome, -⟩ := hslot name
      · exact absurd (hafter.symm.trans hnone) (by simp)
      · obtain rfl := Option.some.inj (hafter.symm.trans hsome)
        exact ⟨stream, hstream, Nat.le_refl _⟩
    · obtain ⟨hnone, -⟩ | ⟨original, producers, horiginal, hsome, -⟩ := hslot name
      · exact absurd (hstream.symm.trans hnone) (by simp)
      · obtain rfl := Option.some.inj (hstream.symm.trans horiginal)
        exact ⟨_, hsome, Nat.le_refl _⟩
  · obtain ⟨hbefore, hafter⟩ | ⟨stream, producers, hbefore, hafter, hproducers⟩ := hslot name
    · rw [(htrimmed.absent hbefore).1, (hreopened.absent hafter).1]
      exact .none
    · obtain ⟨_, -, -, hentry, -⟩ := htrimmed.present hbefore
      obtain ⟨notify, -, -, hentry', -⟩ := hreopened.present hafter
      rw [hentry, hentry']
      exact .some ⟨producers, notify, rfl, hproducers⟩

/-- A restart brings back exactly the live streams, and from then on producers are answered as if
the expired streams had been deleted. -/
theorem restart_keeps_live_streams (config : Config) (calls : List Call) (now : Timestamp)
    (listing : List String) (hfits : ByteTotalsFit config calls)
    (hlisting : Lists listing (exec (step config .none) calls .new).2.disk) :
    let original := (exec (step config .none) calls .new).2
    let reopened := reopen now listing original.disk
    (∀ name entry, original.streams.lookup name = some entry →
      isStreamExpired now entry.config = false →
      ∃ after, reopened.streams.lookup name = some after ∧
        SameStream original reopened entry after) ∧
    (∀ name after, reopened.streams.lookup name = some after →
      ∃ entry, original.streams.lookup name = some entry ∧
        isStreamExpired now entry.config = false) ∧
    reopened.totalBytes = FiniteMap.total StreamEntry.totalBytes reopened.streams ∧
    ∀ (horizon : Timestamp) (clock : Clock) (expired : List String) (later : List Call),
      (∀ call ∈ calls, call.clock.cleanup ≤ horizon) →
      (∀ name, name ∈ expired ↔ ∃ entry, original.streams.lookup name = some entry ∧
        isStreamExpired now entry.config = true) →
      (∀ call ∈ later, call.op.isProducerAppend = true ∧ horizon ≤ call.clock.cleanup) →
      (exec (step config .none) later reopened).1 =
        (exec (step config .none) later
          (exec (step config .none) (deletes clock expired) original).2).1 := by
  intro original reopened
  obtain ⟨horizon, hclock⟩ := exists_horizon calls
  obtain ⟨memory, hinv, hrelated⟩ := reachable_tracked hfits hclock
  obtain ⟨restarted, hinv', hreopened, hrestarted⟩ :=
    reopen_related now hinv hrelated.recoverable hlisting
  refine ⟨fun name entry hlookup hlive =>
    live_stream_survives hrelated hreopened (hrestarted name) hlookup hlive,
    fun name after hafter => ?_, hreopened.total_eq hinv', ?_⟩
  · obtain ⟨stream, -, hstream, -⟩ := hreopened.of_file hafter
    obtain ⟨before, -, hbefore, hlive, -⟩ := (hstream ▸ hrestarted name).some_inv
    obtain ⟨_, -, -, hentry, -⟩ := hrelated.present hbefore
    exact ⟨_, hentry, hlive⟩
  · intro horizon clock expired later hearlier hexpired hlater
    obtain ⟨memory, hinv, hrelated⟩ := reachable_tracked hfits hearlier
    obtain ⟨restarted, hinv', hreopened, hrestarted⟩ :=
      reopen_related now hinv hrelated.recoverable hlisting
    exact (exec_equivalent hlater
      (reopen_equivalent clock hinv hrelated hinv' hreopened hrestarted hexpired)).symm

/-- Ten bytes in total. -/
def tenBytes : Config := ⟨⟨10, 100⟩, "streams", true⟩

/-- Eight bytes in a stream that expires at instant ten, and an empty stream that does not. -/
def expiringCalls : List Call :=
  [⟨.at 0, .createStream "a" ⟨"text/plain", none, some 10, false⟩⟩,
    ⟨.at 1, .append "a" [1, 2, 3, 4, 5, 6, 7, 8] "text/plain" (by decide)⟩,
    ⟨.at 2, .createStream "b" .plain⟩]

/-- A producer's first request for three bytes, after the first stream has expired. -/
def producerCall : Call :=
  ⟨.at 20, .appendWithProducer "b" [[1, 2, 3]] "text/plain" ⟨"p", 0, 0⟩ false none (by decide)⟩

/-- The original still counts the bytes of the expired stream and refuses what the restarted
storage accepts. -/
theorem restart_frees_expired_bytes :
    Lists [encodeName "a", encodeName "b"]
        (exec (step tenBytes .none) expiringCalls .new).2.disk ∧
      (step tenBytes .none producerCall (exec (step tenBytes .none) expiringCalls .new).2).1 =
        .producer (.error .memoryLimitExceeded) ∧
      (step tenBytes .none producerCall (reopen 20 [encodeName "a", encodeName "b"]
        (exec (step tenBytes .none) expiringCalls .new).2.disk)).1 =
        .producer (.ok (.accepted 0 0 (.new 1 3) false)) := by
  refine ⟨?_, ?_, ?_⟩ <;> decide +kernel

/-- The restarted storage answers as the original does once the expired stream is deleted. -/
theorem restart_answers_as_trimmed :
    (exec (step tenBytes .none) [producerCall] (reopen 20 [encodeName "a", encodeName "b"]
        (exec (step tenBytes .none) expiringCalls .new).2.disk)).1 =
      (exec (step tenBytes .none) [producerCall] (exec (step tenBytes .none)
        (deletes (.at 20) ["a"]) (exec (step tenBytes .none) expiringCalls .new).2).2).1 := by
  refine (restart_keeps_live_streams tenBytes expiringCalls 20 [encodeName "a", encodeName "b"]
    ?_ ?_).2.2.2 2 (.at 20) ["a"] [producerCall] (by decide) ?_ (by decide)
  · exact ⟨by decide +kernel, by decide +kernel, by decide +kernel, trivial⟩
  · decide +kernel
  · have hstreams : (exec (step tenBytes .none) expiringCalls .new).2.streams =
        ((∅ : HashMap StreamEntry).insert "b" (.new 2 .plain 0 (encodeName "b"))).insert "a"
          { StreamEntry.new 0 ⟨"text/plain", none, some 10, false⟩ 12 (encodeName "a") with
            index := [⟨.new 0 0, 4, 8⟩], nextReadSeq := 1, nextByteOffset := 8, totalBytes := 8,
            notify := 1 } := by decide +kernel
    intro name
    rw [hstreams, FiniteMap.lookup_insert_ite, FiniteMap.lookup_insert_ite, Finmap.lookup_empty]
    by_cases ha : name = "a"
    · simp [ha, StreamEntry.new, isStreamExpired]
    · by_cases hb : name = "b"
      · simp [hb, StreamEntry.new, isStreamExpired, StreamConfig.plain]
      · simp [ha, hb]

end Restart

end DurableStreams.File
