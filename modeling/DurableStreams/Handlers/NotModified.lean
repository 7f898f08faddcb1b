import DurableStreams.Handlers.Get
import DurableStreams.Protocol.OffsetCodec
import DurableStreams.Storage.Incarnations
import DurableStreams.Storage.Memory.Reads
import DurableStreams.Storage.Services

/-!
# Not modified

A catch-up read is answered 304 if its `If-None-Match` is the ETag of what it would return. The ETag
has the offset that was asked for, the offset behind the messages, and a mark for a closed stream. As
long as no other stream is put in its place, this determines the messages (`not_modified_is_fresh`). A
stream that is created again under the same name can have the same ETag with other messages.
-/

namespace DurableStreams.Get

open Lib

/-- What a 304 stands for: a response with data now would carry the same messages, the same next
offset and the same mark as the cached one. -/
def Fresh (cached current : Response) : Prop :=
  current.messages = cached.messages ∧ current.nextOffset = cached.nextOffset ∧
    current.closed = cached.closed

instance (cached current : Response) : Decidable (Fresh cached current) :=
  inferInstanceAs (Decidable (_ ∧ _ ∧ _))

/-! ## ETags -/

section Etags

variable {raw : String} {cached current : ReadResult}

/-- The text of an offset has 33 characters. -/
theorem length_as_str_new (readSeq byteOffset : Nat) :
    (Offset.new readSeq byteOffset).asStr.toList.length = 33 := by
  simp [Offset.new, Offset.asStr, encodeOffset, encodeHex16]

/-- Offsets with the same text are the same. -/
theorem as_str_new_inj {seq byte seq' byte' : Nat} (hseq : seq < 2 ^ 64) (hbyte : byte < 2 ^ 64)
    (hseq' : seq' < 2 ^ 64) (hbyte' : byte' < 2 ^ 64)
    (h : (Offset.new seq byte).asStr = (Offset.new seq' byte').asStr) :
    seq = seq' ∧ byte = byte' := by
  have hbytes := congrArg strBytes h
  rw [Offset.str_bytes_new, Offset.str_bytes_new, encodeOffset, encodeOffset] at hbytes
  have hlength (value : Nat) : (encodeHex16 value).length = 16 := by simp [encodeHex16]
  obtain ⟨hfront, hback⟩ := List.append_inj hbytes (by simp [hlength])
  obtain ⟨hfront, -⟩ := List.append_inj hfront (by simp [hlength])
  refine ⟨?_, ?_⟩
  · exact Option.some.inj ((decode_encode_hex16 hseq).symm.trans
      ((congrArg decodeHex16 hfront).trans (decode_encode_hex16 hseq')))
  · exact Option.some.inj ((decode_encode_hex16 hbyte).symm.trans
      ((congrArg decodeHex16 hback).trans (decode_encode_hex16 hbyte')))

/-- The characters of an ETag. -/
theorem generate_etag_to_list (raw : String) (result : ReadResult) :
    (generateEtag raw result).toList = ['"'] ++ raw.toList ++ [':'] ++
      (result.nextOffset.asStr.toList ++ if closedAtTail result then [':', 'c', '"'] else ['"']) := by
  unfold generateEtag
  split <;> simp [String.toList_append]

/-- An offset of a stream. -/
def Counts (offset : Offset) : Prop :=
  ∃ readSeq byteOffset, readSeq < 2 ^ 64 ∧ byteOffset < 2 ^ 64 ∧ offset = .new readSeq byteOffset

/-- Reads from the same offset with the same ETag have reached the same offset, and both or neither are
at the end of a closed stream. -/
theorem generate_etag_inj (hcached : Counts cached.nextOffset) (hcurrent : Counts current.nextOffset)
    (h : generateEtag raw cached = generateEtag raw current) :
    current.nextOffset = cached.nextOffset ∧ closedAtTail current = closedAtTail cached := by
  obtain ⟨seq, byte, hseq, hbyte, hoffset⟩ := hcached
  obtain ⟨seq', byte', hseq', hbyte', hoffset'⟩ := hcurrent
  have hchars := congrArg String.toList h
  rw [generate_etag_to_list, generate_etag_to_list] at hchars
  obtain ⟨htext, hmark⟩ := List.append_inj (List.append_cancel_left hchars)
    (by rw [hoffset, hoffset', length_as_str_new, length_as_str_new])
  rw [hoffset, hoffset'] at htext
  obtain ⟨rfl, rfl⟩ := as_str_new_inj hseq hbyte hseq' hbyte' (String.toList_inj.mp htext)
  refine ⟨hoffset'.trans hoffset.symm, ?_⟩
  revert hmark
  cases closedAtTail cached <;> cases closedAtTail current <;> simp

/-- A 304 answers with the ETag of the cached response. -/
theorem etag_of_not_modified {ifNoneMatch : Option String} {contentType contentType' : String}
    (hok : (catchUpResponse raw ifNoneMatch contentType cached).status = .ok)
    (h : (catchUpResponse raw (catchUpResponse raw ifNoneMatch contentType cached).etag contentType'
      current).status = .notModified) : generateEtag raw cached = generateEtag raw current := by
  unfold catchUpResponse at h hok
  dsimp only at h hok
  split at hok
  · cases hok
  next hmiss =>
    rw [if_neg hmiss] at h
    split at h
    · next hmatch => exact Option.some.inj hmatch
    · cases h

/-- If reading as far as before means reading the same messages, a 304 is right. -/
theorem fresh_of_same_messages {ifNoneMatch : Option String} {contentType contentType' : String}
    (hcached : Counts cached.nextOffset) (hcurrent : Counts current.nextOffset)
    (hmessages : current.nextOffset = cached.nextOffset → current.messages = cached.messages)
    (hok : (catchUpResponse raw ifNoneMatch contentType cached).status = .ok)
    (h : (catchUpResponse raw (catchUpResponse raw ifNoneMatch contentType cached).etag contentType'
      current).status = .notModified) :
    Fresh (catchUpResponse raw ifNoneMatch contentType cached)
      (buildDataResponse current contentType' (generateEtag raw current) none) := by
  obtain ⟨hoffset, hclosed⟩ := generate_etag_inj hcached hcurrent (etag_of_not_modified hok h)
  unfold catchUpResponse at hok ⊢
  dsimp only at hok ⊢
  split at hok
  · cases hok
  next hmiss =>
    rw [if_neg hmiss]
    exact ⟨hmessages hoffset, hoffset, hclosed⟩

end Etags

end DurableStreams.Get

namespace DurableStreams.Memory

open Lib

variable {limits : Limits} {storage later : InMemoryStorage} {name : String} {offset : Offset}
  {clock clock' : Clock} {cached current : ReadResult}

/-- What a read that succeeds returns. -/
theorem read_ok {result : ReadResult}
    (h : readStream storage name (readSection clock offset) = .ok result) :
    ∃ stream, storage.streams.lookup name = some stream ∧
      isStreamExpired clock.expiry stream.config = false ∧ result.nextOffset = stream.nextOffset ∧
      result.closed = stream.closed ∧
      result.messages = if offset.isNow then []
        else (stream.messages.drop (startIndex stream offset)).map Message.data := by
  unfold readStream at h
  cases hlookup : storage.streams.lookup name with
  | none => simp [hlookup] at h
  | some stream =>
      rw [hlookup] at h
      dsimp only [readSection] at h
      refine ⟨stream, rfl, ?_⟩
      split at h
      · cases h
      next hlive =>
        refine ⟨by simpa using hlive, ?_⟩
        split at h
        · next hnow =>
            obtain rfl := Except.ok.inj h
            exact ⟨rfl, rfl, by rw [if_pos hnow]⟩
        · next hnow =>
            obtain rfl := Except.ok.inj h
            exact ⟨rfl, rfl, by rw [if_neg hnow]⟩

/-- The tail of a stream counts its messages and bytes. -/
theorem Invariant.tail_counts {stream : StreamEntry} (h : Invariant limits storage)
    (hlookup : storage.streams.lookup name = some stream) : Get.Counts stream.nextOffset := by
  have hstream := h.wellFormed hlookup
  have hle := h.stream_le_total hlookup
  have hglobal := h.globalLimit
  have hmax := limits.maxTotalBytes.toNat_lt
  have htotal := hstream.totalBytes
  refine ⟨stream.nextReadSeq, stream.nextByteOffset, ?_, ?_, rfl⟩
  · rw [hstream.nextReadSeq]
    exact Nat.mod_lt _ (by decide)
  · rw [hstream.nextByteOffset]
    omega

/-- Two reads of a stream that has grown meanwhile, to the same tail. -/
theorem same_messages (hinv : Invariant limits storage) (hinv' : Invariant limits later)
    (hcontinues : Continues Grows (storage.streams.lookup name) (later.streams.lookup name))
    (hcount : ∀ stream, later.streams.lookup name = some stream → stream.messages.length < 2 ^ 64)
    (hcached : readStream storage name (readSection clock offset) = .ok cached)
    (hcurrent : readStream later name (readSection clock' offset) = .ok current)
    (hoffset : current.nextOffset = cached.nextOffset) : current.messages = cached.messages := by
  obtain ⟨before, hbefore, -, htail, -, hmessages⟩ := read_ok hcached
  obtain ⟨after, hafter, -, htail', -, hmessages'⟩ := read_ok hcurrent
  obtain ⟨_, hsame, hgrows⟩ := hcontinues after hafter
  obtain rfl := Option.some.inj (hbefore.symm.trans hsame)
  have hseq : after.nextReadSeq = before.nextReadSeq := by
    rw [htail, htail', StreamEntry.nextOffset, StreamEntry.nextOffset, Offset.new_inj] at hoffset
    exact hoffset.1
  have hlt := hcount after hafter
  have hle := hgrows.messages.length_le
  rw [(hinv.wellFormed hbefore).nextReadSeq, (hinv'.wellFormed hafter).nextReadSeq,
    wrap64_of_lt hlt, wrap64_of_lt (by omega)] at hseq
  have hlog := hgrows.messages.eq_of_length hseq.symm
  rw [hmessages, hmessages', startIndex, startIndex, hlog]

end DurableStreams.Memory

namespace DurableStreams.File

open Lib

variable {file later : FileStorage} {name : String} {offset : Offset} {clock clock' : Clock}
  {faults faults' : Faults} {cached current : ReadResult}

/-- Reading from a log that has been extended meanwhile. -/
theorem read_messages_stable {log log' : Bytes} {slice : List MessageIndex}
    {messages messages' : List Bytes} (hlog : log <+: log')
    (h : readMessages faults log slice = .ok messages)
    (h' : readMessages faults' log' slice = .ok messages') : messages' = messages := by
  obtain ⟨more, rfl⟩ := hlog
  unfold readMessages at h h'
  cases hfirst : slice.head? with
  | none =>
      simp only [hfirst] at h h'
      exact (Except.ok.inj h').symm.trans (Except.ok.inj h)
  | some first =>
      cases hlast : slice.getLast? with
      | none =>
          simp only [hfirst, hlast] at h h'
          exact (Except.ok.inj h').symm.trans (Except.ok.inj h)
      | some last =>
          simp only [hfirst, hlast] at h h'
          cases hread : faults.readLog with
          | some error => simp [hread] at h
          | none =>
              cases hread' : faults'.readLog with
              | some error => simp [hread'] at h'
              | none =>
                  simp only [hread, hread'] at h h'
                  split at h
                  · cases h
                  next hfits =>
                  split at h'
                  · cases h'
                  have hraw : ((log ++ more).drop first.filePos).take
                        (last.filePos + last.byteLen - first.filePos) =
                      (log.drop first.filePos).take
                        (last.filePos + last.byteLen - first.filePos) := by
                    by_cases hnone : last.filePos + last.byteLen - first.filePos = 0
                    · rw [hnone, List.take_zero, List.take_zero]
                    · have hend := Nat.not_lt.mp fun hlt => hfits ⟨hnone, hlt⟩
                      rw [List.drop_append_of_le_length (by omega),
                        List.take_append_of_le_length (by rw [List.length_drop]; omega)]
                  rw [hraw] at h'
                  exact (Except.ok.inj h').symm.trans (Except.ok.inj h)

/-- What a read that succeeds returns. -/
theorem read_ok {result : ReadResult}
    (h : readStream file name (readSection faults clock offset) = .ok result) :
    ∃ stream, file.streams.lookup name = some stream ∧
      isStreamExpired clock.expiry stream.config = false ∧ result.nextOffset = stream.nextOffset ∧
      result.closed = stream.closed ∧
      ((offset.isNow = true ∧ result.messages = []) ∨ (offset.isNow = false ∧
        readMessages faults (file.log stream.dir)
          (stream.index.drop (startIndex stream offset)) = .ok result.messages)) := by
  unfold readStream at h
  cases hlookup : file.streams.lookup name with
  | none => simp [hlookup] at h
  | some stream =>
      rw [hlookup] at h
      dsimp only [readSection] at h
      refine ⟨stream, rfl, ?_⟩
      split at h
      · cases h
      next hlive =>
        refine ⟨by simpa using hlive, ?_⟩
        split at h
        · next hnow =>
            obtain rfl := Except.ok.inj h
            exact ⟨rfl, rfl, .inl ⟨hnow, rfl⟩⟩
        · next hnow =>
            split at h
            · cases h
            next messages hmessages =>
              obtain rfl := Except.ok.inj h
              exact ⟨rfl, rfl, .inr ⟨by simpa using hnow, hmessages⟩⟩

/-- Two reads of a stream that has grown meanwhile, to the same tail. -/
theorem same_messages (hregular : Regular file) (hregular' : Regular later)
    (hcontinues : Continues Grows (served file name) (served later name))
    (hcount : ∀ stream, later.streams.lookup name = some stream → stream.index.length < 2 ^ 64)
    (hcached : readStream file name (readSection faults clock offset) = .ok cached)
    (hcurrent : readStream later name (readSection faults' clock' offset) = .ok current)
    (hoffset : current.nextOffset = cached.nextOffset) : current.messages = cached.messages := by
  obtain ⟨before, hbefore, -, htail, -, hmessages⟩ := read_ok hcached
  obtain ⟨after, hafter, -, htail', -, hmessages'⟩ := read_ok hcurrent
  obtain ⟨_, hsame, hgrows⟩ := hcontinues (after, later.log after.dir)
    (by rw [served, hafter, Option.map_some])
  rw [served, hbefore, Option.map_some] at hsame
  obtain rfl := Option.some.inj hsame
  have hseq : after.nextReadSeq = before.nextReadSeq := by
    rw [htail, htail', StreamEntry.nextOffset, StreamEntry.nextOffset, Offset.new_inj] at hoffset
    exact hoffset.1
  have hlt := hcount after hafter
  have hindex : before.index <+: after.index := hgrows.index
  have hle := hindex.length_le
  rw [(hregular.counted name before hbefore).nextReadSeq,
    (hregular'.counted name after hafter).nextReadSeq, wrap64_of_lt hlt, wrap64_of_lt (by omega)]
    at hseq
  have hindex := hindex.eq_of_length hseq.symm
  rw [startIndex, ← hindex] at hmessages'
  obtain ⟨hnow, hempty⟩ | ⟨hnow, hread⟩ := hmessages
  · obtain ⟨-, hempty'⟩ | ⟨hnow', -⟩ := hmessages'
    · rw [hempty, hempty']
    · rw [hnow] at hnow'
      cases hnow'
  · obtain ⟨hnow', -⟩ | ⟨-, hread'⟩ := hmessages'
    · rw [hnow] at hnow'
      cases hnow'
    · exact read_messages_stable hgrows.log hread hread'

end DurableStreams.File

namespace DurableStreams.Acid

open Lib

variable {config : Config} {storage : AcidStorage config} {memory : Memory.InMemoryStorage}
  {name : String}

/-- Dropping messages that are not stored does not make a call replace a stream. -/
theorem replaces_of_trimmed {call : Call} {found : Option StreamConfig}
    (h : Replaces name ⟨call.clock, trimmed call.op⟩ found) : Replaces name call found := by
  obtain ⟨hname, hop, hexpired⟩ := h
  refine ⟨(trimmed_name _).symm.trans hname, ?_, hexpired⟩
  obtain ⟨clock, op⟩ := call
  cases op with
  | createStreamWithData => rfl
  | _ => exact hop

/-- The represented stream has the configuration of the row. -/
theorem Represents.config_of (h : Represents storage memory) (name : String) :
    configOf name storage = Memory.configOf name memory := by
  rw [configOf, h.streams, Memory.configOf, Option.map_map]
  rfl

/-- A call that may be aborted, and what it does to a stream it does not replace. -/
theorem attempt_represents {error : Option Error} {call : Call} (h : Represents storage memory)
    (hcount : Countable call storage) :
    ∃ next, Represents (attempt (error, call) storage).2 next ∧
      ∀ name, ¬ Replaces name call (configOf name storage) →
        Continues Memory.Grows (memory.streams.lookup name) (next.streams.lookup name) := by
  have hsame (name : String) : Continues Memory.Grows (memory.streams.lookup name)
      (memory.streams.lookup name) := .refl .refl _
  cases error with
  | some error =>
      refine ⟨memory, ?_, fun name _ => hsame name⟩
      rw [attempt, abort_eq]
      exact h
  | none =>
      obtain ⟨next, hnext, htracks⟩ := h.step hcount
      refine ⟨next, hnext, fun name hspares => ?_⟩
      generalize (step call storage).1 = reply at htracks
      cases htracks with
      | refused => exact hsame name
      | quiet => exact hsame name
      | same =>
          rw [h.config_of] at hspares
          exact Memory.step_continues config.limits fun hreplaces =>
            hspares (replaces_of_trimmed hreplaces)

/-- Over a run in which a stream is not replaced, the represented stream grows or is gone. -/
theorem exec_represents {inputs : List ((Option Error × Clock) × Op)}
    (h : Represents storage memory)
    (hcount : Along (store config).run (fun input => Countable ⟨input.1.2, input.2⟩) inputs storage)
    (hspares : Along (store config).run ((store config).Spares name) inputs storage) :
    ∃ memory', Represents (exec (store config).run inputs storage).2 memory' ∧
      Continues Memory.Grows (memory.streams.lookup name) (memory'.streams.lookup name) := by
  induction inputs generalizing storage memory with
  | nil => exact ⟨memory, h, .refl .refl _⟩
  | cons input inputs ih =>
      obtain ⟨next, hnext, hcontinues⟩ := attempt_represents h hcount.1
      obtain ⟨memory', hafter, hcontinues'⟩ := ih hnext hcount.2 hspares.2
      have hfirst : Continues Memory.Grows (memory.streams.lookup name) (next.streams.lookup name) :=
        .or_gone (fun hreplaces => Option.map_eq_none_iff.mp
          ((hnext.config_of name).symm.trans (hspares.1 hreplaces))) (hcontinues name)
      exact ⟨memory', hafter, hfirst.trans Memory.Grows.trans hcontinues'⟩

/-- A read that succeeds returns what is read from the represented streams. -/
theorem read_ok {error : Option Error} {clock : Clock} {offset : Offset} {result : ReadResult}
    (h : Represents storage memory)
    (hread : (attempt (error, ⟨clock, .read name offset⟩) storage).1 = .read (.ok result)) :
    Memory.readStream memory name (Memory.readSection clock offset) = .ok result := by
  cases error with
  | some error => cases hread
  | none =>
      have hmemory := (service config).read_backs h clock name offset
      exact Reply.read.inj (hmemory.symm.trans hread)

end DurableStreams.Acid

namespace DurableStreams

open Lib Get

/-- A 304 is right for every two catch-up reads of a name with the same offset text: the first one was
answered with data, the second one carries its ETag, and between them no other stream is put in the
place of the one that was read. -/
def Store.NeverStale {σ κ : Type} (store : Store σ κ) (Counted : String → κ × Op → σ → Prop)
    (start : σ) : Prop :=
  ∀ (name raw : String) (offset : Offset) (ifNoneMatch : Option String)
    (contentType contentType' : String) (before between : List (κ × Op)) (first second : κ)
    (cached current : ReadResult),
    Offset.fromStr raw = .ok offset →
    let state := (exec store.run before start).2
    let reading := store.step first (.read name offset) state
    let later := (exec store.run between reading.2).2
    reading.1 = .read (.ok cached) →
    (store.step second (.read name offset) later).1 = .read (.ok current) →
    Along store.run (Counted name)
      (before ++ (first, .read name offset) :: (between ++ [(second, .read name offset)])) start →
    Along store.run (store.Spares name) between reading.2 →
    let response := catchUpResponse raw ifNoneMatch contentType cached
    response.status = .ok →
    (catchUpResponse raw response.etag contentType' current).status = .notModified →
    Fresh response (buildDataResponse current contentType' (generateEtag raw current) none)

/-- The rule for a storage with an invariant and a relation between its states before and after a run
in which a stream is not replaced. Reading as far as before must mean reading the same messages. -/
theorem Store.never_stale {σ κ : Type} {store : Store σ κ} {Counted : String → κ × Op → σ → Prop}
    {start : σ} (Inv : σ → Prop) (Same : String → σ → σ → Prop) (hstart : Inv start)
    (hrun : ∀ name input state, Counted name input state → Inv state →
      Inv (store.run input state).2)
    (hquiet : ∀ choice name offset state, (store.step choice (.read name offset) state).2 = state)
    (hsame : ∀ name inputs state, Inv state → Along store.run (Counted name) inputs state →
      Along store.run (store.Spares name) inputs state →
      Same name state (exec store.run inputs state).2)
    (hcounts : ∀ choice name offset state result, Inv state →
      (store.step choice (.read name offset) state).1 = .read (.ok result) → Counts result.nextOffset)
    (hmessages : ∀ first second name offset state later cached current, Inv state → Inv later →
      Same name state later → Counted name (second, .read name offset) later →
      (store.step first (.read name offset) state).1 = .read (.ok cached) →
      (store.step second (.read name offset) later).1 = .read (.ok current) →
      current.nextOffset = cached.nextOffset → current.messages = cached.messages) :
    store.NeverStale Counted start := by
  intro name raw offset ifNoneMatch contentType contentType' before between first second cached
    current _ state reading later hcached hcurrent hcounted hspares response hok hnot
  obtain ⟨hbefore, -, hrest⟩ := along_append.mp hcounted
  obtain ⟨hbetween, hlast, -⟩ := along_append.mp hrest
  have hstate : Inv state := exec_invariant (hrun name) hbefore hstart
  have hread : reading.2 = state := hquiet first name offset state
  have hmiddle : Inv reading.2 := hread ▸ hstate
  have hlater : Inv later := exec_invariant (hrun name) hbetween hmiddle
  have hcontinues := hsame name between reading.2 hmiddle hbetween hspares
  rw [hread] at hcontinues
  refine fresh_of_same_messages (hcounts first name offset state cached hstate hcached)
    (hcounts second name offset later current hlater hcurrent) (fun hoffset => ?_) hok hnot
  refine hmessages first second name offset state later cached current hstate hlater ?_ hlast hcached
    hcurrent hoffset
  rw [show later = (exec store.run between reading.2).2 from rfl, hread]
  exact hcontinues

/-- In each of the three storages, as long as streams have fewer than `2 ^ 64` messages, a 304 is never
stale for a stream that has not been replaced. In the file backend any calls to the file system may
fail, and in the transactional storage the database may abort any call. -/
theorem not_modified_is_fresh (limits : Limits) (fileConfig : File.Config) (acidConfig : Acid.Config) :
    (Memory.store limits).NeverStale
      (fun name _ storage => ∀ stream ∈ storage.streams.lookup name,
        stream.messages.length < 2 ^ 64) .new ∧
    (File.store fileConfig).NeverStale
      (fun name _ file => ∀ stream ∈ file.streams.lookup name, stream.index.length < 2 ^ 64) .new ∧
    (Acid.store acidConfig).NeverStale (fun _ input => Acid.Countable ⟨input.1.2, input.2⟩)
      (.new acidConfig) := by
  refine ⟨?_, ?_, ?_⟩
  · refine Store.never_stale (Memory.Invariant limits)
      (fun name storage later => Continues Memory.Grows (storage.streams.lookup name)
        (later.streams.lookup name)) (.new limits)
      (fun _ _ _ _ hinv => Memory.step_invariant _ hinv) (fun _ _ _ _ => rfl) ?_ ?_ ?_
    · exact fun name inputs storage _ _ hspares => Memory.exec_continues hspares
    · intro clock name offset storage result hinv hread
      obtain ⟨stream, hlookup, -, htail, -⟩ := Memory.read_ok (Reply.read.inj hread)
      rw [htail]
      exact hinv.tail_counts hlookup
    · intro first second name offset storage later cached current hinv hinv' hcontinues hcounted
        hcached hcurrent
      exact Memory.same_messages hinv hinv' hcontinues hcounted (Reply.read.inj hcached)
        (Reply.read.inj hcurrent)
  · refine Store.never_stale File.Regular
      (fun name file later => Continues File.Grows (File.served file name) (File.served later name))
      ⟨(@File.Possible.new fileConfig).named, fun _ _ h => by cases h⟩
      (fun _ _ _ _ hregular => hregular.step _ _ _) (fun _ _ _ _ => rfl) ?_ ?_ ?_
    · exact fun name inputs file hregular _ hspares => File.exec_continues hregular hspares
    · intro choice name offset file result hregular hread
      obtain ⟨stream, hlookup, -, htail, -⟩ := File.read_ok (Reply.read.inj hread)
      have hcounted := hregular.counted name stream hlookup
      refine ⟨stream.nextReadSeq, stream.nextByteOffset, ?_, hcounted.nextByteOffset, htail⟩
      rw [hcounted.nextReadSeq]
      exact Nat.mod_lt _ (by decide)
    · intro first second name offset file later cached current hregular hregular' hcontinues hcounted
        hcached hcurrent
      exact File.same_messages hregular hregular' hcontinues hcounted
        (Reply.read.inj hcached) (Reply.read.inj hcurrent)
  · refine Store.never_stale (fun storage => ∃ memory, Acid.Represents storage memory)
      (fun name storage later => ∃ memory memory', Acid.Represents storage memory ∧
        Acid.Represents later memory' ∧
        Continues Memory.Grows (memory.streams.lookup name) (memory'.streams.lookup name))
      ⟨_, .new acidConfig⟩ ?_ ?_ ?_ ?_ ?_
    · rintro - input storage hcount ⟨memory, h⟩
      obtain ⟨next, hnext, -⟩ := Acid.attempt_represents h hcount
      exact ⟨next, hnext⟩
    · rintro ⟨error, clock⟩ name offset storage
      cases error with
      | none => rfl
      | some error => exact Acid.abort_eq ⟨clock, .read name offset⟩ storage
    · rintro name inputs storage ⟨memory, h⟩ hcount hspares
      obtain ⟨memory', h', hcontinues⟩ := Acid.exec_represents h hcount hspares
      exact ⟨memory, memory', h, h', hcontinues⟩
    · rintro choice name offset storage result ⟨memory, h⟩ hread
      obtain ⟨stream, hlookup, -, htail, -⟩ := Memory.read_ok (Acid.read_ok h hread)
      rw [htail]
      exact h.invariant.tail_counts hlookup
    · rintro first second name offset storage later cached current - - ⟨memory, memory', h, h',
        hcontinues⟩ - hcached hcurrent
      exact Memory.same_messages h.invariant h'.invariant hcontinues (fun _ => h'.counts)
        (Acid.read_ok h hcached) (Acid.read_ok h' hcurrent)

/-- A stream with one message. -/
def firstStream : List (Clock × Op) :=
  [(.at 0, .createStream "s" .plain), (.at 1, .append "s" [1] "text/plain" (Size.fits .one))]

/-- The stream is deleted, and another one with a message of the same length takes its place. -/
def secondStream : List (Clock × Op) :=
  [(.at 3, .delete "s"), (.at 4, .createStream "s" .plain),
    (.at 5, .append "s" [2] "text/plain" (Size.fits .one))]

/-- A storage with one empty stream, and an append of an empty message to it. -/
def emptyStream : Memory.InMemoryStorage :=
  (Memory.step ⟨100, 50⟩ ⟨.at 0, .createStream "s" .plain⟩ .new).2

@[inherit_doc emptyStream]
def emptyAppend : Clock × Op := (.at 2, .append "s" [] "text/plain" (Size.fits .zero))

/-- A stream that has received some empty messages. -/
structure ReceivedEmpty (count : Nat) (storage : Memory.InMemoryStorage) : Prop where
  total : storage.totalBytes = 0
  entry : ∃ stream, storage.streams.lookup "s" = some stream ∧ stream.config = .plain ∧
    stream.closed = false ∧ stream.totalBytes = 0 ∧ stream.messages.length = count ∧
    stream.nextReadSeq = wrap64 count ∧ stream.nextByteOffset = 0

/-- One more empty message. -/
theorem ReceivedEmpty.append {count : Nat} {storage : Memory.InMemoryStorage}
    (h : ReceivedEmpty count storage) :
    ReceivedEmpty (count + 1) ((Memory.store ⟨100, 50⟩).run emptyAppend storage).2 := by
  obtain ⟨htotal, stream, hlookup, hconfig, hopen, hbytes, hlength, hseq, hoffset⟩ := h
  have hstep : ((Memory.store ⟨100, 50⟩).run emptyAppend storage).2 =
      ⟨storage.streams.insert "s" (stream.push []), 0⟩ := by
    have htype : validateContentType "text/plain" "text/plain" = .ok () := by decide +kernel
    have hreserve : Memory.reserveTotalBytes ⟨100, 50⟩ 0 0 = some 0 := by decide +kernel
    simp [Store.run, Memory.store, emptyAppend, Memory.step, Memory.withStream, hlookup,
      Memory.appendSection, hconfig, isStreamExpired, StreamConfig.plain, hopen, htype,
      Memory.reserveAndCommit, hreserve, htotal, hbytes, byteLen, wrap64]
  rw [hstep]
  refine ⟨rfl, stream.push [], Finmap.lookup_insert _, hconfig, hopen, ?_, ?_, ?_, ?_⟩
  · simp [Memory.StreamEntry.push, hbytes, byteLen, wrap64]
  · simp [Memory.StreamEntry.push, hlength]
  · simp [Memory.StreamEntry.push, hseq, wrap64]
  · simp [Memory.StreamEntry.push, hoffset, byteLen, wrap64]

/-- What is read then. -/
theorem ReceivedEmpty.read {count : Nat} {storage : Memory.InMemoryStorage}
    (h : ReceivedEmpty count storage) :
    ∃ messages, messages.length = count ∧
      ((Memory.store ⟨100, 50⟩).step (.at 6) (.read "s" .start) storage).1 =
        .read (.ok ⟨messages, Offset.new (wrap64 count) 0, true, false⟩) := by
  obtain ⟨-, stream, hlookup, hconfig, hopen, -, hlength, hseq, hoffset⟩ := h
  refine ⟨stream.messages.map Message.data, (List.length_map _).trans hlength, ?_⟩
  simp [Memory.store, Memory.step, Memory.readStream, hlookup, Memory.readSection, hconfig,
    isStreamExpired, StreamConfig.plain, Offset.isNow, Memory.startIndex, Offset.isStart, hopen,
    Memory.StreamEntry.nextOffset, hseq, hoffset]

/-- Any number of empty messages. -/
theorem received_empty (count : Nat) :
    ReceivedEmpty count
      (exec (Memory.store ⟨100, 50⟩).run (List.replicate count emptyAppend) emptyStream).2 := by
  induction count with
  | zero => exact ⟨by decide +kernel, .new 0 .plain, by decide +kernel, rfl, rfl, rfl, rfl, rfl, rfl⟩
  | succ count ih =>
      rw [List.replicate_succ', exec_concat]
      exact ih.append

/-- Two ways in which a 304 is stale. The client has the response with the first message, and another
stream of that name has a message of the same length. Or the client has the response of an empty
stream, and the number of messages has wrapped. -/
theorem not_modified_can_be_stale :
    let store := Memory.store ⟨100, 50⟩
    let stale (state : Memory.InMemoryStorage) (between : List (Clock × Op)) : Prop :=
      ∃ cached current : ReadResult,
        let later := (exec store.run between (store.step (.at 2) (.read "s" .start) state).2).2
        let response := catchUpResponse "-1" none "text/plain" cached
        (store.step (.at 2) (.read "s" .start) state).1 = .read (.ok cached) ∧
          (store.step (.at 6) (.read "s" .start) later).1 = .read (.ok current) ∧
          response.status = .ok ∧
          (catchUpResponse "-1" response.etag "text/plain" current).status = .notModified ∧
          ¬ Fresh response
            (buildDataResponse current "text/plain" (generateEtag "-1" current) none)
    stale (exec store.run firstStream .new).2 secondStream ∧
      stale emptyStream (List.replicate (2 ^ 64) emptyAppend) := by
  intro store stale
  constructor
  · exact ⟨⟨[[1]], Offset.new 1 1, true, false⟩, ⟨[[2]], Offset.new 1 1, true, false⟩,
      by decide +kernel⟩
  · obtain ⟨messages, hlength, hread⟩ := (received_empty (2 ^ 64)).read
    refine ⟨⟨[], Offset.new 0 0, true, false⟩, ⟨messages, Offset.new 0 0, true, false⟩,
      by decide +kernel, hread, by decide +kernel, rfl, fun hfresh => ?_⟩
    have hempty : messages = [] := hfresh.1
    rw [hempty] at hlength
    exact absurd hlength (by decide)

/-- A 304 while another stream is created and the one that was read stays as it is. -/
theorem not_modified_is_fresh_quiet :
    let cached : ReadResult := ⟨[[1]], Offset.new 1 1, true, false⟩
    let response := catchUpResponse "-1" none "text/plain" cached
    (catchUpResponse "-1" response.etag "text/plain" cached).status = .notModified ∧
      Fresh response (buildDataResponse cached "text/plain" (generateEtag "-1" cached) none) := by
  intro cached response
  have hnot : (catchUpResponse "-1" response.etag "text/plain" cached).status = .notModified := by
    decide +kernel
  refine ⟨hnot, (not_modified_is_fresh ⟨100, 50⟩ File.smallConfig Acid.crowded).1 "s" "-1" .start none
    "text/plain" "text/plain" firstStream [(.at 3, .createStream "t" .plain)] (.at 2) (.at 4) cached
    cached (by decide +kernel) (by decide +kernel) (by decide +kernel) (by decide +kernel)
    (by decide +kernel) (by decide +kernel) hnot⟩

end DurableStreams
