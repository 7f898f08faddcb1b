import DurableStreams.Storage.Memory.Invariant

/-!
# Resumable reads of the in-memory storage

A read of a well-formed entry is a read of its abstract log: `read_section_eq` says that it returns
the payloads from `Log.position` on and the tail of the log. Resuming from the returned offset then
continues exactly where the read stopped. `resumedReads` chains reads that way, with arbitrary runs
of other calls in between.
-/

namespace DurableStreams.Memory

open Lib

variable {stream : StreamEntry}

/-! ## One read -/

namespace WellFormed

/-- Message `index` has the offset the abstract log gives it. -/
theorem message_offset (h : WellFormed stream) {index : Nat}
    (hindex : index < stream.messages.length) :
    stream.messages[index].offset = Log.offsetAt stream.payloads index := by
  have hget := congrArg (·[index]?) h.offsets
  have hpayloads : index < stream.payloads.length := by
    rw [StreamEntry.payloads, List.length_map]
    exact hindex
  simpa [Log.offsets, hindex, hpayloads] using hget

/-- Offsets increase strictly, so a binary search by offset finds its way. -/
theorem partitioned (h : WellFormed stream) (hcount : stream.messages.length < 2 ^ 64)
    (readSeq byteOffset : Nat) (raw : List UInt8) :
    Partitioned (fun message => message.offset.cmp (.concrete readSeq byteOffset raw))
      stream.messages := by
  refine List.pairwise_iff_getElem.mpr fun first second hfirst hsecond horder hnot => ?_
  dsimp only at hnot ⊢
  rw [h.message_offset hfirst, Ne, Log.offset_at_cmp_lt_iff (by omega)] at hnot
  rw [h.message_offset hsecond, Log.offsetAt, Offset.cmp_new_gt_iff, wrap64_of_lt (by omega)]
  omega

/-- The binary search of a read finds the position of the offset in the abstract log. -/
theorem start_index (h : WellFormed stream) (hcount : stream.messages.length < 2 ^ 64)
    {offset : Offset} (hnow : offset ≠ .now) :
    startIndex stream offset = Log.position stream.payloads offset := by
  cases offset with
  | start => rfl
  | now => exact absurd rfl hnow
  | concrete readSeq byteOffset raw =>
      have hlength : stream.payloads.length = stream.messages.length := List.length_map ..
      obtain ⟨hcut, hbefore, hafter⟩ :=
        binary_search_by_cut (h.partitioned hcount readSeq byteOffset raw)
      refine (Log.count_range_of_cut (hlength ▸ hcut) ?_ ?_).symm
      · intro index hindex
        have hinside : index < stream.messages.length := Nat.lt_of_lt_of_le hindex hcut
        have hlt := hbefore index hinside hindex
        rw [h.message_offset hinside] at hlt
        exact decide_eq_true hlt
      · intro index hindex hle
        have hnot := hafter index (hlength ▸ hindex) hle
        rw [h.message_offset (hlength ▸ hindex)] at hnot
        exact decide_eq_false hnot

end WellFormed

/-- A read of a live stream reads its abstract log. -/
theorem read_section_eq {clock : Clock} (h : WellFormed stream)
    (hcount : stream.messages.length < 2 ^ 64)
    (hlive : isStreamExpired clock.expiry stream.config = false) (offset : Offset) :
    readSection clock offset stream =
      .ok ⟨stream.payloads.drop (Log.position stream.payloads offset), Log.tail stream.payloads,
        true, stream.closed⟩ := by
  simp only [readSection, hlive, Bool.false_eq_true, ↓reduceIte, ← h.next_offset]
  by_cases hnow : offset = .now
  · subst hnow
    simp [Offset.isNow, Log.position]
  · have hisNow : offset.isNow = false := by cases offset <;> simp_all [Offset.isNow]
    have hle : Log.position stream.payloads offset ≤ stream.messages.length :=
      (Log.position_le _ _).trans_eq (List.length_map ..)
    simp only [hisNow, Bool.false_eq_true, ↓reduceIte, h.start_index hcount hnow,
      StreamEntry.payloads, List.map_drop, List.length_drop, List.length_map]
    rw [decide_eq_true (by rw [StreamEntry.payloads] at hle; omega)]

/-- The messages from a position on are those that do not precede the offset. -/
theorem drop_position_eq_filter (h : WellFormed stream) (hcount : stream.messages.length < 2 ^ 64)
    {offset : Offset} (hnow : offset ≠ .now) :
    stream.payloads.drop (Log.position stream.payloads offset) =
      (stream.messages.filter fun message => message.offset.cmp offset ≠ .lt).map Message.data := by
  rw [← h.start_index hcount hnow, StreamEntry.payloads, ← List.map_drop]
  congr 1
  cases offset with
  | start =>
      refine (List.filter_eq_self.mpr fun message hmessage => ?_).symm
      obtain ⟨index, hindex, rfl⟩ := List.mem_iff_getElem.mp (List.mem_of_mem_drop hmessage)
      simp [h.message_offset hindex, Log.offsetAt, Offset.cmp_new_start]
  | now => exact absurd rfl hnow
  | concrete readSeq byteOffset raw => exact drop_index_eq_filter (h.partitioned hcount _ _ _)

/-- The log of an entry as clients see it: every message has its number and the bytes before it as
offset, and the counters describe the tail. -/
structure ExactLog (stream : StreamEntry) : Prop where
  offset : ∀ (index : Nat) (h : index < stream.messages.length),
    stream.messages[index].offset = Offset.new index (payloadBytes (stream.payloads.take index))
  increasing : stream.messages.Pairwise fun first second => first.offset.cmp second.offset = .lt
  nextReadSeq : stream.nextReadSeq = stream.messages.length
  nextByteOffset : stream.nextByteOffset = payloadBytes stream.payloads
  totalBytes : stream.totalBytes = payloadBytes stream.payloads

/-- Below `2 ^ 64` messages a well-formed log is exact. -/
theorem WellFormed.exactLog (h : WellFormed stream) (hcount : stream.messages.length < 2 ^ 64) :
    ExactLog stream where
  offset := fun index hindex => by
    rw [h.message_offset hindex, Log.offsetAt, wrap64_of_lt (by omega)]
  increasing := by
    refine List.pairwise_iff_getElem.mpr fun first second hfirst hsecond horder => ?_
    rw [h.message_offset hfirst, h.message_offset hsecond]
    exact Log.offset_at_lt (by omega) horder
  nextReadSeq := by rw [h.nextReadSeq, wrap64_of_lt hcount]
  nextByteOffset := h.nextByteOffset
  totalBytes := h.totalBytes

/-! ## Resumed reads -/

/-- Read from an offset, let other calls run, read on from the returned offset, and so on. Each
round is the calls before a further read and the clock of that read. -/
def resumedReads (limits : Limits) (name : String) :
    Offset → Clock → List (List Call × Clock) → InMemoryStorage → Result (List Bytes)
  | offset, clock, [], storage =>
      (readStream storage name (readSection clock offset)).map ReadResult.messages
  | offset, clock, (calls, next) :: rounds, storage => do
      let result ← readStream storage name (readSection clock offset)
      let later ← resumedReads limits name result.nextOffset next rounds
        (exec (step limits) calls storage).2
      return result.messages ++ later

section Resumed

variable {limits : Limits} {storage : InMemoryStorage} {name : String}

/-- A read through the storage reads the abstract log of the stream. -/
theorem read_stream_eq {clock : Clock} (h : Invariant limits storage)
    (hlookup : storage.streams.lookup name = some stream)
    (hcount : stream.messages.length < 2 ^ 64)
    (hlive : isStreamExpired clock.expiry stream.config = false) (offset : Offset) :
    readStream storage name (readSection clock offset) =
      .ok ⟨stream.payloads.drop (Log.position stream.payloads offset), Log.tail stream.payloads,
        true, stream.closed⟩ := by
  rw [readStream, hlookup]
  exact read_section_eq (h.wellFormed hlookup) hcount hlive offset

/-- A read followed by a read of the rest of the log is one read of the grown log. -/
theorem drop_append_resumed {payloads more : List Bytes} {offset : Offset}
    (hlength : (payloads ++ more).length < 2 ^ 64)
    (htail : (Log.tail payloads).cmp offset ≠ .lt) :
    payloads.drop (Log.position payloads offset) ++
        (payloads ++ more).drop (Log.position (payloads ++ more) (Log.tail payloads)) =
      (payloads ++ more).drop (Log.position (payloads ++ more) offset) := by
  rw [Log.drop_position_tail hlength, Log.position_append hlength htail,
    List.drop_append_of_le_length (Log.position_le _ _)]

/-- Successive resumed reads from an offset that is not past the tail return together what one
read from that offset returns at the end. -/
theorem resumed_reads_eq {rounds : List (List Call × Clock)} {offset : Offset} {clock : Clock}
    {final : StreamEntry} (h : Invariant limits storage)
    (hlookup : storage.streams.lookup name = some stream)
    (hspares : ∀ round ∈ rounds, ∀ call ∈ round.1, Spares name stream.config call)
    (hlive : isStreamExpired clock.expiry stream.config = false)
    (hrounds : ∀ round ∈ rounds, isStreamExpired round.2.expiry stream.config = false)
    (hfinal : (exec (step limits) (rounds.flatMap Prod.fst) storage).2.streams.lookup name =
      some final)
    (hcount : final.messages.length < 2 ^ 64)
    (htail : (Log.tail stream.payloads).cmp offset ≠ .lt) :
    resumedReads limits name offset clock rounds storage =
      .ok (final.payloads.drop (Log.position final.payloads offset)) := by
  induction rounds generalizing storage stream offset clock with
  | nil =>
      obtain rfl : stream = final := Option.some.inj (hlookup.symm.trans hfinal)
      rw [resumedReads, read_stream_eq h hlookup hcount hlive]
      rfl
  | cons round rounds ih =>
      obtain ⟨calls, next⟩ := round
      rw [List.flatMap_cons, exec_append] at hfinal
      obtain ⟨middle, hmiddle, hconfig, hadded⟩ :=
        exec_spares h hlookup (hspares (calls, next) (by simp))
      dsimp only at hmiddle hadded
      have hinvariant := exec_keeps_invariant calls h
      have hrest : ∀ call ∈ rounds.flatMap Prod.fst, Spares name middle.config call := by
        intro call hcall
        obtain ⟨other, hother, hcall⟩ := List.mem_flatMap.mp hcall
        exact hconfig ▸ hspares other (by simp [hother]) call hcall
      obtain ⟨last, hlast, -, hmore⟩ := exec_spares hinvariant hmiddle hrest
      obtain rfl : last = final := Option.some.inj (hlast.symm.trans hfinal)
      -- The logs seen by the two reads and at the end extend one another.
      rw [hadded] at hmore
      have hlength : last.payloads.length < 2 ^ 64 := by
        rw [StreamEntry.payloads, List.length_map]
        exact hcount
      have hlengths := congrArg List.length hmore
      simp only [List.length_append] at hlengths
      have hmiddleTail : (Log.tail middle.payloads).cmp (Log.tail stream.payloads) ≠ .lt := by
        have htailEq : Log.tail stream.payloads =
            Log.offsetAt middle.payloads stream.payloads.length := by
          rw [hadded, Log.offset_at_append (Nat.le_refl _), Log.tail]
        rw [htailEq, Log.tail]
        refine Log.offset_at_not_lt ?_ ?_ <;> rw [hadded, List.length_append] <;> omega
      have hlater := ih hinvariant hmiddle
        (fun other hother => hconfig ▸ hspares other (by simp [hother]))
        (hconfig ▸ hrounds (calls, next) (by simp))
        (fun other hother => hconfig ▸ hrounds other (by simp [hother])) hfinal hmiddleTail
      have hstreamCount : stream.messages.length < 2 ^ 64 := by
        have : stream.payloads.length = stream.messages.length := List.length_map ..
        omega
      rw [resumedReads, read_stream_eq h hlookup hstreamCount hlive]
      simp only [hlater, bind, Except.bind, pure, Except.pure, Except.ok.injEq]
      rw [hmore, List.append_assoc] at hlength ⊢
      exact drop_append_resumed hlength htail

/-- Reading on from the tail a read returned gives exactly what was appended in between. -/
theorem read_from_tail {calls : List Call} {clock : Clock} {later : StreamEntry}
    (h : Invariant limits storage) (hlookup : storage.streams.lookup name = some stream)
    (hspares : ∀ call ∈ calls, Spares name stream.config call)
    (hlive : isStreamExpired clock.expiry stream.config = false)
    (hlater : (exec (step limits) calls storage).2.streams.lookup name = some later)
    (hcount : later.messages.length < 2 ^ 64) :
    readStream (exec (step limits) calls storage).2 name
        (readSection clock (Log.tail stream.payloads)) =
      .ok ⟨appendedTo name calls (exec (step limits) calls storage).1, Log.tail later.payloads,
        true, later.closed⟩ := by
  obtain ⟨after, hafter, hconfig, hadded⟩ := exec_spares h hlookup hspares
  obtain rfl : after = later := Option.some.inj (hafter.symm.trans hlater)
  have hlength : after.payloads.length < 2 ^ 64 := by
    rw [StreamEntry.payloads, List.length_map]
    exact hcount
  rw [read_stream_eq (exec_keeps_invariant calls h) hlater hcount (hconfig ▸ hlive)]
  rw [hadded] at hlength ⊢
  rw [Log.drop_position_tail hlength]

end Resumed

/-- The log invariant and resumable reads, in every reachable storage. -/
theorem log_invariant_and_resumable_reads (limits : Limits) (calls : List Call) (name : String)
    (stream : StreamEntry)
    (hlookup : (exec (step limits) calls .new).2.streams.lookup name = some stream)
    (hcount : stream.messages.length < 2 ^ 64) :
    let storage := (exec (step limits) calls .new).2
    ExactLog stream ∧
    -- One read, from the start or any concrete offset.
    (∀ clock offset, isStreamExpired clock.expiry stream.config = false → offset ≠ .now →
      ∃ result, readStream storage name (readSection clock offset) = .ok result ∧
        result.messages =
          (stream.messages.filter fun message => message.offset.cmp offset ≠ .lt).map
            Message.data ∧
        ∀ message ∈ stream.messages, message.offset.cmp result.nextOffset = .lt) ∧
    -- A second read from the returned offset, after a run that spares the stream.
    (∀ more clock clock' offset result, (∀ call ∈ more, Spares name stream.config call) →
      isStreamExpired clock.expiry stream.config = false →
      isStreamExpired clock'.expiry stream.config = false →
      readStream storage name (readSection clock offset) = .ok result →
      ∃ later, (exec (step limits) more storage).2.streams.lookup name = some later ∧
        (later.messages.length < 2 ^ 64 →
          ∃ result', readStream (exec (step limits) more storage).2 name
              (readSection clock' result.nextOffset) = .ok result' ∧
            result'.messages = appendedTo name more (exec (step limits) more storage).1)) ∧
    -- Any number of resumed reads, from an offset that is not past the tail.
    (∀ rounds offset clock clock',
      (∀ round ∈ rounds, ∀ call ∈ round.1, Spares name stream.config call) →
      isStreamExpired clock.expiry stream.config = false →
      (∀ round ∈ rounds, isStreamExpired round.2.expiry stream.config = false) →
      isStreamExpired clock'.expiry stream.config = false →
      stream.nextOffset.cmp offset ≠ .lt →
      let last := (exec (step limits) (rounds.flatMap Prod.fst) storage).2
      ∃ final, last.streams.lookup name = some final ∧
        (final.messages.length < 2 ^ 64 →
          ∃ result, readStream last name (readSection clock' offset) = .ok result ∧
            resumedReads limits name offset clock rounds storage = .ok result.messages)) := by
  intro storage
  have h : Invariant limits storage := reachable_invariant limits calls
  have hwellFormed : WellFormed stream := h.wellFormed hlookup
  have hexact := hwellFormed.exactLog hcount
  refine ⟨hexact, ?_, ?_, ?_⟩
  · intro clock offset hlive hnow
    refine ⟨_, read_stream_eq h hlookup hcount hlive offset,
      drop_position_eq_filter hwellFormed hcount hnow, ?_⟩
    intro message hmessage
    obtain ⟨index, hindex, rfl⟩ := List.mem_iff_getElem.mp hmessage
    rw [hwellFormed.message_offset hindex, Log.tail, StreamEntry.payloads, List.length_map]
    exact Log.offset_at_lt hcount hindex
  · intro more clock clock' offset result hspares hlive hlive' hread
    rw [read_stream_eq h hlookup hcount hlive] at hread
    cases hread
    obtain ⟨later, hlater, -, -⟩ := exec_spares h hlookup hspares
    exact ⟨later, hlater, fun hlaterCount =>
      ⟨_, read_from_tail h hlookup hspares hlive' hlater hlaterCount, rfl⟩⟩
  · intro rounds offset clock clock' hspares hlive hrounds hlive' htail last
    have hall : ∀ call ∈ rounds.flatMap Prod.fst, Spares name stream.config call := by
      intro call hcall
      obtain ⟨round, hround, hcall⟩ := List.mem_flatMap.mp hcall
      exact hspares round hround call hcall
    obtain ⟨final, hfinal, hconfig, -⟩ := exec_spares h hlookup hall
    rw [hwellFormed.next_offset] at htail
    exact ⟨final, hfinal, fun hfinalCount =>
      ⟨_, read_stream_eq (exec_keeps_invariant _ h) hfinal hfinalCount (hconfig ▸ hlive') offset,
        resumed_reads_eq h hlookup hspares hlive hrounds hfinal hfinalCount htail⟩⟩

/-- The results at work on a stream with three messages: a read from the second one, and one that
resumes where it ended after a further append. -/
theorem log_invariant_after_appends :
    let limits : Limits := ⟨100, 100⟩
    let calls : List Call := [⟨.at 0, .createStream "s" .plain⟩,
      ⟨.at 0, .batchAppend "s" [[65], [66, 67]] "text/plain" none (by decide)⟩,
      ⟨.at 0, .append "s" [68] "text/plain" (by decide)⟩]
    let more : List Call := [⟨.at 1, .append "s" [69] "text/plain" (by decide)⟩]
    let storage := (exec (step limits) calls .new).2
    ExactLog (((StreamEntry.new 0 .plain).store [[65], [66, 67]]).push [68]) ∧
      readStream storage "s" (readSection (.at 0) (Offset.new 1 1)) =
        .ok ⟨[[66, 67], [68]], Offset.new 3 4, true, false⟩ ∧
      ∃ result, readStream (exec (step limits) more storage).2 "s"
        (readSection (.at 1) (Offset.new 3 4)) = .ok result ∧ result.messages = [[69]] := by
  intro limits calls more storage
  obtain ⟨hexact, -, hresume, -⟩ := log_invariant_and_resumable_reads limits calls "s"
    (((StreamEntry.new 0 .plain).store [[65], [66, 67]]).push [68]) (by decide) (by decide)
  have hread : readStream storage "s" (readSection (.at 0) (Offset.new 1 1)) =
      .ok ⟨[[66, 67], [68]], Offset.new 3 4, true, false⟩ := by decide
  have hspares (call : Call) (hcall : call ∈ more) : Spares "s"
      (((StreamEntry.new 0 .plain).store [[65], [66, 67]]).push [68]).config call := by
    obtain rfl := List.mem_singleton.mp hcall
    exact fun _ => ⟨nofun, by decide⟩
  obtain ⟨later, hlater, hresumed⟩ := hresume more (.at 0) (.at 1) _ _ hspares (by decide)
    (by decide) hread
  obtain ⟨result, hresult, hmessages⟩ := hresumed (by
    obtain rfl := Option.some.inj (hlater.symm.trans (show _ = some
      ((((StreamEntry.new 0 .plain).store [[65], [66, 67]]).push [68]).push [69]) by decide))
    decide)
  exact ⟨hexact, hread, result, hresult, hmessages.trans (by decide)⟩

/-- From a forged offset past the tail, resumed reads return a message that one read from that
offset does not. -/
theorem resumed_reads_past_tail_differ :
    let limits : Limits := ⟨100, 100⟩
    let storage := (exec (step limits) [⟨.at 0, .createStream "s" .plain⟩] .new).2
    let more : List Call := [⟨.at 0, .append "s" [65] "text/plain" (by decide)⟩]
    resumedReads limits "s" (Offset.new 1 0) (.at 0) [(more, .at 0)] storage = .ok [[65]] ∧
      (readStream (exec (step limits) more storage).2 "s"
        (readSection (.at 0) (Offset.new 1 0))).map ReadResult.messages = .ok [] := by
  decide

end DurableStreams.Memory
