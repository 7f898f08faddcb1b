import DurableStreams.Protocol.Cursor
import DurableStreams.Storage.Memory.Invariant

/-!
# Cursors of positions

A cursor packs the position of a stream into one number, with 27 bits for the byte offset. Positions
that a stream can get to under its byte limit have to keep their order in that, and the number has to
be one that JavaScript represents exactly. Without empty messages there are at most as many messages
as bytes, so this is the case for every limit below `2 ^ 26` bytes, and for no other
(`packing_faithful_iff`).
-/

namespace DurableStreams.Memory

open Lib Cursor

/-- A stream without empty messages stands at a position. -/
def StandsAt (storage : InMemoryStorage) (name : String) (position : Nat × Nat) : Prop :=
  ∃ stream, storage.streams.lookup name = some stream ∧ (∀ data ∈ stream.payloads, data ≠ []) ∧
    stream.nextOffset.parseComponents = some position

/-- A stream can get to a position under a byte limit. -/
def Reaches (maxStreamBytes : UInt64) (position : Nat × Nat) : Prop :=
  ∃ limits calls name, limits.maxStreamBytes = maxStreamBytes ∧
    StandsAt (exec (step limits) calls .new).2 name position

/-- A stream can get to one position and later to another under a byte limit. -/
def Passes (maxStreamBytes : UInt64) (first second : Nat × Nat) : Prop :=
  ∃ limits calls later name, limits.maxStreamBytes = maxStreamBytes ∧
    StandsAt (exec (step limits) calls .new).2 name first ∧
    StandsAt (exec (step limits) (calls ++ later) .new).2 name second

/-- The order of positions. -/
def Before (first second : Nat × Nat) : Prop :=
  first.1 < second.1 ∨ first.1 = second.1 ∧ first.2 < second.2

/-- The value of a position in a cursor. -/
def packed (position : Nat × Nat) : Nat := offsetValue position.1 position.2

/-- The packing keeps the order of these pairs of positions, and JavaScript represents the values. -/
def FaithfulOn (pairs : Nat × Nat → Nat × Nat → Prop) : Prop :=
  ∀ first second, pairs first second → Before first second →
    packed first < packed second ∧ packed second < 2 ^ 53

/-! ## Small streams -/

/-- A position within the reserved bits is packed without loss. -/
theorem packed_eq {position : Nat × Nat} (hseq : position.1 < 2 ^ 26) (hbyte : position.2 < 2 ^ 27) :
    packed position = position.1 * 2 ^ 27 + position.2 := by
  have hwrap : wrap64 (position.1 <<< 27) = position.1 <<< 27 := by
    rw [Nat.shiftLeft_eq]
    exact wrap64_of_lt (by omega)
  rw [packed, offsetValue, byteOffsetBits, hwrap, ← Nat.shiftLeft_add_eq_or_of_lt hbyte,
    Nat.shiftLeft_eq]

/-- There are at most as many messages as bytes, and at most as many bytes as the limit says. -/
theorem Reaches.bounds {maxStreamBytes : UInt64} {position : Nat × Nat}
    (h : Reaches maxStreamBytes position) :
    position.1 ≤ position.2 ∧ position.2 ≤ maxStreamBytes.toNat := by
  obtain ⟨limits, calls, name, rfl, stream, hlookup, hnonempty, hposition⟩ := h
  have hinvariant := reachable_invariant limits calls
  have hstream := hinvariant.wellFormed hlookup
  have hlimit := hinvariant.streamLimit hlookup
  obtain rfl : (stream.nextReadSeq, stream.nextByteOffset) = position := Option.some.inj hposition
  have hcount := length_le_payload_bytes hnonempty
  have hlength : stream.payloads.length = stream.messages.length := by
    rw [StreamEntry.payloads, List.length_map]
  have hseq : stream.nextReadSeq ≤ stream.messages.length := by
    rw [hstream.nextReadSeq]
    exact Nat.mod_le ..
  rw [hstream.totalBytes] at hlimit
  dsimp only
  rw [hstream.nextByteOffset]
  omega

/-- Below `2 ^ 26` bytes the packing is faithful. -/
theorem faithful_of_lt {maxStreamBytes : UInt64} (h : maxStreamBytes.toNat < 2 ^ 26) :
    FaithfulOn fun first second => Reaches maxStreamBytes first ∧ Reaches maxStreamBytes second := by
  rintro first second ⟨hfirst, hsecond⟩ hbefore
  have hfirst := hfirst.bounds
  have hsecond := hsecond.bounds
  rw [packed_eq (by omega) (by omega), packed_eq (by omega) (by omega)]
  unfold Before at hbefore
  omega

/-! ## Large streams -/

/-- An entry that is still open. -/
theorem foldl_push_closed (stream : StreamEntry) (messages : List Bytes) :
    (messages.foldl StreamEntry.push stream).closed = stream.closed := by
  induction messages generalizing stream with
  | nil => rfl
  | cons data messages ih => exact ih (stream.push data)

/-- A stream that does not expire. -/
def plainConfig : StreamConfig := ⟨"text/plain", none, none, false⟩

/-- A stream limit, and a global limit that does not matter. -/
def streamLimit (maxStreamBytes : UInt64) : Limits := ⟨18446744073709551615, maxStreamBytes⟩

theorem stream_limit_total (maxStreamBytes : UInt64) :
    (streamLimit maxStreamBytes).maxTotalBytes.toNat = 2 ^ 64 - 1 :=
  show (18446744073709551615 : UInt64).toNat = 2 ^ 64 - 1 by decide

section Large

variable {maxStreamBytes : UInt64} {messages : List Bytes} {data : Bytes}

/-- The entry of a stream that was created with messages. -/
def createdWith (messages : List Bytes) : StreamEntry :=
  (messages.foldl StreamEntry.push (.new 0 plainConfig)).notifyAll

/-- Creating a stream with messages that fit. -/
theorem create_fits (hmessages : messages ≠ [])
    (hlimit : payloadBytes messages ≤ maxStreamBytes.toNat) (fits : payloadBytes messages < 2 ^ 64) :
    (step (streamLimit maxStreamBytes)
        ⟨.at 0, .createStreamWithData "s" plainConfig messages false fits⟩ .new).2 =
      ⟨(∅ : HashMap StreamEntry).insert "s" (createdWith messages), payloadBytes messages⟩ := by
  have hreserve : reserveTotalBytes (streamLimit maxStreamBytes) 0 (batchBytes messages) =
      some (payloadBytes messages) := by
    rw [batch_bytes_eq fits, reserve_eq_some_iff, Nat.zero_add, stream_limit_total]
    exact ⟨rfl, by omega⟩
  have hroom : ¬ (streamLimit maxStreamBytes).maxStreamBytes.toNat <
      wrap64 ((StreamEntry.new 0 plainConfig).totalBytes + batchBytes messages) := by
    rw [batch_bytes_eq fits, StreamEntry.new, Nat.zero_add, wrap64_of_lt fits]
    exact Nat.not_lt.mpr hlimit
  have hcommit : commitMessages (streamLimit maxStreamBytes) 0 (.new 0 plainConfig) messages =
      (.ok (), payloadBytes messages, createdWith messages) := by
    rw [commitMessages, if_neg (by simpa using hmessages), reserveAndCommit, hreserve]
    dsimp only
    rw [if_neg hroom]
    rfl
  have hclaim : claimName (.at 0) .new "s" = .vacant .new := rfl
  have hcreate : createStreamWithData (streamLimit maxStreamBytes) (.at 0) .new "s" plainConfig
        messages false =
      (.ok ⟨.created, (createdWith messages).nextOffset, (createdWith messages).closed⟩,
        ⟨(∅ : HashMap StreamEntry).insert "s" (createdWith messages), payloadBytes messages⟩) := by
    rw [createStreamWithData, hclaim]
    dsimp only
    have hnew : commitMessages (streamLimit maxStreamBytes) InMemoryStorage.new.totalBytes
        (.new (Clock.at 0).stamp plainConfig) messages =
          (.ok (), payloadBytes messages, createdWith messages) := hcommit
    rw [hnew]
    rfl
  rw [step]
  dsimp only
  rw [hcreate]
  rfl

/-- What is in that entry. -/
theorem created_with_payloads (messages : List Bytes) :
    (createdWith messages).payloads = messages := by
  have hpush := payloads_foldl_push (.new 0 plainConfig) messages
  exact hpush

/-- Appending a message that fits. -/
theorem append_fits (hlimit : payloadBytes messages + data.length ≤ maxStreamBytes.toNat)
    (fits : data.length < 2 ^ 64) :
    (step (streamLimit maxStreamBytes) ⟨.at 0, .append "s" data "text/plain" fits⟩
        ⟨(∅ : HashMap StreamEntry).insert "s" (createdWith messages),
          payloadBytes messages⟩).2.streams.lookup "s" =
      some ((createdWith messages).push data) := by
  have hmax := maxStreamBytes.toNat_lt
  have hwell : WellFormed (createdWith messages) := by
    have hnew : WellFormed (messages.foldl StreamEntry.push (.new 0 plainConfig)) :=
      (WellFormed.new 0 plainConfig).foldl_push (by
        rw [StreamEntry.new, Nat.zero_add]
        omega)
    exact ⟨hnew.offsets, hnew.byteLens, hnew.nextReadSeq, hnew.nextByteOffset, hnew.totalBytes⟩
  have htotal : (createdWith messages).totalBytes = payloadBytes messages := by
    rw [hwell.totalBytes, created_with_payloads]
  have hconfig : (createdWith messages).config = plainConfig :=
    (foldl_push_config (.new 0 plainConfig) messages).1
  have hopen : (createdWith messages).closed = false :=
    foldl_push_closed (.new 0 plainConfig) messages
  have hreserve : reserveTotalBytes (streamLimit maxStreamBytes) (payloadBytes messages)
      (byteLen data) = some (payloadBytes messages + data.length) := by
    rw [byte_len_of_lt fits, reserve_eq_some_iff, stream_limit_total]
    exact ⟨rfl, by omega⟩
  have hroom : ¬ (streamLimit maxStreamBytes).maxStreamBytes.toNat <
      wrap64 ((createdWith messages).totalBytes + byteLen data) := by
    rw [htotal, byte_len_of_lt fits, wrap64_of_lt (Nat.lt_of_le_of_lt hlimit hmax)]
    exact Nat.not_lt.mpr hlimit
  have hsection : appendSection (streamLimit maxStreamBytes) (.at 0) data "text/plain"
      (payloadBytes messages) (createdWith messages) =
        (.ok (createdWith messages).nextOffset, payloadBytes messages + data.length,
          (createdWith messages).push data) := by
    have hexpired : isStreamExpired (Clock.at 0).expiry plainConfig = false := rfl
    have htype : validateContentType plainConfig.contentType "text/plain" = .ok () := by decide
    rw [appendSection, hconfig, hexpired, hopen, htype]
    simp only [Bool.false_eq_true, ↓reduceIte]
    rw [reserveAndCommit, hreserve]
    dsimp only
    rw [if_neg hroom]
  rw [step]
  dsimp only
  rw [withStream, Finmap.lookup_insert]
  dsimp only
  rw [hsection]
  exact Finmap.lookup_insert _

/-- The position of a stream is given by its messages. -/
theorem stands_at {storage : InMemoryStorage} {stream : StreamEntry} {name : String}
    (hlookup : storage.streams.lookup name = some stream) (hstream : WellFormed stream)
    (hpayloads : stream.payloads = messages) (hnonempty : ∀ other ∈ messages, other ≠ [])
    (hfits : payloadBytes messages < 2 ^ 64) :
    StandsAt storage name (messages.length, payloadBytes messages) := by
  have hcount := length_le_payload_bytes hnonempty
  have hlength : stream.messages.length = messages.length := by
    rw [← hpayloads, StreamEntry.payloads, List.length_map]
  refine ⟨stream, hlookup, by rwa [hpayloads], ?_⟩
  have hseq : stream.nextReadSeq = messages.length := by
    rw [hstream.nextReadSeq, hlength, wrap64_of_lt (by omega)]
  rw [StreamEntry.nextOffset, hseq, hstream.nextByteOffset, hpayloads]
  rfl

/-- A stream can pass from the position behind some messages to the one behind one more. -/
theorem passes_append (hmessages : messages ≠ []) (hnonempty : ∀ other ∈ messages, other ≠ [])
    (hdata : data ≠ []) (hlimit : payloadBytes messages + data.length ≤ maxStreamBytes.toNat) :
    Passes maxStreamBytes (messages.length, payloadBytes messages)
      (messages.length + 1, payloadBytes messages + data.length) := by
  have hmax := maxStreamBytes.toNat_lt
  have fits : payloadBytes messages < 2 ^ 64 := by omega
  have fits' : data.length < 2 ^ 64 := by omega
  have hcreate := create_fits hmessages (by omega : payloadBytes messages ≤ maxStreamBytes.toNat) fits
  have hwell (calls : List Call) {stream : StreamEntry}
      (hlookup : (exec (step (streamLimit maxStreamBytes)) calls .new).2.streams.lookup "s" =
        some stream) : WellFormed stream :=
    (reachable_invariant (streamLimit maxStreamBytes) calls).wellFormed hlookup
  refine ⟨streamLimit maxStreamBytes,
    [⟨.at 0, .createStreamWithData "s" plainConfig messages false fits⟩],
    [⟨.at 0, .append "s" data "text/plain" fits'⟩], "s", rfl, ?_, ?_⟩
  · have hlookup : (exec (step (streamLimit maxStreamBytes))
        [⟨.at 0, .createStreamWithData "s" plainConfig messages false fits⟩]
          .new).2.streams.lookup "s" = some (createdWith messages) := by
      rw [exec_cons, hcreate]
      exact Finmap.lookup_insert _
    exact stands_at hlookup (hwell _ hlookup) (created_with_payloads messages) hnonempty fits
  · have hlookup : (exec (step (streamLimit maxStreamBytes))
        ([⟨.at 0, .createStreamWithData "s" plainConfig messages false fits⟩] ++
          [⟨.at 0, .append "s" data "text/plain" fits'⟩])
          .new).2.streams.lookup "s" = some ((createdWith messages).push data) := by
      rw [exec_append, exec_cons, hcreate]
      exact append_fits hlimit fits'
    have hstands := stands_at hlookup (hwell _ hlookup) rfl (by
        rw [payloads_push, created_with_payloads]
        intro other hother
        rcases List.mem_append.mp hother with hother | hother
        · exact hnonempty other hother
        · obtain rfl := List.mem_singleton.mp hother
          exact hdata) (by
        rw [payloads_push, created_with_payloads, payload_bytes_append, payload_bytes_cons]
        simp only [payloadBytes, List.map_nil, List.sum_nil] at hlimit ⊢
        omega)
    simpa [created_with_payloads, payloadBytes] using hstands

/-- Every stream that passes two positions can get to both. -/
theorem Passes.reaches {first second : Nat × Nat} (h : Passes maxStreamBytes first second) :
    Reaches maxStreamBytes first ∧ Reaches maxStreamBytes second := by
  obtain ⟨limits, calls, later, name, hlimits, hfirst, hsecond⟩ := h
  exact ⟨⟨limits, calls, name, hlimits, hfirst⟩, limits, calls ++ later, name, hlimits, hsecond⟩

end Large

/-- Messages of one byte, and one more. -/
theorem passes_single_bytes {maxStreamBytes : UInt64} {count : Nat} (hcount : count ≠ 0)
    (hlimit : count + 1 ≤ maxStreamBytes.toNat) :
    Passes maxStreamBytes (count, count) (count + 1, count + 1) := by
  have hbytes : payloadBytes (List.replicate count [1]) = count := by
    rw [payloadBytes, List.map_replicate, List.sum_replicate_nat, List.length_singleton, Nat.mul_one]
  have hpasses := @passes_append maxStreamBytes (List.replicate count [1]) [1]
    (by rwa [ne_eq, List.replicate_eq_nil_iff])
    (fun other hother => by rw [List.eq_of_mem_replicate hother]; decide) (by decide)
    (by rwa [hbytes])
  rwa [hbytes, List.length_replicate] at hpasses

/-- A long message, one of one byte, and another one of one byte. -/
theorem passes_long_message {maxStreamBytes : UInt64} {count : Nat} (hcount : count ≠ 0)
    (hlimit : count + 2 ≤ maxStreamBytes.toNat) :
    Passes maxStreamBytes (2, count + 1) (3, count + 2) := by
  have hbytes : payloadBytes [List.replicate count 1, [1]] = count + 1 := by
    rw [payload_bytes_cons, payload_bytes_cons, List.length_replicate]
    rfl
  have hnonempty : ∀ other ∈ [List.replicate count (1 : UInt8), [1]], other ≠ [] := by
    intro other hother
    rcases List.mem_cons.mp hother with rfl | hother
    · rwa [ne_eq, List.replicate_eq_nil_iff]
    · rw [List.mem_singleton.mp hother]
      decide
  have hpasses := @passes_append maxStreamBytes _ [1] (List.cons_ne_nil _ _) hnonempty (by decide)
    (by rwa [hbytes])
  rwa [hbytes] at hpasses

/-- A stream of `2 ^ 26` messages of one byte has left the integers of JavaScript. -/
theorem passes_safe_integers {maxStreamBytes : UInt64} (h : 2 ^ 26 ≤ maxStreamBytes.toNat) :
    Passes maxStreamBytes (2 ^ 26 - 1, 2 ^ 26 - 1) (2 ^ 26, 2 ^ 26) ∧
      2 ^ 53 ≤ packed (2 ^ 26, 2 ^ 26) :=
  ⟨@passes_single_bytes maxStreamBytes (2 ^ 26 - 1) (by decide) h, by decide⟩

/-- For which limits the packing is faithful, whether the two positions are those of one stream or
not. -/
theorem packing_faithful_iff (maxStreamBytes : UInt64) :
    (FaithfulOn (fun first second => Reaches maxStreamBytes first ∧ Reaches maxStreamBytes second) ↔
      maxStreamBytes.toNat < 2 ^ 26) ∧
    (FaithfulOn (Passes maxStreamBytes) ↔ maxStreamBytes.toNat < 2 ^ 26) := by
  have hfails (pairs : Nat × Nat → Nat × Nat → Prop)
      (hpairs : ∀ first second, Passes maxStreamBytes first second → pairs first second)
      (hfaithful : FaithfulOn pairs) : maxStreamBytes.toNat < 2 ^ 26 := by
    by_contra hlarge
    obtain ⟨hpasses, hpacked⟩ := passes_safe_integers (Nat.le_of_not_lt hlarge)
    have hrange := (hfaithful _ _ (hpairs _ _ hpasses) (.inl (by decide))).2
    exact absurd hrange (Nat.not_lt.mpr hpacked)
  refine ⟨⟨hfails _ fun first second h => h.reaches, faithful_of_lt⟩,
    hfails _ fun first second h => h, fun h first second hpasses => ?_⟩
  exact faithful_of_lt h first second hpasses.reaches

/-- Under the limit of the production profile, the value goes down when a stream with two messages of
`2 ^ 28 - 1` bytes gets one more byte, and it can leave the integers of JavaScript. -/
theorem production_packing_fails :
    (Passes 268435456 (2, 2 ^ 28 - 1) (3, 2 ^ 28) ∧ packed (3, 2 ^ 28) < packed (2, 2 ^ 28 - 1)) ∧
      Passes 268435456 (2 ^ 26 - 1, 2 ^ 26 - 1) (2 ^ 26, 2 ^ 26) ∧
      2 ^ 53 ≤ packed (2 ^ 26, 2 ^ 26) := by
  have hlimit : (268435456 : UInt64).toNat = 2 ^ 28 := by decide
  exact ⟨⟨@passes_long_message 268435456 (2 ^ 28 - 2) (by decide) (by rw [hlimit]; decide), by decide⟩,
    passes_safe_integers (by rw [hlimit]; decide)⟩

end DurableStreams.Memory
