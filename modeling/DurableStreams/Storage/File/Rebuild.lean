import DurableStreams.Storage.File.Index

/-!
# What `rebuild_index` recovers from any file

A log may hold anything after a crash: a header cut short, a length that points past the end of the
file, or bytes no append ever wrote. Every byte string splits in exactly one way into complete
records and torn bytes (`Splits`), and `rebuild_index` recovers the records of that split: it indexes
them, counts them, and cuts off the torn bytes, so that a second run finds the same records and has
nothing to cut.
-/

namespace DurableStreams.File

open Lib

/-- The content of a file. File lengths are signed 64-bit values. -/
structure LogFile where
  bytes : Bytes
  length_lt : bytes.length < 2 ^ 63

/-- The rebuilt index describes a log that consists of these payloads. -/
structure Recovers (log : Bytes) (rebuilt : Rebuilt) (payloads : List Bytes) : Prop where
  count : rebuilt.index.length = payloads.length
  entries : ∀ k data, payloads[k]? = some data → ∃ entry, rebuilt.index[k]? = some entry ∧
    entry.offset = Offset.new k (payloadBytes (payloads.take k)) ∧
    entry.byteLen = data.length ∧ (log.drop entry.filePos).take entry.byteLen = data ∧
    entry.filePos = (encodeRecords (payloads.take k)).length + 4
  nextReadSeq : rebuilt.nextReadSeq = payloads.length
  nextByteOffset : rebuilt.nextByteOffset = payloadBytes payloads
  cut : log.take rebuilt.length = encodeRecords payloads
  cutLength : rebuilt.length = (encodeRecords payloads).length

variable {payloads : List Bytes} {torn : Bytes}

/-- A log of records takes four bytes for each record besides the payloads. -/
theorem length_encode_records (payloads : List Bytes) :
    (encodeRecords payloads).length = 4 * payloads.length + payloadBytes payloads := by
  induction payloads with
  | nil => rfl
  | cons data payloads ih =>
      rw [encode_records_cons, List.length_append, length_encode_record, ih, List.length_cons,
        payload_bytes_cons]
      omega

/-- The index of a log describes it. -/
theorem rebuilt_of_recovers (hlength : (encodeRecords payloads).length < 2 ^ 63) (torn : Bytes) :
    Recovers (encodeRecords payloads ++ torn) (rebuiltOf payloads) payloads := by
  rw [length_encode_records] at hlength
  refine ⟨length_index_of payloads, ?_, Nat.mod_eq_of_lt (by omega), rfl, List.take_left' rfl, rfl⟩
  intro k data hdata
  obtain ⟨hk, rfl⟩ := List.getElem?_eq_some_iff.mp hdata
  have hpayload := take_drop_payload hk torn
  refine ⟨indexAt payloads k, by simp [rebuiltOf, indexOf, hk], ?_, ?_, ?_, rfl⟩
  · rw [indexAt, Log.offsetAt, wrap64_of_lt (by omega)]
  · rw [indexAt, List.getD_eq_getElem _ _ hk]
  · simpa only [indexAt, List.getD_eq_getElem _ _ hk] using hpayload

/-- The loop ends with the index of the records, on any fuel that suffices to read them and to see
the end of the log. -/
theorem rebuild_loop_of_splits {log : LogFile} (h : Splits log.bytes payloads torn) {fuel : Nat}
    (hfuel : payloads.length < fuel) :
    rebuildLoop log.bytes fuel 0 ⟨[], 0, 0, log.bytes.length⟩ = rebuiltOf payloads := by
  have hlength := log.length_lt
  rw [h.eq, List.length_append, length_encode_records] at hlength
  rw [h.eq]
  exact rebuild_loop_eq [] h.incomplete h.fits (by rw [List.nil_append]; omega) hfuel

/-- Rebuilding finds the records of the split. -/
theorem rebuild_index_of_splits {log : LogFile} (h : Splits log.bytes payloads torn) :
    rebuildIndex log.bytes = rebuiltOf payloads := by
  refine rebuild_loop_of_splits h ?_
  rw [h.eq, List.length_append, length_encode_records]
  omega

/-- The records alone are split already. -/
theorem splits_cut {log : Bytes} (h : Splits log payloads torn) :
    Splits (encodeRecords payloads) payloads [] :=
  ⟨h.fits, .inl (by decide), (List.append_nil _).symm⟩

/-- A file of records and part of one more record is split behind the complete records. -/
theorem splits_torn_write {log further written : Bytes} {messages : List Bytes}
    (hfits : ∀ data ∈ further :: messages, data.length < 2 ^ 32)
    (hwritten : written <+: encodeRecord further) (hstrict : written ≠ encodeRecord further)
    (hlog : log = encodeRecords messages ++ written) : Splits log messages written := by
  obtain ⟨hfurther, hmessages⟩ := List.forall_mem_cons.mp hfits
  refine ⟨hmessages, ?_, hlog⟩
  have hcount : written.length < (encodeRecord further).length :=
    Nat.lt_of_le_of_ne hwritten.length_le fun heq => hstrict (hwritten.eq_of_length heq)
  have htorn := @torn_take_record further [] _ hfurther hcount
  rwa [List.append_nil, ← List.prefix_iff_eq_take.mp hwritten] at htorn

/-- `rebuild_index` recovers exactly the complete records of any file: there is one way to split the
file, the loop ends after reading each of its records once, the result describes these records,
and running it again on the file it leaves behind changes nothing. A write torn anywhere within one
more record leaves exactly the messages before it. -/
theorem rebuild_index_recovers (log : LogFile) :
    (∃ payloads torn, Splits log.bytes payloads torn ∧
      (∀ payloads' torn', Splits log.bytes payloads' torn' → payloads' = payloads ∧ torn' = torn) ∧
      (∀ fuel, payloads.length < fuel →
        rebuildLoop log.bytes fuel 0 ⟨[], 0, 0, log.bytes.length⟩ = rebuildIndex log.bytes) ∧
      Recovers log.bytes (rebuildIndex log.bytes) payloads ∧
      rebuildIndex (log.bytes.take (rebuildIndex log.bytes).length) = rebuildIndex log.bytes) ∧
    ∀ messages further written,
      (∀ data ∈ further :: messages, data.length < 2 ^ 32) →
      written <+: encodeRecord further → written ≠ encodeRecord further →
      log.bytes = encodeRecords messages ++ written →
      Recovers log.bytes (rebuildIndex log.bytes) messages := by
  have hlength {payloads torn} (h : Splits log.bytes payloads torn) :
      (encodeRecords payloads).length < 2 ^ 63 := by
    have hlog := log.length_lt
    rw [h.eq, List.length_append] at hlog
    omega
  have hrecovers {payloads torn} (h : Splits log.bytes payloads torn) :
      Recovers log.bytes (rebuildIndex log.bytes) payloads := by
    rw [rebuild_index_of_splits h, h.eq]
    exact rebuilt_of_recovers (hlength h) torn
  refine ⟨?_, fun messages further written hfits hwritten hstrict hlog =>
    hrecovers (splits_torn_write hfits hwritten hstrict hlog)⟩
  obtain ⟨payloads, torn, h⟩ := exists_splits log.bytes
  have hindex := rebuild_index_of_splits h
  refine ⟨payloads, torn, h, fun payloads' torn' h' => h.unique h', fun fuel hfuel => ?_,
    hrecovers h, ?_⟩
  · rw [hindex]
    exact rebuild_loop_of_splits h hfuel
  · rw [(hrecovers h).cut, hindex]
    exact @rebuild_index_of_splits payloads [] ⟨_, hlength h⟩ (splits_cut h)

/-- One message, and of the next record the header and half of the payload: the message is recovered
and the five bytes behind it are cut off. -/
theorem rebuild_index_recovers_torn_header :
    Recovers [1, 0, 0, 0, 65, 2, 0, 0, 0, 66] (rebuildIndex [1, 0, 0, 0, 65, 2, 0, 0, 0, 66]) [[65]] :=
  (rebuild_index_recovers ⟨[1, 0, 0, 0, 65, 2, 0, 0, 0, 66], by decide⟩).2 [[65]] [66, 67]
    [2, 0, 0, 0, 66] (by decide) (by decide) (by decide) (by decide)

end DurableStreams.File
