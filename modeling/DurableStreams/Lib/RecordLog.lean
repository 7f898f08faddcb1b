import Mathlib.Data.List.Basic
import Mathlib.Algebra.Group.Nat.Defs

/-!
# Length-prefixed record logs

A record is a payload behind its length as four little-endian bytes, and a log is a sequence of
records. `scan` takes complete records off the front of a byte string until what is left is `Torn`:
too short for a header or for the payload its header announces. `scan_encode_records` says that a
scan recovers the records a log was written from, whatever torn bytes follow them.
-/

namespace DurableStreams.Lib

/-- The four little-endian bytes of a 32-bit value. -/
def encodeLe32 (value : Nat) : List UInt8 :=
  [value.toUInt8, (value / 256).toUInt8, (value / 65536).toUInt8, (value / 16777216).toUInt8]

/-- The value of little-endian bytes. -/
def decodeLe (bytes : List UInt8) : Nat :=
  bytes.foldr (fun byte rest => byte.toNat + 256 * rest) 0

/-- A record: the payload behind its length. -/
def encodeRecord (payload : List UInt8) : List UInt8 := encodeLe32 payload.length ++ payload

/-- A log of records. -/
def encodeRecords (payloads : List (List UInt8)) : List UInt8 := payloads.flatMap encodeRecord

/-- Not even one complete record. -/
def Torn (bytes : List UInt8) : Prop :=
  bytes.length < 4 ∨ bytes.length < 4 + decodeLe (bytes.take 4)

instance (bytes : List UInt8) : Decidable (Torn bytes) :=
  inferInstanceAs (Decidable (_ ∨ _))

/-- Take at most `fuel` records off the front. -/
def scanLoop : Nat → List UInt8 → List (List UInt8) × List UInt8
  | 0, bytes => ([], bytes)
  | fuel + 1, bytes =>
      if Torn bytes then ([], bytes)
      else
        let size := decodeLe (bytes.take 4)
        let (payloads, rest) := scanLoop fuel (bytes.drop (4 + size))
        ((bytes.drop 4).take size :: payloads, rest)

/-- The complete records at the front of a byte string, and what is left behind them. -/
def scan (bytes : List UInt8) : List (List UInt8) × List UInt8 := scanLoop bytes.length bytes

/-! ## Headers -/

@[simp] theorem length_encode_le32 (value : Nat) : (encodeLe32 value).length = 4 := rfl

/-- Every 32-bit length survives the header. -/
theorem decode_encode_le32 {value : Nat} (h : value < 2 ^ 32) :
    decodeLe (encodeLe32 value) = value := by
  simp only [decodeLe, encodeLe32, List.foldr_cons, List.foldr_nil, Nat.toUInt8,
    UInt8.toNat_ofNat']
  omega

/-- A header of four bytes is the encoding of the 32-bit length it announces. -/
theorem encode_decode_le32 {header : List UInt8} (h : header.length = 4) :
    decodeLe header < 2 ^ 32 ∧ encodeLe32 (decodeLe header) = header := by
  obtain ⟨first, second, third, fourth, rfl⟩ := List.length_eq_four.mp h
  have hvalue : decodeLe [first, second, third, fourth] = first.toNat + 256 * (second.toNat +
      256 * (third.toNat + 256 * fourth.toNat)) := rfl
  have hfirst := first.toNat_lt
  have hsecond := second.toNat_lt
  have hthird := third.toNat_lt
  have hfourth := fourth.toNat_lt
  refine ⟨by omega, ?_⟩
  simp only [encodeLe32, List.cons.injEq, and_true, ← UInt8.toNat_inj, Nat.toUInt8,
    UInt8.toNat_ofNat', hvalue]
  omega

/-- The length of a record. -/
@[simp] theorem length_encode_record (payload : List UInt8) :
    (encodeRecord payload).length = 4 + payload.length := by
  simp [encodeRecord]

@[simp] theorem encode_records_nil : encodeRecords [] = [] := rfl

@[simp] theorem encode_records_cons (payload : List UInt8) (payloads : List (List UInt8)) :
    encodeRecords (payload :: payloads) = encodeRecord payload ++ encodeRecords payloads := rfl

@[simp] theorem encode_records_append (first second : List (List UInt8)) :
    encodeRecords (first ++ second) = encodeRecords first ++ encodeRecords second := by
  simp [encodeRecords]

/-- The header of a record announces its payload. -/
theorem decode_header {payload rest : List UInt8} (h : payload.length < 2 ^ 32) :
    decodeLe ((encodeRecord payload ++ rest).take 4) = payload.length := by
  rw [encodeRecord, List.append_assoc, List.take_left' (length_encode_le32 _),
    decode_encode_le32 h]

/-! ## Scanning -/

/-- A record behind which anything follows is not torn. -/
theorem not_torn_record {payload rest : List UInt8} (h : payload.length < 2 ^ 32) :
    ¬ Torn (encodeRecord payload ++ rest) := by
  rw [Torn, decode_header h, List.length_append, length_encode_record]
  omega

/-- A strict part of a record is torn. -/
theorem torn_take_record {payload rest : List UInt8} {count : Nat} (h : payload.length < 2 ^ 32)
    (hcount : count < (encodeRecord payload).length) :
    Torn ((encodeRecord payload ++ rest).take count) := by
  rw [length_encode_record] at hcount
  have hlength : ((encodeRecord payload ++ rest).take count).length = count := by
    rw [List.length_take, List.length_append, length_encode_record]
    omega
  rw [Torn, hlength]
  by_cases hheader : count < 4
  · exact .inl hheader
  · rw [List.take_take, Nat.min_eq_left (by omega), decode_header h]
    exact .inr hcount

/-- Nothing comes off a torn byte string. -/
theorem scan_loop_torn {bytes : List UInt8} (h : Torn bytes) (fuel : Nat) :
    scanLoop fuel bytes = ([], bytes) := by
  cases fuel with
  | zero => rfl
  | succ fuel => rw [scanLoop, if_pos h]

/-- Fuel beyond the length of the bytes makes no difference. -/
theorem scan_loop_fuel {bytes : List UInt8} {fuel : Nat} (h : bytes.length ≤ fuel) :
    scanLoop fuel bytes = scan bytes := by
  induction fuel using Nat.strongRecOn generalizing bytes with
  | ind fuel ih =>
      by_cases htorn : Torn bytes
      · rw [scan, scan_loop_torn htorn, scan_loop_torn htorn]
      · have hlength : 4 ≤ bytes.length := by
          rw [Torn] at htorn
          omega
        obtain ⟨fuel, rfl⟩ := Nat.exists_eq_add_of_le' (show 1 ≤ fuel by omega)
        obtain ⟨size, hsize⟩ := Nat.exists_eq_add_of_le' (show 1 ≤ bytes.length by omega)
        have hdrop : (bytes.drop (4 + decodeLe (bytes.take 4))).length ≤ size := by
          rw [List.length_drop]
          omega
        rw [scan, hsize, scanLoop, scanLoop, if_neg htorn, if_neg htorn]
        dsimp only
        rw [ih fuel (by omega) (Nat.le_trans hdrop (by omega)), ih size (by omega) hdrop]

/-- A complete record comes off the front. -/
theorem scan_record {payload : List UInt8} (h : payload.length < 2 ^ 32) (rest : List UInt8) :
    scan (encodeRecord payload ++ rest) = (payload :: (scan rest).1, (scan rest).2) := by
  have hlength : (encodeRecord payload ++ rest).length = (3 + payload.length + rest.length) + 1 := by
    rw [List.length_append, length_encode_record]
    omega
  rw [scan, hlength, scanLoop, if_neg (not_torn_record h), decode_header h]
  have hdrop : (encodeRecord payload ++ rest).drop (4 + payload.length) = rest := by
    rw [List.drop_left' (length_encode_record payload)]
  have hpayload : ((encodeRecord payload ++ rest).drop 4).take payload.length = payload := by
    rw [encodeRecord, List.append_assoc, List.drop_left' (length_encode_le32 _),
      List.take_left' rfl]
  dsimp only
  rw [hdrop, hpayload, scan_loop_fuel (by omega)]

/-- Scanning a log recovers its records and goes on with whatever follows them. -/
theorem scan_encode_records {payloads : List (List UInt8)}
    (h : ∀ payload ∈ payloads, payload.length < 2 ^ 32) (rest : List UInt8) :
    scan (encodeRecords payloads ++ rest) = (payloads ++ (scan rest).1, (scan rest).2) := by
  induction payloads with
  | nil => rfl
  | cons payload payloads ih =>
      rw [encode_records_cons, List.append_assoc, scan_record (h payload (by simp)),
        ih fun other hother => h other (by simp [hother])]
      rfl

/-- A log with torn bytes behind it scans to its records and the torn bytes. -/
theorem scan_torn_log {payloads : List (List UInt8)} {rest : List UInt8}
    (h : ∀ payload ∈ payloads, payload.length < 2 ^ 32) (htorn : Torn rest) :
    scan (encodeRecords payloads ++ rest) = (payloads, rest) := by
  rw [scan_encode_records h, scan, scan_loop_torn htorn, List.append_nil]

/-- A byte string that is not torn starts with a complete record. -/
theorem record_of_not_torn {bytes : List UInt8} (h : ¬ Torn bytes) :
    ∃ payload rest, payload.length < 2 ^ 32 ∧ bytes = encodeRecord payload ++ rest := by
  rw [Torn, not_or, Nat.not_lt, Nat.not_lt] at h
  have hheader : (bytes.take 4).length = 4 := by
    rw [List.length_take]
    omega
  obtain ⟨hlt, hencode⟩ := encode_decode_le32 hheader
  have hpayload : ((bytes.drop 4).take (decodeLe (bytes.take 4))).length =
      decodeLe (bytes.take 4) := by
    rw [List.length_take, List.length_drop]
    omega
  refine ⟨(bytes.drop 4).take (decodeLe (bytes.take 4)),
    (bytes.drop 4).drop (decodeLe (bytes.take 4)), by rwa [hpayload], ?_⟩
  rw [encodeRecord, hpayload, hencode, List.append_assoc, List.take_append_drop,
    List.take_append_drop]

/-- The byte string is a log of these records with torn bytes behind them. -/
structure Splits (bytes : List UInt8) (payloads : List (List UInt8)) (torn : List UInt8) :
    Prop where
  fits : ∀ payload ∈ payloads, payload.length < 2 ^ 32
  incomplete : Torn torn
  eq : bytes = encodeRecords payloads ++ torn

/-- Every byte string splits into complete records and torn bytes. -/
theorem exists_splits (bytes : List UInt8) : ∃ payloads torn, Splits bytes payloads torn := by
  induction hlength : bytes.length using Nat.strongRecOn generalizing bytes with
  | ind length ih =>
      by_cases htorn : Torn bytes
      · exact ⟨[], bytes, by simp, htorn, rfl⟩
      · obtain ⟨payload, rest, hpayload, rfl⟩ := record_of_not_torn htorn
        rw [List.length_append, length_encode_record] at hlength
        obtain ⟨payloads, torn, h⟩ := ih rest.length (by omega) rest rfl
        refine ⟨payload :: payloads, torn, ?_, h.incomplete, ?_⟩
        · exact List.forall_mem_cons.mpr ⟨hpayload, h.fits⟩
        · rw [encode_records_cons, List.append_assoc, ← h.eq]

/-- There is only one way to split a byte string. -/
theorem Splits.unique {bytes torn torn' : List UInt8} {payloads payloads' : List (List UInt8)}
    (h : Splits bytes payloads torn) (h' : Splits bytes payloads' torn') :
    payloads' = payloads ∧ torn' = torn := by
  have hscan := scan_torn_log h.fits h.incomplete
  rw [← h.eq, h'.eq, scan_torn_log h'.fits h'.incomplete] at hscan
  exact Prod.mk.inj hscan

/-- A part of a log, cut anywhere, holds some of its records and torn bytes behind them. -/
theorem take_encode_records {payloads : List (List UInt8)}
    (h : ∀ payload ∈ payloads, payload.length < 2 ^ 32) (count : Nat) :
    ∃ complete torn, complete ≤ payloads.length ∧ Torn torn ∧
      (encodeRecords payloads).take count = encodeRecords (payloads.take complete) ++ torn := by
  induction payloads generalizing count with
  | nil => exact ⟨0, [], Nat.le_refl 0, .inl (by decide), by simp⟩
  | cons payload payloads ih =>
      have hsize := h payload (List.mem_cons_self ..)
      by_cases hcount : count < (encodeRecord payload).length
      · refine ⟨0, (encodeRecord payload ++ encodeRecords payloads).take count, Nat.zero_le _,
          torn_take_record hsize hcount, ?_⟩
        rw [encode_records_cons, List.take_zero, encode_records_nil, List.nil_append]
      · obtain ⟨complete, torn, hle, htorn, htake⟩ :=
          ih (fun other hother => h other (List.mem_cons_of_mem _ hother))
            (count - (encodeRecord payload).length)
        refine ⟨complete + 1, torn, Nat.succ_le_succ hle, htorn, ?_⟩
        rw [encode_records_cons, List.take_append, List.take_of_length_le (by omega), htake,
          List.take_succ_cons, encode_records_cons, List.append_assoc]

end DurableStreams.Lib
