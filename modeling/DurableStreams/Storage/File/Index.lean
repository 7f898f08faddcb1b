import DurableStreams.Storage.File.Operations
import DurableStreams.Storage.Log
import Mathlib.Data.List.GetD

/-!
# The record index of a log

`indexOf` is the index that belongs to a list of payloads written as records one after the other.
Live appends extend it by one entry each (`index_of_concat`), reading through it returns the
payloads (`read_messages_eq`), and `rebuild_index` finds exactly it in a log, whatever torn bytes
follow the records (`rebuild_index_eq`).
-/

namespace DurableStreams.File

open Lib

/-- Where the payload of message `index` starts in the log. -/
def payloadPos (payloads : List Bytes) (index : Nat) : Nat :=
  (encodeRecords (payloads.take index)).length + 4

/-- The index entry of message `index`. -/
def indexAt (payloads : List Bytes) (index : Nat) : MessageIndex :=
  ⟨Log.offsetAt payloads index, payloadPos payloads index, (payloads.getD index []).length⟩

/-- The index of a whole log. -/
def indexOf (payloads : List Bytes) : List MessageIndex :=
  (List.range payloads.length).map (indexAt payloads)

variable {payloads more : List Bytes}

/-- Growing a log keeps the index entries it already has. -/
theorem index_at_append {index : Nat} (h : index < payloads.length) :
    indexAt (payloads ++ more) index = indexAt payloads index := by
  rw [indexAt, indexAt, payloadPos, payloadPos, Log.offset_at_append (Nat.le_of_lt h),
    List.take_append_of_le_length (Nat.le_of_lt h), List.getD_append _ _ _ _ h]

/-- One more record is indexed behind the end of the log. -/
theorem index_of_concat (payloads : List Bytes) (data : Bytes) :
    indexOf (payloads ++ [data]) =
      indexOf payloads ++ [⟨Log.tail payloads, (encodeRecords payloads).length + 4,
        data.length⟩] := by
  rw [indexOf, List.length_append, List.length_singleton, List.range_succ, List.map_append]
  congr 1
  · exact List.map_congr_left fun index hindex => index_at_append (List.mem_range.mp hindex)
  · simp [indexAt, payloadPos, Log.tail, Log.offset_at_append (Nat.le_refl payloads.length)]

@[simp] theorem length_index_of (payloads : List Bytes) :
    (indexOf payloads).length = payloads.length := by simp [indexOf]

/-- The offsets of the index are those of the abstract log. -/
theorem index_of_offsets (payloads : List Bytes) :
    (indexOf payloads).map MessageIndex.offset = Log.offsets payloads := by
  simp [indexOf, Log.offsets, indexAt]

/-! ## Reading through the index -/

/-- A record ends where the next one starts. -/
theorem length_encode_take_succ {index : Nat} (h : index < payloads.length) :
    (encodeRecords (payloads.take (index + 1))).length =
      payloadPos payloads index + payloads[index].length := by
  rw [payloadPos, ← List.take_append_getElem h, encode_records_append, List.length_append,
    encode_records_cons, encode_records_nil, List.append_nil, length_encode_record]
  omega

/-- Records do not start before the records in front of them end. -/
theorem length_encode_take_mono (payloads : List Bytes) {first second : Nat}
    (h : first ≤ second) :
    (encodeRecords (payloads.take first)).length ≤
      (encodeRecords (payloads.take second)).length := by
  have hsplit : payloads.take second = payloads.take first ++ (payloads.take second).drop first := by
    conv_lhs => rw [← List.take_append_drop first (payloads.take second)]
    rw [List.take_take, Nat.min_eq_left h]
  rw [hsplit, encode_records_append, List.length_append]
  omega

/-- The bytes at a payload's position are the payload. -/
theorem take_drop_payload {index : Nat} (h : index < payloads.length) (rest : Bytes) :
    ((encodeRecords payloads ++ rest).drop (payloadPos payloads index)).take
      payloads[index].length = payloads[index] := by
  have hsplit : encodeRecords payloads ++ rest =
      encodeRecords (payloads.take index) ++ (encodeLe32 payloads[index].length ++
        (payloads[index] ++ (encodeRecords (payloads.drop (index + 1)) ++ rest))) := by
    conv_lhs => rw [← List.take_append_drop index payloads, List.drop_eq_getElem_cons h]
    rw [encode_records_append, encode_records_cons, encodeRecord]
    simp only [List.append_assoc]
  rw [hsplit, payloadPos, List.drop_append, List.drop_of_length_le (by omega), List.nil_append,
    Nat.add_sub_cancel_left, List.drop_left' (length_encode_le32 _), List.take_left' rfl]

/-- Cutting one message out of the bulk read. -/
theorem bulk_read_slice {start index : Nat} (hstart : start ≤ index)
    (hindex : index < payloads.length) (rest : Bytes) :
    ((((encodeRecords payloads ++ rest).drop (payloadPos payloads start)).take
        ((encodeRecords payloads).length - payloadPos payloads start)).drop
          (payloadPos payloads index - payloadPos payloads start)).take payloads[index].length =
      payloads[index] := by
  have hpos : payloadPos payloads start ≤ payloadPos payloads index :=
    Nat.add_le_add_right (length_encode_take_mono payloads hstart) 4
  have hend : payloadPos payloads index + payloads[index].length ≤
      (encodeRecords payloads).length := by
    rw [← length_encode_take_succ hindex]
    have hall := length_encode_take_mono payloads (Nat.succ_le_of_lt hindex)
    rwa [List.take_length] at hall
  rw [List.drop_take, List.drop_drop, Nat.add_sub_cancel' hpos, List.take_take,
    Nat.min_eq_left (by omega), take_drop_payload hindex rest]

/-- Reading through the index from some message on returns the payloads from there on. -/
theorem read_messages_eq (payloads : List Bytes) (rest : Bytes) (start : Nat) :
    readMessages .none (encodeRecords payloads ++ rest) ((indexOf payloads).drop start) =
      .ok (payloads.drop start) := by
  by_cases hstart : start < payloads.length
  · have hlast : payloads.length - 1 < payloads.length := by omega
    have hslice : (indexOf payloads).drop start =
        (List.range' start (payloads.length - start)).map (indexAt payloads) := by
      rw [indexOf, ← List.map_drop, List.range_eq_range', List.drop_range']
      simp
    have hhead : ((indexOf payloads).drop start).head? = some (indexAt payloads start) := by
      rw [hslice, List.head?_map, List.head?_range', if_neg (by omega)]
      rfl
    have hend : ((indexOf payloads).drop start).getLast? =
        some (indexAt payloads (payloads.length - 1)) := by
      rw [hslice, List.getLast?_map, List.getLast?_range', if_neg (by omega), Option.map_some]
      congr 2
      omega
    have hlength : (encodeRecords payloads).length =
        payloadPos payloads (payloads.length - 1) +
          (payloads.getD (payloads.length - 1) []).length := by
      rw [List.getD_eq_getElem _ _ hlast, ← length_encode_take_succ hlast,
        Nat.sub_add_cancel (by omega), List.take_length]
    have hle : payloadPos payloads start ≤ (encodeRecords payloads).length := by
      rw [hlength]
      have := length_encode_take_mono payloads
        (show start ≤ payloads.length - 1 by omega)
      simp only [payloadPos]
      omega
    simp only [readMessages, hhead, hend, Faults.none, indexAt]
    rw [← hlength, if_neg (by rw [List.length_append]; omega), Except.ok.injEq, hslice, List.map_map]
    refine List.ext_getElem (by simp) fun position hposition hdrop => ?_
    rw [List.length_drop] at hdrop
    simp only [List.getElem_map, List.getElem_range', Function.comp_apply, indexAt,
      List.getElem_drop, Nat.one_mul]
    rw [List.getD_eq_getElem _ _ (by omega)]
    exact bulk_read_slice (by omega) (by omega) rest
  · rw [List.drop_of_length_le (by rw [length_index_of]; omega),
      List.drop_of_length_le (by omega)]
    rfl

/-! ## Rebuilding the index -/

/-- What rebuilding finds in a log of these payloads. -/
def rebuiltOf (payloads : List Bytes) : Rebuilt :=
  ⟨indexOf payloads, wrap64 payloads.length, payloadBytes payloads,
    (encodeRecords payloads).length⟩

/-- The loop state after the records of these payloads, in a log of the given length. -/
def rebuiltSoFar (payloads : List Bytes) (length : Nat) : Rebuilt :=
  { rebuiltOf payloads with length := length }

/-- At the end of the records the loop stops and cuts off what is torn. -/
theorem rebuild_loop_end {torn : Bytes} (htorn : Torn torn) (fuel : Nat) :
    rebuildLoop (encodeRecords payloads ++ torn) (fuel + 1) (encodeRecords payloads).length
      (rebuiltSoFar payloads (encodeRecords payloads ++ torn).length) = rebuiltOf payloads := by
  rw [rebuildLoop, List.drop_left, List.length_append]
  by_cases hnil : torn = []
  · subst hnil
    rw [if_neg (by simp)]
    rfl
  · have hpos := List.length_pos_iff.mpr hnil
    rw [if_pos (by omega)]
    dsimp only
    by_cases hheader : (torn.take 4).length < 4
    · rw [if_pos hheader]
      rfl
    · rw [List.length_take] at hheader
      rw [Torn] at htorn
      rw [if_neg (by rw [List.length_take]; exact hheader), if_pos (by omega)]
      rfl

/-- A complete record is indexed and the loop goes on behind it. -/
theorem rebuild_loop_record {data rest : Bytes} (hsize : data.length < 2 ^ 32)
    (hbytes : payloadBytes payloads + data.length < 2 ^ 64) (fuel length : Nat) :
    rebuildLoop (encodeRecords payloads ++ (encodeRecord data ++ rest)) (fuel + 1)
        (encodeRecords payloads).length (rebuiltSoFar payloads length) =
      rebuildLoop (encodeRecords payloads ++ (encodeRecord data ++ rest)) fuel
        (encodeRecords (payloads ++ [data])).length (rebuiltSoFar (payloads ++ [data]) length) := by
  have hheader : ((encodeRecord data ++ rest).take 4).length = 4 := by
    rw [List.length_take, List.length_append, length_encode_record]
    omega
  have hend : (encodeRecords (payloads ++ [data])).length =
      (encodeRecords payloads).length + 4 + data.length := by
    rw [encode_records_append, List.length_append, encode_records_cons, encode_records_nil,
      List.append_nil, length_encode_record]
    omega
  have hlength : (encodeRecords payloads ++ (encodeRecord data ++ rest)).length =
      (encodeRecords payloads).length + 4 + data.length + rest.length := by
    simp only [List.length_append, length_encode_record]
    omega
  rw [rebuildLoop, List.drop_left, if_pos (by omega)]
  dsimp only
  rw [if_neg (by omega), decode_header hsize, if_neg (by omega), hend]
  congr 1
  simp only [rebuiltSoFar, rebuiltOf, index_of_concat, payload_bytes_append, List.length_append,
    List.length_singleton, wrap64, Nat.mod_add_mod, Log.tail, Log.offsetAt, List.take_length,
    payload_bytes_cons, Rebuilt.mk.injEq, true_and, and_true]
  exact Nat.mod_eq_of_lt hbytes

/-- The loop rebuilds the index of all records it still has to read. -/
theorem rebuild_loop_eq (payloads : List Bytes) {todo : List Bytes} {torn : Bytes}
    (htorn : Torn torn)
    (hsizes : ∀ data ∈ todo, data.length < 2 ^ 32)
    (hbytes : payloadBytes (payloads ++ todo) < 2 ^ 64) {fuel : Nat} (hfuel : todo.length < fuel) :
    rebuildLoop (encodeRecords (payloads ++ todo) ++ torn) fuel (encodeRecords payloads).length
      (rebuiltSoFar payloads (encodeRecords (payloads ++ todo) ++ torn).length) =
      rebuiltOf (payloads ++ todo) := by
  obtain ⟨fuel, rfl⟩ := Nat.exists_eq_add_of_le' (Nat.succ_le_of_lt (Nat.zero_lt_of_lt hfuel))
  induction todo generalizing payloads fuel with
  | nil =>
      rw [List.append_nil]
      exact rebuild_loop_end htorn fuel
  | cons data todo ih =>
      have hsplit : encodeRecords (payloads ++ data :: todo) ++ torn =
          encodeRecords payloads ++ (encodeRecord data ++ (encodeRecords todo ++ torn)) := by
        simp only [encode_records_append, encode_records_cons, List.append_assoc]
      have hassoc : payloads ++ data :: todo = (payloads ++ [data]) ++ todo := by simp
      rw [payload_bytes_append, payload_bytes_cons] at hbytes
      rw [List.length_cons] at hfuel
      obtain ⟨fuel, rfl⟩ := Nat.exists_eq_add_of_le' (show 1 ≤ fuel by omega)
      rw [hsplit, rebuild_loop_record (hsizes data (by simp)) (by omega), ← hsplit, hassoc]
      refine ih (payloads ++ [data]) (fun other hother => hsizes other (by simp [hother])) ?_ fuel
        (by omega)
      rwa [← hassoc, payload_bytes_append, payload_bytes_cons]

/-- Rebuilding finds exactly the complete records of a log and cuts off the torn bytes. -/
theorem rebuild_index_eq {torn : Bytes} (htorn : Torn torn)
    (hsizes : ∀ data ∈ payloads, data.length < 2 ^ 32) (hbytes : payloadBytes payloads < 2 ^ 64) :
    rebuildIndex (encodeRecords payloads ++ torn) = rebuiltOf payloads := by
  have hfuel : payloads.length < (encodeRecords payloads ++ torn).length + 1 := by
    have hle : payloads.length ≤ (encodeRecords payloads).length := by
      clear hsizes hbytes
      induction payloads with
      | nil => simp
      | cons data payloads ih =>
          simp only [encode_records_cons, List.length_append, length_encode_record,
            List.length_cons]
          omega
    rw [List.length_append]
    omega
  exact rebuild_loop_eq [] htorn hsizes hbytes hfuel

end DurableStreams.File
