import DurableStreams.Storage.Basic

/-!
# The abstract log of a stream

What every backend stores for a stream is a list of payloads. This module says, independently of
any backend, which offset each payload has and what reading from an offset means. `position` is
the number of messages before an offset, so a read returns the payloads from there on. The main
facts are `position_tail` (the tail of a log is the position of whatever is appended next) and
`position_append` (an offset not past the tail keeps its position when the log grows).
-/

namespace DurableStreams.Log

/-- The offset of message `index`: its number and the bytes of all messages before it. -/
def offsetAt (payloads : List Bytes) (index : Nat) : Offset :=
  Offset.new (wrap64 index) (payloadBytes (payloads.take index))

/-- The offsets of all messages, in order. -/
def offsets (payloads : List Bytes) : List Offset :=
  (List.range payloads.length).map (offsetAt payloads)

/-- The offset the next message will get. -/
def tail (payloads : List Bytes) : Offset := offsetAt payloads payloads.length

/-- How many messages lie before an offset. The start sentinel precedes every message and the
tail sentinel follows all of them. -/
def position (payloads : List Bytes) : Offset → Nat
  | .start => 0
  | .now => payloads.length
  | .concrete readSeq byteOffset raw =>
      (List.range payloads.length).countP fun index =>
        (offsetAt payloads index).cmp (.concrete readSeq byteOffset raw) = .lt

/-- The messages between two positions. -/
def segment (payloads : List Bytes) (first last : Nat) : List Bytes :=
  (payloads.take last).drop first

variable {payloads more : List Bytes}

/-! ## Offsets -/

/-- Growing a log keeps the offsets it already has. -/
theorem offset_at_append {index : Nat} (h : index ≤ payloads.length) :
    offsetAt (payloads ++ more) index = offsetAt payloads index := by
  simp [offsetAt, List.take_append_of_le_length h]

/-- One more message gets the tail offset. -/
theorem offsets_concat (payloads : List Bytes) (data : Bytes) :
    offsets (payloads ++ [data]) = offsets payloads ++ [tail payloads] := by
  rw [offsets, List.length_append, List.length_singleton, List.range_succ, List.map_append]
  congr 1
  · refine List.map_congr_left fun index hindex => ?_
    exact offset_at_append (Nat.le_of_lt (List.mem_range.mp hindex))
  · simp [tail, offset_at_append (Nat.le_refl payloads.length)]

/-- Before `2 ^ 64` messages, a message precedes a concrete offset by number, then by bytes. -/
theorem offset_at_cmp_lt_iff {index readSeq byteOffset : Nat} {raw : List UInt8}
    (h : index < 2 ^ 64) :
    (offsetAt payloads index).cmp (.concrete readSeq byteOffset raw) = .lt ↔
      index < readSeq ∨ index = readSeq ∧ payloadBytes (payloads.take index) < byteOffset := by
  rw [offsetAt, Offset.cmp_new_lt_iff, wrap64_of_lt h]

/-- Before `2 ^ 64` messages, offsets are ordered as the messages are. -/
theorem offset_at_lt {first second : Nat} (hsecond : second < 2 ^ 64) (h : first < second) :
    (offsetAt payloads first).cmp (offsetAt payloads second) = .lt := by
  rw [offsetAt, offsetAt]
  refine Offset.cmp_new_lt_iff.mpr (.inl ?_)
  rwa [wrap64_of_lt hsecond, wrap64_of_lt (by omega)]

/-- A later message never precedes an earlier one. -/
theorem offset_at_not_lt {first second : Nat} (hsecond : second < 2 ^ 64) (h : first ≤ second) :
    (offsetAt payloads second).cmp (offsetAt payloads first) ≠ .lt := by
  rw [offsetAt, offsetAt]
  intro hlt
  have hlt := Offset.cmp_new_lt_iff.mp hlt
  rw [wrap64_of_lt hsecond, wrap64_of_lt (by omega)] at hlt
  obtain hlt | ⟨rfl, hlt⟩ := hlt
  · omega
  · exact Nat.lt_irrefl _ hlt

/-! ## Positions -/

/-- A test that holds exactly below a cut counts up to the cut. -/
theorem count_range_of_cut {test : Nat → Bool} {cut length : Nat} (hcut : cut ≤ length)
    (hbefore : ∀ index < cut, test index = true)
    (hafter : ∀ index < length, cut ≤ index → test index = false) :
    (List.range length).countP test = cut := by
  obtain ⟨rest, rfl⟩ := Nat.exists_eq_add_of_le hcut
  rw [List.range_add, List.countP_append,
    List.countP_eq_length.mpr fun index hindex => hbefore index (List.mem_range.mp hindex),
    List.countP_eq_zero.mpr ?_, List.length_range]
  · rfl
  · intro index hindex
    obtain ⟨extra, hextra, rfl⟩ := List.mem_map.mp hindex
    have := List.mem_range.mp hextra
    simp [hafter (cut + extra) (by omega) (by omega)]

/-- No offset is positioned beyond the log. -/
theorem position_le (payloads : List Bytes) (offset : Offset) :
    position payloads offset ≤ payloads.length := by
  cases offset with
  | start => exact Nat.zero_le _
  | now => exact Nat.le_refl _
  | concrete readSeq byteOffset raw =>
      exact (List.countP_le_length).trans (by simp)

/-- The position of a message's own offset, in any extension of the log, is its number. -/
theorem position_offset_at {index : Nat} (hindex : index ≤ payloads.length)
    (hlength : payloads.length < 2 ^ 64) :
    position payloads (offsetAt payloads index) = index := by
  refine count_range_of_cut hindex ?_ ?_
  · intro other hother
    exact decide_eq_true (offset_at_lt (by omega) hother)
  · intro other hother hle
    exact decide_eq_false (offset_at_not_lt (by omega) hle)

/-- Whatever is appended to a log starts at the position of the old tail. -/
theorem position_tail (h : (payloads ++ more).length < 2 ^ 64) :
    position (payloads ++ more) (tail payloads) = payloads.length := by
  have htail : tail payloads = offsetAt (payloads ++ more) payloads.length :=
    (offset_at_append (Nat.le_refl _)).symm
  rw [htail]
  exact position_offset_at (by simp) h

/-- A concrete offset that is not past the tail keeps its position when the log grows. -/
theorem position_append_concrete {readSeq byteOffset : Nat} {raw : List UInt8}
    (hlength : (payloads ++ more).length < 2 ^ 64)
    (htail : (tail payloads).cmp (.concrete readSeq byteOffset raw) ≠ .lt) :
    position (payloads ++ more) (.concrete readSeq byteOffset raw) =
      position payloads (.concrete readSeq byteOffset raw) := by
  have hlen := hlength
  rw [List.length_append] at hlen
  rw [tail, Ne, offset_at_cmp_lt_iff (by omega)] at htail
  simp only [position]
  rw [List.length_append, List.range_add, List.countP_append]
  have hold : ∀ index ∈ List.range payloads.length,
      offsetAt (payloads ++ more) index = offsetAt payloads index := fun index hindex =>
    offset_at_append (Nat.le_of_lt (List.mem_range.mp hindex))
  rw [List.countP_congr (fun index hindex => by rw [hold index hindex]), Nat.add_eq_left]
  refine List.countP_eq_zero.mpr fun index hindex => ?_
  obtain ⟨extra, hextra, rfl⟩ := List.mem_map.mp hindex
  have hextra := List.mem_range.mp hextra
  rw [decide_eq_true_eq, offset_at_cmp_lt_iff (by omega)]
  -- Byte sums only grow, so what follows the tail is past the offset as well.
  have hbytes : payloadBytes payloads ≤
      payloadBytes ((payloads ++ more).take (payloads.length + extra)) := by
    rw [List.take_length_add_append, payload_bytes_append]
    omega
  rw [List.take_length] at htail
  omega

/-- An offset that is not past the tail keeps its position when the log grows. -/
theorem position_append {offset : Offset} (hlength : (payloads ++ more).length < 2 ^ 64)
    (htail : (tail payloads).cmp offset ≠ .lt) :
    position (payloads ++ more) offset = position payloads offset := by
  cases offset with
  | start => rfl
  | now => exact absurd (Offset.cmp_new_now _ _) htail
  | concrete readSeq byteOffset raw => exact position_append_concrete hlength htail

/-- Before `2 ^ 64` messages an offset belongs to one message only. -/
theorem offset_at_inj {first second : Nat} (hfirst : first < 2 ^ 64) (hsecond : second < 2 ^ 64)
    (h : offsetAt payloads first = offsetAt payloads second) : first = second := by
  have hseq := (Offset.new_inj.mp h).1
  rwa [wrap64_of_lt hfirst, wrap64_of_lt hsecond] at hseq

/-- Reading on from the old tail returns exactly what was appended. -/
theorem drop_position_tail (h : (payloads ++ more).length < 2 ^ 64) :
    (payloads ++ more).drop (position (payloads ++ more) (tail payloads)) = more := by
  rw [position_tail h, List.drop_left]

/-! ## Segments -/

/-- A segment that ends inside a log is the same in every extension of the log. -/
theorem segment_of_append {first last : Nat} (h : last ≤ payloads.length) :
    segment (payloads ++ more) first last = segment payloads first last := by
  rw [segment, segment, List.take_append_of_le_length h]

/-- The segment up to the end of the log. -/
theorem segment_length (payloads : List Bytes) (first : Nat) :
    segment payloads first payloads.length = payloads.drop first := by
  rw [segment, List.take_length]

/-- Adjacent segments join. -/
theorem segment_append {first middle last : Nat} (hmiddle : middle ≤ last)
    (hlast : last ≤ payloads.length) (hfirst : first ≤ middle) :
    segment payloads first middle ++ segment payloads middle last =
      segment payloads first last := by
  have hsplit : payloads.take last =
      payloads.take middle ++ (payloads.take last).drop middle := by
    conv_lhs => rw [← List.take_append_drop middle (payloads.take last)]
    rw [List.take_take, Nat.min_eq_left hmiddle]
  rw [segment, segment, segment]
  conv_rhs => rw [hsplit]
  rw [List.drop_append_of_le_length]
  rw [List.length_take]
  omega

end DurableStreams.Log
