import Mathlib.Data.List.Basic
import Mathlib.Data.String.Basic

/-!
# Stream offsets

The offset type of `protocol/offset.rs`: two sentinels and a concrete pair of a read sequence
number and a byte offset, kept together with its canonical text `{read_seq:016x}_{byte_offset:016x}`.
Two concrete offsets are compared as pairs, any other two by their text. `Offset.cmp_new_lt_iff`
reduces the comparison of concrete offsets to arithmetic.
-/

namespace DurableStreams

/-- The lower-case hexadecimal digits, as ASCII bytes. -/
def hexDigit (digit : Nat) : UInt8 :=
  (if digit < 10 then 48 + digit else 87 + digit).toUInt8

/-- The sixteen hexadecimal digits of a 64-bit value, most significant first. -/
def encodeHex16 (value : Nat) : List UInt8 :=
  (List.range 16).map fun i => hexDigit ((value >>> ((15 - i) * 4)) &&& 0xF)

/-- The 33 bytes of a concrete offset: both components in hexadecimal, joined by `_`. -/
def encodeOffset (readSeq byteOffset : Nat) : List UInt8 :=
  encodeHex16 readSeq ++ [95] ++ encodeHex16 byteOffset

/-- A validated offset: the start and tail sentinels, or a concrete position with its text. -/
inductive Offset where
  | start
  | now
  | concrete (readSeq byteOffset : Nat) (raw : List UInt8)
  deriving DecidableEq, Repr

namespace Offset

/-- Create an offset from a read sequence number and a byte offset. -/
def new (readSeq byteOffset : Nat) : Offset :=
  .concrete readSeq byteOffset (encodeOffset readSeq byteOffset)

/-- Whether this is the start sentinel. -/
def isStart : Offset → Bool
  | .start => true
  | _ => false

/-- Whether this is the tail sentinel. -/
def isNow : Offset → Bool
  | .now => true
  | _ => false

/-- The canonical offset text. -/
def asStr : Offset → String
  | .start => "-1"
  | .now => "now"
  | .concrete _ _ raw => String.ofList (raw.map fun byte => Char.ofNat byte.toNat)

/-- The components of a concrete offset; sentinels have none. -/
def parseComponents : Offset → Option (Nat × Nat)
  | .concrete readSeq byteOffset _ => some (readSeq, byteOffset)
  | .start | .now => none

/-- `Ord for Offset`: concrete offsets compare as pairs, all others by their text. -/
def cmp (left right : Offset) : Ordering :=
  match left.parseComponents, right.parseComponents with
  | some (leftSeq, leftByte), some (rightSeq, rightByte) =>
      (compare leftSeq rightSeq).then (compare leftByte rightByte)
  | _, _ => compare left.asStr right.asStr

/-- Concrete offsets with the same components are the same value. -/
@[simp] theorem new_inj {seq byte seq' byte' : Nat} :
    new seq byte = new seq' byte' ↔ seq = seq' ∧ byte = byte' := by
  constructor
  · intro h
    injection h with hseq hbyte
    exact ⟨hseq, hbyte⟩
  · rintro ⟨rfl, rfl⟩
    rfl

/-- Concrete offsets are ordered lexicographically by their components. -/
theorem cmp_new_lt_iff {seq byte seq' byte' : Nat} {raw : List UInt8} :
    cmp (new seq byte) (.concrete seq' byte' raw) = .lt ↔
      seq < seq' ∨ seq = seq' ∧ byte < byte' := by
  simp only [cmp, new, parseComponents, Ordering.then_eq_lt, Nat.compare_eq_lt, Nat.compare_eq_eq]

/-- The greater side of the lexicographic order on components. -/
theorem cmp_new_gt_iff {seq byte seq' byte' : Nat} {raw : List UInt8} :
    cmp (new seq byte) (.concrete seq' byte' raw) = .gt ↔
      seq' < seq ∨ seq = seq' ∧ byte' < byte := by
  simp only [cmp, new, parseComponents, Ordering.then_eq_gt, Nat.compare_eq_gt, Nat.compare_eq_eq]

/-- Every hexadecimal digit is a character after the sign and before the letter `n`. -/
theorem hex_digit_char {digit : Nat} (h : digit < 16) :
    '-' < Char.ofNat (hexDigit digit).toNat ∧ Char.ofNat (hexDigit digit).toNat < 'n' := by
  decide +revert

/-- The text of a concrete offset starts with a hexadecimal digit. -/
theorem as_str_new (readSeq byteOffset : Nat) :
    ∃ digit < 16, ∃ rest, (new readSeq byteOffset).asStr.toList =
      Char.ofNat (hexDigit digit).toNat :: rest := by
  refine ⟨(readSeq >>> 60) &&& 0xF, Nat.lt_of_le_of_lt Nat.and_le_right (by decide), ?_⟩
  exact ⟨_, by simp [new, asStr, encodeOffset, encodeHex16, List.range_succ_eq_map]; rfl⟩

/-- The start sentinel precedes every concrete offset. -/
theorem cmp_new_start (readSeq byteOffset : Nat) : cmp (new readSeq byteOffset) .start = .gt := by
  obtain ⟨digit, hdigit, rest, htext⟩ := as_str_new readSeq byteOffset
  have hlt : start.asStr < (new readSeq byteOffset).asStr := by
    rw [String.lt_iff_toList_lt, htext]
    exact List.cons_lt_cons_iff.mpr (.inl (hex_digit_char hdigit).1)
  exact compare_gt_iff_gt.mpr hlt

/-- The tail sentinel follows every concrete offset. -/
theorem cmp_new_now (readSeq byteOffset : Nat) : cmp (new readSeq byteOffset) .now = .lt := by
  obtain ⟨digit, hdigit, rest, htext⟩ := as_str_new readSeq byteOffset
  have hlt : (new readSeq byteOffset).asStr < now.asStr := by
    rw [String.lt_iff_toList_lt, htext]
    exact List.cons_lt_cons_iff.mpr (.inl (hex_digit_char hdigit).2)
  exact compare_lt_iff_lt.mpr hlt

end Offset

example : (Offset.new 1 42).asStr = "0000000000000001_000000000000002a" := by decide

end DurableStreams
