import DurableStreams.Protocol.Sse
import DurableStreams.Protocol.Text

/-!
# Splitting a text into lines

`split_lines` walks through the bytes of a text and slices it at every line end. The loop cuts the
bytes into their lines (`split_lines_eq`), and since a line end is a byte of ASCII, the text is only
sliced between characters (`split_lines_checked_eq`), so that the slicing does not panic and the
pieces are texts again.
-/

namespace DurableStreams

open Lib

section Lines

variable {bytes : Bytes} {start i : Nat}

/-- One byte more of a slice. -/
theorem drop_take_succ (hstart : start ≤ i) (hi : i < bytes.length) :
    (bytes.take (i + 1)).drop start = (bytes.take i).drop start ++ [bytes[i]] := by
  have hlength : start ≤ (bytes.take i).length := by
    rw [List.length_take]
    omega
  rw [List.take_succ_eq_append_getElem hi, List.drop_append_of_le_length hlength]

/-- The loop goes on with the lines of the rest, the first of which has begun at `start`. -/
theorem split_lines_from_eq (lines : List Bytes) (hstart : start ≤ i) (hi : i ≤ bytes.length) :
    splitLinesFrom bytes start i lines =
      lines ++ (breakLines 13 10 false (bytes.drop i)).modifyHead ((bytes.take i).drop start ++ ·) := by
  have hslice (stop : Nat) : (bytes.take stop).drop stop = [] := by
    rw [List.drop_eq_nil_iff, List.length_take]
    omega
  -- Behind a line end the next line is empty so far.
  have hfresh (stop : Nat) (rest : List Bytes) :
      rest.modifyHead ((bytes.take stop).drop stop ++ ·) = rest := by
    rw [hslice]
    cases rest <;> rfl
  fun_induction splitLinesFrom bytes start i lines with
  | case1 start i lines hlt hcr hlf ih =>
      have hnext : i + 1 < bytes.length := by
        by_contra hge
        rw [List.getElem?_eq_none (by omega)] at hlf
        cases hlf
      have hget : bytes[i + 1] = 10 := by
        rw [List.getElem?_eq_getElem hnext] at hlf
        exact Option.some.inj hlf
      rw [ih (by omega) (by omega), hfresh, List.drop_eq_getElem_cons hlt, hcr,
        List.drop_eq_getElem_cons hnext, hget]
      simp [breakLines]
  | case2 start i lines hlt hcr hlf ih =>
      have hhead : (bytes.drop (i + 1)).head? ≠ some 10 := by
        rw [List.head?_drop]
        exact hlf
      rw [ih (by omega) (by omega), hfresh, List.drop_eq_getElem_cons hlt, hcr, breakLines,
        if_neg (by decide), if_pos rfl, break_lines_after_cr hhead]
      simp
  | case3 start i lines hlt hcr hlf ih =>
      rw [ih (by omega) (by omega), hfresh, List.drop_eq_getElem_cons hlt, hlf, breakLines,
        if_pos rfl, if_neg Bool.false_ne_true]
      simp
  | case4 start i lines hlt hcr hlf ih =>
      obtain ⟨line, rest, hlines⟩ := exists_break_lines 13 10 false (bytes.drop (i + 1))
      rw [ih (by omega) (by omega), List.drop_eq_getElem_cons hlt, breakLines, if_neg hlf,
        if_neg hcr, hlines, drop_take_succ hstart hlt]
      simp
  | case5 start i lines hge =>
      obtain rfl : i = bytes.length := by omega
      simp [breakLines]

/-- `split_lines` returns the lines of the bytes. -/
theorem split_lines_eq (text : Bytes) : splitLines text = breakLines 13 10 false text := by
  obtain ⟨line, lines, hlines⟩ := exists_break_lines 13 10 false text
  rw [splitLines, split_lines_from_eq [] (Nat.le_refl 0) (Nat.zero_le _), List.drop_zero,
    List.drop_zero, hlines]
  rfl

/-! ## Slicing -/

/-- `str::is_char_boundary`. -/
def isCharBoundary (text : Bytes) (index : Nat) : Bool :=
  index == 0 || index == text.length || text[index]?.any fun byte => !isContinuation byte

/-- `&text[start..stop]`, or `none` when the slicing panics. -/
def sliceStr (text : Bytes) (start stop : Nat) : Option Bytes :=
  if start ≤ stop ∧ isCharBoundary text start = true ∧ isCharBoundary text stop = true then
    some ((text.take stop).drop start)
  else none

/-- The loop of `split_lines`, or `none` when a slicing in it panics. -/
def splitLinesCheckedFrom (bytes : Bytes) (start i : Nat) (lines : List Bytes) :
    Option (List Bytes) :=
  if h : i < bytes.length then
    if bytes[i] = 13 then
      match sliceStr bytes start i with
      | none => none
      | some line =>
          if bytes[i + 1]? = some 10 then
            splitLinesCheckedFrom bytes (i + 2) (i + 2) (lines ++ [line])
          else splitLinesCheckedFrom bytes (i + 1) (i + 1) (lines ++ [line])
    else if bytes[i] = 10 then
      match sliceStr bytes start i with
      | none => none
      | some line => splitLinesCheckedFrom bytes (i + 1) (i + 1) (lines ++ [line])
    else splitLinesCheckedFrom bytes start (i + 1) lines
  else
    match sliceStr bytes start bytes.length with
    | none => none
    | some line => some (lines ++ [line])
termination_by bytes.length - i

/-- `split_lines`, or `none` when it panics. -/
def splitLinesChecked (text : Bytes) : Option (List Bytes) := splitLinesCheckedFrom text 0 0 []

/-- Every byte of ASCII ends a character. -/
def AsciiAligned (bytes : Bytes) : Prop :=
  ∀ i (h : i < bytes.length), bytes[i].toNat < 128 → isCharBoundary bytes (i + 1) = true

/-- This holds of texts. -/
theorem str_bytes_ascii_aligned (text : String) : AsciiAligned (strBytes text) := by
  intro i hi hascii
  rcases Nat.lt_or_ge (i + 1) (strBytes text).length with hnext | hlast
  · have hsplit : utf8Encode text.toList =
        (strBytes text).take i ++ (strBytes text)[i] :: (strBytes text).drop (i + 1) := by
      rw [← str_bytes_eq, List.cons_getElem_drop_succ, List.take_append_drop]
    have hback := follows_ascii hsplit hascii
    rw [List.head?_drop, List.getElem?_eq_getElem hnext] at hback
    simp [isCharBoundary, hnext, hback _ rfl]
  · have heq : i + 1 = (strBytes text).length := by omega
    simp [isCharBoundary, heq]

/-- Slicing between characters. -/
theorem slice_str_eq (hle : start ≤ i) (hstart : isCharBoundary bytes start = true)
    (hi : isCharBoundary bytes i = true) :
    sliceStr bytes start i = some ((bytes.take i).drop start) :=
  if_pos ⟨hle, hstart, hi⟩

/-- No slicing in the loop panics: the current line begins between characters, and so does every line
end. -/
theorem split_lines_checked_from_eq (haligned : AsciiAligned bytes) (lines : List Bytes)
    (hle : start ≤ i) (hi : i ≤ bytes.length) (hstart : isCharBoundary bytes start = true) :
    splitLinesCheckedFrom bytes start i lines = some (splitLinesFrom bytes start i lines) := by
  have hhere {i : Nat} (hlt : i < bytes.length) (hascii : bytes[i].toNat < 128) :
      isCharBoundary bytes i = true := by
    have hbyte : isContinuation bytes[i] = false := by
      simp only [isContinuation, Bool.and_eq_false_iff, decide_eq_false_iff_not]
      omega
    simp [isCharBoundary, hlt, hbyte]
  fun_induction splitLinesFrom bytes start i lines with
  | case1 start i lines hlt hcr hlf ih =>
      have hnext : i + 1 < bytes.length := by
        by_contra hge
        rw [List.getElem?_eq_none (by omega)] at hlf
        cases hlf
      have hget : bytes[i + 1] = 10 := by
        rw [List.getElem?_eq_getElem hnext] at hlf
        exact Option.some.inj hlf
      have hend := haligned (i + 1) hnext (by rw [hget]; decide)
      rw [splitLinesCheckedFrom, dif_pos hlt, if_pos hcr,
        slice_str_eq hle hstart (hhere hlt (by rw [hcr]; decide))]
      dsimp only
      rw [if_pos hlf, ih (Nat.le_refl _) (by omega) hend]
  | case2 start i lines hlt hcr hlf ih =>
      have hend := haligned i hlt (by rw [hcr]; decide)
      rw [splitLinesCheckedFrom, dif_pos hlt, if_pos hcr,
        slice_str_eq hle hstart (hhere hlt (by rw [hcr]; decide))]
      dsimp only
      rw [if_neg hlf, ih (Nat.le_refl _) (by omega) hend]
  | case3 start i lines hlt hcr hlf ih =>
      have hend := haligned i hlt (by rw [hlf]; decide)
      rw [splitLinesCheckedFrom, dif_pos hlt, if_neg hcr, if_pos hlf,
        slice_str_eq hle hstart (hhere hlt (by rw [hlf]; decide))]
      dsimp only
      rw [ih (Nat.le_refl _) (by omega) hend]
  | case4 start i lines hlt hcr hlf ih =>
      rw [splitLinesCheckedFrom, dif_pos hlt, if_neg hcr, if_neg hlf, ih (by omega) (by omega) hstart]
  | case5 start i lines hge =>
      have hend : isCharBoundary bytes bytes.length = true := by simp [isCharBoundary]
      rw [splitLinesCheckedFrom, dif_neg hge, slice_str_eq (by omega) hstart hend, List.take_length]

end Lines

/-- `split_lines` does not panic on a text. -/
theorem split_lines_checked_eq (text : String) :
    splitLinesChecked (strBytes text) = some (splitLines (strBytes text)) :=
  split_lines_checked_from_eq (str_bytes_ascii_aligned text) [] (Nat.le_refl 0) (Nat.zero_le _)
    (by simp [isCharBoundary])

/-! ## Texts -/

/-- The lines of a text. -/
def linesOf (text : String) : List String :=
  (breakLines '\r' '\n' false text.toList).map String.ofList

/-- The number of line ends of a text, where a carriage return and the line feed behind it are one. -/
def lineEnds (text : String) : Nat := countBreaks '\r' '\n' false text.toList

/-- The text with every line end written as a line feed. -/
def normalizeLines (text : String) : String :=
  String.ofList (normalizeBreaks '\r' '\n' false text.toList)

/-- The bytes of the lines are the lines of the bytes. -/
theorem split_lines_str_bytes (text : String) :
    splitLines (strBytes text) = (linesOf text).map strBytes := by
  rw [split_lines_eq, str_bytes_eq, break_lines_utf8, linesOf, List.map_map]
  refine List.map_congr_left fun line _ => ?_
  rw [Function.comp_apply, str_bytes_eq, String.toList_ofList]

/-- `split_lines` agrees with its specification on every text. It does not panic, its pieces are the
lines of the text, and splitting the text with line feeds for all line ends gives the same pieces. -/
theorem split_lines_spec (text : String) :
    ∃ pieces : List String,
      splitLinesChecked (strBytes text) = some (pieces.map strBytes) ∧
      splitLines (strBytes text) = pieces.map strBytes ∧
      (∀ piece ∈ pieces, '\r' ∉ piece.toList ∧ '\n' ∉ piece.toList) ∧
      pieces.length = lineEnds text + 1 ∧
      ['\n'].intercalate (pieces.map String.toList) = (normalizeLines text).toList ∧
      splitLinesChecked (strBytes (normalizeLines text)) = some (pieces.map strBytes) := by
  refine ⟨linesOf text, ?_, split_lines_str_bytes text, ?_, ?_, ?_, ?_⟩
  · rw [split_lines_checked_eq, split_lines_str_bytes]
  · intro piece hpiece
    obtain ⟨line, hline, rfl⟩ := List.mem_map.mp hpiece
    rw [String.toList_ofList]
    exact one_line_of_mem false hline
  · rw [linesOf, List.length_map, length_break_lines, lineEnds]
  · have hchars : (linesOf text).map String.toList = breakLines '\r' '\n' false text.toList := by
      simp [linesOf, Function.comp_def]
    rw [hchars, intercalate_break_lines, normalizeLines, String.toList_ofList]
  · have hlines : linesOf (normalizeLines text) = linesOf text := by
      rw [linesOf, normalizeLines, String.toList_ofList, break_lines_normalize, linesOf]
    rw [split_lines_checked_eq, split_lines_str_bytes, hlines]

example : linesOf "a\r\r\nb\n" = ["a", "", "b", ""] := by decide +kernel

end DurableStreams
