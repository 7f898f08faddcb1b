import Mathlib.Data.List.Basic

/-!
# Lines of a text

A text is a list over any alphabet with a carriage return and a line feed. A line ends at a carriage
return, at a line feed, or at both in this order. The text is read left to right, and a flag says
whether the symbol before was a carriage return, so that a line feed behind it ends no other line.

`breakLines` cuts a text into its lines, `countBreaks` counts the line ends and `normalizeBreaks`
writes each as a line feed. A text goes through an encoding of its symbols line by line
(`break_lines_flat_map`), and lines that were written with a line feed each are read back whatever
comes behind them (`break_lines_unlines`).
-/

namespace DurableStreams.Lib

variable {α β : Type} [DecidableEq α] [DecidableEq β] (cr lf : α)

/-- The lines of a text, without their ends. What is behind the last end is a line, too. -/
def breakLines : Bool → List α → List (List α)
  | _, [] => [[]]
  | afterCr, symbol :: rest =>
      if symbol = lf then
        if afterCr then breakLines false rest else [] :: breakLines false rest
      else if symbol = cr then [] :: breakLines true rest
      else (breakLines false rest).modifyHead (symbol :: ·)

/-- The number of line ends. -/
def countBreaks : Bool → List α → Nat
  | _, [] => 0
  | afterCr, symbol :: rest =>
      if symbol = lf then
        if afterCr then countBreaks false rest else countBreaks false rest + 1
      else if symbol = cr then countBreaks true rest + 1
      else countBreaks false rest

/-- The text with a line feed for every line end. -/
def normalizeBreaks : Bool → List α → List α
  | _, [] => []
  | afterCr, symbol :: rest =>
      if symbol = lf then
        if afterCr then normalizeBreaks false rest else lf :: normalizeBreaks false rest
      else if symbol = cr then lf :: normalizeBreaks true rest
      else symbol :: normalizeBreaks false rest

/-- Lines with a line feed behind each. -/
def unlines (lines : List (List α)) : List α := lines.flatMap (· ++ [lf])

/-- A text without line ends. -/
def OneLine (text : List α) : Prop := cr ∉ text ∧ lf ∉ text

instance (text : List α) : Decidable (OneLine cr lf text) := inferInstanceAs (Decidable (_ ∧ _))

variable {cr lf} {text line : List α} {symbol : α}

/-- A text has a first line. -/
theorem exists_break_lines (cr lf : α) (afterCr : Bool) (text : List α) :
    ∃ line lines, breakLines cr lf afterCr text = line :: lines := by
  induction text generalizing afterCr with
  | nil => exact ⟨[], [], rfl⟩
  | cons symbol rest ih =>
      rw [breakLines]
      split
      · split
        · exact ih false
        · exact ⟨_, _, rfl⟩
      split
      · exact ⟨_, _, rfl⟩
      · obtain ⟨line, lines, hlines⟩ := ih false
        exact ⟨symbol :: line, lines, by rw [hlines, List.modifyHead_cons]⟩

theorem break_lines_ne_nil (afterCr : Bool) (text : List α) :
    breakLines cr lf afterCr text ≠ [] := by
  obtain ⟨line, lines, hlines⟩ := exists_break_lines cr lf afterCr text
  simp [hlines]

/-- No line has an end in it. -/
theorem one_line_of_mem (afterCr : Bool) (h : line ∈ breakLines cr lf afterCr text) :
    OneLine cr lf line := by
  have hnil : OneLine cr lf ([] : List α) := ⟨List.not_mem_nil, List.not_mem_nil⟩
  induction text generalizing afterCr line with
  | nil =>
      obtain rfl := List.mem_singleton.mp h
      exact hnil
  | cons symbol rest ih =>
      rw [breakLines] at h
      split at h
      · split at h
        · exact ih false h
        · rcases List.mem_cons.mp h with rfl | h
          · exact hnil
          · exact ih false h
      next hlf =>
      split at h
      · rcases List.mem_cons.mp h with rfl | h
        · exact hnil
        · exact ih true h
      next hcr =>
      obtain ⟨first, others, hlines⟩ := exists_break_lines cr lf false rest
      rw [hlines] at h
      rcases List.mem_cons.mp h with rfl | h
      · obtain ⟨hfirst, hfirst'⟩ := ih false (by rw [hlines]; exact List.mem_cons_self ..)
        exact ⟨by simp [Ne.symm hcr, hfirst], by simp [Ne.symm hlf, hfirst']⟩
      · exact ih false (by rw [hlines]; exact List.mem_cons_of_mem _ h)

/-- There is one line more than there are ends. -/
theorem length_break_lines (afterCr : Bool) (text : List α) :
    (breakLines cr lf afterCr text).length = countBreaks cr lf afterCr text + 1 := by
  induction text generalizing afterCr with
  | nil => rfl
  | cons symbol rest ih =>
      rw [breakLines, countBreaks]
      split_ifs <;> simp [ih]

omit [DecidableEq α] in
/-- A symbol in front of lines that are joined. -/
theorem intercalate_modify_head (separator : List α) (symbol : α) {lines : List (List α)}
    (h : lines ≠ []) :
    separator.intercalate (lines.modifyHead (symbol :: ·)) =
      symbol :: separator.intercalate lines := by
  obtain ⟨line, rest, rfl⟩ := List.exists_cons_of_ne_nil h
  cases rest with
  | nil => simp [List.intercalate]
  | cons next rest => simp [List.intercalate, List.intersperse]

omit [DecidableEq α] in
/-- What joined lines are made of. -/
theorem forall_mem_intercalate {P : α → Prop} {separator : List α} {lines : List (List α)}
    (hseparator : ∀ symbol ∈ separator, P symbol) (hlines : ∀ line ∈ lines, ∀ symbol ∈ line, P symbol) :
    ∀ symbol ∈ separator.intercalate lines, P symbol := by
  induction lines with
  | nil => simp
  | cons line lines ih =>
      rw [List.forall_mem_cons] at hlines
      by_cases hrest : lines = []
      · rw [hrest, List.intercalate_singleton]
        exact hlines.1
      rw [List.intercalate_cons_of_ne_nil hrest]
      intro symbol hsymbol
      simp only [List.mem_append] at hsymbol
      rcases hsymbol with (hsymbol | hsymbol) | hsymbol
      · exact hlines.1 symbol hsymbol
      · exact hseparator symbol hsymbol
      · exact ih hlines.2 symbol hsymbol

omit [DecidableEq α] [DecidableEq β] in
/-- Lines may be joined before or after their symbols are encoded. -/
theorem intercalate_flat_map (encode : α → List β) (separator : List α) (lines : List (List α)) :
    (separator.flatMap encode).intercalate (lines.map (·.flatMap encode)) =
      (separator.intercalate lines).flatMap encode := by
  induction lines with
  | nil => simp
  | cons line lines ih =>
      by_cases hrest : lines = []
      · simp [hrest]
      rw [List.map_cons, List.intercalate_cons_of_ne_nil hrest,
        List.intercalate_cons_of_ne_nil (by simpa using hrest), ih]
      simp

/-- The lines joined by line feeds are the text with every end written as one. -/
theorem intercalate_break_lines (afterCr : Bool) (text : List α) :
    [lf].intercalate (breakLines cr lf afterCr text) = normalizeBreaks cr lf afterCr text := by
  induction text generalizing afterCr with
  | nil => rfl
  | cons symbol rest ih =>
      rw [breakLines, normalizeBreaks]
      split
      · split
        · exact ih false
        · rw [List.intercalate_cons_of_ne_nil (break_lines_ne_nil false rest), ih]
          rfl
      split
      · rw [List.intercalate_cons_of_ne_nil (break_lines_ne_nil true rest), ih]
        rfl
      · rw [intercalate_modify_head _ _ (break_lines_ne_nil false rest), ih]

/-- Which of the three forms an end has does not matter for the lines. -/
theorem break_lines_normalize (afterCr : Bool) (text : List α) :
    breakLines cr lf false (normalizeBreaks cr lf afterCr text) = breakLines cr lf afterCr text := by
  induction text generalizing afterCr with
  | nil => rfl
  | cons symbol rest ih =>
      rw [normalizeBreaks, breakLines.eq_2 cr lf afterCr symbol rest]
      split
      · split
        · exact ih false
        · rw [breakLines, if_pos rfl, if_neg Bool.false_ne_true, ih]
      next hlf =>
      split
      · rw [breakLines, if_pos rfl, if_neg Bool.false_ne_true, ih]
      next hcr => rw [breakLines, if_neg hlf, if_neg hcr, ih]

/-- The flag only matters for a line feed. -/
theorem break_lines_after_cr (h : text.head? ≠ some lf) :
    breakLines cr lf true text = breakLines cr lf false text := by
  cases text with
  | nil => rfl
  | cons symbol rest =>
      have hne : symbol ≠ lf := fun heq => h (by rw [heq, List.head?_cons])
      rw [breakLines, breakLines, if_neg hne, if_neg hne]

/-- Symbols that end no line extend the first one. -/
theorem break_lines_append (hline : OneLine cr lf line) (text : List α) :
    breakLines cr lf false (line ++ text) =
      (breakLines cr lf false text).modifyHead (line ++ ·) := by
  induction line with
  | nil =>
      obtain ⟨first, others, hlines⟩ := exists_break_lines cr lf false text
      rw [List.nil_append, hlines]
      rfl
  | cons symbol line ih =>
      obtain ⟨hcr, hlf⟩ := hline
      rw [List.mem_cons, not_or] at hcr hlf
      rw [List.cons_append, breakLines, if_neg (Ne.symm hlf.1), if_neg (Ne.symm hcr.1),
        ih ⟨hcr.2, hlf.2⟩, List.modifyHead_modifyHead]
      rfl

/-- Lines that were written with a line feed each are read back. -/
theorem break_lines_unlines {lines : List (List α)} (h : ∀ line ∈ lines, OneLine cr lf line)
    (text : List α) :
    breakLines cr lf false (unlines lf lines ++ text) = lines ++ breakLines cr lf false text := by
  induction lines with
  | nil => rfl
  | cons line lines ih =>
      have hrest := ih fun other hother => h other (List.mem_cons_of_mem _ hother)
      have hend : breakLines cr lf false (lf :: (unlines lf lines ++ text)) =
          [] :: (lines ++ breakLines cr lf false text) := by
        rw [breakLines, if_pos rfl, if_neg Bool.false_ne_true, hrest]
      have hsplit : unlines lf (line :: lines) ++ text =
          line ++ lf :: (unlines lf lines ++ text) := by
        simp [unlines]
      rw [hsplit, break_lines_append (h line (List.mem_cons_self ..)), hend, List.modifyHead_cons,
        List.append_nil, List.cons_append]

/-- An encoding of the symbols keeps the lines, if the two ends are encoded as the two ends and no
other symbol has an end in its code. -/
theorem break_lines_flat_map {cr' lf' : β} {encode : α → List β} (hcr : encode cr = [cr'])
    (hlf : encode lf = [lf']) (hends : cr' ≠ lf')
    (hother : ∀ symbol, symbol ≠ cr → symbol ≠ lf →
      encode symbol ≠ [] ∧ OneLine cr' lf' (encode symbol))
    (afterCr : Bool) (text : List α) :
    breakLines cr' lf' afterCr (text.flatMap encode) =
      (breakLines cr lf afterCr text).map (·.flatMap encode) := by
  induction text generalizing afterCr with
  | nil => rfl
  | cons symbol rest ih =>
      rw [List.flatMap_cons, breakLines.eq_2 cr lf afterCr symbol rest]
      split
      · next heq =>
          rw [heq, hlf, List.singleton_append, breakLines, if_pos rfl]
          split
          · exact ih false
          · rw [List.map_cons, ih]
            rfl
      next hnlf =>
      split
      · next heq =>
          rw [heq, hcr, List.singleton_append, breakLines, if_neg hends, if_pos rfl, ih,
            List.map_cons]
          rfl
      next hncr =>
      obtain ⟨hne, hcode⟩ := hother symbol hncr hnlf
      obtain ⟨first, code, hfirst⟩ := List.exists_cons_of_ne_nil hne
      obtain ⟨line, lines, hlines⟩ := exists_break_lines cr lf false rest
      -- The flag is gone once the first symbol of the code was read.
      have hflag : breakLines cr' lf' afterCr (encode symbol ++ rest.flatMap encode) =
          breakLines cr' lf' false (encode symbol ++ rest.flatMap encode) := by
        rw [hfirst] at hcode ⊢
        have hne' : first ≠ lf' := fun heq => hcode.2 (by rw [heq]; exact List.mem_cons_self ..)
        rw [List.cons_append, breakLines, breakLines, if_neg hne', if_neg hne']
      rw [hflag, break_lines_append hcode, ih, hlines]
      simp

end DurableStreams.Lib
