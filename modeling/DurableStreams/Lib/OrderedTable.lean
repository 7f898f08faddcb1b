import Mathlib.Order.Defs.LinearOrder
import Mathlib.Data.List.Basic
import Mathlib.Order.Lattice

/-!
# Ordered tables

A table maps keys to values and can be read in key order, as the tables of an embedded database can.
It is a list of entries with strictly increasing keys. `part` is what a table holds under the keys
that pass a test. The lemmas say how writing and removing entries change the parts of a table, so that
tables which keep several collections under different kinds of keys can be reasoned about one
collection at a time.
-/

namespace DurableStreams.Lib

/-- A table: its entries in the order of their keys, each key once. -/
structure OrderedTable (κ β : Type) [LinearOrder κ] where
  entries : List (κ × β)
  sorted : entries.Pairwise fun first second => first.1 < second.1
  deriving DecidableEq

namespace OrderedTable

variable {κ β : Type} [LinearOrder κ]

/-- The table without entries. -/
def empty : OrderedTable κ β := ⟨[], .nil⟩

/-- Put an entry in its place, instead of the one that has its key. -/
def insertEntry (key : κ) (value : β) : List (κ × β) → List (κ × β)
  | [] => [(key, value)]
  | entry :: rest =>
      if key < entry.1 then (key, value) :: entry :: rest
      else if entry.1 < key then entry :: insertEntry key value rest
      else (key, value) :: rest

/-- Nothing but the new entry is added. -/
theorem mem_insert_entry {key : κ} {value : β} {entries : List (κ × β)} {entry : κ × β}
    (h : entry ∈ insertEntry key value entries) : entry = (key, value) ∨ entry ∈ entries := by
  induction entries with
  | nil => exact .inl (List.mem_singleton.mp h)
  | cons first rest ih =>
      unfold insertEntry at h
      split_ifs at h
      · exact (List.mem_cons.mp h).imp_right id
      · rcases List.mem_cons.mp h with rfl | h
        · exact .inr (List.mem_cons_self ..)
        · exact (ih h).imp_right (List.mem_cons_of_mem _)
      · exact (List.mem_cons.mp h).imp_right (List.mem_cons_of_mem _)

/-- The entries stay in order. -/
theorem insert_entry_sorted (key : κ) (value : β) {entries : List (κ × β)}
    (h : entries.Pairwise fun first second => first.1 < second.1) :
    (insertEntry key value entries).Pairwise fun first second => first.1 < second.1 := by
  induction entries with
  | nil => exact List.pairwise_singleton _ _
  | cons first rest ih =>
      obtain ⟨hfirst, hrest⟩ := List.pairwise_cons.mp h
      unfold insertEntry
      split_ifs with hless hgreater
      · refine List.pairwise_cons.mpr ⟨fun entry hentry => ?_, h⟩
        rcases List.mem_cons.mp hentry with rfl | hentry
        · exact hless
        · exact lt_trans hless (hfirst entry hentry)
      · refine List.pairwise_cons.mpr ⟨fun entry hentry => ?_, ih hrest⟩
        rcases mem_insert_entry hentry with rfl | hentry
        · exact hgreater
        · exact hfirst entry hentry
      · have hsame : first.1 = key := le_antisymm (not_lt.mp hless) (not_lt.mp hgreater)
        exact List.pairwise_cons.mpr ⟨fun entry hentry => hsame ▸ hfirst entry hentry, hrest⟩

/-- Write an entry. -/
def insert (key : κ) (value : β) (table : OrderedTable κ β) : OrderedTable κ β :=
  ⟨insertEntry key value table.entries, insert_entry_sorted key value table.sorted⟩

/-- Remove an entry. -/
def remove (key : κ) (table : OrderedTable κ β) : OrderedTable κ β :=
  ⟨table.entries.filter fun entry => entry.1 ≠ key, table.sorted.filter _⟩

/-- Remove several entries, one after the other. -/
def removeAll (keys : List κ) (table : OrderedTable κ β) : OrderedTable κ β :=
  keys.foldl (fun table key => table.remove key) table

/-- The entries whose keys pass a test, in order. -/
def part (keep : κ → Bool) (table : OrderedTable κ β) : List (κ × β) :=
  table.entries.filter fun entry => keep entry.1

/-- The entries with keys between two keys, both included, in order. -/
def range (low high : κ) (table : OrderedTable κ β) : List (κ × β) :=
  table.part fun key => low ≤ key ∧ key ≤ high

variable {table : OrderedTable κ β} {keep : κ → Bool} {key : κ} {value : β}

/-- A written entry is there. -/
theorem mem_insert_self (key : κ) (value : β) (table : OrderedTable κ β) :
    (key, value) ∈ (table.insert key value).entries := by
  suffices h : ∀ entries : List (κ × β), (key, value) ∈ insertEntry key value entries from h _
  intro entries
  induction entries with
  | nil => exact List.mem_cons_self ..
  | cons entry rest ih =>
      unfold insertEntry
      split_ifs
      · exact List.mem_cons_self ..
      · exact List.mem_cons_of_mem _ ih
      · exact List.mem_cons_self ..

/-- The entries of a part are those of the table that pass the test. -/
theorem mem_part {entry : κ × β} :
    entry ∈ table.part keep ↔ entry ∈ table.entries ∧ keep entry.1 = true := List.mem_filter

/-- An entry behind all others is written at the end. -/
theorem insert_entry_of_forall_lt {entries : List (κ × β)} (h : ∀ entry ∈ entries, entry.1 < key) :
    insertEntry key value entries = entries ++ [(key, value)] := by
  induction entries with
  | nil => rfl
  | cons first rest ih =>
      have hfirst := h first (List.mem_cons_self ..)
      rw [insertEntry, if_neg (lt_asymm hfirst), if_pos hfirst,
        ih fun entry hentry => h entry (List.mem_cons_of_mem _ hentry), List.cons_append]

/-- An entry before all others is written at the front. -/
theorem insert_entry_of_forall_gt {entries : List (κ × β)} (h : ∀ entry ∈ entries, key < entry.1) :
    insertEntry key value entries = (key, value) :: entries := by
  cases entries with
  | nil => rfl
  | cons first rest => rw [insertEntry, if_pos (h first (List.mem_cons_self ..))]

/-- Writing an entry whose key passes the test is writing it into the part. -/
theorem filter_insert_entry {entries : List (κ × β)}
    (h : entries.Pairwise fun first second => first.1 < second.1) (hkeep : keep key = true) :
    (insertEntry key value entries).filter (fun entry => keep entry.1) =
      insertEntry key value (entries.filter fun entry => keep entry.1) := by
  induction entries with
  | nil => simp [insertEntry, hkeep]
  | cons first rest ih =>
      obtain ⟨hfirst, hrest⟩ := List.pairwise_cons.mp h
      rw [insertEntry]
      split_ifs with hless hgreater
      · have hbefore : ∀ entry ∈ (first :: rest).filter fun entry => keep entry.1,
            key < entry.1 := by
          intro entry hentry
          rcases List.mem_cons.mp (List.mem_filter.mp hentry).1 with rfl | hentry
          · exact hless
          · exact lt_trans hless (hfirst entry hentry)
        rw [insert_entry_of_forall_gt hbefore, List.filter_cons, if_pos hkeep]
      · cases hkept : keep first.1 with
        | true =>
            simp only [List.filter_cons, hkept, ↓reduceIte, ih hrest, insertEntry, if_neg hless,
              if_pos hgreater]
        | false => simp only [List.filter_cons, hkept, Bool.false_eq_true, ↓reduceIte, ih hrest]
      · have hsame : first.1 = key := le_antisymm (not_lt.mp hless) (not_lt.mp hgreater)
        have hkept : keep first.1 = true := hsame ▸ hkeep
        simp only [List.filter_cons, hkeep, hkept, ↓reduceIte, insertEntry, if_neg hless,
          if_neg hgreater]

/-- Writing an entry whose key fails the test leaves the part alone. -/
theorem filter_insert_entry_of_not {entries : List (κ × β)} (hkeep : keep key = false) :
    (insertEntry key value entries).filter (fun entry => keep entry.1) =
      entries.filter fun entry => keep entry.1 := by
  induction entries with
  | nil => simp [insertEntry, hkeep]
  | cons first rest ih =>
      rw [insertEntry]
      split_ifs with hless hgreater
      · simp [hkeep]
      · rw [List.filter_cons, List.filter_cons, ih]
      · have hsame : first.1 = key := le_antisymm (not_lt.mp hless) (not_lt.mp hgreater)
        simp [hsame, hkeep]

/-- A part grows at its end by an entry behind all its entries. -/
theorem part_insert_last (hkeep : keep key = true) (h : ∀ entry ∈ table.part keep, entry.1 < key) :
    (table.insert key value).part keep = table.part keep ++ [(key, value)] :=
  (filter_insert_entry table.sorted hkeep).trans (insert_entry_of_forall_lt h)

/-- Other parts do not change. -/
theorem part_insert_other (hkeep : keep key = false) :
    (table.insert key value).part keep = table.part keep := filter_insert_entry_of_not hkeep

/-- What is left after removing several entries. -/
theorem remove_all_entries (keys : List κ) (table : OrderedTable κ β) :
    (table.removeAll keys).entries = table.entries.filter fun entry => entry.1 ∉ keys := by
  induction keys generalizing table with
  | nil => simp [removeAll]
  | cons key keys ih =>
      have hnext := ih (table.remove key)
      rw [removeAll] at hnext
      rw [removeAll, List.foldl_cons, hnext, remove, List.filter_filter]
      refine List.filter_congr fun entry _ => ?_
      rw [Bool.and_comm, ← Bool.decide_and]
      exact decide_eq_decide.mpr (by rw [List.mem_cons, not_or])

/-- A part is empty once all its keys are removed. -/
theorem part_remove_all {keys : List κ}
    (h : ∀ entry ∈ table.part keep, entry.1 ∈ keys) : (table.removeAll keys).part keep = [] := by
  rw [part, remove_all_entries, List.filter_filter, List.filter_eq_nil_iff]
  intro entry hentry hboth
  obtain ⟨hkept, hnot⟩ := Bool.and_eq_true_iff.mp hboth
  exact of_decide_eq_true hnot (h entry (mem_part.mpr ⟨hentry, hkept⟩))

/-- Removing keys that fail the test leaves the part alone. -/
theorem part_remove_all_other {keys : List κ} (h : ∀ key ∈ keys, keep key = false) :
    (table.removeAll keys).part keep = table.part keep := by
  rw [part, remove_all_entries, List.filter_filter]
  refine List.filter_congr fun entry _ => ?_
  rw [Bool.and_eq_left_iff_imp]
  intro hkept
  exact decide_eq_true fun hmem => by simp [h _ hmem] at hkept

end OrderedTable

end DurableStreams.Lib
