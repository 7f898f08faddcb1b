import Mathlib.Data.Finmap
import Mathlib.Algebra.BigOperators.Group.Multiset.Basic
import Mathlib.Algebra.Order.BigOperators.Group.List
import Mathlib.Algebra.Order.Group.Nat
import Mathlib.Algebra.Ring.Nat

/-!
# Finite maps with totals

Mathlib's `Finmap` is extensional, so two hash maps with the same contents are equal. This module
adds what an accounting argument needs: `retain` keeps the entries whose value passes a test, and
`total` sums a measure over all entries. `total_insert` and `total_erase` say how a total moves
when one entry is replaced or removed. `Rel` compares two maps key by key.
-/

namespace DurableStreams.Lib

variable {κ α : Type} [DecidableEq κ]

/-- A finite map from keys to values of one type. -/
abbrev FiniteMap (κ α : Type) := Finmap fun _ : κ => α

namespace FiniteMap

/-- Reading one key after writing another, as a single conditional. -/
theorem lookup_insert_ite (map : FiniteMap κ α) (key other : κ) (value : α) :
    (map.insert key value).lookup other = if other = key then some value else map.lookup other := by
  split
  · next h => rw [h, Finmap.lookup_insert]
  · next h => exact Finmap.lookup_insert_of_ne map h

/-- Reading one key after removing another, as a single conditional. -/
theorem lookup_erase_ite (map : FiniteMap κ α) (key other : κ) :
    (map.erase key).lookup other = if other = key then none else map.lookup other := by
  split
  · next h => rw [h, Finmap.lookup_erase]
  · next h => exact Finmap.lookup_erase_ne h

/-- Writing back the value that is already there changes nothing. -/
theorem insert_lookup {map : FiniteMap κ α} {key : κ} {value : α}
    (h : map.lookup key = some value) : map.insert key value = map := by
  refine Finmap.ext_lookup fun other => ?_
  rw [lookup_insert_ite]
  split
  · next heq => rw [heq, h]
  · rfl

/-- Removing a key and writing it again is the same as writing it. -/
theorem insert_erase (map : FiniteMap κ α) (key : κ) (value : α) :
    (map.erase key).insert key value = map.insert key value := by
  refine Finmap.ext_lookup fun other => ?_
  simp only [lookup_insert_ite, lookup_erase_ite]
  split <;> rfl

/-- Writing a key and removing it again is the same as removing it. -/
theorem erase_insert (map : FiniteMap κ α) (key : κ) (value : α) :
    (map.insert key value).erase key = map.erase key := by
  refine Finmap.ext_lookup fun other => ?_
  simp only [lookup_insert_ite, lookup_erase_ite]
  split <;> rfl

/-- Removing an absent key changes nothing. -/
theorem erase_of_lookup_none {map : FiniteMap κ α} {key : κ} (h : map.lookup key = none) :
    map.erase key = map := by
  refine Finmap.ext_lookup fun other => ?_
  rw [lookup_erase_ite]
  split
  · next heq => rw [heq, h]
  · rfl

/-- A partial function with finitely many keys is a map. -/
theorem exists_of_keys {β : Type} (keys : List κ) (value : κ → Option β)
    (hkeys : ∀ key, (value key).isSome → key ∈ keys) :
    ∃ map : FiniteMap κ β, ∀ key, map.lookup key = value key := by
  induction keys generalizing value with
  | nil =>
      refine ⟨∅, fun key => ?_⟩
      rw [Finmap.lookup_empty, eq_comm, ← Option.not_isSome_iff_eq_none]
      exact fun h => List.not_mem_nil (hkeys key h)
  | cons first keys ih =>
      obtain ⟨map, hmap⟩ := ih (fun key => if key = first then none else value key) fun key hkey => by
        split at hkey
        · simp at hkey
        · next hne => exact (List.mem_cons.mp (hkeys key hkey)).resolve_left hne
      cases hfirst : value first with
      | none =>
          refine ⟨map, fun key => ?_⟩
          rw [hmap]
          split
          · next heq => rw [heq, hfirst]
          · rfl
      | some found =>
          refine ⟨map.insert first found, fun key => ?_⟩
          rw [lookup_insert_ite, hmap]
          split
          · next heq => rw [heq, hfirst]
          · rfl

/-- Keep the entries whose value passes the test, as `HashMap::retain` does. -/
def retain (keep : α → Bool) (map : FiniteMap κ α) : FiniteMap κ α where
  entries := map.entries.filter fun entry => keep entry.2
  nodupKeys :=
    Multiset.nodup_keys.mp
      (Multiset.nodup_of_le (Multiset.map_le_map (Multiset.filter_le _ _))
        (Multiset.nodup_keys.mpr map.nodupKeys))

/-- A retained map holds exactly the entries of the original that pass the test. -/
theorem lookup_retain (keep : α → Bool) (map : FiniteMap κ α) (key : κ) :
    (retain keep map).lookup key = (map.lookup key).filter keep := by
  cases h : (map.lookup key).filter keep with
  | none =>
      rw [Finmap.lookup_eq_none, Finmap.mem_iff]
      rintro ⟨value, hvalue⟩
      rw [Finmap.lookup_eq_some_iff] at hvalue
      obtain ⟨hmem, hkeep⟩ := Multiset.mem_filter.mp hvalue
      rw [← Finmap.lookup_eq_some_iff] at hmem
      simp [hmem, hkeep] at h
  | some value =>
      obtain ⟨hmem, hkeep⟩ := Option.filter_eq_some_iff.mp h
      rw [Finmap.lookup_eq_some_iff] at hmem ⊢
      exact Multiset.mem_filter.mpr ⟨hmem, hkeep⟩

/-- The sum of a measure over all values of the map. -/
def total (measure : α → Nat) (map : FiniteMap κ α) : Nat :=
  (map.entries.map fun entry => measure entry.2).sum

/-- A new key adds its measure. -/
theorem total_insert_new (measure : α → Nat) {map : FiniteMap κ α} {key : κ} (value : α)
    (h : map.lookup key = none) :
    total measure (map.insert key value) = measure value + total measure map := by
  rw [Finmap.lookup_eq_none] at h
  simp [total, Finmap.entries_insert_of_notMem h]

/-- Removing a key takes its measure away. -/
theorem total_erase (measure : α → Nat) {map : FiniteMap κ α} {key : κ} {value : α}
    (h : map.lookup key = some value) :
    measure value + total measure (map.erase key) = total measure map := by
  conv_rhs => rw [← insert_lookup h, ← insert_erase]
  rw [total_insert_new measure value (Finmap.lookup_erase key map)]

/-- Replacing a value trades the old measure for the new one. -/
theorem total_insert (measure : α → Nat) {map : FiniteMap κ α} {key : κ} {old : α} (value : α)
    (h : map.lookup key = some old) :
    measure old + total measure (map.insert key value) = measure value + total measure map := by
  have hnew := total_insert_new measure value (Finmap.lookup_erase key map)
  have hold := total_erase measure h
  rw [insert_erase] at hnew
  omega

/-- Replacing a value by one of the same measure keeps the total. -/
theorem total_insert_same (measure : α → Nat) {map : FiniteMap κ α} {key : κ} {old value : α}
    (h : map.lookup key = some old) (hsame : measure value = measure old) :
    total measure (map.insert key value) = total measure map := by
  have hinsert := total_insert measure value h
  omega

/-- Every single entry is bounded by the total. -/
theorem measure_le_total (measure : α → Nat) {map : FiniteMap κ α} {key : κ} {value : α}
    (h : map.lookup key = some value) : measure value ≤ total measure map := by
  have herase := total_erase measure h
  omega

/-- A total is a sum over any list of keys that has every key of the map once. -/
theorem total_eq_sum (measure : α → Nat) {keys : List κ} {map : FiniteMap κ α}
    (hnodup : keys.Nodup) (hkeys : ∀ key, (map.lookup key).isSome → key ∈ keys) :
    total measure map = (keys.map fun key => ((map.lookup key).map measure).getD 0).sum := by
  induction keys generalizing map with
  | nil =>
      have hempty : map = ∅ := Finmap.ext_lookup fun key => by
        rw [Finmap.lookup_empty, ← Option.not_isSome_iff_eq_none]
        exact fun h => List.not_mem_nil (hkeys key h)
      rw [hempty]
      rfl
  | cons key keys ih =>
      obtain ⟨hkey, hnodup⟩ := List.nodup_cons.mp hnodup
      have herased : ∀ other, ((map.erase key).lookup other).isSome → other ∈ keys := by
        intro other hother
        rw [lookup_erase_ite] at hother
        split at hother
        · simp at hother
        · next hne => exact (List.mem_cons.mp (hkeys other hother)).resolve_left hne
      have hsum := ih hnodup herased
      have hsame : (keys.map fun other => (((map.erase key).lookup other).map measure).getD 0) =
          keys.map fun other => ((map.lookup other).map measure).getD 0 := by
        refine List.map_congr_left fun other hother => ?_
        have hne : other ≠ key := fun heq => hkey (heq ▸ hother)
        rw [lookup_erase_ite, if_neg hne]
      rw [List.map_cons, List.sum_cons, ← hsame, ← hsum]
      cases hlookup : map.lookup key with
      | none => rw [erase_of_lookup_none hlookup, Option.map_none, Option.getD_none, Nat.zero_add]
      | some value => exact (total_erase measure hlookup).symm

/-- Totals compare as the entries do, key by key. -/
theorem total_le_total {β : Type} {measure : α → Nat} {measure' : β → Nat} {map : FiniteMap κ α}
    {map' : FiniteMap κ β}
    (h : ∀ key value, map.lookup key = some value →
      ∃ value', map'.lookup key = some value' ∧ measure value ≤ measure' value') :
    total measure map ≤ total measure' map' := by
  have hnodup := (map.keys ∪ map'.keys).nodup_toList
  rw [total_eq_sum measure hnodup fun key hkey => by
      simpa using .inl (Finmap.lookup_isSome.mp hkey),
    total_eq_sum measure' hnodup fun key hkey => by
      simpa using .inr (Finmap.lookup_isSome.mp hkey)]
  refine List.sum_le_sum fun key _ => ?_
  cases hlookup : map.lookup key with
  | none => exact Nat.zero_le _
  | some value =>
      obtain ⟨value', hlookup', hle⟩ := h key value hlookup
      rw [hlookup']
      exact hle

/-- Two maps with the same keys and related values. -/
def Rel (related : α → α → Prop) (left right : FiniteMap κ α) : Prop :=
  ∀ key, Option.Rel related (left.lookup key) (right.lookup key)

namespace Rel

variable {related weaker : α → α → Prop} {first second third left right : FiniteMap κ α} {key : κ}
  {value : α}

theorem refl (h : ∀ value, related value value) (map : FiniteMap κ α) : Rel related map map := by
  intro key
  cases map.lookup key with
  | none => exact .none
  | some value => exact .some (h value)

/-- An entry of one map has its counterpart in the other. -/
theorem lookup_some (h : Rel related left right) (hlookup : left.lookup key = some value) :
    ∃ value', right.lookup key = some value' ∧ related value value' := by
  have hkey := h key
  rw [hlookup] at hkey
  generalize right.lookup key = found at hkey
  cases hkey with
  | some hrelated => exact ⟨_, rfl, hrelated⟩

/-- A key that is missing in one map is missing in the other. -/
theorem lookup_none (h : Rel related left right) (hlookup : left.lookup key = none) :
    right.lookup key = none := by
  have hkey := h key
  rw [hlookup] at hkey
  generalize right.lookup key = found at hkey
  cases hkey with
  | none => rfl

theorem trans (htrans : ∀ {first second third}, related first second → related second third →
      related first third)
    (h : Rel related first second) (h' : Rel related second third) : Rel related first third := by
  intro key
  cases hlookup : first.lookup key with
  | none =>
      rw [h'.lookup_none (h.lookup_none hlookup)]
      exact .none
  | some value =>
      obtain ⟨value', hlookup', hrelated⟩ := h.lookup_some hlookup
      obtain ⟨value'', hlookup'', hrelated'⟩ := h'.lookup_some hlookup'
      rw [hlookup'']
      exact .some (htrans hrelated hrelated')

theorem imp (himp : ∀ {left right}, related left right → weaker left right)
    (h : Rel related left right) : Rel weaker left right := by
  intro key
  cases hlookup : left.lookup key with
  | none =>
      rw [h.lookup_none hlookup]
      exact .none
  | some value =>
      obtain ⟨value', hlookup', hrelated⟩ := h.lookup_some hlookup
      rw [hlookup']
      exact .some (himp hrelated)

theorem flip (h : Rel related left right) : Rel (fun right left => related left right) right left := by
  intro key
  cases hlookup : left.lookup key with
  | none =>
      rw [h.lookup_none hlookup]
      exact .none
  | some value =>
      obtain ⟨value', hlookup', hrelated⟩ := h.lookup_some hlookup
      rw [hlookup']
      exact .some hrelated

/-- Totals of a measure that related values share. -/
theorem total_eq {measure : α → Nat}
    (hmeasure : ∀ {left right}, related left right → measure right = measure left)
    (h : Rel related left right) : total measure right = total measure left := by
  refine le_antisymm (total_le_total fun key value hlookup => ?_)
    (total_le_total fun key value hlookup => ?_)
  · obtain ⟨value', hlookup', hrelated⟩ := h.flip.lookup_some hlookup
    exact ⟨value', hlookup', (hmeasure hrelated).le⟩
  · obtain ⟨value', hlookup', hrelated⟩ := h.lookup_some hlookup
    exact ⟨value', hlookup', (hmeasure hrelated).ge⟩

/-- Writing related values under the same key. -/
theorem insert {value' : α} (h : Rel related left right) (hvalue : related value value') :
    Rel related (left.insert key value) (right.insert key value') := by
  intro other
  rw [lookup_insert_ite, lookup_insert_ite]
  split
  · exact .some hvalue
  · exact h other

/-- Removing the same key. -/
theorem erase (h : Rel related left right) (key : κ) :
    Rel related (left.erase key) (right.erase key) := by
  intro other
  rw [lookup_erase_ite, lookup_erase_ite]
  split
  · exact .none
  · exact h other

end Rel

end FiniteMap

end DurableStreams.Lib
