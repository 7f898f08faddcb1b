import Mathlib.Data.List.Basic
import Mathlib.Order.Basic

/-!
# Binary search on a sorted slice

`binarySearchBy` is the loop of Rust's `slice::binary_search_by`: it halves a window, keeping the
left end whenever the probed element compares `Greater`, and classifies the one element that is
left. `drop_index_eq_filter` is the fact its callers rely on: on a slice in which every element
after one that is not `Less` is `Greater`, the returned index cuts the slice into the elements
that compare `Less` and those that do not.
-/

namespace DurableStreams.Lib

variable {α : Type}

/-- The halving loop. `base` and `size` delimit the window that still holds the answer, and `fuel`
bounds the number of halvings. -/
def binarySearchLoop (probe : α → Ordering) (items : List α) : Nat → Nat → Nat → Nat
  | 0, base, _ => base
  | fuel + 1, base, size =>
      if size ≤ 1 then base
      else
        match items[base + size / 2]? with
        | none => base
        | some item =>
            if probe item = .gt then binarySearchLoop probe items fuel base (size - size / 2)
            else binarySearchLoop probe items fuel (base + size / 2) (size - size / 2)

/-- `slice::binary_search_by`: `ok` is the index of a match and `error` the insertion point. -/
def binarySearchBy (probe : α → Ordering) (items : List α) : Except Nat Nat :=
  let base := binarySearchLoop probe items items.length 0 items.length
  match items[base]? with
  | none => .error 0
  | some item =>
      match probe item with
      | .eq => .ok base
      | .lt => .error (base + 1)
      | .gt => .error base

/-- The index carried by either outcome of a search. -/
def searchIndex : Except Nat Nat → Nat
  | .ok index => index
  | .error index => index

/-- Every element after one that does not compare `Less` compares `Greater`. A slice sorted
strictly by a key has this shape for every probe that compares keys with a fixed target. -/
def Partitioned (probe : α → Ordering) (items : List α) : Prop :=
  items.Pairwise fun first second => probe first ≠ .lt → probe second = .gt

/-- What the window of the loop guarantees: nothing right of it is wanted, and its left end is
either the start of the slice or an element that does not compare `Greater`. -/
structure Window (probe : α → Ordering) (items : List α) (base size : Nat) : Prop where
  size_pos : 0 < size
  inside : base + size ≤ items.length
  right : ∀ (index : Nat) (h : index < items.length), base + size ≤ index → probe items[index] = .gt
  left : base = 0 ∨ ∃ h : base < items.length, probe items[base] ≠ .gt

variable {probe : α → Ordering} {items : List α}

/-- The loop ends in a window of a single element. -/
theorem binary_search_loop_window (hsorted : Partitioned probe items) (fuel base size : Nat)
    (hfuel : size ≤ fuel) (hwindow : Window probe items base size) :
    Window probe items (binarySearchLoop probe items fuel base size) 1 := by
  induction fuel generalizing base size with
  | zero => exact absurd hwindow.size_pos (by omega)
  | succ fuel ih =>
      have hpos := hwindow.size_pos
      have hinside := hwindow.inside
      unfold binarySearchLoop
      split
      · next hsmall =>
          obtain rfl : size = 1 := by omega
          exact hwindow
      · next hlarge =>
          have hmid : base + size / 2 < items.length := by omega
          rw [List.getElem?_eq_getElem hmid]
          dsimp only
          split
          · next hgt =>
              -- The middle compares `Greater`, and so does everything to its right.
              refine ih base _ (by omega) ⟨by omega, by omega, ?_, hwindow.left⟩
              intro index hindex hle
              by_cases heq : index = base + size / 2
              · subst heq
                exact hgt
              · exact List.pairwise_iff_getElem.mp hsorted _ _ hmid hindex (by omega)
                  (by simp [hgt])
          · next hgt =>
              refine ih _ _ (by omega) ⟨by omega, by omega, ?_, .inr ⟨hmid, hgt⟩⟩
              intro index hindex hle
              exact hwindow.right index hindex (by omega)

/-- Everything left of an element that does not compare `Greater` compares `Less`. -/
theorem Partitioned.lt_of_left (hsorted : Partitioned probe items) {first second : Nat}
    (hsecond : second < items.length) (horder : first < second)
    (h : probe items[second] ≠ .gt) : probe items[first] = .lt := by
  by_contra hfirst
  exact h (List.pairwise_iff_getElem.mp hsorted _ _ (by omega) hsecond horder hfirst)

/-- The returned index separates the elements that compare `Less` from the others. -/
theorem binary_search_by_cut (hsorted : Partitioned probe items) :
    let cut := searchIndex (binarySearchBy probe items)
    cut ≤ items.length ∧
    (∀ (index : Nat) (h : index < items.length), index < cut → probe items[index] = .lt) ∧
    (∀ (index : Nat) (h : index < items.length), cut ≤ index → probe items[index] ≠ .lt) := by
  by_cases hnil : items = []
  · subst hnil
    exact ⟨Nat.le_refl 0, by simp, by simp⟩
  have hlength : 0 < items.length := List.length_pos_iff.mpr hnil
  have hwindow := binary_search_loop_window hsorted items.length 0 items.length (Nat.le_refl _)
    ⟨hlength, by omega, fun index h hle => absurd h (by omega), .inl rfl⟩
  unfold binarySearchBy
  generalize hbase : binarySearchLoop probe items items.length 0 items.length = base at hwindow ⊢
  have hinside : base < items.length := by have := hwindow.inside; omega
  have hright : ∀ (index : Nat) (h : index < items.length), base < index →
      probe items[index] ≠ .lt := by
    intro index h hlt
    rw [hwindow.right index h hlt]
    simp
  simp only [List.getElem?_eq_getElem hinside]
  cases hprobe : probe items[base] with
  | lt =>
      refine ⟨hinside, ?_, fun index h hle => hright index h hle⟩
      intro index h hlt
      rcases Nat.lt_or_eq_of_le (Nat.le_of_lt_succ hlt) with hbefore | rfl
      · exact hsorted.lt_of_left hinside hbefore (by simp [hprobe])
      · exact hprobe
  | eq =>
      refine ⟨by simp [searchIndex]; omega, ?_, ?_⟩
      · intro index h hlt
        exact hsorted.lt_of_left hinside hlt (by simp [hprobe])
      · intro index h hle
        change base ≤ index at hle
        rcases Nat.lt_or_eq_of_le hle with hafter | rfl
        · exact hright index h hafter
        · simp [hprobe]
  | gt =>
      -- Only the first element can compare `Greater` here.
      obtain rfl : base = 0 := by
        rcases hwindow.left with hzero | ⟨_, hleft⟩
        · exact hzero
        · exact absurd hprobe hleft
      refine ⟨Nat.zero_le _, fun index h hlt => absurd hlt (Nat.not_lt_zero _), ?_⟩
      intro index h hle
      change 0 ≤ index at hle
      rcases Nat.lt_or_eq_of_le hle with hafter | rfl
      · exact hright index h hafter
      · simp [hprobe]

/-- What lies at or after the returned index is exactly what does not compare `Less`. -/
theorem drop_index_eq_filter (hsorted : Partitioned probe items) :
    items.drop (searchIndex (binarySearchBy probe items)) =
      items.filter fun item => probe item ≠ .lt := by
  obtain ⟨hcut, hbefore, hafter⟩ := binary_search_by_cut hsorted
  generalize searchIndex (binarySearchBy probe items) = cut at hcut hbefore hafter ⊢
  have htake : (items.take cut).filter (fun item => probe item ≠ .lt) = [] := by
    refine List.filter_eq_nil_iff.mpr fun item hitem => ?_
    obtain ⟨index, hindex, rfl⟩ := List.mem_iff_getElem.mp hitem
    rw [List.length_take] at hindex
    simp [hbefore index (by omega) (by omega)]
  have hdrop : (items.drop cut).filter (fun item => probe item ≠ .lt) = items.drop cut := by
    refine List.filter_eq_self.mpr fun item hitem => ?_
    obtain ⟨index, hindex, rfl⟩ := List.mem_iff_getElem.mp hitem
    rw [List.length_drop] at hindex
    simpa using hafter (cut + index) (by omega) (by omega)
  conv_rhs => rw [← List.take_append_drop cut items, List.filter_append, htake, hdrop]
  rfl

/-- A probe that looks at a key only searches the list of keys. -/
theorem binary_search_by_map {κ : Type} (key : α → κ) (probe : κ → Ordering) (items : List α) :
    binarySearchBy (fun item => probe (key item)) items =
      binarySearchBy probe (items.map key) := by
  have hloop (fuel base size : Nat) :
      binarySearchLoop (fun item => probe (key item)) items fuel base size =
        binarySearchLoop probe (items.map key) fuel base size := by
    induction fuel generalizing base size with
    | zero => rfl
    | succ fuel ih =>
        simp only [binarySearchLoop, List.getElem?_map]
        cases items[base + size / 2]? with
        | none => rfl
        | some item => simp only [Option.map_some, ih]
  simp only [binarySearchBy, hloop, List.length_map, List.getElem?_map]
  cases items[binarySearchLoop probe (items.map key) items.length 0 items.length]? <;> rfl

end DurableStreams.Lib
