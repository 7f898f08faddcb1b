import Mathlib.Algebra.Order.Ring.Nat
import Mathlib.Tactic.Ring

/-!
# Numerals of fixed width

A number is written with a fixed number of digits, most significant first. Numerals of one width and
numbers below `base ^ width` correspond to each other (`value_numeral`, `numeral_value`), and the
lexicographic order of numerals is the order of the numbers (`compare_numeral`).
-/

namespace DurableStreams.Lib

variable {base : Nat}

/-- The last `width` digits of a number, most significant first. -/
def numeral (base : Nat) : Nat → Nat → List Nat
  | 0, _ => []
  | width + 1, value => value / base ^ width % base :: numeral base width value

/-- Read a digit behind those that have been read. -/
def readDigit (base value digit : Nat) : Nat := value * base + digit

/-- The number a list of digits stands for. -/
def numeralValue (base : Nat) (digits : List Nat) : Nat := digits.foldl (readDigit base) 0

@[simp] theorem length_numeral (width value : Nat) : (numeral base width value).length = width := by
  induction width with
  | zero => rfl
  | succ width ih => rw [numeral, List.length_cons, ih]

/-- Every digit is below the base. -/
theorem numeral_lt (hbase : 0 < base) {width value digit : Nat}
    (h : digit ∈ numeral base width value) : digit < base := by
  induction width with
  | zero => cases h
  | succ width ih =>
      rcases List.mem_cons.mp h with rfl | h
      · exact Nat.mod_lt _ hbase
      · exact ih h

/-- The digits by their position. -/
theorem numeral_eq_map (width value : Nat) :
    numeral base width value =
      (List.range width).map fun i => value / base ^ (width - 1 - i) % base := by
  induction width with
  | zero => rfl
  | succ width ih =>
      rw [numeral, ih, List.range_succ_eq_map, List.map_cons, List.map_map]
      refine congrArg₂ List.cons (by simp) (List.map_congr_left fun i _ => ?_)
      have hindex : width + 1 - 1 - (i + 1) = width - 1 - i := by omega
      rw [Function.comp_apply, hindex]

/-! ## Numerals and numbers -/

/-- Reading a numeral behind some digits. -/
theorem foldl_numeral (width value before : Nat) :
    (numeral base width value).foldl (readDigit base) before =
      before * base ^ width + value % base ^ width := by
  induction width generalizing before with
  | zero => simp [numeral, Nat.mod_one]
  | succ width ih =>
      rw [numeral, List.foldl_cons, ih, readDigit, pow_succ, Nat.mod_mul]
      ring

/-- A numeral that is wide enough can be read back. -/
theorem value_numeral {width value : Nat} (h : value < base ^ width) :
    numeralValue base (numeral base width value) = value := by
  rw [numeralValue, foldl_numeral, Nat.zero_mul, Nat.zero_add, Nat.mod_eq_of_lt h]

/-- Reading digits behind others, as a sum. -/
theorem foldl_read_digit (digits : List Nat) (before : Nat) :
    digits.foldl (readDigit base) before =
      before * base ^ digits.length + numeralValue base digits := by
  induction digits generalizing before with
  | nil => simp [numeralValue]
  | cons digit digits ih =>
      rw [numeralValue, List.foldl_cons, List.foldl_cons, ih, ih (readDigit base 0 digit), readDigit,
        readDigit, List.length_cons, pow_succ]
      ring

/-- Digits below the base stand for a number that needs no more of them. -/
theorem numeral_value_lt {digits : List Nat} (h : ∀ digit ∈ digits, digit < base) :
    numeralValue base digits < base ^ digits.length := by
  induction digits with
  | nil => simp [numeralValue]
  | cons digit digits ih =>
      have hdigit := h digit (by simp)
      have hrest := ih fun other hother => h other (by simp [hother])
      rw [numeralValue, List.foldl_cons, foldl_read_digit, readDigit, Nat.zero_mul, Nat.zero_add,
        List.length_cons, pow_succ]
      calc digit * base ^ digits.length + numeralValue base digits
          < digit * base ^ digits.length + base ^ digits.length := by omega
        _ = (digit + 1) * base ^ digits.length := by ring
        _ ≤ base * base ^ digits.length := Nat.mul_le_mul_right _ hdigit
        _ = base ^ digits.length * base := Nat.mul_comm _ _

/-- Only the last digits count. -/
theorem numeral_add_mul (width value before : Nat) :
    numeral base width (before * base ^ width + value) = numeral base width value := by
  induction width generalizing before with
  | zero => rfl
  | succ width ih =>
      have hsplit : before * base ^ (width + 1) + value = before * base * base ^ width + value := by
        rw [pow_succ]
        ring
      rw [numeral, numeral, hsplit, ih]
      congr 1
      by_cases hpow : 0 < base ^ width
      · rw [Nat.mul_comm (before * base), Nat.mul_add_div hpow, Nat.mul_add_mod_self_right]
      · rw [Nat.eq_zero_of_not_pos hpow]
        simp

/-- Digits that have been read are the numeral of what they stand for. -/
theorem numeral_value {digits : List Nat} (h : ∀ digit ∈ digits, digit < base) :
    numeral base digits.length (numeralValue base digits) = digits := by
  induction digits with
  | nil => rfl
  | cons digit digits ih =>
      have hdigit := h digit (by simp)
      have hdigits : ∀ other ∈ digits, other < base := fun other hother => h other (by simp [hother])
      have hrest := numeral_value_lt hdigits
      have hvalue : numeralValue base (digit :: digits) =
          digit * base ^ digits.length + numeralValue base digits := by
        rw [numeralValue, List.foldl_cons, foldl_read_digit, readDigit, Nat.zero_mul, Nat.zero_add]
      rw [List.length_cons, numeral, hvalue, numeral_add_mul, ih hdigits, Nat.mul_comm,
        Nat.mul_add_div (by omega), Nat.div_eq_of_lt hrest, Nat.add_zero, Nat.mod_eq_of_lt hdigit]

/-! ## Order -/

/-- Numbers compare by what stands before the last digits, and then by these. -/
theorem compare_mul_add {scale first second rest rest' : Nat} (h : rest < scale)
    (h' : rest' < scale) :
    compare (scale * first + rest) (scale * second + rest') =
      (compare first second).then (compare rest rest') := by
  rcases Nat.lt_trichotomy first second with hlt | rfl | hlt
  · have hmul : scale * (first + 1) ≤ scale * second := Nat.mul_le_mul_left _ hlt
    rw [Nat.mul_succ] at hmul
    rw [Nat.compare_eq_lt.mpr hlt, Nat.compare_eq_lt.mpr (by omega)]
    rfl
  · rw [Nat.compare_eq_eq.mpr rfl, Ordering.then]
    rcases Nat.lt_trichotomy rest rest' with hrest | rfl | hrest
    · rw [Nat.compare_eq_lt.mpr hrest, Nat.compare_eq_lt.mpr (by omega)]
    · rw [Nat.compare_eq_eq.mpr rfl, Nat.compare_eq_eq.mpr rfl]
    · rw [Nat.compare_eq_gt.mpr hrest, Nat.compare_eq_gt.mpr (by omega)]
  · have hmul : scale * (second + 1) ≤ scale * first := Nat.mul_le_mul_left _ hlt
    rw [Nat.mul_succ] at hmul
    rw [Nat.compare_eq_gt.mpr hlt, Nat.compare_eq_gt.mpr (by omega)]
    rfl

/-- Lists compare by their first elements, and then by the others. -/
theorem compare_cons {α : Type} [Ord α] (first second : α) (rest rest' : List α) :
    compare (first :: rest) (second :: rest') =
      (compare first second).then (compare rest rest') :=
  List.compareLex_cons_cons

/-- The lexicographic order of numerals is the order of their values. -/
theorem compare_numeral_mod (hbase : 0 < base) (width first second : Nat) :
    compare (numeral base width first) (numeral base width second) =
      compare (first % base ^ width) (second % base ^ width) := by
  induction width with
  | zero => simp [numeral, Nat.mod_one]
  | succ width ih =>
      have hpow : 0 < base ^ width := Nat.pow_pos hbase
      rw [numeral, numeral, compare_cons, ih, pow_succ, Nat.mod_mul, Nat.mod_mul,
        Nat.add_comm (first % _), Nat.add_comm (second % _),
        compare_mul_add (Nat.mod_lt _ hpow) (Nat.mod_lt _ hpow)]

theorem compare_numeral {width first second : Nat} (hfirst : first < base ^ width)
    (hsecond : second < base ^ width) (hbase : 0 < base) :
    compare (numeral base width first) (numeral base width second) = compare first second := by
  rw [compare_numeral_mod hbase, Nat.mod_eq_of_lt hfirst, Nat.mod_eq_of_lt hsecond]

/-- Replacing the elements of two lists by others that compare alike. -/
theorem compare_map {α β : Type} [Ord α] [Ord β] {convert : α → β} {first second : List α}
    (h : ∀ left ∈ first, ∀ right ∈ second,
      compare (convert left) (convert right) = compare left right) :
    compare (first.map convert) (second.map convert) = compare first second := by
  induction first generalizing second with
  | nil => cases second <;> rfl
  | cons left first ih =>
      cases second with
      | nil => rfl
      | cons right second =>
          rw [List.map_cons, List.map_cons, compare_cons, compare_cons,
            h left (by simp) right (by simp),
            ih fun left' hleft' right' hright' => h left' (by simp [hleft']) right' (by simp [hright'])]

/-- Lists of the same length compare by their first parts, and then by the rest. -/
theorem compare_append {α : Type} [Ord α] {first second : List α} (rest rest' : List α)
    (h : first.length = second.length) :
    compare (first ++ rest) (second ++ rest') =
      (compare first second).then (compare rest rest') := by
  induction first generalizing second with
  | nil =>
      obtain rfl := List.eq_nil_of_length_eq_zero h.symm
      rfl
  | cons left first ih =>
      cases second with
      | nil => cases h
      | cons right second =>
          rw [List.cons_append, List.cons_append, compare_cons, compare_cons,
            ih (Nat.succ_injective h), Ordering.then_assoc]

end DurableStreams.Lib
