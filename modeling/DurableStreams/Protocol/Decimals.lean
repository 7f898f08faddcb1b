import DurableStreams.Lib.FixedWidth
import DurableStreams.Protocol.Headers

/-!
# Decimal numbers in headers

Which texts the parsers of numbers accept. `u64::from_str` takes any digits, with leading zeros and a
plus sign (`parse_u64_ok`); `parse_ttl` makes of this a parser of canonical decimals (`parse_ttl_ok`).
-/

namespace DurableStreams

open Lib

/-- The number a text of decimal digits stands for. -/
def decimalValue (digits : List Char) : Nat := numeralValue 10 (digits.map fun c => c.toNat - 48)

/-- A canonical decimal: `0`, or a digit that is not `0` with digits behind it. -/
def CanonicalDecimal (text : List Char) : Prop :=
  text = ['0'] ∨ ∃ first rest, text = first :: rest ∧ first ≠ '0' ∧ text.all Char.isDigit = true

/-- Digits without a leading zero are a canonical decimal. -/
theorem canonical_decimal_iff {text : List Char} :
    CanonicalDecimal text ↔
      text ≠ [] ∧ text.all Char.isDigit = true ∧ ¬ (1 < text.length ∧ text.head? = some '0') := by
  constructor
  · rintro (rfl | ⟨first, rest, rfl, hzero, hdigits⟩)
    · exact ⟨by simp, by decide, by simp⟩
    · exact ⟨by simp, hdigits, fun h => hzero (Option.some.inj h.2)⟩
  · rintro ⟨hne, hdigits, hleading⟩
    obtain ⟨first, rest, rfl⟩ := List.exists_cons_of_ne_nil hne
    by_cases hzero : first = '0'
    · have hrest : rest = [] := by
        by_contra hrest
        have hlength := List.length_pos_of_ne_nil hrest
        exact hleading ⟨by rw [List.length_cons]; omega, by rw [hzero, List.head?_cons]⟩
      exact .inl (by rw [hzero, hrest])
    · exact .inr ⟨first, rest, rfl, hzero, hdigits⟩

/-- A canonical decimal begins with a digit. -/
theorem CanonicalDecimal.head {text : List Char} (h : CanonicalDecimal text) :
    ∃ first rest, text = first :: rest ∧ first.isDigit = true := by
  obtain ⟨hne, hdigits, -⟩ := canonical_decimal_iff.mp h
  obtain ⟨first, rest, rfl⟩ := List.exists_cons_of_ne_nil hne
  exact ⟨first, rest, rfl, (List.all_eq_true.mp hdigits) first (List.mem_cons_self ..)⟩

/-! ## Parsing -/

/-- Reading more digits does not make a number smaller. -/
theorem le_foldl_read_digit (digits : List Nat) (value : Nat) :
    value ≤ digits.foldl (readDigit 10) value := by
  induction digits generalizing value with
  | nil => exact Nat.le_refl _
  | cons digit digits ih =>
      have hdigit : value ≤ readDigit 10 value digit := by
        unfold readDigit
        omega
      exact Nat.le_trans hdigit (ih _)

/-- The loop over the digits. It stops at the first overflow, and no later digit could take that
back. -/
theorem fold_parse_digit_ok {text : List Char} {value number : Nat} (hvalue : value < 2 ^ 64) :
    text.foldlM parseDigit value = .ok number ↔
      text.all Char.isDigit = true ∧
        (text.map fun c => c.toNat - 48).foldl (readDigit 10) value = number ∧ number < 2 ^ 64 := by
  induction text generalizing value with
  | nil =>
      simp only [List.foldlM_nil, List.all_nil, List.map_nil, List.foldl_nil, true_and]
      constructor
      · intro h
        obtain rfl : value = number := Except.ok.inj h
        exact ⟨rfl, hvalue⟩
      · rintro ⟨rfl, -⟩
        rfl
  | cons c text ih =>
      rw [List.foldlM_cons, List.all_cons, Bool.and_eq_true, List.map_cons, List.foldl_cons]
      have hread : readDigit 10 value (c.toNat - 48) = 10 * value + (c.toNat - 48) := by
        rw [readDigit, Nat.mul_comm]
      by_cases hdigit : c.isDigit = true
      · by_cases hfits : 10 * value + (c.toNat - 48) < 2 ^ 64
        · have hparse : parseDigit value c = .ok (10 * value + (c.toNat - 48)) := by
            rw [parseDigit, if_pos hdigit, if_pos hfits]
          rw [hparse, hread]
          exact (ih hfits).trans (by rw [and_assoc, and_iff_right hdigit])
        · have hparse : parseDigit value c = .error "number too large to fit in target type" := by
            rw [parseDigit, if_pos hdigit, if_neg hfits]
          rw [hparse, hread]
          refine iff_of_false (fun h => by cases h) ?_
          rintro ⟨-, rfl, hlt⟩
          exact hfits (Nat.lt_of_le_of_lt (le_foldl_read_digit _ _) hlt)
      · have hparse : parseDigit value c = .error "invalid digit found in string" := by
          rw [parseDigit, if_neg hdigit]
        rw [hparse]
        exact iff_of_false (fun h => by cases h) fun h => hdigit h.1.1

/-- `u64::from_str` accepts digits, with or without a plus sign in front. -/
theorem parse_u64_ok {text : String} {number : Nat} :
    parseU64 text = .ok number ↔
      ∃ digits, (text.toList = digits ∨ text.toList = '+' :: digits) ∧ digits ≠ [] ∧
        digits.all Char.isDigit = true ∧ decimalValue digits = number ∧ number < 2 ^ 64 := by
  have hfold (digits : List Char) :
      digits.foldlM parseDigit 0 = .ok number ↔
        digits.all Char.isDigit = true ∧ decimalValue digits = number ∧ number < 2 ^ 64 :=
    fold_parse_digit_ok (by decide)
  have hplus {digits : List Char} (h : digits.all Char.isDigit = true) {rest : List Char} :
      digits ≠ '+' :: rest := by
    rintro rfl
    simp at h
  unfold parseU64
  split
  · next hempty =>
      refine iff_of_false (fun h => by cases h) ?_
      rintro ⟨digits, hdigits | hdigits, hne, -⟩
      · exact hne (hdigits.symm.trans hempty)
      · rw [hempty] at hdigits
        cases hdigits
  · next hsign =>
      refine iff_of_false (fun h => by cases h) ?_
      rintro ⟨digits, hdigits | hdigits, hne, hall, -⟩
      · exact hplus hall (hdigits.symm.trans hsign)
      · rw [hsign] at hdigits
        exact hne (List.cons.inj hdigits).2.symm
  · next digits hshort htext =>
      rw [hfold, htext]
      constructor
      · intro h
        exact ⟨digits, .inr rfl, fun hnil => hshort hnil, h⟩
      · rintro ⟨digits', hdigits | hdigits, -, h⟩
        · exact absurd hdigits.symm (hplus h.1)
        · rwa [(List.cons.inj hdigits).2]
  · next hne _ hsign =>
      rw [hfold]
      constructor
      · intro h
        exact ⟨text.toList, .inl rfl, hne, h⟩
      · rintro ⟨digits, hdigits | hdigits, -, h⟩
        · rwa [hdigits]
        · exact absurd hdigits (hsign digits)

/-- A canonical decimal has none of the characters that `parse_ttl` looks for. -/
theorem not_mem_of_all_digits {text : List Char} (h : text.all Char.isDigit = true) {c : Char}
    (hc : c.isDigit = false) : c ∉ text := by
  intro hmem
  rw [List.all_eq_true.mp h c hmem] at hc
  cases hc

/-- `parse_ttl` accepts exactly the canonical decimals below `2 ^ 64`. -/
theorem parse_ttl_ok {value : String} {ttl : Nat} :
    parseTtl value = .ok ttl ↔
      CanonicalDecimal (trim value).toList ∧ decimalValue (trim value).toList = ttl ∧
        ttl < 2 ^ 64 := by
  have hparse : ((parseU64 (trim value)).mapError fun error =>
        Error.invalidTtl ("invalid integer '" ++ trim value ++ "': " ++ error)) = .ok ttl ↔
      parseU64 (trim value) = .ok ttl := by
    cases parseU64 (trim value) <;> simp [Except.mapError]
  have hdigit {c : Char} (hc : c.isDigit = false) (hcanonical : CanonicalDecimal (trim value).toList) :
      c ∉ (trim value).toList :=
    not_mem_of_all_digits (canonical_decimal_iff.mp hcanonical).2.1 hc
  have hhead {c : Char} (hc : c.isDigit = false) (hhead : (trim value).toList.head? = some c) :
      ¬ CanonicalDecimal (trim value).toList := fun hcanonical =>
    hdigit hc hcanonical (List.mem_of_head? hhead)
  have hreject {error : Error} (h : ¬ CanonicalDecimal (trim value).toList) :
      (Except.error error : Result Nat) = .ok ttl ↔
        CanonicalDecimal (trim value).toList ∧ decimalValue (trim value).toList = ttl ∧
          ttl < 2 ^ 64 :=
    iff_of_false (fun hok => by cases hok) fun hok => h hok.1
  unfold parseTtl
  dsimp only
  split
  · next hempty =>
      refine hreject fun hcanonical => ?_
      obtain ⟨first, rest, htext, -⟩ := hcanonical.head
      rw [htext] at hempty
      cases hempty
  split
  · next hzero => exact hreject fun hcanonical => (canonical_decimal_iff.mp hcanonical).2.2 hzero
  next hzero =>
  split
  · next hpoint => exact hreject fun hcanonical => hdigit (by decide) hcanonical hpoint
  split
  · next hexponent =>
      refine hreject fun hcanonical => ?_
      rcases hexponent with hexponent | hexponent
      · exact hdigit (by decide) hcanonical hexponent
      · exact hdigit (by decide) hcanonical hexponent
  split
  · next hminus => exact hreject (hhead (by decide) hminus)
  split
  · next hplus => exact hreject (hhead (by decide) hplus)
  next hplus =>
  rw [hparse, parse_u64_ok]
  constructor
  · rintro ⟨digits, hdigits | hdigits, hne, hall, hvalue⟩
    · rw [hdigits] at hzero ⊢
      exact ⟨canonical_decimal_iff.mpr ⟨hne, hall, hzero⟩, hvalue⟩
    · rw [hdigits] at hplus
      exact absurd rfl hplus
  · rintro ⟨hcanonical, hvalue⟩
    obtain ⟨hne, hall, -⟩ := canonical_decimal_iff.mp hcanonical
    exact ⟨_, .inl rfl, hne, hall, hvalue⟩

example : parseTtl " 604800\t" = .ok 604800 := by decide +kernel

end DurableStreams
