import Mathlib.Data.List.Basic

/-!
# Unpadded URL-safe base64

Six bits to a character and no padding at the end. The encoding is injective, uses letters, digits,
`-` and `_` only, and encodes nothing but the empty string as the empty string, so it turns
arbitrary names into distinct file names.
-/

namespace DurableStreams.Lib

/-- The 64 characters of the URL-safe alphabet. -/
def base64UrlAlphabet : List Char :=
  "ABCDEFGHIJKLMNOPQRSTUVWXYZabcdefghijklmnopqrstuvwxyz0123456789-_".toList

/-- The character of a six-bit group. -/
def sextetChar (sextet : Nat) : Char := base64UrlAlphabet.getD sextet '_'

/-- Three bytes become four characters, a rest of one or two bytes two or three. -/
def base64UrlEncode : List UInt8 → List Char
  | [] => []
  | [first] => [sextetChar (first.toNat / 4), sextetChar (first.toNat % 4 * 16)]
  | [first, second] =>
      [sextetChar (first.toNat / 4), sextetChar (first.toNat % 4 * 16 + second.toNat / 16),
        sextetChar (second.toNat % 16 * 4)]
  | first :: second :: third :: rest =>
      sextetChar (first.toNat / 4) :: sextetChar (first.toNat % 4 * 16 + second.toNat / 16) ::
        sextetChar (second.toNat % 16 * 4 + third.toNat / 64) :: sextetChar (third.toNat % 64) ::
        base64UrlEncode rest

/-- Different six-bit groups have different characters. -/
theorem sextet_char_inj {first second : Nat} (hfirst : first < 64) (hsecond : second < 64) :
    sextetChar first = sextetChar second ↔ first = second := by
  have hall : ∀ first : Fin 64, ∀ second : Fin 64,
      sextetChar first = sextetChar second ↔ first.val = second.val := by decide +kernel
  exact hall ⟨first, hfirst⟩ ⟨second, hsecond⟩

/-- The encoding is injective. -/
theorem base64_url_encode_inj {first second : List UInt8}
    (h : base64UrlEncode first = base64UrlEncode second) : first = second := by
  fun_induction base64UrlEncode first generalizing second with
  | case1 =>
      match second with
      | [] => rfl
      | [_] | [_, _] | _ :: _ :: _ :: _ => simp [base64UrlEncode] at h
  | case2 a =>
      match second with
      | [a'] =>
          have := a.toNat_lt
          have := a'.toNat_lt
          simp only [base64UrlEncode, List.cons.injEq, and_true] at h
          rw [sextet_char_inj (by omega) (by omega), sextet_char_inj (by omega) (by omega)] at h
          rw [List.cons.injEq, ← UInt8.toNat_inj]
          exact ⟨by omega, rfl⟩
      | [] | [_, _] | _ :: _ :: _ :: _ => simp [base64UrlEncode] at h
  | case3 a b =>
      match second with
      | [a', b'] =>
          have := a.toNat_lt
          have := a'.toNat_lt
          have := b.toNat_lt
          have := b'.toNat_lt
          simp only [base64UrlEncode, List.cons.injEq, and_true] at h
          rw [sextet_char_inj (by omega) (by omega), sextet_char_inj (by omega) (by omega),
            sextet_char_inj (by omega) (by omega)] at h
          rw [List.cons.injEq, List.cons.injEq, ← UInt8.toNat_inj, ← UInt8.toNat_inj]
          exact ⟨by omega, by omega, rfl⟩
      | [] | [_] | _ :: _ :: _ :: _ => simp [base64UrlEncode] at h
  | case4 a b c rest ih =>
      match second with
      | a' :: b' :: c' :: rest' =>
          have := a.toNat_lt
          have := a'.toNat_lt
          have := b.toNat_lt
          have := b'.toNat_lt
          have := c.toNat_lt
          have := c'.toNat_lt
          simp only [base64UrlEncode, List.cons.injEq] at h
          rw [sextet_char_inj (by omega) (by omega), sextet_char_inj (by omega) (by omega),
            sextet_char_inj (by omega) (by omega), sextet_char_inj (by omega) (by omega)] at h
          simp only [List.cons.injEq, ← UInt8.toNat_inj]
          exact ⟨by omega, by omega, by omega, ih h.2.2.2.2⟩
      | [] | [_] | [_, _] => simp [base64UrlEncode] at h

/-- Only the empty string is encoded as the empty string. -/
theorem base64_url_encode_eq_nil {bytes : List UInt8} : base64UrlEncode bytes = [] ↔ bytes = [] := by
  fun_cases base64UrlEncode bytes <;> simp

/-- Every character of the encoding is in the alphabet. -/
theorem mem_base64_url_encode {bytes : List UInt8} {character : Char}
    (h : character ∈ base64UrlEncode bytes) : character ∈ base64UrlAlphabet := by
  have hsextet (sextet : Nat) : sextetChar sextet ∈ base64UrlAlphabet := by
    unfold sextetChar
    rw [List.getD_eq_getElem?_getD]
    cases hget : base64UrlAlphabet[sextet]? with
    | none => decide
    | some found => exact List.mem_of_getElem? hget
  fun_induction base64UrlEncode bytes with
  | case1 => simp at h
  | case2 | case3 =>
      simp only [List.mem_cons, List.not_mem_nil, or_false] at h
      rcases h with rfl | h
      · exact hsextet _
      · rcases h with rfl | h <;> simp_all
  | case4 a b c rest ih =>
      simp only [List.mem_cons] at h
      rcases h with rfl | rfl | rfl | rfl | h <;> simp_all

end DurableStreams.Lib
