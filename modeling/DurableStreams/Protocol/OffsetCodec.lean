import DurableStreams.Lib.FixedWidth
import DurableStreams.Protocol.Text

/-!
# The text of an offset

Parsing of offsets as in `protocol/offset.rs`, and the order of their texts. A concrete offset is two
numerals of sixteen hexadecimal digits (`encode_hex16_eq`), so parsing inverts formatting
(`from_str_eq_ok_iff`) and the order of offsets is that of their texts (`cmp_eq_compare_text`).
-/

namespace DurableStreams

open Lib

/-! ## Parsing -/

/-- The value of a lower-case hexadecimal digit. -/
def hexValue (byte : UInt8) : Option Nat :=
  if 48 ≤ byte.toNat ∧ byte.toNat ≤ 57 then some (byte.toNat - 48)
  else if 97 ≤ byte.toNat ∧ byte.toNat ≤ 102 then some (byte.toNat - 97 + 10)
  else none

/-- `decode_hex_16`: shift in sixteen digits. The shift drops what does not fit in 64 bits. -/
def decodeHex16 (bytes : Bytes) : Option Nat :=
  if bytes.length ≠ 16 then none
  else bytes.foldlM (fun value byte => (hexValue byte).map fun digit =>
    wrap64 (value <<< 4) ||| digit) 0

namespace Offset

/-- The check of one byte and its index. -/
def checkByte (text : String) (entry : UInt8 × Nat) : Result Unit :=
  if entry.2 = 16 then .ok ()
  else if 65 ≤ entry.1.toNat ∧ entry.1.toNat ≤ 90 then
    .error (.invalidOffset ("Offset must use lowercase hex digits: '" ++ text ++ "'"))
  else if ¬ (48 ≤ entry.1.toNat ∧ entry.1.toNat ≤ 57) ∧
      ¬ (97 ≤ entry.1.toNat ∧ entry.1.toNat ≤ 102) then
    .error (.invalidOffset ("Invalid hex character in part " ++
      (if entry.2 < 16 then "1" else "2") ++ " of '" ++ text ++ "'"))
  else .ok ()

/-- `FromStr for Offset`. -/
def fromStr (text : String) : Result Offset :=
  if text = "-1" then .ok .start
  else if text = "now" then .ok .now
  else
    let bytes := strBytes text
    if bytes.length ≠ 33 ∨ bytes[16]? ≠ some 95 then
      .error (.invalidOffset ("Expected format 'read_seq_byte_offset', got '" ++ text ++ "'"))
    else
      match bytes.zipIdx.forM (checkByte text) with
      | .error error => .error error
      | .ok () =>
          match decodeHex16 (bytes.take 16), decodeHex16 (bytes.drop 17) with
          | some readSeq, some byteOffset => .ok (new readSeq byteOffset)
          | _, _ => .error (.invalidOffset ("Failed to parse hex values in '" ++ text ++ "'"))

/-- `PartialEq for Offset`. -/
def partialEq (left right : Offset) : Bool :=
  match left.parseComponents, right.parseComponents with
  | some first, some second => first == second
  | _, _ => left.asStr == right.asStr

/-- The offsets the code builds: the sentinels, and positions of 64 bits with their text. -/
def Valid : Offset → Prop
  | .start | .now => True
  | .concrete readSeq byteOffset raw =>
      readSeq < 2 ^ 64 ∧ byteOffset < 2 ^ 64 ∧ raw = encodeOffset readSeq byteOffset

end Offset

/-! ## Digits -/

/-- The digits with a value are the sixteen hexadecimal ones. -/
theorem hex_value_eq_some_iff {byte : UInt8} {digit : Nat} :
    hexValue byte = some digit ↔ digit < 16 ∧ byte = hexDigit digit := by
  have hbyte : byte = hexDigit digit ↔
      byte.toNat = (if digit < 10 then 48 + digit else 87 + digit) % 256 := by
    rw [← UInt8.toNat_inj, hexDigit, Nat.toUInt8_eq, UInt8.toNat_ofNat']
  have hlt := byte.toNat_lt
  rw [hbyte, hexValue]
  split_ifs <;> simp only [Option.some.injEq, false_iff] <;> omega

/-- Decoding sixteen digits loses no bit. -/
theorem decode_digits {digits : List Nat} (hdigits : ∀ digit ∈ digits, digit < 16) (before : Nat)
    (hfits : (before + 1) * 16 ^ digits.length ≤ 2 ^ 64) :
    (digits.map hexDigit).foldlM (fun value byte => (hexValue byte).map fun digit =>
      wrap64 (value <<< 4) ||| digit) before = some (digits.foldl (readDigit 16) before) := by
  induction digits generalizing before with
  | nil => rfl
  | cons digit digits ih =>
      have hdigit := hdigits digit (by simp)
      have hpow : 1 ≤ 16 ^ digits.length := Nat.one_le_pow _ _ (by decide)
      rw [List.length_cons, pow_succ] at hfits
      have hnext : (before * 16 + digit + 1) * 16 ^ digits.length ≤ 2 ^ 64 := by
        calc (before * 16 + digit + 1) * 16 ^ digits.length
            ≤ ((before + 1) * 16) * 16 ^ digits.length := Nat.mul_le_mul_right _ (by omega)
          _ = (before + 1) * (16 ^ digits.length * 16) := by ring
          _ ≤ 2 ^ 64 := hfits
      have hsmall : before * 16 + digit + 1 ≤ 2 ^ 64 :=
        (Nat.le_mul_of_pos_right _ hpow).trans hnext
      have hshift : wrap64 (before <<< 4) ||| digit = before * 16 + digit := by
        have hmul : before <<< 4 = before * 16 := Nat.shiftLeft_eq before 4
        rw [wrap64_of_lt (by omega), ← Nat.shiftLeft_add_eq_or_of_lt hdigit, hmul]
      rw [List.map_cons, List.foldlM_cons, hex_value_eq_some_iff.mpr ⟨hdigit, rfl⟩, Option.map_some,
        hshift, List.foldl_cons]
      exact ih (fun other hother => hdigits other (by simp [hother])) _ hnext

/-- So the value of sixteen digits is found exactly. -/
theorem decode_hex16_eq {digits : List Nat} (hdigits : ∀ digit ∈ digits, digit < 16)
    (hlength : digits.length = 16) :
    decodeHex16 (digits.map hexDigit) = some (numeralValue 16 digits) := by
  rw [decodeHex16, if_neg (by simp [hlength])]
  exact decode_digits hdigits 0 (by rw [hlength]; decide)

/-- The encoding is a numeral. -/
theorem encode_hex16_eq (value : Nat) : encodeHex16 value = (numeral 16 16 value).map hexDigit := by
  rw [encodeHex16, numeral_eq_map, List.map_map]
  refine List.map_congr_left fun i _ => ?_
  have hpow : 2 ^ ((15 - i) * 4) = 16 ^ (16 - 1 - i) := by
    rw [Nat.mul_comm, pow_mul]
    rfl
  have hand (number : Nat) : number &&& 15 = number % 16 := Nat.and_two_pow_sub_one_eq_mod number 4
  rw [Function.comp_apply, Nat.shiftRight_eq_div_pow, hpow, hand]

/-- Its digits are hexadecimal. -/
theorem numeral_hex {value digit : Nat} (h : digit ∈ numeral 16 16 value) : digit < 16 :=
  numeral_lt (by decide) h

/-- Decoding inverts encoding. -/
theorem decode_encode_hex16 {value : Nat} (h : value < 2 ^ 64) :
    decodeHex16 (encodeHex16 value) = some value := by
  have hvalue : numeralValue 16 (numeral 16 16 value) = value :=
    value_numeral (h.trans_eq (by decide))
  rw [encode_hex16_eq, decode_hex16_eq (fun _ => numeral_hex) (length_numeral _ _), hvalue]

/-- Bytes that all have a value are digits. -/
theorem exists_digits {bytes : Bytes} (h : ∀ byte ∈ bytes, (hexValue byte).isSome = true) :
    ∃ digits : List Nat, bytes = digits.map hexDigit ∧ ∀ digit ∈ digits, digit < 16 := by
  induction bytes with
  | nil => exact ⟨[], rfl, by simp⟩
  | cons byte bytes ih =>
      obtain ⟨digits, rfl, hdigits⟩ := ih fun other hother => h other (by simp [hother])
      obtain ⟨digit, hdigit⟩ := Option.isSome_iff_exists.mp (h byte (by simp))
      obtain ⟨hlt, rfl⟩ := hex_value_eq_some_iff.mp hdigit
      exact ⟨digit :: digits, rfl, by simpa using ⟨hlt, hdigits⟩⟩

/-! ## Bytes and characters -/

/-- A hexadecimal digit is an ASCII character. -/
theorem hex_digit_ascii {digit : Nat} (h : digit < 16) : (hexDigit digit).toNat < 128 := by
  decide +revert

namespace Offset

/-- The bytes of two numerals joined by an underscore. -/
def digitBytes (first second : List Nat) : Bytes :=
  first.map hexDigit ++ 95 :: second.map hexDigit

/-- The text of a concrete offset, by its digits. -/
theorem encode_offset_eq (readSeq byteOffset : Nat) :
    encodeOffset readSeq byteOffset =
      digitBytes (numeral 16 16 readSeq) (numeral 16 16 byteOffset) := by
  rw [encodeOffset, encode_hex16_eq, encode_hex16_eq, digitBytes, List.append_assoc,
    List.singleton_append]

/-- Such bytes are ASCII. -/
theorem digit_bytes_ascii {first second : List Nat} (hfirst : ∀ digit ∈ first, digit < 16)
    (hsecond : ∀ digit ∈ second, digit < 16) :
    ∀ byte ∈ digitBytes first second, byte.toNat < 128 := by
  intro byte hbyte
  rcases List.mem_append.mp hbyte with h | h
  · obtain ⟨digit, hdigit, rfl⟩ := List.mem_map.mp h
    exact hex_digit_ascii (hfirst digit hdigit)
  · rcases List.mem_cons.mp h with rfl | h
    · decide
    · obtain ⟨digit, hdigit, rfl⟩ := List.mem_map.mp h
      exact hex_digit_ascii (hsecond digit hdigit)

/-- The bytes kept with a concrete offset are ASCII. -/
theorem encode_offset_ascii (readSeq byteOffset : Nat) :
    ∀ byte ∈ encodeOffset readSeq byteOffset, byte.toNat < 128 := by
  rw [encode_offset_eq]
  exact digit_bytes_ascii (fun _ => numeral_hex) fun _ => numeral_hex

/-- So they are the bytes of its text. -/
theorem str_bytes_new (readSeq byteOffset : Nat) :
    strBytes (new readSeq byteOffset).asStr = encodeOffset readSeq byteOffset :=
  str_bytes_ascii (encode_offset_ascii readSeq byteOffset)

/-! ## Parsing inverts formatting -/

/-- The check of a byte passes on the underscore and on lower-case hexadecimal digits. -/
theorem check_byte_ok_iff {text : String} {entry : UInt8 × Nat} :
    checkByte text entry = .ok () ↔ entry.2 = 16 ∨ (hexValue entry.1).isSome = true := by
  unfold checkByte hexValue
  split_ifs <;> simp_all <;> omega

/-- A loop of checks passes if all of them do. -/
theorem for_m_ok_iff {α : Type} {check : α → Result Unit} {entries : List α} :
    entries.forM check = .ok () ↔ ∀ entry ∈ entries, check entry = .ok () := by
  induction entries with
  | nil => simp [pure, Except.pure]
  | cons entry entries ih =>
      have hcons : (entry :: entries).forM check = (check entry >>= fun _ => entries.forM check) := rfl
      rw [hcons, List.forall_mem_cons, ← ih]
      cases check entry with
      | error error => simp [bind, Except.bind]
      | ok value => simp [bind, Except.bind]

/-- Bytes that pass the checks are two numerals joined by an underscore. -/
theorem exists_digit_bytes {text : String} {bytes : Bytes} (hlength : bytes.length = 33)
    (hunderscore : bytes[16]? = some 95) (hcheck : bytes.zipIdx.forM (checkByte text) = .ok ()) :
    ∃ first second : List Nat, bytes = digitBytes first second ∧ first.length = 16 ∧
      second.length = 16 ∧ (∀ digit ∈ first, digit < 16) ∧ ∀ digit ∈ second, digit < 16 := by
  have hhex (i : Nat) (hi : i < bytes.length) (hne : i ≠ 16) :
      (hexValue bytes[i]).isSome = true := by
    have hentry := for_m_ok_iff.mp hcheck (bytes[i], i)
      (List.mem_zipIdx_iff_getElem?.mpr (List.getElem?_eq_getElem hi))
    exact (check_byte_ok_iff.mp hentry).resolve_left hne
  have htake : ∀ byte ∈ bytes.take 16, (hexValue byte).isSome = true := by
    intro byte hbyte
    obtain ⟨i, hi, rfl⟩ := List.getElem_of_mem hbyte
    rw [List.length_take] at hi
    rw [List.getElem_take]
    exact hhex i (by omega) (by omega)
  have hdrop : ∀ byte ∈ bytes.drop 17, (hexValue byte).isSome = true := by
    intro byte hbyte
    obtain ⟨i, hi, rfl⟩ := List.getElem_of_mem hbyte
    rw [List.length_drop] at hi
    rw [List.getElem_drop]
    exact hhex (17 + i) (by omega) (by omega)
  obtain ⟨first, hfirst, hfirst'⟩ := exists_digits htake
  obtain ⟨second, hsecond, hsecond'⟩ := exists_digits hdrop
  refine ⟨first, second, ?_, ?_, ?_, hfirst', hsecond'⟩
  · obtain ⟨hi, hget⟩ := List.getElem?_eq_some_iff.mp hunderscore
    rw [digitBytes, ← hfirst, ← hsecond, ← hget, List.cons_getElem_drop_succ,
      List.take_append_drop]
  · have hlen := congrArg List.length hfirst
    simp only [List.length_take, List.length_map] at hlen
    omega
  · have hlen := congrArg List.length hsecond
    simp only [List.length_drop, List.length_map] at hlen
    omega

/-- Two numerals of sixteen hexadecimal digits. -/
structure Numerals (first second : List Nat) : Prop where
  first_length : first.length = 16
  second_length : second.length = 16
  first_lt : ∀ digit ∈ first, digit < 16
  second_lt : ∀ digit ∈ second, digit < 16

namespace Numerals

variable {first second : List Nat}

/-- They pass the checks. -/
theorem check (h : Numerals first second) (text : String) :
    (digitBytes first second).zipIdx.forM (checkByte text) = .ok () := by
  refine for_m_ok_iff.mpr fun entry hentry => check_byte_ok_iff.mpr ?_
  obtain ⟨byte, i⟩ := entry
  have hget := List.mem_zipIdx_iff_getElem?.mp hentry
  have hdigit {digits : List Nat} (hdigits : ∀ digit ∈ digits, digit < 16)
      (hmem : byte ∈ digits.map hexDigit) : (hexValue byte).isSome = true := by
    obtain ⟨digit, hdigit, rfl⟩ := List.mem_map.mp hmem
    rw [hex_value_eq_some_iff.mpr ⟨hdigits digit hdigit, rfl⟩]
    rfl
  have hlength : (first.map hexDigit).length = 16 := by simp [h.first_length]
  rcases Nat.lt_trichotomy i 16 with hlt | heq | hgt
  · rw [digitBytes, List.getElem?_append_left (by omega)] at hget
    exact .inr (hdigit h.first_lt (List.mem_of_getElem? hget))
  · exact .inl heq
  · obtain ⟨j, hj⟩ : ∃ j, i - (first.map hexDigit).length = j + 1 := ⟨i - 17, by omega⟩
    rw [digitBytes, List.getElem?_append_right (by omega), hj, List.getElem?_cons_succ] at hget
    exact .inr (hdigit h.second_lt (List.mem_of_getElem? hget))

/-- Their values are found. -/
theorem decode (h : Numerals first second) :
    decodeHex16 ((digitBytes first second).take 16) = some (numeralValue 16 first) ∧
      decodeHex16 ((digitBytes first second).drop 17) = some (numeralValue 16 second) := by
  have hlength : (first.map hexDigit).length = 16 := by simp [h.first_length]
  have htake : (digitBytes first second).take 16 = first.map hexDigit := by
    rw [digitBytes, ← hlength, List.take_left]
  have hdrop : (digitBytes first second).drop 17 = second.map hexDigit := by
    have hsplit : digitBytes first second = (first.map hexDigit ++ [95]) ++ second.map hexDigit := by
      simp [digitBytes]
    rw [hsplit, List.drop_left' (by simp [h.first_length])]
  rw [htake, hdrop]
  exact ⟨decode_hex16_eq h.first_lt h.first_length, decode_hex16_eq h.second_lt h.second_length⟩

/-- Their values fit in 64 bits. -/
theorem value_lt (h : Numerals first second) :
    numeralValue 16 first < 2 ^ 64 ∧ numeralValue 16 second < 2 ^ 64 := by
  have hfirst := numeral_value_lt h.first_lt
  have hsecond := numeral_value_lt h.second_lt
  rw [h.first_length] at hfirst
  rw [h.second_length] at hsecond
  exact ⟨hfirst.trans_eq (by decide), hsecond.trans_eq (by decide)⟩

/-- The offset they stand for has them as its text. -/
theorem encode (h : Numerals first second) :
    encodeOffset (numeralValue 16 first) (numeralValue 16 second) = digitBytes first second := by
  have hfirst := numeral_value h.first_lt
  have hsecond := numeral_value h.second_lt
  rw [h.first_length] at hfirst
  rw [h.second_length] at hsecond
  rw [encode_offset_eq, hfirst, hsecond]

end Numerals

/-- The numerals of a position. -/
theorem numerals_numeral (readSeq byteOffset : Nat) :
    Numerals (numeral 16 16 readSeq) (numeral 16 16 byteOffset) :=
  ⟨length_numeral _ _, length_numeral _ _, fun _ => numeral_hex, fun _ => numeral_hex⟩

/-- What parses, and as what. -/
theorem from_str_eq_ok_iff {text : String} {offset : Offset} :
    fromStr text = .ok offset ↔
      text = "-1" ∧ offset = .start ∨ text = "now" ∧ offset = .now ∨
      ∃ first second, Numerals first second ∧ strBytes text = digitBytes first second ∧
        offset = new (numeralValue 16 first) (numeralValue 16 second) := by
  have hlong {first second : List Nat} (h : Numerals first second)
      (hbytes : strBytes text = digitBytes first second) : (strBytes text).length = 33 := by
    simp [hbytes, digitBytes, h.first_length, h.second_length]
  unfold fromStr
  by_cases hstart : text = "-1"
  · subst hstart
    rw [if_pos rfl]
    constructor
    · intro h
      exact .inl ⟨rfl, (Except.ok.inj h).symm⟩
    · rintro (⟨-, rfl⟩ | ⟨h, -⟩ | ⟨first, second, h, hbytes, -⟩)
      · rfl
      · exact absurd h (by decide)
      · exact absurd (hlong h hbytes) (by decide)
  rw [if_neg hstart]
  by_cases hnow : text = "now"
  · subst hnow
    rw [if_pos rfl]
    constructor
    · intro h
      exact .inr (.inl ⟨rfl, (Except.ok.inj h).symm⟩)
    · rintro (⟨h, -⟩ | ⟨-, rfl⟩ | ⟨first, second, h, hbytes, -⟩)
      · exact absurd h hstart
      · rfl
      · exact absurd (hlong h hbytes) (by decide)
  rw [if_neg hnow]
  dsimp only
  constructor
  · intro h
    refine .inr (.inr ?_)
    split at h
    · exact nomatch h
    next hformat =>
    rw [not_or, not_not, not_not] at hformat
    split at h
    · exact nomatch h
    next hcheck =>
    obtain ⟨first, second, hbytes, hfirst, hsecond, hfirst', hsecond'⟩ :=
      exists_digit_bytes hformat.1 hformat.2 hcheck
    have hnumerals : Numerals first second := ⟨hfirst, hsecond, hfirst', hsecond'⟩
    rw [hbytes, hnumerals.decode.1, hnumerals.decode.2] at h
    exact ⟨first, second, hnumerals, hbytes, (Except.ok.inj h).symm⟩
  · rintro (⟨h, -⟩ | ⟨h, -⟩ | ⟨first, second, h, hbytes, rfl⟩)
    · exact absurd h hstart
    · exact absurd h hnow
    · have hlength := hlong h hbytes
      have hunderscore : (digitBytes first second)[16]? = some 95 := by
        rw [digitBytes, List.getElem?_append_right (by simp [h.first_length])]
        simp [h.first_length]
      rw [hbytes] at hlength
      rw [hbytes, if_neg (not_or.mpr ⟨not_not.mpr hlength, not_not.mpr hunderscore⟩), h.check text]
      dsimp only
      rw [h.decode.1, h.decode.2]

/-- A text that parses is the text of the offset. -/
theorem as_str_of_from_str {text : String} {offset : Offset} (h : fromStr text = .ok offset) :
    offset.asStr = text := by
  obtain ⟨rfl, rfl⟩ | ⟨rfl, rfl⟩ | ⟨first, second, hnumerals, hbytes, rfl⟩ :=
    from_str_eq_ok_iff.mp h
  · rfl
  · rfl
  · refine str_bytes_inj ?_
    rw [str_bytes_new, hnumerals.encode, hbytes]

/-- A parsed offset is one the code builds. -/
theorem valid_of_from_str {text : String} {offset : Offset} (h : fromStr text = .ok offset) :
    offset.Valid := by
  obtain ⟨-, rfl⟩ | ⟨-, rfl⟩ | ⟨first, second, hnumerals, -, rfl⟩ := from_str_eq_ok_iff.mp h
  · trivial
  · trivial
  · exact ⟨hnumerals.value_lt.1, hnumerals.value_lt.2, rfl⟩

/-- The text of a position parses as that position. -/
theorem from_str_as_str {readSeq byteOffset : Nat} (hseq : readSeq < 2 ^ 64)
    (hbyte : byteOffset < 2 ^ 64) :
    fromStr (new readSeq byteOffset).asStr = .ok (new readSeq byteOffset) := by
  refine from_str_eq_ok_iff.mpr (.inr (.inr
    ⟨_, _, numerals_numeral readSeq byteOffset, ?_, ?_⟩))
  · rw [str_bytes_new, encode_offset_eq]
  · have hvalue {value : Nat} (h : value < 2 ^ 64) :
        numeralValue 16 (numeral 16 16 value) = value :=
      value_numeral (h.trans_eq (by decide))
    rw [hvalue hseq, hvalue hbyte]

/-- A lower-case hexadecimal digit. -/
def isLowerHex (c : Char) : Bool := "0123456789abcdef".toList.contains c

/-- The grammar of offsets: a sentinel, or sixteen lower-case hexadecimal digits, an underscore and
sixteen more. -/
def IsOffsetText (text : String) : Prop :=
  text = "-1" ∨ text = "now" ∨ ∃ first second : List Char, text.toList = first ++ '_' :: second ∧
    first.length = 16 ∧ second.length = 16 ∧
    (∀ c ∈ first, isLowerHex c = true) ∧ ∀ c ∈ second, isLowerHex c = true

/-- The characters of a numeral. -/
theorem exists_hex_digits {chars : List Char} (h : ∀ c ∈ chars, isLowerHex c = true) :
    ∃ digits : List Nat, chars = (digits.map hexDigit).map (fun byte => Char.ofNat byte.toNat) ∧
      ∀ digit ∈ digits, digit < 16 := by
  have hall : ∀ c ∈ "0123456789abcdef".toList, ∃ digit < 16,
      c = Char.ofNat (hexDigit digit).toNat :=
    List.forall_iff_forall_mem.mp (by decide +kernel)
  induction chars with
  | nil => exact ⟨[], rfl, by simp⟩
  | cons c chars ih =>
      obtain ⟨digits, rfl, hdigits⟩ := ih fun other hother => h other (by simp [hother])
      obtain ⟨digit, hdigit, rfl⟩ := hall c (List.contains_iff_mem.mp (h c (by simp)))
      exact ⟨digit :: digits, rfl, by simpa using ⟨hdigit, hdigits⟩⟩

/-- The digits of a numeral are lower-case. -/
theorem is_lower_hex_digits {digits : List Nat} (h : ∀ digit ∈ digits, digit < 16) :
    ∀ c ∈ (digits.map hexDigit).map (fun byte => Char.ofNat byte.toNat), isLowerHex c = true := by
  have hall : ∀ digit < 16, isLowerHex (Char.ofNat (hexDigit digit).toNat) = true := by
    decide +kernel
  intro c hc
  obtain ⟨byte, hbyte, rfl⟩ := List.mem_map.mp hc
  obtain ⟨digit, hdigit, rfl⟩ := List.mem_map.mp hbyte
  exact hall digit (h digit hdigit)

/-- The texts of the grammar are those that parse. -/
theorem parses_iff (text : String) : (∃ offset, fromStr text = .ok offset) ↔ IsOffsetText text := by
  constructor
  · rintro ⟨offset, h⟩
    obtain ⟨rfl, -⟩ | ⟨rfl, -⟩ | ⟨first, second, hnumerals, hbytes, -⟩ := from_str_eq_ok_iff.mp h
    · exact .inl rfl
    · exact .inr (.inl rfl)
    · have htext : text = String.ofList
          ((digitBytes first second).map fun byte => Char.ofNat byte.toNat) :=
        str_bytes_inj (by
          rw [hbytes, str_bytes_ascii (digit_bytes_ascii hnumerals.first_lt hnumerals.second_lt)])
      refine .inr (.inr ⟨_, _, ?_, ?_, ?_, is_lower_hex_digits hnumerals.first_lt,
        is_lower_hex_digits hnumerals.second_lt⟩)
      · rw [htext, String.toList_ofList, digitBytes, List.map_append, List.map_cons]
        rfl
      · simp [hnumerals.first_length]
      · simp [hnumerals.second_length]
  · rintro (rfl | rfl | ⟨first, second, htext, hfirst, hsecond, hfirst', hsecond'⟩)
    · exact ⟨.start, rfl⟩
    · exact ⟨.now, by decide⟩
    · obtain ⟨digits, rfl, hdigits⟩ := exists_hex_digits hfirst'
      obtain ⟨digits', rfl, hdigits'⟩ := exists_hex_digits hsecond'
      have hnumerals : Numerals digits digits' :=
        ⟨by simpa using hfirst, by simpa using hsecond, hdigits, hdigits'⟩
      have hchars : text = String.ofList
          ((digitBytes digits digits').map fun byte => Char.ofNat byte.toNat) := by
        rw [digitBytes, List.map_append, List.map_cons, ← String.ofList_toList (s := text), htext]
        rfl
      refine ⟨_, from_str_eq_ok_iff.mpr (.inr (.inr ⟨digits, digits', hnumerals, ?_, rfl⟩))⟩
      rw [hchars, str_bytes_ascii (digit_bytes_ascii hdigits hdigits')]

/-- Bytes that can be decoded are digits. -/
theorem hex_of_decode {bytes : Bytes} {before value : Nat}
    (h : bytes.foldlM (fun value byte => (hexValue byte).map fun digit =>
      wrap64 (value <<< 4) ||| digit) before = some value) :
    ∀ byte ∈ bytes, (hexValue byte).isSome = true := by
  induction bytes generalizing before with
  | nil => simp
  | cons byte bytes ih =>
      rw [List.foldlM_cons] at h
      obtain ⟨next, hnext, hrest⟩ := Option.bind_eq_some_iff.mp h
      obtain ⟨digit, hdigit, -⟩ := Option.map_eq_some_iff.mp hnext
      rw [List.forall_mem_cons, hdigit]
      exact ⟨rfl, ih hrest⟩

/-- Encoding inverts decoding, so that no bit of the bytes is lost. -/
theorem encode_decode_hex16 {bytes : Bytes} {value : Nat} (h : decodeHex16 bytes = some value) :
    value < 2 ^ 64 ∧ encodeHex16 value = bytes := by
  have hlength : bytes.length = 16 := by
    by_contra hne
    rw [decodeHex16, if_pos hne] at h
    exact nomatch h
  have hbytes : ∀ byte ∈ bytes, (hexValue byte).isSome = true := by
    rw [decodeHex16, if_neg (not_not.mpr hlength)] at h
    exact hex_of_decode h
  obtain ⟨digits, rfl, hdigits⟩ := exists_digits hbytes
  rw [List.length_map] at hlength
  have hvalue := numeral_value hdigits
  have hlt := numeral_value_lt hdigits
  rw [decode_hex16_eq hdigits hlength, Option.some.injEq] at h
  rw [hlength, h] at hvalue hlt
  exact ⟨hlt.trans_eq (by decide), by rw [encode_hex16_eq, hvalue]⟩

/-- Formatting and parsing of offsets are inverse to each other. The texts that parse are those of the
grammar, decoding loses no bit, and the bytes of every offset that is built or parsed are ASCII, so that
its text has exactly these bytes. -/
theorem offset_codec_bijective :
    (∀ readSeq byteOffset : UInt64,
      fromStr (new readSeq.toNat byteOffset.toNat).asStr =
        .ok (.concrete readSeq.toNat byteOffset.toNat
          (encodeOffset readSeq.toNat byteOffset.toNat)) ∧
      (encodeOffset readSeq.toNat byteOffset.toNat).length = 33 ∧
      strBytes (new readSeq.toNat byteOffset.toNat).asStr =
        encodeOffset readSeq.toNat byteOffset.toNat) ∧
    (∀ text, (∃ offset, fromStr text = .ok offset) ↔ IsOffsetText text) ∧
    (∀ text offset, fromStr text = .ok offset → offset.asStr = text ∧ offset.Valid) ∧
    (∀ bytes value, decodeHex16 bytes = some value → value < 2 ^ 64 ∧ encodeHex16 value = bytes) ∧
    ∀ readSeq byteOffset, ∀ byte ∈ encodeOffset readSeq byteOffset, byte.toNat < 128 := by
  refine ⟨fun readSeq byteOffset => ⟨?_, ?_, str_bytes_new _ _⟩, parses_iff, fun text offset h => ?_,
    fun bytes value => encode_decode_hex16, encode_offset_ascii⟩
  · exact from_str_as_str readSeq.toNat_lt byteOffset.toNat_lt
  · simp [encodeOffset, encodeHex16]
  · exact ⟨as_str_of_from_str h, valid_of_from_str h⟩

/-! ## The order of the texts -/

/-- Hexadecimal digits are in the order of their values. -/
theorem compare_hex_digit {first second : Nat} (hfirst : first < 16) (hsecond : second < 16) :
    compare (hexDigit first) (hexDigit second) = compare first second := by
  have hall : ∀ first : Fin 16, ∀ second : Fin 16,
      compare (hexDigit first) (hexDigit second) = compare first.val second.val := by
    decide +kernel
  exact hall ⟨first, hfirst⟩ ⟨second, hsecond⟩

/-- Numerals of 64-bit values are in the order of the values. -/
theorem compare_encode_hex16 {first second : Nat} (hfirst : first < 2 ^ 64)
    (hsecond : second < 2 ^ 64) :
    compare (encodeHex16 first) (encodeHex16 second) = compare first second := by
  have hwide : 2 ^ 64 = 16 ^ 16 := by decide
  rw [encode_hex16_eq, encode_hex16_eq, compare_map fun left hleft right hright =>
    compare_hex_digit (numeral_hex hleft) (numeral_hex hright)]
  exact compare_numeral (hwide ▸ hfirst) (hwide ▸ hsecond) (by decide)

/-- The texts of positions are in the order of the positions. -/
theorem compare_encode_offset {seq byte seq' byte' : Nat} (hseq : seq < 2 ^ 64)
    (hbyte : byte < 2 ^ 64) (hseq' : seq' < 2 ^ 64) (hbyte' : byte' < 2 ^ 64) :
    compare (encodeOffset seq byte) (encodeOffset seq' byte') =
      (compare seq seq').then (compare byte byte') := by
  have hlength : (encodeHex16 seq).length = (encodeHex16 seq').length := by simp [encodeHex16]
  rw [encodeOffset, encodeOffset, List.append_assoc, List.append_assoc,
    compare_append _ _ hlength, List.singleton_append, List.singleton_append, compare_cons,
    compare_encode_hex16 hseq hseq', compare_encode_hex16 hbyte hbyte']
  rfl

/-- The first byte of a position lies between those of the sentinels. -/
theorem compare_sentinels (readSeq byteOffset : Nat) :
    compare (strBytes "-1") (encodeOffset readSeq byteOffset) = .lt ∧
      compare (encodeOffset readSeq byteOffset) (strBytes "-1") = .gt ∧
      compare (strBytes "now") (encodeOffset readSeq byteOffset) = .gt ∧
      compare (encodeOffset readSeq byteOffset) (strBytes "now") = .lt := by
  have hall : ∀ digit : Fin 16, compare 45 (hexDigit digit) = .lt ∧
      compare (hexDigit digit) 45 = .gt ∧ compare 110 (hexDigit digit) = .gt ∧
      compare (hexDigit digit) 110 = .lt := by
    decide +kernel
  have hdigit : readSeq / 16 ^ 15 % 16 < 16 := Nat.mod_lt _ (by decide)
  obtain ⟨hstart, hstart', hnow, hnow'⟩ := hall ⟨_, hdigit⟩
  have hbytes : strBytes "-1" = [45, 49] ∧ strBytes "now" = [110, 111, 119] := by decide +kernel
  rw [hbytes.1, hbytes.2, encode_offset_eq, digitBytes, numeral, List.map_cons, List.cons_append]
  simp only [compare_cons, hstart, hstart', hnow, hnow', Ordering.then, and_self]

/-- A position with its own text. -/
theorem concrete_eq (readSeq byteOffset : Nat) :
    Offset.concrete readSeq byteOffset (encodeOffset readSeq byteOffset) =
      new readSeq byteOffset := rfl

/-- Comparing two offsets the other way round. -/
theorem cmp_swap (left right : Offset) : left.cmp right = (right.cmp left).swap := by
  have hnat (first second : Nat) : compare first second = (compare second first).swap :=
    Std.OrientedOrd.eq_swap
  cases left <;> cases right
  case concrete.concrete seq byte raw seq' byte' raw' =>
    simp only [cmp, parseComponents, Ordering.swap_then]
    rw [hnat seq, hnat byte]
  all_goals exact Std.OrientedOrd.eq_swap

/-- The order of offsets is the order of the bytes of their texts. -/
theorem cmp_eq_compare_text {left right : Offset} (hleft : left.Valid) (hright : right.Valid) :
    left.cmp right = compare (strBytes left.asStr) (strBytes right.asStr) := by
  cases left with
  | start =>
      cases right with
      | start | now => decide +kernel
      | concrete seq byte raw =>
          obtain ⟨-, -, rfl⟩ := hright
          rw [cmp_swap, concrete_eq, cmp_new_start, str_bytes_new]
          exact (compare_sentinels seq byte).1.symm
  | now =>
      cases right with
      | start | now => decide +kernel
      | concrete seq byte raw =>
          obtain ⟨-, -, rfl⟩ := hright
          rw [cmp_swap, concrete_eq, cmp_new_now, str_bytes_new]
          exact (compare_sentinels seq byte).2.2.1.symm
  | concrete seq byte raw =>
      obtain ⟨hseq, hbyte, rfl⟩ := hleft
      rw [concrete_eq, str_bytes_new]
      cases right with
      | start =>
          rw [cmp_new_start]
          exact (compare_sentinels seq byte).2.1.symm
      | now =>
          rw [cmp_new_now]
          exact (compare_sentinels seq byte).2.2.2.symm
      | concrete seq' byte' raw' =>
          obtain ⟨hseq', hbyte', rfl⟩ := hright
          rw [concrete_eq, str_bytes_new, compare_encode_offset hseq hbyte hseq' hbyte']
          rfl

/-- Offsets that are equal for the code have the same text. -/
theorem partial_eq_iff {left right : Offset} (hleft : left.Valid) (hright : right.Valid) :
    left.partialEq right = true ↔ left.asStr = right.asStr := by
  cases left <;> cases right
  case concrete.concrete seq byte raw seq' byte' raw' =>
    obtain ⟨hseq, hbyte, rfl⟩ := hleft
    obtain ⟨hseq', hbyte', rfl⟩ := hright
    simp only [partialEq, parseComponents, beq_iff_eq, Prod.mk.injEq]
    constructor
    · rintro ⟨rfl, rfl⟩
      rfl
    · intro htext
      have hparsed := from_str_as_str hseq hbyte
      have htext : (new seq byte).asStr = (new seq' byte').asStr := htext
      rw [htext, from_str_as_str hseq' hbyte', Except.ok.injEq, new_inj] at hparsed
      exact ⟨hparsed.1.symm, hparsed.2.symm⟩
  all_goals simp [partialEq, parseComponents]

/-- The order of offsets is the order of their texts, and for two positions the lexicographic order of
their components, between the sentinels. It is a total order whose equality is the one of the code. -/
theorem offset_order_is_text_order (first second third : Offset) (hfirst : first.Valid)
    (hsecond : second.Valid) (hthird : third.Valid) :
    first.cmp second = compare (strBytes first.asStr) (strBytes second.asStr) ∧
    (∀ seq byte raw seq' byte' raw', first = .concrete seq byte raw →
      second = .concrete seq' byte' raw' →
        (first.cmp second = .lt ↔ seq < seq' ∨ seq = seq' ∧ byte < byte')) ∧
    (∀ seq byte raw, first = .concrete seq byte raw →
      Offset.start.cmp first = .lt ∧ first.cmp .now = .lt) ∧
    first.cmp second = (second.cmp first).swap ∧
    (first.cmp second ≠ .gt → second.cmp third ≠ .gt → first.cmp third ≠ .gt) ∧
    (first.cmp second = .eq ↔ first.partialEq second = true) := by
  have htext := cmp_eq_compare_text hfirst hsecond
  refine ⟨htext, ?_, ?_, cmp_swap first second, ?_, ?_⟩
  · rintro seq byte raw seq' byte' raw' rfl rfl
    obtain ⟨-, -, rfl⟩ := hfirst
    exact cmp_new_lt_iff
  · rintro seq byte raw rfl
    obtain ⟨-, -, rfl⟩ := hfirst
    refine ⟨?_, cmp_new_now seq byte⟩
    rw [cmp_swap]
    exact congrArg Ordering.swap (cmp_new_start seq byte)
  · rw [htext, cmp_eq_compare_text hsecond hthird, cmp_eq_compare_text hfirst hthird]
    simp only [Ordering.ne_gt_iff_isLE]
    exact Std.TransOrd.isLE_trans
  · rw [partial_eq_iff hfirst hsecond, htext, Std.LawfulEqOrd.compare_eq_iff_eq]
    exact ⟨str_bytes_inj, fun h => by rw [h]⟩

theorem offset_order_is_text_order_sample :
    Offset.start.cmp (new 1 42) = .lt ∧ (new 1 42).cmp (new 10 0) ≠ .gt ∧
      (new 1 42).cmp (new 10 0) = compare (strBytes (new 1 42).asStr) (strBytes (new 10 0).asStr) := by
  have hvalid : (new 1 42).Valid ∧ (new 10 0).Valid := by
    refine ⟨⟨?_, ?_, rfl⟩, ?_, ?_, rfl⟩ <;> decide
  obtain ⟨htext, -, hsentinels, -⟩ :=
    offset_order_is_text_order (new 1 42) (new 10 0) .now hvalid.1 hvalid.2 trivial
  exact ⟨(hsentinels 1 42 _ rfl).1, by decide, htext⟩

end Offset

end DurableStreams
