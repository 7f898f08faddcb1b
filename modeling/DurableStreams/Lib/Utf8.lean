import DurableStreams.Lib.Lines

/-!
# Texts in UTF-8

What a parser that goes through a text byte by byte has to know: an ASCII character is one byte, and
all bytes of any other character are outside ASCII, with the first one no continuation byte. So a
byte below 128 stands for itself, the position behind it is the start of a character
(`follows_ascii`), and the lines of a text are those of its bytes (`break_lines_utf8`).
-/

namespace DurableStreams.Lib

/-- The encoding of a text. -/
def utf8Encode (text : List Char) : List UInt8 := text.flatMap String.utf8EncodeChar

/-- A byte inside a character. -/
def isContinuation (byte : UInt8) : Bool := 128 ≤ byte.toNat && byte.toNat < 192

/-- A character is one byte in ASCII, or bytes outside it that begin with one that is no continuation. -/
theorem utf8_encode_char_cases (character : Char) :
    (character.toNat < 128 ∧ String.utf8EncodeChar character = [UInt8.ofNat character.toNat]) ∨
      (128 ≤ character.toNat ∧ ∃ first rest, String.utf8EncodeChar character = first :: rest ∧
        192 ≤ first.toNat ∧ ∀ byte ∈ rest, 128 ≤ byte.toNat) := by
  have hof {value : Nat} (h : value < 256) : (UInt8.ofNat value).toNat = value :=
    UInt8.toNat_ofNat_of_lt' h
  have hvalue : character.val.toNat = character.toNat := rfl
  unfold String.utf8EncodeChar
  dsimp only
  rw [hvalue]
  split
  · next hle => exact .inl ⟨by omega, rfl⟩
  next hgt =>
  refine .inr ⟨by omega, ?_⟩
  split
  · refine ⟨_, _, rfl, ?_, ?_⟩
    · rw [hof (by omega)]
      omega
    · intro byte hbyte
      obtain rfl := List.mem_singleton.mp hbyte
      rw [hof (by omega)]
      omega
  split
  · refine ⟨_, _, rfl, ?_, ?_⟩
    · rw [hof (by omega)]
      omega
    · intro byte hbyte
      simp only [List.mem_cons, List.not_mem_nil, or_false] at hbyte
      rcases hbyte with rfl | rfl <;> rw [hof (by omega)] <;> omega
  · refine ⟨_, _, rfl, ?_, ?_⟩
    · rw [hof (by omega)]
      omega
    · intro byte hbyte
      simp only [List.mem_cons, List.not_mem_nil, or_false] at hbyte
      rcases hbyte with rfl | rfl | rfl <;> rw [hof (by omega)] <;> omega

/-- The character of an ASCII byte is encoded as that byte. -/
theorem utf8_encode_ascii {byte : UInt8} (h : byte.toNat < 128) :
    String.utf8EncodeChar (Char.ofNat byte.toNat) = [byte] := by
  have hall : ∀ n : Fin 128, String.utf8EncodeChar (Char.ofNat n) = [n.val.toUInt8] := by
    decide +kernel
  have hbyte := hall ⟨byte.toNat, h⟩
  rwa [Nat.toUInt8_eq, UInt8.ofNat_toNat] at hbyte

/-- A text does not begin inside a character. -/
theorem head_utf8_encode (text : List Char) :
    ∀ byte ∈ (utf8Encode text).head?, isContinuation byte = false := by
  intro byte hbyte
  cases text with
  | nil => cases hbyte
  | cons character text =>
      rw [utf8Encode, List.flatMap_cons] at hbyte
      rcases utf8_encode_char_cases character with ⟨hascii, hcode⟩ | ⟨-, first, rest, hcode, hfirst, -⟩
      · rw [hcode] at hbyte
        obtain rfl := Option.some.inj hbyte
        have hbyte : (UInt8.ofNat character.toNat).toNat = character.toNat :=
          UInt8.toNat_ofNat_of_lt' (Nat.lt_trans hascii (by decide))
        simp only [isContinuation, hbyte, Bool.and_eq_false_iff, decide_eq_false_iff_not]
        omega
      · rw [hcode] at hbyte
        obtain rfl := Option.some.inj hbyte
        simp only [isContinuation, Bool.and_eq_false_iff, decide_eq_false_iff_not]
        omega

/-- Behind a byte of ASCII no character goes on. -/
theorem follows_ascii {text : List Char} {front back : List UInt8} {byte : UInt8}
    (h : utf8Encode text = front ++ byte :: back) (hascii : byte.toNat < 128) :
    ∀ next ∈ back.head?, isContinuation next = false := by
  induction text generalizing front with
  | nil => simp [utf8Encode] at h
  | cons character text ih =>
      rw [utf8Encode, List.flatMap_cons, ← utf8Encode] at h
      -- The byte is in the code of a later character, or it is the first one.
      rcases List.append_eq_append_iff.mp h with ⟨middle, hfront, hrest⟩ | ⟨middle, hcode, hrest⟩
      · exact ih hrest
      · cases middle with
        | nil => exact @ih [] (by simpa using hrest.symm)
        | cons first middle =>
            obtain ⟨rfl, hback⟩ := List.cons.inj hrest
            rcases utf8_encode_char_cases character with ⟨-, hone⟩ | ⟨-, first, rest, hone, hfirst, hall⟩
            · rw [hone] at hcode
              have hmiddle : middle = [] := by
                have hlength := congrArg List.length hcode
                simp only [List.length_append, List.length_cons, List.length_nil] at hlength
                exact List.eq_nil_of_length_eq_zero (by omega)
              rw [hback, hmiddle]
              exact head_utf8_encode text
            · -- Outside ASCII there is no such byte.
              have hmem : byte ∈ first :: rest := by
                rw [← hone, hcode]
                simp
              rcases List.mem_cons.mp hmem with rfl | hmem
              · omega
              · have := hall byte hmem
                omega

/-- A byte of ASCII only occurs where it stands for itself. -/
theorem mem_utf8_encode_char {symbol character : Char} (hsymbol : symbol.toNat < 128) :
    UInt8.ofNat symbol.toNat ∈ String.utf8EncodeChar character ↔ character = symbol := by
  have hof {value : Nat} (h : value < 128) : (UInt8.ofNat value).toNat = value :=
    UInt8.toNat_ofNat_of_lt' (Nat.lt_trans h (by decide))
  rcases utf8_encode_char_cases character with
    ⟨hascii, hcode⟩ | ⟨habove, first, rest, hcode, hfirst, hall⟩
  · rw [hcode, List.mem_singleton, ← UInt8.toNat_inj, hof hsymbol, hof hascii, Char.toNat_inj,
      eq_comm]
  · refine iff_of_false (fun hmem => ?_) (fun heq => ?_)
    · rw [hcode, List.mem_cons] at hmem
      rcases hmem with heq | hmem
      · rw [← heq, hof hsymbol] at hfirst
        omega
      · have := hall _ hmem
        rw [hof hsymbol] at this
        omega
    · rw [heq] at habove
      omega

/-- A text begins with the characters its bytes begin with. -/
theorem head_utf8_encode_eq {symbol : Char} (hsymbol : symbol.toNat < 128) (text : List Char) :
    (utf8Encode text).head? = some (UInt8.ofNat symbol.toNat) ↔ text.head? = some symbol := by
  cases text with
  | nil => simp [utf8Encode]
  | cons character text =>
      have hmem := @mem_utf8_encode_char symbol character hsymbol
      rw [utf8Encode, List.flatMap_cons, List.head?_cons, Option.some.injEq, ← hmem]
      rcases utf8_encode_char_cases character with ⟨-, hcode⟩ | ⟨habove, first, rest, hcode, -, -⟩
      · simp [hcode, eq_comm]
      · refine iff_of_false (fun hhead => ?_) (fun hin => ?_)
        · rw [hcode, List.cons_append, List.head?_cons, Option.some.injEq] at hhead
          have hin : UInt8.ofNat symbol.toNat ∈ String.utf8EncodeChar character := by
            rw [hcode, hhead]
            exact List.mem_cons_self ..
          rw [hmem.mp hin] at habove
          omega
        · rw [hmem.mp hin] at habove
          omega

/-- The lines of the encoding are the encodings of the lines. -/
theorem break_lines_utf8 (text : List Char) :
    breakLines 13 10 false (utf8Encode text) =
      (breakLines '\r' '\n' false text).map utf8Encode := by
  refine break_lines_flat_map (by decide) (by decide) (by decide) ?_ false text
  intro character hcr hlf
  refine ⟨?_, ?_, ?_⟩
  · rcases utf8_encode_char_cases character with ⟨-, hcode⟩ | ⟨-, first, rest, hcode, -, -⟩ <;>
      simp [hcode]
  · intro hmem
    exact hcr ((@mem_utf8_encode_char '\r' character (by decide)).mp hmem)
  · intro hmem
    exact hlf ((@mem_utf8_encode_char '\n' character (by decide)).mp hmem)

end DurableStreams.Lib
