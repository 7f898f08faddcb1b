import DurableStreams.Protocol.Decimals
import DurableStreams.Protocol.Text

/-!
# Producer headers

The parser of `protocol/producer.rs` for the three headers an idempotent producer sends. They come
together or not at all.

What it accepts is compared with a grammar that is stated on the header values (`WellFormedHeaders`).
The parser is more liberal in three ways: numbers may have a plus sign and leading zeros behind it, a
producer id may have a tab in it, and headers that are no text count as absent
(`parse_producer_headers_iff`).
-/

namespace DurableStreams

/-- The largest integer a JavaScript client represents exactly, `2 ^ 53 - 1`. -/
def maxSafeInteger : Nat := 9007199254740991

/-- Parse a non-negative integer without leading zeros, up to `maxSafeInteger`. -/
def parseNonNegativeInt (value headerName : String) : Result Nat :=
  let malformed : Error := .invalidProducerState
    (headerName ++ " must be a non-negative integer, got: " ++ value)
  if 1 < value.toList.length ∧ value.toList.head? = some '0' then .error malformed
  else
    match parseU64 value with
    | .error _ => .error malformed
    | .ok number =>
        if maxSafeInteger < number then
          .error (.invalidProducerState (headerName ++ " must not exceed 2^53-1, got: " ++ value))
        else .ok number

/-- Parse the producer headers of a request. -/
def parseProducerHeaders (headers : HeaderMap) : Result (Option ProducerHeaders) :=
  match headers.getStr Names.producerId, headers.getStr Names.producerEpoch,
    headers.getStr Names.producerSeq with
  | none, none, none => .ok none
  | some id, some epochStr, some seqStr =>
      if id.isEmpty then .error (.invalidProducerState "Producer-Id must not be empty")
      else
        match parseNonNegativeInt epochStr "Producer-Epoch" with
        | .error error => .error error
        | .ok epoch =>
            match parseNonNegativeInt seqStr "Producer-Seq" with
            | .error error => .error error
            | .ok seq => .ok (some ⟨id, epoch, seq⟩)
  | _, _, _ =>
      .error (.invalidProducerState
        "Producer-Id, Producer-Epoch, and Producer-Seq must all be provided together")

/-! ## Numbers -/

/-- A number as the parser takes it: a canonical decimal, or digits behind a plus sign. -/
def LiberalDecimal (text : List Char) (number : Nat) : Prop :=
  (CanonicalDecimal text ∧ decimalValue text = number) ∨
    ∃ digits, text = '+' :: digits ∧ digits ≠ [] ∧ digits.all Char.isDigit = true ∧
      decimalValue digits = number

/-- `parse_non_negative_int` accepts these numbers up to `maxSafeInteger`. -/
theorem parse_non_negative_int_ok {value headerName : String} {number : Nat} :
    parseNonNegativeInt value headerName = .ok number ↔
      LiberalDecimal value.toList number ∧ number ≤ maxSafeInteger := by
  have hfits : maxSafeInteger < 2 ^ 64 := by decide
  unfold parseNonNegativeInt
  dsimp only
  split
  · next hzero =>
      refine iff_of_false (fun h => by cases h) ?_
      rintro ⟨⟨hcanonical, -⟩ | ⟨digits, hdigits, -⟩, -⟩
      · exact (canonical_decimal_iff.mp hcanonical).2.2 hzero
      · rw [hdigits] at hzero
        simp at hzero
  next hzero =>
  have hparse (number : Nat) : parseU64 value = .ok number ↔
      LiberalDecimal value.toList number ∧ number < 2 ^ 64 := by
    rw [parse_u64_ok]
    constructor
    · rintro ⟨digits, hdigits | hdigits, hne, hall, hvalue, hlt⟩
      · rw [hdigits] at hzero ⊢
        exact ⟨.inl ⟨canonical_decimal_iff.mpr ⟨hne, hall, hzero⟩, hvalue⟩, hlt⟩
      · exact ⟨.inr ⟨digits, hdigits, hne, hall, hvalue⟩, hlt⟩
    · rintro ⟨⟨hcanonical, hvalue⟩ | ⟨digits, hdigits, hne, hall, hvalue⟩, hlt⟩
      · obtain ⟨hne, hall, -⟩ := canonical_decimal_iff.mp hcanonical
        exact ⟨_, .inl rfl, hne, hall, hvalue, hlt⟩
      · exact ⟨digits, .inr hdigits, hne, hall, hvalue, hlt⟩
  split
  · next error herror =>
      refine iff_of_false (fun h => by cases h) ?_
      rintro ⟨hliberal, hle⟩
      rw [(hparse number).mpr ⟨hliberal, Nat.lt_of_le_of_lt hle hfits⟩] at herror
      cases herror
  next parsed hparsed =>
  have hsame (h : LiberalDecimal value.toList number) (hle : number ≤ maxSafeInteger) :
      parsed = number := by
    have hnumber := (hparse number).mpr ⟨h, Nat.lt_of_le_of_lt hle hfits⟩
    exact Except.ok.inj (hparsed.symm.trans hnumber)
  split
  · next hlarge =>
      refine iff_of_false (fun h => by cases h) ?_
      rintro ⟨hliberal, hle⟩
      rw [hsame hliberal hle] at hlarge
      omega
  · next hsmall =>
      constructor
      · intro h
        obtain rfl : parsed = number := Except.ok.inj h
        exact ⟨((hparse parsed).mp hparsed).1, by omega⟩
      · rintro ⟨hliberal, hle⟩
        rw [hsame hliberal hle]

/-- What else the parser of a number returns. -/
theorem parse_non_negative_int_error {value headerName : String} {error : Error}
    (h : parseNonNegativeInt value headerName = .error error) :
    ∃ message, error = .invalidProducerState message := by
  unfold parseNonNegativeInt at h
  dsimp only at h
  split at h
  · exact ⟨_, (Except.error.inj h).symm⟩
  split at h
  · exact ⟨_, (Except.error.inj h).symm⟩
  split at h
  · exact ⟨_, (Except.error.inj h).symm⟩
  · cases h

/-! ## The grammar -/

/-- None of the three headers is there. -/
def NoProducerHeader (headers : HeaderMap) : Prop :=
  headers.get Names.producerId = none ∧ headers.get Names.producerEpoch = none ∧
    headers.get Names.producerSeq = none

/-- All three headers are there and well-formed: a producer id of visible ASCII, and two canonical
decimals up to `maxSafeInteger`. -/
def WellFormedHeaders (headers : HeaderMap) (parsed : ProducerHeaders) : Prop :=
  ∃ id epoch seq,
    headers.get Names.producerId = some id ∧ headers.get Names.producerEpoch = some epoch ∧
    headers.get Names.producerSeq = some seq ∧
    id ≠ [] ∧ (∀ byte ∈ id, 32 ≤ byte.toNat ∧ byte.toNat < 127) ∧ strBytes parsed.id = id ∧
    (∃ text : String, strBytes text = epoch ∧ CanonicalDecimal text.toList ∧
      decimalValue text.toList = parsed.epoch ∧ parsed.epoch ≤ maxSafeInteger) ∧
    ∃ text : String, strBytes text = seq ∧ CanonicalDecimal text.toList ∧
      decimalValue text.toList = parsed.seq ∧ parsed.seq ≤ maxSafeInteger

/-- There are producer headers, but none of them is text. -/
def OnlyUnreadable (headers : HeaderMap) : Prop :=
  ¬ NoProducerHeader headers ∧ headers.getStr Names.producerId = none ∧
    headers.getStr Names.producerEpoch = none ∧ headers.getStr Names.producerSeq = none

/-- The headers as the parser takes them. -/
def Accepted (headers : HeaderMap) (parsed : ProducerHeaders) (epoch seq : String) : Prop :=
  headers.getStr Names.producerId = some parsed.id ∧
    headers.getStr Names.producerEpoch = some epoch ∧ headers.getStr Names.producerSeq = some seq ∧
    parsed.id ≠ "" ∧
    (LiberalDecimal epoch.toList parsed.epoch ∧ parsed.epoch ≤ maxSafeInteger) ∧
    LiberalDecimal seq.toList parsed.seq ∧ parsed.seq ≤ maxSafeInteger

/-- The parser takes the headers, but a number has a plus sign or the producer id has a tab. -/
def Liberal (headers : HeaderMap) : Prop :=
  ∃ parsed epoch seq, Accepted headers parsed epoch seq ∧
    ('\t' ∈ parsed.id.toList ∨ epoch.toList.head? = some '+' ∨ seq.toList.head? = some '+')

section Parser

variable {headers : HeaderMap} {parsed : ProducerHeaders}

/-- When the parser finds no headers. -/
theorem parse_producer_headers_none :
    parseProducerHeaders headers = .ok none ↔
      headers.getStr Names.producerId = none ∧ headers.getStr Names.producerEpoch = none ∧
        headers.getStr Names.producerSeq = none := by
  unfold parseProducerHeaders
  split
  · next hid hepoch hseq => exact iff_of_true rfl ⟨hid, hepoch, hseq⟩
  · next id epoch seq hid hepoch hseq =>
      refine iff_of_false (fun h => ?_) (fun h => by rw [hid] at h; cases h.1)
      split at h
      · cases h
      split at h
      · cases h
      split at h
      · cases h
      · cases h
  · next hnone hsome => exact iff_of_false (fun h => by cases h) fun h => hnone h.1 h.2.1 h.2.2

/-- When the parser finds headers. -/
theorem parse_producer_headers_some :
    parseProducerHeaders headers = .ok (some parsed) ↔
      ∃ epoch seq, Accepted headers parsed epoch seq := by
  unfold parseProducerHeaders
  split
  · next hid hepoch hseq =>
      refine iff_of_false (fun h => by cases h) ?_
      rintro ⟨epoch, seq, hid', -⟩
      rw [hid] at hid'
      cases hid'
  · next id epoch seq hid hepoch hseq =>
      have hshape : (∃ epoch' seq', Accepted headers parsed epoch' seq') ↔
          parsed.id = id ∧ id ≠ "" ∧
            (LiberalDecimal epoch.toList parsed.epoch ∧ parsed.epoch ≤ maxSafeInteger) ∧
            LiberalDecimal seq.toList parsed.seq ∧ parsed.seq ≤ maxSafeInteger := by
        unfold Accepted
        rw [hid, hepoch, hseq]
        constructor
        · rintro ⟨epoch', seq', hid', hepoch', hseq', hrest⟩
          obtain rfl : id = parsed.id := Option.some.inj hid'
          obtain rfl : epoch = epoch' := Option.some.inj hepoch'
          obtain rfl : seq = seq' := Option.some.inj hseq'
          exact ⟨rfl, hrest⟩
        · rintro ⟨hid', hrest⟩
          exact ⟨epoch, seq, by rw [hid'], rfl, rfl, by rwa [hid']⟩
      rw [hshape]
      split
      · next hempty =>
          refine iff_of_false (fun h => by cases h) fun h => h.2.1 ?_
          rwa [String.isEmpty_iff] at hempty
      next hempty =>
      have hid' : id ≠ "" := by rwa [String.isEmpty_iff] at hempty
      split
      · next error herror =>
          refine iff_of_false (fun h => by cases h) fun h => ?_
          rw [parse_non_negative_int_ok.mpr h.2.2.1] at herror
          cases herror
      next epochNumber hepochNumber =>
      split
      · next error herror =>
          refine iff_of_false (fun h => by cases h) fun h => ?_
          rw [parse_non_negative_int_ok.mpr h.2.2.2] at herror
          cases herror
      next seqNumber hseqNumber =>
      constructor
      · intro h
        obtain rfl : ⟨id, epochNumber, seqNumber⟩ = parsed := Option.some.inj (Except.ok.inj h)
        exact ⟨rfl, hid', parse_non_negative_int_ok.mp hepochNumber,
          parse_non_negative_int_ok.mp hseqNumber⟩
      · rintro ⟨rfl, -, hepoch', hseq'⟩
        obtain rfl : parsed.epoch = epochNumber :=
          Except.ok.inj ((parse_non_negative_int_ok.mpr hepoch').symm.trans hepochNumber)
        obtain rfl : parsed.seq = seqNumber :=
          Except.ok.inj ((parse_non_negative_int_ok.mpr hseq').symm.trans hseqNumber)
        rfl
  · next hnone hsome =>
      refine iff_of_false (fun h => by cases h) ?_
      rintro ⟨epoch, seq, hid, hepoch, hseq, -⟩
      exact hsome _ _ _ hid hepoch hseq

/-- Its only error. -/
theorem parse_producer_headers_error {error : Error}
    (h : parseProducerHeaders headers = .error error) :
    ∃ message, error = .invalidProducerState message := by
  unfold parseProducerHeaders at h
  split at h
  · cases h
  · split at h
    · exact ⟨_, (Except.error.inj h).symm⟩
    split at h
    · next herror =>
        obtain rfl := Except.error.inj h
        exact parse_non_negative_int_error herror
    split at h
    · next herror =>
        obtain rfl := Except.error.inj h
        exact parse_non_negative_int_error herror
    · cases h
  · exact ⟨_, (Except.error.inj h).symm⟩

/-- `to_str` returns the text of visible ASCII. -/
theorem to_str_eq_some {value : Bytes} {text : String} :
    toStr value = some text ↔ strBytes text = value ∧ value.all isVisibleAscii = true := by
  unfold toStr
  split
  · next hvisible =>
      have hbytes : strBytes (String.ofList (value.map fun byte => Char.ofNat byte.toNat)) = value := by
        refine str_bytes_ascii fun byte hbyte => ?_
        have := List.all_eq_true.mp hvisible byte hbyte
        simp only [isVisibleAscii, Bool.or_eq_true, Bool.and_eq_true, decide_eq_true_eq,
          beq_iff_eq] at this
        omega
      rw [Option.some.injEq, and_iff_left hvisible]
      constructor
      · rintro rfl
        exact hbytes
      · intro h
        exact str_bytes_inj (hbytes.trans h.symm)
  · next hvisible => exact iff_of_false (fun h => by cases h) fun h => hvisible h.2

/-- The text of a header. -/
theorem get_str_eq_some {name text : String} :
    headers.getStr name = some text ↔
      headers.get name = some (strBytes text) ∧ (strBytes text).all isVisibleAscii = true := by
  rw [HeaderMap.getStr, Option.bind_eq_some_iff]
  constructor
  · rintro ⟨value, hget, htext⟩
    obtain ⟨rfl, hvisible⟩ := to_str_eq_some.mp htext
    exact ⟨hget, hvisible⟩
  · rintro ⟨hget, hvisible⟩
    exact ⟨_, hget, to_str_eq_some.mpr ⟨rfl, hvisible⟩⟩

/-- Digits are visible. -/
theorem digits_visible {text : String} (h : text.toList.all Char.isDigit = true) :
    (strBytes text).all isVisibleAscii = true := by
  rw [str_bytes_eq, Lib.utf8Encode, List.all_flatMap, List.all_eq_true]
  intro c hc
  have hdigit := List.all_eq_true.mp h c hc
  simp only [Char.isDigit, Bool.and_eq_true, decide_eq_true_eq, ge_iff_le,
    UInt32.le_iff_toNat_le] at hdigit
  obtain ⟨hlow, hhigh⟩ := hdigit
  have hrange : 48 ≤ c.toNat ∧ c.toNat ≤ 57 := ⟨hlow, hhigh⟩
  rcases Lib.utf8_encode_char_cases c with ⟨hascii, hcode⟩ | ⟨habove, -⟩
  · have hbyte : (UInt8.ofNat c.toNat).toNat = c.toNat :=
      UInt8.toNat_ofNat_of_lt' (Nat.lt_trans hascii (by decide))
    simp only [hcode, List.all_cons, List.all_nil, Bool.and_true, isVisibleAscii, hbyte]
    simp
    omega
  · omega

/-- A number without a plus sign is canonical. -/
theorem liberal_decimal_canonical {text : List Char} {number : Nat} :
    LiberalDecimal text number ∧ text.head? ≠ some '+' ↔
      CanonicalDecimal text ∧ decimalValue text = number := by
  constructor
  · rintro ⟨hcanonical | ⟨digits, rfl, -⟩, hplus⟩
    · exact hcanonical
    · exact absurd rfl hplus
  · intro h
    refine ⟨.inl h, fun hplus => ?_⟩
    obtain ⟨first, rest, htext, hdigit⟩ := h.1.head
    rw [htext, List.head?_cons, Option.some.injEq] at hplus
    rw [hplus] at hdigit
    exact absurd hdigit (by decide)

/-- The grammar in terms of the texts of the headers. -/
theorem well_formed_headers_iff :
    WellFormedHeaders headers parsed ↔
      ∃ epoch seq, Accepted headers parsed epoch seq ∧ '\t' ∉ parsed.id.toList ∧
        epoch.toList.head? ≠ some '+' ∧ seq.toList.head? ≠ some '+' := by
  have htab : (9 : UInt8) ∈ strBytes parsed.id ↔ '\t' ∈ parsed.id.toList :=
    mem_str_bytes (show '\t'.toNat < 128 by decide)
  have hdigits {text : String} (h : CanonicalDecimal text.toList) :
      (strBytes text).all isVisibleAscii = true :=
    digits_visible (canonical_decimal_iff.mp h).2.1
  constructor
  · rintro ⟨_, _, _, hid, hepoch, hseq, hne, hvisible, rfl, ⟨epoch, rfl, hepoch'⟩, seq, rfl, hseq'⟩
    obtain ⟨hliberal, hplus⟩ := liberal_decimal_canonical.mpr ⟨hepoch'.1, hepoch'.2.1⟩
    obtain ⟨hliberal', hplus'⟩ := liberal_decimal_canonical.mpr ⟨hseq'.1, hseq'.2.1⟩
    have hall : (strBytes parsed.id).all isVisibleAscii = true := by
      rw [List.all_eq_true]
      intro byte hbyte
      have := hvisible byte hbyte
      simp [isVisibleAscii, this]
    refine ⟨epoch, seq, ⟨get_str_eq_some.mpr ⟨hid, hall⟩, get_str_eq_some.mpr ⟨hepoch, hdigits hepoch'.1⟩,
      get_str_eq_some.mpr ⟨hseq, hdigits hseq'.1⟩, ?_, ⟨hliberal, hepoch'.2.2⟩, hliberal', hseq'.2.2⟩,
      fun hmem => ?_, hplus, hplus'⟩
    · intro hempty
      rw [hempty] at hne
      exact hne (by decide)
    · have := hvisible 9 (htab.mpr hmem)
      exact absurd this (by decide)
  · rintro ⟨epoch, seq, ⟨hid, hepoch, hseq, hne, hepoch', hseq'⟩, hnotab, hplus, hplus'⟩
    obtain ⟨hid, hvisible⟩ := get_str_eq_some.mp hid
    obtain ⟨hcanonical, hvalue⟩ := liberal_decimal_canonical.mp ⟨hepoch'.1, hplus⟩
    obtain ⟨hcanonical', hvalue'⟩ := liberal_decimal_canonical.mp ⟨hseq'.1, hplus'⟩
    refine ⟨_, _, _, hid, (get_str_eq_some.mp hepoch).1, (get_str_eq_some.mp hseq).1, ?_, ?_, rfl,
      ⟨epoch, rfl, hcanonical, hvalue, hepoch'.2⟩, seq, rfl, hcanonical', hvalue', hseq'.2⟩
    · intro hempty
      exact hne (str_bytes_inj (hempty.trans (by decide)))
    · intro byte hbyte
      have hbyte' := List.all_eq_true.mp hvisible byte hbyte
      simp only [isVisibleAscii, Bool.or_eq_true, Bool.and_eq_true, decide_eq_true_eq,
        beq_iff_eq] at hbyte'
      rcases hbyte' with hrange | hnine
      · exact hrange
      · have heq : byte = 9 := UInt8.toNat_inj.mp hnine
        rw [heq] at hbyte
        exact absurd (htab.mp hbyte) hnotab

end Parser

/-- The headers are parsed as the grammar says. -/
def ParsedByGrammar (headers : HeaderMap) : Prop :=
  (parseProducerHeaders headers = .ok none ↔ NoProducerHeader headers) ∧
    (∀ parsed, parseProducerHeaders headers = .ok (some parsed) ↔ WellFormedHeaders headers parsed) ∧
    (¬ NoProducerHeader headers → (∀ parsed, ¬ WellFormedHeaders headers parsed) →
      ∃ message, parseProducerHeaders headers = .error (.invalidProducerState message))

/-- The parser agrees with the grammar on exactly the headers that are not of one of the two kinds it
is too liberal for. -/
theorem parse_producer_headers_iff (headers : HeaderMap) :
    ParsedByGrammar headers ↔ ¬ OnlyUnreadable headers ∧ ¬ Liberal headers := by
  have habsent : NoProducerHeader headers →
      headers.getStr Names.producerId = none ∧ headers.getStr Names.producerEpoch = none ∧
        headers.getStr Names.producerSeq = none := by
    rintro ⟨hid, hepoch, hseq⟩
    exact ⟨by rw [HeaderMap.getStr, hid]; rfl, by rw [HeaderMap.getStr, hepoch]; rfl,
      by rw [HeaderMap.getStr, hseq]; rfl⟩
  constructor
  · rintro ⟨hnone, hsome, -⟩
    refine ⟨fun hunreadable => ?_, ?_⟩
    · exact hunreadable.1 (hnone.mp (parse_producer_headers_none.mpr hunreadable.2))
    · rintro ⟨parsed, epoch, seq, haccepted, hliberal⟩
      have hparsed := parse_producer_headers_some.mpr ⟨epoch, seq, haccepted⟩
      obtain ⟨epoch', seq', haccepted', hstrict⟩ :=
        well_formed_headers_iff.mp ((hsome parsed).mp hparsed)
      obtain rfl : epoch = epoch' := Option.some.inj (haccepted.2.1.symm.trans haccepted'.2.1)
      obtain rfl : seq = seq' := Option.some.inj (haccepted.2.2.1.symm.trans haccepted'.2.2.1)
      rcases hliberal with htab | hplus | hplus
      · exact hstrict.1 htab
      · exact hstrict.2.1 hplus
      · exact hstrict.2.2 hplus
  · rintro ⟨hreadable, hstrict⟩
    have hnone : parseProducerHeaders headers = .ok none ↔ NoProducerHeader headers := by
      rw [parse_producer_headers_none]
      refine ⟨fun h => ?_, habsent⟩
      by_contra hsome
      exact hreadable ⟨hsome, h⟩
    have hsome (parsed : ProducerHeaders) :
        parseProducerHeaders headers = .ok (some parsed) ↔ WellFormedHeaders headers parsed := by
      rw [parse_producer_headers_some, well_formed_headers_iff]
      refine exists_congr fun epoch => exists_congr fun seq => ⟨fun h => ⟨h, ?_⟩, And.left⟩
      refine ⟨fun htab => ?_, fun hplus => ?_, fun hplus => ?_⟩
      · exact hstrict ⟨parsed, epoch, seq, h, .inl htab⟩
      · exact hstrict ⟨parsed, epoch, seq, h, .inr (.inl hplus)⟩
      · exact hstrict ⟨parsed, epoch, seq, h, .inr (.inr hplus)⟩
    refine ⟨hnone, hsome, fun hpresent hmalformed => ?_⟩
    cases hparse : parseProducerHeaders headers with
    | ok found =>
        cases found with
        | none => exact absurd (hnone.mp hparse) hpresent
        | some parsed => exact absurd ((hsome parsed).mp hparse) (hmalformed parsed)
    | error error =>
        obtain ⟨message, rfl⟩ := parse_producer_headers_error hparse
        exact ⟨message, rfl⟩

/-- An epoch with a plus sign and leading zeros is accepted, and headers that are no text are
ignored. -/
theorem producer_headers_too_liberal :
    (parseProducerHeaders [(Names.producerId, strBytes "p"), (Names.producerEpoch, strBytes "+007"),
          (Names.producerSeq, strBytes "0")] = .ok (some ⟨"p", 7, 0⟩) ∧
        ¬ ParsedByGrammar [(Names.producerId, strBytes "p"), (Names.producerEpoch, strBytes "+007"),
          (Names.producerSeq, strBytes "0")]) ∧
      parseProducerHeaders [(Names.producerId, [255])] = .ok none ∧
        ¬ ParsedByGrammar [(Names.producerId, [255])] := by
  have hplus : parseProducerHeaders [(Names.producerId, strBytes "p"),
      (Names.producerEpoch, strBytes "+007"), (Names.producerSeq, strBytes "0")] =
        .ok (some ⟨"p", 7, 0⟩) := by decide +kernel
  have hunreadable : parseProducerHeaders [(Names.producerId, [255])] = .ok none := by decide +kernel
  refine ⟨⟨hplus, fun h => ?_⟩, hunreadable, fun h => ?_⟩
  · obtain ⟨epoch, seq, ⟨-, hepoch, -⟩, -, hstrict, -⟩ :=
      well_formed_headers_iff.mp ((h.2.1 _).mp hplus)
    have hget : HeaderMap.getStr [(Names.producerId, strBytes "p"),
        (Names.producerEpoch, strBytes "+007"), (Names.producerSeq, strBytes "0")]
          Names.producerEpoch = some "+007" := by decide +kernel
    rw [hget, Option.some.injEq] at hepoch
    rw [← hepoch] at hstrict
    exact hstrict (by decide +kernel)
  · exact absurd (h.1.mp hunreadable).1 (by decide +kernel)

end DurableStreams
