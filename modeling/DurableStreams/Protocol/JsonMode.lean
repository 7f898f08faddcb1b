import DurableStreams.Handlers.Get

/-!
# JSON mode

`process_append` of `protocol/json_mode.rs` over an abstract `serde_json`. The read side of JSON mode
is `Get.wrapReadIter`. What is assumed of `serde_json` is `SerdeJson.Lawful`.
-/

namespace DurableStreams

/-- What the server uses of `serde_json`: the type of JSON values, parsing with a message for
malformed input, and compact serialisation. -/
structure SerdeJson where
  Value : Type
  asArray : Value → Option (List Value)
  fromSlice : Bytes → Except String Value
  toVec : Value → Bytes

variable (serde : SerdeJson)

/-- Process JSON data for append: validate it and flatten a top-level array. -/
def processAppend (data : Bytes) : Result (List Bytes) :=
  match serde.fromSlice data with
  | .error message => .error (.invalidJson message)
  | .ok value =>
      match serde.asArray value with
      | some elements => .ok (elements.map serde.toVec)
      | none => .ok [serde.toVec value]

/-- The elements of a value that is an array, and the value itself otherwise. -/
def SerdeJson.elements (value : serde.Value) : List serde.Value :=
  (serde.asArray value).getD [value]

/-- The messages of a body are its elements, serialised. -/
theorem process_append_ok_iff {data : Bytes} {messages : List Bytes} :
    processAppend serde data = .ok messages ↔
      ∃ value, serde.fromSlice data = .ok value ∧
        messages = (serde.elements value).map serde.toVec := by
  unfold processAppend SerdeJson.elements
  cases serde.fromSlice data with
  | error message => simp
  | ok value => cases hvalue : serde.asArray value <;> simp [hvalue, eq_comm]

/-- Serialisation can be parsed back, an array is serialised as its elements between brackets and
commas, and the text is not empty and valid UTF-8 without line breaks. -/
structure SerdeJson.Lawful : Prop where
  parse_serialised : ∀ value, serde.fromSlice (serde.toVec value) = .ok value
  array : ∀ values, ∃ value, serde.asArray value = some values ∧
    serde.toVec value = Get.wrapReadIter (values.map serde.toVec)
  nonempty : ∀ value, serde.toVec value ≠ []
  utf8 : ∀ value, (serde.toVec value).toByteArray.validateUTF8 = true
  no_line_break : ∀ value, 10 ∉ serde.toVec value ∧ 13 ∉ serde.toVec value

/-! ## Nested arrays of zeros -/

/-- The JSON values built from zero and arrays. -/
inductive Tree where
  | zero
  | array (elements : List Tree)

namespace Tree

mutual

/-- Compact serialisation. -/
def text : Tree → Bytes
  | .zero => [48]
  | .array [] => [91, 93]
  | .array (first :: rest) => 91 :: (first.text ++ textRest rest)

/-- The elements of an array behind its first one, and the closing bracket. -/
def textRest : List Tree → Bytes
  | [] => [93]
  | tree :: rest => 44 :: (tree.text ++ textRest rest)

end

/-- Read one byte. The stack holds the arrays that are open, innermost first, each with the elements
read so far in reverse. -/
def readByte : List (List Tree) → UInt8 → Option (List (List Tree))
  | inner :: outer, 48 => some ((.zero :: inner) :: outer)
  | stack, 91 => some ([] :: stack)
  | stack, 44 => some stack
  | inner :: outer :: rest, 93 => some ((.array inner.reverse :: outer) :: rest)
  | _, _ => none

/-- Parse a text that holds a single value. -/
def parse (data : Bytes) : Except String Tree :=
  match data.foldlM readByte [[]] with
  | some [[tree]] => .ok tree
  | _ => .error "expected value"

mutual

/-- Reading a serialised value adds it to the innermost open array. -/
theorem read_text (tree : Tree) (inner : List Tree) (outer : List (List Tree)) :
    tree.text.foldlM readByte (inner :: outer) = some ((tree :: inner) :: outer) := by
  match tree with
  | .zero => rfl
  | .array [] => rfl
  | .array (first :: rest) =>
      rw [text, List.foldlM_cons, readByte, Option.bind_eq_bind, Option.bind_some,
        List.foldlM_append, read_text first, Option.bind_eq_bind, Option.bind_some, read_rest rest]
      simp

/-- Reading the rest of an array closes it. -/
theorem read_rest (rest inner outer : List Tree) (stack : List (List Tree)) :
    (textRest rest).foldlM readByte (inner :: outer :: stack) =
      some ((.array (inner.reverse ++ rest) :: outer) :: stack) := by
  match rest with
  | [] =>
      rw [List.append_nil]
      rfl
  | tree :: rest =>
      rw [textRest, List.foldlM_cons, readByte, Option.bind_eq_bind, Option.bind_some,
        List.foldlM_append, read_text tree, Option.bind_eq_bind, Option.bind_some, read_rest rest]
      simp

end

mutual

/-- The bytes of a serialised value. -/
theorem mem_text (tree : Tree) (byte : UInt8) (h : byte ∈ tree.text) :
    byte ∈ [48, 91, 93, 44] := by
  match tree with
  | .zero => simp_all [text]
  | .array [] =>
      simp only [text, List.mem_cons, List.not_mem_nil, or_false] at h
      rcases h with rfl | rfl <;> decide
  | .array (first :: rest) =>
      simp only [text, List.mem_cons, List.mem_append] at h
      rcases h with rfl | h | h
      · decide
      · exact mem_text first byte h
      · exact mem_text_rest rest byte h

/-- The bytes of the rest of an array. -/
theorem mem_text_rest (rest : List Tree) (byte : UInt8) (h : byte ∈ textRest rest) :
    byte ∈ [48, 91, 93, 44] := by
  match rest with
  | [] => simp_all [textRest]
  | tree :: rest =>
      simp only [textRest, List.mem_cons, List.mem_append] at h
      rcases h with rfl | h | h
      · decide
      · exact mem_text tree byte h
      · exact mem_text_rest rest byte h

end

end Tree

/-- Nested arrays of zeros as a `serde_json`. -/
def nestedZeros : SerdeJson where
  Value := Tree
  asArray
    | .zero => none
    | .array elements => some elements
  fromSlice := Tree.parse
  toVec := Tree.text

end DurableStreams
