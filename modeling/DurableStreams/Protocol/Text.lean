import DurableStreams.Lib.Utf8
import DurableStreams.Storage.Basic

/-!
# Texts and their bytes

A text is encoded character by character (`str_bytes_eq`), and the texts of ASCII are its byte
strings (`str_bytes_ascii`).
-/

namespace DurableStreams

open Lib

/-- The bytes of a text. -/
theorem str_bytes_eq (text : String) : strBytes text = utf8Encode text.toList := by
  have htext : strBytes (String.ofList text.toList) = utf8Encode text.toList := by
    rw [strBytes, String.toByteArray_ofList, List.utf8Encode, List.data_toByteArray, utf8Encode]
  rwa [String.ofList_toList] at htext

/-- The bytes of two texts, one after the other. -/
theorem str_bytes_append (left right : String) :
    strBytes (left ++ right) = strBytes left ++ strBytes right := by
  rw [str_bytes_eq, str_bytes_eq, str_bytes_eq, String.toList_append, utf8Encode,
    List.flatMap_append]
  rfl

/-- The bytes of an ASCII text. -/
theorem str_bytes_ascii {raw : Bytes} (h : ∀ byte ∈ raw, byte.toNat < 128) :
    strBytes (String.ofList (raw.map fun byte => Char.ofNat byte.toNat)) = raw := by
  rw [str_bytes_eq, String.toList_ofList, utf8Encode]
  induction raw with
  | nil => rfl
  | cons byte raw ih =>
      rw [List.map_cons, List.flatMap_cons, utf8_encode_ascii (h byte (by simp)),
        ih fun other hother => h other (by simp [hother]), List.singleton_append]

/-- A character of ASCII is in a text if and only if its byte is. -/
theorem mem_str_bytes {text : String} {symbol : Char} (hsymbol : symbol.toNat < 128) :
    UInt8.ofNat symbol.toNat ∈ strBytes text ↔ symbol ∈ text.toList := by
  rw [str_bytes_eq, utf8Encode, List.mem_flatMap]
  constructor
  · rintro ⟨character, hmem, hbyte⟩
    rwa [(mem_utf8_encode_char hsymbol).mp hbyte] at hmem
  · intro hmem
    exact ⟨symbol, hmem, (mem_utf8_encode_char hsymbol).mpr rfl⟩

end DurableStreams
