import Mathlib.Tactic.Common

/-! # Texts as UTF-8 bytes -/

namespace Utf8

def encodeChar (char : Char) : List (BitVec 8) :=
  (String.utf8EncodeChar char).map UInt8.toBitVec

def encode (text : List Char) : List (BitVec 8) :=
  text.flatMap encodeChar

/-- The text that some bytes encode, if they encode one. -/
def decode (bytes : List (BitVec 8)) : Option (List Char) :=
  ((bytes.map UInt8.ofBitVec).toByteArray.utf8Decode?).map Array.toList

/-- The characters that take one byte. -/
def Ascii (text : List Char) : Prop :=
  ∀ char ∈ text, char.val ≤ 127

instance (text : List Char) : Decidable (Ascii text) :=
  List.decidableBAll (fun char : Char => char.val ≤ 127) text

@[simp] theorem encode_nil : encode [] = [] := rfl

@[simp] theorem encode_cons (char : Char) (text : List Char) : encode (char :: text) = encodeChar char ++ encode text :=
  List.flatMap_cons

theorem ascii_cons {char : Char} {text : List Char} : Ascii (char :: text) ↔ char.val ≤ 127 ∧ Ascii text := by
  simp [Ascii]

/-! ## Back and forth -/

theorem encode_eq_utf8Encode (text : List Char) :
    ((encode text).map UInt8.ofBitVec).toByteArray = text.utf8Encode := by
  have unwrapped : (encode text).map UInt8.ofBitVec = text.flatMap String.utf8EncodeChar := by
    simp [encode, encodeChar, List.map_flatMap, Function.comp_def]
  rw [unwrapped, List.utf8Encode]

@[simp] theorem decode_encode (text : List Char) : decode (encode text) = some text := by
  simp [decode, encode_eq_utf8Encode]

theorem encode_of_decode {bytes : List (BitVec 8)} {text : List Char} (decoded : decode bytes = some text) :
    encode text = bytes := by
  obtain ⟨characters, found, rfl⟩ := Option.map_eq_some_iff.mp decoded
  have present : (bytes.map UInt8.ofBitVec).toByteArray.utf8Decode?.isSome := by simp [found]
  have back := ByteArray.utf8Encode_get_utf8Decode? (h := present)
  simp only [found, Option.get_some] at back
  rw [← encode_eq_utf8Encode, List.toByteArray_inj] at back
  have wrapped := congrArg (List.map UInt8.toBitVec) back
  simpa [Function.comp_def] using wrapped

/-! ## Sizes

A text is at least as long in bytes as in characters, and as long only if it is ASCII. -/

theorem length_encodeChar (char : Char) : (encodeChar char).length = char.utf8Size := by
  simp [encodeChar]

theorem length_le_encode (text : List Char) : text.length ≤ (encode text).length := by
  induction text with
  | nil => simp
  | cons char text ih =>
    have positive := char.utf8Size_pos
    simp only [encode_cons, List.length_append, List.length_cons, length_encodeChar]
    omega

theorem ascii_iff (text : List Char) : Ascii text ↔ (encode text).length ≤ text.length := by
  induction text with
  | nil => simp [Ascii]
  | cons char text ih =>
    have positive := char.utf8Size_pos
    have rest := length_le_encode text
    rw [ascii_cons, ih, ← Char.utf8Size_eq_one_iff]
    simp only [encode_cons, List.length_append, List.length_cons, length_encodeChar]
    omega

theorem Ascii.length_encode {text : List Char} (ascii : Ascii text) : (encode text).length = text.length :=
  Nat.le_antisymm ((ascii_iff text).mp ascii) (length_le_encode text)

end Utf8
