/-
**UTF-8, between lists.**

`encode` writes characters as bytes and `decode` reads them back (`decode_encode`). An ASCII text is
decoded byte by byte, which takes few steps to evaluate; any other text is left to the strings of
the language.
-/

import Mathlib.Data.List.Basic
import Mathlib.Tactic.Common

namespace Utf8

abbrev Bytes := List UInt8

/-- The bytes of the characters. -/
def encode (chars : List Char) : Bytes := chars.flatMap String.utf8EncodeChar

/-- Every byte is a character of its own. -/
def isAscii (bytes : Bytes) : Bool := bytes.all fun byte => byte.toNat < 128

/-- The character of an ASCII byte. -/
def charOf (byte : UInt8) : Char := Char.ofNat byte.toNat

/-- The characters of the bytes, if they are UTF-8. -/
def decode (bytes : Bytes) : Option (List Char) :=
  if isAscii bytes then some (bytes.map charOf)
  else (String.fromUTF8? ⟨bytes.toArray⟩).map String.toList

theorem bytes_ofList (chars : List Char) :
    (String.ofList chars).toByteArray.data.toList = encode chars := by
  simp [encode, List.utf8Encode]

theorem fromUTF8_bytes (text : String) :
    String.fromUTF8? ⟨text.toByteArray.data.toList.toArray⟩ = some text := by
  simp [String.fromUTF8?, String.fromUTF8, text.isValidUTF8]

/-- A character of which every byte is ASCII has one byte. -/
theorem map_charOf {c : Char} (ascii : isAscii (String.utf8EncodeChar c) = true) :
    (String.utf8EncodeChar c).map charOf = [c] := by
  by_cases small : c.val.toNat ≤ 0x7f
  · have byte : String.utf8EncodeChar c = [UInt8.ofNat c.val.toNat] := by
      simp only [String.utf8EncodeChar, if_pos small]
    have value : (UInt8.ofNat c.val.toNat).toNat = c.toNat :=
      UInt8.toNat_ofNat_of_lt' (Nat.lt_of_le_of_lt small (by decide))
    rw [byte, List.map_singleton, charOf, value, Char.ofNat_toNat]
  · -- the first byte of a longer character is 0xc0 at least
    simp only [String.utf8EncodeChar, if_neg small] at ascii
    split_ifs at ascii <;> simp [isAscii] at ascii <;> omega

/-- **Round trip.** -/
theorem decode_encode (chars : List Char) : decode (encode chars) = some chars := by
  unfold decode
  split_ifs with ascii
  · refine congrArg some ?_
    induction chars with
    | nil => rfl
    | cons c rest ih =>
        simp only [isAscii, encode, List.flatMap_cons, List.all_append, Bool.and_eq_true] at ascii
        rw [encode, List.flatMap_cons, List.map_append, map_charOf ascii.1]
        exact congrArg (c :: ·) (ih ascii.2)
  · rw [← bytes_ofList, fromUTF8_bytes, Option.map_some, String.toList_ofList]

end Utf8
