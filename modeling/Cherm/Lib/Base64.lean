/-
**Base64 (RFC 4648 §4): the padded and the unpadded encoding, and canonical decoding.**

* `encode` closes the last quantum with `=`; `encodeUnpadded` does not.
* `decode` accepts a text only if it is the padded encoding of the bytes it stands for, which is
  canonical padding and zero trailing bits in one test (`decode_eq_some_iff`).
* `decode_encodeUnpadded`: the two encodings part on every length that is not a multiple of three.
  An unpadded text of such bytes is never decoded.
-/

import Mathlib.Data.List.Basic
import Mathlib.Tactic.Common

namespace Base64

abbrev Bytes := List UInt8

/-- The sixty-four symbols, in order of their value. -/
def symbols : List Char := [
  'A', 'B', 'C', 'D', 'E', 'F', 'G', 'H', 'I', 'J', 'K', 'L', 'M', 'N', 'O', 'P',
  'Q', 'R', 'S', 'T', 'U', 'V', 'W', 'X', 'Y', 'Z', 'a', 'b', 'c', 'd', 'e', 'f',
  'g', 'h', 'i', 'j', 'k', 'l', 'm', 'n', 'o', 'p', 'q', 'r', 's', 't', 'u', 'v',
  'w', 'x', 'y', 'z', '0', '1', '2', '3', '4', '5', '6', '7', '8', '9', '+', '/']

/-- The symbol of a sextet. -/
def symbol (sextet : Nat) : Char := symbols.getD sextet '='

/-- The sextet of a symbol; `=` and everything outside the alphabet have none. -/
def symbolValue (c : Char) : Option Nat := symbols.findIdx? (· == c)

/-- Three bytes are four sextets; a shorter last quantum has its low bits zero. -/
def sextets : Bytes → List Nat
  | [] => []
  | [a] => [a.toNat / 4, a.toNat % 4 * 16]
  | [a, b] => [a.toNat / 4, a.toNat % 4 * 16 + b.toNat / 16, b.toNat % 16 * 4]
  | a :: b :: c :: rest =>
      a.toNat / 4 :: (a.toNat % 4 * 16 + b.toNat / 16) :: (b.toNat % 16 * 4 + c.toNat / 64) ::
        c.toNat % 64 :: sextets rest

/-- Four sextets are three bytes; the spare bits of a shorter last quantum are dropped. -/
def unsextets : List Nat → Bytes
  | a :: b :: c :: d :: rest =>
      UInt8.ofNat (a * 4 + b / 16) :: UInt8.ofNat (b % 16 * 16 + c / 4) ::
        UInt8.ofNat (c % 4 * 64 + d) :: unsextets rest
  | [a, b, c] => [UInt8.ofNat (a * 4 + b / 16), UInt8.ofNat (b % 16 * 16 + c / 4)]
  | [a, b] => [UInt8.ofNat (a * 4 + b / 16)]
  | _ => []

/-- The encoding without `=`. -/
def encodeUnpadded (bytes : Bytes) : String := String.ofList ((sextets bytes).map symbol)

/-- The number of `=` that close the last quantum. -/
def padding (bytes : Bytes) : Nat := (3 - bytes.length % 3) % 3

/-- The encoding with `=`. -/
def encode (bytes : Bytes) : String :=
  String.ofList ((sextets bytes).map symbol ++ List.replicate (padding bytes) '=')

/-- The bytes a text stands for, if it is their padded encoding. -/
def decode (text : String) : Option Bytes :=
  let bytes := unsextets (text.toList.filterMap symbolValue)
  if encode bytes = text then some bytes else none

/-! ### Symbols and sextets -/

theorem symbolValue_symbol {sextet : Nat} (small : sextet < 64) :
    symbolValue (symbol sextet) = some sextet := by
  have all : ∀ n : Fin 64, symbolValue (symbol n.val) = some n.val := by decide +kernel
  exact all ⟨sextet, small⟩

theorem symbolValue_pad : symbolValue '=' = none := by decide

theorem sextets_lt (bytes : Bytes) : ∀ sextet ∈ sextets bytes, sextet < 64 := by
  induction bytes using sextets.induct with
  | case1 => simp [sextets]
  | case2 a =>
      have := a.toNat_lt
      simp only [sextets, List.mem_cons, List.not_mem_nil, or_false, forall_eq_or_imp, forall_eq]
      omega
  | case3 a b =>
      have := a.toNat_lt
      have := b.toNat_lt
      simp only [sextets, List.mem_cons, List.not_mem_nil, or_false, forall_eq_or_imp, forall_eq]
      omega
  | case4 a b c rest ih =>
      have := a.toNat_lt
      have := b.toNat_lt
      have := c.toNat_lt
      simp only [sextets, List.mem_cons, forall_eq_or_imp]
      exact ⟨by omega, by omega, by omega, by omega, ih⟩

/-- A byte is recovered from its arithmetic. -/
theorem ofNat_eq_byte {byte : UInt8} {value : Nat} (same : value = byte.toNat) :
    UInt8.ofNat value = byte := by
  rw [same, UInt8.ofNat_toNat]

/-- **The round trip on sextets.** -/
theorem unsextets_sextets (bytes : Bytes) : unsextets (sextets bytes) = bytes := by
  induction bytes using sextets.induct with
  | case1 => rfl
  | case2 a =>
      have := a.toNat_lt
      simp only [sextets, unsextets, List.cons.injEq, and_true]
      exact ofNat_eq_byte (by omega)
  | case3 a b =>
      have := a.toNat_lt
      have := b.toNat_lt
      simp only [sextets, unsextets, List.cons.injEq, and_true]
      exact ⟨ofNat_eq_byte (by omega), ofNat_eq_byte (by omega)⟩
  | case4 a b c rest ih =>
      have := a.toNat_lt
      have := b.toNat_lt
      have := c.toNat_lt
      simp only [sextets, unsextets, List.cons.injEq, ih, and_true]
      exact ⟨ofNat_eq_byte (by omega), ofNat_eq_byte (by omega), ofNat_eq_byte (by omega)⟩

theorem filterMap_symbolValue (values : List Nat) (small : ∀ value ∈ values, value < 64) :
    (values.map symbol).filterMap symbolValue = values := by
  induction values with
  | nil => rfl
  | cons value rest ih =>
      rw [List.map_cons, List.filterMap_cons, symbolValue_symbol (small value List.mem_cons_self),
        ih fun other member => small other (List.mem_cons_of_mem value member)]

/-! ### Decoding -/

/-- **Round trip.** -/
theorem decode_encode (bytes : Bytes) : decode (encode bytes) = some bytes := by
  have pads : (List.replicate (padding bytes) '=').filterMap symbolValue = [] := by
    rw [List.filterMap_eq_nil_iff]
    intro c member
    rw [(List.mem_replicate.mp member).2, symbolValue_pad]
  have stands : unsextets ((encode bytes).toList.filterMap symbolValue) = bytes := by
    rw [encode, String.toList_ofList, List.filterMap_append, pads, List.append_nil,
      filterMap_symbolValue _ (sextets_lt bytes), unsextets_sextets]
  unfold decode
  simp only [stands, if_true]

/-- **Only the padded encoding is decoded.** -/
theorem decode_eq_some_iff {text : String} {bytes : Bytes} :
    decode text = some bytes ↔ text = encode bytes := by
  constructor
  · intro decoded
    simp only [decode] at decoded
    split at decoded
    · next canonical =>
        rw [← Option.some.inj decoded]
        exact canonical.symm
    · cases decoded
  · rintro rfl
    exact decode_encode bytes

theorem length_sextets (bytes : Bytes) : (sextets bytes).length = (4 * bytes.length + 2) / 3 := by
  induction bytes using sextets.induct with
  | case1 => rfl
  | case2 a => simp [sextets]
  | case3 a b => simp [sextets]
  | case4 a b c rest ih =>
      simp only [sextets, List.length_cons, ih]
      omega

theorem length_encode (bytes : Bytes) : (encode bytes).toList.length % 4 = 0 := by
  rw [encode, String.toList_ofList, List.length_append, List.length_map, List.length_replicate,
    length_sextets, padding]
  obtain rest | rest | rest : bytes.length % 3 = 0 ∨ bytes.length % 3 = 1 ∨
      bytes.length % 3 = 2 := by
    omega
  all_goals
    rw [rest]
    omega

theorem length_encodeUnpadded (bytes : Bytes) :
    (encodeUnpadded bytes).toList.length = (4 * bytes.length + 2) / 3 := by
  rw [encodeUnpadded, String.toList_ofList, List.length_map, length_sextets]

/-- **The unpadded text of a ragged length is never decoded.** -/
theorem decode_encodeUnpadded {bytes : Bytes} (ragged : bytes.length % 3 ≠ 0) :
    decode (encodeUnpadded bytes) = none := by
  rw [Option.eq_none_iff_forall_not_mem]
  intro other decoded
  have canonical := decode_eq_some_iff.mp decoded
  have quanta := length_encode other
  rw [← canonical, length_encodeUnpadded] at quanta
  omega

end Base64
