/-
**Texts as Go's `strings` and `unicode` see them.**

* `runes`: a string that is no UTF-8 has U+FFFD for every byte that begins no rune.
* `isSpace`, `trimSpace`, `fields`, `index`, `indexAny`.
-/

import Cherm.Proto
import Mathlib.Tactic.Common

namespace GoText

open Cherm (Bytes fromUtf8)

/-- The first rune of some bytes, and how many bytes it has. -/
def firstRune (bytes : Bytes) : Option (Char × Nat) :=
  [1, 2, 3, 4].findSome? fun n => match (fromUtf8 (bytes.take n)).map String.toList with
    | some [c] => some (c, n)
    | _ => none

def runesWith : Nat → Bytes → List Char
  | 0, _ | _, [] => []
  | fuel + 1, byte :: rest => match firstRune (byte :: rest) with
    | some (c, n) => c :: runesWith fuel (rest.drop (n - 1))
    | none => '\ufffd' :: runesWith fuel rest

/-- The runes of a string. -/
def runes (bytes : Bytes) : List Char := runesWith bytes.length bytes

/-- `unicode.IsSpace`. -/
def isSpace (c : Char) : Bool :=
  (9 ≤ c.toNat && c.toNat ≤ 13) || c.toNat = 0x20 || c.toNat = 0x85 || c.toNat = 0xa0 ||
    c.toNat = 0x1680 || (0x2000 ≤ c.toNat && c.toNat ≤ 0x200a) || c.toNat = 0x2028 ||
    c.toNat = 0x2029 || c.toNat = 0x202f || c.toNat = 0x205f || c.toNat = 0x3000

/-- `strings.TrimSpace`. -/
def trimSpace (text : List Char) : List Char :=
  ((text.dropWhile isSpace).reverse.dropWhile isSpace).reverse

/-- `strings.Fields`. -/
def fields (text : List Char) : List (List Char) := (text.splitOnP isSpace).filter (· ≠ [])

/-- `strings.Index`: where a text first occurs in another. -/
def index (text sub : List Char) : Option Nat :=
  (List.range (text.length + 1)).find? fun i => sub.isPrefixOf (text.drop i)

/-- `strings.IndexAny`: where one of some characters first occurs. -/
def indexAny (text chars : List Char) : Option Nat := text.findIdx? fun c => chars.contains c

end GoText
