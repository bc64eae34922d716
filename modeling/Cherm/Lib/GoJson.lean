/-
**What Go's `json.Marshal` writes.**

Beside what has to be escaped it escapes the characters that HTML reads as its own, and the two line
separators of Unicode; the keys of a map are in ascending order.

* `parseDeep_marshal`: any reader of JSON texts reads the value back, in normal form.
* `marshal_visible`, `marshal_obj`: the text is one line, from a brace to a brace.
-/

import Cherm.Lib.JsonExact

namespace GoJson

open Json

/-- `appendString`, for one character. -/
def escapeChar (c : Char) : List Char :=
  match shortEscapes.lookup c with
  | some letter => ['\\', letter]
  | none =>
      if c.toNat < 32 ∨ c = '<' ∨ c = '>' ∨ c = '&' then
        ['\\', 'u', '0', '0', Nat.digitChar (c.toNat / 16), Nat.digitChar (c.toNat % 16)]
      else if c.toNat = 0x2028 ∨ c.toNat = 0x2029 then
        ['\\', 'u', '2', '0', '2', Nat.digitChar (c.toNat % 16)]
      else [c]

def escape (text : List Char) : List Char := text.flatMap escapeChar

/-- `json.Marshal` of maps, lists and texts. -/
def marshal (value : Json) : List Char := write escape value.normal

theorem readChars_separator (c : Char) (isSeparator : c.toNat = 0x2028 ∨ c.toNat = 0x2029)
    (text rest tail : List Char) (reads : readChars rest = some (text, tail)) :
    readChars ('\\' :: 'u' :: '2' :: '0' :: '2' :: Nat.digitChar (c.toNat % 16) :: rest) =
      some (c :: text, tail) := by
  have two : hexValue '2' = some 2 := by decide
  have zero : hexValue '0' = some 0 := by decide
  have value : 2 * 4096 + 0 * 256 + 2 * 16 + c.toNat % 16 = c.toNat := by omega
  have below : c.toNat < 0xd800 := by omega
  have digit := hexValue_digitChar (Nat.mod_lt c.toNat (by decide : 16 > 0))
  simp only [readChars, two, zero, digit, reads, Option.bind_eq_bind, Option.bind_some, value,
    if_pos below, Char.ofNat_toNat]

theorem reads_escape : Reads escape := by
  refine reads_flatMap fun c text rest tail reads => ?_
  unfold escapeChar
  split
  · next letter short =>
      obtain ⟨notHex, stands⟩ := mem_shortEscapes short
      exact readChars_letter notHex stands text rest tail reads
  · next plain =>
      split
      · next escaped =>
          have small : c.toNat < 256 := by
            rcases escaped with control | rfl | rfl | rfl
            · omega
            · decide
            · decide
            · decide
          have read := readChars_hex (c.toNat / 16) (c.toNat % 16) (by omega) (by omega) text
            rest tail reads
          rwa [show c.toNat / 16 * 16 + c.toNat % 16 = c.toNat by omega, Char.ofNat_toNat] at read
      · next visible =>
          split
          · next separator => exact readChars_separator c separator text rest tail reads
          · refine readChars_plain ?_ ?_ (Nat.not_lt.mp fun control => visible (.inl control)) text
              rest tail reads
            · rintro rfl
              exact absurd plain (by decide)
            · rintro rfl
              exact absurd plain (by decide)

/-- **What Go writes is read back,** in normal form. -/
theorem parseDeep_marshal {value : Json} (exact : Exact value) :
    parseDeep (marshal value) = some value.normal :=
  parseDeep_write reads_escape exact.normal

/-! ### The shape of the text -/

theorem visible_digitChar (n : Nat) : 32 ≤ (Nat.digitChar (n % 16)).toNat := by
  have all : ∀ n < 16, 32 ≤ (Nat.digitChar n).toNat := by decide
  exact all _ (Nat.mod_lt n (by decide))

/-- An escape has no control character. -/
theorem visible_escapeChar (c : Char) : ∀ d ∈ escapeChar c, 32 ≤ d.toNat := by
  have letters : ∀ pair ∈ shortEscapes, 32 ≤ pair.2.toNat := by decide
  unfold escapeChar
  split
  · next letter short =>
    obtain ⟨before, after, parts, -⟩ := List.lookup_eq_some_iff.mp short
    have member : (c, letter) ∈ shortEscapes := parts ▸ List.mem_append_right _ List.mem_cons_self
    have visible := letters (c, letter) member
    simpa using visible
  · split
    · next escaped =>
      have small : c.toNat / 16 = c.toNat / 16 % 16 := by
        rcases escaped with control | rfl | rfl | rfl
        · omega
        · decide
        · decide
        · decide
      rw [small]
      simpa using ⟨visible_digitChar _, visible_digitChar _⟩
    · next visible =>
      split
      · simpa using visible_digitChar _
      · simpa using fun control => visible (.inl control)

theorem visible_escape (text : List Char) : ∀ c ∈ escape text, 32 ≤ c.toNat := by
  intro c member
  obtain ⟨d, -, inside⟩ := List.mem_flatMap.mp member
  exact visible_escapeChar d c inside

/-- The text is one line. -/
theorem marshal_visible {value : Json} (exact : Exact value) :
    ∀ c ∈ marshal value, 32 ≤ c.toNat := exact.normal.visible visible_escape

theorem marshal_obj (fields : Json.Fields) :
    ∃ inner, marshal (.obj fields) = '{' :: (inner ++ ['}']) :=
  ⟨_, by rw [marshal, normal, write]⟩

end GoJson
