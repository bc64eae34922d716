/-
**The text of a JSON value: a compact writer, and a reader that reads it back.**

`Json.render` writes a value without blanks, with the short escapes where a character has one and
`\u00XX` for the other control characters. `Json.parse` reads such texts. Numbers that are not
integers are written as their text and not read. `parse_render` is the round trip for flat records;
on the way, `readChars_escape` for texts, `readDigits_render` for numbers and `readItems_render` for
whatever is separated by commas.
-/

import Cherm.Lib.Json

namespace Json

/-! ### Texts -/

/-- Characters with a short escape, and the letter of it. -/
def shortEscapes : List (Char × Char) :=
  [('"', '"'), ('\\', '\\'), ('\x08', 'b'), ('\x0c', 'f'), ('\n', 'n'), ('\r', 'r'), ('\t', 't')]

/-- A character inside a string. -/
def escapeChar (c : Char) : List Char :=
  match shortEscapes.lookup c with
  | some letter => ['\\', letter]
  | none =>
      if c.toNat < 32 then
        ['\\', 'u', '0', '0', Nat.digitChar (c.toNat / 16), Nat.digitChar (c.toNat % 16)]
      else [c]

/-- A text inside a string. -/
def escape (text : List Char) : List Char := text.flatMap escapeChar

/-- The value of a hexadecimal digit. -/
def hexValue (c : Char) : Option Nat :=
  (List.range 16).find? fun value => Nat.digitChar value = c.toLower

/-- What an escape letter stands for; `/` may be escaped too. -/
def unescape (letter : Char) : Option Char :=
  (shortEscapes.find? fun pair => pair.2 = letter).map Prod.fst <|>
    if letter = '/' then some '/' else none

/-- The characters of a text up to the closing quote, and what follows it. -/
def readChars : List Char → Option (List Char × List Char)
  | [] => none
  | '"' :: rest => some ([], rest)
  | '\\' :: 'u' :: a :: b :: c :: d :: rest => do
      let value := (← hexValue a) * 4096 + (← hexValue b) * 256 + (← hexValue c) * 16 +
        (← hexValue d)
      let (text, rest) ← readChars rest
      if value < 0xd800 then some (Char.ofNat value :: text, rest) else none
  | '\\' :: letter :: rest => do
      let c ← unescape letter
      let (text, rest) ← readChars rest
      some (c :: text, rest)
  | c :: rest => do
      let (text, rest) ← readChars rest
      if c.toNat < 32 then none else some (c :: text, rest)

theorem hexValue_digitChar {value : Nat} (small : value < 16) :
    hexValue (Nat.digitChar value) = some value := by
  have all : ∀ value < 16, hexValue (Nat.digitChar value) = some value := by decide
  exact all value small

/-- An escape letter is not the one of a hexadecimal escape, and stands for its character. -/
theorem mem_shortEscapes {c letter : Char} (short : shortEscapes.lookup c = some letter) :
    letter ≠ 'u' ∧ unescape letter = some c := by
  have all : ∀ pair ∈ shortEscapes, pair.2 ≠ 'u' ∧ unescape pair.2 = some pair.1 := by decide
  obtain ⟨before, after, split, _⟩ := List.lookup_eq_some_iff.mp short
  exact all (c, letter) (split ▸ List.mem_append_right before List.mem_cons_self)

theorem readChars_hex (a b : Nat) (smallA : a < 16) (smallB : b < 16) (text rest tail : List Char)
    (reads : readChars rest = some (text, tail)) :
    readChars ('\\' :: 'u' :: '0' :: '0' :: Nat.digitChar a :: Nat.digitChar b :: rest) =
      some (Char.ofNat (a * 16 + b) :: text, tail) := by
  have zero : hexValue '0' = some 0 := by decide
  have below : a * 16 + b < 0xd800 := by omega
  simp [readChars, hexValue_digitChar smallA, hexValue_digitChar smallB, zero, reads, below]

theorem readChars_letter {letter c : Char} (notHex : letter ≠ 'u')
    (stands : unescape letter = some c)
    (text rest tail : List Char) (reads : readChars rest = some (text, tail)) :
    readChars ('\\' :: letter :: rest) = some (c :: text, tail) := by
  rw [readChars]
  · simp [stands, reads]
  · simp [notHex]

theorem readChars_plain {c : Char}
    (notQuote : c ≠ '"') (notSlash : c ≠ '\\') (visible : 32 ≤ c.toNat)
    (text rest tail : List Char) (reads : readChars rest = some (text, tail)) :
    readChars (c :: rest) = some (c :: text, tail) := by
  rw [readChars]
  · simp [reads, Nat.not_lt.mpr visible]
  · exact notQuote
  · simp [notSlash]
  · simp [notSlash]

/-- One escaped character is read as that character. -/
theorem readChars_escapeChar (c : Char) (text rest tail : List Char)
    (reads : readChars rest = some (text, tail)) :
    readChars (escapeChar c ++ rest) = some (c :: text, tail) := by
  unfold escapeChar
  split
  · next letter short =>
      obtain ⟨notHex, stands⟩ := mem_shortEscapes short
      exact readChars_letter notHex stands text rest tail reads
  · next plain =>
      split
      · next control =>
          have read := readChars_hex (c.toNat / 16) (c.toNat % 16) (by omega) (by omega) text
              rest tail
            reads
          rwa [show c.toNat / 16 * 16 + c.toNat % 16 = c.toNat by omega, Char.ofNat_toNat] at read
      · next visible =>
          refine readChars_plain ?_ ?_ (Nat.not_lt.mp visible) text rest tail reads
          · rintro rfl
            exact absurd plain (by decide)
          · rintro rfl
            exact absurd plain (by decide)

/-- **A text is read back**, up to the quote that closes it. -/
theorem readChars_escape (text rest : List Char) :
    readChars (escape text ++ '"' :: rest) = some (text, rest) := by
  induction text with
  | nil => rw [escape, List.flatMap_nil, List.nil_append, readChars]
  | cons c text ih =>
      rw [escape, List.flatMap_cons, List.append_assoc]
      exact readChars_escapeChar c text _ rest ih

/-! ### Numbers -/

/-- The leading decimal digits, and what follows them. -/
def readDigits (text : List Char) : List Char × List Char :=
  (text.takeWhile Char.isDigit, text.dropWhile Char.isDigit)

/-- A number in decimal digits. -/
def renderNat (n : Nat) : List Char := Nat.toDigits 10 n

/-- A number with its sign. -/
def renderInt (value : Int) : List Char :=
  if value < 0 then '-' :: renderNat value.natAbs else renderNat value.natAbs

/-- A non-negative number. -/
def readNat (text : List Char) : Option (Nat × List Char) :=
  match readDigits text with
  | ([], _) => none
  | (digits, rest) => some (Nat.ofDigitChars 10 digits 0, rest)

/-- A number, and the rest of the text. -/
def readInt : List Char → Option (Int × List Char)
  | '-' :: text => (readNat text).map fun (n, rest) => (-(n : Int), rest)
  | text => (readNat text).map fun (n, rest) => ((n : Int), rest)

/-- What may follow a number: nothing that would continue it. -/
def EndsNumber (rest : List Char) : Prop := ∀ c ∈ rest.head?, c.isDigit = false

theorem readDigits_append {digits rest : List Char} (all : ∀ c ∈ digits, c.isDigit = true)
    (ends : EndsNumber rest) : readDigits (digits ++ rest) = (digits, rest) := by
  rw [readDigits, List.takeWhile_append_of_pos all, List.dropWhile_append_of_pos all]
  cases rest with
  | nil => simp
  | cons c rest =>
      have here := ends c rfl
      simp [here]

theorem readNat_render (n : Nat) (rest : List Char) (ends : EndsNumber rest) :
    readNat (renderNat n ++ rest) = some (n, rest) := by
  have digits : readDigits (renderNat n ++ rest) = (renderNat n, rest) :=
    readDigits_append (fun c member => Nat.isDigit_of_mem_toDigits (by decide) (by decide)
    member) ends
  have value : Nat.ofDigitChars 10 (renderNat n) 0 = n := Nat.ofDigitChars_ten_toDigits
  rw [readNat, digits]
  cases shape : renderNat n with
  | nil => exact absurd shape Nat.toDigits_ne_nil
  | cons c digits =>
      show some (Nat.ofDigitChars 10 (c :: digits) 0, rest) = some (n, rest)
      rw [← shape, value]

/-- A number does not start with a minus sign. -/
theorem renderNat_head (n : Nat) : ∃ c digits, renderNat n = c :: digits ∧ c.isDigit = true := by
  cases shape : renderNat n with
  | nil => exact absurd shape Nat.toDigits_ne_nil
  | cons c digits =>
      refine ⟨c, digits, rfl, Nat.isDigit_of_mem_toDigits (b := 10) (n := n) (by decide)
        (by decide) ?_⟩
      exact show c ∈ renderNat n from shape ▸ List.mem_cons_self

/-- **A number is read back.** -/
theorem readInt_render (value : Int) (rest : List Char) (ends : EndsNumber rest) :
    readInt (renderInt value ++ rest) = some (value, rest) := by
  unfold renderInt
  split
  · next negative =>
      rw [List.cons_append, readInt, readNat_render _ _ ends]
      simp only [Option.map_some, Option.some.injEq, Prod.mk.injEq, and_true]
      omega
  · next nonneg =>
      obtain ⟨c, digits, shape, isDigit⟩ := renderNat_head value.natAbs
      have read := readNat_render value.natAbs rest ends
      rw [shape, List.cons_append] at read ⊢
      rw [readInt, read]
      · simp only [Option.map_some, Option.some.injEq, Prod.mk.injEq, and_true]
        omega
      · intro text same
        rw [(List.cons.inj same).1] at isDigit
        exact absurd isDigit (by decide)

/-! ### Items separated by commas -/

/-- Items with commas between them. -/
def separate : List (List Char) → List Char
  | [] => []
  | [item] => item
  | item :: rest => item ++ ',' :: separate rest

/-- One item or more up to a closing character. The number bounds the items read. -/
def readItems {α : Type} (item : List Char → Option (α × List Char)) (close : Char) :
    Nat → List Char → Option (List α × List Char)
  | 0, _ => none
  | bound + 1, text => do
      let (value, rest) ← item text
      match rest with
      | [] => none
      | ',' :: rest => do
          let (values, rest) ← readItems item close bound rest
          some (value :: values, rest)
      | c :: rest => if c = close then some ([value], rest) else none

/-- **Items are read back**, if each is whatever ends it. -/
theorem readItems_render {α : Type} {item : List Char → Option (α × List Char)}
    {render : α → List Char} {close : Char} (notComma : close ≠ ',') (values : List α)
    (nonempty : values ≠ [])
    (reads : ∀ value ∈ values, ∀ c rest, c = ',' ∨ c = close →
      item (render value ++ c :: rest) = some (value, c :: rest))
    (rest : List Char) {bound : Nat} (enough : values.length ≤ bound) :
    readItems item close bound (separate (values.map render) ++ close :: rest) =
      some (values, rest) := by
  induction values generalizing bound with
  | nil => exact absurd rfl nonempty
  | cons value values ih =>
      obtain ⟨bound, rfl⟩ : ∃ smaller, bound = smaller + 1 :=
        ⟨bound - 1, by rw [List.length_cons] at enough; omega⟩
      cases values with
      | nil =>
          have first := reads value List.mem_cons_self close rest (.inr rfl)
          rw [List.map_cons, List.map_nil, separate, readItems, first]
          show (match close :: rest with
            | [] => none
            | ',' :: rest => _
            | c :: rest => if c = close then some ([value], rest) else none) = some ([value], rest)
          split
          · next none => cases none
          · next same => exact absurd (List.cons.inj same).1 notComma
          · next same =>
              obtain ⟨rfl, rfl⟩ := List.cons.inj same
              rw [if_pos rfl]
      | cons second values =>
          have first := reads value List.mem_cons_self ','
            (separate ((second :: values).map render) ++ close :: rest) (.inl rfl)
          have others := ih (List.cons_ne_nil second values)
            (fun other member => reads other (List.mem_cons_of_mem value member))
            (Nat.le_of_succ_le_succ enough)
          rw [List.map_cons, List.map_cons, separate]
          · rw [List.append_assoc, List.cons_append, readItems, ← List.map_cons, first]
            show (readItems item close bound _).bind _ = _
            rw [others]
            rfl
          · exact List.cons_ne_nil _ _

/-! ### Values -/

mutual

/-- A value as compact JSON. -/
def render : Json → List Char
  | .null => "null".toList
  | .bool true => "true".toList
  | .bool false => "false".toList
  | .num value => renderInt value
  | .float text => text.toList
  | .str text => '"' :: (escape text.toList ++ ['"'])
  | .arr values => '[' :: (separate (renderAll values) ++ [']'])
  | .obj fields => '{' :: (separate (renderFields fields) ++ ['}'])

/-- The items of an array. -/
def renderAll : List Json → List (List Char)
  | [] => []
  | value :: rest => render value :: renderAll rest

/-- The fields of an object. -/
def renderFields : List (String × Json) → List (List Char)
  | [] => []
  | (name, value) :: rest =>
      ('"' :: (escape name.toList ++ '"' :: ':' :: render value)) :: renderFields rest

end

/-- A text, from its opening quote on. -/
def readText : List Char → Option (String × List Char)
  | '"' :: text => (readChars text).map fun (chars, rest) => (String.ofList chars, rest)
  | _ => none

/-- A field: its name, a colon, its value. -/
def readField (value : List Char → Option (Json × List Char)) (text : List Char) :
    Option ((String × Json) × List Char) := do
  let (name, rest) ← readText text
  match rest with
  | ':' :: rest => (value rest).map fun (field, rest) => ((name, field), rest)
  | _ => none

/-- A value nested at most as deep as the number says. -/
def readValue : Nat → List Char → Option (Json × List Char)
  | 0, _ => none
  | depth + 1, text =>
      match text with
      | '"' :: _ => (readText text).map fun (text, rest) => (.str text, rest)
      | '[' :: ']' :: rest => some (.arr [], rest)
      | '[' :: items =>
          (readItems (readValue depth) ']' items.length items).map fun (values, rest) =>
            (.arr values, rest)
      | '{' :: '}' :: rest => some (.obj [], rest)
      | '{' :: items =>
          (readItems (readField (readValue depth)) '}' items.length items).map fun (fields, rest) =>
            (.obj fields, rest)
      | 't' :: 'r' :: 'u' :: 'e' :: rest => some (.bool true, rest)
      | 'f' :: 'a' :: 'l' :: 's' :: 'e' :: rest => some (.bool false, rest)
      | 'n' :: 'u' :: 'l' :: 'l' :: rest => some (.null, rest)
      | _ => (readInt text).map fun (value, rest) => (.num value, rest)

/-- A whole text. -/
def parse (text : List Char) : Option Json :=
  match readValue 128 text with
  | some (value, []) => some value
  | _ => none

/-! ### Flat records are read back -/

theorem readText_render (text : String) (rest : List Char) :
    readText ('"' :: (escape text.toList ++ '"' :: rest)) = some (text, rest) := by
  rw [readText, readChars_escape]
  simp

theorem renderAll_eq (values : List Json) : renderAll values = values.map render := by
  induction values with
  | nil => rw [renderAll, List.map_nil]
  | cons value rest ih => rw [renderAll, List.map_cons, ih]

/-- A field as it is written. -/
def renderField (field : String × Json) : List Char :=
  '"' :: (escape field.1.toList ++ '"' :: ':' :: render field.2)

theorem renderFields_eq (fields : List (String × Json)) :
    renderFields fields = fields.map renderField := by
  induction fields with
  | nil => rw [renderFields, List.map_nil]
  | cons field rest ih => rw [renderFields, List.map_cons, ih, renderField]

/-- What may follow a value. -/
theorem endsNumber_of_close {c : Char} {rest : List Char} {close : Char}
    (notDigit : close.isDigit = false) (follows : c = ',' ∨ c = close) :
      EndsNumber (c :: rest) := by
  intro head isHead
  obtain rfl : c = head := Option.some.inj isHead
  rcases follows with rfl | rfl
  · decide
  · exact notDigit

theorem readValue_str (depth : Nat) (text : String) (rest : List Char) :
    readValue (depth + 1) (render (.str text) ++ rest) = some (.str text, rest) := by
  rw [render, List.cons_append, List.append_assoc, List.singleton_append, readValue,
    readText_render]
  rfl

theorem readValue_num (depth : Nat) (value : Int) (rest : List Char) (ends : EndsNumber rest) :
    readValue (depth + 1) (render (.num value) ++ rest) = some (.num value, rest) := by
  have read := readInt_render value rest ends
  have head : ∃ c tail, renderInt value = c :: tail ∧ (c = '-' ∨ c.isDigit = true) := by
    unfold renderInt
    split
    · exact ⟨'-', _, rfl, .inl rfl⟩
    · obtain ⟨c, digits, shape, isDigit⟩ := renderNat_head value.natAbs
      exact ⟨c, digits, shape, .inr isDigit⟩
  obtain ⟨c, tail, shape, first⟩ := head
  rw [render]
  rw [shape, List.cons_append] at read ⊢
  have other : ∀ d : Char, (d.isDigit = false ∧ d ≠ '-') → c ≠ d := by
    rintro d ⟨notDigit, notMinus⟩ rfl
    rcases first with minus | isDigit
    · exact notMinus minus
    · rw [notDigit] at isDigit
      cases isDigit
  rw [readValue]
  · rw [read]
    rfl
  all_goals
    intros
    next same => exact other _ (by decide) (List.cons.inj same).1

theorem length_le_separate (items : List (List Char)) :
    items.length ≤ (separate items).length + 1 := by
  induction items with
  | nil => exact Nat.zero_le _
  | cons item rest ih =>
      cases rest with
      | nil => simp [separate]
      | cons second others =>
          rw [separate]
          · simp only [List.length_append, List.length_cons] at ih ⊢
            omega
          · exact List.cons_ne_nil _ _

/-- Items that all start with a quote: the opening bracket is not followed by the closing one. -/
theorem separate_quoted {α : Type} (render : α → List Char) {values : List α}
    (nonempty : values ≠ []) (quoted : ∀ value ∈ values, ∃ tail, render value = '"' :: tail) :
    ∃ tail, separate (values.map render) = '"' :: tail := by
  cases values with
  | nil => exact absurd rfl nonempty
  | cons first others =>
      obtain ⟨tail, shape⟩ := quoted first List.mem_cons_self
      cases others with
      | nil => exact ⟨tail, by rw [List.map_cons, List.map_nil, separate, shape]⟩
      | cons second others =>
          refine ⟨tail ++ ',' :: separate ((second :: others).map render), ?_⟩
          rw [List.map_cons, List.map_cons, separate, shape, List.cons_append]
          exact List.cons_ne_nil _ _

/-- A list of texts. -/
theorem readValue_strs (depth : Nat) (values : List Json)
    (texts : ∀ value ∈ values, value.asStr.isSome) (rest : List Char) :
    readValue (depth + 2) (render (.arr values) ++ rest) = some (.arr values, rest) := by
  rw [render, renderAll_eq, List.cons_append, List.append_assoc, List.singleton_append]
  by_cases empty : values = []
  · rw [empty, List.map_nil, separate, List.nil_append, readValue]
  have isStr : ∀ value ∈ values, ∃ text, value = .str text := by
    intro value member
    cases value with
    | str text => exact ⟨text, rfl⟩
    | _ => exact absurd (texts _ member) (by simp [asStr])
  obtain ⟨tail, shape⟩ := separate_quoted render empty fun value member => by
    obtain ⟨text, rfl⟩ := isStr value member
    exact ⟨_, by rw [render]⟩
  have items : readItems (readValue (depth + 1)) ']'
      (separate (values.map render) ++ ']' :: rest).length
      (separate (values.map render) ++ ']' :: rest) = some (values, rest) := by
    refine readItems_render (by decide) values empty (fun value member c rest _ => ?_) rest ?_
    · obtain ⟨text, rfl⟩ := isStr value member
      exact readValue_str depth text (c :: rest)
    · have enough := length_le_separate (values.map render)
      rw [List.length_map] at enough
      rw [List.length_append, List.length_cons]
      omega
  rw [shape, List.cons_append] at items ⊢
  rw [readValue]
  · rw [items]
    rfl
  · intro tail same
    exact absurd (List.cons.inj same).1 (by decide)

/-- The values of a flat record, each up to the comma or the brace after it. -/
theorem readValue_flat (depth : Nat) (value : Json) (flat : match value with
      | .str _ => True
      | .arr values => ∀ value ∈ values, value.asStr.isSome
      | .num value => -2 ^ 63 ≤ value ∧ value < 2 ^ 63
      | _ => False) (rest : List Char) (ends : EndsNumber rest) :
    readValue (depth + 2) (render value ++ rest) = some (value, rest) := by
  cases value with
  | str text => exact readValue_str (depth + 1) text rest
  | arr values => exact readValue_strs depth values flat rest
  | num value => exact readValue_num (depth + 1) value rest ends
  | _ => exact flat.elim

theorem readField_render {value : List Char → Option (Json × List Char)} (field : String × Json)
    (rest : List Char) (reads : value (render field.2 ++ rest) = some (field.2, rest)) :
    readField value (renderField field ++ rest) = some (field, rest) := by
  rw [renderField, List.cons_append, List.append_assoc, List.cons_append, List.cons_append,
    readField,
    readText_render]
  show (value (render field.2 ++ rest)).map _ = _
  rw [reads]
  rfl

/-- **A flat record is read back.** -/
theorem parse_render {value : Json} (flat : value.Flat) : parse (render value) = some value := by
  cases value with
  | obj fields =>
      have read : readValue 128 (render (.obj fields) ++ []) = some (.obj fields, []) := by
        rw [render, renderFields_eq, List.cons_append, List.append_assoc, List.singleton_append]
        by_cases empty : fields = []
        · rw [empty, List.map_nil, separate, List.nil_append, readValue]
        obtain ⟨tail, shape⟩ := separate_quoted renderField empty fun field _ =>
          ⟨_, rfl⟩
        have items : readItems (readField (readValue 127)) '}'
            (separate (fields.map renderField) ++ ['}']).length
            (separate (fields.map renderField) ++ ['}']) = some (fields, []) := by
          refine readItems_render (by decide) fields empty
            (fun field member c rest follows => ?_) []
            ?_
          · exact readField_render field _ (readValue_flat 125 field.2 (flat.2 field member) _
              (endsNumber_of_close (by decide) follows))
          · have enough := length_le_separate (fields.map renderField)
            rw [List.length_map] at enough
            rw [List.length_append, List.length_singleton]
            omega
        rw [shape, List.cons_append] at items ⊢
        rw [readValue]
        · rw [items]
          rfl
        · intro tail same
          exact absurd (List.cons.inj same).1 (by decide)
      rw [List.append_nil] at read
      rw [parse, read]
  | _ => exact flat.elim

end Json
