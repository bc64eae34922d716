/-
**The indented text of a JSON value, and reading it back.**

`Json.pretty` writes a value over several lines, two blanks a level. `squeeze` drops the blanks of a
text that are not inside a string; what is left of an indented text is the compact one
(`squeeze_pretty`), so `parsePretty` reads it back.

`Within` bounds how deep a value is nested.
-/

import Cherm.Lib.JsonExact

namespace Json

/-- Nested at most so deep. -/
def Within : Nat → Json → Prop
  | 0, _ => False
  | depth + 1, .arr values => ∀ value ∈ values, Within depth value
  | depth + 1, .obj fields => ∀ field ∈ fields, Within depth field.2
  | _ + 1, _ => True

/-! ### Writing -/

/-- A new line, indented. -/
def newline (indent : Nat) : List Char := '\n' :: List.replicate (2 * indent) ' '

/-- Items in brackets, each on its own line; no item, no line. -/
def block (before after : Char) (indent : Nat) (items : List (List Char)) : List Char :=
  if items = [] then [before, after]
  else before :: (separate (items.map (newline (indent + 1) ++ ·)) ++ (newline indent ++ [after]))

mutual

/-- A value over several lines. -/
def pretty (indent : Nat) : Json → List Char
  | .arr values => block '[' ']' indent (prettyAll (indent + 1) values)
  | .obj fields => block '{' '}' indent (prettyFields (indent + 1) fields)
  | .null => render .null
  | .bool value => render (.bool value)
  | .num value => render (.num value)
  | .float text => render (.float text)
  | .str text => render (.str text)

/-- The items of an array. -/
def prettyAll (indent : Nat) : List Json → List (List Char)
  | [] => []
  | value :: rest => pretty indent value :: prettyAll indent rest

/-- The fields of an object. -/
def prettyFields (indent : Nat) : List (String × Json) → List (List Char)
  | [] => []
  | (name, value) :: rest =>
      ('"' :: (escape name.toList ++ '"' :: ':' :: ' ' :: pretty indent value)) ::
        prettyFields indent rest

end

/-- A field of an object. -/
def prettyField (indent : Nat) (field : String × Json) : List Char :=
  '"' :: (escape field.1.toList ++ '"' :: ':' :: ' ' :: pretty indent field.2)

theorem prettyAll_eq (indent : Nat) (values : List Json) :
    prettyAll indent values = values.map (pretty indent) := by
  induction values with
  | nil => rw [prettyAll, List.map_nil]
  | cons value rest ih => rw [prettyAll, List.map_cons, ih]

theorem prettyFields_eq (indent : Nat) (fields : Fields) :
    prettyFields indent fields = fields.map (prettyField indent) := by
  induction fields with
  | nil => rw [prettyFields, List.map_nil]
  | cons field rest ih =>
      rw [prettyFields, List.map_cons, ih]
      rfl

/-! ### Dropping the blanks -/

/-- Where a reader of the text is. -/
inductive Place where
  | outside
  | inside
  | escaped
deriving DecidableEq

/-- The place after one more character. -/
def Place.next : Place → Char → Place
  | .outside, c => if c = '"' then .inside else .outside
  | .inside, c => if c = '"' then .outside else if c = '\\' then .escaped else .inside
  | .escaped, _ => .inside

/-- White space of JSON. -/
def isBlank (c : Char) : Bool := c = ' ' || c = '\n' || c = '\t' || c = '\r'

/-- The text without the blanks outside its strings. -/
def squeeze : Place → List Char → List Char
  | _, [] => []
  | place, c :: rest =>
      if place = .outside ∧ isBlank c = true then squeeze place rest
      else c :: squeeze (place.next c) rest

theorem squeeze_blanks {blanks : List Char} (all : ∀ c ∈ blanks, isBlank c = true)
    (rest : List Char) : squeeze .outside (blanks ++ rest) = squeeze .outside rest := by
  induction blanks with
  | nil => rfl
  | cons c blanks ih =>
      rw [List.cons_append, squeeze, if_pos ⟨rfl, all c List.mem_cons_self⟩]
      exact ih fun other member => all other (List.mem_cons_of_mem c member)

theorem squeeze_newline (indent : Nat) (rest : List Char) :
    squeeze .outside (newline indent ++ rest) = squeeze .outside rest := by
  refine squeeze_blanks (fun c member => ?_) rest
  rcases List.mem_cons.mp member with rfl | blank
  · rfl
  · rw [List.eq_of_mem_replicate blank]
    rfl

/-- What neither is a blank nor opens a string stays. -/
theorem squeeze_plain {text : List Char} (all : ∀ c ∈ text, c ≠ '"' ∧ isBlank c = false)
    (rest : List Char) : squeeze .outside (text ++ rest) = text ++ squeeze .outside rest := by
  induction text with
  | nil => rfl
  | cons c text ih =>
      obtain ⟨noQuote, visible⟩ := all c List.mem_cons_self
      rw [List.cons_append, squeeze, if_neg (by rw [visible]; simp), Place.next, if_neg noQuote,
        ih fun other member => all other (List.mem_cons_of_mem c member)]
      rfl

/-- A word of a value, whose characters are checked one by one. -/
theorem squeeze_word {text : List Char}
    (all : (text.all fun c => decide (c ≠ '"') && !isBlank c) = true) (rest : List Char) :
    squeeze .outside (text ++ rest) = text ++ squeeze .outside rest := by
  refine squeeze_plain (fun c member => ?_) rest
  obtain ⟨noQuote, visible⟩ := Bool.and_eq_true_iff.mp (List.all_eq_true.mp all c member)
  exact ⟨of_decide_eq_true noQuote, Bool.not_eq_true' _ |>.mp visible⟩

theorem squeeze_inside {c : Char} (noQuote : c ≠ '"') (noSlash : c ≠ '\\') (rest : List Char) :
    squeeze .inside (c :: rest) = c :: squeeze .inside rest := by
  rw [squeeze, if_neg (by simp), Place.next, if_neg noQuote, if_neg noSlash]

theorem squeeze_escaped (letter : Char) (rest : List Char) :
    squeeze .inside ('\\' :: letter :: rest) = '\\' :: letter :: squeeze .inside rest := by
  rw [squeeze, if_neg (by simp), Place.next, if_neg (by decide), if_pos rfl, squeeze,
    if_neg (by simp), Place.next]

theorem digitChar_plain {value : Nat} (small : value < 16) :
    Nat.digitChar value ≠ '"' ∧ Nat.digitChar value ≠ '\\' := by
  have all : ∀ value < 16, Nat.digitChar value ≠ '"' ∧ Nat.digitChar value ≠ '\\' := by decide
  exact all value small

/-- **A string stays as it is.** -/
theorem squeeze_escape (text rest : List Char) :
    squeeze .inside (escape text ++ rest) = escape text ++ squeeze .inside rest := by
  induction text with
  | nil => rfl
  | cons c text ih =>
      rw [escape, List.flatMap_cons, List.append_assoc]
      show squeeze .inside (escapeChar c ++ (escape text ++ rest)) = _
      have one : ∀ rest, squeeze .inside (escapeChar c ++ rest) =
          escapeChar c ++ squeeze .inside rest := by
        intro rest
        unfold escapeChar
        split
        · exact squeeze_escaped _ rest
        · next plain =>
          split
          · next control =>
            obtain ⟨highQuote, highSlash⟩ :=
              digitChar_plain (show c.toNat / 16 < 16 by omega)
            obtain ⟨lowQuote, lowSlash⟩ :=
              digitChar_plain (show c.toNat % 16 < 16 by omega)
            simp only [List.cons_append, List.nil_append]
            rw [squeeze_escaped, squeeze_inside (by decide) (by decide),
              squeeze_inside (by decide) (by decide), squeeze_inside highQuote highSlash,
              squeeze_inside lowQuote lowSlash]
          · refine squeeze_inside ?_ ?_ rest
            · rintro rfl
              exact absurd plain (by decide)
            · rintro rfl
              exact absurd plain (by decide)
      rw [one, ih, List.append_assoc]
      rfl

theorem squeeze_quoted (text rest : List Char) :
    squeeze .outside ('"' :: (escape text ++ '"' :: rest)) =
      '"' :: (escape text ++ '"' :: squeeze .outside rest) := by
  rw [squeeze, if_neg (by decide), Place.next, if_pos rfl, squeeze_escape, squeeze,
    if_neg (by simp), Place.next, if_pos rfl]

theorem squeeze_char {c : Char} (plain : c ≠ '"' ∧ isBlank c = false) (rest : List Char) :
    squeeze .outside (c :: rest) = c :: squeeze .outside rest := by
  have one := squeeze_plain (List.forall_mem_singleton.mpr plain) rest
  exact one

/-- Items are squeezed one by one. -/
theorem squeeze_separate {α : Type} {wide tight : α → List Char} (values : List α)
    (each : ∀ value ∈ values, ∀ rest,
      squeeze .outside (wide value ++ rest) = tight value ++ squeeze .outside rest)
    (rest : List Char) :
    squeeze .outside (separate (values.map wide) ++ rest) =
      separate (values.map tight) ++ squeeze .outside rest := by
  induction values with
  | nil => rfl
  | cons first others ih =>
      have here := each first List.mem_cons_self
      have later := ih fun value member => each value (List.mem_cons_of_mem first member)
      cases others with
      | nil => exact here rest
      | cons second others =>
          rw [List.map_cons, List.map_cons, separate, ← List.map_cons, List.map_cons (f := tight),
            List.map_cons (f := tight), separate, ← List.map_cons (f := tight), List.append_assoc,
            List.cons_append, here, squeeze_char (by decide), later, List.append_assoc,
            List.cons_append]
          · exact List.cons_ne_nil _ _
          · exact List.cons_ne_nil _ _

theorem squeeze_block {α : Type} {before after : Char}
    (opens : before ≠ '"' ∧ isBlank before = false) (closes : after ≠ '"' ∧ isBlank after = false)
    (indent : Nat) {wide tight : α → List Char} (values : List α)
    (each : ∀ value ∈ values, ∀ rest,
      squeeze .outside (wide value ++ rest) = tight value ++ squeeze .outside rest)
    (rest : List Char) :
    squeeze .outside (block before after indent (values.map wide) ++ rest) =
      before :: (separate (values.map tight) ++ [after]) ++ squeeze .outside rest := by
  by_cases empty : values = []
  · subst empty
    rw [block, List.map_nil, if_pos rfl]
    show squeeze .outside (before :: after :: rest) = _
    rw [squeeze_char opens, squeeze_char closes]
    rfl
  · have lines : ∀ value ∈ values, ∀ rest, squeeze .outside
        ((newline (indent + 1) ++ wide value) ++ rest) =
          tight value ++ squeeze .outside rest := by
      intro value member rest
      rw [List.append_assoc, squeeze_newline, each value member]
    rw [block, if_neg (by simpa using empty), List.map_map, List.cons_append, squeeze_char opens,
      List.append_assoc, Function.comp_def, squeeze_separate values lines, List.append_assoc,
      squeeze_newline, List.singleton_append, squeeze_char closes]
    simp

/-- A number neither holds a blank nor opens a string. -/
theorem renderInt_plain (value : Int) : ∀ c ∈ renderInt value, c ≠ '"' ∧ isBlank c = false := by
  have digits : ∀ n : Nat, ∀ c ∈ renderNat n, c ≠ '"' ∧ isBlank c = false := by
    intro n c member
    have isDigit : c.isDigit = true :=
      Nat.isDigit_of_mem_toDigits (b := 10) (n := n) (by decide) (by decide) member
    constructor
    · rintro rfl
      exact absurd isDigit (by decide)
    · simp only [isBlank, Bool.or_eq_false_iff, decide_eq_false_iff_not]
      refine ⟨⟨⟨?_, ?_⟩, ?_⟩, ?_⟩
      all_goals
        rintro rfl
        exact absurd isDigit (by decide)
  intro c member
  unfold renderInt at member
  split at member
  · rcases List.mem_cons.mp member with rfl | digit
    · decide
    · exact digits _ c digit
  · exact digits _ c member

/-- **Without its blanks, the indented text is the compact one.** -/
theorem squeeze_pretty {value : Json} (exact : Exact value) (indent : Nat) (rest : List Char) :
    squeeze .outside (pretty indent value ++ rest) = render value ++ squeeze .outside rest := by
  induction exact generalizing indent rest with
  | null =>
      rw [pretty, render]
      exact squeeze_word (by decide) rest
  | bool value =>
      rw [pretty]
      cases value
      · exact squeeze_word (by decide) rest
      · exact squeeze_word (by decide) rest
  | @num value fits =>
      rw [pretty, render]
      exact squeeze_plain (renderInt_plain value) rest
  | str text =>
      rw [pretty, render, List.cons_append, List.append_assoc, List.singleton_append,
        squeeze_quoted, List.cons_append, List.append_assoc, List.singleton_append]
  | @arr values all ih =>
      rw [pretty, prettyAll_eq, render, renderAll_eq]
      exact squeeze_block (by decide) (by decide) indent values
        (fun value member rest => ih value member (indent + 1) rest) rest
  | @obj fields names all ih =>
      rw [pretty, prettyFields_eq, render, renderFields_eq]
      refine squeeze_block (by decide) (by decide) indent fields (fun field member rest => ?_) rest
      rw [prettyField, renderField, List.cons_append, List.append_assoc, List.cons_append,
        squeeze_quoted, List.cons_append, squeeze_char (by decide)]
      rw [List.cons_append]
      have blank := @squeeze_blanks [' '] (List.forall_mem_singleton.mpr rfl)
        (pretty (indent + 1) field.2 ++ rest)
      rw [List.singleton_append] at blank
      rw [blank, ih field member (indent + 1) rest]
      simp

/-- Read an indented text. -/
def parsePretty (text : List Char) : Option Json := parseDeep (squeeze .outside text)

theorem parsePretty_pretty {value : Json} (exact : Exact value) :
    parsePretty (pretty 0 value) = some value := by
  have tight := squeeze_pretty exact 0 []
  rw [List.append_nil, squeeze, List.append_nil] at tight
  rw [parsePretty, tight, parseDeep_render exact]

end Json
