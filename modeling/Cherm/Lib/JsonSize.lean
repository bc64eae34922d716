/-
**How long the text of a JSON value is.**

`bytes` counts a text in UTF-8. The text of a list or an object is as long as its items, with one
byte for what ends each of them, and one for the opening bracket.
-/

import Cherm.Lib.JsonText

namespace Json

/-- The length of a text in UTF-8. -/
def bytes (text : List Char) : Nat := (text.map Char.utf8Size).sum

@[simp] theorem bytes_nil : bytes [] = 0 := rfl

@[simp] theorem bytes_cons (c : Char) (text : List Char) :
    bytes (c :: text) = c.utf8Size + bytes text := List.sum_cons

@[simp] theorem bytes_append (text text' : List Char) :
    bytes (text ++ text') = bytes text + bytes text' := by
  rw [bytes, List.map_append, List.sum_append]
  rfl

theorem utf8ByteSize_ofList (text : List Char) :
    (String.ofList text).utf8ByteSize = bytes text := by
  induction text with
  | nil => rfl
  | cons c text ih =>
      rw [String.ofList_cons]
      simp [ih]

theorem bytes_replicate (n : Nat) (c : Char) : bytes (List.replicate n c) = n * c.utf8Size := by
  rw [bytes, List.map_replicate, List.sum_replicate_nat]

/-- A text in quotes, with its escapes. -/
def textBytes (text : String) : Nat := bytes (escape text.toList) + 2

def numBytes (value : Int) : Nat := bytes (renderInt value)

@[simp] theorem bytes_str (text : String) : bytes (render (.str text)) = textBytes text := by
  have quote : '"'.utf8Size = 1 := rfl
  simp only [render, bytes_cons, bytes_append, bytes_nil, textBytes, quote]
  omega

@[simp] theorem bytes_num (value : Int) : bytes (render (.num value)) = numBytes value := by
  rw [render, numBytes]

/-- Each item is ended by a comma, but for the last one. -/
theorem bytes_separate {items : List (List Char)} (some : items ≠ []) :
    bytes (separate items) + 1 = (items.map fun item => bytes item + 1).sum := by
  induction items with
  | nil => exact absurd rfl some
  | cons item rest ih =>
      cases rest with
      | nil => simp [separate]
      | cons second others =>
          have later := ih (List.cons_ne_nil second others)
          have comma : ','.utf8Size = 1 := rfl
          rw [separate, bytes_append, bytes_cons, comma, List.map_cons, List.sum_cons, ← later]
          · omega
          · exact List.cons_ne_nil _ _

/-- A text in brackets. -/
theorem bytes_bracketed {items : List (List Char)} (some : items ≠ []) {first last : Char}
    (opening : first.utf8Size = 1) (closing : last.utf8Size = 1) :
    bytes (first :: (separate items ++ [last])) =
      1 + (items.map fun item => bytes item + 1).sum := by
  rw [bytes_cons, bytes_append, bytes_cons, bytes_nil, opening, closing, ← bytes_separate some]

theorem bytes_arr {values : List Json} (some : values ≠ []) :
    bytes (render (.arr values)) = 1 + (values.map fun value => bytes (render value) + 1).sum := by
  rw [render, renderAll_eq, bytes_bracketed (by simpa using some) rfl rfl, List.map_map]
  rfl

theorem bytes_field (field : String × Json) :
    bytes (renderField field) = textBytes field.1 + bytes (render field.2) + 1 := by
  have quote : '"'.utf8Size = 1 := rfl
  have colon : ':'.utf8Size = 1 := rfl
  simp only [renderField, bytes_cons, bytes_append, textBytes, quote, colon]
  omega

theorem bytes_obj {fields : Fields} (some : fields ≠ []) :
    bytes (render (.obj fields)) =
      1 + (fields.map fun field => textBytes field.1 + bytes (render field.2) + 2).sum := by
  rw [render, renderFields_eq, bytes_bracketed (by simpa using some) rfl rfl, List.map_map]
  refine congrArg (1 + List.sum ·) (List.map_congr_left fun field _ => ?_)
  rw [Function.comp_apply, bytes_field]

/-- A text that needs no escape. -/
theorem escape_eq_self {text : List Char} (plain : ∀ c ∈ text, escapeChar c = [c]) :
    escape text = text := by
  induction text with
  | nil => rfl
  | cons c text ih =>
      obtain ⟨first, others⟩ := List.forall_mem_cons.mp plain
      rw [escape, List.flatMap_cons, first]
      exact congrArg (c :: ·) (ih others)

end Json
