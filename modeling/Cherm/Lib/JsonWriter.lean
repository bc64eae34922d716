/-
**Compact writers that escape texts in their own way.**

A program may escape more characters than it has to. `Json.write` is the compact text of a value
under any way to escape, and `Json.render` is one of these (`render_eq`). `Reads` says that texts so
escaped are read back; names and texts are then (`readText_write`, `readField_write`).
-/

import Cherm.Lib.JsonText

namespace Json

mutual

def write (esc : List Char → List Char) : Json → List Char
  | .str text => '"' :: (esc text.toList ++ ['"'])
  | .arr values => '[' :: (separate (writeAll esc values) ++ [']'])
  | .obj fields => '{' :: (separate (writeFields esc fields) ++ ['}'])
  | .null => render .null
  | .bool value => render (.bool value)
  | .num value => render (.num value)
  | .float text => render (.float text)

def writeAll (esc : List Char → List Char) : List Json → List (List Char)
  | [] => []
  | value :: rest => write esc value :: writeAll esc rest

def writeFields (esc : List Char → List Char) : List (String × Json) → List (List Char)
  | [] => []
  | (name, value) :: rest =>
      ('"' :: (esc name.toList ++ '"' :: ':' :: write esc value)) :: writeFields esc rest

end

mutual

/-- The compact text is the one with the least escapes. -/
theorem render_eq : (value : Json) → render value = write escape value
  | .str text => by rw [render, write]
  | .arr values => by rw [render, write, renderAll_eq_writeAll values]
  | .obj fields => by rw [render, write, renderFields_eq_writeFields fields]
  | .null => by rw [write]
  | .bool value => by rw [write]
  | .num value => by rw [write]
  | .float text => by rw [write]

theorem renderAll_eq_writeAll : (values : List Json) → renderAll values = writeAll escape values
  | [] => by rw [renderAll, writeAll]
  | value :: rest => by
      rw [renderAll, writeAll, render_eq value, renderAll_eq_writeAll rest]

theorem renderFields_eq_writeFields : (fields : List (String × Json)) →
    renderFields fields = writeFields escape fields
  | [] => by rw [renderFields, writeFields]
  | (name, value) :: rest => by
      rw [renderFields, writeFields, render_eq value, renderFields_eq_writeFields rest]

end

section

variable {esc : List Char → List Char}

theorem writeAll_eq (values : List Json) : writeAll esc values = values.map (write esc) := by
  induction values with
  | nil => rw [writeAll, List.map_nil]
  | cons value rest ih => rw [writeAll, List.map_cons, ih]

/-- A field as it is written. -/
def writeField (esc : List Char → List Char) (field : String × Json) : List Char :=
  '"' :: (esc field.1.toList ++ '"' :: ':' :: write esc field.2)

theorem writeFields_eq (fields : List (String × Json)) :
    writeFields esc fields = fields.map (writeField esc) := by
  induction fields with
  | nil => rw [writeFields, List.map_nil]
  | cons field rest ih => rw [writeFields, List.map_cons, ih, writeField]

/-- Texts are read back. -/
def Reads (esc : List Char → List Char) : Prop :=
  ∀ text rest, readChars (esc text ++ '"' :: rest) = some (text, rest)

/-- It is enough that each character is. -/
theorem reads_flatMap {escChar : Char → List Char}
    (reads : ∀ c text rest tail, readChars rest = some (text, tail) →
      readChars (escChar c ++ rest) = some (c :: text, tail)) :
    Reads fun text => text.flatMap escChar := by
  intro text rest
  dsimp only
  induction text with
  | nil => rw [List.flatMap_nil, List.nil_append, readChars]
  | cons c text ih =>
      rw [List.flatMap_cons, List.append_assoc]
      exact reads c text _ rest ih

theorem readText_write (reads : Reads esc) (text : String) (rest : List Char) :
    readText ('"' :: (esc text.toList ++ '"' :: rest)) = some (text, rest) := by
  rw [readText, reads]
  simp

theorem readField_write {value : List Char → Option (Json × List Char)} (reads : Reads esc)
    (field : String × Json) (rest : List Char)
    (read : value (write esc field.2 ++ rest) = some (field.2, rest)) :
    readField value (writeField esc field ++ rest) = some (field, rest) := by
  rw [writeField, List.cons_append, List.append_assoc, List.cons_append, List.cons_append,
    readField, readText_write reads]
  show (value (write esc field.2 ++ rest)).map _ = _
  rw [read]
  rfl

end

end Json
