/-
**An engine to compute with.**

Numbers are integers, and lower case is that of ASCII. A body is kept as the value it was written
from, and whether it is indented; its bytes are the real text, where the value has no half of a
surrogate pair.
-/

import Cherm.Edge.Worker
import Cherm.Plugin.Ideal

namespace ChermEdge.Ideal

open Cherm (Bytes utf8)

mutual

/-- The JSON value, if every string is a text. -/
def toJson : Js Int → Option Json
  | .null => some .null
  | .bool value => some (.bool value)
  | .num value => some (.num value)
  | .str text => (toText text).map .str
  | .arr values => (toJsonAll values).map .arr
  | .obj fields => (toJsonFields fields).map .obj

def toJsonAll : List (Js Int) → Option (List Json)
  | [] => some []
  | value :: rest => (toJson value).bind fun first => (toJsonAll rest).map (first :: ·)

def toJsonFields : List (JsString × Js Int) → Option Json.Fields
  | [] => some []
  | (name, value) :: rest => (toText name).bind fun name => (toJson value).bind fun first =>
      (toJsonFields rest).map ((name, first) :: ·)

end

theorem toJson_ofJson {value : Json} (plain : Plain value) :
    toJson (ofJsonWith id value) = some value := by
  induction plain with
  | null => simp only [ofJsonWith, toJson]
  | bool value => simp only [ofJsonWith, toJson]
  | num small => simp only [ofJsonWith, toJson, id]
  | str text => simp only [ofJsonWith, toJson, toText_ofString, Option.map_some]
  | @arr values all ih =>
      have each : toJsonAll (values.map (ofJsonWith id)) = some values := by
        clear all
        induction values with
        | nil => simp only [List.map_nil, toJsonAll]
        | cons first rest ih' =>
            rw [List.map_cons, toJsonAll, ih first List.mem_cons_self,
              ih' fun value member => ih value (List.mem_cons_of_mem first member)]
            rfl
      rw [ofJsonWith, ofJsonAll_eq, toJson, each, Option.map_some]
  | @obj fields names words all ih =>
      have each : toJsonFields (fields.map fun field => (ofString field.1, ofJsonWith id field.2)) =
          some fields := by
        clear names words all
        induction fields with
        | nil => simp only [List.map_nil, toJsonFields]
        | cons first rest ih' =>
            rw [List.map_cons, toJsonFields, toText_ofString, ih first List.mem_cons_self,
              ih' fun value member => ih value (List.mem_cons_of_mem first member)]
            rfl
      rw [ofJsonWith, ofJsonFields_eq, toJson, each, Option.map_some]

/-- The compact text, or the indented one. -/
def bytes (body : Js Int × Bool) : Bytes :=
  match toJson body.1 with
  | some value => if body.2 then ChermPlugins.toVecPretty value
      else Utf8.encode value.render
  | none => []

abbrev engine : Engine where
  Number := Int
  isZero value := value = 0
  numberText := toString
  ofInt := id
  jsonNumber := some
  toLowerCase text := text.map fun
    | .scalar c => .scalar c.toLower
    | .lone unit => .lone unit
  Body := Js Int × Bool
  stringify value := (value, false)
  stringifyIndented value := (value, true)
  parse body := some (rereadWith some body.1)
  bytes := bytes
  jsonNumber_ofInt _ _ := rfl
  jsonNumber_idem _ _ _ := rfl
  parse_stringifyIndented _ := rfl
  bytes_ofJson value plain := by
    rw [bytes, toJson_ofJson plain]
    rfl

attribute [local instance] engine

/-- The environment without a token. -/
def env : Env := ⟨none⟩

/-- A request whose body is an object with a manifest. -/
def submits (fields : List (String × Js Int)) : Request where
  token := none
  body := some (.obj [(ofString "manifest", .obj (fields.map fun field =>
    (ofString field.1, field.2)))])
  now := ⟨0, by decide⟩

end ChermEdge.Ideal
