/-
**JavaScript values that come from JSON.**

Strings are sequences of code points, where half of a surrogate pair may stand alone. `Js.text` is
`String(value)`, which throws for an object that has its own `toString`. Numbers are the engine's.

* `ofJson` embeds the values whose text is read as what was written (`Plain`).
* `Engine` is what is taken from the runtime: numbers, lower case, JSON texts and their bytes.
-/

import Cherm.Plugin.Manager

namespace ChermEdge

open Cherm (Bytes utf8)

/-! ### Strings -/

/-- A code point of a string: a character, or half of a surrogate pair by itself. -/
inductive CodePoint where
  | scalar (c : Char)
  | lone (unit : UInt16)
deriving DecidableEq

/-- A text of JavaScript, in code points. -/
abbrev JsString := List CodePoint

/-- A text without surrogates. -/
def ofString (text : String) : JsString := text.toList.map .scalar

/-- The text, if no half of a surrogate pair stands alone. -/
def toText (text : JsString) : Option String :=
  (text.mapM fun
    | CodePoint.scalar c => some c
    | .lone _ => none).map String.ofList

/-- `toWellFormed`: what a string is outside the engine. -/
def toWellFormed (text : JsString) : String :=
  String.ofList (text.map fun
    | .scalar c => c
    | .lone _ => '\ufffd')

@[simp] theorem toText_ofString (text : String) : toText (ofString text) = some text := by
  have chars : ∀ list : List Char, (list.map CodePoint.scalar).mapM (fun
      | CodePoint.scalar c => some c
      | .lone _ => none) = some list := by
    intro list
    induction list with
    | nil => rfl
    | cons c rest ih =>
        rw [List.map_cons, List.mapM_cons, ih]
        rfl
  rw [toText, ofString, chars, Option.map_some, String.ofList_toList]

theorem ofString_injective {first second : String} (same : ofString first = ofString second) :
    first = second := by
  have texts := congrArg toText same
  rw [toText_ofString, toText_ofString] at texts
  exact Option.some.inj texts

theorem ofString_of_toText {text : JsString} {plain : String} (is : toText text = some plain) :
    text = ofString plain := by
  unfold toText at is
  obtain ⟨chars, read, rfl⟩ := Option.map_eq_some_iff.mp is
  rw [ofString, String.toList_ofList]
  clear is
  induction text generalizing chars with
  | nil =>
      obtain rfl := Option.some.inj read
      rfl
  | cons first rest ih =>
      rw [List.mapM_cons] at read
      cases first with
      | lone unit => cases read
      | scalar c =>
          cases others : rest.mapM (fun
            | CodePoint.scalar c => some c
            | .lone _ => none) with
          | none =>
              rw [others] at read
              cases read
          | some others' =>
              rw [others] at read
              obtain rfl := Option.some.inj read
              rw [List.map_cons, ih others' others]

/-! ### Values -/

/-- A value that JSON can stand for, over the numbers of an engine. -/
inductive Js (ν : Type) where
  | null
  | bool (value : Bool)
  | num (value : ν)
  | str (text : JsString)
  | arr (values : List (Js ν))
  | obj (fields : List (JsString × Js ν))

namespace Js

variable {ν : Type}

/-- A property of a value; only objects have some of their own. -/
def get (value : Js ν) (name : String) : Option (Js ν) :=
  match value with
  | obj fields => (fields.find? fun field => field.1 = ofString name).map Prod.snd
  | _ => none

/-- Assign a property of an object, in its place or after the others. -/
def setFields (name : JsString) (value : Js ν) :
    List (JsString × Js ν) → List (JsString × Js ν)
  | [] => [(name, value)]
  | field :: rest =>
      if field.1 = name then (name, value) :: rest else field :: setFields name value rest

theorem find_setFields (name : JsString) (value : Js ν) (fields : List (JsString × Js ν)) :
    (setFields name value fields).find? (fun field => field.1 = name) = some (name, value) := by
  induction fields with
  | nil => simp [setFields]
  | cons field rest ih =>
      rw [setFields]
      split
      · simp
      · next other => rw [List.find?_cons_of_neg (by simpa using other), ih]

end Js

/-! ### The engine -/

/-- A value as the text of a plain JSON value is read: no float, integers that a double holds, names
that are not numbers and no name twice. -/
inductive Plain : Json → Prop where
  | null : Plain .null
  | bool (value : Bool) : Plain (.bool value)
  | num {value : Int} (small : value.natAbs ≤ 2 ^ 53) : Plain (.num value)
  | str (text : String) : Plain (.str text)
  | arr {values : List Json} (all : ∀ value ∈ values, Plain value) : Plain (.arr values)
  | obj {fields : Json.Fields} (names : (fields.map Prod.fst).Nodup)
      (words : ∀ field ∈ fields, ∃ c ∈ field.1.toList.head?, c.isAlpha = true)
      (all : ∀ field ∈ fields, Plain field.2) : Plain (.obj fields)

theorem Plain.exact {value : Json} (plain : Plain value) : value.Exact := by
  induction plain with
  | null => exact .null
  | bool value => exact .bool value
  | num small =>
      refine .num ⟨?_, ?_⟩ <;> omega
  | str text => exact .str text
  | arr _ ih => exact .arr ih
  | obj names _ _ ih => exact .obj names ih

section

variable {ν : Type} (ofInt : Int → ν)

mutual

/-- The value of the engine that a JSON value is; floats are none of these. -/
def ofJsonWith : Json → Js ν
  | .null => .null
  | .bool value => .bool value
  | .num value => .num (ofInt value)
  | .float _ => .null
  | .str text => .str (ofString text)
  | .arr values => .arr (ofJsonAll values)
  | .obj fields => .obj (ofJsonFields fields)

/-- The items of an array. -/
def ofJsonAll : List Json → List (Js ν)
  | [] => []
  | value :: rest => ofJsonWith value :: ofJsonAll rest

/-- The fields of an object. -/
def ofJsonFields : List (String × Json) → List (JsString × Js ν)
  | [] => []
  | (name, value) :: rest => (ofString name, ofJsonWith value) :: ofJsonFields rest

end

theorem ofJsonAll_eq (values : List Json) :
    ofJsonAll ofInt values = values.map (ofJsonWith ofInt) := by
  induction values with
  | nil => rw [ofJsonAll, List.map_nil]
  | cons value rest ih => rw [ofJsonAll, List.map_cons, ih]

theorem ofJsonFields_eq (fields : Json.Fields) : ofJsonFields ofInt fields =
    fields.map fun field => (ofString field.1, ofJsonWith ofInt field.2) := by
  induction fields with
  | nil => rw [ofJsonFields, List.map_nil]
  | cons field rest ih => rw [ofJsonFields, List.map_cons, ih]

variable (jsonNumber : ν → Option ν)

mutual

/-- What is read back of a value: a number that JSON cannot say is `null`. -/
def rereadWith : Js ν → Js ν
  | .null => .null
  | .bool value => .bool value
  | .num value => match jsonNumber value with
      | some value => .num value
      | none => .null
  | .str text => .str text
  | .arr values => .arr (rereadAll values)
  | .obj fields => .obj (rereadFields fields)

/-- The items of an array. -/
def rereadAll : List (Js ν) → List (Js ν)
  | [] => []
  | value :: rest => rereadWith value :: rereadAll rest

/-- The fields of an object. -/
def rereadFields : List (JsString × Js ν) → List (JsString × Js ν)
  | [] => []
  | (name, value) :: rest => (name, rereadWith value) :: rereadFields rest

end

theorem rereadAll_eq (values : List (Js ν)) :
    rereadAll jsonNumber values = values.map (rereadWith jsonNumber) := by
  induction values with
  | nil => rw [rereadAll, List.map_nil]
  | cons value rest ih => rw [rereadAll, List.map_cons, ih]

theorem rereadFields_eq (fields : List (JsString × Js ν)) : rereadFields jsonNumber fields =
    fields.map fun field => (field.1, rereadWith jsonNumber field.2) := by
  induction fields with
  | nil => rw [rereadFields, List.map_nil]
  | cons field rest ih => rw [rereadFields, List.map_cons, ih]

end

/-- What is taken from the runtime. A body is what the bucket keeps: the text of a value, in UTF-8.
-/
class Engine where
  Number : Type
  /-- Zero of either sign. -/
  isZero : Number → Bool
  /-- `String(number)`. -/
  numberText : Number → String
  /-- An integer, as `Date.now()` gives one. -/
  ofInt : Int → Number
  /-- What a number is after `JSON.stringify` and `JSON.parse`; an infinite one is `null`. -/
  jsonNumber : Number → Option Number
  toLowerCase : JsString → JsString
  Body : Type
  /-- `JSON.stringify(value)`, encoded. -/
  stringify : Js Number → Body
  /-- `JSON.stringify(value, null, 2)`, encoded. -/
  stringifyIndented : Js Number → Body
  /-- `json()` of an object of the bucket. -/
  parse : Body → Option (Js Number)
  bytes : Body → Bytes
  /-- An integer that a double holds is read back. -/
  jsonNumber_ofInt : ∀ value : Int, value.natAbs ≤ 2 ^ 53 →
    jsonNumber (ofInt value) = some (ofInt value)
  jsonNumber_idem : ∀ first second, jsonNumber first = some second →
    jsonNumber second = some second
  /-- `JSON.parse` reads what `JSON.stringify` wrote. -/
  parse_stringifyIndented : ∀ value,
    parse (stringifyIndented value) = some (rereadWith jsonNumber value)
  /-- With two blanks, the text is the one `serde_json` writes. -/
  bytes_ofJson : ∀ value : Json, Plain value →
    bytes (stringifyIndented (ofJsonWith ofInt value)) = ChermPlugins.toVecPretty value

section

variable [Engine]

/-- A value of the engine. -/
abbrev Value := Js Engine.Number

/-- What `JSON.parse` makes of a text of this value. -/
abbrev ofJson : Json → Value := ofJsonWith Engine.ofInt

/-- What `JSON.parse` makes of `JSON.stringify` of a value. -/
abbrev reread : Value → Value := rereadWith Engine.jsonNumber

/-- Plain values are read back. -/
theorem reread_ofJson {value : Json} (plain : Plain value) : reread (ofJson value) = ofJson value := by
  induction plain with
  | null => rfl
  | bool value => rfl
  | @num value small =>
      rw [ofJson, ofJsonWith, reread, rereadWith, Engine.jsonNumber_ofInt value small]
  | str text => rfl
  | @arr values all ih =>
      rw [ofJson, ofJsonWith, ofJsonAll_eq, reread, rereadWith, rereadAll_eq, List.map_map]
      exact congrArg Js.arr (List.map_congr_left fun value member => ih value member)
  | @obj fields names words all ih =>
      rw [ofJson, ofJsonWith, ofJsonFields_eq, reread, rereadWith, rereadFields_eq, List.map_map]
      refine congrArg Js.obj (List.map_congr_left fun field member => ?_)
      exact congrArg (Prod.mk _) (ih field member)

mutual

/-- What was read back once is read back again. -/
theorem reread_reread : (value : Value) → reread (reread value) = reread value
  | .null => by simp only [reread, rereadWith]
  | .bool _ => by simp only [reread, rereadWith]
  | .str _ => by simp only [reread, rereadWith]
  | .num value => by
      cases kept : Engine.jsonNumber value with
      | none => simp only [reread, rereadWith, kept]
      | some value' =>
          simp only [reread, rereadWith, kept, Engine.jsonNumber_idem value value' kept]
  | .arr values => by
      simp only [reread, rereadWith]
      rw [rereadAll_rereadAll values]
  | .obj fields => by
      simp only [reread, rereadWith]
      rw [rereadFields_rereadFields fields]

theorem rereadAll_rereadAll : (values : List Value) →
    rereadAll Engine.jsonNumber (rereadAll Engine.jsonNumber values) =
      rereadAll Engine.jsonNumber values
  | [] => by simp only [rereadAll]
  | value :: rest => by
      simp only [rereadAll]
      rw [rereadAll_rereadAll rest]
      exact congrArg (· :: _) (reread_reread value)

theorem rereadFields_rereadFields : (fields : List (JsString × Value)) →
    rereadFields Engine.jsonNumber (rereadFields Engine.jsonNumber fields) =
      rereadFields Engine.jsonNumber fields
  | [] => by simp only [rereadFields]
  | (name, value) :: rest => by
      simp only [rereadFields]
      rw [rereadFields_rereadFields rest]
      exact congrArg (fun value => (name, value) :: _) (reread_reread value)

end

end

end ChermEdge
