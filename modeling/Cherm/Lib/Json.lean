/-
**JSON values, and how a derived record reader takes them apart.**

`Json` is the tree a JSON text stands for. A record with named fields is read from an object by name
(unknown names are skipped, a repeated name is an error) or from an array by position
(`Json.asFields`); `Fields.required`, `Fields.orDefault` and the readers of single values are what a
derived reader does with each field. `Flat` are the records whose text stands for them exactly.
-/

import Mathlib.Data.List.Basic
import Mathlib.Data.UInt
import Mathlib.Tactic.Common

/-- A JSON value. A number that is not an integer is kept as its text. -/
inductive Json where
  | null
  | bool (value : Bool)
  | num (value : Int)
  | float (text : String)
  | str (value : String)
  | arr (values : List Json)
  | obj (fields : List (String × Json))
deriving Repr

namespace Json

mutual

/-- Whether two values are the same. -/
def decEq : (first second : Json) → Decidable (first = second)
  | null, null => isTrue rfl
  | bool a, bool b => decidable_of_iff (a = b) (by rw [bool.injEq])
  | num a, num b => decidable_of_iff (a = b) (by rw [num.injEq])
  | float a, float b => decidable_of_iff (a = b) (by rw [float.injEq])
  | str a, str b => decidable_of_iff (a = b) (by rw [str.injEq])
  | arr a, arr b =>
      have := decEqAll a b
      decidable_of_iff (a = b) (by rw [arr.injEq])
  | obj a, obj b =>
      have := decEqFields a b
      decidable_of_iff (a = b) (by rw [obj.injEq])
  | null, bool _ | null, num _ | null, float _ | null, str _ | null, arr _ | null, obj _
  | bool _, null | bool _, num _ | bool _, float _ | bool _, str _ | bool _, arr _ | bool _, obj _
  | num _, null | num _, bool _ | num _, float _ | num _, str _ | num _, arr _ | num _, obj _
  | float _, null | float _, bool _ | float _, num _ | float _, str _ | float _,
      arr _ | float _, obj _
  | str _, null | str _, bool _ | str _, num _ | str _, float _ | str _, arr _ | str _, obj _
  | arr _, null | arr _, bool _ | arr _, num _ | arr _, float _ | arr _, str _ | arr _, obj _
  | obj _, null | obj _, bool _ | obj _, num _ | obj _, float _ | obj _, str _ | obj _, arr _ =>
      isFalse nofun

/-- Arrays are compared item by item. -/
def decEqAll : (first second : List Json) → Decidable (first = second)
  | [], [] => isTrue rfl
  | [], _ :: _ | _ :: _, [] => isFalse nofun
  | a :: as, b :: bs =>
      have := decEq a b
      have := decEqAll as bs
      decidable_of_iff (a = b ∧ as = bs) (by rw [List.cons.injEq])

/-- Objects are compared field by field. -/
def decEqFields : (first second : List (String × Json)) → Decidable (first = second)
  | [], [] => isTrue rfl
  | [], _ :: _ | _ :: _, [] => isFalse nofun
  | (n, a) :: as, (m, b) :: bs =>
      have := decEq a b
      have := decEqFields as bs
      decidable_of_iff ((n = m ∧ a = b) ∧ as = bs) (by rw [List.cons.injEq, Prod.mk.injEq])

end

instance : DecidableEq Json := decEq

/-- The named values a record reader works on. -/
abbrev Fields := List (String × Json)

/-- A text. -/
def asStr : Json → Option String
  | str value => some value
  | _ => none

/-- An array of texts. -/
def asStrs : Json → Option (List String)
  | arr values => values.mapM asStr
  | _ => none

@[simp] theorem asStrs_texts (texts : List String) : asStrs (arr (texts.map str)) = some texts := by
  show (texts.map str).mapM asStr = some texts
  induction texts with
  | nil => rfl
  | cons first rest ih =>
      rw [List.map_cons, List.mapM_cons, ih]
      rfl

/-- A number in the range of a signed 64-bit integer. -/
def asI64 : Json → Option Int
  | num value => if -2 ^ 63 ≤ value ∧ value < 2 ^ 63 then some value else none
  | _ => none

/-- An optional value: `null` stands for its absence. -/
def asOption {α : Type} (read : Json → Option α) : Json → Option (Option α)
  | null => some none
  | value => (read value).map some

/-- The value under a name, `null` without one. The last of several counts. -/
def index (value : Json) (name : String) : Json :=
  match value with
  | obj fields => ((fields.reverse.find? fun field => field.1 = name).map Prod.snd).getD null
  | _ => null

/-- The fields of a record: an object's own, or an array's by position. An array longer than the
record is an error. -/
def asFields (names : List String) : Json → Option Fields
  | obj fields => some fields
  | arr values => if values.length ≤ names.length then some (names.zip values) else none
  | _ => none

/-- A record of texts, lists of texts and 64-bit integers, its names in strictly ascending order. -/
def Flat : Json → Prop
  | obj fields => (fields.map Prod.fst).Pairwise (· < ·) ∧ ∀ field ∈ fields, match field.2 with
      | str _ => True
      | arr values => ∀ value ∈ values, value.asStr.isSome
      | num value => -2 ^ 63 ≤ value ∧ value < 2 ^ 63
      | _ => False
  | _ => False

namespace Fields

/-- The values a record carries under one name. -/
def named (fields : Fields) (name : String) : List Json :=
  (fields.filter fun field => field.1 = name).map Prod.snd

/-- A field that must be there, once. -/
def required {α : Type} (fields : Fields) (name : String) (read : Json → Option α) : Option α :=
  match fields.named name with
  | [value] => read value
  | _ => none

/-- A field that may be missing. -/
def orDefault {α : Type} (fields : Fields) (name : String) (read : Json → Option α)
    (missing : α) : Option α :=
  match fields.named name with
  | [] => some missing
  | [value] => read value
  | _ => none

end Fields

end Json
