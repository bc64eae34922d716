/-
**Values that a text stands for exactly, and values in normal form.**

* `Exact`: no floating-point number, integers that fit into 64 bits, no name twice.
  `parseDeep_write` reads the text of such a value back, however deep it is nested and however its
  texts are escaped.
* `normal` is the value as a generic reader keeps it: the names of an object in ascending order, the
  last of several entries under a name. `exact_of_normal`: such a value is exact, if it holds no
  float.
-/

import Cherm.Lib.JsonWriter
import Mathlib.Data.String.Basic

namespace Json

/-! ### Exact values -/

/-- An integer of 64 bits, signed or unsigned. -/
def InRange (value : Int) : Prop := -2 ^ 63 ≤ value ∧ value < 2 ^ 64

instance (value : Int) : Decidable (InRange value) := inferInstanceAs (Decidable (_ ∧ _))

/-- No number is a floating-point one. -/
inductive FloatFree : Json → Prop where
  | null : FloatFree null
  | bool (value : Bool) : FloatFree (bool value)
  | num (value : Int) : FloatFree (num value)
  | str (value : String) : FloatFree (str value)
  | arr {values : List Json} (all : ∀ value ∈ values, FloatFree value) : FloatFree (arr values)
  | obj {fields : Fields} (all : ∀ field ∈ fields, FloatFree field.2) : FloatFree (obj fields)

/-- The text of the value stands for it alone. -/
inductive Exact : Json → Prop where
  | null : Exact null
  | bool (value : Bool) : Exact (bool value)
  | num {value : Int} (fits : InRange value) : Exact (num value)
  | str (value : String) : Exact (str value)
  | arr {values : List Json} (all : ∀ value ∈ values, Exact value) : Exact (arr values)
  | obj {fields : Fields} (names : (fields.map Prod.fst).Nodup)
      (all : ∀ field ∈ fields, Exact field.2) :
      Exact (obj fields)

theorem Flat.exact {value : Json} (flat : value.Flat) : Exact value := by
  cases value with
  | obj fields =>
      refine .obj (flat.1.imp ne_of_lt) fun field member => ?_
      have inside := flat.2 field member
      obtain ⟨name, value⟩ := field
      cases value with
      | str text => exact .str text
      | num value => exact .num ⟨inside.1, by have := inside.2; omega⟩
      | arr values =>
          refine .arr fun value listed => ?_
          have isText := inside value listed
          cases value with
          | str text => exact .str text
          | _ => cases isText
      | _ => exact inside.elim
  | _ => exact flat.elim

/-! ### Reading an exact value back -/

theorem length_mem_separate {item : List Char} {items : List (List Char)} (member : item ∈ items) :
    item.length ≤ (separate items).length := by
  induction items with
  | nil => cases member
  | cons first rest ih =>
      cases rest with
      | nil =>
          obtain rfl := List.mem_singleton.mp member
          exact Nat.le_refl _
      | cons second others =>
          rw [separate]
          · rw [List.length_append, List.length_cons]
            rcases List.mem_cons.mp member with rfl | later
            · omega
            · have below := ih later
              omega
          · exact List.cons_ne_nil _ _

section

variable {esc : List Char → List Char}

/-- A value does not start like the end of a list. -/
theorem Exact.head {value : Json} (exact : Exact value) : ∃ c tail, write esc value = c :: tail ∧
    c ≠ ']' := by
  cases exact with
  | null => exact ⟨'n', _, by rw [write, render]; rfl, by decide⟩
  | bool value => cases value <;> exact ⟨_, _, by rw [write, render]; rfl, by decide⟩
  | @num value fits =>
      rw [write, render]
      unfold renderInt
      split
      · exact ⟨'-', _, rfl, by decide⟩
      · obtain ⟨c, digits, shape, isDigit⟩ := renderNat_head value.natAbs
        refine ⟨c, digits, shape, ?_⟩
        rintro rfl
        exact absurd isDigit (by decide)
  | str value => exact ⟨'"', _, by rw [write], by decide⟩
  | arr all => exact ⟨'[', _, by rw [write], by decide⟩
  | obj names all => exact ⟨'{', _, by rw [write], by decide⟩

theorem separate_head {values : List Json} (nonempty : values ≠ [])
    (all : ∀ value ∈ values, Exact value) :
    ∃ c tail, separate (values.map (write esc)) = c :: tail ∧ c ≠ ']' := by
  cases values with
  | nil => exact absurd rfl nonempty
  | cons first others =>
      obtain ⟨c, tail, shape, notClose⟩ := (all first List.mem_cons_self).head
      cases others with
      | nil => exact ⟨c, tail, by rw [List.map_cons, List.map_nil, separate, shape], notClose⟩
      | cons second others =>
          refine ⟨c, tail ++ ',' :: separate ((second :: others).map (write esc)), ?_, notClose⟩
          rw [List.map_cons, List.map_cons, separate, shape, List.cons_append]
          exact List.cons_ne_nil _ _

/-- **An exact value is read back**, with as much depth as its text is long. -/
theorem Exact.readWritten (reads : Reads esc) {value : Json} (exact : Exact value) {depth : Nat}
    (enough : (write esc value).length ≤ depth)
    (rest : List Char) (ends : EndsNumber rest) :
    Json.readValue depth (write esc value ++ rest) = some (value, rest) := by
  induction exact generalizing depth rest with
  | null =>
      obtain ⟨depth, rfl⟩ : ∃ smaller, depth = smaller + 1 :=
          ⟨depth - 1, by simp [write, render] at enough; omega⟩
      simp [write, render, Json.readValue]
  | bool value =>
      obtain ⟨depth, rfl⟩ : ∃ smaller, depth = smaller + 1 :=
        ⟨depth - 1, by cases value <;> simp [write, render] at enough <;> omega⟩
      cases value <;> simp [write, render, Json.readValue]
  | @num value fits =>
      obtain ⟨c, tail, shape, _⟩ : ∃ c tail, write esc (.num value) = c :: tail ∧ c ≠ ']' :=
        (Exact.num fits).head
      obtain ⟨depth, rfl⟩ : ∃ smaller, depth = smaller + 1 :=
        ⟨depth - 1, by rw [shape, List.length_cons] at enough; omega⟩
      rw [write]
      exact readValue_num depth value rest ends
  | str value =>
      obtain ⟨depth, rfl⟩ : ∃ smaller, depth = smaller + 1 :=
        ⟨depth - 1, by rw [write, List.length_cons] at enough; omega⟩
      rw [write, List.cons_append, List.append_assoc, List.singleton_append, Json.readValue,
        readText_write reads]
      rfl
  | @arr values all ih =>
      obtain ⟨depth, rfl⟩ : ∃ smaller, depth = smaller + 1 :=
        ⟨depth - 1, by rw [write, List.length_cons] at enough; omega⟩
      rw [write, writeAll_eq, List.length_cons, List.length_append] at enough
      rw [write, writeAll_eq, List.cons_append, List.append_assoc, List.singleton_append]
      by_cases empty : values = []
      · rw [empty, List.map_nil, separate, List.nil_append, Json.readValue]
      have items : readItems (Json.readValue depth) ']' (separate (values.map (write esc)) ++ ']' ::
          rest).length
          (separate (values.map (write esc)) ++ ']' :: rest) = some (values, rest) := by
        refine readItems_render (by decide) values empty
          (fun value member c rest follows => ?_) rest ?_
        · refine ih value member ?_ _ (endsNumber_of_close (by decide) follows)
          have below := length_mem_separate (List.mem_map_of_mem (f := write esc) member)
          omega
        · have below := length_le_separate (values.map (write esc))
          rw [List.length_map] at below
          rw [List.length_append, List.length_cons]
          omega
      obtain ⟨c, tail, shape, notClose⟩ := separate_head empty all
      rw [shape, List.cons_append] at items ⊢
      rw [Json.readValue]
      · rw [items]
        rfl
      · intro tail same
        exact notClose (List.cons.inj same).1
  | @obj fields names all ih =>
      obtain ⟨depth, rfl⟩ : ∃ smaller, depth = smaller + 1 :=
        ⟨depth - 1, by rw [write, List.length_cons] at enough; omega⟩
      rw [write, writeFields_eq, List.length_cons, List.length_append] at enough
      rw [write, writeFields_eq, List.cons_append, List.append_assoc, List.singleton_append]
      by_cases empty : fields = []
      · rw [empty, List.map_nil, separate, List.nil_append, Json.readValue]
      have items : readItems (readField (Json.readValue depth)) '}'
          (separate (fields.map (writeField esc)) ++ '}' :: rest).length
          (separate (fields.map (writeField esc)) ++ '}' :: rest) = some (fields, rest) := by
        refine readItems_render (by decide) fields empty
          (fun field member c rest follows => ?_) rest ?_
        · refine readField_write reads field _ (ih field member ?_ _
            (endsNumber_of_close (by decide) follows))
          have below := length_mem_separate (List.mem_map_of_mem (f := writeField esc) member)
          have inside : (write esc field.2).length ≤ (writeField esc field).length := by
            simp [writeField]
            omega
          omega
        · have below := length_le_separate (fields.map (writeField esc))
          rw [List.length_map] at below
          rw [List.length_append, List.length_cons]
          omega
      obtain ⟨tail, shape⟩ := separate_quoted (writeField esc) empty fun field _ => ⟨_, rfl⟩
      rw [shape, List.cons_append] at items ⊢
      rw [Json.readValue]
      · rw [items]
        rfl
      · intro tail same
        exact absurd (List.cons.inj same).1 (by decide)

end

theorem Exact.readValue {value : Json} (exact : Exact value) {depth : Nat}
    (enough : (render value).length ≤ depth)
    (rest : List Char) (ends : EndsNumber rest) :
    Json.readValue depth (render value ++ rest) = some (value, rest) := by
  rw [render_eq] at enough ⊢
  exact exact.readWritten readChars_escape enough rest ends

/-- Read a whole text, however deep. -/
def parseDeep (text : List Char) : Option Json :=
  match readValue text.length text with
  | some (value, []) => some value
  | _ => none

theorem parseDeep_write {esc : List Char → List Char} (reads : Reads esc) {value : Json}
    (exact : Exact value) : parseDeep (write esc value) = some value := by
  have read := exact.readWritten reads (Nat.le_refl _) [] nofun
  rw [List.append_nil] at read
  rw [parseDeep, read]

theorem parseDeep_render {value : Json} (exact : Exact value) :
    parseDeep (render value) = some value := by
  rw [render_eq]
  exact parseDeep_write readChars_escape exact

/-! ### The characters of the text -/

theorem mem_separate {items : List (List Char)} {c : Char} (member : c ∈ separate items) :
    c = ',' ∨ ∃ item ∈ items, c ∈ item := by
  induction items with
  | nil => cases member
  | cons first rest ih =>
      cases rest with
      | nil => exact .inr ⟨first, List.mem_cons_self, member⟩
      | cons second others =>
          rw [separate] at member
          · rcases List.mem_append.mp member with here | later
            · exact .inr ⟨first, List.mem_cons_self, here⟩
            · rcases List.mem_cons.mp later with comma | later
              · exact .inl comma
              rcases ih later with comma | ⟨item, inside, here⟩
              · exact .inl comma
              · exact .inr ⟨item, List.mem_cons_of_mem _ inside, here⟩
          · exact List.cons_ne_nil _ _

theorem visible_renderInt (value : Int) : ∀ c ∈ renderInt value, 32 ≤ c.toNat := by
  have digits : ∀ n, ∀ c ∈ renderNat n, 32 ≤ c.toNat := by
    intro n c member
    have digit := Nat.isDigit_of_mem_toDigits (by decide) (by decide) member
    have range : 48 ≤ c.val ∧ c.val ≤ 57 := by simpa [Char.isDigit] using digit
    exact le_trans (by decide) (UInt32.le_iff_toNat_le.mp range.1)
  unfold renderInt
  split
  · exact List.forall_mem_cons.mpr ⟨by decide, digits _⟩
  · exact digits _

/-- **The text of an exact value has no control characters,** if the escaped texts have none. -/
theorem Exact.visible {esc : List Char → List Char}
    (plain : ∀ text, ∀ c ∈ esc text, 32 ≤ c.toNat) {value : Json} (exact : Exact value) :
    ∀ c ∈ write esc value, 32 ≤ c.toNat := by
  have quoted : ∀ (text : List Char) (rest : List Char), (∀ c ∈ rest, 32 ≤ c.toNat) →
      ∀ c ∈ '"' :: (esc text ++ '"' :: rest), 32 ≤ c.toNat := fun text rest others =>
    List.forall_mem_cons.mpr ⟨by decide, List.forall_mem_append.mpr
      ⟨plain text, List.forall_mem_cons.mpr ⟨by decide, others⟩⟩⟩
  induction exact with
  | null =>
      rw [write, render]
      simp
  | bool value =>
      rw [write]
      cases value <;> rw [render] <;> simp
  | @num value fits =>
      rw [write, render]
      exact visible_renderInt value
  | str value =>
      rw [write]
      exact quoted value.toList [] nofun
  | @arr values all ih =>
      rw [write, writeAll_eq]
      refine List.forall_mem_cons.mpr ⟨by decide, List.forall_mem_append.mpr
        ⟨fun c member => ?_, List.forall_mem_singleton.mpr (by decide)⟩⟩
      rcases mem_separate member with rfl | ⟨item, inside, here⟩
      · decide
      · obtain ⟨value, listed, rfl⟩ := List.mem_map.mp inside
        exact ih value listed c here
  | @obj fields names all ih =>
      rw [write, writeFields_eq]
      refine List.forall_mem_cons.mpr ⟨by decide, List.forall_mem_append.mpr
        ⟨fun c member => ?_, List.forall_mem_singleton.mpr (by decide)⟩⟩
      rcases mem_separate member with rfl | ⟨item, inside, here⟩
      · decide
      · obtain ⟨field, listed, rfl⟩ := List.mem_map.mp inside
        exact quoted _ _ (List.forall_mem_cons.mpr ⟨by decide, ih field listed⟩) c here

/-! ### Normal form -/

/-- Insert a field in front of the greater names, unless its name is there. -/
def insertNew (name : String) (value : Json) : Fields → Fields
  | [] => [(name, value)]
  | (other, kept) :: rest =>
      if name < other then (name, value) :: (other, kept) :: rest
      else if name = other then (other, kept) :: rest
      else (other, kept) :: insertNew name value rest

mutual

/-- The value as a generic reader keeps it. -/
def normal : Json → Json
  | .num value => if InRange value then .num value else .float (String.ofList (renderInt value))
  | .arr values => .arr (normalAll values)
  | .obj fields => .obj (normalFields fields)
  | .null => .null
  | .bool value => .bool value
  | .float text => .float text
  | .str text => .str text

def normalAll : List Json → List Json
  | [] => []
  | value :: rest => normal value :: normalAll rest

def normalFields : List (String × Json) → List (String × Json)
  | [] => []
  | (name, value) :: rest => insertNew name (normal value) (normalFields rest)

end

theorem normalAll_eq (values : List Json) : normalAll values = values.map normal := by
  induction values with
  | nil => rw [normalAll, List.map_nil]
  | cons value rest ih => rw [normalAll, List.map_cons, ih]

theorem mem_insertNew {name other : String} {value : Json} {fields : Fields}
    (member : other ∈ (insertNew name value fields).map Prod.fst) :
    other = name ∨ other ∈ fields.map Prod.fst := by
  induction fields with
  | nil => exact .inl (List.mem_singleton.mp member)
  | cons field rest ih =>
      obtain ⟨first, kept⟩ := field
      rw [insertNew] at member
      split at member
      · rcases List.mem_cons.mp member with rfl | later
        · exact .inl rfl
        · exact .inr later
      · split at member
        · exact .inr member
        · rcases List.mem_cons.mp member with rfl | later
          · exact .inr List.mem_cons_self
          · exact (ih later).imp_right (List.mem_cons_of_mem _)

theorem ascending_insertNew {name : String} {value : Json} {fields : Fields}
    (ascending : (fields.map Prod.fst).Pairwise (· < ·)) :
    ((insertNew name value fields).map Prod.fst).Pairwise (· < ·) := by
  induction fields with
  | nil => exact List.pairwise_singleton _ _
  | cons field rest ih =>
      obtain ⟨first, kept⟩ := field
      have later := (List.pairwise_cons.mp ascending).1
      rw [insertNew]
      split
      · next below =>
        refine List.pairwise_cons.mpr ⟨fun other member => ?_, ascending⟩
        rcases List.mem_cons.mp member with rfl | inRest
        · exact below
        · exact lt_trans below (later other inRest)
      · next notBelow =>
        split
        · exact ascending
        · next different =>
          refine List.pairwise_cons.mpr ⟨fun other member =>
            ?_, ih (List.pairwise_cons.mp ascending).2⟩
          rcases mem_insertNew member with rfl | inRest
          · exact lt_of_le_of_ne (not_lt.mp notBelow) (Ne.symm different)
          · exact later other inRest

theorem ascending_normalFields (fields : Fields) :
    ((normalFields fields).map Prod.fst).Pairwise (· < ·) := by
  induction fields with
  | nil =>
      rw [normalFields]
      exact .nil
  | cons field rest ih =>
      rw [normalFields]
      exact ascending_insertNew ih

theorem length_insertNew_le (name : String) (value : Json) (fields : Fields) :
    (insertNew name value fields).length ≤ fields.length + 1 := by
  induction fields with
  | nil => exact Nat.le_refl _
  | cons field rest ih =>
      rw [insertNew]
      split
      · exact Nat.le_refl _
      · split
        · exact Nat.le_succ _
        · exact Nat.succ_le_succ ih

theorem length_normalFields_le (fields : Fields) : (normalFields fields).length ≤
    fields.length := by
  induction fields with
  | nil => rw [normalFields]
  | cons field rest ih =>
      rw [normalFields, List.length_cons]
      have inserted := length_insertNew_le field.1 (normal field.2) (normalFields rest)
      omega

/-- A field that ends up at the front of as many others as there are was new. -/
theorem of_insertNew_eq {name : String} {value value' : Json} {fields rest : Fields}
    (same : insertNew name value fields = (name, value') :: rest)
      (few : fields.length ≤ rest.length) :
    value = value' ∧ fields = rest := by
  cases fields with
  | nil =>
      obtain ⟨head, tail⟩ := List.cons.inj same
      exact ⟨(Prod.mk.inj head).2, tail⟩
  | cons field others =>
      obtain ⟨first, kept⟩ := field
      rw [insertNew] at same
      split at same
      · obtain ⟨head, tail⟩ := List.cons.inj same
        exact ⟨(Prod.mk.inj head).2, tail⟩
      · split at same
        · obtain ⟨_, tail⟩ := List.cons.inj same
          rw [tail, List.length_cons] at few
          omega
        · next different =>
          exact absurd (Prod.mk.inj (List.cons.inj same).1).1.symm different

/-- The values of fields in normal form are. -/
theorem normal_of_mem {fields : Fields} (same : normalFields fields = fields) :
    ∀ field ∈ fields, normal field.2 = field.2 := by
  induction fields with
  | nil => exact nofun
  | cons field rest ih =>
      rw [normalFields] at same
      obtain ⟨value, others⟩ := of_insertNew_eq same (length_normalFields_le rest)
      intro other member
      rcases List.mem_cons.mp member with rfl | later
      · exact value
      · exact ih others other later

/-- A value in normal form is exact, but for floats. -/
theorem exact_of_normal {value : Json} (free : FloatFree value) (same : value.normal = value) :
    Exact value := by
  induction free with
  | null => exact .null
  | bool value => exact .bool value
  | num value =>
      rw [normal] at same
      split at same
      · next fits => exact .num fits
      · cases same
  | str value => exact .str value
  | @arr values all ih =>
      rw [normal, normalAll_eq] at same
      refine .arr fun value member => ih value member ?_
      have each : values.map normal = values.map id := by rw [Json.arr.inj same, List.map_id]
      exact List.map_inj_left.mp each value member
  | @obj fields all ih =>
      rw [normal] at same
      have same := Json.obj.inj same
      refine .obj ?_ fun field member => ih field member (normal_of_mem same field member)
      have ascending := ascending_normalFields fields
      rw [same] at ascending
      exact ascending.imp fun below => ne_of_lt below

/-! ### Reading a value in normal form -/

theorem named_insertNew {name : String} {value : Json} {fields : Fields}
    (new : name ∉ fields.map Prod.fst)
    (other : String) :
    (insertNew name value fields).named other = if name = other then [value] else fields.named
      other := by
  induction fields with
  | nil => by_cases same : name = other <;> simp [insertNew, Fields.named, same]
  | cons field rest ih =>
      obtain ⟨first, kept⟩ := field
      rw [List.map_cons, List.mem_cons, not_or] at new
      have noOther : name = other → Fields.named ((first, kept) :: rest) other = [] := by
        rintro rfl
        have none : rest.filter (fun field => decide (field.1 = name)) = [] :=
          List.filter_eq_nil_iff.mpr fun field member => by
            simpa using fun same : field.1 = name => new.2 (same ▸ List.mem_map_of_mem member)
        simp [Fields.named, Ne.symm new.1, none]
      rw [insertNew]
      split
      · by_cases same : name = other
        · rw [if_pos same]
          have rest := noOther same
          simp only [Fields.named] at rest ⊢
          rw [List.filter_cons, if_pos (by simpa using same), List.map_cons, rest]
        · rw [if_neg same]
          simp [Fields.named, List.filter_cons, same]
      · rw [if_neg new.1]
        have later := ih new.2
        by_cases same : name = other
        · rw [if_pos same] at later ⊢
          have different : first ≠ other := fun here => new.1 (same.trans here.symm)
          simpa [Fields.named, List.filter_cons, different] using later
        · rw [if_neg same] at later ⊢
          simp only [Fields.named] at later ⊢
          by_cases here : first = other
          · simp [here, later]
          · simp [here, later]

theorem mem_normalFields {name : String} {fields : Fields}
    (member : name ∈ (normalFields fields).map Prod.fst) :
    name ∈ fields.map Prod.fst := by
  induction fields with
  | nil =>
      rw [normalFields] at member
      exact member
  | cons field rest ih =>
      rw [normalFields] at member
      rcases mem_insertNew member with rfl | later
      · exact List.mem_cons_self
      · exact List.mem_cons_of_mem _ (ih later)

theorem of_mem_insertNew {name : String} {value : Json} {fields : Fields} {field : String × Json}
    (member : field ∈ insertNew name value fields) : field = (name, value) ∨ field ∈ fields := by
  induction fields with
  | nil => exact .inl (List.mem_singleton.mp member)
  | cons first rest ih =>
      obtain ⟨other, kept⟩ := first
      rw [insertNew] at member
      split at member
      · exact List.mem_cons.mp member
      · split at member
        · exact .inr member
        · rcases List.mem_cons.mp member with rfl | later
          · exact .inr List.mem_cons_self
          · exact (ih later).imp_right (List.mem_cons_of_mem _)

theorem of_mem_normalFields {fields : Fields} {field : String × Json}
    (member : field ∈ normalFields fields) : ∃ first ∈ fields, field.2 = first.2.normal := by
  induction fields with
  | nil =>
      rw [normalFields] at member
      cases member
  | cons first rest ih =>
      rw [normalFields] at member
      rcases of_mem_insertNew member with rfl | later
      · exact ⟨first, List.mem_cons_self, rfl⟩
      · obtain ⟨other, inside, same⟩ := ih later
        exact ⟨other, List.mem_cons_of_mem _ inside, same⟩

/-- An exact value is exact in normal form. -/
theorem Exact.normal {value : Json} (exact : Exact value) : Exact value.normal := by
  induction exact with
  | null => exact .null
  | bool value => exact .bool value
  | num fits =>
      rw [Json.normal, if_pos fits]
      exact .num fits
  | str value => exact .str value
  | arr all ih =>
      rw [Json.normal, normalAll_eq]
      refine .arr fun value member => ?_
      obtain ⟨first, inside, rfl⟩ := List.mem_map.mp member
      exact ih first inside
  | @obj fields names all ih =>
      rw [Json.normal]
      refine .obj ((ascending_normalFields fields).imp ne_of_lt) fun field member => ?_
      obtain ⟨first, inside, same⟩ := of_mem_normalFields member
      rw [same]
      exact ih first inside

theorem normalFields_of_ascending {fields : Fields}
    (ascending : (fields.map Prod.fst).Pairwise (· < ·))
    (values : ∀ field ∈ fields, field.2.normal = field.2) : normalFields fields = fields := by
  induction fields with
  | nil => rw [normalFields]
  | cons first rest ih =>
      obtain ⟨name, value⟩ := first
      obtain ⟨below, others⟩ := List.pairwise_cons.mp ascending
      obtain ⟨here, later⟩ := List.forall_mem_cons.mp values
      rw [normalFields, ih others later, show value.normal = value from here]
      cases rest with
      | nil => rw [insertNew]
      | cons second rest =>
          rw [insertNew, if_pos (below second.1 List.mem_cons_self)]

mutual

/-- Normal form is reached at once. -/
theorem normal_normal : (value : Json) → value.normal.normal = value.normal
  | .num value => by
      rw [normal]
      split
      · next fits => rw [normal, if_pos fits]
      · rw [normal]
  | .arr values => by
      rw [normal, normal, normalAll_eq, normalAll_eq, List.map_map]
      exact congrArg Json.arr (List.map_congr_left (normal_normal_all values))
  | .obj fields => by
      rw [normal, normal, normalFields_of_ascending (ascending_normalFields fields)]
      intro field member
      obtain ⟨first, inside, same⟩ := of_mem_normalFields member
      rw [same]
      exact normal_normal_fields fields first inside
  | .null => by rw [normal]; rw [normal]
  | .bool value => by rw [normal]; rw [normal]
  | .float text => by rw [normal]; rw [normal]
  | .str text => by rw [normal]; rw [normal]

theorem normal_normal_all : (values : List Json) →
    ∀ value ∈ values, value.normal.normal = value.normal
  | [], _, member => absurd member List.not_mem_nil
  | first :: rest, value, member => by
      rcases List.mem_cons.mp member with same | later
      · rw [same]
        exact normal_normal first
      · exact normal_normal_all rest value later

theorem normal_normal_fields : (fields : List (String × Json)) →
    ∀ field ∈ fields, field.2.normal.normal = field.2.normal
  | [], _, member => absurd member List.not_mem_nil
  | (name, value) :: rest, field, member => by
      rcases List.mem_cons.mp member with same | later
      · rw [same]
        exact normal_normal value
      · exact normal_normal_fields rest field later

end

/-- In normal form, an object has the same values under the same names, in normal form. -/
theorem named_normalFields {fields : Fields} (names : (fields.map Prod.fst).Nodup) (name : String) :
    Fields.named (normalFields fields) name = (fields.named name).map normal := by
  induction fields with
  | nil =>
      rw [normalFields]
      rfl
  | cons field rest ih =>
      obtain ⟨first, value⟩ := field
      obtain ⟨new, others⟩ := List.nodup_cons.mp names
      rw [normalFields, named_insertNew (fun member => new (mem_normalFields member)), ih others]
      have none : first = name → rest.filter (fun field => decide (field.1 = name)) = [] := by
        rintro rfl
        exact List.filter_eq_nil_iff.mpr fun field member => by
          simpa using fun same : field.1 = first => new (List.mem_map.mpr ⟨field, member, same⟩)
      by_cases same : first = name
      · simp [Fields.named, same, none same]
      · simp [Fields.named, same]

/-- Fields that carry the same values under the same names, in normal form. -/
def Alike (fields fields' : Fields) : Prop := ∀ name, fields'.named name =
    (fields.named name).map normal

/-- A reader for which normal form makes no difference. -/
def Stable {α : Type} (read : Json → Option α) : Prop := ∀ value, read value.normal = read value

theorem Alike.required {fields fields' : Fields} (alike : Alike fields fields') {α : Type}
    {read : Json → Option α} (stable : Stable read) (name : String) :
    fields'.required name read = fields.required name read := by
  unfold Fields.required
  rw [alike name]
  rcases fields.named name with _ | ⟨value, _ | ⟨second, rest⟩⟩
  · rfl
  · exact stable value
  · rfl

theorem Alike.orDefault {fields fields' : Fields} (alike : Alike fields fields') {α : Type}
    {read : Json → Option α} (stable : Stable read) (name : String) (missing : α) :
    fields'.orDefault name read missing = fields.orDefault name read missing := by
  unfold Fields.orDefault
  rw [alike name]
  rcases fields.named name with _ | ⟨value, _ | ⟨second, rest⟩⟩
  · rfl
  · exact stable value
  · rfl

theorem stable_asStr : Stable asStr := by
  intro value
  cases value with
  | num value =>
      rw [normal]
      split <;> rfl
  | _ => rw [normal] <;> rfl

theorem stable_asI64 : Stable asI64 := by
  intro value
  cases value with
  | num value =>
      rw [normal]
      split
      · rfl
      · next outside =>
        have outside : ¬ (-2 ^ 63 ≤ value ∧ value < 2 ^ 63) := fun fits =>
          outside ⟨fits.1, by have := fits.2; omega⟩
        rw [asI64, if_neg outside]
        rfl
  | _ => rw [normal] <;> rfl

theorem stable_asStrs : Stable asStrs := by
  intro value
  cases value with
  | arr values =>
      rw [normal, normalAll_eq]
      show (values.map normal).mapM asStr = values.mapM asStr
      induction values with
      | nil => rfl
      | cons first rest ih => rw [List.map_cons, List.mapM_cons, List.mapM_cons, ih, stable_asStr]
  | num value =>
      rw [normal]
      split <;> rfl
  | _ => rw [normal] <;> rfl

theorem asOption_of_ne {α : Type} (read : Json → Option α) {value : Json}
    (present : value ≠ .null) :
    asOption read value = (read value).map some := by
  cases value with
  | null => exact absurd rfl present
  | _ => rfl

theorem normal_eq_null {value : Json} (isNull : value.normal = .null) : value = .null := by
  cases value with
  | null => rfl
  | num value =>
      rw [normal] at isNull
      split at isNull <;> cases isNull
  | _ =>
      rw [normal] at isNull
      cases isNull

theorem Stable.asOption {α : Type} {read : Json → Option α} (stable : Stable read) :
    Stable (asOption read) := by
  intro value
  by_cases isNull : value = .null
  · rw [isNull, normal]
  · rw [asOption_of_ne read isNull, asOption_of_ne read fun same =>
      isNull (normal_eq_null same), stable]

end Json
