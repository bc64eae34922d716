/-
**Texts without control characters.**

* `Clean`: no C0 control, DEL or C1 control.
* `clean_cleanDisplay`, `clean_cleanHex`, `clean_debugText`: what is stripped, checked or escaped is
  clean.
* `Event.Clean`, `Notice.Clean`: every text in it is.
-/

import Cherm.Plugin.Requests

namespace Json

/-- Every text and every name in the value. -/
inductive Every (p : String → Prop) : Json → Prop where
  | null : Every p null
  | bool (value : Bool) : Every p (bool value)
  | num (value : Int) : Every p (num value)
  | float (text : String) : Every p (float text)
  | str {value : String} (is : p value) : Every p (str value)
  | arr {values : List Json} (all : ∀ value ∈ values, Every p value) : Every p (arr values)
  | obj {fields : Fields} (names : ∀ field ∈ fields, p field.1)
      (all : ∀ field ∈ fields, Every p field.2) : Every p (obj fields)

theorem mem_insertNew_of {name : String} {value : Json} {fields : Fields}
    {field : String × Json} (member : field ∈ insertNew name value fields) :
    field = (name, value) ∨ field ∈ fields := by
  induction fields with
  | nil => exact .inl (List.mem_singleton.mp member)
  | cons first rest ih =>
      rw [insertNew] at member
      split at member
      · exact List.mem_cons.mp member
      · split at member
        · exact .inr member
        · rcases List.mem_cons.mp member with rfl | later
          · exact .inr List.mem_cons_self
          · exact (ih later).imp_right (List.mem_cons_of_mem first)

end Json

namespace ChermPlugins

open Cherm (utf8)

/-! ### Texts -/

/-- No character is a control character. -/
def Clean (text : String) : Prop := ∀ c ∈ text.toList, isControl c = false

instance (text : String) : Decidable (Clean text) :=
  List.decidableBAll (fun c => isControl c = false) text.toList

/-- A text that is spelt out is clean if its characters are. -/
theorem clean_literal {chars : List Char}
    (plain : (chars.all fun c => !isControl c) = true := by decide) :
    Clean (String.ofList chars) := by
  intro c member
  rw [String.toList_ofList] at member
  simpa using List.all_eq_true.mp plain c member

@[simp] theorem clean_append {a b : String} : Clean (a ++ b) ↔ Clean a ∧ Clean b := by
  simp only [Clean, String.toList_append, List.mem_append, or_imp, forall_and]

theorem clean_cleanDisplay (text : String) (max : Nat) : Clean (cleanDisplay text max) := by
  intro c member
  rw [cleanDisplay, String.toList_ofList] at member
  have kept := (List.mem_filter.mp (List.mem_of_mem_take member)).2
  simpa using kept

/-- A letter or a digit is no control character. -/
theorem isControl_of_isDigit {c : Char} (digit : c.isDigit = true) : isControl c = false := by
  have bounds : 48 ≤ c.toNat ∧ c.toNat ≤ 57 := by
    simpa [Char.isDigit, UInt32.le_iff_toNat_le] using digit
  simp [isControl]
  omega

theorem clean_toString (n : Nat) : Clean (toString n) := by
  intro c member
  have inside : c ∈ Nat.toDigits 10 n := by simpa using member
  exact isControl_of_isDigit (Nat.isDigit_of_mem_toDigits (by decide) (by decide) inside)

/-- The digits of a code point. -/
theorem clean_hexDigits (n : Nat) : ∀ c ∈ Nat.toDigits 16 n, isControl c = false := by
  have digit : ∀ d < 16, isControl (Nat.digitChar d) = false := by decide
  induction n using Nat.strong_induction_on with
  | _ n ih =>
      intro c member
      by_cases small : n < 16
      · rw [Nat.toDigits_of_lt_base small, List.mem_singleton] at member
        exact member ▸ digit n small
      · rw [Nat.toDigits_of_base_le (by decide) (Nat.le_of_not_lt small)] at member
        rcases List.mem_append.mp member with front | last
        · exact ih (n / 16) (by omega) c front
        · exact List.mem_singleton.mp last ▸ digit (n % 16) (Nat.mod_lt n (by decide))

section

variable [Crates]

/-- An escape has no control character, whichever character it stands for. -/
theorem clean_escapeDebug (c : Char) : ((escapeDebug c).all fun d => !isControl d) = true := by
  have digits : ((Nat.toDigits 16 c.toNat).all fun d => !isControl d) = true :=
    List.all_eq_true.mpr fun d member => by rw [clean_hexDigits c.toNat d member]; rfl
  unfold escapeDebug
  split_ifs with quoted tab line carriage null escaped
  · rcases quoted with rfl | rfl <;> decide
  · decide
  · decide
  · decide
  · decide
  · rw [List.all_append, List.all_append, digits]
    decide
  · simp only [Bool.or_eq_true, not_or, Bool.not_eq_true] at escaped
    simp [escaped.1]

theorem clean_debugText (text : String) : Clean (debugText text) := by
  unfold debugText
  simp only [clean_append]
  refine ⟨⟨by decide, fun d member => ?_⟩, by decide⟩
  rw [String.toList_ofList] at member
  obtain ⟨c, _, inside⟩ := List.mem_flatMap.mp member
  simpa using List.all_eq_true.mp (clean_escapeDebug c) d inside

end

theorem clean_permissionHelp (perm : String) : Clean (permissionHelp perm) := by
  unfold permissionHelp
  split <;> exact clean_literal

/-- The bytes of a colour. -/
def isColour (b : UInt8) : Bool := b = 35 || isHexDigit b

theorem toNat_of_isColour {b : UInt8} (colour : isColour b = true) :
    b.toNat = 35 ∨ 48 ≤ b.toNat ∧ b.toNat ≤ 102 := by
  simp only [isColour, isHexDigit, Bool.or_eq_true, Bool.and_eq_true, decide_eq_true_eq,
    UInt8.le_iff_toNat_le, ← UInt8.toNat_inj, UInt8.reduceToNat] at colour
  omega

/-- No control character is written with the bytes of a colour only. -/
theorem isControl_of_colour {c : Char} (colour : ∀ b ∈ String.utf8EncodeChar c, isColour b = true) :
    isControl c = false := by
  by_contra control
  have value : c.toNat = c.val.toNat := rfl
  simp only [isControl, Bool.not_eq_false, Bool.or_eq_true, Bool.and_eq_true,
    decide_eq_true_eq] at control
  by_cases ascii : c.val ≤ 127
  · rw [String.utf8EncodeChar_eq_singleton (Char.utf8Size_eq_one_iff.mpr ascii)] at colour
    have is := toNat_of_isColour (colour _ List.mem_cons_self)
    have byte : c.val.toUInt8.toNat = c.val.toNat := by
      rw [UInt32.toNat_toUInt8, Nat.mod_eq_of_lt]
      exact lt_of_le_of_lt (UInt32.le_iff_toNat_le.mp ascii) (by decide)
    omega
  · have two : c.utf8Size = 2 := by
      refine Char.utf8Size_eq_two_iff.mpr ⟨UInt32.not_le.mp ascii, UInt32.le_iff_toNat_le.mpr ?_⟩
      show c.val.toNat ≤ 2047
      omega
    rw [String.utf8EncodeChar_eq_cons_cons two] at colour
    have is := toNat_of_isColour (colour _ List.mem_cons_self)
    rw [UInt8.toNat_or] at is
    have lead : 192 ≤ (((c.val >>> 6).toUInt8 &&& 31).toNat ||| (192 : UInt8).toNat) :=
      Nat.right_le_or
    omega

theorem clean_cleanHex {text default : String} (is : Clean default) :
    Clean (cleanHex text default) := by
  unfold cleanHex
  split
  · next digits bytes =>
    split
    · next strict =>
      intro c member
      refine isControl_of_colour fun b inside => ?_
      have ofText : b ∈ utf8 text := by
        rw [Cherm.utf8_eq]
        exact List.mem_flatMap.mpr ⟨c, member, inside⟩
      rw [bytes] at ofText
      rcases List.mem_cons.mp ofText with rfl | digit
      · rfl
      · rw [isColour, List.all_eq_true.mp strict.2 b digit, Bool.or_true]
    · exact is
  · exact is

/-! ### Events -/

structure Widget.Clean (widget : Widget) : Prop where
  slot : ChermPlugins.Clean widget.slot
  kind : ChermPlugins.Clean widget.kind
  value : ∀ text ∈ widget.value, ChermPlugins.Clean text
  format : ∀ text ∈ widget.format, ChermPlugins.Clean text

/-- Every text of an event. -/
def Event.Clean : Event → Prop
  | .error code message => ChermPlugins.Clean code ∧ ChermPlugins.Clean message
  | .info message => ChermPlugins.Clean message
  | .theme palette => palette.Every ChermPlugins.Clean
  | .widgets shown => ∀ widget ∈ shown, widget.Clean
  | .pluginInstalled name version category =>
      ChermPlugins.Clean name ∧ ChermPlugins.Clean version ∧ ChermPlugins.Clean category
  | .installedPlugins plugins | .storePlugins plugins =>
      ∀ value ∈ plugins, value.Every ChermPlugins.Clean

def Notice.Clean : Notice → Prop
  | .event told => told.Clean
  | .widgetsValue value => value.Every ChermPlugins.Clean
  | .pluginUpdateAvailable name current latest category => ChermPlugins.Clean name ∧
      ChermPlugins.Clean current ∧ ChermPlugins.Clean latest ∧ ChermPlugins.Clean category
  | .pluginSubmitted name version category =>
      ChermPlugins.Clean name ∧ ChermPlugins.Clean version ∧ ChermPlugins.Clean category

/-- What is shown of a manifest is clean, but for the names of its permissions. -/
theorem every_manifestToValue {manifest : Manifest} {installed : InstalledIndex}
    (permissions : ∀ perm ∈ manifest.permissions, Clean perm) :
    (manifestToValue manifest installed).Every Clean := by
  have display : ∀ text max, (Json.str (cleanDisplay text max)).Every Clean :=
    fun text max => .str (clean_cleanDisplay text max)
  have listed : (Json.arr (manifest.permissions.map fun p =>
      .obj [("help", .str (permissionHelp p)), ("id", .str p)])).Every Clean := by
    refine .arr fun value member => ?_
    obtain ⟨perm, inside, rfl⟩ := List.mem_map.mp member
    refine .obj ?_ ?_
    · simp only [List.forall_mem_cons]
      exact ⟨by decide, by decide, fun _ member => by cases member⟩
    simp only [List.forall_mem_cons]
    exact ⟨.str (clean_permissionHelp perm), .str (permissions perm inside),
      fun _ member => by cases member⟩
  refine .obj ?_ ?_
  · simp only [List.forall_mem_cons]
    exact ⟨by decide, by decide, by decide, by decide, by decide, by decide, by decide, by decide,
      by decide, by decide, by decide, fun _ member => by cases member⟩
  · simp only [List.forall_mem_cons]
    refine ⟨display _ _, display _ _, display _ _, ?_, .bool _, display _ _, display _ _,
      display _ _, listed, display _ _, display _ _, fun _ member => by cases member⟩
    split
    · exact display _ _
    · exact display _ _

/-- Exactly that is clean which has permissions with clean names. -/
theorem every_manifestToValue_iff {manifest : Manifest} {installed : InstalledIndex} :
    (manifestToValue manifest installed).Every Clean ↔
      ∀ perm ∈ manifest.permissions, Clean perm := by
  refine ⟨fun every perm member => ?_, every_manifestToValue⟩
  unfold manifestToValue at every
  cases every with
  | obj _ all =>
  simp only [List.forall_mem_cons] at all
  obtain ⟨_, _, _, _, _, _, _, _, listed, _⟩ := all
  cases listed with
  | arr all =>
  have shown := all _ (List.mem_map_of_mem member)
  cases shown with
  | obj _ all =>
  have named := all ("id", .str perm) (by simp)
  cases named with
  | str is => exact is

theorem every_setField {name : String} {field value : Json} (named : Clean name)
    (every : field.Every Clean) (whole : value.Every Clean) :
    (setField name field value).Every Clean := by
  cases whole with
  | obj names all =>
      refine .obj (fun other member => ?_) fun other member => ?_
      · rcases Json.mem_insertNew_of member with rfl | kept
        · exact named
        · exact names other (List.mem_filter.mp kept).1
      · rcases Json.mem_insertNew_of member with rfl | kept
        · exact every
        · exact all other (List.mem_filter.mp kept).1
  | null => exact .null
  | bool value => exact .bool value
  | num value => exact .num value
  | float text => exact .float text
  | str is => exact .str is
  | arr all => exact .arr all

/-- A colour of a palette is strict, or the default. -/
theorem every_colour (colour : Option String) {default : String} (is : Clean default) :
    (Json.str (match colour with
      | some text => cleanHex text default
      | none => default)).Every Clean := by
  refine .str ?_
  cases colour with
  | none => exact is
  | some text => exact clean_cleanHex is

theorem every_themeToPalette (theme : Theme) : (themeToPalette theme).Every Clean := by
  refine .obj ?_ ?_
  · simp only [List.forall_mem_cons]
    exact ⟨by decide, by decide, by decide, by decide, by decide, by decide, by decide, by decide,
      by decide, fun _ member => by cases member⟩
  · simp only [List.forall_mem_cons]
    exact ⟨every_colour _ (by decide), every_colour _ (by decide), every_colour _ (by decide),
      every_colour _ (by decide), every_colour _ (by decide), every_colour _ (by decide),
      every_colour _ (by decide), every_colour _ (by decide), every_colour _ (by decide),
      fun _ member => by cases member⟩

end ChermPlugins
