/-
**Lists without what is at their ends.**

* `trim`: what is left when the elements of a kind are dropped from both ends.
* `Bare`: neither end is of the kind. A trimmed list is bare, and a bare one stays as it is.
* `trim_eq_iff`: the lists that a bare one is left of.
-/

import Mathlib.Data.List.DropRight
import Mathlib.Data.List.TakeWhile

namespace Edges

variable {α : Type*}

/-- Without the elements of a kind at both ends. -/
def trim (p : α → Bool) (text : List α) : List α := (text.dropWhile p).rdropWhile p

/-- Neither end is of the kind. -/
structure Bare (p : α → Bool) (text : List α) : Prop where
  first : ∀ a ∈ text.head?, p a = false
  last : ∀ a ∈ text.getLast?, p a = false

variable {p : α → Bool}

theorem dropWhile_bare {text : List α} (first : ∀ a ∈ text.head?, p a = false) :
    text.dropWhile p = text := by
  cases text with
  | nil => rfl
  | cons a rest => exact List.dropWhile_cons_of_neg (by simp [first a rfl])

theorem rdropWhile_bare {text : List α} (last : ∀ a ∈ text.getLast?, p a = false) :
    text.rdropWhile p = text := by
  rw [List.rdropWhile, dropWhile_bare, List.reverse_reverse]
  simpa using last

/-- A bare list stays as it is. -/
theorem trim_of_bare {text : List α} (bare : Bare p text) : trim p text = text := by
  rw [trim, dropWhile_bare bare.first, rdropWhile_bare bare.last]

theorem bare_trim (text : List α) : Bare p (trim p text) where
  first a head := by
    -- the first element is that of the list without its beginning
    obtain ⟨rest, parts⟩ := List.rdropWhile_prefix (p := p) (text.dropWhile p)
    have front : a ∈ (text.dropWhile p).head? := by
      rw [← parts, List.head?_append, show ((text.dropWhile p).rdropWhile p).head? = some a from head]
      rfl
    have edge := List.head?_dropWhile_not p text
    rw [Option.mem_def.mp front] at edge
    simpa using edge
  last a ends := by
    have nonempty : trim p text ≠ [] := by
      rintro nil
      rw [nil] at ends
      cases ends
    have edge : ¬ p ((trim p text).getLast nonempty) = true :=
      List.rdropWhile_last_not p (text.dropWhile p) nonempty
    rw [List.getLast?_eq_some_getLast nonempty] at ends
    obtain rfl := Option.some.inj ends
    simpa using edge

theorem trim_trim (text : List α) : trim p (trim p text) = trim p text :=
  trim_of_bare (bare_trim text)

/-- A list is what is left of it, with what is dropped around it. -/
theorem trim_parts (text : List α) : ∃ before after, text = before ++ (trim p text ++ after) ∧
    (∀ a ∈ before, p a = true) ∧ ∀ a ∈ after, p a = true := by
  refine ⟨text.takeWhile p, (text.dropWhile p).rtakeWhile p, ?_,
    fun a member => List.mem_takeWhile_imp member, fun a member => List.mem_rtakeWhile_imp member⟩
  rw [trim, List.rdropWhile_append_rtakeWhile, List.takeWhile_append_dropWhile]

theorem trim_append_left {edge text : List α} (all : ∀ a ∈ edge, p a = true) :
    trim p (edge ++ text) = trim p text := by
  rw [trim, List.dropWhile_append, List.dropWhile_eq_nil_iff.mpr all]
  rfl

theorem trim_append_right {text edge : List α} (all : ∀ a ∈ edge, p a = true) :
    trim p (text ++ edge) = trim p text := by
  have back : ∀ rest : List α, (rest ++ edge).rdropWhile p = rest.rdropWhile p := by
    intro rest
    rw [List.rdropWhile, List.reverse_append, List.dropWhile_append,
      List.dropWhile_eq_nil_iff.mpr fun a member => all a (List.mem_reverse.mp member)]
    rfl
  rw [trim, List.dropWhile_append]
  split
  · next none =>
    rw [List.dropWhile_eq_nil_iff.mpr all, trim, List.isEmpty_iff.mp none]
  · exact back _

/-- The lists that a bare one is left of. -/
theorem trim_eq_iff {text core : List α} (bare : Bare p core) :
    trim p text = core ↔ ∃ before after, text = before ++ (core ++ after) ∧
      (∀ a ∈ before, p a = true) ∧ ∀ a ∈ after, p a = true := by
  constructor
  · rintro rfl
    exact trim_parts text
  · rintro ⟨before, after, rfl, left, right⟩
    rw [trim_append_left left, trim_append_right right, trim_of_bare bare]

theorem mem_of_mem_trim {text : List α} {a : α} (member : a ∈ trim p text) : a ∈ text :=
  List.dropWhile_subset _ ((List.rdropWhile_prefix _ _).subset member)

end Edges
