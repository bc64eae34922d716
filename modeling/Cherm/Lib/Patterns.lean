/-
**Patterns of texts.**

Regular expressions with the parts that are written in practice: a class of characters, one or more
of something, a fixed word.

* `mem_anyOf`, `mem_word`: what the parts match.
* `mem_oneOrMore`: one or more of a class are the texts with nothing else in them.
-/

import Mathlib.Computability.RegularExpressions

namespace Patterns

open RegularExpression

variable {α : Type*} {text : List α}

/-- One of a class. -/
def anyOf (members : List α) : RegularExpression α := (members.map char).sum

def word (text : List α) : RegularExpression α := (text.map char).prod

def oneOrMore (pattern : RegularExpression α) : RegularExpression α := pattern * star pattern

theorem mem_char {a : α} : text ∈ (char a).matches' ↔ text = [a] := Iff.rfl

theorem mem_add {p q : RegularExpression α} :
    text ∈ (p + q).matches' ↔ text ∈ p.matches' ∨ text ∈ q.matches' := by
  rw [matches'_add]
  exact Language.mem_add _ _ _

theorem mem_mul {p q : RegularExpression α} :
    text ∈ (p * q).matches' ↔ ∃ first ∈ p.matches', ∃ second ∈ q.matches', first ++ second = text := by
  rw [matches'_mul]
  exact Language.mem_mul

theorem mem_anyOf {members : List α} :
    text ∈ (anyOf members).matches' ↔ ∃ a ∈ members, text = [a] := by
  induction members with
  | nil => exact iff_of_false (fun none => none) (by simp)
  | cons first rest ih =>
      have parts : anyOf (first :: rest) = char first + anyOf rest := rfl
      rw [parts, mem_add, mem_char, ih, List.exists_mem_cons_iff]

theorem mem_word {whole : List α} : text ∈ (word whole).matches' ↔ text = whole := by
  induction whole generalizing text with
  | nil => exact Language.mem_one text
  | cons a rest ih =>
      have parts : word (a :: rest) = char a * word rest := rfl
      rw [parts, mem_mul]
      constructor
      · rintro ⟨first, one, second, others, rfl⟩
        rw [mem_char.mp one, ih.mp others]
        rfl
      · rintro rfl
        exact ⟨[a], mem_char.mpr rfl, rest, ih.mpr rfl, rfl⟩

/-- **One or more of a class.** -/
theorem mem_oneOrMore {members : List α} :
    text ∈ (oneOrMore (anyOf members)).matches' ↔ text ≠ [] ∧ ∀ a ∈ text, a ∈ members := by
  rw [oneOrMore, mem_mul]
  constructor
  · rintro ⟨first, one, second, others, rfl⟩
    obtain ⟨a, inside, rfl⟩ := mem_anyOf.mp one
    obtain ⟨parts, rfl, all⟩ := Language.mem_kstar.mp others
    refine ⟨List.cons_ne_nil _ _, List.forall_mem_cons.mpr ⟨inside, fun b member => ?_⟩⟩
    obtain ⟨part, listed, here⟩ := List.mem_flatten.mp member
    obtain ⟨c, kept, rfl⟩ := mem_anyOf.mp (all part listed)
    rwa [List.mem_singleton.mp here]
  · rintro ⟨nonempty, all⟩
    cases text with
    | nil => exact absurd rfl nonempty
    | cons a rest =>
        obtain ⟨inside, others⟩ := List.forall_mem_cons.mp all
        refine ⟨[a], mem_anyOf.mpr ⟨a, inside, rfl⟩, rest, Language.mem_kstar.mpr
          ⟨rest.map ([·]), (List.flatMap_singleton' rest).symm, fun part listed => ?_⟩, rfl⟩
        obtain ⟨b, member, rfl⟩ := List.mem_map.mp listed
        exact mem_anyOf.mpr ⟨b, others b member, rfl⟩

end Patterns
