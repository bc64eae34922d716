/-
**Parties that talk: what was said, what was heard, and what is on its way.**

An abstract conversation. Whatever a party says is on its way to every other party (`posted`), and
each hears it when it comes up (`taken`). `Faithful`: what a party has heard of another, followed by
what is on its way between them, is what the other has said. Every step keeps it (`Next.faithful`),
so nothing is lost, doubled, altered or out of order in any run (`Faithful.run`).
-/

import Mathlib.Logic.Relation
import Mathlib.Logic.Function.Basic
import Mathlib.Tactic.Common

/-- The state of a conversation among parties `P` about things of type `α`. -/
@[ext]
structure Talk (P α : Type) where
  said : P → List α
  /-- What the first party has heard of the second. -/
  heard : P → P → List α
  /-- What is on its way from the first party to the second. -/
  way : P → P → List α

namespace Talk

variable {P α β : Type} [DecidableEq P]

/-! ### What is on its way -/

/-- One more for everyone but oneself. -/
def posted (p : P) (x : α) (way : P → P → List α) : P → P → List α :=
  Function.update way p fun q => if q = p then way p q else way p q ++ [x]

/-- Less what has come up from `p` to `q`. -/
def taken (p q : P) (rest : List α) (way : P → P → List α) : P → P → List α :=
  Function.update way p (Function.update (way p) q rest)

theorem posted_self (p : P) (x : α) (way : P → P → List α) : posted p x way p p = way p p := by
  rw [posted, Function.update_self, if_pos rfl]

theorem posted_other {p q : P} (apart : p ≠ q) (x : α) (way : P → P → List α) :
    posted p x way p q = way p q ++ [x] := by
  rw [posted, Function.update_self, if_neg apart.symm]

theorem posted_of_ne {p r : P} (other : r ≠ p) (x : α) (way : P → P → List α) :
    posted p x way r = way r := Function.update_of_ne other _ _

theorem taken_here (p q : P) (rest : List α) (way : P → P → List α) :
    taken p q rest way p q = rest := by
  rw [taken, Function.update_self, Function.update_self]

theorem taken_elsewhere {p q r s : P} (other : ¬ (r = p ∧ s = q)) (rest : List α)
    (way : P → P → List α) : taken p q rest way r s = way r s := by
  by_cases sender : r = p
  · subst sender
    rw [taken, Function.update_self, Function.update_of_ne fun same => other ⟨rfl, same⟩]
  · rw [taken, Function.update_of_ne sender]

theorem map_posted (f : α → β) (p : P) (x : α) (way : P → P → List α) :
    (fun r s => (posted p x way r s).map f) = posted p (f x) fun r s => (way r s).map f := by
  funext r s
  by_cases sender : r = p
  · subst sender
    by_cases own : s = r
    · subst own
      rw [posted_self, posted_self]
    · rw [posted_other (Ne.symm own), posted_other (Ne.symm own), List.map_append, List.map_cons,
        List.map_nil]
  · rw [posted_of_ne sender, posted_of_ne sender]

theorem map_taken (f : α → β) (p q : P) (rest : List α) (way : P → P → List α) :
    (fun r s => (taken p q rest way r s).map f) =
      taken p q (rest.map f) fun r s => (way r s).map f := by
  funext r s
  by_cases here : r = p ∧ s = q
  · obtain ⟨rfl, rfl⟩ := here
    rw [taken_here, taken_here]
  · rw [taken_elsewhere here, taken_elsewhere here]

/-! ### The steps -/

/-- Someone says something, for everybody. -/
def say (p : P) (x : α) (t : Talk P α) : Talk P α where
  said := Function.update t.said p (t.said p ++ [x])
  heard := t.heard
  way := posted p x t.way

/-- `q` hears what comes up on its way from `p`. -/
def hear (q p : P) (x : α) (rest : List α) (t : Talk P α) : Talk P α where
  said := t.said
  heard := Function.update t.heard q (Function.update (t.heard q) p (t.heard q p ++ [x]))
  way := taken p q rest t.way

inductive Next : Talk P α → Talk P α → Prop where
  | say (p : P) (x : α) (t : Talk P α) : Next t (t.say p x)
  | hear {q p : P} {x : α} {rest : List α} {t : Talk P α} (first : t.way p q = x :: rest) :
      Next t (t.hear q p x rest)

/-- Everyone has heard everyone else's words, up to those on their way. -/
def Faithful (t : Talk P α) : Prop := ∀ p q, p ≠ q → t.said p = t.heard q p ++ t.way p q

theorem Next.faithful {t t' : Talk P α} (next : Next t t') (faithful : t.Faithful) :
    t'.Faithful := by
  intro p q apart
  cases next with
  | say r x t =>
      by_cases same : p = r
      · subst same
        simp only [Talk.say, Function.update_self, posted_other apart]
        rw [faithful p q apart, List.append_assoc]
      · simp only [Talk.say, Function.update_of_ne same, posted_of_ne same]
        exact faithful p q apart
  | @hear s r x rest t first =>
      simp only [Talk.hear]
      by_cases here : p = r ∧ q = s
      · obtain ⟨rfl, rfl⟩ := here
        rw [Function.update_self, Function.update_self, taken_here, faithful p q apart, first,
          List.append_assoc, List.singleton_append]
      · have kept : Function.update t.heard s
            (Function.update (t.heard s) r (t.heard s r ++ [x])) q p = t.heard q p := by
          by_cases hearer : q = s
          · subst hearer
            rw [Function.update_self, Function.update_of_ne fun same => here ⟨same, rfl⟩]
          · rw [Function.update_of_ne hearer]
        rw [kept, taken_elsewhere here]
        exact faithful p q apart

/-- **Nothing is lost, doubled, altered or out of order.** -/
theorem Faithful.run {t t' : Talk P α} (faithful : t.Faithful)
    (run : Relation.ReflTransGen Next t t') : t'.Faithful := by
  induction run with
  | refl => exact faithful
  | tail _ next ih => exact next.faithful ih

end Talk
