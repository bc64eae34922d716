/-
**Comparisons that rank.**

A comparison `newer` need not tell any two values apart, but what it does say must fit together: it
is a strict order, and being equally new is transitive.

* `ranks_of_key`: a comparison of keys ranks, whatever linear order the keys are in.
* `Ranks.chain`: where each is newer than the one before, each is newer than all before.
* `Ranks.newest`: who takes whatever is newer, one after the other, ends with a newest.
-/

import Mathlib.Data.List.Chain
import Mathlib.Order.Lattice

namespace Ranking

variable {α β : Type*} (newer : α → α → Bool)

/-- Neither is newer. -/
def Even (a b : α) : Prop := newer a b = false ∧ newer b a = false

structure Ranks : Prop where
  irrefl : ∀ a, newer a a = false
  asymm : ∀ a b, newer a b = true → newer b a = false
  trans : ∀ a b c, newer a b = true → newer b c = true → newer a c = true
  even : ∀ a b c, Even newer a b → Even newer b c → Even newer a c

/-- Take what is released if it is newer. -/
def adopt (current released : α) : α := if newer released current then released else current

/-- Nothing is newer; whatever else is such is equally new. -/
structure Newest (all : List α) (last : α) : Prop where
  member : last ∈ all
  none : ∀ a ∈ all, newer a last = false
  unique : ∀ other ∈ all, (∀ a ∈ all, newer a other = false) → Even newer last other

variable {newer}

theorem even_iff_of_key [LinearOrder β] {key : α → β}
    (byKey : ∀ a b, newer a b = true ↔ key b < key a) {a b : α} :
    Even newer a b ↔ key a = key b := by
  rw [Even, ← Bool.not_eq_true, ← Bool.not_eq_true, byKey, byKey, not_lt, not_lt]
  exact ⟨fun both => le_antisymm both.1 both.2, fun same => ⟨same.le, same.ge⟩⟩

/-- **A comparison of keys ranks.** -/
theorem ranks_of_key [LinearOrder β] {key : α → β}
    (byKey : ∀ a b, newer a b = true ↔ key b < key a) : Ranks newer where
  irrefl a := by
    rw [← Bool.not_eq_true, byKey]
    exact lt_irrefl _
  asymm a b first := by
    rw [← Bool.not_eq_true, byKey]
    exact lt_asymm ((byKey a b).mp first)
  trans a b c first second := by
    rw [byKey] at first second ⊢
    exact second.trans first
  even a b c first second := by
    rw [even_iff_of_key byKey] at first second ⊢
    exact first.trans second

namespace Ranks

variable (ranks : Ranks newer)

include ranks

/-- What is not newer than something, which is not newer than a third, is not newer than it. -/
theorem not_newer {a b c : α} (first : newer a b = false) (second : newer b c = false) :
    newer a c = false := by
  cases whole : newer a c with
  | false => rfl
  | true =>
      have even : Even newer a b := by
        refine ⟨first, Bool.eq_false_iff.mpr fun later => ?_⟩
        rw [ranks.trans b a c later whole] at second
        cases second
      have even' : Even newer b c := by
        refine ⟨second, Bool.eq_false_iff.mpr fun later => ?_⟩
        rw [ranks.trans a c b whole later] at first
        cases first
      rw [(ranks.even a b c even even').1] at whole
      cases whole

/-- **Nothing comes back** where each is newer than the one before. -/
theorem chain {all : List α} (chain : all.IsChain fun a b => newer b a = true) :
    all.Pairwise fun a b => newer b a = true ∧ b ≠ a := by
  have trans : IsTrans α fun a b => newer b a = true :=
    ⟨fun a b c first second => ranks.trans c b a second first⟩
  refine chain.pairwise.imp fun {a b} later => ⟨later, ?_⟩
  rintro rfl
  rw [ranks.irrefl] at later
  cases later

/-- Neither of the two is newer than the one that is taken. -/
theorem adopt_spec (current released : α) :
    newer current (adopt newer current released) = false ∧
      newer released (adopt newer current released) = false := by
  unfold adopt
  split
  · next later => exact ⟨ranks.asymm _ _ later, ranks.irrefl _⟩
  · next notLater => exact ⟨ranks.irrefl _, Bool.eq_false_iff.mpr notLater⟩

/-- **Who takes whatever is newer ends with a newest.** -/
theorem newest (current : α) (all : List α) :
    Newest newer (current :: all) (all.foldl (adopt newer) current) := by
  suffices last : all.foldl (adopt newer) current ∈ current :: all ∧
      ∀ a ∈ current :: all, newer a (all.foldl (adopt newer) current) = false from
    ⟨last.1, last.2, fun other member top => ⟨top _ last.1, last.2 other member⟩⟩
  induction all generalizing current with
  | nil => exact ⟨List.mem_cons_self, List.forall_mem_singleton.mpr (ranks.irrefl current)⟩
  | cons released rest ih =>
      obtain ⟨member, none⟩ := ih (adopt newer current released)
      obtain ⟨old, new⟩ := ranks.adopt_spec current released
      have here := none _ List.mem_cons_self
      refine ⟨?_, List.forall_mem_cons.mpr ⟨ranks.not_newer old here, List.forall_mem_cons.mpr
        ⟨ranks.not_newer new here, fun a inside => none a (List.mem_cons_of_mem _ inside)⟩⟩⟩
      rcases List.mem_cons.mp member with same | later
      · rw [List.foldl_cons, same]
        unfold adopt
        split
        · exact List.mem_cons_of_mem _ List.mem_cons_self
        · exact List.mem_cons_self
      · exact List.mem_cons_of_mem _ (List.mem_cons_of_mem _ later)

end Ranks

end Ranking
