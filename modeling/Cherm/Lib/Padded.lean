/-
**Lists of numbers compared place by place.**

A list that ends early goes on with zeros. The first place where two lists differ decides.

* `newer`: the comparison as a loop does it.
* `newer_iff`: it is the lexicographic order of the padded lists.
* `lt_congr`: only the places up to the deciding one matter.
-/

import Mathlib.Data.Int.Order.Basic
import Mathlib.Data.List.GetD
import Mathlib.Order.PiLex

namespace Padded

/-- A list with zeros behind it. -/
def pad (xs : List Int) : Lex (Nat → Int) := toLex fun i => xs.getD i 0

/-- The first list has the greater number at the first place where they differ. -/
def newer (xs ys : List Int) : Bool :=
  (((List.range (max xs.length ys.length)).map fun i => (xs.getD i 0, ys.getD i 0)).find?
    fun p => p.1 ≠ p.2).any fun p => p.1 > p.2

theorem pad_apply (xs : List Int) (i : Nat) : pad xs i = xs.getD i 0 := rfl

theorem pad_beyond {xs : List Int} {i : Nat} (beyond : xs.length ≤ i) : pad xs i = 0 :=
  List.getD_eq_default _ _ beyond

theorem pad_lt {xs ys : List Int} : pad ys < pad xs ↔
    ∃ i, (∀ j < i, pad ys j = pad xs j) ∧ pad ys i < pad xs i := Iff.rfl

/-- **The loop computes the lexicographic order.** -/
theorem newer_iff {xs ys : List Int} : newer xs ys = true ↔ pad ys < pad xs := by
  unfold newer
  rw [List.find?_map]
  cases found : (List.range (max xs.length ys.length)).find?
      ((fun p : Int × Int => decide (p.1 ≠ p.2)) ∘ fun i => (xs.getD i 0, ys.getD i 0)) with
  | none =>
      have same : pad ys = pad xs := by
        funext i
        by_cases inside : i < max xs.length ys.length
        · have here := List.find?_range_eq_none.mp found i inside
          have equal : xs.getD i 0 = ys.getD i 0 := by simpa using here
          exact equal.symm
        · rw [pad_beyond (by omega), pad_beyond (by omega)]
      rw [same]
      exact iff_of_false Bool.false_ne_true (lt_irrefl _)
  | some i =>
      obtain ⟨differ, _, before⟩ := List.find?_range_eq_some.mp found
      have differ' : pad xs i ≠ pad ys i := of_decide_eq_true differ
      have before' : ∀ j < i, pad ys j = pad xs j := by
        intro j earlier
        have here := before j earlier
        have equal : xs.getD j 0 = ys.getD j 0 := by simpa using here
        exact equal.symm
      have greater : (Option.map (fun i => (xs.getD i 0, ys.getD i 0)) (some i)).any
          (fun p => decide (p.1 > p.2)) = true ↔ pad ys i < pad xs i := by
        rw [Option.map_some, Option.any_some, decide_eq_true_iff]
        exact Iff.rfl
      rw [greater]
      constructor
      · exact fun less => pad_lt.mpr ⟨i, before', less⟩
      · intro less
        obtain ⟨k, same, least⟩ := pad_lt.mp less
        rcases Nat.lt_trichotomy k i with earlier | rfl | later
        · exact absurd (before' k earlier) (ne_of_lt least)
        · exact least
        · exact absurd (same i later).symm differ'

/-- What comes after the place that decides does not matter. -/
theorem lt_congr {f f' g g' : Lex (Nat → Int)} {i : Nat} (differ : f i ≠ g i)
    (left : ∀ j ≤ i, f j = f' j) (right : ∀ j ≤ i, g j = g' j) : f < g ↔ f' < g' := by
  have one : ∀ {f f' g g' : Lex (Nat → Int)}, f i ≠ g i → (∀ j ≤ i, f j = f' j) →
      (∀ j ≤ i, g j = g' j) → f < g → f' < g' := by
    rintro f f' g g' differ left right ⟨k, same, less⟩
    have early : k ≤ i := by
      by_contra late
      exact differ (same i (by omega))
    refine ⟨k, fun j before => ?_, ?_⟩
    · show f' j = g' j
      rw [← left j (by omega), ← right j (by omega)]
      exact same j before
    · show f' k < g' k
      rw [← left k early, ← right k early]
      exact less
  have differ' : f' i ≠ g' i := by rwa [← left i le_rfl, ← right i le_rfl]
  exact ⟨one differ left right,
    one differ' (fun j le => (left j le).symm) fun j le => (right j le).symm⟩

theorem pad_tail {x y : Int} {xs ys : List Int} (same : pad (x :: xs) = pad (y :: ys)) :
    x = y ∧ pad xs = pad ys :=
  ⟨congrFun same 0, funext fun i => congrFun same (i + 1)⟩

/-- Padding like nothing is being all zeros. -/
theorem pad_eq_nil {xs : List Int} : pad xs = pad [] ↔ ∀ x ∈ xs, x = 0 := by
  constructor
  · intro same x member
    obtain ⟨i, inside, rfl⟩ := List.mem_iff_getElem.mp member
    have here := congrFun same i
    rwa [pad_apply, List.getD_eq_getElem _ _ inside] at here
  · intro zeros
    funext i
    show xs.getD i 0 = 0
    by_cases inside : i < xs.length
    · rw [List.getD_eq_getElem _ _ inside]
      exact zeros _ (List.getElem_mem inside)
    · exact List.getD_eq_default _ _ (by omega)

/-- Lists that are padded alike have any number but zero equally often. -/
theorem count_of_pad_eq {xs ys : List Int} (same : pad xs = pad ys) {a : Int} (nonzero : a ≠ 0) :
    xs.count a = ys.count a := by
  have zeros : ∀ zs : List Int, pad zs = pad [] → zs.count a = 0 := by
    intro zs alike
    refine List.count_eq_zero.mpr fun member => nonzero ?_
    exact pad_eq_nil.mp alike a member
  induction xs generalizing ys with
  | nil => rw [zeros ys same.symm, List.count_nil]
  | cons x xs ih =>
      cases ys with
      | nil => rw [zeros _ same, List.count_nil]
      | cons y ys =>
          obtain ⟨rfl, rest⟩ := pad_tail same
          rw [List.count_cons, List.count_cons, ih rest]

/-- What comes behind a list is zeros, if it makes no difference. -/
theorem pad_append {xs ys : List Int} : pad (xs ++ ys) = pad xs ↔ ∀ y ∈ ys, y = 0 := by
  induction xs with
  | nil => exact pad_eq_nil
  | cons x xs ih =>
      rw [← ih]
      constructor
      · exact fun same => (pad_tail same).2
      · intro same
        funext i
        cases i with
        | zero => rfl
        | succ i => exact congrFun same i

end Padded
