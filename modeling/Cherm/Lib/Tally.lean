/-
**Counting holders by key.**

A table counts who holds something of each key, and has no row for a key that nobody holds.

* `Counts.gain`, `Counts.lose`: one more holder, and one less.
-/

import Cherm.Lib.Table

/-- A row for each key that has a holder, with their number. -/
def Counts {κ : Type} [DecidableEq κ] (table : Table κ Nat) (holders : List κ) : Prop :=
  ∀ key, table.get key = if holders.count key = 0 then none else some (holders.count key)

namespace Counts

variable {κ : Type} [DecidableEq κ] {table : Table κ Nat} {holders others : List κ} {key : κ}

theorem empty : Counts (∅ : Table κ Nat) [] := fun key => Table.get_empty key

theorem perm (counts : Counts table holders) (same : others.Perm holders) : Counts table others :=
  fun key => by rw [counts key, same.count_eq key]

theorem getD_eq (counts : Counts table holders) (key : κ) :
    (table.get key).getD 0 = holders.count key := by
  rw [counts key]
  split
  · next zero => exact zero.symm
  · rfl

theorem of_get {table' : Table κ Nat} (counts : Counts table holders)
    (same : ∀ key, table'.get key = table.get key) : Counts table' holders := fun key => by
  rw [same key, counts key]

/-- A count that is written again. -/
theorem put_same (counts : Counts table holders) (held : holders.count key ≠ 0) :
    Counts (table.put key (holders.count key)) holders := by
  refine counts.of_get fun other => ?_
  rw [Table.get_put]
  split
  · next same => rw [same, counts key, if_neg held]
  · rfl

/-- **One more holder.** -/
theorem gain (counts : Counts table holders) :
    Counts (table.put key (holders.count key + 1)) (key :: holders) := by
  intro other
  rw [Table.get_put]
  split
  · next same =>
    subst same
    rw [List.count_cons_self, if_neg (Nat.succ_ne_zero _)]
  · next different =>
    rw [List.count_cons_of_ne (Ne.symm different)]
    exact counts other

/-- **One holder less.** -/
theorem lose (counts : Counts table (key :: holders)) :
    table.get key = some (holders.count key + 1) ∧
      Counts (if holders.count key = 0 then table.erase key
        else table.put key (holders.count key)) holders := by
  have elsewhere : ∀ other, other ≠ key → table.get other =
      if holders.count other = 0 then none else some (holders.count other) := by
    intro other different
    have count := counts other
    rwa [List.count_cons_of_ne (Ne.symm different)] at count
  refine ⟨?_, fun other => ?_⟩
  · rw [counts key, List.count_cons_self, if_neg (Nat.succ_ne_zero _)]
  · by_cases same : other = key
    · subst same
      split
      · rw [Table.get_erase, if_pos rfl]
      · rw [Table.get_put, if_pos rfl]
    · rw [← elsewhere other same]
      split
      · rw [Table.get_erase, if_neg same]
      · rw [Table.get_put, if_neg same]

end Counts
