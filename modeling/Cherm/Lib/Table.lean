/-
**Keyed tables: a finite map with one row for each key.**

The rows are an association list without repeated keys, so a table can be searched, listed and
computed with. `get_put` and `get_erase` are the whole interface of the proofs.
-/

import Mathlib.Data.List.AList

/-- One row of type `ρ` for each key of type `κ`. -/
abbrev Table (κ ρ : Type) := AList (fun _ : κ => ρ)

namespace Table

variable {κ ρ : Type} [DecidableEq κ]

/-- The row of a key. -/
def get (table : Table κ ρ) (key : κ) : Option ρ := table.lookup key

/-- Insert a row, or replace the one the key has. -/
def put (table : Table κ ρ) (key : κ) (row : ρ) : Table κ ρ := table.insert key row

/-- Delete the row of a key. -/
def erase (table : Table κ ρ) (key : κ) : Table κ ρ := AList.erase key table

/-- All rows with their keys. -/
def rows (table : Table κ ρ) : List (κ × ρ) := table.entries.map fun entry => (entry.1, entry.2)

/-- Delete the rows whose key satisfies a test. -/
def eraseWhere (table : Table κ ρ) (test : κ → Bool) : Table κ ρ :=
  (table.keys.filter test).foldl erase table

@[simp] theorem get_empty (key : κ) : (∅ : Table κ ρ).get key = none := AList.lookup_empty key

@[simp] theorem get_put (table : Table κ ρ) (key other : κ) (row : ρ) :
    (table.put key row).get other = if other = key then some row else table.get other := by
  unfold get put
  split
  · next same => rw [same, AList.lookup_insert]
  · next different => rw [AList.lookup_insert_ne different]

@[simp] theorem get_erase (table : Table κ ρ) (key other : κ) :
    (table.erase key).get other = if other = key then none else table.get other := by
  unfold get erase
  split
  · next same => rw [same, AList.lookup_erase]
  · next different => rw [AList.lookup_erase_ne different]

theorem get_foldl_erase (keys : List κ) (table : Table κ ρ) (key : κ) :
    get (keys.foldl erase table) key = if key ∈ keys then none else table.get key := by
  induction keys generalizing table with
  | nil => rfl
  | cons first rest ih =>
      rw [List.foldl_cons, ih, get_erase]
      by_cases inRest : key ∈ rest
      · rw [if_pos inRest, if_pos (List.mem_cons_of_mem first inRest)]
      · by_cases same : key = first
        · rw [if_neg inRest, if_pos same, if_pos (same ▸ List.mem_cons_self)]
        · rw [if_neg inRest, if_neg same, if_neg]
          exact fun member => (List.mem_cons.mp member).elim same inRest

@[simp] theorem get_eraseWhere (table : Table κ ρ) (test : κ → Bool) (key : κ) :
    (table.eraseWhere test).get key = if test key then none else table.get key := by
  rw [eraseWhere, get_foldl_erase]
  by_cases passes : test key = true
  · rw [if_pos passes]
    by_cases member : key ∈ table.keys
    · rw [if_pos (List.mem_filter.mpr ⟨member, passes⟩)]
    · rw [if_neg fun inFilter => member (List.mem_filter.mp inFilter).1]
      exact AList.lookup_eq_none.mpr member
  · rw [if_neg passes, if_neg fun inFilter => passes (List.mem_filter.mp inFilter).2]

theorem mem_rows {table : Table κ ρ} {key : κ} {row : ρ} :
    (key, row) ∈ table.rows ↔ table.get key = some row := by
  unfold rows get
  rw [← Option.mem_def, AList.mem_lookup_iff, List.mem_map]
  constructor
  · rintro ⟨⟨k, r⟩, member, same⟩
    cases same
    exact member
  · exact fun member => ⟨⟨key, row⟩, member, rfl⟩

end Table
