/-
**Runs of a step function, with a condition on every step.**

A system that takes its inputs one after the other is a function `step`; a run of it is a list of
inputs. `Each` says that every input of a run meets a condition on the state it finds.

* `Each.keeps`: what one step preserves under the condition, a whole run preserves.
* `each_iff`: where the condition decides whether one step preserves it, it decides so for the run.
* `each_congr`: conditions that agree on the states of a run.
-/

import Mathlib.Data.List.Basic

namespace Steps

variable {ι σ : Type} (step : ι → σ → σ)

/-- The state after a run. -/
def run (inputs : List ι) (s : σ) : σ := inputs.foldl (fun s input => step input s) s

/-- Every input of a run meets a condition on the state it finds. -/
def Each (good : ι → σ → Prop) : List ι → σ → Prop
  | [], _ => True
  | input :: rest, s => good input s ∧ Each good rest (step input s)

instance Each.decidable {good : ι → σ → Prop} [∀ input s, Decidable (good input s)] :
    (inputs : List ι) → (s : σ) → Decidable (Each step good inputs s)
  | [], _ => .isTrue trivial
  | input :: rest, s =>
      have : Decidable (Each step good rest (step input s)) := Each.decidable rest (step input s)
      inferInstanceAs (Decidable (good input s ∧ Each step good rest (step input s)))

variable {step} {good : ι → σ → Prop} {inv : σ → Prop} {inputs : List ι} {s : σ}

theorem Each.mono {weaker : ι → σ → Prop} (weaken : ∀ input s, good input s → weaker input s)
    (each : Each step good inputs s) : Each step weaker inputs s := by
  induction inputs generalizing s with
  | nil => trivial
  | cons input rest ih => exact ⟨weaken _ _ each.1, ih each.2⟩

theorem Each.and {other : ι → σ → Prop} (each : Each step good inputs s)
    (others : Each step other inputs s) :
    Each step (fun input s => good input s ∧ other input s) inputs s := by
  induction inputs generalizing s with
  | nil => trivial
  | cons input rest ih => exact ⟨⟨each.1, others.1⟩, ih each.2 others.2⟩

theorem run_append {others : List ι} :
    run step (inputs ++ others) s = run step others (run step inputs s) := List.foldl_append

theorem each_append {others : List ι} : Each step good (inputs ++ others) s ↔
    Each step good inputs s ∧ Each step good others (run step inputs s) := by
  induction inputs generalizing s with
  | nil => exact (and_iff_right trivial).symm
  | cons input rest ih =>
      rw [List.cons_append, Each, ih, Each, and_assoc]
      rfl

/-- **An invariant of the steps that meet the condition** holds before and after every step. -/
theorem Each.keeps (kept : ∀ input s, inv s → good input s → inv (step input s))
    (each : Each step good inputs s) (start : inv s) :
    Each step (fun input s => inv s ∧ good input s ∧ inv (step input s)) inputs s := by
  induction inputs generalizing s with
  | nil => trivial
  | cons input rest ih =>
      have after := kept input s start each.1
      exact ⟨⟨start, each.1, after⟩, ih each.2 after⟩

theorem each_of_all {allowed : ι → Prop} (all : ∀ input ∈ inputs, allowed input) :
    Each step (fun input _ => allowed input) inputs s := by
  induction inputs generalizing s with
  | nil => trivial
  | cons input rest ih =>
      obtain ⟨here, others⟩ := List.forall_mem_cons.mp all
      exact ⟨here, ih others⟩

theorem Each.run (kept : ∀ input s, inv s → good input s → inv (step input s))
    (each : Each step good inputs s) (start : inv s) : inv (Steps.run step inputs s) := by
  induction inputs generalizing s with
  | nil => exact start
  | cons input rest ih => exact ih each.2 (kept input s start each.1)

theorem run_keeps (kept : ∀ input s, inv s → inv (step input s)) (start : inv s) :
    inv (Steps.run step inputs s) := by
  induction inputs generalizing s with
  | nil => exact start
  | cons input rest ih => exact ih (kept input s start)

/-- Two conditions that agree wherever a run can be agree on the run. -/
theorem each_congr {first second : ι → σ → Prop}
    (kept : ∀ input s, inv s → good input s → inv (step input s))
    (same : ∀ input s, inv s → good input s → (first input s ↔ second input s))
    (each : Each step good inputs s) (start : inv s) :
    Each step first inputs s ↔ Each step second inputs s := by
  induction inputs generalizing s with
  | nil => exact Iff.rfl
  | cons input rest ih =>
      exact and_congr (same input s start each.1) (ih each.2 (kept input s start each.1))

/-- A condition that decides about one step decides about a run. -/
theorem each_iff (decides : ∀ input s, inv s → (inv (step input s) ↔ good input s))
    (start : inv s) :
    Each step (fun input s => inv (step input s)) inputs s ↔ Each step good inputs s := by
  induction inputs generalizing s with
  | nil => exact Iff.rfl
  | cons input rest ih =>
      constructor
      · rintro ⟨after, states⟩
        exact ⟨(decides input s start).mp after, (ih after).mp states⟩
      · rintro ⟨meets, others⟩
        have after := (decides input s start).mpr meets
        exact ⟨after, (ih after).mpr others⟩

end Steps
