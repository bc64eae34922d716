/-
**Sequences of checks that can fail.**

A validator is an `Except` computation that stops at its first failed check. Each rule says what the
success of one combinator means, so that the success of a whole validator can be read off:
`bind_eq_ok_iff`, `bailIf_eq_ok_iff`, `context_eq_ok_iff`, `okOr_eq_ok_iff` for the steps,
`forM_eq_ok_iff` and `mapM_eq_ok_iff` for the loops.
-/

import Mathlib.Data.List.Forall2

namespace Except

variable {ε α β : Type}

/-- Stop with an error if a condition holds. -/
def bailIf (condition : Prop) [Decidable condition] (cause : ε) : Except ε Unit :=
  if condition then .error cause else .ok ()

/-- The same computation, its error put in context. -/
def context (value : Except ε α) (wrap : ε → ε) : Except ε α :=
  match value with
  | .ok value => .ok value
  | .error cause => .error (wrap cause)

/-- The value of an option, or an error. -/
def okOr (value : Option α) (cause : ε) : Except ε α :=
  match value with
  | some value => .ok value
  | none => .error cause

theorem bind_eq_ok_iff {value : Except ε α} {next : α → Except ε β} {result : β} :
    (value >>= next) = .ok result ↔ ∃ mid, value = .ok mid ∧ next mid = .ok result := by
  cases value with
  | error cause => exact ⟨nofun, fun ⟨_, failed, _⟩ => nomatch failed⟩
  | ok mid => exact ⟨fun same => ⟨mid, rfl, same⟩, fun ⟨_, same, ends⟩ => by cases same; exact ends⟩

@[simp] theorem pure_eq_ok_iff {value result : α} :
    (pure value : Except ε α) = .ok result ↔ value = result :=
  ⟨Except.ok.inj, congrArg _⟩

@[simp] theorem bailIf_eq_ok_iff {condition : Prop} [Decidable condition] {cause : ε} {u : Unit} :
    bailIf condition cause = .ok u ↔ ¬ condition := by
  unfold bailIf
  split <;> simp_all

@[simp] theorem context_eq_ok_iff {value : Except ε α} {wrap : ε → ε} {result : α} :
    value.context wrap = .ok result ↔ value = .ok result := by
  cases value <;> simp [context]

@[simp] theorem okOr_eq_ok_iff {value : Option α} {cause : ε} {result : α} :
    okOr value cause = .ok result ↔ value = some result := by
  cases value <;> simp [okOr]

/-- A loop of checks passes if every check does. -/
theorem forM_eq_ok_iff {items : List α} {check : α → Except ε Unit} {u : Unit} :
    items.forM check = .ok u ↔ ∀ item ∈ items, check item = .ok u := by
  induction items with
  | nil => exact ⟨fun _ => nofun, fun _ => rfl⟩
  | cons first rest ih =>
      show (check first >>= fun _ => rest.forM check) = .ok u ↔ _
      rw [bind_eq_ok_iff, List.forall_mem_cons]
      constructor
      · rintro ⟨⟨⟩, passed, later⟩
        exact ⟨passed, ih.mp later⟩
      · rintro ⟨passed, later⟩
        exact ⟨u, passed, ih.mpr later⟩

/-- A loop that parses its items succeeds if every item is parsed. -/
theorem mapM_eq_ok_iff {items : List α} {parse : α → Except ε β} {results : List β} :
    items.mapM parse = .ok results ↔
      List.Forall₂ (fun item result => parse item = .ok result) items results := by
  induction items generalizing results with
  | nil =>
      rw [List.mapM_nil, List.forall₂_nil_left_iff]
      exact ⟨fun same => by cases same; rfl, fun same => by rw [same]; rfl⟩
  | cons first rest ih =>
      rw [List.mapM_cons, bind_eq_ok_iff]
      constructor
      · rintro ⟨result, parsed, later⟩
        obtain ⟨others, parsedRest, ends⟩ := bind_eq_ok_iff.mp later
        cases ends
        exact .cons parsed (ih.mp parsedRest)
      · intro all
        cases all with
        | cons parsed parsedRest =>
            exact ⟨_, parsed, bind_eq_ok_iff.mpr ⟨_, ih.mpr parsedRest, rfl⟩⟩

/-- What is parsed from a list with a last item has a last item. -/
theorem forall₂_concat {R : α → β → Prop} {items : List α} {last : α} {results : List β}
    (parsed : List.Forall₂ R (items ++ [last]) results) :
    ∃ front back, results = front ++ [back] ∧ List.Forall₂ R items front ∧ R last back := by
  induction items generalizing results with
  | nil =>
      cases parsed with
      | cons here rest =>
          cases rest
          exact ⟨[], _, rfl, .nil, here⟩
  | cons first rest ih =>
      cases parsed with
      | cons here later =>
          obtain ⟨front, back, rfl, parsedRest, parsedLast⟩ := ih later
          exact ⟨_ :: front, back, rfl, .cons here parsedRest, parsedLast⟩

end Except
