/-
**Steps that may fail and keep what they have done.**

An attempt takes a state to a result or an error, and to the state it leaves in either case.
`bind_ok`, `lift_ok` and `check_ok` take apart a sequence of attempts that has come to a result,
`bind_cases` any sequence. `Keeps`: an invariant holds of what is left, whatever comes of the attempt.
-/

import Mathlib.Tactic.Common

/-- A step on states of type `σ` that gives an `α` or fails with an `ε`. -/
def Attempt (σ ε α : Type) := σ → Except ε α × σ

namespace Attempt

variable {σ ε α β : Type}

instance : Monad (Attempt σ ε) where
  pure value := fun s => (.ok value, s)
  bind first next := fun s => match first s with
    | (.ok value, s) => next value s
    | (.error e, s) => (.error e, s)

def fail (error : ε) : Attempt σ ε α := fun s => (.error error, s)

/-- A result that was computed. -/
def lift (result : Except ε α) : Attempt σ ε α := fun s => (result, s)

def modify (change : σ → σ) : Attempt σ ε Unit := fun s => (.ok (), change s)

/-- Fail unless a condition holds. -/
def check (condition : Bool) (error : ε) : Attempt σ ε Unit :=
  if condition then pure () else fail error

/-- Name the error of an attempt otherwise. -/
def mapError {ε' : Type} (rename : ε → ε') (attempt : Attempt σ ε α) : Attempt σ ε' α := fun s =>
  match attempt s with
  | (.ok value, s) => (.ok value, s)
  | (.error e, s) => (.error (rename e), s)

/-- Go on with the error as a value. -/
def caught (attempt : Attempt σ ε α) : Attempt σ ε (Except ε α) := fun s =>
  (.ok (attempt s).1, (attempt s).2)

variable {s s' : σ} {value : β}

theorem pure_ok {result : β} :
    (pure result : Attempt σ ε β) s = (.ok value, s') ↔ result = value ∧ s = s' := by
  show (Except.ok result, s) = _ ↔ _
  rw [Prod.mk.injEq, Except.ok.injEq]

theorem bind_ok {first : Attempt σ ε α} {next : α → Attempt σ ε β} :
    (first >>= next) s = (.ok value, s') ↔
      ∃ result mid, first s = (.ok result, mid) ∧ next result mid = (.ok value, s') := by
  show (match first s with
    | (.ok result, mid) => next result mid
    | (.error e, mid) => (.error e, mid)) = _ ↔ _
  constructor
  · intro ran
    split at ran
    · next result mid is => exact ⟨result, mid, is, ran⟩
    · cases ran
  · rintro ⟨result, mid, is, ran⟩
    rw [is]
    exact ran

theorem bind_of_ok {first : Attempt σ ε α} {next : α → Attempt σ ε β} {result : α} {mid : σ}
    (ran : first s = (.ok result, mid)) : (first >>= next) s = next result mid := by
  show (match first s with
    | (.ok result, mid) => next result mid
    | (.error e, mid) => (.error e, mid)) = _
  rw [ran]

theorem bind_of_error {first : Attempt σ ε α} {next : α → Attempt σ ε β} {error : ε} {mid : σ}
    (ran : first s = (.error error, mid)) : (first >>= next) s = (.error error, mid) := by
  show (match first s with
    | (.ok result, mid) => next result mid
    | (.error e, mid) => (.error e, mid)) = _
  rw [ran]

/-- Sequences that begin alike go on alike. -/
theorem bind_congr {first first' : Attempt σ ε α} {next : α → Attempt σ ε β} {t : σ}
    (same : first s = first' t) : (first >>= next) s = (first' >>= next) t := by
  show (match first s with
    | (.ok result, mid) => next result mid
    | (.error e, mid) => (.error e, mid)) = _
  rw [same]
  rfl

/-- What holds of a sequence, by how its first step ends. -/
theorem bind_cases {first : Attempt σ ε α} {next : α → Attempt σ ε β} {P : Except ε β × σ → Prop}
    (fails : ∀ e mid, first s = (.error e, mid) → P (.error e, mid))
    (goes : ∀ result mid, first s = (.ok result, mid) → P (next result mid)) :
    P ((first >>= next) s) := by
  rcases ran : first s with ⟨result, mid⟩
  cases result with
  | error e => exact bind_of_error ran ▸ fails e mid ran
  | ok result => exact bind_of_ok ran ▸ goes result mid ran

theorem lift_ok {result : Except ε β} :
    (lift result : Attempt σ ε β) s = (.ok value, s') ↔ result = .ok value ∧ s = s' := by
  rw [lift, Prod.mk.injEq]

theorem check_ok {condition : Bool} {error : ε} {done : Unit} :
    (check condition error : Attempt σ ε Unit) s = (.ok done, s') ↔ condition = true ∧ s = s' := by
  unfold check
  cases condition with
  | true =>
      rw [if_pos rfl, pure_ok]
      simp
  | false =>
      rw [if_neg (by decide)]
      simp [fail]

theorem lift_of_ok {result : Except ε β} (is : result = .ok value) :
    (lift result : Attempt σ ε β) s = (.ok value, s) := lift_ok.mpr ⟨is, rfl⟩

theorem check_of_true {condition : Bool} {error : ε} (holds : condition = true) :
    (check condition error : Attempt σ ε Unit) s = (.ok (), s) := check_ok.mpr ⟨holds, rfl⟩

theorem mapError_ok {ε' : Type} {rename : ε → ε'} {attempt : Attempt σ ε β} :
    mapError rename attempt s = (.ok value, s') ↔ attempt s = (.ok value, s') := by
  unfold mapError
  split
  · next is => rw [is]; simp
  · next is => rw [is]; simp

theorem modify_bind {change : σ → σ} {next : Unit → Attempt σ ε β} :
    (modify change >>= next) s = next () (change s) := rfl

theorem check_state {condition : Bool} {error : ε} :
    (check condition error s : Except ε Unit × σ).2 = s := by
  unfold check
  split
  · rfl
  · rfl

theorem mapError_apply {ε' : Type} {rename : ε → ε'} {attempt : Attempt σ ε β} :
    mapError rename attempt s = ((attempt s).1.mapError rename, (attempt s).2) := by
  unfold mapError
  split
  · next is => rw [is]; rfl
  · next is => rw [is]; rfl

/-! ### Invariants -/

/-- The attempt keeps an invariant, whatever comes of it. -/
def Keeps (inv : σ → Prop) (attempt : Attempt σ ε α) : Prop := ∀ s, inv s → inv (attempt s).2

variable {inv : σ → Prop}

theorem keeps_pure (result : α) : Keeps inv (pure result : Attempt σ ε α) := fun _ holds => holds

theorem keeps_lift (result : Except ε α) : Keeps inv (lift result) := fun _ holds => holds

theorem keeps_modify {change : σ → σ} (kept : ∀ s, inv s → inv (change s)) :
    Keeps inv (modify change : Attempt σ ε Unit) := kept

theorem Keeps.bind {first : Attempt σ ε α} {next : α → Attempt σ ε β} (before : Keeps inv first)
    (after : ∀ result, Keeps inv (next result)) : Keeps inv (first >>= next) := by
  intro s holds
  refine bind_cases (P := fun ran => inv ran.2) (fun e mid ran => ?_) fun result mid ran => ?_
  · simpa only [ran] using before s holds
  · exact after result mid (by simpa only [ran] using before s holds)

end Attempt
