/-
**Two programs that keep pace with each other.**

A `Coupling` says which requests of two programs correspond, and which answers to corresponding
requests do. Two programs are twins if they make corresponding requests as long as they get
corresponding answers, and end with results that are related.

* `Twin.bind` is how proofs about twins compose.
* A request is plain if it corresponds to itself and its answers to themselves alone
  (`Twin.ask_plain`).
-/

import Cherm.Lib.Prog

/-- Which requests correspond, and which answers to two requests do. -/
structure Coupling (Q : Type) (A : Q → Type) where
  asks : Q → Q → Prop
  answers : (request request' : Q) → A request → A request' → Prop

/-- The request corresponds to itself, and every answer to itself alone. -/
def Coupling.Plain {Q : Type} {A : Q → Type} (C : Coupling Q A) (request : Q) : Prop :=
  C.asks request request ∧ ∀ answer answer', C.answers request request answer answer' →
    answer' = answer

namespace Prog

variable {Q ε α β : Type} {A : Q → Type} {C : Coupling Q A}

/-- Two programs in lockstep. -/
inductive Twin (C : Coupling Q A) (R : α → α → Prop) : Prog Q A ε α → Prog Q A ε α → Prop where
  | done {value value' : α} (related : R value value') : Twin C R (.done value) (.done value')
  | fail (error : ε) : Twin C R (.fail error) (.fail error)
  | ask {request request' : Q} {next : A request → Prog Q A ε α}
      {next' : A request' → Prog Q A ε α} (asks : C.asks request request')
      (rest : ∀ answer answer', C.answers request request' answer answer' →
        Twin C R (next answer) (next' answer')) :
      Twin C R (.ask request next) (.ask request' next')

variable {R : α → α → Prop} {S : β → β → Prop}

theorem Twin.bind {p p' : Prog Q A ε α} {f f' : α → Prog Q A ε β} (first : Twin C R p p')
    (second : ∀ value value', R value value' → Twin C S (f value) (f' value')) :
    Twin C S (p.bind f) (p'.bind f') := by
  induction first with
  | done related => exact second _ _ related
  | fail error => exact .fail error
  | ask asks _ ih => exact .ask asks ih

/-- An outcome that is handed over is the same, if results are related only to themselves. -/
theorem Twin.attempt {p p' : Prog Q A ε α} (twins : Twin C (· = ·) p p') :
    Twin C (· = ·) p.attempt p'.attempt := by
  induction twins with
  | done related => exact .done (congrArg Except.ok related)
  | fail error => exact .done rfl
  | ask asks _ ih => exact .ask asks ih

theorem Twin.ask_plain {request : Q} (plain : C.Plain request)
    {next next' : A request → Prog Q A ε α} (rest : ∀ answer, Twin C R (next answer) (next' answer)) :
    Twin C R (.ask request next) (.ask request next') := by
  refine .ask plain.1 fun answer answer' same => ?_
  rw [plain.2 answer answer' same]
  exact rest answer

end Prog
