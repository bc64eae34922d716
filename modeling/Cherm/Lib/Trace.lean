/-
**The requests a task has made, amid what the others do.**

`Prog.Along` is a run of one program seen from its requests: each is made in some store and leaves
another, and nothing is said about what happens in between. It can be taken apart along the program:
`along_done`, `along_ask`, `along_bind`.
-/

import Cherm.Lib.Prog

namespace Prog

variable {σ Q ε α β : Type} {A : Q → Type}

/-- One request: the store it was made in, the answer, and the store it left. -/
structure Event (σ Q : Type) (A : Q → Type) where
  request : Q
  before : σ
  answer : A request
  after : σ

/-- A program has made these requests, and goes on as another. -/
inductive Along (step : Step σ Q A) : Prog Q A ε α → List (Event σ Q A) → Prog Q A ε α → Prop where
  | here (p : Prog Q A ε α) : Along step p [] p
  | ask {request : Q} {next : A request → Prog Q A ε α} {s s' : σ} {answer : A request}
      {events : List (Event σ Q A)} {p : Prog Q A ε α} (made : step request s answer s')
      (rest : Along step (next answer) events p) :
      Along step (.ask request next) (⟨request, s, answer, s'⟩ :: events) p

variable {step : Step σ Q A}

theorem Along.mono {step' : Step σ Q A} {p q : Prog Q A ε α} {events : List (Event σ Q A)}
    (weaker : ∀ request s answer s', step request s answer s' → step' request s answer s')
    (along : Along step p events q) : Along step' p events q := by
  induction along with
  | here p => exact .here p
  | ask made _ ih => exact .ask (weaker _ _ _ _ made) ih

theorem along_done {value : α} {events : List (Event σ Q A)} {p : Prog Q A ε α}
    (along : Along step (.done value) events p) : events = [] ∧ p = .done value := by
  cases along
  exact ⟨rfl, rfl⟩

/-- A program that has come to its end has made its first request. -/
theorem along_ask {request : Q} {next : A request → Prog Q A ε α} {events : List (Event σ Q A)}
    {value : α}
    (along : Along step (.ask request next) events (.done value)) :
    ∃ s answer s' rest, events = ⟨request, s, answer, s'⟩ :: rest ∧ step request s answer s' ∧
      Along step (next answer) rest (.done value) := by
  cases along with
  | ask made rest => exact ⟨_, _, _, _, rfl, made, rest⟩

/-- The requests of a sequence are those of its parts. -/
theorem along_bind {p : Prog Q A ε α} {f : α → Prog Q A ε β} {events : List (Event σ Q A)}
    {value : β}
    (along : Along step (p.bind f) events (.done value)) :
    ∃ mid front back, events = front ++ back ∧ Along step p front (.done mid) ∧
      Along step (f mid) back (.done value) := by
  induction p generalizing events with
  | done mid => exact ⟨mid, [], events, rfl, .here _, along⟩
  | fail error => cases along
  | ask request next ih =>
      obtain ⟨s, answer, s', rest, rfl, made, later⟩ := along_ask along
      obtain ⟨mid, front, back, rfl, first, second⟩ := ih answer later
      exact ⟨mid, _ :: front, back, rfl, .ask made first, second⟩

end Prog
