/-
**Programs that make requests, what the requests do to a store, and the rules that verify them.**

A task of a concurrent system is a sequence of requests (`Prog.ask`): it enters a critical section
of a store, or it asks the outside world for the time, a random number, the answer of a remote
party. An early return with an error is `Prog.fail`. What a request does is not part of the program:
a `Step` says how it may be answered and what it may leave in the store. One program is thus read
against the concrete store, or against a ghost store that keeps only what an argument needs.

* `Prog.Runs` is a whole run, `Prog.Moves` one request of it; `run` plays a program on a machine
  that answers by a function (`run_runs`).
* `Prog.wp` is the weakest precondition for a `Spec`, which adds to a `Step` what must hold whenever
  a request is made. `Runs.ends` is its soundness, `wp_moves` its step lemma; `wp_bind`, `wp_mono`,
  `wp_conseq` and `wp_and` are how proofs about a program compose.
* `Prog.Keeps` is the special case of an invariant of the store, `Prog.Calls` the one of a property
  of the requests alone.
* `Served` is a task that handles one input after the other; `served_wp` is its run rule, and
  `served_demands` what follows for its steps.
-/

import Mathlib.Data.List.Basic
import Mathlib.Logic.Relation
import Mathlib.Tactic.Common

/-- A sequential program that may make a request `q : Q`, answered in `A q`. -/
inductive Prog (Q : Type) (A : Q → Type) (ε : Type) (α : Type) : Type where
  | done (value : α)
  | fail (error : ε)
  | ask (request : Q) (next : A request → Prog Q A ε α)

namespace Prog

variable {σ Q ε α β γ : Type} {A : Q → Type}

/-- Run `p`, then `f` on what it returned; an error of `p` ends both. -/
def bind : Prog Q A ε α → (α → Prog Q A ε β) → Prog Q A ε β
  | done value, f => f value
  | fail error, _ => fail error
  | ask request next, f => ask request fun answer => (next answer).bind f

instance : Monad (Prog Q A ε) where
  pure := done
  bind := bind

/-- Run `p` and hand its outcome over as a value, so that an error of `p` does not end the rest. -/
def attempt : Prog Q A ε α → Prog Q A ε (Except ε α)
  | done value => done (.ok value)
  | fail error => done (.error error)
  | ask request next => ask request fun answer => (next answer).attempt

/-- One request. -/
def query (request : Q) : Prog Q A ε (A request) := ask request done

/-- A value or an early return with an error. -/
def ofExcept : Except ε α → Prog Q A ε α
  | .ok value => done value
  | .error error => fail error

/-- The body for each element, in order. -/
def forEach (xs : List β) (body : β → Prog Q A ε Unit) : Prog Q A ε Unit :=
  match xs with
  | [] => done ()
  | x :: rest => (body x).bind fun _ => forEach rest body

@[simp] theorem pure_eq (value : α) : (pure value : Prog Q A ε α) = done value := rfl

@[simp] theorem bind_eq (p : Prog Q A ε α) (f : α → Prog Q A ε β) : p >>= f = p.bind f := rfl

@[simp] theorem done_bind (value : α) (f : α → Prog Q A ε β) : (done value).bind f = f value := rfl

@[simp] theorem fail_bind (error : ε) (f : α → Prog Q A ε β) :
    (fail error : Prog Q A ε α).bind f = fail error := rfl

@[simp] theorem ask_bind (request : Q) (next : A request → Prog Q A ε α) (f : α → Prog Q A ε β) :
    (ask request next).bind f = ask request fun answer => (next answer).bind f := rfl

@[simp] theorem bind_assoc (p : Prog Q A ε α) (f : α → Prog Q A ε β) (g : β → Prog Q A ε γ) :
    (p.bind f).bind g = p.bind fun value => (f value).bind g := by
  induction p with
  | done value => rfl
  | fail error => rfl
  | ask request next ih => exact congrArg (ask request) (funext ih)

@[simp] theorem ofExcept_ok (value : α) : (ofExcept (.ok value) : Prog Q A ε α) = done value := rfl

@[simp] theorem ofExcept_error (error : ε) :
    (ofExcept (.error error) : Prog Q A ε α) = fail error := rfl

@[simp] theorem forEach_nil (body : β → Prog Q A ε Unit) : forEach [] body = done () := rfl

theorem forEach_cons (x : β) (rest : List β) (body : β → Prog Q A ε Unit) :
    forEach (x :: rest) body = (body x).bind fun _ => forEach rest body := rfl

/-! ### What requests do -/

/-- How a request may be answered on a store, and what it may leave. -/
abbrev Step (σ Q : Type) (A : Q → Type) := (request : Q) → σ → A request → σ → Prop

/-- A whole run of a program. -/
inductive Runs (step : Step σ Q A) : Prog Q A ε α → σ → Except ε α → σ → Prop where
  | done (value : α) (s : σ) : Runs step (done value) s (.ok value) s
  | fail (error : ε) (s : σ) : Runs step (fail error) s (.error error) s
  | ask {request : Q} {next : A request → Prog Q A ε α} {s s' s'' : σ} {answer : A request}
      {result : Except ε α} (made : step request s answer s')
      (rest : Runs step (next answer) s' result s'') : Runs step (ask request next) s result s''

/-- One request of a program. -/
inductive Moves (step : Step σ Q A) : Prog Q A ε α × σ → Prog Q A ε α × σ → Prop where
  | ask {request : Q} {next : A request → Prog Q A ε α} {s s' : σ} {answer : A request}
      (made : step request s answer s') : Moves step (ask request next, s) (next answer, s')

/-- A machine answers every request by a function of the store. -/
abbrev Machine (σ Q : Type) (A : Q → Type) := (request : Q) → σ → A request × σ

/-- Play a program on a machine. -/
def run (machine : Machine σ Q A) : Prog Q A ε α → σ → Except ε α × σ
  | done value, s => (.ok value, s)
  | fail error, s => (.error error, s)
  | ask request next, s =>
      run machine (next (machine request s).1) (machine request s).2

theorem run_bind (machine : Machine σ Q A) (p : Prog Q A ε α) (f : α → Prog Q A ε β) (s : σ) :
    run machine (p.bind f) s = match run machine p s with
      | (.ok value, s') => run machine (f value) s'
      | (.error error, s') => (.error error, s') := by
  induction p generalizing s with
  | done value => rfl
  | fail error => rfl
  | ask request next ih => exact ih _ _

/-- What a machine plays is a run. -/
theorem run_runs {step : Step σ Q A} {machine : Machine σ Q A}
    (conforms : ∀ request s, step request s (machine request s).1 (machine request s).2)
    (p : Prog Q A ε α) (s : σ) : Runs step p s (run machine p s).1 (run machine p s).2 := by
  induction p generalizing s with
  | done value => exact .done value s
  | fail error => exact .fail error s
  | ask request next ih => exact .ask (conforms request s) (ih _ _)

/-- Every request that is played is a good one. -/
def checks (machine : Machine σ Q A) (good : Q → σ → Bool) : Prog Q A ε α → σ → Bool
  | ask request next, s =>
      good request s && checks machine good (next (machine request s).1) (machine request s).2
  | _, _ => true

/-- What a machine plays is a run of a step to which it conforms on the requests that it plays. -/
theorem run_runs_of_checks {step : Step σ Q A} {machine : Machine σ Q A} {good : Q → σ → Bool}
    (conforms : ∀ request s, good request s = true →
      step request s (machine request s).1 (machine request s).2)
    {p : Prog Q A ε α} {s : σ} (checked : checks machine good p s = true) :
    Runs step p s (run machine p s).1 (run machine p s).2 := by
  induction p generalizing s with
  | done value => exact .done value s
  | fail error => exact .fail error s
  | ask request next ih =>
      obtain ⟨here, later⟩ := Bool.and_eq_true_iff.mp checked
      exact .ask (conforms request s here) (ih _ later)

/-- Play that many requests, or as many as there are. -/
def advance (machine : Machine σ Q A) : Nat → Prog Q A ε α × σ → Prog Q A ε α × σ
  | 0, state => state
  | n + 1, (ask request next, s) =>
      advance machine n (next (machine request s).1, (machine request s).2)
  | _ + 1, state => state

theorem advance_moves {step : Step σ Q A} {machine : Machine σ Q A}
    (conforms : ∀ request s, step request s (machine request s).1 (machine request s).2) (n : Nat)
    (state : Prog Q A ε α × σ) :
    Relation.ReflTransGen (Moves step) state (advance machine n state) := by
  induction n generalizing state with
  | zero => exact .refl
  | succ n ih =>
      obtain ⟨p, s⟩ := state
      cases p with
      | done value => exact .refl
      | fail error => exact .refl
      | ask request next => exact .head (.ask (conforms request s)) (ih _)

/-- There is a request to make. -/
def isAsk : Prog Q A ε α → Bool
  | ask _ _ => true
  | _ => false

/-- Where there is one, playing on is one request more. -/
theorem advance_next {step : Step σ Q A} {machine : Machine σ Q A}
    (conforms : ∀ request s, step request s (machine request s).1 (machine request s).2) (n : Nat)
    (state : Prog Q A ε α × σ) (more : (advance machine n state).1.isAsk = true) :
    Moves step (advance machine n state) (advance machine (n + 1) state) := by
  induction n generalizing state with
  | zero =>
      obtain ⟨p, s⟩ := state
      cases p with
      | ask request next => exact .ask (conforms request s)
      | _ => cases more
  | succ n ih =>
      obtain ⟨p, s⟩ := state
      cases p with
      | ask request next => exact ih _ more
      | _ => cases more

attribute [irreducible] advance

theorem Runs.mono {step step' : Step σ Q A} {p : Prog Q A ε α} {s s' : σ} {result : Except ε α}
    (runs : Runs step p s result s')
    (weaken : ∀ request s answer s', step request s answer s' → step' request s answer s') :
    Runs step' p s result s' := by
  induction runs with
  | done value s => exact .done value s
  | fail error s => exact .fail error s
  | ask made rest ih => exact .ask (weaken _ _ _ _ made) ih

/-- A run is a sequence of single requests that ends in the result. -/
theorem Runs.moves {step : Step σ Q A} {p : Prog Q A ε α} {s s' : σ} {result : Except ε α}
    (runs : Runs step p s result s') :
    Relation.ReflTransGen (Moves step) (p, s) (ofExcept result, s') := by
  induction runs with
  | done value s => exact .refl
  | fail error s => exact .refl
  | ask made rest ih => exact .head (.ask made) ih

/-- A run that starts where some requests have led. -/
theorem Runs.after {step : Step σ Q A} {p p' : Prog Q A ε α} {s s' s'' : σ} {result : Except ε α}
    (moves : Relation.ReflTransGen (Moves step) (p, s) (p', s'))
    (runs : Runs step p' s' result s'') : Runs step p s result s'' := by
  generalize start : (p, s) = state at moves
  generalize stop : (p', s') = state' at moves
  induction moves using Relation.ReflTransGen.head_induction_on generalizing p s with
  | refl =>
      obtain ⟨rfl, rfl⟩ := Prod.mk.inj (start.trans stop.symm)
      exact runs
  | head moved rest ih =>
      subst start
      cases moved with
      | ask made => exact .ask made (ih rfl)

/-- A run of two programs is one of the first and, after a value, one of the second. -/
theorem runs_bind {step : Step σ Q A} {p : Prog Q A ε α} {f : α → Prog Q A ε β} {s s' : σ}
    {result : Except ε β} (runs : Runs step (p.bind f) s result s') :
    (∃ error, result = .error error ∧ Runs step p s (.error error) s') ∨
      ∃ value mid, Runs step p s (.ok value) mid ∧ Runs step (f value) mid result s' := by
  induction p generalizing s with
  | done value => exact .inr ⟨value, _, .done value _, runs⟩
  | fail error =>
      cases runs
      exact .inl ⟨error, rfl, .fail error _⟩
  | ask request next ih =>
      cases runs with
      | ask made rest =>
          rcases ih _ rest with ⟨error, same, first⟩ | ⟨value, mid, first, second⟩
          · exact .inl ⟨error, same, .ask made first⟩
          · exact .inr ⟨value, mid, .ask made first, second⟩

theorem runs_attempt {step : Step σ Q A} {p : Prog Q A ε α} {s s' : σ}
    {result : Except ε (Except ε α)} (runs : Runs step p.attempt s result s') :
    ∃ inner, result = .ok inner ∧ Runs step p s inner s' := by
  induction p generalizing s with
  | done value =>
      cases runs
      exact ⟨_, rfl, .done value _⟩
  | fail error =>
      cases runs
      exact ⟨_, rfl, .fail error _⟩
  | ask request next ih =>
      cases runs with
      | ask made rest =>
          obtain ⟨inner, same, first⟩ := ih _ rest
          exact ⟨inner, same, .ask made first⟩

/-- A request of `p` is one of `p` with something after it. -/
theorem Moves.bind {step : Step σ Q A} {state state' : Prog Q A ε α × σ}
    (moves : Moves step state state')
    (f : α → Prog Q A ε β) : Moves step (state.1.bind f, state.2) (state'.1.bind f, state'.2) := by
  cases moves with
  | ask made => exact .ask made

theorem Moves.attempt {step : Step σ Q A} {state state' : Prog Q A ε α × σ}
    (moves : Moves step state state') :
    Moves step (state.1.attempt, state.2) (state'.1.attempt, state'.2) := by
  cases moves with
  | ask made => exact .ask made

/-- After a run of the first of two programs it is the second one's turn. -/
theorem Runs.moves_bind {step : Step σ Q A} {p : Prog Q A ε α} {s s' : σ} {value : α}
    (runs : Runs step p s (.ok value) s') (f : α → Prog Q A ε β) :
    Relation.ReflTransGen (Moves step) (p.bind f, s) (f value, s') :=
  runs.moves.lift (fun state => (state.1.bind f, state.2)) fun _ _ moved => moved.bind f

/-! ### Specifications and weakest preconditions -/

/-- What must hold when a request is made, and what it may do then. -/
structure Spec (σ Q : Type) (A : Q → Type) where
  demand : Q → σ → Prop
  step : Step σ Q A

/-- From `s`, `p` makes requests only where they are allowed, and ends in `post`. -/
def wp (S : Spec σ Q A) (post : Except ε α → σ → Prop) : Prog Q A ε α → σ → Prop
  | done value, s => post (.ok value) s
  | fail error, s => post (.error error) s
  | ask request next, s => S.demand request s ∧
      ∀ answer s', S.step request s answer s' → wp S post (next answer) s'

/-- After the first of two programs: an error is the error of both, a value is for the second. -/
def andThen (mid : α → σ → Prop) (post : Except ε β → σ → Prop) : Except ε α → σ → Prop
  | .ok value, s => mid value s
  | .error error, s => post (.error error) s

@[simp] theorem andThen_ok (mid : α → σ → Prop) (post : Except ε β → σ → Prop) (value : α) (s : σ) :
    andThen mid post (.ok value) s ↔ mid value s := Iff.rfl

@[simp] theorem andThen_error (mid : α → σ → Prop) (post : Except ε β → σ → Prop) (error : ε)
    (s : σ) : andThen mid post (.error error : Except ε α) s ↔ post (.error error) s := Iff.rfl

variable {S : Spec σ Q A} {post : Except ε α → σ → Prop}

@[simp] theorem wp_done (value : α) (s : σ) :
    wp S post (done value) s ↔ post (.ok value) s := Iff.rfl

@[simp] theorem wp_fail (error : ε) (s : σ) :
    wp S post (fail error) s ↔ post (.error error) s := Iff.rfl

theorem wp_ask (request : Q) (next : A request → Prog Q A ε α) (s : σ) :
    wp S post (ask request next) s ↔ S.demand request s ∧
      ∀ answer s', S.step request s answer s' → wp S post (next answer) s' := Iff.rfl

/-- **Sequencing.** -/
theorem wp_bind (p : Prog Q A ε α) (f : α → Prog Q A ε β) (post : Except ε β → σ → Prop) (s : σ) :
    wp S post (p.bind f) s ↔ wp S (andThen (fun value => wp S post (f value)) post) p s := by
  induction p generalizing s with
  | done value => rfl
  | fail error => rfl
  | ask request next ih =>
      exact and_congr_right fun _ => forall₃_congr fun answer s' _ => ih answer s'

@[simp] theorem wp_attempt (p : Prog Q A ε α) (post : Except ε (Except ε α) → σ → Prop) (s : σ) :
    wp S post p.attempt s ↔ wp S (fun result s' => post (.ok result) s') p s := by
  induction p generalizing s with
  | done value => rfl
  | fail error => rfl
  | ask request next ih =>
      exact and_congr_right fun _ => forall₃_congr fun answer s' _ => ih answer s'

@[simp] theorem wp_ofExcept (value : Except ε α) (s : σ) :
    wp S post (ofExcept value) s ↔ post value s := by
  cases value <;> rfl

/-- **Consequence**: a weaker post-condition, and a specification that demands less and promises
more. -/
theorem wp_conseq {T : Spec σ Q A} {weaker : Except ε α → σ → Prop}
    (demands : ∀ request s, S.demand request s → T.demand request s)
    (promises : ∀ request s answer s', T.step request s answer s' → S.step request s answer s')
    (weaken : ∀ result s', post result s' → weaker result s') {p : Prog Q A ε α} {s : σ}
    (holds : wp S post p s) : wp T weaker p s := by
  induction p generalizing s with
  | done value => exact weaken _ _ holds
  | fail error => exact weaken _ _ holds
  | ask request next ih =>
      exact ⟨demands _ _ holds.1, fun answer s' made => ih _ (holds.2 _ _ (promises _ _ _ _ made))⟩

/-- **Weakening along the runs**: what the post-condition is weakened to may use how the end was
reached. -/
theorem wp_of_runs {weaker : Except ε α → σ → Prop} {p : Prog Q A ε α} {s : σ}
    (holds : wp S post p s)
    (weaken : ∀ result s', Runs S.step p s result s' → post result s' → weaker result s') :
    wp S weaker p s := by
  induction p generalizing s with
  | done value => exact weaken _ _ (.done value s) holds
  | fail error => exact weaken _ _ (.fail error s) holds
  | ask request next ih =>
      exact ⟨holds.1, fun answer s' made => ih _ (holds.2 _ _ made) fun result s'' runs =>
        weaken result s'' (.ask made runs)⟩

/-- **Weakening** of the post-condition. -/
theorem wp_mono {weaker : Except ε α → σ → Prop}
    (weaken : ∀ result s', post result s' → weaker result s') {p : Prog Q A ε α} {s : σ}
    (holds : wp S post p s) : wp S weaker p s :=
  wp_conseq (fun _ _ demanded => demanded) (fun _ _ _ _ made => made) weaken holds

/-- **Sequencing, as a rule**: an intermediate condition between `p` and the rest. -/
theorem wp_seq {mid : α → σ → Prop} {p : Prog Q A ε α} {f : α → Prog Q A ε β}
    {post : Except ε β → σ → Prop} {s : σ}
    (first : wp S (andThen mid post) p s)
    (second : ∀ value s', mid value s' → wp S post (f value) s') : wp S post (p.bind f) s := by
  rw [wp_bind]
  refine wp_mono (fun result s' between => ?_) first
  cases result with
  | ok value => exact second value s' between
  | error error => exact between

/-- **Sequencing after an invariant**: the first program keeps it, and where an error ends both it
is enough. -/
theorem wp_then {inv : σ → Prop} {p : Prog Q A ε α} {f : α → Prog Q A ε β}
    {post : Except ε β → σ → Prop} {s : σ} (first : wp S (fun _ => inv) p s)
    (second : ∀ value s', inv s' → wp S post (f value) s')
    (early : ∀ error s', inv s' → post (.error error) s') : wp S post (p.bind f) s := by
  rw [wp_bind]
  refine wp_mono (fun result s' between => ?_) first
  cases result with
  | ok value => exact second value s' between
  | error error => exact early error s' between

/-- Two post-conditions proved apart hold together. -/
theorem wp_and {first second : Except ε α → σ → Prop} {p : Prog Q A ε α} {s : σ}
    (left : wp S first p s) (right : wp S second p s) :
    wp S (fun result s' => first result s' ∧ second result s') p s := by
  induction p generalizing s with
  | done value => exact ⟨left, right⟩
  | fail error => exact ⟨left, right⟩
  | ask request next ih =>
      exact ⟨left.1, fun answer s' made => ih _ (left.2 _ _ made) (right.2 _ _ made)⟩

/-- **The step lemma.** One request of a verified program was allowed and leaves one. -/
theorem wp_moves {p p' : Prog Q A ε α} {s s' : σ} (holds : wp S post p s)
    (moves : Moves S.step (p, s) (p', s')) : wp S post p' s' := by
  cases moves with
  | ask made => exact holds.2 _ _ made

/-- **Soundness.** A run of a verified program ends in its post-condition. -/
theorem Runs.ends {p : Prog Q A ε α} {s s' : σ} {result : Except ε α}
    (runs : Runs S.step p s result s') (holds : wp S post p s) : post result s' := by
  induction runs with
  | done value s => exact holds
  | fail error s => exact holds
  | ask made rest ih => exact ih (holds.2 _ _ made)

/-! ### Invariants of the store -/

/-- Nothing is demanded. -/
def Spec.free (step : Step σ Q A) : Spec σ Q A := ⟨fun _ _ => True, step⟩

/-- With nothing demanded, the weakest precondition is about the ends of the runs. -/
theorem wp_free_iff {step : Step σ Q A} {p : Prog Q A ε α} {s : σ} :
    wp (.free step) post p s ↔ ∀ result s', Runs step p s result s' → post result s' := by
  refine ⟨fun holds result s' runs => runs.ends holds, fun all => ?_⟩
  induction p generalizing s with
  | done value => exact all _ _ (.done value s)
  | fail error => exact all _ _ (.fail error s)
  | ask request next ih =>
      exact ⟨trivial, fun answer s' made =>
        ih answer fun result s'' runs => all result s'' (.ask made runs)⟩

/-- Where every request has an answer, a program has a run. -/
theorem exists_runs {step : Step σ Q A} (total : ∀ request s, ∃ answer s', step request s answer s')
    (p : Prog Q A ε α) (s : σ) : ∃ result s', Runs step p s result s' := by
  induction p generalizing s with
  | done value => exact ⟨_, _, .done value s⟩
  | fail error => exact ⟨_, _, .fail error s⟩
  | ask request next ih =>
      obtain ⟨answer, s', made⟩ := total request s
      obtain ⟨result, s'', runs⟩ := ih answer s'
      exact ⟨result, s'', .ask made runs⟩

/-- The requests made so far, latest first, beside the store. -/
def logged (step : Step σ Q A) : Step (σ × List Q) Q A := fun request s answer s' =>
  step request s.1 answer s'.1 ∧ s'.2 = request :: s.2

theorem logged_total {step : Step σ Q A} (total : ∀ request s, ∃ answer s',
    step request s answer s')
    (request : Q) (s : σ × List Q) : ∃ answer s', logged step request s answer s' := by
  obtain ⟨answer, s', made⟩ := total request s.1
  exact ⟨answer, (s', request :: s.2), made, rfl⟩

/-- A run is also a run that writes its requests down. -/
theorem Runs.logged {step : Step σ Q A} {p : Prog Q A ε α} {s s' : σ} {result : Except ε α}
    (runs : Runs step p s result s') (log : List Q) :
    ∃ log', Runs (logged step) p (s, log) result (s', log') := by
  induction runs generalizing log with
  | done value s => exact ⟨log, .done value _⟩
  | fail error s => exact ⟨log, .fail error _⟩
  | ask made rest ih =>
      obtain ⟨log', runs⟩ := ih (_ :: log)
      exact ⟨log', .ask ⟨made, rfl⟩ runs⟩

/-- What is written down need not be. -/
theorem Runs.unlogged {step : Step σ Q A} {p : Prog Q A ε α} {s s' : σ × List Q}
    {result : Except ε α} (runs : Runs (Prog.logged step) p s result s') :
    Runs step p s.1 result s'.1 := by
  induction runs with
  | done value s => exact .done value _
  | fail error s => exact .fail error _
  | ask made rest ih => exact .ask made.1 ih

theorem Runs.mem_log {step : Step σ Q A} {p : Prog Q A ε α} {s s' : σ × List Q}
    {result : Except ε α} (runs : Runs (Prog.logged step) p s result s') {request : Q}
    (earlier : request ∈ s.2) : request ∈ s'.2 := by
  induction runs with
  | done value s => exact earlier
  | fail error s => exact earlier
  | ask made rest ih =>
      refine ih ?_
      rw [made.2]
      exact List.mem_cons_of_mem _ earlier

/-- Every request must leave the store in `inv`. -/
def Spec.always (step : Step σ Q A) (inv : σ → Prop) : Spec σ Q A :=
  ⟨fun request s => ∀ answer s', step request s answer s' → inv s', step⟩

/-- From a store in `inv`, `p` ends in one, with a result or with an error. -/
def Keeps (S : Spec σ Q A) (inv : σ → Prop) (p : Prog Q A ε α) : Prop :=
  ∀ s, inv s → wp S (fun _ s' => inv s') p s

variable {inv : σ → Prop}

theorem keeps_done (value : α) : Keeps S inv (done value : Prog Q A ε α) := fun _ before => before

theorem keeps_fail (error : ε) : Keeps S inv (fail error : Prog Q A ε α) := fun _ before => before

theorem keeps_ask {request : Q} {next : A request → Prog Q A ε α}
    (allowed : ∀ s, inv s → S.demand request s)
    (kept : ∀ s answer s', inv s → S.step request s answer s' → inv s')
    (rest : ∀ answer, Keeps S inv (next answer)) : Keeps S inv (ask request next) :=
  fun s before => ⟨allowed s before, fun answer s' made =>
    rest answer s' (kept s answer s' before made)⟩

theorem Keeps.bind {p : Prog Q A ε α} {f : α → Prog Q A ε β} (first : Keeps S inv p)
    (second : ∀ value, Keeps S inv (f value)) : Keeps S inv (p.bind f) := fun s before =>
  wp_seq (wp_mono (fun result s' between => by cases result <;> exact between) (first s before))
    fun value s' between => second value s' between

theorem Keeps.attempt {p : Prog Q A ε α} (kept : Keeps S inv p) : Keeps S inv p.attempt :=
  fun s before => (wp_attempt p _ s).mpr (kept s before)

/-! ### Properties of the requests alone -/

/-- Every request `p` can make, whatever it is answered, satisfies `good`. -/
def Calls (good : Q → Prop) : Prog Q A ε α → Prop
  | done _ => True
  | fail _ => True
  | ask request next => good request ∧ ∀ answer, Calls good (next answer)

variable {good : Q → Prop}

@[simp] theorem calls_done (value : α) : Calls good (done value : Prog Q A ε α) := trivial

@[simp] theorem calls_fail (error : ε) : Calls good (fail error : Prog Q A ε α) := trivial

@[simp] theorem calls_ask (request : Q) (next : A request → Prog Q A ε α) :
    Calls good (ask request next) ↔ good request ∧ ∀ answer, Calls good (next answer) := Iff.rfl

theorem Calls.bind {p : Prog Q A ε α} {f : α → Prog Q A ε β} (first : Calls good p)
    (second : ∀ value, Calls good (f value)) : Calls good (p.bind f) := by
  induction p with
  | done value => exact second value
  | fail error => exact first
  | ask request next ih => exact ⟨first.1, fun answer => ih answer (first.2 answer)⟩

@[simp] theorem calls_query (request : Q) :
    Calls good (query request : Prog Q A ε (A request)) ↔ good request :=
  ⟨fun calls => calls.1, fun holds => ⟨holds, fun _ => trivial⟩⟩

@[simp] theorem calls_ofExcept (value : Except ε α) :
    Calls good (ofExcept value : Prog Q A ε α) := by
  cases value <;> trivial

theorem Calls.attempt {p : Prog Q A ε α} (calls : Calls good p) : Calls good p.attempt := by
  induction p with
  | done value => exact calls
  | fail error => exact calls
  | ask request next ih => exact ⟨calls.1, fun answer => ih answer (calls.2 answer)⟩

theorem calls_forEach {xs : List β} {body : β → Prog Q A ε Unit}
    (round : ∀ x ∈ xs, Calls good (body x)) : Calls good (forEach xs body) := by
  induction xs with
  | nil => trivial
  | cons x rest ih =>
      exact (round x List.mem_cons_self).bind fun _ =>
        ih fun y member => round y (List.mem_cons_of_mem x member)

theorem Calls.mono {better : Q → Prop} (weaken : ∀ request, better request → good request)
    {p : Prog Q A ε α} (calls : Calls better p) : Calls good p := by
  induction p with
  | done value => trivial
  | fail error => trivial
  | ask request next ih => exact ⟨weaken _ calls.1, fun answer => ih answer (calls.2 answer)⟩

theorem Calls.and {other : Q → Prop} {p : Prog Q A ε α} (left : Calls good p)
    (right : Calls other p) : Calls (fun request => good request ∧ other request) p := by
  induction p with
  | done value => trivial
  | fail error => trivial
  | ask request next ih =>
      exact ⟨⟨left.1, right.1⟩, fun answer => ih answer (left.2 answer) (right.2 answer)⟩

theorem Calls.moves {step : Step σ Q A} {p p' : Prog Q A ε α} {s s' : σ} (calls : Calls good p)
    (moves : Moves step (p, s) (p', s')) : Calls good p' := by
  cases moves with
  | ask made => exact calls.2 _

/-- Requests that are harmless one by one keep an invariant whatever the order. -/
theorem Calls.wp {p : Prog Q A ε α} (calls : Calls good p)
    (allowed : ∀ request s, good request → inv s → S.demand request s)
    (kept : ∀ request s answer s', good request → inv s → S.step request s answer s' → inv s')
    {s : σ} (before : inv s) : Prog.wp S (fun _ s' => inv s') p s := by
  induction p generalizing s with
  | done value => exact before
  | fail error => exact before
  | ask request next ih =>
      exact ⟨allowed _ _ calls.1 before, fun answer s' made =>
        ih answer (calls.2 answer) (kept _ _ _ _ calls.1 before made)⟩

/-- What is known of the requests of a program may be demanded as well. -/
theorem Calls.wp_demand {good : Q → Prop} {p : Prog Q A ε α} (calls : Calls good p)
    {post : Except ε α → σ → Prop} {s : σ} (holds : Prog.wp S post p s) :
    Prog.wp ⟨fun request s => good request ∧ S.demand request s, S.step⟩ post p s := by
  induction p generalizing s with
  | done value => exact holds
  | fail error => exact holds
  | ask request next ih =>
      exact ⟨⟨calls.1, holds.1⟩, fun answer s' made =>
        ih answer (calls.2 answer) (holds.2 answer s' made)⟩

/-- The requests of a run are written down in front of the earlier ones, and they are requests of
the program. -/
theorem Calls.writes {step : Step σ Q A} {good : Q → Prop} {p : Prog Q A ε α}
    (calls : Calls good p) {s s' : σ} {log log' : List Q} {result : Except ε α}
    (runs : Runs (Prog.logged step) p (s, log) result (s', log')) :
    ∃ front, log' = front ++ log ∧ ∀ request ∈ front, good request := by
  have written : Prog.wp (Spec.free (Prog.logged step))
      (fun _ state => ∃ front, state.2 = front ++ log ∧ ∀ request ∈ front, good request) p
        (s, log) := by
    refine calls.wp (fun _ _ _ _ => trivial)
      (fun request (state : σ × List Q) answer state' isGood before made => ?_) ?_
    case refine_2 => exact ⟨[], rfl, nofun⟩
    obtain ⟨front, same, all⟩ := before
    refine ⟨request :: front, by rw [made.2, same]; rfl, fun other member => ?_⟩
    rcases List.mem_cons.mp member with rfl | earlier
    · exact isGood
    · exact all other earlier
  exact Prog.wp_free_iff.mp written _ _ runs

/-- A condition on the store that no request of `p` makes true or false holds at the end if and only
if it holds at the start. -/
theorem Calls.wp_iff {step : Step σ Q A} {p : Prog Q A ε α} (calls : Calls good p)
    (total : ∀ request s, ∃ answer s', step request s answer s')
    (same : ∀ request s answer s', good request → step request s answer s' → (inv s' ↔ inv s))
      (s : σ) :
    Prog.wp (.free step) (fun _ s' => inv s') p s ↔ inv s := by
  induction p generalizing s with
  | done value => rfl
  | fail error => rfl
  | ask request next ih =>
      refine ⟨fun holds => ?_, fun before => ⟨trivial, fun answer s' made => ?_⟩⟩
      · obtain ⟨answer, s', made⟩ := total request s
        exact (same _ _ _ _ calls.1 made).mp
          ((ih answer (calls.2 answer) s').mp (holds.2 answer s' made))
      · exact (ih answer (calls.2 answer) s').mpr ((same _ _ _ _ calls.1 made).mpr before)

end Prog

/-! ### One input after the other -/

section Served

variable {σ Q ε ι : Type} {A : Q → Type}

/-- A task that takes an input when it is idle and then makes the requests of its handler, one by
one. `accepts` says which inputs may come on which store. The input is remembered while it is
handled. -/
inductive Served (step : Prog.Step σ Q A) (handle : ι → Prog Q A ε Unit) (accepts : ι → σ → Prop) :
    Option (ι × Prog Q A ε Unit) × σ → Option (ι × Prog Q A ε Unit) × σ → Prop where
  | accept {input : ι} {s : σ} (accepted : accepts input s) :
      Served step handle accepts (none, s) (some (input, handle input), s)
  | move {input : ι} {p p' : Prog Q A ε Unit} {s s' : σ} (moves : Prog.Moves step (p, s) (p', s')) :
      Served step handle accepts (some (input, p), s) (some (input, p'), s')
  | finish {input : ι} {result : Except ε Unit} {s : σ} :
      Served step handle accepts (some (input, Prog.ofExcept result), s) (none, s)

/-- A request of a handler is a step of the service. -/
theorem served_move {step : Prog.Step σ Q A} {handle : ι → Prog Q A ε Unit}
    {accepts : ι → σ → Prop} (input : ι) {state state' : Prog Q A ε Unit × σ}
    (moves : Prog.Moves step state state') :
    Served step handle accepts (some (input, state.1), state.2)
    (some (input, state'.1), state'.2) :=
  .move moves

/-- From idling into the middle of a handler. -/
theorem served_moves {step : Prog.Step σ Q A} {handle : ι → Prog Q A ε Unit}
    {accepts : ι → σ → Prop} {input : ι} {s s' : σ} (accepted : accepts input s)
    {p : Prog Q A ε Unit}
    (moves : Relation.ReflTransGen (Prog.Moves step) (handle input, s) (p, s')) :
    Relation.ReflTransGen (Served step handle accepts) (none, s) (some (input, p), s') :=
  .head (.accept accepted) (moves.lift (fun state => (some (input, state.1), state.2))
    fun _ _ moved => served_move input moved)

variable {step : Prog.Step σ Q A} {handle : ι → Prog Q A ε Unit} {accepts : ι → σ → Prop}
  {demand : ι → Q → σ → Prop} {inv : σ → Prop} {start : σ}

/-- **The run rule.** If every handler meets its specification from every store in `inv`, and ends
in `inv`, then whatever a service still has to do meets it, and it idles in `inv`. -/
theorem served_wp
    (handler : ∀ input s, accepts input s → inv s →
      Prog.wp ⟨demand input, step⟩ (fun _ => inv) (handle input) s)
    (initially : inv start) {state : Option (ι × Prog Q A ε Unit) × σ}
    (reached : Relation.ReflTransGen (Served step handle accepts) (none, start) state) :
    (state.1 = none → inv state.2) ∧ ∀ input p, state.1 = some (input, p) →
      Prog.wp ⟨demand input, step⟩ (fun _ => inv) p state.2 := by
  induction reached with
  | refl => exact ⟨fun _ => initially, nofun⟩
  | tail _ served ih =>
      cases served with
      | accept accepted =>
          refine ⟨nofun, fun input p same => ?_⟩
          obtain ⟨rfl, rfl⟩ := Prod.mk.inj (Option.some.inj same)
          exact handler _ _ accepted (ih.1 rfl)
      | move moves =>
          refine ⟨nofun, fun input p same => ?_⟩
          obtain ⟨rfl, rfl⟩ := Prod.mk.inj (Option.some.inj same)
          exact Prog.wp_moves (ih.2 _ _ rfl) moves
      | finish => exact ⟨fun _ => (Prog.wp_ofExcept _ _).mp (ih.2 _ _ rfl), nofun⟩

/-- **Step safety.** With such handlers, a service makes a request only where its demand holds. -/
theorem served_demands
    (handler : ∀ input s, accepts input s → inv s →
      Prog.wp ⟨demand input, step⟩ (fun _ => inv) (handle input) s)
    (initially : inv start) {input : ι} {request : Q} {next : A request → Prog Q A ε Unit} {s : σ}
    (reached : Relation.ReflTransGen (Served step handle accepts) (none, start)
      (some (input, .ask request next), s)) : demand input request s :=
  ((served_wp handler initially reached).2 _ _ rfl).1

end Served
