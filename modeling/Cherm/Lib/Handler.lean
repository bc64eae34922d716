/-
**Programs whose requests are made in terms of other requests.**

A handler says what program answers each request. `Prog.interpret` plays a program on a handler, so
that the requests of one level become programs of the level below.

* `wp_interpret`: a handler that meets a specification of the requests turns a program verified
  against that specification into one verified below.
* `wp_simulate`: a program verified over one store is verified over another one that refines it.
* `interpret_bind`, `interpret_interpret`: how programs and handlers compose.
-/

import Cherm.Lib.Prog

namespace Prog

variable {σ τ Q Q' Q'' ε α β : Type} {A : Q → Type} {A' : Q' → Type} {A'' : Q'' → Type}

/-- Every request is answered by the program that the handler has for it. -/
def interpret (handler : (request : Q) → Prog Q' A' ε (A request)) : Prog Q A ε α → Prog Q' A' ε α
  | done value => done value
  | fail error => fail error
  | ask request next => (handler request).bind fun answer => (next answer).interpret handler

variable (handler : (request : Q) → Prog Q' A' ε (A request))

@[simp] theorem interpret_done (value : α) :
    interpret handler (done value : Prog Q A ε α) = done value := rfl

@[simp] theorem interpret_fail (error : ε) :
    interpret handler (fail error : Prog Q A ε α) = fail error := rfl

theorem interpret_ask (request : Q) (next : A request → Prog Q A ε α) :
    interpret handler (ask request next) =
      (handler request).bind fun answer => (next answer).interpret handler := rfl

@[simp] theorem interpret_bind (p : Prog Q A ε α) (f : α → Prog Q A ε β) :
    interpret handler (p.bind f) = (interpret handler p).bind fun value =>
    interpret handler (f value) := by
  induction p with
  | done value => rfl
  | fail error => rfl
  | ask request next ih =>
      rw [ask_bind, interpret_ask, interpret_ask, bind_assoc]
      exact congrArg ((handler request).bind) (funext ih)

@[simp] theorem interpret_query (request : Q) :
    interpret handler (query request : Prog Q A ε (A request)) = handler request := by
  show (handler request).bind done = handler request
  induction handler request with
  | done value => rfl
  | fail error => rfl
  | ask request next ih => exact congrArg (ask request) (funext ih)

@[simp] theorem interpret_ofExcept (value : Except ε α) :
    interpret handler (ofExcept value : Prog Q A ε α) = ofExcept value := by
  cases value <;> rfl

/-- Handlers one below the other. -/
@[simp] theorem interpret_interpret (below : (request : Q') → Prog Q'' A'' ε (A' request))
    (p : Prog Q A ε α) :
    interpret below (interpret handler p) = interpret (fun request =>
    interpret below (handler request)) p := by
  induction p with
  | done value => rfl
  | fail error => rfl
  | ask request next ih =>
      rw [interpret_ask, interpret_ask, interpret_bind]
      exact congrArg (Prog.bind _) (funext ih)

/-- Answering each request by asking it changes nothing. -/
theorem interpret_self (p : Prog Q A ε α) : interpret (fun request => query request) p = p := by
  induction p with
  | done value => rfl
  | fail error => rfl
  | ask request next ih => exact congrArg (ask request) (funext ih)

/-- A program that answers whatever happens: it never ends with an error. -/
def Total : Prog Q A ε α → Prop
  | done _ => True
  | fail _ => False
  | ask _ next => ∀ answer, (next answer).Total

theorem Total.bind {p : Prog Q A ε α} {f : α → Prog Q A ε β} (first : p.Total)
    (second : ∀ value, (f value).Total) : (p.bind f).Total := by
  induction p with
  | done value => exact second value
  | fail error => exact first.elim
  | ask request next ih => exact fun answer => ih answer (first answer)

theorem Total.runs {step : Step σ Q A} {p : Prog Q A ε α} (total : p.Total) {s s' : σ}
    {result : Except ε α} (runs : Runs step p s result s') : ∃ value, result = .ok value := by
  induction runs with
  | done value s => exact ⟨value, rfl⟩
  | fail error s => exact total.elim
  | ask made rest ih => exact ih (total _)

/-! ### Verified programs -/

/-- **Handlers**: each answers its request as the specification above promises. -/
theorem wp_interpret {handler : (request : Q) → Prog Q' A' ε (A request)} {above : Spec σ Q A}
    {below : Spec σ Q' A'} {post : Except ε α → σ → Prop}
    (implements : ∀ request s, above.demand request s →
      wp below (fun result s' => ∃ answer, result = .ok answer ∧ above.step request s answer s')
        (handler request) s)
    {p : Prog Q A ε α} {s : σ} (holds : wp above post p s) :
    wp below post (interpret handler p) s := by
  induction p generalizing s with
  | done value => exact holds
  | fail error => exact holds
  | ask request next ih =>
      rw [interpret_ask, wp_bind]
      refine wp_mono (fun result s' answered => ?_) (implements request s holds.1)
      obtain ⟨answer, rfl, made⟩ := answered
      exact ih answer (holds.2 answer s' made)

/-- **Refinement of the store**: what a program is verified for on one store holds on another one
whose requests it can follow. -/
theorem wp_simulate {S : Spec σ Q A} {T : Spec τ Q A} (rel : σ → τ → Prop)
    {post : Except ε α → σ → Prop}
    (demands : ∀ request s t, rel s t → S.demand request s → T.demand request t)
    (follows : ∀ request s t answer t', rel s t → S.demand request s → T.step request t answer t' →
      ∃ s', S.step request s answer s' ∧ rel s' t')
    {p : Prog Q A ε α} {s : σ} {t : τ} (related : rel s t) (holds : wp S post p s) :
    wp T (fun result t' => ∃ s', rel s' t' ∧ post result s') p t := by
  induction p generalizing s t with
  | done value => exact ⟨s, related, holds⟩
  | fail error => exact ⟨s, related, holds⟩
  | ask request next ih =>
      refine ⟨demands request s t related holds.1, fun answer t' made => ?_⟩
      obtain ⟨s', made', related'⟩ := follows request s t answer t' related holds.1 made
      exact ih answer related' (holds.2 answer s' made')

end Prog
