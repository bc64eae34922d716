/-
**One rule for the handlers of the relay.**

Most requests of a handler concern nobody else: replies, limiters, the directory, the keys.
`Upholds` says what is left to show for a specification and an invariant that speaks of the user of
the connection: that these requests keep it (`inert`, `clock`), that logging in moves it to the new
user (`online`), and that the two loops keep it (`flush`, `fanOut`). Then every handler keeps it
(`Upholds.handle`).
-/

import Cherm.Relay.System

namespace Cherm.Relay

open Crates

/-- Requests that touch neither the outbox, nor the channels of others, nor who is online. -/
def Ask.Inert : Ask → Prop
  | .call (.lookupUser _) | .call (.registerUser ..) | .call (.publishPrekeys ..)
  | .call (.fetchBundle _) | .trySend _ | .allow _ | .attest _ | .randomNonce | .randomUuid => True
  | _ => False

section

variable [Crates]

structure Upholds {σ : Type} (S : Prog.Spec σ Ask Ask.Answer) (I : Option String → σ → Prop)
    (c : Nat) :
    Prop where
  inert : ∀ request who s, request.Inert → I who s →
    S.demand request s ∧ ∀ answer s', S.step request s answer s' → I who s'
  clock : ∀ who s, I who s →
    S.demand .now s ∧ ∀ answer s', S.step .now s answer s' → I who s' ∧ IsI64 answer
  online : ∀ username s, I none s → S.demand (.call (.goOnline username c)) s ∧
    ∀ answer s', S.step (.call (.goOnline username c)) s answer s' → I (some username) s'
  flush : ∀ username s, I (some username) s →
    Prog.wp S (fun _ => I (some username)) (flushOutbox username) s
  fanOut : ∀ sender frame recipients s, Deliver.InRange frame → I (some sender) s →
    Prog.wp S (fun _ => I (some sender))
      (fanOut sender frame (writeFrame frame) recipients false false) s

/-- What a handler ends with. -/
def EndsIn {σ : Type} (I : Option String → σ → Prop) (result : Except Unit ConnState)
    (s : σ) : Prop :=
  ∀ state, result = .ok state → I state.authed s

namespace Upholds

variable {σ : Type} {S : Prog.Spec σ Ask Ask.Answer} {I : Option String → σ → Prop} {c : Nat}
  {config : ServerConfig} {state : ConnState} {s : σ}

theorem ask (upholds : Upholds S I c) {α : Type} {post : Except Unit α → σ → Prop}
    {who : Option String}
    {request : Ask} {next : request.Answer → Task α} (inert : request.Inert) (holds : I who s)
    (rest : ∀ answer s', I who s' → Prog.wp S post (next answer) s') :
    Prog.wp S post (.ask request next) s := by
  obtain ⟨allowed, kept⟩ := upholds.inert request who s inert holds
  exact ⟨allowed, fun answer s' made => rest answer s' (kept answer s' made)⟩

/-- Say something, and keep the state. -/
theorem told (upholds : Upholds S I c) (msg : ServerMsg) (holds : I state.authed s) :
    Prog.wp S (EndsIn I) ((reply msg).bind fun _ => Prog.done state) s := by
  refine upholds.ask trivial holds fun answer s' kept => ?_
  rintro _ ⟨⟩
  exact kept

theorem reply (upholds : Upholds S I c) {who : Option String} (msg : ServerMsg) (holds : I who s) :
    Prog.wp S (fun _ => I who) (reply msg) s :=
  upholds.ask trivial holds fun _ _ kept => kept

omit [Crates] in
/-- A program that keeps the invariant, and then the state is returned. -/
theorem kept {α : Type} {prog : Task α} (keeps : Prog.wp S (fun _ => I state.authed) prog s) :
    Prog.wp S (EndsIn I) (prog.bind fun _ => Prog.done state) s := by
  refine Prog.wp_then keeps (fun _ s' after => ?_) fun _ _ _ => nofun
  rintro _ ⟨⟩
  exact (after : I state.authed s')

theorem logIn (upholds : Upholds S I c) (holds : I none s) (uuid username : String) :
    Prog.wp S (EndsIn I) (logIn c state uuid username) s := by
  obtain ⟨allowed, online⟩ := upholds.online username s holds
  refine ⟨allowed, fun answer s' made => ?_⟩
  refine upholds.ask trivial (online answer s' made) fun _ s'' greeted => ?_
  show Prog.wp S _ ((flushOutbox username).bind fun _ =>
    Prog.done { state with authed := some username }) s''
  exact kept (upholds.flush username s'' greeted)

theorem register (upholds : Upholds S I c) (holds : I state.authed s)
    (username ed25519 curve25519 machineId : String) :
    Prog.wp S (EndsIn I) (register c config state username ed25519 curve25519 machineId) s := by
  unfold Relay.register
  split
  · exact upholds.told _ holds
  next fresh =>
  have nobody : state.authed = none := Option.not_isSome_iff_eq_none.mp fresh
  iterate 5
    split
    · exact upholds.told _ holds
  refine upholds.ask trivial holds fun uuid s₁ holds₁ => ?_
  obtain ⟨allowed, ticks⟩ := upholds.clock _ _ holds₁
  refine ⟨allowed, fun now s₂ made => ?_⟩
  refine upholds.ask trivial (ticks now s₂ made).1 fun created s₃ holds₃ => ?_
  cases created with
  | ok given =>
      rw [nobody] at holds₃
      exact upholds.logIn holds₃ _ _
  | error e => cases e <;> exact upholds.told _ holds₃

theorem authFinish (upholds : Upholds S I c) (holds : I state.authed s)
    (username signature : String) :
    Prog.wp S (EndsIn I) (authFinish c config state username signature) s := by
  unfold Relay.authFinish
  split
  · exact upholds.told _ holds
  next fresh =>
  have nobody : state.authed = none := Option.not_isSome_iff_eq_none.mp fresh
  split
  · exact upholds.told _ holds
  split
  · exact upholds.told _ holds
  refine upholds.ask trivial holds fun found s' holds' => ?_
  cases found with
  | none => exact upholds.told _ holds'
  | some record =>
      simp only [Prog.done_bind]
      split
      · rw [nobody] at holds'
        exact upholds.logIn holds' _ _
      · exact upholds.told _ holds'

theorem publishPrekeys (upholds : Upholds S I c) (holds : I state.authed s)
    (otks : List OneTimeKey) :
    Prog.wp S (fun _ => I state.authed) (publishPrekeys state otks) s := by
  unfold Relay.publishPrekeys
  generalize state.authed = who at holds ⊢
  cases who with
  | none => exact upholds.reply _ holds
  | some user =>
      refine upholds.ask trivial holds fun allowed s₁ holds₁ => ?_
      simp only [Prog.done_bind]
      iterate 3
        split
        · exact upholds.ask trivial holds₁ fun _ _ kept => kept
      refine upholds.ask trivial holds₁ fun result s₂ holds₂ => ?_
      cases result <;> exact upholds.reply _ holds₂

theorem fetchPrekeys (upholds : Upholds S I c) (holds : I state.authed s) (username : String) :
    Prog.wp S (fun _ => I state.authed) (fetchPrekeys state username) s := by
  unfold Relay.fetchPrekeys
  split
  · exact upholds.ask trivial holds fun _ _ kept => kept
  refine upholds.ask trivial holds fun allowed s₁ holds₁ => ?_
  simp only [Prog.done_bind]
  split
  · exact upholds.ask trivial holds₁ fun _ _ kept => kept
  refine upholds.ask trivial holds₁ fun bundle s₂ holds₂ => ?_
  cases bundle <;> exact upholds.reply _ holds₂

theorem send (upholds : Upholds S I c) (holds : I state.authed s) {msg : SendMsg}
    (inRange : IsI64 msg.clientTs) : Prog.wp S (fun _ => I state.authed) (send state msg) s := by
  unfold Relay.send
  generalize state.authed = who at holds ⊢
  cases who with
  | none => exact upholds.reply _ holds
  | some sender =>
      refine upholds.ask trivial holds fun allowed s₁ holds₁ => ?_
      simp only [Prog.done_bind]
      iterate 3
        split
        · exact upholds.ask trivial holds₁ fun _ _ kept => kept
      obtain ⟨allowed, ticks⟩ := upholds.clock _ _ holds₁
      refine ⟨allowed, fun serverTs s₂ made => ?_⟩
      obtain ⟨holds₂, serverRange⟩ := ticks serverTs s₂ made
      have frameRange : (⟨sender, msg.to, msg.msgType, msg.payload, msg.groupId, serverTs,
          msg.clientTs⟩ : Deliver).InRange := ⟨serverRange, inRange⟩
      simp only [Prog.done_bind]
      have routed := upholds.fanOut sender _ msg.to.eraseDups s₂ frameRange holds₂
      refine Prog.wp_then routed (fun outcome s₃ holds₃ => ?_) fun _ _ after => after
      obtain ⟨delivered, unknown⟩ := outcome
      simp only
      split <;> exact upholds.reply _ holds₃

theorem answer (upholds : Upholds S I c) {msg : ClientMsg} (inRange : InRange (some msg))
    (holds : I state.authed s) : Prog.wp S (EndsIn I) (answer c config state msg) s := by
  cases msg with
  | attestRequest nonce =>
      refine upholds.ask trivial holds fun attestation s' holds' => ?_
      cases attestation <;> exact upholds.told _ holds'
  | clientHello buildHash version =>
      have heard : I { state with buildHash := some buildHash : ConnState }.authed s := holds
      exact upholds.told _ heard
  | getServerInfo => exact upholds.told _ holds
  | register username ed25519 curve25519 machineId => exact upholds.register holds _ _ _ _
  | authBegin username =>
      refine upholds.ask trivial holds fun nonce s' holds' => ?_
      have challenged : I { state with pendingNonce := some nonce : ConnState }.authed s' := holds'
      exact upholds.told _ challenged
  | authFinish username signature => exact upholds.authFinish holds _ _
  | publishPrekeys otks => exact kept (upholds.publishPrekeys holds otks)
  | fetchPrekeys username => exact kept (upholds.fetchPrekeys holds username)
  | send msg => exact kept (upholds.send holds inRange)
  | pull =>
      unfold Relay.answer
      cases same : state.authed with
      | none => exact upholds.told _ holds
      | some username =>
          have flushed : Prog.wp S (fun _ => I state.authed) (flushOutbox username) s := by
            rw [same] at holds ⊢
            exact upholds.flush username s holds
          exact kept flushed
  | ping => exact upholds.told _ holds

/-- **Every message.** -/
theorem handle (upholds : Upholds S I c) {msg : Option ClientMsg} (inRange : InRange msg)
    (holds : I state.authed s) : Prog.wp S (EndsIn I) (handle c config state msg) s := by
  cases msg with
  | none => exact upholds.told _ holds
  | some msg =>
      unfold Relay.handle
      dsimp only
      split
      · refine upholds.ask trivial holds fun allowed s' holds' => ?_
        cases allowed with
        | false => exact upholds.told _ holds'
        | true => exact upholds.answer inRange holds'
      · exact upholds.answer inRange holds

end Upholds

end

end Cherm.Relay
