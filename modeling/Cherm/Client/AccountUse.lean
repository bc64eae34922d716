/-
**What the processor does with the account.**

A frame may be a peer's first message. Then the processor loads the account, opens a session with
one of its one-time keys and saves the account without that key. It writes nothing else of the
identity: neither another account nor a name in `meta`.

* `Accepted`: what an account is after a first message.
* `identitySpec`: the requests of a frame as far as they concern the identity. The state is the
  account that the task has loaded or saved last.
* `wp_processFrame_account`: every frame keeps to it.
-/

import Cherm.Client.Account
import Cherm.Client.FrameAsks

namespace Cherm

open Crates

section

variable [Crates]

/-- What a first message makes of an account. -/
def Accepted (device device' : Device) : Prop :=
  ∃ curve olmType body session plaintext,
    device.createInbound curve olmType body = .ok (session, plaintext, device')

/-- Requests of a frame that write neither the account nor `meta`. -/
def Ask.Apart : Ask → Prop :=
  Ask.May (fun part _ => part ≠ .account ∧ part ≠ .meta) (fun _ _ => True) fun _ => True

/-- What a frame may do to the identity, given the account its task knows. -/
def identitySpec : Prog.Spec (Option Device) Ask Ask.Answer where
  demand asked known := match asked with
    | .call (.saveAccount device) => ∃ had, known = some had ∧ Accepted had device
    | asked => asked.Apart
  step asked known answer known' := match asked with
    | .call .loadAccount => known' = answer
    | .call (.saveAccount device) => known' = some device
    | _ => known' = known

theorem Ask.Apart.allowed {asked : Ask} (apart : asked.Apart) (known : Option Device) :
    identitySpec.demand asked known := by
  cases asked with
  | call op =>
      cases op with
      | saveAccount device => exact absurd rfl (apart.1 .account "" rfl).1
      | _ => exact apart
  | _ => exact apart

theorem apart_read {op : VaultOp} (reads : ∀ part id, ¬ op.Writes part id) : Ask.Apart (.call op) :=
  (Client.calls_read reads).1

theorem apart_saveOlm (peer : String) (session : OlmSession) :
    Ask.Apart (.call (.saveOlm peer session)) := by
  have sessions : VaultPart.olmSessions ≠ .account ∧ VaultPart.olmSessions ≠ .meta := by decide
  exact (Client.calls_write sessions (fun _ _ => id) (by trivial)).1

namespace Client

variable {known : Option Device}

/-- Programs that leave the identity alone. -/
theorem wp_apart {α : Type} {prog : Client α} (calls : Prog.Calls Ask.Apart prog)
    (known : Option Device) : Prog.wp identitySpec (fun _ _ => True) prog known :=
  calls.wp (fun _ known apart _ => apart.allowed known) (fun _ _ _ _ _ _ _ => trivial) trivial

/-- One program after the other, whatever is known in between. -/
theorem wp_after {α β : Type} {prog : Client α} {next : α → Client β}
    (first : Prog.wp identitySpec (fun _ _ => True) prog known)
    (second : ∀ value known, Prog.wp identitySpec (fun _ _ => True) (next value) known) :
    Prog.wp identitySpec (fun _ _ => True) (prog.bind next) known :=
  Prog.wp_then first (fun value known' _ => second value known') fun _ _ _ => trivial

theorem wp_acceptInbound_account (sender : String) (olmType : Nat) (body : Bytes)
    (known : Option Device) :
    Prog.wp identitySpec (fun _ _ => True) (acceptInbound sender olmType body) known := by
  refine wp_after (wp_apart (calls_obtainCurve (fun _ => by decide) sender) known)
    fun curve known' => ?_
  refine ⟨(apart_read fun _ _ => id).allowed _, ?_⟩
  rintro _ account rfl
  cases account with
  | none => trivial
  | some device =>
      show Prog.wp identitySpec _ ((Prog.ofExcept (device.createInbound curve olmType
        body)).bind _) _
      cases opened : device.createInbound curve olmType body with
      | error e => trivial
      | ok found =>
          obtain ⟨session, plaintext, device'⟩ := found
          refine ⟨⟨device, rfl, curve, olmType, body, session, plaintext, opened⟩, ?_⟩
          rintro _ _ rfl
          refine ⟨(apart_saveOlm _ _).allowed _, ?_⟩
          rintro _ _ rfl
          trivial

theorem wp_obtainOlmPlaintext_account (sender payload : String) (known : Option Device) :
    Prog.wp identitySpec (fun _ _ => True) (obtainOlmPlaintext sender payload) known := by
  refine wp_after (wp_apart (calls_lift _) known) fun parts known' => ?_
  obtain ⟨olmType, body⟩ := parts
  refine ⟨(apart_read fun _ _ => id).allowed _, ?_⟩
  rintro held _ rfl
  cases held with
  | none => exact wp_acceptInbound_account _ _ _ _
  | some session =>
      dsimp only [Prog.done_bind]
      split
      · refine ⟨(apart_saveOlm _ _).allowed _, ?_⟩
        rintro _ _ rfl
        trivial
      · split
        · trivial
        · exact wp_acceptInbound_account _ _ _ _

theorem wp_processOne_account (ctx : ProcCtx) (inc : Incoming) (known : Option Device) :
    Prog.wp identitySpec (fun _ _ => True) (processOne ctx inc) known := by
  have chat : ∀ part ∈ VaultPart.ofChat, part ≠ .account ∧ part ≠ .meta := by decide
  have decrypts : ∀ {next : Bytes → Client Unit}, (∀ plaintext,
      Prog.Calls Ask.Apart (next plaintext)) →
      Prog.wp identitySpec (fun _ _ => True) ((obtainOlmPlaintext inc.from inc.payload).bind
        next) known :=
    fun apart => wp_after (wp_obtainOlmPlaintext_account _ _ known) fun plaintext known' =>
      wp_apart (apart plaintext) known'
  have inGroup : ∀ {missing : String} {next : String → Client Unit},
      (∀ groupId, Prog.Calls Ask.Apart (next groupId)) →
      Prog.wp identitySpec (fun _ _ => True) ((frameGroup inc missing).bind next) known :=
    fun apart => wp_apart ((calls_okOr _ _).bind apart) known
  unfold processOne
  split
  · exact decrypts fun plaintext => calls_deliverDmText (chat _ (by decide)) trivial
      (chat _ (by decide))
      (chat _ (by decide)) _ _ _
  · exact decrypts fun plaintext => calls_handleGroupKeyShare
      (fun _ part inChat => chat part inChat)
      (fun _ => trivial) _ _ _
  · exact inGroup fun groupId => calls_processMegolm (chat _ (by decide)) (chat _ (by decide))
      (chat _ (by decide)) _ _ _
  · refine decrypts fun plaintext => ?_
    split
    · exact calls_emitSystem (chat _ (by decide)) _ _
    · trivial
  · exact inGroup fun groupId => calls_processMegolmSystem (chat _ (by decide)) (chat _ (by decide))
      (chat _ (by decide)) (chat _ (by decide)) _ _ _
  · exact decrypts fun plaintext => calls_handleJoinRequest (fun _ => by decide)
      (fun _ => by decide)
      (fun _ _ part inChat => chat part inChat) (fun _ _ _ _ _ _ => trivial) _ _ _
  · exact decrypts fun plaintext => calls_handleJoinDenied _ _
  · exact inGroup fun groupId => calls_processGroupEvent
      (fun part inChat => chat part inChat) _ _ _ _
  · trivial

/-- **A frame** saves the account it has loaded, without the key its message has used up. -/
theorem wp_processFrame_account (ctx : ProcCtx) (inc : Incoming) (known : Option Device) :
    Prog.wp identitySpec (fun _ _ => True) (processFrame ctx inc) known := by
  rw [processFrame_eq]
  refine wp_after ((Prog.wp_attempt _ _ _).mpr (wp_processOne_account ctx inc known)) ?_
  intro result known'
  cases result with
  | ok _ => trivial
  | error e => exact ⟨trivial, fun _ _ _ => trivial⟩

end Client

end

end Cherm
