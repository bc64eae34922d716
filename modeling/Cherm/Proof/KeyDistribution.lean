/-
**Sharing a group key, member by member.**

One loop goes over the members: each needs a session, got from the vault or from the relay's answer,
and is then sent the key under it. Some outcomes of a member's turn let the loop go on to the next
member, others end it.

* `Ask.desk` plays a task whose world answers as it likes, and changes the vault as it likes, since
  the other task of the server runs while this one waits. What is handed to the link is written
  down.
* `outcome` is what comes of a member's turn; `shareKey_ends` is what the turn then does.
* `outcomes` are those of all turns, each one taken whatever came of the others.
* `bestEffort_iff` is the result: when everyone is sent what their own outcome permits.
-/

import Cherm.Client.Net
import Cherm.Ideal

namespace Cherm

open Crates

/-! ### What comes of a member's turn -/

inductive ShareOutcome where
  | own
  | held
  | usable
  | keyless
  | conflict
  | refused
  | unexpected
  | unanswered
  | undecodable
  | unsealed
  | noDevice
deriving DecidableEq

/-- There is a session, and the key is sent under it. -/
def ShareOutcome.Permits (o : ShareOutcome) : Prop := o = .held ∨ o = .usable

/-- The turn ends in an error. -/
def ShareOutcome.Fails (o : ShareOutcome) : Prop :=
  o = .unanswered ∨ o = .undecodable ∨ o = .unsealed ∨ o = .noDevice

instance (o : ShareOutcome) : Decidable o.Permits := inferInstanceAs (Decidable (_ ∨ _))

instance (o : ShareOutcome) : Decidable o.Fails := inferInstanceAs (Decidable (_ ∨ _))

/-- A failing turn sends nothing. -/
theorem ShareOutcome.Fails.silent {o : ShareOutcome} (fails : o.Fails) : ¬ o.Permits := by
  cases o <;> revert fails <;> decide

/-- Who is sent the key if all these turns are taken. -/
def permitted (turns : List (String × ShareOutcome)) : List String :=
  (turns.filter fun turn => turn.2.Permits).map Prod.fst

/-- The turns before the first one that fails. -/
def untilFailure (turns : List (String × ShareOutcome)) : List (String × ShareOutcome) :=
  turns.takeWhile fun turn => ¬ turn.2.Fails

theorem permitted_cons (turn : String × ShareOutcome) (rest : List (String × ShareOutcome)) :
    permitted (turn :: rest) = (if turn.2.Permits then [turn.1] else []) ++ permitted rest := by
  by_cases permits : turn.2.Permits <;> simp [permitted, permits]

theorem untilFailure_cons (turn : String × ShareOutcome) (rest : List (String × ShareOutcome)) :
    untilFailure (turn :: rest) = if turn.2.Fails then [] else turn :: untilFailure rest := by
  by_cases fails : turn.2.Fails <;> simp [untilFailure, fails]

/-- The turns that are cut off are none that permit. -/
theorem permitted_untilFailure_iff (turns : List (String × ShareOutcome)) :
    permitted (untilFailure turns) = permitted turns ↔
      turns.Pairwise fun earlier later => earlier.2.Fails → ¬ later.2.Permits := by
  induction turns with
  | nil => simp [permitted, untilFailure]
  | cons turn rest ih =>
      rw [untilFailure_cons, permitted_cons, List.pairwise_cons]
      by_cases fails : turn.2.Fails
      · rw [if_pos fails, if_neg fails.silent, List.nil_append]
        have none : [] = permitted rest ↔ ∀ later ∈ rest, ¬ later.2.Permits := by
          rw [eq_comm, permitted, List.map_eq_nil_iff, List.filter_eq_nil_iff]
          simp
        refine none.trans ⟨fun silent => ⟨fun later member _ => silent later member, ?_⟩,
          fun both later member => both.1 later member fails⟩
        exact List.pairwise_of_forall_mem_list fun _ _ later member _ => silent later member
      · rw [if_neg fails, permitted_cons, List.append_cancel_left_eq, ih]
        exact (and_iff_right fun _ _ failed => absurd failed fails).symm

/-- A frame with a group key for a member. -/
def IsShare (groupId member : String) (msg : ClientMsg) : Prop :=
  ∃ payload ts, msg = .send ⟨[member], MsgType.olmGroupKey, payload, some groupId, ts⟩

theorem IsShare.member_eq {groupId member member' : String} {msg : ClientMsg}
    (isShare : IsShare groupId member msg) (isShare' : IsShare groupId member' msg) :
    member = member' := by
  obtain ⟨_, _, rfl⟩ := isShare
  obtain ⟨_, _, same⟩ := isShare'
  cases same
  rfl

/-- Each member whose own turn permits it is sent one frame with the key, in the order of the list,
and nothing else is sent. -/
def BestEffort (groupId : String) (turns : List (String × ShareOutcome)) (sent : List ClientMsg) :
    Prop :=
  List.Forall₂ (IsShare groupId) (permitted turns) sent

/-- What was sent goes to those whose turns come before the first one that fails. -/
theorem bestEffort_sent_iff {groupId : String} {turns : List (String × ShareOutcome)} {sent : List ClientMsg}
    (sends : List.Forall₂ (IsShare groupId) (permitted (untilFailure turns)) sent) :
    BestEffort groupId turns sent ↔
      turns.Pairwise fun earlier later => earlier.2.Fails → ¬ later.2.Permits := by
  rw [← permitted_untilFailure_iff]
  have unique : Relator.LeftUnique (IsShare groupId) := fun _ _ _ => IsShare.member_eq
  constructor
  · intro bestEffort
    exact unique.forall₂ sends bestEffort
  · intro same
    rw [BestEffort, ← same]
    exact sends

section

variable [Crates] {ω : Type}

/-! ### A task and its world -/

/-- What is asked of the world is answered, and the vault may have changed in between. -/
abbrev Env (ω : Type) := (asked : Ask) → Vault × ω → asked.Answer × (Vault × ω)

/-- The machine of a task, with what it handed to the link. -/
def Ask.desk (world : Env ω) : Prog.Machine ((Vault × ω) × List ClientMsg) Ask Ask.Answer
  | .call op, ((v, w), sent) => ((op.exec v).1, ((op.exec v).2, w), sent)
  | .post msg, (s, sent) => ((world (.post msg) s).1, (world (.post msg) s).2, sent ++ [msg])
  | asked, (s, sent) => ((world asked s).1, (world asked s).2, sent)

/-- The link stays open. -/
def LinkOpen (world : Env ω) : Prop := ∀ msg s, (world (.post msg) s).1 = .ok ()

section

variable (world : Env ω) (share : GroupKeyShare)

/-- The key is encrypted in a session. -/
def sealing (good : ShareOutcome) (session : OlmSession) (s : Vault × ω) : ShareOutcome :=
  match session.encrypt (toVec share.toJson) (world .random s).1 with
  | .ok _ => good
  | .error _ => .unsealed

/-- The identity of a bundle is well formed, and no other is pinned. -/
def identityAccepted (v : Vault) (bundle : PrekeyBundle) : Prop :=
  validPubkeyB64 bundle.ed25519 = true ∧ validPubkeyB64 bundle.curve25519 = true ∧
    v.checkIdentity bundle.username bundle.ed25519 ≠ .conflict

instance (v : Vault) (bundle : PrekeyBundle) : Decidable (identityAccepted v bundle) :=
  inferInstanceAs (Decidable (_ ∧ _ ∧ _))

/-- A bundle with a one-time key has come. -/
def opening (device : Device) (bundle : PrekeyBundle) (otk : String) (s : Vault × ω) :
    ShareOutcome :=
  if identityAccepted s.1 bundle then
    let s := (s.1.upsertContact bundle.username bundle.uuid bundle.ed25519 bundle.curve25519, s.2)
    match device.startSession bundle.curve25519 otk (world .random s).1 with
    | .ok session => sealing world share .usable session (world .random s).2
    | .error _ => .undecodable
  else .conflict

/-- What comes of a member's turn, from the vault and the answers of the world. -/
def outcome (me member : String) (s : Vault × ω) : ShareOutcome :=
  if member = me then .own
  else match s.1.loadOlm member, s.1.account with
    | some session, _ => sealing world share .held session s
    | none, none => .noDevice
    | none, some device =>
        match world (.request (.fetchPrekeys member)) s with
        | (.error _, _) => .unanswered
        | (.ok (.prekeyBundle bundle), s) =>
            match bundle.oneTimeKey with
            | some otk => opening world share device bundle otk s
            | none => .keyless
        | (.ok (.error _ _), _) => .refused
        | (.ok _, _) => .unexpected

end

/-! ### What a turn does -/

variable {world : Env ω} {share : GroupKeyShare} {me groupId member : String} {now : Int}

/-- How a turn ends, and what it handed to the link. -/
inductive Ends (groupId member : String) :
    ShareOutcome → Except String Unit → List ClientMsg → Prop where
  | shares {o : ShareOutcome} (permits : o.Permits) {msg : ClientMsg}
      (isShare : IsShare groupId member msg) : Ends groupId member o (.ok ()) [msg]
  | skips {o : ShareOutcome} (silent : ¬ o.Permits) (goesOn : ¬ o.Fails) :
      Ends groupId member o (.ok ()) []
  | fails {o : ShareOutcome} (fails : o.Fails) (error : String) :
      Ends groupId member o (.error error) []

/-- What comes of the search for a session. -/
def FoundSession (world : Env ω) (share : GroupKeyShare) (o : ShareOutcome) :
    Except String (Option OlmSession) → Vault × ω → Prop
  | .ok (some session), s =>
      ∃ good : ShareOutcome, good.Permits ∧ o = sealing world share good session s
  | .ok none, _ => ¬ o.Permits ∧ ¬ o.Fails
  | .error _, _ => o.Fails

@[simp] theorem run_call {α : Type} (op : VaultOp) (next : op.Result → Client α) (s : Vault × ω)
    (sent : List ClientMsg) :
    Prog.run (Ask.desk world) (.ask (.call op) next) (s, sent) =
      Prog.run (Ask.desk world) (next (op.exec s.1).1) (((op.exec s.1).2, s.2), sent) := rfl

@[simp] theorem run_post {α : Type} (msg : ClientMsg) (next : Except String Unit → Client α)
    (s : Vault × ω) (sent : List ClientMsg) :
    Prog.run (Ask.desk world) (.ask (.post msg) next) (s, sent) =
      Prog.run (Ask.desk world) (next (world (.post msg) s).1)
        ((world (.post msg) s).2, sent ++ [msg]) := rfl

@[simp] theorem run_request {α : Type} (msg : ClientMsg)
    (next : Except String ServerMsg → Client α) (s : Vault × ω) (sent : List ClientMsg) :
    Prog.run (Ask.desk world) (.ask (.request msg) next) (s, sent) =
      Prog.run (Ask.desk world) (next (world (.request msg) s).1)
        ((world (.request msg) s).2, sent) := rfl

@[simp] theorem run_emit {α : Type} (event : Event) (next : Unit → Client α)
    (s : Vault × ω) (sent : List ClientMsg) :
    Prog.run (Ask.desk world) (.ask (.emit event) next) (s, sent) =
      Prog.run (Ask.desk world) (next ()) ((world (.emit event) s).2, sent) := rfl

@[simp] theorem run_random {α : Type} (next : Seed → Client α) (s : Vault × ω)
    (sent : List ClientMsg) :
    Prog.run (Ask.desk world) (.ask .random next) (s, sent) =
      Prog.run (Ask.desk world) (next (world .random s).1) ((world .random s).2, sent) := rfl

/-- What is done with a bundle. -/
def sessionFrom (peer : String) (device : Device) (bundle : PrekeyBundle) :
    Client (Option OlmSession) :=
  match bundle.oneTimeKey with
  | some otk => do
      if !(← Client.acceptIdentity bundle.username bundle.uuid bundle.ed25519
          bundle.curve25519) then
        return none
      let seed ← Client.random
      let session ← Client.lift (device.startSession bundle.curve25519 otk seed)
      return some session
  | none => do
      Client.emit (.error ErrCode.noPrekeys (peer ++ " has no one-time keys; skipped"))
      return none

theorem run_acceptIdentity_of_accepted {bundle : PrekeyBundle} {s : Vault × ω}
    (accepts : identityAccepted s.1 bundle) (sent : List ClientMsg) :
    Prog.run (Ask.desk world) (Client.acceptIdentity bundle.username bundle.uuid bundle.ed25519
      bundle.curve25519) (s, sent) = (.ok true, (s.1.upsertContact bundle.username bundle.uuid
        bundle.ed25519 bundle.curve25519, s.2), sent) := by
  obtain ⟨ed, curve, pinned⟩ := accepts
  cases check : s.1.checkIdentity bundle.username bundle.ed25519 with
  | conflict => exact absurd check pinned
  | _ => simp [Client.acceptIdentity, ed, curve, VaultOp.exec, check, Prog.run]

theorem run_acceptIdentity_of_not (world : Env ω) {bundle : PrekeyBundle} {s : Vault × ω}
    (refused : ¬ identityAccepted s.1 bundle) (sent : List ClientMsg) :
    ∃ s', Prog.run (Ask.desk world) (Client.acceptIdentity bundle.username bundle.uuid
      bundle.ed25519 bundle.curve25519) (s, sent) = (.ok false, s', sent) := by
  unfold Client.acceptIdentity
  split
  · exact ⟨_, rfl⟩
  · next valid =>
    have valid : validPubkeyB64 bundle.ed25519 = true ∧
        validPubkeyB64 bundle.curve25519 = true := by simpa using valid
    have conflict : s.1.checkIdentity bundle.username bundle.ed25519 = .conflict :=
      not_not.mp fun pinned => refused ⟨valid.1, valid.2, pinned⟩
    simp [VaultOp.exec, conflict, Prog.run]

theorem postOlm_ends (linked : LinkOpen world) {good : ShareOutcome} (permits : good.Permits)
    (session : OlmSession) (s : Vault × ω) (sent : List ClientMsg) :
    ∃ result s' posts, Prog.run (Ask.desk world) (Client.postOlm session member MsgType.olmGroupKey
        (toVec share.toJson) (some groupId) now) (s, sent) = (result, s', sent ++ posts) ∧
      Ends groupId member (sealing world share good session s) result posts := by
  unfold sealing Client.postOlm
  cases encrypted : session.encrypt (toVec share.toJson) (world .random s).1 with
  | error error =>
      refine ⟨.error error, (world .random s).2, [], ?_, .fails (.inr (.inr (.inl rfl))) error⟩
      simp [encrypted, Prog.run]
  | ok sealed =>
      obtain ⟨⟨olmType, body⟩, session'⟩ := sealed
      simp only [Prog.bind_eq, Client.random_eq, Client.lift_eq, Prog.ask_bind, Prog.done_bind,
        run_random, encrypted, Prog.ofExcept_ok, Client.call_eq, run_call, Client.post_eq, run_post]
      rw [linked]
      exact ⟨_, _, [_], rfl, .shares permits ⟨encodeOlm olmType body, now, rfl⟩⟩

/-- A bundle has come. -/
theorem bundle_holds (device : Device) (bundle : PrekeyBundle) (s : Vault × ω)
    (sent : List ClientMsg) :
    ∃ result s', Prog.run (Ask.desk world) (sessionFrom member device bundle) (s, sent) =
        (result, s', sent) ∧
      FoundSession world share (match bundle.oneTimeKey with
        | some otk => opening world share device bundle otk s
        | none => .keyless) result s' := by
  unfold sessionFrom
  cases bundle.oneTimeKey with
  | none =>
      exact ⟨_, _, rfl, show ¬ ShareOutcome.keyless.Permits by decide,
        show ¬ ShareOutcome.keyless.Fails by decide⟩
  | some otk =>
      simp only [opening]
      by_cases accepts : identityAccepted s.1 bundle
      · rw [if_pos accepts, Prog.bind_eq, Prog.run_bind, run_acceptIdentity_of_accepted accepts]
        generalize (s.1.upsertContact bundle.username bundle.uuid bundle.ed25519 bundle.curve25519,
          s.2) = s₁
        cases started : device.startSession bundle.curve25519 otk (world .random s₁).1 with
        | error error =>
            simp only [Bool.not_true, Bool.false_eq_true, if_false, Prog.bind_eq,
              Client.random_eq, Prog.ask_bind, Prog.done_bind, run_random, Client.lift_eq, started,
              Prog.ofExcept_error, Prog.fail_bind]
            exact ⟨_, _, rfl, .inr (.inl rfl)⟩
        | ok session =>
            simp only [Bool.not_true, Bool.false_eq_true, if_false, Prog.bind_eq,
              Client.random_eq, Prog.ask_bind, Prog.done_bind, run_random, Client.lift_eq, started,
              Prog.ofExcept_ok]
            exact ⟨_, _, rfl, .usable, .inr rfl, rfl⟩
      · rw [if_neg accepts, Prog.bind_eq, Prog.run_bind]
        obtain ⟨s₁, ran⟩ := run_acceptIdentity_of_not world accepts sent
        rw [ran]
        exact ⟨_, _, rfl, show ¬ ShareOutcome.conflict.Permits by decide,
          show ¬ ShareOutcome.conflict.Fails by decide⟩

theorem ensureOlm_holds (world : Env ω) (share : GroupKeyShare) (other : member ≠ me)
    (s : Vault × ω) (sent : List ClientMsg) :
    ∃ result s', Prog.run (Ask.desk world) (Client.ensureOlm member) (s, sent) =
        (result, s', sent) ∧
      FoundSession world share (outcome world share me member s) result s' := by
  unfold Client.ensureOlm outcome
  rw [if_neg other]
  cases held : s.1.loadOlm member with
  | some session =>
      simp only [Prog.bind_eq, Client.call_eq, Prog.ask_bind, Prog.done_bind, run_call,
        VaultOp.exec, held]
      exact ⟨_, _, rfl, .held, .inl rfl, rfl⟩
  | none =>
      cases account : s.1.account with
      | none =>
          simp only [Prog.bind_eq, Client.call_eq, Prog.ask_bind, Prog.done_bind, run_call,
            VaultOp.exec, held, account, Client.okOr_none, Prog.fail_bind]
          exact ⟨_, _, rfl, .inr (.inr (.inr rfl))⟩
      | some device =>
          simp only [Prog.bind_eq, Client.call_eq, Prog.ask_bind, Prog.done_bind, run_call,
            VaultOp.exec, held, account, Client.okOr_some, Client.request_eq, run_request]
          obtain ⟨reply, s₁⟩ := world (.request (.fetchPrekeys member)) s
          cases reply with
          | error error => exact ⟨_, _, rfl, .inl rfl⟩
          | ok msg =>
              cases msg with
              | prekeyBundle bundle => exact bundle_holds device bundle s₁ sent
              | error code message =>
                  exact ⟨_, _, rfl, show ¬ ShareOutcome.refused.Permits by decide,
                    show ¬ ShareOutcome.refused.Fails by decide⟩
              | _ =>
                  exact ⟨_, _, rfl, show ¬ ShareOutcome.unexpected.Permits by decide,
                    show ¬ ShareOutcome.unexpected.Fails by decide⟩

/-- **One turn.** -/
theorem shareKey_ends (linked : LinkOpen world) (me groupId member : String)
    (share : GroupKeyShare) (now : Int) (s : Vault × ω) (sent : List ClientMsg) :
    ∃ result s' posts, Prog.run (Ask.desk world) (Client.shareKey me groupId share now member)
        (s, sent) = (result, s', sent ++ posts) ∧
      Ends groupId member (outcome world share me member s) result posts := by
  unfold Client.shareKey
  by_cases own : member = me
  · rw [if_pos own, outcome, if_pos own]
    refine ⟨.ok (), s, [], ?_, .skips (by decide) (by decide)⟩
    rw [List.append_nil]
    rfl
  · rw [if_neg own, Prog.bind_eq, Prog.run_bind]
    obtain ⟨result, s', ran, holds⟩ := ensureOlm_holds world share own s sent
    rw [ran]
    match result, holds with
    | .error error, fails =>
        refine ⟨.error error, s', [], ?_, .fails fails error⟩
        rw [List.append_nil]
    | .ok none, ⟨silent, goesOn⟩ =>
        refine ⟨.ok (), s', [], ?_, .skips silent goesOn⟩
        rw [List.append_nil]
        rfl
    | .ok (some session), ⟨good, permits, same⟩ =>
        rw [same]
        exact postOlm_ends linked permits session s' sent

/-! ### All turns -/

/-- The outcomes of the turns of the loop: whatever comes of one, the next is taken. -/
def outcomes (world : Env ω) (me groupId : String) (share : GroupKeyShare) (now : Int) :
    List String → (Vault × ω) × List ClientMsg → List (String × ShareOutcome)
  | [], _ => []
  | member :: rest, state =>
      (member, outcome world share me member state.1) ::
        outcomes world me groupId share now rest
          (Prog.run (Ask.desk world) (Client.shareKey me groupId share now member) state).2

/-- **The loop ends with the first turn that fails**, by induction on the members. -/
theorem forEach_sends (linked : LinkOpen world) (me groupId : String) (share : GroupKeyShare)
    (now : Int) (recipients : List String) (s : Vault × ω) (sent : List ClientMsg) :
    ∃ result s' posts, Prog.run (Ask.desk world)
        (Prog.forEach recipients (Client.shareKey me groupId share now)) (s, sent) =
        (result, s', sent ++ posts) ∧
      List.Forall₂ (IsShare groupId)
        (permitted (untilFailure (outcomes world me groupId share now recipients (s, sent))))
        posts := by
  induction recipients generalizing s sent with
  | nil => exact ⟨.ok (), s, [], by rw [List.append_nil]; rfl, .nil⟩
  | cons member rest ih =>
      obtain ⟨result, s', posts, ran, ends⟩ :=
        shareKey_ends linked me groupId member share now s sent
      rw [Prog.forEach_cons, Prog.run_bind, outcomes, ran, untilFailure_cons]
      obtain ⟨result', s'', later, ran', sends⟩ := ih s' (sent ++ posts)
      cases ends with
      | shares permits isShare =>
          rw [if_neg fun fails => fails.silent permits, permitted_cons, if_pos permits]
          rw [List.append_assoc, List.singleton_append] at ran'
          exact ⟨result', s'', _, ran', .cons isShare sends⟩
      | skips silent goesOn =>
          rw [if_neg goesOn, permitted_cons, if_neg silent]
          refine ⟨result', s'', later, ?_, sends⟩
          rw [List.append_nil] at ran' ⊢
          exact ran'
      | fails fails error =>
          rw [if_pos fails]
          exact ⟨.error error, s', [], rfl, .nil⟩

/-! ### The whole distribution -/

/-- What the members are sent. -/
def shareFor (v : Vault) (device : Device) (groupId name : String) (sender : GroupSender) :
    GroupKeyShare where
  groupId := groupId
  name := name
  sessionKey := sender.sessionKeyB64
  senderCurve := device.curve25519B64
  members := v.getMembers groupId
  owner := (v.getGroupMeta groupId).elim "" GroupMeta.owner
  accessMode := (v.getGroupMeta groupId).elim AccessMode.open GroupMeta.accessMode
  groupKey := (v.getGroupMeta groupId).elim "" GroupMeta.groupKey

/-- What comes of each member's own turn, whatever comes of the others. Without a device there is
nothing to share. -/
def turnsOf (world : Env ω) (me groupId name : String) (recipients : List String)
    (sender : GroupSender) (s : Vault × ω) : List (String × ShareOutcome) :=
  match s.1.account with
  | none => recipients.map fun member => (member, .noDevice)
  | some device => outcomes world me groupId (shareFor s.1 device groupId name sender)
      (world .now s).1 recipients ((world .now s).2, [])

/-- **When the distribution is best-effort.** Whatever the vault, the list of members and the
answers of the world, as long as the link is open: every member other than me whose own turn permits
it is sent the key once, and nobody else is sent anything, exactly if no turn that fails comes
before one that permits. A turn fails if the relay does not answer, or answers with a one-time key
that no session can be started from, or if the encryption fails. -/
theorem bestEffort_iff (linked : LinkOpen world) (me groupId name : String)
    (recipients : List String) (sender : GroupSender) (s : Vault × ω) :
    BestEffort groupId (turnsOf world me groupId name recipients sender s)
        (Prog.run (Ask.desk world) (Client.distributeGroupKey me groupId name recipients sender)
          (s, [])).2.2 ↔
      (turnsOf world me groupId name recipients sender s).Pairwise
        fun earlier later => earlier.2.Fails → ¬ later.2.Permits := by
  refine bestEffort_sent_iff ?_
  unfold Client.distributeGroupKey turnsOf
  cases account : s.1.account with
  | none =>
      have none : ∀ members : List String,
          permitted (untilFailure (members.map fun member => (member, .noDevice))) = [] := by
        intro members
        cases members <;> rfl
      simp only [Prog.bind_eq, Client.call_eq, Prog.ask_bind, Prog.done_bind, run_call,
        VaultOp.exec, account, Client.okOr_none, Prog.fail_bind, none]
      exact .nil
  | some device =>
      obtain ⟨result, s', posts, ran, sends⟩ := forEach_sends linked me groupId
        (shareFor s.1 device groupId name sender) (world .now s).1 recipients (world .now s).2 []
      simp only [Prog.bind_eq, Client.call_eq, Prog.ask_bind, Prog.done_bind, run_call,
        VaultOp.exec, account, Client.okOr_some, Client.now_eq]
      show List.Forall₂ _ _ (Prog.run (Ask.desk world) (Prog.forEach recipients
        (Client.shareKey me groupId (shareFor s.1 device groupId name sender) (world .now s).1))
          ((world .now s).2, [])).2.2
      rw [ran]
      exact sends

end

namespace Ideal

/-- A relay that is silent about everyone, and an open link. -/
def muteRelay : Env Unit
  | .call op, s => ((op.exec s.1).1, s)
  | .request _, s => (.error "server timed out (no reply within 30s)", s)
  | .post _, s => (.ok (), s)
  | .emit _, s => ((), s)
  | .now, s => ((0 : Int), s)
  | .random, s => ((0 : Nat), s)
  | .connect _, s => (.ok (), s)
  | .readFile _, s => (.error "", s)
  | .writeBackup .., s => (.error "", s)
  | .saveIndex, s => (.ok (), s)

/-- Alice has a session with Carol, and none with Bob. -/
def carolHeld : Vault :=
  (Vault.empty.saveAccount (newAccount 1)).saveOlm "carol"
    (createOutbound (newAccount 1) (publicKey 2 3) (publicKey 3 300) 7)

/-- The relay does not answer for Bob, who comes last: Carol is sent the key all the same. -/
theorem carolFirst_distributed :
    turnsOf muteRelay "alice" "g" "chess" ["carol", "bob"] (GroupSender.new 5) (carolHeld, ()) =
      [("carol", .held), ("bob", .unanswered)] ∧
    permitted [("carol", .held), ("bob", .unanswered)] = ["carol"] ∧
    BestEffort "g" [("carol", .held), ("bob", .unanswered)]
      (Prog.run (Ask.desk muteRelay) (Client.distributeGroupKey "alice" "g" "chess"
        ["carol", "bob"] (GroupSender.new 5)) ((carolHeld, ()), [])).2.2 := by
  have turns : turnsOf muteRelay "alice" "g" "chess" ["carol", "bob"] (GroupSender.new 5)
      (carolHeld, ()) = [("carol", .held), ("bob", .unanswered)] := rfl
  have linked : LinkOpen muteRelay := fun _ _ => rfl
  have bestEffort := bestEffort_iff linked "alice" "g" "chess" ["carol", "bob"] (GroupSender.new 5)
    (carolHeld, ())
  rw [turns] at bestEffort
  refine ⟨turns, by decide, bestEffort.mpr ?_⟩
  decide

/-- **One silence, and nobody after it gets the key.** The relay does not answer for Bob, and Carol,
with whom there is a session, is not sent the key. -/
theorem carol_skipped :
    ¬ ∀ (world : Env Unit) (me groupId name : String) (recipients : List String)
      (sender : GroupSender) (v : Vault), LinkOpen world → recipients.Nodup →
      BestEffort groupId (turnsOf world me groupId name recipients sender (v, ()))
        (Prog.run (Ask.desk world) (Client.distributeGroupKey me groupId name recipients sender)
          ((v, ()), [])).2.2 := by
  intro law
  have bestEffort := law muteRelay "alice" "g" "chess" ["bob", "carol"] (GroupSender.new 5)
    carolHeld (fun _ _ => rfl) (by decide)
  have sent : (Prog.run (Ask.desk muteRelay) (Client.distributeGroupKey "alice" "g" "chess"
      ["bob", "carol"] (GroupSender.new 5)) ((carolHeld, ()), [])).2.2 = [] := rfl
  have turns : turnsOf muteRelay "alice" "g" "chess" ["bob", "carol"] (GroupSender.new 5)
      (carolHeld, ()) = [("bob", .unanswered), ("carol", .held)] := rfl
  rw [sent, turns] at bestEffort
  cases bestEffort

end Ideal

end Cherm
