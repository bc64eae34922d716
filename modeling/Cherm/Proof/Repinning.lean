/-
**Leaving a chat to re-pin its peer.**

When a bundle carries another identity key than the pinned one, `acceptIdentity` tells the user to
leave the chat to re-pin. `deleteChat` deletes the session with the peer, but not the contact row,
and no call takes a pinned key back (`runs_pinned`).

* `runs_leaveChat` — a leave that completes deletes the session exactly if there was a chat.
* `repins_iff` — so after it, the peer's bundle is accepted and `startDm` opens a session with its
  keys exactly if the bundle carries the old key, and there was a chat or no session.
-/

import Cherm.Client.CommandAsks
import Cherm.Proof.PinnedKey

namespace Cherm

open Crates Client

section

variable [Crates]

/-! ### The law -/

/-- A bundle of the peer that a client can use: both identity keys are keys, and a session can be
opened to the one-time key. -/
structure PrekeyBundle.Usable (bundle : PrekeyBundle) (peer : String) (device : Device)
    (otk : String) : Prop where
  named : bundle.username = peer
  ed25519 : validPubkeyB64 bundle.ed25519 = true
  curve25519 : validPubkeyB64 bundle.curve25519 = true
  oneTimeKey : bundle.oneTimeKey = some otk
  opens : ∀ seed, ∃ session, device.startSession bundle.curve25519 otk seed = .ok session

/-- The relay answers with this bundle. -/
def Ask.AnswersWith (bundle : PrekeyBundle) : (asked : Ask) → asked.Answer → Prop
  | .request (.fetchPrekeys _), reply => reply = .ok (.prekeyBundle bundle)
  | _, _ => True

/-- A session with the keys of the bundle is stored: it was made in this run, and is there at the
end. -/
def Established (peer : String) (device : Device) (bundle : PrekeyBundle) (otk : String)
    (v : Vault) (log : List Ask) : Prop :=
  ∃ seed session, device.startSession bundle.curve25519 otk seed = .ok session ∧
    .call (.saveOlm peer session) ∈ log ∧ v.loadOlm peer = some session

/-- **The law**: the bundle is accepted, and starting a DM stores a session with its keys. -/
structure Repins (app : App) (peer : String) (device : Device) (bundle : PrekeyBundle)
    (otk : String) (v : Vault) : Prop where
  accepts : ∀ result v', Prog.Runs Ask.effect
    (acceptIdentity bundle.username bundle.uuid bundle.ed25519 bundle.curve25519) v result v' →
      result = .ok true
  starts : ∀ result state, Prog.Runs (Prog.logged (Ask.effectIf (Ask.AnswersWith bundle)))
    (startDm app peer) (v, []) result state → Established peer device bundle otk state.1 state.2

/-- There is a chat that `leaveChat` deletes. -/
def HasChat (v : Vault) (chat : String) : Prop :=
  ∃ kind title, v.getChat chat = some (kind, title) ∧ (kind = "dm" ∨ kind = "group")

/-- The user is registered on a server with a live link, and the peer is somebody else. -/
structure Linked (app : App) (v : Vault) (peer : String) (device : Device) : Prop where
  server : app.active.isSome
  linked : app.linked = true
  registered : ∃ me, v.metaGet "username" = some me ∧ peer ≠ me
  account : v.account = some device

/-! ### What stays -/

/-- No call takes a pinned key back. -/
theorem exec_pinned {v : Vault} {peer pinned : String} (isPinned : v.getContactEd peer = some pinned)
    (nonempty : pinned ≠ "") (op : VaultOp) : (op.exec v).2.getContactEd peer = some pinned := by
  by_cases writes : op.Writes .contacts peer
  · cases op with
    | upsertContact username uuid ed25519 curve25519 =>
        obtain ⟨_, rfl⟩ := writes
        exact v.upsertContact_pinned isPinned nonempty _ _ _
    | _ => revert writes; simp [VaultOp.Writes, VaultPart.ofChat]
  · have same : (op.exec v).2.contacts.get peer = v.contacts.get peer :=
      op.exec_frame v .contacts peer writes
    unfold Vault.getContactEd at isPinned ⊢
    rw [same, isPinned]

/-- No program takes a pinned key back. -/
theorem runs_pinned {α : Type} {prog : Client α} {v v' : Vault} {result : Except String α}
    {peer pinned : String} (runs : Prog.Runs Ask.effect prog v result v')
    (isPinned : v.getContactEd peer = some pinned) (nonempty : pinned ≠ "") :
    v'.getContactEd peer = some pinned := by
  induction runs with
  | done value v => exact isPinned
  | fail error v => exact isPinned
  | @ask asked next v mid v' answer result made rest ih =>
      refine ih ?_
      cases asked with
      | call op =>
          have same : (answer, mid) = op.exec v := made
          obtain ⟨rfl, rfl⟩ := Prod.mk.inj same
          exact exec_pinned isPinned nonempty op
      | _ =>
          obtain ⟨_, rfl⟩ := made
          exact isPinned

/-! ### Leaving -/

/-- Neither the account nor our name. -/
def NotOurs (part : VaultPart) (_ : String) : Prop := part ≠ .account ∧ part ≠ .meta

/-- Leaving a chat touches neither the account nor our name. -/
theorem calls_leaveChat (app : App) (chat : String) :
    Prog.Calls (Ask.May NotOurs (fun _ _ => True) (fun _ => True)) (leaveChat app chat) := by
  refine (calls_activeServer app).bind fun server => ?_
  cases server with
  | none => trivial
  | some server =>
      refine calls_ownUsername.bind fun me => ?_
      cases me with
      | none => trivial
      | some me =>
          refine (calls_knownChat chat).bind fun row => ?_
          rcases row with _ | ⟨kind, title⟩
          · trivial
          · refine calls_now.bind fun now => ?_
            split
            · exact (calls_emit _).bind fun _ => trivial
            · have ours : ∀ part, part ≠ .account ∧ part ≠ .meta → ∀ id, NotOurs part id :=
                fun _ other _ => other
              refine (calls_leaveNotice (ours _ (by decide)) (ours _ (by decide))
                (ours .groupOut (by decide) chat) (fun _ => trivial) app me kind title now).bind
                  fun _ => ?_
              have deletes : Prog.Calls (Ask.May NotOurs (fun _ _ => True) (fun _ => True))
                  (call (.deleteChat chat)) := by
                refine ⟨⟨fun part id writes => ?_, by trivial⟩, fun _ => trivial⟩
                obtain ⟨ofChat, _⟩ := writes
                constructor <;> rintro rfl <;> revert ofChat <;> decide
              exact deletes.bind fun _ => (calls_emitChats _).bind fun _ => calls_emit _

/-- **What a completed leave did**: with a chat, the session with the peer of its name is gone;
without one, nothing happened. -/
theorem runs_leaveChat {app : App} {chat : String} {v v' : Vault} {server me : String}
    (active : app.active = some server) (registered : v.metaGet "username" = some me)
    (left : Prog.Runs Ask.effect (leaveChat app chat) v (.ok ()) v') :
    (HasChat v chat → v'.loadOlm chat = none) ∧ (¬ HasChat v chat → v' = v) := by
  have holds : Prog.wp (Ask.spec (fun _ _ => True) fun _ _ => True)
      (fun result v' => result = .ok () →
        (HasChat v chat → v'.loadOlm chat = none) ∧ (¬ HasChat v chat → v' = v))
      (leaveChat app chat) v := by
    unfold leaveChat activeServer ownUsername knownChat
    simp only [active, Prog.pure_eq, Prog.bind_eq, Prog.done_bind, call_eq, Prog.ask_bind, wp_call,
      VaultOp.exec, registered, true_and]
    cases row : v.getChat chat with
    | none =>
        have noChat : ¬ HasChat v chat := by
          rintro ⟨kind, title, isRow, _⟩
          rw [row] at isRow
          cases isRow
        simp [wp_world, noChat]
    | some found =>
        obtain ⟨kind, title⟩ := found
        simp only [Prog.done_bind, now_eq, Prog.ask_bind, wp_world, true_and]
        intro now _
        by_cases other : ¬ kind = "dm" ∧ ¬ kind = "group"
        · have noChat : ¬ HasChat v chat := by
            rintro ⟨kind', title', isRow, known⟩
            obtain ⟨rfl, rfl⟩ := Prod.mk.inj (Option.some.inj (row.symm.trans isRow))
            exact known.elim other.1 other.2
          simp [other, wp_world, noChat]
        · have chatHere : HasChat v chat := ⟨kind, title, row, by tauto⟩
          have known : (decide (kind ≠ "dm") && decide (kind ≠ "group")) = false := by
            simpa using other
          simp only [known, if_false, Bool.false_eq_true]
          rw [Prog.wp_bind]
          refine Prog.wp_mono (fun noticed mid _ => ?_) (Prog.wp_free_iff.mpr fun _ _ _ => trivial :
            Prog.wp (.free Ask.effect) (fun _ _ => True)
              (leaveNotice app me chat kind title now) v)
          cases noticed with
          | error e => exact fun failed => by cases failed
          | ok u =>
              have gone : (mid.deleteChat chat).loadOlm chat = none :=
                (Table.get_erase _ _ _).trans (if_pos rfl)
              unfold emitChats
              simp [wp_call, wp_world, VaultOp.exec, gone, chatHere]
  exact left.ends holds rfl

/-! ### Accepting -/

theorem checkIdentity_pinned {v : Vault} {peer pinned ed25519 : String}
    (isPinned : v.getContactEd peer = some pinned) (nonempty : pinned ≠ "") :
    v.checkIdentity peer ed25519 = if ed25519 = pinned then .match else .conflict := by
  unfold Vault.checkIdentity
  rw [isPinned]
  simp only [nonempty, if_false]
  by_cases same : ed25519 = pinned
  · rw [if_pos same, if_pos same.symm]
  · rw [if_neg same, if_neg (Ne.symm same)]

variable {bundle : PrekeyBundle} {peer pinned otk : String} {device : Device}

/-- A usable bundle is accepted exactly if it carries the pinned key. -/
theorem accepts_iff {v : Vault} (usable : bundle.Usable peer device otk)
    (isPinned : v.getContactEd peer = some pinned) (nonempty : pinned ≠ "") :
    (∀ result v', Prog.Runs Ask.effect
      (acceptIdentity bundle.username bundle.uuid bundle.ed25519 bundle.curve25519) v result v' →
        result = .ok true) ↔ bundle.ed25519 = pinned := by
  have checked : v.checkIdentity peer bundle.ed25519
      = if bundle.ed25519 = pinned then .match else .conflict :=
    checkIdentity_pinned isPinned nonempty
  rw [usable.named, ← Prog.wp_free_iff]
  unfold acceptIdentity
  simp only [usable.ed25519, usable.curve25519, Bool.not_true, Bool.or_self, Bool.false_eq_true,
    if_false, Prog.pure_eq, Prog.bind_eq, Prog.done_bind, call_eq, Prog.ask_bind]
  show Prog.wp (Ask.spec (fun _ _ => True) fun _ _ => True) _ _ v ↔ _
  simp only [wp_call, VaultOp.exec, true_and, checked]
  by_cases same : bundle.ed25519 = pinned
  · simp [same, wp_call]
  · simp [same, wp_world]

/-! ### Starting again -/

/-- What `openDm` writes. -/
def DmRows (part : VaultPart) (_ : String) : Prop := part = .chats ∨ part = .chatMembers

theorem calls_openDm_rows (server me peer : String) :
    Prog.Calls (Ask.May DmRows (fun _ _ => True) (fun _ => True)) (openDm server me peer) :=
  calls_openDm (.inl rfl) trivial (.inr rfl) server me

/-- Requests that write no session are no `saveOlm`. -/
theorem not_saveOlm {kinds : String → String → Prop} {sends : SendMsg → Prop} {asked : Ask}
    (may : asked.May DmRows kinds sends) (session : OlmSession) :
    asked ≠ .call (.saveOlm peer session) := by
  rintro rfl
  obtain here | here := may.1 .olmSessions peer ⟨rfl, rfl⟩ <;> cases here

/-- With a session stored, starting a DM makes no new one. -/
theorem startDm_holds {app : App} {v : Vault} {held : OlmSession}
    (linked : Linked app v peer device) (stored : v.loadOlm peer = some held) :
    Prog.wp (.free (Prog.logged (Ask.effectIf (Ask.AnswersWith bundle))))
      (fun _ state => ∀ session, .call (.saveOlm peer session) ∉ state.2) (startDm app peer)
      (v, []) := by
  obtain ⟨server, active⟩ := Option.isSome_iff_exists.mp linked.server
  obtain ⟨me, registered, other⟩ := linked.registered
  unfold startDm activeServer ownUsername activeLink startDmSession
  simp only [active, linked.linked, Prog.pure_eq, Prog.bind_eq, Prog.done_bind, call_eq,
    Prog.ask_bind, wp_logged_call, VaultOp.exec, registered, other, if_false, Option.isSome_some,
    Bool.and_self, if_true, Bool.not_true, Bool.false_eq_true, stored]
  refine (calls_openDm_rows server me peer).wp (fun _ _ _ _ => trivial)
    (fun asked state answer state' may unsaved made session written => ?_) ?_
  · rw [made.2] at written
    rcases List.mem_cons.mp written with here | earlier
    · exact not_saveOlm may session here.symm
    · exact unsaved session earlier
  · intro session written
    simp at written

/-- **Without a session, a bundle with the pinned key establishes one.** -/
theorem startDm_establishes {app : App} {v : Vault} (linked : Linked app v peer device)
    (usable : bundle.Usable peer device otk) (isPinned : v.getContactEd peer = some bundle.ed25519)
    (nonempty : bundle.ed25519 ≠ "") (noSession : v.loadOlm peer = none) :
    Prog.wp (.free (Prog.logged (Ask.effectIf (Ask.AnswersWith bundle))))
      (fun _ state => Established peer device bundle otk state.1 state.2) (startDm app peer)
      (v, []) := by
  obtain ⟨server, active⟩ := Option.isSome_iff_exists.mp linked.server
  obtain ⟨me, registered, other⟩ := linked.registered
  have checked : v.checkIdentity peer bundle.ed25519 = .match := by
    rw [checkIdentity_pinned isPinned nonempty, if_pos rfl]
  unfold startDm activeServer ownUsername activeLink startDmSession acceptIdentity
  simp only [active, linked.linked, Prog.pure_eq, Prog.bind_eq, Prog.done_bind, call_eq,
    Prog.ask_bind, wp_logged_call, VaultOp.exec, registered, other, if_false, Option.isSome_some,
    Bool.and_self, if_true, Bool.not_true, Bool.false_eq_true, noSession, Option.isSome_none,
    request_eq, wp_logged_world]
  rintro reply rfl
  simp only [Prog.ofExcept_ok, Prog.done_bind, usable.oneTimeKey, usable.named, usable.ed25519,
    usable.curve25519, Bool.not_true, Bool.or_self, Bool.false_eq_true, if_false, Prog.ask_bind,
    wp_logged_call, VaultOp.exec, checked]
  have account : (v.upsertContact peer bundle.uuid bundle.ed25519 bundle.curve25519).account
      = some device := linked.account
  simp only [account, okOr_some, Prog.done_bind, random_eq, Prog.ask_bind, wp_logged_world]
  intro seed _
  obtain ⟨session, opened⟩ := usable.opens seed
  simp only [opened, lift_eq, Prog.ofExcept_ok, Prog.done_bind, Prog.ask_bind, wp_logged_call,
    VaultOp.exec, Bool.not_true, Bool.false_eq_true, if_false]
  -- the chat that is opened now leaves the session alone
  refine Prog.wp_mono (fun _ _ kept => ⟨seed, session, opened, kept⟩) ?_
  refine (calls_openDm_rows server me peer).wp (fun _ _ _ _ => trivial)
    (fun asked state answer state' may before made => ?_) ⟨List.mem_cons_self, ?_⟩
  · have outside : ¬ DmRows .olmSessions peer := by rintro (here | here) <;> cases here
    have same : VaultPart.olmSessions.SameAt peer state.1 state'.1 := may.frame outside made.1
    refine ⟨?_, Eq.trans same before.2⟩
    rw [made.2]
    exact List.mem_cons_of_mem _ before.1
  · exact (Table.get_put _ _ _ _).trans (if_pos rfl)

/-! ### The law, exactly -/

theorem answersWith_total (bundle : PrekeyBundle) (asked : Ask) (v : Vault) :
    ∃ answer v', Ask.effectIf (Ask.AnswersWith bundle) asked v answer v' := by
  refine Ask.effectIf_total (fun asked world => ?_) asked v
  cases asked with
  | call op => exact absurd rfl (world.noCall op)
  | request msg =>
      cases msg with
      | fetchPrekeys peer => exact ⟨.ok (.prekeyBundle bundle), rfl⟩
      | _ => exact ⟨.error "", trivial⟩
  | connect addr => exact ⟨.ok (), trivial⟩
  | post msg => exact ⟨.ok (), trivial⟩
  | emit event => exact ⟨(), trivial⟩
  | now => exact ⟨(0 : Int), trivial⟩
  | random => exact ⟨(0 : Nat), trivial⟩
  | readFile path => exact ⟨.error "", trivial⟩
  | writeBackup server username uuid device => exact ⟨.error "", trivial⟩
  | saveIndex => exact ⟨.ok (), trivial⟩

/-- The account, our name and the pin are the same after leaving. -/
theorem Linked.afterLeave {app : App} {chat : String} {v v' : Vault} {result : Except String Unit}
    (linked : Linked app v peer device)
    (left : Prog.Runs Ask.effect (leaveChat app chat) v result v') : Linked app v' peer device := by
  have ours : ∀ part, part = .account ∨ part = .meta → ∀ id, ¬ NotOurs part id := by
    rintro part (rfl | rfl) id other
    · exact other.1 rfl
    · exact other.2 rfl
  have kept : Prog.wp (.free Ask.effect) (fun _ v' => VaultPart.account.SameAt "" v v' ∧
      VaultPart.meta.SameAt "username" v v') (leaveChat app chat) v :=
    (calls_leaveChat app chat).wp (fun _ _ _ _ => trivial)
      (fun _ _ _ _ may before made =>
        ⟨before.1.trans (may.frame (ours _ (.inl rfl) _) made),
          before.2.trans (may.frame (ours _ (.inr rfl) _) made)⟩)
      ⟨VaultPart.sameAt_refl _ v _, VaultPart.sameAt_refl _ v _⟩
  obtain ⟨account, name⟩ := Prog.wp_free_iff.mp kept _ _ left
  obtain ⟨me, registered, other⟩ := linked.registered
  exact ⟨linked.server, linked.linked, ⟨me, Eq.trans name registered, other⟩,
    Eq.trans account linked.account⟩

/-- **After a completed leave, a bundle re-pins exactly if it carries the old key and the session
is gone**: there was a chat, or there was no session. -/
theorem repins_iff {app : App} {v v' : Vault} (linked : Linked app v peer device)
    (isPinned : v.getContactEd peer = some pinned) (nonempty : pinned ≠ "")
    (usable : bundle.Usable peer device otk)
    (left : Prog.Runs Ask.effect (leaveChat app peer) v (.ok ()) v') :
    Repins app peer device bundle otk v' ↔
      bundle.ed25519 = pinned ∧ (HasChat v peer ∨ v.loadOlm peer = none) := by
  obtain ⟨server, active⟩ := Option.isSome_iff_exists.mp linked.server
  obtain ⟨me, registered, _⟩ := linked.registered
  have linked' := linked.afterLeave left
  have pinned' := runs_pinned left isPinned nonempty
  obtain ⟨deleted, untouched⟩ := runs_leaveChat active registered left
  constructor
  · intro repins
    refine ⟨(accepts_iff usable pinned' nonempty).mp repins.accepts, ?_⟩
    by_contra neither
    obtain ⟨noChat, held⟩ := not_or.mp neither
    obtain ⟨session, stored⟩ := Option.ne_none_iff_exists'.mp held
    obtain rfl := untouched noChat
    obtain ⟨result, state, runs⟩ := Prog.exists_runs
      (Prog.logged_total (answersWith_total bundle)) (startDm app peer) (v', [])
    obtain ⟨_, made, _, saved, _⟩ := repins.starts result state runs
    exact Prog.wp_free_iff.mp (startDm_holds linked' stored) result state runs made saved
  · rintro ⟨rfl, gone⟩
    have noSession : v'.loadOlm peer = none := by
      by_cases chat : HasChat v peer
      · exact deleted chat
      · rw [untouched chat]
        exact gone.resolve_left chat
    refine ⟨(accepts_iff usable pinned' nonempty).mpr rfl, fun result state runs => ?_⟩
    exact Prog.wp_free_iff.mp
      (startDm_establishes linked' usable pinned' nonempty noSession) result state runs

end

namespace Ideal

/-- The text of an identity key, as a relay accepts it. -/
def keyText (tag : UInt8) (seed : Nat) : String := Base64.encode (publicKey tag seed).bytes

/-- Bob's bundle, from the identity with this seed. -/
def bobBundle (seed : Nat) : PrekeyBundle where
  username := "bob"
  uuid := "b"
  ed25519 := keyText 1 seed
  curve25519 := keyText 2 seed
  oneTimeKeyId := some "1"
  oneTimeKey := some (keyText 3 100)

/-- Alice has a DM with Bob, whose identity has the seed 2. -/
def aliceWithBob : Vault :=
  ((((Vault.empty.metaSet "username" "alice").saveAccount (⟨1, [], []⟩ : Account)).upsertContact
    "bob" "b" (keyText 1 2) (keyText 2 2)).saveOlm "bob"
    (⟨7, true, publicKey 2 1, publicKey 2 2, otkKey 100, none, true, []⟩ : Session)).upsertChat
    "bob" "dm" "bob" 0

def aliceAtRelay : App := ⟨some "relay", true, "", ""⟩

theorem alice_linked : Linked aliceAtRelay aliceWithBob "bob" (⟨1, [], []⟩ : Account) where
  server := rfl
  linked := rfl
  registered := ⟨"alice", by decide +kernel, by decide⟩
  account := rfl

theorem bobBundle_usable (seed : Nat) (ed25519 : validPubkeyB64 (keyText 1 seed) = true)
    (curve25519 : validPubkeyB64 (keyText 2 seed) = true) :
    (bobBundle seed).Usable "bob" (⟨1, [], []⟩ : Account) (keyText 3 100) where
  named := rfl
  ed25519 := ed25519
  curve25519 := curve25519
  oneTimeKey := rfl
  opens draw := by
    refine ⟨createOutbound ⟨1, [], []⟩ (publicKey 2 seed) (otkKey 100) draw, ?_⟩
    have isKey : keyFromBase64 (keyText 2 seed) = .ok (publicKey 2 seed) :=
      keyFromBase64_encode _
    have isOtk : keyFromBase64 (keyText 3 100) = .ok (otkKey 100) := keyFromBase64_encode _
    unfold Device.startSession
    rw [show (bobBundle seed).curve25519 = keyText 2 seed from rfl, isKey, isOtk]
    rfl

/-- Alice leaves the DM. -/
def aliceLeft : Except String Unit × Vault :=
  Prog.run (Ask.play world) (leaveChat aliceAtRelay "bob") aliceWithBob

theorem alice_leaves :
    Prog.Runs Ask.effect (leaveChat aliceAtRelay "bob") aliceWithBob (.ok ()) aliceLeft.2 := by
  have ended : aliceLeft.1 = .ok () := by decide +kernel
  rw [← ended]
  exact Prog.run_runs (fun asked v => Ask.play_conforms (fun _ => trivial) asked v) _ _

/-- Bob has not changed his key: Alice can write to him again. -/
theorem bob_repins :
    Repins aliceAtRelay "bob" (⟨1, [], []⟩ : Account) (bobBundle 2) (keyText 3 100) aliceLeft.2 :=
  (repins_iff alice_linked (by decide +kernel : _ = some (keyText 1 2)) (by decide +kernel)
    (bobBundle_usable 2 (by decide +kernel) (by decide +kernel)) alice_leaves).mpr
    ⟨rfl, .inl ⟨"dm", "bob", by decide +kernel, .inl rfl⟩⟩

/-- Bob has reset his account: leaving the chat does not help. -/
theorem reset_bob_stays_refused :
    ¬ ∀ (app : App) (v v' : Vault) (peer pinned : String) (device : Device) (bundle : PrekeyBundle)
      (otk : String), Linked app v peer device → v.getContactEd peer = some pinned → pinned ≠ "" →
      bundle.Usable peer device otk → Prog.Runs Ask.effect (leaveChat app peer) v (.ok ()) v' →
        Repins app peer device bundle otk v' := by
  intro law
  have repins := law aliceAtRelay aliceWithBob aliceLeft.2 "bob" (keyText 1 2) ⟨1, [], []⟩
    (bobBundle 3) (keyText 3 100) alice_linked (by decide +kernel) (by decide +kernel)
    (bobBundle_usable 3 (by decide +kernel) (by decide +kernel)) alice_leaves
  have runs := Prog.run_runs (fun asked v => Ask.play_conforms (fun _ => trivial) asked v :
    ∀ asked v, Ask.effect asked v (Ask.play world asked v).1 (Ask.play world asked v).2)
    (acceptIdentity "bob" "b" (keyText 1 3) (keyText 2 3)) aliceLeft.2
  have refused : (Prog.run (Ask.play world)
      (acceptIdentity "bob" "b" (keyText 1 3) (keyText 2 3)) aliceLeft.2).1 = .ok false := by
    decide +kernel
  have accepted := repins.accepts _ _ runs
  rw [refused] at accepted
  cases accepted

end Ideal

end Cherm
