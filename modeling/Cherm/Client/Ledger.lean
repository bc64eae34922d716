/-
**The ledger of a group: who was handed which key.**

A vault says which outbound session a group has; it does not say who holds its key. The `KeyLedger`
keeps, beside the vault, the sessions of one group whose key was handed to one user, the readings of
the clock, and whether the link took an event frame of the group.

* `lineage` names the session of a sender: encrypting advances the sender and not its session. A
  fresh draw gives a session that was handed to nobody.
* A key share always carries the key of the session that is stored while it is handed over, so this
  is the session that goes into the ledger.
* `KeyLedger.wpL_kept`: requests that stay away from the group leave its part of the ledger alone.
-/

import Cherm.Client.Asks

namespace Cherm

open Crates

section

variable [Crates]

/-- The name of a sender's session. -/
class Lineage (ι : Type) where
  of : GroupSender → ι
  of_encrypt : ∀ (sender : GroupSender) (plaintext : Bytes),
    of (GroupSender.encrypt sender plaintext).2 = of sender

/-- The vault and what happened to the keys of one group with respect to one user. -/
structure KeyLedger (ι : Type) where
  vault : Vault
  shared : List ι
  readings : List Int
  sent : Bool

/-- A key share of the group for the user. -/
def HandsKey (group user : String) (msg : SendMsg) : Prop :=
  msg.msgType = MsgType.olmGroupKey ∧ msg.groupId = some group ∧ user ∈ msg.to

/-- An event of the group. -/
def IsEventOf (group : String) (msg : SendMsg) : Prop :=
  msg.msgType = MsgType.groupEvent ∧ msg.groupId = some group

instance (group user : String) (msg : SendMsg) : Decidable (HandsKey group user msg) :=
  inferInstanceAs (Decidable (_ ∧ _ ∧ _))

instance (group : String) (msg : SendMsg) : Decidable (IsEventOf group msg) :=
  inferInstanceAs (Decidable (_ ∧ _))

namespace KeyLedger

variable {ι : Type} {group user : String}

/-- The group's part of two ledgers is the same. -/
structure SameKeys (group : String) (s s' : KeyLedger ι) : Prop where
  roster : s'.vault.getMembers group = s.vault.getMembers group
  out : s'.vault.loadGroupOut group = s.vault.loadGroupOut group
  bans : ∀ w, s'.vault.groupBans.get (group, w) = s.vault.groupBans.get (group, w)
  suspensions : ∀ w, s'.vault.groupSuspensions.get (group, w) =
    s.vault.groupSuspensions.get (group, w)
  shared : s'.shared = s.shared
  sent : s'.sent = s.sent

theorem SameKeys.refl (s : KeyLedger ι) : SameKeys group s s :=
    ⟨rfl, rfl, fun _ => rfl, fun _ => rfl, rfl, rfl⟩

theorem SameKeys.trans {s s' s'' : KeyLedger ι} (first : SameKeys group s s')
    (second : SameKeys group s' s'') :
    SameKeys group s s'' where
  roster := second.roster.trans first.roster
  out := second.out.trans first.out
  bans w := (second.bans w).trans (first.bans w)
  suspensions w := (second.suspensions w).trans (first.suspensions w)
  shared := second.shared.trans first.shared
  sent := second.sent.trans first.sent

variable [Lineage ι]

/-- The sessions stored for the group: one, or none. -/
def stored (s : KeyLedger ι) (group : String) : List ι :=
  (s.vault.loadGroupOut group).toList.map Lineage.of

/-- What an answered request leaves in the ledger, beside the vault. -/
def note (group user : String) (s : KeyLedger ι) (v' : Vault) :
    (asked : Ask) → asked.Answer → KeyLedger ι
  | .post (.send msg), answer =>
      { vault := v'
        shared := if HandsKey group user msg then s.shared ++ s.stored group else s.shared
        readings := s.readings
        sent := s.sent || (decide (IsEventOf group msg) && answer.toBool) }
  | .now, reading => { s with vault := v', readings := s.readings ++ [reading] }
  | _, _ => { s with vault := v' }

/-- An event that the link took is marked, and hands no key over. -/
theorem note_event {msg : SendMsg} (isEvent : IsEventOf group msg) (s : KeyLedger ι) (v' : Vault)
    (answer : Except String Unit) :
    s.note group user v' (.post (.send msg)) answer =
      { s with vault := v', sent := s.sent || answer.toBool } := by
  have noKey : ¬ HandsKey group user msg := fun hands =>
    absurd (isEvent.1.symm.trans hands.1) (show ¬ MsgType.groupEvent =
    MsgType.olmGroupKey by decide)
  simp [note, noKey, isEvent]

/-- A draw gives a session that was handed to nobody. -/
def FreshDraw (s : KeyLedger ι) : (asked : Ask) → asked.Answer → Prop
  | .random, seed => Lineage.of (GroupSender.new seed) ∉ s.shared
  | _, _ => True

/-- One request, with the ledger kept. -/
def step (group user : String) : Prog.Step (KeyLedger ι) Ask Ask.Answer := fun asked s answer s' =>
  ∃ v', Ask.effect asked s.vault answer v' ∧ s.FreshDraw asked answer ∧
    s' = s.note group user v' asked answer

theorem SameKeys.stored {s s' : KeyLedger ι} (kept : SameKeys group s s') :
    s'.stored group = s.stored group := by
  unfold KeyLedger.stored
  rw [kept.out]

/-- The parts of a group that moderation is about. -/
def moderated : List VaultPart := [.chatMembers, .groupOut, .groupBans, .groupSuspensions]

/-- Rows that are not among the group's moderated parts. -/
def AwayFrom (group : String) (part : VaultPart) (id : String) : Prop :=
  id = group → part ∉ moderated

/-- Messages that neither hand the user a key of the group nor are its events. -/
def Aside (group user : String) (msg : SendMsg) : Prop :=
  ¬ HandsKey group user msg ∧ ¬ IsEventOf group msg

/-- A request that stays away from the group. -/
theorem step_kept {kinds : String → String → Prop} {asked : Ask} {s s' : KeyLedger ι}
    {answer : asked.Answer} (may : asked.May (AwayFrom group) kinds (Aside group user))
    (made : step group user asked s answer s') : SameKeys group s s' := by
  obtain ⟨v', effect, _, rfl⟩ := made
  have same : ∀ part ∈ moderated, part.SameAt group s.vault v' := fun part listed =>
    may.frame (fun elsewhere => elsewhere rfl listed) effect
  have noted : (s.note group user v' asked answer).vault = v' ∧
      (s.note group user v' asked answer).shared = s.shared ∧
      (s.note group user v' asked answer).sent = s.sent := by
    cases asked with
    | post msg =>
        cases msg with
        | send msg => exact ⟨rfl, if_neg may.1, by simp [note, may.2]⟩
        | _ => exact ⟨rfl, rfl, rfl⟩
    | _ => exact ⟨rfl, rfl, rfl⟩
  obtain ⟨vault, shared, sent⟩ := noted
  refine ⟨?_, ?_, ?_, ?_, shared, sent⟩
  · rw [vault]
    exact same .chatMembers (by decide)
  · rw [vault]
    exact same .groupOut (by decide)
  · rw [vault]
    exact congrFun (same .groupBans (by decide))
  · rw [vault]
    exact congrFun (same .groupSuspensions (by decide))

/-- The weakest precondition with the ledger kept. -/
abbrev wpL (group user : String) {α : Type} (post : Except String α → KeyLedger ι → Prop)
    (prog : Client α) (s : KeyLedger ι) : Prop :=
  Prog.wp (.free (step group user)) post prog s

/-- A program that stays away from the group. -/
theorem wpL_kept {α : Type} {kinds : String → String → Prop} {prog : Client α}
    (calls : Prog.Calls (Ask.May (AwayFrom group) kinds (Aside group user)) prog)
      (s : KeyLedger ι) :
    wpL group user (fun _ => SameKeys group s) prog s :=
  calls.wp (fun _ _ _ _ => trivial)
    (fun _ _ _ _ may kept made => kept.trans (step_kept may made)) (.refl s)

/-- One vault call. -/
theorem wpL_call {α : Type} {post : Except String α → KeyLedger ι → Prop} (op : VaultOp)
    (next : op.Result → Client α) (s : KeyLedger ι) :
    wpL group user post (.ask (.call op) next) s ↔
      wpL group user post (next (op.exec s.vault).1) { s with vault := (op.exec s.vault).2 } := by
  rw [wpL, Prog.wp_ask]
  refine ⟨fun all => all.2 _ _ ⟨_, rfl, trivial, rfl⟩, fun here => ⟨trivial, ?_⟩⟩
  rintro answer _ ⟨v', same, _, rfl⟩
  obtain ⟨rfl, rfl⟩ := Prod.mk.inj (same : (answer, v') = op.exec s.vault)
  exact here

/-- One question to the world. -/
theorem wpL_world {α : Type} {post : Except String α → KeyLedger ι → Prop} {asked : Ask}
    [asked.World] (next : asked.Answer → Client α) (s : KeyLedger ι) :
    wpL group user post (.ask asked next) s ↔
      ∀ answer, s.FreshDraw asked answer →
        wpL group user post (next answer) (s.note group user s.vault asked answer) := by
  rw [wpL, Prog.wp_ask]
  refine ⟨fun all answer fresh => ?_, fun all => ⟨trivial, ?_⟩⟩
  · exact all.2 answer _ ⟨s.vault, (Ask.effectIf_world _ _ answer).mpr ⟨trivial, rfl⟩, fresh, rfl⟩
  · rintro answer _ ⟨v', made, fresh, rfl⟩
    obtain ⟨_, rfl⟩ := (Ask.effectIf_world _ _ answer).mp made
    exact all answer fresh

end KeyLedger

end

end Cherm
