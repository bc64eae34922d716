/-
**The kind of a chat, and the frames that change it.**

A DM chat has the sender's name as its id and a group chat an id a key share brought, in one table.
Two handlers upsert a chat: `deliverDmText` makes the chat named by the frame's `from` a DM, and
`handleGroupKeyShare` makes the chat named by the share a group, whatever kind the chat had before.

* `KindSafe` are the frames that do neither to a chat of the other kind.
* `kinds_stable`: over a whole service of such frames no step changes the kind of a chat.
-/

import Cherm.Client.FrameAsks
import Cherm.Ideal

namespace Cherm

open Crates Client

/-- What is meant when one chat is to have a kind. -/
def only (chat kind : String) (id : String) : Option String := if id = chat then some kind else none

theorem only_self (chat kind : String) : only chat kind chat = some kind := if_pos rfl

section

variable [Crates]

/-! ### Safe frames -/

/-- The frame can be decrypted to this plaintext. -/
def Reads (inc : Incoming) (v : Vault) (plaintext : Bytes) : Prop :=
  ∃ v', Prog.Runs Ask.effect (obtainOlmPlaintext inc.from inc.payload) v (.ok plaintext) v'

/-- The share comes from the recorded owner of its group, is not banned there, and carries a key. -/
def ShareOfOwner (v : Vault) (sender : String) (share : GroupKeyShare) : Prop :=
  (∃ row, v.getGroupMeta share.groupId = some row ∧ row.owner ≠ "" ∧ row.owner = sender) ∧
    v.isBanned share.groupId sender = false ∧
    ∃ receiver, GroupReceiver.fromSessionKeyB64 share.sessionKey = .ok receiver

/-- A DM text does not name an existing chat of another kind as its sender, and the recorded owner
of a group does not share its key where the group's chat is of another kind. -/
structure KindSafe (inc : Incoming) (v : Vault) : Prop where
  text : inc.msgType = MsgType.olm → ∀ plaintext, Reads inc v plaintext →
    (fromUtf8 plaintext).isSome → ∀ row, v.chats.get inc.from = some row → row.kind = "dm"
  share : inc.msgType = MsgType.olmGroupKey → ∀ plaintext share, Reads inc v plaintext →
    GroupKeyShare.fromSlice plaintext = .ok share → ShareOfOwner v inc.from share →
    ∀ row, v.chats.get share.groupId = some row → row.kind = "group"

/-- The service of delivered frames. -/
abbrev Delivery (ctx : ProcCtx) (accepts : Incoming → Vault → Prop) :=
  Served (Q := Ask) Ask.effect (processFrame ctx) accepts

/-! ### Requests that change no kind -/

/-- Every chat of the first vault that is still there in the second is of the same kind. -/
def KindsKept (v v' : Vault) : Prop :=
  ∀ id row row', v.chats.get id = some row → v'.chats.get id = some row' → row'.kind = row.kind

theorem kindsKept_refl (v : Vault) : KindsKept v v := fun id row row' before after => by
  rw [before] at after
  rw [Option.some.inj after]

/-- The request changes no kind. -/
def KeepsKinds (asked : Ask) (v : Vault) : Prop :=
  ∀ answer v', Ask.effect asked v answer v' → KindsKept v v'

/-- The specification of a program that changes no kind. -/
abbrev kindSpec : Prog.Spec Vault Ask Ask.Answer := Ask.spec KeepsKinds fun _ _ => True

/-- The requests that give each chat only the kind it is meant to have. -/
def Ask.Makes (meant : String → Option String) : Ask → Prop :=
  Ask.May (fun _ _ => True) (fun id kind => meant id = some kind) fun _ => True

/-- Where a kind is meant for a chat, it has that kind already. -/
def Agrees (meant : String → Option String) (v : Vault) : Prop :=
  ∀ id row kind, v.chats.get id = some row → meant id = some kind → row.kind = kind

theorem agrees_nothing (v : Vault) : Agrees (fun _ => none) v := nofun

theorem makes_kept {meant : String → Option String} {asked : Ask} (makes : asked.Makes meant)
    {v v' : Vault} (agrees : Agrees meant v) {answer : asked.Answer}
    (made : Ask.effect asked v answer v') : KindsKept v v' ∧ Agrees meant v' := by
  cases asked with
  | call op =>
      have after : v' = (op.exec v).2 := congrArg Prod.snd (made : (answer, v') = op.exec v)
      subst after
      constructor
      · intro id row row' before after
        rcases op.exec_kind makes.2 v after with ⟨old, isOld, same⟩ | given
        · rw [same, Option.some.inj (before.symm.trans isOld)]
        · exact (agrees id row row'.kind before given).symm
      · intro id row kind after isMeant
        rcases op.exec_kind makes.2 v after with ⟨old, isOld, same⟩ | given
        · rw [same, agrees id old kind isOld isMeant]
        · exact Option.some.inj (given.symm.trans isMeant)
  | _ =>
      obtain ⟨_, rfl⟩ := made
      exact ⟨kindsKept_refl v', agrees⟩

/-- A program of such requests changes no kind. -/
theorem calls_kinds {meant : String → Option String} {α : Type} {prog : Client α}
    (calls : Prog.Calls (Ask.Makes meant) prog) {v : Vault} (agrees : Agrees meant v) :
    Prog.wp kindSpec (fun _ => Agrees meant) prog v :=
  calls.wp (fun _ _ makes before _ _ made => (makes_kept makes before made).1)
    (fun _ _ _ _ makes before made => (makes_kept makes before made).2) agrees

theorem agrees_only {chat kind : String} {v : Vault}
    (is : ∀ row, v.chats.get chat = some row → row.kind = kind) : Agrees (only chat kind) v := by
  intro id row kind' found isMeant
  unfold only at isMeant
  split at isMeant
  · next same =>
      subst same
      exact (is row found).trans (Option.some.inj isMeant)
  · cases isMeant

/-! ### The handlers -/

variable {ctx : ProcCtx} {inc : Incoming} {v : Vault}

/-- The parts that decide about the kind of a chat. -/
def Deciding : List VaultPart := [.chats, .groups, .groupBans]

/-- They are what they were. -/
def Undecided (v v' : Vault) : Prop := ∀ part ∈ Deciding, ∀ id, part.SameAt id v v'

theorem undecided_refl (v : Vault) : Undecided v v := fun part _ id => part.sameAt_refl id v

theorem Undecided.shareOfOwner {v' : Vault} (same : Undecided v v') {sender : String}
    {share : GroupKeyShare} (owned : ShareOfOwner v' sender share) :
    ShareOfOwner v sender share := by
  obtain ⟨⟨row, isRow, owner⟩, notBanned, key⟩ := owned
  refine ⟨⟨row, ?_, owner⟩, ?_, key⟩
  · have groups : v'.groups.get share.groupId = v.groups.get share.groupId :=
      same .groups (by decide) share.groupId
    rw [Vault.getGroupMeta, ← groups]
    exact isRow
  · have bans := congrFun (same .groupBans (by decide) share.groupId) sender
    rw [Vault.isBanned, show v.groupBans.get (share.groupId, sender) =
      v'.groupBans.get (share.groupId, sender) from bans.symm]
    exact notBanned

/-- Decrypting a frame decides nothing. -/
theorem wp_opened {f : Bytes → Client Unit}
    (rest : ∀ plaintext v', Reads inc v plaintext → Undecided v v' →
      Prog.wp kindSpec (fun _ _ => True) (f plaintext) v') :
    Prog.wp kindSpec (fun _ _ => True) ((obtainOlmPlaintext inc.from inc.payload).bind f) v := by
  have decrypts : Prog.Calls (Ask.May (fun part _ => part ∉ Deciding) (fun _ _ => False)
      fun _ => True)
      (obtainOlmPlaintext inc.from inc.payload) :=
    calls_obtainOlmPlaintext (fun _ => by decide) (fun _ => by decide) (by decide) _
  have opened : Prog.wp kindSpec (fun _ => Undecided v)
      (obtainOlmPlaintext inc.from inc.payload) v := by
    refine decrypts.wp (fun asked s may _ answer s' made => ?_)
      (fun asked s answer s' may before made part decides id => ?_)
      (undecided_refl v)
    · have makes : asked.Makes fun _ => none :=
        may.mono (fun _ _ _ => trivial) (fun _ _ => False.elim) fun _ _ => trivial
      exact (makes_kept makes (agrees_nothing s) made).1
    · exact (before part decides id).trans (may.frame (fun outside => outside decides) made)
  rw [Prog.wp_bind]
  refine Prog.wp_of_runs opened fun result v' runs same => ?_
  cases result with
  | ok plaintext => exact rest plaintext v' ⟨v', runs⟩ same
  | error e => trivial

/-- A program that makes no chat. -/
theorem wp_quiet {prog : Client Unit}
    (calls : Prog.Calls (Ask.May (fun _ _ => True) (fun _ _ => False) fun _ => True) prog)
      (v : Vault) :
    Prog.wp kindSpec (fun _ _ => True) prog v := by
  refine Prog.wp_mono (fun _ _ _ => trivial) (calls_kinds (calls.mono fun asked may => ?_)
    (agrees_nothing v))
  exact may.mono (fun _ _ _ => trivial) (fun _ _ => False.elim) fun _ _ => trivial

theorem wp_deliverDmText {sender : String} (plaintext : Bytes) (clientTs : Int)
    (dm : (fromUtf8 plaintext).isSome → ∀ row, v.chats.get sender = some row → row.kind = "dm") :
    Prog.wp kindSpec (fun _ _ => True) (deliverDmText ctx sender plaintext clientTs) v := by
  cases decoded : fromUtf8 plaintext with
  | none =>
      unfold deliverDmText
      rw [decoded]
      trivial
  | some text =>
      have agrees : Agrees (only sender "dm") v := agrees_only (dm (by rw [decoded]; rfl))
      refine Prog.wp_mono (fun _ _ _ => trivial) (calls_kinds ?_ agrees)
      exact calls_deliverDmText trivial (only_self sender "dm") trivial trivial ctx
        plaintext clientTs

theorem wp_handleGroupKeyShare_kinds {sender : String} (plaintext : Bytes)
    (group : ∀ share, GroupKeyShare.fromSlice plaintext = .ok share → ShareOfOwner v sender share →
      ∀ row, v.chats.get share.groupId = some row → row.kind = "group") :
    Prog.wp kindSpec (fun _ _ => True) (handleGroupKeyShare ctx sender plaintext) v := by
  cases read : GroupKeyShare.fromSlice plaintext with
  | error e =>
      unfold handleGroupKeyShare
      rw [read]
      trivial
  | ok share =>
      have spared : ∀ asked v', Ask.Spares share.groupId asked → Undecided v v' →
          KeepsKinds asked v' ∧ ∀ answer v'', Ask.effect asked v' answer v'' → Undecided v v'' := by
        intro asked v' spares same
        have makes : asked.Makes fun _ => none :=
          spares.mono (fun _ _ _ => trivial) (fun _ _ => False.elim) fun _ _ => trivial
        refine ⟨fun answer v'' made => (makes_kept makes (agrees_nothing v') made).1,
          fun answer v'' made part decides id => (same part decides id).trans ?_⟩
        refine spares.frame (fun outside => ?_) made
        rw [outside.1] at decides
        exact absurd decides (by decide)
      refine wp_handleGroupKeyShare read spared (fun _ _ => trivial)
        (fun v' isNew byOwner same admitted => ?_)
        (undecided_refl v)
      cases byOwner with
      | false =>
          exact Prog.wp_mono (fun _ _ _ => trivial) (calls_kinds
            (calls_storeShare (fun _ _ => trivial) nofun ctx sender isNew) (agrees_nothing v'))
      | true =>
          cases key : GroupReceiver.fromSessionKeyB64 share.sessionKey with
          | error e =>
              unfold storeShare
              rw [key]
              trivial
          | ok receiver =>
              have agrees : Agrees (only share.groupId "group") v' := by
                refine agrees_only fun row found => ?_
                have old : isNew = false := by
                  rw [admitted.newness, Vault.chatExists, found]
                  rfl
                have owner := admitted.authority
                rw [old] at owner
                exact group share read (same.shareOfOwner
                  ⟨ownerShare_old owner.symm, admitted.notBanned, receiver, key⟩) row
                  (Eq.trans (same .chats (by decide) share.groupId).symm found)
              exact Prog.wp_mono (fun _ _ _ => trivial) (calls_kinds
                (calls_storeShare (fun _ _ => trivial) (fun _ => only_self _ _) ctx sender
                  isNew) agrees)

/-- **One safe frame** changes no kind at any of its steps. -/
theorem wp_processFrame_kinds (safe : KindSafe inc v) :
    Prog.wp kindSpec (fun _ _ => True) (processFrame ctx inc) v := by
  refine wp_processFrame (fun event v' _ _ v'' made => ?_) ?_
  · obtain ⟨_, rfl⟩ := made
    exact kindsKept_refl v''
  · have decrypts : Prog.Calls (Ask.May (fun _ _ => True) (fun _ _ => False) fun _ => True)
        (obtainOlmPlaintext inc.from inc.payload) :=
      calls_obtainOlmPlaintext (fun _ => trivial) (fun _ => trivial) trivial _
    unfold processOne
    split
    · next isText =>
      exact wp_opened fun plaintext v' reads same =>
        wp_deliverDmText plaintext inc.clientTs fun decoded row found =>
          safe.text isText plaintext reads decoded row
            (Eq.trans (same .chats (by decide) inc.from).symm found)
    · next isShare =>
      exact wp_opened fun plaintext v' reads same =>
        wp_handleGroupKeyShare_kinds plaintext fun share read owned row found =>
          safe.share isShare plaintext share reads read (same.shareOfOwner owned) row
            (Eq.trans (same .chats (by decide) share.groupId).symm found)
    · exact wp_quiet ((calls_okOr _ _).bind fun groupId =>
        calls_processMegolm trivial trivial trivial _ _ _) v
    · refine wp_quiet (decrypts.bind fun plaintext => ?_) v
      split
      · exact calls_emitSystem trivial _ _
      · trivial
    · exact wp_quiet ((calls_okOr _ _).bind fun groupId =>
        calls_processMegolmSystem trivial trivial trivial trivial _ _ _) v
    · exact wp_quiet (decrypts.bind fun plaintext => calls_handleJoinRequest (fun _ => trivial)
        (fun _ => trivial) (fun _ _ _ _ => trivial) (fun _ _ _ _ _ _ => trivial) _ _ _) v
    · exact wp_quiet (decrypts.bind fun plaintext => calls_handleJoinDenied _ _) v
    · exact wp_quiet ((calls_okOr _ _).bind fun groupId =>
        calls_processGroupEvent (fun _ _ => trivial) _ _ _ _) v
    · trivial

/-- **No delivered frame changes the kind of a chat**, in any service of safe frames, from any
vault. -/
theorem kinds_stable (ctx : ProcCtx) (start : Vault)
    {state state' : Option (Incoming × Client Unit) × Vault}
    (reached : Relation.ReflTransGen (Delivery ctx KindSafe) (none, start) state)
    (step : Delivery ctx KindSafe state state') : KindsKept state.2 state'.2 := by
  cases step with
  | accept accepted => exact kindsKept_refl _
  | finish => exact kindsKept_refl _
  | move moves =>
      cases moves with
      | ask made =>
          have handler : ∀ inc v, KindSafe inc v → True →
              Prog.wp kindSpec (fun _ _ => True) (processFrame ctx inc) v :=
            fun inc v safe _ => wp_processFrame_kinds safe
          exact served_demands handler trivial reached _ _ made

end

namespace Ideal

/-- A group chat whose id the relay has once used as a sender, so that there is an Olm session. -/
def groupChat : Vault :=
  (Vault.empty.upsertChat "g1" "group" "Friends" 0).saveOlm "g1"
    ⟨7, false, publicKey 2 1, publicKey 2 2, publicKey 3 100, none, true, []⟩

def relayMessage : Message where
  preKey := false
  sid := 7
  fromOpener := true
  identity := publicKey 2 2
  otk := publicKey 3 100
  place := (7, 0)
  plaintext := utf8 "hi"

/-- A text that says it comes from the group's id. -/
def relayText («from» : String) : Incoming :=
  ⟨«from», MsgType.olm, encodeOlm (toParts relayMessage).1 (toParts relayMessage).2, none, 0⟩

/-- A vault in which the text was read. -/
def heardFrom (v : Vault) («from» : String) : Vault :=
  v.saveOlm «from» ⟨7, false, publicKey 2 1, publicKey 2 2, publicKey 3 100, none, true, [(7, 0)]⟩

/-- What is done about a text that was read, in a world without a relay. -/
def textRun (v : Vault) («from» : String) (n : Nat) : Client Unit × Vault :=
  Prog.advance (Ask.play world) n
    ((deliverDmText ⟨"alice", "relay"⟩ «from» (utf8 "hi") 0).attempt.bind roundEnd,
      heardFrom v «from»)

theorem play_conforms (asked : Ask) (v : Vault) :
    Ask.effect asked v (Ask.play world asked v).1 (Ask.play world asked v).2 :=
  Ask.play_conforms (fun _ => trivial) asked v

/-- The frame is decrypted, and then its text is delivered. -/
theorem text_delivered {v : Vault} {«from» : String} (held : v.loadOlm «from» =
      some (⟨7, false, publicKey 2 1, publicKey 2 2, publicKey 3 100, none, true, []⟩ : Session))
    (n : Nat) : Relation.ReflTransGen (Prog.Moves Ask.effect)
      (processFrame ⟨"alice", "relay"⟩ (relayText «from»), v) (textRun v «from» n) := by
  have opened : Prog.Runs Ask.effect (obtainOlmPlaintext «from» (relayText «from»).payload) v
      (.ok (utf8 "hi")) (heardFrom v «from») := obtainOlmPlaintext_held held rfl
  have handled := opened.moves_bind fun plaintext =>
    deliverDmText ⟨"alice", "relay"⟩ (relayText «from»).from plaintext (relayText «from»).clientTs
  have read : Relation.ReflTransGen (Prog.Moves Ask.effect)
      (processOne ⟨"alice", "relay"⟩ (relayText «from»), v) _ := handled
  exact (processFrame_moves read).trans (Prog.advance_moves play_conforms n _)

/-- The third request, which writes the chat. -/
theorem text_upserts {v : Vault} {«from» : String}
    (asks : (textRun v «from» 2).1.isAsk = true) :
    Prog.Moves Ask.effect (textRun v «from» 2) (textRun v «from» 3) :=
  Prog.advance_next play_conforms 2 _ asks

/-- Bob is a friend as well. -/
def friendChat : Vault :=
  (groupChat.upsertChat "bob" "dm" "Bobby" 0).saveOlm "bob"
    ⟨7, false, publicKey 2 1, publicKey 2 2, publicKey 3 100, none, true, []⟩

/-- A text of his is decrypted, and his chat is written again. It is a DM as before, and the group is
a group. -/
theorem text_keeps_kinds :
    (textRun friendChat "bob" 2).2.chats.get "bob" = some ⟨"dm", "Bobby", 0⟩ ∧
    (textRun friendChat "bob" 3).2.chats.get "bob" = some ⟨"dm", "bob", 0⟩ ∧
    KindsKept (textRun friendChat "bob" 2).2 (textRun friendChat "bob" 3).2 := by
  have known : friendChat.chats.get "bob" = some ⟨"dm", "Bobby", 0⟩ := by decide
  have safe : KindSafe (relayText "bob") friendChat := by
    refine ⟨fun _ _ _ _ row found => ?_, fun isShare => absurd isShare (by decide)⟩
    rw [← Option.some.inj (known.symm.trans found)]
  have asks : (textRun friendChat "bob" 2).1.isAsk = true := by
    unfold textRun deliverDmText
    rw [fromUtf8_utf8]
    decide +kernel
  have kept := kinds_stable ⟨"alice", "relay"⟩ friendChat
    (served_moves safe (text_delivered rfl 2)) (served_move _ (text_upserts asks))
  refine ⟨?_, ?_, kept⟩
  · unfold textRun deliverDmText
    rw [fromUtf8_utf8]
    decide +kernel
  · unfold textRun deliverDmText
    rw [fromUtf8_utf8]
    decide +kernel

/-- A text in the name of the group's id turns the group into a DM. -/
theorem group_becomes_dm :
    ¬ ∀ (ctx : ProcCtx) (start : Vault) (state state' : Option (Incoming × Client Unit) × Vault),
      Relation.ReflTransGen (Delivery ctx fun _ _ => True) (none, start) state →
      Delivery ctx (fun _ _ => True) state state' → KindsKept state.2 state'.2 := by
  intro law
  have asks : (textRun groupChat "g1" 2).1.isAsk = true := by
    unfold textRun deliverDmText
    rw [fromUtf8_utf8]
    decide +kernel
  have kept : KindsKept (textRun groupChat "g1" 2).2 (textRun groupChat "g1" 3).2 :=
    law ⟨"alice", "relay"⟩ groupChat
      (some (relayText "g1", (textRun groupChat "g1" 2).1), _)
      (some (relayText "g1", (textRun groupChat "g1" 3).1), _)
      (served_moves trivial (text_delivered rfl 2)) (served_move _ (text_upserts asks))
  have before : (textRun groupChat "g1" 2).2.chats.get "g1" = some ⟨"group", "Friends", 0⟩ := by
    unfold textRun deliverDmText
    rw [fromUtf8_utf8]
    decide +kernel
  have after : (textRun groupChat "g1" 3).2.chats.get "g1" = some ⟨"dm", "g1", 0⟩ := by
    unfold textRun deliverDmText
    rw [fromUtf8_utf8]
    decide +kernel
  exact absurd (kept "g1" _ _ before after) (by decide)

end Ideal

end Cherm
