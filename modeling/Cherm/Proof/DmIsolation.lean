/-
**The DM with a user, and what other users' frames do to it.**

A group's id is whatever its first key share says, so a share can name the id of a DM, the peer's
username. Once a group of that id is known, or an inbound session for it, the frames of other users
reach the DM's chat through it.

* `Forgery`: the key share that starts it, an admitted one with the peer's name as its group id.
* `NoGroup`: nothing is known of a group with the peer's name. Without forgeries every handler keeps
  it (`wp_frame`, `wp_input`).
* `dm_isolated`: then no request of a frame of another user touches the DM.
-/

import Cherm.Client.CommandAsks
import Cherm.Client.FrameAsks
import Cherm.Ideal

namespace Cherm

open Crates Client

/-- The chat, the messages, the roster and the session of a DM. -/
def dmParts : List VaultPart := [.chats, .messages, .chatMembers, .olmSessions]

/-- What a client knows of a group of which it has not heard: nothing. -/
def groupParts : List VaultPart := [.groups, .groupIn]

/-- The rows that are not of a group called `p`, nor, for someone else than `p`, of the DM. -/
def Harmless (p : String) (other : Prop) (part : VaultPart) (id : String) : Prop :=
  id = p → part ∉ groupParts ∧ (other → part ∉ dmParts)

theorem harmless_elsewhere {p : String} {other : Prop} {id : String} (elsewhere : id ≠ p)
    (part : VaultPart) :
    Harmless p other part id := fun here => absurd here elsewhere

theorem harmless_part {p : String} {other : Prop} {part : VaultPart}
    (neither : part ∉ groupParts ++ dmParts)
    (id : String) : Harmless p other part id := fun _ =>
  ⟨fun inGroup => neither (List.mem_append_left _ inGroup),
    fun _ inDm => neither (List.mem_append_right _ inDm)⟩

/-- A row of the DM may be written by `p`. -/
theorem harmless_own {p : String} {other : Prop} {part : VaultPart} (notGroup : part ∉ groupParts)
    {id : String}
    (own : other → id ≠ p) : Harmless p other part id := fun here =>
  ⟨notGroup, fun isOther => absurd here (own isOther)⟩

section

variable [Crates]

/-! ### The service -/

/-- What a client works off: delivered frames, and the commands that open a DM and write to a chat.
-/
inductive Input where
  | frame (inc : Incoming)
  | startDm (app : App) (username : String)
  | send (app : App) (chat text : String)

def Input.handle (ctx : ProcCtx) : Input → Client Unit
  | frame inc => processFrame ctx inc
  | startDm app username => Client.startDm app username
  | send app chat text => Client.send app chat text

/-- The DM with `p` is the same in two vaults. -/
def DmSame (p : String) (v v' : Vault) : Prop := ∀ part ∈ dmParts, part.SameAt p v v'

theorem DmSame.chat {p : String} {v v' : Vault} (same : DmSame p v v') :
    v'.chats.get p = v.chats.get p := same .chats (by decide)

/-- No group called `p` is known, and no session of anyone's for it. -/
structure NoGroup (p : String) (v : Vault) : Prop where
  row : v.getGroupMeta p = none
  inbound : ∀ sender, v.loadGroupIn p sender = none

/-- The frame is a key share that is admitted under the id `p`. -/
def Forgery (p : String) (inc : Incoming) (v : Vault) : Prop :=
  inc.msgType = MsgType.olmGroupKey ∧ ∃ plaintext v' share isNew byOwner,
    Prog.Runs Ask.effect (obtainOlmPlaintext inc.from inc.payload) v (.ok plaintext) v' ∧
      GroupKeyShare.fromSlice plaintext = .ok share ∧ share.groupId = p ∧
        ShareAdmitted v inc.from share isNew byOwner

/-- The inputs without forgeries. -/
def Genuine (p : String) : Input → Vault → Prop
  | .frame inc, v => ¬ Forgery p inc v
  | _, _ => True

/-- A frame of a user other than `p` leaves the DM with `p` alone. -/
def SparesDm (p : String) : Input → Ask → Vault → Prop
  | .frame inc, asked, v => inc.from ≠ p → ∀ answer v', Ask.effect asked v answer v' → DmSame p v v'
  | _, _, _ => True

variable {p : String} {ctx : ProcCtx} {inc : Incoming}

/-! ### Harmless requests -/

abbrev HarmlessAsk (p : String) (other : Prop) : Ask → Prop :=
  Ask.May (Harmless p other) (fun _ _ => True) fun _ => True

theorem harmless_within {other : Prop} (asked : Ask) (v : Vault) (may : HarmlessAsk p other asked)
    (noGroup : NoGroup p v) :
    (other → ∀ answer v', Ask.effect asked v answer v' → DmSame p v v') ∧
      ∀ answer v', Ask.effect asked v answer v' → NoGroup p v' := by
  refine ⟨fun isOther answer v' made part inDm => ?_, fun answer v' made => ⟨?_, fun sender => ?_⟩⟩
  · exact may.frame (fun harmless => (harmless rfl).2 isOther inDm) made
  · have same : VaultPart.groups.SameAt p v v' :=
      may.frame (fun harmless => (harmless rfl).1 (by decide)) made
    exact Eq.trans same noGroup.row
  · have same : VaultPart.groupIn.SameAt p v v' :=
      may.frame (fun harmless => (harmless rfl).1 (by decide)) made
    exact (congrFun same sender).trans (noGroup.inbound sender)

/-- The specification of a frame: it spares the DM if it is another user's. -/
abbrev frameSpec (p : String) (inc : Incoming) : Prog.Spec Vault Ask Ask.Answer :=
  Ask.spec (SparesDm p (.frame inc)) fun _ _ => True

variable {v : Vault}

theorem wp_harmless {α : Type} {prog : Client α}
    (calls : Prog.Calls (HarmlessAsk p (inc.from ≠ p)) prog) (noGroup : NoGroup p v) :
    Prog.wp (frameSpec p inc) (fun _ => NoGroup p) prog v :=
  wp_within harmless_within calls noGroup

/-! ### The handlers -/

theorem calls_decrypt :
    Prog.Calls (HarmlessAsk p (inc.from ≠ p)) (obtainOlmPlaintext inc.from inc.payload) :=
  calls_obtainOlmPlaintext (harmless_part (by decide)) (harmless_part (by decide))
    (harmless_own (by decide) id) _

/-- A Megolm frame of a group that is not known ends with an error event. -/
theorem wp_unreadable {f : Option (Bytes × Nat × GroupReceiver) → Client Unit}
    (gives : f none = pure ()) (sender payload : String) (noGroup : NoGroup p v) :
    Prog.wp (frameSpec p inc) (fun _ => NoGroup p) ((openMegolm p sender payload).bind f) v := by
  have read : HarmlessAsk p (inc.from ≠ p) (.call (.loadGroupIn p sender)) :=
    (calls_read fun _ _ => id).1
  refine (wp_call _ _ v).mpr ⟨(harmless_within _ v read noGroup).1, ?_⟩
  simp only [VaultOp.exec, Prog.done_bind, noGroup.inbound sender]
  have told : ∀ event, HarmlessAsk p (inc.from ≠ p) (.emit event) := fun _ => trivial
  refine (wp_world _ _).mpr ⟨(harmless_within _ v (told _) noGroup).1, fun _ _ => ?_⟩
  show Prog.wp _ _ (f none) v
  rw [gives]
  exact noGroup

/-- The rows that decide about a share. -/
def shareParts : List VaultPart := [.groupBans, .chats, .groups, .chatMembers]

theorem admitted_of_same {v v' : Vault} {sender : String} {share : GroupKeyShare}
    {isNew byOwner : Bool} (admitted : ShareAdmitted v' sender share isNew byOwner)
    (same : ∀ part ∈ shareParts, part.SameAt share.groupId v v') :
    ShareAdmitted v sender share isNew byOwner := by
  have bans : v'.isBanned share.groupId sender = v.isBanned share.groupId sender :=
    congrArg Option.isSome (congrFun (same .groupBans (by decide)) sender)
  have known : v'.chatExists share.groupId = v.chatExists share.groupId :=
    congrArg Option.isSome (same .chats (by decide))
  have row : v'.getGroupMeta share.groupId = v.getGroupMeta share.groupId :=
      same .groups (by decide)
  have roster : v'.getMembers share.groupId = v.getMembers share.groupId :=
    same .chatMembers (by decide)
  have member : v'.isMember share.groupId sender = v.isMember share.groupId sender := by
    rw [Bool.eq_iff_iff, Vault.isMember_iff, Vault.isMember_iff, roster]
  exact ⟨bans ▸ admitted.notBanned, known ▸ admitted.newness, row ▸ admitted.authority,
    member ▸ admitted.entitled⟩

theorem wp_handleGroupKeyShare_genuine (genuine : ¬ Forgery p inc v)
    (isShare : inc.msgType = MsgType.olmGroupKey) (noGroup : NoGroup p v) :
    Prog.wp (frameSpec p inc) (fun _ => NoGroup p) ((obtainOlmPlaintext inc.from inc.payload).bind
      fun plaintext => handleGroupKeyShare ctx inc.from plaintext) v := by
  -- the rows that decide are the same when the share has been decrypted, and until it is stored
  have decrypts : Prog.Calls (Ask.May (fun part id => Harmless p (inc.from ≠ p) part id ∧
      part ∉ shareParts) (fun _ _ => True) fun _ => True)
      (obtainOlmPlaintext inc.from inc.payload) :=
    calls_obtainOlmPlaintext (fun id => ⟨harmless_part (by decide) id, by decide⟩)
      (fun id => ⟨harmless_part (by decide) id, by decide⟩)
      ⟨harmless_own (by decide) id, by decide⟩ _
  have opened : Prog.wp (frameSpec p inc)
      (fun _ v' => NoGroup p v' ∧ ∀ part ∈ shareParts, part.SameAt p v v')
      (obtainOlmPlaintext inc.from inc.payload) v := by
    have bound : ∀ {asked : Ask}, Ask.May (fun part id => Harmless p (inc.from ≠ p) part id ∧
        part ∉ shareParts) (fun _ _ => True) (fun _ => True) asked →
        HarmlessAsk p (inc.from ≠ p) asked := fun may =>
      may.mono (fun _ _ allowed => allowed.1) (fun _ _ => id) fun _ => id
    refine decrypts.wp (fun asked v' may before => (harmless_within asked v' (bound may)
      before.1).1)
      (fun asked v' answer v'' may before made => ?_) ⟨noGroup, fun part _ => part.sameAt_refl p v⟩
    refine ⟨(harmless_within asked v' (bound may) before.1).2 answer v'' made,
      fun part decides => ?_⟩
    exact (before.2 part decides).trans (may.frame (fun allowed => allowed.2 decides) made)
  rw [Prog.wp_bind]
  refine Prog.wp_of_runs opened fun result v' runs after => ?_
  cases result with
  | error e => exact after.1
  | ok plaintext =>
      cases read : GroupKeyShare.fromSlice plaintext with
      | error e =>
          show Prog.wp _ _ (handleGroupKeyShare ctx inc.from plaintext) v'
          unfold handleGroupKeyShare
          rw [read]
          exact after.1
      | ok share =>
          have spared : ∀ asked s, Ask.Spares share.groupId asked →
              (NoGroup p s ∧ ∀ part ∈ shareParts, part.SameAt p v s) →
              SparesDm p (.frame inc) asked s ∧ ∀ answer s', Ask.effect asked s answer s' →
                NoGroup p s' ∧ ∀ part ∈ shareParts, part.SameAt p v s' := by
            intro asked s spares before
            have harmless : HarmlessAsk p (inc.from ≠ p) asked := by
              refine spares.mono (fun part id allowed => ?_) (fun _ _ _ => trivial)
                (fun _ _ => trivial)
              rw [allowed.1]
              exact harmless_part (by decide) id
            have within := harmless_within asked s harmless before.1
            refine ⟨within.1, fun answer s' made => ⟨within.2 answer s' made,
              fun part decides => ?_⟩⟩
            refine (before.2 part decides).trans (spares.frame (fun allowed => ?_) made)
            rw [allowed.1] at decides
            exact absurd decides (by decide)
          refine wp_handleGroupKeyShare read spared (fun _ before => before.1)
            (fun s isNew byOwner before admitted => ?_) after
          have elsewhere : share.groupId ≠ p := by
            rintro rfl
            exact genuine ⟨isShare, plaintext, v', share, isNew, byOwner, runs, read, rfl,
              admitted_of_same admitted before.2⟩
          exact wp_harmless (calls_storeShare (fun part _ => harmless_elsewhere elsewhere part)
            (fun _ => trivial) ctx inc.from isNew) before.1

/-- **One frame** without forgery. -/
theorem wp_frame (genuine : ¬ Forgery p inc v) (noGroup : NoGroup p v) :
    Prog.wp (frameSpec p inc) (fun _ => NoGroup p) (processFrame ctx inc) v := by
  have megolm : ∀ {missing : String} {f : String → Client Unit},
      (∀ groupId, groupId ≠ p → Prog.Calls (HarmlessAsk p (inc.from ≠ p)) (f groupId)) →
      Prog.wp (frameSpec p inc) (fun _ => NoGroup p) (f p) v →
      Prog.wp (frameSpec p inc) (fun _ => NoGroup p) ((frameGroup inc missing).bind f) v := by
    intro missing f elsewhere here
    unfold frameGroup
    cases inc.groupId with
    | none => exact noGroup
    | some groupId =>
        by_cases same : groupId = p
        · rw [same]
          exact here
        · exact wp_harmless (elsewhere groupId same) noGroup
  refine wp_processFrame (fun event v' _ => ?_) ?_
  · intro _ answer v'' made
    obtain ⟨_, rfl⟩ := made
    exact fun part _ => part.sameAt_refl p v''
  unfold processOne
  split
  · refine wp_harmless (calls_decrypt.bind fun plaintext => ?_) noGroup
    exact calls_deliverDmText (harmless_own (by decide) id) trivial (harmless_own (by decide) id)
      (harmless_own (by decide) id) _ _ _
  · next isShare => exact wp_handleGroupKeyShare_genuine genuine isShare noGroup
  · refine megolm (fun groupId other => ?_) (wp_unreadable rfl _ _ noGroup)
    exact calls_processMegolm (harmless_elsewhere other _) (harmless_elsewhere other _)
      (harmless_elsewhere other _) _ _ _
  · refine wp_harmless (calls_decrypt.bind fun plaintext => ?_) noGroup
    split
    · exact calls_emitSystem (harmless_own (by decide) id) _ _
    · trivial
  · refine megolm (fun groupId other => ?_) (wp_unreadable rfl _ _ noGroup)
    exact calls_processMegolmSystem (harmless_elsewhere other _) (harmless_elsewhere other _)
      (harmless_elsewhere other _) (harmless_elsewhere other _) _ _ _
  · rw [Prog.bind_eq, Prog.wp_bind]
    refine Prog.wp_mono (fun result v' after => ?_) (wp_harmless calls_decrypt noGroup)
    cases result with
    | error e => exact after
    | ok plaintext =>
        refine wp_handleJoinRequest harmless_within (harmless_part (by decide))
          (harmless_own (by decide) id) (fun req row _ found _ part _ => ?_)
            (fun _ => trivial) _ after
        refine harmless_elsewhere (fun here => ?_) part
        rw [here, after.row] at found
        cases found
  · exact wp_harmless (calls_decrypt.bind fun plaintext => calls_handleJoinDenied _ _) noGroup
  · refine megolm (fun groupId other => ?_) (wp_unreadable rfl _ _ noGroup)
    exact calls_processGroupEvent (fun part _ => harmless_elsewhere other part) _ _ _ _
  · exact noGroup

/-- **One command.** Opening a DM and sending learn nothing about groups. -/
theorem wp_command {input : Input} {prog : Client Unit}
    (calls : Prog.Calls (Ask.May (fun part _ => part ∉ groupParts) (fun _ _ => True) fun _ =>
      True) prog)
    (free : ∀ asked s, SparesDm p input asked s) (noGroup : NoGroup p v) :
    Prog.wp (Ask.spec (SparesDm p input) fun _ _ => True) (fun _ => NoGroup p) prog v := by
  refine calls.wp (fun asked s _ _ => free asked s) (fun asked s answer s' may before made =>
    ?_) noGroup
  have harmless : HarmlessAsk p False asked :=
    may.mono (fun part id outside _ => ⟨outside, False.elim⟩) (fun _ _ => id) fun _ => id
  exact (harmless_within asked s harmless before).2 answer s' made

theorem wp_input (ctx : ProcCtx) (input : Input) (v : Vault) (genuine : Genuine p input v)
    (noGroup : NoGroup p v) :
    Prog.wp (Ask.spec (SparesDm p input) fun _ _ => True) (fun _ => NoGroup p)
      (input.handle ctx) v := by
  cases input with
  | frame inc => exact wp_frame genuine noGroup
  | startDm app username =>
      refine wp_command ?_ (fun _ _ => trivial) noGroup
      exact calls_startDm (fun _ => by decide) (by decide) (by decide) trivial (by decide) app
  | send app chat text =>
      -- `group_out` holds our own keys: having one is not knowing the group
      refine wp_command ?_ (fun _ _ => trivial) noGroup
      exact calls_send (fun _ => by decide) (fun _ => by decide) (by decide) (by decide)
        (fun _ => trivial) app text

/-- **The DM with `p` is isolated.** Where no group called `p` is known at first and no key share is
admitted under that name, no request made for a frame of another user touches the DM. -/
theorem dm_isolated (ctx : ProcCtx) (p : String) (start : Vault) (unknown : NoGroup p start)
    {inc : Incoming} {prog prog' : Client Unit} {v v' : Vault}
    (reached : Relation.ReflTransGen (Served Ask.effect (Input.handle ctx) (Genuine p))
      (none, start)
      (some (.frame inc, prog), v))
    (step : Prog.Moves Ask.effect (prog, v) (prog', v')) (other : inc.from ≠ p) :
      DmSame p v v' := by
  cases step with
  | ask made => exact served_demands (wp_input ctx) unknown reached other _ _ made

end

namespace Ideal

/-- Alice has a session with Mallory. -/
def malloryKnown : Vault :=
  Vault.empty.saveOlm "mallory" ⟨7, false, publicKey 2 1, publicKey 2 2, publicKey 3 100, none,
  true, []⟩

/-- A group whose id is Bob's name. -/
def bobShare : GroupKeyShare where
  groupId := "bob"
  name := "Bob"
  sessionKey := "5.0"
  senderCurve := ""
  members := ["mallory", "alice"]
  owner := "mallory"
  accessMode := "open"
  groupKey := "ABCDEFGH"

def malloryMessage (plaintext : Bytes) : Message where
  preKey := false
  sid := 7
  fromOpener := true
  identity := publicKey 2 2
  otk := publicKey 3 100
  place := (7, 0)
  plaintext := plaintext

def malloryFrame (msgType : String) (plaintext : Bytes) : Incoming :=
  ⟨"mallory", msgType, encodeOlm (toParts (malloryMessage plaintext)).1
    (toParts (malloryMessage plaintext)).2, none, 0⟩

/-- Alice's vault when she has read a message of Mallory's. -/
def malloryHeard : Vault :=
  malloryKnown.saveOlm "mallory"
    ⟨7, false, publicKey 2 1, publicKey 2 2, publicKey 3 100, none, true, [(7, 0)]⟩

/-- What is done about a plaintext of Mallory's, and the vault, after that many requests. -/
def malloryRun (prog : Client Unit) (n : Nat) : Client Unit × Vault :=
  Prog.advance (Ask.play world) n (prog.attempt.bind roundEnd, malloryHeard)

theorem conforms (asked : Ask) (v : Vault) :
    Ask.effect asked v (Ask.play world asked v).1 (Ask.play world asked v).2 :=
  Ask.play_conforms (fun _ => trivial) asked v

/-- The step after that many is a request. -/
theorem malloryRun_moves (prog : Client Unit) (n : Nat)
    (asks : (malloryRun prog n).1.isAsk = true) :
    Prog.Moves Ask.effect ((malloryRun prog n).1, (malloryRun prog n).2)
      ((malloryRun prog (n + 1)).1, (malloryRun prog (n + 1)).2) :=
  Prog.advance_next conforms n _ asks

theorem bob_no_group : NoGroup "bob" malloryKnown := ⟨rfl, fun _ => rfl⟩

theorem mallory_opens (plaintext : Bytes) :
    Prog.Runs Ask.effect (obtainOlmPlaintext "mallory" (malloryFrame "" plaintext).payload)
      malloryKnown
      (.ok plaintext) malloryHeard :=
  obtainOlmPlaintext_held rfl rfl

/-- A frame of Mallory's is decrypted, and then worked off. -/
theorem mallory_served (accepts : Input → Vault → Prop) (msgType : String) (plaintext : Bytes)
    (handler : Bytes → Client Unit)
    (handles : processOne ⟨"alice", "relay"⟩ (malloryFrame msgType plaintext) =
      (obtainOlmPlaintext "mallory" (malloryFrame "" plaintext).payload).bind handler)
    (accepted : accepts (.frame (malloryFrame msgType plaintext)) malloryKnown) (n : Nat) :
    Relation.ReflTransGen (Served Ask.effect (Input.handle ⟨"alice", "relay"⟩) accepts)
      (none, malloryKnown) (some (.frame (malloryFrame msgType plaintext),
        (malloryRun (handler plaintext) n).1), (malloryRun (handler plaintext) n).2) := by
  have opened := (mallory_opens plaintext).moves_bind handler
  rw [← handles] at opened
  exact served_moves accepted ((processFrame_moves opened).trans (Prog.advance_moves conforms n _))

/-- What a message of Mallory's is for. Said of any plaintext, it is not evaluated. -/
theorem mallory_texts (plaintext : Bytes) :
    processOne ⟨"alice", "relay"⟩ (malloryFrame MsgType.olm plaintext) =
      (obtainOlmPlaintext "mallory" (malloryFrame "" plaintext).payload).bind fun plaintext =>
        deliverDmText ⟨"alice", "relay"⟩ "mallory" plaintext 0 := rfl

theorem mallory_hands_key (plaintext : Bytes) :
    processOne ⟨"alice", "relay"⟩ (malloryFrame MsgType.olmGroupKey plaintext) =
      (obtainOlmPlaintext "mallory" (malloryFrame "" plaintext).payload).bind
        (handleGroupKeyShare ⟨"alice", "relay"⟩ "mallory") := rfl

/-- The text "hi" of Mallory's. -/
abbrev malloryText : Client Unit := deliverDmText ⟨"alice", "relay"⟩ "mallory" (utf8 "hi") 0

/-- Mallory's text is stored in the chat with Mallory: the DM with Bob is as it was. -/
theorem mallory_text_spares_bob :
    DmSame "bob" (malloryRun malloryText 2).2 (malloryRun malloryText 3).2 := by
  have other : (malloryFrame MsgType.olm (utf8 "hi")).from ≠ "bob" :=
    show "mallory" ≠ "bob" by decide
  have asks : (malloryRun malloryText 2).1.isAsk = true := by
    unfold malloryText deliverDmText
    rw [fromUtf8_utf8]
    decide +kernel
  have genuine : Genuine "bob" (.frame (malloryFrame MsgType.olm (utf8 "hi"))) malloryKnown :=
    fun forgery => absurd forgery.1 (show "olm" ≠ "olm_group_key" by decide)
  have served : Relation.ReflTransGen (Served Ask.effect (Input.handle ⟨"alice", "relay"⟩)
      (Genuine "bob")) (none, malloryKnown) (some (.frame (malloryFrame MsgType.olm (utf8 "hi")),
        (malloryRun malloryText 2).1), (malloryRun malloryText 2).2) :=
    mallory_served _ _ _ _ (mallory_texts _) genuine 2
  exact dm_isolated ⟨"alice", "relay"⟩ "bob" malloryKnown bob_no_group served
    (malloryRun_moves malloryText 2 asks) other

/-- Mallory's key share. -/
abbrev malloryShare : Client Unit :=
  handleGroupKeyShare ⟨"alice", "relay"⟩ "mallory" (toVec bobShare.toJson)

/-- The request for Bob's chat comes after seven others. -/
theorem share_asks : (malloryRun malloryShare 7).1.isAsk = true := by
  unfold malloryShare handleGroupKeyShare
  rw [GroupKeyShare.fromSlice_toVec]
  decide +kernel

theorem share_before : (malloryRun malloryShare 7).2.chats.get "bob" = none := by
  unfold malloryShare handleGroupKeyShare
  rw [GroupKeyShare.fromSlice_toVec]
  decide +kernel

theorem share_after :
    (malloryRun malloryShare 8).2.chats.get "bob" = some ⟨"group", "Bob", 0⟩ := by
  unfold malloryShare handleGroupKeyShare
  rw [GroupKeyShare.fromSlice_toVec]
  decide +kernel

/-- Mallory's share makes the chat with Bob, as a group of Mallory's. -/
theorem mallory_share_makes_bob :
    ¬ ∀ (ctx : ProcCtx) (p : String) (start : Vault) (inc : Incoming) (prog prog' : Client Unit)
      (v v' : Vault), NoGroup p start →
      Relation.ReflTransGen (Served Ask.effect (Input.handle ctx) fun _ _ => True) (none, start)
        (some (.frame inc, prog), v) →
      Prog.Moves Ask.effect (prog, v) (prog', v') → inc.from ≠ p → DmSame p v v' := by
  intro law
  have served : Relation.ReflTransGen (Served Ask.effect (Input.handle ⟨"alice", "relay"⟩)
      fun _ _ => True) (none, malloryKnown)
      (some (.frame (malloryFrame MsgType.olmGroupKey (toVec bobShare.toJson)),
        (malloryRun malloryShare 7).1), (malloryRun malloryShare 7).2) :=
    mallory_served _ _ _ _ (mallory_hands_key _) trivial 7
  have same : DmSame "bob" (malloryRun malloryShare 7).2 (malloryRun malloryShare 8).2 :=
    law ⟨"alice", "relay"⟩ "bob" malloryKnown
      (malloryFrame MsgType.olmGroupKey (toVec bobShare.toJson)) _ _ _ _ bob_no_group served
      (malloryRun_moves malloryShare 7 share_asks) (show "mallory" ≠ "bob" by decide)
  have unchanged := same.chat
  rw [share_before, share_after] at unchanged
  cases unchanged

end Ideal

end Cherm
