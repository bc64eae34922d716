/-
**What the shared functions may ask for.**

`Ask.May rows kinds sends` bounds the requests of a program by the rows of the vault it may write
and the messages it may hand over; it may read, fetch bundles, emit events and read the clock as it
likes. One lemma for each function of `Identity` and `Net` says which rows and which messages it
needs:

* `calls_obtainOlmPlaintext`, `calls_ensureOlm` for the exchanges with one peer;
* `calls_distributeGroupKey`, `calls_broadcastGroupEvent`, `calls_admitMember` for a group.

With `Ask.May.frame`, rows that are out of bounds stay what they were, and `wp_within` makes a
verified program of a bounded one.
-/

import Cherm.Client.Net
import Cherm.VaultFrame

namespace Cherm

open Crates

section

variable [Crates]

/-- The requests that write only these rows, give chats only these kinds and hand over only these
messages. -/
def Ask.May (rows : VaultPart → String → Prop) (kinds : String → String → Prop)
    (sends : SendMsg → Prop) : Ask → Prop
  | .call op => (∀ part id, op.Writes part id → rows part id) ∧ op.Makes kinds
  | .post (.send msg) => sends msg
  | .request (.fetchPrekeys _) | .emit _ | .now | .random => True
  | _ => False

section

variable {rows : VaultPart → String → Prop} {kinds : String → String → Prop}
  {sends : SendMsg → Prop}

theorem Ask.May.mono {rows' : VaultPart → String → Prop} {kinds' : String → String → Prop}
    {sends' : SendMsg → Prop} (moreRows : ∀ part id, rows part id → rows' part id)
    (moreKinds : ∀ id kind, kinds id kind → kinds' id kind)
    (moreSends : ∀ msg, sends msg → sends' msg) {asked : Ask} (may : asked.May rows kinds sends) :
    asked.May rows' kinds' sends' := by
  cases asked with
  | call op =>
      refine ⟨fun part id writes => moreRows part id (may.1 part id writes), ?_⟩
      have makes := may.2
      cases op with
      | upsertChat id kind title now => exact moreKinds id kind makes
      | _ => trivial
  | post msg =>
      cases msg with
      | send msg => exact moreSends msg may
      | _ => exact may
  | request msg => cases msg <;> exact may
  | _ => exact may

/-- Rows out of bounds stay what they were. -/
theorem Ask.May.frame {asked : Ask} (may : asked.May rows kinds sends) {part : VaultPart}
    {id : String}
    (outside : ¬ rows part id) {allow : (asked : Ask) → asked.Answer → Prop} {v v' : Vault}
    {answer : asked.Answer} (made : Ask.effectIf allow asked v answer v') :
    part.SameAt id v v' := by
  cases asked with
  | call op =>
      have frame := op.exec_frame v part id fun writes => outside (may.1 part id writes)
      rwa [← (made : (answer, v') = op.exec v)] at frame
  | _ =>
      obtain ⟨_, rfl⟩ := made
      exact part.sameAt_refl id v'

/-! ### What a request does to the identity in a vault -/

theorem Ask.effect_account {asked : Ask} {v v' : Vault} {answer : asked.Answer}
    (made : Ask.effect asked v answer v') (other : ∀ device, asked ≠ .call (.saveAccount device)) :
    v'.account = v.account := by
  cases asked with
  | call op =>
      have frame : VaultPart.account.SameAt "" v (op.exec v).2 := by
        refine op.exec_frame v .account "" fun writes => ?_
        cases op with
        | saveAccount device => exact other device rfl
        | _ => revert writes; simp [VaultOp.Writes, VaultPart.ofChat]
      rw [← (made : (answer, v') = op.exec v)] at frame
      exact frame
  | _ =>
      obtain ⟨_, rfl⟩ := made
      rfl

theorem Ask.effect_username {asked : Ask} {v v' : Vault} {answer : asked.Answer}
    (made : Ask.effect asked v answer v') (other : ∀ name,
      asked ≠ .call (.metaSet "username" name)) :
    v'.metaGet "username" = v.metaGet "username" := by
  cases asked with
  | call op =>
      have frame : VaultPart.meta.SameAt "username" v (op.exec v).2 := by
        refine op.exec_frame v .meta "username" fun writes => ?_
        cases op with
        | metaSet key value =>
            obtain ⟨_, rfl⟩ := writes
            exact other value rfl
        | _ => revert writes; simp [VaultOp.Writes, VaultPart.ofChat]
      rw [← (made : (answer, v') = op.exec v)] at frame
      exact frame
  | _ =>
      obtain ⟨_, rfl⟩ := made
      rfl

namespace Client

/-! ### Small programs -/

theorem calls_emit (event : Event) : Prog.Calls (Ask.May rows kinds sends) (emit event) :=
  ⟨trivial, fun _ => trivial⟩

theorem calls_now : Prog.Calls (Ask.May rows kinds sends) now := ⟨trivial, fun _ => trivial⟩

theorem calls_random : Prog.Calls (Ask.May rows kinds sends) random := ⟨trivial, fun _ => trivial⟩

theorem calls_lift {α : Type} (value : Except String α) :
    Prog.Calls (Ask.May rows kinds sends) (lift value) := Prog.calls_ofExcept value

/-- A call that only reads. -/
theorem calls_read {op : VaultOp} (reads : ∀ part id, ¬ op.Writes part id) :
    Prog.Calls (Ask.May rows kinds sends) (call op) := by
  refine ⟨⟨fun part id writes => absurd writes (reads part id), ?_⟩, fun _ => trivial⟩
  cases op with
  | upsertChat id kind title now => exact absurd ⟨rfl, rfl⟩ (reads .chats id)
  | _ => trivial

/-- A call that writes one part under one id. -/
theorem calls_write {op : VaultOp} {part : VaultPart} {id : String} (allowed : rows part id)
    (writes : ∀ part' id', op.Writes part' id' → part' = part ∧ id' = id) (makes : op.Makes kinds) :
    Prog.Calls (Ask.May rows kinds sends) (call op) := by
  refine ⟨⟨fun part' id' written => ?_, makes⟩, fun _ => trivial⟩
  obtain ⟨rfl, rfl⟩ := writes part' id' written
  exact allowed

theorem calls_post {msg : SendMsg} (allowed : sends msg) :
    Prog.Calls (Ask.May rows kinds sends) (post (.send msg)) :=
  ⟨allowed, fun _ => Prog.calls_ofExcept _⟩

theorem calls_fetch (peer : String) :
    Prog.Calls (Ask.May rows kinds sends) (request (.fetchPrekeys peer)) :=
  ⟨trivial, fun _ => Prog.calls_ofExcept _⟩

theorem calls_upsertChat {id kind : String} (chats : rows .chats id) (made : kinds id kind)
    (title : String) : Prog.Calls (Ask.May rows kinds sends) (upsertChat id kind title) :=
  calls_now.bind fun _ => calls_write chats (fun _ _ written => written) made

theorem calls_insertMessage {chat : String} (messages : rows .messages chat) (sender body : String)
    (ts : Int) (outgoing : Bool) :
    Prog.Calls (Ask.May rows kinds sends) (insertMessage chat sender body ts outgoing) :=
  calls_now.bind fun _ => calls_write messages (fun _ _ => id) (by trivial)

theorem calls_isSuspended {groupId : String} (suspensions : rows .groupSuspensions groupId)
    (username : String) (now : Int) :
    Prog.Calls (Ask.May rows kinds sends) (isSuspended groupId username now) := by
  refine (calls_read fun _ _ => id).bind fun deadline => ?_
  cases deadline with
  | none => trivial
  | some untilTs =>
      dsimp only
      split
      · trivial
      · exact (calls_write suspensions (fun _ _ => id) (by trivial)).bind fun _ => trivial

theorem calls_emitChats (addr : String) : Prog.Calls (Ask.May rows kinds sends) (emitChats addr) :=
  (calls_read fun _ _ => id).bind fun _ => calls_emit _

theorem calls_emitFingerprint (username : String) :
    Prog.Calls (Ask.May rows kinds sends) (emitFingerprint username) := by
  refine (calls_read fun _ _ => id).bind fun ed => ?_
  cases ed with
  | none => trivial
  | some ed => exact calls_emit _

theorem calls_emitSystem {chat : String} (messages : rows .messages chat) (text : String)
    (ts : Int) :
    Prog.Calls (Ask.May rows kinds sends) (emitSystem chat text ts) :=
  (calls_insertMessage messages _ _ _ _).bind fun _ => calls_emit _

theorem calls_emitGroupEvent {chat : String} (messages : rows .messages chat)
    (kind who extra : String) (ts : Int) :
    Prog.Calls (Ask.May rows kinds sends) (emitGroupEvent chat kind who extra ts) := by
  unfold emitGroupEvent
  split
  · exact calls_emitSystem messages _ ts
  · trivial

/-! ### Exchanges with one peer -/

theorem calls_acceptIdentity (contacts : ∀ id, rows .contacts id)
    (username uuid ed25519 curve25519 : String) :
    Prog.Calls (Ask.May rows kinds sends) (acceptIdentity username uuid ed25519 curve25519) := by
  have upsert : Prog.Calls (Ask.May rows kinds sends)
      (call (.upsertContact username uuid ed25519 curve25519)) :=
    calls_write (contacts _) (fun _ _ => id) (by trivial)
  unfold acceptIdentity
  split
  · exact (calls_emit _).bind fun _ => trivial
  · refine (calls_read fun _ _ => id).bind fun checked => ?_
    cases checked with
    | conflict => exact (calls_emit _).bind fun _ => trivial
    | _ => exact upsert.bind fun _ => trivial

/-- Finding or starting a session writes contacts only. -/
theorem calls_ensureOlm (contacts : ∀ id, rows .contacts id) (peer : String) :
    Prog.Calls (Ask.May rows kinds sends) (ensureOlm peer) := by
  refine (calls_read fun _ _ => id).bind fun held => ?_
  cases held with
  | some session => trivial
  | none =>
      refine (calls_read fun _ _ => id).bind fun account => (calls_okOr _ _).bind fun device =>
        (calls_fetch peer).bind fun reply => ?_
      cases reply with
      | prekeyBundle bundle =>
          dsimp only
          cases bundle.oneTimeKey with
          | none => exact (calls_emit _).bind fun _ => trivial
          | some otk =>
              refine (calls_acceptIdentity contacts _ _ _ _).bind fun accepted => ?_
              cases accepted with
              | false => trivial
              | true => exact calls_random.bind fun _ => (calls_lift _).bind fun _ => trivial
      | _ => exact (calls_emit _).bind fun _ => trivial

theorem calls_obtainCurve (contacts : ∀ id, rows .contacts id) (sender : String) :
    Prog.Calls (Ask.May rows kinds sends) (obtainCurve sender) := by
  refine (calls_read fun _ _ => id).bind fun known => ?_
  cases known with
  | some curve => trivial
  | none =>
      refine (calls_fetch sender).bind fun reply => ?_
      cases reply with
      | prekeyBundle bundle =>
          refine (calls_acceptIdentity contacts _ _ _ _).bind fun accepted => ?_
          cases accepted <;> trivial
      | _ => trivial

theorem calls_acceptInbound (contacts : ∀ id, rows .contacts id) (account : ∀ id, rows .account id)
    {sender : String} (sessions : rows .olmSessions sender) (olmType : Nat) (body : Bytes) :
    Prog.Calls (Ask.May rows kinds sends) (acceptInbound sender olmType body) := by
  refine (calls_obtainCurve contacts sender).bind fun curve => (calls_read fun _ _ => id).bind
    fun device => (calls_okOr _ _).bind fun device => (calls_lift _).bind fun opened => ?_
  refine Prog.Calls.bind ⟨⟨?_, trivial⟩, fun _ => trivial⟩ fun _ =>
    (calls_write sessions (fun _ _ => id) (by trivial)).bind fun _ => trivial
  rintro _ id rfl
  exact account id

/-- Decrypting writes contacts, our account and the sender's session. -/
theorem calls_obtainOlmPlaintext (contacts : ∀ id, rows .contacts id)
    (account : ∀ id, rows .account id) {sender : String} (sessions : rows .olmSessions sender)
    (payload : String) :
    Prog.Calls (Ask.May rows kinds sends) (obtainOlmPlaintext sender payload) := by
  refine (calls_lift _).bind fun parts => (calls_read fun _ _ => id).bind fun held => ?_
  cases held with
  | none => exact calls_acceptInbound contacts account sessions _ _
  | some session =>
      dsimp only
      split
      · exact (calls_write sessions (fun _ _ => id) (by trivial)).bind fun _ => trivial
      · split
        · trivial
        · exact calls_acceptInbound contacts account sessions _ _

/-- Writing to a peer stores its session and hands over one message. -/
theorem calls_postOlm {peer : String} (sessions : rows .olmSessions peer) {msgType : String}
    {groupId : Option String} {clientTs : Int}
    (allowed : ∀ payload, sends ⟨[peer], msgType, payload, groupId, clientTs⟩)
    (session : OlmSession) (plaintext : Bytes) :
    Prog.Calls (Ask.May rows kinds sends) (postOlm session peer msgType plaintext groupId
      clientTs) := by
  exact calls_random.bind fun seed => (calls_lift _).bind fun sealed =>
    (calls_write sessions (fun _ _ => id) (by trivial)).bind fun _ => calls_post (allowed _)

theorem calls_sendOlmControl (contacts : ∀ id, rows .contacts id) {peer : String}
    (sessions : rows .olmSessions peer) {msgType groupId : String}
    (allowed : ∀ payload now, sends ⟨[peer], msgType, payload, some groupId, now⟩) (value : Json) :
    Prog.Calls (Ask.May rows kinds sends) (sendOlmControl peer msgType groupId value) := by
  refine (calls_ensureOlm contacts peer).bind fun held => ?_
  cases held with
  | none => trivial
  | some session =>
      exact calls_random.bind fun seed => (calls_lift _).bind fun sealed =>
        (calls_write sessions (fun _ _ => id) (by trivial)).bind fun _ => calls_now.bind fun now =>
          calls_post (allowed _ now)

/-! ### Groups -/

theorem calls_shareKey (contacts : ∀ id, rows .contacts id) {member : String}
    (sessions : rows .olmSessions member) {groupId : String} {now : Int}
    (allowed : ∀ payload, sends ⟨[member], MsgType.olmGroupKey, payload, some groupId, now⟩)
    (me : String) (share : GroupKeyShare) :
    Prog.Calls (Ask.May rows kinds sends) (shareKey me groupId share now member) := by
  unfold shareKey
  split
  · trivial
  · refine (calls_ensureOlm contacts member).bind fun held => ?_
    cases held with
    | none => trivial
    | some session => exact calls_postOlm sessions allowed session _

/-- A distribution writes the sessions of its recipients and shares the key with them. -/
theorem calls_distributeGroupKey (contacts : ∀ id, rows .contacts id) {recipients : List String}
    (sessions : ∀ member ∈ recipients, rows .olmSessions member) {groupId : String}
    (allowed : ∀ member ∈ recipients, ∀ payload now,
      sends ⟨[member], MsgType.olmGroupKey, payload, some groupId, now⟩)
    (me name : String) (sender : GroupSender) :
    Prog.Calls (Ask.May rows kinds sends) (distributeGroupKey me groupId name recipients
      sender) := by
  refine (calls_read fun _ _ => id).bind fun account => (calls_okOr _ _).bind fun device =>
    (calls_read fun _ _ => id).bind fun members => (calls_read fun _ _ => id).bind fun row =>
      calls_now.bind fun now => Prog.calls_forEach fun member here => ?_
  exact calls_shareKey contacts (sessions member here)
    (fun payload => allowed member here payload now) me _

theorem calls_groupSender {groupId : String} (out : rows .groupOut groupId)
    {mint : GroupSender → Client Unit}
    (minted : ∀ sender, Prog.Calls (Ask.May rows kinds sends) (mint sender)) :
    Prog.Calls (Ask.May rows kinds sends) (groupSender groupId mint) := by
  refine (calls_read fun _ _ => id).bind fun held => ?_
  cases held with
  | some sender => trivial
  | none =>
      exact calls_random.bind fun seed => (calls_write out (fun _ _ => id)
        (by trivial)).bind fun _ =>
        (minted _).bind fun _ => trivial

theorem calls_sendGroupEvent {groupId : String} (out : rows .groupOut groupId)
    (events : ∀ members payload now,
      sends ⟨members, MsgType.groupEvent, payload, some groupId, now⟩)
    (me : String) (roster : List String) (sender : GroupSender) (event : Json) :
    Prog.Calls (Ask.May rows kinds sends) (sendGroupEvent me groupId roster sender event) := by
  refine (calls_write out (fun _ _ => id) (by trivial)).bind fun _ => ?_
  dsimp only
  split
  · exact calls_now.bind fun now => calls_post (events _ _ now)
  · trivial

/-- A broadcast may mint a key and share it with the whole roster first. -/
theorem calls_broadcastGroupEvent (contacts : ∀ id, rows .contacts id)
    (sessions : ∀ member, rows .olmSessions member) {groupId : String}
      (out : rows .groupOut groupId)
    (shares : ∀ member payload now,
      sends ⟨[member], MsgType.olmGroupKey, payload, some groupId, now⟩)
    (events : ∀ members payload now,
      sends ⟨members, MsgType.groupEvent, payload, some groupId, now⟩)
    (me name : String) (event : Json) :
    Prog.Calls (Ask.May rows kinds sends) (broadcastGroupEvent me groupId name event) := by
  refine (calls_read fun _ _ => id).bind fun roster => ?_
  refine (calls_groupSender out fun sender => ?_).bind fun sender =>
    calls_sendGroupEvent out events me roster sender event
  exact calls_distributeGroupKey contacts (fun member _ => sessions member)
    (fun member _ => shares member) me name sender

theorem calls_admitMember (contacts : ∀ id, rows .contacts id)
    (sessions : ∀ member, rows .olmSessions member) {groupId : String}
    (roster : rows .chatMembers groupId) (requests : rows .groupJoinRequests groupId)
    (out : rows .groupOut groupId) (messages : rows .messages groupId)
    (shares : ∀ member payload now,
      sends ⟨[member], MsgType.olmGroupKey, payload, some groupId, now⟩)
    (events : ∀ members payload now,
      sends ⟨members, MsgType.groupEvent, payload, some groupId, now⟩)
    (me addr who : String) (now : Int) :
    Prog.Calls (Ask.May rows kinds sends) (admitMember me addr groupId who now) := by
  have silent : ∀ _ : GroupSender, Prog.Calls (Ask.May rows kinds sends) (pure () : Client Unit) :=
    fun _ => trivial
  refine (calls_read fun _ _ => id).bind fun chat => ?_
  refine (calls_write roster (fun _ _ => id) (by trivial)).bind fun _ => ?_
  refine (calls_write requests (fun _ _ => id) (by trivial)).bind fun _ => ?_
  refine (calls_groupSender out silent).bind fun sender => ?_
  refine (calls_distributeGroupKey contacts (fun member _ => sessions member)
    (fun member _ => shares member) _ _ _).bind fun _ => ?_
  refine (calls_broadcastGroupEvent contacts sessions out shares events _ _ _).bind fun _ => ?_
  exact (calls_emitGroupEvent messages _ _ _ _).bind fun _ => calls_emitChats addr

theorem calls_denyJoin (contacts : ∀ id, rows .contacts id) {peer : String}
    (sessions : rows .olmSessions peer) {groupId : String}
    (denials : ∀ payload now,
      sends ⟨[peer], MsgType.groupJoinDenied, payload, some groupId, now⟩) (reason : String) :
    Prog.Calls (Ask.May rows kinds sends) (denyJoin peer groupId reason) :=
  calls_sendOlmControl contacts sessions denials _

/-- A join request writes the rows of the group it names, and sends messages of it. -/
theorem calls_handleJoinRequest (contacts : ∀ id, rows .contacts id)
    (sessions : ∀ member, rows .olmSessions member) {plaintext : Bytes}
    (group : ∀ req, JoinRequest.fromSlice plaintext = .ok req →
      ∀ part ∈ VaultPart.ofChat, rows part req.groupId)
    (sent : ∀ req, JoinRequest.fromSlice plaintext = .ok req →
      ∀ members msgType payload now, sends ⟨members, msgType, payload, some req.groupId, now⟩)
    (ctx : ProcCtx) (sender : String) (now : Int) :
    Prog.Calls (Ask.May rows kinds sends) (handleJoinRequest ctx sender plaintext now) := by
  cases read : JoinRequest.fromSlice plaintext with
  | error e =>
      unfold handleJoinRequest
      rw [read]
      trivial
  | ok req =>
      have part := group req read
      have suspensions : rows .groupSuspensions req.groupId := part _ (by decide)
      have requests : rows .groupJoinRequests req.groupId := part _ (by decide)
      have messages : rows .messages req.groupId := part _ (by decide)
      unfold handleJoinRequest
      rw [read]
      refine (calls_read fun _ _ => id).bind fun row => ?_
      cases row with
      | none => trivial
      | some row =>
          dsimp only
          split
          · trivial
          · refine (calls_read fun _ _ => id).bind fun banned =>
              (calls_isSuspended suspensions _ _).bind fun suspended =>
                (calls_read fun _ _ => id).bind fun member => ?_
            split
            · exact calls_admitMember contacts sessions (part _ (by decide)) requests
                (part _ (by decide)) messages (fun _ => sent req read _ _)
                  (fun _ => sent req read _ _)
                _ _ _ _
            · exact (calls_write requests (fun _ _ => id) (by trivial)).bind fun _ =>
                (calls_emitGroupEvent messages _ _ _ _).bind fun _ => calls_emit _
            · exact calls_denyJoin contacts (sessions sender) (sent req read _ _) _

/-- A program of harmless requests. -/
theorem wp_within {demand : Ask → Vault → Prop} {allow : (asked : Ask) → asked.Answer → Prop}
    {inv : Vault → Prop}
    (within : ∀ asked v, Ask.May rows kinds sends asked → inv v → demand asked v ∧
      ∀ answer v', Ask.effectIf allow asked v answer v' → inv v')
    {α : Type} {prog : Client α} (calls : Prog.Calls (Ask.May rows kinds sends) prog) {v : Vault}
    (before : inv v) : Prog.wp (Ask.spec demand allow) (fun _ => inv) prog v :=
  calls.wp (fun asked v may holds => (within asked v may holds).1)
    (fun asked v answer v' may holds made => (within asked v may holds).2 answer v' made) before

end Client

end

end

end Cherm
