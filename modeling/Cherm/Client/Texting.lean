/-
**What a text does to the vault that sends it and to the one that gets it.**

`Vault.said` and `Vault.heard` are the texts of a chat: our own, and another's. A `send` either
leaves the vault alone or puts the text into it and one frame on its way (`SendEnds`, for a DM
`SentDm`, for a group `SentGroup`); a frame of a DM or of a group puts the text into the vault that
can read it (`wp_processFrame_dm`, `wp_processFrame_group`). What the ratchets do is a hypothesis of
each rule.
-/

import Cherm.Client.Account
import Cherm.Client.Processor
import Cherm.VaultFrame

namespace Cherm

open Crates Client

/-! ### Copies of a message -/

/-- The copy for one recipient, as their reader forwards it. Nobody gets one of their own. -/
def SendMsg.copy (sender recipient : String) (msg : SendMsg) : Option Incoming :=
  if recipient ∈ msg.to ∧ recipient ≠ sender then
    some ⟨sender, msg.msgType, msg.payload, msg.groupId, msg.clientTs⟩
  else none

/-- The relay takes it. -/
def SendMsg.Taken (msg : SendMsg) : Prop :=
  msg.payload.utf8ByteSize ≤ maxPayload ∧ msg.to.length ≤ maxRecipients

instance (msg : SendMsg) : Decidable msg.Taken := inferInstanceAs (Decidable (_ ∧ _))

section

variable [Crates]

def Ask.copy (sender recipient : String) : Ask → Option Incoming
  | .post (.send msg) => msg.copy sender recipient
  | _ => none

/-- The copies for one recipient among the requests of a task, the latest of which comes first. -/
def copies (sender recipient : String) (log : List Ask) : List Incoming :=
  log.reverse.filterMap (Ask.copy sender recipient)

theorem copies_cons (sender recipient : String) (asked : Ask) (log : List Ask) :
    copies sender recipient (asked :: log) =
      copies sender recipient log ++ (asked.copy sender recipient).toList := by
  rw [copies, copies, List.reverse_cons, List.filterMap_append]
  cases same : asked.copy sender recipient <;> simp [same]

/-- Nothing was handed to the relay. -/
def Silent (log : List Ask) : Prop := ∀ sender recipient, copies sender recipient log = []

theorem silent_nil : Silent [] := fun _ _ => rfl

theorem Silent.cons {log : List Ask} (silent : Silent log) {asked : Ask}
    (noPost : ∀ msg, asked ≠ .post msg) : Silent (asked :: log) := by
  intro sender recipient
  rw [copies_cons, silent sender recipient]
  cases asked with
  | post msg => exact absurd rfl (noPost msg)
  | _ => rfl

/-! ### What a chat shows -/

/-- A text and the time it was written. -/
abbrev Words := String × Int

def MessageRow.words (row : MessageRow) : Words := (row.body, row.ts)

namespace Vault

/-- Our own texts in a chat. -/
def said (v : Vault) (chat : String) : List Words :=
  ((v.messages.filter (·.chatId = chat)).filter (·.outgoing)).map MessageRow.words

/-- The texts of someone else in a chat. -/
def heard (v : Vault) (chat sender : String) : List Words :=
  ((v.messages.filter (·.chatId = chat)).filter fun row =>
    !row.outgoing && decide (row.sender = sender)).map MessageRow.words

theorem said_insertMessage (v : Vault) (chat sender text : String) (ts recvTs : Int)
    (outgoing : Bool) : (v.insertMessage chat sender text ts outgoing recvTs).said chat =
      v.said chat ++ if outgoing then [(text, ts)] else [] := by
  cases outgoing <;> simp [said, insertMessage, MessageRow.words]

theorem heard_insertMessage (v : Vault) (chat sender text : String) (ts recvTs : Int)
    (outgoing : Bool) (other : String) :
    (v.insertMessage chat sender text ts outgoing recvTs).heard chat other =
      v.heard chat other ++ if outgoing = false ∧ sender = other then [(text, ts)] else [] := by
  cases outgoing <;> by_cases same : sender = other <;>
    simp [heard, insertMessage, MessageRow.words, same]

theorem said_same {v v' : Vault} {chat : String} (same : VaultPart.messages.SameAt chat v v') :
    v'.said chat = v.said chat := by
  unfold said
  rw [show v'.messages.filter (·.chatId = chat) = v.messages.filter (·.chatId = chat) from same]

theorem heard_same {v v' : Vault} {chat sender : String}
    (same : VaultPart.messages.SameAt chat v v') : v'.heard chat sender = v.heard chat sender := by
  unfold heard
  rw [show v'.messages.filter (·.chatId = chat) = v.messages.filter (·.chatId = chat) from same]

end Vault

/-! ### Sending -/

variable {allow : (asked : Ask) → asked.Answer → Prop}

/-- What `send` does with a chat that is known, once the link is there. -/
def sendKnown (me chat text title : String) (now : Int) : String → Client Unit
  | "dm" => do
      match ← call (.loadOlm chat) with
      | none =>
          emit (.error "no_session" "no Olm session; start_dm first")
          return ()
      | some session => postOlm session chat MsgType.olm (utf8 text) none now
      insertMessage chat me text now true
      emit (.message chat me text now true false)
  | "group" => do
      let sender ← groupSender chat fun sender => do
        let roster ← call (.getMembers chat)
        distributeGroupKey me chat title roster sender
      let (bytes, sender) := sender.encrypt (utf8 text)
      call (.saveGroupOut chat sender)
      let members ← call (.getMembers chat)
      post (.send ⟨members.filter (· ≠ me), MsgType.megolm, b64Encode bytes, some chat, now⟩)
      insertMessage chat me text now true
      emit (.message chat me text now true false)
  | other => do
      emit (.error ErrCode.badRequest ("unknown chat kind " ++ other))
      return ()

theorem wp_send {post : Except String Unit → Vault × List Ask → Prop} (app : App) {v : Vault}
    {me chat : String} (text : String) (named : v.metaGet "username" = some me)
    (idle : ∀ log, Silent log → post (.ok ()) (v, log))
    (known : ∀ row, v.chats.get chat = some row → ∀ now log, Silent log →
      Prog.wp (.free (Prog.logged (Ask.effectIf allow))) post
        (sendKnown me chat text row.title now row.kind) (v, log)) :
    Prog.wp (.free (Prog.logged (Ask.effectIf allow))) post (send app chat text) (v, []) := by
  unfold send activeServer ownUsername knownChat activeLink
  cases app.active with
  | none =>
      simp only [Prog.bind_eq, Prog.pure_eq, Prog.ask_bind, Prog.done_bind, emit_eq,
        wp_logged_world, Prog.wp_done]
      exact fun _ _ => idle _ (silent_nil.cons (by simp))
  | some server =>
      simp only [Prog.bind_eq, Prog.pure_eq, Prog.ask_bind, Prog.done_bind, emit_eq, call_eq,
        wp_logged_call, VaultOp.exec, named, Vault.getChat]
      have looked : Silent [Ask.call (.getChat chat), .call (.metaGet "username")] :=
        (silent_nil.cons (by simp)).cons (by simp)
      cases row : v.chats.get chat with
      | none =>
          simp only [Option.map_none, Prog.ask_bind, Prog.done_bind, wp_logged_world, Prog.wp_done]
          exact fun _ _ => idle _ (looked.cons (by simp))
      | some found =>
          simp only [Option.map_some, Prog.done_bind, Option.isSome_some, Bool.true_and]
          cases app.linked with
          | false =>
              simp only [Bool.false_eq_true, if_false, Prog.ask_bind, Prog.done_bind,
                wp_logged_world, Bool.not_false, if_true, Prog.wp_done]
              exact fun _ _ => idle _ (looked.cons (by simp))
          | true =>
              simp only [if_true, Prog.done_bind, Bool.not_true, Bool.false_eq_true, if_false,
                now_eq, Prog.ask_bind, wp_logged_world]
              exact fun now _ => known found row now _ (looked.cons (by simp))

theorem encrypt_eq {session session' : OlmSession} {plaintext : Bytes} {seed : Seed}
    {message : OlmMessage}
    (written : Crates.encrypt session plaintext seed = .ok (message, session')) :
    session.encrypt plaintext seed = .ok (toParts message, session') := by
  rw [OlmSession.encrypt, written]
  rfl

/-- A frame of a DM. -/
def dmFrame (sender : String) (message : OlmMessage) (ts : Int) : Incoming :=
  ⟨sender, MsgType.olm, encodeOlm (toParts message).1 (toParts message).2, none, ts⟩

/-- The text is in our vault and, encrypted for the peer, on its way. -/
def SentDm (me peer text : String) (v : Vault) (s : Vault × List Ask) : Prop :=
  ∃ session seed message session' ts recvTs, v.loadOlm peer = some session ∧
    Crates.encrypt session (utf8 text) seed = .ok (message, session') ∧
    s.1 = (v.saveOlm peer session').insertMessage peer me text ts true recvTs ∧
    ∀ recipient, recipient ≠ me → copies me recipient s.2 =
      if recipient = peer then [dmFrame me message ts] else []

/-- Nothing changed, or the text was sent. -/
def SendEnds (sent : Vault × List Ask → Prop) (v : Vault) (result : Except String Unit)
    (s : Vault × List Ask) : Prop :=
  result = .ok () ∧ (s.1 = v ∧ Silent s.2 ∨ sent s)

theorem wp_sendKnown_dm (posts : ∀ msg answer, allow (.post msg) answer → answer = .ok ())
    {v : Vault} {me peer text : String}
    (writes : ∀ session, v.loadOlm peer = some session → ∀ seed, ∃ opened,
      Crates.encrypt session (utf8 text) seed = .ok opened)
    (title : String) (now : Int) {log : List Ask} (silent : Silent log) :
    Prog.wp (.free (Prog.logged (Ask.effectIf allow))) (SendEnds (SentDm me peer text v) v)
      (sendKnown me peer text title now "dm") (v, log) := by
  simp only [sendKnown, Prog.bind_eq, Prog.pure_eq, call_eq, emit_eq, Prog.ask_bind,
    Prog.done_bind, wp_logged_call, VaultOp.exec]
  have looked : Silent (Ask.call (.loadOlm peer) :: log) := silent.cons (by simp)
  cases held : v.loadOlm peer with
  | none =>
      simp only [wp_logged_world, Prog.wp_done]
      exact fun _ _ => ⟨rfl, .inl ⟨rfl, looked.cons (by simp)⟩⟩
  | some session =>
      simp only [postOlm, Prog.bind_eq, random_eq, lift_eq, Prog.ask_bind, Prog.done_bind,
        wp_logged_world]
      intro seed _
      obtain ⟨⟨message, session'⟩, written⟩ := writes session held seed
      simp only [encrypt_eq written, Prog.ofExcept_ok, Prog.done_bind, call_eq, post_eq,
        Prog.ask_bind, wp_logged_call, wp_logged_world, VaultOp.exec]
      intro answer answered
      obtain rfl := posts _ answer answered
      simp only [Prog.ofExcept_ok, Prog.done_bind, insertMessage, now_eq, call_eq, Prog.bind_eq,
        Prog.ask_bind, wp_logged_world, wp_logged_call, VaultOp.exec, Prog.wp_done]
      intro recvTs _ _ _
      refine ⟨rfl, .inr ⟨session, seed, message, session', now, recvTs, held, written, rfl,
        fun recipient other => ?_⟩⟩
      have before := looked me recipient
      simp only [copies_cons, Ask.copy, Option.toList_none, List.append_nil] at before ⊢
      rw [before]
      by_cases same : recipient = peer
      · simp [SendMsg.copy, same, dmFrame, same ▸ other]
      · simp [SendMsg.copy, same]

/-- A frame of a group. -/
def groupFrame (sender id : String) (body : Bytes) (ts : Int) : Incoming :=
  ⟨sender, MsgType.megolm, b64Encode body, some id, ts⟩

/-- The text is in our vault and, encrypted once, on its way to everyone else on the roster. -/
def SentGroup (me id text : String) (v : Vault) (s : Vault × List Ask) : Prop :=
  ∃ (sender : GroupSender) (ts recvTs : Int), v.loadGroupOut id = some sender ∧
    s.1 = (v.saveGroupOut id (sender.encrypt (utf8 text)).2).insertMessage id me text ts true
      recvTs ∧
    ∀ recipient, recipient ≠ me → copies me recipient s.2 =
      if recipient ∈ v.getMembers id then [groupFrame me id (sender.encrypt (utf8 text)).1 ts]
      else []

theorem wp_sendKnown_group (posts : ∀ msg answer, allow (.post msg) answer → answer = .ok ())
    {v : Vault} {me id text : String} {sender : GroupSender}
    (held : v.loadGroupOut id = some sender) (title : String) (now : Int) {log : List Ask}
    (silent : Silent log) :
    Prog.wp (.free (Prog.logged (Ask.effectIf allow))) (SendEnds (SentGroup me id text v) v)
      (sendKnown me id text title now "group") (v, log) := by
  simp only [sendKnown, groupSender, Prog.bind_eq, Prog.pure_eq, call_eq, emit_eq, post_eq,
    Prog.ask_bind, Prog.done_bind, wp_logged_call, wp_logged_world, VaultOp.exec, held]
  intro answer answered
  obtain rfl := posts _ answer answered
  simp only [Prog.ofExcept_ok, Prog.done_bind, insertMessage, now_eq, call_eq, Prog.bind_eq,
    Prog.ask_bind, wp_logged_world, wp_logged_call, VaultOp.exec, Prog.wp_done]
  intro recvTs _ _ _
  refine ⟨rfl, .inr ⟨sender, now, recvTs, held, rfl, fun recipient other => ?_⟩⟩
  have roster : (v.saveGroupOut id (sender.encrypt (utf8 text)).2).getMembers id =
      v.getMembers id := rfl
  simp only [copies_cons, Ask.copy, Option.toList_none, List.append_nil, silent me recipient,
    roster]
  by_cases on : recipient ∈ v.getMembers id
  · simp [SendMsg.copy, on, other, groupFrame]
  · simp [SendMsg.copy, on]

/-- A command that ends well is its handler. -/
theorem wp_runCommand {σ : Type} {step : Prog.Step σ Ask Ask.Answer} {app : App}
    {command : Command} {ends : σ → Prop} {s : σ}
    (holds : Prog.wp (.free step) (fun result s' => result = .ok () ∧ ends s') (handle app command)
      s) :
    Prog.wp (.free step) (fun result s' => result = .ok () ∧ ends s') (runCommand app command) s := by
  rw [runCommand, Prog.bind_eq, Prog.wp_bind, Prog.wp_attempt]
  refine Prog.wp_mono ?_ holds
  rintro _ s' ⟨rfl, ended⟩
  exact ⟨rfl, ended⟩

/-- **A text for a DM.** -/
theorem wp_send_dm (posts : ∀ msg answer, allow (.post msg) answer → answer = .ok ()) (app : App)
    {v : Vault} {me peer text : String} (named : v.metaGet "username" = some me)
    (dm : ∀ row, v.chats.get peer = some row → row.kind = "dm")
    (writes : ∀ session, v.loadOlm peer = some session → ∀ seed, ∃ opened,
      Crates.encrypt session (utf8 text) seed = .ok opened) :
    Prog.wp (.free (Prog.logged (Ask.effectIf allow))) (SendEnds (SentDm me peer text v) v)
      (runCommand app (.send peer text)) (v, []) := by
  refine wp_runCommand (wp_send app text named (fun log silent => ⟨rfl, .inl ⟨rfl, silent⟩⟩)
    fun row here now log silent => ?_)
  rw [dm row here]
  exact wp_sendKnown_dm posts writes row.title now silent

/-- **A text for a group** in which we have written before. -/
theorem wp_send_group (posts : ∀ msg answer, allow (.post msg) answer → answer = .ok ())
    (app : App) {v : Vault} {me id text : String} {sender : GroupSender}
    (named : v.metaGet "username" = some me)
    (group : ∀ row, v.chats.get id = some row → row.kind = "group")
    (held : v.loadGroupOut id = some sender) :
    Prog.wp (.free (Prog.logged (Ask.effectIf allow))) (SendEnds (SentGroup me id text v) v)
      (runCommand app (.send id text)) (v, []) := by
  refine wp_runCommand (wp_send app text named (fun log silent => ⟨rfl, .inl ⟨rfl, silent⟩⟩)
    fun row here now log silent => ?_)
  rw [group row here]
  exact wp_sendKnown_group posts held row.title now silent

/-! ### Getting a DM -/

/-- A text of someone, in a DM with them. -/
def withText (v : Vault) (me sender text : String) (ts now recvTs : Int) : Vault :=
  (((v.upsertChat sender "dm" sender now).addMember sender me).addMember sender
    sender).insertMessage sender sender text ts false recvTs

theorem withText_eq (v : Vault) (me sender text : String) (ts now recvTs : Int) :
    ∃ members, withText v me sender text ts now recvTs =
      { v.upsertChat sender "dm" sender now with chatMembers := members }.insertMessage sender
        sender text ts false recvTs := by
  obtain ⟨first, one⟩ := Vault.addMember_writes (v.upsertChat sender "dm" sender now) sender me
  obtain ⟨second, two⟩ := Vault.addMember_writes
    ((v.upsertChat sender "dm" sender now).addMember sender me) sender sender
  exact ⟨second, by rw [withText, two, one]⟩

theorem said_withText (v : Vault) (me sender text : String) (ts now recvTs : Int) :
    (withText v me sender text ts now recvTs).said sender = v.said sender := by
  obtain ⟨members, same⟩ := withText_eq v me sender text ts now recvTs
  rw [same, Vault.said_insertMessage]
  exact List.append_nil _

theorem heard_withText (v : Vault) (me sender text : String) (ts now recvTs : Int)
    (name : String) : (withText v me sender text ts now recvTs).heard sender name =
      v.heard sender name ++ if sender = name then [(text, ts)] else [] := by
  obtain ⟨members, same⟩ := withText_eq v me sender text ts now recvTs
  rw [same, Vault.heard_insertMessage]
  simp only [true_and]
  rfl

theorem meta_withText (v : Vault) (me sender text : String) (ts now recvTs : Int) :
    (withText v me sender text ts now recvTs).meta = v.meta := by
  obtain ⟨members, same⟩ := withText_eq v me sender text ts now recvTs
  rw [same]
  rfl

theorem loadOlm_withText (v : Vault) (me sender text : String) (ts now recvTs : Int)
    (peer : String) : (withText v me sender text ts now recvTs).loadOlm peer = v.loadOlm peer := by
  obtain ⟨members, same⟩ := withText_eq v me sender text ts now recvTs
  rw [same]
  rfl

theorem kind_withText {v : Vault} {me sender text : String} {ts now recvTs : Int} {row : ChatRow}
    (here : (withText v me sender text ts now recvTs).chats.get sender = some row) :
    row.kind = "dm" := by
  obtain ⟨members, same⟩ := withText_eq v me sender text ts now recvTs
  rw [same] at here
  have stored : (v.upsertChat sender "dm" sender now).chats.get sender = some row := here
  rw [Vault.upsertChat, Table.get_put, if_pos rfl] at stored
  obtain rfl := Option.some.inj stored
  split <;> rfl

/-- Whatever the world answers. -/
abbrev worldSpec (allow : (asked : Ask) → asked.Answer → Prop) : Prog.Spec Vault Ask Ask.Answer :=
  Ask.spec (fun _ _ => True) allow

theorem wp_emitFingerprint {post : Except String Unit → Vault → Prop} (username : String)
    {v : Vault} (holds : post (.ok ()) v) :
    Prog.wp (worldSpec allow) post (emitFingerprint username) v := by
  simp only [emitFingerprint, Prog.bind_eq, Prog.pure_eq, call_eq, emit_eq, Prog.ask_bind,
    Prog.done_bind, wp_call, VaultOp.exec, true_and]
  cases v.getContactEd username with
  | none => exact holds
  | some ed => exact (wp_world _ v).mpr ⟨trivial, fun _ _ => holds⟩

theorem wp_deliverText (ctx : ProcCtx) (sender text : String) (ts : Int) (v : Vault) :
    Prog.wp (worldSpec allow) (fun result v' => result = .ok () ∧
      ∃ now recvTs, v' = withText v ctx.me sender text ts now recvTs)
      (deliverDmText ctx sender (utf8 text) ts) v := by
  simp only [deliverDmText, fromUtf8_utf8, okOr_some, upsertChat, insertMessage, Prog.bind_eq,
    call_eq, now_eq, emit_eq, Prog.ask_bind, Prog.done_bind, wp_call, wp_world, true_and]
  intro now _ recvTs _
  generalize ((VaultOp.chatExists sender).exec v).1 = known
  cases known with
  | false =>
      simp only [Bool.not_false, if_true, emitChats, Prog.bind_eq, call_eq, emit_eq, Prog.ask_bind,
        Prog.done_bind, wp_call, wp_world, true_and]
      exact fun _ _ _ _ => wp_emitFingerprint sender ⟨rfl, now, recvTs, rfl⟩
  | true =>
      simp only [Bool.not_true, Bool.false_eq_true, if_false, wp_world, true_and]
      exact fun _ _ => wp_emitFingerprint sender ⟨rfl, now, recvTs, rfl⟩

/-- What a stored session reads is stored with the advanced session. -/
theorem wp_obtainOlm_held {v : Vault} {sender : String} {session session' : OlmSession}
    {message : OlmMessage} {plaintext : Bytes} (held : v.loadOlm sender = some session)
    (reads : Crates.decrypt session message = .ok (plaintext, session')) :
    Prog.wp (worldSpec allow) (fun result v' => result = .ok plaintext ∧
      v' = v.saveOlm sender session')
      (obtainOlmPlaintext sender (encodeOlm (toParts message).1 (toParts message).2)) v := by
  have opened : session.decrypt (toParts message).1 (toParts message).2 =
      .ok (plaintext, session') := by
    rw [OlmSession.decrypt, fromParts_toParts]
    exact reads
  rw [obtainOlmPlaintext_encoded]
  simp only [readOlm, Prog.bind_eq, Prog.pure_eq, call_eq, Prog.ask_bind, Prog.done_bind, wp_call,
    VaultOp.exec, held, opened, Prog.wp_done, and_self]

/-- At most a contact was written. -/
def Contacted (v v' : Vault) : Prop :=
  v' = v ∨ ∃ username uuid ed25519 curve25519, v' = v.upsertContact username uuid ed25519 curve25519

/-- The identity key of a sender: pinned, or in the bundle that the relay has of them. -/
structure Introduced (allow : (asked : Ask) → asked.Answer → Prop) (identity : PublicKey)
    (sender : String) (v : Vault) : Prop where
  pinned : ∀ curve, v.getContactCurve sender = some curve → keyFromBase64 curve = .ok identity
  bundle : ∀ answer, allow (.request (.fetchPrekeys sender)) answer → ∃ bundle,
    answer = .ok (.prekeyBundle bundle) ∧ bundle.username = sender ∧
      validPubkeyB64 bundle.ed25519 = true ∧ validPubkeyB64 bundle.curve25519 = true ∧
      keyFromBase64 bundle.curve25519 = .ok identity ∧
      v.checkIdentity sender bundle.ed25519 ≠ .conflict

/-- Only the contact counts. -/
theorem Introduced.congr {identity : PublicKey} {sender : String} {v v' : Vault}
    (introduced : Introduced allow identity sender v)
    (same : v'.contacts.get sender = v.contacts.get sender) :
    Introduced allow identity sender v' := by
  have ed : v'.getContactEd sender = v.getContactEd sender := by
    rw [Vault.getContactEd, same, Vault.getContactEd]
  refine ⟨fun curve pinned => introduced.pinned curve ?_, fun answer answered => ?_⟩
  · rwa [Vault.getContactCurve, same] at pinned
  · obtain ⟨bundle, rest⟩ := introduced.bundle answer answered
    exact ⟨bundle, by rwa [Vault.checkIdentity, ed]⟩

theorem wp_acceptIdentity {username uuid ed25519 curve25519 : String} {v : Vault}
    (valid : validPubkeyB64 ed25519 = true ∧ validPubkeyB64 curve25519 = true)
    (checked : v.checkIdentity username ed25519 ≠ .conflict) :
    Prog.wp (worldSpec allow) (fun result v' => result = .ok true ∧
      v' = v.upsertContact username uuid ed25519 curve25519)
      (acceptIdentity username uuid ed25519 curve25519) v := by
  simp only [acceptIdentity, valid.1, valid.2, Bool.not_true, Bool.or_self, Bool.false_eq_true,
    if_false, Prog.bind_eq, Prog.pure_eq, call_eq, Prog.ask_bind, Prog.done_bind, wp_call]
  refine ⟨trivial, ?_⟩
  cases check : v.checkIdentity username ed25519 with
  | conflict => exact absurd check checked
  | _ =>
      simp only [VaultOp.exec, check, wp_call, Prog.wp_done, and_self]

theorem wp_obtainCurve {identity : PublicKey} {sender : String} {v : Vault}
    (introduced : Introduced allow identity sender v) :
    Prog.wp (worldSpec allow) (fun result v' => Contacted v v' ∧ ∃ curve, result = .ok curve ∧
      keyFromBase64 curve = .ok identity) (obtainCurve sender) v := by
  simp only [obtainCurve, Prog.bind_eq, Prog.pure_eq, call_eq, Prog.ask_bind, Prog.done_bind,
    wp_call, VaultOp.exec, true_and]
  cases pinned : v.getContactCurve sender with
  | some curve => exact ⟨.inl rfl, curve, rfl, introduced.pinned curve pinned⟩
  | none =>
      simp only [request_eq, Prog.ask_bind, wp_world, true_and]
      intro answer answered
      obtain ⟨bundle, rfl, rfl, ed, curve, isKey, checked⟩ := introduced.bundle answer answered
      simp only [Prog.ofExcept_ok, Prog.done_bind]
      rw [Prog.wp_bind]
      refine Prog.wp_mono ?_ (wp_acceptIdentity ⟨ed, curve⟩ checked)
      rintro _ v' ⟨rfl, rfl⟩
      exact ⟨.inr ⟨_, _, _, _, rfl⟩, _, rfl, isKey⟩

/-- A first message opens a session: the account and the session are stored. -/
theorem wp_obtainOlm_first {identity : PublicKey} {sender : String} {v : Vault}
    {session : OlmSession} {device device' : Device} {message : OlmMessage} {plaintext : Bytes}
    (introduced : Introduced allow identity sender v) (noSession : v.loadOlm sender = none)
    (account : v.account = some device) (preKey : isPreKey message = true)
    (accepts : createInboundSession device identity message = .ok (session, plaintext, device')) :
    Prog.wp (worldSpec allow) (fun result v' => result = .ok plaintext ∧ ∃ mid, Contacted v mid ∧
      v' = (mid.saveAccount device').saveOlm sender session)
      (obtainOlmPlaintext sender (encodeOlm (toParts message).1 (toParts message).2)) v := by
  rw [obtainOlmPlaintext_encoded]
  simp only [readOlm, acceptInbound, Prog.bind_eq, call_eq, Prog.ask_bind, Prog.done_bind, wp_call,
    VaultOp.exec, noSession, true_and]
  rw [Prog.wp_bind]
  refine Prog.wp_mono ?_ (wp_obtainCurve introduced)
  rintro _ mid ⟨contacted, curve, rfl, isKey⟩
  have same : mid.account = some device := by
    rcases contacted with rfl | ⟨_, _, _, _, rfl⟩ <;> exact account
  have created : device.createInbound curve (toParts message).1 (toParts message).2 =
      .ok (session, plaintext, device') := by
    rw [Device.createInbound, isKey, fromParts_toParts]
    show (if isPreKey message = true then _ else _) = _
    rw [if_pos preKey, accepts]
  simp only [Prog.andThen_ok, wp_call, VaultOp.exec, same, okOr_some, Prog.done_bind, lift_eq,
    created, Prog.ofExcept_ok, true_and, Prog.pure_eq, Prog.wp_done]
  exact ⟨mid, contacted, rfl⟩

/-- A frame of a DM, once its text is read. -/
theorem wp_processFrame_dm {v : Vault} {ctx : ProcCtx} {sender text : String}
    {message : OlmMessage} {ts : Int} {read : Vault → Prop}
    (obtained : Prog.wp (worldSpec allow) (fun result v' => result = .ok (utf8 text) ∧ read v')
      (obtainOlmPlaintext sender (encodeOlm (toParts message).1 (toParts message).2)) v) :
    Prog.wp (worldSpec allow) (fun result v' => result = .ok () ∧ ∃ mid now recvTs, read mid ∧
      v' = withText mid ctx.me sender text ts now recvTs)
      (processFrame ctx (dmFrame sender message ts)) v := by
  have handled : Prog.wp (worldSpec allow) (fun result v' => result = .ok () ∧
      ∃ mid now recvTs, read mid ∧ v' = withText mid ctx.me sender text ts now recvTs)
      (processOne ctx (dmFrame sender message ts)) v := by
    unfold processOne
    simp only [dmFrame, MsgType.olm, Prog.bind_eq]
    rw [Prog.wp_bind]
    refine Prog.wp_mono ?_ obtained
    rintro _ mid ⟨rfl, isRead⟩
    refine Prog.wp_mono ?_ (wp_deliverText ctx sender text ts mid)
    rintro _ v' ⟨rfl, now, recvTs, rfl⟩
    exact ⟨rfl, mid, now, recvTs, isRead, rfl⟩
  rw [processFrame_eq, Prog.wp_bind, Prog.wp_attempt]
  refine Prog.wp_mono ?_ handled
  rintro _ v' ⟨rfl, ended⟩
  exact ⟨rfl, ended⟩

/-! ### Getting a group message -/

theorem wp_acceptMegolm {v : Vault} {id sender : String} {index : Nat} {receiver : GroupReceiver}
    (fresh : (v.megolmAccept id sender receiver.sessionId index).1 = true) :
    Prog.wp (worldSpec allow) (fun result v' => result = .ok true ∧
      v' = (v.megolmAccept id sender receiver.sessionId index).2.saveGroupIn id sender receiver)
      (acceptMegolm id sender index receiver) v := by
  simp only [acceptMegolm, Prog.bind_eq, Prog.pure_eq, call_eq, Prog.ask_bind, Prog.done_bind,
    wp_call]
  refine ⟨trivial, ?_⟩
  rw [if_pos (show ((VaultOp.megolmAccept id sender receiver.sessionId index).exec v).1 = true from
    fresh)]
  exact (wp_call _ _ _).mpr ⟨trivial, rfl, rfl⟩

/-- What a stored session of the group reads is put into the group, with the advanced session and
the replay guard, if its index is new. -/
theorem wp_processFrame_group {v : Vault} {ctx : ProcCtx} {sender id text : String} {body : Bytes}
    {ts : Int} {index : Nat} {receiver receiver' : GroupReceiver}
    (held : v.loadGroupIn id sender = some receiver)
    (reads : groupDecrypt receiver body = .ok (utf8 text, index, receiver'))
    (fresh : (v.megolmAccept id sender receiver'.sessionId index).1 = true) :
    Prog.wp (worldSpec allow) (fun result v' => result = .ok () ∧ ∃ recvTs,
      v' = ((v.megolmAccept id sender receiver'.sessionId index).2.saveGroupIn id sender
        receiver').insertMessage id sender text ts false recvTs)
      (processFrame ctx (groupFrame sender id body ts)) v := by
  have handled : Prog.wp (worldSpec allow) (fun result v' => result = .ok () ∧ ∃ recvTs,
      v' = ((v.megolmAccept id sender receiver'.sessionId index).2.saveGroupIn id sender
        receiver').insertMessage id sender text ts false recvTs)
      (processMegolm sender id (b64Encode body) ts) v := by
    have opened : receiver.decrypt body = .ok (utf8 text, index, receiver') := reads
    simp only [processMegolm, openMegolm, Prog.bind_eq, Prog.pure_eq, call_eq, lift_eq,
      Prog.ask_bind, Prog.done_bind, wp_call, held, VaultOp.exec, b64Decode_b64Encode,
      Prog.ofExcept_ok, opened, true_and]
    rw [Prog.wp_bind]
    refine Prog.wp_mono ?_ (wp_acceptMegolm fresh)
    rintro _ mid ⟨rfl, rfl⟩
    simp only [Prog.andThen_ok, Bool.not_true, Bool.false_eq_true, if_false, fromUtf8_utf8,
      okOr_some, Prog.done_bind, insertMessage, Prog.bind_eq, call_eq, now_eq, emit_eq,
      Prog.ask_bind, wp_call, wp_world, VaultOp.exec, Prog.wp_done, true_and]
    exact fun recvTs _ _ _ => ⟨recvTs, rfl⟩
  rw [processFrame_eq, Prog.wp_bind, Prog.wp_attempt]
  refine Prog.wp_mono ?_ (show Prog.wp _ _ (processOne ctx (groupFrame sender id body ts)) v from
    handled)
  rintro _ v' ⟨rfl, ended⟩
  exact ⟨rfl, ended⟩

end

end Cherm
