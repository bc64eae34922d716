/-
**What the handlers of delivered frames may ask for.**

The bounds of `Ask.May` for the processor. Two handlers decide by what they read whether they write
at all, and have rules of their own:

* `wp_handleGroupKeyShare`: a share is stored only if its sender may share one (`ShareAdmitted`).
* `wp_handleJoinRequest`, `wp_admitMember`: a join request writes the rows of a group of ours, and
  no session but its sender's.
-/

import Cherm.Client.Asks
import Cherm.Client.Processor

namespace Cherm

open Crates

section

variable [Crates]

section

variable {rows : VaultPart → String → Prop} {kinds : String → String → Prop}
  {sends : SendMsg → Prop}

namespace Client

/-! ### Delivered frames -/

/-- The round of a frame ends as the frame does, if an error event is harmless. -/
theorem wp_processFrame {demand : Ask → Vault → Prop} {allow : (asked : Ask) → asked.Answer → Prop}
    {inv : Vault → Prop} (reports : ∀ event v, inv v → demand (.emit event) v) {ctx : ProcCtx}
    {inc : Incoming} {v : Vault}
    (one : Prog.wp (Ask.spec demand allow) (fun _ => inv) (processOne ctx inc) v) :
    Prog.wp (Ask.spec demand allow) (fun _ => inv) (processFrame ctx inc) v := by
  unfold processFrame
  rw [Prog.bind_eq, Prog.wp_bind, Prog.wp_attempt]
  refine Prog.wp_mono (fun result v' after => ?_) one
  cases result with
  | ok _ => exact after
  | error e => exact (wp_world _ _).mpr ⟨reports _ _ after, fun _ _ => after⟩

/-- A DM text writes the chat of its sender. -/
theorem calls_deliverDmText {sender : String} (chats : rows .chats sender)
    (made : kinds sender "dm") (roster : rows .chatMembers sender)
      (messages : rows .messages sender) (ctx : ProcCtx)
    (plaintext : Bytes) (clientTs : Int) :
    Prog.Calls (Ask.May rows kinds sends) (deliverDmText ctx sender plaintext clientTs) := by
  have member : ∀ username, Prog.Calls (Ask.May rows kinds sends)
      (call (.addMember sender username)) :=
    fun _ => calls_write roster (fun _ _ => id) (by trivial)
  refine (calls_okOr _ _).bind fun text => (calls_read fun _ _ => id).bind fun known =>
    (calls_upsertChat chats made _).bind fun _ => (member _).bind fun _ => (member _).bind fun _ =>
      (calls_insertMessage messages _ _ _ _).bind fun _ => ?_
  have shown : Prog.Calls (Ask.May rows kinds sends) (do
      emit (.message sender sender text clientTs false false)
      emitFingerprint sender) := (calls_emit _).bind fun _ => calls_emitFingerprint sender
  dsimp only
  split
  · exact (calls_emitChats _).bind fun _ => shown
  · exact shown

theorem calls_learnGroup {share : GroupKeyShare}
    (group : ∀ part ∈ VaultPart.ofChat, rows part share.groupId)
      (made : kinds share.groupId "group")
    (sender : String) : Prog.Calls (Ask.May rows kinds sends) (learnGroup sender share) := by
  have roster : rows .chatMembers share.groupId := group _ (by decide)
  have row : rows .groups share.groupId := group _ (by decide)
  refine (calls_upsertChat (group _ (by decide)) made _).bind fun _ =>
    (Prog.calls_forEach fun m _ => calls_write roster (fun _ _ => id) (by trivial)).bind fun _ => ?_
  split
  · exact calls_write row (fun _ _ => id) (by trivial)
  · trivial

/-- A share that is stored writes the rows of the group it names; it makes a group only of a share
by the owner. -/
theorem calls_storeShare {share : GroupKeyShare}
    (group : ∀ part ∈ VaultPart.ofChat, rows part share.groupId) {byOwner : Bool}
    (made : byOwner = true → kinds share.groupId "group") (ctx : ProcCtx) (sender : String)
    (isNew : Bool) :
    Prog.Calls (Ask.May rows kinds sends) (storeShare ctx sender share isNew byOwner) := by
  have inbound : rows .groupIn share.groupId := group _ (by decide)
  refine (calls_lift _).bind fun receiver =>
    (calls_write inbound (fun _ _ => id) (by trivial)).bind fun _ => ?_
  cases byOwner with
  | true =>
      refine (calls_learnGroup group (made rfl) sender).bind fun _ =>
        (calls_emitChats _).bind fun _ => ?_
      cases isNew with
      | true => exact calls_emit _
      | false => trivial
  | false =>
      cases isNew with
      | true => trivial
      | false => exact (calls_emitChats _).bind fun _ => trivial

/-- A share writes the rows of the group it names. -/
theorem calls_handleGroupKeyShare
    (group : ∀ groupId, ∀ part ∈ VaultPart.ofChat, rows part groupId)
    (made : ∀ groupId, kinds groupId "group") (ctx : ProcCtx) (sender : String)
      (plaintext : Bytes) :
    Prog.Calls (Ask.May rows kinds sends) (handleGroupKeyShare ctx sender plaintext) := by
  refine (calls_lift _).bind fun share => (calls_read fun _ _ => id).bind fun banned => ?_
  split
  · trivial
  refine calls_now.bind fun now => (calls_isSuspended (group _ _ (by decide)) _ _).bind
    fun suspended => ?_
  split
  · trivial
  refine (calls_read fun _ _ => id).bind fun known => (calls_read fun _ _ => id).bind
    fun existing => ?_
  have decided : ∀ isNew senderIsMember byOwner : Bool, Prog.Calls (Ask.May rows kinds sends)
      (if isNew && !byOwner then pure ()
        else if !isNew && !byOwner && !senderIsMember then pure ()
        else storeShare ctx sender share isNew byOwner) := by
    intro isNew senderIsMember byOwner
    split
    · trivial
    · split
      · trivial
      · exact calls_storeShare (group _) (fun _ => made _) ctx sender isNew
  dsimp only
  split
  · exact decided _ false _
  · exact (calls_read fun _ _ => id).bind fun member => decided _ member _

/-- The sender may share a key for the group: not banned, and the owner or a member. -/
structure ShareAdmitted (v : Vault) (sender : String) (share : GroupKeyShare)
    (isNew byOwner : Bool) :
    Prop where
  notBanned : v.isBanned share.groupId sender = false
  newness : isNew = !v.chatExists share.groupId
  authority : byOwner = ownerShare isNew (v.getGroupMeta share.groupId) share.owner sender
  entitled : byOwner = true ∨ (isNew = false ∧ v.isMember share.groupId sender = true)

/-- The requests before a share is stored: reads, and the removal of a suspension that has run out.
-/
def Ask.Spares (groupId : String) : Ask → Prop :=
  Ask.May (fun part id => part = .groupSuspensions ∧ id = groupId) (fun _ _ => False) fun _ => False

theorem spares_read {op : VaultOp} (groupId : String) (reads : ∀ part id, ¬ op.Writes part id) :
    Ask.Spares groupId (.call op) := (calls_read reads).1

/-- **A share is stored only if its sender may share one.** What is left to prove of the handler is
about the check of a suspension, and about an admitted share. -/
theorem wp_handleGroupKeyShare_checked {demand : Ask → Vault → Prop}
    {allow : (asked : Ask) → asked.Answer → Prop} (inv : Vault → Prop) {post : Vault → Prop}
    {ctx : ProcCtx} {sender : String} {plaintext : Bytes} {share : GroupKeyShare}
    (read : GroupKeyShare.fromSlice plaintext = .ok share)
    (reads : ∀ {op : VaultOp} {v}, (∀ part id, ¬ op.Writes part id) → inv v → demand (.call op) v)
    (clock : ∀ v, inv v → demand .now v)
    (checked : ∀ now v, allow .now now → inv v ∧ v.isBanned share.groupId sender = false →
      Prog.wp (Ask.spec demand allow) (fun _ v' => inv v' ∧
        v'.isBanned share.groupId sender = false)
        (isSuspended share.groupId sender now) v)
    (dropped : ∀ v, inv v → post v)
    (stored : ∀ v isNew byOwner, inv v → ShareAdmitted v sender share isNew byOwner →
      Prog.wp (Ask.spec demand allow) (fun _ => post) (storeShare ctx sender share isNew byOwner) v)
    {v : Vault} (start : inv v) :
    Prog.wp (Ask.spec demand allow) (fun _ => post) (handleGroupKeyShare ctx sender
      plaintext) v := by
  unfold handleGroupKeyShare
  rw [read]
  refine (wp_call _ _ v).mpr ⟨reads (fun _ _ => id) start, ?_⟩
  cases banned : v.isBanned share.groupId sender with
  | true =>
      simp only [VaultOp.exec, banned]
      exact dropped v start
  | false =>
      simp only [VaultOp.exec, banned]
      refine (wp_world _ _).mpr ⟨clock v start, fun now admitted => ?_⟩
      have checked := checked now v admitted ⟨start, banned⟩
      rw [Prog.done_bind, Prog.bind_eq, Prog.wp_bind]
      refine Prog.wp_mono (fun result v' after => ?_) checked
      obtain ⟨before, notBanned⟩ := after
      rcases result with e | ⟨_ | _⟩
      · exact dropped v' before
      · refine (wp_call _ _ v').mpr ⟨reads (fun _ _ => id) before, ?_⟩
        refine (wp_call _ _ v').mpr ⟨reads (fun _ _ => id) before, ?_⟩
        have decided : ∀ member byOwner : Bool,
            byOwner = ownerShare (!v'.chatExists share.groupId) (v'.getGroupMeta share.groupId)
              share.owner sender →
            (v'.chatExists share.groupId = true → member = v'.isMember share.groupId sender) →
            Prog.wp (Ask.spec demand allow) (fun _ => post)
              (if (!v'.chatExists share.groupId) && !byOwner then pure ()
                else if !!v'.chatExists share.groupId && !byOwner && !member then pure ()
                else storeShare ctx sender share (!v'.chatExists share.groupId) byOwner) v' := by
          intro member byOwner authority isMember
          split
          · exact dropped v' before
          · next notNew =>
            split
            · exact dropped v' before
            · next notOut =>
              refine stored v' _ byOwner before ⟨notBanned, rfl, authority, ?_⟩
              cases byOwner with
              | true => exact .inl rfl
              | false =>
                  have known : v'.chatExists share.groupId = true := by simpa using notNew
                  refine .inr ⟨by rw [known]; rfl, ?_⟩
                  rw [← isMember known]
                  simpa [known] using notOut
        by_cases known : v'.chatExists share.groupId = true
        · have old : ¬ (!v'.chatExists share.groupId) = true := by simp [known]
          show Prog.wp _ _ (if (!v'.chatExists share.groupId) = true then _ else _) v'
          rw [if_neg old]
          refine (wp_call _ _ v').mpr ⟨reads (fun _ _ => id) before, ?_⟩
          exact decided _ _ rfl fun _ => rfl
        · have new : (!v'.chatExists share.groupId) = true := by simp [known]
          show Prog.wp _ _ (if (!v'.chatExists share.groupId) = true then _ else _) v'
          rw [if_pos new]
          exact decided false _ rfl fun present => absurd present known
      · exact dropped v' before

/-- The same, if the check of a suspension is harmless whatever it finds. -/
theorem wp_handleGroupKeyShare {demand : Ask → Vault → Prop}
    {allow : (asked : Ask) → asked.Answer → Prop} {inv post : Vault → Prop} {ctx : ProcCtx}
    {sender : String} {plaintext : Bytes} {share : GroupKeyShare}
    (read : GroupKeyShare.fromSlice plaintext = .ok share)
    (spared : ∀ asked v, Ask.Spares share.groupId asked → inv v → demand asked v ∧
      ∀ answer v', Ask.effectIf allow asked v answer v' → inv v')
    (dropped : ∀ v, inv v → post v)
    (stored : ∀ v isNew byOwner, inv v → ShareAdmitted v sender share isNew byOwner →
      Prog.wp (Ask.spec demand allow) (fun _ => post) (storeShare ctx sender share isNew byOwner) v)
    {v : Vault} (start : inv v) :
    Prog.wp (Ask.spec demand allow) (fun _ => post) (handleGroupKeyShare ctx sender
      plaintext) v := by
  refine wp_handleGroupKeyShare_checked _ read
    (fun noWrite before => (spared _ _ (spares_read _ noWrite) before).1)
    (fun v before => (spared .now v trivial before).1) (fun now v _ before => ?_) dropped
      stored start
  have suspension : Prog.Calls (Ask.Spares share.groupId) (isSuspended share.groupId sender now) :=
    calls_isSuspended ⟨rfl, rfl⟩ sender now
  refine suspension.wp (fun asked v' spare before => (spared asked v' spare before.1).1)
    (fun asked v' answer v'' spare before made => ?_) before
  have same : VaultPart.groupBans.SameAt share.groupId v' v'' :=
    spare.frame (fun outside => by cases outside.1) made
  refine ⟨(spared asked v' spare before.1).2 answer v'' made, ?_⟩
  rw [Vault.isBanned, show v''.groupBans.get (share.groupId, sender) =
    v'.groupBans.get (share.groupId, sender) from congrFun same sender]
  exact before.2

theorem calls_openMegolm (groupId sender payload : String) :
    Prog.Calls (Ask.May rows kinds sends) (openMegolm groupId sender payload) := by
  refine (calls_read fun _ _ => id).bind fun held => ?_
  cases held with
  | none => exact (calls_emit _).bind fun _ => trivial
  | some receiver => exact (calls_lift _).bind fun _ => (calls_lift _).bind fun _ => trivial

theorem calls_acceptMegolm {groupId : String} (seen : rows .megolmSeen groupId)
    (inbound : rows .groupIn groupId) (sender : String) (idx : Nat) (receiver : GroupReceiver) :
    Prog.Calls (Ask.May rows kinds sends) (acceptMegolm groupId sender idx receiver) := by
  refine (calls_write seen (fun _ _ => id) (by trivial)).bind fun fresh => ?_
  cases fresh with
  | false => trivial
  | true => exact (calls_write inbound (fun _ _ => id) (by trivial)).bind fun _ => trivial

/-- A group message writes the group's messages and its sender's session. -/
theorem calls_processMegolm {groupId : String} (seen : rows .megolmSeen groupId)
    (inbound : rows .groupIn groupId) (messages : rows .messages groupId) (sender payload : String)
    (clientTs : Int) :
    Prog.Calls (Ask.May rows kinds sends) (processMegolm sender groupId payload clientTs) := by
  refine (calls_openMegolm _ _ _).bind fun opened => ?_
  rcases opened with _ | ⟨plaintext, idx, receiver⟩
  · trivial
  · refine (calls_acceptMegolm seen inbound _ _ _).bind fun fresh => ?_
    cases fresh with
    | false => trivial
    | true =>
        exact (calls_okOr _ _).bind fun text => (calls_insertMessage messages _ _ _ _).bind
          fun _ => calls_emit _

theorem calls_processMegolmSystem {groupId : String} (seen : rows .megolmSeen groupId)
    (inbound : rows .groupIn groupId) (messages : rows .messages groupId)
    (roster : rows .chatMembers groupId) (sender payload : String) (clientTs : Int) :
    Prog.Calls (Ask.May rows kinds sends) (processMegolmSystem sender groupId payload
      clientTs) := by
  refine (calls_openMegolm _ _ _).bind fun opened => ?_
  rcases opened with _ | ⟨plaintext, idx, receiver⟩
  · trivial
  · dsimp only
    split
    · trivial
    · refine (calls_acceptMegolm seen inbound _ _ _).bind fun fresh => ?_
      cases fresh with
      | false => trivial
      | true =>
          exact (calls_write roster (fun _ _ => id) (by trivial)).bind fun _ =>
            calls_emitSystem messages _ _

theorem calls_handleJoinDenied (sender : String) (plaintext : Bytes) :
    Prog.Calls (Ask.May rows kinds sends) (handleJoinDenied sender plaintext) :=
  (calls_lift _).bind fun _ => calls_emit _

/-- An event writes the rows of its group. -/
theorem calls_applyGroupEvent {groupId : String} (group :
    ∀ part ∈ VaultPart.ofChat, rows part groupId)
    (ctx : ProcCtx) (event : GroupEvent) (clientTs : Int) :
    Prog.Calls (Ask.May rows kinds sends) (applyGroupEvent ctx groupId event clientTs) := by
  have one : ∀ {op : VaultOp} (part : VaultPart), part ∈ VaultPart.ofChat →
      (∀ part' id, op.Writes part' id → part' = part ∧ id = groupId) → op.Makes kinds →
      Prog.Calls (Ask.May rows kinds sends) (call op) :=
    fun part inChat writes makes => calls_write (group part inChat) writes makes
  have drop : Prog.Calls (Ask.May rows kinds sends) (dropMember groupId event clientTs) := by
    refine (one .chatMembers (by decide) (fun _ _ => id) (by trivial)).bind fun _ =>
      (one .groupIn (by decide) (fun _ _ => id) (by trivial)).bind fun _ => ?_
    split
    · exact one .groupBans (by decide) (fun _ _ => id) (by trivial)
    · split
      · exact one .groupSuspensions (by decide) (fun _ _ => id) (by trivial)
      · trivial
    · trivial
  have aimed : Prog.Calls (Ask.May rows kinds sends) (do
      if event.who = ctx.me then
        if event.kind = "suspended" then
          emit (.info "you were suspended from a group")
          return false
        call (.deleteChat groupId)
        emitChats ctx.addr
        emit (.info ("you were " ++ event.kind ++ " from a group"))
        return true
      dropMember groupId event clientTs
      return false) := by
    split
    · split
      · exact (calls_emit _).bind fun _ => trivial
      · refine Prog.Calls.bind ⟨⟨?_, trivial⟩, fun _ => trivial⟩ fun _ =>
          (calls_emitChats _).bind fun _ => (calls_emit _).bind fun _ => trivial
        rintro part _ ⟨inChat, rfl⟩
        exact group part inChat
    · exact drop.bind fun _ => trivial
  unfold applyGroupEvent
  split
  · exact (one .groupBans (by decide) (fun _ _ => id) (by trivial)).bind fun _ =>
      (one .groupSuspensions (by decide) (fun _ _ => id) (by trivial)).bind fun _ =>
        (one .chatMembers (by decide) (fun _ _ => id) (by trivial)).bind fun _ => trivial
  · exact aimed
  · exact aimed
  · exact aimed
  · split
    · dsimp only
      split
      · exact (one .groups (by decide) (fun _ _ => id) (by trivial)).bind fun _ => trivial
      · trivial
    · trivial
  · trivial

theorem calls_processGroupEvent {groupId : String}
    (group : ∀ part ∈ VaultPart.ofChat, rows part groupId) (ctx : ProcCtx) (sender payload : String)
    (clientTs : Int) :
    Prog.Calls (Ask.May rows kinds sends) (processGroupEvent ctx sender groupId payload
      clientTs) := by
  refine (calls_openMegolm _ _ _).bind fun opened => ?_
  rcases opened with _ | ⟨plaintext, idx, receiver⟩
  · trivial
  · refine (calls_acceptMegolm (group _ (by decide)) (group _ (by decide)) _ _ _).bind
      fun fresh => ?_
    cases fresh with
    | false => trivial
    | true =>
        refine (calls_read fun _ _ => id).bind fun row => ?_
        dsimp only
        split
        · trivial
        · refine (calls_lift _).bind fun event =>
            (calls_applyGroupEvent group ctx event clientTs).bind fun gone => ?_
          cases gone with
          | true => trivial
          | false =>
              exact (calls_emitGroupEvent (group _ (by decide)) _ _ _ _).bind fun _ =>
                calls_emitChats _

/-! ### Admissions -/

/-- **An admission writes no session but the new member's.** The key was minted before the event is
broadcast, so the broadcast does not share it with the roster. -/
theorem wp_admitMember {demand : Ask → Vault → Prop} {allow : (asked : Ask) → asked.Answer → Prop}
    {inv : Vault → Prop}
    (within : ∀ asked v, Ask.May rows kinds sends asked → inv v → demand asked v ∧
      ∀ answer v', Ask.effectIf allow asked v answer v' → inv v')
    (contacts : ∀ id, rows .contacts id) {groupId who : String} (session : rows .olmSessions who)
    (roster : rows .chatMembers groupId) (requests : rows .groupJoinRequests groupId)
    (out : rows .groupOut groupId) (messages : rows .messages groupId)
    (shares : ∀ payload now, sends ⟨[who], MsgType.olmGroupKey, payload, some groupId, now⟩)
    (events : ∀ members payload now,
      sends ⟨members, MsgType.groupEvent, payload, some groupId, now⟩)
    (me addr : String) (now : Int) {v : Vault} (before : inv v) :
    Prog.wp (Ask.spec demand allow) (fun _ => inv) (admitMember me addr groupId who now) v := by
  -- one call of a vault helper within bounds
  have step : ∀ {op : VaultOp} {post : Except String Unit → Vault → Prop}
      {next : op.Result → Client Unit} {v : Vault}, Prog.Calls (Ask.May rows kinds sends)
      (call op) →
      inv v → (inv (op.exec v).2 →
        Prog.wp (Ask.spec demand allow) post (next (op.exec v).1) (op.exec v).2) →
      Prog.wp (Ask.spec demand allow) post (.ask (.call op) next) v := fun may holds rest =>
    (wp_call _ _ _).mpr ⟨(within _ _ may.1 holds).1, rest ((within _ _ may.1 holds).2 _ _ rfl)⟩
  -- once there is a sender, it stays while the key is shared
  have distributed : ∀ name sender v, inv v ∧ (v.loadGroupOut groupId).isSome →
      Prog.wp (Ask.spec demand allow) (fun _ v' => inv v' ∧ (v'.loadGroupOut groupId).isSome)
        (distributeGroupKey me groupId name [who] sender) v := by
    intro name sender v held
    have calls : Prog.Calls (Ask.May (fun part id => rows part id ∧ part ≠ .groupOut) kinds sends)
        (distributeGroupKey me groupId name [who] sender) := by
      refine calls_distributeGroupKey (fun id => ⟨contacts id, by decide⟩) (fun member only => ?_)
        (fun member only => ?_) me name sender
      · rw [List.mem_singleton.mp only]
        exact ⟨session, by decide⟩
      · rw [List.mem_singleton.mp only]
        exact shares
    have bound : ∀ asked, Ask.May (fun part id => rows part id ∧ part ≠ .groupOut) kinds
        sends asked →
        Ask.May rows kinds sends asked := fun asked may =>
      may.mono (fun _ _ allowed => allowed.1) (fun _ _ => id) fun _ => id
    refine calls.wp (fun asked v may holds => (within asked v (bound asked may) holds.1).1)
      (fun asked v answer v' may holds made => ⟨(within asked v (bound asked may) holds.1).2 _ _
        made, ?_⟩)
      held
    have outside : ¬ (rows VaultPart.groupOut groupId ∧ VaultPart.groupOut ≠ .groupOut) :=
      fun allowed => allowed.2 rfl
    have same : v'.loadGroupOut groupId = v.loadGroupOut groupId := may.frame outside made
    rw [same]
    exact holds.2
  have told : ∀ name v, inv v ∧ (v.loadGroupOut groupId).isSome →
      Prog.wp (Ask.spec demand allow) (fun _ => inv) (do
        broadcastGroupEvent me groupId name (joinedEvent who)
        emitGroupEvent groupId "joined" who "" now
        emitChats addr) v := by
    intro name v held
    obtain ⟨sender, isSender⟩ := Option.isSome_iff_exists.mp held.2
    unfold broadcastGroupEvent groupSender
    refine step (calls_read fun _ _ => id) held.1 fun holds => ?_
    refine step (calls_read fun _ _ => id) holds fun holds => ?_
    simp only [VaultOp.exec, isSender, Prog.done_bind, Prog.pure_eq]
    refine wp_within within ?_ holds
    exact (calls_sendGroupEvent out events me _ sender _).bind fun _ =>
      (calls_emitGroupEvent messages _ _ _ _).bind fun _ => calls_emitChats addr
  have minted : ∀ {next : GroupSender → Client Unit} {v : Vault}, inv v →
      (∀ sender v', inv v' ∧ (v'.loadGroupOut groupId).isSome →
        Prog.wp (Ask.spec demand allow) (fun _ => inv) (next sender) v') →
      Prog.wp (Ask.spec demand allow) (fun _ => inv)
        ((groupSender groupId fun _ => return ()).bind next) v := by
    intro next v holds rest
    unfold groupSender
    refine step (calls_read fun _ _ => id) holds fun holds => ?_
    simp only [VaultOp.exec, Prog.done_bind]
    cases held : v.loadGroupOut groupId with
    | some sender => exact rest sender v ⟨holds, by rw [held]; rfl⟩
    | none =>
        refine (wp_world _ _).mpr ⟨(within .random v trivial holds).1, fun seed _ => ?_⟩
        refine step (calls_write out (fun _ _ => id) (by trivial)) holds fun holds => ?_
        refine rest _ _ ⟨holds, ?_⟩
        simp [VaultOp.exec, Vault.saveGroupOut, Vault.loadGroupOut]
  unfold admitMember
  refine step (calls_read fun _ _ => id) before fun holds => ?_
  refine step (calls_write roster (fun _ _ => id) (by trivial)) holds fun holds => ?_
  refine step (calls_write requests (fun _ _ => id) (by trivial)) holds fun holds => ?_
  refine minted holds fun sender v' held => ?_
  rw [Prog.bind_eq, Prog.wp_bind]
  refine Prog.wp_mono (fun result v'' after => ?_) (distributed _ sender v' held)
  cases result with
  | ok _ => exact told _ v'' after
  | error e => exact after.1

/-- A join request writes the rows of the group it names, if that group is ours, and the session of
its sender. -/
theorem wp_handleJoinRequest {demand : Ask → Vault → Prop}
    {allow : (asked : Ask) → asked.Answer → Prop} {inv : Vault → Prop}
    (within : ∀ asked v, Ask.May rows kinds sends asked → inv v → demand asked v ∧
      ∀ answer v', Ask.effectIf allow asked v answer v' → inv v')
    (contacts : ∀ id, rows .contacts id) {sender : String} (session : rows .olmSessions sender)
    {ctx : ProcCtx} {plaintext : Bytes} {v : Vault}
    (group : ∀ req row, JoinRequest.fromSlice plaintext = .ok req →
      v.getGroupMeta req.groupId = some row → row.owner = ctx.me →
      ∀ part ∈ VaultPart.ofChat, rows part req.groupId)
    (sent : ∀ msg, sends msg) (now : Int) (before : inv v) :
    Prog.wp (Ask.spec demand allow) (fun _ => inv) (handleJoinRequest ctx sender plaintext
      now) v := by
  have readOk : ∀ {op : VaultOp} {v}, (∀ part id, ¬ op.Writes part id) → inv v →
      demand (.call op) v :=
    fun noWrite holds => (within _ _ (calls_read noWrite).1 holds).1
  unfold handleJoinRequest
  cases read : JoinRequest.fromSlice plaintext with
  | error e => exact before
  | ok req =>
      refine (wp_call _ _ v).mpr ⟨readOk (fun _ _ => id) before, ?_⟩
      simp only [VaultOp.exec, Prog.done_bind]
      cases found : v.getGroupMeta req.groupId with
      | none => exact before
      | some row =>
          dsimp only
          split
          · exact before
          · next owned =>
            have mine : row.owner = ctx.me := by
              simp only [Bool.or_eq_true, decide_eq_true_eq, not_or, not_not] at owned
              exact owned.2
            have part := group req row read found mine
            refine (wp_call _ _ v).mpr ⟨readOk (fun _ _ => id) before, ?_⟩
            rw [Prog.done_bind, Prog.bind_eq, Prog.wp_bind]
            have checked := wp_within within
              (calls_isSuspended (part .groupSuspensions (by decide)) sender now) before
            refine Prog.wp_mono (fun result v' after => ?_) checked
            cases result with
            | error e => exact after
            | ok suspended =>
                refine (wp_call _ _ v').mpr ⟨readOk (fun _ _ => id) after, ?_⟩
                rw [Prog.done_bind]
                split
                · exact wp_admitMember within contacts session (part _ (by decide))
                    (part _ (by decide)) (part _ (by decide)) (part _ (by decide))
                    (fun _ _ => sent _) (fun _ _ _ => sent _) _ _ _ after
                · exact wp_within within ((calls_write (part .groupJoinRequests (by decide))
                    (fun _ _ => id) (by trivial)).bind fun _ =>
                      (calls_emitGroupEvent (part .messages (by decide)) _ _ _ _).bind
                        fun _ => calls_emit _) after
                · exact wp_within within (calls_denyJoin contacts session
                    (fun _ _ => sent _) _) after

end Client

end

end

end Cherm
