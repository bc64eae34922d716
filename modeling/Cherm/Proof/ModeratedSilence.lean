/-
**A moderated user stays silent.**

Removing, banning and suspending drop a user from the roster of a group and delete the session their
messages were read with. Nothing else keeps them out, so `Muted` is the invariant: off the roster,
no session, and the recorded owner is somebody else.

* `Ask.KeepsOut`: the requests that leave it so. Of the others one puts the user on the roster, for
  the owner, and one deletes the chat.
* `handled_muted`: a frame of anybody, in any state that is muted, has no line of the user.
* `moderated_silent`: so there is none after the event, until the owner admits the user again or the
  chat is deleted.
* `Ideal.removed_user_speaks`: a member who was removed too knows nothing of it any more.
-/

import Cherm.Client.FrameAsks
import Cherm.Client.Walk
import Cherm.Ideal

namespace Cherm

open Crates Client

section

variable [Crates]

/-! ### Frames -/

/-- A frame that was worked off: the vault before and after, and the requests, the last one first.
-/
structure Handled (ctx : ProcCtx) where
  inc : Incoming
  before : Vault
  after : Vault
  log : List Ask
  ran : ∃ result, Prog.Runs (Prog.logged Ask.effect) (processFrame ctx inc) (before, []) result
    (after, log)

namespace Handled

variable {ctx : ProcCtx} (frame : Handled ctx) (group user : String)

/-- The event removed, banned or suspended the user, who is not the owner: these are the events that
delete a session. -/
def Applies : Prop :=
  frame.inc.msgType = MsgType.groupEvent ∧
    (∃ row, frame.before.getGroupMeta group = some row ∧ row.owner ≠ user) ∧
      .call (.deleteGroupIn group user) ∈ frame.log

/-- The owner, who sent the frame or is who handles it, puts the user on the roster. -/
def Readmits : Prop :=
  (∃ row, frame.before.getGroupMeta group = some row ∧
    (row.owner = frame.inc.from ∨ row.owner = ctx.me)) ∧
    .call (.addMember group user) ∈ frame.log

/-- The chat was deleted. -/
def Forgets : Prop := .call (.deleteChat group) ∈ frame.log

/-- A line of the user was inserted. -/
def HasLine : Prop :=
  ∃ text ts outgoing recvTs, .call (.insertMessage group user text ts outgoing recvTs) ∈ frame.log

end Handled

/-! ### The invariant -/

/-- Off the roster, without a session, and not the owner. -/
structure Muted (group user owner : String) (v : Vault) : Prop where
  roster : user ∉ v.getMembers group
  session : v.loadGroupIn group user = none
  row : ∃ row, v.getGroupMeta group = some row ∧ row.owner = owner
  other : owner ≠ user

/-- The request is not a line of the user. -/
def Ask.NoLine (group user : String) : Ask → Prop
  | .call (.insertMessage id sender ..) => ¬ (id = group ∧ sender = user)
  | _ => True

/-- A request that keeps a muted user out, or is one of two: a readmission, where the owner is at
work, and the deletion of the chat. -/
def Ask.KeepsOut (group user owner : String) (atWork : Prop) : Ask → Prop
  | .call (.saveGroupIn id sender _) => ¬ (id = group ∧ sender = user)
  | .call (.addMember id member) => id = group → member = user → atWork
  | .call (.upsertGroupMeta id _ _ recorded) => id = group → recorded = owner
  | .call (.createGroupRow id ..) => id ≠ group
  | _ => True

variable {group user owner : String} {atWork : Prop}

section

variable {op : VaultOp} {v : Vault}

theorem Muted.roster_exec (muted : Muted group user owner v)
    (unwritten : ¬ op.Writes .chatMembers group) : user ∉ (op.exec v).2.getMembers group := by
  rw [show (op.exec v).2.getMembers group = v.getMembers group from
    op.exec_frame v .chatMembers group unwritten]
  exact muted.roster

theorem Muted.session_exec (muted : Muted group user owner v)
    (unwritten : ¬ op.Writes .groupIn group) : (op.exec v).2.loadGroupIn group user = none :=
  (congrFun (op.exec_frame v .groupIn group unwritten) user).trans muted.session

theorem Muted.row_exec (muted : Muted group user owner v) (unwritten : ¬ op.Writes .groups group) :
    ∃ row, (op.exec v).2.getGroupMeta group = some row ∧ row.owner = owner := by
  rw [show (op.exec v).2.getGroupMeta group = v.getGroupMeta group from
    op.exec_frame v .groups group unwritten]
  exact muted.row

end

/-- **One request**: the user is still out, or the owner readmitted them, or the chat is gone. -/
theorem Muted.step {asked : Ask} {v v' : Vault} {answer : asked.Answer}
    (muted : Muted group user owner v) (keeps : asked.KeepsOut group user owner atWork)
    (made : Ask.effect asked v answer v') :
    Muted group user owner v' ∨ (atWork ∧ asked = .call (.addMember group user)) ∨
      asked = .call (.deleteChat group) := by
  cases asked with
  | call op =>
      obtain rfl : v' = (op.exec v).2 := congrArg Prod.snd (made : (answer, v') = op.exec v)
      cases op with
      | addMember id member =>
          by_cases same : id = group ∧ member = user
          · obtain ⟨rfl, rfl⟩ := same
            exact .inr (.inl ⟨keeps rfl rfl, rfl⟩)
          · refine .inl ⟨?_, muted.session_exec (by simp [VaultOp.Writes]),
              muted.row_exec (by simp [VaultOp.Writes]), muted.other⟩
            show user ∉ (v.addMember id member).getMembers group
            unfold Vault.addMember
            split
            · exact muted.roster
            · have other : ¬ ((id, member) = (group, user)) := fun both =>
                same ⟨(Prod.mk.inj both).1, (Prod.mk.inj both).2⟩
              intro on
              obtain ⟨entry, listed, named⟩ := List.mem_map.mp on
              obtain ⟨stored, here⟩ := List.mem_filter.mp listed
              rcases List.mem_append.mp stored with old | new
              · exact muted.roster (List.mem_map.mpr ⟨entry,
                  List.mem_filter.mpr ⟨old, here⟩, named⟩)
              · rw [List.mem_singleton.mp new] at here named
                exact other (Prod.ext (of_decide_eq_true here) named)
      | removeMember id member =>
          refine .inl ⟨?_, muted.session_exec (by simp [VaultOp.Writes]),
            muted.row_exec (by simp [VaultOp.Writes]), muted.other⟩
          intro on
          obtain ⟨entry, listed, named⟩ := List.mem_map.mp on
          obtain ⟨stored, here⟩ := List.mem_filter.mp listed
          exact muted.roster (List.mem_map.mpr
            ⟨entry, List.mem_filter.mpr ⟨(List.mem_filter.mp stored).1, here⟩, named⟩)
      | saveGroupIn id sender receiver =>
          refine .inl ⟨muted.roster, ?_, muted.row, muted.other⟩
          have other : ¬ ((group, user) = (id, sender)) := fun same =>
            keeps ⟨(Prod.mk.inj same).1.symm, (Prod.mk.inj same).2.symm⟩
          show (v.groupIn.put (id, sender) receiver).get (group, user) = none
          rw [Table.get_put, if_neg other]
          exact muted.session
      | deleteGroupIn id sender =>
          refine .inl ⟨muted.roster, ?_, muted.row, muted.other⟩
          show (v.groupIn.erase (id, sender)).get (group, user) = none
          rw [Table.get_erase]
          split
          · rfl
          · exact muted.session
      | upsertGroupMeta id key mode recorded =>
          refine .inl ⟨muted.roster_exec (by simp [VaultOp.Writes]),
            muted.session_exec (by simp [VaultOp.Writes]), ?_, muted.other⟩
          show ∃ row, (v.upsertGroupMeta id key mode recorded).groups.get group = some row ∧ _
          unfold Vault.upsertGroupMeta
          split
          · exact muted.row
          · rw [Table.get_put]
            split
            · next here => exact ⟨_, rfl, keeps here.symm⟩
            · exact muted.row
      | setAccessMode id mode =>
          refine .inl ⟨muted.roster_exec (by simp [VaultOp.Writes]),
            muted.session_exec (by simp [VaultOp.Writes]), ?_, muted.other⟩
          obtain ⟨row, found, owned⟩ := muted.row
          show ∃ row, (v.setAccessMode id mode).groups.get group = some row ∧ _
          unfold Vault.setAccessMode
          cases known : v.groups.get id with
          | none => exact ⟨row, found, owned⟩
          | some old =>
              show ∃ row, (v.groups.put id _).get group = some row ∧ _
              rw [Table.get_put]
              split
              · next here =>
                rw [← here, show v.groups.get group = some row from found] at known
                obtain rfl := Option.some.inj known
                exact ⟨_, rfl, owned⟩
              · exact ⟨row, found, owned⟩
      | createGroupRow id mode recorded gen =>
          refine .inl ⟨muted.roster_exec (by simp [VaultOp.Writes]),
            muted.session_exec (by simp [VaultOp.Writes]), muted.row_exec ?_, muted.other⟩
          exact fun writes => keeps writes.2.symm
      | deleteChat id =>
          by_cases here : id = group
          · exact .inr (.inr (by rw [here]))
          · have away : ∀ part, ¬ (VaultOp.deleteChat id).Writes part group :=
              fun part writes => here writes.2.symm
            exact .inl ⟨muted.roster_exec (away _), muted.session_exec (away _),
              muted.row_exec (away _), muted.other⟩
      | _ =>
          exact .inl ⟨muted.roster_exec (by simp [VaultOp.Writes]),
            muted.session_exec (by simp [VaultOp.Writes]),
            muted.row_exec (by simp [VaultOp.Writes]),
            muted.other⟩
  | _ =>
      obtain ⟨_, rfl⟩ := made
      exact .inl muted

/-! ### A frame from a muted vault -/

/-- What a frame may ask for: no line of the user, and nothing that lets a muted user in. -/
def hushed (group user owner : String) (atWork : Prop) (asked : Ask) (v : Vault) : Prop :=
  asked.NoLine group user ∧ (Muted group user owner v → asked.KeepsOut group user owner atWork)

/-- The user is still out, or readmitted, or the chat is gone; and there is no line of theirs. -/
structure Hushed (group user owner : String) (atWork : Prop) (state : Vault × List Ask) : Prop where
  out : Muted group user owner state.1 ∨ (atWork ∧ .call (.addMember group user) ∈ state.2) ∨
    .call (.deleteChat group) ∈ state.2
  noLine : ∀ asked ∈ state.2, asked.NoLine group user

theorem Hushed.step {asked : Ask} {state state' : Vault × List Ask} {answer : asked.Answer}
    (before : Hushed group user owner atWork state)
    (demanded : hushed group user owner atWork asked state.1)
    (made : Prog.logged Ask.effect asked state answer state') :
    Hushed group user owner atWork state' := by
  obtain ⟨effect, log⟩ := made
  refine ⟨?_, fun other member => ?_⟩
  · rw [log]
    rcases before.out with muted | ⟨working, readmitted⟩ | gone
    · rcases muted.step (demanded.2 muted) effect with still | ⟨working, rfl⟩ | rfl
      · exact .inl still
      · exact .inr (.inl ⟨working, List.mem_cons_self⟩)
      · exact .inr (.inr List.mem_cons_self)
    · exact .inr (.inl ⟨working, List.mem_cons_of_mem _ readmitted⟩)
    · exact .inr (.inr (List.mem_cons_of_mem _ gone))
  · rw [log] at member
    rcases List.mem_cons.mp member with rfl | earlier
    · exact demanded.1
    · exact before.noLine other earlier

/-- A verified program, run with its requests written down. -/
theorem hushed_runs {α : Type} {prog : Client α} {post : Except String α → Vault → Prop}
    {state state' : Vault × List Ask} {result : Except String α}
    (runs : Prog.Runs (Prog.logged Ask.effect) prog state result state')
    (holds : Prog.wp (Ask.spec (hushed group user owner atWork) fun _ _ => True) post prog state.1)
    (before : Hushed group user owner atWork state) : Hushed group user owner atWork state' := by
  induction runs with
  | done value s => exact before
  | fail error s => exact before
  | ask made rest ih => exact ih (holds.2 _ _ made.1) (before.step holds.1 made)

/-- The requests alone keep a muted user out. -/
abbrev keepsOut (group user owner : String) (atWork : Prop) (asked : Ask) (v : Vault) : Prop :=
  Muted group user owner v → asked.KeepsOut group user owner atWork

/-- The program keeps a muted user out. -/
abbrev KeepsOut (group user owner : String) (atWork : Prop) {α : Type}
    (post : Except String α → Vault → Prop) (prog : Client α) (v : Vault) : Prop :=
  Prog.wp (Ask.spec (keepsOut group user owner atWork) fun _ _ => True) post prog v

/-! ### Requests that stay away from the group -/

/-- Rows that are not the group's roster, sessions or row. -/
def OffGroup (group : String) (part : VaultPart) (id : String) : Prop :=
  id = group → part ∉ [VaultPart.chatMembers, .groupIn, .groups]

/-- A request that stays away from them. -/
abbrev Ask.Away (group : String) : Ask → Prop :=
  Ask.May (OffGroup group) (fun _ _ => True) fun _ => True

theorem keepsOut_of_may {asked : Ask} (may : asked.Away group) :
    asked.KeepsOut group user owner atWork := by
  cases asked with
  | call op =>
      cases op with
      | saveGroupIn id sender receiver =>
          exact fun same => may.1 .groupIn id ⟨rfl, rfl⟩ same.1 (by decide)
      | addMember id member =>
          exact fun here => absurd (by decide) (may.1 .chatMembers id ⟨rfl, rfl⟩ here)
      | upsertGroupMeta id key mode recorded =>
          exact fun here => absurd (by decide) (may.1 .groups id ⟨rfl, rfl⟩ here)
      | createGroupRow id mode recorded gen =>
          exact fun here => may.1 .groups id ⟨rfl, rfl⟩ here (by decide)
      | _ => trivial
  | _ => trivial

theorem Muted.may {asked : Ask} (may : asked.Away group) {v v' : Vault} {answer : asked.Answer}
    (muted : Muted group user owner v) (made : Ask.effect asked v answer v') :
    Muted group user owner v' := by
  have same : ∀ part ∈ [VaultPart.chatMembers, .groupIn, .groups], part.SameAt group v v' :=
    fun part listed => may.frame (fun off => off rfl listed) made
  refine ⟨?_, (congrFun (same .groupIn (by decide)) user).trans muted.session, ?_, muted.other⟩
  · rw [show v'.getMembers group = v.getMembers group from same .chatMembers (by decide)]
    exact muted.roster
  · rw [show v'.getGroupMeta group = v.getGroupMeta group from same .groups (by decide)]
    exact muted.row

/-- A program that stays away leaves the user muted. -/
theorem keepsOut_away {α : Type} {prog : Client α} (calls : Prog.Calls (Ask.Away group) prog)
    {v : Vault}
    (muted : Muted group user owner v) :
    KeepsOut group user owner atWork (fun _ => Muted group user owner) prog v :=
  calls.wp (fun _ _ may _ _ => keepsOut_of_may may) (fun _ _ _ _ may muted made =>
  muted.may may made) muted

/-- A program whose requests keep the user out, whatever the vault. -/
theorem keepsOut_of_calls {α : Type} {prog : Client α}
    (calls : Prog.Calls (Ask.KeepsOut group user owner atWork) prog) (v : Vault) :
    KeepsOut group user owner atWork (fun _ _ => True) prog v :=
  calls.wp (fun _ _ keeps _ _ => keeps) (fun _ _ _ _ _ _ _ => trivial) trivial

/-- A program that keeps the user out and neither readmits them nor deletes the chat. -/
theorem keepsOut_still {α : Type} {prog : Client α}
    (calls : Prog.Calls (fun asked => asked.KeepsOut group user owner False ∧
      asked ≠ .call (.deleteChat group)) prog) {v : Vault} (muted : Muted group user owner v) :
    KeepsOut group user owner atWork (fun _ => Muted group user owner) prog v := by
  refine calls.wp (fun asked _ keeps _ _ => ?_) (fun _ _ _ _ keeps muted made => ?_) muted
  · have keeps := keeps.1
    cases asked with
    | call op =>
        cases op with
        | addMember id member => exact fun here same => (keeps here same).elim
        | _ => exact keeps
    | _ => trivial
  · rcases muted.step keeps.1 made with still | ⟨readmits, _⟩ | gone
    · exact still
    · exact readmits.elim
    · exact absurd gone keeps.2

/-- Requests that stay away keep the user out. -/
theorem away_calls {α : Type} {prog : Client α} (calls : Prog.Calls (Ask.Away group) prog) :
    Prog.Calls (Ask.KeepsOut group user owner atWork) prog :=
  calls.mono fun _ => keepsOut_of_may

/-! ### The handlers -/

/-- A session is opened only if there is one: not the muted user's. -/
theorem keepsOut_openMegolm {id sender payload : String}
    {rest : Option (Bytes × Nat × GroupReceiver) → Client Unit} {v : Vault}
    (muted : Muted group user owner v)
    (none : ∀ v, KeepsOut group user owner atWork (fun _ _ => True) (rest none) v)
    (some : ¬ (id = group ∧ sender = user) → ∀ opened v, Muted group user owner v →
      KeepsOut group user owner atWork (fun _ _ => True) (rest (some opened)) v) :
    KeepsOut group user owner atWork (fun _ _ => True) ((openMegolm id sender payload).bind
    rest) v := by
  unfold openMegolm
  refine (wp_call _ _ v).mpr ⟨fun _ => trivial, ?_⟩
  simp only [VaultOp.exec, Prog.done_bind]
  cases held : v.loadGroupIn id sender with
  | none => exact (wp_world _ _).mpr ⟨fun _ => trivial, fun _ _ => none v⟩
  | some receiver =>
      have other : ¬ (id = group ∧ sender = user) := by
        rintro ⟨rfl, rfl⟩
        rw [muted.session] at held
        cases held
      dsimp only
      cases decoded : b64Decode payload with
      | error e => trivial
      | ok body =>
          cases opened : receiver.decrypt body with
          | error e =>
              simp [opened, lift_eq]
          | ok opened' =>
              simp only [opened, lift_eq, Prog.bind_eq, Prog.ofExcept_ok, Prog.done_bind,
                Prog.pure_eq]
              exact some other opened' v muted

theorem keepsOut_acceptMegolm {id sender : String} (other : ¬ (id = group ∧ sender = user))
    (idx : Nat)
    (receiver : GroupReceiver) :
    Prog.Calls (fun asked => asked.KeepsOut group user owner False ∧
      asked ≠ .call (.deleteChat group)) (acceptMegolm id sender idx receiver) := by
  refine ⟨⟨trivial, nofun⟩, fun fresh => ?_⟩
  cases fresh with
  | false => trivial
  | true => exact ⟨⟨other, nofun⟩, fun _ => trivial⟩

theorem keepsOut_processMegolm {sender id payload : String} {ts : Int} {v : Vault}
    (muted : Muted group user owner v) :
    KeepsOut group user owner atWork (fun _ _ => True) (processMegolm sender id payload ts) v := by
  refine keepsOut_openMegolm muted (fun _ => trivial) fun other opened v muted => ?_
  obtain ⟨plaintext, idx, receiver⟩ := opened
  refine Prog.wp_then (keepsOut_still (keepsOut_acceptMegolm other idx receiver) muted)
    (fun fresh v _ => ?_) fun _ _ _ => trivial
  refine keepsOut_of_calls (away_calls ?_) v
  cases fresh with
  | false => trivial
  | true =>
      exact (calls_okOr _ _).bind fun text =>
        (calls_insertMessage (fun _ => by decide) _ _ _ _).bind fun _ => calls_emit _

theorem keepsOut_processMegolmSystem {sender id payload : String} {ts : Int} {v : Vault}
    (muted : Muted group user owner v) :
    KeepsOut group user owner atWork (fun _ _ => True) (processMegolmSystem sender id payload
    ts) v := by
  refine keepsOut_openMegolm muted (fun _ => trivial) fun other opened v muted => ?_
  obtain ⟨plaintext, idx, receiver⟩ := opened
  dsimp only
  split
  · trivial
  · refine Prog.wp_then (keepsOut_still (keepsOut_acceptMegolm other idx receiver) muted)
      (fun fresh v _ => ?_) fun _ _ _ => trivial
    refine keepsOut_of_calls ?_ v
    cases fresh with
    | false => trivial
    | true =>
        exact ⟨trivial, fun _ => away_calls (calls_emitSystem (fun _ => by decide) _ _)⟩

/-- An event of the owner's may readmit. -/
theorem keepsOut_applyGroupEvent {id : String} (byOwner : id = group → atWork) (ctx : ProcCtx)
    (event : GroupEvent) (ts : Int) :
    Prog.Calls (Ask.KeepsOut group user owner atWork) (applyGroupEvent ctx id event ts) := by
  have dropped : Prog.Calls (Ask.KeepsOut group user owner atWork) (dropMember id event ts) := by
    refine ⟨trivial, fun _ => ⟨trivial, fun _ => ?_⟩⟩
    dsimp only [Prog.done_bind]
    split
    · exact ⟨trivial, fun _ => trivial⟩
    · split
      · exact ⟨trivial, fun _ => trivial⟩
      · trivial
    · trivial
  have aimed : Prog.Calls (Ask.KeepsOut group user owner atWork) (do
      if event.who = ctx.me then
        if event.kind = "suspended" then
          emit (.info "you were suspended from a group")
          return false
        call (.deleteChat id)
        emitChats ctx.addr
        emit (.info ("you were " ++ event.kind ++ " from a group"))
        return true
      dropMember id event ts
      return false) := by
    split
    · split
      · exact ⟨trivial, fun _ => trivial⟩
      · exact ⟨trivial, fun _ => away_calls
          ((calls_emitChats _).bind fun _ => (calls_emit _).bind fun _ => trivial)⟩
    · exact dropped.bind fun _ => trivial
  unfold applyGroupEvent
  split
  · exact ⟨trivial, fun _ => ⟨trivial, fun _ => ⟨fun here _ => byOwner here, fun _ => trivial⟩⟩⟩
  · exact aimed
  · exact aimed
  · exact aimed
  · split
    · dsimp only
      split
      · exact ⟨trivial, fun _ => trivial⟩
      · trivial
    · trivial
  · trivial

theorem keepsOut_processGroupEvent {ctx : ProcCtx} {sender id payload : String} {ts : Int}
    {v : Vault}
    (works : owner = sender → atWork) (muted : Muted group user owner v) :
    KeepsOut group user owner atWork (fun _ _ => True) (processGroupEvent ctx sender id payload
    ts) v := by
  refine keepsOut_openMegolm muted (fun _ => trivial) fun other opened v muted => ?_
  obtain ⟨plaintext, idx, receiver⟩ := opened
  refine Prog.wp_then (keepsOut_still (keepsOut_acceptMegolm other idx receiver) muted)
    (fun fresh v muted => ?_) fun _ _ _ => trivial
  cases fresh with
  | false => trivial
  | true =>
      refine (wp_call _ _ v).mpr ⟨fun _ => trivial, ?_⟩
      simp only [VaultOp.exec, Prog.done_bind]
      split
      · trivial
      · next checked =>
        have byOwner : id = group → atWork := by
          rintro rfl
          obtain ⟨row, found, recorded⟩ := muted.row
          rw [found] at checked
          simp only [Option.elim_some, Bool.not_eq_true', Bool.not_eq_false, Bool.and_eq_true,
            decide_eq_true_eq] at checked
          exact works (recorded.symm.trans checked.2)
        refine keepsOut_of_calls ?_ v
        refine (away_calls (calls_lift _)).bind fun event =>
          (keepsOut_applyGroupEvent byOwner ctx event ts).bind fun gone => ?_
        cases gone with
        | true => trivial
        | false =>
            exact away_calls ((calls_emitGroupEvent (fun _ => by decide) _ _ _ _).bind fun _ =>
              calls_emitChats _)

/-- A share is not the muted user's, and what it says of the group is the owner's. -/
theorem keepsOut_storeShare {sender : String} {share : GroupKeyShare} {isNew byOwner : Bool}
    (works : owner = sender → atWork) {v : Vault} (muted : Muted group user owner v)
    (admitted : ShareAdmitted v sender share isNew byOwner) (ctx : ProcCtx) :
    Prog.Calls (Ask.KeepsOut group user owner atWork) (storeShare ctx sender share isNew
      byOwner) := by
  obtain ⟨row, found, recorded⟩ := muted.row
  have owns : byOwner = true → share.groupId = group → owner = sender := by
    rintro isOwner rfl
    have authority := admitted.authority.symm.trans isOwner
    rw [found] at authority
    cases isNew with
    | true => cases authority
    | false =>
        obtain ⟨row', same, _, named⟩ := ownerShare_old authority
        obtain rfl := Option.some.inj same
        exact recorded.symm.trans named
  have other : ¬ (share.groupId = group ∧ sender = user) := by
    rintro ⟨here, rfl⟩
    rcases admitted.entitled with isOwner | ⟨_, isMember⟩
    · exact muted.other (owns isOwner here)
    · rw [here] at isMember
      exact muted.roster ((v.isMember_iff group sender).mp isMember)
  have told : Prog.Calls (Ask.KeepsOut group user owner atWork) (do
      emitChats ctx.addr
      if isNew then emit (.info ("added to group " ++ share.name))) := by
    refine away_calls ((calls_emitChats _).bind fun _ => ?_)
    cases isNew with
    | true => exact calls_emit _
    | false => trivial
  refine (away_calls (calls_lift _)).bind fun receiver => ⟨other, fun _ => ?_⟩
  cases byOwner with
  | true =>
      have learned : Prog.Calls (Ask.KeepsOut group user owner atWork)
          (learnGroup sender share) := by
        have member : ∀ m, Prog.Calls (Ask.KeepsOut group user owner atWork)
            (call (.addMember share.groupId m)) := fun m =>
          ⟨fun here _ => works (owns rfl here), fun _ => trivial⟩
        refine (away_calls (calls_upsertChat (fun _ => by decide) trivial _)).bind fun _ =>
          (Prog.calls_forEach fun m _ => member m).bind fun _ => ?_
        split
        · exact ⟨fun here => (owns rfl here).symm, fun _ => trivial⟩
        · trivial
      exact learned.bind fun _ => told
  | false =>
      cases isNew with
      | true => trivial
      | false => exact told

theorem keepsOut_handleGroupKeyShare {sender : String} (works : owner = sender → atWork)
    (ctx : ProcCtx) (plaintext : Bytes) {v : Vault} (muted : Muted group user owner v) :
    KeepsOut group user owner atWork (fun _ _ => True) (handleGroupKeyShare ctx sender
    plaintext) v := by
  cases read : GroupKeyShare.fromSlice plaintext with
  | error e =>
      unfold handleGroupKeyShare
      rw [read]
      trivial
  | ok share =>
      refine wp_handleGroupKeyShare read (fun asked v spares muted => ?_) (fun _ _ => trivial)
        (fun v isNew byOwner muted admitted => ?_) muted
      · have away : asked.Away group := by
          refine spares.mono ?_ (fun _ _ never => never.elim) fun _ never => never.elim
          rintro part id ⟨rfl, rfl⟩ _
          decide
        exact ⟨fun _ => keepsOut_of_may away, fun _ _ made => muted.may away made⟩
      · exact keepsOut_of_calls (keepsOut_storeShare works muted admitted ctx) v

/-- A join request is for a group of ours. -/
theorem keepsOut_handleJoinRequest {ctx : ProcCtx} {sender : String}
    (works : owner = ctx.me → atWork)
    (plaintext : Bytes) (ts : Int) {v : Vault} (muted : Muted group user owner v) :
    KeepsOut group user owner atWork (fun _ _ => True) (handleJoinRequest ctx sender plaintext
    ts) v := by
  unfold handleJoinRequest
  cases read : JoinRequest.fromSlice plaintext with
  | error e => trivial
  | ok req =>
      refine (wp_call _ _ v).mpr ⟨fun _ => trivial, ?_⟩
      simp only [VaultOp.exec, Prog.done_bind]
      cases found : v.getGroupMeta req.groupId with
      | none => trivial
      | some row =>
          dsimp only
          split
          · trivial
          · next checked =>
            have ours : req.groupId = group → atWork := by
              intro here
              obtain ⟨row', known, recorded⟩ := muted.row
              rw [here, known] at found
              obtain rfl := Option.some.inj found
              simp only [Bool.or_eq_true, decide_eq_true_eq, not_or, not_not] at checked
              exact works (recorded.symm.trans checked.2)
            -- the roster is the owner's to write, and the other rows are no danger
            have admitted : Prog.Calls (Ask.KeepsOut group user owner atWork)
                (admitMember ctx.me ctx.addr req.groupId sender ts) := by
              refine ⟨trivial, fun chat => ⟨fun here _ => ours here, fun _ =>
                ⟨trivial, fun _ => ?_⟩⟩⟩
              have silent : ∀ _ : GroupSender, Prog.Calls (Ask.Away group)
                  (pure () : Client Unit) := fun _ => trivial
              exact away_calls ((calls_groupSender (fun _ => by decide) silent).bind fun held =>
                (calls_distributeGroupKey (fun _ _ => by decide)
                (fun _ _ _ => by decide) (fun _ _ _ _ => trivial) _ _ _).bind fun _ =>
                  (calls_broadcastGroupEvent (fun _ _ => by decide) (fun _ _ => by decide)
                    (fun _ => by decide) (fun _ _ _ => trivial) (fun _ _ _ => trivial) _ _
                      _).bind fun _ =>
                      (calls_emitGroupEvent (fun _ => by decide) _ _ _ _).bind fun _ =>
                        calls_emitChats _)
            refine keepsOut_of_calls ?_ v
            refine (away_calls (calls_read fun _ _ => id)).bind fun banned =>
              (away_calls (calls_isSuspended (fun _ => by decide) _ _)).bind fun suspended =>
                (away_calls (calls_read fun _ _ => id)).bind fun member => ?_
            split
            · exact admitted
            · exact ⟨trivial, fun _ => away_calls ((calls_emitGroupEvent (fun _ => by decide) _ _
                _ _).bind
                fun _ => calls_emit _)⟩
            · exact away_calls (calls_denyJoin (fun _ _ => by decide) (fun _ => by decide)
                (fun _ _ => trivial) _)

/-! ### A frame -/

/-- The owner is at work on this frame: who sent it, or who handles it. -/
def AtWork (owner : String) (ctx : ProcCtx) (inc : Incoming) : Prop :=
  owner = inc.from ∨ owner = ctx.me

theorem keepsOut_processOne {ctx : ProcCtx} {inc : Incoming} (named : inc.from ≠ group) {v : Vault}
    (muted : Muted group user owner v) :
    KeepsOut group user owner (AtWork owner ctx inc) (fun _ _ => True) (processOne ctx inc) v := by
  have opened : ∀ {rest : Bytes → Client Unit}, (∀ plaintext v, Muted group user owner v →
      KeepsOut group user owner (AtWork owner ctx inc) (fun _ _ => True) (rest plaintext) v) →
      KeepsOut group user owner (AtWork owner ctx inc) (fun _ _ => True)
        ((obtainOlmPlaintext inc.from inc.payload).bind rest) v := by
    intro rest after
    refine Prog.wp_then (keepsOut_away (calls_obtainOlmPlaintext (fun _ _ => by decide)
      (fun _ _ => by decide) (fun _ => by decide) _) muted) (fun plaintext v muted => ?_)
      fun _ _ _ => trivial
    exact after plaintext v muted
  have inGroup : ∀ {missing : String} {rest : String → Client Unit}, (∀ id,
      KeepsOut group user owner (AtWork owner ctx inc) (fun _ _ => True) (rest id) v) →
      KeepsOut group user owner (AtWork owner ctx inc) (fun _ _ => True)
        ((frameGroup inc missing).bind rest) v := by
    intro missing rest after
    unfold frameGroup okOr
    cases inc.groupId with
    | none => trivial
    | some id => exact after id
  unfold processOne
  split
  · refine opened fun plaintext v _ => keepsOut_of_calls (away_calls ?_) v
    exact calls_deliverDmText (fun here => absurd here named) trivial
      (fun here => absurd here named)
      (fun _ => by decide) ctx plaintext _
  · exact opened fun plaintext v muted => keepsOut_handleGroupKeyShare .inl ctx plaintext muted
  · exact inGroup fun id => keepsOut_processMegolm muted
  · refine opened fun plaintext v _ => keepsOut_of_calls (away_calls ?_) v
    split
    · exact calls_emitSystem (fun _ => by decide) _ _
    · trivial
  · exact inGroup fun id => keepsOut_processMegolmSystem muted
  · exact opened fun plaintext v muted => keepsOut_handleJoinRequest .inr plaintext _ muted
  · exact opened fun plaintext v _ => keepsOut_of_calls (away_calls (calls_handleJoinDenied _ _)) v
  · exact inGroup fun id => keepsOut_processGroupEvent .inl muted
  · trivial

theorem keepsOut_processFrame {ctx : ProcCtx} {inc : Incoming} (named : inc.from ≠ group)
    {v : Vault}
    (muted : Muted group user owner v) :
    KeepsOut group user owner (AtWork owner ctx inc) (fun _ _ => True) (processFrame ctx inc) v :=
  wp_processFrame (fun _ _ _ _ => trivial) (keepsOut_processOne named muted)

/-! ### No line -/

/-- The walk of the programs without a line of the user. -/
def lineless (group user : String) (real : user ≠ "System") : Walk where
  rel p _ := Prog.Calls (Ask.NoLine group user) p
  names sender := sender ≠ user
  clocks _ _ := True
  done _ := trivial
  fail _ := trivial
  bind first second := first.bind second
  attempt calls := calls.attempt
  query {asked} basic := by
    refine ⟨?_, fun _ => trivial⟩
    cases asked with
    | call op =>
        cases op with
        | insertMessage => exact basic.elim
        | _ => trivial
    | _ => trivial
  emitChats addr := ⟨trivial, fun _ => ⟨trivial, fun _ => trivial⟩⟩
  emitSystem chat text ts ts' :=
    ⟨trivial, fun _ => ⟨fun same => real same.2.symm, fun _ => ⟨trivial, fun _ => trivial⟩⟩⟩
  showText named chat text ts ts' outgoing :=
    ⟨trivial, fun _ => ⟨fun same => named same.2, fun _ => ⟨trivial, fun _ => trivial⟩⟩⟩
  showDm named addr text ts ts' newChat := by
    refine ⟨trivial, fun _ => ⟨fun same => named same.2, fun _ => ?_⟩⟩
    cases newChat with
    | true => exact ⟨trivial, fun _ => ⟨trivial, fun _ => ⟨trivial, fun _ => trivial⟩⟩⟩
    | false => exact ⟨trivial, fun _ => trivial⟩
  banUser _ _ _ _ := ⟨trivial, fun _ => trivial⟩
  addJoinRequest _ _ _ _ := ⟨trivial, fun _ => trivial⟩
  isSuspended _ _ _ := by
    refine ⟨trivial, fun deadline => ?_⟩
    cases deadline with
    | none => trivial
    | some untilTs =>
        dsimp only [Prog.done_bind]
        split
        · trivial
        · exact ⟨trivial, fun _ => trivial⟩

/-- A frame that writes no lines of the group. -/
theorem lineless_may {α : Type} {prog : Client α}
    (calls : Prog.Calls (Ask.May (fun part id => id = group → part ≠ .messages) (fun _ _ => True)
      fun _ => True) prog) : Prog.Calls (Ask.NoLine group user) prog := by
  refine calls.mono fun asked may => ?_
  cases asked with
  | call op =>
      cases op with
      | insertMessage id sender text ts outgoing recvTs =>
          exact fun same => may.1 .messages id ⟨rfl, rfl⟩ same.1 rfl
      | _ => trivial
  | _ => trivial

theorem lineless_processFrame {ctx : ProcCtx} {inc : Incoming}
    (one : Prog.Calls (Ask.NoLine group user) (processOne ctx inc)) :
    Prog.Calls (Ask.NoLine group user) (processFrame ctx inc) := by
  refine one.attempt.bind fun result => ?_
  cases result with
  | ok _ => trivial
  | error e => exact ⟨trivial, fun _ => trivial⟩

/-- The program has no line of the user, and keeps a muted user out. -/
abbrev HushedRun (group user owner : String) (atWork : Prop) {α : Type} (prog : Client α)
    (v : Vault) :
    Prop :=
  Prog.wp (Ask.spec (hushed group user owner atWork) fun _ _ => True) (fun _ _ => True) prog v

/-- **Any frame in a muted vault**, from the user or from anybody else. -/
theorem hushed_processFrame {ctx : ProcCtx} {inc : Incoming} (named : inc.from ≠ group)
    (real : user ≠ "System") {v : Vault} (muted : Muted group user owner v) :
    HushedRun group user owner (AtWork owner ctx inc) (processFrame ctx inc) v := by
  have keeps : KeepsOut group user owner (AtWork owner ctx inc) (fun _ _ => True)
      (processFrame ctx inc) v := keepsOut_processFrame named muted
  have silent : Prog.Calls (Ask.NoLine group user) (processFrame ctx inc) →
      HushedRun group user owner (AtWork owner ctx inc) (processFrame ctx inc) v :=
    fun calls => calls.wp_demand keeps
  by_cases speaks : inc.msgType ∈ textKinds ∧ inc.from = user
  · obtain ⟨isText, rfl⟩ := speaks
    rcases List.mem_pair.mp isText with isOlm | isMegolm
    -- the chat of a direct message is named after its sender
    · refine silent (lineless_processFrame ?_)
      unfold processOne
      rw [isOlm]
      refine lineless_may ((calls_obtainOlmPlaintext (fun _ _ => by decide) (fun _ _ => by decide)
        (fun _ => by decide) _).bind fun plaintext => ?_)
      exact calls_deliverDmText (fun here => absurd here named) trivial
        (fun here => absurd here named)
        (fun here => absurd here named) ctx plaintext _
    · cases aimed : inc.groupId with
      | none =>
          refine silent (lineless_processFrame ?_)
          unfold processOne frameGroup
          rw [isMegolm, aimed]
          trivial
      | some id =>
          by_cases here : id = group
          -- no session is left to read it with
          · subst here
            have one : HushedRun id inc.from owner (AtWork owner ctx inc)
                (processOne ctx inc) v := by
              unfold processOne frameGroup
              rw [isMegolm, aimed]
              refine (wp_call _ _ v).mpr ⟨⟨trivial, fun _ => trivial⟩, ?_⟩
              simp only [VaultOp.exec, muted.session, Prog.done_bind]
              exact (wp_world _ _).mpr ⟨⟨trivial, fun _ => trivial⟩, fun _ _ => trivial⟩
            exact wp_processFrame (fun _ _ _ => ⟨trivial, fun _ => trivial⟩) one
          · refine silent (lineless_processFrame ?_)
            unfold processOne frameGroup
            rw [isMegolm, aimed]
            exact lineless_may (calls_processMegolm (fun _ => by decide) (fun _ => by decide)
              (fun same => absurd same here) _ _ _)
  · exact silent (walk_processFrame (w := lineless group user real) ctx inc inc.clientTs
      (fun isText same => speaks ⟨isText, same⟩) fun _ => trivial)

/-! ### The event -/

/-- The event has not deleted the session yet, and the owner is on record. -/
structure Pending (group user owner : String) (state : Vault × List Ask) : Prop where
  row : ∃ row, state.1.getGroupMeta group = some row ∧ row.owner = owner
  kept : .call (.deleteGroupIn group user) ∉ state.2

/-- Where the session was deleted the user is out. -/
def DropSettled (group user owner : String) (state : Vault × List Ask) : Prop :=
  .call (.deleteGroupIn group user) ∈ state.2 → Muted group user owner state.1

/-- Any run, with the requests written down. -/
abbrev Written {α : Type} (post : Except String α → Vault × List Ask → Prop) (prog : Client α)
    (state : Vault × List Ask) : Prop :=
  Prog.wp (.free (Prog.logged Ask.effect)) post prog state

/-- A request that does not delete the session. -/
abbrev Ask.Keeps (group user : String) (asked : Ask) : Prop :=
  asked ≠ .call (.deleteGroupIn group user)

/-- A request that neither deletes the session nor touches the row of a group. -/
def Ask.Spares (group user : String) (asked : Ask) : Prop :=
  asked.Keeps group user ∧
    asked.May (fun part _ => part ≠ .groups) (fun _ _ => True) fun _ => True

theorem pending_spares {α : Type} {prog : Client α} (calls :
    Prog.Calls (Ask.Spares group user) prog)
    {state : Vault × List Ask} (before : Pending group user owner state) :
    Written (fun _ => Pending group user owner) prog state := by
  refine calls.wp (fun _ _ _ _ => trivial) (fun asked s answer s' spares pending made => ?_) before
  obtain ⟨effect, log⟩ := made
  refine ⟨?_, ?_⟩
  · rw [show s'.1.getGroupMeta group = s.1.getGroupMeta group from
      spares.2.frame (fun writes => writes rfl) effect]
    exact pending.row
  · rw [log]
    exact fun member => (List.mem_cons.mp member).elim (fun same => spares.1 same.symm) pending.kept

/-- What deletes no session leaves nothing to settle. -/
theorem settled_kept {α : Type} {prog : Client α}
    (calls : Prog.Calls (Ask.Keeps group user) prog)
    {state : Vault × List Ask} (before : .call (.deleteGroupIn group user) ∉ state.2) :
    Written (fun _ => DropSettled group user owner) prog state := by
  have kept : Written (fun _ s => .call (.deleteGroupIn group user) ∉ s.2) prog state := by
    refine calls.wp (fun _ _ _ _ => trivial) (fun asked s answer s' other kept made => ?_) before
    rw [made.2]
    exact fun member => (List.mem_cons.mp member).elim (fun same => other same.symm) kept
  exact Prog.wp_mono (fun _ s kept member => absurd member kept) kept

/-- What stays away from the group leaves it settled. -/
theorem settled_away {α : Type} {prog : Client α} (calls : Prog.Calls (fun asked =>
      asked.Away group ∧ asked.Keeps group user) prog)
    {state : Vault × List Ask} (before : DropSettled group user owner state) :
    Written (fun _ => DropSettled group user owner) prog state := by
  refine calls.wp (fun _ _ _ _ => trivial) (fun asked s answer s' away settled made => ?_) before
  obtain ⟨effect, log⟩ := made
  intro member
  rw [log] at member
  refine Muted.may away.1 (settled ?_) effect
  exact (List.mem_cons.mp member).resolve_left fun same => away.2 same.symm

/-- Dropping the user: both rows go, and what follows does not bring them back. -/
theorem settled_dropMember (id : String) (event : GroupEvent) (ts : Int) (other : owner ≠ user)
    {state : Vault × List Ask} (pending : Pending group user owner state) :
    Written (fun _ => DropSettled group user owner) (dropMember id event ts) state := by
  obtain ⟨v, log⟩ := state
  by_cases same : id = group ∧ event.who = user
  · obtain ⟨rfl, rfl⟩ := same
    refine (wp_logged_call _ _ v log).mpr ((wp_logged_call _ _ _ _).mpr ?_)
    obtain ⟨row, found, recorded⟩ := pending.row
    have muted : Muted id event.who owner ((v.removeMember id event.who).deleteGroupIn id
        event.who) := by
      refine ⟨?_, ?_, ⟨row, found, recorded⟩, other⟩
      · intro on
        obtain ⟨entry, listed, named⟩ := List.mem_map.mp on
        obtain ⟨stored, here⟩ := List.mem_filter.mp listed
        have gone := (List.mem_filter.mp stored).2
        simp only [decide_eq_true_eq] at here
        simp [Prod.ext_iff, here, named] at gone
      · show (Table.erase _ _).get _ = none
        rw [Table.get_erase, if_pos rfl]
    refine settled_away ?_ fun _ => muted
    split
    · refine Prog.Calls.and ?_ ⟨nofun, fun _ => trivial⟩
      exact calls_write (fun _ => by decide) (fun _ _ writes => writes) trivial
    · split
      · refine Prog.Calls.and ?_ ⟨nofun, fun _ => trivial⟩
        exact calls_write (fun _ => by decide) (fun _ _ writes => writes) trivial
      · trivial
    · trivial
  · have kept : Prog.Calls (Ask.Keeps group user) (dropMember id event ts) := by
      refine ⟨nofun, fun _ => ⟨?_, fun _ => ?_⟩⟩
      · intro erased
        injection erased with erased
        injection erased with here named
        exact same ⟨here, named⟩
      · dsimp only [Prog.done_bind]
        split
        · exact ⟨nofun, fun _ => trivial⟩
        · split
          · exact ⟨nofun, fun _ => trivial⟩
          · trivial
        · trivial
    exact settled_kept kept pending.kept

theorem settled_applyGroupEvent (ctx : ProcCtx) (id : String) (event : GroupEvent) (ts : Int)
    (other : owner ≠ user) {state : Vault × List Ask} (pending : Pending group user owner state) :
    Written (fun _ => DropSettled group user owner) (applyGroupEvent ctx id event ts) state := by
  have aimed : Written (fun _ => DropSettled group user owner) (do
      if event.who = ctx.me then
        if event.kind = "suspended" then
          emit (.info "you were suspended from a group")
          return false
        call (.deleteChat id)
        emitChats ctx.addr
        emit (.info ("you were " ++ event.kind ++ " from a group"))
        return true
      dropMember id event ts
      return false) state := by
    split
    · have kept : Prog.Calls (Ask.Keeps group user) (do
          if event.kind = "suspended" then
            emit (.info "you were suspended from a group")
            return false
          call (.deleteChat id)
          emitChats ctx.addr
          emit (.info ("you were " ++ event.kind ++ " from a group"))
          return true) := by
        split
        · exact ⟨nofun, fun _ => trivial⟩
        · exact ⟨nofun, fun _ => ⟨nofun, fun _ => ⟨nofun, fun _ => ⟨nofun, fun _ => trivial⟩⟩⟩⟩
      exact settled_kept kept pending.kept
    · exact Prog.wp_then (settled_dropMember id event ts other pending) (fun _ _ settled => settled)
        fun _ _ settled => settled
  have settled : ∀ {prog : Client Bool}, Prog.Calls (Ask.Keeps group user) prog →
      Written (fun _ => DropSettled group user owner) prog state :=
    fun kept => settled_kept kept pending.kept
  unfold applyGroupEvent
  split
  · exact settled ⟨nofun, fun _ => ⟨nofun, fun _ => ⟨nofun, fun _ => trivial⟩⟩⟩
  · exact aimed
  · exact aimed
  · exact aimed
  · refine settled ?_
    split
    · dsimp only
      split
      · exact ⟨nofun, fun _ => trivial⟩
      · trivial
    · trivial
  · exact settled trivial

theorem spares_openMegolm (id sender payload : String) :
    Prog.Calls (Ask.Spares group user) (openMegolm id sender payload) := by
  have kept : Prog.Calls (Ask.Keeps group user) (openMegolm id sender payload) := by
    refine ⟨nofun, fun held => ?_⟩
    cases held with
    | none => exact ⟨nofun, fun _ => trivial⟩
    | some receiver =>
        exact (Prog.calls_ofExcept _).bind fun _ => (Prog.calls_ofExcept _).bind fun _ => trivial
  exact kept.and (calls_openMegolm _ _ _)

theorem spares_acceptMegolm (id sender : String) (idx : Nat) (receiver : GroupReceiver) :
    Prog.Calls (Ask.Spares group user) (acceptMegolm id sender idx receiver) := by
  have kept : Prog.Calls (Ask.Keeps group user) (acceptMegolm id sender idx receiver) := by
    refine ⟨nofun, fun fresh => ?_⟩
    cases fresh with
    | true => exact ⟨nofun, fun _ => trivial⟩
    | false => trivial
  exact kept.and (calls_acceptMegolm (by decide) (by decide) _ _ _)

/-- The line of an event, and the list of chats. -/
theorem settled_shown (addr id kind who extra : String) (ts : Int) {state : Vault × List Ask}
    (settled : DropSettled group user owner state) :
    Written (fun _ => DropSettled group user owner) (do
      emitGroupEvent id kind who extra ts
      emitChats addr) state := by
  have kept : Prog.Calls (Ask.Keeps group user) (emitGroupEvent id kind who extra ts) := by
    unfold emitGroupEvent
    split
    · exact ⟨nofun, fun _ => ⟨nofun, fun _ => ⟨nofun, fun _ => trivial⟩⟩⟩
    · trivial
  have listed : Prog.Calls (Ask.Keeps group user) (emitChats addr) :=
    ⟨nofun, fun _ => ⟨nofun, fun _ => trivial⟩⟩
  refine settled_away (Prog.Calls.and ?_ (kept.bind fun _ => listed)) settled
  exact (calls_emitGroupEvent (fun _ => by decide) _ _ _ _).bind fun _ => calls_emitChats _

theorem settled_processGroupEvent (ctx : ProcCtx) (sender id payload : String) (ts : Int)
    (other : owner ≠ user) {state : Vault × List Ask} (pending : Pending group user owner state) :
    Written (fun _ => DropSettled group user owner) (processGroupEvent ctx sender id payload ts)
    state := by
  have settles : ∀ {s : Vault × List Ask}, Pending group user owner s →
      DropSettled group user owner s :=
    fun pending member => absurd member pending.kept
  refine Prog.wp_then (pending_spares (spares_openMegolm id sender payload) pending)
    (fun held s pending => ?_) fun _ _ pending => settles pending
  rcases held with _ | ⟨plaintext, idx, receiver⟩
  · exact settles pending
  refine Prog.wp_then (pending_spares (spares_acceptMegolm id sender idx receiver) pending)
    (fun fresh s pending => ?_) fun _ _ pending => settles pending
  cases fresh with
  | false => exact settles pending
  | true =>
      have asked : Prog.Calls (Ask.Spares group user) (call (.getGroupMeta id)) :=
        ⟨⟨nofun, nofun, trivial⟩, fun _ => trivial⟩
      refine Prog.wp_then (pending_spares asked pending) (fun row s pending => ?_)
        fun _ _ pending => settles pending
      dsimp only
      split
      · exact settles pending
      have read : Prog.Calls (Ask.Spares group user) (lift (GroupEvent.fromSlice plaintext)) :=
        Prog.calls_ofExcept _
      refine Prog.wp_then (pending_spares read pending) (fun event s pending => ?_)
        fun _ _ pending => settles pending
      refine Prog.wp_then (settled_applyGroupEvent ctx id event ts other pending)
        (fun gone s settled => ?_) fun _ _ settled => settled
      cases gone with
      | true => exact settled
      | false => exact settled_shown _ _ _ _ _ _ settled

theorem settled_processFrame {ctx : ProcCtx} {inc : Incoming}
    (isEvent : inc.msgType = MsgType.groupEvent)
    (other : owner ≠ user) {state : Vault × List Ask} (pending : Pending group user owner state) :
    Written (fun _ => DropSettled group user owner) (processFrame ctx inc) state := by
  have one : Written (fun _ => DropSettled group user owner) (processOne ctx inc) state := by
    unfold processOne frameGroup
    rw [isEvent]
    cases inc.groupId with
    | none => exact fun member => absurd member pending.kept
    | some id => exact settled_processGroupEvent ctx inc.from id inc.payload _ other pending
  rw [processFrame_eq, Written, Prog.wp_bind, Prog.wp_attempt]
  refine Prog.wp_mono (fun result s settled => ?_) one
  have reported : Prog.Calls (fun asked => asked.Away group ∧ asked.Keeps group user)
      (roundEnd result) := by
    cases result with
    | ok _ => trivial
    | error e => exact ⟨⟨trivial, nofun⟩, fun _ => trivial⟩
  exact settled_away reported settled

namespace Handled

variable {ctx : ProcCtx} {frame : Handled ctx}

/-- The event leaves the user muted. -/
theorem Applies.muted (applies : frame.Applies group user) :
    ∃ owner, Muted group user owner frame.after := by
  obtain ⟨isEvent, ⟨row, found, other⟩, dropped⟩ := applies
  obtain ⟨result, ran⟩ := frame.ran
  refine ⟨row.owner, ?_⟩
  have pending : Pending group user row.owner (frame.before, []) := ⟨⟨row, found, rfl⟩, nofun⟩
  exact ran.ends (settled_processFrame isEvent other pending) dropped

/-- **One frame**: from a muted vault there is no line, and the user stays out unless the owner
readmits them or the chat is deleted. -/
theorem of_muted (named : frame.inc.from ≠ group) (real : user ≠ "System")
    (muted : Muted group user owner frame.before) :
    ¬ frame.HasLine group user ∧
      (Muted group user owner frame.after ∨ frame.Readmits group user ∨ frame.Forgets group) := by
  obtain ⟨result, ran⟩ := frame.ran
  have after := hushed_runs ran (hushed_processFrame named real muted) ⟨.inl muted, nofun⟩
  refine ⟨fun ⟨_, _, _, _, line⟩ => after.noLine _ line ⟨rfl, rfl⟩, ?_⟩
  refine after.out.imp_right fun out => out.imp_left fun readmitted => ⟨?_, readmitted.2⟩
  obtain ⟨row, found, rfl⟩ := muted.row
  exact ⟨row, found, readmitted.1⟩

end Handled

/-- What the frames after the event find: the user is out until one of them readmits the user or
deletes the chat. -/
theorem muted_run {ctx : ProcCtx} {first later : Handled ctx} {between : List (Handled ctx)}
    (named : ∀ frame ∈ between ++ [later], frame.inc.from ≠ group) (real : user ≠ "System")
    (inOrder : (first :: (between ++ [later])).IsChain fun frame next => next.before = frame.after)
    (muted : Muted group user owner first.after)
    (still : ∀ frame ∈ between, ¬ frame.Readmits group user ∧ ¬ frame.Forgets group) :
    Muted group user owner later.before := by
  induction between generalizing first with
  | nil =>
      rw [(List.isChain_cons_cons.mp inOrder).1]
      exact muted
  | cons frame rest ih =>
      obtain ⟨adjacent, inOrder⟩ := List.isChain_cons_cons.mp inOrder
      refine ih (fun frame member => named frame (List.mem_cons_of_mem _ member)) inOrder ?_
        fun frame member => still frame (List.mem_cons_of_mem _ member)
      obtain ⟨unread, kept⟩ := still frame List.mem_cons_self
      have here := frame.of_muted (named frame List.mem_cons_self) real (adjacent ▸ muted)
      exact here.2.resolve_right fun out => out.elim unread kept

/-- **A moderated user stays silent**: after an event that removed, banned or suspended the user, no
frame inserts a line of theirs, whoever sent it and whenever it is delivered, until the owner has
readmitted them or the chat has been deleted. -/
theorem moderated_silent {ctx : ProcCtx} {group user : String} {event later : Handled ctx}
    {between : List (Handled ctx)} (uuid : validUsername group = false) (real : user ≠ "System")
    (named : ∀ frame ∈ between ++ [later], validUsername frame.inc.from = true)
    (inOrder : (event :: (between ++ [later])).IsChain fun frame next => next.before = frame.after)
    (applied : event.Applies group user)
    (still : ∀ frame ∈ between, ¬ frame.Readmits group user ∧ ¬ frame.Forgets group) :
    ¬ later.HasLine group user := by
  obtain ⟨owner, muted⟩ := applied.muted
  have other : ∀ frame ∈ between ++ [later], frame.inc.from ≠ group := by
    intro frame member same
    rw [← same, named frame member] at uuid
    cases uuid
  have out := muted_run other real inOrder muted still
  exact (later.of_muted (other later (by simp)) real out).1

end

namespace Ideal

/-- The id of Alice's group. -/
def aliceGroup : String := uuidText 0

/-- Bob, a member with the sessions of Alice, who is the owner, and of Carol or somebody else. -/
def bobInGroup (third : String) : Vault :=
  let group := ((Vault.empty.upsertChat aliceGroup "group" "Friends" 0).upsertGroupMeta aliceGroup
    "ABCDEFGH" "open" "alice")
  let members := ((group.addMember aliceGroup "alice").addMember aliceGroup "bob").addMember
    aliceGroup third
  ((members.saveGroupIn aliceGroup "alice" (⟨5, 0⟩ : InboundGroupSession)).saveGroupIn aliceGroup
    third (⟨6, 0⟩ : InboundGroupSession)).saveOlm third
      ⟨7, false, publicKey 2 1, publicKey 2 2, publicKey 3 100, none, true, []⟩

/-- Something of a session in the group. -/
def inGroup (sender msgType : String) (session : GroupSession) (plaintext : Bytes) : Incoming where
  «from» := sender
  msgType := msgType
  payload := b64Encode (groupEncrypt session plaintext).1
  groupId := some aliceGroup
  clientTs := 0

/-- Alice removes someone, with the message at that place of her session. -/
def aliceRemoves (index : Nat) (who : String) : Incoming :=
  inGroup "alice" MsgType.groupEvent ⟨5, index⟩ (toVec (moderationEvent "removed" who none))

/-- Carol's share of a new session, as if the group were hers. -/
def carolShare : GroupKeyShare where
  groupId := aliceGroup
  name := "Friends"
  sessionKey := "8.0"
  senderCurve := ""
  members := ["bob"]
  owner := "carol"
  accessMode := "open"
  groupKey := "ABCDEFGH"

/-- A message of Carol's that carries a share. -/
def carolShares (plaintext : Bytes) : Incoming :=
  let message : Message := ⟨false, 7, true, publicKey 2 2, publicKey 3 100, (7, 0), plaintext⟩
  ⟨"carol", MsgType.olmGroupKey, encodeOlm (toParts message).1 (toParts message).2, none, 0⟩

/-- Carol writes with the new session. -/
def carolWrites : Incoming := inGroup "carol" MsgType.megolm ⟨8, 0⟩ (utf8 "hello again")

/-- The machine that writes its requests down. -/
def playWritten : Prog.Machine (Vault × List Ask) Ask Ask.Answer := fun asked s =>
  ((Ask.play world asked s.1).1, ((Ask.play world asked s.1).2, asked :: s.2))

/-- Bob works a frame off. -/
def bobHandles (inc : Incoming) (v : Vault) : Handled ⟨"bob", "relay"⟩ where
  inc := inc
  before := v
  after := (Prog.run playWritten (processFrame ⟨"bob", "relay"⟩ inc) (v, [])).2.1
  log := (Prog.run playWritten (processFrame ⟨"bob", "relay"⟩ inc) (v, [])).2.2
  ran := ⟨_, Prog.run_runs (fun asked s => ⟨Ask.play_conforms (fun _ => trivial) asked s.1,
  rfl⟩) _ _⟩

/-- Carol is removed, and then Bob himself. -/
def carolRemoved : Handled ⟨"bob", "relay"⟩ :=
  bobHandles (aliceRemoves 0 "carol") (bobInGroup "carol")

def bobRemoved : Handled ⟨"bob", "relay"⟩ := bobHandles (aliceRemoves 1 "bob") carolRemoved.after

/-- Bob's vault with the message read that carries the share. -/
def carolHeard (v : Vault) : Vault :=
  v.saveOlm "carol" ⟨7, false, publicKey 2 1, publicKey 2 2, publicKey 3 100, none, true, [(7, 0)]⟩

/-- What is done about a share of Carol's once it is decrypted. -/
abbrev admitsShare (plaintext : Bytes) : Client Unit :=
  (handleGroupKeyShare ⟨"bob", "relay"⟩ "carol" plaintext).attempt.bind roundEnd

/-- Bob takes a share. -/
theorem carol_shares {v : Vault} (held : v.loadOlm "carol" =
      some (⟨7, false, publicKey 2 1, publicKey 2 2, publicKey 3 100, none, true, []⟩ : Session))
    (plaintext : Bytes) :
    ∃ frame : Handled ⟨"bob", "relay"⟩, frame.inc = carolShares plaintext ∧ frame.before = v ∧
      frame.after = (Prog.run (Ask.play world) (admitsShare plaintext) (carolHeard v)).2 := by
  have opened : Prog.Runs Ask.effect (obtainOlmPlaintext "carol" (carolShares plaintext).payload) v
      (.ok plaintext) (carolHeard v) := obtainOlmPlaintext_held held rfl
  have conforms : ∀ asked v, Ask.effect asked v (Ask.play world asked v).1
      (Ask.play world asked v).2 :=
    Ask.play_conforms fun _ => trivial
  have runs : Prog.Runs Ask.effect (processFrame ⟨"bob", "relay"⟩ (carolShares plaintext)) v _
      (Prog.run (Ask.play world) (admitsShare plaintext) (carolHeard v)).2 :=
    .after (processFrame_moves (opened.moves_bind (handleGroupKeyShare ⟨"bob", "relay"⟩ "carol")))
      (Prog.run_runs conforms (admitsShare plaintext) (carolHeard v))
  obtain ⟨log, written⟩ := runs.logged []
  exact ⟨⟨carolShares plaintext, v, _, log, _, written⟩, rfl, rfl, rfl⟩

/-- Bob's vault with the group that Carol says is hers. -/
def carolsGroup (v : Vault) : Vault :=
  (Prog.run (Ask.play world) (admitsShare (toVec carolShare.toJson)) (carolHeard v)).2

/-- Carol writes in the group that she says is hers. -/
def carolSpoke (v : Vault) : Handled ⟨"bob", "relay"⟩ := bobHandles carolWrites (carolsGroup v)

theorem bobHandles_before (inc : Incoming) (v : Vault) : (bobHandles inc v).before = v := rfl

theorem carolSpoke_before (v : Vault) : (carolSpoke v).before = carolsGroup v := by
  rw [carolSpoke, bobHandles_before]

theorem bobHandles_after (inc : Incoming) (v : Vault) : (bobHandles inc v).after =
    (Prog.run playWritten (processFrame ⟨"bob", "relay"⟩ inc) (v, [])).2.1 := rfl

theorem bobHandles_log (inc : Incoming) (v : Vault) : (bobHandles inc v).log =
    (Prog.run playWritten (processFrame ⟨"bob", "relay"⟩ inc) (v, [])).2.2 := rfl

/-- The kernel would run the program to compare the two sides, for a vault that is given. -/
theorem carolsGroup_run (v : Vault) : carolsGroup v =
    (Prog.run (Ask.play world) (admitsShare (toVec carolShare.toJson)) (carolHeard v)).2 := by
  have body : carolsGroup = fun v => (Prog.run (Ask.play world)
      (admitsShare (toVec carolShare.toJson)) (carolHeard v)).2 := rfl
  rw [body]

/-- The share as it is read. -/
theorem carolsGroup_eq (v : Vault) : carolsGroup v =
    (Prog.run (Ask.play world)
      (((lift (.ok carolShare)).bind fun share => do
        if ← call (.isBanned share.groupId "carol") then return ()
        let now ← now
        if ← isSuspended share.groupId "carol" now then return ()
        let isNew := !(← call (.chatExists share.groupId))
        let existing ← call (.getGroupMeta share.groupId)
        let senderIsMember ← if isNew then pure false else call (.isMember share.groupId "carol")
        let byOwner := ownerShare isNew existing share.owner "carol"
        if isNew && !byOwner then return ()
        if !isNew && !byOwner && !senderIsMember then return ()
        storeShare ⟨"bob", "relay"⟩ "carol" share isNew byOwner).attempt.bind roundEnd)
      (carolHeard v)).2 := by
  rw [carolsGroup_run]
  unfold admitsShare handleGroupKeyShare
  rw [GroupKeyShare.fromSlice_toVec]
  rfl

/-- A user called System is removed, and after them Dave. -/
def systemRemoved : Handled ⟨"bob", "relay"⟩ :=
  bobHandles (aliceRemoves 0 "System") (bobInGroup "System")

def daveRemoved : Handled ⟨"bob", "relay"⟩ := bobHandles (aliceRemoves 1 "dave") systemRemoved.after

/-! ### Requests, told apart by evaluation -/

def isLine (group user : String) : Ask → Bool
  | .call (.insertMessage id sender ..) => id == group && sender == user
  | _ => false

def isDrop (group user : String) : Ask → Bool
  | .call (.deleteGroupIn id sender) => id == group && sender == user
  | _ => false

def isAdmission (group user : String) : Ask → Bool
  | .call (.addMember id member) => id == group && member == user
  | _ => false

def isDeletion (group : String) : Ask → Bool
  | .call (.deleteChat id) => id == group
  | _ => false

theorem held_of_beq {held : Option Ideal.Session} {session : Ideal.Session}
    (same : (held == some session) = true) : held = some session := by simpa using same

theorem hasLine_of_any {group user : String} {frame : Handled ⟨"bob", "relay"⟩}
    (found : frame.log.any (isLine group user) = true) : frame.HasLine group user := by
  obtain ⟨asked, member, line⟩ := List.any_eq_true.mp found
  unfold isLine at line
  split at line
  · simp only [Bool.and_eq_true, beq_iff_eq] at line
    obtain ⟨rfl, rfl⟩ := line
    exact ⟨_, _, _, _, member⟩
  · cases line

theorem drop_of_any {group user : String} {log : List Ask}
    (found : log.any (isDrop group user) = true) : .call (.deleteGroupIn group user) ∈ log := by
  obtain ⟨asked, member, drop⟩ := List.any_eq_true.mp found
  unfold isDrop at drop
  split at drop
  · simp only [Bool.and_eq_true, beq_iff_eq] at drop
    obtain ⟨rfl, rfl⟩ := drop
    exact member
  · cases drop

theorem not_readmits {group user : String} {frame : Handled ⟨"bob", "relay"⟩}
    (none : frame.log.any (isAdmission group user) = false) : ¬ frame.Readmits group user := by
  rintro ⟨_, admission⟩
  have found : frame.log.any (isAdmission group user) = true :=
    List.any_eq_true.mpr ⟨_, admission, by simp [isAdmission]⟩
  rw [none] at found
  cases found

theorem not_forgets {group : String} {frame : Handled ⟨"bob", "relay"⟩}
    (none : frame.log.any (isDeletion group) = false) : ¬ frame.Forgets group := by
  intro deletion
  have found : frame.log.any (isDeletion group) = true :=
    List.any_eq_true.mpr ⟨_, deletion, by simp [isDeletion]⟩
  rw [none] at found
  cases found

/-- A frame whose text need not be decoded to be read. -/
theorem openMegolm_encode (groupId sender : String) (body : Bytes) :
    openMegolm groupId sender (b64Encode body) = (do
      let held ← call (.loadGroupIn groupId sender)
      held.elim (do
          emit (.error "decrypt_pending" ("no inbound session for group " ++ groupId ++ " from " ++
            sender ++ " yet"))
          return none) fun receiver => do
        let opened ← lift (receiver.decrypt body)
        return some opened) := by
  unfold openMegolm
  congr 1
  funext held
  cases held with
  | none => rfl
  | some receiver =>
      simp only [b64Decode_b64Encode]
      rfl

theorem carol_drop : carolRemoved.log.any (isDrop aliceGroup "carol") = true := by
  rw [carolRemoved, bobHandles_log]
  simp only [processFrame, processOne, aliceRemoves, inGroup, processGroupEvent,
    openMegolm_encode]
  decide +kernel

theorem carol_dropped : carolRemoved.Applies aliceGroup "carol" :=
  ⟨rfl, ⟨⟨"ABCDEFGH", "open", "alice"⟩, rfl, by decide⟩, drop_of_any carol_drop⟩

theorem system_drop : systemRemoved.log.any (isDrop aliceGroup "System") = true := by
  rw [systemRemoved, bobHandles_log]
  simp only [processFrame, processOne, aliceRemoves, inGroup, processGroupEvent,
    openMegolm_encode]
  decide +kernel

theorem system_dropped : systemRemoved.Applies aliceGroup "System" :=
  ⟨rfl, ⟨⟨"ABCDEFGH", "open", "alice"⟩, rfl, by decide⟩, drop_of_any system_drop⟩

/-- The session is gone: nothing is done about Carol's message. -/
theorem carol_unread :
    (bobHandles carolWrites carolRemoved.after).log.any (isAdmission aliceGroup "carol") = false ∧
      (bobHandles carolWrites carolRemoved.after).log.any (isDeletion aliceGroup) = false := by
  rw [bobHandles_log, carolRemoved, bobHandles_after]
  simp only [processFrame, processOne, aliceRemoves, carolWrites, inGroup, processGroupEvent,
    processMegolm, openMegolm_encode]
  decide +kernel

/-- Carol, who was removed, sends her message once more: nothing of it is stored. -/
theorem carol_stays_silent :
    ¬ (bobHandles carolWrites
      (bobHandles carolWrites carolRemoved.after).after).HasLine aliceGroup "carol" := by
  refine @moderated_silent _ _ _ _ carolRemoved _
    [bobHandles carolWrites carolRemoved.after] (by decide) (by decide) ?_ ?_ carol_dropped ?_
  · intro frame member
    rcases List.mem_pair.mp member with rfl | rfl
    · decide
    · decide
  · exact .cons_cons (bobHandles_before _ _) (.cons_cons (bobHandles_before _ _) (.singleton _))
  · intro frame member
    rw [List.mem_singleton.mp member]
    exact ⟨not_readmits carol_unread.1, not_forgets carol_unread.2⟩

/-- Bob's chat is deleted with the group. The sessions of the DMs stay. -/
theorem bob_removed :
    @BEq.beq (Option Ideal.Session) _ (bobRemoved.after.loadOlm "carol")
      (some ⟨7, false, publicKey 2 1, publicKey 2 2, publicKey 3 100, none, true, []⟩) = true ∧
      (bobRemoved.after.getGroupMeta aliceGroup).isNone = true ∧
      bobRemoved.log.any (isAdmission aliceGroup "carol") = false := by
  rw [bobRemoved, bobHandles_log, bobHandles_after, carolRemoved, bobHandles_after]
  simp only [processFrame, processOne, aliceRemoves, inGroup, processGroupEvent,
    openMegolm_encode]
  decide +kernel

theorem carol_line :
    (carolSpoke bobRemoved.after).log.any (isLine aliceGroup "carol") = true := by
  rw [carolSpoke, bobHandles_log, carolsGroup_eq, bobRemoved, bobHandles_after, carolRemoved,
    bobHandles_after]
  simp only [processFrame, processOne, aliceRemoves, carolWrites, inGroup, processGroupEvent,
    processMegolm, openMegolm_encode]
  decide +kernel

theorem system_line : daveRemoved.log.any (isLine aliceGroup "System") = true := by
  rw [daveRemoved, bobHandles_log, systemRemoved, bobHandles_after]
  simp only [processFrame, processOne, aliceRemoves, inGroup, processGroupEvent,
    openMegolm_encode]
  decide +kernel

/-- **What ends the silence.** Once Bob has been removed himself, Carol may call the group hers; and
a user called System shares the name with the lines of the system. -/
theorem removed_user_speaks :
    (¬ ∀ (ctx : ProcCtx) (group user : String) (event later : Handled ctx)
      (between : List (Handled ctx)), validUsername group = false → user ≠ "System" →
      (∀ frame ∈ between ++ [later], validUsername frame.inc.from = true) →
      ((event :: (between ++ [later])).IsChain fun frame next => next.before = frame.after) →
      event.Applies group user → (∀ frame ∈ between, ¬ frame.Readmits group user) →
      ¬ later.HasLine group user) ∧
    (¬ ∀ (ctx : ProcCtx) (group user : String) (event later : Handled ctx)
      (between : List (Handled ctx)), validUsername group = false →
      (∀ frame ∈ between ++ [later], validUsername frame.inc.from = true) →
      ((event :: (between ++ [later])).IsChain fun frame next => next.before = frame.after) →
      event.Applies group user →
      (∀ frame ∈ between, ¬ frame.Readmits group user ∧ ¬ frame.Forgets group) →
      ¬ later.HasLine group user) := by
  refine ⟨fun law => ?_, fun law => ?_⟩
  · obtain ⟨shared, inc, before, after⟩ := carol_shares
      (held_of_beq bob_removed.1) (toVec carolShare.toJson)
    refine law ⟨"bob", "relay"⟩ aliceGroup "carol" carolRemoved (carolSpoke bobRemoved.after)
      [bobRemoved, shared] (by decide) (by decide) ?_ ?_ carol_dropped ?_ ?_
    · intro frame member
      simp only [List.cons_append, List.nil_append, List.mem_cons, List.not_mem_nil,
        or_false] at member
      rcases member with rfl | rfl | rfl
      · decide
      · rw [inc]
        decide
      · decide
    · have finish := after.trans (carolsGroup_run _).symm
      exact .cons_cons (bobHandles_before _ _)
        (.cons_cons before (.cons_cons ((carolSpoke_before _).trans finish.symm) (.singleton _)))
    · intro frame member
      rcases List.mem_pair.mp member with rfl | rfl
      · exact not_readmits bob_removed.2.2
      · rintro ⟨⟨row, found, _⟩, _⟩
        rw [before] at found
        have unknown := bob_removed.2.1
        rw [found] at unknown
        cases unknown
    · exact hasLine_of_any carol_line
  · refine law ⟨"bob", "relay"⟩ aliceGroup "System" systemRemoved daveRemoved [] (by decide) ?_
      (.cons_cons (bobHandles_before _ _) (.singleton _)) system_dropped nofun
      (hasLine_of_any system_line)
    intro frame member
    rw [List.mem_singleton.mp member]
    decide

end Ideal

end Cherm
