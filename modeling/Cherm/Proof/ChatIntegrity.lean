/-
**Rows and their chats.**

No key of the vault makes a row of `messages` or `chat_members` refer to a chat that exists. The
command task and the processors share the vault, and each of them makes sure of a chat before it
writes a row of it (`ChatTrust`). What it knows so can become false: another task may delete the
chat.

* `Careful`: a request that does not disturb that. A leave is shown in a chat that exists; a chat is
  deleted while no other task relies on it; a session of a group is not read while another task is
  about to create the group's chat.
* `Informed.move`: a careful request keeps what the tasks know of a chat true.
* `chats_referential`: so in every run of careful steps each row has its chat, and each message event
  names one that exists.
* `Ideal.stranger_leaves`: the leave of somebody without a chat leaves a row without one.
-/

import Cherm.Client.CommandTrust
import Cherm.Client.Engine
import Cherm.Ideal
import Cherm.Lib.Crew

namespace Cherm

open Crates Client

section

variable [Crates]

/-! ### The vault -/

/-- A row of the messages, of the members or of the groups refers to the chat. -/
def Vault.Refers (v : Vault) (chat : String) : Prop :=
  v.messages.filter (·.chatId = chat) ≠ [] ∨ v.getMembers chat ≠ [] ∨ v.getGroupMeta chat ≠ none

namespace VaultOp

variable {op : VaultOp} {v : Vault} {chat : String}

/-- A new row of a chat comes from a request that needs the chat, or from the line of a leave. -/
theorem exec_refers (refers : (op.exec v).2.Refers chat) :
    v.Refers chat ∨ (Ask.call op).NeedsChat chat ∨ LeaveLine chat (.call op) = true := by
  rcases refers with messages | members | groups
  · by_cases writes : op.Writes .messages chat
    · cases op with
      | insertMessage id sender body ts outgoing recvTs =>
          obtain ⟨_, rfl⟩ := writes
          refine .inr ?_
          cases leaves : LeaveLine chat (.call (.insertMessage chat sender body ts outgoing
            recvTs)) with
          | true => exact .inr rfl
          | false => exact .inl ⟨rfl, leaves⟩
      | deleteChat id =>
          obtain ⟨_, rfl⟩ := writes
          refine absurd ?_ messages
          simp [exec, Vault.deleteChat]
      | _ => simp [Writes] at writes
    · have same : (op.exec v).2.messages.filter (·.chatId = chat) =
          v.messages.filter (·.chatId = chat) := op.exec_frame v .messages chat writes
      exact .inl (.inl (same ▸ messages))
  · by_cases writes : op.Writes .chatMembers chat
    · cases op with
      | addMember id username => exact .inr (.inl writes.2.symm)
      | removeMember id username =>
          obtain ⟨_, rfl⟩ := writes
          refine .inl (.inr (.inl fun empty => members ?_))
          show (v.removeMember chat username).getMembers chat = []
          rw [Vault.getMembers_removeMember, empty]
          rfl
      | deleteChat id =>
          obtain ⟨_, rfl⟩ := writes
          refine absurd ?_ members
          simp [exec, Vault.deleteChat, Vault.getMembers]
      | _ => simp [Writes] at writes
    · have same : (op.exec v).2.getMembers chat = v.getMembers chat :=
        op.exec_frame v .chatMembers chat writes
      exact .inl (.inr (.inl (same ▸ members)))
  · by_cases writes : op.Writes .groups chat
    · cases op with
      | createGroupRow id mode owner gen => exact .inr (.inl writes.2.symm)
      | upsertGroupMeta id key mode owner => exact .inr (.inl writes.2.symm)
      | setAccessMode id mode =>
          obtain ⟨_, rfl⟩ := writes
          refine .inl (.inr (.inr fun missing => groups ?_))
          show (v.setAccessMode chat mode).getGroupMeta chat = none
          unfold Vault.setAccessMode
          rw [show v.groups.get chat = none from missing]
          exact missing
      | deleteChat id =>
          obtain ⟨_, rfl⟩ := writes
          refine absurd ?_ groups
          simp [exec, Vault.deleteChat, Vault.getGroupMeta]
      | _ => simp [Writes] at writes
    · have same : (op.exec v).2.groups.get chat = v.groups.get chat :=
        op.exec_frame v .groups chat writes
      exact .inl (.inr (.inr fun missing => groups (same.trans missing)))

/-- A new session of a group comes from the request that saves it. -/
theorem exec_session {sender : String}
    (held : ((op.exec v).2.loadGroupIn chat sender).isSome = true) :
    (v.loadGroupIn chat sender).isSome = true ∨
      ∃ who receiver, op = .saveGroupIn chat who receiver := by
  by_cases writes : op.Writes .groupIn chat
  · cases op with
    | saveGroupIn id who receiver =>
        obtain ⟨_, rfl⟩ := writes
        exact .inr ⟨who, receiver, rfl⟩
    | deleteGroupIn id who =>
        obtain ⟨_, rfl⟩ := writes
        refine .inl ?_
        by_cases here : sender = who
        · subst here
          simp [exec, Vault.deleteGroupIn, Vault.loadGroupIn] at held
        · simpa [exec, Vault.deleteGroupIn, Vault.loadGroupIn, here] using held
    | deleteChat id =>
        obtain ⟨_, rfl⟩ := writes
        simp [exec, Vault.deleteChat, Vault.loadGroupIn] at held
    | _ => simp [Writes] at writes
  · have same : (fun u => (op.exec v).2.groupIn.get (chat, u)) =
        fun u => v.groupIn.get (chat, u) := op.exec_frame v .groupIn chat writes
    have one : (op.exec v).2.loadGroupIn chat sender = v.loadGroupIn chat sender :=
      congrFun same sender
    exact .inl (one ▸ held)

/-- Only a deletion makes a chat disappear. -/
theorem exec_exists (isThere : v.chatExists chat = true) (kept : op ≠ .deleteChat chat) :
    (op.exec v).2.chatExists chat = true := by
  by_cases writes : op.Writes .chats chat
  · cases op with
    | upsertChat id kind title now =>
        obtain ⟨_, rfl⟩ := writes
        simp [exec, Vault.upsertChat, Vault.chatExists]
    | deleteChat id =>
        obtain ⟨_, rfl⟩ := writes
        exact absurd rfl kept
    | _ => simp [Writes] at writes
  · have same : (op.exec v).2.chats.get chat = v.chats.get chat :=
      op.exec_frame v .chats chat writes
    rw [Vault.chatExists, same]
    exact isThere

/-- After a deletion nothing refers to the chat. -/
theorem deleted_bare (v : Vault) (chat : String) :
    ¬ ((VaultOp.deleteChat chat).exec v).2.Refers chat ∧
      ∀ sender, ((VaultOp.deleteChat chat).exec v).2.loadGroupIn chat sender = none := by
  refine ⟨?_, fun sender => ?_⟩
  · simp [Vault.Refers, exec, Vault.deleteChat, Vault.getMembers, Vault.getGroupMeta]
  · simp [exec, Vault.deleteChat, Vault.loadGroupIn]

end VaultOp

/-! ### The tasks -/

/-- The tasks of a vault: commands one after the other, and the frames of each connection. -/
def vaultCrew : Crew (Option Handle) Vault Ask Ask.Answer String Unit where
  act _ := Ask.effect
  begins task prog v v' := v' = v ∧ match task with
    | none => ∃ app command, prog = runCommand app command
    | some _ => ∃ ctx inc, prog = processFrame ctx inc
  ends _ _ v v' := v' = v
  drift _ _ := False

/-- Where every task is, and the vault. -/
abbrev Desk := Crew.State (Option Handle) Vault Ask Ask.Answer String Unit

/-- What is left of a program relies on nothing it knows of the chat. -/
def Indifferent (chat : String) (prog : Client Unit) : Prop :=
  Prog.wp (stanceSpec chat) (fun _ stance => stance.Settled chat none) prog .unsure ∧
    Prog.wp (shownSpec chat) (fun _ _ => True) prog false

/-- A program that is about to create the chat of a group whose session it has stored. -/
def Founding (chat : String) (prog : Client Unit) : Prop :=
  Prog.wp (stanceSpec chat) (fun _ stance => stance.Settled chat none) prog .founding

/-- A request that disturbs nobody. -/
structure Careful (desk : Desk) (i : Option Handle) (asked : Ask) : Prop where
  /-- A leave is shown in a chat that exists. -/
  leave : ∀ chat, LeaveLine chat asked = true → desk.2.chatExists chat = true
  /-- No other task relies on a chat that is deleted. -/
  delete : ∀ chat, asked = .call (.deleteChat chat) →
    ∀ j ≠ i, ∀ prog, desk.1 j = some prog → Indifferent chat prog
  /-- Nobody is founding the group whose session is read. -/
  read : ∀ chat sender, asked = .call (.loadGroupIn chat sender) →
    (desk.2.loadGroupIn chat sender).isSome = true → desk.2.chatExists chat = false →
      ∀ j ≠ i, ∀ prog, desk.1 j = some prog → ¬ Founding chat prog

/-- Each row has its chat, and each message event that comes next names a chat that exists. -/
structure Referential (desk : Desk) : Prop where
  messages : ∀ row ∈ desk.2.messages, desk.2.chatExists row.chatId = true
  members : ∀ entry ∈ desk.2.chatMembers, desk.2.chatExists entry.1 = true
  shown : ∀ i chat sender text ts outgoing system next,
    desk.1 i = some (.ask (.emit (.message chat sender text ts outgoing system)) next) →
      desk.2.chatExists chat = true

theorem Referential.row {tasks : Option Handle → Option (Client Unit)} {v : Vault}
    (whole : Referential (tasks, v)) {row : MessageRow} (member : row ∈ v.messages) :
    v.chatExists row.chatId = true := whole.messages row member

/-! ### What the tasks know is true -/

/-- What each task knows of a chat and has written of it is true, and what is left of its program
fits. -/
structure Informed (chat : String) (stance : Option Handle → Stance) (written : Option Handle → Bool)
    (desk : Desk) : Prop where
  rows : desk.2.Refers chat → desk.2.chatExists chat = true
  sessions : ∀ sender, (desk.2.loadGroupIn chat sender).isSome = true →
    desk.2.chatExists chat = true ∨ ∃ i, stance i = .founding
  sure : ∀ i, stance i = .sure → desk.2.chatExists chat = true
  lines : ∀ i, written i = true → desk.2.chatExists chat = true
  idle : ∀ i, desk.1 i = none → (stance i).Settled chat none
  busy : ∀ i prog, desk.1 i = some prog →
    Prog.wp (stanceSpec chat) (fun _ after => after.Settled chat none) prog (stance i) ∧
      Prog.wp (shownSpec chat) (fun _ _ => True) prog (written i)

section

variable {chat : String} {stance : Option Handle → Stance} {written : Option Handle → Bool}
  {tasks : Option Handle → Option (Client Unit)} {v v' : Vault} {i : Option Handle} {asked : Ask}
  {next : asked.Answer → Client Unit} {answer : asked.Answer}

/-- A row of the chat is written while it exists. -/
theorem Informed.writes (kept : Informed chat stance written (tasks, v))
    (busy : tasks i = some (.ask asked next)) (careful : Careful (tasks, v) i asked)
    (rows : asked.NeedsChat chat ∨ LeaveLine chat asked = true) : v.chatExists chat = true := by
  have demand : (stance i).Demand chat asked := (kept.busy i _ busy).1.1
  rcases rows with needs | leaves
  · cases known : stance i with
    | sure => exact kept.sure i known
    | unsure =>
        rw [known] at demand
        exact absurd needs demand
    | founding =>
        -- founding a chat needs none
        rw [known] at demand
        cases asked with
        | call op => cases op <;> first | exact demand.elim | exact needs.elim
        | _ => exact needs.elim
  · exact careful.leave chat leaves

/-- What a task learns is true. -/
theorem Informed.learns (kept : Informed chat stance written (tasks, v))
    (busy : tasks i = some (.ask asked next)) (careful : Careful (tasks, v) i asked)
    (made : Ask.effect asked v answer v') (reveals : asked.reveals chat answer = true) :
    v'.chatExists chat = true := by
  cases asked with
  | call op =>
      obtain ⟨rfl, rfl⟩ := Prod.mk.inj (show (_, _) = op.exec v from made)
      cases op with
      | upsertChat id kind title now =>
          obtain rfl : id = chat := by simpa [Ask.reveals] using reveals
          simp [Vault.upsertChat, Vault.chatExists]
      | getChat id =>
          obtain ⟨row, rfl⟩ : (v.getChat id).isSome = true ∧ id = chat := by
            simpa [Ask.reveals, VaultOp.exec] using reveals
          simpa [VaultOp.exec, Vault.getChat, Vault.chatExists] using row
      | chatExists id =>
          obtain ⟨isThere, rfl⟩ : v.chatExists id = true ∧ id = chat := by
            simpa [Ask.reveals, VaultOp.exec] using reveals
          exact isThere
      | getGroupMeta id =>
          obtain ⟨row, rfl⟩ : (v.getGroupMeta id).isSome = true ∧ id = chat := by
            simpa [Ask.reveals, VaultOp.exec] using reveals
          refine kept.rows (.inr (.inr fun missing => ?_))
          rw [missing] at row
          cases row
      | loadGroupIn id sender =>
          obtain ⟨held, rfl⟩ : (v.loadGroupIn id sender).isSome = true ∧ id = chat := by
            simpa [Ask.reveals, VaultOp.exec] using reveals
          rcases kept.sessions sender held with isThere | ⟨j, founding⟩
          · exact isThere
          · by_contra missing
            have gone : v.chatExists id = false := by simpa using missing
            -- whoever founds the chat is another task, and in the middle of it
            have other : j ≠ i := by
              rintro rfl
              have demand : (stance j).Demand id (.call (.loadGroupIn id sender)) :=
                (kept.busy j _ busy).1.1
              rw [founding] at demand
              exact demand
            cases at' : tasks j with
            | none => exact (kept.idle j at').whole founding
            | some prog =>
                refine careful.read id sender rfl held gone j other prog at' ?_
                have holds := (kept.busy j prog at').1
                rwa [founding] at holds
      | insertMessage id sender body ts outgoing recvTs =>
          obtain rfl : id = chat := by simpa [Ask.reveals] using reveals
          refine VaultOp.exec_exists (kept.writes busy careful ?_) fun impossible => ?_
          swap
          · cases impossible
          cases leaves : LeaveLine id (.call (.insertMessage id sender body ts outgoing
            recvTs)) with
          | true => exact .inr rfl
          | false => exact .inl ⟨rfl, leaves⟩
      | _ => cases reveals
  | _ => cases reveals

/-- A deletion: the others knew nothing of the chat, and now nobody does. -/
theorem Informed.deleted (kept : Informed chat stance written (tasks, v))
    {next : Unit → Client Unit} (busy : tasks i = some (.ask (.call (.deleteChat chat)) next))
    (careful : Careful (tasks, v) i (.call (.deleteChat chat))) :
    Informed chat (fun _ => .unsure) (fun _ => false)
      (Function.update tasks i (some (next ())), ((VaultOp.deleteChat chat).exec v).2) := by
  obtain ⟨bare, noSession⟩ := VaultOp.deleted_bare v chat
  refine ⟨fun refers => absurd refers bare, fun sender held => ?_, nofun, nofun,
    fun _ _ => ⟨nofun, nofun⟩, fun j prog isBusy => ?_⟩
  · rw [noSession sender] at held
    cases held
  · dsimp only at isBusy
    by_cases own : j = i
    · subst own
      rw [Function.update_self] at isBusy
      cases isBusy
      have holds := kept.busy j _ busy
      have forgot : (stance j).next chat (.call (.deleteChat chat)) () = .unsure := by
        simp [Stance.next, Ask.reveals]
      have cleared : Ask.leaves chat (written j) (.call (.deleteChat chat)) = false := by
        simp [Ask.leaves]
      exact ⟨forgot ▸ holds.1.2 () _ rfl, cleared ▸ holds.2.2 () _ rfl⟩
    · rw [Function.update_of_ne own] at isBusy
      exact careful.delete chat rfl j own prog isBusy

/-- Whoever is sure of a chat was sure, or has just seen it. -/
theorem Stance.next_sure {stance : Stance} (sure : stance.next chat asked answer = .sure) :
    asked.reveals chat answer = true ∨ stance = .sure := by
  unfold Stance.next at sure
  split at sure
  · next reveals => exact .inl reveals
  · cases asked with
    | call op =>
        cases op with
        | deleteChat id =>
            dsimp only at sure
            split at sure
            · cases sure
            · exact .inr sure
        | saveGroupIn id sender receiver =>
            dsimp only at sure
            split at sure
            · cases sure
            · exact .inr sure
        | _ => exact .inr sure
    | _ => exact .inr sure

/-- Whoever has written a line of the chat has just done so, or before. -/
theorem Ask.leaves_true {before : Bool} (wrote : asked.leaves chat before = true)
    (answer : asked.Answer) : asked.reveals chat answer = true ∨ before = true := by
  cases asked with
  | call op =>
      cases op with
      | insertMessage id sender body ts outgoing recvTs =>
          rcases Bool.or_eq_true_iff.mp wrote with earlier | here
          · exact .inr earlier
          · exact .inl here
      | deleteChat id => exact .inr (Bool.and_eq_true_iff.mp wrote).1
      | _ => exact .inr wrote
  | _ => exact .inr wrote

/-- Any other request keeps chats that exist. -/
theorem exists_of_effect (made : Ask.effect asked v answer v')
    (other : asked ≠ .call (.deleteChat chat)) (isThere : v.chatExists chat = true) :
    v'.chatExists chat = true := by
  cases asked with
  | call op =>
      obtain ⟨_, rfl⟩ := Prod.mk.inj (show (_, _) = op.exec v from made)
      exact VaultOp.exec_exists isThere fun same => other (same ▸ rfl)
  | _ =>
      obtain ⟨_, rfl⟩ := made
      exact isThere

/-- A session without a chat is one whose task founds the chat. -/
theorem Informed.sessions_next (kept : Informed chat stance written (tasks, v))
    (busy : tasks i = some (.ask asked next)) (careful : Careful (tasks, v) i asked)
    (made : Ask.effect asked v answer v') (other : asked ≠ .call (.deleteChat chat))
    {sender : String} (held : (v'.loadGroupIn chat sender).isSome = true) :
    v'.chatExists chat = true ∨
      ∃ j, Function.update stance i ((stance i).next chat asked answer) j = .founding := by
  have demand : (stance i).Demand chat asked := (kept.busy i _ busy).1.1
  have here : v.chatExists chat = true → v'.chatExists chat = true :=
    exists_of_effect made other
  have earlier : (v.loadGroupIn chat sender).isSome = true → v'.chatExists chat = true ∨
      ∃ j, Function.update stance i ((stance i).next chat asked answer) j = .founding := by
    intro before
    rcases kept.sessions sender before with isThere | ⟨j, founding⟩
    · exact .inl (here isThere)
    by_cases own : j = i
    · subst own
      rw [founding] at demand
      cases asked with
      | now => exact .inr ⟨j, by rw [Function.update_self, founding]; rfl⟩
      | call op =>
          cases op with
          | upsertChat id kind title now =>
              have creates : id = chat := demand
              exact .inl (kept.learns busy careful made (by simpa [Ask.reveals] using creates))
          | _ => exact demand.elim
      | _ => exact demand.elim
    · exact .inr ⟨j, by rw [Function.update_of_ne own]; exact founding⟩
  cases asked with
  | call op =>
      obtain ⟨rfl, rfl⟩ := Prod.mk.inj (show (_, _) = op.exec v from made)
      rcases VaultOp.exec_session held with before | ⟨who, receiver, rfl⟩
      · exact earlier before
      · cases known : stance i with
        | sure => exact .inl (here (kept.sure i known))
        | unsure =>
            refine .inr ⟨i, ?_⟩
            rw [Function.update_self]
            simp [Stance.next, Ask.reveals]
        | founding =>
            rw [known] at demand
            exact demand.elim
  | _ =>
      obtain ⟨_, rfl⟩ := made
      exact earlier held

/-- **One careful request** keeps what the tasks know of a chat true. -/
theorem Informed.move (kept : Informed chat stance written (tasks, v))
    (busy : tasks i = some (.ask asked next)) (careful : Careful (tasks, v) i asked)
    (made : Ask.effect asked v answer v') : ∃ stance' written',
      Informed chat stance' written' (Function.update tasks i (some (next answer)), v') := by
  by_cases other : asked = .call (.deleteChat chat)
  · subst other
    obtain ⟨rfl, rfl⟩ := Prod.mk.inj (show (_, _) = (VaultOp.deleteChat chat).exec v from made)
    exact ⟨_, _, kept.deleted busy careful⟩
  have here : v.chatExists chat = true → v'.chatExists chat = true :=
    exists_of_effect made other
  refine ⟨Function.update stance i ((stance i).next chat asked answer),
    Function.update written i (asked.leaves chat (written i)), fun refers => ?_,
    fun sender held => kept.sessions_next busy careful made other held, fun j known => ?_,
    fun j wrote => ?_, fun j isIdle => ?_, fun j prog isBusy => ?_⟩
  · cases asked with
    | call op =>
        obtain ⟨rfl, rfl⟩ := Prod.mk.inj (show (_, _) = op.exec v from made)
        rcases VaultOp.exec_refers refers with before | writes
        · exact here (kept.rows before)
        · exact here (kept.writes busy careful writes)
    | _ =>
        obtain ⟨_, rfl⟩ := made
        exact kept.rows refers
  · by_cases own : j = i
    · subst own
      rw [Function.update_self] at known
      rcases Stance.next_sure known with reveals | before
      · exact kept.learns busy careful made reveals
      · exact here (kept.sure j before)
    · rw [Function.update_of_ne own] at known
      exact here (kept.sure j known)
  · by_cases own : j = i
    · subst own
      rw [Function.update_self] at wrote
      rcases Ask.leaves_true wrote answer with reveals | before
      · exact kept.learns busy careful made reveals
      · exact here (kept.lines j before)
    · rw [Function.update_of_ne own] at wrote
      exact here (kept.lines j wrote)
  · dsimp only at isIdle
    by_cases own : j = i
    · subst own
      rw [Function.update_self] at isIdle
      cases isIdle
    · rw [Function.update_of_ne own] at isIdle ⊢
      exact kept.idle j isIdle
  · dsimp only at isBusy
    by_cases own : j = i
    · subst own
      rw [Function.update_self] at isBusy ⊢
      cases isBusy
      have holds := kept.busy j _ busy
      rw [Function.update_self]
      exact ⟨holds.1.2 answer _ rfl, holds.2.2 answer _ rfl⟩
    · rw [Function.update_of_ne own] at isBusy
      rw [Function.update_of_ne own, Function.update_of_ne own]
      exact kept.busy j prog isBusy

/-- A program begins with whatever the task knows. -/
theorem Informed.start (kept : Informed chat stance written (tasks, v)) {prog : Client Unit}
    (idle : tasks i = none) (begins : vaultCrew.begins i prog v v') :
    Informed chat stance written (Function.update tasks i (some prog), v') := by
  obtain ⟨rfl, which⟩ := begins
  refine ⟨kept.rows, kept.sessions, kept.sure, kept.lines, fun j isIdle => ?_,
    fun j other isBusy => ?_⟩
  · dsimp only at isIdle
    by_cases own : j = i
    · rw [own, Function.update_self] at isIdle
      cases isIdle
    · rw [Function.update_of_ne own] at isIdle
      exact kept.idle j isIdle
  · dsimp only at isBusy
    by_cases own : j = i
    · subst own
      rw [Function.update_self] at isBusy
      cases isBusy
      cases j with
      | none =>
          obtain ⟨app, command, rfl⟩ := which
          exact ⟨heeds_runCommand app command _ (kept.idle none idle),
            shown_runCommand app command _ trivial⟩
      | some conn =>
          obtain ⟨ctx, inc, rfl⟩ := which
          exact ⟨heeds_processFrame ctx inc _ (kept.idle (some conn) idle),
            shown_processFrame ctx inc _ trivial⟩
    · rw [Function.update_of_ne own] at isBusy
      exact kept.busy j other isBusy

/-- A program that ends leaves nothing half done. -/
theorem Informed.finish (kept : Informed chat stance written (tasks, v)) {result : Except String Unit}
    (busy : tasks i = some (.ofExcept result)) :
    Informed chat stance written (Function.update tasks i none, v) := by
  refine ⟨kept.rows, kept.sessions, kept.sure, kept.lines, fun j isIdle => ?_,
    fun j prog isBusy => ?_⟩
  · dsimp only at isIdle
    by_cases own : j = i
    · subst own
      exact (Prog.wp_ofExcept _ _).mp (kept.busy j _ busy).1
    · rw [Function.update_of_ne own] at isIdle
      exact kept.idle j isIdle
  · dsimp only at isBusy
    by_cases own : j = i
    · rw [own, Function.update_self] at isBusy
      cases isBusy
    · rw [Function.update_of_ne own] at isBusy
      exact kept.busy j prog isBusy

end

/-! ### Every run -/

/-- **A careful run** keeps what the tasks know of each chat true. -/
theorem informed_of_careful (chat : String) {desk : Desk}
    (run : Relation.ReflTransGen (vaultCrew.NextIf Careful) (fun _ => none, Vault.empty) desk) :
    ∃ stance written, Informed chat stance written desk := by
  induction run with
  | refl =>
      refine ⟨fun _ => .unsure, fun _ => false, fun refers => ?_, fun sender held => ?_, nofun,
        nofun, fun _ _ => ⟨nofun, nofun⟩, nofun⟩
      · simp [Vault.Refers, Vault.empty, Vault.getMembers, Vault.getGroupMeta] at refers
      · simp [Vault.empty, Vault.loadGroupIn] at held
  | tail _ step ih =>
      obtain ⟨stance, written, kept⟩ := ih
      cases step with
      | start i idle begins => exact ⟨stance, written, kept.start idle begins⟩
      | move i busy careful made => exact kept.move busy careful made
      | finish i busy ends =>
          cases ends
          exact ⟨stance, written, kept.finish busy⟩
      | drift drifts => exact drifts.elim

/-- **Referential integrity.** In every run whose requests are all careful, each row of the messages
and of the members has its chat, and each message event names one that exists. -/
theorem chats_referential {desk : Desk}
    (run : Relation.ReflTransGen (vaultCrew.NextIf Careful) (fun _ => none, Vault.empty) desk) :
    Referential desk := by
  refine ⟨fun row member => ?_, fun entry member => ?_,
    fun i chat sender text ts outgoing system next busy => ?_⟩
  · obtain ⟨stance, written, kept⟩ := informed_of_careful row.chatId run
    refine kept.rows (.inl fun none' => ?_)
    have among : row ∈ desk.2.messages.filter (·.chatId = row.chatId) := by simp [member]
    rw [none'] at among
    cases among
  · obtain ⟨stance, written, kept⟩ := informed_of_careful entry.1 run
    refine kept.rows (.inr (.inl fun none' => ?_))
    have among : entry.2 ∈ desk.2.getMembers entry.1 :=
      List.mem_map.mpr ⟨entry, by simp [member], rfl⟩
    rw [none'] at among
    cases among
  · obtain ⟨stance, written, kept⟩ := informed_of_careful chat run
    exact kept.lines i ((kept.busy i _ busy).2.1 sender text ts outgoing system rfl)

/-! ### Runs of a task that is alone -/

/-- A leave is shown in a chat that exists. -/
def Ask.leavesChat : Ask → Vault → Bool
  | .call (.insertMessage id sender body ts outgoing recvTs), v =>
      !LeaveLine id (.call (.insertMessage id sender body ts outgoing recvTs)) || v.chatExists id
  | _, _ => true

/-- While the others are idle, nothing else is asked of a request. -/
theorem careful_alone {i : Option Handle} {p : Client Unit} {v : Vault} {asked : Ask}
    (leaves : asked.leavesChat v = true) :
    Careful (Function.update (fun _ => none) i (some p), v) i asked := by
  have alone : ∀ j ≠ i, ∀ prog : Client Unit,
      Function.update (fun _ => none) i (some p) j ≠ some prog := by
    intro j other prog isBusy
    rw [Function.update_of_ne other] at isBusy
    cases isBusy
  refine ⟨fun chat isLeave => ?_, fun chat _ j other prog isBusy =>
    absurd isBusy (alone j other prog), fun chat sender _ _ _ j other prog isBusy =>
      absurd isBusy (alone j other prog)⟩
  cases asked with
  | call op =>
      cases op with
      | insertMessage id sender body ts outgoing recvTs =>
          obtain rfl : id = chat := by
            simp only [LeaveLine, Bool.and_eq_true, decide_eq_true_eq] at isLeave
            exact isLeave.1.1
          simpa [Ask.leavesChat, isLeave] using leaves
      | _ => cases isLeave
  | _ => cases isLeave

/-- The vault after a program, in some world. -/
def played (world : (asked : Ask) → asked.Answer) (prog : Client Unit) (v : Vault) : Vault :=
  (Prog.run (Ask.play world) prog v).2

/-- A task works off a program alone. -/
theorem plain_run (i : Option Handle) {prog : Client Unit} {v : Vault}
    {world : (asked : Ask) → asked.Answer} (begins : vaultCrew.begins i prog v v) :
    Relation.ReflTransGen vaultCrew.Next (fun _ => none, v)
      (fun _ => none, played world prog v) :=
  Crew.runs_next rfl begins (Prog.run_runs (Ask.play_conforms fun _ => trivial) prog v) rfl

/-- If it is careful, its steps are. -/
theorem careful_run (i : Option Handle) {prog : Client Unit} {v : Vault}
    {world : (asked : Ask) → asked.Answer} (begins : vaultCrew.begins i prog v v)
    (checked : Prog.checks (Ask.play world) Ask.leavesChat prog v = true) :
    Relation.ReflTransGen (vaultCrew.NextIf Careful) (fun _ => none, v)
      (fun _ => none, played world prog v) := by
  have runs : Prog.Runs (fun asked v answer v' => vaultCrew.act i asked v answer v' ∧
      ∀ p, Careful (Function.update (fun _ => none) i (some p), v) i asked) prog v
      (Prog.run (Ask.play world) prog v).1 (Prog.run (Ask.play world) prog v).2 :=
    Prog.run_runs_of_checks (fun asked v leaves =>
      ⟨Ask.play_conforms (fun _ => trivial) asked v, fun p => careful_alone leaves⟩) checked
  exact Crew.runs_nextIf rfl begins runs rfl

end

namespace Ideal

/-! ### Strangers -/

/-- A relay that accepts a registration. -/
def joinWorld : (asked : Ask) → asked.Answer
  | .request _ => .ok (.authOk "u" "alice")
  | asked => world asked

/-- A relay that knows Mallory. -/
def malloryWorld : (asked : Ask) → asked.Answer
  | .request _ => .ok (.prekeyBundle ⟨"mallory", "m", Base64.encode (publicKey 1 2).bytes,
      Base64.encode (publicKey 2 2).bytes, none, none⟩)
  | asked => world asked

def joining : Client Unit :=
  runCommand ⟨some "relay", true, "", ""⟩ (.register "relay" "alice")

/-- Alice has registered. -/
def joined : Vault := played joinWorld joining Vault.empty

/-- A frame from Mallory, to Alice's first one-time key. -/
def fromMallory (msgType : String) (index : Nat) (plaintext : Bytes) : Client Unit :=
  let message : Message := ⟨true, 7, true, publicKey 2 2, otkKey 0, (7, index), plaintext⟩
  processFrame ⟨"alice", "relay"⟩ ⟨"mallory", msgType, encodeOlm
    (toParts (message : OlmMessage)).1 (toParts (message : OlmMessage)).2, none, 0⟩

/-- A frame with its payload parsed. -/
def opened (index : Nat) (plaintext : Bytes) (next : Bytes → Client Unit) : Client Unit :=
  let message : Message := ⟨true, 7, true, publicKey 2 2, otkKey 0, (7, index), plaintext⟩
  ((readOlm "mallory" (toParts (message : OlmMessage)).1
    (toParts (message : OlmMessage)).2).bind next).attempt.bind roundEnd

theorem fromMallory_text (index : Nat) (plaintext : Bytes) :
    fromMallory MsgType.olm index plaintext = opened index plaintext fun bytes =>
      deliverDmText ⟨"alice", "relay"⟩ "mallory" bytes 0 := by
  rw [fromMallory, processFrame_eq, opened, ← obtainOlmPlaintext_encoded]
  rfl

theorem fromMallory_leave (index : Nat) (plaintext : Bytes) :
    fromMallory MsgType.olmSystem index plaintext = opened index plaintext fun bytes =>
      if bytes = leftSentinel then deliverSystem "mallory" "mallory" 0 else .done () := by
  rw [fromMallory, processFrame_eq, opened, ← obtainOlmPlaintext_encoded]
  rfl

/-- Mallory, with whom Alice has no chat, has left it. -/
def left : Vault := played malloryWorld (fromMallory MsgType.olmSystem 0 leftSentinel) joined

/-- **The leave of a stranger** is a row without a chat. -/
theorem stranger_leaves : ∃ desk : Desk,
    Relation.ReflTransGen vaultCrew.Next (fun _ => none, Vault.empty) desk ∧ ¬ Referential desk := by
  have registers : Relation.ReflTransGen vaultCrew.Next (fun _ => none, Vault.empty)
      (fun _ => none, joined) := plain_run none ⟨rfl, _, _, rfl⟩
  have leaves : Relation.ReflTransGen vaultCrew.Next (fun _ => none, joined)
      (fun _ => none, left) := plain_run (some 0) ⟨rfl, _, _, rfl⟩
  refine ⟨_, registers.trans leaves, fun whole => ?_⟩
  have computed : (left.messages.any fun row => !left.chatExists row.chatId) = true := by
    rw [left, fromMallory_leave]
    decide +kernel
  obtain ⟨row, member, missing⟩ := List.any_eq_true.mp computed
  rw [whole.row member] at missing
  cases missing

/-- Mallory has written to Alice first. -/
def texted : Vault := played malloryWorld (fromMallory MsgType.olm 0 (utf8 "hi")) joined

def textedAndLeft : Vault :=
  played malloryWorld (fromMallory MsgType.olmSystem 1 leftSentinel) texted

/-- Then her leave is a row of their chat. -/
theorem partner_leaves :
    textedAndLeft.messages.length = 2 ∧ Referential (fun _ => none, textedAndLeft) := by
  have computed : textedAndLeft.messages.length = 2 ∧
      Prog.checks (Ask.play joinWorld) Ask.leavesChat joining Vault.empty = true ∧
      Prog.checks (Ask.play malloryWorld) Ask.leavesChat
        (fromMallory MsgType.olm 0 (utf8 "hi")) joined = true ∧
      Prog.checks (Ask.play malloryWorld) Ask.leavesChat
        (fromMallory MsgType.olmSystem 1 leftSentinel) texted = true := by
    rw [textedAndLeft, texted, fromMallory_leave, fromMallory_text]
    decide +kernel
  obtain ⟨rows, registers, writes, leaves⟩ := computed
  refine ⟨rows, chats_referential ?_⟩
  have first : Relation.ReflTransGen (vaultCrew.NextIf Careful) (fun _ => none, Vault.empty)
      (fun _ => none, joined) := careful_run none ⟨rfl, _, _, rfl⟩ registers
  have second : Relation.ReflTransGen (vaultCrew.NextIf Careful) (fun _ => none, joined)
      (fun _ => none, texted) := careful_run (some 0) ⟨rfl, _, _, rfl⟩ writes
  have third : Relation.ReflTransGen (vaultCrew.NextIf Careful) (fun _ => none, texted)
      (fun _ => none, textedAndLeft) := careful_run (some 0) ⟨rfl, _, _, rfl⟩ leaves
  exact (first.trans second).trans third

end Ideal

end Cherm
