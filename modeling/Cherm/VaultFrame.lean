/-
**What each vault call leaves alone.**

Every row of the vault belongs to a part and, within the part, to an id: the name of a contact or a
peer, the id of a chat or a group. `VaultOp.Writes` says which rows a call may write, and
`exec_frame` that it writes no others. The proofs about handlers use nothing else about the calls
that do not concern them.
-/

import Cherm.Vault

namespace Cherm

/-- The parts of a vault. -/
inductive VaultPart where
  | «meta»
  | account
  | contacts
  | olmSessions
  | chats
  | chatMembers
  | groupOut
  | groupIn
  | messages
  | groups
  | groupBans
  | groupSuspensions
  | groupJoinRequests
  | megolmSeen
deriving DecidableEq

section

variable [Crates]

/-- The rows of an id in a part are the same in two vaults. -/
def VaultPart.SameAt (id : String) (v v' : Vault) : VaultPart → Prop
  | «meta» => v'.meta.get id = v.meta.get id
  | account => v'.account = v.account
  | contacts => v'.contacts.get id = v.contacts.get id
  | olmSessions => v'.olmSessions.get id = v.olmSessions.get id
  | chats => v'.chats.get id = v.chats.get id
  | chatMembers => v'.getMembers id = v.getMembers id
  | groupOut => v'.groupOut.get id = v.groupOut.get id
  | groupIn => (fun u => v'.groupIn.get (id, u)) = fun u => v.groupIn.get (id, u)
  | messages => v'.messages.filter (·.chatId = id) = v.messages.filter (·.chatId = id)
  | groups => v'.groups.get id = v.groups.get id
  | groupBans => (fun u => v'.groupBans.get (id, u)) = fun u => v.groupBans.get (id, u)
  | groupSuspensions =>
      (fun u => v'.groupSuspensions.get (id, u)) = fun u => v.groupSuspensions.get (id, u)
  | groupJoinRequests =>
      (fun u => v'.groupJoinRequests.get (id, u)) = fun u => v.groupJoinRequests.get (id, u)
  | megolmSeen => (fun u => v'.megolmSeen.get (id, u)) = fun u => v.megolmSeen.get (id, u)

/-- The parts of a chat that `deleteChat` empties. -/
def VaultPart.ofChat : List VaultPart :=
  [olmSessions, chats, chatMembers, groupOut, groupIn, messages, groups, groupBans,
  groupSuspensions,
    groupJoinRequests, megolmSeen]

theorem VaultPart.sameAt_refl (id : String) (v : Vault) (part : VaultPart) :
    part.SameAt id v v := by
  cases part <;> rfl

theorem VaultPart.SameAt.trans {id : String} {v v' v'' : Vault} {part : VaultPart}
    (first : part.SameAt id v v') (second : part.SameAt id v' v'') : part.SameAt id v v'' := by
  cases part <;> exact Eq.trans second first

namespace VaultOp

/-- The rows a call may write: its part and its id. -/
def Writes : VaultOp → VaultPart → String → Prop
  | metaSet key _, part, id => part = .meta ∧ id = key
  | saveAccount _, part, _ => part = .account
  | upsertContact username .., part, id => part = .contacts ∧ id = username
  | saveOlm peer _, part, id => part = .olmSessions ∧ id = peer
  | saveGroupOut groupId _, part, id => part = .groupOut ∧ id = groupId
  | saveGroupIn groupId .., part, id | deleteGroupIn groupId _, part, id =>
      part = .groupIn ∧ id = groupId
  | megolmAccept groupId .., part, id => part = .megolmSeen ∧ id = groupId
  | upsertChat chatId .., part, id => part = .chats ∧ id = chatId
  | addMember chatId _, part, id | removeMember chatId _, part, id =>
      part = .chatMembers ∧ id = chatId
  | deleteChat chatId, part, id => part ∈ VaultPart.ofChat ∧ id = chatId
  | createGroupRow groupId .., part, id | upsertGroupMeta groupId .., part, id
  | setAccessMode groupId _, part, id => part = .groups ∧ id = groupId
  | banUser groupId .., part, id | unbanUser groupId _, part, id => part = .groupBans ∧ id = groupId
  | suspendUser groupId .., part, id | clearSuspension groupId _, part, id =>
      part = .groupSuspensions ∧ id = groupId
  | addJoinRequest groupId .., part, id | removeJoinRequest groupId _, part, id =>
      part = .groupJoinRequests ∧ id = groupId
  | insertMessage chatId .., part, id => part = .messages ∧ id = chatId
  | _, _, _ => False

/-- The kind a call gives to a chat is one of these. -/
def Makes (kinds : String → String → Prop) : VaultOp → Prop
  | upsertChat chatId kind .. => kinds chatId kind
  | _ => True

end VaultOp

namespace Vault

/-! ### The calls that branch or filter -/

theorem isMember_iff (v : Vault) (chatId username : String) :
    v.isMember chatId username = true ↔ username ∈ v.getMembers chatId := by
  simp [isMember, getMembers]

theorem getMembers_addMember_of_ne (v : Vault) {chatId id : String} (different : id ≠ chatId)
    (username : String) : (v.addMember chatId username).getMembers id = v.getMembers id := by
  unfold addMember
  split
  · rfl
  · simp [getMembers, List.filter_append, Ne.symm different]

theorem getMembers_removeMember (v : Vault) (chatId username : String) :
    (v.removeMember chatId username).getMembers chatId =
      (v.getMembers chatId).filter (· ≠ username) := by
  unfold removeMember getMembers
  rw [List.filter_filter, List.filter_map, List.filter_filter]
  refine congrArg _ (List.filter_congr fun entry _ => ?_)
  obtain ⟨id, name⟩ := entry
  by_cases here : id = chatId <;> simp [here]

theorem getMembers_removeMember_of_ne (v : Vault) {chatId id : String} (different : id ≠ chatId)
    (username : String) : (v.removeMember chatId username).getMembers id = v.getMembers id := by
  unfold removeMember getMembers
  rw [List.filter_filter]
  refine congrArg _ (List.filter_congr fun entry _ => ?_)
  by_cases here : entry.1 = id
  · have other : entry ≠ (chatId, username) := by
      rintro rfl
      exact different here.symm
    simp [here, other]
  · simp [here]

theorem getMembers_deleteChat_of_ne (v : Vault) {chatId id : String} (different : id ≠ chatId) :
    (v.deleteChat chatId).getMembers id = v.getMembers id := by
  unfold deleteChat getMembers
  rw [List.filter_filter]
  refine congrArg _ (List.filter_congr fun entry _ => ?_)
  by_cases here : entry.1 = id <;> simp [here, different]

theorem messages_deleteChat_of_ne (v : Vault) {chatId id : String} (different : id ≠ chatId) :
    (v.deleteChat chatId).messages.filter (·.chatId = id) = v.messages.filter (·.chatId = id) := by
  unfold deleteChat
  rw [List.filter_filter]
  refine List.filter_congr fun row _ => ?_
  by_cases here : row.chatId = id <;> simp [here, different]

theorem addMember_writes (v : Vault) (chatId username : String) :
    ∃ members, v.addMember chatId username = { v with chatMembers := members } := by
  unfold addMember
  split
  · exact ⟨v.chatMembers, rfl⟩
  · exact ⟨_, rfl⟩

theorem megolmAccept_writes (v : Vault) (groupId sender sessionId : String) (index : Nat) :
    ∃ seen, (v.megolmAccept groupId sender sessionId index).2 = { v with megolmSeen := seen } ∧
      ∀ id ≠ groupId, (fun u => seen.get (id, u)) = fun u => v.megolmSeen.get (id, u) := by
  have recorded : ∀ id ≠ groupId,
      (fun u => (v.megolmSeen.put (groupId, sender, sessionId) index).get (id, u)) =
        fun u => v.megolmSeen.get (id, u) := by
    intro id different
    funext u
    rw [Table.get_put, if_neg fun same => different (congrArg Prod.fst same)]
  unfold megolmAccept
  split
  · split
    · exact ⟨v.megolmSeen, rfl, fun _ _ => rfl⟩
    · exact ⟨_, rfl, recorded⟩
  · exact ⟨_, rfl, recorded⟩

/-- A vault that differs in one row of `groups` at most. -/
def GroupWritten (v : Vault) (groupId : String) (v' : Vault) : Prop :=
  ∃ groups, v' = { v with groups := groups } ∧ ∀ id ≠ groupId, groups.get id = v.groups.get id

theorem groupWritten_refl (v : Vault) (groupId : String) : v.GroupWritten groupId v :=
  ⟨v.groups, rfl, fun _ _ => rfl⟩

theorem groupWritten_put (v : Vault) (groupId : String) (row : GroupMeta) :
    v.GroupWritten groupId { v with groups := v.groups.put groupId row } :=
  ⟨_, rfl, fun id different => by rw [Table.get_put, if_neg different]⟩

theorem GroupWritten.trans {v v' v'' : Vault} {groupId : String} (first : v.GroupWritten groupId v')
    (second : v'.GroupWritten groupId v'') : v.GroupWritten groupId v'' := by
  obtain ⟨groups, rfl, same⟩ := first
  obtain ⟨groups', rfl, same'⟩ := second
  exact ⟨groups', rfl, fun id different => (same' id different).trans (same id different)⟩

theorem tryInsertGroup_writes (v : Vault) (groupId key mode owner : String) :
    v.GroupWritten groupId (v.tryInsertGroup groupId key mode owner).2 := by
  unfold tryInsertGroup
  split
  · exact v.groupWritten_refl groupId
  · split
    · exact v.groupWritten_refl groupId
    · exact v.groupWritten_put groupId _

theorem createGroupRowFrom_writes (v : Vault) (groupId mode owner : String) (gen : Nat → String)
    (tries attempt : Nat) :
    v.GroupWritten groupId (v.createGroupRowFrom groupId mode owner gen tries attempt).2 := by
  induction tries generalizing v attempt with
  | zero => exact v.groupWritten_refl groupId
  | succ tries ih =>
      have written := v.tryInsertGroup_writes groupId (gen attempt) mode owner
      rw [createGroupRowFrom]
      cases outcome : v.tryInsertGroup groupId (gen attempt) mode owner with
      | mk kind v' =>
          rw [outcome] at written
          cases kind with
          | inserted => exact written
          | groupExists =>
              dsimp only
              split <;> exact written
          | keyTaken => exact written.trans (ih v' (attempt + 1))

theorem upsertGroupMeta_writes (v : Vault) (groupId key mode owner : String) :
    v.GroupWritten groupId (v.upsertGroupMeta groupId key mode owner) := by
  unfold upsertGroupMeta
  split
  · exact v.groupWritten_refl groupId
  · exact v.groupWritten_put groupId _

theorem setAccessMode_writes (v : Vault) (groupId mode : String) :
    v.GroupWritten groupId (v.setAccessMode groupId mode) := by
  unfold setAccessMode
  split
  · exact v.groupWritten_refl groupId
  · exact v.groupWritten_put groupId _

theorem GroupWritten.sameAt {v v' : Vault} {groupId : String} (written : v.GroupWritten groupId v')
    {part : VaultPart} {id : String} (other : ¬ (part = .groups ∧ id = groupId)) :
    part.SameAt id v v' := by
  obtain ⟨groups, rfl, same⟩ := written
  cases part with
  | groups => exact same id fun here => other ⟨rfl, here⟩
  | _ => rfl

end Vault

/-! ### The frame -/

/-- **A call writes only its own rows.** -/
theorem VaultOp.exec_frame (op : VaultOp) (v : Vault) (part : VaultPart) (id : String)
    (other : ¬ op.Writes part id) : part.SameAt id v (op.exec v).2 := by
  cases op with
  | addMember chatId username =>
      cases part with
      | chatMembers => exact v.getMembers_addMember_of_ne (fun here => other ⟨rfl, here⟩) username
      | _ =>
          obtain ⟨members, written⟩ := v.addMember_writes chatId username
          show VaultPart.SameAt id v (v.addMember chatId username) _
          rw [written]
          rfl
  | removeMember chatId username =>
      cases part with
      | chatMembers =>
          exact v.getMembers_removeMember_of_ne (fun here => other ⟨rfl, here⟩) username
      | _ => rfl
  | megolmAccept groupId sender sessionId index =>
      obtain ⟨seen, written, same⟩ := v.megolmAccept_writes groupId sender sessionId index
      show part.SameAt id v (v.megolmAccept groupId sender sessionId index).2
      rw [written]
      cases part with
      | megolmSeen => exact same id fun here => other ⟨rfl, here⟩
      | _ => rfl
  | createGroupRow groupId mode owner gen =>
      exact (v.createGroupRowFrom_writes groupId mode owner gen 64 0).sameAt other
  | upsertGroupMeta groupId key mode owner =>
      exact (v.upsertGroupMeta_writes groupId key mode owner).sameAt other
  | setAccessMode groupId mode => exact (v.setAccessMode_writes groupId mode).sameAt other
  | deleteChat chatId =>
      cases part with
      | chatMembers => exact v.getMembers_deleteChat_of_ne fun here => other ⟨by decide, here⟩
      | messages => exact v.messages_deleteChat_of_ne fun here => other ⟨by decide, here⟩
      | «meta» | account | contacts => rfl
      | _ =>
          have different : id ≠ chatId := fun here => other ⟨by decide, here⟩
          simp [VaultPart.SameAt, exec, Vault.deleteChat, different]
  | insertMessage chatId sender body ts outgoing recvTs =>
      cases part with
      | messages =>
          have different : chatId ≠ id := fun here => other ⟨rfl, here.symm⟩
          simp [VaultPart.SameAt, exec, Vault.insertMessage, different]
      | _ => rfl
  | _ =>
      cases part <;> first
        | rfl
        | exact absurd rfl other
        | (simp only [Writes, true_and] at other
           simp [VaultPart.SameAt, exec, Vault.metaSet, Vault.upsertContact, Vault.saveOlm,
             Vault.saveGroupOut, Vault.saveGroupIn, Vault.deleteGroupIn, Vault.upsertChat,
             Vault.banUser, Vault.unbanUser, Vault.suspendUser, Vault.clearSuspension,
             Vault.addJoinRequest, Vault.removeJoinRequest, other])

/-- **The kind of a chat** after a call is the one it had, or the one the call gives it. -/
theorem VaultOp.exec_kind {kinds : String → String → Prop} {op : VaultOp} (makes : op.Makes kinds)
    (v : Vault) {id : String} {row : ChatRow} (after : (op.exec v).2.chats.get id = some row) :
    (∃ old, v.chats.get id = some old ∧ row.kind = old.kind) ∨ kinds id row.kind := by
  by_cases writes : op.Writes .chats id
  · cases op with
    | deleteChat chatId =>
        obtain ⟨_, rfl⟩ := writes
        simp [exec, Vault.deleteChat] at after
    | upsertChat chatId kind title now =>
        obtain ⟨_, rfl⟩ := writes
        refine .inr ?_
        have made : row.kind = kind := by
          simp only [exec, Vault.upsertChat, Table.get_put, if_pos] at after
          rw [← Option.some.inj after]
          split <;> rfl
        rw [made]
        exact makes
    | _ => simp [Writes] at writes
  · have same : (op.exec v).2.chats.get id = v.chats.get id := op.exec_frame v .chats id writes
    exact .inl ⟨row, same ▸ after, rfl⟩

end

end Cherm
