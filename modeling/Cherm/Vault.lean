/-
**One server's vault: the tables and the helpers that read and write them.**

Each helper is one critical section under the vault's lock, so it is a function of the whole vault.
The two that take the clock as well (`upsertChat`, `insertMessage`) get the reading as an argument;
`isSuspended`, which takes the lock twice, is a program and is found with the handlers. A stored
pickle is kept as the object it restores to.

* `upsertContact` refreshes a pinned contact only as far as the pin allows (`upsertContact_pinned`,
  `getContactEd_upsertContact_self`).
* `megolmAccept` is the replay guard, check and record in one section.
* `createGroupRow` retries on a taken invite key; `upsertGroupMeta` gives way to one.
-/

import Cherm.Crypto
import Cherm.Lib.Table

namespace Cherm

/-- A row of `contacts`: the keys that are pinned to a name. -/
structure Contact where
  uuid : Option String
  ed25519 : Option String
  curve25519 : Option String
deriving DecidableEq, Repr

/-- No Ed25519 key is pinned in this row. -/
def Contact.unpinned (contact : Contact) : Prop :=
  contact.ed25519 = none ∨ contact.ed25519 = some ""

instance (contact : Contact) : Decidable contact.unpinned :=
  inferInstanceAs (Decidable (_ ∨ _))

/-- A row of `chats`. -/
structure ChatRow where
  kind : String
  title : String
  createdTs : Int
deriving DecidableEq, Repr

/-- A row of `messages`. -/
structure MessageRow where
  id : Nat
  chatId : String
  sender : String
  body : String
  ts : Int
  outgoing : Bool
  recvTs : Int
deriving DecidableEq, Repr

/-- A row of `groups`. -/
structure GroupMeta where
  groupKey : String
  accessMode : String
  owner : String
deriving DecidableEq, Repr

/-- The tables of one vault. The account is the row `account_pickle` of `meta`. -/
structure Vault [Crates] where
  «meta» : Table String String
  account : Option Device
  contacts : Table String Contact
  olmSessions : Table String OlmSession
  chats : Table String ChatRow
  chatMembers : List (String × String)
  groupOut : Table String GroupSender
  groupIn : Table (String × String) GroupReceiver
  messages : List MessageRow
  nextMessageId : Nat
  groups : Table String GroupMeta
  groupBans : Table (String × String) Int
  groupSuspensions : Table (String × String) Int
  groupJoinRequests : Table (String × String) Int
  megolmSeen : Table (String × String × String) Nat

/-- The result of comparing an incoming identity key against the pinned one. -/
inductive IdentityCheck where
  | firstContact
  | match
  | conflict
deriving DecidableEq, Repr

/-- The result of inserting a `groups` row with one candidate key. -/
inductive KeyInsert where
  | inserted
  | keyTaken
  | groupExists
deriving DecidableEq, Repr

namespace Vault

variable [Crates]

/-- A fresh vault. -/
def empty : Vault where
  «meta» := ∅
  account := none
  contacts := ∅
  olmSessions := ∅
  chats := ∅
  chatMembers := []
  groupOut := ∅
  groupIn := ∅
  messages := []
  nextMessageId := 1
  groups := ∅
  groupBans := ∅
  groupSuspensions := ∅
  groupJoinRequests := ∅
  megolmSeen := ∅

/-! ### meta and account -/

/-- A value of the `meta` table. -/
def metaGet (v : Vault) (key : String) : Option String := v.meta.get key

/-- Write a value of the `meta` table. -/
def metaSet (v : Vault) (key value : String) : Vault := { v with «meta» := v.meta.put key value }

/-- Write the pickled account. -/
def saveAccount (v : Vault) (device : Device) : Vault := { v with account := some device }

/-! ### contacts -/

/-- The pinned Ed25519 key of a contact. -/
def getContactEd (v : Vault) (username : String) : Option String :=
  (v.contacts.get username).bind Contact.ed25519

/-- The known Curve25519 key of a contact. -/
def getContactCurve (v : Vault) (username : String) : Option String :=
  (v.contacts.get username).bind Contact.curve25519

/-- Trust on first use: the pinned Ed25519 text decides. -/
def checkIdentity (v : Vault) (username ed25519 : String) : IdentityCheck :=
  match v.getContactEd username with
  | none => .firstContact
  | some pinned =>
      if pinned = "" then .firstContact
      else if pinned = ed25519 then .match
      else .conflict

/-- Insert or refresh a contact. A pinned Ed25519 key stays; the Curve25519 key follows only while
the pinned key is the incoming one or nothing is pinned. -/
def upsertContact (v : Vault) (username uuid ed25519 curve25519 : String) : Vault :=
  let row : Contact := match v.contacts.get username with
    | none => ⟨some uuid, some ed25519, some curve25519⟩
    | some old =>
        { uuid := some uuid
          ed25519 := if old.unpinned then some ed25519 else old.ed25519
          curve25519 := if old.unpinned ∨ old.ed25519 = some ed25519 then some curve25519
            else old.curve25519 }
  { v with contacts := v.contacts.put username row }

theorem get_contacts_upsertContact_of_ne (v : Vault) {username other : String}
    (different : other ≠ username) (uuid ed25519 curve25519 : String) :
    (v.upsertContact username uuid ed25519 curve25519).contacts.get other =
      v.contacts.get other := by
  rw [upsertContact, Table.get_put, if_neg different]

theorem getContactEd_upsertContact_of_ne (v : Vault) {username other : String}
    (different : other ≠ username) (uuid ed25519 curve25519 : String) :
    (v.upsertContact username uuid ed25519 curve25519).getContactEd other =
      v.getContactEd other := by
  rw [getContactEd, get_contacts_upsertContact_of_ne v different, getContactEd]

/-- What is pinned stays pinned. -/
theorem upsertContact_pinned (v : Vault) {username pinned : String}
    (isPinned : v.getContactEd username = some pinned) (nonempty : pinned ≠ "")
    (uuid ed25519 curve25519 : String) :
    (v.upsertContact username uuid ed25519 curve25519).getContactEd username = some pinned := by
  unfold getContactEd at isPinned ⊢
  rw [upsertContact, Table.get_put, if_pos rfl]
  cases row : v.contacts.get username with
  | none => rw [row] at isPinned; cases isPinned
  | some old =>
      rw [row] at isPinned
      have ed : old.ed25519 = some pinned := isPinned
      simp [Contact.unpinned, ed, nonempty]

/-- A key that passes the check is the pinned one afterwards. -/
theorem getContactEd_upsertContact_self (v : Vault) {username ed25519 : String}
    (checked : v.checkIdentity username ed25519 ≠ .conflict) (uuid curve25519 : String) :
    (v.upsertContact username uuid ed25519 curve25519).getContactEd username = some ed25519 := by
  unfold checkIdentity getContactEd at checked
  unfold getContactEd
  rw [upsertContact, Table.get_put, if_pos rfl]
  cases row : v.contacts.get username with
  | none => rfl
  | some old =>
      rw [row] at checked
      cases pinned : old.ed25519 with
      | none => simp [Contact.unpinned, pinned]
      | some key =>
          by_cases empty : key = ""
          · simp [Contact.unpinned, pinned, empty]
          · by_cases same : key = ed25519
            · simp [Contact.unpinned, pinned, same]
            · exact absurd (by simp [pinned, empty, same]) checked

/-! ### sessions -/

/-- Write the session with a peer, over an earlier one. -/
def saveOlm (v : Vault) (peer : String) (session : OlmSession) : Vault :=
  { v with olmSessions := v.olmSessions.put peer session }

/-- The session with a peer. -/
def loadOlm (v : Vault) (peer : String) : Option OlmSession := v.olmSessions.get peer

/-- Write our own session of a group, over an earlier one. -/
def saveGroupOut (v : Vault) (groupId : String) (sender : GroupSender) : Vault :=
  { v with groupOut := v.groupOut.put groupId sender }

/-- Our own session of a group. -/
def loadGroupOut (v : Vault) (groupId : String) : Option GroupSender := v.groupOut.get groupId

/-- Write a sender's session of a group, over an earlier one. -/
def saveGroupIn (v : Vault) (groupId sender : String) (receiver : GroupReceiver) : Vault :=
  { v with groupIn := v.groupIn.put (groupId, sender) receiver }

/-- Forget a sender's session of a group. -/
def deleteGroupIn (v : Vault) (groupId sender : String) : Vault :=
  { v with groupIn := v.groupIn.erase (groupId, sender) }

/-- A sender's session of a group. -/
def loadGroupIn (v : Vault) (groupId sender : String) : Option GroupReceiver :=
  v.groupIn.get (groupId, sender)

/-- The replay guard: true, and recorded, if the index is above every one applied before for this
session of this sender. -/
def megolmAccept (v : Vault) (groupId sender sessionId : String) (index : Nat) : Bool × Vault :=
  let recorded := { v with megolmSeen := v.megolmSeen.put (groupId, sender, sessionId) index }
  match v.megolmSeen.get (groupId, sender, sessionId) with
  | some max => if index ≤ max then (false, v) else (true, recorded)
  | none => (true, recorded)

/-! ### chats -/

/-- Add a chat, or give one a new kind and title; its time of creation stays. -/
def upsertChat (v : Vault) (id kind title : String) (now : Int) : Vault :=
  let row : ChatRow := match v.chats.get id with
    | none => ⟨kind, title, now⟩
    | some old => { old with kind := kind, title := title }
  { v with chats := v.chats.put id row }

/-- Whether there is such a chat. -/
def chatExists (v : Vault) (id : String) : Bool := (v.chats.get id).isSome

/-- Kind and title of a chat. -/
def getChat (v : Vault) (id : String) : Option (String × String) :=
  (v.chats.get id).map fun row => (row.kind, row.title)

/-- The largest `ts` of a chat's messages, 0 without any. -/
def lastTs (v : Vault) (id : String) : Int :=
  match (v.messages.filter (·.chatId = id)).map MessageRow.ts with
  | [] => 0
  | first :: rest => rest.foldl max first

/-- Chats as `(id, kind, title, last_ts)`, most recent first, then by title. -/
def listChats (v : Vault) : List (String × String × String × Int) :=
  let rows := v.chats.rows.map fun (id, row) => (id, row.kind, row.title, v.lastTs id)
  rows.mergeSort fun a b =>
    decide (b.2.2.2 < a.2.2.2) || (decide (a.2.2.2 = b.2.2.2) && decide (a.2.2.1 ≤ b.2.2.1))

/-! ### chat_members -/

/-- Whether a user is on the roster of a chat. -/
def isMember (v : Vault) (chatId username : String) : Bool :=
  v.chatMembers.contains (chatId, username)

/-- Put a user on the roster, unless they are on it. -/
def addMember (v : Vault) (chatId username : String) : Vault :=
  if v.isMember chatId username then v
  else { v with chatMembers := v.chatMembers ++ [(chatId, username)] }

/-- Take a user off the roster. -/
def removeMember (v : Vault) (chatId username : String) : Vault :=
  { v with chatMembers := v.chatMembers.filter (· ≠ (chatId, username)) }

/-- The roster of a chat. -/
def getMembers (v : Vault) (chatId : String) : List String :=
  (v.chatMembers.filter (·.1 = chatId)).map Prod.snd

/-- Delete a chat and all of its local state. The contact row is not part of it. -/
def deleteChat (v : Vault) (chatId : String) : Vault :=
  { v with
    chats := v.chats.erase chatId
    chatMembers := v.chatMembers.filter (·.1 ≠ chatId)
    messages := v.messages.filter (·.chatId ≠ chatId)
    olmSessions := v.olmSessions.erase chatId
    groupOut := v.groupOut.erase chatId
    groupIn := v.groupIn.eraseWhere (·.1 = chatId)
    groups := v.groups.erase chatId
    groupBans := v.groupBans.eraseWhere (·.1 = chatId)
    groupSuspensions := v.groupSuspensions.eraseWhere (·.1 = chatId)
    groupJoinRequests := v.groupJoinRequests.eraseWhere (·.1 = chatId)
    megolmSeen := v.megolmSeen.eraseWhere (·.1 = chatId) }

/-! ### groups -/

/-- Key, mode and owner of a group. -/
def getGroupMeta (v : Vault) (groupId : String) : Option GroupMeta := v.groups.get groupId

/-- Some group other than this one already has the key. -/
def keyTaken (v : Vault) (groupId key : String) : Bool :=
  v.groups.rows.any fun (id, row) => id ≠ groupId && row.groupKey = key

/-- Insert a row with one candidate key. An existing row of the group is left alone. -/
def tryInsertGroup (v : Vault) (groupId key mode owner : String) : KeyInsert × Vault :=
  if (v.groups.get groupId).isSome then (.groupExists, v)
  else if v.keyTaken groupId key then (.keyTaken, v)
  else (.inserted, { v with groups := v.groups.put groupId ⟨key, mode, owner⟩ })

/-- Try the candidates `gen 0`, `gen 1`, ... until one is free, `tries` times at most. -/
def createGroupRowFrom (v : Vault) (groupId mode owner : String) (gen : Nat → String) :
    (tries attempt : Nat) → Except String String × Vault
  | 0, _ => (.error "could not mint a unique group key after 64 tries", v)
  | tries + 1, attempt =>
      match v.tryInsertGroup groupId (gen attempt) mode owner with
      | (.inserted, v') => (.ok (gen attempt), v')
      | (.groupExists, v') =>
          match v'.getGroupMeta groupId with
          | some row => (.ok row.groupKey, v')
          | none => (.error "group row missing after conflict", v')
      | (.keyTaken, v') => createGroupRowFrom v' groupId mode owner gen tries (attempt + 1)

/-- `create_group_row`: a key is drawn up to 64 times until it is free. -/
def createGroupRow (v : Vault) (groupId mode owner : String) (gen : Nat → String) :
    Except String String × Vault :=
  v.createGroupRowFrom groupId mode owner gen 64 0

/-- Record metadata learned from a key share. A key that another group has keeps the old row. -/
def upsertGroupMeta (v : Vault) (groupId key mode owner : String) : Vault :=
  if v.keyTaken groupId key then v
  else { v with groups := v.groups.put groupId ⟨key, mode, owner⟩ }

/-- Change the mode of a group that is known. -/
def setAccessMode (v : Vault) (groupId mode : String) : Vault :=
  match v.groups.get groupId with
  | none => v
  | some row => { v with groups := v.groups.put groupId { row with accessMode := mode } }

/-! ### bans, suspensions, join requests -/

/-- Ban a user from a group. -/
def banUser (v : Vault) (groupId username : String) (ts : Int) : Vault :=
  { v with groupBans := v.groupBans.put (groupId, username) ts }

/-- Lift the ban of a user. -/
def unbanUser (v : Vault) (groupId username : String) : Vault :=
  { v with groupBans := v.groupBans.erase (groupId, username) }

/-- Whether a user is banned from a group. -/
def isBanned (v : Vault) (groupId username : String) : Bool :=
  (v.groupBans.get (groupId, username)).isSome

/-- Suspend a user until a time, over an earlier suspension. -/
def suspendUser (v : Vault) (groupId username : String) (untilTs : Int) : Vault :=
  { v with groupSuspensions := v.groupSuspensions.put (groupId, username) untilTs }

/-- Lift the suspension of a user. -/
def clearSuspension (v : Vault) (groupId username : String) : Vault :=
  { v with groupSuspensions := v.groupSuspensions.erase (groupId, username) }

/-- When the suspension of a user ends. -/
def suspendedUntil (v : Vault) (groupId username : String) : Option Int :=
  v.groupSuspensions.get (groupId, username)

/-- Keep a request to join, with its time. -/
def addJoinRequest (v : Vault) (groupId username : String) (ts : Int) : Vault :=
  { v with groupJoinRequests := v.groupJoinRequests.put (groupId, username) ts }

/-- Whether a user has asked to join. -/
def hasJoinRequest (v : Vault) (groupId username : String) : Bool :=
  (v.groupJoinRequests.get (groupId, username)).isSome

/-- Forget a request to join. -/
def removeJoinRequest (v : Vault) (groupId username : String) : Vault :=
  { v with groupJoinRequests := v.groupJoinRequests.erase (groupId, username) }

/-- Pending requests of a group, oldest first. -/
def listJoinRequests (v : Vault) (groupId : String) : List String :=
  ((v.groupJoinRequests.rows.filter (·.1.1 = groupId)).mergeSort
    fun a b => decide (a.2 ≤ b.2)).map (·.1.2)

/-- Banned users of a group, by name. -/
def listBans (v : Vault) (groupId : String) : List String :=
  ((v.groupBans.rows.filter (·.1.1 = groupId)).map (·.1.2)).mergeSort fun a b => decide (a ≤ b)

/-! ### messages -/

/-- Append a message; only this table gives it its number. -/
def insertMessage (v : Vault) (chatId sender body : String) (ts : Int) (outgoing : Bool)
    (recvTs : Int) : Vault :=
  { v with
    messages := v.messages ++ [⟨v.nextMessageId, chatId, sender, body, ts, outgoing, recvTs⟩]
    nextMessageId := v.nextMessageId + 1 }

/-- The last `limit` messages of a chat as `(sender, body, ts, outgoing)`, oldest first. Order is by
local receipt time. A negative limit is none at all. -/
def getMessages (v : Vault) (chatId : String) (limit : Int) :
    List (String × String × Int × Bool) :=
  let latestFirst := (v.messages.filter (·.chatId = chatId)).mergeSort fun a b =>
    decide (b.recvTs < a.recvTs) || (decide (a.recvTs = b.recvTs) && decide (b.id ≤ a.id))
  let kept := if limit < 0 then latestFirst else latestFirst.take limit.toNat
  (kept.map fun row => (row.sender, row.body, row.ts, row.outgoing)).reverse

end Vault

/-! ### The calls -/

/-- One call of a vault helper with its arguments. -/
inductive VaultOp [Crates] where
  | metaGet (key : String)
  | metaSet (key value : String)
  | loadAccount
  | saveAccount (device : Device)
  | getContactEd (username : String)
  | getContactCurve (username : String)
  | checkIdentity (username ed25519 : String)
  | upsertContact (username uuid ed25519 curve25519 : String)
  | loadOlm (peer : String)
  | saveOlm (peer : String) (session : OlmSession)
  | loadGroupOut (groupId : String)
  | saveGroupOut (groupId : String) (sender : GroupSender)
  | loadGroupIn (groupId sender : String)
  | saveGroupIn (groupId sender : String) (receiver : GroupReceiver)
  | deleteGroupIn (groupId sender : String)
  | megolmAccept (groupId sender sessionId : String) (index : Nat)
  | upsertChat (id kind title : String) (now : Int)
  | chatExists (id : String)
  | getChat (id : String)
  | listChats
  | isMember (chatId username : String)
  | addMember (chatId username : String)
  | removeMember (chatId username : String)
  | getMembers (chatId : String)
  | deleteChat (chatId : String)
  | getGroupMeta (groupId : String)
  | createGroupRow (groupId mode owner : String) (gen : Nat → String)
  | upsertGroupMeta (groupId key mode owner : String)
  | setAccessMode (groupId mode : String)
  | banUser (groupId username : String) (ts : Int)
  | unbanUser (groupId username : String)
  | isBanned (groupId username : String)
  | suspendUser (groupId username : String) (untilTs : Int)
  | clearSuspension (groupId username : String)
  | suspendedUntil (groupId username : String)
  | addJoinRequest (groupId username : String) (ts : Int)
  | hasJoinRequest (groupId username : String)
  | removeJoinRequest (groupId username : String)
  | listJoinRequests (groupId : String)
  | listBans (groupId : String)
  | insertMessage (chatId sender body : String) (ts : Int) (outgoing : Bool) (recvTs : Int)
  | getMessages (chatId : String) (limit : Int)

namespace VaultOp

variable [Crates]

/-- What a call returns. -/
@[reducible] def Result : VaultOp → Type
  | .metaGet .. | .getContactEd .. | .getContactCurve .. => Option String
  | .loadAccount => Option Device
  | .checkIdentity .. => IdentityCheck
  | .loadOlm .. => Option OlmSession
  | .loadGroupOut .. => Option GroupSender
  | .loadGroupIn .. => Option GroupReceiver
  | .megolmAccept .. | .chatExists .. | .isMember .. | .isBanned .. | .hasJoinRequest .. => Bool
  | .getChat .. => Option (String × String)
  | .listChats => List (String × String × String × Int)
  | .getMembers .. | .listJoinRequests .. | .listBans .. => List String
  | .getGroupMeta .. => Option GroupMeta
  | .createGroupRow .. => Except String String
  | .suspendedUntil .. => Option Int
  | .getMessages .. => List (String × String × Int × Bool)
  | _ => Unit

/-- What a call does. -/
def exec : (op : VaultOp) → Vault → op.Result × Vault
  | .metaGet key, v => (v.metaGet key, v)
  | .metaSet key value, v => ((), v.metaSet key value)
  | .loadAccount, v => (v.account, v)
  | .saveAccount device, v => ((), v.saveAccount device)
  | .getContactEd username, v => (v.getContactEd username, v)
  | .getContactCurve username, v => (v.getContactCurve username, v)
  | .checkIdentity username ed25519, v => (v.checkIdentity username ed25519, v)
  | .upsertContact username uuid ed25519 curve25519, v =>
      ((), v.upsertContact username uuid ed25519 curve25519)
  | .loadOlm peer, v => (v.loadOlm peer, v)
  | .saveOlm peer session, v => ((), v.saveOlm peer session)
  | .loadGroupOut groupId, v => (v.loadGroupOut groupId, v)
  | .saveGroupOut groupId sender, v => ((), v.saveGroupOut groupId sender)
  | .loadGroupIn groupId sender, v => (v.loadGroupIn groupId sender, v)
  | .saveGroupIn groupId sender receiver, v => ((), v.saveGroupIn groupId sender receiver)
  | .deleteGroupIn groupId sender, v => ((), v.deleteGroupIn groupId sender)
  | .megolmAccept groupId sender sessionId index, v =>
      v.megolmAccept groupId sender sessionId index
  | .upsertChat id kind title now, v => ((), v.upsertChat id kind title now)
  | .chatExists id, v => (v.chatExists id, v)
  | .getChat id, v => (v.getChat id, v)
  | .listChats, v => (v.listChats, v)
  | .isMember chatId username, v => (v.isMember chatId username, v)
  | .addMember chatId username, v => ((), v.addMember chatId username)
  | .removeMember chatId username, v => ((), v.removeMember chatId username)
  | .getMembers chatId, v => (v.getMembers chatId, v)
  | .deleteChat chatId, v => ((), v.deleteChat chatId)
  | .getGroupMeta groupId, v => (v.getGroupMeta groupId, v)
  | .createGroupRow groupId mode owner gen, v => v.createGroupRow groupId mode owner gen
  | .upsertGroupMeta groupId key mode owner, v => ((), v.upsertGroupMeta groupId key mode owner)
  | .setAccessMode groupId mode, v => ((), v.setAccessMode groupId mode)
  | .banUser groupId username ts, v => ((), v.banUser groupId username ts)
  | .unbanUser groupId username, v => ((), v.unbanUser groupId username)
  | .isBanned groupId username, v => (v.isBanned groupId username, v)
  | .suspendUser groupId username untilTs, v => ((), v.suspendUser groupId username untilTs)
  | .clearSuspension groupId username, v => ((), v.clearSuspension groupId username)
  | .suspendedUntil groupId username, v => (v.suspendedUntil groupId username, v)
  | .addJoinRequest groupId username ts, v => ((), v.addJoinRequest groupId username ts)
  | .hasJoinRequest groupId username, v => (v.hasJoinRequest groupId username, v)
  | .removeJoinRequest groupId username, v => ((), v.removeJoinRequest groupId username)
  | .listJoinRequests groupId, v => (v.listJoinRequests groupId, v)
  | .listBans groupId, v => (v.listBans groupId, v)
  | .insertMessage chatId sender body ts outgoing recvTs, v =>
      ((), v.insertMessage chatId sender body ts outgoing recvTs)
  | .getMessages chatId limit, v => (v.getMessages chatId limit, v)

end VaultOp

end Cherm
