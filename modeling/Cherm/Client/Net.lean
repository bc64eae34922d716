/-
**Group keys, group events and joins: the functions both tasks share.**

The processor (joins) and the command task (groups, moderation) both share session keys over
pairwise sessions (`distributeGroupKey`), broadcast events over Megolm (`broadcastGroupEvent`) and
admit members (`admitMember`).
-/

import Cherm.Client.Identity

namespace Cherm

open Crates

/-- The sentinel a leave notice encrypts. -/
def leftSentinel : Bytes := utf8 "left"

/-- The line for a moderation or membership event, if its kind has one. -/
def groupEventText (kind who extra : String) : Option String :=
  match kind with
  | "requested" => some (who ++ " requested to join the group.")
  | "joined" => some (who ++ " joined the group.")
  | "removed" => some (who ++ " was removed from the group.")
  | "banned" => some (who ++ " was banned from the group.")
  | "suspended" => some (who ++ " was suspended from the group.")
  | "access" => some ("group access mode set to " ++ extra ++ ".")
  | _ => none

/-- The owner's verdict on a join request. -/
inductive JoinDecision where
  | admitted
  | queue
  | deny (reason : String)
deriving DecidableEq, Repr

/-- The verdict from the group's access mode and the requester's standing. -/
def decideJoin (accessMode : String) (keyOk banned suspended member : Bool) : JoinDecision :=
  if !keyOk then .deny "invalid group key"
  else if banned then .deny "you are banned from this group"
  else if suspended then .deny "you are suspended from this group"
  else if member then .admitted
  else match accessMode with
    | "open" => .admitted
    | "approval" => .queue
    | "invite_only" => .deny "this group is invite-only; ask the owner for an invite"
    | _ => .deny "this group is not accepting joins"

/-- Nobody suspended is admitted or put in the queue. -/
theorem decideJoin_suspended (accessMode : String) (keyOk banned member : Bool) :
    ∃ reason, decideJoin accessMode keyOk banned true member = .deny reason := by
  cases keyOk <;> cases banned <;> exact ⟨_, rfl⟩

section

variable [Crates]

namespace Client

/-! ### System lines -/

/-- Record a line of the reserved sender `System` in a chat and surface it. -/
def emitSystem (chat text : String) (ts : Int) : Client Unit := do
  insertMessage chat "System" text ts false
  emit (.message chat "System" text ts false true)

/-- The line of a leave. -/
def deliverSystem (chat leaver : String) (clientTs : Int) : Client Unit :=
  emitSystem chat (leaver ++ " left the chat.") clientTs

/-- The line of an event, if it has one. -/
def emitGroupEvent (chat kind who extra : String) (ts : Int) : Client Unit :=
  match groupEventText kind who extra with
  | some text => emitSystem chat text ts
  | none => return ()

/-! ### Sharing keys and broadcasting events -/

/-- Encrypt one Olm message for a peer, store the advanced session, and hand the message over. -/
def postOlm (session : OlmSession) (peer msgType : String) (plaintext : Bytes)
    (groupId : Option String) (clientTs : Int) : Client Unit := do
  let seed ← random
  let ((olmType, body), session) ← lift (session.encrypt plaintext seed)
  call (.saveOlm peer session)
  post (.send ⟨[peer], msgType, encodeOlm olmType body, groupId, clientTs⟩)

/-- One recipient of a key share; one without a session is skipped. -/
def shareKey (me groupId : String) (share : GroupKeyShare) (now : Int) (member : String) :
    Client Unit := do
  if member = me then return ()
  match ← ensureOlm member with
  | some session =>
      postOlm session member MsgType.olmGroupKey (toVec share.toJson) (some groupId) now
  | none => return ()

/-- Share our outbound session key with the recipients over their pairwise sessions. -/
def distributeGroupKey (me groupId name : String) (recipients : List String)
    (sender : GroupSender) : Client Unit := do
  let device : Device ← okOr (← call .loadAccount) "no device identity"
  let members ← call (.getMembers groupId)
  let row ← call (.getGroupMeta groupId)
  let share : GroupKeyShare := {
    groupId := groupId
    name := name
    sessionKey := sender.sessionKeyB64
    senderCurve := device.curve25519B64
    members := members
    owner := row.elim "" GroupMeta.owner
    accessMode := row.elim AccessMode.open GroupMeta.accessMode
    groupKey := row.elim "" GroupMeta.groupKey }
  let now ← now
  Prog.forEach recipients (shareKey me groupId share now)

/-- Our outbound session of a group; a new one is stored before it is used. -/
def groupSender (groupId : String) (mint : GroupSender → Client Unit) : Client GroupSender := do
  match ← call (.loadGroupOut groupId) with
  | some sender => return sender
  | none =>
      let seed ← random
      let sender := GroupSender.new seed
      call (.saveGroupOut groupId sender)
      mint sender
      return sender

/-- Encrypt an event for the group and hand it over to everyone else on the roster. -/
def sendGroupEvent (me groupId : String) (roster : List String) (sender : GroupSender)
    (event : Json) :
    Client Unit := do
  let (bytes, sender) := sender.encrypt (toVec event)
  call (.saveGroupOut groupId sender)
  let recipients := roster.filter (· ≠ me)
  if !recipients.isEmpty then
    let now ← now
    post (.send ⟨recipients, MsgType.groupEvent, b64Encode bytes, some groupId, now⟩)

/-- Broadcast an event to the group. -/
def broadcastGroupEvent (me groupId name : String) (event : Json) : Client Unit := do
  let roster ← call (.getMembers groupId)
  let sender ← groupSender groupId fun sender => distributeGroupKey me groupId name roster sender
  sendGroupEvent me groupId roster sender event

/-- Send a JSON control message to a peer, if there is a session to be had. -/
def sendOlmControl (peer msgType groupId : String) (value : Json) : Client Unit := do
  match ← ensureOlm peer with
  | some session =>
      let seed ← random
      let ((olmType, body), session) ← lift (session.encrypt (toVec value) seed)
      call (.saveOlm peer session)
      let now ← now
      post (.send ⟨[peer], msgType, encodeOlm olmType body, some groupId, now⟩)
  | none => return ()

/-! ### Joins -/

/-- Add a user to the group, hand over the key, and tell everyone. -/
def admitMember (me addr groupId who : String) (now : Int) : Client Unit := do
  let chat ← call (.getChat groupId)
  let name := chat.elim "" Prod.snd
  call (.addMember groupId who)
  call (.removeJoinRequest groupId who)
  let sender ← groupSender groupId fun _ => return ()
  distributeGroupKey me groupId name [who] sender
  broadcastGroupEvent me groupId name (joinedEvent who)
  emitGroupEvent groupId "joined" who "" now
  emitChats addr

/-- Tell a prospective member why the join was refused. -/
def denyJoin (peer groupId reason : String) : Client Unit :=
  sendOlmControl peer MsgType.groupJoinDenied groupId (JoinDenied.mk groupId reason).toJson

/-- The owner's side of a join request. -/
def handleJoinRequest (ctx : ProcCtx) (sender : String) (plaintext : Bytes) (now : Int) :
    Client Unit := do
  let req ← lift (JoinRequest.fromSlice plaintext)
  match ← call (.getGroupMeta req.groupId) with
  | none => return ()
  | some row =>
      if row.owner.isEmpty || row.owner ≠ ctx.me then return ()
      let keyOk := validGroupKey req.groupKey && req.groupKey = row.groupKey
      let banned ← call (.isBanned req.groupId sender)
      let suspended ← isSuspended req.groupId sender now
      let member ← call (.isMember req.groupId sender)
      match decideJoin row.accessMode keyOk banned suspended member with
      | .admitted => admitMember ctx.me ctx.addr req.groupId sender now
      | .queue =>
          call (.addJoinRequest req.groupId sender now)
          emitGroupEvent req.groupId "requested" sender "" now
          emit (.info (sender ++ " requested to join — /accept " ++ sender ++
            " (in that group) to admit"))
      | .deny reason => denyJoin sender req.groupId reason

/-- Surface a refusal. -/
def handleJoinDenied (sender : String) (plaintext : Bytes) : Client Unit := do
  let denied ← lift (JoinDenied.fromSlice plaintext)
  emit (.info ("could not join group (from " ++ sender ++ "): " ++ denied.reason))

end Client

end

end Cherm
