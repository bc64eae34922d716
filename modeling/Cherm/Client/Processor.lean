/-
**The processor: what a client does with a delivered frame.**

`processOne` dispatches on the kind the frame claims to be. The kind, the sender and the group id
are what the relay says; only the ciphertext is the sender's. `processFrame` is one round of the
processor loop: an error ends the frame, not the loop.
-/

import Cherm.Client.Net

namespace Cherm

open Crates

/-- Whether a share may write the group's metadata: the recorded owner's, or a first share from the
owner it names. -/
def ownerShare (isNew : Bool) (existing : Option GroupMeta) (shareOwner sender : String) : Bool :=
  match isNew, existing with
  | true, none => !shareOwner.isEmpty && shareOwner = sender
  | false, some row => !row.owner.isEmpty && row.owner = sender
  | _, _ => false

/-- In a chat that exists, the recorded owner. -/
theorem ownerShare_old {existing : Option GroupMeta} {shareOwner sender : String}
    (owner : ownerShare false existing shareOwner sender = true) :
    ∃ row, existing = some row ∧ row.owner ≠ "" ∧ row.owner = sender := by
  cases existing with
  | none => cases owner
  | some row =>
      simp only [ownerShare, Bool.and_eq_true, Bool.not_eq_true', decide_eq_true_eq] at owner
      exact ⟨row, rfl, mt String.isEmpty_iff.mpr (Bool.eq_false_iff.mp owner.1), owner.2⟩

section

variable [Crates]

namespace Client

/-- Materialize a DM chat for an incoming text and surface it. -/
def deliverDmText (ctx : ProcCtx) (sender : String) (plaintext : Bytes) (clientTs : Int) :
    Client Unit := do
  let text ← okOr (fromUtf8 plaintext) (utf8Error plaintext)
  let newChat := !(← call (.chatExists sender))
  upsertChat sender "dm" sender
  call (.addMember sender ctx.me)
  call (.addMember sender sender)
  insertMessage sender sender text clientTs false
  if newChat then emitChats ctx.addr
  emit (.message sender sender text clientTs false false)
  emitFingerprint sender

/-- What the owner's share says of the group: the chat, the roster and, with a key, the metadata. -/
def learnGroup (sender : String) (share : GroupKeyShare) : Client Unit := do
  upsertChat share.groupId "group" share.name
  Prog.forEach share.members fun m => call (.addMember share.groupId m)
  if validGroupKey share.groupKey then
    let mode := if AccessMode.valid share.accessMode then share.accessMode else AccessMode.open
    call (.upsertGroupMeta share.groupId share.groupKey mode sender)

/-- Store an admitted share: the inbound session and, from the owner, the group itself. -/
def storeShare (ctx : ProcCtx) (sender : String) (share : GroupKeyShare) (isNew byOwner : Bool) :
    Client Unit := do
  let receiver ← lift (GroupReceiver.fromSessionKeyB64 share.sessionKey)
  call (.saveGroupIn share.groupId sender receiver)
  if byOwner then learnGroup sender share
  else if isNew then return ()
  emitChats ctx.addr
  if isNew then emit (.info ("added to group " ++ share.name))

/-- Accept a session key, if its sender may share one for the group. -/
def handleGroupKeyShare (ctx : ProcCtx) (sender : String) (plaintext : Bytes) : Client Unit := do
  let share ← lift (GroupKeyShare.fromSlice plaintext)
  if ← call (.isBanned share.groupId sender) then return ()
  let now ← now
  if ← isSuspended share.groupId sender now then return ()
  let isNew := !(← call (.chatExists share.groupId))
  let existing ← call (.getGroupMeta share.groupId)
  let senderIsMember ← if isNew then pure false else call (.isMember share.groupId sender)
  let byOwner := ownerShare isNew existing share.owner sender
  if isNew && !byOwner then return ()
  if !isNew && !byOwner && !senderIsMember then return ()
  storeShare ctx sender share isNew byOwner

/-- Read a Megolm frame with the session its sender shared for the group. The check of the content
and of the replay guard, and the saving of the session, are the caller's. `none` after an error
event if there is no session yet. -/
def openMegolm (groupId sender payload : String) :
    Client (Option (Bytes × Nat × GroupReceiver)) := do
  match ← call (.loadGroupIn groupId sender) with
  | none =>
      emit (.error "decrypt_pending" ("no inbound session for group " ++ groupId ++ " from " ++
        sender ++ " yet"))
      return none
  | some receiver =>
      let body ← lift (b64Decode payload)
      let opened ← lift (receiver.decrypt body)
      return some opened

/-- The replay guard of a Megolm frame; a fresh one stores the advanced session. -/
def acceptMegolm (groupId sender : String) (idx : Nat) (receiver : GroupReceiver) :
    Client Bool := do
  if ← call (.megolmAccept groupId sender receiver.sessionId idx) then
    call (.saveGroupIn groupId sender receiver)
    return true
  return false

/-- A group message. -/
def processMegolm (sender groupId payload : String) (clientTs : Int) : Client Unit := do
  match ← openMegolm groupId sender payload with
  | none => return ()
  | some (plaintext, idx, receiver) =>
      if !(← acceptMegolm groupId sender idx receiver) then return ()
      let text ← okOr (fromUtf8 plaintext) (utf8Error plaintext)
      insertMessage groupId sender text clientTs false
      emit (.message groupId sender text clientTs false false)

/-- A leave notice of a group: only the sentinel counts, and it comes before the replay guard. -/
def processMegolmSystem (sender groupId payload : String) (clientTs : Int) : Client Unit := do
  match ← openMegolm groupId sender payload with
  | none => return ()
  | some (plaintext, idx, receiver) =>
      if plaintext ≠ leftSentinel then return ()
      if !(← acceptMegolm groupId sender idx receiver) then return ()
      call (.removeMember groupId sender)
      deliverSystem groupId sender clientTs

/-- Drop someone else from the roster, and forget the session; a ban or a suspension is mirrored. -/
def dropMember (groupId : String) (event : GroupEvent) (clientTs : Int) : Client Unit := do
  call (.removeMember groupId event.who)
  call (.deleteGroupIn groupId event.who)
  match event.kind with
  | "banned" => call (.banUser groupId event.who clientTs)
  | "suspended" =>
      match event.until with
      | some deadline => call (.suspendUser groupId event.who deadline)
      | none => return ()
  | _ => return ()

/-- Apply an event of the owner. True if the group is gone: nothing more is shown in it. -/
def applyGroupEvent (ctx : ProcCtx) (groupId : String) (event : GroupEvent) (clientTs : Int) :
    Client Bool := do
  match event.kind with
  | "joined" =>
      call (.unbanUser groupId event.who)
      call (.clearSuspension groupId event.who)
      call (.addMember groupId event.who)
      return false
  | "removed" | "banned" | "suspended" =>
      if event.who = ctx.me then
        if event.kind = "suspended" then
          emit (.info "you were suspended from a group")
          return false
        call (.deleteChat groupId)
        emitChats ctx.addr
        emit (.info ("you were " ++ event.kind ++ " from a group"))
        return true
      dropMember groupId event clientTs
      return false
  | "access" =>
      match event.mode with
      | some mode => if AccessMode.valid mode then call (.setAccessMode groupId mode)
      | none => pure ()
      return false
  | _ => return false

/-- A moderation or membership event. Only the recorded owner's count. -/
def processGroupEvent (ctx : ProcCtx) (sender groupId payload : String) (clientTs : Int) :
    Client Unit := do
  match ← openMegolm groupId sender payload with
  | none => return ()
  | some (plaintext, idx, receiver) =>
      if !(← acceptMegolm groupId sender idx receiver) then return ()
      let row ← call (.getGroupMeta groupId)
      let ownerOk := row.elim false fun row => !row.owner.isEmpty && row.owner = sender
      if !ownerOk then return ()
      let event ← lift (GroupEvent.fromSlice plaintext)
      if ← applyGroupEvent ctx groupId event clientTs then return ()
      emitGroupEvent groupId event.kind event.who (event.mode.getD "") clientTs
      emitChats ctx.addr

/-- The group id a Megolm frame must carry. -/
def frameGroup (inc : Incoming) (missing : String) : Client String := okOr inc.groupId missing

/-- Process one delivered frame. -/
def processOne (ctx : ProcCtx) (inc : Incoming) : Client Unit := do
  match inc.msgType with
  | "olm" =>
      let plaintext ← obtainOlmPlaintext inc.from inc.payload
      deliverDmText ctx inc.from plaintext inc.clientTs
  | "olm_group_key" =>
      let plaintext ← obtainOlmPlaintext inc.from inc.payload
      handleGroupKeyShare ctx inc.from plaintext
  | "megolm" =>
      let groupId ← frameGroup inc "megolm frame missing group_id"
      processMegolm inc.from groupId inc.payload inc.clientTs
  | "olm_system" =>
      let plaintext ← obtainOlmPlaintext inc.from inc.payload
      if plaintext = leftSentinel then deliverSystem inc.from inc.from inc.clientTs
  | "megolm_system" =>
      let groupId ← frameGroup inc "megolm_system missing group_id"
      processMegolmSystem inc.from groupId inc.payload inc.clientTs
  | "group_join" =>
      let plaintext ← obtainOlmPlaintext inc.from inc.payload
      handleJoinRequest ctx inc.from plaintext inc.clientTs
  | "group_join_denied" =>
      let plaintext ← obtainOlmPlaintext inc.from inc.payload
      handleJoinDenied inc.from plaintext
  | "group_event" =>
      let groupId ← frameGroup inc "group_event missing group_id"
      processGroupEvent ctx inc.from groupId inc.payload inc.clientTs
  | _ => return ()

/-- One round of the processor loop. -/
def processFrame (ctx : ProcCtx) (inc : Incoming) : Client Unit := do
  match ← (processOne ctx inc).attempt with
  | .ok _ => return ()
  | .error e => emit (.error "decrypt_failed" e)

/-- The end of a round. -/
def roundEnd : Except String Unit → Client Unit
  | .ok _ => return ()
  | .error e => emit (.error "decrypt_failed" e)

theorem processFrame_eq (ctx : ProcCtx) (inc : Incoming) :
    processFrame ctx inc = (processOne ctx inc).attempt.bind roundEnd := by
  rw [processFrame, Prog.bind_eq]
  congr 1

/-- The requests of a round are those of its frame. -/
theorem processFrame_moves {step : Prog.Step Vault Ask Ask.Answer} {ctx : ProcCtx} {inc : Incoming}
    {prog : Client Unit} {v v' : Vault}
    (moves : Relation.ReflTransGen (Prog.Moves step) (processOne ctx inc, v) (prog, v')) :
    Relation.ReflTransGen (Prog.Moves step) (processFrame ctx inc, v)
    (prog.attempt.bind roundEnd, v') := by
  rw [processFrame_eq]
  exact moves.lift (fun state => (state.1.attempt.bind roundEnd, state.2))
    fun _ _ moved => moved.attempt.bind roundEnd

end Client

end

end Cherm
