/-
**The command task: chats.**

Each handler works on the vault of one server. `App` is what it reads of the engine's own state:
which server is active, and whether it has a live link. The server index and the plug-ins are not
here. The handlers of this file open chats, write to them and leave them: `startDm`, `createGroup`,
`send`, `leaveChat`. Group access control and the identity have files of their own.
-/

import Cherm.Client.Net

namespace Cherm

open Crates

/-- What the commands read of the engine's state. -/
structure App where
  active : Option String
  linked : Bool
  machineId : String
  buildHash : String

def prekeyBatch : Nat := 20

def clientVersion : String := "0.1.1"

/-- The candidates for a group key, eight random characters each. -/
def groupKeyCandidates (seed : Seed) (attempt : Nat) : String :=
  genGroupKey (seed / groupKeyCharset.length ^ (groupKeyLen * attempt))

section

variable [Crates]

namespace Client

/-! ### Preambles -/

/-- The active server, or the error event. -/
def activeServer (app : App) : Client (Option String) := do
  match app.active with
  | some addr => return some addr
  | none =>
      emit (.error "not_connected" "no active server")
      return none

/-- Our username, or the error event. -/
def ownUsername : Client (Option String) := do
  match ← call (.metaGet "username") with
  | some me => return some me
  | none =>
      emit (.error "not_registered" "register first")
      return none

/-- Whether there is a live link; if not, the error event. -/
def activeLink (app : App) : Client Bool := do
  if app.active.isSome && app.linked then return true
  emit (.error "not_connected" "not connected")
  return false

/-- Kind and title of a chat, or the error event. -/
def knownChat (chat : String) : Client (Option (String × String)) := do
  match ← call (.getChat chat) with
  | some row => return some row
  | none =>
      emit (.error "no_such_chat" ("unknown chat " ++ chat))
      return none

def emitHistory (chat : String) (limit : Int) : Client Unit := do
  let messages ← call (.getMessages chat limit)
  emit (.history chat messages)

/-! ### Chats -/

/-- The session of `start_dm`: the stored one, or a new one from the peer's bundle, stored at once.
False, after an event, if there is none. -/
def startDmSession (username : String) : Client Bool := do
  if (← call (.loadOlm username)).isSome then return true
  match ← request (.fetchPrekeys username) with
  | .prekeyBundle bundle =>
      match bundle.oneTimeKey with
      | none =>
          emit (.error ErrCode.noPrekeys (bundle.username ++ " has no one-time keys available"))
          return false
      | some otk =>
          if !(← acceptIdentity bundle.username bundle.uuid bundle.ed25519 bundle.curve25519) then
            return false
          let device : Device ← okOr (← call .loadAccount) "no device identity"
          let seed ← random
          let session ← lift (device.startSession bundle.curve25519 otk seed)
          call (.saveOlm username session)
          return true
  | .error code message =>
      emit (.error code message)
      return false
  | other =>
      emit (.error "internal" ("unexpected prekey reply: " ++ debugText other))
      return false

/-- The DM chat of `start_dm`, shown to the user. -/
def openDm (server me username : String) : Client Unit := do
  upsertChat username "dm" username
  call (.addMember username me)
  call (.addMember username username)
  emitFingerprint username
  emitChats server
  emitHistory username 200
  emit (.openChat username)

/-- `start_dm`: a session to the peer and a DM chat. -/
def startDm (app : App) (username : String) : Client Unit := do
  let some server ← activeServer app | return ()
  let some me ← ownUsername | return ()
  if username = me then
    emit (.error "self_dm" "you can't start a chat with yourself")
    return ()
  if !(← activeLink app) then return ()
  if !(← startDmSession username) then return ()
  openDm server me username

/-- Self first, then the members, without repetition. -/
def rosterOf (me : String) (members : List String) : List String :=
  members.foldl (fun roster m => if m ≠ me && !roster.contains m then roster ++
  [m] else roster) [me]

/-- `create_group`: the room, its key, and a share for every member. -/
def createGroup (app : App) (name : String) (members : List String) (accessMode : Option String) :
    Client Unit := do
  let some server ← activeServer app | return ()
  let some me ← ownUsername | return ()
  let mode := accessMode.getD AccessMode.open
  if !AccessMode.valid mode then
    emit (.error "bad_access_mode" "access mode must be open, approval or invite_only")
    return ()
  if !(← activeLink app) then return ()
  let seed ← random
  let sender := GroupSender.new seed
  let uuid ← random
  let groupId := uuidText uuid
  call (.saveGroupOut groupId sender)
  let roster := rosterOf me members
  upsertChat groupId "group" name
  Prog.forEach roster fun m => call (.addMember groupId m)
  let draw ← random
  let key ← lift (← call (.createGroupRow groupId mode me (groupKeyCandidates draw)))
  distributeGroupKey me groupId name roster sender
  emitChats server
  emit (.info ("group \"" ++ name ++ "\" created — invite key " ++ key ++ " (mode: " ++ mode ++
    ")"))
  emit (.openChat groupId)

/-- `send`: encrypt for the chat, hand over, store our plaintext, echo. -/
def send (app : App) (chat text : String) : Client Unit := do
  let some _ ← activeServer app | return ()
  let some me ← ownUsername | return ()
  let some (kind, title) ← knownChat chat | return ()
  if !(← activeLink app) then return ()
  let now ← now
  match kind with
  | "dm" =>
      match ← call (.loadOlm chat) with
      | none =>
          emit (.error "no_session" "no Olm session; start_dm first")
          return ()
      | some session => postOlm session chat MsgType.olm (utf8 text) none now
  | "group" =>
      let sender ← groupSender chat fun sender => do
        let roster ← call (.getMembers chat)
        distributeGroupKey me chat title roster sender
      let (bytes, sender) := sender.encrypt (utf8 text)
      call (.saveGroupOut chat sender)
      let members ← call (.getMembers chat)
      post (.send ⟨members.filter (· ≠ me), MsgType.megolm, b64Encode bytes, some chat, now⟩)
  | other =>
      emit (.error ErrCode.badRequest ("unknown chat kind " ++ other))
      return ()
  insertMessage chat me text now true
  emit (.message chat me text now true false)

/-- The notice of `leave_chat`, for a known kind of chat. -/
def leaveNotice (app : App) (me chat kind title : String) (now : Int) : Client Unit := do
  if !(app.active.isSome && app.linked) then return ()
  if kind = "dm" then
    match ← call (.loadOlm chat) with
    | none => return ()
    | some session =>
        let seed ← random
        let ((olmType, body), session) ← lift (session.encrypt leftSentinel seed)
        call (.saveOlm chat session)
        let _ ← (post (.send ⟨[chat], MsgType.olmSystem, encodeOlm olmType body, none,
          now⟩)).attempt
  else
    let members ← call (.getMembers chat)
    let sender ← groupSender chat fun sender => distributeGroupKey me chat title members sender
    let (bytes, sender) := sender.encrypt leftSentinel
    call (.saveGroupOut chat sender)
    let _ ← (post (.send ⟨members.filter (· ≠ me), MsgType.megolmSystem, b64Encode bytes,
      some chat, now⟩)).attempt

/-- `leave_chat`: tell the others, then delete the chat. -/
def leaveChat (app : App) (chat : String) : Client Unit := do
  let some server ← activeServer app | return ()
  let some me ← ownUsername | return ()
  let some (kind, title) ← knownChat chat | return ()
  let now ← now
  if kind ≠ "dm" && kind ≠ "group" then
    emit (.error ErrCode.badRequest ("unknown chat kind " ++ kind))
    return ()
  leaveNotice app me chat kind title now
  call (.deleteChat chat)
  emitChats server
  emit (.info ("left " ++ chat ++
    if app.linked then "" else " (offline — peers not notified)"))

end Client

end

end Cherm
