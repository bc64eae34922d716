/-
**The command task: the identity, and the commands as a whole.**

`register` and `connect` open a connection, prove who we are and publish one-time keys; a backup is
written with `exportIdentity` and read with `importIdentity`. `Command` and `handle` list the
commands that touch a vault.
-/

import Cherm.Client.Moderation

namespace Cherm

open Crates

/-- The text after the first occurrence of another one, or the text itself. -/
def afterFirst (marker : List Char) : List Char → Option (List Char)
  | [] => none
  | c :: rest =>
      if marker.isPrefixOf (c :: rest) then some ((c :: rest).drop marker.length)
      else afterFirst marker rest

/-- Strip the scheme and the path of an address, and add the default port. -/
def normalizeAddr (s : String) : String :=
  let text := trim s.toList
  let text := (afterFirst "://".toList text).getD text
  let text := trim (text.takeWhile fun c => c ≠ '/' && c ≠ '?' && c ≠ '#')
  if !text.isEmpty && !text.contains ':' then String.ofList text ++ ":9000" else String.ofList text

section

variable [Crates]

namespace Client

def clientHello (app : App) : ClientMsg := .clientHello app.buildHash clientVersion

def toOtks (otks : List (String × String)) : List OneTimeKey :=
  otks.map fun (keyId, curve25519) => ⟨keyId, curve25519⟩

/-- Open a connection; false, after an error event, if that fails. -/
def openLink (server : String) : Client Bool := do
  match ← Prog.query (Ask.connect server) with
  | .ok _ => return true
  | .error e =>
      emit (.error "connect_failed" e)
      return false

/-- Replenish the one-time keys: the ones to publish, and the account that holds them. -/
def replenish (device : Device) : Client (Device × List OneTimeKey) := do
  let seed ← random
  let (device, otks) := device.generateOneTimeKeys prekeyBatch seed
  let device := device.markPublished
  call (.saveAccount device)
  return (device, toOtks otks)

/-- Go live: publish the keys, fetch what is waiting, store the index. -/
def goLive (otks : List OneTimeKey) : Client Unit := do
  let _ ← (request (.publishPrekeys otks)).attempt
  let _ ← (post .pull).attempt
  lift (← Prog.query Ask.saveIndex)

/-- `register`: create an identity on a server and go live. -/
def register (app : App) (addr username : String) : Client Unit := do
  let server := normalizeAddr addr
  if !validUsername username then
    emit (.error ErrCode.usernameInvalid "username must be 1-16 alphanumeric characters")
    return ()
  if isReservedUsername username then
    emit (.error ErrCode.usernameReserved "that username is reserved for system use")
    return ()
  let device : Device ← match ← call .loadAccount with
    | some device => pure device
    | none => do
        let seed ← random
        call (.saveAccount (Device.generate seed))
        pure (Device.generate seed)
  if !(← openLink server) then return ()
  let _ ← (request (clientHello app)).attempt
  match ← request (.register username device.ed25519B64 device.curve25519B64 app.machineId) with
  | .authOk uuid uname =>
      call (.metaSet "username" uname)
      call (.metaSet "uuid" uuid)
      call (.metaSet "server" server)
      call (.upsertContact uname uuid device.ed25519B64 device.curve25519B64)
      let (device, otks) ← replenish device
      match ← Prog.query (Ask.writeBackup server uname uuid device) with
      | .ok path => emit (.info ("identity backed up to " ++ path ++ " (keep it safe)"))
      | .error _ => pure ()
      goLive otks
      emit (.registered server uname uuid)
      emit (.connected server uname)
      emitChats server
      emit .servers
  | .error code message => emit (.error code message)
  | other => emit (.error "internal" ("unexpected register reply: " ++ debugText other))

/-- The challenge of `connect`, as bytes; `none` after an error event. -/
def challengeNonce (username : String) : Client (Option Bytes) := do
  match ← request (.authBegin username) with
  | .challenge nonce =>
      match b64Decode nonce with
      | .ok bytes => return some bytes
      | .error e =>
          emit (.error "internal" ("bad challenge nonce: " ++ e))
          return none
  | .error code message =>
      emit (.error code message)
      return none
  | other =>
      emit (.error "internal" ("unexpected challenge: " ++ debugText other))
      return none

/-- The answer to the challenge: uuid and username; `none` after an error event. -/
def authenticate (device : Device) (username : String) (nonce : Bytes) :
    Client (Option (String × String)) := do
  match ← request (.authFinish username (device.signB64 nonce)) with
  | .authOk uuid uname => return some (uuid, uname)
  | .error code message =>
      emit (.error code message)
      return none
  | other =>
      emit (.error "internal" ("unexpected auth reply: " ++ debugText other))
      return none

/-- `connect`: log in with the stored identity and go live. -/
def connect (app : App) (addr : String) : Client Unit := do
  let server := normalizeAddr addr
  match ← call (.metaGet "username") with
  | none => emit (.needUsername server)
  | some username =>
      match ← call .loadAccount with
      | none => emit (.error "internal" "username present but no device in vault")
      | some device =>
          if !(← openLink server) then return ()
          let _ ← (request (clientHello app)).attempt
          let some nonce ← challengeNonce username | return ()
          let some (uuid, uname) ← authenticate device username nonce | return ()
          call (.metaSet "uuid" uuid)
          call (.metaSet "server" server)
          let (_, otks) ← replenish device
          goLive otks
          emit (.connected server uname)
          emitChats server
          emit .servers

/-- `switch_server`: show the chats of a server, connecting if needed. -/
def switchServer (app : App) (addr : String) : Client Unit := do
  let server := normalizeAddr addr
  if app.linked then
    emitChats server
    emit .servers
  else if (← call (.metaGet "username")).isSome then connect app server
  else
    emit (.needUsername server)
    emitChats server
    emit .servers

/-- `export_identity`. -/
def exportIdentity (app : App) : Client Unit := do
  let some server ← activeServer app | return ()
  let some username ← ownUsername | return ()
  let uuid := (← call (.metaGet "uuid")).getD ""
  match ← call .loadAccount with
  | none => emit (.error "internal" "no identity in vault")
  | some device =>
      match ← Prog.query (Ask.writeBackup server username uuid device) with
      | .ok path =>
          emit (.info ("identity '" ++ username ++ "' exported to " ++ path ++
            " — keep it safe; it is your private key"))
      | .error e => emit (.error "export_failed" e)

/-- `import_identity`: restore an identity from a backup. -/
def importIdentity (path : String) : Client Unit := do
  match ← Prog.query (Ask.readFile path) with
  | .error e => emit (.error "import_failed" ("cannot read " ++ path ++ ": " ++ e))
  | .ok data =>
      match fromSlice (utf8 data) with
      | .error e => emit (.error "import_failed" ("invalid identity file: " ++ e))
      | .ok v =>
          let field (name : String) : String := ((v.index name).asStr).getD ""
          let server := normalizeAddr (field "server")
          let username := field "username"
          let account := field "account"
          if server.isEmpty || username.isEmpty || account.isEmpty then
            emit (.error "import_failed" "incomplete identity file")
            return ()
          match accountFromJson account with
          | .error e => emit (.error "import_failed" ("bad identity key: " ++ e))
          | .ok account =>
              let device : Device := account
              call (.saveAccount device)
              call (.metaSet "username" username)
              call (.metaSet "server" server)
              let uuid := field "uuid"
              if !uuid.isEmpty then call (.metaSet "uuid" uuid)
              call (.upsertContact username uuid device.ed25519B64 device.curve25519B64)
              lift (← Prog.query Ask.saveIndex)
              emit (.info ("identity '" ++ username ++ "' imported on " ++ server ++
                " — select it and Connect to log in"))
              emit .servers

/-- `ping`. -/
def ping (app : App) : Client Unit := do
  let some server ← activeServer app | return ()
  if !(← activeLink app) then return ()
  let start ← now
  let reply ← request .ping
  let finish ← now
  match reply with
  | .pong => emit (.pong (finish - start) server)
  | other => emit (.error "internal" ("unexpected ping reply: " ++ debugText other))

/-- `list_chats`. -/
def listChats (app : App) : Client Unit := do
  let some server ← activeServer app | return ()
  emitChats server

/-- `history`. -/
def history (app : App) (chat : String) (limit : Int) : Client Unit := do
  let some _ ← activeServer app | return ()
  emitHistory chat limit

end Client

end

/-! ### The commands -/

/-- The user commands that work on a vault. -/
inductive Command where
  | connect (server : String)
  | register (server username : String)
  | switchServer (server : String)
  | listChats
  | history (chat : String) (limit : Option Int)
  | startDm (username : String)
  | createGroup (name : String) (members : List String) (accessMode : Option String)
  | setAccess (group mode : String)
  | joinGroup (group key owner : String)
  | inviteMember (group username : String)
  | acceptMember (group username : String)
  | removeMember (group username : String)
  | banMember (group username : String)
  | unbanMember (group username : String)
  | unsuspendMember (group username : String)
  | suspendMember (group username duration : String)
  | groupInfo (group : String)
  | send (chat text : String)
  | leaveChat (chat : String)
  | ping
  | exportIdentity
  | importIdentity (path : String)
deriving DecidableEq, Repr

section

variable [Crates]

namespace Client

/-- Dispatch a command. -/
def handle (app : App) : Command → Client Unit
  | .connect server => connect app server
  | .register server username => register app server username
  | .switchServer server => switchServer app server
  | .listChats => listChats app
  | .history chat limit => history app chat (limit.getD 200)
  | .startDm username => startDm app username
  | .createGroup name members accessMode => createGroup app name members accessMode
  | .setAccess group mode => setAccess app group mode
  | .joinGroup group key owner => joinGroup app group key owner
  | .inviteMember group username => inviteMember app group username
  | .acceptMember group username => acceptMember app group username
  | .removeMember group username => removeMember app group username
  | .banMember group username => banMember app group username
  | .unbanMember group username => unbanMember app group username
  | .unsuspendMember group username => unsuspendMember app group username
  | .suspendMember group username duration => suspendMember app group username duration
  | .groupInfo group => groupInfo app group
  | .send chat text => send app chat text
  | .leaveChat chat => leaveChat app chat
  | .ping => ping app
  | .exportIdentity => exportIdentity app
  | .importIdentity path => importIdentity path

/-- One round of the command loop: an error ends the command, not the loop. -/
def runCommand (app : App) (command : Command) : Client Unit := do
  match ← (handle app command).attempt with
  | .ok _ => return ()
  | .error e => emit (.error "internal" e)

end Client

end

end Cherm
