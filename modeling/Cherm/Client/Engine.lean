/-
**The engine: the commands that open and close connections.**

These commands work on the engine as well as on a vault. A `Deed` is one step of the engine: it
ensures that a server is there, starts the reader and the processor of a connection, aborts a
reader, stores a link. The requests of `Ask` are made on the vault of a server, and some over a
connection.

* `Engine.register`, `Engine.connect`, `Engine.switchServer`, `Engine.removeServer`,
  `Engine.importIdentity` are the commands as the engine runs them, `Engine.runCommand` is one round
  of its loop.
* Without the deeds they are the handlers of the command task: `erase_register`, `erase_connect`,
  `erase_switchServer`, `erase_importIdentity`.

The index of the servers, the active server and the plug-ins are not here.
-/

import Cherm.Client.Account
import Cherm.Lib.Handler

namespace Cherm

open Crates

/-- The file of a vault: the address of its server, and how many vaults of that server were deleted
before. -/
abbrev VaultId := String × Nat

/-- A connection, in the order in which they were opened. -/
abbrev Handle := Nat

/-- The steps of the engine. -/
inductive Deed where
  | ensureServer (server : String)
  | vaultOf (server : String)
  | pruneDeadLinks
  | hasLink (server : String)
  | teardownLink (server : String)
  | spawnReader (vault : VaultId) (me addr : String)
  | abort (conn : Handle)
  | storeLink (server : String) (conn : Handle)
  | forgetServer (server : String)
  | removeDir (server : String)

@[reducible] def Deed.Answer : Deed → Type
  | ensureServer _ => Except String Unit
  | vaultOf _ => VaultId
  | hasLink _ => Bool
  | spawnReader .. => Handle
  | _ => Unit

section

variable [Crates]

/-- The requests of the engine's tasks: on a vault, over a connection if there is one, or before a
vault is at hand. -/
inductive EngineAsk where
  | on (vault : VaultId) (conn : Option Handle) (asked : Ask)
  | bare (asked : Ask)
  | deed (step : Deed)

@[reducible] def EngineAsk.Answer : EngineAsk → Type
  | on _ _ asked => asked.Answer
  | bare asked => asked.Answer
  | deed step => step.Answer

/-- A program of one of the engine's tasks. -/
abbrev Engine (α : Type) := Prog EngineAsk EngineAsk.Answer String α

namespace Engine

/-- A request on a vault, and over a connection. -/
def askOn (vault : VaultId) (conn : Option Handle) (asked : Ask) : Engine asked.Answer :=
  Prog.query (EngineAsk.on vault conn asked)

/-- A request before a vault is at hand. -/
def askBare (asked : Ask) : Engine asked.Answer := Prog.query (EngineAsk.bare asked)

/-- A program of a task on a vault and a connection. -/
def within {α : Type} (vault : VaultId) (conn : Option Handle) (prog : Client α) : Engine α :=
  Prog.interpret (askOn vault conn) prog

def bare {α : Type} (prog : Client α) : Engine α := Prog.interpret askBare prog

def deed (step : Deed) : Engine step.Answer := Prog.query (EngineAsk.deed step)

def ensureServer (server : String) : Engine Unit :=
  (deed (.ensureServer server)).bind Prog.ofExcept

/-! ### The commands -/

/-- The stored device, or a new one. -/
def ensureDevice : Client Device := do
  match ← Client.call .loadAccount with
  | some device => pure device
  | none => do
      let seed ← Client.random
      Client.call (.saveAccount (Device.generate seed))
      pure (Device.generate seed)

/-- What `register` stores once the relay has accepted it: the keys to publish. -/
def keepIdentity (server uname uuid : String) (device : Device) : Client (List OneTimeKey) := do
  Client.call (.metaSet "username" uname)
  Client.call (.metaSet "uuid" uuid)
  Client.call (.metaSet "server" server)
  Client.call (.upsertContact uname uuid device.ed25519B64 device.curve25519B64)
  let (device, otks) ← Client.replenish device
  match ← Prog.query (Ask.writeBackup server uname uuid device) with
  | .ok path => Client.emit (.info ("identity backed up to " ++ path ++ " (keep it safe)"))
  | .error _ => pure ()
  return otks

/-- The events of a new account. -/
def announce (server uname uuid : String) : Client Unit := do
  Client.emit (.registered server uname uuid)
  Client.emit (.connected server uname)
  Client.emitChats server
  Client.emit .servers

/-- `register`, once there is a device. -/
def claimName (app : App) (server username : String) (vault : VaultId) (device : Device) :
    Engine Unit := do
  deed (.teardownLink server)
  if !(← within vault none (Client.openLink server)) then return ()
  let conn ← deed (.spawnReader vault username server)
  let _ ← within vault conn (Client.request (Client.clientHello app)).attempt
  match ← within vault conn (Client.request
      (.register username device.ed25519B64 device.curve25519B64 app.machineId)) with
  | .authOk uuid uname =>
      let otks ← within vault conn (keepIdentity server uname uuid device)
      deed (.storeLink server conn)
      within vault conn (Client.goLive otks)
      within vault conn (announce server uname uuid)
  | .error code message =>
      deed (.abort conn)
      within vault conn (Client.emit (.error code message))
  | other =>
      deed (.abort conn)
      within vault conn
        (Client.emit (.error "internal" ("unexpected register reply: " ++ debugText other)))

/-- `register`. -/
def register (app : App) (addr username : String) : Engine Unit := do
  let server := normalizeAddr addr
  if !validUsername username then
    bare (Client.emit (.error ErrCode.usernameInvalid
    "username must be 1-16 alphanumeric characters"))
    return ()
  if isReservedUsername username then
    bare (Client.emit (.error ErrCode.usernameReserved "that username is reserved for system use"))
    return ()
  ensureServer server
  let vault ← deed (.vaultOf server)
  let device : Device ← within vault none ensureDevice
  claimName app server username vault device

/-- Give the connection up: the reader is aborted, and the user sees why. -/
def giveUp {α : Type} (vault : VaultId) (conn : Handle) (code message : String) :
    Engine (Option α) := do
  deed (.abort conn)
  within vault conn (Client.emit (.error code message))
  return none

/-- The challenge of `connect`, as bytes; `none` if the connection was given up. -/
def challengeNonce (vault : VaultId) (conn : Handle) (username : String) :
    Engine (Option Bytes) := do
  match ← within vault conn (Client.request (.authBegin username)) with
  | .challenge nonce =>
      match b64Decode nonce with
      | .ok bytes => return some bytes
      | .error e => giveUp vault conn "internal" ("bad challenge nonce: " ++ e)
  | .error code message => giveUp vault conn code message
  | other => giveUp vault conn "internal" ("unexpected challenge: " ++ debugText other)

/-- The answer to the challenge: uuid and username; `none` if the connection was given up. -/
def authenticate (vault : VaultId) (conn : Handle) (device : Device) (username : String)
    (nonce : Bytes) : Engine (Option (String × String)) := do
  match ← within vault conn (Client.request (.authFinish username (device.signB64 nonce))) with
  | .authOk uuid uname => return some (uuid, uname)
  | .error code message => giveUp vault conn code message
  | other => giveUp vault conn "internal" ("unexpected auth reply: " ++ debugText other)

/-- What `connect` stores once it is logged in: the keys to publish. -/
def renewKeys (server uuid : String) (device : Device) : Client (List OneTimeKey) := do
  Client.call (.metaSet "uuid" uuid)
  Client.call (.metaSet "server" server)
  let (_, otks) ← Client.replenish device
  return otks

/-- The events of a new connection. -/
def greet (server uname : String) : Client Unit := do
  Client.emit (.connected server uname)
  Client.emitChats server
  Client.emit .servers

/-- `connect`. -/
def connect (app : App) (addr : String) : Engine Unit := do
  let server := normalizeAddr addr
  ensureServer server
  let vault ← deed (.vaultOf server)
  match ← within vault none (Client.call (.metaGet "username")) with
  | none => within vault none (Client.emit (.needUsername server))
  | some username =>
      match ← within vault none (Client.call .loadAccount) with
      | none =>
          within vault none (Client.emit (.error "internal"
          "username present but no device in vault"))
      | some device =>
          deed (.teardownLink server)
          if !(← within vault none (Client.openLink server)) then return ()
          let conn ← deed (.spawnReader vault username server)
          let _ ← within vault conn (Client.request (Client.clientHello app)).attempt
          let some nonce ← challengeNonce vault conn username | return ()
          let some (uuid, uname) ← authenticate vault conn device username nonce | return ()
          let otks ← within vault conn (renewKeys server uuid device)
          deed (.storeLink server conn)
          within vault conn (Client.goLive otks)
          within vault conn (greet server uname)

/-- `switch_server`. -/
def switchServer (app : App) (addr : String) : Engine Unit := do
  let server := normalizeAddr addr
  ensureServer server
  deed .pruneDeadLinks
  let linked ← deed (.hasLink server)
  let vault ← deed (.vaultOf server)
  if linked then
    within vault none (do Client.emitChats server; Client.emit .servers)
  else if (← within vault none (Client.call (.metaGet "username"))).isSome then
    connect app server
  else
    within vault none (do
      Client.emit (.needUsername server)
      Client.emitChats server
      Client.emit .servers)

/-- `remove_server`: the link, the entry and the vault. -/
def removeServer (addr : String) : Engine Unit := do
  let server := normalizeAddr addr
  deed (.forgetServer server)
  bare (do Client.lift (← Prog.query Ask.saveIndex))
  deed (.removeDir server)
  bare (do
    Client.emit (.info ("removed server " ++ server))
    Client.emit .servers)

/-- What `import_identity` stores of the identity file. -/
def storeImport (server username uuid : String) (device : Device) : Client Unit := do
  Client.call (.saveAccount device)
  Client.call (.metaSet "username" username)
  Client.call (.metaSet "server" server)
  if !uuid.isEmpty then Client.call (.metaSet "uuid" uuid)
  Client.call (.upsertContact username uuid device.ed25519B64 device.curve25519B64)
  Client.lift (← Prog.query Ask.saveIndex)
  Client.emit (.info ("identity '" ++ username ++ "' imported on " ++ server ++
    " — select it and Connect to log in"))
  Client.emit .servers

/-- `import_identity`. -/
def importIdentity (path : String) : Engine Unit := do
  match ← bare (Prog.query (Ask.readFile path)) with
  | .error e => bare (Client.emit (.error "import_failed" ("cannot read " ++ path ++ ": " ++ e)))
  | .ok data =>
      match fromSlice (utf8 data) with
      | .error e => bare (Client.emit (.error "import_failed" ("invalid identity file: " ++ e)))
      | .ok v =>
          let field (name : String) : String := ((v.index name).asStr).getD ""
          let server := normalizeAddr (field "server")
          let username := field "username"
          let account := field "account"
          if server.isEmpty || username.isEmpty || account.isEmpty then
            bare (Client.emit (.error "import_failed" "incomplete identity file"))
            return ()
          match accountFromJson account with
          | .error e => bare (Client.emit (.error "import_failed" ("bad identity key: " ++ e)))
          | .ok device =>
              ensureServer server
              let vault ← deed (.vaultOf server)
              within vault none (storeImport server username (field "uuid") device)

/-! ### Without the deeds -/

/-- A request of the vault or of the world stays one; a deed is answered at once. -/
def spare (app : App) : (request : EngineAsk) → Client request.Answer
  | .on _ _ asked => Prog.query asked
  | .bare asked => Prog.query asked
  | .deed (.ensureServer _) => .done (.ok ())
  | .deed (.vaultOf server) => .done (server, 0)
  | .deed .pruneDeadLinks => .done ()
  | .deed (.hasLink _) => .done app.linked
  | .deed (.teardownLink _) => .done ()
  | .deed (.spawnReader ..) => .done (0 : Nat)
  | .deed (.abort _) => .done ()
  | .deed (.storeLink ..) => .done ()
  | .deed (.forgetServer _) => .done ()
  | .deed (.removeDir _) => .done ()

/-- A program of the engine, seen from the vault. -/
def erase {α : Type} (app : App) (prog : Engine α) : Client α := Prog.interpret (spare app) prog

variable {α β : Type} (app : App)

@[simp] theorem erase_bind (prog : Engine α) (next : α → Engine β) :
    erase app (prog.bind next) = (erase app prog).bind fun value => erase app (next value) :=
  Prog.interpret_bind _ prog next

@[simp] theorem erase_done (value : α) : erase app (.done value) = .done value := rfl

@[simp] theorem erase_within (vault : VaultId) (conn : Option Handle) (prog : Client α) :
    erase app (within vault conn prog) = prog := by
  rw [erase, within, Prog.interpret_interpret]
  exact Prog.interpret_self prog

@[simp] theorem erase_bare (prog : Client α) : erase app (bare prog) = prog := by
  rw [erase, bare, Prog.interpret_interpret]
  exact Prog.interpret_self prog

theorem deed_eq (step : Deed) : deed step = .ask (.deed step) .done := rfl

theorem erase_ask (step : Deed) (next : step.Answer → Engine α) :
    erase app (.ask (.deed step) next) = (spare app (.deed step)).bind fun answer =>
    erase app (next answer) :=
  rfl

@[simp] theorem erase_ensureServer (server : String) : erase app (ensureServer server) = .done
    () := rfl

@[simp] theorem erase_giveUp (vault : VaultId) (conn : Handle) (code message : String) :
    erase app (giveUp vault conn code message : Engine (Option α)) =
      (Client.emit (.error code message)).bind fun _ => .done none := by
  unfold giveUp
  simp only [Prog.bind_eq, erase_bind, deed_eq, Prog.ask_bind, erase_ask, spare, Prog.done_bind,
    erase_within]
  rfl

theorem erase_challengeNonce (vault : VaultId) (conn : Handle) (username : String) :
    erase app (challengeNonce vault conn username) = Client.challengeNonce username := by
  unfold challengeNonce Client.challengeNonce
  simp only [Prog.bind_eq, erase_bind, erase_within]
  refine congrArg _ (funext fun reply => ?_)
  cases reply with
  | challenge nonce =>
      dsimp only
      cases b64Decode nonce with
      | ok bytes => rfl
      | error e => exact erase_giveUp ..
  | _ => exact erase_giveUp ..

theorem erase_authenticate (vault : VaultId) (conn : Handle) (device : Device) (username : String)
    (nonce : Bytes) : erase app (authenticate vault conn device username nonce) =
      Client.authenticate device username nonce := by
  unfold authenticate Client.authenticate
  simp only [Prog.bind_eq, erase_bind, erase_within]
  refine congrArg _ (funext fun reply => ?_)
  cases reply with
  | authOk uuid uname => rfl
  | _ => exact erase_giveUp ..

/-- `connect` is the handler of the command task. -/
theorem erase_connect (addr : String) : erase app (connect app addr) = Client.connect app addr := by
  unfold connect Client.connect
  simp only [Prog.bind_eq, erase_bind, erase_ensureServer, deed_eq, Prog.ask_bind, erase_ask, spare,
    Prog.done_bind, erase_within]
  refine congrArg _ (funext fun username => ?_)
  cases username with
  | none => exact erase_within ..
  | some username =>
      simp only [erase_bind, erase_within]
      refine congrArg _ (funext fun device => ?_)
      cases device with
      | none => exact erase_within ..
      | some device =>
          simp only [erase_bind, erase_ask, spare, Prog.done_bind, erase_within]
          refine congrArg _ (funext fun opened => ?_)
          cases opened with
          | false => rfl
          | true =>
              show erase app (Prog.bind _ _) = Prog.bind _ _
              rw [erase_bind, erase_within]
              refine congrArg _ (funext fun hello => ?_)
              rw [erase_bind, erase_challengeNonce]
              refine congrArg _ (funext fun nonce => ?_)
              cases nonce with
              | none => rfl
              | some nonce =>
                  rw [erase_bind, erase_authenticate]
                  refine congrArg _ (funext fun identity => ?_)
                  cases identity with
                  | none => rfl
                  | some identity =>
                      obtain ⟨uuid, uname⟩ := identity
                      simp only [erase_bind, erase_ask, spare, Prog.done_bind, erase_within,
                        renewKeys,
                        Prog.bind_eq, Prog.bind_assoc]
                      rfl

theorem erase_claimName (server username : String) (vault : VaultId) (device : Device) :
    erase app (claimName app server username vault device) = (do
      if !(← Client.openLink server) then return ()
      let _ ← (Client.request (Client.clientHello app)).attempt
      match ← Client.request
          (.register username device.ed25519B64 device.curve25519B64 app.machineId) with
      | .authOk uuid uname =>
          Client.call (.metaSet "username" uname)
          Client.call (.metaSet "uuid" uuid)
          Client.call (.metaSet "server" server)
          Client.call (.upsertContact uname uuid device.ed25519B64 device.curve25519B64)
          let (device, otks) ← Client.replenish device
          match ← Prog.query (Ask.writeBackup server uname uuid device) with
          | .ok path => Client.emit (.info ("identity backed up to " ++ path ++ " (keep it safe)"))
          | .error _ => pure ()
          Client.goLive otks
          announce server uname uuid
      | .error code message => Client.emit (.error code message)
      | other => Client.emit (.error "internal" ("unexpected register reply: " ++
          debugText other))) := by
  unfold claimName
  simp only [Prog.bind_eq, erase_bind, deed_eq, Prog.ask_bind, erase_ask, spare, Prog.done_bind,
    erase_within]
  refine congrArg _ (funext fun opened => ?_)
  cases opened with
  | false => rfl
  | true =>
      show erase app (Prog.bind _ _) = Prog.bind _ _
      rw [erase_bind, erase_within]
      refine congrArg _ (funext fun hello => ?_)
      rw [erase_bind, erase_within]
      refine congrArg _ (funext fun reply => ?_)
      cases reply with
      | authOk uuid uname =>
          simp only [erase_bind, erase_ask, spare, Prog.done_bind, erase_within, keepIdentity,
            Prog.bind_eq, Prog.bind_assoc]
          refine congrArg _ (funext fun _ => congrArg _ (funext fun _ => congrArg _ (funext fun _ =>
            congrArg _ (funext fun _ => congrArg _ (funext fun fresh =>
            congrArg _ (funext fun written => ?_))))))
          cases written with
          | ok path => rfl
          | error e => rfl
      | _ => exact erase_within ..

/-- `register` is the handler of the command task. -/
theorem erase_register (addr username : String) :
    erase app (register app addr username) = Client.register app addr username := by
  unfold register Client.register
  dsimp only
  split
  · rw [Prog.bind_eq, erase_bind, erase_bare]
    rfl
  split
  · rw [Prog.bind_eq, erase_bind, erase_bare]
    rfl
  simp only [Prog.bind_eq, erase_bind, erase_ensureServer, deed_eq, Prog.ask_bind, erase_ask, spare,
    Prog.done_bind, erase_within, erase_claimName, ensureDevice, Prog.bind_assoc]
  refine congrArg _ (funext fun stored => ?_)
  cases stored with
  | some device => rfl
  | none => rfl

/-- `switch_server` is the handler of the command task. -/
theorem erase_switchServer (addr : String) :
    erase app (switchServer app addr) = Client.switchServer app addr := by
  unfold switchServer Client.switchServer
  simp only [Prog.bind_eq, erase_bind, erase_ensureServer, deed_eq, Prog.ask_bind, erase_ask, spare,
    Prog.done_bind]
  split
  · exact erase_within ..
  rw [erase_bind, erase_within]
  refine congrArg _ (funext fun username => ?_)
  split
  · exact erase_connect app _
  · exact erase_within ..

/-- `import_identity` is the handler of the command task. -/
theorem erase_importIdentity (path : String) :
    erase app (importIdentity path) = Client.importIdentity path := by
  unfold importIdentity Client.importIdentity
  rw [Prog.bind_eq, erase_bind, erase_bare]
  refine congrArg _ (funext fun data => ?_)
  cases data with
  | error e => exact erase_bare app _
  | ok data =>
      dsimp only
      cases fromSlice (utf8 data) with
      | error e => exact erase_bare app _
      | ok v =>
          dsimp only
          split
          · rw [Prog.bind_eq, erase_bind, erase_bare]
            rfl
          cases accountFromJson (((v.index "account").asStr).getD "") with
          | error e => exact erase_bare app _
          | ok device =>
              simp only [Prog.bind_eq, erase_bind, erase_ensureServer, deed_eq, Prog.ask_bind,
                erase_ask,
                spare, Prog.done_bind, erase_within]
              rfl

end Engine

/-- The commands that open and close connections, or write the identity of a server. -/
inductive EngineCommand where
  | register (server username : String)
  | connect (server : String)
  | switchServer (server : String)
  | removeServer (server : String)
  | importIdentity (path : String)
deriving DecidableEq, Repr

def EngineCommand.isImport : EngineCommand → Bool
  | .importIdentity _ => true
  | _ => false

namespace Engine

/-- Dispatch a command. -/
def handle (app : App) : EngineCommand → Engine Unit
  | .register server username => register app server username
  | .connect server => connect app server
  | .switchServer server => switchServer app server
  | .removeServer server => removeServer server
  | .importIdentity path => importIdentity path

/-- The end of a command: an error is reported. -/
def commandEnd : Except String Unit → Engine Unit
  | .ok _ => return ()
  | .error e => bare (Client.emit (.error "internal" e))

/-- One round of the command loop. -/
def runCommand (app : App) (command : EngineCommand) : Engine Unit := do
  deed .pruneDeadLinks
  commandEnd (← (handle app command).attempt)

end Engine

end

end Cherm
