/-
**One connection of the relay: the messages of a client, handled one after the other.**

`handle` is the body of the relay's read loop. What it says to its own client goes through the
bounded channel of the connection: a reply with `trySend`, which is dropped when the channel is
full, and the backlog of the outbox with `sendWait`, which waits for room. Frames for others go to
their channels with `push`. The rate limiters are part of the world.

* `answer` and the functions before it are the arms of the dispatch.
* `ConnState` is what the loop keeps between two messages.
-/

import Cherm.Relay.Store
import Cherm.Lib.Prog

namespace Cherm

/-- Who the connection speaks for, the challenge in progress, and the build the client announced. -/
structure ConnState where
  authed : Option String
  pendingNonce : Option Bytes
  buildHash : Option String
deriving DecidableEq, Repr

/-- Nobody is logged in, and no nonce is out. -/
def ConnState.initial : ConnState := ⟨none, none, none⟩

/-- The operator's configuration. -/
structure ServerConfig where
  name : String
  repoUrl : String
  description : String
  contact : String
  version : String
  rejectUnofficialClients : Bool
  allowedClientHashes : List String

/-- The official-client policy. -/
def ServerConfig.clientAllowed (config : ServerConfig) (hash : Option String) : Bool :=
  !config.rejectUnofficialClients || match hash with
    | some hash => config.allowedClientHashes.contains hash
    | none => false

namespace Relay

open Crates

/-- `MAX_MACHINE_ID_LEN`. -/
def maxMachineIdLen : Nat := 256

/-- `MAX_PREKEY_BATCH`. -/
def maxPrekeyBatch : Nat := 200

/-- `MAX_KEY_ID_LEN`. -/
def maxKeyIdLen : Nat := 64

/-- A well-formed text of a 32-byte key. -/
def validPubkeyB64 [Crates] (s : String) : Bool :=
  !s.isEmpty && match b64Decode s with
    | .ok bytes => bytes.length = 32
    | .error _ => false

/-- The token buckets a message may have to pass. -/
inductive Limiter where
  | preauth
  | send
  | prekey
  | fetch (target : String)
deriving DecidableEq, Repr

/-- The calls into the shared store. -/
inductive StoreOp where
  | lookupUser (username : String)
  | registerUser (username ed25519 curve25519 machineId uuid : String) (now : Int)
  | publishPrekeys (username : String) (otks : List OneTimeKey)
  | fetchBundle (username : String)
  | pendingFrames (recipient : String)
  | deleteFrames (ids : List Nat)
  | enqueue (recipient : String) (frame : Bytes) (ts : Int)
  | route (recipient : String)
  | goOnline (username : String) (conn : Nat)
  | goOffline (username : String) (conn : Nat)

/-- What a call of the store returns. -/
@[reducible] def StoreOp.Result : StoreOp → Type
  | lookupUser _ => Option UserRecord
  | registerUser .. => Except RegErr String
  | publishPrekeys .. => PubResult
  | fetchBundle _ => Option (UserRecord × Option (String × String))
  | pendingFrames _ => List (Nat × Bytes)
  | enqueue .. => Bool
  | route _ => Option Nat × Bool
  | _ => Unit

/-- What a call of the store does. -/
def StoreOp.exec : (op : StoreOp) → Store → op.Result × Store
  | .lookupUser username, store => (store.lookupUser username, store)
  | .registerUser username ed25519 curve25519 machineId uuid now, store =>
      store.registerUser username ed25519 curve25519 machineId uuid now
  | .publishPrekeys username otks, store => store.publishPrekeys username otks
  | .fetchBundle username, store => store.fetchBundle username
  | .pendingFrames recipient, store => (store.pendingFrames recipient, store)
  | .deleteFrames ids, store => ((), store.deleteFrames ids)
  | .enqueue recipient frame ts, store => store.enqueueIfUnderCap recipient frame ts
  | .route recipient, store => (store.route recipient, store)
  | .goOnline username conn, store => ((), store.goOnline username conn)
  | .goOffline username conn, store => ((), store.goOffline username conn)

/-- The requests of the read loop. -/
inductive Ask where
  | call (op : StoreOp)
  | trySend (msg : ServerMsg)
  | sendWait (msg : ServerMsg)
  | push (conn : Nat) (msg : ServerMsg)
  | allow (limiter : Limiter)
  | attest (nonce : String)
  | now
  | randomNonce
  | randomUuid

/-- What a request is answered with. -/
@[reducible] def Ask.Answer : Ask → Type
  | call op => op.Result
  | trySend _ => Bool
  | sendWait _ => Bool
  | push .. => Bool
  | allow _ => Bool
  | attest _ => Except String Json
  | now => Int
  | randomNonce => Bytes
  | randomUuid => String

/-- What a connection does. -/
abbrev Task (α : Type) := Prog Ask Ask.Answer Unit α

/-- Call the store. -/
def call (op : StoreOp) : Task op.Result := Prog.query (Ask.call op)

/-- A reply to our own client; whether the channel had room is not looked at. -/
def reply (msg : ServerMsg) : Task Unit := do
  let _ ← Prog.query (Ask.trySend msg)

/-- Reply with an error. -/
def err (code message : String) : Task Unit := reply (.error code message)

/-- Take a token from a limiter. -/
def allow (limiter : Limiter) : Task Bool := Prog.query (Ask.allow limiter)

section

variable [Crates]

/-- Send the queued frames until the connection is gone; the ids of the rows that were handled. -/
def sendFrames : List (Nat × Bytes) → List Nat → Task (List Nat)
  | [], handled => return handled
  | (id, frame) :: rest, handled => do
      match readFrame frame with
      | none => sendFrames rest (handled ++ [id])
      | some frame =>
          if ← Prog.query (Ask.sendWait (.deliver frame)) then sendFrames rest (handled ++ [id])
          else return handled

/-- Deliver a user's outbox over the connection, then delete what was delivered. -/
def flushOutbox (username : String) : Task Unit := do
  let rows ← call (.pendingFrames username)
  if rows.isEmpty then return ()
  let handled ← sendFrames rows []
  if handled.isEmpty then return ()
  call (.deleteFrames handled)

/-- Log the connection in: publish it, say so, deliver the backlog. -/
def logIn (conn : Nat) (state : ConnState) (uuid username : String) : Task ConnState := do
  call (.goOnline username conn)
  reply (.authOk uuid username)
  flushOutbox username
  return { state with authed := some username }

/-- `Register`: create a new identity. -/
def register (conn : Nat) (config : ServerConfig) (state : ConnState)
    (username ed25519 curve25519 machineId : String) : Task ConnState := do
  if state.authed.isSome then
    err ErrCode.alreadyAuthenticated "this connection is already authenticated"
    return state
  if !config.clientAllowed state.buildHash then
    err ErrCode.unofficialClient "this server only accepts the official client"
    return state
  if maxMachineIdLen < machineId.utf8ByteSize then
    err ErrCode.badRequest "machine_id too long"
    return state
  if isReservedUsername username then
    err ErrCode.usernameReserved "that username is reserved for system use"
    return state
  if !validUsername username then
    err ErrCode.usernameInvalid "username must be 1-16 chars of [a-zA-Z0-9]"
    return state
  if !validPubkeyB64 ed25519 || !validPubkeyB64 curve25519 then
    err ErrCode.badRequest "ed25519/curve25519 must be base64 32-byte public keys"
    return state
  let uuid ← Prog.query Ask.randomUuid
  let now ← Prog.query Ask.now
  match ← call (.registerUser username ed25519 curve25519 machineId uuid now) with
  | .ok uuid => logIn conn state uuid username
  | .error .taken =>
      err ErrCode.usernameTaken "username already taken"
      return state
  | .error .keyExists =>
      err ErrCode.keyAlreadyRegistered "this key is already registered"
      return state
  | .error .db =>
      err ErrCode.internal "internal server error"
      return state

/-- `AuthFinish`: verify the signature over the challenge. The challenge is used up either way. -/
def authFinish (conn : Nat) (config : ServerConfig) (state : ConnState)
    (username signature : String) : Task ConnState := do
  if state.authed.isSome then
    err ErrCode.alreadyAuthenticated "this connection is already authenticated"
    return state
  if !config.clientAllowed state.buildHash then
    err ErrCode.unofficialClient "this server only accepts the official client"
    return state
  match state.pendingNonce with
  | none =>
      err ErrCode.authFailed "no challenge in progress"
      return state
  | some nonce =>
      let state := { state with pendingNonce := none }
      match ← call (.lookupUser username) with
      | none =>
          err ErrCode.unknownUser "no such user"
          return state
      | some record =>
          if verifyEd25519B64 record.ed25519 nonce signature then
            logIn conn state record.uuid username
          else
            err ErrCode.authFailed "signature verification failed"
            return state

/-- `PublishPrekeys`. -/
def publishPrekeys (state : ConnState) (otks : List OneTimeKey) : Task Unit := do
  let some user := state.authed | err ErrCode.notAuthenticated "register or log in first"
  if !(← allow .prekey) then
    err "rate_limited" "publishing prekeys too fast; slow down"
    return ()
  if maxPrekeyBatch < otks.length then
    err ErrCode.badRequest "too many prekeys in one batch"
    return ()
  if otks.any fun k =>
      k.keyId.isEmpty || maxKeyIdLen < k.keyId.utf8ByteSize || !validPubkeyB64 k.curve25519 then
    err ErrCode.badRequest "each prekey needs a short key_id and a base64 32-byte curve25519 key"
    return ()
  match ← call (.publishPrekeys user otks) with
  | .ok => reply (.ok none)
  | .overCap =>
      err "prekeys_full" "you already have the maximum number of unused prekeys stored"

/-- `FetchPrekeys`: a user's bundle, which uses up a one-time key. -/
def fetchPrekeys (state : ConnState) (username : String) : Task Unit := do
  if state.authed.isNone then
    err ErrCode.notAuthenticated "register or log in first"
    return ()
  if !(← allow (.fetch username)) then
    err "rate_limited" "too many prekey fetches for that user; slow down"
    return ()
  match ← call (.fetchBundle username) with
  | some (record, otk) =>
      reply (.prekeyBundle ⟨record.username, record.uuid, record.ed25519, record.curve25519,
        otk.map Prod.fst, otk.map Prod.snd⟩)
  | none => err ErrCode.unknownUser "no such user"

/-- Route a frame to each recipient once, not to its sender: whether anyone got it, and whether
anyone was unknown. -/
def fanOut (sender : String) (frame : Deliver) (queued : Bytes) :
    List String → Bool → Bool → Task (Bool × Bool)
  | [], delivered, unknown => return (delivered, unknown)
  | recipient :: rest, delivered, unknown => do
      if recipient = sender then fanOut sender frame queued rest delivered unknown
      else
        let (online, «exists») ← call (.route recipient)
        if !«exists» then fanOut sender frame queued rest delivered true
        else
          let pushed ← match online with
            | some conn => Prog.query (Ask.push conn (.deliver frame))
            | none => pure false
          if pushed then fanOut sender frame queued rest true unknown
          else
            let stored ← call (.enqueue recipient queued frame.serverTs)
            fanOut sender frame queued rest (delivered || stored) unknown

/-- `Send`: fan a ciphertext out to every recipient. -/
def send (state : ConnState) (msg : SendMsg) : Task Unit := do
  let some sender := state.authed | err ErrCode.notAuthenticated "register or log in first"
  if !(← allow .send) then
    err "rate_limited" "sending too fast; slow down"
    return ()
  if maxPayload < msg.payload.utf8ByteSize then
    err ErrCode.badRequest "payload too large"
    return ()
  if maxRecipients < msg.to.length then
    err ErrCode.badRequest "too many recipients"
    return ()
  let serverTs ← Prog.query Ask.now
  let frame : Deliver :=
    ⟨sender, msg.to, msg.msgType, msg.payload, msg.groupId, serverTs, msg.clientTs⟩
  let (delivered, unknown) ← fanOut sender frame (writeFrame frame) msg.to.eraseDups false false
  if !delivered && unknown then err ErrCode.unknownUser "no such recipient"
  else reply (.ok none)

/-- The arms of the dispatch. -/
def answer (conn : Nat) (config : ServerConfig) (state : ConnState) : ClientMsg → Task ConnState
  | .attestRequest nonce => do
      match ← Prog.query (Ask.attest nonce) with
      | .ok attestation => reply (.attestResponse attestation)
      | .error _ => err ErrCode.internal "internal server error"
      return state
  | .clientHello buildHash _ => do
      reply (.ok none)
      return { state with buildHash := some buildHash }
  | .getServerInfo => do
      reply (.serverInfo config.name config.repoUrl config.description config.contact
      config.version)
      return state
  | .register username ed25519 curve25519 machineId =>
      register conn config state username ed25519 curve25519 machineId
  | .authBegin _ => do
      let nonce ← Prog.query Ask.randomNonce
      reply (.challenge (b64Encode nonce))
      return { state with pendingNonce := some nonce }
  | .authFinish username signature => authFinish conn config state username signature
  | .publishPrekeys otks => do
      publishPrekeys state otks
      return state
  | .fetchPrekeys username => do
      fetchPrekeys state username
      return state
  | .send msg => do
      send state msg
      return state
  | .pull => do
      match state.authed with
      | some username => flushOutbox username
      | none => err ErrCode.notAuthenticated "register or log in first"
      return state
  | .ping => do
      reply .pong
      return state

/-- One round of the read loop; `none` is a frame that is not a client message. -/
def handle (conn : Nat) (config : ServerConfig) (state : ConnState) (msg : Option ClientMsg) :
    Task ConnState := do
  match msg with
  | none =>
      err ErrCode.badRequest "malformed or unknown message"
      return state
  | some msg =>
      if state.authed.isNone then
        if !(← allow .preauth) then
          err "rate_limited" "too many requests; slow down"
          return state
      answer conn config state msg

/-- What is left to do once the connection is closed. -/
def close (conn : Nat) (state : ConnState) : Task Unit := do
  match state.authed with
  | some username => call (.goOffline username conn)
  | none => return ()

end

end Relay

end Cherm
