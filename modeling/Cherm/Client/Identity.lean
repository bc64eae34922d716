/-
**Identity keys and Olm sessions with a peer.**

The pin check on what the relay says about a peer (`acceptIdentity`), and the two ways a handler
comes by an Olm session: `ensureOlm` to write to a peer, `obtainOlmPlaintext` to read from one. Each
asks the relay for the peer's bundle where the vault does not have what it needs.
-/

import Cherm.Client.Task
import Cherm.Client.Wire

namespace Cherm

open Crates

section

variable [Crates]

/-- A well-formed text of a 32-byte key. -/
def validPubkeyB64 (s : String) : Bool :=
  !s.isEmpty && match b64Decode s with
    | .ok bytes => bytes.length = 32
    | .error _ => false

/-- What the processor works with: our own username and the address of the server. -/
structure ProcCtx where
  me : String
  addr : String

/-- A delivered frame, as the reader forwards it. -/
structure Incoming where
  «from» : String
  msgType : String
  payload : String
  groupId : Option String
  clientTs : Int
deriving DecidableEq, Repr

namespace Client

/-- Check a bundle against the pinned record, and pin or refresh it. False means: do not use it. -/
def acceptIdentity (username uuid ed25519 curve25519 : String) : Client Bool := do
  if !validPubkeyB64 ed25519 || !validPubkeyB64 curve25519 then
    emit (.error "identity_invalid" ("malformed identity bundle for " ++ username ++
      " — refusing"))
    return false
  match ← call (.checkIdentity username ed25519) with
  | .conflict =>
      emit (.error "identity_changed" ("SECURITY: identity key for " ++ username ++
        " changed — refusing (possible relay key substitution). If they truly reset their " ++
        "account, leave/remove the chat to re-pin."))
      return false
  | _ =>
      call (.upsertContact username uuid ed25519 curve25519)
      return true

/-- The session we hold with a peer, or a new one from the peer's prekeys. `none`, after an error
event, if there is none to be had. A new session is not stored yet. -/
def ensureOlm (peer : String) : Client (Option OlmSession) := do
  match ← call (.loadOlm peer) with
  | some session => return some session
  | none =>
      let device : Device ← okOr (← call .loadAccount) "no device identity"
      match ← request (.fetchPrekeys peer) with
      | .prekeyBundle bundle =>
          match bundle.oneTimeKey with
          | some otk =>
              if !(← acceptIdentity bundle.username bundle.uuid bundle.ed25519
                  bundle.curve25519) then
                return none
              let seed ← random
              let session ← lift (device.startSession bundle.curve25519 otk seed)
              return some session
          | none =>
              emit (.error ErrCode.noPrekeys (peer ++ " has no one-time keys; skipped"))
              return none
      | .error code message =>
          emit (.error code message)
          return none
      | other =>
          emit (.error "internal" ("unexpected prekey reply: " ++ debugText other))
          return none

/-- The curve key of a sender we have no usable session with: the pinned one, or the relay's. -/
def obtainCurve (sender : String) : Client String := do
  match ← call (.getContactCurve sender) with
  | some curve => return curve
  | none =>
      match ← request (.fetchPrekeys sender) with
      | .prekeyBundle bundle =>
          if !(← acceptIdentity bundle.username bundle.uuid bundle.ed25519
              bundle.curve25519) then
            throw ("identity key for " ++ bundle.username ++
              " changed; refusing to accept message")
          return bundle.curve25519
      | .error code message => throw (code ++ ": " ++ message)
      | other => throw ("unexpected prekey reply: " ++ debugText other)

/-- Accept a prekey message as the start of a session: the session and the account are stored. -/
def acceptInbound (sender : String) (olmType : Nat) (body : Bytes) : Client Bytes := do
  let curve ← obtainCurve sender
  let device : Device ← okOr (← call .loadAccount) "no device identity in vault"
  let (session, plaintext, device) ← lift (device.createInbound curve olmType body)
  call (.saveAccount device)
  call (.saveOlm sender session)
  return plaintext

/-- Decrypt, once the payload is parsed. A prekey message the stored session cannot read starts a
new one. -/
def readOlm (sender : String) (olmType : Nat) (body : Bytes) : Client Bytes := do
  match ← call (.loadOlm sender) with
  | some session =>
      match session.decrypt olmType body with
      | .ok (plaintext, session) =>
          call (.saveOlm sender session)
          return plaintext
      | .error e =>
          if olmType ≠ 0 then throw e
          acceptInbound sender olmType body
  | none => acceptInbound sender olmType body

/-- Decrypt an Olm payload. -/
def obtainOlmPlaintext (sender payload : String) : Client Bytes := do
  let (olmType, body) ← lift (parseOlm payload)
  readOlm sender olmType body

/-- A payload that was encoded is parsed. -/
theorem obtainOlmPlaintext_encoded (sender : String) (message : OlmMessage) :
    obtainOlmPlaintext sender (encodeOlm (toParts message).1 (toParts message).2) =
      readOlm sender (toParts message).1 (toParts message).2 := by
  unfold obtainOlmPlaintext
  rw [parseOlm_encodeOlm (toParts_small message)]
  rfl

/-- What the stored session reads is stored with the advanced session, and nothing is asked. -/
theorem obtainOlmPlaintext_held {allow : (asked : Ask) → asked.Answer → Prop} {v : Vault}
    {sender : String} {session session' : OlmSession} {message : OlmMessage} {plaintext : Bytes}
    (held : v.loadOlm sender = some session)
    (reads : Crates.decrypt session message = .ok (plaintext, session')) :
    Prog.Runs (Ask.effectIf allow)
      (obtainOlmPlaintext sender (encodeOlm (toParts message).1 (toParts message).2)) v
        (.ok plaintext)
      (v.saveOlm sender session') := by
  have opened : session.decrypt (toParts message).1 (toParts message).2 = .ok
      (plaintext, session') := by
    rw [OlmSession.decrypt, fromParts_toParts]
    exact reads
  rw [obtainOlmPlaintext_encoded]
  refine Prog.Runs.ask rfl ?_
  simp only [Prog.done_bind, held, opened]
  exact .ask rfl (.done _ _)

end Client

end

end Cherm
