/-
**The wire protocol between a client and its relay.**

The messages both programs exchange, the limits they agree on, and the text predicates the protocol
crate exports: `validUsername`, `isReservedUsername`, `accessModeValid`. The JSON of the messages
and their frames are in `Frames`; the functions modelled over this file read and write whole
messages.
-/

import Cherm.Lib.Json
import Cherm.Lib.Utf8

namespace Cherm

abbrev Bytes := List UInt8

/-- The UTF-8 bytes of a text. -/
def utf8 (text : String) : Bytes := text.toByteArray.data.toList

/-- `String::from_utf8`. -/
def fromUtf8 (bytes : Bytes) : Option String := String.fromUTF8? ⟨bytes.toArray⟩

@[simp] theorem fromUtf8_utf8 (text : String) : fromUtf8 (utf8 text) = some text :=
  Utf8.fromUTF8_bytes text

theorem utf8_ofList (chars : List Char) : utf8 (String.ofList chars) = Utf8.encode chars :=
  Utf8.bytes_ofList chars

theorem utf8_eq (text : String) : utf8 text = Utf8.encode text.toList := by
  rw [← utf8_ofList, String.ofList_toList]

theorem utf8_injective {first second : String} (same : utf8 first = utf8 second) :
    first = second := by
  have read := fromUtf8_utf8 first
  rw [same, fromUtf8_utf8] at read
  exact (Option.some.inj read).symm

/-! ### Limits -/

/-- `MAX_FRAME`: the longest body of a message on the wire. -/
def maxFrame : Nat := 16 * 1024 * 1024

/-- `MAX_PAYLOAD`: the longest payload of a `Send`. -/
def maxPayload : Nat := 128 * 1024

/-- `MAX_RECIPIENTS` of one `Send`. -/
def maxRecipients : Nat := 1024

/-- `USERNAME_MAX`, in bytes. -/
def usernameMax : Nat := 16

/-- What a timestamp can be: a signed integer of 64 bits. -/
def IsI64 (value : Int) : Prop := -2 ^ 63 ≤ value ∧ value < 2 ^ 63

/-! ### Names -/

/-- 1 to 16 characters of `[a-zA-Z0-9]`. -/
def validUsername (name : String) : Bool :=
  !name.toList.isEmpty && decide (name.toList.length ≤ usernameMax) &&
    name.toList.all Char.isAlphanum

/-- Names that would stand for the relay or the client. -/
def reservedUsernames : List String := ["system", "server"]

/-- Reserved names are compared without regard to ASCII case. -/
def isReservedUsername (name : String) : Bool :=
  reservedUsernames.contains (String.ofList (name.toList.map Char.toLower))

/-- A name that may be registered. -/
def isRegisterableUsername (name : String) : Bool :=
  validUsername name && !isReservedUsername name

/-! ### Group access modes -/

namespace AccessMode

/-- Whoever has the key is admitted. -/
def «open» : String := "open"

/-- The owner decides about each request. -/
def approval : String := "approval"

/-- No request is admitted. -/
def inviteOnly : String := "invite_only"

/-- The modes there are. -/
def all : List String := [«open», approval, inviteOnly]

/-- A mode that is one of them. -/
def valid (mode : String) : Bool := all.contains mode

end AccessMode

/-! ### Logical message kinds -/

namespace MsgType

/-- A text for one peer. -/
def olm : String := "olm"

/-- A group key share. -/
def olmGroupKey : String := "olm_group_key"

/-- A notice to one peer: they were left. -/
def olmSystem : String := "olm_system"

/-- A text for a group. -/
def megolm : String := "megolm"

/-- A notice to a group: its sender has left. -/
def megolmSystem : String := "megolm_system"

/-- A request to join. -/
def groupJoin : String := "group_join"

/-- The answer to a request that was not admitted. -/
def groupJoinDenied : String := "group_join_denied"

/-- What the owner of a group has done. -/
def groupEvent : String := "group_event"

end MsgType

/-! ### Error codes -/

namespace ErrCode

/-- Another account has the name. -/
def usernameTaken : String := "username_taken"

/-- The name is too long, or has other characters than letters and digits. -/
def usernameInvalid : String := "username_invalid"

/-- The name stands for the relay or the client. -/
def usernameReserved : String := "username_reserved"

/-- The relay takes official clients only. -/
def unofficialClient : String := "unofficial_client"

/-- The key belongs to another account. -/
def keyAlreadyRegistered : String := "key_already_registered"

/-- There is no such account. -/
def unknownUser : String := "unknown_user"

/-- Every published key is used. -/
def noPrekeys : String := "no_prekeys"

/-- The signature of the nonce does not verify. -/
def authFailed : String := "auth_failed"

/-- The message is for those who are logged in. -/
def notAuthenticated : String := "not_authenticated"

/-- The connection is logged in. -/
def alreadyAuthenticated : String := "already_authenticated"

/-- The message is out of bounds, or there are too many. -/
def badRequest : String := "bad_request"

/-- The database has failed. -/
def internal : String := "internal"

end ErrCode

/-! ### Messages -/

/-- One published one-time prekey. -/
structure OneTimeKey where
  keyId : String
  curve25519 : String
deriving DecidableEq, Repr

/-- The fields of a `Send`. -/
structure SendMsg where
  «to» : List String
  msgType : String
  payload : String
  groupId : Option String
  clientTs : Int
deriving DecidableEq, Repr

/-- Client to relay. -/
inductive ClientMsg where
  | register (username ed25519 curve25519 machineId : String)
  | authBegin (username : String)
  | authFinish (username signature : String)
  | publishPrekeys (oneTimeKeys : List OneTimeKey)
  | fetchPrekeys (username : String)
  | attestRequest (nonce : String)
  | clientHello (buildHash clientVersion : String)
  | getServerInfo
  | send (msg : SendMsg)
  | pull
  | ping
deriving DecidableEq, Repr

/-- The answer to `FetchPrekeys`. -/
structure PrekeyBundle where
  username : String
  uuid : String
  ed25519 : String
  curve25519 : String
  oneTimeKeyId : Option String
  oneTimeKey : Option String
deriving DecidableEq, Repr

/-- A relayed ciphertext. -/
structure Deliver where
  «from» : String
  «to» : List String
  msgType : String
  payload : String
  groupId : Option String
  serverTs : Int
  clientTs : Int
deriving DecidableEq, Repr

/-- Relay to client. -/
inductive ServerMsg where
  | challenge (nonce : String)
  | authOk (uuid username : String)
  | prekeyBundle (bundle : PrekeyBundle)
  | attestResponse (attestation : Json)
  | serverInfo (name repoUrl description contact version : String)
  | deliver (frame : Deliver)
  | ok (detail : Option String)
  | error (code message : String)
  | pong
  | maintenance (reason : String) (deadlineUnixMs : Int) (version : Option String)
deriving DecidableEq, Repr

end Cherm
