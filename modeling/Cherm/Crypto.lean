/-
**The client's crypto crate: thin wrappers over the ratchets.**

`Device`, `OlmSession`, `GroupSender` and `GroupReceiver` are the wrapped objects; a method that
mutates its receiver returns the mutated one, and a method that draws randomness takes the draw as
its last argument. The at-rest pickles are not modelled: a stored object is read back as the object
it was.

* `createInbound` is the only way a peer's first message becomes a session, and it refuses a message
  that is not a prekey message.
* `b64Decode_b64Encode`, `validGroupKey`: the text helpers the handlers use.
-/

import Cherm.Crates

namespace Cherm

open Crates

section

variable [Crates]

/-- A device identity: the identity keys and the pool of one-time keys. -/
abbrev Device := Account

/-- A session with one peer. -/
abbrev OlmSession := Session

/-- Our own session of a group. -/
abbrev GroupSender := GroupSession

/-- A sender's session of a group. -/
abbrev GroupReceiver := InboundGroupSession

/-! ### Base64 -/

theorem b64Decode_b64Encode (bytes : Bytes) : b64Decode (b64Encode bytes) = .ok bytes :=
  (b64Decode_ok_iff _ _).mpr (b64Encode_eq bytes)

/-! ### The device -/

namespace Device

/-- A new account. -/
def generate (seed : Seed) : Device := newAccount seed

/-- The text of the identity key. -/
def ed25519B64 (device : Device) : String := keyToBase64 (ed25519Key device)

/-- The text of the key that sessions are opened with. -/
def curve25519B64 (device : Device) : String := keyToBase64 (curve25519Key device)

/-- The text of a signature under the identity key. -/
def signB64 (device : Device) (msg : Bytes) : String := signBase64 device msg

/-- Add `n` one-time keys and return every key that is not published yet. -/
def generateOneTimeKeys (device : Device) (n : Nat) (seed : Seed) :
    Device × List (String × String) :=
  let device := Crates.generateOneTimeKeys device n seed
  (device, (oneTimeKeys device).map fun (id, key) => (id, keyToBase64 key))

/-- The one-time keys so far count as published. -/
def markPublished (device : Device) : Device := markKeysAsPublished device

/-- Start an outbound session to a peer, given the texts of its bundle. -/
def startSession (device : Device) (theirCurveB64 theirOtkB64 : String) (seed : Seed) :
    Except String OlmSession := do
  let id ← keyFromBase64 theirCurveB64
  let otk ← keyFromBase64 theirOtkB64
  createOutboundSession device id otk seed

/-- Accept an inbound session from a peer's prekey message. -/
def createInbound (device : Device) (theirCurveB64 : String) (olmType : Nat) (olmBody : Bytes) :
    Except String (OlmSession × Bytes × Device) := do
  let id ← keyFromBase64 theirCurveB64
  let msg ← fromParts olmType olmBody
  if isPreKey msg then createInboundSession device id msg
  else .error "expected a prekey message to start a session"

end Device

/-- Verify a detached signature, given the texts of the key and of the signature. -/
def verifyEd25519B64 (ed25519B64 : String) (msg : Bytes) (signatureB64 : String) : Bool :=
  match keyFromBase64 ed25519B64 with
  | .ok key => verifyBase64 key msg signatureB64
  | .error _ => false

/-- Two decimal digits. -/
def twoDigits (n : Nat) : String := if n < 10 then "0" ++ toString n else toString n

/-- The safety number of an Ed25519 key text: thirty digits in groups. -/
def fingerprintOf (ed25519B64 : String) : String :=
  let bytes := (blake3 (utf8 ed25519B64)).take 15
  String.join <| bytes.zipIdx.map fun (b, i) =>
    (if 0 < i ∧ i % 5 = 0 then " " else "") ++ twoDigits (b.toNat * 100 / 256)

/-! ### Sessions -/

namespace OlmSession

/-- Encrypt: the message's type, its body and the advanced session. -/
def encrypt (session : OlmSession) (plaintext : Bytes) (seed : Seed) :
    Except String ((Nat × Bytes) × OlmSession) := do
  let (msg, session) ← Crates.encrypt session plaintext seed
  .ok (toParts msg, session)

/-- Read a message of the session, which advances. -/
def decrypt (session : OlmSession) (olmType : Nat) (body : Bytes) :
    Except String (Bytes × OlmSession) := do
  let msg ← fromParts olmType body
  Crates.decrypt session msg

end OlmSession

namespace GroupSender

/-- A new session of a group. -/
def new (seed : Seed) : GroupSender := newGroupSession seed

/-- The text that is handed to the members. -/
def sessionKeyB64 (sender : GroupSender) : String := groupSessionKey sender

/-- Write a message of the session, which advances. -/
def encrypt (sender : GroupSender) (plaintext : Bytes) : Bytes × GroupSender :=
  groupEncrypt sender plaintext

end GroupSender

namespace GroupReceiver

/-- The session that a member was handed. -/
def fromSessionKeyB64 (sessionKeyB64 : String) : Except String GroupReceiver :=
  inboundFromKey sessionKeyB64

/-- What tells one session from another. -/
def sessionId (receiver : GroupReceiver) : String := inboundSessionId receiver

/-- Read a message of the session: its text and its index. -/
def decrypt (receiver : GroupReceiver) (body : Bytes) :
    Except String (Bytes × Nat × GroupReceiver) :=
  groupDecrypt receiver body

end GroupReceiver

end

/-! ### Group invite keys -/

/-- The characters of a group key. -/
def groupKeyCharset : List Char :=
  "ABCDEFGHIJKLMNOPQRSTUVWXYZabcdefghijklmnopqrstuvwxyz0123456789".toList

/-- The length of a group key. -/
def groupKeyLen : Nat := 8

/-- A random code of the given length: the digits of the draw in base 62. -/
def gerarCodigo (tamanho : Nat) (seed : Seed) : String :=
  String.ofList <| (List.range tamanho).map fun i =>
    groupKeyCharset.getD (seed / groupKeyCharset.length ^ i % groupKeyCharset.length) 'A'

/-- A drawn group key. -/
def genGroupKey (seed : Seed) : String := gerarCodigo groupKeyLen seed

/-- Exactly eight characters of `[A-Za-z0-9]`. -/
def validGroupKey (s : String) : Bool :=
  decide (s.toList.length = groupKeyLen) && s.toList.all Char.isAlphanum

end Cherm
