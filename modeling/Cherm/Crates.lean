/-
**The third-party crates the client calls.**

`Crates` is what the sources of the client take from `vodozemac`, `base64`, `serde_json` and
`blake3`: the functions they call, over types they never look inside, with the documented behaviour
the client relies on as fields. Everything above is stated for every such `Crates`. Nothing here
says how the ratchets work; what a result needs of Olm or Megolm beyond the types is a named
hypothesis of that result.
-/

import Cherm.Lib.Base64
import Cherm.Lib.Json
import Cherm.Proto

namespace Cherm

/-- What the OS random number generator hands to one call. -/
abbrev Seed := Nat

/-- A raw 32-byte public key, Ed25519 or Curve25519. -/
structure PublicKey where
  bytes : Bytes
  length_eq : bytes.length = 32
deriving DecidableEq

/-- The functions of the crates, and the documented behaviour the client relies on. -/
class Crates where
  -- base64 0.22, `general_purpose::STANDARD`
  b64Encode : Bytes → String
  b64Decode : String → Except String Bytes
  -- serde_json
  toVec : Json → Bytes
  fromSlice : Bytes → Except String Json
  /-- The text of serde's error for bytes that are not the named record. -/
  recordError : String → Bytes → String
  /-- The text of the error of `String::from_utf8`. -/
  utf8Error : Bytes → String
  /-- The `Debug` text of a message. -/
  debugText : ServerMsg → String
  -- uuid: the text of a random version 4 identifier
  uuidText : Seed → String
  -- blake3
  blake3 : Bytes → Bytes
  -- vodozemac keys and accounts
  keyToBase64 : PublicKey → String
  keyFromBase64 : String → Except String PublicKey
  Account : Type
  newAccount : Seed → Account
  ed25519Key : Account → PublicKey
  curve25519Key : Account → PublicKey
  signBase64 : Account → Bytes → String
  verifyBase64 : PublicKey → Bytes → String → Bool
  generateOneTimeKeys : Account → Nat → Seed → Account
  oneTimeKeys : Account → List (String × PublicKey)
  markKeysAsPublished : Account → Account
  accountToJson : Account → String
  accountFromJson : String → Except String Account
  -- vodozemac Olm sessions
  Session : Type
  OlmMessage : Type
  fromParts : Nat → Bytes → Except String OlmMessage
  toParts : OlmMessage → Nat × Bytes
  isPreKey : OlmMessage → Bool
  createOutboundSession : Account → PublicKey → PublicKey → Seed → Except String Session
  createInboundSession : Account → PublicKey → OlmMessage →
  Except String (Session × Bytes × Account)
  encrypt : Session → Bytes → Seed → Except String (OlmMessage × Session)
  decrypt : Session → OlmMessage → Except String (Bytes × Session)
  -- vodozemac Megolm sessions
  GroupSession : Type
  newGroupSession : Seed → GroupSession
  groupSessionKey : GroupSession → String
  groupEncrypt : GroupSession → Bytes → Bytes × GroupSession
  InboundGroupSession : Type
  inboundFromKey : String → Except String InboundGroupSession
  inboundSessionId : InboundGroupSession → String
  groupDecrypt : InboundGroupSession → Bytes → Except String (Bytes × Nat × InboundGroupSession)
  /-- `STANDARD` writes the padded encoding. -/
  b64Encode_eq : ∀ bytes, b64Encode bytes = Base64.encode bytes
  /-- `STANDARD` reads the padded encoding and nothing else. -/
  b64Decode_ok_iff : ∀ text bytes, b64Decode text = .ok bytes ↔ text = Base64.encode bytes
  /-- The text of a flat record stands for it. -/
  fromSlice_toVec : ∀ value : Json, value.Flat → fromSlice (toVec value) = .ok value
  blake3_length : ∀ bytes, (blake3 bytes).length = 32
  /-- `from_base64` is indifferent to padding. -/
  keyFromBase64_encode : ∀ key : PublicKey, keyFromBase64 (Base64.encode key.bytes) = .ok key
  keyFromBase64_encodeUnpadded : ∀ key : PublicKey,
    keyFromBase64 (Base64.encodeUnpadded key.bytes) = .ok key
  /-- A message taken apart into its type and body is read back. -/
  fromParts_toParts : ∀ message, fromParts (toParts message).1 (toParts message).2 = .ok message
  /-- The type of a prekey message is 0, of a normal one 1. -/
  toParts_type : ∀ message, (toParts message).1 = if isPreKey message then 0 else 1

/-- `to_base64` of vodozemac 0.10 writes the unpadded encoding. Apart, because nobody can register
with such a text: what is said about accounts that exist is said without it. -/
class UnpaddedTexts [Crates] : Prop where
  keyToBase64_eq : ∀ key, Crates.keyToBase64 key = Base64.encodeUnpadded key.bytes

end Cherm
