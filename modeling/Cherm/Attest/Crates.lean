/-
**The third-party crates of the attestation crate.**

`AttestCrates` is what `cherm-attest` takes from `ed25519-dalek`, `blake3`, `coset`, `ciborium`,
`p384` and `x509-cert`: parsers and verifiers over types it never looks inside. The records that it
does look inside (`CoseSign1`, `Certificate`, `AttestationDoc`) are structures with the fields it
reads. Base64 is the one of `Lib.Base64`.

The fields that are laws say that what Ed25519 signs verifies; the laws about forgery are hypotheses
of the results that need them.
-/

import Cherm.Lib.Base64
import Cherm.Lib.Table
import Cherm.Proto

namespace ChermAttest

open Cherm (Bytes utf8)

/-- An array of 32 bytes. -/
structure Key32 where
  bytes : Bytes
  length_eq : bytes.length = 32

theorem Key32.bytes_inj {a b : Key32} : a.bytes = b.bytes ↔ a = b :=
  ⟨fun same => by cases a; cases b; cases same; rfl, fun same => by rw [same]⟩

instance : DecidableEq Key32 := fun a b => decidable_of_iff (a.bytes = b.bytes) Key32.bytes_inj

/-- The point in time of a certificate field, in milliseconds: the years it can have are below
10000. -/
structure Time where
  millis : Nat
  inRange : millis < 253402300800000
deriving DecidableEq

structure Extension where
  extnId : String
  extnValue : Bytes
deriving DecidableEq

/-- What the verifier reads of a parsed X.509 certificate. -/
structure Certificate where
  tbsDer : Except String Bytes
  spkiDer : Except String Bytes
  subjectPublicKey : Option Bytes
  notBefore : Time
  notAfter : Time
  extensions : Option (List Extension)
  signature : Option Bytes

/-- A parsed COSE_Sign1 message; the protected header is kept as it was encoded. -/
structure CoseSign1 where
  «protected» : Bytes
  payload : Option Bytes
  signature : Bytes
deriving DecidableEq

/-- The Nitro attestation document (the COSE payload). -/
structure AttestationDoc where
  moduleId : String
  digest : String
  timestamp : UInt64
  pcrs : Table UInt8 Bytes
  certificate : Bytes
  cabundle : List Bytes
  publicKey : Option Bytes
  userData : Option Bytes
  nonce : Option Bytes

/-- The functions of the crates, and the documented behaviour the results rely on. -/
class AttestCrates where
  blake3 : Bytes → Bytes
  -- ed25519_dalek
  SigningKey : Type
  VerifyingKey : Type
  Signature : Type
  signingKey : Key32 → SigningKey
  verifyingKey : SigningKey → VerifyingKey
  keyToBytes : VerifyingKey → Key32
  keyFromBytes : Key32 → Option VerifyingKey
  sign : SigningKey → Bytes → Signature
  signatureToBytes : Signature → Bytes
  signatureFromSlice : Bytes → Option Signature
  verifyStrict : VerifyingKey → Bytes → Signature → Bool
  -- coset
  coseFromTaggedSlice : Bytes → Except String CoseSign1
  /-- The Sig_structure: the protected header, the external data and the payload. -/
  sigStructureData : Bytes → Bytes → Bytes → Bytes
  -- ciborium
  docFromReader : Bytes → Except String AttestationDoc
  -- x509_cert
  certificateFromDer : Bytes → Except String Certificate
  /-- The CA flag of an encoded basicConstraints extension. -/
  basicConstraintsFromDer : Bytes → Except String Bool
  -- p384
  EcKey : Type
  EcSignature : Type
  ecKeyFromSec1 : Bytes → Except String EcKey
  ecSignatureFromSlice : Bytes → Except String EcSignature
  ecSignatureFromDer : Bytes → Except String EcSignature
  ecVerify : EcKey → Bytes → EcSignature → Except String Unit
  keyFromBytes_keyToBytes : ∀ key, keyFromBytes (keyToBytes key) = some key
  signatureFromSlice_toBytes : ∀ signature,
    signatureFromSlice (signatureToBytes signature) = some signature
  /-- What a key signs verifies under it. -/
  verifyStrict_sign : ∀ key msg, verifyStrict (verifyingKey key) msg (sign key msg) = true

end ChermAttest
