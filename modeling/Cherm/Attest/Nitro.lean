/-
**The Nitro quote verifier.**

`verifyQuote` parses a COSE_Sign1 quote, validates the certificate path of the document in its
payload, verifies the signature with the leaf key, and checks age, nonce, PCR0 and user data. Every
step can fail with the text the user sees.

Time is a 64-bit signed count of milliseconds, and the arithmetic on it wraps, as in the release
build.
-/

import Cherm.Attest.Official
import Cherm.Lib.Checks

namespace ChermAttest

open Cherm (Bytes)
open Except (bailIf okOr)

/-- Maximal clock skew or document age accepted: five minutes. -/
def maxAgeMs : Int64 := 5 * 60 * 1000

/-- Two hexadecimal digits a byte. -/
def hexEncode (bytes : Bytes) : String :=
  String.ofList (bytes.flatMap fun b => [Nat.digitChar (b.toNat / 16),
  Nat.digitChar (b.toNat % 16)])

/-- `eq_ignore_ascii_case`. -/
def eqIgnoreAsciiCase (first second : String) : Bool :=
  first.toList.map Char.toLower = second.toList.map Char.toLower

/-- `to_unix_duration().as_millis() as i64`. -/
def Time.asI64 (time : Time) : Int64 := Int64.ofNat time.millis

/-- What a successful verification claims. -/
structure NitroClaims where
  pcr0Hex : String
  moduleId : String
  userData : Option Bytes
deriving DecidableEq

section

variable [AttestCrates]

open AttestCrates

/-- CBOR-decode the attestation document. -/
def parseDoc (payload : Bytes) : Except String AttestationDoc :=
  (docFromReader payload).context ("cbor decode: " ++ ·)

/-- The bytes a COSE_Sign1 signature is over. -/
def CoseSign1.tbsData (cose : CoseSign1) (aad : Bytes) : Bytes :=
  sigStructureData cose.«protected» aad (cose.payload.getD [])

/-- Verify the COSE_Sign1 ES384 signature. -/
def verifyCoseWithKey (cose : CoseSign1) (key : EcKey) : Except String Unit := do
  let signature ← (ecSignatureFromSlice cose.signature).context ("bad signature: " ++ ·)
  (ecVerify key (cose.tbsData []) signature).context ("cose signature invalid: " ++ ·)

/-- The public key of a certificate. -/
def spkiBytes (cert : Certificate) : Except String Bytes := cert.spkiDer.context ("spki: " ++ ·)

/-- The P-384 key of a certificate. -/
def p384FromCert (cert : Certificate) : Except String EcKey := do
  let bytes ← okOr cert.subjectPublicKey "no spki bits"
  (ecKeyFromSec1 bytes).context ("p384 key: " ++ ·)

/-- A certificate counts between its two times. -/
def checkValidity (cert : Certificate) (now : Int64) : Except String Unit := do
  bailIf (now < cert.notBefore.asI64) "certificate not yet valid"
  bailIf (cert.notAfter.asI64 < now) "certificate expired"

/-- The issuer has signed the certificate. -/
def verifyCertSignedBy (child : Certificate) (issuerKey : EcKey) : Except String Unit := do
  let tbs ← child.tbsDer.context ("encode tbs: " ++ ·)
  let bytes ← okOr child.signature "no signature bits"
  let signature ← (ecSignatureFromDer bytes).context ("cert sig parse: " ++ ·)
  (ecVerify issuerKey tbs signature).context ("cert chain signature invalid: " ++ ·)

/-- Every certificate after the first is signed by the one before it. -/
def verifySigned : List Certificate → Except String Unit
  | issuer :: child :: rest => do
      let issuerKey ← p384FromCert issuer
      verifyCertSignedBy child issuerKey
      verifySigned (child :: rest)
  | _ => .ok ()

/-- The extension that tells a CA. -/
def oidBasicConstraints : String := "2.5.29.19"

/-- An issuing certificate must be a CA: its first basicConstraints extension says so. -/
def requireCa (cert : Certificate) : Except String Unit :=
  match cert.extensions with
  | none => .error "issuer cert has no extensions (missing basicConstraints)"
  | some exts =>
      match exts.find? (·.extnId = oidBasicConstraints) with
      | none => .error "issuer cert lacks basicConstraints CA:TRUE"
      | some ext => do
          let ca ← (basicConstraintsFromDer ext.extnValue).context
            ("basicConstraints decode: " ++ ·)
          bailIf (ca = false) "issuer cert is not a CA (basicConstraints CA:FALSE)"

/-- A pinned root has this public key. -/
def trustedRoot (roots : List Bytes) (rootSpki : Bytes) : Bool :=
  roots.any fun root => match certificateFromDer root with
    | .ok cert => match spkiBytes cert with
      | .ok spki => spki = rootSpki
      | .error _ => false
    | .error _ => false

/-- Validate the certificate path, root first, and return the leaf's key. -/
def verifyChain (leafDer : Bytes) (cabundle : List Bytes) (roots : List Bytes) (now : Int64) :
    Except String EcKey := do
  bailIf (cabundle = []) "empty cabundle"
  bailIf (roots = []) "no pinned roots configured"
  let issuers ← cabundle.mapM fun der =>
    (certificateFromDer der).context ("cabundle cert: " ++ ·)
  let leaf ← (certificateFromDer leafDer).context ("leaf cert: " ++ ·)
  let path := issuers ++ [leaf]
  let rootSpki ← spkiBytes (path.headD leaf)
  bailIf (trustedRoot roots rootSpki = false)
    "attestation root is not the pinned AWS Nitro root"
  path.forM (checkValidity · now)
  verifySigned path
  path.dropLast.forM requireCa
  p384FromCert (path.getLastD leaf)

/-- Verify a Nitro quote end to end. -/
def verifyQuote (quote : Bytes) (expectedPcr0Hex : Option String) (expectedNonce : Bytes)
    (now : Int64) (roots : List Bytes) (expectUserData : Option Bytes) :
    Except String NitroClaims := do
  let cose ← (coseFromTaggedSlice quote).context ("cose parse: " ++ ·)
  let payload ← okOr cose.payload "attestation has no payload"
  let doc ← parseDoc payload
  let leafKey ← verifyChain doc.certificate doc.cabundle roots now
  verifyCoseWithKey cose leafKey
  let ts := doc.timestamp.toInt64
  bailIf (maxAgeMs < (now - ts).abs)
    ("attestation timestamp not fresh (age " ++ toString (now - ts).toInt ++ " ms)")
  bailIf (doc.nonce ≠ some expectedNonce) "attestation nonce does not match the client nonce"
  let pcr0 ← okOr (doc.pcrs.get 0) "no PCR0 in attestation"
  let pcr0Hex := hexEncode pcr0
  bailIf (∃ expected ∈ expectedPcr0Hex, eqIgnoreAsciiCase expected pcr0Hex = false)
    "PCR0 does not match the official enclave measurement"
  bailIf (∃ want ∈ expectUserData, doc.userData ≠ some want)
    "attestation user_data does not bind the server instance key"
  return ⟨pcr0Hex, doc.moduleId, doc.userData⟩

end

end ChermAttest
