/-
**Attestations: how a server makes one, and the verdict of a client.**

* `releaseMsg` and `instanceMsg` are the two signed texts. The project's key signs the first, the
  server's instance key the second.
* `buildSoftware` and `buildUnsigned` are the provider side.
* `verify` is the client's verdict, against the pinned trust set.
-/

import Cherm.Attest.Nitro

namespace ChermAttest

open Cherm (Bytes utf8)

/-- The attestation strength a server advertises. -/
inductive Tier where
  | unsigned
  | software
  | tee
deriving DecidableEq, Repr

/-- The attestation a server returns to a client's request. -/
structure Attestation where
  tier : Tier
  nonce : String
  serverUnixMs : Int64
  buildHash : String
  buildHashAlg : String
  releaseVersion : String
  releaseKeyId : String
  releaseSig : String
  instancePub : String
  instanceSig : String
  teeQuote : Option String

/-- Verdict colour shown to the user. -/
inductive Verdict where
  | green
  | yellow
  | red
deriving DecidableEq, Repr

/-- What is shown of an attested server. -/
structure VerifyResult where
  verdict : Verdict
  tier : Tier
  reason : String
  buildHash : String
  fingerprint : String
deriving DecidableEq

/-! ### Signed messages -/

/-- What a release is signed as. -/
def releaseMsg (version buildHash : String) : Bytes :=
  utf8 ("cherm-release\n" ++ version ++ "\n" ++ buildHash)

/-- What an instance signs. -/
def instanceMsg (nonceB64 buildHash : String) (ts : Int64) : Bytes :=
  utf8 ("cherm-instance\n" ++ nonceB64 ++ "\n" ++ buildHash ++ "\n" ++ toString ts.toInt)

section

variable [AttestCrates]

open AttestCrates

/-! ### Provider side -/

/-- The hash of the running executable, if it can be read. -/
def buildHashOf (exe : Option Bytes) : String :=
  match exe with
  | some bytes => hexEncode (blake3 bytes)
  | none => "unknown"

/-- An array of 32 bytes in base64. -/
def decode32 (b64 : String) : Option Key32 :=
  match Base64.decode b64 with
  | some bytes => if enough : bytes.length = 32 then some ⟨bytes, enough⟩ else none
  | none => none

/-- The project release key. -/
structure ReleaseKey where
  signing : SigningKey

namespace ReleaseKey

/-- The key with this secret. -/
def fromSecretB64 (secretB64 : String) : Option ReleaseKey :=
  (decode32 secretB64).map fun bytes => ⟨signingKey bytes⟩

/-- The text of the public half. -/
def publicB64 (key : ReleaseKey) : String :=
  Base64.encode (keyToBytes (verifyingKey key.signing)).bytes

/-- The first eight bytes of the public half, by which a verifier finds it. -/
def keyId (key : ReleaseKey) : String :=
  Base64.encode ((keyToBytes (verifyingKey key.signing)).bytes.take 8)

/-- Sign a release. -/
def sign (key : ReleaseKey) (version buildHash : String) : String :=
  Base64.encode (signatureToBytes (AttestCrates.sign key.signing (releaseMsg version buildHash)))

end ReleaseKey

/-- A per-server instance key. -/
structure InstanceKey where
  signing : SigningKey

namespace InstanceKey

/-- The text of the public half. -/
def publicB64 (key : InstanceKey) : String :=
  Base64.encode (keyToBytes (verifyingKey key.signing)).bytes

/-- Sign an answer to a nonce. -/
def sign (key : InstanceKey) (nonceB64 buildHash : String) (ts : Int64) : String :=
  Base64.encode
    (signatureToBytes (AttestCrates.sign key.signing (instanceMsg nonceB64 buildHash ts)))

end InstanceKey

/-- A software-tier attestation answering a nonce. -/
def buildSoftware (nonceB64 version : String) (now : Int64) (release : ReleaseKey)
    (inst : InstanceKey) (exe : Option Bytes) : Attestation where
  tier := .software
  nonce := nonceB64
  serverUnixMs := now
  releaseSig := release.sign version (buildHashOf exe)
  releaseKeyId := release.keyId
  instanceSig := inst.sign nonceB64 (buildHashOf exe) now
  instancePub := inst.publicB64
  releaseVersion := version
  buildHashAlg := "blake3"
  buildHash := buildHashOf exe
  teeQuote := none

/-- An unsigned attestation: no integrity claim. -/
def buildUnsigned (nonceB64 version : String) (now : Int64) (inst : InstanceKey)
    (exe : Option Bytes) : Attestation where
  tier := .unsigned
  nonce := nonceB64
  serverUnixMs := now
  releaseSig := ""
  releaseKeyId := ""
  instanceSig := inst.sign nonceB64 (buildHashOf exe) now
  instancePub := inst.publicB64
  releaseVersion := version
  buildHashAlg := "blake3"
  buildHash := buildHashOf exe
  teeQuote := none

/-! ### Verifier side -/

/-- A short readable fingerprint of a key's text: hexadecimal digits in groups of four. -/
def fingerprintOf (keyB64 : String) : String :=
  let digits := hexEncode ((blake3 (utf8 keyB64)).take 12)
  " ".intercalate ((digits.toList.toChunks 4).map String.ofList)

/-- An Ed25519 signature, given as texts. -/
def verifyEd (pubB64 : String) (msg : Bytes) (sigB64 : String) : Bool :=
  match decode32 pubB64, Base64.decode sigB64 with
  | some pkBytes, some sigBytes =>
      match keyFromBytes pkBytes, signatureFromSlice sigBytes with
      | some vk, some signature => verifyStrict vk msg signature
      | _, _ => false
  | _, _ => false

/-- The signature of a release, under the official key with this id. -/
def verifyReleaseSig (off : Official) (keyId version buildHash sigB64 : String) : Bool :=
  match off.releasePubkeys.find? (·.1 = keyId) with
  | some (_, pubB64) => verifyEd pubB64 (releaseMsg version buildHash) sigB64
  | none => false

/-- The signature of an instance, under the key that it names. -/
def verifyInstanceSig (instancePubB64 nonceB64 buildHash : String) (ts : Int64) (sigB64 : String) :
    Bool :=
  verifyEd instancePubB64 (instanceMsg nonceB64 buildHash ts) sigB64

/-- A red verdict. -/
def red (att : Attestation) (reason : String) : VerifyResult where
  verdict := .red
  tier := att.tier
  reason := reason
  buildHash := att.buildHash
  fingerprint := fingerprintOf att.instancePub

/-- Verify an attestation against the pinned official trust set. -/
def verify (att : Attestation) (expectedNonceB64 : String) (now : Int64) (off : Official) :
    VerifyResult :=
  if att.nonce ≠ expectedNonceB64 then
    red att "attestation nonce did not match (possible replay)"
  else match att.tier with
    | .unsigned => red att "server provided no signature — its code is unverified"
    | .software =>
        if verifyReleaseSig off att.releaseKeyId att.releaseVersion att.buildHash
            att.releaseSig = false then
          red att "release signature is not from the official project key"
        else if ∃ expected ∈ off.officialBuildHash, expected ≠ att.buildHash then
          red att "build hash does not match the official public codebase"
        else if verifyInstanceSig att.instancePub att.nonce att.buildHash att.serverUnixMs
            att.instanceSig = false then
          red att "server instance signature is invalid"
        else
          { verdict := .yellow
            tier := att.tier
            reason := "this server has only a software signature"
            buildHash := att.buildHash
            fingerprint := fingerprintOf att.instancePub }
    | .tee =>
        match att.teeQuote with
        | none => red att "tee tier but no quote provided"
        | some q =>
            match off.nitroPcr0 with
            | none => red att
                "TEE verification unavailable: no official Nitro PCR0 is pinned in this build"
            | some expectedPcr0 =>
                match Base64.decode q, Base64.decode expectedNonceB64 with
                | some quote, some nonceBytes =>
                    -- an instance key that does not decode becomes the empty string of bytes
                    let instanceRaw := (Base64.decode att.instancePub).getD []
                    match verifyQuote quote (some expectedPcr0) nonceBytes now off.nitroRoots
                        (some instanceRaw) with
                    | .ok claims =>
                        { verdict := .green
                          tier := att.tier
                          reason := "hardware TEE attests the official build"
                          buildHash := claims.pcr0Hex
                          fingerprint := fingerprintOf att.instancePub }
                    | .error e => red att ("TEE quote verification failed: " ++ e)
                | _, _ => red att "malformed tee quote or nonce"

end

end ChermAttest
