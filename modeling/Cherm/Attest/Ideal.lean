/-
**Attestation crates to compute with.**

An instance of `AttestCrates` in which everything is computed. A signature carries its key and a
digest of the message in clear. Of the encodings of a quote there is one enclave, whose two
certificates and whose document are looked up.
-/

import Cherm.Attest.Verify

namespace ChermAttest.Ideal

open Cherm (Bytes)

theorem length_padded (bytes : Bytes) : ((bytes ++ List.replicate 32 0).take 32).length = 32 := by
  simp

/-- Thirty-two bytes of any bytes. -/
def digest (bytes : Bytes) : Key32 where
  bytes := (bytes ++ List.replicate 32 0).take 32
  length_eq := length_padded bytes

def tooEarly : Time := ⟨0, by decide⟩

def tooLate : Time := ⟨4102444800000, by decide⟩

/-- The root, which is a CA and has the key 11. -/
def rootCert : Certificate where
  tbsDer := .ok [10]
  spkiDer := .ok [11]
  subjectPublicKey := some [11]
  notBefore := tooEarly
  notAfter := tooLate
  extensions := some [⟨oidBasicConstraints, [1]⟩]
  signature := some [11, 10]

/-- The leaf, which has the key 21 and is signed by the root. -/
def leafCert : Certificate where
  tbsDer := .ok [20]
  spkiDer := .ok [21]
  subjectPublicKey := some [21]
  notBefore := tooEarly
  notAfter := tooLate
  extensions := none
  signature := some [11, 20]

/-- The document of an enclave that has no user data to bind. -/
def enclaveDoc : AttestationDoc where
  moduleId := "enclave"
  digest := "SHA384"
  timestamp := 1700000000000
  pcrs := (∅ : Table UInt8 Bytes).put 0 [0xAB]
  certificate := [2]
  cabundle := [[1]]
  publicKey := none
  userData := some []
  nonce := some [9]

abbrev Signature64 := { bytes : Bytes // bytes.length = 64 }

instance crates : AttestCrates where
  blake3 bytes := (digest bytes).bytes
  SigningKey := Key32
  VerifyingKey := Key32
  Signature := Signature64
  signingKey key := key
  verifyingKey key := key
  keyToBytes key := key
  keyFromBytes key := some key
  sign key msg := ⟨key.bytes ++ (digest msg).bytes, by simp [key.length_eq, (digest msg).length_eq]⟩
  signatureToBytes signature := signature.1
  signatureFromSlice bytes := if enough : bytes.length = 64 then some ⟨bytes, enough⟩ else none
  verifyStrict key msg signature := signature.1 = key.bytes ++ (digest msg).bytes
  coseFromTaggedSlice
    | [18, payload, signer] => .ok ⟨[], some [payload], [signer, payload]⟩
    | _ => .error "not a COSE_Sign1"
  sigStructureData «protected» aad payload := «protected» ++ aad ++ payload
  docFromReader
    | [7] => .ok enclaveDoc
    | _ => .error "not a document"
  certificateFromDer
    | [1] => .ok rootCert
    | [2] => .ok leafCert
    | _ => .error "not a certificate"
  basicConstraintsFromDer
    | [ca] => .ok (ca = 1)
    | _ => .error "not basicConstraints"
  EcKey := UInt8
  EcSignature := UInt8 × Bytes
  ecKeyFromSec1
    | [key] => .ok key
    | _ => .error "not a key"
  ecSignatureFromSlice
    | signer :: msg => .ok (signer, msg)
    | [] => .error "no signature"
  ecSignatureFromDer
    | signer :: msg => .ok (signer, msg)
    | [] => .error "no signature"
  ecVerify key msg signature :=
    if signature = (key, msg) then .ok () else .error "signature error"
  keyFromBytes_keyToBytes _ := rfl
  signatureFromSlice_toBytes signature := dif_pos signature.2
  verifyStrict_sign _ _ := decide_eq_true rfl

end ChermAttest.Ideal
