/-
**The hardware tier: what a green verdict vouches for.**

* The success of each function of the quote verifier is read off as what it established:
  `p384FromCert_iff`, `checkValidity_iff`, `verifyCertSignedBy_iff`, `requireCa_iff`,
  `verifySigned_iff`, and for the whole certificate path `verifyChain_iff`.
* `age_accepted_iff`: the age test on wrapping 64-bit arithmetic passes a fresh timestamp, and two
  kinds of timestamps that are far from fresh.
* `verify_green_iff` is the verdict; `green_sound_iff` says for which attestations a green verdict
  vouches for everything it stands for, and so for the key whose fingerprint is shown.
-/

import Cherm.Attest.Ideal

namespace ChermAttest

open Cherm (Bytes utf8)
open Except AttestCrates

/-! ### The age test -/

/-- The timestamp is within the accepted age of the clock. -/
def Fresh (now : Int64) (timestamp : UInt64) : Prop :=
  (now.toInt - timestamp.toNat).natAbs ≤ maxAgeMs.toInt.toNat

/-- The timestamp passes for fresh only because the arithmetic wraps: it is half the range ahead of
the clock, or within the accepted age of the whole range ahead. -/
def AgeWraps (now : Int64) (timestamp : UInt64) : Prop :=
  (timestamp.toNat : Int) = now.toInt + 2 ^ 63 ∨
    ((timestamp.toNat : Int) - (now.toInt + 2 ^ 64)).natAbs ≤ maxAgeMs.toInt.toNat

theorem toInt_maxAgeMs : maxAgeMs.toInt = 300000 := by decide

/-- The absolute value of a 64-bit integer: the least one has none. -/
theorem toInt_abs (x : Int64) :
    x.abs.toInt = if x.toInt = -2 ^ 63 then -2 ^ 63 else (x.toInt.natAbs : Int) := by
  have least : (BitVec.intMin 64).toInt = -2 ^ 63 := by decide
  show x.toBitVec.abs.toInt = _
  rw [BitVec.toInt_abs_eq_natAbs]
  by_cases same : x.toBitVec = BitVec.intMin 64
  · rw [if_pos same, least, if_pos]
    show x.toBitVec.toInt = _
    rw [same, least]
  · rw [if_neg same, if_neg]
    · rfl
    · intro isLeast
      exact same (BitVec.eq_of_toInt_eq (isLeast.trans least.symm))

/-- The age as it is computed. -/
theorem toInt_age (now : Int64) (timestamp : UInt64) :
    (now - timestamp.toInt64).toInt = (now.toInt - timestamp.toNat).bmod (2 ^ 64) := by
  have ts : timestamp.toInt64.toInt = (timestamp.toNat : Int).bmod (2 ^ 64) := by
    show timestamp.toBitVec.toInt = _
    rw [BitVec.toInt_eq_toNat_bmod]
    rfl
  rw [Int64.toInt_sub, ts, Int.sub_bmod_bmod]

/-- The age test passes what is fresh, and what wraps. -/
theorem age_accepted_iff (now : Int64) (timestamp : UInt64) :
    ¬ maxAgeMs < (now - timestamp.toInt64).abs ↔ Fresh now timestamp ∨ AgeWraps now timestamp := by
  have nowLow := now.le_toInt
  have nowHigh := now.toInt_lt
  have tsHigh := timestamp.toNat_lt
  unfold Fresh AgeWraps
  rw [Int64.lt_iff_toInt_lt, toInt_abs, toInt_age, toInt_maxAgeMs, Int.bmod_def]
  split <;> split <;> omega

/-- What wraps is not fresh. -/
theorem AgeWraps.not_fresh {now : Int64} {timestamp : UInt64} (wraps : AgeWraps now timestamp) :
    ¬ Fresh now timestamp := by
  have nowLow := now.le_toInt
  have nowHigh := now.toInt_lt
  unfold AgeWraps at wraps
  unfold Fresh
  rw [toInt_maxAgeMs] at *
  omega

theorem toInt_asI64 (time : Time) : time.asI64.toInt = time.millis := by
  have small := time.inRange
  exact Int64.toInt_ofNat_of_lt (by omega)

/-- The clock is within the validity of a certificate. -/
def ValidAt (now : Int64) (cert : Certificate) : Prop :=
  cert.notBefore.millis ≤ now.toInt ∧ now.toInt ≤ cert.notAfter.millis

theorem checkValidity_iff {cert : Certificate} {now : Int64} {u : Unit} :
    checkValidity cert now = .ok u ↔ ValidAt now cert := by
  unfold checkValidity ValidAt
  rw [bind_eq_ok_iff]
  simp only [bailIf_eq_ok_iff, Int64.lt_iff_toInt_lt, toInt_asI64, Int.not_lt]
  exact ⟨fun valid => valid.choose_spec, fun valid => ⟨(), valid⟩⟩

/-- The text of the instance key is a 32-byte key. -/
def IsKeyText (text : String) : Prop := ∃ key : Key32, text = Base64.encode key.bytes

/-- The document binds what the verifier takes for the instance key: nothing, where its text cannot
be decoded. -/
def BindsBytes (att : Attestation) (doc : AttestationDoc) : Prop :=
  doc.userData = some ((Base64.decode att.instancePub).getD [])

/-- The document binds the instance key, which is a key. -/
def BindsKey (att : Attestation) (doc : AttestationDoc) : Prop :=
  ∃ key : Key32, att.instancePub = Base64.encode key.bytes ∧ doc.userData = some key.bytes

theorem bindsKey_iff {att : Attestation} {doc : AttestationDoc} :
    BindsKey att doc ↔ IsKeyText att.instancePub ∧ BindsBytes att doc := by
  unfold BindsKey IsKeyText BindsBytes
  constructor
  · rintro ⟨key, isText, bound⟩
    rw [isText, Base64.decode_encode]
    exact ⟨⟨key, rfl⟩, bound⟩
  · rintro ⟨⟨key, isText⟩, bound⟩
    rw [isText, Base64.decode_encode] at bound
    exact ⟨key, isText, bound⟩

section

variable [AttestCrates]

/-! ### The certificate path -/

/-- The P-384 key of a certificate. -/
def CertKey (cert : Certificate) (key : EcKey) : Prop :=
  ∃ bytes, cert.subjectPublicKey = some bytes ∧ ecKeyFromSec1 bytes = .ok key

/-- A certificate is signed with the key of another. -/
def SignedBy (issuer child : Certificate) : Prop :=
  ∃ key tbs bytes signature, CertKey issuer key ∧ child.tbsDer = .ok tbs ∧
    child.signature = some bytes ∧ ecSignatureFromDer bytes = .ok signature ∧
    ecVerify key tbs signature = .ok ()

/-- The first basicConstraints extension of a certificate makes it a CA. -/
def IsCa (cert : Certificate) : Prop :=
  ∃ exts ext, cert.extensions = some exts ∧
    exts.find? (·.extnId = oidBasicConstraints) = some ext ∧
    basicConstraintsFromDer ext.extnValue = .ok true

/-- A certificate has the public key of a pinned root. -/
def HasRootKey (roots : List Bytes) (cert : Certificate) : Prop :=
  ∃ der ∈ roots, ∃ root spki, certificateFromDer der = .ok root ∧ root.spkiDer = .ok spki ∧
    cert.spkiDer = .ok spki

/-- A certificate path, root first, and the key of its leaf. -/
structure PathValid (leafDer : Bytes) (cabundle roots : List Bytes) (now : Int64)
    (path : List Certificate) (leafKey : EcKey) : Prop where
  parsed : List.Forall₂ (fun der cert => certificateFromDer der = .ok cert)
    (cabundle ++ [leafDer]) path
  issued : cabundle ≠ []
  root : ∃ first, path.head? = some first ∧ HasRootKey roots first
  validity : ∀ cert ∈ path, ValidAt now cert
  signed : List.IsChain SignedBy path
  ca : ∀ cert ∈ path.dropLast, IsCa cert
  leaf : ∃ leaf, path.getLast? = some leaf ∧ CertKey leaf leafKey

theorem p384FromCert_iff {cert : Certificate} {key : EcKey} :
    p384FromCert cert = .ok key ↔ CertKey cert key := by
  unfold p384FromCert CertKey
  simp only [bind_eq_ok_iff, context_eq_ok_iff, okOr_eq_ok_iff]

theorem verifyCertSignedBy_iff {child : Certificate} {issuerKey : EcKey} {u : Unit} :
    verifyCertSignedBy child issuerKey = .ok u ↔
      ∃ tbs bytes signature, child.tbsDer = .ok tbs ∧ child.signature = some bytes ∧
        ecSignatureFromDer bytes = .ok signature ∧ ecVerify issuerKey tbs signature = .ok () := by
  unfold verifyCertSignedBy
  simp only [bind_eq_ok_iff, context_eq_ok_iff, okOr_eq_ok_iff]
  constructor
  · rintro ⟨tbs, encoded, bytes, present, signature, parsed, verified⟩
    exact ⟨tbs, bytes, signature, encoded, present, parsed, verified⟩
  · rintro ⟨tbs, bytes, signature, encoded, present, parsed, verified⟩
    exact ⟨tbs, encoded, bytes, present, signature, parsed, verified⟩

theorem requireCa_iff {cert : Certificate} {u : Unit} :
    requireCa cert = .ok u ↔ IsCa cert := by
  unfold requireCa IsCa
  cases cert.extensions with
  | none => simp
  | some exts =>
      cases found : exts.find? (·.extnId = oidBasicConstraints) with
      | none => simp [found]
      | some ext =>
          simp only [found]
          rw [bind_eq_ok_iff]
          simp [found]

/-- The loop over the path makes a chain of it. -/
theorem verifySigned_iff {path : List Certificate} {u : Unit} :
    verifySigned path = .ok u ↔ List.IsChain SignedBy path := by
  fun_induction verifySigned path with
  | case1 issuer child rest ih =>
      rw [List.isChain_cons_cons, ← ih]
      simp only [bind_eq_ok_iff, p384FromCert_iff, verifyCertSignedBy_iff]
      constructor
      · rintro ⟨key, isKey, _, ⟨tbs, bytes, signature, facts⟩, later⟩
        exact ⟨⟨key, tbs, bytes, signature, isKey, facts⟩, later⟩
      · rintro ⟨⟨key, tbs, bytes, signature, isKey, facts⟩, later⟩
        exact ⟨key, isKey, (), ⟨tbs, bytes, signature, facts⟩, later⟩
  | case2 path short =>
      refine ⟨fun _ => ?_, fun _ => rfl⟩
      match path, short with
      | [], _ => exact .nil
      | [cert], _ => exact .singleton cert
      | issuer :: child :: rest, short => exact (short issuer child rest rfl).elim

theorem trustedRoot_iff {roots : List Bytes} {cert : Certificate} {spki : Bytes}
    (isSpki : cert.spkiDer = .ok spki) : trustedRoot roots spki = true ↔ HasRootKey roots cert := by
  unfold trustedRoot HasRootKey
  rw [List.any_eq_true]
  refine exists_congr fun der => and_congr_right fun _ => ?_
  cases parsed : certificateFromDer der with
  | error e => simp
  | ok root =>
      cases encoded : root.spkiDer with
      | error e => simp [spkiBytes, encoded, context]
      | ok other => simp [spkiBytes, encoded, context, isSpki, eq_comm]

/-- **The certificate path**: the verifier returns a key exactly if it is the leaf key of a valid
path. -/
theorem verifyChain_iff {leafDer : Bytes} {cabundle roots : List Bytes} {now : Int64}
    {leafKey : EcKey} :
    verifyChain leafDer cabundle roots now = .ok leafKey ↔
      ∃ path, PathValid leafDer cabundle roots now path leafKey := by
  unfold verifyChain
  simp only [bind_eq_ok_iff, bailIf_eq_ok_iff, context_eq_ok_iff, mapM_eq_ok_iff, forM_eq_ok_iff,
    checkValidity_iff, verifySigned_iff, requireCa_iff, p384FromCert_iff, spkiBytes,
    Bool.not_eq_false]
  constructor
  · rintro ⟨_, issued, _, _, issuers, parsedIssuers, leaf, parsedLeaf, spki, isSpki, _, trusted, _,
      validity, _, signed, _, ca, isKey⟩
    cases issuers with
    | nil => exact absurd (List.forall₂_nil_right_iff.mp parsedIssuers) issued
    | cons first rest =>
        refine ⟨first :: rest ++ [leaf], ?_, issued, ⟨first, rfl, ?_⟩, validity, signed, ca, leaf,
          ?_, ?_⟩
        · exact List.rel_append parsedIssuers (.cons parsedLeaf .nil)
        · exact (trustedRoot_iff isSpki).mp trusted
        · exact List.getLast?_concat
        · rwa [List.getLastD_concat] at isKey
  · rintro ⟨path, valid⟩
    obtain ⟨issuers, leaf, rfl, parsedIssuers, parsedLeaf⟩ := forall₂_concat valid.parsed
    obtain ⟨last, isLast, isKey⟩ := valid.leaf
    obtain rfl : leaf = last := Option.some.inj (List.getLast?_concat.symm.trans isLast)
    obtain ⟨first, isFirst, hasRoot⟩ := valid.root
    have isHead : (issuers ++ [leaf]).headD leaf = first := by
      rw [List.headD_eq_head?_getD, isFirst, Option.getD_some]
    obtain ⟨der, pinned, root, spki, parsedRoot, encoded, isSpki⟩ := hasRoot
    refine ⟨(), valid.issued, (), ?_, issuers, parsedIssuers, leaf, parsedLeaf, spki, ?_,
      (), ?_, (),
      valid.validity, (), valid.signed, (), valid.ca, ?_⟩
    · rintro rfl
      cases pinned
    · rwa [isHead]
    · exact (trustedRoot_iff isSpki).mpr ⟨der, pinned, root, spki, parsedRoot, encoded, isSpki⟩
    · rwa [List.getLastD_concat]

/-! ### The quote -/

/-- Everything a quote is checked for, but for its age and the instance key: the nonces, the pinned
measurement, the certificate path, and the signature of the leaf key over the payload that was
parsed. -/
structure QuoteChecked (att : Attestation) (expectedNonceB64 : String) (now : Int64)
    (off : Official) (doc : AttestationDoc) : Prop where
  nonce : att.nonce = expectedNonceB64
  docNonce : ∃ bytes, Base64.decode expectedNonceB64 = some bytes ∧ doc.nonce = some bytes
  pcr0 : ∃ expected pcr0, off.nitroPcr0 = some expected ∧ doc.pcrs.get 0 = some pcr0 ∧
    eqIgnoreAsciiCase expected (hexEncode pcr0) = true
  quote : ∃ text quote cose payload path leafKey signature,
    att.teeQuote = some text ∧ Base64.decode text = some quote ∧
    coseFromTaggedSlice quote = .ok cose ∧ cose.payload = some payload ∧
    docFromReader payload = .ok doc ∧
    PathValid doc.certificate doc.cabundle off.nitroRoots now path leafKey ∧
    ecSignatureFromSlice cose.signature = .ok signature ∧
    ecVerify leafKey (sigStructureData cose.«protected» [] payload) signature = .ok ()

/-- A quote carries one document. -/
theorem QuoteChecked.doc_unique {att : Attestation} {expectedNonceB64 : String} {now : Int64}
    {off : Official} {doc doc' : AttestationDoc} (first :
    QuoteChecked att expectedNonceB64 now off doc)
    (second : QuoteChecked att expectedNonceB64 now off doc') : doc = doc' := by
  obtain ⟨text, quote, cose, payload, _, _, _, isText, isQuote, isCose, isPayload, isDoc, _⟩ :=
    first.quote
  obtain ⟨text', quote', cose', payload', _, _, _, isText', isQuote', isCose', isPayload', isDoc',
    _⟩ := second.quote
  obtain rfl := Option.some.inj (isText.symm.trans isText')
  obtain rfl := Option.some.inj (isQuote.symm.trans isQuote')
  obtain rfl := Except.ok.inj (isCose.symm.trans isCose')
  obtain rfl := Option.some.inj (isPayload.symm.trans isPayload')
  exact Except.ok.inj (isDoc.symm.trans isDoc')

/-- **The quote verifier**: what its success established. -/
theorem verifyQuote_iff {quote : Bytes} {expectedPcr0 : String} {expectedNonce : Bytes}
    {now : Int64} {roots : List Bytes} {userData : Bytes} {claims : NitroClaims} :
    verifyQuote quote (some expectedPcr0) expectedNonce now roots (some userData) = .ok claims ↔
      ∃ cose payload doc path leafKey signature pcr0,
        coseFromTaggedSlice quote = .ok cose ∧ cose.payload = some payload ∧
        docFromReader payload = .ok doc ∧
        PathValid doc.certificate doc.cabundle roots now path leafKey ∧
        ecSignatureFromSlice cose.signature = .ok signature ∧
        ecVerify leafKey (sigStructureData cose.«protected» [] payload) signature = .ok () ∧
        (Fresh now doc.timestamp ∨ AgeWraps now doc.timestamp) ∧
        doc.nonce = some expectedNonce ∧ doc.pcrs.get 0 = some pcr0 ∧
        eqIgnoreAsciiCase expectedPcr0 (hexEncode pcr0) = true ∧ doc.userData = some userData ∧
        claims = ⟨hexEncode pcr0, doc.moduleId, doc.userData⟩ := by
  unfold verifyQuote parseDoc verifyCoseWithKey CoseSign1.tbsData
  simp only [bind_eq_ok_iff, bailIf_eq_ok_iff, context_eq_ok_iff, okOr_eq_ok_iff, pure_eq_ok_iff,
    verifyChain_iff, age_accepted_iff]
  constructor
  · rintro ⟨cose, isCose, payload, isPayload, doc, isDoc, leafKey, ⟨path, valid⟩, _,
      ⟨signature, isSignature, verified⟩, _, age, _, nonce, pcr0, isPcr0, _, measured, _,
        bound, rfl⟩
    refine ⟨cose, payload, doc, path, leafKey, signature, pcr0, isCose, isPayload, isDoc, valid,
      isSignature, ?_, age, not_not.mp nonce, isPcr0, ?_, ?_, rfl⟩
    · rwa [isPayload] at verified
    · by_contra differs
      exact measured ⟨expectedPcr0, rfl, Bool.eq_false_iff.mpr differs⟩
    · by_contra differs
      exact bound ⟨userData, rfl, differs⟩
  · rintro ⟨cose, payload, doc, path, leafKey, signature, pcr0, isCose, isPayload, isDoc, valid,
      isSignature, verified, age, nonce, isPcr0, measured, bound, rfl⟩
    refine ⟨cose, isCose, payload, isPayload, doc, isDoc, leafKey, ⟨path, valid⟩, (),
      ⟨signature, isSignature, ?_⟩, (), age, (), not_not.mpr nonce, pcr0, isPcr0, (), ?_,
        (), ?_, rfl⟩
    · rwa [isPayload]
    · rintro ⟨other, isOther, differs⟩
      obtain rfl := Option.some.inj isOther
      rw [measured] at differs
      cases differs
    · rintro ⟨other, isOther, differs⟩
      obtain rfl := Option.some.inj isOther
      exact differs bound

/-- **The verdict**: green if and only if the quote is checked, its age is accepted, and it binds
what the verifier takes for the instance key. -/
theorem verify_green_iff (att : Attestation) (expectedNonceB64 : String) (now : Int64)
    (off : Official) :
    (verify att expectedNonceB64 now off).verdict = .green ↔
      att.tier = .tee ∧ ∃ doc, QuoteChecked att expectedNonceB64 now off doc ∧
        (Fresh now doc.timestamp ∨ AgeWraps now doc.timestamp) ∧ BindsBytes att doc := by
  unfold verify
  by_cases fresh : att.nonce = expectedNonceB64
  · rw [if_neg (not_not.mpr fresh)]
    cases tier : att.tier with
    | unsigned => simp [red]
    | software =>
        refine ⟨fun green => ?_, nofun⟩
        dsimp only at green
        split at green
        · cases green
        · split at green
          · cases green
          · split at green <;> cases green
    | tee =>
        simp only [true_and]
        constructor
        · intro green
          split at green
          · cases green
          · next text isText =>
              split at green
              · cases green
              · next expectedPcr0 isPinned =>
                  split at green
                  · next quote nonceBytes isQuote isNonce =>
                      split at green
                      · next claims verified =>
                          obtain ⟨cose, payload, doc, path, leafKey, signature, pcr0, isCose,
                            isPayload, isDoc, valid, isSignature, signed, age, nonce, isPcr0,
                            measured, bound, _⟩ := verifyQuote_iff.mp verified
                          exact ⟨doc, ⟨fresh, ⟨nonceBytes, isNonce, nonce⟩,
                            ⟨expectedPcr0, pcr0, isPinned, isPcr0, measured⟩,
                            ⟨text, quote, cose, payload, path, leafKey, signature, isText, isQuote,
                              isCose, isPayload, isDoc, valid, isSignature, signed⟩⟩, age, bound⟩
                      · cases green
                  · cases green
        · rintro ⟨doc, checked, age, bound⟩
          obtain ⟨nonceBytes, isNonce, nonce⟩ := checked.docNonce
          obtain ⟨expectedPcr0, pcr0, isPinned, isPcr0, measured⟩ := checked.pcr0
          obtain ⟨text, quote, cose, payload, path, leafKey, signature, isText, isQuote, isCose,
            isPayload, isDoc, valid, isSignature, signed⟩ := checked.quote
          have verified := verifyQuote_iff.mpr ⟨cose, payload, doc, path, leafKey, signature, pcr0,
            isCose, isPayload, isDoc, valid, isSignature, signed, age, nonce, isPcr0,
            measured, bound,
            rfl⟩
          simp only [isText, isPinned, isQuote, isNonce, verified]
  · rw [if_pos fresh]
    exact ⟨nofun, fun ⟨_, _, checked, _⟩ => absurd checked.nonce fresh⟩

/-! ### The law -/

/-- **The law**: a green verdict vouches for a fresh quote that binds the instance key, a 32-byte
key, whose fingerprint is the one shown. -/
def GreenSound (att : Attestation) (expectedNonceB64 : String) (now : Int64) (off : Official) :
    Prop :=
  (verify att expectedNonceB64 now off).verdict = .green →
    ∃ doc, QuoteChecked att expectedNonceB64 now off doc ∧ Fresh now doc.timestamp ∧
      ∃ key : Key32, att.instancePub = Base64.encode key.bytes ∧ doc.userData = some key.bytes ∧
        (verify att expectedNonceB64 now off).fingerprint = fingerprintOf (Base64.encode key.bytes)

/-- What the verifier overlooks: an otherwise checked quote that binds what became of a text that is
no key, or whose timestamp only the wrapping arithmetic takes for fresh. -/
def Overlooks (att : Attestation) (expectedNonceB64 : String) (now : Int64) (off : Official) :
    Prop :=
  att.tier = .tee ∧ ∃ doc, QuoteChecked att expectedNonceB64 now off doc ∧ BindsBytes att doc ∧
    (AgeWraps now doc.timestamp ∨ Fresh now doc.timestamp ∧ ¬ IsKeyText att.instancePub)

/-- Every verdict shows the fingerprint of the text it was given. -/
theorem verify_fingerprint (att : Attestation) (expectedNonceB64 : String) (now : Int64)
    (off : Official) :
    (verify att expectedNonceB64 now off).fingerprint = fingerprintOf att.instancePub := by
  unfold verify
  repeat' split
  all_goals first
    | rfl
    | dsimp only
      split <;> rfl

/-- **A green verdict is sound exactly where nothing is overlooked.** -/
theorem green_sound_iff (att : Attestation) (expectedNonceB64 : String) (now : Int64)
    (off : Official) :
    GreenSound att expectedNonceB64 now off ↔ ¬ Overlooks att expectedNonceB64 now off := by
  unfold GreenSound
  rw [verify_green_iff, verify_fingerprint]
  constructor
  · rintro sound ⟨tier, doc, checked, bound, overlooked⟩
    have age : Fresh now doc.timestamp ∨ AgeWraps now doc.timestamp :=
      overlooked.elim .inr fun fresh => .inl fresh.1
    obtain ⟨doc', checked', fresh, key, isText, _⟩ := sound ⟨tier, doc, checked, age, bound⟩
    obtain rfl := checked.doc_unique checked'
    rcases overlooked with wraps | ⟨_, noKey⟩
    · exact wraps.not_fresh fresh
    · exact noKey ⟨key, isText⟩
  · rintro overlooks ⟨tier, doc, checked, age, bound⟩
    have isKey : IsKeyText att.instancePub := by
      by_contra noKey
      refine overlooks ⟨tier, doc, checked, bound, ?_⟩
      exact age.elim (fun fresh => .inr ⟨fresh, noKey⟩) .inl
    have fresh : Fresh now doc.timestamp :=
      age.resolve_right fun wraps => overlooks ⟨tier, doc, checked, bound, .inl wraps⟩
    obtain ⟨key, isText, isBound⟩ := bindsKey_iff.mpr ⟨isKey, bound⟩
    exact ⟨doc, checked, fresh, key, isText, isBound, by rw [isText]⟩

end

namespace Ideal

/-- A client that pins the enclave's root and measurement. -/
def trusting : Official where
  releasePubkeys := []
  officialBuildHash := none
  nitroPcr0 := some "ab"
  nitroRoots := [[1]]

/-- The attestation of a server outside: a genuine quote of the enclave, which binds no key, and a
text that is no key in place of the instance key. -/
def keylessAttestation : Attestation where
  tier := .tee
  nonce := Base64.encode [9]
  serverUnixMs := 1700000000000
  buildHash := ""
  buildHashAlg := "blake3"
  releaseVersion := ""
  releaseKeyId := ""
  releaseSig := ""
  instancePub := "my server"
  instanceSig := ""
  teeQuote := some (Base64.encode [18, 7, 21])

/-- The verdict is green, and the fingerprint shown is of no key. -/
theorem green_without_key :
    ¬ ∀ (att : Attestation) (expectedNonceB64 : String) (now : Int64) (off : Official),
      GreenSound att expectedNonceB64 now off := by
  intro law
  obtain ⟨_, _, _, key, isText, _⟩ := law keylessAttestation (Base64.encode [9]) 1700000000000
    trusting (by decide +kernel)
  have decoded : Base64.decode keylessAttestation.instancePub = some key.bytes := by
    rw [isText, Base64.decode_encode]
  have undecodable : Base64.decode keylessAttestation.instancePub = none := by decide +kernel
  rw [undecodable] at decoded
  cases decoded

end Ideal

end ChermAttest
