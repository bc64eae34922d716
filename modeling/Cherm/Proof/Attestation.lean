/-
**The software tier: what a yellow verdict says.**

* `SignedUnder` says in terms of the crates what a verified signature text is, and `verifyEd_iff`
  that this is what the verifier computes.
* `releaseMsg_inj`, `releaseMsg_ne_instanceMsg`: the signed texts determine what was signed, as far
  as the project keeps newlines out of what it signs, and the two kinds are never confused.
* `software_verdict_exact` is the law.
-/

import Cherm.Attest.Ideal

namespace ChermAttest

open Cherm (Bytes utf8 utf8_injective)
open AttestCrates

/-! ### The signed texts -/

/-- A text is split at a separator in one way, if the parts of one of the splits are free of it. -/
theorem append_cons_inj {α : Type} {separator : α} {front back front' back' : List α}
    (freeFront : separator ∉ front') (freeBack : separator ∉ back')
    (same : front ++ separator :: back = front' ++ separator :: back') :
    front = front' ∧ back = back' := by
  rcases List.append_eq_append_iff.mp same with ⟨gap, longer, rest⟩ | ⟨gap, longer, rest⟩
  · cases gap with
    | nil => exact ⟨by simpa using longer.symm, by simpa using rest⟩
    | cons first gap =>
        obtain ⟨rfl, _⟩ := List.cons.inj rest
        exact absurd (by simp [longer]) freeFront
  · cases gap with
    | nil => exact ⟨by simpa using longer, by simpa using rest.symm⟩
    | cons first gap =>
        obtain ⟨rfl, tail⟩ := List.cons.inj rest
        exact absurd (by simp [tail]) freeBack

/-- **The release message is injective** as soon as one of the two pairs has no newlines. -/
theorem releaseMsg_inj {version hash version' hash' : String} (freeVersion : '\n' ∉ version'.toList)
    (freeHash : '\n' ∉ hash'.toList)
    (same : releaseMsg version hash = releaseMsg version' hash') :
    version = version' ∧ hash = hash' := by
  have texts := congrArg String.toList (utf8_injective same)
  simp only [String.toList_append, List.append_assoc, List.append_cancel_left_eq] at texts
  obtain ⟨versions, hashes⟩ := append_cons_inj freeVersion freeHash texts
  exact ⟨String.ext versions, String.ext hashes⟩

/-- **Domain separation**: a release message is no instance message. -/
theorem releaseMsg_ne_instanceMsg (version hash nonce hash' : String) (ts : Int64) :
    releaseMsg version hash ≠ instanceMsg nonce hash' ts := by
  intro same
  have texts := congrArg (fun text => text.toList[6]?) (utf8_injective same)
  simp only [String.toList_append, List.append_assoc] at texts
  exact absurd texts (by
    rw [List.getElem?_append_left (by decide), List.getElem?_append_left (by decide)]
    decide)

theorem decode32_eq_some_iff {text : String} {key : Key32} :
    decode32 text = some key ↔ text = Base64.encode key.bytes := by
  unfold decode32
  constructor
  · intro decoded
    split at decoded
    · next bytes read =>
        split at decoded
        · obtain rfl := Option.some.inj decoded
          exact Base64.decode_eq_some_iff.mp read
        · cases decoded
    · cases decoded
  · rintro rfl
    rw [Base64.decode_encode]
    simp [key.length_eq]

/-- The first pinned key with an id. -/
def Official.Selects (off : Official) (keyId pubB64 : String) : Prop :=
  ∃ earlier later, off.releasePubkeys = earlier ++ (keyId, pubB64) :: later ∧
    ∀ key ∈ earlier, key.1 ≠ keyId

theorem selects_iff {off : Official} {keyId pubB64 : String} :
    off.Selects keyId pubB64 ↔ off.releasePubkeys.find? (·.1 = keyId) = some (keyId, pubB64) := by
  rw [List.find?_eq_some_iff_append]
  unfold Official.Selects
  simp

section

variable [AttestCrates]

/-! ### Verified signatures -/

/-- The text of a key and the text of a signature decode, and the signature of the message verifies
under the key. -/
def SignedUnder (pubB64 : String) (msg : Bytes) (sigB64 : String) : Prop :=
  ∃ (pk : Key32) (bytes : Bytes) (vk : VerifyingKey) (signature : Signature),
    pubB64 = Base64.encode pk.bytes ∧ sigB64 = Base64.encode bytes ∧
      keyFromBytes pk = some vk ∧ signatureFromSlice bytes = some signature ∧
      verifyStrict vk msg signature = true

/-- What the verifier computes is whether a message is signed. -/
theorem verifyEd_iff (pubB64 : String) (msg : Bytes) (sigB64 : String) :
    verifyEd pubB64 msg sigB64 = true ↔ SignedUnder pubB64 msg sigB64 := by
  unfold verifyEd
  constructor
  · intro verified
    split at verified
    · next pk bytes readKey readSig =>
        split at verified
        · next vk signature isKey isSig =>
            exact ⟨pk, bytes, vk, signature, decode32_eq_some_iff.mp readKey,
              Base64.decode_eq_some_iff.mp readSig, isKey, isSig, verified⟩
        · cases verified
    · cases verified
  · rintro ⟨pk, bytes, vk, signature, rfl, rfl, isKey, isSig, verified⟩
    rw [decode32_eq_some_iff.mpr rfl, Base64.decode_encode]
    simp only [isKey, isSig, verified]

/-- What the release key signs is signed under its text. -/
theorem signedUnder_release (key : ReleaseKey) (version hash : String) :
    SignedUnder key.publicB64 (releaseMsg version hash) (key.sign version hash) :=
  ⟨_, _, _, _, rfl, rfl, keyFromBytes_keyToBytes _, signatureFromSlice_toBytes _,
    verifyStrict_sign _ _⟩

/-- What the instance key signs is signed under its text. -/
theorem signedUnder_instance (key : InstanceKey) (nonce hash : String) (ts : Int64) :
    SignedUnder key.publicB64 (instanceMsg nonce hash ts) (key.sign nonce hash ts) :=
  ⟨_, _, _, _, rfl, rfl, keyFromBytes_keyToBytes _, signatureFromSlice_toBytes _,
    verifyStrict_sign _ _⟩

/-! ### The law -/

/-- What a yellow verdict stands for. -/
structure SoftwareSigned (att : Attestation) (expectedNonceB64 : String) (off : Official) :
    Prop where
  nonce : att.nonce = expectedNonceB64
  release : ∃ pubB64, off.Selects att.releaseKeyId pubB64 ∧
    SignedUnder pubB64 (releaseMsg att.releaseVersion att.buildHash) att.releaseSig
  official : ∀ hash, off.officialBuildHash = some hash → hash = att.buildHash
  inst : SignedUnder att.instancePub (instanceMsg att.nonce att.buildHash att.serverUnixMs)
    att.instanceSig

/-- The release signature of an attestation was not forged: if it verifies under a pinned key, then
it is over a release message of a pair that the project signed with this key, or over an instance
message. -/
def Unforged (off : Official) (att : Attestation) (signed : String → List (String × String)) :
    Prop :=
  ∀ key ∈ off.releasePubkeys,
    SignedUnder key.2 (releaseMsg att.releaseVersion att.buildHash) att.releaseSig →
      (∃ pair ∈ signed key.2, releaseMsg att.releaseVersion att.buildHash =
        releaseMsg pair.1 pair.2) ∨
      ∃ nonce hash ts, releaseMsg att.releaseVersion att.buildHash = instanceMsg nonce hash ts

/-- The release check: a pinned key is selected and the pair is signed under it. -/
theorem verifyReleaseSig_iff (off : Official) (keyId version hash sigB64 : String) :
    verifyReleaseSig off keyId version hash sigB64 = true ↔
      ∃ pubB64, off.Selects keyId pubB64 ∧ SignedUnder pubB64 (releaseMsg version hash) sigB64 := by
  unfold verifyReleaseSig
  cases found : off.releasePubkeys.find? (·.1 = keyId) with
  | none =>
      refine ⟨nofun, ?_⟩
      rintro ⟨pubB64, selected, _⟩
      rw [selects_iff, found] at selected
      cases selected
  | some entry =>
      obtain ⟨id, pubB64⟩ := entry
      obtain rfl : id = keyId := by simpa using List.find?_some found
      refine (verifyEd_iff _ _ _).trans ⟨fun signed => ⟨pubB64, selects_iff.mpr found, signed⟩, ?_⟩
      rintro ⟨other, selected, signed⟩
      rw [selects_iff, found] at selected
      obtain ⟨_, rfl⟩ := Prod.mk.inj (Option.some.inj selected)
      exact signed

/-- The verdict of the software tier, by cases as the verifier makes them. -/
theorem verify_software {att : Attestation} (software : att.tier = .software)
    (expectedNonceB64 : String) (now : Int64) (off : Official) :
    ((verify att expectedNonceB64 now off).verdict = .yellow ↔
      SoftwareSigned att expectedNonceB64 off) ∧
      (verify att expectedNonceB64 now off).verdict ≠ .green := by
  unfold verify
  by_cases fresh : att.nonce = expectedNonceB64
  · rw [if_neg (not_not.mpr fresh), software]
    dsimp only
    by_cases release : verifyReleaseSig off att.releaseKeyId att.releaseVersion att.buildHash
        att.releaseSig = true
    · rw [if_neg (by simp [release])]
      by_cases official : ∃ expected ∈ off.officialBuildHash, expected ≠ att.buildHash
      · rw [if_pos official]
        refine ⟨⟨nofun, fun facts => ?_⟩, nofun⟩
        obtain ⟨hash, isOfficial, different⟩ := official
        exact absurd (facts.official hash isOfficial) different
      · rw [if_neg official]
        by_cases inst : verifyInstanceSig att.instancePub att.nonce att.buildHash
            att.serverUnixMs att.instanceSig = true
        · rw [if_neg (by simp [inst])]
          refine ⟨⟨fun _ => ?_, fun _ => rfl⟩, nofun⟩
          refine ⟨fresh, (verifyReleaseSig_iff ..).mp release, ?_, (verifyEd_iff ..).mp inst⟩
          intro hash isOfficial
          by_contra different
          exact official ⟨hash, isOfficial, different⟩
        · rw [if_pos (Bool.eq_false_iff.mpr inst)]
          exact ⟨⟨nofun, fun facts => absurd ((verifyEd_iff ..).mpr facts.inst) inst⟩, nofun⟩
    · rw [if_pos (Bool.eq_false_iff.mpr release)]
      refine ⟨⟨nofun, fun facts => ?_⟩, nofun⟩
      exact absurd ((verifyReleaseSig_iff ..).mpr facts.release) release
  · rw [if_pos fresh]
    exact ⟨⟨nofun, fun facts => absurd facts.nonce fresh⟩, nofun⟩

/-- The id of a release key is the id of its text. -/
theorem keyIdOf_publicB64 (release : ReleaseKey) : keyIdOf release.publicB64 = release.keyId := by
  unfold keyIdOf ReleaseKey.publicB64 ReleaseKey.keyId
  rw [Base64.decode_encode]
  simp [Key32.length_eq]

/-- A release key that the pinned trust set lists is the one its id selects. -/
theorem pinned_selects {env : Environment} {release : ReleaseKey}
    (listed : release.publicB64 ∈ (pinned env).releasePubkeys.map Prod.snd) :
    (pinned env).Selects release.keyId release.publicB64 := by
  rw [selects_iff, ← keyIdOf_publicB64]
  exact (pinned_wellKeyed env).find?_of_mem listed

/-- What the provider makes with a pinned release key has all a yellow verdict stands for. -/
theorem softwareSigned_buildSoftware {off : Official} {release : ReleaseKey}
    (selected : off.Selects release.keyId release.publicB64) {exe : Option Bytes}
    (official : ∀ hash, off.officialBuildHash = some hash → hash = buildHashOf exe)
    (nonceB64 version : String) (now : Int64) (inst : InstanceKey) :
    SoftwareSigned (buildSoftware nonceB64 version now release inst exe) nonceB64 off where
  nonce := rfl
  release := ⟨_, selected, signedUnder_release release version _⟩
  official := official
  inst := signedUnder_instance inst nonceB64 _ now

/-- If the project signed only pairs without newlines, the pair of a yellow attestation is one of
them. -/
theorem SoftwareSigned.signed {att : Attestation} {expectedNonceB64 : String} {off : Official}
    (facts : SoftwareSigned att expectedNonceB64 off) {signed : String → List (String × String)}
    (plain : ∀ pubB64, ∀ pair ∈ signed pubB64, '\n' ∉ pair.1.toList ∧ '\n' ∉ pair.2.toList)
    (unforged : Unforged off att signed) :
    ∃ pubB64, off.Selects att.releaseKeyId pubB64 ∧
      (att.releaseVersion, att.buildHash) ∈ signed pubB64 := by
  obtain ⟨pubB64, selected, verified⟩ := facts.release
  have listed : (att.releaseKeyId, pubB64) ∈ off.releasePubkeys := by
    obtain ⟨earlier, later, split, _⟩ := selected
    rw [split]
    simp
  refine ⟨pubB64, selected, ?_⟩
  rcases unforged _ listed verified with ⟨⟨version, hash⟩, member, same⟩ | ⟨nonce, hash, ts, same⟩
  · obtain ⟨freeVersion, freeHash⟩ := plain _ _ member
    obtain ⟨rfl, rfl⟩ := releaseMsg_inj freeVersion freeHash same
    exact member
  · exact absurd same (releaseMsg_ne_instanceMsg _ _ _ _ _)

/-- **The verdict of the software tier is exact.** It is yellow if and only if everything a yellow
verdict stands for holds, and never green; what the provider makes with a pinned release key is
yellow, whatever the nonce, the version and the time; and if the project signed only pairs without
newlines, a yellow attestation shows a pair that it signed. -/
theorem software_verdict_exact :
    (∀ (att : Attestation) (expectedNonceB64 : String) (now : Int64) (off : Official),
      att.tier = .software →
        ((verify att expectedNonceB64 now off).verdict = .yellow ↔
          SoftwareSigned att expectedNonceB64 off) ∧
        (verify att expectedNonceB64 now off).verdict ≠ .green) ∧
    (∀ (release : ReleaseKey) (inst : InstanceKey) (exe : Option Bytes) (nonceB64 version : String)
      (made now : Int64) (off : Official),
      (off.Selects release.keyId release.publicB64 ∨
        ∃ env, off = pinned env ∧ release.publicB64 ∈ off.releasePubkeys.map Prod.snd) →
      (∀ hash, off.officialBuildHash = some hash → hash = buildHashOf exe) →
        (verify (buildSoftware nonceB64 version made release inst exe) nonceB64 now off).verdict =
          .yellow) ∧
    ∀ (att : Attestation) (expectedNonceB64 : String) (now : Int64) (off : Official)
      (signed : String → List (String × String)),
      (∀ pubB64, ∀ pair ∈ signed pubB64, '\n' ∉ pair.1.toList ∧ '\n' ∉ pair.2.toList) →
      Unforged off att signed → att.tier = .software →
      (verify att expectedNonceB64 now off).verdict = .yellow →
        ∃ pubB64, off.Selects att.releaseKeyId pubB64 ∧
          (att.releaseVersion, att.buildHash) ∈ signed pubB64 := by
  refine ⟨fun att nonce now off software => verify_software software nonce now off, ?_, ?_⟩
  · intro release inst exe nonceB64 version made now off selected official
    have selected : off.Selects release.keyId release.publicB64 := by
      rcases selected with selected | ⟨env, rfl, listed⟩
      · exact selected
      · exact pinned_selects listed
    exact (verify_software rfl nonceB64 now off).1.mpr
      (softwareSigned_buildSoftware selected official nonceB64 version made inst)
  · intro att nonce now off signed plain unforged software yellow
    exact ((verify_software software nonce now off).1.mp yellow).signed plain unforged

end

namespace Ideal

def projectKey : ReleaseKey := ⟨digest [1]⟩

def serverKey : InstanceKey := ⟨digest [2]⟩

/-- A client that pins the project's key. -/
def client : Official := pinned ⟨some projectKey.publicB64, none, false, none, none, none⟩

/-- The attestation of a server built from an official release. -/
def officialAttestation : Attestation :=
  buildSoftware (Base64.encode [9]) "0.1.0" 1700000000000 projectKey serverKey (some [1, 2, 3])

/-- The attestation is yellow, and its pair is the one the project signed. -/
theorem official_pair_signed :
    (verify officialAttestation (Base64.encode [9]) 1700000000000 client).verdict = .yellow ∧
      ∃ pubB64, client.Selects officialAttestation.releaseKeyId pubB64 ∧
        (officialAttestation.releaseVersion, officialAttestation.buildHash) ∈
          [("0.1.0", buildHashOf (some [1, 2, 3]))] := by
  obtain ⟨_, provided, shown⟩ := software_verdict_exact
  have yellow := provided projectKey serverKey (some [1, 2, 3]) (Base64.encode [9]) "0.1.0"
    1700000000000 1700000000000 client (.inr ⟨_, rfl, by decide +kernel⟩) nofun
  refine ⟨yellow, shown officialAttestation (Base64.encode [9]) 1700000000000 client
    (fun _ => [("0.1.0", buildHashOf (some [1, 2, 3]))]) ?_ ?_ rfl yellow⟩
  · intro _ pair signed
    obtain rfl := List.mem_singleton.mp signed
    decide +kernel
  · intro _ _ _
    exact .inl ⟨_, List.mem_singleton.mpr rfl, rfl⟩

end Ideal

end ChermAttest
