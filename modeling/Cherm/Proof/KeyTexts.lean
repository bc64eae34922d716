/-
**The texts in which a client publishes its keys are refused by both validators.**

A device writes its identity keys and its one-time keys with `to_base64`, without padding. The relay
(at `Register` and `PublishPrekeys`) and the client (in `acceptIdentity`) read them with the
`STANDARD` engine, which takes padded texts only, and thirty-two bytes always need padding. So no
published text passes either validator (`published_texts_refused`), while both accept the padded
text of the same key (`validPubkeyB64_encode`).
-/

import Cherm.Client.Identity
import Cherm.Relay.Conn
import Cherm.Ideal

namespace Cherm

open Crates

section

variable [Crates]

/-- Both validators accept the text, and it decodes to the key. -/
def TextAgreed (text : String) (key : PublicKey) : Prop :=
  Relay.validPubkeyB64 text = true ∧ validPubkeyB64 text = true ∧ b64Decode text = .ok key.bytes

/-- Neither validator accepts the text, and it decodes to nothing. -/
def TextRefused (text : String) : Prop :=
  Relay.validPubkeyB64 text = false ∧ validPubkeyB64 text = false ∧
    ∀ bytes, b64Decode text ≠ .ok bytes

/-- The two programs have one validator each, and these agree. -/
theorem relay_validPubkeyB64 (text : String) :
    Relay.validPubkeyB64 text = validPubkeyB64 text := rfl

theorem validPubkeyB64_of_decode_error {text : String} (undecodable :
    ∀ bytes, b64Decode text ≠ .ok bytes) :
    validPubkeyB64 text = false := by
  unfold validPubkeyB64
  cases decoded : b64Decode text with
  | ok bytes => exact absurd decoded (undecodable bytes)
  | error message => exact Bool.and_false _

/-- The padded text of a key is what both validators are made for. -/
theorem validPubkeyB64_encode (key : PublicKey) : validPubkeyB64 (b64Encode key.bytes) = true := by
  have nonempty : (b64Encode key.bytes).isEmpty = false := by
    rw [b64Encode_eq, Bool.eq_false_iff, ne_eq, String.isEmpty_iff]
    intro empty
    have bytes : Base64.decode "" = some key.bytes := empty ▸ Base64.decode_encode key.bytes
    have none : Base64.decode "" = some [] := by decide
    rw [none] at bytes
    have length := key.length_eq
    rw [← Option.some.inj bytes] at length
    exact absurd length (by decide)
  rw [validPubkeyB64, b64Decode_b64Encode, nonempty]
  simp [key.length_eq]

variable [UnpaddedTexts]

theorem keyToBase64_undecodable (key : PublicKey) (bytes : Bytes) :
    b64Decode (keyToBase64 key) ≠ .ok bytes := by
  have ragged : key.bytes.length % 3 ≠ 0 := by rw [key.length_eq]; decide
  rw [Ne, b64Decode_ok_iff, ← Base64.decode_eq_some_iff, UnpaddedTexts.keyToBase64_eq,
    Base64.decode_encodeUnpadded ragged]
  exact nofun

/-- The text of every key is refused. -/
theorem keyToBase64_refused (key : PublicKey) : TextRefused (keyToBase64 key) := by
  have refused := validPubkeyB64_of_decode_error (keyToBase64_undecodable key)
  exact ⟨(relay_validPubkeyB64 _).trans refused, refused, keyToBase64_undecodable key⟩

/-- **No text a client publishes is accepted**, for any key, any device and any batch. -/
theorem published_texts_refused :
    (∀ key : PublicKey, TextRefused (keyToBase64 key)) ∧
      ∀ (device : Device) (n : Nat) (seed : Seed),
        TextRefused device.ed25519B64 ∧ TextRefused device.curve25519B64 ∧
          ∀ otk ∈ (device.generateOneTimeKeys n seed).2, TextRefused otk.2 := by
  refine ⟨keyToBase64_refused, fun device n seed =>
    ⟨keyToBase64_refused _, keyToBase64_refused _, fun otk member => ?_⟩⟩
  obtain ⟨⟨id, key⟩, _, rfl⟩ := List.mem_map.mp member
  exact keyToBase64_refused key

end

namespace Ideal

/-- Nothing that a client with these crates publishes is accepted. -/
theorem all_texts_refused :
    (∀ key : PublicKey, TextRefused (keyToBase64 key)) ∧
      ∀ (device : Device) (n : Nat) (seed : Seed),
        TextRefused device.ed25519B64 ∧ TextRefused device.curve25519B64 ∧
          ∀ otk ∈ (device.generateOneTimeKeys n seed).2, TextRefused otk.2 :=
  published_texts_refused

/-- The key of thirty-two zero bytes already has no agreed text. -/
theorem zero_key_text_not_agreed : ¬ ∀ key : PublicKey, TextAgreed (keyToBase64 key) key := by
  intro agreed
  have zero := (agreed ⟨List.replicate 32 0, rfl⟩).2.1
  revert zero
  decide

end Ideal

end Cherm
