/-
**Crates to compute with: the ratchets as bookkeeping.**

An instance of `Crates` in which everything is computed. Base64, JSON and UTF-8 are the real ones. A
ciphertext is not encrypted: it carries in clear the session it belongs to, the end that made it,
its place in that end's chain and, as long as the opener has heard nothing back, the keys that open
the session; the rules of who can read it are those of the ratchets. Seeds take the place of keys.

The concrete runs of the development are played on this instance.
-/

import Cherm.Client.Task
import Cherm.Client.Wire
import Cherm.Lib.JsonText

namespace Cherm.Ideal

/-! ### Bytes -/

/-- A number as that many ones and a zero. -/
def unary (n : Nat) : Bytes := List.replicate n 1 ++ [0]

/-- Read a number back, with what follows it. -/
def readUnary : Bytes → Option (Nat × Bytes)
  | [] => none
  | b :: rest => if b = 0 then some (0, rest) else (readUnary rest).map fun (n, rest) =>
      (n + 1, rest)

@[simp] theorem readUnary_append (n : Nat) (rest : Bytes) :
    readUnary (unary n ++ rest) = some (n, rest) := by
  induction n with
  | zero => rfl
  | succ n ih =>
      rw [unary, List.replicate_succ, List.cons_append, List.cons_append, readUnary,
        if_neg (by decide)]
      show (readUnary (unary n ++ rest)).map _ = _
      rw [ih]
      rfl

/-- The key of a seed: a tag for its use and the seed's digits in base 256. -/
def publicKey (tag : UInt8) (seed : Nat) : PublicKey where
  bytes := tag :: (List.range 31).map fun i => UInt8.ofNat (seed / 256 ^ i)
  length_eq := by simp

/-- Thirty-two bytes from the front. -/
def readKey (bytes : Bytes) : Option (PublicKey × Bytes) :=
  if enough : (bytes.take 32).length = 32 then some (⟨bytes.take 32, enough⟩, bytes.drop 32)
    else none

@[simp] theorem readKey_append (key : PublicKey) (rest : Bytes) :
    readKey (key.bytes ++ rest) = some (key, rest) := by
  have front : (key.bytes ++ rest).take 32 = key.bytes := by
    rw [← key.length_eq, List.take_left]
  have back : (key.bytes ++ rest).drop 32 = rest := by
    rw [← key.length_eq, List.drop_left]
  unfold readKey
  rw [dif_pos (by rw [front, key.length_eq])]
  simp only [front, back]

/-! ### Accounts and Olm -/

/-- The seed of the identity keys and the one-time keys not used yet, the unpublished ones twice. -/
structure Account where
  seed : Nat
  otks : List Nat
  unpublished : List Nat
deriving DecidableEq

/-- The key that sessions are opened with. -/
def Account.curve (account : Account) : PublicKey := publicKey 2 account.seed

/-- A one-time key. -/
def otkKey (otk : Nat) : PublicKey := publicKey 3 otk

/-- A place in a sending chain. -/
abbrev Place := Nat × Nat

/-- A message of a session, with what it is read by. -/
structure Message where
  preKey : Bool
  sid : Nat
  fromOpener : Bool
  identity : PublicKey
  otk : PublicKey
  place : Place
  plaintext : Bytes
deriving DecidableEq

/-- One end of a session. -/
structure Session where
  sid : Nat
  opener : Bool
  own : PublicKey
  peer : PublicKey
  otk : PublicKey
  sending : Option Place
  heard : Bool
  seen : List Place
deriving DecidableEq

/-- A truth value as a byte. -/
def flag (b : Bool) : UInt8 := if b then 1 else 0

/-- The number of its type, and its bytes. -/
def Message.toParts (m : Message) : Nat × Bytes :=
  (if m.preKey then 0 else 1, flag m.fromOpener :: (unary m.sid ++ (unary m.place.1 ++
    (unary m.place.2 ++ (m.identity.bytes ++ (m.otk.bytes ++ m.plaintext))))))

/-- The message with these bytes. -/
def Message.fromParts (olmType : Nat) : Bytes → Option Message
  | [] => none
  | b :: bytes => do
      let (sid, bytes) ← readUnary bytes
      let (chain, bytes) ← readUnary bytes
      let (index, bytes) ← readUnary bytes
      let (identity, bytes) ← readKey bytes
      let (otk, plaintext) ← readKey bytes
      if 1 < olmType then none
      else some ⟨olmType = 0, sid, b = 1, identity, otk, (chain, index), plaintext⟩

theorem Message.fromParts_toParts (m : Message) :
    Message.fromParts m.toParts.1 m.toParts.2 = some m := by
  rcases m with ⟨preKey, sid, fromOpener, identity, otk, ⟨chain, index⟩, plaintext⟩
  cases preKey <;> cases fromOpener <;> simp [toParts, fromParts, flag]

/-- Open a session towards a peer's identity key and one of its one-time keys. -/
def createOutbound (account : Account) (peer otk : PublicKey) (seed : Nat) : Session where
  sid := seed
  opener := true
  own := account.curve
  peer := peer
  otk := otk
  sending := some (seed, 0)
  heard := false
  seen := []

/-- Accept a session: the message names us by a one-time key we still have, which is then used up.
-/
def createInbound (account : Account) (peer : PublicKey) (m : Message) :
    Option (Session × Bytes × Account) :=
  match account.otks.find? fun otk => otkKey otk = m.otk with
  | none => none
  | some otk =>
      if m.identity = peer ∧ m.fromOpener = true then
        some (⟨m.sid, false, account.curve, peer, m.otk, none, true, [m.place]⟩, m.plaintext,
          { account with otks := account.otks.erase otk })
      else none

/-- Write at the place where the sending chain is. -/
def Session.encrypt (session : Session) (plaintext : Bytes) (seed : Nat) : Message × Session :=
  let place := session.sending.getD (seed, 0)
  (⟨session.opener && !session.heard, session.sid, session.opener, session.own, session.otk, place,
    plaintext⟩, { session with sending := some (place.1, place.2 + 1) })

/-- The other end's messages, each once. -/
def Session.decrypt (session : Session) (m : Message) : Option (Bytes × Session) :=
  if m.sid = session.sid ∧ m.fromOpener ≠ session.opener ∧ m.place ∉ session.seen then
    some (m.plaintext, { session with heard := true, seen := m.place :: session.seen })
  else none

/-! ### Megolm -/

/-- A group session, where it is. -/
structure GroupSession where
  id : Nat
  index : Nat
deriving DecidableEq

/-- A receiver reads from the index at which the key was shared. -/
structure InboundGroupSession where
  id : Nat
  first : Nat
deriving DecidableEq

/-- Its name and its index. -/
def GroupSession.key (session : GroupSession) : String :=
  toString session.id ++ "." ++ toString session.index

/-- A session as it was handed on. -/
def InboundGroupSession.fromKey (key : String) : Option InboundGroupSession := do
  let (before, after) ← splitOnce '.' key.toList
  return ⟨← parseDigits before, ← parseDigits after⟩

/-- Write at the index of the session. -/
def GroupSession.encrypt (session : GroupSession) (plaintext : Bytes) : Bytes × GroupSession :=
  (unary session.id ++ (unary session.index ++ plaintext),
    { session with index := session.index + 1 })

/-- Read a message of the session that is not older than the key. -/
def InboundGroupSession.decrypt (session : InboundGroupSession) (body : Bytes) :
    Option (Bytes × Nat × InboundGroupSession) := do
  let (id, bytes) ← readUnary body
  let (index, plaintext) ← readUnary bytes
  if id = session.id ∧ session.first ≤ index then some (plaintext, index, session) else none

/-! ### The instance -/

/-- A value, or this error. -/
def orError {α : Type} (error : String) (value : Option α) : Except String α :=
  match value with
  | some value => .ok value
  | none => .error error

@[simp] theorem orError_eq_ok {α : Type} (error : String) (value : Option α) (result : α) :
    orError error value = .ok result ↔ value = some result := by
  cases value <;> simp [orError]

/-- The key in a text, padded or not. -/
def keyFromText (text : String) : Option PublicKey := do
  let bytes ← Base64.decode text <|> Base64.decode (text ++ "=")
  if enough : bytes.length = 32 then some ⟨bytes, enough⟩ else none

theorem keyFromText_encode (key : PublicKey) :
    keyFromText (Base64.encode key.bytes) = some key := by
  rw [keyFromText, Base64.decode_encode]
  show (if enough : key.bytes.length = 32 then some (⟨key.bytes, enough⟩ : PublicKey) else none) = _
  rw [dif_pos key.length_eq]

theorem keyFromText_encodeUnpadded (key : PublicKey) :
    keyFromText (Base64.encodeUnpadded key.bytes) = some key := by
  have ragged : key.bytes.length % 3 ≠ 0 := by rw [key.length_eq]; decide
  have padded : Base64.encodeUnpadded key.bytes ++ "=" = Base64.encode key.bytes := by
    simp [Base64.encode, Base64.encodeUnpadded, Base64.padding, key.length_eq]
  rw [keyFromText, Base64.decode_encodeUnpadded ragged, padded, Base64.decode_encode]
  show (if enough : key.bytes.length = 32 then some (⟨key.bytes, enough⟩ : PublicKey) else none) = _
  rw [dif_pos key.length_eq]

scoped instance crates : Crates where
  b64Encode := Base64.encode
  b64Decode text := orError "invalid base64" (Base64.decode text)
  toVec value := Utf8.encode value.render
  fromSlice bytes := orError "invalid JSON" ((Utf8.decode bytes).bind Json.parse)
  recordError name _ := "invalid " ++ name
  utf8Error _ := "invalid utf-8 sequence"
  debugText _ := "message"
  uuidText seed := "00000000-0000-4000-8000-" ++ toString (100000000000 + seed)
  blake3 bytes := (bytes ++ List.replicate 32 0).take 32
  keyToBase64 key := Base64.encodeUnpadded key.bytes
  keyFromBase64 text := orError "invalid key" (keyFromText text)
  Account := Account
  newAccount seed := ⟨seed, [], []⟩
  ed25519Key account := publicKey 1 account.seed
  curve25519Key := Account.curve
  signBase64 account msg := Base64.encode ((publicKey 1 account.seed).bytes ++ msg)
  verifyBase64 key msg signature := signature = Base64.encode (key.bytes ++ msg)
  generateOneTimeKeys account n seed :=
    let otks := (List.range n).map fun i => seed * 100 + i
    { account with otks := account.otks ++ otks, unpublished := account.unpublished ++ otks }
  oneTimeKeys account := account.unpublished.map fun otk => (toString otk, otkKey otk)
  markKeysAsPublished account := { account with unpublished := [] }
  accountToJson account := toString account.seed
  accountFromJson text := orError "invalid account" ((parseDigits text.toList).map (⟨·, [], []⟩))
  Session := Session
  OlmMessage := Message
  fromParts olmType body := orError "invalid message" (Message.fromParts olmType body)
  toParts := Message.toParts
  isPreKey := Message.preKey
  createOutboundSession account peer otk seed := .ok (createOutbound account peer otk seed)
  createInboundSession account peer m :=
    orError "no such one-time key" (createInbound account peer m)
  encrypt session plaintext seed := .ok (session.encrypt plaintext seed)
  decrypt session m := orError "cannot decrypt" (session.decrypt m)
  GroupSession := GroupSession
  newGroupSession seed := ⟨seed, 0⟩
  groupSessionKey := GroupSession.key
  groupEncrypt := GroupSession.encrypt
  InboundGroupSession := InboundGroupSession
  inboundFromKey key := orError "invalid session key" (InboundGroupSession.fromKey key)
  inboundSessionId session := toString session.id
  groupDecrypt session body := orError "cannot decrypt" (session.decrypt body)
  b64Encode_eq _ := rfl
  b64Decode_ok_iff text bytes := by rw [orError_eq_ok, Base64.decode_eq_some_iff]
  fromSlice_toVec value flat := by
    rw [orError_eq_ok, Utf8.decode_encode, Option.bind_some, Json.parse_render flat]
  blake3_length bytes := by simp
  keyFromBase64_encode key := by rw [orError_eq_ok, keyFromText_encode]
  keyFromBase64_encodeUnpadded key := by rw [orError_eq_ok, keyFromText_encodeUnpadded]
  fromParts_toParts m := by rw [orError_eq_ok, Message.fromParts_toParts]
  toParts_type m := by rcases m with ⟨_ | _, _⟩ <;> rfl

instance : UnpaddedTexts := ⟨fun _ => rfl⟩

/-- The same crates, but for the texts of keys, which are padded: a world in which one can register.
-/
abbrev paddedCrates : Crates := { crates with keyToBase64 := fun key => Base64.encode key.bytes }

/-- A world without a relay, at time zero. -/
def world : (asked : Ask) → asked.Answer
  | .call op => (op.exec Vault.empty).1
  | .request _ => .error "not connected"
  | .post _ => .ok ()
  | .emit _ => ()
  | .now => (0 : Int)
  | .random => (0 : Nat)
  | .connect _ => .ok ()
  | .readFile _ => .error "no such file"
  | .writeBackup .. => .ok ""
  | .saveIndex => .ok ()

end Cherm.Ideal
