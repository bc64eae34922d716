/-
**The texts inside the wire messages: Olm payloads and JSON records.**

An Olm ciphertext travels as `<type>.<base64>`; key shares, join requests, denials and group events
travel as JSON inside a ciphertext. Each record has its writer (the `json!` of the sender) and its
reader (the derived `Deserialize` of the receiver), and the reader reads back what the writer wrote:

* `parseOlm_encodeOlm` for the payload text;
* `GroupKeyShare.fromSlice_toVec`, `JoinRequest.fromSlice_toVec`, `JoinDenied.fromSlice_toVec` for
  the records.
-/

import Cherm.Crypto

namespace Cherm

open Crates

/-! ### Texts -/

/-- `split_once`: the text before and after the first occurrence of a character. -/
def splitOnce (separator : Char) : List Char → Option (List Char × List Char)
  | [] => none
  | c :: rest =>
      if c = separator then some ([], rest)
      else (splitOnce separator rest).map fun (before, after) => (c :: before, after)

/-- Characters that `str::trim` removes. -/
def isTrimmed (c : Char) : Bool :=
  c = ' ' || ('\t' ≤ c && c ≤ '\x0d') || c.toNat = 0x85 || c.toNat = 0xa0 || c.toNat = 0x1680 ||
    (0x2000 ≤ c.toNat && c.toNat ≤ 0x200a) || c.toNat = 0x2028 || c.toNat = 0x2029 ||
    c.toNat = 0x202f || c.toNat = 0x205f || c.toNat = 0x3000

/-- `str::trim`. -/
def trim (text : List Char) : List Char :=
  ((text.dropWhile isTrimmed).reverse.dropWhile isTrimmed).reverse

/-- The number a non-empty text of decimal digits stands for. -/
def parseDigits (digits : List Char) : Option Nat :=
  if digits.isEmpty || !digits.all Char.isDigit then none
  else some (digits.foldl (fun value c => value * 10 + (c.toNat - '0'.toNat)) 0)

/-- `u8::from_str`: decimal digits after an optional plus sign, at most 255. -/
def parseU8 (text : List Char) : Option Nat :=
  let digits := match text with
    | '+' :: rest => rest
    | _ => text
  (parseDigits digits).filter (· < 256)

theorem splitOnce_append {separator : Char} (before after : List Char)
    (absent : separator ∉ before) :
    splitOnce separator (before ++ separator :: after) = some (before, after) := by
  induction before with
  | nil => simp [splitOnce]
  | cons c rest ih =>
      rw [List.mem_cons, not_or] at absent
      rw [List.cons_append, splitOnce, if_neg (Ne.symm absent.1), ih absent.2]
      rfl

/-- The two types a message has. -/
theorem parseU8_olmType {olmType : Nat} (small : olmType = 0 ∨ olmType = 1) :
    parseU8 (toString olmType).toList = some olmType ∧ '.' ∉ (toString olmType).toList := by
  rcases small with rfl | rfl <;> decide

/-! ### The Olm payload -/

section

variable [Crates]

/-- Split an Olm payload `<olm_type>.<base64 body>`. -/
def parseOlm (payload : String) : Except String (Nat × Bytes) :=
  match splitOnce '.' payload.toList with
  | none => .error "malformed olm payload (expected <type>.<b64>)"
  | some (before, after) =>
      match parseU8 before with
      | none => .error "invalid olm type prefix"
      | some olmType => do
          let body ← b64Decode (String.ofList after)
          return (olmType, body)

/-- Encode an Olm message into the wire payload. -/
def encodeOlm (olmType : Nat) (body : Bytes) : String :=
  toString olmType ++ "." ++ b64Encode body

/-- A payload is read back as the message it was made of. -/
theorem parseOlm_encodeOlm {olmType : Nat} (small : olmType = 0 ∨ olmType = 1) (body : Bytes) :
    parseOlm (encodeOlm olmType body) = .ok (olmType, body) := by
  obtain ⟨read, noDot⟩ := parseU8_olmType small
  have shape : (encodeOlm olmType body).toList =
      (toString olmType).toList ++ '.' :: (b64Encode body).toList := by
    simp [encodeOlm]
  have split := splitOnce_append _ (b64Encode body).toList noDot
  simp only [parseOlm, shape, split, read, String.ofList_toList, (b64Decode_ok_iff _ _).mpr
    (b64Encode_eq body)]
  rfl

theorem toParts_small (message : OlmMessage) :
    (toParts message).1 = 0 ∨ (toParts message).1 = 1 := by
  rw [toParts_type]
  split
  · exact .inl rfl
  · exact .inr rfl

end

/-! ### The records -/

/-- A sender's Megolm session key with the group's roster and access metadata. -/
structure GroupKeyShare where
  groupId : String
  name : String
  sessionKey : String
  senderCurve : String
  members : List String
  owner : String
  accessMode : String
  groupKey : String
deriving DecidableEq, Repr

/-- A request for access to a group. -/
structure JoinRequest where
  groupId : String
  groupKey : String
deriving DecidableEq, Repr

/-- The owner's refusal. -/
structure JoinDenied where
  groupId : String
  reason : String
deriving DecidableEq, Repr

/-- A moderation or membership event. -/
structure GroupEvent where
  kind : String
  who : String
  mode : Option String
  «until» : Option Int
deriving DecidableEq, Repr

open Json

/-- The `json!` of whoever hands a group on. -/
def GroupKeyShare.toJson (share : GroupKeyShare) : Json := .obj [
  ("access_mode", .str share.accessMode),
  ("group_id", .str share.groupId),
  ("group_key", .str share.groupKey),
  ("members", .arr (share.members.map .str)),
  ("name", .str share.name),
  ("owner", .str share.owner),
  ("sender_curve", .str share.senderCurve),
  ("session_key", .str share.sessionKey)]

/-- The derived `Deserialize`; what older clients leave out has a default. -/
def GroupKeyShare.fromJson (value : Json) : Option GroupKeyShare := do
  let fields ← value.asFields ["group_id", "name", "session_key", "sender_curve",
    "members", "owner",
    "access_mode", "group_key"]
  let groupId ← fields.required "group_id" asStr
  let name ← fields.required "name" asStr
  let sessionKey ← fields.required "session_key" asStr
  let senderCurve ← fields.required "sender_curve" asStr
  let members ← fields.required "members" asStrs
  let owner ← fields.orDefault "owner" asStr ""
  let accessMode ← fields.orDefault "access_mode" asStr ""
  let groupKey ← fields.orDefault "group_key" asStr ""
  return { groupId, name, sessionKey, senderCurve, members, owner, accessMode, groupKey }

/-- The `json!` of whoever asks. -/
def JoinRequest.toJson (request : JoinRequest) : Json :=
  .obj [("group_id", .str request.groupId), ("group_key", .str request.groupKey)]

/-- The derived `Deserialize`. -/
def JoinRequest.fromJson (value : Json) : Option JoinRequest := do
  let fields ← value.asFields ["group_id", "group_key"]
  let groupId ← fields.required "group_id" asStr
  let groupKey ← fields.required "group_key" asStr
  return { groupId, groupKey }

/-- The `json!` of the owner. -/
def JoinDenied.toJson (denied : JoinDenied) : Json :=
  .obj [("group_id", .str denied.groupId), ("reason", .str denied.reason)]

/-- The derived `Deserialize`. -/
def JoinDenied.fromJson (value : Json) : Option JoinDenied := do
  let fields ← value.asFields ["group_id", "reason"]
  let groupId ← fields.required "group_id" asStr
  let reason ← fields.required "reason" asStr
  return { groupId, reason }

/-- Someone joined. -/
def joinedEvent (who : String) : Json := .obj [("kind", .str "joined"), ("who", .str who)]

/-- The access mode changed. -/
def accessEvent (mode : String) : Json := .obj [("kind", .str "access"), ("mode", .str mode)]

/-- Someone was removed, banned or suspended. -/
def moderationEvent (kind who : String) : Option Int → Json
  | none => .obj [("kind", .str kind), ("who", .str who)]
  | some deadline => .obj [("kind", .str kind), ("until", .num deadline), ("who", .str who)]

/-- The derived `Deserialize`; only the kind is required. -/
def GroupEvent.fromJson (value : Json) : Option GroupEvent := do
  let fields ← value.asFields ["kind", "who", "mode", "until"]
  let kind ← fields.required "kind" asStr
  let who ← fields.orDefault "who" asStr ""
  let mode ← fields.orDefault "mode" (asOption asStr) none
  let deadline ← fields.orDefault "until" (asOption asI64) none
  return { kind, who, mode, «until» := deadline }

/-! ### Reading what was written -/

theorem GroupKeyShare.fromJson_toJson (share : GroupKeyShare) :
    GroupKeyShare.fromJson share.toJson = some share := by
  simp [fromJson, toJson, asFields, Fields.required, Fields.orDefault, Fields.named, asStr]

theorem JoinRequest.fromJson_toJson (request : JoinRequest) :
    JoinRequest.fromJson request.toJson = some request := by
  simp [fromJson, toJson, asFields, Fields.required, Fields.named, asStr]

theorem JoinDenied.fromJson_toJson (denied : JoinDenied) :
    JoinDenied.fromJson denied.toJson = some denied := by
  simp [fromJson, toJson, asFields, Fields.required, Fields.named, asStr]

/-! ### What is written is flat -/

theorem GroupKeyShare.toJson_flat (share : GroupKeyShare) : share.toJson.Flat := by
  refine ⟨?_, ?_⟩
  · show List.Pairwise (· < ·) ["access_mode", "group_id", "group_key", "members", "name", "owner",
      "sender_curve", "session_key"]
    decide
  · simp [asStr]

theorem JoinRequest.toJson_flat (request : JoinRequest) : request.toJson.Flat := by
  refine ⟨?_, ?_⟩
  · show List.Pairwise (· < ·) ["group_id", "group_key"]
    decide
  · simp

theorem JoinDenied.toJson_flat (denied : JoinDenied) : denied.toJson.Flat := by
  refine ⟨?_, ?_⟩
  · show List.Pairwise (· < ·) ["group_id", "reason"]
    decide
  · simp

section

variable [Crates]

/-- `serde_json::from_slice` into a record. -/
def readRecord {α : Type} (name : String) (read : Json → Option α) (bytes : Bytes) :
    Except String α :=
  match (fromSlice bytes).toOption.bind read with
  | some record => .ok record
  | none => .error (recordError name bytes)

/-- A key share from its bytes. -/
def GroupKeyShare.fromSlice : Bytes → Except String GroupKeyShare :=
  readRecord "GroupKeyShare" GroupKeyShare.fromJson

/-- A request to join from its bytes. -/
def JoinRequest.fromSlice : Bytes → Except String JoinRequest :=
  readRecord "JoinRequest" JoinRequest.fromJson

/-- A denial from its bytes. -/
def JoinDenied.fromSlice : Bytes → Except String JoinDenied :=
  readRecord "JoinDenied" JoinDenied.fromJson

/-- A group event from its bytes. -/
def GroupEvent.fromSlice : Bytes → Except String GroupEvent :=
  readRecord "GroupEvent" GroupEvent.fromJson

theorem readRecord_toVec {α : Type} (name : String) (read : Json → Option α) {value : Json}
    (flat : value.Flat) {record : α} (reads : read value = some record) :
    readRecord name read (toVec value) = .ok record := by
  rw [readRecord, Crates.fromSlice_toVec value flat]
  show (match read value with
    | some record => Except.ok record
    | none => .error (recordError name (toVec value))) = .ok record
  rw [reads]

theorem GroupKeyShare.fromSlice_toVec (share : GroupKeyShare) :
    GroupKeyShare.fromSlice (toVec share.toJson) = .ok share :=
  readRecord_toVec _ _ share.toJson_flat share.fromJson_toJson

theorem JoinRequest.fromSlice_toVec (request : JoinRequest) :
    JoinRequest.fromSlice (toVec request.toJson) = .ok request :=
  readRecord_toVec _ _ request.toJson_flat request.fromJson_toJson

theorem JoinDenied.fromSlice_toVec (denied : JoinDenied) :
    JoinDenied.fromSlice (toVec denied.toJson) = .ok denied :=
  readRecord_toVec _ _ denied.toJson_flat denied.fromJson_toJson

end

end Cherm
