/-
**What the relay keeps: the directory, the one-time keys and the outbox.**

Three tables and the map of online connections. Each function here is one critical section; a UNIQUE
constraint shows as a refused insert. An outbox row holds the JSON text of the frame it will
deliver.
-/

import Cherm.Crypto
import Cherm.Lib.Table

namespace Cherm.Relay

/-- What the relay tells of a user. -/
structure UserRecord where
  uuid : String
  username : String
  ed25519 : String
  curve25519 : String
deriving DecidableEq, Repr

/-- A row of `users`. -/
structure UserRow where
  record : UserRecord
  machineId : String
  createdTs : Int
deriving DecidableEq, Repr

/-- A row of `prekeys`. -/
structure PrekeyRow where
  username : String
  keyId : String
  curve25519 : String
  used : Bool
deriving DecidableEq, Repr

/-- A row of `outbox`: a frame kept for someone who was not there. -/
structure OutboxRow where
  id : Nat
  recipient : String
  frame : Bytes
  ts : Int
deriving DecidableEq, Repr

/-- The database, and who is online over which connection. Prekeys are in order of their row ids. -/
structure Store where
  users : List UserRow
  prekeys : List PrekeyRow
  outbox : List OutboxRow
  nextOutboxId : Nat
  online : Table String Nat

/-- The reasons a registration can fail. -/
inductive RegErr where
  | taken
  | keyExists
  | db
deriving DecidableEq, Repr

/-- The result of publishing one-time keys. -/
inductive PubResult where
  | ok
  | overCap
deriving DecidableEq, Repr

/-- `MAX_UNUSED_PREKEYS` of one user. -/
def maxUnusedPrekeys : Nat := 500

/-- `MAX_OUTBOX_PER_RECIPIENT`, in frames. -/
def maxOutboxPerRecipient : Nat := 10000

/-- `MAX_OUTBOX_BYTES_PER_RECIPIENT`, as SQLite counts them. -/
def maxOutboxBytesPerRecipient : Nat := 64 * 1024 * 1024

/-- What SQLite takes for the length of a text: its characters before the first NUL. -/
def sqlLength (text : Bytes) : Nat := (text.takeWhile fun b => b ≠ 0).countP fun b =>
    b &&& 0xC0 ≠ 0x80

theorem sqlLength_le (text : Bytes) : sqlLength text ≤ text.length :=
  Nat.le_trans List.countP_le_length (List.takeWhile_sublist _).length_le

namespace Store

/-- A new database. -/
def empty : Store := ⟨[], [], [], 1, ∅⟩

/-! ### users -/

/-- The record of a user. -/
def lookupUser (store : Store) (username : String) : Option UserRecord :=
  (store.users.find? fun row => row.record.username = username).map UserRow.record

/-- Whether the name is taken. -/
def usernameExists (store : Store) (username : String) : Bool :=
  store.users.any fun row => row.record.username = username

/-- Whether the key is taken. -/
def keyExists (store : Store) (ed25519 : String) : Bool :=
  store.users.any fun row => row.record.ed25519 = ed25519

/-- Check uniqueness and insert a new identity. The constraints of the table come last. -/
def registerUser (store : Store) (username ed25519 curve25519 machineId uuid : String) (now : Int) :
    Except RegErr String × Store :=
  if store.usernameExists username then (.error .taken, store)
  else if store.keyExists ed25519 then (.error .keyExists, store)
  else if store.users.any fun row => row.record.uuid = uuid then (.error .db, store)
  else (.ok uuid,
    { store with users := store.users ++ [⟨⟨uuid, username, ed25519, curve25519⟩,
    machineId, now⟩] })

/-! ### prekeys -/

/-- Store an uploaded key; a key id the user has already is left alone. -/
def insertPrekey (store : Store) (username keyId curve25519 : String) : Store :=
  if store.prekeys.any fun row => row.username = username && row.keyId = keyId then store
  else { store with prekeys := store.prekeys ++ [⟨username, keyId, curve25519, false⟩] }

/-- How many keys of a user are left. -/
def countUnusedPrekeys (store : Store) (username : String) : Nat :=
  (store.prekeys.filter fun row => row.username = username && !row.used).length

/-- Publish a batch, unless it would exceed the cap. -/
def publishPrekeys (store : Store) (username : String) (otks : List OneTimeKey) :
    PubResult × Store :=
  if maxUnusedPrekeys < store.countUnusedPrekeys username + otks.length then (.overCap, store)
  else (.ok, otks.foldl (fun store k => store.insertPrekey username k.keyId k.curve25519) store)

/-- Mark the first unused key of a user as used. -/
def claim (username : String) : List PrekeyRow → Option ((String × String) × List PrekeyRow)
  | [] => none
  | row :: rest =>
      if row.username = username && !row.used then
        some ((row.keyId, row.curve25519), { row with used := true } :: rest)
      else (claim username rest).map fun (key, rest) => (key, row :: rest)

/-- Hand out the oldest key that is left, which is used from then on. -/
def takePrekey (store : Store) (username : String) : Option (String × String) × Store :=
  match claim username store.prekeys with
  | some (key, rows) => (some key, { store with prekeys := rows })
  | none => (none, store)

/-- The directory record of a user, and a one-time key, which is used up by this. -/
def fetchBundle (store : Store) (username : String) :
    Option (UserRecord × Option (String × String)) × Store :=
  match store.lookupUser username with
  | none => (none, store)
  | some record =>
      let (otk, store) := store.takePrekey username
      (some (record, otk), store)

/-! ### outbox -/

/-- The frames kept for a user, oldest first, with their numbers. -/
def pendingFrames (store : Store) (recipient : String) : List (Nat × Bytes) :=
  (store.outbox.filter fun row => row.recipient = recipient).map fun row => (row.id, row.frame)

/-- The lengths of the queued frames, which are texts to the database. -/
def outboxBytes (store : Store) (recipient : String) : Nat :=
  ((store.pendingFrames recipient).map fun row => sqlLength row.2).sum

/-- Append a frame, if the recipient stays under both caps. -/
def enqueueIfUnderCap (store : Store) (recipient : String) (frame : Bytes) (ts : Int) :
    Bool × Store :=
  if maxOutboxPerRecipient ≤ (store.pendingFrames recipient).length then (false, store)
  else if maxOutboxBytesPerRecipient < store.outboxBytes recipient + frame.length
  then (false, store)
  else (true, { store with
    outbox := store.outbox ++ [⟨store.nextOutboxId, recipient, frame, ts⟩]
    nextOutboxId := store.nextOutboxId + 1 })

/-- Delete the rows with these numbers. -/
def deleteFrames (store : Store) (ids : List Nat) : Store :=
  { store with outbox := store.outbox.filter fun row => !ids.contains row.id }

/-! ### online -/

/-- The connection of a recipient, if online, and whether there is such a user. -/
def route (store : Store) (recipient : String) : Option Nat × Bool :=
  (store.online.get recipient, store.usernameExists recipient)

/-- A user is reached through this connection, and no longer through an earlier one. -/
def goOnline (store : Store) (username : String) (conn : Nat) : Store :=
  { store with online := store.online.put username conn }

/-- Remove our own presence, not that of a newer connection. -/
def goOffline (store : Store) (username : String) (conn : Nat) : Store :=
  if store.online.get username = some conn then
    { store with online := store.online.erase username }
  else store

end Store

end Cherm.Relay

namespace Cherm

open Crates Json

/-! ### The text of a queued frame -/

/-- A frame as JSON; a group that is absent is left out. -/
def Deliver.toJson (frame : Deliver) : Json := .obj <|
  [("client_ts", .num frame.clientTs), ("from", .str frame.from)] ++
  (match frame.groupId with
    | some groupId => [("group_id", .str groupId)]
    | none => []) ++
  [("msg_type", .str frame.msgType), ("payload", .str frame.payload),
    ("server_ts", .num frame.serverTs), ("to", .arr (frame.to.map .str)), ("type", .str "Deliver")]

/-- The reader of a queued frame. The outbox holds no other kind of message. -/
def Deliver.fromJson (value : Json) : Option Deliver := do
  let fields ← value.asFields []
  let kind ← fields.required "type" asStr
  if kind ≠ "Deliver" then none
  let sender ← fields.required "from" asStr
  let recipients ← fields.required "to" asStrs
  let msgType ← fields.required "msg_type" asStr
  let payload ← fields.required "payload" asStr
  let groupId ← fields.orDefault "group_id" (asOption asStr) none
  let serverTs ← fields.required "server_ts" asI64
  let clientTs ← fields.required "client_ts" asI64
  return ⟨sender, recipients, msgType, payload, groupId, serverTs, clientTs⟩

/-- Both timestamps are 64-bit integers. -/
def Deliver.InRange (frame : Deliver) : Prop :=
  (-2 ^ 63 ≤ frame.serverTs ∧ frame.serverTs < 2 ^ 63) ∧
    (-2 ^ 63 ≤ frame.clientTs ∧ frame.clientTs < 2 ^ 63)

theorem Deliver.toJson_flat (frame : Deliver) (inRange : frame.InRange) : frame.toJson.Flat := by
  obtain ⟨server, client⟩ := inRange
  rcases frame with ⟨sender, recipients, msgType, payload, _ | groupId, serverTs, clientTs⟩
  · refine ⟨?_, ?_⟩
    · show List.Pairwise (· < ·) ["client_ts", "from", "msg_type", "payload", "server_ts", "to",
        "type"]
      decide
    · simpa [asStr] using ⟨client, server⟩
  · refine ⟨?_, ?_⟩
    · show List.Pairwise (· < ·) ["client_ts", "from", "group_id", "msg_type", "payload",
        "server_ts", "to", "type"]
      decide
    · simpa [asStr] using ⟨client, server⟩

theorem Deliver.fromJson_toJson (frame : Deliver) (inRange : frame.InRange) :
    Deliver.fromJson frame.toJson = some frame := by
  obtain ⟨server, client⟩ := inRange
  rcases frame with ⟨sender, recipients, msgType, payload, groupId, serverTs, clientTs⟩
  have serverRange : -9223372036854775808 ≤ serverTs ∧ serverTs < 9223372036854775808 := by
    simpa using server
  have clientRange : -9223372036854775808 ≤ clientTs ∧ clientTs < 9223372036854775808 := by
    simpa using client
  cases groupId <;>
    simp [fromJson, toJson, asFields, Fields.required, Fields.orDefault, Fields.named, asStr,
      asOption, asI64, serverRange, clientRange]

section

variable [Crates]

/-- `serde_json::to_string` of a frame. -/
def writeFrame (frame : Deliver) : Bytes := toVec frame.toJson

/-- `serde_json::from_str` of a stored frame. -/
def readFrame (bytes : Bytes) : Option Deliver :=
  (fromSlice bytes).toOption.bind Deliver.fromJson

/-- A frame that was queued is read back as it was. -/
theorem readFrame_writeFrame (frame : Deliver) (inRange : frame.InRange) :
    readFrame (writeFrame frame) = some frame := by
  rw [readFrame, writeFrame, fromSlice_toVec _ (frame.toJson_flat inRange)]
  exact frame.fromJson_toJson inRange

end

end Cherm
