/-
**The messages as JSON, and their frames.**

A frame is a length of four bytes, the most significant one first, and that many bytes of JSON. A
message is a record with the name of its kind in the field `type`; optional fields are left out when
there is nothing in them.

* `ClientMsg.toJson`, `ServerMsg.toJson` and their readers, with `fromJson_toJson` for each.
* `writeMsg` and `readMsg` work on the bytes of a stream; `readMsg_frame` is what reading does with
  a frame.
* `readNext` is how both ends read: any JSON first, then the message.
-/

import Cherm.Crates
import Cherm.Lib.JsonExact

namespace Cherm

open Crates Json

/-! ### Fields -/

/-- A field that is left out if there is nothing in it. -/
def optionalField (name : String) (value : Option String) : Json.Fields :=
  match value with
  | some text => [(name, .str text)]
  | none => []

/-- A list whose elements are all read. -/
def asList {α : Type} (read : Json → Option α) : Json → Option (List α)
  | .arr values => values.mapM read
  | _ => none

theorem asList_map {α : Type} {write : α → Json} {read : Json → Option α}
    (reads : ∀ value, read (write value) = some value) (values : List α) :
    asList read (.arr (values.map write)) = some values := by
  show (values.map write).mapM read = some values
  induction values with
  | nil => rfl
  | cons first rest ih =>
      rw [List.map_cons, List.mapM_cons, ih, reads]
      rfl

/-- A `serde_json::Value`: anything, in normal form. -/
def asValue (value : Json) : Option Json := some value.normal

/-- The tag of a record, and the record without it. An array has its tag in front. -/
def tagged (tag : String) : Json → Option (String × Json)
  | .obj fields =>
      match Fields.named fields tag with
      | [.str kind] => some (kind, .obj (fields.filter fun field => field.1 ≠ tag))
      | _ => none
  | .arr (.str kind :: rest) => some (kind, .arr rest)
  | _ => none

/-! ### The messages of a client -/

/-- The derived `Serialize`. -/
def OneTimeKey.toJson (key : OneTimeKey) : Json :=
  .obj [("key_id", .str key.keyId), ("curve25519", .str key.curve25519)]

/-- The derived `Deserialize`. -/
def OneTimeKey.fromJson (value : Json) : Option OneTimeKey := do
  let fields ← value.asFields ["key_id", "curve25519"]
  return ⟨← fields.required "key_id" asStr, ← fields.required "curve25519" asStr⟩

/-- The derived `Serialize`, tagged by `type`. -/
def ClientMsg.toJson : ClientMsg → Json
  | .register username ed25519 curve25519 machineId => .obj [("type", .str "Register"),
      ("username", .str username), ("ed25519", .str ed25519), ("curve25519", .str curve25519),
      ("machine_id", .str machineId)]
  | .authBegin username => .obj [("type", .str "AuthBegin"), ("username", .str username)]
  | .authFinish username signature => .obj [("type", .str "AuthFinish"),
      ("username", .str username),
      ("signature", .str signature)]
  | .publishPrekeys oneTimeKeys => .obj [("type", .str "PublishPrekeys"),
      ("one_time_keys", .arr (oneTimeKeys.map OneTimeKey.toJson))]
  | .fetchPrekeys username => .obj [("type", .str "FetchPrekeys"), ("username", .str username)]
  | .attestRequest nonce => .obj [("type", .str "AttestRequest"), ("nonce", .str nonce)]
  | .clientHello buildHash clientVersion => .obj [("type", .str "ClientHello"),
      ("build_hash", .str buildHash), ("client_version", .str clientVersion)]
  | .getServerInfo => .obj [("type", .str "GetServerInfo")]
  | .send msg => .obj ([("type", .str "Send"), ("to", .arr (msg.to.map .str)),
      ("msg_type", .str msg.msgType), ("payload", .str msg.payload)] ++
      optionalField "group_id" msg.groupId ++ [("client_ts", .num msg.clientTs)])
  | .pull => .obj [("type", .str "Pull")]
  | .ping => .obj [("type", .str "Ping")]

/-- A kind without fields. -/
def unitKind {α : Type} (msg : α) (rest : Json) : Option α := (rest.asFields []).map fun _ => msg

/-- A message of this kind, from its other fields. -/
def ClientMsg.ofKind (kind : String) (rest : Json) : Option ClientMsg :=
  match kind with
  | "Register" => do
      let fields ← rest.asFields ["username", "ed25519", "curve25519", "machine_id"]
      return .register (← fields.required "username" asStr) (← fields.required "ed25519" asStr)
        (← fields.required "curve25519" asStr) (← fields.required "machine_id" asStr)
  | "AuthBegin" => do
      let fields ← rest.asFields ["username"]
      return .authBegin (← fields.required "username" asStr)
  | "AuthFinish" => do
      let fields ← rest.asFields ["username", "signature"]
      return .authFinish (← fields.required "username" asStr) (← fields.required "signature" asStr)
  | "PublishPrekeys" => do
      let fields ← rest.asFields ["one_time_keys"]
      return .publishPrekeys (← fields.required "one_time_keys" (asList OneTimeKey.fromJson))
  | "FetchPrekeys" => do
      let fields ← rest.asFields ["username"]
      return .fetchPrekeys (← fields.required "username" asStr)
  | "AttestRequest" => do
      let fields ← rest.asFields ["nonce"]
      return .attestRequest (← fields.required "nonce" asStr)
  | "ClientHello" => do
      let fields ← rest.asFields ["build_hash", "client_version"]
      return .clientHello (← fields.required "build_hash" asStr)
        (← fields.required "client_version" asStr)
  | "GetServerInfo" => unitKind .getServerInfo rest
  | "Send" => do
      let fields ← rest.asFields ["to", "msg_type", "payload", "group_id", "client_ts"]
      return .send ⟨← fields.required "to" asStrs, ← fields.required "msg_type" asStr,
        ← fields.required "payload" asStr, ← fields.orDefault "group_id" (asOption asStr) none,
        ← fields.required "client_ts" asI64⟩
  | "Pull" => unitKind .pull rest
  | "Ping" => unitKind .ping rest
  | _ => none

/-- The derived `Deserialize`. -/
def ClientMsg.fromJson (value : Json) : Option ClientMsg := do
  let (kind, rest) ← tagged "type" value
  ClientMsg.ofKind kind rest

/-! ### The messages of the relay -/

/-- The derived `Serialize`, tagged by `type`. -/
def ServerMsg.toJson : ServerMsg → Json
  | .challenge nonce => .obj [("type", .str "Challenge"), ("nonce", .str nonce)]
  | .authOk uuid username => .obj [("type", .str "AuthOk"), ("uuid", .str uuid),
      ("username", .str username)]
  | .prekeyBundle bundle => .obj ([("type", .str "PrekeyBundle"),
      ("username", .str bundle.username),
      ("uuid", .str bundle.uuid), ("ed25519", .str bundle.ed25519),
      ("curve25519", .str bundle.curve25519)] ++ optionalField "one_time_key_id"
        bundle.oneTimeKeyId ++
      optionalField "one_time_key" bundle.oneTimeKey)
  | .attestResponse attestation => .obj [("type", .str "AttestResponse"),
      ("attestation", attestation)]
  | .serverInfo name repoUrl description contact version => .obj [("type", .str "ServerInfo"),
      ("name", .str name), ("repo_url", .str repoUrl), ("description", .str description),
      ("contact", .str contact), ("version", .str version)]
  | .deliver frame => .obj ([("type", .str "Deliver"), ("from", .str frame.from),
      ("to", .arr (frame.to.map .str)), ("msg_type", .str frame.msgType),
        ("payload", .str frame.payload)] ++
      optionalField "group_id" frame.groupId ++ [("server_ts", .num frame.serverTs),
      ("client_ts", .num frame.clientTs)])
  | .ok detail => .obj ([("type", .str "Ok")] ++ optionalField "detail" detail)
  | .error code message => .obj [("type", .str "Error"), ("code", .str code),
      ("message", .str message)]
  | .pong => .obj [("type", .str "Pong")]
  | .maintenance reason deadlineUnixMs version => .obj ([("type", .str "Maintenance"),
      ("reason", .str reason), ("deadline_unix_ms", .num deadlineUnixMs)] ++
      optionalField "version" version)

/-- A message of this kind, from its other fields. -/
def ServerMsg.ofKind (kind : String) (rest : Json) : Option ServerMsg :=
  match kind with
  | "Challenge" => do
      let fields ← rest.asFields ["nonce"]
      return .challenge (← fields.required "nonce" asStr)
  | "AuthOk" => do
      let fields ← rest.asFields ["uuid", "username"]
      return .authOk (← fields.required "uuid" asStr) (← fields.required "username" asStr)
  | "PrekeyBundle" => do
      let fields ← rest.asFields ["username", "uuid", "ed25519", "curve25519", "one_time_key_id",
        "one_time_key"]
      return .prekeyBundle ⟨← fields.required "username" asStr, ← fields.required "uuid" asStr,
        ← fields.required "ed25519" asStr, ← fields.required "curve25519" asStr,
        ← fields.orDefault "one_time_key_id" (asOption asStr) none,
        ← fields.orDefault "one_time_key" (asOption asStr) none⟩
  | "AttestResponse" => do
      let fields ← rest.asFields ["attestation"]
      return .attestResponse (← fields.required "attestation" asValue)
  | "ServerInfo" => do
      let fields ← rest.asFields ["name", "repo_url", "description", "contact", "version"]
      return .serverInfo (← fields.required "name" asStr) (← fields.required "repo_url" asStr)
        (← fields.required "description" asStr) (← fields.required "contact" asStr)
        (← fields.required "version" asStr)
  | "Deliver" => do
      let fields ← rest.asFields ["from", "to", "msg_type", "payload", "group_id", "server_ts",
        "client_ts"]
      return .deliver ⟨← fields.required "from" asStr, ← fields.required "to" asStrs,
        ← fields.required "msg_type" asStr, ← fields.required "payload" asStr,
        ← fields.orDefault "group_id" (asOption asStr) none, ← fields.required "server_ts" asI64,
        ← fields.required "client_ts" asI64⟩
  | "Ok" => do
      let fields ← rest.asFields ["detail"]
      return .ok (← fields.orDefault "detail" (asOption asStr) none)
  | "Error" => do
      let fields ← rest.asFields ["code", "message"]
      return .error (← fields.required "code" asStr) (← fields.required "message" asStr)
  | "Pong" => unitKind .pong rest
  | "Maintenance" => do
      let fields ← rest.asFields ["reason", "deadline_unix_ms", "version"]
      return .maintenance (← fields.required "reason" asStr)
        (← fields.required "deadline_unix_ms" asI64)
        (← fields.orDefault "version" (asOption asStr) none)
  | _ => none

/-- The derived `Deserialize`. -/
def ServerMsg.fromJson (value : Json) : Option ServerMsg := do
  let (kind, rest) ← tagged "type" value
  ServerMsg.ofKind kind rest

/-! ### What the messages can hold -/

/-- Its numbers are of their types. -/
def ClientMsg.Typed : ClientMsg → Prop
  | .send msg => IsI64 msg.clientTs
  | _ => True

/-- The attestation is a `serde_json::Value`. -/
def ServerMsg.Typed : ServerMsg → Prop
  | .attestResponse attestation => attestation.normal = attestation
  | .deliver frame => IsI64 frame.serverTs ∧ IsI64 frame.clientTs
  | .maintenance _ deadlineUnixMs _ => IsI64 deadlineUnixMs
  | _ => True

/-- The attestation holds no floating-point number. -/
def ServerMsg.FloatFree : ServerMsg → Prop
  | .attestResponse attestation => attestation.FloatFree
  | _ => True

/-! ### Reading what was written -/

theorem OneTimeKey.fromJson_toJson (key : OneTimeKey) :
    OneTimeKey.fromJson key.toJson = some key := by
  simp [fromJson, toJson, asFields, Fields.required, Fields.named, asStr]

theorem asI64_num {value : Int} (fits : IsI64 value) : asI64 (.num value) = some value :=
    if_pos fits

/-- The tag comes first, and no other field has its name. -/
theorem tagged_first {tag kind : String} {fields : Json.Fields}
    (others : tag ∉ fields.map Prod.fst) :
    tagged tag (.obj ((tag, .str kind) :: fields)) = some (kind, .obj fields) := by
  have none : ∀ field ∈ fields, field.1 ≠ tag := fun field member same =>
    others (same ▸ List.mem_map_of_mem member)
  have noTag : fields.filter (fun field => decide (field.1 = tag)) = [] :=
    List.filter_eq_nil_iff.mpr fun field member => by simpa using none field member
  have allOther : fields.filter (fun field => decide (field.1 ≠ tag)) = fields :=
    List.filter_eq_self.mpr fun field member => by simpa using none field member
  simp only [tagged, Fields.named, List.filter_cons, decide_true, if_true, noTag, List.map_cons,
    List.map_nil,
    ne_eq, not_true_eq_false, decide_false, Bool.false_eq_true, if_false]
  rw [show (fields.filter fun field => decide ¬ field.1 = tag) = fields from allOther]

theorem ClientMsg.fromJson_tagged {kind : String} {fields : Json.Fields}
    (others : "type" ∉ fields.map Prod.fst) :
    ClientMsg.fromJson (.obj (("type", .str kind) :: fields)) = ClientMsg.ofKind kind
    (.obj fields) := by
  rw [ClientMsg.fromJson, tagged_first others]
  rfl

theorem ServerMsg.fromJson_tagged {kind : String} {fields : Json.Fields}
    (others : "type" ∉ fields.map Prod.fst) :
    ServerMsg.fromJson (.obj (("type", .str kind) :: fields)) = ServerMsg.ofKind kind
    (.obj fields) := by
  rw [ServerMsg.fromJson, tagged_first others]
  rfl

theorem ClientMsg.fromJson_toJson {msg : ClientMsg} (typed : msg.Typed) :
    ClientMsg.fromJson msg.toJson = some msg := by
  cases msg with
  | publishPrekeys keys =>
      refine (ClientMsg.fromJson_tagged (by simp)).trans ?_
      simp only [ofKind]
      simp [asFields, Fields.required, Fields.named, asList_map OneTimeKey.fromJson_toJson]
  | send msg =>
      obtain ⟨recipients, msgType, payload, groupId, clientTs⟩ := msg
      have fits : IsI64 clientTs := typed
      cases groupId with
      | none =>
          refine (ClientMsg.fromJson_tagged (by simp [optionalField])).trans ?_
          simp only [ofKind]
          simp [asFields, Fields.required, Fields.orDefault, Fields.named, asStr, asI64_num fits,
            optionalField]
      | some groupId =>
          refine (ClientMsg.fromJson_tagged (by simp [optionalField])).trans ?_
          simp only [ofKind]
          simp [asFields, Fields.required, Fields.orDefault, Fields.named, asStr, asI64_num fits,
            optionalField,
            asOption]
  | _ =>
      refine (ClientMsg.fromJson_tagged (by simp)).trans ?_
      simp only [ofKind]
      simp [asFields, Fields.required, Fields.named, asStr, unitKind]

theorem ServerMsg.fromJson_toJson {msg : ServerMsg} (typed : msg.Typed) :
    ServerMsg.fromJson msg.toJson = some msg := by
  cases msg with
  | prekeyBundle bundle =>
      obtain ⟨username, uuid, ed25519, curve25519, oneTimeKeyId, oneTimeKey⟩ := bundle
      cases oneTimeKeyId <;> cases oneTimeKey
      all_goals
        refine (ServerMsg.fromJson_tagged (by simp [optionalField])).trans ?_
        simp only [ofKind]
        simp [asFields, Fields.required, Fields.orDefault, Fields.named, asStr, optionalField,
          asOption]
  | attestResponse attestation =>
      have same : attestation.normal = attestation := typed
      refine (ServerMsg.fromJson_tagged (by simp)).trans ?_
      simp only [ofKind]
      simp [asFields, Fields.required, Fields.named, asValue, same]
  | deliver frame =>
      obtain ⟨sender, recipients, msgType, payload, groupId, serverTs, clientTs⟩ := frame
      have fits : IsI64 serverTs ∧ IsI64 clientTs := typed
      cases groupId
      all_goals
        refine (ServerMsg.fromJson_tagged (by simp [optionalField])).trans ?_
        simp only [ofKind]
        simp [asFields, Fields.required, Fields.orDefault, Fields.named, asStr, asI64_num fits.1,
          asI64_num fits.2, optionalField, asOption]
  | ok detail =>
      cases detail
      all_goals
        refine (ServerMsg.fromJson_tagged (by simp [optionalField])).trans ?_
        simp only [ofKind]
        simp [asFields, Fields.orDefault, Fields.named, asStr, optionalField, asOption]
  | maintenance reason deadlineUnixMs version =>
      have fits : IsI64 deadlineUnixMs := typed
      cases version
      all_goals
        refine (ServerMsg.fromJson_tagged (by simp [optionalField])).trans ?_
        simp only [ofKind]
        simp [asFields, Fields.required, Fields.orDefault, Fields.named, asStr, asI64_num fits,
          optionalField, asOption]
  | _ =>
      refine (ServerMsg.fromJson_tagged (by simp)).trans ?_
      simp only [ofKind]
      simp [asFields, Fields.required, Fields.named, asStr, unitKind]

/-! ### Reading it in normal form -/

/-- In normal form, the tag is found, and the other fields are alike. -/
theorem tagged_normal {tag : String} (kind : String) {fields : Json.Fields}
    (names : (tag :: fields.map Prod.fst).Nodup) :
    ∃ fields', tagged tag (Json.obj ((tag, .str kind) :: fields)).normal = some
      (kind, .obj fields') ∧
      Alike fields fields' := by
  have values : ∀ name, Fields.named (normalFields ((tag, .str kind) :: fields)) name =
      (Fields.named ((tag, .str kind) :: fields) name).map normal := named_normalFields names
  have none : fields.filter (fun field => decide (field.1 = tag)) = [] :=
    List.filter_eq_nil_iff.mpr fun field member => by
      simpa using fun same : field.1 = tag =>
        (List.nodup_cons.mp names).1 (List.mem_map.mpr ⟨field, member, same⟩)
  have ofTag : Fields.named (normalFields ((tag, .str kind) :: fields)) tag = [.str kind] := by
    rw [values tag]
    simp [Fields.named, none, normal]
  refine ⟨(normalFields ((tag, .str kind) :: fields)).filter fun field =>
    field.1 ≠ tag, ?_, fun name => ?_⟩
  · rw [normal, tagged, ofTag]
  · by_cases same : name = tag
    · subst same
      simp [Fields.named, List.filter_filter, none]
    · have others := values name
      have different : ¬ tag = name := fun here => same here.symm
      simp only [Fields.named, List.filter_cons, different, decide_false, Bool.false_eq_true,
        if_false] at others
      simp only [Fields.named, List.filter_filter]
      rw [← others]
      refine congrArg _ (List.filter_congr fun field _ => ?_)
      by_cases here : field.1 = name <;> simp [here, same]

theorem OneTimeKey.fromJson_normal (key : OneTimeKey) :
    OneTimeKey.fromJson key.toJson.normal = some key := by
  have names : (["key_id", "curve25519"] : List String).Nodup := by decide
  have alike : Alike [("key_id", .str key.keyId), ("curve25519", .str key.curve25519)]
      (normalFields [("key_id", .str key.keyId), ("curve25519", .str key.curve25519)]) :=
    named_normalFields names
  have plain := OneTimeKey.fromJson_toJson key
  simp only [fromJson, toJson, normal, asFields, Option.bind_eq_bind, Option.bind_some] at plain ⊢
  rw [alike.required stable_asStr, alike.required stable_asStr]
  exact plain

theorem ClientMsg.ofKind_alike {fields fields' : Json.Fields} (alike : Alike fields fields')
    {kind : String}
    (other : kind ≠ "PublishPrekeys") :
    ClientMsg.ofKind kind (.obj fields') = ClientMsg.ofKind kind (.obj fields) := by
  unfold ClientMsg.ofKind
  split
  case h_4 => exact absurd rfl other
  all_goals simp only [asFields, alike.required stable_asStr, alike.required stable_asStrs,
    alike.required stable_asI64, alike.orDefault stable_asStr.asOption, unitKind,
    Option.bind_eq_bind,
    Option.bind_some, Option.map_some]

theorem ServerMsg.ofKind_alike {fields fields' : Json.Fields} (alike : Alike fields fields')
    {kind : String}
    (other : kind ≠ "AttestResponse") :
    ServerMsg.ofKind kind (.obj fields') = ServerMsg.ofKind kind (.obj fields) := by
  unfold ServerMsg.ofKind
  split
  case h_4 => exact absurd rfl other
  all_goals simp only [asFields, alike.required stable_asStr, alike.required stable_asStrs,
    alike.required stable_asI64, alike.orDefault stable_asStr.asOption, unitKind,
    Option.bind_eq_bind,
    Option.bind_some, Option.map_some]

/-! ### Messages as records -/

/-- A record with its tag in front, each name once, whose values are exact. -/
structure IsRecord (value : Json) (kind : String) (fields : Json.Fields) : Prop where
  shape : value = .obj (("type", .str kind) :: fields)
  names : ("type" :: fields.map Prod.fst).Nodup
  exact : ∀ field ∈ fields, Exact field.2

theorem IsRecord.exactJson {value : Json} {kind : String} {fields : Json.Fields}
    (record : IsRecord value kind fields) : Exact value := by
  rw [record.shape]
  refine .obj record.names fun field member => ?_
  rcases List.mem_cons.mp member with rfl | other
  · exact .str kind
  · exact record.exact field other

theorem exact_texts (texts : List String) : Exact (.arr (texts.map .str)) := by
  refine .arr fun value member => ?_
  obtain ⟨text, _, rfl⟩ := List.mem_map.mp member
  exact .str text

theorem exact_i64 {value : Int} (fits : IsI64 value) : Exact (.num value) :=
  .num ⟨fits.1, by have := fits.2; omega⟩

theorem OneTimeKey.exact_toJson (key : OneTimeKey) : Exact key.toJson := by
  show Exact (.obj [("key_id", .str key.keyId), ("curve25519", .str key.curve25519)])
  refine .obj (show (["key_id", "curve25519"] : List String).Nodup by decide) ?_
  simp [Exact.str]

theorem ClientMsg.isRecord {msg : ClientMsg} (typed : msg.Typed) :
    ∃ kind fields, IsRecord msg.toJson kind fields := by
  cases msg with
  | publishPrekeys keys =>
      refine ⟨_, _, rfl, by simp, ?_⟩
      simp only [List.mem_singleton, forall_eq]
      refine .arr fun value member => ?_
      obtain ⟨key, _, rfl⟩ := List.mem_map.mp member
      exact key.exact_toJson
  | send msg =>
      obtain ⟨recipients, msgType, payload, groupId, clientTs⟩ := msg
      have fits : IsI64 clientTs := typed
      cases groupId <;>
        exact ⟨_, _, rfl, by simp [optionalField], by
          simp [optionalField, Exact.str, exact_texts, exact_i64 fits]⟩
  | _ => exact ⟨_, _, rfl, by simp, by simp [Exact.str]⟩

theorem ServerMsg.isRecord {msg : ServerMsg} (typed : msg.Typed) (free : msg.FloatFree) :
    ∃ kind fields, IsRecord msg.toJson kind fields := by
  cases msg with
  | prekeyBundle bundle =>
      obtain ⟨username, uuid, ed25519, curve25519, oneTimeKeyId, oneTimeKey⟩ := bundle
      cases oneTimeKeyId <;> cases oneTimeKey <;>
        exact ⟨_, _, rfl, by simp [optionalField], by simp [optionalField, Exact.str]⟩
  | attestResponse attestation =>
      have exact : Exact attestation := exact_of_normal free typed
      exact ⟨_, _, rfl, by simp, by simp [exact]⟩
  | deliver frame =>
      obtain ⟨sender, recipients, msgType, payload, groupId, serverTs, clientTs⟩ := frame
      have fits : IsI64 serverTs ∧ IsI64 clientTs := typed
      cases groupId <;>
        exact ⟨_, _, rfl, by simp [optionalField], by
          simp [optionalField, Exact.str, exact_texts, exact_i64 fits.1, exact_i64 fits.2]⟩
  | ok detail =>
      cases detail <;> exact ⟨_, _, rfl, by simp [optionalField], by
        simp [optionalField, Exact.str]⟩
  | maintenance reason deadlineUnixMs version =>
      have fits : IsI64 deadlineUnixMs := typed
      cases version <;>
        exact ⟨_, _, rfl, by simp [optionalField], by simp [optionalField, Exact.str,
          exact_i64 fits]⟩
  | _ => exact ⟨_, _, rfl, by simp, by simp [Exact.str]⟩

/-- What a client's message is read as, if it is read as any JSON first. -/
theorem ClientMsg.fromJson_normal {msg : ClientMsg} (typed : msg.Typed) :
    ClientMsg.fromJson msg.toJson.normal = some msg := by
  obtain ⟨kind, fields, record⟩ := ClientMsg.isRecord typed
  obtain ⟨fields', found, alike⟩ := tagged_normal kind record.names
  have plain := ClientMsg.fromJson_toJson typed
  rw [record.shape] at plain ⊢
  rw [ClientMsg.fromJson_tagged (List.nodup_cons.mp record.names).1] at plain
  rw [ClientMsg.fromJson, found]
  show ClientMsg.ofKind kind (.obj fields') = some msg
  by_cases publishes : kind = "PublishPrekeys"
  · subst publishes
    obtain ⟨keys, rfl⟩ : ∃ keys, msg = .publishPrekeys keys := by
      simp only [ClientMsg.ofKind, asFields, Option.bind_eq_bind, Option.bind_some,
        Option.bind_eq_some_iff] at plain
      obtain ⟨keys, _, same⟩ := plain
      exact ⟨keys, (Option.some.inj same).symm⟩
    obtain rfl : fields = [("one_time_keys", .arr (keys.map OneTimeKey.toJson))] :=
      (List.cons.inj (Json.obj.inj record.shape)).2.symm
    have listed : Fields.required fields' "one_time_keys" (asList OneTimeKey.fromJson) = some
        keys := by
      have values : Fields.named fields' "one_time_keys" =
          [.arr (keys.map fun key => key.toJson.normal)] := by
        rw [alike "one_time_keys"]
        simp [Fields.named, normal, normalAll_eq]
      rw [Fields.required, values]
      exact asList_map OneTimeKey.fromJson_normal keys
    simp only [ClientMsg.ofKind, asFields, Option.bind_eq_bind, Option.bind_some, listed]
    rfl
  · rw [ClientMsg.ofKind_alike alike publishes, plain]

/-- What a message of the relay is read as, if it is read as any JSON first. -/
theorem ServerMsg.fromJson_normal {msg : ServerMsg} (typed : msg.Typed) (free : msg.FloatFree) :
    ServerMsg.fromJson msg.toJson.normal = some msg := by
  obtain ⟨kind, fields, record⟩ := ServerMsg.isRecord typed free
  obtain ⟨fields', found, alike⟩ := tagged_normal kind record.names
  have plain := ServerMsg.fromJson_toJson typed
  rw [record.shape] at plain ⊢
  rw [ServerMsg.fromJson_tagged (List.nodup_cons.mp record.names).1] at plain
  rw [ServerMsg.fromJson, found]
  show ServerMsg.ofKind kind (.obj fields') = some msg
  by_cases attests : kind = "AttestResponse"
  · subst attests
    obtain ⟨attestation, rfl⟩ : ∃ attestation, msg = .attestResponse attestation := by
      simp only [ServerMsg.ofKind, asFields, Option.bind_eq_bind, Option.bind_some,
        Option.bind_eq_some_iff] at plain
      obtain ⟨attestation, _, same⟩ := plain
      exact ⟨attestation, (Option.some.inj same).symm⟩
    have same : attestation.normal = attestation := typed
    obtain rfl : fields = [("attestation", attestation)] :=
      (List.cons.inj (Json.obj.inj record.shape)).2.symm
    have attested : Fields.required fields' "attestation" asValue = some attestation := by
      have values : Fields.named fields' "attestation" = [attestation] := by
        rw [alike "attestation"]
        simp [Fields.named, same]
      rw [Fields.required, values]
      exact congrArg some same
    simp only [ServerMsg.ofKind, asFields, Option.bind_eq_bind, Option.bind_some, attested]
    rfl
  · rw [ServerMsg.ofKind_alike alike attests, plain]

/-! ### Frames -/

/-- Four bytes, the most significant one first. -/
def beBytes (n : Nat) : Bytes := [24, 16, 8, 0].map fun shift => UInt8.ofNat (n / 2 ^ shift)

/-- The number that bytes stand for, the most significant one first. -/
def beNat (bytes : Bytes) : Nat := bytes.foldl (fun n byte => n * 256 + byte.toNat) 0

theorem beNat_beBytes {n : Nat} (small : n < 2 ^ 32) : beNat (beBytes n) = n := by
  simp only [beNat, beBytes, List.map_cons, List.map_nil, List.foldl_cons, List.foldl_nil,
    UInt8.toNat_ofNat']
  omega

theorem length_beBytes (n : Nat) : (beBytes n).length = 4 := rfl

/-- Why no message is read, or none written. -/
inductive FrameError where
  | earlyEof
  | tooLarge
  | shortBody
  | invalid (text : String)
deriving DecidableEq, Repr

/-- A body with its length in front. -/
def frame (body : Bytes) : Bytes := beBytes body.length ++ body

theorem length_frame (body : Bytes) : (frame body).length = body.length + 4 := by
  rw [frame, List.length_append, length_beBytes, Nat.add_comm]

/-- Messages read one after the other. -/
def readTimes {α : Type} (next : Bytes → Except FrameError α × Bytes) :
    Nat → Bytes → Except FrameError (List α) × Bytes
  | 0, stream => (.ok [], stream)
  | n + 1, stream =>
      match next stream with
      | (.error e, rest) => (.error e, rest)
      | (.ok msg, rest) =>
          match readTimes next n rest with
          | (.error e, rest) => (.error e, rest)
          | (.ok msgs, rest) => (.ok (msg :: msgs), rest)

/-- If each of some frames is read as a message, all are read, in their order. -/
theorem readTimes_frames {α : Type} (next : Bytes → Except FrameError α × Bytes)
    (frames : List (Bytes × α))
    (each : ∀ item ∈ frames, ∀ rest, next (item.1 ++ rest) = (.ok item.2, rest)) (rest : Bytes) :
    readTimes next frames.length ((frames.map Prod.fst).flatten ++ rest) =
    (.ok (frames.map Prod.snd), rest) := by
  induction frames with
  | nil => rfl
  | cons item frames ih =>
      rw [List.map_cons, List.flatten_cons, List.append_assoc, List.length_cons, readTimes,
        each item List.mem_cons_self]
      dsimp only
      rw [ih fun other member => each other (List.mem_cons_of_mem _ member)]
      rfl

section

variable [Crates]

/-- `write_msg`: the bytes that go to the stream. -/
def writeMsg (value : Json) : Except FrameError Bytes :=
  let buf := toVec value
  if maxFrame < buf.length then .error .tooLarge else .ok (frame buf)

/-- A body read as JSON, and as what it should be. -/
def decode {α : Type} (name : String) (read : Json → Option α) (body : Bytes) :
    Except FrameError α :=
  match fromSlice body with
  | .error e => .error (.invalid e)
  | .ok value =>
      match read value with
      | some msg => .ok msg
      | none => .error (.invalid (recordError name body))

/-- `read_msg` on the bytes of a stream that ends after them: the message, and what is left. -/
def readMsg {α : Type} (name : String) (read : Json → Option α) (stream : Bytes) :
    Except FrameError α × Bytes :=
  if stream.length < 4 then (.error .earlyEof, [])
  else
    let len := beNat (stream.take 4)
    let rest := stream.drop 4
    if maxFrame < len then (.error .tooLarge, rest)
    else if (rest.take len).length ≠ len then (.error .shortBody, [])
    else (decode name read (rest.take len), rest.drop len)

/-- **Reading a frame** takes the frame from the stream, whatever its body is. -/
theorem readMsg_frame {α : Type} (name : String) (read : Json → Option α) {body : Bytes}
    (fits : body.length ≤ maxFrame) (rest : Bytes) :
    readMsg name read (frame body ++ rest) = (decode name read body, rest) := by
  have small : body.length < 2 ^ 32 := Nat.lt_of_le_of_lt fits (by decide)
  have enough : ¬ (frame body ++ rest).length < 4 := by
    rw [List.length_append, length_frame]
    omega
  have header : (frame body ++ rest).take 4 = beBytes body.length := by
    rw [frame, List.append_assoc]
    rfl
  have after : (frame body ++ rest).drop 4 = body ++ rest := by
    rw [frame, List.append_assoc]
    rfl
  unfold readMsg
  rw [if_neg enough]
  simp only [header, after, beNat_beBytes small]
  rw [if_neg (Nat.not_lt.mpr fits), List.take_left, if_neg (by simp), List.drop_left]

/-- **Reading a part of a frame** fails. -/
theorem readMsg_cut {α : Type} (name : String) (read : Json → Option α) {body : Bytes}
    (fits : body.length ≤ maxFrame) {part : Bytes} (isPart : part <+: frame body)
      (proper : part ≠ frame body) :
    ∃ e, (readMsg name read part).1 = .error e := by
  unfold readMsg
  split
  · exact ⟨_, rfl⟩
  · next enough =>
    obtain ⟨missing, whole⟩ := isPart
    have short : part.length < body.length + 4 := by
      have lengths := congrArg List.length whole
      rw [List.length_append, length_frame] at lengths
      have some : missing.length ≠ 0 := fun none => proper <| by
        rw [← whole, List.length_eq_zero_iff.mp none, List.append_nil]
      omega
    have header : part.take 4 = beBytes body.length := by
      have front := congrArg (List.take 4) whole
      rw [List.take_append_of_le_length (by omega)] at front
      exact front
    have small : body.length < 2 ^ 32 := Nat.lt_of_le_of_lt fits (by decide)
    simp only [header, beNat_beBytes small]
    rw [if_neg (Nat.not_lt.mpr fits), if_pos]
    · exact ⟨_, rfl⟩
    · rw [List.length_take, List.length_drop]
      omega

/-- Both ends read any JSON first, and then a message; what is no message is passed over. -/
def readNext {α : Type} (read : Json → Option α) (stream : Bytes) :
    Except FrameError (Option α) × Bytes :=
  match readMsg "Value" asValue stream with
  | (.error e, rest) => (.error e, rest)
  | (.ok value, rest) => (.ok (read value), rest)

end

end Cherm
