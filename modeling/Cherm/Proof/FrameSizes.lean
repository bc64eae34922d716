/-
**Frames that the relay takes and cannot pass on.**

A frame is bounded when it is read and when it is written. The frame that is made of a `Send` says
what the `Send` said, and who sent it and when, so it is longer. Of a `Send`, the relay bounds the
payload and the number of recipients, and no other text.

* `RenderedTexts` is what is relied on: what `serde_json` writes for a value without floats.
* `length_toVec_send`, `length_toVec_deliver`: how long the two texts are.
* `passesOn_iff` is the result: how much shorter than its bound a `Send` has to be.
-/

import Cherm.Lib.JsonSize
import Cherm.Proof.FanOut
import Cherm.Proof.WireFormat

namespace Cherm

open Crates Json

/-- `serde_json` writes a value compactly, with the short escapes where there are any. -/
class RenderedTexts [Crates] : Prop where
  toVec_exact : ∀ value : Json, value.Exact → toVec value = utf8 (String.ofList value.render)

/-- A list of texts. -/
def listBytes (texts : List String) : Nat :=
  if texts = [] then 2 else 1 + (texts.map fun text => textBytes text + 1).sum

theorem bytes_texts (texts : List String) :
    bytes (render (.arr (texts.map .str))) = listBytes texts := by
  by_cases none : texts = []
  · subst none
    decide
  · rw [bytes_arr (by simpa using none), listBytes, if_neg none, List.map_map]
    simp only [Function.comp_def, bytes_str]

/-- The group, if there is one, with the name of its field. -/
def groupBytes : Option String → Nat
  | none => 0
  | some groupId => textBytes groupId + 12

/-- A `Send`, written compactly. -/
def SendMsg.bytes (msg : SendMsg) : Nat :=
  listBytes msg.to + textBytes msg.msgType + textBytes msg.payload + groupBytes msg.groupId +
    numBytes msg.clientTs + 57

theorem isI64_of_required {fields : Json.Fields} {name : String} {value : Int}
    (required : fields.required name asI64 = some value) : IsI64 value := by
  unfold Fields.required at required
  split at required
  · next read =>
    unfold asI64 at required
    split at required
    · split at required
      · next fits =>
        obtain rfl := Option.some.inj required
        exact fits
      · cases required
    · cases required
  · cases required

theorem ClientMsg.typed_of_fromJson {value : Json} {msg : SendMsg}
    (read : ClientMsg.fromJson value = some (.send msg)) : IsI64 msg.clientTs := by
  obtain ⟨⟨kind, rest⟩, _, read⟩ := Option.bind_eq_some_iff.mp read
  change ClientMsg.ofKind kind rest = _ at read
  unfold ClientMsg.ofKind at read
  split at read
  case h_9 =>
    simp only [Option.bind_eq_bind, Option.bind_eq_some_iff] at read
    obtain ⟨fields, _, _, _, _, _, _, _, _, _, ts, required, same⟩ := read
    cases same
    exact isI64_of_required required
  all_goals simp [Option.bind_eq_some_iff, unitKind] at read

theorem sum_optionalField (name : String) (value : Option String) :
    ((optionalField name value).map fun field =>
      textBytes field.1 + bytes (render field.2) + 2).sum =
      value.elim 0 fun text => textBytes name + textBytes text + 2 := by
  cases value <;> simp [optionalField]

/-- The names that both messages have. -/
theorem textBytes_names : textBytes "type" = 6 ∧ textBytes "to" = 4 ∧ textBytes "msg_type" = 10 ∧
    textBytes "payload" = 9 ∧ textBytes "client_ts" = 11 := by decide

theorem groupBytes_eq (groupId : Option String) :
    groupBytes groupId =
      groupId.elim 0 fun text => textBytes "group_id" + textBytes text + 2 := by
  have name : textBytes "group_id" = 10 := by decide
  cases groupId with
  | none => rfl
  | some text =>
      rw [groupBytes, Option.elim_some, name]
      omega

section

variable [Crates]

/-- A `Send` was read from the connection, and neither its payload nor its list of recipients is too
long. -/
structure Accepts (stream : Bytes) (msg : SendMsg) : Prop where
  read : ∃ rest, readNext ClientMsg.fromJson stream = (.ok (some (.send msg)), rest)
  payload : msg.payload.utf8ByteSize ≤ maxPayload
  recipients : msg.to.length ≤ maxRecipients

theorem Accepts.inRange {stream : Bytes} {msg : SendMsg} (accepts : Accepts stream msg) :
    IsI64 msg.clientTs := by
  obtain ⟨rest, read⟩ := accepts.read
  unfold readNext at read
  split at read
  · cases read
  · exact ClientMsg.typed_of_fromJson (Except.ok.inj (Prod.mk.inj read).1)

theorem writeMsg_ok_iff (value : Json) :
    (∃ bytes, writeMsg value = .ok bytes) ↔ (toVec value).length ≤ maxFrame := by
  unfold writeMsg
  by_cases long : maxFrame < (toVec value).length
  · simp [long]
  · simp [long, Nat.not_lt.mp long]

/-- The frame that is made of the message goes through the writer of whoever gets it. -/
def PassesOn (frame : Deliver) : Prop :=
  ∃ bytes, writeMsg (ServerMsg.deliver frame).toJson = .ok bytes

variable [RenderedTexts]

theorem length_toVec {value : Json} (exact : value.Exact) :
    (toVec value).length = bytes value.render := by
  have length : ∀ text, (utf8 text).length = text.utf8ByteSize := fun text => by simp [utf8]
  rw [RenderedTexts.toVec_exact value exact, length, utf8ByteSize_ofList]

theorem length_toVec_send {msg : SendMsg} (inRange : IsI64 msg.clientTs) :
    (toVec (ClientMsg.send msg).toJson).length = msg.bytes := by
  obtain ⟨kind, fields, record⟩ := ClientMsg.isRecord (show (ClientMsg.send msg).Typed from inRange)
  have names := textBytes_names
  have tag : textBytes "Send" = 6 := by decide
  rw [length_toVec record.exactJson, ClientMsg.toJson, bytes_obj (by simp)]
  simp only [List.cons_append, List.nil_append, List.map_cons, List.map_append, List.map_nil,
    List.sum_cons, List.sum_append, List.sum_nil, bytes_str, bytes_num, bytes_texts,
    sum_optionalField, ← groupBytes_eq, SendMsg.bytes]
  omega

/-- What the relay adds: the sender and the time. -/
theorem length_toVec_deliver {msg : SendMsg} (inRange : IsI64 msg.clientTs) (sender : String)
    {ts : Int} (now : IsI64 ts) :
    (toVec (ServerMsg.deliver (Relay.frameFor sender msg ts)).toJson).length =
      msg.bytes + textBytes sender + numBytes ts + 24 := by
  obtain ⟨kind, fields, record⟩ := ServerMsg.isRecord
    (show (ServerMsg.deliver (Relay.frameFor sender msg ts)).Typed from ⟨now, inRange⟩) trivial
  have names := textBytes_names
  have tag : textBytes "Deliver" = 9 := by decide
  have added : textBytes "from" = 6 ∧ textBytes "server_ts" = 11 := by decide
  rw [length_toVec record.exactJson, ServerMsg.toJson, bytes_obj (by simp)]
  simp only [List.cons_append, List.nil_append, List.map_cons, List.map_append, List.map_nil,
    List.sum_cons, List.sum_append, List.sum_nil, bytes_str, bytes_num, bytes_texts,
    sum_optionalField, ← groupBytes_eq, SendMsg.bytes, Relay.frameFor]
  omega

/-- **What the relay can pass on.** Of a `Send` that it takes, the frame it makes is written on a
recipient's connection exactly if the `Send`, written compactly, is shorter than a frame may be by
24 bytes and the lengths of the sender's name and of the time. -/
theorem passesOn_iff {stream : Bytes} {msg : SendMsg} (accepts : Accepts stream msg)
    (sender : String) {ts : Int} (now : IsI64 ts) :
    PassesOn (Relay.frameFor sender msg ts) ↔
      msg.bytes + textBytes sender + numBytes ts + 24 ≤ maxFrame := by
  rw [PassesOn, writeMsg_ok_iff, length_toVec_deliver accepts.inRange sender now]

end

namespace Ideal

theorem deepRendered : @RenderedTexts deepCrates := @RenderedTexts.mk deepCrates fun _ _ =>
  (utf8_ofList _).symm

/-- A `Send` within the limits of the relay is taken from a stream it is written to. -/
theorem accepts_written {msg : SendMsg} (inRange : IsI64 msg.clientTs)
    (fits : msg.bytes ≤ maxFrame) (small : msg.payload.utf8ByteSize ≤ maxPayload)
    (few : msg.to.length ≤ maxRecipients) : ∃ stream, @Accepts deepCrates stream msg := by
  have typed : (ClientMsg.send msg).Typed := inRange
  obtain ⟨kind, fields, record⟩ := ClientMsg.isRecord typed
  have length := @length_toVec_send deepCrates deepRendered msg typed
  have written := @written_frame deepCrates _ ClientMsg.toJson ClientMsg.fromJson deepTexts
    "ClientMsg" _ record.exactJson (ClientMsg.fromJson_toJson typed)
    (ClientMsg.fromJson_normal typed) (length.le.trans fits)
  exact ⟨_, @Accepts.mk deepCrates _ msg ⟨_, (written.2 []).2⟩ small few⟩

/-- A text of Alice's for Bob and Carol. -/
def noteMsg : SendMsg := ⟨["bob", "carol"], "megolm", "c2VlIHlvdSBhdCBlaWdodA==", some "g1", 1⟩

/-- It is passed on. -/
theorem noteMsg_passes : ∃ stream, @Accepts deepCrates stream noteMsg ∧
    @PassesOn deepCrates (Relay.frameFor "alice" noteMsg 2) := by
  have accepted : ∃ stream, @Accepts deepCrates stream noteMsg :=
    accepts_written ⟨by decide, by decide⟩ (by decide +kernel) (by decide +kernel) (by decide)
  obtain ⟨stream, accepts⟩ := accepted
  have now : IsI64 2 := ⟨by decide, by decide⟩
  refine ⟨stream, accepts, (@passesOn_iff deepCrates deepRendered _ _ accepts "alice" 2 now).mpr ?_⟩
  decide +kernel

/-- A message for Bob of a kind that takes this many letters. -/
def longMsg (letters : Nat) : SendMsg :=
  ⟨["bob"], String.ofList (List.replicate letters 'a'), "", none, 0⟩

theorem bytes_longMsg (letters : Nat) : (longMsg letters).bytes = letters + 69 := by
  have plain : ∀ c ∈ List.replicate letters 'a', escapeChar c = [c] := fun c member => by
    rw [List.eq_of_mem_replicate member]
    decide
  have others : listBytes ["bob"] = 7 ∧ textBytes "" = 2 ∧ numBytes 0 = 1 := by decide
  have letter : 'a'.utf8Size = 1 := rfl
  simp only [SendMsg.bytes, longMsg, groupBytes, textBytes, String.toList_ofList,
    escape_eq_self plain, bytes_replicate, letter] at others ⊢
  omega

/-- It is taken as long as its frame is. -/
theorem accepts_longMsg {letters : Nat} (fits : letters + 69 ≤ maxFrame) :
    ∃ stream, @Accepts deepCrates stream (longMsg letters) := by
  refine accepts_written zero_isI64 ?_ (Nat.zero_le _) (by decide : 1 ≤ maxRecipients)
  rw [bytes_longMsg]
  exact fits

/-- **A Send that cannot be passed on.** It has the length that a frame may have, and its kind takes
most of that. -/
theorem longMsg_stuck :
    ¬ ∀ (stream : Bytes) (msg : SendMsg) (sender : String) (ts : Int),
      @Accepts deepCrates stream msg → validUsername sender = true → IsI64 ts →
      @PassesOn deepCrates (Relay.frameFor sender msg ts) := by
  intro law
  have frame : maxFrame - 69 + 69 = maxFrame := Nat.sub_add_cancel (by decide)
  obtain ⟨stream, accepts⟩ := accepts_longMsg frame.le
  have passes := law stream _ "alice" 0 accepts (by decide) zero_isI64
  have length := @length_toVec_deliver deepCrates deepRendered _
    (@Accepts.inRange deepCrates _ _ accepts) "alice" 0 zero_isI64
  rw [bytes_longMsg, frame] at length
  have fits := (@writeMsg_ok_iff deepCrates _).mp passes
  omega

end Ideal

end Cherm
