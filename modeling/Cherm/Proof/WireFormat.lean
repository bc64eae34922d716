/-
**The wire format: round trip and resynchronisation.**

What is written with `writeMsg` is read back with `readMsg`, message by message, and nothing of what
follows is touched. A part of a frame is no message. A frame with JSON of another shape is passed
over, and the next message is read as if it had not been there.

* `ExactTexts` is what is relied on: `serde_json` reads its own text of a value without floats.
* `WireFormat` is the law for a type of messages; `wire_format` is the result for both.
-/

import Cherm.Frames
import Cherm.Ideal

namespace Cherm

open Crates Json

/-- `serde_json` parses its own output for texts, integers, options, lists and objects. -/
class ExactTexts [Crates] : Prop where
  fromSlice_toVec_exact : ∀ value : Json, value.Exact → fromSlice (toVec value) = .ok value

section

variable [Crates]

/-- The law of the wire format, for messages that are written as JSON so and read so. -/
structure WireFormat {α : Type} (name : String) (toJson : α → Json) (fromJson : Json → Option α)
    (good : α → Prop) : Prop where
  /-- Messages are read back in their order, and what follows is left. -/
  roundTrip : ∀ msgs : List α, (∀ msg ∈ msgs, good msg ∧ (toVec (toJson msg)).length ≤ maxFrame) →
    ∃ frames, msgs.mapM (fun msg => writeMsg (toJson msg)) = .ok frames ∧ ∀ rest,
      readTimes (readMsg name fromJson) msgs.length (frames.flatten ++ rest) = (.ok msgs, rest) ∧
      readTimes (readNext fromJson) msgs.length (frames.flatten ++ rest) =
      (.ok (msgs.map some), rest)
  /-- A proper part of a frame is no message. -/
  truncated : ∀ msg bytes part, writeMsg (toJson msg) = .ok bytes → part <+: bytes → part ≠ bytes →
    (∃ e, (readMsg name fromJson part).1 = .error e) ∧ ∃ e, (readNext fromJson part).1 = .error e
  /-- A frame with any JSON in it, read as such, is taken from the stream and nothing else. -/
  resync : ∀ body value, body.length ≤ maxFrame → fromSlice body = .ok value → ∀ rest,
    readMsg "Value" asValue (beBytes body.length ++ body ++ rest) = (.ok value.normal, rest) ∧
    readNext fromJson (beBytes body.length ++ body ++ rest) = (.ok (fromJson value.normal), rest)

variable {α : Type} {name : String} {toJson : α → Json} {fromJson : Json → Option α}
    {good : α → Prop}

theorem readNext_frame {body : Bytes} {value : Json} (fits : body.length ≤ maxFrame)
    (parsed : fromSlice body = .ok value) (rest : Bytes) :
    readMsg "Value" asValue (frame body ++ rest) = (.ok value.normal, rest) ∧
      readNext fromJson (frame body ++ rest) = (.ok (fromJson value.normal), rest) := by
  have read : readMsg "Value" asValue (frame body ++ rest) = (.ok value.normal, rest) := by
    rw [readMsg_frame "Value" asValue fits, decode, parsed]
    rfl
  exact ⟨read, by rw [readNext, read]⟩

/-- A message whose JSON is read back has a frame that is read back. -/
theorem written_frame [ExactTexts] (name : String) {msg : α} (exact : (toJson msg).Exact)
    (plain : fromJson (toJson msg) = some msg) (normal : fromJson (toJson msg).normal = some msg)
    (fits : (toVec (toJson msg)).length ≤ maxFrame) :
    writeMsg (toJson msg) = .ok (frame (toVec (toJson msg))) ∧ ∀ rest,
      readMsg name fromJson (frame (toVec (toJson msg)) ++ rest) = (.ok msg, rest) ∧
      readNext fromJson (frame (toVec (toJson msg)) ++ rest) = (.ok (some msg), rest) := by
  have parsed := ExactTexts.fromSlice_toVec_exact (toJson msg) exact
  refine ⟨if_neg (Nat.not_lt.mpr fits), fun rest => ⟨?_, ?_⟩⟩
  · rw [readMsg_frame name fromJson fits, decode, parsed]
    simp only [plain]
  · rw [(readNext_frame fits parsed rest).2, normal]

theorem written_frames {msgs : List α} (fits : ∀ msg ∈ msgs,
    (toVec (toJson msg)).length ≤ maxFrame) :
    msgs.mapM (fun msg => writeMsg (toJson msg)) = .ok (msgs.map fun msg =>
    frame (toVec (toJson msg))) := by
  induction msgs with
  | nil => rfl
  | cons msg rest ih =>
      have first : writeMsg (toJson msg) = .ok (frame (toVec (toJson msg))) :=
        if_neg (Nat.not_lt.mpr (fits msg List.mem_cons_self))
      rw [List.mapM_cons, first, ih fun other member => fits other (List.mem_cons_of_mem _ member)]
      rfl

/-- The law holds of every type of messages whose JSON is exact and read back. -/
theorem wireFormat_of [ExactTexts] (exact : ∀ msg, good msg → (toJson msg).Exact)
    (plain : ∀ msg, good msg → fromJson (toJson msg) = some msg)
    (normal : ∀ msg, good msg → fromJson (toJson msg).normal = some msg) :
    WireFormat name toJson fromJson good where
  roundTrip msgs all := by
    refine ⟨_, written_frames fun msg member => (all msg member).2, fun rest => ⟨?_, ?_⟩⟩
    · have each := readTimes_frames (readMsg name fromJson)
        (msgs.map fun msg => (frame (toVec (toJson msg)), msg)) ?_ rest
      · simpa [List.map_map, Function.comp_def] using each
      · intro item member rest
        obtain ⟨msg, listed, rfl⟩ := List.mem_map.mp member
        obtain ⟨isGood, fits⟩ := all msg listed
        exact ((written_frame name (exact msg isGood) (plain msg isGood) (normal msg isGood)
          fits).2 rest).1
    · have each := readTimes_frames (readNext fromJson)
        (msgs.map fun msg => (frame (toVec (toJson msg)), some msg)) ?_ rest
      · simpa [List.map_map, Function.comp_def] using each
      · intro item member rest
        obtain ⟨msg, listed, rfl⟩ := List.mem_map.mp member
        obtain ⟨isGood, fits⟩ := all msg listed
        exact ((written_frame name (exact msg isGood) (plain msg isGood)
          (normal msg isGood)
          fits).2 rest).2
  truncated msg bytes part written isPart proper := by
    unfold writeMsg at written
    dsimp only at written
    split at written
    · cases written
    · next small =>
      obtain rfl := Except.ok.inj written
      refine ⟨readMsg_cut name fromJson (Nat.not_lt.mp small) isPart proper, ?_⟩
      obtain ⟨e, failed⟩ := readMsg_cut "Value" asValue (Nat.not_lt.mp small) isPart proper
      unfold readNext
      split
      · exact ⟨_, rfl⟩
      · next read =>
        rw [read] at failed
        cases failed
  resync body value fits parsed rest := readNext_frame fits parsed rest

/-- **The wire format**: messages of a client, and messages of the relay whose attestation holds no
floating-point number, are read back as they were written. -/
theorem wire_format [ExactTexts] :
    WireFormat "ClientMsg" ClientMsg.toJson ClientMsg.fromJson ClientMsg.Typed ∧
      WireFormat "ServerMsg" ServerMsg.toJson ServerMsg.fromJson
        (fun msg => msg.Typed ∧ msg.FloatFree) := by
  refine ⟨wireFormat_of (fun msg typed => ?_) (fun msg => ClientMsg.fromJson_toJson)
    fun msg => ClientMsg.fromJson_normal, wireFormat_of (fun msg good => ?_)
    (fun msg good => ServerMsg.fromJson_toJson good.1) fun msg good =>
      ServerMsg.fromJson_normal good.1 good.2⟩
  · obtain ⟨kind, fields, record⟩ := ClientMsg.isRecord typed
    exact record.exactJson
  · obtain ⟨kind, fields, record⟩ := ServerMsg.isRecord good.1 good.2
    exact record.exactJson

end

namespace Ideal

theorem parseDeep_utf8 {value : Json} (exact : value.Exact) :
    (Utf8.decode (Utf8.encode value.render)).bind parseDeep = some value := by
  rw [Utf8.decode_encode, Option.bind_some, parseDeep_render exact]

/-- The same crates, but for JSON, which is read however deep it is nested. -/
abbrev deepCrates : Crates :=
  { crates with
    fromSlice := fun bytes =>
      orError "invalid JSON" ((Utf8.decode bytes).bind parseDeep)
    fromSlice_toVec := fun _ flat => (orError_eq_ok ..).mpr (parseDeep_utf8 flat.exact) }

theorem deepTexts : @ExactTexts deepCrates :=
  @ExactTexts.mk deepCrates fun _ exact => (orError_eq_ok ..).mpr (parseDeep_utf8 exact)

theorem deep_wire_format :
    @WireFormat deepCrates ClientMsg "ClientMsg" ClientMsg.toJson ClientMsg.fromJson
    ClientMsg.Typed ∧
      @WireFormat deepCrates ServerMsg "ServerMsg" ServerMsg.toJson ServerMsg.fromJson
        (fun msg => msg.Typed ∧ msg.FloatFree) :=
  @wire_format deepCrates deepTexts

end Ideal

end Cherm
