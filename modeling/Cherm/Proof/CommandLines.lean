/-
**Each command reaches the core as it was meant.**

The terminal writes its commands with one JSON library and the core reads them with another, each
with its own names for the commands and their fields.

* `Command.fromJson_normal`: the core takes from a command what was meant, in whatever order the
  fields come.
* `inputLines_ended`: a text of whole lines is read as these lines.
* `commands_meant`: whatever commands the terminal sends, in whatever order they are written, the
  core reads these and no others, in that order.
-/

import Cherm.Lib.Edges
import Cherm.Lib.JsonPretty
import Cherm.Tui.Ideal
import Cherm.Tui.Ipc

namespace ChermTui

open Cherm (Ipc.Command Ipc.accountCommand Ipc.memberCommand Ipc.readCommands IsI64 asI64_num
  asValue exact_i64 exact_texts tagged tagged_normal unitKind)
open Json

/-! ### The fields -/

/-- A map with the command's name in front, each key once, and values that their text stands for. -/
structure IsCommand (value : Json) (kind : String) (fields : Json.Fields) : Prop where
  shape : value = .obj (("cmd", .str kind) :: fields)
  names : ("cmd" :: fields.map Prod.fst).Nodup
  exact : ∀ field ∈ fields, Exact field.2

theorem exact_manifest {manifest : List (String × String)}
    (names : (manifest.map Prod.fst).Nodup) (apart : "permissions" ∉ manifest.map Prod.fst)
    (permissions : List String) : Exact (manifestJson manifest permissions) := by
  refine .obj ?_ (List.forall_mem_append.mpr ⟨fun field member => ?_, ?_⟩)
  · rw [List.map_append, List.map_map]
    refine List.nodup_append.mpr ⟨names, List.nodup_singleton _, ?_⟩
    rintro name member last is rfl
    obtain rfl := List.mem_singleton.mp is
    exact apart member
  · obtain ⟨pair, -, rfl⟩ := List.mem_map.mp member
    exact .str pair.2
  · exact List.forall_mem_singleton.mpr (exact_texts permissions)

theorem ofKind_member : ∀ pair ∈ memberMeanings, ∀ group username : String,
    Ipc.Command.ofKind pair.1 (.obj [("group", .str group), ("username", .str username)]) =
      some (.account (pair.2 group username)) := by
  intro pair member group username
  simp only [memberMeanings, List.mem_cons, List.not_mem_nil, or_false] at member
  rcases member with rfl | rfl | rfl | rfl | rfl | rfl <;>
    simp [Ipc.Command.ofKind, Ipc.accountCommand, Ipc.memberCommand, asFields, Fields.required,
      Fields.named, asStr]

/-- The limit of the core is any integer. -/
theorem ofKind_history (chat : String) {limit : Int} (fits : IsI64 limit) :
    Ipc.Command.ofKind "history" (.obj [("chat", .str chat), ("limit", .num limit)]) =
      some (.account (.history chat (some limit))) := by
  simp [Ipc.Command.ofKind, Ipc.accountCommand, asFields, Fields.required, Fields.orDefault,
    Fields.named, asStr, asOption, asI64_num fits]

/-- Each command is a map of this kind, and its fields say what is meant. -/
theorem Command.isCommand {command : Command} (sound : command.Sound) :
    ∃ kind fields, IsCommand command.toJson kind fields ∧
      Ipc.Command.ofKind kind (.obj fields) = command.meant := by
  cases command with
  | member cmd group username =>
      obtain ⟨meaning, found⟩ := Option.isSome_iff_exists.mp sound
      obtain ⟨before, after, parts, -⟩ := List.lookup_eq_some_iff.mp found
      have listed : (cmd, meaning) ∈ memberMeanings :=
        parts ▸ List.mem_append_right _ List.mem_cons_self
      refine ⟨_, _, ⟨rfl, by simp, by simp [Exact.str]⟩, ?_⟩
      rw [ofKind_member _ listed, meant, found]
      rfl
  | createGroup name members accessMode =>
      cases accessMode <;>
        exact ⟨_, _, ⟨rfl, by simp, by simp [Exact.str, exact_texts]⟩, by
          simp [Ipc.Command.ofKind, Ipc.accountCommand, asFields, Fields.required, Fields.orDefault,
            Fields.named, asStr, asOption, meant]⟩
  | history chat limit =>
      have small : limit < 2 ^ 63 := sound
      have fits : IsI64 limit := ⟨by omega, by omega⟩
      exact ⟨_, _, ⟨rfl, by simp, by simp [Exact.str, exact_i64 fits]⟩, ofKind_history chat fits⟩
  | submitPlugin manifest permissions =>
      have empty : (Json.obj []).normal = .obj [] := by rw [normal, normalFields]
      have package : Exact (.obj []) :=
        .obj List.nodup_nil fun _ member => absurd member List.not_mem_nil
      refine ⟨_, _, ⟨rfl, by simp, List.forall_mem_cons.mpr ⟨exact_manifest sound.1 sound.2
        permissions, List.forall_mem_singleton.mpr package⟩⟩, ?_⟩
      simp [Ipc.Command.ofKind, asFields, Fields.required, Fields.orDefault, Fields.named, asValue,
        empty, meant, manifestJson]
  | _ =>
      exact ⟨_, _, ⟨rfl, by simp, by simp [Exact.str]⟩, by
        simp [Ipc.Command.ofKind, Ipc.accountCommand, asFields, Fields.required, Fields.orDefault,
          Fields.named, asStr, asOption, unitKind, meant]⟩

theorem Command.exact {command : Command} (sound : command.Sound) : Exact command.toJson := by
  obtain ⟨kind, fields, record, -⟩ := command.isCommand sound
  rw [record.shape]
  exact .obj record.names (List.forall_mem_cons.mpr ⟨.str kind, record.exact⟩)

theorem Command.toJson_within (command : Command) (depth : Nat) :
    command.toJson.Within (depth + 4) := by
  cases command with
  | createGroup name members accessMode => cases accessMode <;> simp [toJson, Within]
  | submitPlugin manifest permissions =>
      simp [toJson, manifestJson, Within, List.forall_mem_append, List.forall_mem_map,
        -List.mem_append, -List.mem_map]
  | _ => simp [toJson, Within]

/-! ### What the core takes from them -/

theorem stable_asValue : Stable asValue := fun value => congrArg some (normal_normal value)

/-- The core's reader does not depend on the order of the fields. -/
theorem accountCommand_alike {fields fields' : Json.Fields} (alike : Alike fields fields')
    (kind : String) :
    Ipc.accountCommand kind (.obj fields') = Ipc.accountCommand kind (.obj fields) := by
  unfold Ipc.accountCommand
  split
  all_goals simp only [Ipc.memberCommand, asFields, alike.required stable_asStr,
    alike.required stable_asStrs, alike.orDefault stable_asStr.asOption,
    alike.orDefault stable_asI64.asOption, unitKind, Option.bind_eq_bind, Option.bind_some,
    Option.map_some]

theorem ofKind_alike {fields fields' : Json.Fields} (alike : Alike fields fields')
    (kind : String) :
    Ipc.Command.ofKind kind (.obj fields') = Ipc.Command.ofKind kind (.obj fields) := by
  unfold Ipc.Command.ofKind
  split
  all_goals simp only [accountCommand_alike alike, asFields, alike.required stable_asStr,
    alike.required stable_asValue, alike.orDefault stable_asStr.asOption,
    alike.orDefault stable_asValue, unitKind, Option.bind_eq_bind, Option.bind_some,
    Option.map_some]

/-- Read as any JSON first, a command is what was meant. -/
theorem Command.fromJson_normal {command : Command} (sound : command.Sound) :
    Ipc.Command.fromJson command.toJson.normal = command.meant := by
  obtain ⟨kind, fields, record, means⟩ := command.isCommand sound
  obtain ⟨fields', found, alike⟩ := tagged_normal kind record.names
  rw [record.shape, Ipc.Command.fromJson, found]
  show Ipc.Command.ofKind kind (.obj fields') = _
  rw [ofKind_alike alike, means]

/-! ### The lines -/

/-- A line of its own: it has no end in it and no blanks around it. -/
structure IsLine (line : List Char) : Prop where
  whole : '\n' ∉ line
  noReturn : line.getLast? ≠ some '\r'
  trimmed : Cherm.trim line = line
  nonempty : line ≠ []

theorem splitOnP_ended {lines : List (List Char)} (whole : ∀ line ∈ lines, '\n' ∉ line) :
    (lines.flatMap fun line => line ++ ['\n']).splitOnP (· = '\n') = lines ++ [[]] := by
  induction lines with
  | nil => rfl
  | cons line rest ih =>
      obtain ⟨here, later⟩ := List.forall_mem_cons.mp whole
      have inside : ∀ c ∈ line, decide (c = '\n') = false := fun c member =>
        decide_eq_false fun same => here (same ▸ member)
      rw [List.flatMap_cons, List.append_assoc, List.singleton_append,
        List.splitOnP_append_cons_of_forall_mem inside '\n' rfl, ih later]
      rfl

/-- **A text of whole lines is read as these lines.** -/
theorem inputLines_ended {lines : List (List Char)} (each : ∀ line ∈ lines, IsLine line) :
    Cherm.inputLines (lines.flatMap fun line => line ++ ['\n']) = lines := by
  have split := splitOnP_ended fun line member => (each line member).whole
  simp only [Cherm.inputLines, split, List.getLast?_concat, if_true, List.dropLast_concat]
  refine (List.map_congr_left fun line member => ?_).trans (List.map_id lines)
  exact if_neg (each line member).noReturn

/-- Between its braces, a command has no end of a line. -/
theorem Command.isLine {command : Command} (sound : command.Sound) :
    IsLine (GoJson.marshal command.toJson) := by
  obtain ⟨kind, fields, record, -⟩ := command.isCommand sound
  have visible := GoJson.marshal_visible (command.exact sound)
  obtain ⟨inner, shape⟩ := GoJson.marshal_obj (("cmd", .str kind) :: fields)
  rw [← record.shape] at shape
  have last : (GoJson.marshal command.toJson).getLast? = some '}' := by
    rw [shape, ← List.cons_append, List.getLast?_concat]
  refine ⟨fun member => ?_, ?_, ?_, ?_⟩
  · exact absurd (visible '\n' member) (by decide)
  · rw [last]
    decide
  · refine Edges.trim_of_bare ⟨fun c first => ?_, fun c end_ => ?_⟩
    · rw [shape] at first
      obtain rfl := Option.some.inj first
      decide
    · rw [last] at end_
      obtain rfl := Option.some.inj end_
      decide
  · rw [shape]
    exact List.cons_ne_nil _ _

/-! ### The conversation -/

theorem lines_meant {fromStr : List Char → Option Json}
    (reads : ∀ value : Json, value.Exact → value.Within 100 →
      fromStr (GoJson.marshal value) = some value.normal)
    {commands : List Command} (sound : ∀ command ∈ commands, command.Sound) :
    Ipc.readCommands fromStr (commands.flatMap Command.line) = commands.map Command.meant := by
  let lines := commands.map fun command => GoJson.marshal command.toJson
  have each : ∀ line ∈ lines, IsLine line := by
    intro line member
    obtain ⟨command, written, rfl⟩ := List.mem_map.mp member
    exact command.isLine (sound command written)
  have text : commands.flatMap Command.line = lines.flatMap fun line => line ++ ['\n'] := by
    rw [List.flatMap_map]
    rfl
  have trimmed : lines.map Cherm.trim = lines :=
    (List.map_congr_left fun line member => (each line member).trimmed).trans (List.map_id lines)
  have kept : lines.filter (· ≠ []) = lines :=
    List.filter_eq_self.mpr fun line member => decide_eq_true (each line member).nonempty
  rw [Ipc.readCommands, text, inputLines_ended each, trimmed, kept, List.map_map]
  refine List.map_congr_left fun command member => ?_
  show (fromStr (GoJson.marshal command.toJson)).bind Ipc.Command.fromJson = command.meant
  rw [reads _ (command.exact (sound command member)) (command.toJson_within 96)]
  exact command.fromJson_normal (sound command member)

theorem Command.meant_isSome {command : Command} (sound : command.Sound) :
    command.meant.isSome = true := by
  cases command with
  | member cmd group username => exact Option.isSome_map.trans sound
  | _ => rfl

/-- **Whatever commands the terminal sends,** in whatever order they are written: the core reads
these commands as they were meant, each of them, no others, and in that order. The core's reader is
any that reads what Go writes of a value that is not nested too deep. -/
theorem commands_meant [Terminal] [Layout] {fromStr : List Char → Option Json}
    (reads : ∀ value : Json, value.Exact → value.Within 100 →
      fromStr (GoJson.marshal value) = some value.normal)
    {commands : List Command} (sent : ∀ command ∈ commands, Sent command) :
    Ipc.readCommands fromStr (commands.flatMap Command.line) = commands.map Command.meant ∧
      ∀ command ∈ commands, command.meant.isSome = true :=
  ⟨lines_meant reads fun command member => (sent command member).sound,
    fun command member => Command.meant_isSome (sent command member).sound⟩

namespace Ideal

attribute [local instance] terminal layout

def inMenu : Model := { newModel with screen := .menu }

/-- A text for Bob is in the input, with characters that Go escapes. -/
def writing : Model :=
  { newModel with screen := .chat, current := "bob", input := "a <b> & c" }

theorem greeting_meant :
    Ipc.readCommands parseDeep ([Command.ping, .send "bob" "a <b> & c"].flatMap Command.line) =
      [some (.account .ping), some (.account (.send "bob" "a <b> & c"))] := by
  have ping : Sent .ping := ⟨inMenu, .key "r", by decide +kernel⟩
  have text : Sent (.send "bob" "a <b> & c") := ⟨writing, .key "enter", by decide +kernel⟩
  have sent : ∀ command ∈ [Command.ping, .send "bob" "a <b> & c"], Sent command :=
    List.forall_mem_cons.mpr ⟨ping, List.forall_mem_singleton.mpr text⟩
  exact (commands_meant (fun _ exact _ => GoJson.parseDeep_marshal exact) sent).1

end Ideal

end ChermTui
