/-
**The terminal beside the plugin manager.**

The manager changes its directory and tells the terminal; what it tells is taken in that order.

* `toMsg`: an event of the manager, as the terminal reads it.
* `Together`: the manager's world and the terminal's state, and a step of either.
-/

import Cherm.Lib.Steps
import Cherm.Plugin.Manager
import Cherm.Tui.Update

namespace ChermTui

open ChermPlugins (Call Disk Event World loadInstalled)

/-! ### What is read of an event -/

/-- A text of an object, or the empty one. -/
def readText (value : Json) (name : String) : String := (value.index name).asStr.getD ""

/-- A flag of an object, or false. -/
def readFlag (value : Json) (name : String) : Bool :=
  (ChermPlugins.asBool (value.index name)).getD false

/-- The permissions of a plugin. -/
def readPerms (value : Json) : List PluginPerm :=
  match value.index "permissions" with
  | .arr perms => perms.map fun perm => ⟨readText perm "id", readText perm "help"⟩
  | _ => []

/-- A plugin of a list the core sends; a field that is absent is empty. -/
def StorePlugin.read (value : Json) : StorePlugin where
  name := readText value "name"
  displayName := readText value "display_name"
  version := readText value "version"
  kind := readText value "kind"
  category := readText value "category"
  description := readText value "description"
  author := readText value "author"
  license := readText value "license"
  sourceURL := readText value "source_url"
  permissions := readPerms value
  installed := readFlag value "installed"
  active := readFlag value "active"

/-- Absent fields of a widget are not sent. -/
def Widget.ofSent (widget : ChermPlugins.Widget) : Widget :=
  ⟨widget.slot, widget.kind, widget.value.getD "", widget.format.getD ""⟩

/-- `parseEvent`, for the events of the plugin manager. -/
def toMsg {Key : Type} : Event → Msg Key
  | .error code message => .error message code
  | .info message => .info message
  | .theme _ => .theme
  | .widgets widgets => .widgets (widgets.map Widget.ofSent)
  | .pluginInstalled name version category => .pluginInstalled name version category
  | .installedPlugins plugins => .installedPlugins (plugins.map StorePlugin.read)
  | .storePlugins plugins => .storePlugins (plugins.map StorePlugin.read)

/-! ### A field that is set hides no other -/

theorem filter_insertNew {name other : String} (apart : name ≠ other) (field : Json)
    (fields : List (String × Json)) :
    (Json.insertNew name field fields).filter (fun f => f.1 = other) =
      fields.filter (fun f => f.1 = other) := by
  induction fields with
  | nil => simp [Json.insertNew, apart]
  | cons first rest ih =>
      rw [Json.insertNew]
      split
      · simp [apart]
      · split
        · rfl
        · rw [List.filter_cons, List.filter_cons, ih]

theorem index_obj (fields : List (String × Json)) (name : String) : (Json.obj fields).index name =
    ((fields.filter fun f => f.1 = name).getLast?.map Prod.snd).getD .null := by
  rw [Json.index, ← List.head?_filter, List.filter_reverse, List.head?_reverse]

theorem index_setField {name other : String} (apart : name ≠ other) (field value : Json) :
    (ChermPlugins.setField name field value).index other = value.index other := by
  cases value with
  | obj fields =>
      have kept : ∀ f : String × Json, decide (f.1 = other) = true → f.1 ≠ name :=
        fun f named same => apart (same.symm.trans (of_decide_eq_true named))
      rw [ChermPlugins.setField, index_obj, index_obj, filter_insertNew apart, List.filter_filter]
      congr 3
      apply List.filter_congr
      intro f _
      by_cases named : f.1 = other
      · simp [named, apart.symm]
      · simp [named]
  | _ => rfl

/-- The name of an installed plugin, as the terminal reads it. -/
theorem read_name (i : ChermPlugins.Installed) (index : ChermPlugins.InstalledIndex) :
    (StorePlugin.read (ChermPlugins.setField "installed" (.bool true)
      (ChermPlugins.setField "active" (.bool i.active)
        (ChermPlugins.manifestToValue i.manifest index)))).name =
      ChermPlugins.cleanDisplay i.manifest.name 64 := by
  have named : (ChermPlugins.manifestToValue i.manifest index).index "name" =
      .str (ChermPlugins.cleanDisplay i.manifest.name 64) := by
    simp [ChermPlugins.manifestToValue, Json.index]
  simp only [StorePlugin.read, readText]
  rw [index_setField (by simp), index_setField (by simp), named]
  rfl

/-! ### Both -/

section

variable [ChermPlugins.Crates] [Terminal] [Layout]

/-- The manager and the terminal. -/
structure Together where
  world : World
  model : Model

/-- A call of the manager, or any message to the terminal. -/
inductive Input (Key : Type) where
  | call (made : Call)
  | message (msg : Msg Key)

/-- What a call tells. -/
def told (call : Call) (world : World) : List Event :=
  (ChermPlugins.step call world).events.drop world.events.length

/-- The messages the terminal takes. -/
def Input.messages {Key : Type} (world : World) : Input Key → List (Msg Key)
  | .call made => (told made world).map toMsg
  | .message msg => [msg]

/-- The manager's world after an input. -/
def Input.worldAfter {Key : Type} (world : World) : Input Key → World
  | .call made => ChermPlugins.step made world
  | .message _ => world

/-- One turn of the update loop. -/
def turn (msg : Msg Terminal.Key) (m : Model) : Model := (m.update msg).1

/-- One input, and what it tells the terminal. -/
def Together.step (input : Input Terminal.Key) (s : Together) : Together :=
  ⟨input.worldAfter s.world, Steps.run turn (input.messages s.world) s.model⟩

end

end ChermTui
