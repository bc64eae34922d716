/-
**The lines the terminal writes to the core, and what is meant by them.**

A command is a map, which `json.Marshal` writes with its keys in ascending order.

* `Command.toJson`, `Command.line`: the map and the line of a command.
* `Command.meant`: the core's command for each of the terminal's.
* `Command.Sound`: what the line of a command needs to be read as it was meant.
* `update_sound`: whatever the terminal sends is sound, in any state and on any message.
-/

import Cherm.Client.Ipc
import Cherm.Lib.GoJson
import Cherm.Tui.Update

namespace ChermTui

open Cherm (Ipc.Command)

/-! ### The lines -/

/-- The manifest of a submission as JSON. -/
def manifestJson (manifest : List (String × String)) (permissions : List String) : Json :=
  .obj (manifest.map (fun field => (field.1, Json.str field.2)) ++
    [("permissions", .arr (permissions.map .str))])

/-- The map of a command. -/
def Command.toJson : Command → Json
  | .checkClientUpdate => .obj [("cmd", .str "check_client_update")]
  | .checkServer server name =>
      .obj [("cmd", .str "check_server"), ("server", .str server), ("name", .str name)]
  | .connect server => .obj [("cmd", .str "connect"), ("server", .str server)]
  | .register server username =>
      .obj [("cmd", .str "register"), ("server", .str server), ("username", .str username)]
  | .listServers => .obj [("cmd", .str "list_servers")]
  | .removeServer server => .obj [("cmd", .str "remove_server"), ("server", .str server)]
  | .listChats => .obj [("cmd", .str "list_chats")]
  | .history chat limit =>
      .obj [("cmd", .str "history"), ("chat", .str chat), ("limit", .num limit)]
  | .send chat text => .obj [("cmd", .str "send"), ("chat", .str chat), ("text", .str text)]
  | .startDm username => .obj [("cmd", .str "start_dm"), ("username", .str username)]
  | .createGroup name members accessMode =>
      .obj ([("cmd", .str "create_group"), ("name", .str name),
        ("members", .arr (members.map .str))] ++
        (accessMode.map fun mode => ("access_mode", Json.str mode)).toList)
  | .joinGroup group key owner =>
      .obj [("cmd", .str "join_group"), ("group", .str group), ("key", .str key),
        ("owner", .str owner)]
  | .setAccess group mode =>
      .obj [("cmd", .str "set_access"), ("group", .str group), ("mode", .str mode)]
  | .groupInfo group => .obj [("cmd", .str "group_info"), ("group", .str group)]
  | .member cmd group username =>
      .obj [("cmd", .str cmd), ("group", .str group), ("username", .str username)]
  | .suspendMember group username duration =>
      .obj [("cmd", .str "suspend_member"), ("group", .str group), ("username", .str username),
        ("duration", .str duration)]
  | .leaveChat chat => .obj [("cmd", .str "leave_chat"), ("chat", .str chat)]
  | .ping => .obj [("cmd", .str "ping")]
  | .exportIdentity => .obj [("cmd", .str "export_identity")]
  | .importIdentity path => .obj [("cmd", .str "import_identity"), ("path", .str path)]
  | .listStore => .obj [("cmd", .str "list_store")]
  | .listInstalled => .obj [("cmd", .str "list_installed")]
  | .checkPluginUpdates => .obj [("cmd", .str "check_plugin_updates")]
  | .installPlugin name => .obj [("cmd", .str "install_plugin"), ("name", .str name)]
  | .removePlugin name => .obj [("cmd", .str "remove_plugin"), ("name", .str name)]
  | .submitPlugin manifest permissions =>
      .obj [("cmd", .str "submit_plugin"),
        ("manifest", manifestJson manifest permissions),
        ("package", .obj [])]

/-- `sendCmd`: what is written to the core. -/
def Command.line (command : Command) : List Char := GoJson.marshal command.toJson ++ ['\n']

/-! ### What is meant -/

/-- The core's commands about one member, by their names. -/
def memberMeanings : List (String × (String → String → Cherm.Command)) := [
  ("invite_member", .inviteMember), ("accept_member", .acceptMember),
  ("remove_member", .removeMember), ("ban_member", .banMember), ("unban_member", .unbanMember),
  ("unsuspend_member", .unsuspendMember)]

/-- What the core is meant to do. -/
def Command.meant : Command → Option Ipc.Command
  | .checkClientUpdate => some .checkClientUpdate
  | .checkServer server name => some (.checkServer server (some name))
  | .connect server => some (.account (.connect server))
  | .register server username => some (.account (.register server username))
  | .listServers => some .listServers
  | .removeServer server => some (.removeServer server)
  | .listChats => some (.account .listChats)
  | .history chat limit => some (.account (.history chat (some limit)))
  | .send chat text => some (.account (.send chat text))
  | .startDm username => some (.account (.startDm username))
  | .createGroup name members accessMode =>
      some (.account (.createGroup name members accessMode))
  | .joinGroup group key owner => some (.account (.joinGroup group key owner))
  | .setAccess group mode => some (.account (.setAccess group mode))
  | .groupInfo group => some (.account (.groupInfo group))
  | .member cmd group username =>
      (memberMeanings.lookup cmd).map fun command => .account (command group username)
  | .suspendMember group username duration =>
      some (.account (.suspendMember group username duration))
  | .leaveChat chat => some (.account (.leaveChat chat))
  | .ping => some (.account .ping)
  | .exportIdentity => some (.account .exportIdentity)
  | .importIdentity path => some (.account (.importIdentity path))
  | .listStore => some .listStore
  | .listInstalled => some .listInstalled
  | .checkPluginUpdates => some .checkPluginUpdates
  | .installPlugin name => some (.installPlugin name)
  | .removePlugin name => some (.removePlugin name)
  | .submitPlugin manifest permissions =>
      some (.submitPlugin (manifestJson manifest permissions).normal (.obj []))

/-- A member command has one of the six names, a limit fits into 64 bits, and no field of a manifest
is given twice. -/
def Command.Sound : Command → Prop
  | .member cmd _ _ => (memberMeanings.lookup cmd).isSome
  | .history _ limit => limit < 2 ^ 63
  | .submitPlugin manifest _ =>
      (manifest.map Prod.fst).Nodup ∧ "permissions" ∉ manifest.map Prod.fst
  | _ => True

/-- The terminal's own names are among them. -/
theorem memberCommands_sound : ∀ pair ∈ memberCommands,
    (memberMeanings.lookup pair.2).isSome = true := by decide

/-! ### What the terminal sends -/

section

variable [Terminal]

/-- All that is sent is sound. -/
def AllSound (u : Updated) : Prop := ∀ command, Cmd.send command ∈ u.2 → command.Sound

@[simp] theorem allSound_nil (m : Model) : AllSound (m, []) :=
  fun _ member => absurd member List.not_mem_nil

@[simp] theorem allSound_cons (m : Model) (cmd : Cmd) (rest : List Cmd) :
    AllSound (m, cmd :: rest) ↔
      (∀ command, cmd = .send command → command.Sound) ∧ AllSound (m, rest) := by
  simp only [AllSound, List.mem_cons, or_imp, forall_and, eq_comm]

variable (m : Model)

theorem openChat_sound (id : String) : AllSound (m.openChat id) := by
  simp [Model.openChat, Command.Sound]

theorem openRow_sound (sel : Int) : AllSound (m.openRow sel) := by
  unfold Model.openRow
  split
  · exact allSound_nil m
  · next state _ => exact openChat_sound m state.info.id

theorem openMenu_sound : AllSound m.openMenu := by
  simp [Model.openMenu, Command.Sound]

theorem openStore_sound : AllSound m.openStore := by
  simp [Model.openStore, Command.Sound]

theorem openServersScreen_sound : AllSound m.openServersScreen := by
  simp [Model.openServersScreen, Command.Sound]

theorem openSubmit_sound : AllSound m.openSubmit := by
  simp [Model.openSubmit]

theorem backToChat_sound : AllSound m.backToChat := by
  simp [Model.backToChat]

theorem openAddServer_sound : AllSound m.openAddServer := by
  simp [Model.openAddServer]

theorem connectSelected_sound : AllSound m.connectSelected := by
  unfold Model.connectSelected
  split
  · exact allSound_nil m
  · dsimp only
    split <;> simp [Command.Sound]

theorem openRemoveServerConfirm_sound : AllSound m.openRemoveServerConfirm := by
  unfold Model.openRemoveServerConfirm
  split <;> simp

theorem updateServers_sound (key : String) : AllSound (m.updateServers key) := by
  unfold Model.updateServers
  split_ifs <;>
    simp [openAddServer_sound, openRemoveServerConfirm_sound, connectSelected_sound]

theorem submitAddServer_sound : AllSound m.submitAddServer := by
  unfold Model.submitAddServer
  dsimp only
  split <;> simp [Command.Sound]

theorem updateAddServer_sound (key : Terminal.Key) : AllSound (m.updateAddServer key) := by
  unfold Model.updateAddServer
  dsimp only
  split_ifs <;> simp [submitAddServer_sound]

theorem updateRemoveServerConfirm_sound (key : String) :
    AllSound (m.updateRemoveServerConfirm key) := by
  unfold Model.updateRemoveServerConfirm
  dsimp only
  split_ifs <;> simp [Command.Sound]

theorem updateVerdict_sound (key : String) : AllSound (m.updateVerdict key) := by
  unfold Model.updateVerdict Model.activateVerdict
  split_ifs <;> simp [Command.Sound]

theorem updateUsername_sound (key : Terminal.Key) : AllSound (m.updateUsername key) := by
  unfold Model.updateUsername
  dsimp only
  split_ifs <;> simp [Command.Sound]

theorem openLeaveConfirm_sound : AllSound m.openLeaveConfirm := by
  unfold Model.openLeaveConfirm
  split <;> simp

theorem inGroup_sound {command : String → Command} (sound : ∀ id, (command id).Sound) :
    AllSound (m.inGroup command) := by
  unfold Model.inGroup
  split <;> simp [sound]

theorem runGroup_sound (args : List String) : AllSound (m.runGroup args) := by
  unfold Model.runGroup
  split <;> simp [Command.Sound]

theorem runClientCommand_sound (cmd : String) (args : List String) :
    AllSound (m.runClientCommand cmd args) := by
  unfold Model.runClientCommand
  split
  · simp [Command.Sound]
  split
  · split <;> simp
  split
  · split
    · simp
    · split <;> simp
  split
  · simp
  split
  · simp [Command.Sound]
  split
  · split <;> simp [Command.Sound]
  split
  · exact openMenu_sound m
  · split <;> simp

theorem runCommand_sound (cmd : String) (args : List String) :
    AllSound (m.runCommand cmd args) := by
  unfold Model.runCommand
  split
  · simp
  split
  · split
    · split <;> simp [Command.Sound]
    · simp
  split
  · exact runGroup_sound m args
  split
  · split <;> simp [Command.Sound]
  split
  · split
    · exact inGroup_sound m fun id => trivial
    · simp
  split
  · exact inGroup_sound m fun id => trivial
  split
  · next ipc found =>
    obtain ⟨before, after, parts, -⟩ := List.lookup_eq_some_iff.mp found
    have listed : (cmd, ipc) ∈ memberCommands :=
      parts ▸ List.mem_append_right _ List.mem_cons_self
    split
    · exact inGroup_sound m fun id => memberCommands_sound _ listed
    · simp
  split
  · split
    · exact inGroup_sound m fun id => trivial
    · simp
  split
  · exact openServersScreen_sound m
  split
  · exact openStore_sound m
  split
  · exact openSubmit_sound m
  · exact runClientCommand_sound m cmd args

theorem submitInput_sound : AllSound m.submitInput := by
  unfold Model.submitInput
  dsimp only
  split_ifs
  · simp
  · split
    · simp
    · exact runCommand_sound _ _ _
  · simp
  · simp [Command.Sound]

theorem updateSidebar_sound (key : String) : AllSound (m.updateSidebar key) := by
  unfold Model.updateSidebar
  split_ifs <;>
    simp [Model.openSelectedChat, openRow_sound, openLeaveConfirm_sound, openMenu_sound]

theorem updateChat_sound (key : Terminal.Key) : AllSound (m.updateChat key) := by
  unfold Model.updateChat
  dsimp only
  split_ifs <;> simp [updateSidebar_sound, openMenu_sound, submitInput_sound]

theorem updateLeaveConfirm_sound (key : String) : AllSound (m.updateLeaveConfirm key) := by
  unfold Model.updateLeaveConfirm
  dsimp only
  split_ifs <;> simp [Command.Sound]

theorem updateMenu_sound (key : String) : AllSound (m.updateMenu key) := by
  unfold Model.updateMenu Model.activateMenu
  split_ifs <;> simp [Command.Sound, openServersScreen_sound, backToChat_sound]

theorem updateHelp_sound (key : String) : AllSound (m.updateHelp key) := by
  unfold Model.updateHelp
  split_ifs <;> simp [backToChat_sound]

theorem installSelectedPlugin_sound : AllSound m.installSelectedPlugin := by
  unfold Model.installSelectedPlugin
  split
  · simp
  · dsimp only
    split <;> simp [Command.Sound]

theorem removeSelectedPlugin_sound : AllSound m.removeSelectedPlugin := by
  unfold Model.removeSelectedPlugin
  split
  · simp
  · split <;> simp [Command.Sound]

theorem updateStore_sound (key : String) : AllSound (m.updateStore key) := by
  unfold Model.updateStore
  split_ifs <;>
    simp [Command.Sound, backToChat_sound, openStore_sound, openSubmit_sound,
      installSelectedPlugin_sound, removeSelectedPlugin_sound]

/-- The form names each field of the manifest once. -/
theorem doSubmit_sound : AllSound m.doSubmit := by
  unfold Model.doSubmit
  dsimp only
  split <;> simp [Command.Sound]

theorem updateSubmit_sound (key : Terminal.Key) : AllSound (m.updateSubmit key) := by
  unfold Model.updateSubmit
  dsimp only
  split_ifs <;> simp [openStore_sound, doSubmit_sound]

theorem onKey_sound (key : Terminal.Key) : AllSound (m.onKey key) := by
  unfold Model.onKey
  dsimp only
  split
  · simp
  · split
    · exact updateServers_sound m _
    · exact updateAddServer_sound m key
    · exact updateVerdict_sound m _
    · exact updateUsername_sound m key
    · exact updateMenu_sound m _
    · exact updateHelp_sound m _
    · exact updateLeaveConfirm_sound m _
    · exact updateStore_sound m _
    · exact updateSubmit_sound m key
    · exact updateRemoveServerConfirm_sound m _
    · exact updateChat_sound m key

variable [Layout]

theorem handleMouse_sound (mouse : Mouse) : AllSound (m.handleMouse mouse) := by
  unfold Model.handleMouse
  dsimp only
  split_ifs <;> simp [openRow_sound]

/-- **Whatever the terminal sends is sound.** -/
theorem update_sound (msg : Msg Terminal.Key) : AllSound (m.update msg) := by
  cases msg with
  | mouse mouse => exact handleMouse_sound m mouse
  | key key => exact onKey_sound m key
  | ready servers hasMaster clientVersion =>
      unfold Model.update Model.onReady
      dsimp only
      split <;> split_ifs <;> simp [Command.Sound, Model.openAddServer]
  | attest attest =>
      unfold Model.update Model.onAttest
      dsimp only
      split_ifs <;> simp
  | verdictTick =>
      unfold Model.update Model.onVerdictTick
      dsimp only
      split_ifs <;> simp
  | registered server username uuid =>
      simp [Model.update, Model.onRegistered, afterEnterCmd, Command.Sound]
  | connected server username =>
      simp [Model.update, Model.onConnected, afterEnterCmd, Command.Sound]
  | disconnected server reason =>
      unfold Model.update Model.onDisconnected
      dsimp only
      split_ifs <;> simp
  | openChat chat => exact openChat_sound _ chat
  | clientUpdate update =>
      unfold Model.update Model.onClientUpdate
      dsimp only
      split_ifs <;> simp
  | clockTick now =>
      unfold Model.update Model.onClockTick
      dsimp only
      split
      · split_ifs <;> simp
      · simp
  | reconnectTick =>
      unfold Model.update Model.onReconnectTick
      dsimp only
      split_ifs <;> simp [Command.Sound]
  | _ => simp [Model.update, Model.onNeedUsername]

/-- A command that is sent: in some state, on some message. -/
def Sent (command : Command) : Prop :=
  ∃ m : Model, ∃ msg, Cmd.send command ∈ (m.update msg).2

theorem Sent.sound {command : Command} (sent : Sent command) : command.Sound := by
  obtain ⟨m, msg, member⟩ := sent
  exact update_sound m msg command member

end

end ChermTui
