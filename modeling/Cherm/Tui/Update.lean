/-
**Keys, clicks and the update loop.**

* one function for each screen's keys, under the screen's name;
* `runCommand`: the slash commands of the input box;
* `update`: a message to the state and what is handed to the runtime.
-/

import Cherm.Tui.Model

namespace ChermTui

open GoText (fields trimSpace)

/-- The rows above the chats, as the screen is laid out. -/
class Layout [Terminal] where
  chatTop : Model → Int

/-- `strings.TrimSpace`. -/
def trimmed (text : String) : String := String.ofList (trimSpace text.toList)

section

variable [Terminal]

/-- The value of an input. -/
def textOf (input : Terminal.TextInput) : String := trimmed (Terminal.value input)

/-! ### Going from screen to screen -/

/-- The list of servers, at the active one. -/
def Model.openServersScreen (m : Model) : Updated :=
  let row := ((List.range m.servers.length).filter fun i =>
    (m.servers[i]?).any fun s => s.addr = m.serverAddr).getLast?
  ({ m with screen := .servers, input := Terminal.blur m.input,
            serverSel := (row.map Int.ofNat).getD 0 }, [.send .listServers])

/-- The menu; the relay is asked for its numbers. -/
def Model.openMenu (m : Model) : Updated :=
  ({ m with screen := .menu, menuSel := 0, input := Terminal.blur m.input,
            addForm := m.addForm.blurAll }, [.send .ping])

/-- The chat screen, with the keys at its input. -/
def Model.backToChat (m : Model) : Updated :=
  ({ m with screen := .chat, focus := .input, addForm := m.addForm.blurAll,
            input := Terminal.focus m.input }, [.blink])

/-- The store; its list, what is installed and what is newer are asked for. -/
def Model.openStore (m : Model) : Updated :=
  ({ m with screen := .store, input := Terminal.blur m.input, storeChecking := true }.flash
    "loading plugin store…" false,
    [.send .listStore, .send .listInstalled, .send .checkPluginUpdates])

/-- The form of a submission. -/
def Model.openSubmit (m : Model) : Updated :=
  ({ m with screen := .submit, input := Terminal.blur m.input,
            submit := newSubmitForm.onInput 0 Terminal.focus }.flash
    "submit a plugin — it will be listed as Community unaudited pending review" false, [.blink])

/-- Open a page, or say why not. -/
def Model.browse (m : Model) (url opened : String) : Model :=
  match Terminal.openBrowser url with
  | some e => m.flash ("could not open browser: " ++ e) true
  | none => m.flash opened false

/-! ### The servers, and adding one -/

/-- The row of a selection. -/
def selected {α : Type} (list : List α) (sel : Int) : Option α :=
  if sel < 0 then none else list[sel.toNat]?

/-- Connect to the selected server, or show its chats if it is active and connected. -/
def Model.connectSelected (m : Model) : Updated :=
  match selected m.servers m.serverSel with
  | none => (m, [])
  | some s =>
      let m := { m with serverName := s.name }
      if s.active && m.connected then ({ m with serverAddr := s.addr }.enterChat, [.blink])
      else
        let label := if s.name = "" then s.addr else s.name
        (m.flash ("connecting to " ++ label ++ "...") false, [.send (.connect s.addr)])

/-- Ask before the selected server is removed. -/
def Model.openRemoveServerConfirm (m : Model) : Updated :=
  match selected m.servers m.serverSel with
  | none => (m, [])
  | some s => ({ m with removeServerAddr := s.addr, removeSel := 1,
                        screen := .removeServerConfirm }, [])

/-- A key on the list of servers; Enter connects, whatever the verdict. -/
def Model.updateServers (m : Model) (key : String) : Updated :=
  if key = "up" ∨ key = "k" then
    (if m.serverSel > 0 then { m with serverSel := m.serverSel - 1 } else m, [])
  else if key = "down" ∨ key = "j" then
    (if m.serverSel < m.servers.length - 1 then { m with serverSel := m.serverSel + 1 } else m, [])
  else if key = "a" then m.openAddServer
  else if key = "x" then m.openRemoveServerConfirm
  else if key = "enter" then m.connectSelected
  else if key = "esc" then if m.connected then (m.enterChat, [.blink]) else (m, [])
  else if key = "q" then (m, [.quit])
  else (m, [])

/-- `host:port` from the two fields, without a scheme and a path. -/
def combineHostPort (address port : String) : String :=
  let a := trimSpace address.toList
  let a := match (List.range a.length).find? fun i => "://".toList.isPrefixOf (a.drop i) with
    | some i => a.drop (i + 3)
    | none => a
  let a := trimSpace (a.takeWhile fun c => c ≠ '/' && c ≠ '?' && c ≠ '#')
  if a = [] then ""
  else if ':' ∈ a then String.ofList a
  else
    let p := trimmed port
    String.ofList a ++ ":" ++ (if p = "" then "9000" else p)

/-- Enter in the form of a new server: it is checked first. -/
def Model.submitAddServer (m : Model) : Updated :=
  let addr := combineHostPort (Terminal.value m.addForm.address) (Terminal.value m.addForm.port)
  if addr = "" then (m.flash "server address cannot be empty" true, [])
  else
    let name := textOf m.addForm.name
    let label := if name = "" then addr else name
    ({ m with checking := true }.flash ("checking " ++ label ++ "...") false,
      [.send (.checkServer addr name)])

/-- A key in the form of a new server. -/
def Model.updateAddServer (m : Model) (key : Terminal.Key) : Updated :=
  let text := Terminal.keyText key
  if text = "esc" then ({ m with addForm := m.addForm.blurAll, screen := .servers }, [])
  else if text = "tab" ∨ text = "down" then
    ({ m with addForm := m.addForm.focus (m.addForm.sel + 1) }, [])
  else if text = "shift+tab" ∨ text = "up" then
    ({ m with addForm := m.addForm.focus (m.addForm.sel - 1) }, [])
  else if text = "enter" then
    if m.addForm.sel < 2 then ({ m with addForm := m.addForm.focus (m.addForm.sel + 1) }, [])
    else m.submitAddServer
  else if text = "ctrl+s" then m.submitAddServer
  else ({ m with addForm := m.addForm.edit key }, [.blink])

/-- A key while the removal of a server is asked about. -/
def Model.updateRemoveServerConfirm (m : Model) (key : String) : Updated :=
  if key ∈ ["left", "h", "right", "l", "tab", "shift+tab"] then
    ({ m with removeSel := 1 - m.removeSel }, [])
  else if key = "esc" then ({ m with screen := .servers }, [])
  else if key = "enter" then
    let m := { m with screen := .servers }
    if m.removeSel = 0 then (m.flash ("removing " ++ m.removeServerAddr ++ "...") false,
      [.send (.removeServer m.removeServerAddr)])
    else (m, [])
  else (m, [])

/-! ### The verdict -/

/-- Enter on a verdict: back, or on to the server, after the wait if it is red. -/
def Model.activateVerdict (m : Model) : Updated :=
  if m.verdictSel = 0 then ({ m with screen := .servers }, [])
  else if m.verdict.verdict = "red" ∧ m.verdictCountdown > 0 then
    (m.flash ("wait " ++ toString m.verdictCountdown ++ "s before connecting anyway") true, [])
  else (m.flash ("connecting to " ++ m.verdict.server ++ "...") false,
    [.send (.connect m.verdict.server)])

/-- Show the source of a red server, the signatures of another. -/
def Model.openVerdictLink (m : Model) : Model :=
  let url := if m.verdict.verdict = "red" then m.verdict.publicCodebaseURL
    else m.verdict.signaturesURL
  if url = "" then m.flash "no link available" true else m.browse url ("opened " ++ url)

/-- A key on a verdict. -/
def Model.updateVerdict (m : Model) (key : String) : Updated :=
  if key = "left" ∨ key = "h" ∨ key = "shift+tab" then ({ m with verdictSel := 0 }, [])
  else if key = "right" ∨ key = "l" ∨ key = "tab" then ({ m with verdictSel := 1 }, [])
  else if key = "o" then (m.openVerdictLink, [])
  else if key = "esc" then ({ m with screen := .servers }, [])
  else if key = "enter" then m.activateVerdict
  else (m, [])

/-! ### The username -/

/-- ASCII letters and digits, at most sixteen. -/
def validUsername (name : String) : Bool :=
  name ≠ "" && name.utf8ByteSize ≤ 16 && name.toList.all fun c => c.isAlphanum

/-- Names that would stand for the relay or the client. -/
def isReservedUsername (name : String) : Bool :=
  name.toLower = "system" || name.toLower = "server"

/-- A key in the field of a name. -/
def Model.updateUsername (m : Model) (key : Terminal.Key) : Updated :=
  let text := Terminal.keyText key
  if text = "esc" then ({ m with nameInput := Terminal.blur m.nameInput, screen := .servers }, [])
  else if text = "enter" then
    let u := textOf m.nameInput
    if !validUsername u then
      ({ m with onboardErr := "username must be 1-16 chars, letters and digits only" }, [])
    else if isReservedUsername u then
      ({ m with onboardErr := "that username is reserved for system use" }, [])
    else ({ m with onboardErr := "" }.flash ("registering " ++ u ++ "...") false,
      [.send (.register m.pendingServer u)])
  else ({ m with nameInput := Terminal.edit key m.nameInput }, [.blink])

/-! ### The chat -/

/-- The keys go to the sidebar, or back to the input. -/
def Model.toggleFocus (m : Model) : Model :=
  match m.focus with
  | .input => { m with focus := .sidebar, input := Terminal.blur m.input }
  | .sidebar => { m with focus := .input, input := Terminal.focus m.input }

/-- Open a chat of the sidebar and focus the input. -/
def Model.openRow (m : Model) (sel : Int) : Updated :=
  match (selected m.chats sel).bind fun place => m.chatStates[place]? with
  | none => (m, [])
  | some state =>
      let (m, cmds) := m.openChat state.info.id
      ({ m with focus := .input, input := Terminal.focus m.input }, cmds)

/-- Open the selected chat. -/
def Model.openSelectedChat (m : Model) : Updated := m.openRow m.sidebarSel

/-- Ask before the selected chat is left. -/
def Model.openLeaveConfirm (m : Model) : Updated :=
  match (selected m.chats m.sidebarSel).bind fun place => m.chatStates[place]? with
  | none => (m, [])
  | some state =>
      ({ m with leaveChatID := state.info.id,
                leaveChatTitle := if state.info.title = "" then state.info.id
                  else state.info.title,
                leaveSel := 1, screen := .leaveConfirm }, [])

/-- The open chat as a group, or why it is none. -/
def Model.groupTarget (m : Model) : Except String String :=
  if m.current = "" then .error "open a group first (Tab to pick one)"
  else match m.chat m.current with
    | some state =>
        if state.info.kind = "group" then .ok m.current
        else .error "this command only works inside a group"
    | none => .error "this command only works inside a group"

/-- A command about the open group. -/
def Model.inGroup (m : Model) (command : String → Command) : Updated :=
  match m.groupTarget with
  | .error e => (m.flash e true, [])
  | .ok id => (m, [.send (command id)])

/-- The commands about one member, and the core's names for them. -/
def memberCommands : List (String × String) := [
  ("/invite", "invite_member"), ("/accept", "accept_member"), ("/remove", "remove_member"),
  ("/ban", "ban_member"), ("/unban", "unban_member"), ("/unsuspend", "unsuspend_member")]

/-- The members and the last mode among the arguments of `/group`. -/
def groupArgs : List String → List String × String → List String × String
  | [], parsed => parsed
  | a :: rest, (members, mode) =>
      if "mode=".toList.isPrefixOf a.toList then
        groupArgs rest (members, String.ofList (a.toList.drop 5))
      else groupArgs rest (members ++ [a], mode)

/-- `/group`. -/
def Model.runGroup (m : Model) : List String → Updated
  | [] => (m.flash "usage: /group <name> [mode=open|approval|invite_only] [members...]" true, [])
  | name :: rest =>
      let (members, mode) := groupArgs rest ([], "")
      (m, [.send (.createGroup name members (if mode = "" then none else some mode))])

/-- The commands that look after the client itself. -/
def Model.runClientCommand (m : Model) (cmd : String) (args : List String) : Updated :=
  if cmd = "/update" then
    ({ m with updateRequested := true }.flash "checking for a newer Cherm client…" false,
      [.send .checkClientUpdate])
  else if cmd = "/update-now" then
    match m.clientUpdate with
    | none => (m.flash "no client update available" true, [])
    | some _ => (m.flash "downloading & verifying the update…" false, [.selfUpdate])
  else if cmd = "/update-notes" then
    match m.clientUpdate with
    | none => (m.flash "no release notes available" true, [])
    | some update =>
        if update.notesURL = "" then (m.flash "no release notes available" true, [])
        else (m.browse update.notesURL "opened release notes", [])
  else if cmd = "/update-ignore" then
    ({ m with clientUpdate := none }.flash "update notice dismissed" false, [])
  else if cmd = "/export" then
    (m.flash "exporting your identity backup…" false, [.send .exportIdentity])
  else if cmd = "/import" then
    match args with
    | [path] => (m.flash ("importing identity from " ++ path ++ "…") false,
        [.send (.importIdentity path)])
    | _ => (m.flash "usage: /import <path-to-.chermkey-file>" true, [])
  else if cmd = "/menu" then m.openMenu
  else if cmd = "/help" then ({ m with screen := .help, input := Terminal.blur m.input }, [])
  else (m.flash ("unknown command: " ++ cmd ++ " (try /help)") true, [])

/-- What was typed after a slash. -/
def Model.runCommand (m : Model) (cmd : String) (args : List String) : Updated :=
  if cmd = "/quit" then (m, [.quit])
  else if cmd = "/dm" then
    match args with
    | [user] =>
        if user = m.username then (m.flash "you can't start a chat with yourself" true, [])
        else (m, [.send (.startDm user)])
    | _ => (m.flash "usage: /dm <user>" true, [])
  else if cmd = "/group" then m.runGroup args
  else if cmd = "/join" then
    match args with
    | [group, key, owner] => (m, [.send (.joinGroup group key owner)])
    | _ => (m.flash "usage: /join <group-id> <key> <owner>" true, [])
  else if cmd = "/access" then
    match args with
    | [mode] => m.inGroup fun id => .setAccess id mode
    | _ => (m.flash "usage: /access <open|approval|invite_only>" true, [])
  else if cmd = "/key" ∨ cmd = "/invitekey" then m.inGroup .groupInfo
  else match memberCommands.lookup cmd with
  | some ipc =>
      match args with
      | [user] => m.inGroup fun id => .member ipc id user
      | _ => (m.flash ("usage: " ++ cmd ++ " <user>") true, [])
  | none =>
      if cmd = "/suspend" then
        match args with
        | [user, duration] => m.inGroup fun id => .suspendMember id user duration
        | _ => (m.flash "usage: /suspend <user> <duration>  (e.g. 30m, 2h, 1d)" true, [])
      else if cmd = "/servers" then m.openServersScreen
      else if cmd = "/store" ∨ cmd = "/plugins" then m.openStore
      else if cmd = "/submit" then m.openSubmit
      else m.runClientCommand cmd args

/-- Enter in the input box: a command, or a text for the open chat. -/
def Model.submitInput (m : Model) : Updated :=
  let line := textOf m.input
  if line = "" then (m, [])
  else
    let m := { m with input := Terminal.setValue "" m.input }
    if line.toList.head? = some '/' then
      match (fields line.toList).map String.ofList with
      | [] => (m, [])
      | cmd :: args => m.runCommand cmd args
    else if m.current = "" then
      (m.flash "no chat open: use /dm <user> or pick one with Tab" true, [])
    else (m, [.send (.send m.current line)])

/-- A key in the sidebar. -/
def Model.updateSidebar (m : Model) (key : String) : Updated :=
  if key = "up" ∨ key = "k" then
    (if m.sidebarSel > 0 then { m with sidebarSel := m.sidebarSel - 1 } else m, [])
  else if key = "down" ∨ key = "j" then
    (if m.sidebarSel < m.chats.length - 1 then { m with sidebarSel := m.sidebarSel + 1 } else m, [])
  else if key = "enter" then m.openSelectedChat
  else if key = "x" then m.openLeaveConfirm
  else if key = "esc" then m.openMenu
  else (m, [])

/-- A key on the chat screen. -/
def Model.updateChat (m : Model) (key : Terminal.Key) : Updated :=
  let text := Terminal.keyText key
  if text = "tab" ∨ text = "shift+tab" then (m.toggleFocus, [])
  else if m.focus = .sidebar then m.updateSidebar text
  else if text = "esc" then m.openMenu
  else if text = "enter" then m.submitInput
  else if text = "pgup" ∨ text = "pgdown" then (m, [])
  else ({ m with input := Terminal.edit key m.input }, [.blink])

/-- A key while leaving a chat is asked about. -/
def Model.updateLeaveConfirm (m : Model) (key : String) : Updated :=
  if key ∈ ["left", "h", "right", "l", "tab", "shift+tab"] then
    ({ m with leaveSel := 1 - m.leaveSel }, [])
  else if key = "esc" then ({ m with screen := .chat }, [])
  else if key = "enter" then
    let m := { m with screen := .chat }
    if m.leaveSel = 0 then
      let m := if m.leaveChatID = m.current then { m with current := "", viewport := [] } else m
      (m.flash ("leaving " ++ m.leaveChatTitle ++ "...") false,
        [.send (.leaveChat m.leaveChatID)])
    else (m, [])
  else (m, [])

/-! ### The menu, the help and the store -/

/-- Enter in the menu. -/
def Model.activateMenu (m : Model) : Updated :=
  if m.menuSel = 0 then m.openServersScreen
  else if m.menuSel = 1 then (m, [.send .ping])
  else if m.menuSel = 2 then ({ m with screen := .help }, [])
  else if m.menuSel = 3 then (m.browse m.docsURL ("opened docs: " ++ m.docsURL), [])
  else m.backToChat

/-- A key in the menu. -/
def Model.updateMenu (m : Model) (key : String) : Updated :=
  if key = "esc" ∨ key = "q" then m.backToChat
  else if key = "up" ∨ key = "k" then
    (if m.menuSel > 0 then { m with menuSel := m.menuSel - 1 } else m, [])
  else if key = "down" ∨ key = "j" then
    (if m.menuSel < menuItemCount - 1 then { m with menuSel := m.menuSel + 1 } else m, [])
  else if key = "r" then (m, [.send .ping])
  else if key = "enter" then m.activateMenu
  else (m, [])

/-- A key on the help screen. -/
def Model.updateHelp (m : Model) (key : String) : Updated :=
  if key = "esc" ∨ key = "enter" ∨ key = "q" then
    if m.connected then m.backToChat else ({ m with screen := .servers }, [])
  else (m, [])

/-- Install the selected plugin. -/
def Model.installSelectedPlugin (m : Model) : Updated :=
  match selected m.storePlugins m.storeSel with
  | none => (m, [])
  | some p =>
      let hasUpdate := (m.pluginUpdates.get p.name).isSome
      if p.installed && !hasUpdate then
        (m.flash (p.name ++ " is already installed (press x to remove)") false, [])
      else
        let verb := if hasUpdate then "updating" else "installing"
        (m.flash (verb ++ " " ++ p.name ++ " (" ++ categoryLabel p.category ++ ")…") false,
          [.send (.installPlugin p.name)])

/-- Remove the selected plugin, if it is installed. -/
def Model.removeSelectedPlugin (m : Model) : Updated :=
  match selected m.storePlugins m.storeSel with
  | none => (m, [])
  | some p =>
      if p.installed then
        (m.flash ("removing " ++ p.name ++ "…") false, [.send (.removePlugin p.name)])
      else (m, [])

/-- A key in the store. -/
def Model.updateStore (m : Model) (key : String) : Updated :=
  if key = "esc" ∨ key = "q" then
    if m.connected then m.backToChat else ({ m with screen := .servers }, [])
  else if key = "up" ∨ key = "k" then
    (if m.storeSel > 0 then { m with storeSel := m.storeSel - 1 } else m, [])
  else if key = "down" ∨ key = "j" then
    (if m.storeSel < m.storePlugins.length - 1 then { m with storeSel := m.storeSel + 1 } else m,
      [])
  else if key = "r" then m.openStore
  else if key = "u" then
    (m.flash "checking for plugin updates…" false, [.send .checkPluginUpdates])
  else if key = "s" then m.openSubmit
  else if key = "enter" ∨ key = "i" then m.installSelectedPlugin
  else if key = "x" then m.removeSelectedPlugin
  else (m, [])

/-- Move to a field of the submission, around its ends. -/
def Model.focusSubmitField (m : Model) (i : Int) : Model :=
  let n := m.submit.fields.length
  if n = 0 then m
  else
    let i := (if i < 0 then 0 else if i ≥ n then (n : Int) - 1 else i).toNat
    let blurred := m.submit.onInput m.submit.sel Terminal.blur
    { m with submit := { blurred with sel := i }.onInput i Terminal.focus }

/-- The text of a field. -/
def Model.fieldValue (m : Model) (key : String) : String :=
  match m.submit.fields.find? fun field => field.key = key with
  | some field => textOf field.input
  | none => ""

/-- Send the submission, if it has a name and a version. -/
def Model.doSubmit (m : Model) : Updated :=
  let name := m.fieldValue "name"
  let version := m.fieldValue "version"
  if name = "" ∨ version = "" then (m.flash "name and version are required" true, [])
  else
    let perms := (((m.fieldValue "permissions").toList.splitOn ',').map trimSpace).filter (· ≠ [])
    let manifest := [("name", name), ("display_name", name), ("version", version),
      ("kind", m.fieldValue "kind"), ("source_url", m.fieldValue "source_url"),
      ("license", m.fieldValue "license"), ("description", m.fieldValue "description"),
      ("category", "community_unaudited")]
    (m.flash ("submitting " ++ name ++ "…") false,
      [.send (.submitPlugin manifest (perms.map String.ofList))])

/-- A key in the form of a submission. -/
def Model.updateSubmit (m : Model) (key : Terminal.Key) : Updated :=
  let text := Terminal.keyText key
  if text = "esc" then m.openStore
  else if text = "tab" ∨ text = "down" then (m.focusSubmitField (m.submit.sel + 1), [])
  else if text = "shift+tab" ∨ text = "up" then (m.focusSubmitField (m.submit.sel - 1), [])
  else if text = "ctrl+s" then m.doSubmit
  else if text = "enter" then
    if m.submit.sel + 1 = m.submit.fields.length then m.doSubmit
    else (m.focusSubmitField (m.submit.sel + 1), [])
  else ({ m with submit := m.submit.onInput m.submit.sel (Terminal.edit key) }, [.blink])

/-! ### Clicks, and the loop -/

variable [Layout]

/-- The wheel scrolls the messages; a click in the sidebar opens a chat. -/
def Model.handleMouse (m : Model) (mouse : Mouse) : Updated :=
  if m.screen ≠ .chat then (m, [])
  else if mouse.button = .wheelUp ∨ mouse.button = .wheelDown then (m, [])
  else if !mouse.press || mouse.button ≠ .left then (m, [])
  else if mouse.x < m.sidebarW then
    let idx := mouse.y - (Layout.chatTop m + 1 + 2)
    if 0 ≤ idx ∧ idx < m.chats.length then { m with sidebarSel := idx }.openRow idx
    else ({ m with focus := .sidebar, input := Terminal.blur m.input }, [])
  else ({ m with focus := .input, input := Terminal.focus m.input }, [])

/-- A key, on the screen that is shown. -/
def Model.onKey (m : Model) (key : Terminal.Key) : Updated :=
  let text := Terminal.keyText key
  if text = "ctrl+c" then (m, [.quit])
  else match m.screen with
    | .servers => m.updateServers text
    | .addServer => m.updateAddServer key
    | .verdict => m.updateVerdict text
    | .username => m.updateUsername key
    | .menu => m.updateMenu text
    | .help => m.updateHelp text
    | .leaveConfirm => m.updateLeaveConfirm text
    | .store => m.updateStore text
    | .submit => m.updateSubmit key
    | .removeServerConfirm => m.updateRemoveServerConfirm text
    | .chat => m.updateChat key

/-- `Update`. -/
def Model.update (m : Model) : Msg Terminal.Key → Updated
  | .windowSize width height => ({ m with width := width, height := height }.layout, [])
  | .mouse mouse => m.handleMouse mouse
  | .key key => m.onKey key
  | .ready servers hasMaster clientVersion => m.onReady servers hasMaster clientVersion
  | .servers servers => (m.onServers servers, [])
  | .attest attest => m.onAttest attest
  | .needUsername server => m.onNeedUsername server
  | .registered server username uuid => m.onRegistered server username uuid
  | .connected server username _ => m.onConnected server username
  | .disconnected server reason => m.onDisconnected server reason
  | .chats _ chats => (m.applyChats chats, [])
  | .openChat chat => m.onOpenChat chat
  | .history chat messages => (m.onHistory chat messages, [])
  | .message chat message => (m.onMessage chat message, [])
  | .fingerprint username fingerprint => (m.onFingerprint username fingerprint, [])
  | .verdictTick => m.onVerdictTick
  | .theme => (m, [])
  | .widgets widgets => ({ m with widgets := widgets }, [])
  | .storePlugins plugins => (m.onStorePlugins plugins, [])
  | .installedPlugins plugins => (m.mergeInstalled plugins, [])
  | .pluginInstalled name version category => (m.onPluginInstalled name version category, [])
  | .pluginUpdate name current latest _ => (m.onPluginUpdate name current latest, [])
  | .pluginSubmitted name version => (m.onPluginSubmitted name version, [])
  | .clientUpdate update => m.onClientUpdate update
  | .selfUpdate version error => (m.onSelfUpdate version error, [])
  | .maintenance maintenance => (m.onMaintenance maintenance, [])
  | .clockTick now => m.onClockTick now
  | .reconnectTick => m.onReconnectTick
  | .error message code => (m.onError message code, [])
  | .info message => (m.flash message false, [])
  | .pong rttMs _ => ({ m with pingMs := rttMs }, [])
  | .coreClosed => (m, [.quit])

end

end ChermTui
