/-
**The terminal client's state, and what an event does to it.**

The state is the one of the update loop, without what only the view reads: the widths of the inputs,
the palette, where the messages are scrolled to. A chat state is shared by the sidebar and the map
by id; here both hold its place in a list.

* `openChat`, `applyChats`, `ensureChat`: the sidebar and the open conversation.
* `onAttest`, `onVerdictTick`: a verdict and its countdown.
* `onConnected`, `onDisconnected`, `onClockTick`, `onReconnectTick`: the connection, and waiting for
  a server that restarts.
-/

import Cherm.Tui.Types

namespace ChermTui

open GoText (fields trimSpace)

/-- The screens. -/
inductive Screen where
  | servers
  | addServer
  | verdict
  | username
  | chat
  | menu
  | help
  | leaveConfirm
  | store
  | submit
  | removeServerConfirm
deriving DecidableEq

/-- Where the keys of the chat screen go. -/
inductive Focus where
  | input
  | sidebar
deriving DecidableEq

/-- The rows of the menu. -/
def menuItemCount : Int := 5

/-- How long "Connect anyway" stays disabled on a red verdict. -/
def redCountdownSecs : Int := 10

/-- Where the documentation is, if the core has not said. -/
def defaultDocs : String := "https://cherm.chat/docs"

/-- The address that stands in until a server is chosen. -/
def defaultServer : String := "127.0.0.1:9000"

/-- A chat with its messages. -/
structure ChatState where
  info : ChatInfo
  messages : List Message
  activity : Bool
deriving DecidableEq

section

variable [Terminal]

/-- The form of a new server: its fields and which of them has the keys. -/
structure AddServerForm where
  address : Terminal.TextInput
  port : Terminal.TextInput
  name : Terminal.TextInput
  sel : Int

/-- A field of a submission: its label, the name it is sent under, and its text. -/
structure SubmitField where
  label : String
  key : String
  input : Terminal.TextInput

/-- The form of a submission, and its selected field. -/
structure SubmitForm where
  fields : List SubmitField
  sel : Nat

/-- What the terminal knows and shows. -/
structure Model where
  serverAddr : String
  serverName : String
  width : Int
  height : Int
  sidebarW : Int
  ready : Bool
  hasMaster : Bool
  screen : Screen
  focus : Focus
  username : String
  uuid : String
  connected : Bool
  servers : List ServerInfo
  serverSel : Int
  removeServerAddr : String
  removeSel : Int
  addForm : AddServerForm
  checking : Bool
  pendingServer : String
  nameInput : Terminal.TextInput
  onboardErr : String
  verdict : Attest
  verdictSel : Int
  verdictCountdown : Int
  verdictTicking : Bool
  input : Terminal.TextInput
  /-- The messages in the viewport. -/
  viewport : List Message
  /-- All chat states there were. -/
  chatStates : List ChatState
  chats : List Nat
  chatByID : Table String Nat
  sidebarSel : Int
  current : String
  fingerprints : Table String String
  leaveChatID : String
  leaveChatTitle : String
  leaveSel : Int
  menuSel : Int
  pingMs : Int
  docsURL : String
  clientVersion : String
  clientUpdate : Option ClientUpdate
  updateRequested : Bool
  storePlugins : List StorePlugin
  storeSel : Int
  storeChecking : Bool
  pluginUpdates : Table String String
  submit : SubmitForm
  widgets : List Widget
  maintenance : Option Maintenance
  waitingForServer : Bool
  status : String
  isError : Bool

/-- The state after a message, and what is handed to the runtime. -/
abbrev Updated := Model × List Cmd

/-! ### Forms -/

/-- A text input with a value. -/
def inputWith (placeholder value : String) (charLimit : Nat) : Terminal.TextInput :=
  let input := Terminal.newInput placeholder charLimit
  if value ≠ "" then Terminal.setValue value input else input

/-- The empty form, with the usual port. -/
def newAddServerForm : AddServerForm where
  address := inputWith "srv.cherm.chat" "" 128
  port := inputWith "9000" "9000" 6
  name := inputWith "a name for this server" "" 40
  sel := 0

/-- Select a field, and blur the others. -/
def AddServerForm.focus (form : AddServerForm) (i : Int) : AddServerForm :=
  let i := if i < 0 then 0 else if i ≥ 3 then 2 else i
  let turn := fun (j : Int) input => if j = i then Terminal.focus input else Terminal.blur input
  { address := turn 0 form.address, port := turn 1 form.port, name := turn 2 form.name, sel := i }

/-- No field has the keys. -/
def AddServerForm.blurAll (form : AddServerForm) : AddServerForm :=
  { form with address := Terminal.blur form.address, port := Terminal.blur form.port,
              name := Terminal.blur form.name }

/-- The empty form, at its address. -/
def AddServerForm.reset : AddServerForm := newAddServerForm.focus 0

/-- A key in the selected field. -/
def AddServerForm.edit (form : AddServerForm) (key : Terminal.Key) : AddServerForm :=
  if form.sel = 0 then { form with address := Terminal.edit key form.address }
  else if form.sel = 1 then { form with port := Terminal.edit key form.port }
  else { form with name := Terminal.edit key form.name }

/-- The form a submission starts from. -/
def newSubmitForm : SubmitForm where
  fields := [
    ⟨"name", "name", inputWith "my-plugin (a-z 0-9 - _)" "" 256⟩,
    ⟨"version", "version", inputWith "1.0.0" "1.0.0" 256⟩,
    ⟨"kind", "kind", inputWith "theme | widget | renderer | command" "theme" 256⟩,
    ⟨"source_url", "source_url", inputWith "https://github.com/you/plugin (public)" "" 256⟩,
    ⟨"license", "license", inputWith "AGPL-3.0" "AGPL-3.0" 256⟩,
    ⟨"description", "description", inputWith "what it does" "" 256⟩,
    ⟨"permissions", "permissions", inputWith "comma list, e.g. tui.theme,tui.widget" "tui.theme"
      256⟩]
  sel := 0

/-- Change the input of one field. -/
def SubmitForm.onInput (form : SubmitForm) (i : Nat)
    (change : Terminal.TextInput → Terminal.TextInput) : SubmitForm :=
  { form with fields := form.fields.modify i fun field =>
      { field with input := change field.input } }

/-! ### The start -/

/-- The report on no server. -/
def noAttest : Attest := ⟨"", "", "", "", "", "", "", "", "", "", ""⟩

/-- `NewModel`. -/
def newModel : Model where
  serverAddr := if Terminal.envServer ≠ "" then Terminal.envServer else defaultServer
  serverName := ""
  width := 0
  height := 0
  sidebarW := 0
  ready := false
  hasMaster := false
  screen := .servers
  focus := .input
  username := ""
  uuid := ""
  connected := false
  servers := []
  serverSel := 0
  removeServerAddr := ""
  removeSel := 0
  addForm := newAddServerForm
  checking := false
  pendingServer := ""
  nameInput := Terminal.newInput "username" 16
  onboardErr := ""
  verdict := noAttest
  verdictSel := 0
  verdictCountdown := 0
  verdictTicking := false
  input := Terminal.newInput "type a message or /command" 4096
  viewport := []
  chatStates := []
  chats := []
  chatByID := ∅
  sidebarSel := 0
  current := ""
  fingerprints := ∅
  leaveChatID := ""
  leaveChatTitle := ""
  leaveSel := 0
  menuSel := 0
  pingMs := -1
  docsURL := if Terminal.envDocs ≠ "" then Terminal.envDocs else defaultDocs
  clientVersion := ""
  clientUpdate := none
  updateRequested := false
  storePlugins := []
  storeSel := 0
  storeChecking := false
  pluginUpdates := ∅
  submit := newSubmitForm
  widgets := []
  maintenance := none
  waitingForServer := false
  status := "starting cherm-core..."
  isError := false

/-- `Init`: the cursor blinks and the clock runs. -/
def initCmds : List Cmd := [.blink, .clockTick]

/-- Set the footer's status line. -/
def Model.flash (m : Model) (text : String) (isErr : Bool) : Model :=
  { m with status := text, isError := isErr }

/-! ### The sidebar and the open conversation -/

/-- The state of a chat by its id. -/
def Model.chat (m : Model) (id : String) : Option ChatState :=
  (m.chatByID.get id).bind fun place => m.chatStates[place]?

/-- Change the chat at a place. -/
def Model.onChat (m : Model) (place : Nat) (change : ChatState → ChatState) : Model :=
  { m with chatStates := m.chatStates.modify place change }

/-- Show the messages of the open chat. -/
def Model.refreshViewport (m : Model) : Model :=
  { m with viewport := match m.chat m.current with
      | some chat => chat.messages
      | none => [] }

/-- `layout`, for what is not only drawn. -/
def Model.layout (m : Model) : Model :=
  if m.width ≤ 0 ∨ m.height ≤ 0 then m
  else
    let sidebarW := min 26 (m.width.tdiv 3)
    let sidebarW := max 14 sidebarW
    let sidebarW := min sidebarW (m.width - 12)
    { m with sidebarW := sidebarW }.refreshViewport

/-- The chat screen, with the keys at its input. -/
def Model.enterChat (m : Model) : Model :=
  { m with screen := .chat, focus := .input, input := Terminal.focus m.input,
           nameInput := Terminal.blur m.nameInput, addForm := m.addForm.blurAll,
           onboardErr := "" }.layout

/-- What the chat screen asks for as it is entered. -/
def afterEnterCmd : List Cmd := [.send .listChats]

/-- Forget the chats, as another server becomes active. -/
def Model.resetChats (m : Model) : Model :=
  { m with chats := [], chatByID := ∅, current := "", sidebarSel := 0, viewport := [] }

/-- The chat becomes the open one. -/
def Model.openChat (m : Model) (id : String) : Updated :=
  let m := { m with current := id }
  let m := match m.chatByID.get id with
    | some place => m.onChat place fun chat => { chat with activity := false }
    | none => m
  (m.refreshViewport, [.send (.history id 200)])

/-- The rows of a chat list, each with the state its id had before. -/
def applyInfos (old : Table String Nat) : List ChatInfo → List ChatState → Table String Nat →
    List ChatState × List Nat × Table String Nat
  | [], states, byID => (states, [], byID)
  | info :: rest, states, byID =>
      let (place, states) := match old.get info.id with
        | some place => (place, states.modify place fun chat => { chat with info := info })
        | none => (states.length, states ++ [⟨info, [], false⟩])
      let (states, list, byID) := applyInfos old rest states (byID.put info.id place)
      (states, place :: list, byID)

/-- A selection in a list of some length. -/
def clampSel (sel : Int) (length : Nat) : Int := max 0 (min sel (length - 1))

/-- `chats`: the sidebar as the core lists it; what a chat has shown stays. -/
def Model.applyChats (m : Model) (infos : List ChatInfo) : Model :=
  let (states, list, byID) := applyInfos m.chatByID infos m.chatStates ∅
  { m with chatStates := states, chats := list, chatByID := byID,
           sidebarSel := clampSel m.sidebarSel list.length }

/-- The place of the chat's state; one that is not known is a DM, at the end of the sidebar. -/
def Model.ensureChat (m : Model) (id : String) : Nat × Model :=
  match m.chatByID.get id with
  | some place => (place, m)
  | none => (m.chatStates.length,
      { m with chatStates := m.chatStates ++ [⟨⟨id, "dm", id, 0⟩, [], false⟩],
               chatByID := m.chatByID.put id m.chatStates.length,
               chats := m.chats ++ [m.chatStates.length] })

/-- `history`: the messages of a chat, in place of those shown. -/
def Model.onHistory (m : Model) (chat : String) (messages : List Message) : Model :=
  let (place, m) := m.ensureChat chat
  let m := m.onChat place fun state => { state with messages := messages }
  if chat = m.current then m.refreshViewport else m

/-- `message`: one more in its chat, unread unless the chat is open. -/
def Model.onMessage (m : Model) (chat : String) (message : Message) : Model :=
  let (place, m) := m.ensureChat chat
  let m := m.onChat place fun state =>
    { state with messages := state.messages ++ [message],
                 info := if message.ts > state.info.lastTs then
                     { state.info with lastTs := message.ts } else state.info }
  if chat = m.current then m.refreshViewport
  else m.onChat place fun state => { state with activity := true }

/-- Land in the conversation, with its row selected. -/
def Model.onOpenChat (m : Model) (chat : String) : Updated :=
  let m := if m.screen ≠ .chat then
    { m with screen := .chat, focus := .input, input := Terminal.focus m.input } else m
  let row := m.chats.findIdx? fun place =>
    (m.chatStates[place]?).any fun state => state.info.id = chat
  let m := match row with
    | some i => { m with sidebarSel := i }
    | none => m
  m.openChat chat

/-! ### The core's events -/

/-- The empty form of a new server. -/
def Model.openAddServer (m : Model) : Updated :=
  ({ m with screen := .addServer, checking := false, addForm := AddServerForm.reset }.flash ""
    false, [.blink])

/-- `ready`: the servers that are known, and where to begin. -/
def Model.onReady (m : Model) (servers : List ServerInfo) (hasMaster : Bool)
    (clientVersion : String) : Updated :=
  let m := { m with ready := true, hasMaster := hasMaster, servers := servers }
  let m := if clientVersion ≠ "" then { m with clientVersion := clientVersion } else m
  if servers.isEmpty then
    let (m, cmds) := m.openAddServer
    (m, cmds ++ [.send .checkClientUpdate])
  else ({ m with screen := .servers, serverSel := 0, status := "select a server to connect" },
    [.blink, .send .checkClientUpdate])

/-- The active server of the list becomes the address. -/
def Model.follow (m : Model) (s : ServerInfo) : Model :=
  if s.active then
    let m := { m with serverAddr := s.addr, serverName := s.name }
    if s.username ≠ "" then { m with username := s.username } else m
  else m

/-- `servers`: the list as the core has it. -/
def Model.onServers (m : Model) (servers : List ServerInfo) : Model :=
  servers.foldl Model.follow
    { m with servers := servers, serverSel := clampSel m.serverSel servers.length }

/-- Show the verdict, and count down if it is red. -/
def Model.onAttest (m : Model) (attest : Attest) : Updated :=
  let m := { m with verdict := attest, checking := false, screen := .verdict }
  if attest.verdict = "red" then
    let m := { m with verdictSel := 0, verdictCountdown := redCountdownSecs }
    -- a countdown that is still alive goes on
    if m.verdictTicking then (m, []) else ({ m with verdictTicking := true }, [.verdictTick])
  else ({ m with verdictSel := 1, verdictCountdown := 0 }, [])

/-- A second of the wait on a red verdict. -/
def Model.onVerdictTick (m : Model) : Updated :=
  if m.screen = .verdict ∧ m.verdictCountdown > 0 then
    let m := { m with verdictCountdown := m.verdictCountdown - 1 }
    if m.verdictCountdown > 0 then (m, [.verdictTick]) else ({ m with verdictTicking := false }, [])
  else ({ m with verdictTicking := false }, [])

/-- `need_username`: ask for a name on this server. -/
def Model.onNeedUsername (m : Model) (server : String) : Updated :=
  ({ m with pendingServer := server, checking := false, screen := .username, onboardErr := "",
            nameInput := Terminal.focus (Terminal.setValue "" m.nameInput) }.flash
    ("create a username for " ++ server) false, [.blink])

/-- Another server becomes active. -/
def Model.activate (m : Model) (server : String) : Model :=
  if server ≠ "" ∧ server ≠ m.serverAddr then { m.resetChats with serverAddr := server } else m

/-- `registered`: the server is active, under a new name. -/
def Model.onRegistered (m : Model) (server username uuid : String) : Updated :=
  let m := m.activate server
  let m := { m with username := username, uuid := uuid, connected := true, checking := false }
  let m := m.flash ("registered as " ++ username ++ " on " ++ m.serverAddr) false
  (m.enterChat, afterEnterCmd)

/-- Greet the server; a restart is over. -/
def Model.welcome (m : Model) : Model :=
  if m.waitingForServer || m.maintenance.isSome then
    let version := match m.maintenance with
      | some maintenance =>
          if maintenance.version ≠ "" then " (now v" ++ maintenance.version ++ ")" else ""
      | none => ""
    { m with waitingForServer := false, maintenance := none }.flash
      ("connected — server updated successfully" ++ version) false
  else
    let who := if m.username = "" then "-" else m.username
    m.flash ("connected to " ++ m.serverAddr ++ " as " ++ who) false

/-- `connected`: the server is active, and no longer waited for. -/
def Model.onConnected (m : Model) (server username : String) : Updated :=
  let m := m.activate server
  let m := { m with username := if username ≠ "" then username else m.username,
                    connected := true, checking := false }
  (m.welcome.enterChat, afterEnterCmd)

/-- It is about the active server. -/
def Model.ours (m : Model) (server : String) : Prop := server = "" ∨ server = m.serverAddr

instance (m : Model) (server : String) : Decidable (m.ours server) :=
  inferInstanceAs (Decidable (_ ∨ _))

/-- A disconnect under maintenance is the restart. -/
def Model.onDisconnected (m : Model) (server reason : String) : Updated :=
  if m.ours server then
    let m := { m with connected := false }
    if m.maintenance.isSome then
      if !m.waitingForServer then
        ({ m with waitingForServer := true }.flash "server is restarting — waiting for server…"
          false, [.reconnectTick])
      else (m, [])
    else (m.flash ("disconnected: " ++ reason) true, [])
  else (m.flash ("disconnected: " ++ reason) true, [])

/-- `maintenance`: keep the announcement and show its reason. -/
def Model.onMaintenance (m : Model) (maintenance : Maintenance) : Model :=
  { m with maintenance := some maintenance }.flash maintenance.reason false

/-- The whole seconds to a deadline, over 64 bits. -/
def remainingSecs (deadlineMs now : Int) : Int :=
  max 0 (((deadlineMs - now).bmod (2 ^ 64)).tdiv 1000)

/-- A second of the clock; past its deadline an announced server is waited for. -/
def Model.onClockTick (m : Model) (now : Int) : Updated :=
  match m.maintenance with
  | some maintenance =>
      if !m.waitingForServer ∧ remainingSecs maintenance.deadlineMs now ≤ 0 then
        ({ m with waitingForServer := true }, [.reconnectTick, .clockTick])
      else (m, [.clockTick])
  | none => (m, [.clockTick])

/-- The server that is waited for is tried again. -/
def Model.onReconnectTick (m : Model) : Updated :=
  if m.waitingForServer && !m.connected then
    (m, [.send (.connect m.serverAddr), .reconnectTick])
  else (m, [])

/-- The name of a category of plugins. -/
def categoryLabel (category : String) : String :=
  if category = "official" then "Official"
  else if category = "community_audited" then "Community audited"
  else if category = "community_unaudited" then "Community unaudited"
  else category

/-- The last row of a name. -/
def rowOf (plugins : List StorePlugin) (name : String) : Option Nat :=
  ((List.range plugins.length).filter fun i =>
    (plugins[i]?).any fun plugin => plugin.name = name).getLast?

/-- Fold the installed plugins into the list that was there; the rows are those of that list. -/
def mergeInto (rows : List StorePlugin) : List StorePlugin → List StorePlugin → List StorePlugin
  | [], plugins => plugins
  | installed :: rest, plugins =>
      match rowOf rows installed.name with
      | some i => mergeInto rows rest (plugins.modify i fun plugin =>
          { plugin with installed := true, active := installed.active,
                        version := if plugin.version = "" then installed.version
                          else plugin.version })
      | none => mergeInto rows rest (plugins ++ [{ installed with installed := true }])

/-- `installed_plugins`: what is installed, marked in the store's list. -/
def Model.mergeInstalled (m : Model) (installed : List StorePlugin) : Model :=
  { m with storePlugins := mergeInto m.storePlugins installed m.storePlugins }

/-- `store_plugins`: the store's list. -/
def Model.onStorePlugins (m : Model) (plugins : List StorePlugin) : Model :=
  { m with storePlugins := plugins, storeChecking := false,
           storeSel := clampSel m.storeSel plugins.length }

/-- `plugin_installed`: the notice of an update is done with. -/
def Model.onPluginInstalled (m : Model) (name version category : String) : Model :=
  { m with pluginUpdates := m.pluginUpdates.erase name }.flash
    ("installed " ++ name ++ " v" ++ version ++ " (" ++ categoryLabel category ++ ")") false

/-- `plugin_update`: a newer version is in the store. -/
def Model.onPluginUpdate (m : Model) (name current latest : String) : Model :=
  { m with pluginUpdates := m.pluginUpdates.put name latest }.flash
    ("update for " ++ name ++ ": v" ++ current ++ " → v" ++ latest) false

/-- `plugin_submitted`: back to the store. -/
def Model.onPluginSubmitted (m : Model) (name version : String) : Model :=
  { m.flash ("submitted " ++ name ++ " v" ++ version ++
      " — community unaudited (pending review)") false with screen := .store }

/-- `client_update`: offered, or installed at once if it was asked for. -/
def Model.onClientUpdate (m : Model) (update : ClientUpdate) : Updated :=
  let m := { m with clientUpdate := some update }
  if m.updateRequested then
    ({ m with updateRequested := false }.flash ("update found (v" ++ update.latest ++
      ") — downloading & verifying…") false, [.selfUpdate])
  else (m.flash ("a new Cherm client is available: v" ++ update.latest ++ " (you have v" ++
    update.current ++ ")") false, [])

/-- What came of updating the client. -/
def Model.onSelfUpdate (m : Model) (version : String) (error : Option String) : Model :=
  match error with
  | some error => m.flash ("update failed: " ++ error) true
  | none => { m with clientUpdate := none }.flash ("updated to v" ++ version ++
      " — restart cherm to apply (your data is preserved)") false

/-- `fingerprint`: kept and shown. -/
def Model.onFingerprint (m : Model) (username fingerprint : String) : Model :=
  { m with fingerprints := m.fingerprints.put username fingerprint }.flash
    ("safety number for " ++ username ++ ": " ++ fingerprint) false

/-- `error`: shown with its code, also under the field of a name. -/
def Model.onError (m : Model) (message code : String) : Model :=
  let text := if code ≠ "" then message ++ " (" ++ code ++ ")" else message
  let m : Model := { m.flash ("error: " ++ text) true with checking := false }
  if m.screen = .username then { m with onboardErr := text } else m

end

end ChermTui
