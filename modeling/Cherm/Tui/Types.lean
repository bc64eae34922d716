/-
**The terminal client: what it is told and what it asks for.**

* `Msg`: an event of the core, a key, a click, or a tick.
* `Command`: what is written to the core; `Cmd`: what an update hands to the runtime.
* `Terminal`: text inputs, the layout of the screen and the browser, which are not looked into.
-/

import Cherm.Lib.GoText
import Cherm.Lib.Table

namespace ChermTui

/-! ### What the core says -/

/-- A server in the list. -/
structure ServerInfo where
  id : String
  addr : String
  name : String
  tier : String
  verdict : String
  username : String
  active : Bool
deriving DecidableEq

/-- A chat in the list. -/
structure ChatInfo where
  id : String
  kind : String
  title : String
  lastTs : Int
deriving DecidableEq

/-- A message as the core reports it. -/
structure Message where
  sender : String
  text : String
  ts : Int
  outgoing : Bool
  color : String
  system : Bool
deriving DecidableEq

/-- A permission a plugin asks for. -/
structure PluginPerm where
  id : String
  help : String
deriving DecidableEq

/-- A plugin in the store. -/
structure StorePlugin where
  name : String
  displayName : String
  version : String
  kind : String
  category : String
  description : String
  author : String
  license : String
  sourceURL : String
  permissions : List PluginPerm
  installed : Bool
  active : Bool
deriving DecidableEq

/-- A widget of an active plugin. -/
structure Widget where
  slot : String
  kind : String
  value : String
  format : String
deriving DecidableEq

/-- The attestation of a server. -/
structure Attest where
  server : String
  verdict : String
  tier : String
  reason : String
  buildHash : String
  fingerprint : String
  publicCodebaseURL : String
  signaturesURL : String
  serverName : String
  repoURL : String
  description : String
deriving DecidableEq

/-- A newer client. -/
structure ClientUpdate where
  current : String
  latest : String
  notesURL : String
  url : String
  channel : String
deriving DecidableEq

/-- A server is about to stop. -/
structure Maintenance where
  server : String
  reason : String
  deadlineMs : Int
  version : String
deriving DecidableEq

/-- The buttons that are told apart. -/
inductive MouseButton where
  | left
  | wheelUp
  | wheelDown
  | other
deriving DecidableEq

/-- A click, and where. -/
structure Mouse where
  x : Int
  y : Int
  button : MouseButton
  /-- It is a press. -/
  press : Bool
deriving DecidableEq

/-- A message to the update loop, over the keys of the terminal. A clock tick brings the time. -/
inductive Msg (Key : Type) where
  | windowSize (width height : Int)
  | mouse (mouse : Mouse)
  | key (key : Key)
  | ready (servers : List ServerInfo) (hasMaster : Bool) (clientVersion : String)
  | servers (servers : List ServerInfo)
  | attest (attest : Attest)
  | needUsername (server : String)
  | registered (server username uuid : String)
  | connected (server username : String) (active : Bool)
  | disconnected (server reason : String)
  | chats (server : String) (chats : List ChatInfo)
  | openChat (chat : String)
  | history (chat : String) (messages : List Message)
  | message (chat : String) (message : Message)
  | fingerprint (username fingerprint : String)
  | verdictTick
  | theme
  | widgets (widgets : List Widget)
  | storePlugins (plugins : List StorePlugin)
  | installedPlugins (plugins : List StorePlugin)
  | pluginInstalled (name version category : String)
  | pluginUpdate (name current latest category : String)
  | pluginSubmitted (name version : String)
  | clientUpdate (update : ClientUpdate)
  | selfUpdate (version : String) (error : Option String)
  | maintenance (maintenance : Maintenance)
  | clockTick (now : Int)
  | reconnectTick
  | error (message code : String)
  | info (message : String)
  | pong (rttMs : Int) (server : String)
  | coreClosed

/-! ### What it asks for -/

/-- A line for the core, by its `cmd`. -/
inductive Command where
  | checkClientUpdate
  | checkServer (server name : String)
  | connect (server : String)
  | register (server username : String)
  | listServers
  | removeServer (server : String)
  | listChats
  | history (chat : String) (limit : Nat)
  | send (chat text : String)
  | startDm (username : String)
  | createGroup (name : String) (members : List String) (accessMode : Option String)
  | joinGroup (group key owner : String)
  | setAccess (group mode : String)
  | groupInfo (group : String)
  /-- One of the commands about one member, by its name. -/
  | member (cmd group username : String)
  | suspendMember (group username duration : String)
  | leaveChat (chat : String)
  | ping
  | exportIdentity
  | importIdentity (path : String)
  | listStore
  | listInstalled
  | checkPluginUpdates
  | installPlugin (name : String)
  | removePlugin (name : String)
  /-- The manifest's texts by field, and its permissions; the package is empty. -/
  | submitPlugin (manifest : List (String × String)) (permissions : List String)
deriving DecidableEq

/-- What an update asks to be done. -/
inductive Cmd where
  | send (command : Command)
  | blink
  | verdictTick
  | clockTick
  | reconnectTick
  | selfUpdate
  | quit
deriving DecidableEq

/-! ### The terminal -/

/-- What is taken from the libraries and the system. -/
class Terminal where
  Key : Type
  /-- `msg.String()`. -/
  keyText : Key → String
  TextInput : Type
  /-- `textinput.New` with a placeholder and a limit. -/
  newInput : String → Nat → TextInput
  value : TextInput → String
  setValue : String → TextInput → TextInput
  focus : TextInput → TextInput
  blur : TextInput → TextInput
  /-- A key in a text input. -/
  edit : Key → TextInput → TextInput
  /-- `openBrowser`, and its error. -/
  openBrowser : String → Option String
  /-- `CHERM_SERVER` and `CHERM_DOCS`. -/
  envServer : String
  envDocs : String

end ChermTui
