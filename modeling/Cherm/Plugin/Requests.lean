/-
**All that the plugin manager is asked for.**

* `emitActive`: what is active, from the files of an earlier run.
* `checkUpdates`: one notice for each installed plugin the store has a newer version of.
* `submit`: a plugin is sent to the store, and its answer is shown.
* `Request`: these and the other calls, with what each tells the terminal.
-/

import Cherm.Plugin.Updates

namespace ChermPlugins

/-- An event with the names of the requests beside the calls. -/
inductive Notice where
  | event (event : Event)
  /-- The widgets as they are in the file. -/
  | widgetsValue (value : Json)
  | pluginUpdateAvailable (name current latest category : String)
  | pluginSubmitted (name version category : String)

/-- The store's reply to a submission. -/
structure Reply where
  status : Nat
  text : String

def Reply.isSuccess (reply : Reply) : Bool := 200 ≤ reply.status && reply.status < 300

class Http where
  /-- The text of a status. -/
  statusText : Nat → String

section

variable [Crates] [Http]

open Crates

/-- Emit the palette and the widgets that are active. -/
def emitActive (disk : Disk) : List Notice :=
  (((disk.readToString activeThemePath).bind fromStr).map fun palette =>
    .event (.theme palette)).toList ++
  (((disk.readToString activeWidgetsPath).bind fromStr).map .widgetsValue).toList

/-- The manifest the store has for a plugin, if it can be read. -/
def latestManifest (http : String → Except String Response) (store name : String) :
    Option Manifest :=
  match http (store ++ "/" ++ sanitize name ++ "/manifest") with
  | .error _ => none
  | .ok response =>
      ((readCapped response maxManifestBytes).toOption.bind fromSlice).bind Manifest.fromJson

/-- The installed plugins that the store has a newer version of, with its manifest. -/
def outdated (http : String → Except String Response) (store : String) (index : InstalledIndex) :
    List (Installed × Manifest) :=
  index.plugins.filterMap fun p =>
    (latestManifest http store p.manifest.name).bind fun latest =>
      if isNewer latest.version p.manifest.version then some (p, latest) else none

/-- Check the store for newer versions of installed plugins. -/
def checkUpdates (http : String → Except String Response) (store : String) (disk : Disk) :
    List Notice :=
  let found := outdated http store (loadInstalled disk)
  found.map (fun entry => .pluginUpdateAvailable entry.1.manifest.name entry.1.manifest.version
    entry.2.version entry.2.category) ++
  [.event (.info (if found.length = 0 then "all plugins up to date"
    else toString found.length ++ " plugin update(s) available"))]

/-- Submit a plugin to the store. -/
def submit (manifest : Manifest) (reply : Except String Reply) : List Notice :=
  if manifest.name = "" ∨ manifest.version = "" then
    [.event (.error "bad_submission" "plugin name and version are required")]
  else match validatePermissions manifest.permissions with
  | .error e =>
      [.event (.error "plugin_rejected" ("submission requests unsafe permissions: " ++ e))]
  | .ok _ =>
  match reply with
  | .error e => [.event (.error "submit_failed" ("could not reach the store: " ++ e))]
  | .ok reply =>
  if reply.isSuccess then
    [.pluginSubmitted manifest.name manifest.version "community_unaudited",
      .event (.info ("submitted " ++ manifest.name ++ " v" ++ manifest.version ++
        " — listed as community unaudited (use at your own risk) pending Cherm review"))]
  else [.event (.error "submit_failed" ("store rejected submission (" ++
    Http.statusText reply.status ++ "): " ++ reply.text))]

/-! ### Requests -/

/-- A request, with what the store answers during it. -/
inductive Request where
  | emitActive
  | listStore (http : String → Except String Response) (store : String)
  | listInstalled
  | call (made : Call)
  | checkUpdates (http : String → Except String Response) (store : String)
  | submit (manifest : Manifest) (reply : Except String Reply)

/-- The world after a request. -/
def Request.after (request : Request) (world : World) : World :=
  match request with
  | .listStore http store => (ChermPlugins.listStore http store world).2
  | .listInstalled => (ChermPlugins.listInstalled world).2
  | .call made => step made world
  | .emitActive | .checkUpdates _ _ | .submit _ _ => world

/-- What the terminal is told by a request. -/
def Request.notices (request : Request) (world : World) : List Notice :=
  match request with
  | .emitActive => ChermPlugins.emitActive world.disk
  | .checkUpdates http store => ChermPlugins.checkUpdates http store world.disk
  | .submit manifest reply => ChermPlugins.submit manifest reply
  | .listStore _ _ | .listInstalled | .call _ =>
      ((request.after world).events.drop world.events.length).map .event

end

end ChermPlugins
