/-
**The plugin manager: install, remove, and what is active.**

The manager works on one directory with files and, one level down, a directory for each plugin. A
call is an action on it that emits events and may fail; what a failed call has done stays. The store
answers each request with bytes in chunks, or not at all.

* `install`: fetch the manifest and the package, check them, write them, record them, activate.
* `remove`: drop the record, delete the directory, activate what remains.
* `applyActive`: the palette and the widgets that are active now.

Disk errors are those of names that are taken: a directory in the place of a file, or the reverse.
-/

import Cherm.Plugin.Manifest
import Cherm.Lib.Table

namespace ChermPlugins

open Cherm (Bytes utf8 fromUtf8)
open Json

/-! ### What is taken from the crates -/

/-- `serde_json` indents by two blanks. -/
def toVecPretty (value : Json) : Bytes := utf8 (String.ofList (pretty 0 value))

/-- What the manager uses of `sha2`, `hex` and `serde_json`. -/
class Crates where
  /-- `hex::encode` of `Sha256::digest`. -/
  sha256Hex : Bytes → String
  /-- The value `serde_json::from_slice` takes a record from. -/
  fromSlice : Bytes → Option Json
  /-- The text of its error for a record. -/
  serdeError : String → Bytes → String
  /-- The characters that are not printed, beside the control characters. -/
  unprinted : Char → Bool
  /-- `serde_json` reads its own text of a value without floats, if it is not nested too deep. -/
  fromSlice_pretty : ∀ value : Json, value.Exact → value.Within 100 →
    fromSlice (toVecPretty value) = some value

/-! ### The directory -/

/-- A file, or a directory with files in it. -/
inductive Entry where
  | file (bytes : Bytes)
  | dir (files : Table String Bytes)

/-- The plugins directory. -/
abbrev Disk := Table String Entry

/-- What the terminal is told. -/
inductive Event where
  | error (code message : String)
  | info (message : String)
  | theme (palette : Json)
  | widgets (widgets : List Widget)
  | pluginInstalled (name version category : String)
  | installedPlugins (plugins : List Json)
  | storePlugins (plugins : List Json)
deriving DecidableEq

/-- The directory, and what the terminal was told. -/
structure World where
  disk : Disk
  events : List Event

/-- A call of the manager. -/
def Act (α : Type) := World → Except String α × World

instance : Monad Act where
  pure value := fun world => (.ok value, world)
  bind first next := fun world => match first world with
    | (.ok value, world) => next value world
    | (.error e, world) => (.error e, world)

namespace Act

/-- An early return with an error text. -/
def fail {α : Type} (error : String) : Act α := fun world => (.error error, world)

/-- `let _ =`: whatever comes of it. -/
def ignore (act : Act Unit) : Act Unit := fun world => (.ok (), (act world).2)

/-- Tell the terminal. -/
def emit (event : Event) : Act Unit := fun world =>
  (.ok (), { world with events := world.events ++ [event] })

/-- `std::fs::write` of a file. -/
def write (name : String) (bytes : Bytes) : Act Unit := fun world =>
  match world.disk.get name with
  | some (.dir _) => (.error "Is a directory", world)
  | _ => (.ok (), { world with disk := world.disk.put name (.file bytes) })

/-- `std::fs::write` of a file in a plugin's directory. -/
def writeIn (dir name : String) (bytes : Bytes) : Act Unit := fun world =>
  match world.disk.get dir with
  | some (.dir files) =>
      (.ok (), { world with disk := world.disk.put dir (.dir (files.put name bytes)) })
  | some (.file _) => (.error "Not a directory", world)
  | none => (.error "No such file or directory", world)

/-- `std::fs::create_dir_all`. -/
def createDirAll (dir : String) : Act Unit := fun world =>
  match world.disk.get dir with
  | some (.dir _) => (.ok (), world)
  | some (.file _) => (.error "File exists", world)
  | none => (.ok (), { world with disk := world.disk.put dir (.dir ∅) })

/-- `std::fs::remove_dir_all`. -/
def removeDirAll (dir : String) : Act Unit := fun world =>
  match world.disk.get dir with
  | some (.dir _) => (.ok (), { world with disk := world.disk.erase dir })
  | some (.file _) => (.error "Not a directory", world)
  | none => (.error "No such file or directory", world)

/-- `std::fs::remove_file`. -/
def removeFile (name : String) : Act Unit := fun world =>
  match world.disk.get name with
  | some (.file _) => (.ok (), { world with disk := world.disk.erase name })
  | some (.dir _) => (.error "Is a directory", world)
  | none => (.error "No such file or directory", world)

end Act

/-- `std::fs::read_to_string` of a file. -/
def Disk.readToString (disk : Disk) (name : String) : Option String :=
  match disk.get name with
  | some (.file bytes) => fromUtf8 bytes
  | _ => none

/-- `std::fs::read_to_string` of a file in a plugin's directory. -/
def Disk.readToStringIn (disk : Disk) (dir name : String) : Option String :=
  match disk.get dir with
  | some (.dir files) => (files.get name).bind fromUtf8
  | _ => none

/-! ### The store's answers -/

/-- A response: the length it announces, and its chunks. -/
structure Response where
  contentLength : Option Nat
  chunks : List (Except String Bytes)

/-- `MAX_MANIFEST_BYTES`. -/
def maxManifestBytes : Nat := 1024 * 1024

/-- `MAX_PACKAGE_BYTES`. -/
def maxPackageBytes : Nat := 4 * 1024 * 1024

/-- The chunks after those in the buffer. -/
def readChunks (max : Nat) : Bytes → List (Except String Bytes) → Except String Bytes
  | buf, [] => .ok buf
  | _, .error e :: _ => .error ("read body: " ++ e)
  | buf, .ok chunk :: rest =>
      if max < buf.length + chunk.length then
        .error ("response exceeded " ++ toString max ++ " bytes")
      else readChunks max (buf ++ chunk) rest

/-- Read a response body with a hard cap. -/
def readCapped (response : Response) (max : Nat) : Except String Bytes :=
  match response.contentLength with
  | some length =>
      if max < length then
        .error ("response too large (" ++ toString length ++ " bytes > " ++ toString max ++ ")")
      else readChunks max [] response.chunks
  | none => readChunks max [] response.chunks

/-! ### The manager -/

section

variable [Crates]

open Crates Act

/-- How `Debug` writes a character of a text. -/
def escapeDebug (c : Char) : List Char :=
  if c = '"' ∨ c = '\\' then ['\\', c]
  else if c = '\t' then ['\\', 't']
  else if c = '\n' then ['\\', 'n']
  else if c = '\r' then ['\\', 'r']
  else if c.toNat = 0 then ['\\', '0']
  else if isControl c || unprinted c then
    "\\u\x7b".toList ++ Nat.toDigits 16 c.toNat ++ "\x7d".toList
  else [c]

/-- `{:?}` of a text. -/
def debugText (text : String) : String :=
  "\"" ++ String.ofList (text.toList.flatMap escapeDebug) ++ "\""

/-- The file of what is installed. -/
def installedPath : String := "installed.json"

/-- The file of the active palette. -/
def activeThemePath : String := "active-theme.json"

/-- The file of the active widgets. -/
def activeWidgetsPath : String := "active-widgets.json"

/-- `serde_json::from_str`. -/
def fromStr (text : String) : Option Json := fromSlice (utf8 text)

/-- The index of installed plugins; one that cannot be read is empty. -/
def loadInstalled (disk : Disk) : InstalledIndex :=
  (((disk.readToString installedPath).bind fromStr).bind InstalledIndex.fromJson).getD ⟨[]⟩

/-- Write what is installed. -/
def saveInstalled (index : InstalledIndex) : Act Unit :=
  write installedPath (toVecPretty index.toJson)

/-- The package of an installed plugin, if it can be read. -/
def loadPackage (disk : Disk) (name : String) : Option Package := do
  let dir ← pluginDir name
  let text ← disk.readToStringIn dir "package.json"
  let value ← fromStr text
  Package.fromJson value

/-- What the terminal shows of a manifest. -/
def manifestToValue (manifest : Manifest) (installed : InstalledIndex) : Json := .obj [
  ("author", .str (cleanDisplay manifest.author 128)),
  ("category", .str (cleanDisplay manifest.category 32)),
  ("description", .str (cleanDisplay manifest.description 2000)),
  ("display_name", .str (if manifest.displayName = "" then cleanDisplay manifest.name 64
    else cleanDisplay manifest.displayName 64)),
  ("installed", .bool (installed.plugins.any fun p => p.manifest.name = manifest.name)),
  ("kind", .str (cleanDisplay manifest.kind 32)),
  ("license", .str (cleanDisplay manifest.license 64)),
  ("name", .str (cleanDisplay manifest.name 64)),
  ("permissions", .arr (manifest.permissions.map fun p =>
    .obj [("help", .str (permissionHelp p)), ("id", .str p)])),
  ("source_url", .str (cleanDisplay manifest.sourceUrl 512)),
  ("version", .str (cleanDisplay manifest.version 32))]

/-- `value[name] = field`; the names of an object are kept in ascending order. -/
def setField (name : String) (field : Json) : Json → Json
  | .obj fields => .obj (insertNew name field (fields.filter fun other => other.1 ≠ name))
  | value => value

/-- Tell the terminal what is installed. -/
def listInstalled : Act Unit := fun world =>
  let installed := loadInstalled world.disk
  emit (.installedPlugins (installed.plugins.map fun i =>
    setField "installed" (.bool true)
      (setField "active" (.bool i.active) (manifestToValue i.manifest installed)))) world

/-- The palette the terminal reads, complete. -/
def themeToPalette (theme : Theme) : Json :=
  let pick (colour : Option String) (default : String) : Json := .str (match colour with
    | some text => cleanHex text default
    | none => default)
  .obj [
    ("border", pick theme.border "#3A2E3F"),
    ("dark", pick theme.dark "#17191D"),
    ("green", pick theme.green "#2ECC71"),
    ("magenta", pick theme.magenta "#EE00FF"),
    ("muted", pick theme.muted "#8A8D93"),
    ("pink", pick theme.pink "#FF007B"),
    ("red", pick theme.red "#E74C3C"),
    ("white", pick theme.white "#FFFFFF"),
    ("yellow", pick theme.yellow "#F1C40F")]

/-- A widget with its texts fit to be shown. -/
def cleanWidget (widget : Widget) : Widget :=
  { widget with
    value := widget.value.map (cleanDisplay · 256)
    format := widget.format.map (cleanDisplay · 64) }

/-- One turn of the loop of `apply_active`. -/
def addActive (disk : Disk) (found : Option Theme × List Widget) (p : Installed) :
    Option Theme × List Widget :=
  if !p.active then found
  else match loadPackage disk p.manifest.name with
    | some pkg => (match pkg.theme with
        | some theme => some theme
        | none => found.1, found.2 ++ pkg.widgets.map cleanWidget)
    | none => found

/-- The active theme and widgets: the last active theme wins, widgets accumulate. -/
def activeContent (disk : Disk) (index : InstalledIndex) : Option Theme × List Widget :=
  index.plugins.foldl (addActive disk) (none, [])

/-- The active palette, or none. -/
def applyTheme : Option Theme → Act Unit
  | some theme => do
      write activeThemePath (toVecPretty (themeToPalette theme))
      emit (.theme (themeToPalette theme))
  | none => do
      ignore (removeFile activeThemePath)
      emit (.theme .null)

/-- The active widgets. -/
def applyWidgets (widgets : List Widget) : Act Unit := do
  write activeWidgetsPath (toVecPretty (.arr (widgets.map Widget.toJson)))
  emit (.widgets widgets)

/-- Write what is active, and tell the terminal. -/
def applyActive (index : InstalledIndex) : Act Unit := fun world =>
  let found := activeContent world.disk index
  (applyTheme found.1 >>= fun _ => applyWidgets found.2) world

/-- The index in a response of the store, if it is one. -/
def readStoreIndex (response : Response) : Option StoreIndex :=
  ((readCapped response maxManifestBytes).toOption.bind fromSlice).bind StoreIndex.fromJson

/-- Fetch the index of the store; one that cannot be read is shown as empty. -/
def listStore (http : String → Except String Response) (store : String) : Act Unit := fun world =>
  match http (store ++ "/index") with
  | .error e =>
      emit (.error "store_unreachable" ("could not reach the plugin store: " ++ e)) world
  | .ok response =>
      emit (.storePlugins (((readStoreIndex response).getD ⟨[]⟩).plugins.map fun manifest =>
        manifestToValue manifest (loadInstalled world.disk))) world

/-- What comes of fetching a plugin: an error, a refusal the terminal is told, or a manifest and a
package that passed every check. -/
inductive Fetched where
  | failed (error : String)
  | refused (code message : String)
  | verified (dir : String) (manifest : Manifest) (bytes : Bytes)

/-- `http.get(url).send()` and `read_capped`. -/
def fetch (http : String → Except String Response) (url : String) (max : Nat) (what : String) :
    Except String Bytes :=
  match http url with
  | .error e => .error ("fetch " ++ what ++ ": " ++ e)
  | .ok response => (readCapped response max).mapError ("read " ++ what ++ ": " ++ ·)

/-- `serde_json::from_slice` into a record. -/
def parseRecord {α : Type} (what : String) (read : Json → Option α) (bytes : Bytes) :
    Except String α :=
  match (fromSlice bytes).bind read with
  | some record => .ok record
  | none => .error ("parse " ++ what ++ ": " ++ serdeError what bytes)

/-- The first part of `install`: everything before the first write. The name is trimmed. -/
def fetchPlugin (http : String → Except String Response) (store name : String) : Fetched :=
  match pluginDir name with
  | none => .refused "plugin_rejected" ("invalid plugin name " ++ debugText name)
  | some dir =>
      match fetch http (store ++ "/" ++ sanitize name ++ "/manifest") maxManifestBytes
          "manifest" with
      | .error e => .failed e
      | .ok manifestBytes =>
      match parseRecord "manifest" Manifest.fromJson manifestBytes with
      | .error e => .failed e
      | .ok manifest =>
      -- the answer is for the name that was asked for
      if trimmed manifest.name ≠ name then
        .refused "plugin_rejected" ("store returned a manifest for " ++
          debugText manifest.name ++ ", not " ++ debugText name)
      else match validatePermissions manifest.permissions with
      | .error e => .refused "plugin_rejected" (name ++ " requests unsafe permissions: " ++ e)
      | .ok _ =>
      match fetch http (store ++ "/" ++ sanitize name ++ "/package") maxPackageBytes "package" with
      | .error e => .failed e
      | .ok bytes =>
      if manifest.packageSha256 = "" then
        .refused "verify_failed" (name ++
          " has no package checksum — refusing to install an unverified plugin")
      else if sha256Hex bytes ≠ manifest.packageSha256 then
        .refused "verify_failed" ("package checksum mismatch for " ++ name ++
          " (expected " ++ manifest.packageSha256 ++ ", got " ++ sha256Hex bytes ++ ")")
      else match parseRecord "package" Package.fromJson bytes with
      | .error e => .failed e
      | .ok _ => .verified dir manifest bytes

/-- The index with a plugin recorded, in place of any earlier version. -/
def InstalledIndex.record (index : InstalledIndex) (manifest : Manifest) : InstalledIndex :=
  ⟨(index.plugins.filter fun p => p.manifest.name ≠ manifest.name) ++ [⟨manifest, true⟩]⟩

/-- What is installed. -/
def readIndex : Act InstalledIndex := fun world => (.ok (loadInstalled world.disk), world)

/-- How `install` and `remove` end: save the index, activate it, and tell the terminal. -/
def commit (index : InstalledIndex) (notices : List Event) : Act Unit := do
  saveInstalled index
  applyActive index
  notices.forM emit
  listInstalled

/-- The second part of `install`: persist the verified files, record the plugin, activate it. -/
def persist (dir : String) (manifest : Manifest) (bytes : Bytes) : Act Unit := do
  createDirAll dir
  writeIn dir "manifest.json" (toVecPretty manifest.toJson)
  writeIn dir "package.json" bytes
  let index ← readIndex
  commit (index.record manifest)
    [.pluginInstalled manifest.name manifest.version manifest.category,
      .info ("installed " ++ manifest.name ++ " v" ++ manifest.version ++ " (" ++
        manifest.category ++ ")")]

/-- Download, verify and install a plugin, then activate it. -/
def install (http : String → Except String Response) (store name : String) : Act Unit :=
  match fetchPlugin http store (trimmed name) with
  | .failed e => fail e
  | .refused code message => emit (.error code message)
  | .verified dir manifest bytes => persist dir manifest bytes

/-- The index without a plugin. -/
def InstalledIndex.without (index : InstalledIndex) (name : String) : InstalledIndex :=
  ⟨index.plugins.filter fun p => p.manifest.name ≠ name⟩

/-- Remove an installed plugin, and re-apply whatever remains active. -/
def remove (name : String) : Act Unit := do
  let before ← readIndex
  let index := before.without name
  if index.plugins.length = before.plugins.length then
    emit (.error "not_installed" (name ++ " is not installed"))
  else do
    match pluginDir name with
    | some dir => ignore (removeDirAll dir)
    | none => pure ()
    commit index [.info ("removed " ++ name)]

/-! ### Calls -/

/-- A command for the manager, with what the store answers during it. -/
inductive Call where
  | install (http : String → Except String Response) (store name : String)
  | remove (name : String)

/-- The world after a call. -/
def step (call : Call) (world : World) : World :=
  match call with
  | .install http store name => (install http store name world).2
  | .remove name => (remove name world).2

/-- A new directory. -/
def World.empty : World := { disk := ∅, events := [] }

end

end ChermPlugins
