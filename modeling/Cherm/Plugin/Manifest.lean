/-
**Plugins: names, permissions, manifests and packages.**

A plugin is two objects of the store, a manifest and a package. Here are the permissions a manifest
may declare, the directory a plugin's name stands for, and the records as serde reads and writes
them.

* `validatePermissions`: deny by default.
* `sanitize` and `pluginDir`: a name is folded to a path segment; white space around it is lost.
* `Manifest.fromJson` and the other readers; `installedIndex_roundTrip` for the local index.
-/

import Cherm.Client.Wire
import Cherm.Lib.Edges
import Cherm.Lib.JsonPretty

namespace ChermPlugins

open Cherm (Bytes utf8 fromUtf8 trim isTrimmed)
open Json

/-! ### Permissions -/

/-- The only permissions a plugin may ever hold. -/
def allowedPermissions : List String :=
  ["tui.theme", "tui.widget", "tui.statusbar", "tui.panel", "tui.renderer", "tui.command", "notify",
    "wallet.read.status", "wallet.read.address", "wallet.read.balance", "wallet.convert.fiat"]

/-- Capabilities a plugin may never request. -/
def forbiddenPermissions : List String :=
  ["wallet.read.seed", "wallet.read.privatekey", "wallet.read.privatekeys", "wallet.sign",
    "wallet.send", "wallet.broadcast", "wallet.write", "wallet.address.modify",
    "wallet.destination.modify", "wallet.fees.hide", "wallet.confirm", "wallet.confirm.modify",
    "wallet.core", "notify.bypass", "ui.system", "ui.official"]

/-- What is shown of a permission before an install. -/
def permissionHelp : String → String
  | "tui.theme" => "change the color theme"
  | "tui.widget" => "add a small TUI widget (clock / status indicator)"
  | "tui.statusbar" => "add an item to the status bar"
  | "tui.panel" => "add an optional side panel"
  | "tui.renderer" => "render custom previews for matching messages"
  | "tui.command" => "add a safe local-only utility command"
  | "notify" => "request notifications through the notification core"
  | "wallet.read.status" => "read-only: show whether a wallet is configured"
  | "wallet.read.address" => "read-only: show an approved public wallet address"
  | "wallet.read.balance" => "read-only: show an approved balance"
  | "wallet.convert.fiat" => "read-only: convert a visible balance to fiat"
  | _ => "unknown permission"

/-- `str::trim`. -/
def trimmed (text : String) : String := String.ofList (trim text.toList)

/-- One permission: every one must be on the list, and the reason for a refusal is the first that
applies. -/
def validatePermission (perm : String) : Except String Unit :=
  let p := trimmed perm
  if p ∈ forbiddenPermissions then
    .error ("permission '" ++ p ++ "' is forbidden for plugins (privileged/unsafe)")
  else if "wallet.".toList.isPrefixOf p.toList ∧ p ∉ allowedPermissions then
    .error ("wallet permission '" ++ p ++
      "' is not allowed — wallet access is read-only and limited")
  else if p ∉ allowedPermissions then .error ("permission '" ++ p ++ "' is not recognised")
  else .ok ()

/-- `validate_permissions`. -/
def validatePermissions (perms : List String) : Except String Unit :=
  perms.forM validatePermission

theorem validatePermission_ok {perm : String} :
    validatePermission perm = .ok () ↔ trimmed perm ∈ allowedPermissions := by
  have apart : ∀ p ∈ allowedPermissions, p ∉ forbiddenPermissions := by decide
  unfold validatePermission
  dsimp only
  constructor
  · intro accepted
    split at accepted
    · cases accepted
    · split at accepted
      · cases accepted
      · split at accepted
        · cases accepted
        · next allowed => exact not_not.mp allowed
  · intro allowed
    rw [if_neg (apart _ allowed), if_neg (fun wallet => wallet.2 allowed), if_neg (not_not.mpr allowed)]

/-- **Deny by default**: what is accepted is on the list. -/
theorem validatePermissions_ok {perms : List String} :
    validatePermissions perms = .ok () ↔ ∀ perm ∈ perms, trimmed perm ∈ allowedPermissions := by
  induction perms with
  | nil => exact ⟨fun _ => nofun, fun _ => rfl⟩
  | cons first rest ih =>
      rw [List.forall_mem_cons, ← ih, ← validatePermission_ok]
      show (validatePermission first >>= fun _ => rest.forM validatePermission) = .ok () ↔ _
      cases validatePermission first with
      | error e => exact ⟨nofun, fun both => absurd both.1 nofun⟩
      | ok _ => exact ⟨fun others => ⟨rfl, others⟩, fun both => both.2⟩

/-! ### Names -/

/-- A character that stays, in lower case. -/
def isKept (c : Char) : Bool := c.isAlphanum || c = '-' || c = '_' || c = '.'

/-- What becomes of a character of a name: lower case, or a dash. -/
def foldChar (c : Char) : Char := if isKept c then c.toLower else '-'

/-- The characters that are stripped from both ends. -/
def isEdge (c : Char) : Bool := c = '.' || c = '-' || c = '_'

/-- The text without the edges at both ends. -/
def strip (text : List Char) : List Char :=
  ((text.dropWhile isEdge).reverse.dropWhile isEdge).reverse

/-- A plugin's name as a path segment. -/
def sanitize (name : String) : String := String.ofList (strip (name.toList.map foldChar))

/-- The directory of a plugin, unless nothing is left of the name. -/
def pluginDir (name : String) : Option String :=
  if sanitize name = "" then none else some (sanitize name)

/-- No character that stays is white space. -/
theorem isTrimmed_kept {c : Char} (kept : isKept c = true) : isTrimmed c = false := by
  have bounds : 45 ≤ c.toNat ∧ c.toNat ≤ 122 := by
    delta isKept Char.isAlphanum Char.isAlpha Char.isUpper Char.isLower Char.isDigit at kept
    simp only [Bool.or_eq_true, Bool.and_eq_true, decide_eq_true_eq, ge_iff_le,
      UInt32.le_iff_toNat_le] at kept
    rcases kept with ((((⟨low, high⟩ | ⟨low, high⟩) | ⟨low, high⟩) | rfl) | rfl) | rfl
    · exact ⟨le_trans (by decide) low, le_trans high (by decide)⟩
    · exact ⟨le_trans (by decide) low, le_trans high (by decide)⟩
    · exact ⟨le_trans (by decide) low, le_trans high (by decide)⟩
    · decide
    · decide
    · decide
  have notBlank : c ≠ ' ' := by
    rintro rfl
    exact absurd bounds (by decide)
  have notControl : ¬ c ≤ '\x0d' := by
    intro below
    have small : c.toNat ≤ 13 := below
    omega
  simp only [isTrimmed, Bool.or_eq_false_iff, Bool.and_eq_false_iff, decide_eq_false_iff_not]
  refine ⟨⟨⟨⟨⟨⟨⟨⟨⟨⟨notBlank, .inr notControl⟩, ?_⟩, ?_⟩, ?_⟩, ?_⟩, ?_⟩, ?_⟩, ?_⟩, ?_⟩, ?_⟩
  all_goals omega

theorem isEdge_foldChar {c : Char} (white : isTrimmed c = true) : isEdge (foldChar c) = true := by
  have folded : foldChar c = '-' := by
    rw [foldChar, if_neg]
    intro kept
    rw [isTrimmed_kept kept] at white
    cases white
  rw [folded]
  rfl

theorem strip_edges_append {edge text : List Char} (all : ∀ c ∈ edge, isEdge c = true) :
    strip (edge ++ text) = strip text := Edges.trim_append_left all

theorem strip_append_edges {text edge : List Char} (all : ∀ c ∈ edge, isEdge c = true) :
    strip (text ++ edge) = strip text := Edges.trim_append_right all

/-- **White space around a name does not matter for its directory.** -/
theorem sanitize_trimmed (name : String) : sanitize (trimmed name) = sanitize name := by
  obtain ⟨before, after, parts, left, right⟩ := Edges.trim_parts (p := isTrimmed) name.toList
  have edges : ∀ {white : List Char}, (∀ c ∈ white, isTrimmed c = true) →
      ∀ c ∈ white.map foldChar, isEdge c = true := by
    intro white all c member
    obtain ⟨d, inside, rfl⟩ := List.mem_map.mp member
    exact isEdge_foldChar (all d inside)
  have whole : strip (name.toList.map foldChar) = strip ((trim name.toList).map foldChar) := by
    conv_lhs => rw [parts, List.map_append, List.map_append]
    rw [strip_edges_append (edges left), strip_append_edges (edges right)]
    rfl
  rw [sanitize, sanitize, trimmed, String.toList_ofList, whole]

/-! ### Texts for the screen -/

/-- A control character: C0, DEL or C1. -/
def isControl (c : Char) : Bool := c.toNat < 0x20 || c.toNat = 0x7f || (0x80 ≤ c.toNat && c.toNat ≤ 0x9f)

/-- Strip a text of the store of what a terminal would obey, and bound its length. -/
def cleanDisplay (text : String) (max : Nat) : String :=
  String.ofList ((text.toList.filter fun c => !isControl c).take max)

/-- A hexadecimal digit. -/
def isHexDigit (b : UInt8) : Bool :=
  (48 ≤ b && b ≤ 57) || (65 ≤ b && b ≤ 70) || (97 ≤ b && b ≤ 102)

/-- A strict `#RRGGBB` colour, or the default. -/
def cleanHex (text default : String) : String :=
  match utf8 text with
  | 35 :: digits => if digits.length = 6 ∧ digits.all isHexDigit then text else default
  | _ => default

/-! ### The records -/

/-- A signed 64-bit integer. -/
abbrev I64 := { value : Int // -2 ^ 63 ≤ value ∧ value < 2 ^ 63 }

/-- A number of 64 bits. -/
def readI64 : Json → Option I64
  | .num value => if fits : -2 ^ 63 ≤ value ∧ value < 2 ^ 63 then some ⟨value, fits⟩ else none
  | _ => none

/-- A truth value. -/
def asBool : Json → Option Bool
  | .bool value => some value
  | _ => none

/-- A list of records. -/
def asAll {α : Type} (read : Json → Option α) : Json → Option (List α)
  | .arr values => values.mapM read
  | _ => none

/-- What is public about a plugin. -/
structure Manifest where
  name : String
  displayName : String
  version : String
  /-- theme, widget, renderer, command, panel or bundle -/
  kind : String
  /-- official, community_audited or community_unaudited -/
  category : String
  description : String
  author : String
  license : String
  sourceUrl : String
  permissions : List String
  minClient : String
  /-- Hex SHA-256 of the package. -/
  packageSha256 : String
  updatedTs : I64
deriving DecidableEq

/-- A declarative palette; an absent colour is the default's. -/
structure Theme where
  magenta : Option String
  pink : Option String
  dark : Option String
  white : Option String
  border : Option String
  muted : Option String
  green : Option String
  yellow : Option String
  red : Option String
deriving DecidableEq

/-- A declarative widget. -/
structure Widget where
  slot : String
  kind : String
  value : Option String
  format : Option String
deriving DecidableEq

/-- The payload of a plugin. -/
structure Package where
  theme : Option Theme
  widgets : List Widget
deriving DecidableEq

/-- The index of the store. -/
structure StoreIndex where
  plugins : List Manifest
deriving DecidableEq

/-- One installed plugin. -/
structure Installed where
  manifest : Manifest
  active : Bool
deriving DecidableEq

/-- `installed.json`. -/
structure InstalledIndex where
  plugins : List Installed
deriving DecidableEq

/-- The derived `Deserialize`: a name and a version are required. -/
def Manifest.fromJson (value : Json) : Option Manifest := do
  let fields ← value.asFields ["name", "display_name", "version", "kind", "category",
    "description", "author", "license", "source_url", "permissions", "min_client",
    "package_sha256", "updated_ts"]
  let name ← fields.required "name" asStr
  let displayName ← fields.orDefault "display_name" asStr ""
  let version ← fields.required "version" asStr
  let kind ← fields.orDefault "kind" asStr ""
  let category ← fields.orDefault "category" asStr ""
  let description ← fields.orDefault "description" asStr ""
  let author ← fields.orDefault "author" asStr ""
  let license ← fields.orDefault "license" asStr ""
  let sourceUrl ← fields.orDefault "source_url" asStr ""
  let permissions ← fields.orDefault "permissions" asStrs []
  let minClient ← fields.orDefault "min_client" asStr ""
  let packageSha256 ← fields.orDefault "package_sha256" asStr ""
  let updatedTs ← fields.orDefault "updated_ts" readI64 ⟨0, by decide⟩
  return { name, displayName, version, kind, category, description, author, license, sourceUrl,
           permissions, minClient, packageSha256, updatedTs }

/-- The derived `Serialize`. -/
def Manifest.toJson (manifest : Manifest) : Json := .obj [
  ("name", .str manifest.name),
  ("display_name", .str manifest.displayName),
  ("version", .str manifest.version),
  ("kind", .str manifest.kind),
  ("category", .str manifest.category),
  ("description", .str manifest.description),
  ("author", .str manifest.author),
  ("license", .str manifest.license),
  ("source_url", .str manifest.sourceUrl),
  ("permissions", .arr (manifest.permissions.map .str)),
  ("min_client", .str manifest.minClient),
  ("package_sha256", .str manifest.packageSha256),
  ("updated_ts", .num manifest.updatedTs)]

/-- The derived `Deserialize`: any colour may be absent. -/
def Theme.fromJson (value : Json) : Option Theme := do
  let fields ← value.asFields ["magenta", "pink", "dark", "white", "border", "muted", "green",
    "yellow", "red"]
  let magenta ← fields.orDefault "magenta" (asOption asStr) none
  let pink ← fields.orDefault "pink" (asOption asStr) none
  let dark ← fields.orDefault "dark" (asOption asStr) none
  let white ← fields.orDefault "white" (asOption asStr) none
  let border ← fields.orDefault "border" (asOption asStr) none
  let muted ← fields.orDefault "muted" (asOption asStr) none
  let green ← fields.orDefault "green" (asOption asStr) none
  let yellow ← fields.orDefault "yellow" (asOption asStr) none
  let red ← fields.orDefault "red" (asOption asStr) none
  return { magenta, pink, dark, white, border, muted, green, yellow, red }

/-- The derived `Deserialize`: the slot and the kind are required. -/
def Widget.fromJson (value : Json) : Option Widget := do
  let fields ← value.asFields ["slot", "kind", "value", "format"]
  let slot ← fields.required "slot" asStr
  let kind ← fields.required "kind" asStr
  let text ← fields.orDefault "value" (asOption asStr) none
  let format ← fields.orDefault "format" (asOption asStr) none
  return { slot, kind, value := text, format }

/-- Absent fields are skipped. -/
def Widget.toJson (widget : Widget) : Json := .obj <|
  [("slot", .str widget.slot), ("kind", .str widget.kind)] ++
    (widget.value.map fun text => ("value", Json.str text)).toList ++
    (widget.format.map fun text => ("format", Json.str text)).toList

/-- The derived `Deserialize`: a theme and widgets may be absent. -/
def Package.fromJson (value : Json) : Option Package := do
  let fields ← value.asFields ["theme", "widgets"]
  let theme ← fields.orDefault "theme" (asOption Theme.fromJson) none
  let widgets ← fields.orDefault "widgets" (asAll Widget.fromJson) []
  return { theme, widgets }

/-- The derived `Deserialize`. -/
def StoreIndex.fromJson (value : Json) : Option StoreIndex := do
  let fields ← value.asFields ["plugins"]
  let plugins ← fields.orDefault "plugins" (asAll Manifest.fromJson) []
  return { plugins }

/-- The derived `Serialize`. -/
def StoreIndex.toJson (index : StoreIndex) : Json :=
  .obj [("plugins", .arr (index.plugins.map Manifest.toJson))]

/-- The derived `Deserialize`. -/
def Installed.fromJson (value : Json) : Option Installed := do
  let fields ← value.asFields ["manifest", "active"]
  let manifest ← fields.required "manifest" Manifest.fromJson
  let active ← fields.orDefault "active" asBool false
  return { manifest, active }

/-- The derived `Serialize`. -/
def Installed.toJson (installed : Installed) : Json :=
  .obj [("manifest", installed.manifest.toJson), ("active", .bool installed.active)]

/-- The derived `Deserialize`. -/
def InstalledIndex.fromJson (value : Json) : Option InstalledIndex := do
  let fields ← value.asFields ["plugins"]
  let plugins ← fields.orDefault "plugins" (asAll Installed.fromJson) []
  return { plugins }

/-- The derived `Serialize`. -/
def InstalledIndex.toJson (index : InstalledIndex) : Json :=
  .obj [("plugins", .arr (index.plugins.map Installed.toJson))]

/-! ### Reading what was written -/

theorem asAll_map {α : Type} {read : Json → Option α} {write : α → Json} (values : List α)
    (each : ∀ value ∈ values, read (write value) = some value) :
    asAll read (.arr (values.map write)) = some values := by
  show (values.map write).mapM read = some values
  induction values with
  | nil => rfl
  | cons first rest ih =>
      rw [List.map_cons, List.mapM_cons, each first List.mem_cons_self,
        ih fun value member => each value (List.mem_cons_of_mem first member)]
      rfl

section

variable {α β : Type} {fields : Fields} {key : String} {read : Json → Option α} {default value : α}
  {found : Json} {rest : α → Option β}

theorem required_bind (is : fields.named key = [found]) (reads : read found = some value) :
    (fields.required key read >>= rest) = rest value := by
  rw [Fields.required, is]
  show (read found >>= rest) = _
  rw [reads]
  rfl

theorem orDefault_bind (is : fields.named key = [found]) (reads : read found = some value) :
    (fields.orDefault key read default >>= rest) = rest value := by
  rw [Fields.orDefault, is]
  show (read found >>= rest) = _
  rw [reads]
  rfl

end

theorem Manifest.fromJson_toJson (manifest : Manifest) :
    Manifest.fromJson manifest.toJson = some manifest := by
  have fits : readI64 (.num manifest.updatedTs) = some manifest.updatedTs := by
    rw [readI64, dif_pos manifest.updatedTs.2]
  unfold fromJson
  rw [toJson, asFields, Option.bind_eq_bind, Option.bind_some]
  refine Eq.trans (required_bind rfl rfl) ?_
  refine Eq.trans (orDefault_bind rfl rfl) ?_
  refine Eq.trans (required_bind rfl rfl) ?_
  refine Eq.trans (orDefault_bind rfl rfl) ?_
  refine Eq.trans (orDefault_bind rfl rfl) ?_
  refine Eq.trans (orDefault_bind rfl rfl) ?_
  refine Eq.trans (orDefault_bind rfl rfl) ?_
  refine Eq.trans (orDefault_bind rfl rfl) ?_
  refine Eq.trans (orDefault_bind rfl rfl) ?_
  refine Eq.trans (orDefault_bind rfl (asStrs_texts manifest.permissions)) ?_
  refine Eq.trans (orDefault_bind rfl rfl) ?_
  refine Eq.trans (orDefault_bind rfl rfl) ?_
  exact orDefault_bind rfl fits

theorem StoreIndex.fromJson_toJson (index : StoreIndex) :
    StoreIndex.fromJson index.toJson = some index := by
  have all := asAll_map index.plugins fun manifest _ => manifest.fromJson_toJson
  simp [fromJson, toJson, asFields, Fields.orDefault, Fields.named, all]

theorem Installed.fromJson_toJson (installed : Installed) :
    Installed.fromJson installed.toJson = some installed := by
  simp [fromJson, toJson, asFields, Fields.required, Fields.orDefault, Fields.named, asBool,
    Manifest.fromJson_toJson]

theorem InstalledIndex.fromJson_toJson (index : InstalledIndex) :
    InstalledIndex.fromJson index.toJson = some index := by
  have all := asAll_map index.plugins fun installed _ => installed.fromJson_toJson
  simp [fromJson, toJson, asFields, Fields.orDefault, Fields.named, all]

/-! ### What is written is exact, and shallow -/

theorem Manifest.toJson_exact (manifest : Manifest) : manifest.toJson.Exact := by
  refine .obj (by simp) ?_
  simp only [List.forall_mem_cons]
  refine ⟨.str _, .str _, .str _, .str _, .str _, .str _, .str _, .str _, .str _, .arr ?_, .str _,
    .str _, .num ?_, nofun⟩
  · intro value member
    obtain ⟨text, _, rfl⟩ := List.mem_map.mp member
    exact .str text
  · exact ⟨manifest.updatedTs.2.1, lt_trans manifest.updatedTs.2.2 (by decide)⟩

theorem Manifest.toJson_within (manifest : Manifest) (depth : Nat) :
    manifest.toJson.Within (depth + 3) := by
  simp only [toJson, Within, List.forall_mem_cons, List.forall_mem_map]
  exact ⟨trivial, trivial, trivial, trivial, trivial, trivial, trivial, trivial, trivial,
    fun _ _ => trivial, trivial, trivial, trivial, nofun⟩

theorem StoreIndex.toJson_within (index : StoreIndex) (depth : Nat) :
    index.toJson.Within (depth + 5) := by
  simp only [toJson, Within, List.forall_mem_singleton, List.forall_mem_map]
  exact fun manifest _ => manifest.toJson_within depth

theorem InstalledIndex.toJson_exact (index : InstalledIndex) : index.toJson.Exact := by
  refine .obj (by simp) (List.forall_mem_singleton.mpr (.arr fun value member => ?_))
  obtain ⟨installed, _, rfl⟩ := List.mem_map.mp member
  refine .obj (by simp) ?_
  simp only [List.forall_mem_cons]
  exact ⟨installed.manifest.toJson_exact, .bool _, nofun⟩

theorem InstalledIndex.toJson_within (index : InstalledIndex) (depth : Nat) :
    index.toJson.Within (depth + 6) := by
  simp only [toJson, Within, List.forall_mem_singleton, List.forall_mem_map]
  intro installed _
  simp only [Installed.toJson, Within, List.forall_mem_cons]
  exact ⟨installed.manifest.toJson_within depth, trivial, nofun⟩

end ChermPlugins
