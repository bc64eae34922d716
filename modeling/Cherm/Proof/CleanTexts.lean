/-
**Control characters of the store.**

What the manager tells of a manifest goes through `clean_display`, and a palette has strict colours.
Other texts of the store reach the terminal as they are: `rawTexts` lists them.

* `Tidy`: what is kept of installed plugins is clean, wherever it is shown as it is.
* `after_tidy`: a request keeps that, if its raw texts are clean.
* `notices_clean`: so in a run in which all of them are, everything that is told is clean.
-/

import Cherm.Lib.Steps
import Cherm.Plugin.Texts
import Cherm.Proof.PluginContent

set_option linter.unusedSectionVars false

namespace ChermPlugins

open Cherm (Bytes utf8 fromUtf8)
open Crates Act

/-! ### Texts that are shown as they are -/

/-- The first permission that is refused. -/
def refusedPermission (perms : List String) : Option String :=
  perms.find? fun perm => trimmed perm ∉ allowedPermissions

/-- Of a plugin that is installed. -/
def installedTexts (manifest : Manifest) (pkg : Package) : List String :=
  manifest.name :: manifest.version :: manifest.category :: (manifest.permissions ++
    pkg.widgets.flatMap fun widget => [widget.slot, widget.kind])

section

variable [Crates] [Http]

/-- Of an install, by where it ends. -/
def installTexts (http : String → Except String Response) (store name : String) : List String :=
  match pluginDir name with
  | none => []
  | some _ =>
  match fetch http (store ++ "/" ++ sanitize name ++ "/manifest") maxManifestBytes "manifest" with
  | .error _ => []
  | .ok manifestBytes =>
  match parseRecord "manifest" Manifest.fromJson manifestBytes with
  | .error _ => []
  | .ok manifest =>
  if trimmed manifest.name ≠ name then []
  else match refusedPermission manifest.permissions with
  | some perm => [name, trimmed perm]
  | none =>
  match fetch http (store ++ "/" ++ sanitize name ++ "/package") maxPackageBytes "package" with
  | .error _ => []
  | .ok bytes =>
  if manifest.packageSha256 = "" then [name]
  else if sha256Hex bytes ≠ manifest.packageSha256 then [name, manifest.packageSha256]
  else match parseRecord "package" Package.fromJson bytes with
  | .error _ => []
  | .ok pkg => installedTexts manifest pkg

/-- Of a submission. -/
def submitTexts (manifest : Manifest) (reply : Except String Reply) : List String :=
  if manifest.name = "" ∨ manifest.version = "" then []
  else match refusedPermission manifest.permissions with
  | some perm => [trimmed perm]
  | none =>
  match reply with
  | .error e => [e]
  | .ok reply => if reply.isSuccess then [manifest.name, manifest.version] else [reply.text]

/-- The texts that a request shows as they are. -/
def Request.rawTexts (request : Request) (world : World) : List String :=
  match request with
  | .emitActive | .listInstalled => []
  | .listStore http store =>
      match http (store ++ "/index") with
      | .error e => [e]
      | .ok response => ((readStoreIndex response).getD ⟨[]⟩).plugins.flatMap Manifest.permissions
  | .call (.install http store name) => installTexts http store (trimmed name)
  | .call (.remove name) => [name]
  | .checkUpdates http store =>
      (outdated http store (loadInstalled world.disk)).flatMap fun entry =>
        [entry.2.version, entry.2.category]
  | .submit manifest reply => submitTexts manifest reply

/-! ### Refusals -/

theorem validatePermission_error {perm e : String} (refused : validatePermission perm = .error e)
    (clean : Clean (trimmed perm)) : Clean e := by
  unfold validatePermission at refused
  dsimp only at refused
  split_ifs at refused
  all_goals
    obtain rfl := Except.error.inj refused
    simp only [clean_append]
  · exact ⟨⟨clean_literal, clean⟩, clean_literal⟩
  · exact ⟨⟨clean_literal, clean⟩, clean_literal⟩
  · exact ⟨⟨clean_literal, clean⟩, clean_literal⟩

theorem refusedPermission_none {perms : List String} :
    refusedPermission perms = none ↔ validatePermissions perms = .ok () := by
  rw [validatePermissions_ok, refusedPermission, List.find?_eq_none]
  simp

/-- A refusal names the first permission that is refused. -/
theorem validatePermissions_error {perms : List String} {e : String}
    (refused : validatePermissions perms = .error e) :
    ∃ perm, refusedPermission perms = some perm ∧ (Clean (trimmed perm) → Clean e) := by
  induction perms with
  | nil => cases refused
  | cons first rest ih =>
      have refused : (validatePermission first >>= fun _ => rest.forM validatePermission) =
          .error e := refused
      unfold refusedPermission
      cases one : validatePermission first with
      | error e' =>
          rw [one] at refused
          obtain rfl := Except.error.inj refused
          have notAllowed : trimmed first ∉ allowedPermissions := by
            intro allowed
            rw [validatePermission_ok.mpr allowed] at one
            cases one
          refine ⟨first, ?_, validatePermission_error one⟩
          rw [List.find?_cons_of_pos (by simpa using notAllowed)]
      | ok value =>
          rw [one] at refused
          obtain ⟨perm, found, clean⟩ := ih refused
          refine ⟨perm, ?_, clean⟩
          rw [List.find?_cons_of_neg (by simpa using validatePermission_ok.mp one)]
          exact found

/-- How fetching a plugin ends, with the texts it has shown as they are. -/
inductive Ends (name : String) : Fetched → List String → Prop
  | failed (e : String) : Ends name (.failed e) []
  | invalid : Ends name (.refused "plugin_rejected" ("invalid plugin name " ++ debugText name)) []
  | another (manifest : Manifest) : Ends name (.refused "plugin_rejected"
      ("store returned a manifest for " ++ debugText manifest.name ++ ", not " ++
        debugText name)) []
  | forbidden {perm e : String} (clean : Clean (trimmed perm) → Clean e) :
      Ends name (.refused "plugin_rejected" (name ++ " requests unsafe permissions: " ++ e))
        [name, trimmed perm]
  | unverifiable : Ends name (.refused "verify_failed" (name ++
      " has no package checksum — refusing to install an unverified plugin")) [name]
  | mismatch (sha : String) (bytes : Bytes) : Ends name (.refused "verify_failed"
      ("package checksum mismatch for " ++ name ++ " (expected " ++ sha ++ ", got " ++
        sha256Hex bytes ++ ")")) [name, sha]
  | verified {dir : String} {manifest : Manifest} {bytes : Bytes} {pkg : Package}
      (parsed : (fromSlice bytes).bind Package.fromJson = some pkg) :
      Ends name (.verified dir manifest bytes) (installedTexts manifest pkg)

theorem fetchPlugin_ends (http : String → Except String Response) (store name : String) :
    Ends name (fetchPlugin http store name) (installTexts http store name) := by
  unfold fetchPlugin installTexts
  cases place : pluginDir name with
  | none => exact .invalid
  | some dir =>
  cases first : fetch http (store ++ "/" ++ sanitize name ++ "/manifest") maxManifestBytes
      "manifest" with
  | error e => exact .failed e
  | ok manifestBytes =>
  cases read : parseRecord "manifest" Manifest.fromJson manifestBytes with
  | error e =>
      simp only [read]
      exact .failed e
  | ok manifest =>
  simp only [read]
  by_cases named : trimmed manifest.name ≠ name
  · rw [if_pos named, if_pos named]
    exact .another manifest
  rw [if_neg named, if_neg named]
  cases valid : validatePermissions manifest.permissions with
  | error e =>
      obtain ⟨perm, found, clean⟩ := validatePermissions_error valid
      simp only [found]
      exact .forbidden clean
  | ok value =>
  simp only [refusedPermission_none.mpr valid]
  cases second : fetch http (store ++ "/" ++ sanitize name ++ "/package") maxPackageBytes
      "package" with
  | error e => exact .failed e
  | ok bytes =>
  dsimp only
  by_cases known : manifest.packageSha256 = ""
  · rw [if_pos known, if_pos known]
    exact .unverifiable
  rw [if_neg known, if_neg known]
  by_cases checksum : sha256Hex bytes ≠ manifest.packageSha256
  · rw [if_pos checksum, if_pos checksum]
    exact .mismatch _ bytes
  rw [if_neg checksum, if_neg checksum]
  cases third : parseRecord "package" Package.fromJson bytes with
  | error e => exact .failed e
  | ok pkg => exact .verified (parseRecord_iff.mp third)

/-- What the crates make of a text has no control characters. -/
structure Escapes : Prop where
  hex : ∀ bytes, Clean (sha256Hex bytes)
  status : ∀ code, Clean (Http.statusText code)

/-- What is refused is refused with a clean text. -/
theorem Ends.clean (escapes : Escapes) {name code message : String} {texts : List String}
    (ends : Ends name (.refused code message) texts) (clean : ∀ text ∈ texts, Clean text) :
    (Event.error code message).Clean := by
  cases ends with
  | invalid =>
      refine ⟨clean_literal, ?_⟩
      simp only [clean_append]
      exact ⟨clean_literal, clean_debugText name⟩
  | another manifest =>
      refine ⟨clean_literal, ?_⟩
      simp only [clean_append]
      exact ⟨⟨⟨clean_literal, clean_debugText _⟩, clean_literal⟩, clean_debugText name⟩
  | forbidden ofPerm =>
      simp only [List.forall_mem_cons] at clean
      refine ⟨clean_literal, ?_⟩
      simp only [clean_append]
      exact ⟨⟨clean.1, clean_literal⟩, ofPerm clean.2.1⟩
  | unverifiable =>
      simp only [List.forall_mem_cons] at clean
      refine ⟨clean_literal, ?_⟩
      simp only [clean_append]
      exact ⟨clean.1, clean_literal⟩
  | mismatch sha bytes =>
      simp only [List.forall_mem_cons] at clean
      refine ⟨clean_literal, ?_⟩
      simp only [clean_append]
      exact ⟨⟨⟨⟨⟨⟨clean_literal, clean.1⟩, clean_literal⟩, clean.2.1⟩, clean_literal⟩, escapes.hex bytes⟩,
        clean_literal⟩

/-! ### What is kept of installed plugins -/

/-- The manager's own files are those it writes, of clean widgets. -/
def Written (name : String) (bytes : Bytes) : Prop :=
  (name = activeThemePath → ∃ theme, bytes = toVecPretty (themeToPalette theme)) ∧
    (name = activeWidgetsPath → ∃ widgets : List Widget, (∀ widget ∈ widgets, widget.Clean) ∧
      bytes = toVecPretty (.arr (widgets.map Widget.toJson)))

def Filed (disk : Disk) : Prop := ∀ name bytes, disk.get name = some (.file bytes) →
  Written name bytes

/-- Every package in a directory has clean slots and kinds. -/
def Packed (disk : Disk) : Prop :=
  ∀ seg files bytes pkg, disk.get seg = some (.dir files) → files.get "package.json" = some bytes →
    (fromSlice bytes).bind Package.fromJson = some pkg →
    ∀ widget ∈ pkg.widgets, Clean widget.slot ∧ Clean widget.kind

/-- What is shown of an entry of the index as it is. -/
def Recorded (index : InstalledIndex) : Prop :=
  ∀ p ∈ index.plugins, Clean p.manifest.name ∧ Clean p.manifest.version ∧
    ∀ perm ∈ p.manifest.permissions, Clean perm

structure Tidy (disk : Disk) : Prop where
  filed : Filed disk
  packed : Packed disk
  recorded : Recorded (loadInstalled disk)

theorem tidy_empty : Tidy World.empty.disk := by
  refine ⟨fun name bytes is => ?_, fun seg files bytes pkg is => ?_, fun p member => ?_⟩
  · cases is
  · cases is
  · cases member

/-- The widgets that are active are clean. -/
theorem Packed.content {disk : Disk} (packed : Packed disk) (index : InstalledIndex) :
    ∀ widget ∈ (activeContent disk index).2, widget.Clean := by
  rw [activeContent_eq]
  intro widget member
  obtain ⟨⟨p, pkg⟩, loaded, inside⟩ := List.mem_flatMap.mp member
  obtain ⟨raw, ofPackage, rfl⟩ := List.mem_map.mp inside
  obtain ⟨_, _, read⟩ := mem_activePackages.mp loaded
  obtain ⟨seg, files, text, _, isDir, found, parsed⟩ := loadPackage_iff.mp read
  obtain ⟨bytes, isFile, decoded⟩ := Option.bind_eq_some_iff.mp found
  rw [fromStr, utf8_of_fromUtf8 decoded] at parsed
  obtain ⟨slot, kind⟩ := packed seg files bytes pkg isDir isFile parsed raw ofPackage
  refine ⟨slot, kind, fun text is => ?_, fun text is => ?_⟩
  · obtain ⟨value, _, rfl⟩ := Option.map_eq_some_iff.mp is
    exact clean_cleanDisplay value 256
  · obtain ⟨value, _, rfl⟩ := Option.map_eq_some_iff.mp is
    exact clean_cleanDisplay value 64

theorem Packed.of_dirs {disk disk' : Disk} (packed : Packed disk)
    (dirs : ∀ seg files, disk'.get seg = some (.dir files) → disk.get seg = some (.dir files)) :
    Packed disk' := fun seg files bytes pkg isDir => packed seg files bytes pkg (dirs seg files isDir)

/-! ### The manager's own files -/

/-- An action leaves files that are written so. -/
def KeepsFiled (disk disk' : Disk) : Prop := Filed disk → Filed disk'

theorem KeepsFiled.bind {α β : Type} {first : Act α} {next : α → Act β}
    (one : Does KeepsFiled first) (two : ∀ value, Does KeepsFiled (next value)) :
    Does KeepsFiled (first >>= next) :=
  Does.bind (fun first second filed => second (first filed)) one two

theorem Filed.put {disk : Disk} (filed : Filed disk) {name : String} {bytes : Bytes}
    (written : Written name bytes) : Filed (disk.put name (.file bytes)) := by
  intro other content is
  rw [Table.get_put] at is
  split at is
  · next same =>
    cases is
    exact same ▸ written
  · exact filed other content is

theorem write_filed {name : String} {bytes : Bytes} (written : Written name bytes) :
    Does KeepsFiled (write name bytes) := by
  intro world filed
  unfold write
  split
  · exact filed
  · exact filed.put written

theorem removeFile_filed (name : String) : Does KeepsFiled (ignore (removeFile name)) := by
  intro world filed
  show Filed (removeFile name world).2.disk
  unfold removeFile
  split
  · intro other content is
    rw [Table.get_erase] at is
    split at is
    · cases is
    · exact filed other content is
  · exact filed
  · exact filed

theorem emit_filed (event : Event) : Does KeepsFiled (emit event) := fun _ filed => filed

theorem forM_emit_filed (notices : List Event) : Does KeepsFiled (notices.forM emit) := by
  induction notices with
  | nil => exact fun _ filed => filed
  | cons first rest ih => exact KeepsFiled.bind (emit_filed first) fun _ => ih

theorem applyTheme_filed (theme : Option Theme) : Does KeepsFiled (applyTheme theme) := by
  cases theme with
  | none => exact KeepsFiled.bind (removeFile_filed _) fun _ => emit_filed _
  | some theme =>
      have written : Written activeThemePath (toVecPretty (themeToPalette theme)) :=
        ⟨fun _ => ⟨theme, rfl⟩, fun other => absurd other (by decide)⟩
      exact KeepsFiled.bind (write_filed written) fun _ => emit_filed _

theorem applyWidgets_filed {widgets : List Widget} (clean : ∀ widget ∈ widgets, widget.Clean) :
    Does KeepsFiled (applyWidgets widgets) := by
  have written : Written activeWidgetsPath (toVecPretty (.arr (widgets.map Widget.toJson))) :=
    ⟨fun other => absurd other (by decide), fun _ => ⟨widgets, clean, rfl⟩⟩
  exact KeepsFiled.bind (write_filed written) fun _ => emit_filed _

theorem commit_filed {index : InstalledIndex} (notices : List Event) {world : World}
    (filed : Filed world.disk)
    (clean : ∀ widget ∈ (activeContent (world.saved index).disk index).2, widget.Clean) :
    Filed (commit index notices world).2.disk := by
  by_cases taken : ∃ files, world.disk.get installedPath = some (.dir files)
  · obtain ⟨files, taken⟩ := taken
    rw [commit_taken index notices taken]
    exact filed
  · rw [commit_free index notices fun files is => taken ⟨files, is⟩]
    have written : Written installedPath (toVecPretty index.toJson) :=
      ⟨fun other => absurd other (by decide), fun other => absurd other (by decide)⟩
    have active : Filed (applyActive index (world.saved index)).2.disk :=
      KeepsFiled.bind (applyTheme_filed _) (fun _ => applyWidgets_filed clean) (world.saved index)
        (filed.put written)
    have rest : Does KeepsFiled (notices.forM emit >>= fun _ => listInstalled) :=
      KeepsFiled.bind (forM_emit_filed notices) fun _ world filed => filed
    rcases ran : applyActive index (world.saved index) with ⟨result, last⟩
    rw [ran] at active
    cases result with
    | ok value =>
        rw [run_ok ran]
        exact rest last active
    | error e =>
        rw [run_error ran]
        exact active

/-! ### Calls keep it -/

theorem commit_tidy {index : InstalledIndex} (notices : List Event) {world : World}
    (filed : Filed world.disk) (packed : Packed world.disk) (recorded : Recorded index) :
    Tidy (commit index notices world).2.disk := by
  have saved : Packed (world.saved index).disk := by
    refine packed.of_dirs fun seg files isDir => ?_
    have isDir : (world.disk.put installedPath (.file (toVecPretty index.toJson))).get seg =
        some (.dir files) := isDir
    rw [Table.get_put] at isDir
    split at isDir
    · cases isDir
    · exact isDir
  refine ⟨commit_filed notices filed (saved.content index), ?_, ?_⟩
  · rcases commit_disk index notices world with ⟨_, same⟩ | ⟨_, same⟩
    · rw [same]
      exact packed
    · exact saved.of_dirs fun seg files => (same.dirs seg files).mp
  · rcases commit_disk index notices world with ⟨⟨files, taken⟩, same⟩ | ⟨free, same⟩
    · rw [same, loadInstalled_dir taken]
      exact fun p member => absurd member List.not_mem_nil
    · rw [(SameData.saved free same).1]
      exact recorded

theorem persist_tidy {dir : String} {manifest : Manifest} {bytes : Bytes} {pkg : Package}
    {world : World} (tidy : Tidy world.disk)
    (parsed : (fromSlice bytes).bind Package.fromJson = some pkg)
    (clean : ∀ text ∈ installedTexts manifest pkg, Clean text) :
    Tidy (persist dir manifest bytes world).2.disk := by
  rcases persist_runs dir manifest bytes world with ⟨_, failed⟩ | ⟨_, files, mid, _, gets, ran⟩
  · rw [failed]
    exact tidy
  rw [ran]
  unfold installedTexts at clean
  simp only [List.forall_mem_cons, List.forall_mem_append, List.mem_flatMap,
    forall_exists_index, and_imp] at clean
  obtain ⟨name, version, _, permissions, widgets⟩ := clean
  refine commit_tidy _ (fun other content is => ?_) (fun seg files' content pkg' isDir found read => ?_)
    fun p member => ?_
  · rw [gets] at is
    split at is
    · cases is
    · exact tidy.filed other content is
  · rw [gets] at isDir
    split at isDir
    · cases isDir
      rw [newFiles, Table.get_put, if_pos rfl] at found
      obtain rfl := Option.some.inj found
      obtain rfl := Option.some.inj (parsed.symm.trans read)
      exact fun widget member => ⟨widgets _ widget member (by simp), widgets _ widget member (by simp)⟩
    · exact tidy.packed seg files' content pkg' isDir found read
  · rcases List.mem_append.mp member with kept | new
    · by_cases here : installedPath = dir
      · have isDir : mid.disk.get installedPath = some (.dir (newFiles files manifest bytes)) := by
          rw [gets, if_pos here]
        rw [loadInstalled_dir isDir] at kept
        cases kept
      · rw [loadInstalled_congr ((gets installedPath).trans (if_neg here))] at kept
        exact tidy.recorded p (List.mem_filter.mp kept).1
    · obtain rfl := List.mem_singleton.mp new
      exact ⟨name, version, permissions⟩

theorem remove_tidy {name : String} {world : World} (tidy : Tidy world.disk) :
    Tidy (remove name world).2.disk := by
  rcases remove_runs name world with ⟨_, ran⟩ | ⟨_, mid, _, gets, _, ran⟩
  · rw [ran]
    exact tidy
  rw [ran]
  refine commit_tidy _ (fun other content is => ?_) (tidy.packed.of_dirs fun seg files isDir => ?_)
    fun p member => tidy.recorded p (List.mem_filter.mp member).1
  · rcases gets other with same | ⟨_, gone⟩
    · exact tidy.filed other content (same ▸ is)
    · rw [gone] at is
      cases is
  · rcases gets seg with same | ⟨_, gone⟩
    · exact same ▸ isDir
    · rw [gone] at isDir
      cases isDir

/-- **A request keeps what is kept clean**, if its raw texts are. -/
theorem after_tidy {request : Request} {world : World} (tidy : Tidy world.disk)
    (clean : ∀ text ∈ request.rawTexts world, Clean text) : Tidy (request.after world).disk := by
  cases request with
  | emitActive => exact tidy
  | checkUpdates http store => exact tidy
  | submit manifest reply => exact tidy
  | listInstalled => exact tidy
  | listStore http store =>
      show Tidy (listStore http store world).2.disk
      unfold listStore
      split
      · exact tidy
      · exact tidy
  | call made =>
      cases made with
      | remove name => exact remove_tidy tidy
      | install http store name =>
          have ends := fetchPlugin_ends http store (trimmed name)
          have clean : ∀ text ∈ installTexts http store (trimmed name), Clean text := clean
          have after : (Request.call (.install http store name)).after world =
              (install http store name world).2 := rfl
          rw [after]
          cases fetched : fetchPlugin http store (trimmed name) with
          | failed e =>
              rw [install_failed fetched]
              exact tidy
          | refused code message =>
              rw [install_refused fetched]
              exact tidy
          | verified dir manifest bytes =>
              rw [install_verified fetched]
              rw [fetched] at ends
              generalize installTexts http store (trimmed name) = texts at ends clean
              cases ends with
              | verified parsed => exact persist_tidy tidy parsed clean

/-! ### What is told -/

theorem themeToPalette_exact (theme : Theme) : (themeToPalette theme).Exact := by
  refine .obj (by simp) ?_
  simp only [List.forall_mem_cons]
  exact ⟨.str _, .str _, .str _, .str _, .str _, .str _, .str _, .str _, .str _,
    fun _ member => by cases member⟩

theorem themeToPalette_within (theme : Theme) : (themeToPalette theme).Within 100 := by
  simp [themeToPalette, Json.Within]

theorem widget_exact (widget : Widget) : widget.toJson.Exact := by
  obtain ⟨slot, kind, value, format⟩ := widget
  cases value <;> cases format <;>
    exact .obj (by simp) (by simp [Json.Exact.str])

theorem widget_within (widget : Widget) : widget.toJson.Within 99 := by
  obtain ⟨slot, kind, value, format⟩ := widget
  cases value <;> cases format <;> simp [Widget.toJson, Json.Within]

theorem every_widget {widget : Widget} (clean : widget.Clean) : widget.toJson.Every Clean := by
  obtain ⟨slot, kind, value, format⟩ := widget
  have names : Clean "slot" ∧ Clean "kind" ∧ Clean "value" ∧ Clean "format" := by decide
  have first := Json.Every.str clean.slot
  have second := Json.Every.str clean.kind
  cases value with
  | none =>
      cases format with
      | none => exact .obj (by simp [names]) (by simp [first, second])
      | some format =>
          have last := Json.Every.str (clean.format format rfl)
          exact .obj (by simp [names]) (by simp [first, second, last])
  | some value =>
      have third := Json.Every.str (clean.value value rfl)
      cases format with
      | none => exact .obj (by simp [names]) (by simp [first, second, third])
      | some format =>
          have last := Json.Every.str (clean.format format rfl)
          exact .obj (by simp [names]) (by simp [first, second, third, last])

/-- A file that was written as a value is read as that value. -/
theorem readToString_written {disk : Disk} {name text : String} {value read : Json}
    (exact : value.Exact) (within : value.Within 100)
    (written : ∀ bytes, disk.get name = some (.file bytes) → bytes = toVecPretty value)
    (isText : disk.readToString name = some text) (parsed : fromStr text = some read) :
    read = value := by
  unfold Disk.readToString at isText
  split at isText
  · next bytes isFile =>
    rw [fromStr, utf8_of_fromUtf8 isText, written bytes isFile, fromSlice_pretty value exact within]
      at parsed
    exact (Option.some.inj parsed).symm
  · cases isText

theorem emitActive_clean {disk : Disk} (filed : Filed disk) :
    ∀ notice ∈ emitActive disk, notice.Clean := by
  have file : ∀ {name text : String}, disk.readToString name = some text →
      ∃ bytes, disk.get name = some (.file bytes) := by
    intro name text isText
    unfold Disk.readToString at isText
    split at isText
    · next bytes isFile => exact ⟨bytes, isFile⟩
    · cases isText
  intro notice member
  rcases List.mem_append.mp member with theme | widgets
  · obtain ⟨value, found, rfl⟩ := Option.map_eq_some_iff.mp (Option.mem_toList.mp theme)
    obtain ⟨text, isText, parsed⟩ := Option.bind_eq_some_iff.mp found
    obtain ⟨bytes, isFile⟩ := file isText
    obtain ⟨theme, rfl⟩ := (filed _ _ isFile).1 rfl
    have same := readToString_written (themeToPalette_exact theme) (themeToPalette_within theme)
      (fun other is => by rw [isFile] at is; cases is; rfl) isText parsed
    show value.Every Clean
    rw [same]
    exact every_themeToPalette theme
  · obtain ⟨value, found, rfl⟩ := Option.map_eq_some_iff.mp (Option.mem_toList.mp widgets)
    obtain ⟨text, isText, parsed⟩ := Option.bind_eq_some_iff.mp found
    obtain ⟨bytes, isFile⟩ := file isText
    obtain ⟨widgets, clean, rfl⟩ := (filed _ _ isFile).2 rfl
    have exact : (Json.arr (widgets.map Widget.toJson)).Exact := by
      refine .arr fun value member => ?_
      obtain ⟨widget, _, rfl⟩ := List.mem_map.mp member
      exact widget_exact widget
    have within : (Json.arr (widgets.map Widget.toJson)).Within 100 := by
      simp only [Json.Within, List.forall_mem_map]
      exact fun widget _ => widget_within widget
    have same := readToString_written exact within
      (fun other is => by rw [isFile] at is; cases is; rfl) isText parsed
    show value.Every Clean
    rw [same]
    refine .arr fun value member => ?_
    obtain ⟨widget, inside, rfl⟩ := List.mem_map.mp member
    exact every_widget (clean widget inside)

theorem installedValues_clean {disk : Disk} (recorded : Recorded (loadInstalled disk)) :
    ∀ value ∈ installedValues disk, value.Every Clean := by
  intro value member
  obtain ⟨p, inside, rfl⟩ := List.mem_map.mp member
  exact every_setField (by decide) (.bool true) (every_setField (by decide) (.bool p.active)
    (every_manifestToValue (recorded p inside).2.2))

/-- What is told of a tidy directory is clean, if what is told of the call is. -/
theorem eventsOf_clean {disk : Disk} (tidy : Tidy disk) {notices : List Event}
    (clean : ∀ event ∈ notices, event.Clean) : ∀ event ∈ eventsOf disk notices, event.Clean := by
  refine List.forall_mem_append.mpr ⟨?_, List.forall_mem_append.mpr ⟨clean, ?_⟩⟩
  · refine List.forall_mem_cons.mpr ⟨?_, List.forall_mem_singleton.mpr
      (tidy.packed.content (loadInstalled disk))⟩
    show (paletteOf (contentOf disk).1).Every Clean
    cases (contentOf disk).1 with
    | none => exact .null
    | some theme => exact every_themeToPalette theme
  · exact List.forall_mem_singleton.mpr (installedValues_clean tidy.recorded)

theorem call_clean (escapes : Escapes) {made : Call} {world : World} (tidy : Tidy world.disk)
    (clean : ∀ text ∈ (Request.call made).rawTexts world, Clean text) :
    ∀ event ∈ (step made world).events.drop world.events.length, event.Clean := by
  have after : Tidy (step made world).disk := after_tidy tidy clean
  obtain ⟨new, events, told⟩ := step_told made world
  rw [events, List.drop_left]
  cases told with
  | nothing => exact fun event member => absurd member List.not_mem_nil
  | @refused http store name code message is fetched =>
      subst is
      have ends := fetchPlugin_ends http store (trimmed name)
      rw [fetched] at ends
      exact List.forall_mem_singleton.mpr (ends.clean escapes clean)
  | @absent name is =>
      subst is
      have named : Clean name := clean name List.mem_cons_self
      refine List.forall_mem_singleton.mpr ⟨clean_literal, ?_⟩
      simp only [clean_append]
      exact ⟨named, clean_literal⟩
  | @removed name _ is part =>
      subst is
      have named : Clean name := clean name List.mem_cons_self
      have notices : ∀ event ∈ [Event.info ("removed " ++ name)], event.Clean :=
        List.forall_mem_singleton.mpr (clean_append.mpr ⟨clean_literal, named⟩)
      exact fun event member => eventsOf_clean after notices event (part.subset member)
  | @installed http store name dir manifest bytes _ is fetched part =>
      subst is
      have ends := fetchPlugin_ends http store (trimmed name)
      have clean : ∀ text ∈ installTexts http store (trimmed name), Clean text := clean
      rw [fetched] at ends
      generalize installTexts http store (trimmed name) = texts at ends clean
      cases ends with
      | verified parsed =>
          unfold installedTexts at clean
          simp only [List.forall_mem_cons] at clean
          obtain ⟨named, version, category, _⟩ := clean
          have notices : ∀ event ∈ installNotices manifest, event.Clean := by
            refine List.forall_mem_cons.mpr ⟨⟨named, version, category⟩,
              List.forall_mem_singleton.mpr ?_⟩
            show Clean _
            simp only [clean_append]
            exact ⟨⟨⟨⟨⟨⟨clean_literal, named⟩, clean_literal⟩, version⟩, clean_literal⟩, category⟩, clean_literal⟩
          exact fun event member => eventsOf_clean after notices event (part.subset member)

theorem listStore_failed {http : String → Except String Response} {store e : String}
    (answer : http (store ++ "/index") = .error e) (world : World) :
    (Request.listStore http store).notices world =
      [.event (.error "store_unreachable" ("could not reach the plugin store: " ++ e))] := by
  have told : (Request.listStore http store).after world = (emit (.error "store_unreachable"
      ("could not reach the plugin store: " ++ e)) world).2 := by
    simp [Request.after, listStore, answer]
  rw [Request.notices, told, emit, List.drop_left, List.map_singleton]

theorem listStore_read {http : String → Except String Response} {store : String}
    {response : Response} (answer : http (store ++ "/index") = .ok response) (world : World) :
    (Request.listStore http store).notices world =
      [.event (.storePlugins (((readStoreIndex response).getD ⟨[]⟩).plugins.map fun manifest =>
        manifestToValue manifest (loadInstalled world.disk)))] := by
  have told : (Request.listStore http store).after world = (emit (.storePlugins
      (((readStoreIndex response).getD ⟨[]⟩).plugins.map fun manifest =>
        manifestToValue manifest (loadInstalled world.disk))) world).2 := by
    simp [Request.after, listStore, answer]
  rw [Request.notices, told, emit, List.drop_left, List.map_singleton]

theorem listStore_clean {http : String → Except String Response} {store : String} {world : World}
    (clean : ∀ text ∈ (Request.listStore http store).rawTexts world, Clean text) :
    ∀ notice ∈ (Request.listStore http store).notices world, notice.Clean := by
  cases answer : http (store ++ "/index") with
  | error e =>
      simp only [Request.rawTexts, answer, List.forall_mem_singleton] at clean
      rw [listStore_failed answer]
      exact List.forall_mem_singleton.mpr ⟨clean_literal, clean_append.mpr ⟨clean_literal, clean⟩⟩
  | ok response =>
      simp only [Request.rawTexts, answer, List.mem_flatMap, forall_exists_index, and_imp] at clean
      rw [listStore_read answer]
      refine List.forall_mem_singleton.mpr fun value shown => ?_
      obtain ⟨manifest, ofIndex, rfl⟩ := List.mem_map.mp shown
      exact every_manifestToValue fun perm asked => clean perm manifest ofIndex asked

theorem listInstalled_clean {world : World} (tidy : Tidy world.disk) :
    ∀ notice ∈ Request.listInstalled.notices world, notice.Clean := by
  intro notice member
  obtain ⟨event, inside, rfl⟩ := List.mem_map.mp member
  have told : Request.listInstalled.after world =
      (emit (.installedPlugins (installedValues world.disk)) world).2 := rfl
  rw [told, emit, List.drop_left, List.mem_singleton] at inside
  subst inside
  exact installedValues_clean tidy.recorded

theorem checkUpdates_clean {http : String → Except String Response} {store : String} {world : World}
    (tidy : Tidy world.disk)
    (clean : ∀ text ∈ (Request.checkUpdates http store).rawTexts world, Clean text) :
    ∀ notice ∈ (Request.checkUpdates http store).notices world, notice.Clean := by
  refine List.forall_mem_append.mpr ⟨fun notice member => ?_, List.forall_mem_singleton.mpr ?_⟩
  · obtain ⟨⟨p, latest⟩, newer, rfl⟩ := List.mem_map.mp member
    have raw : Clean latest.version ∧ Clean latest.category := by
      have texts : ∀ text ∈ [latest.version, latest.category], Clean text :=
        fun text inside => clean text (List.mem_flatMap.mpr ⟨_, newer, inside⟩)
      simpa using texts
    obtain ⟨q, ofIndex, is⟩ := List.mem_filterMap.mp newer
    obtain ⟨manifest, _, is⟩ := Option.bind_eq_some_iff.mp is
    split at is
    · cases is
      obtain ⟨named, version, _⟩ := tidy.recorded p ofIndex
      exact ⟨named, version, raw.1, raw.2⟩
    · cases is
  · show Clean _
    split
    · decide
    · exact clean_append.mpr ⟨clean_toString _, clean_literal⟩

theorem submit_clean (escapes : Escapes) {manifest : Manifest} {reply : Except String Reply}
    (clean : ∀ text ∈ submitTexts manifest reply, Clean text) :
    ∀ notice ∈ submit manifest reply, notice.Clean := by
  unfold submitTexts at clean
  unfold submit
  split
  · exact List.forall_mem_singleton.mpr ⟨clean_literal, clean_literal⟩
  · next named =>
  rw [if_neg named] at clean
  cases valid : validatePermissions manifest.permissions with
  | error e =>
      obtain ⟨perm, found, ofPerm⟩ := validatePermissions_error valid
      simp only [found, List.forall_mem_singleton] at clean
      exact List.forall_mem_singleton.mpr ⟨clean_literal, clean_append.mpr ⟨clean_literal, ofPerm clean⟩⟩
  | ok value =>
  simp only [refusedPermission_none.mpr valid] at clean
  cases reply with
  | error e =>
      exact List.forall_mem_singleton.mpr
        ⟨clean_literal, clean_append.mpr ⟨clean_literal, clean e List.mem_cons_self⟩⟩
  | ok reply =>
  dsimp only at clean ⊢
  split
  · next success =>
    simp only [if_pos success, List.forall_mem_cons] at clean
    obtain ⟨name, version, _⟩ := clean
    refine List.forall_mem_cons.mpr ⟨⟨name, version, clean_literal⟩, List.forall_mem_singleton.mpr ?_⟩
    show Clean _
    simp only [clean_append]
    exact ⟨⟨⟨⟨clean_literal, name⟩, clean_literal⟩, version⟩, clean_literal⟩
  · next failure =>
    simp only [if_neg failure, List.forall_mem_singleton] at clean
    refine List.forall_mem_singleton.mpr ⟨clean_literal, ?_⟩
    simp only [clean_append]
    exact ⟨⟨⟨clean_literal, escapes.status _⟩, clean_literal⟩, clean⟩

/-- **What a request tells is clean**, if its raw texts are. -/
theorem request_clean (escapes : Escapes) {request : Request} {world : World}
    (tidy : Tidy world.disk) (clean : ∀ text ∈ request.rawTexts world, Clean text) :
    ∀ notice ∈ request.notices world, notice.Clean := by
  cases request with
  | emitActive => exact emitActive_clean tidy.filed
  | listStore http store => exact listStore_clean clean
  | listInstalled => exact listInstalled_clean tidy
  | call made =>
      intro notice member
      obtain ⟨event, inside, rfl⟩ := List.mem_map.mp member
      exact call_clean escapes tidy clean event inside
  | checkUpdates http store => exact checkUpdates_clean tidy clean
  | submit manifest reply => exact submit_clean escapes clean

/-- **Everything a run tells the terminal is clean**, if every text that is shown as it is was. -/
theorem notices_clean (escapes : Escapes) (requests : List Request)
    (plain : Steps.Each (fun request world => Request.after request world)
      (fun request world => ∀ text ∈ request.rawTexts world, Clean text) requests World.empty) :
    Steps.Each (fun request world => Request.after request world)
      (fun request world => ∀ notice ∈ request.notices world, notice.Clean) requests
      World.empty := by
  have kept : ∀ (request : Request) (world : World), Tidy world.disk →
      (∀ text ∈ request.rawTexts world, Clean text) → Tidy (request.after world).disk :=
    fun request world tidy clean => after_tidy tidy clean
  exact (plain.keeps kept tidy_empty).mono fun request world found =>
    request_clean escapes found.1 found.2.1

end

namespace Ideal

abbrev http : Http where
  statusText code := toString code ++ match code with
    | 404 => " Not Found"
    | 500 => " Internal Server Error"
    | _ => " <unknown status code>"

attribute [local instance] crates http

theorem escapes : Escapes := by
  refine ⟨fun bytes => ?_, fun code => ?_⟩
  · have known : ∀ pair ∈ digests, Clean pair.2 := by
      simp only [digests, List.forall_mem_cons, List.not_mem_nil, false_imp_iff, implies_true,
        and_true]
      exact ⟨clean_literal, clean_literal, clean_literal⟩
    show Clean (((fromUtf8 bytes).bind fun text => digests.lookup text).getD "")
    cases found : (fromUtf8 bytes).bind fun text => digests.lookup text with
    | none => decide
    | some digest =>
        obtain ⟨text, _, listed⟩ := Option.bind_eq_some_iff.mp found
        obtain ⟨before, after, whole, _⟩ := List.lookup_eq_some_iff.mp listed
        have member : (text, digest) ∈ digests := whole ▸ List.mem_append_cons_self
        exact known _ member
  · refine clean_append.mpr ⟨clean_toString code, ?_⟩
    split <;> decide

/-- A store that lists one plugin. -/
def lists (permissions : List String) (_ : String) : Except String Response :=
  .ok ⟨none, [.ok (toVecPretty (StoreIndex.toJson
    ⟨[manifest "pastel" permissions themePackage]⟩))]⟩

theorem readStoreIndex_lists {permissions : List String}
    (short : 4 * (Json.pretty 0 (StoreIndex.toJson
      ⟨[manifest "pastel" permissions themePackage]⟩)).length ≤ maxManifestBytes) :
    readStoreIndex ⟨none, [.ok (toVecPretty (StoreIndex.toJson
      ⟨[manifest "pastel" permissions themePackage]⟩))]⟩ =
        some ⟨[manifest "pastel" permissions themePackage]⟩ := by
  have exact : (StoreIndex.toJson ⟨[manifest "pastel" permissions themePackage]⟩).Exact :=
    .obj (by simp) (List.forall_mem_singleton.mpr
      (.arr (List.forall_mem_singleton.mpr (Manifest.toJson_exact _))))
  rw [readStoreIndex, readCapped_one (le_trans (length_toVecPretty_le _) short), Except.toOption,
    Option.bind_some, Crates.fromSlice_pretty _ exact (StoreIndex.toJson_within _ 95),
    Option.bind_some, StoreIndex.fromJson_toJson]

/-- A plugin is listed, installed, submitted in vain, and removed. -/
def visit : List Request := [.listStore (lists ["tui.theme"]) "store",
  .call (installs "pastel" ["tui.theme"] themePackage), .listInstalled,
  .submit (manifest "pastel" ["tui.theme"] themePackage) (.ok ⟨500, "try again"⟩),
  .call (.remove "pastel"), .emitActive]

theorem visit_clean : Steps.Each (fun request world => Request.after request world)
    (fun request world => ∀ notice ∈ request.notices world, notice.Clean) visit World.empty := by
  refine notices_clean escapes visit ⟨?_, ?_, ?_, ?_, ?_, ?_, trivial⟩
  · show ∀ text ∈ ((readStoreIndex _).getD ⟨[]⟩).plugins.flatMap Manifest.permissions, Clean text
    rw [readStoreIndex_lists (by decide +kernel)]
    decide
  · have ends := fetchPlugin_ends (answers "pastel" ["tui.theme"] themePackage) "store"
      (trimmed "pastel")
    rw [fetched_declared] at ends
    show ∀ text ∈ installTexts (answers "pastel" ["tui.theme"] themePackage) "store"
      (trimmed "pastel"), Clean text
    generalize installTexts _ "store" (trimmed "pastel") = texts at ends ⊢
    cases ends with
    | verified parsed =>
        obtain rfl := Option.some.inj (parsed_theme.symm.trans parsed)
        decide
  · exact fun text member => absurd member List.not_mem_nil
  · show ∀ text ∈ submitTexts (manifest "pastel" ["tui.theme"] themePackage)
      (.ok ⟨500, "try again"⟩), Clean text
    decide +kernel
  · show ∀ text ∈ ["pastel"], Clean text
    decide
  · exact fun text member => absurd member List.not_mem_nil

/-- **A permission that sets the title of the terminal** is in the list of the store. -/
theorem permission_escapes : ¬ Steps.Each (fun request world => Request.after request world)
    (fun request world => ∀ notice ∈ request.notices world, notice.Clean)
      [.listStore (lists ["\x1b]0;owned\x07"]) "store"] World.empty := by
  rintro ⟨clean, _⟩
  rw [listStore_read rfl, readStoreIndex_lists (by decide +kernel)] at clean
  have listed := clean _ List.mem_cons_self _ List.mem_cons_self
  have named := every_manifestToValue_iff.mp listed _ List.mem_cons_self
  exact absurd named (by decide)

end Ideal

end ChermPlugins
