/-
**What an installed plugin makes active.**

The permissions are in the manifest, the content is in the package, and nothing compares the two.
So a palette or a widget becomes active with the permission for it as long as every package that is
installed has only what its manifest declares, and, for widgets, as long as no plugin that lacks the
permission has the same directory.

* `activeContent_eq`: the palette is the last one of the active packages, the widgets are all.
* `step_events`: what the terminal is told is that, of the directory a call leaves.
* `step_declares`, `plugins_declare`: the invariant, and the result for runs.
-/

import Cherm.Proof.PluginDirs

namespace ChermPlugins

open Cherm (Bytes utf8 fromUtf8)
open Crates Act

theorem utf8_of_fromUtf8 {bytes : Bytes} {text : String} (read : fromUtf8 bytes = some text) :
    utf8 text = bytes := by
  unfold fromUtf8 String.fromUTF8? at read
  split at read
  · obtain rfl := Option.some.inj read
    rfl
  · cases read

/-- The last palette, with the plugin it comes from. -/
def paletteFrom (loaded : List (Installed × Package)) : Option (Installed × Theme) :=
  (loaded.filterMap fun entry => entry.2.theme.map fun theme => (entry.1, theme)).getLast?

theorem paletteFrom_cons (entry : Installed × Package) (rest : List (Installed × Package)) :
    paletteFrom (entry :: rest) =
      (paletteFrom rest <|> entry.2.theme.map fun theme => (entry.1, theme)) := by
  unfold paletteFrom
  rw [List.filterMap_cons]
  cases shape : entry.2.theme with
  | none => simp
  | some theme =>
      simp only [Option.map_some]
      rw [List.getLast?_cons]
      cases (rest.filterMap fun entry => entry.2.theme.map fun theme => (entry.1, theme)).getLast?
      · rfl
      · rfl

def widgetsFrom (loaded : List (Installed × Package)) : List Widget :=
  loaded.flatMap fun entry => entry.2.widgets.map cleanWidget

theorem widgetsFrom_cons (entry : Installed × Package) (rest : List (Installed × Package)) :
    widgetsFrom (entry :: rest) = entry.2.widgets.map cleanWidget ++ widgetsFrom rest :=
  List.flatMap_cons

theorem readToStringIn_iff {disk : Disk} {dir name text : String} :
    disk.readToStringIn dir name = some text ↔
      ∃ files, disk.get dir = some (.dir files) ∧ (files.get name).bind fromUtf8 = some text := by
  unfold Disk.readToStringIn
  constructor
  · intro read
    split at read
    · next files isDir => exact ⟨files, isDir, read⟩
    · cases read
  · rintro ⟨files, isDir, read⟩
    rw [isDir]
    exact read

theorem write_events (name : String) (bytes : Bytes) (world : World) :
    (write name bytes world).2.events = world.events := by
  unfold write
  split <;> rfl

theorem removeFile_events (name : String) (world : World) :
    (removeFile name world).2.events = world.events := by
  unfold removeFile
  split <;> rfl

/-- The palette that is told: none at all, where no theme is active. -/
def paletteOf : Option Theme → Json
  | some theme => themeToPalette theme
  | none => .null

/-- The palette is told, unless it cannot be written. -/
theorem applyTheme_events (theme : Option Theme) (world : World) :
    (∃ e world', applyTheme theme world = (.error e, world') ∧ world'.events = world.events) ∨
      ∃ world', applyTheme theme world = (.ok (), world') ∧
        world'.events = world.events ++ [.theme (paletteOf theme)] := by
  cases theme with
  | none =>
      refine .inr ⟨_, rfl, ?_⟩
      show (removeFile activeThemePath world).2.events ++ _ = _
      rw [removeFile_events]
      rfl
  | some theme =>
      have silent := write_events activeThemePath (toVecPretty (themeToPalette theme)) world
      rcases ran : write activeThemePath (toVecPretty (themeToPalette theme)) world with
        ⟨result, world'⟩
      rw [ran] at silent
      cases result with
      | error e => exact .inl ⟨e, world', run_error ran, silent⟩
      | ok value =>
          refine .inr ⟨_, run_ok ran, ?_⟩
          show world'.events ++ _ = _
          rw [silent]
          rfl

theorem applyWidgets_events (widgets : List Widget) (world : World) :
    (∃ e world', applyWidgets widgets world = (.error e, world') ∧
        world'.events = world.events) ∨
      ∃ world', applyWidgets widgets world = (.ok (), world') ∧
        world'.events = world.events ++ [.widgets widgets] := by
  have silent := write_events activeWidgetsPath
    (toVecPretty (.arr (widgets.map Widget.toJson))) world
  rcases ran : write activeWidgetsPath (toVecPretty (.arr (widgets.map Widget.toJson))) world with
    ⟨result, world'⟩
  rw [ran] at silent
  cases result with
  | error e => exact .inl ⟨e, world', run_error ran, silent⟩
  | ok value =>
      refine .inr ⟨_, run_ok ran, ?_⟩
      show world'.events ++ _ = _
      rw [silent]

theorem forM_emit_run (notices : List Event) (world : World) :
    notices.forM emit world = (.ok (), { world with events := world.events ++ notices }) := by
  induction notices generalizing world with
  | nil => exact Prod.ext rfl (by rw [List.append_nil]; rfl)
  | cons first rest ih =>
      have one : emit first world =
          (.ok (), { world with events := world.events ++ [first] }) := rfl
      refine (run_ok one).trans ((ih _).trans ?_)
      rw [List.append_assoc]
      rfl

/-- The identifiers of the permissions the terminal shows of a manifest. -/
def shownPermissions (shown : Json) : List String :=
  match shown.index "permissions" with
  | .arr values => values.filterMap fun value => (value.index "id").asStr
  | _ => []

theorem shownPermissions_manifestToValue (manifest : Manifest) (installed : InstalledIndex) :
    shownPermissions (manifestToValue manifest installed) = manifest.permissions := by
  have shown : (manifestToValue manifest installed).index "permissions" =
      .arr (manifest.permissions.map fun p =>
        .obj [("help", .str (permissionHelp p)), ("id", .str p)]) := by
    simp [manifestToValue, Json.index]
  rw [shownPermissions, shown]
  dsimp only
  rw [List.filterMap_map]
  have each : ((fun value : Json => (value.index "id").asStr) ∘ fun p =>
      Json.obj [("help", .str (permissionHelp p)), ("id", .str p)]) = some := by
    funext p
    simp [Json.index, Json.asStr]
  rw [each, List.filterMap_some]

section

variable [Crates]

/-! ### The active content -/

/-- The active plugins whose package can be read, with it. -/
def activePackages (disk : Disk) (plugins : List Installed) : List (Installed × Package) :=
  plugins.filterMap fun p =>
    if p.active then (loadPackage disk p.manifest.name).map fun pkg => (p, pkg) else none

/-- **The loop of `apply_active`**: the last palette wins, widgets accumulate. -/
theorem activeContent_eq (disk : Disk) (index : InstalledIndex) :
    activeContent disk index =
      ((paletteFrom (activePackages disk index.plugins)).map Prod.snd,
        widgetsFrom (activePackages disk index.plugins)) := by
  have loop : ∀ (plugins : List Installed) (found : Option Theme × List Widget),
      plugins.foldl (addActive disk) found =
        ((paletteFrom (activePackages disk plugins)).map Prod.snd <|> found.1,
          found.2 ++ widgetsFrom (activePackages disk plugins)) := by
    intro plugins
    induction plugins with
    | nil => exact fun found => Prod.ext rfl (List.append_nil _).symm
    | cons p rest ih =>
        intro found
        rw [List.foldl_cons, ih]
        unfold activePackages
        rw [List.filterMap_cons]
        unfold addActive
        cases active : p.active with
        | false => rfl
        | true =>
            cases loaded : loadPackage disk p.manifest.name with
            | none => rfl
            | some pkg =>
                simp only [Bool.not_true, Bool.false_eq_true, if_false, if_true, Option.map_some]
                rw [paletteFrom_cons, widgetsFrom_cons]
                refine Prod.ext ?_ ?_
                · cases paletteFrom (rest.filterMap _) with
                  | some last => rfl
                  | none => cases pkg.theme <;> rfl
                · exact List.append_assoc _ _ _
  have whole := loop index.plugins (none, [])
  rw [activeContent, whole]
  refine Prod.ext ?_ (List.nil_append _)
  cases paletteFrom (activePackages disk index.plugins) <;> rfl

/-! ### What depends on the directories only -/

/-- A package is read from a directory. -/
theorem loadPackage_iff {disk : Disk} {name : String} {pkg : Package} :
    loadPackage disk name = some pkg ↔ ∃ dir files text, pluginDir name = some dir ∧
      disk.get dir = some (.dir files) ∧ (files.get "package.json").bind fromUtf8 = some text ∧
      (fromStr text).bind Package.fromJson = some pkg := by
  show ((pluginDir name).bind fun dir => (disk.readToStringIn dir "package.json").bind fun text =>
    (fromStr text).bind Package.fromJson) = some pkg ↔ _
  simp only [Option.bind_eq_some_iff, readToStringIn_iff]
  constructor
  · rintro ⟨dir, place, text, ⟨files, isDir, read⟩, parsed⟩
    exact ⟨dir, files, text, place, isDir, read, parsed⟩
  · rintro ⟨dir, files, text, place, isDir, read, parsed⟩
    exact ⟨dir, place, text, ⟨files, isDir, read⟩, parsed⟩

theorem loadPackage_congr {disk disk' : Disk} {name : String}
    (same : ∀ dir files, pluginDir name = some dir →
      (disk'.get dir = some (.dir files) ↔ disk.get dir = some (.dir files))) :
    loadPackage disk' name = loadPackage disk name := by
  refine Option.ext fun pkg => ?_
  rw [loadPackage_iff, loadPackage_iff]
  constructor
  · rintro ⟨dir, files, text, place, isDir, rest⟩
    exact ⟨dir, files, text, place, (same dir files place).mp isDir, rest⟩
  · rintro ⟨dir, files, text, place, isDir, rest⟩
    exact ⟨dir, files, text, place, (same dir files place).mpr isDir, rest⟩

theorem activePackages_congr {disk disk' : Disk} (same : SameData disk disk')
    (plugins : List Installed) : activePackages disk' plugins = activePackages disk plugins := by
  unfold activePackages
  refine List.filterMap_congr fun p _ => ?_
  rw [loadPackage_congr fun dir files _ => same.dirs dir files]

theorem activeContent_congr {disk disk' : Disk} (same : SameData disk disk')
    (index : InstalledIndex) : activeContent disk' index = activeContent disk index := by
  rw [activeContent_eq, activeContent_eq, activePackages_congr same]

/-! ### What the terminal is told -/

/-- What is active in a directory. -/
def contentOf (disk : Disk) : Option Theme × List Widget :=
  activeContent disk (loadInstalled disk)

/-- The installed plugins, as the terminal is told of them. -/
def installedValues (disk : Disk) : List Json :=
  (loadInstalled disk).plugins.map fun i => setField "installed" (.bool true)
    (setField "active" (.bool i.active) (manifestToValue i.manifest (loadInstalled disk)))

/-- What is told of active content. -/
def contentEvents (found : Option Theme × List Widget) : List Event :=
  [.theme (paletteOf found.1), .widgets found.2]

/-- What is told of a directory, and of the call that leaves it. -/
def eventsOf (disk : Disk) (notices : List Event) : List Event :=
  contentEvents (contentOf disk) ++ (notices ++ [.installedPlugins (installedValues disk)])

/-- **What a call tells at its end**: a part, from the first on, of what is told of the directory it
leaves. -/
theorem commit_events (index : InstalledIndex) (notices : List Event) (world : World) :
    ∃ new, new <+: eventsOf (commit index notices world).2.disk notices ∧
      (commit index notices world).2.events = world.events ++ new := by
  rcases commit_disk index notices world with ⟨⟨files, taken⟩, _⟩ | ⟨free, same⟩
  · exact ⟨[], List.nil_prefix, by rw [commit_taken index notices taken, List.append_nil]⟩
  have found : activeContent (world.saved index).disk index =
      contentOf (commit index notices world).2.disk := by
    rw [contentOf, (SameData.saved free same).1, activeContent_congr same]
  have ends := commit_free index notices free
  have active : applyActive index (world.saved index) =
      (applyTheme (activeContent (world.saved index).disk index).1 >>= fun _ =>
        applyWidgets (activeContent (world.saved index).disk index).2) (world.saved index) := rfl
  rw [found] at active
  unfold eventsOf
  generalize contentOf (commit index notices world).2.disk = content at active ⊢
  rcases applyTheme_events content.1 (world.saved index) with
    ⟨e, last, ran, told⟩ | ⟨mid, ran, told⟩
  · have failed := ends.trans (run_error (active.trans (run_error ran)))
    refine ⟨[], List.nil_prefix, ?_⟩
    rw [failed, List.append_nil]
    exact told
  rcases applyWidgets_events content.2 mid with ⟨e, last, ran', told'⟩ | ⟨last, ran', told'⟩
  · have failed := ends.trans (run_error (active.trans ((run_ok ran).trans ran')))
    refine ⟨[.theme (paletteOf content.1)], ⟨_, rfl⟩, ?_⟩
    rw [failed]
    exact told'.trans told
  · have finished : commit index notices world =
        listInstalled { last with events := last.events ++ notices } :=
      ends.trans ((run_ok (active.trans ((run_ok ran).trans ran'))).trans
        (run_ok (forM_emit_run notices last)))
    rw [finished]
    refine ⟨_, List.prefix_refl _, ?_⟩
    show last.events ++ notices ++ [.installedPlugins (installedValues last.disk)] = _
    rw [told', told]
    simp only [contentEvents, List.append_assoc, List.cons_append, List.nil_append]
    rfl

/-- **All a call tells**: nothing, one error, or a part of what is told of the directory it
leaves. -/
inductive Told (call : Call) (world : World) : List Event → Prop
  | nothing : Told call world []
  | refused {http : String → Except String Response} {store name code message : String} :
      call = .install http store name →
      fetchPlugin http store (trimmed name) = .refused code message →
      Told call world [.error code message]
  | absent {name : String} : call = .remove name →
      Told call world [.error "not_installed" (name ++ " is not installed")]
  | installed {http : String → Except String Response} {store name dir : String}
      {manifest : Manifest} {bytes : Bytes} {new : List Event} :
      call = .install http store name →
      fetchPlugin http store (trimmed name) = .verified dir manifest bytes →
      new <+: eventsOf (step call world).disk (installNotices manifest) → Told call world new
  | removed {name : String} {new : List Event} : call = .remove name →
      new <+: eventsOf (step call world).disk [.info ("removed " ++ name)] → Told call world new

theorem install_failed {http : String → Except String Response} {store name e : String}
    (fetched : fetchPlugin http store (trimmed name) = .failed e) :
    install http store name = fail e := by
  unfold install
  rw [fetched]

theorem install_refused {http : String → Except String Response} {store name code message : String}
    (fetched : fetchPlugin http store (trimmed name) = .refused code message) :
    install http store name = emit (.error code message) := by
  unfold install
  rw [fetched]

theorem install_verified {http : String → Except String Response} {store name dir : String}
    {manifest : Manifest} {bytes : Bytes}
    (fetched : fetchPlugin http store (trimmed name) = .verified dir manifest bytes) :
    install http store name = persist dir manifest bytes := by
  unfold install
  rw [fetched]

theorem step_told (call : Call) (world : World) :
    ∃ new, (step call world).events = world.events ++ new ∧ Told call world new := by
  cases call with
  | remove name =>
      rcases remove_runs name world with ⟨_, ran⟩ | ⟨_, mid, events, _, _, ran⟩
      · refine ⟨[.error "not_installed" (name ++ " is not installed")], ?_, .absent rfl⟩
        show (remove name world).2.events = _
        rw [ran]
        rfl
      · obtain ⟨new, part, told⟩ := commit_events ((loadInstalled world.disk).without name)
          [.info ("removed " ++ name)] mid
        rw [← ran] at part told
        exact ⟨new, told.trans (by rw [events]), .removed rfl part⟩
  | install http store name =>
      have ends : step (.install http store name) world = (install http store name world).2 := rfl
      cases fetched : fetchPlugin http store (trimmed name) with
      | failed e =>
          refine ⟨[], ?_, .nothing⟩
          rw [ends, install_failed fetched, List.append_nil]
          rfl
      | refused code message =>
          refine ⟨[.error code message], ?_, .refused rfl fetched⟩
          rw [ends, install_refused fetched]
          rfl
      | verified dir manifest bytes =>
          have same : step (.install http store name) world =
              (persist dir manifest bytes world).2 := by rw [ends, install_verified fetched]
          rcases persist_runs dir manifest bytes world with ⟨_, failed⟩ |
            ⟨_, files, mid, events, _, ran⟩
          · refine ⟨[], ?_, .nothing⟩
            rw [same, failed, List.append_nil]
          · obtain ⟨new, part, told⟩ := commit_events ((loadInstalled mid.disk).record manifest)
              (installNotices manifest) mid
            rw [← ran] at part told
            rw [← same] at part told
            exact ⟨new, told.trans (by rw [events]), .installed rfl fetched part⟩

/-- A palette or a list of widgets that is told is the one found. -/
def Tells (found : Option Theme × List Widget) : Event → Prop
  | .theme palette => palette = match found.1 with
      | some theme => themeToPalette theme
      | none => .null
  | .widgets widgets => widgets = found.2
  | _ => True

theorem eventsOf_tells (disk : Disk) {notices : List Event}
    (others : ∀ event ∈ notices, Tells (contentOf disk) event) :
    ∀ event ∈ eventsOf disk notices, Tells (contentOf disk) event := by
  refine List.forall_mem_append.mpr ⟨?_, List.forall_mem_append.mpr ⟨others, ?_⟩⟩
  · refine List.forall_mem_cons.mpr ⟨?_, List.forall_mem_singleton.mpr rfl⟩
    show paletteOf _ = _
    cases (contentOf disk).1 <;> rfl
  · exact List.forall_mem_singleton.mpr trivial

/-- **What the terminal is told of palettes and widgets** is what is active in the directory the
call leaves. -/
theorem step_events (call : Call) (world : World) :
    ∃ new, (step call world).events = world.events ++ new ∧
      ∀ event ∈ new, Tells (contentOf (step call world).disk) event := by
  obtain ⟨new, events, told⟩ := step_told call world
  refine ⟨new, events, ?_⟩
  cases told with
  | nothing => exact fun event member => absurd member List.not_mem_nil
  | refused => exact List.forall_mem_singleton.mpr trivial
  | absent => exact List.forall_mem_singleton.mpr trivial
  | @installed _ _ _ _ manifest _ _ _ _ part =>
      have notices : ∀ event ∈ installNotices manifest,
          Tells (contentOf (step call world).disk) event :=
        List.forall_mem_cons.mpr ⟨trivial, List.forall_mem_singleton.mpr trivial⟩
      exact fun event member => eventsOf_tells _ notices event (part.subset member)
  | @removed name _ _ part =>
      have notices : ∀ event ∈ [Event.info ("removed " ++ name)],
          Tells (contentOf (step call world).disk) event := List.forall_mem_singleton.mpr trivial
      exact fun event member => eventsOf_tells _ notices event (part.subset member)

/-! ### Declared permissions -/

/-- A plugin lists a permission: among those that were validated, and those that are shown. -/
def Lists (perm : String) (p : Installed) (installed : InstalledIndex) : Prop :=
  validatePermissions p.manifest.permissions = .ok () ∧ perm ∈ p.manifest.permissions ∧
    perm ∈ shownPermissions (manifestToValue p.manifest installed)

/-- Every palette and every widget a call makes active comes from a plugin that lists the
permission for it. -/
structure Declared (disk : Disk) (new : List Event) : Prop where
  palette : ∀ palette, .theme palette ∈ new → palette ≠ .null →
    ∃ p theme, p ∈ (loadInstalled disk).plugins ∧ palette = themeToPalette theme ∧
      paletteFrom (activePackages disk (loadInstalled disk).plugins) = some (p, theme) ∧
      Lists "tui.theme" p (loadInstalled disk)
  widgets : ∀ widgets, .widgets widgets ∈ new →
    widgets = widgetsFrom (activePackages disk (loadInstalled disk).plugins) ∧
    ∀ p pkg, (p, pkg) ∈ activePackages disk (loadInstalled disk).plugins → pkg.widgets ≠ [] →
      p ∈ (loadInstalled disk).plugins ∧ Lists "tui.widget" p (loadInstalled disk)

def DeclaredAfter (call : Call) (world : World) : Prop :=
  Declared (step call world).disk ((step call world).events.drop world.events.length)

/-- The package has a theme, or widgets, only with the permission in its manifest; and with widgets
the permission is in the manifest of whoever has the same directory. -/
def Fetched.Declares (fetched : Fetched) (installed : List Installed) : Prop :=
  match fetched with
  | .failed _ | .refused _ _ => True
  | .verified _ manifest bytes => ∀ pkg, (fromSlice bytes).bind Package.fromJson = some pkg →
      (pkg.theme.isSome → "tui.theme" ∈ manifest.permissions) ∧
      (pkg.widgets ≠ [] → "tui.widget" ∈ manifest.permissions ∧
        ∀ p ∈ installed, p.manifest.name ≠ manifest.name →
          pluginDir p.manifest.name = pluginDir manifest.name →
          "tui.widget" ∈ p.manifest.permissions)

def Declares (call : Call) (world : World) : Prop :=
  match call with
  | .remove _ => True
  | .install http store name =>
      (fetchPlugin http store (trimmed name)).Declares (loadInstalled world.disk).plugins

/-! ### The invariant -/

/-- A package with a theme has the permission for it, or a later plugin has the same directory. -/
def Covered (disk : Disk) : List Installed → Prop
  | [] => True
  | p :: rest => (∀ pkg, loadPackage disk p.manifest.name = some pkg → pkg.theme.isSome →
      "tui.theme" ∈ p.manifest.permissions ∨
        ∃ q ∈ rest, pluginDir q.manifest.name = pluginDir p.manifest.name) ∧ Covered disk rest

/-- The invariant of the index and what is in the directories. -/
structure Permitted (disk : Disk) : Prop where
  valid : ∀ p ∈ (loadInstalled disk).plugins,
    validatePermissions p.manifest.permissions = .ok () ∧ p.active = true
  widgets : ∀ p ∈ (loadInstalled disk).plugins, ∀ pkg,
    loadPackage disk p.manifest.name = some pkg → pkg.widgets ≠ [] →
      "tui.widget" ∈ p.manifest.permissions
  theme : Covered disk (loadInstalled disk).plugins

theorem mem_activePackages {disk : Disk} {plugins : List Installed} {p : Installed}
    {pkg : Package} : (p, pkg) ∈ activePackages disk plugins ↔
      p ∈ plugins ∧ p.active = true ∧ loadPackage disk p.manifest.name = some pkg := by
  unfold activePackages
  rw [List.mem_filterMap]
  constructor
  · rintro ⟨q, member, found⟩
    split at found
    · next active =>
      obtain ⟨pkg', loaded, same⟩ := Option.map_eq_some_iff.mp found
      obtain ⟨rfl, rfl⟩ := Prod.mk.inj same
      exact ⟨member, active, loaded⟩
    · cases found
  · rintro ⟨member, active, loaded⟩
    exact ⟨p, member, by rw [if_pos active, loaded]; rfl⟩

/-- One directory, one package. -/
theorem loadPackage_same {disk : Disk} {name name' : String}
    (same : pluginDir name = pluginDir name') : loadPackage disk name = loadPackage disk name' := by
  unfold loadPackage
  rw [same]

/-- **Whoever the palette comes from lists the permission.** -/
theorem Covered.palette {disk : Disk} {plugins : List Installed} (covered : Covered disk plugins)
    (active : ∀ p ∈ plugins, p.active = true) {p : Installed} {theme : Theme}
    (last : paletteFrom (activePackages disk plugins) = some (p, theme)) :
    p ∈ plugins ∧ "tui.theme" ∈ p.manifest.permissions := by
  induction plugins with
  | nil => cases last
  | cons first rest ih =>
      have later : paletteFrom (activePackages disk rest) = some (p, theme) →
          p ∈ first :: rest ∧ "tui.theme" ∈ p.manifest.permissions := by
        intro last
        obtain ⟨member, listed⟩ := ih covered.2
          (fun q member => active q (List.mem_cons_of_mem first member)) last
        exact ⟨List.mem_cons_of_mem first member, listed⟩
      cases loaded : loadPackage disk first.manifest.name with
      | none =>
          have skipped : activePackages disk (first :: rest) = activePackages disk rest := by
            unfold activePackages
            rw [List.filterMap_cons, if_pos (active first List.mem_cons_self), loaded]
            rfl
          exact later (skipped ▸ last)
      | some pkg =>
          have shape : activePackages disk (first :: rest) =
              (first, pkg) :: activePackages disk rest := by
            unfold activePackages
            rw [List.filterMap_cons, if_pos (active first List.mem_cons_self), loaded]
            rfl
          rw [shape, paletteFrom_cons] at last
          cases found : paletteFrom (activePackages disk rest) with
          | some entry =>
              rw [found] at last
              exact later (found.trans last)
          | none =>
              rw [found] at last
              obtain ⟨theme', has, same⟩ := Option.map_eq_some_iff.mp last
              obtain ⟨rfl, rfl⟩ := Prod.mk.inj same
              refine ⟨List.mem_cons_self, ?_⟩
              rcases covered.1 pkg loaded (by rw [has]; rfl) with listed | ⟨q, member, place⟩
              · exact listed
              · -- a later plugin of the directory has the theme too, so this is not the last
                have qLoaded : loadPackage disk q.manifest.name = some pkg := by
                  rw [loadPackage_same place, loaded]
                have inside : (q, pkg) ∈ activePackages disk rest := mem_activePackages.mpr
                  ⟨member, active q (List.mem_cons_of_mem first member), qLoaded⟩
                have none := List.getLast?_eq_none_iff.mp found
                have entry : (q, theme') ∈ (activePackages disk rest).filterMap
                    fun entry => entry.2.theme.map fun theme => (entry.1, theme) :=
                  List.mem_filterMap.mpr ⟨(q, pkg), inside, by rw [has]; rfl⟩
                rw [none] at entry
                cases entry

/-- What is dropped from the list may not be what covers another. -/
theorem Covered.filter {disk disk' : Disk} {plugins extra : List Installed}
    (covered : Covered disk plugins) {keep : Installed → Bool}
    (each : ∀ p ∈ plugins, keep p = true →
      (∃ q ∈ extra, pluginDir q.manifest.name = pluginDir p.manifest.name) ∨
        ∀ pkg, loadPackage disk' p.manifest.name = some pkg →
          loadPackage disk p.manifest.name = some pkg ∧
          ∀ q, pluginDir q.manifest.name = pluginDir p.manifest.name → keep q = true)
    (last : Covered disk' extra) : Covered disk' (plugins.filter keep ++ extra) := by
  induction plugins with
  | nil => exact last
  | cons first rest ih =>
      have later := ih covered.2 fun p member => each p (List.mem_cons_of_mem first member)
      cases kept : keep first with
      | false => rwa [List.filter_cons_of_neg (by rw [kept]; nofun)]
      | true =>
          rw [List.filter_cons_of_pos kept, List.cons_append]
          refine ⟨fun pkg loaded has => ?_, later⟩
          rcases each first List.mem_cons_self kept with ⟨q, member, place⟩ | same
          · exact .inr ⟨q, List.mem_append_right _ member, place⟩
          · obtain ⟨before, keeps⟩ := same pkg loaded
            refine (covered.1 pkg before has).imp_right fun ⟨q, member, place⟩ => ?_
            exact ⟨q, List.mem_append_left _ (List.mem_filter.mpr ⟨member, keeps q place⟩), place⟩

theorem permitted_empty {disk : Disk} (none : loadInstalled disk = ⟨[]⟩) : Permitted disk := by
  refine ⟨?_, ?_, ?_⟩
  · intro p member
    rw [none] at member
    cases member
  · intro p member
    rw [none] at member
    cases member
  · rw [none]
    trivial

/-- In a permitted directory, what is told is declared. -/
theorem Permitted.declared {disk : Disk} (permitted : Permitted disk) {new : List Event}
    (told : ∀ event ∈ new, Tells (contentOf disk) event) : Declared disk new := by
  have lists : ∀ {perm : String} {p : Installed}, p ∈ (loadInstalled disk).plugins →
      perm ∈ p.manifest.permissions → Lists perm p (loadInstalled disk) := by
    intro perm p member listed
    refine ⟨(permitted.valid p member).1, listed, ?_⟩
    rw [shownPermissions_manifestToValue]
    exact listed
  refine ⟨fun palette member present => ?_, fun widgets member => ?_⟩
  · have is := told _ member
    rw [contentOf, activeContent_eq] at is
    unfold Tells at is
    dsimp only at is
    cases last : paletteFrom (activePackages disk (loadInstalled disk).plugins) with
    | none =>
        rw [last] at is
        exact absurd is present
    | some entry =>
        obtain ⟨p, theme⟩ := entry
        rw [last] at is
        obtain ⟨member, listed⟩ := permitted.theme.palette
          (fun p member => (permitted.valid p member).2) last
        exact ⟨p, theme, member, is, rfl, lists member listed⟩
  · have is := told _ member
    rw [contentOf, activeContent_eq] at is
    refine ⟨is, fun p pkg inside present => ?_⟩
    obtain ⟨member, _, loaded⟩ := mem_activePackages.mp inside
    exact ⟨member, lists member (permitted.widgets p member pkg loaded present)⟩

/-! ### The two calls -/

/-- What is read from the new directory is the package that was checked. -/
theorem loadPackage_new {disk : Disk} {name dir : String} {files : Table String Bytes}
    {manifest : Manifest} {bytes : Bytes} {pkg : Package} (place : pluginDir name = some dir)
    (isDir : disk.get dir = some (.dir (newFiles files manifest bytes)))
    (loaded : loadPackage disk name = some pkg) :
    (fromSlice bytes).bind Package.fromJson = some pkg := by
  obtain ⟨dir', files', text, place', isDir', read, parsed⟩ := loadPackage_iff.mp loaded
  obtain rfl := Option.some.inj (place.symm.trans place')
  rw [isDir] at isDir'
  obtain rfl := Entry.dir.inj (Option.some.inj isDir')
  rw [newFiles, Table.get_put, if_pos rfl, Option.bind_some] at read
  rw [fromStr, utf8_of_fromUtf8 read] at parsed
  exact parsed

theorem persist_permitted {dir : String} {manifest : Manifest} {bytes : Bytes} {world : World}
    {name : String} (verified : Verified name dir manifest bytes) (permitted : Permitted world.disk)
    (declares : (Fetched.verified dir manifest bytes).Declares
      (loadInstalled world.disk).plugins) :
    Permitted (persist dir manifest bytes world).2.disk := by
  rcases persist_disk dir manifest bytes world with ⟨_, same⟩ |
    ⟨_, files, mid, gets, ⟨⟨taken, index⟩, same⟩ | ⟨notTaken, same⟩⟩
  · rw [same]
    exact permitted
  · rw [same]
    exact permitted_empty (loadInstalled_dir index)
  · have other : installedPath ≠ dir := by
      intro here
      exact notTaken _ ((gets installedPath).trans (if_pos here))
    have before : loadInstalled mid = loadInstalled world.disk :=
      loadInstalled_congr ((gets installedPath).trans (if_neg other))
    obtain ⟨index, dirs⟩ := same.saved notTaken
    rw [before] at index
    have isNew : (persist dir manifest bytes world).2.disk.get dir =
        some (.dir (newFiles files manifest bytes)) := by
      rw [dirs, gets, if_pos rfl]
    -- a package is the one that was checked, or where it was
    have cases' : ∀ p : Installed, ∀ pkg,
        loadPackage (persist dir manifest bytes world).2.disk p.manifest.name = some pkg →
          pluginDir p.manifest.name = some dir ∧ (fromSlice bytes).bind Package.fromJson =
          some pkg ∨
          pluginDir p.manifest.name ≠ some dir ∧
            loadPackage world.disk p.manifest.name = some pkg := by
      intro p pkg loaded
      by_cases place : pluginDir p.manifest.name = some dir
      · exact .inl ⟨place, loadPackage_new place isNew loaded⟩
      · refine .inr ⟨place, ?_⟩
        rw [← loaded]
        refine (loadPackage_congr fun dir' files' place' => ?_).symm
        rw [dirs, gets, if_neg]
        rintro rfl
        exact place place'
    refine ⟨?_, ?_, ?_⟩
    · intro p member
      rw [index, InstalledIndex.record] at member
      rcases List.mem_append.mp member with filtered | last
      · exact permitted.valid p (List.mem_filter.mp filtered).1
      · rw [List.mem_singleton.mp last]
        exact ⟨verified.permissions, rfl⟩
    · intro p member pkg loaded present
      rw [index, InstalledIndex.record] at member
      rcases List.mem_append.mp member with filtered | last
      · obtain ⟨member, different⟩ := List.mem_filter.mp filtered
        rcases cases' p pkg loaded with ⟨place, parsed⟩ | ⟨_, loaded⟩
        · exact ((declares pkg parsed).2 present).2 p member (of_decide_eq_true different)
            (place.trans verified.own.symm)
        · exact permitted.widgets p member pkg loaded present
      · obtain rfl := List.mem_singleton.mp last
        exact ((declares pkg (loadPackage_new verified.own isNew loaded)).2 present).1
    · rw [index, InstalledIndex.record]
      refine permitted.theme.filter (fun p member kept => ?_) ⟨fun pkg loaded has => ?_, trivial⟩
      · by_cases place : pluginDir p.manifest.name = some dir
        · exact .inl ⟨_, List.mem_singleton_self _, verified.own.trans place.symm⟩
        · refine .inr fun pkg loaded => ?_
          rcases cases' p pkg loaded with ⟨here, _⟩ | ⟨_, loaded⟩
          · exact absurd here place
          · refine ⟨loaded, fun q same => decide_eq_true fun named => place ?_⟩
            rw [← same, named, verified.own]
      · exact .inl ((declares pkg (loadPackage_new verified.own isNew loaded)).1 has)

theorem remove_permitted {name : String} {world : World} (permitted : Permitted world.disk) :
    Permitted (remove name world).2.disk := by
  rcases remove_disk name world with ⟨_, same⟩ |
    ⟨_, mid, gets, deleted, ⟨⟨taken, index⟩, same⟩ | ⟨notTaken, same⟩⟩
  · rw [same]
    exact permitted
  · rw [same]
    exact permitted_empty (loadInstalled_dir index)
  · obtain ⟨index, dirs⟩ := same.saved notTaken
    -- a package that is still there was there, in a directory that is not the removed one's
    have still : ∀ p : Installed, ∀ pkg,
        loadPackage (remove name world).2.disk p.manifest.name = some pkg →
          loadPackage world.disk p.manifest.name = some pkg ∧
            pluginDir name ≠ pluginDir p.manifest.name := by
      intro p pkg loaded
      obtain ⟨dir, files, text, place, isDir, rest⟩ := loadPackage_iff.mp loaded
      have inMid := (dirs dir files).mp isDir
      have other : pluginDir name ≠ some dir := fun here => deleted dir files here inMid
      rcases gets dir with kept | ⟨here, _⟩
      · refine ⟨loadPackage_iff.mpr ⟨dir, files, text, place, kept ▸ inMid, rest⟩, ?_⟩
        rwa [place]
      · exact absurd here other
    refine ⟨?_, ?_, ?_⟩
    · intro p member
      rw [index, InstalledIndex.without] at member
      exact permitted.valid p (List.mem_filter.mp member).1
    · intro p member pkg loaded present
      rw [index, InstalledIndex.without] at member
      exact permitted.widgets p (List.mem_filter.mp member).1 pkg (still p pkg loaded).1 present
    · rw [index, InstalledIndex.without, ← List.append_nil (List.filter _ _)]
      refine permitted.theme.filter (fun p _ _ => .inr fun pkg loaded => ?_) trivial
      obtain ⟨loaded, other⟩ := still p pkg loaded
      refine ⟨loaded, fun q same => decide_eq_true fun named => other ?_⟩
      rw [← same, named]

/-- **What a call preserves**, and with it what the call makes active. -/
theorem step_permitted (call : Call) (world : World) (permitted : Permitted world.disk)
    (declares : Declares call world) : Permitted (step call world).disk := by
  cases call with
  | remove name => exact remove_permitted permitted
  | install http store name =>
      unfold Declares at declares
      unfold step
      dsimp only at declares ⊢
      unfold install
      cases fetched : fetchPlugin http store (trimmed name) with
      | failed e => exact permitted
      | refused code message => exact permitted
      | verified dir manifest bytes =>
          rw [fetched] at declares
          exact persist_permitted (fetchPlugin_verified fetched) permitted declares

theorem Permitted.declaredAfter {call : Call} {world : World}
    (permitted : Permitted (step call world).disk) : DeclaredAfter call world := by
  obtain ⟨new, told, all⟩ := step_events call world
  unfold DeclaredAfter
  rw [told, List.drop_left]
  exact permitted.declared all

/-- **A plugin does only what it declared**, in every run in which each package that is installed
has a theme or widgets only with the permission. -/
theorem plugins_declare (calls : List Call)
    (declare : Steps.Each step Declares calls World.empty) :
    Steps.Each step DeclaredAfter calls World.empty :=
  (declare.keeps step_permitted (permitted_empty rfl)).mono fun _ _ kept => kept.2.2.declaredAfter

/-- A palette that is told, while the only plugin lacks the permission. -/
theorem undeclared_of_told {call : Call} {palette : Json} {p : Installed}
    (told : .theme palette ∈ (step call World.empty).events) (present : palette ≠ .null)
    (listed : loadInstalled (step call World.empty).disk = ⟨[p]⟩)
    (lacks : "tui.theme" ∉ p.manifest.permissions) :
    ¬ Steps.Each step DeclaredAfter [call] World.empty := by
  rintro ⟨declared, _⟩
  obtain ⟨q, theme, member, _, _, _, permitted, _⟩ := declared.palette palette told present
  rw [listed] at member
  rw [List.mem_singleton.mp member] at permitted
  exact lacks permitted

end

namespace Ideal

attribute [local instance] crates

/-- A theme that keeps every default colour. -/
def plainTheme : Theme := ⟨none, none, none, none, none, none, none, none, none⟩

theorem parsed_theme : (Crates.fromSlice (utf8 themePackage)).bind Package.fromJson =
    some ⟨some plainTheme, []⟩ := by
  have value : Crates.fromSlice (utf8 themePackage) = some (.obj [("theme", .obj [])]) := by
    decide +kernel
  rw [value]
  decide +kernel

theorem allowed_theme : validatePermissions ["tui.theme"] = .ok () := by
  refine validatePermissions_ok.mpr (List.forall_mem_singleton.mpr ?_)
  have plain : trimmed "tui.theme" = "tui.theme" := by decide +kernel
  rw [plain]
  exact List.mem_cons_self

theorem fetched_declared : fetchPlugin (answers "pastel" ["tui.theme"] themePackage) "store"
    (trimmed "pastel") = .verified "pastel" (manifest "pastel" ["tui.theme"] themePackage)
      (utf8 themePackage) :=
  fetchPlugin_answers (by decide +kernel) (by decide +kernel) allowed_theme
    (by decide +kernel) (by decide +kernel) (by decide +kernel) (by rw [parsed_theme]; rfl)
    (by decide +kernel)

/-- A theme that is declared is installed, and removed again. -/
theorem pastel_declares : Steps.Each step DeclaredAfter
    [installs "pastel" ["tui.theme"] themePackage, .remove "pastel"] World.empty := by
  refine plugins_declare _ ⟨?_, trivial, trivial⟩
  unfold Declares installs
  dsimp only
  rw [fetched_declared]
  intro pkg parsed
  rw [parsed_theme] at parsed
  obtain rfl := Option.some.inj parsed
  exact ⟨fun _ => List.mem_singleton_self _, fun widgets => absurd rfl widgets⟩

theorem fetched_undeclared : fetchPlugin (answers "pastel" [] themePackage) "store"
    (trimmed "pastel") = .verified "pastel" (manifest "pastel" [] themePackage)
      (utf8 themePackage) :=
  fetchPlugin_answers (by decide +kernel) (by decide +kernel) rfl (by decide +kernel)
    (by decide +kernel) (by decide +kernel) (by rw [parsed_theme]; rfl) (by decide +kernel)

/-- Its palette is told to the terminal. -/
theorem told_palette : Event.theme (themeToPalette plainTheme) ∈
    (persist "pastel" (manifest "pastel" [] themePackage) (utf8 themePackage)
      World.empty).2.events := by decide +kernel

/-- **A theme without the permission**: the manifest declares nothing, the package has a palette. -/
theorem undeclared_palette : ¬ Steps.Each step DeclaredAfter
    [installs "pastel" [] themePackage] World.empty := by
  have told := told_palette
  rw [← step_installs fetched_undeclared] at told
  exact undeclared_of_told told nofun (installed_first fetched_undeclared (by decide)) nofun

end Ideal

end ChermPlugins
