/-
**Installed plugins and their directories.**

An entry of the index is found by its exact name, its directory by the folded one. As long as no
two installed plugins fold to one directory, each entry has the manifest and the package it was
installed with, and removing a plugin touches nothing of another.

* `SameData`: what the parts of a call that only activate leave as it is.
* `install_disk`, `remove_disk`: all a call can do to the directory.
* `corresponds_iff`: an install keeps the correspondence exactly if no installed plugin of another
  name has its directory.
-/

import Cherm.Plugin.Ideal
import Cherm.Lib.Steps

namespace ChermPlugins

open Cherm (Bytes utf8 fromUtf8)
open Crates Act

/-! ### Running an action -/

theorem run_ok {α β : Type} {first : Act α} {next : α → Act β} {world world' : World} {value : α}
    (ran : first world = (.ok value, world')) : (first >>= next) world = next value world' := by
  simp only [bind, ran]

theorem run_error {α β : Type} {first : Act α} {next : α → Act β} {world world' : World}
    {e : String} (ran : first world = (.error e, world')) :
    (first >>= next) world = (.error e, world') := by
  simp only [bind, ran]

/-- An action relates every directory to the one it leaves. -/
def Does (related : Disk → Disk → Prop) {α : Type} (act : Act α) : Prop :=
  ∀ world, related world.disk (act world).2.disk

theorem Does.bind {related : Disk → Disk → Prop} {α β : Type} {first : Act α} {next : α → Act β}
    (trans : ∀ {a b c}, related a b → related b c → related a c)
    (one : Does related first) (two : ∀ value, Does related (next value)) :
    Does related (first >>= next) := by
  intro world
  have here := one world
  rcases ran : first world with ⟨result, world'⟩
  rw [ran] at here
  cases result with
  | ok value =>
      rw [run_ok ran]
      exact trans here (two value world')
  | error e =>
      rw [run_error ran]
      exact here

/-! ### What activation leaves as it is -/

/-- The same directories, and the same index. -/
structure SameData (disk disk' : Disk) : Prop where
  dirs : ∀ seg files, disk'.get seg = some (.dir files) ↔ disk.get seg = some (.dir files)
  index : disk'.get installedPath = disk.get installedPath

theorem SameData.refl (disk : Disk) : SameData disk disk := ⟨fun _ _ => Iff.rfl, rfl⟩

theorem SameData.trans {a b c : Disk} (first : SameData a b) (second : SameData b c) :
    SameData a c :=
  ⟨fun seg files => (second.dirs seg files).trans (first.dirs seg files),
    second.index.trans first.index⟩

theorem SameData.bind {α β : Type} {first : Act α} {next : α → Act β}
    (one : Does SameData first) (two : ∀ value, Does SameData (next value)) :
    Does SameData (first >>= next) := Does.bind .trans one two

theorem SameData.symm {a b : Disk} (same : SameData a b) : SameData b a :=
  ⟨fun seg files => (same.dirs seg files).symm, same.index.symm⟩

/-- A file that is none of the index's may change in any way. -/
theorem sameData_file {disk disk' : Disk} {name : String} (other : name ≠ installedPath)
    (before : ∀ files, disk.get name ≠ some (.dir files))
    (after : ∀ files, disk'.get name ≠ some (.dir files))
    (rest : ∀ seg, seg ≠ name → disk'.get seg = disk.get seg) : SameData disk disk' := by
  refine ⟨fun seg files => ?_, rest _ other.symm⟩
  by_cases same : seg = name
  · subst same
    exact ⟨fun is => absurd is (after files), fun is => absurd is (before files)⟩
  · rw [rest seg same]

theorem emit_same (event : Event) : Does SameData (emit event) := fun world => .refl world.disk

theorem write_same {name : String} (other : name ≠ installedPath) (bytes : Bytes) :
    Does SameData (write name bytes) := by
  intro world
  unfold write
  split
  · exact .refl _
  · next notDir =>
    refine sameData_file other notDir (fun files => ?_) fun seg different => ?_
    · rw [Table.get_put, if_pos rfl]
      nofun
    · rw [Table.get_put, if_neg different]

theorem removeFile_same {name : String} (other : name ≠ installedPath) :
    Does SameData (removeFile name) := by
  intro world
  unfold removeFile
  split
  · next bytes isFile =>
    refine sameData_file other (fun files => ?_) (fun files => ?_) fun seg different => ?_
    · rw [isFile]
      nofun
    · rw [Table.get_erase, if_pos rfl]
      nofun
    · rw [Table.get_erase, if_neg different]
  · exact .refl _
  · exact .refl _

theorem ignore_same {act : Act Unit} (same : Does SameData act) : Does SameData (ignore act) :=
  same

theorem forM_emit_same (notices : List Event) : Does SameData (notices.forM emit) := by
  induction notices with
  | nil => exact fun world => .refl _
  | cons first rest ih => exact SameData.bind (emit_same first) fun _ => ih

/-- The directory is made and the two files are written, unless a file has its place. -/
theorem prepare {dir : String} (world : World) (bytes bytes' : Bytes)
    (free : ∀ content, world.disk.get dir ≠ some (.file content)) :
    ∃ (files : Table String Bytes) (world' : World), (∀ {next : Unit → Act Unit},
        (createDirAll dir >>= fun _ => writeIn dir "manifest.json" bytes >>= fun _ =>
          writeIn dir "package.json" bytes' >>= next) world = next () world') ∧
      world'.events = world.events ∧
      ∀ seg, world'.disk.get seg = if seg = dir then
        some (.dir ((files.put "manifest.json" bytes).put "package.json" bytes'))
        else world.disk.get seg := by
  have made : ∃ (files : Table String Bytes) (world' : World),
      createDirAll dir world = (.ok (), world') ∧ world'.events = world.events ∧
        world'.disk.get dir = some (.dir files) ∧
        ∀ seg, seg ≠ dir → world'.disk.get seg = world.disk.get seg := by
    cases place : world.disk.get dir with
    | none =>
        refine ⟨∅, { world with disk := world.disk.put dir (.dir ∅) }, ?_, rfl, ?_, ?_⟩
        · rw [createDirAll, place]
        · rw [Table.get_put, if_pos rfl]
        · exact fun seg other => by rw [Table.get_put, if_neg other]
    | some entry =>
        cases entry with
        | file content => exact absurd place (free content)
        | dir files =>
            refine ⟨files, world, ?_, rfl, place, fun _ _ => rfl⟩
            rw [createDirAll, place]
  obtain ⟨files, first, ran, events, here, others⟩ := made
  let second : World :=
    { first with disk := first.disk.put dir (.dir (files.put "manifest.json" bytes)) }
  let third : World := { second with
    disk := second.disk.put dir
      (.dir ((files.put "manifest.json" bytes).put "package.json" bytes')) }
  have ran' : writeIn dir "manifest.json" bytes first = (.ok (), second) := by
    rw [writeIn, here]
  have ran'' : writeIn dir "package.json" bytes' second = (.ok (), third) := by
    have now : second.disk.get dir = some (.dir (files.put "manifest.json" bytes)) := by
      rw [Table.get_put, if_pos rfl]
    rw [writeIn, now]
  refine ⟨files, third, fun {next} => ?_, events, fun seg => ?_⟩
  · rw [run_ok ran, run_ok ran', run_ok ran'']
  · rw [Table.get_put]
    split
    · rfl
    · next other => rw [Table.get_put, if_neg other, others seg other]

/-- Deleting a directory leaves the others, and none in its place. -/
theorem removeDirAll_gets (dir : String) (world : World) :
    (∀ seg, (removeDirAll dir world).2.disk.get seg = world.disk.get seg ∨
        seg = dir ∧ (removeDirAll dir world).2.disk.get seg = none) ∧
      ∀ files, (removeDirAll dir world).2.disk.get dir ≠ some (.dir files) := by
  unfold removeDirAll
  split
  · refine ⟨fun seg => ?_, fun files => ?_⟩
    · rw [Table.get_erase]
      by_cases same : seg = dir
      · rw [if_pos same]
        exact .inr ⟨same, rfl⟩
      · rw [if_neg same]
        exact .inl rfl
    · rw [Table.get_erase, if_pos rfl]
      nofun
  · next isFile => exact ⟨fun _ => .inl rfl, fun files => by rw [isFile]; nofun⟩
  · next absent => exact ⟨fun _ => .inl rfl, fun files => by rw [absent]; nofun⟩

section

variable [Crates]

theorem applyActive_same (index : InstalledIndex) : Does SameData (applyActive index) := by
  intro world
  refine SameData.bind ?_ (fun _ => SameData.bind (write_same (by decide) _) fun _ =>
    emit_same _) world
  cases (activeContent world.disk index).1 with
  | some theme => exact SameData.bind (write_same (by decide) _) fun _ => emit_same _
  | none => exact SameData.bind (ignore_same (removeFile_same (by decide))) fun _ => emit_same _

theorem listInstalled_same : Does SameData listInstalled := fun world => emit_same _ world

/-! ### The index -/

theorem loadInstalled_congr {disk disk' : Disk}
    (same : disk'.get installedPath = disk.get installedPath) :
    loadInstalled disk' = loadInstalled disk := by
  unfold loadInstalled Disk.readToString
  rw [same]

/-- What was saved is read back. -/
theorem loadInstalled_saved {disk : Disk} {index : InstalledIndex}
    (saved : disk.get installedPath = some (.file (toVecPretty index.toJson))) :
    loadInstalled disk = index := by
  have parsed : fromStr (String.ofList (Json.pretty 0 index.toJson)) = some index.toJson :=
    fromSlice_pretty _ index.toJson_exact (index.toJson_within 94)
  unfold loadInstalled Disk.readToString
  rw [saved]
  show (((fromUtf8 (toVecPretty index.toJson)).bind fromStr).bind
    InstalledIndex.fromJson).getD ⟨[]⟩ = index
  rw [toVecPretty, Cherm.fromUtf8_utf8, Option.bind_some, parsed, Option.bind_some,
    InstalledIndex.fromJson_toJson, Option.getD_some]

/-- An index whose place is taken by a directory is empty. -/
theorem loadInstalled_dir {disk : Disk} {files : Table String Bytes}
    (taken : disk.get installedPath = some (.dir files)) : loadInstalled disk = ⟨[]⟩ := by
  unfold loadInstalled Disk.readToString
  rw [taken]
  rfl

/-- The world once an index is saved. -/
def World.saved (world : World) (index : InstalledIndex) : World :=
  { world with disk := world.disk.put installedPath (.file (toVecPretty index.toJson)) }

/-- Where a directory has the place of the index, nothing is saved. -/
theorem commit_taken {world : World} (index : InstalledIndex) (notices : List Event)
    {files : Table String Bytes} (taken : world.disk.get installedPath = some (.dir files)) :
    commit index notices world = (.error "Is a directory", world) := by
  have failed : saveInstalled index world = (.error "Is a directory", world) := by
    rw [saveInstalled, write, taken]
  rw [commit, run_error failed]

theorem commit_free {world : World} (index : InstalledIndex) (notices : List Event)
    (free : ∀ files, world.disk.get installedPath ≠ some (.dir files)) :
    commit index notices world = (applyActive index >>= fun _ => notices.forM emit >>= fun _ =>
      listInstalled) (world.saved index) := by
  have saved : saveInstalled index world = (.ok (), world.saved index) := by
    rw [saveInstalled, write]
    split
    · next files is => exact absurd is (free files)
    · rfl
  rw [commit, run_ok saved]

/-- **How a call ends**: nothing is saved, where a directory has the place of the index; or the
index is, and the plugins' directories stay. -/
theorem commit_disk (index : InstalledIndex) (notices : List Event) (world : World) :
    (∃ files, world.disk.get installedPath = some (.dir files)) ∧
        (commit index notices world).2.disk = world.disk ∨
      (∀ files, world.disk.get installedPath ≠ some (.dir files)) ∧
        SameData (world.saved index).disk (commit index notices world).2.disk := by
  by_cases taken : ∃ files, world.disk.get installedPath = some (.dir files)
  · obtain ⟨files, taken⟩ := taken
    exact .inl ⟨⟨files, taken⟩, by rw [commit_taken index notices taken]⟩
  · have free : ∀ files, world.disk.get installedPath ≠ some (.dir files) :=
      fun files is => taken ⟨files, is⟩
    refine .inr ⟨free, ?_⟩
    have rest : Does SameData (applyActive index >>= fun _ => notices.forM emit >>= fun _ =>
        listInstalled) :=
      SameData.bind (applyActive_same index) fun _ =>
        SameData.bind (forM_emit_same notices) fun _ => listInstalled_same
    rw [commit_free index notices free]
    exact rest (world.saved index)

/-! ### The two calls -/

/-- What is in a plugin's directory once it is installed. -/
def newFiles (files : Table String Bytes) (manifest : Manifest) (bytes : Bytes) :
    Table String Bytes :=
  (files.put "manifest.json" (toVecPretty manifest.toJson)).put "package.json" bytes

/-- What the terminal is told of an install. -/
def installNotices (manifest : Manifest) : List Event := [
  .pluginInstalled manifest.name manifest.version manifest.category,
  .info ("installed " ++ manifest.name ++ " v" ++ manifest.version ++ " (" ++
    manifest.category ++ ")")]

/-- Persisting fails where a file has the directory's place; else it writes the directory, and ends
like every call. -/
theorem persist_runs (dir : String) (manifest : Manifest) (bytes : Bytes) (world : World) :
    (∃ content, world.disk.get dir = some (.file content)) ∧
        persist dir manifest bytes world = (.error "File exists", world) ∨
      (∀ content, world.disk.get dir ≠ some (.file content)) ∧
        ∃ (files : Table String Bytes) (mid : World), mid.events = world.events ∧
          (∀ seg, mid.disk.get seg = if seg = dir then
            some (.dir (newFiles files manifest bytes)) else world.disk.get seg) ∧
          persist dir manifest bytes world =
            commit ((loadInstalled mid.disk).record manifest) (installNotices manifest) mid := by
  by_cases occupied : ∃ content, world.disk.get dir = some (.file content)
  · refine .inl ⟨occupied, ?_⟩
    obtain ⟨content, isFile⟩ := occupied
    have failed : createDirAll dir world = (.error "File exists", world) := by
      rw [createDirAll, isFile]
    rw [persist, run_error failed]
  · have free : ∀ content, world.disk.get dir ≠ some (.file content) :=
      fun content is => occupied ⟨content, is⟩
    obtain ⟨files, mid, ran, events, gets⟩ :=
      prepare world (toVecPretty manifest.toJson) bytes free
    have read : readIndex mid = (.ok (loadInstalled mid.disk), mid) := rfl
    refine .inr ⟨free, files, mid, events, gets, ?_⟩
    rw [persist, ran, run_ok read]
    rfl

/-- **All that persisting can do**: nothing, where a file has the directory's place; write the
directory, where the index cannot be saved; or write the directory and record the plugin. -/
theorem persist_disk (dir : String) (manifest : Manifest) (bytes : Bytes) (world : World) :
    (∃ content, world.disk.get dir = some (.file content)) ∧
        (persist dir manifest bytes world).2.disk = world.disk ∨
      (∀ content, world.disk.get dir ≠ some (.file content)) ∧
        ∃ (files : Table String Bytes) (mid : Disk),
          (∀ seg, mid.get seg = if seg = dir then some (.dir (newFiles files manifest bytes))
            else world.disk.get seg) ∧
          ((∃ taken, mid.get installedPath = some (.dir taken)) ∧
              (persist dir manifest bytes world).2.disk = mid ∨
            (∀ taken, mid.get installedPath ≠ some (.dir taken)) ∧
              SameData (mid.put installedPath
                (.file (toVecPretty ((loadInstalled mid).record manifest).toJson)))
                (persist dir manifest bytes world).2.disk) := by
  rcases persist_runs dir manifest bytes world with ⟨occupied, failed⟩ |
    ⟨free, files, mid, _, gets, ran⟩
  · exact .inl ⟨occupied, by rw [failed]⟩
  · refine .inr ⟨free, files, mid.disk, gets, ?_⟩
    rw [ran]
    exact commit_disk _ _ mid

/-- A removal finds nothing under the name; else it deletes the directory, and ends like every
call. -/
theorem remove_runs (name : String) (world : World) :
    (∀ p ∈ (loadInstalled world.disk).plugins, p.manifest.name ≠ name) ∧
        remove name world = emit (.error "not_installed" (name ++ " is not installed")) world ∨
      (∃ p ∈ (loadInstalled world.disk).plugins, p.manifest.name = name) ∧
        ∃ mid : World, mid.events = world.events ∧
          (∀ seg, mid.disk.get seg = world.disk.get seg ∨
            pluginDir name = some seg ∧ mid.disk.get seg = none) ∧
          (∀ dir files, pluginDir name = some dir → mid.disk.get dir ≠ some (.dir files)) ∧
          remove name world = commit ((loadInstalled world.disk).without name)
            [.info ("removed " ++ name)] mid := by
  have read : readIndex world = (.ok (loadInstalled world.disk), world) := rfl
  unfold remove
  rw [run_ok read]
  dsimp only
  by_cases same : ((loadInstalled world.disk).without name).plugins.length =
      (loadInstalled world.disk).plugins.length
  · rw [if_pos same]
    refine .inl ⟨fun p member => ?_, rfl⟩
    have all := List.length_filter_eq_length_iff.mp same p member
    simpa using all
  · rw [if_neg same]
    refine .inr ⟨?_, ?_⟩
    · by_contra absent
      refine same (List.length_filter_eq_length_iff.mpr fun p member => ?_)
      exact decide_eq_true fun here => absent ⟨p, member, here⟩
    cases place : pluginDir name with
    | none => exact ⟨world, rfl, fun seg => .inl rfl, fun _ _ here => (by cases here), rfl⟩
    | some dir =>
        obtain ⟨gets, gone⟩ := removeDirAll_gets dir world
        have silent : (removeDirAll dir world).2.events = world.events := by
          unfold removeDirAll
          split <;> rfl
        refine ⟨(removeDirAll dir world).2, silent, fun seg => ?_, fun other files here => ?_, rfl⟩
        · rcases gets seg with kept | ⟨same, absent⟩
          · exact .inl kept
          · exact .inr ⟨by rw [same], absent⟩
        · obtain rfl := Option.some.inj here
          exact gone files

/-- **All a removal can do**: nothing, where nothing is installed under the name; else delete the
directory and drop the entry. -/
theorem remove_disk (name : String) (world : World) :
    (∀ p ∈ (loadInstalled world.disk).plugins, p.manifest.name ≠ name) ∧
        (remove name world).2.disk = world.disk ∨
      (∃ p ∈ (loadInstalled world.disk).plugins, p.manifest.name = name) ∧
        ∃ mid : Disk, (∀ seg, mid.get seg = world.disk.get seg ∨
          pluginDir name = some seg ∧ mid.get seg = none) ∧
        (∀ dir files, pluginDir name = some dir → mid.get dir ≠ some (.dir files)) ∧
        ((∃ taken, mid.get installedPath = some (.dir taken)) ∧
            (remove name world).2.disk = mid ∨
          (∀ taken, mid.get installedPath ≠ some (.dir taken)) ∧
            SameData (mid.put installedPath
              (.file (toVecPretty ((loadInstalled world.disk).without name).toJson)))
              (remove name world).2.disk) := by
  rcases remove_runs name world with ⟨absent, ran⟩ | ⟨present, mid, _, gets, gone, ran⟩
  · exact .inl ⟨absent, by rw [ran]; rfl⟩
  · refine .inr ⟨present, mid.disk, gets, gone, ?_⟩
    rw [ran]
    exact commit_disk _ _ mid

/-- After an index was saved, it is the index, and the directories are those from before. -/
theorem SameData.saved {mid disk : Disk} {index : InstalledIndex}
    (free : ∀ taken, mid.get installedPath ≠ some (.dir taken))
    (same : SameData (mid.put installedPath (.file (toVecPretty index.toJson))) disk) :
    loadInstalled disk = index ∧
      ∀ seg files, disk.get seg = some (.dir files) ↔ mid.get seg = some (.dir files) := by
  constructor
  · refine loadInstalled_saved ?_
    rw [same.index, Table.get_put, if_pos rfl]
  · intro seg files
    rw [same.dirs seg files, Table.get_put]
    split
    · next here => exact ⟨nofun, fun is => absurd (here ▸ is) (free files)⟩
    · exact Iff.rfl

/-- Where nothing is in the way, a plugin is recorded, and its package is in its directory. -/
theorem persist_records {dir : String} {manifest : Manifest} {bytes : Bytes} {world : World}
    (free : ∀ content, world.disk.get dir ≠ some (.file content)) (other : installedPath ≠ dir)
    (open' : ∀ taken, world.disk.get installedPath ≠ some (.dir taken)) :
    loadInstalled (persist dir manifest bytes world).2.disk =
      (loadInstalled world.disk).record manifest := by
  rcases persist_disk dir manifest bytes world with ⟨⟨content, isFile⟩, _⟩ |
    ⟨_, files, mid, gets, ⟨⟨taken, index⟩, _⟩ | ⟨notTaken, same⟩⟩
  · exact absurd isFile (free content)
  · rw [gets, if_neg other] at index
    exact absurd index (open' taken)
  · have before : loadInstalled mid = loadInstalled world.disk :=
      loadInstalled_congr ((gets installedPath).trans (if_neg other))
    rw [(same.saved notTaken).1, before]

/-! ### What a fetched plugin is -/

theorem parseRecord_iff {α : Type} {what : String} {read : Json → Option α} {bytes : Bytes}
    {record : α} :
    parseRecord what read bytes = .ok record ↔ (fromSlice bytes).bind read = some record := by
  unfold parseRecord
  constructor
  · intro parsed
    split at parsed
    · next found => rw [found, Except.ok.inj parsed]
    · cases parsed
  · intro found
    rw [found]

/-- The checks a manifest and a package have passed. -/
structure Verified (name dir : String) (manifest : Manifest) (bytes : Bytes) : Prop where
  place : pluginDir name = some dir
  named : trimmed manifest.name = name
  permissions : validatePermissions manifest.permissions = .ok ()
  checksum : sha256Hex bytes = manifest.packageSha256
  package : ∃ pkg, (fromSlice bytes).bind Package.fromJson = some pkg

/-- What is fetched: what passes the checks, of what the store answers. -/
theorem fetchPlugin_iff {http : String → Except String Response} {store name dir : String}
    {manifest : Manifest} {bytes : Bytes} :
    fetchPlugin http store name = .verified dir manifest bytes ↔
      Verified name dir manifest bytes ∧ manifest.packageSha256 ≠ "" ∧
        (∃ answer, fetch http (store ++ "/" ++ sanitize name ++ "/manifest") maxManifestBytes
            "manifest" = .ok answer ∧ (fromSlice answer).bind Manifest.fromJson = some manifest) ∧
        fetch http (store ++ "/" ++ sanitize name ++ "/package") maxPackageBytes "package" =
          .ok bytes := by
  constructor
  · intro fetched
    unfold fetchPlugin at fetched
    split at fetched
    · cases fetched
    next place =>
    split at fetched
    · cases fetched
    next answer first =>
    split at fetched
    · cases fetched
    next read =>
    split at fetched
    · cases fetched
    next named =>
    split at fetched
    · cases fetched
    next permissions =>
    split at fetched
    · cases fetched
    next second =>
    split at fetched
    · cases fetched
    next known =>
    split at fetched
    · cases fetched
    next checksum =>
    split at fetched
    · cases fetched
    next pkg parsed =>
    obtain ⟨rfl, rfl, rfl⟩ := Fetched.verified.inj fetched
    exact ⟨⟨place, not_not.mp named, permissions, not_not.mp checksum, pkg,
      parseRecord_iff.mp parsed⟩, known, ⟨answer, first, parseRecord_iff.mp read⟩, second⟩
  · rintro ⟨verified, known, ⟨answer, first, read⟩, second⟩
    obtain ⟨pkg, parsed⟩ := verified.package
    have read' : parseRecord "manifest" Manifest.fromJson answer = .ok manifest :=
      parseRecord_iff.mpr read
    have parsed' : parseRecord "package" Package.fromJson bytes = .ok pkg :=
      parseRecord_iff.mpr parsed
    simp only [fetchPlugin, verified.place, first, read', verified.named, verified.permissions,
      second, verified.checksum, parsed', known, ne_eq, not_true_eq_false, if_false]

theorem fetchPlugin_verified {http : String → Except String Response}
    {store name dir : String} {manifest : Manifest} {bytes : Bytes}
    (fetched : fetchPlugin http store name = .verified dir manifest bytes) :
    Verified name dir manifest bytes :=
  (fetchPlugin_iff.mp fetched).1

/-- The manifest's own name stands for the directory too. -/
theorem Verified.own {name dir : String} {manifest : Manifest} {bytes : Bytes}
    (verified : Verified name dir manifest bytes) : pluginDir manifest.name = some dir := by
  have place := verified.place
  rw [← verified.named] at place
  unfold pluginDir at place ⊢
  rwa [sanitize_trimmed] at place

/-! ### The correspondence -/

/-- The directory of an entry holds its manifest, and the package of its checksum. -/
def Kept (disk : Disk) (p : Installed) : Prop :=
  ∃ dir files bytes, pluginDir p.manifest.name = some dir ∧ disk.get dir = some (.dir files) ∧
    files.get "manifest.json" = some (toVecPretty p.manifest.toJson) ∧
    files.get "package.json" = some bytes ∧ sha256Hex bytes = p.manifest.packageSha256

/-- Index and directories correspond. -/
structure Corresponds (disk : Disk) : Prop where
  apart : ((loadInstalled disk).plugins.map fun p => pluginDir p.manifest.name).Nodup
  kept : ∀ p ∈ (loadInstalled disk).plugins, Kept disk p

/-- A removal touches nothing of another plugin. -/
def RemovalLocal (name : String) (disk disk' : Disk) : Prop :=
  (loadInstalled disk').plugins =
      (loadInstalled disk).plugins.filter (fun p => p.manifest.name ≠ name) ∧
    ∀ p ∈ (loadInstalled disk).plugins, p.manifest.name ≠ name →
      ∀ dir, pluginDir p.manifest.name = some dir → disk'.get dir = disk.get dir

/-- After the call the correspondence holds, and if it removed a plugin, nothing else is gone. -/
def Sound (call : Call) (world : World) : Prop :=
  Corresponds (step call world).disk ∧ match call with
    | .remove name => RemovalLocal name world.disk (step call world).disk
    | .install .. => True

/-- What is about to be installed has the directory of no installed plugin of another name. -/
def Fetched.Apart (fetched : Fetched) (installed : List Installed) : Prop :=
  match fetched with
  | .failed _ | .refused _ _ => True
  | .verified _ manifest _ => ∀ p ∈ installed, p.manifest.name ≠ manifest.name →
      pluginDir p.manifest.name ≠ pluginDir manifest.name

def Apart (call : Call) (world : World) : Prop :=
  match call with
  | .remove _ => True
  | .install http store name =>
      (fetchPlugin http store (trimmed name)).Apart (loadInstalled world.disk).plugins

theorem Kept.of_dirs {disk disk' : Disk} {p : Installed} (kept : Kept disk p)
    (same : ∀ dir files, pluginDir p.manifest.name = some dir →
      disk.get dir = some (.dir files) → disk'.get dir = some (.dir files)) : Kept disk' p := by
  obtain ⟨dir, files, bytes, place, isDir, rest⟩ := kept
  exact ⟨dir, files, bytes, place, same dir files place isDir, rest⟩

theorem corresponds_empty {disk : Disk} (none : loadInstalled disk = ⟨[]⟩) : Corresponds disk := by
  refine ⟨?_, ?_⟩
  · rw [none]
    exact List.nodup_nil
  · intro p member
    rw [none] at member
    cases member

/-- An entry's directory has the place of no file. -/
theorem Corresponds.isDir {disk : Disk} (corresponds : Corresponds disk) {p : Installed}
    (member : p ∈ (loadInstalled disk).plugins) {dir : String}
    (place : pluginDir p.manifest.name = some dir) :
    ∃ files, disk.get dir = some (.dir files) := by
  obtain ⟨own, files, _, place', isDir, _⟩ := corresponds.kept p member
  obtain rfl := Option.some.inj (place.symm.trans place')
  exact ⟨files, isDir⟩

/-- **An install keeps the correspondence exactly if its directory is its own.** -/
theorem install_iff {http : String → Except String Response} {store name : String} {world : World}
    (corresponds : Corresponds world.disk) :
    Corresponds (step (.install http store name) world).disk ↔
      Apart (.install http store name) world := by
  unfold step Apart
  dsimp only
  unfold install
  cases fetched : fetchPlugin http store (trimmed name) with
  | failed e => exact ⟨fun _ => trivial, fun _ => corresponds⟩
  | refused code message => exact ⟨fun _ => trivial, fun _ => corresponds⟩
  | verified dir manifest bytes =>
      have verified := fetchPlugin_verified fetched
      have own := verified.own
      unfold Fetched.Apart
      dsimp only
      rw [own]
      rcases persist_disk dir manifest bytes world with ⟨⟨content, isFile⟩, same⟩ |
        ⟨free, files, mid, gets, ⟨⟨taken, index⟩, same⟩ | ⟨notTaken, same⟩⟩
      · -- a file has the directory's place: nothing is done, and no plugin is there
        rw [same]
        refine ⟨fun _ p member _ place => ?_, fun _ => corresponds⟩
        obtain ⟨files, isDir⟩ := corresponds.isDir member place
        rw [isFile] at isDir
        cases isDir
      · -- the index cannot be saved, and could not be read before
        rw [same]
        refine ⟨fun _ p member _ place => ?_, fun _ => corresponds_empty (loadInstalled_dir index)⟩
        rw [gets] at index
        split at index
        · next here =>
          obtain ⟨files, isDir⟩ := corresponds.isDir member place
          rw [loadInstalled_dir (here ▸ isDir)] at member
          cases member
        · rw [loadInstalled_dir index] at member
          cases member
      · -- the plugin is recorded
        have other : installedPath ≠ dir := by
          intro here
          exact notTaken _ ((gets installedPath).trans (if_pos here))
        have before : loadInstalled mid = loadInstalled world.disk :=
          loadInstalled_congr ((gets installedPath).trans (if_neg other))
        obtain ⟨index, dirs⟩ := same.saved notTaken
        rw [before] at index
        constructor
        · intro after p member different place
          have apart := after.apart
          rw [index, InstalledIndex.record, List.map_append, List.nodup_append] at apart
          refine apart.2.2 _ (List.mem_map_of_mem (List.mem_filter.mpr
            ⟨member, decide_eq_true different⟩)) _ (List.mem_singleton_self _) ?_
          exact place.trans own.symm
        · intro apart
          refine ⟨?_, ?_⟩
          · rw [index, InstalledIndex.record, List.map_append, List.nodup_append]
            refine ⟨corresponds.apart.sublist (List.filter_sublist.map _),
              List.nodup_singleton _, ?_⟩
            intro place listed place' isOwn same
            obtain ⟨p, filtered, rfl⟩ := List.mem_map.mp listed
            obtain ⟨member, different⟩ := List.mem_filter.mp filtered
            rw [List.mem_singleton.mp isOwn] at same
            exact apart p member (of_decide_eq_true different) (same.trans own)
          · intro p member
            rw [index, InstalledIndex.record] at member
            rcases List.mem_append.mp member with filtered | isNew
            · obtain ⟨member, different⟩ := List.mem_filter.mp filtered
              refine (corresponds.kept p member).of_dirs fun place found here isDir => ?_
              rw [dirs, gets, if_neg, isDir]
              rintro rfl
              exact apart p member (of_decide_eq_true different) here
            · rw [List.mem_singleton.mp isNew]
              refine ⟨dir, newFiles files manifest bytes, bytes, own, ?_, ?_, ?_,
                verified.checksum⟩
              · rw [dirs, gets, if_pos rfl]
              · rw [newFiles, Table.get_put, if_neg (by decide), Table.get_put, if_pos rfl]
              · rw [newFiles, Table.get_put, if_pos rfl]

/-- **A removal keeps the correspondence, and touches nothing else.** -/
theorem remove_sound {name : String} {world : World} (corresponds : Corresponds world.disk) :
    Sound (.remove name) world := by
  show Corresponds (remove name world).2.disk ∧
    RemovalLocal name world.disk (remove name world).2.disk
  rcases remove_disk name world with ⟨none, same⟩ |
    ⟨⟨gone, listed, isGone⟩, mid, gets, deleted, ⟨⟨taken, index⟩, same⟩ | ⟨notTaken, same⟩⟩
  · rw [same]
    refine ⟨corresponds, ?_, fun p member _ dir place => rfl⟩
    rw [List.filter_eq_self.mpr fun p member => decide_eq_true (none p member)]
  · -- where the index cannot be saved, it could not be read, and nothing is listed
    rcases gets installedPath with kept | ⟨_, absent⟩
    · rw [kept] at index
      rw [loadInstalled_dir index] at listed
      cases listed
    · rw [absent] at index
      cases index
  · obtain ⟨index, dirs⟩ := same.saved notTaken
    -- the directory of another entry is another one
    have others : ∀ p ∈ (loadInstalled world.disk).plugins, p.manifest.name ≠ name →
        ∀ dir, pluginDir p.manifest.name = some dir → mid.get dir = world.disk.get dir := by
      intro p member different dir place
      rcases gets dir with kept | ⟨here, _⟩
      · exact kept
      · have one := List.inj_on_of_nodup_map corresponds.apart member listed
          (by rw [place, isGone, here])
        exact absurd (one ▸ isGone) different
    refine ⟨⟨?_, ?_⟩, ?_, ?_⟩
    · rw [index, InstalledIndex.without]
      exact corresponds.apart.sublist (List.filter_sublist.map _)
    · intro p member
      rw [index, InstalledIndex.without] at member
      obtain ⟨member, different⟩ := List.mem_filter.mp member
      refine (corresponds.kept p member).of_dirs fun dir files place isDir => ?_
      rw [dirs, others p member (of_decide_eq_true different) dir place, isDir]
    · rw [index, InstalledIndex.without]
    · intro p member different dir place
      obtain ⟨files, isDir⟩ := corresponds.isDir member place
      rw [isDir, (dirs dir files).mpr ((others p member different dir place).trans isDir)]

theorem corresponds_iff (call : Call) (world : World) (corresponds : Corresponds world.disk) :
    Corresponds (step call world).disk ↔ Apart call world := by
  cases call with
  | install http store name => exact install_iff corresponds
  | remove name => exact ⟨fun _ => trivial, fun _ => (remove_sound corresponds).1⟩

theorem corresponds_start : Corresponds World.empty.disk :=
  corresponds_empty rfl

/-- A run keeps the correspondence exactly if every call of it may. -/
theorem corresponds_runs (calls : List Call) :
    Steps.Each step (fun call world => Corresponds (step call world).disk) calls World.empty ↔
      Steps.Each step Apart calls World.empty :=
  Steps.each_iff corresponds_iff corresponds_start

/-- **Index and directories correspond, after every call of a run, exactly if** no plugin was
installed into the directory of another. -/
theorem plugin_dirs_iff (calls : List Call) :
    Steps.Each step Sound calls World.empty ↔ Steps.Each step Apart calls World.empty := by
  constructor
  · exact fun sound => (corresponds_runs calls).mp (sound.mono fun _ _ both => both.1)
  · intro apart
    have all := apart.keeps
      (fun call world before meets => (corresponds_iff call world before).mpr meets)
      corresponds_start
    -- a removal also leaves no directory behind
    refine all.mono fun call world ⟨before, _, after⟩ => ⟨after, ?_⟩
    cases call with
    | install http store name => trivial
    | remove name => exact (remove_sound before).2

theorem apart_second {first second : Call}
    (sound : Steps.Each step Sound [first, second] World.empty) :
    Apart second (step first World.empty) :=
  ((corresponds_runs _).mp (sound.mono fun _ _ both => both.1)).2.1

end

namespace Ideal

attribute [local instance] crates

theorem fetched_Foo : fetchPlugin (answers "Foo" [] "{}") "store" (trimmed "Foo") =
    .verified "foo" (manifest "Foo" [] "{}") (utf8 "{}") :=
  fetchPlugin_answers (by decide +kernel) (by decide +kernel) rfl (by decide +kernel)
    (by decide +kernel) (by decide +kernel) (by decide +kernel) (by decide +kernel)

theorem fetched_foo : fetchPlugin (answers "foo" [] "{}") "store" (trimmed "foo") =
    .verified "foo" (manifest "foo" [] "{}") (utf8 "{}") :=
  fetchPlugin_answers (by decide +kernel) (by decide +kernel) rfl (by decide +kernel)
    (by decide +kernel) (by decide +kernel) (by decide +kernel) (by decide +kernel)

theorem step_installs {name dir package : String} {permissions : List String}
    (fetched : fetchPlugin (answers name permissions package) "store" (trimmed name) =
      .verified dir (manifest name permissions package) (utf8 package)) (world : World) :
    step (installs name permissions package) world =
      (persist dir (manifest name permissions package) (utf8 package) world).2 := by
  unfold installs step
  dsimp only
  rw [install, fetched]

/-- The first plugin that is installed is the only one in the index. -/
theorem installed_first {name dir package : String} {permissions : List String}
    (fetched : fetchPlugin (answers name permissions package) "store" (trimmed name) =
      .verified dir (manifest name permissions package) (utf8 package))
    (other : installedPath ≠ dir) :
    loadInstalled (step (installs name permissions package) World.empty).disk =
      ⟨[⟨manifest name permissions package, true⟩]⟩ := by
  have nothing : ∀ seg entry, World.empty.disk.get seg ≠ some entry := by
    intro seg entry is
    rw [World.empty, Table.get_empty] at is
    cases is
  rw [step_installs fetched, persist_records (fun _ => nothing _ _) other (fun _ => nothing _ _)]
  rfl

/-- **Two names with one directory**: with `Foo` installed, `foo` is installed over it. -/
theorem foo_over_Foo : ¬ Steps.Each step Sound [installs "Foo" [] "{}", installs "foo" [] "{}"]
    World.empty := by
  generalize call1 : installs "Foo" [] "{}" = c1
  generalize call2 : installs "foo" [] "{}" = c2
  intro sound
  have apart := apart_second sound
  subst call1 call2
  unfold Apart installs at apart
  dsimp only at apart
  rw [fetched_foo] at apart
  have listed := installed_first fetched_Foo (by decide)
  unfold installs at listed
  rw [listed] at apart
  exact apart _ (List.mem_singleton_self _) (by decide) (by decide +kernel)

end Ideal

end ChermPlugins
