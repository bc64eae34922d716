/-
**Where a plugin's name leads.**

A plugin's directory lies beside the files that say what is installed and what is active. The folded
name never leaves the plugins folder, but it may be the name of one of these files.

* `Reserved`: the names that are folded to one of the three files.
* `plugin_paths`: the directory is a child of the folder and none of the files, exactly for the other
  names; and a call for one of them puts no directory in the place of a file.
-/

import Cherm.Proof.PluginDirs

namespace ChermPlugins

open Cherm (Bytes utf8 fromUtf8)
open Act Crates

/-! ### Paths -/

/-- `Path::join` of one segment. -/
def joinPath (root segment : String) : String :=
  if segment.toList.head? = some '/' then segment else root ++ "/" ++ segment

/-- `plugin_dir` with the folder it is in. -/
def pluginPath (root name : String) : Option String := (pluginDir name).map (joinPath root)

/-- The files that lie beside the plugins' directories. -/
def indexFiles : List String := [installedPath, activeThemePath, activeWidgetsPath]

/-- A segment that leads to a child of its own. -/
structure Confined (segment : String) : Prop where
  some : segment ≠ ""
  notHere : segment ≠ "."
  notAbove : segment ≠ ".."
  noSeparator : ∀ c ∈ segment.toList, c ≠ '/' ∧ c ≠ '\\'
  noIndex : segment ∉ indexFiles

/-- Without what is neither a letter nor a digit at its ends, the name is folded to an index file. -/
def Reserved (name : String) : Prop :=
  ∃ index ∈ indexFiles, ∃ before mid after, name.toList = before ++ (mid ++ after) ∧
    (∀ c ∈ before, c.isAlphanum = false) ∧ (∀ c ∈ after, c.isAlphanum = false) ∧
    mid.map foldChar = index.toList

/-! ### Folding -/

/-- A property of the ASCII characters is checked one by one. -/
theorem of_ascii {p : Char → Prop} (all : ∀ n < 128, p (Char.ofNat n)) {c : Char}
    (ascii : c.toNat < 128) : p c := by
  have here := all c.toNat ascii
  rwa [Char.ofNat_toNat] at here

theorem isAlphanum_lt {c : Char} (alphanum : c.isAlphanum = true) : c.toNat < 128 := by
  delta Char.isAlphanum Char.isAlpha Char.isUpper Char.isLower Char.isDigit at alphanum
  simp only [Bool.or_eq_true, Bool.and_eq_true, decide_eq_true_eq, UInt32.le_iff_toNat_le]
    at alphanum
  rcases alphanum with (⟨_, high⟩ | ⟨_, high⟩) | ⟨_, high⟩
  · exact lt_of_le_of_lt high (by decide)
  · exact lt_of_le_of_lt high (by decide)
  · exact lt_of_le_of_lt high (by decide)

theorem isEdge_toLower {c : Char} (alphanum : c.isAlphanum = true) : isEdge c.toLower = false :=
  of_ascii (p := fun c => c.isAlphanum = true → isEdge c.toLower = false) (by decide)
    (isAlphanum_lt alphanum) alphanum

/-- What is stripped is what is neither a letter nor a digit. -/
theorem isEdge_foldChar_iff {c : Char} : isEdge (foldChar c) = true ↔ c.isAlphanum = false := by
  cases alphanum : c.isAlphanum with
  | true =>
      have kept : isKept c = true := by simp [isKept, alphanum]
      rw [foldChar, if_pos kept, isEdge_toLower alphanum]
      simp
  | false =>
      refine iff_of_true ?_ rfl
      unfold foldChar
      split
      · next kept =>
        have edge : c = '-' ∨ c = '_' ∨ c = '.' := by simpa [isKept, alphanum, or_assoc] using kept
        rcases edge with rfl | rfl | rfl <;> decide
      · rfl

/-- No separator is left. -/
theorem foldChar_plain (c : Char) : foldChar c ≠ '/' ∧ foldChar c ≠ '\\' := by
  unfold foldChar
  split
  · next kept =>
    cases alphanum : c.isAlphanum with
    | true =>
        exact of_ascii (p := fun c => c.isAlphanum = true → c.toLower ≠ '/' ∧ c.toLower ≠ '\\')
          (by decide) (isAlphanum_lt alphanum) alphanum
    | false =>
        have edge : c = '-' ∨ c = '_' ∨ c = '.' := by simpa [isKept, alphanum, or_assoc] using kept
        rcases edge with rfl | rfl | rfl <;> decide
  · decide

/-! ### The reserved names -/

/-- The reserved names are those that are folded to an index file. -/
theorem reserved_iff {name : String} : Reserved name ↔ sanitize name ∈ indexFiles := by
  have ends : ∀ index ∈ indexFiles, index.toList.head?.any isEdge = false ∧
      index.toList.getLast?.any isEdge = false := by decide
  have bare : ∀ index ∈ indexFiles, Edges.Bare isEdge index.toList := by
    intro index member
    obtain ⟨first, last⟩ := ends index member
    refine ⟨fun c is => ?_, fun c is => ?_⟩
    · rwa [Option.mem_def.mp is] at first
    · rwa [Option.mem_def.mp is] at last
  have folded : ∀ text : List Char, (∀ c ∈ text, c.isAlphanum = false) ↔
      ∀ c ∈ text.map foldChar, isEdge c = true := by
    intro text
    simp only [List.forall_mem_map, isEdge_foldChar_iff]
  have cores : ∀ index ∈ indexFiles, sanitize name = index ↔
      ∃ before after, name.toList.map foldChar = before ++ (index.toList ++ after) ∧
        (∀ c ∈ before, isEdge c = true) ∧ ∀ c ∈ after, isEdge c = true := by
    intro index member
    rw [← Edges.trim_eq_iff (bare index member), sanitize]
    change String.ofList (strip _) = index ↔ strip _ = index.toList
    exact ⟨fun same => by rw [← same, String.toList_ofList],
      fun same => by rw [same, String.ofList_toList]⟩
  constructor
  · rintro ⟨index, member, before, mid, after, parts, left, right, core⟩
    refine ((cores index member).mpr ⟨before.map foldChar, after.map foldChar, ?_,
      (folded before).mp left, (folded after).mp right⟩) ▸ member
    rw [parts, List.map_append, List.map_append, core]
  · intro member
    obtain ⟨before, after, parts, left, right⟩ := (cores _ member).mp rfl
    obtain ⟨first, rest, whole, rfl, others⟩ := List.map_eq_append_iff.mp parts
    obtain ⟨mid, last, rfl, core, rfl⟩ := List.map_eq_append_iff.mp others
    exact ⟨_, member, first, mid, last, whole, (folded first).mpr left, (folded last).mpr right, core⟩

theorem sanitize_plain {name : String} {c : Char} (member : c ∈ (sanitize name).toList) :
    c ≠ '/' ∧ c ≠ '\\' := by
  rw [sanitize, String.toList_ofList] at member
  obtain ⟨d, _, rfl⟩ := List.mem_map.mp (Edges.mem_of_mem_trim (p := isEdge) member)
  exact foldChar_plain d

/-- A folded name that is nothing but edges is empty. -/
theorem sanitize_ne {name edges : String} (stripped : strip edges.toList = [])
    (nonempty : edges.toList ≠ []) : sanitize name ≠ edges := by
  intro same
  have left : strip (name.toList.map foldChar) = edges.toList := by
    rw [← same, sanitize, String.toList_ofList]
  have again : strip edges.toList = edges.toList := by
    rw [← left]
    exact Edges.trim_trim _
  exact nonempty (again.symm.trans stripped)

theorem confined_iff {name : String} (some : sanitize name ≠ "") :
    Confined (sanitize name) ↔ ¬ Reserved name := by
  rw [reserved_iff]
  exact ⟨Confined.noIndex, fun other => ⟨some, sanitize_ne (by decide) (by decide),
    sanitize_ne (by decide) (by decide), fun _ member => sanitize_plain member, other⟩⟩

/-- The path of a directory is below the folder. -/
theorem pluginPath_eq (root name : String) : pluginPath root name =
    if sanitize name = "" then none else some (root ++ "/" ++ sanitize name) := by
  unfold pluginPath pluginDir
  split
  · rfl
  · rw [Option.map_some, joinPath, if_neg]
    intro absolute
    exact (sanitize_plain (List.mem_of_mem_head? absolute)).1 rfl

/-! ### What a call can reach -/

/-- A call changes its own directory and the index files, which no directory takes the place of. -/
structure Within (own : Option String) (disk disk' : Disk) : Prop where
  others : ∀ seg, seg ∉ indexFiles → own ≠ some seg → disk'.get seg = disk.get seg
  indexes : ∀ index ∈ indexFiles, ∀ files, disk'.get index = some (.dir files) →
    disk.get index = some (.dir files)

variable {own : Option String}

theorem Within.refl (disk : Disk) : Within own disk disk := ⟨fun _ _ _ => rfl, fun _ _ _ => id⟩

theorem Within.trans {a b c : Disk} (first : Within own a b) (second : Within own b c) :
    Within own a c where
  others seg notIndex notOwn := (second.others seg notIndex notOwn).trans
    (first.others seg notIndex notOwn)
  indexes index member files is :=
    first.indexes index member files (second.indexes index member files is)

theorem Within.bind {α β : Type} {first : Act α} {next : α → Act β}
    (one : Does (Within own) first) (two : ∀ value, Does (Within own) (next value)) :
    Does (Within own) (first >>= next) := Does.bind .trans one two

theorem emit_within (event : Event) : Does (Within own) (emit event) := fun world => .refl world.disk

theorem fail_within {α : Type} (error : String) : Does (Within own) (fail error : Act α) :=
  fun world => .refl world.disk

/-- An index file is written as a file. -/
theorem write_within {index : String} (listed : index ∈ indexFiles) (bytes : Bytes) :
    Does (Within own) (write index bytes) := by
  intro world
  unfold write
  split
  · exact .refl _
  · refine ⟨fun seg notIndex _ => ?_, fun other _ files is => ?_⟩
    · rw [Table.get_put, if_neg]
      rintro rfl
      exact notIndex listed
    · rw [Table.get_put] at is
      split at is
      · cases is
      · exact is

theorem removeFile_within {index : String} (listed : index ∈ indexFiles) :
    Does (Within own) (removeFile index) := by
  intro world
  unfold removeFile
  split
  · refine ⟨fun seg notIndex _ => ?_, fun other _ files is => ?_⟩
    · rw [Table.get_erase, if_neg]
      rintro rfl
      exact notIndex listed
    · rw [Table.get_erase] at is
      split at is
      · cases is
      · exact is
  · exact .refl _
  · exact .refl _

/-- A step that changes nothing but the own directory. -/
theorem within_own {dir : String} (isOwn : own = some dir) (other : dir ∉ indexFiles)
    {disk disk' : Disk} (rest : ∀ seg, seg ≠ dir → disk'.get seg = disk.get seg) :
    Within own disk disk' := by
  refine ⟨fun seg _ notOwn => rest seg ?_, fun index listed files is => ?_⟩
  · rintro rfl
    exact notOwn isOwn
  · rwa [rest index] at is
    rintro rfl
    exact other listed

theorem createDirAll_within {dir : String} (isOwn : own = some dir) (other : dir ∉ indexFiles) :
    Does (Within own) (createDirAll dir) := by
  intro world
  unfold createDirAll
  split
  · exact .refl _
  · exact .refl _
  · exact within_own isOwn other fun seg different => by rw [Table.get_put, if_neg different]

theorem writeIn_within {dir : String} (isOwn : own = some dir) (other : dir ∉ indexFiles)
    (name : String) (bytes : Bytes) : Does (Within own) (writeIn dir name bytes) := by
  intro world
  unfold writeIn
  split
  · exact within_own isOwn other fun seg different => by rw [Table.get_put, if_neg different]
  · exact .refl _
  · exact .refl _

theorem removeDirAll_within {dir : String} (isOwn : own = some dir) (other : dir ∉ indexFiles) :
    Does (Within own) (removeDirAll dir) := by
  intro world
  unfold removeDirAll
  split
  · exact within_own isOwn other fun seg different => by rw [Table.get_erase, if_neg different]
  · exact .refl _
  · exact .refl _

theorem forM_emit_within (notices : List Event) : Does (Within own) (notices.forM emit) := by
  induction notices with
  | nil => exact fun world => .refl _
  | cons first rest ih => exact Within.bind (emit_within first) fun _ => ih

/-- **A directory is a child of the folder and none of its files exactly if the name is free.** -/
theorem pluginPath_confined (root name : String) :
    (∀ path, pluginPath root name = some path →
      ∃ segment, path = root ++ "/" ++ segment ∧ Confined segment) ↔ ¬ Reserved name := by
  rw [pluginPath_eq]
  by_cases empty : sanitize name = ""
  · rw [if_pos empty]
    refine iff_of_true (fun path is => by cases is) fun reserved => ?_
    rw [reserved_iff, empty] at reserved
    exact absurd reserved (by decide)
  · rw [if_neg empty, ← confined_iff empty]
    constructor
    · intro confined
      obtain ⟨segment, same, child⟩ := confined _ rfl
      have lists := congrArg String.toList same
      simp only [String.toList_append, List.append_cancel_left_eq, String.toList_inj] at lists
      rwa [lists]
    · rintro child path is
      exact ⟨sanitize name, (Option.some.inj is).symm, child⟩

section

variable [Crates]

theorem readIndex_within : Does (Within own) readIndex := fun world => .refl world.disk

theorem applyActive_within (index : InstalledIndex) : Does (Within own) (applyActive index) := by
  intro world
  have themeListed : activeThemePath ∈ indexFiles := by decide
  have widgetsListed : activeWidgetsPath ∈ indexFiles := by decide
  refine Within.bind ?_ (fun _ => Within.bind (write_within widgetsListed _) fun _ =>
    emit_within _) world
  cases (activeContent world.disk index).1 with
  | some theme => exact Within.bind (write_within themeListed _) fun _ => emit_within _
  | none =>
      refine Within.bind ?_ fun _ => emit_within _
      exact fun world => removeFile_within themeListed world

theorem commit_within (index : InstalledIndex) (notices : List Event) :
    Does (Within own) (commit index notices) :=
  have listed : installedPath ∈ indexFiles := by decide
  Within.bind (write_within listed _) fun _ => Within.bind (applyActive_within index) fun _ =>
    Within.bind (forM_emit_within notices) fun _ => fun world => emit_within _ world

theorem persist_within {dir : String} (isOwn : own = some dir) (other : dir ∉ indexFiles)
    (manifest : Manifest) (bytes : Bytes) : Does (Within own) (persist dir manifest bytes) :=
  Within.bind (createDirAll_within isOwn other) fun _ =>
    Within.bind (writeIn_within isOwn other _ _) fun _ =>
      Within.bind (writeIn_within isOwn other _ _) fun _ =>
        Within.bind readIndex_within fun _ => commit_within _ _

theorem remove_within (name : String) (other : sanitize name ∉ indexFiles) :
    Does (Within (pluginDir name)) (remove name) := by
  unfold remove
  refine Within.bind readIndex_within fun before => ?_
  dsimp only
  split
  · exact emit_within _
  · cases place : pluginDir name with
    | none => exact fun world => commit_within _ _ world
    | some dir =>
        have folded : sanitize name = dir := by
          unfold pluginDir at place
          split at place
          · cases place
          · exact Option.some.inj place
        have gone : Does (Within (some dir)) (ignore (removeDirAll dir)) :=
          removeDirAll_within rfl (folded ▸ other)
        exact Within.bind gone fun _ => commit_within _ _

theorem install_within (http : String → Except String Response) (store name : String)
    (other : sanitize name ∉ indexFiles) :
    Does (Within (pluginDir name)) (install http store name) := by
  have same : pluginDir (trimmed name) = pluginDir name := by
    unfold pluginDir
    rw [sanitize_trimmed]
  unfold install
  cases fetched : fetchPlugin http store (trimmed name) with
  | failed e => exact fail_within e
  | refused code message => exact emit_within _
  | verified dir manifest bytes =>
      have place := (fetchPlugin_verified fetched).place
      have folded : sanitize name = dir := by
        rw [same] at place
        unfold pluginDir at place
        split at place
        · cases place
        · exact Option.some.inj place
      exact persist_within (same.symm.trans place) (folded ▸ other) manifest bytes

/-- The name a call is for. -/
def Call.name : Call → String
  | .install _ _ name => name
  | .remove name => name

theorem step_within {call : Call} (free : ¬ Reserved call.name) (world : World) :
    Within (pluginDir call.name) world.disk (step call world).disk := by
  have other : sanitize call.name ∉ indexFiles := fun listed => free (reserved_iff.mpr listed)
  cases call with
  | install http store name =>
      have reach := install_within http store name other world
      unfold step
      exact reach
  | remove name =>
      have reach := remove_within name other world
      unfold step
      exact reach

/-- **Paths of plugins.** A name's directory is a child of the folder, and none of the files in it,
exactly if the name is not reserved; and a call for such a name reaches nothing but its directory and
the index files, which stay files. -/
theorem plugin_paths :
    (∀ root name, (∀ path, pluginPath root name = some path →
        ∃ segment, path = root ++ "/" ++ segment ∧ Confined segment) ↔ ¬ Reserved name) ∧
      ∀ (call : Call) (world : World), ¬ Reserved call.name →
        Within (pluginDir call.name) world.disk (step call world).disk :=
  ⟨pluginPath_confined, fun _ world free => step_within free world⟩

end

namespace Ideal

attribute [local instance] crates

theorem foo_within : Within (pluginDir "Foo") World.empty.disk
    (step (installs "Foo" [] "{}") World.empty).disk :=
  plugin_paths.2 (installs "Foo" [] "{}") World.empty (by
    rw [reserved_iff]
    decide +kernel)

theorem fetched_index : fetchPlugin (answers "installed.json" [] "{}") "store"
    (trimmed "installed.json") =
      .verified installedPath (manifest "installed.json" [] "{}") (utf8 "{}") :=
  fetchPlugin_answers (by decide +kernel) (by decide +kernel) rfl (by decide +kernel)
    (by decide +kernel) (by decide +kernel) (by decide +kernel) (by decide +kernel)

/-- **A directory in the place of the index**: the plugin `installed.json` is installed there, and no
index can be saved any more. -/
theorem index_taken :
    ¬ (∀ path, pluginPath "plugins" "installed.json" = some path →
      ∃ segment, path = "plugins" ++ "/" ++ segment ∧ Confined segment) ∧
    ∃ files, (step (installs "installed.json" [] "{}") World.empty).disk.get installedPath =
      some (.dir files) := by
  constructor
  · rw [pluginPath_confined, not_not, reserved_iff]
    decide +kernel
  · rw [step_installs fetched_index]
    rcases persist_disk installedPath (manifest "installed.json" [] "{}") (utf8 "{}")
        World.empty with ⟨⟨content, isFile⟩, _⟩ | ⟨_, files, mid, gets, ⟨_, same⟩ | ⟨free, _⟩⟩
    · rw [World.empty, Table.get_empty] at isFile
      cases isFile
    · rw [same, gets, if_pos rfl]
      exact ⟨_, rfl⟩
    · exact absurd ((gets installedPath).trans (if_pos rfl)) (free _)

end Ideal

end ChermPlugins
