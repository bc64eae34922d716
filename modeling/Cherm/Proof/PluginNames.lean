/-
**One name for a plugin.**

The worker lowers a name before it drops what is no letter or digit of ASCII, the client folds it
character by character; both strip the same ends. What the worker makes of a name, the client
leaves as it is, and the routes accept it. It may still be the name of a file that lies beside the
plugins' directories: such a plugin is listed and served, and cannot be installed.

* `sanitize_safeName`, `sanitize_sanitize`, `safeName_routed`: the two sanitisers and the routes.
* `Neat`: no directory in the place of a file, and no file in that of a directory.
* `fetched_iff`: the client fetches exactly what passes its checks.
* `names_agree`: it is installed wherever the directory is neat, exactly for the other names.
-/

import Cherm.Edge.Routes
import Cherm.Proof.PluginPaths
import Cherm.Proof.StoreReads

set_option linter.unusedSectionVars false

namespace ChermPlugins

open Cherm (Bytes utf8 fromUtf8)
open Act Crates

/-! ### A neat directory -/

/-- No directory has the place of an index file, and no other file that of a directory. -/
structure Neat (disk : Disk) : Prop where
  indexes : ∀ index ∈ indexFiles, ∀ files, disk.get index ≠ some (.dir files)
  dirs : ∀ seg bytes, disk.get seg = some (.file bytes) → seg ∈ indexFiles

theorem neat_empty : Neat World.empty.disk :=
  ⟨fun _ _ _ is => (by cases is), fun _ _ is => (by cases is)⟩

/-- What only reaches the index files keeps a directory neat. -/
theorem Neat.within {disk disk' : Disk} (neat : Neat disk) (reach : Within none disk disk') :
    Neat disk' where
  indexes index listed files is := neat.indexes index listed files
    (reach.indexes index listed files is)
  dirs seg bytes is := by
    by_contra other
    rw [reach.others seg other fun none => by cases none] at is
    exact other (neat.dirs seg bytes is)

/-- An action succeeds where the directory is neat, and keeps it so. -/
def Succeeds (act : Act Unit) : Prop :=
  ∀ world, Neat world.disk → (act world).1 = .ok () ∧ Neat (act world).2.disk

theorem Succeeds.bind {first : Act Unit} {next : Unit → Act Unit} (one : Succeeds first)
    (two : Succeeds (next ())) : Succeeds (first >>= next) := by
  intro world neat
  obtain ⟨ok, neat'⟩ := one world neat
  rcases ran : first world with ⟨result, world'⟩
  rw [ran] at ok neat'
  obtain rfl : result = .ok () := ok
  rw [run_ok ran]
  exact two world' neat'

theorem emit_succeeds (event : Event) : Succeeds (emit event) := fun _ neat => ⟨rfl, neat⟩

theorem write_succeeds {index : String} (listed : index ∈ indexFiles) (bytes : Bytes) :
    Succeeds (write index bytes) := by
  intro world neat
  refine ⟨?_, neat.within (write_within listed bytes world)⟩
  unfold write
  split
  · next files is => exact absurd is (neat.indexes index listed files)
  · rfl

theorem forM_emit_succeeds (notices : List Event) : Succeeds (notices.forM emit) := by
  induction notices with
  | nil => exact fun _ neat => ⟨rfl, neat⟩
  | cons first rest ih => exact (emit_succeeds first).bind ih

section

variable [Crates]

theorem applyActive_succeeds (index : InstalledIndex) : Succeeds (applyActive index) := by
  intro world neat
  have themeListed : activeThemePath ∈ indexFiles := by decide
  have theme : Succeeds (applyTheme (activeContent world.disk index).1) := by
    cases (activeContent world.disk index).1 with
    | some theme => exact (write_succeeds themeListed _).bind (emit_succeeds _)
    | none =>
        refine Succeeds.bind (fun world neat => ⟨rfl, ?_⟩) (emit_succeeds _)
        exact neat.within (removeFile_within themeListed world)
  exact theme.bind ((write_succeeds (by decide) _).bind (emit_succeeds _)) world neat

theorem commit_succeeds (index : InstalledIndex) (notices : List Event) :
    Succeeds (commit index notices) :=
  (write_succeeds (by decide) _).bind ((applyActive_succeeds index).bind
    ((forM_emit_succeeds notices).bind fun world neat => emit_succeeds _ world neat))

theorem remove_neat {name : String} {world : World} (neat : Neat world.disk) :
    Neat (remove name world).2.disk := by
  rcases remove_runs name world with ⟨_, ran⟩ | ⟨_, mid, _, gets, _, ran⟩
  · rw [ran]
    exact neat
  · rw [ran]
    have before : Neat mid.disk := by
      refine ⟨fun index listed files is => ?_, fun seg bytes is => ?_⟩
      · rcases gets index with same | ⟨_, gone⟩
        · exact neat.indexes index listed files (same ▸ is)
        · rw [gone] at is
          cases is
      · rcases gets seg with same | ⟨_, gone⟩
        · exact neat.dirs seg bytes (same ▸ is)
        · rw [gone] at is
          cases is
    exact (commit_succeeds _ _ mid before).2

/-- **A verified plugin is installed in its own directory**, if the directory is neat. -/
theorem persist_neat {dir : String} {manifest : Manifest} {bytes : Bytes} {world : World}
    (other : dir ∉ indexFiles) (neat : Neat world.disk) :
    (persist dir manifest bytes world).1 = .ok () ∧
      Neat (persist dir manifest bytes world).2.disk ∧
      loadInstalled (persist dir manifest bytes world).2.disk =
        (loadInstalled world.disk).record manifest := by
  have free : ∀ content, world.disk.get dir ≠ some (.file content) :=
    fun content is => other (neat.dirs dir content is)
  have listed : installedPath ∈ indexFiles := by decide
  have apart : installedPath ≠ dir := fun same => other (same ▸ listed)
  rcases persist_runs dir manifest bytes world with ⟨⟨content, isFile⟩, _⟩ |
    ⟨_, files, mid, _, gets, ran⟩
  · exact absurd isFile (free content)
  have before : Neat mid.disk := by
    refine ⟨fun index member files is => ?_, fun seg content is => ?_⟩
    · have different : index ≠ dir := fun same => other (same ▸ member)
      rw [gets, if_neg different] at is
      exact neat.indexes index member files is
    · rw [gets] at is
      split at is
      · cases is
      · exact neat.dirs seg content is
  obtain ⟨ok, after⟩ := commit_succeeds ((loadInstalled mid.disk).record manifest)
    (installNotices manifest) mid before
  refine ⟨ran ▸ ok, ran ▸ after, persist_records free apart (neat.indexes _ listed)⟩

theorem step_neat {call : Call} {world : World} (neat : Neat world.disk)
    (free : sanitize call.name ∉ indexFiles) : Neat (step call world).disk := by
  cases call with
  | remove name => exact remove_neat neat
  | install http store name =>
      have ran : step (.install http store name) world = (install http store name world).2 := rfl
      rw [ran]
      unfold install
      cases fetched : fetchPlugin http store (trimmed name) with
      | failed e => exact neat
      | refused code message => exact neat
      | verified dir manifest bytes =>
          have place := (fetchPlugin_verified fetched).place
          unfold pluginDir at place
          rw [sanitize_trimmed] at place
          split at place
          · cases place
          · exact (persist_neat (Option.some.inj place ▸ free) neat).2.1

/-- **The directory stays neat**, in every run without a call in the place of an index file. -/
theorem neat_run {calls : List Call} {world : World} (neat : Neat world.disk)
    (free : ∀ call ∈ calls, sanitize call.name ∉ indexFiles) :
    Neat (Steps.run step calls world).disk := by
  induction calls generalizing world with
  | nil => exact neat
  | cons call rest ih =>
      obtain ⟨here, others⟩ := List.forall_mem_cons.mp free
      exact ih (step_neat neat here) others

end

end ChermPlugins

namespace ChermEdge

open Cherm (Bytes utf8 isTrimmed trim)
open ChermPlugins
open Act Crates Engine

/-! ### Names that stay as they are -/

theorem sanitize_of_folded {name : String} (folded : ∀ c ∈ name.toList, foldChar c = c)
    (bare : Edges.Bare isEdge name.toList) : sanitize name = name := by
  have same : name.toList.map foldChar = name.toList :=
    (List.map_congr_left folded).trans (List.map_id' _)
  have whole : strip name.toList = name.toList := Edges.trim_of_bare bare
  rw [sanitize, same, whole, String.ofList_toList]

theorem foldChar_foldChar (c : Char) : foldChar (foldChar c) = foldChar c := by
  have lower : ∀ n < 128, (Char.ofNat n).isAlphanum = true →
      foldChar (Char.ofNat n).toLower = (Char.ofNat n).toLower := by decide
  cases alphanum : c.isAlphanum with
  | true =>
      have kept : isKept c = true := by simp [isKept, alphanum]
      have image : foldChar c = c.toLower := by rw [foldChar, if_pos kept]
      rw [image]
      exact of_ascii (p := fun c => c.isAlphanum = true → foldChar c.toLower = c.toLower) lower
        (isAlphanum_lt alphanum) alphanum
  | false =>
      by_cases kept : isKept c = true
      · have edge : c = '-' ∨ c = '_' ∨ c = '.' := by simpa [isKept, alphanum, or_assoc] using kept
        rcases edge with rfl | rfl | rfl <;> decide
      · have image : foldChar c = '-' := by rw [foldChar, if_neg kept]
        rw [image]
        decide

/-- Folding a name twice is folding it once. -/
theorem sanitize_sanitize (name : String) : sanitize (sanitize name) = sanitize name := by
  have parts : (sanitize name).toList = Edges.trim isEdge (name.toList.map foldChar) := by
    rw [sanitize, String.toList_ofList]
    rfl
  refine sanitize_of_folded (fun c member => ?_) (parts ▸ Edges.bare_trim _)
  rw [parts] at member
  obtain ⟨d, _, rfl⟩ := List.mem_map.mp (Edges.mem_of_mem_trim member)
  exact foldChar_foldChar d

section

variable [Engine]

theorem isNameChar_nameChars {point : CodePoint} {c : Char} (member : c ∈ nameChars point) :
    isNameChar c = true := by
  unfold nameChars at member
  split at member
  · split at member
    · next kept => exact List.mem_singleton.mp member ▸ kept
    · split at member
      · simp only [List.mem_cons, List.not_mem_nil, or_false, or_self] at member
        exact member ▸ rfl
      · exact List.mem_singleton.mp member ▸ rfl
  · exact List.mem_singleton.mp member ▸ rfl

theorem safeName_chars (shown : JsString) : ∀ c ∈ (safeName shown).toList, isNameChar c = true := by
  intro c member
  rw [safeName, String.toList_ofList] at member
  obtain ⟨point, _, inside⟩ := List.mem_flatMap.mp (Edges.mem_of_mem_trim (p := isEdge) member)
  exact isNameChar_nameChars inside

theorem safeName_bare (shown : JsString) : Edges.Bare isEdge (safeName shown).toList := by
  rw [safeName, String.toList_ofList]
  exact Edges.bare_trim _

theorem isNameChar_lt {c : Char} (named : isNameChar c = true) : c.toNat < 128 := by
  unfold isNameChar at named
  simp only [Bool.or_eq_true, Bool.and_eq_true, decide_eq_true_eq] at named
  rcases named with (((letter | digit) | rfl) | rfl) | rfl
  · exact lt_of_le_of_lt (show c.toNat ≤ 122 from letter.2) (by decide)
  · exact isAlphanum_lt (by simp [Char.isAlphanum, digit])
  · decide
  · decide
  · decide

/-- A character of a name is folded to itself, and in the class of the routes. -/
theorem isNameChar_spec {c : Char} (named : isNameChar c = true) :
    foldChar c = c ∧ isKept c = true ∧ c ∈ nameClass :=
  of_ascii (p := fun c => isNameChar c = true → foldChar c = c ∧ isKept c = true ∧ c ∈ nameClass)
    (by decide) (isNameChar_lt named) named

/-- **What the worker makes of a name, the client leaves as it is.** -/
theorem sanitize_safeName (shown : JsString) : sanitize (safeName shown) = safeName shown :=
  sanitize_of_folded (fun c member => (isNameChar_spec (safeName_chars shown c member)).1)
    (safeName_bare shown)

theorem pluginDir_safeName {shown : JsString} (named : safeName shown ≠ "") :
    pluginDir (safeName shown) = some (safeName shown) := by
  rw [pluginDir, sanitize_safeName, if_neg named]

theorem trimmed_safeName (shown : JsString) : trimmed (safeName shown) = safeName shown := by
  have kept : ∀ c ∈ (safeName shown).toList, isTrimmed c = false := fun c member =>
    isTrimmed_kept (isNameChar_spec (safeName_chars shown c member)).2.1
  have bare : Edges.Bare isTrimmed (safeName shown).toList :=
    ⟨fun c first => kept c (List.mem_of_mem_head? first),
      fun c last => kept c (List.mem_of_mem_getLast? last)⟩
  have whole : trim (safeName shown).toList = (safeName shown).toList := Edges.trim_of_bare bare
  rw [trimmed, whole, String.ofList_toList]

/-- The routes accept a name. -/
theorem safeName_routed {shown : JsString} (named : safeName shown ≠ "") {tail part : String}
    (slash : tail.toList = '/' :: part.toList) (last : part = "manifest" ∨ part = "package") :
    currentRoute.rmatch (safeName shown ++ tail).toList = true := by
  refine currentRoute_iff.mpr ⟨(safeName shown).toList, part.toList, ?_, ?_, fun c member =>
    (isNameChar_spec (safeName_chars shown c member)).2.2, ?_⟩
  · rw [String.toList_append, slash]
  · exact fun empty => named (String.toList_injective empty)
  · exact last.imp (congrArg String.toList) (congrArg String.toList)

theorem manifest_routed {shown : JsString} (named : safeName shown ≠ "") :
    currentRoute.rmatch (safeName shown ++ "/manifest").toList = true :=
  safeName_routed named (show "/manifest".toList = '/' :: "manifest".toList by decide) (.inl rfl)

theorem package_routed {shown : JsString} (named : safeName shown ≠ "") :
    currentRoute.rmatch (safeName shown ++ "/package").toList = true :=
  safeName_routed named (show "/package".toList = '/' :: "package".toList by decide) (.inr rfl)

/-- A name is a segment of a path, and none that leads elsewhere. -/
structure Segment (segment : String) : Prop where
  some : segment ≠ ""
  notHere : segment ≠ "."
  notAbove : segment ≠ ".."
  chars : ∀ c ∈ segment.toList, isNameChar c = true

theorem segment_safeName {shown : JsString} (named : safeName shown ≠ "") :
    Segment (safeName shown) := by
  have other : ∀ edges : String, strip edges.toList = [] → edges.toList ≠ [] →
      safeName shown ≠ edges := by
    intro edges stripped nonempty same
    have whole : strip (safeName shown).toList = (safeName shown).toList :=
      Edges.trim_of_bare (safeName_bare shown)
    rw [same, stripped] at whole
    exact nonempty whole.symm
  exact ⟨named, other "." (by decide) (by decide), other ".." (by decide) (by decide),
    safeName_chars shown⟩

/-! ### What the client gets -/

def urlOf (start : String) (segments : List String) : String :=
  segments.foldl (fun url segment => url ++ "/" ++ segment) start

/-- A URL of plain segments is requested as it is, and the worker's answer is what comes. -/
def Reaches (http : String → Except String ChermPlugins.Response) (store : String)
    (bucket : Bucket) : Prop :=
  ∀ segments : List String, (∀ segment ∈ segments, Segment segment) →
    http (urlOf store segments) =
      .ok (served (readPlugins (pathOf (urlOf "" segments)) bucket).body)

variable {http : String → Except String ChermPlugins.Response} {store : String} {bucket : Bucket}
  {shown : JsString}

/-- The worker's answer for a part of a plugin. -/
theorem Reaches.answer (reaches : Reaches http store bucket) (named : safeName shown ≠ "")
    {part : String} (segment : Segment part) :
    http (store ++ "/" ++ sanitize (safeName shown) ++ ("/" ++ part)) =
      .ok (served (readPlugins (safeName shown ++ ("/" ++ part)) bucket).body) := by
  have whole := reaches [safeName shown, part] (List.forall_mem_cons.mpr
    ⟨segment_safeName named, List.forall_mem_singleton.mpr segment⟩)
  have path : pathOf (urlOf "" [safeName shown, part]) = safeName shown ++ ("/" ++ part) := by
    have chars : (urlOf "" [safeName shown, part]).toList =
        '/' :: (safeName shown ++ ("/" ++ part)).toList := by
      simp [urlOf, String.toList_append]
    have plain : ∀ c ∈ (safeName shown ++ ("/" ++ part)).toList.head?, decide (c = '/') = false := by
      intro c head
      rw [String.toList_append, List.head?_append_of_ne_nil _
        fun empty => named (String.toList_injective empty)] at head
      have letter := safeName_chars shown c (List.mem_of_mem_head? head)
      refine decide_eq_false ?_
      rintro rfl
      exact absurd letter (by decide)
    rw [pathOf, chars, List.dropWhile_cons_of_pos (by decide), Edges.dropWhile_bare plain,
      String.ofList_toList]
  have url : urlOf store [safeName shown, part] =
      store ++ "/" ++ safeName shown ++ ("/" ++ part) := String.append_assoc
  rw [sanitize_safeName, ← url, whole, path]

theorem segment_manifest : Segment "manifest" :=
  ⟨by decide, by decide, by decide, List.all_eq_true.mp (by decide)⟩

theorem segment_package : Segment "package" :=
  ⟨by decide, by decide, by decide, List.all_eq_true.mp (by decide)⟩

theorem Reaches.manifest (reaches : Reaches http store bucket) (named : safeName shown ≠ "") :
    http (store ++ "/" ++ sanitize (safeName shown) ++ "/manifest") =
      .ok (served (readPlugins (safeName shown ++ "/manifest") bucket).body) :=
  reaches.answer named segment_manifest

theorem Reaches.package (reaches : Reaches http store bucket) (named : safeName shown ≠ "") :
    http (store ++ "/" ++ sanitize (safeName shown) ++ "/package") =
      .ok (served (readPlugins (safeName shown ++ "/package") bucket).body) :=
  reaches.answer named segment_package

variable [ChermPlugins.Crates]

/-- What the store has under a name passes the client's checks. -/
structure Passes (bucket : Bucket) (name : String) (m : Manifest) (pkg : Bytes) : Prop where
  manifest : readManifest (readPlugins (name ++ "/manifest") bucket).body = some m
  named : trimmed m.name = name
  permissions : validatePermissions m.permissions = .ok ()
  package : readCapped (served (readPlugins (name ++ "/package") bucket).body)
    maxPackageBytes = .ok pkg
  known : m.packageSha256 ≠ ""
  checksum : sha256Hex pkg = m.packageSha256
  parsed : ((fromSlice pkg).bind Package.fromJson).isSome

theorem readManifest_iff {body : Body} {m : Manifest} :
    readManifest body = some m ↔ ∃ answer, readCapped (served body) maxManifestBytes = .ok answer ∧
      (fromSlice answer).bind Manifest.fromJson = some m := by
  unfold readManifest
  cases readCapped (served body) maxManifestBytes with
  | error e =>
      constructor
      · intro found
        cases found
      · rintro ⟨_, failed, _⟩
        cases failed
  | ok answer =>
      refine ⟨fun found => ⟨answer, rfl, found⟩, ?_⟩
      rintro ⟨_, same, found⟩
      rwa [← Except.ok.inj same] at found

theorem fetch_answer {url what : String} {max : Nat} {response : ChermPlugins.Response}
    {bytes : Bytes} (answer : http url = .ok response) :
    fetch http url max what = .ok bytes ↔ readCapped response max = .ok bytes := by
  rw [fetch, answer]
  dsimp only
  cases readCapped response max with
  | error e =>
      constructor
      · intro failed
        cases failed
      · intro failed
        cases failed
  | ok whole => exact Iff.rfl

/-- The client fetches exactly what passes its checks. -/
theorem fetched_iff {m : Manifest} {pkg : Bytes} {dir : String}
    (reaches : Reaches http store bucket) (named : safeName shown ≠ "") :
    fetchPlugin http store (safeName shown) = .verified dir m pkg ↔
      dir = safeName shown ∧ Passes bucket (safeName shown) m pkg := by
  have place := pluginDir_safeName named
  have manifest : readManifest (readPlugins (safeName shown ++ "/manifest") bucket).body = some m ↔
      ∃ answer, fetch http (store ++ "/" ++ sanitize (safeName shown) ++ "/manifest")
          maxManifestBytes "manifest" = .ok answer ∧
        (fromSlice answer).bind Manifest.fromJson = some m := by
    simp only [readManifest_iff, fetch_answer (reaches.manifest named)]
  rw [fetchPlugin_iff, ← manifest, fetch_answer (reaches.package named)]
  constructor
  · rintro ⟨verified, known, isManifest, package⟩
    obtain ⟨plugin, parsed⟩ := verified.package
    exact ⟨Option.some.inj (verified.place.symm.trans place), isManifest, verified.named,
      verified.permissions, package, known, verified.checksum, by rw [parsed]; rfl⟩
  · rintro ⟨rfl, passes⟩
    exact ⟨⟨place, passes.named, passes.permissions, passes.checksum,
      Option.isSome_iff_exists.mp passes.parsed⟩, passes.known, passes.manifest, passes.package⟩

/-! ### Installing what the store has -/

/-- The plugin is fetched under the name, and installed under it. -/
def Installs (http : String → Except String ChermPlugins.Response) (store name : String)
    (world : World) : Prop :=
  ∃ m pkg, fetchPlugin http store name = .verified name m pkg ∧ trimmed m.name = name ∧
    (install http store name world).1 = .ok () ∧
    loadInstalled (install http store name world).2.disk = (loadInstalled world.disk).record m

theorem install_of_fetched {m : Manifest} {pkg : Bytes}
    (fetched : fetchPlugin http store (safeName shown) = .verified (safeName shown) m pkg) :
    install http store (safeName shown) = persist (safeName shown) m pkg := by
  rw [install, trimmed_safeName, fetched]

/-- A file in the place of its directory, and a plugin is not installed. -/
theorem not_installs_of_file {world : World} {content : Bytes}
    (isFile : world.disk.get (safeName shown) = some (.file content)) :
    ¬ Installs http store (safeName shown) world := by
  rintro ⟨m, pkg, fetched, _, ok, _⟩
  rw [install_of_fetched fetched] at ok
  rcases persist_runs (safeName shown) m pkg world with ⟨_, failed⟩ | ⟨free, _⟩
  · rw [failed] at ok
    cases ok
  · exact free content isFile

theorem installs_of_passes {world : World} {m : Manifest} {pkg : Bytes}
    (reaches : Reaches http store bucket) (named : safeName shown ≠ "")
    (other : safeName shown ∉ indexFiles) (neat : Neat world.disk)
    (passes : Passes bucket (safeName shown) m pkg) :
    Installs http store (safeName shown) world := by
  have fetched := (fetched_iff reaches named).mpr ⟨rfl, passes⟩
  refine ⟨m, pkg, fetched, passes.named, ?_⟩
  rw [install_of_fetched fetched]
  obtain ⟨ok, _, recorded⟩ := persist_neat other neat
  exact ⟨ok, recorded⟩

/-- **A plugin is installed wherever the directory is neat**, exactly if it passes the checks and its
name is that of no index file. -/
theorem installs_iff (reaches : Reaches http store bucket) (named : safeName shown ≠ "") :
    (∀ world, Neat world.disk → Installs http store (safeName shown) world) ↔
      safeName shown ∉ indexFiles ∧ ∃ m pkg, Passes bucket (safeName shown) m pkg := by
  constructor
  · intro everywhere
    constructor
    · intro listed
      -- the index file itself, as an earlier call has written it
      have neat : Neat (Table.put (∅ : Disk) (safeName shown) (.file [])) := by
        refine ⟨fun index _ files is => ?_, fun seg bytes is => ?_⟩
        · rw [Table.get_put] at is
          split at is
          · cases is
          · cases is
        · rw [Table.get_put] at is
          split at is
          · next same => exact same ▸ listed
          · cases is
      have taken : ¬ Installs http store (safeName shown)
          ⟨Table.put ∅ (safeName shown) (.file []), []⟩ :=
        not_installs_of_file ((Table.get_put _ _ _ _).trans (if_pos rfl))
      exact taken (everywhere _ neat)
    · obtain ⟨m, pkg, fetched, _⟩ := everywhere World.empty neat_empty
      exact ⟨m, pkg, ((fetched_iff reaches named).mp fetched).2⟩
  · rintro ⟨other, m, pkg, passes⟩ world neat
    exact installs_of_passes reaches named other neat passes

/-- **Store and client agree on names.** What the worker makes of a name, the client leaves as it is,
and the routes accept it; but what is listed under it is installed only if the name is that of no
index file. -/
theorem names_agree (reaches : Reaches http store bucket) (shown : JsString)
    (named : safeName shown ≠ "") :
    (sanitize (safeName shown) = safeName shown ∧
      (∀ name, sanitize (sanitize name) = sanitize name) ∧
      currentRoute.rmatch (safeName shown ++ "/manifest").toList = true ∧
      currentRoute.rmatch (safeName shown ++ "/package").toList = true) ∧
    ((∀ world, Neat world.disk → Installs http store (safeName shown) world) ↔
      safeName shown ∉ indexFiles ∧ ∃ m pkg, Passes bucket (safeName shown) m pkg) :=
  ⟨⟨sanitize_safeName shown, sanitize_sanitize, manifest_routed named, package_routed named⟩,
    installs_iff reaches named⟩

/-- What was accepted passes the checks, if the client can read it. -/
theorem accepted_passes {env : Env} {request : Request} {submission : Submission} {name : String}
    {version : JsString} {m : Manifest} (screened : screen env request = .ok submission)
    (accepted : (handleSubmit env request bucket).1 = .ok name version)
    (plain : plainManifest submission version request.now = some m)
    (fits : (toVecPretty m.toJson).length ≤ maxManifestBytes)
    (fits' : (bytes (stringify submission.pkg)).length ≤ maxPackageBytes)
    (known : sha256Hex (bytes (stringify submission.pkg)) ≠ "")
    (parsed : ((fromSlice (bytes (stringify submission.pkg))).bind Package.fromJson).isSome) :
    Passes (handleSubmit env request bucket).2 name m (bytes (stringify submission.pkg)) := by
  unfold handleSubmit at accepted ⊢
  rw [screened] at accepted ⊢
  dsimp only at accepted ⊢
  obtain ⟨rfl, index, puts⟩ := afterIndex_ok accepted
  obtain ⟨stored, named, timely, perms, checksum⟩ := plainManifest_spec plain
  obtain ⟨checked, nonempty, shown, isSafe⟩ := screen_perms screened
  rw [isSafe] at nonempty named
  have manifest : (putAll (afterIndex env request submission (bucket.get "index")).1 bucket).get
      (submission.name ++ "/manifest") = some (stringifyIndented (ofJson m.toJson)) := by
    rw [puts, ← stored]
    exact (putAll_manifest bucket submission.name _ _ _ _ submission.name).trans
      (if_pos (.inr rfl))
  have package : (putAll (afterIndex env request submission (bucket.get "index")).1 bucket).get
      (submission.name ++ "/package") = some (stringify submission.pkg) := by
    rw [puts]
    exact (putAll_package bucket submission.name _ _ _ _ submission.name).trans
      (if_pos (.inr rfl))
  rw [isSafe] at manifest package ⊢
  refine ⟨?_, ?_, ?_, ?_, checksum ▸ known, checksum.symm, parsed⟩
  · rw [readPlugins_current (manifest_routed nonempty), serveR2, manifest]
    exact readManifest_stored timely fits
  · rw [named]
    exact trimmed_safeName shown
  · rw [perms] at checked
    exact validate_of_allowed (checkPermissions_texts checked)
  · rw [readPlugins_current (package_routed nonempty), serveR2, package]
    exact readCapped_served fits'

/-- The plugin `installed.json` is installed nowhere. -/
theorem installed_never {world : World} (is : safeName shown = installedPath) :
    ¬ Installs http store (safeName shown) world := by
  rintro ⟨m, pkg, fetched, _, ok, _⟩
  rw [install_of_fetched fetched] at ok
  rcases persist_runs (safeName shown) m pkg world with ⟨_, failed⟩ |
    ⟨_, files, mid, _, gets, ran⟩
  · rw [failed] at ok
    cases ok
  · have taken : mid.disk.get installedPath = some (.dir (newFiles files m pkg)) := by
      rw [gets, if_pos is.symm]
    rw [ran, commit_taken _ _ taken] at ok
    cases ok

end

namespace Ideal

attribute [local instance] engine ChermPlugins.Ideal.crates

/-- The worker behind the URL "store". -/
def shop (bucket : Bucket) (url : String) : Except String ChermPlugins.Response :=
  .ok (served (readPlugins (pathOf (String.ofList (url.toList.drop 5))) bucket).body)

theorem urlOf_append (start rest : String) (segments : List String) :
    urlOf (start ++ rest) segments = start ++ urlOf rest segments := by
  induction segments generalizing rest with
  | nil => rfl
  | cons first others ih =>
      have next : urlOf (start ++ rest) (first :: others) =
          urlOf (start ++ rest ++ "/" ++ first) others := rfl
      rw [next, String.append_assoc, String.append_assoc, ih, ← String.append_assoc]
      rfl

theorem shop_reaches (bucket : Bucket) : Reaches (shop bucket) "store" bucket := by
  intro segments _
  have path : String.ofList ((urlOf "store" segments).toList.drop 5) = urlOf "" segments := by
    have url : urlOf "store" segments = "store" ++ urlOf "" segments :=
      urlOf_append "store" "" segments
    rw [url, String.toList_append]
    exact String.ofList_toList
  rw [shop, path]

/-- A submission with a name, and what is screened of it. -/
def submitted (name : String) : Request :=
  submits [("name", .str (ofString name)), ("version", .str (ofString "1"))]

def submissionOf (name : String) : Submission where
  manifest := .obj [(ofString "name", .str (ofString name)), (ofString "version", .str (ofString "1"))]
  pkg := .obj []
  name := safeName (ofString name)
  perms := []

/-- The bucket after it. -/
def bucketOf (name : String) : Bucket := (handleSubmit env (submitted name) ∅).2

/-- A short name, of which something is left, is accepted, and what is stored passes the checks. -/
theorem submitted_passes {name : String}
    (screened : screen env (submitted name) = .ok (submissionOf name))
    (accepted : (handleSubmit env (submitted name) ∅).1 =
      .ok (safeName (ofString name)) (ofString "1"))
    (short : (plainManifest (submissionOf name) (ofString "1") (submitted name).now).any
      fun m => decide (4 * (Json.pretty 0 m.toJson).length ≤ maxManifestBytes)) :
    ∃ m pkg, Passes (bucketOf name) (safeName (ofString name)) m pkg := by
  obtain ⟨m, plain, fits⟩ := (Option.any_eq_true _ _).mp short
  refine ⟨m, _, accepted_passes screened accepted plain
    (le_trans (ChermPlugins.Ideal.length_toVecPretty_le _) (of_decide_eq_true fits)) ?_ ?_ ?_⟩
  · show (Engine.bytes (stringify (.obj []))).length ≤ maxPackageBytes
    decide +kernel
  · show sha256Hex (Engine.bytes (stringify (.obj []))) ≠ ""
    decide +kernel
  · show ((fromSlice (Engine.bytes (stringify (.obj [])))).bind Package.fromJson).isSome = true
    decide +kernel

theorem foo_agrees :
    Installs (shop (bucketOf "Foo")) "store" (safeName (ofString "Foo")) World.empty := by
  have short : (plainManifest (submissionOf "Foo") (ofString "1") (submitted "Foo").now).any
      (fun m => decide (4 * (Json.pretty 0 m.toJson).length ≤ maxManifestBytes)) = true := by
    decide +kernel
  exact (names_agree (shop_reaches _) (ofString "Foo") (by decide +kernel)).2.mpr
    ⟨by decide +kernel, submitted_passes rfl rfl short⟩ World.empty neat_empty

/-- An accepted plugin, with the name of an index file, is listed and can be read, and is not
installed. -/
theorem index_file_listed : ¬ ∀ env request bucket name version http store world,
    (handleSubmit env request bucket).1 = .ok name version →
    Reaches http store (handleSubmit env request bucket).2 →
    (∃ m pkg, Passes (handleSubmit env request bucket).2 name m pkg) →
    Neat world.disk → Installs http store name world := by
  intro everywhere
  have is : safeName (ofString "installed.json") = installedPath := by decide +kernel
  have accepted : (handleSubmit env (submitted "installed.json") ∅).1 =
      .ok (safeName (ofString "installed.json")) (ofString "1") := rfl
  have short : (plainManifest (submissionOf "installed.json") (ofString "1")
      (submitted "installed.json").now).any
      (fun m => decide (4 * (Json.pretty 0 m.toJson).length ≤ maxManifestBytes)) = true := by
    decide +kernel
  exact installed_never is (everywhere env (submitted "installed.json") ∅ _ _ _ "store" World.empty
    accepted (shop_reaches _) (submitted_passes rfl accepted short) neat_empty)

end Ideal

end ChermEdge
