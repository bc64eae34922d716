/-
**What the store accepts, the client can read.**

The worker copies the texts of a manifest as they come, of whatever type they are; the client wants
texts. A submission whose fields are texts, if they are there at all, is stored as a manifest of the
client, and a catalogue of such entries is the client's index.

* `clean_ofJson`: the stored manifest of such a submission is the text of a `Manifest`.
* `Reads` is what the client can read; `CataloguedBy` the invariant of the bucket.
* `accepted_catalogued`, `submissions_readable`: the step and the run.
-/

import Cherm.Edge.Ideal

set_option linter.unusedSectionVars false

namespace ChermEdge

open Cherm (Bytes utf8)
open ChermPlugins (Manifest StoreIndex validatePermissions maxManifestBytes readStoreIndex toVecPretty)
open Engine

section

variable [Engine] [ChermPlugins.Crates]

/-! ### A body, as the client gets it -/

/-- The response for an object of the bucket. -/
def served (body : Body) : ChermPlugins.Response := ⟨some (bytes body).length, [.ok (bytes body)]⟩

/-- The manifest in a response, if it is one. -/
def readManifest (body : Body) : Option Manifest :=
  ((ChermPlugins.readCapped (served body) maxManifestBytes).toOption.bind
    ChermPlugins.Crates.fromSlice).bind Manifest.fromJson

theorem readCapped_served {body : Body} {max : Nat} (fits : (bytes body).length ≤ max) :
    ChermPlugins.readCapped (served body) max = .ok (bytes body) := by
  unfold ChermPlugins.readCapped served
  dsimp only
  rw [if_neg (by omega)]
  show (if max < 0 + (bytes body).length then _ else Except.ok ([] ++ bytes body)) = _
  rw [if_neg (by omega), List.nil_append]

/-- A plain record that is not too long is read back from its body. -/
theorem read_served {value : Json} (plain : Plain value) (shallow : value.Within 100)
    (fits : (toVecPretty value).length ≤ maxManifestBytes) :
    (ChermPlugins.readCapped (served (stringifyIndented (ofJson value))) maxManifestBytes).toOption.bind
      ChermPlugins.Crates.fromSlice = some value := by
  have text := bytes_ofJson value plain
  rw [readCapped_served (by rw [text]; exact fits), text]
  exact ChermPlugins.Crates.fromSlice_pretty value plain.exact shallow

/-! ### Manifests -/

/-- A manifest whose time a double holds. -/
def Timely (manifest : Manifest) : Prop := (manifest.updatedTs : Int).natAbs ≤ 2 ^ 53

theorem manifest_plain {manifest : Manifest} (timely : Timely manifest) : Plain manifest.toJson := by
  refine .obj (by simp) ?_ ?_
  · simp only [List.forall_mem_cons]
    refine ⟨?_, ?_, ?_, ?_, ?_, ?_, ?_, ?_, ?_, ?_, ?_, ?_, ?_, nofun⟩
    all_goals exact ⟨_, rfl, by decide⟩
  · simp only [List.forall_mem_cons]
    refine ⟨.str _, .str _, .str _, .str _, .str _, .str _, .str _, .str _, .str _, .arr ?_, .str _,
      .str _, .num timely, nofun⟩
    intro value member
    obtain ⟨text, _, rfl⟩ := List.mem_map.mp member
    exact .str text

theorem storeIndex_plain {index : StoreIndex} (timely : ∀ m ∈ index.plugins, Timely m) :
    Plain index.toJson := by
  refine .obj (by simp) (List.forall_mem_singleton.mpr ⟨'p', by simp, by decide⟩)
    (List.forall_mem_singleton.mpr (.arr fun value member => ?_))
  obtain ⟨manifest, listed, rfl⟩ := List.mem_map.mp member
  exact manifest_plain (timely manifest listed)

/-- A field of a submission that is falsy or a text; what the stored manifest has there. -/
def plainText (value : Option Value) (fallback : String) : Option String :=
  match orElse value (.str (ofString fallback)) with
  | .str text => toText text
  | _ => none

def plainPermission : Value → Option String
  | .str text => toText text
  | _ => none

/-- A time is one of the client's. -/
def clientTime (now : { ms : Int // ms.natAbs ≤ 8640000000000000 }) : ChermPlugins.I64 :=
  ⟨now, by have := now.2; omega, by have := now.2; omega⟩

/-- The manifest the client reads, where the fields are texts. -/
def plainManifest (submission : Submission) (version : JsString)
    (now : { ms : Int // ms.natAbs ≤ 8640000000000000 }) : Option Manifest := do
  let displayName ← plainText (submission.manifest.get "display_name") submission.name
  let version ← toText version
  let kind ← plainText (submission.manifest.get "kind") "theme"
  let description ← plainText (submission.manifest.get "description") ""
  let author ← plainText (submission.manifest.get "author") ""
  let license ← plainText (submission.manifest.get "license") ""
  let sourceUrl ← plainText (submission.manifest.get "source_url") ""
  let permissions ← submission.perms.mapM plainPermission
  let minClient ← plainText (submission.manifest.get "min_client") "0.1.0"
  return { name := submission.name, displayName, version, kind, category := "community_unaudited",
           description, author, license, sourceUrl, permissions, minClient,
           packageSha256 := ChermPlugins.Crates.sha256Hex (bytes (stringify submission.pkg)),
           updatedTs := clientTime now }

theorem orElse_of_plainText {value : Option Value} {fallback text : String}
    (plain : plainText value fallback = some text) :
    orElse value (.str (ofString fallback)) = .str (ofString text) := by
  unfold plainText at plain
  split at plain
  · next shown is => rw [is, ofString_of_toText plain]
  · cases plain

theorem perms_of_plain {perms : List Value} {texts : List String}
    (plain : perms.mapM plainPermission = some texts) :
    perms = texts.map fun text => .str (ofString text) := by
  induction perms generalizing texts with
  | nil =>
      obtain rfl := Option.some.inj plain
      rfl
  | cons first rest ih =>
      rw [List.mapM_cons] at plain
      obtain ⟨text, one, plain⟩ := Option.bind_eq_some_iff.mp plain
      obtain ⟨others, rest', same⟩ := Option.bind_eq_some_iff.mp plain
      obtain rfl := Option.some.inj same
      rw [List.map_cons, ih rest']
      cases first with
      | str shown => rw [ofString_of_toText one]
      | _ => cases one

/-- **What is stored is the text of the client's manifest.** -/
theorem plainManifest_spec {submission : Submission} {version : JsString}
    {now : { ms : Int // ms.natAbs ≤ 8640000000000000 }} {manifest : Manifest}
    (plain : plainManifest submission version now = some manifest) :
    clean submission version now = ofJson manifest.toJson ∧
      manifest.name = submission.name ∧ Timely manifest ∧
      submission.perms = manifest.permissions.map (fun text => .str (ofString text)) ∧
      manifest.packageSha256 =
        ChermPlugins.Crates.sha256Hex (bytes (stringify submission.pkg)) := by
  unfold plainManifest at plain
  obtain ⟨displayName, displayName', plain⟩ := Option.bind_eq_some_iff.mp plain
  obtain ⟨version', shown, plain⟩ := Option.bind_eq_some_iff.mp plain
  obtain ⟨kind, kind', plain⟩ := Option.bind_eq_some_iff.mp plain
  obtain ⟨description, description', plain⟩ := Option.bind_eq_some_iff.mp plain
  obtain ⟨author, author', plain⟩ := Option.bind_eq_some_iff.mp plain
  obtain ⟨license, license', plain⟩ := Option.bind_eq_some_iff.mp plain
  obtain ⟨sourceUrl, sourceUrl', plain⟩ := Option.bind_eq_some_iff.mp plain
  obtain ⟨permissions, permissions', plain⟩ := Option.bind_eq_some_iff.mp plain
  obtain ⟨minClient, minClient', plain⟩ := Option.bind_eq_some_iff.mp plain
  obtain rfl := Option.some.inj plain
  refine ⟨?_, rfl, le_trans now.2 (by decide), perms_of_plain permissions', rfl⟩
  have empty : (Js.str [] : Value) = .str (ofString "") := rfl
  have texts : ∀ list : List String, ofJsonAll Engine.ofInt (list.map Json.str) =
      list.map fun text => Js.str (ofString text) := by
    intro list
    rw [ofJsonAll_eq, List.map_map]
    refine List.map_congr_left fun text _ => ?_
    rw [Function.comp_apply, ofJsonWith]
  rw [clean, empty, orElse_of_plainText displayName', orElse_of_plainText kind',
    orElse_of_plainText description', orElse_of_plainText author', orElse_of_plainText license',
    orElse_of_plainText sourceUrl', orElse_of_plainText minClient', ofString_of_toText shown,
    perms_of_plain permissions', ofJson, Manifest.toJson, ofJsonWith]
  simp only [ofJsonFields, ofJsonWith, texts, clientTime]

/-! ### Permissions -/

/-- Permissions that are texts passed the worker's check as they are. -/
theorem checkPermissions_texts {texts : List String}
    (checked : checkPermissions (texts.map fun text => .str (ofString text)) = .ok ()) :
    ∀ perm ∈ texts, perm ∈ allowedPermissions := by
  induction texts with
  | nil => exact nofun
  | cons first rest ih =>
      rw [List.map_cons, checkPermissions, text] at checked
      dsimp only at checked
      split at checked
      · next allowed =>
        obtain ⟨perm, member, same⟩ := List.mem_map.mp allowed
        rw [ofString_injective same] at member
        exact List.forall_mem_cons.mpr ⟨member, ih checked⟩
      · cases checked

/-- What the worker allows is what the client allows. -/
theorem validate_of_allowed {perms : List String} (all : ∀ perm ∈ perms, perm ∈ allowedPermissions) :
    validatePermissions perms = .ok () := by
  refine ChermPlugins.validatePermissions_ok.mpr fun perm member => ?_
  have plain : ∀ perm ∈ allowedPermissions,
      ChermPlugins.trimmed perm ∈ ChermPlugins.allowedPermissions := by decide +kernel
  exact plain perm (all perm member)

theorem screen_perms {env : Env} {request : Request} {submission : Submission}
    (screened : screen env request = .ok submission) :
    checkPermissions submission.perms = .ok () ∧ submission.name ≠ "" ∧
      ∃ name, submission.name = safeName name := by
  unfold screen at screened
  split at screened
  · cases screened
  split at screened
  · cases screened
  dsimp only at screened
  split at screened
  · cases screened
  split at screened
  · split at screened
    · cases screened
    split at screened
    · cases screened
    next shown _ notEmpty =>
    split at screened
    · cases screened
    next checked =>
    obtain rfl := Except.ok.inj screened
    exact ⟨checked, notEmpty, shown, rfl⟩
  · cases screened

/-! ### Keys -/

theorem append_right_injective {first second tail : String} (same : first ++ tail = second ++ tail) :
    first = second := by
  have lists := congrArg String.toList same
  rw [String.toList_append, String.toList_append] at lists
  exact String.toList_injective (List.append_cancel_right lists)

theorem manifest_ne_package (first second : String) : first ++ "/manifest" ≠ second ++ "/package" := by
  intro same
  have lists := congrArg (fun key => key.toList.getLast?) same
  simp [String.toList_append] at lists

theorem key_ne_index {dir : String} {tail : String} (slash : '/' ∈ tail.toList) :
    dir ++ tail ≠ "index" := by
  intro same
  have member : '/' ∈ (dir ++ tail).toList := by
    rw [String.toList_append]
    exact List.mem_append_right _ slash
  rw [same] at member
  exact absurd member (by decide)

/-- The first segment of a key. -/
def firstSegment (key : String) : String := String.ofList (key.toList.takeWhile (· ≠ '/'))

/-- A name has no slash. -/
theorem slash_notMem_safeName (name : JsString) : '/' ∉ (safeName name).toList := by
  have chars : ∀ point : CodePoint, '/' ∉ nameChars point := by
    intro point
    unfold nameChars
    split
    · next c =>
      split
      · next kept =>
        intro member
        rw [← List.mem_singleton.mp member] at kept
        exact absurd kept (by decide)
      · split <;> decide
    · decide
  have stripped : ∀ text : List Char, '/' ∉ text → '/' ∉ ChermPlugins.strip text := by
    intro text absent member
    unfold ChermPlugins.strip at member
    have inner := (List.dropWhile_sublist _).subset (List.mem_reverse.mp member)
    exact absent ((List.dropWhile_sublist _).subset (List.mem_reverse.mp inner))
  rw [safeName, String.toList_ofList]
  refine stripped _ fun member => ?_
  obtain ⟨point, _, inside⟩ := List.mem_flatMap.mp member
  exact chars point inside

theorem firstSegment_name {name : String} (noSlash : '/' ∉ name.toList) :
    firstSegment name = name := by
  rw [firstSegment, List.takeWhile_eq_self_iff.mpr, String.ofList_toList]
  intro c member
  refine decide_eq_true ?_
  rintro rfl
  exact noSlash member

theorem firstSegment_append {name tail : String} (noSlash : '/' ∉ name.toList)
    (slash : tail.toList.head? = some '/') : firstSegment (name ++ tail) = name := by
  have inName : name.toList.takeWhile (· ≠ '/') = name.toList := by
    refine List.takeWhile_eq_self_iff.mpr fun c member => decide_eq_true ?_
    rintro rfl
    exact noSlash member
  rw [firstSegment, String.toList_append, List.takeWhile_append, inName, if_pos rfl]
  cases shape : tail.toList with
  | nil =>
      rw [shape] at slash
      cases slash
  | cons c rest =>
      rw [shape] at slash
      obtain rfl := Option.some.inj slash
      rw [List.takeWhile_cons_of_neg (by simp), List.append_nil, String.ofList_toList]

/-! ### The catalogue -/

/-- The entries of a catalogue, as values of the engine. -/
def entries (plugins : List Manifest) : List Value := plugins.map fun m => ofJson m.toJson

theorem ofJson_storeIndex (plugins : List Manifest) : ofJson (StoreIndex.toJson ⟨plugins⟩) =
    .obj [(ofString "plugins", .arr (entries plugins))] := by
  rw [ofJson, StoreIndex.toJson, ofJsonWith, ofJsonFields, ofJsonFields, ofJsonWith, ofJsonAll_eq,
    List.map_map]
  rfl

theorem isNamed_entry (name : String) (manifest : Manifest) :
    isNamed name (ofJson manifest.toJson) = decide (manifest.name = name) := by
  have found : (ofJson manifest.toJson).get "name" = some (.str (ofString manifest.name)) := by
    rw [ofJson, Manifest.toJson, ofJsonWith, ofJsonFields, ofJsonWith, Js.get,
      List.find?_cons_of_pos (by simp), Option.map_some]
  rw [isNamed, found]
  dsimp only
  exact decide_eq_decide.mpr ⟨fun same => ofString_injective same, fun same => by rw [same]⟩

theorem entry_ne_null (manifest : Manifest) : ofJson manifest.toJson ≠ .null := by
  rw [ofJson, Manifest.toJson, ofJsonWith]
  exact fun is => by cases is

theorem someNamed_cons (name : String) {p : Value} (notNull : p ≠ .null) (rest : List Value) :
    someNamed name (p :: rest) = if isNamed name p then .ok true else someNamed name rest := by
  rw [someNamed]
  exact notNull

theorem dropNamed_cons (name : String) {p : Value} (notNull : p ≠ .null) (rest : List Value) :
    dropNamed name (p :: rest) = match dropNamed name rest with
      | .error e => .error e
      | .ok kept => .ok (if isNamed name p then kept else p :: kept) := by
  cases p with
  | null => exact absurd rfl notNull
  | _ => rfl

/-! What goes wrong with the catalogue is thrown. -/

theorem loadIndex_error {found : Option Body} {e : Response} (failed : loadIndex found = .error e) :
    e = .internal := by
  unfold loadIndex at failed
  split at failed
  · split at failed <;> cases failed
  · cases failed
  · exact (Except.error.inj failed).symm

theorem someNamed_error {name : String} {plugins : List Value} {e : Response}
    (failed : someNamed name plugins = .error e) : e = .internal := by
  induction plugins with
  | nil => cases failed
  | cons first rest ih =>
      by_cases isNull : first = .null
      · rw [isNull] at failed
        exact (Except.error.inj failed).symm
      · rw [someNamed_cons _ isNull] at failed
        split at failed
        · cases failed
        · exact ih failed

theorem dropNamed_error {name : String} {plugins : List Value} {e : Response}
    (failed : dropNamed name plugins = .error e) : e = .internal := by
  induction plugins with
  | nil => cases failed
  | cons first rest ih =>
      by_cases isNull : first = .null
      · rw [isNull] at failed
        exact (Except.error.inj failed).symm
      · rw [dropNamed_cons _ isNull] at failed
        cases others : dropNamed name rest with
        | error e' =>
            rw [others] at failed
            obtain rfl := Except.error.inj failed
            exact ih others
        | ok kept =>
            rw [others] at failed
            cases failed

theorem someNamed_entries (name : String) (plugins : List Manifest) :
    someNamed name (entries plugins) = .ok (plugins.any fun m => m.name = name) := by
  induction plugins with
  | nil => rfl
  | cons first rest ih =>
      rw [entries, List.map_cons, someNamed_cons name (entry_ne_null first), isNamed_entry,
        List.any_cons]
      by_cases same : first.name = name
      · simp [same]
      · rw [decide_eq_false same]
        exact ih

theorem dropNamed_entries (name : String) (plugins : List Manifest) :
    dropNamed name (entries plugins) = .ok (entries (plugins.filter fun m => m.name ≠ name)) := by
  induction plugins with
  | nil => rfl
  | cons first rest ih =>
      have others : dropNamed name (rest.map fun m => ofJson m.toJson) = _ := ih
      rw [entries, List.map_cons, dropNamed_cons name (entry_ne_null first), others, isNamed_entry]
      by_cases same : first.name = name
      · simp [same]
      · simp [same, entries]

/-- The catalogue with a manifest in it. -/
def updated (plugins : List Manifest) (manifest : Manifest) : StoreIndex :=
  ⟨plugins.filter (fun m => m.name ≠ manifest.name) ++ [manifest]⟩

theorem withPlugins_entries (plugins : List Manifest) (manifest : Manifest) :
    withPlugins (ofJson (StoreIndex.toJson ⟨plugins⟩))
      (entries (plugins.filter fun m => m.name ≠ manifest.name) ++ [ofJson manifest.toJson]) =
      ofJson (updated plugins manifest).toJson := by
  rw [ofJson_storeIndex, updated, ofJson_storeIndex, withPlugins, Js.setFields, if_pos rfl, entries,
    entries, List.map_append, List.map_singleton]

/-! ### What the client can read -/

/-- The index can be read, every plugin in it has a manifest, and every manifest that is stored is
one of the client's, for its name, with permissions that are allowed, and with its package. -/
structure Reads (bucket : Bucket) : Prop where
  index : ∀ body, bucket.get "index" = some body → ∃ index,
    readStoreIndex (served body) = some index ∧
      ∀ m ∈ index.plugins, (bucket.get (m.name ++ "/manifest")).isSome
  manifests : ∀ dir body, bucket.get (dir ++ "/manifest") = some body → ∃ m pkg,
    readManifest body = some m ∧ m.name = firstSegment dir ∧
      validatePermissions m.permissions = .ok () ∧ bucket.get (dir ++ "/package") = some pkg ∧
      ChermPlugins.Crates.sha256Hex (bytes pkg) = m.packageSha256

/-- The plugins the client is shown. -/
def catalogue (bucket : Bucket) : List Manifest :=
  match bucket.get "index" with
  | none => []
  | some body => ((readStoreIndex (served body)).getD ⟨[]⟩).plugins

/-- If the submission is accepted: what it says of itself are texts, and neither its manifest nor
the catalogue with it is longer than the client reads. -/
def Readable (env : Env) (request : Request) (bucket : Bucket) : Prop :=
  ∀ submission, screen env request = .ok submission → ∀ name version,
    (handleSubmit env request bucket).1 = .ok name version →
    ∃ m, plainManifest submission version request.now = some m ∧
      (toVecPretty m.toJson).length ≤ maxManifestBytes ∧
      (toVecPretty (updated (catalogue bucket) m).toJson).length ≤ maxManifestBytes

/-- The bucket holds a catalogue of manifests. -/
structure CataloguedBy (bucket : Bucket) (plugins : List Manifest) : Prop where
  index : bucket.get "index" = none ∧ plugins = [] ∨
    bucket.get "index" = some (stringifyIndented (ofJson (StoreIndex.toJson ⟨plugins⟩))) ∧
      (toVecPretty (StoreIndex.toJson ⟨plugins⟩)).length ≤ maxManifestBytes
  timely : ∀ m ∈ plugins, Timely m
  listed : ∀ m ∈ plugins, (bucket.get (m.name ++ "/manifest")).isSome
  manifests : ∀ dir body, bucket.get (dir ++ "/manifest") = some body → ∃ m pkg,
    readManifest body = some m ∧ m.name = firstSegment dir ∧
      validatePermissions m.permissions = .ok () ∧ bucket.get (dir ++ "/package") = some pkg ∧
      ChermPlugins.Crates.sha256Hex (bytes pkg) = m.packageSha256

theorem readStoreIndex_stored {plugins : List Manifest} (timely : ∀ m ∈ plugins, Timely m)
    (fits : (toVecPretty (StoreIndex.toJson ⟨plugins⟩)).length ≤ maxManifestBytes) :
    readStoreIndex (served (stringifyIndented (ofJson (StoreIndex.toJson ⟨plugins⟩)))) =
      some ⟨plugins⟩ := by
  rw [readStoreIndex, read_served (storeIndex_plain timely) (StoreIndex.toJson_within _ 95) fits,
    Option.bind_some, StoreIndex.fromJson_toJson]

theorem readManifest_stored {manifest : Manifest} (timely : Timely manifest)
    (fits : (toVecPretty manifest.toJson).length ≤ maxManifestBytes) :
    readManifest (stringifyIndented (ofJson manifest.toJson)) = some manifest := by
  rw [readManifest, read_served (manifest_plain timely) (Manifest.toJson_within _ 97) fits,
    Option.bind_some, Manifest.fromJson_toJson]

theorem CataloguedBy.reads {bucket : Bucket} {plugins : List Manifest}
    (catalogued : CataloguedBy bucket plugins) : Reads bucket := by
  refine ⟨fun body stored => ?_, catalogued.manifests⟩
  rcases catalogued.index with ⟨absent, _⟩ | ⟨present, fits⟩
  · rw [absent] at stored
    cases stored
  · rw [present] at stored
    obtain rfl := Option.some.inj stored
    exact ⟨⟨plugins⟩, readStoreIndex_stored catalogued.timely fits, catalogued.listed⟩

theorem CataloguedBy.catalogue {bucket : Bucket} {plugins : List Manifest}
    (catalogued : CataloguedBy bucket plugins) : ChermEdge.catalogue bucket = plugins := by
  unfold ChermEdge.catalogue
  rcases catalogued.index with ⟨absent, rfl⟩ | ⟨present, fits⟩
  · rw [absent]
  · rw [present]
    dsimp only
    rw [readStoreIndex_stored catalogued.timely fits, Option.getD_some]

/-- The worker reads the catalogue as it wrote it. -/
theorem CataloguedBy.loadIndex {bucket : Bucket} {plugins : List Manifest}
    (catalogued : CataloguedBy bucket plugins) : ChermEdge.loadIndex (bucket.get "index") =
      .ok (ofJson (StoreIndex.toJson ⟨plugins⟩), entries plugins) := by
  have read : indexOf (bucket.get "index") = ofJson (StoreIndex.toJson ⟨plugins⟩) := by
    unfold indexOf
    rcases catalogued.index with ⟨absent, rfl⟩ | ⟨present, _⟩
    · rw [absent, ofJson_storeIndex]
      rfl
    · rw [present]
      dsimp only
      rw [parse_stringifyIndented, Option.getD_some]
      exact reread_ofJson (storeIndex_plain catalogued.timely)
  unfold ChermEdge.loadIndex
  rw [read, ofJson_storeIndex]
  dsimp only
  rw [Js.get, List.find?_cons_of_pos (by simp), Option.map_some]

/-! ### A submission, and a run of them -/

/-- What is under a key after an accepted submission. -/
theorem putAll_get (bucket : Bucket) (name release : String) (manifest pkg index : Body)
    (key : String) :
    (putAll [(name ++ "/manifest", manifest), (name ++ "/package", pkg),
      (release ++ "/manifest", manifest), (release ++ "/package", pkg), ("index", index)]
      bucket).get key =
      if key = "index" then some index
      else if key = release ++ "/package" then some pkg
      else if key = release ++ "/manifest" then some manifest
      else if key = name ++ "/package" then some pkg
      else if key = name ++ "/manifest" then some manifest else bucket.get key := by
  simp only [putAll, List.foldl_cons, List.foldl_nil, Table.get_put]

/-- What is accepted is accepted under its name, and its objects are put, then the catalogue. -/
theorem afterIndex_ok {env : Env} {request : Request} {submission : Submission}
    {found : Option Body} {name : String} {version : JsString}
    (accepted : (afterIndex env request submission found).2 = .ok name version) :
    name = submission.name ∧ ∃ index, (afterIndex env request submission found).1 =
      objects submission version request.now ++ [("index", index)] := by
  unfold afterIndex at accepted ⊢
  cases loaded : loadIndex found with
  | error e =>
      rw [loaded, loadIndex_error loaded] at accepted
      cases accepted
  | ok read =>
  obtain ⟨index, plugins⟩ := read
  rw [loaded] at accepted
  dsimp only at accepted ⊢
  cases taken : someNamed submission.name plugins with
  | error e =>
      rw [taken, someNamed_error taken] at accepted
      cases accepted
  | ok isTaken =>
  rw [taken] at accepted
  dsimp only at accepted ⊢
  by_cases refused : (isTaken && !hasToken env request) = true
  · rw [if_pos refused] at accepted
    cases accepted
  rw [if_neg refused] at accepted ⊢
  cases versioned : (submission.manifest.get "version").bind text with
  | none =>
      rw [versioned] at accepted
      cases accepted
  | some version' =>
  rw [versioned] at accepted
  dsimp only at accepted ⊢
  cases dropped : dropNamed submission.name plugins with
  | error e =>
      rw [dropped, dropNamed_error dropped] at accepted
      cases accepted
  | ok kept =>
      rw [dropped] at accepted
      obtain ⟨rfl, rfl⟩ := Response.ok.inj accepted
      exact ⟨rfl, _, rfl⟩

theorem putAll_manifest (bucket : Bucket) (name release : String) (manifest pkg index : Body)
    (dir : String) :
    (putAll [(name ++ "/manifest", manifest), (name ++ "/package", pkg),
      (release ++ "/manifest", manifest), (release ++ "/package", pkg), ("index", index)]
      bucket).get (dir ++ "/manifest") =
      if dir = release ∨ dir = name then some manifest else bucket.get (dir ++ "/manifest") := by
  rw [putAll_get, if_neg (key_ne_index (by decide)), if_neg (manifest_ne_package _ _)]
  by_cases isRelease : dir = release
  · rw [if_pos (by rw [isRelease]), if_pos (.inl isRelease)]
  · rw [if_neg fun same => isRelease (append_right_injective same),
      if_neg (manifest_ne_package _ _)]
    by_cases isName : dir = name
    · rw [if_pos (by rw [isName]), if_pos (.inr isName)]
    · rw [if_neg fun same => isName (append_right_injective same),
        if_neg (not_or.mpr ⟨isRelease, isName⟩)]

theorem putAll_package (bucket : Bucket) (name release : String) (manifest pkg index : Body)
    (dir : String) :
    (putAll [(name ++ "/manifest", manifest), (name ++ "/package", pkg),
      (release ++ "/manifest", manifest), (release ++ "/package", pkg), ("index", index)]
      bucket).get (dir ++ "/package") =
      if dir = release ∨ dir = name then some pkg else bucket.get (dir ++ "/package") := by
  rw [putAll_get, if_neg (key_ne_index (by decide))]
  by_cases isRelease : dir = release
  · rw [if_pos (by rw [isRelease]), if_pos (.inl isRelease)]
  · rw [if_neg fun same => isRelease (append_right_injective same),
      if_neg (manifest_ne_package _ _).symm]
    by_cases isName : dir = name
    · rw [if_pos (by rw [isName]), if_pos (.inr isName)]
    · rw [if_neg fun same => isName (append_right_injective same),
        if_neg (manifest_ne_package _ _).symm, if_neg (not_or.mpr ⟨isRelease, isName⟩)]

/-- A submission in a bucket that holds a catalogue: nothing is put, or it is accepted. -/
theorem afterIndex_catalogued {env : Env} {request : Request} {submission : Submission}
    {bucket : Bucket} {plugins : List Manifest} (catalogued : CataloguedBy bucket plugins) :
    ((afterIndex env request submission (bucket.get "index")).1 = [] ∧
        ∀ name version, (afterIndex env request submission (bucket.get "index")).2 ≠
          .ok name version) ∨
      ∃ version, (afterIndex env request submission (bucket.get "index")).2 =
          .ok submission.name version ∧
        (afterIndex env request submission (bucket.get "index")).1 =
          objects submission version request.now ++ [("index", stringifyIndented
            (withPlugins (ofJson (StoreIndex.toJson ⟨plugins⟩))
              (entries (plugins.filter fun m => m.name ≠ submission.name) ++
                [clean submission version request.now])))] := by
  unfold afterIndex
  rw [catalogued.loadIndex]
  dsimp only
  rw [someNamed_entries]
  dsimp only
  split
  · exact .inl ⟨rfl, fun _ _ => nofun⟩
  · cases (submission.manifest.get "version").bind text with
    | none => exact .inl ⟨rfl, fun _ _ => nofun⟩
    | some version =>
        dsimp only
        rw [dropNamed_entries]
        exact .inr ⟨version, rfl, rfl⟩

/-- A submission that is accepted, and says of itself what the client takes for texts, is added to
the catalogue. -/
theorem accepted_catalogued {env : Env} {request : Request} {bucket : Bucket}
    {plugins : List Manifest} {submission : Submission} {name : String} {version : JsString}
    {m : Manifest} (catalogued : CataloguedBy bucket plugins)
    (screened : screen env request = .ok submission)
    (accepted : (handleSubmit env request bucket).1 = .ok name version)
    (plain : plainManifest submission version request.now = some m)
    (fits : (toVecPretty m.toJson).length ≤ maxManifestBytes)
    (fits' : (toVecPretty (updated plugins m).toJson).length ≤ maxManifestBytes) :
    CataloguedBy (handleSubmit env request bucket).2 (updated plugins m).plugins := by
  unfold handleSubmit at accepted ⊢
  rw [screened] at accepted ⊢
  dsimp only at accepted ⊢
  rcases afterIndex_catalogued catalogued with ⟨_, refused⟩ | ⟨version', response, puts⟩
  · exact absurd accepted (refused name version)
  · obtain ⟨_, rfl⟩ := Response.ok.inj (accepted.symm.trans response)
    obtain ⟨stored, named, timely, perms, checksum⟩ := plainManifest_spec plain
    obtain ⟨checked, _, shown, safe⟩ := screen_perms screened
    rw [puts, ← named, stored, withPlugins_entries]
    have noSlash : '/' ∉ m.name.toList := by
      rw [named, safe]
      exact slash_notMem_safeName shown
    have shape : objects submission version request.now =
        [(m.name ++ "/manifest", stringifyIndented (ofJson m.toJson)),
          (m.name ++ "/package", stringify submission.pkg),
          (m.name ++ "/releases/" ++ toWellFormed version ++ "/manifest",
            stringifyIndented (ofJson m.toJson)),
          (m.name ++ "/releases/" ++ toWellFormed version ++ "/package",
            stringify submission.pkg)] := by
      rw [objects, stored, named]
    rw [shape, List.cons_append, List.cons_append, List.cons_append, List.cons_append,
      List.nil_append]
    refine ⟨.inr ⟨?_, fits'⟩, ?_, ?_, ?_⟩
    · rw [putAll_get, if_pos rfl]
    · intro other member
      rcases List.mem_append.mp member with kept | isNew
      · exact catalogued.timely other (List.mem_filter.mp kept).1
      · rw [List.mem_singleton.mp isNew]
        exact timely
    · intro other member
      rw [putAll_manifest]
      split
      · rfl
      · next elsewhere =>
        rcases List.mem_append.mp member with kept | isNew
        · exact catalogued.listed other (List.mem_filter.mp kept).1
        · exact absurd (.inr (by rw [List.mem_singleton.mp isNew])) elsewhere
    · intro dir body there
      rw [putAll_manifest] at there
      rw [putAll_package]
      split at there
      · next here =>
        obtain rfl := Option.some.inj there
        refine ⟨m, stringify submission.pkg, readManifest_stored timely fits, ?_, ?_,
          if_pos here, checksum.symm⟩
        · rcases here with rfl | rfl
          · rw [String.append_assoc]
            exact (firstSegment_append noSlash (by simp [String.toList_append])).symm
          · exact (firstSegment_name noSlash).symm
        · rw [perms] at checked
          exact validate_of_allowed (checkPermissions_texts checked)
      · next elsewhere =>
        rw [if_neg elsewhere]
        exact catalogued.manifests dir body there

/-- **A readable submission keeps the catalogue one.** -/
theorem handleSubmit_catalogued {env : Env} {request : Request} {bucket : Bucket}
    {plugins : List Manifest} (catalogued : CataloguedBy bucket plugins)
    (readable : Readable env request bucket) :
    ∃ plugins', CataloguedBy (handleSubmit env request bucket).2 plugins' := by
  cases screened : screen env request with
  | error e =>
      unfold handleSubmit
      rw [screened]
      exact ⟨plugins, catalogued⟩
  | ok submission =>
      have done : handleSubmit env request bucket =
          ((afterIndex env request submission (bucket.get "index")).2,
            putAll (afterIndex env request submission (bucket.get "index")).1 bucket) := by
        unfold handleSubmit
        rw [screened]
      rcases afterIndex_catalogued catalogued with ⟨nothing, _⟩ | ⟨version, response, _⟩
      · rw [done, nothing]
        exact ⟨plugins, catalogued⟩
      · have accepted := (congrArg Prod.fst done).trans response
        obtain ⟨m, plain, fits, fits'⟩ := readable submission screened _ version accepted
        rw [catalogued.catalogue] at fits'
        exact ⟨_, accepted_catalogued catalogued screened accepted plain fits fits'⟩

theorem catalogued_empty : CataloguedBy (∅ : Bucket) [] := by
  refine ⟨.inl ⟨Table.get_empty _, rfl⟩, fun _ member => absurd member List.not_mem_nil,
    fun _ member => absurd member List.not_mem_nil, fun dir body there => ?_⟩
  rw [Table.get_empty] at there
  cases there

/-- **What the store accepts, the client can read**, after every submission of a run in which the
accepted ones say of themselves what the client takes for texts. -/
theorem submissions_readable (env : Env) (requests : List Request)
    (readable : Steps.Each (fun request bucket => (handleSubmit env request bucket).2)
      (Readable env) requests ∅) :
    Steps.Each (fun request bucket => (handleSubmit env request bucket).2)
      (fun request bucket => Reads (handleSubmit env request bucket).2) requests ∅ := by
  have kept := readable.keeps
    (fun request bucket (catalogued : ∃ plugins, CataloguedBy bucket plugins) meets =>
      catalogued.elim fun _ catalogued => handleSubmit_catalogued catalogued meets)
    ⟨[], catalogued_empty⟩
  exact kept.mono fun request bucket ⟨_, _, plugins, catalogued⟩ => catalogued.reads

/-- An index that is another record cannot be read. -/
theorem readStoreIndex_none {body : Body} {value : Json} (is : bytes body = toVecPretty value)
    (plain : Plain value) (shallow : value.Within 100) (other : StoreIndex.fromJson value = none) :
    readStoreIndex (served body) = none := by
  unfold readStoreIndex
  cases capped : ChermPlugins.readCapped (served body) maxManifestBytes with
  | error e => rfl
  | ok read =>
      have whole : read = toVecPretty value := by
        by_cases fits : (bytes body).length ≤ maxManifestBytes
        · rw [readCapped_served fits] at capped
          rw [← Except.ok.inj capped, is]
        · unfold ChermPlugins.readCapped served at capped
          dsimp only at capped
          rw [if_pos (by omega)] at capped
          cases capped
      show ((ChermPlugins.Crates.fromSlice read).bind StoreIndex.fromJson) = none
      rw [whole, ChermPlugins.Crates.fromSlice_pretty value plain.exact shallow, Option.bind_some,
        other]

end

namespace Ideal

attribute [local instance] engine ChermPlugins.Ideal.crates

/-- A submission with texts and permissions. -/
def goodRequest : Request :=
  submits [("name", .str (ofString "clock")), ("version", .str (ofString "1.0")),
    ("display_name", .str (ofString "Clock")), ("kind", .str (ofString "widget")),
    ("description", .str (ofString "shows the time")), ("license", .str (ofString "MIT")),
    ("permissions", .arr [.str (ofString "tui.widget"), .str (ofString "notify")])]

/-- A submission with the two fields that are required. -/
def nextRequest : Request :=
  submits [("name", .str (ofString "dusk")), ("version", .str (ofString "2"))]

/-- What is read of them. -/
def screenedAs (request : Request) (name : String) (perms : List String) : Submission where
  manifest := (request.body.bind fun body => body.get "manifest").getD .null
  pkg := .obj []
  name := name
  perms := perms.map fun perm => .str (ofString perm)

def goodSubmission : Submission := screenedAs goodRequest "clock" ["tui.widget", "notify"]

def nextSubmission : Submission := screenedAs nextRequest "dusk" []

theorem good_lengths : ∃ m m', plainManifest goodSubmission (ofString "1.0") goodRequest.now =
    some m ∧ plainManifest nextSubmission (ofString "2") nextRequest.now = some m' ∧
    ∀ value ∈ [m.toJson, (updated [] m).toJson, m'.toJson,
      (updated (updated [] m).plugins m').toJson],
      4 * (Json.pretty 0 value).length ≤ maxManifestBytes := by
  have checked : ((plainManifest goodSubmission (ofString "1.0") goodRequest.now).bind fun m =>
      (plainManifest nextSubmission (ofString "2") nextRequest.now).map fun (m' : Manifest) =>
        decide (∀ value ∈ [m.toJson, (updated [] m).toJson, m'.toJson,
          (updated (updated [] m).plugins m').toJson],
          4 * (Json.pretty 0 value).length ≤ maxManifestBytes)) = some true := by
    decide +kernel
  obtain ⟨m, plain, rest⟩ := Option.bind_eq_some_iff.mp checked
  obtain ⟨m', plain', fits⟩ := Option.map_eq_some_iff.mp rest
  exact ⟨m, m', plain, plain', of_decide_eq_true fits⟩

/-- Two submissions after each other are readable. -/
theorem good_readable : Steps.Each (fun request bucket => (handleSubmit env request bucket).2)
    (fun request bucket => Reads (handleSubmit env request bucket).2)
    [goodRequest, nextRequest] ∅ := by
  obtain ⟨m, m', plain, plain', lengths⟩ := good_lengths
  have fits : ∀ value ∈ [m.toJson, (updated [] m).toJson, m'.toJson,
      (updated (updated [] m).plugins m').toJson],
      (toVecPretty value).length ≤ maxManifestBytes := fun value member =>
    le_trans (ChermPlugins.Ideal.length_toVecPretty_le _) (lengths value member)
  have isGood : screen env goodRequest = .ok goodSubmission := rfl
  have isNext : screen env nextRequest = .ok nextSubmission := rfl
  have first : (handleSubmit env goodRequest ∅).1 = .ok "clock" (ofString "1.0") := rfl
  have second : (handleSubmit env nextRequest (handleSubmit env goodRequest ∅).2).1 =
    .ok "dusk" (ofString "2") := rfl
  have stored := accepted_catalogued catalogued_empty isGood first plain (fits _ (by simp))
    (fits _ (by simp))
  refine submissions_readable env _ ⟨?_, ?_, trivial⟩
  · intro submission screened name version accepted
    obtain rfl : goodSubmission = submission := Except.ok.inj (isGood.symm.trans screened)
    obtain ⟨_, rfl⟩ := Response.ok.inj (first.symm.trans accepted)
    exact ⟨m, plain, fits _ (by simp), by
      rw [catalogued_empty.catalogue]
      exact fits _ (by simp)⟩
  · intro submission screened name version accepted
    obtain rfl : nextSubmission = submission := Except.ok.inj (isNext.symm.trans screened)
    obtain ⟨_, rfl⟩ := Response.ok.inj (second.symm.trans accepted)
    refine ⟨m', plain', fits _ (by simp), ?_⟩
    rw [stored.catalogue]
    exact fits _ (by simp)

/-- A submission whose display name is a number. -/
def badRequest : Request := submits [("name", .str (ofString "x")),
  ("version", .str (ofString "1")), ("display_name", .num 5)]

def badIndex : Json := .obj [("plugins", .arr [.obj [("name", .str "x"), ("display_name", .num 5),
  ("version", .str "1"), ("kind", .str "theme"), ("category", .str "community_unaudited"),
  ("description", .str ""), ("author", .str ""), ("license", .str ""), ("source_url", .str ""),
  ("permissions", .arr []), ("min_client", .str "0.1.0"),
  ("package_sha256",
    .str "44136fa355b3678a1146ad16f7e8649e94fb4fc21fe77e8310c060f61caaff8a"),
  ("updated_ts", .num 0)]])]

theorem badIndex_plain : Plain badIndex := by
  refine .obj (by simp) (List.forall_mem_singleton.mpr ⟨'p', by simp, by decide⟩)
    (List.forall_mem_singleton.mpr (.arr (List.forall_mem_singleton.mpr (.obj (by simp) ?_ ?_))))
  · simp only [List.forall_mem_cons]
    refine ⟨?_, ?_, ?_, ?_, ?_, ?_, ?_, ?_, ?_, ?_, ?_, ?_, ?_, nofun⟩
    all_goals exact ⟨_, rfl, by decide⟩
  · simp only [List.forall_mem_cons]
    exact ⟨.str _, .num (by decide), .str _, .str _, .str _, .str _, .str _, .str _, .str _,
      .arr nofun, .str _, .str _, .num (by decide), nofun⟩

/-- It is accepted, and the catalogue is this one. -/
theorem bad_stored : ((handleSubmit env badRequest ∅).2.get "index").bind (fun body =>
    (toJson body.1).map fun value => (value, body.2)) = some (badIndex, true) := by
  decide +kernel

/-- **One submission and no client can read the catalogue.** -/
theorem bad_unreadable : ¬ Steps.Each (fun request bucket => (handleSubmit env request bucket).2)
    (fun request bucket => Reads (handleSubmit env request bucket).2) [badRequest] ∅ := by
  rintro ⟨reads, _⟩
  obtain ⟨body, stored, is⟩ := Option.bind_eq_some_iff.mp bad_stored
  obtain ⟨value, json, same⟩ := Option.map_eq_some_iff.mp is
  obtain ⟨rfl, indented⟩ := Prod.mk.inj same
  obtain ⟨index, read, _⟩ := reads.index body stored
  have text : bytes body = toVecPretty badIndex := by
    rw [bytes, json]
    dsimp only
    rw [indented, if_pos rfl]
  rw [readStoreIndex_none text badIndex_plain (by simp [badIndex, Json.Within]) (by decide +kernel)]
    at read
  cases read

end Ideal

end ChermEdge
