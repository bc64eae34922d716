/-
**Open submissions side by side.**

A submission reads the catalogue, writes its objects, and writes the catalogue back. If at every
such last write the catalogue is still the one that was read, no accepted submission is lost and no
object of another is changed; where two of one name got past the check, the later one writes back
over a catalogue it has not read.

* `afterIndex_open`: what a submission without a token does with the catalogue it has read.
* `Task`, `Kept`: the invariant. The objects of a submission are in place, or another of the same
  name is on its way, or the name is taken and the submission will find so.
* `next_went`: what one request to the bucket does; `turn_kept`, `submissions_kept`: the step and
  the run; `alone_fresh`: submissions that do not overlap meet the condition.
-/

import Cherm.Proof.StoreReads

set_option linter.unusedSectionVars false

namespace ChermEdge

open Engine

section

variable [Engine] [ChermPlugins.Crates]

/-! ### The plugins of a catalogue -/

/-- The plugins of a catalogue that was read. -/
def pluginsOf (found : Option Body) : List Value :=
  match indexOf found with
  | .obj fields => match (Js.obj fields).get "plugins" with
      | some (.arr plugins) => plugins
      | _ => []
  | _ => []

/-- A plugin of the name is in the catalogue. -/
def Listed (name : String) (found : Option Body) : Prop :=
  ∃ p ∈ pluginsOf found, isNamed name p = true

theorem loadIndex_ok {found : Option Body} {index : Value} {plugins : List Value}
    (loaded : loadIndex found = .ok (index, plugins)) :
    index = indexOf found ∧ plugins = pluginsOf found := by
  unfold loadIndex at loaded
  unfold pluginsOf
  cases shape : indexOf found with
  | obj fields =>
      rw [shape] at loaded
      dsimp only at loaded ⊢
      generalize (Js.obj fields).get "plugins" = entry at loaded ⊢
      rcases entry with _ | (_ | _ | _ | _ | _ | _)
      all_goals
        obtain ⟨rfl, rfl⟩ := Prod.mk.inj (Except.ok.inj loaded)
        exact ⟨rfl, rfl⟩
  | arr values =>
      rw [shape] at loaded
      obtain ⟨rfl, rfl⟩ := Prod.mk.inj (Except.ok.inj loaded)
      exact ⟨rfl, rfl⟩
  | null | bool value | num value | str value =>
      rw [shape] at loaded
      cases loaded

theorem someNamed_false {name : String} {plugins : List Value}
    (none : someNamed name plugins = .ok false) :
    (∀ p ∈ plugins, isNamed name p = false) ∧ dropNamed name plugins = .ok plugins := by
  induction plugins with
  | nil => exact ⟨nofun, rfl⟩
  | cons first rest ih =>
      have notNull : first ≠ .null := by
        rintro rfl
        cases none
      rw [someNamed_cons name notNull] at none
      split at none
      · cases none
      · next other =>
        obtain ⟨all, same⟩ := ih none
        have unnamed := Bool.eq_false_iff.mpr other
        refine ⟨List.forall_mem_cons.mpr ⟨unnamed, all⟩, ?_⟩
        rw [dropNamed_cons name notNull, same]
        dsimp only
        rw [unnamed]
        rfl

/-- The catalogue that a submission writes back. -/
def catalogueWith (read : Option Body) (new : Value) : Body :=
  stringifyIndented (withPlugins (indexOf read) (pluginsOf read ++ [new]))

/-- The checks a submission has passed. -/
structure Accepts (env : Env) (request : Request) (submission : Submission) (version : JsString) :
    Prop where
  screened : screen env request = .ok submission
  versioned : (submission.manifest.get "version").bind text = some version

/-- **A submission without a token**: it is refused and puts nothing, or no plugin has its name and
it puts its objects and the catalogue with its entry. -/
theorem afterIndex_open {env : Env} {request : Request} {submission : Submission}
    (noToken : hasToken env request = false) (found : Option Body) :
    ((afterIndex env request submission found).1 = [] ∧
        ∀ name version, (afterIndex env request submission found).2 ≠ .ok name version) ∨
      ∃ version, (submission.manifest.get "version").bind text = some version ∧
        ¬ Listed submission.name found ∧
        afterIndex env request submission found =
          (objects submission version request.now ++
            [("index", catalogueWith found (clean submission version request.now))],
            .ok submission.name version) := by
  unfold afterIndex
  cases loaded : loadIndex found with
  | error e => exact .inl ⟨rfl, fun _ _ => by rw [loadIndex_error loaded]; nofun⟩
  | ok read =>
      obtain ⟨index, plugins⟩ := read
      obtain ⟨rfl, rfl⟩ := loadIndex_ok loaded
      dsimp only
      cases taken : someNamed submission.name (pluginsOf found) with
      | error e => exact .inl ⟨rfl, fun _ _ => by rw [someNamed_error taken]; nofun⟩
      | ok isTaken =>
          rw [noToken]
          cases isTaken with
          | true => exact .inl ⟨rfl, nofun⟩
          | false =>
              obtain ⟨all, same⟩ := someNamed_false taken
              dsimp only
              rw [if_neg (by decide), same]
              cases versioned : (submission.manifest.get "version").bind text with
              | none => exact .inl ⟨rfl, nofun⟩
              | some version =>
                  refine .inr ⟨version, rfl, ?_, rfl⟩
                  rintro ⟨p, member, named⟩
                  rw [all p member] at named
                  cases named

/-! ### The catalogue after it was written back -/

theorem get_reread (value : Value) (name : String) :
    (reread value).get name = (value.get name).map reread := by
  cases value with
  | obj fields =>
      rw [reread, rereadWith, rereadFields_eq, Js.get, Js.get, List.find?_map, Option.map_map,
        Option.map_map]
      rfl
  | num value =>
      rw [reread, rereadWith]
      cases jsonNumber value <;> rfl
  | _ =>
      rw [reread, rereadWith]
      rfl

theorem isNamed_reread (name : String) (value : Value) :
    isNamed name (reread value) = isNamed name value := by
  unfold isNamed
  rw [get_reread]
  cases value.get "name" with
  | none => rfl
  | some shown =>
      rw [Option.map_some]
      cases shown with
      | num number =>
          rw [reread, rereadWith]
          cases jsonNumber number <;> rfl
      | _ =>
          rw [reread, rereadWith]
          try rfl

/-- A catalogue that was read as an object is written back as one, with the plugins that were read
and the new one. -/
theorem indexOf_catalogueWith {read : Option Body} {fields : List (JsString × Value)}
    (isObject : indexOf read = .obj fields) (new : Value) : ∃ fields',
      indexOf (some (catalogueWith read new)) = .obj fields' ∧
      (Js.obj fields').get "plugins" = some (.arr ((pluginsOf read ++ [new]).map reread)) := by
  let written := Js.setFields (ofString "plugins") (.arr (pluginsOf read ++ [new])) fields
  have back : indexOf (some (catalogueWith read new)) = reread (.obj written) := by
    show (parse (catalogueWith read new)).getD noPlugins = _
    rw [catalogueWith, isObject, withPlugins, parse_stringifyIndented, Option.getD_some]
  have there : (reread (.obj written)).get "plugins" =
      some (.arr ((pluginsOf read ++ [new]).map reread)) := by
    rw [get_reread, Js.get, Js.find_setFields, Option.map_some, Option.map_some, reread, rereadWith,
      rereadAll_eq]
  rw [reread, rereadWith] at back there
  exact ⟨_, back, there⟩

theorem pluginsOf_catalogueWith {read : Option Body} {fields : List (JsString × Value)}
    (isObject : indexOf read = .obj fields) (new : Value) :
    pluginsOf (some (catalogueWith read new)) = (pluginsOf read ++ [new]).map reread := by
  obtain ⟨fields', back, there⟩ := indexOf_catalogueWith isObject new
  unfold pluginsOf
  rw [back]
  dsimp only
  rw [there]
  rfl

theorem named_of_clean (submission : Submission) (version : JsString) (now : Int) :
    isNamed submission.name (reread (clean submission version now)) = true := by
  have found : (clean submission version now).get "name" =
      some (.str (ofString submission.name)) := by
    rw [clean, Js.get, List.find?_cons_of_pos (by simp), Option.map_some]
  rw [isNamed_reread, isNamed, found]
  exact decide_eq_true rfl

/-! ### Keys of a plugin -/

/-- The key is one of the plugin's. -/
def IsOf (name key : String) : Prop := '/' ∈ key.toList ∧ firstSegment key = name

theorem IsOf.ne_index {name key : String} (isOf : IsOf name key) : key ≠ "index" := by
  rintro rfl
  exact absurd isOf.1 (by decide)

theorem isOf_append {name tail : String} (noSlash : '/' ∉ name.toList)
    (slash : tail.toList.head? = some '/') : IsOf name (name ++ tail) := by
  refine ⟨?_, firstSegment_append noSlash slash⟩
  rw [String.toList_append]
  exact List.mem_append_right _ (List.mem_of_mem_head? slash)

theorem objects_isOf {env : Env} {request : Request} {submission : Submission}
    (screened : screen env request = .ok submission) (version : JsString) (now : Int) :
    ∀ put ∈ objects submission version now, IsOf submission.name put.1 := by
  obtain ⟨_, _, shown, name⟩ := screen_perms screened
  have noSlash : '/' ∉ submission.name.toList := by
    rw [name]
    exact slash_notMem_safeName shown
  simp only [objects, String.append_assoc, List.forall_mem_cons]
  refine ⟨?_, ?_, ?_, ?_, fun _ none => absurd none List.not_mem_nil⟩
  all_goals exact isOf_append noSlash (by simp [String.toList_append])

/-- The four keys of a submission differ. -/
theorem objects_keys_nodup (submission : Submission) (version : JsString) (now : Int) :
    ((objects submission version now).map Prod.fst).Nodup := by
  have longer : ∀ dir : String, submission.name ≠ submission.name ++ "/releases/" ++ dir := by
    intro dir same
    have lengths := congrArg (fun key => key.toList.length) same
    simp [String.toList_append] at lengths
  simp only [objects, List.map_cons, List.map_nil, List.nodup_cons, List.mem_cons,
    List.not_mem_nil, or_false, not_or]
  refine ⟨⟨manifest_ne_package _ _, fun same => longer _ (append_right_injective same),
    manifest_ne_package _ _⟩, ⟨(manifest_ne_package _ _).symm, fun same =>
    longer _ (append_right_injective same)⟩, manifest_ne_package _ _, id, List.nodup_nil⟩

/-- The objects are in the bucket as they were put. -/
def InPlace (bucket : Bucket) (puts : List (String × Body)) : Prop :=
  ∀ put ∈ puts, bucket.get put.1 = some put.2

theorem InPlace.put {bucket : Bucket} {puts : List (String × Body)} (inPlace : InPlace bucket puts)
    {key : String} (elsewhere : key ∉ puts.map Prod.fst) (body : Body) :
    InPlace (bucket.put key body) puts := by
  intro put member
  rw [Table.get_put, if_neg]
  · exact inPlace put member
  · rintro rfl
    exact elsewhere (List.mem_map_of_mem member)

theorem InPlace.append {bucket : Bucket} {puts : List (String × Body)}
    (inPlace : InPlace bucket puts) {put : String × Body} (isNew : put.1 ∉ puts.map Prod.fst) :
    InPlace (bucket.put put.1 put.2) (puts ++ [put]) := by
  intro other member
  rcases List.mem_append.mp member with old | last
  · exact inPlace.put isNew put.2 other old
  · obtain rfl := List.mem_singleton.mp last
    rw [Table.get_put, if_pos rfl]

/-! ### The invariant -/

variable {ι : Type} [DecidableEq ι] (env : Env) (requests : ι → Request)

/-- Nothing has begun. -/
def start (first : Bucket) : Store ι := ⟨fun i => .waiting (requests i), first⟩

/-- If the run is about to write the catalogue back, the catalogue is an object and is still what
the run has read. -/
def Fresh (i : ι) (store : Store ι) : Prop :=
  ∀ body response read, store.runs i = .putting [("index", body)] response read →
    store.bucket.get "index" = read ∧ ∃ fields, indexOf read = .obj fields

/-- Another run is putting objects of the name. -/
def Rival (runs : ι → Run) (i : ι) (name : String) : Prop :=
  ∃ j, j ≠ i ∧ ∃ puts version read, runs j = .putting puts (.ok name version) read

/-- What was listed at first is listed. -/
def Keeps (first : Bucket) (found : Option Body) : Prop :=
  ∀ name, Listed name (first.get "index") → Listed name found

/-- A run that has read the catalogue: no plugin in it has the name, and what has been put is there,
or another run is putting there, or the name is taken by now. -/
structure Putting (first : Bucket) (i : ι) (store : Store ι) (submission : Submission)
    (version : JsString) (done todo : List (String × Body)) (read : Option Body) : Prop where
  accepts : Accepts env (requests i) submission version
  all : done ++ todo = objects submission version (requests i).now
  unlisted : ¬ Listed submission.name read
  keeps : Keeps first read
  there : InPlace store.bucket done ∨ Rival store.runs i submission.name ∨
    Listed submission.name (store.bucket.get "index")

/-- A run that has answered: its entry is in the catalogue, and its objects are there or another run
is putting there. -/
structure Answered (i : ι) (store : Store ι) (submission : Submission) (version : JsString) :
    Prop where
  accepts : Accepts env (requests i) submission version
  entered : reread (clean submission version (requests i).now) ∈
    pluginsOf (store.bucket.get "index")
  there : InPlace store.bucket (objects submission version (requests i).now) ∨
    Rival store.runs i submission.name

/-- A run that has these objects to put, and then the catalogue. -/
def writing (request : Request) (submission : Submission) (version : JsString)
    (todo : List (String × Body)) (read : Option Body) : Run :=
  .putting (todo ++ [("index", catalogueWith read (clean submission version request.now))])
    (.ok submission.name version) read

/-- Where a run is. -/
inductive Task (first : Bucket) (i : ι) (store : Store ι) : Run → Prop
  | waiting : Task first i store (.waiting (requests i))
  | putting {submission : Submission} {version : JsString} {done todo : List (String × Body)}
      {read : Option Body} (putting : Putting env requests first i store submission version done
        todo read) : Task first i store (writing (requests i) submission version todo read)
  | accepted {submission : Submission} {version : JsString}
      (answered : Answered env requests i store submission version) :
      Task first i store (.answered (.ok submission.name version))
  | refused {response : Response} (refused : ∀ name version, response ≠ .ok name version) :
      Task first i store (.answered response)

/-- The invariant. -/
structure Kept (first : Bucket) (store : Store ι) : Prop where
  task : ∀ i, Task env requests first i store (store.runs i)
  keeps : Keeps first (store.bucket.get "index")
  others : ∀ name key, Listed name (first.get "index") → IsOf name key →
    store.bucket.get key = first.get key

variable {env requests} {first : Bucket} {store : Store ι} {i j : ι}

/-! ### What the other runs see of a step -/

theorem Rival.update {name : String} (rival : Rival store.runs i name)
    (notPutting : ∀ puts version read, store.runs j ≠ .putting puts (.ok name version) read)
    (run : Run) : Rival (Function.update store.runs j run) i name := by
  obtain ⟨k, other, puts, version, read, is⟩ := rival
  refine ⟨k, other, puts, version, read, ?_⟩
  rw [Function.update_of_ne, is]
  rintro rfl
  exact notPutting puts version read is

/-- A run is no rival of its own. -/
theorem Rival.own {name : String} (rival : Rival store.runs i name) (run : Run) :
    Rival (Function.update store.runs i run) i name := by
  obtain ⟨k, other, puts, version, read, is⟩ := rival
  exact ⟨k, other, puts, version, read, by rw [Function.update_of_ne other, is]⟩

/-- The step did nothing to the bucket, and the run was not putting. -/
theorem Task.quiet {task : Run} (is : Task env requests first i store task)
    (notPutting : ∀ puts response read, store.runs j ≠ .putting puts response read) (run : Run) :
    Task env requests first i ⟨Function.update store.runs j run, store.bucket⟩ task := by
  cases is with
  | waiting => exact .waiting
  | refused refused => exact .refused refused
  | putting putting =>
      refine .putting { putting with there := putting.there.imp_right (Or.imp_left fun rival => ?_) }
      exact rival.update (fun puts version read => notPutting puts _ read) run
  | accepted answered =>
      refine .accepted { answered with there := answered.there.imp_right fun rival => ?_ }
      exact rival.update (fun puts version read => notPutting puts _ read) run

theorem isOf_ne {name other key key' : String} (isOf : IsOf name key) (isOf' : IsOf other key')
    (different : name ≠ other) : key ≠ key' := by
  rintro rfl
  exact different (isOf.2.symm.trans isOf'.2)

theorem InPlace.elsewhere {bucket : Bucket} {puts : List (String × Body)} {name other key : String}
    (inPlace : InPlace bucket puts) (all : ∀ put ∈ puts, IsOf name put.1) (isOf : IsOf other key)
    (different : name ≠ other) (body : Body) : InPlace (bucket.put key body) puts := by
  refine inPlace.put (fun member => ?_) body
  obtain ⟨put, inside, same⟩ := List.mem_map.mp member
  exact isOf_ne (all put inside) isOf different same

/-- The run of a name has put one of its objects, and goes on. -/
theorem Task.object {task : Run} (is : Task env requests first i store task) (other : j ≠ i)
    {name key : String} {version : JsString} {read : Option Body}
    {puts puts' : List (String × Body)}
    (was : store.runs j = .putting puts (.ok name version) read) (isOf : IsOf name key)
    (body : Body) :
    Task env requests first i ⟨Function.update store.runs j
      (.putting puts' (.ok name version) read), store.bucket.put key body⟩ task := by
  have rivals : ∀ name', name' = name ∨ Rival store.runs i name' →
      Rival (Function.update store.runs j (.putting puts' (.ok name version) read)) i name' := by
    rintro name' (rfl | rival)
    · exact ⟨j, other, puts', version, read, by rw [Function.update_self]⟩
    · by_cases same : name' = name
      · exact ⟨j, other, puts', version, read, by rw [Function.update_self, same]⟩
      · refine rival.update (fun puts version' read' is => ?_) _
        rw [was] at is
        cases is
        exact same rfl
  have index : (store.bucket.put key body).get "index" = store.bucket.get "index" := by
    rw [Table.get_put, if_neg isOf.ne_index.symm]
  cases is with
  | waiting => exact .waiting
  | refused refused => exact .refused refused
  | @putting submission version' done todo read' putting =>
      refine .putting { putting with there := ?_ }
      by_cases same : submission.name = name
      · exact .inr (.inl (rivals _ (.inl same)))
      · rcases putting.there with inPlace | rival | listed
        · refine .inl (inPlace.elsewhere (fun put member => ?_) isOf same body)
          refine objects_isOf putting.accepts.screened version' (requests i).now put ?_
          rw [← putting.all]
          exact List.mem_append_left _ member
        · exact .inr (.inl (rivals _ (.inr rival)))
        · rw [← index] at listed
          exact .inr (.inr listed)
  | @accepted submission version' answered =>
      have entered := answered.entered
      rw [← index] at entered
      refine .accepted { answered with entered := entered, there := ?_ }
      by_cases same : submission.name = name
      · exact .inr (rivals _ (.inl same))
      · refine answered.there.imp (fun inPlace => ?_) fun rival => rivals _ (.inr rival)
        exact inPlace.elsewhere (objects_isOf answered.accepts.screened version' _) isOf same body

section

variable {read : Option Body} {fields : List (JsString × Value)} {new : Value}

theorem listed_catalogueWith (isObject : indexOf read = .obj fields) {name : String}
    (listed : Listed name read ∨ isNamed name new = true) :
    Listed name (some (catalogueWith read new)) := by
  unfold Listed
  rw [pluginsOf_catalogueWith isObject]
  rcases listed with ⟨p, member, named⟩ | named
  · exact ⟨reread p, List.mem_map_of_mem (List.mem_append_left _ member),
      (isNamed_reread name p).trans named⟩
  · exact ⟨reread new, List.mem_map_of_mem (List.mem_append_right _ (List.mem_singleton_self new)),
      (isNamed_reread name new).trans named⟩

/-- An entry stays as it is. -/
theorem entered_catalogueWith (isObject : indexOf read = .obj fields) {entry : Value}
    (entered : reread entry ∈ pluginsOf read) :
    reread entry ∈ pluginsOf (some (catalogueWith read new)) := by
  rw [pluginsOf_catalogueWith isObject, ← reread_reread entry]
  exact List.mem_map_of_mem (List.mem_append_left _ entered)

end

/-- The run of a name has written back the catalogue it had read. -/
theorem Task.catalogue {task : Run} (is : Task env requests first i store task)
    {submission : Submission} {version : JsString} {read : Option Body}
    {puts : List (String × Body)} {fields : List (JsString × Value)}
    (was : store.runs j = .putting puts (.ok submission.name version) read)
    (current : store.bucket.get "index" = read) (isObject : indexOf read = .obj fields)
    (unlisted : ¬ Listed submission.name read) (now : Int) (run : Run) :
    Task env requests first i ⟨Function.update store.runs j run, store.bucket.put "index"
      (catalogueWith read (clean submission version now))⟩ task := by
  have index : (store.bucket.put "index" (catalogueWith read (clean submission version now))).get
      "index" = some (catalogueWith read (clean submission version now)) := by
    rw [Table.get_put, if_pos rfl]
  have kept : ∀ (name : String) (puts : List (String × Body)), InPlace store.bucket puts →
      (∀ put ∈ puts, IsOf name put.1) → InPlace (store.bucket.put "index"
        (catalogueWith read (clean submission version now))) puts := by
    intro name puts inPlace all
    refine inPlace.put (fun member => ?_) _
    obtain ⟨put, inside, same⟩ := List.mem_map.mp member
    exact (all put inside).ne_index same
  have ofOthers : ∀ name, name ≠ submission.name → ∀ puts version' read',
      store.runs j ≠ .putting puts (.ok name version') read' := by
    intro name different puts version' read' is
    rw [was] at is
    cases is
    exact different rfl
  have named := (isNamed_reread _ _).symm.trans (named_of_clean submission version now)
  have listedNow := listed_catalogueWith isObject (.inr named)
  cases is with
  | waiting => exact .waiting
  | refused refused => exact .refused refused
  | @putting other version' done todo read' putting =>
      refine .putting { putting with there := ?_ }
      rw [index]
      by_cases same : other.name = submission.name
      · rw [same]
        exact .inr (.inr listedNow)
      · rcases putting.there with inPlace | rival | listed
        · refine .inl (kept other.name done inPlace fun put member => ?_)
          refine objects_isOf putting.accepts.screened version' (requests i).now put ?_
          rw [← putting.all]
          exact List.mem_append_left _ member
        · exact .inr (.inl (rival.update (ofOthers _ same) run))
        · rw [current] at listed
          exact .inr (.inr (listed_catalogueWith isObject (.inl listed)))
  | @accepted other version' answered =>
      have entered := answered.entered
      rw [current] at entered
      -- of a name that is listed, nothing is written back
      have different : other.name ≠ submission.name := by
        intro same
        refine unlisted ⟨_, entered, ?_⟩
        rw [← same]
        exact named_of_clean other version' _
      refine .accepted { answered with entered := ?_, there := ?_ }
      · rw [index]
        exact entered_catalogueWith isObject entered
      · refine answered.there.imp (fun inPlace => ?_) fun rival => ?_
        · exact kept _ _ inPlace (objects_isOf answered.accepts.screened version' _)
        · exact rival.update (ofOthers _ different) run

/-! ### A step, and a schedule -/

theorem checkPermissions_error {perms : List Value} {response : Response}
    (refused : checkPermissions perms = .error response) (name : String) (version : JsString) :
    response ≠ .ok name version := by
  induction perms with
  | nil => cases refused
  | cons first rest ih =>
      rw [checkPermissions] at refused
      split at refused
      · obtain rfl := Except.error.inj refused
        exact fun is => by cases is
      · split at refused
        · exact ih refused
        · obtain rfl := Except.error.inj refused
          exact fun is => by cases is

theorem screen_error {request : Request} {response : Response}
    (refused : screen env request = .error response) (name : String) (version : JsString) :
    response ≠ .ok name version := by
  unfold screen at refused
  split at refused
  · obtain rfl := Except.error.inj refused
    nofun
  split at refused
  · obtain rfl := Except.error.inj refused
    nofun
  dsimp only at refused
  split at refused
  · obtain rfl := Except.error.inj refused
    nofun
  split at refused
  · split at refused
    · obtain rfl := Except.error.inj refused
      nofun
    split at refused
    · obtain rfl := Except.error.inj refused
      nofun
    split at refused
    · next failed =>
      obtain rfl := Except.error.inj refused
      exact checkPermissions_error failed name version
    · cases refused
  · obtain rfl := Except.error.inj refused
    nofun

/-- What the next request of a run does to it and to the bucket. -/
inductive Went (env : Env) (requests : ι → Request) (first : Bucket) (j : ι) (store : Store ι) :
    Run → Run → Bucket → Prop
  | rest {response : Response} :
      Went env requests first j store (.answered response) (.answered response) store.bucket
  | refused {response : Response} (refused : ∀ name version, response ≠ .ok name version) :
      Went env requests first j store (.waiting (requests j)) (.answered response) store.bucket
  | begun {submission : Submission} {version : JsString}
      (accepts : Accepts env (requests j) submission version)
      (unlisted : ¬ Listed submission.name (store.bucket.get "index")) :
      Went env requests first j store (.waiting (requests j)) (writing (requests j) submission
        version (objects submission version (requests j).now) (store.bucket.get "index"))
        store.bucket
  | object {submission : Submission} {version : JsString} {done todo : List (String × Body)}
      {put : String × Body} {read : Option Body}
      (putting : Putting env requests first j store submission version done (put :: todo) read) :
      Went env requests first j store (writing (requests j) submission version (put :: todo) read)
        (writing (requests j) submission version todo read) (store.bucket.put put.1 put.2)
  | catalogue {submission : Submission} {version : JsString} {done : List (String × Body)}
      {read : Option Body}
      (putting : Putting env requests first j store submission version done [] read) :
      Went env requests first j store (writing (requests j) submission version [] read)
        (.answered (.ok submission.name version)) (store.bucket.put "index"
          (catalogueWith read (clean submission version (requests j).now)))

theorem next_went (noToken : ∀ i, hasToken env (requests i) = false)
    {task : Run} (is : Task env requests first j store task) :
    ∃ run bucket, task.next env store.bucket = (run, bucket) ∧
      Went env requests first j store task run bucket := by
  cases is with
  | accepted answered => exact ⟨_, _, rfl, .rest⟩
  | refused refused => exact ⟨_, _, rfl, .rest⟩
  | @putting submission version done todo read putting =>
      cases todo with
      | nil => exact ⟨_, _, rfl, .catalogue putting⟩
      | cons put todo =>
          refine ⟨_, _, ?_, .object putting⟩
          show (Run.goOn (todo ++ [_]) _ read, store.bucket.put put.1 put.2) = _
          rw [Run.goOn, if_neg (by simp), writing]
  | waiting =>
      unfold Run.next
      dsimp only
      cases screened : screen env (requests j) with
      | error e => exact ⟨_, _, rfl, .refused (screen_error screened)⟩
      | ok submission =>
          dsimp only
          rcases afterIndex_open (noToken j) (store.bucket.get "index") with ⟨none, refused⟩ |
            ⟨version, versioned, unlisted, done⟩
          · rw [none]
            exact ⟨_, _, rfl, .refused refused⟩
          · rw [done]
            refine ⟨_, _, ?_, .begun ⟨screened, versioned⟩ unlisted⟩
            rw [Run.goOn, if_neg (by simp), writing]

/-- An object that is put is one of the plugin, and no other one. -/
theorem Putting.next {submission : Submission} {version : JsString}
    {done todo : List (String × Body)} {put : String × Body} {read : Option Body}
    (putting : Putting env requests first j store submission version done (put :: todo) read) :
    IsOf submission.name put.1 ∧ put.1 ≠ "index" ∧ put.1 ∉ done.map Prod.fst := by
  have isOf : IsOf submission.name put.1 := by
    refine objects_isOf putting.accepts.screened version (requests j).now put ?_
    rw [← putting.all]
    exact List.mem_append_right _ List.mem_cons_self
  refine ⟨isOf, isOf.ne_index, fun member => ?_⟩
  have keys := objects_keys_nodup submission version (requests j).now
  rw [← putting.all, List.map_append, List.map_cons] at keys
  exact (List.nodup_append.mp keys).2.2 put.1 member put.1 List.mem_cons_self rfl

/-- **A step keeps the invariant**, if a catalogue that is written back is still what was read. -/
theorem turn_kept (noToken : ∀ i, hasToken env (requests i) = false)
    (kept : Kept env requests first store) (fresh : Fresh j store) :
    Kept env requests first (turn env j store) := by
  -- what happens to the run itself, and what the others see of it
  have assemble : ∀ run bucket, (store.runs j).next env store.bucket = (run, bucket) →
      Task env requests first j ⟨Function.update store.runs j run, bucket⟩ run →
      (∀ i, j ≠ i → Task env requests first i ⟨Function.update store.runs j run, bucket⟩
        (store.runs i)) →
      Keeps first (bucket.get "index") →
      (∀ name key, Listed name (first.get "index") → IsOf name key →
        bucket.get key = first.get key) → Kept env requests first (turn env j store) := by
    intro run bucket next own seen keeps others
    rw [turn, next]
    refine ⟨fun i => ?_, keeps, others⟩
    by_cases same : i = j
    · rw [same]
      dsimp only
      rw [Function.update_self]
      exact own
    · dsimp only
      rw [Function.update_of_ne same]
      exact seen i (Ne.symm same)
  obtain ⟨run, bucket, next, went⟩ := next_went noToken (kept.task j)
  generalize is : store.runs j = task at went
  cases went with
  | rest =>
      have same : turn env j store = store := by
        rw [turn, next, ← is, Function.update_eq_self]
      rw [same]
      exact kept
  | refused refused =>
      refine assemble _ _ next (.refused refused) (fun i _ => (kept.task i).quiet ?_ _) kept.keeps
        kept.others
      intro puts response read
      rw [is]
      nofun
  | begun accepts unlisted =>
      refine assemble _ _ next
        (.putting ⟨accepts, List.nil_append _, unlisted, kept.keeps, .inl nofun⟩)
        (fun i _ => (kept.task i).quiet ?_ _) kept.keeps kept.others
      intro puts response read
      rw [is]
      nofun
  | @object submission version done todo put read putting =>
      obtain ⟨isOf, notIndex, isNew⟩ := putting.next
      have index : (store.bucket.put put.1 put.2).get "index" = store.bucket.get "index" := by
        rw [Table.get_put, if_neg notIndex.symm]
      have own : Putting env requests first j ⟨Function.update store.runs j (writing (requests j)
          submission version todo read), store.bucket.put put.1 put.2⟩ submission version
          (done ++ [put]) todo read := by
        refine { putting with all := ?_, there := ?_ }
        · rw [List.append_assoc]
          exact putting.all
        · rw [index]
          exact putting.there.imp (fun inPlace => inPlace.append isNew)
            (Or.imp_left fun rival => rival.own _)
      refine assemble _ _ next (.putting own)
        (fun i other => (kept.task i).object other is isOf put.2) ?_ ?_
      · rw [index]
        exact kept.keeps
      · intro name key listed isOf'
        have different : name ≠ submission.name := by
          rintro rfl
          exact putting.unlisted (putting.keeps _ listed)
        rw [Table.get_put, if_neg (isOf_ne isOf' isOf different)]
        exact kept.others name key listed isOf'
  | @catalogue submission version done read putting =>
      obtain ⟨current, fields, isObject⟩ := fresh _ _ _ is
      have unlisted := putting.unlisted
      have index : (store.bucket.put "index" (catalogueWith read
          (clean submission version (requests j).now))).get "index" =
          some (catalogueWith read (clean submission version (requests j).now)) := by
        rw [Table.get_put, if_pos rfl]
      have all := putting.all
      rw [List.append_nil] at all
      refine assemble _ _ next (.accepted ⟨putting.accepts, ?_, ?_⟩)
        (fun i _ => (kept.task i).catalogue is current isObject unlisted _ _) ?_ ?_
      · rw [index, pluginsOf_catalogueWith isObject]
        exact List.mem_map_of_mem (List.mem_append_right _ (List.mem_singleton_self _))
      · rcases putting.there with inPlace | rival | listed
        · rw [all] at inPlace
          refine .inl (inPlace.put (fun member => ?_) _)
          obtain ⟨put, inside, same⟩ := List.mem_map.mp member
          exact (objects_isOf putting.accepts.screened version _ put inside).ne_index same
        · exact .inr (rival.own _)
        · rw [current] at listed
          exact absurd listed unlisted
      · intro name listed
        rw [index]
        exact listed_catalogueWith isObject (.inl (putting.keeps name listed))
      · intro name key listed isOf
        rw [Table.get_put, if_neg isOf.ne_index]
        exact kept.others name key listed isOf

/-- What is true once no run is under way: what was accepted is in the catalogue with its objects in
place, and what was listed at first is listed, with the objects it had. -/
structure NothingLost (env : Env) (requests : ι → Request) (first : Bucket) (last : Store ι) :
    Prop where
  accepted : ∀ i name version, last.runs i = .answered (.ok name version) →
    ∃ submission, Accepts env (requests i) submission version ∧ submission.name = name ∧
      reread (clean submission version (requests i).now) ∈ pluginsOf (last.bucket.get "index") ∧
      InPlace last.bucket (objects submission version (requests i).now)
  listed : Keeps first (last.bucket.get "index")
  others : ∀ name key, Listed name (first.get "index") → IsOf name key →
    last.bucket.get key = first.get key

theorem Kept.nothingLost (kept : Kept env requests first store)
    (finished : ∀ i puts response read, store.runs i ≠ .putting puts response read) :
    NothingLost env requests first store := by
  refine ⟨fun i name version is => ?_, kept.keeps, kept.others⟩
  have task := kept.task i
  rw [is] at task
  cases task with
  | refused refused => exact absurd rfl (refused name version)
  | @accepted submission version' answered =>
      refine ⟨submission, answered.accepts, rfl, answered.entered, ?_⟩
      rcases answered.there with inPlace | ⟨j, _, puts, version', read, putting⟩
      · exact inPlace
      · exact absurd putting (finished j puts _ read)

/-- **Open submissions neither overwrite nor disappear**, in any order of their requests to the
bucket in which a catalogue that is written back is still the one that was read. -/
theorem submissions_kept (env : Env) (requests : ι → Request)
    (noToken : ∀ i, hasToken env (requests i) = false) (first : Bucket) (schedule : List ι)
    (fresh : Steps.Each (turn env) Fresh schedule (start requests first))
    (finished : ∀ i puts response read,
      (Steps.run (turn env) schedule (start requests first)).runs i ≠
        .putting puts response read) :
    NothingLost env requests first (Steps.run (turn env) schedule (start requests first)) := by
  have begun : Kept env requests first (start requests first) :=
    ⟨fun _ => .waiting, fun _ listed => listed, fun _ _ _ _ => rfl⟩
  have kept : Kept env requests first (Steps.run (turn env) schedule (start requests first)) :=
    fresh.run (fun _ _ kept fresh => turn_kept noToken kept fresh) begun
  exact kept.nothingLost finished

/-! ### One after the other -/

/-- The catalogue is an object, and is what the run has read if it has read it. -/
structure Calm (i : ι) (store : Store ι) : Prop where
  isObject : ∃ fields, indexOf (store.bucket.get "index") = .obj fields
  current : ∀ puts response read, store.runs i = .putting puts response read →
    store.bucket.get "index" = read

theorem Calm.fresh (calm : Calm i store) : Fresh i store := by
  intro body response read is
  have current := calm.current _ _ _ is
  rw [← current]
  exact ⟨rfl, calm.isObject⟩

/-- A run that makes its requests by itself stays calm. -/
theorem Calm.turn (noToken : ∀ i, hasToken env (requests i) = false)
    (kept : Kept env requests first store) (calm : Calm i store) : Calm i (turn env i store) := by
  obtain ⟨run, bucket, next, went⟩ := next_went noToken (kept.task i)
  rw [ChermEdge.turn, next]
  generalize is : store.runs i = task at went
  have own : ∀ puts response read, (Function.update store.runs i run) i =
      .putting puts response read → run = .putting puts response read := by
    intro puts response read putting
    rw [Function.update_self] at putting
    exact putting
  cases went with
  | rest | refused refused => exact ⟨calm.isObject, fun _ _ _ putting => nomatch own _ _ _ putting⟩
  | begun accepts unlisted =>
      refine ⟨calm.isObject, fun puts response read putting => ?_⟩
      cases own _ _ _ putting
      rfl
  | @object submission version done todo put read putting =>
      have index : (store.bucket.put put.1 put.2).get "index" = store.bucket.get "index" := by
        rw [Table.get_put, if_neg putting.next.2.1.symm]
      refine ⟨by rw [index]; exact calm.isObject, fun puts response read' putting' => ?_⟩
      cases own _ _ _ putting'
      exact index.trans (calm.current _ _ _ is)
  | @catalogue submission version done read putting =>
      obtain ⟨fields, isObject⟩ := calm.isObject
      rw [calm.current _ _ _ is] at isObject
      obtain ⟨fields', back, _⟩ := indexOf_catalogueWith isObject
        (clean submission version (requests i).now)
      refine ⟨⟨fields', ?_⟩, fun _ _ _ putting => nomatch own _ _ _ putting⟩
      dsimp only
      rw [Table.get_put, if_pos rfl]
      exact back

/-- **Submissions that do not overlap** find the catalogue they have read. -/
theorem alone_fresh (noToken : ∀ i, hasToken env (requests i) = false)
    (kept : Kept env requests first store) (calm : Calm i store) (n : Nat) :
    Steps.Each (turn env) Fresh (List.replicate n i) store ∧
      Kept env requests first (Steps.run (turn env) (List.replicate n i) store) ∧
      Calm i (Steps.run (turn env) (List.replicate n i) store) := by
  induction n generalizing store with
  | zero => exact ⟨trivial, kept, calm⟩
  | succ n ih =>
      obtain ⟨fresh, after⟩ := ih (turn_kept noToken kept calm.fresh) (calm.turn noToken kept)
      exact ⟨⟨calm.fresh, fresh⟩, after⟩

theorem runs_of_others (schedule : List ι) (absent : i ∉ schedule) :
    (Steps.run (turn env) schedule store).runs i = store.runs i := by
  induction schedule generalizing store with
  | nil => rfl
  | cons first rest ih =>
      obtain ⟨different, absent⟩ := not_or.mp (mt List.mem_cons.mpr absent)
      show (Steps.run (turn env) rest (turn env first store)).runs i = _
      rw [ih absent, turn]
      exact Function.update_of_ne different _ _

end

namespace Ideal

attribute [local instance] engine ChermPlugins.Ideal.crates

/-- Two submissions of different names. -/
def twoRequests (i : Bool) : Request := submits [("name", .str (ofString (if i then "b" else "a"))),
  ("version", .str (ofString "1"))]

theorem two_noToken (i : Bool) : hasToken env (twoRequests i) = false := rfl

/-- The run has objects to put. -/
def underWay : Run → Bool
  | .putting .. => true
  | _ => false

theorem ne_putting {run : Run} (rests : underWay run = false) (puts : List (String × Body))
    (response : Response) (read : Option Body) : run ≠ .putting puts response read := by
  rintro rfl
  cases rests

/-- One after the other. -/
def apart : List Bool := List.replicate 6 false ++ List.replicate 6 true

theorem apart_finished : ∀ i, underWay ((Steps.run (turn env) apart (start twoRequests ∅)).runs i) =
    false := by
  decide +kernel

/-- Two submissions, the second after the first. -/
theorem apart_kept :
    NothingLost env twoRequests ∅ (Steps.run (turn env) apart (start twoRequests ∅)) := by
  refine submissions_kept env twoRequests two_noToken ∅ apart ?_
    fun i puts response read => ne_putting (apart_finished i) puts response read
  have begun : Kept env twoRequests ∅ (start twoRequests ∅) :=
    ⟨fun _ => .waiting, fun _ listed => listed, fun _ _ _ _ => rfl⟩
  have calm : Calm false (start twoRequests ∅) := ⟨⟨_, rfl⟩, fun _ _ _ putting => nomatch putting⟩
  obtain ⟨fresh, kept, after⟩ := alone_fresh two_noToken begun calm 6
  refine Steps.each_append.mpr ⟨fresh, (alone_fresh two_noToken kept ⟨after.isObject, ?_⟩ 6).1⟩
  intro puts response read putting
  rw [runs_of_others _ (by decide)] at putting
  cases putting

/-- Both read the catalogue before the first writes it back. -/
def overlapping : List Bool :=
  [false, true] ++ List.replicate 5 false ++ List.replicate 5 true

theorem overlapping_finished : ∀ i,
    underWay ((Steps.run (turn env) overlapping (start twoRequests ∅)).runs i) = false := by
  decide +kernel

/-- What a run has accepted. -/
def acceptedAs : Run → Option (String × JsString)
  | .answered (.ok name version) => some (name, version)
  | _ => none

theorem answered_of_acceptedAs {run : Run} {name : String} {version : JsString}
    (accepted : acceptedAs run = some (name, version)) : run = .answered (.ok name version) := by
  unfold acceptedAs at accepted
  split at accepted
  · cases accepted
    rfl
  · cases accepted

/-- **Two submissions at once**: both are accepted, and the first is not in the catalogue. -/
theorem overlapping_loses :
    (∀ i puts response read, (Steps.run (turn env) overlapping (start twoRequests ∅)).runs i ≠
      .putting puts response read) ∧
    ¬ NothingLost env twoRequests ∅ (Steps.run (turn env) overlapping (start twoRequests ∅)) := by
  refine ⟨fun i puts response read => ne_putting (overlapping_finished i) puts response read, ?_⟩
  have accepted : acceptedAs ((Steps.run (turn env) overlapping (start twoRequests ∅)).runs false) =
      some ("a", ofString "1") := by decide +kernel
  have absent : (pluginsOf ((Steps.run (turn env) overlapping
      (start twoRequests ∅)).bucket.get "index")).any (isNamed "a") = false := by decide +kernel
  generalize Steps.run (turn env) overlapping (start twoRequests ∅) = last at accepted absent
  intro kept
  obtain ⟨submission, _, name, entered, _⟩ :=
    kept.accepted false "a" _ (answered_of_acceptedAs accepted)
  have named := named_of_clean submission (ofString "1") (twoRequests false).now
  rw [name] at named
  rw [List.any_eq_false] at absent
  exact absent _ entered named

end Ideal

end ChermEdge
