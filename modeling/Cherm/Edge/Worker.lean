/-
**The plugin store: open submissions to a bucket.**

A submission is checked, the catalogue is read, four objects are written, and the catalogue is
written back as it was read, with one entry more. Between two requests to the bucket anything else
may happen there.

* `handleSubmit`: one submission by itself.
* `Run` and `Run.next`: the same, one request to the bucket at a time; `handleSubmit_runs` says so.
* `turn`: submissions that run side by side.
-/

import Cherm.Edge.Js
import Cherm.Lib.Steps

namespace ChermEdge

open Cherm (Bytes utf8)
open Engine

/-- Permissions a plugin may declare. -/
def allowedPermissions : List String :=
  ["tui.theme", "tui.widget", "tui.statusbar", "tui.panel", "tui.renderer", "tui.command", "notify",
    "wallet.read.status", "wallet.read.address", "wallet.read.balance", "wallet.convert.fiat"]

/-- What the environment of the worker sets. -/
structure Env where
  submitToken : Option String

section

variable [Engine]

/-- A request to submit: its header, its body if that is JSON, and the time it is handled at. -/
structure Request where
  token : Option String
  body : Option Value
  now : { ms : Int // ms.natAbs ≤ 8640000000000000 }

/-- What a submission is answered with. -/
inductive Response where
  | error (status : Nat) (message : JsString)
  /-- Something was thrown. -/
  | internal
  | ok (name : String) (version : JsString)

/-- The objects of the bucket. -/
abbrev Bucket := Table String Body

/-! ### Values as conditions and as texts -/

/-- `!!value`. -/
def truthy : Value → Bool
  | .null => false
  | .bool value => value
  | .num value => !isZero value
  | .str text => text ≠ []
  | .arr _ | .obj _ => true

/-- `value || fallback`, where the value may be undefined. -/
def orElse (value : Option Value) (fallback : Value) : Value :=
  match value with
  | some value => if truthy value then value else fallback
  | none => fallback

mutual

/-- `String(value)`; nothing is returned where it throws. -/
def text : Value → Option JsString
  | .null => some (ofString "null")
  | .bool value => some (ofString (if value then "true" else "false"))
  | .num value => some (ofString (numberText value))
  | .str text => some text
  | .arr values => (itemTexts values).map fun texts => [CodePoint.scalar ','].intercalate texts
  | .obj fields =>
      if fields.any fun field => field.1 = ofString "toString" then none
      else some (ofString "[object Object]")

/-- The texts that `join` puts together. -/
def itemTexts : List Value → Option (List JsString)
  | [] => some []
  | .null :: rest => (itemTexts rest).map ([] :: ·)
  | value :: rest => (text value).bind fun first => (itemTexts rest).map (first :: ·)

end

/-- A character of a name. -/
def isNameChar (c : Char) : Bool :=
  ('a' ≤ c && c ≤ 'z') || c.isDigit || c = '.' || c = '_' || c = '-'

/-- What a code point becomes; one beyond the first plane is two code units. -/
def nameChars : CodePoint → List Char
  | .scalar c => if isNameChar c then [c] else if 0x10000 ≤ c.toNat then ['-', '-'] else ['-']
  | .lone _ => ['-']

/-- `safeName`: a name as a path segment. -/
def safeName (name : JsString) : String :=
  String.ofList (ChermPlugins.strip ((toLowerCase name).flatMap nameChars))

/-! ### The checks of a submission -/

/-- What passed the checks. -/
structure Submission where
  manifest : Value
  pkg : Value
  name : String
  perms : List Value

/-- `requireToken`: the request shows the token that is configured. -/
def hasToken (env : Env) (request : Request) : Bool :=
  match env.submitToken with
  | some token => token ≠ "" && request.token = some token
  | none => false

/-- A token is configured. -/
def gated (env : Env) : Bool :=
  match env.submitToken with
  | some token => token ≠ ""
  | none => false

/-- Deny by default. -/
def checkPermissions : List Value → Except Response Unit
  | [] => .ok ()
  | p :: rest =>
      match text p with
      | none => .error .internal
      | some shown =>
          if shown ∈ allowedPermissions.map ofString then checkPermissions rest
          else .error (.error 400
            (ofString "permission '" ++ shown ++ ofString "' is not allowed"))

/-- A property that is there and not falsy. -/
def present (value : Value) (name : String) : Option Value :=
  (value.get name).filter truthy

/-- `manifest.permissions`, if it is an array. -/
def permissionsOf (manifest : Value) : List Value :=
  match manifest.get "permissions" with
  | some (.arr values) => values
  | _ => []

/-- Everything before the first request to the bucket. -/
def screen (env : Env) (request : Request) : Except Response Submission :=
  if gated env && !hasToken env request then .error (.error 401 (ofString "unauthorized"))
  else match request.body with
  | none => .error (.error 400 (ofString "bad_json"))
  | some body =>
      -- a falsy body has no properties, and stands for both
      let manifest := if truthy body then body.get "manifest" else some body
      let pkg := orElse (if truthy body then body.get "package" else some body) (.obj [])
      match manifest.filter truthy with
      | none => .error (.error 400 (ofString "name and version are required"))
      | some manifest =>
          match present manifest "name", present manifest "version" with
          | some name, some _ =>
              match text name with
              | none => .error .internal
              | some shown =>
                  if safeName shown = "" then .error (.error 400 (ofString "invalid plugin name"))
                  else
                    match checkPermissions (permissionsOf manifest) with
                    | .error e => .error e
                    | .ok _ => .ok { manifest, pkg, name := safeName shown,
                                     perms := permissionsOf manifest }
          | _, _ => .error (.error 400 (ofString "name and version are required"))

/-! ### The catalogue -/

/-- The catalogue of an empty bucket. -/
def noPlugins : Value := .obj [(ofString "plugins", .arr [])]

/-- The catalogue that was read; one that is no JSON counts as empty. -/
def indexOf (found : Option Body) : Value :=
  match found with
  | none => noPlugins
  | some body => (parse body).getD noPlugins

/-- The catalogue and its plugins; what is no object with a list of plugins is given an empty one,
where a property can be assigned. -/
def loadIndex (found : Option Body) : Except Response (Value × List Value) :=
  match indexOf found with
  | .obj fields => match (Js.obj fields).get "plugins" with
      | some (.arr plugins) => .ok (.obj fields, plugins)
      | _ => .ok (.obj fields, [])
  | .arr values => .ok (.arr values, [])
  | _ => .error .internal

/-- `p.name === name`. -/
def isNamed (name : String) (p : Value) : Bool :=
  match p.get "name" with
  | some (.str shown) => shown = ofString name
  | _ => false

/-- `some((p) => p.name === name)`; `null` has no properties. -/
def someNamed (name : String) : List Value → Except Response Bool
  | [] => .ok false
  | .null :: _ => .error .internal
  | p :: rest => if isNamed name p then .ok true else someNamed name rest

/-- `filter((p) => p.name !== name)`. -/
def dropNamed (name : String) : List Value → Except Response (List Value)
  | [] => .ok []
  | .null :: _ => .error .internal
  | p :: rest => match dropNamed name rest with
      | .error e => .error e
      | .ok kept => .ok (if isNamed name p then kept else p :: kept)

/-- The catalogue with other plugins. Those of an array are no part of its text. -/
def withPlugins (index : Value) (plugins : List Value) : Value :=
  match index with
  | .obj fields => .obj (Js.setFields (ofString "plugins") (.arr plugins) fields)
  | index => index

/-! ### The objects -/

variable [ChermPlugins.Crates]

/-- The manifest as it is stored. -/
def clean (submission : Submission) (version : JsString) (now : Int) : Value := .obj [
  (ofString "name", .str (ofString submission.name)),
  (ofString "display_name", orElse (submission.manifest.get "display_name")
    (.str (ofString submission.name))),
  (ofString "version", .str version),
  (ofString "kind", orElse (submission.manifest.get "kind") (.str (ofString "theme"))),
  (ofString "category", .str (ofString "community_unaudited")),
  (ofString "description", orElse (submission.manifest.get "description") (.str [])),
  (ofString "author", orElse (submission.manifest.get "author") (.str [])),
  (ofString "license", orElse (submission.manifest.get "license") (.str [])),
  (ofString "source_url", orElse (submission.manifest.get "source_url") (.str [])),
  (ofString "permissions", .arr submission.perms),
  (ofString "min_client", orElse (submission.manifest.get "min_client")
    (.str (ofString "0.1.0"))),
  (ofString "package_sha256",
    .str (ofString (ChermPlugins.Crates.sha256Hex (bytes (stringify submission.pkg))))),
  (ofString "updated_ts", .num (ofInt now))]

/-- The current and the versioned objects of a submission. -/
def objects (submission : Submission) (version : JsString) (now : Int) : List (String × Body) :=
  let manifest := stringifyIndented (clean submission version now)
  let pkg := stringify submission.pkg
  let release := submission.name ++ "/releases/" ++ toWellFormed version
  [(submission.name ++ "/manifest", manifest), (submission.name ++ "/package", pkg),
    (release ++ "/manifest", manifest), (release ++ "/package", pkg)]

/-- What is put into the bucket, in order, and what is answered, once the catalogue is read. -/
def afterIndex (env : Env) (request : Request) (submission : Submission) (found : Option Body) :
    List (String × Body) × Response :=
  match loadIndex found with
  | .error e => ([], e)
  | .ok (index, plugins) =>
  match someNamed submission.name plugins with
  | .error e => ([], e)
  | .ok taken =>
  if taken && !hasToken env request then
    ([], .error 409 (ofString ("plugin name '" ++ submission.name ++
      "' already exists — choose a unique name")))
  else match (submission.manifest.get "version").bind text with
  | none => ([], .internal)
  | some version =>
  match dropNamed submission.name plugins with
  | .error e => (objects submission version request.now, e)
  | .ok kept =>
      (objects submission version request.now ++ [("index", stringifyIndented
        (withPlugins index (kept ++ [clean submission version request.now])))],
        .ok submission.name version)

/-- Write objects, one after the other. -/
def putAll (puts : List (String × Body)) (bucket : Bucket) : Bucket :=
  puts.foldl (fun bucket put => bucket.put put.1 put.2) bucket

/-- A submission while nothing else happens in the bucket. -/
def handleSubmit (env : Env) (request : Request) (bucket : Bucket) : Response × Bucket :=
  match screen env request with
  | .error e => (e, bucket)
  | .ok submission =>
      let done := afterIndex env request submission (bucket.get "index")
      (done.2, putAll done.1 bucket)

/-! ### One request to the bucket at a time -/

/-- A run of the handler: it waits to read the catalogue, or it still has objects to put, or it has
answered. While it puts, it is known what catalogue it has read. -/
inductive Run where
  | waiting (request : Request)
  | putting (puts : List (String × Body)) (response : Response) (read : Option Body)
  | answered (response : Response)

/-- The run goes on with its puts, or answers. -/
def Run.goOn (puts : List (String × Body)) (response : Response) (read : Option Body) : Run :=
  if puts.isEmpty then .answered response else .putting puts response read

/-- The next request of a run to the bucket. -/
def Run.next (env : Env) (run : Run) (bucket : Bucket) : Run × Bucket :=
  match run with
  | .waiting request =>
      match screen env request with
      | .error e => (.answered e, bucket)
      | .ok submission =>
          let done := afterIndex env request submission (bucket.get "index")
          (.goOn done.1 done.2 (bucket.get "index"), bucket)
  | .putting [] response _ => (.answered response, bucket)
  | .putting (put :: rest) response read => (.goOn rest response read, bucket.put put.1 put.2)
  | .answered response => (.answered response, bucket)

/-- A run and the bucket after some requests of it. -/
def Run.iterate (env : Env) : Nat → Run → Bucket → Run × Bucket
  | 0, run, bucket => (run, bucket)
  | n + 1, run, bucket => iterate env n (run.next env bucket).1 (run.next env bucket).2

theorem Run.iterate_puts (env : Env) (puts : List (String × Body)) (response : Response)
    (read : Option Body) (bucket : Bucket) :
    Run.iterate env puts.length (.goOn puts response read) bucket =
      (.answered response, putAll puts bucket) := by
  induction puts generalizing bucket with
  | nil => rfl
  | cons put rest ih => exact ih (bucket.put put.1 put.2)

/-- **Alone, a run does what the handler does.** -/
theorem handleSubmit_runs (env : Env) (request : Request) (bucket : Bucket) :
    ∃ n, Run.iterate env n (.waiting request) bucket =
      (.answered (handleSubmit env request bucket).1, (handleSubmit env request bucket).2) := by
  cases screened : screen env request with
  | error e =>
      refine ⟨1, ?_⟩
      rw [Run.iterate, Run.iterate, Run.next, handleSubmit, screened]
  | ok submission =>
      refine ⟨(afterIndex env request submission (bucket.get "index")).1.length + 1, ?_⟩
      rw [Run.iterate, Run.next, handleSubmit, screened]
      exact Run.iterate_puts env _ _ _ bucket

/-- Submissions side by side, and the bucket. -/
structure Store (ι : Type) where
  runs : ι → Run
  bucket : Bucket

variable {ι : Type} [DecidableEq ι]

/-- One of the submissions makes its next request. -/
def turn (env : Env) (i : ι) (store : Store ι) : Store ι where
  runs := Function.update store.runs i ((store.runs i).next env store.bucket).1
  bucket := ((store.runs i).next env store.bucket).2

end

end ChermEdge
