/-
**The routes of the plugin store.**

* `readPlugins`: the index, and what is under a plugin's name.
* `handlePlugins`: submissions beside it.
-/

import Cherm.Edge.Worker
import Cherm.Lib.Patterns

namespace ChermEdge

open Engine Patterns

/-! ### Patterns -/

/-- `[a-z0-9._-]` -/
def nameClass : List Char := "abcdefghijklmnopqrstuvwxyz0123456789._-".toList

/-- `[a-z0-9.+_-]` -/
def versionClass : List Char := "abcdefghijklmnopqrstuvwxyz0123456789.+_-".toList

/-- `manifest|package` -/
def manifestOrPackage : RegularExpression Char := word "manifest".toList + word "package".toList

/-- `/^[a-z0-9._-]+\/(manifest|package)$/` -/
def currentRoute : RegularExpression Char :=
  oneOrMore (anyOf nameClass) * (word "/".toList * manifestOrPackage)

/-- `/^[a-z0-9._-]+\/releases\/[a-z0-9.+_-]+\/(manifest|package)$/` -/
def releaseRoute : RegularExpression Char :=
  oneOrMore (anyOf nameClass) * (word "/releases/".toList * (oneOrMore (anyOf versionClass) *
    (word "/".toList * manifestOrPackage)))

/-- A name is followed by what belongs to it. -/
theorem currentRoute_iff {path : String} : currentRoute.rmatch path.toList = true ↔
    ∃ name part, path.toList = name ++ '/' :: part ∧ name ≠ [] ∧ (∀ c ∈ name, c ∈ nameClass) ∧
      (part = "manifest".toList ∨ part = "package".toList) := by
  rw [RegularExpression.rmatch_iff_matches', currentRoute, mem_mul]
  constructor
  · rintro ⟨name, named, rest, others, whole⟩
    obtain ⟨slash, isSlash, part, last, rfl⟩ := mem_mul.mp others
    obtain ⟨nonempty, all⟩ := mem_oneOrMore.mp named
    rw [mem_word.mp isSlash] at whole
    refine ⟨name, part, whole.symm, nonempty, all, ?_⟩
    exact (mem_add.mp last).imp mem_word.mp mem_word.mp
  · rintro ⟨name, part, whole, nonempty, all, last⟩
    exact ⟨name, mem_oneOrMore.mpr ⟨nonempty, all⟩, '/' :: part, mem_mul.mpr ⟨['/'],
      mem_word.mpr rfl, part, mem_add.mpr (last.imp mem_word.mpr mem_word.mpr), rfl⟩, whole.symm⟩

/-! ### Answers -/

section

variable [Engine]

/-- What a reader is answered with. -/
inductive Answer where
  | json (status : Nat) (value : Value)
  | object (body : Body)

/-- The body of an answer. -/
def Answer.body : Answer → Body
  | .json _ value => stringify value
  | .object body => body

/-- The body of an error. -/
def errorValue (error : String) : List (JsString × Value) :=
  [(ofString "error", .str (ofString error))]

/-- An object of the bucket, as it is. -/
def serveR2 (bucket : Bucket) (key : String) : Answer :=
  match bucket.get key with
  | none => .json 404 (.obj (errorValue "not_found" ++ [(ofString "key", .str (ofString key))]))
  | some body => .object body

/-- What can be read. -/
def readPlugins (path : String) (bucket : Bucket) : Answer :=
  if path = "" ∨ path = "index" ∨ path = "index.json" then
    match bucket.get "index" with
    | none => .json 200 noPlugins
    | some body => .object body
  else if currentRoute.rmatch path.toList || releaseRoute.rmatch path.toList then
    serveR2 bucket path
  else .json 404 (.obj (errorValue "not_found"))

/-- The path without the slashes it begins with. -/
def pathOf (pathname : String) : String := String.ofList (pathname.toList.dropWhile (· = '/'))

/-- What is under a name is served as it is. -/
theorem readPlugins_current {path : String} (matched : currentRoute.rmatch path.toList = true)
    (bucket : Bucket) : readPlugins path bucket = serveR2 bucket path := by
  have slash : '/' ∈ path.toList := by
    obtain ⟨name, part, whole, _⟩ := currentRoute_iff.mp matched
    rw [whole]
    exact List.mem_append_right _ List.mem_cons_self
  have other : ¬ (path = "" ∨ path = "index" ∨ path = "index.json") := by
    rintro (rfl | rfl | rfl)
    · exact absurd slash (by decide)
    · exact absurd slash (by decide)
    · exact absurd slash (by decide)
  rw [readPlugins, if_neg other, if_pos (by rw [matched, Bool.true_or])]

variable [ChermPlugins.Crates]

/-- What a request is answered with. -/
inductive Reply where
  | answered (answer : Answer)
  | submitted (response : Response)

/-- A request to the store: by its method and its path, and what it submits. -/
def handlePlugins (env : Env) (method pathname : String) (request : Request) (bucket : Bucket) :
    Reply × Bucket :=
  if method = "POST" ∧ pathOf pathname = "submit" then
    (.submitted (handleSubmit env request bucket).1, (handleSubmit env request bucket).2)
  else if method ≠ "GET" ∧ method ≠ "HEAD" then
    (.answered (.json 405 (.obj (errorValue "method_not_allowed"))), bucket)
  else (.answered (readPlugins (pathOf pathname) bucket), bucket)

theorem handlePlugins_get (env : Env) (pathname : String) (request : Request) (bucket : Bucket) :
    handlePlugins env "GET" pathname request bucket =
      (.answered (readPlugins (pathOf pathname) bucket), bucket) := by
  rw [handlePlugins, if_neg (by simp), if_neg (by simp)]

theorem handlePlugins_submit (env : Env) (request : Request) (bucket : Bucket) :
    handlePlugins env "POST" "/submit" request bucket =
      (.submitted (handleSubmit env request bucket).1, (handleSubmit env request bucket).2) := by
  rw [handlePlugins, if_pos ⟨rfl, by decide +kernel⟩]

end

end ChermEdge
