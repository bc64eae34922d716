/-
**The pinned trust set.**

* `pinned` builds the trust set from the environment: keys baked in, keys added at run time, and the
  development key in debug builds only.
* `WellKeyed` is what `addKeys` keeps: every key is listed under its own key id, and no key id twice
  (`pinned_wellKeyed`). In such a set a listed key is the one its id selects (`find?_of_mem`).
-/

import Cherm.Attest.Crates
import Mathlib.Data.List.DropRight

namespace ChermAttest

open Cherm (Bytes)

def devReleasePublicB64 : String := "rP8FiokGtvgz/SsImR73QCYo8fL5tAbw333dA5tUNJ8="

def devReleaseSecretB64 : String := "IwAL8LHaDW6SOrgkBVl0FUUuYXsZgcGJJb4PLIf7Fss="

/-- Everything the verifier needs to render a verdict. -/
structure Official where
  /-- Key ids and the texts of the keys. -/
  releasePubkeys : List (String × String)
  officialBuildHash : Option String
  nitroPcr0 : Option String
  nitroRoots : List Bytes

/-- The id of a key: its first eight bytes. -/
def keyIdOf (pubB64 : String) : String :=
  match Base64.decode pubB64 with
  | some bytes => if 8 ≤ bytes.length then Base64.encode (bytes.take 8) else ""
  | none => ""

/-- The characters `str::trim` strips. -/
def whiteSpace (c : Char) : Bool :=
  (9 ≤ c.toNat && c.toNat ≤ 13) || c.toNat = 0x20 || c.toNat = 0x85 || c.toNat = 0xA0 ||
    c.toNat = 0x1680 || (0x2000 ≤ c.toNat && c.toNat ≤ 0x200A) || c.toNat = 0x2028 ||
    c.toNat = 0x2029 || c.toNat = 0x202F || c.toNat = 0x205F || c.toNat = 0x3000

/-- `str::trim`. -/
def trimText (text : List Char) : List Char := (text.dropWhile whiteSpace).rdropWhile whiteSpace

/-- Add a key, unless it has no id or its id is there. -/
def addKey (list : List (String × String)) (key : String) : List (String × String) :=
  if keyIdOf key ≠ "" ∧ !list.any (·.1 = keyIdOf key) then list ++ [(keyIdOf key, key)] else list

/-- Add every comma-separated key of a text. -/
def addKeys (raw : String) (list : List (String × String)) : List (String × String) :=
  (((raw.toList.splitOn ',').map trimText).filter (· ≠ [])).foldl
    (fun list key => addKey list (String.ofList key)) list

/-- What the trust set is read from: the build, the environment and the vendored root. -/
structure Environment where
  releasePubs : Option String
  officialReleasePubs : Option String
  debugAssertions : Bool
  officialHash : Option String
  officialPcr0 : Option String
  nitroRoot : Option Bytes

/-- Build the pinned trust set. -/
def pinned (env : Environment) : Official :=
  let keys := (env.releasePubs.map fun baked => addKeys baked []).getD []
  let keys := (env.officialReleasePubs.map fun extra => addKeys extra keys).getD keys
  let keys := if env.debugAssertions then addKeys devReleasePublicB64 keys else keys
  { releasePubkeys := keys
    officialBuildHash := env.officialHash.filter (· ≠ "")
    nitroPcr0 := env.officialPcr0.filter (· ≠ "")
    nitroRoots := env.nitroRoot.toList }

/-! ### What the key list keeps -/

/-- Every key is listed under its own id, and no id is listed twice. -/
structure WellKeyed (list : List (String × String)) : Prop where
  ids : ∀ entry ∈ list, entry.1 = keyIdOf entry.2
  nodup : (list.map Prod.fst).Nodup

theorem wellKeyed_nil : WellKeyed [] := ⟨nofun, .nil⟩

theorem WellKeyed.addKey {list : List (String × String)} (before : WellKeyed list) (key : String) :
    WellKeyed (addKey list key) := by
  unfold ChermAttest.addKey
  split
  · next added =>
      refine ⟨?_, ?_⟩
      · intro entry member
        rcases List.mem_append.mp member with old | new
        · exact before.ids entry old
        · rw [List.mem_singleton.mp new]
      · rw [List.map_append, List.nodup_append]
        refine ⟨before.nodup, List.nodup_singleton _, ?_⟩
        intro id listed other single same
        obtain ⟨entry, member, rfl⟩ := List.mem_map.mp listed
        have taken : list.any (·.1 = keyIdOf key) = true := by
          refine List.any_eq_true.mpr ⟨entry, member, ?_⟩
          rw [same, List.mem_singleton.mp single]
          simp
        rw [taken] at added
        exact absurd added.2 (by decide)
  · exact before

theorem WellKeyed.foldl (keys : List (List Char)) {list : List (String × String)}
    (before : WellKeyed list) :
    WellKeyed (keys.foldl (fun list key => ChermAttest.addKey list (String.ofList key)) list) := by
  induction keys generalizing list with
  | nil => exact before
  | cons key rest ih =>
      rw [List.foldl_cons]
      exact ih (before.addKey (String.ofList key))

theorem WellKeyed.addKeys {list : List (String × String)} (before : WellKeyed list) (raw : String) :
    WellKeyed (addKeys raw list) := before.foldl _

/-- The pinned trust set is well keyed. -/
theorem pinned_wellKeyed (env : Environment) : WellKeyed (pinned env).releasePubkeys := by
  have baked : WellKeyed ((env.releasePubs.map fun baked => addKeys baked []).getD []) := by
    cases env.releasePubs with
    | none => exact wellKeyed_nil
    | some raw => exact wellKeyed_nil.addKeys raw
  have extra : WellKeyed ((env.officialReleasePubs.map fun extra => addKeys extra
      ((env.releasePubs.map fun baked => addKeys baked []).getD [])).getD
      ((env.releasePubs.map fun baked => addKeys baked []).getD [])) := by
    cases env.officialReleasePubs with
    | none => exact baked
    | some raw => exact baked.addKeys raw
  unfold pinned
  dsimp only
  split
  · exact extra.addKeys _
  · exact extra

/-- In a well-keyed list, a listed key is the one its id selects. -/
theorem WellKeyed.find?_of_mem {list : List (String × String)} (keyed : WellKeyed list)
    {key : String} (listed : key ∈ list.map Prod.snd) :
    list.find? (·.1 = keyIdOf key) = some (keyIdOf key, key) := by
  obtain ⟨⟨id, key⟩, member, rfl⟩ := List.mem_map.mp listed
  obtain rfl : id = keyIdOf key := keyed.ids _ member
  obtain ⟨earlier, later, rfl⟩ := List.append_of_mem member
  refine List.find?_eq_some_iff_append.mpr ⟨by simp, earlier, later, rfl, ?_⟩
  intro entry before
  have distinct := keyed.nodup
  rw [List.map_append, List.nodup_append] at distinct
  have apart := distinct.2.2 entry.1 (List.mem_map_of_mem before) (keyIdOf key) (by simp)
  simpa using apart

end ChermAttest
