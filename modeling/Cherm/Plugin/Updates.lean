/-
**Is there a newer version?**

* `isNewer`: versions compared number by number.
* `isNewer_iff`: that is the lexicographic order of the numbers.
-/

import Cherm.Client.Moderation
import Cherm.Lib.Padded
import Cherm.Plugin.Manager

namespace ChermPlugins

open Cherm (parseI64)

/-! ### Versions -/

/-- A segment that is no number counts as -1. -/
def parseVersion (s : String) : List Int :=
  (s.toList.splitOnP fun c => c = '.' || c = '+' || c = '-').map fun p => (parseI64 p).getD (-1)

/-- Version `a` is strictly newer than `b`: the first place where they differ decides, a missing
segment is zero. -/
def isNewer (a b : String) : Bool :=
  let va := parseVersion a
  let vb := parseVersion b
  let places := (List.range (max va.length vb.length)).map fun i => (va.getD i 0, vb.getD i 0)
  (places.find? fun place => place.1 ≠ place.2).any fun place => place.1 > place.2

theorem isNewer_iff {a b : String} :
    isNewer a b = true ↔ Padded.pad (parseVersion b) < Padded.pad (parseVersion a) :=
  Padded.newer_iff

end ChermPlugins
