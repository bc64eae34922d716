/-
**Versions are in order.**

Segments that are no numbers count as -1, below the zeros that a short version goes on with. Every
version is a sequence of numbers all the same, and the comparison is the lexicographic order of these
sequences: two versions with one sequence are equally new.

* `versions_ranked`: any texts, and any sequence of releases.
-/

import Cherm.Lib.Ranking
import Cherm.Plugin.Updates

namespace ChermPlugins

open Ranking

theorem isNewer_ranks : Ranks isNewer := ranks_of_key fun _ _ => isNewer_iff

/-- **The comparison of versions is an order.** Releases of which each is newer than the one before
never come back to an earlier one; and whoever takes, of any releases, each that is newer than what
he has, ends with a newest one. -/
theorem versions_ranked :
    Ranks isNewer ∧
      (∀ releases : List String,
        releases.IsChain (fun earlier later => isNewer later earlier = true) →
          releases.Pairwise fun earlier later => isNewer later earlier = true ∧ later ≠ earlier) ∧
      ∀ (current : String) (releases : List String),
        Newest isNewer (current :: releases) (releases.foldl (adopt isNewer) current) :=
  ⟨isNewer_ranks, fun _ => isNewer_ranks.chain, isNewer_ranks.newest⟩

theorem releases_climb : ["0.9", "1.0", "1.0.1"].Pairwise fun earlier later =>
    isNewer later earlier = true ∧ later ≠ earlier :=
  versions_ranked.2.1 _ (.cons_cons (by decide +kernel) (.cons_cons (by decide +kernel)
    (.singleton _)))

/-- What is no number is below the padding, whatever it is. -/
example : Even isNewer "1.x" "1.y.0" ∧ isNewer "1" "1.x" = true := by
  refine ⟨⟨?_, ?_⟩, ?_⟩ <;> decide +kernel

end ChermPlugins
