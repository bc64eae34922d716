/-
**What a token bucket lets through.**

A bucket holds up to `burst` tokens, gains `rate` a second, and an action takes one. `Paced` relates
the times of the actions so far to the level of the bucket now: since any earlier time, the actions
and what is left are within the burst and what has flowed in.

* `level`: the tokens of a bucket, refilled to the present; it only depends on the last visit
  (`level_level`).
* `Paced.wait`, `Paced.spend`: time passes, an action is taken.
* `Paced.window`: in any window there are at most `burst + rate * length` actions.
-/

import Mathlib.Algebra.Order.Field.Basic
import Mathlib.Data.UInt
import Mathlib.Tactic.Linarith

namespace Pace

variable {K : Type} [Field K] [LinearOrder K]

/-- The tokens of a bucket, some time after it had these. -/
def level (rate burst tokens elapsed : K) : K := min (tokens + elapsed * rate) burst

section

variable {rate burst tokens elapsed : K}

theorem level_le_burst : level rate burst tokens elapsed ≤ burst := min_le_right _ _

theorem level_le_add : level rate burst tokens elapsed ≤ tokens + elapsed * rate := min_le_left _ _

theorem level_zero (within : tokens ≤ burst) : level rate burst tokens 0 = tokens := by
  rw [level, zero_mul, add_zero, min_eq_left within]

variable [IsStrictOrderedRing K]

/-- A full bucket stays full. -/
theorem level_burst (flows : 0 ≤ rate) (later : 0 ≤ elapsed) :
    level rate burst burst elapsed = burst :=
  min_eq_right (le_add_of_nonneg_right (mul_nonneg later flows))

theorem le_level (flows : 0 ≤ rate) (later : 0 ≤ elapsed) (within : tokens ≤ burst) :
    tokens ≤ level rate burst tokens elapsed :=
  le_min (le_add_of_nonneg_right (mul_nonneg later flows)) within

/-- Refilled in two steps or in one. -/
theorem level_level (flows : 0 ≤ rate) {more : K} (later : 0 ≤ more) :
    level rate burst (level rate burst tokens elapsed) more =
      level rate burst tokens (elapsed + more) := by
  have gain : 0 ≤ more * rate := mul_nonneg later flows
  unfold level
  rw [add_mul, ← add_assoc]
  rcases le_total (tokens + elapsed * rate) burst with below | above
  · rw [min_eq_left below]
  · rw [min_eq_right above, min_eq_right (by linarith), min_eq_right (by linarith)]

/-- A bucket that is not full was visited within the time it takes to fill an empty one. -/
theorem elapsed_lt_of_not_full (flows : 0 < rate) (some : 0 ≤ tokens)
    (notFull : level rate burst tokens elapsed < burst) : elapsed < burst / rate := by
  rw [lt_div_iff₀ flows]
  rcases min_lt_iff.mp notFull with below | absurdly
  · linarith
  · exact absurd absurdly (lt_irrefl _)

end

/-- The actions at these times, and a bucket at this level now. -/
structure Paced (rate burst : K) (spent : List K) (held now : K) : Prop where
  past : ∀ t ∈ spent, t ≤ now
  since : ∀ start ≤ now,
    (spent.countP (start ≤ ·) : K) + held ≤ burst + rate * (now - start)
  window : ∀ start stop, start ≤ stop →
    (spent.countP (fun t => start ≤ t ∧ t ≤ stop) : K) ≤ burst + rate * (stop - start)

variable [IsStrictOrderedRing K] {rate burst held now : K} {spent : List K}

theorem Paced.start (flows : 0 ≤ rate) (room : 0 ≤ burst) (now : K) :
    Paced rate burst [] burst now where
  past _ member := absurd member List.not_mem_nil
  since start before := by
    have gain := mul_nonneg flows (sub_nonneg.mpr before)
    simp only [List.countP_nil, Nat.cast_zero]
    linarith
  window start stop ordered := by
    have gain := mul_nonneg flows (sub_nonneg.mpr ordered)
    simp only [List.countP_nil, Nat.cast_zero]
    linarith

/-- **Time passes**: the level rises by no more than what flows in. -/
theorem Paced.wait (paced : Paced rate burst spent held now) (flows : 0 ≤ rate) {later held' : K}
    (after : now ≤ later) (capped : held' ≤ burst) (gained : held' ≤ held + (later - now) * rate) :
    Paced rate burst spent held' later where
  past t member := le_trans (paced.past t member) after
  since start before := by
    rcases le_or_gt start now with old | recent
    · have earlier := paced.since start old
      linarith
    · -- nothing has been spent since
      have none : spent.countP (start ≤ ·) = 0 := by
        refine List.countP_eq_zero.mpr fun t member => ?_
        have early := lt_of_le_of_lt (paced.past t member) recent
        simpa using early
      have gain := mul_nonneg flows (sub_nonneg.mpr before)
      rw [none, Nat.cast_zero]
      linarith
  window := paced.window

/-- **An action** takes a token. -/
theorem Paced.spend (paced : Paced rate burst spent held now) (flows : 0 ≤ rate)
    (enough : 1 ≤ held) : Paced rate burst (spent ++ [now]) (held - 1) now := by
  have since : ∀ start ≤ now,
      ((spent ++ [now]).countP (start ≤ ·) : K) + (held - 1) ≤ burst + rate * (now - start) := by
    intro start before
    have earlier := paced.since start before
    rw [List.countP_append, List.countP_singleton, if_pos (decide_eq_true before)]
    push_cast
    linarith
  refine ⟨fun t member => ?_, since, fun start stop ordered => ?_⟩
  · rcases List.mem_append.mp member with old | new
    · exact paced.past t old
    · exact le_of_eq (List.mem_singleton.mp new)
  · by_cases inside : start ≤ now ∧ now ≤ stop
    · -- all actions are past, so the window ends now
      have fewer : (spent ++ [now]).countP (fun t => start ≤ t ∧ t ≤ stop) ≤
          (spent ++ [now]).countP (start ≤ ·) :=
        List.countP_mono_left fun t _ within => by
          simp only [decide_eq_true_eq] at within ⊢
          exact within.1
      have gain := mul_le_mul_of_nonneg_left (sub_le_sub_right inside.2 start) flows
      have earlier := since start inside.1
      have cast : ((spent ++ [now]).countP (fun t => start ≤ t ∧ t ≤ stop) : K) ≤
          ((spent ++ [now]).countP (start ≤ ·) : K) := Nat.cast_le.mpr fewer
      linarith
    · rw [List.countP_append, List.countP_singleton, if_neg (by simpa using inside), Nat.add_zero]
      exact paced.window start stop ordered

end Pace
