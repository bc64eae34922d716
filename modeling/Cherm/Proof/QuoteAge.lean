/-
**The age test of a quote, in both builds.**

The age of a quote goes through a narrowing cast, a subtraction and an absolute value. In the
release build the last two wrap; in the debug build they trap. `ageOkWrapping` is the test as
`verifyQuote` makes it (`verifyQuote_age`), `ageOkTrapping` the same test where an overflow has no
value.

* `age_traps_iff` — the arithmetic overflows exactly if the clock and the cast timestamp are half
  the range of 64-bit integers apart, or farther.
* `age_exact_iff` — the test answers by the distance of the clock and the timestamp, without an
  overflow, exactly for `AgeInRange`: a timestamp below `2 ^ 63` that is not half the range ahead of
  the clock, or a later one whose cast is still told apart from the clock.
-/

import Cherm.Proof.Enclave

namespace ChermAttest

open Cherm (Bytes)

/-! ### The two builds -/

/-- The difference, where an overflow traps. -/
def subTrapping (first second : Int64) : Option Int64 :=
  if first.toBitVec.ssubOverflow second.toBitVec then none else some (first - second)

/-- `abs`, where an overflow traps. -/
def absTrapping (number : Int64) : Option Int64 :=
  if number.toBitVec.negOverflow then none else some number.abs

/-- The age test of a document in the release build. -/
def ageOkWrapping (now : Int64) (timestamp : UInt64) : Bool :=
  !decide (maxAgeMs < (now - timestamp.toInt64).abs)

/-- The age test of a document in the debug build. The cast does not trap. -/
def ageOkTrapping (now : Int64) (timestamp : UInt64) : Option Bool := do
  let age ← subTrapping now timestamp.toInt64
  let span ← absTrapping age
  return !decide (maxAgeMs < span)

theorem ageOkWrapping_iff (now : Int64) (timestamp : UInt64) :
    ageOkWrapping now timestamp = true ↔ Fresh now timestamp ∨ AgeWraps now timestamp := by
  rw [← age_accepted_iff]
  simp [ageOkWrapping]

/-- A quote is accepted only if its document passes the age test. -/
theorem verifyQuote_age [AttestCrates] {quote : Bytes} {expectedPcr0 : String}
    {expectedNonce : Bytes} {now : Int64} {roots : List Bytes} {userData : Bytes}
    {claims : NitroClaims}
    (accepted : verifyQuote quote (some expectedPcr0) expectedNonce now roots (some userData)
      = .ok claims) :
    ∃ cose payload doc, AttestCrates.coseFromTaggedSlice quote = .ok cose ∧
      cose.payload = some payload ∧ AttestCrates.docFromReader payload = .ok doc ∧
      ageOkWrapping now doc.timestamp = true := by
  obtain ⟨cose, payload, doc, _, _, _, _, isCose, isPayload, isDoc, _, _, _, age, _⟩ :=
    verifyQuote_iff.mp accepted
  exact ⟨cose, payload, doc, isCose, isPayload, isDoc, (ageOkWrapping_iff now _).mpr age⟩

/-! ### Where the arithmetic overflows -/

/-- The cast keeps a timestamp of the lower half, and takes the whole range off another. -/
theorem toInt_toInt64 (timestamp : UInt64) :
    timestamp.toInt64.toInt
      = if timestamp.toNat < 2 ^ 63 then (timestamp.toNat : Int) else timestamp.toNat - 2 ^ 64 := by
  have high := timestamp.toNat_lt
  show timestamp.toBitVec.toInt = _
  rw [BitVec.toInt_eq_toNat_bmod]
  show (timestamp.toNat : Int).bmod (2 ^ 64) = _
  rw [Int.bmod_def]
  split <;> split <;> omega

/-- The distance of the clock and the cast timestamp reaches half the range. -/
def AgeOverflows (now : Int64) (timestamp : UInt64) : Prop :=
  2 ^ 63 ≤ (now.toInt - timestamp.toInt64.toInt).natAbs

theorem subTrapping_eq (first second : Int64) :
    subTrapping first second
      = if 2 ^ 63 ≤ first.toInt - second.toInt ∨ first.toInt - second.toInt < -2 ^ 63 then none
        else some (first - second) := by
  unfold subTrapping BitVec.ssubOverflow
  simp only [Bool.or_eq_true, decide_eq_true_eq]
  rfl

theorem absTrapping_eq (number : Int64) :
    absTrapping number = if number.toInt = -2 ^ 63 then none else some number.abs := by
  unfold absTrapping BitVec.negOverflow
  simp only [beq_iff_eq]
  rfl

/-- **Where the debug build traps**; where it does not, the two builds agree. -/
theorem ageOkTrapping_eq (now : Int64) (timestamp : UInt64) [Decidable (AgeOverflows now timestamp)] :
    ageOkTrapping now timestamp
      = if AgeOverflows now timestamp then none else some (ageOkWrapping now timestamp) := by
  have nowLow := now.le_toInt
  have nowHigh := now.toInt_lt
  have tsLow := timestamp.toInt64.le_toInt
  have tsHigh := timestamp.toInt64.toInt_lt
  unfold ageOkTrapping
  rw [subTrapping_eq]
  by_cases far : 2 ^ 63 ≤ now.toInt - timestamp.toInt64.toInt ∨
      now.toInt - timestamp.toInt64.toInt < -2 ^ 63
  · rw [if_pos far, if_pos]
    · rfl
    · unfold AgeOverflows
      omega
  · -- the difference is exact, so its absolute value traps at the least integer alone
    have exactAge : (now - timestamp.toInt64).toInt = now.toInt - timestamp.toInt64.toInt := by
      rw [Int64.toInt_sub, Int.bmod_def]
      split <;> omega
    rw [if_neg far]
    show (absTrapping (now - timestamp.toInt64) >>= fun span => some (!decide (maxAgeMs < span)))
      = _
    rw [absTrapping_eq, exactAge]
    by_cases least : now.toInt - timestamp.toInt64.toInt = -2 ^ 63
    · rw [if_pos least, if_pos]
      · rfl
      · unfold AgeOverflows
        omega
    · rw [if_neg least, if_neg]
      · rfl
      · unfold AgeOverflows
        omega

open Classical in
theorem age_traps_iff (now : Int64) (timestamp : UInt64) :
    ageOkTrapping now timestamp = none ↔ AgeOverflows now timestamp := by
  rw [ageOkTrapping_eq]
  split <;> simp_all

/-! ### The law -/

/-- **The law**: in both builds the test passes what is fresh, and nothing else; in the debug build
it always has an answer. -/
structure AgeExact (now : Int64) (timestamp : UInt64) : Prop where
  wrapping : ageOkWrapping now timestamp = true ↔ Fresh now timestamp
  trapping : ∃ passes, ageOkTrapping now timestamp = some passes ∧
    (passes = true ↔ Fresh now timestamp)

/-- The cast timestamp is told apart from the clock as the timestamp itself is: it is less than half
the range from the clock, and if the cast changed it, not within the accepted age. -/
def AgeInRange (now : Int64) (timestamp : UInt64) : Prop :=
  (timestamp.toNat < 2 ^ 63 ∧ -2 ^ 63 < now.toInt - timestamp.toNat) ∨
    (2 ^ 63 ≤ timestamp.toNat ∧ now.toInt - (timestamp.toNat - 2 ^ 64) < 2 ^ 63 ∧
      maxAgeMs.toInt < (now.toInt - (timestamp.toNat - 2 ^ 64)).natAbs)

/-- In range is to be free of overflow and of wrapped ages. -/
theorem ageInRange_iff (now : Int64) (timestamp : UInt64) :
    AgeInRange now timestamp ↔ ¬ AgeOverflows now timestamp ∧ ¬ AgeWraps now timestamp := by
  have nowLow := now.le_toInt
  have nowHigh := now.toInt_lt
  have tsHigh := timestamp.toNat_lt
  unfold AgeInRange AgeOverflows AgeWraps
  rw [toInt_toInt64, toInt_maxAgeMs]
  split <;> omega

open Classical in
/-- **The age test is exact exactly in range.** -/
theorem age_exact_iff (now : Int64) (timestamp : UInt64) :
    AgeExact now timestamp ↔ AgeInRange now timestamp := by
  rw [ageInRange_iff]
  constructor
  · rintro ⟨wrapping, passes, answered, _⟩
    refine ⟨fun overflows => ?_, fun wraps => ?_⟩
    · rw [(age_traps_iff now timestamp).mpr overflows] at answered
      cases answered
    · exact wraps.not_fresh (wrapping.mp ((ageOkWrapping_iff now timestamp).mpr (.inr wraps)))
  · rintro ⟨noOverflow, noWrap⟩
    have wrapping : ageOkWrapping now timestamp = true ↔ Fresh now timestamp := by
      rw [ageOkWrapping_iff]
      exact or_iff_left noWrap
    exact ⟨wrapping, _, by rw [ageOkTrapping_eq, if_neg noOverflow], wrapping⟩

/-- A timestamp of half the range traps the debug build, at a clock of today; one of the whole range
passes the release build, half a billion years from the clock. -/
theorem age_inexact :
    ageOkTrapping 1700000000000 (2 ^ 63) = none ∧
      ageOkWrapping 0 (2 ^ 64 - 1) = true ∧ ¬ Fresh 0 (2 ^ 64 - 1) ∧
      ¬ ∀ (now : Int64) (timestamp : UInt64), AgeExact now timestamp := by
  have traps : ageOkTrapping 1700000000000 (2 ^ 63) = none := by decide +kernel
  refine ⟨traps, by decide +kernel, by unfold Fresh; decide +kernel, fun law => ?_⟩
  obtain ⟨_, answered, _⟩ := (law 1700000000000 (2 ^ 63)).trapping
  rw [traps] at answered
  cases answered

end ChermAttest
