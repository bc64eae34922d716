/-
**Suspension deadlines: the sum of the clock and the duration.**

`parseDuration` checks its product, `suspendMember` does not check its sum. `Ask.clocked` is the
world in which the first reading of the clock is given and everything else is free.

* `suspendMember_stores` — after the command, however it ends, the stored deadline is the wrapped
  sum: `moderate` does not write suspensions (`calls_moderate`).
* `runs_askAll` — the query that also deletes answers by the stored deadline, any number of times.
* `suspension_exact_iff` — so the deadline is exact, and the user is suspended until then, exactly
  if the sum is in the range of `i64`.
-/

import Cherm.Client.CommandAsks
import Cherm.Proof.Eviction

namespace Cherm

open Crates Client

/-! ### The arithmetic -/

theorem inI64_iff {value : Int} : inI64 value = true ↔ -2 ^ 63 ≤ value ∧ value < 2 ^ 63 := by
  unfold inI64
  rw [Bool.and_eq_true, decide_eq_true_eq, decide_eq_true_eq]

/-- A sum in range is not wrapped. -/
theorem wrapI64_of_inI64 {value : Int} (inRange : inI64 value = true) : wrapI64 value = value := by
  obtain ⟨low, high⟩ := inI64_iff.mp inRange
  unfold wrapI64
  rw [Int.bmod_def]
  split <;> omega

section

variable [Crates]

/-! ### The query -/

/-- One query after the other. -/
def askAll (group user : String) : List Int → Client (List Bool)
  | [] => return []
  | time :: later => do
      let answer ← isSuspended group user time
      let answers ← askAll group user later
      return answer :: answers

/-- While the deadline is ahead, a query answers true and deletes nothing. -/
theorem runs_isSuspended {group user : String} {time deadline : Int} {v v' : Vault}
    {result : Except String Bool} (stored : v.suspendedUntil group user = some deadline)
    (early : time < deadline)
    (runs : Prog.Runs Ask.effect (isSuspended group user time) v result v') :
    result = .ok true ∧ v' = v := by
  have rest := runs_call runs
  simp only [VaultOp.exec, stored, Prog.bind_eq, Prog.done_bind, early, if_true] at rest
  cases rest
  exact ⟨rfl, rfl⟩

theorem runs_askAll {group user : String} {times : List Int} {deadline : Int} {v v' : Vault}
    {result : Except String (List Bool)} (stored : v.suspendedUntil group user = some deadline)
    (early : ∀ time ∈ times, time < deadline)
    (runs : Prog.Runs Ask.effect (askAll group user times) v result v') :
    result = .ok (times.map fun _ => true) ∧ v' = v := by
  induction times generalizing result v' with
  | nil =>
      cases runs
      exact ⟨rfl, rfl⟩
  | cons time later ih =>
      have here := early time List.mem_cons_self
      obtain ⟨error, _, first⟩ | ⟨answer, mid, first, rest⟩ := Prog.runs_bind runs
      · obtain ⟨impossible, _⟩ := runs_isSuspended stored here first
        cases impossible
      · obtain ⟨isTrue, rfl⟩ := runs_isSuspended stored here first
        cases isTrue
        have laterEarly : ∀ time ∈ later, time < deadline := fun other member =>
          early other (List.mem_cons_of_mem time member)
        obtain ⟨error, _, second⟩ | ⟨answers, mid, second, last⟩ := Prog.runs_bind rest
        · obtain ⟨impossible, _⟩ := ih laterEarly second
          cases impossible
        · obtain ⟨answered, rfl⟩ := ih laterEarly second
          cases answered
          cases last
          exact ⟨rfl, rfl⟩

/-! ### The first reading of the clock -/

/-- The vault, and whether the clock was read. The first reading is `now`; the world is free
otherwise. -/
def Ask.clocked (now : Int) : Prog.Step (Vault × Bool) Ask Ask.Answer
  | .now, s, reading, s' => (s.2 = false → reading = now) ∧ s' = (s.1, true)
  | asked, s, answer, s' => Ask.effect asked s.1 answer s'.1 ∧ s'.2 = s.2

variable {now : Int} {α : Type} {post : Except String α → Vault × Bool → Prop}

theorem Ask.clocked_effect {asked : Ask} {s s' : Vault × Bool} {answer : asked.Answer}
    (made : Ask.clocked now asked s answer s') : Ask.effect asked s.1 answer s'.1 := by
  cases asked with
  | now => exact ⟨trivial, by rw [made.2]⟩
  | _ => exact made.1

theorem Ask.clocked_total (now : Int) (asked : Ask) (s : Vault × Bool) :
    ∃ answer s', Ask.clocked now asked s answer s' := by
  cases asked with
  | now => exact ⟨now, (s.1, true), fun _ => rfl, rfl⟩
  | call op => exact ⟨_, ((op.exec s.1).2, s.2), rfl, rfl⟩
  | connect addr => exact ⟨.ok (), s, ⟨trivial, rfl⟩, rfl⟩
  | request msg => exact ⟨.error "", s, ⟨trivial, rfl⟩, rfl⟩
  | post msg => exact ⟨.ok (), s, ⟨trivial, rfl⟩, rfl⟩
  | emit event => exact ⟨(), s, ⟨trivial, rfl⟩, rfl⟩
  | random => exact ⟨(0 : Nat), s, ⟨trivial, rfl⟩, rfl⟩
  | readFile path => exact ⟨.error "", s, ⟨trivial, rfl⟩, rfl⟩
  | writeBackup server username uuid device => exact ⟨.error "", s, ⟨trivial, rfl⟩, rfl⟩
  | saveIndex => exact ⟨.ok (), s, ⟨trivial, rfl⟩, rfl⟩

theorem wp_clocked_call (op : VaultOp) (next : op.Result → Client α) (s : Vault × Bool) :
    Prog.wp (.free (Ask.clocked now)) post (.ask (.call op) next) s ↔
      Prog.wp (.free (Ask.clocked now)) post (next (op.exec s.1).1) ((op.exec s.1).2, s.2) := by
  rw [Prog.wp_ask]
  refine ⟨fun all => all.2 _ _ ⟨rfl, rfl⟩, fun here => ⟨trivial, ?_⟩⟩
  rintro answer ⟨v', read⟩ ⟨same, rfl⟩
  obtain ⟨rfl, rfl⟩ := Prod.mk.inj (same : (answer, v') = op.exec s.1)
  exact here

/-- The first reading of the clock. -/
theorem wp_clocked_now (next : Int → Client α) (v : Vault) :
    Prog.wp (.free (Ask.clocked now)) post (.ask .now next) (v, false) ↔
      Prog.wp (.free (Ask.clocked now)) post (next now) (v, true) := by
  rw [Prog.wp_ask]
  refine ⟨fun all => all.2 now _ ⟨fun _ => rfl, rfl⟩, fun here => ⟨trivial, ?_⟩⟩
  rintro reading s' ⟨first, rfl⟩
  rw [first rfl]
  exact here

/-! ### The command -/

/-- Everything but suspensions. -/
def NoSuspension (part : VaultPart) (_ : String) : Prop := part ≠ .groupSuspensions

/-- **The deadline that is stored**, however the command ends. -/
theorem suspendMember_stores {app : App} {v : Vault} {group user me duration : String} {ms : Int}
    (entered : Entered app v group user me (.suspend duration))
    (parsed : (parseDuration duration).filter (0 < ·) = some ms) (now : Int) :
    Prog.wp (.free (Ask.clocked now))
      (fun _ s' => s'.1.suspendedUntil group user = some (wrapI64 (now + ms)))
      (suspendMember app group user duration) (v, false) := by
  obtain ⟨server, active⟩ := Option.isSome_iff_exists.mp entered.server
  obtain ⟨row, isRow, owns⟩ := entered.row
  have named : me.isEmpty = false := by simpa using entered.named
  unfold suspendMember groupOwnerCtx activeServer ownUsername activeLink
  simp only [active, entered.linked, call_eq, now_eq, Prog.bind_eq, Prog.ask_bind, Prog.done_bind,
    Prog.pure_eq, Option.isSome_some, Bool.and_self, if_true, wp_clocked_call, VaultOp.exec,
    entered.registered, Bool.not_true, Bool.false_eq_true, if_false, isRow, named, owns,
    ne_eq, not_true, decide_false, Bool.or_self, entered.other, parsed, wp_clocked_now]
  have other : ∀ part, part ≠ VaultPart.groupSuspensions → ∀ id, NoSuspension part id :=
    fun part other _ => other
  have moderates : Prog.Calls (Ask.May NoSuspension (fun _ _ => True) fun _ => True)
      (moderate group me user "suspended" (some (wrapI64 (now + ms)))) :=
    calls_moderate (other _ (by decide)) (other _ (by decide)) (other .groupOut (by decide) group)
      (other .chatMembers (by decide) group) (other .groupIn (by decide) group)
      (other .messages (by decide) group) (fun _ => trivial) me user "suspended" _
  refine moderates.wp (fun _ _ _ _ => trivial) (fun asked s answer s' may stored made => ?_) ?_
  · have same : VaultPart.groupSuspensions.SameAt group s.1 s'.1 :=
      may.frame (fun writes => writes rfl) (Ask.clocked_effect made)
    exact (congrFun same user).trans stored
  · show (v.suspendUser group user _).groupSuspensions.get (group, user) = _
    unfold Vault.suspendUser
    rw [Table.get_put, if_pos rfl]

/-! ### The law -/

/-- **The law**: the stored deadline is the sum, which is in range; and until then the user is
suspended, however often that is asked. -/
structure DeadlineExact (group user : String) (now ms : Int) (v : Vault) : Prop where
  stored : v.suspendedUntil group user = some (now + ms)
  inRange : inI64 (now + ms) = true
  suspended : ∀ times, (∀ time ∈ times, now ≤ time ∧ time < now + ms) → ∀ result v',
    Prog.Runs Ask.effect (askAll group user times) v result v' →
      result = .ok (times.map fun _ => true) ∧ v' = v

/-- **A suspension is exact exactly if the deadline is in the range of `i64`**: for every vault of
an owner, every accepted duration, every reading of the clock and every answer of the network. -/
theorem suspension_exact_iff {app : App} {v : Vault} {group user me duration : String} {ms : Int}
    (entered : Entered app v group user me (.suspend duration))
    (parsed : parseDuration duration = some ms) (positive : 0 < ms)
    (reading : inI64 now = true) :
    (∀ result s', Prog.Runs (Ask.clocked now) (suspendMember app group user duration) (v, false)
      result s' → DeadlineExact group user now ms s'.1) ↔ now + ms < 2 ^ 63 := by
  have accepted : (parseDuration duration).filter (0 < ·) = some ms := by
    rw [parsed, Option.filter_some, if_pos (decide_eq_true positive)]
  have stores := suspendMember_stores entered accepted now
  obtain ⟨nowLow, _⟩ := inI64_iff.mp reading
  constructor
  · intro exactly
    obtain ⟨result, s', runs⟩ := Prog.exists_runs (Ask.clocked_total now)
      (suspendMember app group user duration) (v, false)
    exact (inI64_iff.mp (exactly result s' runs).inRange).2
  · intro small result s' runs
    have inRange : inI64 (now + ms) = true := inI64_iff.mpr ⟨by omega, small⟩
    have stored : s'.1.suspendedUntil group user = some (now + ms) := by
      rw [← wrapI64_of_inI64 inRange]
      exact Prog.wp_free_iff.mp stores result s' runs
    refine ⟨stored, inRange, fun times within result' v' asked => ?_⟩
    exact runs_askAll stored (fun time member => (within time member).2) asked

end

namespace Ideal

/-- Alice, the owner, may suspend Bob for thirty seconds or for the longest time there is. -/
theorem alice_suspends {duration : String} {ms : Int}
    (parsed : (parseDuration duration).filter (0 < ·) = some ms) :
    Entered aliceApp aliceOwnsGroup.vault "g" "bob" "alice" (.suspend duration) where
  server := rfl
  linked := rfl
  registered := by decide +kernel
  row := ⟨⟨"ABCDEFGH", "open", "alice"⟩, by decide +kernel, rfl⟩
  named := by decide
  other := by decide
  duration := by
    rintro text ⟨rfl⟩
    exact ⟨ms, parsed⟩

/-- Thirty seconds from a clock of today. -/
theorem thirty_seconds : ∃ result s',
    Prog.Runs (Ask.clocked 1700000000000) (suspendMember aliceApp "g" "bob" "30s")
      (aliceOwnsGroup.vault, false) result s' ∧
    DeadlineExact "g" "bob" 1700000000000 30000 s'.1 := by
  obtain ⟨result, s', runs⟩ := Prog.exists_runs (Ask.clocked_total 1700000000000)
    (suspendMember aliceApp "g" "bob" "30s") (aliceOwnsGroup.vault, false)
  have entered := @alice_suspends "30s" 30000 (by decide +kernel)
  exact ⟨result, s', runs, (suspension_exact_iff entered (by decide +kernel) (by decide)
    (by decide)).mpr (by decide) result s' runs⟩

/-- The longest duration in seconds wraps the sum: the deadline is in the past at once. -/
theorem longest_wraps :
    ¬ ∀ (app : App) (v : Vault) (group user me duration : String) (ms now : Int),
      Entered app v group user me (.suspend duration) → parseDuration duration = some ms →
      0 < ms → inI64 now = true → now < 253402300800000 → ∀ result s',
      Prog.Runs (Ask.clocked now) (suspendMember app group user duration) (v, false) result s' →
        DeadlineExact group user now ms s'.1 := by
  intro law
  have accepted : (parseDuration "9223372036854775s").filter (0 < ·) = some 9223372036854775000 := by
    decide +kernel
  obtain ⟨result, s', runs⟩ := Prog.exists_runs (Ask.clocked_total 1700000000000)
    (suspendMember aliceApp "g" "bob" "9223372036854775s") (aliceOwnsGroup.vault, false)
  have exactly := law aliceApp aliceOwnsGroup.vault "g" "bob" "alice" "9223372036854775s"
    9223372036854775000 1700000000000 (alice_suspends accepted) (by decide +kernel) (by decide)
    (by decide) (by decide) result s' runs
  exact absurd exactly.inRange (by decide)

end Ideal

end Cherm
