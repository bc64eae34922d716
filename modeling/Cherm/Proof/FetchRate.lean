/-
**How often a user's keys are fetched, and how many buckets there are.**

Calls on one fetch gate, by whatever connections and for whatever names, with a clock that does not
go back.

* `fetch_rate_bound`: a target is fetched at most `burst + rate * length` times in a window, and the
  tokens of every bucket stay between zero and its burst.
* `gate_bounded_iff`: above the cap only the target and buckets that are not full remain, exactly if
  no other bucket has had the time to fill up. Pruning looks at the tokens that were left behind, not
  at those there would be by now, and no bucket is left behind full.
-/

import Cherm.Relay.FetchGate

namespace Cherm.Relay

open Gated

/-! ### What holds in every run -/

theorem rate_nonneg : 0 ≤ fetchRate := by decide

/-- What a gate has for a target at some time; a new bucket would be full. -/
def FetchGate.level (gate : FetchGate) (target : String) (now : ℚ) : ℚ :=
  match gate.get target with
  | some limiter => limiter.level now
  | none => fetchBurst

namespace Gated

/-- The gate and its history. -/
structure Sound (s : Gated) : Prop where
  asked : ∀ target limiter, s.gate.get target = some limiter → limiter.Asked s.now
  paced : ∀ target,
    Pace.Paced fetchRate fetchBurst (s.spent target) (s.gate.level target s.now) s.now
  /-- A bucket was visited by a call. -/
  visited : ∀ target limiter, s.gate.get target = some limiter →
    ∃ entry ∈ s.log, entry.1.target = target ∧ entry.1.asked = limiter.last

theorem sound_start (now : ℚ) : (start now).Sound where
  asked target limiter stored := by cases (Table.get_empty target).symm.trans stored
  paced target := by
    have missing : (start now).gate.level target now = fetchBurst := by
      rw [FetchGate.level, start, Table.get_empty]
    rw [show (start now).now = now from rfl, missing]
    exact Pace.Paced.start rate_nonneg (by decide) now
  visited target limiter stored := by cases (Table.get_empty target).symm.trans stored

variable {s : Gated} {fetch : Fetch}

/-- Pruning takes no bucket: each has a token missing. -/
theorem get_pruned (sound : s.Sound) (target : String) :
    s.gate.pruned.get target = s.gate.get target := by
  rw [FetchGate.pruned, Table.get_eraseWhere]
  cases stored : s.gate.get target with
  | none => simp
  | some limiter => simp [(sound.asked target limiter stored).tokens_lt]

/-- The bucket that is asked. -/
def limiter (s : Gated) (fetch : Fetch) : RateLimiter :=
  (s.gate.get fetch.target).getD (.new fetchRate fetchBurst fetch.created)

theorem fetchAllowed_get (sound : s.Sound) (target : String) :
    (fetchAllowed s.gate fetch).2.get target =
      if target = fetch.target then some ((s.limiter fetch).allow fetch.asked).2
      else s.gate.get target := by
  unfold fetchAllowed limiter
  dsimp only
  split
  · rw [Table.get_put, get_pruned sound, get_pruned sound]
  · rw [Table.get_put]

theorem fetchAllowed_fst (sound : s.Sound) :
    (fetchAllowed s.gate fetch).1 = ((s.limiter fetch).allow fetch.asked).1 := by
  unfold fetchAllowed limiter
  dsimp only
  split
  · rw [get_pruned sound]
  · rfl

/-- The bucket that is asked, old or new. -/
theorem limiter_facts (sound : s.Sound) (onTime : OnTime fetch s) :
    (s.limiter fetch).rate = fetchRate ∧ (s.limiter fetch).burst = fetchBurst ∧
      (s.limiter fetch).last ≤ fetch.asked ∧ 0 ≤ (s.limiter fetch).level fetch.asked ∧
      (s.limiter fetch).level fetch.asked ≤
        s.gate.level fetch.target s.now + (fetch.asked - s.now) * fetchRate := by
  have later : s.now ≤ fetch.asked := le_trans onTime.1 onTime.2
  unfold limiter FetchGate.level
  cases stored : s.gate.get fetch.target with
  | none =>
      have full : (RateLimiter.new fetchRate fetchBurst fetch.created).level fetch.asked =
          fetchBurst := Pace.level_burst rate_nonneg (sub_nonneg.mpr onTime.2)
      have gain : 0 ≤ (fetch.asked - s.now) * fetchRate :=
        mul_nonneg (sub_nonneg.mpr later) rate_nonneg
      refine ⟨rfl, rfl, onTime.2, ?_, ?_⟩
      · show 0 ≤ (RateLimiter.new fetchRate fetchBurst fetch.created).level fetch.asked
        rw [full]
        decide
      · show (RateLimiter.new fetchRate fetchBurst fetch.created).level fetch.asked ≤ _
        rw [full]
        exact le_add_of_nonneg_right gain
  | some limiter =>
      have asked := sound.asked _ _ stored
      have now : limiter.Asked fetch.asked := { asked with last_le := le_trans asked.last_le later }
      exact ⟨asked.rate, asked.burst, now.last_le, RateLimiter.level_nonneg now,
        RateLimiter.level_later asked later⟩

/-! ### A step -/

theorem get_step (sound : s.Sound) (target : String) : (s.step fetch).gate.get target =
    if target = fetch.target then some ((s.limiter fetch).allow fetch.asked).2
      else s.gate.get target :=
  fetchAllowed_get sound target

theorem spent_step (target : String) : (s.step fetch).spent target =
    s.spent target ++ if (fetchAllowed s.gate fetch).1 = true ∧ fetch.target = target then
      [fetch.asked] else [] := by
  unfold spent step
  rw [List.filter_append, List.map_append]
  congr 1
  by_cases mine : (fetchAllowed s.gate fetch).1 = true ∧ fetch.target = target
  · rw [if_pos mine]
    simp [mine.1, mine.2]
  · rw [if_neg mine, List.filter_singleton, cond_eq_ite, if_neg (by simpa using mine), List.map_nil]

/-- **A call** keeps every target within its budget. -/
theorem paced_step (sound : s.Sound) (onTime : OnTime fetch s) (target : String) :
    Pace.Paced fetchRate fetchBurst ((s.step fetch).spent target)
      ((s.step fetch).gate.level target fetch.asked) fetch.asked := by
  have later : s.now ≤ fetch.asked := le_trans onTime.1 onTime.2
  obtain ⟨rate, burst, past, holds, gained⟩ := limiter_facts sound onTime
  rw [spent_step, FetchGate.level, get_step sound]
  by_cases mine : target = fetch.target
  · subst mine
    have capped : (s.limiter fetch).level fetch.asked ≤ fetchBurst := by
      rw [← burst]
      exact Pace.level_le_burst
    have waited := (sound.paced fetch.target).wait rate_nonneg later capped gained
    have left : ((s.limiter fetch).allow fetch.asked).2.level fetch.asked =
        (s.limiter fetch).level fetch.asked -
          if 1 ≤ (s.limiter fetch).level fetch.asked then 1 else 0 := by
      have asked := RateLimiter.asked_allow rate burst holds past
      rw [RateLimiter.level, RateLimiter.allow_eq past] at *
      exact (congrArg _ (sub_self _)).trans (Pace.level_zero (le_of_lt asked.tokens_lt))
    rw [if_pos rfl, fetchAllowed_fst sound]
    dsimp only
    rw [left, RateLimiter.allow_eq past]
    by_cases enough : 1 ≤ (s.limiter fetch).level fetch.asked
    · rw [if_pos enough, if_pos ⟨decide_eq_true enough, rfl⟩]
      exact waited.spend rate_nonneg enough
    · rw [if_neg enough, if_neg fun allowed => enough (of_decide_eq_true allowed.1), sub_zero,
        List.append_nil]
      exact waited
  · rw [if_neg mine, if_neg fun both => mine both.2.symm, List.append_nil]
    refine (sound.paced target).wait rate_nonneg later ?_ ?_
    · cases stored : s.gate.get target with
      | none => exact le_refl _
      | some limiter =>
          rw [← (sound.asked target limiter stored).burst]
          exact Pace.level_le_burst
    · rw [FetchGate.level]
      cases stored : s.gate.get target with
      | none => exact le_add_of_nonneg_right (mul_nonneg (sub_nonneg.mpr later) rate_nonneg)
      | some limiter =>
          exact RateLimiter.level_later (sound.asked target limiter stored) later

/-- **The invariant** of every run. -/
theorem sound_step (sound : s.Sound) (onTime : OnTime fetch s) : (s.step fetch).Sound where
  asked target limiter stored := by
    obtain ⟨rate, burst, past, holds, _⟩ := limiter_facts sound onTime
    rw [get_step sound] at stored
    split at stored
    · obtain rfl := Option.some.inj stored
      exact RateLimiter.asked_allow rate burst holds past
    · have asked := sound.asked target limiter stored
      exact { asked with last_le := le_trans asked.last_le (le_trans onTime.1 onTime.2) }
  paced := paced_step sound onTime
  visited target limiter stored := by
    rw [get_step sound] at stored
    split at stored
    · next same =>
      obtain rfl := Option.some.inj stored
      refine ⟨(fetch, _), List.mem_append_right _ (List.mem_singleton_self _), same.symm, ?_⟩
      rw [RateLimiter.allow_eq (limiter_facts sound onTime).2.2.1]
    · obtain ⟨entry, member, facts⟩ := sound.visited target limiter stored
      exact ⟨entry, List.mem_append_left _ member, facts⟩

end Gated

variable {s : Gated} {fetch : Fetch} {fetches : List Fetch} {began : ℚ}

theorem sound_run (onTime : Steps.Each step OnTime fetches (start began)) :
    (Steps.run step fetches (start began)).Sound :=
  onTime.run (fun _ _ sound onTime => sound_step sound onTime) (sound_start began)

/-- **The rate of fetches.** In every window a target is fetched at most as often as the burst and the
rate allow, and no bucket has less than nothing or more than its burst. -/
theorem fetch_rate_bound (onTime : Steps.Each step OnTime fetches (start began)) :
    (∀ target opened closed, opened ≤ closed →
      (((Steps.run step fetches (start began)).spent target).countP
          (fun t => opened ≤ t ∧ t ≤ closed) : ℚ) ≤
        fetchBurst + fetchRate * (closed - opened)) ∧
      ∀ target limiter, (Steps.run step fetches (start began)).gate.get target = some limiter →
        0 ≤ limiter.tokens ∧ limiter.tokens ≤ limiter.burst := by
  have sound := sound_run onTime
  refine ⟨fun target => (sound.paced target).window, fun target limiter stored => ?_⟩
  have asked := sound.asked target limiter stored
  exact ⟨asked.tokens_nonneg, le_of_lt asked.tokens_lt⟩

/-- Three fetches of one user in two seconds. -/
theorem bob_fetched : (((Steps.run step [⟨"bob", 0, 0⟩, ⟨"bob", 1, 1⟩, ⟨"bob", 2, 2⟩]
    (start 0)).spent "bob").countP (fun t => 0 ≤ t ∧ t ≤ 2) : ℚ) ≤ fetchBurst + fetchRate * (2 - 0) :=
  (fetch_rate_bound (by simp [Steps.Each, OnTime, start, step])).1 "bob" 0 2 (by decide)

/-! ### The size of the map -/

/-- After a call above the cap there is the target, and what is not full; and the map is no larger
than the cap allows. -/
def StaysBounded (fetch : Fetch) (s : Gated) : Prop :=
  (fetchGateCap < s.gate.len → ∀ target limiter, (s.step fetch).gate.get target = some limiter →
    target = fetch.target ∨ limiter.level fetch.asked < limiter.burst) ∧
  (s.step fetch).gate.len ≤ fetchGateCap + 1 + (s.step fetch).recent.length

/-- Above the cap, no other bucket has had the time to fill up. -/
def AllBusy (fetch : Fetch) (s : Gated) : Prop :=
  fetchGateCap < s.gate.len → ∀ target limiter, s.gate.get target = some limiter →
    target = fetch.target ∨ limiter.level fetch.asked < limiter.burst

theorem mem_keys {gate : FetchGate} {target : String} :
    target ∈ gate.keys ↔ ∃ limiter, gate.get target = some limiter := by
  rw [← AList.mem_keys, ← AList.lookup_isSome, Option.isSome_iff_exists]
  rfl

/-- A map with no keys but those of a list is no longer than the list. -/
theorem len_le {gate : FetchGate} {targets : List String}
    (only : ∀ target limiter, gate.get target = some limiter → target ∈ targets) :
    gate.len ≤ targets.length :=
  (gate.nodupKeys.subperm fun target member => by
    obtain ⟨limiter, stored⟩ := mem_keys.mp member
    exact only target limiter stored).length_le

theorem len_step_le (sound : s.Sound) : (s.step fetch).gate.len ≤ s.gate.len + 1 := by
  show (s.step fetch).gate.len ≤ (fetch.target :: s.gate.keys).length
  refine len_le fun target limiter stored => ?_
  rw [get_step sound] at stored
  split at stored
  · next same => exact same ▸ List.mem_cons_self
  · exact List.mem_cons_of_mem _ (mem_keys.mpr ⟨limiter, stored⟩)

/-- A bucket that is not full was visited lately. -/
theorem mem_recent (sound : s.Sound) {target : String} {limiter : RateLimiter}
    (stored : s.gate.get target = some limiter) (notFull : limiter.level s.now < limiter.burst) :
    target ∈ s.recent := by
  have asked := sound.asked target limiter stored
  obtain ⟨entry, member, named, last⟩ := sound.visited target limiter stored
  have flows : 0 < limiter.rate := by rw [asked.rate]; decide
  have soon := Pace.elapsed_lt_of_not_full flows asked.tokens_nonneg notFull
  rw [asked.rate, asked.burst, ← last] at soon
  exact List.mem_dedup.mpr (List.mem_map.mpr
    ⟨entry, List.mem_filter.mpr ⟨member, decide_eq_true soon⟩, named⟩)

theorem staysBounded_iff (sound : s.Sound) (onTime : OnTime fetch s) :
    StaysBounded fetch s ↔ AllBusy fetch s := by
  have kept : ∀ target limiter, s.gate.get target = some limiter → target ≠ fetch.target →
      (s.step fetch).gate.get target = some limiter := by
    intro target limiter stored other
    rw [get_step sound, if_neg other, stored]
  constructor
  · intro bounded above target limiter stored
    by_cases mine : target = fetch.target
    · exact .inl mine
    · exact bounded.1 above target limiter (kept target limiter stored mine)
  · intro busy
    have rest : fetchGateCap < s.gate.len → ∀ target limiter,
        (s.step fetch).gate.get target = some limiter →
          target = fetch.target ∨ limiter.level fetch.asked < limiter.burst := by
      intro above target limiter stored
      by_cases mine : target = fetch.target
      · exact .inl mine
      · rw [get_step sound, if_neg mine] at stored
        exact busy above target limiter stored
    refine ⟨rest, ?_⟩
    by_cases above : fetchGateCap < s.gate.len
    · have few : (s.step fetch).gate.len ≤ (fetch.target :: (s.step fetch).recent).length := by
        refine len_le fun target limiter stored => ?_
        rcases rest above target limiter stored with rfl | notFull
        · exact List.mem_cons_self
        · exact List.mem_cons_of_mem _ (mem_recent (sound_step sound onTime) stored notFull)
      rw [List.length_cons] at few
      omega
    · have one : (s.step fetch).gate.len ≤ s.gate.len + 1 := len_step_le sound
      omega

/-- Every name that was asked for has a bucket, whatever came since. -/
theorem stored_run (sound : s.Sound) (onTime : Steps.Each step OnTime fetches s) {target : String}
    (asked : (∃ limiter, s.gate.get target = some limiter) ∨ ∃ fetch ∈ fetches, fetch.target = target) :
    ∃ limiter, (Steps.run step fetches s).gate.get target = some limiter := by
  induction fetches generalizing s with
  | nil => exact asked.resolve_right fun ⟨_, member, _⟩ => absurd member List.not_mem_nil
  | cons fetch rest ih =>
      refine ih (sound_step sound onTime.1) onTime.2 ?_
      rw [get_step sound]
      by_cases mine : target = fetch.target
      · exact .inl ⟨_, if_pos mine⟩
      · rw [if_neg mine]
        refine asked.imp_right ?_
        rintro ⟨other, member, named⟩
        rcases List.mem_cons.mp member with rfl | later
        · exact absurd named.symm mine
        · exact ⟨other, later, named⟩

theorem logged_run {entry : Fetch × Bool} (logged : entry ∈ (Steps.run step fetches s).log) :
    entry ∈ s.log ∨ entry.1 ∈ fetches := by
  induction fetches generalizing s with
  | nil => exact .inl logged
  | cons fetch rest ih =>
      rcases ih logged with old | later
      · rcases List.mem_append.mp old with before | now
        · exact .inl before
        · exact .inr (by rw [List.mem_singleton.mp now]; exact List.mem_cons_self)
      · exact .inr (List.mem_cons_of_mem _ later)

/-- **The size of the map**, in every run: it stays bounded as long as, above the cap, every bucket
but the one that is asked is in use. -/
theorem gate_bounded_iff (onTime : Steps.Each step OnTime fetches (start began)) :
    Steps.Each step StaysBounded fetches (start began) ↔
      Steps.Each step AllBusy fetches (start began) :=
  Steps.each_congr (fun _ _ sound onTime => sound_step sound onTime)
    (fun _ _ sound onTime => staysBounded_iff sound onTime) onTime (sound_start began)

/-- The same three fetches of one user. -/
theorem bob_bounded : Steps.Each step StaysBounded [⟨"bob", 0, 0⟩, ⟨"bob", 1, 1⟩, ⟨"bob", 2, 2⟩]
    (start 0) ↔ Steps.Each step AllBusy [⟨"bob", 0, 0⟩, ⟨"bob", 1, 1⟩, ⟨"bob", 2, 2⟩] (start 0) :=
  gate_bounded_iff (by simp [Steps.Each, OnTime, start, step])

/-- As many names, asked for at once. -/
def names (n : Nat) : List Fetch :=
  (List.range n).map fun i => ⟨String.ofList (List.replicate i 'a'), 0, 0⟩

theorem names_now {n : Nat} {fetch : Fetch} (member : fetch ∈ names n) :
    fetch.created = 0 ∧ fetch.asked = 0 := by
  obtain ⟨i, _, rfl⟩ := List.mem_map.mp member
  exact ⟨rfl, rfl⟩

/-- Calls that are all made at time zero. -/
theorem onTime_zero (zero : ∀ fetch ∈ fetches, fetch.created = 0 ∧ fetch.asked = 0)
    (now : s.now = 0) :
    Steps.Each step OnTime fetches s ∧ (Steps.run step fetches s).now = 0 := by
  induction fetches generalizing s with
  | nil => exact ⟨trivial, now⟩
  | cons fetch rest ih =>
      obtain ⟨created, asked⟩ := zero fetch List.mem_cons_self
      obtain ⟨later, ends⟩ := ih (s := s.step fetch)
        (fun other member => zero other (List.mem_cons_of_mem _ member)) asked
      exact ⟨⟨⟨by rw [now, created], by rw [created, asked]⟩, later⟩, ends⟩

theorem names_onTime (n : Nat) : Steps.Each step OnTime (names n) (start 0) ∧
    (Steps.run step (names n) (start 0)).now = 0 :=
  onTime_zero (fun _ member => names_now member) rfl

theorem names_len (n : Nat) : n ≤ (Steps.run step (names n) (start 0)).gate.len := by
  have distinct : ((names n).map Fetch.target).Nodup := by
    rw [names, List.map_map]
    refine List.Nodup.map (fun i j same => ?_) List.nodup_range
    have lists := congrArg String.toList same
    simp only [Function.comp_apply, String.toList_ofList] at lists
    simpa using congrArg List.length lists
  have held : ∀ target ∈ (names n).map Fetch.target,
      target ∈ (Steps.run step (names n) (start 0)).gate.keys := by
    intro target member
    obtain ⟨fetch, asked, rfl⟩ := List.mem_map.mp member
    exact mem_keys.mpr (stored_run (sound_start 0) (names_onTime n).1 (.inr ⟨fetch, asked, rfl⟩))
  have few := (distinct.subperm held).length_le
  rwa [List.length_map, names, List.length_map, List.length_range] at few

/-- A call for one more name, long after. -/
def late : Fetch := ⟨"b", 100, 100⟩

/-- A bucket that was left at time zero is full by then. -/
theorem idle_full (sound : s.Sound) (now : s.now = 0) {target : String} {limiter : RateLimiter}
    (stored : s.gate.get target = some limiter) : limiter.level late.asked = limiter.burst := by
  have asked := sound.asked target limiter stored
  have past := asked.last_le
  have some := asked.tokens_nonneg
  have long : (400 : ℚ) ≤ (100 - limiter.last) * 4 := by linarith
  refine min_eq_right ?_
  rw [asked.burst, asked.rate]
  show (30 : ℚ) ≤ limiter.tokens + (100 - limiter.last) * 4
  linarith

theorem late_unbounded (sound : s.Sound) (now : s.now = 0) (early : ∀ entry ∈ s.log,
    entry.1.asked = 0) {n : Nat} (long : n ≤ s.gate.len) (above : fetchGateCap + 2 < n)
    (other : ∃ target limiter, s.gate.get target = some limiter ∧ target ≠ late.target) :
    ¬ StaysBounded late s ∧
      fetchGateCap + 1 + (s.step late).recent.length < (s.step late).gate.len := by
  constructor
  · intro bounded
    obtain ⟨target, limiter, stored, named⟩ := other
    have kept : (s.step late).gate.get target = some limiter := by
      rw [get_step sound, if_neg named, stored]
    rcases bounded.1 (by omega) target limiter kept with same | notFull
    · exact named same
    · exact absurd (idle_full sound now stored) (ne_of_lt notFull)
  · have lone : (s.step late).recent.length ≤ 1 := by
      suffices only : (s.step late).recent ⊆ [late.target] from
        ((List.nodup_dedup _).subperm only).length_le
      intro target member
      obtain ⟨entry, recent, rfl⟩ := List.mem_map.mp (List.mem_dedup.mp member)
      obtain ⟨logged, soon⟩ := List.mem_filter.mp recent
      rcases List.mem_append.mp logged with old | new
      · have zero := early entry old
        rw [zero] at soon
        exact absurd (of_decide_eq_true soon : (100 : ℚ) - 0 < fetchBurst / fetchRate) (by
          norm_num [fetchBurst, fetchRate])
      · rw [List.mem_singleton.mp new]
        exact List.mem_singleton_self _
    have all : s.gate.len ≤ (s.step late).gate.len := by
      refine len_le fun target limiter stored => mem_keys.mpr ?_
      rw [get_step sound]
      by_cases mine : target = late.target
      · exact ⟨_, if_pos mine⟩
      · exact ⟨limiter, (if_neg mine).trans stored⟩
    omega

/-- **Idle buckets stay.** Many names are asked for, and one more long after: all buckets are full by
then, and all are kept. -/
theorem idle_kept {n : Nat} (above : fetchGateCap + 2 < n) :
    Steps.Each step OnTime (names n ++ [late]) (start 0) ∧
    ¬ Steps.Each step StaysBounded (names n ++ [late]) (start 0) ∧
    fetchGateCap + 1 + (Steps.run step (names n ++ [late]) (start 0)).recent.length <
      (Steps.run step (names n ++ [late]) (start 0)).gate.len := by
  obtain ⟨early, now⟩ := names_onTime n
  have other : ∃ target limiter,
      (Steps.run step (names n) (start 0)).gate.get target = some limiter ∧ target ≠ late.target := by
    have first : (⟨String.ofList (List.replicate 0 'a'), 0, 0⟩ : Fetch) ∈ names n :=
      List.mem_map.mpr ⟨0, List.mem_range.mpr (by omega), rfl⟩
    obtain ⟨limiter, stored⟩ := stored_run (sound_start 0) early (.inr ⟨_, first, rfl⟩)
    exact ⟨_, limiter, stored, by decide⟩
  have zero : ∀ entry ∈ (Steps.run step (names n) (start 0)).log, entry.1.asked = 0 := by
    intro entry logged
    exact (names_now ((logged_run logged).resolve_left List.not_mem_nil)).2
  obtain ⟨unbounded, longer⟩ :=
    late_unbounded (sound_run early) now zero (names_len n) above other
  refine ⟨Steps.each_append.mpr ⟨early, ⟨?_, by decide⟩, trivial⟩, fun bounded => ?_, ?_⟩
  · rw [now]
    decide
  · exact unbounded (Steps.each_append.mp bounded).2.1
  · rw [Steps.run, List.foldl_append]
    exact longer

/-- Sixty thousand names. -/
theorem cycled_names : ∃ fetches, Steps.Each step OnTime fetches (start 0) ∧
    ¬ Steps.Each step StaysBounded fetches (start 0) ∧
    fetchGateCap + 1 + (Steps.run step fetches (start 0)).recent.length <
      (Steps.run step fetches (start 0)).gate.len :=
  ⟨names 60000 ++ [late], idle_kept (by decide)⟩

end Cherm.Relay
