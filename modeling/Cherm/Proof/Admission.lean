/-
**What the relay's door holds.**

* `admitIp_full`, `admitIp_room`, `dropIpGuard_held`: the counts of the addresses are the numbers of
  their guards.
* `Accounts`: they are, no address has more than its limit, and every permit is there or held.
* `step_makes`: what a step can do.
* `makes_accounts`, `door_accounts`: one step keeps the accounts, so every interleaving does.
* `refusals`: a connection is refused exactly if as many are open as may be.
* `door_drains`: once the relay drains, only a connection that was past the check is admitted, and
  the clients are told once.
-/

import Cherm.Lib.Tally
import Cherm.Relay.Front

set_option linter.unusedSectionVars false

namespace Cherm.Relay

variable {Ip : Type} [DecidableEq Ip]

/-! ### The counts -/

section

variable {map : Table Ip Nat} {holders : List Ip} {ip : Ip}

theorem admitIp_full (counts : Counts map holders)
    (full : maxConnectionsPerIp ≤ holders.count ip) :
    ∃ map', admitIp (some map) ip = (false, some map') ∧ Counts map' holders := by
  have held : holders.count ip ≠ 0 := fun zero => by
    rw [zero] at full
    exact absurd full (by decide)
  refine ⟨map.put ip (holders.count ip), ?_, counts.put_same held⟩
  rw [admitIp, counts.getD_eq, if_pos full, if_neg held]

theorem admitIp_room (counts : Counts map holders)
    (room : holders.count ip < maxConnectionsPerIp) :
    ∃ map', admitIp (some map) ip = (true, some map') ∧ Counts map' (ip :: holders) := by
  refine ⟨(map.put ip (holders.count ip)).put ip (holders.count ip + 1), ?_,
    counts.gain.of_get fun other => ?_⟩
  · rw [admitIp, counts.getD_eq, if_neg (Nat.not_le.mpr room)]
  · simp only [Table.get_put]
    split
    · rfl
    · rfl

/-- The count of a guard's address is not zero, so dropping the guard does not panic. -/
theorem dropIpGuard_held (counts : Counts map (ip :: holders)) :
    ∃ map', dropIpGuard (some map) ip = some map' ∧ Counts map' holders := by
  obtain ⟨count, lost⟩ := counts.lose
  refine ⟨if holders.count ip = 0 then (map.put ip (holders.count ip)).erase ip
    else map.put ip (holders.count ip), ?_, lost.of_get fun other => ?_⟩
  · rw [dropIpGuard, count]
  · split
    · rw [Table.get_erase, Table.get_erase, Table.get_put]
      split
      · rfl
      · rfl
    · rfl

end

/-! ### Who holds what -/

namespace Front

/-- The addresses of the connections that are served. -/
def serving (tasks : List (Ip × Phase)) : List Ip :=
  (tasks.filter (·.2 = .serving)).map (·.1)

def Acceptor.guards : Acceptor Ip → List Ip
  | .guarded ip => [ip]
  | _ => []

def Acceptor.permits : Acceptor Ip → Nat
  | .permitted _ | .refused _ | .guarded _ => 1
  | _ => 0

/-- Those who hold a slot of their address. -/
def guards (front : Front Ip) : List Ip := Acceptor.guards front.acceptor ++ serving front.tasks

/-- How many hold a permit. -/
def held (front : Front Ip) : Nat := front.tasks.length + Acceptor.permits front.acceptor

/-- The counts are those of the guards, no address has more than its limit, and every permit is
there or held. -/
structure Accounts (front : Front Ip) : Prop where
  counted : ∃ map, front.counts = some map ∧ Counts map front.guards
  capped : ∀ ip, front.guards.count ip ≤ maxConnectionsPerIp
  permits : front.permits + front.held = maxConnections

/-! ### The tasks -/

section

variable {tasks : List (Ip × Phase)} {i : Nat} {ip : Ip}

theorem split_at {α : Type} {l : List α} {i : Nat} {x : α} (is : l[i]? = some x) :
    ∃ before after, l = before ++ x :: after ∧ before.length = i := by
  obtain ⟨inside, rfl⟩ := List.getElem?_eq_some_iff.mp is
  refine ⟨l.take i, l.drop (i + 1), ?_, List.length_take_of_le (Nat.le_of_lt inside)⟩
  rw [List.getElem_cons_drop, List.take_append_drop]

/-- A connection that has ended. -/
theorem serving_ends (is : tasks[i]? = some (ip, .serving)) :
    (serving tasks).Perm (ip :: serving (tasks.set i (ip, .leaving))) := by
  obtain ⟨before, after, rfl, rfl⟩ := split_at is
  simp [serving]

/-- A task that has ended. -/
theorem serving_release (is : tasks[i]? = some (ip, .leaving)) :
    serving (tasks.eraseIdx i) = serving tasks := by
  obtain ⟨before, after, rfl, rfl⟩ := split_at is
  simp [serving, List.eraseIdx_append_of_length_le]

theorem serving_spawn : serving (tasks ++ [(ip, .serving)]) = serving tasks ++ [ip] := by
  simp [serving]

end

/-! ### One step -/

/-- What a step can do. -/
inductive Makes (front : Front Ip) : Front Ip → Prop where
  | stays : Makes front front
  | taken (ip : Ip) (waiting : front.acceptor = .waiting) :
      Makes front { front with acceptor := .taken ip }
  | proceeds : Makes front front.proceed
  | ends {i : Nat} {ip : Ip} (is : front.tasks[i]? = some (ip, .serving)) :
      Makes front { front with
        tasks := front.tasks.set i (ip, .leaving), counts := dropIpGuard front.counts ip }
  | releases {i : Nat} {ip : Ip} (is : front.tasks[i]? = some (ip, .leaving)) :
      Makes front { front with tasks := front.tasks.eraseIdx i, permits := front.permits + 1 }
  | drains (idle : front.handler = .idle) :
      Makes front { front with draining := true, handler := .draining }
  | tells (is : front.handler = .draining) :
      Makes front { front with handler := .told, notices := front.notices + 1 }
  | exits (is : front.handler = .told) : Makes front { front with handler := .exited }

section

variable {front front' : Front Ip} {ip : Ip}

theorem step_makes (move : Move Ip) (front : Front Ip) : Makes front (step move front) := by
  unfold step
  split
  · exact .stays
  cases move with
  | connection ip =>
      unfold make
      dsimp only
      split
      · next waiting => exact .taken ip waiting
      · exact .stays
  | acceptError => exact .stays
  | proceed => exact .proceeds
  | ends i =>
      unfold make
      dsimp only
      split
      · next ip is => exact .ends is
      · exact .stays
  | release i =>
      unfold make
      dsimp only
      split
      · next ip is => exact .releases is
      · exact .stays
  | signal =>
      unfold make
      dsimp only
      split
      · next first => exact .drains first.1
      · exact .stays
  | handler =>
      unfold make
      dsimp only
      split
      · next is => exact .tells is
      · next is => exact .exits is
      · exact .stays

theorem Accounts.same (accounts : Accounts front) (counts : front'.counts = front.counts)
    (guards : front'.guards.Perm front.guards)
    (permits : front'.permits + front'.held = front.permits + front.held) : Accounts front' := by
  obtain ⟨map, is, counted⟩ := accounts.counted
  refine ⟨⟨map, counts.trans is, counted.perm guards⟩, fun ip => ?_,
    permits.trans accounts.permits⟩
  rw [guards.count_eq]
  exact accounts.capped ip

/-- **A connection is admitted** exactly if its address has room. -/
theorem admit_accounts (accounts : Accounts front) (is : front.acceptor = .permitted ip) :
    Accounts front.proceed ∧ (front.proceed.acceptor = .refused ip ↔
      (serving front.tasks).count ip = maxConnectionsPerIp) := by
  obtain ⟨map, counts, counted⟩ := accounts.counted
  have guards : front.guards = serving front.tasks := by rw [Front.guards, is]; rfl
  have permits := accounts.permits
  rw [held, is] at permits
  rw [guards] at counted
  have capped := accounts.capped
  rw [guards] at capped
  unfold proceed
  rw [is, counts]
  dsimp only
  by_cases room : (serving front.tasks).count ip < maxConnectionsPerIp
  · obtain ⟨map', admitted, counted⟩ := admitIp_room counted room
    rw [admitted]
    refine ⟨⟨⟨map', rfl, counted⟩, fun other => ?_, permits⟩, ?_⟩
    · show (ip :: serving front.tasks).count other ≤ _
      by_cases same : other = ip
      · subst same
        rw [List.count_cons_self]
        exact room
      · rw [List.count_cons_of_ne (Ne.symm same)]
        exact capped other
    · simp [Nat.ne_of_lt room]
  · obtain ⟨map', refused, counted⟩ := admitIp_full counted (Nat.not_lt.mp room)
    rw [refused]
    refine ⟨⟨⟨map', rfl, counted⟩, capped, permits⟩, ?_⟩
    simp [Nat.le_antisymm (capped ip) (Nat.not_lt.mp room)]

/-- The next statement of the accepting task. -/
theorem proceed_accounts (accounts : Accounts front) : Accounts front.proceed := by
  cases is : front.acceptor with
  | permitted ip => exact (admit_accounts accounts is).1
  | waiting =>
      unfold proceed
      rw [is]
      exact accounts
  | taken ip =>
      unfold proceed
      rw [is]
      dsimp only
      split
      · exact accounts.same rfl (by rw [guards, guards, is]; rfl) (by rw [held, held, is]; rfl)
      · exact accounts.same rfl (by rw [guards, guards, is]; rfl) (by rw [held, held, is]; rfl)
  | passed ip =>
      unfold proceed
      rw [is]
      dsimp only
      split
      · exact accounts.same rfl (by rw [guards, guards, is]; rfl) (by rw [held, held, is]; rfl)
      · next some =>
        refine accounts.same rfl (by rw [guards, guards, is]; rfl) ?_
        rw [held, held, is]
        simp only [Acceptor.permits]
        omega
  | refused ip =>
      unfold proceed
      rw [is]
      refine accounts.same rfl (by rw [guards, guards, is]; rfl) ?_
      rw [held, held, is]
      simp only [Acceptor.permits]
      omega
  | guarded ip =>
      unfold proceed
      rw [is]
      refine accounts.same rfl ?_ ?_
      · rw [guards, guards, is]
        show (serving (front.tasks ++ [(ip, .serving)])).Perm (ip :: serving front.tasks)
        rw [serving_spawn]
        exact List.perm_append_comm
      · rw [held, held, is]
        simp only [Acceptor.permits, List.length_append, List.length_singleton]

/-- A connection ends, and its address has a slot again. -/
theorem ends_accounts {i : Nat} (accounts : Accounts front)
    (is : front.tasks[i]? = some (ip, .serving)) :
    Accounts { front with
      tasks := front.tasks.set i (ip, .leaving), counts := dropIpGuard front.counts ip } := by
  obtain ⟨map, counts, counted⟩ := accounts.counted
  have guards : front.guards.Perm
      (ip :: (Acceptor.guards front.acceptor ++ serving (front.tasks.set i (ip, .leaving)))) :=
    ((serving_ends is).append_left _).trans List.perm_middle
  obtain ⟨map', dropped, counted⟩ := dropIpGuard_held (counted.perm guards.symm)
  refine ⟨⟨map', (congrArg (dropIpGuard · ip) counts).trans dropped, counted⟩, fun other => ?_, ?_⟩
  · refine le_trans ?_ (accounts.capped other)
    rw [guards.count_eq]
    exact List.count_le_count_cons
  · have permits := accounts.permits
    rw [held] at permits ⊢
    rwa [List.length_set]

/-- **One step.** -/
theorem makes_accounts (makes : Makes front front') (accounts : Accounts front) :
    Accounts front' := by
  cases makes with
  | stays => exact accounts
  | taken ip waiting =>
      exact accounts.same rfl (by rw [guards, guards, waiting]; rfl)
        (by rw [held, held, waiting]; rfl)
  | proceeds => exact proceed_accounts accounts
  | ends is => exact ends_accounts accounts is
  | releases is =>
      obtain ⟨inside, -⟩ := List.getElem?_eq_some_iff.mp is
      refine accounts.same rfl ?_ ?_
      · rw [guards, guards, serving_release is]
      · rw [held, held, List.length_eraseIdx_of_lt inside]
        dsimp only
        omega
  | drains | tells | exits => exact accounts.same rfl (.refl _) rfl

theorem initial_accounts : Accounts (.initial : Front Ip) :=
  ⟨⟨∅, rfl, .empty⟩, fun _ => Nat.zero_le _, rfl⟩

/-- **In every interleaving** the counts are the numbers of guards and never fail, no address has
more than its limit, and every permit is there or held. -/
theorem door_accounts (moves : List (Move Ip)) : Accounts (Steps.run step moves .initial) :=
  Steps.run_keeps (fun move front => makes_accounts (step_makes move front)) initial_accounts

/-- **A connection is refused for want of room** exactly if as many are open as may be. -/
theorem refusals (moves : List (Move Ip)) (ip : Ip) :
    ((Steps.run step moves .initial).acceptor = .passed ip →
      ((Steps.run step moves .initial).proceed.acceptor = .waiting ↔
        (Steps.run step moves .initial).tasks.length = maxConnections)) ∧
    ((Steps.run step moves .initial).acceptor = .permitted ip →
      ((Steps.run step moves .initial).proceed.acceptor = .refused ip ↔
        (serving (Steps.run step moves .initial).tasks).count ip = maxConnectionsPerIp)) := by
  have accounts := door_accounts moves
  refine ⟨fun is => ?_, fun is => (admit_accounts accounts is).2⟩
  have permits := accounts.permits
  rw [held, is] at permits
  unfold proceed
  rw [is]
  dsimp only
  split
  · next none =>
    rw [none, Nat.zero_add] at permits
    exact ⟨fun _ => permits, fun _ => rfl⟩
  · next some =>
    refine ⟨nofun, fun all => ?_⟩
    simp only [Acceptor.permits] at permits
    omega

/-! ### Draining -/

/-- The connection that is past the check for draining, and not admitted yet. -/
def ahead (front : Front Ip) : List Ip :=
  match front.acceptor with
  | .passed ip | .permitted ip | .guarded ip => [ip]
  | _ => []

/-- It drains, and the connection ahead is still ahead, or admitted, or refused. -/
structure Drains (past last : List Ip) (front : Front Ip) : Prop where
  draining : front.draining = true
  admits : front.served = past ∧ (front.ahead = last ∨ front.ahead = []) ∨
    front.served = past ++ last ∧ front.ahead = []

variable {past last : List Ip}

/-- Nobody is admitted, and nobody gets ahead. -/
theorem Drains.less (drains : Drains past last front) (draining : front'.draining = true)
    (served : front'.served = front.served)
    (ahead : front'.ahead = front.ahead ∨ front'.ahead = []) : Drains past last front' := by
  refine ⟨draining, ?_⟩
  rw [served]
  obtain same | none := ahead
  · rw [same]
    exact drains.admits
  · rw [none]
    exact drains.admits.imp (fun before => ⟨before.1, .inr rfl⟩) fun after => ⟨after.1, rfl⟩

theorem proceed_drains (drains : Drains past last front) : Drains past last front.proceed := by
  have draining := drains.draining
  cases is : front.acceptor with
  | waiting =>
      unfold proceed
      rw [is]
      exact drains
  | taken ip =>
      unfold proceed
      rw [is]
      dsimp only
      rw [if_pos draining]
      exact drains.less draining rfl (.inr rfl)
  | passed ip =>
      unfold proceed
      rw [is]
      dsimp only
      split
      · exact drains.less draining rfl (.inr rfl)
      · exact drains.less draining rfl (.inl (by rw [ahead, ahead, is]))
  | permitted ip =>
      unfold proceed
      rw [is]
      dsimp only
      cases (admitIp front.counts ip).1 with
      | true => exact drains.less draining rfl (.inl (by rw [ahead, ahead, is]; rfl))
      | false => exact drains.less draining rfl (.inr rfl)
  | refused ip =>
      unfold proceed
      rw [is]
      exact drains.less draining rfl (.inr rfl)
  | guarded ip =>
      have here : front.ahead = [ip] := by rw [ahead, is]
      unfold proceed
      rw [is]
      refine ⟨draining, .inr ⟨?_, rfl⟩⟩
      obtain ⟨before, same | none⟩ | ⟨-, none⟩ := drains.admits
      · rw [← same, here, ← before]
      · exact absurd (here.symm.trans none) (List.cons_ne_nil _ _)
      · exact absurd (here.symm.trans none) (List.cons_ne_nil _ _)

theorem makes_drains (makes : Makes front front') (drains : Drains past last front) :
    Drains past last front' := by
  have draining := drains.draining
  cases makes with
  | stays => exact drains
  | taken => exact drains.less draining rfl (.inr rfl)
  | proceeds => exact proceed_drains drains
  | drains => exact drains.less rfl rfl (.inl rfl)
  | ends | releases | tells | exits => exact drains.less draining rfl (.inl rfl)

/-- **Once the relay drains,** only the connection that was past the check may still be admitted. -/
theorem drain_admits (draining : front.draining = true) (moves : List (Move Ip)) :
    (Steps.run step moves front).served = front.served ∨
      (Steps.run step moves front).served = front.served ++ front.ahead := by
  have start : Drains front.served front.ahead front := ⟨draining, .inl ⟨rfl, .inl rfl⟩⟩
  have kept : Drains front.served front.ahead (Steps.run step moves front) :=
    Steps.run_keeps (fun move front => makes_drains (step_makes move front)) start
  exact kept.admits.imp And.left And.left

/-- The handler has come as far as the relay drains, and has told the clients once or not yet. -/
structure Heard (front : Front Ip) : Prop where
  draining : front.draining = true ↔ front.handler ≠ .idle
  notices : front.notices = if front.handler = .idle ∨ front.handler = .draining then 0 else 1

theorem Heard.same (heard : Heard front) (draining : front'.draining = front.draining)
    (handler : front'.handler = front.handler) (notices : front'.notices = front.notices) :
    Heard front' := by
  constructor
  · rw [draining, handler]
    exact heard.draining
  · rw [notices, handler]
    exact heard.notices

theorem proceed_heard (heard : Heard front) : Heard front.proceed := by
  unfold proceed
  split
  · exact heard
  · split
    · exact heard.same rfl rfl rfl
    · exact heard.same rfl rfl rfl
  · split
    · exact heard.same rfl rfl rfl
    · exact heard.same rfl rfl rfl
  · exact heard.same rfl rfl rfl
  · exact heard.same rfl rfl rfl
  · exact heard.same rfl rfl rfl

theorem makes_heard (makes : Makes front front') (heard : Heard front) : Heard front' := by
  have draining := heard.draining
  have notices := heard.notices
  cases makes with
  | stays => exact heard
  | proceeds => exact proceed_heard heard
  | taken | ends | releases => exact heard.same rfl rfl rfl
  | drains idle =>
      refine ⟨⟨fun _ => nofun, fun _ => rfl⟩, ?_⟩
      rw [notices, if_pos (.inl idle)]
      rfl
  | tells is =>
      rw [is] at draining notices
      exact ⟨⟨fun _ => nofun, fun _ => draining.mpr nofun⟩, by rw [notices]; rfl⟩
  | exits is =>
      rw [is] at draining notices
      exact ⟨⟨fun _ => nofun, fun _ => draining.mpr nofun⟩, by rw [notices]; rfl⟩

/-- **The door closes once.** In every run the clients are told at most once, and only when the relay
drains; from then on at most one connection is admitted, the one that was past the check. -/
theorem door_drains (moves later : List (Move Ip)) :
    (Steps.run step moves .initial : Front Ip).notices ≤ 1 ∧
    ((Steps.run step moves .initial : Front Ip).notices = 1 →
      (Steps.run step moves .initial : Front Ip).draining = true) ∧
    ((Steps.run step moves .initial : Front Ip).draining = true →
      (Steps.run step (moves ++ later) .initial).served =
          (Steps.run step moves .initial).served ∨
        ∃ ip, (Steps.run step moves .initial).ahead = [ip] ∧
          (Steps.run step (moves ++ later) .initial).served =
            (Steps.run step moves .initial).served ++ [ip]) := by
  have heard : Heard (Steps.run step moves .initial : Front Ip) :=
    Steps.run_keeps (fun move front => makes_heard (step_makes move front))
      ⟨⟨nofun, fun other => (other rfl).elim⟩, rfl⟩
  rw [Steps.run_append]
  generalize Steps.run step moves .initial = front at heard
  refine ⟨?_, fun told => heard.draining.mpr fun idle => ?_, fun draining => ?_⟩
  · rw [heard.notices]
    split
    · exact Nat.zero_le 1
    · exact le_rfl
  · rw [heard.notices, if_pos (.inl idle)] at told
    exact absurd told (by decide)
  · refine (drain_admits draining later).elim .inl fun admitted => ?_
    cases last : front.ahead with
    | nil => exact .inl (by rw [admitted, last, List.append_nil])
    | cons ip rest =>
        have one : rest = [] := by
          unfold ahead at last
          split at last
          · exact (List.cons.inj last).2.symm
          · exact (List.cons.inj last).2.symm
          · exact (List.cons.inj last).2.symm
          · cases last
        exact .inr ⟨ip, by rw [one], by rw [admitted, last, one]⟩

end

end Front

end Cherm.Relay
