/-
**One processor for each vault, as long as no connection is let go before its work is done.**

A connection has a processor, and the processor goes on as long as it can get frames: while the
reader runs, and then until the queue is empty. The engine opens a connection only where it has let
go of the one before. It lets go in four ways: it tears the link down, it finds the reader finished,
it removes the server, or a command ends with a connection that it has not stored, because the
handshake failed. In none of them it waits for the processor, and in the last one it may not even
stop the reader.

* `OneProcessor`: no two connections of one vault can still apply a frame.
* `tidy`: the limits within which it holds: whatever is let go has nothing left to do.
* `Orderly`: the invariant. Who can apply a frame is in hand or stored for its server.
* `one_processor` is the result; `Ideal.two_processors` shows what happens when a handshake times
  out.
-/

import Cherm.Client.EngineRuns
import Cherm.Ideal

namespace Cherm

open Crates

theorem abort_canApply (link : ServerLink) (can : link.abort.CanApply) : link.CanApply := by
  unfold ServerLink.abort at can
  split at can
  · next running => exact .inr (.inr running)
  · exact can

theorem abort_vault (link : ServerLink) : link.abort.vault = link.vault := by
  unfold ServerLink.abort
  split <;> rfl

theorem Drained.cannot {link : ServerLink} (idle : link.busy = false ∧ link.queue = [])
    (stopped : link.reader ≠ .running) : ¬ link.CanApply := by
  rintro (busy | queued | running)
  · rw [idle.1] at busy
    cases busy
  · exact queued idle.2
  · exact stopped running

section

variable [Crates]

/-- At most one processor of a vault can still apply a delivered frame. -/
def OneProcessor (s : EngineState) : Prop :=
  ∀ (conn conn' : Handle) (link link' : ServerLink), s.links[conn]? = some link →
    s.links[conn']? = some link' → link.vault = link'.vault → link.CanApply → link'.CanApply →
    conn = conn'

/-- The processor of a connection idles, and its queue is empty. -/
def EngineState.Drained (s : EngineState) (conn : Handle) : Prop :=
  ∀ link, s.links[conn]? = some link → link.busy = false ∧ link.queue = []

/-- What is let go has nothing left to do: a link that is torn down or pruned is drained, a server
is not opened again while a processor of its vault goes on, and a command that ends with a
connection in hand has stopped it. An aborted reader queues nothing more. -/
def tidy : Limits where
  asks request s _ := match request with
    | .deed (.teardownLink server) => ∀ conn, s.stored server = some conn → s.Drained conn
    | .deed .pruneDeadLinks => ∀ server conn, s.stored server = some conn → s.finished conn = true →
        s.Drained conn
    | .deed (.ensureServer server) => s.servers server = none →
        ∀ (conn : Handle) (link : ServerLink), s.links[conn]? = some link →
          link.vault = (server, s.generation server) → ¬ link.CanApply
    | _ => True
  ends s := ∀ (conn : Handle) (link : ServerLink), s.hand = some conn → s.links[conn]? = some link →
  ¬ link.CanApply
  arrives s s' := ∀ (conn : Handle) (link link' : ServerLink), s.links[conn]? = some link →
    s'.links[conn]? = some link' → link.reader = .aborted → link'.queue = link.queue

/-- Who can apply a frame is in hand or stored for its server. -/
structure Orderly (s : EngineState) : Prop where
  one : OneProcessor s
  named : ∀ server row, s.servers server = some row → row.vault.1 = server
  held : ∀ server row (conn : Handle) (link : ServerLink), s.servers server = some row →
    s.links[conn]? = some link → link.vault = row.vault → link.CanApply → s.hand = some conn ∨
    row.reader = some conn
  inHand : ∀ conn, s.hand = some conn → ∃ (link : ServerLink) (server : String) (row : Server),
  s.links[conn]? = some link ∧
    s.servers server = some row ∧ row.vault = link.vault ∧ row.reader = none

/-! ### Steps that give no processor anything to do -/

/-- The connections are the same ones, and none can apply more frames than before. -/
structure Shrinks (s s' : EngineState) : Prop where
  before : ∀ {conn : Handle} {link' : ServerLink}, s'.links[conn]? = some link' →
    ∃ link, s.links[conn]? = some link ∧ link.vault = link'.vault ∧ (link'.CanApply → link.CanApply)
  after : ∀ {conn : Handle} {link : ServerLink}, s.links[conn]? = some link →
    ∃ link', s'.links[conn]? = some link' ∧ link'.vault = link.vault

theorem Shrinks.of_same {s s' : EngineState} (same : s'.links = s.links) : Shrinks s s' where
  before found := ⟨_, same ▸ found, rfl, id⟩
  after found := ⟨_, same.symm ▸ found, rfl⟩

theorem Shrinks.one {s s' : EngineState} (shrinks : Shrinks s s') (one : OneProcessor s) :
    OneProcessor s' := by
  intro conn conn' link link' found found' same can can'
  obtain ⟨old, foundOld, vault, could⟩ := shrinks.before found
  obtain ⟨old', foundOld', vault', could'⟩ := shrinks.before found'
  exact one conn conn' old old' foundOld foundOld' (by rw [vault, vault', same]) (could can)
    (could' can')

theorem Shrinks.modify {s : EngineState} (conn : Handle) {f : ServerLink → ServerLink}
    (vault : ∀ link, (f link).vault = link.vault) (can : ∀ link, (f link).CanApply →
      link.CanApply) :
    Shrinks s { s with links := s.links.modify conn f } where
  before {other link'} found := by
    have modified : (s.links.modify conn f)[other]? = some link' := found
    rw [List.getElem?_modify] at modified
    obtain ⟨link, here, rfl⟩ := Option.map_eq_some_iff.mp modified
    refine ⟨link, here, ?_⟩
    split
    · exact ⟨(vault link).symm, can link⟩
    · exact ⟨rfl, id⟩
  after {other link} found := by
    refine ⟨_, (List.getElem?_modify f conn s.links other).trans (congrArg _ found), ?_⟩
    show (if conn = other then f link else link).vault = link.vault
    split
    · exact vault link
    · rfl

theorem Shrinks.set {s : EngineState} {conn : Handle} {link link' : ServerLink}
    (found : s.links[conn]? = some link) (vault : link'.vault = link.vault)
    (can : link'.CanApply → link.CanApply) :
    Shrinks s { s with links := s.links.set conn link' } where
  before {other new} foundNew := by
    have modified : (s.links.set conn link')[other]? = some new := foundNew
    rw [List.getElem?_set] at modified
    split at modified
    · next here =>
      subst here
      rw [if_pos (List.getElem?_eq_some_iff.mp found).1] at modified
      obtain rfl := Option.some.inj modified
      exact ⟨link, found, vault.symm, can⟩
    · exact ⟨new, modified, rfl, id⟩
  after {other old} foundOld := by
    show ∃ new, (s.links.set conn link')[other]? = some new ∧ _
    rw [List.getElem?_set]
    split
    · next here =>
      subst here
      rw [if_pos (List.getElem?_eq_some_iff.mp found).1]
      rw [found] at foundOld
      obtain rfl := Option.some.inj foundOld
      exact ⟨link', rfl, vault⟩
    · exact ⟨old, foundOld, rfl⟩

theorem abort_shrinks (s : EngineState) (conn : Handle) : Shrinks s (s.abort conn) :=
  .modify conn abort_vault abort_canApply

/-- The servers and the hand stay too. -/
theorem Orderly.shrinks {s s' : EngineState} (orderly : Orderly s) (shrinks : Shrinks s s')
    (servers : s'.servers = s.servers) (hand : s'.hand = s.hand) : Orderly s' where
  one := shrinks.one orderly.one
  named := servers ▸ orderly.named
  held server row conn link' found foundLink same can := by
    obtain ⟨link, foundOld, vault, could⟩ := shrinks.before foundLink
    rw [hand]
    exact orderly.held server row conn link (servers ▸ found) foundOld (vault.trans same)
      (could can)
  inHand conn inHand := by
    obtain ⟨link, server, row, found, entry, vault, free⟩ := orderly.inHand conn (hand ▸ inHand)
    obtain ⟨link', found', same⟩ := shrinks.after found
    exact ⟨link', server, row, found', servers.symm ▸ entry, vault.trans same.symm, free⟩

/-! ### The steps of the engine -/

theorem putServer_found {s : EngineState} {server other : String} {row : Option Server}
    {new : Server}
    (found : (s.putServer server row).servers other = some new) :
    (other = server ∧ row = some new) ∨ (other ≠ server ∧ s.servers other = some new) := by
  have entry : Function.update s.servers server row other = some new := found
  by_cases here : other = server
  · subst here
    rw [Function.update_self] at entry
    exact .inl ⟨rfl, entry⟩
  · rw [Function.update_of_ne here] at entry
    exact .inr ⟨here, entry⟩

/-- What only changes entries of servers: nothing that could apply a frame is let go. -/
theorem Orderly.entries {s s' : EngineState} (orderly : Orderly s) (links : s'.links = s.links)
    (hand : s'.hand = s.hand)
    (named : ∀ server row, s'.servers server = some row → row.vault.1 = server)
    (held : ∀ server row (conn : Handle) (link : ServerLink), s'.servers server = some row →
      s.links[conn]? = some link → link.vault = row.vault → link.CanApply →
        s.hand = some conn ∨ row.reader = some conn)
    (free : s.hand = none ∨ s'.servers = s.servers) : Orderly s' where
  one := (Shrinks.of_same links).one orderly.one
  named := named
  held server row conn link found foundLink same can := by
    rw [hand]
    exact held server row conn link found (links ▸ foundLink) same can
  inHand conn inHand := by
    rw [hand] at inHand
    rcases free with empty | same
    · rw [empty] at inHand
      cases inHand
    · obtain ⟨link, server, row, found, entry, rest⟩ := orderly.inHand conn inHand
      exact ⟨link, server, row, links.symm ▸ found, same.symm ▸ entry, rest⟩

theorem orderly_ensure {s : EngineState} (orderly : Orderly s) (hand : s.hand = none)
    {server : String}
    (fresh : s.servers server = none → ∀ (conn : Handle) (link : ServerLink),
      s.links[conn]? = some link →
      link.vault = (server, s.generation server) → ¬ link.CanApply) :
      Orderly (s.ensure server) := by
  unfold EngineState.ensure
  cases entry : s.servers server with
  | some row => exact orderly
  | none =>
      have free := fresh entry
      refine orderly.entries rfl rfl (fun other row found => ?_)
        (fun other row conn link found foundLink
        same can => ?_) (.inl hand)
      · rcases putServer_found found with ⟨rfl, ⟨⟩⟩ | ⟨_, old⟩
        · rfl
        · exact orderly.named other row old
      · rcases putServer_found found with ⟨rfl, ⟨⟩⟩ | ⟨_, old⟩
        · exact absurd can (free conn link foundLink same)
        · exact orderly.held other row conn link old foundLink same can

theorem orderly_prune {s : EngineState} (orderly : Orderly s) (hand : s.hand = none)
    (drained : ∀ server conn, s.stored server = some conn → s.finished conn = true →
      s.Drained conn) :
    Orderly s.prune := by
  have rows : ∀ server row, s.prune.servers server = some row →
      ∃ old, s.servers server = some old ∧ row = s.pruned old :=
    fun server row found => by
      obtain ⟨old, here, rfl⟩ := Option.map_eq_some_iff.mp found
      exact ⟨old, here, rfl⟩
  refine orderly.entries rfl rfl (fun server row found => ?_)
    (fun server row conn link found foundLink same
    can => ?_) (.inl hand)
  · obtain ⟨old, here, rfl⟩ := rows server row found
    have named := orderly.named server old here
    unfold EngineState.pruned
    split <;> exact named
  · obtain ⟨old, here, rfl⟩ := rows server row found
    have vault : (s.pruned old).vault = old.vault := by
      unfold EngineState.pruned
      split <;> rfl
    rcases orderly.held server old conn link here foundLink (same.trans vault)
      can with inHand | stored
    · exact .inl inHand
    · by_cases finished : s.finished conn = true
      · have ended : link.reader = .ended := by
          unfold EngineState.finished at finished
          rw [foundLink] at finished
          exact of_decide_eq_true finished
        have entry : s.stored server = some conn := by
          unfold EngineState.stored
          rw [here]
          exact stored
        refine absurd can (Drained.cannot (drained server conn entry finished link foundLink) ?_)
        rw [ended]
        decide
      · refine .inr ?_
        unfold EngineState.pruned
        rw [stored]
        simp [finished, stored]

theorem orderly_teardown {s : EngineState} (orderly : Orderly s) (hand : s.hand = none)
    {server : String}
    (drained : ∀ conn, s.stored server = some conn → s.Drained conn) :
      Orderly (s.teardown server) := by
  unfold EngineState.teardown
  cases entry : s.servers server with
  | none => exact orderly
  | some row =>
      have stored : s.stored server = row.reader := by
        unfold EngineState.stored
        rw [entry]
        rfl
      dsimp only
      rw [stored]
      have aborted : Orderly (row.reader.elim s s.abort) := by
        cases row.reader with
        | none => exact orderly
        | some conn => exact orderly.shrinks (abort_shrinks s conn) rfl rfl
      have servers : (row.reader.elim s s.abort).servers = s.servers := by cases row.reader <;> rfl
      have noHand : (row.reader.elim s s.abort).hand = none := by
        cases row.reader <;> exact hand
      refine aborted.entries rfl rfl (fun other new found => ?_)
        (fun other new conn link found foundLink
        same can => ?_) (.inl noHand)
      · rcases putServer_found found with ⟨rfl, ⟨⟩⟩ | ⟨_, old⟩
        · exact orderly.named other row entry
        · exact aborted.named other new old
      · rcases putServer_found found with ⟨rfl, ⟨⟩⟩ | ⟨_, old⟩
        · rcases aborted.held other row conn link (servers.symm ▸ entry) foundLink same
            can with inHand | reader
          · exact .inl inHand
          · rw [reader] at foundLink
            have modified : (s.links.modify conn ServerLink.abort)[conn]? = some link := foundLink
            rw [List.getElem?_modify_eq] at modified
            obtain ⟨old, foundOld, rfl⟩ := Option.map_eq_some_iff.mp modified
            have idle := drained conn (stored.trans reader) old foundOld
            refine absurd can (Drained.cannot ?_ ?_)
            · unfold ServerLink.abort
              split <;> exact idle
            · unfold ServerLink.abort
              split
              · exact nofun
              · assumption
        · exact aborted.held other new conn link old foundLink same can

theorem orderly_spawn {s : EngineState} (orderly : Orderly s) (hand : s.hand = none) {addr : String}
    {vault : VaultId} (me : String) (entry : s.servers addr = some ⟨vault, none, none⟩) :
    Orderly (s.spawn vault me addr) := by
  have alone : ∀ (conn : Handle) (link : ServerLink), s.links[conn]? = some link →
      link.vault = vault →
      ¬ link.CanApply := by
    intro conn link found same can
    rcases orderly.held addr _ conn link entry found same can with inHand | reader
    · rw [hand] at inHand
      cases inHand
    · cases reader
  have split : ∀ {conn : Handle} {link : ServerLink}, (s.spawn vault me addr).links[conn]? =
      some link →
      s.links[conn]? = some link ∨ (conn = s.links.length ∧ link.vault = vault) := by
    intro conn link found
    have appended : (s.links ++ [⟨vault, me, addr, .running, [], false, none⟩])[conn]? = some
        link := found
    rw [List.getElem?_append] at appended
    split at appended
    · exact .inl appended
    · next long =>
      rw [List.getElem?_singleton] at appended
      split at appended
      · next last =>
        obtain rfl := Option.some.inj appended
        exact .inr ⟨Nat.le_antisymm (Nat.sub_eq_zero_iff_le.mp last) (Nat.not_lt.mp long), rfl⟩
      · cases appended
  refine ⟨?_, orderly.named, ?_, ?_⟩
  · intro conn conn' link link' found found' same can can'
    rcases split found with old | ⟨rfl, new⟩ <;> rcases split found' with old' | ⟨rfl, new'⟩
    · exact orderly.one conn conn' link link' old old' same can can'
    · exact absurd can (alone conn link old (same.trans new'))
    · exact absurd can' (alone conn' link' old' (same.symm.trans new))
    · rfl
  · intro server row conn link found foundLink same can
    rcases split foundLink with old | ⟨rfl, _⟩
    · rcases orderly.held server row conn link found old same can with inHand | reader
      · rw [hand] at inHand
        cases inHand
      · exact .inr reader
    · exact .inl rfl
  · rintro conn ⟨⟩
    refine ⟨⟨vault, me, addr, .running, [], false, none⟩, addr, _, ?_, entry, rfl, rfl⟩
    show (s.links ++ [_])[s.links.length]? = _
    rw [List.getElem?_append_right (Nat.le_refl _), Nat.sub_self]
    rfl

theorem orderly_storeLink {s : EngineState} (orderly : Orderly s) {server : String} {conn : Handle}
    {link : ServerLink} (hand : s.hand = some conn) (found : s.links[conn]? = some link)
    (entry : s.servers server = some ⟨link.vault, none, none⟩) :
      Orderly (s.storeLink server conn) := by
  unfold EngineState.storeLink
  rw [entry]
  dsimp only
  have home : link.vault.1 = server := orderly.named server _ entry
  refine ⟨orderly.one, ?_, ?_, nofun⟩
  · intro other row foundRow
    rcases putServer_found foundRow with ⟨rfl, ⟨⟩⟩ | ⟨_, old⟩
    · exact home
    · exact orderly.named other row old
  · intro other row conn' link' foundRow foundLink same can
    refine .inr ?_
    rcases putServer_found foundRow with ⟨rfl, ⟨⟩⟩ | ⟨apart, old⟩
    · rcases orderly.held other _ conn' link' entry foundLink same can with inHand | reader
      · exact hand.symm.trans inHand
      · cases reader
    · rcases orderly.held other row conn' link' old foundLink same can with inHand | reader
      · obtain rfl := Option.some.inj (hand.symm.trans inHand)
        obtain rfl := Option.some.inj (found.symm.trans foundLink)
        refine absurd ?_ apart
        rw [← orderly.named other row old, ← same, home]
      · exact reader

theorem orderly_forget {s : EngineState} (orderly : Orderly s) (hand : s.hand = none)
    (server : String) :
    Orderly ((s.teardown server).putServer server none) := by
  have shrinks : Shrinks s (s.teardown server) ∧ (s.teardown server).hand = none ∧
      ∀ other, other ≠ server → (s.teardown server).servers other = s.servers other := by
    unfold EngineState.teardown
    cases s.servers server with
    | none => exact ⟨.of_same rfl, hand, fun _ _ => rfl⟩
    | some row =>
        dsimp only
        cases s.stored server with
        | none => exact ⟨.of_same rfl, hand, fun other apart => Function.update_of_ne apart ..⟩
        | some conn =>
            have aborted := abort_shrinks s conn
            exact ⟨⟨aborted.before, aborted.after⟩, hand, fun other apart =>
              Function.update_of_ne apart ..⟩
  obtain ⟨shrinks, noHand, others⟩ := shrinks
  have rows : ∀ other row, ((s.teardown server).putServer server none).servers other = some row →
      s.servers other = some row := by
    intro other row found
    rcases putServer_found found with ⟨rfl, ⟨⟩⟩ | ⟨apart, old⟩
    exact (others other apart).symm.trans old
  refine ⟨shrinks.one orderly.one, fun other row found =>
    orderly.named other row (rows other row found),
    fun other row conn link' found foundLink same can => ?_, fun conn inHand => ?_⟩
  · obtain ⟨link, foundOld, vault, could⟩ := shrinks.before foundLink
    rcases orderly.held other row conn link (rows other row found) foundOld (vault.trans same)
      (could can)
      with inHand | reader
    · rw [hand] at inHand
      cases inHand
    · exact .inr reader
  · have none : (s.teardown server).hand = some conn := inHand
    rw [noHand] at none
    cases none

/-- A request on a vault gives no processor anything to do. -/
theorem orderly_on {s : EngineState} (orderly : Orderly s) (vault : VaultId) (v : Vault)
    (conn : Option Handle) (asked : Ask) (answer : asked.Answer) :
    Orderly ((s.putVault vault v).noted conn asked answer) := by
  have claimed : ∀ (other : Handle) (auth : Option ClientMsg),
      Orderly { s.putVault vault v with
        links := (s.links.modify other fun link => { link with auth := auth }) } :=
        fun other auth =>
    Orderly.shrinks (s := s.putVault vault v) (orderly.shrinks (.of_same rfl) rfl rfl)
      (.modify other (fun _ => rfl) fun _ => id) rfl rfl
  have same : Orderly (s.putVault vault v) := orderly.shrinks (.of_same rfl) rfl rfl
  cases asked with
  | request msg =>
      cases msg with
      | register username ed25519 curve25519 machineId =>
          cases conn with
          | none => exact same
          | some other => exact claimed other _
      | authFinish username signature =>
          cases conn with
          | none => exact same
          | some other => exact claimed other _
      | _ => exact same
  | writeBackup server username uuid device =>
      cases answer with
      | ok path => exact same.shrinks (.of_same rfl) rfl rfl
      | error e => exact same
  | _ => exact same

/-- **One step.** Every step of the engine within the limits keeps the order. -/
theorem tidy_keeps : tidy.Keeps false Orderly where
  named s orderly := orderly.named
  echoes _ _ _ _ := nofun
  keys _ _ _ _ _ _ _ _ _ _ _ _ := nofun
  command s _ orderly := orderly.shrinks (.of_same rfl) rfl rfl
  asks request s answer s' orderly demanded limited made := by
    cases request with
    | on vault conn asked =>
        obtain ⟨v, _, rfl⟩ := made
        exact orderly_on orderly vault v conn asked answer
    | bare asked => exact made.2 ▸ orderly
    | deed step =>
        cases step with
        | ensureServer server =>
            rcases made with rfl | ⟨_, rfl⟩
            · exact orderly_ensure orderly demanded limited
            · exact orderly
        | vaultOf server => exact made.2 ▸ orderly
        | pruneDeadLinks =>
            obtain rfl : s' = s.prune := made
            exact orderly_prune orderly demanded limited
        | hasLink server => exact made.2 ▸ orderly
        | teardownLink server =>
            obtain rfl : s' = s.teardown server := made
            exact orderly_teardown orderly demanded limited
        | spawnReader vault me addr =>
            obtain ⟨_, rfl⟩ := made
            exact orderly_spawn orderly demanded.1 me demanded.2
        | abort conn =>
            obtain rfl : s' = s.abort conn := made
            exact orderly.shrinks (abort_shrinks s conn) rfl rfl
        | storeLink server conn =>
            obtain rfl : s' = s.storeLink server conn := made
            obtain ⟨hand, seen, foundSeen, entry, _⟩ := demanded
            obtain ⟨link, found, rfl⟩ := List.getElem?_map.symm.trans foundSeen |>
                Option.map_eq_some_iff.mp
            exact orderly_storeLink orderly hand found entry
        | forgetServer server =>
            obtain rfl : s' = (s.teardown server).putServer server none := made
            exact orderly_forget orderly demanded server
        | removeDir server =>
            rcases made with rfl | rfl
            · exact orderly
            · exact orderly.shrinks (.of_same rfl) rfl rfl
  ends s orderly limited := by
    refine ⟨orderly.one, orderly.named, fun server row conn link found foundLink same can =>
      ?_, nofun⟩
    rcases orderly.held server row conn link found foundLink same can with inHand | reader
    · exact absurd can (limited conn link inHand foundLink)
    · exact .inr reader
  takes s conn link inc rest orderly found queued := by
    refine orderly.shrinks (.set found rfl fun _ => .inr (.inl ?_)) rfl rfl
    rw [queued]
    exact List.cons_ne_nil _ _
  frame s conn vault v orderly _ _ := orderly.shrinks (.of_same rfl) rfl rfl
  done s conn orderly := by
    refine orderly.shrinks (.modify conn (fun _ => rfl) fun link can => ?_) rfl rfl
    rcases can with busy | rest
    · cases busy
    · exact .inr rest
  arrives s s' orderly arrives limited := by
    cases arrives with
    | @queue conn link msg inc found reads routed =>
        refine orderly.shrinks (.set found rfl fun _ => ?_) rfl rfl
        have modified : (s.links.set conn { link with queue := link.queue ++ [inc] })[conn]? =
            some { link with queue := link.queue ++ [inc] } :=
          List.getElem?_set_self (List.getElem?_eq_some_iff.mp found).1
        cases reader : link.reader with
        | running => exact .inr (.inr reader)
        | ended => exact absurd reader reads
        | aborted =>
            have same := limited conn link _ found modified reader
            exact absurd same (by simp)
    | close found =>
        refine orderly.shrinks (.set found rfl fun can => ?_) rfl rfl
        rcases can with busy | queued | running
        · exact .inl busy
        · exact .inr (.inl queued)
        · cases running

theorem start_orderly (vaults : VaultId → Vault) : Orderly (.start vaults) where
  one conn conn' link link' found := by cases found
  named server row found := by cases found
  held server row conn link found := by cases found
  inHand conn found := by cases found

/-- **One processor for each vault**, in every run in which whatever is let go has nothing left to
do. -/
theorem one_processor (app : App) (vaults : VaultId → Vault)
    {state : Crew.State (Option Handle) EngineState EngineAsk EngineAsk.Answer String Unit}
    (reached : Relation.ReflTransGen (engineWithin app tidy).Next
      (fun _ => none, .start vaults) state) :
    OneProcessor state.2 := by
  have lawful : false = true → LawfulAccounts := nofun
  exact (engine_invariant lawful tidy_keeps (start_orderly vaults) reached).one

end

namespace Ideal

/-! ### Two connections -/

/-- A client of this world. -/
def desktop : App := ⟨none, false, "machine", "build"⟩

/-- The vaults of a user who has registered on every server. -/
def registered (_ : VaultId) : Vault :=
  { Vault.empty with
    «meta» := Vault.empty.meta.put "username" "alice"
    account := some ⟨1, [], []⟩ }

/-- A relay that never answers `AuthBegin`. -/
def silentRelay : (asked : Ask) → asked.Answer
  | .request (.clientHello ..) => .ok (.ok none)
  | .request _ => .error "server timed out (no reply within 30s)"
  | asked => world asked

/-- The engine after a command. -/
def after (relay : (asked : Ask) → asked.Answer) (command : EngineCommand) (s : EngineState) :
    EngineState :=
  { (Prog.run (EngineAsk.play relay) (Engine.runCommand desktop command)
      { s with command := some command }).2 with command := none, hand := none }

/-- The user connects twice. -/
def twice : EngineState :=
  after silentRelay (.connect "a:9000") (after silentRelay (.connect "a:9000") (.start registered))

/-- A command is run while the processors idle. -/
theorem after_next (relay : (asked : Ask) → asked.Answer) (command : EngineCommand)
    (s : EngineState) :
    Relation.ReflTransGen (engine desktop).Next (fun _ => none, s)
      (fun _ => none, after relay command s) := by
  have runs : Prog.Runs ((engine desktop).act none) _ { s with command := some command } _ _ :=
    Prog.run_runs (EngineAsk.play_conforms relay) (Engine.runCommand desktop command) _
  exact Crew.runs_next (i := none) rfl ⟨command, rfl, rfl⟩ runs rfl

theorem twice_links (conn : Fin 2) :
    twice.links[conn.1]?.map (fun link => (link.vault, link.reader)) = some
    (("a:9000", 0), .running) := by
  revert conn
  decide

/-- The first handshake times out. Its reader goes on beside the one of the second. -/
theorem two_processors : ¬ ∀ (app : App) (vaults : VaultId → Vault)
    (state : Crew.State (Option Handle) EngineState EngineAsk EngineAsk.Answer String Unit),
    Relation.ReflTransGen (engine app).Next (fun _ => none, .start vaults) state →
      OneProcessor state.2 := by
  intro all
  have one := all desktop registered _ ((after_next silentRelay (.connect "a:9000") _).trans
    (after_next silentRelay (.connect "a:9000") _))
  obtain ⟨link, first, seen⟩ := Option.map_eq_some_iff.mp (twice_links 0)
  obtain ⟨link', second, seen'⟩ := Option.map_eq_some_iff.mp (twice_links 1)
  obtain ⟨vault, running⟩ := Prod.mk.inj seen
  obtain ⟨vault', running'⟩ := Prod.mk.inj seen'
  have same := one 0 1 link link' first second (vault.trans vault'.symm) (.inr (.inr running))
    (.inr (.inr running'))
  exact absurd same (by decide)

/-- A relay that lets everybody in. -/
def openRelay : (asked : Ask) → asked.Answer
  | .request (.authBegin _) => .ok (.challenge "")
  | .request (.authFinish username _) => .ok (.authOk "uuid" username)
  | .request _ => .ok (.ok none)
  | asked => world asked

/-- No processor has anything to do. -/
def EngineState.idles (s : EngineState) : Bool :=
  s.links.all fun link => !link.busy && link.queue.isEmpty

theorem idles_drained {s : EngineState} (idles : EngineState.idles s = true) (conn : Handle) :
    s.Drained conn := by
  intro link found
  have idle := List.all_eq_true.mp idles link (List.mem_of_getElem? found)
  simpa using idle

/-- What is let go idles, and a server is opened only once. -/
def careful : EngineAsk → EngineState → Bool
  | .deed (.ensureServer server), s => (s.servers server).isSome || s.links.isEmpty
  | .deed (.teardownLink _), s | .deed .pruneDeadLinks, s => EngineState.idles s
  | _, _ => true

theorem careful_conforms (relay : (asked : Ask) → asked.Answer) (request : EngineAsk)
    (s : EngineState)
    (checked : careful request s = true) :
    (engineWithin desktop tidy).act none request s (EngineAsk.play relay request s).1
      (EngineAsk.play relay request s).2 := by
  refine ⟨EngineAsk.play_conforms relay request s, fun _ => ?_⟩
  cases request with
  | deed step =>
      cases step with
      | ensureServer server =>
          intro closed conn link found
          rw [careful, closed] at checked
          rw [List.isEmpty_iff.mp checked] at found
          cases found
      | teardownLink server => exact fun conn _ => idles_drained checked conn
      | pruneDeadLinks => exact fun _ conn _ _ => idles_drained checked conn
      | _ => trivial
  | _ => trivial

/-- A command that is careful, and keeps no connection in hand. -/
theorem after_within (command : EngineCommand) (s : EngineState)
    (checked : Prog.checks (EngineAsk.play openRelay) careful (Engine.runCommand desktop command)
      { s with command := some command } = true)
    (free : (Prog.run (EngineAsk.play openRelay) (Engine.runCommand desktop command)
      { s with command := some command }).2.hand = none) :
    Relation.ReflTransGen (engineWithin desktop tidy).Next (fun _ => none, s)
      (fun _ => none, after openRelay command s) := by
  have runs : Prog.Runs ((engineWithin desktop tidy).act none) _ _ _ _ :=
    Prog.run_runs_of_checks (careful_conforms openRelay) checked
  refine Crew.runs_next (i := none) rfl ⟨command, rfl, rfl⟩ runs ⟨rfl, fun _ conn link hand => ?_⟩
  rw [free] at hand
  cases hand

/-- The user connects and is let in, and connects again. -/
def once : EngineState := after openRelay (.connect "a:9000") (.start registered)

def reconnected : EngineState := after openRelay (.connect "a:9000") once

/-- The relay closes the second connection. -/
def dropped : EngineState :=
  { reconnected with links := reconnected.links.modify 1 fun link => { link with reader := .ended } }

theorem dropped_next : (engineWithin desktop tidy).Next (fun _ => none, reconnected)
    (fun _ => none, dropped) := by
  have two : 1 < reconnected.links.length := by decide +kernel
  obtain ⟨link, found⟩ : ∃ link, reconnected.links[1]? = some link :=
    ⟨_, List.getElem?_eq_getElem two⟩
  have closed : dropped = { reconnected with
      links := reconnected.links.set 1 { link with reader := .ended } } := by
    have inhabited : Inhabited ServerLink := ⟨link⟩
    unfold dropped
    rw [List.modify_eq_set, found]
    rfl
  refine .drift ⟨closed ▸ .close found, fun conn old new foundOld foundNew _ => ?_⟩
  rw [closed] at foundNew
  by_cases second : conn = 1
  · subst second
    obtain rfl := Option.some.inj (found.symm.trans foundOld)
    obtain rfl := Option.some.inj ((List.getElem?_set_self two).symm.trans foundNew)
    rfl
  · have same : reconnected.links[conn]? = some new :=
      (List.getElem?_set_ne (Ne.symm second)).symm.trans foundNew
    exact congrArg ServerLink.queue (Option.some.inj (same.symm.trans foundOld))

/-- And the user connects a third time. -/
def thrice : EngineState := after openRelay (.connect "a:9000") dropped

theorem thrice_reached : Relation.ReflTransGen (engineWithin desktop tidy).Next
    (fun _ => none, .start registered) (fun _ => none, thrice) := by
  have first : Relation.ReflTransGen (engineWithin desktop tidy).Next _ (fun _ => none, once) :=
    after_within (.connect "a:9000") (.start registered) (by decide) (by decide)
  have second : Relation.ReflTransGen (engineWithin desktop tidy).Next _
      (fun _ => none, reconnected) :=
    after_within (.connect "a:9000") once (by decide +kernel) (by decide +kernel)
  have third : Relation.ReflTransGen (engineWithin desktop tidy).Next _ (fun _ => none, thrice) :=
    after_within (.connect "a:9000") dropped (by decide +kernel) (by decide +kernel)
  exact ((first.trans second).tail dropped_next).trans third

/-- The first connection is torn down, the second is found to be closed, and the processor of the
third is the only one. -/
theorem one_connection : thrice.links.map (fun link => (link.vault, link.reader)) =
    [(("a:9000", 0), .aborted), (("a:9000", 0), .ended), (("a:9000", 0), .running)] ∧
    thrice.stored "a:9000" = some 2 ∧ OneProcessor thrice := by
  have one := one_processor desktop registered thrice_reached
  exact ⟨by decide +kernel, by decide +kernel, one⟩

end Ideal

end Cherm
