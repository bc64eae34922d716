/-
**A live link and its vault agree on who we are, as long as nobody changes the name on the way.**

The name is stored in the vault, run under by the processor, and claimed before the relay; the key
is stored with the account, and registered or signed with. Two things can set them apart: `register`
stores the name that the relay puts into its reply, and `import_identity` writes another identity
into a vault that is in use.

* `LinkIdentity`: what a stored link, its vault and the message that claimed its name agree on, and
  that every backup lies directly in its directory.
* `faithful`: the limits within which it holds.
* `Settled`: the invariant, in terms of what the command task sees.
* `link_identity` is the result; `Ideal.renamed_by_relay` is the relay that answers with another
  name.
-/

import Cherm.Client.EngineRuns
import Cherm.Proof.OneProcessor

namespace Cherm

open Crates

/-- Only a deleted directory changes a key, and its vault is a new one. -/
theorem key_of_deed {l l' : Sight} {step : Deed} {answer : step.Answer}
    (made : step.Follows l answer l')
    {vault : VaultId} (old : vault.2 ≤ l.generation vault.1) : l'.key vault = l.key vault := by
  cases step with
  | ensureServer server =>
      rcases made with rfl | ⟨_, rfl⟩
      · unfold Sight.ensure
        split <;> rfl
      · rfl
  | vaultOf server => rw [made.2]
  | pruneDeadLinks =>
      obtain ⟨dead, rfl⟩ := made
      rfl
  | teardownLink server =>
      rw [show l' = l.teardown server from made, Sight.teardown]
      split <;> rfl
  | spawnReader home me addr => rw [made.2]; rfl
  | storeLink server conn =>
      rw [show l' = l.storeLink server conn from made, Sight.storeLink]
      split <;> rfl
  | forgetServer server => rw [show l' = l.putServer server none from made]; rfl
  | removeDir server =>
      rcases made with rfl | rfl
      · rfl
      · refine Function.update_of_ne (fun here => ?_) ..
        rw [here] at old
        exact Nat.not_succ_le_self _ old
  | _ => rw [show l' = l from made]

section

variable [Crates]

/-- Every stored link belongs to the identity in its vault, and every backup is in its place. -/
def LinkIdentity (s : EngineState) : Prop :=
  (∀ server row conn, s.servers server = some row → row.link = some conn →
    ∃ link : ServerLink, s.links[conn]? = some link ∧ link.vault = row.vault ∧
      OneIdentity (s.name row.vault) (s.key row.vault) link.me link.auth) ∧
  ∀ file ∈ s.backups, PlainFile file

/-- The relay registers the name that it was asked for, and an import into a vault with a link, or
with a frame in progress, is of the identity that is stored there. -/
def faithful : Limits where
  asks request s answer := request.Echoes answer ∧ (s.importing = true → match request with
    | .on vault _ (.call (.saveAccount device)) =>
        (¬ (s.sight true).Unlinked vault → s.key vault = some device.ed25519B64) ∧
          ∀ conn, s.atFrame conn = some vault → s.key vault = none ∨
            s.key vault = some device.ed25519B64
    | .on vault _ (.call (.metaSet key value)) =>
        key = "username" → ¬ (s.sight true).Unlinked vault → s.name vault = some value
    | _ => True)
  ends _ := True
  arrives _ _ := True

/-- The links that are stored agree with their vaults. The vaults of a server that are still to come
are on none of them. -/
structure Settled (l : Sight) : Prop where
  named : l.Named
  past : ∀ server row, l.servers server = some row → row.vault.2 ≤ l.generation server
  young : ∀ (conn : Handle) (link : LinkSight), l.links[conn]? = some link →
    link.vault.2 ≤ l.generation link.vault.1
  agrees : ∀ server row conn, l.servers server = some row → row.link = some conn →
    ∃ link : LinkSight, l.links[conn]? = some link ∧ link.vault = row.vault ∧
      OneIdentity (l.name row.vault) (l.key row.vault) link.me link.auth
  apart : ∀ server row conn, l.servers server = some row → row.link = some conn → l.hand ≠ some conn

namespace Settled

variable {l : Sight}

/-- A vault on which a link is stored has a key. -/
theorem key (settled : Settled l) {vault : VaultId} (linked : ¬ l.Unlinked vault) :
    ∃ key, l.key vault = some key := by
  unfold Sight.Unlinked at linked
  simp only [not_forall] at linked
  obtain ⟨server, row, found, rfl, some⟩ := linked
  obtain ⟨conn, stored⟩ := Option.ne_none_iff_exists'.mp some
  obtain ⟨link, _, _, _, msg, ed25519, _, _, same, _⟩ := settled.agrees server row conn found stored
  exact ⟨ed25519, same⟩

/-- A key that stays where there is a link. -/
theorem putKey (settled : Settled l) {vault : VaultId} {device : Device}
    (same : ¬ l.Unlinked vault → l.key vault = some device.ed25519B64) :
    Settled (l.putKey true vault device) where
  named := settled.named
  past := settled.past
  young := settled.young
  apart := settled.apart
  agrees server row conn found stored := by
    obtain ⟨link, here, home, identity⟩ := settled.agrees server row conn found stored
    refine ⟨link, here, home, ?_⟩
    have kept : (l.putKey true vault device).key row.vault = l.key row.vault := by
      show Function.update l.key vault _ row.vault = _
      by_cases on : row.vault = vault
      · have linked : ¬ l.Unlinked vault := fun free => by
          rw [free server row found on] at stored
          cases stored
        rw [on, Function.update_self, same linked]
        rfl
      · exact Function.update_of_ne on ..
    rw [kept]
    exact identity

/-- A name that stays where there is a link. -/
theorem putName (settled : Settled l) {vault : VaultId} {name : String}
    (same : ¬ l.Unlinked vault → l.name vault = some name) :
      Settled (l.putName true vault name) where
  named := settled.named
  past := settled.past
  young := settled.young
  apart := settled.apart
  agrees server row conn found stored := by
    obtain ⟨link, here, home, identity⟩ := settled.agrees server row conn found stored
    refine ⟨link, here, home, ?_⟩
    have kept : (l.putName true vault name).name row.vault = l.name row.vault := by
      show Function.update l.name vault _ row.vault = _
      by_cases on : row.vault = vault
      · have linked : ¬ l.Unlinked vault := fun free => by
          rw [free server row found on] at stored
          cases stored
        rw [on, Function.update_self, same linked]
        rfl
      · exact Function.update_of_ne on ..
    rw [kept]
    exact identity

/-- Only the connection in hand claims a name, and it is not stored yet. -/
theorem claimed (settled : Settled l) (msg : ClientMsg) : Settled (l.claimed l.hand msg) where
  named := settled.named
  past := settled.past
  apart := settled.apart
  young conn link found := by
    show link.vault.2 ≤ l.generation link.vault.1
    cases hand : l.hand with
    | none =>
        rw [hand] at found
        exact settled.young conn link found
    | some other =>
        rw [hand] at found
        have modified : (l.links.modify other fun link => { link with auth := some msg })[conn]? =
            some link :=
          found
        rw [List.getElem?_modify] at modified
        obtain ⟨old, here, rfl⟩ := Option.map_eq_some_iff.mp modified
        have young := settled.young conn old here
        split <;> exact young
  agrees server row conn found stored := by
    obtain ⟨link, here, home, identity⟩ := settled.agrees server row conn found stored
    refine ⟨link, ?_, home, identity⟩
    have free := settled.apart server row conn found stored
    show (l.hand.elim l.links fun conn => l.links.modify conn _)[conn]? = some link
    cases hand : l.hand with
    | none => exact here
    | some other =>
        rw [Option.elim_some, List.getElem?_modify_ne _ _ fun same =>
          free (hand.trans (congrArg some same))]
        exact here

/-- The entries of servers change, and no link is added. -/
theorem entries (settled : Settled l) {servers : String → Option Server}
    (old : ∀ server row, servers server = some row → row.vault = (server, l.generation server) ∧
      row.link = none ∨
      ∃ row', l.servers server = some row' ∧ row.vault = row'.vault ∧
        (row.link = none ∨ row.link = row'.link)) :
    Settled { l with servers := servers } where
  young := settled.young
  named server row found := by
    rcases old server row found with ⟨vault, _⟩ | ⟨row', found', same, _⟩
    · rw [vault]
    · rw [same]
      exact settled.named server row' found'
  past server row found := by
    rcases old server row found with ⟨vault, _⟩ | ⟨row', found', same, _⟩
    · rw [vault]
    · rw [same]
      exact settled.past server row' found'
  agrees server row conn found stored := by
    rcases old server row found with ⟨_, none⟩ | ⟨row', found', same, none | link⟩
    · rw [none] at stored
      cases stored
    · rw [none] at stored
      cases stored
    · rw [same]
      exact settled.agrees server row' conn found' (link ▸ stored)
  apart server row conn found stored := by
    rcases old server row found with ⟨_, none⟩ | ⟨row', found', same, none | link⟩
    · rw [none] at stored
      cases stored
    · rw [none] at stored
      cases stored
    · exact settled.apart server row' conn found' (link ▸ stored)

/-- A new connection is on the vault of its server, and not stored. -/
theorem spawn (settled : Settled l) {vault : VaultId} (me : String) {addr : String} {row : Server}
    (entry : l.servers addr = some row) (same : row.vault = vault) :
      Settled (l.spawn vault me) where
  named := settled.named
  past := settled.past
  young conn link found := by
    have appended : (l.links ++ [⟨vault, me, none⟩])[conn]? = some link := found
    rw [List.getElem?_append] at appended
    split at appended
    · exact settled.young conn link appended
    · obtain rfl := List.mem_singleton.mp (List.mem_of_getElem? appended)
      have home := settled.named addr row entry
      have number := settled.past addr row entry
      rw [same] at home number
      show vault.2 ≤ l.generation vault.1
      rwa [home]
  agrees server row conn found stored := by
    obtain ⟨link, here, rest⟩ := settled.agrees server row conn found stored
    refine ⟨link, ?_, rest⟩
    show (l.links ++ _)[conn]? = some link
    rw [List.getElem?_append_left (List.getElem?_eq_some_iff.mp here).1, here]
  apart server row conn found stored hand := by
    obtain ⟨link, here, _⟩ := settled.agrees server row conn found stored
    have last : l.links.length = conn := Option.some.inj hand
    have inside := (List.getElem?_eq_some_iff.mp here).1
    rw [last] at inside
    exact Nat.lt_irrefl _ inside

/-- The connection in hand is stored, and it is of the identity in its vault. -/
theorem storeLink (settled : Settled l) {server : String} {conn : Handle} {link : LinkSight}
    (found : l.links[conn]? = some link)
    (entry : l.servers server = some ⟨link.vault, none, none⟩)
    (identity : OneIdentity (l.name link.vault) (l.key link.vault) link.me link.auth) :
    Settled (l.storeLink server conn) := by
  have stores : l.storeLink server conn =
      { l.putServer server (some ⟨link.vault, some conn, some conn⟩) with hand := none } := by
    rw [Sight.storeLink, entry]
  have rows : ∀ other row, (l.putServer server (some ⟨link.vault, some conn,
      some conn⟩)).servers other =
      some row → (other = server ∧ row = ⟨link.vault, some conn, some conn⟩) ∨
      l.servers other = some row := by
    intro other row foundRow
    by_cases here : other = server
    · subst here
      rw [Sight.putServer_self] at foundRow
      exact .inl ⟨rfl, (Option.some.inj foundRow).symm⟩
    · rw [Sight.putServer_of_ne l here] at foundRow
      exact .inr foundRow
  rw [stores]
  refine ⟨?_, ?_, settled.young, ?_, fun _ _ _ _ _ => nofun⟩
  · intro other row foundRow
    rcases rows other row foundRow with ⟨rfl, rfl⟩ | old
    · exact settled.named other ⟨link.vault, none, none⟩ entry
    · exact settled.named other row old
  · intro other row foundRow
    rcases rows other row foundRow with ⟨rfl, rfl⟩ | old
    · exact settled.past other ⟨link.vault, none, none⟩ entry
    · exact settled.past other row old
  · intro other row conn' foundRow stored
    rcases rows other row foundRow with ⟨rfl, rfl⟩ | old
    · obtain rfl := Option.some.inj stored
      exact ⟨link, found, rfl, identity⟩
    · exact settled.agrees other row conn' old stored

/-- The directory of a server that is not open is deleted. -/
theorem deleted (settled : Settled l) {server : String} (gone : l.servers server = none) :
    Settled (l.deleted server) := by
  have others : ∀ {other row}, l.servers other = some row → other ≠ server := by
    rintro other row found rfl
    rw [gone] at found
    cases found
  have more : ∀ other, l.generation other ≤ (l.deleted server).generation other := by
    intro other
    show _ ≤ Function.update l.generation server _ other
    by_cases here : other = server
    · rw [here, Function.update_self]
      exact Nat.le_succ _
    · rw [Function.update_of_ne here]
  refine ⟨settled.named, fun other row found => Nat.le_trans (settled.past other row found)
    (more other),
    fun conn link found => Nat.le_trans (settled.young conn link found) (more _), ?_, settled.apart⟩
  intro other row conn found stored
  obtain ⟨link, here, home, identity⟩ := settled.agrees other row conn found stored
  refine ⟨link, here, home, ?_⟩
  have old : row.vault ≠ (server, l.generation server + 1) := fun same =>
    others found ((settled.named other row found).symm.trans (congrArg Prod.fst same))
  show OneIdentity (Function.update l.name _ _ row.vault) (Function.update l.key _ _ row.vault) _ _
  rw [Function.update_of_ne old, Function.update_of_ne old]
  exact identity

/-- **The steps on the engine** keep the links in agreement with their vaults. -/
theorem deed (settled : Settled l) {step : Deed} {answer : step.Answer} {l' : Sight}
    (demanded : step.Permitted true l) (made : step.Follows l answer l') : Settled l' := by
  cases step with
  | ensureServer server =>
      rcases made with rfl | ⟨_, rfl⟩
      · unfold Sight.ensure
        split
        · exact settled
        · refine settled.entries fun other row found => ?_
          by_cases here : other = server
          · subst here
            rw [Function.update_self] at found
            obtain rfl := Option.some.inj found
            exact .inl ⟨rfl, rfl⟩
          · rw [Function.update_of_ne here] at found
            exact .inr ⟨row, found, rfl, .inr rfl⟩
      · exact settled
  | vaultOf server =>
      obtain rfl := made.2
      exact settled
  | pruneDeadLinks =>
      obtain ⟨dead, rfl⟩ := made
      refine settled.entries fun other row found => ?_
      obtain ⟨old, here, rfl⟩ := Option.map_eq_some_iff.mp found
      refine .inr ⟨old, here, ?_⟩
      split
      · exact ⟨rfl, .inl rfl⟩
      · exact ⟨rfl, .inr rfl⟩
  | hasLink server =>
      obtain rfl : l' = l := made
      exact settled
  | teardownLink server =>
      obtain rfl : l' = l.teardown server := made
      unfold Sight.teardown
      split
      · exact settled
      · next row entry =>
        refine settled.entries fun other new found => ?_
        by_cases here : other = server
        · subst here
          rw [Function.update_self] at found
          obtain rfl := Option.some.inj found
          exact .inr ⟨row, entry, rfl, .inl rfl⟩
        · rw [Function.update_of_ne here] at found
          exact .inr ⟨new, found, rfl, .inr rfl⟩
  | spawnReader vault me addr =>
      obtain ⟨_, rfl⟩ := made
      exact settled.spawn me demanded.2 rfl
  | abort conn =>
      obtain rfl : l' = l := made
      exact settled
  | storeLink server conn =>
      obtain rfl : l' = l.storeLink server conn := made
      obtain ⟨_, link, found, entry, identity⟩ := demanded
      exact settled.storeLink found entry (identity rfl)
  | forgetServer server =>
      obtain rfl : l' = l.putServer server none := made
      refine settled.entries fun other row found => ?_
      by_cases here : other = server
      · subst here
        rw [Function.update_self] at found
        cases found
      · rw [Function.update_of_ne here] at found
        exact .inr ⟨row, found, rfl, .inr rfl⟩
  | removeDir server =>
      rcases made with rfl | rfl
      · exact settled
      · exact settled.deleted demanded

/-- **The requests on a vault** keep them in agreement, if an import puts back what is stored. -/
theorem on (settled : Settled l) {vault : VaultId} {conn : Option Handle} {asked : Ask}
    {answer : asked.Answer} {l' : Sight} (demanded : asked.Permitted true l vault conn)
    (key : ∀ device, asked = .call (.saveAccount device) → l.importing = true → ¬ l.Unlinked vault →
      l.key vault = some device.ed25519B64)
    (name : ∀ value, asked = .call (.metaSet "username" value) → l.importing = true →
      ¬ l.Unlinked vault →
      l.name vault = some value)
    (made : asked.Follows true vault conn l answer l') : Settled l' := by
  cases asked with
  | call op =>
      cases op with
      | saveAccount device =>
          obtain rfl : l' = l.putKey true vault device := made
          refine settled.putKey fun linked => ?_
          rcases demanded rfl with importing | none | same
          · exact key device rfl importing linked
          · obtain ⟨stored, found⟩ := settled.key linked
            rw [none] at found
            cases found
          · exact same
      | metaSet entry value =>
          obtain rfl : l' = if entry = "username" then l.putName true vault value else l := made
          split
          · next here =>
            subst here
            refine settled.putName fun linked => ?_
            rcases demanded rfl rfl with importing | free
            · exact name value rfl importing linked
            · exact absurd free linked
          · exact settled
      | loadAccount =>
          obtain rfl := made.1
          exact settled
      | metaGet key =>
          obtain rfl := made.1
          exact settled
      | _ =>
          obtain rfl : l' = l := made
          exact settled
  | request msg =>
      cases msg with
      | register username ed25519 curve25519 machineId =>
          obtain rfl := made.1
          obtain rfl : conn = l.hand := demanded
          exact settled.claimed _
      | authFinish username signature =>
          obtain rfl : l' = l.claimed conn (.authFinish username signature) := made
          obtain rfl : conn = l.hand := demanded
          exact settled.claimed _
      | _ =>
          obtain rfl : l' = l := made
          exact settled
  | _ =>
      obtain rfl : l' = l := made
      exact settled

end Settled

/-! ### Runs -/

/-- The links agree with their vaults, and the backups are in their place. -/
structure Faithful (s : EngineState) : Prop where
  settled : Settled (s.sight true)
  plain : ∀ file ∈ s.backups, PlainFile file

theorem Faithful.of_sight {s s' : EngineState} (faithful : Faithful s)
    (sight : s'.sight true = s.sight true) (backups : s'.backups = s.backups) : Faithful s' where
  settled := sight.symm ▸ faithful.settled
  plain := backups.symm ▸ faithful.plain

theorem backups_of_deed {s s' : EngineState} {step : Deed} {answer : step.Answer}
    (made : step.effect s answer s') : s'.backups = s.backups := by
  have torn : ∀ server, (s.teardown server).backups = s.backups := by
    intro server
    unfold EngineState.teardown
    cases s.servers server with
    | none => rfl
    | some row =>
        dsimp only
        cases s.stored server <;> rfl
  cases step with
  | ensureServer server =>
      rcases made with rfl | ⟨_, rfl⟩
      · unfold EngineState.ensure
        split <;> rfl
      · rfl
  | vaultOf server => rw [made.2]
  | pruneDeadLinks => rw [show s' = s.prune from made]; rfl
  | hasLink server => rw [made.2]
  | teardownLink server => rw [show s' = s.teardown server from made, torn]
  | spawnReader vault me addr => rw [made.2]; rfl
  | abort conn => rw [show s' = s.abort conn from made]; rfl
  | storeLink server conn =>
      rw [show s' = s.storeLink server conn from made]
      unfold EngineState.storeLink
      split <;> rfl
  | forgetServer server =>
      rw [show s' = (s.teardown server).putServer server none from made]
      exact torn server
  | removeDir server => rcases made with rfl | rfl <;> rfl

/-- The only file that a request writes is a backup. -/
theorem backups_of_request {s : EngineState} {vault : VaultId} {v : Vault} {conn : Option Handle}
    {asked : Ask} {answer : asked.Answer} {file : String}
    (wrote : file ∈ ((s.putVault vault v).noted conn asked answer).backups) :
    file ∈ s.backups ∨
      ∃ server username uuid device, asked = .writeBackup server username uuid device ∧
        file = backupFile server username := by
  cases asked with
  | request msg =>
      refine .inl ?_
      cases msg <;> exact wrote
  | writeBackup server username uuid device =>
      cases answer with
      | ok path =>
          rcases List.mem_cons.mp wrote with rfl | old
          · exact .inr ⟨server, username, uuid, device, rfl, rfl⟩
          · exact .inl old
      | error e => exact .inl wrote
  | _ => exact .inl wrote

/-- What a processor is at is a vault that exists. -/
theorem Settled.atFrame {s : EngineState} (settled : Settled (s.sight true)) {conn : Handle}
    {vault : VaultId} (busy : s.atFrame conn = some vault) : vault.2 ≤ s.generation vault.1 := by
  obtain ⟨link, found, at_⟩ := Option.bind_eq_some_iff.mp busy
  have seen : (s.sight true).links[conn]? = some link.sight := by
    show (s.links.map ServerLink.sight)[conn]? = _
    rw [List.getElem?_map, found]
    rfl
  have young := settled.young conn link.sight seen
  split at at_
  · obtain rfl := Option.some.inj at_
    exact young
  · cases at_

/-- The key in a vault is put back. -/
theorem key_on {l l' : Sight} {home vault : VaultId} {conn : Option Handle} {asked : Ask}
    {answer : asked.Answer} (demanded : asked.Permitted true l home conn)
    (imported : ∀ device, asked = .call (.saveAccount device) → l.importing = true → home = vault →
      l.key vault = none ∨ l.key vault = some device.ed25519B64)
    (made : asked.Follows true home conn l answer l') {key : String}
      (found : l.key vault = some key) :
    l'.key vault = some key := by
  cases asked with
  | call op =>
      cases op with
      | saveAccount device =>
          obtain rfl : l' = l.putKey true home device := made
          show Function.update l.key home (some device.ed25519B64) vault = some key
          by_cases here : vault = home
          · subst here
            have same : l.key vault = none ∨ l.key vault = some device.ed25519B64 := by
              rcases demanded rfl with importing | old
              · exact imported device rfl importing rfl
              · exact old
            rcases same with none | same
            · rw [none] at found
              cases found
            · rw [Function.update_self, ← same, found]
          · rw [Function.update_of_ne here, found]
      | metaSet entry value =>
          obtain rfl : l' = if entry = "username" then l.putName true home value else l := made
          split <;> exact found
      | loadAccount =>
          obtain rfl := made.1
          exact found
      | metaGet key =>
          obtain rfl := made.1
          exact found
      | _ =>
          obtain rfl : l' = l := made
          exact found
  | request msg =>
      cases msg with
      | register username ed25519 curve25519 machineId =>
          obtain rfl := made.1
          exact found
      | authFinish username signature =>
          obtain rfl : l' = l.claimed conn (.authFinish username signature) := made
          exact found
      | _ =>
          obtain rfl : l' = l := made
          exact found
  | _ =>
      obtain rfl : l' = l := made
      exact found

/-- **One step.** Every step of the engine within the limits keeps the agreement. -/
theorem faithful_keeps : faithful.Keeps true Faithful where
  named s before := before.settled.named
  echoes request s answer limited _ := limited.1
  command s command before := ⟨⟨before.settled.named, before.settled.past, before.settled.young,
    before.settled.agrees, before.settled.apart⟩, before.plain⟩
  keys request s answer s' before demanded limited made conn vault busy key found := by
    have follows : (commandSpec true).step request (s.sight true) answer (s'.sight true) :=
      effect_follows made fun _ => limited.1
    cases request with
    | on home own asked =>
        refine key_on demanded ?_ follows found
        rintro device rfl importing rfl
        exact (limited.2 importing).2 conn busy
    | bare asked => exact made.2 ▸ found
    | deed step => rw [key_of_deed follows (before.settled.atFrame busy), found]
  asks request s answer s' before demanded limited made := by
    have follows : (commandSpec true).step request (s.sight true) answer (s'.sight true) :=
      effect_follows made fun _ => limited.1
    cases request with
    | on vault conn asked =>
        refine ⟨before.settled.on demanded ?_ ?_ follows, ?_⟩
        · rintro device rfl importing linked
          exact (limited.2 importing).1 linked
        · rintro value rfl importing linked
          exact limited.2 importing rfl linked
        · obtain ⟨v, _, rfl⟩ := made
          intro file wrote
          rcases backups_of_request wrote with old | ⟨server, username, uuid, device, rfl, rfl⟩
          · exact before.plain file old
          · exact demanded rfl
    | bare asked => exact made.2 ▸ before
    | deed step => exact ⟨before.settled.deed demanded follows, backups_of_deed made ▸ before.plain⟩
  ends s before _ := ⟨⟨before.settled.named, before.settled.past, before.settled.young,
    before.settled.agrees, fun _ _ _ _ _ => nofun⟩, before.plain⟩
  takes s conn link inc rest before found queued := before.of_sight (sight_set found rfl) rfl
  frame s conn vault v before _ same := before.of_sight same rfl
  done s conn before := before.of_sight (congrArg
    (fun links => ({ s.sight true with links := links } : Sight))
      (EngineState.map_sight_modify fun _ => rfl)) rfl
  arrives s s' before arrives _ := by
    cases arrives with
    | queue found reads routed => exact before.of_sight (sight_set found rfl) rfl
    | close found => exact before.of_sight (sight_set found rfl) rfl

theorem start_faithful (vaults : VaultId → Vault) : Faithful (.start vaults) where
  settled :=
    { named := fun server row found => by cases found
      past := fun server row found => by cases found
      young := fun conn link found => by cases found
      agrees := fun server row conn found => by cases found
      apart := fun server row conn found => by cases found }
  plain := nofun

/-- **A live link and its vault agree on who we are**, in every run in which the relay registers the
name that it was asked for and no import changes the identity of a vault in use. -/
theorem link_identity [lawful : LawfulAccounts] (app : App) (vaults : VaultId → Vault)
    {state : Crew.State (Option Handle) EngineState EngineAsk EngineAsk.Answer String Unit}
    (reached : Relation.ReflTransGen (engineWithin app faithful).Next
      (fun _ => none, .start vaults) state) :
    LinkIdentity state.2 := by
  have after := engine_invariant (fun _ => lawful) faithful_keeps (start_faithful vaults) reached
  refine ⟨fun server row conn found stored => ?_, after.plain⟩
  obtain ⟨seen, here, home, identity⟩ := after.settled.agrees server row conn found stored
  obtain ⟨link, foundLink, rfl⟩ := Option.map_eq_some_iff.mp (List.getElem?_map.symm.trans here)
  exact ⟨link, foundLink, home, identity⟩

end

namespace Ideal

/-! ### A relay that renames -/

instance : LawfulAccounts where
  generateOneTimeKeys_key _ _ _ := rfl
  markKeysAsPublished_key _ := rfl
  createInboundSession_key account peer msg session plaintext account' made := by
    have inbound := (orError_eq_ok ..).mp made
    unfold createInbound at inbound
    split at inbound
    · cases inbound
    · split at inbound
      · obtain ⟨rfl, rfl, rfl⟩ := Prod.mk.inj (Option.some.inj inbound) |>.imp id Prod.mk.inj
        rfl
      · cases inbound

/-- A relay that registers everybody as somebody else. -/
def misnaming : (asked : Ask) → asked.Answer
  | .request (.register ..) => .ok (.authOk "uuid" "mallory")
  | .request _ => .ok (.ok none)
  | asked => world asked

/-- Alice registers there. -/
def renamed : EngineState := after misnaming (.register "a:9000" "alice")
    (.start fun _ => Vault.empty)

theorem renamed_link : renamed.servers "a:9000" = some ⟨("a:9000", 0), some 0, some 0⟩ ∧
    renamed.links.map ServerLink.me = ["alice"] ∧ renamed.name ("a:9000", 0) = some
    "mallory" := by decide

/-- The vault has the name from the reply, while the connection is alice's. -/
theorem renamed_by_relay : ¬ ∀ (app : App) (vaults : VaultId → Vault)
    (state : Crew.State (Option Handle) EngineState EngineAsk EngineAsk.Answer String Unit),
    Relation.ReflTransGen (engine app).Next (fun _ => none, .start vaults) state →
      LinkIdentity state.2 := by
  intro all
  obtain ⟨stored, me, name⟩ := renamed_link
  obtain ⟨link, found, _, same, _⟩ :=
    (all desktop _ _ (after_next misnaming (.register "a:9000" "alice") _)).1 _ _ 0 stored rfl
  have called : renamed.links[0]?.map ServerLink.me = some "alice" := by
    rw [← List.getElem?_map, me]
    rfl
  rw [show renamed.links[0]? = some link from found] at called
  have alice : link.me = "alice" := Option.some.inj called
  have mallory : some "mallory" = some link.me := name.symm.trans same
  rw [alice] at mallory
  exact absurd mallory (by decide)

/-- Nothing is imported. -/
def noImport : EngineAsk → EngineState → Bool
  | _, s => !s.importing

theorem noImport_conforms (request : EngineAsk) (s : EngineState)
    (checked : noImport request s = true) :
    (engineWithin desktop faithful).act none request s (EngineAsk.play openRelay request s).1
      (EngineAsk.play openRelay request s).2 := by
  refine ⟨EngineAsk.play_conforms openRelay request s, fun _ => ⟨?_, fun importing => ?_⟩⟩
  · cases request with
    | on vault conn asked =>
        cases asked with
        | request msg =>
            cases msg with
            | register username ed25519 curve25519 machineId =>
                intro uuid uname answered
                exact absurd answered (by simp [EngineAsk.play, Ask.play, openRelay])
            | _ => trivial
        | _ => trivial
    | _ => trivial
  · rw [noImport, importing] at checked
    cases checked

/-- Alice connects, and her link is hers. -/
theorem link_of_alice : once.servers "a:9000" = some ⟨("a:9000", 0), some 0, some 0⟩ ∧
    LinkIdentity once := by
  refine ⟨by decide, ?_⟩
  have runs : Prog.Runs ((engineWithin desktop faithful).act none)
      (Engine.runCommand desktop (.connect "a:9000")) _ _ _ :=
    Prog.run_runs_of_checks noImport_conforms
      (show Prog.checks (EngineAsk.play openRelay) noImport
        (Engine.runCommand desktop (.connect "a:9000"))
        { EngineState.start registered with command := some (.connect "a:9000") } = true by decide)
  exact link_identity desktop registered
    (Crew.runs_next (i := none) rfl ⟨.connect "a:9000", rfl, rfl⟩ runs ⟨rfl, fun _ => trivial⟩)

end Ideal

end Cherm
