/-
**Runs of the engine, step by step.**

What a request does to the engine it does to what is seen of it: `effect_follows` for the command
task, and `frame_sight` for a processor, whose frames leave everything that the command task sees as
it is. Between two requests of a processor the key of its vault stays what it was (`wp_processor`).

`engineWithin` is the engine with limits on its steps, and `engine_sound` what has to be shown of an
invariant for it to hold in all runs within the limits: the programs are taken care of.
-/

import Cherm.Client.EngineView

namespace Cherm

open Crates

namespace EngineState

theorem map_sight_modify {links : List ServerLink} {conn : Handle} {f : ServerLink → ServerLink}
    (same : ∀ link, (f link).sight = link.sight) :
    (links.modify conn f).map ServerLink.sight = links.map ServerLink.sight := by
  apply List.ext_getElem?
  intro i
  rw [List.getElem?_map, List.getElem?_map, List.getElem?_modify]
  split
  · cases links[i]? with
    | none => rfl
    | some link => exact congrArg some (same link)
  · cases links[i]? <;> rfl

theorem map_sight_set {links : List ServerLink} {conn : Handle} {link link' : ServerLink}
    (found : links[conn]? = some link) (same : link'.sight = link.sight) :
    (links.set conn link').map ServerLink.sight = links.map ServerLink.sight := by
  rw [List.map_set, same]
  apply List.ext_getElem?
  intro i
  rw [List.getElem?_set, List.getElem?_map]
  split
  · next here =>
    subst here
    rw [found, List.length_map, if_pos (List.getElem?_eq_some_iff.mp found).1]
    rfl
  · rfl

theorem abort_sight (link : ServerLink) : link.abort.sight = link.sight := by
  unfold ServerLink.abort
  split <;> rfl

end EngineState

section

variable [Crates]

/-- The name that is looked at, in a vault. -/
def nameIn (strict : Bool) (v : Vault) : Option String :=
  if strict then v.metaGet "username" else none

/-- The key that is looked at, in a vault. -/
def keyIn (strict : Bool) (v : Vault) : Option String :=
  if strict then v.account.map Device.ed25519B64 else none

namespace EngineState

variable {strict : Bool} (s : EngineState)

theorem sight_putVault (vault : VaultId) (v : Vault) :
    (s.putVault vault v).sight strict = { s.sight strict with
      name := Function.update (s.sight strict).name vault (nameIn strict v)
      key := Function.update (s.sight strict).key vault (keyIn strict v) } := by
  have names := Function.comp_update (nameIn strict) s.vaults vault v
  have keys := Function.comp_update (keyIn strict) s.vaults vault v
  exact congrArg₂ (fun name key => ({ s.sight strict with name := name, key := key } : Sight))
    names keys

/-- A vault with the same name and the same key looks the same. -/
theorem sight_putVault_of_same {vault : VaultId} {v : Vault}
    (name : v.metaGet "username" = (s.vaults vault).metaGet "username")
    (account : v.account = (s.vaults vault).account) :
    (s.putVault vault v).sight strict = s.sight strict := by
  have names : nameIn strict v = (s.sight strict).name vault := by
    rw [nameIn, name]
    rfl
  have keys : keyIn strict v = (s.sight strict).key vault := by
    rw [keyIn, account]
    rfl
  rw [sight_putVault, names, keys, Function.update_eq_self, Function.update_eq_self]

theorem sight_saveAccount (vault : VaultId) (device : Device) :
    (s.putVault vault ((s.vaults vault).saveAccount device)).sight strict =
      (s.sight strict).putKey strict vault device := by
  have name : nameIn strict ((s.vaults vault).saveAccount device) = (s.sight strict).name
      vault := rfl
  rw [sight_putVault, name, Function.update_eq_self]
  rfl

theorem sight_saveName (vault : VaultId) (name : String) :
    (s.putVault vault ((s.vaults vault).metaSet "username" name)).sight strict =
      (s.sight strict).putName strict vault name := by
  have stored : nameIn strict ((s.vaults vault).metaSet "username" name) =
      if strict then some name else none := by
    show (if strict = true then ((s.vaults vault).meta.put "username" name).get "username"
      else none) = _
    rw [Table.get_put, if_pos rfl]
  have key : keyIn strict ((s.vaults vault).metaSet "username" name) = (s.sight strict).key
      vault := rfl
  rw [sight_putVault, stored, key, Function.update_eq_self]
  rfl

theorem sight_abort (conn : Handle) : (s.abort conn).sight strict = s.sight strict :=
  congrArg (fun links => ({ s.sight strict with links := links } : Sight))
  (map_sight_modify abort_sight)

theorem sight_putServer (server : String) (row : Option Server) :
    (s.putServer server row).sight strict = (s.sight strict).putServer server row := rfl

theorem sight_ensure (server : String) :
    (s.ensure server).sight strict = (s.sight strict).ensure server := by
  unfold ensure Sight.ensure
  rw [show (s.sight strict).servers server = s.servers server from rfl]
  cases s.servers server <;> rfl

theorem sight_teardown (server : String) :
    (s.teardown server).sight strict = (s.sight strict).teardown server := by
  unfold teardown Sight.teardown
  rw [show (s.sight strict).servers server = s.servers server from rfl]
  cases s.servers server with
  | none => rfl
  | some row =>
      dsimp only
      rw [sight_putServer]
      cases s.stored server with
      | none => rfl
      | some conn => rw [Option.elim_some, sight_abort]

theorem sight_storeLink (server : String) (conn : Handle) :
    (s.storeLink server conn).sight strict = (s.sight strict).storeLink server conn := by
  unfold storeLink Sight.storeLink
  rw [show (s.sight strict).servers server = s.servers server from rfl]
  cases s.servers server <;> rfl

theorem sight_spawn (vault : VaultId) (me addr : String) :
    (s.spawn vault me addr).sight strict = (s.sight strict).spawn vault me := by
  have links : (s.links ++ [(⟨vault, me, addr, .running, [], false, none⟩ : ServerLink)]).map
      ServerLink.sight =
      s.links.map ServerLink.sight ++ [⟨vault, me, none⟩] := List.map_append
  have count : some s.links.length = some (s.links.map ServerLink.sight).length := by
    rw [List.length_map]
  exact congrArg₂ (fun links hand => ({ s.sight strict with links := links, hand := hand } : Sight))
    links count

theorem sight_forget (server : String) :
    ((s.teardown server).putServer server none).sight strict = (s.sight strict).putServer server
      none := by
  rw [sight_putServer, sight_teardown]
  unfold Sight.teardown
  split
  · rfl
  · exact Sight.putServer_putServer ..

theorem sight_deleted (server : String) :
    (s.deleted server).sight strict = (s.sight strict).deleted server := by
  have names := Function.comp_update (nameIn strict) s.vaults (server, s.generation server + 1)
      Vault.empty
  have keys := Function.comp_update (keyIn strict) s.vaults (server, s.generation server + 1)
      Vault.empty
  have emptyName : nameIn strict Vault.empty = none := by cases strict <;> rfl
  have emptyKey : keyIn strict Vault.empty = none := by cases strict <;> rfl
  rw [emptyName] at names
  rw [emptyKey] at keys
  exact congrArg₂ (fun name key => ({ (s.sight strict) with
    generation := Function.update s.generation server (s.generation server + 1)
    name := name
    key := key } : Sight)) names keys

theorem sight_claimed (conn : Option Handle) {msg : ClientMsg}
    (claims : msg.claimedName.isSome = true) :
    (s.claimed conn msg).sight strict = (s.sight strict).claimed conn msg := by
  have links : ∀ msg, (conn.elim s.links fun conn =>
      s.links.modify conn fun link => { link with auth := some msg }).map ServerLink.sight =
      conn.elim (s.links.map ServerLink.sight) fun conn =>
        (s.links.map ServerLink.sight).modify conn fun link => { link with auth := some msg } := by
    intro msg
    cases conn with
    | none => rfl
    | some conn =>
        apply List.ext_getElem?
        intro i
        simp only [Option.elim_some, List.getElem?_map, List.getElem?_modify]
        split
        · cases s.links[i]? <;> rfl
        · cases s.links[i]? <;> rfl
  cases msg with
  | register username ed25519 curve25519 machineId =>
      exact congrArg (fun links => ({ s.sight strict with links := links } : Sight)) (links _)
  | authFinish username signature =>
      exact congrArg (fun links => ({ s.sight strict with links := links } : Sight)) (links _)
  | _ => cases claims

end EngineState

/-- **What a request does**, it does to what is seen, if the relay echoes names where they are
looked at. -/
theorem Ask.effect_follows {strict : Bool} {s : EngineState} {vault : VaultId}
    {conn : Option Handle}
    {asked : Ask} {answer : asked.Answer} {v : Vault} (made :
    Ask.effect asked (s.vaults vault) answer v)
    (echoed : strict = true → asked.Echoes answer) :
    asked.Follows strict vault conn (s.sight strict) answer
      (((s.putVault vault v).noted conn asked answer).sight strict) := by
  have account := Ask.effect_account made
  have username := Ask.effect_username made
  cases asked with
  | call op =>
      obtain ⟨rfl, rfl⟩ := Prod.mk.inj (made : (answer, v) = op.exec (s.vaults vault))
      cases op with
      | saveAccount device => exact s.sight_saveAccount vault device
      | metaSet key value =>
          by_cases same : key = "username"
          · subst same
            exact s.sight_saveName vault value
          · refine (s.sight_putVault_of_same (username ?_) (account nofun)).trans (if_neg same).symm
            intro name here
            cases here
            exact same rfl
      | loadAccount =>
          refine ⟨s.sight_putVault_of_same rfl rfl, ?_⟩
          rintro rfl
          rfl
      | metaGet key =>
          refine ⟨s.sight_putVault_of_same rfl rfl, ?_⟩
          rintro rfl rfl
          rfl
      | _ => exact s.sight_putVault_of_same (username nofun) (account nofun)
  | request msg =>
      have same : (s.putVault vault v).sight strict = s.sight strict :=
        s.sight_putVault_of_same (username nofun) (account nofun)
      cases msg with
      | register name ed25519 curve25519 machineId =>
          refine ⟨(EngineState.sight_claimed _ conn rfl).trans ?_, echoed⟩
          rw [same]
      | authFinish name signature =>
          refine (EngineState.sight_claimed _ conn rfl).trans ?_
          rw [same]
      | _ => exact same
  | writeBackup server name uuid device =>
      have same : (s.putVault vault v).sight strict = s.sight strict :=
        s.sight_putVault_of_same (username nofun) (account nofun)
      cases answer with
      | ok path => exact same
      | error e => exact same
  | _ => exact s.sight_putVault_of_same (username nofun) (account nofun)

theorem Deed.effect_follows {strict : Bool} {s s' : EngineState} {step : Deed}
    {answer : step.Answer}
    (made : step.effect s answer s') : step.Follows (s.sight strict) answer (s'.sight strict) := by
  cases step with
  | ensureServer server =>
      rcases made with rfl | ⟨failed, rfl⟩
      · exact .inl (s.sight_ensure server)
      · exact .inr ⟨failed, rfl⟩
  | vaultOf server =>
      obtain ⟨rfl, rfl⟩ := made
      exact ⟨rfl, rfl⟩
  | pruneDeadLinks =>
      obtain rfl : s' = s.prune := made
      exact ⟨fun row => row.reader.any s.finished, rfl⟩
  | hasLink server => exact congrArg _ made.2
  | teardownLink server =>
      obtain rfl : s' = s.teardown server := made
      exact s.sight_teardown server
  | spawnReader vault me addr =>
      obtain ⟨rfl, rfl⟩ := made
      exact ⟨(List.length_map _).symm, s.sight_spawn vault me addr⟩
  | abort conn =>
      obtain rfl : s' = s.abort conn := made
      exact s.sight_abort conn
  | storeLink server conn =>
      obtain rfl : s' = s.storeLink server conn := made
      exact s.sight_storeLink server conn
  | forgetServer server =>
      obtain rfl : s' = (s.teardown server).putServer server none := made
      exact s.sight_forget server
  | removeDir server =>
      rcases made with rfl | rfl
      · exact .inl rfl
      · exact .inr (s.sight_deleted server)

/-- The relay echoes the name of a registration. -/
def EngineAsk.Echoes : (request : EngineAsk) → request.Answer → Prop
  | .on _ _ asked, answer => asked.Echoes answer
  | _, _ => True

/-- **A request of the command task.** -/
theorem effect_follows {strict : Bool} {s s' : EngineState} {request : EngineAsk}
    {answer : request.Answer} (made : EngineAsk.effect request s answer s')
    (echoed : strict = true → request.Echoes answer) :
    (commandSpec strict).step request (s.sight strict) answer (s'.sight strict) := by
  cases request with
  | on vault conn asked =>
      obtain ⟨v, made, rfl⟩ := made
      exact Ask.effect_follows made echoed
  | bare asked => exact congrArg _ made.2
  | deed step => exact Deed.effect_follows made

/-! ### What a processor does to it -/

/-- A first message does not change the identity. -/
theorem Accepted.key [LawfulAccounts] {device device' : Device}
    (accepted : Accepted device device') :
    device'.ed25519B64 = device.ed25519B64 := by
  obtain ⟨curve, olmType, body, session, plaintext, opened⟩ := accepted
  unfold Device.createInbound at opened
  cases read : keyFromBase64 curve with
  | error e =>
      rw [read] at opened
      cases opened
  | ok id =>
      rw [read] at opened
      cases parts : fromParts olmType body with
      | error e =>
          rw [parts] at opened
          cases opened
      | ok msg =>
          rw [parts] at opened
          have created : (if isPreKey msg then createInboundSession device id msg
              else .error "expected a prekey message to start a session") =
              .ok (session, plaintext, device') := opened
          split at created
          · exact congrArg keyToBase64 (LawfulAccounts.createInboundSession_key _ _ _ _ _ _ created)
          · cases created

/-- A request of a frame on the vault of its connection. An account is saved only with the key that
is there. -/
def Ask.OfFrame (strict : Bool) (l : Sight) (vault : VaultId) : Ask → Prop
  | .call (.saveAccount device) => strict = true → l.key vault = some device.ed25519B64
  | asked => asked.Apart

/-- The requests of a processor. -/
def processorSpec (strict : Bool) (conn : Handle) : Prog.Spec Sight EngineAsk EngineAsk.Answer where
  demand request l := match request with
    | .on vault link asked => link = some conn ∧ l.busy = some vault ∧ asked.OfFrame strict l vault
    | _ => False
  step request l answer l' := l'.busy = l.busy ∧ l'.key = l.key ∧ match request, answer with
    | .on vault _ (.call .loadAccount), answer =>
        strict = true → l.key vault = Option.map Device.ed25519B64 answer
    | _, _ => True

/-- While a processor is at a frame, a key that is stored in its vault stays. -/
def KeyStays (l l' : Sight) : Prop :=
  ∀ vault, l.busy = some vault → l'.busy = some vault ∧ ∀ key, l.key vault = some key →
    l'.key vault = some key

/-- The requests of a frame, while others act in between. -/
def OfLink (strict : Bool) (conn : Handle) (vault : VaultId) : Prog.Spec Sight Ask Ask.Answer where
  demand asked := ((processorSpec strict conn).under KeyStays).demand (.on vault conn asked)
  step asked := ((processorSpec strict conn).under KeyStays).step (.on vault conn asked)

/-- The account that a frame knows has the key that is stored. -/
def Knows (strict : Bool) (vault : VaultId) (known : Option Device) (l : Sight) : Prop :=
  l.busy = some vault ∧ ∀ device, known = some device → Engine.HoldsKey strict l vault device

namespace Knows

variable {strict : Bool} {conn : Handle} {vault : VaultId} {known : Option Device} {l l' : Sight}

/-- What others do between two requests does not matter. -/
theorem stays (knows : Knows strict vault known l) (others : KeyStays l l') :
    Knows strict vault known l' := by
  obtain ⟨busy, keys⟩ := others vault knows.1
  exact ⟨busy, fun device same isStrict => keys _ (knows.2 device same isStrict)⟩

theorem allowed (lawful : strict = true → LawfulAccounts) {asked : Ask}
    (knows : Knows strict vault known l)
    (demanded : identitySpec.demand asked known) : (OfLink strict conn vault).demand asked l := by
  intro l' others
  have knows' := knows.stays others
  refine ⟨rfl, knows'.1, ?_⟩
  cases asked with
  | call op =>
      cases op with
      | saveAccount device =>
          intro isStrict
          have := lawful isStrict
          obtain ⟨had, same, accepted⟩ := demanded
          rw [accepted.key]
          exact knows'.2 had same isStrict
      | _ => exact demanded
  | _ => exact demanded

theorem follows (lawful : strict = true → LawfulAccounts) {asked : Ask} {answer : asked.Answer}
    (knows : Knows strict vault known l)
    (demanded : identitySpec.demand asked known) (made :
      (OfLink strict conn vault).step asked l answer l') :
    ∃ known', identitySpec.step asked known answer known' ∧ Knows strict vault known' l' := by
  obtain ⟨l₁, others, busy, key, loaded⟩ := made
  have knows₁ := knows.stays others
  have still : Knows strict vault known l' := by
    refine ⟨busy.trans knows₁.1, fun device same isStrict => ?_⟩
    rw [key]
    exact knows₁.2 device same isStrict
  cases asked with
  | call op =>
      cases op with
      | saveAccount device =>
          refine ⟨some device, rfl, still.1, ?_⟩
          rintro _ ⟨⟩ isStrict
          have := lawful isStrict
          obtain ⟨had, same, accepted⟩ := demanded
          rw [accepted.key]
          exact still.2 had same isStrict
      | loadAccount =>
          refine ⟨answer, rfl, still.1, ?_⟩
          rintro device rfl isStrict
          rw [key]
          exact loaded isStrict
      | _ => exact ⟨known, rfl, still⟩
  | _ => exact ⟨known, rfl, still⟩

end Knows

/-- **A frame** is applied without a change of the identity. -/
theorem wp_processor {strict : Bool} (lawful : strict = true → LawfulAccounts) (conn : Handle)
    (vault : VaultId) (ctx : ProcCtx) (inc : Incoming) {l : Sight} (busy : l.busy = some vault) :
    Prog.wp ((processorSpec strict conn).under KeyStays) (fun _ _ => True)
      (Engine.within vault conn (Client.processFrame ctx inc)) l := by
  have verified := Prog.wp_simulate (T := OfLink strict conn vault) (Knows strict vault)
    (fun _ _ _ knows demanded => knows.allowed lawful demanded)
    (fun _ _ _ _ _ knows demanded made => knows.follows lawful demanded made)
    (⟨busy, nofun⟩ : Knows strict vault none l) (Client.wp_processFrame_account ctx inc none)
  refine Prog.wp_interpret (fun asked l demanded => ?_)
    (Prog.wp_mono (fun _ _ _ => trivial) verified)
  exact ⟨demanded, fun answer l' made => ⟨answer, rfl, made⟩⟩

/-- The vault on which the processor of a connection is at a frame. -/
def EngineState.atFrame (s : EngineState) (conn : Handle) : Option VaultId :=
  s.links[conn]?.bind fun link => if link.busy then some link.vault else none

/-- What a task sees. -/
def EngineState.seen (strict : Bool) (s : EngineState) : Option Handle → Sight
  | none => s.sight strict
  | some conn => { s.sight strict with busy := s.atFrame conn }

/-- A request of a frame leaves the name and the key, and nothing beside the vault. -/
theorem Ask.OfFrame.sight {strict : Bool} {s : EngineState} {vault : VaultId} {conn : Option Handle}
    {asked : Ask} {answer : asked.Answer} {v : Vault} (ofFrame :
    asked.OfFrame strict (s.sight strict) vault)
    (made : Ask.effect asked (s.vaults vault) answer v) :
    (s.putVault vault v).noted conn asked answer = s.putVault vault v ∧
      (s.putVault vault v).sight strict = s.sight strict := by
  have account := Ask.effect_account made
  have username := Ask.effect_username made
  cases asked with
  | call op =>
      refine ⟨rfl, ?_⟩
      cases op with
      | saveAccount device =>
          obtain ⟨rfl, rfl⟩ := Prod.mk.inj
            (made : (answer, v) = ((), (s.vaults vault).saveAccount device))
          refine (s.sight_saveAccount vault device).trans ?_
          have same : (if strict then some device.ed25519B64 else none) = (s.sight strict).key
              vault := by
            cases strict with
            | false => rfl
            | true => exact (ofFrame rfl).symm
          rw [Sight.putKey, same, Function.update_eq_self]
      | metaSet key value => exact absurd rfl (ofFrame.1 .meta key ⟨rfl, rfl⟩).2
      | _ => exact s.sight_putVault_of_same (username nofun) (account nofun)
  | request msg =>
      refine ⟨?_, s.sight_putVault_of_same (username nofun) (account nofun)⟩
      cases msg with
      | fetchPrekeys username => rfl
      | _ => exact ofFrame.elim
  | writeBackup server name uuid device => exact ofFrame.elim
  | _ => exact ⟨rfl, s.sight_putVault_of_same (username nofun) (account nofun)⟩

/-- **A request of a processor** changes the vault of its connection, and nothing that the command
task sees. -/
theorem frame_sight {strict : Bool} {conn : Handle} {request : EngineAsk} {answer : request.Answer}
    {s s' : EngineState}
    (demanded : (processorSpec strict conn).demand request (s.seen strict (some conn)))
    (made : EngineAsk.effect request s answer s') :
    ∃ vault v, s.atFrame conn = some vault ∧ s' = s.putVault vault v ∧
      s'.sight strict = s.sight strict ∧
      (processorSpec strict conn).step request (s.seen strict (some conn)) answer
        (s'.seen strict (some conn)) := by
  cases request with
  | on vault link asked =>
      obtain ⟨rfl, busy, ofFrame⟩ := demanded
      obtain ⟨v, made, rfl⟩ := made
      have kept : (s.putVault vault v).noted (some conn) asked answer = s.putVault vault v ∧ _ :=
        Ask.OfFrame.sight ofFrame made
      obtain ⟨noted, same⟩ := kept
      have keys : ((s.putVault vault v).sight strict).key = (s.sight strict).key :=
          congrArg Sight.key same
      rw [noted]
      refine ⟨vault, v, busy, rfl, same, rfl, keys, ?_⟩
      cases asked with
      | call op =>
          cases op with
          | loadAccount =>
              rintro rfl
              have read := congrArg Prod.fst (made : (answer, v) =
                  ((s.vaults vault).account, s.vaults vault))
              rw [show answer = (s.vaults vault).account from read]
              rfl
          | _ => trivial
      | _ => trivial
  | bare asked => exact demanded.elim
  | deed step => exact demanded.elim

/-- What the command task does disturbs no processor at its frame. -/
theorem effect_atFrame {request : EngineAsk} {answer : request.Answer} {s s' : EngineState}
    (made : EngineAsk.effect request s answer s') {conn : Handle} {vault : VaultId}
    (busy : s.atFrame conn = some vault) : s'.atFrame conn = some vault := by
  have modified : ∀ (other : Handle) (f : ServerLink → ServerLink),
      (∀ link, (f link).busy = link.busy ∧ (f link).vault = link.vault) →
      ({ s with links := s.links.modify other f } : EngineState).atFrame conn = some vault := by
    intro other f same
    rw [← busy]
    show (s.links.modify other f)[conn]?.bind _ = s.links[conn]?.bind _
    rw [List.getElem?_modify]
    cases s.links[conn]? with
    | none => rfl
    | some link =>
        by_cases here : other = conn
        · simp [here, (same link).1, (same link).2]
        · simp [here]
  have aborted : ∀ other, (s.abort other).atFrame conn = some vault := by
    intro other
    refine modified other _ fun link => ?_
    unfold ServerLink.abort
    split <;> exact ⟨rfl, rfl⟩
  have torn : ∀ server, (s.teardown server).atFrame conn = some vault := by
    intro server
    unfold EngineState.teardown
    split
    · exact busy
    · show ((s.stored server).elim s s.abort).atFrame conn = some vault
      cases s.stored server with
      | none => exact busy
      | some other => exact aborted other
  cases request with
  | on home link asked =>
      obtain ⟨v, _, rfl⟩ := made
      cases asked with
      | request msg =>
          cases msg with
          | register username ed25519 curve25519 machineId =>
              cases link with
              | none => exact busy
              | some link => exact modified link _ fun _ => ⟨rfl, rfl⟩
          | authFinish username signature =>
              cases link with
              | none => exact busy
              | some link => exact modified link _ fun _ => ⟨rfl, rfl⟩
          | _ => exact busy
      | writeBackup server username uuid device => cases answer <;> exact busy
      | _ => exact busy
  | bare asked =>
      obtain ⟨_, rfl⟩ := made
      exact busy
  | deed step =>
      cases step with
      | ensureServer server =>
          rcases made with rfl | ⟨_, rfl⟩
          · unfold EngineState.ensure
            split <;> exact busy
          · exact busy
      | vaultOf server => exact made.2 ▸ busy
      | pruneDeadLinks =>
          obtain rfl : s' = s.prune := made
          exact busy
      | hasLink server => exact made.2 ▸ busy
      | teardownLink server =>
          obtain rfl : s' = s.teardown server := made
          exact torn server
      | spawnReader home me addr =>
          obtain ⟨_, rfl⟩ := made
          show (s.links ++ [_])[conn]?.bind _ = some vault
          obtain ⟨link, found, _⟩ := Option.bind_eq_some_iff.mp busy
          rw [List.getElem?_append_left (List.getElem?_eq_some_iff.mp found).1]
          exact busy
      | abort other =>
          obtain rfl : s' = s.abort other := made
          exact aborted other
      | storeLink server other =>
          obtain rfl : s' = s.storeLink server other := made
          unfold EngineState.storeLink
          split <;> exact busy
      | forgetServer server =>
          obtain rfl : s' = (s.teardown server).putServer server none := made
          exact torn server
      | removeDir server =>
          rcases made with rfl | rfl
          · exact busy
          · exact busy

/-! ### Runs within limits -/

/-- Limits on the steps of the engine: on how the requests of the command task are made and
answered, on when a command may end, and on what a connection does by itself. -/
structure Limits where
  asks : (request : EngineAsk) → EngineState → request.Answer → Prop
  ends : EngineState → Prop
  arrives : EngineState → EngineState → Prop

/-- The engine, as far as its steps are within the limits. -/
def engineWithin (app : App) (limits : Limits) :
    Crew (Option Handle) EngineState EngineAsk EngineAsk.Answer String Unit where
  act task request s answer s' :=
    (engine app).act task request s answer s' ∧ (task = none → limits.asks request s answer)
  begins := (engine app).begins
  ends task result s s' := (engine app).ends task result s s' ∧ (task = none → limits.ends s)
  drift s s' := (engine app).drift s s' ∧ limits.arrives s s'

/-- What each task sees, what it is told to do, and what the others leave as it is. -/
def engineView (strict : Bool) (app : App) (limits : Limits) :
    (engineWithin app limits).View Sight where
  see task s := s.seen strict task
  rely task := match task with
    | none => fun l l' => l' = l
    | some _ => KeyStays
  spec task := match task with
    | none => commandSpec strict
    | some conn => processorSpec strict conn
  idle task l := match task with
    | none => Engine.Ready l
    | some _ => True
  ended _ _ _ := True

/-- What has to be shown of an invariant: every step within the limits keeps it. -/
structure Limits.Keeps (limits : Limits) (strict : Bool) (inv : EngineState → Prop) : Prop where
  named : ∀ s, inv s → (s.sight strict).Named
  echoes : ∀ request s answer, limits.asks request s answer → strict = true → request.Echoes answer
  keys : ∀ request s answer s', inv s → (commandSpec strict).demand request (s.sight strict) →
    limits.asks request s answer → EngineAsk.effect request s answer s' → ∀ conn vault,
      s.atFrame conn = some vault → ∀ key, (s.sight strict).key vault = some key →
        (s'.sight strict).key vault = some key
  command : ∀ s command, inv s → inv { s with command := some command }
  asks : ∀ request s answer s', inv s → (commandSpec strict).demand request (s.sight strict) →
    limits.asks request s answer → EngineAsk.effect request s answer s' → inv s'
  ends : ∀ s, inv s → limits.ends s → inv { s with command := none, hand := none }
  takes : ∀ s conn link inc rest, inv s → s.links[conn]? = some link → link.queue = inc :: rest →
    inv { s with links := s.links.set conn { link with queue := rest, busy := true } }
  frame : ∀ s conn vault v, inv s → s.atFrame conn = some vault →
    (s.putVault vault v).sight strict = s.sight strict → inv (s.putVault vault v)
  done : ∀ s conn, inv s →
    inv { s with links := s.links.modify conn fun link => { link with busy := false } }
  arrives : ∀ s s', inv s → Arrives s s' → limits.arrives s s' → inv s'

/-- The limits are on the engine's own steps. -/
theorem engine_next {app : App} {limits : Limits}
    {state state' : Crew.State (Option Handle) EngineState EngineAsk EngineAsk.Answer String Unit}
    (next : (engineWithin app limits).Next state state') : (engine app).Next state state' := by
  cases next with
  | start task idle begins => exact .start task idle begins
  | move task busy made => exact .move task busy made.1
  | finish task busy ends => exact .finish task busy ends.1
  | drift drifts => exact .drift drifts.1

theorem engineView_steady {strict : Bool} {app : App} {limits : Limits} :
    (engineView strict app limits).Steady where
  refl task l := by
    cases task with
    | none => rfl
    | some conn => exact fun vault busy => ⟨busy, fun _ => id⟩
  trans task l l' l'' first second := by
    cases task with
    | none => exact (show l'' = l' from second).trans first
    | some conn =>
        intro vault busy
        obtain ⟨busy', keys⟩ := first vault busy
        obtain ⟨busy'', keys'⟩ := second vault busy'
        exact ⟨busy'', fun key found => keys' key (keys key found)⟩
  idle task l l' before others := by
    cases task with
    | none =>
        obtain rfl : l' = l := others
        exact before
    | some conn => trivial
  ended _ _ _ _ _ _ := trivial

section

variable {strict : Bool} {s s' : EngineState}

/-- A connection whose processor goes on as it was. -/
theorem atFrame_set {conn other : Handle} {link link' : ServerLink}
    (found : s.links[conn]? = some link)
    (same : link'.busy = link.busy ∧ link'.vault = link.vault) :
    ({ s with links := s.links.set conn link' } : EngineState).atFrame other = s.atFrame other := by
  show (s.links.set conn link')[other]?.bind _ = s.links[other]?.bind _
  rw [List.getElem?_set]
  split
  · next here =>
    subst here
    rw [if_pos (List.getElem?_eq_some_iff.mp found).1, found]
    simp [same.1, same.2]
  · rfl

theorem atFrame_set_of_ne {conn other : Handle} (apart : other ≠ conn) (link : ServerLink) :
    ({ s with links := s.links.set conn link } : EngineState).atFrame other = s.atFrame other := by
  show (s.links.set conn link)[other]?.bind _ = s.links[other]?.bind _
  rw [List.getElem?_set_ne apart.symm]

theorem sight_set {conn : Handle} {link link' : ServerLink} (found : s.links[conn]? = some link)
    (same : link'.sight = link.sight) :
    ({ s with links := s.links.set conn link' } : EngineState).sight strict = s.sight strict :=
  congrArg (fun links => ({ s.sight strict with links := links } : Sight))
  (EngineState.map_sight_set found same)

/-- A step that leaves what the command task sees disturbs no task that was at a frame before and is
now. -/
theorem undisturbed {app : App} {limits : Limits} {task : Option Handle}
    (same : s'.sight strict = s.sight strict)
    (frames : ∀ conn, task = some conn → s'.atFrame conn = s.atFrame conn) :
    (engineView strict app limits).rely task (s.seen strict task) (s'.seen strict task) := by
  cases task with
  | none => exact same
  | some conn =>
      intro vault busy
      refine ⟨(frames conn rfl).trans busy, fun key found => ?_⟩
      show (s'.sight strict).key vault = some key
      rw [same]
      exact found

end

/-- **Invariants of the engine**: what every step within the limits keeps. -/
theorem engine_sound {strict : Bool} (lawful : strict = true → LawfulAccounts) {app : App}
    {limits : Limits} {inv : EngineState → Prop} (keeps : limits.Keeps strict inv) :
    (engineView strict app limits).Sound inv where
  steady := engineView_steady
  begins task prog s s' before waiting begins := by
    cases task with
    | none =>
        obtain ⟨command, rfl, rfl⟩ := begins
        have ready : Engine.Ready (({ s with command := some command } : EngineState).sight
            strict) :=
          ⟨waiting.hand, waiting.named⟩
        refine ⟨?_, keeps.command s command before, fun other apart => ?_⟩
        · exact Prog.wp_under_of_eq (fun _ _ same => same)
            (Engine.wp_runCommand lawful app command ready rfl)
        · cases other with
          | none => exact absurd rfl apart
          | some conn => exact fun vault busy => ⟨busy, fun _ => id⟩
    | some conn =>
        obtain ⟨link, inc, rest, found, queued, rfl, rfl⟩ := begins
        have busy : ({ s with
            links := s.links.set conn { link with queue := rest, busy := true } } :
            EngineState).atFrame conn = some link.vault := by
          show (s.links.set conn _)[conn]?.bind _ = _
          rw [List.getElem?_set_self (List.getElem?_eq_some_iff.mp found).1]
          rfl
        refine ⟨wp_processor lawful conn link.vault _ inc busy,
          keeps.takes s conn link inc rest before found queued,
          fun other apart => ?_⟩
        refine undisturbed (sight_set found rfl) fun conn' here => ?_
        subst here
        exact atFrame_set_of_ne (fun here => apart (congrArg some here)) _
  acts task request s answer s' before demanded made := by
    obtain ⟨made, limited⟩ := made
    cases task with
    | none =>
        refine ⟨effect_follows made (keeps.echoes _ _ _ (limited rfl)),
          keeps.asks _ _ _ _ before demanded (limited rfl) made, fun other apart => ?_⟩
        cases other with
        | none => exact absurd rfl apart
        | some conn =>
            exact fun vault busy => ⟨effect_atFrame made busy,
              keeps.keys _ _ _ _ before demanded (limited rfl) made conn vault busy⟩
    | some conn =>
        obtain ⟨vault, v, busy, rfl, same, follows⟩ := frame_sight demanded made
        exact ⟨follows, keeps.frame s conn vault v before busy same, fun other _ =>
          undisturbed same fun _ _ => rfl⟩
  ends task result s s' before ended ends := by
    obtain ⟨ends, limited⟩ := ends
    cases task with
    | none =>
        obtain rfl : s' = { s with command := none, hand := none } := ends
        have after := keeps.ends s before (limited rfl)
        refine ⟨⟨rfl, keeps.named _ after⟩, after, fun other apart => ?_⟩
        cases other with
        | none => exact absurd rfl apart
        | some conn => exact fun vault busy => ⟨busy, fun _ => id⟩
    | some conn =>
        obtain rfl : s' = { s with links := s.links.modify conn fun link =>
            { link with busy := false } } :=
          ends
        refine ⟨trivial, keeps.done s conn before, fun other apart =>
          undisturbed ?_ fun conn' here => ?_⟩
        · exact congrArg (fun links => ({ s.sight strict with links := links } : Sight))
            (EngineState.map_sight_modify fun _ => rfl)
        · subst here
          have other : conn ≠ conn' := fun here => apart (congrArg some here.symm)
          show (s.links.modify conn _)[conn']?.bind _ = s.links[conn']?.bind _
          rw [List.getElem?_modify_ne _ _ other]
  drift s s' before drifts := by
    obtain ⟨arrives, limited⟩ := drifts
    refine ⟨keeps.arrives s s' before arrives limited, fun other => ?_⟩
    cases arrives with
    | queue found reads routed =>
        exact undisturbed (sight_set found rfl) fun conn _ => atFrame_set found ⟨rfl, rfl⟩
    | close found =>
        exact undisturbed (sight_set found rfl) fun conn _ => atFrame_set found ⟨rfl, rfl⟩

/-- **Runs.** From the start of the engine, an invariant that the limits keep holds in every state.
-/
theorem engine_invariant {strict : Bool} (lawful : strict = true → LawfulAccounts) {app : App}
    {limits : Limits} {inv : EngineState → Prop} (keeps : limits.Keeps strict inv)
    {vaults : VaultId → Vault} (initially : inv (.start vaults))
    {state : Crew.State (Option Handle) EngineState EngineAsk EngineAsk.Answer String Unit}
    (reached : Relation.ReflTransGen (engineWithin app limits).Next
      (fun _ => none, .start vaults) state) :
    inv state.2 := by
  refine ((engine_sound lawful keeps).reached reached (fun _ => rfl) (fun task => ?_) initially).1
  cases task with
  | none => exact ⟨rfl, nofun⟩
  | some conn => trivial

end

end Cherm
