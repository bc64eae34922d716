/-
**What the command task knows of the engine.**

`Sight` is the part of the engine's state that only the command task changes: the servers, who the
connections belong to, the name and the key stored in every vault. `commandSpec` says where a
command may make which request of the engine, and `wp_runCommand` that every command keeps to it: a
connection is started where the server has none, and stored only while it is the one in hand.

With `strict`, names and keys are looked at as well. Then a link is stored only if the vault, the
processor and the message that claimed the name agree on who we are.
-/

import Cherm.Client.AccountUse
import Cherm.Client.Links

set_option linter.unusedSectionVars false

namespace Cherm

open Crates

/-- The name that a message claims for its connection. -/
def ClientMsg.claimedName : ClientMsg → Option String
  | .register username .. => some username
  | .authFinish username _ => some username
  | _ => none

section

variable [Crates]

/-- The message proves the possession of this key: it registers it, or it is signed with it. -/
def ClientMsg.ClaimsKey (ed25519 : String) : ClientMsg → Prop
  | .register _ key _ _ => key = ed25519
  | .authFinish _ signature =>
      ∃ (device : Device) (nonce : Bytes), device.ed25519B64 = ed25519 ∧
        signature = device.signB64 nonce
  | _ => False

/-- The stored name and key, the processor's name and the message that claimed it belong together.
-/
def OneIdentity (name key : Option String) (me : String) (auth : Option ClientMsg) : Prop :=
  name = some me ∧ ∃ msg ed25519, auth = some msg ∧ msg.claimedName = some me ∧ key = some ed25519 ∧
    msg.ClaimsKey ed25519

/-- The file lies directly in its directory. -/
def PlainFile (file : String) : Prop := ∀ c ∈ file.toList, c ≠ '/' ∧ c ≠ '\\'

/-- What vodozemac promises of an account: whatever becomes of its one-time keys, it is the same
identity. -/
class LawfulAccounts : Prop where
  generateOneTimeKeys_key : ∀ account n seed,
    ed25519Key (generateOneTimeKeys account n seed) = ed25519Key account
  markKeysAsPublished_key : ∀ account, ed25519Key (markKeysAsPublished account) = ed25519Key account
  createInboundSession_key : ∀ account peer msg session plaintext account',
    createInboundSession account peer msg = .ok (session, plaintext, account') →
      ed25519Key account' = ed25519Key account

theorem plainFile_of_all {file : String}
    (plain : (file.toList.all fun c => decide (c ≠ '/' ∧ c ≠ '\\')) = true) : PlainFile file :=
  fun c member => of_decide_eq_true (List.all_eq_true.mp plain c member)

theorem hexByte_plain (b : UInt8) : ∀ c ∈ hexByte b, c ≠ '/' ∧ c ≠ '\\' := by
  have digit : ∀ n, "0123456789abcdef".toList.getD n '0' ∈ "0123456789abcdef".toList := by
    intro n
    rw [List.getD_eq_getElem?_getD]
    cases found : "0123456789abcdef".toList[n]? with
    | none => decide
    | some c => exact List.mem_of_getElem? found
  have plain : PlainFile "0123456789abcdef" := plainFile_of_all (by decide)
  intro c member
  rcases List.mem_cons.mp member with rfl | member
  · exact plain _ (digit _)
  · rw [List.mem_singleton.mp member]
    exact plain _ (digit _)

/-- The backup of a valid name stays in its directory. -/
theorem backupFile_plain (server : String) {username : String}
    (valid : validUsername username = true) :
    PlainFile (backupFile server username) := by
  have letters : username.toList.all Char.isAlphanum = true := (Bool.and_eq_true_iff.mp valid).2
  intro c member
  unfold backupFile serverId at member
  rw [String.toList_append, String.toList_append, String.toList_append, String.toList_ofList,
    List.mem_append, List.mem_append, List.mem_append] at member
  rcases member with ((ofServer | underscore) | ofName) | extension
  · obtain ⟨b, _, ofByte⟩ := List.mem_flatMap.mp ofServer
    exact hexByte_plain b c ofByte
  · exact (plainFile_of_all (by decide) : PlainFile "_") c underscore
  · have letter := List.all_eq_true.mp letters c ofName
    constructor
    · rintro rfl
      exact absurd letter (by decide)
    · rintro rfl
      exact absurd letter (by decide)
  · exact (plainFile_of_all (by decide) : PlainFile ".chermkey") c extension

/-! ### What is seen -/

/-- Whose a connection is. -/
structure LinkSight where
  vault : VaultId
  me : String
  auth : Option ClientMsg

/-- What is seen of a link. -/
def ServerLink.sight (link : ServerLink) : LinkSight := ⟨link.vault, link.me, link.auth⟩

/-- `busy` is the vault on which a processor is at a frame. -/
structure Sight where
  generation : String → Nat
  servers : String → Option Server
  links : List LinkSight
  hand : Option Handle
  name : VaultId → Option String
  key : VaultId → Option String
  importing : Bool
  busy : Option VaultId

namespace EngineState

/-- The name in a vault. -/
def name (s : EngineState) (vault : VaultId) : Option String := (s.vaults vault).metaGet "username"

/-- The identity key in a vault. -/
def key (s : EngineState) (vault : VaultId) : Option String :=
  (s.vaults vault).account.map Device.ed25519B64

/-- An import is under way. -/
def importing (s : EngineState) : Bool := s.command.any EngineCommand.isImport

/-- What is seen of a state; the names and keys of its vaults only if this is strict. -/
def sight (strict : Bool) (s : EngineState) : Sight where
  generation := s.generation
  servers := s.servers
  links := s.links.map ServerLink.sight
  hand := s.hand
  name vault := if strict then s.name vault else none
  key vault := if strict then s.key vault else none
  importing := s.importing
  busy := none

end EngineState

namespace Sight

variable (l : Sight)

/-- Write the row of a server. -/
def putServer (server : String) (row : Option Server) : Sight :=
  { l with servers := Function.update l.servers server row }

/-- Open a server's vault, if it is not open. -/
def ensure (server : String) : Sight :=
  match l.servers server with
  | some _ => l
  | none => l.putServer server (some ⟨(server, l.generation server), none, none⟩)

/-- Let go of a server's link. -/
def teardown (server : String) : Sight :=
  match l.servers server with
  | none => l
  | some row => l.putServer server (some ⟨row.vault, none, none⟩)

/-- The links of some servers are dropped. -/
def prune (dead : Server → Bool) : Sight :=
  { l with servers := fun server =>
      Option.map (fun row => if dead row then ⟨row.vault, none, none⟩ else row) (l.servers server) }

/-- A link that is not yet stored is in the command's hand. -/
def spawn (vault : VaultId) (me : String) : Sight :=
  { l with links := l.links ++ [⟨vault, me, none⟩], hand := some l.links.length }

/-- The link in hand becomes the server's. -/
def storeLink (server : String) (conn : Handle) : Sight :=
  match l.servers server with
  | none => l
  | some row => { l.putServer server (some ⟨row.vault, some conn, some conn⟩) with hand := none }

/-- A link has sent its claim to a name. -/
def claimed (conn : Option Handle) (msg : ClientMsg) : Sight :=
  { l with links := (conn.elim l.links fun conn =>
      l.links.modify conn fun link => { link with auth := some msg }) }

/-- A vault has another name, which is seen only if this is strict. -/
def putName (strict : Bool) (vault : VaultId) (name : String) : Sight :=
  { l with name := Function.update l.name vault (if strict then some name else none) }

/-- A vault has another account, whose key is seen only if this is strict. -/
def putKey (strict : Bool) (vault : VaultId) (device : Device) : Sight :=
  { l with key := Function.update l.key vault (if strict then some device.ed25519B64 else none) }

/-- The server's vault is deleted; the next one has another number. -/
def deleted (server : String) : Sight :=
  let next := l.generation server + 1
  { l with
    generation := Function.update l.generation server next
    name := Function.update l.name (server, next) none
    key := Function.update l.key (server, next) none }

theorem putServer_self (server : String) (row : Option Server) :
    (l.putServer server row).servers server = row := Function.update_self ..

theorem putServer_of_ne {server other : String} (apart : other ≠ server) (row : Option Server) :
    (l.putServer server row).servers other = l.servers other := Function.update_of_ne apart ..

theorem putServer_putServer (server : String) (row row' : Option Server) :
    (l.putServer server row).putServer server row' = l.putServer server row' :=
  congrArg (fun servers => ({ l with servers := servers } : Sight)) (Function.update_idem ..)

/-- No link is stored for a server with this vault. -/
def Unlinked (vault : VaultId) : Prop :=
  ∀ server row, l.servers server = some row → row.vault = vault → row.link = none

/-- The vault of a server is one of its own. -/
def Named : Prop := ∀ server row, l.servers server = some row → row.vault.1 = server

end Sight

/-! ### What a command may do -/

/-- Where a request of the vault or of the world may be made. -/
def Ask.Permitted (strict : Bool) (l : Sight) (vault : VaultId) (conn : Option Handle) : Ask → Prop
  | .call (.saveAccount device) => strict = true →
      l.importing = true ∨ l.key vault = none ∨ l.key vault = some device.ed25519B64
  | .call (.metaSet key _) => key = "username" → strict = true → l.importing = true ∨
      l.Unlinked vault
  | .request (.register ..) => conn = l.hand
  | .request (.authFinish ..) => conn = l.hand
  | .writeBackup server username _ _ => strict = true → PlainFile (backupFile server username)
  | _ => True

/-- The relay registers the name that it was asked for. -/
def Ask.Echoes : (asked : Ask) → asked.Answer → Prop
  | .request (.register username ..), answer =>
      ∀ uuid uname, answer = .ok (.authOk uuid uname) → uname = username
  | _, _ => True

/-- What it does then. -/
def Ask.Follows (strict : Bool) (vault : VaultId) (conn : Option Handle) :
    (asked : Ask) → Sight → asked.Answer → Sight → Prop
  | .call .loadAccount, l, answer, l' =>
      l' = l ∧ (strict = true → l.key vault = Option.map Device.ed25519B64 answer)
  | .call (.metaGet key), l, answer, l' => l' = l ∧ (strict = true → key = "username" →
      l.name vault = answer)
  | .call (.saveAccount device), l, _, l' => l' = l.putKey strict vault device
  | .call (.metaSet key value), l, _, l' =>
      l' = if key = "username" then l.putName strict vault value else l
  | .request (.register username ed25519 curve25519 machineId), l, answer, l' =>
      l' = l.claimed conn (.register username ed25519 curve25519 machineId) ∧
        (strict = true → ∀ uuid uname, answer = .ok (.authOk uuid uname) → uname = username)
  | .request (.authFinish username signature), l, _, l' =>
      l' = l.claimed conn (.authFinish username signature)
  | _, l, _, l' => l' = l

/-- Where a step of the engine may be taken. -/
def Deed.Permitted (strict : Bool) (l : Sight) : Deed → Prop
  | .spawnReader vault _ addr => l.hand = none ∧ l.servers addr = some ⟨vault, none, none⟩
  | .storeLink server conn => l.hand = some conn ∧ ∃ link, l.links[conn]? = some link ∧
      l.servers server = some ⟨link.vault, none, none⟩ ∧
      (strict = true → OneIdentity (l.name link.vault) (l.key link.vault) link.me link.auth)
  | .removeDir server => l.servers server = none
  | .abort _ => True
  | _ => l.hand = none

/-- What it does then. -/
def Deed.Follows : (step : Deed) → Sight → step.Answer → Sight → Prop
  | .ensureServer server, l, answer, l' => l' = l.ensure server ∨ (∃ e, answer = .error e) ∧ l' = l
  | .vaultOf server, l, answer, l' =>
      answer = (l.servers server).elim (server, l.generation server) Server.vault ∧ l' = l
  | .pruneDeadLinks, l, _, l' => ∃ dead, l' = l.prune dead
  | .hasLink _, l, _, l' => l' = l
  | .teardownLink server, l, _, l' => l' = l.teardown server
  | .spawnReader vault me _, l, answer, l' => answer = l.links.length ∧ l' = l.spawn vault me
  | .abort _, l, _, l' => l' = l
  | .storeLink server conn, l, _, l' => l' = l.storeLink server conn
  | .forgetServer server, l, _, l' => l' = l.putServer server none
  | .removeDir server, l, _, l' => l' = l ∨ l' = l.deleted server

/-- The requests of the command task. -/
def commandSpec (strict : Bool) : Prog.Spec Sight EngineAsk EngineAsk.Answer where
  demand request l := match request with
    | .on vault conn asked => asked.Permitted strict l vault conn
    | .bare _ => True
    | .deed step => step.Permitted strict l
  step request l answer l' := match request, answer with
    | .on vault conn asked, answer => asked.Follows strict vault conn l answer l'
    | .bare _, _ => l' = l
    | .deed step, answer => step.Follows l answer l'

/-! ### Programs that change nothing of it -/

/-- Requests that no name, no key and no claim depends on. -/
def Ask.Calm : Ask → Prop
  | .call (.saveAccount _) => False
  | .call (.metaSet key _) => key ≠ "username"
  | .request (.register ..) => False
  | .request (.authFinish ..) => False
  | .writeBackup .. => False
  | _ => True

namespace Ask.Calm

variable {strict : Bool} {l : Sight} {vault : VaultId} {conn : Option Handle} {asked : Ask}

theorem permitted (calm : asked.Calm) : asked.Permitted strict l vault conn := by
  cases asked with
  | call op =>
      cases op with
      | saveAccount device => exact calm.elim
      | metaSet key value => exact fun same => absurd same calm
      | _ => trivial
  | request msg => cases msg <;> first | exact calm.elim | trivial
  | writeBackup server username uuid device => exact calm.elim
  | _ => trivial

theorem follows (calm : asked.Calm) {answer : asked.Answer} {l' : Sight}
    (made : asked.Follows strict vault conn l answer l') : l' = l := by
  cases asked with
  | call op =>
      cases op with
      | saveAccount device => exact calm.elim
      | metaSet key value =>
          have kept : l' = if key = "username" then l.putName strict vault value else l := made
          rwa [if_neg calm] at kept
      | loadAccount => exact made.1
      | metaGet key => exact made.1
      | _ => exact made
  | request msg => cases msg <;> first | exact calm.elim | exact made
  | writeBackup server username uuid device => exact calm.elim
  | _ => exact made

end Ask.Calm

namespace Engine

variable {strict : Bool} {l : Sight} {α β : Type}

theorem wp_calm {prog : Client α} (calls : Prog.Calls Ask.Calm prog) (vault : VaultId)
    (conn : Option Handle) {post : Except String α → Sight → Prop}
      (ends : ∀ result, post result l) :
    Prog.wp (commandSpec strict) post (within vault conn prog) l := by
  induction prog with
  | done value => exact ends _
  | fail error => exact ends _
  | ask asked next ih =>
      refine ⟨calls.1.permitted, fun answer l' made => ?_⟩
      obtain rfl := calls.1.follows made
      exact ih answer (calls.2 answer)

/-- A program that changes nothing, and then the rest. -/
theorem wp_calm_bind {prog : Client α} (calls : Prog.Calls Ask.Calm prog) (vault : VaultId)
    (conn : Option Handle) {next : α → Engine β}
    (rest : ∀ value, Prog.wp (commandSpec strict) (fun _ _ => True) (next value) l) :
    Prog.wp (commandSpec strict) (fun _ _ => True) ((within vault conn prog).bind next) l := by
  rw [Prog.wp_bind]
  refine wp_calm calls vault conn fun result => ?_
  cases result with
  | ok value => exact rest value
  | error e => trivial

theorem calm_meta {key : String} (apart : key ≠ "username") (value : String) :
    Prog.Calls Ask.Calm (Client.call (.metaSet key value)) := ⟨apart, fun _ => trivial⟩

theorem calm_contact (username uuid ed25519 curve25519 : String) :
    Prog.Calls Ask.Calm (Client.call (.upsertContact username uuid ed25519 curve25519)) :=
  ⟨trivial, fun _ => trivial⟩

theorem calm_emit (event : Event) : Prog.Calls Ask.Calm (Client.emit event) :=
  ⟨trivial, fun _ => trivial⟩

theorem wp_bare {prog : Client α} {post : Except String α → Sight → Prop}
    (ends : ∀ result, post result l) : Prog.wp (commandSpec strict) post (bare prog) l := by
  induction prog with
  | done value => exact ends _
  | fail error => exact ends _
  | ask asked next ih =>
      refine ⟨trivial, fun answer l' made => ?_⟩
      obtain rfl : l' = l := made
      exact ih answer

theorem wp_bare_bind {prog : Client α} {next : α → Engine β}
    (rest : ∀ value, Prog.wp (commandSpec strict) (fun _ _ => True) (next value) l) :
    Prog.wp (commandSpec strict) (fun _ _ => True) ((bare prog).bind next) l := by
  rw [Prog.wp_bind]
  refine wp_bare fun result => ?_
  cases result with
  | ok value => exact rest value
  | error e => trivial

/-! ### Opening a vault and a connection -/

/-- No connection is in hand, and the vaults are in order. -/
structure Ready (l : Sight) : Prop where
  hand : l.hand = none
  named : l.Named

theorem ensure_named {l : Sight} (named : l.Named) (server : String) : (l.ensure server).Named := by
  unfold Sight.ensure
  split
  · exact named
  · intro other row found
    by_cases same : other = server
    · subst same
      rw [Sight.putServer_self] at found
      obtain rfl := Option.some.inj found
      rfl
    · rw [Sight.putServer_of_ne l same] at found
      exact named other row found

theorem ensure_found (l : Sight) (server : String) :
    ∃ row, (l.ensure server).servers server = some row := by
  unfold Sight.ensure
  split
  · exact ⟨_, ‹_›⟩
  · exact ⟨_, Sight.putServer_self ..⟩

theorem ensure_ready (ready : Ready l) (server : String) :
    Ready (l.ensure server) ∧ (l.ensure server).importing = l.importing := by
  have hand : (l.ensure server).hand = l.hand := by unfold Sight.ensure; split <;> rfl
  have importing : (l.ensure server).importing = l.importing := by
    unfold Sight.ensure; split <;> rfl
  exact ⟨⟨hand.trans ready.hand, ensure_named ready.named server⟩, importing⟩

/-- A server is made sure of; an error ends the command. -/
theorem wp_ensureServer_bind (server : String) {next : Unit → Engine α} (hand : l.hand = none)
    (rest : Prog.wp (commandSpec strict) (fun _ _ => True) (next ()) (l.ensure server)) :
    Prog.wp (commandSpec strict) (fun _ _ => True) ((ensureServer server).bind next) l := by
  refine ⟨hand, fun answer l' made => ?_⟩
  cases answer with
  | error e => trivial
  | ok _ =>
      rcases made with rfl | ⟨⟨e, failed⟩, _⟩
      · exact rest
      · cases failed

/-- A command opens the vault of its server. -/
theorem wp_openVault (server : String) {next : VaultId → Engine α} (ready : Ready l)
    (rest : ∀ l' row, Ready l' → l'.importing = l.importing → l'.servers server = some row →
      Prog.wp (commandSpec strict) (fun _ _ => True) (next row.vault) l') :
    Prog.wp (commandSpec strict) (fun _ _ => True)
      ((ensureServer server).bind fun _ => (deed (.vaultOf server)).bind next) l := by
  obtain ⟨ready', importing⟩ := ensure_ready ready server
  obtain ⟨row, found⟩ := ensure_found l server
  refine wp_ensureServer_bind server ready.hand ⟨ready'.hand, ?_⟩
  rintro vault _ ⟨rfl, rfl⟩
  rw [found]
  exact rest _ row ready' importing found

/-- The connection in hand: to which server it leads, on which vault and for whom its processor
runs, and what it has claimed. -/
structure InHand (l : Sight) (server : String) (conn : Handle) (link : LinkSight) : Prop where
  hand : l.hand = some conn
  found : l.links[conn]? = some link
  row : l.servers server = some ⟨link.vault, none, none⟩
  named : l.Named

/-- While a connection is in hand, its vault has no link. -/
theorem InHand.unlinked {server : String} {conn : Handle} {link : LinkSight}
    (inHand : InHand l server conn link) : l.Unlinked link.vault := by
  intro other row found same
  have here := inHand.named server _ inHand.row
  have there := inHand.named other row found
  rw [same] at there
  obtain rfl : other = server := there.symm.trans here
  rw [inHand.row] at found
  obtain rfl := Option.some.inj found
  rfl

/-- The old link is torn down, a connection is opened, and its reader is started. -/
theorem wp_openConnection {server : String} {row : Server} (ready : Ready l)
    (found : l.servers server = some row) (username : String) {next : Handle → Engine Unit}
    (rest : ∀ l' conn, InHand l' server conn ⟨row.vault, username, none⟩ → l'.name = l.name →
      l'.key = l.key → Prog.wp (commandSpec strict) (fun _ _ => True) (next conn) l') :
    Prog.wp (commandSpec strict) (fun _ _ => True) ((deed (.teardownLink server)).bind fun _ =>
      (within row.vault none (Client.openLink server)).bind fun opened =>
        if !opened then pure () else (deed (.spawnReader row.vault username server)).bind
          next) l := by
  refine ⟨ready.hand, ?_⟩
  rintro _ l' torn
  have same : l' = l.putServer server (some ⟨row.vault, none, none⟩) := by
    rw [show l' = l.teardown server from torn, Sight.teardown, found]
  have calm : Prog.Calls Ask.Calm (Client.openLink server) := by
    refine ⟨trivial, fun answer => ?_⟩
    cases answer with
    | ok _ => trivial
    | error e => exact ⟨trivial, fun _ => trivial⟩
  have alone : l'.servers server = some ⟨row.vault, none, none⟩ := by
    rw [same]
    exact Sight.putServer_self ..
  have named : l'.Named := by
    intro other row' found'
    by_cases here : other = server
    · subst here
      rw [alone] at found'
      obtain rfl := Option.some.inj found'
      exact ready.named _ row found
    · rw [same, Sight.putServer_of_ne l here] at found'
      exact ready.named other row' found'
  have hand : l'.hand = none := by
    rw [same]
    exact ready.hand
  refine wp_calm_bind calm row.vault none fun opened => ?_
  cases opened with
  | false => trivial
  | true =>
      refine ⟨⟨hand, alone⟩, ?_⟩
      rintro conn l'' ⟨rfl, rfl⟩
      refine rest _ _ ⟨rfl, ?_, alone, named⟩ (by rw [same]; rfl) (by rw [same]; rfl)
      show (l'.links ++ [_])[l'.links.length]? = _
      simp

/-! ### The identity -/

section

variable {server : String} {conn : Handle} {link : LinkSight} {device : Device}

/-- The keys of the account are in place. -/
def HoldsKey (strict : Bool) (l : Sight) (vault : VaultId) (device : Device) : Prop :=
  strict = true → l.key vault = some device.ed25519B64

theorem putKey_holds (l : Sight) (vault : VaultId) (device : Device) :
    HoldsKey strict (l.putKey strict vault device) vault device := by
  rintro rfl
  exact Function.update_self ..

/-- One request, and then the rest. -/
theorem wp_on_bind (vault : VaultId) (conn : Option Handle) (asked : Ask)
    {next : asked.Answer → Engine β}
    {post : Except String β → Sight → Prop} :
    Prog.wp (commandSpec strict) post ((within vault conn (Prog.query asked)).bind next) l ↔
      asked.Permitted strict l vault conn ∧ ∀ answer l',
      asked.Follows strict vault conn l answer l' →
        Prog.wp (commandSpec strict) post (next answer) l' := Iff.rfl

theorem within_bind (vault : VaultId) (conn : Option Handle) (prog : Client α)
    (next : α → Client β) :
    within vault conn (prog.bind next) =
      (within vault conn prog).bind fun value => within vault conn (next value) :=
  Prog.interpret_bind _ prog next

/-- The device of `register` is the stored one. -/
theorem wp_ensureDevice (vault : VaultId) {next : Device → Engine Unit}
    (rest : ∀ (device : Device) key, HoldsKey strict { l with key := key } vault device →
      Prog.wp (commandSpec strict) (fun _ _ => True) (next device) { l with key := key }) :
    Prog.wp (commandSpec strict) (fun _ _ => True) ((within vault none ensureDevice).bind
      next) l := by
  unfold ensureDevice
  rw [Prog.bind_eq, within_bind, Prog.bind_assoc]
  refine (wp_on_bind vault none (.call .loadAccount)).mpr ⟨trivial, ?_⟩
  rintro stored l ⟨rfl, known⟩
  cases stored with
  | some device => exact rest device l.key known
  | none =>
      refine ⟨trivial, ?_⟩
      rintro seed l rfl
      refine ⟨fun strict => .inr (.inl (known strict)), ?_⟩
      rintro _ _ rfl
      exact rest (Device.generate seed) _ (putKey_holds l vault _)

/-- One-time keys are no part of the identity. -/
theorem replenished_key [LawfulAccounts] (device : Device) (n : Nat) (seed : Seed) :
    (device.generateOneTimeKeys n seed).1.markPublished.ed25519B64 = device.ed25519B64 := by
  show keyToBase64 (ed25519Key (markKeysAsPublished (Crates.generateOneTimeKeys device n seed))) = _
  rw [LawfulAccounts.markKeysAsPublished_key, LawfulAccounts.generateOneTimeKeys_key]
  rfl

/-- Replenishing saves the identity that is stored. -/
theorem wp_replenish (lawful : strict = true → LawfulAccounts) (vault : VaultId)
    (conn : Option Handle)
    (holds : HoldsKey strict l vault device) {next : Device × List OneTimeKey → Engine β}
    {post : Except String β → Sight → Prop}
    (rest : ∀ fresh key, HoldsKey strict { l with key := key } vault device →
      Prog.wp (commandSpec strict) post (next fresh) { l with key := key }) :
    Prog.wp (commandSpec strict) post ((within vault conn (Client.replenish device)).bind
      next) l := by
  refine ⟨trivial, ?_⟩
  rintro seed l rfl
  have same : strict = true →
      (device.generateOneTimeKeys prekeyBatch seed).1.markPublished.ed25519B64 =
        device.ed25519B64 := by
    intro isStrict
    have := lawful isStrict
    exact replenished_key device prekeyBatch seed
  refine ⟨fun isStrict => .inr (.inr ((holds isStrict).trans
    (congrArg some (same isStrict).symm))), ?_⟩
  rintro _ _ rfl
  refine rest _ _ fun isStrict => ?_
  rw [← same isStrict]
  exact putKey_holds l vault _ isStrict

/-- What `register` stores is what it has claimed. -/
theorem wp_keepIdentity (lawful : strict = true → LawfulAccounts)
    (inHand : InHand l server conn link)
    (holds : HoldsKey strict l link.vault device) {uname : String}
    (plain : strict = true → PlainFile (backupFile server uname)) (uuid : String)
    {next : List OneTimeKey → Engine Unit}
    (rest : ∀ otks l', InHand l' server conn link → HoldsKey strict l' link.vault device →
      (strict = true → l'.name link.vault = some uname) →
      Prog.wp (commandSpec strict) (fun _ _ => True) (next otks) l') :
    Prog.wp (commandSpec strict) (fun _ _ => True)
      ((within link.vault conn (keepIdentity server uname uuid device)).bind next) l := by
  unfold keepIdentity
  simp only [Prog.bind_eq, within_bind, Prog.bind_assoc]
  refine (wp_on_bind link.vault conn (.call (.metaSet "username" uname))).mpr
    ⟨fun _ _ => .inr inHand.unlinked, ?_⟩
  rintro _ _ rfl
  rw [if_pos rfl]
  refine wp_calm_bind (calm_meta (by decide) uuid) _ _ fun _ => ?_
  refine wp_calm_bind (calm_meta (by decide) server) _ _ fun _ => ?_
  refine wp_calm_bind (calm_contact uname uuid _ _) _ _ fun _ => ?_
  have still : HoldsKey strict (l.putName strict link.vault uname) link.vault device := holds
  refine wp_replenish lawful link.vault conn still fun fresh key holds' => ?_
  refine (wp_on_bind link.vault conn (.writeBackup server uname uuid fresh.1)).mpr ⟨plain, ?_⟩
  rintro written _ rfl
  have named : strict = true → (l.putName strict link.vault uname).name link.vault = some
      uname := by
    rintro rfl
    exact Function.update_self ..
  have finish := fun otks => rest otks { l.putName strict link.vault uname with key := key }
    ⟨inHand.hand, inHand.found, inHand.row, inHand.named⟩ holds' named
  cases written with
  | error e => exact finish _
  | ok path =>
      refine ⟨trivial, ?_⟩
      rintro _ _ rfl
      exact finish _

/-- A request to the relay, and then the rest; an error ends the command. -/
theorem wp_request_bind (vault : VaultId) (conn : Option Handle) (msg : ClientMsg)
    {next : ServerMsg → Engine Unit} (permitted : (Ask.request msg).Permitted strict l vault conn)
    (rest : ∀ reply l', (Ask.request msg).Follows strict vault conn l (.ok reply) l' →
      Prog.wp (commandSpec strict) (fun _ _ => True) (next reply) l') :
    Prog.wp (commandSpec strict) (fun _ _ => True)
      ((within vault conn (Client.request msg)).bind next) l := by
  refine ⟨permitted, fun answer l' made => ?_⟩
  cases answer with
  | error e => trivial
  | ok reply => exact rest reply l' made

/-- After the message that claims a name. -/
theorem InHand.claimed (inHand : InHand l server conn link) (msg : ClientMsg) :
    InHand (l.claimed conn msg) server conn { link with auth := some msg } := by
  refine ⟨inHand.hand, ?_, inHand.row, inHand.named⟩
  show (l.links.modify conn _)[conn]? = _
  rw [List.getElem?_modify, inHand.found]
  simp

/-- The connection in hand becomes the link of its server. -/
theorem wp_storeLink_bind (inHand : InHand l server conn link)
    (identity : strict = true → OneIdentity (l.name link.vault) (l.key link.vault) link.me
      link.auth)
    {next : Unit → Engine Unit}
    (rest : ∀ l', Prog.wp (commandSpec strict) (fun _ _ => True) (next ()) l') :
    Prog.wp (commandSpec strict) (fun _ _ => True) ((deed (.storeLink server conn)).bind next) l :=
  ⟨⟨inHand.hand, link, inHand.found, inHand.row, identity⟩, fun _ l' _ => rest l'⟩

theorem calm_hello (app : App) :
    Prog.Calls Ask.Calm (Client.request (Client.clientHello app)).attempt :=
  (show Prog.Calls Ask.Calm (Client.request (Client.clientHello app)) from
    ⟨trivial, fun _ => Prog.calls_ofExcept _⟩).attempt

theorem calm_goLive (otks : List OneTimeKey) : Prog.Calls Ask.Calm (Client.goLive otks) := by
  have publish : Prog.Calls Ask.Calm (Client.request (.publishPrekeys otks)).attempt :=
    (show Prog.Calls Ask.Calm (Client.request (.publishPrekeys otks)) from
      ⟨trivial, fun _ => Prog.calls_ofExcept _⟩).attempt
  have pull : Prog.Calls Ask.Calm (Client.post .pull).attempt :=
    (show Prog.Calls Ask.Calm (Client.post .pull) from
      ⟨trivial, fun _ => Prog.calls_ofExcept _⟩).attempt
  exact publish.bind fun _ => pull.bind fun _ => ⟨trivial, fun _ => Prog.calls_ofExcept _⟩

theorem calm_emitChats (server : String) : Prog.Calls Ask.Calm (Client.emitChats server) :=
  ⟨trivial, fun _ => calm_emit _⟩

theorem calm_greet (server uname : String) : Prog.Calls Ask.Calm (greet server uname) :=
  (calm_emit _).bind fun _ => (calm_emitChats server).bind fun _ => calm_emit _

theorem calm_announce (server uname uuid : String) : Prog.Calls Ask.Calm
    (announce server uname uuid) :=
  (calm_emit _).bind fun _ => calm_greet server uname

/-- After a refusal the reader is aborted. -/
theorem wp_giveUp {vault : VaultId} (code message : String) {next : Option α → Engine Unit}
    (rest : ∀ l', Prog.wp (commandSpec strict) (fun _ _ => True) (next none) l') :
    Prog.wp (commandSpec strict) (fun _ _ => True)
      ((giveUp vault conn code message : Engine (Option α)).bind next) l := by
  refine ⟨trivial, fun _ l' _ => ?_⟩
  show Prog.wp _ _ ((within vault conn (Client.emit (.error code message))).bind fun _ =>
    next none) l'
  exact wp_calm_bind (calm_emit _) _ _ fun _ => rest l'

theorem wp_claimName (lawful : strict = true → LawfulAccounts) (app : App) {row : Server}
    (ready : Ready l) (found : l.servers server = some row)
      (holds : HoldsKey strict l row.vault device)
    {username : String} (valid : validUsername username = true) :
    Prog.wp (commandSpec strict) (fun _ _ => True) (claimName app server username row.vault
      device) l := by
  unfold claimName
  refine wp_openConnection ready found username fun l' conn inHand _ keys => ?_
  refine wp_calm_bind (calm_hello app) _ _ fun _ => ?_
  refine wp_request_bind row.vault conn (.register username device.ed25519B64 device.curve25519B64
    app.machineId) inHand.hand.symm fun reply l'' made => ?_
  obtain ⟨rfl, echoed⟩ := made
  cases reply with
  | authOk uuid uname =>
      have same : strict = true → uname = username := fun isStrict => echoed isStrict uuid uname rfl
      have holds' : HoldsKey strict (l'.claimed conn (.register username device.ed25519B64
          device.curve25519B64 app.machineId)) row.vault device := by
        intro isStrict
        show l'.key row.vault = _
        rw [keys]
        exact holds isStrict
      refine wp_keepIdentity lawful (inHand.claimed _) holds' (fun isStrict => ?_) uuid
        fun otks l₃ inHand' holds₃ named => ?_
      · rw [same isStrict]
        exact backupFile_plain server valid
      refine wp_storeLink_bind inHand' (fun isStrict => ?_) fun l₄ => ?_
      · rw [named isStrict, same isStrict, holds₃ isStrict]
        exact ⟨rfl, _, _, rfl, rfl, rfl, rfl⟩
      exact wp_calm_bind (calm_goLive otks) _ _ fun _ =>
        wp_calm (calm_announce server uname uuid) _ _ fun _ => trivial
  | _ => exact ⟨trivial, fun _ _ _ => wp_calm (calm_emit _) _ _ fun _ => trivial⟩

theorem wp_register (lawful : strict = true → LawfulAccounts) (app : App) (addr username : String)
    (ready : Ready l) :
    Prog.wp (commandSpec strict) (fun _ _ => True) (register app addr username) l := by
  unfold register
  dsimp only
  split
  · exact wp_bare_bind fun _ => trivial
  next valid =>
  split
  · exact wp_bare_bind fun _ => trivial
  refine wp_openVault (normalizeAddr addr) ready fun l' row ready' _ found => ?_
  refine wp_ensureDevice row.vault fun device key holds => ?_
  have still : Ready { l' with key := key } := ⟨ready'.hand, ready'.named⟩
  exact wp_claimName lawful app still found holds (by simpa using valid)

theorem wp_challengeNonce (vault : VaultId) (conn : Handle) (username : String)
    {next : Option Bytes → Engine Unit}
    (rest : ∀ nonce, Prog.wp (commandSpec strict) (fun _ _ => True) (next (some nonce)) l)
    (given : ∀ l', Prog.wp (commandSpec strict) (fun _ _ => True) (next none) l') :
    Prog.wp (commandSpec strict) (fun _ _ => True) ((challengeNonce vault conn username).bind
      next) l := by
  unfold challengeNonce
  rw [Prog.bind_eq, Prog.bind_assoc]
  refine wp_request_bind vault conn (.authBegin username) trivial ?_
  rintro reply l rfl
  cases reply with
  | challenge nonce =>
      dsimp only
      cases b64Decode nonce with
      | ok bytes => exact rest bytes
      | error e => exact wp_giveUp _ _ given
  | _ => exact wp_giveUp _ _ given

theorem wp_authenticate (inHand : InHand l server conn link) (device : Device) (username : String)
    (nonce : Bytes) {next : Option (String × String) → Engine Unit}
    (rest : ∀ identity l', l'.name = l.name → l'.key = l.key →
      InHand l' server conn { link with auth := some (.authFinish username
      (device.signB64 nonce)) } →
      Prog.wp (commandSpec strict) (fun _ _ => True) (next (some identity)) l')
    (given : ∀ l', Prog.wp (commandSpec strict) (fun _ _ => True) (next none) l') :
    Prog.wp (commandSpec strict) (fun _ _ => True)
      ((authenticate link.vault conn device username nonce).bind next) l := by
  unfold authenticate
  rw [Prog.bind_eq, Prog.bind_assoc]
  refine wp_request_bind link.vault conn (.authFinish username (device.signB64 nonce))
    inHand.hand.symm ?_
  rintro reply _ rfl
  cases reply with
  | authOk uuid uname => exact rest (uuid, uname) _ rfl rfl (inHand.claimed _)
  | _ => exact wp_giveUp _ _ given

theorem wp_renewKeys (lawful : strict = true → LawfulAccounts) (vault : VaultId)
    (conn : Option Handle)
    (holds : HoldsKey strict l vault device) (uuid : String) {next : List OneTimeKey → Engine Unit}
    (rest : ∀ otks key, HoldsKey strict { l with key := key } vault device →
      Prog.wp (commandSpec strict) (fun _ _ => True) (next otks) { l with key := key }) :
    Prog.wp (commandSpec strict) (fun _ _ => True)
      ((within vault conn (renewKeys server uuid device)).bind next) l := by
  unfold renewKeys
  simp only [Prog.bind_eq, within_bind, Prog.bind_assoc]
  refine wp_calm_bind (calm_meta (by decide) uuid) _ _ fun _ => ?_
  refine wp_calm_bind (calm_meta (by decide) server) _ _ fun _ => ?_
  exact wp_replenish lawful vault conn holds fun fresh key holds' => rest fresh.2 key holds'

theorem wp_connect (lawful : strict = true → LawfulAccounts) (app : App) (addr : String)
    (ready : Ready l) : Prog.wp (commandSpec strict) (fun _ _ => True) (connect app addr) l := by
  unfold connect
  dsimp only
  refine wp_openVault (normalizeAddr addr) ready fun l row ready _ found => ?_
  refine (wp_on_bind row.vault none (.call (.metaGet "username"))).mpr ⟨trivial, ?_⟩
  rintro username l ⟨rfl, known⟩
  cases username with
  | none => exact wp_calm (calm_emit _) _ _ fun _ => trivial
  | some username =>
      have name : strict = true → l.name row.vault = some username := fun isStrict =>
          known isStrict rfl
      refine (wp_on_bind row.vault none (.call .loadAccount)).mpr ⟨trivial, ?_⟩
      rintro device l ⟨rfl, holds⟩
      cases device with
      | none => exact wp_calm (calm_emit _) _ _ fun _ => trivial
      | some device =>
          refine wp_openConnection ready found username fun l' conn inHand names keys => ?_
          refine wp_calm_bind (calm_hello app) _ _ fun _ => ?_
          refine wp_challengeNonce row.vault conn username (fun nonce => ?_) fun _ => trivial
          refine wp_authenticate inHand device username nonce
            (fun identity l₂ names₂ keys₂ inHand₂ => ?_)
            fun _ => trivial
          have holds₂ : HoldsKey strict l₂ row.vault device := by
            intro isStrict
            rw [keys₂, keys]
            exact holds isStrict
          refine wp_renewKeys lawful row.vault conn holds₂ identity.1 fun otks key holds₃ => ?_
          have inHand₃ : InHand { l₂ with key := key } (normalizeAddr addr) conn
              ⟨row.vault, username,
              some (.authFinish username (device.signB64 nonce))⟩ :=
            ⟨inHand₂.hand, inHand₂.found, inHand₂.row, inHand₂.named⟩
          refine wp_storeLink_bind inHand₃ (fun isStrict => ?_) fun l₄ => ?_
          · refine ⟨?_, _, device.ed25519B64, rfl, rfl, holds₃ isStrict, device, nonce, rfl, rfl⟩
            show l₂.name row.vault = some username
            rw [names₂, names]
            exact name isStrict
          exact wp_calm_bind (calm_goLive otks) _ _ fun _ =>
            wp_calm (calm_greet (normalizeAddr addr) identity.2) _ _ fun _ => trivial

theorem prune_ready (ready : Ready l) (dead : Server → Bool) : Ready (l.prune dead) := by
  refine ⟨ready.hand, fun server row found => ?_⟩
  obtain ⟨row', found', rfl⟩ := Option.map_eq_some_iff.mp found
  have named := ready.named server row' found'
  split <;> exact named

theorem wp_switchServer (lawful : strict = true → LawfulAccounts) (app : App) (addr : String)
    (ready : Ready l) : Prog.wp (commandSpec strict) (fun _ _ => True)
      (switchServer app addr) l := by
  unfold switchServer
  dsimp only
  obtain ⟨ready', _⟩ := ensure_ready ready (normalizeAddr addr)
  refine wp_ensureServer_bind (normalizeAddr addr) ready.hand ⟨ready'.hand, ?_⟩
  rintro _ _ ⟨dead, rfl⟩
  have pruned := prune_ready ready' dead
  refine ⟨pruned.hand, ?_⟩
  rintro linked l rfl
  refine ⟨pruned.hand, ?_⟩
  rintro vault l ⟨_, rfl⟩
  have chats := (calm_emitChats (normalizeAddr addr)).bind fun _ => calm_emit Event.servers
  cases linked with
  | true => exact wp_calm chats _ _ fun _ => trivial
  | false =>
      refine (wp_on_bind vault none (.call (.metaGet "username"))).mpr ⟨trivial, ?_⟩
      rintro username l ⟨rfl, _⟩
      cases username with
      | some username => exact wp_connect lawful app _ pruned
      | none => exact wp_calm ((calm_emit _).bind fun _ => chats) _ _ fun _ => trivial

theorem wp_removeServer (addr : String) (ready : Ready l) :
    Prog.wp (commandSpec strict) (fun _ _ => True) (removeServer addr) l := by
  unfold removeServer
  refine ⟨ready.hand, ?_⟩
  rintro _ _ rfl
  refine wp_bare_bind fun _ => ⟨Sight.putServer_self .., fun _ l' _ => ?_⟩
  exact wp_bare fun _ => trivial

theorem wp_storeImport (vault : VaultId) (importing : l.importing = true) (username uuid : String) :
    Prog.wp (commandSpec strict) (fun _ _ => True)
      (within vault none (storeImport server username uuid device)) l := by
  have rest : Prog.Calls Ask.Calm (do
      Client.call (.upsertContact username uuid device.ed25519B64 device.curve25519B64)
      Client.lift (← Prog.query Ask.saveIndex)
      Client.emit (.info ("identity '" ++ username ++ "' imported on " ++ server ++
        " — select it and Connect to log in"))
      Client.emit .servers) :=
    (calm_contact ..).bind fun _ => ⟨trivial, fun stored =>
      (Prog.calls_ofExcept stored).bind fun _ =>
      (calm_emit _).bind fun _ => calm_emit _⟩
  refine ⟨fun _ => .inl importing, ?_⟩
  rintro _ _ rfl
  refine ⟨fun _ _ => .inl importing, ?_⟩
  rintro _ l' _
  refine wp_calm ((calm_meta (by decide) server).bind fun _ => ?_) vault none fun _ => trivial
  split
  · exact (calm_meta (by decide) uuid).bind fun _ => rest
  · exact rest

theorem wp_importIdentity (path : String) (ready : Ready l) (importing : l.importing = true) :
    Prog.wp (commandSpec strict) (fun _ _ => True) (importIdentity path) l := by
  unfold importIdentity
  refine wp_bare_bind fun data => ?_
  cases data with
  | error e => exact wp_bare fun _ => trivial
  | ok data =>
      dsimp only
      cases fromSlice (utf8 data) with
      | error e => exact wp_bare fun _ => trivial
      | ok v =>
          dsimp only
          generalize normalizeAddr (((v.index "server").asStr).getD "") = server
          split
          · exact wp_bare_bind fun _ => trivial
          cases accountFromJson (((v.index "account").asStr).getD "") with
          | error e => exact wp_bare fun _ => trivial
          | ok device =>
              refine wp_openVault server ready fun l' row _ same _ => ?_
              exact wp_storeImport row.vault (same.trans importing) _ _

theorem wp_handle (lawful : strict = true → LawfulAccounts) (app : App) (command : EngineCommand)
    (ready : Ready l) (importing : l.importing = command.isImport) :
    Prog.wp (commandSpec strict) (fun _ _ => True) (handle app command) l := by
  cases command with
  | register server username => exact wp_register lawful app server username ready
  | connect server => exact wp_connect lawful app server ready
  | switchServer server => exact wp_switchServer lawful app server ready
  | removeServer server => exact wp_removeServer server ready
  | importIdentity path => exact wp_importIdentity path ready importing

/-- **Every command** takes care of the connections, and with `strict` of the identities. -/
theorem wp_runCommand (lawful : strict = true → LawfulAccounts) (app : App)
    (command : EngineCommand)
    (ready : Ready l) (importing : l.importing = command.isImport) :
    Prog.wp (commandSpec strict) (fun _ _ => True) (runCommand app command) l := by
  unfold runCommand
  refine ⟨ready.hand, ?_⟩
  rintro _ _ ⟨dead, rfl⟩
  show Prog.wp _ _ ((handle app command).attempt.bind commandEnd) _
  rw [Prog.wp_bind, Prog.wp_attempt]
  refine Prog.wp_mono (fun result l' _ => ?_) (wp_handle lawful app command (prune_ready ready dead)
    importing)
  cases result with
  | ok _ => trivial
  | error e => exact wp_bare fun _ => trivial

end

end Engine

end

end Cherm
