/-
**The engine's state: servers, connections and the tasks that serve them.**

* `EngineState` is the state, `Deed.effect` and `EngineAsk.effect` say what a request does to it.
* `engine` is the crew: the command task, the processor of every connection, and the readers, which
  push what the relay delivers and end when the connection does.

A connection goes on when the command that opened it returns early: the handle of its reader is
dropped, and that does not stop it. A processor goes on when its reader has ended, as long as there
are frames in its queue. An aborted reader is cancelled where it waits next, so it may still route
what it has read.
-/

import Cherm.Client.Engine
import Cherm.Client.Processor
import Cherm.Client.Reader
import Cherm.Lib.Crew

namespace Cherm

open Crates

/-- An opened server: its vault, and the link and the reader of its connection. -/
structure Server where
  vault : VaultId
  link : Option Handle
  reader : Option Handle
deriving DecidableEq, Repr

/-- What a reader is doing. -/
inductive ReaderState where
  | running
  | aborted
  | ended
deriving DecidableEq, Repr

/-- A connection: the reader's state, what the processor has to do, and the message that claimed a
name. -/
structure ServerLink where
  vault : VaultId
  me : String
  addr : String
  reader : ReaderState
  queue : List Incoming
  busy : Bool
  auth : Option ClientMsg
deriving DecidableEq

namespace ServerLink

/-- `AbortHandle::abort` of the reader. -/
def abort (link : ServerLink) : ServerLink :=
  if link.reader = .running then { link with reader := .aborted } else link

/-- The processor can still apply a delivered frame: it is at one, has one, or may get one. -/
def CanApply (link : ServerLink) : Prop :=
  link.busy = true ∨ link.queue ≠ [] ∨ link.reader = .running

instance (link : ServerLink) : Decidable link.CanApply :=
  inferInstanceAs (Decidable (_ ∨ _ ∨ _))

end ServerLink

/-- Two hexadecimal digits. -/
def hexByte (b : UInt8) : List Char :=
  let digits := "0123456789abcdef".toList
  [digits.getD (b.toNat / 16) '0', digits.getD (b.toNat % 16) '0']

section

variable [Crates]

/-- The name of a server's directory. -/
def serverId (addr : String) : String :=
  String.ofList (((blake3 (utf8 addr)).take 16).flatMap hexByte)

/-- The file of a backup, below `identity-backups`. -/
def backupFile (server username : String) : String :=
  serverId server ++ "_" ++ username ++ ".chermkey"

/-- The engine's state. `hand` is the reader's handle that the running command has not stored yet.
-/
structure EngineState where
  generation : String → Nat
  vaults : VaultId → Vault
  servers : String → Option Server
  links : List ServerLink
  hand : Option Handle
  command : Option EngineCommand
  backups : List String

namespace EngineState

/-- The engine at its start: the vaults are the files it finds. -/
def start (vaults : VaultId → Vault) : EngineState where
  generation := fun _ => 0
  vaults := vaults
  servers := fun _ => none
  links := []
  hand := none
  command := none
  backups := []

variable (s : EngineState)

/-- Abort the reader of a link. -/
def abort (conn : Handle) : EngineState := { s with links := s.links.modify conn ServerLink.abort }

/-- Write the row of a server. -/
def putServer (server : String) (row : Option Server) : EngineState :=
  { s with servers := Function.update s.servers server row }

/-- Open a server's vault, if it is not open. -/
def ensure (server : String) : EngineState :=
  match s.servers server with
  | some _ => s
  | none => s.putServer server (some ⟨(server, s.generation server), none, none⟩)

/-- The reader that is stored for a server. -/
def stored (server : String) : Option Handle := (s.servers server).bind Server.reader

/-- Let go of a server's link; its reader is aborted. -/
def teardown (server : String) : EngineState :=
  match s.servers server with
  | none => s
  | some row => ((s.stored server).elim s s.abort).putServer server (some ⟨row.vault, none, none⟩)

/-- `is_finished` of the reader. -/
def finished (conn : Handle) : Bool := s.links[conn]?.elim true fun link => link.reader = .ended

/-- A server without the link whose reader has finished. -/
def pruned (row : Server) : Server :=
  if row.reader.any s.finished then ⟨row.vault, none, none⟩ else row

/-- No server has a link whose reader has finished. -/
def prune : EngineState := { s with servers := fun server => (s.servers server).map s.pruned }

/-- Start a reader and a processor. -/
def spawn (vault : VaultId) (me addr : String) : EngineState :=
  { s with
    links := s.links ++ [⟨vault, me, addr, .running, [], false, none⟩]
    hand := some s.links.length }

/-- The link becomes the server's; the reader of an earlier one is aborted. -/
def storeLink (server : String) (conn : Handle) : EngineState :=
  match s.servers server with
  | none => s
  | some row =>
      { s.putServer server (some ⟨row.vault, some conn, some conn⟩) with hand := none }

/-- The directory of a server is gone: the next vault is a new one. -/
def deleted (server : String) : EngineState :=
  let next := s.generation server + 1
  { s with
    generation := Function.update s.generation server next
    vaults := Function.update s.vaults (server, next) Vault.empty }

/-- A link claims a name by the message it sends. -/
def claimed (conn : Option Handle) : ClientMsg → EngineState
  | .register username ed25519 curve25519 machineId =>
      { s with links := (conn.elim s.links fun conn =>
          s.links.modify conn fun link =>
            { link with auth := some (.register username ed25519 curve25519 machineId) }) }
  | .authFinish username signature =>
      { s with links := (conn.elim s.links fun conn =>
          s.links.modify conn fun link =>
            { link with auth := some (.authFinish username signature) }) }
  | _ => s

/-- What a request of a task leaves beside the vault: the claim of a name, and the file of a backup.
-/
def noted (conn : Option Handle) : (asked : Ask) → asked.Answer → EngineState
  | .request msg, _ => s.claimed conn msg
  | .writeBackup server username _ _, .ok _ =>
      { s with backups := backupFile server username :: s.backups }
  | _, _ => s

/-- Write a vault. -/
def putVault (vault : VaultId) (v : Vault) : EngineState :=
  { s with vaults := Function.update s.vaults vault v }

end EngineState

/-! ### What the requests do -/

/-- What a deed does, and how it is answered. To open a vault, to store the index and to delete a
directory may fail. -/
def Deed.effect : (step : Deed) → EngineState → step.Answer → EngineState → Prop
  | .ensureServer server, s, answer, s' => s' = s.ensure server ∨ (∃ e, answer = .error e) ∧ s' = s
  | .vaultOf server, s, answer, s' =>
      answer = (s.servers server).elim (server, s.generation server) Server.vault ∧ s' = s
  | .pruneDeadLinks, s, _, s' => s' = s.prune
  | .hasLink server, s, answer, s' =>
      answer = ((s.servers server).bind Server.link).isSome ∧ s' = s
  | .teardownLink server, s, _, s' => s' = s.teardown server
  | .spawnReader vault me addr, s, answer, s' => answer = s.links.length ∧
      s' = s.spawn vault me addr
  | .abort conn, s, _, s' => s' = s.abort conn
  | .storeLink server conn, s, _, s' => s' = s.storeLink server conn
  | .forgetServer server, s, _, s' => s' = (s.teardown server).putServer server none
  | .removeDir server, s, _, s' => s' = s ∨ s' = s.deleted server

/-- What a request of the engine does. -/
def EngineAsk.effect : Prog.Step EngineState EngineAsk EngineAsk.Answer
  | .on vault conn asked, s, answer, s' =>
      ∃ v, Ask.effect asked (s.vaults vault) answer v ∧
        s' = (s.putVault vault v).noted conn asked answer
  | .bare asked, s, answer, s' => (∃ v, Ask.effect asked Vault.empty answer v) ∧ s' = s
  | .deed step, s, answer, s' => step.effect s answer s'

/-- A deed, where nothing fails. -/
def Deed.play : (step : Deed) → EngineState → step.Answer × EngineState
  | .ensureServer server, s => (.ok (), s.ensure server)
  | .vaultOf server, s => ((s.servers server).elim (server, s.generation server) Server.vault, s)
  | .pruneDeadLinks, s => ((), s.prune)
  | .hasLink server, s => (((s.servers server).bind Server.link).isSome, s)
  | .teardownLink server, s => ((), s.teardown server)
  | .spawnReader vault me addr, s => (s.links.length, s.spawn vault me addr)
  | .abort conn, s => ((), s.abort conn)
  | .storeLink server conn, s => ((), s.storeLink server conn)
  | .forgetServer server, s => ((), (s.teardown server).putServer server none)
  | .removeDir server, s => ((), s.deleted server)

/-- The machine of a world that answers by a function. -/
def EngineAsk.play (world : (asked : Ask) → asked.Answer) :
    Prog.Machine EngineState EngineAsk EngineAsk.Answer
  | .on vault conn asked, s =>
      let played := Ask.play world asked (s.vaults vault)
      (played.1, (s.putVault vault played.2).noted conn asked played.1)
  | .bare asked, s => ((Ask.play world asked Vault.empty).1, s)
  | .deed step, s => step.play s

theorem EngineAsk.play_conforms (world : (asked : Ask) → asked.Answer) (request : EngineAsk)
    (s : EngineState) : EngineAsk.effect request s (EngineAsk.play world request s).1
      (EngineAsk.play world request s).2 := by
  cases request with
  | on vault conn asked => exact ⟨_, Ask.play_conforms (fun _ => trivial) asked _, rfl⟩
  | bare asked => exact ⟨⟨_, Ask.play_conforms (fun _ => trivial) asked _⟩, rfl⟩
  | deed step =>
      cases step with
      | ensureServer server => exact .inl rfl
      | removeDir server => exact .inr rfl
      | _ => first | exact ⟨rfl, rfl⟩ | exact rfl

/-! ### The tasks -/

/-- What happens to a connection by itself. -/
inductive Arrives : EngineState → EngineState → Prop where
  /-- The reader queues what the relay delivers. -/
  | queue {s : EngineState} {conn : Handle} {link : ServerLink} {msg : ServerMsg} {inc : Incoming}
      (found : s.links[conn]? = some link) (reads : link.reader ≠ .ended)
      (routed : route link.queue.length msg = .queue inc) :
      Arrives s { s with links := s.links.set conn { link with queue := link.queue ++ [inc] } }
  /-- The connection is closed, the queue overflows, or the abort takes effect. -/
  | close {s : EngineState} {conn : Handle} {link : ServerLink}
      (found : s.links[conn]? = some link) :
      Arrives s { s with links := s.links.set conn { link with reader := .ended } }

/-- The command task takes a command. -/
def takesCommand (app : App) (prog : Engine Unit) (s s' : EngineState) : Prop :=
  ∃ command, prog = Engine.runCommand app command ∧ s' = { s with command := some command }

/-- The processor of a connection takes the next frame of its queue. -/
def takesFrame (conn : Handle) (prog : Engine Unit) (s s' : EngineState) : Prop :=
  ∃ link inc rest, s.links[conn]? = some link ∧ link.queue = inc :: rest ∧
    prog = Engine.within link.vault conn (Client.processFrame ⟨link.me, link.addr⟩ inc) ∧
    s' = { s with links := s.links.set conn { link with queue := rest, busy := true } }

/-- A command is done. The handle of a reader that it has not stored is dropped with its other
variables. -/
def commandDone (s s' : EngineState) : Prop := s' = { s with command := none, hand := none }

/-- The processor is done with a frame. -/
def frameDone (conn : Handle) (s s' : EngineState) : Prop :=
  s' = { s with links := s.links.modify conn fun link => { link with busy := false } }

/-- The command task and the processors. -/
def engine (app : App) : Crew (Option Handle) EngineState EngineAsk EngineAsk.Answer String
    Unit where
  act _ := EngineAsk.effect
  begins task prog s s' := match task with
    | none => takesCommand app prog s s'
    | some conn => takesFrame conn prog s s'
  ends task _ s s' := match task with
    | none => commandDone s s'
    | some conn => frameDone conn s s'
  drift := Arrives

end

end Cherm
