/-
**The commands on the core's standard input.**

The terminal writes one JSON object a line, with the name of the command in the field `cmd`. A line
that is no command is answered with an error; an empty one is skipped.

* `inputLines`: the lines of a text that has arrived.
* `Ipc.Command`: the commands, those about one account as `Ipc.Command.account`.
* `readCommands`: what the core makes of its input.
-/

import Cherm.Client.Account
import Cherm.Frames

namespace Cherm

open Json

/-- The lines of a text, without their ends. A last line need not have an end. -/
def inputLines (text : List Char) : List (List Char) :=
  let segments := text.splitOnP (· = '\n')
  let ended := if segments.getLast? = some [] then segments.dropLast else segments
  ended.map fun line => if line.getLast? = some '\r' then line.dropLast else line

namespace Ipc

inductive Command where
  | listServers
  | checkServer (server : String) (name : Option String)
  | removeServer (server : String)
  | account (command : Cherm.Command)
  | listStore
  | listInstalled
  | installPlugin (name : String)
  | removePlugin (name : String)
  | checkPluginUpdates
  | submitPlugin (manifest package : Json)
  | checkClientUpdate
  | quit
deriving DecidableEq

/-- A command about one member of a group. -/
def memberCommand (command : String → String → Cherm.Command) (rest : Json) :
    Option Cherm.Command := do
  let fields ← rest.asFields ["group", "username"]
  return command (← fields.required "group" asStr) (← fields.required "username" asStr)

/-- The command of this name about an account, from the other fields. -/
def accountCommand (kind : String) (rest : Json) : Option Cherm.Command :=
  match kind with
  | "connect" => do
      let fields ← rest.asFields ["server"]
      return .connect (← fields.required "server" asStr)
  | "register" => do
      let fields ← rest.asFields ["server", "username"]
      return .register (← fields.required "server" asStr)
        (← fields.required "username" asStr)
  | "switch_server" => do
      let fields ← rest.asFields ["server"]
      return .switchServer (← fields.required "server" asStr)
  | "list_chats" => unitKind .listChats rest
  | "history" => do
      let fields ← rest.asFields ["chat", "limit"]
      return .history (← fields.required "chat" asStr)
        (← fields.orDefault "limit" (asOption asI64) none)
  | "start_dm" => do
      let fields ← rest.asFields ["username"]
      return .startDm (← fields.required "username" asStr)
  | "create_group" => do
      let fields ← rest.asFields ["name", "members", "access_mode"]
      return .createGroup (← fields.required "name" asStr)
        (← fields.required "members" asStrs)
        (← fields.orDefault "access_mode" (asOption asStr) none)
  | "set_access" => do
      let fields ← rest.asFields ["group", "mode"]
      return .setAccess (← fields.required "group" asStr)
        (← fields.required "mode" asStr)
  | "join_group" => do
      let fields ← rest.asFields ["group", "key", "owner"]
      return .joinGroup (← fields.required "group" asStr)
        (← fields.required "key" asStr) (← fields.required "owner" asStr)
  | "invite_member" => memberCommand .inviteMember rest
  | "accept_member" => memberCommand .acceptMember rest
  | "remove_member" => memberCommand .removeMember rest
  | "ban_member" => memberCommand .banMember rest
  | "unban_member" => memberCommand .unbanMember rest
  | "unsuspend_member" => memberCommand .unsuspendMember rest
  | "suspend_member" => do
      let fields ← rest.asFields ["group", "username", "duration"]
      return .suspendMember (← fields.required "group" asStr)
        (← fields.required "username" asStr) (← fields.required "duration" asStr)
  | "group_info" => do
      let fields ← rest.asFields ["group"]
      return .groupInfo (← fields.required "group" asStr)
  | "send" => do
      let fields ← rest.asFields ["chat", "text"]
      return .send (← fields.required "chat" asStr) (← fields.required "text" asStr)
  | "leave_chat" => do
      let fields ← rest.asFields ["chat"]
      return .leaveChat (← fields.required "chat" asStr)
  | "ping" => unitKind .ping rest
  | "export_identity" => unitKind .exportIdentity rest
  | "import_identity" => do
      let fields ← rest.asFields ["path"]
      return .importIdentity (← fields.required "path" asStr)
  | _ => none

/-- The command of this name, from the other fields. -/
def Command.ofKind (kind : String) (rest : Json) : Option Command :=
  match kind with
  | "list_servers" => unitKind .listServers rest
  | "check_server" => do
      let fields ← rest.asFields ["server", "name"]
      return .checkServer (← fields.required "server" asStr)
        (← fields.orDefault "name" (asOption asStr) none)
  | "remove_server" => do
      let fields ← rest.asFields ["server"]
      return .removeServer (← fields.required "server" asStr)
  | "list_store" => unitKind .listStore rest
  | "list_installed" => unitKind .listInstalled rest
  | "install_plugin" => do
      let fields ← rest.asFields ["name"]
      return .installPlugin (← fields.required "name" asStr)
  | "remove_plugin" => do
      let fields ← rest.asFields ["name"]
      return .removePlugin (← fields.required "name" asStr)
  | "check_plugin_updates" => unitKind .checkPluginUpdates rest
  | "submit_plugin" => do
      let fields ← rest.asFields ["manifest", "package"]
      return .submitPlugin (← fields.required "manifest" asValue)
        (← fields.orDefault "package" asValue .null)
  | "check_client_update" => unitKind .checkClientUpdate rest
  | "quit" => unitKind .quit rest
  | _ => (accountCommand kind rest).map .account

def Command.fromJson (value : Json) : Option Command := do
  let (kind, rest) ← tagged "cmd" value
  Command.ofKind kind rest

/-- What the core reads, line by line; nothing where a line is no command. `fromStr` is the value
that `serde_json::from_str` takes a record from. -/
def readCommands (fromStr : List Char → Option Json) (input : List Char) :
    List (Option Command) :=
  (((inputLines input).map trim).filter (· ≠ [])).map fun line =>
    (fromStr line).bind Command.fromJson

end Ipc

end Cherm
