/-
**The servers a client knows, and `servers.json`.**

The list is in memory while the client runs; the commands that add to it, change it or take from it
write it to a file, which the next start reads. A start normalises the addresses it finds,
keeps the first of several with one address, and adds the official server.

* `ServerIndex` and its operations; `ServerIndex.start` is what a start makes of a file.
* `Known`: the list, the servers whose vault is open, the active one, and the file.
* `Known.checkServer` and the other commands: what each does to it. What comes of the network, the
  vault and each write is taken as given (`Saving`, `Rest`).
-/

import Cherm.Client.Account
import Cherm.Lib.Attempt
import Cherm.Plugin.Manager

namespace Cherm

open Json
open ChermPlugins (asAll toVecPretty fromStr trimmed)

/-! ### The list -/

/-- One known server, with the last verdict and the username registered there. -/
structure ServerRecord where
  addr : String
  name : Option String
  tier : Option String
  verdict : Option String
  username : Option String
deriving DecidableEq

/-- The list of `servers.json`. -/
structure ServerIndex where
  servers : List ServerRecord
deriving DecidableEq

namespace ServerIndex

/-- The addresses of the list, in its order. -/
def addrs (index : ServerIndex) : List String := index.servers.map (·.addr)

/-- `record_mut`: write to the record of an address, which is added if it is not there. -/
def recordMut (index : ServerIndex) (addr : String) (write : ServerRecord → ServerRecord) :
    ServerIndex :=
  match index.servers.findIdx? (·.addr = addr) with
  | some i => ⟨index.servers.modify i write⟩
  | none => ⟨index.servers ++ [write ⟨addr, none, none, none, none⟩]⟩

/-- The address is in the list. -/
def ensure (index : ServerIndex) (addr : String) : ServerIndex := index.recordMut addr id

/-- Write down how a server was attested. -/
def setAttest (index : ServerIndex) (addr verdict tier : String) : ServerIndex :=
  index.recordMut addr fun r => { r with verdict := some verdict, tier := some tier }

/-- Write down our name on a server. -/
def setUsername (index : ServerIndex) (addr username : String) : ServerIndex :=
  index.recordMut addr fun r => { r with username := some username }

/-- Write down the name a user gave a server, unless it is empty. -/
def setName (index : ServerIndex) (addr name : String) : ServerIndex :=
  if name = "" then index else index.recordMut addr fun r => { r with name := some name }

/-- The verdict and tier of a server, if it could be attested. -/
def refresh (outcome : String → Option (String × String)) (index : ServerIndex) (addr : String) :
    ServerIndex :=
  match outcome addr with
  | some (verdict, tier) => index.setAttest addr verdict tier
  | none => index

/-- `OFFICIAL_ADDR`. -/
def officialAddr : String := "srv.cherm.chat:9000"

/-- `OFFICIAL_NAME`. -/
def officialName : String := "cherm.chat"

/-- The official server is always in the list. A name the user gave it stays. -/
def seedOfficial (index : ServerIndex) : ServerIndex :=
  let existed := index.servers.any (·.addr = officialAddr)
  index.recordMut officialAddr fun r =>
    if !existed || r.name.isNone then { r with name := some officialName } else r

/-- The first of several records with one address, each with its address normalised. -/
def migrateFrom : List String → List ServerRecord → List ServerRecord
  | _, [] => []
  | seen, r :: rest =>
      let addr := normalizeAddr r.addr
      if addr ∈ seen then migrateFrom seen rest
      else { r with addr := addr } :: migrateFrom (addr :: seen) rest

/-- The list of an earlier version, with normalised addresses. -/
def migrate (index : ServerIndex) : ServerIndex := ⟨migrateFrom [] index.servers⟩

end ServerIndex

/-! ### The file -/

/-- The derived `Serialize`. -/
def ServerRecord.toJson (r : ServerRecord) : Json :=
  let text (value : Option String) : Json := (value.map Json.str).getD .null
  .obj [("addr", .str r.addr), ("name", text r.name), ("tier", text r.tier),
    ("verdict", text r.verdict), ("username", text r.username)]

/-- The derived `Deserialize`: only the address is required. -/
def ServerRecord.fromJson (value : Json) : Option ServerRecord := do
  let fields ← value.asFields ["addr", "name", "tier", "verdict", "username"]
  let addr ← fields.required "addr" asStr
  let name ← fields.orDefault "name" (asOption asStr) none
  let tier ← fields.orDefault "tier" (asOption asStr) none
  let verdict ← fields.orDefault "verdict" (asOption asStr) none
  let username ← fields.orDefault "username" (asOption asStr) none
  return { addr, name, tier, verdict, username }

/-- The derived `Serialize`. -/
def ServerIndex.toJson (index : ServerIndex) : Json :=
  .obj [("servers", .arr (index.servers.map ServerRecord.toJson))]

/-- The derived `Deserialize`. -/
def ServerIndex.fromJson (value : Json) : Option ServerIndex := do
  let fields ← value.asFields ["servers"]
  let servers ← fields.orDefault "servers" (asAll ServerRecord.fromJson) []
  return { servers }

section

variable [ChermPlugins.Crates]

/-- What a start makes of `servers.json`. Without one, or with one that it cannot read, the list has
the official server. -/
def ServerIndex.start (file : Option Bytes) : ServerIndex :=
  let loaded := ((file.bind fromUtf8).bind fromStr).bind ServerIndex.fromJson
  (loaded.getD ⟨[]⟩).migrate.seedOfficial

end

/-! ### The commands -/

/-- What the client has of its servers, and the file. -/
structure Known where
  index : ServerIndex
  /-- The servers whose vault is open. -/
  opened : List String
  active : Option String
  file : Option Bytes

/-- A write to `servers.json`: it may fail, whatever is left of the file. -/
inductive Saving where
  | written
  | failed (error : String) (left : Option Bytes)

/-- The rest of a command, up to where a login is recorded: it fails, or ends before, or the server
has answered with a username. -/
abbrev Rest := Except String (Option String)

namespace Known

/-- What a command does to the list, the file and the open vaults. -/
abbrev Act := Attempt Known String

/-- Change the list in memory. -/
def modifyIndex (change : ServerIndex → ServerIndex) : Act Unit :=
  Attempt.modify fun known => { known with index := change known.index }

/-- `save_index`. -/
def saveIndex : Saving → Act Unit
  | .written =>
      Attempt.modify fun known => { known with file := some (toVecPretty known.index.toJson) }
  | .failed error left => do
      Attempt.modify fun known => { known with file := left }
      Attempt.fail error

/-- `ensure_server`: the vault of a server is opened once, and the server is in the list. -/
def ensureServer (addr : String) (opens : Except String Unit) (saving : Saving) : Act Unit :=
  fun known =>
    if addr ∈ known.opened then (.ok (), known)
    else
      let act : Act Unit := do
        Attempt.lift opens
        Attempt.modify fun known =>
          { known with opened := known.opened ++ [addr], index := known.index.ensure addr }
        saveIndex saving
      act known

/-- How a login or a registration ends: the server is active, and the name is recorded. -/
def goLive (server : String) (rest : Rest) (saving : Saving) : Act Unit := do
  match ← Attempt.lift rest with
  | none => pure ()
  | some uname =>
      Attempt.modify fun known => { known with active := some server }
      modifyIndex (·.setUsername server uname)
      saveIndex saving

/-- `check_server`: the verdict and tier, if the server can be attested. -/
def checkServer (addr : String) (name : Option String) (outcome : Option (String × String))
    (saving : Saving) : Act Unit := do
  let server := normalizeAddr addr
  modifyIndex (·.ensure server)
  match name with
  | some n => modifyIndex (·.setName server (trimmed n))
  | none => pure ()
  match outcome with
  | some (verdict, tier) => modifyIndex (·.setAttest server verdict tier)
  | none => pure ()
  saveIndex saving

/-- `connect`. -/
def connect (addr : String) (opens : Except String Unit) (first : Saving) (rest : Rest)
    (saving : Saving) : Act Unit := do
  let server := normalizeAddr addr
  ensureServer server opens first
  goLive server rest saving

/-- `register`. -/
def register (addr username : String) (opens : Except String Unit) (first : Saving) (rest : Rest)
    (saving : Saving) : Act Unit := do
  let server := normalizeAddr addr
  if !validUsername username then pure ()
  else if isReservedUsername username then pure ()
  else
    ensureServer server opens first
    goLive server rest saving

/-- `switch_server`: there is a link, or the vault has a name, or neither. -/
def switchServer (addr : String) (opens : Except String Unit) (first : Saving)
    (linked registered : Bool) (rest : Rest) (saving : Saving) : Act Unit := do
  let server := normalizeAddr addr
  ensureServer server opens first
  Attempt.modify fun known => { known with active := some server }
  if linked then pure ()
  else if registered then connect server opens first rest saving
  else pure ()

/-- `remove_server`. -/
def removeServer (addr : String) (saving : Saving) : Act Unit := do
  let server := normalizeAddr addr
  Attempt.modify fun known =>
    { known with
      opened := known.opened.filter (· ≠ server)
      active := if known.active = some server then none else known.active
      index := ⟨known.index.servers.filter (·.addr ≠ server)⟩ }
  saveIndex saving

/-- `import_identity`, with the address and the name of a backup whose key can be read. -/
def importIdentity (backup : Option (String × String)) (opens : Except String Unit)
    (first : Saving) (stored : Except String Unit) (saving : Saving) : Act Unit := do
  match backup with
  | none => pure ()
  | some (addr, username) =>
      let server := normalizeAddr addr
      if server = "" ∨ username = "" then pure ()
      else
        ensureServer server opens first
        Attempt.lift stored
        modifyIndex (·.setUsername server username)
        saveIndex saving

/-- `refresh_verdicts`: the verdict and tier of each server that can be attested in time. -/
def refreshVerdicts (outcome : String → Option (String × String)) (saving : Saving) : Act Unit :=
  fun known =>
    let refreshed := { known with
      index := known.index.addrs.foldl (ServerIndex.refresh outcome) known.index }
    if known.index.addrs.any fun addr => (outcome addr).isSome then
      -- what comes of the write is ignored
      (.ok (), (saveIndex saving refreshed).2)
    else (.ok (), refreshed)

end Known

/-! ### Runs -/

/-- A command that concerns the list, with what comes of it; a restart; or a crash, whatever it has
left of the file. -/
inductive Errand where
  | checkServer (addr : String) (name : Option String) (outcome : Option (String × String))
      (saving : Saving)
  | register (addr username : String) (opens : Except String Unit) (first : Saving) (rest : Rest)
      (saving : Saving)
  | connect (addr : String) (opens : Except String Unit) (first : Saving) (rest : Rest)
      (saving : Saving)
  | switchServer (addr : String) (opens : Except String Unit) (first : Saving)
      (linked registered : Bool) (rest : Rest) (saving : Saving)
  | removeServer (addr : String) (saving : Saving)
  | importIdentity (backup : Option (String × String)) (opens : Except String Unit)
      (first : Saving) (stored : Except String Unit) (saving : Saving)
  | refreshVerdicts (outcome : String → Option (String × String)) (saving : Saving)
  | restart
  | crash (left : Option Bytes)

section

variable [ChermPlugins.Crates]

/-- A client that has just started. -/
def Known.boot (file : Option Bytes) : Known := ⟨.start file, [], none, file⟩

/-- What an errand leaves, whether or not it ends in an error. -/
def Errand.step : Errand → Known → Known
  | .checkServer addr name outcome saving, known =>
      (Known.checkServer addr name outcome saving known).2
  | .register addr username opens first rest saving, known =>
      (Known.register addr username opens first rest saving known).2
  | .connect addr opens first rest saving, known =>
      (Known.connect addr opens first rest saving known).2
  | .switchServer addr opens first linked registered rest saving, known =>
      (Known.switchServer addr opens first linked registered rest saving known).2
  | .removeServer addr saving, known => (Known.removeServer addr saving known).2
  | .importIdentity backup opens first stored saving, known =>
      (Known.importIdentity backup opens first stored saving known).2
  | .refreshVerdicts outcome saving, known => (Known.refreshVerdicts outcome saving known).2
  | .restart, known => .boot known.file
  | .crash left, _ => .boot left

end

end Cherm
