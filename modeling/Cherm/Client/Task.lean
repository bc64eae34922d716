/-
**What a client task may do, and how it is run.**

The command task and the processor of one server connection share that server's vault. `Ask` lists
the requests both make: one call of a vault helper (one critical section each), a request to the
relay that waits for the control reply, a message handed to the link, an event for the user
interface, the clock and the random number generator. A handler is a `Client` program over them.

* `Ask.effect` is what a request does to the vault: a vault call is executed, the world answers
  anything. `Ask.effectIf` restricts what the world answers.
* `wp_call` and the lemmas after it are the rules for one request.
-/

import Cherm.Vault
import Cherm.Lib.Prog

namespace Cherm

/-- An event line for the user interface. -/
inductive Event where
  | message (chat «from» text : String) (ts : Int) (outgoing system : Bool)
  | chats (server : String) (rows : List (String × String × String × Int))
  | history (chat : String) (messages : List (String × String × Int × Bool))
  | fingerprint (username fingerprint : String)
  | openChat (chat : String)
  | info (message : String)
  | error (code message : String)
  | pong (rttMs : Int) (server : String)
  | registered (server username uuid : String)
  | connected (server username : String)
  | needUsername (server : String)
  | servers
deriving DecidableEq, Repr

section

variable [Crates]

/-- The requests of a task. -/
inductive Ask where
  | call (op : VaultOp)
  | request (msg : ClientMsg)
  | post (msg : ClientMsg)
  | emit (event : Event)
  | now
  | random
  | connect (addr : String)
  | readFile (path : String)
  | writeBackup (server username uuid : String) (device : Device)
  | saveIndex

/-- How the requests are answered. -/
@[reducible] def Ask.Answer : Ask → Type
  | call op => op.Result
  | request _ => Except String ServerMsg
  | post _ => Except String Unit
  | emit _ => Unit
  | now => Int
  | random => Seed
  | connect _ => Except String Unit
  | readFile _ => Except String String
  | writeBackup .. => Except String String
  | saveIndex => Except String Unit

/-- A handler: it returns a value or the text of an error. -/
abbrev Client (α : Type) := Prog Ask Ask.Answer String α

namespace Client

/-- One call of a vault helper. -/
def call (op : VaultOp) : Client op.Result := Prog.query (Ask.call op)

/-- `send_and_wait`: the control reply, or an early return. -/
def request (msg : ClientMsg) : Client ServerMsg :=
  (Prog.query (Ask.request msg)).bind Prog.ofExcept

/-- `net::send`: hand a message to the writer task; it fails once the connection is closed. -/
def post (msg : ClientMsg) : Client Unit := (Prog.query (Ask.post msg)).bind Prog.ofExcept

/-- Tell the terminal. -/
def emit (event : Event) : Client Unit := Prog.query (Ask.emit event)

/-- `now_ms`. -/
def now : Client Int := Prog.query Ask.now

/-- Draw from the generator. -/
def random : Client Seed := Prog.query Ask.random

/-- A value or an early return with an error text. -/
def lift {α : Type} (value : Except String α) : Client α := Prog.ofExcept value

/-- An early return with an error text. -/
def throw {α : Type} (error : String) : Client α := Prog.fail error

/-- The value of an `Option`, or an early return. -/
def okOr {α : Type} (value : Option α) (error : String) : Client α :=
  match value with
  | some value => Prog.done value
  | none => Prog.fail error

/-- `upsert_chat` reads the clock for the row it may create. -/
def upsertChat (id kind title : String) : Client Unit := do
  let now ← now
  call (.upsertChat id kind title now)

/-- `insert_message` reads the clock for the receipt time. -/
def insertMessage (chatId sender body : String) (ts : Int) (outgoing : Bool) : Client Unit := do
  let recvTs ← now
  call (.insertMessage chatId sender body ts outgoing recvTs)

/-- `is_suspended`: two critical sections; a suspension that has run out is deleted. -/
def isSuspended (groupId username : String) (now : Int) : Client Bool := do
  match ← call (.suspendedUntil groupId username) with
  | some untilTs =>
      if now < untilTs then return true
      call (.clearSuspension groupId username)
      return false
  | none => return false

/-- Emit the `chats` event of a server's vault. -/
def emitChats (addr : String) : Client Unit := do
  let rows ← call .listChats
  emit (.chats addr rows)

/-- Emit the safety number of a contact, if one is pinned. -/
def emitFingerprint (username : String) : Client Unit := do
  match ← call (.getContactEd username) with
  | some ed => emit (.fingerprint username (fingerprintOf ed))
  | none => return ()

end Client

/-! ### What the requests do -/

/-- A vault call is executed; anything else leaves the vault alone and is answered as `allow` says.
-/
def Ask.effectIf (allow : (asked : Ask) → asked.Answer → Prop) :
    Prog.Step Vault Ask Ask.Answer
  | .call op, v, answer, v' => (answer, v') = op.exec v
  | asked, v, answer, v' => allow asked answer ∧ v' = v

/-- The world answers anything. -/
def Ask.effect : Prog.Step Vault Ask Ask.Answer := Ask.effectIf fun _ _ => True

/-- The demands of a proof, over what the world admits. -/
def Ask.spec (demand : Ask → Vault → Prop) (allow : (asked : Ask) → asked.Answer → Prop) :
    Prog.Spec Vault Ask Ask.Answer := ⟨demand, Ask.effectIf allow⟩

/-- The machine of a world that answers by a function. -/
def Ask.play (world : (asked : Ask) → asked.Answer) : Prog.Machine Vault Ask Ask.Answer
  | .call op, v => op.exec v
  | asked, v => (world asked, v)

theorem Ask.play_conforms {allow : (asked : Ask) → asked.Answer → Prop}
    {world : (asked : Ask) → asked.Answer} (admitted : ∀ asked, allow asked (world asked))
    (asked : Ask) (v : Vault) :
    Ask.effectIf allow asked v (Ask.play world asked v).1 (Ask.play world asked v).2 := by
  cases asked with
  | call op => rfl
  | _ => exact ⟨admitted _, rfl⟩

/-- A request that is not a vault call. -/
class Ask.World (asked : Ask) : Prop where
  noCall : ∀ op, asked ≠ .call op

instance (msg : ClientMsg) : (Ask.request msg).World := ⟨nofun⟩
instance (msg : ClientMsg) : (Ask.post msg).World := ⟨nofun⟩
instance (event : Event) : (Ask.emit event).World := ⟨nofun⟩
instance : Ask.now.World := ⟨nofun⟩
instance : Ask.random.World := ⟨nofun⟩
instance (addr : String) : (Ask.connect addr).World := ⟨nofun⟩
instance (path : String) : (Ask.readFile path).World := ⟨nofun⟩
instance (server username uuid : String) (device : Device) :
    (Ask.writeBackup server username uuid device).World := ⟨nofun⟩
instance : Ask.saveIndex.World := ⟨nofun⟩

section Rules

variable {demand : Ask → Vault → Prop} {allow : (asked : Ask) → asked.Answer → Prop}
  {α : Type} {post : Except String α → Vault → Prop}

theorem Ask.effectIf_world {asked : Ask} [world : asked.World] (v v' : Vault)
    (answer : asked.Answer) :
    Ask.effectIf allow asked v answer v' ↔ allow asked answer ∧ v' = v := by
  cases asked with
  | call op => exact absurd rfl (world.noCall op)
  | _ => exact Iff.rfl

/-- If the world may answer whatever it is asked, every request has an answer. -/
theorem Ask.effectIf_total (answers : ∀ asked, Ask.World asked → ∃ answer, allow asked answer)
    (asked : Ask) (v : Vault) : ∃ answer v', Ask.effectIf allow asked v answer v' := by
  by_cases world : asked.World
  · obtain ⟨answer, admitted⟩ := answers asked world
    exact ⟨answer, v, (effectIf_world v v answer).mpr ⟨admitted, rfl⟩⟩
  · cases asked with
    | call op => exact ⟨_, _, rfl⟩
    | _ => exact absurd ⟨nofun⟩ world

/-- One call of a vault helper. -/
theorem wp_call (op : VaultOp) (next : op.Result → Client α) (v : Vault) :
    Prog.wp (Ask.spec demand allow) post (.ask (.call op) next) v ↔
      demand (.call op) v ∧
        Prog.wp (Ask.spec demand allow) post (next (op.exec v).1) (op.exec v).2 := by
  rw [Prog.wp_ask]
  refine and_congr_right fun _ => ⟨fun all => all _ _ rfl, fun here answer v' same => ?_⟩
  obtain ⟨rfl, rfl⟩ := Prod.mk.inj (same : (answer, v') = op.exec v)
  exact here

/-- One question to the world. -/
theorem wp_world {asked : Ask} [asked.World] (next : asked.Answer → Client α)
    (v : Vault) :
    Prog.wp (Ask.spec demand allow) post (.ask asked next) v ↔
      demand asked v ∧ ∀ answer, allow asked answer →
        Prog.wp (Ask.spec demand allow) post (next answer) v := by
  rw [Prog.wp_ask]
  refine and_congr_right fun _ => ⟨fun all answer admitted => ?_, fun all answer v' made => ?_⟩
  · exact all answer v ((Ask.effectIf_world v v answer).mpr ⟨admitted, rfl⟩)
  · obtain ⟨admitted, rfl⟩ := (Ask.effectIf_world v v' answer).mp made
    exact all answer admitted

/-- One call of a vault helper, with the requests written down. -/
theorem wp_logged_call {post : Except String α → Vault × List Ask → Prop} (op : VaultOp)
    (next : op.Result → Client α) (v : Vault) (log : List Ask) :
    Prog.wp (.free (Prog.logged (Ask.effectIf allow))) post (.ask (.call op) next) (v, log) ↔
      Prog.wp (.free (Prog.logged (Ask.effectIf allow))) post (next (op.exec v).1)
        ((op.exec v).2, .call op :: log) := by
  rw [Prog.wp_ask]
  refine ⟨fun all => all.2 _ _ ⟨rfl, rfl⟩, fun here => ⟨trivial, ?_⟩⟩
  rintro answer ⟨v', log'⟩ ⟨same, rfl⟩
  obtain ⟨rfl, rfl⟩ := Prod.mk.inj (same : (answer, v') = op.exec v)
  exact here

/-- One question to the world, with the requests written down. -/
theorem wp_logged_world {post : Except String α → Vault × List Ask → Prop} {asked : Ask}
    [asked.World] (next : asked.Answer → Client α) (v : Vault) (log : List Ask) :
    Prog.wp (.free (Prog.logged (Ask.effectIf allow))) post (.ask asked next) (v, log) ↔
      ∀ answer, allow asked answer →
        Prog.wp (.free (Prog.logged (Ask.effectIf allow))) post (next answer)
          (v, asked :: log) := by
  rw [Prog.wp_ask]
  refine ⟨fun all answer admitted => ?_, fun all => ⟨trivial, ?_⟩⟩
  · exact all.2 answer (v, asked :: log) ⟨(Ask.effectIf_world v v answer).mpr ⟨admitted, rfl⟩, rfl⟩
  · rintro answer ⟨v', log'⟩ ⟨made, rfl⟩
    obtain ⟨admitted, rfl⟩ := (Ask.effectIf_world v v' answer).mp made
    exact all answer admitted

/-- A run that starts with a call of a vault helper. -/
theorem runs_call {op : VaultOp} {next : op.Result → Client α} {v v' : Vault}
    {result : Except String α}
    (runs : Prog.Runs (Ask.effectIf allow) (.ask (.call op) next) v result v') :
    Prog.Runs (Ask.effectIf allow) (next (op.exec v).1) (op.exec v).2 result v' := by
  cases runs with
  | ask made rest =>
      obtain ⟨rfl, rfl⟩ := Prod.mk.inj (show (_, _) = op.exec v from made)
      exact rest

end Rules

/-! ### The wrappers, taken apart -/

namespace Client

@[simp] theorem call_eq (op : VaultOp) : call op = .ask (.call op) .done := rfl

@[simp] theorem request_eq (msg : ClientMsg) :
    request msg = .ask (.request msg) Prog.ofExcept := rfl

@[simp] theorem post_eq (msg : ClientMsg) : post msg = .ask (.post msg) Prog.ofExcept := rfl

@[simp] theorem emit_eq (event : Event) : emit event = .ask (.emit event) .done := rfl

@[simp] theorem now_eq : now = .ask .now .done := rfl

@[simp] theorem random_eq : random = .ask .random .done := rfl

@[simp] theorem lift_eq {α : Type} (value : Except String α) :
    lift value = Prog.ofExcept value := rfl

@[simp] theorem throw_eq {α : Type} (error : String) : (throw error : Client α) = .fail error := rfl

@[simp] theorem okOr_some {α : Type} (value : α) (error : String) :
    okOr (some value) error = .done value := rfl

@[simp] theorem okOr_none {α : Type} (error : String) :
    (okOr none error : Client α) = .fail error := rfl

theorem calls_okOr {good : Ask → Prop} {α : Type} (value : Option α) (error : String) :
    Prog.Calls good (okOr value error) := by
  cases value <;> trivial

end Client

end

end Cherm
