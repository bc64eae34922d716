/-
**The relay with all its connections.**

Every connection has a task that handles its messages, a bounded channel of what is to be written to
its socket, and a writer that takes from the channel. The tasks share the store, and push into each
other's channels. A writer may stop at any time; what its channel still holds then is gone.

* `Ask.onSystem` is what a request of a task does, `Drift` what happens without a task.
* `relay` puts them together. `Rules` may restrict which requests and which stops occur;
  `Rules.none` does not.

Beside what the relay has, a `System` keeps a record: which copies of frames were accepted, which
rows were pushed, and what each task has in hand (`Ledger`). Nothing the relay does depends on the
record.
-/

import Cherm.Lib.Crew
import Cherm.Relay.Conn

namespace Cherm.Relay

open Crates

/-- `OUTBOUND_CAP`: the room of a channel. -/
def outboundCap : Nat := 512

/-- A message in a channel, with the copy of a frame that it is and the outbox row it was. -/
structure Entry where
  msg : ServerMsg
  copy : Option Nat
  row : Option Nat
deriving DecidableEq

/-- A frame that a connection got accepted for a recipient. -/
structure Copy where
  sender : Nat
  recipient : String
  frame : Option Deliver
deriving DecidableEq

/-- The frame that a message delivers. -/
def frameOf : ServerMsg → Option Deliver
  | .deliver frame => some frame
  | _ => none

/-- What a task has in hand: whom it speaks for, the rows its flush read, those still ahead, those
it pushed, and what it last learned about a recipient. -/
structure Ledger where
  user : Option String
  read : List (Nat × Bytes)
  hands : List (Nat × Bytes)
  pushed : List Nat
  routed : Option (String × Option Nat)

/-- Nothing is recorded yet. -/
def Ledger.empty : Ledger := ⟨none, [], [], [], none⟩

/-- Where a connection is in its life. -/
inductive Life where
  | fresh
  | «open»
  | closing
  | closed
deriving DecidableEq

/-- A task ends its connection, or goes on. -/
def Life.Next (life life' : Life) : Prop :=
  life' = life ∨ life = .open ∧ life' = .closing ∨ life = .closing ∧ life' = .closed

structure Conn where
  life : Life
  state : ConnState
  alive : Bool
  chan : List Entry
  writing : Option Entry
  ledger : Ledger

/-- A connection that is not accepted yet. -/
def Conn.fresh : Conn := ⟨.fresh, .initial, false, [], none, .empty⟩

/-- The store and the connections; what was written to which socket, the earliest first; and the
record. -/
structure System where
  store : Store
  conns : Nat → Conn
  written : List (Nat × Entry)
  accepted : List Copy
  rowCopy : Nat → Option Nat
  pruned : List Nat
  pushedRows : List Nat

namespace System

/-- A relay that has just been started on its database. -/
def initial (store : Store) : System :=
  ⟨{ store with online := ∅ }, fun _ => .fresh, [], [], fun _ => none, [], []⟩

/-- Change one connection. -/
def update (sys : System) (c : Nat) (f : Conn → Conn) : System :=
  { sys with conns := Function.update sys.conns c (f (sys.conns c)) }

/-- There is a writer, and the channel has room. -/
def Room (sys : System) (c : Nat) : Prop :=
  (sys.conns c).alive = true ∧ (sys.conns c).chan.length < outboundCap

instance (sys : System) (c : Nat) : Decidable (sys.Room c) := inferInstanceAs (Decidable (_ ∧ _))

/-- Put an entry into a channel. -/
def push (sys : System) (c : Nat) (entry : Entry) : System :=
  sys.update c fun conn => { conn with chan := conn.chan ++ [entry] }

/-- `try_send`. -/
def offer (sys : System) (c : Nat) (entry : Entry) : Bool × System :=
  if sys.Room c then (true, sys.push c entry) else (false, sys)

/-- A copy is accepted for a recipient. -/
def accept (sys : System) (c : Nat) (recipient : String) (frame : Option Deliver) : System :=
  { sys with accepted := sys.accepted ++ [⟨c, recipient, frame⟩] }

/-- The recipient that was looked up last. -/
def routedTo (sys : System) (c : Nat) : String := ((sys.conns c).ledger.routed.map Prod.fst).getD ""

/-- A frame is pushed to the recipient that was looked up last. -/
def pushCopy (sys : System) (c conn : Nat) (msg : ServerMsg) : Bool × System :=
  if sys.Room conn then
    (true, (sys.accept c (sys.routedTo c) (frameOf msg)).push conn
      ⟨msg, some sys.accepted.length, none⟩)
  else (false, sys)

end System

theorem System.offer_cases (sys : System) (c : Nat) (entry : Entry) :
    sys.offer c entry = (false, sys) ∨ sys.Room c ∧ sys.offer c entry =
    (true, sys.push c entry) := by
  unfold offer
  split
  · next room => exact .inr ⟨room, rfl⟩
  · exact .inl rfl

theorem System.pushCopy_cases (sys : System) (c conn : Nat) (msg : ServerMsg) :
    sys.pushCopy c conn msg = (false, sys) ∨ sys.Room conn ∧ sys.pushCopy c conn msg =
      (true, (sys.accept c (sys.routedTo c) (frameOf msg)).push conn
        ⟨msg, some sys.accepted.length, none⟩) := by
  unfold pushCopy
  split
  · next room => exact .inr ⟨room, rfl⟩
  · exact .inl rfl

/-- A store with one more row in its outbox. -/
def Store.append (store : Store) (recipient : String) (frame : Bytes) (ts : Int) : Store :=
  { store with
    outbox := store.outbox ++ [⟨store.nextOutboxId, recipient, frame, ts⟩]
    nextOutboxId := store.nextOutboxId + 1 }

theorem Store.enqueueIfUnderCap_cases (store : Store) (recipient : String) (frame : Bytes)
    (ts : Int) :
    store.enqueueIfUnderCap recipient frame ts = (false, store) ∨
      store.enqueueIfUnderCap recipient frame ts = (true, store.append recipient frame ts) := by
  unfold enqueueIfUnderCap
  split
  · exact .inl rfl
  · split
    · exact .inl rfl
    · exact .inr rfl

section

variable [Crates]

/-- The next row that holds a frame, and what comes after it. -/
def nextFrame : List (Nat × Bytes) → Option (Nat × Deliver × List (Nat × Bytes))
  | [] => none
  | (id, bytes) :: rest =>
      match readFrame bytes with
      | some frame => some (id, frame, rest)
      | none => nextFrame rest

/-- What a task has in hand after a request. -/
def Ledger.after : (request : Ask) → request.Answer → Ledger → Ledger
  | .call (.goOnline username _), _, l => { l with user := some username }
  | .call (.pendingFrames _), rows, l => { l with read := rows, hands := rows, pushed := [] }
  | .call (.deleteFrames _), _, l => { l with read := [], hands := [], pushed := [] }
  | .call (.route recipient), answer, l => { l with routed := some (recipient, answer.1) }
  | .sendWait _, true, l =>
      match nextFrame l.hands with
      | some (id, _, rest) => { l with hands := rest, pushed := l.pushed ++ [id] }
      | none => l
  | .sendWait _, false, l => { l with hands := [] }
  | _, _, l => l

namespace System

/-- A frame is stored for a recipient. -/
def enqueue (sys : System) (c : Nat) (recipient : String) (frame : Bytes) (ts : Int) :
    Bool × System :=
  if (sys.store.enqueueIfUnderCap recipient frame ts).1 then
    (true, { sys.accept c recipient (readFrame frame) with
      store := (sys.store.enqueueIfUnderCap recipient frame ts).2
      rowCopy := Function.update sys.rowCopy sys.store.nextOutboxId (some sys.accepted.length) })
  else (false, sys)

/-- The row the flush of a connection has come to. -/
def nextRow (sys : System) (c : Nat) : Option Nat := (nextFrame
    (sys.conns c).ledger.hands).map Prod.fst

/-- A flush pushes the row it has come to into the connection's own channel. -/
def pushRow (sys : System) (c : Nat) (msg : ServerMsg) : Bool × System :=
  if (sys.conns c).alive then
    (true, { sys with pushedRows := sys.pushedRows ++ (sys.nextRow c).toList }.push c
      ⟨msg, (sys.nextRow c).bind sys.rowCopy, sys.nextRow c⟩)
  else (false, sys)

/-- The task notes what it was answered. -/
def note (sys : System) (c : Nat) (request : Ask) (answer : request.Answer) : System :=
  sys.update c fun conn => { conn with ledger := conn.ledger.after request answer }

end System

/-- Its timestamp is one that can be read. -/
def InRange : Option ClientMsg → Prop
  | some (.send msg) => IsI64 msg.clientTs
  | _ => True

/-- What a request of connection `c` does to the store and the channels. `send().await` waits until
there is room or the writer is gone. -/
def Ask.effect (c : Nat) : Prog.Step System Ask Ask.Answer
  | .call (.enqueue recipient frame ts), sys, answer, sys' =>
      (answer, sys') = sys.enqueue c recipient frame ts
  | .call op, sys, answer, sys' =>
      answer = (op.exec sys.store).1 ∧ sys' = { sys with store := (op.exec sys.store).2 }
  | .trySend msg, sys, answer, sys' => (answer, sys') = sys.offer c ⟨msg, none, none⟩
  | .sendWait msg, sys, answer, sys' =>
      ((sys.conns c).alive = true → (sys.conns c).chan.length < outboundCap) ∧
        (answer, sys') = sys.pushRow c msg
  | .push conn msg, sys, answer, sys' => (answer, sys') = sys.pushCopy c conn msg
  | .now, sys, answer, sys' => IsI64 answer ∧ sys' = sys
  | _, sys, _, sys' => sys' = sys

/-- What a request does, and that it is recorded. -/
def Ask.onSystem (c : Nat) : Prog.Step System Ask Ask.Answer := fun request sys answer sys' =>
  ∃ mid, request.effect c sys answer mid ∧ sys' = mid.note c request answer

/-- Which requests and which stops of writers are considered. -/
structure Rules where
  ask : Nat → Ask → System → Prop
  stop : Nat → System → Prop

/-- Every run is admitted. -/
def Rules.none : Rules := ⟨fun _ _ _ => True, fun _ _ => True⟩

/-- What happens without a task: a connection is accepted, a writer takes a message from its
channel, writes it, or stops, and the outbox is pruned. -/
inductive Drift (rules : Rules) : System → System → Prop where
  | accept {sys : System} {c : Nat} (fresh : (sys.conns c).life = .fresh) :
      Drift rules sys (sys.update c fun conn => { conn with life := .open, alive := true })
  | take {sys : System} {c : Nat} {entry : Entry} {rest : List Entry}
      (alive : (sys.conns c).alive = true) (idle : (sys.conns c).writing = none)
      (first : (sys.conns c).chan = entry :: rest) :
      Drift rules sys (sys.update c fun conn => { conn with chan := rest, writing := some entry })
  | write {sys : System} {c : Nat} {entry : Entry} (busy : (sys.conns c).writing = some entry) :
      Drift rules sys { sys.update c fun conn => { conn with writing := none } with
        written := sys.written ++ [(c, entry)] }
  | stop {sys : System} {c : Nat} (alive : (sys.conns c).alive = true)
      (allowed : rules.stop c sys) :
      Drift rules sys
        (sys.update c fun conn => { conn with alive := false, chan := [], writing := none })
  | prune {sys : System} {cutoff : Int} :
      Drift rules sys { sys with
        store := { sys.store with outbox := sys.store.outbox.filter fun row => cutoff ≤ row.ts }
        pruned := sys.pruned ++
          (sys.store.outbox.filter fun row => row.ts < cutoff).filterMap fun row =>
          sys.rowCopy row.id }

/-- A task handles a message that was read, or closes its connection when reading failed. -/
inductive Begins (config : ServerConfig) (c : Nat) : Task ConnState → System → System → Prop where
  | receive {sys : System} {msg : Option ClientMsg} (isOpen : (sys.conns c).life = .open)
      (inRange : InRange msg) : Begins config c (handle c config (sys.conns c).state msg) sys sys
  | hangUp {sys : System} (isOpen : (sys.conns c).life = .open) :
      Begins config c ((close c (sys.conns c).state).bind fun _ => .done (sys.conns c).state) sys
        (sys.update c fun conn => { conn with life := .closing })

/-- The relay. -/
def relay (config : ServerConfig) (rules : Rules) :
    Crew Nat System Ask Ask.Answer Unit ConnState where
  act c request sys answer sys' := rules.ask c request sys ∧ request.onSystem c sys answer sys'
  begins := Begins config
  ends c result sys sys' := ∃ state, result = .ok state ∧ sys' = sys.update c fun conn =>
    { conn with state, life := if conn.life = .closing then .closed else conn.life }
  drift := Drift rules

/-- The tasks of the connections, and the system. -/
abbrev RelayState := Crew.State Nat System Ask Ask.Answer Unit ConnState

/-- The relay at its start. -/
def started (store : Store) : Crew.State Nat System Ask Ask.Answer Unit ConnState :=
  (fun _ => none, .initial store)

/-- A run under some rules is a run under rules that allow more. -/
theorem reached_mono {config : ServerConfig} {rules rules' : Rules} {state state' : RelayState}
    (asks : ∀ c request sys, rules.ask c request sys → rules'.ask c request sys)
    (stops : ∀ c sys, rules.stop c sys → rules'.stop c sys)
    (reached : Relation.ReflTransGen (relay config rules).Next state state') :
    Relation.ReflTransGen (relay config rules').Next state state' := by
  refine Relation.ReflTransGen.mono (fun _ _ next => Crew.Next.mono ?_ ?_ ?_ ?_ next) _ _ reached
  · exact fun c request sys _ _ made => ⟨asks c request sys made.1, made.2⟩
  · exact fun _ _ _ _ begins => begins
  · exact fun _ _ _ _ ends => ends
  · intro sys _ drifts
    cases drifts with
    | accept fresh => exact .accept fresh
    | take alive idle first => exact .take alive idle first
    | write busy => exact .write busy
    | stop alive allowed => exact .stop alive (stops _ sys allowed)
    | prune => exact .prune

/-! ### What may have happened -/

theorem System.enqueue_cases (sys : System) (c : Nat) (recipient : String) (frame : Bytes)
    (ts : Int) :
    sys.enqueue c recipient frame ts = (false, sys) ∨
      sys.enqueue c recipient frame ts = (true, { sys.accept c recipient (readFrame frame) with
        store := sys.store.append recipient frame ts
        rowCopy := Function.update sys.rowCopy sys.store.nextOutboxId
          (some sys.accepted.length) }) := by
  unfold enqueue
  rcases sys.store.enqueueIfUnderCap_cases recipient frame ts with result | result
  · rw [result]
    exact .inl rfl
  · rw [result]
    exact .inr rfl

theorem System.pushRow_cases (sys : System) (c : Nat) (msg : ServerMsg) :
    ((sys.conns c).alive = false ∧ sys.pushRow c msg = (false, sys)) ∨
      ((sys.conns c).alive = true ∧ sys.pushRow c msg =
        (true, { sys with pushedRows := sys.pushedRows ++ (sys.nextRow c).toList }.push c
          ⟨msg, (sys.nextRow c).bind sys.rowCopy, sys.nextRow c⟩)) := by
  unfold pushRow
  cases (sys.conns c).alive with
  | true => exact .inr ⟨rfl, rfl⟩
  | false => exact .inl ⟨rfl, rfl⟩

end

end Cherm.Relay
