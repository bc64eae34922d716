/-
**The relay's door.**

One task accepts connections; each that is admitted gets a task of its own, which holds one of the
relay's permits and one slot of its address. A signal makes the relay drain: it admits nobody, and
exits after a while.

* `admitIp` and `dropIpGuard`: the counts of the addresses, behind a lock.
* `Front`: what the tasks hold, and how far the accepting task and the signal handler have come.
* `Front.step`: one step of one of them. A run is any sequence of these, so it is any interleaving.
-/

import Cherm.Lib.Steps
import Cherm.Lib.Table

namespace Cherm.Relay

def maxConnections : Nat := 4096

def maxConnectionsPerIp : Nat := 64

section

variable {Ip : Type} [DecidableEq Ip]

/-- The live connections of each address. There is nothing behind a lock that is poisoned. -/
abbrev IpCounts (Ip : Type) := Option (Table Ip Nat)

/-- `admit_ip`: whether there is a guard. -/
def admitIp (counts : IpCounts Ip) (ip : Ip) : Bool × IpCounts Ip :=
  match counts with
  | none => (false, none)
  | some map =>
      let n := (map.get ip).getD 0
      let map := map.put ip n
      if maxConnectionsPerIp ≤ n then (false, some (if n = 0 then map.erase ip else map))
      else (true, some (map.put ip (n + 1)))

/-- Dropping an `IpGuard`. Below zero it would panic, and poison the lock. -/
def dropIpGuard (counts : IpCounts Ip) (ip : Ip) : IpCounts Ip :=
  match counts with
  | none => none
  | some map =>
      match map.get ip with
      | none => some map
      | some 0 => none
      | some (n + 1) => some (if n = 0 then (map.put ip n).erase ip else map.put ip n)

/-- How far the accepting task has come with a connection. -/
inductive Acceptor (Ip : Type) where
  | waiting
  | taken (ip : Ip)
  /-- The relay was not draining. -/
  | passed (ip : Ip)
  | permitted (ip : Ip)
  | refused (ip : Ip)
  | guarded (ip : Ip)
deriving DecidableEq

/-- A connection's task: it drops the guard before the permit. -/
inductive Phase where
  | serving
  | leaving
deriving DecidableEq

/-- The handler of the signal. -/
inductive Handler where
  | idle
  | draining
  | told
  | exited
deriving DecidableEq

/-- The tasks in the order they were spawned. `served` and `notices` are records: the addresses that
were admitted, and how often the clients were told. -/
structure Front (Ip : Type) where
  acceptor : Acceptor Ip
  tasks : List (Ip × Phase)
  counts : IpCounts Ip
  permits : Nat
  draining : Bool
  handler : Handler
  served : List Ip
  notices : Nat

/-- Who takes a step: the listener has a connection or an error, the accepting task goes on, a
connection ends or its task does, there is a signal, or the handler goes on. -/
inductive Move (Ip : Type) where
  | connection (ip : Ip)
  | acceptError
  | proceed
  | ends (i : Nat)
  | release (i : Nat)
  | signal
  | handler

namespace Front

def initial : Front Ip := ⟨.waiting, [], some ∅, maxConnections, false, .idle, [], 0⟩

/-- The next statement of the accepting task. -/
def proceed (front : Front Ip) : Front Ip :=
  match front.acceptor with
  | .waiting => front
  | .taken ip =>
      if front.draining then { front with acceptor := .waiting }
      else { front with acceptor := .passed ip }
  | .passed ip =>
      if front.permits = 0 then { front with acceptor := .waiting }
      else { front with acceptor := .permitted ip, permits := front.permits - 1 }
  | .permitted ip =>
      let (admitted, counts) := admitIp front.counts ip
      { front with acceptor := if admitted then .guarded ip else .refused ip, counts := counts }
  | .refused _ => { front with acceptor := .waiting, permits := front.permits + 1 }
  | .guarded ip =>
      { front with
        acceptor := .waiting
        tasks := front.tasks ++ [(ip, .serving)]
        served := front.served ++ [ip] }

/-- What cannot happen in a state leaves it as it is. -/
def make (front : Front Ip) : Move Ip → Front Ip
  | .connection ip =>
      if front.acceptor = .waiting then { front with acceptor := .taken ip } else front
  | .acceptError => front
  | .proceed => front.proceed
  | .ends i =>
      match front.tasks[i]? with
      | some (ip, .serving) =>
          { front with
            tasks := front.tasks.set i (ip, .leaving)
            counts := dropIpGuard front.counts ip }
      | _ => front
  | .release i =>
      match front.tasks[i]? with
      | some (_, .leaving) =>
          { front with tasks := front.tasks.eraseIdx i, permits := front.permits + 1 }
      | _ => front
  | .signal =>
      if front.handler = .idle ∧ front.draining = false then
        { front with draining := true, handler := .draining }
      else front
  | .handler =>
      match front.handler with
      | .draining => { front with handler := .told, notices := front.notices + 1 }
      | .told => { front with handler := .exited }
      | _ => front

/-- One step of one task, until the process has exited. -/
def step (move : Move Ip) (front : Front Ip) : Front Ip :=
  if front.handler = .exited then front else front.make move

end Front

end

end Cherm.Relay
