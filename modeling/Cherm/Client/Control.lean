/-
**One connection and its control replies.**

There are no request ids: a caller of `sendAndWait` takes the control lock, puts its sender in the
one slot, posts its message and waits; the reader hands every control reply to the slot. `Line` is
the client's side together with the relay's read loop, which handles the messages in order.

* `Line.step`: a step of a caller, of the relay, or of the reader.
* An inbound frame carries the request during whose handling it was written; nothing reads that.
* `Line.due`: the requests whose replies are still to come, in order.
-/

import Cherm.Relay.Replies

namespace Cherm.Control

open Relay (handle repliesTo pullsQuietly)

/-- A message that was posted, and how many were before. -/
abbrev Request := Nat × ClientMsg

/-- A message the relay has sent, and the request it replies to. -/
structure Inbound where
  origin : Option Request
  msg : ServerMsg

/-- Who holds the control lock. -/
inductive Holder where
  | nobody
  /-- The sender is in the slot; the message is not posted yet. -/
  | installed (msg : ClientMsg)
  /-- A reply came before it was. -/
  | early (msg : ClientMsg) (reply : Inbound)
  | awaiting (request : Request)
  | answered (request : Request) (reply : Inbound)
  /-- The time is over; the slot is not cleared yet. -/
  | expired

/-- The request that the relay handles, the replies it has yet to make, and what is left to do. -/
structure Handling where
  request : Request
  left : Nat
  rest : Relay.Task ConnState

/-- One connection: the client's end, the relay's, and what is between them. -/
structure Line where
  posted : Nat
  outbound : List Request
  conn : ConnState
  busy : Option Handling
  inbound : List Inbound
  holder : Holder

/-- What may happen next on the line. -/
inductive Turn where
  /-- `sendAndWait` takes the lock, if it is free. -/
  | request (msg : ClientMsg)
  | post
  /-- `send`. -/
  | fire (msg : ClientMsg)
  /-- The relay takes the next message. -/
  | read
  /-- The relay's handler makes its next request. -/
  | serve (world : (asked : Relay.Ask) → asked.Answer)
  /-- Another task of the relay writes a frame. -/
  | push (msg : ServerMsg)
  /-- The reader takes the next frame. -/
  | receive
  | expire
  | clear
  /-- `sendAndWait` returns. -/
  | finish

/-- What a request of the relay's handler puts on the wire. -/
def written (request : Request) : (asked : Relay.Ask) → asked.Answer → List Inbound
  | .trySend msg, true | .sendWait msg, true => [⟨some request, msg⟩]
  | _, _ => []

/-- The writer takes a message. -/
def Line.put (l : Line) (msg : ClientMsg) : Line :=
  { l with posted := l.posted + 1, outbound := l.outbound ++ [(l.posted, msg)] }

/-- The reader hands a control reply to the slot. -/
def Holder.given (reply : Inbound) : Holder → Holder
  | .installed msg => .early msg reply
  | .awaiting request => .answered request reply
  -- its receiver is gone, or the slot is empty
  | holder => holder

section

variable [Crates]

/-- One turn; one that is not possible does nothing. -/
def Line.step (server : Nat) (config : ServerConfig) : Turn → Line → Line
  | .request msg, l => match l.holder with
      | .nobody => { l with holder := .installed msg }
      | _ => l
  | .post, l => match l.holder with
      | .installed msg => { l.put msg with holder := .awaiting (l.posted, msg) }
      | .early msg reply => { l.put msg with holder := .answered (l.posted, msg) reply }
      | _ => l
  | .fire msg, l => l.put msg
  | .read, l => match l.busy, l.outbound with
      | none, request :: rest => { l with
          outbound := rest
          busy := some ⟨request, repliesTo l.conn request.2,
            handle server config l.conn (some request.2)⟩ }
      | _, _ => l
  | .serve world, l => match l.busy with
      | some ⟨request, left, .ask asked next⟩ => { l with
          busy := some ⟨request, if asked.replies then left - 1 else left, next (world asked)⟩
          inbound := l.inbound ++ written request asked (world asked) }
      | some ⟨_, _, .done conn⟩ => { l with busy := none, conn := conn }
      | some ⟨_, _, .fail _⟩ => { l with busy := none }
      | none => l
  | .push msg, l => if msg.control then l else { l with inbound := l.inbound ++ [⟨none, msg⟩] }
  | .receive, l => match l.inbound with
      | [] => l
      | frame :: rest =>
          { l with inbound := rest
                   holder := if frame.msg.control then l.holder.given frame else l.holder }
  | .expire, l => match l.holder with
      | .awaiting _ => { l with holder := .expired }
      | _ => l
  | .clear, l => match l.holder with
      | .expired => { l with holder := .nobody }
      | _ => l
  | .finish, l => match l.holder with
      | .answered .. => { l with holder := .nobody }
      | _ => l

/-- A connection of the relay, whoever it speaks for. -/
def Line.start (conn : ConnState) : Line := ⟨0, [], conn, none, [], .nobody⟩

/-! ### What is still to come -/

/-- The requests whose replies are on the way back. -/
def repliesIn (inbound : List Inbound) : List (Option Request) :=
  (inbound.filter fun frame => frame.msg.control).map Inbound.origin

/-- The request that is being handled, if it is to be replied to. -/
def replyOf : Option Handling → List (Option Request)
  | some handling => if handling.left = 0 then [] else [some handling.request]
  | none => []

/-- The requests that are not read yet, and are to be replied to. -/
def repliesOut (conn : ConnState) (outbound : List Request) : List (Option Request) :=
  (outbound.filter fun request => !pullsQuietly conn request.2).map some

/-- The requests whose replies are still to come, in order. -/
def Line.due (l : Line) : List (Option Request) :=
  repliesIn l.inbound ++ (replyOf l.busy ++ repliesOut l.conn l.outbound)

end

end Cherm.Control
