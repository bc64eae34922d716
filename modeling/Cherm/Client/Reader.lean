/-
**The reader of a connection: where a message of the relay goes.**

Frames go to the processor through a bounded queue, and the reader never waits for room in it: a
frame that finds the queue full ends the connection. Everything else is a reply to the one request
in progress, or a notice for the user interface.
-/

import Cherm.Client.Identity

namespace Cherm

/-- The bound of the queue. -/
def inQueue : Nat := 2048

/-- Where a message goes. -/
inductive Routed where
  | queue (inc : Incoming)
  | overflow
  | drop
  | notice
  | reply (msg : ServerMsg)
deriving DecidableEq

def Deliver.incoming (frame : Deliver) : Incoming :=
  ⟨frame.from, frame.msgType, frame.payload, frame.groupId, frame.clientTs⟩

/-- The dispatch of the reader, with that many frames in the queue. -/
def route (waiting : Nat) : ServerMsg → Routed
  | .deliver frame =>
      if maxPayload < frame.payload.utf8ByteSize then .drop
      else if waiting < inQueue then .queue frame.incoming
      else .overflow
  | .maintenance .. => .notice
  | msg => .reply msg

/-- A frame that the reader queues as long as there is room. -/
def ServerMsg.ForQueue : ServerMsg → Prop
  | .deliver frame => frame.payload.utf8ByteSize ≤ maxPayload
  | _ => False

instance (msg : ServerMsg) : Decidable msg.ForQueue := by
  cases msg <;> unfold ServerMsg.ForQueue <;> infer_instance

theorem route_queue {waiting : Nat} {msg : ServerMsg} {inc : Incoming}
    (routed : route waiting msg = .queue inc) : msg.ForQueue ∧ waiting < inQueue := by
  cases msg with
  | deliver frame =>
      rw [route] at routed
      split at routed
      · cases routed
      next small =>
      split at routed
      · next room => exact ⟨Nat.not_lt.mp small, room⟩
      · cases routed
  | _ => cases routed

theorem route_overflow {waiting : Nat} {msg : ServerMsg} (routed : route waiting msg = .overflow) :
    msg.ForQueue ∧ inQueue ≤ waiting := by
  cases msg with
  | deliver frame =>
      rw [route] at routed
      split at routed
      · cases routed
      next small =>
      split at routed
      · cases routed
      · next full => exact ⟨Nat.not_lt.mp small, Nat.not_lt.mp full⟩
  | _ => cases routed

theorem route_of_room {waiting : Nat} {msg : ServerMsg} (forQueue : msg.ForQueue)
    (room : waiting < inQueue) : ∃ inc, route waiting msg = .queue inc := by
  cases msg with
  | deliver frame =>
      refine ⟨frame.incoming, ?_⟩
      rw [route, if_neg (Nat.not_lt.mpr forQueue), if_pos room]
  | _ => exact forQueue.elim

theorem route_of_full {waiting : Nat} {msg : ServerMsg} (forQueue : msg.ForQueue)
    (full : inQueue ≤ waiting) : route waiting msg = .overflow := by
  cases msg with
  | deliver frame => rw [route, if_neg (Nat.not_lt.mpr forQueue), if_neg (Nat.not_lt.mpr full)]
  | _ => exact forQueue.elim

end Cherm
