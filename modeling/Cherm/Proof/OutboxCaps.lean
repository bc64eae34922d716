/-
**The outbox caps.**

`enqueue_if_under_cap` keeps the queue of a recipient under a number of rows and a number of bytes.
The bytes of the queue are summed by the database, and its `length` of a text counts characters;
those of the new frame are counted as bytes.

* `Store.uncounted`: the bytes of a queue that the sum leaves out.
* `OutboxCall.Fits`: an admitted frame finds room for these as well.
* `outbox_caps_iff`: a run stays under both caps exactly if every frame does.
-/

import Cherm.Lib.Steps
import Cherm.Relay.Store
import Mathlib.Algebra.Order.BigOperators.Group.List
import Mathlib.Algebra.Order.Group.Nat

namespace Cherm.Relay

/-! ### The calls -/

namespace Store

/-- The cap of `enqueue_if_under_cap`, for any caps. -/
def roomFor (store : Store) (recipient : String) (frame : Bytes) (capRows capBytes : Int) : Bool :=
  decide (((store.pendingFrames recipient).length : Int) < capRows) &&
    decide ((store.outboxBytes recipient : Int) + frame.length ≤ capBytes)

/-- Append a frame, if the recipient is still under both caps. -/
def enqueueUnder (store : Store) (recipient : String) (frame : Bytes) (ts capRows capBytes : Int) :
    Bool × Store :=
  if store.roomFor recipient frame capRows capBytes then
    (true, { store with
      outbox := store.outbox ++ [⟨store.nextOutboxId, recipient, frame, ts⟩]
      nextOutboxId := store.nextOutboxId + 1 })
  else (false, store)

/-- The relay's own caps. -/
theorem enqueueIfUnderCap_eq (store : Store) (recipient : String) (frame : Bytes) (ts : Int) :
    store.enqueueIfUnderCap recipient frame ts = store.enqueueUnder recipient frame ts
      maxOutboxPerRecipient maxOutboxBytesPerRecipient := by
  unfold enqueueIfUnderCap enqueueUnder roomFor
  by_cases rows : maxOutboxPerRecipient ≤ (store.pendingFrames recipient).length
  · rw [if_pos rows, if_neg]
    simp only [Bool.and_eq_true, decide_eq_true_eq]
    omega
  · rw [if_neg rows]
    by_cases bytes : maxOutboxBytesPerRecipient < store.outboxBytes recipient + frame.length
    · rw [if_pos bytes, if_neg]
      simp only [Bool.and_eq_true, decide_eq_true_eq]
      omega
    · rw [if_neg bytes, if_pos]
      simp only [Bool.and_eq_true, decide_eq_true_eq]
      omega

/-- Delete the frames older than the cutoff. -/
def pruneExpired (store : Store) (cutoff : Int) : Store :=
  { store with outbox := store.outbox.filter fun row => ¬ row.ts < cutoff }

end Store

/-- The calls that change an outbox. -/
inductive OutboxCall where
  | enqueue (recipient : String) (frame : Bytes) (ts : Int)
  | delete (ids : List Nat)
  | prune (cutoff : Int)

def OutboxCall.exec (capRows capBytes : Int) : OutboxCall → Store → Store
  | .enqueue recipient frame ts, store =>
      (store.enqueueUnder recipient frame ts capRows capBytes).2
  | .delete ids, store => store.deleteFrames ids
  | .prune cutoff, store => store.pruneExpired cutoff

/-! ### What a queue holds -/

namespace Store

variable {store : Store} {recipient : String}

/-- The bytes of the queued frames. -/
def heldBytes (store : Store) (recipient : String) : Nat :=
  ((store.pendingFrames recipient).map fun row => row.2.length).sum

/-- The bytes that the database does not count: the continuation bytes of characters, and what
follows a NUL. -/
def uncounted (store : Store) (recipient : String) : Nat :=
  ((store.pendingFrames recipient).map fun row => row.2.length - sqlLength row.2).sum

theorem heldBytes_eq (store : Store) (recipient : String) :
    store.heldBytes recipient = store.outboxBytes recipient + store.uncounted recipient := by
  unfold heldBytes outboxBytes uncounted
  induction store.pendingFrames recipient with
  | nil => rfl
  | cons row rest ih =>
      simp only [List.map_cons, List.sum_cons, ih]
      have counted := sqlLength_le row.2
      omega

theorem pendingFrames_append (store : Store) (recipient other : String) (frame : Bytes) (ts : Int) :
    ({ store with
        outbox := store.outbox ++ [⟨store.nextOutboxId, recipient, frame, ts⟩]
        nextOutboxId := store.nextOutboxId + 1 } : Store).pendingFrames other =
      store.pendingFrames other ++ if recipient = other then [(store.nextOutboxId, frame)] else [] := by
  unfold pendingFrames
  rw [List.filter_append, List.map_append]
  by_cases same : recipient = other
  · rw [if_pos same, List.filter_cons_of_pos (by simpa using same)]
    rfl
  · rw [if_neg same, List.filter_cons_of_neg (by simpa using same)]
    rfl

/-- Every queue is within the caps. -/
def Within (capRows capBytes : Int) (store : Store) : Prop :=
  ∀ recipient, ((store.pendingFrames recipient).length : Int) ≤ capRows ∧
    (store.heldBytes recipient : Int) ≤ capBytes

/-- Fewer rows are within the caps too. -/
theorem Within.sublist {capRows capBytes : Int} {outbox : List OutboxRow}
    (within : store.Within capRows capBytes) (fewer : outbox.Sublist store.outbox) :
    ({ store with outbox := outbox } : Store).Within capRows capBytes := by
  intro recipient
  obtain ⟨rows, bytes⟩ := within recipient
  have kept : (({ store with outbox := outbox } : Store).pendingFrames recipient).Sublist
      (store.pendingFrames recipient) := (fewer.filter _).map _
  have lighter : ({ store with outbox := outbox } : Store).heldBytes recipient ≤
      store.heldBytes recipient := (kept.map _).sum_le_sum fun _ _ => Nat.zero_le _
  have shorter := kept.length_le
  exact ⟨by omega, by omega⟩

end Store

/-! ### The condition -/

/-- A frame that is admitted leaves room for the bytes of the queue that were not counted. -/
def OutboxCall.Fits (capRows capBytes : Int) (store : Store) : OutboxCall → Prop
  | .enqueue recipient frame _ => store.roomFor recipient frame capRows capBytes = true →
      (store.uncounted recipient : Int) ≤ capBytes - (store.outboxBytes recipient + frame.length)
  | _ => True

instance (capRows capBytes : Int) (store : Store) (call : OutboxCall) :
    Decidable (call.Fits capRows capBytes store) := by
  cases call with
  | enqueue recipient frame ts =>
      exact inferInstanceAs (Decidable (store.roomFor recipient frame capRows capBytes = true → _))
  | delete ids => exact .isTrue trivial
  | prune cutoff => exact .isTrue trivial

section

variable {capRows capBytes : Int} {store : Store}

/-- A frame that is admitted keeps its queue within the caps if there is room for what was not
counted. -/
theorem within_append_iff {recipient : String} {frame : Bytes} {ts : Int}
    (within : store.Within capRows capBytes)
    (room : store.roomFor recipient frame capRows capBytes = true) :
    ({ store with
        outbox := store.outbox ++ [⟨store.nextOutboxId, recipient, frame, ts⟩]
        nextOutboxId := store.nextOutboxId + 1 } : Store).Within capRows capBytes ↔
      (store.uncounted recipient : Int) ≤
        capBytes - (store.outboxBytes recipient + frame.length) := by
  have counted := store.heldBytes_eq recipient
  have held : ((store.pendingFrames recipient).map fun row => row.2.length).sum =
      store.heldBytes recipient := rfl
  simp only [Store.roomFor, Bool.and_eq_true, decide_eq_true_eq] at room
  constructor
  · intro after
    have bytes := (after recipient).2
    rw [Store.heldBytes, Store.pendingFrames_append, if_pos rfl] at bytes
    simp only [List.map_append, List.sum_append, List.map_cons, List.sum_cons, List.map_nil,
      List.sum_nil, Nat.add_zero] at bytes
    omega
  · intro fits other
    rw [Store.heldBytes, Store.pendingFrames_append]
    by_cases same : recipient = other
    · subst same
      rw [if_pos rfl]
      simp only [List.map_append, List.sum_append, List.map_cons, List.sum_cons, List.map_nil,
        List.sum_nil, Nat.add_zero, List.length_append, List.length_singleton]
      exact ⟨by omega, by omega⟩
    · rw [if_neg same, List.append_nil]
      exact within other

/-- **One call** keeps the queues within the caps exactly if it fits. -/
theorem within_exec_iff (within : store.Within capRows capBytes) (call : OutboxCall) :
    (call.exec capRows capBytes store).Within capRows capBytes ↔
      call.Fits capRows capBytes store := by
  cases call with
  | delete ids => exact ⟨fun _ => trivial, fun _ => within.sublist List.filter_sublist⟩
  | prune cutoff => exact ⟨fun _ => trivial, fun _ => within.sublist List.filter_sublist⟩
  | enqueue recipient frame ts =>
      show (store.enqueueUnder recipient frame ts capRows capBytes).2.Within capRows capBytes ↔ _
      unfold Store.enqueueUnder
      by_cases room : store.roomFor recipient frame capRows capBytes = true
      · rw [if_pos room]
        exact (within_append_iff within room).trans ⟨fun fits _ => fits, fun fits => fits room⟩
      · rw [if_neg room]
        exact ⟨fun _ admitted => absurd admitted room, fun _ => within⟩

/-- Frames of ASCII characters but NUL fit, whatever the caps. -/
theorem fits_of_counted {recipient : String} {frame : Bytes} {ts : Int}
    (counted : ∀ row ∈ store.pendingFrames recipient, sqlLength row.2 = row.2.length) :
    (OutboxCall.enqueue recipient frame ts).Fits capRows capBytes store := by
  intro room
  have none : store.uncounted recipient = 0 := by
    refine List.sum_eq_zero fun n member => ?_
    obtain ⟨row, queued, rfl⟩ := List.mem_map.mp member
    have same := counted row queued
    omega
  simp only [Store.roomFor, Bool.and_eq_true, decide_eq_true_eq] at room
  omega

end

/-! ### Runs -/

/-- **The caps hold after every call of a run exactly if every call of it fits.** -/
theorem outbox_caps_iff (capRows capBytes : Int) (calls : List OutboxCall) (start : Store)
    (within : start.Within capRows capBytes) :
    Steps.Each (OutboxCall.exec capRows capBytes)
        (fun call store => (call.exec capRows capBytes store).Within capRows capBytes) calls start ↔
      Steps.Each (OutboxCall.exec capRows capBytes)
        (fun call store => call.Fits capRows capBytes store) calls start :=
  Steps.each_iff (fun call _ holds => within_exec_iff holds call) within

theorem empty_within : Store.empty.Within 100 5 := fun _ =>
  ⟨show (0 : Int) ≤ 100 by decide, show (0 : Int) ≤ 5 by decide⟩

/-- Three frames of ASCII characters: the last one is refused. -/
theorem ascii_caps : Steps.Each (OutboxCall.exec 100 5)
    (fun call store => (call.exec 100 5 store).Within 100 5)
    [.enqueue "alice" (utf8 "abc") 1, .enqueue "alice" (utf8 "xy") 2, .enqueue "alice" (utf8 "z") 3]
    .empty :=
  (outbox_caps_iff 100 5 _ .empty empty_within).mpr
    ⟨by decide, by decide, by decide, trivial⟩

/-- **A queue beyond its budget.** Two characters of two bytes count as two, and three bytes more
are let in. -/
theorem wide_text_over_cap :
    ¬ ∀ (capRows capBytes : Int) (calls : List OutboxCall) (start : Store),
      start.Within capRows capBytes → Steps.Each (OutboxCall.exec capRows capBytes)
        (fun call store => (call.exec capRows capBytes store).Within capRows capBytes) calls
        start := by
  intro law
  have states := law 100 5 [.enqueue "alice" (utf8 "éé") 1, .enqueue "alice" (utf8 "abc") 2] .empty
    empty_within
  have bytes := (states.2.1 "alice").2
  exact absurd bytes (by decide)

end Cherm.Relay
