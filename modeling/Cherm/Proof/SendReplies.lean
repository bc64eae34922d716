/-
**What the reply to a Send tells.**

The reply is decided from two booleans that the loop over the recipients carries: that some copy was
pushed or stored, and that some name was not found. A copy that was dropped is in neither of them.

* `Ask.onDatabase`: the database may fail a call. The code takes the error for `false`.
* `Met`: what the relay meets with for one recipient, and what becomes of their copy.
* `fanOut_met`: what the two booleans are, by induction on the recipients.
* `truthful_iff` is the result: the reply is truthful unless a copy was dropped and the other names
  hide it.
-/

import Cherm.Proof.FanOut

namespace Cherm

namespace Relay

open Crates

/-- What becomes of a recipient's copy. `unread` is a user whom the database failed to look up. -/
inductive Fate where
  | kept
  | dropped
  | unknown
  | unread
deriving DecidableEq

/-- The copy of a registered user, which they do not get. -/
def Fate.Lost (fate : Fate) : Prop := fate = .dropped ∨ fate = .unread

/-- The name was not found. -/
def Fate.Missed (fate : Fate) : Prop := fate = .unknown ∨ fate = .unread

instance (fate : Fate) : Decidable fate.Lost := inferInstanceAs (Decidable (_ ∨ _))

instance (fate : Fate) : Decidable fate.Missed := inferInstanceAs (Decidable (_ ∨ _))

def IsError (msg : ServerMsg) : Prop := ∃ code text, msg = .error code text

/-- The reply tells the sender of a copy that a user does not get, and that there is nobody to get
one. -/
structure Truthful (fates : List Fate) (answered : ServerMsg) : Prop where
  ok : answered = .ok none → ∀ fate ∈ fates, ¬ fate.Lost
  lost : (∃ fate ∈ fates, fate.Lost) → IsError answered
  nobody : fates ≠ [] → (∀ fate ∈ fates, fate = .unknown) → IsError answered

theorem sendReply_error {fates : List Fate} (none : .kept ∉ fates)
    (missed : ∃ fate ∈ fates, fate.Missed) :
    sendReply (decide (∃ fate ∈ fates, fate = .kept)) (decide (∃ fate ∈ fates, fate.Missed)) =
      .error ErrCode.unknownUser "no such recipient" := by
  have unkept : ¬ ∃ fate ∈ fates, fate = .kept := by
    rintro ⟨_, member, rfl⟩
    exact none member
  rw [decide_eq_false unkept, decide_eq_true missed]
  rfl

theorem sendReply_ok {fates : List Fate}
    (silent : ¬ (.kept ∉ fates ∧ ∃ fate ∈ fates, fate.Missed)) :
    sendReply (decide (∃ fate ∈ fates, fate = .kept)) (decide (∃ fate ∈ fates, fate.Missed)) =
      .ok none := by
  by_cases kept : .kept ∈ fates
  · rw [decide_eq_true ⟨_, kept, rfl⟩]
    rfl
  · rw [decide_eq_false fun missed => silent ⟨kept, missed⟩]
    cases decide (∃ fate ∈ fates, fate = .kept) <;> rfl

/-- The error goes out when nothing was kept and some name was missed. -/
theorem truthful_sendReply (fates : List Fate) :
    Truthful fates (sendReply (decide (∃ fate ∈ fates, fate = .kept))
        (decide (∃ fate ∈ fates, fate.Missed))) ↔
      (∀ fate ∈ fates, ¬ fate.Lost) ∨ .kept ∉ fates ∧ ∃ fate ∈ fates, fate.Missed := by
  by_cases told : .kept ∉ fates ∧ ∃ fate ∈ fates, fate.Missed
  · rw [sendReply_error told.1 told.2]
    have isError : IsError (.error ErrCode.unknownUser "no such recipient") := ⟨_, _, rfl⟩
    exact ⟨fun _ => .inr told, fun _ => ⟨nofun, fun _ => isError, fun _ _ => isError⟩⟩
  · rw [sendReply_ok told]
    constructor
    · intro truthful
      exact .inl (truthful.ok rfl)
    · rintro (intact | told')
      · refine ⟨fun _ => intact, fun ⟨fate, member, lost⟩ => absurd lost (intact fate member),
          fun some unknown => absurd ⟨fun kept => ?_, ?_⟩ told⟩
        · cases unknown _ kept
        · obtain ⟨fate, member⟩ := List.exists_mem_of_ne_nil fates some
          exact ⟨fate, member, .inl (unknown fate member)⟩
      · exact absurd told' told

section

variable [Crates]

/-! ### A database that may fail -/

/-- The answer of a call that the database failed, which is then left as it was. -/
def Ask.fails : (request : Ask) → System → request.Answer → Prop
  | .call (.route recipient), sys, answer => answer = (sys.store.online.get recipient, false)
  | .call (.enqueue _ _ _), _, answer => answer = false
  | _, _, _ => False

def Ask.onDatabase (c : Nat) : Prog.Step System Ask Ask.Answer := fun request sys answer sys' =>
  request.onSystem c sys answer sys' ∨ request.fails sys answer ∧ sys' = sys

/-! ### One recipient -/

section

variable (frame : Deliver) (recipient : String)

/-- A copy is to be stored. -/
inductive Queued : Made → Fate → Prop where
  | stored {sys sys' : System} (room : ¬ sys.store.Full recipient (writeFrame frame))
      (row : sys'.store = sys.store.append recipient (writeFrame frame) frame.serverTs) :
      Queued ⟨.call (.enqueue recipient (writeFrame frame) frame.serverTs), sys, true, sys'⟩ .kept
  | full {sys sys' : System} (full : sys.store.Full recipient (writeFrame frame))
      (store : sys'.store = sys.store) :
      Queued ⟨.call (.enqueue recipient (writeFrame frame) frame.serverTs), sys, false, sys'⟩
        .dropped
  | failed {sys sys' : System} (room : ¬ sys.store.Full recipient (writeFrame frame))
      (store : sys'.store = sys.store) :
      Queued ⟨.call (.enqueue recipient (writeFrame frame) frame.serverTs), sys, false, sys'⟩
        .dropped

/-- The copy of a registered user, who has this channel. -/
inductive Posted : Option Nat → List Made → Fate → Prop where
  | pushed {conn : Nat} {sys sys' : System} (room : sys.Room conn)
      (mail : sys'.mail = Function.update sys.mail conn (sys.mail conn ++ [.deliver frame])) :
      Posted (some conn) [⟨.push conn (.deliver frame), sys, true, sys'⟩] .kept
  | full {conn : Nat} {sys sys' : System} {event : Made} {fate : Fate} (noRoom : ¬ sys.Room conn)
      (queued : Queued frame recipient event fate) :
      Posted (some conn) [⟨.push conn (.deliver frame), sys, false, sys'⟩, event] fate
  | offline {event : Made} {fate : Fate} (queued : Queued frame recipient event fate) :
      Posted none [event] fate

/-- What the relay meets with for a recipient. -/
inductive Met : List Made → Fate → Prop where
  | unknown {sys sys' : System} (nobody : sys.store.usernameExists recipient = false) :
      Met [⟨.call (.route recipient), sys, (sys.store.online.get recipient, false), sys'⟩] .unknown
  | unread {sys sys' : System} (registered : sys.store.usernameExists recipient = true) :
      Met [⟨.call (.route recipient), sys, (sys.store.online.get recipient, false), sys'⟩] .unread
  | known {sys sys' : System} {online : Option Nat} {events : List Made} {fate : Fate}
      (registered : sys.store.usernameExists recipient = true)
      (reached : sys.store.online.get recipient = online)
      (posted : Posted frame recipient online events fate) :
      Met (⟨.call (.route recipient), sys, (online, true), sys'⟩ :: events) fate

end

section

variable {c : Nat} {frame : Deliver} {recipient : String}

theorem onDatabase_route {sys sys' : System} {answer : Option Nat × Bool}
    (made : (Ask.call (.route recipient)).onDatabase c sys answer sys') :
    answer = (sys.store.online.get recipient, answer.2) ∧
      (answer.2 = true → sys.store.usernameExists recipient = true) := by
  obtain made | ⟨rfl, _⟩ := made
  · obtain ⟨rfl, _, _⟩ := route_event made
    exact ⟨rfl, id⟩
  · exact ⟨rfl, nofun⟩

theorem onDatabase_push {conn : Nat} {sys sys' : System} {answer : Bool}
    (made : (Ask.push conn (.deliver frame)).onDatabase c sys answer sys') :
    sys.Room conn ∧ answer = true ∧
        sys'.mail = Function.update sys.mail conn (sys.mail conn ++ [.deliver frame]) ∨
      ¬ sys.Room conn ∧ answer = false := by
  obtain made | ⟨fails, _⟩ := made
  · obtain ⟨mid, made, rfl⟩ := made
    have made : (answer, mid) = sys.pushCopy c conn (.deliver frame) := made
    unfold System.pushCopy at made
    split at made
    · next room =>
      obtain ⟨rfl, rfl⟩ := Prod.mk.inj made
      rw [note_mail]
      exact .inl ⟨room, rfl, push_mail ..⟩
    · next full => exact .inr ⟨full, (Prod.mk.inj made).1⟩
  · exact fails.elim

theorem onDatabase_enqueue {sys sys' : System} {answer : Bool}
    (made : (Ask.call (.enqueue recipient (writeFrame frame) frame.serverTs)).onDatabase c sys
      answer sys') :
    ∃ fate, Queued frame recipient
      ⟨.call (.enqueue recipient (writeFrame frame) frame.serverTs), sys, answer, sys'⟩ fate ∧
      answer = decide (fate = .kept) ∧ ¬ fate.Missed := by
  obtain made | ⟨rfl, rfl⟩ := made
  · obtain ⟨answered, store⟩ := Ask.onSystem_store made
    have answered : answer = (sys.store.enqueueIfUnderCap recipient (writeFrame frame)
        frame.serverTs).1 := answered
    have store : sys'.store = (sys.store.enqueueIfUnderCap recipient (writeFrame frame)
        frame.serverTs).2 := store
    unfold Store.enqueueIfUnderCap at answered store
    by_cases rows : maxOutboxPerRecipient ≤ (sys.store.pendingFrames recipient).length
    · rw [if_pos rows] at answered store
      subst answered
      exact ⟨.dropped, .full (.inl rows) store, rfl, by decide⟩
    · rw [if_neg rows] at answered store
      by_cases bytes : maxOutboxBytesPerRecipient <
          sys.store.outboxBytes recipient + (writeFrame frame).length
      · rw [if_pos bytes] at answered store
        subst answered
        exact ⟨.dropped, .full (.inr bytes) store, rfl, by decide⟩
      · rw [if_neg bytes] at answered store
        subst answered
        exact ⟨.kept, .stored (fun full => full.elim rows bytes) store, rfl, by decide⟩
  · by_cases full : sys'.store.Full recipient (writeFrame frame)
    · exact ⟨.dropped, .full full rfl, rfl, by decide⟩
    · exact ⟨.dropped, .failed full rfl, rfl, by decide⟩

theorem enqueue_met {delivered unknown : Bool} {result : Bool × Bool} {events : List Made}
    (along : Prog.Along (Ask.onDatabase c) ((call (.enqueue recipient (writeFrame frame)
      frame.serverTs)).bind
      fun stored => Prog.done (delivered || stored, unknown)) events (.done result)) :
    ∃ event fate, events = [event] ∧ Queued frame recipient event fate ∧
      result = (delivered || decide (fate = .kept), unknown || decide fate.Missed) := by
  obtain ⟨sys, answer, sys', later, rfl, made, along⟩ := Prog.along_ask along
  obtain ⟨rfl, same⟩ := Prog.along_done along
  obtain ⟨fate, queued, rfl, found⟩ := onDatabase_enqueue made
  cases same
  refine ⟨_, fate, rfl, queued, ?_⟩
  rw [decide_eq_false found, Bool.or_false]

/-- A recipient is met with, and the two booleans say what was met. -/
theorem deliverTo_met {delivered unknown : Bool} {result : Bool × Bool} {events : List Made}
    (along : Prog.Along (Ask.onDatabase c) (deliverTo frame (writeFrame frame) recipient
      delivered unknown) events (.done result)) :
    ∃ fate, Met frame recipient events fate ∧
      result = (delivered || decide (fate = .kept), unknown || decide fate.Missed) := by
  obtain ⟨sys, ⟨online, known⟩, sys', later, rfl, made, along⟩ := Prog.along_ask along
  obtain ⟨same, registered⟩ := onDatabase_route made
  have reached : sys.store.online.get recipient = online := (Prod.mk.inj same).1.symm
  cases known with
  | false =>
      obtain ⟨rfl, same⟩ := Prog.along_done along
      cases same
      subst reached
      cases exist : sys.store.usernameExists recipient with
      | false => exact ⟨.unknown, .unknown exist, by simp [Fate.Missed]⟩
      | true => exact ⟨.unread, .unread exist, by simp [Fate.Missed]⟩
  | true =>
      cases online with
      | none =>
          obtain ⟨event, fate, rfl, queued, rfl⟩ := enqueue_met along
          exact ⟨fate, .known (registered rfl) reached (.offline queued), rfl⟩
      | some conn =>
          obtain ⟨sys₁, pushed, sys₁', later, rfl, made, along⟩ := Prog.along_ask along
          obtain ⟨room, rfl, mail⟩ | ⟨noRoom, rfl⟩ := onDatabase_push made
          · obtain ⟨rfl, same⟩ := Prog.along_done along
            cases same
            exact ⟨.kept, .known (registered rfl) reached (.pushed room mail),
              by simp [Fate.Missed]⟩
          · obtain ⟨event, fate, rfl, queued, rfl⟩ := enqueue_met along
            exact ⟨fate, .known (registered rfl) reached (.full noRoom queued), rfl⟩

/-! ### All recipients -/

/-- One round of the loop: whose it is, its requests, and what became of the copy. -/
structure RecipientTurn where
  recipient : String
  events : List Made
  fate : Fate

/-- **What the two booleans are**, by induction on the recipients. -/
theorem fanOut_met {sender : String} (recipients : List String) {delivered unknown : Bool}
    {result : Bool × Bool} {events : List Made}
    (along : Prog.Along (Ask.onDatabase c) (fanOut sender frame (writeFrame frame) recipients
      delivered unknown) events (.done result)) :
    ∃ turns : List RecipientTurn, events = turns.flatMap RecipientTurn.events ∧
      turns.map RecipientTurn.recipient = recipients.filter (· ≠ sender) ∧
      (∀ turn ∈ turns, Met frame turn.recipient turn.events turn.fate) ∧
      result = (delivered || decide (∃ turn ∈ turns, turn.fate = .kept),
        unknown || decide (∃ turn ∈ turns, turn.fate.Missed)) := by
  induction recipients generalizing delivered unknown events with
  | nil =>
      obtain ⟨rfl, same⟩ := Prog.along_done along
      cases same
      exact ⟨[], rfl, rfl, nofun, by simp⟩
  | cons recipient rest ih =>
      by_cases own : recipient = sender
      · rw [fanOut, if_pos own] at along
        rw [List.filter_cons_of_neg (by simpa using own)]
        exact ih along
      · rw [fanOut_cons own] at along
        rw [List.filter_cons_of_pos (by simpa using own)]
        obtain ⟨mid, front, back, rfl, first, others⟩ := Prog.along_bind along
        obtain ⟨fate, met, rfl⟩ := deliverTo_met first
        obtain ⟨turns, rfl, names, each, rfl⟩ := ih others
        refine ⟨⟨recipient, front, fate⟩ :: turns, rfl, congrArg (recipient :: ·) names,
          List.forall_mem_cons.mpr ⟨met, each⟩, ?_⟩
        simp only [List.exists_mem_cons_iff, Bool.decide_or, Bool.or_assoc]

end

/-! ### The reply -/

/-- An accepted message: what was met with for each name it lists but the sender's own, and what
was answered. -/
structure Answered (sender : String) (msg : SendMsg) (events : List Made)
    (turns : List RecipientTurn) (answered : ServerMsg) : Prop where
  inTurn : ∃ limiter clock last : Made,
    events = limiter :: clock :: (turns.flatMap RecipientTurn.events ++ [last]) ∧
      limiter.request = .allow .send ∧ clock.request = .now ∧ last.request = .trySend answered
  once : (turns.map RecipientTurn.recipient).Nodup
  names : ∀ name, name ∈ turns.map RecipientTurn.recipient ↔ name ∈ msg.to ∧ name ≠ sender
  met : ∃ ts, ∀ turn ∈ turns, Met (frameFor sender msg ts) turn.recipient turn.events turn.fate

variable {c : Nat}

/-- **When the reply is truthful.** For an accepted `Send`, whatever the other tasks do between its
requests and whichever calls the database fails: the reply is truthful exactly if no copy of a
registered user was dropped, their outbox being full or the database failing, or nothing at all was
kept and some name was not found. -/
theorem truthful_iff {config : ServerConfig} {state state' : ConnState} {msg : SendMsg}
    {sender : String} (authed : state.authed = some sender) {events : List Made}
    (along : Prog.Along (Ask.onDatabase c) (handle c config state (some (.send msg))) events
      (.done state'))
    (accepted : Ask.now ∈ events.map Prog.Event.request) :
    ∃ turns answered, Answered sender msg events turns answered ∧
      (Truthful (turns.map RecipientTurn.fate) answered ↔
        (∀ turn ∈ turns, ¬ turn.fate.Lost) ∨
          (∀ turn ∈ turns, turn.fate ≠ .kept) ∧ ∃ turn ∈ turns, turn.fate.Missed) := by
  obtain ⟨sys, allowed, sys', sys₁, ts, sys₁', later, rfl, _, _, going⟩ :=
    along_send authed along accepted
  obtain ⟨outcome, fan, last, rfl, fanned, told⟩ := Prog.along_bind going
  obtain ⟨turns, rfl, names, met, rfl⟩ := fanOut_met _ fanned
  obtain ⟨sys₂, answer, sys₂', rest, rfl, _, ended⟩ := Prog.along_ask told
  obtain ⟨rfl, _⟩ := Prog.along_done ended
  refine ⟨turns, _, ⟨⟨_, _, _, rfl, rfl, rfl, rfl⟩, ?_, fun name => ?_, ts, met⟩, ?_⟩
  · rw [names]
    exact (nodup_eraseDups _).filter _
  · rw [names, List.mem_filter, List.mem_eraseDups]
    simp
  · have reply := truthful_sendReply (turns.map RecipientTurn.fate)
    simp only [List.mem_map, exists_exists_and_eq_and, forall_exists_index, and_imp,
      forall_apply_eq_imp_iff₂, not_exists, not_and] at reply
    simp only [Bool.false_or]
    exact reply

end

end Relay

namespace Ideal

open Relay

theorem hello_answered : ∃ events turns answered,
    Prog.Along (Relay.Ask.onDatabase 1) (handle 1 openConfig aliceOnline.state
      (some (.send helloMsg))) events (.done aliceOnline.state) ∧
    Answered "alice" helloMsg events turns answered ∧
    (Truthful (turns.map RecipientTurn.fate) answered ↔
      (∀ turn ∈ turns, ¬ turn.fate.Lost) ∨
        (∀ turn ∈ turns, turn.fate ≠ .kept) ∧ ∃ turn ∈ turns, turn.fate.Missed) := by
  obtain ⟨events, along, accepted⟩ := hello_requests
  have along : Prog.Along (Relay.Ask.onDatabase 1) _ _ _ := along.mono fun _ _ _ _ made => .inl made
  obtain ⟨turns, answered, handled, truthful⟩ := truthful_iff rfl along accepted
  exact ⟨events, turns, answered, along, handled, truthful⟩

/-- This many frames wait for Bob, who is offline. Alice is online. -/
def bobAway (rows : Nat) : System :=
  let store : Store := { twoUsers with
    outbox := (List.range rows).map fun i => ⟨i + 1, "bob", writeFrame hello, 0⟩
    nextOutboxId := rows + 1 }
  { System.initial store with store := store.goOnline "alice" 1 }.put 1 aliceOnline

theorem pendingFrames_bobAway (rows : Nat) :
    ((bobAway rows).store.pendingFrames "bob").length = rows := by
  have outbox : (bobAway rows).store.outbox =
    (List.range rows).map fun i => ⟨i + 1, "bob", writeFrame hello, 0⟩ := rfl
  simp [Store.pendingFrames, outbox, List.filter_map, Function.comp_def]

/-- He may have no more. -/
abbrev bobFull : System := bobAway maxOutboxPerRecipient

theorem bobFull_full : bobFull.store.Full "bob" (writeFrame hello) :=
  .inl (Nat.le_of_eq (pendingFrames_bobAway _).symm)

/-- **The drop is not told.** Bob's outbox is full, so the copy of Alice's message is dropped, and
she is answered that all is well. -/
theorem dropped_silently :
    ¬ ∀ (config : ServerConfig) (c : Nat) (state state' : ConnState) (msg : SendMsg)
      (sender : String) (events : List Relay.Made) (turns : List RecipientTurn)
      (answered : ServerMsg),
      state.authed = some sender →
      Prog.Along (Relay.Ask.onDatabase c) (handle c config state (some (.send msg))) events
        (.done state') →
      Relay.Ask.now ∈ events.map Prog.Event.request →
      Answered sender msg events turns answered →
      Truthful (turns.map RecipientTurn.fate) answered := by
  intro law
  have allowed : (Relay.Ask.allow .send).onDatabase 1 bobFull true
      (bobFull.note 1 (.allow .send) true) := .inl ⟨_, rfl, rfl⟩
  have clock : Relay.Ask.now.onDatabase 1 bobFull (0 : Int) (bobFull.note 1 .now (0 : Int)) :=
    .inl ⟨_, ⟨zero_isI64, rfl⟩, rfl⟩
  have looked : (Relay.Ask.call (.route "bob")).onDatabase 1 bobFull (none, true)
      (bobFull.note 1 (.call (.route "bob")) (none, true)) := .inl ⟨_, ⟨rfl, rfl⟩, rfl⟩
  have refused : (Relay.Ask.call (.enqueue "bob" (writeFrame hello) 0)).onDatabase 1 bobFull false
      (bobFull.note 1 (.call (.enqueue "bob" (writeFrame hello) 0)) false) := by
    refine .inl ⟨bobFull, ?_, rfl⟩
    show (false, bobFull) = bobFull.enqueue 1 "bob" (writeFrame hello) 0
    have capped : bobFull.store.enqueueIfUnderCap "bob" (writeFrame hello) 0 =
        (false, bobFull.store) := by
      rw [Store.enqueueIfUnderCap]
      rcases bobFull_full with rows | bytes
      · rw [if_pos rows]
      · rw [if_pos bytes, ite_self]
    rw [System.enqueue, capped]
    rfl
  obtain ⟨told, sys', replied⟩ : ∃ told sys', (Relay.Ask.trySend (.ok none)).onDatabase 1 bobFull
      told sys' := ⟨_, _, .inl ⟨_, rfl, rfl⟩⟩
  have truthful := law openConfig 1 aliceOnline.state aliceOnline.state helloMsg "alice" _
    [⟨"bob", [_, _], .dropped⟩] (.ok none) rfl
    (.ask allowed (.ask clock (.ask looked (.ask refused (.ask replied (.here _)))))) (by simp)
    ⟨⟨_, _, _, rfl, rfl, rfl, rfl⟩, by simp, by simp [helloMsg], 0,
      List.forall_mem_singleton.mpr
        (.known (by decide) rfl (.offline (.full bobFull_full rfl)))⟩
  exact truthful.ok rfl .dropped (List.mem_singleton_self _) (.inl rfl)

end Ideal

end Cherm
