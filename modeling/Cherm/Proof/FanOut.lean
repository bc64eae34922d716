/-
**A Send reaches each recipient once.**

Seen from the requests of its task, an accepted `Send` is a few requests that put no frame anywhere,
then one stretch of requests for each recipient, then the reply. In its stretch a recipient is
looked up, and then the frame is pushed into the channel that is theirs, or stored for them, or
refused because their outbox is full.

* `Mailed`, `Served`: what the requests of a stretch are, and what they do to the channels and the
  tables.
* `fanOut_served`: one stretch for each recipient, by induction on their list.
* `fan_out` is the result, whatever the other tasks do between the requests.
-/

import Cherm.Lib.Trace
import Cherm.Relay.Duties
import Cherm.Proof.CopiesKept

namespace Cherm

namespace Relay

open Crates

/-- A request that was made. -/
abbrev Made := Prog.Event System Ask Ask.Answer

/-- The messages in a channel. -/
def System.mail (sys : System) (c : Nat) : List ServerMsg := (sys.conns c).chan.map Entry.msg

/-- What becomes of a recipient's copy. -/
inductive Outcome where
  | pushed (conn : Nat)
  | stored
  | refused
  | unknown
deriving DecidableEq

/-- One round of the loop. -/
def deliverTo (frame : Deliver) (queued : Bytes) (recipient : String) (delivered unknown : Bool) :
    Task (Bool × Bool) := do
  let (online, «exists») ← call (.route recipient)
  if !«exists» then return (delivered, true)
  else
    let pushed ← match online with
      | some conn => Prog.query (Ask.push conn (.deliver frame))
      | none => pure false
    if pushed then return (true, unknown)
    else
      let stored ← call (.enqueue recipient queued frame.serverTs)
      return (delivered || stored, unknown)

theorem fanOut_cons {frame : Deliver} {sender recipient : String} (other : recipient ≠ sender)
    (queued : Bytes) (rest : List String) (delivered unknown : Bool) :
    fanOut sender frame queued (recipient :: rest) delivered unknown =
      (deliverTo frame queued recipient delivered unknown).bind fun (delivered, unknown) =>
        fanOut sender frame queued rest delivered unknown := by
  rw [fanOut, if_neg other]
  refine congrArg (Prog.ask _) (funext fun answer => ?_)
  obtain ⟨online, known⟩ := answer
  cases known with
  | false => rfl
  | true =>
      cases online with
      | none => rfl
      | some conn =>
          refine congrArg (Prog.ask _) (funext fun pushed => ?_)
          cases pushed <;> rfl

theorem push_mail (sys : System) (c : Nat) (entry : Entry) :
    (sys.push c entry).mail = Function.update sys.mail c (sys.mail c ++ [entry.msg]) := by
  funext d
  by_cases same : d = c
  · subst same
    rw [Function.update_self, System.mail, System.push, System.update_self]
    exact List.map_append
  · rw [Function.update_of_ne same, System.mail, System.push, System.update_of_ne _ _ same]
    rfl

section

variable [Crates]

/-! ### What a request does to the mail -/

theorem note_mail (sys : System) (c : Nat) (request : Ask) (answer : request.Answer) :
    (sys.note c request answer).mail = sys.mail := by
  funext d
  exact congrArg (List.map Entry.msg) (sys.update_keeps c Conn.chan rfl d)

/-- A call of the store leaves the mail. -/
theorem call_mail {c : Nat} {op : StoreOp} {sys sys' : System} {answer : op.Result}
    (made : (Ask.call op).onSystem c sys answer sys') : sys'.mail = sys.mail := by
  obtain ⟨mid, made, rfl⟩ := made
  rw [note_mail]
  cases op with
  | enqueue recipient frame ts =>
      have made : (answer, mid) = sys.enqueue c recipient frame ts := made
      rcases sys.enqueue_cases c recipient frame ts with result | result
      · rw [result] at made
        obtain ⟨_, rfl⟩ := Prod.mk.inj made
        rfl
      · rw [result] at made
        obtain ⟨_, rfl⟩ := Prod.mk.inj made
        rfl
  | _ =>
      obtain ⟨_, rfl⟩ := made
      rfl

/-- A push puts the message into the channel, or does nothing if there is no room. -/
theorem push_cases {c conn : Nat} {msg : ServerMsg} {sys sys' : System} {answer : Bool}
    (made : (Ask.push conn msg).onSystem c sys answer sys') :
    sys'.store = sys.store ∧
      (answer = true ∧ sys'.mail = Function.update sys.mail conn (sys.mail conn ++ [msg]) ∨
        answer = false ∧ ¬ sys.Room conn ∧ sys'.mail = sys.mail) := by
  have store : sys'.store = sys.store := Ask.onSystem_store made
  refine ⟨store, ?_⟩
  obtain ⟨mid, made, rfl⟩ := made
  have made : (answer, mid) = sys.pushCopy c conn msg := made
  rw [note_mail]
  unfold System.pushCopy at made
  split at made
  · obtain ⟨rfl, rfl⟩ := Prod.mk.inj made
    exact .inl ⟨rfl, push_mail ..⟩
  · next full =>
    obtain ⟨rfl, rfl⟩ := Prod.mk.inj made
    exact .inr ⟨rfl, full, rfl⟩

/-- A reply goes into the connection's own channel. -/
theorem reply_mail {c : Nat} {msg : ServerMsg} {sys sys' : System} {answer : Bool}
    (made : (Ask.trySend msg).onSystem c sys answer sys') {d : Nat} (other : d ≠ c) :
    sys'.mail d = sys.mail d := by
  obtain ⟨mid, made, rfl⟩ := made
  have made : (answer, mid) = sys.offer c ⟨msg, none, none⟩ := made
  rw [note_mail]
  rcases sys.offer_cases c ⟨msg, none, none⟩ with result | ⟨_, result⟩
  · rw [result] at made
    obtain ⟨_, rfl⟩ := Prod.mk.inj made
    rfl
  · rw [result] at made
    obtain ⟨_, rfl⟩ := Prod.mk.inj made
    rw [push_mail, Function.update_of_ne other]

/-! ### The requests for one recipient -/

/-- The recipient's outbox is at one of its caps. -/
def Store.Full (store : Store) (recipient : String) (frame : Bytes) : Prop :=
  maxOutboxPerRecipient ≤ (store.pendingFrames recipient).length ∨
    maxOutboxBytesPerRecipient < store.outboxBytes recipient + frame.length

/-- A frame is to be stored: a row is appended, or it is refused. -/
inductive Stores (frame : Deliver) (recipient : String) : Made → Outcome → Prop where
  | stored {sys sys' : System} (mail : sys'.mail = sys.mail)
      (row : sys'.store = sys.store.append recipient (writeFrame frame) frame.serverTs) :
      Stores frame recipient
        ⟨.call (.enqueue recipient (writeFrame frame) frame.serverTs), sys, true, sys'⟩ .stored
  | refused {sys sys' : System} (mail : sys'.mail = sys.mail) (store : sys'.store = sys.store)
      (full : sys.store.Full recipient (writeFrame frame)) :
      Stores frame recipient
        ⟨.call (.enqueue recipient (writeFrame frame) frame.serverTs), sys, false, sys'⟩ .refused

/-- What becomes of the copy of a recipient who was looked up. -/
inductive Mailed (frame : Deliver) (recipient : String) : Option Nat → List Made → Outcome →
    Prop where
  | pushed {conn : Nat} {sys sys' : System} (store : sys'.store = sys.store)
      (mail : sys'.mail = Function.update sys.mail conn (sys.mail conn ++ [.deliver frame])) :
      Mailed frame recipient (some conn) [⟨.push conn (.deliver frame), sys, true, sys'⟩]
      (.pushed conn)
  | full {conn : Nat} {sys sys' : System} {event : Made} {outcome : Outcome}
      (store : sys'.store = sys.store)
      (mail : sys'.mail = sys.mail) (noRoom : ¬ sys.Room conn)
        (stores : Stores frame recipient event outcome) :
      Mailed frame recipient (some conn) [⟨.push conn (.deliver frame), sys, false, sys'⟩,
      event] outcome
  | offline {event : Made} {outcome : Outcome} (stores : Stores frame recipient event outcome) :
      Mailed frame recipient none [event] outcome

/-- The recipient is looked up. If there is such a user, their copy is mailed. -/
inductive Served (frame : Deliver) (recipient : String) : List Made → Outcome → Prop where
  | unknown {sys sys' : System} (store : sys'.store = sys.store) (mail : sys'.mail = sys.mail)
      (nobody : sys.store.usernameExists recipient = false) :
      Served frame recipient [⟨.call (.route recipient), sys, sys.store.route recipient,
      sys'⟩] .unknown
  | known {sys sys' : System} {events : List Made} {outcome : Outcome}
      (store : sys'.store = sys.store)
      (mail : sys'.mail = sys.mail) (registered : sys.store.usernameExists recipient = true)
      (mailed : Mailed frame recipient (sys.store.online.get recipient) events outcome) :
      Served frame recipient (⟨.call (.route recipient), sys, sys.store.route recipient, sys'⟩ ::
      events) outcome

/-- A request that stores nothing and puts nothing into the channel of another. -/
def Spares (c : Nat) (event : Made) : Prop :=
  event.after.store = event.before.store ∧ ∀ d, d ≠ c → event.after.mail d = event.before.mail d

/-! ### One recipient after the other -/

section

variable {c : Nat} {frame : Deliver} {recipient : String}

theorem route_event {sys sys' : System} {answer : Option Nat × Bool}
    (made : (Ask.call (.route recipient)).onSystem c sys answer sys') :
    answer = sys.store.route recipient ∧ sys'.store = sys.store ∧ sys'.mail = sys.mail := by
  obtain ⟨answered, store⟩ := Ask.onSystem_store made
  exact ⟨answered, store, call_mail made⟩

theorem enqueue_event {sys sys' : System} {answer : Bool}
    (made : (Ask.call (.enqueue recipient (writeFrame frame) frame.serverTs)).onSystem c sys
      answer sys') :
    ∃ outcome, Stores frame recipient
      ⟨.call (.enqueue recipient (writeFrame frame) frame.serverTs), sys, answer, sys'⟩
        outcome := by
  obtain ⟨answered, store⟩ := Ask.onSystem_store made
  have answered : answer = (sys.store.enqueueIfUnderCap recipient (writeFrame frame)
      frame.serverTs).1 := answered
  have store : sys'.store = (sys.store.enqueueIfUnderCap recipient (writeFrame frame)
      frame.serverTs).2 := store
  have mail := call_mail made
  unfold Store.enqueueIfUnderCap at answered store
  split at answered
  · next rows =>
    subst answered
    rw [if_pos rows] at store
    exact ⟨_, .refused mail store (.inl rows)⟩
  next fewer =>
  rw [if_neg fewer] at store
  split at answered
  · next bytes =>
    subst answered
    rw [if_pos bytes] at store
    exact ⟨_, .refused mail store (.inr bytes)⟩
  · next fits =>
    subst answered
    rw [if_neg fits] at store
    exact ⟨_, .stored mail store⟩

theorem along_enqueue {delivered unknown : Bool} {result : Bool × Bool} {events : List Made}
    (along : Prog.Along (Ask.onSystem c) ((call (.enqueue recipient (writeFrame frame)
      frame.serverTs)).bind
      fun stored => Prog.done (delivered || stored, unknown)) events (.done result)) :
    ∃ event outcome, events = [event] ∧ Stores frame recipient event outcome := by
  obtain ⟨sys, answer, sys', later, rfl, made, along⟩ := Prog.along_ask along
  obtain ⟨rfl, _⟩ := Prog.along_done along
  obtain ⟨outcome, stores⟩ := enqueue_event made
  exact ⟨_, outcome, rfl, stores⟩

/-- A recipient is served. -/
theorem deliverTo_served {delivered unknown : Bool} {result : Bool × Bool} {events : List Made}
    (along : Prog.Along (Ask.onSystem c) (deliverTo frame (writeFrame frame) recipient
      delivered unknown)
      events (.done result)) : ∃ outcome, Served frame recipient events outcome := by
  obtain ⟨sys, answer, sys', later, rfl, made, along⟩ := Prog.along_ask along
  obtain ⟨rfl, store, mail⟩ := route_event made
  cases registered : sys.store.usernameExists recipient with
  | false =>
      have looked : sys.store.route recipient = (sys.store.online.get recipient, false) := by
        rw [Store.route, registered]
      rw [looked] at along
      obtain ⟨rfl, _⟩ := Prog.along_done along
      exact ⟨_, .unknown store mail registered⟩
  | true =>
      have looked : sys.store.route recipient = (sys.store.online.get recipient, true) := by
        rw [Store.route, registered]
      rw [looked] at along
      cases online : sys.store.online.get recipient with
      | none =>
          rw [online] at along
          obtain ⟨event, outcome, rfl, stores⟩ := along_enqueue along
          refine ⟨outcome, .known store mail registered ?_⟩
          rw [online]
          exact .offline stores
      | some conn =>
          rw [online] at along
          obtain ⟨sys₁, pushed, sys₁', later, rfl, made, along⟩ := Prog.along_ask along
          obtain ⟨store', ⟨rfl, mail'⟩ | ⟨rfl, noRoom, mail'⟩⟩ := push_cases made
          · obtain ⟨rfl, _⟩ := Prog.along_done along
            refine ⟨.pushed conn, .known store mail registered ?_⟩
            rw [online]
            exact .pushed store' mail'
          · obtain ⟨event, outcome, rfl, stores⟩ := along_enqueue along
            refine ⟨outcome, .known store mail registered ?_⟩
            rw [online]
            exact .full store' mail' noRoom stores

/-- **One stretch for each recipient**, by induction on their list: the sender's own name is passed
over. -/
theorem fanOut_served {sender : String} (recipients : List String) {delivered unknown : Bool}
    {result : Bool × Bool} {events : List Made}
    (along : Prog.Along (Ask.onSystem c) (fanOut sender frame (writeFrame frame) recipients
      delivered unknown)
      events (.done result)) :
    ∃ stretches : List (String × List Made), events = stretches.flatMap Prod.snd ∧
      stretches.map Prod.fst = recipients.filter (· ≠ sender) ∧
      ∀ stretch ∈ stretches, ∃ outcome, Served frame stretch.1 stretch.2 outcome := by
  induction recipients generalizing delivered unknown events with
  | nil =>
      obtain ⟨rfl, _⟩ := Prog.along_done along
      exact ⟨[], rfl, rfl, fun _ member => absurd member List.not_mem_nil⟩
  | cons recipient rest ih =>
      by_cases own : recipient = sender
      · rw [fanOut, if_pos own] at along
        rw [List.filter_cons_of_neg (by simpa using own)]
        exact ih along
      · rw [fanOut_cons own] at along
        rw [List.filter_cons_of_pos (by simpa using own)]
        obtain ⟨mid, front, back, rfl, first, others⟩ := Prog.along_bind along
        obtain ⟨stretches, rfl, names, each⟩ := ih others
        refine ⟨(recipient, front) :: stretches, rfl, congrArg (recipient :: ·) names,
          fun stretch member => ?_⟩
        rcases List.mem_cons.mp member with rfl | tail
        · exact deliverTo_served first
        · exact each stretch tail

/-! ### The whole message -/

omit [Crates] in
theorem nodup_eraseDups (names : List String) : names.eraseDups.Nodup := by
  induction length : names.length using Nat.strong_induction_on generalizing names with
  | _ n ih =>
      cases names with
      | nil => exact List.nodup_nil
      | cons name rest =>
          rw [List.eraseDups_cons]
          refine List.nodup_cons.mpr ⟨fun member => ?_, ih _ ?_ _ rfl⟩
          · have kept := List.mem_filter.mp (List.mem_eraseDups.mp member)
            simp at kept
          · rw [← length]
            exact Nat.lt_succ_of_le (List.length_filter_le ..)

theorem Stores.outcome {event : Made} {outcome outcome' : Outcome}
    (stores : Stores frame recipient event outcome)
    (stores' : Stores frame recipient event outcome') : outcome = outcome' := by
  cases stores <;> cases stores' <;> rfl

theorem Mailed.outcome {online : Option Nat} {events : List Made} {outcome outcome' : Outcome}
    (mailed : Mailed frame recipient online events outcome)
    (mailed' : Mailed frame recipient online events outcome') : outcome = outcome' := by
  cases mailed with
  | pushed _ _ =>
      cases mailed'
      rfl
  | full _ _ _ stores =>
      cases mailed' with
      | full _ _ _ stores' => exact stores.outcome stores'
  | offline stores =>
      cases mailed' with
      | offline stores' => exact stores.outcome stores'

/-- A copy has one outcome. -/
theorem Served.outcome {events : List Made} {outcome outcome' : Outcome}
    (served : Served frame recipient events outcome) (served' :
      Served frame recipient events outcome') :
    outcome = outcome' := by
  cases served with
  | unknown _ _ nobody =>
      cases served' with
      | unknown _ _ _ => rfl
      | known _ _ registered _ => cases nobody.symm.trans registered
  | known _ _ registered mailed =>
      cases served' with
      | unknown _ _ nobody => cases nobody.symm.trans registered
      | known _ _ _ mailed' => exact mailed.outcome mailed'

/-- The last thing that is done is to reply. -/
theorem along_reply {α : Type} {msg : ServerMsg} (value : α) {value' : α} {events : List Made}
    (along : Prog.Along (Ask.onSystem c) ((reply msg).bind fun _ => Prog.done value) events
      (.done value')) :
    ∃ event, events = [event] ∧ event.request = .trySend msg ∧ Spares c event := by
  obtain ⟨sys, answer, sys', later, rfl, made, along⟩ := Prog.along_ask along
  obtain ⟨rfl, _⟩ := Prog.along_done along
  exact ⟨_, rfl, rfl, Ask.onSystem_store made, fun d other => reply_mail made other⟩

/-- What is answered once the recipients were served. -/
def sendReply (delivered unknown : Bool) : ServerMsg :=
  if !delivered && unknown then .error ErrCode.unknownUser "no such recipient" else .ok none

/-- The frame that is made of a message. -/
def frameFor (sender : String) (msg : SendMsg) (ts : Int) : Deliver :=
  ⟨sender, msg.to, msg.msgType, msg.payload, msg.groupId, ts, msg.clientTs⟩

/-- An accepted `Send` asks the limiter, reads the clock, serves the recipients and replies. -/
theorem along_send {step : Prog.Step System Ask Ask.Answer} {config : ServerConfig}
    {state state' : ConnState} {msg : SendMsg} {sender : String}
    (authed : state.authed = some sender) {events : List Made}
    (along : Prog.Along step (handle c config state (some (.send msg))) events (.done state'))
    (accepted : Ask.now ∈ events.map Prog.Event.request) :
    ∃ sys allowed sys' sys₁ ts sys₁' later,
      events = ⟨.allow .send, sys, allowed, sys'⟩ :: ⟨.now, sys₁, ts, sys₁'⟩ :: later ∧
      step (.allow .send) sys allowed sys' ∧ step .now sys₁ ts sys₁' ∧
      Prog.Along step ((fanOut sender (frameFor sender msg ts)
          (writeFrame (frameFor sender msg ts)) msg.to.eraseDups false false).bind
        fun outcome => reply (sendReply outcome.1 outcome.2)) later (.done ()) := by
  have known : state.authed.isNone = false := by rw [authed]; rfl
  unfold handle at along
  simp only [known] at along
  obtain ⟨_, sending, rest, rfl, sends, rest⟩ := Prog.along_bind (along : Prog.Along _
    ((send state msg).bind fun _ => Prog.done state) _ _)
  obtain ⟨rfl, _⟩ := Prog.along_done rest
  rw [List.append_nil] at accepted ⊢
  clear along
  unfold send at sends
  rw [authed] at sends
  obtain ⟨sys, allowed, sys', later, rfl, made, limited⟩ := Prog.along_ask sends
  clear sends
  simp only [Prog.done_bind] at limited
  -- A refusal comes before the clock is read.
  have refused : ∀ {msg : ServerMsg}, ¬ Prog.Along step
      ((reply msg).bind fun _ => Prog.done ()) later (.done ()) := by
    intro msg along
    obtain ⟨_, _, _, _, rfl, _, along⟩ := Prog.along_ask along
    obtain ⟨rfl, _⟩ := Prog.along_done along
    simp at accepted
  split at limited
  · exact absurd limited refused
  split at limited
  · exact absurd limited refused
  split at limited
  · exact absurd limited refused
  obtain ⟨sys₁, ts, sys₁', later, rfl, read, going⟩ := Prog.along_ask limited
  simp only [Prog.done_bind] at going
  refine ⟨sys, allowed, sys', sys₁, ts, sys₁', later, rfl, made, read, ?_⟩
  have told : (fun outcome : Bool × Bool => reply (sendReply outcome.1 outcome.2)) =
      fun outcome => if !outcome.1 && outcome.2 then
        err ErrCode.unknownUser "no such recipient" else reply (.ok none) := by
    funext ⟨delivered, unknown⟩
    cases delivered <;> cases unknown <;> rfl
  rw [told]
  exact going

/-- **Every recipient once.** Whatever the other tasks do between the requests of an accepted
`Send`: each name it lists, but for the sender's own, is looked up once, and then exactly one of
this happens: the frame is pushed into the channel they have, or it is stored for them, or it is
refused since their outbox is full, or there is no such user. Nobody else is sent or stored
anything. The frame is the sender's, with the fields of the message, and what is stored is read back
as this frame. -/
theorem fan_out {config : ServerConfig} {state state' : ConnState} {msg : SendMsg} {sender : String}
    (authed : state.authed = some sender) (inRange : IsI64 msg.clientTs) {events : List Made}
    (along : Prog.Along (Ask.onSystem c) (handle c config state (some (.send msg))) events
      (.done state'))
    (accepted : Ask.now ∈ events.map Prog.Event.request) :
    ∃ (frame : Deliver) (front back : List Made) (stretches : List (String × List Made)),
      (frame.from = sender ∧ frame.to = msg.to ∧ frame.msgType = msg.msgType ∧
        frame.payload = msg.payload ∧
        frame.groupId = msg.groupId ∧ frame.clientTs = msg.clientTs) ∧
      events = front ++ stretches.flatMap Prod.snd ++ back ∧
      (∀ event ∈ front ++ back, Spares c event) ∧
      (stretches.map Prod.fst).Nodup ∧ (∀ name, name ∈ stretches.map Prod.fst ↔ name ∈ msg.to ∧
        name ≠ sender) ∧
      (∀ stretch ∈ stretches, ∃! outcome, Served frame stretch.1 stretch.2 outcome) ∧
      readFrame (writeFrame frame) = some frame := by
  obtain ⟨sys, allowed, sys', sys₁, ts, sys₁', later, rfl, asked, read, going⟩ :=
    along_send authed along accepted
  have limiter : Spares c ⟨.allow .send, sys, allowed, sys'⟩ := by
    obtain ⟨mid, rfl, rfl⟩ := asked
    exact ⟨rfl, fun d _ => congrFun (note_mail ..) d⟩
  have isI64 : IsI64 ts := by
    obtain ⟨_, ⟨isI64, _⟩, _⟩ := read
    exact isI64
  have clock : Spares c ⟨.now, sys₁, ts, sys₁'⟩ := by
    obtain ⟨mid, ⟨_, rfl⟩, rfl⟩ := read
    exact ⟨rfl, fun d _ => congrFun (note_mail ..) d⟩
  obtain ⟨outcome, fan, last, rfl, fanned, told⟩ := Prog.along_bind going
  obtain ⟨stretches, rfl, names, each⟩ := fanOut_served _ fanned
  obtain ⟨event, rfl, _, spares⟩ := along_reply () told
  refine ⟨⟨sender, msg.to, msg.msgType, msg.payload, msg.groupId, ts, msg.clientTs⟩,
    [⟨.allow .send, sys, allowed, sys'⟩, ⟨.now, sys₁, ts, sys₁'⟩], [event], stretches,
    ⟨rfl, rfl, rfl, rfl, rfl, rfl⟩, by simp, fun event member => ?_, ?_, fun name =>
      ?_, fun stretch member => ?_,
    readFrame_writeFrame _ ⟨isI64, inRange⟩⟩
  · simp only [List.cons_append, List.nil_append, List.mem_cons, List.not_mem_nil,
      or_false] at member
    rcases member with rfl | rfl | rfl
    · exact limiter
    · exact clock
    · exact spares
  · rw [names]
    exact (nodup_eraseDups _).filter _
  · rw [names, List.mem_filter, List.mem_eraseDups]
    simp
  · obtain ⟨outcome, served⟩ := each stretch member
    exact ⟨outcome, served, fun _ served' => served'.outcome served⟩

end

end

end Relay

namespace Ideal

open Relay

/-- Bob is online, and Alice sends him a frame. -/
theorem hello_requests : ∃ events, Prog.Along (Relay.Ask.onSystem 1)
    (handle 1 openConfig aliceOnline.state (some (.send helloMsg))) events
      (.done aliceOnline.state) ∧
    Relay.Ask.now ∈ events.map Prog.Event.request := by
  have allowed : (Relay.Ask.allow .send).onSystem 1 bobOnline true
      (bobOnline.note 1 (.allow .send) true) :=
    ⟨_, rfl, rfl⟩
  have clock : Relay.Ask.now.onSystem 1 bobOnline (0 : Int) (bobOnline.note 1 .now (0 : Int)) :=
    ⟨_, ⟨zero_isI64, rfl⟩, rfl⟩
  have looked : (Relay.Ask.call (.route "bob")).onSystem 1 bobOnline (some 0, true)
      (bobOnline.note 1 (.call (.route "bob")) (some 0, true)) := ⟨_, ⟨rfl, rfl⟩, rfl⟩
  obtain ⟨sys, pushed⟩ : ∃ sys, (Relay.Ask.push 0 (.deliver hello)).onSystem 1 bobOnline true
      sys := by
    have room : bobOnline.Room 0 := ⟨rfl, by decide⟩
    have fits : (bobOnline.pushCopy 1 0 (.deliver hello)).1 = true := by
        rw [System.pushCopy, if_pos room]
    exact ⟨_, (bobOnline.pushCopy 1 0 (.deliver hello)).2, Prod.ext fits.symm rfl, rfl⟩
  obtain ⟨told, sys', replied⟩ : ∃ told sys', (Relay.Ask.trySend (.ok none)).onSystem 1 bobOnline
      told sys' :=
    ⟨_, _, _, rfl, rfl⟩
  exact ⟨_, .ask allowed (.ask clock (.ask looked (.ask pushed (.ask replied (.here _))))), by simp⟩

theorem hello_served : ∃ (events : List Relay.Made) (stretches : List (String × List Relay.Made)),
    Prog.Along (Relay.Ask.onSystem 1) (handle 1 openConfig aliceOnline.state
      (some (.send helloMsg))) events
      (.done aliceOnline.state) ∧
    ∀ name, name ∈ stretches.map Prod.fst ↔ name ∈ helloMsg.to ∧ name ≠ "alice" := by
  obtain ⟨events, along, accepted⟩ := hello_requests
  obtain ⟨_, _, _, stretches, _, _, _, _, names, _⟩ := fan_out rfl zero_isI64 along accepted
  exact ⟨events, stretches, along, names⟩

end Ideal

end Cherm
