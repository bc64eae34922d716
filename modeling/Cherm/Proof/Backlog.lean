/-
**The backlog of a login, and the queue of the client.**

At a login the relay's connection task pushes the whole backlog before it reads another request; the
client's reader queues frame after frame and never waits, while the processor may be waiting for an
answer that the relay gives only after the flush. So whatever the relay stored has to fit into the
queue.

* `Login`: the relay's task, its system, and the reader, the queue and the processor of the client.
* `Within`: what is in the queue and on its way to it is no more than the backlog.
* `pumped`: frame after frame goes into the queue when the processor does nothing.
* `backlog_fits`: the queue can become full exactly if the backlog has as many frames as fit, and
  overflow exactly if it has more.
-/

import Cherm.Client.Processor
import Cherm.Client.Reader
import Cherm.Relay.Progress

namespace Cherm

open Crates

namespace Relay

/-- What was written to the socket of a connection. -/
def System.socket (sys : System) (c : Nat) : List ServerMsg :=
  (sys.written.filter fun write => write.1 = c).map fun write => write.2.msg

end Relay

open Relay (System Conn Entry Rules Drift)

def countMsgs (msgs : List ServerMsg) : Nat := msgs.countP fun msg => msg.ForQueue

theorem countMsgs_append (msgs msgs' : List ServerMsg) :
    countMsgs (msgs ++ msgs') = countMsgs msgs + countMsgs msgs' := List.countP_append

theorem countMsgs_other {msg : ServerMsg} (other : ¬ msg.ForQueue) : countMsgs [msg] = 0 := by
  rw [countMsgs, List.countP_cons_of_neg (by simpa using other), List.countP_nil]

theorem countMsgs_forQueue {msg : ServerMsg} (forQueue : msg.ForQueue) : countMsgs [msg] = 1 := by
  rw [countMsgs, List.countP_cons_of_pos (by simpa using forQueue), List.countP_nil]

namespace Login

/-- A message that was read is no longer on its way. -/
theorem unread {msg : ServerMsg} {msgs : List ServerMsg} {read : Nat}
    (next : msgs[read]? = some msg) :
    countMsgs (msgs.drop read) = countMsgs (msgs.drop (read + 1)) + countMsgs [msg] := by
  obtain ⟨below, same⟩ := List.getElem?_eq_some_iff.mp next
  rw [List.drop_eq_getElem_cons below, same, ← List.singleton_append, countMsgs_append,
    Nat.add_comm]

theorem push_writing (sys : System) (c d : Nat) (entry : Entry) :
    ((sys.push c entry).conns d).writing = (sys.conns d).writing :=
  sys.update_keeps c Conn.writing rfl d

theorem push_chan (sys : System) (c : Nat) (entry : Entry) :
    ((sys.push c entry).conns c).chan = (sys.conns c).chan ++ [entry] := by
  rw [System.push, System.update_self]

end Login

section

variable [Crates]

/-- A login in progress. The reader has read that many messages, and may have ended for want of
room. -/
structure Login where
  task : Relay.Task ConnState
  relay : System
  read : Nat
  queue : List Incoming
  overflow : Bool
  processor : Option (Client Unit)
  vault : Vault

/-- Until the flush has ended no request of the processor is answered; it may time out. -/
def waitsForRelay : (asked : Ask) → asked.Answer → Prop
  | .request _, answer => ∃ error, answer = .error error
  | _, _ => True

namespace Login

/-- One step of the relay's task, its writer, the reader or the processor. -/
inductive Next (config : ServerConfig) (ctx : ProcCtx) (c : Nat) : Login → Login → Prop where
  | relay {l : Login} {task : Relay.Task ConnState} {sys : System}
      (moves : Prog.Moves ((Relay.relay config Relay.Rules.none).act c) (l.task, l.relay)
        (task, sys)) :
      Next config ctx c l { l with task := task, relay := sys }
  | drift {l : Login} {sys : System} (drifts : Drift Relay.Rules.none l.relay sys) :
      Next config ctx c l { l with relay := sys }
  | queue {l : Login} {msg : ServerMsg} {inc : Incoming} (reading : l.overflow = false)
      (next : (l.relay.socket c)[l.read]? = some msg) (routed :
        route l.queue.length msg = .queue inc) :
      Next config ctx c l { l with read := l.read + 1, queue := l.queue ++ [inc] }
  | overflow {l : Login} {msg : ServerMsg} (reading : l.overflow = false)
      (next : (l.relay.socket c)[l.read]? = some msg) (routed :
        route l.queue.length msg = .overflow) :
      Next config ctx c l { l with read := l.read + 1, overflow := true }
  | pass {l : Login} {msg : ServerMsg} (reading : l.overflow = false)
      (next : (l.relay.socket c)[l.read]? = some msg) (other : ¬ msg.ForQueue) :
      Next config ctx c l { l with read := l.read + 1 }
  | take {l : Login} {inc : Incoming} {rest : List Incoming} (idle : l.processor = none)
      (first : l.queue = inc :: rest) :
      Next config ctx c l { l with processor := some (Client.processFrame ctx inc), queue := rest }
  | process {l : Login} {prog prog' : Client Unit} {v : Vault} (busy : l.processor = some prog)
      (moves : Prog.Moves (Ask.effectIf waitsForRelay) (prog, l.vault) (prog', v)) :
      Next config ctx c l { l with processor := some prog', vault := v }
  | finish {l : Login} {result : Except String Unit} (busy :
      l.processor = some (.ofExcept result)) :
      Next config ctx c l { l with processor := none }

/-- The challenge was answered: the relay logs the connection in. -/
def start (c : Nat) (sys : System) (state : ConnState) (uuid username : String) (vault : Vault) :
    Login where
  task := Relay.logIn c state uuid username
  relay := sys
  read := (sys.socket c).length
  queue := []
  overflow := false
  processor := none
  vault := vault

/-- The writer is there, and everything is written and read. -/
structure Idle (c : Nat) (sys : System) : Prop where
  alive : (sys.conns c).alive = true
  chan : (sys.conns c).chan = []
  writing : (sys.conns c).writing = none

end Login

/-- The row is a frame that the reader will queue. -/
def RowForQueue (row : Nat × Bytes) : Prop := ∃ frame, readFrame row.2 = some frame ∧
    (ServerMsg.deliver frame).ForQueue

instance (row : Nat × Bytes) : Decidable (RowForQueue row) :=
  match parses : readFrame row.2 with
  | none => .isFalse fun ⟨_, found, _⟩ => nomatch parses.symm.trans found
  | some frame => decidable_of_iff (ServerMsg.deliver frame).ForQueue
      ⟨fun forQueue => ⟨frame, parses, forQueue⟩, fun ⟨_, found, forQueue⟩ => by
        cases parses.symm.trans found
        exact forQueue⟩

/-- The number of frames for the queue. -/
def countFrames (rows : List (Nat × Bytes)) : Nat := rows.countP fun row => RowForQueue row

/-! ### What the flush has ahead of it -/

/-- The rows after the frame a flush has come to. -/
def afterFrame (rows : List (Nat × Bytes)) : List (Nat × Bytes) :=
  ((Relay.nextFrame rows).map fun found => found.2.2).getD rows

theorem afterFrame_eq {rows : List (Nat × Bytes)} {id : Nat} {frame : Deliver}
    {rest : List (Nat × Bytes)} (next : Relay.nextFrame rows = some (id, frame, rest)) :
    afterFrame rows = rest := by
  rw [afterFrame, next]
  rfl

/-- The requests of a task that logs a user in. `none`: it has not read the backlog; otherwise these
rows are ahead of it. -/
def aheadSpec (username : String) :
    Prog.Spec (Option (List (Nat × Bytes))) Relay.Ask Relay.Ask.Answer where
  demand request ahead := match request with
    | .call (.pendingFrames name) => name = username ∧ ahead = none
    | .call (.enqueue ..) => False
    | .push .. => False
    | .trySend msg => ¬ msg.ForQueue
    | .sendWait msg => ∃ rows id frame rest, ahead = some rows ∧
        Relay.nextFrame rows = some (id, frame, rest) ∧ msg = .deliver frame
    | _ => True
  step request ahead answer ahead' := match request with
    | .call (.pendingFrames _) => ahead' = some answer
    | .sendWait _ => ahead' = if answer then ahead.map afterFrame else some []
    | _ => ahead' = ahead

theorem wp_ahead_sendFrames {username : String} (remaining rows : List (Nat × Bytes))
    (handled : List Nat) (same : Relay.nextFrame rows = Relay.nextFrame remaining) :
    Prog.wp (aheadSpec username) (fun _ _ => True) (Relay.sendFrames remaining handled)
      (some rows) := by
  induction remaining generalizing rows handled with
  | nil => trivial
  | cons row rest ih =>
      obtain ⟨id, bytes⟩ := row
      unfold Relay.sendFrames
      rw [Relay.nextFrame] at same
      cases parses : readFrame bytes with
      | none =>
          rw [parses] at same
          exact ih rows _ same
      | some frame =>
          rw [parses] at same
          refine ⟨⟨rows, id, frame, rest, rfl, same, rfl⟩, ?_⟩
          rintro sent _ rfl
          cases sent with
          | false => trivial
          | true =>
              show Prog.wp _ _ (Relay.sendFrames rest (handled ++ [id])) (some (afterFrame rows))
              rw [afterFrame_eq same]
              exact ih rest _ rfl

theorem wp_ahead_logIn (username uuid : String) (c : Nat) (state : ConnState) :
    Prog.wp (aheadSpec username) (fun _ _ => True) (Relay.logIn c state uuid username) none := by
  refine ⟨trivial, ?_⟩
  rintro _ _ rfl
  refine ⟨id, ?_⟩
  rintro _ _ rfl
  refine ⟨⟨rfl, rfl⟩, ?_⟩
  rintro rows _ rfl
  simp only [Prog.done_bind, Prog.bind_eq, Prog.pure_eq]
  rw [Prog.wp_bind]
  split
  · trivial
  · rw [Prog.wp_bind]
    refine Prog.wp_mono (fun result ahead _ => ?_) (wp_ahead_sendFrames rows rows [] rfl)
    cases result with
    | error e => trivial
    | ok handled =>
        show Prog.wp _ _ (if handled.isEmpty = true then .done () else _) ahead
        split
        · trivial
        · refine ⟨trivial, ?_⟩
          rintro _ _ rfl
          trivial

/-! ### Counting frames -/

theorem countFrames_junk {row : Nat × Bytes} (rest : List (Nat × Bytes))
    (junk : readFrame row.2 = none) : countFrames (row :: rest) = countFrames rest := by
  refine List.countP_cons_of_neg fun found => ?_
  obtain ⟨frame, parses, _⟩ := of_decide_eq_true found
  cases junk.symm.trans parses

theorem countFrames_frame {row : Nat × Bytes} (rest : List (Nat × Bytes)) {frame : Deliver}
    (parses : readFrame row.2 = some frame) :
    countFrames (row :: rest) = countFrames rest + countMsgs [.deliver frame] := by
  have same : RowForQueue row ↔ (ServerMsg.deliver frame).ForQueue := by
    constructor
    · rintro ⟨found, parses', forQueue⟩
      cases parses.symm.trans parses'
      exact forQueue
    · exact fun forQueue => ⟨frame, parses, forQueue⟩
  simp only [countFrames, countMsgs, List.countP_cons, List.countP_nil, same, Nat.zero_add]

theorem countFrames_next {rows : List (Nat × Bytes)} {id : Nat} {frame : Deliver}
    {rest : List (Nat × Bytes)} (next : Relay.nextFrame rows = some (id, frame, rest)) :
    countFrames rows = countFrames rest + countMsgs [.deliver frame] := by
  induction rows with
  | nil => cases next
  | cons row rows ih =>
      obtain ⟨first, bytes⟩ := row
      rw [Relay.nextFrame] at next
      cases parses : readFrame bytes with
      | none =>
          rw [parses] at next
          rw [countFrames_junk rows parses]
          exact ih next
      | some found =>
          rw [parses] at next
          cases next
          exact countFrames_frame rest parses

/-- What the task has ahead of it, given what is stored. -/
def framesAhead (username : String) (store : Relay.Store)
    (ahead : Option (List (Nat × Bytes))) : Nat :=
  countFrames (ahead.getD (store.pendingFrames username))

/-- An outbox with fewer rows has fewer frames. -/
theorem framesAhead_le (username : String) (store store' : Relay.Store)
    {keep : Relay.OutboxRow → Bool} (outbox : store'.outbox = store.outbox.filter keep)
    (ahead : Option (List (Nat × Bytes))) :
    framesAhead username store' ahead ≤ framesAhead username store ahead := by
  cases ahead with
  | some rows => exact Nat.le_refl _
  | none =>
      have fewer : (store'.outbox.filter fun row => row.recipient = username).Sublist
          (store.outbox.filter fun row => row.recipient = username) := by
        rw [outbox]
        exact List.filter_sublist.filter _
      exact (fewer.map _).countP_le

theorem framesAhead_eq (username : String) {store store' : Relay.Store}
    (outbox : store'.outbox = store.outbox) (ahead : Option (List (Nat × Bytes))) :
    framesAhead username store' ahead = framesAhead username store ahead := by
  have same : store'.pendingFrames username = store.pendingFrames username := by
    rw [Relay.Store.pendingFrames, Relay.Store.pendingFrames, outbox]
  rw [framesAhead, framesAhead, same]

/-! ### No more than the backlog -/

/-- What is on its way to the queue, or in it: read, written, in the channel, or ahead of the flush.
-/
def Login.inFlight (c : Nat) (l : Login) : Nat :=
  l.queue.length + countMsgs ((l.relay.socket c).drop l.read) +
    countMsgs ((l.relay.conns c).entries.map Entry.msg)

/-- Everything in flight and ahead is part of the backlog. -/
def Login.Within (c : Nat) (username : String) (n : Nat) (l : Login) : Prop :=
  ∃ ahead, Prog.wp (aheadSpec username) (fun _ _ => True) l.task ahead ∧
    l.inFlight c + framesAhead username l.relay.store ahead ≤ n

namespace Login

variable {config : ServerConfig} {ctx : ProcCtx} {c : Nat} {username : String} {n : Nat} {l : Login}

/-- What the relay has of a connection does not grow. -/
theorem Within.relay {task : Relay.Task ConnState} {sys : System}
    {ahead ahead' : Option (List (Nat × Bytes))}
    (meets : Prog.wp (aheadSpec username) (fun _ _ => True) task ahead')
    (bound : l.inFlight c + framesAhead username l.relay.store ahead ≤ n)
    (written : sys.written = l.relay.written)
    (fewer : countMsgs ((sys.conns c).entries.map Entry.msg) + framesAhead username
      sys.store ahead' ≤
      countMsgs ((l.relay.conns c).entries.map Entry.msg) + framesAhead username
      l.relay.store ahead) :
    Within c username n { l with task := task, relay := sys } := by
  refine ⟨ahead', meets, ?_⟩
  have socket : sys.socket c = l.relay.socket c := by rw [System.socket, System.socket, written]
  unfold inFlight at bound ⊢
  dsimp only
  rw [socket]
  omega

theorem Within.act (within : Within c username n l) {task : Relay.Task ConnState} {sys' : System}
    (moves : Prog.Moves ((Relay.relay config Relay.Rules.none).act c) (l.task, l.relay)
      (task, sys')) :
    Within c username n { l with task := task, relay := sys' } := by
  obtain ⟨before, sys, read, queue, overflow, processor, vault⟩ := l
  obtain ⟨ahead, meets, bound⟩ := within
  cases moves with
  | @ask request next _ _ answer made =>
      obtain ⟨demanded, onwards⟩ := meets
      obtain ⟨_, mid, made, rfl⟩ := made
      have stays : ∀ {mid : System}, mid.written = sys.written →
          mid.store.outbox = sys.store.outbox →
          (mid.conns c).entries = (sys.conns c).entries →
          Prog.wp (aheadSpec username) (fun _ _ => True) (next answer) ahead →
          Within c username n ⟨next answer, mid.note c request answer, read, queue, overflow,
          processor,
            vault⟩ := by
        intro mid written outbox entries meets
        refine Within.relay (l := ⟨.ask request next, sys, _, _, _, _, _⟩) meets bound written ?_
        rw [Relay.note_entries, entries]
        have same := framesAhead_eq username outbox ahead
        exact Nat.le_of_eq (congrArg _ same)
      cases request with
      | call op =>
          by_cases outboxOp : op.OutboxOp
          · cases op with
            | enqueue recipient bytes ts => exact demanded.elim
            | deleteFrames ids =>
                obtain ⟨rfl, rfl⟩ := made
                refine Within.relay (l := ⟨.ask _ next, sys, _, _, _, _, _⟩) (onwards _ _ rfl)
                  bound rfl ?_
                rw [Relay.note_entries]
                exact Nat.add_le_add_left (framesAhead_le username sys.store
                  (sys.store.deleteFrames ids) rfl ahead) _
            | _ => exact outboxOp.elim
          · obtain ⟨outbox, _⟩ := Relay.exec_outbox outboxOp sys.store
            cases op with
            | pendingFrames name =>
                obtain ⟨rfl, rfl⟩ := demanded
                obtain ⟨rfl, rfl⟩ := made
                refine Within.relay (l := ⟨.ask _ next, sys, _, _, _, _, _⟩) (onwards _ _ rfl)
                  bound rfl ?_
                rw [Relay.note_entries]
                exact Nat.le_refl _
            | enqueue recipient frame ts => exact absurd trivial outboxOp
            | deleteFrames ids => exact absurd trivial outboxOp
            | _ =>
                obtain ⟨rfl, rfl⟩ := made
                exact stays rfl outbox rfl (onwards _ _ rfl)
      | trySend msg =>
          have made : (answer, mid) = sys.offer c ⟨msg, none, none⟩ := made
          rcases sys.offer_cases c ⟨msg, none, none⟩ with result | ⟨_, result⟩
          · rw [result] at made
            obtain ⟨_, rfl⟩ := Prod.mk.inj made
            exact stays rfl rfl rfl (onwards _ _ rfl)
          · rw [result] at made
            obtain ⟨_, rfl⟩ := Prod.mk.inj made
            refine Within.relay (l := ⟨.ask _ next, sys, _, _, _, _, _⟩) (onwards _ _ rfl)
              bound rfl ?_
            rw [Relay.note_entries, Relay.push_entries, List.map_append, countMsgs_append]
            show _ + countMsgs [msg] + framesAhead username sys.store ahead ≤ _
            rw [countMsgs_other demanded, Nat.add_zero]
      | sendWait msg =>
          obtain ⟨_, made⟩ := made
          obtain ⟨rows, id, frame, rest, rfl, come, rfl⟩ := demanded
          rcases sys.pushRow_cases c (.deliver frame) with ⟨_, result⟩ | ⟨_, result⟩
          · rw [result] at made
            obtain ⟨rfl, rfl⟩ := Prod.mk.inj made
            refine Within.relay (l := ⟨.ask _ next, mid, _, _, _, _, _⟩) (onwards _ _ rfl)
              bound rfl ?_
            rw [Relay.note_entries]
            exact Nat.add_le_add_left (Nat.zero_le _) _
          · rw [result] at made
            obtain ⟨rfl, rfl⟩ := Prod.mk.inj made
            refine Within.relay (l := ⟨.ask _ next, sys, _, _, _, _, _⟩) (onwards _ _ rfl)
              bound rfl ?_
            rw [Relay.note_entries, Relay.push_entries, List.map_append, countMsgs_append]
            have ahead := countFrames_next come
            rw [← afterFrame_eq come] at ahead
            show countMsgs ((sys.conns c).entries.map Entry.msg) + countMsgs [.deliver frame] +
              countFrames (afterFrame rows) ≤ countMsgs ((sys.conns c).entries.map Entry.msg) +
              countFrames rows
            omega
      | push conn msg => exact demanded.elim
      | now =>
          obtain ⟨_, rfl⟩ := made
          exact stays rfl rfl rfl (onwards _ _ rfl)
      | _ =>
          obtain rfl : mid = sys := made
          exact stays rfl rfl rfl (onwards _ _ rfl)

theorem Within.drift (within : Within c username n l) {sys : System}
    (drifts : Drift Relay.Rules.none l.relay sys) : Within c username n
      { l with relay := sys } := by
  obtain ⟨ahead, meets, bound⟩ := within
  -- A connection changes, and has no more to write.
  have changes : ∀ {d : Nat} {f : Conn → Conn},
      countMsgs ((f (l.relay.conns d)).entries.map Entry.msg) ≤
        countMsgs ((l.relay.conns d).entries.map Entry.msg) →
      Within c username n { l with relay := l.relay.update d f } := by
    intro d f fewer
    refine Within.relay meets bound rfl (Nat.add_le_add_right ?_ _)
    by_cases same : c = d
    · subst same
      rw [System.update_self]
      exact fewer
    · rw [System.update_of_ne _ _ same]
  cases drifts with
  | accept fresh => exact changes (Nat.le_refl _)
  | @take d entry rest alive idle first =>
      refine changes (Nat.le_of_eq ?_)
      rw [Conn.entries, Conn.entries, idle, first]
      rfl
  | @write d entry busy =>
      have first : (l.relay.conns d).entries = entry :: (l.relay.conns d).chan := by
        rw [Conn.entries, busy]
        rfl
      refine ⟨ahead, meets, ?_⟩
      unfold inFlight at bound ⊢
      dsimp only
      show _ + countMsgs (List.drop l.read (System.socket { l.relay.update d _ with
        written := l.relay.written ++ [(d, entry)] } c)) +
        countMsgs (((l.relay.update d fun conn => { conn with writing := none }).conns
        c).entries.map
          Entry.msg) + framesAhead username l.relay.store ahead ≤ n
      by_cases same : d = c
      · subst same
        have socket : System.socket { l.relay.update d (fun conn =>
            { conn with writing := none }) with
            written := l.relay.written ++ [(d, entry)] } d = l.relay.socket d ++ [entry.msg] := by
          unfold System.socket
          rw [List.filter_append, List.map_append]
          simp
        rw [socket, List.drop_append, countMsgs_append, System.update_self]
        rw [first, List.map_cons, ← List.singleton_append, countMsgs_append] at bound
        have fewer : countMsgs (List.drop (l.read - (l.relay.socket d).length) [entry.msg]) ≤
            countMsgs [entry.msg] := (List.drop_sublist _ _).countP_le
        have chan : Conn.entries { l.relay.conns d with writing := none } =
            (l.relay.conns d).chan := rfl
        rw [chan]
        omega
      · have socket : System.socket { l.relay.update d (fun conn =>
          { conn with writing := none }) with
            written := l.relay.written ++ [(d, entry)] } c = l.relay.socket c := by
          unfold System.socket
          rw [List.filter_append]
          simp [same]
        rw [socket, System.update_of_ne _ _ fun eq => same eq.symm]
        exact bound
  | stop alive allowed => exact changes (Nat.zero_le _)
  | prune =>
      refine Within.relay meets bound rfl ?_
      exact Nat.add_le_add_left (framesAhead_le username _ _ rfl ahead) _

/-- **One step.** -/
theorem Within.next (within : Within c username n l) {l' : Login} (steps : Next config ctx c l l') :
    Within c username n l' := by
  cases steps with
  | relay moves => exact within.act moves
  | drift drifts => exact within.drift drifts
  | @queue msg inc _ next routed =>
      obtain ⟨ahead, meets, bound⟩ := within
      have one := countMsgs_forQueue (route_queue routed).1
      have unread := unread next
      refine ⟨ahead, meets, ?_⟩
      unfold inFlight at bound ⊢
      rw [List.length_append, List.length_singleton]
      dsimp only
      omega
  | overflow _ next _ =>
      obtain ⟨ahead, meets, bound⟩ := within
      have unread := unread next
      refine ⟨ahead, meets, ?_⟩
      unfold inFlight at bound ⊢
      dsimp only
      omega
  | pass _ next _ =>
      obtain ⟨ahead, meets, bound⟩ := within
      have unread := unread next
      refine ⟨ahead, meets, ?_⟩
      unfold inFlight at bound ⊢
      dsimp only
      omega
  | take _ first =>
      obtain ⟨ahead, meets, bound⟩ := within
      refine ⟨ahead, meets, ?_⟩
      unfold inFlight at bound ⊢
      rw [first, List.length_cons] at bound
      dsimp only
      omega
  | process _ _ => exact within
  | finish _ => exact within

/-- All that the queue of a login holds was stored. -/
theorem within_reached {state : ConnState} {uuid : String} {vault : Vault} {sys : System}
    (idle : Idle c sys) (reached : Relation.ReflTransGen (Next config ctx c)
      (start c sys state uuid username vault) l) :
    Within c username (countFrames (sys.store.pendingFrames username)) l := by
  induction reached with
  | refl =>
      refine ⟨none, wp_ahead_logIn username uuid c state, ?_⟩
      have entries : (sys.conns c).entries = [] := by
        rw [Conn.entries, idle.writing, idle.chan]
        rfl
      unfold inFlight
      rw [start, entries, List.drop_length]
      exact Nat.le_of_eq (Nat.zero_add _)
  | tail _ next ih => exact ih.next next

/-! ### Frame after frame -/

theorem note_writing (sys : System) (c d : Nat) (request : Relay.Ask) (answer : request.Answer) :
    ((sys.note c request answer).conns d).writing = (sys.conns d).writing :=
  sys.update_keeps c Conn.writing rfl d

theorem note_chan (sys : System) (c d : Nat) (request : Relay.Ask) (answer : request.Answer) :
    ((sys.note c request answer).conns d).chan = (sys.conns d).chan :=
      sys.update_keeps c Conn.chan rfl d

/-- Nothing is on its way to the reader. -/
structure Ready (c : Nat) (l : Login) : Prop where
  idle : Idle c l.relay
  reading : l.overflow = false
  read : l.read = (l.relay.socket c).length

/-- A message that the task has put into the channel is written. -/
theorem written (config : ServerConfig) (ctx : ProcCtx) {request : Relay.Ask}
    {next : request.Answer → Relay.Task ConnState}
    {answer : request.Answer} {msg : ServerMsg} {sys : System} (idle : Idle c l.relay)
    (asks : l.task = .ask request next)
    (made : ((Relay.relay config Relay.Rules.none).act c) request l.relay answer sys)
    (same : sys.written = l.relay.written) (alive : (sys.conns c).alive = true)
    (writing : (sys.conns c).writing = none) (chan : ∃ copy row,
      (sys.conns c).chan = [⟨msg, copy, row⟩]) :
    ∃ sys', Relation.ReflTransGen (Next config ctx c) l
      { l with task := next answer, relay := sys' } ∧
      Idle c sys' ∧ sys'.store = sys.store ∧ sys'.socket c = l.relay.socket c ++ [msg] := by
  obtain ⟨copy, row, chan⟩ := chan
  obtain ⟨task, before, read, queue, overflow, processor, vault⟩ := l
  obtain rfl : task = .ask request next := asks
  have moves : Next config ctx c ⟨.ask request next, before, read, queue, overflow,
      processor, vault⟩
      ⟨next answer, sys, read, queue, overflow, processor, vault⟩ := .relay (.ask made)
  have writes := Relay.writes_all Relay.Rules.none c (sys.conns c) alive writing sys
  have self : sys.put c (sys.conns c) = sys := by
    unfold System.put System.update
    rw [Function.update_eq_self]
  rw [self, chan] at writes
  let after (sys : System) : Login := ⟨next answer, sys, read, queue, overflow, processor, vault⟩
  have step : ∀ sys sys', Drift Relay.Rules.none sys sys' →
      Next config ctx c (after sys) (after sys') :=
    fun _ _ drift => .drift drift
  have drifts := writes.lift after step
  refine ⟨_, .head moves drifts, ⟨?_, ?_, ?_⟩, rfl, ?_⟩
  · rw [System.put_self]
    exact alive
  · rw [System.put_self]
  · rw [System.put_self]
    exact writing
  · show List.map _ (List.filter _ (sys.written ++ [(c, _)])) = _
    rw [same, List.filter_append, List.map_append]
    simp [System.socket]

/-- A frame of the backlog is pushed and written. -/
theorem row_written (config : ServerConfig) (ctx : ProcCtx) {id : Nat} {bytes : Bytes}
    {frame : Deliver} {rest : List (Nat × Bytes)}
    {handled : List Nat} (k : List Nat → Relay.Task ConnState)
    (parses : readFrame bytes = some frame)
    (idle : Idle c l.relay) (sends : l.task = (Relay.sendFrames ((id, bytes) :: rest)
      handled).bind k) :
    ∃ sys, Relation.ReflTransGen (Next config ctx c) l
        { l with task := (Relay.sendFrames rest (handled ++ [id])).bind k, relay := sys } ∧
      Idle c sys ∧ sys.socket c = l.relay.socket c ++ [.deliver frame] := by
  have asks : l.task = .ask (.sendWait (.deliver frame)) fun answer =>
      (if answer then Relay.sendFrames rest (handled ++ [id]) else .done handled).bind k := by
    rw [sends, Relay.sendFrames, parses]
    rfl
  let pushed : System := { l.relay with
      pushedRows := l.relay.pushedRows ++ (l.relay.nextRow c).toList }.push c
    ⟨.deliver frame, (l.relay.nextRow c).bind l.relay.rowCopy, l.relay.nextRow c⟩
  have made : ((Relay.relay config Relay.Rules.none).act c) (.sendWait (.deliver frame))
      l.relay true
      (pushed.note c (.sendWait (.deliver frame)) true) := by
    refine ⟨trivial, pushed, ⟨fun _ => ?_, ?_⟩, rfl⟩
    · rw [idle.chan]
      decide
    · rw [System.pushRow, if_pos idle.alive]
  obtain ⟨sys, reached, idle', _, socket⟩ := written config ctx idle asks made rfl
    (by rw [Relay.note_alive, Relay.push_alive]; exact idle.alive)
    (by rw [note_writing, push_writing]; exact idle.writing)
    (by rw [note_chan, push_chan]; exact ⟨_, _, by rw [idle.chan]; rfl⟩)
  exact ⟨sys, reached, idle', socket⟩

/-- What was written last is what the reader comes to. -/
theorem next_read {sys : System} {msg : ServerMsg} (ready : Ready c l)
    (socket : sys.socket c = l.relay.socket c ++ [msg]) : (sys.socket c)[l.read]? = some msg := by
  rw [socket, ready.read, List.getElem?_concat_length]

theorem Ready.read_on (ready : Ready c l) (task : Relay.Task ConnState) {sys : System}
    {msg : ServerMsg}
    (idle : Idle c sys) (socket : sys.socket c = l.relay.socket c ++ [msg])
      (queue : List Incoming) :
    Ready c { l with task := task, relay := sys, read := l.read + 1, queue := queue } := by
  refine ⟨idle, ready.reading, ?_⟩
  show l.read + 1 = (sys.socket c).length
  rw [socket, List.length_append, ready.read]
  rfl

/-- **As long as there is room**, all frames go into the queue, whatever the processor is doing. -/
theorem pumped (config : ServerConfig) (ctx : ProcCtx) (rows more : List (Nat × Bytes))
    (k : List Nat → Relay.Task ConnState) (handled : List Nat) (l : Login) (ready : Ready c l)
    (sends : l.task = (Relay.sendFrames (rows ++ more) handled).bind k)
    (room : l.queue.length + countFrames rows ≤ inQueue) :
    ∃ l' handled', Relation.ReflTransGen (Next config ctx c) l l' ∧ Ready c l' ∧
      l'.task = (Relay.sendFrames more handled').bind k ∧
      l'.queue.length = l.queue.length + countFrames rows ∧ l'.processor = l.processor := by
  induction rows generalizing l handled with
  | nil => exact ⟨l, handled, .refl, ready, sends, rfl, rfl⟩
  | cons row rows ih =>
      obtain ⟨id, bytes⟩ := row
      cases parses : readFrame bytes with
      | none =>
          rw [countFrames_junk rows parses] at room ⊢
          rw [List.cons_append, Relay.sendFrames, parses] at sends
          exact ih _ l ready sends room
      | some frame =>
          rw [countFrames_frame rows parses] at room ⊢
          obtain ⟨sys, pushed, idle, socket⟩ := row_written config ctx k parses ready.idle sends
          have next := next_read ready socket
          by_cases forQueue : (ServerMsg.deliver frame).ForQueue
          · rw [countMsgs_forQueue forQueue] at room ⊢
            have free : l.queue.length < inQueue := by omega
            obtain ⟨inc, routed⟩ := route_of_room forQueue free
            have queued : Next config ctx c { l with
                task := (Relay.sendFrames (rows ++ more) (handled ++ [id])).bind k
                relay := sys } _ :=
              .queue ready.reading next routed
            obtain ⟨l', handled', reached, ready', sends', length, same⟩ := ih _ _
              (ready.read_on _ idle socket (l.queue ++ [inc])) rfl (by simp; omega)
            refine ⟨l', handled', pushed.trans (.head queued reached), ready', sends', ?_, same⟩
            rw [length, List.length_append, List.length_singleton]
            omega
          · rw [countMsgs_other forQueue] at room ⊢
            have passed : Next config ctx c { l with
                task := (Relay.sendFrames (rows ++ more) (handled ++ [id])).bind k
                relay := sys } _ :=
              .pass ready.reading next forQueue
            obtain ⟨l', handled', reached, ready', sends', length, same⟩ := ih _ _
              (ready.read_on _ idle socket l.queue) rfl room
            exact ⟨l', handled', pushed.trans (.head passed reached), ready', sends', length, same⟩

/-- One frame more than fits. -/
theorem overflows (config : ServerConfig) (ctx : ProcCtx) {id : Nat} {bytes : Bytes}
    {rest : List (Nat × Bytes)} {k : List Nat → Relay.Task ConnState} {handled : List Nat}
    {l : Login}
    (ready : Ready c l) (sends : l.task = (Relay.sendFrames ((id, bytes) :: rest) handled).bind k)
    (forQueue : RowForQueue (id, bytes)) (full : inQueue ≤ l.queue.length) :
    ∃ l', Relation.ReflTransGen (Next config ctx c) l l' ∧ l'.overflow = true ∧
      l'.processor = l.processor := by
  obtain ⟨frame, parses, forQueue⟩ := forQueue
  obtain ⟨sys, pushed, _, socket⟩ := row_written config ctx k parses ready.idle sends
  have next := next_read ready socket
  have overflowed : Next config ctx c { l with
      task := (Relay.sendFrames rest (handled ++ [id])).bind k, relay := sys } _ :=
    .overflow ready.reading next (route_of_full forQueue full)
  exact ⟨_, pushed.tail overflowed, rfl, rfl⟩

/-- A note changes nothing but the ledger. -/
theorem Idle.note {sys : System} (idle : Idle c sys) (request : Relay.Ask)
    (answer : request.Answer) :
    Idle c (sys.note c request answer) where
  alive := by rw [Relay.note_alive]; exact idle.alive
  chan := by rw [note_chan]; exact idle.chan
  writing := by rw [note_writing]; exact idle.writing

/-- A login with a backlog comes to push it. -/
theorem flush_started (config : ServerConfig) (ctx : ProcCtx) (state : ConnState)
    (uuid username : String)
    (vault : Vault) {sys : System} (idle : Idle c sys) {row : Nat × Bytes}
      {rows : List (Nat × Bytes)}
    (pending : sys.store.pendingFrames username = row :: rows) :
    ∃ l k, Relation.ReflTransGen (Next config ctx c) (start c sys state uuid username vault) l ∧
      Ready c l ∧ l.task = (Relay.sendFrames (row :: rows) []).bind k ∧ l.queue = [] ∧
      l.processor = none ∧ l.vault = vault := by
  let entered : System := ({ sys with store := sys.store.goOnline username c }).note c
    (.call (.goOnline username c)) ()
  let out : ConnState := { state with authed := some username }
  let flushes : Relay.Task ConnState := (Relay.flushOutbox username).bind fun _ => .done out
  let greets : Relay.Task ConnState := (Relay.reply (.authOk uuid username)).bind fun _ => flushes
  let login (task : Relay.Task ConnState) (sys : System) (read : Nat) : Login :=
    ⟨task, sys, read, [], false, none, vault⟩
  let read : Nat := (sys.socket c).length
  have enters : Next config ctx c (start c sys state uuid username vault)
      (login greets entered read) :=
    .relay (.ask ⟨trivial, _, ⟨rfl, rfl⟩, rfl⟩)
  have stored : Idle c { sys with store := sys.store.goOnline username c } :=
    ⟨idle.alive, idle.chan, idle.writing⟩
  have ready : Ready c (login greets entered read) := ⟨stored.note _ _, rfl, rfl⟩
  have made : ((Relay.relay config Relay.Rules.none).act c) (.trySend (.authOk uuid username))
      entered true
      ((entered.push c ⟨.authOk uuid username, none, none⟩).note c
        (.trySend (.authOk uuid username)) true) := by
    refine ⟨trivial, _, ?_, rfl⟩
    have room : entered.Room c := ⟨ready.idle.alive, by rw [ready.idle.chan]; decide⟩
    show (true, _) = entered.offer c _
    rw [System.offer, if_pos room]
  obtain ⟨told, reached, idle', store, socket⟩ := written (l := login greets entered read)
      config ctx
    ready.idle rfl made rfl (by rw [Relay.note_alive, Relay.push_alive]; exact ready.idle.alive)
    (by rw [note_writing, push_writing]; exact ready.idle.writing)
    (by rw [note_chan, push_chan]; exact ⟨_, _, by rw [ready.idle.chan]; rfl⟩)
  have next := next_read ready socket
  have passed : Next config ctx c (login flushes told read) (login flushes told (read + 1)) :=
    .pass rfl next not_false
  let deletes (handled : List Nat) : Relay.Task Unit :=
    if handled.isEmpty then pure () else Relay.call (.deleteFrames handled)
  let k (handled : List Nat) : Relay.Task ConnState := (deletes handled).bind fun _ => .done out
  have rows' : told.store.pendingFrames username = row :: rows := by
    rw [store]
    exact pending
  have flushed : Next config ctx c (login flushes told (read + 1))
      (login ((Relay.sendFrames (row :: rows) []).bind k)
        (told.note c (.call (.pendingFrames username)) (row :: rows)) (read + 1)) := by
    have answered : ((Relay.relay config Relay.Rules.none).act c)
        (.call (.pendingFrames username)) told
        (row :: rows) (told.note c (.call (.pendingFrames username)) (row :: rows)) :=
      ⟨trivial, _, ⟨rows'.symm, rfl⟩, rfl⟩
    have same : ((Relay.sendFrames (row :: rows) []).bind deletes).bind (fun _ => .done out) =
        (Relay.sendFrames (row :: rows) []).bind k := Prog.bind_assoc _ deletes _
    let after (rows : List (Nat × Bytes)) : Relay.Task ConnState :=
      (if rows.isEmpty then pure () else (Relay.sendFrames rows []).bind deletes).bind fun _ =>
        .done out
    have moved : Prog.Moves ((Relay.relay config Relay.Rules.none).act c)
        (.ask (.call (.pendingFrames username)) after, told) (after (row :: rows), _) :=
          .ask answered
    rw [← same]
    exact .relay moved
  have read_on : read + 1 = (told.socket c).length := by
    rw [socket, List.length_append]
    rfl
  exact ⟨_, k, .head enters (reached.trans (.head passed (.single flushed))),
    ⟨idle'.note _ _, rfl, read_on⟩, rfl, rfl, rfl, rfl⟩

/-! ### How much fits -/

/-- The row that is one too many. -/
theorem split_frames (rows : List (Nat × Bytes)) (n : Nat) (more : n < countFrames rows) :
    ∃ pre row rest, rows = pre ++ row :: rest ∧ countFrames pre = n ∧ RowForQueue row := by
  induction rows generalizing n with
  | nil => exact absurd more (Nat.not_lt_zero n)
  | cons row rows ih =>
      by_cases forQueue : RowForQueue row
      · have one : ∀ rest, countFrames (row :: rest) = countFrames rest + 1 := fun rest =>
          List.countP_cons_of_pos (decide_eq_true forQueue)
        cases n with
        | zero => exact ⟨[], row, rows, rfl, rfl, forQueue⟩
        | succ n =>
            rw [one] at more
            obtain ⟨pre, found, rest, same, count, forQueue'⟩ := ih n (Nat.lt_of_succ_lt_succ more)
            exact ⟨row :: pre, found, rest, by rw [same]; rfl, by rw [one, count], forQueue'⟩
      · have none : ∀ rest, countFrames (row :: rest) = countFrames rest := fun rest =>
          List.countP_cons_of_neg (by simpa using forQueue)
        rw [none] at more
        obtain ⟨pre, found, rest, same, count, forQueue'⟩ := ih n more
        exact ⟨row :: pre, found, rest, by rw [same]; rfl, by rw [none, count], forQueue'⟩

/-- While the backlog fits, the reader finds room. -/
theorem Within.no_overflow (within : Within c username n l) (fits : n ≤ inQueue)
    (reading : l.overflow = false) {l' : Login} (steps : Next config ctx c l l') :
    l'.overflow = false := by
  cases steps with
  | overflow _ next routed =>
      obtain ⟨forQueue, full⟩ := route_overflow routed
      obtain ⟨ahead, _, bound⟩ := within
      have one := countMsgs_forQueue forQueue
      have unread := unread next
      unfold inFlight at bound
      omega
  | _ => exact reading

section

variable (config ctx c username) (state : ConnState) (uuid : String) (vault : Vault) {sys : System}

/-- As many frames as are stored can be in the queue at once, as far as they fit. -/
theorem fills (idle : Idle c sys) (n : Nat) (fits : n ≤ inQueue)
    (enough : n < countFrames (sys.store.pendingFrames username)) :
    ∃ l row rest k handled, Relation.ReflTransGen (Next config ctx c)
        (start c sys state uuid username vault) l ∧ Ready c l ∧
      l.task = (Relay.sendFrames (row :: rest) handled).bind k ∧ RowForQueue row ∧
      l.queue.length = n := by
  obtain ⟨pre, row, rest, same, count, forQueue⟩ := split_frames _ n enough
  have pending : ∃ first rows, sys.store.pendingFrames username = first :: rows := by
    rw [same]
    cases pre <;> exact ⟨_, _, rfl⟩
  obtain ⟨first, rows, pending⟩ := pending
  obtain ⟨l, k, started, ready, sends, empty, _⟩ := flush_started config ctx state uuid
      username vault
    idle pending
  rw [← pending, same] at sends
  have room : l.queue.length + countFrames pre ≤ inQueue := by
    rw [empty, count, List.length_nil]
    omega
  obtain ⟨l', handled, reached, ready', sends', length, _⟩ :=
      pumped config ctx pre (row :: rest) k []
    l ready sends room
  refine ⟨l', row, rest, k, handled, started.trans reached, ready', sends', forQueue, ?_⟩
  rw [length, empty, count, List.length_nil, Nat.zero_add]

/-- **What fits.** The queue never gets full exactly if the backlog has fewer frames than it has
places, and it never overflows exactly if the backlog has no more. -/
theorem backlog_fits (idle : Idle c sys) :
    ((∀ l, Relation.ReflTransGen (Next config ctx c) (start c sys state uuid username vault) l →
        l.queue.length < inQueue ∧ l.overflow = false) ↔
      countFrames (sys.store.pendingFrames username) < inQueue) ∧
    ((∀ l, Relation.ReflTransGen (Next config ctx c) (start c sys state uuid username vault) l →
        l.overflow = false) ↔ countFrames (sys.store.pendingFrames username) ≤ inQueue) := by
  have reads : countFrames (sys.store.pendingFrames username) ≤ inQueue →
      ∀ l, Relation.ReflTransGen (Next config ctx c) (start c sys state uuid username vault) l →
        l.overflow = false := by
    intro fits l reached
    induction reached with
    | refl => rfl
    | tail before next ih => exact (within_reached idle before).no_overflow fits ih next
  refine ⟨⟨fun never => ?_, fun fewer l reached => ⟨?_, reads (Nat.le_of_lt fewer) l reached⟩⟩,
    fun never => ?_, reads⟩
  · by_contra many
    obtain ⟨l, row, rest, k, handled, reached, ready, sends, ⟨frame, parses, forQueue⟩, length⟩ :=
      fills config ctx c username state uuid vault idle (inQueue - 1) (Nat.sub_le _ _)
        (by have := (by decide : 0 < inQueue); omega)
    obtain ⟨id, bytes⟩ := row
    obtain ⟨sys', pushed, idle', socket⟩ := row_written config ctx k parses ready.idle sends
    have next := next_read ready socket
    have free : l.queue.length < inQueue := by
      rw [length]
      decide
    obtain ⟨inc, routed⟩ := route_of_room forQueue free
    have queued : Next config ctx c { l with
        task := (Relay.sendFrames rest (handled ++ [id])).bind k, relay := sys' } _ :=
      .queue ready.reading next routed
    have full := (never _ ((reached.trans pushed).tail queued)).1
    rw [List.length_append, length] at full
    exact absurd full (by decide : ¬ inQueue - 1 + 1 < inQueue)
  · obtain ⟨ahead, _, bound⟩ := within_reached idle reached
    unfold inFlight at bound
    omega
  · by_contra many
    obtain ⟨l, row, rest, k, handled, reached, ready, sends, forQueue, length⟩ :=
      fills config ctx c username state uuid vault idle inQueue (Nat.le_refl _)
      (Nat.lt_of_not_le many)
    obtain ⟨l', overflowed, full, _⟩ := overflows config ctx ready sends forQueue
        (Nat.le_of_eq length.symm)
    cases full.symm.trans (never l' (reached.trans overflowed))

end

end Login

/-- What the relay's own caps allow to be stored for a user. -/
def Relay.Store.WithinCaps (store : Relay.Store) (username : String) : Prop :=
  (store.pendingFrames username).length ≤ Relay.maxOutboxPerRecipient ∧
    store.outboxBytes username ≤ Relay.maxOutboxBytesPerRecipient

end

namespace Ideal

/-- A first message from Alice, whom Bob does not know. -/
def firstContact : Deliver := ⟨"alice", ["bob"], MsgType.olm, encodeOlm 0 [], none, 0, 0⟩

/-- Bob was away while that many frames came. -/
def absence (n : Nat) : Relay.Store := { twoUsers with
  outbox := (List.range n).map fun i => ⟨i + 1, "bob", writeFrame firstContact, 0⟩
  nextOutboxId := n + 1 }

/-- Bob's connection was given a challenge. -/
def challengedBob (n : Nat) : System :=
  { System.initial (absence n) with
    written := [(0, ⟨.challenge (b64Encode someNonce), none, none⟩)] }.put 0
      { Conn.challenged someNonce with chan := [] }

theorem firstContact_inRange : firstContact.InRange := ⟨⟨by decide, by decide⟩, by
    decide, by decide⟩

theorem firstContact_small : firstContact.payload.utf8ByteSize ≤ maxPayload := by decide +kernel

theorem firstContact_forQueue (id : Nat) : RowForQueue (id, writeFrame firstContact) :=
  ⟨firstContact, readFrame_writeFrame firstContact firstContact_inRange, firstContact_small⟩

theorem absence_pending (n : Nat) : (absence n).pendingFrames "bob" =
    (List.range n).map fun i => (i + 1, writeFrame firstContact) := by
  rw [Relay.Store.pendingFrames, absence, List.filter_eq_self.mpr]
  · exact List.map_map ..
  · intro row member
    obtain ⟨i, _, rfl⟩ := List.mem_map.mp member
    exact decide_eq_true rfl

theorem absence_succ (n : Nat) : (absence (n + 1)).pendingFrames "bob" =
    (1, writeFrame firstContact) :: (List.range' 1 n).map fun i =>
      (i + 1, writeFrame firstContact) := by
  rw [absence_pending, List.range_eq_range', List.range'_succ]
  rfl

theorem absence_frames (rows : List Nat) :
    countFrames (rows.map fun i => (i + 1, writeFrame firstContact)) = rows.length := by
  rw [countFrames, List.countP_eq_length.mpr, List.length_map]
  intro row member
  obtain ⟨i, _, rfl⟩ := List.mem_map.mp member
  exact decide_eq_true (firstContact_forQueue _)

theorem absence_within {n : Nat} (few : n ≤ 10000) : (absence n).WithinCaps "bob" := by
  have small : (writeFrame firstContact).length ≤ 1000 := by decide +kernel
  refine ⟨?_, ?_⟩
  · rw [absence_pending, List.length_map, List.length_range]
    exact few
  · rw [Relay.Store.outboxBytes, absence_pending, List.map_map, Function.comp_def]
    dsimp only
    rw [List.map_const', List.sum_replicate_nat, List.length_range]
    have short := Nat.le_trans (Relay.sqlLength_le _) small
    exact Nat.le_trans (Nat.mul_le_mul few short) (by decide)

/-- The processor asks for Alice's keys, and waits. -/
theorem processor_waits (ctx : ProcCtx) : ∃ next, Relation.ReflTransGen
    (Prog.Moves (Ask.effectIf waitsForRelay)) (Client.processFrame ctx firstContact.incoming,
      Vault.empty)
      (.ask (.request (.fetchPrekeys "alice")) next, Vault.empty) := by
  obtain ⟨next, asks⟩ : ∃ next, Relation.ReflTransGen (Prog.Moves (Ask.effectIf waitsForRelay))
      (Client.processOne ctx firstContact.incoming, Vault.empty)
      (.ask (.request (.fetchPrekeys "alice")) next, Vault.empty) := by
    show ∃ next, Relation.ReflTransGen _ ((Client.obtainOlmPlaintext "alice" (encodeOlm 0 [])).bind
      fun plaintext => Client.deliverDmText ctx "alice" plaintext 0, Vault.empty) _
    unfold Client.obtainOlmPlaintext Client.readOlm
    rw [parseOlm_encodeOlm (.inl rfl)]
    exact ⟨_, .head (.ask rfl) (.head (.ask rfl) .refl)⟩
  exact ⟨_, Client.processFrame_moves asks⟩

/-- What the processor does while the rest waits. -/
theorem processes {config : ServerConfig} {ctx : ProcCtx} {c : Nat} {l : Login}
    {prog prog' : Client Unit}
    {v : Vault} (busy : l.processor = some prog)
    (moves : Relation.ReflTransGen (Prog.Moves (Ask.effectIf waitsForRelay)) (prog, l.vault)
      (prog', v)) :
    Relation.ReflTransGen (Login.Next config ctx c) l
      { l with processor := some prog', vault := v } := by
  obtain ⟨task, relay, read, queue, overflow, _, vault⟩ := l
  obtain rfl := busy
  let after (state : Client Unit × Vault) : Login :=
    ⟨task, relay, read, queue, overflow, some state.1, state.2⟩
  have step : ∀ state state', Prog.Moves (Ask.effectIf waitsForRelay) state state' →
      Login.Next config ctx c (after state) (after state') := fun _ _ moved => .process rfl moved
  exact moves.lift after step

/-- While the processor waits for the relay, first messages overflow the queue. -/
theorem overflows_waiting (n : Nat) (many : inQueue < n) : ∃ l next,
    Relation.ReflTransGen (Login.Next openConfig ⟨"bob", "relay"⟩ 0)
      (Login.start 0 (challengedBob (n + 1)) ⟨none, none, none⟩ "bob" "bob" Vault.empty) l ∧
    l.processor = some (.ask (.request (.fetchPrekeys "alice")) next) ∧ l.overflow = true := by
  have idle : Login.Idle 0 (challengedBob (n + 1)) := ⟨rfl, rfl, rfl⟩
  let ctx : ProcCtx := ⟨"bob", "relay"⟩
  let rows := (List.range' 1 n).map fun i => (i + 1, writeFrame firstContact)
  obtain ⟨⟨_, before, read, _, _, _, _⟩, k, started, ready, sends, empty, noTask, same⟩ :=
    Login.flush_started openConfig ctx ⟨none, none, none⟩ "bob" "bob" Vault.empty idle
    (absence_succ n)
  have reading := ready.reading
  dsimp only at empty noTask same reading
  subst empty noTask same reading
  -- The first frame reaches the processor, which asks for the sender's keys.
  obtain ⟨sys, pushed, idle', socket⟩ := Login.row_written openConfig ctx k
    (readFrame_writeFrame firstContact firstContact_inRange) ready.idle sends
  let login (read : Nat) (queue : List Incoming) (processor : Option (Client Unit)) : Login :=
    ⟨(Relay.sendFrames rows [1]).bind k, sys, read, queue, false, processor, Vault.empty⟩
  have come := Login.next_read ready socket
  have routed : route 0 (.deliver firstContact) = .queue firstContact.incoming := by
    rw [route, if_neg (Nat.not_lt.mpr firstContact_small), if_pos (by decide)]
  have queued : Login.Next openConfig ctx 0 (login read [] none)
      (login (read + 1) [firstContact.incoming] none) := .queue rfl come routed
  have taken : Login.Next openConfig ctx 0 (login (read + 1) [firstContact.incoming] none)
      (login (read + 1) [] (some (Client.processFrame ctx firstContact.incoming))) := .take rfl rfl
  obtain ⟨next, asks⟩ := processor_waits ctx
  have waits : Relation.ReflTransGen (Login.Next openConfig ctx 0)
      (login (read + 1) [] (some (Client.processFrame ctx firstContact.incoming)))
      (login (read + 1) [] (some (.ask (.request (.fetchPrekeys "alice")) next))) :=
        processes rfl asks
  -- The others fill the queue, and there is one too many.
  have count : countFrames rows = n := by
    rw [absence_frames, List.length_range']
  obtain ⟨pre, ⟨id, bytes⟩, rest, split, full, forQueue⟩ := Login.split_frames rows inQueue
    (by rw [count]; exact many)
  have ready' : Login.Ready 0 (login (read + 1) [] (some
      (.ask (.request (.fetchPrekeys "alice")) next))) :=
    ⟨idle', rfl, (ready.read_on (.done ⟨none, none, none⟩) idle' socket []).read⟩
  have sends' : (login (read + 1) [] (some (.ask (.request (.fetchPrekeys "alice")) next))).task =
      (Relay.sendFrames (pre ++ (id, bytes) :: rest) [1]).bind k := by rw [← split]
  obtain ⟨l, handled, pumped, ready'', sends'', length, same⟩ := Login.pumped openConfig ctx pre
    ((id, bytes) :: rest) k [1] _ ready' sends' (by rw [full]; exact Nat.le_of_eq (Nat.zero_add _))
  have crowded : inQueue ≤ l.queue.length := by
    rw [length, full]
    exact Nat.le_add_left _ _
  obtain ⟨l', overflows, overflowed, same'⟩ := Login.overflows openConfig ctx ready'' sends''
      forQueue crowded
  exact ⟨l', next, started.trans (pushed.trans (.head queued (.head taken
    (waits.trans (pumped.trans overflows))))), same'.trans same, overflowed⟩

/-- A backlog of 2050 first messages overflows the queue while the processor waits for the relay. -/
theorem backlog_overflows : (absence 2050).WithinCaps "bob" ∧ ∃ l next,
    Relation.ReflTransGen (Login.Next openConfig ⟨"bob", "relay"⟩ 0)
      (Login.start 0 (challengedBob 2050) ⟨none, none, none⟩ "bob" "bob" Vault.empty) l ∧
    l.processor = some (.ask (.request (.fetchPrekeys "alice")) next) ∧ l.overflow = true :=
  ⟨absence_within (by decide), overflows_waiting 2049 (by decide)⟩

/-- One waiting frame fits, as an instance. -/
theorem one_frame_fits : ¬ ∃ l, Relation.ReflTransGen (Login.Next openConfig ⟨"bob", "relay"⟩ 0)
    (Login.start 0 (challengedBob 1) ⟨none, none, none⟩ "bob" "bob" Vault.empty) l ∧
      ¬ (l.queue.length < inQueue ∧ l.overflow = false) := by
  have one : countFrames ((absence 1).pendingFrames "bob") = 1 := by
    rw [absence_pending, absence_frames, List.length_range]
  rintro ⟨l, reached, overflows⟩
  refine overflows ((Login.backlog_fits openConfig ⟨"bob", "relay"⟩ 0 "bob" ⟨none, none, none⟩ "bob"
    Vault.empty ⟨rfl, rfl, rfl⟩).1.mpr ?_ l reached)
  show countFrames ((absence 1).pendingFrames "bob") < inQueue
  rw [one]
  decide

end Ideal

end Cherm
