/-
**What a connection gets done.**

The relay keeps nobody waiting for good: here is what the tasks do when they are let, one request
after the other, for any user and any frame. Other tasks may come in between wherever a run is cut
in two.

* `challenged`: a new connection is given a challenge.
* `answer_accepted`, `comes_online`, `logged_in`: a valid answer to it logs the connection in and
  puts the user online; then the backlog is read.
* `flush_begins`, `pushes_rows`, `flush_ends`: if there is a backlog, it is pushed row by row, and
  what was pushed is deleted.
* `login_flushes`, `login_delivers`, `login_lands`: so a new connection logs its user in.
* `fanOut_pushes`, `fanOut_stores`: a frame for one recipient goes to their channel, or to the
  outbox.
* `writes_all`: a writer writes what is in its channel.
-/

import Cherm.Ideal
import Cherm.Relay.Copies

set_option linter.unusedSectionVars false

namespace Cherm.Relay

open Crates

/-- The requests that rules may look at: a login, the reading of a backlog, and a push. -/
def Ask.Ruled : Ask → Prop
  | .call (.goOnline ..) => True
  | .call (.pendingFrames _) => True
  | .push .. => True
  | _ => False

/-- Rules that forbid no other request. -/
class Lenient (rules : Rules) : Prop where
  all : ∀ c request sys, ¬ request.Ruled → rules.ask c request sys

instance : Lenient Rules.none := ⟨fun _ _ _ _ => trivial⟩

namespace System

/-- The system with another connection under a number. -/
def put (sys : System) (c : Nat) (conn : Conn) : System := sys.update c fun _ => conn

@[simp] theorem put_self (sys : System) (c : Nat) (conn : Conn) : (sys.put c conn).conns c = conn :=
  Function.update_self ..

theorem put_of_ne (sys : System) {c d : Nat} (conn : Conn) (other : d ≠ c) :
    (sys.put c conn).conns d = sys.conns d := Function.update_of_ne other ..

@[simp] theorem update_put (sys : System) (c : Nat) (conn : Conn) (f : Conn → Conn) :
    (sys.put c conn).update c f = sys.put c (f conn) := by
  unfold put update
  simp only [Function.update_self, Function.update_idem]

@[simp] theorem put_put (sys : System) (c : Nat) (conn conn' : Conn) :
    (sys.put c conn).put c conn' = sys.put c conn' := sys.update_put c conn fun _ => conn'

theorem put_comm (sys : System) {c d : Nat} (different : c ≠ d) (conn conn' : Conn) :
    (sys.put c conn).put d conn' = (sys.put d conn').put c conn := by
  simp only [put, update, Function.update_comm different]

theorem update_eq_put (sys : System) {c : Nat} {conn : Conn} (same : sys.conns c = conn)
    (f : Conn → Conn) : sys.update c f = sys.put c (f conn) := by
  rw [put, update, update, same]

end System

section

variable [Crates] {config : ServerConfig} {rules : Rules} [Lenient rules] {c : Nat} {α : Type}

/-- The steps that a task can take. -/
abbrev Plays (config : ServerConfig) (rules : Rules) (c : Nat) : Task α × System →
    Task α × System → Prop :=
  Relation.ReflTransGen (Prog.Moves ((relay config rules).act c))

@[simp] theorem put_note (sys : System) (c : Nat) (conn : Conn) (request : Ask)
    (answer : request.Answer) : (sys.put c conn).note c request answer =
      sys.put c { conn with ledger := conn.ledger.after request answer } := sys.update_put ..

/-! ### Single requests -/

theorem plays_call {sys : System} {conn : Conn} {op : StoreOp} {next : op.Result → Task α}
    {state : Task α × System} (allowed : rules.ask c (.call op) (sys.put c conn))
    (other : ∀ recipient frame ts, op ≠ .enqueue recipient frame ts)
    (rest : Plays config rules c (next (op.exec sys.store).1,
      { sys with store := (op.exec sys.store).2
      }.put c { conn with ledger := conn.ledger.after (.call op) (op.exec sys.store).1 }) state) :
    Plays config rules c (.ask (.call op) next, sys.put c conn) state := by
  have made : Ask.effect c (.call op) (sys.put c conn) (op.exec sys.store).1
      ({ sys with store := (op.exec sys.store).2 }.put c conn) := by
    cases op with
    | enqueue recipient frame ts => exact absurd rfl (other recipient frame ts)
    | _ => exact ⟨rfl, rfl⟩
  refine .head (.ask ⟨allowed, _, made, rfl⟩) ?_
  rw [put_note]
  exact rest

theorem offer_put {sys : System} {conn : Conn} {entry : Entry} (alive : conn.alive = true)
    (room : conn.chan.length < outboundCap) : (sys.put c conn).offer c entry =
      (true, sys.put c { conn with chan := conn.chan ++ [entry] }) := by
  unfold System.offer
  rw [if_pos]
  · exact congrArg _ (sys.update_put ..)
  · unfold System.Room
    rw [System.put_self]
    exact ⟨alive, room⟩

theorem plays_reply {sys : System} {conn : Conn} {msg : ServerMsg} {next : Bool → Task α}
    {state : Task α × System} (alive : conn.alive = true) (room : conn.chan.length < outboundCap)
    (rest : Plays config rules c (next true, sys.put c
      { conn with chan := conn.chan ++ [⟨msg, none, none⟩] }) state) :
    Plays config rules c (.ask (.trySend msg) next, sys.put c conn) state := by
  have made : Ask.effect c (.trySend msg) (sys.put c conn) true
      (sys.put c { conn with chan := conn.chan ++ [⟨msg, none, none⟩] }) :=
        (offer_put alive room).symm
  refine .head (.ask ⟨Lenient.all _ _ _ not_false, _, made, rfl⟩) ?_
  rw [put_note]
  exact rest

theorem plays_allow {sys : System} {conn : Conn} {limiter : Limiter} {next : Bool → Task α}
    {state : Task α × System} (rest : Plays config rules c (next true, sys.put c conn) state) :
    Plays config rules c (.ask (.allow limiter) next, sys.put c conn) state := by
  have made : Ask.effect c (.allow limiter) (sys.put c conn) true (sys.put c conn) := rfl
  refine .head (.ask ⟨Lenient.all _ _ _ not_false, _, made, rfl⟩) ?_
  rw [put_note]
  exact rest

theorem plays_nonce {sys : System} {conn : Conn} {next : Bytes → Task α} {state : Task α × System}
    (nonce : Bytes) (rest : Plays config rules c (next nonce, sys.put c conn) state) :
    Plays config rules c (.ask .randomNonce next, sys.put c conn) state := by
  have made : Ask.effect c .randomNonce (sys.put c conn) nonce (sys.put c conn) := rfl
  refine .head (.ask ⟨Lenient.all _ _ _ not_false, _, made, rfl⟩) ?_
  rw [put_note]
  exact rest

theorem plays_now {sys : System} {conn : Conn} {next : Int → Task α} {state : Task α × System}
    {now : Int} (inRange : IsI64 now) (rest : Plays config rules c
    (next now, sys.put c conn) state) :
    Plays config rules c (.ask .now next, sys.put c conn) state := by
  have made : Ask.effect c .now (sys.put c conn) now (sys.put c conn) := ⟨inRange, rfl⟩
  refine .head (.ask ⟨Lenient.all _ _ _ not_false, _, made, rfl⟩) ?_
  rw [put_note]
  exact rest

/-! ### Messages -/

section

variable {tasks : Nat → Option (Task ConnState)} {sys sys' : System} {conn conn' : Conn}

/-- A task begins to handle a message. -/
theorem begins_handling (tasks : Nat → Option (Task ConnState)) (idle : tasks c = none)
    (isOpen : conn.life = .open) (msg : Option ClientMsg)
    (inRange : InRange msg) {p : Task ConnState}
    (plays : Plays config rules c (handle c config conn.state msg, sys.put c conn)
      (p, sys'.put c conn')) :
    Relation.ReflTransGen (relay config rules).Next (tasks, sys.put c conn)
      (Function.update tasks c (some p), sys'.put c conn') := by
  have isOpen : ((sys.put c conn).conns c).life = .open := by rw [System.put_self, isOpen]
  have begins : Begins config c (handle c config ((sys.put c conn).conns c).state msg)
      (sys.put c conn)
      (sys.put c conn) := .receive isOpen inRange
  rw [System.put_self] at begins
  have busy : Function.update tasks c (some (handle c config conn.state msg)) c =
      some (handle c config conn.state msg) := Function.update_self ..
  have moved := Crew.moves_next busy plays
  rw [Function.update_idem] at moved
  exact .head (.start c idle begins) moved

/-- A task goes on. -/
theorem goes_on (tasks : Nat → Option (Task ConnState)) {p q : Task ConnState}
    (busy : tasks c = some p)
    (plays : Plays config rules c (p, sys) (q, sys')) :
    Relation.ReflTransGen (relay config rules).Next (tasks, sys)
      (Function.update tasks c (some q), sys') :=
  Crew.moves_next busy plays

/-- A task comes to its end. -/
theorem ends_handling (isOpen : conn.life = .open) {state : ConnState}
    (busy : tasks c = some (.done state)) :
    Relation.ReflTransGen (relay config rules).Next (tasks, sys.put c conn)
      (Function.update tasks c none, sys.put c { conn with state := state }) := by
  have ends : (relay config rules).ends c (.ok state) (sys.put c conn)
      (sys.put c { conn with state := state }) := by
    refine ⟨state, rfl, ?_⟩
    rw [System.update_put, isOpen]
    rfl
  exact .single (.finish c (by exact busy) ends)

/-- A task goes on to its end. -/
theorem goes_to_end (tasks : Nat → Option (Task ConnState)) {p : Task ConnState}
    {state : ConnState} (busy : tasks c = some p) (isOpen : conn'.life = .open)
    (plays : Plays config rules c (p, sys) (.done state, sys'.put c conn')) :
    Relation.ReflTransGen (relay config rules).Next (tasks, sys)
      (Function.update tasks c none, sys'.put c { conn' with state := state }) := by
  have gone := goes_on tasks busy plays
  have ended : Relation.ReflTransGen (relay config rules).Next
      (Function.update tasks c (some (.done state)), sys'.put c conn') _ :=
        ends_handling isOpen (Function.update_self ..)
  rw [Function.update_idem] at ended
  exact gone.trans ended

/-- A message is handled. -/
theorem handled (tasks : Nat → Option (Task ConnState)) (idle : tasks c = none)
    (isOpen : conn.life = .open) (isOpen' : conn'.life = .open)
    (msg : Option ClientMsg) (inRange : InRange msg) {state : ConnState}
    (plays : Plays config rules c (handle c config conn.state msg, sys.put c conn)
      (.done state, sys'.put c conn')) :
    Relation.ReflTransGen (relay config rules).Next (tasks, sys.put c conn)
      (tasks, sys'.put c { conn' with state := state }) := by
  have ended := goes_to_end (Function.update tasks c (some (handle c config conn.state msg)))
    (Function.update_self ..) isOpen' plays
  rw [Function.update_idem, ← idle, Function.update_eq_self] at ended
  exact (begins_handling tasks idle isOpen msg inRange .refl).trans ended

end

/-- A writer writes all that is in its channel. -/
theorem writes_all (rules : Rules) (c : Nat) (conn : Conn) (alive : conn.alive = true)
    (idle : conn.writing = none) (sys : System) :
    Relation.ReflTransGen (Drift rules) (sys.put c conn)
      ({ sys with written := sys.written ++ conn.chan.map fun entry => (c, entry) }.put c
        { conn with chan := [] }) := by
  obtain ⟨life, state, _, entries, _, ledger⟩ := conn
  cases alive
  cases idle
  induction entries generalizing sys with
  | nil =>
      rw [List.map_nil, List.append_nil]
  | cons entry rest ih =>
      have takes : Drift rules (sys.put c ⟨life, state, true, entry :: rest, none, ledger⟩)
          (sys.put c ⟨life, state, true, rest, some entry, ledger⟩) := by
        have takes : Drift rules (sys.put c ⟨life, state, true, entry :: rest, none, ledger⟩) _ :=
          .take (by rw [System.put_self]) (by rw [System.put_self]) (by rw [System.put_self])
        rw [System.update_put] at takes
        exact takes
      have writes : Drift rules (sys.put c ⟨life, state, true, rest, some entry, ledger⟩)
          ({ sys with written := sys.written ++ [(c, entry)] }.put c
            ⟨life, state, true, rest, none, ledger⟩) := by
        have writes : Drift rules (sys.put c ⟨life, state, true, rest, some entry, ledger⟩) _ :=
          .write (by rw [System.put_self])
        rw [System.update_put] at writes
        exact writes
      have others := ih { sys with written := sys.written ++ [(c, entry)] }
      simp only [List.append_assoc, List.singleton_append] at others
      exact .head takes (.head writes others)

theorem drifts_next {sys sys' : System} (drifts : Relation.ReflTransGen (Drift rules) sys sys')
    (tasks : Nat → Option (Task ConnState)) :
    Relation.ReflTransGen (relay config rules).Next (tasks, sys) (tasks, sys') :=
  drifts.lift (fun sys => (tasks, sys)) fun _ _ drift => .drift drift

/-! ### Logging in -/

/-- A connection that was accepted. -/
def Conn.accepted : Conn := { Conn.fresh with life := .open, alive := true }

/-- A connection that was given a challenge. -/
def Conn.challenged (nonce : Bytes) : Conn where
  life := .open
  state := ⟨none, some nonce, none⟩
  alive := true
  chan := [⟨.challenge (b64Encode nonce), none, none⟩]
  writing := none
  ledger := .empty

/-- A connection is accepted, asks for a challenge, and is given one. -/
theorem challenged (config : ServerConfig) (rules : Rules) [Lenient rules]
    (tasks : Nat → Option (Task ConnState)) (sys : System) (idle : tasks c = none)
      (fresh : sys.conns c = .fresh) (username : String) (nonce : Bytes) :
    Relation.ReflTransGen (relay config rules).Next (tasks, sys)
      (tasks, sys.put c (.challenged nonce)) := by
  have accepted : Drift rules sys _ := .accept (c := c) (by rw [fresh]; rfl)
  rw [sys.update_eq_put fresh] at accepted
  refine .head (.drift accepted) ?_
  have plays : Plays config rules c (handle c config Conn.accepted.state
      (some (.authBegin username)),
      sys.put c .accepted) (.done ⟨none, some nonce, none⟩,
        sys.put c { Conn.challenged nonce with state := .initial }) :=
    plays_allow (plays_nonce nonce (plays_reply rfl (by decide) .refl))
  exact handled tasks idle rfl rfl (some (.authBegin username)) trivial plays

/-- What is left to do when a user has come online. -/
def entered (state : ConnState) (uuid username : String) : Task ConnState := do
  reply (.authOk uuid username)
  flushOutbox username
  return { state with authed := some username }

/-- A valid answer to the challenge logs the connection in. -/
theorem answer_accepted {sys : System} {conn : Conn} {nonce : Bytes} {username signature : String}
    {record : UserRecord} (state : conn.state = ⟨none, some nonce, none⟩)
    (everyone : config.rejectUnofficialClients = false)
    (known : sys.store.lookupUser username = some record)
    (valid : verifyEd25519B64 record.ed25519 nonce signature = true) :
    Plays config rules c (handle c config conn.state (some (.authFinish username signature)),
    sys.put c conn)
      (logIn c ⟨none, none, none⟩ record.uuid username, sys.put c conn) := by
  have official : config.clientAllowed none = true := by
    rw [ServerConfig.clientAllowed, everyone]
    rfl
  obtain ⟨life, _, alive, chan, writing, ledger⟩ := conn
  cases state
  refine plays_allow ?_
  show Plays config rules c (authFinish c config ⟨none, some nonce, none⟩ username signature, _) _
  simp only [authFinish, official]
  refine plays_call (Lenient.all _ (.call (.lookupUser username)) _ not_false)
    (by exact fun _ _ _ => nofun) ?_
  simp only [StoreOp.exec, known, Prog.done_bind, valid]
  exact .refl

/-- It puts the user online. -/
theorem comes_online {sys : System} {conn : Conn} {nonce : Bytes} {username signature : String}
    {record : UserRecord} (state : conn.state = ⟨none, some nonce, none⟩)
    (everyone : config.rejectUnofficialClients = false)
    (known : sys.store.lookupUser username = some record)
    (valid : verifyEd25519B64 record.ed25519 nonce signature = true)
    (allowed : ∀ conn, rules.ask c (.call (.goOnline username c)) (sys.put c conn)) :
    Plays config rules c (handle c config conn.state (some (.authFinish username signature)),
    sys.put c conn)
      (entered ⟨none, none, none⟩ record.uuid username,
        { sys with store := sys.store.goOnline username c }.put c
          { conn with ledger := { conn.ledger with user := some username } }) :=
  (answer_accepted state everyone known valid).trans
    (plays_call (allowed _) (by exact fun _ _ _ => nofun) .refl)

/-- A connection whose user has just come online. -/
def Conn.online (nonce : Bytes) (username : String) : Conn :=
  { Conn.challenged nonce with ledger := { Ledger.empty with user := some username } }

/-- What is left to do of a login that has rows in its hands. -/
def flushing (state : ConnState) (username : String) (rows : List (Nat × Bytes))
    (handled : List Nat) : Task ConnState :=
  ((sendFrames rows handled).bind fun handled =>
    if handled.isEmpty then pure () else call (.deleteFrames handled)).bind
      fun _ => pure { state with authed := some username }

/-- The backlog is read, and is to be pushed. -/
theorem flush_begins {sys : System} {conn : Conn} {state : ConnState} {uuid username : String}
    {row : Nat × Bytes} {rest : List (Nat × Bytes)} (alive : conn.alive = true)
    (room : conn.chan.length < outboundCap)
    (reads : ∀ conn, rules.ask c (.call (.pendingFrames username)) (sys.put c conn))
    (rows : sys.store.pendingFrames username = row :: rest) :
    Plays config rules c (entered state uuid username, sys.put c conn)
      (flushing state username (row :: rest) [], sys.put c { conn with
        chan := conn.chan ++ [Entry.mk (.authOk uuid username) none none]
        ledger := { conn.ledger with read := row :: rest, hands := row :: rest, pushed := [] } }) :=
    by
  refine plays_reply alive room (plays_call (reads _) (by exact fun _ _ _ => nofun) ?_)
  rw [StoreOp.exec, rows]
  exact .refl

/-- A flush pushes the row it has come to. -/
theorem pushes_row (sys : System) {conn : Conn} {state : ConnState} {username : String} {id : Nat}
    {bytes : Bytes} {rest : List (Nat × Bytes)} {handled : List Nat} {frame : Deliver}
    (alive : conn.alive = true) (room : conn.chan.length < outboundCap)
    (hands : conn.ledger.hands = (id, bytes) :: rest) (parses : readFrame bytes = some frame) :
    Plays config rules c (flushing state username ((id, bytes) :: rest) handled, sys.put c conn)
      (flushing state username rest (handled ++ [id]),
      { sys with pushedRows := sys.pushedRows ++ [id] }.put c { conn with
        chan := conn.chan ++ [Entry.mk (.deliver frame) (sys.rowCopy id) (some id)]
        ledger := { conn.ledger with hands := rest, pushed := conn.ledger.pushed ++ [id] } }) := by
  have come : nextFrame conn.ledger.hands = some (id, frame, rest) := by
      rw [hands, nextFrame, parses]
  have row : (sys.put c conn).nextRow c = some id := by
    rw [System.nextRow, System.put_self, come]
    rfl
  have made : Ask.effect c (.sendWait (.deliver frame)) (sys.put c conn) true
      ({ sys with pushedRows := sys.pushedRows ++ [id] }.put c { conn with
        chan := conn.chan ++ [Entry.mk (.deliver frame) (sys.rowCopy id) (some id)] }) := by
    refine ⟨fun _ => ?_, ?_⟩
    · rw [System.put_self]
      exact room
    · rw [System.pushRow, System.put_self, if_pos alive, row]
      have pushed : ({ sys with pushedRows := sys.pushedRows ++ [id] }.put c conn).push c
          (Entry.mk (.deliver frame) (sys.rowCopy id) (some id)) =
            { sys with pushedRows := sys.pushedRows ++ [id] }.put c
            { conn with chan := conn.chan ++ [Entry.mk (.deliver frame) (sys.rowCopy id)
            (some id)] } :=
        System.update_put ..
      exact congrArg (Prod.mk true) pushed.symm
  rw [flushing, sendFrames, parses]
  refine .head (.ask ⟨Lenient.all _ _ _ not_false, _, made, rfl⟩) ?_
  rw [put_note, Ledger.after, come]
  exact .refl

/-- The rows that hold these frames. -/
def rowsOf (frames : List (Nat × Deliver)) : List (Nat × Bytes) :=
  frames.map fun row => (row.1, writeFrame row.2)

/-- What is pushed of them. -/
def System.rowEntries (sys : System) (frames : List (Nat × Deliver)) : List Entry :=
  frames.map fun row => Entry.mk (.deliver row.2) (sys.rowCopy row.1) (some row.1)

/-- With room for them, a flush pushes all of its rows. -/
theorem pushes_rows (state : ConnState) (username : String) (frames : List (Nat × Deliver))
    (inRange : ∀ row ∈ frames, row.2.InRange) (sys : System) (conn : Conn) (handled : List Nat)
    (alive : conn.alive = true) (room : conn.chan.length + frames.length ≤ outboundCap)
    (hands : conn.ledger.hands = rowsOf frames) :
    Plays config rules c (flushing state username (rowsOf frames) handled, sys.put c conn)
      (flushing state username [] (handled ++ frames.map Prod.fst),
      { sys with pushedRows := sys.pushedRows ++ frames.map Prod.fst }.put c { conn with
        chan := conn.chan ++ sys.rowEntries frames
        ledger := { conn.ledger with
          hands := [], pushed := conn.ledger.pushed ++ frames.map Prod.fst } }) := by
  induction frames generalizing sys conn handled with
  | nil =>
      obtain ⟨life, connState, _, chan, writing, user, read, held, pushed, routed⟩ := conn
      obtain rfl : held = [] := hands
      simp only [rowsOf, System.rowEntries, List.map_nil, List.append_nil]
      exact .refl
  | cons row rest ih =>
      have own := inRange row List.mem_cons_self
      have first : Plays config rules c (flushing state username
          ((row.1, writeFrame row.2) :: rowsOf rest) handled, sys.put c conn) _ :=
        pushes_row sys alive (Nat.lt_of_lt_of_le (by simp) room) hands
          (readFrame_writeFrame row.2 own)
      have others := ih (fun row member => inRange row (List.mem_cons_of_mem _ member))
        { sys with pushedRows := sys.pushedRows ++ [row.1] }
        { conn with
          chan := conn.chan ++ [Entry.mk (.deliver row.2) (sys.rowCopy row.1) (some row.1)]
          ledger := { conn.ledger with
            hands := rowsOf rest, pushed := conn.ledger.pushed ++ [row.1] } }
        (handled ++ [row.1]) alive (by simp at room ⊢; omega) rfl
      simp only [List.append_assoc, List.singleton_append] at others
      exact first.trans others

/-- When all rows are pushed, they are deleted, and the user is logged in. -/
theorem flush_ends (sys : System) (conn : Conn) (state : ConnState) (username : String) {id : Nat}
    {handled : List Nat} :
    Plays config rules c (flushing state username [] (id :: handled), sys.put c conn)
      (.done { state with authed := some username },
        { sys with store := sys.store.deleteFrames (id :: handled) }.put c
          { conn with ledger := { conn.ledger with read := [], hands := [], pushed := [] } }) :=
  plays_call (Lenient.all _ (.call (.deleteFrames (id :: handled))) _ not_false)
    (by exact fun _ _ _ => nofun) .refl

/-- A user with a backlog is logged in when all of it is pushed and deleted. -/
theorem delivered {sys : System} {conn : Conn} {state : ConnState} {uuid username : String}
    (row : Nat × Deliver) (rest : List (Nat × Deliver))
    (inRange : ∀ r ∈ row :: rest, r.2.InRange) (alive : conn.alive = true)
    (room : conn.chan.length + 1 + (row :: rest).length ≤ outboundCap)
    (reads : ∀ conn, rules.ask c (.call (.pendingFrames username)) (sys.put c conn))
    (rows : sys.store.pendingFrames username = rowsOf (row :: rest)) :
    Plays config rules c (entered state uuid username, sys.put c conn)
      (.done { state with authed := some username }, { sys with
        store := sys.store.deleteFrames ((row :: rest).map Prod.fst)
        pushedRows := sys.pushedRows ++ (row :: rest).map Prod.fst }.put c { conn with
          chan := conn.chan ++ [Entry.mk (.authOk uuid username) none none] ++
            sys.rowEntries (row :: rest)
          ledger := { conn.ledger with read := [], hands := [], pushed := [] } }) := by
  have begins : Plays config rules c (entered state uuid username, sys.put c conn) _ :=
    flush_begins alive (by simp at room; omega) reads rows
  have pushes : Plays config rules c (flushing state username (rowsOf (row :: rest)) [], _) _ :=
    pushes_rows state username (row :: rest) inRange sys { conn with
      chan := conn.chan ++ [Entry.mk (.authOk uuid username) none none]
      ledger := { conn.ledger with
        read := rowsOf (row :: rest), hands := rowsOf (row :: rest), pushed := [] } } [] alive
    (by simpa using room) rfl
  exact (begins.trans pushes).trans (flush_ends _ _ state username)

/-- With no backlog, the user is logged in at once. -/
theorem logged_in {sys : System} {conn : Conn} {state : ConnState} {uuid username : String}
    (alive : conn.alive = true) (room : conn.chan.length < outboundCap)
    (reads : ∀ conn, rules.ask c (.call (.pendingFrames username)) (sys.put c conn))
    (rows : sys.store.pendingFrames username = []) :
    Plays config rules c (entered state uuid username, sys.put c conn)
      (.done { state with authed := some username }, sys.put c { conn with
        chan := conn.chan ++ [Entry.mk (.authOk uuid username) none none]
        ledger := { conn.ledger with read := [], hands := [], pushed := [] } }) := by
  refine plays_reply alive room (plays_call (reads _) (by exact fun _ _ _ => nofun) ?_)
  rw [StoreOp.exec, rows]
  exact .refl

/-- A connection that has just logged in, without a backlog. -/
def Conn.loggedIn (nonce : Bytes) (uuid username : String) : Conn where
  life := .open
  state := ⟨some username, none, none⟩
  alive := true
  chan := [Entry.mk (.challenge (b64Encode nonce)) none none,
  Entry.mk (.authOk uuid username) none none]
  writing := none
  ledger := { Ledger.empty with user := some username }

/-- A connection that is logging in, and has read a backlog. -/
def Conn.flushing (nonce : Bytes) (uuid username : String) (rows : List (Nat × Bytes)) : Conn :=
  { Conn.loggedIn nonce uuid username with
    state := ⟨none, some nonce, none⟩
    ledger := { Ledger.empty with user := some username, read := rows, hands := rows } }

/-- A connection that has just logged in, and was pushed its backlog. -/
def Conn.served (nonce : Bytes) (uuid username : String) (entries : List Entry) : Conn :=
  { Conn.loggedIn nonce uuid username with
    chan := (Conn.loggedIn nonce uuid username).chan ++ entries }

section

variable {tasks : Nat → Option (Task ConnState)} {sys : System} {username : String}
  {record : UserRecord} {nonce : Bytes}

/-- A new connection comes to push the backlog of its user. -/
theorem login_flushes (config : ServerConfig) (rules : Rules) [Lenient rules] (c : Nat)
    {signature : String} {row : Nat × Bytes} {rest : List (Nat × Bytes)}
    (idle : tasks c = none) (fresh : sys.conns c = .fresh)
    (everyone : config.rejectUnofficialClients = false)
    (known : sys.store.lookupUser username = some record)
    (valid : verifyEd25519B64 record.ed25519 nonce signature = true)
    (allowed : ∀ conn, rules.ask c (.call (.goOnline username c)) (sys.put c conn))
    (reads : ∀ conn, rules.ask c (.call (.pendingFrames username))
      ({ sys with store := sys.store.goOnline username c }.put c conn))
    (rows : sys.store.pendingFrames username = row :: rest) :
    Relation.ReflTransGen (relay config rules).Next (tasks, sys)
      (Function.update tasks c (some (flushing ⟨none, none, none⟩ username (row :: rest) [])),
        { sys with store := sys.store.goOnline username c }.put c
          (.flushing nonce record.uuid username (row :: rest))) := by
  have enters : Plays config rules c (handle c config (Conn.challenged nonce).state
      (some (.authFinish username signature)), sys.put c (.challenged nonce)) _ :=
    comes_online rfl everyone known valid allowed
  have begins : Plays config rules c (entered ⟨none, none, none⟩ record.uuid username,
      { sys with store := sys.store.goOnline username c }.put c (.online nonce username)) _ :=
    flush_begins rfl (by decide : 1 < outboundCap) reads rows
  exact (challenged config rules tasks sys idle fresh username nonce).trans
    (begins_handling tasks idle rfl (some (.authFinish username signature)) trivial
      (enters.trans begins))

/-- A new connection logs its user in, and is pushed the backlog. -/
theorem login_delivers (config : ServerConfig) (rules : Rules) [Lenient rules] (c : Nat)
    {signature : String} (row : Nat × Deliver) (rest : List (Nat × Deliver))
    (idle : tasks c = none) (fresh : sys.conns c = .fresh)
    (everyone : config.rejectUnofficialClients = false)
    (known : sys.store.lookupUser username = some record)
    (valid : verifyEd25519B64 record.ed25519 nonce signature = true)
    (allowed : ∀ conn, rules.ask c (.call (.goOnline username c)) (sys.put c conn))
    (reads : ∀ conn, rules.ask c (.call (.pendingFrames username))
      ({ sys with store := sys.store.goOnline username c }.put c conn))
    (rows : sys.store.pendingFrames username = rowsOf (row :: rest))
    (inRange : ∀ r ∈ row :: rest, r.2.InRange) (room : 2 + (row :: rest).length ≤ outboundCap) :
    Relation.ReflTransGen (relay config rules).Next (tasks, sys)
      (tasks, { sys with
        store := (sys.store.goOnline username c).deleteFrames ((row :: rest).map Prod.fst)
        pushedRows := sys.pushedRows ++ (row :: rest).map Prod.fst }.put c
          (.served nonce record.uuid username (sys.rowEntries (row :: rest)))) := by
  have ends : Plays config rules c (entered ⟨none, none, none⟩ record.uuid username,
      { sys with store := sys.store.goOnline username c }.put c (.online nonce username)) _ :=
    delivered row rest inRange rfl room reads rows
  have enters : Plays config rules c (handle c config (Conn.challenged nonce).state
      (some (.authFinish username signature)), sys.put c (.challenged nonce)) _ :=
    comes_online rfl everyone known valid allowed
  exact (challenged config rules tasks sys idle fresh username nonce).trans
    (handled tasks idle rfl rfl (some (.authFinish username signature)) trivial
      (enters.trans ends))

/-- A new connection logs its user in. -/
theorem login_lands (config : ServerConfig) (rules : Rules) [Lenient rules] (c : Nat)
    {signature : String} (idle : tasks c = none) (fresh : sys.conns c = .fresh)
    (everyone : config.rejectUnofficialClients = false)
    (known : sys.store.lookupUser username = some record)
    (valid : verifyEd25519B64 record.ed25519 nonce signature = true)
    (allowed : ∀ conn, rules.ask c (.call (.goOnline username c)) (sys.put c conn))
    (reads : ∀ conn, rules.ask c (.call (.pendingFrames username))
      ({ sys with store := sys.store.goOnline username c }.put c conn))
    (rows : sys.store.pendingFrames username = []) :
    Relation.ReflTransGen (relay config rules).Next (tasks, sys)
      (tasks, { sys with store := sys.store.goOnline username c }.put c
        (.loggedIn nonce record.uuid username)) := by
  have lands : Plays config rules c (entered ⟨none, none, none⟩ record.uuid username,
      { sys with store := sys.store.goOnline username c }.put c (.online nonce username)) _ :=
    logged_in rfl (by decide : 1 < outboundCap) reads rows
  have enters : Plays config rules c (handle c config (Conn.challenged nonce).state
      (some (.authFinish username signature)), sys.put c (.challenged nonce)) _ :=
    comes_online rfl everyone known valid allowed
  exact (challenged config rules tasks sys idle fresh username nonce).trans
    (handled tasks idle rfl rfl (some (.authFinish username signature)) trivial
      (enters.trans lands))

end

/-! ### Sending -/

/-- There is room for a first frame. -/
theorem enqueues_first {store : Store} {recipient : String} {frame : Bytes}
    (empty : store.pendingFrames recipient = []) (small : frame.length ≤ maxOutboxBytesPerRecipient)
    (ts : Int) : store.enqueueIfUnderCap recipient frame ts =
      (true, store.append recipient frame ts) := by
  have few : ¬ maxOutboxPerRecipient ≤ (store.pendingFrames recipient).length := by
    rw [empty]
    exact Nat.not_le.mpr (by decide : 0 < maxOutboxPerRecipient)
  have fits : ¬ maxOutboxBytesPerRecipient < store.outboxBytes recipient + frame.length := by
    rw [Store.outboxBytes, empty, List.map_nil, List.sum_nil, Nat.zero_add]
    exact Nat.not_lt.mpr small
  rw [Store.enqueueIfUnderCap, if_neg few, if_neg fits]
  rfl

theorem push_put_of_ne (sys : System) {c other : Nat} (different : other ≠ c) (conn : Conn)
    (entry : Entry) : (sys.put c conn).push other entry = (sys.push other entry).put c conn := by
  simp only [System.push, System.update, System.put, Function.update_of_ne different,
    Function.update_comm different]

section

variable {sys : System} {conn : Conn} {sender recipient : String} {state : ConnState}
    {msg : SendMsg}
  {now : Int} {frame : Deliver}

/-- The sender is told what became of the frame. -/
def conclude (sent : Task (Bool × Bool)) : Task Unit := do
  let (delivered, unknown) ← sent
  if !delivered && unknown then err ErrCode.unknownUser "no such recipient"
  else reply (.ok none)

/-- A message is handled, and the state is this one. -/
def concluded (state : ConnState) (sent : Task (Bool × Bool)) : Task ConnState := do
  conclude sent
  return state

/-- A frame that is not refused is sent to its recipients. -/
theorem send_fansOut (sys : System) (conn : Conn) (msg : SendMsg)
    (authed : state.authed = some sender) (alone : msg.to = [recipient])
    (small : msg.payload.utf8ByteSize ≤ maxPayload) (inRange : IsI64 now)
    (built : frame = ⟨sender, msg.to, msg.msgType, msg.payload, msg.groupId, now, msg.clientTs⟩) :
    Plays config rules c (handle c config state (some (.send msg)), sys.put c conn)
      (concluded state (fanOut sender frame (writeFrame frame) [recipient] false false),
        sys.put c conn) := by
  obtain ⟨_, nonce, hash⟩ := state
  cases authed
  have fits : ¬ maxPayload < msg.payload.utf8ByteSize := Nat.not_lt.mpr small
  have few : ¬ maxRecipients < msg.to.length := by
    rw [alone]
    exact Nat.not_lt.mpr (by decide : 1 ≤ maxRecipients)
  have once : msg.to.eraseDups = [recipient] := by rw [alone]; rfl
  subst built
  show Plays config rules c ((send ⟨some sender, nonce, hash⟩ msg).bind
    fun _ => .done (ConnState.mk (some sender) nonce hash), _) _
  unfold Relay.send
  refine plays_allow ?_
  simp only [Prog.done_bind, if_neg fits, if_neg few, once]
  exact plays_now inRange .refl

/-- A frame for one recipient who is online goes to their channel. -/
theorem fanOut_pushes (sys : System) (conn : Conn) (other : Nat) (different : other ≠ c)
    (notOwn : recipient ≠ sender)
    (allowed : rules.ask c (.push other (.deliver frame)) (sys.put c { conn with
      ledger := { conn.ledger with routed := some (recipient, some other) } }))
    (known : sys.store.route recipient = (some other, true)) (room : sys.Room other)
    (alive : conn.alive = true) (ownRoom : conn.chan.length < outboundCap) {queued : Bytes} :
    Plays config rules c (concluded state (fanOut sender frame queued [recipient] false false),
    sys.put c conn)
      (.done state, ((sys.accept c recipient (some frame)).push other
        (Entry.mk (.deliver frame) (some sys.accepted.length) none)).put c { conn with
          chan := conn.chan ++ [Entry.mk (.ok none) none none]
          ledger := { conn.ledger with routed := some (recipient, some other) } }) := by
  have pushed : Ask.effect c (.push other (.deliver frame)) (sys.put c { conn with
      ledger := { conn.ledger with routed := some (recipient, some other) } }) true
      (((sys.accept c recipient (some frame)).push other
        (Entry.mk (.deliver frame) (some sys.accepted.length) none)).put c { conn with
          ledger := { conn.ledger with routed := some (recipient, some other) } }) := by
    have room' : (sys.put c { conn with
        ledger := { conn.ledger with routed := some (recipient, some other) } }).Room other := by
      unfold System.Room
      rw [System.put_of_ne _ _ different]
      exact room
    show (_, _) = System.pushCopy _ _ _ _
    rw [System.pushCopy, if_pos room', System.routedTo, System.put_self,
      ← push_put_of_ne _ different]
    rfl
  unfold concluded conclude fanOut
  simp only [if_neg notOwn, Prog.bind_eq, Prog.bind_assoc]
  refine plays_call (Lenient.all _ (.call (.route recipient)) _ not_false)
    (by exact fun _ _ _ impossible => by cases impossible) ?_
  rw [StoreOp.exec, known]
  refine .head (.ask ⟨allowed, _, pushed, rfl⟩) ?_
  rw [put_note]
  exact plays_reply alive ownRoom .refl

/-- A frame for one recipient who is not online is stored, if there is room. -/
theorem fanOut_stores (sys : System) (conn : Conn) (notOwn : recipient ≠ sender)
    (inRange : frame.InRange)
    (known : sys.store.route recipient = (none, true))
    (room : sys.store.enqueueIfUnderCap recipient (writeFrame frame) frame.serverTs =
      (true, sys.store.append recipient (writeFrame frame) frame.serverTs))
    (alive : conn.alive = true) (ownRoom : conn.chan.length < outboundCap) :
    Plays config rules c (concluded state (fanOut sender frame (writeFrame frame) [recipient]
    false false),
        sys.put c conn)
      (.done state, { sys.accept c recipient (some frame) with
        store := sys.store.append recipient (writeFrame frame) frame.serverTs
        rowCopy := Function.update sys.rowCopy sys.store.nextOutboxId (some sys.accepted.length)
        }.put c { conn with
          chan := conn.chan ++ [Entry.mk (.ok none) none none]
          ledger := { conn.ledger with routed := some (recipient, none) } }) := by
  have stored : Ask.effect c (.call (.enqueue recipient (writeFrame frame) frame.serverTs))
      (sys.put c { conn with ledger := { conn.ledger with routed := some (recipient, none) } }) true
      ({ sys.accept c recipient (some frame) with
        store := sys.store.append recipient (writeFrame frame) frame.serverTs
        rowCopy := Function.update sys.rowCopy sys.store.nextOutboxId (some sys.accepted.length)
        }.put c { conn with ledger := { conn.ledger with routed := some (recipient, none) } }) := by
    have room' : (sys.put c
        { conn with ledger := { conn.ledger with routed := some (recipient, none) }
          }).store.enqueueIfUnderCap recipient (writeFrame frame) frame.serverTs =
      (true, sys.store.append recipient (writeFrame frame) frame.serverTs) := room
    show (_, _) = System.enqueue _ _ _ _ _
    rw [System.enqueue, room', readFrame_writeFrame frame inRange]
    rfl
  unfold concluded conclude fanOut
  simp only [if_neg notOwn, Prog.bind_eq, Prog.bind_assoc]
  refine plays_call (Lenient.all _ (.call (.route recipient)) _ not_false)
    (by exact fun _ _ _ impossible => by cases impossible) ?_
  rw [StoreOp.exec, known]
  refine .head (.ask ⟨Lenient.all _ _ _ not_false, _, stored, rfl⟩) ?_
  rw [put_note]
  exact plays_reply alive ownRoom .refl

end

end

end Cherm.Relay

namespace Cherm.Ideal

open Relay

/-! ### A relay to play on -/

/-- A relay for everyone. -/
def openConfig : ServerConfig := ⟨"relay", "", "", "", "", false, []⟩

/-- A registered user. -/
def userRecord (name : String) (seed : Nat) : UserRecord :=
  ⟨name, name, Crates.b64Encode (publicKey 1 seed).bytes, ""⟩

/-- Two users have registered. -/
def twoUsers : Store :=
  { Store.empty with users := [⟨userRecord "alice" 1, "", 0⟩, ⟨userRecord "bob" 2, "", 0⟩] }

/-- A nonce. -/
def someNonce : Bytes := List.replicate 32 7

/-- A user's answer to the nonce. -/
def answerOf (seed : Nat) : String := Crates.signBase64 (Account.mk seed [] []) someNonce

/-- A user's answer to the challenge is valid. -/
theorem answerOf_valid (name : String) (seed : Nat) :
    verifyEd25519B64 (userRecord name seed).ed25519 someNonce (answerOf seed) = true := by
  have read : Crates.keyFromBase64 (userRecord name seed).ed25519 = .ok (publicKey 1 seed) :=
    Crates.keyFromBase64_encode _
  rw [verifyEd25519B64, read]
  exact decide_eq_true rfl

/-- Alice sends Bob a frame. -/
def helloMsg : SendMsg := ⟨["bob"], "message", "", none, 0⟩

/-- A frame from Alice to Bob. -/
def hello : Deliver := ⟨"alice", ["bob"], "message", "", none, 0, 0⟩

theorem zero_isI64 : IsI64 0 := ⟨by decide, by decide⟩

theorem hello_small : (writeFrame hello).length ≤ maxOutboxBytesPerRecipient := by decide +kernel

theorem hello_inRange : hello.InRange := ⟨⟨by decide, by decide⟩, by decide, by decide⟩

end Cherm.Ideal
