/-
**What the task of one connection does, as the record shows it.**

`Ledger.Demands` says what must be in a task's hands when it makes a request: a flush reads the rows
of its own user, pushes the frame of the row it has come to, and deletes exactly the rows it has
dealt with; a frame is pushed or stored for the recipient that was looked up last, and can be read
back.

* `upholds`: every handler meets the demands, whatever it is answered.
* `taskView`, `taskView_steady`: the view of a crew that says so. Nobody touches another task's
  ledger.
-/

import Cherm.Relay.Handlers

namespace Cherm.Relay

open Crates

@[simp] theorem System.update_self (sys : System) (c : Nat) (f : Conn → Conn) :
    (sys.update c f).conns c = f (sys.conns c) := Function.update_self ..

@[simp] theorem System.update_of_ne (sys : System) {c other : Nat} (f : Conn → Conn)
    (different : other ≠ c) : (sys.update c f).conns other = sys.conns other :=
  Function.update_of_ne different ..

/-- What the change of one connection keeps of it, it keeps of all. -/
theorem System.update_keeps {β : Type} (sys : System) (c : Nat) (part : Conn → β) {f : Conn → Conn}
    (same : part (f (sys.conns c)) = part (sys.conns c)) (d : Nat) :
    part ((sys.update c f).conns d) = part (sys.conns d) := by
  by_cases mine : d = c
  · subst mine
    rw [update_self, same]
  · rw [update_of_ne _ _ mine]

/-- What a task sees of a system. -/
abbrev System.seen (sys : System) (c : Nat) : ConnState × Ledger :=
  ((sys.conns c).state, (sys.conns c).ledger)

/-- Changing a connection but for its state and ledger. -/
theorem System.seen_update (sys : System) (c other : Nat) {f : Conn → Conn}
    (state : (f (sys.conns c)).state = (sys.conns c).state)
    (ledger : (f (sys.conns c)).ledger = (sys.conns c).ledger) :
    (sys.update c f).seen other = sys.seen other := by
  rw [seen, sys.update_keeps c Conn.state state, sys.update_keeps c Conn.ledger ledger]

theorem System.seen_push (sys : System) (c other : Nat) (entry : Entry) :
    (sys.push c entry).seen other = sys.seen other := sys.seen_update c other rfl rfl

/-- The same rules, and only connections that are not closed make requests. -/
def Rules.living (rules : Rules) : Rules where
  ask c request sys := rules.ask c request sys ∧ (sys.conns c).life ≠ .closed
  stop := rules.stop

/-- Only a task closes a connection. -/
theorem Drift.life {rules : Rules} {sys sys' : System} (drifts : Drift rules sys sys') {d : Nat}
    (living : (sys.conns d).life ≠ .closed) : (sys'.conns d).life ≠ .closed := by
  have kept : ∀ c {f : Conn → Conn}, (f (sys.conns c)).life = (sys.conns c).life →
      ((sys.update c f).conns d).life ≠ .closed := by
    intro c f same
    rw [sys.update_keeps c Conn.life same]
    exact living
  cases drifts with
  | @accept c fresh =>
      by_cases mine : d = c
      · subst mine
        rw [System.update_self]
        exact nofun
      · rw [System.update_of_ne _ _ mine]
        exact living
  | @write c entry busy => exact kept c (f := fun conn => { conn with writing := none }) rfl
  | prune => exact living
  | _ => exact kept _ rfl

section

variable [Crates]

/-- The row does not hold a frame. -/
def Unparseable (rows : List (Nat × Bytes)) (id : Nat) : Prop :=
  ∃ bytes, (id, bytes) ∈ rows ∧ readFrame bytes = none

/-- What must be in hand when a request is made. -/
def Ledger.Demands (c : Nat) : Ask → Ledger → Prop
  | .call (.goOnline _ conn), l => conn = c ∧ l.user = none ∧ l.hands = [] ∧ l.pushed = []
  | .call (.goOffline username conn), l => conn = c ∧ l.user = some username
  | .call (.pendingFrames username), l => l.user = some username ∧ l.hands = [] ∧ l.pushed = []
  | .call (.deleteFrames ids), l =>
      (∀ id ∈ ids, id ∈ l.pushed ∨ Unparseable l.read id) ∧ (∀ id ∈ l.pushed, id ∈ ids) ∧
        nextFrame l.hands = none
  | .call (.enqueue recipient bytes _), l =>
      (∃ frame : Deliver, frame.InRange ∧ bytes = writeFrame frame) ∧
        ∃ conn, l.routed = some (recipient, conn)
  | .push conn _, l => ∃ recipient, l.routed = some (recipient, some conn)
  | .sendWait msg, l => ∃ id frame rest, nextFrame l.hands = some (id, frame, rest) ∧
      msg = .deliver frame
  | _, _ => True

/-- What is known of an answer. -/
def Ask.Answered : (request : Ask) → request.Answer → Prop
  | .now, answer => IsI64 answer
  | _, _ => True

/-- The requests of a task, seen from its own state and ledger. -/
def taskSpec (c : Nat) : Prog.Spec (ConnState × Ledger) Ask Ask.Answer where
  demand request s := s.2.Demands c request
  step request s answer s' := request.Answered answer ∧ s' = (s.1, s.2.after request answer)

/-- Between flushes, a task has no rows in hand. -/
def Resting (who : Option String) (s : ConnState × Ledger) : Prop :=
  s.2.user = who ∧ s.2.hands = [] ∧ s.2.pushed = []

/-! ### The flush -/

/-- In the middle of a flush. -/
structure Flushing (username : String) (rows remaining : List (Nat × Bytes)) (handled : List Nat)
    (l : Ledger) : Prop where
  user : l.user = some username
  read : l.read = rows
  next : nextFrame l.hands = nextFrame remaining
  subset : ∀ row ∈ remaining, row ∈ rows
  dealt : ∀ id ∈ handled, id ∈ l.pushed ∨ Unparseable rows id
  pushed : ∀ id ∈ l.pushed, id ∈ handled
  begun : handled = [] → remaining ≠ []

/-- When the flush stops pushing. -/
structure Flushed (username : String) (rows : List (Nat × Bytes)) (handled : List Nat)
    (l : Ledger) :
    Prop where
  user : l.user = some username
  read : l.read = rows
  dealt : ∀ id ∈ handled, id ∈ l.pushed ∨ Unparseable rows id
  pushed : ∀ id ∈ l.pushed, id ∈ handled
  empty : handled = [] → l.hands = []
  spent : nextFrame l.hands = none

def FlushedOk (username : String) (rows : List (Nat × Bytes)) :
    Except Unit (List Nat) → ConnState × Ledger → Prop
  | .ok handled, s => Flushed username rows handled s.2
  | .error _, s => Resting (some username) s

theorem wp_sendFrames {c : Nat} {username : String} {rows : List (Nat × Bytes)}
    (remaining : List (Nat × Bytes)) (handled : List Nat) {s : ConnState × Ledger}
    (flushing : Flushing username rows remaining handled s.2) :
    Prog.wp (taskSpec c) (FlushedOk username rows) (sendFrames remaining handled) s := by
  induction remaining generalizing handled s with
  | nil =>
      refine ⟨flushing.user, flushing.read, flushing.dealt, flushing.pushed, fun none => ?_,
        flushing.next⟩
      exact absurd rfl (flushing.begun none)
  | cons row rest ih =>
      obtain ⟨id, bytes⟩ := row
      have grown : handled ++ [id] = [] → rest ≠ [] := fun none => by simp at none
      unfold sendFrames
      cases read : readFrame bytes with
      | none =>
          have junk : Unparseable rows id := ⟨bytes, flushing.subset _ List.mem_cons_self, read⟩
          refine ih _ ⟨flushing.user, flushing.read, ?_, fun row member =>
            flushing.subset row (List.mem_cons_of_mem _ member), fun other member => ?_,
            fun other member => List.mem_append_left _ (flushing.pushed other member), grown⟩
          · rw [flushing.next, nextFrame, read]
          · rcases List.mem_append.mp member with member | member
            · exact flushing.dealt other member
            · rw [List.mem_singleton.mp member]
              exact .inr junk
      | some frame =>
          have next : nextFrame s.2.hands = some (id, frame, rest) := by
            rw [flushing.next, nextFrame, read]
          refine ⟨⟨id, frame, rest, next, rfl⟩, ?_⟩
          rintro sent _ ⟨_, rfl⟩
          cases sent with
          | false =>
              exact ⟨flushing.user, flushing.read, flushing.dealt, flushing.pushed, fun _ =>
                rfl, rfl⟩
          | true =>
              have after : s.2.after (.sendWait (.deliver frame)) true =
                  { s.2 with hands := rest, pushed := s.2.pushed ++ [id] } := by
                rw [Ledger.after, next]
              refine ih _ ?_
              rw [after]
              refine ⟨flushing.user, flushing.read, rfl, fun row member =>
                flushing.subset row (List.mem_cons_of_mem _ member), fun other member => ?_,
                fun other member => ?_, grown⟩
              · rcases List.mem_append.mp member with member | member
                · exact (flushing.dealt other member).imp_left (List.mem_append_left _)
                · exact .inl (List.mem_append_right _ member)
              · rcases List.mem_append.mp member with member | member
                · exact List.mem_append_left _ (flushing.pushed other member)
                · exact List.mem_append_right _ member

theorem wp_flushOutbox {c : Nat} (username : String) {s : ConnState × Ledger}
    (resting : Resting (some username) s) :
    Prog.wp (taskSpec c) (fun _ => Resting (some username)) (flushOutbox username) s := by
  refine ⟨resting, ?_⟩
  rintro rows _ ⟨_, rfl⟩
  simp only [Prog.done_bind]
  split
  · next empty => exact ⟨resting.1, List.isEmpty_iff.mp empty, rfl⟩
  next nonempty =>
  have begun : Flushing username rows rows []
      (s.2.after (.call (.pendingFrames username)) rows) :=
    ⟨resting.1, rfl, rfl, fun _ member => member, fun _ member => absurd member List.not_mem_nil,
      fun _ member => absurd member List.not_mem_nil,
      fun _ empty => nonempty (List.isEmpty_iff.mpr empty)⟩
  have sent := wp_sendFrames (c := c) (s := (s.1, _)) rows [] begun
  rw [Prog.bind_eq, Prog.wp_bind]
  refine Prog.wp_mono (fun result s' after => ?_) sent
  cases result with
  | error e => exact after
  | ok handled =>
      have flushed : Flushed username rows handled s'.2 := after
      show Prog.wp _ _ (if handled.isEmpty = true then pure () else call (.deleteFrames handled)) s'
      split
      · next none =>
        have none := List.isEmpty_iff.mp none
        refine ⟨flushed.user, flushed.empty none, List.eq_nil_iff_forall_not_mem.mpr
          fun id member => ?_⟩
        rw [none] at flushed
        exact absurd (flushed.pushed id member) List.not_mem_nil
      · refine ⟨⟨fun id member => ?_, flushed.pushed, flushed.spent⟩, ?_⟩
        · rw [flushed.read]
          exact flushed.dealt id member
        · rintro _ _ ⟨_, rfl⟩
          exact ⟨flushed.user, rfl, rfl⟩

/-! ### Sending to others -/

theorem wp_fanOut {c : Nat} {frame : Deliver} (inRange : frame.InRange) (sender : String)
    (recipients : List String) (delivered unknown : Bool) {s : ConnState × Ledger}
    (resting : Resting (some sender) s) :
    Prog.wp (taskSpec c) (fun _ => Resting (some sender))
      (fanOut sender frame (writeFrame frame) recipients delivered unknown) s := by
  induction recipients generalizing delivered unknown s with
  | nil => exact resting
  | cons recipient rest ih =>
      have stored : ∀ {s : ConnState × Ledger} {conn : Option Nat}, Resting (some sender) s →
          s.2.routed = some (recipient, conn) → Prog.wp (taskSpec c)
          (fun _ => Resting (some sender)) (do
            let stored ← call (.enqueue recipient (writeFrame frame) frame.serverTs)
            fanOut sender frame (writeFrame frame) rest (delivered || stored) unknown) s := by
        intro s conn resting routed
        refine ⟨⟨⟨frame, inRange, rfl⟩, conn, routed⟩, ?_⟩
        rintro stored _ ⟨_, rfl⟩
        exact ih _ _ resting
      unfold fanOut
      split
      · exact ih _ _ resting
      · refine ⟨trivial, ?_⟩
        rintro ⟨online, «exists»⟩ _ ⟨_, rfl⟩
        simp only [Prog.done_bind]
        split
        · exact ih _ _ resting
        · cases online with
          | none => exact stored resting rfl
          | some conn =>
              refine ⟨⟨recipient, rfl⟩, ?_⟩
              rintro pushed _ ⟨_, rfl⟩
              cases pushed with
              | true => exact ih _ _ resting
              | false => exact stored resting rfl

/-- **The handlers meet the demands.** -/
theorem upholds (c : Nat) : Upholds (taskSpec c) Resting c where
  inert := by
    intro request who s inert resting
    have same : ∀ answer, s.2.after request answer = s.2 := by
      intro answer
      cases request with
      | call op => cases op <;> first | rfl | exact inert.elim
      | _ => first | rfl | exact inert.elim
    refine ⟨?_, ?_⟩
    · cases request with
      | call op => cases op <;> trivial
      | _ => trivial
    · rintro answer _ ⟨_, rfl⟩
      rw [same]
      exact resting
  clock := by
    intro who s resting
    refine ⟨trivial, ?_⟩
    rintro answer _ ⟨inRange, rfl⟩
    exact ⟨resting, inRange⟩
  online := by
    intro username s resting
    refine ⟨⟨rfl, resting⟩, ?_⟩
    rintro answer _ ⟨_, rfl⟩
    exact ⟨rfl, resting.2⟩
  flush _ _ := wp_flushOutbox _
  fanOut _ _ _ _ inRange resting := wp_fanOut inRange _ _ _ _ resting

theorem wp_close {c : Nat} {state : ConnState} {s : ConnState × Ledger}
    (resting : Resting state.authed s) :
    Prog.wp (taskSpec c) (EndsIn Resting) ((close c state).bind fun _ => .done state) s := by
  have kept : Resting state.authed s →
      Prog.wp (taskSpec c) (fun _ => Resting state.authed) (close c state) s := by
    intro resting
    unfold close
    generalize state.authed = who at resting ⊢
    cases who with
    | none => exact resting
    | some username =>
        refine ⟨⟨rfl, resting.1⟩, ?_⟩
        rintro answer _ ⟨_, rfl⟩
        exact resting
  exact Upholds.kept (kept resting)

/-! ### The view -/

/-- Each task sees its own state and ledger, which nobody else touches. -/
def taskView (config : ServerConfig) (rules : Rules) :
    (relay config rules).View (ConnState × Ledger) where
  see c sys := ((sys.conns c).state, (sys.conns c).ledger)
  rely _ l l' := l' = l
  spec := taskSpec
  idle _ s := Resting s.1.authed s
  ended _ := EndsIn Resting

theorem taskView_steady (config : ServerConfig) (rules : Rules) :
    (taskView config rules).Steady where
  refl _ _ := rfl
  trans _ _ _ _ first second := second.trans first
  idle _ _ _ holds same := same ▸ holds
  ended _ _ _ _ holds same := same ▸ holds

/-- Before it is noted, a request changes the connections at most by an entry for one of them. -/
theorem Ask.effect_conns {c : Nat} {request : Ask} {sys mid : System} {answer : request.Answer}
    (made : request.effect c sys answer mid) :
    mid.conns = sys.conns ∨ ∃ d entry, mid.conns = (sys.push d entry).conns := by
  cases request with
  | call op =>
      cases op with
      | enqueue recipient frame ts =>
          have made : (answer, mid) = sys.enqueue c recipient frame ts := made
          rcases sys.enqueue_cases c recipient frame ts with result | result <;>
          · rw [result] at made
            obtain ⟨_, rfl⟩ := Prod.mk.inj made
            exact .inl rfl
      | _ =>
          obtain ⟨_, rfl⟩ := made
          exact .inl rfl
  | trySend msg =>
      have made : (answer, mid) = sys.offer c ⟨msg, none, none⟩ := made
      rcases sys.offer_cases c ⟨msg, none, none⟩ with result | ⟨_, result⟩
      · rw [result] at made
        obtain ⟨_, rfl⟩ := Prod.mk.inj made
        exact .inl rfl
      · rw [result] at made
        obtain ⟨_, rfl⟩ := Prod.mk.inj made
        exact .inr ⟨c, _, rfl⟩
  | sendWait msg =>
      have made : (answer, mid) = sys.pushRow c msg := made.2
      rcases sys.pushRow_cases c msg with ⟨_, result⟩ | ⟨_, result⟩
      · rw [result] at made
        obtain ⟨_, rfl⟩ := Prod.mk.inj made
        exact .inl rfl
      · rw [result] at made
        obtain ⟨_, rfl⟩ := Prod.mk.inj made
        exact .inr ⟨c, _, rfl⟩
  | push conn msg =>
      have made : (answer, mid) = sys.pushCopy c conn msg := made
      rcases sys.pushCopy_cases c conn msg with result | ⟨_, result⟩
      · rw [result] at made
        obtain ⟨_, rfl⟩ := Prod.mk.inj made
        exact .inl rfl
      · rw [result] at made
        obtain ⟨_, rfl⟩ := Prod.mk.inj made
        exact .inr ⟨conn, _, rfl⟩
  | now =>
      obtain ⟨_, rfl⟩ := made
      exact .inl rfl
  | _ =>
      obtain rfl : mid = sys := made
      exact .inl rfl

/-- So it changes nothing that a task sees. -/
theorem Ask.effect_seen {c : Nat} {request : Ask} {sys mid : System} {answer : request.Answer}
    (made : request.effect c sys answer mid) (other : Nat) : mid.seen other = sys.seen other := by
  rcases Ask.effect_conns made with same | ⟨d, entry, same⟩
  · rw [System.seen, same]
  · have pushed := sys.seen_push d other entry
    rw [System.seen, ← same] at pushed
    exact pushed

theorem Ask.effect_answered {c : Nat} {request : Ask} {sys mid : System} {answer : request.Answer}
    (made : request.effect c sys answer mid) : request.Answered answer := by
  cases request with
  | now => exact made.1
  | call op => cases op <;> trivial
  | _ => trivial

/-- After a request its task has noted the answer. -/
theorem Ask.onSystem_own {c : Nat} {request : Ask} {sys sys' : System} {answer : request.Answer}
    (made : request.onSystem c sys answer sys') :
    (sys'.conns c).ledger = (sys.conns c).ledger.after request answer := by
  obtain ⟨mid, made, rfl⟩ := made
  have seen := congrArg Prod.snd (Ask.effect_seen made c)
  rw [System.note, System.update_self]
  exact congrArg (Ledger.after request answer) seen

theorem Ask.onSystem_other {c : Nat} {request : Ask} {sys sys' : System} {answer : request.Answer}
    (made : request.onSystem c sys answer sys') (other : Nat) (different : other ≠ c) :
    (sys'.conns other).ledger = (sys.conns other).ledger := by
  obtain ⟨mid, made, rfl⟩ := made
  have seen := congrArg Prod.snd (Ask.effect_seen made other)
  rw [System.note, System.update_of_ne _ _ different]
  exact seen

/-- **The rule for the relay.** A global invariant holds in every state if a request keeps it
wherever the demands on its task are met, and so does everything else. -/
theorem taskView_sound {config : ServerConfig} {rules : Rules} {inv : System → Prop}
    (acts : ∀ c request sys answer sys', inv sys → (sys.conns c).ledger.Demands c request →
      rules.ask c request sys → request.onSystem c sys answer sys' → inv sys')
    (lives : ∀ sys c life state, inv sys → Resting (sys.conns c).ledger.user (sys.seen c) →
      (sys.conns c).life.Next life →
      inv (sys.update c fun conn => { conn with life := life, state := state }))
    (drift : ∀ sys sys', inv sys → Drift rules sys sys' → inv sys') :
    (taskView config rules).Sound inv where
  steady := taskView_steady config rules
  begins := by
    intro c p sys sys' holds idle begins
    have alone := fun l l' => (id : l' = l → l' = (l : ConnState × Ledger))
    cases begins with
    | receive isOpen inRange =>
        exact ⟨Prog.wp_under_of_eq alone ((upholds c).handle inRange idle), holds, fun _ _ => rfl⟩
    | hangUp isOpen =>
        have seen : ∀ other, (sys.update c fun conn => { conn with life := .closing }).seen other =
            sys.seen other := fun other => sys.seen_update c other rfl rfl
        refine ⟨?_, lives sys c .closing (sys.conns c).state holds ⟨rfl, idle.2⟩
          (.inr (.inl ⟨isOpen, rfl⟩)), fun other _ => seen other⟩
        show Prog.wp _ _ _ ((sys.update c fun conn => { conn with life := .closing }).seen c)
        rw [seen]
        exact Prog.wp_under_of_eq alone (wp_close idle)
  acts := by
    rintro c request sys answer sys' holds demanded ⟨allowed, mid, made, rfl⟩
    have seen := Ask.effect_seen made
    refine ⟨⟨Ask.effect_answered made, ?_⟩,
      acts c request sys answer _ holds demanded allowed ⟨mid, made, rfl⟩,
      fun other different => ?_⟩
    · show (mid.note c request answer).seen c = _
      rw [System.note, System.seen, System.update_self]
      have own := seen c
      exact congrArg (fun s : ConnState × Ledger => (s.1, s.2.after request answer)) own
    · show (mid.note c request answer).seen other = sys.seen other
      rw [System.note, System.seen, System.update_of_ne _ _ different]
      exact seen other
  ends := by
    rintro c result sys sys' holds settled ⟨state, rfl, rfl⟩
    have next : (sys.conns c).life.Next
        (if (sys.conns c).life = .closing then .closed else (sys.conns c).life) := by
      split
      · next closing => exact .inr (.inr ⟨closing, rfl⟩)
      · exact .inl rfl
    refine ⟨?_, lives sys c _ state holds ⟨rfl, (settled state rfl).2⟩ next,
      fun other different => ?_⟩
    · have seen : (sys.update c fun conn => { conn with
          state, life := if conn.life = .closing then .closed else conn.life }).seen c =
          (state, (sys.conns c).ledger) := by rw [System.seen, System.update_self]
      show Resting (System.seen _ c).1.authed (System.seen _ c)
      rw [seen]
      exact settled state rfl
    · show (sys.update c _).seen other = sys.seen other
      rw [System.seen, System.update_of_ne _ _ different]
  drift := by
    intro sys sys' holds drifts
    refine ⟨drift sys sys' holds drifts, fun other => ?_⟩
    cases drifts with
    | @write c entry busy =>
        have seen : (sys.update c fun conn => { conn with writing := none }).seen other =
            sys.seen other := sys.seen_update c other rfl rfl
        exact seen
    | prune => rfl
    | _ => exact sys.seen_update _ other rfl rfl

/-! ### Tasks at work -/

theorem Ask.onSystem_life {c other : Nat} {request : Ask} {sys sys' : System}
    {answer : request.Answer}
    (made : request.onSystem c sys answer sys') :
    (sys'.conns other).life = (sys.conns other).life := by
  obtain ⟨mid, made, rfl⟩ := made
  refine (mid.update_keeps c Conn.life rfl other).trans ?_
  rcases Ask.effect_conns made with same | ⟨d, entry, same⟩
  · rw [same]
  · rw [same]
    exact sys.update_keeps d Conn.life rfl other

theorem Ask.onSystem_alive {c other : Nat} {request : Ask} {sys sys' : System}
    {answer : request.Answer}
    (made : request.onSystem c sys answer sys') :
    (sys'.conns other).alive = (sys.conns other).alive := by
  obtain ⟨mid, made, rfl⟩ := made
  refine (mid.update_keeps c Conn.alive rfl other).trans ?_
  rcases Ask.effect_conns made with same | ⟨d, entry, same⟩
  · rw [same]
  · rw [same]
    exact sys.update_keeps d Conn.alive rfl other

/-- **A task at work has not closed its connection.** -/
theorem living_reached {config : ServerConfig} {rules : Rules} {store : Store}
    {state : Crew.State Nat System Ask Ask.Answer Unit ConnState}
    (reached : Relation.ReflTransGen (relay config rules).Next (started store) state) :
    Relation.ReflTransGen (relay config rules.living).Next (started store) state ∧
      ∀ c p, state.1 c = some p → (state.2.conns c).life ≠ .closed := by
  induction reached with
  | refl => exact ⟨.refl, fun c p => nofun⟩
  | tail _ next ih =>
      obtain ⟨before, living⟩ := ih
      cases next with
      | @start tasks s s' p c idle begins =>
          refine ⟨before.tail (.start c idle begins), fun d q busy => ?_⟩
          have busy : Function.update tasks c (some p) d = some q := busy
          have opened : (s.conns c).life = .open := by cases begins <;> assumption
          have living : (s.conns d).life ≠ .closed := by
            by_cases mine : d = c
            · rw [mine, opened]
              exact nofun
            · rw [Function.update_of_ne mine] at busy
              exact living d q busy
          cases begins with
          | receive isOpen inRange => exact living
          | hangUp isOpen =>
              by_cases mine : d = c
              · subst mine
                rw [System.update_self]
                exact nofun
              · rw [System.update_of_ne _ _ mine]
                exact living
      | @move tasks s s' request next answer c busy made =>
          refine ⟨before.tail (.move c busy ⟨⟨made.1, living c _ busy⟩, made.2⟩),
            fun d q busy' => ?_⟩
          have busy' : Function.update tasks c (some (next answer)) d = some q := busy'
          rw [Ask.onSystem_life made.2]
          by_cases mine : d = c
          · subst mine
            exact living d _ busy
          · rw [Function.update_of_ne mine] at busy'
            exact living d q busy'
      | @finish tasks s s' result c busy ends =>
          refine ⟨before.tail (.finish c busy ends), fun d q busy' => ?_⟩
          obtain ⟨state, rfl, rfl⟩ := ends
          have busy' : Function.update tasks c none d = some q := busy'
          by_cases mine : d = c
          · subst mine
            rw [Function.update_self] at busy'
            cases busy'
          · rw [Function.update_of_ne mine] at busy'
            rw [System.update_of_ne _ _ mine]
            exact living d q busy'
      | @drift tasks s s' drifts =>
          have drifts' : Drift rules.living s s' := by
            cases drifts with
            | accept fresh => exact .accept fresh
            | take alive idle first => exact .take alive idle first
            | write busy => exact .write busy
            | stop alive allowed => exact .stop alive allowed
            | prune => exact .prune
          exact ⟨before.tail (.drift drifts'), fun d q busy => Drift.life drifts (living d q busy)⟩

end

end Cherm.Relay
