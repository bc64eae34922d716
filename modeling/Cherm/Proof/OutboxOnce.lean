/-
**How often an outbox row is pushed.**

A flush reads the rows of its user, pushes them one by one into its connection's channel, and
deletes them at the end. Two connections of one user flush side by side, and a row is in the outbox
from the first flush's reading to its deletion: the second may read it again.

* `onceRules`: no flush reads a row that another one has in its hands.
* `Once`: what then holds of the outbox, the hands of the flushes and the rows pushed.
* `rows_pushed_once`: no row is pushed twice, and a flush deletes only rows it has dealt with.
-/

import Cherm.Relay.Progress

namespace Cherm

namespace Relay

open Crates

/-- The rows a flush has pushed and not deleted yet, and those it has ahead of it. -/
def Ledger.held (l : Ledger) : List Nat := l.pushed ++ l.hands.map Prod.fst

/-- No flush reads a row that another one has in its hands. -/
def onceRules : Rules where
  ask c request sys := match request with
    | .call (.pendingFrames username) => ∀ other, other ≠ c →
        ∀ row ∈ sys.store.pendingFrames username, row.1 ∉ (sys.conns other).ledger.held
    | _ => True
  stop _ _ := True

/-- Every row has an id of its own, and no id was given out that is not below the next. -/
structure Store.Numbered (store : Store) : Prop where
  nodup : store.ids.Nodup
  below : ∀ id ∈ store.ids, id < store.nextOutboxId

/-- The rows in the hands of a flush are new, and in no other hands. -/
structure Once (sys : System) : Prop where
  numbered : sys.store.Numbered
  nodup : sys.pushedRows.Nodup
  pushedBelow : ∀ id ∈ sys.pushedRows, id < sys.store.nextOutboxId
  handsBelow : ∀ c, ∀ row ∈ (sys.conns c).ledger.hands, row.1 < sys.store.nextOutboxId
  handsNodup : ∀ c, ((sys.conns c).ledger.hands.map Prod.fst).Nodup
  handsNew : ∀ c, ∀ row ∈ (sys.conns c).ledger.hands, row.1 ∉ sys.pushedRows
  apart : ∀ c other, c ≠ other → ∀ row ∈ (sys.conns c).ledger.hands,
    ∀ row' ∈ (sys.conns other).ledger.hands, row.1 ≠ row'.1
  pushedHeld : ∀ id ∈ sys.pushedRows, id ∈ sys.store.ids → ∃ c, id ∈ (sys.conns c).ledger.pushed

theorem pendingFrames_nodup {store : Store} (numbered : store.Numbered) (username : String) :
    ((store.pendingFrames username).map Prod.fst).Nodup := by
  refine List.Nodup.sublist ?_ numbered.nodup
  rw [Store.pendingFrames, List.map_map]
  exact List.filter_sublist.map _

/-- Nothing is read or pushed: rows may go from the hands of flushes and from the outbox, and come
new to the outbox. -/
theorem Once.keep {sys sys' : System} (once : Once sys) (numbered : sys'.store.Numbered)
    (grown : sys.store.nextOutboxId ≤ sys'.store.nextOutboxId)
    (ids : ∀ id ∈ sys'.store.ids, id < sys.store.nextOutboxId → id ∈ sys.store.ids)
    (rows : sys'.pushedRows = sys.pushedRows)
    (hands : ∀ c, (sys'.conns c).ledger.hands.Sublist (sys.conns c).ledger.hands)
    (pushed : ∀ c, ∀ id ∈ (sys.conns c).ledger.pushed, id ∈ sys'.store.ids →
      id ∈ (sys'.conns c).ledger.pushed) : Once sys' where
  numbered := numbered
  nodup := by
    rw [rows]
    exact once.nodup
  pushedBelow := by
    intro id member
    rw [rows] at member
    exact Nat.lt_of_lt_of_le (once.pushedBelow id member) grown
  handsBelow c row member := Nat.lt_of_lt_of_le (once.handsBelow c row
  ((hands c).subset member)) grown
  handsNodup c := (once.handsNodup c).sublist ((hands c).map _)
  handsNew := by
    intro c row member
    rw [rows]
    exact once.handsNew c row ((hands c).subset member)
  apart c other different row member row' member' :=
    once.apart c other different row ((hands c).subset member) row' ((hands other).subset member')
  pushedHeld := by
    intro id member stored
    rw [rows] at member
    obtain ⟨c, held⟩ := once.pushedHeld id member (ids id stored (once.pushedBelow id member))
    exact ⟨c, pushed c id held stored⟩

theorem numbered_filter {store : Store} (numbered : store.Numbered) (p : OutboxRow → Bool) :
    Store.Numbered { store with outbox := store.outbox.filter p } where
  nodup := numbered.nodup.sublist (List.filter_sublist.map _)
  below id member := numbered.below id ((List.filter_sublist.map _).subset member)

/-- Most requests leave the outbox and the hands of the flushes alone. -/
theorem Once.same {sys sys' : System} (once : Once sys)
    (outbox : sys'.store.outbox = sys.store.outbox)
    (next : sys'.store.nextOutboxId = sys.store.nextOutboxId)
      (rows : sys'.pushedRows = sys.pushedRows)
    (hands : ∀ c, (sys'.conns c).ledger.hands = (sys.conns c).ledger.hands)
    (pushed : ∀ c, (sys'.conns c).ledger.pushed = (sys.conns c).ledger.pushed) : Once sys' := by
  have ids : sys'.store.ids = sys.store.ids := by rw [Store.ids, outbox, Store.ids]
  refine once.keep ⟨?_, ?_⟩ (Nat.le_of_eq next.symm) (fun id member _ => ids ▸ member) rows
    (fun c => ?_)
    fun c id member _ => (pushed c).symm ▸ member
  · rw [ids]
    exact once.numbered.nodup
  · rw [ids, next]
    exact once.numbered.below
  · rw [hands c]

theorem Once.initial {store : Store} (numbered : store.Numbered) : Once (.initial store) where
  numbered := ⟨numbered.nodup, numbered.below⟩
  nodup := List.nodup_nil
  pushedBelow := nofun
  handsBelow _ := nofun
  handsNodup _ := List.nodup_nil
  handsNew _ := nofun
  apart _ _ _ := nofun
  pushedHeld := nofun

/-- What happens without a task. -/
theorem Once.drift {sys sys' : System} (once : Once sys) (drifts : Drift onceRules sys sys') :
    Once sys' := by
  cases drifts with
  | @write c entry busy =>
      have ledgers := sys.update_keeps c Conn.ledger (f := fun conn =>
          { conn with writing := none }) rfl
      exact once.same rfl rfl rfl (fun d => congrArg Ledger.hands (ledgers d))
        fun d => congrArg Ledger.pushed (ledgers d)
  | @prune cutoff =>
      refine once.keep (numbered_filter once.numbered _) (Nat.le_refl _)
        (fun id stored _ => (List.filter_sublist.map _).subset stored) rfl
        (fun _ => List.Sublist.refl _) fun _ _ member _ => member
  | _ =>
      exact once.same rfl rfl rfl (fun d => congrArg Ledger.hands
        (sys.update_keeps _ Conn.ledger (by rfl) d))
        fun d => congrArg Ledger.pushed (sys.update_keeps _ Conn.ledger (by rfl) d)

section

variable [Crates]

/-! ### Stores -/

/-! ### Single steps -/

theorem numbered_append {store : Store} (numbered : store.Numbered) (recipient : String)
    (frame : Bytes)
    (ts : Int) : (store.append recipient frame ts).Numbered := by
  refine ⟨?_, fun id member => ?_⟩
  · rw [append_ids]
    refine numbered.nodup.append (List.nodup_singleton _)
      (List.disjoint_singleton.mpr fun member => ?_)
    exact Nat.lt_irrefl _ (numbered.below _ member)
  · rw [append_ids] at member
    show id < store.nextOutboxId + 1
    rcases List.mem_append.mp member with member | member
    · exact Nat.lt_succ_of_lt (numbered.below id member)
    · rw [List.mem_singleton.mp member]
      exact Nat.lt_succ_self _

/-- A flush reads rows that are in no other hands. -/
theorem Once.read {sys sys' : System} (once : Once sys) {c : Nat} {username : String}
    (store : sys'.store = sys.store) (rows : sys'.pushedRows = sys.pushedRows)
    (own : (sys'.conns c).ledger.hands = sys.store.pendingFrames username)
    (none : (sys.conns c).ledger.pushed = [])
    (others : ∀ other, other ≠ c → (sys'.conns other).ledger = (sys.conns other).ledger)
    (free : ∀ other, other ≠ c → ∀ row ∈ sys.store.pendingFrames username,
      row.1 ∉ (sys.conns other).ledger.held) : Once sys' where
  numbered := by
    rw [store]
    exact once.numbered
  nodup := by
    rw [rows]
    exact once.nodup
  pushedBelow := by
    rw [rows, store]
    exact once.pushedBelow
  handsBelow := by
    intro d row member
    rw [store]
    by_cases same : d = c
    · subst same
      rw [own] at member
      exact once.numbered.below _ (pendingFrames_ids member)
    · rw [others d same] at member
      exact once.handsBelow d row member
  handsNodup := by
    intro d
    by_cases same : d = c
    · subst same
      rw [own]
      exact pendingFrames_nodup once.numbered username
    · rw [others d same]
      exact once.handsNodup d
  handsNew := by
    intro d row member pushed
    rw [rows] at pushed
    by_cases same : d = c
    · subst same
      rw [own] at member
      obtain ⟨other, held⟩ := once.pushedHeld _ pushed (pendingFrames_ids member)
      by_cases mine : other = d
      · rw [mine, none] at held
        exact absurd held List.not_mem_nil
      · exact free other mine row member (List.mem_append_left _ held)
    · rw [others d same] at member
      exact once.handsNew d row member pushed
  apart := by
    have apart : ∀ other, other ≠ c → ∀ row ∈ (sys'.conns c).ledger.hands,
        ∀ row' ∈ (sys'.conns other).ledger.hands, row.1 ≠ row'.1 := by
      intro other different row member row' member' same
      rw [own] at member
      rw [others other different] at member'
      refine free other different row member (List.mem_append_right _ ?_)
      exact List.mem_map.mpr ⟨row', member', same.symm⟩
    intro d other different row member row' member'
    by_cases mine : d = c
    · subst mine
      exact apart other different.symm row member row' member'
    by_cases theirs : other = c
    · subst theirs
      exact (apart d mine row' member' row member).symm
    · rw [others d mine] at member
      rw [others other theirs] at member'
      exact once.apart d other different row member row' member'
  pushedHeld := by
    intro id member stored
    rw [rows] at member
    rw [store] at stored
    obtain ⟨other, held⟩ := once.pushedHeld id member stored
    refine ⟨other, ?_⟩
    by_cases mine : other = c
    · rw [mine, none] at held
      exact absurd held List.not_mem_nil
    · rw [others other mine]
      exact held

/-- A flush pushes the row it has come to. -/
theorem Once.pushed {sys sys' : System} (once : Once sys) {c id : Nat} {frame : Deliver}
    {rest : List (Nat × Bytes)} (next : nextFrame (sys.conns c).ledger.hands = some
    (id, frame, rest))
    (store : sys'.store = sys.store) (rows : sys'.pushedRows = sys.pushedRows ++ [id])
    (own : (sys'.conns c).ledger =
      { (sys.conns c).ledger with hands := rest, pushed := (sys.conns c).ledger.pushed ++ [id] })
    (others : ∀ other, other ≠ c → (sys'.conns other).ledger = (sys.conns other).ledger) :
    Once sys' := by
  obtain ⟨before, bytes, split, _⟩ := nextFrame_split next
  have inHands : (id, bytes) ∈ (sys.conns c).ledger.hands := by
    rw [split]
    exact List.mem_append_right _ List.mem_cons_self
  have shrunk : ∀ d, (sys'.conns d).ledger.hands.Sublist (sys.conns d).ledger.hands := by
    intro d
    by_cases same : d = c
    · subst same
      rw [own, split]
      exact (List.sublist_cons_self _ _).trans (List.sublist_append_right _ _)
    · rw [others d same]
  have gone : ∀ d, ∀ row ∈ (sys'.conns d).ledger.hands, row.1 ≠ id := by
    intro d row member
    by_cases same : d = c
    · subst same
      have nodup := once.handsNodup d
      rw [split, List.map_append, List.map_cons] at nodup
      rw [own] at member
      intro equal
      have fresh := (List.nodup_cons.mp (List.nodup_append.mp nodup).2.1).1
      exact fresh (List.mem_map.mpr ⟨row, member, equal⟩)
    · exact once.apart d c same row ((shrunk d).subset member) _ inHands
  refine ⟨?_, ?_, ?_, ?_, fun d => (once.handsNodup d).sublist ((shrunk d).map _), ?_, ?_, ?_⟩
  · rw [store]
    exact once.numbered
  · rw [rows]
    refine once.nodup.append (List.nodup_singleton _) (List.disjoint_singleton.mpr ?_)
    exact once.handsNew c _ inHands
  · intro other member
    rw [rows] at member
    rw [store]
    rcases List.mem_append.mp member with member | member
    · exact once.pushedBelow other member
    · rw [List.mem_singleton.mp member]
      exact once.handsBelow c _ inHands
  · intro d row member
    rw [store]
    exact once.handsBelow d row ((shrunk d).subset member)
  · intro d row member pushed
    rw [rows] at pushed
    rcases List.mem_append.mp pushed with pushed | pushed
    · exact once.handsNew d row ((shrunk d).subset member) pushed
    · exact gone d row member (List.mem_singleton.mp pushed)
  · intro d other different row member row' member'
    exact once.apart d other different row ((shrunk d).subset member) row'
      ((shrunk other).subset member')
  · intro other member stored
    rw [rows] at member
    rw [store] at stored
    rcases List.mem_append.mp member with member | member
    · obtain ⟨d, held⟩ := once.pushedHeld other member stored
      refine ⟨d, ?_⟩
      by_cases same : d = c
      · subst same
        rw [own]
        exact List.mem_append_left _ held
      · rw [others d same]
        exact held
    · refine ⟨c, ?_⟩
      rw [own]
      exact List.mem_append_right _ member

/-- A request that is none of a flush. -/
theorem Once.other {sys sys' : System} (once : Once sys) {c : Nat} {request : Ask}
    (other : ¬ request.Flushes) {answer : request.Answer}
      (made : request.onSystem c sys answer sys')
    (outbox : sys'.store.outbox = sys.store.outbox)
    (next : sys'.store.nextOutboxId = sys.store.nextOutboxId)
      (rows : sys'.pushedRows = sys.pushedRows) :
    Once sys' :=
  once.same outbox next rows (onSystem_hands made other) (onSystem_pushed made other)

/-- **One request.** -/
theorem Once.act {sys sys' : System} (once : Once sys) {c : Nat} {request : Ask}
    {answer : request.Answer} (demanded : (sys.conns c).ledger.Demands c request)
    (allowed : onceRules.ask c request sys) (made : request.onSystem c sys answer sys') :
      Once sys' := by
  have own := Ask.onSystem_own made
  have others := Ask.onSystem_other made
  have whole := made
  obtain ⟨mid, made, rfl⟩ := made
  cases request with
  | call op =>
      by_cases outboxOp : op.OutboxOp
      · cases op with
        | enqueue recipient frame ts =>
            have made : (answer, mid) = sys.enqueue c recipient frame ts := made
            rcases sys.enqueue_cases c recipient frame ts with result | result
            · rw [result] at made
              obtain ⟨_, rfl⟩ := Prod.mk.inj made
              exact once.other id whole rfl rfl rfl
            · rw [result] at made
              obtain ⟨_, rfl⟩ := Prod.mk.inj made
              refine once.keep (numbered_append once.numbered recipient frame ts) (Nat.le_succ _)
                (fun row stored below => ?_) rfl (fun d => ?_) fun d row member _ => ?_
              · have stored : row ∈ (sys.store.append recipient frame ts).ids := stored
                rw [append_ids] at stored
                rcases List.mem_append.mp stored with stored | stored
                · exact stored
                · exact absurd below (List.mem_singleton.mp stored ▸ Nat.lt_irrefl _)
              · rw [onSystem_hands whole id]
              · rw [onSystem_pushed whole id]
                exact member
        | deleteFrames ids =>
            obtain ⟨rfl, rfl⟩ := made
            refine once.keep (numbered_filter once.numbered _) (Nat.le_refl _)
              (fun id stored _ => (List.filter_sublist.map _).subset stored) rfl (fun d => ?_)
              fun d id member stored => ?_
            · by_cases same : d = c
              · subst same
                rw [own]
                exact List.nil_sublist _
              · rw [others d same]
            · by_cases same : d = c
              · subst same
                obtain ⟨row, kept, rfl⟩ := List.mem_map.mp stored
                have deleted := demanded.2.1 _ member
                have kept := (List.mem_filter.mp kept).2
                simp only [List.contains_iff_mem.mpr deleted, Bool.not_true,
                  Bool.false_eq_true] at kept
              · rw [others d same]
                exact member
        | _ => exact outboxOp.elim
      · obtain ⟨outbox, next⟩ := exec_outbox outboxOp sys.store
        cases op with
        | pendingFrames username =>
            obtain ⟨rfl, rfl⟩ := made
            refine once.read rfl rfl ?_ demanded.2.2 others allowed
            rw [own]
            rfl
        | enqueue recipient frame ts => exact absurd trivial outboxOp
        | deleteFrames ids => exact absurd trivial outboxOp
        | _ =>
            obtain ⟨rfl, rfl⟩ := made
            exact once.other id whole outbox next rfl
  | sendWait msg =>
      obtain ⟨waited, made⟩ := made
      obtain ⟨id, frame, rest, next, rfl⟩ := demanded
      rcases sys.pushRow_cases c (.deliver frame) with ⟨_, result⟩ | ⟨_, result⟩
      · rw [result] at made
        obtain ⟨rfl, rfl⟩ := Prod.mk.inj made
        refine once.keep once.numbered (Nat.le_refl _) (fun id stored _ => stored) rfl (fun d => ?_)
          fun d id member _ => ?_
        · by_cases same : d = c
          · subst same
            rw [own]
            exact List.nil_sublist _
          · rw [others d same]
        · by_cases same : d = c
          · subst same
            rw [own]
            exact member
          · rw [others d same]
            exact member
      · rw [result] at made
        obtain ⟨rfl, rfl⟩ := Prod.mk.inj made
        have row : sys.nextRow c = some id := by rw [System.nextRow, next]; rfl
        refine once.pushed next rfl ?_ ?_ others
        · show sys.pushedRows ++ (sys.nextRow c).toList = _
          rw [row]
          rfl
        · rw [own, Ledger.after, next]
  | trySend msg =>
      have made : (answer, mid) = sys.offer c ⟨msg, none, none⟩ := made
      rcases sys.offer_cases c ⟨msg, none, none⟩ with result | ⟨_, result⟩ <;>
      · rw [result] at made
        obtain ⟨_, rfl⟩ := Prod.mk.inj made
        exact once.other id whole rfl rfl rfl
  | push conn msg =>
      have made : (answer, mid) = sys.pushCopy c conn msg := made
      rcases sys.pushCopy_cases c conn msg with result | ⟨_, result⟩ <;>
      · rw [result] at made
        obtain ⟨_, rfl⟩ := Prod.mk.inj made
        exact once.other id whole rfl rfl rfl
  | now =>
      obtain ⟨_, rfl⟩ := made
      exact once.other id whole rfl rfl rfl
  | _ =>
      obtain rfl : mid = sys := made
      exact once.other id whole rfl rfl rfl

/-! ### Whole runs -/

theorem taskView_once (config : ServerConfig) : (taskView config onceRules).Sound Once := by
  refine taskView_sound (fun c request sys answer sys' once demanded allowed made =>
    once.act demanded allowed made) (fun sys c life state once _ _ => ?_)
    fun sys sys' once drifts =>
    once.drift drifts
  have ledgers := sys.update_keeps c Conn.ledger
    (f := fun conn => { conn with life := life, state := state }) rfl
  exact once.same rfl rfl rfl (fun d => congrArg Ledger.hands (ledgers d))
    fun d => congrArg Ledger.pushed (ledgers d)

/-- **Exactly once, if flushes keep apart.** In every run in which no flush reads a row that another
flush has in hand, no row is pushed twice, and a flush deletes rows only that it has pushed or found
to hold no frame. -/
theorem rows_pushed_once (config : ServerConfig) {store : Store} (numbered : store.Numbered)
    {tasks : Nat → Option (Task ConnState)} {sys : System}
    (reached : Relation.ReflTransGen (relay config onceRules).Next (started store) (tasks, sys)) :
    sys.pushedRows.Nodup ∧ ∀ c ids next, tasks c = some (.ask (.call (.deleteFrames ids)) next) →
      ∀ id ∈ ids, id ∈ (sys.conns c).ledger.pushed ∨ Unparseable (sys.conns c).ledger.read id := by
  have resting : ∀ c, (taskView config onceRules).idle c
      ((taskView config onceRules).see c (System.initial store)) := fun _ => ⟨rfl, rfl, rfl⟩
  have sound := taskView_once config
  refine ⟨(sound.reached reached (fun _ => rfl) resting (.initial numbered)).1.nodup, ?_⟩
  intro c ids next busy
  exact (sound.demands reached (fun _ => rfl) resting (.initial numbered) busy).1

end

end Relay

namespace Ideal

open Relay

/-- Bob has a frame waiting. -/
def backlog : Store := twoUsers.append "bob" (writeFrame hello) 0

theorem backlog_numbered : backlog.Numbered where
  nodup := List.nodup_singleton _
  below := by
    intro id member
    rw [List.mem_singleton.mp member]
    decide

/-- Two connections of Bob's log in side by side, and the row is pushed into both. -/
theorem row_pushed_twice :
    ¬ ∀ (config : ServerConfig) (store : Store), store.Numbered →
      ∀ (tasks : Nat → Option (Relay.Task ConnState)) (sys : System),
      Relation.ReflTransGen (relay config Rules.none).Next (started store) (tasks, sys) →
      sys.pushedRows.Nodup ∧ ∀ c ids next, tasks c = some (.ask (.call (.deleteFrames ids)) next) →
        ∀ id ∈ ids, id ∈ (sys.conns c).ledger.pushed ∨ Unparseable
          (sys.conns c).ledger.read id := by
  intro law
  have parses := readFrame_writeFrame hello hello_inRange
  have valid := answerOf_valid "bob" 2
  let rows := [(1, writeFrame hello)]
  let bob : Conn := .flushing someNonce "bob" "bob" rows
  let login : Relay.Task ConnState := flushing ⟨none, none, none⟩ "bob" rows []
  let entering : System := { System.initial backlog with store := backlog.goOnline "bob" 0 }
  let base : System := { entering with store := entering.store.goOnline "bob" 1 }
  have login₀ : Relation.ReflTransGen (relay openConfig Rules.none).Next (started backlog)
      (Function.update (fun _ => none) 0 (some login), entering.put 0 bob) :=
    login_flushes openConfig Rules.none 0 rfl rfl rfl rfl valid (fun _ => trivial)
      (fun _ => trivial) rfl
  let tasks : Nat → Option (Relay.Task ConnState) :=
    Function.update (Function.update (fun _ => none) 0 (some login)) 1 (some login)
  have login₁ : Relation.ReflTransGen (relay openConfig Rules.none).Next
      (Function.update (fun _ => none) 0 (some login), entering.put 0 bob)
      (tasks, (base.put 0 bob).put 1 bob) :=
    login_flushes openConfig Rules.none 1 rfl (System.put_of_ne _ _ (by decide)) rfl rfl valid
      (fun _ => trivial) (fun _ => trivial) rfl
  have both := login₀.trans login₁
  rw [base.put_comm (by decide)] at both
  -- The first connection pushes the row, then the second.
  let pushed : Conn := { bob with
    chan := bob.chan ++ [Entry.mk (.deliver hello) none (some 1)]
    ledger := { bob.ledger with hands := [], pushed := [1] } }
  have push₀ : Plays openConfig Rules.none 0 (login, (base.put 1 bob).put 0 bob) _ :=
    pushes_row (base.put 1 bob) rfl (by decide) rfl parses
  have first := both.trans (goes_on tasks rfl push₀)
  have swap := System.put_comm { base with pushedRows := [1] } (c := 1) (d := 0) (by decide) bob
  have push₁ : Plays openConfig Rules.none 1 (login,
      ({ base with pushedRows := [1] }.put 0 pushed).put 1 bob) _ :=
    pushes_row ({ base with pushedRows := [1] }.put 0 pushed) rfl (by decide) rfl parses
  have second := goes_on (Function.update tasks 0 (some (flushing ⟨none, none, none⟩ "bob" [] [1])))
    rfl push₁
  rw [← swap] at second
  have nodup := (law openConfig backlog backlog_numbered _ _ (first.trans second)).1
  have twice : [1, 1].Nodup := nodup
  exact absurd twice (by decide)

instance : Lenient onceRules := ⟨fun c request sys other => by
  cases request with
  | call op =>
      cases op with
      | pendingFrames username => exact absurd trivial other
      | _ => trivial
  | _ => trivial⟩

/-- Bob answers. -/
def answer : Deliver := ⟨"bob", ["alice"], "message", "", none, 0, 0⟩

theorem answer_inRange : answer.InRange := ⟨⟨by decide, by decide⟩, by decide, by decide⟩

/-- A frame waits for Bob, and one for Alice. -/
def backlogs : Store := backlog.append "alice" (writeFrame answer) 0

theorem backlogs_numbered : backlogs.Numbered where
  nodup := (by decide : [1, 2].Nodup)
  below := (by decide : ∀ id ∈ [1, 2], id < 3)

/-- The login of Bob on connection 0, and of Alice on connection 1, as their rows are read. -/
def bobLogin : Relay.Task ConnState := flushing ⟨none, none, none⟩ "bob" (rowsOf [(1, hello)]) []

/-- Alice's login, with a row to flush. -/
def aliceLogin : Relay.Task ConnState :=
  flushing ⟨none, none, none⟩ "alice" (rowsOf [(2, answer)]) []

/-- Bob flushes his row. -/
def bobReading : Conn := .flushing someNonce "bob" "bob" (rowsOf [(1, hello)])

/-- Alice flushes hers. -/
def aliceReading : Conn := .flushing someNonce "alice" "alice" (rowsOf [(2, answer)])

/-- Both are at their rows. -/
def bothReading : System :=
  { System.initial backlogs with store := (backlogs.goOnline "bob" 0).goOnline "alice" 1 }

/-- They flush side by side: what Alice reads is not in Bob's hands. -/
theorem bothReading_reached : Relation.ReflTransGen (relay openConfig onceRules).Next
    (started backlogs)
    (Function.update (Function.update (fun _ => none) 0 (some bobLogin)) 1 (some aliceLogin),
      (bothReading.put 0 bobReading).put 1 aliceReading) := by
  let entering : System := { System.initial backlogs with store := backlogs.goOnline "bob" 0 }
  have bob : Relation.ReflTransGen (relay openConfig onceRules).Next (started backlogs)
      (Function.update (fun _ => none) 0 (some bobLogin), entering.put 0 bobReading) := by
    refine login_flushes openConfig onceRules 0 rfl rfl rfl rfl (answerOf_valid "bob" 2)
      (fun _ => trivial) (fun conn other different row _ => ?_) rfl
    rw [System.put_of_ne _ _ different]
    exact List.not_mem_nil
  have alice : Relation.ReflTransGen (relay openConfig onceRules).Next
      (Function.update (fun _ => none) 0 (some bobLogin), entering.put 0 bobReading)
      (Function.update (Function.update (fun _ => none) 0 (some bobLogin)) 1 (some aliceLogin),
        (bothReading.put 0 bobReading).put 1 aliceReading) := by
    refine login_flushes openConfig onceRules 1 rfl (System.put_of_ne _ _ (by decide)) rfl rfl
      (answerOf_valid "alice" 1) (fun _ => trivial) (fun conn other different row member => ?_) rfl
    obtain rfl : row = (2, writeFrame answer) := List.mem_singleton.mp member
    rw [System.put_of_ne _ _ different]
    by_cases isBob : other = 0
    · subst isBob
      exact (by decide : 2 ∉ [1])
    · rw [System.put_of_ne _ _ isBob]
      exact List.not_mem_nil
  exact bob.trans alice

/-- A run, as an instance: two flushes go on side by side, both push their row, and Bob's has ended
with the deletion of its row when Alice's is about to delete hers. -/
theorem rows_pushed_apart : ∃ tasks sys next,
    Relation.ReflTransGen (relay openConfig onceRules).Next (started backlogs) (tasks, sys) ∧
    sys.store.ids = [2] ∧ tasks 1 = some (.ask (.call (.deleteFrames [2])) next) ∧
    sys.pushedRows = [1, 2] ∧ sys.pushedRows.Nodup ∧ ∀ id ∈ [2],
      id ∈ (sys.conns 1).ledger.pushed ∨ Unparseable (sys.conns 1).ledger.read id := by
  let sys := bothReading.put 1 aliceReading
  have both := bothReading_reached
  rw [bothReading.put_comm (by decide)] at both
  let served : Conn := { bobReading with
    chan := bobReading.chan ++ [Entry.mk (.deliver hello) none (some 1)]
    ledger := { bobReading.ledger with hands := [], pushed := [1] } }
  have pushes : Plays openConfig onceRules 0 (bobLogin, sys.put 0 bobReading)
      (flushing ⟨none, none, none⟩ "bob" [] [1],
        { sys with pushedRows := [1] }.put 0 served) :=
    pushes_rows ⟨none, none, none⟩ "bob" [(1, hello)]
      (fun _ member => List.mem_singleton.mp member ▸ hello_inRange) sys bobReading [] rfl
      (by decide) rfl
  let deleted : System :=
    { bothReading with store := bothReading.store.deleteFrames [1], pushedRows := [1] }
  have deletes : Plays openConfig onceRules 0 (_, { sys with pushedRows := [1] }.put 0 served)
      (_, (deleted.put 1 aliceReading).put 0 { served with
        ledger := { served.ledger with read := [], pushed := [] } }) :=
    flush_ends { sys with pushedRows := [1] } served ⟨none, none, none⟩ "bob"
  let tasks : Nat → Option (Relay.Task ConnState) :=
    Function.update (Function.update (fun _ => none) 0 (some bobLogin)) 1 (some aliceLogin)
  let bob : Conn := { served with
    state := ⟨some "bob", none, none⟩
    ledger := { served.ledger with read := [], pushed := [] } }
  have flushed : Relation.ReflTransGen (relay openConfig onceRules).Next
      (tasks, sys.put 0 bobReading)
      (Function.update tasks 0 none, (deleted.put 1 aliceReading).put 0 bob) :=
    goes_to_end tasks rfl rfl (pushes.trans deletes)
  rw [deleted.put_comm (by decide)] at flushed
  have last : Plays openConfig onceRules 1 (aliceLogin, (deleted.put 0 bob).put 1 aliceReading) _ :=
    pushes_rows ⟨none, none, none⟩ "alice" [(2, answer)]
      (fun _ member => List.mem_singleton.mp member ▸ answer_inRange) (deleted.put 0 bob)
      aliceReading [] rfl (by decide) rfl
  have reached := (both.trans flushed).trans (goes_on (Function.update tasks 0 none) rfl last)
  obtain ⟨nodup, dealt⟩ := rows_pushed_once openConfig backlogs_numbered reached
  exact ⟨_, _, _, reached, rfl, rfl, rfl, nodup, dealt 1 [2] _ rfl⟩

end Ideal

end Cherm
