/-
**What becomes of an accepted copy.**

A copy waits in a channel or in the outbox until it is written. A flush deletes the row of a copy
once it has pushed it, so from then on the channel is the only place where it is, and a writer that
stops takes its channel with it.

* `keptRules`: no writer stops while it has an accepted copy to write.
* `Kept`: every copy is somewhere, and a row that was pushed and is not deleted yet no longer
  counts.
* `copies_kept`: then no accepted copy is lost.
-/

import Cherm.Relay.Progress

namespace Cherm

namespace Relay

open Crates

/-- No writer stops while it has an accepted copy to write. -/
def keptRules : Rules where
  ask _ _ _ := True
  stop c sys := ∀ entry ∈ (sys.conns c).entries, entry.copy = none

/-- The copy was written, is about to be, or was pruned. -/
def System.Sent (sys : System) (i : Nat) : Prop :=
  (∃ write ∈ sys.written, write.2.copy = some i) ∨
    (∃ c, ∃ entry ∈ (sys.conns c).entries, entry.copy = some i) ∨ i ∈ sys.pruned

/-- The copy is a row of the outbox. -/
def System.Stored (sys : System) (i : Nat) : Prop :=
  ∃ row ∈ sys.store.outbox, sys.rowCopy row.id = some i

/-- Every accepted copy is somewhere, and those whose rows were pushed are not only there. -/
structure Kept (sys : System) : Prop where
  copies : ∀ i, i < sys.accepted.length → sys.Sent i ∨ sys.Stored i
  pushed : ∀ c, ∀ id ∈ (sys.conns c).ledger.pushed, ∀ i, sys.rowCopy id = some i → sys.Sent i

/-- Entries stay, or are written. -/
theorem System.Sent.keep {sys sys' : System} {i : Nat} (sent : sys.Sent i)
    (written : sys.written ⊆ sys'.written) (pruned : sys.pruned ⊆ sys'.pruned)
    (entries : ∀ c, ∀ entry ∈ (sys.conns c).entries, entry.copy = some i →
      entry ∈ (sys'.conns c).entries ∨ (c, entry) ∈ sys'.written) : sys'.Sent i := by
  rcases sent with ⟨write, member, copy⟩ | ⟨c, entry, member, copy⟩ | gone
  · exact .inl ⟨write, written member, copy⟩
  · rcases entries c entry member copy with stays | wrote
    · exact .inr (.inl ⟨c, entry, stays, copy⟩)
    · exact .inl ⟨(c, entry), wrote, copy⟩
  · exact .inr (.inr (pruned gone))

theorem Fits.eq {accepted : List Copy} {user : Option String} {frame : Option Deliver} {i : Nat}
    {copy : Copy} (fits : Fits accepted user frame i) (found : accepted[i]? = some copy) :
    frame = copy.frame ∧ user = some copy.recipient := by
  obtain ⟨copy', found', theirs, same⟩ := fits
  rw [found] at found'
  cases found'
  exact ⟨same, theirs⟩

section

variable [Crates]

/-! ### Single steps -/

/-- No row is pushed; rows go only where their copies are sent. -/
theorem Kept.keep {sys sys' : System} (kept : Kept sys) (recorded : Recorded sys)
    (sent : ∀ i, sys.Sent i → sys'.Sent i)
    (stored : ∀ i, sys.Stored i → sys'.Stored i ∨ sys'.Sent i)
    (rowCopy : ∀ r, r < sys.store.nextOutboxId → sys'.rowCopy r = sys.rowCopy r)
    (accepted : ∀ i, i < sys'.accepted.length → i < sys.accepted.length ∨ sys'.Sent i ∨
      sys'.Stored i)
    (pushed : ∀ c, (sys'.conns c).ledger.pushed ⊆ (sys.conns c).ledger.pushed) : Kept sys' where
  copies i below := by
    rcases accepted i below with before | new
    · rcases kept.copies i before with was | was
      · exact .inl (sent i was)
      · exact (stored i was).symm
    · exact new
  pushed c id member i copy := by
    have before := pushed c member
    rw [rowCopy id (recorded.pushed c id before)] at copy
    exact sent i (kept.pushed c id before i copy)

section

variable {c : Nat} {request : Ask} {sys mid : System} {answer : request.Answer}

/-- A request that gives nobody anything to write keeps what is sent. -/
theorem Sent.same {i : Nat} (sent : sys.Sent i) (conns : mid.conns = sys.conns)
    (written : mid.written = sys.written) (pruned : mid.pruned = sys.pruned) :
    (mid.note c request answer).Sent i := by
  refine sent.keep (written ▸ List.Subset.refl _) (pruned ▸ List.Subset.refl _)
    fun d entry member _ => .inl ?_
  rw [note_entries, conns]
  exact member

/-- And so does a request that gives somebody something. -/
theorem Sent.push {i : Nat} {base : System} {d : Nat} {entry : Entry} (sent : sys.Sent i)
    (conns : base.conns = sys.conns) (written : base.written = sys.written)
    (pruned : base.pruned = sys.pruned) : ((base.push d entry).note c request answer).Sent i := by
  refine sent.keep (written ▸ List.Subset.refl _) (pruned ▸ List.Subset.refl _)
    (each d (fun found member _ => .inl ?_) fun other different found member _ => .inl ?_)
  · rw [note_entries, push_entries, conns]
    exact List.mem_append_left _ member
  · rw [note_entries, push_entries_of_ne _ _ different, conns]
    exact member

/-- What was just pushed is sent. -/
theorem Sent.pushed {i : Nat} {base : System} {d : Nat} {entry : Entry}
    (copy : entry.copy = some i) :
    ((base.push d entry).note c request answer).Sent i := by
  refine .inr (.inl ⟨d, entry, ?_, copy⟩)
  rw [note_entries, push_entries]
  exact List.mem_append_right _ (List.mem_singleton.mpr rfl)

/-- A request that is none of a flush, gives nobody anything to write and stores no row. -/
theorem Kept.other (kept : Kept sys) (recorded : Recorded sys) (other : ¬ request.Flushes)
    (made : request.onSystem c sys answer (mid.note c request answer))
      (conns : mid.conns = sys.conns)
    (written : mid.written = sys.written) (pruned : mid.pruned = sys.pruned)
    (outbox : mid.store.outbox = sys.store.outbox) (rowCopy : mid.rowCopy = sys.rowCopy)
    (accepted : mid.accepted = sys.accepted) : Kept (mid.note c request answer) := by
  refine kept.keep recorded (fun i sent => Sent.same sent conns written pruned)
    (fun i stored => .inl ?_) (fun r _ => congrFun rowCopy r) (fun i below => .inl ?_) fun d => ?_
  · obtain ⟨row, member, copy⟩ := stored
    refine ⟨row, ?_, (congrFun rowCopy row.id).trans copy⟩
    show row ∈ mid.store.outbox
    rw [outbox]
    exact member
  · rw [← accepted]
    exact below
  · rw [onSystem_pushed made other]
    exact List.Subset.refl _

theorem Kept.act {sys' : System} (kept : Kept sys) (recorded : Recorded sys)
    (demanded : (sys.conns c).ledger.Demands c request)
      (made : request.onSystem c sys answer sys') :
    Kept sys' := by
  have own := Ask.onSystem_own made
  have others := Ask.onSystem_other made
  have whole := made
  obtain ⟨mid, made, rfl⟩ := made
  cases request with
  | call op =>
      by_cases outboxOp : op.OutboxOp
      · cases op with
        | enqueue recipient bytes ts =>
            have made : (answer, mid) = sys.enqueue c recipient bytes ts := made
            rcases sys.enqueue_cases c recipient bytes ts with result | result
            · rw [result] at made
              obtain ⟨_, rfl⟩ := Prod.mk.inj made
              exact kept.other recorded id whole rfl rfl rfl rfl rfl rfl
            · rw [result] at made
              obtain ⟨_, rfl⟩ := Prod.mk.inj made
              have old : ∀ r, r < sys.store.nextOutboxId → Function.update sys.rowCopy
                  sys.store.nextOutboxId (some sys.accepted.length) r = sys.rowCopy r :=
                fun r below => Function.update_of_ne (Nat.ne_of_lt below) ..
              refine kept.keep recorded (fun i sent => Sent.same sent rfl rfl rfl)
                (fun i stored => .inl ?_)
                old (fun i below => ?_) fun d => ?_
              · obtain ⟨row, member, copy⟩ := stored
                exact ⟨row, List.mem_append_left _ member,
                  (old _ (recorded.below row member)).trans copy⟩
              · have below : i < (sys.accepted ++ [_]).length := below
                rw [List.length_append] at below
                rcases Nat.lt_succ_iff_lt_or_eq.mp below with before | rfl
                · exact .inl before
                · refine .inr (.inr ⟨_, List.mem_append_right _ (List.mem_singleton.mpr rfl), ?_⟩)
                  exact Function.update_self ..
              · rw [onSystem_pushed whole id]
                exact List.Subset.refl _
        | deleteFrames ids =>
            obtain ⟨rfl, rfl⟩ := made
            refine kept.keep recorded (fun i sent => Sent.same sent rfl rfl rfl)
              (fun i stored => ?_)
              (fun _ _ => rfl) (fun i below => .inl below) (each c ?_ fun d other => ?_)
            · obtain ⟨row, member, copy⟩ := stored
              by_cases deleted : row.id ∈ ids
              · rcases demanded.1 row.id deleted with pushed | ⟨bytes, read, junk⟩
                · exact .inr (Sent.same (kept.pushed c row.id pushed i copy) rfl rfl rfl)
                · exact absurd junk ((recorded.read c _ read).2 i copy).2
              · refine .inl ⟨row, List.mem_filter.mpr ⟨member, ?_⟩, copy⟩
                rw [Bool.not_eq_true', Bool.eq_false_iff]
                exact fun found => deleted (List.contains_iff_mem.mp found)
            · rw [own]
              exact List.nil_subset _
            · rw [others d other]
              exact List.Subset.refl _
        | _ => exact outboxOp.elim
      · obtain ⟨outbox, _⟩ := exec_outbox outboxOp sys.store
        cases op with
        | pendingFrames username =>
            obtain ⟨rfl, rfl⟩ := made
            refine kept.keep recorded (fun i sent => Sent.same sent rfl rfl rfl)
              (fun i stored => .inl stored) (fun _ _ => rfl) (fun i below => .inl below)
              (each c ?_ fun d other => ?_)
            · rw [own]
              exact List.nil_subset _
            · rw [others d other]
              exact List.Subset.refl _
        | enqueue recipient frame ts => exact absurd trivial outboxOp
        | deleteFrames ids => exact absurd trivial outboxOp
        | _ =>
            obtain ⟨rfl, rfl⟩ := made
            exact kept.other recorded id whole rfl rfl rfl outbox rfl rfl
  | sendWait msg =>
      obtain ⟨_, made⟩ := made
      obtain ⟨id, frame, rest, next, rfl⟩ := demanded
      rcases sys.pushRow_cases c (.deliver frame) with ⟨_, result⟩ | ⟨_, result⟩
      · rw [result] at made
        obtain ⟨rfl, rfl⟩ := Prod.mk.inj made
        refine kept.keep recorded (fun i sent => Sent.same sent rfl rfl rfl)
          (fun i stored => .inl stored) (fun _ _ => rfl) (fun i below => .inl below)
          (each c ?_ fun d other => ?_)
        · rw [own]
          exact List.Subset.refl _
        · rw [others d other]
          exact List.Subset.refl _
      · rw [result] at made
        obtain ⟨rfl, rfl⟩ := Prod.mk.inj made
        have row : sys.nextRow c = some id := by
          rw [System.nextRow, next]
          rfl
        rw [Ledger.after, next] at own
        refine ⟨fun i below => ?_, each c ?_ fun d other => ?_⟩
        · rcases kept.copies i below with was | was
          · exact .inl (Sent.push was rfl rfl rfl)
          · exact .inr was
        · rw [own]
          intro r member i copy
          rcases List.mem_append.mp member with member | member
          · exact Sent.push (kept.pushed c r member i copy) rfl rfl rfl
          · rw [List.mem_singleton.mp member] at copy
            refine Sent.pushed ?_
            rw [row]
            exact copy
        · rw [others d other]
          exact fun r member i copy => Sent.push (kept.pushed d r member i copy) rfl rfl rfl
  | trySend msg =>
      have made : (answer, mid) = sys.offer c ⟨msg, none, none⟩ := made
      rcases sys.offer_cases c ⟨msg, none, none⟩ with result | ⟨_, result⟩
      · rw [result] at made
        obtain ⟨_, rfl⟩ := Prod.mk.inj made
        exact kept.other recorded id whole rfl rfl rfl rfl rfl rfl
      · rw [result] at made
        obtain ⟨_, rfl⟩ := Prod.mk.inj made
        refine kept.keep recorded (fun i sent => Sent.push sent rfl rfl rfl)
          (fun i stored => .inl stored)
          (fun _ _ => rfl) (fun i below => .inl below) fun d => ?_
        rw [onSystem_pushed whole id]
        exact List.Subset.refl _
  | push conn msg =>
      have made : (answer, mid) = sys.pushCopy c conn msg := made
      rcases sys.pushCopy_cases c conn msg with result | ⟨_, result⟩
      · rw [result] at made
        obtain ⟨_, rfl⟩ := Prod.mk.inj made
        exact kept.other recorded id whole rfl rfl rfl rfl rfl rfl
      · rw [result] at made
        obtain ⟨_, rfl⟩ := Prod.mk.inj made
        refine kept.keep recorded (fun i sent => Sent.push sent rfl rfl rfl)
          (fun i stored => .inl stored)
          (fun _ _ => rfl) (fun i below => ?_) fun d => ?_
        · have below : i < (sys.accepted ++ [_]).length := below
          rw [List.length_append] at below
          rcases Nat.lt_succ_iff_lt_or_eq.mp below with before | rfl
          · exact .inl before
          · exact .inr (.inl (Sent.pushed rfl))
        · rw [onSystem_pushed whole id]
          exact List.Subset.refl _
  | now =>
      obtain ⟨_, rfl⟩ := made
      exact kept.other recorded id whole rfl rfl rfl rfl rfl rfl
  | _ =>
      obtain rfl : mid = sys := made
      exact kept.other recorded id whole rfl rfl rfl rfl rfl rfl

end

/-- Without a task: one connection changes, and what it had to write it still has, or wrote. -/
theorem Kept.one {sys : System} (kept : Kept sys) (recorded : Recorded sys) {c : Nat}
    {f : Conn → Conn}
    {w : List (Nat × Entry)} (ledger : (f (sys.conns c)).ledger = (sys.conns c).ledger)
    (entries : ∀ entry ∈ (sys.conns c).entries, entry.copy ≠ none →
      entry ∈ (f (sys.conns c)).entries ∨ (c, entry) ∈ w) :
    Kept { sys.update c f with written := sys.written ++ w } := by
  refine kept.keep recorded (fun i sent => ?_) (fun i stored => .inl stored) (fun _ _ => rfl)
    (fun i below => .inl below) fun d => ?_
  · refine sent.keep (List.subset_append_left _ _) (List.Subset.refl _)
      (each c (fun entry member copy => ?_) fun d other entry member _ => .inl ?_)
    · have some : entry.copy ≠ none := by
        rw [copy]
        exact nofun
      refine (entries entry member some).imp (fun stays => ?_) (List.mem_append_right _)
      show entry ∈ ((sys.update c f).conns c).entries
      rw [System.update_self]
      exact stays
    · show entry ∈ ((sys.update c f).conns d).entries
      rw [System.update_of_ne _ _ other]
      exact member
  · show ((sys.update c f).conns d).ledger.pushed ⊆ _
    rw [sys.update_keeps c Conn.ledger ledger]
    exact List.Subset.refl _

theorem Kept.drift {sys sys' : System} (kept : Kept sys) (recorded : Recorded sys)
    (drifts : Drift keptRules sys sys') : Kept sys' := by
  cases drifts with
  | @accept c fresh =>
      have updated := kept.one recorded (c := c) (w := [])
        (f := fun conn => { conn with life := .open, alive := true }) rfl fun _ member _ =>
          .inl member
      rw [List.append_nil] at updated
      exact updated
  | @take c entry rest alive idle first =>
      have entries : (sys.conns c).entries = entry :: rest := by
        rw [Conn.entries, idle, first]
        rfl
      have updated := kept.one recorded (c := c) (w := [])
        (f := fun conn => { conn with chan := rest, writing := some entry }) rfl
        fun found member _ => by
          rw [entries] at member
          exact .inl member
      rw [List.append_nil] at updated
      exact updated
  | @write c entry busy =>
      refine kept.one recorded (c := c) (f := fun conn => { conn with writing := none }) rfl
        fun found member _ => ?_
      have entries : (sys.conns c).entries = entry :: (sys.conns c).chan := by
        rw [Conn.entries, busy]
        rfl
      rw [entries] at member
      rcases List.mem_cons.mp member with rfl | member
      · exact .inr (List.mem_singleton.mpr rfl)
      · exact .inl member
  | @stop c alive allowed =>
      have updated := kept.one recorded (c := c) (w := [])
        (f := fun conn => { conn with alive := false, chan := [], writing := none }) rfl
        fun entry member copy => absurd (allowed entry member) copy
      rw [List.append_nil] at updated
      exact updated
  | @prune cutoff =>
      refine kept.keep recorded (fun i sent => ?_) (fun i stored => ?_) (fun _ _ => rfl)
        (fun i below => .inl below) fun _ => List.Subset.refl _
      · exact sent.keep (List.Subset.refl _) (List.subset_append_left _ _) fun _ _ member _ =>
          .inl member
      · obtain ⟨row, member, copy⟩ := stored
        by_cases fresh : cutoff ≤ row.ts
        · exact .inl ⟨row, List.mem_filter.mpr ⟨member, decide_eq_true fresh⟩, copy⟩
        · refine .inr (.inr (.inr (List.mem_append_right _
            (List.mem_filterMap.mpr ⟨row, ?_, copy⟩))))
          exact List.mem_filter.mpr ⟨member, decide_eq_true (Int.not_le.mp fresh)⟩

theorem Kept.lives {sys : System} (kept : Kept sys) (recorded : Recorded sys) (c : Nat)
    (life : Life)
    (state : ConnState) : Kept (sys.update c fun conn =>
      { conn with life := life, state := state }) := by
  have updated := kept.one recorded (c := c) (w := [])
    (f := fun conn => { conn with life := life, state := state }) rfl fun _ member _ => .inl member
  rw [List.append_nil] at updated
  exact updated

/-! ### Whole runs -/

theorem taskView_kept (config : ServerConfig) :
    (taskView config keptRules).Sound fun sys => Traced sys ∧ Kept sys := by
  refine taskView_sound (fun c request sys answer sys' holds demanded _ made => ?_)
    (fun sys c life state holds _ _ => ?_) fun sys sys' holds drifts => ?_
  · obtain ⟨traced, kept⟩ := holds
    exact ⟨traced.act demanded made, kept.act traced.recorded demanded made⟩
  · obtain ⟨traced, kept⟩ := holds
    exact ⟨traced.lives c life state, kept.lives traced.recorded c life state⟩
  · obtain ⟨traced, kept⟩ := holds
    exact ⟨traced.drift drifts, kept.drift traced.recorded drifts⟩

/-- Where copy `i` may be: written to a socket of its recipient, in a channel of theirs that has a
writer, in the outbox for them, or pruned. -/
def System.Accounts (sys : System) (i : Nat) (copy : Copy) : Prop :=
  (∃ write ∈ sys.written, write.2.copy = some i ∧ frameOf write.2.msg = copy.frame ∧
    (sys.conns write.1).ledger.user = some copy.recipient) ∨
  (∃ c, (sys.conns c).alive = true ∧ (sys.conns c).ledger.user = some copy.recipient ∧
    ∃ entry ∈ (sys.conns c).entries, entry.copy = some i ∧ frameOf entry.msg = copy.frame) ∨
  (∃ row ∈ sys.store.outbox, sys.rowCopy row.id = some i ∧ readFrame row.frame = copy.frame ∧
    row.recipient = copy.recipient) ∨
  i ∈ sys.pruned

/-- **No copy is lost while writers finish.** In every run in which no writer stops with an accepted
copy to write, every accepted copy was written to its recipient, is about to be, waits in the
outbox, or was pruned. -/
theorem copies_kept (config : ServerConfig) {store : Store}
    (below : ∀ row ∈ store.outbox, row.id < store.nextOutboxId)
    {tasks : Nat → Option (Task ConnState)} {sys : System}
    (reached : Relation.ReflTransGen (relay config keptRules).Next (started store) (tasks, sys))
      {i : Nat}
    {copy : Copy} (accepted : sys.accepted[i]? = some copy) : sys.Accounts i copy := by
  have resting : ∀ c, (taskView config keptRules).idle c
      ((taskView config keptRules).see c (System.initial store)) := fun _ => ⟨rfl, rfl, rfl⟩
  have initially : Traced (.initial store) ∧ Kept (.initial store) :=
    ⟨.initial below, fun _ => nofun, fun _ => nofun⟩
  obtain ⟨traced, kept⟩ :=
    ((taskView_kept config).reached reached (fun _ => rfl) resting initially).1
  rcases kept.copies i (List.getElem?_eq_some_iff.mp accepted).1 with sent | stored
  · rcases sent with ⟨write, member, same⟩ | ⟨c, entry, member, same⟩ | gone
    · exact .inl ⟨write, member, same, (traced.carried.written write member i same).eq accepted⟩
    · obtain ⟨frame, theirs⟩ := (traced.carried.entries c entry member i same).eq accepted
      refine .inr (.inl ⟨c, ?_, theirs, entry, member, same, frame⟩)
      by_contra dead
      rw [traced.carried.quiet c (Bool.not_eq_true _ ▸ dead)] at member
      cases member
    · exact .inr (.inr (.inr gone))
  · obtain ⟨row, member, same⟩ := stored
    obtain ⟨frame, theirs⟩ := (traced.recorded.rows row member i same).1.eq accepted
    exact .inr (.inr (.inl ⟨row, member, same, frame, Option.some.inj theirs⟩))

end

end Relay

namespace Ideal

open Relay

instance : Lenient keptRules := ⟨fun _ _ _ _ => trivial⟩

/-- Alice and Bob are online; her connection is number 1. -/
def bobOnline : System :=
  { System.initial twoUsers with store := (twoUsers.goOnline "bob" 0).goOnline "alice" 1 }.put 0
    (.loggedIn someNonce "bob" "bob")

abbrev aliceOnline : Conn := .loggedIn someNonce "alice" "alice"

theorem bothOnline_reached (rules : Rules) [Lenient rules]
    (all : ∀ c request sys, rules.ask c request sys) :
    Relation.ReflTransGen (relay openConfig rules).Next (started twoUsers)
    (fun _ => none, bobOnline.put 1 aliceOnline) := by
  have bob : Relation.ReflTransGen (relay openConfig rules).Next (started twoUsers)
      (fun _ => none, { System.initial twoUsers with store := twoUsers.goOnline "bob" 0 }.put 0
        (.loggedIn someNonce "bob" "bob")) :=
    login_lands openConfig rules 0 rfl rfl rfl rfl (answerOf_valid "bob" 2) (fun _ => all ..)
      (fun _ => all ..) rfl
  have alice : Relation.ReflTransGen (relay openConfig rules).Next
      (fun _ => none, { System.initial twoUsers with store := twoUsers.goOnline "bob" 0 }.put 0
        (.loggedIn someNonce "bob" "bob")) (fun _ => none, bobOnline.put 1 aliceOnline) :=
    login_lands openConfig rules 1 rfl (System.put_of_ne _ _ (by decide)) rfl rfl
      (answerOf_valid "alice" 1) (fun _ => all ..) (fun _ => all ..) rfl
  exact bob.trans alice

/-- Alice has sent Bob a frame, and it is in his channel. -/
def greeted : System :=
  ((bobOnline.accept 1 "bob" (some hello)).push 0 (Entry.mk (.deliver hello) (some 0) none)).put 1
    { aliceOnline with
      chan := aliceOnline.chan ++ [Entry.mk (.ok none) none none]
      ledger := { aliceOnline.ledger with routed := some ("bob", some 0) } }

theorem greeted_reached (rules : Rules) [Lenient rules]
    (all : ∀ c request sys, rules.ask c request sys) :
    Relation.ReflTransGen (relay openConfig rules).Next (started twoUsers)
    (fun _ => none, greeted) := by
  have asks : Plays openConfig rules 1 (handle 1 openConfig aliceOnline.state
      (some (.send helloMsg)), _) _ :=
    send_fansOut bobOnline aliceOnline helloMsg rfl rfl (Nat.zero_le _) zero_isI64 rfl
  have pushes : Plays openConfig rules 1 (concluded aliceOnline.state (fanOut "alice" hello
      (writeFrame hello) ["bob"] false false), _) _ :=
    fanOut_pushes bobOnline aliceOnline 0 (by decide) (by decide) (all ..) rfl ⟨rfl, by decide⟩ rfl
      (by decide)
  have sent := handled (fun _ => none) rfl rfl rfl (some (.send helloMsg)) zero_isI64
      (asks.trans pushes)
  exact (bothOnline_reached rules all).trans sent

/-- Bob's writer stops before it comes to the frame. -/
theorem copy_lost :
    ¬ ∀ (config : ServerConfig) (store : Store), (∀ row ∈ store.outbox,
    row.id < store.nextOutboxId) →
      ∀ (tasks : Nat → Option (Relay.Task ConnState)) (sys : System),
      Relation.ReflTransGen (relay config Rules.none).Next (started store) (tasks, sys) →
      ∀ i copy, sys.accepted[i]? = some copy → sys.Accounts i copy := by
  intro law
  have stops : Drift Rules.none greeted _ := .stop (c := 0) rfl trivial
  have lost := law openConfig twoUsers nofun _ _ ((greeted_reached Rules.none fun _ _ _ =>
      trivial).tail (.drift stops)) 0
    ⟨1, "bob", some hello⟩ rfl
  rcases lost with ⟨write, wrote, _⟩ | ⟨c, _, _, entry, member, copy, _⟩ | ⟨row, stored, _⟩ | gone
  · cases wrote
  · by_cases bob : c = 0
    · subst bob
      cases member
    by_cases alice : c = 1
    · subst alice
      have replies : ∀ entry ∈ (greeted.conns 1).entries, entry.copy = none := by decide
      cases copy.symm.trans (replies entry member)
    · have fresh : (greeted.update 0 fun conn => { conn with
          alive := false, chan := [], writing := none }).conns c = .fresh := by
        rw [System.update_of_ne _ _ bob, greeted, System.put_of_ne _ _ alice, System.push,
          System.update_of_ne _ _ bob]
        exact System.put_of_ne _ _ bob
      rw [fresh] at member
      cases member
  · cases stored
  · cases gone

/-- The frame is in Bob's channel, as an instance. -/
theorem greeting_kept : greeted.Accounts 0 ⟨1, "bob", some hello⟩ :=
  copies_kept openConfig (fun _ member => absurd member List.not_mem_nil)
  (greeted_reached keptRules fun _ _ _ => trivial) rfl

end Ideal

end Cherm
