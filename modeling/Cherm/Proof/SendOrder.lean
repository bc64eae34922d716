/-
**The order in which copies are written.**

Two frames of one sender for one recipient can travel by two routes: into the recipient's channel at
once, or through the outbox and a later flush. They are written in the order in which they were
accepted as long as the first route is not taken while a frame waits on the second.

* `aloneRules`: a user logs in only once all earlier connections of theirs are gone.
* `orderRules`: moreover, a frame goes straight to a channel only if no row of the same sender for
  the same recipient waits.
* `Ordered`: what is written, then what is in the channel, then what waits, is in order.
* `sends_in_order`: copies of one sender for one recipient are written in the order of the sends.
-/

import Cherm.Relay.Progress

namespace Cherm

namespace Relay

open Crates

/-- The task has ended, and the writer has stopped. -/
def Conn.Gone (conn : Conn) : Prop := conn.life = .closed ∧ conn.alive = false

/-- The row is to be pushed to a user: it is in the hands of a flush, or in the outbox and not
pushed. -/
def System.Ahead (sys : System) (user : String) (r : Nat) : Prop :=
  (∃ c, (sys.conns c).ledger.user = some user ∧ r ∈ (sys.conns c).ledger.hands.map Prod.fst) ∨
    r ∈ sys.store.ids ∧ ∀ c, (sys.conns c).ledger.user = some user → r ∉ (sys.conns c).ledger.pushed

/-- Copy `j`, from a sender for a recipient, waits as row `r`. -/
def System.Waits (sys : System) (sender : Nat) (recipient : String) (r j : Nat) : Prop :=
  sys.rowCopy r = some j ∧ sys.Ahead recipient r ∧
    ∃ copy, sys.accepted[j]? = some copy ∧ copy.sender = sender ∧ copy.recipient = recipient

/-- Users have one connection at a time. -/
def aloneRules : Rules where
  ask c request sys := match request with
    | .call (.goOnline username _) => ∀ other, other ≠ c →
        (sys.conns other).ledger.user = some username → (sys.conns other).Gone
    | _ => True
  stop _ _ := True

/-- And nothing overtakes a row. -/
def orderRules : Rules where
  ask c request sys := aloneRules.ask c request sys ∧ match request with
    | .push conn _ => sys.Room conn → ∀ r j, ¬ sys.Waits c (sys.routedTo c) r j
    | _ => True
  stop _ _ := True

/-- The copies that were written, and those that the connection has to write, in this order. -/
def System.line (sys : System) (c : Nat) : List Nat :=
  (sys.written.map Prod.snd ++ (sys.conns c).entries).filterMap Entry.copy

/-- Copies of one sender for one recipient come in order. -/
def InTurn (accepted : List Copy) (i j : Nat) : Prop := ∀ copy copy', accepted[i]? = some copy →
  accepted[j]? = some copy' → copy.sender = copy'.sender → copy.recipient = copy'.recipient → i < j

/-- Users have one connection at a time, and one that is closed has no flush. -/
structure Alone (sys : System) : Prop where
  closed : ∀ c, (sys.conns c).life = .closed →
    (sys.conns c).ledger.hands = [] ∧ (sys.conns c).ledger.pushed = []
  single : ∀ c d user, c ≠ d → (sys.conns c).ledger.user = some user →
    (sys.conns d).ledger.user = some user → (sys.conns c).Gone ∨ (sys.conns d).Gone

/-- What is written or in a channel comes before what waits, and what a flush has in hand before
what came later. -/
structure Ordered (sys : System) : Prop where
  sorted : sys.store.ids.Pairwise (· < ·)
  hands : ∀ c, ((sys.conns c).ledger.hands.map Prod.fst).Pairwise (· < ·)
  line : ∀ c, (sys.line c).Pairwise (InTurn sys.accepted)
  ahead : ∀ c, ∀ i ∈ sys.line c, ∀ copy, sys.accepted[i]? = some copy →
    ∀ r j, sys.Waits copy.sender copy.recipient r j → i < j
  newer : ∀ c user, (sys.conns c).ledger.user = some user → ∀ row ∈ (sys.conns c).ledger.hands,
    ∀ sender r j, sys.Waits sender user r j → r ∉ (sys.conns c).ledger.hands.map Prod.fst →
      row.1 < r

/-- The other connections of a user who is on a connection that is not gone. -/
theorem Alone.others {sys : System} {c : Nat} (alone : Alone sys) {user : String}
    (user_c : (sys.conns c).ledger.user = some user) (present : ¬ (sys.conns c).Gone) {d : Nat}
    (other : d ≠ c) (user_d : (sys.conns d).ledger.user = some user) :
    (sys.conns d).alive = false ∧ (sys.conns d).ledger.hands = [] ∧
      (sys.conns d).ledger.pushed = [] := by
  rcases alone.single c d user other.symm user_c user_d with gone | gone
  · exact absurd gone present
  · exact ⟨gone.2, alone.closed d gone.1⟩

theorem InTurn.grow {accepted m : List Copy} {i j : Nat} (inTurn : InTurn accepted i j)
    (first : i < accepted.length) (second : j < accepted.length) : InTurn (accepted ++ m) i j := by
  intro copy copy' found found'
  rw [List.getElem?_append_left first] at found
  rw [List.getElem?_append_left second] at found'
  exact inTurn copy copy' found found'

/-- Copies leave the line, and rows are pushed or deleted; nothing comes in. -/
theorem Ordered.keep {sys sys' : System} (ordered : Ordered sys)
    (ids : sys'.store.ids.Sublist sys.store.ids) (accepted : sys'.accepted = sys.accepted)
    (line : ∀ c, (sys'.line c).Sublist (sys.line c))
    (hands : ∀ c, (sys'.conns c).ledger.hands = [] ∨
      (sys'.conns c).ledger.hands = (sys.conns c).ledger.hands)
    (users : ∀ c user, (sys'.conns c).ledger.user = some user →
      (sys.conns c).ledger.user = some user ∨ (sys'.conns c).ledger.hands = [])
    (waits : ∀ sender user r j, sys'.Waits sender user r j → sys.Waits sender user r j) :
    Ordered sys' where
  sorted := ordered.sorted.sublist ids
  hands c := by
    rcases hands c with empty | same
    · rw [empty]
      exact List.Pairwise.nil
    · rw [same]
      exact ordered.hands c
  line c := by
    rw [accepted]
    exact (ordered.line c).sublist (line c)
  ahead c i member copy found r j waiting := by
    rw [accepted] at found
    exact ordered.ahead c i ((line c).subset member) copy found r j (waits _ _ r j waiting)
  newer c user theirs row member sender r j waiting absent := by
    rcases hands c with empty | same
    · rw [empty] at member
      cases member
    · rcases users c user theirs with known | empty
      · rw [same] at member absent
        exact ordered.newer c user known row member sender r j (waits _ _ r j waiting) absent
      · rw [empty] at member
        cases member

/-- What is ahead was ahead, if flushes only let go of rows. -/
theorem System.Ahead.keep {sys sys' : System} {user : String} {r : Nat} (ahead : sys'.Ahead user r)
    (ids : r ∈ sys'.store.ids → r ∈ sys.store.ids)
    (hands : ∀ c, (sys'.conns c).ledger.user = some user →
      r ∈ (sys'.conns c).ledger.hands.map Prod.fst → (sys.conns c).ledger.user = some user ∧
        r ∈ (sys.conns c).ledger.hands.map Prod.fst)
    (pushed : ∀ c, (sys.conns c).ledger.user = some user → r ∈ (sys.conns c).ledger.pushed →
      r ∈ sys'.store.ids →
      (sys'.conns c).ledger.user = some user ∧ r ∈ (sys'.conns c).ledger.pushed) :
    sys.Ahead user r := by
  rcases ahead with ⟨c, theirs, held⟩ | ⟨stored, free⟩
  · exact .inl ⟨c, hands c theirs held⟩
  · refine .inr ⟨ids stored, fun c theirs held => ?_⟩
    obtain ⟨theirs', held'⟩ := pushed c theirs held stored
    exact free c theirs' held'

theorem pendingFrames_sorted {store : Store} (sorted : store.ids.Pairwise (· < ·))
    (username : String) :
    ((store.pendingFrames username).map Prod.fst).Pairwise (· < ·) := by
  refine sorted.sublist ?_
  rw [Store.pendingFrames, List.map_map]
  exact List.filter_sublist.map _

/-- What one connection has to write gets less, and no row is added. -/
theorem Ordered.less {sys sys' : System} (ordered : Ordered sys)
    (ledgers : ∀ d, (sys'.conns d).ledger = (sys.conns d).ledger)
    (ids : sys'.store.ids.Sublist sys.store.ids) (accepted : sys'.accepted = sys.accepted)
    (rowCopy : sys'.rowCopy = sys.rowCopy)
    (line : ∀ c, (sys'.line c).Sublist (sys.line c)) : Ordered sys' := by
  refine ordered.keep ids accepted line (fun d => .inr ?_) (fun d user theirs => .inl ?_)
    fun sender user r j waiting => ?_
  · rw [ledgers]
  · rw [← ledgers]
    exact theirs
  · obtain ⟨copied, ahead, found⟩ := waiting
    refine ⟨rowCopy ▸ copied, ahead.keep (fun stored => ids.subset stored) (fun d theirs held => ?_)
      (fun d theirs held _ => ?_), accepted ▸ found⟩
    · rw [ledgers] at theirs held
      exact ⟨theirs, held⟩
    · rw [ledgers]
      exact ⟨theirs, held⟩

section

variable [Crates]

/-! ### One connection at a time -/

section

variable {c : Nat} {request : Ask} {sys sys' : System} {answer : request.Answer}

theorem after_user_eq {l : Ledger} (other : ∀ username conn,
    request ≠ .call (.goOnline username conn)) :
    (l.after request answer).user = l.user := by
  cases request with
  | call op =>
      cases op with
      | goOnline username conn => exact absurd rfl (other username conn)
      | _ => rfl
  | sendWait msg =>
      cases answer with
      | false => rfl
      | true =>
          rw [Ledger.after]
          cases nextFrame l.hands <;> rfl
  | _ => rfl

/-- A user is new on a connection only when they log in over it. -/
theorem onSystem_newUser (demanded : (sys.conns c).ledger.Demands c request)
    (made : request.onSystem c sys answer sys') {d : Nat} {user : String}
    (known : (sys'.conns d).ledger.user = some user) : (sys.conns d).ledger.user = some user ∨
      d = c ∧ request = .call (.goOnline user c) ∧ (sys.conns c).ledger.hands = [] := by
  by_cases mine : d = c
  · subst mine
    rw [Ask.onSystem_own made] at known
    by_cases login : ∃ username conn, request = .call (.goOnline username conn)
    · obtain ⟨username, conn, rfl⟩ := login
      obtain ⟨rfl, _, empty, _⟩ := demanded
      have same : some username = some user := known
      cases same
      exact .inr ⟨rfl, rfl, empty⟩
    · rw [after_user_eq fun username conn same => login ⟨username, conn, same⟩] at known
      exact .inl known
  · rw [Ask.onSystem_other made _ mine] at known
    exact .inl known

theorem onSystem_gone (made : request.onSystem c sys answer sys') {d : Nat} :
    (sys'.conns d).Gone ↔ (sys.conns d).Gone := by
  unfold Conn.Gone
  rw [Ask.onSystem_life made, Ask.onSystem_alive made]

theorem Alone.act (alone : Alone sys) (demanded : (sys.conns c).ledger.Demands c request)
    (living : (sys.conns c).life ≠ .closed) (allowed : aloneRules.ask c request sys)
    (made : request.onSystem c sys answer sys') : Alone sys' where
  closed := by
    intro d closed
    rw [Ask.onSystem_life made] at closed
    have other : d ≠ c := fun same => living (same ▸ closed)
    rw [Ask.onSystem_other made _ other]
    exact alone.closed d closed
  single := by
    intro d e user different theirs theirs'
    rw [onSystem_gone made, onSystem_gone made]
    rcases onSystem_newUser demanded made theirs with known | ⟨rfl, rfl, _⟩
    · rcases onSystem_newUser demanded made theirs' with known' | ⟨rfl, rfl, _⟩
      · exact alone.single d e user different known known'
      · exact .inl (allowed d different known)
    · rcases onSystem_newUser demanded made theirs' with known' | ⟨rfl, _⟩
      · exact .inr (allowed e different.symm known')
      · exact absurd rfl different

end

/-! ### What changes nothing in the order -/

/-- What is written or about to be written was accepted. -/
theorem line_lt {sys : System} (carried : Carried sys) {c i : Nat} (member : i ∈ sys.line c) :
    i < sys.accepted.length := by
  obtain ⟨entry, found, copy⟩ := List.mem_filterMap.mp member
  rcases List.mem_append.mp found with wrote | waiting
  · obtain ⟨write, member, rfl⟩ := List.mem_map.mp wrote
    exact (carried.written write member i copy).lt
  · exact (carried.entries c entry waiting i copy).lt

section

variable {c : Nat} {request : Ask} {sys mid : System} {answer : request.Answer}

theorem line_note (conns : mid.conns = sys.conns) (written : mid.written = sys.written) (d : Nat) :
    (mid.note c request answer).line d = sys.line d := by
  unfold System.line
  rw [note_entries, conns]
  show (List.map Prod.snd mid.written ++ _).filterMap _ = _
  rw [written]

theorem line_push {base : System} {d : Nat} {entry : Entry} (conns : base.conns = sys.conns)
    (written : base.written = sys.written) :
    ((base.push d entry).note c request answer).line d = sys.line d ++ entry.copy.toList := by
  unfold System.line
  rw [note_entries, push_entries, conns]
  show (List.map Prod.snd base.written ++ _).filterMap _ = _
  rw [written, ← List.append_assoc, List.filterMap_append]
  cases same : entry.copy <;> simp [same]

theorem line_push_of_ne {base : System} {d e : Nat} {entry : Entry} (conns : base.conns = sys.conns)
    (written : base.written = sys.written) (different : e ≠ d) :
    ((base.push d entry).note c request answer).line e = sys.line e := by
  unfold System.line
  rw [note_entries, push_entries_of_ne _ _ different, conns]
  show (List.map Prod.snd base.written ++ _).filterMap _ = _
  rw [written]

/-- A request that is none of a flush, stores no row and pushes no copy. -/
theorem Ordered.other (ordered : Ordered sys) (demanded : (sys.conns c).ledger.Demands c request)
    (other : ¬ request.Flushes) (made : request.onSystem c sys answer (mid.note c request answer))
    (line : ∀ d, (mid.note c request answer).line d = sys.line d)
    (outbox : mid.store.outbox = sys.store.outbox) (rowCopy : mid.rowCopy = sys.rowCopy)
    (accepted : mid.accepted = sys.accepted) : Ordered (mid.note c request answer) := by
  have ids : (mid.note c request answer).store.ids = sys.store.ids := by
    rw [Store.ids, Store.ids]
    exact congrArg _ outbox
  refine ordered.keep (ids ▸ List.Sublist.refl _) accepted (fun d => (line d) ▸ List.Sublist.refl _)
    (fun d => .inr (onSystem_hands made other d)) (fun d user theirs => ?_)
    fun sender user r j waiting => ?_
  · refine (onSystem_newUser demanded made theirs).imp_right fun login => ?_
    rw [onSystem_hands made other, login.1]
    exact login.2.2
  · obtain ⟨copied, ahead, found⟩ := waiting
    refine ⟨(congrFun rowCopy r).symm.trans copied, ahead.keep (fun stored => ids ▸ stored)
      (fun d theirs held => ?_) (fun d theirs held _ => ?_), accepted ▸ found⟩
    · rw [onSystem_hands made other] at held
      refine ⟨?_, held⟩
      rcases onSystem_newUser demanded made theirs with known | ⟨rfl, _, empty⟩
      · exact known
      · rw [empty] at held
        cases held
    · rw [onSystem_pushed made other]
      exact ⟨onSystem_user demanded made theirs, held⟩

/-! ### The steps of a flush -/

/-- A recorded row of the outbox is among those its recipient reads. -/
theorem mem_pendingFrames (recorded : Recorded sys) {r j : Nat} {copy : Copy}
    (stored : r ∈ sys.store.ids) (copied : sys.rowCopy r = some j)
    (found : sys.accepted[j]? = some copy) :
    r ∈ (sys.store.pendingFrames copy.recipient).map Prod.fst := by
  obtain ⟨row, member, rfl⟩ := List.mem_map.mp stored
  obtain ⟨copy', found', theirs, _⟩ := (recorded.rows row member j copied).1
  rw [found] at found'
  cases found'
  refine List.mem_map.mpr ⟨(row.id, row.frame), List.mem_map.mpr ⟨row, ?_, rfl⟩, rfl⟩
  exact List.mem_filter.mpr ⟨member, decide_eq_true (Option.some.inj theirs)⟩

/-- A flush reads its rows. -/
theorem Ordered.read (ordered : Ordered sys) (recorded : Recorded sys) (alone : Alone sys)
    {username : String} {answer : (Ask.call (.pendingFrames username)).Answer}
    (demanded : (sys.conns c).ledger.Demands c (.call (.pendingFrames username)))
    (living : (sys.conns c).life ≠ .closed)
    (made : Ask.onSystem c (.call (.pendingFrames username)) sys answer
      (sys.note c (.call (.pendingFrames username)) answer))
    (rows : answer = sys.store.pendingFrames username) :
    Ordered (sys.note c (.call (.pendingFrames username)) answer) := by
  obtain ⟨user_c, empty, unpushed⟩ := demanded
  have own := Ask.onSystem_own made
  have others := Ask.onSystem_other made
  have theirs : ∀ d, ((sys.note c (.call (.pendingFrames username)) answer).conns d).ledger.user =
      (sys.conns d).ledger.user := by
    refine each c ?_ fun d other => ?_
    · rw [own]
      rfl
    · rw [others d other]
  have present : ¬ (sys.conns c).Gone := fun gone => living gone.1
  have waits : ∀ sender user r j, (sys.note c (.call (.pendingFrames username)) answer).Waits
      sender user r j → sys.Waits sender user r j := by
    rintro sender user r j ⟨copied, ahead, copy, found, same, rfl⟩
    refine ⟨copied, ?_, copy, found, same, rfl⟩
    have unheld : ∀ d, (sys.conns d).ledger.user = some copy.recipient → copy.recipient = username →
        r ∉ (sys.conns d).ledger.pushed := by
      rintro d user_d rfl
      by_cases mine : d = c
      · rw [mine, unpushed]
        exact List.not_mem_nil
      · rw [(alone.others user_c present mine user_d).2.2]
        exact List.not_mem_nil
    rcases ahead with ⟨d, user_d, held⟩ | ⟨stored, free⟩
    · rw [theirs] at user_d
      by_cases mine : d = c
      · subst mine
        rw [own, rows] at held
        have held : r ∈ (sys.store.pendingFrames username).map Prod.fst := held
        obtain ⟨row, member, rfl⟩ := List.mem_map.mp held
        refine .inr ⟨pendingFrames_ids member, fun e user_e => unheld e user_e ?_⟩
        exact Option.some.inj (user_d.symm.trans user_c)
      · rw [others d mine] at held
        exact .inl ⟨d, user_d, held⟩
    · refine .inr ⟨stored, fun d user_d held => ?_⟩
      by_cases mine : d = c
      · rw [mine, unpushed] at held
        cases held
      · refine free d ((theirs d).trans user_d) ?_
        rw [others d mine]
        exact held
  refine ⟨ordered.sorted, each c ?_ fun d other => ?_, fun d => ?_, fun d i member copy found r j
    waiting => ?_, fun d user user_d row member sender r j waiting absent => ?_⟩
  · rw [own, rows]
    exact pendingFrames_sorted ordered.sorted username
  · rw [others d other]
    exact ordered.hands d
  · rw [line_note rfl rfl]
    exact ordered.line d
  · rw [line_note rfl rfl] at member
    exact ordered.ahead d i member copy found r j (waits _ _ r j waiting)
  · rw [theirs] at user_d
    by_cases mine : d = c
    · subst mine
      rw [own, rows] at absent
      obtain ⟨copied, ahead, copy, found, same, rfl⟩ := waits _ _ r j waiting
      cases user_c.symm.trans user_d
      refine absurd (mem_pendingFrames recorded ?_ copied found) absent
      rcases ahead with ⟨e, user_e, held⟩ | ⟨stored, _⟩
      · by_cases mine : e = d
        · rw [mine, empty] at held
          cases held
        · rw [(alone.others user_c present mine user_e).2.1] at held
          cases held
      · exact stored
    · rw [others d mine] at member absent
      exact ordered.newer d user user_d row member sender r j (waits _ _ r j waiting) absent

/-- A flush deletes what it has dealt with, and lets go of it. -/
theorem Ordered.deleted (ordered : Ordered sys) {ids : List Nat}
    {answer : (Ask.call (.deleteFrames ids)).Answer}
    (demanded : (sys.conns c).ledger.Demands c (.call (.deleteFrames ids)))
    (made : Ask.onSystem c (.call (.deleteFrames ids)) sys answer
      ({ sys with store := sys.store.deleteFrames ids }.note c (.call (.deleteFrames ids))
        answer)) :
    Ordered ({ sys with store := sys.store.deleteFrames ids }.note c (.call (.deleteFrames ids))
      answer) := by
  have own := Ask.onSystem_own made
  have others := Ask.onSystem_other made
  have line : ∀ d, ({ sys with store := sys.store.deleteFrames ids }.note c
      (.call (.deleteFrames ids))
      answer).line d = sys.line d := line_note rfl rfl
  refine ordered.keep (List.filter_sublist.map _) rfl (fun d => by rw [line])
    (each c ?_ fun d other => ?_) (fun d user theirs => ?_) fun sender user r j waiting => ?_
  · rw [own]
    exact .inl rfl
  · rw [others d other]
    exact .inr rfl
  · rcases onSystem_newUser demanded made theirs with known | ⟨_, same, _⟩
    · exact .inl known
    · cases same
  · obtain ⟨copied, ahead, found⟩ := waiting
    refine ⟨copied, ahead.keep (fun stored => (List.filter_sublist.map _).subset stored)
      (fun d theirs held => ?_) (fun d theirs held stored => ?_), found⟩
    · by_cases mine : d = c
      · subst mine
        rw [own] at held
        cases held
      · rw [others d mine] at theirs held
        exact ⟨theirs, held⟩
    · by_cases mine : d = c
      · subst mine
        obtain ⟨row, kept, rfl⟩ := List.mem_map.mp stored
        have kept := (List.mem_filter.mp kept).2
        simp only [List.contains_iff_mem.mpr (demanded.2.1 _ held), Bool.not_true,
          Bool.false_eq_true] at kept
      · rw [others d mine]
        exact ⟨theirs, held⟩

/-- A flush gives up. -/
theorem Ordered.gaveUp (ordered : Ordered sys) {msg : ServerMsg}
    (demanded : (sys.conns c).ledger.Demands c (.sendWait msg))
    (made : Ask.onSystem c (.sendWait msg) sys false (sys.note c (.sendWait msg) false)) :
    Ordered (sys.note c (.sendWait msg) false) := by
  have own := Ask.onSystem_own made
  have others := Ask.onSystem_other made
  have line : ∀ d, (sys.note c (.sendWait msg) false).line d = sys.line d := line_note rfl rfl
  refine ordered.keep (List.Sublist.refl _) rfl (fun d => by rw [line])
    (each c ?_ fun d other => ?_) (fun d user theirs => ?_) fun sender user r j waiting => ?_
  · rw [own]
    exact .inl rfl
  · rw [others d other]
    exact .inr rfl
  · rcases onSystem_newUser demanded made theirs with known | ⟨_, same, _⟩
    · exact .inl known
    · cases same
  · obtain ⟨copied, ahead, found⟩ := waiting
    refine ⟨copied, ahead.keep id (fun d theirs held => ?_) (fun d theirs held _ => ?_), found⟩
    · by_cases mine : d = c
      · subst mine
        rw [own] at held
        cases held
      · rw [others d mine] at theirs held
        exact ⟨theirs, held⟩
    · refine ⟨onSystem_user demanded made theirs, ?_⟩
      by_cases mine : d = c
      · subst mine
        rw [own]
        exact held
      · rw [others d mine]
        exact held

/-- A flush pushes the row it has come to. -/
theorem Ordered.pushed (ordered : Ordered sys) (traced : Traced sys) (alone : Alone sys)
    {frame : Deliver} {id : Nat} {rest : List (Nat × Bytes)} {entry : Entry} {rows : List Nat}
    (demanded : (sys.conns c).ledger.Demands c (.sendWait (.deliver frame)))
    (next : nextFrame (sys.conns c).ledger.hands = some (id, frame, rest))
    (copy_eq : entry.copy = sys.rowCopy id)
    (living : (sys.conns c).life ≠ .closed) {base : System}
      (base_eq : base = { sys with pushedRows := rows })
    (made : Ask.onSystem c (.sendWait (.deliver frame)) sys true
      ((base.push c entry).note c (.sendWait (.deliver frame)) true)) :
    Ordered ((base.push c entry).note c (.sendWait (.deliver frame)) true) := by
  subst base_eq
  have own := Ask.onSystem_own made
  have others := Ask.onSystem_other made
  rw [Ledger.after, next] at own
  obtain ⟨before, bytes, split, parses, junk⟩ := nextFrame_split next
  have present : ¬ (sys.conns c).Gone := fun gone => living gone.1
  have inHands : (id, bytes) ∈ (sys.conns c).ledger.hands := by
    rw [split]
    exact List.mem_append_right _ List.mem_cons_self
  have known : ∀ d user, (((({ sys with pushedRows := rows } : System).push c entry).note c
      (.sendWait (.deliver frame)) true).conns d).ledger.user = some user →
      (sys.conns d).ledger.user = some user := by
    intro d user theirs
    rcases onSystem_newUser demanded made theirs with known | ⟨_, same, _⟩
    · exact known
    · cases same
  have handsSorted := ordered.hands c
  rw [split, List.map_append, List.map_cons] at handsSorted
  have afterId := (List.pairwise_cons.mp (List.pairwise_append.mp handsSorted).2.1)
  have restIn : ∀ r ∈ rest.map Prod.fst, r ∈ (sys.conns c).ledger.hands.map Prod.fst := by
    intro r member
    rw [split, List.map_append, List.map_cons]
    exact List.mem_append_right _ (List.mem_cons_of_mem _ member)
  -- A row in hand that is recorded as a copy is the one that is pushed, or still ahead.
  have inHand : ∀ r j, r ∈ (sys.conns c).ledger.hands.map Prod.fst → sys.rowCopy r = some j →
      r = id ∨ r ∈ rest.map Prod.fst := by
    intro r j held copied
    obtain ⟨row, member, rfl⟩ := List.mem_map.mp held
    rw [split] at member
    rcases List.mem_append.mp member with member | member
    · have inHands : row ∈ (sys.conns c).ledger.hands := by
        rw [split]
        exact List.mem_append_left _ member
      exact absurd (junk row member)
        ((traced.recorded.read c row (traced.recorded.hands c inHands)).2 j copied).2
    · rcases List.mem_cons.mp member with rfl | member
      · exact .inl rfl
      · exact .inr (List.mem_map.mpr ⟨row, member, rfl⟩)
  have waits : ∀ sender user r j, ((({ sys with pushedRows := rows } : System).push c entry).note c
      (.sendWait (.deliver frame)) true).Waits sender user r j → sys.Waits sender user r j := by
    rintro sender user r j ⟨copied, ahead, found⟩
    refine ⟨copied, ahead.keep (fun stored => stored) (fun d theirs held =>
      ⟨known d user theirs, ?_⟩)
      (fun d theirs held _ => ⟨onSystem_user demanded made theirs, ?_⟩), found⟩
    · by_cases mine : d = c
      · subst mine
        rw [own] at held
        exact restIn r held
      · rw [others d mine] at held
        exact held
    · by_cases mine : d = c
      · subst mine
        rw [own]
        exact List.mem_append_left _ held
      · rw [others d mine]
        exact held
  -- Who waits now waits behind the row that is pushed.
  have behind : ∀ sender user r j, (sys.conns c).ledger.user = some user →
      ((({ sys with pushedRows := rows } : System).push c entry).note c
        (.sendWait (.deliver frame)) true).Waits sender user r j → id < r := by
    intro sender user r j user_c waiting
    have old := waits sender user r j waiting
    obtain ⟨copied, ahead, _⟩ := waiting
    by_cases held : r ∈ (sys.conns c).ledger.hands.map Prod.fst
    · rcases inHand r j held copied with rfl | still
      · rcases ahead with ⟨d, user_d, held⟩ | ⟨_, free⟩
        · by_cases mine : d = c
          · subst mine
            rw [own] at held
            exact absurd (afterId.1 r held) (Nat.lt_irrefl _)
          · rw [others d mine, (alone.others user_c present mine (known d user user_d)).2.1] at held
            cases held
        · refine absurd ?_ (free c (onSystem_user demanded made user_c))
          rw [own]
          exact List.mem_append_right _ (List.mem_singleton.mpr rfl)
      · exact afterId.1 r still
    · exact ordered.newer c user user_c (id, bytes) inHands sender r j old held
  have fits := (traced.recorded.read c _ (traced.recorded.hands c inHands)).2
  have user_of : ∀ i copy, sys.rowCopy id = some i → sys.accepted[i]? = some copy →
      (sys.conns c).ledger.user = some copy.recipient := by
    intro i copy copied found
    obtain ⟨copy', found', theirs, _⟩ := (fits i copied).1
    rw [found] at found'
    cases found'
    exact theirs
  have idAhead : ∀ i copy, sys.rowCopy id = some i → sys.accepted[i]? = some copy →
      sys.Waits copy.sender copy.recipient id i := by
    intro i copy copied found
    exact ⟨copied, .inl ⟨c, user_of i copy copied found, List.mem_map.mpr ⟨_, inHands, rfl⟩⟩,
      copy, found,
      rfl, rfl⟩
  refine ⟨ordered.sorted, each c ?_ fun d other => ?_, each c ?_ fun d other => ?_,
    each c (fun i member copy found r j waiting => ?_) fun d other i member copy found r j
    waiting => ?_,
    each c (fun user theirs row member sender r j waiting absent => ?_)
      fun d other user theirs row member sender r j waiting absent => ?_⟩
  · rw [own]
    exact afterId.2
  · rw [others d other]
    exact ordered.hands d
  · rw [line_push rfl rfl]
    refine List.pairwise_append.mpr ⟨ordered.line c, ?_,
      fun i first j second copy copy' found found'
      sameSender sameRecipient => ?_⟩
    · cases entry.copy with
      | none => exact List.Pairwise.nil
      | some i => exact List.pairwise_singleton ..
    · rw [copy_eq] at second
      have waiting := idAhead j copy' (Option.mem_toList.mp second) found'
      rw [← sameSender, ← sameRecipient] at waiting
      exact ordered.ahead c i first copy found id j waiting
  · rw [line_push_of_ne rfl rfl other]
    exact ordered.line d
  · rw [line_push rfl rfl] at member
    rcases List.mem_append.mp member with member | member
    · exact ordered.ahead c i member copy found r j (waits _ _ r j waiting)
    · rw [copy_eq] at member
      have copied := Option.mem_toList.mp member
      exact traced.recorded.mono id r i j copied waiting.1
        (behind _ _ r j (user_of i copy copied found) waiting)
  · rw [line_push_of_ne rfl rfl other] at member
    exact ordered.ahead d i member copy found r j (waits _ _ r j waiting)
  · rw [own] at member absent
    have theirs := known c user theirs
    have less := behind sender user r j theirs waiting
    by_cases held : r ∈ (sys.conns c).ledger.hands.map Prod.fst
    · rcases inHand r j held waiting.1 with rfl | still
      · exact absurd less (Nat.lt_irrefl _)
      · exact absurd still absent
    · refine ordered.newer c user theirs row ?_ sender r j (waits _ _ r j waiting) held
      rw [split]
      exact List.mem_append_right _ (List.mem_cons_of_mem _ member)
  · rw [others d other] at member absent
    exact ordered.newer d user (known d user theirs) row member sender r j
      (waits _ _ r j waiting) absent

/-! ### The steps of a send -/

/-- A frame is stored. -/
theorem Ordered.stored (ordered : Ordered sys) (traced : Traced sys) {recipient : String}
    {bytes : Bytes} {ts : Int} (ledgers : ∀ d, (mid.conns d).ledger = (sys.conns d).ledger)
    (line : ∀ d, mid.line d = sys.line d) (store : mid.store = sys.store.append recipient bytes ts)
    (accepted : mid.accepted = sys.accepted ++ [⟨c, recipient, readFrame bytes⟩])
    (rowCopy : mid.rowCopy =
      Function.update sys.rowCopy sys.store.nextOutboxId (some sys.accepted.length)) :
    Ordered mid := by
  have ids : mid.store.ids = sys.store.ids ++ [sys.store.nextOutboxId] := by
    rw [store]
    exact append_ids ..
  have below : ∀ r ∈ sys.store.ids, r < sys.store.nextOutboxId := by
    intro r member
    obtain ⟨row, stored, rfl⟩ := List.mem_map.mp member
    exact traced.recorded.below row stored
  -- What waits is the new row, or waited before.
  have waits : ∀ sender user r j, mid.Waits sender user r j →
      r = sys.store.nextOutboxId ∧ j = sys.accepted.length ∨ sys.Waits sender user r j := by
    rintro sender user r j ⟨copied, ahead, copy, found, same⟩
    by_cases new : r = sys.store.nextOutboxId
    · subst new
      rw [rowCopy, Function.update_self] at copied
      exact .inl ⟨rfl, (Option.some.inj copied).symm⟩
    · rw [rowCopy, Function.update_of_ne new] at copied
      rw [accepted, List.getElem?_append_left (traced.recorded.copied r j copied).2] at found
      refine .inr ⟨copied, ahead.keep (fun stored => ?_) (fun d theirs held => ?_)
        (fun d theirs held _ => ?_), copy, found, same⟩
      · rw [ids] at stored
        rcases List.mem_append.mp stored with stored | stored
        · exact stored
        · exact absurd (List.mem_singleton.mp stored) new
      · rw [ledgers] at theirs held
        exact ⟨theirs, held⟩
      · rw [ledgers]
        exact ⟨theirs, held⟩
  refine ⟨?_, fun d => ?_, fun d => ?_, fun d i member copy found r j waiting => ?_,
    fun d user theirs row member sender r j waiting absent => ?_⟩
  · rw [ids]
    refine List.pairwise_append.mpr ⟨ordered.sorted, List.pairwise_singleton ..,
      fun r member r' new => ?_⟩
    rw [List.mem_singleton.mp new]
    exact below r member
  · rw [ledgers]
    exact ordered.hands d
  · rw [line, accepted]
    refine (ordered.line d).imp_of_mem fun first second inTurn => ?_
    exact inTurn.grow (line_lt traced.carried first) (line_lt traced.carried second)
  · rw [line] at member
    have known := line_lt traced.carried member
    rcases waits _ _ r j waiting with ⟨_, rfl⟩ | old
    · exact known
    · rw [accepted, List.getElem?_append_left known] at found
      exact ordered.ahead d i member copy found r j old
  · rw [ledgers] at theirs member absent
    rcases waits _ _ r j waiting with ⟨rfl, _⟩ | old
    · exact traced.recorded.handsBelow member
    · exact ordered.newer d user theirs row member sender r j old absent

/-- A frame goes straight to a channel. -/
theorem Ordered.copied (ordered : Ordered sys) (traced : Traced sys) {conn : Nat} {msg : ServerMsg}
    {recipient : String} {base : System}
    (demanded : (sys.conns c).ledger.Demands c (.push conn msg))
    (free : ∀ r j, ¬ sys.Waits c recipient r j)
    (base_eq : base = sys.accept c recipient (frameOf msg))
    (made : Ask.onSystem c (.push conn msg) sys true
      ((base.push conn ⟨msg, some sys.accepted.length, none⟩).note c (.push conn msg) true)) :
    Ordered ((base.push conn ⟨msg, some sys.accepted.length, none⟩).note c (.push conn msg)
    true) := by
  subst base_eq
  have hands := onSystem_hands made id
  have known : ∀ d user, ((((sys.accept c recipient (frameOf msg)).push conn
      ⟨msg, some sys.accepted.length, none⟩).note c (.push conn msg) true).conns d).ledger.user =
        some user → (sys.conns d).ledger.user = some user := by
    intro d user theirs
    rcases onSystem_newUser demanded made theirs with known | ⟨_, same, _⟩
    · exact known
    · cases same
  have waits : ∀ sender user r j, (((sys.accept c recipient (frameOf msg)).push conn
      ⟨msg, some sys.accepted.length, none⟩).note c (.push conn msg) true).Waits sender user r j →
        sys.Waits sender user r j := by
    rintro sender user r j ⟨copied, ahead, copy, found, same⟩
    have copied : sys.rowCopy r = some j := copied
    have found : (sys.accepted ++ [_])[j]? = some copy := found
    rw [List.getElem?_append_left (traced.recorded.copied r j copied).2] at found
    refine ⟨copied, ahead.keep (fun stored => stored) (fun d theirs held =>
      ⟨known d user theirs, ?_⟩)
      (fun d theirs held _ => ⟨onSystem_user demanded made theirs, ?_⟩), copy, found, same⟩
    · rw [hands] at held
      exact held
    · rw [onSystem_pushed made id]
      exact held
  have grown : ∀ d, (sys.line d).Pairwise (InTurn (sys.accepted ++
      [⟨c, recipient, frameOf msg⟩])) :=
    fun d => (ordered.line d).imp_of_mem fun first second inTurn =>
      inTurn.grow (line_lt traced.carried first) (line_lt traced.carried second)
  have old : ∀ d, ∀ i ∈ sys.line d, ∀ copy, (sys.accepted ++ [⟨c, recipient, frameOf msg⟩])[i]? =
      some copy → ∀ r j, sys.Waits copy.sender copy.recipient r j → i < j := by
    intro d i member copy found r j waiting
    rw [List.getElem?_append_left (line_lt traced.carried member)] at found
    exact ordered.ahead d i member copy found r j waiting
  refine ⟨ordered.sorted, fun d => ?_, each conn ?_ fun d other => ?_,
    each conn (fun i member copy found r j waiting => ?_)
    fun d other i member copy found r j waiting => ?_,
    fun d user theirs row member sender r j waiting absent => ?_⟩
  · rw [hands]
    exact ordered.hands d
  · rw [line_push rfl rfl]
    refine List.pairwise_append.mpr ⟨grown conn, List.pairwise_singleton ..,
      fun i first j second => ?_⟩
    have same := List.mem_singleton.mp second
    intro _ _ _ _ _ _
    rw [same]
    exact line_lt traced.carried first
  · rw [line_push_of_ne rfl rfl other]
    exact grown d
  · rw [line_push rfl rfl] at member
    rcases List.mem_append.mp member with member | member
    · exact old conn i member copy found r j (waits _ _ r j waiting)
    · rw [List.mem_singleton.mp member] at found
      have same := List.getElem?_concat_length.symm.trans found
      cases same
      exact absurd (waits _ _ r j waiting) (free r j)
  · rw [line_push_of_ne rfl rfl other] at member
    exact old d i member copy found r j (waits _ _ r j waiting)
  · rw [hands] at member absent
    exact ordered.newer d user (known d user theirs) row member sender r j
      (waits _ _ r j waiting) absent

/-- **One request.** -/
theorem Ordered.act {sys' : System} (ordered : Ordered sys) (traced : Traced sys)
    (alone : Alone sys)
    (demanded : (sys.conns c).ledger.Demands c request) (living : (sys.conns c).life ≠ .closed)
    (allowed : orderRules.ask c request sys) (made : request.onSystem c sys answer sys') :
    Ordered sys' := by
  have own := Ask.onSystem_own made
  have others := Ask.onSystem_other made
  have whole := made
  obtain ⟨mid, made, rfl⟩ := made
  cases request with
  | call op =>
      by_cases outboxOp : op.OutboxOp
      · cases op with
        | enqueue recipient bytes ts =>
            have made : (answer, mid) = sys.enqueue c recipient bytes ts := made
            rcases sys.enqueue_cases c recipient bytes ts with result | result
            · rw [result] at made
              obtain ⟨_, rfl⟩ := Prod.mk.inj made
              exact ordered.other demanded id whole (line_note rfl rfl) rfl rfl rfl
            · rw [result] at made
              obtain ⟨_, rfl⟩ := Prod.mk.inj made
              refine ordered.stored traced (each c ?_ others) (line_note rfl rfl) rfl rfl rfl
              rw [own]
              rfl
        | deleteFrames ids =>
            obtain ⟨rfl, rfl⟩ := made
            exact ordered.deleted demanded whole
        | _ => exact outboxOp.elim
      · obtain ⟨outbox, _⟩ := exec_outbox outboxOp sys.store
        cases op with
        | pendingFrames username =>
            obtain ⟨rfl, rfl⟩ := made
            exact ordered.read traced.recorded alone demanded living whole rfl
        | enqueue recipient frame ts => exact absurd trivial outboxOp
        | deleteFrames ids => exact absurd trivial outboxOp
        | _ =>
            obtain ⟨rfl, rfl⟩ := made
            exact ordered.other demanded id whole (line_note rfl rfl) outbox rfl rfl
  | sendWait msg =>
      obtain ⟨_, made⟩ := made
      obtain ⟨id, frame, rest, next, rfl⟩ := demanded
      have demanded : (sys.conns c).ledger.Demands c (.sendWait (.deliver frame)) :=
        ⟨id, frame, rest, next, rfl⟩
      rcases sys.pushRow_cases c (.deliver frame) with ⟨_, result⟩ | ⟨_, result⟩
      · rw [result] at made
        obtain ⟨rfl, rfl⟩ := Prod.mk.inj made
        exact ordered.gaveUp demanded whole
      · rw [result] at made
        obtain ⟨rfl, rfl⟩ := Prod.mk.inj made
        refine ordered.pushed traced alone demanded next ?_ living rfl whole
        rw [System.nextRow, next]
        rfl
  | trySend msg =>
      have made : (answer, mid) = sys.offer c ⟨msg, none, none⟩ := made
      rcases sys.offer_cases c ⟨msg, none, none⟩ with result | ⟨_, result⟩
      · rw [result] at made
        obtain ⟨_, rfl⟩ := Prod.mk.inj made
        exact ordered.other demanded id whole (line_note rfl rfl) rfl rfl rfl
      · rw [result] at made
        obtain ⟨_, rfl⟩ := Prod.mk.inj made
        refine ordered.other demanded id whole (each c ?_ fun d other => ?_) rfl rfl rfl
        · rw [line_push rfl rfl]
          exact List.append_nil _
        · exact line_push_of_ne rfl rfl other
  | push conn msg =>
      have made : (answer, mid) = sys.pushCopy c conn msg := made
      rcases sys.pushCopy_cases c conn msg with result | ⟨room, result⟩
      · rw [result] at made
        obtain ⟨_, rfl⟩ := Prod.mk.inj made
        exact ordered.other demanded id whole (line_note rfl rfl) rfl rfl rfl
      · rw [result] at made
        obtain ⟨rfl, rfl⟩ := Prod.mk.inj made
        exact ordered.copied traced demanded (allowed.2 room) rfl whole
  | now =>
      obtain ⟨_, rfl⟩ := made
      exact ordered.other demanded id whole (line_note rfl rfl) rfl rfl rfl
  | _ =>
      obtain rfl : mid = sys := made
      exact ordered.other demanded id whole (line_note rfl rfl) rfl rfl rfl

end

/-! ### Without a task -/

/-- A connection changes, but for what its task knows. -/
theorem Alone.update {sys : System} (alone : Alone sys) {c : Nat} {f : Conn → Conn}
    (ledger : (f (sys.conns c)).ledger = (sys.conns c).ledger)
    (closed : (f (sys.conns c)).life = .closed → (sys.conns c).life = .closed ∨
      (sys.conns c).ledger.hands = [] ∧ (sys.conns c).ledger.pushed = [])
    (gone : (sys.conns c).Gone → (f (sys.conns c)).Gone) : Alone (sys.update c f) := by
  have ledgers := sys.update_keeps c Conn.ledger ledger
  have stays : ∀ d, (sys.conns d).Gone → ((sys.update c f).conns d).Gone := by
    refine each c ?_ fun d other => ?_
    · rw [System.update_self]
      exact gone
    · rw [System.update_of_ne _ _ other]
      exact id
  refine ⟨each c (fun shut => ?_) fun d other shut => ?_,
    fun d e user different theirs theirs' => ?_⟩
  · rw [ledgers]
    rw [System.update_self] at shut
    exact (closed shut).elim (alone.closed c) id
  · rw [ledgers]
    rw [System.update_of_ne _ _ other] at shut
    exact alone.closed d shut
  · rw [ledgers] at theirs theirs'
    exact (alone.single d e user different theirs theirs').imp (stays d) (stays e)

theorem Ordered.lessEntries {sys : System} (ordered : Ordered sys) {c : Nat} {f : Conn → Conn}
    (ledger : (f (sys.conns c)).ledger = (sys.conns c).ledger)
    (entries : (f (sys.conns c)).entries.Sublist (sys.conns c).entries) :
    Ordered (sys.update c f) := by
  refine ordered.less (sys.update_keeps c Conn.ledger ledger) (List.Sublist.refl _) rfl rfl
    (each c ?_ fun d other => ?_)
  · unfold System.line
    rw [System.update_self]
    exact ((List.Sublist.refl _).append entries).filterMap _
  · unfold System.line
    rw [System.update_of_ne _ _ other]
    exact List.Sublist.refl _

/-- A writer writes. The other connections of its user have nothing to write. -/
theorem Ordered.wrote {sys : System} (ordered : Ordered sys) (traced : Traced sys)
    (alone : Alone sys)
    {c : Nat} {entry : Entry} (busy : (sys.conns c).writing = some entry) :
    Ordered { sys.update c fun conn => { conn with writing := none } with
      written := sys.written ++ [(c, entry)] } := by
  have entries : (sys.conns c).entries = entry :: (sys.conns c).chan := by
    rw [Conn.entries, busy]
    rfl
  have alive : (sys.conns c).alive = true := by
    by_contra dead
    rw [traced.carried.quiet c (Bool.not_eq_true _ ▸ dead)] at entries
    cases entries
  have ledgers := sys.update_keeps c Conn.ledger (f := fun conn =>
      { conn with writing := none }) rfl
  have own : System.line { sys.update c fun conn => { conn with writing := none } with
      written := sys.written ++ [(c, entry)] } c = sys.line c := by
    unfold System.line
    rw [entries]
    show ((sys.written ++ [(c, entry)]).map Prod.snd ++ ((sys.update c fun conn =>
      { conn with writing := none }).conns c).entries).filterMap _ = _
    rw [System.update_self, List.map_append, List.append_assoc]
    rfl
  have other : ∀ d, d ≠ c → System.line { sys.update c fun conn =>
      { conn with writing := none } with
      written := sys.written ++ [(c, entry)] } d = (sys.written.map Prod.snd).filterMap
      Entry.copy ++
        (entry.copy.toList ++ (sys.conns d).entries.filterMap Entry.copy) := by
    intro d different
    unfold System.line
    show ((sys.written ++ [(c, entry)]).map Prod.snd ++ ((sys.update c fun conn =>
      { conn with writing := none }).conns d).entries).filterMap _ = _
    rw [System.update_of_ne _ _ different, List.map_append, List.append_assoc,
      List.filterMap_append,
      List.filterMap_append]
    cases same : entry.copy <;> simp [same]
  have mine : sys.line c = (sys.written.map Prod.snd).filterMap Entry.copy ++
      (entry.copy.toList ++ (sys.conns c).chan.filterMap Entry.copy) := by
    unfold System.line
    rw [entries, List.filterMap_append]
    cases same : entry.copy <;> simp [same]
  have theirs : ∀ d, sys.line d = (sys.written.map Prod.snd).filterMap Entry.copy ++
      (sys.conns d).entries.filterMap Entry.copy := fun d => List.filterMap_append ..
  have ahead : ∀ d, ∀ i ∈ System.line { sys.update c fun conn => { conn with writing := none } with
      written := sys.written ++ [(c, entry)] } d, i ∈ sys.line c ∨ i ∈ sys.line d := by
    refine each c (fun i member => .inl (own ▸ member)) fun d different i member => ?_
    rw [other d different] at member
    rw [mine, theirs]
    rcases List.mem_append.mp member with member | member
    · exact .inl (List.mem_append_left _ member)
    · rcases List.mem_append.mp member with member | member
      · exact .inl (List.mem_append_right _ (List.mem_append_left _ member))
      · exact .inr (List.mem_append_right _ member)
  have waits : ∀ sender user r j, System.Waits { sys.update c fun conn =>
      { conn with writing := none }
      with written := sys.written ++ [(c, entry)] } sender user r j →
      sys.Waits sender user r j := by
    rintro sender user r j ⟨copied, ahead, found⟩
    refine ⟨copied, ahead.keep id (fun d theirs held => ?_) (fun d theirs held _ => ?_), found⟩
    · exact ⟨ledgers d ▸ theirs, ledgers d ▸ held⟩
    · exact ⟨(ledgers d).symm ▸ theirs, (ledgers d).symm ▸ held⟩
  refine ⟨ordered.sorted, fun d => ?_, each c ?_ fun d different => ?_,
    fun d i member copy found r j waiting => ?_,
    fun d user theirs row member sender r j waiting absent => ?_⟩
  · have hands := ordered.hands d
    rw [← ledgers] at hands
    exact hands
  · rw [own]
    exact ordered.line c
  · rw [other d different]
    have first := ordered.line c
    have second := ordered.line d
    rw [mine] at first
    rw [theirs] at second
    obtain ⟨written, front, cross⟩ := List.pairwise_append.mp first
    obtain ⟨_, queued, cross'⟩ := List.pairwise_append.mp second
    refine List.pairwise_append.mpr ⟨written, List.pairwise_append.mpr
      ⟨(List.pairwise_append.mp front).1, queued, ?_⟩, fun i before j later => ?_⟩
    · intro i now j later copy copy' found found' _ sameRecipient
      have now := Option.mem_toList.mp now
      obtain ⟨entry', waiting, copied⟩ := List.mem_filterMap.mp later
      have front : entry ∈ (sys.conns c).entries := entries ▸ List.mem_cons_self
      obtain ⟨copy₁, found₁, user_c, _⟩ := traced.carried.entries c entry front i now
      obtain ⟨copy₂, found₂, user_d, _⟩ := traced.carried.entries d entry' waiting j copied
      cases found.symm.trans found₁
      cases found'.symm.trans found₂
      rw [← sameRecipient] at user_d
      have present : ¬ (sys.conns c).Gone := fun gone => by
        rw [gone.2] at alive
        cases alive
      rw [traced.carried.quiet d (alone.others user_c present different user_d).1] at waiting
      cases waiting
    · rcases List.mem_append.mp later with later | later
      · exact cross i before j (List.mem_append_left _ later)
      · exact cross' i before j later
  · rcases ahead d i member with known | known
    · exact ordered.ahead c i known copy found r j (waits _ _ r j waiting)
    · exact ordered.ahead d i known copy found r j (waits _ _ r j waiting)
  · have user_d : (sys.conns d).ledger.user = some user := ledgers d ▸ theirs
    have held : row ∈ (sys.conns d).ledger.hands := ledgers d ▸ member
    have absent : r ∉ (sys.conns d).ledger.hands.map Prod.fst := ledgers d ▸ absent
    exact ordered.newer d user user_d row held sender r j (waits _ _ r j waiting) absent

/-! ### Whole runs -/

/-- Everything that is kept. -/
structure InOrder (sys : System) : Prop where
  traced : Traced sys
  alone : Alone sys
  ordered : Ordered sys

theorem InOrder.drift {rules : Rules} {sys sys' : System} (inOrder : InOrder sys)
    (drifts : Drift rules sys sys') : InOrder sys' := by
  obtain ⟨traced, alone, ordered⟩ := inOrder
  refine ⟨traced.drift drifts, ?_, ?_⟩
  · cases drifts with
    | accept fresh =>
        refine alone.update rfl nofun fun gone => ?_
        cases fresh.symm.trans gone.1
    | @write c entry busy =>
        have written := alone.update (c := c) (f := fun conn => { conn with writing := none })
            (by rfl) .inl id
        exact ⟨written.closed, written.single⟩
    | take alive idle first => exact alone.update rfl .inl id
    | stop alive allowed => exact alone.update rfl .inl fun gone => ⟨gone.1, rfl⟩
    | prune => exact ⟨alone.closed, alone.single⟩
  · cases drifts with
    | accept fresh => exact ordered.lessEntries rfl (List.Sublist.refl _)
    | @take c entry rest alive idle first =>
        refine ordered.lessEntries rfl ?_
        rw [Conn.entries, Conn.entries, idle, first]
        exact List.Sublist.refl _
    | write busy => exact ordered.wrote traced alone busy
    | stop alive allowed => exact ordered.lessEntries rfl (List.nil_sublist _)
    | prune =>
        exact ordered.less (fun _ => rfl) (List.filter_sublist.map _) rfl rfl fun _ =>
          List.Sublist.refl _

theorem taskView_inOrder (config : ServerConfig) :
    (taskView config orderRules.living).Sound InOrder := by
  refine taskView_sound (fun c request sys answer sys' holds demanded allowed made => ?_)
    (fun sys c life state holds resting next => ?_) fun sys sys' holds drifts => holds.drift drifts
  · obtain ⟨traced, alone, ordered⟩ := holds
    exact ⟨traced.act demanded made, alone.act demanded allowed.2 allowed.1.1 made,
      ordered.act traced alone demanded allowed.2 allowed.1 made⟩
  · obtain ⟨traced, alone, ordered⟩ := holds
    refine ⟨traced.lives c life state, alone.update rfl (fun _ => .inr resting.2) fun gone =>
      ⟨?_, gone.2⟩,
      ordered.lessEntries rfl (List.Sublist.refl _)⟩
    rcases next with same | ⟨opened, _⟩ | ⟨closing, _⟩
    · exact same.trans gone.1
    · cases opened.symm.trans gone.1
    · cases closing.symm.trans gone.1

/-- Copies of one sender for one recipient were written in the order of the sends. -/
def System.WrittenInTurn (sys : System) : Prop :=
  (sys.written.filterMap fun write => write.2.copy).Pairwise (InTurn sys.accepted)

/-- **Order, if nothing overtakes a row.** In every run in which users have one connection at a time
and no frame goes straight to a channel while a row of the same sender for the same recipient waits,
copies are written in the order in which their senders sent them. -/
theorem sends_in_order (config : ServerConfig) {store : Store}
    (sorted : store.ids.Pairwise (· < ·)) (below : ∀ row ∈ store.outbox,
      row.id < store.nextOutboxId)
    {tasks : Nat → Option (Task ConnState)} {sys : System}
    (reached : Relation.ReflTransGen (relay config orderRules).Next (started store) (tasks, sys)) :
    sys.WrittenInTurn := by
  have resting : ∀ c, (taskView config orderRules.living).idle c
      ((taskView config orderRules.living).see c (System.initial store)) := fun _ => ⟨rfl, rfl, rfl⟩
  have initially : InOrder (.initial store) := by
    refine ⟨.initial below, ⟨fun _ => nofun, fun _ _ _ _ => nofun⟩, sorted, fun _ =>
      List.Pairwise.nil,
      fun _ => List.Pairwise.nil, fun _ _ => nofun, fun _ _ => nofun⟩
  obtain ⟨_, _, ordered⟩ := ((taskView_inOrder config).reached (living_reached reached).1
      (fun _ => rfl)
    resting initially).1
  have line := ordered.line 0
  rw [System.line, List.filterMap_append, List.filterMap_map] at line
  exact (List.pairwise_append.mp line).1

end

end Relay

namespace Ideal

open Relay

instance : Lenient aloneRules := ⟨fun c request sys other => by
  cases request with
  | call op =>
      cases op with
      | goOnline username conn => exact absurd trivial other
      | _ => trivial
  | _ => trivial⟩

instance : Lenient orderRules := ⟨fun c request sys other => by
  refine ⟨Lenient.all c request sys other, ?_⟩
  cases request with
  | push conn msg => exact absurd trivial other
  | _ => trivial⟩

/-- A user who is on no connection may log in. -/
theorem order_allows {sys : System} {c : Nat} {username : String}
    (nowhere : ∀ other, other ≠ c → (sys.conns other).ledger.user ≠ some username) (conn : Conn) :
    orderRules.ask c (.call (.goOnline username c)) (sys.put c conn) := by
  refine ⟨fun other different theirs => ?_, trivial⟩
  rw [System.put_of_ne _ _ different] at theirs
  exact absurd theirs (nowhere other different)

/-- Alice is online on connection 1. -/
def aliceIn : System :=
  { System.initial twoUsers with store := twoUsers.goOnline "alice" 1 }.put 1
    (.loggedIn someNonce "alice" "alice")

/-- Alice's connection once she has sent Bob two frames. -/
def aliceSent (copies : List Entry) (routed : Option Nat) : Conn :=
  { Conn.loggedIn someNonce "alice" "alice" with
    chan := (Conn.loggedIn someNonce "alice" "alice").chan ++ copies
    ledger := { Ledger.empty with user := some "alice", routed := some ("bob", routed) } }

/-- Her first frame is in the outbox. -/
def firstStored : System :=
  { (System.initial twoUsers).accept 1 "bob" (some hello) with
    store := (twoUsers.goOnline "alice" 1).append "bob" (writeFrame hello) 0
    rowCopy := Function.update (fun _ => none) 1 (some 0) }

/-- Bob is online on connection 0, and his backlog is not pushed yet. -/
def bobEntered : System := { firstStored with store := firstStored.store.goOnline "bob" 0 }

theorem aliceIn_reached : Relation.ReflTransGen (relay openConfig orderRules).Next
    (started twoUsers)
    (fun _ => none, aliceIn) :=
  login_lands openConfig orderRules 1 rfl rfl rfl rfl (answerOf_valid "alice" 1)
    (order_allows fun _ _ => nofun) (fun _ => ⟨trivial, trivial⟩) rfl

theorem firstStored_reached : Relation.ReflTransGen (relay openConfig orderRules).Next
    (started twoUsers)
    (fun _ => none, firstStored.put 1 (aliceSent [⟨.ok none, none, none⟩] none)) := by
  let alice : Conn := .loggedIn someNonce "alice" "alice"
  let sys : System := { System.initial twoUsers with store := twoUsers.goOnline "alice" 1 }
  have asks : Plays openConfig orderRules 1 (handle 1 openConfig alice.state
      (some (.send helloMsg)), _) _ :=
    send_fansOut sys alice helloMsg rfl rfl (Nat.zero_le _) zero_isI64 rfl
  have stores : Plays openConfig orderRules 1 (concluded alice.state (fanOut "alice" hello
      (writeFrame hello) ["bob"] false false), _) _ :=
    fanOut_stores sys alice (by decide) hello_inRange rfl (enqueues_first rfl hello_small 0) rfl
      (by decide)
  exact aliceIn_reached.trans
    (handled (fun _ => none) rfl rfl rfl (some (.send helloMsg)) zero_isI64 (asks.trans stores))

/-- Alice's connection when her first frame is stored. -/
abbrev aliceStored : Conn := aliceSent [⟨.ok none, none, none⟩] none

/-- Bob is on no connection yet. -/
theorem bob_nowhere : ∀ other, other ≠ 0 →
    ((firstStored.put 1 aliceStored).conns other).ledger.user ≠ some "bob" := by
  intro other _
  by_cases isAlice : other = 1
  · subst isAlice
    decide
  · rw [System.put_of_ne _ _ isAlice]
    exact nofun

/-- Bob logs in, and has not begun to flush. -/
theorem bobEntered_reached : Relation.ReflTransGen (relay openConfig orderRules).Next
    (started twoUsers)
    (Function.update (fun _ => none) 0 (some (entered ⟨none, none, none⟩ "bob" "bob")),
      (bobEntered.put 0 (.online someNonce "bob")).put 1 aliceStored) := by
  have waiting : Relation.ReflTransGen (relay openConfig orderRules).Next _
      (fun _ => none, (firstStored.put 1 aliceStored).put 0 (.challenged someNonce)) :=
    challenged openConfig orderRules _ _ rfl rfl "bob" someNonce
  have enters : Plays openConfig orderRules 0 (handle 0 openConfig (Conn.challenged someNonce).state
      (some (.authFinish "bob" (answerOf 2))), (firstStored.put 1 aliceStored).put 0
        (.challenged someNonce)) _ :=
    comes_online rfl rfl rfl (answerOf_valid "bob" 2) (order_allows bob_nowhere)
  have entering := begins_handling (fun _ => none) rfl rfl (some (.authFinish "bob" (answerOf 2)))
    trivial enters
  rw [bobEntered.put_comm (by decide)]
  exact (firstStored_reached.trans waiting).trans entering

/-- Bob's connection with Alice's second frame in its channel. -/
def bobOvertaken : Conn :=
  { Conn.online someNonce "bob" with
    chan := (Conn.online someNonce "bob").chan ++ [Entry.mk (.deliver hello) (some 1) none] }

/-- The second frame goes straight to Bob's channel. -/
theorem overtaken_reached : Relation.ReflTransGen (relay openConfig aloneRules).Next
    (started twoUsers)
    (Function.update (fun _ => none) 0 (some (entered ⟨none, none, none⟩ "bob" "bob")),
      ((bobEntered.accept 1 "bob" (some hello)).put 1
        (aliceSent [⟨.ok none, none, none⟩, ⟨.ok none, none, none⟩] (some 0))).put 0
          bobOvertaken) := by
  let alice := aliceSent [⟨.ok none, none, none⟩] none
  let bob : Conn := .online someNonce "bob"
  have asks : Plays openConfig aloneRules 1 (handle 1 openConfig alice.state
      (some (.send helloMsg)), _)
      _ := send_fansOut (bobEntered.put 0 bob) alice helloMsg rfl rfl (Nat.zero_le _) zero_isI64 rfl
  have pushes : Plays openConfig aloneRules 1 (concluded alice.state (fanOut "alice" hello
      (writeFrame hello) ["bob"] false false), _) _ :=
    fanOut_pushes (bobEntered.put 0 bob) alice 0 (by decide) (by decide) trivial rfl
      ⟨rfl, by decide⟩ rfl (by decide)
  have second := handled (Function.update (fun _ => none) 0
      (some (entered ⟨none, none, none⟩ "bob" "bob")))
    rfl rfl rfl (some (.send helloMsg)) zero_isI64 (asks.trans pushes)
  have pushed : ((bobEntered.put 0 bob).accept 1 "bob" (some hello)).push 0
      (Entry.mk (.deliver hello) (some 1) none) =
        (bobEntered.accept 1 "bob" (some hello)).put 0 bobOvertaken :=
    (bobEntered.accept 1 "bob" (some hello)).update_put 0 bob _
  rw [System.put_comm _ (by decide), ← pushed]
  have entered : Relation.ReflTransGen (relay openConfig aloneRules).Next _ _ :=
    reached_mono (fun _ _ _ allowed => And.left allowed) (fun _ _ _ => trivial) bobEntered_reached
  exact entered.trans second

/-- Bob comes online while Alice's first frame waits; her second one overtakes it. -/
theorem frames_overtaken :
    ¬ ∀ (config : ServerConfig) (store : Store), store.ids.Pairwise (· < ·) →
      (∀ row ∈ store.outbox, row.id < store.nextOutboxId) →
      ∀ (tasks : Nat → Option (Relay.Task ConnState)) (sys : System),
      Relation.ReflTransGen (relay config aloneRules).Next (started store) (tasks, sys) →
      sys.WrittenInTurn := by
  intro law
  let sys := (bobEntered.accept 1 "bob" (some hello)).put 1
    (aliceSent [⟨.ok none, none, none⟩, ⟨.ok none, none, none⟩] (some 0))
  have parses := readFrame_writeFrame hello hello_inRange
  have rows : sys.store.pendingFrames "bob" = [(1, writeFrame hello)] := rfl
  let overtaken : Conn := { bobOvertaken with
    chan := bobOvertaken.chan ++ [Entry.mk (.authOk "bob" "bob") none none]
    ledger := { bobOvertaken.ledger with
      read := [(1, writeFrame hello)], hands := [(1, writeFrame hello)], pushed := [] } }
  have flushes : Plays openConfig aloneRules 0 (entered ⟨none, none, none⟩ "bob" "bob",
      sys.put 0 bobOvertaken) _ := flush_begins rfl (by decide) (fun _ => trivial) rows
  have pushes : Plays openConfig aloneRules 0 (flushing ⟨none, none, none⟩ "bob"
      [(1, writeFrame hello)] [], sys.put 0 overtaken) _ :=
    pushes_row sys rfl (by decide) rfl parses
  let tasks : Nat → Option (Relay.Task ConnState) :=
    Function.update (fun _ => none) 0 (some (entered ⟨none, none, none⟩ "bob" "bob"))
  have flushed := goes_on tasks rfl (flushes.trans pushes)
  let pushed : Conn := { overtaken with
    chan := overtaken.chan ++ [Entry.mk (.deliver hello) (some 0) (some 1)]
    ledger := { overtaken.ledger with hands := [], pushed := [1] } }
  have written : Relation.ReflTransGen (relay openConfig aloneRules).Next
      (Function.update tasks 0 (some (flushing ⟨none, none, none⟩ "bob" [] [1])),
        { sys with pushedRows := [1] }.put 0 pushed) _ :=
    drifts_next (writes_all aloneRules 0 pushed rfl rfl _) _
  have order := law openConfig twoUsers List.Pairwise.nil
    (fun _ member => absurd member List.not_mem_nil) _ _
    ((overtaken_reached.trans flushed).trans written)
  have turned : List.Pairwise (InTurn sys.accepted) [1, 0] := order
  have first : (1 : Nat) < 0 := (List.pairwise_cons.mp turned).1 0 (List.mem_singleton.mpr rfl)
    ⟨1, "bob", some hello⟩ ⟨1, "bob", some hello⟩ rfl rfl rfl rfl
  cases first

/-- Alice's first frame is pushed to Bob, and no longer in the outbox. -/
def bobServed : System :=
  { bobEntered with store := bobEntered.store.deleteFrames [1], pushedRows := [1] }

/-- Bob's connection then. -/
def bobFlushed : Conn :=
  .served someNonce "bob" "bob" [Entry.mk (.deliver hello) (some 0) (some 1)]

/-- Bob logs in, and his backlog is pushed. -/
theorem bobServed_reached : Relation.ReflTransGen (relay openConfig orderRules).Next
    (started twoUsers)
    (fun _ => none, (bobServed.put 0 bobFlushed).put 1 aliceStored) := by
  have served : Relation.ReflTransGen (relay openConfig orderRules).Next
      (fun _ => none, firstStored.put 1 aliceStored)
      (fun _ => none, (bobServed.put 1 aliceStored).put 0 bobFlushed) :=
    login_delivers openConfig orderRules 0 (1, hello) [] rfl rfl rfl rfl (answerOf_valid "bob" 2)
      (order_allows bob_nowhere) (fun _ => ⟨trivial, trivial⟩) rfl
      (fun _ member => List.mem_singleton.mp member ▸ hello_inRange) (by decide)
  rw [bobServed.put_comm (by decide)]
  exact firstStored_reached.trans served

/-- Nothing waits if the outbox is empty and nothing is in the hands of a flush. -/
theorem not_waits {sys : System} (empty : sys.store.ids = [])
    (free : ∀ c, (sys.conns c).ledger.hands = []) (sender : Nat) (user : String) (r j : Nat) :
    ¬ sys.Waits sender user r j := by
  rintro ⟨_, ⟨c, _, held⟩ | ⟨stored, _⟩, _⟩
  · rw [free c] at held
    cases held
  · rw [empty] at stored
    cases stored

/-- Alice's second frame goes straight to Bob's channel, behind the first. -/
theorem bobFollowed_reached : Relation.ReflTransGen (relay openConfig orderRules).Next
    (started twoUsers)
    (fun _ => none, ((bobServed.accept 1 "bob" (some hello)).put 1
      (aliceSent [⟨.ok none, none, none⟩, ⟨.ok none, none, none⟩] (some 0))).put 0
        { bobFlushed with
          chan := bobFlushed.chan ++ [Entry.mk (.deliver hello) (some 1) none] }) := by
  let sys := bobServed.put 0 bobFlushed
  have asks : Plays openConfig orderRules 1 (handle 1 openConfig aliceStored.state
      (some (.send helloMsg)), _) _ :=
    send_fansOut sys aliceStored helloMsg rfl rfl (Nat.zero_le _) zero_isI64 rfl
  have allowed : orderRules.ask 1 (.push 0 (.deliver hello)) (sys.put 1 { aliceStored with
      ledger := { aliceStored.ledger with routed := some ("bob", some 0) } }) := by
    refine ⟨trivial, fun _ => not_waits rfl (fun c => ?_) 1 _⟩
    by_cases isAlice : c = 1
    · subst isAlice
      rfl
    · rw [System.put_of_ne _ _ isAlice]
      by_cases isBob : c = 0
      · subst isBob
        rfl
      · rw [System.put_of_ne _ _ isBob]
        rfl
  have pushes : Plays openConfig orderRules 1 (concluded aliceStored.state (fanOut "alice" hello
      (writeFrame hello) ["bob"] false false), _) _ :=
    fanOut_pushes sys aliceStored 0 (by decide) (by decide) allowed rfl ⟨rfl, by decide⟩ rfl
      (by decide)
  have second := handled (fun _ => none) rfl rfl rfl (some (.send helloMsg)) zero_isI64
    (asks.trans pushes)
  have pushed : (sys.accept 1 "bob" (some hello)).push 0 (Entry.mk (.deliver hello) (some 1) none) =
      (bobServed.accept 1 "bob" (some hello)).put 0 { bobFlushed with
        chan := bobFlushed.chan ++ [Entry.mk (.deliver hello) (some 1) none] } :=
    (bobServed.accept 1 "bob" (some hello)).update_put 0 bobFlushed _
  rw [System.put_comm _ (by decide), ← pushed]
  exact bobServed_reached.trans second

/-- A run, as an instance: a frame of Alice's is stored, Bob logs in and is pushed it, a second frame
goes straight to his channel, and his writer writes both, in this order. -/
theorem frames_in_turn : ∃ sys : System,
    Relation.ReflTransGen (relay openConfig orderRules).Next (started twoUsers)
      (fun _ => none, sys) ∧
    sys.pushedRows = [1] ∧ sys.written.filterMap (fun write => write.2.copy) = [0, 1] ∧
    sys.WrittenInTurn := by
  have writes : Relation.ReflTransGen (relay openConfig orderRules).Next _ _ :=
    drifts_next (writes_all orderRules 0 { bobFlushed with
      chan := bobFlushed.chan ++ [Entry.mk (.deliver hello) (some 1) none] } rfl rfl
      ((bobServed.accept 1 "bob" (some hello)).put 1
        (aliceSent [⟨.ok none, none, none⟩, ⟨.ok none, none, none⟩] (some 0)))) fun _ => none
  have reached := bobFollowed_reached.trans writes
  exact ⟨_, reached, rfl, rfl, sends_in_order openConfig List.Pairwise.nil
    (fun _ member => absurd member List.not_mem_nil) reached⟩

end Ideal

end Cherm
