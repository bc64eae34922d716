/-
**Where the copies of a frame are.**

A frame that was accepted for a recipient is an entry of a channel of theirs or a row of the outbox,
and a row becomes an entry when a flush pushes it. Here is what holds of the record of copies in
every run, whatever the rules are.

* `Addressed`: who is online, and where a task has looked up somebody, is a connection of theirs.
* `Recorded`: rows, in the outbox or in the hands of a flush, are the copies they are recorded as,
  and later rows are later copies.
* `Carried`: entries, in a channel or written, are copies for the user of the connection; a writer
  that has stopped leaves nothing behind.
* `Traced.act`, `Traced.drift`, `Traced.lives`: all three are kept.
-/

import Cherm.Relay.Tasks

namespace Cherm.Relay

open Crates

theorem insertPrekey_frame (store : Store) (username keyId curve25519 : String) :
    ∃ prekeys, store.insertPrekey username keyId curve25519 =
      { store with prekeys := prekeys } := by
  unfold Store.insertPrekey
  split <;> exact ⟨_, rfl⟩

theorem publishPrekeys_frame (store : Store) (username : String) (otks : List OneTimeKey) :
    ∃ prekeys, (store.publishPrekeys username otks).2 = { store with prekeys := prekeys } := by
  have inserted : ∀ store : Store, ∃ prekeys,
      otks.foldl (fun store k => store.insertPrekey username k.keyId k.curve25519) store =
        { store with prekeys := prekeys } := by
    induction otks with
    | nil => exact fun store => ⟨store.prekeys, rfl⟩
    | cons k rest ih =>
        intro store
        obtain ⟨first, same⟩ := insertPrekey_frame store username k.keyId k.curve25519
        obtain ⟨others, same'⟩ := ih { store with prekeys := first }
        exact ⟨others, by rw [List.foldl_cons, same, same']⟩
  unfold Store.publishPrekeys
  split
  · exact ⟨_, rfl⟩
  · exact inserted store

/-- The outbox is changed by storing a frame and by deleting frames. -/
def StoreOp.OutboxOp : StoreOp → Prop
  | .enqueue .. | .deleteFrames _ => True
  | _ => False

theorem exec_outbox {op : StoreOp} (other : ¬ op.OutboxOp) (store : Store) :
    (op.exec store).2.outbox = store.outbox ∧ (op.exec store).2.nextOutboxId =
      store.nextOutboxId := by
  cases op with
  | registerUser username ed25519 curve25519 machineId uuid now =>
      show (store.registerUser ..).2.outbox = _ ∧ (store.registerUser ..).2.nextOutboxId = _
      unfold Store.registerUser
      iterate 2
        split
        · exact ⟨rfl, rfl⟩
      split <;> exact ⟨rfl, rfl⟩
  | publishPrekeys username otks =>
      obtain ⟨prekeys, same⟩ := publishPrekeys_frame store username otks
      have outbox := congrArg Store.outbox same
      have next := congrArg Store.nextOutboxId same
      exact ⟨outbox, next⟩
  | fetchBundle username =>
      show (store.fetchBundle username).2.outbox = _ ∧ (store.fetchBundle
        username).2.nextOutboxId = _
      unfold Store.fetchBundle Store.takePrekey
      split
      · exact ⟨rfl, rfl⟩
      · dsimp only
        split <;> exact ⟨rfl, rfl⟩
  | goOffline username conn =>
      show (store.goOffline username conn).outbox = _ ∧
        (store.goOffline username conn).nextOutboxId = _
      unfold Store.goOffline
      split <;> exact ⟨rfl, rfl⟩
  | enqueue recipient frame ts => exact absurd trivial other
  | deleteFrames ids => exact absurd trivial other
  | _ => exact ⟨rfl, rfl⟩

/-- Who is online is changed by logging in and by going away. -/
def StoreOp.PresenceOp : StoreOp → Prop
  | .goOnline .. | .goOffline .. => True
  | _ => False

theorem exec_online {op : StoreOp} (other : ¬ op.PresenceOp) (store : Store) :
    (op.exec store).2.online = store.online := by
  cases op with
  | registerUser username ed25519 curve25519 machineId uuid now =>
      show (store.registerUser ..).2.online = _
      unfold Store.registerUser
      iterate 2
        split
        · rfl
      split <;> rfl
  | publishPrekeys username otks =>
      obtain ⟨prekeys, same⟩ := publishPrekeys_frame store username otks
      have online := congrArg Store.online same
      exact online
  | fetchBundle username =>
      show (store.fetchBundle username).2.online = _
      unfold Store.fetchBundle Store.takePrekey
      split
      · rfl
      · dsimp only
        split <;> rfl
  | enqueue recipient frame ts =>
      show (store.enqueueIfUnderCap recipient frame ts).2.online = _
      rcases store.enqueueIfUnderCap_cases recipient frame ts with result | result <;> rw [result]
      rfl
  | goOnline username conn => exact absurd trivial other
  | goOffline username conn => exact absurd trivial other
  | _ => rfl

theorem pendingFrames_row {store : Store} {username : String} {row : Nat × Bytes}
    (pending : row ∈ store.pendingFrames username) :
    ∃ found ∈ store.outbox, found.recipient = username ∧ row = (found.id, found.frame) := by
  obtain ⟨found, member, rfl⟩ := List.mem_map.mp pending
  obtain ⟨stored, mine⟩ := List.mem_filter.mp member
  exact ⟨found, stored, of_decide_eq_true mine, rfl⟩

def Store.ids (store : Store) : List Nat := store.outbox.map OutboxRow.id

theorem pendingFrames_ids {store : Store} {username : String} {row : Nat × Bytes}
    (pending : row ∈ store.pendingFrames username) : row.1 ∈ store.ids := by
  obtain ⟨found, stored, _, rfl⟩ := pendingFrames_row pending
  exact List.mem_map.mpr ⟨found, stored, rfl⟩

theorem append_ids (store : Store) (recipient : String) (frame : Bytes) (ts : Int) :
    (store.append recipient frame ts).ids = store.ids ++ [store.nextOutboxId] := List.map_append ..

/-- What holds of one connection and of the others holds of all. -/
theorem each (c : Nat) {P : Nat → Prop} (own : P c) (others : ∀ d, d ≠ c → P d) (d : Nat) :
    P d := by
  by_cases mine : d = c
  · rw [mine]
    exact own
  · exact others d mine

@[simp] theorem push_alive (sys : System) (c d : Nat) (entry : Entry) :
    ((sys.push c entry).conns d).alive = (sys.conns d).alive := sys.update_keeps c Conn.alive rfl d

/-- What a connection has to write: what its writer has in hand, then its channel. -/
def Conn.entries (conn : Conn) : List Entry := conn.writing.toList ++ conn.chan

theorem push_entries (sys : System) (c : Nat) (entry : Entry) :
    ((sys.push c entry).conns c).entries = (sys.conns c).entries ++ [entry] := by
  rw [System.push, System.update_self]
  exact (List.append_assoc ..).symm

theorem push_entries_of_ne (sys : System) {c d : Nat} (entry : Entry) (different : d ≠ c) :
    ((sys.push c entry).conns d).entries = (sys.conns d).entries := by
  rw [System.push, System.update_of_ne _ _ different]

/-- The frame is copy `i`, which was accepted for this user. -/
def Fits (accepted : List Copy) (user : Option String) (frame : Option Deliver) (i : Nat) : Prop :=
  ∃ copy, accepted[i]? = some copy ∧ user = some copy.recipient ∧ frame = copy.frame

theorem Fits.grow {accepted m : List Copy} {user user' : Option String} {frame : Option Deliver}
    {i : Nat} (fits : Fits accepted user frame i) (users : ∀ u, user = some u → user' = some u) :
    Fits (accepted ++ m) user' frame i := by
  obtain ⟨copy, found, theirs, same⟩ := fits
  refine ⟨copy, ?_, users _ theirs, same⟩
  rw [List.getElem?_append_left (List.getElem?_eq_some_iff.mp found).1]
  exact found

theorem Fits.lt {accepted : List Copy} {user : Option String} {frame : Option Deliver} {i : Nat}
    (fits : Fits accepted user frame i) : i < accepted.length := by
  obtain ⟨copy, found, _⟩ := fits
  exact (List.getElem?_eq_some_iff.mp found).1

/-- Every entry is a copy for the user of its connection, and only writers that run have any. -/
structure Carried (sys : System) : Prop where
  quiet : ∀ c, (sys.conns c).alive = false → (sys.conns c).entries = []
  entries : ∀ c, ∀ entry ∈ (sys.conns c).entries, ∀ i, entry.copy = some i →
    Fits sys.accepted (sys.conns c).ledger.user (frameOf entry.msg) i
  written : ∀ write ∈ sys.written, ∀ i, write.2.copy = some i →
    Fits sys.accepted (sys.conns write.1).ledger.user (frameOf write.2.msg) i

/-- What is to be written is what was, and what fits. -/
theorem Carried.keep {sys sys' : System} (carried : Carried sys) {more : List Copy}
    (accepted : sys'.accepted = sys.accepted ++ more)
    (users : ∀ c u, (sys.conns c).ledger.user = some u → (sys'.conns c).ledger.user = some u)
    (quiet : ∀ c, (sys'.conns c).alive = false → (sys'.conns c).entries = [])
    (entries : ∀ c, ∀ entry ∈ (sys'.conns c).entries, entry ∈ (sys.conns c).entries ∨
      ∀ i, entry.copy = some i →
        Fits sys'.accepted (sys'.conns c).ledger.user (frameOf entry.msg) i)
    (written : ∀ write ∈ sys'.written, write ∈ sys.written ∨
      write.2 ∈ (sys.conns write.1).entries) : Carried sys' where
  quiet := quiet
  entries c entry member i same := by
    rcases entries c entry member with before | new
    · rw [accepted]
      exact (carried.entries c entry before i same).grow (users c)
    · exact new i same
  written write member i same := by
    rw [accepted]
    rcases written write member with before | now
    · exact (carried.written write before i same).grow (users write.1)
    · exact (carried.entries write.1 write.2 now i same).grow (users write.1)

section

variable [Crates]

/-! ### The outbox -/

/-- The rows before the one a flush has come to hold no frames. -/
theorem nextFrame_split {rows : List (Nat × Bytes)} {id : Nat} {frame : Deliver}
    {rest : List (Nat × Bytes)} (next : nextFrame rows = some (id, frame, rest)) :
    ∃ before bytes, rows = before ++ (id, bytes) :: rest ∧ readFrame bytes = some frame ∧
      ∀ row ∈ before, readFrame row.2 = none := by
  induction rows with
  | nil => cases next
  | cons row rows ih =>
      obtain ⟨first, bytes⟩ := row
      unfold nextFrame at next
      split at next
      · next found read =>
        cases next
        exact ⟨[], bytes, rfl, read, nofun⟩
      · next read =>
        obtain ⟨before, bytes', same, found, junk⟩ := ih next
        refine ⟨(first, bytes) :: before, bytes', by rw [same]; rfl, found, fun row member => ?_⟩
        rcases List.mem_cons.mp member with rfl | member
        · exact read
        · exact junk row member

/-! ### The connections -/

@[simp] theorem note_alive (sys : System) (c d : Nat) (request : Ask) (answer : request.Answer) :
    ((sys.note c request answer).conns d).alive = (sys.conns d).alive :=
  sys.update_keeps c Conn.alive rfl d

@[simp] theorem note_entries (sys : System) (c d : Nat) (request : Ask) (answer : request.Answer) :
    ((sys.note c request answer).conns d).entries = (sys.conns d).entries :=
  sys.update_keeps c Conn.entries rfl d

/-! ### Whose connections -/

/-- Who is online, or was looked up, is so over a connection of theirs. -/
structure Addressed (sys : System) : Prop where
  online : ∀ u c, sys.store.online.get u = some c → (sys.conns c).ledger.user = some u
  routed : ∀ c u other, (sys.conns c).ledger.routed = some (u, some other) →
    (sys.conns other).ledger.user = some u

theorem after_user {c : Nat} {request : Ask} {l : Ledger} (demanded : l.Demands c request)
    {u : String}
    (user : l.user = some u) (answer : request.Answer) :
      (l.after request answer).user = some u := by
  cases request with
  | call op =>
      cases op with
      | goOnline username conn =>
          have fresh : l.user = none := demanded.2.1
          rw [fresh] at user
          cases user
      | _ => exact user
  | sendWait msg =>
      cases answer with
      | false => exact user
      | true =>
          rw [Ledger.after]
          cases nextFrame l.hands <;> exact user
  | _ => exact user

theorem after_routed {request : Ask} (other : ∀ recipient, request ≠ .call (.route recipient))
    (answer : request.Answer) (l : Ledger) : (l.after request answer).routed = l.routed := by
  cases request with
  | call op =>
      cases op with
      | route recipient => exact absurd rfl (other recipient)
      | _ => rfl
  | sendWait msg =>
      cases answer with
      | false => rfl
      | true =>
          rw [Ledger.after]
          cases nextFrame l.hands <;> rfl
  | _ => rfl

section

variable {c : Nat} {request : Ask} {sys sys' : System} {answer : request.Answer}

/-- A connection keeps its user. -/
theorem onSystem_user (demanded : (sys.conns c).ledger.Demands c request)
    (made : request.onSystem c sys answer sys') {d : Nat} {u : String}
    (user : (sys.conns d).ledger.user = some u) : (sys'.conns d).ledger.user = some u := by
  by_cases same : d = c
  · subst same
    rw [Ask.onSystem_own made]
    exact after_user demanded user answer
  · rw [Ask.onSystem_other made _ same]
    exact user

/-- Whoever is online after a request was so before it, or has just come online. -/
theorem onSystem_online (demanded : (sys.conns c).ledger.Demands c request)
    (made : request.onSystem c sys answer sys') {u : String} {d : Nat}
    (online : sys'.store.online.get u = some d) :
    sys.store.online.get u = some d ∨ (sys'.conns d).ledger.user = some u := by
  have own := Ask.onSystem_own made
  obtain ⟨mid, made, rfl⟩ := made
  cases request with
  | call op =>
      by_cases presence : op.PresenceOp
      · cases op with
        | goOnline username conn =>
            obtain ⟨rfl, _⟩ := demanded
            obtain ⟨rfl, rfl⟩ := made
            have online : (sys.store.online.put username conn).get u = some d := online
            rw [Table.get_put] at online
            split at online
            · next same =>
              cases online
              rw [own, same]
              exact .inr rfl
            · exact .inl online
        | goOffline username conn =>
            obtain ⟨rfl, rfl⟩ := made
            have online : (sys.store.goOffline username conn).online.get u = some d := online
            unfold Store.goOffline at online
            split at online
            · rw [Table.get_erase] at online
              split at online
              · cases online
              · exact .inl online
            · exact .inl online
        | _ => exact presence.elim
      · have same := exec_online presence sys.store
        have known : mid.store.online = sys.store.online := by
          cases op with
          | enqueue recipient frame ts =>
              have made : (answer, mid) = sys.enqueue c recipient frame ts := made
              rcases sys.enqueue_cases c recipient frame ts with result | result <;>
              · rw [result] at made
                obtain ⟨_, rfl⟩ := Prod.mk.inj made
                rfl
          | _ =>
              obtain ⟨_, rfl⟩ := made
              exact same
        left
        rw [← known]
        exact online
  | trySend msg =>
      have made : (answer, mid) = sys.offer c ⟨msg, none, none⟩ := made
      rcases sys.offer_cases c ⟨msg, none, none⟩ with result | ⟨_, result⟩ <;>
      · rw [result] at made
        obtain ⟨_, rfl⟩ := Prod.mk.inj made
        exact .inl online
  | sendWait msg =>
      have made : (answer, mid) = sys.pushRow c msg := made.2
      rcases sys.pushRow_cases c msg with ⟨_, result⟩ | ⟨_, result⟩ <;>
      · rw [result] at made
        obtain ⟨_, rfl⟩ := Prod.mk.inj made
        exact .inl online
  | push conn msg =>
      have made : (answer, mid) = sys.pushCopy c conn msg := made
      rcases sys.pushCopy_cases c conn msg with result | ⟨_, result⟩ <;>
      · rw [result] at made
        obtain ⟨_, rfl⟩ := Prod.mk.inj made
        exact .inl online
  | now =>
      obtain ⟨_, rfl⟩ := made
      exact .inl online
  | _ =>
      obtain rfl : mid = sys := made
      exact .inl online

/-- What a task has looked up, it had looked up before, or somebody is online there. -/
theorem onSystem_routed (made : request.onSystem c sys answer sys') {d : Nat} {u : String}
    {other : Nat}
    (routed : (sys'.conns d).ledger.routed = some (u, some other)) :
    (sys.conns d).ledger.routed = some (u, some other) ∨ sys.store.online.get u = some other := by
  by_cases mine : d = c
  · subst mine
    rw [Ask.onSystem_own made] at routed
    by_cases looked : ∃ recipient, request = .call (.route recipient)
    · obtain ⟨recipient, rfl⟩ := looked
      obtain ⟨mid, ⟨rfl, _⟩, _⟩ := made
      have found : some (recipient, sys.store.online.get recipient) = some (u, some other) := routed
      obtain ⟨rfl, online⟩ := Prod.mk.inj (Option.some.inj found)
      exact .inr online
    · rw [after_routed (fun recipient same => looked ⟨recipient, same⟩)] at routed
      exact .inl routed
  · rw [Ask.onSystem_other made _ mine] at routed
    exact .inl routed

theorem Addressed.act (addressed : Addressed sys) (demanded :
    (sys.conns c).ledger.Demands c request)
    (made : request.onSystem c sys answer sys') : Addressed sys' where
  online u d online := by
    rcases onSystem_online demanded made online with before | now
    · exact onSystem_user demanded made (addressed.online u d before)
    · exact now
  routed d u other routed := by
    rcases onSystem_routed made routed with before | found
    · exact onSystem_user demanded made (addressed.routed d u other before)
    · exact onSystem_user demanded made (addressed.online u other found)

end

/-! ### Rows -/

/-- A row is a frame for its user: copy `i`, if it is recorded as that. -/
def RowFits (accepted : List Copy) (copy : Option Nat) (user : Option String)
    (bytes : Bytes) : Prop :=
  ∀ i, copy = some i → Fits accepted user (readFrame bytes) i ∧ readFrame bytes ≠ none

theorem RowFits.grow {accepted more : List Copy} {copy : Option Nat} {user user' : Option String}
    {bytes : Bytes} (fits : RowFits accepted copy user bytes)
    (users : ∀ u, user = some u → user' = some u) : RowFits (accepted ++ more) copy user' bytes :=
  fun i recorded => ⟨(fits i recorded).1.grow users, (fits i recorded).2⟩

/-- Every row, in the outbox or in the hands of a flush, is the copy that it is recorded as. -/
structure Recorded (sys : System) : Prop where
  below : ∀ row ∈ sys.store.outbox, row.id < sys.store.nextOutboxId
  rows : ∀ row ∈ sys.store.outbox,
    RowFits sys.accepted (sys.rowCopy row.id) (some row.recipient) row.frame
  read : ∀ c, ∀ row ∈ (sys.conns c).ledger.read, row.1 < sys.store.nextOutboxId ∧
    RowFits sys.accepted (sys.rowCopy row.1) (sys.conns c).ledger.user row.2
  hands : ∀ c, (sys.conns c).ledger.hands ⊆ (sys.conns c).ledger.read
  pushed : ∀ c, ∀ id ∈ (sys.conns c).ledger.pushed, id < sys.store.nextOutboxId
  copied : ∀ r i, sys.rowCopy r = some i → r < sys.store.nextOutboxId ∧ i < sys.accepted.length
  mono : ∀ r r' i i', sys.rowCopy r = some i → sys.rowCopy r' = some i' → r < r' → i < i'

theorem Recorded.handsBelow {sys : System} (recorded : Recorded sys) {c : Nat} {row : Nat × Bytes}
    (member : row ∈ (sys.conns c).ledger.hands) : row.1 < sys.store.nextOutboxId :=
  (recorded.read c row (recorded.hands c member)).1

/-- No row is added; copies may be. -/
theorem Recorded.keep {sys sys' : System} (recorded : Recorded sys) {m : List Copy}
    (outbox : sys'.store.outbox ⊆ sys.store.outbox)
    (next : sys'.store.nextOutboxId = sys.store.nextOutboxId)
    (accepted : sys'.accepted = sys.accepted ++ m) (rowCopy : sys'.rowCopy = sys.rowCopy)
    (users : ∀ c u, (sys.conns c).ledger.user = some u → (sys'.conns c).ledger.user = some u)
    (read : ∀ c, (sys'.conns c).ledger.read ⊆ (sys.conns c).ledger.read)
    (hands : ∀ c, (sys'.conns c).ledger.hands ⊆ (sys'.conns c).ledger.read)
    (pushed : ∀ c, ∀ id ∈ (sys'.conns c).ledger.pushed, id ∈ (sys.conns c).ledger.pushed ∨
      ∃ row ∈ (sys.conns c).ledger.hands, row.1 = id) : Recorded sys' where
  below row member := by
    rw [next]
    exact recorded.below row (outbox member)
  rows row member := by
    rw [accepted, rowCopy]
    exact (recorded.rows row (outbox member)).grow fun _ same => same
  read c row member := by
    obtain ⟨below, fits⟩ := recorded.read c row (read c member)
    rw [accepted, rowCopy, next]
    exact ⟨below, fits.grow (users c)⟩
  hands := hands
  pushed c id member := by
    rw [next]
    rcases pushed c id member with before | ⟨row, held, rfl⟩
    · exact recorded.pushed c id before
    · exact recorded.handsBelow held
  copied r i same := by
    rw [rowCopy] at same
    rw [next, accepted, List.length_append]
    exact (recorded.copied r i same).imp_right (Nat.lt_add_right _)
  mono := by
    rw [rowCopy]
    exact recorded.mono

/-- A flush reads its rows. -/
theorem Recorded.readRows {sys sys' : System} (recorded : Recorded sys) {c : Nat}
    {username : String}
    (user : (sys.conns c).ledger.user = some username) (store : sys'.store = sys.store)
    (accepted : sys'.accepted = sys.accepted) (rowCopy : sys'.rowCopy = sys.rowCopy)
    (own : (sys'.conns c).ledger = { (sys.conns c).ledger with
      read := sys.store.pendingFrames username
      hands := sys.store.pendingFrames username
      pushed := [] })
    (others : ∀ other, other ≠ c → (sys'.conns other).ledger = (sys.conns other).ledger) :
    Recorded sys' where
  below := by
    rw [store]
    exact recorded.below
  rows := by
    rw [store, accepted, rowCopy]
    exact recorded.rows
  read := by
    intro d row member
    rw [store, accepted, rowCopy]
    by_cases mine : d = c
    · subst mine
      rw [own] at member ⊢
      obtain ⟨found, stored, rfl, rfl⟩ := pendingFrames_row member
      refine ⟨recorded.below found stored, ?_⟩
      rw [show (sys.conns d).ledger.user = some found.recipient from user]
      exact recorded.rows found stored
    · rw [others d mine] at member ⊢
      exact recorded.read d row member
  hands := by
    intro d
    by_cases mine : d = c
    · subst mine
      rw [own]
      exact List.Subset.refl _
    · rw [others d mine]
      exact recorded.hands d
  pushed := by
    intro d id member
    rw [store]
    by_cases mine : d = c
    · subst mine
      rw [own] at member
      exact absurd member List.not_mem_nil
    · rw [others d mine] at member
      exact recorded.pushed d id member
  copied := by
    rw [store, accepted, rowCopy]
    exact recorded.copied
  mono := by
    rw [rowCopy]
    exact recorded.mono

/-- A frame is stored. -/
theorem Recorded.stored {sys sys' : System} (recorded : Recorded sys) {c : Nat} {recipient : String}
    {bytes : Bytes} {ts : Int} (parses : readFrame bytes ≠ none)
    (store : sys'.store = sys.store.append recipient bytes ts)
    (accepted : sys'.accepted = sys.accepted ++ [⟨c, recipient, readFrame bytes⟩])
    (rowCopy : sys'.rowCopy =
      Function.update sys.rowCopy sys.store.nextOutboxId (some sys.accepted.length))
    (ledgers : ∀ d, (sys'.conns d).ledger = (sys.conns d).ledger) : Recorded sys' := by
  have next : sys'.store.nextOutboxId = sys.store.nextOutboxId + 1 := by rw [store]; rfl
  have old : ∀ r, r < sys.store.nextOutboxId → sys'.rowCopy r = sys.rowCopy r := by
    intro r below
    rw [rowCopy, Function.update_of_ne (Nat.ne_of_lt below)]
  have new : sys'.rowCopy sys.store.nextOutboxId = some sys.accepted.length := by
    rw [rowCopy, Function.update_self]
  have split : ∀ r i, sys'.rowCopy r = some i →
      r = sys.store.nextOutboxId ∧ i = sys.accepted.length ∨
        r < sys.store.nextOutboxId ∧ sys.rowCopy r = some i := by
    intro r i same
    by_cases fresh : r = sys.store.nextOutboxId
    · subst fresh
      rw [new] at same
      exact .inl ⟨rfl, (Option.some.inj same).symm⟩
    · rw [rowCopy, Function.update_of_ne fresh] at same
      exact .inr ⟨(recorded.copied r i same).1, same⟩
  refine ⟨fun row member => ?_, fun row member => ?_, fun d row member => ?_, fun d => ?_,
    fun d id member => ?_, fun r i same => ?_, fun r r' i i' same same' less => ?_⟩
  · rw [next]
    rw [store] at member
    rcases List.mem_append.mp member with member | member
    · exact Nat.lt_succ_of_lt (recorded.below row member)
    · rw [List.mem_singleton.mp member]
      exact Nat.lt_succ_self _
  · rw [store] at member
    rcases List.mem_append.mp member with member | member
    · rw [old _ (recorded.below row member), accepted]
      exact (recorded.rows row member).grow fun _ same => same
    · rw [List.mem_singleton.mp member, new, accepted]
      intro i same
      cases same
      exact ⟨⟨_, List.getElem?_concat_length, rfl, rfl⟩, parses⟩
  · rw [ledgers] at member ⊢
    obtain ⟨below, fits⟩ := recorded.read d row member
    rw [next, old _ below, accepted]
    exact ⟨Nat.lt_succ_of_lt below, fits.grow fun _ same => same⟩
  · rw [ledgers]
    exact recorded.hands d
  · rw [ledgers] at member
    rw [next]
    exact Nat.lt_succ_of_lt (recorded.pushed d id member)
  · rw [next, accepted, List.length_append]
    rcases split r i same with ⟨rfl, rfl⟩ | ⟨_, before⟩
    · exact ⟨Nat.lt_succ_self _, Nat.lt_succ_self _⟩
    · obtain ⟨row, copy⟩ := recorded.copied r i before
      exact ⟨Nat.lt_succ_of_lt row, Nat.lt_succ_of_lt copy⟩
  · rcases split r i same with ⟨rfl, rfl⟩ | ⟨_, before⟩
    · rcases split r' i' same' with ⟨rfl, rfl⟩ | ⟨below, _⟩
      · exact absurd less (Nat.lt_irrefl _)
      · exact absurd (Nat.lt_trans less below) (Nat.lt_irrefl _)
    · rcases split r' i' same' with ⟨rfl, rfl⟩ | ⟨_, before'⟩
      · exact (recorded.copied r i before).2
      · exact recorded.mono r r' i i' before before' less

/-- Only these requests change what a flush has in hand. -/
def Ask.Flushes : Ask → Prop
  | .call (.pendingFrames _) | .call (.deleteFrames _) | .sendWait _ => True
  | _ => False

/-- What a flush has in hand. -/
def Ledger.flush (l : Ledger) : List (Nat × Bytes) × List (Nat × Bytes) × List Nat :=
  (l.read, l.hands, l.pushed)

theorem after_flush {request : Ask} (other : ¬ request.Flushes) (answer : request.Answer)
    (l : Ledger) :
    (l.after request answer).flush = l.flush := by
  cases request with
  | call op => cases op <;> first | rfl | exact absurd trivial other
  | sendWait msg => exact absurd trivial other
  | _ => rfl

section

variable {c : Nat} {request : Ask} {sys sys' : System} {answer : request.Answer}

theorem onSystem_flush (made : request.onSystem c sys answer sys') (other : ¬ request.Flushes)
    (d : Nat) :
    (sys'.conns d).ledger.flush = (sys.conns d).ledger.flush := by
  by_cases mine : d = c
  · subst mine
    rw [Ask.onSystem_own made]
    exact after_flush other answer _
  · rw [Ask.onSystem_other made _ mine]

theorem onSystem_hands (made : request.onSystem c sys answer sys') (other : ¬ request.Flushes)
    (d : Nat) :
    (sys'.conns d).ledger.hands = (sys.conns d).ledger.hands :=
  congrArg (fun flush => flush.2.1) (onSystem_flush made other d)

theorem onSystem_pushed (made : request.onSystem c sys answer sys') (other : ¬ request.Flushes)
    (d : Nat) : (sys'.conns d).ledger.pushed = (sys.conns d).ledger.pushed :=
  congrArg (fun flush => flush.2.2) (onSystem_flush made other d)

/-- A request that is none of a flush and stores no row. -/
theorem Recorded.other (recorded : Recorded sys) (demanded : (sys.conns c).ledger.Demands c request)
    (other : ¬ request.Flushes) (made : request.onSystem c sys answer sys')
    (outbox : sys'.store.outbox = sys.store.outbox)
    (next : sys'.store.nextOutboxId = sys.store.nextOutboxId) {more : List Copy}
    (accepted : sys'.accepted = sys.accepted ++ more) (rowCopy : sys'.rowCopy = sys.rowCopy) :
    Recorded sys' := by
  have read : ∀ d, (sys'.conns d).ledger.read = (sys.conns d).ledger.read :=
    fun d => congrArg Prod.fst (onSystem_flush made other d)
  have hands := onSystem_hands made other
  have pushed := onSystem_pushed made other
  refine recorded.keep (outbox ▸ List.Subset.refl _) next accepted rowCopy
    (fun d u => onSystem_user demanded made) (fun d => ?_) (fun d => ?_) fun d id member => ?_
  · rw [read]
    exact List.Subset.refl _
  · rw [read, hands]
    exact recorded.hands d
  · rw [pushed] at member
    exact .inl member

theorem Recorded.act (recorded : Recorded sys) (demanded : (sys.conns c).ledger.Demands c request)
    (made : request.onSystem c sys answer sys') : Recorded sys' := by
  have own := Ask.onSystem_own made
  have others := Ask.onSystem_other made
  have users := fun d u => onSystem_user (d := d) (u := u) demanded made
  have whole := made
  obtain ⟨mid, made, rfl⟩ := made
  cases request with
  | call op =>
      by_cases outboxOp : op.OutboxOp
      · cases op with
        | enqueue recipient bytes ts =>
            have made : (answer, mid) = sys.enqueue c recipient bytes ts := made
            have parses : readFrame bytes ≠ none := by
              obtain ⟨⟨frame, inRange, rfl⟩, _⟩ := demanded
              rw [readFrame_writeFrame frame inRange]
              exact nofun
            rcases sys.enqueue_cases c recipient bytes ts with result | result
            · rw [result] at made
              obtain ⟨_, rfl⟩ := Prod.mk.inj made
              exact recorded.other demanded id whole rfl rfl (List.append_nil _).symm rfl
            · rw [result] at made
              obtain ⟨_, rfl⟩ := Prod.mk.inj made
              refine recorded.stored parses rfl rfl rfl fun d => ?_
              by_cases mine : d = c
              · subst mine
                rw [own]
                rfl
              · exact others d mine
        | deleteFrames ids =>
            obtain ⟨rfl, rfl⟩ := made
            refine recorded.keep (m := []) List.filter_sublist.subset rfl (List.append_nil _).symm
              rfl users
              (each c ?_ fun d other => ?_) (each c ?_ fun d other => ?_)
              (each c ?_ fun d other id member => ?_)
            · rw [own]
              exact List.nil_subset _
            · rw [others d other]
              exact List.Subset.refl _
            · rw [own]
              exact List.Subset.refl _
            · rw [others d other]
              exact recorded.hands d
            · rw [own]
              exact nofun
            · rw [others d other] at member
              exact .inl member
        | _ => exact outboxOp.elim
      · obtain ⟨outbox, next⟩ := exec_outbox outboxOp sys.store
        cases op with
        | pendingFrames username =>
            obtain ⟨rfl, rfl⟩ := made
            exact recorded.readRows demanded.1 rfl rfl rfl own others
        | enqueue recipient frame ts => exact absurd trivial outboxOp
        | deleteFrames ids => exact absurd trivial outboxOp
        | _ =>
            obtain ⟨rfl, rfl⟩ := made
            exact recorded.other demanded id whole outbox next (List.append_nil _).symm rfl
  | sendWait msg =>
      obtain ⟨_, made⟩ := made
      obtain ⟨id, frame, rest, next, rfl⟩ := demanded
      rcases sys.pushRow_cases c (.deliver frame) with ⟨_, result⟩ | ⟨_, result⟩
      · rw [result] at made
        obtain ⟨rfl, rfl⟩ := Prod.mk.inj made
        refine recorded.keep (m := []) (List.Subset.refl _) rfl (List.append_nil _).symm rfl users
          (each c ?_ fun d other => ?_) (each c ?_ fun d other => ?_)
            (each c ?_ fun d other id member => ?_)
        · rw [own]
          exact List.Subset.refl _
        · rw [others d other]
          exact List.Subset.refl _
        · rw [own]
          exact List.nil_subset _
        · rw [others d other]
          exact recorded.hands d
        · rw [own]
          exact fun id member => .inl member
        · rw [others d other] at member
          exact .inl member
      · rw [result] at made
        obtain ⟨rfl, rfl⟩ := Prod.mk.inj made
        obtain ⟨before, bytes, split, _⟩ := nextFrame_split next
        rw [Ledger.after, next] at own
        refine recorded.keep (m := []) (List.Subset.refl _) rfl (List.append_nil _).symm rfl users
          (each c ?_ fun d other => ?_) (each c ?_ fun d other => ?_)
            (each c ?_ fun d other id member => ?_)
        · rw [own]
          exact List.Subset.refl _
        · rw [others d other]
          exact List.Subset.refl _
        · rw [own]
          intro row member
          refine recorded.hands c ?_
          rw [split]
          exact List.mem_append_right _ (List.mem_cons_of_mem _ member)
        · rw [others d other]
          exact recorded.hands d
        · rw [own]
          intro other member
          rcases List.mem_append.mp member with member | member
          · exact .inl member
          · rw [List.mem_singleton.mp member, split]
            exact .inr ⟨(id, bytes), List.mem_append_right _ List.mem_cons_self, rfl⟩
        · rw [others d other] at member
          exact .inl member
  | trySend msg =>
      have made : (answer, mid) = sys.offer c ⟨msg, none, none⟩ := made
      rcases sys.offer_cases c ⟨msg, none, none⟩ with result | ⟨_, result⟩ <;>
      · rw [result] at made
        obtain ⟨_, rfl⟩ := Prod.mk.inj made
        exact recorded.other demanded id whole rfl rfl (List.append_nil _).symm rfl
  | push conn msg =>
      have made : (answer, mid) = sys.pushCopy c conn msg := made
      rcases sys.pushCopy_cases c conn msg with result | ⟨_, result⟩
      · rw [result] at made
        obtain ⟨_, rfl⟩ := Prod.mk.inj made
        exact recorded.other demanded id whole rfl rfl (List.append_nil _).symm rfl
      · rw [result] at made
        obtain ⟨_, rfl⟩ := Prod.mk.inj made
        exact recorded.other demanded id whole rfl rfl rfl rfl
  | now =>
      obtain ⟨_, rfl⟩ := made
      exact recorded.other demanded id whole rfl rfl (List.append_nil _).symm rfl
  | _ =>
      obtain rfl : mid = sys := made
      exact recorded.other demanded id whole rfl rfl (List.append_nil _).symm rfl

end

/-! ### Entries -/

section

variable {c : Nat} {request : Ask} {sys mid : System} {answer : request.Answer}

/-- A request that gives nobody anything to write. -/
theorem Carried.same (carried : Carried sys) (demanded : (sys.conns c).ledger.Demands c request)
    (made : request.onSystem c sys answer (mid.note c request answer)) {more : List Copy}
    (accepted : mid.accepted = sys.accepted ++ more) (conns : mid.conns = sys.conns)
    (written : mid.written = sys.written) : Carried (mid.note c request answer) := by
  refine carried.keep accepted (fun d u => onSystem_user demanded made) (fun d dead => ?_)
    (fun d entry member => .inl ?_) fun write member => .inl (written ▸ member)
  · rw [note_alive, conns] at dead
    rw [note_entries, conns]
    exact carried.quiet d dead
  · rw [note_entries, conns] at member
    exact member

/-- A request that gives one connection something to write. -/
theorem Carried.pushed (carried : Carried sys) (demanded : (sys.conns c).ledger.Demands c request)
    (made : request.onSystem c sys answer (mid.note c request answer)) {base : System} {d : Nat}
    {entry : Entry} {more : List Copy} (pushed : mid = base.push d entry)
    (accepted : base.accepted = sys.accepted ++ more) (conns : base.conns = sys.conns)
    (written : base.written = sys.written) (alive : (sys.conns d).alive = true)
    (fits : ∀ i, entry.copy = some i →
      Fits base.accepted (sys.conns d).ledger.user (frameOf entry.msg) i) :
    Carried (mid.note c request answer) := by
  have users := fun d u => onSystem_user (d := d) (u := u) demanded made
  subst pushed
  have same : ∀ other, other ≠ d → (((base.push d entry).note c request answer).conns
      other).entries =
      (sys.conns other).entries := by
    intro other different
    rw [note_entries, push_entries_of_ne _ _ different, conns]
  have own : (((base.push d entry).note c request answer).conns d).entries =
      (sys.conns d).entries ++ [entry] := by rw [note_entries, push_entries, conns]
  refine carried.keep accepted users (each d (fun dead => ?_) fun other different dead => ?_)
    (each d (fun found member => ?_) fun other different found member => .inl ?_)
    fun write member => .inl (written ▸ member)
  · rw [note_alive, push_alive, conns, alive] at dead
    cases dead
  · rw [note_alive, push_alive, conns] at dead
    rw [same other different]
    exact carried.quiet other dead
  · rw [own] at member
    rcases List.mem_append.mp member with member | member
    · exact .inl member
    · rw [List.mem_singleton.mp member]
      refine .inr fun i copy => ?_
      have grown := (fits i copy).grow (m := []) (users d)
      rw [List.append_nil] at grown
      exact grown
  · rw [same other different] at member
    exact member

theorem Carried.act {sys' : System} (carried : Carried sys) (addressed : Addressed sys)
    (recorded : Recorded sys) (demanded : (sys.conns c).ledger.Demands c request)
    (made : request.onSystem c sys answer sys') : Carried sys' := by
  have whole := made
  obtain ⟨mid, made, rfl⟩ := made
  cases request with
  | call op =>
      cases op with
      | enqueue recipient bytes ts =>
          have made : (answer, mid) = sys.enqueue c recipient bytes ts := made
          rcases sys.enqueue_cases c recipient bytes ts with result | result
          · rw [result] at made
            obtain ⟨_, rfl⟩ := Prod.mk.inj made
            exact carried.same demanded whole (List.append_nil _).symm rfl rfl
          · rw [result] at made
            obtain ⟨_, rfl⟩ := Prod.mk.inj made
            exact carried.same demanded whole rfl rfl rfl
      | _ =>
          obtain ⟨_, rfl⟩ := made
          exact carried.same demanded whole (List.append_nil _).symm rfl rfl
  | sendWait msg =>
      obtain ⟨id, frame, rest, next, rfl⟩ := demanded
      have demanded : (sys.conns c).ledger.Demands c (.sendWait (.deliver frame)) :=
        ⟨id, frame, rest, next, rfl⟩
      have made : (answer, mid) = sys.pushRow c (.deliver frame) := made.2
      rcases sys.pushRow_cases c (.deliver frame) with ⟨_, result⟩ | ⟨alive, result⟩
      · rw [result] at made
        obtain ⟨_, rfl⟩ := Prod.mk.inj made
        exact carried.same demanded whole (List.append_nil _).symm rfl rfl
      · rw [result] at made
        obtain ⟨_, rfl⟩ := Prod.mk.inj made
        refine carried.pushed demanded whole rfl (List.append_nil _).symm rfl rfl alive
          fun i copy => ?_
        obtain ⟨before, bytes, split, parses, _⟩ := nextFrame_split next
        have row : sys.nextRow c = some id := by
          rw [System.nextRow, next]
          rfl
        rw [row] at copy
        have inHands : (id, bytes) ∈ (sys.conns c).ledger.hands := by
          rw [split]
          exact List.mem_append_right _ List.mem_cons_self
        have fits := ((recorded.read c _ (recorded.hands c inHands)).2 i copy).1
        rw [parses] at fits
        exact fits
  | trySend msg =>
      have made : (answer, mid) = sys.offer c ⟨msg, none, none⟩ := made
      rcases sys.offer_cases c ⟨msg, none, none⟩ with result | ⟨room, result⟩
      · rw [result] at made
        obtain ⟨_, rfl⟩ := Prod.mk.inj made
        exact carried.same demanded whole (List.append_nil _).symm rfl rfl
      · rw [result] at made
        obtain ⟨_, rfl⟩ := Prod.mk.inj made
        exact carried.pushed demanded whole rfl (List.append_nil _).symm rfl rfl room.1 nofun
  | push conn msg =>
      obtain ⟨recipient, routed⟩ := demanded
      have demanded : (sys.conns c).ledger.Demands c (.push conn msg) := ⟨recipient, routed⟩
      have made : (answer, mid) = sys.pushCopy c conn msg := made
      rcases sys.pushCopy_cases c conn msg with result | ⟨room, result⟩
      · rw [result] at made
        obtain ⟨_, rfl⟩ := Prod.mk.inj made
        exact carried.same demanded whole (List.append_nil _).symm rfl rfl
      · rw [result] at made
        obtain ⟨_, rfl⟩ := Prod.mk.inj made
        refine carried.pushed demanded whole rfl rfl rfl rfl room.1 fun i copy => ?_
        cases copy
        refine ⟨⟨c, sys.routedTo c, frameOf msg⟩, List.getElem?_concat_length, ?_, rfl⟩
        rw [addressed.routed c recipient conn routed, System.routedTo, routed]
        rfl
  | now =>
      obtain ⟨_, rfl⟩ := made
      exact carried.same demanded whole (List.append_nil _).symm rfl rfl
  | _ =>
      obtain rfl : mid = sys := made
      exact carried.same demanded whole (List.append_nil _).symm rfl rfl

end

/-! ### All three -/

structure Traced (sys : System) : Prop where
  addressed : Addressed sys
  recorded : Recorded sys
  carried : Carried sys

theorem Traced.act {c : Nat} {request : Ask} {sys sys' : System} {answer : request.Answer}
    (traced : Traced sys) (demanded : (sys.conns c).ledger.Demands c request)
    (made : request.onSystem c sys answer sys') : Traced sys' where
  addressed := traced.addressed.act demanded made
  recorded := traced.recorded.act demanded made
  carried := traced.carried.act traced.addressed traced.recorded demanded made

/-- Nothing is accepted, and no task learns anything. -/
theorem Traced.keep {sys sys' : System} (traced : Traced sys)
    (ledgers : ∀ d, (sys'.conns d).ledger = (sys.conns d).ledger)
    (online : sys'.store.online = sys.store.online) (outbox : sys'.store.outbox ⊆ sys.store.outbox)
    (next : sys'.store.nextOutboxId = sys.store.nextOutboxId)
      (accepted : sys'.accepted = sys.accepted)
    (rowCopy : sys'.rowCopy = sys.rowCopy)
    (quiet : ∀ c, (sys'.conns c).alive = false → (sys'.conns c).entries = [])
    (entries : ∀ c, (sys'.conns c).entries ⊆ (sys.conns c).entries)
    (written : ∀ write ∈ sys'.written, write ∈ sys.written ∨
      write.2 ∈ (sys.conns write.1).entries) : Traced sys' where
  addressed := by
    refine ⟨fun u c => ?_, fun c u other => ?_⟩
    · rw [online, ledgers]
      exact traced.addressed.online u c
    · rw [ledgers, ledgers]
      exact traced.addressed.routed c u other
  recorded := by
    refine traced.recorded.keep (m := []) outbox next (accepted.trans
      (List.append_nil _).symm) rowCopy
      (fun d u => ?_) (fun d => ?_) (fun d => ?_) fun d id member => .inl ?_
    · rw [ledgers]
      exact id
    · rw [ledgers]
      exact List.Subset.refl _
    · rw [ledgers]
      exact traced.recorded.hands d
    · rw [ledgers] at member
      exact member
  carried := by
    refine traced.carried.keep (accepted.trans (List.append_nil _).symm) (fun d u => ?_) quiet
      (fun d entry member => .inl (entries d member)) written
    rw [ledgers]
    exact id

theorem Traced.lives {sys : System} (traced : Traced sys) (c : Nat) (life : Life)
    (state : ConnState) :
    Traced (sys.update c fun conn => { conn with life := life, state := state }) := by
  refine traced.keep (sys.update_keeps c Conn.ledger rfl) rfl (List.Subset.refl _) rfl rfl rfl
    (fun d => ?_)
    (fun d => ?_) fun write => .inl
  · rw [sys.update_keeps c Conn.alive rfl, sys.update_keeps c Conn.entries rfl]
    exact traced.carried.quiet d
  · rw [sys.update_keeps c Conn.entries rfl]
    exact List.Subset.refl _

theorem Traced.drift {rules : Rules} {sys sys' : System} (traced : Traced sys)
    (drifts : Drift rules sys sys') : Traced sys' := by
  -- One connection changes what it has to write, and what it wrote was that.
  have one : ∀ {c : Nat} {f : Conn → Conn} {w : List (Nat × Entry)},
      (f (sys.conns c)).ledger = (sys.conns c).ledger →
      ((f (sys.conns c)).alive = false → (f (sys.conns c)).entries = []) →
      (f (sys.conns c)).entries ⊆ (sys.conns c).entries →
      (∀ write ∈ w, write.1 = c ∧ write.2 ∈ (sys.conns c).entries) →
      Traced { sys.update c f with written := sys.written ++ w } := by
    intro c f w ledger quiet entries written
    refine traced.keep (sys.update_keeps c Conn.ledger ledger) rfl (List.Subset.refl _) rfl rfl rfl
      (each c (fun dead => ?_) fun d other dead => ?_) (each c ?_ fun d other => ?_)
      fun write member => (List.mem_append.mp member).imp_right fun new => ?_
    · show ((sys.update c f).conns c).entries = []
      have dead : ((sys.update c f).conns c).alive = false := dead
      rw [System.update_self] at dead ⊢
      exact quiet dead
    · show ((sys.update c f).conns d).entries = []
      have dead : ((sys.update c f).conns d).alive = false := dead
      rw [System.update_of_ne _ _ other] at dead ⊢
      exact traced.carried.quiet d dead
    · show ((sys.update c f).conns c).entries ⊆ _
      rw [System.update_self]
      exact entries
    · show ((sys.update c f).conns d).entries ⊆ _
      rw [System.update_of_ne _ _ other]
      exact List.Subset.refl _
    · rw [(written write new).1]
      exact (written write new).2
  cases drifts with
  | @accept c fresh =>
      have updated := one (c := c) (f := fun conn => { conn with life := .open, alive := true })
        (w := []) rfl nofun (List.Subset.refl _) nofun
      rw [List.append_nil] at updated
      exact updated
  | @take c entry rest alive idle first =>
      have entries : (sys.conns c).entries = entry :: rest := by rw [Conn.entries, idle, first]; rfl
      have updated := one (c := c)
        (f := fun conn => { conn with chan := rest, writing := some entry }) (w := []) rfl
        (fun dead => absurd (alive.symm.trans dead) nofun)
        (by rw [entries]; exact List.Subset.refl _) nofun
      rw [List.append_nil] at updated
      exact updated
  | @write c entry busy =>
      have entries : (sys.conns c).entries = entry :: (sys.conns c).chan := by
        rw [Conn.entries, busy]
        rfl
      refine one (c := c) (f := fun conn => { conn with writing := none }) rfl (fun dead => ?_) ?_
        fun write member => ?_
      · rw [traced.carried.quiet c dead] at entries
        cases entries
      · rw [entries]
        exact List.subset_cons_self _ _
      · rw [List.mem_singleton.mp member, entries]
        exact ⟨rfl, List.mem_cons_self⟩
  | @stop c alive allowed =>
      have updated := one (c := c)
        (f := fun conn => { conn with alive := false, chan := [], writing := none })
        (w := []) rfl (fun _ => rfl) (List.nil_subset _) nofun
      rw [List.append_nil] at updated
      exact updated
  | prune =>
      exact traced.keep (fun _ => rfl) rfl List.filter_sublist.subset rfl rfl rfl
        traced.carried.quiet
        (fun _ => List.Subset.refl _) fun write => .inl

theorem Traced.initial {store : Store} (below : ∀ row ∈ store.outbox, row.id < store.nextOutboxId) :
    Traced (.initial store) where
  addressed := by
    refine ⟨fun u c online => ?_, fun _ _ _ => nofun⟩
    have online : (∅ : Table String Nat).get u = some c := online
    rw [Table.get_empty] at online
    cases online
  recorded := by
    refine ⟨below, fun _ _ _ => nofun, fun _ => nofun, fun _ => List.Subset.refl _, fun _ => nofun,
      fun _ _ => nofun, fun _ _ _ _ => nofun⟩
  carried := ⟨fun _ _ => rfl, fun _ => nofun, nofun⟩

end

end Cherm.Relay
