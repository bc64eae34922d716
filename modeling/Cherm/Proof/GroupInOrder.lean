/-
**A group message arrives: everyone shows what each of the others wrote.**

The members of a group each have a session of their own for it, and everyone else's. They write and
take each other's frames in any order; whatever else they do leaves the group alone. `Broadcasts` is
what Megolm promises of a session and one that was made from its key.

* `Tuned.writes` and `Tuned.reads`: everyone stays tuned in to everyone else, and the replay guard of
  each lets through what comes up next.
* `group_step`: a step of the members is a step of a conversation, or none.
* `group_in_order`: so what a member has of another's texts is what the other wrote, in order, up to
  the frames that are on their way.
-/

import Cherm.Client.Network
import Cherm.Ideal

namespace Cherm

open Crates Client

section

variable [Crates]

/-! ### What Megolm promises -/

/-- A session, one that reads it, the last index that was read, and the messages on their way with
what they hold. What is written next can be read next, under an index that is new. -/
structure Broadcasts
    (InTune : GroupSender → GroupReceiver → Option Nat → List (Bytes × Bytes) → Prop) : Prop where
  writes : ∀ sender receiver last out, InTune sender receiver last out → ∀ plaintext,
    InTune (sender.encrypt plaintext).2 receiver last
      (out ++ [((sender.encrypt plaintext).1, plaintext)])
  reads : ∀ sender receiver last body plaintext out,
    InTune sender receiver last ((body, plaintext) :: out) →
    ∃ (index : Nat) (receiver' : GroupReceiver),
      groupDecrypt receiver body = .ok (plaintext, index, receiver') ∧
        receiver'.sessionId = receiver.sessionId ∧ (∀ max, last = some max → max < index) ∧
        InTune sender receiver' (some index) out

/-! ### The members -/

/-- A text on its way to a member. -/
structure GroupLetter where
  body : Bytes
  text : String
  ts : Int

/-- What is shown of a letter. -/
def GroupLetter.words (letter : GroupLetter) : Words := (letter.text, letter.ts)

/-- What is read of a letter. -/
def GroupLetter.parcel (letter : GroupLetter) : Bytes × Bytes := (letter.body, utf8 letter.text)

variable {P : Type} [DecidableEq P]

/-- The members of a group. -/
def membership (name : P → String) (distinct : Function.Injective name) (id : String) : Cast P where
  name := name
  chat _ := id
  distinct := distinct

/-- What the rest of a client's doings leaves of a group: the name, the chat with its messages and
roster, our session, everyone else's, and the replay guard. -/
def SparesGroup (id : String) (_ : P) (v v' : Vault) : Prop :=
  v'.metaGet "username" = v.metaGet "username" ∧
    ∀ part ∈ [VaultPart.chats, .messages, .chatMembers, .groupOut, .groupIn, .megolmSeen],
      part.SameAt id v v'

/-- The last index read of a session. -/
def lastRead (v : Vault) (id sender : String) (receiver : GroupReceiver) : Option Nat :=
  v.megolmSeen.get (id, sender, receiver.sessionId)

variable {InTune : GroupSender → GroupReceiver → Option Nat → List (Bytes × Bytes) → Prop}
  {name : P → String} {distinct : Function.Injective name} {id : String}

variable (InTune name id) in
/-- Everyone has a session of their own and everyone else's, and everyone else on the roster. -/
structure Tuned (vault : P → Vault) (letters : P → P → List GroupLetter) (sender : P → GroupSender)
    (receiver : P × P → GroupReceiver) : Prop where
  out : ∀ p, (vault p).loadGroupOut id = some (sender p)
  held : ∀ p q, p ≠ q → (vault q).loadGroupIn id (name p) = some (receiver (p, q))
  inTune : ∀ p q, p ≠ q → InTune (sender p) (receiver (p, q))
    (lastRead (vault q) id (name p) (receiver (p, q))) ((letters p q).map GroupLetter.parcel)
  roster : ∀ p q, p ≠ q → name q ∈ (vault p).getMembers id

variable {vault : P → Vault} {letters : P → P → List GroupLetter} {sender : P → GroupSender}
  {receiver : P × P → GroupReceiver} {p : P} {v' : Vault}

/-- What a vault still shows, all of them show. -/
theorem update_shows {β : Type} (f : Vault → β) (same : f v' = f (vault p)) (q : P) :
    f (Function.update vault p v' q) = f (vault q) := by
  by_cases here : q = p
  · subst here
    rw [Function.update_self, same]
  · rw [Function.update_of_ne here]

/-- What leaves the group alone leaves everyone tuned in. -/
theorem Tuned.other (tuned : Tuned InTune name id vault letters sender receiver)
    (spared : SparesGroup id p (vault p) v') :
    Tuned InTune name id (Function.update vault p v') letters sender receiver := by
  have out : v'.loadGroupOut id = (vault p).loadGroupOut id := spared.2 .groupOut (by decide)
  have held : ∀ user, v'.loadGroupIn id user = (vault p).loadGroupIn id user :=
    congrFun (spared.2 .groupIn (by decide))
  have seen : ∀ key, v'.megolmSeen.get (id, key) = (vault p).megolmSeen.get (id, key) :=
    congrFun (spared.2 .megolmSeen (by decide))
  have roster : v'.getMembers id = (vault p).getMembers id := spared.2 .chatMembers (by decide)
  refine ⟨fun q => ?_, fun r q apart => ?_, fun r q apart => ?_, fun r q apart => ?_⟩
  · rw [update_shows (·.loadGroupOut id) out, tuned.out]
  · rw [update_shows (·.loadGroupIn id (name r)) (held _), tuned.held r q apart]
  · rw [update_shows (fun v => lastRead v id (name r) (receiver (r, q))) (seen _)]
    exact tuned.inTune r q apart
  · rw [update_shows (·.getMembers id) roster]
    exact tuned.roster r q apart

/-- A text of a member is a message for everyone else. -/
theorem Tuned.writes (laws : Broadcasts InTune)
    (tuned : Tuned InTune name id vault letters sender receiver) (text : String) (ts : Int)
    (out : v'.loadGroupOut id = some ((sender p).encrypt (utf8 text)).2)
    (beside : ∀ part ∈ [VaultPart.chatMembers, .groupIn, .megolmSeen],
      part.SameAt id (vault p) v') :
    Tuned InTune name id (Function.update vault p v')
      (Talk.posted p ⟨((sender p).encrypt (utf8 text)).1, text, ts⟩ letters)
      (Function.update sender p ((sender p).encrypt (utf8 text)).2) receiver := by
  have held : ∀ user, v'.loadGroupIn id user = (vault p).loadGroupIn id user :=
    congrFun (beside .groupIn (by decide))
  have seen : ∀ key, v'.megolmSeen.get (id, key) = (vault p).megolmSeen.get (id, key) :=
    congrFun (beside .megolmSeen (by decide))
  have roster : v'.getMembers id = (vault p).getMembers id := beside .chatMembers (by decide)
  refine ⟨fun q => ?_, fun r q apart => ?_, fun r q apart => ?_, fun r q apart => ?_⟩
  · by_cases same : q = p
    · subst same
      rw [Function.update_self, Function.update_self, out]
    · rw [Function.update_of_ne same, Function.update_of_ne same, tuned.out]
  · rw [update_shows (·.loadGroupIn id (name r)) (held _), tuned.held r q apart]
  · rw [update_shows (fun v => lastRead v id (name r) (receiver (r, q))) (seen _)]
    by_cases same : r = p
    · subst same
      rw [Function.update_self, Talk.posted_other apart, List.map_append]
      exact laws.writes _ _ _ _ (tuned.inTune r q apart) _
    · rw [Function.update_of_ne same, Talk.posted_of_ne same]
      exact tuned.inTune r q apart
  · rw [update_shows (·.getMembers id) roster]
    exact tuned.roster r q apart

/-! ### The replay guard -/

/-- The index is the last one read of the session. -/
def withIndex (v : Vault) (id sender : String) (receiver : GroupReceiver) (index : Nat) : Vault :=
  { v with megolmSeen := v.megolmSeen.put (id, sender, receiver.sessionId) index }

theorem megolmAccept_above {v : Vault} {sender : String} {receiver : GroupReceiver} {index : Nat}
    (above : ∀ max, lastRead v id sender receiver = some max → max < index) :
    v.megolmAccept id sender receiver.sessionId index =
      (true, withIndex v id sender receiver index) := by
  unfold lastRead at above
  unfold Vault.megolmAccept
  cases found : v.megolmSeen.get (id, sender, receiver.sessionId) with
  | none => rfl
  | some max => exact if_neg (Nat.not_le_of_lt (above max found))

/-- A text of a member, in the group. -/
def withGroupText (v : Vault) (id sender : String) (receiver : GroupReceiver) (index : Nat)
    (text : String) (ts recvTs : Int) : Vault :=
  ((withIndex v id sender receiver index).saveGroupIn id sender receiver).insertMessage id sender
    text ts false recvTs

/-- What comes up is read and put into the group, and everyone stays tuned in. -/
theorem Tuned.reads (laws : Broadcasts InTune)
    (tuned : Tuned InTune name id vault letters sender receiver)
    (distinct : Function.Injective name) {q : P} (apart : p ≠ q) {letter : GroupLetter}
    {later : List GroupLetter} (first : letters p q = letter :: later) :
    ∃ (index : Nat) (receiver' : GroupReceiver),
      groupDecrypt (receiver (p, q)) letter.body = .ok (utf8 letter.text, index, receiver') ∧
      (vault q).megolmAccept id (name p) receiver'.sessionId index =
        (true, withIndex (vault q) id (name p) receiver' index) ∧
      ∀ recvTs, Tuned InTune name id (Function.update vault q
        (withGroupText (vault q) id (name p) receiver' index letter.text letter.ts recvTs))
        (Talk.taken p q later letters) sender (Function.update receiver (p, q) receiver') := by
  have before := tuned.inTune p q apart
  rw [first] at before
  obtain ⟨index, receiver', read, session, above, after⟩ := laws.reads _ _ _ _ _ _ before
  have shown : ∀ recvTs r s, (r, s) ≠ (p, q) → ∀ {β : Type} (f : Vault → String → β),
      (∀ user, user ≠ name p → f (withGroupText (vault q) id (name p) receiver' index letter.text
        letter.ts recvTs) user = f (vault q) user) →
      f (Function.update vault q (withGroupText (vault q) id (name p) receiver' index letter.text
        letter.ts recvTs) s) (name r) = f (vault s) (name r) := by
    intro recvTs r s other β f same
    by_cases here : s = q
    · subst here
      rw [Function.update_self]
      exact same _ fun named => other (Prod.ext (distinct named) rfl)
    · rw [Function.update_of_ne here]
  refine ⟨index, receiver', read, megolmAccept_above fun max found => ?_,
    fun recvTs => ⟨fun r => ?_, fun r s other => ?_, fun r s other => ?_, fun r s other => ?_⟩⟩
  · rw [lastRead, session] at found
    exact above max found
  · rw [update_shows (·.loadGroupOut id) (by rfl), tuned.out]
  · by_cases here : (r, s) = (p, q)
    · obtain ⟨rfl, rfl⟩ := Prod.mk.inj here
      rw [Function.update_self, Function.update_self]
      exact (Table.get_put _ _ _ _).trans (if_pos rfl)
    · rw [Function.update_of_ne here, ← tuned.held r s other]
      refine shown recvTs r s here (fun v user => v.loadGroupIn id user) fun user apart => ?_
      exact (Table.get_put _ _ _ _).trans (if_neg fun same => apart (Prod.mk.inj same).2)
  · by_cases here : (r, s) = (p, q)
    · obtain ⟨rfl, rfl⟩ := Prod.mk.inj here
      rw [Function.update_self, Function.update_self, Talk.taken_here]
      have last : lastRead (withGroupText (vault s) id (name r) receiver' index letter.text
          letter.ts recvTs) id (name r) receiver' = some index :=
        (Table.get_put _ _ _ _).trans (if_pos rfl)
      rw [last]
      exact after
    · rw [Function.update_of_ne here, Talk.taken_elsewhere fun same => here (Prod.ext same.1 same.2),
        shown recvTs r s here (fun v user => lastRead v id user (receiver (r, s))) fun user apart => ?_]
      · exact tuned.inTune r s other
      · exact (Table.get_put _ _ _ _).trans (if_neg fun same =>
          apart (Prod.mk.inj (Prod.mk.inj same).2).1)
  · rw [update_shows (·.getMembers id) (by rfl)]
    exact tuned.roster r s other

/-! ### The steps of the members -/

/-- The frame a letter travels in. -/
def GroupLetter.frame (name : P → String) (id : String) (p : P) (letter : GroupLetter) : Incoming :=
  groupFrame (name p) id letter.body letter.ts

variable (InTune name distinct id) in
/-- Everyone is tuned in to everyone else, and what is on its way are letters. -/
structure InGroup (n : Network P) (letters : P → P → List GroupLetter) : Prop where
  tuned : ∃ sender receiver, Tuned InTune name id n.vault letters sender receiver
  room : Network.Room (membership name distinct id) "group" (GroupLetter.frame name id) n letters

/-- The conversation of the members. -/
abbrev groupTalk (name : P → String) (distinct : Function.Injective name) (id : String)
    (n : Network P) (letters : P → P → List GroupLetter) : Talk P Words :=
  n.talk (membership name distinct id) GroupLetter.words letters

variable {allow : P → (asked : Ask) → asked.Answer → Prop}

/-- **A step of the members is a step of a conversation**, or none. -/
theorem group_step (laws : Broadcasts InTune)
    (posts : ∀ p msg answer, allow p (.post msg) answer → answer = .ok ())
    {n n' : Network P} {letters : P → P → List GroupLetter}
    (inGroup : InGroup InTune name distinct id n letters)
    (next : Network.Next (membership name distinct id) allow (SparesGroup id) n n') :
    ∃ letters', InGroup InTune name distinct id n' letters' ∧
      Relation.ReflTransGen Talk.Next (groupTalk name distinct id n letters)
        (groupTalk name distinct id n' letters') := by
  obtain ⟨sender, receiver, tuned⟩ := inGroup.tuned
  have room := inGroup.room
  cases next with
  | @send p app text result v' log runs taken =>
      have ends := Prog.wp_free_iff.mp (wp_send_group (posts p) app (room.named p) (room.kind p)
        (tuned.out p)) _ _ runs
      obtain ⟨-, ⟨rfl, silent⟩ | ⟨session, ts, recvTs, held, same, copied⟩⟩ := ends
      · refine ⟨letters, ?_, ?_⟩
        all_goals rw [Network.unchanged fun q => silent _ _]
        exact inGroup
      · obtain rfl : sender p = session := Option.some.inj ((tuned.out p).symm.trans held)
        dsimp only at same
        refine ⟨Talk.posted p ⟨((sender p).encrypt (utf8 text)).1, text, ts⟩ letters,
          ⟨⟨_, receiver, tuned.writes laws text ts ?_ ?_⟩, ?_⟩, ?_⟩
        · rw [same]
          exact (Table.get_put _ _ _ _).trans (if_pos rfl)
        · rw [same]
          simp only [List.forall_mem_cons]
          exact ⟨rfl, rfl, rfl, fun _ among => absurd among List.not_mem_nil⟩
        · refine room.update ?_ ?_ (room.wire_posted fun q apart => ?_)
          · rw [same]
            exact room.named p
          · rw [same]
            exact room.kind p
          · exact (copied (name q) (distinct.ne apart.symm)).trans (if_pos (tuned.roster p q apart))
        · have said : v'.said ((membership name distinct id).chat p) =
              (n.vault p).said ((membership name distinct id).chat p) ++
                [GroupLetter.words ⟨((sender p).encrypt (utf8 text)).1, text, ts⟩] := by
            rw [same]
            exact Vault.said_insertMessage _ _ _ _ _ _ _
          have heard : ∀ other, v'.heard ((membership name distinct id).chat p) other =
              (n.vault p).heard ((membership name distinct id).chat p) other := by
            intro other
            rw [same]
            exact (Vault.heard_insertMessage _ _ _ _ _ _ _ _).trans (List.append_nil _)
          refine .single ?_
          rw [groupTalk, groupTalk, Network.talk_send said heard]
          exact .say p _ _
  | @receive p q inc rest ctx result v' apart first me runs =>
      obtain ⟨letter, later, waiting, rfl, rfl⟩ := room.first apart first
      obtain ⟨index, receiver', read, accepted, links⟩ := tuned.reads laws distinct apart waiting
      have fresh : ((n.vault q).megolmAccept id (name p) receiver'.sessionId index).1 = true :=
        congrArg Prod.fst accepted
      have frame := fun ctx => @wp_processFrame_group _ (allow q) _ ctx _ _ _ _ letter.ts _ _ _
        (tuned.held p q apart) read fresh
      obtain ⟨-, recvTs, same⟩ := Prog.wp_free_iff.mp (frame ctx) _ _ runs
      rw [accepted] at same
      change v' = withGroupText (n.vault q) id (name p) receiver' index letter.text letter.ts
        recvTs at same
      refine ⟨Talk.taken p q later letters,
        ⟨⟨sender, Function.update receiver (p, q) receiver', ?_⟩, ?_⟩, ?_⟩
      · rw [same]
        exact links recvTs
      · rw [same]
        exact room.update (room.named q) (room.kind q) room.wire_taken
      · have said : v'.said ((membership name distinct id).chat q) =
            (n.vault q).said ((membership name distinct id).chat q) := by
          rw [same]
          exact (Vault.said_insertMessage _ _ _ _ _ _ _).trans (List.append_nil _)
        have heard : ∀ other, v'.heard ((membership name distinct id).chat q) other =
            (n.vault q).heard ((membership name distinct id).chat q) other ++
              if name p = other then [letter.words] else [] := by
          intro other
          rw [same]
          refine (Vault.heard_insertMessage _ _ _ _ _ _ _ _).trans ?_
          simp only [true_and]
          rfl
        refine .single ?_
        rw [groupTalk, groupTalk, Network.talk_receive said heard]
        exact .hear (congrArg (List.map GroupLetter.words) waiting)
  | @other p v' spared =>
      have messages : VaultPart.messages.SameAt id (n.vault p) v' := spared.2 _ (by decide)
      have chats : VaultPart.chats.SameAt id (n.vault p) v' := spared.2 _ (by decide)
      refine ⟨letters, ⟨⟨sender, receiver, tuned.other spared⟩, ?_⟩, ?_⟩
      · exact room.update (spared.1.trans (room.named p))
          (fun row here => room.kind p row (chats.symm.trans here)) room.wire
      · rw [groupTalk, groupTalk, Network.talk_same (Vault.said_same messages) fun _ =>
          Vault.heard_same messages]

/-- **What a member wrote is what each of the others shows.** The members of a group start with
each other's sessions and with nothing on its way. However they write and take frames from then on:
what one shows of another's texts, followed by as many as there are frames on their way between the
two, is what the other shows of its own, each with its time, in that order. -/
theorem group_in_order (laws : Broadcasts InTune)
    (posts : ∀ p msg answer, allow p (.post msg) answer → answer = .ok ())
    {n n' : Network P} (start : InGroup InTune name distinct id n fun _ _ => [])
    (agree : ∀ p q, p ≠ q → (n.vault p).said id = (n.vault q).heard id (name p))
    (run : Relation.ReflTransGen (Network.Next (membership name distinct id) allow (SparesGroup id))
      n n') {p q : P} (apart : p ≠ q) :
    ∃ later, (n'.vault p).said id = (n'.vault q).heard id (name p) ++ later ∧
      later.length = (n'.wire p q).length :=
  Network.in_order (InGroup InTune name distinct id)
    (fun _ _ _ inGroup next => group_step laws posts inGroup next) (fun _ _ inGroup => inGroup.room)
    start agree run apart

end

namespace Ideal

/-! ### A session and those made from its key -/

/-- The messages of a session from an index on. -/
def parcels (session : Nat) : Nat → List Bytes → List (Bytes × Bytes)
  | _, [] => []
  | index, plaintext :: later =>
      (unary session ++ (unary index ++ plaintext), plaintext) :: parcels session (index + 1) later

theorem parcels_append (session index : Nat) (plaintexts : List Bytes) (last : Bytes) :
    parcels session index (plaintexts ++ [last]) = parcels session index plaintexts ++
      [(unary session ++ (unary (index + plaintexts.length) ++ last), last)] := by
  induction plaintexts generalizing index with
  | nil => rfl
  | cons plaintext later ih =>
      rw [List.cons_append, parcels, ih, parcels, List.length_cons, Nat.succ_add_eq_add_succ]
      rfl

/-- What is on its way are the messages of the session from an index on that the receiver can read
and has not. -/
structure Following (sender : GroupSession) (receiver : InboundGroupSession) (last : Option Nat)
    (out : List (Bytes × Bytes)) : Prop where
  same : receiver.id = sender.id
  rest : ∃ index plaintexts, out = parcels sender.id index plaintexts ∧
    index + plaintexts.length = sender.index ∧ receiver.first ≤ index ∧
      ∀ max, last = some max → max < index

/-- **The bookkeeping keeps the promise.** -/
theorem broadcasts : Broadcasts Following where
  writes sender receiver last out following plaintext := by
    obtain ⟨index, plaintexts, rfl, next, readable, unread⟩ := following.rest
    refine ⟨following.same, index, plaintexts ++ [plaintext], ?_, ?_, readable, unread⟩
    · rw [show ((GroupSender.encrypt sender plaintext).2 : GroupSession).id = sender.id from rfl,
        parcels_append, next]
      rfl
    · rw [List.length_append, ← Nat.add_assoc, next]
      rfl
  reads sender receiver last body plaintext out following := by
    obtain ⟨index, plaintexts, parcel, next, readable, unread⟩ := following.rest
    cases plaintexts with
    | nil => cases parcel
    | cons first later =>
        obtain ⟨here, rfl⟩ := List.cons.inj parcel
        obtain ⟨rfl, rfl⟩ := Prod.mk.inj here
        refine ⟨index, receiver, ?_, rfl, unread, following.same, index + 1, later, rfl, ?_,
          Nat.le_succ_of_le readable, ?_⟩
        · refine (orError_eq_ok _ _ _).mpr ?_
          simp [InboundGroupSession.decrypt, following.same, readable]
        · rw [← next, List.length_cons]
          omega
        · rintro _ ⟨⟩
          exact Nat.lt_succ_self _

/-! ### Three friends -/

/-- Three members. -/
inductive Friend where
  | alice
  | bob
  | carol
deriving DecidableEq

namespace Friend

/-- Their names. -/
def name : Friend → String
  | alice => "alice"
  | bob => "bob"
  | carol => "carol"

theorem name_injective : Function.Injective name := by
  intro p q same
  cases p <;> cases q <;> first | rfl | exact absurd same (by decide)

/-- The session of each. -/
def session : Friend → Nat
  | alice => 1
  | bob => 2
  | carol => 3

/-- A member's session, as the others hold it. -/
def receiver (p : Friend) : InboundGroupSession := ⟨p.session, 0⟩

/-- A member's vault, with everyone's session. -/
def vault (p : Friend) : Vault :=
  let chat := (Vault.empty.metaSet "username" p.name).upsertChat "g" "group" "friends" 0
  let joined := ((chat.addMember "g" "alice").addMember "g" "bob").addMember "g" "carol"
  let tuned := ((joined.saveGroupIn "g" "alice" (receiver alice)).saveGroupIn "g" "bob"
    (receiver bob)).saveGroupIn "g" "carol" (receiver carol)
  tuned.saveGroupOut "g" (⟨p.session, 0⟩ : GroupSession)

end Friend

/-- They have each other's sessions, and nobody has written. -/
def friends : Network Friend := ⟨Friend.vault, fun _ _ => []⟩

theorem friends_start :
    InGroup Following Friend.name Friend.name_injective "g" friends fun _ _ => [] := by
  refine ⟨⟨fun p => (⟨p.session, 0⟩ : GroupSession), fun pair => pair.1.receiver, ?_⟩,
    fun _ _ _ => rfl, fun p => ?_, fun p row here => ?_⟩
  · refine ⟨fun p => ?_, fun p q _ => ?_, fun p q _ => ?_, fun p q _ => ?_⟩
    · rfl
    · cases p <;> rfl
    · exact ⟨rfl, 0, [], rfl, rfl, Nat.le_refl 0, fun _ none => by cases none⟩
    · cases p <;> cases q <;> decide +kernel
  · rfl
  · obtain rfl := Option.some.inj here
    rfl

/-- Their steps. -/
abbrev FriendsNext : Network Friend → Network Friend → Prop :=
  Network.Next (membership Friend.name Friend.name_injective "g") (Given fun _ => world)
    (SparesGroup "g")

/-- One of them has sent a text. -/
def friendSends (p : Friend) (text : String) (n : Network Friend) : Network Friend :=
  n.playSend (membership Friend.name Friend.name_injective "g") (fun _ => world) p
    ⟨some "relay", true, "", ""⟩ text

/-- One of them has taken the next frame of another. -/
def friendTakes (p q : Friend) (n : Network Friend) : Network Friend :=
  n.playReceive (fun _ => world) p q ⟨q.name, ""⟩

/-- Alice writes, Bob takes it and answers, and Carol takes the answer before the question. -/
def chatting : Network Friend :=
  friendTakes .bob .carol (friendSends .bob "hello" (friendTakes .alice .bob
    (friendSends .alice "hi" friends)))

/-- Carol shows what Bob wrote. -/
theorem carol_reads : (chatting.vault .carol).heard "g" "bob" = [("hello", 0)] ∧
    ∃ later, (chatting.vault .bob).said "g" = (chatting.vault .carol).heard "g" "bob" ++ later ∧
      later.length = (chatting.wire .bob .carol).length := by
  have asks : FriendsNext friends (friendSends .alice "hi" friends) :=
    Network.next_playSend (by decide +kernel)
  have hears : FriendsNext (friendSends .alice "hi" friends)
      (friendTakes .alice .bob (friendSends .alice "hi" friends)) :=
    Network.next_playReceive (by decide) rfl (by decide +kernel)
  have answers : FriendsNext (friendTakes .alice .bob (friendSends .alice "hi" friends))
      (friendSends .bob "hello" (friendTakes .alice .bob (friendSends .alice "hi" friends))) :=
    Network.next_playSend (by decide +kernel)
  have reads : FriendsNext
      (friendSends .bob "hello" (friendTakes .alice .bob (friendSends .alice "hi" friends)))
      chatting :=
    Network.next_playReceive (p := Friend.bob) (q := Friend.carol) (by decide) rfl (by decide +kernel)
  have run : Relation.ReflTransGen FriendsNext friends chatting :=
    (((Relation.ReflTransGen.single asks).tail hears).tail answers).tail reads
  have agree : ∀ p q, p ≠ q → (friends.vault p).said "g" = (friends.vault q).heard "g" p.name :=
    fun _ _ _ => rfl
  have posts : ∀ p msg answer, Given (fun _ : Friend => world) p (.post msg) answer →
      answer = .ok () := fun _ _ _ same => same
  exact ⟨by decide +kernel,
    group_in_order broadcasts posts friends_start agree run (by decide)⟩

end Ideal

end Cherm
