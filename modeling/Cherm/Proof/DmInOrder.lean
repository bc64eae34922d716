/-
**A DM arrives: each end shows what the other wrote.**

Two clients, with a session between them or with one that the first of them has just opened. They
write to each other and take each other's frames in any order; whatever else they do leaves the DM
alone. `Ratchets` is what Olm promises of two such ends.

* `dm_step`: a step of the two is a step of a conversation, or none, and they stay `Coupled`.
* `dm_in_order`: so what one has of the other's texts is what the other wrote, in order, up to the
  frames that are on their way.
-/

import Cherm.Client.Network
import Cherm.Ideal

namespace Cherm

open Crates Client

section

variable [Crates]

/-! ### What Olm promises -/

/-- Two ends of a session, with the messages that are on their way from the first to the second and
back; and an end that was opened by the owner of an identity key towards an account, which has not
answered. An end can always write, and reads what comes up next. -/
structure Ratchets
    (InStep : OlmSession → OlmSession → List (OlmMessage × Bytes) → List (OlmMessage × Bytes) → Prop)
    (Opened : OlmSession → PublicKey → Device → List (OlmMessage × Bytes) → Prop) : Prop where
  swap : ∀ a b out inn, InStep a b out inn → InStep b a inn out
  writes : ∀ a b out inn, InStep a b out inn → ∀ plaintext seed, ∃ message a',
    Crates.encrypt a plaintext seed = .ok (message, a') ∧
      InStep a' b (out ++ [(message, plaintext)]) inn
  reads : ∀ a b message plaintext out inn, InStep a b ((message, plaintext) :: out) inn →
    ∃ b', Crates.decrypt b message = .ok (plaintext, b') ∧ InStep a b' out inn
  opens : ∀ a identity device out, Opened a identity device out → ∀ plaintext seed,
    ∃ message a', Crates.encrypt a plaintext seed = .ok (message, a') ∧
      Opened a' identity device (out ++ [(message, plaintext)])
  accepts : ∀ a identity device message plaintext out,
    Opened a identity device ((message, plaintext) :: out) → isPreKey message = true ∧
      ∃ b device', createInboundSession device identity message = .ok (b, plaintext, device') ∧
        InStep a b out []

/-! ### The two ends -/

/-- A text on its way. -/
structure Letter where
  message : OlmMessage
  text : String
  ts : Int

/-- What is shown of a letter. -/
def Letter.words (letter : Letter) : Words := (letter.text, letter.ts)

/-- What is read of a letter. -/
def Letter.parcel (letter : Letter) : OlmMessage × Bytes := (letter.message, utf8 letter.text)

/-- Two users who write to each other. -/
def pair (name : Bool → String) (distinct : Function.Injective name) : Cast Bool where
  name := name
  chat p := name (!p)
  distinct := distinct

/-- What the rest of a client's doings leaves of a DM: the name, the chat with its messages, the
session and the contact, and the account as long as there is no session. -/
def SparesDmOf (name : Bool → String) (p : Bool) (v v' : Vault) : Prop :=
  v'.metaGet "username" = v.metaGet "username" ∧
    (∀ part ∈ [VaultPart.chats, .messages, .olmSessions, .contacts],
      part.SameAt (name (!p)) v v') ∧
    (v.loadOlm (name (!p)) = none → v'.account = v.account)

variable {InStep : OlmSession → OlmSession → List (OlmMessage × Bytes) →
    List (OlmMessage × Bytes) → Prop}
  {Opened : OlmSession → PublicKey → Device → List (OlmMessage × Bytes) → Prop}
  {name : Bool → String} {distinct : Function.Injective name} {identity : Bool → PublicKey}
  {allow : Bool → (asked : Ask) → asked.Answer → Prop}

variable (InStep Opened name identity allow) in
/-- There is a session between the two, or one has opened one and the other has not answered. -/
inductive Coupled (vault : Bool → Vault) (letters : Bool → Bool → List Letter) : Prop where
  | joined (session : Bool → OlmSession)
      (held : ∀ p, (vault p).loadOlm (name (!p)) = some (session p))
      (inStep : ∀ p, InStep (session p) (session (!p)) ((letters p (!p)).map Letter.parcel)
        ((letters (!p) p).map Letter.parcel))
  | opening (p : Bool) {session : OlmSession} {device : Device}
      (held : (vault p).loadOlm (name (!p)) = some session)
      (noSession : (vault (!p)).loadOlm (name p) = none)
      (account : (vault (!p)).account = some device)
      (opened : Opened session (identity p) device ((letters p (!p)).map Letter.parcel))
      (quiet : letters (!p) p = [])
      (introduced : Introduced (allow (!p)) (identity p) (name p) (vault (!p)))

theorem parcels_posted {p : Bool} (letter : Letter) (letters : Bool → Bool → List Letter) :
    (Talk.posted p letter letters p (!p)).map Letter.parcel =
      (letters p (!p)).map Letter.parcel ++ [(letter.message, utf8 letter.text)] := by
  rw [Talk.posted_other (Bool.not_ne_self p).symm, List.map_append]
  rfl

/-- A session that one of them has can write, and they are coupled afterwards. -/
theorem Coupled.writes {vault : Bool → Vault} {letters : Bool → Bool → List Letter}
    (laws : Ratchets InStep Opened) (coupled : Coupled InStep Opened name identity allow vault letters)
    {p : Bool} {session : OlmSession} (held : (vault p).loadOlm (name (!p)) = some session)
    (text : String) (seed : Seed) : ∃ message session',
      Crates.encrypt session (utf8 text) seed = .ok (message, session') ∧
      ∀ v' ts, v'.loadOlm (name (!p)) = some session' →
        Coupled InStep Opened name identity allow (Function.update vault p v')
          (Talk.posted p ⟨message, text, ts⟩ letters) := by
  have apart : (!p) ≠ p := Bool.not_ne_self p
  cases coupled with
  | joined sessions heldBy inStep =>
      obtain rfl : sessions p = session := Option.some.inj ((heldBy p).symm.trans held)
      obtain ⟨message, session', written, after⟩ := laws.writes _ _ _ _ (inStep p) (utf8 text) seed
      refine ⟨message, session', written, fun v' ts stored => ?_⟩
      refine .joined (Function.update sessions p session') (fun q => ?_) fun q => ?_
      · by_cases same : q = p
        · subst same
          rw [Function.update_self, Function.update_self, stored]
        · rw [Function.update_of_ne same, Function.update_of_ne same, heldBy]
      · have here : InStep session' (sessions (!p))
            ((Talk.posted p ⟨message, text, ts⟩ letters p (!p)).map Letter.parcel)
            ((Talk.posted p ⟨message, text, ts⟩ letters (!p) p).map Letter.parcel) := by
          rw [parcels_posted, Talk.posted_of_ne apart]
          exact after
        by_cases same : q = p
        · subst same
          rw [Function.update_self, Function.update_of_ne apart]
          exact here
        · obtain rfl : q = !p := Bool.eq_not.mpr same
          rw [Function.update_of_ne apart, Bool.not_not, Function.update_self]
          exact laws.swap _ _ _ _ here
  | @opening opener opened device heldBy noSession account isOpened quiet introduced =>
      by_cases same : p = opener
      · subst same
        obtain rfl : opened = session := Option.some.inj (heldBy.symm.trans held)
        obtain ⟨message, session', written, after⟩ := laws.opens _ _ _ _ isOpened (utf8 text) seed
        refine ⟨message, session', written, fun v' ts stored => ?_⟩
        have called : (Function.update vault p v' (!p)).account = some device := by
          rw [Function.update_of_ne apart, account]
        have held : (Function.update vault p v' p).loadOlm (name (!p)) = some session' := by
          rw [Function.update_self, stored]
        refine .opening p held ?_ called ?_ ?_ ?_
        · rw [Function.update_of_ne apart, noSession]
        · rw [parcels_posted]
          exact after
        · rw [Talk.posted_of_ne apart, quiet]
        · rw [Function.update_of_ne apart]
          exact introduced
      · obtain rfl : p = !opener := Bool.eq_not.mpr same
        rw [Bool.not_not, noSession] at held
        cases held

/-- What comes up is read, and they are coupled afterwards. -/
theorem Coupled.reads {vault : Bool → Vault} {letters : Bool → Bool → List Letter}
    (laws : Ratchets InStep Opened) (coupled : Coupled InStep Opened name identity allow vault letters)
    {p : Bool} {letter : Letter} {later : List Letter} (first : letters p (!p) = letter :: later) :
    Prog.wp (worldSpec (allow (!p))) (fun result v' => result = .ok (utf8 letter.text) ∧
        v'.messages = (vault (!p)).messages ∧ v'.meta = (vault (!p)).meta ∧
        ∀ v'', v''.loadOlm (name p) = v'.loadOlm (name p) →
          Coupled InStep Opened name identity allow (Function.update vault (!p) v'')
            (Talk.taken p (!p) later letters))
      (obtainOlmPlaintext (name p) (encodeOlm (toParts letter.message).1
        (toParts letter.message).2)) (vault (!p)) := by
  have apart : (!p) ≠ p := Bool.not_ne_self p
  have taken : (Talk.taken p (!p) later letters p (!p)).map Letter.parcel =
      later.map Letter.parcel := by
    rw [Talk.taken_here]
  have back : Talk.taken p (!p) later letters (!p) p = letters (!p) p :=
    Talk.taken_elsewhere (fun here => apart here.1) later letters
  -- once the other end has the session, the two are in step
  have joins : ∀ (mine theirs : OlmSession), (vault p).loadOlm (name (!p)) = some mine →
      InStep mine theirs (later.map Letter.parcel) ((letters (!p) p).map Letter.parcel) →
      ∀ v'', v''.loadOlm (name p) = some theirs →
        Coupled InStep Opened name identity allow (Function.update vault (!p) v'')
          (Talk.taken p (!p) later letters) := by
    intro mine theirs heldBy inStep v'' stored
    rw [← taken, ← back] at inStep
    refine .joined (fun q => if q = p then mine else theirs) (fun q => ?_) fun q => ?_
    · by_cases same : q = p
      · subst same
        rw [Function.update_of_ne apart.symm, if_pos rfl, heldBy]
      · obtain rfl : q = !p := Bool.eq_not.mpr same
        rw [Function.update_self, if_neg same, Bool.not_not, stored]
    · by_cases same : q = p
      · subst same
        rw [if_pos rfl, if_neg apart]
        exact inStep
      · obtain rfl : q = !p := Bool.eq_not.mpr same
        rw [Bool.not_not, if_pos rfl, if_neg apart]
        exact laws.swap _ _ _ _ inStep
  cases coupled with
  | joined sessions heldBy inStep =>
      have held := heldBy (!p)
      rw [Bool.not_not] at held
      have before := inStep p
      rw [first] at before
      obtain ⟨b', read, after⟩ := laws.reads _ _ _ _ _ _ before
      have obtained := @wp_obtainOlm_held _ (allow (!p)) _ _ _ _ _ _ held read
      refine Prog.wp_mono ?_ obtained
      rintro _ v' ⟨rfl, rfl⟩
      refine ⟨rfl, rfl, rfl, fun v'' same => joins _ b' (heldBy p) after v'' ?_⟩
      rw [same, Vault.loadOlm, Vault.saveOlm, Table.get_put, if_pos rfl]
  | @opening opener opened device heldBy noSession account isOpened quiet introduced =>
      by_cases same : p = opener
      · subst same
        rw [first] at isOpened
        obtain ⟨preKey, b, device', accepted, after⟩ := laws.accepts _ _ _ _ _ _ isOpened
        have obtained := wp_obtainOlm_first introduced noSession account preKey accepted
        refine Prog.wp_mono ?_ obtained
        rintro _ v' ⟨rfl, mid, contacted, rfl⟩
        refine ⟨rfl, ?_, ?_, fun v'' same => joins _ b heldBy (quiet ▸ after) v'' ?_⟩
        · rcases contacted with rfl | ⟨_, _, _, _, rfl⟩ <;> rfl
        · rcases contacted with rfl | ⟨_, _, _, _, rfl⟩ <;> rfl
        · rw [same, Vault.loadOlm, Vault.saveOlm, Table.get_put, if_pos rfl]
      · obtain rfl : p = !opener := Bool.eq_not.mpr same
        rw [Bool.not_not, quiet] at first
        cases first

/-- What leaves the DM alone leaves the two coupled. -/
theorem Coupled.other {vault : Bool → Vault} {letters : Bool → Bool → List Letter}
    (coupled : Coupled InStep Opened name identity allow vault letters) {p : Bool} {v' : Vault}
    (spared : SparesDmOf name p (vault p) v') :
    Coupled InStep Opened name identity allow (Function.update vault p v') letters := by
  obtain ⟨_, parts, account⟩ := spared
  have session : v'.loadOlm (name (!p)) = (vault p).loadOlm (name (!p)) :=
    parts .olmSessions (by decide)
  have all : ∀ q, (Function.update vault p v' q).loadOlm (name (!q)) =
      (vault q).loadOlm (name (!q)) := by
    intro q
    by_cases same : q = p
    · subst same
      rw [Function.update_self, session]
    · rw [Function.update_of_ne same]
  cases coupled with
  | joined sessions heldBy inStep => exact .joined sessions (fun q => (all q).trans (heldBy q)) inStep
  | @opening opener opened device heldBy noSession accountBy isOpened quiet introduced =>
      have answerer := all (!opener)
      rw [Bool.not_not] at answerer
      refine .opening opener ((all opener).trans heldBy) (answerer.trans noSession) ?_ isOpened
        quiet ?_
      · by_cases same : (!opener) = p
        · subst same
          rw [Bool.not_not] at account
          rw [Function.update_self, account noSession, accountBy]
        · rw [Function.update_of_ne same, accountBy]
      · by_cases same : (!opener) = p
        · subst same
          rw [Function.update_self]
          have contact := parts .contacts (by decide)
          rw [Bool.not_not] at contact
          exact introduced.congr contact
        · rw [Function.update_of_ne same]
          exact introduced

/-! ### The steps of the two -/

/-- The frame a letter travels in. -/
def Letter.frame (name : Bool → String) (p : Bool) (letter : Letter) : Incoming :=
  dmFrame (name p) letter.message letter.ts

variable (InStep Opened name distinct identity allow) in
/-- The two are coupled, and what is on its way are letters. -/
structure InDm (n : Network Bool) (letters : Bool → Bool → List Letter) : Prop where
  coupled : Coupled InStep Opened name identity allow n.vault letters
  room : Network.Room (pair name distinct) "dm" (Letter.frame name) n letters

/-- The conversation of the two. -/
abbrev dmTalk (name : Bool → String) (distinct : Function.Injective name) (n : Network Bool)
    (letters : Bool → Bool → List Letter) : Talk Bool Words :=
  n.talk (pair name distinct) Letter.words letters

/-- **A step of the two is a step of a conversation**, or none. -/
theorem dm_step (laws : Ratchets InStep Opened)
    (posts : ∀ p msg answer, allow p (.post msg) answer → answer = .ok ())
    {n n' : Network Bool} {letters : Bool → Bool → List Letter}
    (inDm : InDm InStep Opened name distinct identity allow n letters)
    (next : Network.Next (pair name distinct) allow (SparesDmOf name) n n') :
    ∃ letters', InDm InStep Opened name distinct identity allow n' letters' ∧
      Relation.ReflTransGen Talk.Next (dmTalk name distinct n letters)
        (dmTalk name distinct n' letters') := by
  cases next with
  | @send p app text result v' log runs taken =>
      have chat : (pair name distinct).chat p = name (!p) := rfl
      obtain ⟨-, ⟨rfl, silent⟩ | ⟨session, seed, message, session', ts, recvTs, held, written, same,
          copied⟩⟩ := Prog.wp_free_iff.mp (wp_send_dm (posts p) app (inDm.room.named p)
            (inDm.room.kind p) fun session held seed => by
              obtain ⟨message, session', written, _⟩ := inDm.coupled.writes laws held text seed
              exact ⟨_, written⟩) _ _ runs
      · refine ⟨letters, ?_, ?_⟩
        all_goals rw [Network.unchanged fun q => silent _ _]
        exact inDm
      · obtain ⟨_, _, again, links⟩ := inDm.coupled.writes laws held text seed
        obtain ⟨rfl, rfl⟩ := Prod.mk.inj (Except.ok.inj (written.symm.trans again))
        dsimp only at same
        refine ⟨Talk.posted p ⟨message, text, ts⟩ letters, ⟨links v' ts ?_, ?_⟩, ?_⟩
        · rw [same]
          exact (Table.get_put _ _ _ _).trans (if_pos rfl)
        · refine inDm.room.update ?_ ?_ (inDm.room.wire_posted fun q apart => ?_)
          · rw [same]
            exact inDm.room.named p
          · rw [same]
            exact inDm.room.kind p
          · obtain rfl : q = !p := Bool.eq_not.mpr apart.symm
            exact (copied (name (!p)) (distinct.ne (Bool.not_ne_self p))).trans (if_pos rfl)
        · have said : v'.said ((pair name distinct).chat p) =
              (n.vault p).said ((pair name distinct).chat p) ++
                [Letter.words ⟨message, text, ts⟩] := by
            rw [same]
            exact Vault.said_insertMessage _ _ _ _ _ _ _
          have heard : ∀ other, v'.heard ((pair name distinct).chat p) other =
              (n.vault p).heard ((pair name distinct).chat p) other := by
            intro other
            rw [same]
            exact (Vault.heard_insertMessage _ _ _ _ _ _ _ _).trans (List.append_nil _)
          refine .single ?_
          rw [dmTalk, dmTalk, Network.talk_send said heard]
          exact .say p _ _
  | @receive p q inc rest ctx result v' apart first me runs =>
      obtain rfl : q = !p := Bool.eq_not.mpr apart.symm
      obtain ⟨letter, later, waiting, rfl, rfl⟩ := inDm.room.first apart first
      have read := inDm.coupled.reads laws waiting
      have ends := Prog.wp_free_iff.mp (wp_processFrame_dm read) _ _ runs
      obtain ⟨-, mid, now, recvTs, ⟨messages, logged, links⟩, same⟩ := ends
      have chat : (pair name distinct).chat (!p) = name p := congrArg name (Bool.not_not p)
      refine ⟨Talk.taken p (!p) later letters, ⟨links v' ?_, ?_⟩, ?_⟩
      · rw [same, loadOlm_withText]
      · refine inDm.room.update ?_ ?_ inDm.room.wire_taken
        · rw [same, Vault.metaGet, meta_withText, logged]
          exact inDm.room.named (!p)
        · intro row here
          rw [chat, same] at here
          exact kind_withText here
      · have said : v'.said ((pair name distinct).chat (!p)) =
            (n.vault (!p)).said ((pair name distinct).chat (!p)) := by
          rw [chat, same, said_withText, Vault.said, messages]
          rfl
        have heard : ∀ other, v'.heard ((pair name distinct).chat (!p)) other =
            (n.vault (!p)).heard ((pair name distinct).chat (!p)) other ++
              if name p = other then [letter.words] else [] := by
          intro other
          rw [chat, same, heard_withText, Vault.heard, messages]
          rfl
        refine .single ?_
        rw [dmTalk, dmTalk, Network.talk_receive said heard]
        exact .hear (congrArg (List.map Letter.words) waiting)
  | @other p v' spared =>
      have messages : VaultPart.messages.SameAt (name (!p)) (n.vault p) v' :=
        spared.2.1 _ (by decide)
      refine ⟨letters, ⟨inDm.coupled.other spared, ?_⟩, ?_⟩
      · refine inDm.room.update (spared.1.trans (inDm.room.named p)) (fun row here => ?_)
          inDm.room.wire
        have chats : VaultPart.chats.SameAt (name (!p)) (n.vault p) v' := spared.2.1 _ (by decide)
        exact inDm.room.kind p row (chats.symm.trans here)
      · rw [dmTalk, dmTalk, Network.talk_same (Vault.said_same messages) fun _ =>
          Vault.heard_same messages]

/-- **What the one wrote is what the other shows.** Two clients with a session between them, or with
one that the first of them has opened, start with nothing on its way. However they write and take
frames from then on: what one shows of the other's texts, followed by as many as there are frames on
their way, is what the other shows of its own, each with its time, in that order. -/
theorem dm_in_order (laws : Ratchets InStep Opened)
    (posts : ∀ p msg answer, allow p (.post msg) answer → answer = .ok ())
    {n n' : Network Bool}
    (start : InDm InStep Opened name distinct identity allow n fun _ _ => [])
    (agree : ∀ p, (n.vault p).said (name (!p)) = (n.vault (!p)).heard (name p) (name p))
    (run : Relation.ReflTransGen (Network.Next (pair name distinct) allow (SparesDmOf name)) n n')
    (p : Bool) : ∃ later, (n'.vault p).said (name (!p)) =
        (n'.vault (!p)).heard (name p) (name p) ++ later ∧
      later.length = (n'.wire p (!p)).length := by
  have chat : ∀ p, (pair name distinct).chat (!p) = name p := fun p =>
    congrArg name (Bool.not_not p)
  have agreed : ∀ p q, p ≠ q → (n.vault p).said ((pair name distinct).chat p) =
      (n.vault q).heard ((pair name distinct).chat q) ((pair name distinct).name p) := by
    intro p q apart
    obtain rfl : q = !p := Bool.eq_not.mpr apart.symm
    rw [chat]
    exact agree p
  have heard := Network.in_order (InDm InStep Opened name distinct identity allow)
    (fun _ _ _ inDm next => dm_step laws posts inDm next) (fun _ _ inDm => inDm.room) start agreed run
    (Bool.not_ne_self p).symm
  rw [chat] at heard
  exact heard

end

namespace Ideal

/-! ### Two ends of a session -/

/-- The messages on their way from the first end are its own, and new to the second. -/
structure Chain (a b : Session) (out : List (Message × Bytes)) : Prop where
  same : b.sid = a.sid
  apart : b.opener ≠ a.opener
  own : ∀ parcel ∈ out, parcel.1.sid = a.sid ∧ parcel.1.fromOpener = a.opener ∧
    parcel.1.plaintext = parcel.2
  fresh : (out.map (·.1.place) ++ b.seen).Nodup
  past : ∀ place ∈ out.map (·.1.place) ++ b.seen, ∃ next, a.sending = some next ∧
    place.1 = next.1 ∧ place.2 < next.2

theorem Chain.writes {a b : Session} {out : List (Message × Bytes)} (chain : Chain a b out)
    (plaintext : Bytes) (seed : Nat) : Chain (a.encrypt plaintext seed).2 b
      (out ++ [((a.encrypt plaintext seed).1, plaintext)]) := by
  have new : (a.sending.getD (seed, 0)) ∉ out.map (·.1.place) ++ b.seen := by
    intro old
    obtain ⟨next, sending, _, before⟩ := chain.past _ old
    rw [sending] at before
    exact absurd before (Nat.lt_irrefl _)
  have places : (out ++ [((a.encrypt plaintext seed).1, plaintext)]).map (·.1.place) ++ b.seen =
      out.map (·.1.place) ++ a.sending.getD (seed, 0) :: b.seen := by
    simp [Session.encrypt]
  refine ⟨chain.same, chain.apart, fun parcel among => ?_, ?_, fun place among => ?_⟩
  · rcases List.mem_append.mp among with old | last
    · exact chain.own parcel old
    · obtain rfl := List.mem_singleton.mp last
      exact ⟨rfl, rfl, rfl⟩
  · rw [places]
    exact List.perm_middle.nodup_iff.mpr (List.nodup_cons.mpr ⟨new, chain.fresh⟩)
  · rw [places] at among
    refine ⟨_, rfl, ?_⟩
    rcases List.mem_cons.mp (List.perm_middle.mem_iff.mp among) with rfl | old
    · exact ⟨rfl, Nat.lt_succ_self _⟩
    · obtain ⟨next, sending, chained, before⟩ := chain.past place old
      rw [sending]
      exact ⟨chained, Nat.lt_succ_of_lt before⟩

/-- What the other end writes does not concern what it reads. -/
theorem Chain.reader_writes {a b : Session} {out : List (Message × Bytes)} (chain : Chain a b out)
    (plaintext : Bytes) (seed : Nat) : Chain a (b.encrypt plaintext seed).2 out :=
  ⟨chain.same, chain.apart, chain.own, chain.fresh, chain.past⟩

theorem Chain.reads {a b : Session} {message : Message} {plaintext : Bytes}
    {out : List (Message × Bytes)} (chain : Chain a b ((message, plaintext) :: out)) :
    ∃ b', b.decrypt message = some (plaintext, b') ∧ Chain a b' out ∧
      ∀ inn, Chain b a inn → Chain b' a inn := by
  obtain ⟨sid, opener, text⟩ := chain.own _ List.mem_cons_self
  obtain ⟨new, fresh⟩ := List.nodup_cons.mp chain.fresh
  have other : message.fromOpener ≠ b.opener := opener ▸ chain.apart.symm
  have unseen : message.place ∉ b.seen := fun seen => new (List.mem_append_right _ seen)
  refine ⟨{ b with heard := true, seen := message.place :: b.seen }, ?_, ?_,
    fun inn back => ⟨back.same, back.apart, back.own, back.fresh, back.past⟩⟩
  · rw [Session.decrypt, if_pos ⟨sid.trans chain.same.symm, other, unseen⟩]
    exact congrArg some (Prod.ext text rfl)
  · refine ⟨chain.same, chain.apart, fun parcel later => chain.own _ (List.mem_cons_of_mem _ later),
      ?_, fun place among => chain.past place ?_⟩
    · exact List.perm_middle.nodup_iff.mpr (List.nodup_cons.mpr ⟨new, fresh⟩)
    · exact List.perm_middle.mem_iff.mp among

/-- The messages of an end that has heard nothing name a one-time key the account still has. -/
structure Calling (a : Session) (identity : PublicKey) (device : Account)
    (out : List (Message × Bytes)) : Prop where
  opener : a.opener = true
  unheard : a.heard = false
  own : a.own = identity
  seen : a.seen = []
  held : ∃ otk ∈ device.otks, otkKey otk = a.otk
  calls : ∀ parcel ∈ out, parcel.1.preKey = true ∧ parcel.1.identity = identity ∧
    parcel.1.otk = a.otk
  chain : ∀ b : Session, b.sid = a.sid → b.opener = false → b.seen = [] → Chain a b out

theorem Calling.writes {a : Session} {identity : PublicKey} {device : Account}
    {out : List (Message × Bytes)} (calling : Calling a identity device out) (plaintext : Bytes)
    (seed : Nat) : Calling (a.encrypt plaintext seed).2 identity device
      (out ++ [((a.encrypt plaintext seed).1, plaintext)]) := by
  refine ⟨calling.opener, calling.unheard, calling.own, calling.seen, calling.held, ?_, ?_⟩
  · intro parcel among
    rcases List.mem_append.mp among with old | last
    · exact calling.calls parcel old
    · obtain rfl := List.mem_singleton.mp last
      refine ⟨?_, calling.own, rfl⟩
      show (a.opener && !a.heard) = true
      rw [calling.opener, calling.unheard]
      rfl
  · exact fun b sid opener seen => (calling.chain b sid opener seen).writes plaintext seed

/-- The account that is called accepts what comes up first. -/
theorem Calling.accepts {a : Session} {identity : PublicKey} {device : Account} {message : Message}
    {plaintext : Bytes} {out : List (Message × Bytes)}
    (calling : Calling a identity device ((message, plaintext) :: out)) :
    ∃ b device', createInbound device identity message = some (b, plaintext, device') ∧
      Chain a b out ∧ Chain b a [] := by
  obtain ⟨-, named, key⟩ := calling.calls _ List.mem_cons_self
  -- the session as it is before the message is marked as read
  have unread := calling.chain
    ⟨message.sid, false, device.curve, identity, message.otk, none, true, []⟩
  obtain ⟨sid, opener, text⟩ := (calling.chain
    ⟨a.sid, false, device.curve, identity, message.otk, none, true, []⟩ rfl rfl rfl).own _
      List.mem_cons_self
  dsimp only at sid opener text named key
  obtain ⟨b', read, chain, -⟩ := (unread sid rfl rfl).reads
  obtain rfl : _ = b' := (Prod.mk.inj (Option.some.inj
    ((if_pos ⟨rfl, by simp [opener, calling.opener], List.not_mem_nil⟩).symm.trans read))).2
  obtain ⟨otk, found⟩ : ∃ otk, device.otks.find? (fun otk => otkKey otk = message.otk) =
      some otk := by
    obtain ⟨otk, among, same⟩ := calling.held
    refine Option.isSome_iff_exists.mp (List.find?_isSome.mpr ⟨otk, among, ?_⟩)
    exact decide_eq_true (same.trans key.symm)
  refine ⟨_, { device with otks := device.otks.erase otk }, ?_, chain, ?_⟩
  · rw [createInbound, found]
    dsimp only
    rw [if_pos ⟨named, opener.trans calling.opener⟩, text]
  · refine ⟨sid.symm, ?_, fun _ among => absurd among List.not_mem_nil, ?_, ?_⟩
    · rw [calling.opener]
      exact Bool.noConfusion
    · rw [calling.seen]
      exact List.nodup_nil
    · rw [calling.seen]
      exact fun _ among => absurd among List.not_mem_nil

/-- **The bookkeeping keeps the promise.** -/
theorem ratchets : Ratchets (fun a b out inn => Chain a b out ∧ Chain b a inn) Calling where
  swap _ _ _ _ both := both.symm
  writes a b out inn both plaintext seed :=
    ⟨_, _, rfl, both.1.writes plaintext seed, both.2.reader_writes plaintext seed⟩
  reads a b message plaintext out inn both := by
    obtain ⟨b', read, chain, back⟩ := both.1.reads
    exact ⟨b', (orError_eq_ok _ _ _).mpr read, chain, back inn both.2⟩
  opens a identity device out calling plaintext seed :=
    ⟨_, _, rfl, calling.writes plaintext seed⟩
  accepts a identity device message plaintext out calling := by
    obtain ⟨b, device', accepted, chain, back⟩ := calling.accepts
    exact ⟨(calling.calls _ List.mem_cons_self).1, b, device', (orError_eq_ok _ _ _).mpr accepted,
      chain, back⟩

/-! ### Alice opens a session, and Bob accepts it -/

/-- Their names. -/
def duo : Bool → String
  | false => "alice"
  | true => "bob"

theorem duo_injective : Function.Injective duo := by decide

/-- An account without one-time keys. -/
def aliceAccount : Account := ⟨1, [], []⟩

/-- An account with one. -/
def bobAccount : Account := ⟨2, [5], []⟩

/-- The keys of Alice, as the relay has them. -/
def aliceBundle : PrekeyBundle :=
  ⟨"alice", "", Base64.encode (publicKey 1 1).bytes, Base64.encode (publicKey 2 1).bytes, none,
    none⟩

/-- A world whose relay knows Alice. -/
def directory : (asked : Ask) → asked.Answer
  | .request (.fetchPrekeys _) => .ok (.prekeyBundle aliceBundle)
  | asked => world asked

/-- The session that Alice opens. -/
def aliceCalls : OlmSession := createOutbound aliceAccount bobAccount.curve (otkKey 5) 7

/-- Alice has opened a session, and Bob has heard nothing of it. -/
def strangers : Network Bool where
  vault
    | false => ((Vault.empty.metaSet "username" "alice").upsertChat "bob" "dm" "bob" 0).saveOlm "bob"
        aliceCalls
    | true => (Vault.empty.metaSet "username" "bob").saveAccount bobAccount
  wire _ _ := []

theorem strangers_start : InDm (fun a b out inn => Chain a b out ∧ Chain b a inn) Calling duo
    duo_injective (fun _ => publicKey 2 1) (Given fun _ => directory) strangers fun _ _ => [] := by
  have chain : ∀ b : Session, b.sid = 7 → b.opener = false → b.seen = [] →
      Chain aliceCalls b [] := by
    intro b sid opener seen
    refine ⟨sid, ?_, fun _ among => absurd among List.not_mem_nil, ?_, ?_⟩
    · rw [opener]
      exact Bool.noConfusion
    · rw [seen]
      exact List.nodup_nil
    · rw [seen]
      exact fun _ among => absurd among List.not_mem_nil
  have introduced : Introduced (Given (fun _ : Bool => directory) true) (publicKey 2 1) "alice"
      (strangers.vault true) := by
    constructor
    · rintro _ ⟨⟩
    · rintro _ rfl
      exact ⟨aliceBundle, rfl, rfl, by decide +kernel, by decide +kernel, by decide +kernel,
        by decide +kernel⟩
  have held : (strangers.vault false).loadOlm (duo true) = some aliceCalls := rfl
  have account : (strangers.vault true).account = some bobAccount := rfl
  refine ⟨.opening false held rfl account ?_ rfl introduced, fun _ _ _ => rfl, fun p => ?_,
    fun p row here => ?_⟩
  · exact ⟨rfl, rfl, rfl, rfl, ⟨5, by decide, rfl⟩, fun _ among => absurd among List.not_mem_nil,
      chain⟩
  · cases p <;> rfl
  · cases p with
    | false =>
        obtain rfl := Option.some.inj here
        rfl
    | true => cases here

/-- A step of Alice and Bob. -/
abbrev DuoNext : Network Bool → Network Bool → Prop :=
  Network.Next (pair duo duo_injective) (Given fun _ => directory) (SparesDmOf duo)

/-- Whoever sends is connected. -/
def duoApp : App := ⟨some "relay", true, "", ""⟩

/-- A send, and what comes of it. -/
def duoSending (p : Bool) (text : String) (n : Network Bool) : Except String Unit × Vault × List Ask :=
  n.sending (pair duo duo_injective) (fun _ => directory) p duoApp text

/-- One of them has sent a text. -/
def duoSends (p : Bool) (text : String) (n : Network Bool) : Network Bool :=
  n.playSend (pair duo duo_injective) (fun _ => directory) p duoApp text

/-- One of them has taken the next frame. -/
def duoTakes (p : Bool) (n : Network Bool) : Network Bool :=
  n.playReceive (fun _ => directory) p (!p) ⟨duo (!p), ""⟩

theorem duo_sends (p : Bool) (text : String) (n : Network Bool)
    (taken : (duoSending p text n).2.2.all Ask.isTaken = true) : DuoNext n (duoSends p text n) :=
  Network.next_playSend taken

theorem duo_takes (p : Bool) (n : Network Bool) (waiting : n.wire p (!p) ≠ []) :
    DuoNext n (duoTakes p n) :=
  Network.next_playReceive (Bool.not_ne_self p).symm rfl waiting

/-- Bob takes Alice's first text, and she writes another. -/
def acquainted : Network Bool :=
  duoSends false "there" (duoTakes false (duoSends false "hi" strangers))

/-- Bob shows what Alice wrote, but for the text that is still on its way. -/
theorem hello_arrives : (acquainted.vault true).heard "alice" "alice" = [("hi", 0)] ∧
    ∃ later, (acquainted.vault false).said "bob" =
      (acquainted.vault true).heard "alice" "alice" ++ later ∧
        later.length = (acquainted.wire false true).length := by
  have run : Relation.ReflTransGen DuoNext strangers acquainted :=
    ((Relation.ReflTransGen.single (duo_sends false "hi" strangers (by decide +kernel))).tail
      (duo_takes false _ (by decide +kernel))).tail
      (duo_sends false "there" _ (by decide +kernel))
  have agree : ∀ p, (strangers.vault p).said (duo (!p)) =
      (strangers.vault (!p)).heard (duo p) (duo p) := by
    intro p
    cases p <;> rfl
  have posts : ∀ p msg answer, Given (fun _ : Bool => directory) p (.post msg) answer →
      answer = .ok () := fun _ _ _ same => same
  obtain ⟨later, split, length⟩ := dm_in_order ratchets posts strangers_start agree run false
  -- what Bob shows is what Alice said up to what is on its way
  have said : (acquainted.vault false).said "bob" = [("hi", 0)] ++ [("there", 0)] := by
    decide +kernel
  have waiting : (acquainted.wire false true).length = 1 := by decide +kernel
  have heard := (List.append_inj' (said.symm.trans split) (waiting.symm.trans length.symm)).1
  exact ⟨heard.symm, later, split, length⟩

end Ideal

end Cherm
