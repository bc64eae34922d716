/-
**What a task knows of a chat.**

No row of the vault refers to its chat by a key that is enforced. A task that writes a row of a chat
has made sure of the chat before: it has created it, or it has found it, its group or an inbound
session of its group. `Stance` is what a task knows so, of one chat.

* `stanceSpec`: the rows of the chat are written by a task that is sure of it, but for the line of a
  DM partner's leave, which is written without a look. Between the inbound session of a new group
  and its chat a task does nothing else.
* `Heeds`: a program that keeps to it, `Spends`: one that may know less in the end.
* `heeds_processFrame`: every frame keeps to it. The commands are in a module of their own.
-/

import Cherm.Client.FrameAsks

namespace Cherm

open Crates Client

/-- What a task knows of a chat: nothing, that a session of its group was stored and the chat was
not, or that it exists. -/
inductive Stance where
  | unsure
  | founding
  | sure
deriving DecidableEq, Repr

/-- The task is not in the middle of founding the chat, and if this is the group it has looked up, it
is sure of it. -/
structure Stance.Settled (chat : String) (found : Option String) (stance : Stance) : Prop where
  whole : stance ≠ .founding
  sure : found = some chat → stance = .sure

theorem Stance.Settled.forget {chat : String} {found : Option String} {stance : Stance}
    (settled : stance.Settled chat found) : stance.Settled chat none := ⟨settled.whole, nofun⟩

theorem Stance.settled_sure (chat : String) (found : Option String) :
    Stance.sure.Settled chat found := ⟨nofun, fun _ => rfl⟩

/-- The parts whose rows need the chat, and the inbound sessions. -/
def VaultPart.needing : List VaultPart := [messages, chatMembers, groups, groupIn]

/-- Rows that a task may write that has found this chat, or none. -/
def RowsOf (found : Option String) (part : VaultPart) (id : String) : Prop :=
  part ≠ .chats ∧ (part ∈ VaultPart.needing → found = some id)

theorem rowsOf_free {found : Option String} {part : VaultPart}
    (free : part ≠ .chats ∧ part ∉ VaultPart.needing) (id : String) : RowsOf found part id :=
  ⟨free.1, fun needing => absurd needing free.2⟩

theorem rowsOf_own {part : VaultPart} (other : part ≠ .chats) (id : String) :
    RowsOf (some id) part id := ⟨other, fun _ => rfl⟩

section

variable [Crates]

/-- The line of a DM partner's leave. -/
def LeaveLine (chat : String) : Ask → Bool
  | .call (.insertMessage id sender body ..) =>
      id = chat && sender = "System" && body = chat ++ " left the chat."
  | _ => false

/-- The requests after whose answer the chat is known to exist. -/
def Ask.reveals (chat : String) : (asked : Ask) → asked.Answer → Bool
  | .call (.upsertChat id ..), _ => id = chat
  | .call (.getChat id), row => row.isSome && id = chat
  | .call (.chatExists id), known => known && id = chat
  | .call (.getGroupMeta id), row => row.isSome && id = chat
  | .call (.loadGroupIn id _), receiver => receiver.isSome && id = chat
  | .call (.insertMessage id ..), _ => id = chat
  | _, _ => false

namespace Stance

/-- What a task knows after the answer. -/
def next (chat : String) (stance : Stance) (asked : Ask) (answer : asked.Answer) : Stance :=
  if asked.reveals chat answer then .sure
  else match asked with
    | .call (.deleteChat id) => if id = chat then .unsure else stance
    | .call (.saveGroupIn id ..) => if id = chat && stance = .unsure then .founding else stance
    | _ => stance

end Stance

/-- The requests that need the chat. -/
def Ask.NeedsChat (chat : String) : Ask → Prop
  | .call (.insertMessage id sender body ts outgoing recvTs) =>
      id = chat ∧ LeaveLine chat (.call (.insertMessage id sender body ts outgoing recvTs)) = false
  | .call (.addMember id _) | .call (.createGroupRow id ..) | .call (.upsertGroupMeta id ..) =>
      id = chat
  | _ => False

/-- Creating a chat: the clock is read for its row. -/
def Ask.Creates (chat : String) : Ask → Prop
  | .now => True
  | .call (.upsertChat id ..) => id = chat
  | _ => False

/-- What a task may ask for, by what it knows. -/
def Stance.Demand (chat : String) : Stance → Ask → Prop
  | .unsure, asked => ¬ asked.NeedsChat chat
  | .founding, asked => asked.Creates chat
  | .sure, _ => True

/-- The rows of a chat are written by a task that is sure of it. -/
def stanceSpec (chat : String) : Prog.Spec Stance Ask Ask.Answer where
  demand asked stance := stance.Demand chat asked
  step asked stance answer stance' := stance' = stance.next chat asked answer

/-! ### Requests that respect what is known -/

/-- Requests that write such rows. -/
def Ask.Respects (found : Option String) : Ask → Prop
  | .call op => ∀ part id, op.Writes part id → RowsOf found part id
  | _ => True

section

variable {chat : String} {found : Option String} {α β : Type}

theorem Ask.Respects.forget {asked : Ask} (respects : asked.Respects none) :
    asked.Respects found := by
  cases asked with
  | call op =>
      exact fun part id writes => ⟨(respects part id writes).1, fun needing =>
        nomatch (respects part id writes).2 needing⟩
  | _ => trivial

/-- Such a request never needs a chat that was not found. -/
theorem Ask.Respects.demand {asked : Ask} (respects : asked.Respects found) {stance : Stance}
    (settled : stance.Settled chat found) : stance.Demand chat asked := by
  cases stance with
  | founding => exact absurd rfl settled.whole
  | sure => trivial
  | unsure =>
      intro needs
      have unknown : found ≠ some chat := fun known => nomatch settled.sure known
      cases asked with
      | call op =>
          cases op with
          | insertMessage id sender body ts outgoing recvTs =>
              obtain ⟨rfl, _⟩ := needs
              exact unknown ((respects .messages _ ⟨rfl, rfl⟩).2 (by decide))
          | addMember id username =>
              cases show id = chat from needs
              exact unknown ((respects .chatMembers _ ⟨rfl, rfl⟩).2 (by decide))
          | createGroupRow id mode owner gen =>
              cases show id = chat from needs
              exact unknown ((respects .groups _ ⟨rfl, rfl⟩).2 (by decide))
          | upsertGroupMeta id key mode owner =>
              cases show id = chat from needs
              exact unknown ((respects .groups _ ⟨rfl, rfl⟩).2 (by decide))
          | _ => exact needs.elim
      | _ => exact needs.elim

/-- It leaves what is known known. -/
theorem Ask.Respects.next {asked : Ask} (respects : asked.Respects found) {stance : Stance}
    (settled : stance.Settled chat found) (answer : asked.Answer) :
    (stance.next chat asked answer).Settled chat found := by
  unfold Stance.next
  split
  · exact Stance.settled_sure chat found
  · cases asked with
    | call op =>
        cases op with
        | deleteChat id => exact absurd rfl (respects .chats id ⟨by decide, rfl⟩).1
        | saveGroupIn id sender receiver =>
            dsimp only
            split
            · next here =>
              simp only [Bool.and_eq_true, decide_eq_true_eq] at here
              obtain ⟨rfl, isUnsure⟩ := here
              have known : found = some id := (respects .groupIn id ⟨rfl, rfl⟩).2 (by decide)
              rw [settled.sure known] at isUnsure
              cases isUnsure
            · exact settled
        | _ => exact settled
    | _ => exact settled

/-- What an answer reveals is known. -/
theorem Ask.Respects.revealed {asked : Ask} (respects : asked.Respects found) {stance : Stance}
    (settled : stance.Settled chat found) {id : String} {answer : asked.Answer}
    (reveals : asked.reveals id answer = true) :
    (stance.next chat asked answer).Settled chat (some id) := by
  refine ⟨(respects.next settled answer).whole, fun same => ?_⟩
  cases same
  unfold Stance.next
  rw [if_pos reveals]

/-- From a settled stance to a settled one. -/
def Heeds (chat : String) (found : Option String) (prog : Client α) : Prop :=
  Prog.Keeps (stanceSpec chat) (Stance.Settled chat found) prog

/-- From a settled stance to one that may know less. -/
def Spends (chat : String) (found : Option String) (prog : Client α) : Prop :=
  ∀ stance : Stance, stance.Settled chat found →
    Prog.wp (stanceSpec chat) (fun _ stance' => stance'.Settled chat none) prog stance

theorem Heeds.spends {prog : Client α} (heeds : Heeds chat found prog) : Spends chat found prog :=
  fun stance settled => Prog.wp_mono (fun _ _ => Stance.Settled.forget) (heeds stance settled)

theorem Heeds.forget {prog : Client α} (heeds : Heeds chat none prog) : Spends chat found prog :=
  fun stance settled => heeds stance settled.forget

theorem Heeds.bind {prog : Client α} {next : α → Client β} (first : Heeds chat found prog)
    (second : ∀ value, Heeds chat found (next value)) : Heeds chat found (prog.bind next) :=
  Prog.Keeps.bind first second

theorem Heeds.andSpends {prog : Client α} {next : α → Client β} (first : Heeds chat found prog)
    (second : ∀ value, Spends chat found (next value)) : Spends chat found (prog.bind next) :=
  fun stance settled => Prog.wp_then (first stance settled) second fun _ _ => Stance.Settled.forget

theorem heeds_done (value : α) : Heeds chat found (.done value : Client α) := Prog.keeps_done value

theorem heeds_ask {asked : Ask} {next : asked.Answer → Client α} (respects : asked.Respects found)
    (rest : ∀ answer, Heeds chat found (next answer)) : Heeds chat found (.ask asked next) :=
  Prog.keeps_ask (fun _ settled => respects.demand settled)
    (fun _ answer _ settled made => made ▸ respects.next settled answer) rest

theorem heeds_calls {prog : Client α} (calls : Prog.Calls (Ask.Respects found) prog) :
    Heeds chat found prog := fun _ settled =>
  calls.wp (fun _ _ respects settled => respects.demand settled)
    (fun _ _ answer _ respects settled made => made ▸ respects.next settled answer) settled

/-- The bounds of the shared functions. -/
theorem heeds_may {prog : Client α}
    (calls : Prog.Calls (Ask.May (RowsOf found) (fun _ _ => True) fun _ => True) prog) :
    Heeds chat found prog :=
  heeds_calls (calls.mono fun asked may => by
    cases asked with
    | call op => exact may.1
    | _ => trivial)

/-- After a look at the vault. -/
theorem heeds_look {asked : Ask} {next : asked.Answer → Client α} (id : String)
    (respects : asked.Respects none)
    (unknown : ∀ answer, asked.reveals id answer = false → Heeds chat none (next answer))
    (known : ∀ answer, asked.reveals id answer = true → Spends chat (some id) (next answer)) :
    Heeds chat none (.ask asked next) := by
  refine fun stance settled => ⟨respects.demand settled, fun answer stance' made => ?_⟩
  cases made
  cases reveals : asked.reveals id answer with
  | false => exact unknown answer reveals _ (respects.next settled answer)
  | true => exact known answer reveals _ (respects.revealed settled reveals)

/-- Once it is created, the chat is known. -/
theorem wp_created {id kind title : String} {next : Unit → Client α} {stance : Stance}
    (open' : stance = .founding → id = chat) (rest : Spends chat (some id) (next ())) :
    Prog.wp (stanceSpec chat) (fun _ stance' => stance'.Settled chat none)
      ((upsertChat id kind title).bind next) stance := by
  have clock : stance.Demand chat .now := by
    cases stance with
    | unsure => exact fun needs => needs.elim
    | _ => trivial
  refine ⟨clock, fun now stance' made => ?_⟩
  cases made
  have create : stance.Demand chat (.call (.upsertChat id kind title now)) := by
    cases stance with
    | unsure => exact fun needs => needs.elim
    | founding => exact open' rfl
    | sure => trivial
  refine ⟨create, fun answer stance' made => ?_⟩
  cases made
  refine rest _ ?_
  unfold Stance.next
  by_cases here : id = chat
  · rw [if_pos (by simpa [Ask.reveals] using here)]
    exact Stance.settled_sure chat _
  · rw [if_neg (by simpa [Ask.reveals] using here)]
    refine ⟨fun founding => here (open' founding), fun same => ?_⟩
    exact absurd (Option.some.inj same) here

theorem heeds_created {id kind title : String} {next : Unit → Client α}
    (rest : Spends chat (some id) (next ())) :
    Heeds chat none ((upsertChat id kind title).bind next) :=
  fun _ settled => wp_created (fun founding => absurd founding settled.whole) rest

/-- A deleted chat is not known any more. -/
theorem heeds_deleted {id : String} {next : Unit → Client α} (rest : Heeds chat none (next ())) :
    Heeds chat none ((call (.deleteChat id)).bind next) := by
  intro stance settled
  have demand : stance.Demand chat (.call (.deleteChat id)) := by
    cases stance with
    | unsure => exact fun needs => needs.elim
    | founding => exact absurd rfl settled.whole
    | sure => trivial
  refine ⟨demand, fun answer stance' made => ?_⟩
  cases made
  refine rest _ ⟨?_, nofun⟩
  show (if id = chat then Stance.unsure else stance) ≠ .founding
  split
  · decide
  · exact settled.whole

/-! ### The rows of the shared functions -/

namespace Client

/-- The bound of a program that sends what it likes. -/
abbrev WithinRows (found : Option String) (prog : Client α) : Prop :=
  Prog.Calls (Ask.May (RowsOf found) (fun _ _ => True) fun _ => True) prog

theorem within_plaintext (sender payload : String) :
    WithinRows found (obtainOlmPlaintext sender payload) :=
  calls_obtainOlmPlaintext (rowsOf_free (by decide)) (rowsOf_free (by decide))
    (rowsOf_free (by decide) sender) payload

theorem within_distribute (me group name : String) (recipients : List String)
    (sender : GroupSender) :
    WithinRows found (distributeGroupKey me group name recipients sender) :=
  calls_distributeGroupKey (rowsOf_free (by decide))
    (fun member _ => rowsOf_free (by decide) member) (fun _ _ _ _ => trivial) me name sender

theorem within_accept (group sender : String) (idx : Nat) (receiver : GroupReceiver) :
    WithinRows (some group) (acceptMegolm group sender idx receiver) :=
  calls_acceptMegolm (rowsOf_own (by decide) group) (rowsOf_own (by decide) group) sender idx
    receiver

theorem within_line (group sender body : String) (ts : Int) (outgoing : Bool) :
    WithinRows (some group) (insertMessage group sender body ts outgoing) :=
  calls_insertMessage (rowsOf_own (by decide) group) sender body ts outgoing

theorem within_event (group kind who extra : String) (ts : Int) :
    WithinRows (some group) (emitGroupEvent group kind who extra ts) :=
  calls_emitGroupEvent (rowsOf_own (by decide) group) kind who extra ts

theorem within_member (group user : String) :
    WithinRows (some group) (call (.addMember group user)) :=
  have roster : RowsOf (some group) .chatMembers group := rowsOf_own (by decide) group
  calls_write roster (fun _ _ => id) (by trivial)

/-! ### Frames -/

/-- A DM text creates the chat of its sender first. -/
theorem heeds_deliverDmText (ctx : ProcCtx) (sender : String) (plaintext : Bytes) (ts : Int) :
    Heeds chat none (deliverDmText ctx sender plaintext ts) := by
  refine Heeds.bind (heeds_calls (calls_okOr _ _)) fun text => heeds_ask (fun _ _ => nofun)
    fun known => heeds_created ?_
  have shown : WithinRows (some sender) (do
      emit (.message sender sender text ts false false)
      emitFingerprint sender) := (calls_emit _).bind fun _ => calls_emitFingerprint sender
  refine Heeds.spends (heeds_may ((within_member sender ctx.me).bind fun _ =>
    (within_member sender sender).bind fun _ =>
      (within_line sender sender text ts false).bind fun _ => ?_))
  dsimp only
  split
  · exact (calls_emitChats _).bind fun _ => shown
  · exact shown

/-- A share that is stored has its group's chat, or creates it next. -/
theorem wp_storeShare (ctx : ProcCtx) (sender : String) (share : GroupKeyShare)
    {isNew byOwner : Bool} {stance : Stance} (settled : stance.Settled chat none)
    (old : byOwner = false → isNew = false ∧ stance.Settled chat (some share.groupId)) :
    Prog.wp (stanceSpec chat) (fun _ stance' => stance'.Settled chat none)
      (storeShare ctx sender share isNew byOwner) stance := by
  have told : ∀ found, WithinRows found (do
      emitChats ctx.addr
      if isNew then emit (.info ("added to group " ++ share.name))) := by
    intro found
    refine (calls_emitChats _).bind fun _ => ?_
    split
    · exact calls_emit _
    · trivial
  unfold storeShare
  rw [Prog.bind_eq, Prog.wp_bind, lift_eq, Prog.wp_ofExcept]
  cases GroupReceiver.fromSessionKeyB64 share.sessionKey with
  | error e => exact settled
  | ok receiver =>
      have inbound : RowsOf (some share.groupId) .groupIn share.groupId :=
        rowsOf_own (by decide) share.groupId
      cases byOwner with
      | false =>
          obtain ⟨rfl, known⟩ := old rfl
          refine Heeds.spends (heeds_may ?_) stance known
          exact (calls_write inbound (fun _ _ => id) (by trivial)).bind fun _ => told _
      | true =>
          have demand : stance.Demand chat
              (.call (.saveGroupIn share.groupId sender receiver)) := by
            cases stance with
            | unsure => exact fun needs => needs.elim
            | founding => exact absurd rfl settled.whole
            | sure => trivial
          refine ⟨demand, fun answer stance' made => ?_⟩
          cases made
          -- the session is there, the chat is next
          show Prog.wp _ _ ((learnGroup sender share).bind _) _
          unfold learnGroup
          rw [Prog.bind_eq, Prog.bind_assoc]
          refine wp_created (fun founding => ?_) ?_
          · by_contra other
            have same : stance.next chat (.call (.saveGroupIn share.groupId sender receiver))
                answer = stance := by
              show (if (decide (share.groupId = chat) && decide (stance = .unsure)) = true
                then Stance.founding else stance) = stance
              rw [if_neg (by simp [other])]
            exact settled.whole (same ▸ founding)
          · refine Heeds.spends (Heeds.bind (heeds_may ?_) fun _ => heeds_may (told _))
            refine (Prog.calls_forEach fun m _ => within_member share.groupId m).bind fun _ => ?_
            have row : RowsOf (some share.groupId) .groups share.groupId :=
              rowsOf_own (by decide) share.groupId
            split
            · exact calls_write row (fun _ _ => id) (by trivial)
            · trivial

/-- A share of a new group is stored for its owner only. -/
theorem heeds_handleGroupKeyShare (ctx : ProcCtx) (sender : String) (plaintext : Bytes) :
    Heeds chat none (handleGroupKeyShare ctx sender plaintext) := by
  have decided : ∀ (share : GroupKeyShare) (isNew member byOwner : Bool) (found : Option String),
      (isNew = false → found = some share.groupId) → Spends chat found
        (if isNew && !byOwner then pure ()
          else if !isNew && !byOwner && !member then pure ()
          else storeShare ctx sender share isNew byOwner) := by
    intro share isNew member byOwner found known stance settled
    split
    · exact settled.forget
    · next owned =>
      split
      · exact settled.forget
      · refine wp_storeShare ctx sender share settled.forget fun notOwner => ?_
        subst notOwner
        have old : isNew = false := by simpa using owned
        exact ⟨old, known old ▸ settled⟩
  have asks : ∀ (share : GroupKeyShare) (isNew : Bool) (found : Option String),
      (isNew = false → found = some share.groupId) → Spends chat found (do
        let existing ← call (.getGroupMeta share.groupId)
        let senderIsMember ← if isNew then pure false else call (.isMember share.groupId sender)
        let byOwner := ownerShare isNew existing share.owner sender
        if isNew && !byOwner then return ()
        if !isNew && !byOwner && !senderIsMember then return ()
        storeShare ctx sender share isNew byOwner) := by
    intro share isNew found known
    have reads : Heeds chat found (call (.getGroupMeta share.groupId)) :=
      heeds_may (calls_read fun _ _ => id)
    have member : Heeds chat found (call (.isMember share.groupId sender)) :=
      heeds_may (calls_read fun _ _ => id)
    refine reads.andSpends fun existing => ?_
    dsimp only
    split
    · exact decided share isNew false _ found known
    · exact member.andSpends fun isMember => decided share isNew isMember _ found known
  refine Heeds.bind (heeds_calls (Prog.calls_ofExcept _)) fun share =>
    Heeds.bind (heeds_may (calls_read fun _ _ => id)) fun banned => ?_
  split
  · exact heeds_done _
  refine Heeds.bind (heeds_may calls_now) fun now => Heeds.bind (heeds_may (calls_isSuspended
    (rowsOf_free (by decide) share.groupId) sender now)) fun suspended => ?_
  split
  · exact heeds_done _
  refine heeds_look share.groupId (fun _ _ => nofun) (fun known unknown => ?_) fun known _ => ?_
  · have new : known = false := by simpa [Ask.reveals] using unknown
    exact asks share (!known) none fun old => by simp [new] at old
  · exact asks share (!known) (some share.groupId) fun _ => rfl

/-! ### Group frames -/

/-- With a session of the group, its chat is known. -/
theorem heeds_openMegolm {group sender payload : String}
    {next : Option (Bytes × Nat × GroupReceiver) → Client Unit}
    (unread : Heeds chat none (next none))
    (opened : ∀ found, Spends chat (some group) (next (some found))) :
    Heeds chat none ((openMegolm group sender payload).bind next) := by
  refine heeds_look group (fun _ _ => nofun) (fun held unknown => ?_) fun held known => ?_
  · have none' : held = none := by simpa [Ask.reveals] using unknown
    subst none'
    exact heeds_ask (by trivial) fun _ => unread
  · obtain ⟨receiver, rfl⟩ : ∃ receiver, held = some receiver :=
      Option.isSome_iff_exists.mp (by simpa [Ask.reveals] using known)
    have reads : ∀ {α : Type} (value : Except String α),
        Heeds chat (some group) (Prog.ofExcept value : Client α) := fun value =>
      heeds_calls (Prog.calls_ofExcept value)
    show Spends chat (some group) (((lift (b64Decode payload)).bind fun body =>
      (lift (receiver.decrypt body)).bind fun opened => .done (some opened)).bind next)
    rw [Prog.bind_assoc]
    refine (reads _).andSpends fun body => ?_
    rw [Prog.bind_assoc]
    exact (reads _).andSpends fun read => opened read

theorem heeds_processMegolm (sender group payload : String) (ts : Int) :
    Heeds chat none (processMegolm sender group payload ts) := by
  refine heeds_openMegolm (heeds_done _) ?_
  rintro ⟨plaintext, idx, receiver⟩
  refine Heeds.spends (heeds_may ((within_accept group sender idx receiver).bind fun fresh => ?_))
  cases fresh with
  | false => trivial
  | true =>
      exact (calls_okOr _ _).bind fun text => (within_line group sender text ts false).bind
        fun _ => calls_emit _

theorem heeds_processMegolmSystem (sender group payload : String) (ts : Int) :
    Heeds chat none (processMegolmSystem sender group payload ts) := by
  refine heeds_openMegolm (heeds_done _) ?_
  rintro ⟨plaintext, idx, receiver⟩
  refine Heeds.spends (heeds_may ?_)
  dsimp only
  split
  · trivial
  refine (within_accept group sender idx receiver).bind fun fresh => ?_
  cases fresh with
  | false => trivial
  | true =>
      have roster : RowsOf (some group) .chatMembers group := rowsOf_own (by decide) group
      exact (calls_write roster (fun _ _ => id) (by trivial)).bind fun _ =>
        (within_line group "System" _ ts false).bind fun _ => calls_emit _

/-- An event that leaves the group there leaves it known. -/
theorem wp_applyGroupEvent (ctx : ProcCtx) (group : String) (event : GroupEvent) (ts : Int)
    {stance : Stance} (settled : stance.Settled chat (some group)) :
    Prog.wp (stanceSpec chat) (fun result stance' => stance'.Settled chat none ∧
      (result = .ok false → stance'.Settled chat (some group)))
      (applyGroupEvent ctx group event ts) stance := by
  have one : ∀ {op : VaultOp} (part : VaultPart), part ≠ .chats →
      (∀ part' id, op.Writes part' id → part' = part ∧ id = group) → op.Makes (fun _ _ => True) →
      WithinRows (some group) (call op) := fun part other writes makes =>
    calls_write (rowsOf_own other group) writes makes
  have kept : ∀ {prog : Client Bool}, WithinRows (some group) prog →
      Prog.wp (stanceSpec chat) (fun result stance' => stance'.Settled chat none ∧
        (result = .ok false → stance'.Settled chat (some group))) prog stance := fun calls =>
    Prog.wp_mono (fun _ _ after => ⟨after.forget, fun _ => after⟩) (heeds_may calls stance settled)
  have drop : WithinRows (some group) (dropMember group event ts) := by
    refine (one .chatMembers (by decide) (fun _ _ => id) (by trivial)).bind fun _ =>
      (one .groupIn (by decide) (fun _ _ => id) (by trivial)).bind fun _ => ?_
    split
    · exact one .groupBans (by decide) (fun _ _ => id) (by trivial)
    · split
      · exact one .groupSuspensions (by decide) (fun _ _ => id) (by trivial)
      · trivial
    · trivial
  have gone : Prog.wp (stanceSpec chat) (fun result stance' => stance'.Settled chat none ∧
      (result = .ok false → stance'.Settled chat (some group)))
      (do
        call (.deleteChat group)
        emitChats ctx.addr
        emit (.info ("you were " ++ event.kind ++ " from a group"))
        return true) stance := by
    have forgets : Heeds chat none (do
        call (.deleteChat group)
        emitChats ctx.addr
        emit (.info ("you were " ++ event.kind ++ " from a group"))) :=
      heeds_deleted (heeds_may ((calls_emitChats _).bind fun _ => calls_emit _))
    have ends := Prog.wp_then (forgets stance settled.forget)
      (fun (_ : Unit) stance' (after : stance'.Settled chat none) =>
        show Prog.wp (stanceSpec chat) (fun result stance' => stance'.Settled chat none ∧
          (result = .ok false → stance'.Settled chat (some group))) (pure true : Client Bool)
          stance' from ⟨after, nofun⟩) fun _ _ after => ⟨after, nofun⟩
    simpa only [Prog.bind_eq, Prog.bind_assoc] using ends
  have aimed : Prog.wp (stanceSpec chat) (fun result stance' => stance'.Settled chat none ∧
      (result = .ok false → stance'.Settled chat (some group)))
      (do
        if event.who = ctx.me then
          if event.kind = "suspended" then
            emit (.info "you were suspended from a group")
            return false
          call (.deleteChat group)
          emitChats ctx.addr
          emit (.info ("you were " ++ event.kind ++ " from a group"))
          return true
        dropMember group event ts
        return false) stance := by
    split
    · split
      · exact kept ((calls_emit _).bind fun _ => trivial)
      · exact gone
    · exact kept (drop.bind fun _ => trivial)
  unfold applyGroupEvent
  split
  · exact kept ((one .groupBans (by decide) (fun _ _ => id) (by trivial)).bind fun _ =>
      (one .groupSuspensions (by decide) (fun _ _ => id) (by trivial)).bind fun _ =>
        (within_member group event.who).bind fun _ => trivial)
  · exact aimed
  · exact aimed
  · exact aimed
  · refine kept ?_
    split
    · dsimp only
      split
      · exact (one .groups (by decide) (fun _ _ => id) (by trivial)).bind fun _ => trivial
      · trivial
    · trivial
  · exact kept trivial

theorem heeds_processGroupEvent (ctx : ProcCtx) (sender group payload : String) (ts : Int) :
    Heeds chat none (processGroupEvent ctx sender group payload ts) := by
  refine heeds_openMegolm (heeds_done _) ?_
  rintro ⟨plaintext, idx, receiver⟩
  refine Heeds.andSpends (heeds_may (within_accept group sender idx receiver)) fun fresh => ?_
  cases fresh with
  | false => exact (heeds_done _).spends
  | true =>
      refine Heeds.andSpends (heeds_may (calls_read fun _ _ => id)) fun row => ?_
      dsimp only
      split
      · exact (heeds_done _).spends
      refine Heeds.andSpends (heeds_calls (Prog.calls_ofExcept _)) fun event stance settled => ?_
      rw [Prog.bind_eq, Prog.wp_bind]
      refine Prog.wp_mono (fun result stance' after => ?_)
        (wp_applyGroupEvent ctx group event ts settled)
      rcases result with e | ⟨_ | _⟩
      · exact after.1
      · exact Heeds.spends (heeds_may ((within_event group _ _ _ _).bind fun _ =>
          calls_emitChats _)) stance' (after.2 rfl)
      · exact after.1

/-- The leave of a DM partner is shown without a look. -/
theorem heeds_leave (sender : String) (ts : Int) :
    Heeds chat none (deliverSystem sender sender ts) := by
  intro stance settled
  have write : ∀ recvTs stance, Stance.Settled chat none stance → stance.Demand chat
      (.call (.insertMessage sender "System" (sender ++ " left the chat.") ts false recvTs)) := by
    intro recvTs stance settled
    cases stance with
    | founding => exact absurd rfl settled.whole
    | sure => trivial
    | unsure =>
        rintro ⟨here, notLeave⟩
        simp [LeaveLine, here] at notLeave
  refine heeds_ask (by trivial) (fun recvTs stance settled => ?_) stance settled
  refine ⟨write recvTs stance settled, fun answer stance' made => ?_⟩
  cases made
  refine heeds_ask (by trivial) (fun _ => heeds_done _) _ ?_
  show (if _ then Stance.sure else stance).Settled chat none
  split
  · exact Stance.settled_sure chat none
  · exact settled

/-! ### Joins -/

theorem within_admission (me addr group who : String) (now : Int) :
    WithinRows (some group) (admitMember me addr group who now) :=
  calls_admitMember (rowsOf_free (by decide)) (rowsOf_free (by decide))
    (rowsOf_own (by decide) group) (rowsOf_free (by decide) group)
    (rowsOf_free (by decide) group) (rowsOf_own (by decide) group) (fun _ _ _ => trivial)
    (fun _ _ _ => trivial) me addr who now

/-- A group of ours has a chat. -/
theorem heeds_handleJoinRequest (ctx : ProcCtx) (sender : String) (plaintext : Bytes)
    (now : Int) : Heeds chat none (handleJoinRequest ctx sender plaintext now) := by
  refine Heeds.bind (heeds_calls (Prog.calls_ofExcept _)) fun req => ?_
  refine heeds_look req.groupId (fun _ _ => nofun) (fun row unknown => ?_) fun row known => ?_
  · have none' : row = none := by simpa [Ask.reveals] using unknown
    subst none'
    exact heeds_done _
  · obtain ⟨row, rfl⟩ : ∃ some', row = some some' :=
      Option.isSome_iff_exists.mp (by simpa [Ask.reveals] using known)
    refine Heeds.spends (heeds_may ?_)
    dsimp only [Prog.done_bind]
    split
    · trivial
    have requests : RowsOf (some req.groupId) .groupJoinRequests req.groupId :=
      rowsOf_own (by decide) req.groupId
    refine (calls_read fun _ _ => id).bind fun banned => (calls_isSuspended
      (rowsOf_free (by decide) req.groupId) sender now).bind fun suspended =>
        (calls_read fun _ _ => id).bind fun member => ?_
    split
    · exact within_admission ctx.me ctx.addr req.groupId sender now
    · exact (calls_write requests (fun _ _ => id) (by trivial)).bind fun _ =>
          (within_event req.groupId "requested" sender "" now).bind fun _ => calls_emit _
    · exact calls_denyJoin (rowsOf_free (by decide)) (rowsOf_free (by decide) sender)
        (fun _ _ => trivial) _

/-- **A frame** writes rows of chats it has made sure of. -/
theorem heeds_processFrame (ctx : ProcCtx) (inc : Incoming) :
    Heeds chat none (processFrame ctx inc) := by
  have plaintext : ∀ {next : Bytes → Client Unit}, (∀ bytes, Heeds chat none (next bytes)) →
      Heeds chat none ((obtainOlmPlaintext inc.from inc.payload).bind next) :=
    fun rest => Heeds.bind (heeds_may (within_plaintext _ _)) rest
  have group : ∀ {missing : String} {next : String → Client Unit},
      (∀ id, Heeds chat none (next id)) → Heeds chat none ((frameGroup inc missing).bind next) :=
    fun rest => Heeds.bind (heeds_calls (calls_okOr _ _)) rest
  have one : Heeds chat none (processOne ctx inc) := by
    unfold processOne
    split
    · exact plaintext fun bytes => heeds_deliverDmText ctx inc.from bytes inc.clientTs
    · exact plaintext fun bytes => heeds_handleGroupKeyShare ctx inc.from bytes
    · exact group fun id => heeds_processMegolm inc.from id inc.payload inc.clientTs
    · refine plaintext fun bytes => ?_
      split
      · exact heeds_leave inc.from inc.clientTs
      · exact heeds_done _
    · exact group fun id => heeds_processMegolmSystem inc.from id inc.payload inc.clientTs
    · exact plaintext fun bytes => heeds_handleJoinRequest ctx inc.from bytes inc.clientTs
    · exact plaintext fun bytes => heeds_may (calls_handleJoinDenied _ _)
    · exact group fun id => heeds_processGroupEvent ctx inc.from id inc.payload inc.clientTs
    · exact heeds_done _
  rw [processFrame_eq]
  refine Heeds.bind (Prog.Keeps.attempt one) fun result => ?_
  cases result with
  | ok _ => exact heeds_done _
  | error e => exact heeds_may (calls_emit _)

end Client

end

end

end Cherm
