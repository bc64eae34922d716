/-
**Who holds the key of our group session.**

A member encrypts for a group under a session of its own, and hands the session's key to whoever is
on its roster. The key of the stored session must not be with a user who is not on the roster any
more; and a roster changes in commands, in frames, and halfway through either.

* `Custody`: while the user is not on the roster, the stored session is none they were handed.
* `Harmless` requests keep it in every state. The others are looked at where they are made: a key is
  shared with somebody on the roster (`wpL_shared`), a new session is one that nobody was handed
  (`wpL_sender`), and who is taken off the roster by us is followed by a new one (`wpL_evict`).
* `Custodial`: a program that keeps it. `custodial_runCommand`: every command is one.
* `frame_custody`: a frame keeps it, if it does not take the user off the roster.
* `key_custody` is the result, for every sequence of commands and frames.
-/

import Cherm.Client.Account
import Cherm.Client.CommandAsks
import Cherm.Client.FrameAsks
import Cherm.Proof.Eviction

namespace Cherm

open Crates Client

/-- The rows that are neither the group's session nor its roster. -/
def Beside (group : String) (part : VaultPart) (id : String) : Prop :=
  id = group → part ≠ .groupOut ∧ part ≠ .chatMembers

theorem beside_of_ne {group : String} {part : VaultPart} (out : part ≠ .groupOut)
    (roster : part ≠ .chatMembers) (id : String) : Beside group part id := fun _ => ⟨out, roster⟩

/-- A message of another kind is no key. -/
theorem handsKey_kind {group user msgType : String} (other : msgType ≠ MsgType.olmGroupKey)
    (recipients : List String) (payload : String) (groupId : Option String) (ts : Int) :
    ¬ HandsKey group user ⟨recipients, msgType, payload, groupId, ts⟩ := fun hands => other hands.1

section

variable [Crates] {ι : Type} {group user : String}

open KeyLedger (wpL wpL_kept wpL_call wpL_world AwayFrom Aside SameKeys FreshDraw)

/-- The key of the session was shared: with the user only if they are on the roster. -/
structure Shared (group user : String) (s t : KeyLedger ι) : Prop where
  same : SameKeys group { s with shared := t.shared } t
  aside : user ∉ s.vault.getMembers group → t.shared = s.shared

theorem Shared.refl (s : KeyLedger ι) : Shared group user s s := ⟨.refl _, fun _ => rfl⟩

variable [Lineage ι]

/-! ### The law -/

/-- Who is added joins those who are on the roster. -/
theorem mem_addMember {v : Vault} {id username m : String}
    (on : m = username ∨ m ∈ v.getMembers id) : m ∈ (v.addMember id username).getMembers id := by
  unfold Vault.addMember
  split
  · next already =>
    rcases on with rfl | before
    · exact (v.isMember_iff id m).mp already
    · exact before
  · rcases on with rfl | before
    · simp [Vault.getMembers]
    · simp only [Vault.getMembers, List.filter_append, List.map_append]
      exact List.mem_append_left _ before

/-- The user is on the roster, or was not handed the key of the group's session. -/
def Custody (group user : String) (s : KeyLedger ι) : Prop :=
  user ∉ s.vault.getMembers group → ∀ ℓ ∈ s.stored group, ℓ ∉ s.shared

/-- It stores no session for the group, takes the user not off the roster, and hands no key of the
group to the user. -/
def Ask.Harmless (group user : String) : Ask → Prop
  | .call (.saveGroupOut id _) => id ≠ group
  | .call (.removeMember id username) => id = group → username ≠ user
  | .post (.send msg) => ¬ HandsKey group user msg
  | _ => True

/-- It stores no session for the group, and hands no key of the group to the user. -/
def Ask.Keyless (group user : String) : Ask → Prop
  | .call (.saveGroupOut id _) => id ≠ group
  | .post (.send msg) => ¬ HandsKey group user msg
  | _ => True

theorem Ask.Harmless.keyless {asked : Ask} (harmless : asked.Harmless group user) :
    asked.Keyless group user := by
  cases asked with
  | call op =>
      cases op with
      | saveGroupOut id sender => exact harmless
      | _ => trivial
  | post msg =>
      cases msg with
      | send msg => exact harmless
      | _ => trivial
  | _ => trivial

/-- A keyless request leaves the session as it is, or deletes it. -/
theorem stored_keyless {asked : Ask} (keyless : asked.Keyless group user) {s s' : KeyLedger ι}
    {answer : asked.Answer} (made : KeyLedger.step group user asked s answer s') :
    (s'.stored group = s.stored group ∨ s'.stored group = []) ∧ s'.shared = s.shared := by
  obtain ⟨v', effect, _, rfl⟩ := made
  have out : v'.loadGroupOut group = s.vault.loadGroupOut group ∨ v'.loadGroupOut group = none := by
    cases asked with
    | call op =>
        obtain rfl : v' = (op.exec s.vault).2 := congrArg Prod.snd (effect : (answer, v') = _)
        by_cases writes : op.Writes .groupOut group
        · cases op with
          | saveGroupOut id sender =>
              obtain ⟨_, rfl⟩ := writes
              exact absurd rfl keyless
          | deleteChat id =>
              obtain ⟨_, rfl⟩ := writes
              exact .inr (by simp [VaultOp.exec, Vault.deleteChat, Vault.loadGroupOut])
          | _ => simp [VaultOp.Writes] at writes
        · exact .inl (op.exec_frame s.vault .groupOut group writes)
    | _ =>
        obtain ⟨_, rfl⟩ := effect
        exact .inl rfl
  have noted : (s.note group user v' asked answer).vault = v' ∧
      (s.note group user v' asked answer).shared = s.shared := by
    cases asked with
    | post msg =>
        cases msg with
        | send msg => exact ⟨rfl, if_neg keyless⟩
        | _ => exact ⟨rfl, rfl⟩
    | _ => exact ⟨rfl, rfl⟩
  obtain ⟨vault, shared⟩ := noted
  refine ⟨?_, shared⟩
  unfold KeyLedger.stored
  rw [vault]
  rcases out with same | none
  · exact .inl (by rw [same])
  · exact .inr (by rw [none]; rfl)

/-- A harmless request leaves the user on the roster, or deletes the group. -/
theorem member_harmless {asked : Ask} (harmless : asked.Harmless group user) {s s' : KeyLedger ι}
    {answer : asked.Answer} (made : KeyLedger.step group user asked s answer s')
    (member : user ∈ s.vault.getMembers group) :
    user ∈ s'.vault.getMembers group ∨ s'.stored group = [] := by
  obtain ⟨v', effect, _, rfl⟩ := made
  have noted : (s.note group user v' asked answer).vault = v' := by
    cases asked with
    | post msg => cases msg <;> rfl
    | _ => rfl
  unfold KeyLedger.stored
  rw [noted]
  cases asked with
  | call op =>
      obtain rfl : v' = (op.exec s.vault).2 := congrArg Prod.snd (effect : (answer, v') = _)
      by_cases writes : op.Writes .chatMembers group
      · cases op with
        | addMember id username =>
            obtain ⟨_, rfl⟩ := writes
            exact .inl (mem_addMember (.inr member))
        | removeMember id username =>
            obtain ⟨_, rfl⟩ := writes
            refine .inl ?_
            show user ∈ (s.vault.removeMember group username).getMembers group
            rw [Vault.getMembers_removeMember]
            exact List.mem_filter.mpr ⟨member, decide_eq_true fun same => harmless rfl same.symm⟩
        | deleteChat id =>
            obtain ⟨_, rfl⟩ := writes
            exact .inr (by simp [VaultOp.exec, Vault.deleteChat, Vault.loadGroupOut])
        | _ => simp [VaultOp.Writes] at writes
      · refine .inl ?_
        rw [show (op.exec s.vault).2.getMembers group = s.vault.getMembers group from
          op.exec_frame s.vault .chatMembers group writes]
        exact member
  | _ =>
      obtain ⟨_, rfl⟩ := effect
      exact .inl member

/-- **A harmless request keeps custody.** -/
theorem custody_harmless {asked : Ask} (harmless : asked.Harmless group user) {s s' : KeyLedger ι}
    {answer : asked.Answer} (made : KeyLedger.step group user asked s answer s')
    (custody : Custody group user s) : Custody group user s' := by
  obtain ⟨out, shared⟩ := stored_keyless harmless.keyless made
  intro off ℓ held
  rw [shared]
  rcases out with same | none
  · rw [same] at held
    refine custody (fun member => ?_) ℓ held
    rcases member_harmless harmless made member with on | none
    · exact off on
    · rw [same] at none
      rw [none] at held
      cases held
  · rw [none] at held
    cases held

/-! ### Programs -/

/-- A program that keeps custody, however it ends. -/
abbrev Custodial (ι : Type) [Lineage ι] (group user : String) {α : Type} (prog : Client α) : Prop :=
  Prog.Keeps (.free (KeyLedger.step (ι := ι) group user)) (Custody group user) prog

theorem custodial_calls {α : Type} {prog : Client α}
    (calls : Prog.Calls (Ask.Harmless group user) prog) : Custodial ι group user prog :=
  fun _ custody => calls.wp (fun _ _ _ _ => trivial)
    (fun _ _ _ _ harmless custody made => custody_harmless harmless made custody) custody

/-- One harmless request. -/
theorem custodial_ask {α : Type} {asked : Ask} {next : asked.Answer → Client α}
    (harmless : asked.Harmless group user)
    (rest : ∀ answer, Custodial ι group user (next answer)) :
    Custodial ι group user (.ask asked next) :=
  Prog.keeps_ask (fun _ _ => trivial)
    (fun _ _ _ custody made => custody_harmless harmless made custody) rest

theorem harmless_of_may {asked : Ask}
    (may : asked.May (Beside group) (fun _ _ => True) fun msg => ¬ HandsKey group user msg) :
    asked.Harmless group user := by
  cases asked with
  | call op =>
      cases op with
      | saveGroupOut id sender => exact fun here => (may.1 .groupOut id ⟨rfl, rfl⟩ here).1 rfl
      | removeMember id username =>
          exact fun here => absurd rfl (may.1 .chatMembers id ⟨rfl, rfl⟩ here).2
      | _ => trivial
  | post msg =>
      cases msg with
      | send msg => exact may
      | _ => trivial
  | _ => trivial

/-- Requests that stay beside the group's session and its roster. -/
abbrev Bounded (group user : String) {α : Type} (prog : Client α) : Prop :=
  Prog.Calls (Ask.May (Beside group) (fun _ _ => True) fun msg => ¬ HandsKey group user msg) prog

theorem Bounded.harmless {α : Type} {prog : Client α} (bounded : Bounded group user prog) :
    Prog.Calls (Ask.Harmless group user) prog :=
  bounded.mono fun _ => harmless_of_may

theorem custodial_bounded {α : Type} {prog : Client α} (bounded : Bounded group user prog) :
    Custodial ι group user prog := custodial_calls bounded.harmless

/-! ### Sharing and sealing -/

theorem Shared.custody {s t : KeyLedger ι} (shared : Shared group user s t)
    (custody : Custody group user s) : Custody group user t := by
  intro off ℓ held
  rw [shared.same.roster] at off
  rw [shared.same.stored] at held
  rw [shared.aside off]
  exact custody off ℓ held

/-- A group's key goes to the recipients, who are on its roster if the user is among them. -/
theorem wpL_shared {id : String} {recipients : List String} (s : KeyLedger ι)
    (on : id = group → user ∈ recipients → user ∈ s.vault.getMembers group) (me name : String)
    (sender : GroupSender) :
    wpL group user (fun _ => Shared group user s)
      (distributeGroupKey me id name recipients sender) s := by
  by_cases here : id = group
  · subst here
    by_cases among : user ∈ recipients
    · refine Prog.wp_mono (fun _ t kept => ⟨kept, fun off => absurd (on rfl among) off⟩) ?_
      exact wpL_distribution recipients me name sender s
    · refine Prog.wp_mono (fun _ t both => ⟨both.1, fun _ => both.2.shared⟩)
        (Prog.wp_and (wpL_distribution recipients me name sender s)
          (wpL_kept (calls_distribution among me name sender) s))
  · have calls : Prog.Calls (Ask.May (AwayFrom group) (fun _ _ => True) (Aside group user))
        (distributeGroupKey me id name recipients sender) :=
      calls_distributeGroupKey (fun _ _ => by decide) (fun _ _ _ => by decide)
        (fun _ _ _ _ => ⟨fun hands => here (Option.some.inj hands.2.1),
          fun event => absurd event.1 (show ¬ MsgType.olmGroupKey = MsgType.groupEvent by decide)⟩)
        me name sender
    refine Prog.wp_mono (fun _ t kept => ?_) (wpL_kept calls s)
    have shared : t.shared = s.shared := kept.shared
    refine ⟨?_, fun _ => shared⟩
    rw [shared]
    exact kept

/-- A sender is at hand, and its session is the one that is stored. -/
structure Ready (group user id : String) (s : KeyLedger ι) (sender : GroupSender)
    (t : KeyLedger ι) : Prop where
  custody : Custody group user t
  roster : t.vault.getMembers group = s.vault.getMembers group
  stored : id = group → t.stored group = [Lineage.of sender]

/-- A session is stored. -/
def KeyLedger.store (s : KeyLedger ι) (id : String) (sender : GroupSender) : KeyLedger ι :=
  { s with vault := s.vault.saveGroupOut id sender }

theorem stored_store (s : KeyLedger ι) (id : String) (sender : GroupSender) :
    (s.store id sender).stored id = [Lineage.of sender] :=
  stored_of_out (loadGroupOut_saveGroupOut _ _ _)

/-- One vault call. -/
theorem custody_call (op : VaultOp) (harmless : (Ask.call op).Harmless group user)
    {s : KeyLedger ι} (custody : Custody group user s) :
    Custody group user { s with vault := (op.exec s.vault).2 } := by
  have made : KeyLedger.step group user (.call op) s (op.exec s.vault).1
      { s with vault := (op.exec s.vault).2 } := ⟨_, rfl, trivial, rfl⟩
  exact custody_harmless harmless made custody

/-- A session of another group is stored. -/
theorem custody_store {id : String} (other : id ≠ group) {s : KeyLedger ι}
    (custody : Custody group user s) (sender : GroupSender) :
    Custody group user (s.store id sender) :=
  custody_call (.saveGroupOut id sender) other custody

/-- One that nobody was handed. -/
theorem ready_store {id : String} {s : KeyLedger ι} {sender : GroupSender}
    (custody : id ≠ group → Custody group user s) (fresh : Lineage.of sender ∉ s.shared) :
    Ready group user id s sender (s.store id sender) := by
  by_cases here : id = group
  · subst here
    refine ⟨fun _ ℓ held => ?_, rfl, fun _ => stored_store s id sender⟩
    rw [stored_store, List.mem_singleton] at held
    rwa [held]
  · exact ⟨custody_store here (custody here) sender, rfl, fun same => absurd same here⟩

/-- **The session of a group is found, or minted and shared.** -/
theorem wpL_sender {α : Type} {id : String} {s : KeyLedger ι} {mint : GroupSender → Client Unit}
    {next : GroupSender → Client α} (custody : Custody group user s)
    (minted : ∀ sender (t : KeyLedger ι), t.vault.getMembers = s.vault.getMembers →
      wpL group user (fun _ => Shared group user t) (mint sender) t)
    (rest : ∀ sender t, Ready group user id s sender t →
      wpL group user (fun _ => Custody group user) (next sender) t) :
    wpL group user (fun _ => Custody group user) ((groupSender id mint).bind next) s := by
  unfold groupSender
  simp only [call_eq, Prog.bind_eq, Prog.ask_bind, Prog.done_bind, wpL_call, VaultOp.exec]
  cases out : s.vault.loadGroupOut id with
  | some sender =>
      refine rest sender s ⟨custody, rfl, fun here => ?_⟩
      rw [← here]
      exact stored_of_out out
  | none =>
      simp only [random_eq, Prog.ask_bind, Prog.done_bind, wpL_world, FreshDraw]
      intro seed fresh
      simp only [wpL_call, VaultOp.exec, Prog.bind_assoc, Prog.pure_eq, Prog.done_bind]
      have ready : Ready group user id s (GroupSender.new seed)
          (s.store id (GroupSender.new seed)) := ready_store (fun _ => custody) fresh
      refine Prog.wp_then (minted _ (s.store id (GroupSender.new seed)) ?_)
        (fun _ t shared => rest _ t ?_) fun _ t shared => shared.custody ready.custody
      · rfl
      · refine ⟨shared.custody ready.custody, shared.same.roster.trans ready.roster, fun here => ?_⟩
        exact shared.same.stored.trans (ready.stored here)

/-- Encrypting advances the stored session, and keeps it. -/
theorem wpL_seal {α : Type} {id : String} {s t : KeyLedger ι} {sender : GroupSender}
    {next : Unit → Client α} (ready : Ready group user id s sender t) (plaintext : Bytes)
    (rest : ∀ answer, Custodial ι group user (next answer)) :
    wpL group user (fun _ => Custody group user)
      (.ask (.call (.saveGroupOut id (sender.encrypt plaintext).2)) next) t := by
  rw [wpL_call]
  refine rest _ (t.store id (sender.encrypt plaintext).2) ?_
  by_cases here : id = group
  · subst here
    intro off ℓ held
    rw [stored_store, Lineage.of_encrypt, ← ready.stored rfl] at held
    exact ready.custody off ℓ held
  · exact custody_store here ready.custody _

theorem wpL_sealEvent {id : String} {s t : KeyLedger ι} {sender : GroupSender}
    (ready : Ready group user id s sender t) (me : String) (roster : List String) (event : Json) :
    wpL group user (fun _ => Custody group user) (sendGroupEvent me id roster sender event) t := by
  unfold sendGroupEvent
  simp only [call_eq, Prog.bind_eq, Prog.ask_bind, Prog.done_bind]
  refine wpL_seal ready _ fun _ => custodial_bounded ?_
  split
  · exact calls_now.bind fun now => calls_post (handsKey_kind (by decide) _ _ _ _)
  · trivial

/-- An announcement. -/
theorem custodial_broadcast (me id name : String) (event : Json) :
    Custodial ι group user (broadcastGroupEvent me id name event) := by
  intro s custody
  unfold broadcastGroupEvent
  simp only [call_eq, Prog.bind_eq, Prog.ask_bind, Prog.done_bind]
  refine (wpL_call _ _ s).mpr (wpL_sender custody (fun sender t roster => ?_)
    fun sender t ready => wpL_sealEvent ready me _ event)
  refine wpL_shared t (fun here among => ?_) me name sender
  rw [roster, ← here]
  exact among

/-! ### Admitting, and frames -/

/-- Who is admitted is on the roster before they are handed the key. -/
theorem custodial_admitMember (me addr id who : String) (now : Int) :
    Custodial ι group user (admitMember me addr id who now) := by
  intro s custody
  unfold admitMember
  simp only [call_eq, Prog.bind_eq, Prog.ask_bind, Prog.done_bind, wpL_call, VaultOp.exec]
  have added := custody_call (.removeJoinRequest id who) trivial
    (custody_call (.addMember id who) trivial custody)
  refine wpL_sender added (fun sender t _ => .refl t) fun sender t ready => ?_
  refine Prog.wp_then (wpL_shared t (fun here among => ?_) me _ sender)
    (fun _ t' shared => ?_) fun _ t' shared => shared.custody ready.custody
  · subst here
    obtain rfl := List.mem_singleton.mp among
    rw [ready.roster]
    exact mem_addMember (.inl rfl)
  · refine Prog.Keeps.bind (custodial_broadcast me id _ _) (fun _ => custodial_bounded ?_) t'
      (shared.custody ready.custody)
    exact (calls_emitGroupEvent (beside_of_ne (by decide) (by decide) _) _ _ _ _).bind fun _ =>
      calls_emitChats addr

/-- A call that adds, or reads, or writes elsewhere. -/
theorem harmless_call {op : VaultOp} (harmless : (Ask.call op).Harmless group user) :
    Prog.Calls (Ask.Harmless group user) (call op) := ⟨harmless, fun _ => trivial⟩

theorem harmless_emitChats (addr : String) :
    Prog.Calls (Ask.Harmless group user) (emitChats addr) :=
  Bounded.harmless (calls_emitChats addr)

theorem harmless_upsertChat (id kind title : String) :
    Prog.Calls (Ask.Harmless group user) (upsertChat id kind title) :=
  Bounded.harmless (calls_upsertChat (beside_of_ne (by decide) (by decide) _) trivial _)

theorem harmless_deliverDmText (ctx : ProcCtx) (sender : String) (plaintext : Bytes)
    (clientTs : Int) :
    Prog.Calls (Ask.Harmless group user) (deliverDmText ctx sender plaintext clientTs) := by
  have shown : ∀ (text : String) (newChat : Bool), Prog.Calls (Ask.Harmless group user) (do
      insertMessage sender sender text clientTs false
      if newChat then emitChats ctx.addr
      emit (.message sender sender text clientTs false false)
      emitFingerprint sender) := by
    intro text newChat
    refine Bounded.harmless ((calls_insertMessage (beside_of_ne (by decide) (by decide) _) _ _ _
      _).bind fun _ => ?_)
    have told : Bounded group user (do
        emit (.message sender sender text clientTs false false)
        emitFingerprint sender) := (calls_emit _).bind fun _ => calls_emitFingerprint sender
    cases newChat with
    | true => exact (calls_emitChats _).bind fun _ => told
    | false => exact told
  refine Prog.Calls.bind (calls_okOr _ _) fun text => (harmless_call (by trivial)).bind fun known =>
    (harmless_upsertChat _ _ _).bind fun _ => (harmless_call (by trivial)).bind fun _ =>
      (harmless_call (by trivial)).bind fun _ => shown text _

/-- A share only adds to the roster. -/
theorem harmless_storeShare (ctx : ProcCtx) (sender : String) (share : GroupKeyShare)
    (isNew byOwner : Bool) :
    Prog.Calls (Ask.Harmless group user) (storeShare ctx sender share isNew byOwner) := by
  have learned : Prog.Calls (Ask.Harmless group user) (learnGroup sender share) := by
    refine (harmless_upsertChat _ _ _).bind fun _ =>
      (Prog.calls_forEach fun m _ => harmless_call (by trivial)).bind fun _ => ?_
    split
    · exact harmless_call (by trivial)
    · trivial
  refine (Bounded.harmless (calls_lift _)).bind fun receiver =>
    (harmless_call (by trivial)).bind fun _ => ?_
  cases byOwner with
  | true =>
      refine learned.bind fun _ => (harmless_emitChats _).bind fun _ => ?_
      cases isNew with
      | true => exact Bounded.harmless (calls_emit _)
      | false => trivial
  | false =>
      cases isNew with
      | true => trivial
      | false => exact (harmless_emitChats _).bind fun _ => trivial

theorem harmless_handleGroupKeyShare (ctx : ProcCtx) (sender : String) (plaintext : Bytes) :
    Prog.Calls (Ask.Harmless group user) (handleGroupKeyShare ctx sender plaintext) := by
  refine (Bounded.harmless (calls_lift _)).bind fun share => (harmless_call (by trivial)).bind
    fun banned => ?_
  split
  · trivial
  refine (Bounded.harmless calls_now).bind fun now => (Bounded.harmless (calls_isSuspended
    (beside_of_ne (by decide) (by decide) _) _ _)).bind fun suspended => ?_
  split
  · trivial
  refine (harmless_call (by trivial)).bind fun known =>
    (harmless_call (by trivial)).bind fun existing => ?_
  have decided : ∀ isNew senderIsMember byOwner : Bool, Prog.Calls (Ask.Harmless group user)
      (if isNew && !byOwner then pure ()
        else if !isNew && !byOwner && !senderIsMember then pure ()
        else storeShare ctx sender share isNew byOwner) := by
    intro isNew senderIsMember byOwner
    split
    · trivial
    · split
      · trivial
      · exact harmless_storeShare ctx sender share isNew byOwner
  dsimp only
  split
  · exact decided _ false _
  · exact (harmless_call (by trivial)).bind fun member => decided _ member _

theorem custodial_handleJoinRequest (ctx : ProcCtx) (sender : String) (plaintext : Bytes)
    (now : Int) : Custodial ι group user (handleJoinRequest ctx sender plaintext now) := by
  refine Prog.Keeps.bind (custodial_bounded (calls_lift _)) fun req =>
    Prog.Keeps.bind (custodial_calls (harmless_call (by trivial))) fun row => ?_
  cases row with
  | none => exact Prog.keeps_done _
  | some row =>
      dsimp only
      split
      · exact Prog.keeps_done _
      refine Prog.Keeps.bind (custodial_calls (harmless_call (by trivial))) fun banned =>
        Prog.Keeps.bind (custodial_bounded (calls_isSuspended
          (beside_of_ne (by decide) (by decide) _) _ _)) fun suspended =>
            Prog.Keeps.bind (custodial_calls (harmless_call (by trivial))) fun member => ?_
      split
      · exact custodial_admitMember _ _ _ _ _
      · refine custodial_calls ((harmless_call (by trivial)).bind fun _ => Bounded.harmless ?_)
        exact (calls_emitGroupEvent (beside_of_ne (by decide) (by decide) _) _ _ _ _).bind
          fun _ => calls_emit _
      · exact custodial_bounded (calls_denyJoin (beside_of_ne (by decide) (by decide))
          (beside_of_ne (by decide) (by decide) _)
          (fun _ _ => handsKey_kind (by decide) _ _ _ _) _)

/-! ### Frames -/

/-- Requests that hand no key over, and store no session of ours. -/
abbrev Dumb (group user : String) {α : Type} (prog : Client α) : Prop :=
  Prog.Calls (Ask.Keyless group user) prog

theorem dumb_of_may {α : Type} {prog : Client α} (calls : Prog.Calls (Ask.May
    (fun part _ => part ≠ .groupOut) (fun _ _ => True) fun _ => False) prog) :
    Dumb group user prog := by
  refine calls.mono fun asked may => ?_
  cases asked with
  | call op =>
      cases op with
      | saveGroupOut id sender => exact absurd rfl (may.1 .groupOut id ⟨rfl, rfl⟩)
      | _ => trivial
  | post msg =>
      cases msg with
      | send msg => exact may.elim
      | _ => trivial
  | _ => trivial

/-- A call that stores no session of ours. -/
theorem dumb_call {op : VaultOp} (keyless : (Ask.call op).Keyless group user) :
    Dumb group user (call op) := ⟨keyless, fun _ => trivial⟩

theorem dumb_dropMember (id : String) (event : GroupEvent) (clientTs : Int) :
    Dumb group user (dropMember id event clientTs) := by
  refine (dumb_call (by trivial)).bind fun _ => (dumb_call (by trivial)).bind fun _ => ?_
  split
  · exact dumb_call (by trivial)
  · split
    · exact dumb_call (by trivial)
    · trivial
  · trivial

theorem dumb_applyGroupEvent (ctx : ProcCtx) (id : String) (event : GroupEvent) (clientTs : Int) :
    Dumb group user (applyGroupEvent ctx id event clientTs) := by
  have aimed : Dumb group user (do
      if event.who = ctx.me then
        if event.kind = "suspended" then
          emit (.info "you were suspended from a group")
          return false
        call (.deleteChat id)
        emitChats ctx.addr
        emit (.info ("you were " ++ event.kind ++ " from a group"))
        return true
      dropMember id event clientTs
      return false) := by
    split
    · split
      · exact (dumb_of_may (calls_emit _)).bind fun _ => trivial
      · exact (dumb_call (by trivial)).bind fun _ => (dumb_of_may (calls_emitChats _)).bind fun _ =>
          (dumb_of_may (calls_emit _)).bind fun _ => trivial
    · exact (dumb_dropMember id event clientTs).bind fun _ => trivial
  unfold applyGroupEvent
  split
  · exact (dumb_call (by trivial)).bind fun _ => (dumb_call (by trivial)).bind fun _ =>
      (dumb_call (by trivial)).bind fun _ => trivial
  · exact aimed
  · exact aimed
  · exact aimed
  · split
    · dsimp only
      split
      · exact (dumb_call (by trivial)).bind fun _ => trivial
      · trivial
    · trivial
  · trivial

theorem dumb_processGroupEvent (ctx : ProcCtx) (sender id payload : String) (clientTs : Int) :
    Dumb group user (processGroupEvent ctx sender id payload clientTs) := by
  refine (dumb_of_may (calls_openMegolm _ _ _)).bind fun opened => ?_
  rcases opened with _ | ⟨plaintext, idx, receiver⟩
  · trivial
  refine (dumb_of_may (calls_acceptMegolm (by decide) (by decide) _ _ _)).bind fun fresh => ?_
  cases fresh with
  | false => trivial
  | true =>
      refine (dumb_call (by trivial)).bind fun row => ?_
      dsimp only
      split
      · trivial
      refine (dumb_of_may (calls_lift _)).bind fun event =>
        (dumb_applyGroupEvent ctx id event clientTs).bind fun gone => ?_
      cases gone with
      | true => trivial
      | false =>
          exact (dumb_of_may (calls_emitGroupEvent (by decide) _ _ _ _)).bind fun _ =>
            dumb_of_may (calls_emitChats _)

/-- What a frame leaves: custody, or at least the session and who was handed it. -/
def FrameLeft (group user : String) (s t : KeyLedger ι) : Prop :=
  Custody group user t ∨
    (t.stored group = s.stored group ∨ t.stored group = []) ∧ t.shared = s.shared

theorem wpL_custodial {α : Type} {prog : Client α} (custodial : Custodial ι group user prog)
    {s : KeyLedger ι} (custody : Custody group user s) :
    wpL group user (fun _ => FrameLeft group user s) prog s :=
  Prog.wp_mono (fun _ _ => .inl) (custodial s custody)

theorem wpL_dumb {α : Type} {prog : Client α} (dumb : Dumb group user prog) (s : KeyLedger ι) :
    wpL group user (fun _ => FrameLeft group user s) prog s := by
  refine Prog.wp_mono (fun _ _ => .inr) (dumb.wp (S := .free (KeyLedger.step group user))
    (fun _ _ _ _ => trivial) (fun asked t answer t' keyless left made => ?_) ⟨.inl rfl, rfl⟩)
  obtain ⟨out, shared⟩ := stored_keyless keyless made
  refine ⟨?_, shared.trans left.2⟩
  rcases out with same | none
  · rw [same]
    exact left.1
  · exact .inr none

theorem wpL_processOne (ctx : ProcCtx) (inc : Incoming) {s : KeyLedger ι}
    (custody : Custody group user s) :
    wpL group user (fun _ => FrameLeft group user s) (processOne ctx inc) s := by
  have account : ∀ id, Beside group .account id := beside_of_ne (by decide) (by decide)
  have contacts : ∀ id, Beside group .contacts id := beside_of_ne (by decide) (by decide)
  have sessions : ∀ id, Beside group .olmSessions id := beside_of_ne (by decide) (by decide)
  have opened : ∀ {next : Bytes → Client Unit}, (∀ plaintext, Custodial ι group user
      (next plaintext)) → wpL group user (fun _ => FrameLeft group user s)
        ((obtainOlmPlaintext inc.from inc.payload).bind next) s := fun rest =>
    wpL_custodial (Prog.Keeps.bind (custodial_bounded
      (calls_obtainOlmPlaintext contacts account (sessions _) _)) rest) custody
  have framed : ∀ (missing : String) {next : String → Client Unit}, (∀ id, Dumb group user
      (next id)) → wpL group user (fun _ => FrameLeft group user s)
        ((frameGroup inc missing).bind next) s := fun missing _ rest =>
    wpL_dumb (Prog.Calls.bind (calls_okOr _ _) rest) s
  unfold processOne
  split
  · exact opened fun plaintext => custodial_calls (harmless_deliverDmText ctx _ _ _)
  · exact opened fun plaintext => custodial_calls (harmless_handleGroupKeyShare ctx _ _)
  · exact framed _ fun id => dumb_of_may (calls_processMegolm (by decide) (by decide) (by decide)
      _ _ _)
  · refine opened fun plaintext => ?_
    split
    · exact custodial_bounded (calls_emitSystem (beside_of_ne (by decide) (by decide) _) _ _)
    · exact Prog.keeps_done _
  · exact framed _ fun id => dumb_of_may (calls_processMegolmSystem (by decide) (by decide)
      (by decide) (by decide) _ _ _)
  · exact opened fun plaintext => custodial_handleJoinRequest ctx _ _ _
  · exact opened fun plaintext => custodial_bounded (calls_handleJoinDenied _ _)
  · exact framed _ fun id => dumb_processGroupEvent ctx _ id _ _
  · exact .inl custody

/-- **A frame keeps custody, if it does not take the user off the roster.** -/
theorem frame_custody {ctx : ProcCtx} {inc : Incoming} {s s' : KeyLedger ι}
    {result : Except String Unit}
    (runs : Prog.Runs (KeyLedger.step group user) (processFrame ctx inc) s result s')
    (stays : user ∈ s.vault.getMembers group → user ∈ s'.vault.getMembers group)
    (custody : Custody group user s) : Custody group user s' := by
  have one : wpL group user (fun _ => FrameLeft group user s) (processFrame ctx inc) s := by
    rw [processFrame_eq, wpL, Prog.wp_bind, Prog.wp_attempt]
    refine Prog.wp_mono (fun result t left => ?_) (wpL_processOne ctx inc custody)
    cases result with
    | ok _ => exact left
    | error e => exact (wpL_world _ t).mpr fun _ _ => left
  rcases Prog.wp_free_iff.mp one result s' runs with kept | ⟨out, shared⟩
  · exact kept
  · intro off ℓ held
    rw [shared]
    rcases out with same | none
    · exact custody (fun on => off (stays on)) ℓ (same ▸ held)
    · rw [none] at held
      cases held

/-! ### Commands on chats -/

/-- After the active server is found. -/
theorem custodial_withServer {app : App} {next : String → Client Unit}
    (rest : ∀ server, Custodial ι group user (next server)) :
    Custodial ι group user (do
      let some server ← activeServer app | return ()
      next server) := by
  refine Prog.Keeps.bind (custodial_bounded (calls_activeServer app)) fun server => ?_
  cases server with
  | none => exact Prog.keeps_done _
  | some server => exact rest server

/-- After our own name is found. -/
theorem custodial_withName {next : String → Client Unit}
    (rest : ∀ me, Custodial ι group user (next me)) :
    Custodial ι group user (do
      let some me ← ownUsername | return ()
      next me) := by
  refine Prog.Keeps.bind (custodial_bounded calls_ownUsername) fun me => ?_
  cases me with
  | none => exact Prog.keeps_done _
  | some me => exact rest me

/-- After the link is found alive. -/
theorem custodial_withLink {app : App} {next : Client Unit}
    (rest : Custodial ι group user next) :
    Custodial ι group user (do
      if !(← activeLink app) then return ()
      next) := by
  refine Prog.Keeps.bind (custodial_bounded (calls_activeLink app)) fun linked => ?_
  cases linked with
  | false => exact Prog.keeps_done _
  | true => exact rest

/-- After the chat is found. -/
theorem custodial_withChat {chat : String} {next : String → String → Client Unit}
    (rest : ∀ kind title, Custodial ι group user (next kind title)) :
    Custodial ι group user (do
      let some (kind, title) ← knownChat chat | return ()
      next kind title) := by
  refine Prog.Keeps.bind (custodial_bounded (calls_knownChat chat)) fun row => ?_
  rcases row with _ | ⟨kind, title⟩
  · exact Prog.keeps_done _
  · exact rest kind title

theorem custodial_emit (event : Event) : Custodial ι group user (emit event) :=
  custodial_bounded (calls_emit event)

theorem custodial_startDm (app : App) (username : String) :
    Custodial ι group user (startDm app username) := by
  refine custodial_withServer fun server => custodial_withName fun me => ?_
  split
  · exact Prog.Keeps.bind (custodial_emit _) fun _ => Prog.keeps_done _
  refine custodial_withLink (Prog.Keeps.bind (custodial_bounded (calls_startDmSession
    (beside_of_ne (by decide) (by decide)) (beside_of_ne (by decide) (by decide) _)))
      fun started => ?_)
  cases started with
  | false => exact Prog.keeps_done _
  | true =>
      refine custodial_calls ((harmless_upsertChat _ _ _).bind fun _ =>
        (harmless_call (by trivial)).bind fun _ => (harmless_call (by trivial)).bind fun _ => ?_)
      exact Bounded.harmless ((calls_emitFingerprint _).bind fun _ => (calls_emitChats _).bind
        fun _ => ((calls_read fun _ _ => id).bind fun _ => calls_emit _).bind fun _ => calls_emit _)

/-- Whoever is added is on the roster. -/
theorem wpL_addAll (id : String) (members : List String) {s : KeyLedger ι}
    (custody : Custody group user s) :
    wpL group user (fun _ t => Custody group user t ∧
        ∀ m, m ∈ members ∨ m ∈ s.vault.getMembers id → m ∈ t.vault.getMembers id)
      (Prog.forEach members fun m => call (.addMember id m)) s := by
  induction members generalizing s with
  | nil => exact ⟨custody, fun m on => on.resolve_left List.not_mem_nil⟩
  | cons first rest ih =>
      unfold Prog.forEach
      simp only [call_eq, Prog.ask_bind, Prog.done_bind, wpL_call, VaultOp.exec]
      have added := custody_call (.addMember id first) trivial custody
      refine Prog.wp_mono (fun _ t after => ⟨after.1, fun m on => after.2 m ?_⟩) (ih added)
      rcases on with among | before
      · rcases List.mem_cons.mp among with rfl | later
        · exact .inr (mem_addMember (.inl rfl))
        · exact .inl later
      · exact .inr (mem_addMember (.inr before))

/-- The chat, the roster and the row of a group, and the key for everyone on the roster. -/
theorem custodial_found (server me id name mode : String) (roster : List String)
    (sender : GroupSender) : Custodial ι group user (do
      upsertChat id "group" name
      Prog.forEach roster fun m => call (.addMember id m)
      let draw ← random
      let key ← lift (← call (.createGroupRow id mode me (groupKeyCandidates draw)))
      distributeGroupKey me id name roster sender
      emitChats server
      emit (.info ("group \"" ++ name ++ "\" created — invite key " ++ key ++ " (mode: " ++ mode ++
        ")"))
      emit (.openChat id)) := by
  refine Prog.Keeps.bind (custodial_calls (harmless_upsertChat _ _ _)) fun _ s custody => ?_
  refine Prog.wp_then (wpL_addAll id roster custody) (fun _ t added => ?_) fun _ t added => added.1
  simp only [random_eq, call_eq, Prog.bind_eq, Prog.ask_bind, Prog.done_bind, wpL_world]
  intro draw _
  refine (wpL_call _ _ t).mpr ?_
  have made := custody_call (.createGroupRow id mode me (groupKeyCandidates draw)) trivial
    added.1
  have same : ((VaultOp.createGroupRow id mode me (groupKeyCandidates draw)).exec
      t.vault).2.getMembers id = t.vault.getMembers id :=
    VaultOp.exec_frame _ t.vault .chatMembers id (by simp [VaultOp.Writes])
  generalize ((VaultOp.createGroupRow id mode me (groupKeyCandidates draw)).exec t.vault).1 = minted
  cases minted with
  | error error => exact made
  | ok key =>
      simp only [lift_eq, Prog.ofExcept, Prog.done_bind]
      refine Prog.wp_then (wpL_shared _ (fun here among => ?_) me name sender)
        (fun _ t' shared => ?_) fun _ t' shared => shared.custody made
      · subst here
        exact same ▸ added.2 user (.inl among)
      · exact custodial_bounded ((calls_emitChats _).bind fun _ => (calls_emit _).bind fun _ =>
          calls_emit _) t' (shared.custody made)

theorem custodial_createGroup (app : App) (name : String) (members : List String)
    (accessMode : Option String) :
    Custodial ι group user (createGroup app name members accessMode) := by
  refine custodial_withServer fun server => custodial_withName fun me => ?_
  dsimp only
  split
  · exact Prog.Keeps.bind (custodial_emit _) fun _ => Prog.keeps_done _
  refine custodial_withLink fun s custody => ?_
  refine (wpL_world _ s).mpr fun seed fresh => (wpL_world _ _).mpr fun uuid _ =>
    (wpL_call _ _ _).mpr ?_
  exact custodial_found server me _ name _ _ _ _ (ready_store (fun _ => custody) fresh).custody

/-- The chat's key for everyone on its roster, if a new one is minted. -/
theorem wpL_mintForRoster {id : String} (me title : String) (sender : GroupSender)
    (t : KeyLedger ι) :
    wpL group user (fun _ => Shared group user t) (do
      let roster ← call (.getMembers id)
      distributeGroupKey me id title roster sender) t := by
  refine (wpL_call _ _ t).mpr (wpL_shared t (fun here among => ?_) me title sender)
  subst here
  exact among

theorem custodial_send (app : App) (chat text : String) :
    Custodial ι group user (send app chat text) := by
  have stored : ∀ me now, Bounded group user (do
      insertMessage chat me text now true
      emit (.message chat me text now true false)) := fun me now =>
    (calls_insertMessage (beside_of_ne (by decide) (by decide) _) _ _ _ _).bind fun _ =>
      calls_emit _
  refine custodial_withServer fun server => custodial_withName fun me =>
    custodial_withChat fun kind title => custodial_withLink
      (Prog.Keeps.bind (custodial_bounded calls_now) fun now => ?_)
  dsimp only
  split
  · refine Prog.Keeps.bind (custodial_calls (harmless_call (by trivial))) fun held => ?_
    cases held with
    | none => exact Prog.Keeps.bind (custodial_emit _) fun _ => Prog.keeps_done _
    | some session =>
        exact custodial_bounded ((calls_postOlm (beside_of_ne (by decide) (by decide) _)
          (fun _ => handsKey_kind (by decide) _ _ _ _) _ _).bind fun _ => stored me now)
  · intro s custody
    refine wpL_sender custody (fun sender t _ => wpL_mintForRoster me title sender t)
      fun sender t ready => wpL_seal ready _ fun _ => ?_
    exact custodial_bounded ((calls_read fun _ _ => id).bind fun members =>
      (calls_post (handsKey_kind (by decide) _ _ _ _)).bind fun _ => stored me now)
  · exact Prog.Keeps.bind (custodial_emit _) fun _ => Prog.keeps_done _

theorem custodial_leaveNotice (app : App) (me chat kind title : String) (now : Int) :
    Custodial ι group user (leaveNotice app me chat kind title now) := by
  unfold leaveNotice
  split
  · exact Prog.keeps_done _
  split
  · refine Prog.Keeps.bind (custodial_calls (harmless_call (by trivial))) fun held => ?_
    cases held with
    | none => exact Prog.keeps_done _
    | some session =>
        exact custodial_bounded (calls_random.bind fun seed => (calls_lift _).bind fun sealed =>
          (calls_write (beside_of_ne (by decide) (by decide) _) (fun _ _ => id) (by trivial)).bind
            fun _ => (calls_post (handsKey_kind (by decide) _ _ _ _)).attempt.bind fun _ => trivial)
  · intro s custody
    refine (wpL_call _ _ s).mpr (wpL_sender custody (fun sender t roster => ?_)
      fun sender t ready => wpL_seal ready _ fun _ => ?_)
    · refine wpL_shared t (fun here among => ?_) me title sender
      rw [roster, ← here]
      exact among
    · exact custodial_bounded ((calls_post (handsKey_kind (by decide) _ _ _ _)).attempt.bind
        fun _ => trivial)

theorem custodial_leaveChat (app : App) (chat : String) :
    Custodial ι group user (leaveChat app chat) := by
  refine custodial_withServer fun server => custodial_withName fun me =>
    custodial_withChat fun kind title => Prog.Keeps.bind (custodial_bounded calls_now)
      fun now => ?_
  split
  · exact Prog.Keeps.bind (custodial_emit _) fun _ => Prog.keeps_done _
  · exact Prog.Keeps.bind (custodial_leaveNotice app me chat kind title now) fun _ =>
      custodial_calls ((harmless_call (by trivial)).bind fun _ => (harmless_emitChats _).bind
        fun _ => Bounded.harmless (calls_emit _))

/-! ### Commands of the owner -/

theorem bounded_groupOwnerCtx (app : App) (room : String) :
    Bounded group user (groupOwnerCtx app room) := by
  refine (calls_activeServer app).bind fun server => ?_
  cases server with
  | none => trivial
  | some server =>
      refine calls_ownUsername.bind fun me => ?_
      cases me with
      | none => trivial
      | some me =>
          refine (calls_activeLink app).bind fun linked => ?_
          cases linked with
          | false => trivial
          | true =>
              refine (calls_read fun _ _ => id).bind fun row => ?_
              cases row with
              | none => exact (calls_emit _).bind fun _ => trivial
              | some row =>
                  dsimp only
                  split
                  · exact (calls_emit _).bind fun _ => trivial
                  · trivial

/-- After the owner has passed. -/
theorem custodial_asOwner {app : App} {room : String}
    {next : String → String → GroupMeta → Client Unit}
    (rest : ∀ server me row, Custodial ι group user (next server me row)) :
    Custodial ι group user (do
      let some (server, me, row) ← groupOwnerCtx app room | return ()
      next server me row) := by
  refine Prog.Keeps.bind (custodial_bounded (bounded_groupOwnerCtx app room)) fun found => ?_
  rcases found with _ | ⟨server, me, row⟩
  · exact Prog.keeps_done _
  · exact rest server me row

theorem custodial_setAccess (app : App) (room mode : String) :
    Custodial ι group user (setAccess app room mode) := by
  unfold setAccess
  split
  · exact Prog.Keeps.bind (custodial_emit _) fun _ => Prog.keeps_done _
  · refine custodial_asOwner fun server me row =>
      Prog.Keeps.bind (custodial_calls (harmless_call (by trivial))) fun _ =>
        Prog.Keeps.bind (custodial_bounded (calls_groupName room)) fun name =>
          Prog.Keeps.bind (custodial_broadcast me room name _) fun _ => custodial_bounded ?_
    exact calls_now.bind fun now => (calls_emitGroupEvent (beside_of_ne (by decide) (by decide) _)
      _ _ _ _).bind fun _ => calls_emit _

theorem custodial_joinGroup (app : App) (room key owner : String) :
    Custodial ι group user (joinGroup app room key owner) := by
  refine custodial_withServer fun server => custodial_withName fun me => ?_
  split
  · exact Prog.Keeps.bind (custodial_emit _) fun _ => Prog.keeps_done _
  split
  · exact Prog.Keeps.bind (custodial_emit _) fun _ => Prog.keeps_done _
  exact custodial_withLink (custodial_bounded ((calls_sendOlmControl
    (beside_of_ne (by decide) (by decide)) (beside_of_ne (by decide) (by decide) _)
      (fun _ _ => handsKey_kind (by decide) _ _ _ _) _).bind fun _ => calls_emit _))

theorem custodial_admitUnblocked (me server room username suspended admitted : String) :
    Custodial ι group user (admitUnblocked me server room username suspended admitted) := by
  refine Prog.Keeps.bind (custodial_calls (harmless_call (by trivial))) fun banned => ?_
  split
  · exact Prog.Keeps.bind (custodial_emit _) fun _ => Prog.keeps_done _
  refine Prog.Keeps.bind (custodial_bounded calls_now) fun now => Prog.Keeps.bind
    (custodial_bounded (calls_isSuspended (beside_of_ne (by decide) (by decide) _) _ _))
      fun out => ?_
  split
  · exact Prog.Keeps.bind (custodial_emit _) fun _ => Prog.keeps_done _
  · exact Prog.Keeps.bind (custodial_admitMember me server room username now) fun _ =>
      custodial_emit _

theorem custodial_inviteMember (app : App) (room username : String) :
    Custodial ι group user (inviteMember app room username) := by
  refine custodial_asOwner fun server me row => ?_
  split
  · exact Prog.Keeps.bind (custodial_emit _) fun _ => Prog.keeps_done _
  · exact custodial_admitUnblocked _ _ _ _ _ _

theorem custodial_acceptMember (app : App) (room username : String) :
    Custodial ι group user (acceptMember app room username) := by
  refine custodial_asOwner fun server me row =>
    Prog.Keeps.bind (custodial_calls (harmless_call (by trivial))) fun asked => ?_
  split
  · exact Prog.Keeps.bind (custodial_emit _) fun _ => Prog.keeps_done _
  · exact custodial_admitUnblocked _ _ _ _ _ _

/-- A new key for the roster: nobody was handed it before. -/
theorem wpL_rekeyGroup (me room : String) {s : KeyLedger ι}
    (custody : room ≠ group → Custody group user s) :
    wpL group user (fun _ => Custody group user) (rekeyGroup me room) s := by
  refine (wpL_world _ s).mpr fun seed fresh => (wpL_call _ _ _).mpr ((wpL_call _ _ _).mpr ?_)
  have ready : Ready group user room s (GroupSender.new seed)
      (s.store room (GroupSender.new seed)) := ready_store custody fresh
  unfold groupName
  simp only [call_eq, Prog.bind_eq, Prog.ask_bind, Prog.done_bind, Prog.pure_eq, wpL_call,
    VaultOp.exec]
  refine Prog.wp_mono (fun _ t shared => shared.custody ready.custody)
    (wpL_shared (s.store room (GroupSender.new seed)) (fun here among => ?_) me _ _)
  subst here
  exact among

theorem custodial_moderate (room me username kind : String) (deadline : Option Int) :
    Custodial ι group user (moderate room me username kind deadline) := by
  refine Prog.Keeps.bind (custodial_bounded (calls_groupName room)) fun name =>
    Prog.Keeps.bind (custodial_broadcast me room name _) fun _ s custody => ?_
  simp only [call_eq, Prog.bind_eq, Prog.ask_bind, Prog.done_bind, wpL_call]
  refine Prog.wp_then (wpL_rekeyGroup me room fun other => ?_) (fun _ t kept => ?_) fun _ _ => id
  · exact custody_call (.deleteGroupIn room username) trivial
      (custody_call (.removeMember room username) (fun here => absurd here other) custody)
  · exact custodial_bounded (calls_now.bind fun now => (calls_emitGroupEvent
      (beside_of_ne (by decide) (by decide) _) _ _ _ _).bind fun _ => calls_emit _) t kept

theorem custodial_removeMember (app : App) (room username : String) :
    Custodial ι group user (removeMember app room username) := by
  refine custodial_asOwner fun server me row => ?_
  split
  · exact Prog.Keeps.bind (custodial_emit _) fun _ => Prog.keeps_done _
  · exact custodial_moderate _ _ _ _ _

theorem custodial_banMember (app : App) (room username : String) :
    Custodial ι group user (banMember app room username) := by
  refine custodial_asOwner fun server me row => ?_
  split
  · exact Prog.Keeps.bind (custodial_emit _) fun _ => Prog.keeps_done _
  · exact Prog.Keeps.bind (custodial_bounded calls_now) fun now => Prog.Keeps.bind
      (custodial_calls (harmless_call (by trivial))) fun _ => custodial_moderate _ _ _ _ _

theorem custodial_suspendMember (app : App) (room username duration : String) :
    Custodial ι group user (suspendMember app room username duration) := by
  refine custodial_asOwner fun server me row => ?_
  split
  · exact Prog.Keeps.bind (custodial_emit _) fun _ => Prog.keeps_done _
  · dsimp only
    split
    · exact Prog.Keeps.bind (custodial_emit _) fun _ => Prog.keeps_done _
    · exact Prog.Keeps.bind (custodial_bounded calls_now) fun now => Prog.Keeps.bind
        (custodial_calls (harmless_call (by trivial))) fun _ => custodial_moderate _ _ _ _ _

theorem custodial_unbanMember (app : App) (room username : String) :
    Custodial ι group user (unbanMember app room username) := by
  refine custodial_bounded ((bounded_groupOwnerCtx app room).bind fun found => ?_)
  cases found with
  | none => trivial
  | some found =>
      refine (calls_read fun _ _ => id).bind fun banned => ?_
      split
      · exact (calls_emit _).bind fun _ => trivial
      · exact (calls_write (beside_of_ne (by decide) (by decide) _) (fun _ _ => id)
          (by trivial)).bind fun _ => calls_emit _

theorem custodial_unsuspendMember (app : App) (room username : String) :
    Custodial ι group user (unsuspendMember app room username) := by
  refine custodial_bounded ((bounded_groupOwnerCtx app room).bind fun found => ?_)
  cases found with
  | none => trivial
  | some found =>
      refine (calls_read fun _ _ => id).bind fun deadline => ?_
      cases deadline with
      | none => exact (calls_emit _).bind fun _ => trivial
      | some deadline =>
          exact (calls_write (beside_of_ne (by decide) (by decide) _) (fun _ _ => id)
            (by trivial)).bind fun _ => calls_emit _

theorem custodial_groupInfo (app : App) (room : String) :
    Custodial ι group user (groupInfo app room) := by
  refine custodial_withServer fun server => custodial_bounded ((calls_read fun _ _ => id).bind
    fun me => (calls_read fun _ _ => id).bind fun row => ?_)
  cases row with
  | none => exact (calls_emit _).bind fun _ => trivial
  | some row =>
      dsimp only
      split
      · refine (calls_read fun _ _ => id).bind fun pending => ?_
        split <;> refine (calls_read fun _ _ => id).bind fun bans => ?_ <;> split <;>
          exact calls_emit _
      · exact calls_emit _

/-! ### Commands on the identity -/

theorem harmless_emit (event : Event) : Prog.Calls (Ask.Harmless group user) (emit event) :=
  ⟨trivial, fun _ => trivial⟩

theorem harmless_request (msg : ClientMsg) : Prog.Calls (Ask.Harmless group user) (request msg) :=
  ⟨trivial, fun _ => Prog.calls_ofExcept _⟩

theorem harmless_openLink (server : String) :
    Prog.Calls (Ask.Harmless group user) (openLink server) := by
  refine ⟨trivial, fun answer => ?_⟩
  cases answer with
  | ok _ => trivial
  | error e => exact (harmless_emit _).bind fun _ => trivial

theorem harmless_goLive (otks : List OneTimeKey) :
    Prog.Calls (Ask.Harmless group user) (goLive otks) := by
  have pull : Prog.Calls (Ask.Harmless group user) (post .pull) :=
    ⟨trivial, fun _ => Prog.calls_ofExcept _⟩
  exact (harmless_request _).attempt.bind fun _ => pull.attempt.bind fun _ =>
    ⟨trivial, fun _ => Prog.calls_ofExcept _⟩

theorem harmless_replenish (device : Device) :
    Prog.Calls (Ask.Harmless group user) (replenish device) :=
  (Bounded.harmless calls_random).bind fun _ => (harmless_call (by trivial)).bind fun _ => trivial

/-- What follows once a device is at hand. -/
theorem harmless_claim (app : App) (username server : String) (device : Device) :
    Prog.Calls (Ask.Harmless group user) (do
      if !(← openLink server) then return ()
      let _ ← (request (clientHello app)).attempt
      match ← request (.register username device.ed25519B64 device.curve25519B64 app.machineId) with
      | .authOk uuid uname =>
          call (.metaSet "username" uname)
          call (.metaSet "uuid" uuid)
          call (.metaSet "server" server)
          call (.upsertContact uname uuid device.ed25519B64 device.curve25519B64)
          let (device, otks) ← replenish device
          match ← Prog.query (Ask.writeBackup server uname uuid device) with
          | .ok path => emit (.info ("identity backed up to " ++ path ++ " (keep it safe)"))
          | .error _ => pure ()
          goLive otks
          emit (.registered server uname uuid)
          emit (.connected server uname)
          emitChats server
          emit .servers
      | .error code message => emit (.error code message)
      | other => emit (.error "internal" ("unexpected register reply: " ++ debugText other))) := by
  have greeting : ∀ (uname uuid : String) (otks : List OneTimeKey),
      Prog.Calls (Ask.Harmless group user) (do
        goLive otks
        emit (.registered server uname uuid)
        emit (.connected server uname)
        emitChats server
        emit .servers) := fun uname uuid otks =>
    (harmless_goLive otks).bind fun _ => (harmless_emit _).bind fun _ => (harmless_emit _).bind
      fun _ => (harmless_emitChats _).bind fun _ => harmless_emit _
  refine (harmless_openLink server).bind fun isOpen => ?_
  cases isOpen with
  | false => trivial
  | true =>
      refine (harmless_request _).attempt.bind fun _ => (harmless_request _).bind fun reply => ?_
      cases reply with
      | authOk uuid uname =>
          refine (harmless_call (by trivial)).bind fun _ => (harmless_call (by trivial)).bind
            fun _ => (harmless_call (by trivial)).bind fun _ => (harmless_call (by trivial)).bind
              fun _ => (harmless_replenish device).bind fun kept => ⟨trivial, fun backup => ?_⟩
          cases backup with
          | ok path => exact (harmless_emit _).bind fun _ => greeting uname uuid _
          | error e => exact greeting uname uuid _
      | _ => exact harmless_emit _

theorem harmless_register (app : App) (addr username : String) :
    Prog.Calls (Ask.Harmless group user) (register app addr username) := by
  unfold register
  dsimp only
  split
  · exact (harmless_emit _).bind fun _ => trivial
  split
  · exact (harmless_emit _).bind fun _ => trivial
  refine (harmless_call (by trivial)).bind fun held => ?_
  cases held with
  | some device => exact harmless_claim app username _ device
  | none =>
      exact (Bounded.harmless calls_random).bind fun seed => (harmless_call (by trivial)).bind
        fun _ => harmless_claim app username _ _

theorem harmless_challengeNonce (username : String) :
    Prog.Calls (Ask.Harmless group user) (challengeNonce username) := by
  refine (harmless_request _).bind fun reply => ?_
  cases reply with
  | challenge nonce =>
      dsimp only
      split
      · trivial
      · exact (harmless_emit _).bind fun _ => trivial
  | _ => exact (harmless_emit _).bind fun _ => trivial

theorem harmless_authenticate (device : Device) (username : String) (nonce : Bytes) :
    Prog.Calls (Ask.Harmless group user) (authenticate device username nonce) := by
  refine (harmless_request _).bind fun reply => ?_
  cases reply with
  | authOk uuid uname => trivial
  | _ => exact (harmless_emit _).bind fun _ => trivial

theorem harmless_connect (app : App) (addr : String) :
    Prog.Calls (Ask.Harmless group user) (connect app addr) := by
  refine (harmless_call (by trivial)).bind fun name => ?_
  cases name with
  | none => exact harmless_emit _
  | some username =>
      refine (harmless_call (by trivial)).bind fun held => ?_
      cases held with
      | none => exact harmless_emit _
      | some device =>
          refine (harmless_openLink _).bind fun isOpen => ?_
          cases isOpen with
          | false => trivial
          | true =>
              refine (harmless_request _).attempt.bind fun _ =>
                (harmless_challengeNonce username).bind fun nonce => ?_
              cases nonce with
              | none => trivial
              | some nonce =>
                  refine (harmless_authenticate device username nonce).bind fun granted => ?_
                  rcases granted with _ | ⟨uuid, uname⟩
                  · trivial
                  · exact (harmless_call (by trivial)).bind fun _ =>
                      (harmless_call (by trivial)).bind fun _ => (harmless_replenish device).bind
                        fun kept => (harmless_goLive _).bind fun _ => (harmless_emit _).bind
                          fun _ => (harmless_emitChats _).bind fun _ => harmless_emit _

theorem harmless_switchServer (app : App) (addr : String) :
    Prog.Calls (Ask.Harmless group user) (switchServer app addr) := by
  unfold switchServer
  dsimp only
  split
  · exact (harmless_emitChats _).bind fun _ => harmless_emit _
  · refine (harmless_call (by trivial)).bind fun name => ?_
    split
    · exact harmless_connect _ _
    · exact (harmless_emit _).bind fun _ => (harmless_emitChats _).bind fun _ => harmless_emit _

theorem custodial_exportIdentity (app : App) :
    Custodial ι group user (exportIdentity app) := by
  refine custodial_withServer fun server => custodial_withName fun username => custodial_calls
    ((harmless_call (by trivial)).bind fun uuid => (harmless_call (by trivial)).bind fun held => ?_)
  cases held with
  | none => exact harmless_emit _
  | some device =>
      refine ⟨trivial, fun backup => ?_⟩
      cases backup with
      | ok path => exact harmless_emit _
      | error e => exact harmless_emit _

theorem custodial_importIdentity (path : String) :
    Custodial ι group user (importIdentity path) := by
  refine custodial_ask trivial fun file => ?_
  cases file with
  | error e => exact custodial_emit _
  | ok data =>
      dsimp only [Prog.done_bind]
      split
      · exact custodial_emit _
      split
      · exact Prog.Keeps.bind (custodial_emit _) fun _ => Prog.keeps_done _
      split
      · exact custodial_emit _
      have restored : ∀ (server username : String), Custodial ι group user (do
          lift (← Prog.query Ask.saveIndex)
          emit (.info ("identity '" ++ username ++ "' imported on " ++ server ++
            " — select it and Connect to log in"))
          emit .servers) := fun server username =>
        custodial_ask trivial fun saved => custodial_bounded ((calls_lift saved).bind fun _ =>
          (calls_emit _).bind fun _ => calls_emit _)
      refine custodial_ask trivial fun _ => custodial_ask trivial fun _ =>
        custodial_ask trivial fun _ => ?_
      dsimp only [Prog.done_bind]
      split
      · exact custodial_ask trivial fun _ => custodial_ask trivial fun _ => restored _ _
      · exact custodial_ask trivial fun _ => restored _ _

theorem custodial_ping (app : App) : Custodial ι group user (ping app) := by
  refine custodial_withServer fun server => custodial_withLink (custodial_calls
    ((Bounded.harmless calls_now).bind fun start => (harmless_request _).bind fun reply =>
      (Bounded.harmless calls_now).bind fun finish => ?_))
  cases reply with
  | pong => exact harmless_emit _
  | _ => exact harmless_emit _

/-- **Every command keeps custody**, however it ends. -/
theorem custodial_runCommand (app : App) (command : Command) :
    Custodial ι group user (runCommand app command) := by
  have handled : Custodial ι group user (handle app command) := by
    cases command with
    | connect server => exact custodial_calls (harmless_connect _ _)
    | register server username => exact custodial_calls (harmless_register _ _ _)
    | switchServer server => exact custodial_calls (harmless_switchServer _ _)
    | listChats => exact custodial_withServer fun server => custodial_calls (harmless_emitChats _)
    | history chat limit =>
        exact custodial_withServer fun _ => custodial_bounded ((calls_read fun _ _ => id).bind
          fun _ => calls_emit _)
    | startDm username => exact custodial_startDm _ _
    | createGroup name members accessMode => exact custodial_createGroup _ _ _ _
    | setAccess group mode => exact custodial_setAccess _ _ _
    | joinGroup group key owner => exact custodial_joinGroup _ _ _ _
    | inviteMember group username => exact custodial_inviteMember _ _ _
    | acceptMember group username => exact custodial_acceptMember _ _ _
    | removeMember group username => exact custodial_removeMember _ _ _
    | banMember group username => exact custodial_banMember _ _ _
    | unbanMember group username => exact custodial_unbanMember _ _ _
    | unsuspendMember group username => exact custodial_unsuspendMember _ _ _
    | suspendMember group username duration => exact custodial_suspendMember _ _ _ _
    | groupInfo group => exact custodial_groupInfo _ _
    | send chat text => exact custodial_send _ _ _
    | leaveChat chat => exact custodial_leaveChat _ _
    | ping => exact custodial_ping _
    | exportIdentity => exact custodial_exportIdentity _
    | importIdentity path => exact custodial_importIdentity _
  refine Prog.Keeps.bind handled.attempt fun result => ?_
  cases result with
  | ok _ => exact Prog.keeps_done _
  | error e => exact custodial_emit _

/-! ### Runs -/

/-- A command, or a frame. -/
inductive Job where
  | command (app : App) (command : Command)
  | frame (ctx : ProcCtx) (inc : Incoming)

def Job.prog : Job → Client Unit
  | .command app issued => runCommand app issued
  | .frame ctx inc => processFrame ctx inc

/-- A frame does not take the user off the roster: no leave notice of theirs, and no event of an
owner who is somebody else. -/
def Job.Spares (group user : String) (s s' : KeyLedger ι) : Job → Prop
  | .command _ _ => True
  | .frame _ _ => user ∈ s.vault.getMembers group → user ∈ s'.vault.getMembers group

/-- One job after the other, each to its end. -/
inductive Jobs (group user : String) : List Job → KeyLedger ι → KeyLedger ι → Prop where
  | nil (s : KeyLedger ι) : Jobs group user [] s s
  | cons {job : Job} {rest : List Job} {s mid s' : KeyLedger ι} {result : Except String Unit}
      (runs : Prog.Runs (KeyLedger.step group user) job.prog s result mid)
      (spares : job.Spares group user s mid) (later : Jobs group user rest mid s') :
      Jobs group user (job :: rest) s s'

/-- **The key of our session is with nobody who is off the roster.** Whatever commands are given and
whatever frames arrive, in whatever order, and however each of them ends: while the user is not on
the roster of a group, the session we write under is none that they were handed; unless a frame
took them off the roster, which nothing follows. -/
theorem key_custody {jobs : List Job} {s s' : KeyLedger ι}
    (run : Jobs group user jobs s s') (custody : Custody group user s) :
    Custody group user s' := by
  induction run with
  | nil s => exact custody
  | @cons job rest s mid s' result runs spares later ih =>
      refine ih ?_
      cases job with
      | command app command =>
          exact Prog.wp_free_iff.mp (custodial_runCommand app command s custody) result mid runs
      | frame ctx inc => exact frame_custody runs spares custody

end

namespace Ideal

/-- Alice removes Bob from her group. -/
def bobTakenOff : Except String Unit × KeyLedger Nat :=
  Prog.run (playKeys world "g" "bob") (runCommand aliceApp (.removeMember "g" "bob")) aliceOwnsGroup

/-- She writes to it under another session than the one Bob was handed. -/
theorem bob_hears_nothing : bobTakenOff.2.stored "g" ≠ [] ∧
    ∀ ℓ ∈ bobTakenOff.2.stored "g", ℓ ∉ bobTakenOff.2.shared := by
  have runs : Prog.Runs (KeyLedger.step "g" "bob")
      (Job.command aliceApp (.removeMember "g" "bob")).prog aliceOwnsGroup bobTakenOff.1
      bobTakenOff.2 :=
    Prog.run_runs_of_checks (playKeys_conforms world "g" "bob") (by decide +kernel)
  have before : Custody "g" "bob" aliceOwnsGroup := fun off => absurd (by decide +kernel) off
  exact ⟨by decide +kernel, key_custody (.cons runs trivial (.nil _)) before (by decide +kernel)⟩

end Ideal

end Cherm
