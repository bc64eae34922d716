/-
**Moderation that fails midway.**

`removeMember`, `banMember` and `suspendMember` write their row, and `moderate` goes on in two
parts: the event is announced to the group, then the user is dropped and the key rotated.

* `Announced` is what the first part leaves, however it ends (`wpL_announce`): the roster is what it
  was, and the stored session at most advanced, or minted.
* `Evicted` is what the second part leaves, however it ends (`wpL_evict`): the user is off the
  roster and the stored session is one that nobody off the roster was handed.
* `moderation_consistent_iff`: so the group is consistent afterwards if the event went out; if it
  did not, then only where nothing had to be done.
* `wpL_refused`: a command that is refused changes nothing.
-/

import Cherm.Client.Ledger
import Cherm.Client.Moderation
import Cherm.Ideal

namespace Cherm

open Crates Client

section

variable [Crates]

/-! ### The law -/

/-- Banned, or suspended until after this time. -/
def Vault.Blocked (v : Vault) (group username : String) (time : Int) : Prop :=
  v.isBanned group username = true ∨
    ∃ deadline, v.suspendedUntil group username = some deadline ∧ time < deadline

/-- **The law**: nobody blocked is on the roster, and if the user is not on the roster then the
stored session is none that the user was handed. -/
structure Consistent {ι : Type} [Lineage ι] (group user : String) (time : Int) (s : KeyLedger ι) :
    Prop where
  roster : ∀ w, s.vault.Blocked group w time → w ∉ s.vault.getMembers group
  session : user ∉ s.vault.getMembers group → ∀ ℓ ∈ s.stored group, ℓ ∉ s.shared

/-- The three commands. -/
inductive Moderation where
  | remove
  | ban
  | suspend (duration : String)

namespace Moderation

def prog (app : App) (group user : String) : Moderation → Client Unit
  | remove => removeMember app group user
  | ban => banMember app group user
  | suspend duration => suspendMember app group user duration

/-- The length of a suspension. -/
def span (duration : String) : Int := ((parseDuration duration).filter (0 < ·)).getD 0

/-- The vault with the row the command writes, given its first reading of the clock. -/
def rows (group user : String) (reading : Int) (v : Vault) : Moderation → Vault
  | remove => v
  | ban => v.banUser group user reading
  | suspend duration => v.suspendUser group user (wrapI64 (reading + span duration))

/-- The event the command announces. -/
def event (user : String) (reading : Int) : Moderation → Json
  | remove => moderationEvent "removed" user none
  | ban => moderationEvent "banned" user none
  | suspend duration => moderationEvent "suspended" user (some (wrapI64 (reading + span duration)))

def kind : Moderation → String
  | remove => "removed"
  | ban => "banned"
  | suspend _ => "suspended"

end Moderation

/-- The command is the owner's, about somebody else, with a link and a duration. -/
structure Entered (app : App) (v : Vault) (group user me : String) (cmd : Moderation) : Prop where
  server : app.active.isSome
  linked : app.linked = true
  registered : v.metaGet "username" = some me
  row : ∃ row, v.getGroupMeta group = some row ∧ row.owner = me
  named : me ≠ ""
  other : user ≠ me
  duration : ∀ text, cmd = .suspend text → ∃ ms, (parseDuration text).filter (0 < ·) = some ms

variable {ι : Type}

open KeyLedger (wpL wpL_kept wpL_call wpL_world note_event AwayFrom Aside SameKeys FreshDraw)

/-! ### What only grows -/

/-- Readings, hand-overs and the mark of the event are kept. -/
structure Grows (s s' : KeyLedger ι) : Prop where
  readings : s.readings <+: s'.readings
  shared : ∀ ℓ ∈ s.shared, ℓ ∈ s'.shared
  sent : s.sent = true → s'.sent = true

theorem Grows.refl (s : KeyLedger ι) : Grows s s := ⟨List.prefix_rfl, fun _ => id, id⟩

theorem Grows.trans {s s' s'' : KeyLedger ι} (first : Grows s s') (second : Grows s' s'') :
    Grows s s'' :=
  ⟨first.readings.trans second.readings, fun ℓ member => second.shared ℓ (first.shared ℓ member),
    fun sent => second.sent (first.sent sent)⟩

variable [Lineage ι] {group user me : String}

theorem step_grows {asked : Ask} {s s' : KeyLedger ι} {answer : asked.Answer}
    (made : KeyLedger.step group user asked s answer s') : Grows s s' := by
  obtain ⟨v', _, _, rfl⟩ := made
  cases asked with
  | post msg =>
      cases msg with
      | send msg =>
          refine ⟨List.prefix_rfl, fun ℓ member => ?_, fun sent => by simp [KeyLedger.note, sent]⟩
          show ℓ ∈ (if HandsKey group user msg then s.shared ++ s.stored group else s.shared)
          split
          · exact List.mem_append_left _ member
          · exact member
      | _ => exact ⟨List.prefix_rfl, fun _ => id, id⟩
  | now => exact ⟨List.prefix_append _ _, fun _ => id, id⟩
  | _ => exact ⟨List.prefix_rfl, fun _ => id, id⟩

theorem wpL_grows {α : Type} (prog : Client α) (s : KeyLedger ι) :
    wpL group user (fun _ => Grows s) prog s := by
  have anything : Prog.Calls (fun _ => True) prog := by
    induction prog with
    | done value => trivial
    | fail error => trivial
    | ask asked next ih => exact ⟨trivial, ih⟩
  exact anything.wp (fun _ _ _ _ => trivial) (fun _ _ _ _ _ grown made =>
    grown.trans (step_grows made))
    (.refl s)

/-! ### Announcing -/

/-- What the announcement leaves, however it ends. -/
structure Announced (group user me : String) (s : KeyLedger ι) (result : Except String Unit)
    (s' : KeyLedger ι) : Prop where
  roster : s'.vault.getMembers group = s.vault.getMembers group
  bans : ∀ w, s'.vault.groupBans.get (group, w) = s.vault.groupBans.get (group, w)
  suspensions : ∀ w, s'.vault.groupSuspensions.get (group, w) =
    s.vault.groupSuspensions.get (group, w)
  aside : user ∉ s.vault.getMembers group → s'.shared = s.shared
  went : result = .ok () → s'.sent = true ∨ ∀ w ∈ s.vault.getMembers group, w = me
  failed : ∀ error, result = .error error → s'.sent = s.sent
  stored : s.stored group ≠ [] → s'.stored group = s.stored group ∧
    ∀ error, result = .error error → ∃ w ∈ s.vault.getMembers group, w ≠ me
  minted : s.stored group = [] → ∀ ℓ ∈ s'.stored group, ℓ ∉ s.shared

/-- The keys of the group go to people on the roster, and to nobody else. -/
theorem calls_distribution {recipients : List String} (off : user ∉ recipients) (me name : String)
    (sender : GroupSender) :
    Prog.Calls (Ask.May (AwayFrom group) (fun _ _ => True) (Aside group user))
      (distributeGroupKey me group name recipients sender) := by
  refine calls_distributeGroupKey (fun _ _ => by decide) (fun _ _ _ => by decide)
    (fun member here payload now => ⟨fun hands => ?_, fun event => ?_⟩) me name sender
  · exact off (List.mem_singleton.mp hands.2.2 ▸ here)
  · exact absurd event.1 (show ¬ MsgType.olmGroupKey = MsgType.groupEvent by decide)

/-- Only the sessions that were handed over have changed. -/
def sharedOnly (group : String) (s s' : KeyLedger ι) : Prop :=
  SameKeys group { s with shared := s'.shared } s'

/-- A distribution to anybody leaves the group's vault alone and hands over no event. -/
theorem wpL_distribution (recipients : List String) (me name : String) (sender : GroupSender)
    (s : KeyLedger ι) :
    wpL group user (fun _ s' => SameKeys group { s with shared := s'.shared } s')
      (distributeGroupKey me group name recipients sender) s := by
  have calls : Prog.Calls (Ask.May (AwayFrom group) (fun _ _ => True)
      fun msg => ¬ IsEventOf group msg) (distributeGroupKey me group name recipients sender) :=
    calls_distributeGroupKey (fun _ _ => by decide) (fun _ _ _ => by decide)
      (fun _ _ _ _ event => absurd event.1
        (show ¬ MsgType.olmGroupKey = MsgType.groupEvent by decide)) me name sender
  refine calls.wp (fun _ _ _ _ => trivial) (?_ : ∀ asked t answer t', _ → sharedOnly group s t →
    KeyLedger.step group user asked t answer t' → sharedOnly group s t') (.refl s)
  intro asked t answer t' may kept made
  obtain ⟨v', effect, _, rfl⟩ := made
  have same : ∀ part ∈ KeyLedger.moderated, part.SameAt group t.vault v' := fun part listed =>
    may.frame (fun elsewhere => elsewhere rfl listed) effect
  have noted : (t.note group user v' asked answer).vault = v' ∧
      (t.note group user v' asked answer).sent = t.sent := by
    cases asked with
    | post msg =>
        cases msg with
        | send msg => exact ⟨rfl, by simp [KeyLedger.note, show ¬ IsEventOf group msg from may]⟩
        | _ => exact ⟨rfl, rfl⟩
    | _ => exact ⟨rfl, rfl⟩
  obtain ⟨vault, sent⟩ := noted
  refine ⟨?_, ?_, ?_, ?_, rfl, sent.trans kept.sent⟩
  · rw [vault]
    exact Eq.trans (same .chatMembers (by decide)) kept.roster
  · rw [vault]
    exact Eq.trans (same .groupOut (by decide)) kept.out
  · rw [vault]
    exact fun w => (congrFun (same .groupBans (by decide)) w).trans (kept.bans w)
  · rw [vault]
    exact fun w => (congrFun (same .groupSuspensions (by decide)) w).trans (kept.suspensions w)

theorem stored_of_out {s : KeyLedger ι} {sender : GroupSender}
    (out : s.vault.loadGroupOut group = some sender) : s.stored group = [Lineage.of sender] := by
  rw [KeyLedger.stored, out]
  rfl

theorem loadGroupOut_saveGroupOut (v : Vault) (group : String) (sender : GroupSender) :
    (v.saveGroupOut group sender).loadGroupOut group = some sender := by
  rw [Vault.saveGroupOut, Vault.loadGroupOut, Table.get_put, if_pos rfl]

/-- What handing over the event leaves, with the sender's session stored. -/
structure EventSent (group me : String) (roster : List String) (t : KeyLedger ι)
    (result : Except String Unit) (t' : KeyLedger ι) : Prop where
  members : t'.vault.getMembers group = t.vault.getMembers group
  bans : ∀ w, t'.vault.groupBans.get (group, w) = t.vault.groupBans.get (group, w)
  suspensions : ∀ w, t'.vault.groupSuspensions.get (group, w) =
    t.vault.groupSuspensions.get (group, w)
  stored : t'.stored group = t.stored group
  shared : t'.shared = t.shared
  went : result = .ok () → t'.sent = true ∨ ∀ w ∈ roster, w = me
  failed : ∀ error, result = .error error → t'.sent = t.sent ∧ ∃ w ∈ roster, w ≠ me

theorem wpL_sendGroupEvent {t : KeyLedger ι} {sender : GroupSender}
    (stored : t.stored group = [Lineage.of sender]) (me : String) (roster : List String)
    (event : Json) :
    wpL group user (EventSent group me roster t) (sendGroupEvent me group roster sender
    event) t := by
  have advanced : ∀ t' : KeyLedger ι, t'.vault = t.vault.saveGroupOut group
      (sender.encrypt (toVec event)).2 → t'.stored group = t.stored group := by
    intro t' same
    have out : t'.vault.loadGroupOut group = some (sender.encrypt (toVec event)).2 := by
      rw [same, loadGroupOut_saveGroupOut]
    rw [stored_of_out out, Lineage.of_encrypt, stored]
  unfold sendGroupEvent
  simp only [call_eq, Prog.bind_eq, Prog.ask_bind, Prog.done_bind, wpL_call, VaultOp.exec]
  by_cases alone : (roster.filter (· ≠ me)).isEmpty = true
  · have everyone : ∀ w ∈ roster, w = me := by simpa using alone
    simp only [alone, Bool.not_true, Bool.false_eq_true, if_false, Prog.pure_eq, Prog.wp_done]
    exact ⟨rfl, fun _ => rfl, fun _ => rfl, advanced _ rfl, rfl, fun _ => .inr everyone,
      fun _ failed => (by cases failed)⟩
  · have others : ∃ w ∈ roster, w ≠ me := by simpa using alone
    simp only [alone, Bool.not_false, if_true, now_eq, post_eq, Prog.ask_bind, Prog.done_bind,
      wpL_world, FreshDraw, true_implies]
    intro reading answer
    rw [note_event ⟨rfl, rfl⟩]
    cases answer with
    | ok u =>
        refine ⟨rfl, fun _ => rfl, fun _ => rfl, advanced _ rfl, rfl, fun _ => .inl ?_,
          fun _ failed => (by cases failed)⟩
        exact Bool.or_true _
    | error e =>
        refine ⟨rfl, fun _ => rfl, fun _ => rfl, advanced _ rfl, rfl,
          fun ok => (by cases ok), fun _ _ => ⟨?_, others⟩⟩
        exact Bool.or_false _

/-- A session that was minted and stored, and shared with whom it may be. -/
structure Minted (group user : String) (recipients : List String) (s : KeyLedger ι)
    (sender : GroupSender) (t : KeyLedger ι) : Prop where
  roster : t.vault.getMembers group = s.vault.getMembers group
  bans : ∀ w, t.vault.groupBans.get (group, w) = s.vault.groupBans.get (group, w)
  suspensions : ∀ w, t.vault.groupSuspensions.get (group, w) =
    s.vault.groupSuspensions.get (group, w)
  stored : t.stored group = [Lineage.of sender]
  aside : user ∉ recipients → t.shared = s.shared
  sent : t.sent = s.sent

/-- Sharing the session that is stored: with the user only if they are among the recipients. -/
theorem wpL_mintedShared {s t₀ : KeyLedger ι} {sender : GroupSender}
    (saved : t₀.vault = s.vault.saveGroupOut group sender) (shared : t₀.shared = s.shared)
    (sent : t₀.sent = s.sent) (recipients : List String) (me name : String) :
    wpL group user (fun _ => Minted group user recipients s sender)
      (distributeGroupKey me group name recipients sender) t₀ := by
  have out : t₀.vault.loadGroupOut group = some sender := by
    rw [saved, loadGroupOut_saveGroupOut]
  have anyone : ∀ t, SameKeys group { t₀ with shared := t.shared } t →
      (user ∉ recipients → t.shared = s.shared) → Minted group user recipients s sender t := by
    intro t kept aside
    refine ⟨kept.roster.trans (by rw [saved]; rfl), fun w =>
      (kept.bans w).trans (by rw [saved]; rfl),
      fun w => (kept.suspensions w).trans (by rw [saved]; rfl), ?_, aside, kept.sent.trans sent⟩
    exact stored_of_out (kept.out.trans out)
  by_cases off : user ∈ recipients
  · exact Prog.wp_mono (fun _ t kept => anyone t kept fun absent => absurd off absent)
      (wpL_distribution recipients me name sender t₀)
  · refine Prog.wp_mono (fun _ t both => anyone t both.1 fun _ => ?_)
      (Prog.wp_and (wpL_distribution recipients me name sender t₀)
        (wpL_kept (calls_distribution off me name sender) t₀))
    exact both.2.shared.trans shared

/-- **The first part**, however it ends. -/
theorem wpL_broadcastGroupEvent (s : KeyLedger ι) (me name : String) (event : Json) :
    wpL group user (Announced group user me s) (broadcastGroupEvent me group name event) s := by
  unfold broadcastGroupEvent groupSender
  simp only [call_eq, Prog.bind_eq, Prog.ask_bind, Prog.done_bind, wpL_call, VaultOp.exec]
  cases out : s.vault.loadGroupOut group with
  | some sender =>
      simp only [Prog.pure_eq, Prog.done_bind]
      have stored := stored_of_out out
      refine Prog.wp_mono (fun result s' sent => ?_)
        (wpL_sendGroupEvent stored me (s.vault.getMembers group) event)
      exact ⟨sent.members, sent.bans, sent.suspensions, fun _ => sent.shared, sent.went,
        fun error failed => (sent.failed error failed).1,
        fun _ => ⟨sent.stored, fun error failed => (sent.failed error failed).2⟩,
        fun empty => absurd (stored.symm.trans empty) (by simp)⟩
  | none =>
      have unstored : s.stored group = [] := by rw [KeyLedger.stored, out]; rfl
      simp only [random_eq, Prog.ask_bind, Prog.done_bind, wpL_world, FreshDraw]
      intro seed fresh
      simp only [wpL_call, VaultOp.exec, Prog.bind_assoc, Prog.pure_eq, Prog.done_bind]
      refine Prog.wp_then (wpL_mintedShared (s := s) ?_ ?_ ?_ _ me name) ?_ ?_
      · rfl
      · rfl
      · rfl
      · intro _ t minted
        refine Prog.wp_mono (fun result s' sent => ?_)
          (wpL_sendGroupEvent minted.stored me (s.vault.getMembers group) event)
        refine ⟨sent.members.trans minted.roster, fun w => (sent.bans w).trans (minted.bans w),
          fun w => (sent.suspensions w).trans (minted.suspensions w),
          fun off => sent.shared.trans (minted.aside off), sent.went,
          fun error failed => (sent.failed error failed).1.trans minted.sent,
          fun held => absurd unstored held, fun _ ℓ member => ?_⟩
        rw [sent.stored, minted.stored, List.mem_singleton] at member
        rwa [member]
      · intro error t minted
        refine ⟨minted.roster, minted.bans, minted.suspensions, minted.aside,
          fun ok => (by cases ok), fun _ _ => minted.sent, fun held => absurd unstored held,
          fun _ ℓ member => ?_⟩
        rw [minted.stored, List.mem_singleton] at member
        rwa [member]

/-! ### Evicting -/

/-- What the second part leaves, however it ends. -/
structure Evicted (group user : String) (s s' : KeyLedger ι) : Prop where
  roster : s'.vault.getMembers group = (s.vault.getMembers group).filter (· ≠ user)
  bans : ∀ w, s'.vault.groupBans.get (group, w) = s.vault.groupBans.get (group, w)
  suspensions : ∀ w, s'.vault.groupSuspensions.get (group, w) =
    s.vault.groupSuspensions.get (group, w)
  session : ∀ ℓ ∈ s'.stored group, ℓ ∉ s'.shared
  sent : s'.sent = s.sent

/-- The line of an event and the info stay away from the group's keys. -/
theorem calls_told (kind : String) :
    Prog.Calls (Ask.May (AwayFrom group) (fun _ _ => True) (Aside group user)) (do
      let now ← now
      emitGroupEvent group kind user "" now
      emit (.info (user ++ " " ++ kind))) :=
  calls_now.bind fun now => (calls_emitGroupEvent (fun _ => by decide) _ _ _ _).bind fun _ =>
    calls_emit _

/-- **The second part**, however it ends. -/
theorem wpL_evict (s : KeyLedger ι) (me kind : String) :
    wpL group user (fun _ => Evicted group user s) (do
      call (.removeMember group user)
      call (.deleteGroupIn group user)
      rekeyGroup me group
      let now ← now
      emitGroupEvent group kind user "" now
      emit (.info (user ++ " " ++ kind))) s := by
  have dropped : ((s.vault.removeMember group user).deleteGroupIn group user).getMembers group =
      (s.vault.getMembers group).filter (· ≠ user) := s.vault.getMembers_removeMember group user
  have off : user ∉ ((s.vault.removeMember group user).deleteGroupIn group user).getMembers
      group := by
    rw [dropped]
    simp
  simp only [call_eq, Prog.bind_eq, Prog.ask_bind, Prog.done_bind, wpL_call, VaultOp.exec,
    rekeyGroup, groupName, random_eq, Prog.bind_assoc, wpL_world, FreshDraw]
  intro seed fresh
  simp only [Prog.pure_eq, Prog.done_bind]
  have evicted : ∀ t : KeyLedger ι,
      Minted group user
        (((s.vault.removeMember group user).deleteGroupIn group user).getMembers group)
        { s with vault := (s.vault.removeMember group user).deleteGroupIn group user }
        (GroupSender.new seed) t → Evicted group user s t := by
    intro t minted
    refine ⟨minted.roster.trans dropped, minted.bans, minted.suspensions, fun ℓ member => ?_,
      minted.sent⟩
    rw [minted.stored, List.mem_singleton] at member
    rw [minted.aside off, member]
    exact fresh
  refine Prog.wp_then (wpL_mintedShared ?_ ?_ ?_ _ me _) (fun _ t minted => ?_)
    fun _ t minted => evicted t minted
  · rfl
  · rfl
  · rfl
  · refine Prog.wp_mono (fun _ t' kept => ?_) (wpL_kept (calls_told kind) t)
    have before := evicted t minted
    refine ⟨kept.roster.trans before.roster, fun w => (kept.bans w).trans (before.bans w),
      fun w => (kept.suspensions w).trans (before.suspensions w), fun ℓ member => ?_,
      kept.sent.trans before.sent⟩
    rw [kept.shared]
    exact before.session ℓ (kept.stored ▸ member)

/-- What `moderate` leaves: the announcement failed, or it went out and the user was evicted. -/
def Moderated (group user me : String) (s : KeyLedger ι) (result : Except String Unit)
    (s' : KeyLedger ι) : Prop :=
  (∃ error, result = .error error ∧ Announced group user me s (.error error) s') ∨
    ∃ mid, Announced group user me s (.ok ()) mid ∧ Evicted group user mid s'

theorem wpL_moderate (s : KeyLedger ι) (me kind : String) (deadline : Option Int) :
    wpL group user (Moderated group user me s) (moderate group me user kind deadline) s := by
  unfold moderate groupName
  simp only [call_eq, Prog.bind_eq, Prog.ask_bind, Prog.done_bind, Prog.pure_eq, wpL_call,
    VaultOp.exec]
  rw [wpL, Prog.wp_bind]
  refine Prog.wp_mono (fun result mid announced => ?_) (wpL_broadcastGroupEvent s me _ _)
  cases result with
  | error error => exact .inl ⟨error, rfl, announced⟩
  | ok u =>
      refine Prog.wp_mono (fun result s' evicted => .inr ⟨mid, announced, evicted⟩) ?_
      exact wpL_evict mid me kind

/-! ### The commands -/

variable {app : App} {cmd : Moderation}

/-- An event that is emitted changes nothing. -/
theorem wpL_emit {α : Type} {s : KeyLedger ι} {post : Except String α → KeyLedger ι → Prop}
    (event : Event) {next : Unit → Client α} (goesOn : wpL group user post (next ()) s) :
    wpL group user post ((emit event).bind next) s := by
  simp only [emit_eq, Prog.ask_bind, Prog.done_bind, wpL_world]
  exact fun _ _ => goesOn

/-- The check of the owner: it refuses and changes nothing, or the owner passes. -/
theorem wpL_owner {α : Type} {s : KeyLedger ι} {post : Except String α → KeyLedger ι → Prop}
    (next : Option (String × String × GroupMeta) → Client α)
    (refuses : wpL group user post (next none) s)
    (passes : ∀ server me row, app.active = some server → app.linked = true →
      s.vault.metaGet "username" = some me → s.vault.getGroupMeta group = some row →
      row.owner = me → me ≠ "" → wpL group user post (next (some (server, me, row))) s) :
    wpL group user post ((groupOwnerCtx app group).bind next) s := by
  unfold groupOwnerCtx activeServer ownUsername activeLink
  simp only [Prog.bind_eq, Prog.bind_assoc, Prog.pure_eq]
  cases active : app.active with
  | none => exact wpL_emit _ refuses
  | some server =>
      simp only [Prog.done_bind, call_eq, Prog.ask_bind, wpL_call, VaultOp.exec]
      cases registered : s.vault.metaGet "username" with
      | none => exact wpL_emit _ refuses
      | some me =>
          simp only [Prog.done_bind, Option.isSome_some, Bool.true_and]
          cases linked : app.linked with
          | false => exact wpL_emit _ refuses
          | true =>
              simp only [if_true, Prog.done_bind, Bool.not_true, Bool.false_eq_true, if_false,
                Prog.ask_bind, wpL_call, VaultOp.exec]
              cases isRow : s.vault.getGroupMeta group with
              | none => exact wpL_emit _ refuses
              | some row =>
                  simp only [Bool.or_eq_true, decide_eq_true_eq]
                  split
                  · exact wpL_emit _ refuses
                  · next owned =>
                    obtain ⟨named, owns⟩ := not_or.mp owned
                    obtain rfl := not_not.mp owns
                    exact passes server row.owner row active linked registered isRow rfl
                      (by simpa using named)

/-- The owner passes. -/
theorem wpL_groupOwnerCtx {α : Type} {s : KeyLedger ι} {post : Except String α → KeyLedger ι → Prop}
    (entered : Entered app s.vault group user me cmd)
    (next : Option (String × String × GroupMeta) → Client α)
    (passes : ∀ server row, wpL group user post (next (some (server, me, row))) s) :
    wpL group user post ((groupOwnerCtx app group).bind next) s := by
  obtain ⟨server, active⟩ := Option.isSome_iff_exists.mp entered.server
  obtain ⟨row, isRow, owns⟩ := entered.row
  have named : me.isEmpty = false := by simpa using entered.named
  unfold groupOwnerCtx activeServer ownUsername activeLink
  simp only [active, entered.linked, call_eq, Prog.bind_eq, Prog.ask_bind, Prog.done_bind,
    Prog.pure_eq, Option.isSome_some, Bool.and_self, if_true, wpL_call, VaultOp.exec,
    entered.registered, Bool.not_true, Bool.false_eq_true, if_false, isRow, named, owns,
    ne_eq, not_true, decide_false, Bool.or_self]
  exact passes server row

/-- What the command leaves: its row, and then what `moderate` leaves. -/
structure Commanded (group user me : String) (cmd : Moderation) (s : KeyLedger ι)
    (result : Except String Unit) (s' : KeyLedger ι) : Prop where
  moderated : ∃ s₁ : KeyLedger ι, s₁.vault = cmd.rows group user (s'.readings.headD 0) s.vault ∧
    s₁.shared = s.shared ∧ s₁.sent = s.sent ∧ Moderated group user me s₁ result s'

/-- After a first reading of the clock and the row that goes with it. -/
theorem wpL_moderate_after {s s₁ : KeyLedger ι} {reading : Int}
    (vault : s₁.vault = cmd.rows group user reading s.vault) (shared : s₁.shared = s.shared)
    (sent : s₁.sent = s.sent) (read : s₁.readings = [reading]) (me kind : String)
    (deadline : Option Int) :
    wpL group user (Commanded group user me cmd s) (moderate group me user kind deadline) s₁ := by
  refine Prog.wp_mono (fun result s' both => ?_)
    (Prog.wp_and (wpL_moderate s₁ me kind deadline) (wpL_grows _ s₁))
  have first : s'.readings.headD 0 = reading := by
    obtain ⟨later, whole⟩ := both.2.readings
    rw [← whole, read]
    rfl
  exact ⟨s₁, by rw [first, vault], shared, sent, both.1⟩

theorem wpL_command {s : KeyLedger ι} (entered : Entered app s.vault group user me cmd)
    (start : s.readings = []) :
    wpL group user (Commanded group user me cmd s) (cmd.prog app group user) s := by
  cases cmd with
  | remove =>
      refine wpL_groupOwnerCtx entered _ fun server row => ?_
      simp only [entered.other, if_false]
      refine Prog.wp_mono (fun result s' moderated => ?_) (wpL_moderate s me "removed" none)
      exact ⟨s, rfl, rfl, rfl, moderated⟩
  | ban =>
      refine wpL_groupOwnerCtx entered _ fun server row => ?_
      simp only [entered.other, if_false, now_eq, call_eq, Prog.bind_eq, Prog.ask_bind,
        Prog.done_bind, wpL_world, FreshDraw, true_implies, wpL_call, VaultOp.exec]
      intro reading
      refine @wpL_moderate_after _ ι _ group user .ban s _ reading ?_ ?_ ?_ ?_ me "banned" none
      · rfl
      · rfl
      · rfl
      · exact congrArg (· ++ [reading]) start
  | suspend duration =>
      obtain ⟨ms, parsed⟩ := entered.duration duration rfl
      refine wpL_groupOwnerCtx entered _ fun server row => ?_
      simp only [entered.other, if_false, parsed, now_eq, call_eq, Prog.bind_eq, Prog.ask_bind,
        Prog.done_bind, wpL_world, FreshDraw, true_implies, wpL_call, VaultOp.exec]
      intro reading
      refine @wpL_moderate_after _ ι _ group user (.suspend duration) s _ reading ?_ ?_ ?_ ?_ me
        "suspended" _
      · rw [Moderation.rows, Moderation.span, parsed]
        rfl
      · rfl
      · rfl
      · exact congrArg (· ++ [reading]) start

/-! ### When the group is consistent -/

theorem blocked_iff {v v' : Vault} {w : String}
    (bans : v'.groupBans.get (group, w) = v.groupBans.get (group, w))
    (suspensions : v'.groupSuspensions.get (group, w) = v.groupSuspensions.get (group, w))
    (time : Int) : v'.Blocked group w time ↔ v.Blocked group w time := by
  unfold Vault.Blocked Vault.isBanned Vault.suspendedUntil
  rw [bans, suspensions]

/-- The command's row is about the user and nobody else. -/
theorem blocked_rows {w : String} (other : w ≠ user) (reading time : Int) (v : Vault) :
    (cmd.rows group user reading v).Blocked group w time ↔ v.Blocked group w time := by
  cases cmd with
  | remove => rfl
  | ban =>
      have bans : (v.banUser group user reading).groupBans.get (group, w) =
          v.groupBans.get (group, w) := by
        simp [Vault.banUser, other]
      exact blocked_iff bans rfl time
  | suspend duration =>
      have suspensions : (v.suspendUser group user (wrapI64 (reading + Moderation.span
          duration))).groupSuspensions.get
          (group, w) = v.groupSuspensions.get (group, w) := by
        simp [Vault.suspendUser, other]
      refine (blocked_iff ?_ suspensions time :)
      rfl

theorem getMembers_rows (reading : Int) (v : Vault) :
    (cmd.rows group user reading v).getMembers group = v.getMembers group := by
  cases cmd <;> rfl

theorem loadGroupOut_rows (reading : Int) (v : Vault) :
    (cmd.rows group user reading v).loadGroupOut group = v.loadGroupOut group := by
  cases cmd <;> rfl

/-- **A refused command changes nothing.** -/
theorem wpL_refused {s : KeyLedger ι} (refused : ∀ me, ¬ Entered app s.vault group user me cmd) :
    wpL group user (fun _ s' => s' = s) (cmd.prog app group user) s := by
  have enters : ∀ {server me : String} {row : GroupMeta}, app.active = some server →
      app.linked = true → s.vault.metaGet "username" = some me →
      s.vault.getGroupMeta group = some row → row.owner = me → me ≠ "" → user ≠ me →
      ¬ ∀ text, cmd = .suspend text → ∃ ms, (parseDuration text).filter (0 < ·) = some ms := by
    intro server me row active linked registered isRow owns named other duration
    refine refused me ⟨?_, linked, registered, ⟨row, isRow, owns⟩, named, other, duration⟩
    rw [active]
    rfl
  cases cmd with
  | remove =>
      refine wpL_owner _ rfl fun server me row active linked registered isRow owns named => ?_
      by_cases own : user = me
      · simp only [own, if_true]
        exact wpL_emit _ rfl
      · exact absurd nofun (enters active linked registered isRow owns named own)
  | ban =>
      refine wpL_owner _ rfl fun server me row active linked registered isRow owns named => ?_
      by_cases own : user = me
      · simp only [own, if_true]
        exact wpL_emit _ rfl
      · exact absurd nofun (enters active linked registered isRow owns named own)
  | suspend text =>
      refine wpL_owner _ rfl fun server me row active linked registered isRow owns named => ?_
      by_cases own : user = me
      · simp only [own, if_true]
        exact wpL_emit _ rfl
      · have bad : (parseDuration text).filter (0 < ·) = none := by
          by_contra parsed
          refine enters active linked registered isRow owns named own ?_
          rintro _ ⟨rfl⟩
          exact Option.ne_none_iff_exists'.mp parsed
        simp only [own, if_false, bad]
        exact wpL_emit _ rfl

/-- **When the law holds**: nobody else is blocked and on the roster; and the event went out, or the
user stays on the roster and is not blocked, or they are not on it and the group's session is none
that they were handed, or nobody but the owner is on it. -/
structure Heals (group user me : String) (cmd : Moderation) (time : Int) (s : KeyLedger ι)
    (sent : Bool) (readings : List Int) : Prop where
  others : ∀ w, w ≠ user → s.vault.Blocked group w time → w ∉ s.vault.getMembers group
  user : sent = true ∨
    (user ∈ s.vault.getMembers group ∧
      ¬ (cmd.rows group user (readings.headD 0) s.vault).Blocked group user time) ∨
    (user ∉ s.vault.getMembers group ∧
      ((∀ ℓ ∈ s.stored group, ℓ ∉ s.shared) ∨ ∀ w ∈ s.vault.getMembers group, w = me))

/-- **An owner's moderation leaves the group consistent exactly where it heals**: for every vault,
every answer of the network and every reading of the clock. -/
theorem entered_consistent_iff {s s' : KeyLedger ι} {result : Except String Unit}
    (entered : Entered app s.vault group user me cmd) (start : s.readings = [] ∧ s.sent = false)
    (runs : Prog.Runs (KeyLedger.step group user) (cmd.prog app group user) s result s')
    (time : Int) :
    Consistent group user time s' ↔ Heals group user me cmd time s s'.sent s'.readings := by
  obtain ⟨s₁, vault, shared, sent, moderated⟩ :=
    (Prog.wp_free_iff.mp (wpL_command entered start.1) result s' runs).moderated
  have members : s₁.vault.getMembers group = s.vault.getMembers group := by
    rw [vault, getMembers_rows]
  have stored : s₁.stored group = s.stored group := by
    rw [KeyLedger.stored, KeyLedger.stored, vault, loadGroupOut_rows]
  have blocked : ∀ w, w ≠ user → (s₁.vault.Blocked group w time ↔ s.vault.Blocked group w time) :=
    fun w other => by rw [vault, blocked_rows other]
  rcases moderated with ⟨error, _, announced⟩ | ⟨mid, announced, evicted⟩
  · have sameBlocked : ∀ w, s'.vault.Blocked group w time ↔ s₁.vault.Blocked group w time :=
      fun w => blocked_iff (announced.bans w) (announced.suspensions w) time
    have unsent : s'.sent = false := by rw [announced.failed error rfl, sent, start.2]
    have roster : s'.vault.getMembers group = s.vault.getMembers group :=
      announced.roster.trans members
    constructor
    · intro consistent
      refine ⟨fun w other isBlocked => ?_, ?_⟩
      · rw [← roster]
        exact consistent.roster w ((sameBlocked w).mpr ((blocked w other).mpr isBlocked))
      · by_cases on : user ∈ s.vault.getMembers group
        · refine .inr (.inl ⟨on, fun isBlocked => ?_⟩)
          rw [← vault] at isBlocked
          exact consistent.roster user ((sameBlocked user).mpr isBlocked) (by rwa [roster])
        · refine .inr (.inr ⟨on, ?_⟩)
          by_cases none : s.stored group = []
          · rw [none]
            exact .inl nofun
          · have kept := (announced.stored (by rwa [stored])).1
            rw [stored] at kept
            rw [← kept, ← shared, ← announced.aside (by rwa [members])]
            exact .inl (consistent.session (by rwa [roster]))
    · intro heals
      refine ⟨fun w isBlocked => ?_, fun off ℓ member => ?_⟩
      · have before := (sameBlocked w).mp isBlocked
        rw [roster]
        by_cases other : w = user
        · subst other
          intro on
          rcases heals.user with went | ⟨_, free⟩ | ⟨off, _⟩
          · rw [unsent] at went
            cases went
          · rw [vault] at before
            exact free before
          · exact off on
        · exact heals.others w other ((blocked w other).mp before)
      · rw [roster] at off
        rw [announced.aside (by rwa [members]), shared]
        rcases heals.user with went | ⟨on, _⟩ | ⟨_, unshared | alone⟩
        · rw [unsent] at went
          cases went
        · exact absurd on off
        · by_cases none : s₁.stored group = []
          · rw [← shared]
            exact announced.minted none ℓ member
          · rw [(announced.stored none).1, stored] at member
            exact unshared ℓ member
        · by_cases none : s₁.stored group = []
          · rw [← shared]
            exact announced.minted none ℓ member
          · obtain ⟨w, on, notMe⟩ := (announced.stored none).2 error rfl
            rw [members] at on
            exact absurd (alone w on) notMe
  · have roster : s'.vault.getMembers group = (s.vault.getMembers group).filter (· ≠ user) := by
      rw [evicted.roster, announced.roster, members]
    have sameBlocked : ∀ w, s'.vault.Blocked group w time ↔ s₁.vault.Blocked group w time :=
      fun w => blocked_iff ((evicted.bans w).trans (announced.bans w))
        ((evicted.suspensions w).trans (announced.suspensions w)) time
    constructor
    · intro consistent
      refine ⟨fun w other isBlocked on => ?_, ?_⟩
      · refine consistent.roster w ((sameBlocked w).mpr ((blocked w other).mpr isBlocked)) ?_
        rw [roster]
        exact List.mem_filter.mpr ⟨on, decide_eq_true other⟩
      · rcases announced.went rfl with went | alone
        · exact .inl (evicted.sent.trans went)
        · rw [members] at alone
          exact .inr (.inr ⟨fun on => entered.other (alone user on), .inr alone⟩)
    · intro heals
      refine ⟨fun w isBlocked on => ?_, fun _ => evicted.session⟩
      rw [roster] at on
      obtain ⟨here, other⟩ := List.mem_filter.mp on
      have other : w ≠ user := of_decide_eq_true other
      exact heals.others w other ((blocked w other).mp ((sameBlocked w).mp isBlocked)) here

/-- **When a moderation leaves the group consistent**: one that is refused, where it was so before;
any other, where it heals. -/
theorem moderation_consistent_iff {s s' : KeyLedger ι} {result : Except String Unit}
    (start : s.readings = [] ∧ s.sent = false)
    (runs : Prog.Runs (KeyLedger.step group user) (cmd.prog app group user) s result s')
    (time : Int) :
    (Entered app s.vault group user me cmd →
      (Consistent group user time s' ↔ Heals group user me cmd time s s'.sent s'.readings)) ∧
    ((∀ me, ¬ Entered app s.vault group user me cmd) →
      (Consistent group user time s' ↔ Consistent group user time s)) := by
  refine ⟨fun entered => entered_consistent_iff entered start runs time, fun refused => ?_⟩
  rw [Prog.wp_free_iff.mp (wpL_refused refused) result s' runs]

end

namespace Ideal

instance : Lineage Nat where
  of sender := GroupSession.id sender
  of_encrypt _ _ := rfl

/-- The machine that keeps the ledger. -/
def playKeys (answers : (asked : Ask) → asked.Answer) (group user : String) :
    Prog.Machine (KeyLedger Nat) Ask Ask.Answer := fun asked s =>
  ((Ask.play answers asked s.vault).1,
    s.note group user (Ask.play answers asked s.vault).2 asked (Ask.play answers asked s.vault).1)

/-- Draws are of sessions that nobody was handed. -/
def drawsFresh (answers : (asked : Ask) → asked.Answer) (asked : Ask) (s : KeyLedger Nat) : Bool :=
  match asked with
  | .random => !s.shared.contains (Lineage.of (GroupSender.new (answers .random)))
  | _ => true

theorem playKeys_conforms (answers : (asked : Ask) → asked.Answer) (group user : String)
    (asked : Ask) (s : KeyLedger Nat) (fresh : drawsFresh answers asked s = true) :
    KeyLedger.step group user asked s (playKeys answers group user asked s).1
      (playKeys answers group user asked s).2 := by
  refine ⟨_, Ask.play_conforms (fun _ => trivial) asked s.vault, ?_, rfl⟩
  cases asked with
  | random =>
      show Lineage.of (GroupSender.new (answers .random)) ∉ s.shared
      simpa [drawsFresh] using fresh
  | _ => trivial

/-- A world whose link has just closed. -/
def linkClosed : (asked : Ask) → asked.Answer
  | .post _ => .error "link closed"
  | asked => world asked

/-- Alice's group with Bob, who has the key of her session 7. -/
def aliceOwnsGroup : KeyLedger Nat where
  vault := (((((Vault.empty.metaSet "username" "alice").saveAccount (newAccount 1)).upsertGroupMeta
    "g" "ABCDEFGH" "open" "alice").addMember "g" "alice").addMember "g" "bob").saveGroupOut "g"
      (⟨7, 3⟩ : GroupSession)
  shared := [7]
  readings := []
  sent := false

def aliceApp : App := ⟨some "relay", true, "", ""⟩

/-- Alice bans Bob. -/
def banned (answers : (asked : Ask) → asked.Answer) : Except String Unit × KeyLedger Nat :=
  Prog.run (playKeys answers "g" "bob") (Moderation.ban.prog aliceApp "g" "bob") aliceOwnsGroup

theorem alice_enters : Entered aliceApp aliceOwnsGroup.vault "g" "bob" "alice" .ban where
  server := rfl
  linked := rfl
  registered := by decide +kernel
  row := ⟨⟨"ABCDEFGH", "open", "alice"⟩, by decide +kernel, rfl⟩
  named := by decide
  other := by decide
  duration := nofun

/-- The link closes while Alice bans Bob: he is banned, and still on the roster. -/
theorem banned_on_roster :
    ¬ ∀ (app : App) (group user me : String) (cmd : Moderation) (s s' : KeyLedger Nat)
      (result : Except String Unit) (time : Int), Entered app s.vault group user me cmd →
      s.readings = [] ∧ s.sent = false → Consistent group user time s →
      Prog.Runs (KeyLedger.step group user) (cmd.prog app group user) s result s' →
        Consistent group user time s' := by
  intro law
  have before : Consistent "g" "bob" 0 aliceOwnsGroup := by
    refine ⟨fun w blocked => ?_, fun off => absurd ?_ off⟩
    · obtain isBanned | ⟨deadline, suspended, _⟩ := blocked
      · cases isBanned
      · cases suspended
    · decide +kernel
  have runs : Prog.Runs (KeyLedger.step "g" "bob") (Moderation.ban.prog aliceApp "g" "bob")
      aliceOwnsGroup (banned linkClosed).1 (banned linkClosed).2 :=
    Prog.run_runs_of_checks (playKeys_conforms linkClosed "g" "bob") (by decide +kernel)
  have after := law aliceApp "g" "bob" "alice" .ban aliceOwnsGroup _ _ 0 alice_enters ⟨rfl, rfl⟩
    before runs
  exact absurd (by decide +kernel) (after.roster "bob" (.inl (by decide +kernel)))

/-- With the link open, the ban succeeds and leaves the group consistent. -/
theorem bob_is_evicted : (banned world).1 = .ok () ∧ Consistent "g" "bob" 0 (banned world).2 := by
  have runs : Prog.Runs (KeyLedger.step "g" "bob") (Moderation.ban.prog aliceApp "g" "bob")
      aliceOwnsGroup (banned world).1 (banned world).2 :=
    Prog.run_runs_of_checks (playKeys_conforms world "g" "bob") (by decide +kernel)
  refine ⟨by decide +kernel,
    ((moderation_consistent_iff ⟨rfl, rfl⟩ runs 0).1 alice_enters).mpr ⟨?_, .inl ?_⟩⟩
  · intro w _ blocked
    obtain isBanned | ⟨deadline, suspended, _⟩ := blocked
    · cases isBanned
    · cases suspended
  · decide +kernel

end Ideal

end Cherm
