/-
**Who decides about a group, on the member's side.**

A vault holds a group with an owner who is somebody else. Whatever frames the relay delivers, and
whatever it says about their sender, kind and group: until the group is deleted here, its owner
stays recorded, and its roster, its access mode, its bans and the suspensions that have not run out
change only while a frame is processed that carries words of the owner for the group, or the leave
notice of the member who is removed.

* `Authors` says who wrote what; `Authentic` is what Olm and Megolm promise about it.
* `exec_owner`: one request keeps the owner, unless it deletes the group or names another one.
* `Aloof` requests stay out of the group; the handlers of the owner's words are bounded by
  `KeepsOwner`.
* `group_authority` is the result, for every request of every run.
-/

import Cherm.Client.FrameAsks
import Cherm.Ideal
import Cherm.Proof.Suspension

namespace Cherm

open Crates Client

/-- The length of a UUID's text. -/
def IsUuid (text : String) : Prop := text.toList.length = 36

theorem IsUuid.not_username {text : String} (uuid : IsUuid text) : validUsername text = false := by
  have long : ¬ text.toList.length ≤ usernameMax := by
    rw [uuid]
    decide
  simp [validUsername, long]

/-- The parts of the vault that the owner decides about. -/
def standingParts : List VaultPart := [.chatMembers, .groups, .groupBans]

/-- The rows that are not of the group's standing. -/
def Elsewhere (g : String) (part : VaultPart) (id : String) : Prop :=
  id = g → part ∉ .groupSuspensions :: standingParts

theorem elsewhere_part {g : String} {part : VaultPart}
    (other : part ∉ .groupSuspensions :: standingParts) (id : String) : Elsewhere g part id :=
  fun _ => other

theorem elsewhere_id {g id : String} (different : id ≠ g) (part : VaultPart) :
    Elsewhere g part id :=
  fun same => absurd same different

section

variable [Crates]

/-! ### Who wrote what -/

/-- What users wrote, over their pairwise sessions with us and in groups. -/
structure Authors where
  olm : String → Bytes → Prop
  megolm : String → String → Bytes → Prop

/-- A delivered frame, and the vault in which its processing begins. -/
structure Arrival where
  inc : Incoming
  vault : Vault

/-- The payload is read as this, with the session we have with the sender. -/
def Arrival.ReadsOlm (d : Arrival) (plaintext : Bytes) : Prop :=
  ∃ v', Prog.Runs Ask.effect (obtainOlmPlaintext d.inc.from d.inc.payload) d.vault
    (.ok plaintext) v'

/-- The payload is read as this, with the session the sender has shared for a group. -/
def Arrival.ReadsMegolm (d : Arrival) (groupId : String) (plaintext : Bytes) : Prop :=
  ∃ receiver body idx receiver', d.vault.loadGroupIn groupId d.inc.from = some receiver ∧
    b64Decode d.inc.payload = .ok body ∧
    GroupReceiver.decrypt receiver body = .ok (plaintext, idx, receiver')

/-- The ratchets authenticate: what is read with a session of a user, that user wrote. -/
structure Authentic (authors : Authors) (d : Arrival) : Prop where
  olm : ∀ plaintext, d.ReadsOlm plaintext → authors.olm d.inc.from plaintext
  megolm : ∀ groupId plaintext, d.ReadsMegolm groupId plaintext →
    authors.megolm d.inc.from groupId plaintext

/-! ### What is protected -/

/-- The same but for suspensions that have run out before `clock`. -/
structure SameStanding (clock : Int) (g : String) (v v' : Vault) : Prop where
  parts : ∀ part ∈ standingParts, part.SameAt g v v'
  suspensions : ∀ username deadline, clock ≤ deadline →
    (v'.suspendedUntil g username = some deadline ↔ v.suspendedUntil g username = some deadline)

/-- One member is off the roster, and everything else is the same. -/
structure OffRoster (g username : String) (v v' : Vault) : Prop where
  roster : v'.getMembers g = (v.getMembers g).filter (· ≠ username)
  others : ∀ part ∈ [VaultPart.groups, .groupBans, .groupSuspensions], part.SameAt g v v'

/-- The frame carries words of the owner for the group: a share of a key, or an event. -/
def FromOwner (authors : Authors) (g owner : String) (d : Arrival) : Prop :=
  (∃ plaintext share, d.inc.msgType = MsgType.olmGroupKey ∧ d.ReadsOlm plaintext ∧
    authors.olm owner plaintext ∧ GroupKeyShare.fromSlice plaintext = .ok share ∧
    share.groupId = g) ∨
  ∃ plaintext, d.inc.msgType = MsgType.groupEvent ∧ d.inc.groupId = some g ∧
    d.ReadsMegolm g plaintext ∧
    authors.megolm owner g plaintext

/-- The frame carries the leave notice of its sender for the group. -/
def LeaveNotice (authors : Authors) (g : String) (d : Arrival) : Prop :=
  d.inc.groupId = some g ∧ d.ReadsMegolm g leftSentinel ∧ authors.megolm d.inc.from g leftSentinel

/-- The recorded owner of a group. -/
def Vault.owner (v : Vault) (g : String) : Option String := (v.getGroupMeta g).map GroupMeta.owner

/-- What happens until the group is deleted, while the clock is before `clock`. -/
def untilDeleted (g : String) (clock : Int) : Prog.Step Vault Ask Ask.Answer :=
    fun asked v answer v' =>
  asked ≠ .call (.deleteChat g) ∧ Ask.effectIf (clockBefore clock) asked v answer v'

/-- What is shown of every request: the owner stays, and what changes, changes with authority. -/
def Warranted (authors : Authors) (g owner : String) (clock : Int) (d : Arrival)
    (v v' : Vault) : Prop :=
  v'.owner g = some owner ∧ (SameStanding clock g v v' ∨ FromOwner authors g owner d ∨
    LeaveNotice authors g d ∧ OffRoster g d.inc.from v v')

def authority (authors : Authors) (g owner : String) (clock : Int) (d : Arrival) (asked : Ask)
    (v : Vault) :
    Prop :=
  v.owner g = some owner ∧ ∀ answer v', untilDeleted g clock asked v answer v' →
    Warranted authors g owner clock d v v'

variable {authors : Authors} {g owner : String} {clock : Int} {d : Arrival} {v v' : Vault}

theorem SameStanding.refl (clock : Int) (g : String) (v : Vault) : SameStanding clock g v v :=
  ⟨fun part _ => part.sameAt_refl g v, fun _ _ _ => Iff.rfl⟩

theorem Vault.owner_same (same : VaultPart.groups.SameAt g v v') : v'.owner g = v.owner g :=
  congrArg (Option.map GroupMeta.owner) same

/-! ### Requests that keep the owner -/

/-- The request does not name another owner. -/
def KeepsOwner (g owner : String) (asked : Ask) : Prop :=
  ∀ key mode owner', asked = .call (.upsertGroupMeta g key mode owner') → owner' = owner

theorem exec_owner {op : VaultOp} (alive : op ≠ .deleteChat g)
    (keeps : KeepsOwner g owner (.call op))
    (before : v.owner g = some owner) : (op.exec v).2.owner g = some owner := by
  by_cases writes : op.Writes .groups g
  · obtain ⟨row, found, rfl⟩ := Option.map_eq_some_iff.mp before
    have found : v.groups.get g = some row := found
    cases op with
    | createGroupRow groupId mode owner' gen =>
        obtain ⟨_, rfl⟩ := writes
        have known : ((VaultOp.createGroupRow g mode owner' gen).exec v).2 = v := by
          show (v.createGroupRowFrom g mode owner' gen 64 0).2 = v
          simp [Vault.createGroupRowFrom, Vault.tryInsertGroup, Vault.getGroupMeta, found]
        rw [known]
        exact before
    | upsertGroupMeta groupId key mode owner' =>
        obtain ⟨_, rfl⟩ := writes
        obtain rfl := keeps _ _ _ rfl
        show (v.upsertGroupMeta g key mode row.owner).owner g = _
        unfold Vault.upsertGroupMeta
        split
        · exact before
        · simp [Vault.owner, Vault.getGroupMeta]
    | setAccessMode groupId mode =>
        obtain ⟨_, rfl⟩ := writes
        show (v.setAccessMode g mode).owner g = _
        rw [Vault.setAccessMode, found]
        simp [Vault.owner, Vault.getGroupMeta]
    | deleteChat chatId =>
        obtain ⟨_, rfl⟩ := writes
        exact absurd rfl alive
    | _ => simp [VaultOp.Writes] at writes
  · rw [Vault.owner_same (op.exec_frame v .groups g writes)]
    exact before

theorem untilDeleted_owner {asked : Ask} {answer : asked.Answer} (keeps : KeepsOwner g owner asked)
    (before : v.owner g = some owner) (made : untilDeleted g clock asked v answer v') :
    v'.owner g = some owner := by
  cases asked with
  | call op =>
      obtain ⟨alive, same⟩ := made
      obtain ⟨_, rfl⟩ := Prod.mk.inj (same : (answer, v') = op.exec v)
      exact exec_owner (fun deletes => alive (congrArg Ask.call deletes)) keeps before
  | _ =>
      obtain ⟨_, _, rfl⟩ := made
      exact before

/-- The specification of a frame. -/
abbrev arrivalSpec (authors : Authors) (g owner : String) (clock : Int) (d : Arrival) :
    Prog.Spec Vault Ask Ask.Answer := ⟨authority authors g owner clock d, untilDeleted g clock⟩

/-- The same, with deletions. -/
abbrev askSpec (authors : Authors) (g owner : String) (clock : Int) (d : Arrival) :
    Prog.Spec Vault Ask Ask.Answer := Ask.spec (authority authors g owner clock d)
      (clockBefore clock)

theorem wp_until {α : Type} {post : Except String α → Vault → Prop} {prog : Client α}
    (holds : Prog.wp (askSpec authors g owner clock d) post prog v) :
    Prog.wp (arrivalSpec authors g owner clock d) post prog v := by
  have steps : ∀ asked v answer v', untilDeleted g clock asked v answer v' →
      Ask.effectIf (clockBefore clock) asked v answer v' := fun _ _ _ _ made => made.2
  exact Prog.wp_conseq (S := askSpec authors g owner clock d)
    (T := arrivalSpec authors g owner clock d) (fun _ _ => id) steps (fun _ _ => id) holds

/-- What the owner says may change everything but the owner. -/
theorem wp_fromOwner {α : Type} {prog : Client α} (calls : Prog.Calls (KeepsOwner g owner) prog)
    (byOwner : FromOwner authors g owner d) (before : v.owner g = some owner) :
    Prog.wp (arrivalSpec authors g owner clock d) (fun _ v => v.owner g = some owner) prog v := by
  have warranted : ∀ asked v, KeepsOwner g owner asked → v.owner g = some owner →
      authority authors g owner clock d asked v := fun _ _ keeps before =>
    ⟨before, fun _ _ made => ⟨untilDeleted_owner keeps before made, .inr (.inl byOwner)⟩⟩
  exact calls.wp warranted
    (fun _ _ _ _ keeps before made => untilDeleted_owner keeps before made) before

/-! ### Requests that stay out of the group -/

abbrev Aloof (g : String) : Ask → Prop := Ask.May (Elsewhere g) (fun _ _ => True) fun _ => True

theorem aloof_same {asked : Ask} {answer : asked.Answer} (aloof : Aloof g asked)
    (made : Ask.effectIf (clockBefore clock) asked v answer v') :
    ∀ part ∈ .groupSuspensions :: standingParts, part.SameAt g v v' :=
  fun _ listed => aloof.frame (fun elsewhere => elsewhere rfl listed) made

theorem sameStanding_of_same (same : ∀ part ∈ .groupSuspensions :: standingParts,
    part.SameAt g v v') :
    SameStanding clock g v v' where
  parts part listed := same part (List.mem_cons_of_mem _ listed)
  suspensions username deadline _ := by
    have untils : v'.suspendedUntil g username = v.suspendedUntil g username :=
      congrFun (same .groupSuspensions List.mem_cons_self) username
    rw [untils]

theorem aloof_within (asked : Ask) (v : Vault) (aloof : Aloof g asked)
    (before : v.owner g = some owner) :
    authority authors g owner clock d asked v ∧
      ∀ answer v', Ask.effectIf (clockBefore clock) asked v answer v' →
        v'.owner g = some owner := by
  have kept : ∀ answer v', Ask.effectIf (clockBefore clock) asked v answer v' →
      v'.owner g = some owner :=
    fun answer v' made => (Vault.owner_same (aloof_same aloof made .groups
      (by decide))).trans before
  exact ⟨⟨before, fun answer v' made => ⟨kept answer v' made.2,
    .inl (sameStanding_of_same (aloof_same aloof made.2))⟩⟩, kept⟩

/-- A program of aloof requests. -/
theorem wp_aloof {α : Type} {prog : Client α} (calls : Prog.Calls (Aloof g) prog)
    (before : v.owner g = some owner) :
    Prog.wp (askSpec authors g owner clock d) (fun _ v => v.owner g = some owner) prog v :=
  wp_within aloof_within calls before

/-! ### What is read -/

theorem readsOlm_of_runs {plaintext : Bytes} (runs : Prog.Runs (Ask.effectIf (clockBefore clock))
    (obtainOlmPlaintext d.inc.from d.inc.payload) d.vault (.ok plaintext) v') :
      d.ReadsOlm plaintext := by
  refine ⟨v', runs.mono fun asked v answer v' made => ?_⟩
  cases asked with
  | call op => exact made
  | _ => exact ⟨trivial, made.2⟩

theorem calls_decrypt_aloof (sender payload : String) :
    Prog.Calls (Aloof g) (obtainOlmPlaintext sender payload) :=
  calls_obtainOlmPlaintext (elsewhere_part (by decide)) (elsewhere_part (by decide))
    (elsewhere_part (by decide) _) payload

/-- What follows a decryption starts from what was read. -/
theorem wp_decrypted {f : Bytes → Client Unit} (before : d.vault.owner g = some owner)
    (next : ∀ plaintext v, d.ReadsOlm plaintext → v.owner g = some owner →
      Prog.wp (askSpec authors g owner clock d) (fun _ v => v.owner g = some owner)
        (f plaintext) v) :
    Prog.wp (askSpec authors g owner clock d) (fun _ v => v.owner g = some owner)
      ((obtainOlmPlaintext d.inc.from d.inc.payload).bind f) d.vault := by
  have decrypts : Prog.wp (askSpec authors g owner clock d) (fun _ v => v.owner g = some owner)
      (obtainOlmPlaintext d.inc.from d.inc.payload) d.vault :=
    wp_aloof (calls_decrypt_aloof d.inc.from d.inc.payload) before
  rw [Prog.wp_bind]
  refine Prog.wp_of_runs decrypts fun result v runs after => ?_
  cases result with
  | error e => exact after
  | ok plaintext => exact next plaintext v (readsOlm_of_runs runs) after

/-- What follows the reading of a Megolm frame starts from what was read, in the same vault. -/
theorem wp_readMegolm {groupId : String} {f : Option (Bytes × Nat × GroupReceiver) → Client Unit}
    (before : d.vault.owner g = some owner)
    (unread : f none = pure ())
    (next : ∀ plaintext idx receiver, d.ReadsMegolm groupId plaintext →
      Prog.wp (arrivalSpec authors g owner clock d) (fun _ v => v.owner g = some owner)
        (f (some (plaintext, idx, receiver))) d.vault) :
    Prog.wp (arrivalSpec authors g owner clock d) (fun _ v => v.owner g = some owner)
      ((openMegolm groupId d.inc.from d.inc.payload).bind f) d.vault := by
  have opens : Prog.wp (askSpec authors g owner clock d)
      (fun result v => v = d.vault ∧ ∀ plaintext idx receiver,
        result = .ok (some (plaintext, idx, receiver)) → d.ReadsMegolm groupId plaintext)
      (openMegolm groupId d.inc.from d.inc.payload) d.vault := by
    have reads : Aloof g (.call (.loadGroupIn groupId d.inc.from)) := (calls_read fun _ _ => id).1
    refine (wp_call _ _ _).mpr ⟨(aloof_within _ _ reads before).1, ?_⟩
    simp only [VaultOp.exec, Prog.done_bind]
    cases held : d.vault.loadGroupIn groupId d.inc.from with
    | none =>
        have emits : ∀ event, Aloof g (.emit event) := fun _ => trivial
        refine (wp_world _ _).mpr ⟨(aloof_within _ _ (emits _) before).1, fun _ _ => ?_⟩
        exact ⟨rfl, fun _ _ _ read => (by cases read)⟩
    | some receiver =>
        simp only [lift_eq, Prog.bind_eq]
        cases decoded : b64Decode d.inc.payload with
        | error e => exact ⟨rfl, fun _ _ _ read => (by cases read)⟩
        | ok body =>
            simp only [Prog.ofExcept_ok, Prog.done_bind]
            cases opened : receiver.decrypt body with
            | error e => exact ⟨rfl, fun _ _ _ read => (by cases read)⟩
            | ok parts =>
                obtain ⟨plaintext, idx, advanced⟩ := parts
                refine ⟨rfl, fun plaintext' idx' advanced' same => ?_⟩
                obtain ⟨rfl, rfl, rfl⟩ := by simpa using same
                exact ⟨receiver, body, idx, advanced, held, decoded, opened⟩
  rw [Prog.wp_bind]
  refine Prog.wp_mono (fun result v after => ?_) (wp_until opens)
  obtain ⟨rfl, reads⟩ := after
  rcases result with e | ⟨_ | ⟨plaintext, idx, receiver⟩⟩
  · exact before
  · show Prog.wp _ _ (f none) _
    rw [unread]
    exact before
  · exact next plaintext idx receiver (reads _ _ _ rfl)

/-- After the replay guard, a fresh frame goes on. -/
theorem wp_accepted {groupId sender : String} {idx : Nat} {receiver : GroupReceiver}
    {f : Bool → Client Unit} (before : v.owner g = some owner) (stale : f false = pure ())
    (next : ∀ v, v.owner g = some owner →
      Prog.wp (arrivalSpec authors g owner clock d) (fun _ v => v.owner g = some owner)
        (f true) v) :
    Prog.wp (arrivalSpec authors g owner clock d) (fun _ v => v.owner g = some owner)
      ((acceptMegolm groupId sender idx receiver).bind f) v := by
  have guards : Prog.Calls (Aloof g) (acceptMegolm groupId sender idx receiver) :=
    calls_acceptMegolm (elsewhere_part (by decide) _) (elsewhere_part (by decide) _) _ _ _
  rw [Prog.wp_bind]
  refine Prog.wp_mono (fun result v' after => ?_) (wp_until (wp_aloof guards before))
  rcases result with e | ⟨_ | _⟩
  · exact after
  · show Prog.wp _ _ (f false) _
    rw [stale]
    exact after
  · exact next v' after

/-! ### Key shares -/

/-- A suspension that has run out may go, whoever asks. -/
theorem wp_isSuspended {groupId sender : String} {now : Int} (early : now < clock)
    (before : v.owner g = some owner ∧ v.isBanned groupId sender = false) :
    Prog.wp (askSpec authors g owner clock d)
      (fun _ v' => v'.owner g = some owner ∧ v'.isBanned groupId sender = false)
      (isSuspended groupId sender now) v := by
  have reads : Aloof g (.call (.suspendedUntil groupId sender)) := (calls_read fun _ _ => id).1
  refine (wp_call _ _ _).mpr ⟨(aloof_within _ _ reads before.1).1, ?_⟩
  simp only [VaultOp.exec, Prog.done_bind]
  cases held : v.suspendedUntil groupId sender with
  | none => exact before
  | some deadline =>
      dsimp only
      split
      · exact before
      · next past =>
        refine (wp_call _ _ _).mpr ⟨⟨before.1, ?_⟩, before⟩
        rintro answer v' ⟨_, made⟩
        obtain ⟨_, rfl⟩ := Prod.mk.inj (made : (answer, v') = _)
        refine ⟨before.1, .inl ⟨fun part listed => ?_, fun username later notPast => ?_⟩⟩
        · refine VaultOp.exec_frame (.clearSuspension groupId sender) v part g ?_
          rintro ⟨rfl, _⟩
          exact absurd listed (by decide)
        · show (v.clearSuspension groupId sender).suspendedUntil g username = _ ↔ _
          by_cases same : (g, username) = (groupId, sender)
          · obtain ⟨rfl, rfl⟩ := Prod.mk.inj same
            have gone : (v.clearSuspension g username).suspendedUntil g username = none := by
              simp [Vault.clearSuspension, Vault.suspendedUntil]
            rw [gone, held]
            refine ⟨fun is => (by cases is), fun still => ?_⟩
            obtain rfl := Option.some.inj still
            omega
          · have kept : (v.clearSuspension groupId sender).suspendedUntil g username =
                v.suspendedUntil g username := by
              simp [Vault.clearSuspension, Vault.suspendedUntil, same]
            rw [kept]

/-- A share of someone else's than the owner's stores a session and nothing else. -/
theorem calls_storeShare_other (ctx : ProcCtx) (sender : String) (share : GroupKeyShare)
    (isNew : Bool) :
    Prog.Calls (Aloof g) (storeShare ctx sender share isNew false) := by
  refine (calls_lift _).bind fun receiver =>
    (calls_write (elsewhere_part (by decide) _) (fun _ _ => id) (by trivial)).bind fun _ => ?_
  cases isNew with
  | true => trivial
  | false => exact (calls_emitChats _).bind fun _ => trivial

theorem aloof_keepsOwner {asked : Ask} (aloof : Aloof g asked) : KeepsOwner g owner asked := by
  rintro key mode owner' rfl
  exact absurd (aloof.1 .groups g ⟨rfl, rfl⟩ rfl) (by decide)

/-- The owner's share names the owner, and deletes nothing. -/
theorem calls_storeShare_owner (ctx : ProcCtx) (share : GroupKeyShare) (isNew : Bool) :
    Prog.Calls (fun asked => KeepsOwner g owner asked ∧ asked ≠ .call (.deleteChat g))
      (storeShare ctx owner share isNew true) := by
  have one : ∀ {op : VaultOp}, (∀ key mode owner', op ≠ .upsertGroupMeta g key mode owner') →
      op ≠ .deleteChat g →
      Prog.Calls (fun asked => KeepsOwner g owner asked ∧ asked ≠ .call (.deleteChat g))
        (call op) :=
    fun other alive => ⟨⟨fun key mode owner' same => absurd (Ask.call.inj same)
      (other key mode owner'),
      fun same => alive (Ask.call.inj same)⟩, fun _ => trivial⟩
  have shown : ∀ event,
      Prog.Calls (fun asked => KeepsOwner g owner asked ∧ asked ≠ .call (.deleteChat g))
        (emit event) :=
    fun event => ⟨⟨nofun, nofun⟩, fun _ => trivial⟩
  have learns : Prog.Calls (fun asked => KeepsOwner g owner asked ∧ asked ≠ .call (.deleteChat g))
      (learnGroup owner share) := by
    refine Prog.Calls.bind ⟨⟨nofun, nofun⟩, fun _ => one (by nofun) (by nofun)⟩ fun _ =>
      (Prog.calls_forEach fun m _ => one (by nofun) (by nofun)).bind fun _ => ?_
    split
    · refine ⟨⟨fun key mode owner' same => ?_, by nofun⟩, fun _ => trivial⟩
      injection same with same
      injection same with _ _ _ named
      exact named.symm
    · trivial
  refine (Prog.calls_ofExcept _).bind fun receiver => (one (by nofun) (by nofun)).bind fun _ =>
    learns.bind fun _ => ((one (by nofun) (by nofun)).bind fun _ => shown _).bind fun _ => ?_
  cases isNew with
  | true => exact shown _
  | false => trivial

/-- A key share changes the group only if the owner wrote it for the group. -/
theorem wp_keyShare {ctx : ProcCtx} (authentic : Authentic authors d)
    (isShare : d.inc.msgType = MsgType.olmGroupKey) {plaintext : Bytes}
      (read : d.ReadsOlm plaintext)
    (before : v.owner g = some owner) :
    Prog.wp (askSpec authors g owner clock d) (fun _ v => v.owner g = some owner)
      (handleGroupKeyShare ctx d.inc.from plaintext) v := by
  cases parsed : GroupKeyShare.fromSlice plaintext with
  | error e =>
      unfold handleGroupKeyShare
      rw [parsed]
      exact before
  | ok share =>
      refine wp_handleGroupKeyShare_checked (fun v => v.owner g = some owner) parsed
        (fun noWrite before => (aloof_within _ _ (calls_read noWrite).1 before).1)
        (fun v before => (aloof_within .now v trivial before).1)
        (fun now v early before => wp_isSuspended early before) (fun _ => id)
        (fun v isNew byOwner before admitted => ?_) before
      by_cases ours : share.groupId = g
      · cases byOwner with
        | false => exact wp_aloof (calls_storeShare_other ctx d.inc.from share isNew) before
        | true =>
            -- the group is known with its owner, so the sender is the recorded one
            obtain ⟨row, found, isOwner⟩ := Option.map_eq_some_iff.mp before
            have authority := admitted.authority
            rw [ours, found] at authority
            have same : d.inc.from = owner := by
              cases isNew with
              | true => cases authority
              | false =>
                  obtain ⟨row', recorded, _, named⟩ := ownerShare_old authority.symm
                  rw [← named, ← Option.some.inj recorded, isOwner]
            have byOwner : FromOwner authors g owner d :=
              .inl ⟨plaintext, share, isShare, read, same ▸ authentic.olm plaintext read,
                parsed, ours⟩
            have calls : Prog.Calls (fun asked => KeepsOwner g owner asked ∧
                asked ≠ .call (.deleteChat g)) (storeShare ctx owner share isNew true) :=
              calls_storeShare_owner ctx share isNew
            rw [same]
            have keeps : ∀ asked v answer v', KeepsOwner g owner asked ∧
                asked ≠ .call (.deleteChat g) →
                v.owner g = some owner → Ask.effectIf (clockBefore clock) asked v answer v' →
                v'.owner g = some owner := fun asked v answer v' kind before made =>
              untilDeleted_owner kind.1 before ⟨kind.2, made⟩
            refine calls.wp (fun asked v kind before => ?_) keeps before
            exact ⟨before, fun answer v' made => ⟨keeps asked v answer v' kind before made.2,
              .inr (.inl byOwner)⟩⟩
      · exact wp_aloof (calls_storeShare (fun part _ => elsewhere_id ours part)
          (fun _ => trivial) ctx
          d.inc.from isNew) before

/-! ### Megolm frames -/

/-- A leave notice takes its sender off the roster. -/
theorem wp_leave (authentic : Authentic authors d) {groupId : String}
    (ofGroup : d.inc.groupId = some groupId) (before : d.vault.owner g = some owner) :
    Prog.wp (arrivalSpec authors g owner clock d) (fun _ v => v.owner g = some owner)
      (processMegolmSystem d.inc.from groupId d.inc.payload d.inc.clientTs) d.vault := by
  refine wp_readMegolm before rfl fun plaintext idx receiver read => ?_
  dsimp only
  split
  · exact before
  next isLeft =>
  have isLeft : plaintext = leftSentinel := not_not.mp isLeft
  rw [isLeft] at read
  refine wp_accepted before rfl fun v before => wp_until ?_
  have shown : Prog.Calls (Aloof g) (deliverSystem groupId d.inc.from d.inc.clientTs) :=
    calls_emitSystem (elsewhere_part (by decide) _) _ _
  by_cases ours : groupId = g
  · subst ours
    refine (wp_call _ _ v).mpr ⟨⟨before, ?_⟩, wp_aloof shown before⟩
    rintro answer v' ⟨_, made⟩
    obtain ⟨_, rfl⟩ := Prod.mk.inj (made : (answer, v') = _)
    refine ⟨before, .inr (.inr ⟨⟨ofGroup, read, authentic.megolm _ _ read⟩, ?_⟩)⟩
    refine ⟨v.getMembers_removeMember groupId d.inc.from, fun part listed => ?_⟩
    refine VaultOp.exec_frame (.removeMember groupId d.inc.from) v part groupId ?_
    rintro ⟨rfl, _⟩
    exact absurd listed (by decide)
  · exact wp_aloof ((calls_write (elsewhere_id ours _) (fun _ _ => id) (by trivial)).bind
      fun _ => shown) before

/-- The tail of an event names no owner. -/
theorem calls_event (ctx : ProcCtx) (groupId : String) (event : GroupEvent) (clientTs : Int) :
    Prog.Calls (KeepsOwner g owner) (do
      if ← applyGroupEvent ctx groupId event clientTs then return ()
      emitGroupEvent groupId event.kind event.who (event.mode.getD "") clientTs
      emitChats ctx.addr) := by
  have one : ∀ {op : VaultOp}, (∀ key mode owner', op ≠ .upsertGroupMeta g key mode owner') →
      Prog.Calls (KeepsOwner g owner) (call op) := fun other =>
    ⟨fun key mode owner' same => absurd (Ask.call.inj same) (other key mode owner'),
      fun _ => trivial⟩
  have aloof : ∀ {α : Type} {prog : Client α}, Prog.Calls (Aloof g) prog →
      Prog.Calls (KeepsOwner g owner) prog := fun calls => calls.mono fun _ => aloof_keepsOwner
  have drops : Prog.Calls (KeepsOwner g owner) (dropMember groupId event clientTs) := by
    refine (one (by nofun)).bind fun _ => (one (by nofun)).bind fun _ => ?_
    split
    · exact one (by nofun)
    · split
      · exact one (by nofun)
      · trivial
    · trivial
  have aimed : Prog.Calls (KeepsOwner g owner) (do
      if event.who = ctx.me then
        if event.kind = "suspended" then
          emit (.info "you were suspended from a group")
          return false
        call (.deleteChat groupId)
        emitChats ctx.addr
        emit (.info ("you were " ++ event.kind ++ " from a group"))
        return true
      dropMember groupId event clientTs
      return false) := by
    split
    · split
      · exact (aloof (calls_emit _)).bind fun _ => trivial
      · exact (one (by nofun)).bind fun _ => (aloof (calls_emitChats _)).bind fun _ =>
          (aloof (calls_emit _)).bind fun _ => trivial
    · exact drops.bind fun _ => trivial
  have applies : Prog.Calls (KeepsOwner g owner) (applyGroupEvent ctx groupId event clientTs) := by
    unfold applyGroupEvent
    split
    · exact (one (by nofun)).bind fun _ => (one (by nofun)).bind fun _ =>
        (one (by nofun)).bind fun _ => trivial
    · exact aimed
    · exact aimed
    · exact aimed
    · split
      · dsimp only
        split
        · exact (one (by nofun)).bind fun _ => trivial
        · trivial
      · trivial
    · trivial
  refine applies.bind fun gone => ?_
  cases gone with
  | true => trivial
  | false =>
      exact (aloof (calls_emitGroupEvent (elsewhere_part (by decide) _) _ _ _ _)).bind
        fun _ => aloof (calls_emitChats _)

/-- An event changes the group only if the owner wrote it for the group. -/
theorem wp_event {ctx : ProcCtx} (authentic : Authentic authors d) {groupId : String}
    (isEvent : d.inc.msgType = MsgType.groupEvent) (ofGroup : d.inc.groupId = some groupId)
    (before : d.vault.owner g = some owner) :
    Prog.wp (arrivalSpec authors g owner clock d) (fun _ v => v.owner g = some owner)
      (processGroupEvent ctx d.inc.from groupId d.inc.payload d.inc.clientTs) d.vault := by
  by_cases ours : groupId = g
  · subst ours
    refine wp_readMegolm before rfl fun plaintext idx receiver read => ?_
    refine wp_accepted before rfl fun v before => ?_
    have reads : Prog.wp (askSpec authors groupId owner clock d)
        (fun result v' => v' = v ∧ result = .ok (v.getGroupMeta groupId))
        (call (.getGroupMeta groupId)) v := by
      have aloof : Aloof groupId (.call (.getGroupMeta groupId)) := (calls_read fun _ _ => id).1
      exact (wp_call _ _ v).mpr ⟨(aloof_within _ _ aloof before).1, rfl, rfl⟩
    rw [if_neg (by decide), Prog.bind_eq, Prog.wp_bind]
    refine Prog.wp_mono (fun result v' after => ?_) (wp_until reads)
    obtain ⟨rfl, rfl⟩ := after
    obtain ⟨row, found, isOwner⟩ := Option.map_eq_some_iff.mp before
    rw [Prog.andThen_ok, found]
    dsimp only [Option.elim]
    split
    · exact before
    · next notOther =>
      have same : d.inc.from = owner := by
        simp only [Bool.not_eq_true', Bool.and_eq_true, decide_eq_true_eq,
          Bool.not_eq_false] at notOther
        rw [← notOther.2, isOwner]
      have byOwner : FromOwner authors groupId owner d :=
        .inr ⟨plaintext, isEvent, ofGroup, read, same ▸ authentic.megolm _ _ read⟩
      exact wp_fromOwner ((Prog.calls_ofExcept _).bind fun event =>
        calls_event ctx groupId event d.inc.clientTs) byOwner before
  · exact wp_until (wp_aloof (calls_processGroupEvent (fun part _ => elsewhere_id ours part) ctx
      d.inc.from d.inc.payload d.inc.clientTs) before)

/-! ### One frame, and every run -/

/-- **One frame.** -/
theorem wp_arrival {ctx : ProcCtx} (uuid : IsUuid g) (theirs : owner ≠ ctx.me)
    (sender : validUsername d.inc.from = true) (authentic : Authentic authors d)
    (before : d.vault.owner g = some owner) :
    Prog.wp (arrivalSpec authors g owner clock d) (fun _ v => v.owner g = some owner)
      (processFrame ctx d.inc) d.vault := by
  have chat : d.inc.from ≠ g := fun same => by
    rw [same, uuid.not_username] at sender
    cases sender
  have grouped : ∀ {missing : String} {f : String → Client Unit},
      (∀ groupId, d.inc.groupId = some groupId →
        Prog.wp (arrivalSpec authors g owner clock d) (fun _ v => v.owner g = some owner)
          (f groupId)
          d.vault) →
      Prog.wp (arrivalSpec authors g owner clock d) (fun _ v => v.owner g = some owner)
        ((frameGroup d.inc missing).bind f) d.vault := by
    intro missing f handles
    unfold frameGroup
    cases ofGroup : d.inc.groupId with
    | none => exact before
    | some groupId => exact handles groupId ofGroup
  have one : Prog.wp (arrivalSpec authors g owner clock d) (fun _ v => v.owner g = some owner)
      (processOne ctx d.inc) d.vault := by
    unfold processOne
    split
    · refine wp_until (wp_decrypted before fun plaintext v _ before => ?_)
      exact wp_aloof (calls_deliverDmText (elsewhere_id chat _) trivial (elsewhere_id chat _)
        (elsewhere_id chat _) _ _ _) before
    · next isShare =>
      exact wp_until (wp_decrypted before fun plaintext v read before =>
        wp_keyShare authentic isShare read before)
    · refine grouped fun groupId _ => wp_until (wp_aloof ?_ before)
      exact calls_processMegolm (elsewhere_part (by decide) _) (elsewhere_part (by decide) _)
        (elsewhere_part (by decide) _) _ _ _
    · refine wp_until (wp_decrypted before fun plaintext v _ before => wp_aloof ?_ before)
      split
      · exact calls_emitSystem (elsewhere_part (by decide) _) _ _
      · trivial
    · exact grouped fun groupId ofGroup => wp_leave authentic ofGroup before
    · refine wp_until (wp_decrypted before fun plaintext v _ before => ?_)
      refine wp_handleJoinRequest aloof_within (elsewhere_part (by decide))
        (elsewhere_part (by decide) _) (fun req row _ found mine part _ => ?_) (fun _ => trivial) _
        before
      -- a request that is worked off is for a group of ours
      refine elsewhere_id (fun same => theirs ?_) part
      obtain ⟨row', recorded, isOwner⟩ := Option.map_eq_some_iff.mp before
      rw [same, recorded] at found
      rw [← isOwner, Option.some.inj found, mine]
    · refine wp_until (wp_decrypted before fun plaintext v _ before => ?_)
      exact wp_aloof (calls_handleJoinDenied _ _) before
    · next isEvent =>
      exact grouped fun groupId ofGroup =>
        wp_event authentic isEvent ofGroup before
    · exact before
  unfold processFrame
  rw [Prog.bind_eq, Prog.wp_bind, Prog.wp_attempt]
  refine Prog.wp_mono (fun result v after => ?_) one
  cases result with
  | ok _ => exact after
  | error e => exact wp_until (wp_aloof (calls_emit _) after)

/-- What the relay may deliver: from a valid username, and no more than the ratchets let be read. -/
structure Deliverable (authors : Authors) (d : Arrival) (v : Vault) : Prop where
  begins : d.vault = v
  sender : validUsername d.inc.from = true
  authentic : Authentic authors d

/-- **Group authority.** In a vault that holds a group of someone else, whatever is delivered: until
the group is deleted, every request leaves its owner as recorded, and it changes the roster, the
access mode, the bans or the suspensions that have not run out only for a frame with words of the
owner for the group, or for the leave notice of the member whom it takes off the roster. -/
theorem group_authority (ctx : ProcCtx) (authors : Authors) (g owner : String) (clock : Int)
    (start : Vault) (uuid : IsUuid g) (theirs : owner ≠ ctx.me) (known : start.owner g = some owner)
    {d : Arrival} {prog prog' : Client Unit} {v v' : Vault}
    (reached : Relation.ReflTransGen (Served (untilDeleted g clock)
      (fun d : Arrival => processFrame ctx d.inc) (Deliverable authors)) (none, start)
        (some (d, prog), v))
    (step : Prog.Moves (untilDeleted g clock) (prog, v) (prog', v')) :
    Warranted authors g owner clock d v v' := by
  cases step with
  | ask made =>
      have handler : ∀ (d : Arrival) v, Deliverable authors d v → v.owner g = some owner →
          Prog.wp (arrivalSpec authors g owner clock d) (fun _ v => v.owner g = some owner)
            (processFrame ctx d.inc) v := by
        rintro d _ ⟨rfl, sender, authentic⟩ before
        exact wp_arrival uuid theirs sender authentic before
      exact (served_demands handler known reached).2 _ _ made

/-- With a session for the group, a frame is read and nothing else happens. -/
theorem openMegolm_held {groupId sender payload : String} (receiver : GroupReceiver)
    {receiver' : GroupReceiver}
    {body plaintext : Bytes} {idx : Nat} (held : v.loadGroupIn groupId sender = some receiver)
    (decoded : b64Decode payload = .ok body)
    (opened : receiver.decrypt body = .ok (plaintext, idx, receiver')) :
    Prog.Runs (untilDeleted g clock) (openMegolm groupId sender payload) v
      (.ok (some (plaintext, idx, receiver'))) v := by
  refine .ask ⟨by nofun, rfl⟩ ?_
  simp only [Prog.done_bind, held, decoded, opened, lift_eq, Prog.bind_eq, Prog.ofExcept_ok]
  exact .done _ _

end

namespace Ideal

/-- The text of a group's id. -/
def bobsGroup : String := "00000000-0000-4000-8000-100000000000"

/-- Alice is in a group of Bob's, and Carol has shared her session with her. -/
def inBobsGroup : Vault where
  __ := Vault.empty
  groups := Table.put ∅ bobsGroup ⟨"ABCDEFGH", AccessMode.open, "bob"⟩
  chatMembers := [(bobsGroup, "bob"), (bobsGroup, "carol"), (bobsGroup, "alice")]
  groupIn := Table.put ∅ (bobsGroup, "carol") ⟨5, 0⟩

/-- Carol leaves. -/
def carolLeaves : Incoming where
  «from» := "carol"
  msgType := MsgType.megolmSystem
  payload := b64Encode (groupEncrypt (⟨5, 0⟩ : GroupSession) leftSentinel).1
  groupId := some bobsGroup
  clientTs := 0

def carolsLeave : Arrival := ⟨carolLeaves, inBobsGroup⟩

/-- Carol has written her leave notice, and nothing else. -/
def carolWrote : Authors where
  olm _ _ := False
  megolm sender groupId plaintext := sender = "carol" ∧ groupId = bobsGroup ∧
  plaintext = leftSentinel

theorem carol_reads_none (plaintext : Bytes) : ¬ carolsLeave.ReadsOlm plaintext := by
  rintro ⟨v', runs⟩
  have malformed : parseOlm carolLeaves.payload = .error
      "malformed olm payload (expected <type>.<b64>)" := by
    decide +kernel
  unfold obtainOlmPlaintext readOlm at runs
  rw [show carolsLeave.inc.payload = carolLeaves.payload from rfl, malformed] at runs
  cases runs

theorem carol_decrypts : GroupReceiver.decrypt (⟨5, 0⟩ : InboundGroupSession)
    (groupEncrypt (⟨5, 0⟩ : GroupSession) leftSentinel).1 = .ok
      (leftSentinel, 0, (⟨5, 0⟩ : InboundGroupSession)) := by
  have read : InboundGroupSession.decrypt ⟨5, 0⟩ (GroupSession.encrypt ⟨5, 0⟩ leftSentinel).1 =
      some (leftSentinel, 0, ⟨5, 0⟩) := by
    simp [InboundGroupSession.decrypt, GroupSession.encrypt]
  exact congrArg (orError "cannot decrypt") read

theorem carol_authentic : Authentic carolWrote carolsLeave where
  olm plaintext read := carol_reads_none plaintext read
  megolm groupId plaintext read := by
    obtain ⟨receiver, body, idx, receiver', held, decoded, opened⟩ := read
    have group : groupId = bobsGroup := by
      by_contra other
      have none : inBobsGroup.loadGroupIn groupId "carol" = none := by
        show (Table.put ∅ (bobsGroup, "carol") _).get (groupId, "carol") = none
        rw [Table.get_put, if_neg fun same => other (congrArg Prod.fst same)]
        rfl
      rw [show carolsLeave.vault = inBobsGroup from rfl,
        show carolsLeave.inc.from = "carol" from rfl,
        none] at held
      cases held
    subst group
    obtain rfl : receiver = (⟨5, 0⟩ : InboundGroupSession) := (Option.some.inj held).symm
    have sent : b64Decode carolsLeave.inc.payload = .ok
        (groupEncrypt (⟨5, 0⟩ : GroupSession) leftSentinel).1 :=
      b64Decode_b64Encode _
    rw [sent] at decoded
    obtain rfl := Except.ok.inj decoded
    rw [carol_decrypts] at opened
    exact ⟨rfl, rfl, (Prod.mk.inj (Except.ok.inj opened)).1.symm⟩

/-- Alice's vault when the notice has passed the replay guard. -/
def noticeAccepted : Vault :=
  (inBobsGroup.megolmAccept bobsGroup "carol" "5" 0).2.saveGroupIn bobsGroup "carol"
    (⟨5, 0⟩ : InboundGroupSession)

/-- What is left of the notice then. -/
def noticeTail : Client Unit := do
  call (.removeMember bobsGroup "carol")
  deliverSystem bobsGroup "carol" 0

theorem notice_moves : Relation.ReflTransGen (Prog.Moves (untilDeleted bobsGroup 1))
    (processFrame ⟨"alice", "relay"⟩ carolLeaves, inBobsGroup)
    (noticeTail.attempt.bind roundEnd, noticeAccepted) := by
  have opens : Prog.Runs (untilDeleted bobsGroup 1) (openMegolm bobsGroup "carol"
      carolLeaves.payload)
      inBobsGroup (.ok (some (leftSentinel, 0, (⟨5, 0⟩ : InboundGroupSession)))) inBobsGroup := by
    refine openMegolm_held (⟨5, 0⟩ : InboundGroupSession) rfl (b64Decode_b64Encode _)
      carol_decrypts
  have accepts : Prog.Runs (untilDeleted bobsGroup 1)
      (acceptMegolm bobsGroup "carol" 0 (⟨5, 0⟩ : InboundGroupSession)) inBobsGroup (.ok true)
        noticeAccepted :=
    .ask ⟨by nofun, rfl⟩ (.ask ⟨by nofun, rfl⟩ (.done _ _))
  exact processFrame_moves ((opens.moves_bind _).trans (accepts.moves_bind _))

/-- Carol's notice takes Carol off the roster. -/
theorem carol_leaves_warranted : Warranted carolWrote bobsGroup "bob" 1 carolsLeave noticeAccepted
    (noticeAccepted.removeMember bobsGroup "carol") := by
  have deliverable : Deliverable carolWrote carolsLeave inBobsGroup :=
      ⟨rfl, by decide, carol_authentic⟩
  have removes : Prog.Moves (untilDeleted bobsGroup 1) (noticeTail.attempt.bind roundEnd,
      noticeAccepted)
      (((deliverSystem bobsGroup "carol" 0).attempt.bind roundEnd),
        noticeAccepted.removeMember bobsGroup "carol") := by
    have made : untilDeleted bobsGroup 1 (.call (.removeMember bobsGroup "carol")) noticeAccepted ()
        (noticeAccepted.removeMember bobsGroup "carol") := ⟨by nofun, rfl⟩
    exact .ask made
  have known : inBobsGroup.owner bobsGroup = some "bob" := by decide
  exact group_authority ⟨"alice", "relay"⟩ carolWrote bobsGroup "bob" 1 inBobsGroup
    (by unfold IsUuid; decide) (show "bob" ≠ "alice" by decide) known
    (served_moves deliverable notice_moves)
    removes

end Ideal

end Cherm
