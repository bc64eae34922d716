/-
**What an owner's first share leaves: the group's authority.**

`handleGroupKeyShare` stores the session, the chat and the roster of a new group, and last, with
`upsertGroupMeta`, who owns it. That call gives way to another group that has the invite key.

* `wp_learnGroup` — the metadata row after a share by the owner; the calls before it leave the table
  of groups alone.
* `honoured_of_row` — while a row records its sender as the owner, a group event that can be read is
  applied.
* `owner_share_iff` — so the share establishes its sender's authority exactly if the sender was not
  blocked and no other group had the key; a mode that is no mode is recorded as `open`.
-/

import Cherm.Client.FrameAsks
import Cherm.Proof.Deadlines
import Cherm.Proof.InviteKeys

namespace Cherm

open Crates Client

section

variable [Crates]

/-! ### The law -/

/-- A share that makes a group: the group is not known, the sender claims it, and the keys are well
formed. -/
structure FoundingShare (v : Vault) (sender : String) (share : GroupKeyShare)
    (receiver : GroupReceiver) : Prop where
  noChat : v.chatExists share.groupId = false
  noRow : v.getGroupMeta share.groupId = none
  named : sender ≠ ""
  claims : share.owner = sender
  inviteKey : validGroupKey share.groupKey = true
  session : GroupReceiver.fromSessionKeyB64 share.sessionKey = .ok receiver

/-- The mode that is recorded. -/
def recordedMode (share : GroupKeyShare) : String :=
  if AccessMode.valid share.accessMode then share.accessMode else AccessMode.open

/-- The group has a row with the share's key, its mode, and the sender as owner. -/
def AuthorityRecorded (sender : String) (share : GroupKeyShare) (v : Vault) : Prop :=
  v.getGroupMeta share.groupId = some ⟨share.groupKey, recordedMode share, sender⟩

/-- What is done about the text of an event that counts. -/
def applyEventText (ctx : ProcCtx) (groupId : String) (plaintext : Bytes) (clientTs : Int) :
    Client Unit := do
  let event ← lift (GroupEvent.fromSlice plaintext)
  if ← applyGroupEvent ctx groupId event clientTs then return ()
  emitGroupEvent groupId event.kind event.who (event.mode.getD "") clientTs
  emitChats ctx.addr

/-- The sender's group events count: one that the stored session reads, and that is no replay, is
applied. -/
def Honoured (groupId sender : String) (v : Vault) : Prop :=
  ∀ (ctx : ProcCtx) (payload : String) (clientTs : Int) (body plaintext : Bytes) (idx : Nat)
    (receiver receiver' : GroupReceiver) (result : Except String Unit) (v' : Vault),
    v.loadGroupIn groupId sender = some receiver → b64Decode payload = .ok body →
    receiver.decrypt body = .ok (plaintext, idx, receiver') →
    (v.megolmAccept groupId sender receiver'.sessionId idx).1 = true →
    Prog.Runs Ask.effect (processGroupEvent ctx sender groupId payload clientTs) v result v' →
      Prog.Runs Ask.effect (applyEventText ctx groupId plaintext clientTs)
        ((v.megolmAccept groupId sender receiver'.sessionId idx).2.saveGroupIn groupId sender
          receiver') result v'

/-! ### Events of a recorded owner -/

theorem getGroupMeta_megolmAccept (v : Vault) (groupId sender sessionId : String) (index : Nat)
    (id : String) : (v.megolmAccept groupId sender sessionId index).2.getGroupMeta id
      = v.getGroupMeta id := by
  obtain ⟨seen, same, _⟩ := v.megolmAccept_writes groupId sender sessionId index
  rw [same]
  rfl

/-- While the row records its owner, the owner is heard. -/
theorem honoured_of_row {v : Vault} {groupId sender : String} {row : GroupMeta}
    (found : v.getGroupMeta groupId = some row) (owns : row.owner = sender) (named : sender ≠ "") :
    Honoured groupId sender v := by
  intro ctx payload clientTs body plaintext idx receiver receiver' result v' held decoded opened
    fresh runs
  unfold processGroupEvent openMegolm acceptMegolm at runs
  have runs := runs_call runs
  simp only [VaultOp.exec, held, Prog.done_bind, Prog.bind_eq, lift_eq, decoded, opened,
    Prog.ofExcept_ok, Prog.pure_eq, call_eq, Prog.ask_bind] at runs
  have runs := runs_call runs
  simp only [VaultOp.exec, fresh, if_true, Prog.done_bind, Prog.ask_bind] at runs
  have runs := runs_call (runs_call runs)
  have row' : ((v.megolmAccept groupId sender receiver'.sessionId idx).2.saveGroupIn groupId sender
      receiver').getGroupMeta groupId = some row :=
    (getGroupMeta_megolmAccept v groupId sender _ idx groupId).trans found
  have isNamed : sender.isEmpty = false := by simpa using named
  simp only [VaultOp.exec, row', Option.elim_some, owns, isNamed, Bool.not_false, Bool.true_and,
    decide_true, Bool.not_true, Bool.false_eq_true, if_false] at runs
  exact runs

/-! ### The metadata row -/

/-- The table of groups is the same. -/
def SameGroups (v v' : Vault) : Prop := ∀ id, VaultPart.groups.SameAt id v v'

theorem keyTaken_congr {v v' : Vault} (same : SameGroups v v') (groupId key : String) :
    v'.keyTaken groupId key = v.keyTaken groupId key := by
  rw [Bool.eq_iff_iff, Vault.keyTaken_iff, Vault.keyTaken_iff]
  have gets : ∀ id, v'.groups.get id = v.groups.get id := same
  simp only [gets]

/-- Anything but the table of groups. -/
def NoGroupRow (part : VaultPart) (_ : String) : Prop := part ≠ .groups

variable {now : Int}

/-- Requests that write no metadata leave the table of groups alone. -/
theorem sameGroups_of_calls {α : Type} {kinds : String → String → Prop} {sends : SendMsg → Prop}
    {prog : Client α} (calls : Prog.Calls (Ask.May NoGroupRow kinds sends) prog)
    (s : Vault × Bool) :
    Prog.wp (.free (Ask.clocked now)) (fun _ s' => SameGroups s.1 s'.1) prog s :=
  calls.wp (fun _ _ _ _ => trivial)
    (fun _ _ _ _ may before made id =>
      (before id).trans (may.frame (fun writes => writes rfl) (Ask.clocked_effect made)))
    (fun id => VaultPart.sameAt_refl id s.1 .groups)

/-- What the owner's share leaves of the metadata: its row, unless another group has the key. -/
structure MetaWritten (sender : String) (share : GroupKeyShare) (v v' : Vault) : Prop where
  written : v.keyTaken share.groupId share.groupKey = false → AuthorityRecorded sender share v'
  kept : v.keyTaken share.groupId share.groupKey = true →
    v'.getGroupMeta share.groupId = v.getGroupMeta share.groupId

/-- The chat and the roster come first, and the row last. -/
theorem wp_learnGroup {sender : String} {share : GroupKeyShare} (s : Vault × Bool)
    (inviteKey : validGroupKey share.groupKey = true) :
    Prog.wp (.free (Ask.clocked now))
      (fun result s' => result = .ok () → MetaWritten sender share s.1 s'.1)
      (learnGroup sender share) s := by
  have other : ∀ part, part ≠ .groups → ∀ id, NoGroupRow part id := fun _ differs _ => differs
  have before : Prog.Calls (Ask.May NoGroupRow (fun _ _ => True) (fun _ => True))
      ((upsertChat share.groupId "group" share.name).bind fun _ =>
        Prog.forEach share.members fun m => call (.addMember share.groupId m)) :=
    (calls_upsertChat (other .chats (by decide) _) trivial _).bind fun _ =>
      Prog.calls_forEach fun m _ => calls_write (other .chatMembers (by decide) _)
        (fun _ _ => id) (by trivial)
  unfold learnGroup
  rw [Prog.bind_eq, Prog.bind_eq, ← Prog.bind_assoc, Prog.wp_bind]
  refine Prog.wp_mono (fun result mid same => ?_) (sameGroups_of_calls before s)
  cases result with
  | error e => exact nofun
  | ok u =>
      simp only [Prog.andThen_ok, inviteKey, if_true, call_eq, wp_clocked_call, VaultOp.exec,
        Prog.wp_done]
      intro _
      have taken := keyTaken_congr same share.groupId share.groupKey
      refine ⟨fun isFree => ?_, fun isTaken => ?_⟩
      · rw [← taken] at isFree
        unfold AuthorityRecorded Vault.getGroupMeta Vault.upsertGroupMeta
        simp [isFree, recordedMode]
      · rw [← taken] at isTaken
        unfold Vault.upsertGroupMeta
        rw [if_pos isTaken]
        exact same share.groupId

/-- What a stored founding share leaves of the metadata. -/
theorem wp_storeShare {ctx : ProcCtx} {sender : String} {share : GroupKeyShare}
    {receiver : GroupReceiver} (s : Vault × Bool) (inviteKey : validGroupKey share.groupKey = true)
    (session : GroupReceiver.fromSessionKeyB64 share.sessionKey = .ok receiver) :
    Prog.wp (.free (Ask.clocked now))
      (fun result s' => result = .ok () → MetaWritten sender share s.1 s'.1)
      (storeShare ctx sender share true true) s := by
  have after : Prog.Calls (Ask.May NoGroupRow (fun _ _ => True) (fun _ => True))
      ((emitChats ctx.addr).bind fun _ => emit (.info ("added to group " ++ share.name))) :=
    (calls_emitChats _).bind fun _ => calls_emit _
  unfold storeShare
  simp only [session, lift_eq, Prog.ofExcept_ok, Prog.bind_eq, Prog.done_bind, call_eq,
    Prog.ask_bind, wp_clocked_call, VaultOp.exec, if_true]
  rw [Prog.wp_bind]
  refine Prog.wp_mono (fun result mid learned => ?_) (wp_learnGroup _ inviteKey)
  cases result with
  | error e => exact fun failed => by cases failed
  | ok u =>
      have written := learned rfl
      refine Prog.wp_mono (fun result s' same _ => ⟨fun isFree => ?_, fun isTaken => ?_⟩)
        (sameGroups_of_calls after mid)
      · exact Eq.trans (same share.groupId) (written.written isFree)
      · exact Eq.trans (same share.groupId) (written.kept isTaken)

/-! ### The handler -/

variable {v : Vault} {ctx : ProcCtx} {sender : String} {plaintext : Bytes} {share : GroupKeyShare}
  {receiver : GroupReceiver}

/-- Once its sender has turned out not to be blocked, a founding share is stored. -/
theorem wp_unblocked {v' : Vault} (founding : FoundingShare v sender share receiver)
    (chats : v'.chats = v.chats) (groups : v'.groups = v.groups) :
    Prog.wp (.free (Ask.clocked now))
      (fun result s' => result = .ok () → MetaWritten sender share v s'.1)
      (do
        let isNew := !(← call (.chatExists share.groupId))
        let existing ← call (.getGroupMeta share.groupId)
        let senderIsMember ← if isNew then pure false else call (.isMember share.groupId sender)
        let byOwner := ownerShare isNew existing share.owner sender
        if isNew && !byOwner then return ()
        if !isNew && !byOwner && !senderIsMember then return ()
        storeShare ctx sender share isNew byOwner : Client Unit) (v', true) := by
  have noChat : v'.chatExists share.groupId = false := by
    rw [← founding.noChat, Vault.chatExists, Vault.chatExists, chats]
  have noRow : v'.getGroupMeta share.groupId = none := by
    rw [← founding.noRow, Vault.getGroupMeta, Vault.getGroupMeta, groups]
  have named : sender.isEmpty = false := by simpa using founding.named
  simp only [call_eq, Prog.bind_eq, Prog.ask_bind, Prog.done_bind, Prog.pure_eq, wp_clocked_call,
    VaultOp.exec, noChat, noRow, Bool.not_false, if_true, ownerShare, founding.claims, named,
    decide_true, Bool.and_self, Bool.not_true, Bool.and_false, Bool.false_and, Bool.false_eq_true,
    if_false]
  have same : SameGroups v v' := fun id => congrArg (fun table => Table.get table id) groups
  refine Prog.wp_mono (fun result s' stored ok => ?_)
    (wp_storeShare (v', true) founding.inviteKey founding.session)
  have written := stored ok
  refine ⟨fun isFree => written.written ?_, fun isTaken => (written.kept ?_).trans ?_⟩
  · exact (keyTaken_congr same _ _).trans isFree
  · exact (keyTaken_congr same _ _).trans isTaken
  · exact same share.groupId

/-- What `handleGroupKeyShare` does about a share that it could read. -/
def admitShare (ctx : ProcCtx) (sender : String) (share : GroupKeyShare) : Client Unit := do
  if ← call (.isBanned share.groupId sender) then return ()
  let reading ← Client.now
  if ← isSuspended share.groupId sender reading then return ()
  let isNew := !(← call (.chatExists share.groupId))
  let existing ← call (.getGroupMeta share.groupId)
  let senderIsMember ← if isNew then pure false else call (.isMember share.groupId sender)
  let byOwner := ownerShare isNew existing share.owner sender
  if isNew && !byOwner then return ()
  if !isNew && !byOwner && !senderIsMember then return ()
  storeShare ctx sender share isNew byOwner

theorem handleGroupKeyShare_eq (read : GroupKeyShare.fromSlice plaintext = .ok share) :
    handleGroupKeyShare ctx sender plaintext = admitShare ctx sender share := by
  unfold handleGroupKeyShare
  rw [read]
  rfl

/-- What a founding share leaves of the metadata: nothing new from a blocked sender. -/
theorem wp_foundingShare (read : GroupKeyShare.fromSlice plaintext = .ok share)
    (founding : FoundingShare v sender share receiver) :
    Prog.wp (.free (Ask.clocked now))
      (fun result s' => result = .ok () →
        (v.Blocked share.groupId sender now → s'.1.getGroupMeta share.groupId = none) ∧
        (¬ v.Blocked share.groupId sender now → MetaWritten sender share v s'.1))
      (handleGroupKeyShare ctx sender plaintext) (v, false) := by
  rw [handleGroupKeyShare_eq read]
  unfold admitShare isSuspended
  simp only [Prog.bind_eq, Prog.done_bind, call_eq, Prog.ask_bind, wp_clocked_call, VaultOp.exec]
  by_cases banned : v.isBanned share.groupId sender = true
  · simp only [banned, if_true, Prog.pure_eq, Prog.wp_done]
    exact fun _ => ⟨fun _ => founding.noRow, fun free => absurd (.inl banned) free⟩
  · have notBanned : v.isBanned share.groupId sender = false := by simpa using banned
    simp only [notBanned, Bool.false_eq_true, if_false, now_eq, Prog.ask_bind, Prog.done_bind,
      wp_clocked_now, wp_clocked_call, VaultOp.exec]
    -- a suspension that is over is deleted, and no suspension is as good as that
    have unblocked : (∀ deadline, v.suspendedUntil share.groupId sender = some deadline →
        ¬ now < deadline) → ¬ v.Blocked share.groupId sender now := by
      rintro past (isBanned | ⟨deadline, stored, ahead⟩)
      · exact banned isBanned
      · exact past deadline stored ahead
    cases stored : v.suspendedUntil share.groupId sender with
    | none =>
        have free := unblocked (by simp [stored])
        exact Prog.wp_mono (fun _ _ written ok => ⟨fun blocked => absurd blocked free,
          fun _ => written ok⟩) (wp_unblocked founding rfl rfl)
    | some deadline =>
        by_cases ahead : now < deadline
        · simp only [ahead, if_true, Prog.pure_eq, Prog.done_bind, Prog.wp_done]
          exact fun _ => ⟨fun _ => founding.noRow,
            fun free => absurd (.inr ⟨deadline, stored, ahead⟩) free⟩
        · have free := unblocked (by rw [stored]; rintro _ ⟨rfl⟩; exact ahead)
          simp only [ahead, if_false, Prog.pure_eq, Prog.ask_bind, Prog.done_bind, wp_clocked_call,
            VaultOp.exec]
          exact Prog.wp_mono (fun _ _ written ok => ⟨fun blocked => absurd blocked free,
            fun _ => written ok⟩) (wp_unblocked founding rfl rfl)

/-- **A founding share establishes its sender's authority exactly if** the sender is not blocked and
no other group has the key: for every vault, every share and every reading of the clock. And while
that authority stands, its group events count. -/
theorem owner_share_iff {s' : Vault × Bool} (read : GroupKeyShare.fromSlice plaintext = .ok share)
    (founding : FoundingShare v sender share receiver)
    (runs : Prog.Runs (Ask.clocked now) (handleGroupKeyShare ctx sender plaintext) (v, false)
      (.ok ()) s') :
    (AuthorityRecorded sender share s'.1 ↔ ¬ v.Blocked share.groupId sender now ∧
      v.keyTaken share.groupId share.groupKey = false) ∧
    ∀ later row, later.getGroupMeta share.groupId = some row → row.owner = sender →
      Honoured share.groupId sender later := by
  obtain ⟨refused, stored⟩ :=
    Prog.wp_free_iff.mp (wp_foundingShare read founding) _ _ runs rfl
  refine ⟨⟨fun recorded => ?_, fun ⟨free, isFree⟩ => (stored free).written isFree⟩,
    fun later row found owns => honoured_of_row found owns founding.named⟩
  have absent : s'.1.getGroupMeta share.groupId ≠ none := by
    rw [show s'.1.getGroupMeta share.groupId = _ from recorded]
    exact nofun
  have free : ¬ v.Blocked share.groupId sender now := fun blocked => absent (refused blocked)
  refine ⟨free, ?_⟩
  by_contra taken
  have isTaken : v.keyTaken share.groupId share.groupKey = true := by simpa using taken
  exact absent (((stored free).kept isTaken).trans founding.noRow)

end

namespace Ideal

/-- A world without a relay, in which it is always time zero. -/
def playClocked : Prog.Machine (Vault × Bool) Ask Ask.Answer
  | .now, s => ((0 : Int), (s.1, true))
  | asked, s => ((Ask.play world asked s.1).1, ((Ask.play world asked s.1).2, s.2))

theorem playClocked_conforms (asked : Ask) (s : Vault × Bool) :
    Ask.clocked 0 asked s (playClocked asked s).1 (playClocked asked s).2 := by
  have conforms : Ask.effect asked s.1 (Ask.play world asked s.1).1 (Ask.play world asked s.1).2 :=
    Ask.play_conforms (fun _ => trivial) asked s.1
  cases asked with
  | now => exact ⟨fun _ => rfl, rfl⟩
  | _ => exact ⟨conforms, rfl⟩

/-- Mallory's first share of a group of hers. -/
def malloryFounding (mode : String) : GroupKeyShare where
  groupId := "g"
  name := "Group"
  sessionKey := "5.0"
  senderCurve := ""
  members := ["mallory", "alice"]
  owner := "mallory"
  accessMode := mode
  groupKey := "ABCDEFGH"

theorem mallory_founds (v : Vault) (mode : String) (noChat : v.chatExists "g" = false)
    (noRow : v.getGroupMeta "g" = none) :
    FoundingShare v "mallory" (malloryFounding mode) (⟨5, 0⟩ : InboundGroupSession) where
  noChat := noChat
  noRow := noRow
  named := by decide
  claims := rfl
  inviteKey := show validGroupKey "ABCDEFGH" = true by decide +kernel
  session := by
    have read : InboundGroupSession.fromKey "5.0" = some ⟨5, 0⟩ := by decide +kernel
    exact (orError_eq_ok "invalid session key" _ _).mpr read

/-- Alice takes the share in. -/
def malloryShared (v : Vault) (mode : String) : Except String Unit × Vault × Bool :=
  Prog.run playClocked (handleGroupKeyShare ⟨"alice", "relay"⟩ "mallory"
    (toVec (malloryFounding mode).toJson)) (v, false)

theorem malloryShared_runs {v : Vault} {mode : String} (ended : (malloryShared v mode).1 = .ok ()) :
    Prog.Runs (Ask.clocked 0) (handleGroupKeyShare ⟨"alice", "relay"⟩ "mallory"
      (toVec (malloryFounding mode).toJson)) (v, false) (.ok ()) (malloryShared v mode).2 := by
  rw [← ended]
  exact Prog.run_runs playClocked_conforms _ _

/-- The share is read back as it was written. -/
theorem malloryShared_eq (v : Vault) (mode : String) : malloryShared v mode =
    Prog.run playClocked (admitShare ⟨"alice", "relay"⟩ "mallory" (malloryFounding mode))
      (v, false) := by
  unfold malloryShared
  rw [handleGroupKeyShare_eq (GroupKeyShare.fromSlice_toVec _)]

/-- In an empty vault the share makes the group. -/
theorem mallory_owns :
    AuthorityRecorded "mallory" (malloryFounding "open") (malloryShared Vault.empty "open").2.1 := by
  have ended : (malloryShared Vault.empty "open").1 = .ok () := by
    rw [malloryShared_eq]
    decide +kernel
  refine (owner_share_iff (GroupKeyShare.fromSlice_toVec _)
    (mallory_founds Vault.empty "open" rfl rfl) (malloryShared_runs ended)).1.mpr ⟨?_, rfl⟩
  rintro (banned | ⟨deadline, stored, _⟩)
  · cases banned
  · cases stored

/-- The share founds its group with the mode it names. -/
def FoundsGroup (v : Vault) (share : GroupKeyShare) : Prop :=
  ∀ (ctx : ProcCtx) (sender : String) (plaintext : Bytes) (receiver : GroupReceiver) (now : Int)
    (s' : Vault × Bool), GroupKeyShare.fromSlice plaintext = .ok share →
    FoundingShare v sender share receiver →
    Prog.Runs (Ask.clocked now) (handleGroupKeyShare ctx sender plaintext) (v, false) (.ok ()) s' →
      s'.1.getGroupMeta share.groupId = some ⟨share.groupKey, share.accessMode, sender⟩

/-- Alice is in a group with the same key. -/
def keyInUse : Vault := Vault.empty.upsertGroupMeta "other" "ABCDEFGH" "open" "carol"

/-- Alice has a ban of Mallory from before she left the group. -/
def malloryBanned : Vault := Vault.empty.banUser "g" "mallory" 0

theorem not_foundsGroup {v : Vault} {mode : String} (ended : (malloryShared v mode).1 = .ok ())
    (noChat : v.chatExists "g" = false) (noRow : v.getGroupMeta "g" = none)
    (differs : (malloryShared v mode).2.1.getGroupMeta "g" ≠ some ⟨"ABCDEFGH", mode, "mallory"⟩) :
    ¬ FoundsGroup v (malloryFounding mode) := fun founds =>
  differs (founds _ _ _ _ 0 _ (GroupKeyShare.fromSlice_toVec _)
    (mallory_founds v mode noChat noRow) (malloryShared_runs ended))

/-- Three founding shares that leave something else: the key is in use, the mode is none, the sender
is banned. -/
theorem shares_without_authority :
    ¬ FoundsGroup keyInUse (malloryFounding "open") ∧
      ¬ FoundsGroup Vault.empty (malloryFounding "secret") ∧
      ¬ FoundsGroup malloryBanned (malloryFounding "open") := by
  refine ⟨not_foundsGroup ?_ rfl rfl ?_, not_foundsGroup ?_ rfl rfl ?_,
    not_foundsGroup ?_ rfl rfl ?_⟩
  all_goals
    rw [malloryShared_eq]
    decide +kernel

end Ideal

end Cherm
