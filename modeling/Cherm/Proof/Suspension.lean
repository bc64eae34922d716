/-
**A suspension and the clock of the suspended.**

`processOne` hands the sender's `client_ts` to `handleJoinRequest`, which asks `isSuspended` with
it, and `isSuspended` deletes a suspension that has run out at the time it is asked with. So a
suspension until `deadline` stands against a join request exactly while the request dates itself
before it (`suspensionHolds_iff`), whatever the owner's own clock says.

* `calls_kept`: requests that stay out of a group leave the suspension alone.
* `handleJoinRequest_kept`: so does the handler, for a request dated before the deadline.
* `handleJoinRequest_clears`: it does not, for a later one.
-/

import Cherm.Client.FrameAsks
import Cherm.Ideal

namespace Cherm

open Crates Client

section

variable [Crates]

/-- The owner's clock reads less than the deadline; the rest is answered with anything. -/
@[simp] def clockBefore (deadline : Int) : (asked : Ask) → asked.Answer → Prop
  | .now, reading => reading < deadline
  | _, _ => True

/-- Not on the roster if they were not, no session key of the group for them, still suspended. -/
structure StillSuspended (group user : String) (deadline : Int) (v : Vault)
    (state : Vault × List Ask) : Prop where
  roster : user ∈ state.1.getMembers group → user ∈ v.getMembers group
  noKey : ∀ msg, .post (.send msg) ∈ state.2 → msg.msgType = MsgType.olmGroupKey →
    msg.groupId = some group → user ∉ msg.to
  suspended : ∃ later, state.1.suspendedUntil group user = some later ∧ deadline ≤ later

/-- **The law**: processing the frame before the deadline leaves its sender suspended. -/
def SuspensionHolds (ctx : ProcCtx) (inc : Incoming) (group : String) (deadline : Int) (v : Vault) :
    Prop :=
  ∀ result state, Prog.Runs (Prog.logged (Ask.effectIf (clockBefore deadline)))
    (processFrame ctx inc) (v, []) result state → StillSuspended group inc.from deadline v state

/-- The frame can be decrypted to a join request for the group with this key. -/
def CarriesRequest (inc : Incoming) (group key : String) (deadline : Int) (v : Vault) : Prop :=
  ∃ plaintext v', Prog.Runs (Ask.effectIf (clockBefore deadline))
    (obtainOlmPlaintext inc.from inc.payload) v (.ok plaintext) v' ∧
      JoinRequest.fromSlice plaintext = .ok ⟨group, key⟩

variable {ctx : ProcCtx} {group user : String} {deadline : Int} {v : Vault}

/-- The weakest precondition before the deadline. -/
abbrev wpBefore (deadline : Int) {α : Type} (post : Except String α → Vault × List Ask → Prop)
    (prog : Client α) (state : Vault × List Ask) : Prop :=
  Prog.wp (.free (Prog.logged (Ask.effectIf (clockBefore deadline)))) post prog state

theorem clockBefore_total (asked : Ask) (world : asked.World) :
    ∃ answer, clockBefore deadline asked answer := by
  cases asked with
  | call op => exact absurd rfl (world.noCall op)
  | now => exact ⟨deadline - 1, Int.sub_lt_self deadline Int.one_pos⟩
  | request msg => exact ⟨.error "", trivial⟩
  | post msg => exact ⟨.ok (), trivial⟩
  | emit event => exact ⟨(), trivial⟩
  | random => exact ⟨0, trivial⟩
  | connect addr => exact ⟨.ok (), trivial⟩
  | readFile path => exact ⟨.ok "", trivial⟩
  | writeBackup server username uuid device => exact ⟨.ok "", trivial⟩
  | saveIndex => exact ⟨.ok (), trivial⟩

/-! ### Staying out of a group -/

/-- The group's roster, row and suspensions are what they were, and none of its keys went out. -/
structure Kept (group : String) (v : Vault) (state : Vault × List Ask) : Prop where
  roster : VaultPart.chatMembers.SameAt group v state.1
  row : VaultPart.groups.SameAt group v state.1
  suspensions : VaultPart.groupSuspensions.SameAt group v state.1
  noKey : ∀ msg, .post (.send msg) ∈ state.2 →
    ¬ (msg.msgType = MsgType.olmGroupKey ∧ msg.groupId = some group)

theorem kept_start : Kept group v (v, []) := ⟨rfl, rfl, rfl, nofun⟩

/-- The rows of other groups and the rows of no group. -/
def Outside (group : String) (part : VaultPart) (id : String) : Prop :=
  id = group → part ∉ [VaultPart.chatMembers, .groups, .groupSuspensions]

/-- The messages that are no key shares of the group. -/
def NoKeyOf (group : String) (msg : SendMsg) : Prop :=
  ¬ (msg.msgType = MsgType.olmGroupKey ∧ msg.groupId = some group)

theorem calls_kept {α : Type} {prog : Client α}
    (calls : Prog.Calls (Ask.May (Outside group) (fun _ _ => True) (NoKeyOf group)) prog)
      {state : Vault × List Ask}
    (before : Kept group v state) :
    wpBefore deadline (fun _ => Kept group v) prog state := by
  refine calls.wp (fun _ _ _ _ => trivial) (fun asked s answer s' may kept made => ?_) before
  have same : ∀ part ∈ [VaultPart.chatMembers, .groups, .groupSuspensions],
      part.SameAt group s.1 s'.1 := fun part listed =>
    may.frame (fun outside => outside rfl listed) made.1
  refine ⟨kept.roster.trans (same _ (by decide)),
    kept.row.trans (same _ (by decide)),
    kept.suspensions.trans (same _ (by decide)), fun msg member => ?_⟩
  rw [made.2] at member
  rcases List.mem_cons.mp member with rfl | earlier
  · exact may
  · exact kept.noKey msg earlier

theorem Kept.stillSuspended {state : Vault × List Ask} (kept : Kept group v state)
    (suspended : v.suspendedUntil group user = some deadline) :
    StillSuspended group user deadline v state where
  roster member := kept.roster ▸ member
  noKey msg member isKey ofGroup := absurd ⟨isKey, ofGroup⟩ (kept.noKey msg member)
  suspended := ⟨deadline, (congrFun kept.suspensions user).trans suspended, Int.le_refl _⟩

/-! ### The handler -/

/-- Refusing a join hands over a denial and nothing else of the group. -/
theorem denyJoin_kept (groupId reason : String) {state : Vault × List Ask}
    (before : Kept group v state) :
    wpBefore deadline (fun _ => Kept group v) (denyJoin user groupId reason) state := by
  refine calls_kept (calls_denyJoin ?_ ?_ ?_ reason) before
  · exact fun _ _ => by decide
  · exact fun _ => by decide
  · rintro _ _ ⟨isKey, _⟩
    have distinct : MsgType.groupJoinDenied ≠ MsgType.olmGroupKey := by decide
    exact distinct isKey

/-- Dated before the deadline, a join request of the suspended is refused. -/
theorem handleJoinRequest_kept (suspended : v.suspendedUntil group user = some deadline) {ts : Int}
    (early : ts < deadline) (plaintext : Bytes) {state : Vault × List Ask}
    (before : Kept group v state) :
    wpBefore deadline (fun _ => Kept group v) (handleJoinRequest ctx user plaintext ts) state := by
  cases read : JoinRequest.fromSlice plaintext with
  | error e =>
      simp only [handleJoinRequest, read, lift_eq, Prog.bind_eq, Prog.ofExcept_error,
        Prog.fail_bind,
        Prog.wp_fail]
      exact before
  | ok req =>
      by_cases same : req.groupId = group
      · obtain ⟨v', log⟩ := state
        have still : v'.suspendedUntil group user = some deadline :=
          (congrFun before.suspensions user).trans suspended
        unfold handleJoinRequest isSuspended
        rw [read]
        simp only [lift_eq, call_eq, Prog.bind_eq, Prog.ofExcept_ok, Prog.done_bind, Prog.ask_bind,
          wp_logged_call, VaultOp.exec, same]
        have unsent : ∀ asked : List Ask, (∀ msg, Ask.post msg ∉ asked) →
            Kept group v (v', asked ++ log) := fun asked silent =>
          ⟨before.roster, before.row, before.suspensions, fun msg member => by
            rcases List.mem_append.mp member with new | old
            · exact absurd new (silent _)
            · exact before.noKey msg old⟩
        cases v'.getGroupMeta group with
        | none => exact unsent [_] (by simp)
        | some row =>
            dsimp only
            split
            · exact unsent [_] (by simp)
            · simp only [wp_logged_call, VaultOp.exec, same, still, early, if_true, Prog.pure_eq,
                Prog.done_bind]
              obtain ⟨reason, denied⟩ := decideJoin_suspended row.accessMode
                (validGroupKey req.groupKey && decide (req.groupKey = row.groupKey))
                (v'.isBanned group user) (v'.isMember group user)
              rw [denied]
              exact denyJoin_kept group reason (unsent [_, _, _, _] (by simp))
      · refine calls_kept (calls_handleJoinRequest ?_ ?_ ?_ ?_ ctx user ts) before
        · exact fun _ _ => by decide
        · exact fun _ _ => by decide
        · rintro req' read' part _ here
          rw [read] at read'
          exact absurd (Except.ok.inj read' ▸ here) same
        · rintro req' read' _ _ _ _ ⟨_, ofGroup⟩
          rw [read] at read'
          exact same (Except.ok.inj read' ▸ Option.some.inj ofGroup)

/-- A suspension that is gone does not come back with requests that leave suspensions alone. -/
theorem unsuspended_stays {prog : Client Unit}
    (calls : Prog.Calls (Ask.May (fun part _ => part ≠ .groupSuspensions) (fun _ _ => True) fun _ =>
      True) prog)
    {state : Vault × List Ask} (gone : state.1.suspendedUntil group user = none) :
    ¬ wpBefore deadline (fun _ state => ∃ later, state.1.suspendedUntil group user = some later)
      prog state := by
  intro holds
  have back := (calls.wp_iff (Prog.logged_total (Ask.effectIf_total clockBefore_total))
    (fun asked s answer s' may made => ?_) state).mp holds
  · obtain ⟨later, isSome⟩ := back
    rw [gone] at isSome
    cases isSome
  · have same : VaultPart.groupSuspensions.SameAt group s.1 s'.1 :=
      may.frame (fun outside => outside rfl) made.1
    rw [show s'.1.suspendedUntil group user = s.1.suspendedUntil group user from congrFun same user]

/-- Dated at the deadline or later, it deletes the suspension. -/
theorem handleJoinRequest_clears {row : GroupMeta} (owned : v.getGroupMeta group = some row)
    (mine : row.owner = ctx.me) (named : ctx.me ≠ "")
    (suspended : v.suspendedUntil group user = some deadline) {ts : Int} (late : deadline ≤ ts)
    {plaintext : Bytes} {key : String} (request : JoinRequest.fromSlice plaintext = .ok
    ⟨group, key⟩)
    {state : Vault × List Ask} (before : Kept group v state) :
    ¬ wpBefore deadline (fun _ state => ∃ later, state.1.suspendedUntil group user = some later)
      (handleJoinRequest ctx user plaintext ts) state := by
  obtain ⟨v', log⟩ := state
  have still : v'.suspendedUntil group user = some deadline :=
    (congrFun before.suspensions user).trans suspended
  have ours : v'.getGroupMeta group = some row := Eq.trans before.row owned
  have owner : (row.owner.isEmpty || decide (row.owner ≠ ctx.me)) = false := by
    simp [mine, named]
  unfold handleJoinRequest isSuspended
  rw [request]
  simp only [lift_eq, call_eq, Prog.bind_eq, Prog.ofExcept_ok, Prog.done_bind, Prog.ask_bind,
    wp_logged_call, VaultOp.exec, ours, owner, still, Bool.false_eq_true, if_false,
    if_neg (Int.not_lt.mpr late), Prog.pure_eq]
  have gone : (v'.clearSuspension group user).suspendedUntil group user = none := by
    simp [Vault.clearSuspension, Vault.suspendedUntil]
  split
  · refine unsuspended_stays (calls_admitMember ?_ ?_ ?_ ?_ ?_ ?_ ?_ ?_ _ _ _ _) gone <;> simp
  · refine unsuspended_stays ?_ gone
    refine ⟨⟨?_, trivial⟩, fun _ => (calls_emitGroupEvent ?_ _ _ _ _).bind fun _ => calls_emit _⟩
    · rintro _ _ ⟨rfl, _⟩
      simp
    · simp
  · refine unsuspended_stays (calls_denyJoin ?_ ?_ ?_ _) gone <;> simp

/-! ### The frame -/

/-- Decrypting a frame stays out of every group. -/
theorem obtainOlmPlaintext_kept (sender payload : String) {state : Vault × List Ask}
    (before : Kept group v state) :
    wpBefore deadline (fun _ => Kept group v) (obtainOlmPlaintext sender payload) state := by
  refine calls_kept (calls_obtainOlmPlaintext ?_ ?_ ?_ payload) before
  · exact fun _ _ => by decide
  · exact fun _ _ => by decide
  · exact fun _ => by decide

theorem processOne_join (inc : Incoming) (isJoin : inc.msgType = MsgType.groupJoin) :
    processOne ctx inc = (obtainOlmPlaintext inc.from inc.payload).bind fun plaintext =>
      handleJoinRequest ctx inc.from plaintext inc.clientTs := by
  unfold processOne
  rw [isJoin]
  rfl

/-- A request dated at the deadline or later ends the suspension. -/
theorem early_of_suspensionHolds (inc : Incoming) (isJoin : inc.msgType = MsgType.groupJoin)
    {row : GroupMeta} (owned : v.getGroupMeta group = some row) (mine : row.owner = ctx.me)
    (named : ctx.me ≠ "") (suspended : v.suspendedUntil group inc.from = some deadline)
    (carries : CarriesRequest inc group row.groupKey deadline v)
    (law : SuspensionHolds ctx inc group deadline v) : inc.clientTs < deadline := by
  have holds := Prog.wp_free_iff.mpr law
  unfold processFrame at holds
  rw [processOne_join inc isJoin, Prog.bind_eq, Prog.wp_bind, Prog.wp_attempt,
    Prog.wp_bind] at holds
  by_contra late
  obtain ⟨plaintext, v', runs, request⟩ := carries
  obtain ⟨log', logged⟩ := runs.logged []
  have before : Kept group v (v', log') :=
    logged.ends (obtainOlmPlaintext_kept inc.from inc.payload kept_start)
  have rest := logged.ends holds
  refine handleJoinRequest_clears owned mine named suspended (Int.not_lt.mp late) request before
    (Prog.wp_mono (fun result state after => ?_) rest)
  cases result with
  | ok _ =>
      obtain ⟨later, isSome, _⟩ := StillSuspended.suspended after
      exact ⟨later, isSome⟩
  | error e =>
      obtain ⟨later, isSome, _⟩ :=
        StillSuspended.suspended (after.2 () (state.1, _ :: state.2) ⟨⟨trivial, rfl⟩, rfl⟩)
      exact ⟨later, isSome⟩

/-- A request dated before the deadline, whatever it says, leaves the suspension standing. -/
theorem suspensionHolds_of_early (inc : Incoming) (isJoin : inc.msgType = MsgType.groupJoin)
    (suspended : v.suspendedUntil group inc.from = some deadline)
      (early : inc.clientTs < deadline) :
    SuspensionHolds ctx inc group deadline v := by
  refine Prog.wp_free_iff.mp ?_
  unfold processFrame
  rw [processOne_join inc isJoin, Prog.bind_eq, Prog.wp_bind, Prog.wp_attempt, Prog.wp_bind]
  have fails : ∀ (e : String) state, Kept group v state →
      wpBefore deadline (fun _ => StillSuspended group inc.from deadline v)
        (emit (.error "decrypt_failed" e)) state :=
    fun e state kept => Prog.wp_mono (fun _ _ after => after.stillSuspended suspended)
      (calls_kept (calls_emit _) kept)
  have decrypted : wpBefore deadline (fun _ => Kept group v)
      (obtainOlmPlaintext inc.from inc.payload) (v, []) :=
    obtainOlmPlaintext_kept inc.from inc.payload kept_start
  refine Prog.wp_mono (fun result state kept => ?_) decrypted
  cases result with
  | error e => exact fails e state kept
  | ok plaintext =>
      refine Prog.wp_mono (fun result state after => ?_)
        (handleJoinRequest_kept suspended early plaintext kept)
      cases result with
      | ok _ => exact after.stillSuspended suspended
      | error e => exact fails e state after

/-- **A suspension stands against a join request exactly while the request is dated before the
deadline**: the time that decides is the sender's. -/
theorem suspensionHolds_iff (inc : Incoming) (isJoin : inc.msgType = MsgType.groupJoin)
    {row : GroupMeta} (owned : v.getGroupMeta group = some row) (mine : row.owner = ctx.me)
    (named : ctx.me ≠ "") (suspended : v.suspendedUntil group inc.from = some deadline)
    (carries : CarriesRequest inc group row.groupKey deadline v) :
    SuspensionHolds ctx inc group deadline v ↔ inc.clientTs < deadline :=
  ⟨early_of_suspensionHolds inc isJoin owned mine named suspended carries,
    suspensionHolds_of_early inc isJoin suspended⟩

end

namespace Ideal

/-- Alice's group and Bob, whom she has suspended until 1000. -/
def bobSuspended : Vault :=
  (((Vault.empty.saveOlm "bob" ⟨7, false, publicKey 2 1, publicKey 2 2, publicKey 3 100, none, true,
    []⟩).upsertGroupMeta "g1" "ABCDEFGH" "open" "alice").suspendUser "g1" "bob" 1000)

def bobMessage : Message where
  preKey := false
  sid := 7
  fromOpener := true
  identity := publicKey 2 2
  otk := publicKey 3 100
  place := (7, 0)
  plaintext := toVec (JoinRequest.mk "g1" "ABCDEFGH").toJson

/-- Bob's join request with the right key, dated as he likes. -/
def bobRequest (clientTs : Int) : Incoming :=
  ⟨"bob", MsgType.groupJoin, encodeOlm (toParts bobMessage).1 (toParts bobMessage).2, none,
    clientTs⟩

theorem bobRequest_carries (clientTs : Int) :
    CarriesRequest (bobRequest clientTs) "g1" "ABCDEFGH" 1000 bobSuspended :=
  ⟨_, _, obtainOlmPlaintext_held rfl rfl, JoinRequest.fromSlice_toVec ⟨"g1", "ABCDEFGH"⟩⟩

/-- Dated 999, Bob's request changes nothing. -/
theorem bob_early_refused :
    SuspensionHolds ⟨"alice", "relay"⟩ (bobRequest 999) "g1" 1000 bobSuspended ↔
    (999 : Int) < 1000 :=
  suspensionHolds_iff (bobRequest 999) rfl rfl rfl (by decide) rfl (bobRequest_carries 999)

/-- Dated 1000, it ends the suspension, however early Alice's clock is. -/
theorem bob_late_unsuspended :
    ¬ ∀ (ctx : ProcCtx) (inc : Incoming) (v : Vault) (group : String) (row : GroupMeta)
      (deadline : Int), inc.msgType = MsgType.groupJoin → v.getGroupMeta group = some row →
      row.owner = ctx.me → ctx.me ≠ "" → v.suspendedUntil group inc.from = some deadline →
      CarriesRequest inc group row.groupKey deadline v →
      SuspensionHolds ctx inc group deadline v := by
  intro law
  have holds := law ⟨"alice", "relay"⟩ (bobRequest 1000) bobSuspended "g1"
      ⟨"ABCDEFGH", "open", "alice"⟩
    1000 rfl rfl rfl (by decide) rfl (bobRequest_carries 1000)
  have early := early_of_suspensionHolds (bobRequest 1000) rfl rfl
    rfl (by decide) rfl (bobRequest_carries 1000) holds
  exact absurd early (by decide)

end Ideal

end Cherm
