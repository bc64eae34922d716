/-
**Megolm frames take effect once.**

Three kinds of frames are read with a sender's group session: messages, leave notices and events.
Whatever the relay claims them to be, in whatever order and however often, a place in a session has
one effect at most, and the effects of a session come in the order of its places.

* `MegolmKey`: the group, the sender, the session and the place in it, as the vault at hand reads
  them.
* `Effect` is what a frame may do; the three handlers are `readEffect` and then `Effect.apply`.
* `Recorded`: the replay guard knows of a place; requests keep it while the group is not deleted.
* `effects_in_order` is the result, for every history of frames.
-/

import Cherm.Client.FrameAsks
import Cherm.Lib.Handler
import Cherm.Ideal

namespace Cherm

open Crates Client

/-- A place in a group session of a sender. -/
structure MegolmKey where
  groupId : String
  sender : String
  sessionId : String
  index : Nat
deriving DecidableEq

/-- Two places of one session. -/
def MegolmKey.SameSession (key key' : MegolmKey) : Prop :=
  key.groupId = key'.groupId ∧ key.sender = key'.sender ∧ key.sessionId = key'.sessionId

section

variable [Crates]

/-! ### What a frame may do -/

/-- What a frame may do: a message row, a leave with its notice, or an event of the owner. -/
inductive Effect where
  | message (groupId sender text : String) (ts : Int)
  | left (groupId sender : String) (ts : Int)
  | event (groupId : String) (said : GroupEvent) (ts : Int)

def Effect.apply (ctx : ProcCtx) : Effect → Client Unit
  | .message groupId sender text ts => do
      insertMessage groupId sender text ts false
      emit (.message groupId sender text ts false false)
  | .left groupId sender ts => do
      call (.removeMember groupId sender)
      deliverSystem groupId sender ts
  | .event groupId said ts => do
      if ← applyGroupEvent ctx groupId said ts then return ()
      emitGroupEvent groupId said.kind said.who (said.mode.getD "") ts
      emitChats ctx.addr

/-- What is done about what was read, if anything. -/
def Effect.applyTo (ctx : ProcCtx) : Option Effect → Client Unit
  | none => return ()
  | some effect => effect.apply ctx

/-- Read a frame: `meaning` says what the content asks for, before and after the replay guard. -/
def readEffect (sender groupId payload : String) (early : Bytes → Bool)
    (meaning : Bytes → Client (Option Effect)) : Client (Option Effect) := do
  match ← openMegolm groupId sender payload with
  | none => return none
  | some (plaintext, idx, receiver) =>
      if early plaintext then return none
      if !(← acceptMegolm groupId sender idx receiver) then return none
      meaning plaintext

/-- A message is any text. -/
def messageMeaning (sender groupId : String) (ts : Int) (plaintext : Bytes) :
    Client (Option Effect) := do
  let text ← okOr (fromUtf8 plaintext) (utf8Error plaintext)
  return some (.message groupId sender text ts)

/-- An event counts if its sender is the recorded owner. -/
def eventMeaning (sender groupId : String) (ts : Int) (plaintext : Bytes) :
    Client (Option Effect) := do
  let row ← call (.getGroupMeta groupId)
  let ownerOk := row.elim false fun row => !row.owner.isEmpty && row.owner = sender
  if !ownerOk then return none
  let event ← lift (GroupEvent.fromSlice plaintext)
  return some (Effect.event groupId event ts)

/-- The effect of a frame of one of the three kinds. -/
def frameEffect (inc : Incoming) (groupId : String) : Client (Option Effect) :=
  match inc.msgType with
  | "megolm" => readEffect inc.from groupId inc.payload (fun _ => false)
      (messageMeaning inc.from groupId inc.clientTs)
  | "megolm_system" => readEffect inc.from groupId inc.payload
      (fun plaintext => plaintext ≠ leftSentinel)
      fun _ => return some (.left groupId inc.from inc.clientTs)
  | "group_event" => readEffect inc.from groupId inc.payload (fun _ => false)
      (eventMeaning inc.from groupId inc.clientTs)
  | _ => return none

theorem processMegolm_eq (ctx : ProcCtx) (sender groupId payload : String) (ts : Int) :
    processMegolm sender groupId payload ts =
      (readEffect sender groupId payload (fun _ => false) (messageMeaning sender groupId ts)).bind
        (Effect.applyTo ctx) := by
  unfold processMegolm readEffect
  rw [Prog.bind_eq, Prog.bind_eq, Prog.bind_assoc]
  refine congrArg _ (funext fun opened => ?_)
  rcases opened with _ | ⟨plaintext, idx, receiver⟩
  · rfl
  · simp only [Bool.false_eq_true, if_false, Prog.bind_eq, Prog.bind_assoc]
    refine congrArg _ (funext fun fresh => ?_)
    cases fresh with
    | false => rfl
    | true =>
        simp only [messageMeaning, Bool.not_true, Bool.false_eq_true, if_false, Prog.bind_eq,
          Prog.bind_assoc]
        rfl

theorem processMegolmSystem_eq (ctx : ProcCtx) (sender groupId payload : String) (ts : Int) :
    processMegolmSystem sender groupId payload ts =
      (readEffect sender groupId payload (fun plaintext => plaintext ≠ leftSentinel)
        fun _ => return some (.left groupId sender ts)).bind (Effect.applyTo ctx) := by
  unfold processMegolmSystem readEffect
  simp only [Prog.bind_eq, Prog.bind_assoc]
  refine congrArg _ (funext fun opened => ?_)
  rcases opened with _ | ⟨plaintext, idx, receiver⟩
  · rfl
  · dsimp only
    by_cases isLeft : plaintext = leftSentinel
    · rw [if_neg (not_not.mpr isLeft), if_neg (by simp [isLeft]), Prog.bind_assoc]
      refine congrArg _ (funext fun fresh => ?_)
      cases fresh <;> rfl
    · rw [if_pos isLeft, if_pos (by simp [isLeft])]
      rfl

theorem processGroupEvent_eq (ctx : ProcCtx) (sender groupId payload : String) (ts : Int) :
    processGroupEvent ctx sender groupId payload ts =
      (readEffect sender groupId payload (fun _ => false) (eventMeaning sender groupId ts)).bind
        (Effect.applyTo ctx) := by
  unfold processGroupEvent readEffect
  rw [Prog.bind_eq, Prog.bind_eq, Prog.bind_assoc]
  refine congrArg _ (funext fun opened => ?_)
  rcases opened with _ | ⟨plaintext, idx, receiver⟩
  · rfl
  · simp only [Bool.false_eq_true, if_false, Prog.bind_eq, Prog.bind_assoc]
    refine congrArg _ (funext fun fresh => ?_)
    cases fresh with
    | false => rfl
    | true =>
        simp only [eventMeaning, Bool.not_true, Bool.false_eq_true, if_false, Prog.bind_eq,
          Prog.bind_assoc]
        refine congrArg _ (funext fun row => ?_)
        split
        · rfl
        · rw [Prog.bind_assoc]
          rfl

/-! ### The replay guard -/

/-- The guard has let the place pass, or a later one of the session. -/
def Recorded (key : MegolmKey) (v : Vault) : Prop :=
  ∃ max, v.megolmSeen.get (key.groupId, key.sender, key.sessionId) = some max ∧ key.index ≤ max

/-- The guard has let no place of the session pass from this one on. -/
def Fresh (key : MegolmKey) (v : Vault) : Prop :=
  ∀ max, v.megolmSeen.get (key.groupId, key.sender, key.sessionId) = some max → max < key.index

/-- The place of a frame in the session it is read with. -/
def Incoming.key (inc : Incoming) (v : Vault) : Option MegolmKey := do
  let groupId ← inc.groupId
  let receiver ← v.loadGroupIn groupId inc.from
  let body ← (b64Decode inc.payload).toOption
  let (_, idx, receiver) ← (receiver.decrypt body).toOption
  return ⟨groupId, inc.from, receiver.sessionId, idx⟩

theorem Recorded.before_fresh {key key' : MegolmKey} {v : Vault} (recorded : Recorded key v)
    (fresh : Fresh key' v) (same : key.SameSession key') : key.index < key'.index := by
  obtain ⟨max, found, reached⟩ := recorded
  obtain ⟨group, sender, session⟩ := same
  refine Nat.lt_of_le_of_lt reached (fresh max ?_)
  rw [← group, ← sender, ← session]
  exact found

theorem megolmAccept_fresh {v : Vault} {groupId sender sessionId : String} {index : Nat}
    (passes : (v.megolmAccept groupId sender sessionId index).1 = true) :
    Fresh ⟨groupId, sender, sessionId, index⟩ v := by
  intro max found
  have found : v.megolmSeen.get (groupId, sender, sessionId) = some max := found
  unfold Vault.megolmAccept at passes
  simp only [found] at passes
  split at passes
  · cases passes
  · next above => exact Nat.lt_of_not_le above

theorem megolmAccept_recorded {v : Vault} {groupId sender sessionId : String} {index : Nat}
    (passes : (v.megolmAccept groupId sender sessionId index).1 = true) :
    Recorded ⟨groupId, sender, sessionId, index⟩ (v.megolmAccept groupId sender sessionId
    index).2 := by
  unfold Vault.megolmAccept at passes ⊢
  split
  · next max found =>
    simp only [found] at passes
    split
    · next below =>
      rw [if_pos below] at passes
      cases passes
    · exact ⟨index, by simp, Nat.le_refl _⟩
  · exact ⟨index, by simp, Nat.le_refl _⟩

/-- Another frame's passing keeps what is recorded. -/
theorem Recorded.megolmAccept {key : MegolmKey} {v : Vault} (recorded : Recorded key v)
    (groupId sender sessionId : String) (index : Nat) :
    Recorded key (v.megolmAccept groupId sender sessionId index).2 := by
  obtain ⟨max, found, reached⟩ := recorded
  by_cases same : (key.groupId, key.sender, key.sessionId) = (groupId, sender, sessionId)
  · obtain ⟨rfl, rfl, rfl⟩ : key.groupId = groupId ∧ key.sender = sender ∧
      key.sessionId = sessionId := by
      simpa using same
    unfold Vault.megolmAccept
    simp only [found]
    split
    · exact ⟨max, found, reached⟩
    · next above => exact ⟨index, by simp, by omega⟩
  · refine ⟨max, ?_, reached⟩
    unfold Vault.megolmAccept
    split
    · split
      · exact found
      · rw [Table.get_put, if_neg same]
        exact found
    · rw [Table.get_put, if_neg same]
      exact found

/-- What is recorded stays so until the group is deleted. -/
theorem Recorded.exec {key : MegolmKey} {v : Vault} (recorded : Recorded key v) (op : VaultOp)
    (alive : op ≠ .deleteChat key.groupId) : Recorded key (op.exec v).2 := by
  by_cases writes : op.Writes .megolmSeen key.groupId
  · cases op with
    | megolmAccept groupId sender sessionId index => exact recorded.megolmAccept ..
    | deleteChat chatId =>
        obtain ⟨_, rfl⟩ := writes
        exact absurd rfl alive
    | _ => simp [VaultOp.Writes] at writes
  · have same : (fun u => (op.exec v).2.megolmSeen.get (key.groupId, u)) =
        fun u => v.megolmSeen.get (key.groupId, u) := op.exec_frame v .megolmSeen key.groupId writes
    obtain ⟨max, found, reached⟩ := recorded
    exact ⟨max, (congrFun same (key.sender, key.sessionId)).trans found, reached⟩

theorem Recorded.runs {α : Type} {key : MegolmKey} {prog : Client α} {s s' : Vault × List Ask}
    {result : Except String α} (runs : Prog.Runs (Prog.logged Ask.effect) prog s result s')
    (alive : .call (.deleteChat key.groupId) ∉ s'.2) (recorded : Recorded key s.1) :
      Recorded key s'.1 := by
  induction runs with
  | done value s => exact recorded
  | fail error s => exact recorded
  | @ask request next s₀ s₁ s₂ answer result made rest ih =>
      refine ih alive ?_
      have logged : request ∈ s₂.2 := rest.mem_log (made.2 ▸ List.mem_cons_self)
      cases request with
      | call op =>
          obtain ⟨_, after⟩ := Prod.mk.inj (made.1 : (answer, s₁.1) = op.exec s₀.1)
          rw [after]
          exact recorded.exec op fun deletes => alive (deletes ▸ logged)
      | _ =>
          rw [made.1.2]
          exact recorded

/-! ### Reading a frame -/

/-- The parts that reading a frame writes. -/
def sessionParts : List VaultPart := [.groupIn, .megolmSeen]

/-- The request writes more than sessions. -/
def Effective (asked : Ask) : Prop :=
  ∃ op part id, asked = .call op ∧ op.Writes part id ∧ part ∉ sessionParts

/-- Two vaults differ in sessions only. -/
def SameButSessions (v v' : Vault) : Prop := ∀ part ∉ sessionParts, ∀ id, part.SameAt id v v'

/-- The requests of reading a frame. -/
abbrev Reading : Ask → Prop :=
  Ask.May (fun part _ => part ∈ sessionParts) (fun _ _ => False) fun _ => False

theorem reading_not_effective {asked : Ask} (reading : Reading asked) : ¬ Effective asked := by
  rintro ⟨op, part, id, rfl, writes, outside⟩
  exact outside (reading.1 part id writes)

variable {ctx : ProcCtx}

theorem calls_readEffect (sender groupId payload : String) (early : Bytes → Bool)
    {meaning : Bytes → Client (Option Effect)}
    (reads : ∀ plaintext, Prog.Calls Reading (meaning plaintext)) :
    Prog.Calls Reading (readEffect sender groupId payload early meaning) := by
  refine (calls_openMegolm _ _ _).bind fun opened => ?_
  rcases opened with _ | ⟨plaintext, idx, receiver⟩
  · trivial
  · dsimp only
    split
    · trivial
    · refine (calls_acceptMegolm (by decide) (by decide) _ _ _).bind fun fresh => ?_
      cases fresh with
      | false => trivial
      | true => exact reads plaintext

theorem calls_messageMeaning (sender groupId : String) (ts : Int) (plaintext : Bytes) :
    Prog.Calls Reading (messageMeaning sender groupId ts plaintext) :=
  (calls_okOr _ _).bind fun _ => trivial

theorem calls_eventMeaning (sender groupId : String) (ts : Int) (plaintext : Bytes) :
    Prog.Calls Reading (eventMeaning sender groupId ts plaintext) := by
  refine (calls_read fun _ _ => id).bind fun row => ?_
  dsimp only
  split
  · trivial
  · exact (calls_lift _).bind fun _ => trivial

theorem calls_frameEffect (inc : Incoming) (groupId : String) :
    Prog.Calls Reading (frameEffect inc groupId) := by
  unfold frameEffect
  split
  · exact calls_readEffect _ _ _ _ fun _ => calls_messageMeaning _ _ _ _
  · exact calls_readEffect _ _ _ _ fun _ => trivial
  · exact calls_readEffect _ _ _ _ fun _ => calls_eventMeaning _ _ _ _
  · trivial

/-- What is read leaves everything but sessions alone. -/
theorem sameButSessions_runs {α : Type} {prog : Client α} (calls : Prog.Calls Reading prog)
    {v v' : Vault}
    {result : Except String α} (runs : Prog.Runs Ask.effect prog v result v') :
    SameButSessions v v' := by
  have same : Prog.wp (Ask.spec (fun _ _ => True) fun _ _ => True) (fun _ => SameButSessions v)
      prog v := by
    refine calls.wp (fun _ _ _ _ => trivial) (fun asked s answer s' reading before made => ?_)
      fun part _ id => part.sameAt_refl id v
    exact fun part outside id => (before part outside id).trans (reading.frame outside made)
  exact runs.ends same

/-- Reading deletes no group. -/
theorem wp_reading {α : Type} {prog : Client α} (calls : Prog.Calls Reading prog) {key : MegolmKey}
    {v : Vault}
    (recorded : Recorded key v) :
    Prog.wp (Ask.spec (fun _ _ => True) fun _ _ => True) (fun _ => Recorded key) prog v := by
  refine calls.wp (fun _ _ _ _ => trivial) (fun asked s answer s' reading before made =>
    ?_) recorded
  cases asked with
  | call op =>
      obtain ⟨_, rfl⟩ := Prod.mk.inj (made : (answer, s') = op.exec s)
      refine before.exec op fun deletes => ?_
      subst deletes
      have chats : VaultPart.chats ∈ sessionParts := reading.1 .chats key.groupId ⟨by decide, rfl⟩
      exact absurd chats (by decide)
  | _ =>
      rw [made.2]
      exact before

/-- **Reading a frame that has an effect**: its place is one that the guard had not let pass, and
has now recorded. -/
theorem readEffect_runs {inc : Incoming} {groupId : String} {early : Bytes → Bool}
    {meaning : Bytes → Client (Option Effect)} {v v' : Vault} {effect : Effect}
    (ofGroup : inc.groupId = some groupId)
    (reads : ∀ plaintext, Prog.Calls Reading (meaning plaintext))
    (runs : Prog.Runs Ask.effect (readEffect inc.from groupId inc.payload early meaning) v
      (.ok (some effect)) v') :
    ∃ key, inc.key v = some key ∧ key.groupId = groupId ∧ Fresh key v ∧ Recorded key v' := by
  have opened : Prog.wp (Ask.spec (fun _ _ => True) fun _ _ => True)
      (fun result v' => result = .ok (some effect) →
        ∃ key, inc.key v = some key ∧ key.groupId = groupId ∧ Fresh key v ∧ Recorded key v')
      (readEffect inc.from groupId inc.payload early meaning) v := by
    refine (wp_call _ _ v).mpr ⟨trivial, ?_⟩
    simp only [VaultOp.exec, Prog.done_bind]
    cases held : v.loadGroupIn groupId inc.from with
    | none => exact (wp_world _ _).mpr ⟨trivial, fun _ _ other => by cases other⟩
    | some receiver =>
        simp only [lift_eq, Prog.bind_eq]
        cases decoded : b64Decode inc.payload with
        | error e => exact fun other => by cases other
        | ok body =>
            simp only [Prog.ofExcept_ok, Prog.done_bind]
            cases decrypted : receiver.decrypt body with
            | error e => exact fun other => by cases other
            | ok parts =>
                obtain ⟨plaintext, idx, advanced⟩ := parts
                simp only [Prog.ofExcept_ok, Prog.done_bind]
                show Prog.wp _ _ (if early plaintext = true then _ else _) v
                split
                · exact fun other => by cases other
                · refine (wp_call _ _ v).mpr ⟨trivial, ?_⟩
                  show Prog.wp _ _ (Prog.bind (if (v.megolmAccept groupId
                    inc.from advanced.sessionId idx).1 =
                    true then _ else _) _) _
                  split
                  · next passes =>
                    refine (wp_call _ _ _).mpr ⟨trivial, ?_⟩
                    have recorded := megolmAccept_recorded passes
                    refine Prog.wp_mono (fun result v' after _ => ?_) (wp_reading (reads plaintext)
                      (recorded.exec (.saveGroupIn groupId inc.from advanced)
                        fun forgets => by cases forgets))
                    refine ⟨_, ?_, rfl, megolmAccept_fresh passes, after⟩
                    simp [Incoming.key, ofGroup, held, decoded, decrypted, Except.toOption]
                  · exact fun other => by cases other
  exact runs.ends opened rfl

/-! ### One round -/

/-- The frame claims to be of a kind that is read with a group session. -/
def Incoming.OfSession (inc : Incoming) : Prop :=
  inc.msgType ∈ [MsgType.megolm, MsgType.megolmSystem, MsgType.groupEvent]

theorem processOne_eq (ctx : ProcCtx) {inc : Incoming} (ofSession : inc.OfSession) : ∃ missing,
    processOne ctx inc = (frameGroup inc missing).bind fun groupId =>
      (frameEffect inc groupId).bind (Effect.applyTo ctx) := by
  obtain ⟨sender, msgType, payload, groupId, ts⟩ := inc
  simp only [Incoming.OfSession, List.mem_cons, List.not_mem_nil, or_false] at ofSession
  rcases ofSession with rfl | rfl | rfl
  · exact ⟨_, congrArg _ (funext fun groupId => processMegolm_eq ctx sender groupId payload ts)⟩
  · exact ⟨_, congrArg _ (funext fun groupId => processMegolmSystem_eq ctx sender groupId
      payload ts)⟩
  · exact ⟨_, congrArg _ (funext fun groupId => processGroupEvent_eq ctx sender groupId payload ts)⟩

theorem frameEffect_runs {inc : Incoming} {groupId : String} {v v' : Vault} {effect : Effect}
    (ofGroup : inc.groupId = some groupId)
    (runs : Prog.Runs Ask.effect (frameEffect inc groupId) v (.ok (some effect)) v') :
    ∃ key, inc.key v = some key ∧ key.groupId = groupId ∧ Fresh key v ∧ Recorded key v' := by
  unfold frameEffect at runs
  split at runs
  · exact readEffect_runs ofGroup (fun _ => calls_messageMeaning _ _ _ _) runs
  · refine readEffect_runs ofGroup (fun _ => ?_) runs
    trivial
  · exact readEffect_runs ofGroup (fun _ => calls_eventMeaning _ _ _ _) runs
  · cases runs

/-- An effect, once begun, is brought to its end. -/
theorem apply_total (effect : Effect) : (effect.apply ctx).Total := by
  have emits : ∀ event, (emit event).Total := fun _ _ => trivial
  have one : ∀ op, (call op).Total := fun _ _ => trivial
  have chats : (emitChats ctx.addr).Total := (one _).bind fun _ => emits _
  have line : ∀ chat text ts, (emitSystem chat text ts).Total := fun chat text ts =>
    Prog.Total.bind (fun _ => one _) fun _ => emits _
  have drops : ∀ groupId event ts, (dropMember groupId event ts).Total := by
    intro groupId event ts
    refine (one _).bind fun _ => (one _).bind fun _ => ?_
    split
    · exact one _
    · split
      · exact one _
      · trivial
    · trivial
  cases effect with
  | message groupId sender text ts => exact Prog.Total.bind (fun _ => one _) fun _ => emits _
  | left groupId sender ts => exact (one _).bind fun _ => line _ _ _
  | event groupId said ts =>
      have aimed : Prog.Total (do
          if said.who = ctx.me then
            if said.kind = "suspended" then
              emit (.info "you were suspended from a group")
              return false
            call (.deleteChat groupId)
            emitChats ctx.addr
            emit (.info ("you were " ++ said.kind ++ " from a group"))
            return true
          dropMember groupId said ts
          return false : Client Bool) := by
        split
        · split
          · exact (emits _).bind fun _ => trivial
          · exact (one _).bind fun _ => chats.bind fun _ => (emits _).bind fun _ => trivial
        · exact (drops _ _ _).bind fun _ => trivial
      have applies : (applyGroupEvent ctx groupId said ts).Total := by
        unfold applyGroupEvent
        split
        · exact (one _).bind fun _ => (one _).bind fun _ => (one _).bind fun _ => trivial
        · exact aimed
        · exact aimed
        · exact aimed
        · split
          · dsimp only
            split
            · exact (one _).bind fun _ => trivial
            · trivial
          · trivial
        · trivial
      refine applies.bind fun gone => ?_
      cases gone with
      | true => trivial
      | false =>
          refine Prog.Total.bind ?_ fun _ => chats
          unfold emitGroupEvent
          split
          · exact line _ _ _
          · trivial

/-- A frame worked off: the vault before and after, and the requests made, the latest first. -/
structure Round where
  inc : Incoming
  before : Vault
  log : List Ask
  after : Vault

def Round.Runs (ctx : ProcCtx) (r : Round) : Prop :=
  ∃ result, Prog.Runs (Prog.logged Ask.effect) (processFrame ctx r.inc) (r.before, []) result
    (r.after, r.log)

/-- More than sessions is written. -/
def Round.TakesEffect (r : Round) : Prop := ∃ asked ∈ r.log, Effective asked

/-- The round reads its frame, and then does this and nothing else. -/
def Round.Does (ctx : ProcCtx) (r : Round) (effect : Effect) : Prop :=
  ∃ mid read, (∀ asked ∈ read, ¬ Effective asked) ∧ SameButSessions r.before mid ∧
    Prog.Runs (Prog.logged Ask.effect) (effect.apply ctx) (mid, read) (.ok ()) (r.after, r.log)

/-- **One round** that has an effect has one effect, at a fresh place of the session. -/
theorem round_effect {r : Round} (runs : r.Runs ctx) (ofSession : r.inc.OfSession)
    (takes : r.TakesEffect) :
    ∃ key effect, r.inc.key r.before = some key ∧ Fresh key r.before ∧
      (.call (.deleteChat key.groupId) ∉ r.log → Recorded key r.after) ∧ r.Does ctx effect := by
  obtain ⟨inc, before, log, after⟩ := r
  obtain ⟨result, runs⟩ := runs
  obtain ⟨asked, made, effective⟩ := takes
  dsimp only at *
  rw [processFrame_eq] at runs
  -- what follows the frame itself is an error event at most
  have ends : ∀ {outcome : Except String Unit} {v v' : Vault} {read log : List Ask},
      (∀ asked ∈ read, ¬ Effective asked) →
      Prog.Runs (Prog.logged Ask.effect) (roundEnd outcome) (v, read) result (v', log) →
      ∀ asked ∈ log, ¬ Effective asked := by
    intro outcome v v' read log noneRead second asked member
    have calls : Prog.Calls Reading (roundEnd outcome) := by
      cases outcome with
      | ok _ => trivial
      | error e => exact calls_emit _
    obtain ⟨front, rfl, all⟩ := calls.writes second
    rcases List.mem_append.mp member with late | early
    · exact reading_not_effective (all asked late)
    · exact noneRead asked early
  rcases Prog.runs_bind runs with ⟨e, _, first⟩ | ⟨outcome, ⟨v, read⟩, first, second⟩
  · obtain ⟨inner, same, _⟩ := Prog.runs_attempt first
    cases same
  obtain ⟨inner, same, first⟩ := Prog.runs_attempt first
  obtain rfl := Except.ok.inj same
  obtain ⟨missing, decomposed⟩ := processOne_eq ctx ofSession
  rw [decomposed] at first
  unfold frameGroup at first
  cases ofGroup : inc.groupId with
  | none =>
      rw [ofGroup] at first
      obtain ⟨rfl, rfl⟩ : read = [] ∧ v = before := by
        cases (first : Prog.Runs _ (Prog.fail missing : Client Unit) _ _ _)
        exact ⟨rfl, rfl⟩
      exact absurd effective (ends (by nofun) second asked made)
  | some groupId =>
      rw [ofGroup] at first
      have first : Prog.Runs (Prog.logged Ask.effect)
          ((frameEffect inc groupId).bind (Effect.applyTo ctx)) (before, []) outcome
            (v, read) := first
      rcases Prog.runs_bind first with
        ⟨e, rfl, reading⟩ | ⟨value, ⟨mid, early⟩, reading, acting⟩
      · obtain ⟨front, rfl, all⟩ := (calls_frameEffect inc groupId).writes reading
        have noneRead : ∀ asked ∈ front ++ [], ¬ Effective asked := fun asked member =>
          reading_not_effective (all asked ((List.append_nil front) ▸ member))
        exact absurd effective (ends noneRead second asked made)
      · obtain ⟨front, rfl, all⟩ := (calls_frameEffect inc groupId).writes reading
        have noneRead : ∀ asked ∈ front ++ [], ¬ Effective asked := fun asked member =>
          reading_not_effective (all asked ((List.append_nil front) ▸ member))
        cases value with
        | none =>
            cases (acting : Prog.Runs _ (Prog.done () : Client Unit) _ _ _)
            exact absurd effective (ends noneRead second asked made)
        | some effect =>
            obtain ⟨_, rfl⟩ := (apply_total effect).runs acting
            cases (second : Prog.Runs _ (Prog.done () : Client Unit) _ _ _)
            obtain ⟨key, found, ofKey, fresh, recorded⟩ := frameEffect_runs ofGroup reading.unlogged
            refine ⟨key, effect, found, fresh, fun alive => ?_, mid, front ++
              [], noneRead, ?_, acting⟩
            · exact Recorded.runs acting alive recorded
            · exact sameButSessions_runs (calls_frameEffect inc groupId) reading.unlogged

/-! ### Every history -/

/-- Frames worked off one after the other. -/
inductive FrameHistory (ctx : ProcCtx) (start : Vault) : List Round → Vault → Prop where
  | none : FrameHistory ctx start [] start
  | next {rounds : List Round} {r : Round} (earlier : FrameHistory ctx start rounds r.before)
      (runs : r.Runs ctx) : FrameHistory ctx start (rounds ++ [r]) r.after

/-- A round with an effect, at this place of a session. -/
structure Round.EffectAt (r : Round) (key : MegolmKey) : Prop where
  ofSession : r.inc.OfSession
  takes : r.TakesEffect
  place : r.inc.key r.before = some key

/-- Each round has one effect at most; those of a session of the group come in the order of their
places, so that each place has one at most. -/
structure EffectsInOrder (ctx : ProcCtx) (g : String) (rounds : List Round) : Prop where
  one : ∀ r ∈ rounds, r.inc.OfSession → r.TakesEffect → ∃ key effect, r.EffectAt key ∧
  r.Does ctx effect
  ordered : rounds.Pairwise fun first second => ∀ key key', first.EffectAt key →
  second.EffectAt key' →
    key.groupId = g → key.SameSession key' → key.index < key'.index

theorem Round.EffectAt.fresh {r : Round} {key : MegolmKey} (effect : r.EffectAt key)
    (runs : r.Runs ctx) :
    Fresh key r.before ∧ (.call (.deleteChat key.groupId) ∉ r.log → Recorded key r.after) := by
  obtain ⟨key', _, place, fresh, recorded, _⟩ := round_effect runs effect.ofSession effect.takes
  obtain rfl := Option.some.inj (effect.place.symm.trans place)
  exact ⟨fresh, recorded⟩

/-- The guard knows of the places that had an effect. -/
theorem FrameHistory.recorded {g : String} {start v : Vault} {rounds : List Round}
    (history : FrameHistory ctx start rounds v) (alive :
      ∀ r ∈ rounds, .call (.deleteChat g) ∉ r.log) :
    ∀ r ∈ rounds, ∀ key, r.EffectAt key → key.groupId = g → Recorded key v := by
  induction history with
  | none => exact nofun
  | @next rounds last earlier runs ih =>
      intro r member key effect ofGroup
      subst ofGroup
      have lastAlive : .call (.deleteChat key.groupId) ∉ last.log := alive last (by simp)
      rcases List.mem_append.mp member with before | here
      · obtain ⟨result, runs⟩ := runs
        have recorded := ih (fun r member => alive r (List.mem_append_left _ member)) r before key
            effect rfl
        exact Recorded.runs runs lastAlive recorded
      · obtain rfl := List.mem_singleton.mp here
        exact (effect.fresh runs).2 lastAlive

/-- **Megolm frames take effect at most once.** In every history of frames in which the group is not
deleted, unless by the last one: a frame of the three kinds has one effect at most, whatever its
kind is said to be, and the effects of each session of the group are in the order of their places.
-/
theorem effects_in_order (ctx : ProcCtx) (g : String) {start v : Vault} {rounds : List Round}
    (history : FrameHistory ctx start rounds v)
    (alive : ∀ r ∈ rounds.dropLast, .call (.deleteChat g) ∉ r.log) :
      EffectsInOrder ctx g rounds := by
  induction history with
  | none => exact ⟨nofun, .nil⟩
  | @next rounds last earlier runs ih =>
      rw [List.dropLast_concat] at alive
      have before := ih fun r member => alive r (List.dropLast_subset _ member)
      refine ⟨fun r member ofSession takes => ?_, ?_⟩
      · rcases List.mem_append.mp member with earlier | here
        · exact before.one r earlier ofSession takes
        · obtain rfl := List.mem_singleton.mp here
          obtain ⟨key, effect, place, _, _, does⟩ := round_effect runs ofSession takes
          exact ⟨key, effect, ⟨ofSession, takes, place⟩, does⟩
      · refine List.pairwise_append.mpr ⟨before.ordered, List.pairwise_singleton _ _, ?_⟩
        intro r member r' here key key' effect effect' ofGroup same
        obtain rfl := List.mem_singleton.mp here
        exact (earlier.recorded alive r member key effect ofGroup).before_fresh
          (effect'.fresh runs).1 same

end

namespace Ideal

/-- The machine that writes its requests down. -/
def playLogged : Prog.Machine (Vault × List Ask) Ask Ask.Answer := fun asked s =>
  ((Ask.play world asked s.1).1, ((Ask.play world asked s.1).2, asked :: s.2))

/-- Alice works a frame off, in a world without a relay. -/
def played (inc : Incoming) (v : Vault) : Round where
  inc := inc
  before := v
  log := (Prog.run playLogged (processFrame ⟨"alice", "relay"⟩ inc) (v, [])).2.2
  after := (Prog.run playLogged (processFrame ⟨"alice", "relay"⟩ inc) (v, [])).2.1

theorem played_runs (inc : Incoming) (v : Vault) : (played inc v).Runs ⟨"alice", "relay"⟩ := by
  refine ⟨_, Prog.run_runs (fun asked s => ⟨?_, rfl⟩) _ _⟩
  exact Ask.play_conforms (fun _ => trivial) asked s.1

/-- A message deletes no group. -/
theorem played_message_alive {inc : Incoming} (isMessage : inc.msgType = "megolm") (v : Vault)
    (g : String) :
    .call (.deleteChat g) ∉ (played inc v).log := by
  have one : Prog.Calls (Ask.May (fun part _ => part ≠ .chats) (fun _ _ => False) fun _ => False)
      (processOne ⟨"alice", "relay"⟩ inc) := by
    unfold processOne
    rw [isMessage]
    exact (calls_okOr _ _).bind fun groupId =>
      calls_processMegolm (by decide) (by decide) (by decide) inc.from inc.payload inc.clientTs
  have calls : Prog.Calls (Ask.May (fun part _ => part ≠ .chats) (fun _ _ => False) fun _ => False)
      (processFrame ⟨"alice", "relay"⟩ inc) := by
    refine one.attempt.bind fun result => ?_
    cases result with
    | ok _ => trivial
    | error e => exact calls_emit _
  obtain ⟨result, runs⟩ := played_runs inc v
  obtain ⟨front, written, all⟩ := calls.writes runs
  rw [written, List.append_nil]
  exact fun member => (all _ member).1 .chats g ⟨by decide, rfl⟩ rfl

/-- Carol has shared a session of hers. -/
def carolKnown : Vault := Vault.empty.saveGroupIn "g1" "carol" (⟨5, 0⟩ : InboundGroupSession)

/-- What Carol writes at the first place of her session, whatever it is said to be. -/
def carolSays (msgType : String) : Incoming where
  «from» := "carol"
  msgType := msgType
  payload := b64Encode (groupEncrypt (⟨5, 0⟩ : GroupSession) (utf8 "left")).1
  groupId := some "g1"
  clientTs := 0

/-- Carol's words as a message, and once more as a leave notice. -/
def carolTwice : List Round :=
  let first := played (carolSays MsgType.megolm) carolKnown
  [first, played (carolSays MsgType.megolmSystem) first.after]

theorem carol_once : EffectsInOrder ⟨"alice", "relay"⟩ "g1" carolTwice := by
  have history : FrameHistory ⟨"alice", "relay"⟩ carolKnown carolTwice _ :=
    .next (.next .none (played_runs _ _)) (played_runs _ _)
  refine effects_in_order ⟨"alice", "relay"⟩ "g1" history fun r member => ?_
  obtain rfl := List.mem_singleton.mp member
  exact played_message_alive rfl _ _

end Ideal

end Cherm
