/-
**The order of messages and chats, under other timestamps.**

The messages of a chat are ordered by the time of their receipt, but the list of chats by the
largest timestamp of each, and a frame carries the one its sender chose. Two runs on the same
schedule, whose frames differ in their timestamps only, are compared.

* `JoinsAgree`: a suspension that a join request is judged by has run out at both timestamps, or at
  neither. `LinesAgree`: a line gets the same timestamp in both, or its chat has a newer one.
* `trusted_order`: under the first condition the messages of all chats are the same, in the same
  order; under both so is the list of chats.
* `Ideal.later_line_moves_chat`: one timestamp decides which chat comes first.
-/

import Cherm.Client.Retimed
import Cherm.Ideal
import Cherm.Lib.Team
import Cherm.VaultFrame

namespace Cherm

open Crates Client

/-- The largest of some timestamps, 0 without any. -/
def newest : List Int → Int
  | [] => 0
  | first :: rest => rest.foldl max first

theorem newest_concat {stamps : List Int} (spoken : stamps ≠ []) (ts : Int) :
    newest (stamps ++ [ts]) = max (newest stamps) ts := by
  cases stamps with
  | nil => exact absurd rfl spoken
  | cons first rest => exact List.foldl_concat ..

theorem le_newest {stamps : List Int} {ts : Int} (member : ts ∈ stamps) : ts ≤ newest stamps := by
  have above : ∀ (rest : List Int) (first : Int), first ≤ rest.foldl max first ∧
      ∀ ts ∈ rest, ts ≤ rest.foldl max first := by
    intro rest
    induction rest with
    | nil => exact fun first => ⟨Int.le_refl _, nofun⟩
    | cons second rest ih =>
        intro first
        obtain ⟨fromMax, others⟩ := ih (max first second)
        refine ⟨Int.le_trans (Int.le_max_left ..) fromMax, fun ts member => ?_⟩
        rcases List.mem_cons.mp member with rfl | later
        · exact Int.le_trans (Int.le_max_right ..) fromMax
        · exact others ts later
  cases stamps with
  | nil => cases member
  | cons first rest =>
      rcases List.mem_cons.mp member with rfl | later
      · exact (above rest ts).1
      · exact (above rest first).2 ts later

section

variable [Crates]

/-! ### Schedules -/

/-- The tasks of a client over one vault. A task that works off a join request is noted with the
timestamp that the request is judged by. -/
abbrev ClientTeam := Team (Option Int) Vault Ask Ask.Answer String

/-- A turn: a task begins with a command or a frame, makes its next request, or ends. -/
inductive ClientTurn where
  | command (task : Nat) (app : App) (command : Command)
  | frame (task : Nat) (ctx : ProcCtx) (inc : Incoming)
  | go (task : Nat) (world : (asked : Ask) → asked.Answer)
  | finish (task : Nat)

/-- The timestamp a join request is judged by. -/
def joinClock (inc : Incoming) : Option Int :=
  if inc.msgType = MsgType.groupJoin then some inc.clientTs else none

def ClientTurn.turn : ClientTurn → Team.Turn (Option Int) Vault Ask Ask.Answer String
  | .command task app issued => .start task none (runCommand app issued)
  | .frame task ctx inc => .start task (joinClock inc) (processFrame ctx inc)
  | .go task world => .go task (Ask.play world)
  | .finish task => .finish task

/-- The client after the turns of a schedule. -/
def clientRun (start : Vault) (turns : List ClientTurn) : ClientTeam :=
  Team.run (.idle start) (turns.map ClientTurn.turn)

/-- The same turn, but for the timestamp of a frame. -/
inductive ClientTurn.Alike : ClientTurn → ClientTurn → Prop where
  | same (turn : ClientTurn) : Alike turn turn
  | frame (task : Nat) (ctx : ProcCtx) (inc : Incoming) (ts' : Int) :
      Alike (.frame task ctx inc) (.frame task ctx { inc with clientTs := ts' })

/-- A schedule is a run of the client's tasks, interleaved in some way. -/
def scheduleCrew : Crew Nat Vault Ask Ask.Answer String Unit where
  act _ := Ask.effect
  begins _ prog v v' := v' = v ∧ ((∃ app command, prog = runCommand app command) ∨
    ∃ ctx inc, prog = processFrame ctx inc)
  ends _ _ v v' := v' = v
  drift _ _ := False

theorem clientTurn_admitted (team : ClientTeam) (turn : ClientTurn) :
    team.Admits scheduleCrew turn.turn := by
  cases turn with
  | command task app issued =>
      show team.store = team.store ∧ _
      exact ⟨rfl, .inl ⟨app, issued, rfl⟩⟩
  | frame task ctx inc =>
      show team.store = team.store ∧ _
      exact ⟨rfl, .inr ⟨ctx, inc, rfl⟩⟩
  | go task world =>
      show ∀ asked, Ask.effect asked team.store _ _
      exact fun asked => Ask.play_conforms (fun _ => trivial) asked team.store
  | finish task =>
      show ∀ result : Except String Unit, team.store = team.store
      exact fun _ => rfl

theorem clientRun_reached (start : Vault) (turns : List ClientTurn) :
    Relation.ReflTransGen scheduleCrew.Next (fun _ => none, start)
    (clientRun start turns).crewState := by
  have reached : ∀ team : ClientTeam, Relation.ReflTransGen scheduleCrew.Next team.crewState
      (team.run (turns.map ClientTurn.turn)).crewState := by
    induction turns with
    | nil => exact fun _ => .refl
    | cons turn turns ih =>
        exact fun team => (Team.take_next (clientTurn_admitted team turn)).trans (ih _)
  exact reached (.idle start)

/-! ### The conditions -/

/-- A suspension until the deadline is in force at both times, or at neither. -/
def SameVerdict (clock clock' : Option Int) (deadline : Int) : Prop :=
  ∀ now ∈ clock, ∀ now' ∈ clock', (now < deadline ↔ now' < deadline)

instance (clock clock' : Option Int) (deadline : Int) :
    Decidable (SameVerdict clock clock' deadline) :=
  inferInstanceAs (Decidable (∀ now ∈ clock, ∀ now' ∈ clock', _))

/-- The deadline a task is about to look up. -/
def deadlineDue (v : Vault) : Option (Option Int × Client Unit) → Option Int
  | some (_, .ask (.call (.suspendedUntil group user)) _) => v.suspendedUntil group user
  | _ => none

/-- The chat and the timestamp of a line that is inserted. -/
def VaultOp.stamped : VaultOp → Option (String × Int)
  | .insertMessage chat _ _ ts _ _ => some (chat, ts)
  | _ => none

/-- The chat and the timestamp of the line that a task is about to insert. -/
def lineDue : Option (Option Int × Client Unit) → Option (String × Int)
  | some (_, .ask (.call op) _) => op.stamped
  | _ => none

/-- The task whose turn it is makes a request. -/
def turnOf : Team.Turn (Option Int) Vault Ask Ask.Answer String → Option Nat
  | .go task _ => some task
  | _ => none

/-- A deadline that is looked up for a join request gives the same verdict at both timestamps. -/
def JoinsAgree (team team' : ClientTeam) (turn : Team.Turn (Option Int) Vault Ask Ask.Answer
    String) :
    Prop :=
  ∀ task ∈ turnOf turn, ∀ deadline ∈ deadlineDue team.store (team.tasks task),
    SameVerdict ((team.tasks task).bind Prod.fst) ((team'.tasks task).bind Prod.fst) deadline

/-- A line that is inserted has the same timestamp in both runs, or its chat has one that is not
older than either. -/
def LinesAgree (team team' : ClientTeam) (turn : Team.Turn (Option Int) Vault Ask Ask.Answer
    String) :
    Prop :=
  ∀ task ∈ turnOf turn, ∀ line ∈ lineDue (team.tasks task), ∀ line' ∈ lineDue (team'.tasks task),
    line'.2 = line.2 ∨
      ∃ row ∈ team.store.messages, row.chatId = line.1 ∧ line.2 ≤ row.ts ∧ line'.2 ≤ row.ts

instance (team team' : ClientTeam) (turn : Team.Turn (Option Int) Vault Ask Ask.Answer String) :
    Decidable (JoinsAgree team team' turn) :=
  inferInstanceAs (Decidable (∀ task ∈ turnOf turn, ∀ deadline ∈ deadlineDue team.store
  (team.tasks task),
    SameVerdict ((team.tasks task).bind Prod.fst) ((team'.tasks task).bind Prod.fst) deadline))

instance (team team' : ClientTeam) (turn : Team.Turn (Option Int) Vault Ask Ask.Answer String) :
    Decidable (LinesAgree team team' turn) :=
  inferInstanceAs (Decidable (∀ task ∈ turnOf turn, ∀ line ∈ lineDue (team.tasks task),
    ∀ line' ∈ lineDue (team'.tasks task), line'.2 = line.2 ∨
      ∃ row ∈ team.store.messages, row.chatId = line.1 ∧ line.2 ≤ row.ts ∧ line'.2 ≤ row.ts))

/-- The condition holds before each turn of the two schedules. -/
def AlongRuns (condition : ClientTeam → ClientTeam →
    Team.Turn (Option Int) Vault Ask Ask.Answer String → Prop) (start : Vault)
    (turns turns' : List ClientTurn) : Prop :=
  Team.Along condition (.idle start) (.idle start) (turns.map ClientTurn.turn)
    (turns'.map ClientTurn.turn)

instance {condition : ClientTeam → ClientTeam → Team.Turn (Option Int) Vault Ask Ask.Answer
    String → Prop}
    [∀ team team' turn, Decidable (condition team team' turn)] (start : Vault)
    (turns turns' : List ClientTurn) : Decidable (AlongRuns condition start turns turns') :=
  Team.Along.decidable _ _ _ _

/-! ### What the vaults have in common -/

theorem get_chats_retimed {v v' : Vault} (retimed : Retimed v v') : v'.chats = v.chats := by
  cases retimed
  rfl

/-- Messages without their timestamps. -/
def timeless (message : String × String × Int × Bool) : String × String × Bool :=
  (message.1, message.2.1, message.2.2.2)

/-- The messages of a chat are in the same order, whatever their timestamps. -/
theorem getMessages_retimed {v v' : Vault} (retimed : Retimed v v') (chat : String) (limit : Int) :
    (v'.getMessages chat limit).map timeless = (v.getMessages chat limit).map timeless := by
  have read : ∀ v : Vault, (v.getMessages chat limit).map timeless =
      ((let latestFirst := ((v.messages.map MessageRow.undated).filter (·.chatId = chat)).mergeSort
          fun a b => decide (b.recvTs < a.recvTs) || (decide (a.recvTs = b.recvTs) && decide
            (b.id ≤ a.id))
        if limit < 0 then latestFirst else latestFirst.take limit.toNat).map
          fun row => (row.sender, row.body, row.outgoing)).reverse := by
    intro v
    have undated : ((v.messages.map MessageRow.undated).filter (·.chatId = chat)).mergeSort
        (fun a b => decide (b.recvTs < a.recvTs) ||
          (decide (a.recvTs = b.recvTs) && decide (b.id ≤ a.id))) =
        ((v.messages.filter (·.chatId = chat)).mergeSort fun a b => decide (b.recvTs < a.recvTs) ||
          (decide (a.recvTs = b.recvTs) && decide (b.id ≤ a.id))).map MessageRow.undated := by
      rw [List.filter_map]
      exact (List.map_mergeSort (f := MessageRow.undated) (s := fun a b =>
        decide (b.recvTs < a.recvTs) || (decide (a.recvTs = b.recvTs) && decide (b.id ≤ a.id)))
        fun _ _ _ _ => rfl).symm
    unfold Vault.getMessages
    dsimp only
    rw [undated, List.map_reverse, List.map_map]
    split
    · rw [List.map_map]
      rfl
    · rw [← List.map_take, List.map_map]
      rfl
  rw [read, read]
  cases retimed with
  | restamp messagesAlike bansAlike requestsAlike =>
      rw [show (v.restamp _ _ _).messages.map MessageRow.undated = _ from messagesAlike]

/-- The timestamps of a chat. -/
def chatStamps (v : Vault) (chat : String) : List Int :=
  (v.messages.filter (·.chatId = chat)).map MessageRow.ts

theorem lastTs_eq (v : Vault) (chat : String) : v.lastTs chat = newest (chatStamps v chat) := by
  unfold Vault.lastTs chatStamps newest
  rfl

/-- The vaults are the same but for timestamps, and the newest ones agree. -/
structure SameNewest (v v' : Vault) : Prop where
  retimed : Retimed v v'
  newest : ∀ chat, v'.lastTs chat = v.lastTs chat

theorem listChats_eq {v v' : Vault} (same : SameNewest v v') : v'.listChats = v.listChats := by
  have newest : v'.lastTs = v.lastTs := funext same.newest
  unfold Vault.listChats
  rw [get_chats_retimed same.retimed, newest]

/-- Chats without messages are so in both vaults. -/
theorem chatStamps_retimed {v v' : Vault} (retimed : Retimed v v') (chat : String) :
    chatStamps v' chat = [] ↔ chatStamps v chat = [] := by
  have counted : ∀ v : Vault, chatStamps v chat = [] ↔
      (v.messages.map MessageRow.undated).filter (·.chatId = chat) = [] := by
    intro v
    unfold chatStamps
    rw [List.filter_map, List.map_eq_nil_iff, List.map_eq_nil_iff]
    rfl
  rw [counted, counted]
  cases retimed with
  | restamp messagesAlike bansAlike requestsAlike =>
      rw [show (v.restamp _ _ _).messages.map MessageRow.undated = _ from messagesAlike]

theorem chatStamps_insert (v : Vault) (chat sender text : String) (ts : Int) (outgoing : Bool)
    (recvTs : Int) (id : String) : chatStamps (v.insertMessage chat sender text ts outgoing
      recvTs) id =
      chatStamps v id ++ if chat = id then [ts] else [] := by
  unfold chatStamps Vault.insertMessage
  rw [List.filter_append, List.map_append]
  refine congrArg _ ?_
  by_cases here : chat = id
  · simp [here]
  · simp [here]

/-- A line that is as new in both vaults, or not the newest. -/
theorem SameNewest.insert {v v' : Vault} (same : SameNewest v v') {chat sender text : String}
    {ts ts' : Int} {outgoing : Bool} {recvTs : Int}
    (agree : ts' = ts ∨ ∃ row ∈ v.messages, row.chatId = chat ∧ ts ≤ row.ts ∧ ts' ≤ row.ts)
    (id : String) :
    (v'.insertMessage chat sender text ts' outgoing recvTs).lastTs id =
      (v.insertMessage chat sender text ts outgoing recvTs).lastTs id := by
  have before := same.newest id
  rw [lastTs_eq, lastTs_eq] at before
  rw [lastTs_eq, lastTs_eq, chatStamps_insert, chatStamps_insert]
  by_cases here : chat = id
  · subst here
    rw [if_pos rfl, if_pos rfl]
    by_cases silent : chatStamps v chat = []
    · have silent' := (chatStamps_retimed same.retimed chat).mpr silent
      rcases agree with rfl | ⟨row, stored, inChat, _, _⟩
      · rw [silent, silent']
      · have member : row ∈ v.messages.filter (·.chatId = chat) :=
          List.mem_filter.mpr ⟨stored, decide_eq_true inChat⟩
        rw [List.map_eq_nil_iff.mp silent] at member
        cases member
    · have spoken' : chatStamps v' chat ≠ [] :=
        fun silent' => silent ((chatStamps_retimed same.retimed chat).mp silent')
      rw [newest_concat silent, newest_concat spoken', before]
      rcases agree with rfl | ⟨row, stored, inChat, older, older'⟩
      · rfl
      · have listed : row.ts ∈ chatStamps v chat :=
          List.mem_map.mpr ⟨row, List.mem_filter.mpr ⟨stored, decide_eq_true inChat⟩, rfl⟩
        have top := le_newest listed
        rw [Int.max_eq_left (Int.le_trans older top), Int.max_eq_left (Int.le_trans older' top)]
  · rw [if_neg here, if_neg here, List.append_nil, List.append_nil, before]

/-- Any other call: the lines of a chat stay, or go. -/
theorem lastTs_exec {op : VaultOp} (other : ∀ chat sender text ts outgoing recvTs,
    op ≠ .insertMessage chat sender text ts outgoing recvTs) {v v' : Vault} (same : SameNewest v v')
    (id : String) : (op.exec v').2.lastTs id = (op.exec v).2.lastTs id := by
  by_cases writes : op.Writes .messages id
  · have gone : ∀ v : Vault, (op.exec v).2.lastTs id = 0 := by
      intro v
      cases op with
      | insertMessage chat sender text ts outgoing recvTs => exact (other _ _ _ _ _ _ rfl).elim
      | deleteChat chat =>
          obtain rfl : id = chat := writes.2
          have erased : (v.deleteChat id).messages.filter (·.chatId = id) = [] := by
            rw [Vault.deleteChat, List.filter_filter, List.filter_eq_nil_iff]
            simp
          show (v.deleteChat id).lastTs id = 0
          rw [lastTs_eq, chatStamps, erased]
          rfl
      | _ => simp [VaultOp.Writes] at writes
    rw [gone, gone]
  · have kept : ∀ v : Vault, (op.exec v).2.lastTs id = v.lastTs id := by
      intro v
      have frame : (op.exec v).2.messages.filter (·.chatId = id) = v.messages.filter
          (·.chatId = id) :=
        op.exec_frame v .messages id writes
      rw [lastTs_eq, lastTs_eq, chatStamps, frame, chatStamps]
    rw [kept, kept, same.newest]

/-- Calls that correspond: a line is as new in both, or not the newest. -/
theorem newest_exec {op op' : VaultOp} (alike : OpAlike op op') {v v' : Vault}
    (same : SameNewest v v')
    (lines : ∀ chat ts ts', op.stamped = some (chat, ts) → op'.stamped = some (chat, ts') →
      ts' = ts ∨ ∃ row ∈ v.messages, row.chatId = chat ∧ ts ≤ row.ts ∧ ts' ≤ row.ts) (id : String) :
    (op'.exec v').2.lastTs id = (op.exec v).2.lastTs id := by
  cases alike with
  | line chat sender text ts ts' outgoing recvTs => exact same.insert (lines chat ts ts' rfl rfl) id
  | ban group user ts ts' => exact same.newest id
  | request group user ts ts' => exact same.newest id
  | same =>
      cases inserted : op.stamped with
      | none => exact lastTs_exec (fun _ _ _ _ _ _ is => by rw [is] at inserted; cases
          inserted) same id
      | some line =>
          cases op with
          | insertMessage chat sender text ts outgoing recvTs =>
              exact same.insert (lines chat ts ts rfl rfl) id
          | _ => cases inserted

/-! ### Turns that correspond -/

/-- The tasks that begin are twins, as far as their deadlines are fair. -/
def stampNotes (clock clock' : Option Int) : Coupling Ask Ask.Answer :=
    stamps (SameVerdict clock clock')

theorem stamped_runCommand {fair : Int → Prop} (app : App) (command : Command) :
    Stamped fair (runCommand app command) (runCommand app command) := by
  have handled : (stampCommands fair).Same (handle app command) := by
    cases command with
    | send chat text =>
        show (stampCommands fair).Same (send app chat text)
        rw [send_eq]
        exact walk_withServer fun _ => walk_withName fun me => walk_sendAs trivial app chat text
    | _ => exact walk_handle app nofun
  refine Walk.Rel.bind handled.attempt fun result => ?_
  cases result with
  | ok _ => exact walk_done _
  | error e => exact walk_emit (by trivial)

theorem ClientTurn.Alike.turn {turn turn' : ClientTurn} (alike : turn.Alike turn') :
    Team.Turn.Alike stampNotes turn.turn turn'.turn := by
  have framed : ∀ task ctx inc ts', Team.Turn.Alike stampNotes (ClientTurn.frame task ctx inc).turn
      (ClientTurn.frame task ctx { inc with clientTs := ts' }).turn := by
    intro task ctx inc ts'
    let verdict := SameVerdict (joinClock inc) (joinClock { inc with clientTs := ts' })
    have twins : (stampWalk verdict).Rel (processFrame ctx inc)
        (processFrame ctx { inc with clientTs := ts' }) := by
      refine walk_processFrame ctx inc ts' (fun _ => trivial) fun isJoin deadline fair => ?_
      exact fair _ (by rw [joinClock, if_pos isJoin]; rfl) _ (by rw [joinClock, if_pos isJoin]; rfl)
    exact .start task twins
  cases alike with
  | frame task ctx inc ts' => exact framed task ctx inc ts'
  | same =>
      cases turn with
      | command task app issued => exact .start task (stamped_runCommand app issued)
      | frame task ctx inc => exact framed task ctx inc inc.clientTs
      | go task world => exact .go task _
      | finish task => exact .finish task

/-- A request that is no vault call is answered the same, and leaves the vault alone. -/
theorem play_world (world : (asked : Ask) → asked.Answer) (asked : Ask) [other : asked.World]
    (v : Vault) :
    Ask.play world asked v = (world asked, v) := by
  cases asked with
  | call op => exact absurd rfl (other.noCall op)
  | _ => rfl

theorem answersAlike_world {fair : Int → Prop} (asked : Ask) [other : asked.World]
    (answer : asked.Answer) : AnswersAlike fair asked asked answer answer := by
  cases asked with
  | call op => exact absurd rfl (other.noCall op)
  | _ => exact HEq.rfl

/-- Vault calls that correspond, on two vaults that do. -/
theorem retimed_exec {op op' : VaultOp} (alike : OpAlike op op') {v v' : Vault}
    (retimed : Retimed v v') :
    ResultsAlike op op' (op.exec v).1 (op'.exec v').1 ∧ Retimed (op.exec v).2 (op'.exec v').2 := by
  cases retimed with
  | restamp messagesAlike bansAlike requestsAlike =>
      exact alike.exec messagesAlike bansAlike requestsAlike

/-- Answers are fair where the join requests agree. The relation of the vaults is one that
corresponding calls keep. -/
theorem fair_of_joinsAgree {R : Vault → Vault → Prop} {team team' : ClientTeam} {turn : ClientTurn}
    (stores : R team.store team'.store) (retimed : Retimed team.store team'.store)
    (joins : JoinsAgree team team' turn.turn)
    (exec : ∀ task world op op' note note' next next', turn.turn = .go task (Ask.play world) →
      team.tasks task = some (note, .ask (.call op) next) →
      team'.tasks task = some (note', .ask (.call op') next') → OpAlike op op' →
      R (op.exec team.store).2 (op'.exec team'.store).2) :
    Team.Fair stampNotes R team team' turn.turn := by
  intro task machine note note' request request' next next' here busy busy' asks
  obtain ⟨world, rfl⟩ : ∃ world, machine = Ask.play world := by
    cases turn with
    | go task' world => exact ⟨world, (Team.Turn.go.inj here).2.symm⟩
    | command | frame | finish => cases here
  cases (asks : AskAlike request request') with
  | @call op op' alike =>
      refine ⟨⟨(retimed_exec alike retimed).1, ?_⟩, exec _ _ _ _ _ _ _ _ here busy busy' alike⟩
      cases op with
      | suspendedUntil group user =>
          intro deadline found
          have due : deadline ∈ deadlineDue team.store (team.tasks task) := by
            rw [busy]
            exact found
          have verdict := joins task (by rw [here]; rfl) deadline due
          rw [busy, busy'] at verdict
          exact verdict
      | _ => trivial
  | emit event event' => exact ⟨HEq.rfl, stores⟩
  | world _ =>
      rw [play_world, play_world]
      exact ⟨answersAlike_world _ _, stores⟩

/-- **The messages of every chat are in the order of their receipt**, whatever timestamps the frames
carry, as long as these decide about no suspension; **the list of chats** is the same, as long as
they are not newer than what the chat has. -/
theorem trusted_order (start : Vault) {turns turns' : List ClientTurn}
    (alike : List.Forall₂ ClientTurn.Alike turns turns')
    (joins : AlongRuns JoinsAgree start turns turns') :
    (∀ chat limit, ((clientRun start turns').store.getMessages chat limit).map timeless =
      ((clientRun start turns).store.getMessages chat limit).map timeless) ∧
    (AlongRuns LinesAgree start turns turns' →
      (clientRun start turns').store.listChats = (clientRun start turns).store.listChats) := by
  have alikeTurns : List.Forall₂ (Team.Turn.Alike stampNotes) (turns.map ClientTurn.turn)
      (turns'.map ClientTurn.turn) :=
    List.forall₂_map_left_iff.mpr (List.forall₂_map_right_iff.mpr
    (alike.imp fun _ _ => ClientTurn.Alike.turn))
  constructor
  · have pace : Team.Pace stampNotes Retimed (clientRun start turns) (clientRun start turns') := by
      refine Team.Pace.run alikeTurns ?_ ⟨fun _ => .none, .refl start⟩ joins
      intro turn listed team team' pace joins
      obtain ⟨turn, _, rfl⟩ := List.mem_map.mp listed
      refine fair_of_joinsAgree pace.stores pace.stores joins ?_
      exact fun _ _ _ _ _ _ _ _ _ _ _ alike => (retimed_exec alike pace.stores).2
    exact getMessages_retimed pace.stores
  · intro lines
    have pace : Team.Pace stampNotes SameNewest (clientRun start turns)
        (clientRun start turns') := by
      refine Team.Pace.run alikeTurns ?_ ⟨fun _ => .none, ⟨.refl start, fun _ => rfl⟩⟩
        (joins.and lines)
      intro turn listed team team' pace ⟨joins, lines⟩
      obtain ⟨turn, _, rfl⟩ := List.mem_map.mp listed
      refine fair_of_joinsAgree pace.stores pace.stores.retimed joins ?_
      intro task world op op' note note' next next' here busy busy' alike
      refine ⟨(retimed_exec alike pace.stores.retimed).2, fun id => ?_⟩
      refine newest_exec alike pace.stores (fun chat ts ts' due due' => ?_) id
      exact lines task (by rw [here]; rfl) (chat, ts) (by rw [busy]; exact due) (chat, ts')
        (by rw [busy']; exact due')
    exact listChats_eq pace.stores

/-! ### Without join requests -/

/-- The turn begins with no join request. -/
def NoJoin : ClientTurn → Prop
  | .frame _ _ inc => inc.msgType ≠ MsgType.groupJoin
  | _ => True

/-- No task works off a join request. -/
def Clockless (team : ClientTeam) : Prop := ∀ task, (team.tasks task).bind Prod.fst = none

theorem Clockless.take {team : ClientTeam} (clockless : Clockless team) {turn : ClientTurn}
    (noJoin : NoJoin turn) : Clockless (team.take turn.turn) := by
  have put : ∀ (task : Nat) (job : Option (Option Int × Client Unit)), job.bind Prod.fst = none →
      ∀ i, (Function.update team.tasks task job i).bind Prod.fst = none := by
    intro task job noClock i
    by_cases here : i = task
    · rw [here, Function.update_self]
      exact noClock
    · rw [Function.update_of_ne here]
      exact clockless i
  have begun : ∀ task prog, Clockless (team.take (.start task none prog)) := by
    intro task prog
    unfold Team.take
    dsimp only
    split
    · exact put task _ rfl
    · exact clockless
  cases turn with
  | command task app issued => exact begun task _
  | frame task ctx inc =>
      have noClock : joinClock inc = none := if_neg noJoin
      rw [ClientTurn.turn, noClock]
      exact begun task _
  | go task world =>
      show Clockless (team.take (.go task (Ask.play world)))
      unfold Team.take
      dsimp only
      split
      · next note request next busy =>
        have noClock := clockless task
        rw [busy] at noClock
        exact put task _ noClock
      · exact clockless
  | finish task =>
      show Clockless (team.take (.finish task))
      unfold Team.take
      dsimp only
      split
      · exact put task none rfl
      · exact put task none rfl
      · exact clockless

/-- Where no frame is a join request, no timestamp decides about a suspension. -/
theorem joinsAgree_of_noJoin (start : Vault) {turns : List ClientTurn}
    (noJoin : ∀ turn ∈ turns, NoJoin turn) (turns' : List ClientTurn) :
    AlongRuns JoinsAgree start turns turns' := by
  have keeps : ∀ turn ∈ turns.map ClientTurn.turn, ∀ team, Clockless team →
      Clockless (team.take turn) := by
    intro turn listed team clockless
    obtain ⟨turn, member, rfl⟩ := List.mem_map.mp listed
    exact clockless.take (noJoin turn member)
  refine Team.Along.of_invariant keeps ?_ (fun _ => rfl) _ _
  intro turn team team' clockless task _ deadline _ now due
  rw [clockless task] at due
  cases due

end

namespace Ideal

/-- Carol's first message to a group, dated by Carol. -/
def datedHello (ts : Int) : Incoming where
  «from» := "carol"
  msgType := MsgType.megolm
  payload := b64Encode (groupEncrypt (⟨5, 0⟩ : GroupSession) (utf8 "hello")).1
  groupId := some "g1"
  clientTs := ts

/-- Two groups, the second with a message of time 5. -/
def twoGroups : Vault :=
  ((((Vault.empty.saveGroupIn "g1" "carol" (⟨5, 0⟩ : InboundGroupSession)).upsertChat "g1"
    "group" "one"
    0).upsertChat "g2" "group" "two" 0).insertMessage "g2" "bob" "news" 5 false 0)

/-- Alice's client works off Carol's message. -/
def helloTurns (ts : Int) : List ClientTurn :=
  .frame 0 ⟨"alice", "relay"⟩ (datedHello ts) :: List.replicate 12 (.go 0 world)

theorem helloTurns_alike (ts ts' : Int) :
    List.Forall₂ ClientTurn.Alike (helloTurns ts) (helloTurns ts') :=
  .cons (.frame 0 ⟨"alice", "relay"⟩ (datedHello ts) ts')
    (List.forall₂_same.mpr fun turn _ => ClientTurn.Alike.same turn)

/-- A line that is newer than the other chat's comes first. -/
theorem listChats_hello {v : Vault}
    (rows : v.chats.rows = [("g2", ⟨"group", "two", 0⟩), ("g1", ⟨"group", "one", 0⟩)])
    (second : v.lastTs "g2" = 5) (apart : (5 : Int) ≠ v.lastTs "g1") :
    v.listChats.map Prod.fst = if 5 < v.lastTs "g1" then ["g1", "g2"] else ["g2", "g1"] := by
  unfold Vault.listChats
  rw [rows]
  by_cases newer : 5 < v.lastTs "g1"
  · have notBefore : ¬ v.lastTs "g1" < 5 := by omega
    simp [List.mergeSort, second, newer, apart, notBefore]
  · have before : v.lastTs "g1" < 5 := by omega
    simp [List.mergeSort, second, newer, before]

/-- **A later date moves the chat to the top.** With an earlier one Carol's group is below the
other, with a later one above it. -/
theorem later_line_moves_chat :
    ¬ ∀ (start : Vault) (turns turns' : List ClientTurn),
    List.Forall₂ ClientTurn.Alike turns turns' →
      (∀ chat limit, ((clientRun start turns').store.getMessages chat limit).map timeless =
        ((clientRun start turns).store.getMessages chat limit).map timeless) ∧
      (clientRun start turns').store.listChats.map Prod.fst =
        (clientRun start turns).store.listChats.map Prod.fst := by
  intro claim
  have ordered := (claim twoGroups _ _ (helloTurns_alike 0 10)).2
  have early : (clientRun twoGroups (helloTurns 0)).store.lastTs "g1" = 0 := by decide +kernel
  have late : (clientRun twoGroups (helloTurns 10)).store.lastTs "g1" = 10 := by decide +kernel
  rw [listChats_hello (by decide +kernel) (by decide +kernel) (by rw [late]; decide),
    listChats_hello (by decide +kernel) (by decide +kernel) (by rw [early]; decide), early,
    late] at ordered
  exact absurd ordered (by decide)

/-- Below a message of time 20, a date of 0 and one of 10 come to the same. -/
theorem older_line_moves_nothing :
    (clientRun (twoGroups.insertMessage "g1" "dave" "later" 20 false 0)
      (helloTurns 10)).store.listChats =
      (clientRun (twoGroups.insertMessage "g1" "dave" "later" 20 false 0)
        (helloTurns 0)).store.listChats :=
  (trusted_order _ (helloTurns_alike 0 10) (by decide +kernel)).2 (by decide +kernel)

end Ideal

end Cherm
