/-
**Two clients that are given other timestamps.**

A frame carries the timestamp its sender chose. Two tasks that are given other ones make the same
requests, but for the timestamps in rows and events; two vaults that were given other ones are the
same, but for the timestamps of messages, bans and join requests.

* `Retimed`: two such vaults. `Retimed.exec`: they stay so under requests that correspond.
* `stamps`: the coupling of the requests. Whether a suspension has run out at the timestamp of a
  join request must not depend on the timestamp.
* `stampWalk`, `stampCommands`: the handlers are twins.
-/

import Cherm.Client.CommandWalk
import Cherm.Lib.Twin

namespace Cherm

open Crates Client

theorem keys_eraseWhere {κ ρ : Type} [DecidableEq κ] {table table' : Table κ ρ} (same : table'.keys = table.keys)
    (test : κ → Bool) : (table'.eraseWhere test).keys = (table.eraseWhere test).keys := by
  have folded : ∀ (keys : List κ) {table table' : Table κ ρ}, table'.keys = table.keys →
      (keys.foldl Table.erase table').keys = (keys.foldl Table.erase table).keys := by
    intro keys
    induction keys with
    | nil => exact fun same => same
    | cons key rest ih =>
        intro table table' same
        refine ih ?_
        unfold Table.erase
        rw [AList.keys_erase, AList.keys_erase, same]
  unfold Table.eraseWhere
  rw [same]
  exact folded _ same

theorem keys_put {κ ρ : Type} [DecidableEq κ] {table table' : Table κ ρ} (same : table'.keys = table.keys) (key : κ)
    (row row' : ρ) :
    (table'.put key row').keys = (table.put key row).keys := by
  unfold Table.put
  rw [AList.keys_insert, AList.keys_insert, same]

theorem keys_erase {κ ρ : Type} [DecidableEq κ] {table table' : Table κ ρ} (same : table'.keys = table.keys) (key : κ) :
    (table'.erase key).keys = (table.erase key).keys := by
  unfold Table.erase
  rw [AList.keys_erase, AList.keys_erase, same]

theorem isSome_get {κ ρ : Type} [DecidableEq κ] {table table' : Table κ ρ} (same : table'.keys = table.keys) (key : κ) :
    (table'.get key).isSome = (table.get key).isSome := by
  unfold Table.get
  rw [Bool.eq_iff_iff, AList.lookup_isSome, AList.lookup_isSome, AList.mem_keys,
    AList.mem_keys, same]

theorem rows_keys {κ ρ : Type} [DecidableEq κ] (table : Table κ ρ) : table.rows.map Prod.fst = table.keys := by
  unfold Table.rows AList.keys List.keys
  rw [List.map_map]
  rfl

/-- A message without its timestamp. -/
def MessageRow.undated (row : MessageRow) : MessageRow := { row with ts := 0 }

theorem undated_filter {messages messages' : List MessageRow} {test : MessageRow → Bool}
    (same : messages'.map MessageRow.undated = messages.map MessageRow.undated)
    (blind : ∀ row : MessageRow, test row = test row.undated) :
    (messages'.filter test).map MessageRow.undated = (messages.filter test).map
      MessageRow.undated := by
  have moved : ∀ rows : List MessageRow, (rows.filter test).map MessageRow.undated =
      (rows.map MessageRow.undated).filter test := by
    intro rows
    rw [List.filter_map, show test ∘ MessageRow.undated = test from funext fun row =>
      (blind row).symm]
  rw [moved, moved, same]

/-- The keys of some rows are among the keys. -/
theorem rows_filter_keys {κ ρ : Type} [DecidableEq κ] (table : Table κ ρ) (test : κ → Bool) :
    (table.rows.filter fun row => test row.1).map Prod.fst = table.keys.filter test := by
  rw [← rows_keys, List.filter_map]
  rfl

section

variable [Crates]

/-! ### Vaults -/

/-- Other messages, bans and join requests. -/
def Vault.restamp (v : Vault) (messages : List MessageRow)
    (bans requests : Table (String × String) Int) :
    Vault :=
  { v with messages := messages, groupBans := bans, groupJoinRequests := requests }

/-- The vaults are the same but for timestamps. -/
inductive Retimed (v : Vault) : Vault → Prop where
  | restamp {messages : List MessageRow} {bans requests : Table (String × String) Int}
      (messagesAlike : messages.map MessageRow.undated = v.messages.map MessageRow.undated)
      (bansAlike : bans.keys = v.groupBans.keys)
      (requestsAlike : requests.keys = v.groupJoinRequests.keys) :
      Retimed v (v.restamp messages bans requests)

theorem Retimed.refl (v : Vault) : Retimed v v := .restamp rfl rfl rfl

/-- Two calls that are the same but for a timestamp. -/
inductive OpAlike : VaultOp → VaultOp → Prop where
  | same (op : VaultOp) : OpAlike op op
  | line (chat sender body : String) (ts ts' : Int) (outgoing : Bool) (recvTs : Int) :
      OpAlike (.insertMessage chat sender body ts outgoing recvTs)
        (.insertMessage chat sender body ts' outgoing recvTs)
  | ban (group user : String) (ts ts' : Int) : OpAlike (.banUser group user ts)
      (.banUser group user ts')
  | request (group user : String) (ts ts' : Int) :
      OpAlike (.addJoinRequest group user ts) (.addJoinRequest group user ts')

/-- What two such calls answer: the same, but for the timestamps and what is ordered by them. -/
inductive ResultsAlike : (op op' : VaultOp) → op.Result → op'.Result → Prop where
  | same (op : VaultOp) (result : op.Result) : ResultsAlike op op result result
  | messages (chat : String) (limit : Int) (found found' : List (String × String × Int × Bool)) :
      ResultsAlike (.getMessages chat limit) (.getMessages chat limit) found found'
  | chats (found found' : List (String × String × String × Int)) :
      ResultsAlike .listChats .listChats found found'
  | requests (group : String) (found found' : List String) :
      ResultsAlike (.listJoinRequests group) (.listJoinRequests group) found found'
  | line (chat sender body : String) (ts ts' : Int) (outgoing : Bool) (recvTs : Int) :
      ResultsAlike (.insertMessage chat sender body ts outgoing recvTs)
        (.insertMessage chat sender body ts' outgoing recvTs) () ()
  | ban (group user : String) (ts ts' : Int) :
      ResultsAlike (.banUser group user ts) (.banUser group user ts') () ()
  | request (group user : String) (ts ts' : Int) :
      ResultsAlike (.addJoinRequest group user ts) (.addJoinRequest group user ts') () ()

theorem ResultsAlike.of_eq (op : VaultOp) {result result' : op.Result} (same : result' = result) :
    ResultsAlike op op result result' := by
  rw [same]
  exact .same op result

section

variable {κ ρ : Type} [DecidableEq κ]

end

section

variable {v : Vault} {messages : List MessageRow} {bans requests : Table (String × String) Int}

/-- Calls that neither read nor write messages, bans or join requests. -/
def VaultOp.Timeless : VaultOp → Prop
  | listChats | deleteChat _ | banUser .. | unbanUser .. | isBanned .. | addJoinRequest .. => False
  | hasJoinRequest .. | removeJoinRequest .. | listJoinRequests _ | listBans _ => False
  | insertMessage .. | getMessages .. => False
  | _ => True

theorem createGroupRowFrom_restamp (v : Vault) (groupId mode owner : String) (gen : Nat → String)
    (tries attempt : Nat) :
    (v.restamp messages bans requests).createGroupRowFrom groupId mode owner gen tries attempt =
      ((v.createGroupRowFrom groupId mode owner gen tries attempt).1,
        (v.createGroupRowFrom groupId mode owner gen tries attempt).2.restamp messages bans
          requests) := by
  induction tries generalizing v attempt with
  | zero => rfl
  | succ tries ih =>
      have tried : (v.restamp messages bans requests).tryInsertGroup groupId (gen attempt)
          mode owner =
          ((v.tryInsertGroup groupId (gen attempt) mode owner).1,
            (v.tryInsertGroup groupId (gen attempt) mode owner).2.restamp messages bans
              requests) := by
        unfold Vault.tryInsertGroup
        show (if (v.groups.get groupId).isSome then _ else if v.keyTaken groupId
          (gen attempt) then _
          else _) = _
        split
        · rfl
        · split <;> rfl
      unfold Vault.createGroupRowFrom
      rw [tried]
      generalize v.tryInsertGroup groupId (gen attempt) mode owner = outcome
      obtain ⟨outcome, v'⟩ := outcome
      cases outcome with
      | inserted => rfl
      | groupExists =>
          have row : (v'.restamp messages bans requests).getGroupMeta groupId =
              v'.getGroupMeta groupId := rfl
          dsimp only
          rw [row]
          cases v'.getGroupMeta groupId with
          | none => rfl
          | some row => rfl
      | keyTaken => exact ih v' (attempt + 1)

/-- Such a call does the same to two vaults that differ in these parts. -/
theorem VaultOp.Timeless.exec {op : VaultOp} (timeless : op.Timeless) (v : Vault) :
    op.exec (v.restamp messages bans requests) =
      ((op.exec v).1, (op.exec v).2.restamp messages bans requests) := by
  cases op with
  | createGroupRow groupId mode owner gen =>
      exact createGroupRowFrom_restamp v groupId mode owner gen 64 0
  | addMember chat user =>
      show ((), if v.isMember chat user then _ else _) =
        ((), Vault.restamp (if _ then _ else _) _ _ _)
      split <;> rfl
  | megolmAccept groupId sender sessionId index =>
      show Vault.megolmAccept (v.restamp messages bans requests) groupId sender sessionId index =
        ((v.megolmAccept groupId sender sessionId index).1,
          (v.megolmAccept groupId sender sessionId index).2.restamp messages bans requests)
      simp only [Vault.megolmAccept, Vault.restamp]
      cases v.megolmSeen.get (groupId, sender, sessionId) with
      | none => rfl
      | some max =>
          dsimp only
          split <;> rfl
  | upsertGroupMeta groupId key mode owner =>
      show ((), if v.keyTaken groupId key then _ else _) =
        ((), Vault.restamp (if v.keyTaken groupId key then _ else _) _ _ _)
      split <;> rfl
  | setAccessMode groupId mode =>
      show ((), Vault.setAccessMode (v.restamp messages bans requests) groupId mode) =
        ((), (v.setAccessMode groupId mode).restamp messages bans requests)
      simp only [Vault.setAccessMode, Vault.restamp]
      cases v.groups.get groupId with
      | none => rfl
      | some row => rfl
  | listChats | deleteChat | banUser | unbanUser | isBanned | addJoinRequest => exact timeless.elim
  | hasJoinRequest | removeJoinRequest | listJoinRequests | listBans => exact timeless.elim
  | insertMessage | getMessages => exact timeless.elim
  | _ => rfl

/-- Such a call keeps these parts. -/
theorem VaultOp.Timeless.kept {op : VaultOp} (timeless : op.Timeless) (v : Vault) :
    (op.exec v).2 =
      (op.exec v).2.restamp v.messages v.groupBans v.groupJoinRequests :=
  congrArg Prod.snd (timeless.exec v : op.exec (v.restamp v.messages v.groupBans
  v.groupJoinRequests) = _)

theorem listBans_restamp (bansAlike : bans.keys = v.groupBans.keys) (group : String) :
    (v.restamp messages bans requests).listBans group = v.listBans group := by
  have named : ∀ table : Table (String × String) Int,
      (table.rows.filter (·.1.1 = group)).map (·.1.2) =
        (table.keys.filter (·.1 = group)).map Prod.snd := by
    intro table
    rw [← rows_filter_keys, List.map_map]
    rfl
  unfold Vault.listBans
  rw [named, named]
  exact congrArg (fun keys : List (String × String) =>
    ((keys.filter (·.1 = group)).map Prod.snd).mergeSort fun a b => decide (a ≤ b)) bansAlike

/-- What a call does to two such vaults. -/
theorem OpAlike.exec {op op' : VaultOp} (alike : OpAlike op op')
    (messagesAlike : messages.map MessageRow.undated = v.messages.map MessageRow.undated)
    (bansAlike : bans.keys = v.groupBans.keys)
    (requestsAlike : requests.keys = v.groupJoinRequests.keys) :
    ResultsAlike op op' (op.exec v).1 (op'.exec (v.restamp messages bans requests)).1 ∧
      Retimed (op.exec v).2 (op'.exec (v.restamp messages bans requests)).2 := by
  cases alike with
  | line chat sender body ts ts' outgoing recvTs =>
      refine ⟨.line .., .restamp ?_ bansAlike requestsAlike⟩
      show List.map _ (_ ++ _) = List.map _ (_ ++ _)
      rw [List.map_append, List.map_append]
      exact congrArg (· ++ _) messagesAlike
  | ban group user ts ts' => exact ⟨.ban .., .restamp messagesAlike (keys_put bansAlike ..)
      requestsAlike⟩
  | request group user ts ts' =>
      exact ⟨.request .., .restamp messagesAlike bansAlike (keys_put requestsAlike ..)⟩
  | same =>
      by_cases timeless : op.Timeless
      · rw [timeless.exec]
        refine ⟨.same .., .restamp ?_ ?_ ?_⟩
        · exact messagesAlike.trans (congrArg (fun v => v.messages.map MessageRow.undated)
            (timeless.kept v)).symm
        · exact bansAlike.trans (congrArg (fun v => v.groupBans.keys) (timeless.kept v)).symm
        · exact requestsAlike.trans (congrArg (fun v => v.groupJoinRequests.keys)
            (timeless.kept v)).symm
      · cases op with
        | deleteChat chat =>
            exact ⟨.same (.deleteChat chat) (), .restamp
              (undated_filter messagesAlike fun row => rfl)
              (keys_eraseWhere bansAlike _) (keys_eraseWhere requestsAlike _)⟩
        | listChats => exact ⟨.chats .., .restamp messagesAlike bansAlike requestsAlike⟩
        | banUser group user ts =>
            exact ⟨.ban group user ts ts, .restamp messagesAlike (keys_put bansAlike _ _ _)
              requestsAlike⟩
        | unbanUser group user =>
            exact ⟨.same (.unbanUser group user) (),
              .restamp messagesAlike (keys_erase bansAlike _) requestsAlike⟩
        | isBanned group user =>
            exact ⟨.of_eq (.isBanned group user) (isSome_get bansAlike _),
              .restamp messagesAlike bansAlike requestsAlike⟩
        | addJoinRequest group user ts =>
            exact ⟨.request group user ts ts,
              .restamp messagesAlike bansAlike (keys_put requestsAlike _ _ _)⟩
        | hasJoinRequest group user =>
            exact ⟨.of_eq (.hasJoinRequest group user) (isSome_get requestsAlike _),
              .restamp messagesAlike bansAlike requestsAlike⟩
        | removeJoinRequest group user =>
            exact ⟨.same (.removeJoinRequest group user) (),
              .restamp messagesAlike bansAlike (keys_erase requestsAlike _)⟩
        | listJoinRequests group =>
            exact ⟨.requests group _ _, .restamp messagesAlike bansAlike requestsAlike⟩
        | listBans group =>
            exact ⟨.of_eq (.listBans group) (listBans_restamp bansAlike group),
              .restamp messagesAlike bansAlike requestsAlike⟩
        | insertMessage chat sender body ts outgoing recvTs =>
            refine ⟨.line .., .restamp ?_ bansAlike requestsAlike⟩
            show List.map _ (_ ++ _) = List.map _ (_ ++ _)
            rw [List.map_append, List.map_append]
            exact congrArg (· ++ _) messagesAlike
        | getMessages chat limit => exact ⟨.messages ..,
            .restamp messagesAlike bansAlike requestsAlike⟩
        | _ => exact absurd trivial timeless

end

/-! ### Programs -/

/-- Requests that are the same but for timestamps. -/
inductive AskAlike : Ask → Ask → Prop where
  | call {op op' : VaultOp} (alike : OpAlike op op') : AskAlike (.call op) (.call op')
  | emit (event event' : Event) : AskAlike (.emit event) (.emit event')
  | world (asked : Ask) [asked.World] : AskAlike asked asked

/-- The deadline of a suspension is a fair one. -/
def VaultOp.FairResult (fair : Int → Prop) : (op : VaultOp) → op.Result → Prop
  | .suspendedUntil _ _, found => ∀ deadline ∈ found, fair deadline
  | _, _ => True

/-- Answers that are the same but for timestamps. -/
def AnswersAlike (fair : Int → Prop) : (asked asked' : Ask) → asked.Answer → asked'.Answer → Prop
  | .call op, .call op', answer, answer' => ResultsAlike op op' answer answer' ∧
      op.FairResult fair answer
  | _, _, answer, answer' => HEq answer' answer

/-- The coupling of two tasks with timestamps of their own, to which only some deadlines are fair.
-/
def stamps (fair : Int → Prop) : Coupling Ask Ask.Answer := ⟨AskAlike, AnswersAlike fair⟩

variable {fair : Int → Prop}

/-- Two clients that make such requests and come to the same result. -/
abbrev Stamped (fair : Int → Prop) {α : Type} (p p' : Client α) : Prop :=
  Prog.Twin (stamps fair) (· = ·) p p'

theorem Stamped.bind {α β : Type} {p p' : Client α} {f f' : α → Client β}
    (first : Stamped fair p p')
    (second : ∀ value, Stamped fair (f value) (f' value)) :
      Stamped fair (p.bind f) (p'.bind f') := by
  refine Prog.Twin.bind first ?_
  rintro value _ rfl
  exact second value

/-- A result that is not ordered by timestamps is the same. -/
theorem ResultsAlike.eq {op : VaultOp} {result result' : op.Result}
    (alike : ResultsAlike op op result result') (basic : (Ask.call op).Basic) :
      result' = result := by
  cases alike with
  | same => rfl
  | messages | chats | requests => exact basic.elim
  | line | ban | request => rfl

/-- A request of which a walk says nothing. -/
theorem stamped_query {asked : Ask} (basic : asked.Basic) :
    Stamped fair (Prog.query asked) (Prog.query asked) := by
  cases asked with
  | call op =>
      exact .ask (.call (.same op)) fun answer answer' alike => .done (alike.1.eq basic).symm
  | _ => exact .ask (.world _) fun answer answer' alike => .done (eq_of_heq alike).symm

/-- A request whose answer is ordered by timestamps, in an event. -/
theorem stamped_told {op : VaultOp} (told told' : op.Result → Event) :
    Stamped fair (do let found ← call op; emit (told found))
    (do let found ← call op; emit (told' found)) :=
  .ask (.call (.same op)) fun _ _ _ => .ask (.emit _ _) fun _ _ _ => .done rfl

theorem stamped_emit (event event' : Event) : Stamped fair (emit event) (emit event') :=
  .ask (.emit event event') fun _ _ _ => .done rfl

theorem stamped_insertMessage (chat sender text : String) (ts ts' : Int) (outgoing : Bool) :
    Stamped fair (insertMessage chat sender text ts outgoing)
      (insertMessage chat sender text ts' outgoing) := by
  refine Stamped.bind (stamped_query (by trivial)) fun recvTs => ?_
  exact .ask (.call (.line ..)) fun _ _ _ => .done rfl

theorem stamped_isSuspended {now now' : Int} (agree : ∀ deadline, fair deadline →
    (now < deadline ↔ now' < deadline))
    (group user : String) : Stamped fair (isSuspended group user now)
      (isSuspended group user now') := by
  refine .ask (.call (.same _)) fun found found' alike => ?_
  obtain ⟨alike, fairly⟩ := alike
  obtain rfl := alike.eq (by trivial)
  rcases found' with _ | deadline
  · exact .done rfl
  · have same := agree deadline (fairly deadline rfl)
    by_cases early : now < deadline
    · have late : now' < deadline := same.mp early
      simp only [Prog.done_bind, if_pos early, if_pos late]
      exact .done rfl
    · have late : ¬ now' < deadline := fun late => early (same.mpr late)
      simp only [Prog.done_bind, if_neg early, if_neg late]
      exact Stamped.bind (stamped_query (by trivial)) fun _ => .done rfl

/-- The walk of two tasks whose deadlines are fair. -/
def stampWalk (fair : Int → Prop) : Walk where
  rel := Stamped fair
  names _ := True
  clocks now now' := ∀ deadline, fair deadline → (now < deadline ↔ now' < deadline)
  done value := .done rfl
  fail error := .fail error
  bind := Stamped.bind
  attempt := Prog.Twin.attempt
  query := stamped_query
  emitChats _ := stamped_told ..
  emitSystem _ _ _ _ :=
    (stamped_insertMessage ..).bind fun _ => stamped_emit ..
  showText _ _ _ _ _ _ := (stamped_insertMessage ..).bind fun _ => stamped_emit ..
  showDm _ addr text ts ts' newChat := by
    refine Stamped.bind (stamped_insertMessage ..) fun _ => ?_
    cases newChat with
    | true => exact Stamped.bind (stamped_told ..) fun _ => stamped_emit ..
    | false => exact stamped_emit ..
  banUser _ _ _ _ := .ask (.call (.ban ..)) fun _ _ _ => .done rfl
  addJoinRequest _ _ _ _ := .ask (.call (.request ..)) fun _ _ _ => .done rfl
  isSuspended := stamped_isSuspended

/-- Branches that are taken for reasons of their own. -/
theorem stamped_ite {α : Type} {c c' : Prop} [Decidable c] [Decidable c'] {p p' q q' : Client α}
    (bothTrue : Stamped fair p p') (firstTrue : Stamped fair p q') (secondTrue : Stamped fair q p')
    (bothFalse : Stamped fair q q') :
    Stamped fair (if c then p else q) (if c' then p' else q') := by
  split
  · split
    · exact bothTrue
    · exact firstTrue
  · split
    · exact secondTrue
    · exact bothFalse

/-- The lists of pending requests are told, and differ in their order only. -/
theorem stamped_groupInfo (app : App) (group : String) :
    Stamped fair (groupInfo app group) (groupInfo app group) := by
  have walk : (stampWalk fair).Same (activeServer app) := walk_activeServer app
  refine Stamped.bind walk fun server => ?_
  cases server with
  | none => exact .done rfl
  | some server =>
      refine Stamped.bind (stamped_query (by trivial)) fun me =>
        Stamped.bind (stamped_query (by trivial)) fun row => ?_
      cases row with
      | none => exact Stamped.bind (stamped_emit ..) fun _ => .done rfl
      | some row =>
          dsimp only
          split
          · refine .ask (.call (.same _)) fun pending pending' _ => ?_
            dsimp only [Prog.done_bind]
            refine stamped_ite ?_ ?_ ?_ ?_
            all_goals
              refine Stamped.bind (stamped_query (by trivial)) fun bans => ?_
              exact stamped_ite (stamped_emit ..) (stamped_emit ..) (stamped_emit ..)
                (stamped_emit ..)
          · exact stamped_emit ..

/-- The walk of two command tasks. -/
def stampCommands (fair : Int → Prop) : CommandWalk where
  toWalk := stampWalk fair
  metaSet _ _ := .ask (.call (.same _)) fun _ _ _ => .done rfl
  emitHistory _ _ := stamped_told ..
  groupInfo := stamped_groupInfo

end

end Cherm
