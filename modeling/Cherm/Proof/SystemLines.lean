/-
**System lines.**

The command task and the processors share a vault. The `Screen` keeps, beside the vault, the lines
that were written, each with a mark whether `emit_system` wrote it, and the lines that the live and
the history events showed, each with its flag.

* A line is `emit_system`'s if the next request of the task that wrote it is the live event of the
  line with the flag: this is the rest of the function, and no other function sets the flag.
* `Screen.Genuine`: a line is `emit_system`'s if and only if its sender is `System`, and every
  event, live or of a history, gives the line the flag that says so.
* `system_lines_genuine`: it is so in every run without texts from `System`, be it the relay's or a
  client's of that name. `forged_system_line`: such a text makes a history show a forged line.
-/

import Cherm.Client.Asks
import Cherm.Client.Lines
import Cherm.Client.Engine
import Cherm.Ideal

namespace Cherm

open Crates Client

section

variable [Crates]

/-- The request is the rest of `emit_system` for the line. -/
def Ask.Flags (line : Line) : Ask → Bool
  | .emit (.message chat sender text ts outgoing true) =>
      line = ⟨chat, sender, text, ts, outgoing⟩
  | _ => false

/-- The vault, the lines written, with the mark of `emit_system`, the lines shown, with their flag,
and what each task has at hand. -/
structure Screen where
  vault : Vault
  rows : List (Line × Bool)
  live : List (Line × Bool)
  history : List (Line × Bool)
  pen : Option Handle → Pen
  read : Option Handle → List Line

namespace Screen

/-- Nothing has been written yet. -/
def fresh (v : Vault) : Screen := ⟨v, [], [], [], fun _ => .idle, fun _ => []⟩

/-- The lines that a request shows with a live event. -/
def liveLines : Ask → List (Line × Bool)
  | .emit (.message chat sender text ts outgoing system) =>
      [(⟨chat, sender, text, ts, outgoing⟩, system)]
  | _ => []

/-- The lines that a request shows with a history event. -/
def shownLines : Ask → List (Line × Bool)
  | .emit (.history chat messages) =>
      (historyLines chat messages).map fun line => (line, line.system)
  | _ => []

/-- The line that a task wrote last, marked by its next request. -/
def marked (pen : Pen) (asked : Ask) : List (Line × Bool) :=
  match pen with
  | .wrote line => [(line, asked.Flags line)]
  | _ => []

/-- What an answered request of a task leaves on the screen. -/
def note (s : Screen) (task : Option Handle) (asked : Ask) (answer : asked.Answer) (v' : Vault) :
    Screen where
  vault := v'
  rows := s.rows ++ marked (s.pen task) asked
  live := s.live ++ liveLines asked
  history := s.history ++ shownLines asked
  pen := Function.update s.pen task ((s.pen task).next asked)
  read := Function.update s.read task (readLines (s.read task) asked answer)

/-- The line is one whose writer is known by its sender, or was written by the last request of some
task. -/
def Accounted (s : Screen) (line : Line) : Prop :=
  (line, line.system) ∈ s.rows ∨ ∃ task, s.pen task = .wrote line

/-- The flag of every line, live or in a history, says whether `emit_system` wrote the line. -/
structure Genuine (s : Screen) : Prop where
  rows : ∀ line byEmitSystem, (line, byEmitSystem) ∈ s.rows → byEmitSystem = line.system
  stored : ∀ row ∈ s.vault.messages, s.Accounted row.line
  live : ∀ line flag, (line, flag) ∈ s.live → (line, flag) ∈ s.rows
  history : ∀ line flag, (line, flag) ∈ s.history → flag = line.system ∧ s.Accounted line

/-- What the tasks have at hand is accounted for. -/
structure Kept (s : Screen) : Prop extends s.Genuine where
  owed : ∀ task line, s.pen task = .owes line → (line, false) ∈ s.rows
  read : ∀ task, ∀ line ∈ s.read task, s.Accounted line

/-- What a task has at hand. -/
def clerk (s : Screen) (task : Option Handle) : Clerk where
  pen := s.pen task
  read := s.read task
  name := s.vault.metaGet "username"

end Screen

/-- A text, from anyone but `System`. -/
def PlainFrame (inc : Incoming) : Prop := inc.msgType ∈ textKinds → inc.from ≠ "System"

/-- A command, but no `send` of a client called `System`. -/
def PlainCommand (command : Command) (v : Vault) : Prop :=
  ∀ chat text, command = .send chat text → v.metaGet "username" ≠ some "System"

/-- The tasks of a vault: commands one after the other, and the frames of each connection. -/
def screenCrew (frames : Incoming → Prop) (commands : Command → Vault → Prop) :
    Crew (Option Handle) Screen Ask Ask.Answer String Unit where
  act task asked s answer s' :=
    ∃ v', Ask.effect asked s.vault answer v' ∧ s' = s.note task asked answer v'
  begins task prog s s' := s' = s ∧ match task with
    | none => ∃ app command, commands command s.vault ∧ prog = runCommand app command
    | some _ => ∃ ctx inc, frames inc ∧ prog = processFrame ctx inc
  ends _ _ s s' := s' = s
  drift _ _ := False

/-! ### One request -/

section

variable {s : Screen} {task : Option Handle} {asked : Ask} {answer : asked.Answer} {v' : Vault}

/-- The next request says who wrote the line. -/
theorem flags_of_demand {clerk : Clerk} {line : Line} (demand : clerk.Demand task asked)
    (wrote : clerk.pen = .wrote line) : asked.Flags line = line.system := by
  have plain : clerk.pen.Open → line.system = false := fun isOpen => isOpen line wrote
  cases asked with
  | call op =>
      cases op with
      | insertMessage chat sender text ts outgoing recvTs =>
          cases wrote.symm.trans (demand : clerk.pen = .idle)
      | metaSet key value => exact (plain demand.2).symm
      | _ => exact (plain demand).symm
  | emit event =>
      cases event with
      | message chat sender text ts outgoing system =>
          rcases demand with ⟨same, flag⟩ | ⟨owes, _⟩
          · obtain rfl := Pen.wrote.inj (wrote.symm.trans same)
            rw [← flag]
            cases system with
            | true => simp [Ask.Flags]
            | false => rfl
          · cases wrote.symm.trans owes
      | history chat messages => exact (plain demand.2).symm
      | _ => exact (plain demand).symm
  | _ => exact (plain demand).symm

theorem Screen.Accounted.note (demand : (s.clerk task).Demand task asked) {line : Line}
    (accounted : s.Accounted line) : (s.note task asked answer v').Accounted line := by
  rcases accounted with known | ⟨other, wrote⟩
  · exact .inl (List.mem_append_left _ known)
  by_cases same : other = task
  · subst same
    refine .inl (List.mem_append_right _ ?_)
    rw [wrote]
    show (line, line.system) ∈ [(line, asked.Flags line)]
    rw [flags_of_demand demand wrote]
    exact List.mem_singleton_self _
  · refine .inr ⟨other, ?_⟩
    show Function.update s.pen task _ other = _
    rw [Function.update_of_ne same]
    exact wrote

/-- A row is an old one, or the one that is written. -/
theorem messages_exec {op : VaultOp} {v : Vault} {row : MessageRow}
    (stored : row ∈ (op.exec v).2.messages) :
    row ∈ v.messages ∨ ∃ recvTs, op = .insertMessage row.chatId row.sender row.body row.ts
      row.outgoing recvTs := by
  by_cases writes : op.Writes .messages row.chatId
  · cases op with
    | insertMessage chat sender text ts outgoing recvTs =>
        rcases List.mem_append.mp (stored : row ∈ v.messages ++ [_]) with old | new
        · exact .inl old
        · obtain rfl := List.mem_singleton.mp new
          exact .inr ⟨recvTs, rfl⟩
    | deleteChat chat => exact .inl (List.mem_filter.mp stored).1
    | _ => simp [VaultOp.Writes] at writes
  · have same := op.exec_frame v .messages row.chatId writes
    have here : row ∈ v.messages.filter (·.chatId = row.chatId) := by
      rw [← (same : (op.exec v).2.messages.filter (·.chatId = row.chatId) = _)]
      exact List.mem_filter.mpr ⟨stored, by simp⟩
    exact .inl (List.mem_filter.mp here).1

/-- A history shows lines of the vault. -/
theorem historyLines_stored {v : Vault} {chat : String} {limit : Int} {line : Line}
    (shown : line ∈ historyLines chat (v.getMessages chat limit)) :
    ∃ row ∈ v.messages, row.line = line := by
  obtain ⟨message, listed, rfl⟩ := List.mem_map.mp shown
  unfold Vault.getMessages at listed
  obtain ⟨row, kept, rfl⟩ := List.mem_map.mp (List.mem_reverse.mp listed)
  have sorted : row ∈ (v.messages.filter (·.chatId = chat)).mergeSort fun a b =>
      decide (b.recvTs < a.recvTs) || (decide (a.recvTs = b.recvTs) && decide (b.id ≤ a.id)) := by
    split at kept
    · exact kept
    · exact List.mem_of_mem_take kept
  obtain ⟨stored, here⟩ := List.mem_filter.mp (List.mem_mergeSort.mp sorted)
  refine ⟨row, stored, ?_⟩
  rw [MessageRow.line, of_decide_eq_true here]

/-- What a marked line was: the one in hand. -/
theorem mem_marked {pen : Pen} {line : Line} {mark : Bool}
    (member : (line, mark) ∈ Screen.marked pen asked) :
    pen = .wrote line ∧ mark = asked.Flags line := by
  cases pen with
  | wrote line' =>
      obtain ⟨rfl, rfl⟩ := Prod.mk.inj (List.mem_singleton.mp member)
      exact ⟨rfl, rfl⟩
  | _ => cases member

/-- A line that is owed was owed before, or was in hand and is marked as anyone's. -/
theorem next_owes {pen : Pen} {line : Line} (owes : pen.next asked = .owes line) :
    pen = .owes line ∨ pen = .wrote line ∧ asked.Flags line = false := by
  have later : (match pen with
      | .wrote line => Pen.owes line
      | pen => pen) = .owes line → pen = .owes line ∨ pen = .wrote line := by
    intro same
    cases pen with
    | wrote line' => exact .inr (congrArg Pen.wrote (Pen.owes.inj same))
    | _ => exact .inl same
  cases asked with
  | call op =>
      cases op with
      | insertMessage chat sender text ts outgoing recvTs => cases owes
      | _ => exact (later owes).imp_right fun wrote => ⟨wrote, rfl⟩
  | emit event =>
      cases event with
      | message chat sender text ts outgoing system => cases owes
      | _ => exact (later owes).imp_right fun wrote => ⟨wrote, rfl⟩
  | _ => exact (later owes).imp_right fun wrote => ⟨wrote, rfl⟩

/-- **One request** keeps the screen genuine. -/
theorem Screen.Kept.note (kept : s.Kept) (demand : (s.clerk task).Demand task asked)
    (made : Ask.effect asked s.vault answer v') : (s.note task asked answer v').Kept where
  rows line mark member := by
    rcases List.mem_append.mp member with old | new
    · exact kept.rows line mark old
    · obtain ⟨wrote, rfl⟩ := mem_marked new
      exact flags_of_demand demand wrote
  stored row stored := by
    have old : row ∈ s.vault.messages → (s.note task asked answer v').Accounted row.line :=
      fun stored => (kept.stored row stored).note demand
    cases asked with
    | call op =>
        obtain ⟨_, rfl⟩ := Prod.mk.inj (made : (answer, v') = op.exec s.vault)
        rcases messages_exec stored with before | ⟨recvTs, rfl⟩
        · exact old before
        · exact .inr ⟨task, Function.update_self ..⟩
    | _ =>
        obtain ⟨_, rfl⟩ := made
        exact old stored
  live line flag member := by
    rcases List.mem_append.mp member with old | new
    · exact List.mem_append_left _ (kept.live line flag old)
    cases asked with
    | emit event =>
        cases event with
        | message chat sender text ts outgoing system =>
            obtain ⟨rfl, rfl⟩ := Prod.mk.inj (List.mem_singleton.mp new)
            have shown := demand
            rcases shown with ⟨wrote, flag⟩ | ⟨owes, rfl, _⟩
            · refine List.mem_append_right _ ?_
              rw [show s.pen task = _ from wrote]
              show _ ∈ [(_, _)]
              rw [flags_of_demand demand wrote, ← flag]
              exact List.mem_singleton_self _
            · exact List.mem_append_left _ (kept.owed task _ owes)
        | _ => cases new
    | _ => cases new
  history line flag member := by
    rcases List.mem_append.mp member with old | new
    · obtain ⟨same, accounted⟩ := kept.history line flag old
      exact ⟨same, accounted.note demand⟩
    cases asked with
    | emit event =>
        cases event with
        | history chat messages =>
            obtain ⟨line', listed, same⟩ := List.mem_map.mp new
            obtain ⟨rfl, rfl⟩ := Prod.mk.inj same
            have read : historyLines chat messages = s.read task := demand.1
            rw [read] at listed
            exact ⟨rfl, (kept.read task _ listed).note demand⟩
        | _ => cases new
    | _ => cases new
  owed other line owes := by
    by_cases same : other = task
    · subst same
      have owes : (s.pen other).next asked = .owes line := (Function.update_self ..).symm.trans owes
      rcases next_owes owes with before | ⟨wrote, plain⟩
      · exact List.mem_append_left _ (kept.owed other line before)
      · refine List.mem_append_right _ ?_
        rw [wrote]
        show _ ∈ [(line, asked.Flags line)]
        rw [plain]
        exact List.mem_singleton_self _
    · have before : s.pen other = .owes line := (Function.update_of_ne same ..).symm.trans owes
      exact List.mem_append_left _ (kept.owed other line before)
  read other line listed := by
    by_cases same : other = task
    · subst same
      have now : (s.note other asked answer v').read other =
          readLines (s.read other) asked answer := Function.update_self ..
      rw [now] at listed
      have before : line ∈ s.read other → (s.note other asked answer v').Accounted line :=
        fun listed => (kept.read other line listed).note demand
      cases asked with
      | call op =>
          cases op with
          | getMessages chat limit =>
              obtain ⟨rfl, rfl⟩ := Prod.mk.inj (made :
                (answer, v') = (s.vault.getMessages chat limit, s.vault))
              obtain ⟨row, stored, rfl⟩ := historyLines_stored listed
              exact (kept.stored row stored).note demand
          | _ => exact before listed
      | _ => exact before listed
    · have now : (s.note task asked answer v').read other = s.read other :=
        Function.update_of_ne same ..
      rw [now] at listed
      exact (kept.read other line listed).note demand

end

/-! ### Every run -/

section

variable {frames : Incoming → Prop} {commands : Command → Vault → Prop}

def screenView (frames : Incoming → Prop) (commands : Command → Vault → Prop) :
    (screenCrew frames commands).View Clerk where
  see task s := s.clerk task
  rely := Clerk.Rely
  spec := clerkSpec
  idle _ clerk := clerk.Done
  ended _ _ clerk := clerk.Done

theorem screenView_steady : (screenView frames commands).Steady where
  refl _ _ := ⟨rfl, rfl, fun _ => rfl⟩
  trans _ _ _ _ first second := ⟨second.pen.trans first.pen, second.read.trans first.read,
    fun isCommand => (second.named isCommand).trans (first.named isCommand)⟩
  idle _ _ _ done others := others.pen.trans done
  ended _ _ _ _ done others := others.pen.trans done

theorem screenView_sound (plainFrames : ∀ inc, frames inc → PlainFrame inc)
    (plainCommands : ∀ command v, commands command v → PlainCommand command v) :
    (screenView frames commands).Sound Screen.Kept where
  steady := screenView_steady
  begins task prog s s' kept done begins := by
    obtain ⟨rfl, begun⟩ := begins
    refine ⟨?_, kept, fun _ _ => ⟨rfl, rfl, fun _ => rfl⟩⟩
    cases task with
    | none =>
        obtain ⟨app, command, accepted, rfl⟩ := begun
        exact wp_runCommand_lines app command done fun chat text =>
          plainCommands command _ accepted chat text
    | some conn =>
        obtain ⟨ctx, inc, accepted, rfl⟩ := begun
        exact lines_processFrame ctx (plainFrames inc accepted) _ done
  acts task asked s answer s' kept demand made := by
    obtain ⟨v', made, rfl⟩ := made
    refine ⟨⟨Function.update_self .., Function.update_self .., ?_⟩, kept.note demand made,
      fun other apart => ⟨Function.update_of_ne apart .., Function.update_of_ne apart .., ?_⟩⟩
    · cases asked with
      | call op =>
          cases op with
          | metaGet key =>
              rintro rfl
              exact (Prod.mk.inj (made : (answer, v') = (s.vault.metaGet "username", s.vault))).1
          | _ => trivial
      | _ => trivial
    · rintro rfl
      refine Ask.effect_username made fun name names => ?_
      subst names
      exact apart (demand.1 rfl).symm
  ends task result s s' kept done ends := by
    obtain rfl : s' = s := ends
    exact ⟨done, kept, fun _ _ => ⟨rfl, rfl, fun _ => rfl⟩⟩
  drift _ _ _ drifts := drifts.elim

/-- **System lines cannot be forged** where no text comes from `System`. In every run of commands
and frames, whatever the relay and the user interleave: the lines whose sender is `System` are
those that `emit_system` wrote, and the flag of every live event and of every line of a history says
whether it did. -/
theorem system_lines_genuine (plainFrames : ∀ inc, frames inc → PlainFrame inc)
    (plainCommands : ∀ command v, commands command v → PlainCommand command v) {start : Vault}
    (unwritten : start.messages = [])
    {state : Crew.State (Option Handle) Screen Ask Ask.Answer String Unit}
    (reached : Relation.ReflTransGen (screenCrew frames commands).Next
      (fun _ => none, Screen.fresh start) state) :
    state.2.Genuine := by
  have before : (Screen.fresh start).Kept :=
    { rows := nofun
      stored := fun row stored => by
        rw [show (Screen.fresh start).vault.messages = [] from unwritten] at stored
        cases stored
      live := nofun
      history := nofun
      owed := nofun
      read := nofun }
  exact ((screenView_sound plainFrames plainCommands).reached reached (fun _ => rfl)
    (fun _ => rfl) before).1.toGenuine

end

end

namespace Ideal

/-- The machine of a task that keeps the screen. -/
def playScreen (task : Option Handle) : Prog.Machine Screen Ask Ask.Answer := fun asked s =>
  let (answer, v') := Ask.play world asked s.vault
  (answer, s.note task asked answer v')

theorem playScreen_conforms {frames : Incoming → Prop} {commands : Command → Vault → Prop}
    (task : Option Handle) (asked : Ask) (s : Screen) :
    (screenCrew frames commands).act task asked s (playScreen task asked s).1
      (playScreen task asked s).2 :=
  ⟨_, Ask.play_conforms (fun _ => trivial) asked s.vault, rfl⟩

/-- The screen after a frame. -/
def shownFrame (inc : Incoming) (s : Screen) : Screen :=
  (Prog.run (playScreen (some 0)) (processFrame ⟨"alice", "relay"⟩ inc) s).2

theorem shownFrame_reached {frames : Incoming → Prop} {commands : Command → Vault → Prop}
    {inc : Incoming} (accepted : frames inc) (s : Screen) :
    Relation.ReflTransGen (screenCrew frames commands).Next (fun _ => none, s)
      (fun _ => none, shownFrame inc s) :=
  Crew.runs_next (i := some 0) rfl ⟨rfl, ⟨"alice", "relay"⟩, inc, accepted, rfl⟩
    (Prog.run_runs (playScreen_conforms (some 0)) _ s) rfl

/-- A member of a group, and the words of its first message. -/
def groupFrame (sender msgType text : String) : Incoming where
  «from» := sender
  msgType := msgType
  payload := b64Encode (groupEncrypt (⟨5, 0⟩ : GroupSession) (utf8 text)).1
  groupId := some "g1"
  clientTs := 0

/-- A vault that has the sender's session. -/
def knows (sender : String) : Vault :=
  Vault.empty.saveGroupIn "g1" sender (⟨5, 0⟩ : InboundGroupSession)

/-- The line that Carol left is `emit_system`'s. -/
theorem carol_left_genuine :
    (shownFrame (groupFrame "carol" MsgType.megolmSystem "left")
      (.fresh (knows "carol"))).Genuine := by
  have plain : PlainFrame (groupFrame "carol" MsgType.megolmSystem "left") := fun _ =>
    show "carol" ≠ "System" by decide
  have reached := @shownFrame_reached PlainFrame PlainCommand _ plain (.fresh (knows "carol"))
  exact system_lines_genuine (fun _ => id) (fun _ _ => id) rfl reached

/-- What the relay says `System` wrote. -/
def forgedLine : Line := ⟨"g1", "System", "mallory is the owner now", 0, false⟩

def forgedFrame : Incoming := groupFrame "System" MsgType.megolm "mallory is the owner now"

/-- Alice reads the group's history after the frame. -/
def forgedHistory : Screen :=
  (Prog.run (playScreen none) (runCommand ⟨some "relay", true, "", ""⟩ (.history "g1" none))
    (shownFrame forgedFrame (.fresh (knows "System")))).2

theorem forged_line_shown :
    (forgedLine, true) ∈ forgedHistory.history ∧ (forgedLine, false) ∈ forgedHistory.live ∧
      (forgedLine, false) ∈ forgedHistory.rows := by
  decide +kernel

/-- **A forged line.** A text that the relay says is from `System` is shown live without the flag,
and in the history with it. -/
theorem forged_system_line :
    ∃ state : Crew.State (Option Handle) Screen Ask Ask.Answer String Unit,
      Relation.ReflTransGen (screenCrew (fun _ => True) fun _ _ => True).Next
        (fun _ => none, .fresh (knows "System")) state ∧
      (forgedLine, true) ∈ state.2.history ∧ (forgedLine, false) ∈ state.2.live ∧
        ¬ state.2.Genuine := by
  refine ⟨(fun _ => none, forgedHistory), ?_, forged_line_shown.1, forged_line_shown.2.1,
    fun genuine => ?_⟩
  · have frame := @shownFrame_reached (fun _ => True) (fun _ _ => True) forgedFrame trivial
      (.fresh (knows "System"))
    refine frame.trans ?_
    exact Crew.runs_next (i := none) rfl ⟨rfl, ⟨some "relay", true, "", ""⟩, .history "g1" none,
      trivial, rfl⟩ (Prog.run_runs (playScreen_conforms none) _ _) rfl
  · exact absurd (genuine.rows _ _ forged_line_shown.2.2) (by decide)

end Ideal

end Cherm
