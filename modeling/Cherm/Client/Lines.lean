/-
**Which lines a task writes, and how it shows them.**

A row of `messages` is a line of a chat. Four functions write one, and each shows the line it wrote
with a live event; `emitHistory` shows the lines it read. A task has a `Pen`: what is left of the
line it wrote last.

* `Clerk.Demand` says what a task may do with its pen: a line of the sender `System` is shown with
  the flag by the very next request, as `emitSystem` does; any other line is shown without the flag.
* `Lines` are the programs that put the pen down in the end. They are a `Walk`: `lineWalk` for what
  the tasks share, if no text is shown under the name of `System`, and `lineCommands` for the
  command task, the only one that names the client.
-/

import Cherm.Client.CommandWalk
import Cherm.Lib.Crew

namespace Cherm

open Crates

/-- A line of a chat. -/
structure Line where
  chat : String
  «from» : String
  text : String
  ts : Int
  outgoing : Bool
deriving DecidableEq, Repr

/-- A stored message as a line. -/
def MessageRow.line (row : MessageRow) : Line :=
  ⟨row.chatId, row.sender, row.body, row.ts, row.outgoing⟩

/-- The rendering of a history: the `system` flag of a line is whether its sender is `System`. -/
def Line.system (line : Line) : Bool := line.from == "System"

/-- The lines of a history event. -/
def historyLines (chat : String) (messages : List (String × String × Int × Bool)) : List Line :=
  messages.map fun (sender, body, ts, outgoing) => ⟨chat, sender, body, ts, outgoing⟩

/-- What is left of the line a task wrote last: nothing, the whole line as it was written by the
last request, or the live event it owes. -/
inductive Pen where
  | idle
  | wrote (line : Line)
  | owes (line : Line)
deriving DecidableEq, Repr

/-- What a task has at hand: its pen, the lines it read last, and the name of the client. -/
structure Clerk where
  pen : Pen
  read : List Line
  name : Option String

/-- A line of `System` is shown at once. -/
def Pen.Open (pen : Pen) : Prop := ∀ line, pen = .wrote line → line.system = false

/-- The pen is down. -/
def Clerk.Done (clerk : Clerk) : Prop := clerk.pen = .idle

theorem Clerk.Done.isOpen {clerk : Clerk} (done : clerk.Done) : clerk.pen.Open := fun line wrote => by
  rw [show clerk.pen = .idle from done] at wrote
  cases wrote

section

variable [Crates]

/-- What is to be shown after a request. -/
def Pen.next (pen : Pen) : Ask → Pen
  | .call (.insertMessage chat sender text ts outgoing _) =>
      .wrote ⟨chat, sender, text, ts, outgoing⟩
  | .emit (.message ..) => .idle
  | _ => match pen with
    | .wrote line => .owes line
    | pen => pen

/-- The lines a task has read, after one more request. -/
def readLines (read : List Line) : (asked : Ask) → asked.Answer → List Line
  | .call (.getMessages chat _), messages => historyLines chat messages
  | _, _ => read

/-- The requests that a task may make. -/
def Clerk.Demand (task : Option Nat) (asked : Ask) (clerk : Clerk) : Prop :=
  match asked with
  | .call (.insertMessage ..) => clerk.pen = .idle
  | .call (.metaSet key _) => (key = "username" → task = none) ∧ clerk.pen.Open
  | .emit (.message chat sender text ts outgoing system) =>
      let line : Line := ⟨chat, sender, text, ts, outgoing⟩
      clerk.pen = .wrote line ∧ system = line.system ∨
        clerk.pen = .owes line ∧ system = false ∧ line.system = false
  | .emit (.history chat messages) => historyLines chat messages = clerk.read ∧ clerk.pen.Open
  | _ => clerk.pen.Open

/-- The name the client is asked for is its own. -/
def Clerk.Named (clerk : Clerk) : (asked : Ask) → asked.Answer → Prop
  | .call (.metaGet key), value => key = "username" → value = clerk.name
  | _, _ => True

/-- What a request leaves at hand. -/
structure Clerk.Follows (asked : Ask) (clerk : Clerk) (answer : asked.Answer) (clerk' : Clerk) :
    Prop where
  pen : clerk'.pen = clerk.pen.next asked
  read : clerk'.read = readLines clerk.read asked answer
  named : clerk.Named asked answer

/-- The others leave what a task has at hand; nobody else names the client while the command task is
at work. -/
structure Clerk.Rely (task : Option Nat) (clerk clerk' : Clerk) : Prop where
  pen : clerk'.pen = clerk.pen
  read : clerk'.read = clerk.read
  named : task = none → clerk'.name = clerk.name

/-- The rule of a task: each line that it shows was written just before. -/
def clerkSpec (task : Option Nat) : Prog.Spec Clerk Ask Ask.Answer where
  demand := Clerk.Demand task
  step := Clerk.Follows

/-- The specification of a task amid the others. -/
def lineSpec (task : Option Nat) : Prog.Spec Clerk Ask Ask.Answer :=
  (clerkSpec task).under (Clerk.Rely task)

/-- Programs that put the pen down in the end. -/
def Lines {α : Type} (task : Option Nat) (prog : Client α) : Prop :=
  Prog.Keeps (lineSpec task) Clerk.Done prog

/-! ### Single requests -/

/-- Requests that write no line, show none and do not name the client. -/
def Ask.Lineless : Ask → Prop
  | .call (.insertMessage ..) | .call (.metaSet ..) => False
  | .emit (.message ..) | .emit (.history ..) => False
  | _ => True

section

variable {asked : Ask} {clerk clerk' : Clerk} {task : Option Nat}

theorem Ask.Lineless.demand (lineless : asked.Lineless) (isOpen : clerk.pen.Open) :
    clerk.Demand task asked := by
  cases asked with
  | call op =>
      cases op with
      | insertMessage chat sender text ts outgoing recvTs => exact lineless.elim
      | metaSet key value => exact lineless.elim
      | _ => exact isOpen
  | emit event =>
      cases event with
      | message chat sender text ts outgoing system => exact lineless.elim
      | history chat messages => exact lineless.elim
      | _ => exact isOpen
  | _ => exact isOpen

theorem Ask.Lineless.next (lineless : asked.Lineless) (pen : Pen) :
    pen.next asked = match pen with
      | .wrote line => .owes line
      | pen => pen := by
  cases asked with
  | call op =>
      cases op with
      | insertMessage chat sender text ts outgoing recvTs => exact lineless.elim
      | _ => rfl
  | emit event =>
      cases event with
      | message chat sender text ts outgoing system => exact lineless.elim
      | _ => rfl
  | _ => rfl

theorem lines_ask {α : Type} {next : asked.Answer → Client α} (lineless : asked.Lineless)
    (rest : ∀ answer, Lines task (next answer)) : Lines task (.ask asked next) := by
  refine Prog.keeps_ask (fun clerk done clerk' others => ?_)
    (fun clerk answer clerk'' done made => ?_) rest
  · exact lineless.demand (others.pen ▸ done.isOpen)
  · obtain ⟨clerk', others, follows⟩ := made
    show clerk''.pen = .idle
    rw [follows.pen, others.pen, show clerk.pen = .idle from done, lineless.next]

theorem lines_done {α : Type} (value : α) : Lines task (.done value) := Prog.keeps_done value

theorem lines_fail {α : Type} (error : String) : Lines task (.fail error : Client α) :=
  Prog.keeps_fail error

namespace Client

/-! ### The writers -/

/-- A line is written, and the task goes on with it in hand. -/
theorem wp_written {α : Type} {chat sender text : String} {ts : Int} {outgoing : Bool}
    {next : Unit → Client α} {post : Except String α → Clerk → Prop} (done : clerk.Done)
    (shown : ∀ clerk : Clerk, clerk.pen = .wrote ⟨chat, sender, text, ts, outgoing⟩ →
      Prog.wp (lineSpec task) post (next ()) clerk) :
    Prog.wp (lineSpec task) post ((insertMessage chat sender text ts outgoing).bind next)
      clerk := by
  refine ⟨fun clerk' others => Clerk.Done.isOpen (others.pen.trans done),
    fun recvTs clerk' made => ?_⟩
  obtain ⟨clerk₁, others, follows⟩ := made
  have still : clerk'.pen = .idle := by
    rw [follows.pen, others.pen, show clerk.pen = .idle from done]
    rfl
  refine ⟨fun clerk₂ others => others.pen.trans still, fun answer clerk'' made => ?_⟩
  obtain ⟨clerk₂, _, follows⟩ := made
  exact shown clerk'' follows.pen

/-- The line in hand is shown, and the pen is down. -/
theorem wp_shown {α : Type} {chat sender text : String} {ts : Int} {outgoing system : Bool}
    {next : Unit → Client α} {post : Except String α → Clerk → Prop}
    (allowed : ∀ clerk' : Clerk, clerk'.pen = clerk.pen →
      clerk'.Demand task (.emit (.message chat sender text ts outgoing system)))
    (rest : ∀ clerk : Clerk, clerk.Done → Prog.wp (lineSpec task) post (next ()) clerk) :
    Prog.wp (lineSpec task) post
      ((emit (.message chat sender text ts outgoing system)).bind next) clerk := by
  refine ⟨fun clerk' others => allowed clerk' others.pen, fun answer clerk' made => ?_⟩
  obtain ⟨clerk₁, _, follows⟩ := made
  exact rest clerk' follows.pen

/-- `emitSystem` shows its line at once, with the flag. -/
theorem lines_emitSystem (chat text : String) (ts : Int) :
    Lines task (emitSystem chat text ts) := by
  intro clerk done
  refine wp_written done fun clerk wrote => ?_
  exact wp_shown (fun clerk' same => .inl ⟨same.trans wrote, rfl⟩) fun clerk done => done

/-- A text of anyone but `System`, shown at once. -/
theorem lines_showText {sender : String} (named : sender ≠ "System") (chat text : String) (ts : Int)
    (outgoing : Bool) : Lines task (showText chat sender text ts outgoing) := by
  intro clerk done
  refine wp_written done fun clerk wrote => ?_
  refine wp_shown (fun clerk' same => .inl ⟨same.trans wrote, ?_⟩) fun clerk done => done
  simp [Line.system, named]

/-- The chat list of a new chat comes between the line and its live event. -/
theorem lines_showDm {sender : String} (named : sender ≠ "System") (addr text : String) (ts : Int)
    (newChat : Bool) : Lines task (showDm addr sender text ts newChat) := by
  intro clerk done
  refine wp_written done fun clerk wrote => ?_
  have flag : (⟨sender, sender, text, ts, false⟩ : Line).system = false := by
    simp [Line.system, named]
  have shown : ∀ {clerk : Clerk}, (clerk.pen = .wrote ⟨sender, sender, text, ts, false⟩ ∨
      clerk.pen = .owes ⟨sender, sender, text, ts, false⟩) →
      Prog.wp (lineSpec task) (fun _ => Clerk.Done)
        (emit (.message sender sender text ts false false)) clerk := by
    intro clerk inHand
    refine wp_shown (fun clerk' same => ?_) fun clerk done => done
    exact inHand.imp (fun wrote => ⟨same.trans wrote, flag.symm⟩)
      fun owes => ⟨same.trans owes, rfl, flag⟩
  cases newChat with
  | false => exact shown (.inl wrote)
  | true =>
      refine ⟨fun clerk' others line wrote' => ?_, fun rows clerk₁ made => ?_⟩
      · obtain rfl := Pen.wrote.inj ((others.pen.trans wrote).symm.trans wrote')
        exact flag
      obtain ⟨_, others, follows⟩ := made
      have owes : clerk₁.pen = .owes ⟨sender, sender, text, ts, false⟩ := by
        rw [follows.pen, others.pen, wrote]
        rfl
      refine ⟨fun clerk' others line wrote' => ?_, fun _ clerk₂ made => ?_⟩
      · rw [others.pen, owes] at wrote'
        cases wrote'
      obtain ⟨_, others, follows⟩ := made
      refine shown (.inr ?_)
      rw [follows.pen, others.pen, owes]
      rfl

theorem lines_emitHistory (chat : String) (limit : Int) : Lines task (emitHistory chat limit) := by
  intro clerk done
  refine ⟨fun clerk' others => Clerk.Done.isOpen (others.pen.trans done),
    fun messages clerk' made => ?_⟩
  obtain ⟨clerk₁, others, follows⟩ := made
  have still : clerk'.pen = .idle := by
    rw [follows.pen, others.pen, show clerk.pen = .idle from done]
    rfl
  refine ⟨fun clerk₂ others => ⟨?_, others.pen ▸ Clerk.Done.isOpen still⟩,
    fun answer clerk'' made => ?_⟩
  · rw [others.read, follows.read]
    rfl
  · obtain ⟨clerk₂, others, follows⟩ := made
    show clerk''.pen = .idle
    rw [follows.pen, others.pen, still]
    rfl

/-! ### The walk -/

theorem lineless_of_basic (basic : asked.Basic) : asked.Lineless := by
  cases asked with
  | call op => cases op <;> first | exact basic.elim | trivial
  | emit event => cases event <;> first | exact basic.elim | trivial
  | _ => trivial

/-- Programs that put the pen down, if no text is shown under the name of `System`. -/
def lineWalk (task : Option Nat) : Walk where
  rel prog _ := Lines task prog
  names sender := sender ≠ "System"
  clocks _ _ := True
  done := lines_done
  fail := lines_fail
  bind first second := Prog.Keeps.bind first second
  attempt lines := Prog.Keeps.attempt lines
  query basic := lines_ask (lineless_of_basic basic) lines_done
  emitChats _ := lines_ask (by trivial) fun _ => lines_ask (by trivial) lines_done
  emitSystem chat text ts _ := lines_emitSystem chat text ts
  showText named chat text ts _ outgoing := lines_showText named chat text ts outgoing
  showDm named addr text ts _ newChat := lines_showDm named addr text ts newChat
  banUser _ _ _ _ := lines_ask (by trivial) lines_done
  addJoinRequest _ _ _ _ := lines_ask (by trivial) lines_done
  isSuspended _ group user := by
    refine lines_ask (by trivial) fun deadline => ?_
    cases deadline with
    | none => exact lines_done _
    | some untilTs =>
        dsimp only [Prog.done_bind]
        split
        · exact lines_done _
        · exact lines_ask (by trivial) fun _ => lines_done _

/-- The command task names the client. -/
theorem lines_metaSet (key value : String) : Lines none (call (.metaSet key value)) := by
  refine Prog.keeps_ask (fun clerk done clerk' others => ⟨fun _ => rfl, ?_⟩)
    (fun clerk answer clerk'' done made => ?_) lines_done
  · exact Clerk.Done.isOpen (others.pen.trans done)
  · obtain ⟨clerk', others, follows⟩ := made
    show clerk''.pen = .idle
    rw [follows.pen, others.pen, show clerk.pen = .idle from done]
    rfl

theorem lines_groupInfo (app : App) (group : String) : Lines none (groupInfo app group) := by
  have told : ∀ msg, Lines none (emit (.info msg)) := fun _ => lines_ask (by trivial) lines_done
  refine @walk_withServer _ (lineWalk none) app _ fun server => ?_
  refine lines_ask (by trivial) fun me => lines_ask (by trivial) fun row => ?_
  cases row with
  | none => exact lines_ask (by trivial) lines_done
  | some row =>
      dsimp only [Prog.done_bind]
      split
      · refine lines_ask (by trivial) fun pending => ?_
        dsimp only [Prog.done_bind]
        split <;> refine lines_ask (by trivial) fun bans => ?_ <;> dsimp only [Prog.done_bind] <;>
          split <;> exact told _
      · exact told _

/-- Every command keeps the rule. -/
def lineCommands : CommandWalk where
  toWalk := lineWalk none
  metaSet := lines_metaSet
  emitHistory := lines_emitHistory
  groupInfo := lines_groupInfo

/-- A client that is not called `System` writes its own lines under its own name. -/
theorem wp_send (app : App) (chat text : String) {clerk : Clerk} (done : clerk.Done)
    (named : clerk.name ≠ some "System") :
    Prog.wp (lineSpec none) (fun _ => Clerk.Done) (send app chat text) clerk := by
  rw [send_eq]
  unfold activeServer
  cases app.active with
  | none =>
      have silent : Lines none (emit (.error "not_connected" "no active server")) :=
        lines_ask (by trivial) lines_done
      exact (silent.bind fun _ => lines_done _) clerk done
  | some server =>
      refine ⟨fun clerk' others => Clerk.Done.isOpen (others.pen.trans done),
        fun answer clerk' made => ?_⟩
      obtain ⟨clerk₁, others, follows⟩ := made
      have still : clerk'.Done := by
        show clerk'.pen = .idle
        rw [follows.pen, others.pen, show clerk.pen = .idle from done]
        rfl
      have own : answer = clerk.name := (follows.named rfl).trans (others.named rfl)
      cases answer with
      | none => exact lines_ask (by trivial) lines_done clerk' still
      | some me =>
          have named : lineCommands.names me := fun system => named (by rw [← own, system])
          exact walk_sendAs named app chat text clerk' still

/-- **A frame** writes lines of `System` with `emitSystem` only, unless it is a text from `System`.
-/
theorem lines_processFrame (ctx : ProcCtx) {inc : Incoming}
    (named : inc.msgType ∈ textKinds → inc.from ≠ "System") : Lines task (processFrame ctx inc) :=
  @walk_processFrame _ (lineWalk task) ctx inc inc.clientTs named fun _ => trivial

/-- **A command** writes lines of `System` with `emitSystem` only, unless a client of that name
sends. -/
theorem wp_runCommand_lines (app : App) (command : Command) {clerk : Clerk} (done : clerk.Done)
    (named : ∀ chat text, command = .send chat text → clerk.name ≠ some "System") :
    Prog.wp (lineSpec none) (fun _ => Clerk.Done) (runCommand app command) clerk := by
  have handled : Prog.wp (lineSpec none) (fun _ => Clerk.Done) (handle app command) clerk := by
    by_cases sends : ∃ chat text, command = .send chat text
    · obtain ⟨chat, text, rfl⟩ := sends
      exact wp_send app chat text done (named chat text rfl)
    · exact @walk_handle _ lineCommands app command (fun chat text same => sends ⟨chat, text, same⟩)
        clerk done
  have tried : Prog.wp (lineSpec none) (fun _ => Clerk.Done) (handle app command).attempt clerk :=
    (Prog.wp_attempt _ _ _).mpr handled
  refine Prog.wp_then tried (fun result clerk' after => ?_) fun _ _ after => after
  cases result with
  | ok _ => exact after
  | error e => exact lines_ask (by trivial) lines_done clerk' after

end Client

end

end

end Cherm
