/-
**What a key leaves alone.**

Most keys move a selection, change the screen or edit a text. `Quiet` says that the connection, the
chats and the verdict stay as they are, and that what is sent neither connects nor is a message.

* one lemma for each screen's keys;
* `onKey_cases`: what any key does: nothing of these, or one of six things.
-/

import Cherm.Tui.Update

set_option linter.unusedSectionVars false

namespace ChermTui

section

variable [Terminal]

/-- The connection. -/
def Model.link (m : Model) : String × Bool × Option Maintenance × Bool :=
  (m.serverAddr, m.connected, m.maintenance, m.waitingForServer)

/-- The sidebar and the open conversation. -/
def Model.talk (m : Model) :
    List ChatState × List Nat × Table String Nat × String × List Message :=
  (m.chatStates, m.chats, m.chatByID, m.current, m.viewport)

/-- The verdict and its countdown. -/
def Model.countdown (m : Model) : Attest × Int × Bool :=
  (m.verdict, m.verdictCountdown, m.verdictTicking)

/-- No tick, no message, and no server is connected to. -/
def Cmd.tame : Cmd → Bool
  | .verdictTick | .clockTick | .reconnectTick => false
  | .send (.connect _) | .send (.send _ _) => false
  | _ => true

/-- None of the three is touched. -/
structure Still (m m' : Model) : Prop where
  link : m'.link = m.link
  talk : m'.talk = m.talk
  countdown : m'.countdown = m.countdown

/-- And what is sent is tame. -/
structure Quiet (m : Model) (u : Updated) : Prop extends Still m u.1 where
  tame : ∀ c ∈ u.2, c.tame = true

theorem Quiet.silent {m m' : Model} (link : m'.link = m.link) (talk : m'.talk = m.talk)
    (countdown : m'.countdown = m.countdown) : Quiet m (m', []) :=
  ⟨⟨link, talk, countdown⟩, fun _ member => absurd member List.not_mem_nil⟩

theorem Quiet.one {m m' : Model} {c : Cmd} (link : m'.link = m.link) (talk : m'.talk = m.talk)
    (countdown : m'.countdown = m.countdown) (tame : c.tame = true) : Quiet m (m', [c]) :=
  ⟨⟨link, talk, countdown⟩, List.forall_mem_singleton.mpr tame⟩

theorem Quiet.rest (m : Model) : Quiet m (m, []) := .silent rfl rfl rfl

/-! ### From screen to screen -/

theorem openServersScreen_quiet (m : Model) : Quiet m m.openServersScreen := .one rfl rfl rfl rfl

theorem openMenu_quiet (m : Model) : Quiet m m.openMenu := .one rfl rfl rfl rfl

theorem backToChat_quiet (m : Model) : Quiet m m.backToChat := .one rfl rfl rfl rfl

theorem openStore_quiet (m : Model) : Quiet m m.openStore := by
  refine ⟨⟨rfl, rfl, rfl⟩, fun c member => ?_⟩
  rcases List.mem_cons.mp member with rfl | member
  · rfl
  rcases List.mem_cons.mp member with rfl | member
  · rfl
  · rw [List.mem_singleton.mp member]
    rfl

theorem openSubmit_quiet (m : Model) : Quiet m m.openSubmit := .one rfl rfl rfl rfl

theorem openAddServer_quiet (m : Model) : Quiet m m.openAddServer := .one rfl rfl rfl rfl

theorem browse_quiet (m : Model) (url opened : String) : Quiet m (m.browse url opened, []) := by
  unfold Model.browse
  split <;> exact .silent rfl rfl rfl

/-! ### One screen after the other -/

theorem openRemoveServerConfirm_quiet (m : Model) : Quiet m m.openRemoveServerConfirm := by
  unfold Model.openRemoveServerConfirm
  split
  · exact .rest m
  · exact .silent rfl rfl rfl

theorem submitAddServer_quiet (m : Model) : Quiet m m.submitAddServer := by
  unfold Model.submitAddServer
  dsimp only
  split
  · exact .silent rfl rfl rfl
  · exact .one rfl rfl rfl rfl

theorem updateAddServer_quiet (m : Model) (key : Terminal.Key) :
    Quiet m (m.updateAddServer key) := by
  unfold Model.updateAddServer
  dsimp only
  split_ifs
  · exact .silent rfl rfl rfl
  · exact .silent rfl rfl rfl
  · exact .silent rfl rfl rfl
  · exact .silent rfl rfl rfl
  · exact submitAddServer_quiet m
  · exact submitAddServer_quiet m
  · exact .one rfl rfl rfl rfl

theorem updateRemoveServerConfirm_quiet (m : Model) (key : String) :
    Quiet m (m.updateRemoveServerConfirm key) := by
  unfold Model.updateRemoveServerConfirm
  dsimp only
  split_ifs
  all_goals first
    | exact .silent rfl rfl rfl
    | exact .one rfl rfl rfl rfl

theorem openVerdictLink_quiet (m : Model) : Quiet m (m.openVerdictLink, []) := by
  unfold Model.openVerdictLink
  dsimp only
  split
  · split
    · exact .silent rfl rfl rfl
    · exact browse_quiet m _ _
  · split
    · exact .silent rfl rfl rfl
    · exact browse_quiet m _ _

theorem updateUsername_quiet (m : Model) (key : Terminal.Key) : Quiet m (m.updateUsername key) := by
  unfold Model.updateUsername
  dsimp only
  split_ifs
  all_goals first
    | exact .silent rfl rfl rfl
    | exact .one rfl rfl rfl rfl

theorem activateMenu_quiet (m : Model) : Quiet m m.activateMenu := by
  unfold Model.activateMenu
  split_ifs
  · exact openServersScreen_quiet m
  · exact .one rfl rfl rfl rfl
  · exact .silent rfl rfl rfl
  · exact browse_quiet m _ _
  · exact backToChat_quiet m

theorem updateMenu_quiet (m : Model) (key : String) : Quiet m (m.updateMenu key) := by
  unfold Model.updateMenu
  split_ifs
  · exact backToChat_quiet m
  · exact .silent rfl rfl rfl
  · exact .rest m
  · exact .silent rfl rfl rfl
  · exact .rest m
  · exact .one rfl rfl rfl rfl
  · exact activateMenu_quiet m
  · exact .rest m

theorem updateHelp_quiet (m : Model) (key : String) : Quiet m (m.updateHelp key) := by
  unfold Model.updateHelp
  split_ifs
  · exact backToChat_quiet m
  · exact .silent rfl rfl rfl
  · exact .rest m

theorem installSelectedPlugin_quiet (m : Model) : Quiet m m.installSelectedPlugin := by
  unfold Model.installSelectedPlugin
  split
  · exact .rest m
  · dsimp only
    split
    · exact .silent rfl rfl rfl
    · exact .one rfl rfl rfl rfl

theorem removeSelectedPlugin_quiet (m : Model) : Quiet m m.removeSelectedPlugin := by
  unfold Model.removeSelectedPlugin
  split
  · exact .rest m
  · split
    · exact .one rfl rfl rfl rfl
    · exact .rest m

theorem updateStore_quiet (m : Model) (key : String) : Quiet m (m.updateStore key) := by
  unfold Model.updateStore
  split_ifs
  · exact backToChat_quiet m
  · exact .silent rfl rfl rfl
  · exact .silent rfl rfl rfl
  · exact .rest m
  · exact .silent rfl rfl rfl
  · exact .rest m
  · exact openStore_quiet m
  · exact .one rfl rfl rfl rfl
  · exact openSubmit_quiet m
  · exact installSelectedPlugin_quiet m
  · exact removeSelectedPlugin_quiet m
  · exact .rest m

theorem focusSubmitField_quiet (m : Model) (i : Int) : Quiet m (m.focusSubmitField i, []) := by
  unfold Model.focusSubmitField
  dsimp only
  split
  · exact .rest m
  · exact .silent rfl rfl rfl

theorem doSubmit_quiet (m : Model) : Quiet m m.doSubmit := by
  unfold Model.doSubmit
  dsimp only
  split
  · exact .silent rfl rfl rfl
  · exact .one rfl rfl rfl rfl

theorem updateSubmit_quiet (m : Model) (key : Terminal.Key) : Quiet m (m.updateSubmit key) := by
  unfold Model.updateSubmit
  dsimp only
  split_ifs
  · exact openStore_quiet m
  · exact focusSubmitField_quiet m _
  · exact focusSubmitField_quiet m _
  · exact doSubmit_quiet m
  · exact doSubmit_quiet m
  · exact focusSubmitField_quiet m _
  · exact .one rfl rfl rfl rfl

/-! ### The chat screen -/

theorem inGroup_quiet (m : Model) {command : String → Command}
    (tame : ∀ id, (Cmd.send (command id)).tame = true) : Quiet m (m.inGroup command) := by
  unfold Model.inGroup
  split
  · exact .silent rfl rfl rfl
  · exact .one rfl rfl rfl (tame _)

theorem runGroup_quiet (m : Model) (args : List String) : Quiet m (m.runGroup args) := by
  unfold Model.runGroup
  split
  · exact .silent rfl rfl rfl
  · exact .one rfl rfl rfl rfl

theorem runClientCommand_quiet (m : Model) (cmd : String) (args : List String) :
    Quiet m (m.runClientCommand cmd args) := by
  unfold Model.runClientCommand
  split_ifs
  · exact .one rfl rfl rfl rfl
  · split
    · exact .silent rfl rfl rfl
    · exact .one rfl rfl rfl rfl
  · split
    · exact .silent rfl rfl rfl
    · split
      · exact .silent rfl rfl rfl
      · exact browse_quiet m _ _
  · exact .silent rfl rfl rfl
  · exact .one rfl rfl rfl rfl
  · split
    · exact .one rfl rfl rfl rfl
    · exact .silent rfl rfl rfl
  · exact openMenu_quiet m
  · exact .silent rfl rfl rfl
  · exact .silent rfl rfl rfl

theorem runCommand_quiet (m : Model) (cmd : String) (args : List String) :
    Quiet m (m.runCommand cmd args) := by
  unfold Model.runCommand
  split
  · exact .one rfl rfl rfl rfl
  split
  · split
    · split
      · exact .silent rfl rfl rfl
      · exact .one rfl rfl rfl rfl
    · exact .silent rfl rfl rfl
  split
  · exact runGroup_quiet m args
  split
  · split
    · exact .one rfl rfl rfl rfl
    · exact .silent rfl rfl rfl
  split
  · split
    · exact inGroup_quiet m fun _ => rfl
    · exact .silent rfl rfl rfl
  split
  · exact inGroup_quiet m fun _ => rfl
  split
  · split
    · exact inGroup_quiet m fun _ => rfl
    · exact .silent rfl rfl rfl
  split
  · split
    · exact inGroup_quiet m fun _ => rfl
    · exact .silent rfl rfl rfl
  split
  · exact openServersScreen_quiet m
  split
  · exact openStore_quiet m
  split
  · exact openSubmit_quiet m
  · exact runClientCommand_quiet m cmd args

/-! ### What only changes the chats -/

theorem layout_keeps (m : Model) : m.layout.link = m.link ∧ m.layout.countdown = m.countdown := by
  unfold Model.layout
  split <;> exact ⟨rfl, rfl⟩

theorem enterChat_keeps (m : Model) :
    m.enterChat.link = m.link ∧ m.enterChat.countdown = m.countdown := by
  unfold Model.enterChat
  obtain ⟨link, countdown⟩ := layout_keeps { m with
    screen := .chat, focus := .input, input := Terminal.focus m.input,
    nameInput := Terminal.blur m.nameInput, addForm := m.addForm.blurAll, onboardErr := "" }
  exact ⟨link, countdown⟩

theorem openChat_keeps (m : Model) (id : String) : (m.openChat id).1.link = m.link ∧
    (m.openChat id).1.countdown = m.countdown := by
  unfold Model.openChat
  dsimp only
  split <;> exact ⟨rfl, rfl⟩

theorem ensureChat_keeps (m : Model) (id : String) : (m.ensureChat id).2.link = m.link ∧
    (m.ensureChat id).2.countdown = m.countdown := by
  unfold Model.ensureChat
  split <;> exact ⟨rfl, rfl⟩

theorem onHistory_keeps (m : Model) (chat : String) (messages : List Message) :
    (m.onHistory chat messages).link = m.link ∧
      (m.onHistory chat messages).countdown = m.countdown := by
  obtain ⟨link, countdown⟩ := ensureChat_keeps m chat
  unfold Model.onHistory
  dsimp only
  split <;> exact ⟨link, countdown⟩

theorem onMessage_keeps (m : Model) (chat : String) (message : Message) :
    (m.onMessage chat message).link = m.link ∧
      (m.onMessage chat message).countdown = m.countdown := by
  obtain ⟨link, countdown⟩ := ensureChat_keeps m chat
  unfold Model.onMessage
  dsimp only
  split <;> exact ⟨link, countdown⟩

theorem onOpenChat_keeps (m : Model) (chat : String) : (m.onOpenChat chat).1.link = m.link ∧
    (m.onOpenChat chat).1.countdown = m.countdown := by
  unfold Model.onOpenChat
  dsimp only
  obtain ⟨link, countdown⟩ := openChat_keeps _ chat
  rw [link, countdown]
  repeat' split
  all_goals exact ⟨rfl, rfl⟩

theorem activate_countdown (m : Model) (server : String) :
    (m.activate server).countdown = m.countdown := by
  unfold Model.activate
  split <;> rfl

theorem welcome_keeps (m : Model) : m.welcome.link = (m.serverAddr, m.connected, none, false) ∧
    m.welcome.talk = m.talk ∧ m.welcome.countdown = m.countdown := by
  unfold Model.welcome
  split
  · exact ⟨rfl, rfl, rfl⟩
  · next other =>
    obtain ⟨waits, maintained⟩ := Bool.or_eq_false_iff.mp (Bool.eq_false_iff.mpr other)
    refine ⟨?_, rfl, rfl⟩
    show (m.serverAddr, m.connected, m.maintenance, m.waitingForServer) = _
    rw [waits, Option.isNone_iff_eq_none.mp (Option.isSome_eq_false_iff.mp maintained)]

theorem onConnected_countdown (m : Model) (server username : String) :
    (m.onConnected server username).1.countdown = m.countdown :=
  (enterChat_keeps _).2.trans ((welcome_keeps _).2.2.trans (activate_countdown m server))

theorem onDisconnected_keeps (m : Model) (server reason : String) :
    (m.onDisconnected server reason).1.talk = m.talk ∧
      (m.onDisconnected server reason).1.countdown = m.countdown := by
  unfold Model.onDisconnected
  dsimp only
  split_ifs <;> exact ⟨rfl, rfl⟩

theorem onClockTick_keeps (m : Model) (now : Int) : (m.onClockTick now).1.talk = m.talk ∧
    (m.onClockTick now).1.countdown = m.countdown := by
  unfold Model.onClockTick
  split
  · split <;> exact ⟨rfl, rfl⟩
  · exact ⟨rfl, rfl⟩

theorem onReconnectTick_keeps (m : Model) : m.onReconnectTick.1.talk = m.talk ∧
    m.onReconnectTick.1.countdown = m.countdown := by
  unfold Model.onReconnectTick
  split <;> exact ⟨rfl, rfl⟩

/-- The list of servers moves the address. -/
theorem onServers_keeps (m : Model) (servers : List ServerInfo) :
    (m.onServers servers).talk = m.talk ∧ (m.onServers servers).countdown = m.countdown ∧
      (m.onServers servers).link.2 = m.link.2 := by
  have all : ∀ (servers : List ServerInfo) (m : Model),
      (servers.foldl Model.follow m).talk = m.talk ∧
      (servers.foldl Model.follow m).countdown = m.countdown ∧
      (servers.foldl Model.follow m).link.2 = m.link.2 := by
    intro servers
    induction servers with
    | nil => exact fun _ => ⟨rfl, rfl, rfl⟩
    | cons s rest ih =>
        intro m
        obtain ⟨talk, countdown, link⟩ := ih (m.follow s)
        rw [List.foldl_cons, talk, countdown, link]
        unfold Model.follow
        dsimp only
        split_ifs <;> exact ⟨rfl, rfl, rfl⟩
  exact all servers { m with servers := servers, serverSel := clampSel m.serverSel servers.length }

/-! ### What a key does -/

/-- A text is submitted to the open chat. -/
structure Model.Submits (m : Model) (line : String) : Prop where
  screen : m.screen = .chat
  focus : m.focus = .input
  typed : textOf m.input = line
  notEmpty : line ≠ ""
  noCommand : line.toList.head? ≠ some '/'
  «open» : m.current ≠ ""

/-- What a key does, by its text, or a click. -/
inductive Does (m : Model) (key : Option String) (u : Updated) : Prop
  | quiet (quiet : Quiet m u)
  /-- Enter on the list of servers. -/
  | listed {s : ServerInfo} (enter : key = some "enter") (screen : m.screen = .servers)
      (row : selected m.servers m.serverSel = some s) (other : (s.active && m.connected) = false)
      (still : Still m u.1) (cmds : u.2 = [.send (.connect s.addr)])
  /-- Enter there on the active server. -/
  | shown {s : ServerInfo} (enter : key = some "enter") (screen : m.screen = .servers)
      (row : selected m.servers m.serverSel = some s) (active : (s.active && m.connected) = true)
      (is : u = ({ m with serverName := s.name, serverAddr := s.addr }.enterChat, [.blink]))
  /-- Back from there. -/
  | back (is : u = (m.enterChat, [.blink]))
  /-- Connect on the verdict. -/
  | accepted (enter : key = some "enter") (screen : m.screen = .verdict)
      (connect : m.verdictSel ≠ 0)
      (elapsed : ¬ (m.verdict.verdict = "red" ∧ m.verdictCountdown > 0)) (still : Still m u.1)
      (cmds : u.2 = [.send (.connect m.verdict.server)])
  /-- A chat of the sidebar is opened. -/
  | row {place : Nat} {state : ChatState} (listed : place ∈ m.chats)
      (has : m.chatStates[place]? = some state) (link : u.1.link = m.link)
      (countdown : u.1.countdown = m.countdown)
      (talk : u.1.talk = (m.openChat state.info.id).1.talk)
      (cmds : u.2 = [.send (.history state.info.id 200)])
  | text {line : String} (enter : key = some "enter") (submits : m.Submits line)
      (still : Still m u.1)
      (cmds : u.2 = [.send (.send m.current line)])
  /-- The open chat is left. -/
  | left {id : String} (link : u.1.link = m.link) (countdown : u.1.countdown = m.countdown)
      (talk : u.1.talk = (m.chatStates, m.chats, m.chatByID, "", []))
      (cmds : u.2 = [.send (.leaveChat id)])

theorem mem_of_selected {α : Type} {list : List α} {sel : Int} {row : α}
    (is : selected list sel = some row) : row ∈ list := by
  unfold selected at is
  split at is
  · cases is
  · exact List.mem_of_getElem? is

/-- A row of the sidebar is selected and opened. -/
theorem openRow_does (m : Model) (key : Option String) (sel : Int) :
    Does m key ({ m with sidebarSel := sel }.openRow sel) := by
  unfold Model.openRow
  cases row : (selected m.chats sel).bind fun place => m.chatStates[place]? with
  | none => exact .quiet (.silent rfl rfl rfl)
  | some state =>
      obtain ⟨place, listed, has⟩ := Option.bind_eq_some_iff.mp row
      refine .row (mem_of_selected listed) has ?_ ?_ ?_ rfl
      · exact (openChat_keeps { m with sidebarSel := sel } state.info.id).1
      · exact (openChat_keeps { m with sidebarSel := sel } state.info.id).2
      · show ({ m with sidebarSel := sel }.openChat state.info.id).1.talk = _
        unfold Model.openChat
        dsimp only
        split <;> rfl

theorem connectSelected_does (m : Model) (screen : m.screen = .servers) :
    Does m (some "enter") m.connectSelected := by
  unfold Model.connectSelected
  cases row : selected m.servers m.serverSel with
  | none => exact .quiet (.rest m)
  | some s =>
      dsimp only
      cases active : s.active && m.connected with
      | true => exact .shown rfl screen row active rfl
      | false => exact .listed rfl screen row active ⟨rfl, rfl, rfl⟩ rfl

theorem updateServers_does (m : Model) (key : String) (screen : m.screen = .servers) :
    Does m (some key) (m.updateServers key) := by
  unfold Model.updateServers
  split_ifs with _ _ _ _ _ _ enter
  · exact .quiet (.silent rfl rfl rfl)
  · exact .quiet (.rest m)
  · exact .quiet (.silent rfl rfl rfl)
  · exact .quiet (.rest m)
  · exact .quiet (openAddServer_quiet m)
  · exact .quiet (openRemoveServerConfirm_quiet m)
  · rw [enter]
    exact connectSelected_does m screen
  · exact .back rfl
  · exact .quiet (.rest m)
  · exact .quiet (.one rfl rfl rfl rfl)
  · exact .quiet (.rest m)

theorem activateVerdict_does (m : Model) (screen : m.screen = .verdict) :
    Does m (some "enter") m.activateVerdict := by
  unfold Model.activateVerdict
  split
  · exact .quiet (.silent rfl rfl rfl)
  next connect =>
  split
  · exact .quiet (.silent rfl rfl rfl)
  · next elapsed => exact .accepted rfl screen connect elapsed ⟨rfl, rfl, rfl⟩ rfl

theorem updateVerdict_does (m : Model) (key : String) (screen : m.screen = .verdict) :
    Does m (some key) (m.updateVerdict key) := by
  unfold Model.updateVerdict
  split_ifs with _ _ _ _ enter
  · exact .quiet (.silent rfl rfl rfl)
  · exact .quiet (.silent rfl rfl rfl)
  · exact .quiet (openVerdictLink_quiet m)
  · exact .quiet (.silent rfl rfl rfl)
  · rw [enter]
    exact activateVerdict_does m screen
  · exact .quiet (.rest m)

theorem updateSidebar_does (m : Model) (key : String) : Does m (some key) (m.updateSidebar key) := by
  unfold Model.updateSidebar
  split_ifs
  · exact .quiet (.silent rfl rfl rfl)
  · exact .quiet (.rest m)
  · exact .quiet (.silent rfl rfl rfl)
  · exact .quiet (.rest m)
  · exact openRow_does m _ m.sidebarSel
  · refine .quiet ?_
    unfold Model.openLeaveConfirm
    split
    · exact .rest m
    · exact .silent rfl rfl rfl
  · exact .quiet (openMenu_quiet m)
  · exact .quiet (.rest m)

theorem submitInput_does (m : Model) (screen : m.screen = .chat) (focus : m.focus = .input) :
    Does m (some "enter") m.submitInput := by
  unfold Model.submitInput
  dsimp only
  split
  · exact .quiet (.rest m)
  next notEmpty =>
  split
  · split
    · exact .quiet (.silent rfl rfl rfl)
    · next cmd args _ =>
      obtain ⟨⟨link, talk, countdown⟩, tame⟩ :=
        runCommand_quiet { m with input := Terminal.setValue "" m.input } cmd args
      exact .quiet ⟨⟨link, talk, countdown⟩, tame⟩
  next noCommand =>
  split
  · exact .quiet (.silent rfl rfl rfl)
  · next isOpen =>
    exact .text rfl ⟨screen, focus, rfl, notEmpty, noCommand, isOpen⟩ ⟨rfl, rfl, rfl⟩ rfl

theorem updateChat_does (m : Model) (key : Terminal.Key) (screen : m.screen = .chat) :
    Does m (some (Terminal.keyText key)) (m.updateChat key) := by
  unfold Model.updateChat
  dsimp only
  split
  · refine .quiet ?_
    unfold Model.toggleFocus
    split <;> exact .silent rfl rfl rfl
  split
  · exact updateSidebar_does m _
  next notSidebar =>
  split
  · exact .quiet (openMenu_quiet m)
  split
  · next enter =>
    rw [enter]
    refine submitInput_does m screen ?_
    cases is : m.focus with
    | input => rfl
    | sidebar => exact absurd is notSidebar
  split
  · exact .quiet (.rest m)
  · exact .quiet (.one rfl rfl rfl rfl)

theorem updateLeaveConfirm_does (m : Model) (key : String) :
    Does m (some key) (m.updateLeaveConfirm key) := by
  unfold Model.updateLeaveConfirm
  dsimp only
  split
  · exact .quiet (.silent rfl rfl rfl)
  split
  · exact .quiet (.silent rfl rfl rfl)
  split
  · split
    · split
      · exact .left rfl rfl rfl rfl
      · exact .quiet (.one rfl rfl rfl rfl)
    · exact .quiet (.silent rfl rfl rfl)
  · exact .quiet (.rest m)

variable [Layout]

/-- **What any key does.** -/
theorem onKey_does (m : Model) (key : Terminal.Key) :
    Does m (some (Terminal.keyText key)) (m.onKey key) := by
  unfold Model.onKey
  dsimp only
  split
  · exact .quiet (.one rfl rfl rfl rfl)
  split
  · next screen => exact updateServers_does m _ screen
  · exact .quiet (updateAddServer_quiet m key)
  · next screen => exact updateVerdict_does m _ screen
  · exact .quiet (updateUsername_quiet m key)
  · exact .quiet (updateMenu_quiet m _)
  · exact .quiet (updateHelp_quiet m _)
  · exact updateLeaveConfirm_does m _
  · exact .quiet (updateStore_quiet m _)
  · exact .quiet (updateSubmit_quiet m key)
  · exact .quiet (updateRemoveServerConfirm_quiet m _)
  · next screen => exact updateChat_does m key screen

/-- And any click. -/
theorem handleMouse_does (m : Model) (mouse : Mouse) :
    Does m none (m.handleMouse mouse) := by
  unfold Model.handleMouse
  split
  · exact .quiet (.rest m)
  split
  · exact .quiet (.rest m)
  split
  · exact .quiet (.rest m)
  split
  · dsimp only
    split
    · exact openRow_does m _ _
    · exact .quiet (.silent rfl rfl rfl)
  · exact .quiet (.silent rfl rfl rfl)

theorem Does.countdown {m : Model} {key : Option String} {u : Updated} (does : Does m key u) :
    u.1.countdown = m.countdown := by
  cases does with
  | quiet quiet => exact quiet.countdown
  | listed _ _ _ _ still _ => exact still.countdown
  | shown _ _ _ _ is =>
      rw [is]
      exact (enterChat_keeps _).2
  | back is =>
      rw [is]
      exact (enterChat_keeps m).2
  | accepted _ _ _ _ still _ => exact still.countdown
  | row _ _ _ countdown _ _ => exact countdown
  | text _ _ still _ => exact still.countdown
  | left _ countdown _ _ => exact countdown

/-! ### The other messages -/

/-- A message that is about something else. -/
def Msg.plain {Key : Type} : Msg Key → Bool
  | .ready .. | .needUsername _ | .fingerprint .. | .theme | .widgets _ | .storePlugins _
  | .installedPlugins _ | .pluginInstalled .. | .pluginUpdate .. | .pluginSubmitted ..
  | .clientUpdate _ | .selfUpdate .. | .error .. | .info _ | .pong .. | .coreClosed => true
  | _ => false

theorem onReady_quiet (m : Model) (servers : List ServerInfo) (hasMaster : Bool)
    (clientVersion : String) : Quiet m (m.onReady servers hasMaster clientVersion) := by
  unfold Model.onReady
  have cmds : ∀ c ∈ [Cmd.blink, .send .checkClientUpdate], c.tame = true :=
    List.forall_mem_cons.mpr ⟨rfl, List.forall_mem_singleton.mpr rfl⟩
  dsimp only
  split_ifs
  all_goals exact ⟨⟨rfl, rfl, rfl⟩, cmds⟩

theorem onClientUpdate_quiet (m : Model) (update : ClientUpdate) :
    Quiet m (m.onClientUpdate update) := by
  unfold Model.onClientUpdate
  dsimp only
  split
  · exact .one rfl rfl rfl rfl
  · exact .silent rfl rfl rfl

theorem onSelfUpdate_quiet (m : Model) (version : String) (error : Option String) :
    Quiet m (m.onSelfUpdate version error, []) := by
  unfold Model.onSelfUpdate
  split <;> exact .silent rfl rfl rfl

theorem onError_quiet (m : Model) (message code : String) :
    Quiet m (m.onError message code, []) := by
  unfold Model.onError
  dsimp only
  split_ifs <;> exact .silent rfl rfl rfl

/-- **A message about something else.** -/
theorem update_quiet (m : Model) {msg : Msg Terminal.Key} (plain : msg.plain = true) :
    Quiet m (m.update msg) := by
  cases msg with
  | ready servers hasMaster clientVersion => exact onReady_quiet m servers hasMaster clientVersion
  | needUsername server => exact .one rfl rfl rfl rfl
  | clientUpdate update => exact onClientUpdate_quiet m update
  | selfUpdate version error => exact onSelfUpdate_quiet m version error
  | error message code => exact onError_quiet m message code
  | coreClosed => exact .one rfl rfl rfl rfl
  | fingerprint | theme | widgets | storePlugins | installedPlugins | pluginInstalled
  | pluginUpdate | pluginSubmitted | info | pong => exact .silent rfl rfl rfl
  | _ => cases plain

end

end ChermTui
