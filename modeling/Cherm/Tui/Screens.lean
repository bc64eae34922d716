/-
**How the verdict gets on the screen.**

Only an attestation shows a verdict. Every other message leaves the screen as it is, or goes to
another one.

* `Hides`: the verdict is not shown unless it was.
* `update_hides`: so it is after any message but an attestation.
-/

import Cherm.Tui.Update

namespace ChermTui

section

variable [Terminal]

/-- The verdict is not shown unless it was. -/
def Hides (m m' : Model) : Prop := m'.screen = .verdict → m.screen = .verdict

variable {m m' : Model}

theorem Hides.stays (same : m'.screen = m.screen) : Hides m m' := fun shown => same ▸ shown

theorem Hides.goes (other : decide (m'.screen = .verdict) = false) : Hides m m' :=
  fun shown => absurd shown (of_decide_eq_false other)

variable (m)

theorem layout_screen : m.layout.screen = m.screen := by
  unfold Model.layout
  split
  · rfl
  · rfl

theorem enterChat_hides (m' : Model) : Hides m m'.enterChat := by
  refine .goes ?_
  rw [Model.enterChat, layout_screen]
  rfl

theorem openChat_screen (id : String) : (m.openChat id).1.screen = m.screen := by
  unfold Model.openChat
  dsimp only
  split
  · rfl
  · rfl

theorem browse_screen (url opened : String) : (m.browse url opened).screen = m.screen := by
  unfold Model.browse
  split
  · rfl
  · rfl

/-! ### Keys -/

theorem updateServers_hides (key : String) : Hides m (m.updateServers key).1 := by
  unfold Model.updateServers
  split_ifs
  · exact .stays rfl
  · exact .stays rfl
  · exact .stays rfl
  · exact .stays rfl
  · exact .goes rfl
  · unfold Model.openRemoveServerConfirm
    split
    · exact .stays rfl
    · exact .goes rfl
  · unfold Model.connectSelected
    split
    · exact .stays rfl
    · dsimp only
      split
      · exact enterChat_hides m _
      · exact .stays rfl
  · exact enterChat_hides m m
  · exact .stays rfl
  · exact .stays rfl
  · exact .stays rfl

theorem submitAddServer_screen : m.submitAddServer.1.screen = m.screen := by
  unfold Model.submitAddServer
  dsimp only
  split
  · rfl
  · rfl

theorem updateAddServer_hides (key : Terminal.Key) : Hides m (m.updateAddServer key).1 := by
  unfold Model.updateAddServer
  dsimp only
  split_ifs
  · exact .goes rfl
  · exact .stays rfl
  · exact .stays rfl
  · exact .stays rfl
  · exact .stays (submitAddServer_screen m)
  · exact .stays (submitAddServer_screen m)
  · exact .stays rfl

theorem updateRemoveServerConfirm_hides (key : String) :
    Hides m (m.updateRemoveServerConfirm key).1 := by
  unfold Model.updateRemoveServerConfirm
  dsimp only
  split_ifs
  · exact .stays rfl
  · exact .goes rfl
  · exact .goes rfl
  · exact .goes rfl
  · exact .stays rfl

theorem updateVerdict_hides (key : String) : Hides m (m.updateVerdict key).1 := by
  unfold Model.updateVerdict
  split_ifs
  · exact .stays rfl
  · exact .stays rfl
  · unfold Model.openVerdictLink
    dsimp only
    split
    · split
      · exact .stays rfl
      · exact .stays (browse_screen m _ _)
    · split
      · exact .stays rfl
      · exact .stays (browse_screen m _ _)
  · exact .goes rfl
  · unfold Model.activateVerdict
    split_ifs
    · exact .goes rfl
    · exact .stays rfl
    · exact .stays rfl
  · exact .stays rfl

theorem updateUsername_hides (key : Terminal.Key) : Hides m (m.updateUsername key).1 := by
  unfold Model.updateUsername
  dsimp only
  split_ifs
  · exact .goes rfl
  · exact .stays rfl
  · exact .stays rfl
  · exact .stays rfl
  · exact .stays rfl

theorem openRow_hides (sel : Int) : Hides m (m.openRow sel).1 := by
  unfold Model.openRow
  split
  · exact .stays rfl
  · exact .stays (openChat_screen m _)

theorem updateSidebar_hides (key : String) : Hides m (m.updateSidebar key).1 := by
  unfold Model.updateSidebar
  split_ifs
  · exact .stays rfl
  · exact .stays rfl
  · exact .stays rfl
  · exact .stays rfl
  · exact openRow_hides m _
  · unfold Model.openLeaveConfirm
    split
    · exact .stays rfl
    · exact .goes rfl
  · exact .goes rfl
  · exact .stays rfl

theorem inGroup_screen (command : String → Command) : (m.inGroup command).1.screen = m.screen := by
  unfold Model.inGroup
  split
  · rfl
  · rfl

theorem runClientCommand_hides (cmd : String) (args : List String) :
    Hides m (m.runClientCommand cmd args).1 := by
  unfold Model.runClientCommand
  split_ifs
  · exact .stays rfl
  · split
    · exact .stays rfl
    · exact .stays rfl
  · split
    · exact .stays rfl
    · split
      · exact .stays rfl
      · exact .stays (browse_screen m _ _)
  · exact .stays rfl
  · exact .stays rfl
  · split
    · exact .stays rfl
    · exact .stays rfl
  · exact .goes rfl
  · exact .goes rfl
  · exact .stays rfl

theorem runCommand_hides (cmd : String) (args : List String) :
    Hides m (m.runCommand cmd args).1 := by
  have group : ∀ command : String → Command, Hides m (m.inGroup command).1 :=
    fun command => .stays (inGroup_screen m command)
  unfold Model.runCommand
  split
  · exact .stays rfl
  split
  · split
    · split
      · exact .stays rfl
      · exact .stays rfl
    · exact .stays rfl
  split
  · unfold Model.runGroup
    split
    · exact .stays rfl
    · exact .stays rfl
  split
  · split
    · exact .stays rfl
    · exact .stays rfl
  split
  · split
    · exact group _
    · exact .stays rfl
  split
  · exact group _
  split
  · split
    · exact group _
    · exact .stays rfl
  split
  · split
    · exact group _
    · exact .stays rfl
  split
  · exact .goes rfl
  split
  · exact .goes rfl
  split
  · exact .goes rfl
  · exact runClientCommand_hides m cmd args

theorem submitInput_hides : Hides m m.submitInput.1 := by
  unfold Model.submitInput
  dsimp only
  split
  · exact .stays rfl
  split
  · split
    · exact .stays rfl
    · exact runCommand_hides { m with input := Terminal.setValue "" m.input } _ _
  split
  · exact .stays rfl
  · exact .stays rfl

theorem updateChat_hides (key : Terminal.Key) : Hides m (m.updateChat key).1 := by
  unfold Model.updateChat
  dsimp only
  split_ifs
  · unfold Model.toggleFocus
    split
    · exact .stays rfl
    · exact .stays rfl
  · exact updateSidebar_hides m _
  · exact .goes rfl
  · exact submitInput_hides m
  · exact .stays rfl
  · exact .stays rfl

theorem updateLeaveConfirm_hides (key : String) : Hides m (m.updateLeaveConfirm key).1 := by
  unfold Model.updateLeaveConfirm
  dsimp only
  split_ifs
  · exact .stays rfl
  · exact .goes rfl
  · exact .goes rfl
  · exact .goes rfl
  · exact .goes rfl
  · exact .stays rfl

theorem updateMenu_hides (key : String) : Hides m (m.updateMenu key).1 := by
  unfold Model.updateMenu
  split_ifs
  · exact .goes rfl
  · exact .stays rfl
  · exact .stays rfl
  · exact .stays rfl
  · exact .stays rfl
  · exact .stays rfl
  · unfold Model.activateMenu
    split_ifs
    · exact .goes rfl
    · exact .stays rfl
    · exact .goes rfl
    · exact .stays (browse_screen m _ _)
    · exact .goes rfl
  · exact .stays rfl

theorem updateHelp_hides (key : String) : Hides m (m.updateHelp key).1 := by
  unfold Model.updateHelp
  split_ifs
  · exact .goes rfl
  · exact .goes rfl
  · exact .stays rfl

theorem updateStore_hides (key : String) : Hides m (m.updateStore key).1 := by
  unfold Model.updateStore
  split_ifs
  · exact .goes rfl
  · exact .goes rfl
  · exact .stays rfl
  · exact .stays rfl
  · exact .stays rfl
  · exact .stays rfl
  · exact .goes rfl
  · exact .stays rfl
  · exact .goes rfl
  · unfold Model.installSelectedPlugin
    split
    · exact .stays rfl
    · dsimp only
      split
      · exact .stays rfl
      · exact .stays rfl
  · unfold Model.removeSelectedPlugin
    split
    · exact .stays rfl
    · split
      · exact .stays rfl
      · exact .stays rfl
  · exact .stays rfl

theorem focusSubmitField_screen (i : Int) : (m.focusSubmitField i).screen = m.screen := by
  unfold Model.focusSubmitField
  dsimp only
  split
  · rfl
  · rfl

theorem doSubmit_screen : m.doSubmit.1.screen = m.screen := by
  unfold Model.doSubmit
  dsimp only
  split
  · rfl
  · rfl

theorem updateSubmit_hides (key : Terminal.Key) : Hides m (m.updateSubmit key).1 := by
  unfold Model.updateSubmit
  dsimp only
  split_ifs
  · exact .goes rfl
  · exact .stays (focusSubmitField_screen m _)
  · exact .stays (focusSubmitField_screen m _)
  · exact .stays (doSubmit_screen m)
  · exact .stays (doSubmit_screen m)
  · exact .stays (focusSubmitField_screen m _)
  · exact .stays rfl

/-! ### Messages -/

theorem onServers_screen (servers : List ServerInfo) : (m.onServers servers).screen = m.screen := by
  have all : ∀ (servers : List ServerInfo) (m : Model),
      (servers.foldl Model.follow m).screen = m.screen := by
    intro servers
    induction servers with
    | nil => exact fun _ => rfl
    | cons s rest ih =>
        intro m
        rw [List.foldl_cons, ih]
        unfold Model.follow
        dsimp only
        split_ifs
        · rfl
        · rfl
        · rfl
  exact all servers _

theorem onReady_hides (servers : List ServerInfo) (hasMaster : Bool) (clientVersion : String) :
    Hides m (m.onReady servers hasMaster clientVersion).1 := by
  unfold Model.onReady
  dsimp only
  split_ifs
  · exact .goes rfl
  · exact .goes rfl
  · exact .goes rfl
  · exact .goes rfl

theorem onDisconnected_screen (server reason : String) :
    (m.onDisconnected server reason).1.screen = m.screen := by
  unfold Model.onDisconnected
  dsimp only
  split_ifs
  · rfl
  · rfl
  · rfl
  · rfl

theorem ensureChat_screen (id : String) : (m.ensureChat id).2.screen = m.screen := by
  unfold Model.ensureChat
  split
  · rfl
  · rfl

theorem onHistory_screen (chat : String) (messages : List Message) :
    (m.onHistory chat messages).screen = m.screen := by
  have ensured := ensureChat_screen m chat
  unfold Model.onHistory
  dsimp only
  split
  · exact ensured
  · exact ensured

theorem onMessage_screen (chat : String) (message : Message) :
    (m.onMessage chat message).screen = m.screen := by
  have ensured := ensureChat_screen m chat
  unfold Model.onMessage
  dsimp only
  split
  · exact ensured
  · exact ensured

theorem onOpenChat_hides (chat : String) : Hides m (m.onOpenChat chat).1 := by
  have isChat : (m.onOpenChat chat).1.screen = .chat := by
    unfold Model.onOpenChat
    dsimp only
    rw [openChat_screen]
    by_cases other : m.screen = .chat
    · rw [if_neg (not_not.mpr other)]
      split
      · exact other
      · exact other
    · rw [if_pos other]
      split
      · rfl
      · rfl
  exact .goes (by rw [isChat]; rfl)

theorem onClockTick_screen (now : Int) : (m.onClockTick now).1.screen = m.screen := by
  unfold Model.onClockTick
  split
  · split
    · rfl
    · rfl
  · rfl

theorem onReconnectTick_screen : m.onReconnectTick.1.screen = m.screen := by
  unfold Model.onReconnectTick
  split
  · rfl
  · rfl

theorem onVerdictTick_screen : m.onVerdictTick.1.screen = m.screen := by
  unfold Model.onVerdictTick
  dsimp only
  split_ifs
  · rfl
  · rfl
  · rfl

theorem onClientUpdate_screen (update : ClientUpdate) :
    (m.onClientUpdate update).1.screen = m.screen := by
  unfold Model.onClientUpdate
  dsimp only
  split
  · rfl
  · rfl

theorem onSelfUpdate_screen (version : String) (error : Option String) :
    (m.onSelfUpdate version error).screen = m.screen := by
  unfold Model.onSelfUpdate
  split
  · rfl
  · rfl

theorem onError_screen (message code : String) : (m.onError message code).screen = m.screen := by
  unfold Model.onError
  dsimp only
  split_ifs
  · rfl
  · rfl
  · rfl
  · rfl

theorem onKey_hides (key : Terminal.Key) : Hides m (m.onKey key).1 := by
  unfold Model.onKey
  dsimp only
  split
  · exact .stays rfl
  split
  · exact updateServers_hides m _
  · exact updateAddServer_hides m key
  · exact updateVerdict_hides m _
  · exact updateUsername_hides m key
  · exact updateMenu_hides m _
  · exact updateHelp_hides m _
  · exact updateLeaveConfirm_hides m _
  · exact updateStore_hides m _
  · exact updateSubmit_hides m key
  · exact updateRemoveServerConfirm_hides m _
  · exact updateChat_hides m key

variable [Layout]

theorem handleMouse_hides (mouse : Mouse) : Hides m (m.handleMouse mouse).1 := by
  unfold Model.handleMouse
  split_ifs
  · exact .stays rfl
  · exact .stays rfl
  · exact .stays rfl
  · dsimp only
    split
    · exact openRow_hides { m with sidebarSel := _ } _
    · exact .stays rfl
  · exact .stays rfl

/-- An attestation. -/
def Msg.attests {Key : Type} : Msg Key → Bool
  | .attest _ => true
  | _ => false

/-- **Only an attestation shows a verdict.** -/
theorem update_hides {msg : Msg Terminal.Key} (other : msg.attests = false) :
    Hides m (m.update msg).1 := by
  cases msg with
  | attest attest => cases other
  | windowSize width height => exact .stays (layout_screen _)
  | mouse mouse => exact handleMouse_hides m mouse
  | key key => exact onKey_hides m key
  | ready servers hasMaster clientVersion => exact onReady_hides m servers hasMaster clientVersion
  | servers servers => exact .stays (onServers_screen m servers)
  | needUsername server => exact .goes rfl
  | registered server username uuid => exact enterChat_hides m _
  | connected server username active => exact enterChat_hides m _
  | disconnected server reason => exact .stays (onDisconnected_screen m server reason)
  | openChat chat => exact onOpenChat_hides m chat
  | history chat messages => exact .stays (onHistory_screen m chat messages)
  | message chat message => exact .stays (onMessage_screen m chat message)
  | verdictTick => exact .stays (onVerdictTick_screen m)
  | pluginSubmitted name version => exact .goes rfl
  | clientUpdate update => exact .stays (onClientUpdate_screen m update)
  | selfUpdate version error => exact .stays (onSelfUpdate_screen m version error)
  | error message code => exact .stays (onError_screen m message code)
  | clockTick now => exact .stays (onClockTick_screen m now)
  | reconnectTick => exact .stays (onReconnectTick_screen m)
  | chats | fingerprint | theme | widgets | storePlugins | installedPlugins | pluginInstalled
  | pluginUpdate | maintenance | info | pong | coreClosed => exact .stays rfl

end

end ChermTui
