/-
**Waiting for a server that restarts.**

A chain of reconnect ticks goes on only while the client waits and is not connected. So there is one
tick for every wait as long as a wait begins without a tick of an earlier one, and no tick finds the
old connection still there.

* `Loop`: the update loop with the reconnect ticks that are under way.
* `update_waits`: the messages that leave the wait alone.
* `OneChain` is the invariant; `waits_steady` the run.
-/

import Cherm.Lib.Steps
import Cherm.Tui.Ideal
import Cherm.Tui.Quiet

namespace ChermTui

section

variable [Terminal]

/-! ### What leaves the wait alone -/

/-- The announcement and the wait are as before, and no reconnect tick begins. -/
structure Patient (m : Model) (u : Updated) : Prop where
  maintenance : u.1.maintenance = m.maintenance
  waits : u.1.waitingForServer = m.waitingForServer
  noTick : Cmd.reconnectTick ∉ u.2

theorem Patient.of_link {m : Model} {u : Updated} (link : u.1.link.2.2 = m.link.2.2)
    (noTick : Cmd.reconnectTick ∉ u.2) : Patient m u := by
  obtain ⟨maintenance, waits⟩ := Prod.mk.inj link
  exact ⟨maintenance, waits, noTick⟩

theorem Quiet.patient {m : Model} {u : Updated} (quiet : Quiet m u) : Patient m u :=
  .of_link (by rw [quiet.link]) fun member => nomatch quiet.tame _ member

theorem Does.patient {m : Model} {key : Option String} {u : Updated} (does : Does m key u) :
    Patient m u := by
  cases does with
  | quiet quiet => exact quiet.patient
  | listed _ _ _ _ still cmds | accepted _ _ _ _ still cmds | text _ _ still cmds =>
      refine .of_link (by rw [still.link]) ?_
      rw [cmds, List.mem_singleton]
      nofun
  | row _ _ link _ _ cmds | left link _ _ cmds =>
      refine .of_link (by rw [link]) ?_
      rw [cmds, List.mem_singleton]
      nofun
  | shown _ _ _ _ is =>
      rw [is]
      refine .of_link ?_ (show Cmd.reconnectTick ∉ [Cmd.blink] by decide)
      rw [(enterChat_keeps _).1]
      rfl
  | back is =>
      rw [is]
      refine .of_link ?_ (show Cmd.reconnectTick ∉ [Cmd.blink] by decide)
      rw [(enterChat_keeps m).1]

theorem activate_wait (m : Model) (server : String) :
    (m.activate server).link.2.2 = m.link.2.2 := by
  unfold Model.activate
  split <;> rfl

theorem onRegistered_patient (m : Model) (server username uuid : String) :
    Patient m (m.onRegistered server username uuid) := by
  refine .of_link ?_ (show Cmd.reconnectTick ∉ [Cmd.send .listChats] by decide)
  unfold Model.onRegistered
  rw [(enterChat_keeps _).1]
  exact activate_wait m server

theorem onAttest_patient (m : Model) (attest : Attest) : Patient m (m.onAttest attest) := by
  unfold Model.onAttest
  dsimp only
  split_ifs
  all_goals exact .of_link rfl (by simp)

theorem onVerdictTick_patient (m : Model) : Patient m m.onVerdictTick := by
  unfold Model.onVerdictTick
  dsimp only
  split_ifs
  all_goals exact .of_link rfl (by simp)

variable [Layout]

/-- The messages that end a wait, or may begin one. -/
def Msg.aboutWait {Key : Type} : Msg Key → Bool
  | .connected .. | .disconnected .. | .maintenance _ | .clockTick _ | .reconnectTick => true
  | _ => false

theorem update_waits (m : Model) {msg : Msg Terminal.Key} (other : msg.aboutWait = false) :
    Patient m (m.update msg) := by
  have silent : ∀ m' : Model, m'.link = m.link → Patient m (m', []) := fun m' link =>
    .of_link (congrArg (fun link => link.2.2) link) List.not_mem_nil
  cases msg with
  | key key => exact (onKey_does m key).patient
  | mouse mouse => exact (handleMouse_does m mouse).patient
  | windowSize width height =>
      exact silent _ (layout_keeps { m with width := width, height := height }).1
  | servers servers =>
      refine .of_link ?_ List.not_mem_nil
      exact congrArg Prod.snd (onServers_keeps m servers).2.2
  | attest attest => exact onAttest_patient m attest
  | verdictTick => exact onVerdictTick_patient m
  | registered server username uuid => exact onRegistered_patient m server username uuid
  | chats server chats => exact silent _ rfl
  | openChat chat =>
      refine .of_link (congrArg (fun link => link.2.2) (onOpenChat_keeps m chat).1) ?_
      exact fun member => nomatch List.mem_singleton.mp member
  | history chat messages => exact silent _ (onHistory_keeps m chat messages).1
  | message chat message => exact silent _ (onMessage_keeps m chat message).1
  | ready | needUsername | fingerprint | theme | widgets | storePlugins | installedPlugins
  | pluginInstalled | pluginUpdate | pluginSubmitted | clientUpdate | selfUpdate | error | info
  | pong | coreClosed => exact (update_quiet m rfl).patient
  | _ => cases other

/-! ### The loop and its ticks -/

/-- The state, and the reconnect ticks that are under way. -/
structure Loop where
  model : Model
  reconnectTicks : Nat

/-- The ticks that are under way once a message has been taken. -/
def Loop.taken (l : Loop) : Msg Terminal.Key → Nat
  | .reconnectTick => l.reconnectTicks - 1
  | _ => l.reconnectTicks

def Loop.step (msg : Msg Terminal.Key) (l : Loop) : Loop :=
  ⟨(l.model.update msg).1, l.taken msg + (l.model.update msg).2.count .reconnectTick⟩

def Loop.start : Loop := ⟨newModel, 0⟩

/-- Only a tick that is under way arrives. -/
def Arrives (msg : Msg Terminal.Key) (l : Loop) : Prop :=
  match msg with
  | .reconnectTick => 0 < l.reconnectTicks
  | _ => True

/-- One reconnect tick is under way while the client waits and is not connected. -/
def OneTick (l : Loop) : Prop :=
  l.model.waitingForServer = true → l.model.connected = false → l.reconnectTicks = 1

/-- A reconnect tick in a wait connects to the server that was announced. -/
def Reconnects (msg : Msg Terminal.Key) (l : Loop) : Prop :=
  match msg with
  | .reconnectTick => l.model.waitingForServer = true → ∃ announced,
      l.model.maintenance = some announced ∧
      .send (.connect announced.server) ∈ (l.model.update .reconnectTick).2
  | _ => True

/-- A wait begins when no tick is under way; a tick in a wait finds the connection gone, and the
announced server still the active one. -/
def Orderly (msg : Msg Terminal.Key) (l : Loop) : Prop :=
  match msg with
  | .clockTick now => l.model.waitingForServer = false → ∀ announced ∈ l.model.maintenance,
      remainingSecs announced.deadlineMs now ≤ 0 → l.reconnectTicks = 0
  | .disconnected server _ => l.model.waitingForServer = false →
      l.model.ours server → l.model.maintenance.isSome = true → l.reconnectTicks = 0
  | .reconnectTick => l.model.waitingForServer = true → l.model.connected = false ∧
      ∀ announced ∈ l.model.maintenance, announced.server = l.model.serverAddr
  | _ => True

instance Arrives.decidable (msg : Msg Terminal.Key) (l : Loop) : Decidable (Arrives msg l) := by
  apply Msg.casesOn (motive := fun msg => Decidable (Arrives msg l)) msg <;> intros <;> unfold Arrives <;>
    infer_instance

instance Orderly.decidable (msg : Msg Terminal.Key) (l : Loop) : Decidable (Orderly msg l) := by
  apply Msg.casesOn (motive := fun msg => Decidable (Orderly msg l)) msg <;> intros <;> unfold Orderly <;>
    infer_instance

/-! ### The invariant -/

/-- A wait has one tick, and an announcement. -/
def OneChain (l : Loop) : Prop :=
  l.model.waitingForServer = true → l.reconnectTicks = 1 ∧ l.model.maintenance.isSome = true

theorem oneChain_patient {l : Loop} (one : OneChain l) {msg : Msg Terminal.Key}
    (taken : l.taken msg = l.reconnectTicks) (patient : Patient l.model (l.model.update msg)) :
    OneChain (l.step msg) := by
  intro waits
  have before : l.model.waitingForServer = true := patient.waits.symm.trans waits
  obtain ⟨ticks, announced⟩ := one before
  refine ⟨?_, ?_⟩
  · show l.taken msg + _ = 1
    rw [taken, ticks, List.count_eq_zero.mpr patient.noTick]
  · show (l.model.update msg).1.maintenance.isSome = true
    rw [patient.maintenance]
    exact announced

theorem oneChain_disconnected {l : Loop} (one : OneChain l) {server reason : String}
    (orderly : Orderly (.disconnected server reason) l) :
    OneChain (l.step (.disconnected server reason)) := by
  have stays : ∀ m' : Model, l.model.onDisconnected server reason = (m', []) →
      m'.waitingForServer = l.model.waitingForServer → m'.maintenance = l.model.maintenance →
      OneChain (l.step (.disconnected server reason)) := by
    intro m' is waits maintenance
    refine oneChain_patient one rfl ?_
    show Patient l.model (l.model.onDisconnected server reason)
    rw [is]
    exact ⟨maintenance, waits, List.not_mem_nil⟩
  by_cases ours : l.model.ours server
  · by_cases announced : l.model.maintenance.isSome = true
    · cases waits : l.model.waitingForServer with
      | true =>
          refine stays { l.model with connected := false } ?_ rfl rfl
          unfold Model.onDisconnected
          dsimp only
          rw [if_pos ours, if_pos announced, waits]
          rfl
      | false =>
          have is : l.model.onDisconnected server reason =
              ({ l.model with connected := false, waitingForServer := true }.flash
                "server is restarting — waiting for server…" false, [.reconnectTick]) := by
            unfold Model.onDisconnected
            dsimp only
            rw [if_pos ours, if_pos announced, waits]
            rfl
          intro _
          refine ⟨?_, ?_⟩
          · show l.reconnectTicks + (l.model.onDisconnected server reason).2.count _ = 1
            rw [is, orderly waits ours announced]
            exact (show 0 + [Cmd.reconnectTick].count .reconnectTick = 1 by decide)
          · show (l.model.onDisconnected server reason).1.maintenance.isSome = true
            rw [is]
            exact announced
    · refine stays ({ l.model with connected := false }.flash ("disconnected: " ++ reason) true) ?_
        rfl rfl
      unfold Model.onDisconnected
      dsimp only
      rw [if_pos ours, if_neg announced]
  · refine stays (l.model.flash ("disconnected: " ++ reason) true) ?_ rfl rfl
    unfold Model.onDisconnected
    rw [if_neg ours]

theorem oneChain_clockTick {l : Loop} (one : OneChain l) {now : Int}
    (orderly : Orderly (.clockTick now) l) : OneChain (l.step (.clockTick now)) := by
  have stays : l.model.onClockTick now = (l.model, [.clockTick]) →
      OneChain (l.step (.clockTick now)) := by
    intro is
    refine oneChain_patient one rfl ?_
    show Patient l.model (l.model.onClockTick now)
    rw [is]
    exact ⟨rfl, rfl, show Cmd.reconnectTick ∉ [Cmd.clockTick] by decide⟩
  cases announced : l.model.maintenance with
  | none =>
      refine stays ?_
      unfold Model.onClockTick
      rw [announced]
  | some maintenance =>
      by_cases passed : (!l.model.waitingForServer) = true ∧
          remainingSecs maintenance.deadlineMs now ≤ 0
      · have is : l.model.onClockTick now =
            ({ l.model with waitingForServer := true }, [.reconnectTick, .clockTick]) := by
          unfold Model.onClockTick
          split
          next found =>
            obtain rfl : _ = maintenance := Option.some.inj (found.symm.trans announced)
            rw [if_pos passed]
          next absent => cases announced.symm.trans absent
        obtain ⟨notWaiting, gone⟩ := passed
        intro _
        refine ⟨?_, ?_⟩
        · show l.reconnectTicks + (l.model.onClockTick now).2.count _ = 1
          rw [is, orderly (Bool.not_eq_true' _ |>.mp notWaiting) maintenance announced gone]
          exact (show 0 + [Cmd.reconnectTick, .clockTick].count .reconnectTick = 1 by decide)
        · show (l.model.onClockTick now).1.maintenance.isSome = true
          rw [is]
          show l.model.maintenance.isSome = true
          rw [announced]
          rfl
      · refine stays ?_
        unfold Model.onClockTick
        rw [announced]
        dsimp only
        rw [if_neg passed]

theorem oneChain_reconnectTick {l : Loop} (one : OneChain l) (orderly : Orderly .reconnectTick l) :
    OneChain (l.step .reconnectTick) := by
  cases waits : l.model.waitingForServer with
  | true =>
      obtain ⟨ticks, announced⟩ := one waits
      have is : l.model.onReconnectTick =
          (l.model, [.send (.connect l.model.serverAddr), .reconnectTick]) := by
        unfold Model.onReconnectTick
        rw [waits, (orderly waits).1]
        rfl
      intro _
      refine ⟨?_, ?_⟩
      · show l.reconnectTicks - 1 + l.model.onReconnectTick.2.count _ = 1
        rw [is, ticks]
        simp
      · show l.model.onReconnectTick.1.maintenance.isSome = true
        rw [is]
        exact announced
  | false =>
      intro after
      have same : l.model.onReconnectTick.1 = l.model := by
        unfold Model.onReconnectTick
        rw [waits]
        rfl
      have after : l.model.onReconnectTick.1.waitingForServer = true := after
      rw [same, waits] at after
      cases after

/-- **A step keeps the chain.** -/
theorem oneChain_step {l : Loop} (one : OneChain l) {msg : Msg Terminal.Key}
    (orderly : Orderly msg l) : OneChain (l.step msg) := by
  cases other : msg.aboutWait with
  | false =>
      refine oneChain_patient one ?_ (update_waits l.model other)
      cases msg with
      | reconnectTick => cases other
      | _ => rfl
  | true =>
      cases msg with
      | connected server username active =>
          intro waits
          have waits : (l.model.onConnected server username).1.waitingForServer = true := waits
          have link : (l.model.onConnected server username).1.link.2.2 = (none, false) := by
            unfold Model.onConnected
            rw [(enterChat_keeps _).1, (welcome_keeps _).1]
          rw [(Prod.mk.inj link).2] at waits
          cases waits
      | disconnected server reason => exact oneChain_disconnected one orderly
      | maintenance announced =>
          intro waits
          exact ⟨(one waits).1, rfl⟩
      | clockTick now => exact oneChain_clockTick one orderly
      | reconnectTick => exact oneChain_reconnectTick one orderly
      | _ => cases other

theorem reconnects_of_orderly {l : Loop} (one : OneChain l) {msg : Msg Terminal.Key}
    (orderly : Orderly msg l) : Reconnects msg l := by
  cases msg with
  | reconnectTick =>
      intro waits
      obtain ⟨gone, active⟩ := orderly waits
      obtain ⟨announced, is⟩ := Option.isSome_iff_exists.mp (one waits).2
      refine ⟨announced, is, ?_⟩
      show _ ∈ l.model.onReconnectTick.2
      unfold Model.onReconnectTick
      rw [waits, gone, active announced is]
      exact List.mem_cons_self
  | _ => trivial

/-- **Waiting neither stalls nor multiplies**, in any sequence of messages that is orderly. -/
theorem waits_steady (msgs : List (Msg Terminal.Key))
    (orderly : Steps.Each Loop.step (fun msg l => Arrives msg l ∧ Orderly msg l) msgs .start) :
    Steps.Each Loop.step (fun msg l => OneTick l ∧ Reconnects msg l ∧ OneTick (l.step msg)) msgs
      .start := by
  have step : ∀ msg l, OneChain l → (Arrives msg l ∧ Orderly msg l) → OneChain (Loop.step msg l) :=
    fun _ _ one meets => oneChain_step one meets.2
  have begun : OneChain .start := fun waits => nomatch waits
  refine (orderly.keeps step begun).mono fun msg l ⟨before, meets, after⟩ => ?_
  exact ⟨fun waits _ => (before waits).1, reconnects_of_orderly before meets.2,
    fun waits _ => (after waits).1⟩

end

namespace Ideal

attribute [local instance] terminal layout

/-- A server announces a restart at the third second. -/
def announced : Maintenance := ⟨"a:1", "updating", 3000, "2.0"⟩

/-- The old connection closes at the restart, and a new one is made after a tick. -/
def restarted : List (Msg String) :=
  [.connected "a:1" "alice" true, .maintenance announced, .disconnected "a:1" "closed",
    .clockTick 4000, .reconnectTick, .connected "a:1" "alice" true, .reconnectTick]

theorem restarted_steady :
    Steps.Each Loop.step (fun msg l => OneTick l ∧ Reconnects msg l ∧ OneTick (l.step msg))
      restarted .start :=
  waits_steady restarted (by decide +kernel)

/-- The deadline passes, and a tick finds the old connection, before that closes. -/
def lateClose : List (Msg String) :=
  [.connected "a:1" "alice" true, .maintenance announced, .clockTick 4000, .reconnectTick,
    .disconnected "a:1" "closed"]

/-- **The client waits and no tick is under way.** -/
theorem lateClose_stalls : Steps.Each Loop.step Arrives lateClose .start ∧
    ¬ Steps.Each Loop.step (fun msg l => OneTick l ∧ Reconnects msg l ∧ OneTick (l.step msg))
      lateClose .start := by
  refine ⟨by decide +kernel, ?_⟩
  rintro ⟨_, _, _, _, ⟨_, _, one⟩, _⟩
  have stalls : (Steps.run Loop.step lateClose .start).model.waitingForServer = true ∧
      (Steps.run Loop.step lateClose .start).model.connected = false ∧
      (Steps.run Loop.step lateClose .start).reconnectTicks = 0 := by decide +kernel
  obtain ⟨waits, gone, none_left⟩ := stalls
  cases none_left.symm.trans (one waits gone)

end Ideal

end ChermTui
