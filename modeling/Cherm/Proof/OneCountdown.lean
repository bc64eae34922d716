/-
**One chain of ticks for the countdown.**

A tick cannot be taken back. A chain that is no longer needed ends with its next tick, and a red
verdict that comes before that goes on with it.

* `Counting`: the update loop with the verdict ticks that are under way.
* `OneCountdown` is the invariant: a tick is under way exactly while the flag says so, and while a red
  verdict is counted down.
* `one_countdown`: so it is after every run.
-/

import Cherm.Lib.Steps
import Cherm.Tui.Ideal
import Cherm.Tui.Quiet
import Cherm.Tui.Screens

namespace ChermTui

/-- A single command that is no tick. -/
theorem noVerdictTick_one {c : Cmd} {cmds : List Cmd} (is : cmds = [c])
    (other : decide (c = .verdictTick) = false) : Cmd.verdictTick ∉ cmds := by
  rw [is, List.mem_singleton]
  exact fun same => of_decide_eq_false other same.symm

section

variable [Terminal]

/-- The countdown is as before, no tick begins, and no verdict appears. -/
structure Uncounted (m : Model) (u : Updated) : Prop where
  countdown : u.1.countdown = m.countdown
  noTick : Cmd.verdictTick ∉ u.2
  hides : Hides m u.1

theorem Quiet.noVerdictTick {m : Model} {u : Updated} (quiet : Quiet m u) :
    Cmd.verdictTick ∉ u.2 := by
  intro member
  have tame := quiet.tame _ member
  cases tame

theorem Does.noVerdictTick {m : Model} {key : Option String} {u : Updated} (does : Does m key u) :
    Cmd.verdictTick ∉ u.2 := by
  cases does with
  | quiet quiet => exact quiet.noVerdictTick
  | listed _ _ _ _ _ cmds => exact noVerdictTick_one cmds rfl
  | accepted _ _ _ _ _ cmds => exact noVerdictTick_one cmds rfl
  | text _ _ _ cmds => exact noVerdictTick_one cmds rfl
  | row _ _ _ _ _ cmds => exact noVerdictTick_one cmds rfl
  | left _ _ _ cmds => exact noVerdictTick_one cmds rfl
  | shown _ _ _ _ is => exact noVerdictTick_one (congrArg Prod.snd is) rfl
  | back is => exact noVerdictTick_one (congrArg Prod.snd is) rfl

theorem onDisconnected_noVerdictTick (m : Model) (server reason : String) :
    Cmd.verdictTick ∉ (m.onDisconnected server reason).2 := by
  unfold Model.onDisconnected
  dsimp only
  split_ifs
  · exact noVerdictTick_one rfl rfl
  · exact List.not_mem_nil
  · exact List.not_mem_nil
  · exact List.not_mem_nil

theorem onClockTick_noVerdictTick (m : Model) (now : Int) :
    Cmd.verdictTick ∉ (m.onClockTick now).2 := by
  unfold Model.onClockTick
  split
  · split
    · exact (show Cmd.verdictTick ∉ [Cmd.reconnectTick, .clockTick] by decide)
    · exact noVerdictTick_one rfl rfl
  · exact noVerdictTick_one rfl rfl

theorem onReconnectTick_noVerdictTick (m : Model) : Cmd.verdictTick ∉ m.onReconnectTick.2 := by
  unfold Model.onReconnectTick
  split
  · simp
  · exact List.not_mem_nil

variable [Layout]

/-! ### The loop and its ticks -/

/-- The state, and the verdict ticks that are under way. -/
structure Counting where
  model : Model
  verdictTicks : Nat

/-- The ticks that are under way once a message has been taken. -/
def Counting.taken (c : Counting) : Msg Terminal.Key → Nat
  | .verdictTick => c.verdictTicks - 1
  | _ => c.verdictTicks

def Counting.step (msg : Msg Terminal.Key) (c : Counting) : Counting :=
  ⟨(c.model.update msg).1, c.taken msg + (c.model.update msg).2.count .verdictTick⟩

def Counting.start : Counting := ⟨newModel, 0⟩

/-- Only a tick that is under way arrives. -/
def Due (msg : Msg Terminal.Key) (c : Counting) : Prop :=
  match msg with
  | .verdictTick => 0 < c.verdictTicks
  | _ => True

instance Due.decidable (msg : Msg Terminal.Key) (c : Counting) : Decidable (Due msg c) := by
  apply Msg.casesOn (motive := fun msg => Decidable (Due msg c)) msg <;> intros <;> unfold Due <;>
    infer_instance

/-- One tick is under way while the flag is set and none otherwise; and one is while a red verdict is
shown and counted down. -/
structure OneCountdown (c : Counting) : Prop where
  chain : c.verdictTicks = if c.model.verdictTicking then 1 else 0
  runs : c.model.screen = .verdict → c.model.verdict.verdict = "red" →
    0 < c.model.verdictCountdown → c.verdictTicks = 1

/-! ### What leaves the countdown alone -/

/-- The messages that are about the countdown. -/
def Msg.counts {Key : Type} : Msg Key → Bool
  | .attest _ | .verdictTick => true
  | _ => false

/-- **The other messages leave the countdown alone.** -/
theorem update_uncounted (m : Model) {msg : Msg Terminal.Key} (other : msg.counts = false) :
    Uncounted m (m.update msg) := by
  have hides : Hides m (m.update msg).1 := by
    refine update_hides m ?_
    cases msg with
    | attest attest => cases other
    | _ => rfl
  refine ⟨?_, ?_, hides⟩
  · cases msg with
    | attest attest => cases other
    | verdictTick => cases other
    | servers servers => exact (onServers_keeps m servers).2.1
    | key key => exact (onKey_does m key).countdown
    | mouse mouse => exact (handleMouse_does m mouse).countdown
    | windowSize width height =>
        exact (layout_keeps { m with width := width, height := height }).2
    | registered server username uuid => exact (enterChat_keeps _).2.trans (activate_countdown m server)
    | connected server username active => exact onConnected_countdown m server username
    | disconnected server reason => exact (onDisconnected_keeps m server reason).2
    | openChat chat => exact (onOpenChat_keeps m chat).2
    | history chat messages => exact (onHistory_keeps m chat messages).2
    | message chat message => exact (onMessage_keeps m chat message).2
    | clockTick now => exact (onClockTick_keeps m now).2
    | reconnectTick => exact (onReconnectTick_keeps m).2
    | chats | maintenance => rfl
    | ready | needUsername | fingerprint | theme | widgets | storePlugins | installedPlugins
    | pluginInstalled | pluginUpdate | pluginSubmitted | clientUpdate | selfUpdate | error | info
    | pong | coreClosed => exact (update_quiet m rfl).countdown
  · cases msg with
    | attest attest => cases other
    | verdictTick => cases other
    | key key => exact (onKey_does m key).noVerdictTick
    | mouse mouse => exact (handleMouse_does m mouse).noVerdictTick
    | registered server username uuid => exact noVerdictTick_one rfl rfl
    | connected server username active => exact noVerdictTick_one rfl rfl
    | disconnected server reason => exact onDisconnected_noVerdictTick m server reason
    | openChat chat => exact noVerdictTick_one rfl rfl
    | clockTick now => exact onClockTick_noVerdictTick m now
    | reconnectTick => exact onReconnectTick_noVerdictTick m
    | servers | windowSize | chats | history | message | maintenance => exact List.not_mem_nil
    | ready | needUsername | fingerprint | theme | widgets | storePlugins | installedPlugins
    | pluginInstalled | pluginUpdate | pluginSubmitted | clientUpdate | selfUpdate | error | info
    | pong | coreClosed => exact (update_quiet m rfl).noVerdictTick

/-! ### The invariant -/

theorem OneCountdown.of_uncounted {c : Counting} (one : OneCountdown c) {msg : Msg Terminal.Key}
    (taken : c.taken msg = c.verdictTicks) (uncounted : Uncounted c.model (c.model.update msg)) :
    OneCountdown (c.step msg) := by
  obtain ⟨verdict, rest⟩ := Prod.mk.inj uncounted.countdown
  obtain ⟨countdown, ticking⟩ := Prod.mk.inj rest
  have ticks : (c.step msg).verdictTicks = c.verdictTicks := by
    show c.taken msg + _ = _
    rw [taken, List.count_eq_zero.mpr uncounted.noTick, Nat.add_zero]
  have ticking : (c.step msg).model.verdictTicking = c.model.verdictTicking := ticking
  have verdict : (c.step msg).model.verdict = c.model.verdict := verdict
  have countdown : (c.step msg).model.verdictCountdown = c.model.verdictCountdown := countdown
  refine ⟨?_, fun shown red more => ?_⟩
  · rw [ticks, ticking]
    exact one.chain
  · rw [ticks]
    exact one.runs (uncounted.hides shown) (verdict ▸ red) (countdown ▸ more)

/-- A red verdict joins the chain that is alive, or begins one. -/
theorem OneCountdown.attest {c : Counting} (one : OneCountdown c) (attest : Attest) :
    OneCountdown (c.step (.attest attest)) := by
  have chain := one.chain
  by_cases red : attest.verdict = "red"
  · cases ticking : c.model.verdictTicking with
    | true =>
        rw [ticking, if_pos rfl] at chain
        have is : c.model.onAttest attest = ({ c.model with
            verdict := attest, checking := false, screen := .verdict, verdictSel := 0,
            verdictCountdown := redCountdownSecs }, []) := by
          unfold Model.onAttest
          dsimp only
          rw [if_pos red, if_pos ticking]
        have ticks : (c.step (.attest attest)).verdictTicks = 1 := by
          show c.verdictTicks + (c.model.onAttest attest).2.count .verdictTick = 1
          rw [is, chain]
          rfl
        refine ⟨?_, fun _ _ _ => ticks⟩
        rw [ticks]
        show 1 = if (c.model.onAttest attest).1.verdictTicking = true then 1 else 0
        rw [is]
        exact (if_pos ticking).symm
    | false =>
        rw [ticking, if_neg Bool.false_ne_true] at chain
        have is : c.model.onAttest attest = ({ c.model with
            verdict := attest, checking := false, screen := .verdict, verdictSel := 0,
            verdictCountdown := redCountdownSecs, verdictTicking := true }, [.verdictTick]) := by
          unfold Model.onAttest
          dsimp only
          rw [if_pos red, if_neg (Bool.eq_false_iff.mp ticking)]
        have ticks : (c.step (.attest attest)).verdictTicks = 1 := by
          show c.verdictTicks + (c.model.onAttest attest).2.count .verdictTick = 1
          rw [is, chain]
          rfl
        refine ⟨?_, fun _ _ _ => ticks⟩
        rw [ticks]
        show 1 = if (c.model.onAttest attest).1.verdictTicking = true then 1 else 0
        rw [is]
        rfl
  · have is : c.model.onAttest attest = ({ c.model with
        verdict := attest, checking := false, screen := .verdict, verdictSel := 1,
        verdictCountdown := 0 }, []) := by
      unfold Model.onAttest
      dsimp only
      rw [if_neg red]
    refine ⟨?_, fun _ isRed _ => ?_⟩
    · show c.verdictTicks + (c.model.onAttest attest).2.count .verdictTick =
        if (c.model.onAttest attest).1.verdictTicking = true then 1 else 0
      rw [is]
      exact chain
    · have isRed : (c.model.onAttest attest).1.verdict.verdict = "red" := isRed
      rw [is] at isRed
      exact absurd isRed red

/-- A tick is the only one: it begins the next, or the chain ends. -/
theorem OneCountdown.tick {c : Counting} (one : OneCountdown c) (due : Due .verdictTick c) :
    OneCountdown (c.step .verdictTick) := by
  have only : c.verdictTicks = 1 := by
    have under : 0 < c.verdictTicks := due
    have chain := one.chain
    split at chain
    · exact chain
    · omega
  have ends : ∀ m' : Model, c.model.onVerdictTick = (m', []) → m'.verdictTicking = false →
      ¬ (m'.screen = .verdict ∧ 0 < m'.verdictCountdown) → OneCountdown (c.step .verdictTick) := by
    intro m' is stopped past
    have ticks : (c.step .verdictTick).verdictTicks = 0 := by
      show c.verdictTicks - 1 + c.model.onVerdictTick.2.count .verdictTick = 0
      rw [is, only]
      rfl
    have model : (c.step .verdictTick).model = m' := congrArg Prod.fst is
    refine ⟨?_, fun shown _ more => ?_⟩
    · rw [ticks, model, stopped]
      rfl
    · rw [model] at shown more
      exact absurd ⟨shown, more⟩ past
  by_cases counts : c.model.screen = .verdict ∧ c.model.verdictCountdown > 0
  · by_cases more : c.model.verdictCountdown - 1 > 0
    · have is : c.model.onVerdictTick =
          ({ c.model with verdictCountdown := c.model.verdictCountdown - 1 }, [.verdictTick]) := by
        unfold Model.onVerdictTick
        dsimp only
        rw [if_pos counts, if_pos more]
      have ticks : (c.step .verdictTick).verdictTicks = 1 := by
        show c.verdictTicks - 1 + c.model.onVerdictTick.2.count .verdictTick = 1
        rw [is, only]
        rfl
      have marked : c.model.verdictTicking = true := by
        have chain := one.chain
        rw [only] at chain
        split at chain
        · next marked => exact marked
        · cases chain
      refine ⟨?_, fun _ _ _ => ticks⟩
      rw [ticks]
      show 1 = if c.model.onVerdictTick.1.verdictTicking = true then 1 else 0
      rw [is]
      exact (if_pos marked).symm
    · refine ends { c.model with verdictCountdown := c.model.verdictCountdown - 1,
                                 verdictTicking := false } ?_ rfl fun both => more both.2
      unfold Model.onVerdictTick
      dsimp only
      rw [if_pos counts, if_neg more]
  · refine ends { c.model with verdictTicking := false } ?_ rfl counts
    unfold Model.onVerdictTick
    dsimp only
    rw [if_neg counts]

/-- **A step keeps the chain.** -/
theorem OneCountdown.step {c : Counting} (one : OneCountdown c) {msg : Msg Terminal.Key}
    (due : Due msg c) : OneCountdown (c.step msg) := by
  cases other : msg.counts with
  | false =>
      refine one.of_uncounted ?_ (update_uncounted c.model other)
      cases msg with
      | verdictTick => cases other
      | _ => rfl
  | true =>
      cases msg with
      | attest attest => exact one.attest attest
      | verdictTick => exact one.tick due
      | _ => cases other

end

namespace Ideal

attribute [local instance] terminal layout

end Ideal

end ChermTui
