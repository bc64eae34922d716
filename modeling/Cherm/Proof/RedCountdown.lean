/-
**A red server and its countdown.**

The countdown is one number for whatever verdict is shown. It is set when a red attestation is shown
and goes down by one tick of the screen at a time, so a red attestation is accepted after as many
ticks. The list of servers asks for nothing of the kind.

* `Watched`: the update loop beside the most recent verdict on every server.
* `Counted` is the invariant; `red_counted` the run.
-/

import Cherm.Lib.Steps
import Cherm.Tui.Ideal
import Cherm.Tui.Quiet

namespace ChermTui

/-! ### The most recent verdicts -/

/-- A verdict on a server: whether an attestation or the list of servers brought it, and for how many
ticks it has been shown since. -/
structure Standing where
  verdict : String
  attested : Bool
  ticks : Int
deriving DecidableEq

/-- An entry of the list is a verdict, unless it says again what was known. -/
def listVerdict (standing : Table String Standing) (s : ServerInfo) : Table String Standing :=
  match standing.get s.addr with
  | some known => if known.verdict = s.verdict then standing
      else standing.put s.addr ⟨s.verdict, false, 0⟩
  | none => standing.put s.addr ⟨s.verdict, false, 0⟩

theorem listVerdict_attested {standing : Table String Standing} {s : ServerInfo} {server : String}
    {known : Standing} (is : known ∈ (listVerdict standing s).get server)
    (attested : known.attested = true) : known ∈ standing.get server := by
  have put : ∀ verdict, known ∈ (standing.put s.addr ⟨verdict, false, 0⟩).get server →
      known ∈ standing.get server := by
    intro verdict is
    rw [Table.get_put] at is
    split at is
    · obtain rfl := Option.some.inj is
      cases attested
    · exact is
  unfold listVerdict at is
  split at is
  · split at is
    · exact is
    · exact put _ is
  · exact put _ is

theorem listVerdicts_attested {servers : List ServerInfo} {standing : Table String Standing}
    {server : String} {known : Standing}
    (is : known ∈ (servers.foldl listVerdict standing).get server)
    (attested : known.attested = true) : known ∈ standing.get server := by
  induction servers generalizing standing with
  | nil => exact is
  | cons s rest ih => exact listVerdict_attested (ih is) attested

section

variable [Terminal]

structure Watched where
  model : Model
  standing : Table String Standing

/-- A red attestation that is shown has been shown for what is gone of its countdown. -/
def Counted (w : Watched) : Prop :=
  ∀ known ∈ w.standing.get w.model.verdict.server, known.attested = true →
    known.verdict = w.model.verdict.verdict ∧
      (known.verdict = "red" → redCountdownSecs ≤ w.model.verdictCountdown + known.ticks)

theorem Counted.of_countdown {w w' : Watched} (counted : Counted w)
    (same : w'.model.countdown = w.model.countdown)
    (standing : ∀ known ∈ w'.standing.get w.model.verdict.server, known.attested = true →
      known ∈ w.standing.get w.model.verdict.server) : Counted w' := by
  obtain ⟨verdict, rest⟩ := Prod.mk.inj same
  obtain ⟨countdown, _⟩ := Prod.mk.inj rest
  unfold Counted
  rw [verdict, countdown]
  intro known is attested
  exact counted known (standing known is attested) attested

variable [Layout]

/-- The verdict that is shown has been shown for one tick more. -/
def showTick (m : Model) (standing : Table String Standing) : Table String Standing :=
  if m.screen = .verdict then match standing.get m.verdict.server with
    | some known => standing.put m.verdict.server { known with ticks := known.ticks + 1 }
    | none => standing
  else standing

def Watched.receive (w : Watched) : Msg Terminal.Key → Table String Standing
  | .attest attest => w.standing.put attest.server ⟨attest.verdict, true, 0⟩
  | .servers servers | .ready servers _ _ => servers.foldl listVerdict w.standing
  | .verdictTick => showTick w.model w.standing
  | _ => w.standing

/-- The loop takes a message. -/
def Watched.step (msg : Msg Terminal.Key) (w : Watched) : Watched :=
  ⟨(w.model.update msg).1, w.receive msg⟩

def Watched.start : Watched := ⟨newModel, ∅⟩

/-- A key that connects to a server whose most recent verdict is red is Connect on that verdict,
which has been shown for the time of the countdown. -/
def Counts (msg : Msg Terminal.Key) (w : Watched) : Prop :=
  ∀ key, msg = .key key → ∀ server, .send (.connect server) ∈ (w.model.update msg).2 →
    ∀ known ∈ w.standing.get server, known.verdict = "red" →
      redCountdownSecs ≤ known.ticks ∧ w.model.screen = .verdict ∧
        w.model.verdict.server = server ∧ w.model.verdictSel ≠ 0

/-- Enter is not pressed on a red server of the list; and it is not pressed on Connect where the list
has brought a red verdict that the attestation did not. -/
def Checked (msg : Msg Terminal.Key) (w : Watched) : Prop :=
  match msg with
  | .key key => Terminal.keyText key = "enter" →
      (w.model.screen = .servers → ∀ s ∈ selected w.model.servers w.model.serverSel,
        (s.active && w.model.connected) = false → ∀ known ∈ w.standing.get s.addr,
          known.verdict ≠ "red") ∧
      (w.model.screen = .verdict → w.model.verdictSel ≠ 0 →
        ∀ known ∈ w.standing.get w.model.verdict.server, known.verdict = "red" →
          known.attested = true)
  | _ => True

instance Checked.decidable (msg : Msg Terminal.Key) (w : Watched) : Decidable (Checked msg w) := by
  apply Msg.casesOn (motive := fun msg => Decidable (Checked msg w)) msg <;> intros <;> unfold Checked <;>
    infer_instance

/-! ### The invariant -/

theorem counted_attest {w : Watched} (attest : Attest) : Counted (w.step (.attest attest)) := by
  have shown : (w.model.onAttest attest).1.verdict = attest ∧ (attest.verdict = "red" →
      (w.model.onAttest attest).1.verdictCountdown = redCountdownSecs) := by
    unfold Model.onAttest
    dsimp only
    split_ifs with red
    · exact ⟨rfl, fun _ => rfl⟩
    · exact ⟨rfl, fun _ => rfl⟩
    · exact ⟨rfl, fun isRed => absurd isRed red⟩
  intro known is _
  have verdict : (w.step (.attest attest)).model.verdict = attest := shown.1
  rw [verdict] at is ⊢
  have put : known ∈ (w.standing.put attest.server ⟨attest.verdict, true, 0⟩).get attest.server := is
  rw [Table.get_put, if_pos rfl] at put
  obtain rfl := Option.some.inj put
  refine ⟨rfl, fun red => ?_⟩
  have countdown : (w.step (.attest attest)).model.verdictCountdown = redCountdownSecs :=
    shown.2 red
  rw [countdown]
  show redCountdownSecs ≤ redCountdownSecs + 0
  omega

theorem counted_tick {w : Watched} (counted : Counted w) : Counted (w.step .verdictTick) := by
  have verdict : (w.step .verdictTick).model.verdict = w.model.verdict := by
    show (w.model.onVerdictTick).1.verdict = _
    unfold Model.onVerdictTick
    dsimp only
    split_ifs <;> rfl
  intro known is attested
  rw [verdict] at is ⊢
  have shown : known ∈ (showTick w.model w.standing).get w.model.verdict.server := is
  unfold showTick at shown
  by_cases screen : w.model.screen = .verdict
  · -- one tick more, and at most one second less
    have countdown : w.model.verdictCountdown - 1 ≤
        (w.step .verdictTick).model.verdictCountdown := by
      show _ ≤ (w.model.onVerdictTick).1.verdictCountdown
      unfold Model.onVerdictTick
      dsimp only
      split_ifs
      all_goals
        dsimp only
        omega
    rw [if_pos screen] at shown
    cases before : w.standing.get w.model.verdict.server with
    | none =>
        rw [before] at shown
        cases before.symm.trans shown
    | some old =>
        rw [before] at shown
        dsimp only at shown
        rw [Table.get_put, if_pos rfl] at shown
        obtain rfl := Option.some.inj shown
        obtain ⟨same, counts⟩ := counted old before attested
        refine ⟨same, fun red => ?_⟩
        have := counts red
        dsimp only
        omega
  · have countdown : (w.step .verdictTick).model.verdictCountdown = w.model.verdictCountdown := by
      show (w.model.onVerdictTick).1.verdictCountdown = _
      unfold Model.onVerdictTick
      rw [if_neg fun both => screen both.1]
    rw [if_neg screen] at shown
    rw [countdown]
    exact counted known shown attested

/-- **A step keeps the invariant**, whatever the message. -/
theorem counted_step {w : Watched} (counted : Counted w) (msg : Msg Terminal.Key) :
    Counted (w.step msg) := by
  have same : (w.step msg).model.countdown = w.model.countdown →
      (w.step msg).standing = w.standing → Counted (w.step msg) := by
    intro countdown standing
    refine counted.of_countdown countdown fun known is _ => ?_
    rw [standing] at is
    exact is
  cases msg with
  | attest attest => exact counted_attest attest
  | verdictTick => exact counted_tick counted
  | servers servers =>
      exact counted.of_countdown (onServers_keeps w.model servers).2.1
        fun known is attested => listVerdicts_attested is attested
  | ready servers hasMaster clientVersion =>
      exact counted.of_countdown (onReady_quiet w.model servers hasMaster clientVersion).countdown
        fun known is attested => listVerdicts_attested is attested
  | key key => exact same (onKey_does w.model key).countdown rfl
  | mouse mouse => exact same (handleMouse_does w.model mouse).countdown rfl
  | windowSize width height =>
      exact same (layout_keeps { w.model with width := width, height := height }).2 rfl
  | registered server username uuid =>
      exact same ((enterChat_keeps _).2.trans (activate_countdown w.model server)) rfl
  | connected server username active => exact same (onConnected_countdown w.model server username) rfl
  | disconnected server reason => exact same (onDisconnected_keeps w.model server reason).2 rfl
  | chats server chats => exact same rfl rfl
  | openChat chat => exact same (onOpenChat_keeps w.model chat).2 rfl
  | history chat messages => exact same (onHistory_keeps w.model chat messages).2 rfl
  | message chat message => exact same (onMessage_keeps w.model chat message).2 rfl
  | maintenance maintenance => exact same rfl rfl
  | clockTick now => exact same (onClockTick_keeps w.model now).2 rfl
  | reconnectTick => exact same (onReconnectTick_keeps w.model).2 rfl
  | needUsername | fingerprint | theme | widgets | storePlugins | installedPlugins
  | pluginInstalled | pluginUpdate | pluginSubmitted | clientUpdate | selfUpdate | error | info
  | pong | coreClosed => exact same (update_quiet w.model rfl).countdown rfl

/-- A key that connects meets the invariant where it is checked. -/
theorem counts_of_checked {w : Watched} (counted : Counted w) {msg : Msg Terminal.Key}
    (checked : Checked msg w) : Counts msg w := by
  rintro key rfl server sent known is red
  have does := onKey_does w.model key
  have key_sent : .send (.connect server) ∈ (w.model.onKey key).2 := sent
  have notTame : (Cmd.send (.connect server)).tame = false := rfl
  generalize w.model.onKey key = u at does key_sent
  cases does with
  | quiet quiet =>
      rw [quiet.tame _ key_sent] at notTame
      cases notTame
  | @listed s enter screen row other _ cmds =>
      rw [cmds, List.mem_singleton] at key_sent
      cases key_sent
      exact absurd red ((checked (Option.some.inj enter)).1 screen s row other known is)
  | accepted enter screen connect elapsed _ cmds =>
      rw [cmds, List.mem_singleton] at key_sent
      cases key_sent
      have attested := (checked (Option.some.inj enter)).2 screen connect known is red
      obtain ⟨same, counts⟩ := counted known is attested
      have counts := counts red
      rw [red] at same
      have elapses : ¬ w.model.verdictCountdown > 0 := fun more => elapsed ⟨same.symm, more⟩
      exact ⟨by omega, screen, rfl, connect⟩
  | shown _ _ _ _ is =>
      rw [is] at key_sent
      cases List.mem_singleton.mp key_sent
  | back is =>
      rw [is] at key_sent
      cases List.mem_singleton.mp key_sent
  | row _ _ _ _ _ cmds | text _ _ _ cmds | left _ _ _ cmds =>
      rw [cmds] at key_sent
      cases List.mem_singleton.mp key_sent

/-- **A red server is joined after its countdown**, in any sequence of messages in which Enter is not
pressed on a red server of the list. -/
theorem red_counted (msgs : List (Msg Terminal.Key))
    (checked : Steps.Each Watched.step Checked msgs .start) :
    Steps.Each Watched.step Counts msgs .start := by
  have begun : Counted .start := by
    intro known is
    rw [show Watched.start.standing = ∅ from rfl] at is
    cases (Table.get_empty _).symm.trans is
  have step : ∀ msg w, Counted w → Checked msg w → Counted (Watched.step msg w) :=
    fun msg w counted _ => counted_step counted msg
  have kept := checked.keeps step begun
  exact kept.mono fun msg w ⟨counted, checks, _⟩ => counts_of_checked counted checks

end

namespace Ideal

attribute [local instance] terminal layout

/-- A red server is checked, its countdown runs, and it is connected to. -/
def patient : List (Msg String) :=
  [.ready [] true "", .attest (attests "evil:9000" "red"), .key "tab"] ++
    List.replicate 10 .verdictTick ++ [.key "enter"]

theorem patient_counted : Steps.Each Watched.step Counts patient .start :=
  red_counted patient (by decide +kernel)

/-- Enter on a server of the list that is red. -/
def listedRed : List (Msg String) := [.ready [listed "evil:9000" "red" false] true "", .key "enter"]

/-- **A red server of the list is joined at once.** -/
theorem listedRed_joined : ¬ Steps.Each Watched.step Counts listedRed .start := by
  rintro ⟨_, counts, _⟩
  have sent : Cmd.send (.connect "evil:9000") ∈
      (((Watched.step (.ready [listed "evil:9000" "red" false] true "") .start).model.update
        (.key "enter")).2) := by decide +kernel
  obtain ⟨_, screen, _⟩ := counts "enter" rfl "evil:9000" sent ⟨"red", false, 0⟩ (by decide +kernel)
    rfl
  exact absurd screen (by decide +kernel)

end Ideal

end ChermTui
