/-
**The relay as a function of what it is given.**

The relay chooses nothing. What connections do, what they send, when tasks and writers go on, what
the clock says and what is drawn at random are its inputs: a `Stimulus` is one of them. `step` is
what the relay does with an input, if the input can occur, and `replay` what it does with a
sequence.

* `step_next` and `exists_step`: the steps of `relay` are the inputs.
* `replay_reached` and `exists_replay`: its runs are the replays.
-/

import Cherm.Relay.System

namespace Cherm.Relay

open Crates

/-- What the outside answers to a request. -/
structure Outside where
  now : Int
  nonce : Bytes
  uuid : String
  allowed : Bool
  attestation : Except String Json

/-- One input of the relay. -/
inductive Stimulus where
  /-- A connection is accepted. -/
  | accept (c : Nat)
  /-- A message of a client was read; `none` is a frame that is not one. -/
  | receive (c : Nat) (msg : Option ClientMsg)
  /-- A client closed its connection. -/
  | hangUp (c : Nat)
  /-- A task goes on with its next request. -/
  | request (c : Nat) (outside : Outside)
  /-- A task has come to its end. -/
  | finish (c : Nat)
  /-- A writer takes a message from its channel. -/
  | take (c : Nat)
  /-- A writer has written the message it took. -/
  | write (c : Nat)
  /-- A writer stops. -/
  | stop (c : Nat)
  /-- The outbox is pruned. -/
  | prune (cutoff : Int)

instance (value : Int) : Decidable (IsI64 value) := inferInstanceAs (Decidable (_ ∧ _))

instance : DecidablePred InRange
  | none => inferInstanceAs (Decidable True)
  | some msg => match msg with
    | .send msg => inferInstanceAs (Decidable (IsI64 msg.clientTs))
    | .register .. | .authBegin .. | .authFinish .. | .publishPrekeys .. | .fetchPrekeys ..
    | .attestRequest .. | .clientHello .. | .getServerInfo | .pull | .ping =>
        inferInstanceAs (Decidable True)

section

variable [Crates]

namespace System

/-- The answer to a request of connection `c` and what it leaves, unless it has to wait. -/
def serve (sys : System) (c : Nat) (outside : Outside) : (request : Ask) →
    Option (request.Answer × System)
  | .call (.enqueue recipient frame ts) => some (sys.enqueue c recipient frame ts)
  | .call op => some ((op.exec sys.store).1, { sys with store := (op.exec sys.store).2 })
  | .trySend msg => some (sys.offer c ⟨msg, none, none⟩)
  | .sendWait msg =>
      if (sys.conns c).alive = true → (sys.conns c).chan.length < outboundCap
      then some (sys.pushRow c msg) else none
  | .push conn msg => some (sys.pushCopy c conn msg)
  | .allow _ => some (outside.allowed, sys)
  | .attest _ => some (outside.attestation, sys)
  | .now => if IsI64 outside.now then some (outside.now, sys) else none
  | .randomNonce => some (outside.nonce, sys)
  | .randomUuid => some (outside.uuid, sys)

end System

/-- What an input makes of the relay, if it can occur. -/
def step (config : ServerConfig) : Stimulus → RelayState → Option RelayState
  | .accept c, (tasks, sys) =>
      if (sys.conns c).life = .fresh then
        some (tasks, sys.update c fun conn => { conn with life := .open, alive := true })
      else none
  | .receive c msg, (tasks, sys) =>
      if (tasks c).isNone ∧ (sys.conns c).life = .open ∧ InRange msg then
        some (Function.update tasks c (some (handle c config (sys.conns c).state msg)), sys)
      else none
  | .hangUp c, (tasks, sys) =>
      if (tasks c).isNone ∧ (sys.conns c).life = .open then
        some (Function.update tasks c (some ((close c (sys.conns c).state).bind fun _ =>
          .done (sys.conns c).state)), sys.update c fun conn => { conn with life := .closing })
      else none
  | .request c outside, (tasks, sys) =>
      match tasks c with
      | some (.ask request next) =>
          (sys.serve c outside request).map fun (answer, sys') =>
            (Function.update tasks c (some (next answer)), sys'.note c request answer)
      | _ => none
  | .finish c, (tasks, sys) =>
      match tasks c with
      | some (.done state) => some (Function.update tasks c none, sys.update c fun conn =>
          { conn with state, life := if conn.life = .closing then .closed else conn.life })
      | _ => none
  | .take c, (tasks, sys) =>
      match (sys.conns c).alive, (sys.conns c).writing, (sys.conns c).chan with
      | true, none, entry :: rest =>
          some (tasks, sys.update c fun conn => { conn with chan := rest, writing := some entry })
      | _, _, _ => none
  | .write c, (tasks, sys) =>
      match (sys.conns c).writing with
      | some entry => some (tasks, { sys.update c fun conn => { conn with writing := none } with
          written := sys.written ++ [(c, entry)] })
      | none => none
  | .stop c, (tasks, sys) =>
      if (sys.conns c).alive = true then some (tasks, sys.update c fun conn =>
        { conn with alive := false, chan := [], writing := none })
      else none
  | .prune cutoff, (tasks, sys) =>
      some (tasks, { sys with
        store := { sys.store with outbox := sys.store.outbox.filter fun row => cutoff ≤ row.ts }
        pruned := sys.pruned ++ (sys.store.outbox.filter fun row => row.ts < cutoff).filterMap
          fun row => sys.rowCopy row.id })

/-- What a sequence of inputs makes of the relay, if they can occur. -/
def replay (config : ServerConfig) (inputs : List Stimulus) (state : RelayState) :
    Option RelayState :=
  match inputs with
  | [] => some state
  | input :: rest => (step config input state).bind (replay config rest)

/-! ### The steps of the relay are the inputs -/

theorem serve_onSystem {sys sys' : System} {c : Nat} {outside : Outside} {request : Ask}
    {answer : request.Answer} (served : sys.serve c outside request = some (answer, sys')) :
    request.effect c sys answer sys' := by
  cases request with
  | call op =>
      cases op with
      | enqueue recipient frame ts => exact (Option.some.inj served).symm
      | _ => exact (Prod.mk.inj (Option.some.inj served)).imp Eq.symm Eq.symm
  | trySend msg => exact (Option.some.inj served).symm
  | sendWait msg =>
      obtain ⟨room, same⟩ := Option.ite_none_right_eq_some.mp served
      exact ⟨room, (Option.some.inj same).symm⟩
  | push conn msg => exact (Option.some.inj served).symm
  | now =>
      obtain ⟨fits, same⟩ := Option.ite_none_right_eq_some.mp served
      obtain ⟨rfl, rfl⟩ := Prod.mk.inj (Option.some.inj same)
      exact ⟨fits, rfl⟩
  | _ => exact (Prod.mk.inj (Option.some.inj served)).2.symm

/-- What the outside has to answer for a request to be answered so. -/
def Outside.saying : (request : Ask) → request.Answer → Outside
  | .allow _, allowed => ⟨0, [], "", allowed, .ok .null⟩
  | .attest _, attestation => ⟨0, [], "", true, attestation⟩
  | .now, now => ⟨now, [], "", true, .ok .null⟩
  | .randomNonce, nonce => ⟨0, nonce, "", true, .ok .null⟩
  | .randomUuid, uuid => ⟨0, [], uuid, true, .ok .null⟩
  | _, _ => ⟨0, [], "", true, .ok .null⟩

theorem serve_saying {sys sys' : System} {c : Nat} {request : Ask} {answer : request.Answer}
    (made : request.effect c sys answer sys') :
    sys.serve c (.saying request answer) request = some (answer, sys') := by
  cases request with
  | call op =>
      cases op with
      | enqueue recipient frame ts => exact congrArg some (made : (answer, sys') = _).symm
      | _ =>
          obtain ⟨rfl, rfl⟩ := made
          rfl
  | trySend msg => exact congrArg some (made : (answer, sys') = _).symm
  | sendWait msg => exact (if_pos made.1).trans (congrArg some made.2.symm)
  | push conn msg => exact congrArg some (made : (answer, sys') = _).symm
  | now =>
      obtain ⟨fits, rfl⟩ := made
      exact if_pos fits
  | _ =>
      obtain rfl : sys' = sys := made
      rfl

/-- An input is a step of the relay. -/
theorem step_next {config : ServerConfig} {input : Stimulus} {state state' : RelayState}
    (stepped : step config input state = some state') :
    (relay config .none).Next state state' := by
  obtain ⟨tasks, sys⟩ := state
  cases input with
  | accept c =>
      obtain ⟨fresh, same⟩ := Option.ite_none_right_eq_some.mp stepped
      obtain rfl := Option.some.inj same
      exact .drift (.accept fresh)
  | receive c msg =>
      obtain ⟨⟨idle, isOpen, inRange⟩, same⟩ := Option.ite_none_right_eq_some.mp stepped
      obtain rfl := Option.some.inj same
      exact .start c (Option.isNone_iff_eq_none.mp idle) (.receive isOpen inRange)
  | hangUp c =>
      obtain ⟨⟨idle, isOpen⟩, same⟩ := Option.ite_none_right_eq_some.mp stepped
      obtain rfl := Option.some.inj same
      exact .start c (Option.isNone_iff_eq_none.mp idle) (.hangUp isOpen)
  | request c outside =>
      unfold step at stepped
      dsimp only at stepped
      split at stepped
      · next request next busy =>
        obtain ⟨⟨answer, sys'⟩, served, same⟩ := Option.map_eq_some_iff.mp stepped
        obtain rfl := same
        exact .move c busy ⟨trivial, sys', serve_onSystem served, rfl⟩
      · cases stepped
  | finish c =>
      unfold step at stepped
      dsimp only at stepped
      split at stepped
      · next busy =>
        obtain rfl := Option.some.inj stepped
        exact .finish c (show tasks c = some (.ofExcept (.ok _)) from busy) ⟨_, rfl, rfl⟩
      · cases stepped
  | take c =>
      unfold step at stepped
      dsimp only at stepped
      split at stepped
      · next alive idle first =>
        obtain rfl := Option.some.inj stepped
        exact .drift (.take alive idle first)
      · cases stepped
  | write c =>
      unfold step at stepped
      dsimp only at stepped
      split at stepped
      · next busy =>
        obtain rfl := Option.some.inj stepped
        exact .drift (.write busy)
      · cases stepped
  | stop c =>
      obtain ⟨alive, same⟩ := Option.ite_none_right_eq_some.mp stepped
      obtain rfl := Option.some.inj same
      exact .drift (.stop alive trivial)
  | prune cutoff =>
      obtain rfl := Option.some.inj stepped
      exact .drift .prune

/-- Every step of the relay is an input. -/
theorem exists_step {config : ServerConfig} {state state' : RelayState}
    (next : (relay config .none).Next state state') :
    ∃ input, step config input state = some state' := by
  cases next with
  | start c idle begins =>
      cases begins with
      | @receive _ msg isOpen inRange =>
          exact ⟨.receive c msg, if_pos ⟨Option.isNone_iff_eq_none.mpr idle, isOpen, inRange⟩⟩
      | hangUp isOpen => exact ⟨.hangUp c, if_pos ⟨Option.isNone_iff_eq_none.mpr idle, isOpen⟩⟩
  | @move tasks sys sys' request next answer c busy made =>
      obtain ⟨_, mid, made, rfl⟩ := made
      refine ⟨.request c (.saying request answer), ?_⟩
      simp only [step, busy, serve_saying made, Option.map_some]
  | finish c busy ends =>
      obtain ⟨state, rfl, rfl⟩ := ends
      refine ⟨.finish c, ?_⟩
      simp only [step, busy, Prog.ofExcept_ok]
  | drift drifts =>
      cases drifts with
      | @accept c fresh => exact ⟨.accept c, if_pos fresh⟩
      | @take c _ _ alive idle first => exact ⟨.take c, by simp only [step, alive, idle, first]⟩
      | @write c _ busy => exact ⟨.write c, by simp only [step, busy]⟩
      | @stop c alive allowed => exact ⟨.stop c, if_pos alive⟩
      | @prune cutoff => exact ⟨.prune cutoff, rfl⟩

/-- What a replay leads to is reached by the relay. -/
theorem replay_reached {config : ServerConfig} {inputs : List Stimulus} {state state' : RelayState}
    (replayed : replay config inputs state = some state') :
    Relation.ReflTransGen (relay config .none).Next state state' := by
  induction inputs generalizing state with
  | nil =>
      obtain rfl := Option.some.inj replayed
      exact .refl
  | cons input rest ih =>
      obtain ⟨mid, first, later⟩ := Option.bind_eq_some_iff.mp replayed
      exact .head (step_next first) (ih later)

/-- What the relay reaches is what a replay leads to. -/
theorem exists_replay {config : ServerConfig} {state state' : RelayState}
    (reached : Relation.ReflTransGen (relay config .none).Next state state') :
    ∃ inputs, replay config inputs state = some state' := by
  induction reached using Relation.ReflTransGen.head_induction_on with
  | refl => exact ⟨[], rfl⟩
  | head first _ ih =>
      obtain ⟨input, stepped⟩ := exists_step first
      obtain ⟨rest, replayed⟩ := ih
      exact ⟨input :: rest, Option.bind_eq_some_iff.mpr ⟨_, stepped, replayed⟩⟩

end

end Cherm.Relay
