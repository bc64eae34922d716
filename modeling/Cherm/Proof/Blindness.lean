/-
**The relay is blind to payloads.**

Two runs of the relay on the same inputs, but for the payloads of what is sent: the relay does the
same to the same connections in the same order, and keeps the same.

* `Twins`: two tasks that make the same requests but for payloads, as long as they are answered so.
  The handlers of a message, and of a `Send` with another payload, are twins.
* `StateAlike.step` is one input, `StateAlike.replay` any number of them.
* `relay_blind` is the result.
-/

import Cherm.Lib.Twin
import Cherm.Relay.Alike
import Cherm.Relay.Progress

namespace Cherm

open Crates Json

namespace Relay

section

variable [Crates] {R : String → String → Prop}

/-! ### Programs that differ in payloads -/

def payloads (R : String → String → Prop) : Coupling Ask Ask.Answer := ⟨AskAlike R, answersAlike R⟩

/-- Only the rows of an outbox tell payloads apart. -/
def Ask.Payloadless : Ask → Prop
  | .call (.pendingFrames _) => False
  | _ => True

theorem Ask.Payloadless.plain {request : Ask} (none : request.Payloadless) :
    (payloads R).Plain request := by
  cases request with
  | call op =>
      cases op with
      | pendingFrames recipient => exact none.elim
      | _ => exact ⟨.same _, fun _ _ same => (eq_of_heq same).symm⟩
  | now => exact ⟨.same _, fun _ _ same => same.1⟩
  | _ => exact ⟨.same _, fun _ _ same => (eq_of_heq same).symm⟩

/-! ### The tasks are twins -/

/-- Two tasks that differ in payloads only. -/
abbrev Twins (R : String → String → Prop) {α : Type} (p p' : Task α) : Prop :=
  Prog.Twin (payloads R) (· = ·) p p'

theorem Twins.ask {α : Type} (request : Ask) (none : request.Payloadless)
    {next next' : request.Answer → Task α} (rest : ∀ answer, Twins R (next answer) (next' answer)) :
    Twins R (.ask request next) (.ask request next') :=
  .ask_plain none.plain rest

theorem Twins.bind {α β : Type} {p p' : Task α} {f f' : α → Task β} (first : Twins R p p')
    (second : ∀ value, Twins R (f value) (f' value)) : Twins R (p.bind f) (p'.bind f') :=
  Prog.Twin.bind first fun value _ same => same ▸ second value

theorem twins_done {α : Type} (value : α) : Twins R (.done value) (.done value) := .done rfl

theorem twins_reply (msg : ServerMsg) : Twins R (reply msg) (reply msg) :=
  Twins.ask (.trySend msg) trivial fun _ => twins_done _

/-- A refusal, and then no more. -/
theorem twins_refuse {α : Type} (code message : String) (value : α) :
    Twins R ((err code message).bind fun _ => .done value)
      ((err code message).bind fun _ => .done value) :=
  (twins_reply _).bind fun _ => twins_done _

theorem twins_sendFrames {rows rows' : List (Nat × Bytes)}
    (alike : List.Forall₂ (HandAlike R) rows rows') (handled : List Nat) :
    Twins R (sendFrames rows handled) (sendFrames rows' handled) := by
  induction alike generalizing handled with
  | nil => exact twins_done _
  | @cons hand hand' rest rest' first _ ih =>
      obtain ⟨id, bytes⟩ := hand
      obtain ⟨_, bytes'⟩ := hand'
      obtain rfl := first.id
      unfold sendFrames
      have read := first.bytes.read
      dsimp only at read ⊢
      generalize readFrame bytes = frame at read ⊢
      generalize readFrame bytes' = frame' at read ⊢
      cases read with
      | none => exact ih _
      | some replaced =>
          refine Prog.Twin.ask (.sendWait (.deliver replaced)) fun sent sent' same => ?_
          obtain rfl := eq_of_heq same
          cases sent with
          | true => exact ih _
          | false => exact twins_done _

theorem twins_flushOutbox (username : String) :
    Twins R (flushOutbox username) (flushOutbox username) := by
  refine Prog.Twin.ask (.same _) fun rows rows' alike => ?_
  have alike : List.Forall₂ (HandAlike R) rows rows' := alike
  cases alike with
  | nil => exact twins_done _
  | cons first rest =>
      refine (twins_sendFrames (.cons first rest) []).bind fun handled => ?_
      split
      · exact twins_done _
      · exact Twins.ask (.call (.deleteFrames handled)) trivial fun _ => twins_done _

theorem twins_logIn (c : Nat) (state : ConnState) (uuid username : String) :
    Twins R (logIn c state uuid username) (logIn c state uuid username) := by
  refine Twins.ask (.call (.goOnline username c)) trivial fun _ => ?_
  simp only [Prog.bind_eq, Prog.done_bind]
  exact (twins_reply _).bind fun _ => (twins_flushOutbox username).bind fun _ => twins_done _

theorem twins_register (c : Nat) (config : ServerConfig) (state : ConnState)
    (username ed25519 curve25519 machineId : String) :
    Twins R (register c config state username ed25519 curve25519 machineId)
      (register c config state username ed25519 curve25519 machineId) := by
  unfold register
  split
  · exact twins_refuse _ _ _
  split
  · exact twins_refuse _ _ _
  split
  · exact twins_refuse _ _ _
  split
  · exact twins_refuse _ _ _
  split
  · exact twins_refuse _ _ _
  split
  · exact twins_refuse _ _ _
  refine Twins.ask .randomUuid trivial fun uuid => ?_
  refine Twins.ask .now trivial fun now => ?_
  refine Twins.ask (.call (.registerUser ..)) trivial fun result => ?_
  simp only [Prog.done_bind]
  rcases result with (_ | _ | _) | uuid
  · exact twins_refuse _ _ _
  · exact twins_refuse _ _ _
  · exact twins_refuse _ _ _
  · exact twins_logIn c state uuid username

theorem twins_authFinish (c : Nat) (config : ServerConfig) (state : ConnState)
    (username signature : String) :
    Twins R (authFinish c config state username signature)
      (authFinish c config state username signature) := by
  unfold authFinish
  split
  · exact twins_refuse _ _ _
  split
  · exact twins_refuse _ _ _
  cases state.pendingNonce with
  | none => exact twins_refuse _ _ _
  | some nonce =>
      refine Twins.ask (.call (.lookupUser username)) trivial fun found => ?_
      simp only [Prog.done_bind]
      cases found with
      | none => exact twins_refuse _ _ _
      | some record =>
          dsimp only
          split
          · exact twins_logIn c _ record.uuid username
          · exact twins_refuse _ _ _

theorem twins_publishPrekeys (state : ConnState) (otks : List OneTimeKey) :
    Twins R (publishPrekeys state otks) (publishPrekeys state otks) := by
  unfold publishPrekeys
  cases state.authed with
  | none => exact twins_reply _
  | some user =>
      refine Twins.ask (.allow .prekey) trivial fun allowed => ?_
      simp only [Prog.done_bind]
      split
      · exact twins_refuse _ _ _
      split
      · exact twins_refuse _ _ _
      split
      · exact twins_refuse _ _ _
      refine Twins.ask (.call (.publishPrekeys user otks)) trivial fun result => ?_
      simp only [Prog.done_bind]
      cases result with
      | ok => exact twins_reply _
      | overCap => exact twins_reply _

theorem twins_fetchPrekeys (state : ConnState) (username : String) :
    Twins R (fetchPrekeys state username) (fetchPrekeys state username) := by
  unfold fetchPrekeys
  split
  · exact twins_refuse _ _ _
  refine Twins.ask (.allow (.fetch username)) trivial fun allowed => ?_
  simp only [Prog.done_bind]
  split
  · exact twins_refuse _ _ _
  refine Twins.ask (.call (.fetchBundle username)) trivial fun found => ?_
  simp only [Prog.done_bind]
  cases found with
  | none => exact twins_reply _
  | some bundle => exact twins_reply _

/-- The fan-out of two frames that differ in payload takes the same course. -/
theorem twins_fanOut {frame frame' : Deliver} (replaced : Replaced R frame frame')
    {queued queued' : Bytes} (alike : BytesAlike R queued queued') (sender : String)
    (recipients : List String) (delivered unknown : Bool) :
    Twins R (fanOut sender frame queued recipients delivered unknown)
      (fanOut sender frame' queued' recipients delivered unknown) := by
  have sameTs : frame'.serverTs = frame.serverTs := by rw [replaced.rest]
  induction recipients generalizing delivered unknown with
  | nil => exact twins_done _
  | cons recipient rest ih =>
      have stored : Twins R
          (do let stored ← call (.enqueue recipient queued frame.serverTs)
              fanOut sender frame queued rest (delivered || stored) unknown)
          (do let stored ← call (.enqueue recipient queued' frame'.serverTs)
              fanOut sender frame' queued' rest (delivered || stored) unknown) := by
        rw [sameTs]
        refine Prog.Twin.ask (.enqueue recipient _ alike) fun stored stored' same => ?_
        obtain rfl := eq_of_heq same
        exact ih _ _
      unfold fanOut
      split
      · exact ih _ _
      refine Twins.ask (.call (.route recipient)) trivial fun routed => ?_
      obtain ⟨online, isUser⟩ := routed
      simp only [Prog.done_bind]
      split
      · exact ih _ _
      cases online with
      | none => exact stored
      | some conn =>
          refine Prog.Twin.ask (.push conn (.deliver replaced)) fun pushed pushed' same => ?_
          obtain rfl := eq_of_heq same
          cases pushed with
          | true => exact ih _ _
          | false => exact stored

theorem twins_send [PlainTexts] (shapes : ∀ p p', R p p' → SameShape p p') (state : ConnState)
    (msg : SendMsg) {payload : String} (related : payload = msg.payload ∨ R msg.payload payload)
    (clientTs : IsI64 msg.clientTs) :
    Twins R (send state msg) (send state { msg with payload }) := by
  have long : payload.utf8ByteSize = msg.payload.utf8ByteSize := by
    rcases related.elim Or.inl (shapes _ _) with same | ⟨_, _, long⟩
    · rw [same]
    · exact long
  unfold send
  cases state.authed with
  | none => exact twins_reply _
  | some sender =>
      refine Twins.ask (.allow .send) trivial fun allowed => ?_
      simp only [Prog.done_bind, long]
      split
      · exact twins_refuse _ _ _
      split
      · exact twins_refuse _ _ _
      split
      · exact twins_refuse _ _ _
      refine Prog.Twin.ask (.same .now) fun serverTs serverTs' same => ?_
      obtain ⟨rfl, fits⟩ : serverTs' = serverTs ∧ IsI64 serverTs := same
      have replaced : Replaced R
          ⟨sender, msg.to, msg.msgType, msg.payload, msg.groupId, serverTs', msg.clientTs⟩
          ⟨sender, msg.to, msg.msgType, payload, msg.groupId, serverTs', msg.clientTs⟩ :=
        ⟨rfl, related⟩
      refine (twins_fanOut replaced (.of_replaced shapes replaced ⟨fits, clientTs⟩) sender _
        _ _).bind
        fun result => ?_
      obtain ⟨delivered, unknown⟩ := result
      dsimp only
      split
      · exact twins_reply _
      · exact twins_reply _

theorem twins_answer (c : Nat) (config : ServerConfig) (state : ConnState) {msg : ClientMsg}
    (noSend : ∀ send, msg ≠ .send send) :
    Twins R (answer c config state msg) (answer c config state msg) := by
  cases msg with
  | attestRequest nonce =>
      refine Twins.ask (.attest nonce) trivial fun attestation => ?_
      simp only [Prog.done_bind]
      cases attestation with
      | error _ => exact (twins_reply _).bind fun _ => twins_done _
      | ok _ => exact (twins_reply _).bind fun _ => twins_done _
  | clientHello buildHash clientVersion => exact (twins_reply _).bind fun _ => twins_done _
  | getServerInfo => exact (twins_reply _).bind fun _ => twins_done _
  | register username ed25519 curve25519 machineId => exact twins_register ..
  | authBegin username =>
      refine Twins.ask .randomNonce trivial fun nonce => ?_
      exact (twins_reply _).bind fun _ => twins_done _
  | authFinish username signature => exact twins_authFinish ..
  | publishPrekeys otks => exact (twins_publishPrekeys state otks).bind fun _ => twins_done _
  | fetchPrekeys username => exact (twins_fetchPrekeys state username).bind fun _ => twins_done _
  | send msg => exact absurd rfl (noSend msg)
  | pull =>
      unfold answer
      cases state.authed with
      | none => exact (twins_reply _).bind fun _ => twins_done _
      | some username => exact (twins_flushOutbox username).bind fun _ => twins_done _
  | ping => exact (twins_reply _).bind fun _ => twins_done _

/-- Before a message is answered, it may be refused. -/
theorem twins_handle {c : Nat} {config : ServerConfig} {state : ConnState} {msg msg' : ClientMsg}
    (answers : Twins R (answer c config state msg) (answer c config state msg')) :
    Twins R (handle c config state (some msg)) (handle c config state (some msg')) := by
  unfold handle
  dsimp only
  split
  · refine Twins.ask (.allow .preauth) trivial fun allowed => ?_
    simp only [Prog.done_bind]
    cases allowed with
    | false => exact twins_refuse _ _ _
    | true => exact answers
  · exact answers

/-- A task that handles a message is its own twin. -/
theorem twins_received [PlainTexts] (shapes : ∀ p p', R p p' → SameShape p p') (c : Nat)
    (config : ServerConfig) (state : ConnState)
    {msg : Option ClientMsg} (inRange : InRange msg) :
    Twins R (handle c config state msg) (handle c config state msg) := by
  cases msg with
  | none => exact twins_refuse _ _ _
  | some msg =>
      refine twins_handle ?_
      cases msg with
      | send msg => exact (twins_send shapes state msg (.inl rfl) inRange).bind fun _ =>
          twins_done _
      | _ => exact twins_answer c config state nofun

theorem twins_close (c : Nat) (state : ConnState) :
    Twins R ((close c state).bind fun _ => .done state)
      ((close c state).bind fun _ => .done state) := by
  unfold close
  cases state.authed with
  | none => exact twins_done _
  | some username => exact Twins.ask (.call (.goOffline username c)) trivial fun _ => twins_done _

end

/-- Two tests of the same condition. -/
theorem rel_ite {α : Type} {S : α → α → Prop} {P P' : Prop} [Decidable P] [Decidable P']
    {value value' : Option α} (same : P' ↔ P) (both : P → Option.Rel S value value') :
    Option.Rel S (if P then value else none) (if P' then value' else none) := by
  by_cases holds : P
  · rw [if_pos holds, if_pos (same.mpr holds)]
    exact both holds
  · rw [if_neg holds, if_neg fun holds' => holds (same.mp holds')]
    exact .none

theorem isNone_rel {α : Type} {S : α → α → Prop} {value value' : Option α}
    (alike : Option.Rel S value value') : value'.isNone = value.isNone := by
  cases alike with
  | none => rfl
  | some _ => rfl

section

variable [Crates] {R : String → String → Prop} {sys sys' : System}

/-! ### The steps -/

/-- Two inputs: the same, or a `Send` with another payload. -/
inductive Stimulus.Alike (R : String → String → Prop) : Stimulus → Stimulus → Prop where
  | same (input : Stimulus) : Alike R input input
  | send (c : Nat) (msg : SendMsg) {payload : String} (related : R msg.payload payload) :
      Alike R (.receive c (some (.send msg))) (.receive c (some (.send { msg with payload })))

/-- Two states of the relay that are the same but for the payloads. -/
structure StateAlike (R : String → String → Prop) (state state' : RelayState) : Prop where
  tasks : ∀ c, Option.Rel (Twins R) (state.1 c) (state'.1 c)
  system : Blind R state.2 state'.2

theorem tasks_update {tasks tasks' : Nat → Option (Task ConnState)}
    (alike : ∀ c, Option.Rel (Twins R) (tasks c) (tasks' c)) (c : Nat)
    {task task' : Option (Task ConnState)} (own : Option.Rel (Twins R) task task') (d : Nat) :
    Option.Rel (Twins R) (Function.update tasks c task d) (Function.update tasks' c task' d) := by
  by_cases same : d = c
  · subst same
    rw [Function.update_self, Function.update_self]
    exact own
  · rw [Function.update_of_ne same, Function.update_of_ne same]
    exact alike d

theorem StateAlike.of {tasks tasks' : Nat → Option (Task ConnState)}
    (each : ∀ c, Option.Rel (Twins R) (tasks c) (tasks' c)) (blind : Blind R sys sys') :
    StateAlike R (tasks, sys) (tasks', sys') := ⟨each, blind⟩

/-- **One step.** The same input, or a `Send` with another payload, leaves the same but for the
payloads. -/
theorem StateAlike.step [PlainTexts] (shapes : ∀ p p', R p p' → SameShape p p')
    (config : ServerConfig) {state state' : RelayState} (alike : StateAlike R state state')
    {input input' : Stimulus} (inputs : input.Alike R input') :
    Option.Rel (StateAlike R) (Relay.step config input state)
      (Relay.step config input' state') := by
  obtain ⟨tasks, sys⟩ := state
  obtain ⟨tasks', sys'⟩ := state'
  obtain ⟨each, blind⟩ := alike
  dsimp only at each blind
  cases inputs with
  | @send c msg payload related =>
      refine rel_ite ?_ fun can => .some (.of (tasks_update each c (.some ?_)) blind)
      · rw [isNone_rel (each c), (blind.conns c).life]
        exact Iff.rfl
      · rw [(blind.conns c).state]
        refine twins_handle ?_
        exact (twins_send shapes _ msg (.inr related) can.2.2).bind fun _ => twins_done _
  | same input =>
      cases input with
      | accept c =>
          refine rel_ite (by rw [(blind.conns c).life]) fun _ =>
            .some (.of each (blind.update c ?_))
          exact { blind.conns c with life := rfl, alive := rfl }
      | receive c msg =>
          refine rel_ite ?_ fun can => .some (.of (tasks_update each c (.some ?_)) blind)
          · rw [isNone_rel (each c), (blind.conns c).life]
          · rw [(blind.conns c).state]
            exact twins_received shapes c config _ can.2.2
      | hangUp c =>
          refine rel_ite ?_ fun _ => .some (.of (tasks_update each c (.some ?_))
            (blind.update c { blind.conns c with life := rfl }))
          · rw [isNone_rel (each c), (blind.conns c).life]
          · rw [(blind.conns c).state]
            exact twins_close c _
      | request c outside =>
          have task := each c
          unfold Relay.step
          dsimp only
          generalize tasks c = p at task ⊢
          generalize tasks' c = p' at task ⊢
          cases task with
          | none => exact .none
          | some twins =>
              cases twins with
              | done same => exact .none
              | fail error => exact .none
              | @ask request request' next next' asks rest =>
                  have served := blind.serve c outside asks
                  dsimp only
                  generalize sys.serve c outside request = result at served ⊢
                  generalize sys'.serve c outside request' = result' at served ⊢
                  cases served with
                  | none => exact .none
                  | some same =>
                      obtain ⟨answers, after⟩ := same
                      exact .some (.of (tasks_update each c (.some (rest _ _ answers)))
                        (after.note c asks answers))
      | finish c =>
          have task := each c
          unfold Relay.step
          dsimp only
          generalize tasks c = p at task ⊢
          generalize tasks' c = p' at task ⊢
          cases task with
          | none => exact .none
          | some twins =>
              cases twins with
              | done same =>
                  subst same
                  refine .some (.of (tasks_update each c .none) (blind.update c
                    { blind.conns c with life := ?_, state := rfl }))
                  show (if (sys'.conns c).life = _ then _ else (sys'.conns c).life) =
                    if (sys.conns c).life = _ then _ else (sys.conns c).life
                  rw [(blind.conns c).life]
              | fail error => exact .none
              | ask asks rest => exact .none
      | take c =>
          have conn := blind.conns c
          have writing := conn.writing
          have chan := conn.chan
          unfold Relay.step
          dsimp only
          rw [conn.alive]
          generalize (sys.conns c).writing = w at writing ⊢
          generalize (sys'.conns c).writing = w' at writing ⊢
          generalize (sys.conns c).chan = l at chan ⊢
          generalize (sys'.conns c).chan = l' at chan ⊢
          cases (sys.conns c).alive with
          | false => exact .none
          | true =>
              cases writing with
              | some _ => exact .none
              | none =>
                  cases chan with
                  | nil => exact .none
                  | cons first rest =>
                      exact .some (.of each (blind.update c
                        { conn with chan := rest, writing := .some first }))
      | write c =>
          have writing := (blind.conns c).writing
          unfold Relay.step
          dsimp only
          generalize (sys.conns c).writing = w at writing ⊢
          generalize (sys'.conns c).writing = w' at writing ⊢
          cases writing with
          | none => exact .none
          | some same =>
              have taken : Blind R (sys.update c fun conn => { conn with writing := none })
                  (sys'.update c fun conn => { conn with writing := none }) :=
                blind.update c { blind.conns c with writing := .none }
              exact .some (.of each { taken with
                written := List.rel_append blind.written (.cons ⟨rfl, same⟩ .nil) })
      | stop c =>
          refine rel_ite (by rw [(blind.conns c).alive]) fun _ =>
            .some (.of each (blind.update c ?_))
          exact { blind.conns c with alive := rfl, chan := .nil, writing := .none }
      | prune cutoff =>
          have pruned : List.Forall₂ (· = ·)
              ((sys.store.outbox.filter fun row => row.ts < cutoff).filterMap fun row =>
                sys.rowCopy row.id)
              ((sys'.store.outbox.filter fun row => row.ts < cutoff).filterMap fun row =>
                sys'.rowCopy row.id) := by
            refine List.rel_filterMap (fun row row' same => ?_)
              (blind.store.filter fun row row' same => by rw [same.ts])
            rw [same.id, blind.rowCopy]
            exact option_rel_refl (fun _ => rfl) _
          rw [List.forall₂_eq_eq_eq] at pruned
          refine .some (.of each { blind with
            store := blind.store.filtered fun row row' same => by rw [same.ts]
            pruned := ?_ })
          show sys'.pruned ++ _ = sys.pruned ++ _
          rw [blind.pruned, pruned]

/-- **A run.** -/
theorem StateAlike.replay [PlainTexts] (shapes : ∀ p p', R p p' → SameShape p p')
    {config : ServerConfig} {state state' : RelayState} (alike : StateAlike R state state')
    {inputs inputs' : List Stimulus} (each : List.Forall₂ (Stimulus.Alike R) inputs inputs') :
    Option.Rel (StateAlike R) (Relay.replay config inputs state)
      (Relay.replay config inputs' state') := by
  induction each generalizing state state' with
  | nil => exact .some alike
  | @cons input input' rest rest' first _ ih =>
      have stepped := alike.step shapes config first
      unfold Relay.replay
      generalize Relay.step config input state = mid at stepped ⊢
      generalize Relay.step config input' state' = mid' at stepped ⊢
      cases stepped with
      | none => exact .none
      | some alike => exact ih alike

/-- The payloads of two sends at the same place. -/
def Counterparts (inputs inputs' : List Stimulus) (payload payload' : String) : Prop :=
  ∃ (k c : Nat) (msg msg' : SendMsg), inputs[k]? = some (.receive c (some (.send msg))) ∧
    inputs'[k]? = some (.receive c (some (.send msg'))) ∧ msg.payload = payload ∧
    msg'.payload = payload'

/-- **The relay is blind to payloads.** -/
theorem relay_blind [PlainTexts] (config : ServerConfig) (store : Store)
    {inputs inputs' : List Stimulus}
    (alike : List.Forall₂ (Stimulus.Alike SameShape) inputs inputs') :
    Option.Rel (StateAlike (Counterparts inputs inputs'))
      (replay config inputs (started store)) (replay config inputs' (started store)) := by
  obtain ⟨long, each⟩ := List.forall₂_iff_get.mp alike
  have placed : ∀ {k : Nat} {input input' : Stimulus}, inputs[k]? = some input →
      inputs'[k]? = some input' → input.Alike SameShape input' := by
    intro k input input' here here'
    obtain ⟨inside, rfl⟩ := List.getElem?_eq_some_iff.mp here
    obtain ⟨inside', rfl⟩ := List.getElem?_eq_some_iff.mp here'
    exact each k inside inside'
  have shapes : ∀ p p', Counterparts inputs inputs' p p' → SameShape p p' := by
    rintro _ _ ⟨k, c, msg, msg', here, here', rfl, rfl⟩
    cases placed here here' with
    | same _ => exact .inl rfl
    | send _ _ related => exact related
  have counterparts : List.Forall₂ (Stimulus.Alike (Counterparts inputs inputs')) inputs
      inputs' := by
    refine List.forall₂_iff_get.mpr ⟨long, fun k inside inside' => ?_⟩
    have here : inputs[k]? = some (inputs.get ⟨k, inside⟩) := List.getElem?_eq_getElem inside
    have here' : inputs'[k]? = some (inputs'.get ⟨k, inside'⟩) := List.getElem?_eq_getElem inside'
    have same := each k inside inside'
    generalize inputs.get ⟨k, inside⟩ = input at here same ⊢
    generalize inputs'.get ⟨k, inside'⟩ = input' at here' same ⊢
    cases same with
    | same _ => exact .same _
    | send c msg related => exact .send c msg ⟨k, c, msg, _, here, here', rfl, rfl⟩
  exact StateAlike.replay shapes ⟨fun _ => .none, blind_initial _⟩ counterparts

end

end Relay

namespace Ideal

open Relay

theorem separate_around (before : List (List Char)) (after : List (List Char)) :
    ∃ front back, ∀ item, separate (before ++ item :: after) = front ++ (item ++ back) := by
  induction before with
  | nil =>
      cases after with
      | nil => exact ⟨[], [], fun item => by rw [List.append_nil]; rfl⟩
      | cons next rest => exact ⟨[], ',' :: separate (next :: rest), fun _ => rfl⟩
  | cons first rest ih =>
      obtain ⟨front, back, around⟩ := ih
      refine ⟨first ++ ',' :: front, back, fun item => ?_⟩
      have shape : ∃ second others, rest ++ item :: after = second :: others := by
        cases rest with
        | nil => exact ⟨_, _, rfl⟩
        | cons second others => exact ⟨_, _, rfl⟩
      obtain ⟨second, others, same⟩ := shape
      have here := around item
      rw [same] at here
      rw [List.cons_append, same]
      show first ++ ',' :: separate (second :: others) = _
      rw [here, List.append_assoc, List.cons_append]

instance plainTexts : PlainTexts where
  toVec_payload frame := by
    obtain ⟨before, after, shape⟩ : ∃ before after : Json.Fields, ∀ payload,
        ({ frame with payload } : Deliver).toJson =
          .obj (before ++ ("payload", .str payload) :: after) := by
      rcases frame with ⟨sender, recipients, msgType, _, _ | groupId, serverTs, clientTs⟩
      · exact ⟨[("client_ts", .num clientTs), ("from", .str sender), ("msg_type", .str msgType)],
          [("server_ts", .num serverTs), ("to", .arr (recipients.map .str)),
            ("type", .str "Deliver")], fun _ => rfl⟩
      · exact ⟨[("client_ts", .num clientTs), ("from", .str sender), ("group_id", .str groupId),
          ("msg_type", .str msgType)], [("server_ts", .num serverTs),
          ("to", .arr (recipients.map .str)), ("type", .str "Deliver")], fun _ => rfl⟩
    obtain ⟨front, back, around⟩ :=
      separate_around (before.map renderField) (after.map renderField)
    let opening := '"' :: (escape "payload".toList ++ ['"', ':', '"'])
    refine ⟨utf8 (String.ofList ('{' :: (front ++ opening))),
      utf8 (String.ofList ('"' :: (back ++ ['}']))), fun payload base64 => ?_⟩
    have field : renderField ("payload", .str payload) =
        opening ++ (payload.toList ++ ['"']) := by
      rw [renderField, render, base64.escape]
      simp [opening]
    show Utf8.encode (render _) = _
    rw [shape, render, renderFields_eq, List.map_append, List.map_cons, around, field, utf8_ofList,
      utf8_ofList, utf8_eq]
    simp [Utf8.encode]

/-! ### Two runs -/

/-- A message for bob. -/
def toBob (payload : String) : SendMsg := ⟨["bob"], "olm", payload, none, 0⟩

def anyOutside : Outside := ⟨0, someNonce, "", true, .error ""⟩

/-- A new connection logs a user in, with as many requests after the answer to its challenge. -/
def logsIn (c : Nat) (name : String) (seed requests : Nat) : List Stimulus :=
  [.accept c, .receive c (some (.authBegin name))] ++ List.replicate 3 (.request c anyOutside) ++
    [.finish c, .receive c (some (.authFinish name (answerOf seed)))] ++
    List.replicate requests (.request c anyOutside) ++ [.finish c]

/-- The send is handled, bob logs in and is pushed what was stored, and his writer writes it. -/
def afterwards : List Stimulus :=
  List.replicate 5 (.request 1 anyOutside) ++ [.finish 1] ++ logsIn 0 "bob" 2 7 ++
    [.take 0, .write 0, .take 0, .write 0, .take 0, .write 0]

/-- Alice logs in and sends the message. -/
def sends (payload : String) : List Stimulus :=
  logsIn 1 "alice" 1 5 ++ .receive 1 (some (.send (toBob payload))) :: afterwards

/-- The payloads that were written to sockets. -/
def payloadsOf (state : RelayState) : List String :=
  state.2.written.filterMap fun write => match write.2.msg with
    | .deliver frame => some frame.payload
    | _ => none

theorem sends_alike : List.Forall₂ (Stimulus.Alike SameShape) (sends "aGVsbG8=")
    (sends "d29ybGQ=") := by
  have same : ∀ inputs, List.Forall₂ (Stimulus.Alike SameShape) inputs inputs := fun inputs =>
    List.forall₂_same.mpr fun _ _ => .same _
  refine List.rel_append (same _) (.cons (.send 1 (toBob "aGVsbG8=") (.inr ?_)) (same afterwards))
  exact ⟨by decide +kernel, by decide +kernel, by decide +kernel⟩

/-- A message is stored, pushed and written, in two runs that differ in its payload. -/
theorem sends_blind : ∃ state state' : RelayState,
    replay openConfig (sends "aGVsbG8=") (started twoUsers) = some state ∧
    replay openConfig (sends "d29ybGQ=") (started twoUsers) = some state' ∧
    payloadsOf state = ["aGVsbG8="] ∧ payloadsOf state' = ["d29ybGQ="] ∧
    StateAlike (Counterparts (sends "aGVsbG8=") (sends "d29ybGQ=")) state state' := by
  have alike := relay_blind openConfig twoUsers sends_alike
  have left : (replay openConfig (sends "aGVsbG8=") (started twoUsers)).map payloadsOf =
      some ["aGVsbG8="] := by decide +kernel
  have right : (replay openConfig (sends "d29ybGQ=") (started twoUsers)).map payloadsOf =
      some ["d29ybGQ="] := by decide +kernel
  obtain ⟨state, ran, payloads⟩ := Option.map_eq_some_iff.mp left
  obtain ⟨state', ran', payloads'⟩ := Option.map_eq_some_iff.mp right
  rw [ran, ran'] at alike
  cases alike with
  | some alike => exact ⟨state, state', ran, ran', payloads, payloads', alike⟩

end Ideal

end Cherm
