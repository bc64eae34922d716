/-
**How a connection of the relay comes to speak for a user.**

A connection takes message after message; what it does about one is decided by the message, by what
it remembers (`ConnState`) and by the answers it gets. Other connections change the directory
between any two requests, so an answer is that of any store at all. The history of a connection is
what it received and asked for, the latest first.

* `Earned`: an account was created, or a signature over an open challenge was verified, one request
  ago.
* `Safe`: a connection logged in only once and only when it had earned it, from a build that is
  allowed, and touched the tables and the channels of others only when it had logged in.
* `connection_safe`: every history is safe, whatever the messages and the stores.
-/

import Cherm.Ideal
import Cherm.Lib.Crew
import Cherm.Proof.KeyTexts
import Cherm.Relay.Conn

namespace Cherm

namespace Relay

/-- A message that was read, or a request with the store it met and the answer it got. -/
inductive Event where
  | received (msg : Option ClientMsg)
  | asked (request : Ask) (store : Store) (answer : request.Answer)

/-- The history of a connection, the latest event first. -/
abbrev History := List Event

namespace History

/-- The message that is being handled. -/
def handling : History → Option ClientMsg
  | [] => none
  | .received msg :: _ => msg
  | _ :: earlier => handling earlier

end History

/-- `AuthFinish` looks its user up when it has taken the nonce. -/
def Event.TakesNonce : Event → Prop
  | .asked (.call (.lookupUser _)) _ _ => True
  | _ => False

/-- An `AuthBegin` drew this nonce, and no `AuthFinish` has taken it since. -/
def Challenged (nonce : Bytes) (history : History) : Prop :=
  ∃ (later : History) (store : Store) (earlier : History) (username : String),
    history = later ++ .asked .randomNonce store nonce :: earlier ∧
    earlier.handling = some (.authBegin username) ∧ ∀ event ∈ later, ¬ event.TakesNonce

theorem Challenged.cons {nonce : Bytes} {history : History} (challenged : Challenged nonce history)
    {event : Event} (keeps : ¬ event.TakesNonce) : Challenged nonce (event :: history) := by
  obtain ⟨later, store, earlier, username, rfl, begun, untaken⟩ := challenged
  refine ⟨event :: later, store, earlier, username, rfl, begun, fun other member => ?_⟩
  rcases List.mem_cons.mp member with rfl | member
  · exact keeps
  · exact untaken other member

namespace History

/-- Whom the connection speaks for: the user it put online. -/
def who : History → Option String
  | [] => none
  | .asked (.call (.goOnline username _)) _ _ :: _ => some username
  | _ :: earlier => who earlier

end History

/-- The requests that say nothing about who is speaking. -/
def Ask.Plain : Ask → Prop
  | .call (.goOnline ..) | .call (.lookupUser _) | .allow .preauth => False
  | _ => True

theorem who_plain {request : Ask} (plain : request.Plain) (store : Store) (answer : request.Answer)
    (history : History) : History.who (.asked request store answer :: history) = history.who := by
  cases request with
  | call op =>
      cases op with
      | goOnline username conn => exact plain.elim
      | _ => rfl
  | _ => rfl

namespace History

/-- The build hash of the last `ClientHello` that the rate limiter let through. -/
def announced : History → Option String
  | [] => none
  | .asked (.allow .preauth) _ false :: .received (some (.clientHello _ _)) :: earlier =>
      announced earlier
  | .received (some (.clientHello buildHash _)) :: _ => some buildHash
  | _ :: earlier => announced earlier

end History

theorem announced_plain {request : Ask} (plain : request.Plain) (store : Store)
    (answer : request.Answer)
    (history : History) :
    History.announced (.asked request store answer :: history) = history.announced := by
  cases request with
  | allow limiter =>
      cases limiter with
      | preauth => exact plain.elim
      | _ => rfl
  | _ => rfl

theorem untaken_plain {request : Ask} (plain : request.Plain) (store : Store)
    (answer : request.Answer) :
    ¬ (Event.asked request store answer).TakesNonce := by
  cases request with
  | call op =>
      cases op with
      | lookupUser username => exact plain.elim
      | _ => exact not_false
  | _ => exact not_false

/-- What a connection may ask for once it speaks for a user. -/
def Permitted (who : Option String) : Ask → Prop
  | .call (.publishPrekeys username _) | .call (.pendingFrames username) => who = some username
  | .call (.fetchBundle _) | .call (.deleteFrames _) | .call (.enqueue ..) | .push .. |
      .sendWait _ =>
      who.isSome
  | _ => True

abbrev PlainCalls {α : Type} (who : Option String) (prog : Task α) : Prop :=
  Prog.Calls (fun request => request.Plain ∧ Permitted who request) prog

theorem calls_reply {who : Option String} (msg : ServerMsg) : PlainCalls who (reply msg) :=
    ⟨⟨trivial, trivial⟩, fun _ => trivial⟩

theorem calls_fanOut {who : Option String} (isUser : who.isSome) (sender : String) (frame : Deliver) (queued : Bytes)
    (recipients : List String) (delivered unknown : Bool) :
    PlainCalls who (fanOut sender frame queued recipients delivered unknown) := by
  induction recipients generalizing delivered unknown with
  | nil => trivial
  | cons recipient rest ih =>
      have stored : PlainCalls who (do
          let stored ← call (.enqueue recipient queued frame.serverTs)
          fanOut sender frame queued rest (delivered || stored) unknown) :=
        ⟨⟨trivial, isUser⟩, fun _ => ih _ _⟩
      unfold fanOut
      split
      · exact ih _ _
      · refine ⟨⟨trivial, trivial⟩, fun routed => ?_⟩
        obtain ⟨online, «exists»⟩ := routed
        simp only [Prog.done_bind]
        split
        · exact ih _ _
        · cases online with
          | none => exact stored
          | some conn =>
              refine ⟨⟨trivial, isUser⟩, fun pushed => ?_⟩
              cases pushed with
              | true => exact ih _ _
              | false => exact stored

theorem calls_fetchPrekeys {who : Option String} {state : ConnState} (authed : state.authed = who) (username : String) :
    PlainCalls who (fetchPrekeys state username) := by
  subst authed
  unfold fetchPrekeys
  split
  · exact (calls_reply _).bind fun _ => trivial
  next isUser =>
  refine ⟨⟨trivial, trivial⟩, fun allowed => ?_⟩
  simp only [Prog.done_bind]
  split
  · exact (calls_reply _).bind fun _ => trivial
  refine ⟨⟨trivial, Option.ne_none_iff_isSome.mp fun none => isUser (by rw [none]; rfl)⟩,
    fun bundle => ?_⟩
  cases bundle <;> exact calls_reply _

section

variable [Crates]

/-! ### Histories -/

namespace History

end History

/-- The last request created the account that the message in progress asks for. -/
def Registered (username : String) (history : History) : Prop :=
  ∃ (ed25519 curve25519 machineId uuid given : String) (now : Int) (store : Store)
      (answer : Except RegErr String) (earlier : History), history =
      .asked (.call (.registerUser username ed25519 curve25519 machineId uuid now)) store answer ::
      earlier ∧
    (store.registerUser username ed25519 curve25519 machineId uuid now).1 = .ok given ∧
      earlier.handling = some (.register username ed25519 curve25519 machineId)

/-- The last request looked up the user that the message in progress names, and the message's
signature over an open challenge verifies under the key found. -/
def SignedIn (username : String) (history : History) : Prop :=
  ∃ (signature : String) (record : UserRecord) (nonce : Bytes) (store : Store)
      (answer : Option UserRecord) (earlier : History),
        history = .asked (.call (.lookupUser username)) store answer :: earlier ∧
      store.lookupUser username = some record ∧
        earlier.handling = some (.authFinish username signature) ∧ Challenged nonce earlier ∧
          verifyEd25519B64 record.ed25519 nonce signature = true

def Earned (username : String) (history : History) : Prop :=
  Registered username history ∨ SignedIn username history

/-- When a request may be made. -/
def Allowed (config : ServerConfig) : Ask → History → Prop
  | .call (.goOnline username _), history =>
      history.who = none ∧ Earned username history ∧ config.clientAllowed history.announced = true
  | .call (.publishPrekeys username _), history => history.who = some username
  | .call (.pendingFrames username), history => history.who = some username
  | .call (.fetchBundle _), history => history.who.isSome
  | .call (.deleteFrames _), history => history.who.isSome
  | .call (.enqueue ..), history => history.who.isSome
  | .push .., history => history.who.isSome
  | .sendWait _, history => history.who.isSome
  | _, _ => True

/-- Every request was allowed when it was made. -/
def Safe (config : ServerConfig) : History → Prop
  | [] => True
  | .received _ :: earlier => Safe config earlier
  | .asked request _ _ :: earlier => Allowed config request earlier ∧ Safe config earlier

/-- Who has been put online stays it. -/
theorem Safe.who_append {config : ServerConfig} {later earlier : History} {username : String}
    (safe : Safe config (later ++ earlier)) (before : earlier.who = some username) :
    History.who (later ++ earlier) = some username := by
  induction later with
  | nil => exact before
  | cons event later ih =>
      cases event with
      | received msg => exact ih safe
      | asked request store answer =>
          have known := ih safe.2
          cases request with
          | call op =>
              cases op with
              | goOnline user conn =>
                  have nobody : History.who (later ++ earlier) = none := safe.1.1
                  rw [known] at nobody
                  cases nobody
              | _ => exact known
          | _ => exact known

/-! ### The connection -/

/-- A vault call is answered by the store it meets. -/
def Ask.Conforms : (request : Ask) → Store → request.Answer → Prop
  | .call op, store, answer => answer = (op.exec store).1
  | _, _, _ => True

/-- A request of a connection is written down, with whatever store it meets. -/
def Ask.recorded : Prog.Step (ConnState × History) Ask Ask.Answer := fun request s answer s' =>
  ∃ store, request.Conforms store answer ∧ s' = (s.1, .asked request store answer :: s.2)

/-- A connection: it handles one message after the other. -/
def connection (conn : Nat) (config : ServerConfig) :
    Crew Unit (ConnState × History) Ask Ask.Answer Unit ConnState where
  act _ := Ask.recorded
  begins _ p s s' := ∃ msg, p = handle conn config s.1 msg ∧ s' = (s.1, .received msg :: s.2)
  ends _ result s s' := ∃ state, result = .ok state ∧ s' = (state, s.2)
  drift _ _ := False

/-! ### What is kept between messages -/

/-- What the connection remembers is what its history says. -/
structure Remembers (config : ServerConfig) (state : ConnState) (history : History) : Prop where
  authed : state.authed = history.who
  nonce : ∀ nonce, state.pendingNonce = some nonce → Challenged nonce history
  hash : state.buildHash = history.announced
  safe : Safe config history

/-- An allowed plain request changes nothing that is remembered. -/
theorem Remembers.asked {config : ServerConfig} {state : ConnState} {history : History}
    (remembers : Remembers config state history) (request : Ask) (plain : request.Plain)
    (allowed : Allowed config request history) (store : Store) (answer : request.Answer) :
    Remembers config state (.asked request store answer :: history) where
  authed := by rw [who_plain plain, remembers.authed]
  nonce nonce pending := (remembers.nonce nonce pending).cons (untaken_plain plain store answer)
  hash := by rw [announced_plain plain, remembers.hash]
  safe := ⟨allowed, remembers.safe⟩

theorem allowed_of_permitted {config : ServerConfig} {request : Ask} (plain : request.Plain)
    {history : History} (permitted : Permitted history.who request) :
    Allowed config request history := by
  cases request with
  | call op =>
      cases op with
      | goOnline username conn => exact plain.elim
      | _ => exact permitted
  | _ => exact permitted

/-! ### Programs of plain requests -/

/-- The requests of a connection, and what must hold of its history when they are made. -/
abbrev recordedSpec (config : ServerConfig) : Prog.Spec (ConnState × History) Ask Ask.Answer :=
  ⟨fun request s => Allowed config request s.2, Ask.recorded⟩

section

variable {config : ServerConfig} {α : Type} {who : Option String}

theorem wp_recorded {post : Except Unit α → ConnState × History → Prop} (request : Ask)
    (next : request.Answer → Task α) (state : ConnState) (history : History) :
    Prog.wp (recordedSpec config) post (.ask request next) (state, history) ↔
      Allowed config request history ∧ ∀ store answer, request.Conforms store answer →
        Prog.wp (recordedSpec config) post (next answer)
          (state, .asked request store answer :: history) := by
  rw [Prog.wp_ask]
  refine and_congr_right fun _ => ⟨fun all store answer conforms => ?_, ?_⟩
  · exact all answer _ ⟨store, conforms, rfl⟩
  · rintro all answer _ ⟨store, conforms, rfl⟩
    exact all store answer conforms

/-- What a plain program of a connection that speaks for `who` leaves as it was. -/
def Unmoved (config : ServerConfig) (state : ConnState) (who : Option String)
    (s : ConnState × History) : Prop := Remembers config state s.2 ∧ s.2.who = who

theorem wp_plain {prog : Task α} (calls : PlainCalls who prog) {state : ConnState}
    {s : ConnState × History} (before : Unmoved config state who s) :
    Prog.wp (recordedSpec config) (fun _ => Unmoved config state who) prog s := by
  refine calls.wp (fun request s good unmoved => ?_) (fun request s answer s' good unmoved
    made => ?_)
    before
  · exact allowed_of_permitted good.1 (unmoved.2 ▸ good.2)
  · obtain ⟨store, _, rfl⟩ := made
    refine ⟨unmoved.1.asked request good.1 (allowed_of_permitted good.1 (unmoved.2 ▸ good.2)) store
      answer, ?_⟩
    exact (who_plain good.1 store answer s.2).trans unmoved.2

theorem calls_sendFrames (isUser : who.isSome) (rows : List (Nat × Bytes)) (handled : List Nat) :
    PlainCalls who (sendFrames rows handled) := by
  induction rows generalizing handled with
  | nil => trivial
  | cons row rest ih =>
      obtain ⟨id, bytes⟩ := row
      unfold sendFrames
      cases readFrame bytes with
      | none => exact ih _
      | some frame =>
          refine ⟨⟨trivial, isUser⟩, fun sent => ?_⟩
          cases sent with
          | true => exact ih _
          | false => trivial

theorem calls_flushOutbox (username : String) : PlainCalls (some username)
    (flushOutbox username) := by
  refine ⟨⟨trivial, rfl⟩, fun rows => ?_⟩
  simp only [Prog.done_bind]
  split
  · trivial
  · refine (calls_sendFrames rfl rows []).bind fun handled => ?_
    split
    · trivial
    · exact ⟨⟨trivial, rfl⟩, fun _ => trivial⟩

/-! ### The arms of the dispatch -/

variable {state : ConnState} {history : History} {conn : Nat} {msg : ClientMsg}

/-- What a handler ends with: the connection remembers what its history says. -/
def Settled (config : ServerConfig) : Except Unit ConnState → ConnState × History → Prop
  | .ok state, s => Remembers config state s.2
  | .error _, _ => True

/-- Say something, and keep the state. -/
theorem wp_told {α : Type} {prog : Task α} (calls : PlainCalls who prog) (is : history.who = who)
    (remembers : Remembers config state history) (old : ConnState) :
    Prog.wp (recordedSpec config) (Settled config) (prog.bind fun _ => Prog.done state)
      (old, history) := by
  refine Prog.wp_seq (Prog.wp_mono (fun result s after => ?_) (wp_plain calls ⟨remembers, is⟩))
    (fun _ s after => (after : Remembers config state s.2))
  cases result with
  | ok value => exact after.1
  | error e => exact trivial

theorem wp_reply (remembers : Remembers config state history) (old : ConnState) (msg : ServerMsg) :
    Prog.wp (recordedSpec config) (Settled config) ((reply msg).bind fun _ => Prog.done state)
      (old, history) := wp_told (calls_reply msg) rfl remembers old

/-- **Logging in**, one request after it was earned. -/
theorem wp_logIn (remembers : Remembers config state history) (nobody : history.who = none)
    {username : String} (earned : Earned username history)
    (official : config.clientAllowed history.announced = true) (old : ConnState) (uuid : String) :
    Prog.wp (recordedSpec config) (Settled config) (logIn conn state uuid username)
      (old, history) := by
  refine (wp_recorded _ _ _ _).mpr ⟨⟨nobody, earned, official⟩, fun store answer _ => ?_⟩
  have online : Remembers config { state with authed := some username }
      (.asked (.call (.goOnline username conn)) store answer :: history) :=
    { authed := rfl
      nonce := fun nonce pending => (remembers.nonce nonce pending).cons not_false
      hash := remembers.hash
      safe := ⟨⟨nobody, earned, official⟩, remembers.safe⟩ }
  show Prog.wp _ _ ((reply (.authOk uuid username)).bind fun _ =>
    (flushOutbox username).bind fun _ =>
    Prog.done { state with authed := some username }) _
  rw [← Prog.bind_assoc]
  have told : PlainCalls (some username)
      ((reply (.authOk uuid username)).bind fun _ => flushOutbox username) :=
    (calls_reply _).bind fun _ => calls_flushOutbox username
  exact wp_told told rfl online old

theorem wp_register {username ed25519 curve25519 machineId : String}
    (remembers : Remembers config state history)
    (handling : history.handling = some (.register username ed25519 curve25519 machineId))
    (old : ConnState) :
    Prog.wp (recordedSpec config) (Settled config)
      (register conn config state username ed25519 curve25519 machineId) (old, history) := by
  unfold register
  split
  · exact wp_reply remembers old _
  next fresh =>
  split
  · exact wp_reply remembers old _
  next official =>
  have nobody : history.who = none := by
    rw [← remembers.authed]
    exact Option.not_isSome_iff_eq_none.mp fresh
  split
  · exact wp_reply remembers old _
  split
  · exact wp_reply remembers old _
  split
  · exact wp_reply remembers old _
  split
  · exact wp_reply remembers old _
  refine (wp_recorded _ _ _ _).mpr ⟨trivial, fun store₁ uuid _ => ?_⟩
  refine (wp_recorded _ _ _ _).mpr ⟨trivial, fun store₂ now _ => ?_⟩
  refine (wp_recorded _ _ _ _).mpr ⟨trivial, fun store₃ created conforms => ?_⟩
  have asked : Remembers config state
      (.asked (.call (.registerUser username ed25519 curve25519 machineId uuid now)) store₃
        created ::
        .asked .now store₂ now :: .asked .randomUuid store₁ uuid :: history) :=
    ((remembers.asked .randomUuid trivial trivial store₁ uuid).asked .now trivial trivial store₂
      now).asked (.call (.registerUser ..)) trivial trivial store₃ created
  cases created with
  | ok given =>
      refine wp_logIn asked nobody (.inl ?_) ?_ old given
      · exact ⟨ed25519, curve25519, machineId, uuid, given, now, store₃, _, _, rfl, conforms.symm,
          handling⟩
      · show config.clientAllowed history.announced = true
        rw [← remembers.hash]
        simpa using official
  | error e => cases e <;> exact wp_reply asked old _

theorem wp_authFinish {username signature : String} (remembers : Remembers config state history)
    (handling : history.handling = some (.authFinish username signature)) (old : ConnState) :
    Prog.wp (recordedSpec config) (Settled config) (authFinish conn config state username signature)
      (old, history) := by
  unfold authFinish
  split
  · exact wp_reply remembers old _
  next fresh =>
  split
  · exact wp_reply remembers old _
  next official =>
  split
  · exact wp_reply remembers old _
  next nonce pending =>
  refine (wp_recorded _ _ _ _).mpr ⟨trivial, fun store found conforms => ?_⟩
  -- the challenge is used up whatever is found
  have asked : Remembers config { state with pendingNonce := none }
      (.asked (.call (.lookupUser username)) store found :: history) :=
    { authed := remembers.authed
      nonce := nofun
      hash := remembers.hash
      safe := ⟨trivial, remembers.safe⟩ }
  cases found with
  | none => exact wp_reply asked old _
  | some record =>
      simp only [Prog.done_bind]
      split
      · next verified =>
        refine wp_logIn asked ?_ (.inr ?_) ?_ old record.uuid
        · show history.who = none
          rw [← remembers.authed]
          exact Option.not_isSome_iff_eq_none.mp fresh
        · exact ⟨signature, record, nonce, store, _, history, rfl, conforms.symm, handling,
            remembers.nonce nonce pending, verified⟩
        · show config.clientAllowed history.announced = true
          rw [← remembers.hash]
          simpa using official
      · exact wp_reply asked old _

theorem calls_publishPrekeys (authed : state.authed = who) (otks : List OneTimeKey) :
    PlainCalls who (publishPrekeys state otks) := by
  subst authed
  unfold publishPrekeys
  cases state.authed with
  | none => exact calls_reply _
  | some user =>
      refine ⟨⟨trivial, trivial⟩, fun allowed => ?_⟩
      simp only [Prog.done_bind]
      split
      · exact (calls_reply _).bind fun _ => trivial
      split
      · exact (calls_reply _).bind fun _ => trivial
      split
      · exact (calls_reply _).bind fun _ => trivial
      refine ⟨⟨trivial, rfl⟩, fun result => ?_⟩
      cases result <;> exact calls_reply _

theorem calls_send (authed : state.authed = who) (msg : SendMsg) :
    PlainCalls who (send state msg) := by
  subst authed
  unfold send
  cases state.authed with
  | none => exact calls_reply _
  | some sender =>
      refine ⟨⟨trivial, trivial⟩, fun allowed => ?_⟩
      simp only [Prog.done_bind]
      split
      · exact (calls_reply _).bind fun _ => trivial
      split
      · exact (calls_reply _).bind fun _ => trivial
      split
      · exact (calls_reply _).bind fun _ => trivial
      refine ⟨⟨trivial, trivial⟩, fun now => (calls_fanOut rfl _ _ _ _ _ _).bind fun outcome => ?_⟩
      obtain ⟨delivered, unknown⟩ := outcome
      simp only
      split <;> exact calls_reply _

theorem calls_pull (authed : state.authed = who) :
    PlainCalls who (match state.authed with
      | some username => flushOutbox username
      | none => err ErrCode.notAuthenticated "register or log in first") := by
  subst authed
  cases state.authed with
  | none => exact calls_reply _
  | some username => exact calls_flushOutbox username

/-- The state once a `ClientHello` has been heard. -/
def heard (state : ConnState) : ClientMsg → ConnState
  | .clientHello buildHash _ => { state with buildHash := some buildHash }
  | _ => state

/-- **The dispatch.** -/
theorem wp_answer (remembers : Remembers config (heard state msg) history)
    (handling : history.handling = some msg) (old : ConnState) :
    Prog.wp (recordedSpec config) (Settled config) (answer conn config state msg)
      (old, history) := by
  cases msg with
  | attestRequest nonce =>
      refine (wp_recorded _ _ _ _).mpr ⟨trivial, fun store attestation _ => ?_⟩
      have asked := remembers.asked (.attest nonce) trivial trivial store attestation
      cases attestation <;> exact wp_reply asked old _
  | clientHello buildHash version => exact wp_reply remembers old _
  | getServerInfo => exact wp_reply remembers old _
  | register username ed25519 curve25519 machineId => exact wp_register remembers handling old
  | authBegin username =>
      refine (wp_recorded _ _ _ _).mpr ⟨trivial, fun store nonce _ => wp_reply ?_ old _⟩
      refine ⟨remembers.authed, fun other same => ?_, remembers.hash, trivial, remembers.safe⟩
      obtain rfl := Option.some.inj same
      exact ⟨[], store, history, username, rfl, handling, fun _ member =>
        absurd member List.not_mem_nil⟩
  | authFinish username signature => exact wp_authFinish remembers handling old
  | publishPrekeys otks =>
      exact wp_told (calls_publishPrekeys remembers.authed otks) rfl remembers old
  | fetchPrekeys username =>
      exact wp_told (calls_fetchPrekeys remembers.authed username) rfl remembers old
  | send msg => exact wp_told (calls_send remembers.authed msg) rfl remembers old
  | pull =>
      have pulled := wp_told (calls_pull remembers.authed) rfl remembers old
      unfold answer
      cases same : state.authed with
      | none =>
          rw [show (heard state .pull).authed = none from same] at pulled
          exact pulled
      | some username =>
          rw [show (heard state .pull).authed = some username from same] at pulled
          exact pulled
  | ping => exact wp_reply remembers old _

/-- What is remembered once a message is read. -/
theorem Remembers.received (remembers : Remembers config state history) (msg : ClientMsg) :
    Remembers config (heard state msg) (.received (some msg) :: history) := by
  have pending : ∀ nonce, (heard state msg).pendingNonce = some nonce →
      Challenged nonce (.received (some msg) :: history) := by
    intro nonce pending
    have same : (heard state msg).pendingNonce = state.pendingNonce := by cases msg <;> rfl
    exact (remembers.nonce nonce (same ▸ pending)).cons not_false
  refine ⟨?_, pending, ?_, remembers.safe⟩
  · have same : (heard state msg).authed = state.authed := by cases msg <;> rfl
    rw [same]
    exact remembers.authed
  · cases msg <;> first | exact remembers.hash | rfl

/-- A message the rate limiter refuses is as if it had not come. -/
theorem Remembers.refused (remembers : Remembers config state history) (msg : ClientMsg)
    (store : Store) : Remembers config state
      (.asked (.allow .preauth) store false :: .received (some msg) :: history) where
  authed := remembers.authed
  nonce nonce pending := by
    have read : Challenged nonce (.received (some msg) :: history) :=
      (remembers.nonce nonce pending).cons not_false
    exact read.cons not_false
  hash := by cases msg <;> exact remembers.hash
  safe := ⟨trivial, remembers.safe⟩

/-- **One message.** -/
theorem wp_handle (remembers : Remembers config state history) (msg : Option ClientMsg) :
    Prog.wp (recordedSpec config) (Settled config) (handle conn config state msg)
      (state, .received msg :: history) := by
  cases msg with
  | none =>
      have pending : ∀ nonce, state.pendingNonce = some nonce →
          Challenged nonce (.received none :: history) := fun nonce pending =>
        (remembers.nonce nonce pending).cons not_false
      have read : Remembers config state (.received none :: history) :=
        ⟨remembers.authed, pending, remembers.hash, remembers.safe⟩
      exact wp_reply read state _
  | some msg =>
      have read := remembers.received msg
      unfold handle
      dsimp only
      split
      · refine (wp_recorded _ _ _ _).mpr ⟨trivial, fun store allowed _ => ?_⟩
        cases allowed with
        | false => exact wp_reply (remembers.refused msg store) state _
        | true =>
            refine wp_answer ?_ rfl state
            exact ⟨read.authed, fun nonce pending => (read.nonce nonce pending).cons not_false,
              read.hash, trivial, read.safe⟩
      · exact wp_answer read rfl state

/-! ### Whole connections -/

/-- The user was put online on a connection that spoke for nobody, when that was earned and the
build that was announced is allowed. -/
def LoggedIn (config : ServerConfig) (username : String) (history : History) : Prop :=
  ∃ (later : History) (conn : Nat) (store : Store) (answer : Unit) (earlier : History),
    history = later ++ .asked (.call (.goOnline username conn)) store answer :: earlier ∧
      earlier.who = none ∧ Earned username earlier ∧ config.clientAllowed earlier.announced = true

theorem Safe.loggedIn (safe : Safe config history) {username : String}
    (is : history.who = some username) : LoggedIn config username history := by
  induction history with
  | nil => cases is
  | cons event history ih =>
      have before : Safe config history → History.who history = some username →
          LoggedIn config username (event :: history) := by
        intro earlierSafe known
        obtain ⟨later, conn, store, answer, earlier, rfl, fact⟩ := ih earlierSafe known
        exact ⟨event :: later, conn, store, answer, earlier, rfl, fact⟩
      cases event with
      | received msg => exact before safe is
      | asked request store answer =>
          cases request with
          | call op =>
              cases op with
              | goOnline user conn =>
                  obtain rfl : user = username := Option.some.inj is
                  exact ⟨[], conn, store, answer, history, rfl, safe.1⟩
              | _ => exact before safe.2 is
          | _ => exact before safe.2 is

/-- What a proof about connections looks at: all there is. -/
def connectionView (conn : Nat) (config : ServerConfig) :
    (connection conn config).View (ConnState × History) where
  see _ s := s
  rely _ l l' := l' = l
  spec _ := recordedSpec config
  idle _ s := Remembers config s.1 s.2
  ended _ := Settled config

theorem connectionView_sound (conn : Nat) (config : ServerConfig) :
    (connectionView conn config).Sound fun s => Safe config s.2 where
  steady := ⟨fun _ _ => rfl, fun _ _ _ _ first second => second.trans first,
    fun _ _ _ holds same => same ▸ holds, fun _ _ _ _ holds same => same ▸ holds⟩
  begins := by
    rintro i p ⟨state, history⟩ s' safe remembers ⟨msg, rfl, rfl⟩
    exact ⟨Prog.wp_under_of_eq (fun _ _ same => same) (wp_handle remembers msg), safe,
      fun j other => absurd (Subsingleton.elim j i) other⟩
  acts := by
    rintro i request ⟨state, history⟩ answer s' safe allowed made
    refine ⟨made, ?_, fun j other => absurd (Subsingleton.elim j i) other⟩
    obtain ⟨store, _, rfl⟩ := made
    exact ⟨allowed, safe⟩
  ends := by
    rintro i result ⟨old, history⟩ s' safe settled ⟨state, rfl, rfl⟩
    exact ⟨settled, safe, fun j other => absurd (Subsingleton.elim j i) other⟩
  drift := fun _ _ _ drifts => drifts.elim

/-- A connection that has just been accepted. -/
def accepted : Crew.State Unit (ConnState × History) Ask Ask.Answer Unit ConnState :=
  (fun _ => none, .initial, [])

/-- **Authentication safety.** A connection that speaks for somebody has logged in as that user,
once, and no request of its history was out of order. -/
theorem connection_safe (conn : Nat) (config : ServerConfig)
    {tasks : Unit → Option (Task ConnState)} {state : ConnState} {history : History}
    (reached : Relation.ReflTransGen (connection conn config).Next accepted
      (tasks, state, history)) :
    (tasks () = none → state.authed = history.who) ∧
      (∀ username, history.who = some username → LoggedIn config username history) ∧
      (∀ later earlier username, history = later ++ earlier → earlier.who = some username →
        history.who = some username) ∧
      Safe config history := by
  have initially : Remembers config ConnState.initial [] := ⟨rfl, nofun, rfl, trivial⟩
  obtain ⟨safe, holds⟩ := (connectionView_sound conn config).reached reached (fun _ => rfl)
    (fun _ => initially) trivial
  refine ⟨fun idle => ?_, fun username is => safe.loggedIn is, ?_, safe⟩
  · have remembers : (connectionView conn config).Holds () none (state, history) :=
      Crew.View.holds_of_eq idle (holds ())
    exact remembers.authed
  · rintro later earlier username rfl known
    exact Safe.who_append safe known

end

end

end Relay

namespace Ideal

open Relay

/-- A relay that lets in one build only. -/
def strictConfig : ServerConfig := ⟨"relay", "", "", "", "", true, ["official"]⟩

/-- An empty directory; the rate limiter lets everything through, or nothing. -/
def relayAnswer (allowed : Bool) : (request : Relay.Ask) → request.Answer
  | .call op => (op.exec Store.empty).1
  | .trySend _ | .sendWait _ | .push .. => true
  | .allow _ => allowed
  | .attest _ => .ok .null
  | .now => (0 : Int)
  | .randomNonce => ([] : Bytes)
  | .randomUuid => "id"

def recorder (allowed : Bool) : Prog.Machine (ConnState × History) Relay.Ask Relay.Ask.Answer :=
  fun request s => (relayAnswer allowed request,
    (s.1, .asked request Store.empty (relayAnswer allowed request) :: s.2))

theorem recorder_conforms (allowed : Bool) (request : Relay.Ask) (s : ConnState × History) :
    Relay.Ask.recorded request s (recorder allowed request s).1 (recorder allowed request s).2 := by
  refine ⟨Store.empty, ?_, rfl⟩
  cases request <;> first | rfl | trivial

abbrev strict := connection 0 strictConfig

/-- A message is handled in that directory. -/
theorem strict_handles (allowed : Bool) (msg : ClientMsg) {state state' : ConnState}
    {history history' : History}
    (runs : Prog.run (recorder allowed) (handle 0 strictConfig state (some msg))
      (state, .received (some msg) :: history) = (.ok state', (state, history'))) :
    Relation.ReflTransGen strict.Next (fun _ => none, state, history)
    (fun _ => none, state', history') := by
  have whole := Prog.run_runs (recorder_conforms allowed) (handle 0 strictConfig state (some msg))
    (state, .received (some msg) :: history)
  rw [runs] at whole
  exact Crew.runs_next (i := ()) rfl ⟨some msg, rfl, rfl⟩ whole ⟨state', rfl, rfl⟩

def official : ConnState := ⟨none, none, some "official"⟩

/-- Thirty hellos, as many as come through in one go, and then some. -/
theorem hellos_heard (n : Nat) :
    ∃ history, Relation.ReflTransGen strict.Next accepted (fun _ => none, official, history) := by
  induction n with
  | zero => exact ⟨_, strict_handles true (.clientHello "official" "0.1.1") rfl⟩
  | succ n ih =>
      obtain ⟨history, before⟩ := ih
      exact ⟨_, before.trans (strict_handles true (.clientHello "official" "0.1.1") rfl)⟩

/-- The text of a key, as the relay takes it. -/
def someKey : String := Crates.b64Encode (publicKey 1 7).bytes

/-- What is asked for before and after Bob is put online. -/
def earning (history : History) : History :=
  .asked (.call (.registerUser "bob" someKey someKey "" "id" 0)) Store.empty (.ok "id") ::
    .asked .now Store.empty (0 : Int) :: .asked .randomUuid Store.empty "id" ::
      .asked (.allow .preauth) Store.empty true ::
        .received (some (.register "bob" someKey someKey "")) :: history

def welcome : History :=
  [.asked (.call (.pendingFrames "bob")) Store.empty [],
    .asked (.trySend (.authOk "id" "bob")) Store.empty true]

theorem bob_registers (history : History) :
    Relation.ReflTransGen strict.Next (fun _ => none, official, history)
      (fun _ => none, { official with authed := some "bob" },
        welcome ++ .asked (.call (.goOnline "bob" 0)) Store.empty () :: earning history) := by
  refine strict_handles true (.register "bob" someKey someKey "") ?_
  have valid : Relay.validPubkeyB64 someKey = true := validPubkeyB64_encode (publicKey 1 7)
  show Prog.run (recorder true) (register 0 strictConfig official "bob" someKey someKey "")
    (official, .asked (.allow .preauth) Store.empty true ::
      .received (some (.register "bob" someKey someKey "")) :: history) = _
  unfold register
  rw [valid]
  rfl

/-- The build hash of the last `ClientHello`, whether it was let through or not. -/
def lastHello : History → Option String
  | [] => none
  | .received (some (.clientHello buildHash _)) :: _ => some buildHash
  | _ :: earlier => lastHello earlier

/-- After a hello that is refused, the build that was announced before still counts. -/
theorem refused_hello_ignored :
    ¬ ∀ (conn : Nat) (config : ServerConfig) (tasks : Unit → Option (Relay.Task ConnState))
      (state : ConnState) (later earlier : History) (username : String) (store : Store),
      Relation.ReflTransGen (connection conn config).Next accepted
        (tasks, state, later ++ .asked (.call (.goOnline username conn)) store () :: earlier) →
      config.clientAllowed (lastHello earlier) = true := by
  intro law
  obtain ⟨history, before⟩ := hellos_heard 30
  have refused : Relation.ReflTransGen strict.Next (fun _ => none, official, history)
      (fun _ => none, official, _) :=
    strict_handles false (.clientHello "unofficial" "0.1.1") rfl
  have allowed := law 0 strictConfig _ _ _ _ _ _ ((before.trans refused).trans (bob_registers _))
  have unofficial : strictConfig.clientAllowed (some "unofficial") = true := allowed
  exact absurd unofficial (by decide)

/-- Bob's registration, as an instance. -/
theorem bob_logged_in :
    ∃ (state : ConnState) (history : History),
      state.authed = some "bob" ∧ LoggedIn strictConfig "bob" history := by
  obtain ⟨history, before⟩ := hellos_heard 1
  have whole := before.trans (bob_registers history)
  exact ⟨{ official with authed := some "bob" }, _, rfl,
    (connection_safe 0 strictConfig whole).2.1 "bob" rfl⟩

end Ideal

end Cherm
