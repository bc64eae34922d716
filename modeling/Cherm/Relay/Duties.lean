/-
**What a connection has made sure of when it calls into the shared store.**

The checks of the handlers and the tables they protect are under different locks. `Duty` says what
is known when a request is made: a name that is registered is valid and not reserved, whoever goes
online or publishes keys is registered, a row is stored for a registered recipient, and only a
connection that is closing leaves. What the task learned about the directory stays true, since the
others only add to it (`Desk.Grows`).

* `wp_handle`, `wp_close`: the handlers keep to their duties while the others act.
* `deskView`, `deskView_sound`: the rule for the relay that follows.
-/

import Cherm.Relay.Copies

namespace Cherm.Relay

open Crates

/-- There is a user of that name. -/
def Enrolled (users : List UserRow) (username : String) : Prop :=
  ∃ row ∈ users, row.record.username = username

theorem usernameExists_iff (store : Store) (username : String) :
    store.usernameExists username = true ↔ Enrolled store.users username := by
  unfold Store.usernameExists Enrolled
  rw [List.any_eq_true]
  simp only [decide_eq_true_eq]

theorem Enrolled.append {users : List UserRow} {username : String}
    (registered : Enrolled users username)
    (more : List UserRow) : Enrolled (users ++ more) username := by
  obtain ⟨row, member, named⟩ := registered
  exact ⟨row, List.mem_append_left _ member, named⟩

/-- What a task knows: whom its connection speaks for, where it is in its life, and the directory.
-/
structure Desk where
  authed : Option String
  life : Life
  user : Option String
  users : List UserRow

/-- The others only add to the directory, and a connection may be accepted. -/
structure Desk.Grows (l l' : Desk) : Prop where
  authed : l'.authed = l.authed
  life : l.life ≠ .fresh → l'.life = l.life
  user : l'.user = l.user
  users : l.users <+: l'.users

theorem Desk.Grows.refl (l : Desk) : l.Grows l := ⟨rfl, fun _ => rfl, rfl, List.prefix_refl _⟩

theorem Desk.Grows.trans {l l' l'' : Desk} (first : l.Grows l') (second : l'.Grows l'') :
    l.Grows l'' where
  authed := second.authed.trans first.authed
  life living := by
    have same := first.life living
    rw [← same] at living
    exact (second.life living).trans same
  user := second.user.trans first.user
  users := first.users.trans second.users

theorem Desk.Grows.isOpen {l l' : Desk} (grown : l.Grows l') (isOpen : l.life = .open) :
    l'.life = .open :=
  (grown.life (by rw [isOpen]; exact nofun)).trans isOpen

theorem Desk.Grows.closing {l l' : Desk} (grown : l.Grows l') (closing : l.life = .closing) :
    l'.life = .closing :=
  (grown.life (by rw [closing]; exact nofun)).trans closing

theorem Enrolled.grows {users users' : List UserRow} {username : String}
    (registered : Enrolled users username) (grown : users <+: users') :
      Enrolled users' username := by
  obtain ⟨more, rfl⟩ := grown
  exact registered.append more

/-- An open connection that speaks for a registered user, or for nobody. -/
structure Speaks (who : Option String) (l : Desk) : Prop where
  isOpen : l.life = .open
  user : l.user = who
  registered : ∀ username, who = some username → Enrolled l.users username

theorem Speaks.grows {who : Option String} {l l' : Desk} (speaks : Speaks who l)
    (grown : l.Grows l') :
    Speaks who l' where
  isOpen := grown.isOpen speaks.isOpen
  user := grown.user.trans speaks.user
  registered username is := (speaks.registered username is).grows grown.users

/-- A program ends with the state of its connection's user. -/
def Leaves (result : Except Unit ConnState) (l : Desk) : Prop :=
  ∀ state, result = .ok state → l.user = state.authed ∧
    ∀ username, l.user = some username → Enrolled l.users username

theorem Leaves.grows {result : Except Unit ConnState} {l l' : Desk} (leaves : Leaves result l)
    (grown : l.Grows l') : Leaves result l' := by
  intro state ended
  obtain ⟨user, enrolled⟩ := leaves state ended
  rw [← grown.user] at user enrolled
  exact ⟨user, fun username is => (enrolled username is).grows grown.users⟩

/-- What a handler ends with. -/
def Concludes (result : Except Unit ConnState) (l : Desk) : Prop :=
  ∀ state, result = .ok state → Speaks state.authed l

theorem Concludes.leaves {result : Except Unit ConnState} {l : Desk}
    (concludes : Concludes result l) :
    Leaves result l := by
  intro state ended
  have speaks := concludes state ended
  exact ⟨speaks.user, fun username is => speaks.registered username (speaks.user.symm.trans is)⟩

/-- A registration is refused, and then it changes nothing, or adds a row with a new name and a new
key. -/
theorem registerUser_cases (store : Store) (username ed25519 curve25519 machineId uuid : String)
    (now : Int) :
    (∃ e, store.registerUser username ed25519 curve25519 machineId uuid now = (.error e, store)) ∨
      ¬ Enrolled store.users username ∧ (∀ row ∈ store.users, row.record.ed25519 ≠ ed25519) ∧
        store.registerUser username ed25519 curve25519 machineId uuid now = (.ok uuid, { store with
          users := store.users ++ [⟨⟨uuid, username, ed25519, curve25519⟩, machineId, now⟩] }) := by
  unfold Store.registerUser
  split
  · exact .inl ⟨_, rfl⟩
  next fresh =>
  split
  · exact .inl ⟨_, rfl⟩
  next unknown =>
  split
  · exact .inl ⟨_, rfl⟩
  · refine .inr ⟨?_, fun row member same => unknown ?_, rfl⟩
    · rw [← usernameExists_iff]
      exact fresh
    · exact List.any_eq_true.mpr ⟨row, member, decide_eq_true same⟩

/-- What an answer says about the directory. -/
def Ask.Learned : (request : Ask) → request.Answer → List UserRow → Prop
  | .call (.lookupUser username), some _, users => Enrolled users username
  | .call (.registerUser username ..), .ok _, users => Enrolled users username
  | .call (.route recipient), (_, true), users => Enrolled users recipient
  | _, _, _ => True

def Ask.OnStore : (request : Ask) → Store → request.Answer → Store → Prop
  | .call op, store, answer, store' => answer = (op.exec store).1 ∧ store' = (op.exec store).2
  | _, store, _, store' => store' = store

theorem learns {request : Ask} {store store' : Store} {answer : request.Answer}
    (made : request.OnStore store answer store') : request.Learned answer store'.users := by
  cases request with
  | call op =>
      obtain ⟨rfl, rfl⟩ := made
      cases op with
      | lookupUser username =>
          show Ask.Learned (.call (.lookupUser username)) (store.lookupUser username) store.users
          cases found : store.lookupUser username with
          | none => trivial
          | some record =>
              obtain ⟨row, first, rfl⟩ := Option.map_eq_some_iff.mp found
              have named := List.find?_some first
              exact ⟨row, List.mem_of_find?_eq_some first, of_decide_eq_true named⟩
      | registerUser username ed25519 curve25519 machineId uuid now =>
          show Ask.Learned (.call (.registerUser username ed25519 curve25519 machineId uuid now))
            (store.registerUser username ed25519 curve25519 machineId uuid now).1
            (store.registerUser username ed25519 curve25519 machineId uuid now).2.users
          rcases registerUser_cases store username ed25519 curve25519 machineId uuid now with
            ⟨_, refused⟩ | ⟨_, _, added⟩
          · rw [refused]
            trivial
          · rw [added]
            exact ⟨_, List.mem_append_right _ (List.mem_singleton_self _), rfl⟩
      | route recipient =>
          show Ask.Learned (.call (.route recipient)) (store.route recipient) store.users
          unfold Store.route
          cases «exists» : store.usernameExists recipient with
          | false => trivial
          | true => exact (usernameExists_iff store recipient).mp «exists»
      | _ => trivial
  | _ => trivial

/-- What a task knows in a system. -/
def System.desk (sys : System) (c : Nat) : Desk where
  authed := (sys.conns c).state.authed
  life := (sys.conns c).life
  user := (sys.conns c).ledger.user
  users := sys.store.users

/-- Changing a connection but for its state, its life and its ledger. -/
theorem desk_update (sys : System) (c other : Nat) {f : Conn → Conn}
    (state : (f (sys.conns c)).state = (sys.conns c).state)
      (life : (f (sys.conns c)).life = (sys.conns c).life)
    (ledger : (f (sys.conns c)).ledger = (sys.conns c).ledger) :
    (sys.update c f).desk other = sys.desk other := by
  unfold System.desk
  rw [sys.update_keeps c Conn.state state, sys.update_keeps c Conn.life life,
    sys.update_keeps c Conn.ledger ledger]
  rfl

theorem desk_update_self (sys : System) (c : Nat) (f : Conn → Conn) :
    (sys.update c f).desk c = ⟨(f (sys.conns c)).state.authed, (f (sys.conns c)).life,
      (f (sys.conns c)).ledger.user, sys.store.users⟩ := by
  unfold System.desk
  rw [System.update_self]
  rfl

theorem desk_update_of_ne (sys : System) {c other : Nat} (f : Conn → Conn) (different : other ≠ c) :
    (sys.update c f).desk other = sys.desk other := by
  unfold System.desk
  rw [System.update_of_ne _ _ different]
  rfl

/-- What happens without a task adds nothing to a desk. -/
theorem drift_desk {rules : Rules} {sys sys' : System} (drifts : Drift rules sys sys') (other : Nat) :
    (sys.desk other).Grows (sys'.desk other) := by
  have kept : ∀ {c : Nat} {f : Conn → Conn}, (f (sys.conns c)).state = (sys.conns c).state →
      (f (sys.conns c)).life = (sys.conns c).life → (f (sys.conns c)).ledger =
        (sys.conns c).ledger →
        (sys.desk other).Grows ((sys.update c f).desk other) := by
    intro c f state life ledger
    rw [desk_update sys c other state life ledger]
    exact Desk.Grows.refl _
  cases drifts with
  | @accept c fresh =>
      by_cases mine : other = c
      · subst mine
        rw [desk_update_self]
        exact ⟨rfl, fun living => absurd fresh living, rfl, List.prefix_refl _⟩
      · rw [desk_update_of_ne _ _ mine]
        exact Desk.Grows.refl _
  | @take c entry rest alive idle first =>
      exact kept (f := fun conn => { conn with chan := rest, writing := some entry }) rfl rfl rfl
  | @write c entry busy => exact kept (f := fun conn => { conn with writing := none }) rfl rfl rfl
  | @stop c alive allowed =>
      exact kept (f := fun conn => { conn with alive := false, chan := [], writing := none })
        rfl rfl rfl
  | prune => exact Desk.Grows.refl _

section

variable [Crates]

/-- What is known when a request is made. -/
def Duty (c : Nat) : Ask → Desk → Prop
  | .call (.registerUser username ed25519 curve25519 _ _ _), _ =>
      isReservedUsername username = false ∧ validUsername username = true ∧
        validPubkeyB64 ed25519 = true ∧ validPubkeyB64 curve25519 = true
  | .call (.goOnline username conn), l =>
      conn = c ∧ l.life = .open ∧ l.user = none ∧ Enrolled l.users username
  | .call (.goOffline username conn), l => conn = c ∧ l.life = .closing ∧ l.user = some username
  | .call (.publishPrekeys username _), l => l.user = some username
  | .call (.enqueue recipient _ _), l => Enrolled l.users recipient
  | _, _ => True

/-- The user a connection speaks for after a request. -/
def Ask.speaker : Ask → Option String → Option String
  | .call (.goOnline username _), _ => some username
  | _, user => user

/-- The requests of a task, seen from its desk. -/
def deskSpec (c : Nat) : Prog.Spec Desk Ask Ask.Answer where
  demand := Duty c
  step request l answer l' := l'.authed = l.authed ∧ l'.life = l.life ∧
  l'.user = request.speaker l.user ∧
    l.users <+: l'.users ∧ request.Learned answer l'.users

/-- The same while the others act. -/
abbrev sharedSpec (c : Nat) : Prog.Spec Desk Ask Ask.Answer := (deskSpec c).under Desk.Grows

/-- Requests that need no more than what is known of the speaker. -/
def Ask.Free : Ask → Prop
  | .call (.registerUser ..) | .call (.goOnline ..) | .call (.goOffline ..) | .call
      (.publishPrekeys ..)
  | .call (.enqueue ..) => False
  | _ => True

section

variable {c : Nat} {who : Option String} {l : Desk} {α : Type} {post : Except Unit α → Desk → Prop}

/-- **One request**: the duty, and what is known after it. -/
theorem wp_asks {request : Ask} {next : request.Answer → Task α} (speaks : Speaks who l)
    (same : request.speaker who = who) (duty : ∀ l', l.Grows l' → Speaks who l' → Duty c request l')
    (rest : ∀ answer l', Speaks who l' → l.users <+: l'.users → request.Learned answer l'.users →
      Prog.wp (sharedSpec c) post (next answer) l') : Prog.wp (sharedSpec c) post
        (.ask request next) l := by
  refine ⟨fun l' grown => duty l' grown (speaks.grows grown), ?_⟩
  rintro answer l'' ⟨l', grown, authed, life, user, users, learned⟩
  have speaks' := speaks.grows grown
  refine rest answer l'' ⟨life.trans speaks'.isOpen, ?_, fun username is => ?_⟩
    (grown.users.trans users) learned
  · rw [user, speaks'.user, same]
  · exact (speaks'.registered username is).grows users

theorem wp_plainly {request : Ask} {next : request.Answer → Task α} (speaks : Speaks who l)
    (free : request.Free) (rest : ∀ answer l', Speaks who l' → request.Learned answer l'.users →
      Prog.wp (sharedSpec c) post (next answer) l') : Prog.wp (sharedSpec c) post
        (.ask request next) l := by
  refine wp_asks speaks ?_ (fun l' _ _ => ?_) fun answer l' speaks' _ learned =>
    rest answer l' speaks' learned
  · cases request with
    | call op => cases op <;> first | rfl | exact free.elim
    | _ => rfl
  · cases request with
    | call op =>
        cases op with
        | registerUser username ed25519 curve25519 machineId uuid now => exact free.elim
        | goOnline username conn => exact free.elim
        | goOffline username conn => exact free.elim
        | publishPrekeys username otks => exact free.elim
        | enqueue recipient frame ts => exact free.elim
        | _ => trivial
    | _ => trivial

theorem wp_says {state : ConnState} (speaks : Speaks state.authed l) (msg : ServerMsg) :
    Prog.wp (sharedSpec c) Concludes ((reply msg).bind fun _ => Prog.done state) l := by
  refine wp_plainly speaks trivial fun _ l' speaks' _ => ?_
  rintro _ ⟨⟩
  exact speaks'

/-- A program that leaves the speaker, and then the state is returned. -/
theorem wp_keeping {state : ConnState} {prog : Task α}
    (keeps : Prog.wp (sharedSpec c) (fun _ => Speaks state.authed) prog l) :
    Prog.wp (sharedSpec c) Concludes (prog.bind fun _ => Prog.done state) l := by
  refine Prog.wp_then keeps (fun _ l' after => ?_) fun _ _ _ => nofun
  rintro _ ⟨⟩
  exact (after : Speaks state.authed l')

theorem wp_replies (speaks : Speaks who l) (msg : ServerMsg) :
    Prog.wp (sharedSpec c) (fun _ => Speaks who) (reply msg) l :=
  wp_plainly speaks trivial fun _ _ speaks' _ => speaks'

/-! ### The handlers -/

theorem wp_sending (speaks : Speaks who l) (rows : List (Nat × Bytes)) (handled : List Nat) :
    Prog.wp (sharedSpec c) (fun _ => Speaks who) (sendFrames rows handled) l := by
  induction rows generalizing handled l with
  | nil => exact speaks
  | cons row rest ih =>
      obtain ⟨id, bytes⟩ := row
      unfold sendFrames
      cases readFrame bytes with
      | none => exact ih speaks _
      | some frame =>
          refine wp_plainly speaks trivial fun sent l' speaks' _ => ?_
          cases sent with
          | true => exact ih speaks' _
          | false => exact speaks'

theorem wp_flushing (speaks : Speaks who l) (username : String) :
    Prog.wp (sharedSpec c) (fun _ => Speaks who) (flushOutbox username) l := by
  refine wp_plainly speaks trivial fun rows l' speaks' _ => ?_
  simp only [Prog.done_bind]
  split
  · exact speaks'
  · refine Prog.wp_then (wp_sending speaks' rows []) (fun handled l'' speaks'' => ?_)
      fun _ _ after => after
    split
    · exact speaks''
    · exact wp_plainly speaks'' trivial fun _ _ after _ => after

theorem wp_loggingIn {state : ConnState} (speaks : Speaks none l) (uuid : String)
    {username : String}
    (enrolled : Enrolled l.users username) :
    Prog.wp (sharedSpec c) Concludes (logIn c state uuid username) l := by
  refine ⟨fun l' grown => ?_, ?_⟩
  · have speaks' := speaks.grows grown
    exact ⟨rfl, speaks'.isOpen, speaks'.user, enrolled.grows grown.users⟩
  · rintro answer l'' ⟨l', grown, authed, life, user, users, learned⟩
    have online : Speaks (some username) l'' := by
      refine ⟨life.trans (speaks.grows grown).isOpen, user, ?_⟩
      rintro _ ⟨⟩
      exact (enrolled.grows grown.users).grows users
    refine wp_plainly online trivial fun _ l₃ speaks₃ _ => ?_
    show Prog.wp _ _ ((flushOutbox username).bind fun _ =>
      Prog.done { state with authed := some username }) l₃
    exact wp_keeping (wp_flushing speaks₃ username)

theorem wp_registering {config : ServerConfig} {state : ConnState} (speaks : Speaks state.authed l)
    (username ed25519 curve25519 machineId : String) :
    Prog.wp (sharedSpec c) Concludes (register c config state username ed25519 curve25519
      machineId) l := by
  unfold register
  split
  · exact wp_says speaks _
  next fresh =>
  have nobody : state.authed = none := Option.not_isSome_iff_eq_none.mp fresh
  split
  · exact wp_says speaks _
  split
  · exact wp_says speaks _
  split
  · exact wp_says speaks _
  next unreserved =>
  split
  · exact wp_says speaks _
  next valid =>
  split
  · exact wp_says speaks _
  next keys =>
  simp only [Bool.not_eq_true, Bool.not_eq_false', Bool.or_eq_false_iff] at unreserved valid keys
  refine wp_plainly speaks trivial fun uuid l₁ speaks₁ _ => ?_
  refine wp_plainly speaks₁ trivial fun now l₂ speaks₂ _ => ?_
  refine wp_asks speaks₂ rfl (fun _ _ _ => ⟨unreserved, valid, keys⟩)
    fun created l₃ speaks₃ _ learned => ?_
  cases created with
  | ok given =>
      rw [nobody] at speaks₃
      exact wp_loggingIn speaks₃ _ learned
  | error e => cases e <;> exact wp_says speaks₃ _

theorem wp_answering {config : ServerConfig} {state : ConnState} (speaks : Speaks state.authed l)
    (username signature : String) :
    Prog.wp (sharedSpec c) Concludes (authFinish c config state username signature) l := by
  unfold authFinish
  split
  · exact wp_says speaks _
  next fresh =>
  have nobody : state.authed = none := Option.not_isSome_iff_eq_none.mp fresh
  split
  · exact wp_says speaks _
  split
  · exact wp_says speaks _
  refine wp_plainly speaks trivial fun found l' speaks' learned => ?_
  cases found with
  | none =>
      have asked : Speaks { state with pendingNonce := none : ConnState }.authed l' := speaks'
      exact wp_says asked _
  | some record =>
      simp only [Prog.done_bind]
      split
      · rw [nobody] at speaks'
        exact wp_loggingIn speaks' _ learned
      · have asked : Speaks { state with pendingNonce := none : ConnState }.authed l' := speaks'
        exact wp_says asked _

theorem wp_publishing {state : ConnState} (speaks : Speaks state.authed l)
    (otks : List OneTimeKey) :
    Prog.wp (sharedSpec c) (fun _ => Speaks state.authed) (publishPrekeys state otks) l := by
  unfold publishPrekeys
  generalize state.authed = who at speaks ⊢
  cases who with
  | none => exact wp_replies speaks _
  | some user =>
      refine wp_plainly speaks trivial fun allowed l₁ speaks₁ _ => ?_
      simp only [Prog.done_bind]
      iterate 3
        split
        · exact wp_plainly speaks₁ trivial fun _ _ after _ => after
      refine wp_asks speaks₁ rfl (fun l' _ speaks' => speaks'.user) fun result l₂ speaks₂ _ _ => ?_
      cases result <;> exact wp_replies speaks₂ _

theorem wp_fetching {state : ConnState} (speaks : Speaks state.authed l) (username : String) :
    Prog.wp (sharedSpec c) (fun _ => Speaks state.authed) (fetchPrekeys state username) l := by
  unfold fetchPrekeys
  split
  · exact wp_plainly speaks trivial fun _ _ after _ => after
  refine wp_plainly speaks trivial fun allowed l₁ speaks₁ _ => ?_
  simp only [Prog.done_bind]
  split
  · exact wp_plainly speaks₁ trivial fun _ _ after _ => after
  refine wp_plainly speaks₁ trivial fun bundle l₂ speaks₂ _ => ?_
  cases bundle <;> exact wp_replies speaks₂ _

theorem wp_fanningOut (speaks : Speaks who l) (sender : String) (frame : Deliver) (queued : Bytes)
    (recipients : List String) (delivered unknown : Bool) :
    Prog.wp (sharedSpec c) (fun _ => Speaks who) (fanOut sender frame queued recipients delivered
      unknown) l := by
  induction recipients generalizing delivered unknown l with
  | nil => exact speaks
  | cons recipient rest ih =>
      have stored : ∀ {l : Desk}, Speaks who l → Enrolled l.users recipient →
          Prog.wp (sharedSpec c) (fun _ => Speaks who) (do
            let stored ← call (.enqueue recipient queued frame.serverTs)
            fanOut sender frame queued rest (delivered || stored) unknown) l := by
        intro l speaks enrolled
        exact wp_asks speaks rfl (fun l' grown _ => enrolled.grows grown.users)
          fun _ l' after _ _ =>
          ih after _ _
      unfold fanOut
      split
      · exact ih speaks _ _
      · refine wp_plainly speaks trivial fun routed l' speaks' learned => ?_
        obtain ⟨online, «exists»⟩ := routed
        simp only [Prog.done_bind]
        cases «exists» with
        | false => exact ih speaks' _ _
        | true =>
            have enrolled : Enrolled l'.users recipient := learned
            cases online with
            | none => exact stored speaks' enrolled
            | some conn =>
                refine wp_asks speaks' rfl (fun _ _ _ => trivial)
                  fun pushed l₂ speaks₂ users _ => ?_
                cases pushed with
                | true => exact ih speaks₂ _ _
                | false => exact stored speaks₂ (enrolled.grows users)

theorem wp_sendingTo {state : ConnState} (speaks : Speaks state.authed l) (msg : SendMsg) :
    Prog.wp (sharedSpec c) (fun _ => Speaks state.authed) (send state msg) l := by
  unfold send
  generalize state.authed = who at speaks ⊢
  cases who with
  | none => exact wp_replies speaks _
  | some sender =>
      refine wp_plainly speaks trivial fun allowed l₁ speaks₁ _ => ?_
      simp only [Prog.done_bind]
      iterate 3
        split
        · exact wp_plainly speaks₁ trivial fun _ _ after _ => after
      refine wp_plainly speaks₁ trivial fun serverTs l₂ speaks₂ _ => ?_
      simp only [Prog.done_bind]
      refine Prog.wp_then (wp_fanningOut speaks₂ sender _ _ _ _ _) (fun outcome l₃ speaks₃ => ?_)
        fun _ _ after => after
      obtain ⟨delivered, unknown⟩ := outcome
      simp only
      split <;> exact wp_replies speaks₃ _

/-- **Every message.** -/
theorem wp_handling {config : ServerConfig} {state : ConnState} (speaks : Speaks state.authed l)
    (msg : Option ClientMsg) : Prog.wp (sharedSpec c) Concludes (handle c config state msg) l := by
  have answered : ∀ {l : Desk}, Speaks state.authed l → ∀ msg,
      Prog.wp (sharedSpec c) Concludes (answer c config state msg) l := by
    intro l speaks msg
    cases msg with
    | attestRequest nonce =>
        refine wp_plainly speaks trivial fun attestation l' speaks' _ => ?_
        cases attestation <;> exact wp_says speaks' _
    | clientHello buildHash version =>
        have heard : Speaks { state with buildHash := some buildHash : ConnState }.authed
            l := speaks
        exact wp_says heard _
    | getServerInfo => exact wp_says speaks _
    | register username ed25519 curve25519 machineId => exact wp_registering speaks _ _ _ _
    | authBegin username =>
        refine wp_plainly speaks trivial fun nonce l' speaks' _ => ?_
        have challenged : Speaks { state with pendingNonce := some nonce : ConnState }.authed
            l' := speaks'
        exact wp_says challenged _
    | authFinish username signature => exact wp_answering speaks _ _
    | publishPrekeys otks => exact wp_keeping (wp_publishing speaks otks)
    | fetchPrekeys username => exact wp_keeping (wp_fetching speaks username)
    | send msg => exact wp_keeping (wp_sendingTo speaks msg)
    | pull =>
        unfold answer
        cases state.authed with
        | none => exact wp_says speaks _
        | some username => exact wp_keeping (wp_flushing speaks username)
    | ping => exact wp_says speaks _
  cases msg with
  | none => exact wp_says speaks _
  | some msg =>
      unfold handle
      dsimp only
      split
      · refine wp_plainly speaks trivial fun allowed l' speaks' _ => ?_
        cases allowed with
        | false => exact wp_says speaks' _
        | true => exact answered speaks' msg
      · exact answered speaks msg

/-- Who leaves is closing. -/
theorem wp_closing {state : ConnState} (closing : l.life = .closing) (user : l.user = state.authed)
    (enrolled : ∀ username, l.user = some username → Enrolled l.users username) :
    Prog.wp (sharedSpec c) Leaves ((close c state).bind fun _ => .done state) l := by
  unfold close
  cases is : state.authed with
  | none =>
      rintro _ ⟨⟩
      exact ⟨user, enrolled⟩
  | some username =>
      rw [is] at user
      refine ⟨fun l' grown => ⟨rfl, grown.closing closing, grown.user.trans user⟩, ?_⟩
      rintro answer l'' ⟨l', grown, _, _, noted, users, _⟩
      have still : l''.user = some username := noted.trans (grown.user.trans user)
      rintro _ ⟨⟩
      refine ⟨still.trans is.symm, fun other named => ?_⟩
      exact ((enrolled other (user.trans (still.symm.trans named))).grows grown.users).grows users

end

/-! ### The view -/

/-- The desks of all tasks, over one directory. -/
def deskView (config : ServerConfig) (rules : Rules) : (relay config rules).View Desk where
  see c sys := sys.desk c
  rely _ := Desk.Grows
  spec := deskSpec
  idle _ l := l.user = l.authed ∧ ∀ username, l.user = some username → Enrolled l.users username
  ended _ := Leaves

/-! ### What a request does to the store -/

theorem Ask.onSystem_store {c : Nat} {request : Ask} {sys sys' : System} {answer : request.Answer}
    (made : request.onSystem c sys answer sys') : request.OnStore sys.store answer sys'.store := by
  obtain ⟨mid, made, rfl⟩ := made
  cases request with
  | call op =>
      cases op with
      | enqueue recipient frame ts =>
          have made : (answer, mid) = sys.enqueue c recipient frame ts := made
          show answer = (sys.store.enqueueIfUnderCap recipient frame ts).1 ∧
            mid.store = (sys.store.enqueueIfUnderCap recipient frame ts).2
          rcases sys.store.enqueueIfUnderCap_cases recipient frame ts with result | result
          · rw [System.enqueue, result] at made
            obtain ⟨rfl, rfl⟩ := Prod.mk.inj made
            rw [result]
            exact ⟨rfl, rfl⟩
          · rw [System.enqueue, result] at made
            obtain ⟨rfl, rfl⟩ := Prod.mk.inj made
            rw [result]
            exact ⟨rfl, rfl⟩
      | _ =>
          obtain ⟨rfl, rfl⟩ := made
          exact ⟨rfl, rfl⟩
  | trySend msg =>
      have made : (answer, mid) = sys.offer c ⟨msg, none, none⟩ := made
      rcases sys.offer_cases c ⟨msg, none, none⟩ with result | ⟨_, result⟩ <;>
      · rw [result] at made
        obtain ⟨_, rfl⟩ := Prod.mk.inj made
        rfl
  | sendWait msg =>
      have made : (answer, mid) = sys.pushRow c msg := made.2
      rcases sys.pushRow_cases c msg with ⟨_, result⟩ | ⟨_, result⟩ <;>
      · rw [result] at made
        obtain ⟨_, rfl⟩ := Prod.mk.inj made
        rfl
  | push conn msg =>
      have made : (answer, mid) = sys.pushCopy c conn msg := made
      rcases sys.pushCopy_cases c conn msg with result | ⟨_, result⟩ <;>
      · rw [result] at made
        obtain ⟨_, rfl⟩ := Prod.mk.inj made
        rfl
  | now =>
      obtain ⟨_, rfl⟩ := made
      rfl
  | _ =>
      obtain rfl : mid = sys := made
      rfl

/-- Only a registration changes the directory. -/
theorem exec_users (op : StoreOp) (store : Store) :
    (op.exec store).2.users = store.users ∨ ∃ username ed25519 curve25519 machineId uuid now,
      op = .registerUser username ed25519 curve25519 machineId uuid now := by
  cases op with
  | registerUser username ed25519 curve25519 machineId uuid now =>
      exact .inr ⟨_, _, _, _, _, _, rfl⟩
  | publishPrekeys username otks =>
      obtain ⟨prekeys, same⟩ := publishPrekeys_frame store username otks
      have users := congrArg Store.users same
      exact .inl users
  | fetchBundle username =>
      left
      show (store.fetchBundle username).2.users = _
      unfold Store.fetchBundle Store.takePrekey
      split
      · rfl
      · dsimp only
        split <;> rfl
  | enqueue recipient frame ts =>
      left
      show (store.enqueueIfUnderCap recipient frame ts).2.users = _
      rcases store.enqueueIfUnderCap_cases recipient frame ts with result | result <;> rw [result]
      rfl
  | goOffline username conn =>
      left
      show (store.goOffline username conn).users = _
      unfold Store.goOffline
      split <;> rfl
  | _ => exact .inl rfl

theorem users_grow {request : Ask} {store store' : Store} {answer : request.Answer}
    (made : request.OnStore store answer store') : store.users <+: store'.users := by
  cases request with
  | call op =>
      obtain ⟨_, rfl⟩ := made
      rcases exec_users op store with same | ⟨username, ed25519, curve25519, machineId, uuid,
        now, rfl⟩
      · exact ⟨[], (List.append_nil _).trans same.symm⟩
      · show store.users <+: (store.registerUser username ed25519 curve25519 machineId uuid
          now).2.users
        rcases registerUser_cases store username ed25519 curve25519 machineId uuid now with
          ⟨_, refused⟩ | ⟨_, _, added⟩
        · exact ⟨[], (List.append_nil _).trans (congrArg (fun result => result.2.users)
            refused).symm⟩
        · rw [added]
          exact List.prefix_append ..
  | _ =>
      obtain rfl : store' = store := made
      exact List.prefix_refl _

theorem after_speaker (request : Ask) (answer : request.Answer) (l : Ledger) :
    (l.after request answer).user = request.speaker l.user := by
  cases request with
  | call op => cases op <;> rfl
  | sendWait msg =>
      cases answer with
      | false => rfl
      | true =>
          rw [Ledger.after]
          cases nextFrame l.hands <;> rfl
  | _ => rfl

/-! ### The rule -/

section

variable {config : ServerConfig} {rules : Rules}

theorem deskView_steady : (deskView config rules).Steady where
  refl _ := Desk.Grows.refl
  trans _ _ _ _ := Desk.Grows.trans
  idle _ l l' := by
    rintro ⟨user, enrolled⟩ grown
    refine ⟨(grown.user.trans user).trans grown.authed.symm, fun username is => ?_⟩
    exact (enrolled username (grown.user.symm.trans is)).grows grown.users
  ended _ _ _ _ := Leaves.grows

/-- A request moves the desk of its own task as specified, and adds to the directory of the others.
-/
theorem onSystem_desk {c : Nat} {request : Ask} {sys sys' : System} {answer : request.Answer}
    (made : request.onSystem c sys answer sys') :
    (deskSpec c).step request (sys.desk c) answer (sys'.desk c) ∧
      ∀ other, other ≠ c → (sys.desk other).Grows (sys'.desk other) := by
  have onStore := Ask.onSystem_store made
  have grown := users_grow onStore
  have states : ∀ d, (sys'.conns d).state = (sys.conns d).state := by
    obtain ⟨mid, effect, rfl⟩ := made
    intro d
    refine (mid.update_keeps c Conn.state rfl d).trans ?_
    exact congrArg Prod.fst (Ask.effect_seen effect d)
  refine ⟨⟨congrArg ConnState.authed (states c), Ask.onSystem_life made, ?_, grown, learns onStore⟩,
    fun other different =>
      ⟨congrArg ConnState.authed (states other), fun _ => Ask.onSystem_life made, ?_, grown⟩⟩
  · show (sys'.conns c).ledger.user = _
    rw [Ask.onSystem_own made]
    exact after_speaker ..
  · exact congrArg Ledger.user (Ask.onSystem_other made other different)

/-- **The rule for the relay, with duties.** A global invariant holds in every state if a request
keeps it wherever its duty is met, and so does everything else. -/
theorem deskView_sound {inv : System → Prop}
    (acts : ∀ c request sys answer sys', inv sys → Duty c request (sys.desk c) →
      rules.ask c request sys → request.onSystem c sys answer sys' → inv sys')
    (lives : ∀ sys c life state, inv sys → (sys.conns c).life.Next life →
      inv (sys.update c fun conn => { conn with life := life, state := state }))
    (drift : ∀ sys sys', inv sys → Drift rules sys sys' → inv sys') :
    (deskView config rules).Sound inv where
  steady := deskView_steady
  begins := by
    intro c p sys sys' holds idle begins
    obtain ⟨user, enrolled⟩ := idle
    cases begins with
    | receive isOpen inRange =>
        have speaks : Speaks (sys.conns c).state.authed (sys.desk c) :=
          ⟨isOpen, user, fun username is => enrolled username (user.trans is)⟩
        exact ⟨Prog.wp_mono (fun _ _ => Concludes.leaves) (wp_handling speaks _), holds,
          fun _ _ => Desk.Grows.refl _⟩
    | hangUp isOpen =>
        refine ⟨?_, lives sys c .closing (sys.conns c).state holds (.inr (.inl ⟨isOpen, rfl⟩)),
          fun other different => ?_⟩
        · show Prog.wp (sharedSpec c) Leaves _ ((sys.update c fun conn =>
            { conn with life := .closing }).desk c)
          rw [desk_update_self]
          exact wp_closing rfl user enrolled
        · show (sys.desk other).Grows ((sys.update c _).desk other)
          rw [desk_update_of_ne _ _ different]
          exact Desk.Grows.refl _
  acts := by
    rintro c request sys answer sys' holds demanded ⟨allowed, made⟩
    obtain ⟨own, others⟩ := onSystem_desk made
    exact ⟨own, acts c request sys answer sys' holds demanded allowed made, others⟩
  ends := by
    rintro c result sys sys' holds settled ⟨state, rfl, rfl⟩
    have next : (sys.conns c).life.Next
        (if (sys.conns c).life = .closing then .closed else (sys.conns c).life) := by
      split
      · next closing => exact .inr (.inr ⟨closing, rfl⟩)
      · exact .inl rfl
    refine ⟨?_, lives sys c _ state holds next, fun other different => ?_⟩
    · obtain ⟨user, enrolled⟩ := settled state rfl
      show (System.desk _ c).user = (System.desk _ c).authed ∧
        ∀ username, (System.desk _ c).user = some username →
          Enrolled (System.desk _ c).users username
      rw [desk_update_self]
      exact ⟨user, enrolled⟩
    · show (sys.desk other).Grows ((sys.update c _).desk other)
      rw [desk_update_of_ne _ _ different]
      exact Desk.Grows.refl _
  drift sys sys' holds drifts := ⟨drift sys sys' holds drifts, drift_desk drifts⟩

/-- **Runs.** From the start of the relay, an invariant that is kept wherever the duties are met
holds in every state. -/
theorem desk_invariant {inv : System → Prop}
    (acts : ∀ c request sys answer sys', inv sys → Duty c request (sys.desk c) →
      request.onSystem c sys answer sys' → inv sys')
    (lives : ∀ sys c life state, inv sys → (sys.conns c).life.Next life →
      inv (sys.update c fun conn => { conn with life := life, state := state }))
    (drift : ∀ sys sys', inv sys → Drift rules sys sys' → inv sys') {store : Store}
    (initially : inv (.initial store)) {state : RelayState}
    (reached : Relation.ReflTransGen (relay config rules).Next (started store) state) :
      inv state.2 := by
  have sound : (deskView config rules).Sound inv :=
    deskView_sound (fun c request sys answer sys' holds demanded _ =>
      acts c request sys answer sys' holds demanded) lives drift
  exact (sound.reached reached (fun _ => rfl) (fun _ => ⟨rfl, nofun⟩) initially).1

theorem desk_sound : (deskView config rules).Sound fun _ => True :=
  deskView_sound (fun _ _ _ _ _ _ _ _ _ => trivial) (fun _ _ _ _ _ _ => trivial)
  fun _ _ _ _ => trivial

/-- **Step safety.** A request is made only where its duty is met. -/
theorem duties {store : Store} {state : RelayState}
    (reached : Relation.ReflTransGen (relay config rules).Next (started store) state) {c : Nat}
      {request : Ask}
    {next : request.Answer → Task ConnState} (busy : state.1 c = some (.ask request next)) :
    Duty c request (state.2.desk c) :=
  desk_sound.demands reached (fun _ => rfl) (fun _ => ⟨rfl, nofun⟩) trivial busy

/-- Between two messages, a connection speaks for whom its state says. -/
theorem idle_user {store : Store} {state : RelayState}
    (reached : Relation.ReflTransGen (relay config rules).Next (started store) state) {c : Nat}
    (idle : state.1 c = none) :
    (state.2.conns c).ledger.user = (state.2.conns c).state.authed := by
  have holds := (desk_sound.reached reached (fun _ => rfl) (fun _ => ⟨rfl, nofun⟩) trivial).2 c
  have waiting := Crew.View.holds_of_eq idle holds
  exact waiting.1

end

end

end Cherm.Relay
