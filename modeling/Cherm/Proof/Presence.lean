/-
**Who is online, and over which connection.**

A login puts the connection's channel into the map of online users under the map's lock, and a
cleanup takes it out again under the same lock if it is still there. Both may come at any time
between the other steps of other connections of the same user.

* `Logins` is a run with the list of its logins: a connection logs in at the step that puts it into
  the map.
* `CleanedUp`: the cleanup of a connection is over.
* `presence` is the result: the map holds the latest login of each user, as long as it is not
  cleaned up, and frames for a user are pushed to that user's connections only.
-/

import Cherm.Proof.CopiesKept
import Cherm.Relay.Duties

namespace Cherm

namespace Relay

open Crates

/-- A connection is closed, or is about to be and its task has nothing left to ask. -/
def CleanedUp (state : RelayState) (c : Nat) : Prop :=
  (state.2.conns c).life = .closed ∨
    (state.2.conns c).life = .closing ∧ ∃ result, state.1 c = some (.ofExcept result)

/-- In this step a connection becomes one of that user. -/
def Authenticates (state state' : RelayState) (c : Nat) (username : String) : Prop :=
  (state.2.conns c).ledger.user = none ∧ (state'.2.conns c).ledger.user = some username

/-- The latest login of a user. -/
def latest (log : List (Nat × String)) (username : String) : Option Nat :=
  (log.find? fun login => login.2 = username).map Prod.fst

theorem latest_cons (c : Nat) (name : String) (log : List (Nat × String)) (username : String) :
    latest ((c, name) :: log) username = if name = username then some c else latest log
    username := by
  unfold latest
  rw [List.find?_cons]
  by_cases same : name = username
  · simp [same]
  · simp [same]

theorem latest_mem {log : List (Nat × String)} {username : String} {c : Nat}
    (last : latest log username = some c) : (c, username) ∈ log := by
  obtain ⟨⟨d, name⟩, found, rfl⟩ := Option.map_eq_some_iff.mp last
  have named := List.find?_some found
  have member := List.mem_of_find?_eq_some found
  rw [show name = username from of_decide_eq_true named] at member
  exact member

/-- The map holds the latest login of each user, as long as it is not cleaned up. -/
structure Present (state : RelayState) (log : List (Nat × String)) : Prop where
  map : ∀ username c, state.2.store.online.get username = some c ↔
    latest log username = some c ∧ ¬ CleanedUp state c
  users : ∀ c username, (c, username) ∈ log → (state.2.conns c).ledger.user = some username

section

variable {state state' : RelayState} {log : List (Nat × String)}

/-- Who is online stays, and so do the users of the connections and what is cleaned up. -/
theorem Present.still (present : Present state log) (online :
    state'.2.store.online = state.2.store.online)
    (users : ∀ d, (state'.2.conns d).ledger.user = (state.2.conns d).ledger.user)
    (cleaned : ∀ d username, (state.2.conns d).ledger.user = some username →
      (CleanedUp state' d ↔ CleanedUp state d)) : Present state' log where
  map username c := by
    rw [online, present.map username c]
    refine and_congr_right fun last => not_congr ?_
    exact (cleaned c username (present.users c username (latest_mem last))).symm
  users c username member := (users c).trans (present.users c username member)

/-- A connection logs in. -/
theorem Present.login (present : Present state log) {c : Nat} {name : String}
    (online : state'.2.store.online = state.2.store.online.put name c)
    (own : (state'.2.conns c).ledger.user = some name)
    (users : ∀ d, d ≠ c → (state'.2.conns d).ledger.user = (state.2.conns d).ledger.user)
    (fresh : (state.2.conns c).ledger.user = none) (isOpen : (state'.2.conns c).life = .open)
    (cleaned : ∀ d, d ≠ c → (CleanedUp state' d ↔ CleanedUp state d)) :
    Present state' ((c, name) :: log) where
  map username d := by
    have alive : ¬ CleanedUp state' c := by
      rintro (closed | ⟨closing, _⟩)
      · rw [isOpen] at closed
        cases closed
      · rw [isOpen] at closing
        cases closing
    rw [online, Table.get_put, latest_cons]
    by_cases same : name = username
    · rw [if_pos same.symm, if_pos same]
      refine ⟨fun here => ⟨here, ?_⟩, fun here => here.1⟩
      rw [← Option.some.inj here]
      exact alive
    · rw [if_neg fun same' => same same'.symm, if_neg same, present.map username d]
      refine and_congr_right fun last => not_congr (cleaned d ?_).symm
      rintro rfl
      have taken := present.users d username (latest_mem last)
      rw [fresh] at taken
      cases taken
  users d username member := by
    rcases List.mem_cons.mp member with same | old
    · obtain ⟨rfl, rfl⟩ := Prod.mk.inj same
      exact own
    · have taken := present.users d username old
      refine (users d ?_).trans taken
      rintro rfl
      rw [fresh] at taken
      cases taken

/-- A connection is cleaned up: it takes out its own entry, and no newer one. -/
theorem Present.cleanup (present : Present state log) {c : Nat} {name : String}
    (user : (state.2.conns c).ledger.user = some name)
    (store : state'.2.store = state.2.store.goOffline name c)
    (users : ∀ d, (state'.2.conns d).ledger.user = (state.2.conns d).ledger.user)
    (past : CleanedUp state' c) (cleaned : ∀ d, d ≠ c → (CleanedUp state' d ↔ CleanedUp state d)) :
    Present state' log where
  map username d := by
    have online : state'.2.store.online.get username = some d ↔
        state.2.store.online.get username = some d ∧ ¬ (username = name ∧ d = c) := by
      rw [store]
      unfold Store.goOffline
      split
      · next own =>
        show (state.2.store.online.erase name).get username = some d ↔ _
        rw [Table.get_erase]
        split
        · next same =>
          subst same
          refine ⟨fun gone => (by cases gone), ?_⟩
          rintro ⟨here, other⟩
          exact absurd ⟨rfl, Option.some.inj (here.symm.trans own)⟩ other
        · next different => exact ⟨fun here => ⟨here, fun same => different same.1⟩, And.left⟩
      · next other =>
        refine ⟨fun here => ⟨here, ?_⟩, And.left⟩
        rintro ⟨rfl, rfl⟩
        exact other here
    rw [online, present.map username d]
    by_cases mine : d = c
    · subst mine
      constructor
      · rintro ⟨⟨last, _⟩, other⟩
        have own := Option.some.inj ((present.users d username (latest_mem last)).symm.trans user)
        exact absurd ⟨own, rfl⟩ other
      · exact fun here => absurd past here.2
    · rw [cleaned d mine]
      exact ⟨And.left, fun here => ⟨here, fun same => mine same.2⟩⟩
  users d username member := (users d).trans (present.users d username member)

/-- What a step does to the list: it adds the login that happens in it, if there is one. -/
def Follows (state state' : RelayState) (log : List (Nat × String)) : Prop :=
  (∃ c username, (∀ d name, Authenticates state state' d name → d = c ∧ name = username) ∧
    Authenticates state state' c username ∧ Present state' ((c, username) :: log)) ∨
  (∀ c username, ¬ Authenticates state state' c username) ∧ Present state' log

/-- Nobody logs in, and the rest stays. -/
theorem Follows.still (present : Present state log) (online :
    state'.2.store.online = state.2.store.online)
    (users : ∀ d, (state'.2.conns d).ledger.user = (state.2.conns d).ledger.user)
    (cleaned : ∀ d username, (state.2.conns d).ledger.user = some username →
      (CleanedUp state' d ↔ CleanedUp state d)) : Follows state state' log := by
  refine .inr ⟨fun c username new => ?_, present.still online users cleaned⟩
  have user := (users c).symm.trans new.2
  rw [new.1] at user
  cases user

end

/-- What happens without a task leaves the ledgers and who is online. -/
theorem drift_same {rules : Rules} {sys sys' : System} (drifts : Drift rules sys sys') :
    (∀ d, (sys'.conns d).ledger = (sys.conns d).ledger) ∧ sys'.store.online = sys.store.online := by
  cases drifts with
  | @write c entry busy =>
      exact ⟨fun d => sys.update_keeps c Conn.ledger (f := fun conn =>
        { conn with writing := none }) rfl d, rfl⟩
  | prune => exact ⟨fun _ => rfl, rfl⟩
  | @accept c fresh => exact ⟨fun d => sys.update_keeps c Conn.ledger rfl d, rfl⟩
  | @take c entry rest alive idle first =>
      exact ⟨fun d => sys.update_keeps c Conn.ledger rfl d, rfl⟩
  | @stop c alive allowed => exact ⟨fun d => sys.update_keeps c Conn.ledger rfl d, rfl⟩

/-- It only begins the life of a connection. -/
theorem drift_life {rules : Rules} {sys sys' : System} (drifts : Drift rules sys sys') (c : Nat) :
    (sys'.conns c).life = (sys.conns c).life ∨
      (sys.conns c).life = .fresh ∧ (sys'.conns c).life = .open := by
  cases drifts with
  | @accept d fresh =>
      by_cases mine : c = d
      · subst mine
        rw [System.update_self]
        exact .inr ⟨fresh, rfl⟩
      · rw [System.update_of_ne _ _ mine]
        exact .inl rfl
  | @write d entry busy =>
      exact .inl (sys.update_keeps d Conn.life (f := fun conn =>
        { conn with writing := none }) rfl c)
  | prune => exact .inl rfl
  | @take d entry rest alive idle first => exact .inl (sys.update_keeps d Conn.life rfl c)
  | @stop d alive allowed => exact .inl (sys.update_keeps d Conn.life rfl c)

section

variable [Crates]

/-- A run of the relay, with its logins, the latest first. -/
inductive Logins (config : ServerConfig) (store : Store) : RelayState → List (Nat × String) →
    Prop where
  | start : Logins config store (started store) []
  | login {state state' : RelayState} {log : List (Nat × String)} {c : Nat} {username : String}
      (before : Logins config store state log) (next : (relay config Rules.none).Next state state')
      (new : Authenticates state state' c username) : Logins config store state'
        ((c, username) :: log)
  | other {state state' : RelayState} {log : List (Nat × String)}
      (before : Logins config store state log)
      (next : (relay config Rules.none).Next state state')
      (nobody : ∀ c username, ¬ Authenticates state state' c username) :
        Logins config store state' log

section

variable {config : ServerConfig} {store : Store} {state state' : RelayState}
    {log : List (Nat × String)}

theorem Logins.reached (logins : Logins config store state log) :
    Relation.ReflTransGen (relay config Rules.none).Next (started store) state := by
  induction logins with
  | start => exact .refl
  | login _ next _ ih => exact ih.tail next
  | other _ next _ ih => exact ih.tail next

/-- Every run has its list. -/
theorem exists_logins (reached : Relation.ReflTransGen (relay config Rules.none).Next
    (started store) state) :
    ∃ log, Logins config store state log := by
  induction reached with
  | refl => exact ⟨[], .start⟩
  | @tail state state' _ next ih =>
      obtain ⟨log, logins⟩ := ih
      by_cases somebody : ∃ c username, Authenticates state state' c username
      · obtain ⟨c, username, new⟩ := somebody
        exact ⟨_, logins.login next new⟩
      · exact ⟨log, logins.other next fun c username new => somebody ⟨c, username, new⟩⟩

/-! ### Single steps -/

/-- What the task of a closing connection is at: its cleanup, or the end. -/
def AtCleanup (c : Nat) (user : Option String) (p : Task ConnState) : Prop :=
  (∃ result, p = .ofExcept result) ∨
    ∃ username result, p = .ask (.call (.goOffline username c)) (fun _ => .ofExcept result) ∧
      user = some username

/-- Only logins and cleanups change who is online. -/
theorem online_same {c : Nat} {request : Ask} {sys sys' : System} {answer : request.Answer}
    (made : request.onSystem c sys answer sys')
    (other : ∀ op, request = .call op → ¬ op.PresenceOp) :
      sys'.store.online = sys.store.online := by
  have onStore := Ask.onSystem_store made
  cases request with
  | call op =>
      obtain ⟨_, same⟩ := onStore
      rw [same]
      exact exec_online (other op rfl) sys.store
  | _ => exact congrArg Store.online (onStore : sys'.store = sys.store)

/-- Only a login changes whom a connection speaks for. -/
theorem user_same {c : Nat} {request : Ask} {sys sys' : System} {answer : request.Answer}
    (made : request.onSystem c sys answer sys')
    (other : ∀ username conn, request ≠ .call (.goOnline username conn)) (d : Nat) :
    (sys'.conns d).ledger.user = (sys.conns d).ledger.user := by
  by_cases mine : d = c
  · subst mine
    rw [Ask.onSystem_own made, after_speaker]
    cases request with
    | call op =>
        cases op with
        | goOnline username conn => exact absurd rfl (other username conn)
        | _ => rfl
    | _ => rfl
  · rw [Ask.onSystem_other made d mine]

/-- A closing connection is at its cleanup. -/
theorem closing_reached (reached : Relation.ReflTransGen (relay config Rules.none).Next
    (started store) state)
    {c : Nat} (closing : (state.2.conns c).life = .closing) :
    ∃ p, state.1 c = some p ∧ AtCleanup c (state.2.conns c).ledger.user p := by
  induction reached with
  | refl => cases closing
  | tail before next ih =>
      cases next with
      | @start tasks s s' p d idle begins =>
          cases begins with
          | receive isOpen inRange =>
              obtain ⟨p, busy, at_⟩ := ih closing
              by_cases mine : c = d
              · subst mine
                cases (show tasks c = some p from busy).symm.trans idle
              · exact ⟨p, (Function.update_of_ne mine ..).trans busy, at_⟩
          | hangUp isOpen =>
              by_cases mine : c = d
              · subst mine
                have user := idle_user before idle
                refine ⟨_, Function.update_self .., ?_⟩
                show AtCleanup c ((s.update c fun conn => { conn with life := .closing }).conns
                  c).ledger.user _
                rw [System.update_self]
                unfold close
                cases is : (s.conns c).state.authed with
                | none => exact .inl ⟨.ok _, rfl⟩
                | some username => exact .inr ⟨username, .ok _, rfl, user.trans is⟩
              · simp only [System.update_of_ne _ _ mine] at closing ⊢
                obtain ⟨p, busy, at_⟩ := ih closing
                exact ⟨p, (Function.update_of_ne mine ..).trans busy, at_⟩
      | @move tasks s s' request next answer d busy made =>
          have closing : (s'.conns c).life = .closing := closing
          rw [Ask.onSystem_life made.2] at closing
          obtain ⟨p, busy', at_⟩ := ih closing
          by_cases mine : c = d
          · subst mine
            obtain rfl := Option.some.inj (busy.symm.trans busy')
            refine ⟨_, Function.update_self .., ?_⟩
            rcases at_ with ⟨result, past⟩ | ⟨username, result, same, _⟩
            · cases result <;> cases past
            · cases same
              exact .inl ⟨result, rfl⟩
          · refine ⟨p, (Function.update_of_ne mine ..).trans busy', ?_⟩
            show AtCleanup c (s'.conns c).ledger.user p
            rw [Ask.onSystem_other made.2 c mine]
            exact at_
      | @finish tasks s s' result d busy ends =>
          obtain ⟨conn, _, rfl⟩ := ends
          by_cases mine : c = d
          · subst mine
            simp only [System.update_self] at closing
            split at closing
            · cases closing
            · contradiction
          · simp only [System.update_of_ne _ _ mine] at closing ⊢
            obtain ⟨p, busy', at_⟩ := ih closing
            exact ⟨p, (Function.update_of_ne mine ..).trans busy', at_⟩
      | @drift tasks s s' drifts =>
          have before : (s.conns c).life = .closing := by
            rcases drift_life drifts c with same | ⟨_, isOpen⟩
            · exact same.symm.trans closing
            · cases isOpen.symm.trans closing
          obtain ⟨p, busy, at_⟩ := ih before
          refine ⟨p, busy, ?_⟩
          show AtCleanup c (s'.conns c).ledger.user p
          rw [(drift_same drifts).1 c]
          exact at_

/-! ### Steps of the relay -/

omit [Crates] in
theorem cleanedUp_congr {c : Nat} (life : (state'.2.conns c).life = (state.2.conns c).life)
    (task : state'.1 c = state.1 c) : CleanedUp state' c ↔ CleanedUp state c := by
  unfold CleanedUp
  rw [life, task]

omit [Crates] in
theorem not_cleanedUp {c : Nat} (isOpen : (state.2.conns c).life = .open) :
    ¬ CleanedUp state c := by
  rintro (closed | ⟨closing, _⟩)
  · cases isOpen.symm.trans closed
  · cases isOpen.symm.trans closing

omit [Crates] in
/-- A connection that is not closing is cleaned up when it is closed. -/
theorem cleanedUp_iff {c : Nat} (active : (state.2.conns c).life ≠ .closing) :
    CleanedUp state c ↔ (state.2.conns c).life = .closed :=
  ⟨fun past => past.resolve_right fun closing => active closing.1, .inl⟩

/-- A request of an open connection. -/
theorem Follows.request {tasks : Nat → Option (Task ConnState)} {sys sys' : System} {c : Nat}
    {request : Ask}
    {answer : request.Answer} {task : Task ConnState} (present : Present (tasks, sys) log)
    (duty : Duty c request (sys.desk c)) (active : (sys.conns c).life ≠ .closing)
    (made : request.onSystem c sys answer sys') :
    Follows (tasks, sys) (Function.update tasks c (some task), sys') log := by
  have active' : (sys'.conns c).life ≠ .closing := by
    rw [Ask.onSystem_life made]
    exact active
  have cleaned : ∀ d, CleanedUp (Function.update tasks c (some task), sys') d ↔
      CleanedUp (tasks, sys) d := by
    intro d
    by_cases mine : d = c
    · subst mine
      rw [cleanedUp_iff active', cleanedUp_iff active]
      exact Eq.congr_left (Ask.onSystem_life made)
    · exact cleanedUp_congr (Ask.onSystem_life made) (Function.update_of_ne mine ..)
  by_cases login : ∃ username conn, request = .call (.goOnline username conn)
  · obtain ⟨username, conn, rfl⟩ := login
    obtain ⟨rfl, isOpen, fresh, _⟩ := duty
    obtain ⟨_, store⟩ := Ask.onSystem_store made
    have own : (sys'.conns conn).ledger.user = some username := by
      rw [Ask.onSystem_own made]
      rfl
    have others : ∀ d, d ≠ conn → (sys'.conns d).ledger.user = (sys.conns d).ledger.user :=
        fun d different =>
      congrArg Ledger.user (Ask.onSystem_other made d different)
    refine .inl ⟨conn, username, ?_, ⟨fresh, own⟩, present.login (congrArg Store.online store) own
      others fresh
      ((Ask.onSystem_life made).trans isOpen) fun d _ => cleaned d⟩
    rintro d name ⟨nobody, somebody⟩
    by_cases mine : d = conn
    · subst mine
      exact ⟨rfl, Option.some.inj (somebody.symm.trans own)⟩
    · have same := (others d mine).symm.trans somebody
      cases nobody.symm.trans same
  · have noLogin : ∀ username conn, request ≠ .call (.goOnline username conn) :=
      fun username conn same => login ⟨username, conn, same⟩
    refine .still present (online_same made fun op same presence => ?_) (user_same made noLogin)
      fun d _ _ => cleaned d
    subst same
    cases op with
    | goOnline username conn => exact noLogin username conn rfl
    | goOffline username conn => exact active duty.2.1
    | _ => exact presence

/-- **One step.** -/
theorem Present.step (present : Present state log)
    (reached : Relation.ReflTransGen (relay config Rules.none).Next (started store) state)
    (next : (relay config Rules.none).Next state state') : Follows state state' log := by
  cases next with
  | @start tasks s s' p c idle begins =>
      cases begins with
      | receive isOpen inRange =>
          refine .still present rfl (fun _ => rfl) fun d _ _ => ?_
          by_cases mine : d = c
          · subst mine
            exact iff_of_false (not_cleanedUp isOpen) (not_cleanedUp isOpen)
          · exact cleanedUp_congr rfl (Function.update_of_ne mine ..)
      | hangUp isOpen =>
          have ledgers : ∀ d, ((s.update c fun conn => { conn with life := .closing }).conns
              d).ledger =
              (s.conns d).ledger := s.update_keeps c Conn.ledger rfl
          refine .still present rfl (fun d => congrArg Ledger.user (ledgers d))
            fun d username user => ?_
          by_cases mine : d = c
          · subst mine
            refine iff_of_false ?_ (not_cleanedUp isOpen)
            have authed : (s.conns d).state.authed = some username :=
                (idle_user reached idle).symm.trans user
            rintro (closed | ⟨_, result, past⟩)
            · simp only [System.update_self] at closed
              cases closed
            · simp only [Function.update_self, close, authed] at past
              cases result <;> cases past
          · refine cleanedUp_congr ?_ (Function.update_of_ne mine ..)
            simp only [System.update_of_ne _ _ mine]
  | @move tasks s s' request next answer c busy made =>
      have duty := duties reached busy
      by_cases closing : (s.conns c).life = .closing
      · obtain ⟨p, busy', at_⟩ := closing_reached reached closing
        obtain rfl := Option.some.inj (busy.symm.trans busy')
        rcases at_ with ⟨result, past⟩ | ⟨username, result, same, user⟩
        · cases result <;> cases past
        · cases same
          obtain ⟨_, store⟩ := Ask.onSystem_store made.2
          have users := user_same made.2 nofun
          refine .inr ⟨fun d name new => ?_, present.cleanup user store users ?_
            fun d different => ?_⟩
          · cases new.1.symm.trans ((users d).symm.trans new.2)
          · exact .inr ⟨(Ask.onSystem_life made.2).trans closing, result, Function.update_self ..⟩
          · exact cleanedUp_congr (Ask.onSystem_life made.2) (Function.update_of_ne different ..)
      · exact .request present duty closing made.2
  | @finish tasks s s' result c busy ends =>
      obtain ⟨conn, rfl, rfl⟩ := ends
      have ledgers : ∀ d, ((s.update c fun old =>
          { old with state := conn, life := if old.life = .closing then .closed else old.life
          }).conns d).ledger =
          (s.conns d).ledger := s.update_keeps c Conn.ledger rfl
      refine .still present rfl (fun d => congrArg Ledger.user (ledgers d)) fun d _ _ => ?_
      by_cases mine : d = c
      · subst mine
        by_cases closing : (s.conns d).life = .closing
        · refine iff_of_true (.inl ?_) (.inr ⟨closing, _, busy⟩)
          simp only [System.update_self, closing, if_true]
        · have active : ((s.update d fun old => { old with
              state := conn, life := if old.life = .closing then .closed else old.life }).conns
              d).life =
              (s.conns d).life := by
            rw [System.update_self]
            exact if_neg closing
          rw [cleanedUp_iff (show ((tasks, s).2.conns d).life ≠ .closing from closing),
            cleanedUp_iff (active.symm ▸ closing)]
          exact Eq.congr_left active
      · refine cleanedUp_congr ?_ (Function.update_of_ne mine ..)
        simp only [System.update_of_ne _ _ mine]
  | @drift tasks s s' drifts =>
      obtain ⟨ledgers, online⟩ := drift_same drifts
      refine .still present online (fun d => congrArg Ledger.user (ledgers d)) fun d _ _ => ?_
      rcases drift_life drifts d with same | ⟨fresh, isOpen⟩
      · exact cleanedUp_congr same rfl
      · refine iff_of_false (not_cleanedUp isOpen) ?_
        rintro (closed | ⟨closing, _⟩)
        · cases fresh.symm.trans closed
        · cases fresh.symm.trans closing

/-! ### Runs -/

theorem Logins.present (logins : Logins config store state log) : Present state log := by
  induction logins with
  | start =>
      refine ⟨fun username c => ?_, fun c username member => absurd member List.not_mem_nil⟩
      show (∅ : Table String Nat).get username = some c ↔ _
      rw [Table.get_empty]
      exact ⟨nofun, fun here => nomatch here.1⟩
  | login before next new ih =>
      rcases ih.step before.reached next with ⟨d, name, only, _, present⟩ | ⟨nobody, _⟩
      · obtain ⟨rfl, rfl⟩ := only _ _ new
        exact present
      · exact absurd new (nobody _ _)
  | other before next nobody ih =>
      rcases ih.step before.reached next with ⟨d, name, _, new, _⟩ | ⟨_, present⟩
      · exact absurd new (nobody d name)
      · exact present

theorem addressed_sound : (taskView config Rules.none).Sound Addressed := by
  have kept : ∀ {sys sys' : System}, Addressed sys → (∀ d,
      (sys'.conns d).ledger = (sys.conns d).ledger) →
      sys'.store.online = sys.store.online → Addressed sys' := by
    intro sys sys' addressed ledgers online
    refine ⟨fun u c here => ?_, fun c u other routed => ?_⟩
    · rw [online] at here
      rw [ledgers]
      exact addressed.online u c here
    · rw [ledgers] at routed ⊢
      exact addressed.routed c u other routed
  refine taskView_sound (fun c request sys answer sys' addressed demanded _ made => ?_)
    (fun sys c life state addressed _ _ => ?_) fun sys sys' addressed drifts => ?_
  · exact addressed.act demanded made
  · exact kept addressed (sys.update_keeps c Conn.ledger rfl) rfl
  · exact kept addressed (drift_same drifts).1 (drift_same drifts).2

/-- A frame is pushed to a connection of the recipient that was looked up for it, and a flush reads
the rows of its own user. -/
theorem pushes_addressed (reached : Relation.ReflTransGen (relay config Rules.none).Next
    (started store) state)
    {c : Nat} {request : Ask} {next : request.Answer → Task ConnState}
    (busy : state.1 c = some (.ask request next)) :
    (∀ conn msg, request = .push conn msg → ∃ username,
      (state.2.conns c).ledger.routed = some (username, some conn) ∧
        (state.2.conns conn).ledger.user = some username) ∧
    ∀ username, request = .call (.pendingFrames username) →
      (state.2.conns c).ledger.user = some username := by
  have nobody : Addressed (System.initial store) := by
    refine ⟨fun u c online => ?_, fun _ _ _ => nofun⟩
    have online : (∅ : Table String Nat).get u = some c := online
    rw [Table.get_empty] at online
    cases online
  have resting : ∀ c, (taskView config Rules.none).idle c
      ((taskView config Rules.none).see c (System.initial store)) := fun _ => ⟨rfl, rfl, rfl⟩
  have addressed := (addressed_sound.reached reached (fun _ => rfl) resting nobody).1
  have demanded := addressed_sound.demands reached (fun _ => rfl) resting nobody busy
  refine ⟨?_, ?_⟩
  · rintro conn msg rfl
    obtain ⟨username, routed⟩ := demanded
    exact ⟨username, routed, addressed.routed c username conn routed⟩
  · rintro username rfl
    exact demanded.1

/-- **Who is online.** After every step of every run, a user is online exactly if the cleanup of the
connection of their latest login is not over, and over that connection; and frames for a user go to
that user's connections only. -/
theorem presence (logins : Logins config store state log) :
    (∀ username c, state.2.store.online.get username = some c ↔
      latest log username = some c ∧ ¬ CleanedUp state c) ∧
    (∀ username c, state.2.store.online.get username = some c →
      (state.2.conns c).ledger.user = some username) ∧
    ∀ (c : Nat) (request : Ask) (next : request.Answer → Task ConnState),
      state.1 c = some (.ask request next) →
        (∀ conn msg, request = .push conn msg → ∃ username,
          (state.2.conns c).ledger.routed = some (username, some conn) ∧
            (state.2.conns conn).ledger.user = some username) ∧
        ∀ username, request = .call (.pendingFrames username) →
          (state.2.conns c).ledger.user = some username := by
  have present := logins.present
  refine ⟨present.map, fun username c online => ?_, fun c request next =>
    pushes_addressed logins.reached⟩
  exact present.users c username (latest_mem ((present.map username c).mp online).1)

end

end

end Relay

namespace Ideal

open Relay

/-- Bob and Alice log in, and both are online. -/
theorem both_present : ∃ log, latest log "bob" = some 0 ∧ latest log "alice" = some 1 := by
  obtain ⟨log, logins⟩ := exists_logins (greeted_reached Rules.none fun _ _ _ => trivial)
  have map := (presence logins).1
  exact ⟨log, ((map "bob" 0).mp (by decide)).1, ((map "alice" 1).mp (by decide)).1⟩

end Ideal

end Cherm
