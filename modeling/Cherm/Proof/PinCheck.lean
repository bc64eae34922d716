/-
**The pin check and the peer that was asked for.**

Three functions use the relay's answer to a fetch of `p`'s prekeys: `startDm`, `ensureOlm` (through
`shareKey` and `sendOlmControl`) and `obtainOlmPlaintext`. Each checks and pins the answer under the
name inside the answer, and stores the session under the name it asked for.

* `Path` are the three, `PinBinds` is the law: a session stored under `p` on the strength of a
  bundle comes with that bundle's Ed25519 key pinned for `p`.
* `Path.Opens` says when a bundle leads to a stored session.
* `pinBinds_iff`: the law holds exactly of the bundles that lead to none, that carry the name asked
  for, or whose key is the pinned one already.
-/

import Cherm.Client.Account
import Cherm.Ideal
import Cherm.VaultFrame

namespace Cherm

open Crates Client

section

variable [Crates]

/-! ### The paths and the law -/

/-- The relay answers a fetch of `p`'s prekeys with this bundle, and the rest with anything. -/
@[simp] def answeredWith (p : String) (b : PrekeyBundle) : (asked : Ask) → asked.Answer → Prop
  | .request (.fetchPrekeys username), answer => username = p → answer = .ok (.prekeyBundle b)
  | _, _ => True

/-- The uses of a bundle. -/
inductive Path where
  | startDm (app : App)
  | share (me groupId : String) (share : GroupKeyShare) (now : Int)
  | control (msgType groupId : String) (value : Json)
  | inbound (payload : String)

/-- What runs. -/
def Path.prog (p : String) : Path → Client Unit
  | startDm app => Client.startDm app p
  | share me groupId record now => shareKey me groupId record now p
  | control msgType groupId value => sendOlmControl p msgType groupId value
  | inbound payload => do let _ ← obtainOlmPlaintext p payload

/-- The bundle of `p` was asked for and a session was stored under `p`: then the key pinned for `p`
is the bundle's. -/
def Bound (p : String) (b : PrekeyBundle) (state : Vault × List Ask) : Prop :=
  .request (.fetchPrekeys p) ∈ state.2 → (∃ session, .call (.saveOlm p session) ∈ state.2) →
    state.1.getContactEd p = some b.ed25519

/-- **The law**, for a vault, a peer and the answer of the relay: it holds at the end of every run.
-/
def PinBinds (path : Path) (v : Vault) (p : String) (b : PrekeyBundle) : Prop :=
  ∀ result state, Prog.Runs (Prog.logged (Ask.effectIf (answeredWith p b))) (path.prog p) (v, [])
    result state → Bound p b state

/-! ### When a bundle leads to a session -/

/-- Both keys are well formed and the pin check passes, under the bundle's own name. -/
def BundleAccepted (v : Vault) (b : PrekeyBundle) : Prop :=
  validPubkeyB64 b.ed25519 = true ∧ validPubkeyB64 b.curve25519 = true ∧
    v.checkIdentity b.username b.ed25519 ≠ .conflict

/-- Our device can start this session from the bundle. -/
def Starts (v : Vault) (b : PrekeyBundle) (session : OlmSession) : Prop :=
  ∃ device otk seed, v.account = some device ∧ b.oneTimeKey = some otk ∧
    Device.startSession device b.curve25519 otk seed = .ok session

/-- Our device can start a session from the bundle and encrypt a text with it. -/
def StartsWith (v : Vault) (b : PrekeyBundle) (plaintext : Bytes) : Prop :=
  ∃ session, Starts v b session ∧ ∃ seed sealed, OlmSession.encrypt session plaintext seed =
    .ok sealed

/-- The path asks for the bundle and stores a session made with it. -/
def Path.Opens (v : Vault) (p : String) (b : PrekeyBundle) : Path → Prop
  | startDm app => app.active.isSome ∧ app.linked ∧ (∃ me, v.metaGet "username" = some me ∧
      p ≠ me) ∧
      v.loadOlm p = none ∧ BundleAccepted v b ∧ ∃ session, Starts v b session
  | share me _ record _ => p ≠ me ∧ v.loadOlm p = none ∧ BundleAccepted v b ∧
      StartsWith v b (toVec record.toJson)
  | control _ _ value => v.loadOlm p = none ∧ BundleAccepted v b ∧ StartsWith v b (toVec value)
  | inbound payload => ∃ olmType body, parseOlm payload = .ok (olmType, body) ∧
      (∀ session, v.loadOlm p = some session →
        olmType = 0 ∧ ∃ e, OlmSession.decrypt session olmType body = .error e) ∧
      v.getContactCurve p = none ∧ BundleAccepted v b ∧
      ∃ device opened, v.account = some device ∧
        Device.createInbound device b.curve25519 olmType body = .ok opened

/-! ### Runs with the requests written down -/

/-- The weakest precondition against a relay that answers with the bundle. -/
abbrev wpB (p : String) (b : PrekeyBundle) {α : Type}
    (post : Except String α → Vault × List Ask → Prop) (prog : Client α)
      (state : Vault × List Ask) :
    Prop :=
  Prog.wp (.free (Prog.logged (Ask.effectIf (answeredWith p b)))) post prog state

variable {p : String} {b : PrekeyBundle}

theorem answeredWith_total (asked : Ask) (world : asked.World) :
    ∃ answer, answeredWith p b asked answer := by
  cases asked with
  | call op => exact absurd rfl (world.noCall op)
  | request msg => exact ⟨.ok (.prekeyBundle b), by cases msg <;> simp⟩
  | post msg => exact ⟨.ok (), trivial⟩
  | emit event => exact ⟨(), trivial⟩
  | now => exact ⟨0, trivial⟩
  | random => exact ⟨0, trivial⟩
  | connect addr => exact ⟨.ok (), trivial⟩
  | readFile path => exact ⟨.ok "", trivial⟩
  | writeBackup server username uuid device => exact ⟨.ok "", trivial⟩
  | saveIndex => exact ⟨.ok (), trivial⟩

/-- Requests that have nothing to do with pins, sessions or bundles. -/
def Quiet : Ask → Prop
  | .call (.upsertContact ..) | .call (.saveOlm ..) | .request _ => False
  | _ => True

/-- Quiet requests neither make the law true nor break it. -/
theorem bound_quiet (request : Ask) (state : Vault × List Ask) (answer : request.Answer)
    (state' : Vault × List Ask) (quiet : Quiet request)
    (made : Prog.logged (Ask.effectIf (answeredWith p b)) request state answer state') :
    Bound p b state' ↔ Bound p b state := by
  obtain ⟨effect, logged⟩ := made
  have contacts : state'.1.contacts.get p = state.1.contacts.get p := by
    cases request with
    | call op =>
        have untouched : ¬ op.Writes .contacts p := by
          cases op <;> first | exact quiet.elim | simp [VaultOp.Writes, VaultPart.ofChat]
        have frame := op.exec_frame state.1 .contacts p untouched
        rwa [← (effect : (answer, state'.1) = op.exec state.1)] at frame
    | _ => rw [effect.2]
  have noFetch : Ask.request (.fetchPrekeys p) ≠ request := by
    rintro rfl
    exact quiet
  have noSave : ∀ session, Ask.call (.saveOlm p session) ≠ request := by
    rintro session rfl
    exact quiet
  simp only [Bound, Vault.getContactEd, contacts, logged, List.mem_cons, noFetch, noSave, false_or]

/-- A program that makes only quiet requests can be skipped. -/
theorem wpB_quiet {prog : Client Unit} (quiet : Prog.Calls Quiet prog) (state : Vault × List Ask) :
    wpB p b (fun _ => Bound p b) prog state ↔ Bound p b state :=
  quiet.wp_iff (Prog.logged_total (Ask.effectIf_total answeredWith_total)) bound_quiet state

/-! ### The pin check -/

/-- The key in the bundle is the one the pin check compares for `p`. -/
def Confirmed (v : Vault) (p : String) (b : PrekeyBundle) : Prop :=
  b.username = p ∨ v.getContactEd p = some b.ed25519

/-- The vault once the bundle is pinned under its own name. -/
abbrev pinned (v : Vault) (b : PrekeyBundle) : Vault :=
  v.upsertContact b.username b.uuid b.ed25519 b.curve25519

theorem getContactEd_pinned_iff {v : Vault} (accepted : BundleAccepted v b) :
    (pinned v b).getContactEd p = some b.ed25519 ↔ Confirmed v p b := by
  by_cases same : b.username = p
  · subst same
    exact iff_of_true (v.getContactEd_upsertContact_self accepted.2.2 _ _) (.inl rfl)
  · rw [Vault.getContactEd_upsertContact_of_ne v (Ne.symm same), Confirmed, or_iff_right same]

/-- A log without a stored session. -/
theorem bound_of_unsaved {v : Vault} {log : List Ask}
    (unsaved : ∀ session, Ask.call (.saveOlm p session) ∉ log) : Bound p b (v, log) :=
  fun _ ⟨session, member⟩ => absurd member (unsaved session)

/-- A bundle that passes is pinned. -/
theorem wpB_acceptIdentity_accepted {v : Vault} (accepted : BundleAccepted v b) {α : Type}
    {post : Except String α → Vault × List Ask → Prop} {f : Bool → Client α} (log : List Ask) :
    wpB p b post ((acceptIdentity b.username b.uuid b.ed25519 b.curve25519).bind f) (v, log) ↔
      wpB p b post (f true) (pinned v b,
        .call (.upsertContact b.username b.uuid b.ed25519 b.curve25519) ::
          .call (.checkIdentity b.username b.ed25519) :: log) := by
  obtain ⟨edValid, curveValid, noConflict⟩ := accepted
  unfold acceptIdentity
  cases checked : v.checkIdentity b.username b.ed25519 with
  | conflict => exact absurd checked noConflict
  | _ => simp [edValid, curveValid, wp_logged_call, VaultOp.exec, checked]

/-- A bundle that does not pass leads to no session, if the caller then gives up. -/
theorem wpB_acceptIdentity_refused {v : Vault} (refused : ¬ BundleAccepted v b)
    {f : Bool → Client Unit} (quiet : Prog.Calls Quiet (f false)) {log : List Ask}
    (unsaved : ∀ session, Ask.call (.saveOlm p session) ∉ log) :
    wpB p b (fun _ => Bound p b)
      ((acceptIdentity b.username b.uuid b.ed25519 b.curve25519).bind f) (v, log) := by
  have giveUp : ∀ extra : List Ask, (∀ session, Ask.call (.saveOlm p session) ∉ extra) →
      wpB p b (fun _ => Bound p b) (f false) (v, extra) := fun extra clean =>
    (wpB_quiet quiet _).mpr (bound_of_unsaved clean)
  unfold acceptIdentity
  by_cases valid : validPubkeyB64 b.ed25519 = true ∧ validPubkeyB64 b.curve25519 = true
  · cases checked : v.checkIdentity b.username b.ed25519 with
    | conflict =>
        simp [valid, wp_logged_call, wp_logged_world, VaultOp.exec, checked, giveUp, unsaved]
    | _ => exact absurd ⟨valid.1, valid.2, by simp [checked]⟩ refused
  · have invalid : (!validPubkeyB64 b.ed25519 || !validPubkeyB64 b.curve25519) = true := by
      cases ed : validPubkeyB64 b.ed25519 <;> simp_all
    simp [invalid, wp_logged_world, giveUp, unsaved]

/-! ### The paths -/

/-- What the law comes to where a bundle was asked for and accepted, and nothing is stored yet: a
stored session makes it a matter of the bundle alone. -/
theorem bound_saved_iff {v : Vault} (accepted : BundleAccepted v b) {v' : Vault}
    (contacts : v'.contacts = (pinned v b).contacts) {log : List Ask} (session : OlmSession)
    (fetched : Ask.request (.fetchPrekeys p) ∈ log) (saved : Ask.call (.saveOlm p session) ∈ log) :
    Bound p b (v', log) ↔ Confirmed v p b := by
  rw [← getContactEd_pinned_iff accepted]
  have same : v'.getContactEd p = (pinned v b).getContactEd p := by
    rw [Vault.getContactEd, contacts, Vault.getContactEd]
  show (_ → _ → v'.getContactEd p = _) ↔ _
  rw [same]
  exact ⟨fun bound => bound fetched ⟨session, saved⟩, fun holds _ _ => holds⟩

theorem openDm_quiet (server me username : String) : Prog.Calls Quiet
    (openDm server me username) := by
  simp [openDm, upsertChat, emitFingerprint, emitChats, emitHistory, Quiet]
  rintro (_ | _) <;> simp [Quiet]

theorem wpB_startDmSession {v : Vault} {f : Bool → Client Unit}
    (quiet : ∀ ok, Prog.Calls Quiet (f ok))
    {log : List Ask} (unsaved : ∀ session, Ask.call (.saveOlm p session) ∉ log) :
    wpB p b (fun _ => Bound p b) ((startDmSession p).bind f) (v, log) ↔
      (v.loadOlm p = none ∧ BundleAccepted v b ∧ (∃ session, Starts v b session) →
        Confirmed v p b) := by
  have giveUp : ∀ {v' : Vault} {log' : List Ask}, (∀ session,
      Ask.call (.saveOlm p session) ∉ log') →
      wpB p b (fun _ => Bound p b) (f false) (v', log') := fun clean =>
    (wpB_quiet (quiet false) _).mpr (bound_of_unsaved clean)
  unfold startDmSession
  cases loaded : v.loadOlm p with
  | some session =>
      simp [wp_logged_call, VaultOp.exec, loaded]
      exact (wpB_quiet (quiet true) _).mpr (bound_of_unsaved (by simp [unsaved]))
  | none =>
      simp only [call_eq, request_eq, Prog.bind_eq, Prog.ask_bind, Prog.done_bind, wp_logged_call,
        wp_logged_world, VaultOp.exec, loaded, Option.isSome_none, Bool.false_eq_true, if_false,
        answeredWith, forall_const, forall_eq, Prog.ofExcept_ok, true_and]
      cases hasOtk : b.oneTimeKey with
      | none =>
          refine iff_of_true ?_ ?_
          · simp [wp_logged_world]
            exact giveUp (by simp [unsaved])
          · rintro ⟨_, session, _, otk, _, _, isOtk, _⟩
            simp [hasOtk] at isOtk
      | some otk =>
          by_cases accepted : BundleAccepted v b
          · simp only [Prog.bind_assoc, wpB_acceptIdentity_accepted accepted, accepted, true_and,
              Bool.not_true, Bool.false_eq_true, if_false, Prog.ask_bind, wp_logged_call,
              VaultOp.exec]
            show wpB p b _ (Prog.bind (okOr v.account _) _) _ ↔ _
            cases hasAccount : v.account with
            | none =>
                refine iff_of_true ?_ ?_
                · simp only [okOr_none, Prog.fail_bind, Prog.wp_fail]
                  exact bound_of_unsaved (by simp [unsaved])
                · rintro ⟨_, _, _, _, isAccount, _⟩
                  simp [hasAccount] at isAccount
            | some device =>
                simp only [okOr_some, Prog.done_bind, random_eq, Prog.ask_bind, wp_logged_world,
                  answeredWith, forall_const, lift_eq]
                constructor
                · rintro all ⟨session, device', otk', seed, isAccount, isOtk, started⟩
                  obtain rfl := Option.some.inj (hasAccount.symm.trans isAccount)
                  obtain rfl := Option.some.inj (hasOtk.symm.trans isOtk)
                  have run := all seed
                  simp only [started, Prog.ofExcept_ok, Prog.done_bind, wp_logged_call,
                    Prog.pure_eq] at run
                  have bound := (wpB_quiet (quiet true) _).mp run
                  exact (bound_saved_iff accepted rfl session (by simp) (by simp)).mp bound
                · intro confirmed seed
                  cases started : Device.startSession device b.curve25519 otk seed with
                  | error e =>
                      simp only [Prog.ofExcept_error, Prog.fail_bind, Prog.wp_fail]
                      exact bound_of_unsaved (by simp [unsaved])
                  | ok session =>
                      simp only [Prog.ofExcept_ok, Prog.done_bind, wp_logged_call, Prog.pure_eq]
                      refine (wpB_quiet (quiet true) _).mpr
                        ((bound_saved_iff accepted rfl session ?_ ?_).mpr ?_)
                      · simp
                      · simp
                      · exact confirmed ⟨session, device, otk, seed, hasAccount, hasOtk, started⟩
          · refine iff_of_true ?_ fun opens => absurd opens.1 accepted
            simp only [Prog.bind_assoc]
            refine wpB_acceptIdentity_refused accepted ?_ ?_
            · exact quiet false
            · simp [unsaved]

theorem wpB_startDm (app : App) (v : Vault) :
    wpB p b (fun _ => Bound p b) (startDm app p) (v, []) ↔
      ((Path.startDm app).Opens v p b → Confirmed v p b) := by
  unfold startDm activeServer
  rcases app with ⟨_ | server, linked, machineId, buildHash⟩
  · refine iff_of_true ?_ fun opens => by simp [Path.Opens] at opens
    simp only [emit_eq, Prog.bind_eq, Prog.ask_bind, Prog.done_bind, Prog.pure_eq, wp_logged_world,
      Prog.wp_done]
    exact fun _ _ => bound_of_unsaved (by simp)
  cases registered : v.metaGet "username" with
  | none =>
      refine iff_of_true ?_ fun opens => by simp [Path.Opens, registered] at opens
      simp [ownUsername, wp_logged_call, wp_logged_world, VaultOp.exec, registered]
      exact bound_of_unsaved (by simp)
  | some me =>
      by_cases self : p = me
      · refine iff_of_true ?_ fun opens => by simp [Path.Opens, registered, self] at opens
        simp [ownUsername, wp_logged_call, wp_logged_world, VaultOp.exec, registered, self]
        exact bound_of_unsaved (by simp)
      · cases linked with
        | false =>
            refine iff_of_true ?_ fun opens => by simp [Path.Opens] at opens
            simp [ownUsername, activeLink, wp_logged_call, wp_logged_world, VaultOp.exec,
              registered,
              self]
            exact bound_of_unsaved (by simp)
        | true =>
            simp [ownUsername, activeLink, wp_logged_call, VaultOp.exec, registered, self]
            refine (wpB_startDmSession ?_ (by simp)).trans ?_
            · exact fun ok => by cases ok <;> simp [openDm_quiet]
            · simp [Path.Opens, registered, self]

/-- A log without a fetch. -/
theorem bound_of_unfetched {v : Vault} {log : List Ask}
    (unfetched : Ask.request (.fetchPrekeys p) ∉ log) : Bound p b (v, log) :=
  fun fetched => absurd fetched unfetched

/-- A program that does not ask for the bundle cannot break the law. -/
theorem wpB_unfetched {prog : Client Unit}
    (calls : Prog.Calls (· ≠ Ask.request (.fetchPrekeys p)) prog) {state : Vault × List Ask}
    (unfetched : Ask.request (.fetchPrekeys p) ∉ state.2) :
    wpB p b (fun _ => Bound p b) prog state := by
  have kept : wpB p b (fun _ state => Ask.request (.fetchPrekeys p) ∉ state.2) prog state := by
    refine calls.wp (fun _ _ _ _ => trivial) (fun asked s answer s' other before made => ?_)
      unfetched
    rw [made.2, List.mem_cons, not_or]
    exact ⟨Ne.symm other, before⟩
  exact Prog.wp_mono (fun _ _ clean => bound_of_unfetched clean) kept

/-- Encrypting with a new session and storing it, which is where a session made from the bundle
enters the vault. -/
theorem wpB_seal {v : Vault} (accepted : BundleAccepted v b) (session : OlmSession)
    (plaintext : Bytes)
    {g : (Nat × Bytes) × OlmSession → Client Unit} (quiet : ∀ sealed, Prog.Calls Quiet (g sealed))
    {log : List Ask} (fetched : Ask.request (.fetchPrekeys p) ∈ log)
    (unsaved : ∀ session, Ask.call (.saveOlm p session) ∉ log) :
    wpB p b (fun _ => Bound p b)
      (.ask .random fun seed => (Prog.ofExcept (session.encrypt plaintext seed)).bind fun sealed =>
        .ask (.call (.saveOlm p sealed.2)) fun _ => g sealed) (pinned v b, log) ↔
      ((∃ seed sealed, session.encrypt plaintext seed = .ok sealed) → Confirmed v p b) := by
  simp only [wp_logged_world, answeredWith, forall_const]
  constructor
  · rintro all ⟨seed, sealed, encrypted⟩
    have run := all seed
    simp only [encrypted, Prog.ofExcept_ok, Prog.done_bind, wp_logged_call] at run
    have bound := (wpB_quiet (quiet sealed) _).mp run
    exact (bound_saved_iff accepted rfl sealed.2 (by simp [fetched]) (by simp)).mp bound
  · intro confirmed seed
    cases encrypted : session.encrypt plaintext seed with
    | error e =>
        simp only [Prog.ofExcept_error, Prog.fail_bind, Prog.wp_fail]
        exact bound_of_unsaved (by simp [unsaved])
    | ok sealed =>
        simp only [Prog.ofExcept_ok, Prog.done_bind, wp_logged_call]
        refine (wpB_quiet (quiet sealed) _).mpr
          ((bound_saved_iff accepted rfl sealed.2 ?_ ?_).mpr ?_)
        · simp [fetched]
        · simp
        · exact confirmed ⟨seed, sealed, encrypted⟩

/-- `ensureOlm`, with what its caller does with the session. -/
theorem wpB_ensureOlm {v : Vault} (Usable : OlmSession → Prop) {f : Option OlmSession → Client Unit}
    (quiet : Prog.Calls Quiet (f none))
    (held : ∀ session, Prog.Calls (· ≠ .request (.fetchPrekeys p)) (f (some session)))
    (fresh : ∀ session log, BundleAccepted v b → Ask.request (.fetchPrekeys p) ∈ log →
      (∀ session, Ask.call (.saveOlm p session) ∉ log) →
      (wpB p b (fun _ => Bound p b) (f (some session)) (pinned v b, log) ↔
        (Usable session → Confirmed v p b))) :
    wpB p b (fun _ => Bound p b) ((ensureOlm p).bind f) (v, []) ↔
      (v.loadOlm p = none ∧ BundleAccepted v b ∧ (∃ session, Starts v b session ∧ Usable session) →
        Confirmed v p b) := by
  have giveUp : ∀ {log : List Ask}, (∀ session, Ask.call (.saveOlm p session) ∉ log) →
      wpB p b (fun _ => Bound p b) (f none) (v, log) := fun clean =>
    (wpB_quiet quiet _).mpr (bound_of_unsaved clean)
  unfold ensureOlm
  simp only [call_eq, request_eq, Prog.bind_eq, Prog.ask_bind, Prog.done_bind, wp_logged_call,
    VaultOp.exec]
  cases loaded : v.loadOlm p with
  | some session =>
      simp only [Prog.pure_eq, Prog.done_bind, reduceCtorEq, false_and, false_implies, iff_true]
      exact wpB_unfetched (held session) (by simp)
  | none =>
      simp only [Prog.ask_bind, wp_logged_call, VaultOp.exec, true_and]
      cases hasAccount : v.account with
      | none =>
          refine iff_of_true ?_ ?_
          · simp only [okOr_none, Prog.fail_bind, Prog.wp_fail]
            exact bound_of_unsaved (by simp)
          · rintro ⟨_, _, ⟨_, _, _, isAccount, _⟩, _⟩
            simp [hasAccount] at isAccount
      | some device =>
          simp only [okOr_some, Prog.done_bind, Prog.ask_bind, wp_logged_world, answeredWith,
            forall_const, forall_eq, Prog.ofExcept_ok]
          cases hasOtk : b.oneTimeKey with
          | none =>
              refine iff_of_true ?_ ?_
              · simp only [emit_eq, Prog.ask_bind, Prog.done_bind, wp_logged_world, Prog.pure_eq]
                exact fun _ _ => giveUp (by simp)
              · rintro ⟨_, _, ⟨_, otk, _, _, isOtk, _⟩, _⟩
                simp [hasOtk] at isOtk
          | some otk =>
              simp only [Prog.bind_assoc]
              by_cases accepted : BundleAccepted v b
              · simp only [wpB_acceptIdentity_accepted accepted, accepted, true_and, Bool.not_true,
                  Bool.false_eq_true, if_false, random_eq, Prog.ask_bind, Prog.done_bind,
                  wp_logged_world, answeredWith, forall_const, lift_eq, Prog.bind_assoc]
                constructor
                · rintro all ⟨session, ⟨device', otk', seed, isAccount, isOtk, started⟩, usable⟩
                  obtain rfl := Option.some.inj (hasAccount.symm.trans isAccount)
                  obtain rfl := Option.some.inj (hasOtk.symm.trans isOtk)
                  have run := all seed
                  simp only [started, Prog.ofExcept_ok, Prog.done_bind, Prog.pure_eq] at run
                  exact (fresh session _ accepted (by simp) (by simp)).mp run usable
                · intro confirmed seed
                  cases started : Device.startSession device b.curve25519 otk seed with
                  | error e =>
                      simp only [Prog.ofExcept_error, Prog.fail_bind, Prog.wp_fail]
                      exact bound_of_unsaved (by simp)
                  | ok session =>
                      simp only [Prog.ofExcept_ok, Prog.done_bind, Prog.pure_eq]
                      refine (fresh session _ accepted (by simp) (by simp)).mpr fun usable => ?_
                      exact confirmed ⟨session, ⟨device, otk, seed, hasAccount, hasOtk, started⟩,
                        usable⟩
              · refine iff_of_true ?_ fun opens => absurd opens.1 accepted
                refine wpB_acceptIdentity_refused accepted ?_ (by simp)
                exact quiet

theorem wpB_shareKey (me groupId : String) (record : GroupKeyShare) (now : Int) (v : Vault) :
    wpB p b (fun _ => Bound p b) (shareKey me groupId record now p) (v, []) ↔
      ((Path.share me groupId record now).Opens v p b → Confirmed v p b) := by
  unfold shareKey
  by_cases self : p = me
  · refine iff_of_true ?_ fun opens => absurd self opens.1
    simp only [self, if_true, Prog.pure_eq, Prog.wp_done]
    exact bound_of_unfetched (by simp)
  · simp only [self, if_false, Prog.bind_eq]
    refine (wpB_ensureOlm (fun session => ∃ seed sealed,
      session.encrypt (toVec record.toJson) seed = .ok sealed) ?_ ?_ ?_).trans ?_
    · trivial
    · refine fun session => ⟨by simp, fun seed => (Prog.calls_ofExcept _).bind fun sealed => ?_⟩
      simp
    · intro session log accepted fetched unsaved
      refine Iff.trans ?_ (wpB_seal accepted session (toVec record.toJson) (g := fun sealed =>
        post (.send ⟨[p], MsgType.olmGroupKey, encodeOlm sealed.1.1 sealed.1.2, some groupId, now⟩))
        ?_ fetched unsaved)
      · simp [postOlm]
      · simp [Quiet]
    · simp [Path.Opens, StartsWith, self]

theorem wpB_sendOlmControl (msgType groupId : String) (value : Json) (v : Vault) :
    wpB p b (fun _ => Bound p b) (sendOlmControl p msgType groupId value) (v, []) ↔
      ((Path.control msgType groupId value).Opens v p b → Confirmed v p b) := by
  unfold sendOlmControl
  refine (wpB_ensureOlm (fun session => ∃ seed sealed,
    session.encrypt (toVec value) seed = .ok sealed) ?_ ?_ ?_).trans ?_
  · trivial
  · refine fun session => ⟨by simp, fun seed => (Prog.calls_ofExcept _).bind fun sealed => ?_⟩
    simp
  · intro session log accepted fetched unsaved
    refine Iff.trans ?_ (wpB_seal accepted session (toVec value) (g := fun sealed => do
      let now ← now
      post (.send ⟨[p], msgType, encodeOlm sealed.1.1 sealed.1.2, some groupId, now⟩))
      ?_ fetched unsaved)
    · simp
    · simp [Quiet]
  · simp [Path.Opens, StartsWith]

/-- Accepting a prekey message, where nothing was asked or stored so far. -/
theorem wpB_acceptInbound (olmType : Nat) (body : Bytes) {f : Bytes → Client Unit}
    (quiet : ∀ plaintext, Prog.Calls Quiet (f plaintext)) (v : Vault) {log : List Ask}
    (unfetched : Ask.request (.fetchPrekeys p) ∉ log)
    (unsaved : ∀ session, Ask.call (.saveOlm p session) ∉ log) :
    wpB p b (fun _ => Bound p b) ((acceptInbound p olmType body).bind f) (v, log) ↔
      (v.getContactCurve p = none ∧ BundleAccepted v b ∧ (∃ device opened, v.account = some device ∧
        Device.createInbound device b.curve25519 olmType body = .ok opened) → Confirmed v p b) := by
  unfold acceptInbound obtainCurve
  simp only [call_eq, request_eq, Prog.bind_eq, Prog.ask_bind, Prog.done_bind, wp_logged_call,
    VaultOp.exec]
  cases known : v.getContactCurve p with
  | some curve =>
      simp only [Prog.pure_eq, Prog.done_bind, reduceCtorEq, false_and, false_implies, iff_true]
      refine wpB_unfetched ?_ (by simp [unfetched])
      refine Prog.Calls.bind ⟨by simp, fun account => ?_⟩ fun plaintext => ?_
      · refine (calls_okOr _ _).bind fun device => (Prog.calls_ofExcept _).bind fun opened => ?_
        simp
      · exact (quiet plaintext).mono fun asked isQuiet => by rintro rfl; exact isQuiet
  | none =>
      simp only [Prog.ask_bind, wp_logged_world, answeredWith, forall_const, forall_eq,
        Prog.ofExcept_ok, Prog.done_bind, Prog.bind_assoc, true_and]
      by_cases accepted : BundleAccepted v b
      · simp only [wpB_acceptIdentity_accepted accepted, accepted, true_and, Bool.not_true,
          Bool.false_eq_true, if_false, Prog.pure_eq, Prog.done_bind, wp_logged_call, VaultOp.exec]
        show wpB p b _ (Prog.bind (okOr v.account _) _) _ ↔ _
        cases hasAccount : v.account with
        | none =>
            refine iff_of_true ?_ ?_
            · simp only [okOr_none, Prog.fail_bind, Prog.wp_fail]
              exact bound_of_unsaved (by simp [unsaved])
            · rintro ⟨_, _, isAccount, _⟩
              simp at isAccount
        | some device =>
            simp only [okOr_some, Prog.done_bind, lift_eq]
            cases created : Device.createInbound device b.curve25519 olmType body with
            | error e =>
                refine iff_of_true ?_ ?_
                · simp only [Prog.ofExcept_error, Prog.fail_bind, Prog.wp_fail]
                  exact bound_of_unsaved (by simp [unsaved])
                · rintro ⟨_, _, isAccount, opened⟩
                  obtain rfl := Option.some.inj isAccount
                  simp [created] at opened
            | ok opened =>
                simp only [Prog.ofExcept_ok, Prog.done_bind, wp_logged_call]
                refine (wpB_quiet (quiet _) _).trans ?_
                refine (bound_saved_iff accepted rfl opened.1 (by simp) (by simp)).trans ?_
                exact ⟨fun confirmed _ => confirmed, fun confirmed =>
                  confirmed ⟨device, opened, rfl, created⟩⟩
      · refine iff_of_true ?_ fun opens => absurd opens.1 accepted
        refine wpB_acceptIdentity_refused accepted ?_ (by simp [unsaved])
        trivial

theorem wpB_obtainOlmPlaintext (payload : String) (v : Vault) :
    wpB p b (fun _ => Bound p b) (Path.prog p (.inbound payload)) (v, []) ↔
      ((Path.inbound payload).Opens v p b → Confirmed v p b) := by
  unfold Path.prog obtainOlmPlaintext readOlm
  cases parsed : parseOlm payload with
  | error e =>
      refine iff_of_true ?_ ?_
      · simp only [parsed, lift_eq, Prog.bind_eq, Prog.ofExcept_error, Prog.fail_bind, Prog.wp_fail]
        exact bound_of_unfetched (by simp)
      · rintro ⟨_, _, read, _⟩
        simp [parsed] at read
  | ok parts =>
      obtain ⟨olmType, body⟩ := parts
      have opens : (Path.inbound payload).Opens v p b ↔
          (∀ session, v.loadOlm p = some session →
            olmType = 0 ∧ ∃ e, OlmSession.decrypt session olmType body = .error e) ∧
          v.getContactCurve p = none ∧ BundleAccepted v b ∧
          ∃ device opened, v.account = some device ∧
            Device.createInbound device b.curve25519 olmType body = .ok opened := by
        simp [Path.Opens, parsed]
      rw [opens]
      simp only [parsed, lift_eq, call_eq, Prog.bind_eq, Prog.ofExcept_ok, Prog.done_bind,
        Prog.ask_bind, wp_logged_call, VaultOp.exec]
      have quiet : ∀ _ : Bytes, Prog.Calls Quiet (pure () : Client Unit) := fun _ => trivial
      cases loaded : v.loadOlm p with
      | none =>
          refine (wpB_acceptInbound olmType body quiet v ?_ ?_).trans ?_
          all_goals simp
      | some session =>
          cases decrypted : OlmSession.decrypt session olmType body with
          | ok opened =>
              refine iff_of_true ?_ ?_
              · simp only [decrypted, Prog.ask_bind, Prog.done_bind, wp_logged_call, Prog.pure_eq,
                  Prog.wp_done]
                exact bound_of_unfetched (by simp)
              · rintro ⟨held, _⟩
                simp [decrypted] at held
          | error e =>
              by_cases first : olmType = 0
              · subst first
                simp only [decrypted, ne_eq, not_true, if_false]
                refine (wpB_acceptInbound 0 body quiet v ?_ ?_).trans ?_
                all_goals simp [decrypted]
              · refine iff_of_true ?_ fun opens => absurd (opens.1 session rfl).1 first
                simp only [decrypted, ne_eq, first, not_false_eq_true, if_true, throw_eq,
                  Prog.fail_bind,
                  Prog.wp_fail]
                exact bound_of_unfetched (by simp)

/-- **The law holds of exactly the bundles that lead to no session, or that the pin check compared
with `p`'s own pin.** -/
theorem pinBinds_iff (path : Path) (v : Vault) (p : String) (b : PrekeyBundle) :
    PinBinds path v p b ↔
      (path.Opens v p b → b.username = p ∨ v.getContactEd p = some b.ed25519) := by
  refine Prog.wp_free_iff.symm.trans ?_
  cases path with
  | startDm app => exact wpB_startDm app v
  | share me groupId record now => exact wpB_shareKey me groupId record now v
  | control msgType groupId value => exact wpB_sendOlmControl msgType groupId value v
  | inbound payload => exact wpB_obtainOlmPlaintext payload v

end

namespace Ideal

/-- Alice, registered and connected, has Bob's key pinned from an earlier chat. -/
def aliceKnowsBob : Vault :=
  ((Vault.empty.saveAccount (newAccount 1)).metaSet "username" "alice").upsertContact "bob" "u2"
    (Base64.encode (publicKey 1 2).bytes) (Base64.encode (publicKey 2 2).bytes)

/-- Eve's own bundle, which the relay hands out in place of Bob's. -/
def eveBundle : PrekeyBundle where
  username := "eve"
  uuid := "u3"
  ed25519 := Base64.encode (publicKey 1 3).bytes
  curve25519 := Base64.encode (publicKey 2 3).bytes
  oneTimeKeyId := some "300"
  oneTimeKey := some (Base64.encode (publicKey 3 300).bytes)

/-- Eve's bundle opens a session that is stored under Bob's name, and Bob's pin is not Eve's. -/
theorem eve_bundle_unbound :
    ¬ ∀ (path : Path) (v : Vault) (p : String) (b : PrekeyBundle), PinBinds path v p b := by
  intro law
  have run := Prog.wp_free_iff.mpr
    (law (.startDm ⟨some "relay", true, "", ""⟩) aliceKnowsBob "bob" eveBundle)
  have confirmed := (wpB_startDm _ aliceKnowsBob).mp run ⟨rfl, rfl, ⟨"alice", rfl, by decide⟩, rfl,
    ⟨by decide, by decide, by decide⟩,
    createOutbound (newAccount 1) (publicKey 2 3) (publicKey 3 300) 7, newAccount 1, _, 7, rfl, rfl,
    rfl⟩
  rcases confirmed with named | pinned
  · exact absurd named (by decide)
  · exact absurd pinned (by decide)

end Ideal

end Cherm
