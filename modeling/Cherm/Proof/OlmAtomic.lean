/-
**Decrypting an Olm payload is all or nothing.**

`obtainOlmPlaintext` tries the stored session, falls through for a prekey message, may fetch a
bundle, and then stores the account and the session in two calls. Nothing between these two calls
can fail.

* `wp_acceptInbound` — accepting a session stores both or neither; a bundle that was fetched for it
  can only have changed a contact (`wp_obtainCurve`).
* `calls_obtainOlmPlaintext` bounds the rest: contacts, the account and the sender's session are all
  that is ever written.
* `obtainOlmPlaintext_atomic` — so an error leaves the account and every session alone, and a
  plaintext comes from exactly one of two updates. What the ratchets refuse, replayed or forged, is
  an error.
-/

import Cherm.Client.Asks
import Cherm.Ideal

namespace Cherm

open Crates Client

section

variable [Crates]

/-! ### The law -/

/-- The account and the sessions are the same. -/
structure SameOlm (v v' : Vault) : Prop where
  account : v'.account = v.account
  sessions : ∀ peer, v'.loadOlm peer = v.loadOlm peer

theorem SameOlm.refl (v : Vault) : SameOlm v v := ⟨rfl, fun _ => rfl⟩

theorem SameOlm.trans {v v' v'' : Vault} (first : SameOlm v v') (second : SameOlm v' v'') :
    SameOlm v v'' :=
  ⟨second.account.trans first.account, fun peer =>
    (second.sessions peer).trans (first.sessions peer)⟩

/-- The stored session read the payload and is stored as it came out of that; the account is the
same. -/
def SessionAdvanced (sender : String) (olmType : Nat) (body plaintext : Bytes) (v v' : Vault) :
    Prop :=
  ∃ held session, v.loadOlm sender = some held ∧
    held.decrypt olmType body = .ok (plaintext, session) ∧ v'.account = v.account ∧
    v'.loadOlm sender = some session

/-- A prekey message that no stored session can read opened a new session; it is stored, and so is
the account, which lost the one-time key. -/
def SessionCreated (sender : String) (olmType : Nat) (body plaintext : Bytes) (v v' : Vault) :
    Prop :=
  (∀ held, v.loadOlm sender = some held → olmType = 0 ∧
    ∃ e, held.decrypt olmType body = .error e) ∧
  ∃ curve device session device', (∀ pinned, v.getContactCurve sender = some pinned →
      curve = pinned) ∧
    v.account = some device ∧
    device.createInbound curve olmType body = .ok (session, plaintext, device') ∧
    v'.account = some device' ∧ v'.loadOlm sender = some session

/-- What Olm promises: a session reads only messages that are fresh for it, and an account opens
sessions only on authentic prekey messages to a one-time key that it still has. -/
structure OlmPromises (fresh : OlmSession → OlmMessage → Prop)
    (authentic : Device → PublicKey → OlmMessage → Prop) : Prop where
  decrypt : ∀ session message opened, Crates.decrypt session message = .ok opened →
    fresh session message
  create : ∀ device identity message opened,
    createInboundSession device identity message = .ok opened → authentic device identity message

/-- A payload that is malformed, or a message that is fresh neither for the stored session nor,
under the sender's pinned key or any key if there is none, for our account: a replay or a forgery. -/
def Spurious (fresh : OlmSession → OlmMessage → Prop)
    (authentic : Device → PublicKey → OlmMessage → Prop) (v : Vault) (sender payload : String) :
    Prop :=
  ∀ olmType body message, parseOlm payload = .ok (olmType, body) →
    fromParts olmType body = .ok message →
    (∀ held, v.loadOlm sender = some held → ¬ fresh held message) ∧
    ∀ device, v.account = some device → ∀ identity,
      (∀ pinned, v.getContactCurve sender = some pinned →
        keyFromBase64 pinned = .ok identity) → ¬ authentic device identity message

/-- **The law**: an error leaves the account and every session as they were; a plaintext goes with
one update of the sender's session, and the account changed exactly if that session is new; apart
from them only contacts are written; and a spurious payload is an error. -/
structure OlmAtomic (fresh : OlmSession → OlmMessage → Prop)
    (authentic : Device → PublicKey → OlmMessage → Prop) (sender payload : String) (v : Vault)
    (result : Except String Bytes) (v' : Vault) : Prop where
  failed : ∀ e, result = .error e → SameOlm v v'
  opened : ∀ plaintext, result = .ok plaintext → ∃ olmType body,
    parseOlm payload = .ok (olmType, body) ∧
      (SessionAdvanced sender olmType body plaintext v v' ∨
        SessionCreated sender olmType body plaintext v v')
  others : ∀ peer, peer ≠ sender → v'.loadOlm peer = v.loadOlm peer
  rest : ∀ (part : VaultPart) id, part ≠ .account → part ≠ .olmSessions → part ≠ .contacts →
    part.SameAt id v v'
  spurious : Spurious fresh authentic v sender payload → ∃ e, result = .error e

/-! ### The curve key, and the new session -/

/-- Contacts, and nothing else. -/
def ContactsOnly (part : VaultPart) (_ : String) : Prop := part = .contacts

/-- Requests that write contacts only leave the account and the sessions alone. -/
theorem sameOlm_of_may {kinds : String → String → Prop} {sends : SendMsg → Prop} {asked : Ask}
    {v v' : Vault} {answer : asked.Answer} (may : asked.May ContactsOnly kinds sends)
    (made : Ask.effect asked v answer v') : SameOlm v v' := by
  have account : ¬ ContactsOnly .account "" := nofun
  have sessions : ∀ peer, ¬ ContactsOnly .olmSessions peer := nofun
  exact ⟨may.frame account made, fun peer => may.frame (sessions peer) made⟩

/-- The curve key that is used is the pinned one, if there is one. -/
theorem runs_obtainCurve {sender : String} {v v' : Vault} {result : Except String String}
    (runs : Prog.Runs Ask.effect (obtainCurve sender) v result v') :
    SameOlm v v' ∧ ∀ pinned, v.getContactCurve sender = some pinned → result = .ok pinned := by
  constructor
  · have calls : Prog.Calls (Ask.May ContactsOnly (fun _ _ => True) (fun _ => True))
        (obtainCurve sender) := calls_obtainCurve (fun _ => rfl) sender
    have kept : Prog.wp (.free Ask.effect) (fun _ => SameOlm v) (obtainCurve sender) v :=
      calls.wp (fun _ _ _ _ => trivial)
        (fun _ _ _ _ may before made => before.trans (sameOlm_of_may may made)) (.refl v)
    exact Prog.wp_free_iff.mp kept _ _ runs
  · intro pinned isPinned
    have rest := runs_call runs
    simp only [VaultOp.exec, isPinned, Prog.bind_eq, Prog.done_bind] at rest
    cases rest
    rfl

/-- **Accepting a session**: an error leaves the account and the sessions alone; else both are
stored, as `createInbound` returned them. -/
theorem runs_acceptInbound {sender : String} {olmType : Nat} {body : Bytes} {v v' : Vault}
    {result : Except String Bytes}
    (runs : Prog.Runs Ask.effect (acceptInbound sender olmType body) v result v') :
    (∃ e, result = .error e ∧ SameOlm v v') ∨
      ∃ plaintext curve device session device', result = .ok plaintext ∧
        (∀ pinned, v.getContactCurve sender = some pinned → curve = pinned) ∧
        v.account = some device ∧
        device.createInbound curve olmType body = .ok (session, plaintext, device') ∧
        v'.account = some device' ∧ v'.loadOlm sender = some session := by
  unfold acceptInbound at runs
  obtain ⟨e, same, first⟩ | ⟨curve, mid, first, rest⟩ := Prog.runs_bind runs
  · exact .inl ⟨e, same, (runs_obtainCurve first).1⟩
  · obtain ⟨kept, isPinned⟩ := runs_obtainCurve first
    have rest := runs_call rest
    simp only [VaultOp.exec] at rest
    cases account : mid.account with
    | none =>
        rw [account] at rest
        cases rest
        exact .inl ⟨_, rfl, kept⟩
    | some device =>
        rw [account] at rest
        simp only [Prog.bind_eq, Prog.done_bind, okOr_some, lift_eq] at rest
        cases created : device.createInbound curve olmType body with
        | error e =>
            rw [created] at rest
            cases rest
            exact .inl ⟨_, rfl, kept⟩
        | ok opened =>
            obtain ⟨session, plaintext, device'⟩ := opened
            rw [created] at rest
            -- the two writes, which nothing comes between
            have stored := runs_call (runs_call rest)
            cases stored
            refine .inr ⟨plaintext, curve, device, session, device', rfl,
              fun pinned here => ?_, kept.account.symm.trans account, created, rfl, ?_⟩
            · exact Except.ok.inj (isPinned pinned here)
            · exact (Table.get_put _ _ _ _).trans (if_pos rfl)

/-! ### The whole function -/

variable {fresh : OlmSession → OlmMessage → Prop} {authentic : Device → PublicKey → OlmMessage → Prop}

/-- What the two ways to a plaintext read is a message that Olm vouches for. -/
theorem message_of_decrypt {held : OlmSession} {olmType : Nat} {body : Bytes}
    {opened : Bytes × OlmSession} (reads : held.decrypt olmType body = .ok opened) :
    ∃ message, fromParts olmType body = .ok message ∧
      Crates.decrypt held message = .ok opened := by
  unfold OlmSession.decrypt at reads
  cases parsed : fromParts olmType body with
  | error e =>
      rw [parsed] at reads
      cases reads
  | ok message =>
      rw [parsed] at reads
      exact ⟨message, rfl, reads⟩

theorem message_of_createInbound {device : Device} {curve : String} {olmType : Nat} {body : Bytes}
    {opened : OlmSession × Bytes × Device}
    (created : device.createInbound curve olmType body = .ok opened) :
    ∃ identity message, keyFromBase64 curve = .ok identity ∧
      fromParts olmType body = .ok message ∧
      createInboundSession device identity message = .ok opened := by
  unfold Device.createInbound at created
  cases isKey : keyFromBase64 curve with
  | error e =>
      rw [isKey] at created
      cases created
  | ok identity =>
      cases parsed : fromParts olmType body with
      | error e =>
          rw [isKey, parsed] at created
          cases created
      | ok message =>
          rw [isKey, parsed] at created
          replace created : (if isPreKey message then createInboundSession device identity message
            else .error "expected a prekey message to start a session") = .ok opened := created
          split at created
          · exact ⟨identity, message, rfl, rfl, created⟩
          · cases created

/-- The ends of the function: an error that leaves the account and the sessions alone, or one of
the two updates. -/
theorem runs_obtainOlmPlaintext {sender payload : String} {v v' : Vault}
    {result : Except String Bytes}
    (runs : Prog.Runs Ask.effect (obtainOlmPlaintext sender payload) v result v') :
    (∃ e, result = .error e ∧ SameOlm v v') ∨
      ∃ plaintext olmType body, result = .ok plaintext ∧ parseOlm payload = .ok (olmType, body) ∧
        (SessionAdvanced sender olmType body plaintext v v' ∨
          SessionCreated sender olmType body plaintext v v') := by
  unfold obtainOlmPlaintext readOlm at runs
  cases parsed : parseOlm payload with
  | error e =>
      rw [parsed] at runs
      cases runs
      exact .inl ⟨_, rfl, .refl v⟩
  | ok parts =>
      obtain ⟨olmType, body⟩ := parts
      rw [parsed] at runs
      have rest := runs_call runs
      simp only [VaultOp.exec, Prog.done_bind] at rest
      -- accepting a session is reached without one, or with one that cannot read a prekey message
      have accepted : (∀ held, v.loadOlm sender = some held → olmType = 0 ∧
            ∃ e, held.decrypt olmType body = .error e) →
          Prog.Runs Ask.effect (acceptInbound sender olmType body) v result v' →
          (∃ e, result = .error e ∧ SameOlm v v') ∨
            ∃ plaintext olmType' body', result = .ok plaintext ∧
              (.ok (olmType, body) : Except String (Nat × Bytes)) = .ok (olmType', body') ∧
              (SessionAdvanced sender olmType' body' plaintext v v' ∨
                SessionCreated sender olmType' body' plaintext v v') := by
        intro unread accepting
        obtain failed | ⟨plaintext, curve, device, session, device', answered, isPinned, account,
          created, saved, stored⟩ := runs_acceptInbound accepting
        · exact .inl failed
        · exact .inr ⟨plaintext, olmType, body, answered, rfl, .inr ⟨unread, curve, device,
            session, device', isPinned, account, created, saved, stored⟩⟩
      cases held : v.loadOlm sender with
      | none =>
          rw [held] at rest
          exact accepted (fun _ found => by rw [held] at found; cases found) rest
      | some session =>
          rw [held] at rest
          cases reads : session.decrypt olmType body with
          | ok opened =>
              obtain ⟨plaintext, session'⟩ := opened
              simp only [reads] at rest
              have stored := runs_call rest
              cases stored
              refine .inr ⟨plaintext, olmType, body, rfl, rfl,
                .inl ⟨session, session', held, reads, rfl, ?_⟩⟩
              exact (Table.get_put _ _ _ _).trans (if_pos rfl)
          | error e =>
              simp only [reads] at rest
              by_cases isPre : olmType = 0
              · simp only [isPre, ne_eq, not_true, if_false] at rest
                refine accepted (fun other found => ?_) (isPre ▸ rest)
                rw [held] at found
                cases found
                exact ⟨isPre, e, reads⟩
              · simp only [isPre, ne_eq, not_false_eq_true, if_true] at rest
                cases rest
                exact .inl ⟨_, rfl, .refl v⟩

/-- A plaintext is read from a message that Olm vouches for. -/
theorem not_spurious (promises : OlmPromises fresh authentic) {sender payload : String}
    {olmType : Nat} {body plaintext : Bytes} {v v' : Vault}
    (parsed : parseOlm payload = .ok (olmType, body))
    (updated : SessionAdvanced sender olmType body plaintext v v' ∨
      SessionCreated sender olmType body plaintext v v') :
    ¬ Spurious fresh authentic v sender payload := by
  intro spurious
  obtain ⟨held, session, found, reads, _⟩ | ⟨_, curve, device, session, device', isPinned, account,
    created, _⟩ := updated
  · obtain ⟨message, isMessage, opened⟩ := message_of_decrypt reads
    exact (spurious olmType body message parsed isMessage).1 held found
      (promises.decrypt held message _ opened)
  · obtain ⟨identity, message, isKey, isMessage, opened⟩ := message_of_createInbound created
    refine (spurious olmType body message parsed isMessage).2 device account identity ?_
      (promises.create device identity message _ opened)
    rintro pinned here
    rwa [← isPinned pinned here]

/-- Where the function may write. -/
def SenderRows (sender : String) (part : VaultPart) (id : String) : Prop :=
  part = .contacts ∨ part = .account ∨ part = .olmSessions ∧ id = sender

theorem sameAt_of_runs {sender payload : String} {v v' : Vault} {result : Except String Bytes}
    (runs : Prog.Runs Ask.effect (obtainOlmPlaintext sender payload) v result v')
    {part : VaultPart} {id : String} (outside : ¬ SenderRows sender part id) :
    part.SameAt id v v' := by
  have calls : Prog.Calls (Ask.May (SenderRows sender) (fun _ _ => True) (fun _ => True))
      (obtainOlmPlaintext sender payload) :=
    calls_obtainOlmPlaintext (fun _ => .inl rfl) (fun _ => .inr (.inl rfl)) (.inr (.inr ⟨rfl, rfl⟩))
      payload
  have kept : Prog.wp (.free Ask.effect) (fun _ => part.SameAt id v)
      (obtainOlmPlaintext sender payload) v :=
    calls.wp (fun _ _ _ _ => trivial)
      (fun _ _ _ _ may before made => before.trans (may.frame outside made))
      (part.sameAt_refl id v)
  exact Prog.wp_free_iff.mp kept _ _ runs

/-- **Decrypting is atomic**: for every vault, sender, payload and reply of the relay. -/
theorem obtainOlmPlaintext_atomic (promises : OlmPromises fresh authentic) {sender payload : String}
    {v v' : Vault} {result : Except String Bytes}
    (runs : Prog.Runs Ask.effect (obtainOlmPlaintext sender payload) v result v') :
    OlmAtomic fresh authentic sender payload v result v' := by
  have ends := runs_obtainOlmPlaintext runs
  refine ⟨?_, ?_, fun peer other => ?_, fun part id account sessions contacts => ?_, ?_⟩
  · rintro e rfl
    obtain ⟨_, _, same⟩ | ⟨_, _, _, answered, _⟩ := ends
    · exact same
    · cases answered
  · rintro plaintext rfl
    obtain ⟨_, answered, _⟩ | ⟨_, olmType, body, answered, parsed, updated⟩ := ends
    · cases answered
    · cases answered
      exact ⟨olmType, body, parsed, updated⟩
  · show VaultPart.olmSessions.SameAt peer v v'
    refine sameAt_of_runs runs ?_
    rintro (contacts | account | ⟨_, same⟩)
    · cases contacts
    · cases account
    · exact other same
  · refine sameAt_of_runs runs ?_
    rintro (isContacts | isAccount | ⟨isSessions, _⟩)
    · exact contacts isContacts
    · exact account isAccount
    · exact sessions isSessions
  · intro spurious
    obtain ⟨e, failed, _⟩ | ⟨_, _, _, _, parsed, updated⟩ := ends
    · exact ⟨e, failed⟩
    · exact absurd spurious (not_spurious promises parsed updated)

end

namespace Ideal

/-- Not read yet, and from the other end of this session. -/
def Message.FreshFor (session : Session) (m : Message) : Prop :=
  m.sid = session.sid ∧ m.fromOpener ≠ session.opener ∧ m.place ∉ session.seen

/-- From the opener with this identity, to a one-time key that is not used up. -/
def Message.Authentic (account : Account) (identity : PublicKey) (m : Message) : Prop :=
  m.identity = identity ∧ m.fromOpener = true ∧ ∃ otk ∈ account.otks, otkKey otk = m.otk

theorem promises : OlmPromises (fun session message => Message.FreshFor session message)
    (fun account identity message => Message.Authentic account identity message) where
  decrypt session message opened reads := by
    replace reads := (orError_eq_ok _ (Session.decrypt session message) _).mp reads
    unfold Session.decrypt at reads
    split at reads
    · next isFresh => exact isFresh
    · cases reads
  create account identity message opened created := by
    replace created := (orError_eq_ok _ (createInbound account identity message) _).mp created
    unfold createInbound at created
    split at created
    · cases created
    · next otk found =>
        split at created
        · next genuine =>
            have isKey := List.find?_some found
            exact ⟨genuine.1, genuine.2, otk, List.mem_of_find?_eq_some found, by simpa using isKey⟩
        · cases created

/-- The prekey message with which Mallory opened her session with Alice. -/
def malloryOpening : Message where
  preKey := true
  sid := 7
  fromOpener := true
  identity := publicKey 2 2
  otk := otkKey 100
  place := (7, 0)
  plaintext := utf8 "hi"

/-- Alice has read it, and her one-time key 100 is used up. -/
def malloryOpened : Vault :=
  ((Vault.empty.saveAccount (⟨1, [101], []⟩ : Account)).upsertContact "mallory" "m"
    (keyToBase64 (publicKey 1 2)) (keyToBase64 (publicKey 2 2))).saveOlm "mallory"
    (⟨7, false, publicKey 2 1, publicKey 2 2, otkKey 100, none, true, [(7, 0)]⟩ : Session)

def malloryPayload : String :=
  encodeOlm (toParts (malloryOpening : OlmMessage)).1 (toParts (malloryOpening : OlmMessage)).2

theorem opening_is_spurious :
    Spurious (fun session message => Message.FreshFor session message)
      (fun account identity message => Message.Authentic account identity message)
      malloryOpened "mallory" malloryPayload := by
  intro olmType body message parsed isMessage
  unfold malloryPayload at parsed
  rw [parseOlm_encodeOlm (toParts_small _)] at parsed
  cases parsed
  rw [fromParts_toParts] at isMessage
  cases isMessage
  refine ⟨?_, ?_⟩
  · rintro held ⟨rfl⟩
    unfold Message.FreshFor
    decide +kernel
  · rintro device ⟨rfl⟩ identity _ ⟨_, _, used⟩
    revert used
    decide +kernel

/-- Sent again, the message is refused, and the session with Mallory is as it was. -/
theorem opening_refused : ∃ e v',
    Prog.Runs Ask.effect (obtainOlmPlaintext "mallory" malloryPayload) malloryOpened (.error e) v' ∧
      SameOlm malloryOpened v' := by
  have runs : Prog.Runs Ask.effect (obtainOlmPlaintext "mallory" malloryPayload) malloryOpened
      (Prog.run (Ask.play world) (obtainOlmPlaintext "mallory" malloryPayload) malloryOpened).1
      (Prog.run (Ask.play world) (obtainOlmPlaintext "mallory" malloryPayload) malloryOpened).2 :=
    Prog.run_runs (fun asked v => Ask.play_conforms (fun _ => trivial) asked v) _ _
  have atomic := obtainOlmPlaintext_atomic promises runs
  obtain ⟨e, failed⟩ := atomic.spurious opening_is_spurious
  refine ⟨e, _, failed ▸ runs, atomic.failed e failed⟩

end Ideal

end Cherm
