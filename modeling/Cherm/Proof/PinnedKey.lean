/-
**A pinned identity key is permanent.**

Whatever bundles the relay sends, `acceptIdentity` is where they reach the contacts. A `PinHistory`
is any sequence of its calls, with any calls of the vault that leave the contacts alone in between.

* `acceptIdentity_runs`: a call that returns false leaves the vault as it was; one that returns true
  has passed the check and inserted the bundle.
* `upsertContact_row`: what an accepted bundle makes of the row of a pinned contact.
* `PinHistory.pinned`, `PinHistory.row`: the pin and the rest of the row over a whole history.
-/

import Cherm.Client.Identity
import Cherm.VaultFrame
import Cherm.Ideal

namespace Cherm

open Crates Client

section

variable [Crates]

/-! ### One call -/

/-- The ends of a call: refused with nothing written, or checked and inserted. -/
theorem acceptIdentity_runs {username uuid ed25519 curve25519 : String} {v v' : Vault}
    {result : Except String Bool}
    (runs : Prog.Runs Ask.effect (acceptIdentity username uuid ed25519 curve25519) v result v') :
    (result = .ok false ∧ v' = v) ∨
      (result = .ok true ∧ v.checkIdentity username ed25519 ≠ .conflict ∧
        v' = v.upsertContact username uuid ed25519 curve25519) := by
  have holds : Prog.wp (Ask.spec (fun _ _ => True) fun _ _ => True)
      (fun result v' => (result = .ok false ∧ v' = v) ∨
        (result = .ok true ∧ v.checkIdentity username ed25519 ≠ .conflict ∧
          v' = v.upsertContact username uuid ed25519 curve25519))
      (acceptIdentity username uuid ed25519 curve25519) v := by
    unfold acceptIdentity
    by_cases malformed : (!validPubkeyB64 ed25519 || !validPubkeyB64 curve25519) = true
    · simp [malformed, wp_world]
    · simp only [malformed, if_false, Bool.false_eq_true, Prog.pure_eq, Prog.bind_eq,
        Prog.done_bind, call_eq, Prog.ask_bind, wp_call, VaultOp.exec, true_and]
      cases checked : v.checkIdentity username ed25519 with
      | conflict => simp [wp_world]
      | firstContact => simp [wp_call, VaultOp.exec]
      | «match» => simp [wp_call, VaultOp.exec]
  exact runs.ends holds

/-- What an accepted bundle makes of the row of a pinned contact: nothing is left of the old row but
the pinned key, which is the bundle's. -/
theorem upsertContact_row {v : Vault} {username uuid ed25519 curve25519 pinned : String}
    (isPinned : v.getContactEd username = some pinned) (nonempty : pinned ≠ "")
    (checked : v.checkIdentity username ed25519 ≠ .conflict) :
    ed25519 = pinned ∧
      (v.upsertContact username uuid ed25519 curve25519).contacts.get username =
        some ⟨some uuid, some pinned, some curve25519⟩ := by
  have same : ed25519 = pinned := by
    by_contra different
    refine checked ?_
    rw [Vault.checkIdentity, isPinned]
    simp [nonempty, Ne.symm different]
  refine ⟨same, ?_⟩
  subst same
  unfold Vault.getContactEd at isPinned
  rw [Vault.upsertContact, Table.get_put, if_pos rfl]
  cases row : v.contacts.get username with
  | none => rfl
  | some old =>
      rw [row] at isPinned
      have ed : old.ed25519 = some ed25519 := isPinned
      simp [ed]

/-! ### Any history -/

/-- A call of `acceptIdentity` that has been made: its bundle, what it returned, and the vault
before and after. -/
structure PinCall where
  username : String
  uuid : String
  ed25519 : String
  curve25519 : String
  accepted : Except String Bool
  before : Vault
  after : Vault

/-- A sequence of calls of `acceptIdentity`, and of any calls of the vault that leave the contacts
alone. -/
inductive PinHistory (v : Vault) : List PinCall → Vault → Prop where
  | nil : PinHistory v [] v
  | accept {calls : List PinCall} {call : PinCall} (earlier : PinHistory v calls call.before)
      (runs : Prog.Runs Ask.effect
        (acceptIdentity call.username call.uuid call.ed25519 call.curve25519) call.before
        call.accepted call.after) :
      PinHistory v (calls ++ [call]) call.after
  | other {calls : List PinCall} {v' : Vault} (earlier : PinHistory v calls v') (op : VaultOp)
      (elsewhere : ∀ id, ¬ op.Writes .contacts id) :
      PinHistory v calls (op.exec v').2

/-- **The law**, for one call and one contact with a pinned key: the pin stays, the rest of the row
follows only a bundle that carries the pin, and a refusal writes nothing. -/
structure PinCall.Lawful (call : PinCall) (p : String) : Prop where
  refused : call.accepted ≠ .ok true → call.after.contacts = call.before.contacts
  pinned : ∀ ed, call.before.getContactEd p = some ed → ed ≠ "" →
    call.after.getContactEd p = some ed
  row : ∀ ed, call.before.getContactEd p = some ed → ed ≠ "" →
    call.after.contacts.get p ≠ call.before.contacts.get p →
      call.username = p ∧ call.ed25519 = ed ∧ call.accepted = .ok true ∧
        call.after.contacts.get p = some ⟨some call.uuid, some ed, some call.curve25519⟩

/-- Every call is lawful. -/
theorem pinCall_lawful {call : PinCall}
    (runs : Prog.Runs Ask.effect
      (acceptIdentity call.username call.uuid call.ed25519 call.curve25519) call.before
      call.accepted call.after) (p : String) : call.Lawful p := by
  obtain ⟨refused, unchanged⟩ | ⟨accepted, checked, written⟩ := acceptIdentity_runs runs
  · refine ⟨fun _ => by rw [unchanged], fun ed isPinned _ => by rw [unchanged, isPinned], ?_⟩
    intro ed _ _ changed
    rw [unchanged] at changed
    exact absurd rfl changed
  · refine ⟨fun refused => absurd accepted refused, ?_, ?_⟩
    · intro ed isPinned nonempty
      rw [written]
      by_cases same : p = call.username
      · subst same
        exact call.before.upsertContact_pinned isPinned nonempty _ _ _
      · rw [call.before.getContactEd_upsertContact_of_ne same, isPinned]
    · intro ed isPinned nonempty changed
      rw [written] at changed ⊢
      by_cases same : p = call.username
      · subst same
        obtain ⟨carried, row⟩ := upsertContact_row isPinned nonempty checked
        exact ⟨rfl, carried, accepted, row⟩
      · exact absurd (call.before.get_contacts_upsertContact_of_ne same _ _ _) changed

/-- The other calls leave a contact's row alone. -/
theorem get_contacts_exec {op : VaultOp} (elsewhere : ∀ id, ¬ op.Writes .contacts id) (v : Vault)
    (p : String) : (op.exec v).2.contacts.get p = v.contacts.get p :=
  op.exec_frame v .contacts p (elsewhere p)

/-- A pinned key is there at the end of every history. -/
theorem PinHistory.pinned {v v' : Vault} {calls : List PinCall} (history : PinHistory v calls v')
    {p ed : String} (isPinned : v.getContactEd p = some ed) (nonempty : ed ≠ "") :
    v'.getContactEd p = some ed := by
  induction history with
  | nil => exact isPinned
  | accept _ runs ih => exact (pinCall_lawful runs p).pinned ed ih nonempty
  | other _ op elsewhere ih =>
      unfold Vault.getContactEd at ih ⊢
      rw [get_contacts_exec elsewhere, ih]

/-- The row of a pinned contact is the one it had, or comes from a bundle with the pinned key. -/
theorem PinHistory.row {v v' : Vault} {calls : List PinCall} (history : PinHistory v calls v')
    {p ed : String} (isPinned : v.getContactEd p = some ed) (nonempty : ed ≠ "") :
    v'.contacts.get p = v.contacts.get p ∨
      ∃ call ∈ calls, call.username = p ∧ call.ed25519 = ed ∧ call.accepted = .ok true ∧
        v'.contacts.get p = some ⟨some call.uuid, some ed, some call.curve25519⟩ := by
  induction history with
  | nil => exact .inl rfl
  | @accept calls call earlier runs ih =>
      by_cases same : call.after.contacts.get p = call.before.contacts.get p
      · rw [same]
        refine ih.imp_right fun ⟨source, member, facts⟩ => ?_
        exact ⟨source, List.mem_append_left _ member, facts⟩
      · obtain ⟨facts⟩ := (pinCall_lawful runs p).row ed (earlier.pinned isPinned nonempty)
          nonempty same
        exact .inr ⟨call, List.mem_append_right _ (List.mem_singleton.mpr rfl), ‹_›, ‹_›⟩
  | other _ op elsewhere ih => rwa [get_contacts_exec elsewhere]

/-- Every call of a history is lawful for every contact. -/
theorem PinHistory.lawful {v v' : Vault} {calls : List PinCall} (history : PinHistory v calls v')
    {call : PinCall} (made : call ∈ calls) (p : String) : call.Lawful p := by
  induction history with
  | nil => cases made
  | accept _ runs ih =>
      rcases List.mem_append.mp made with before | last
      · exact ih before
      · obtain rfl := List.mem_singleton.mp last
        exact pinCall_lawful runs p
  | other _ _ _ ih => exact ih made

/-- **A pinned identity key is permanent.** Over every history, a non-empty pinned key stays; the
uuid and the Curve25519 key of the contact change only with an accepted bundle that carries it; and
a call that does not return true leaves the contacts as they were. -/
theorem pinned_key_permanent {v v' : Vault} {calls : List PinCall}
    (history : PinHistory v calls v') (p : String) :
    (∀ ed, v.getContactEd p = some ed → ed ≠ "" →
      v'.getContactEd p = some ed ∧
        (v'.contacts.get p = v.contacts.get p ∨
          ∃ call ∈ calls, call.username = p ∧ call.ed25519 = ed ∧ call.accepted = .ok true ∧
            v'.contacts.get p = some ⟨some call.uuid, some ed, some call.curve25519⟩)) ∧
      ∀ call ∈ calls, call.Lawful p :=
  ⟨fun _ isPinned nonempty => ⟨history.pinned isPinned nonempty, history.row isPinned nonempty⟩,
    fun _ made => history.lawful made p⟩

end

namespace Ideal

/-- What the pin check does with a bundle for Bob that has the identity keys of a seed. -/
def bobRun (uuid : String) (seed : Nat) (v : Vault) : Except String Bool × Vault :=
  Prog.run (Ask.play world) (acceptIdentity "bob" uuid (Base64.encode (publicKey 1 seed).bytes)
    (Base64.encode (publicKey 2 seed).bytes)) v

/-- A bundle for Bob with the identity keys of a seed, checked in a vault. -/
def bobCall (uuid : String) (seed : Nat) (v : Vault) : PinCall where
  username := "bob"
  uuid := uuid
  ed25519 := Base64.encode (publicKey 1 seed).bytes
  curve25519 := Base64.encode (publicKey 2 seed).bytes
  accepted := (bobRun uuid seed v).1
  before := v
  after := (bobRun uuid seed v).2

theorem bobCall_runs (uuid : String) (seed : Nat) (v : Vault) :
    Prog.Runs Ask.effect (acceptIdentity (bobCall uuid seed v).username (bobCall uuid seed v).uuid
      (bobCall uuid seed v).ed25519 (bobCall uuid seed v).curve25519) (bobCall uuid seed v).before
      (bobCall uuid seed v).accepted (bobCall uuid seed v).after :=
  Prog.run_runs (Ask.play_conforms fun _ => trivial) _ _

/-- Bob's bundle is pinned, and the one with Eve's keys that the relay sends under his name leaves
him as he was. -/
theorem bob_stays_pinned :
    (bobCall "u9" 3 (bobCall "u2" 2 Vault.empty).after).after.getContactEd "bob" =
        some (Base64.encode (publicKey 1 2).bytes) ∧
      (bobCall "u9" 3 (bobCall "u2" 2 Vault.empty).after).after.contacts =
        (bobCall "u2" 2 Vault.empty).after.contacts := by
  have first : PinHistory (bobCall "u2" 2 Vault.empty).after [] _ := .nil
  have second : PinHistory (bobCall "u2" 2 Vault.empty).after
      ([] ++ [bobCall "u9" 3 (bobCall "u2" 2 Vault.empty).after]) _ :=
    .accept first (bobCall_runs ..)
  obtain ⟨stays, lawful⟩ := pinned_key_permanent second "bob"
  refine ⟨(stays _ ?_ ?_).1, (lawful _ (List.mem_singleton.mpr rfl)).refused ?_⟩
  · decide +kernel
  · decide +kernel
  · decide +kernel

end Ideal

end Cherm
