/-
**Uploading one-time keys again.**

A key id that a user has already is left alone, so an upload may be repeated, and one that broke off
may be finished by a retry. But the cap counts every key of a batch as new.

* `insertAll_again`: the inserts alone are idempotent.
* `Store.freshIds`: how many keys of a batch are really new.
* `retries_iff`: an upload may be repeated, and finished, exactly if the batch fits under the cap once
  more beside its new keys.
-/

import Cherm.Proof.Prekeys
import Cherm.Ideal

namespace Cherm.Relay

open Crates

/-! ### Inserting once more -/

namespace Store

/-- The user has a key of that id. -/
def hasKeyId (store : Store) (username keyId : String) : Bool :=
  store.prekeys.any fun row => row.username = username && row.keyId = keyId

/-- The inserts of a batch. -/
def insertAll (store : Store) (username : String) (otks : List OneTimeKey) : Store :=
  otks.foldl (fun store k => store.insertPrekey username k.keyId k.curve25519) store

theorem insertAll_append (store : Store) (username : String) (otks otks' : List OneTimeKey) :
    store.insertAll username (otks ++ otks') =
      (store.insertAll username otks).insertAll username otks' := List.foldl_append

variable {store : Store} {username : String}

theorem hasKeyId_insertPrekey (store : Store) (username keyId curve25519 other : String) :
    (store.insertPrekey username keyId curve25519).hasKeyId username other =
      (store.hasKeyId username other || decide (keyId = other)) := by
  unfold insertPrekey
  split
  · next has =>
    by_cases same : keyId = other
    · subst same
      simp [hasKeyId, has]
    · simp [same]
  · simp [hasKeyId, List.any_append]

theorem insertPrekey_has {keyId : String} (has : store.hasKeyId username keyId = true)
    (curve25519 : String) : store.insertPrekey username keyId curve25519 = store := if_pos has

theorem hasKeyId_insertAll {otks : List OneTimeKey} {keyId : String}
    (has : store.hasKeyId username keyId = true) :
    (store.insertAll username otks).hasKeyId username keyId = true := by
  induction otks generalizing store with
  | nil => exact has
  | cons k rest ih =>
      refine ih ?_
      rw [hasKeyId_insertPrekey, has, Bool.true_or]

/-- After the inserts the user has every id of the batch. -/
theorem insertAll_has {otks : List OneTimeKey} {k : OneTimeKey} (member : k ∈ otks) :
    (store.insertAll username otks).hasKeyId username k.keyId = true := by
  induction otks generalizing store with
  | nil => cases member
  | cons first rest ih =>
      show ((store.insertPrekey username first.keyId first.curve25519).insertAll username
        rest).hasKeyId username k.keyId = true
      rcases List.mem_cons.mp member with rfl | later
      · exact hasKeyId_insertAll (by rw [hasKeyId_insertPrekey, decide_eq_true rfl, Bool.or_true])
      · exact ih later

theorem insertAll_known {otks : List OneTimeKey}
    (known : ∀ k ∈ otks, store.hasKeyId username k.keyId = true) :
    store.insertAll username otks = store := by
  induction otks with
  | nil => rfl
  | cons k rest ih =>
      show (store.insertPrekey username k.keyId k.curve25519).insertAll username rest = store
      rw [insertPrekey_has (known k List.mem_cons_self)]
      exact ih fun other member => known other (List.mem_cons_of_mem _ member)

/-- **The inserts are idempotent**, also after a part of them. -/
theorem insertAll_again (store : Store) (username : String) (otks : List OneTimeKey) (done : Nat) :
    (store.insertAll username (otks.take done)).insertAll username otks =
      store.insertAll username otks := by
  conv_lhs => rw [← List.take_append_drop done otks, insertAll_append]
  have first : (store.insertAll username ((otks.take done ++ otks.drop done).take done)).insertAll
      username (otks.take done) = store.insertAll username (otks.take done) := by
    rw [List.take_append_drop]
    exact insertAll_known fun k member => insertAll_has member
  rw [first, ← insertAll_append, List.take_append_drop]

/-! ### Counting what is new -/

/-- How many ids of a batch are not known, each counted once. -/
def freshIds (known : String → Bool) : List OneTimeKey → Nat
  | [] => 0
  | k :: rest =>
      (if known k.keyId then 0 else 1) +
        freshIds (fun keyId => known keyId || decide (k.keyId = keyId)) rest

theorem countUnused_insertPrekey (store : Store) (username keyId curve25519 : String) :
    (store.insertPrekey username keyId curve25519).countUnusedPrekeys username =
      store.countUnusedPrekeys username + if store.hasKeyId username keyId then 0 else 1 := by
  by_cases has : store.hasKeyId username keyId = true
  · rw [insertPrekey_has has, if_pos has, Nat.add_zero]
  · have added : store.insertPrekey username keyId curve25519 =
        { store with prekeys := store.prekeys ++ [⟨username, keyId, curve25519, false⟩] } :=
      if_neg has
    rw [if_neg has, added]
    unfold countUnusedPrekeys
    rw [List.filter_append, List.length_append]
    simp

/-- **A batch adds its new keys.** -/
theorem countUnused_insertAll (store : Store) (username : String) (otks : List OneTimeKey) :
    (store.insertAll username otks).countUnusedPrekeys username =
      store.countUnusedPrekeys username + freshIds (store.hasKeyId username) otks := by
  induction otks generalizing store with
  | nil => rfl
  | cons k rest ih =>
      have known : (store.insertPrekey username k.keyId k.curve25519).hasKeyId username =
          fun keyId => store.hasKeyId username keyId || decide (k.keyId = keyId) := by
        funext keyId
        exact hasKeyId_insertPrekey store username k.keyId k.curve25519 keyId
      calc ((store.insertPrekey username k.keyId k.curve25519).insertAll username
              rest).countUnusedPrekeys username
          = (store.insertPrekey username k.keyId k.curve25519).countUnusedPrekeys username +
              freshIds ((store.insertPrekey username k.keyId k.curve25519).hasKeyId username)
                rest := ih _
        _ = store.countUnusedPrekeys username + freshIds (store.hasKeyId username) (k :: rest) := by
            rw [countUnused_insertPrekey, known, freshIds, Nat.add_assoc]

theorem freshIds_take (known : String → Bool) (otks : List OneTimeKey) (done : Nat) :
    freshIds known (otks.take done) ≤ freshIds known otks := by
  induction otks generalizing known done with
  | nil => rw [List.take_nil]
  | cons k rest ih =>
      cases done with
      | zero => exact Nat.zero_le _
      | succ done => exact Nat.add_le_add_left (ih _ done) _

end Store

/-! ### The handler -/

/-- The checks of a batch before the database is asked. -/
def validBatch [Crates] (otks : List OneTimeKey) : Bool :=
  decide (otks.length ≤ maxPrekeyBatch) && otks.all fun k =>
    !(k.keyId.isEmpty || maxKeyIdLen < k.keyId.utf8ByteSize || !validPubkeyB64 k.curve25519)

/-- A connection by itself that the limiters let pass: the store, and what is sent to the client. -/
def serve : Prog.Machine (Store × List ServerMsg) Ask Ask.Answer
  | .call op, (store, sent) => ((op.exec store).1, ((op.exec store).2, sent))
  | .trySend msg, (store, sent) => (true, (store, sent ++ [msg]))
  | .sendWait msg, (store, sent) => (true, (store, sent ++ [msg]))
  | .push .., s => (true, s)
  | .allow _, s => (true, s)
  | .attest _, s => (.error "", s)
  | .now, s => ((0 : Int), s)
  | .randomNonce, s => (([] : Bytes), s)
  | .randomUuid, s => ("", s)

section

variable [Crates]

/-- The handler of an upload: the table after it, and the replies. -/
def upload (state : ConnState) (otks : List OneTimeKey) (store : Store) : Store × List ServerMsg :=
  (Prog.run serve (publishPrekeys state otks) (store, [])).2

/-- A valid batch is answered as the cap says. -/
theorem upload_valid {state : ConnState} {user : String} (authed : state.authed = some user)
    {otks : List OneTimeKey} (valid : validBatch otks = true) (store : Store) :
    upload state otks store =
      if store.countUnusedPrekeys user + otks.length ≤ maxUnusedPrekeys then
        (store.insertAll user otks, [.ok none])
      else (store, [.error "prekeys_full"
        "you already have the maximum number of unused prekeys stored"]) := by
  simp only [validBatch, Bool.and_eq_true, decide_eq_true_eq, List.all_eq_true,
    Bool.not_eq_true'] at valid
  obtain ⟨short, each⟩ := valid
  have noJunk : (otks.any fun k =>
      k.keyId.isEmpty || maxKeyIdLen < k.keyId.utf8ByteSize || !validPubkeyB64 k.curve25519) =
        false := List.any_eq_false.mpr fun k member junk => by
    rw [each k member] at junk
    cases junk
  have long : ¬ maxPrekeyBatch < otks.length := Nat.not_lt.mpr short
  unfold upload publishPrekeys
  simp only [authed, allow, Prog.query, Prog.bind_eq, Prog.bind, Prog.run, serve, Bool.not_true,
    Bool.false_eq_true, if_false, long, noJunk, call, StoreOp.exec, Store.publishPrekeys]
  by_cases room : store.countUnusedPrekeys user + otks.length ≤ maxUnusedPrekeys
  · rw [if_pos room, if_neg (Nat.not_lt.mpr room)]
    rfl
  · rw [if_neg room, if_pos (Nat.lt_of_not_le room)]
    rfl

/-- Any other batch, or one of nobody, is refused. -/
theorem upload_refused {state : ConnState} {otks : List OneTimeKey}
    (refused : state.authed = none ∨ validBatch otks = false) (store : Store) :
    ∃ code message, upload state otks store = (store, [.error code message]) := by
  unfold upload publishPrekeys
  cases authed : state.authed with
  | none => exact ⟨_, _, rfl⟩
  | some user =>
      have invalid : validBatch otks = false := refused.resolve_left (by rw [authed]; nofun)
      simp only [allow, Prog.query, Prog.bind_eq, Prog.bind, Prog.run, serve, Bool.not_true,
        Bool.false_eq_true, if_false]
      split
      · exact ⟨_, _, rfl⟩
      · next short =>
        split
        · exact ⟨_, _, rfl⟩
        · next each =>
          exfalso
          have valid : validBatch otks = true := by
            simp only [validBatch, Bool.and_eq_true, decide_eq_true_eq, List.all_eq_true]
            refine ⟨Nat.not_lt.mp short, fun k member => ?_⟩
            rw [Bool.not_eq_true', Bool.eq_false_iff]
            exact fun junk => each (List.any_eq_true.mpr ⟨k, member, junk⟩)
          rw [invalid] at valid
          cases valid

/-! ### Uploading again -/

/-- The same rows, in whatever order. -/
def SameRows (store store' : Store) : Prop := ∀ row, row ∈ store.prekeys ↔ row ∈ store'.prekeys

/-- An upload that is acknowledged is acknowledged again and changes nothing then; and one that
breaks off with an error after some of its inserts is completed by a retry. -/
structure Retries (state : ConnState) (otks : List OneTimeKey) (store : Store) : Prop where
  again : (upload state otks store).2 = [.ok none] →
    (upload state otks (upload state otks store).1).2 = [.ok none] ∧
      (upload state otks (upload state otks store).1).1.prekeys = (upload state otks store).1.prekeys
  resumed : ∀ user, state.authed = some user → (upload state otks store).2 = [.ok none] →
    ∀ done < otks.length, SameRows
      (upload state otks (store.insertAll user (otks.take done))).1 (upload state otks store).1

/-- **An upload may be repeated exactly if the batch fits under the cap beside its own new keys.** -/
theorem retries_iff (state : ConnState) (otks : List OneTimeKey) (store : Store) :
    Retries state otks store ↔
      ∀ user, state.authed = some user → validBatch otks = true →
        store.countUnusedPrekeys user + otks.length ≤ maxUnusedPrekeys →
        store.countUnusedPrekeys user + Store.freshIds (store.hasKeyId user) otks + otks.length ≤
          maxUnusedPrekeys := by
  constructor
  · intro retries user authed valid room
    have first : upload state otks store = (store.insertAll user otks, [.ok none]) := by
      rw [upload_valid authed valid, if_pos room]
    have again := (retries.again (by rw [first])).1
    rw [first, upload_valid authed valid, Store.countUnused_insertAll] at again
    by_contra full
    rw [if_neg full] at again
    cases again
  · intro fits
    by_cases accepted : ∃ user, state.authed = some user ∧ validBatch otks = true ∧
        store.countUnusedPrekeys user + otks.length ≤ maxUnusedPrekeys
    · obtain ⟨user, authed, valid, room⟩ := accepted
      have first : upload state otks store = (store.insertAll user otks, [.ok none]) := by
        rw [upload_valid authed valid, if_pos room]
      have beside := fits user authed valid room
      refine ⟨fun _ => ?_, fun user' authed' _ done early => ?_⟩
      · have second : upload state otks (store.insertAll user otks) =
            ((store.insertAll user otks).insertAll user otks, [.ok none]) := by
          rw [upload_valid authed valid, Store.countUnused_insertAll, if_pos beside]
        have whole := store.insertAll_again user otks otks.length
        rw [List.take_length] at whole
        rw [first, second, whole]
        exact ⟨rfl, rfl⟩
      · obtain rfl : user = user' := Option.some.inj (authed.symm.trans authed')
        have part : Store.freshIds (store.hasKeyId user) (otks.take done) ≤
            Store.freshIds (store.hasKeyId user) otks := Store.freshIds_take _ _ _
        have retried : upload state otks (store.insertAll user (otks.take done)) =
            (store.insertAll user otks, [.ok none]) := by
          rw [upload_valid authed valid, Store.countUnused_insertAll, if_pos (by omega),
            store.insertAll_again user otks done]
        rw [retried, first]
        exact fun row => Iff.rfl
    · have refused : (upload state otks store).2 ≠ [.ok none] := by
        intro answered
        by_cases valid : validBatch otks = true
        · cases authed : state.authed with
          | none =>
              have outside : state.authed = none ∨ validBatch otks = false := .inl authed
              obtain ⟨code, message, same⟩ := upload_refused outside store
              rw [same] at answered
              cases answered
          | some user =>
              rw [upload_valid authed valid, if_neg fun room => accepted ⟨user, authed, valid, room⟩]
                at answered
              cases answered
        · have invalid : state.authed = none ∨ validBatch otks = false :=
            .inr (Bool.eq_false_iff.mpr valid)
          obtain ⟨code, message, same⟩ := upload_refused invalid store
          rw [same] at answered
          cases answered
      exact ⟨fun answered => absurd answered refused, fun _ _ answered => absurd answered refused⟩

end

namespace Ideal

open Cherm.Ideal

/-- Bob's key, one of many. -/
def bobRow (i : Nat) : PrekeyRow :=
  ⟨"bob", toString i, Base64.encode (publicKey 3 i).bytes, false⟩

/-- Bob has one key less than the cap. -/
def almostFull : Store := { Store.empty with prekeys := (List.range 499).map bobRow }

/-- Bob uploads one more. -/
def lastKey : List OneTimeKey := [⟨"499", Base64.encode (publicKey 3 499).bytes⟩]

/-- **The last key is refused when it is uploaded again.** -/
theorem last_key_refused :
    ¬ ∀ (state : ConnState) (otks : List OneTimeKey) (store : Store), Retries state otks store := by
  intro law
  have beside := (retries_iff ⟨some "bob", none, none⟩ lastKey almostFull).mp (law _ _ _) "bob" rfl
    (by decide +kernel) (by decide +kernel)
  exact absurd beside (by decide +kernel)

end Ideal

end Cherm.Relay
