/-
**The ledger of one-time keys.**

A key is published once under its id and handed out once: its row stays in the table when it is
used, and a row with the same id is never added again. The count of unused keys and the inserts
share one critical section.

* `Stocked`: ids are unique for each user, and nobody has more unused keys than the cap.
* `Dealings` is a run with the keys that were published and handed out in it.
* `prekey_ledger` is the result.
* `published_stored` says when a batch that is acknowledged is stored, and `Ideal.old_key_kept`
  shows an acknowledged key that is not: another one is stored under its id.
-/

import Cherm.Proof.Directory

namespace Cherm

namespace Relay

open Crates

/-- A row's user and key id. -/
def PrekeyRow.ids (row : PrekeyRow) : String × String := (row.username, row.keyId)

/-- The table of one-time keys is in order. -/
structure Stocked (store : Store) : Prop where
  unique : (store.prekeys.map PrekeyRow.ids).Nodup
  capped : ∀ username, store.countUnusedPrekeys username ≤ maxUnusedPrekeys

/-! ### Handing out -/

theorem claim_some {username : String} {rows rows' : List PrekeyRow} {key : String × String}
    (claimed : Store.claim username rows = some (key, rows')) :
    ∃ before after, rows = before ++ ⟨username, key.1, key.2, false⟩ :: after ∧
      rows' = before ++ ⟨username, key.1, key.2, true⟩ :: after ∧
      ∀ row ∈ before, row.username = username → row.used = true := by
  induction rows generalizing rows' with
  | nil => cases claimed
  | cons row rest ih =>
      unfold Store.claim at claimed
      split at claimed
      · next first =>
        obtain ⟨named, unused⟩ := Bool.and_eq_true_iff.mp first
        obtain ⟨rfl, rfl⟩ := Prod.mk.inj (Option.some.inj claimed)
        obtain ⟨owner, keyId, curve25519, used⟩ := row
        obtain rfl : owner = username := of_decide_eq_true named
        obtain rfl : used = false := Bool.not_eq_true' _ ▸ unused
        exact ⟨[], rest, rfl, rfl, fun row member => absurd member List.not_mem_nil⟩
      · next other =>
        obtain ⟨⟨key', rest'⟩, later, same⟩ := Option.map_eq_some_iff.mp claimed
        obtain ⟨rfl, rfl⟩ := Prod.mk.inj same
        obtain ⟨before, after, rfl, rfl, used⟩ := ih later
        refine ⟨row :: before, after, rfl, rfl, fun row' member named => ?_⟩
        rcases List.mem_cons.mp member with rfl | old
        · by_contra unused
          exact other (Bool.and_eq_true_iff.mpr ⟨decide_eq_true named, by simpa using unused⟩)
        · exact used row' old named

theorem claim_none {username : String} {rows : List PrekeyRow}
    (nothing : Store.claim username rows = none) :
    ∀ row ∈ rows, row.username = username → row.used = true := by
  induction rows with
  | nil => exact fun row member => absurd member List.not_mem_nil
  | cons row rest ih =>
      unfold Store.claim at nothing
      split at nothing
      · cases nothing
      · next other =>
        intro row' member named
        rcases List.mem_cons.mp member with rfl | old
        · by_contra unused
          exact other (Bool.and_eq_true_iff.mpr ⟨decide_eq_true named, by simpa using unused⟩)
        · exact ih (Option.map_eq_none_iff.mp nothing) row' old named

/-- What a fetch hands out: the oldest unused key of the user, which is used then, or nothing if
there is none. -/
def HandsOutOldest (store : Store) (username : String) : Prop :=
  (∃ record keyId curve25519 before after,
    store.fetchBundle username = (some (record, some (keyId, curve25519)),
      { store with prekeys := before ++ ⟨username, keyId, curve25519, true⟩ :: after }) ∧
    store.prekeys = before ++ ⟨username, keyId, curve25519, false⟩ :: after ∧
    ∀ row ∈ before, row.username = username → row.used = true) ∨
  ((store.fetchBundle username = (none, store) ∨
      ∃ record, store.fetchBundle username = (some (record, none), store)) ∧
    ∀ row ∈ store.prekeys, row.username = username → row.used = true)

/-- A fetch of an unknown user finds no keys either, since keys belong to users. -/
theorem fetch_oldest {store : Store} (owners : ∀ row ∈ store.prekeys,
    Enrolled store.users row.username)
    (username : String) : HandsOutOldest store username := by
  unfold HandsOutOldest Store.fetchBundle Store.takePrekey
  cases known : store.lookupUser username with
  | none =>
      refine .inr ⟨.inl rfl, fun row member named => ?_⟩
      obtain ⟨user, inside, same⟩ := owners row member
      have nobody := List.find?_eq_none.mp (Option.map_eq_none_iff.mp known) user inside
      exact absurd (decide_eq_true (same.trans named)) nobody
  | some record =>
      cases claimed : Store.claim username store.prekeys with
      | none => exact .inr ⟨.inr ⟨record, rfl⟩, claim_none claimed⟩
      | some taken =>
          obtain ⟨⟨keyId, curve25519⟩, rows⟩ := taken
          obtain ⟨before, after, same, rfl, used⟩ := claim_some claimed
          exact .inl ⟨record, keyId, curve25519, before, after, rfl, same, used⟩

/-! ### Inserting -/

theorem insertAll_grows (otks : List OneTimeKey) (store : Store) (owner : String) :
    store.prekeys ⊆ (otks.foldl (fun store k => store.insertPrekey owner k.keyId k.curve25519)
    store).prekeys := by
  induction otks generalizing store with
  | nil => exact List.Subset.refl _
  | cons k rest ih =>
      refine List.Subset.trans (fun row member => ?_) (ih
        (store.insertPrekey owner k.keyId k.curve25519))
      unfold Store.insertPrekey
      split
      · exact member
      · exact List.mem_append_left _ member

theorem publishPrekeys_grows (store : Store) (username : String) (otks : List OneTimeKey) :
    store.prekeys ⊆ (store.publishPrekeys username otks).2.prekeys := by
  unfold Store.publishPrekeys
  split
  · exact List.Subset.refl _
  · exact insertAll_grows otks store username

theorem publishPrekeys_ok {store : Store} {username : String} {otks : List OneTimeKey}
    (accepted : (store.publishPrekeys username otks).1 = .ok) :
      (store.publishPrekeys username otks).2 =
      otks.foldl (fun store k => store.insertPrekey username k.keyId k.curve25519) store := by
  unfold Store.publishPrekeys at accepted ⊢
  split at accepted
  · cases accepted
  · next room => rw [if_neg room]

/-! ### Counting -/

/-- Unused keys of a user. -/
def unusedOf (username : String) (rows : List PrekeyRow) : Nat :=
  (rows.filter fun row => row.username = username && !row.used).length

theorem unusedOf_append (username : String) (rows rows' : List PrekeyRow) :
    unusedOf username (rows ++ rows') = unusedOf username rows + unusedOf username rows' := by
  rw [unusedOf, List.filter_append, List.length_append]
  rfl

theorem unusedOf_use (username owner keyId curve25519 : String) (before after : List PrekeyRow) :
    unusedOf username (before ++ ⟨owner, keyId, curve25519, true⟩ :: after) ≤
      unusedOf username (before ++ ⟨owner, keyId, curve25519, false⟩ :: after) := by
  rw [unusedOf_append, unusedOf_append]
  refine Nat.add_le_add_left ?_ _
  show (List.filter _ (_ :: after)).length ≤ (List.filter _ (_ :: after)).length
  rw [List.filter_cons_of_neg (by simp)]
  exact ((List.sublist_cons_self _ _).filter _).length_le

theorem insertPrekey_unused (store : Store) (username owner keyId curve25519 : String) :
    unusedOf username (store.insertPrekey owner keyId curve25519).prekeys ≤
      unusedOf username store.prekeys + if owner = username then 1 else 0 := by
  unfold Store.insertPrekey
  split
  · exact Nat.le_add_right ..
  · show unusedOf username (store.prekeys ++ [_]) ≤ _
    rw [unusedOf_append]
    refine Nat.add_le_add_left ?_ _
    split
    · exact List.length_filter_le ..
    · next different => simp [unusedOf, different]

/-- A batch adds at most its length, and only to its owner. -/
theorem insertAll_unused (otks : List OneTimeKey) (store : Store) (username owner : String) :
    unusedOf username (otks.foldl (fun store k => store.insertPrekey owner k.keyId k.curve25519)
    store).prekeys ≤
      unusedOf username store.prekeys + if owner = username then otks.length else 0 := by
  induction otks generalizing store with
  | nil => exact Nat.le_add_right ..
  | cons k rest ih =>
      have first := insertPrekey_unused store username owner k.keyId k.curve25519
      have others := ih (store.insertPrekey owner k.keyId k.curve25519)
      rw [List.foldl_cons, List.length_cons]
      by_cases same : owner = username
      · rw [if_pos same] at first others ⊢
        omega
      · rw [if_neg same] at first others ⊢
        omega

theorem insertPrekey_unique {store : Store} (unique : (store.prekeys.map PrekeyRow.ids).Nodup)
    (owner keyId curve25519 : String) :
    ((store.insertPrekey owner keyId curve25519).prekeys.map PrekeyRow.ids).Nodup := by
  unfold Store.insertPrekey
  split
  · exact unique
  · next fresh =>
    show ((store.prekeys ++ [_]).map PrekeyRow.ids).Nodup
    rw [List.map_append]
    refine unique.append (List.nodup_singleton _) (List.disjoint_singleton.mpr fun member =>
      fresh ?_)
    obtain ⟨row, inside, same⟩ := List.mem_map.mp member
    obtain ⟨named, id⟩ := Prod.mk.inj same
    exact List.any_eq_true.mpr ⟨row, inside, by simp [named, id]⟩

theorem insertAll_unique (otks : List OneTimeKey) {store : Store}
    (unique : (store.prekeys.map PrekeyRow.ids).Nodup) (owner : String) :
    ((otks.foldl (fun store k => store.insertPrekey owner k.keyId k.curve25519) store).prekeys.map
      PrekeyRow.ids).Nodup := by
  induction otks generalizing store with
  | nil => exact unique
  | cons k rest ih => exact ih (insertPrekey_unique unique owner k.keyId k.curve25519)

theorem Stocked.same {store store' : Store} (stocked : Stocked store)
    (prekeys : store'.prekeys = store.prekeys) :
    Stocked store' where
  unique := prekeys.symm ▸ stocked.unique
  capped username := by
    show unusedOf username store'.prekeys ≤ _
    rw [prekeys]
    exact stocked.capped username

/-- A fetch of an unused key. -/
theorem Stocked.fetched {store : Store} (stocked : Stocked store)
    {username keyId curve25519 : String}
    {before after : List PrekeyRow} (rows : store.prekeys = before ++
    ⟨username, keyId, curve25519, false⟩ :: after) :
    Stocked { store with prekeys := before ++ ⟨username, keyId, curve25519, true⟩ :: after } where
  unique := by
    have unique := stocked.unique
    rw [rows, List.map_append, List.map_cons] at unique
    show ((before ++ _ :: after).map PrekeyRow.ids).Nodup
    rw [List.map_append, List.map_cons]
    exact unique
  capped name := by
    have capped : unusedOf name store.prekeys ≤ maxUnusedPrekeys := stocked.capped name
    rw [rows] at capped
    exact Nat.le_trans (unusedOf_use name username keyId curve25519 before after) capped

theorem Stocked.fetch {store : Store} (stocked : Stocked store)
    (owners : ∀ row ∈ store.prekeys, Enrolled store.users row.username) (username : String) :
    Stocked (store.fetchBundle username).2 := by
  rcases fetch_oldest owners username with ⟨_, _, _, _, _, fetched, rows, _⟩ |
    ⟨nothing | ⟨_, nothing⟩, _⟩
  · rw [fetched]
    exact stocked.fetched rows
  · rw [nothing]
    exact stocked
  · rw [nothing]
    exact stocked

theorem Stocked.publish {store : Store} (stocked : Stocked store) (username : String)
    (otks : List OneTimeKey) :
    Stocked (store.publishPrekeys username otks).2 := by
  unfold Store.publishPrekeys
  split
  · exact stocked
  · next room =>
    refine ⟨insertAll_unique otks stocked.unique username, fun name => ?_⟩
    have added := insertAll_unused otks store name username
    refine Nat.le_trans added ?_
    split
    · next same =>
      subst same
      exact Nat.not_lt.mp room
    · exact stocked.capped name

/-! ### An acknowledged batch -/

/-- The table has a user's key under its id. -/
def Store.Holds (store : Store) (username : String) (k : OneTimeKey) : Prop :=
  ∃ row ∈ store.prekeys, row.ids = (username, k.keyId) ∧ row.curve25519 = k.curve25519

/-- A key's id is its own: the table has this key under it, or it has none and neither has the batch
before. -/
def Store.Agrees (store : Store) (username : String) (otks : List OneTimeKey)
    (k : OneTimeKey) : Prop :=
  store.Holds username k ∨ (∀ row ∈ store.prekeys, row.ids ≠ (username, k.keyId)) ∧
    ∃ first, (otks.find? fun k' => k'.keyId = k.keyId) = some first ∧
      first.curve25519 = k.curve25519

/-- An insert under an id that is taken does nothing, whatever the key. -/
theorem insertPrekey_taken {store : Store} {username keyId : String}
    (taken : ∃ row ∈ store.prekeys, row.ids = (username, keyId)) (curve25519 : String) :
    store.insertPrekey username keyId curve25519 = store := by
  obtain ⟨row, member, same⟩ := taken
  obtain ⟨named, id⟩ := Prod.mk.inj same
  rw [Store.insertPrekey, if_pos (List.any_eq_true.mpr ⟨row, member, by simp [named, id]⟩)]

theorem insertPrekey_free {store : Store} {username keyId : String}
    (free : ∀ row ∈ store.prekeys, row.ids ≠ (username, keyId)) (curve25519 : String) :
    (store.insertPrekey username keyId curve25519).prekeys =
      store.prekeys ++ [⟨username, keyId, curve25519, false⟩] := by
  rw [Store.insertPrekey, if_neg fun taken => ?_]
  obtain ⟨row, member, same⟩ := List.any_eq_true.mp taken
  obtain ⟨named, id⟩ := Bool.and_eq_true_iff.mp same
  exact free row member (Prod.ext (of_decide_eq_true named) (of_decide_eq_true id))

theorem insertPrekey_agrees (store : Store) (username : String) (k' k : OneTimeKey)
    (rest : List OneTimeKey) :
    (store.insertPrekey username k'.keyId k'.curve25519).Agrees username rest k ↔
      store.Agrees username (k' :: rest) k := by
  unfold Store.Agrees Store.Holds
  by_cases taken : ∃ row ∈ store.prekeys, row.ids = (username, k'.keyId)
  · rw [insertPrekey_taken taken]
    refine or_congr_right (and_congr_right fun free => ?_)
    obtain ⟨row, member, same⟩ := taken
    have other : k'.keyId ≠ k.keyId := fun id => free row member (same.trans (by rw [id]))
    rw [List.find?_cons_of_neg (by simpa using other)]
  · have free : ∀ row ∈ store.prekeys, row.ids ≠ (username, k'.keyId) :=
      fun row member same => taken ⟨row, member, same⟩
    rw [insertPrekey_free free]
    by_cases id : k'.keyId = k.keyId
    · rw [id] at free ⊢
      have unheld : ¬ ∃ row ∈ store.prekeys, row.ids = (username, k.keyId) ∧
          row.curve25519 = k.curve25519 :=
        fun ⟨row, member, same, _⟩ => free row member same
      rw [List.find?_cons_of_pos (by simpa using id)]
      simp only [List.mem_append, List.mem_singleton, or_and_right, exists_or,
        exists_eq_left, or_imp,
        forall_and, forall_eq, PrekeyRow.ids, ne_eq, not_true, and_false, false_and, or_false,
        true_and]
      simp only [Option.some.injEq, exists_eq_left']
      exact or_congr_right (and_iff_right free).symm
    · have other : (username, k'.keyId) ≠ (username, k.keyId) := fun same => id (Prod.mk.inj same).2
      rw [List.find?_cons_of_neg (by simpa using id)]
      simp only [List.mem_append, List.mem_singleton, or_and_right, exists_or,
        exists_eq_left, or_imp,
        forall_and, forall_eq, PrekeyRow.ids, ne_eq, other, not_false_eq_true, and_true, false_and,
        or_false]

/-- What a batch leaves in the table. -/
theorem insertAll_holds (otks : List OneTimeKey) (store : Store) (username : String)
    (k : OneTimeKey) :
    (otks.foldl (fun store k => store.insertPrekey username k.keyId k.curve25519) store).Holds
      username k ↔
      store.Agrees username otks k := by
  induction otks generalizing store with
  | nil =>
      refine (or_iff_left fun ⟨_, first, found, _⟩ => ?_).symm
      cases found
  | cons k' rest ih =>
      exact (ih (store.insertPrekey username k'.keyId k'.curve25519)).trans
        (insertPrekey_agrees store username k' k rest)

/-! ### What becomes of the keys -/

/-- What happens to one-time keys. -/
inductive Deal where
  | published (username keyId curve25519 : String)
  | handedOut (username keyId curve25519 : String)
deriving DecidableEq

/-- A user's batch. -/
def batch (username : String) (otks : List OneTimeKey) : List Deal :=
  otks.map fun k => .published username k.keyId k.curve25519

/-- The user and the id of a key that is handed out. -/
def Deal.given : Deal → Option (String × String)
  | .handedOut username keyId _ => some (username, keyId)
  | _ => none

/-- A key of the table was published, or was in the table when the relay started. -/
def Sourced (store : Store) (log : List Deal) (username keyId curve25519 : String) : Prop :=
  .published username keyId curve25519 ∈ log ∨
    ∃ row ∈ store.prekeys, row.ids = (username, keyId) ∧ row.curve25519 = curve25519

theorem Sourced.later {store : Store} {log : List Deal} {username keyId curve25519 : String}
    (sourced : Sourced store log username keyId curve25519)
    (more : List Deal) : Sourced store (more ++ log) username keyId curve25519 :=
  sourced.imp_left (List.mem_append_right _)

/-- What the table tells of the past. -/
structure Dealt (store now : Store) (log : List Deal) : Prop where
  stocked : Stocked now
  used : ∀ ids ∈ log.filterMap Deal.given, ∃ row ∈ now.prekeys, row.ids = ids ∧ row.used = true
  once : (log.filterMap Deal.given).Nodup
  sourced : ∀ row ∈ now.prekeys, Sourced store log row.username row.keyId row.curve25519
  origin : ∀ later earlier username keyId curve25519,
    log = later ++ .handedOut username keyId curve25519 :: earlier →
      Sourced store earlier username keyId curve25519

theorem Dealt.publish {store now : Store} {log : List Deal} (dealt : Dealt store now log) (username : String)
    (otks : List OneTimeKey) :
    Dealt store (now.publishPrekeys username otks).2 (batch username otks ++ log) := by
  have given : (batch username otks ++ log).filterMap Deal.given = log.filterMap Deal.given := by
    have none : (batch username otks).filterMap Deal.given = [] := by
      refine List.filterMap_eq_nil_iff.mpr fun deal member => ?_
      obtain ⟨k, _, rfl⟩ := List.mem_map.mp member
      rfl
    rw [List.filterMap_append, none, List.nil_append]
  refine ⟨dealt.stocked.publish username otks, fun ids member => ?_, ?_, fun row member => ?_, ?_⟩
  · rw [given] at member
    obtain ⟨row, inside, same⟩ := dealt.used ids member
    exact ⟨row, publishPrekeys_grows now username otks inside, same⟩
  · rw [given]
    exact dealt.once
  · rcases publishPrekeys_rows member with old | ⟨k, inside, rfl⟩
    · exact (dealt.sourced row old).later _
    · exact .inl (List.mem_append_left _ (List.mem_map.mpr ⟨k, inside, rfl⟩))
  · intro later earlier name keyId curve25519 split
    rcases List.append_eq_append_iff.mp split with ⟨rest, rfl, here⟩ | ⟨rest, all, rest'⟩
    · exact dealt.origin rest earlier name keyId curve25519 here
    · cases rest with
      | nil => exact dealt.origin [] earlier name keyId curve25519 rest'.symm
      | cons deal rest =>
          obtain ⟨rfl, _⟩ := List.cons.inj rest'
          have member : Deal.handedOut name keyId curve25519 ∈ batch username otks := by
            rw [all]
            exact List.mem_append_right _ List.mem_cons_self
          obtain ⟨k, _, same⟩ := List.mem_map.mp member
          cases same

/-- The ids of a row are its own. -/
theorem Stocked.same_row {now : Store} (stocked : Stocked now) {row row' : PrekeyRow}
    (member : row ∈ now.prekeys)
    (member' : row' ∈ now.prekeys) (same : row.ids = row'.ids) : row = row' :=
  List.inj_on_of_nodup_map stocked.unique member member' same

theorem Dealt.fetch {store now : Store} {log : List Deal} (dealt : Dealt store now log) {username keyId curve25519 : String}
    {before after : List PrekeyRow} (rows : now.prekeys = before ++
    ⟨username, keyId, curve25519, false⟩ :: after) :
    Dealt store { now with prekeys := before ++ ⟨username, keyId, curve25519, true⟩ :: after }
      (.handedOut username keyId curve25519 :: log) := by
  have unused : (⟨username, keyId, curve25519, false⟩ : PrekeyRow) ∈ now.prekeys := by
    rw [rows]
    exact List.mem_append_right _ List.mem_cons_self
  have others : ∀ row ∈ now.prekeys, row.used = true → row ∈ before ++ after := by
    intro row member used
    rw [rows] at member
    rcases List.mem_append.mp member with first | rest
    · exact List.mem_append_left _ first
    · rcases List.mem_cons.mp rest with rfl | last
      · cases used
      · exact List.mem_append_right _ last
  have kept : ∀ row ∈ before ++ after, row ∈ before ++ ⟨username, keyId, curve25519, true⟩ ::
      after := by
    intro row member
    rcases List.mem_append.mp member with first | last
    · exact List.mem_append_left _ first
    · exact List.mem_append_right _ (List.mem_cons_of_mem _ last)
  have source := dealt.sourced _ unused
  refine ⟨dealt.stocked.fetched rows, fun ids member => ?_, ?_, fun row member => ?_, ?_⟩
  · rcases List.mem_cons.mp member with rfl | old
    · exact ⟨_, List.mem_append_right _ List.mem_cons_self, rfl, rfl⟩
    · obtain ⟨row, inside, same, used⟩ := dealt.used ids old
      exact ⟨row, kept row (others row inside used), same, used⟩
  · refine List.nodup_cons.mpr ⟨fun again => ?_, dealt.once⟩
    obtain ⟨row, inside, same, used⟩ := dealt.used _ again
    rw [dealt.stocked.same_row inside unused same] at used
    cases used
  · have old : ∀ row ∈ now.prekeys, Sourced store (.handedOut username keyId curve25519 :: log)
      row.username row.keyId
        row.curve25519 := fun row inside => (dealt.sourced row inside).later [_]
    rcases List.mem_append.mp member with first | rest
    · exact old row (rows ▸ List.mem_append_left _ first)
    · rcases List.mem_cons.mp rest with rfl | last
      · exact source.later [_]
      · exact old row (rows ▸ List.mem_append_right _ (List.mem_cons_of_mem _ last))
  · intro later earlier name keyId' curve25519' split
    cases later with
    | nil =>
        obtain ⟨same, rfl⟩ := List.cons.inj split
        cases same
        exact source
    | cons deal later =>
        obtain ⟨_, here⟩ := List.cons.inj split
        exact dealt.origin later earlier name keyId' curve25519' here

section

variable [Crates]

/-- Only publishing and fetching change the table. -/
def StoreOp.PrekeyOp : StoreOp → Prop
  | .publishPrekeys .. | .fetchBundle _ => True
  | _ => False

theorem exec_prekeys {op : StoreOp} (other : ¬ op.PrekeyOp) (store : Store) :
    (op.exec store).2.prekeys = store.prekeys := by
  cases op with
  | registerUser username ed25519 curve25519 machineId uuid now =>
      show (store.registerUser username ed25519 curve25519 machineId uuid now).2.prekeys = _
      rcases registerUser_cases store username ed25519 curve25519 machineId uuid now with
        ⟨_, refused⟩ | ⟨_, _, added⟩
      · rw [refused]
      · rw [added]
  | publishPrekeys username otks => exact absurd trivial other
  | fetchBundle username => exact absurd trivial other
  | enqueue recipient frame ts =>
      show (store.enqueueIfUnderCap recipient frame ts).2.prekeys = _
      rcases store.enqueueIfUnderCap_cases recipient frame ts with result | result <;> rw [result]
      rfl
  | goOffline username conn =>
      show (store.goOffline username conn).prekeys = _
      unfold Store.goOffline
      split <;> rfl
  | _ => rfl

theorem Stocked.exec {store : Store} (stocked : Stocked store)
    (owners : ∀ row ∈ store.prekeys, Enrolled store.users row.username) (op : StoreOp) :
    Stocked (op.exec store).2 := by
  by_cases prekeyOp : op.PrekeyOp
  · cases op with
    | publishPrekeys username otks => exact stocked.publish username otks
    | fetchBundle username => exact stocked.fetch owners username
    | _ => exact prekeyOp.elim
  · exact stocked.same (exec_prekeys prekeyOp store)

/-! ### Runs -/

/-- A run of the relay, with what happened to one-time keys, the latest first. -/
inductive Dealings (config : ServerConfig) (store : Store) : RelayState → List Deal → Prop where
  | start : Dealings config store (started store) []
  | publish {tasks : Nat → Option (Task ConnState)} {sys sys' : System} {log : List Deal} {c : Nat}
      {username : String} {otks : List OneTimeKey} {next : PubResult → Task ConnState}
      (before : Dealings config store (tasks, sys) log)
      (busy : tasks c = some (.ask (.call (.publishPrekeys username otks)) next))
      (made : (relay config Rules.none).act c (.call (.publishPrekeys username otks)) sys
        PubResult.ok sys') :
      Dealings config store (Function.update tasks c (some (next .ok)), sys')
      (batch username otks ++ log)
  | fetch {tasks : Nat → Option (Task ConnState)} {sys sys' : System} {log : List Deal} {c : Nat}
      {username keyId curve25519 : String} {record : UserRecord}
      {next : Option (UserRecord × Option (String × String)) → Task ConnState}
      (before : Dealings config store (tasks, sys) log)
      (busy : tasks c = some (.ask (.call (.fetchBundle username)) next))
      (made : (relay config Rules.none).act c (.call (.fetchBundle username)) sys
        (some (record, some (keyId, curve25519))) sys') :
      Dealings config store (Function.update tasks c (some
      (next (some (record, some (keyId, curve25519))))), sys')
        (.handedOut username keyId curve25519 :: log)
  | other {state state' : RelayState} {log : List Deal} (before : Dealings config store state log)
      (next : (relay config Rules.none).Next state state')
      (still : state'.2.store.prekeys = state.2.store.prekeys) : Dealings config store state' log

section

variable {config : ServerConfig} {store : Store} {state state' : RelayState} {log : List Deal}

theorem Dealings.reached (dealings : Dealings config store state log) :
    Relation.ReflTransGen (relay config Rules.none).Next (started store) state := by
  induction dealings with
  | start => exact .refl
  | publish _ busy made ih => exact ih.tail (.move _ busy made)
  | fetch _ busy made ih => exact ih.tail (.move _ busy made)
  | other _ next _ ih => exact ih.tail next

theorem Dealings.dealt (dealings : Dealings config store state log) (integrity : Integrity store)
    (stocked : Stocked store) : Dealt store state.2.store log := by
  induction dealings with
  | start =>
      refine ⟨stocked.same rfl, fun ids member => absurd member List.not_mem_nil, List.nodup_nil,
        fun row member => .inr ⟨row, member, rfl, rfl⟩,
          fun later earlier username keyId curve25519 split => ?_⟩
      exact absurd split.symm (List.append_ne_nil_of_right_ne_nil _ (List.cons_ne_nil _ _))
  | @publish tasks sys sys' log c username otks next before busy made ih =>
      obtain ⟨_, same⟩ := Ask.onSystem_store made.2
      show Dealt store sys'.store _
      rw [same]
      exact ih.publish username otks
  | @fetch tasks sys sys' log c username keyId curve25519 record next before busy made ih =>
      obtain ⟨answered, same⟩ := Ask.onSystem_store made.2
      have owners := (sound_reached integrity before.reached).integrity.owners
      show Dealt store sys'.store _
      rw [same]
      show Dealt store (sys.store.fetchBundle username).2 _
      have answered : some (record, some (keyId, curve25519)) =
          (sys.store.fetchBundle username).1 := answered
      rcases fetch_oldest owners username with
        ⟨record', keyId', curve25519', front, back, fetched, rows, _⟩ | ⟨nothing | ⟨_, nothing⟩, _⟩
      · rw [fetched] at answered ⊢
        cases answered
        exact ih.fetch rows
      · rw [nothing] at answered
        cases answered
      · rw [nothing] at answered
        cases answered
  | other before next still ih =>
      refine ⟨ih.stocked.same still, fun ids member => ?_, ih.once, fun row member => ?_, ih.origin⟩
      · rw [still]
        exact ih.used ids member
      · rw [still] at member
        exact ih.sourced row member

end

/-! ### Publishing, from the message to the table -/

section

variable {config : ServerConfig} {c : Nat} {state : ConnState} {otks : List OneTimeKey}

/-- What a handler does, if it says that a batch is stored. -/
def Acknowledged (held : Store → Prop) (after : System × List Ask) : Prop :=
  Ask.trySend (.ok none) ∈ after.2 → held after.1.store

/-- A refusal is no acknowledgement. -/
theorem wp_refused {α : Type} {held : Store → Prop} (code message : String) (value : α)
    {sys : System} {log : List Ask} (silent : Ask.trySend (.ok none) ∉ log) :
    Prog.wp (.free (Prog.logged (Ask.onSystem c))) (fun _ => Acknowledged held)
      ((err code message).bind fun _ => .done value) (sys, log) := by
  refine ⟨trivial, ?_⟩
  rintro answer ⟨sys', log'⟩ ⟨_, same⟩
  obtain rfl : log' = .trySend (.error code message) :: log := same
  intro told
  rcases List.mem_cons.mp told with said | before
  · cases said
  · exact absurd before silent

/-- A batch that is acknowledged was inserted into the table as it was. -/
theorem handle_publishes {user : String} (authed : state.authed = some user) (sys : System) :
    Prog.wp (.free (Prog.logged (Ask.onSystem c)))
      (fun _ => Acknowledged fun store => ∀ k, store.Holds user k ↔ sys.store.Agrees user otks k)
      (handle c config state (some (.publishPrekeys otks))) (sys, []) := by
  have known : state.authed.isNone = false := by rw [authed]; rfl
  unfold handle
  simp only [known]
  show Prog.wp _ _ ((publishPrekeys state otks).bind fun _ => Prog.done state) _
  unfold publishPrekeys
  rw [authed]
  refine ⟨trivial, ?_⟩
  rintro allowed ⟨sys₁, log₁⟩ ⟨made, same⟩
  obtain rfl : log₁ = [.allow .prekey] := same
  have store₁ : sys₁.store = sys.store := Ask.onSystem_store made
  have silent₁ : Ask.trySend (.ok none) ∉ [Ask.allow .prekey] := by simp
  simp only [Prog.done_bind]
  split
  · exact wp_refused _ _ state silent₁
  split
  · exact wp_refused _ _ state silent₁
  split
  · exact wp_refused _ _ state silent₁
  refine ⟨trivial, ?_⟩
  rintro result ⟨sys₂, log₂⟩ ⟨made₂, same₂⟩
  obtain rfl : log₂ = [.call (.publishPrekeys user otks), .allow .prekey] := same₂
  obtain ⟨answered, store₂⟩ := Ask.onSystem_store made₂
  have silent₂ : Ask.trySend (.ok none) ∉ [Ask.call (.publishPrekeys user otks),
      .allow .prekey] := by simp
  cases result with
  | overCap => exact wp_refused _ _ state silent₂
  | ok =>
      refine ⟨trivial, ?_⟩
      rintro answer ⟨sys₃, log₃⟩ ⟨made₃, _⟩ _ k
      have store₃ : sys₃.store = sys₂.store := Ask.onSystem_store made₃
      have answered : (sys.store.publishPrekeys user otks).1 = .ok := by
        rw [← store₁]
        exact answered.symm
      show sys₃.store.Holds user k ↔ _
      rw [store₃, store₂, store₁, StoreOp.exec, publishPrekeys_ok answered]
      exact insertAll_holds otks sys.store user k

/-- **When an acknowledged batch is stored.** If the relay says that it has stored a batch, then
every key of it is in the table under its id if and only if the id of every key was its own. -/
theorem published_stored {user : String} (authed : state.authed = some user) {sys sys' : System}
    {log : List Ask}
    {result : Except Unit ConnState} (runs : Prog.Runs (Prog.logged (Ask.onSystem c))
      (handle c config state (some (.publishPrekeys otks))) (sys, []) result (sys', log))
    (acknowledged : Ask.trySend (.ok none) ∈ log) :
    (∀ k ∈ otks, sys'.store.Holds user k) ↔ ∀ k ∈ otks, sys.store.Agrees user otks k := by
  have told : Acknowledged _ (sys', log) := runs.ends (handle_publishes authed sys)
  have holds := told acknowledged
  exact forall₂_congr fun k _ => holds k

end

/-! ### Publishing and fetching, as they are played -/

section

variable {config : ServerConfig} {rules : Rules} [Lenient rules] {c : Nat} {conn : Conn}

end

end

end Relay

namespace Ideal

open Relay

/-! ### A key that is handed out -/

def freshKey : OneTimeKey := ⟨"k1", Crates.b64Encode (publicKey 3 7).bytes⟩

/-- Alice's connection, and a table of one-time keys. -/
def aliceWith (rows : List PrekeyRow) : System :=
  { System.initial twoUsers with store := { twoUsers with prekeys := rows } }.put 1 aliceOnline

/-- Alice publishes a key, and is told that it is stored. -/
theorem freshKey_acknowledged (rows : List PrekeyRow)
    (fits : (aliceWith rows).store.countUnusedPrekeys "alice" + [freshKey].length ≤
      maxUnusedPrekeys) :
    ∃ sys log, Prog.Runs (Prog.logged (Relay.Ask.onSystem 1))
      (handle 1 openConfig aliceOnline.state (some (.publishPrekeys [freshKey])))
        (aliceWith rows, [])
      (.ok aliceOnline.state) (sys, log) ∧ Relay.Ask.trySend (.ok none) ∈ log ∧
      sys.store = ((aliceWith rows).store.publishPrekeys "alice" [freshKey]).2 := by
  have accepted : ((aliceWith rows).store.publishPrekeys "alice" [freshKey]).1 = .ok := by
    rw [Store.publishPrekeys, if_neg (Nat.not_lt.mpr fits)]
  have allowed : (Relay.Ask.allow .prekey).onSystem 1 (aliceWith rows) true
      ((aliceWith rows).note 1 (.allow .prekey) true) := ⟨_, rfl, rfl⟩
  obtain ⟨sys, published⟩ : ∃ sys, (Relay.Ask.call (.publishPrekeys "alice" [freshKey])).onSystem 1
      ((aliceWith rows).note 1 (.allow .prekey) true) PubResult.ok sys :=
        ⟨_, _, ⟨accepted.symm, rfl⟩, rfl⟩
  obtain ⟨told, sys', answered⟩ : ∃ told sys', (Relay.Ask.trySend (.ok none)).onSystem 1 sys
      told sys' :=
    ⟨_, _, _, rfl, rfl⟩
  refine ⟨sys', [.trySend (.ok none), .call (.publishPrekeys "alice" [freshKey]),
    .allow .prekey], ?_,
    List.mem_cons_self, ?_⟩
  · unfold handle
    show Prog.Runs _ ((publishPrekeys aliceOnline.state [freshKey]).bind fun _ =>
      Prog.done aliceOnline.state) _ _ _
    unfold publishPrekeys
    have first : Prog.logged (Relay.Ask.onSystem 1) (.allow .prekey) (aliceWith rows, []) true
      ((aliceWith rows).note 1 (.allow .prekey) true, [.allow .prekey]) := ⟨allowed, rfl⟩
    refine .ask first ?_
    have second : Prog.logged (Relay.Ask.onSystem 1) (.call (.publishPrekeys "alice" [freshKey]))
      ((aliceWith rows).note 1 (.allow .prekey) true, [.allow .prekey]) PubResult.ok
      (sys, [.call (.publishPrekeys "alice" [freshKey]), .allow .prekey]) := ⟨published, rfl⟩
    refine .ask second ?_
    have third : Prog.logged (Relay.Ask.onSystem 1) (.trySend (.ok none))
      (sys, [.call (.publishPrekeys "alice" [freshKey]), .allow .prekey]) told
      (sys', [.trySend (.ok none), .call (.publishPrekeys "alice" [freshKey]), .allow .prekey]) :=
        ⟨answered, rfl⟩
    exact .ask third (.done _ _)
  · have stored := (Ask.onSystem_store published).2
    exact (Ask.onSystem_store answered : sys'.store = sys.store).trans stored

/-- With an empty table the key is stored. -/
theorem freshKey_stored : ∃ sys log, Prog.Runs (Prog.logged (Relay.Ask.onSystem 1))
    (handle 1 openConfig aliceOnline.state (some (.publishPrekeys [freshKey]))) (aliceWith [], [])
    (.ok aliceOnline.state) (sys, log) ∧ ∀ k ∈ [freshKey], sys.store.Holds "alice" k := by
  obtain ⟨sys, log, runs, acknowledged, _⟩ := freshKey_acknowledged [] (by decide)
  refine ⟨sys, log, runs, (published_stored rfl runs acknowledged).mpr fun k member => ?_⟩
  obtain rfl := List.mem_singleton.mp member
  exact .inr ⟨nofun, freshKey, rfl, rfl⟩

/-- Alice's key of the same id, from before she restored her identity. -/
def oldRow : PrekeyRow := ⟨"alice", "k1", Crates.b64Encode (publicKey 3 6).bytes, false⟩

/-- Alice has restored her identity, and numbers her keys from the start again. The relay says that
it has stored the new key, and goes on to hand out the old one. -/
theorem old_key_kept :
    ¬ ∀ (c : Nat) (config : ServerConfig) (state : ConnState) (otks : List OneTimeKey)
    (user : String),
      state.authed = some user → ∀ (sys sys' : System) (log : List Relay.Ask)
      (result : Except Unit ConnState),
      Prog.Runs (Prog.logged (Relay.Ask.onSystem c)) (handle c config state
        (some (.publishPrekeys otks)))
        (sys, []) result (sys', log) → Relay.Ask.trySend (.ok none) ∈ log →
      ∀ k ∈ otks, sys'.store.Holds user k := by
  intro law
  obtain ⟨sys, log, runs, acknowledged, stored⟩ := freshKey_acknowledged [oldRow] (by decide)
  obtain ⟨row, member, _, curve⟩ := law 1 openConfig aliceOnline.state [freshKey] "alice" rfl _ sys
      log _ runs
    acknowledged freshKey List.mem_cons_self
  have kept : sys.store.prekeys = [oldRow] := by
    rw [stored]
    decide
  rw [kept] at member
  obtain rfl := List.mem_singleton.mp member
  have different : oldRow.curve25519 ≠ freshKey.curve25519 := by decide +kernel
  exact different curve

end Ideal

end Cherm
