/-
**Invite keys: what minting one does to the table of groups.**

`createGroupRowWith` is `create_group_row` with the closure that supplies its candidates, a function
of a hidden state, and with the errors the database may raise beside a constraint. For a closure that
reads a stream off, and no such error, it is the helper the client calls (`createGroupRow_eq`).

* `tryInsertGroup_cases` — the three ends of one insert; only the first of them writes.
* `createGroupRowWith_outcome` — the three ends of the loop, by induction on the tries left.
* `createGroupRow_minted` — the law: an answer is the key of the group's row, and nothing else has
  changed; an error leaves the vault alone; the closure is called 64 times at most.
-/

import Cherm.Vault
import Mathlib.Logic.Function.Iterate

namespace Cherm

/-- The errors the database raises while a key is minted: by the insert of an attempt, and by the
read that follows a conflict on the group. -/
structure MintErrors where
  insert : Nat → Option String
  read : Option String

/-- No error. -/
def MintErrors.none : MintErrors := ⟨fun _ => Option.none, Option.none⟩

namespace Vault

variable {σ : Type}

/-- The state of the closure after a number of calls. -/
def called (gen : σ → String × σ) (calls : Nat) (state : σ) : σ := (fun s => (gen s).2)^[calls] state

/-- The key that the closure supplies after a number of calls. -/
def candidate (gen : σ → String × σ) (state : σ) (calls : Nat) : String :=
  (gen (called gen calls state)).1

theorem called_succ (gen : σ → String × σ) (calls : Nat) (state : σ) :
    called gen (calls + 1) state = called gen calls (gen state).2 :=
  Function.iterate_succ_apply _ calls state

variable [Crates]

/-- `create_group_row` with the closure `gen` and its state. -/
def createGroupRowWith (v : Vault) (groupId mode owner : String) (gen : σ → String × σ)
    (errors : MintErrors) : (tries attempt : Nat) → σ → Except String String × Vault × σ
  | 0, _, state => (.error "could not mint a unique group key after 64 tries", v, state)
  | tries + 1, attempt, state =>
      match gen state with
      | (key, state') =>
          match errors.insert attempt with
          | some err => (.error err, v, state')
          | none =>
              match v.tryInsertGroup groupId key mode owner with
              | (.inserted, v') => (.ok key, v', state')
              | (.groupExists, v') =>
                  match errors.read with
                  | some err => (.error err, v', state')
                  | none =>
                      match v'.getGroupMeta groupId with
                      | some row => (.ok row.groupKey, v', state')
                      | none => (.error "group row missing after conflict", v', state')
              | (.keyTaken, v') =>
                  createGroupRowWith v' groupId mode owner gen errors tries (attempt + 1) state'

/-- No two groups have the same invite key. -/
def KeysDistinct (v : Vault) : Prop :=
  ∀ first second row row', v.groups.get first = some row → v.groups.get second = some row' →
    row.groupKey = row'.groupKey → first = second

/-! ### One attempt -/

theorem keyTaken_iff {v : Vault} {groupId key : String} :
    v.keyTaken groupId key = true ↔
      ∃ id row, id ≠ groupId ∧ v.groups.get id = some row ∧ row.groupKey = key := by
  unfold keyTaken
  rw [List.any_eq_true]
  constructor
  · rintro ⟨⟨id, row⟩, member, taken⟩
    have both : id ≠ groupId ∧ row.groupKey = key := by simpa using taken
    exact ⟨id, row, both.1, Table.mem_rows.mp member, both.2⟩
  · rintro ⟨id, row, other, found, same⟩
    exact ⟨(id, row), Table.mem_rows.mpr found, by simp [other, same]⟩

/-- **The ends of one insert**: the group has a row, another group has the key, or neither and the
row is written. -/
theorem tryInsertGroup_cases (v : Vault) (groupId key mode owner : String) :
    (∃ row, v.groups.get groupId = some row ∧
      v.tryInsertGroup groupId key mode owner = (.groupExists, v)) ∨
    (v.groups.get groupId = none ∧ v.keyTaken groupId key = true ∧
      v.tryInsertGroup groupId key mode owner = (.keyTaken, v)) ∨
    (v.groups.get groupId = none ∧ v.keyTaken groupId key = false ∧
      v.tryInsertGroup groupId key mode owner
        = (.inserted, { v with groups := v.groups.put groupId ⟨key, mode, owner⟩ })) := by
  unfold tryInsertGroup
  cases found : v.groups.get groupId with
  | some row => exact .inl ⟨row, rfl, by simp⟩
  | none =>
      cases taken : v.keyTaken groupId key with
      | true => exact .inr (.inl ⟨rfl, rfl, by simp⟩)
      | false => exact .inr (.inr ⟨rfl, rfl, by simp⟩)

/-- A key that no other group has keeps the keys distinct. -/
theorem KeysDistinct.put {v : Vault} {groupId key mode owner : String} (distinct : v.KeysDistinct)
    (isFree : v.keyTaken groupId key = false) :
    KeysDistinct { v with groups := v.groups.put groupId ⟨key, mode, owner⟩ } := by
  have noOther : ∀ id row, v.groups.get id = some row → row.groupKey = key → id = groupId := by
    intro id row found same
    by_contra other
    have taken := keyTaken_iff.mpr ⟨id, row, other, found, same⟩
    rw [isFree] at taken
    cases taken
  intro first second row row' atFirst atSecond same
  rw [Table.get_put] at atFirst atSecond
  split at atFirst
  · next isFirst =>
      cases atFirst
      split at atSecond
      · next isSecond => rw [isFirst, isSecond]
      · exact isFirst.trans (noOther second row' atSecond same.symm).symm
  · split at atSecond
    · next isSecond =>
        cases atSecond
        exact (noOther first row atFirst same).trans isSecond.symm
    · exact distinct first second row row' atFirst atSecond same

/-! ### The loop -/

/-- The ends of the loop, with the vault it leaves: an error, the key the group had, or a new one. -/
inductive MintOutcome (v : Vault) (groupId mode owner : String) :
    Except String String → Vault → Prop where
  | failed (err : String) : MintOutcome v groupId mode owner (.error err) v
  | known (row : GroupMeta) (found : v.groups.get groupId = some row) :
      MintOutcome v groupId mode owner (.ok row.groupKey) v
  | minted (key : String) (isNew : v.groups.get groupId = none)
      (isFree : v.keyTaken groupId key = false) :
      MintOutcome v groupId mode owner (.ok key)
        { v with groups := v.groups.put groupId ⟨key, mode, owner⟩ }

theorem createGroupRowWith_outcome (v : Vault) (groupId mode owner : String)
    (gen : σ → String × σ) (errors : MintErrors) (tries attempt : Nat) (state : σ) :
    v.MintOutcome groupId mode owner
      (v.createGroupRowWith groupId mode owner gen errors tries attempt state).1
      (v.createGroupRowWith groupId mode owner gen errors tries attempt state).2.1 := by
  induction tries generalizing attempt state with
  | zero => exact .failed _
  | succ tries ih =>
      unfold createGroupRowWith
      cases errors.insert attempt with
      | some err => exact .failed err
      | none =>
          obtain ⟨row, found, inserted⟩ | ⟨_, _, inserted⟩ | ⟨isNew, isFree, inserted⟩ :=
            v.tryInsertGroup_cases groupId (gen state).1 mode owner
          · simp only [inserted]
            cases errors.read with
            | some err => exact .failed err
            | none =>
                simp only [getGroupMeta, found]
                exact .known row found
          · simp only [inserted]
            exact ih (attempt + 1) (gen state).2
          · simp only [inserted]
            exact .minted _ isNew isFree

/-- The closure is called once for each try at most. -/
theorem createGroupRowWith_calls (v : Vault) (groupId mode owner : String)
    (gen : σ → String × σ) (errors : MintErrors) (tries attempt : Nat) (state : σ) :
    ∃ calls ≤ tries, (v.createGroupRowWith groupId mode owner gen errors tries attempt state).2.2
      = called gen calls state := by
  induction tries generalizing attempt state with
  | zero => exact ⟨0, le_refl 0, rfl⟩
  | succ tries ih =>
      have once : ∃ calls ≤ tries + 1, (gen state).2 = called gen calls state :=
        ⟨1, Nat.le_add_left 1 tries, rfl⟩
      unfold createGroupRowWith
      cases errors.insert attempt with
      | some err => exact once
      | none =>
          obtain ⟨row, found, inserted⟩ | ⟨_, _, inserted⟩ | ⟨_, _, inserted⟩ :=
            v.tryInsertGroup_cases groupId (gen state).1 mode owner
          · simp only [inserted]
            cases errors.read with
            | some err => exact once
            | none =>
                simp only [getGroupMeta, found]
                exact once
          · simp only [inserted]
            obtain ⟨calls, few, same⟩ := ih (attempt + 1) (gen state).2
            exact ⟨calls + 1, Nat.succ_le_succ few, by rw [same, called_succ]⟩
          · simp only [inserted]
            exact once

/-- Without a database error, a group that has no row gets an error only when every candidate is
taken. -/
theorem createGroupRowWith_exhausted (v : Vault) (groupId mode owner : String)
    (gen : σ → String × σ) (tries attempt : Nat) (state : σ) (err : String)
    (failed : (v.createGroupRowWith groupId mode owner gen .none tries attempt state).1
      = .error err) :
    ∀ calls < tries, v.keyTaken groupId (candidate gen state calls) = true := by
  induction tries generalizing attempt state with
  | zero => exact fun calls few => absurd few (Nat.not_lt_zero calls)
  | succ tries ih =>
      unfold createGroupRowWith at failed
      simp only [MintErrors.none] at failed
      obtain ⟨row, found, inserted⟩ | ⟨_, taken, inserted⟩ | ⟨_, _, inserted⟩ :=
        v.tryInsertGroup_cases groupId (gen state).1 mode owner
      · simp only [inserted, getGroupMeta, found] at failed
        cases failed
      · simp only [inserted] at failed
        intro calls few
        cases calls with
        | zero => exact taken
        | succ calls =>
            have later := ih (attempt + 1) (gen state).2 failed calls (Nat.lt_of_succ_lt_succ few)
            unfold candidate at later ⊢
            rwa [called_succ]
      · simp only [inserted] at failed
        cases failed

/-- The helper that reads a stream off. -/
theorem createGroupRowFrom_eq (v : Vault) (groupId mode owner : String) (gen : σ → String × σ)
    (state : σ) (tries attempt : Nat) :
    v.createGroupRowFrom groupId mode owner (candidate gen state) tries attempt
      = ((v.createGroupRowWith groupId mode owner gen .none tries attempt
            (called gen attempt state)).1,
          (v.createGroupRowWith groupId mode owner gen .none tries attempt
            (called gen attempt state)).2.1) := by
  induction tries generalizing attempt with
  | zero => rfl
  | succ tries ih =>
      have next : (gen (called gen attempt state)).2 = called gen (attempt + 1) state :=
        (Function.iterate_succ_apply' (fun s => (gen s).2) attempt state).symm
      unfold createGroupRowFrom createGroupRowWith
      simp only [MintErrors.none, candidate]
      obtain ⟨row, found, inserted⟩ | ⟨_, _, inserted⟩ | ⟨_, _, inserted⟩ :=
        v.tryInsertGroup_cases groupId (gen (called gen attempt state)).1 mode owner
      · simp only [inserted, getGroupMeta, found]
      · simp only [inserted, next]
        exact ih (attempt + 1)
      · simp only [inserted]

/-- **The client's helper is the source's loop**, for the stream of what the closure supplies. -/
theorem createGroupRow_eq (v : Vault) (groupId mode owner : String) (gen : σ → String × σ)
    (state : σ) :
    v.createGroupRow groupId mode owner (candidate gen state)
      = ((v.createGroupRowWith groupId mode owner gen .none 64 0 state).1,
          (v.createGroupRowWith groupId mode owner gen .none 64 0 state).2.1) :=
  v.createGroupRowFrom_eq groupId mode owner gen state 64 0

/-! ### The law -/

/-- **The law**: what minting a key for a group may answer, and what it leaves. -/
structure RowMinted (v : Vault) (groupId mode owner : String) (gen : σ → String × σ)
    (errors : MintErrors) (state : σ) (result : Except String String) (v' : Vault) (state' : σ) :
    Prop where
  answered : ∀ key, result = .ok key →
    ∃ row, v'.groups.get groupId = some row ∧ row.groupKey = key ∧
      (v.groups.get groupId = none → row = ⟨key, mode, owner⟩)
  failed : ∀ err, result = .error err → v' = v
  onlyGroups : v' = { v with groups := v'.groups }
  others : ∀ id, id ≠ groupId → v'.groups.get id = v.groups.get id
  distinct : v.KeysDistinct → v'.KeysDistinct
  kept : ∀ row, v.groups.get groupId = some row →
    v' = v ∧ (∀ key, result = .ok key → key = row.groupKey) ∧
      (errors = .none → result = .ok row.groupKey)
  calls : ∃ calls ≤ 64, state' = called gen calls state
  exhausted : errors = .none → ∀ err, result = .error err →
    ∀ calls < 64, v.keyTaken groupId (candidate gen state calls) = true

/-- **Minting a key keeps the law**, for every table, every closure and every database error. -/
theorem createGroupRow_minted (v : Vault) (groupId mode owner : String) (gen : σ → String × σ)
    (errors : MintErrors) (state : σ) :
    v.RowMinted groupId mode owner gen errors state
      (v.createGroupRowWith groupId mode owner gen errors 64 0 state).1
      (v.createGroupRowWith groupId mode owner gen errors 64 0 state).2.1
      (v.createGroupRowWith groupId mode owner gen errors 64 0 state).2.2 := by
  have calls := v.createGroupRowWith_calls groupId mode owner gen errors 64 0 state
  have exhausted : errors = .none → ∀ err,
      (v.createGroupRowWith groupId mode owner gen errors 64 0 state).1 = .error err →
      ∀ calls < 64, v.keyTaken groupId (candidate gen state calls) = true := by
    rintro rfl err
    exact v.createGroupRowWith_exhausted groupId mode owner gen 64 0 state err
  -- a group with a row never gets an error of its own: its candidates are not even compared
  have answersKnown : errors = .none → ∀ row, v.groups.get groupId = some row →
      (v.createGroupRowWith groupId mode owner gen errors 64 0 state).1 = .ok row.groupKey := by
    rintro rfl row found
    unfold createGroupRowWith tryInsertGroup
    simp [MintErrors.none, getGroupMeta, found]
  have outcome := v.createGroupRowWith_outcome groupId mode owner gen errors 64 0 state
  generalize (v.createGroupRowWith groupId mode owner gen errors 64 0 state).1 = result at *
  generalize (v.createGroupRowWith groupId mode owner gen errors 64 0 state).2.1 = v' at *
  cases outcome with
  | failed err =>
      refine ⟨nofun, fun _ _ => rfl, rfl, fun _ _ => rfl, id, fun row found => ?_, calls,
        exhausted⟩
      exact ⟨rfl, nofun, fun noError => answersKnown noError row found⟩
  | known row found =>
      refine ⟨?_, nofun, rfl, fun _ _ => rfl, id, fun row' found' => ?_, calls, exhausted⟩
      · rintro key ⟨rfl⟩
        refine ⟨row, found, rfl, fun absent => ?_⟩
        rw [found] at absent
        cases absent
      · obtain rfl : row = row' := Option.some.inj (found.symm.trans found')
        refine ⟨rfl, ?_, fun _ => rfl⟩
        rintro key ⟨rfl⟩
        rfl
  | minted key isNew isFree =>
      refine ⟨?_, nofun, rfl, fun id other => ?_, fun distinct => distinct.put isFree,
        fun row found => ?_, calls, exhausted⟩
      · rintro key' ⟨rfl⟩
        exact ⟨_, by rw [Table.get_put, if_pos rfl], rfl, fun _ => rfl⟩
      · rw [Table.get_put, if_neg other]
      · rw [isNew] at found
        cases found

end Vault

end Cherm
