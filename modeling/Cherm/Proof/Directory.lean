/-
**The directory, and what refers to it.**

The tables have no foreign keys: names and keys are distinct because a registration looks for them
under the same lock, they are well formed because the handler checks them before it takes the lock,
and a row in the outbox or among the prekeys belongs to a user because somebody has looked the user
up, or logged in, before.

* `Integrity` is what holds of the tables.
* `Integrity.exec`: a request that meets its duty keeps it.
* `directory_integrity` is the result, with `users_kept` and `register_refused`.
-/

import Cherm.Proof.CopiesKept
import Cherm.Relay.Duties

namespace Cherm

namespace Relay

open Crates

theorem insertPrekey_rows {store : Store} {username keyId curve25519 : String} {row : PrekeyRow}
    (member : row ∈ (store.insertPrekey username keyId curve25519).prekeys) :
    row ∈ store.prekeys ∨ row = ⟨username, keyId, curve25519, false⟩ := by
  unfold Store.insertPrekey at member
  split at member
  · exact .inl member
  · exact (List.mem_append.mp member).imp_right List.mem_singleton.mp

/-- A published batch adds rows of its user, of its keys. -/
theorem publishPrekeys_rows {store : Store} {username : String} {otks : List OneTimeKey}
    {row : PrekeyRow}
    (member : row ∈ (store.publishPrekeys username otks).2.prekeys) :
    row ∈ store.prekeys ∨ ∃ k ∈ otks, row = ⟨username, k.keyId, k.curve25519, false⟩ := by
  have inserted : ∀ (otks : List OneTimeKey) {store : Store}, row ∈ (otks.foldl (fun store k =>
      store.insertPrekey username k.keyId k.curve25519) store).prekeys →
        row ∈ store.prekeys ∨ ∃ k ∈ otks, row = ⟨username, k.keyId, k.curve25519, false⟩ := by
    intro otks
    induction otks with
    | nil => exact fun member => .inl member
    | cons k rest ih =>
        intro store member
        rcases ih member with earlier | ⟨k', later, same⟩
        · refine (insertPrekey_rows earlier).imp_right fun new => ⟨k, List.mem_cons_self, new⟩
        · exact .inr ⟨k', List.mem_cons_of_mem _ later, same⟩
  unfold Store.publishPrekeys at member
  split at member
  · exact .inl member
  · exact inserted otks member

/-- Using up a key leaves its user. -/
theorem claim_rows {username : String} {rows rows' : List PrekeyRow} {key : String × String}
    (claimed : Store.claim username rows = some (key, rows')) :
    rows'.map PrekeyRow.username = rows.map PrekeyRow.username := by
  induction rows generalizing rows' with
  | nil => cases claimed
  | cons row rest ih =>
      unfold Store.claim at claimed
      split at claimed
      · obtain ⟨_, rfl⟩ := Prod.mk.inj (Option.some.inj claimed)
        rfl
      · obtain ⟨⟨other, rest'⟩, later, same⟩ := Option.map_eq_some_iff.mp claimed
        obtain ⟨rfl, rfl⟩ := Prod.mk.inj same
        rw [List.map_cons, List.map_cons, ih later]

theorem fetchBundle_owners {store : Store} {username : String} {row : PrekeyRow}
    (member : row ∈ (store.fetchBundle username).2.prekeys) :
    ∃ old ∈ store.prekeys, old.username = row.username := by
  have kept : row ∈ store.prekeys → ∃ old ∈ store.prekeys, old.username = row.username :=
    fun member => ⟨row, member, rfl⟩
  unfold Store.fetchBundle Store.takePrekey at member
  split at member
  · exact kept member
  · dsimp only at member
    split at member
    · next claimed =>
      have owner := List.mem_map_of_mem (f := PrekeyRow.username) member
      rw [claim_rows claimed] at owner
      obtain ⟨old, inside, same⟩ := List.mem_map.mp owner
      exact ⟨old, inside, same⟩
    · exact kept member

/-- The requests of a task, each on the store as the others have left it; what it did there is
noted. -/
def Ask.amid : Prog.Step (List (Store × Store)) Ask Ask.Answer := fun request log answer log' =>
  ∃ store store', request.OnStore store answer store' ∧ log' = log ++ [(store, store')]

/-- Nothing that is noted has changed the store. -/
def Untouched (log : List (Store × Store)) : Prop := ∀ entry ∈ log, entry.2 = entry.1

/-- If nobody is logged in by it, it has changed nothing. -/
def RefusedOr (before : Option String) (result : Except Unit ConnState)
    (log : List (Store × Store)) : Prop :=
  ∀ state, result = .ok state → state.authed = before → Untouched log

abbrev amidSpec : Prog.Spec (List (Store × Store)) Ask Ask.Answer := .free Ask.amid

theorem wp_untouched {α : Type} {request : Ask} {next : request.Answer → Task α}
    {post : Except Unit α → List (Store × Store) → Prop} {log : List (Store × Store)}
    (before : Untouched log)
    (reads : ∀ store answer store', request.OnStore store answer store' → store' = store)
    (rest : ∀ answer log', Untouched log' → Prog.wp amidSpec post (next answer) log') :
    Prog.wp amidSpec post (.ask request next) log := by
  refine ⟨trivial, ?_⟩
  rintro answer _ ⟨store, store', made, rfl⟩
  refine rest answer _ fun entry member => ?_
  rcases List.mem_append.mp member with old | new
  · exact before entry old
  · rw [List.mem_singleton.mp new]
    exact reads store answer store' made

theorem wp_refusal {state : ConnState} {log : List (Store × Store)} (before : Untouched log)
    (msg : ServerMsg)
    (who : Option String) :
    Prog.wp amidSpec (RefusedOr who) ((reply msg).bind fun _ => Prog.done state) log :=
  wp_untouched before (fun _ _ _ made => made) fun _ _ after _ _ _ => after

section

variable [Crates]

/-- The bytes of a user's key. -/
def UserRow.key (row : UserRow) : Option Bytes := (b64Decode row.record.ed25519).toOption

/-- Names and keys are well formed and distinct, and every row belongs to a user. -/
structure Integrity (store : Store) : Prop where
  names : (store.users.map fun row => row.record.username).Nodup
  valid : ∀ row ∈ store.users, validUsername row.record.username = true ∧
    isReservedUsername row.record.username = false
  keys : store.users.Pairwise fun row row' => row.key ≠ row'.key
  whole : ∀ row ∈ store.users, ∃ bytes, row.key = some bytes ∧ bytes.length = 32
  recipients : ∀ row ∈ store.outbox, Enrolled store.users row.recipient
  owners : ∀ row ∈ store.prekeys, Enrolled store.users row.username

theorem Integrity.empty : Integrity Store.empty where
  names := List.nodup_nil
  valid row member := by cases member
  keys := List.Pairwise.nil
  whole row member := by cases member
  recipients row member := by cases member
  owners row member := by cases member

/-! ### Single requests -/

theorem validPubkey_bytes {text : String} (valid : validPubkeyB64 text = true) :
    ∃ bytes, b64Decode text = .ok bytes ∧ bytes.length = 32 := by
  have decoded := (Bool.and_eq_true_iff.mp valid).2
  split at decoded
  · next bytes read => exact ⟨bytes, read, of_decide_eq_true decoded⟩
  · cases decoded

/-- A text is the only one of its bytes. -/
theorem key_text {row row' : UserRow} {bytes : Bytes} (first : row.key = some bytes)
    (second : row'.key = some bytes) : row.record.ed25519 = row'.record.ed25519 := by
  have text : ∀ {row : UserRow}, row.key = some bytes →
      row.record.ed25519 = Base64.encode bytes := by
    intro row key
    unfold UserRow.key at key
    cases decoded : b64Decode row.record.ed25519 with
    | error e =>
        rw [decoded] at key
        cases key
    | ok other =>
        rw [decoded] at key
        obtain rfl := Option.some.inj key
        exact (b64Decode_ok_iff _ _).mp decoded
  rw [text first, text second]

/-- A change of other tables. -/
theorem Integrity.same {store store' : Store} (integrity : Integrity store)
    (users : store'.users = store.users)
    (outbox : ∀ row ∈ store'.outbox, row ∈ store.outbox ∨ Enrolled store.users row.recipient)
    (prekeys : ∀ row ∈ store'.prekeys, (∃ old ∈ store.prekeys, old.username = row.username) ∨
      Enrolled store.users row.username) : Integrity store' where
  names := users.symm ▸ integrity.names
  valid := users.symm ▸ integrity.valid
  keys := users.symm ▸ integrity.keys
  whole := users.symm ▸ integrity.whole
  recipients row member := by
    rw [users]
    exact (outbox row member).elim (integrity.recipients row) id
  owners row member := by
    rw [users]
    rcases prekeys row member with ⟨old, inside, same⟩ | enrolled
    · exact same ▸ integrity.owners old inside
    · exact enrolled

/-- A user is added. -/
theorem Integrity.registered {store : Store} (integrity : Integrity store) {row : UserRow}
    (valid : validUsername row.record.username = true ∧
      isReservedUsername row.record.username = false)
    (key : validPubkeyB64 row.record.ed25519 = true) (fresh :
      ¬ Enrolled store.users row.record.username)
    (unknown : ∀ other ∈ store.users, other.record.ed25519 ≠ row.record.ed25519) :
    Integrity { store with users := store.users ++ [row] } := by
  obtain ⟨bytes, decoded, size⟩ := validPubkey_bytes key
  have own : row.key = some bytes := by rw [UserRow.key, decoded]; rfl
  refine ⟨?_, fun other member => ?_, ?_, fun other member => ?_, fun other member =>
    ?_, fun other member => ?_⟩
  · show ((store.users ++ [row]).map _).Nodup
    rw [List.map_append]
    refine integrity.names.append (List.nodup_singleton _)
      (List.disjoint_singleton.mpr fun member => ?_)
    obtain ⟨other, inside, same⟩ := List.mem_map.mp member
    exact fresh ⟨other, inside, same⟩
  · rcases List.mem_append.mp member with old | new
    · exact integrity.valid other old
    · rw [List.mem_singleton.mp new]
      exact valid
  · refine List.pairwise_append.mpr ⟨integrity.keys, List.pairwise_singleton ..,
      fun other inside new member same => ?_⟩
    obtain rfl := List.mem_singleton.mp member
    exact unknown other inside (key_text (same.trans own) own)
  · rcases List.mem_append.mp member with old | new
    · exact integrity.whole other old
    · rw [List.mem_singleton.mp new]
      exact ⟨bytes, own, size⟩
  · exact (integrity.recipients other member).append [row]
  · exact (integrity.owners other member).append [row]

/-- **One request**, where its duty is met and whoever speaks is registered. -/
theorem Integrity.exec {store : Store} (integrity : Integrity store) {c : Nat} {op : StoreOp}
    {l : Desk}
    (users : l.users = store.users) (duty : Duty c (.call op) l)
    (speaker : ∀ username, l.user = some username → Enrolled store.users username) :
    Integrity (op.exec store).2 := by
  cases op with
  | registerUser username ed25519 curve25519 machineId uuid now =>
      obtain ⟨unreserved, valid, key, _⟩ := duty
      show Integrity (store.registerUser username ed25519 curve25519 machineId uuid now).2
      rcases registerUser_cases store username ed25519 curve25519 machineId uuid now with
        ⟨_, refused⟩ | ⟨fresh, unknown, added⟩
      · rw [refused]
        exact integrity
      · rw [added]
        exact integrity.registered ⟨valid, unreserved⟩ key fresh unknown
  | publishPrekeys username otks =>
      obtain ⟨prekeys, same⟩ := publishPrekeys_frame store username otks
      have kept := congrArg Store.users same
      have outbox := congrArg Store.outbox same
      refine integrity.same kept (fun row member => .inl (outbox ▸ member)) fun row member => ?_
      rcases publishPrekeys_rows member with old | ⟨k, _, rfl⟩
      · exact .inl ⟨row, old, rfl⟩
      · exact .inr (speaker username duty)
  | fetchBundle username =>
      have reads : ¬ (StoreOp.fetchBundle username).OutboxOp := id
      have tables := exec_outbox reads store
      have kept : (store.fetchBundle username).2.users = store.users := by
        unfold Store.fetchBundle Store.takePrekey
        split
        · rfl
        · dsimp only
          split <;> rfl
      refine integrity.same kept (fun row member => .inl (tables.1 ▸ member)) fun row member => ?_
      exact .inl (fetchBundle_owners member)
  | enqueue recipient frame ts =>
      have enrolled : Enrolled store.users recipient := users ▸ duty
      show Integrity (store.enqueueIfUnderCap recipient frame ts).2
      rcases store.enqueueIfUnderCap_cases recipient frame ts with result | result
      · rw [result]
        exact integrity
      · rw [result]
        refine integrity.same rfl (fun row member => ?_) fun row member => .inl ⟨row, member, rfl⟩
        rcases List.mem_append.mp member with old | new
        · exact .inl old
        · rw [List.mem_singleton.mp new]
          exact .inr enrolled
  | deleteFrames ids =>
      exact integrity.same rfl (fun row member => .inl (List.mem_filter.mp member).1)
        fun row member => .inl ⟨row, member, rfl⟩
  | goOnline username conn =>
      exact integrity.same rfl (fun row member => .inl member) fun row member =>
        .inl ⟨row, member, rfl⟩
  | goOffline username conn =>
      show Integrity (store.goOffline username conn)
      unfold Store.goOffline
      split
      · exact integrity.same rfl (fun row member => .inl member) fun row member =>
          .inl ⟨row, member, rfl⟩
      · exact integrity
  | _ => exact integrity

/-! ### Runs -/

/-- The tables are in order, and whoever a connection speaks for is registered. -/
structure Sound (sys : System) : Prop where
  integrity : Integrity sys.store
  speakers : ∀ c username, (sys.conns c).ledger.user = some username →
  Enrolled sys.store.users username

/-- The connections may change, but not whom they speak for. -/
theorem Sound.update {sys : System} (sound : Sound sys) (c : Nat) {f : Conn → Conn}
    (ledger : (f (sys.conns c)).ledger = (sys.conns c).ledger) : Sound (sys.update c f) where
  integrity := sound.integrity
  speakers d username user := by
    rw [sys.update_keeps c Conn.ledger ledger d] at user
    exact sound.speakers d username user

theorem Sound.act {c : Nat} {request : Ask} {sys sys' : System} {answer : request.Answer}
    (sound : Sound sys)
    (duty : Duty c request (sys.desk c)) (made : request.onSystem c sys answer sys') :
      Sound sys' := by
  have onStore := Ask.onSystem_store made
  have grown := users_grow onStore
  refine ⟨?_, fun d username user => ?_⟩
  · cases request with
    | call op =>
        obtain ⟨_, same⟩ := onStore
        rw [same]
        exact sound.integrity.exec rfl duty (sound.speakers c)
    | _ =>
        have same : sys'.store = sys.store := onStore
        rw [same]
        exact sound.integrity
  · by_cases mine : d = c
    · subst mine
      rw [Ask.onSystem_own made, after_speaker] at user
      have before : ∀ {user' : Option String}, (sys.conns d).ledger.user = user' →
          user' = some username →
          Enrolled sys'.store.users username := fun {user'} is named =>
        (sound.speakers d username (is.trans named)).grows grown
      cases request with
      | call op =>
          cases op with
          | goOnline name conn =>
              obtain rfl : name = username := Option.some.inj user
              exact (duty.2.2.2 : Enrolled sys.store.users name).grows grown
          | _ => exact before rfl user
      | _ => exact before rfl user
    · rw [Ask.onSystem_other made d mine] at user
      exact (sound.speakers d username user).grows grown

theorem Sound.drift {rules : Rules} {sys sys' : System} (sound : Sound sys)
    (drifts : Drift rules sys sys') :
    Sound sys' := by
  cases drifts with
  | @accept c fresh =>
      exact sound.update c (f := fun conn => { conn with life := .open, alive := true }) rfl
  | @take c entry rest alive idle first =>
      exact sound.update c (f := fun conn => { conn with chan := rest, writing := some entry }) rfl
  | @write c entry busy =>
      have written := sound.update c (f := fun conn => { conn with writing := none }) rfl
      exact ⟨written.integrity, written.speakers⟩
  | @stop c alive allowed =>
      exact sound.update c
        (f := fun conn => { conn with alive := false, chan := [], writing := none }) rfl
  | prune =>
      refine ⟨sound.integrity.same rfl (fun row member => .inl (List.mem_filter.mp member).1)
        fun row member => .inl ⟨row, member, rfl⟩, sound.speakers⟩

theorem sound_reached {config : ServerConfig} {rules : Rules} {store : Store}
    (integrity : Integrity store)
    {state : RelayState}
    (reached : Relation.ReflTransGen (relay config rules).Next (started store) state) :
      Sound state.2 := by
  refine desk_invariant (fun c request sys answer sys' sound duty made => sound.act duty made)
    (fun sys c life conn sound _ => sound.update c rfl)
      (fun sys sys' sound drifts => sound.drift drifts) ?_ reached
  refine ⟨integrity.same rfl (fun row member => .inl member) fun row member =>
    .inl ⟨row, member, rfl⟩, ?_⟩
  intro c username user
  cases user

/-- A row of the directory stays what it is and where it is. -/
theorem users_kept {config : ServerConfig} {rules : Rules}
    {state state' : RelayState}
    (later : Relation.ReflTransGen (relay config rules).Next state state') :
    state.2.store.users <+: state'.2.store.users := by
  induction later with
  | refl => exact List.prefix_refl _
  | tail _ next ih =>
      refine ih.trans ?_
      cases next with
      | start c idle begins => cases begins <;> exact List.prefix_refl _
      | move c busy made => exact users_grow (Ask.onSystem_store made.2)
      | finish c busy ends =>
          obtain ⟨_, _, rfl⟩ := ends
          exact List.prefix_refl _
      | drift drifts => exact (drift_desk drifts 0).users

/-! ### Registrations that are refused -/

theorem wp_admission (c : Nat) (state : ConnState) (uuid username : String)
    (log : List (Store × Store)) :
    Prog.wp amidSpec (RefusedOr none) (logIn c state uuid username) log := by
  refine ⟨trivial, fun _ log₁ _ => ⟨trivial, fun _ log₂ _ => ?_⟩⟩
  show Prog.wp _ _ ((flushOutbox username).bind fun _ =>
    Prog.done { state with authed := some username }) log₂
  refine Prog.wp_then (Prog.wp_free_iff.mpr fun _ _ _ => (trivial : True)) (fun _ _ _ => ?_)
    fun _ _ _ => nofun
  rintro _ ⟨⟩ nobody
  cases nobody

theorem wp_registration {c : Nat} {config : ServerConfig} {state : ConnState}
    {log : List (Store × Store)}
    (before : Untouched log) (username ed25519 curve25519 machineId : String) :
    Prog.wp amidSpec (RefusedOr state.authed) (register c config state username ed25519 curve25519
      machineId)
      log := by
  unfold register
  split
  · exact wp_refusal before _ _
  next fresh =>
  have nobody : state.authed = none := Option.not_isSome_iff_eq_none.mp fresh
  iterate 5
    split
    · exact wp_refusal before _ _
  refine wp_untouched before (fun _ _ _ made => made) fun uuid log₁ after₁ => ?_
  refine wp_untouched after₁ (fun _ _ _ made => made) fun now log₂ after₂ => ?_
  refine ⟨trivial, ?_⟩
  rintro created _ ⟨store, store', made, rfl⟩
  cases created with
  | ok given =>
      rw [nobody]
      exact wp_admission c state _ _ _
  | error e =>
      obtain ⟨failed, rfl⟩ := made
      have kept : (store.registerUser username ed25519 curve25519 machineId uuid now).2 =
          store := by
        rcases registerUser_cases store username ed25519 curve25519 machineId uuid now with
          ⟨_, refused⟩ | ⟨_, _, added⟩
        · rw [refused]
        · have added' := congrArg Prod.fst added
          cases failed.trans added'
      have after : Untouched (log₂ ++
          [(store, (store.registerUser username ed25519 curve25519 machineId uuid now).2)]) := by
        intro entry member
        rcases List.mem_append.mp member with old | new
        · exact after₂ entry old
        · rw [List.mem_singleton.mp new]
          exact kept
      cases e <;> exact wp_refusal after _ _

/-- A `Register` that logs nobody in leaves the store as it was, whatever the others do in between.
-/
theorem register_refused {c : Nat} {config : ServerConfig} {state state' : ConnState}
    {username ed25519 curve25519 machineId : String} {log : List (Store × Store)}
    (runs : Prog.Runs Ask.amid (handle c config state (some
      (.register username ed25519 curve25519 machineId)))
      [] (.ok state') log) (refused : state'.authed = state.authed) : Untouched log := by
  have nothing : Untouched [] := fun _ member => absurd member List.not_mem_nil
  have holds : Prog.wp amidSpec (RefusedOr state.authed)
      (handle c config state (some (.register username ed25519 curve25519 machineId))) [] := by
    unfold handle
    dsimp only
    split
    · refine wp_untouched nothing (fun _ _ _ made => made) fun allowed log' after => ?_
      cases allowed with
      | false => exact wp_refusal after _ _
      | true => exact wp_registration after _ _ _ _
    · exact wp_registration nothing _ _ _ _
  exact Prog.wp_free_iff.mp holds _ _ runs state' rfl refused

/-- **The directory, and what refers to it.** Whatever the connections do, and in whatever order:
the tables are in order in every state, later states have the same users and maybe more, and a
refused registration changes nothing. -/
theorem directory_integrity {config : ServerConfig} {store : Store} (integrity : Integrity store)
    {state : RelayState}
    (reached : Relation.ReflTransGen (relay config Rules.none).Next (started store) state) :
    Integrity state.2.store ∧
    (∀ state', Relation.ReflTransGen (relay config Rules.none).Next state state' →
      state.2.store.users <+: state'.2.store.users) ∧
    ∀ (c : Nat) (before after : ConnState) (username ed25519 curve25519 machineId : String)
      (log : List (Store × Store)),
      Prog.Runs Ask.amid (handle c config before (some (.register username ed25519 curve25519
        machineId))) []
        (.ok after) log → after.authed = before.authed → Untouched log :=
  ⟨(sound_reached integrity reached).integrity, fun _ => users_kept, fun _ _ _ _ _ _ _ _ =>
    register_refused⟩

end

end Relay

namespace Ideal

open Relay

theorem userRecord_key (name : String) (seed : Nat) :
    UserRow.key ⟨userRecord name seed, "", 0⟩ = some (publicKey 1 seed).bytes := by
  show (Crates.b64Decode (Crates.b64Encode _)).toOption = _
  rw [(Crates.b64Decode_ok_iff _ _).mpr (Crates.b64Encode_eq _)]
  rfl

theorem integrity_twoUsers : Integrity twoUsers where
  names := by decide
  valid := by decide
  keys := by
    refine List.pairwise_pair.mpr ?_
    rw [userRecord_key, userRecord_key]
    decide
  whole := by
    intro row member
    rcases List.mem_pair.mp member with rfl | rfl
    · exact ⟨_, userRecord_key .., PublicKey.length_eq _⟩
    · exact ⟨_, userRecord_key .., PublicKey.length_eq _⟩
  recipients row member := by cases member
  owners row member := by cases member

/-- Bob and Alice log in, and she sends him a frame. -/
theorem greeted_integrity : Integrity greeted.store :=
  (directory_integrity integrity_twoUsers (greeted_reached Rules.none fun _ _ _ => trivial)).1

end Ideal

end Cherm
