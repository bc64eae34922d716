/-
**The list of servers survives.**

Commands add servers to the list, restarts read it back from a file, and whatever stands in that
file is made into a list.

* `Neat`: the addresses are normalised and distinct. A start makes such a list of any file
  (`start_neat`), and reads back what was saved of one (`start_saved`).
* `Listed`: the list is neat, and has every server whose vault is open and the active one.
* `Saved`: it is, and as long as no write has failed a restart would bring the same list back.
* `errand_kept` and `known_servers`: every command, restart and crash keeps it, and so does a run.
* `server_stays`: a server stays in the list until it is removed.
-/

import Cherm.Client.Servers
import Cherm.Lib.Steps
import Cherm.Plugin.Ideal
import Cherm.Proof.Addresses

namespace Cherm

open Json
open ChermPlugins (asAll asAll_map orDefault_bind required_bind toVecPretty fromStr trimmed)

namespace ServerIndex

/-! ### One record -/

theorem findIdx_addrs (index : ServerIndex) (addr : String) :
    index.servers.findIdx? (·.addr = addr) = index.addrs.findIdx? (· = addr) := by
  rw [addrs, List.findIdx?_map]
  rfl

theorem map_modify {α β : Type} (f : α → β) {change : α → α} (same : ∀ x, f (change x) = f x)
    (l : List α) (i : Nat) : (l.modify i change).map f = l.map f := by
  refine List.ext_getElem? fun j => ?_
  rw [List.getElem?_map, List.getElem?_map, List.getElem?_modify]
  cases l[j]? with
  | none => rfl
  | some x => by_cases here : i = j <;> simp [here, same]

theorem modify_last {α : Type} (f : α → α) (l : List α) (x : α) :
    (l ++ [x]).modify l.length f = l ++ [f x] := by
  induction l with
  | nil => rfl
  | cons y rest ih =>
      rw [List.cons_append, List.length_cons, List.modify_succ_cons, ih]
      rfl

variable {index : ServerIndex} {addr : String} {write write' : ServerRecord → ServerRecord}

/-- A record keeps its address, and a new one is the last. -/
theorem addrs_recordMut (same : ∀ r, (write r).addr = r.addr) :
    (index.recordMut addr write).addrs =
      if addr ∈ index.addrs then index.addrs else index.addrs ++ [addr] := by
  unfold recordMut
  rw [findIdx_addrs]
  cases found : index.addrs.findIdx? (· = addr) with
  | none =>
      have absent : addr ∉ index.addrs := fun member => by
        simpa using List.findIdx?_eq_none_iff.mp found addr member
      rw [if_neg absent, addrs, List.map_append, List.map_singleton, same]
      rfl
  | some i =>
      obtain ⟨x, at', is⟩ : ∃ x, index.addrs[i]? = some x ∧ x = addr := by
        obtain ⟨inside, is, -⟩ := List.findIdx?_eq_some_iff_getElem.mp found
        exact ⟨_, List.getElem?_eq_getElem inside, of_decide_eq_true is⟩
      rw [if_pos (is ▸ List.mem_of_getElem? at')]
      exact map_modify _ same _ _

theorem mem_recordMut (same : ∀ r, (write r).addr = r.addr) {other : String} :
    other ∈ (index.recordMut addr write).addrs ↔ other = addr ∨ other ∈ index.addrs := by
  rw [addrs_recordMut same]
  split
  · next member => exact ⟨.inr, fun either => either.elim (fun is => is ▸ member) id⟩
  · rw [List.mem_append, List.mem_singleton, or_comm]

theorem mem_write {other : String} (member : other ∈ index.addrs)
    (same : ∀ r, (write r).addr = r.addr) : other ∈ (index.recordMut addr write).addrs :=
  (mem_recordMut same).mpr (.inr member)

theorem mem_ensure {other : String} (member : other ∈ index.addrs) :
    other ∈ (index.ensure addr).addrs := mem_write member fun _ => rfl

theorem mem_setAttest {other : String} (member : other ∈ index.addrs) (verdict tier : String) :
    other ∈ (index.setAttest addr verdict tier).addrs := mem_write member fun _ => rfl

theorem mem_setUsername {other : String} (member : other ∈ index.addrs) (username : String) :
    other ∈ (index.setUsername addr username).addrs := mem_write member fun _ => rfl

theorem mem_setName {other : String} (member : other ∈ index.addrs) (name : String) :
    other ∈ (index.setName addr name).addrs := by
  unfold setName
  split
  · exact member
  · exact mem_write member fun _ => rfl

theorem mem_refresh {other : String} (outcome : String → Option (String × String))
    {addrs : List String} (member : other ∈ index.addrs) :
    other ∈ (addrs.foldl (refresh outcome) index).addrs := by
  induction addrs generalizing index with
  | nil => exact member
  | cons addr rest ih =>
      rw [List.foldl_cons, refresh]
      cases outcome addr with
      | none => exact ih member
      | some found => exact ih (mem_setAttest member found.1 found.2)

/-- Two writes to one record are one. -/
theorem recordMut_recordMut (same : ∀ r, (write r).addr = r.addr) :
    (index.recordMut addr write).recordMut addr write' =
      index.recordMut addr fun r => write' (write r) := by
  unfold recordMut
  cases found : index.servers.findIdx? (·.addr = addr) with
  | none =>
      have fresh : (index.servers ++ [write ⟨addr, none, none, none, none⟩]).findIdx?
          (·.addr = addr) = some index.servers.length := by
        rw [List.findIdx?_append, found]
        simp [same]
      dsimp only
      rw [fresh]
      exact congrArg ServerIndex.mk (modify_last write' _ _)
  | some i =>
      have again : (index.servers.modify i write).findIdx? (·.addr = addr) = some i := by
        have same' : ServerIndex.addrs ⟨index.servers.modify i write⟩ = index.addrs :=
          map_modify _ same _ _
        rw [findIdx_addrs ⟨index.servers.modify i write⟩, same', ← findIdx_addrs, found]
      dsimp only
      rw [again]
      dsimp only
      rw [List.modify_modify_eq]
      rfl

/-! ### Neat lists -/

/-- The addresses are distinct, and each is as `normalizeAddr` leaves it (the empty one is, too). -/
structure Neat (index : ServerIndex) : Prop where
  distinct : index.addrs.Nodup
  settled : ∀ addr ∈ index.addrs, normalizeAddr addr = addr

theorem neat_recordMut (neat : index.Neat) (same : ∀ r, (write r).addr = r.addr)
    (settled : normalizeAddr addr = addr) : (index.recordMut addr write).Neat := by
  constructor
  · rw [addrs_recordMut same]
    split
    · exact neat.distinct
    · next absent =>
      exact List.nodup_append.mpr ⟨neat.distinct, List.nodup_singleton _,
        fun other member last is same => absent (List.mem_singleton.mp is ▸ same ▸ member)⟩
  · intro other member
    obtain rfl | member := (mem_recordMut same).mp member
    · exact settled
    · exact neat.settled other member

theorem addrs_cons (r : ServerRecord) (rest : List ServerRecord) :
    addrs ⟨r :: rest⟩ = r.addr :: addrs ⟨rest⟩ := rfl

theorem migrateFrom_neat (seen : List String) (servers : List ServerRecord) :
    (⟨migrateFrom seen servers⟩ : ServerIndex).Neat ∧
      ∀ addr ∈ (⟨migrateFrom seen servers⟩ : ServerIndex).addrs, addr ∉ seen := by
  induction servers generalizing seen with
  | nil => exact ⟨⟨List.nodup_nil, nofun⟩, nofun⟩
  | cons r rest ih =>
      have settled := normalizeAddr_again r.addr
      rw [migrateFrom]
      generalize normalizeAddr r.addr = addr at settled ⊢
      split
      · exact ih seen
      · next new =>
        obtain ⟨neat, unseen⟩ := ih (addr :: seen)
        refine ⟨⟨?_, ?_⟩, ?_⟩
        · rw [addrs_cons, List.nodup_cons]
          exact ⟨fun member => unseen _ member List.mem_cons_self, neat.distinct⟩
        · rw [addrs_cons, List.forall_mem_cons]
          exact ⟨settled, neat.settled⟩
        · rw [addrs_cons, List.forall_mem_cons]
          exact ⟨new, fun addr member inside =>
            unseen addr member (List.mem_cons_of_mem _ inside)⟩

/-- A neat list stays as it is. -/
theorem migrateFrom_of_neat {seen : List String} {servers : List ServerRecord}
    (neat : (⟨servers⟩ : ServerIndex).Neat)
    (unseen : ∀ addr ∈ (⟨servers⟩ : ServerIndex).addrs, addr ∉ seen) :
    migrateFrom seen servers = servers := by
  induction servers generalizing seen with
  | nil => rfl
  | cons r rest ih =>
      obtain ⟨settled, others⟩ := List.forall_mem_cons.mp neat.settled
      obtain ⟨new, unseen⟩ := List.forall_mem_cons.mp unseen
      obtain ⟨apart, distinct⟩ := List.nodup_cons.mp neat.distinct
      rw [migrateFrom, settled]
      dsimp only
      rw [if_neg new, ih ⟨distinct, others⟩]
      intro addr member inside
      obtain rfl | inside := List.mem_cons.mp inside
      · exact apart member
      · exact unseen addr member inside

theorem migrate_of_neat (neat : index.Neat) : index.migrate = index := by
  rw [migrate, migrateFrom_of_neat neat fun _ _ => List.not_mem_nil]

/-! ### The official server -/

/-- What is done to the record of the official server. -/
def named (existed : Bool) (r : ServerRecord) : ServerRecord :=
  if !existed || r.name.isNone then { r with name := some officialName } else r

theorem seedOfficial_eq (index : ServerIndex) : index.seedOfficial =
    index.recordMut officialAddr (named (index.servers.any (·.addr = officialAddr))) := rfl

theorem named_addr (existed : Bool) (r : ServerRecord) : (named existed r).addr = r.addr := by
  unfold named
  split
  · rfl
  · rfl

theorem named_again (existed : Bool) (r : ServerRecord) :
    named true (named existed r) = named existed r := by
  have has : (named existed r).name.isNone = false := by
    unfold named
    split
    · rfl
    · next named =>
      rw [Bool.or_eq_true, not_or] at named
      exact (Bool.not_eq_true _).mp named.2
  rw [named, has]
  rfl

theorem mem_seedOfficial {other : String} :
    other ∈ index.seedOfficial.addrs ↔ other = officialAddr ∨ other ∈ index.addrs :=
  mem_recordMut (named_addr _)

theorem seedOfficial_again (index : ServerIndex) :
    index.seedOfficial.seedOfficial = index.seedOfficial := by
  have there : index.seedOfficial.servers.any (·.addr = officialAddr) = true := by
    obtain ⟨r, member, is⟩ := List.mem_map.mp (mem_seedOfficial.mpr (.inl rfl))
    exact List.any_eq_true.mpr ⟨r, member, decide_eq_true is⟩
  rw [seedOfficial_eq index.seedOfficial, there, seedOfficial_eq index,
    recordMut_recordMut (named_addr _)]
  exact congrArg (index.recordMut officialAddr) (funext (named_again _))

theorem seedOfficial_neat (neat : index.Neat) : index.seedOfficial.Neat :=
  neat_recordMut neat (named_addr _) (by decide)

end ServerIndex

/-! ### The file -/

theorem ServerRecord.fromJson_toJson (r : ServerRecord) :
    ServerRecord.fromJson r.toJson = some r := by
  have optional : ∀ value : Option String,
      asOption asStr ((value.map Json.str).getD .null) = some value := by
    intro value
    cases value with
    | none => rfl
    | some text => rfl
  unfold fromJson
  rw [toJson, asFields, Option.bind_eq_bind, Option.bind_some]
  refine Eq.trans (required_bind rfl rfl) ?_
  refine Eq.trans (orDefault_bind rfl (optional r.name)) ?_
  refine Eq.trans (orDefault_bind rfl (optional r.tier)) ?_
  refine Eq.trans (orDefault_bind rfl (optional r.verdict)) ?_
  exact orDefault_bind rfl (optional r.username)

namespace ServerIndex

theorem fromJson_toJson (index : ServerIndex) : ServerIndex.fromJson index.toJson = some index := by
  have all := asAll_map index.servers fun r _ => r.fromJson_toJson
  unfold fromJson
  rw [toJson, asFields, Option.bind_eq_bind, Option.bind_some]
  exact orDefault_bind rfl all

theorem toJson_exact (index : ServerIndex) : index.toJson.Exact := by
  have optional : ∀ value : Option String, ((value.map Json.str).getD .null).Exact := by
    intro value
    cases value with
    | none => exact .null
    | some text => exact .str text
  refine .obj (by simp) (List.forall_mem_singleton.mpr (.arr fun value member => ?_))
  obtain ⟨r, -, rfl⟩ := List.mem_map.mp member
  refine .obj (by simp) ?_
  simp only [List.forall_mem_cons]
  exact ⟨.str _, optional _, optional _, optional _, optional _, nofun⟩

theorem toJson_within (index : ServerIndex) (depth : Nat) : index.toJson.Within (depth + 4) := by
  have optional : ∀ value : Option String,
      ((value.map Json.str).getD .null).Within (depth + 1) := by
    intro value
    cases value with
    | none => trivial
    | some text => trivial
  simp only [toJson, Within, List.forall_mem_singleton, List.forall_mem_map]
  intro r _
  simp only [ServerRecord.toJson, Within, List.forall_mem_cons]
  exact ⟨trivial, optional _, optional _, optional _, optional _,
    fun _ member => absurd member List.not_mem_nil⟩

variable [ChermPlugins.Crates]

/-- **A start makes a neat list of any file.** -/
theorem start_neat (file : Option Bytes) : (start file).Neat :=
  seedOfficial_neat (migrateFrom_neat [] _).1

/-- The official server is in it already. -/
theorem start_seeded (file : Option Bytes) : (start file).seedOfficial = start file :=
  seedOfficial_again _

/-- **A start reads back what was saved** of a neat list. -/
theorem start_saved {index : ServerIndex} (neat : index.Neat) :
    start (some (toVecPretty index.toJson)) = index.seedOfficial := by
  have parsed : fromStr (String.ofList (Json.pretty 0 index.toJson)) = some index.toJson :=
    ChermPlugins.Crates.fromSlice_pretty _ index.toJson_exact (index.toJson_within 96)
  unfold start
  rw [Option.bind_some, toVecPretty, fromUtf8_utf8, Option.bind_some, parsed, Option.bind_some,
    fromJson_toJson]
  exact congrArg seedOfficial (migrate_of_neat neat)

end ServerIndex

/-! ### What the commands keep -/

/-- The list is neat. It has every server whose vault is open, and one of these is active. -/
structure Listed (known : Known) : Prop where
  neat : known.index.Neat
  opened : ∀ addr ∈ known.opened, addr ∈ known.index.addrs
  active : ∀ addr, known.active = some addr → addr ∈ known.opened

variable {known : Known} {server : String}

/-- The list may change, if it stays neat and loses no server whose vault is open. -/
theorem Listed.reindex (listed : Listed known) {index : ServerIndex} (neat : index.Neat)
    (more : ∀ addr ∈ known.index.addrs, addr ∈ index.addrs) :
    Listed { known with index := index } :=
  ⟨neat, fun addr is => more addr (listed.opened addr is), listed.active⟩

/-- One record may be written. -/
theorem Listed.record (listed : Listed known) {write : ServerRecord → ServerRecord}
    (same : ∀ r, (write r).addr = r.addr) (settled : normalizeAddr server = server) :
    Listed { known with index := known.index.recordMut server write } :=
  listed.reindex (ServerIndex.neat_recordMut listed.neat same settled) fun _ =>
    (ServerIndex.mem_write · same)

theorem Listed.ensure (listed : Listed known) (settled : normalizeAddr server = server) :
    Listed { known with index := known.index.ensure server } := listed.record (fun _ => rfl) settled

theorem Listed.setAttest (listed : Listed known) (settled : normalizeAddr server = server)
    (verdict tier : String) :
    Listed { known with index := known.index.setAttest server verdict tier } :=
  listed.record (fun _ => rfl) settled

theorem Listed.setUsername (listed : Listed known) (settled : normalizeAddr server = server)
    (username : String) :
    Listed { known with index := known.index.setUsername server username } :=
  listed.record (fun _ => rfl) settled

theorem Listed.setName (listed : Listed known) (settled : normalizeAddr server = server)
    (name : String) : Listed { known with index := known.index.setName server name } := by
  unfold ServerIndex.setName
  split
  · exact listed
  · exact listed.record (fun _ => rfl) settled

theorem Listed.remove (listed : Listed known) (server : String) : Listed { known with
    opened := known.opened.filter (· ≠ server)
    active := if known.active = some server then none else known.active
    index := ⟨known.index.servers.filter (·.addr ≠ server)⟩ } := by
  have fewer : ServerIndex.addrs ⟨known.index.servers.filter (·.addr ≠ server)⟩ =
      known.index.addrs.filter (· ≠ server) := by
    rw [ServerIndex.addrs, ServerIndex.addrs, List.filter_map]
    rfl
  refine ⟨⟨?_, ?_⟩, ?_, ?_⟩
  · rw [fewer]
    exact listed.neat.distinct.filter _
  · rw [fewer]
    exact fun addr member => listed.neat.settled addr (List.mem_of_mem_filter member)
  · rw [fewer]
    intro addr member
    obtain ⟨member, other⟩ := List.mem_filter.mp member
    exact List.mem_filter.mpr ⟨listed.opened addr member, other⟩
  · intro addr is
    dsimp only at is
    split at is
    · cases is
    · next other =>
      refine List.mem_filter.mpr ⟨listed.active addr is, decide_eq_true fun same => ?_⟩
      exact other (same ▸ is)

theorem Listed.refresh (listed : Listed known) (outcome : String → Option (String × String))
    {addrs : List String} (settled : ∀ addr ∈ addrs, normalizeAddr addr = addr) :
    Listed { known with index := addrs.foldl (ServerIndex.refresh outcome) known.index } := by
  induction addrs generalizing known with
  | nil => exact listed
  | cons addr rest ih =>
      obtain ⟨here, others⟩ := List.forall_mem_cons.mp settled
      rw [List.foldl_cons, ServerIndex.refresh]
      cases outcome addr with
      | none => exact ih listed others
      | some found => exact ih (listed.setAttest here found.1 found.2) others

/-- Without an answer the list stays. -/
theorem refresh_unanswered {outcome : String → Option (String × String)} {addrs : List String}
    (unanswered : ∀ addr ∈ addrs, outcome addr = none) (index : ServerIndex) :
    addrs.foldl (ServerIndex.refresh outcome) index = index := by
  induction addrs with
  | nil => rfl
  | cons addr rest ih =>
      obtain ⟨here, others⟩ := List.forall_mem_cons.mp unanswered
      rw [List.foldl_cons, ServerIndex.refresh, here]
      exact ih others

section

variable [ChermPlugins.Crates]

/-- It is so, and a start would bring the list back if no write has failed (`written`). -/
structure Saved (written : Prop) (known : Known) : Prop extends Listed known where
  saved : written → ServerIndex.start known.file = known.index.seedOfficial

variable {written : Prop} {saving : Saving}

/-- A write saves the list, whatever the file was. -/
theorem kept_saveIndex (listed : Listed known) (lossless : written → saving = .written) :
    Saved written (Known.saveIndex saving known).2 := by
  have still : ∀ file, Listed { known with file := file } :=
    fun _ => ⟨listed.neat, listed.opened, listed.active⟩
  cases saving with
  | written => exact ⟨still _, fun _ => ServerIndex.start_saved listed.neat⟩
  | failed error left => exact ⟨still _, fun holds => nomatch lossless holds⟩

/-- A server whose vault has been opened is one of those that are open, and in the list. -/
theorem ensureServer_kept {opens : Except String Unit} (kept : Saved written known)
    (settled : normalizeAddr server = server) (lossless : written → saving = .written) :
    Saved written (Known.ensureServer server opens saving known).2 ∧
      ((Known.ensureServer server opens saving known).1 = .ok () →
        server ∈ (Known.ensureServer server opens saving known).2.opened) := by
  unfold Known.ensureServer
  split
  · next member => exact ⟨kept, fun _ => member⟩
  · cases opens with
    | error e => exact ⟨kept, nofun⟩
    | ok done =>
        have listed : Listed { known with
            opened := known.opened ++ [server], index := known.index.ensure server } := by
          refine ⟨(kept.ensure settled).neat, fun addr member => ?_, fun addr is =>
            List.mem_append_left _ (kept.active addr is)⟩
          obtain member | last := List.mem_append.mp member
          · exact (kept.ensure settled).opened addr member
          · exact (ServerIndex.mem_recordMut fun _ => rfl).mpr (.inl (List.mem_singleton.mp last))
        refine ⟨kept_saveIndex listed lossless, fun _ => ?_⟩
        have inside : server ∈ known.opened ++ [server] := by simp
        cases saving with
        | written => exact inside
        | failed error left => exact inside

/-- What follows may take it that the vault is open. -/
theorem after_ensureServer {opens : Except String Unit} {next : Unit → Known.Act Unit}
    (kept : Saved written known) (settled : normalizeAddr server = server)
    (lossless : written → saving = .written)
    (after : ∀ known, Saved written known → server ∈ known.opened →
      Saved written (next () known).2) :
    Saved written ((Known.ensureServer server opens saving >>= next) known).2 := by
  have ensured : Saved written (Known.ensureServer server opens saving known).2 ∧
      ((Known.ensureServer server opens saving known).1 = .ok () →
        server ∈ (Known.ensureServer server opens saving known).2.opened) :=
    ensureServer_kept kept settled lossless
  obtain ⟨opened, isOpen⟩ := ensured
  refine Attempt.bind_cases (P := fun ran => Saved written ran.2) (fun e mid ran => ?_)
    fun result mid ran => ?_
  · rwa [ran] at opened
  · rw [ran] at opened isOpen
    exact after mid opened (isOpen rfl)

theorem goLive_kept {rest : Rest} (kept : Saved written known) (isOpen : server ∈ known.opened)
    (settled : normalizeAddr server = server) (lossless : written → saving = .written) :
    Saved written (Known.goLive server rest saving known).2 := by
  match rest with
  | .error e => exact kept
  | .ok none => exact kept
  | .ok (some uname) =>
      have live : Listed { known with active := some server } :=
        ⟨kept.neat, kept.opened, fun addr is => Option.some.inj is ▸ isOpen⟩
      exact kept_saveIndex (live.setUsername settled uname) lossless

theorem checkServer_kept (kept : Saved written known) (addr : String) (name : Option String)
    (outcome : Option (String × String)) (lossless : written → saving = .written) :
    Saved written (Known.checkServer addr name outcome saving known).2 := by
  have settled := normalizeAddr_again addr
  have listed := kept.ensure settled
  match name, outcome with
  | none, none => exact kept_saveIndex listed lossless
  | none, some (verdict, tier) =>
      exact kept_saveIndex (listed.setAttest settled verdict tier) lossless
  | some n, none => exact kept_saveIndex (listed.setName settled (trimmed n)) lossless
  | some n, some (verdict, tier) =>
      exact kept_saveIndex ((listed.setName settled (trimmed n)).setAttest settled verdict tier)
        lossless

theorem connect_kept {first : Saving} (kept : Saved written known) (addr : String)
    (opens : Except String Unit) (rest : Rest)
    (lossless : written → first = .written ∧ saving = .written) :
    Saved written (Known.connect addr opens first rest saving known).2 :=
  after_ensureServer kept (normalizeAddr_again addr) (fun holds => (lossless holds).1)
    fun _ kept isOpen =>
      goLive_kept kept isOpen (normalizeAddr_again addr) fun holds => (lossless holds).2

theorem register_kept {first : Saving} (kept : Saved written known) (addr username : String)
    (opens : Except String Unit) (rest : Rest)
    (lossless : written → first = .written ∧ saving = .written) :
    Saved written (Known.register addr username opens first rest saving known).2 := by
  unfold Known.register
  split
  · exact kept
  · split
    · exact kept
    · exact connect_kept kept addr opens rest lossless

theorem switchServer_kept {first : Saving} (kept : Saved written known) (addr : String)
    (opens : Except String Unit) (linked registered : Bool) (rest : Rest)
    (lossless : written → first = .written ∧ saving = .written) :
    Saved written (Known.switchServer addr opens first linked registered rest saving known).2 := by
  refine after_ensureServer kept (normalizeAddr_again addr) (fun holds => (lossless holds).1)
    fun known kept isOpen => ?_
  have active : Saved written { known with active := some (normalizeAddr addr) } :=
    ⟨⟨kept.neat, kept.opened, fun addr is => Option.some.inj is ▸ isOpen⟩, kept.saved⟩
  rw [Attempt.modify_bind]
  cases linked with
  | true => exact active
  | false =>
      cases registered with
      | true => exact connect_kept active (normalizeAddr addr) opens rest lossless
      | false => exact active

theorem importIdentity_kept {first : Saving} (kept : Saved written known)
    (backup : Option (String × String)) (opens stored : Except String Unit)
    (lossless : written → first = .written ∧ saving = .written) :
    Saved written (Known.importIdentity backup opens first stored saving known).2 := by
  match backup with
  | none => exact kept
  | some (addr, username) =>
      have settled := normalizeAddr_again addr
      unfold Known.importIdentity
      dsimp only
      split
      · exact kept
      · refine after_ensureServer kept settled (fun holds => (lossless holds).1)
          fun known kept _ => ?_
        cases stored with
        | error e => exact kept
        | ok done =>
            exact kept_saveIndex (kept.setUsername settled username) fun holds =>
              (lossless holds).2

theorem refreshVerdicts_kept (kept : Saved written known)
    (outcome : String → Option (String × String)) (lossless : written → saving = .written) :
    Saved written (Known.refreshVerdicts outcome saving known).2 := by
  unfold Known.refreshVerdicts
  dsimp only
  split
  · exact kept_saveIndex (kept.refresh outcome kept.neat.settled) lossless
  · next unreached =>
    have unanswered : ∀ addr ∈ known.index.addrs, outcome addr = none := by simpa using unreached
    rw [refresh_unanswered unanswered]
    exact kept

/-! ### Runs -/

/-- Its writes succeed. -/
def Errand.Lossless : Errand → Prop
  | .checkServer _ _ _ saving => saving = .written
  | .register _ _ _ first _ saving => first = .written ∧ saving = .written
  | .connect _ _ first _ saving => first = .written ∧ saving = .written
  | .switchServer _ _ first _ _ _ saving => first = .written ∧ saving = .written
  | .removeServer _ saving => saving = .written
  | .importIdentity _ _ first _ saving => first = .written ∧ saving = .written
  | .refreshVerdicts _ saving => saving = .written
  | .restart => True
  | .crash _ => False

theorem boot_kept (file : Option Bytes) : Saved written (.boot file) :=
  ⟨⟨ServerIndex.start_neat file, nofun, nofun⟩, fun _ => (ServerIndex.start_seeded file).symm⟩

/-- **One command, restart or crash.** -/
theorem errand_kept (errand : Errand) (kept : Saved written known)
    (lossless : written → errand.Lossless) :
    Saved written (errand.step known) := by
  cases errand with
  | checkServer addr name outcome saving => exact checkServer_kept kept addr name outcome lossless
  | register addr username opens first rest saving =>
      exact register_kept kept addr username opens rest lossless
  | connect addr opens first rest saving => exact connect_kept kept addr opens rest lossless
  | switchServer addr opens first linked registered rest saving =>
      exact switchServer_kept kept addr opens linked registered rest lossless
  | removeServer addr saving =>
      exact kept_saveIndex (kept.remove (normalizeAddr addr)) lossless
  | importIdentity backup opens first stored saving =>
      exact importIdentity_kept kept backup opens stored lossless
  | refreshVerdicts outcome saving => exact refreshVerdicts_kept kept outcome lossless
  | restart => exact boot_kept known.file
  | crash left => exact boot_kept left

theorem run_kept {errands : List Errand} (kept : Saved written known)
    (lossless : written → ∀ errand ∈ errands, errand.Lossless) :
    Saved written (Steps.run Errand.step errands known) :=
  Steps.Each.run (fun errand _ kept => errand_kept errand kept)
    (Steps.each_of_all fun errand member holds => lossless holds errand member) kept

/-- **Whatever stood in the file and whatever was done,** the list is in order, and as long as every
write has succeeded a start would bring it back. -/
theorem known_servers (file : Option Bytes) (errands : List Errand) :
    Listed (Steps.run Errand.step errands (.boot file)) ∧
      ((∀ errand ∈ errands, errand.Lossless) →
        ServerIndex.start (Steps.run Errand.step errands (.boot file)).file =
          (Steps.run Errand.step errands (.boot file)).index.seedOfficial) :=
  have kept := run_kept (boot_kept file) (id : (∀ errand ∈ errands, errand.Lossless) → _)
  ⟨kept.toListed, kept.saved⟩

end

/-! ### Until it is removed -/

/-- The list has a server. -/
def Has (addr : String) (known : Known) : Prop := addr ∈ known.index.addrs

section

variable {addr : String}

theorem has_modifyIndex {change : ServerIndex → ServerIndex}
    (grows : ∀ index, addr ∈ index.addrs → addr ∈ (change index).addrs) :
    Attempt.Keeps (Has addr) (Known.modifyIndex change) :=
  Attempt.keeps_modify fun known => grows known.index

theorem has_saveIndex (saving : Saving) : Attempt.Keeps (Has addr) (Known.saveIndex saving) := by
  cases saving with
  | written => exact fun _ has => has
  | failed error left => exact fun _ has => has

theorem has_ensureServer (opens : Except String Unit) (saving : Saving) :
    Attempt.Keeps (Has addr) (Known.ensureServer server opens saving) := by
  intro known has
  unfold Known.ensureServer
  split
  · exact has
  · have opened : Attempt.Keeps (Has addr) (Attempt.modify fun known : Known => { known with
        opened := known.opened ++ [server], index := known.index.ensure server } :
        Known.Act Unit) := fun _ => ServerIndex.mem_ensure
    exact Attempt.Keeps.bind (Attempt.keeps_lift opens)
      (fun _ => opened.bind fun _ => has_saveIndex saving) known has

theorem has_goLive (rest : Rest) (saving : Saving) :
    Attempt.Keeps (Has addr) (Known.goLive server rest saving) := by
  refine .bind (Attempt.keeps_lift rest) fun uname => ?_
  cases uname with
  | none => exact Attempt.keeps_pure ()
  | some uname =>
      have live : Attempt.Keeps (Has addr) (Attempt.modify fun known : Known =>
        { known with active := some server } : Known.Act Unit) := fun _ has => has
      have recorded : Attempt.Keeps (Has addr) (Known.modifyIndex (·.setUsername server uname)) :=
        has_modifyIndex fun _ member => ServerIndex.mem_setUsername member uname
      exact live.bind fun _ => recorded.bind fun _ => has_saveIndex saving

theorem has_checkServer (given : String) (name : Option String)
    (outcome : Option (String × String)) (saving : Saving) :
    Attempt.Keeps (Has addr) (Known.checkServer given name outcome saving) := by
  have named : ∀ server n, Attempt.Keeps (Has addr) (Known.modifyIndex (·.setName server n)) :=
    fun _ n => has_modifyIndex fun _ member => ServerIndex.mem_setName member n
  have attested : ∀ server (found : String × String), Attempt.Keeps (Has addr)
      (Known.modifyIndex (·.setAttest server found.1 found.2)) := fun _ found =>
    has_modifyIndex fun _ member => ServerIndex.mem_setAttest member found.1 found.2
  refine (has_modifyIndex fun _ => ServerIndex.mem_ensure).bind fun _ => ?_
  cases name with
  | none =>
      cases outcome with
      | none => exact has_saveIndex saving
      | some found => exact (attested _ found).bind fun _ => has_saveIndex saving
  | some n =>
      cases outcome with
      | none => exact (named _ _).bind fun _ => has_saveIndex saving
      | some found =>
          exact (named _ _).bind fun _ => (attested _ found).bind fun _ => has_saveIndex saving

theorem has_connect (given : String) (opens : Except String Unit) (first : Saving) (rest : Rest)
    (saving : Saving) : Attempt.Keeps (Has addr) (Known.connect given opens first rest saving) :=
  (has_ensureServer opens first).bind fun _ => has_goLive rest saving

theorem has_register (given username : String) (opens : Except String Unit) (first : Saving)
    (rest : Rest) (saving : Saving) :
    Attempt.Keeps (Has addr) (Known.register given username opens first rest saving) := by
  unfold Known.register
  split
  · exact Attempt.keeps_pure ()
  · split
    · exact Attempt.keeps_pure ()
    · exact has_connect given opens first rest saving

theorem has_switchServer (given : String) (opens : Except String Unit) (first : Saving)
    (linked registered : Bool) (rest : Rest) (saving : Saving) : Attempt.Keeps (Has addr)
      (Known.switchServer given opens first linked registered rest saving) := by
  have active : Attempt.Keeps (Has addr) (Attempt.modify fun known : Known =>
    { known with active := some (normalizeAddr given) } : Known.Act Unit) := fun _ has => has
  refine (has_ensureServer opens first).bind fun _ => active.bind fun _ => ?_
  cases linked with
  | true => exact Attempt.keeps_pure ()
  | false =>
      cases registered with
      | true => exact has_connect (normalizeAddr given) opens first rest saving
      | false => exact Attempt.keeps_pure ()

theorem has_importIdentity (backup : Option (String × String)) (opens : Except String Unit)
    (first : Saving) (stored : Except String Unit) (saving : Saving) :
    Attempt.Keeps (Has addr) (Known.importIdentity backup opens first stored saving) := by
  match backup with
  | none => exact Attempt.keeps_pure ()
  | some (given, username) =>
      have recorded : Attempt.Keeps (Has addr)
          (Known.modifyIndex (·.setUsername (normalizeAddr given) username)) :=
        has_modifyIndex fun _ member => ServerIndex.mem_setUsername member username
      unfold Known.importIdentity
      dsimp only
      split
      · exact Attempt.keeps_pure ()
      · exact (has_ensureServer opens first).bind fun _ => (Attempt.keeps_lift stored).bind fun _ =>
          recorded.bind fun _ => has_saveIndex saving

theorem has_refreshVerdicts (outcome : String → Option (String × String)) (saving : Saving) :
    Attempt.Keeps (Has addr) (Known.refreshVerdicts outcome saving) := by
  intro known has
  have refreshed : addr ∈
      (known.index.addrs.foldl (ServerIndex.refresh outcome) known.index).addrs :=
    ServerIndex.mem_refresh outcome has
  unfold Known.refreshVerdicts
  dsimp only
  split
  · exact has_saveIndex saving _ refreshed
  · exact refreshed

end

/-- It takes a server from the list. -/
def Errand.Removes (addr : String) : Errand → Prop
  | .removeServer given _ => normalizeAddr given = addr
  | _ => False

section

variable [ChermPlugins.Crates] {addr : String}

/-- A command, or a restart. -/
theorem errand_has (errand : Errand) (kept : Saved True known) (lossless : errand.Lossless)
    (stays : ¬ errand.Removes addr) (has : Has addr known) : Has addr (errand.step known) := by
  cases errand with
  | checkServer given name outcome saving => exact has_checkServer given name outcome saving _ has
  | register given username opens first rest saving =>
      exact has_register given username opens first rest saving _ has
  | connect given opens first rest saving => exact has_connect given opens first rest saving _ has
  | switchServer given opens first linked registered rest saving =>
      exact has_switchServer given opens first linked registered rest saving _ has
  | removeServer given saving =>
      have other : addr ≠ normalizeAddr given := fun same => stays same.symm
      refine has_saveIndex saving _ ?_
      obtain ⟨r, member, is⟩ := List.mem_map.mp has
      exact List.mem_map.mpr
        ⟨r, List.mem_filter.mpr ⟨member, decide_eq_true fun same => other (is ▸ same)⟩, is⟩
  | importIdentity backup opens first stored saving =>
      exact has_importIdentity backup opens first stored saving _ has
  | refreshVerdicts outcome saving => exact has_refreshVerdicts outcome saving _ has
  | restart =>
      show addr ∈ (ServerIndex.start known.file).addrs
      rw [kept.saved trivial]
      exact ServerIndex.mem_seedOfficial.mpr (.inr has)
  | crash left => exact lossless.elim

/-- **A server stays in the list,** over restarts, until it is removed. -/
theorem server_stays (file : Option Bytes) (before after : List Errand)
    (lossless : ∀ errand ∈ before ++ after, errand.Lossless)
    (stays : ∀ errand ∈ after, ¬ errand.Removes addr)
    (has : addr ∈ (Steps.run Errand.step before (.boot file)).index.addrs) :
    addr ∈ (Steps.run Errand.step (before ++ after) (.boot file)).index.addrs := by
  obtain ⟨earlier, later⟩ := List.forall_mem_append.mp lossless
  have kept : Saved True (Steps.run Errand.step before (.boot file)) :=
    run_kept (boot_kept file) fun _ => earlier
  have allowed : ∀ errand ∈ after, errand.Lossless ∧ ¬ errand.Removes addr := fun errand member =>
    ⟨later errand member, stays errand member⟩
  have step : ∀ (errand : Errand) known, Saved True known ∧ Has addr known →
      errand.Lossless ∧ ¬ errand.Removes addr →
      Saved True (errand.step known) ∧ Has addr (errand.step known) := fun errand known held may =>
    ⟨errand_kept errand held.1 fun _ => may.1, errand_has errand held.1 may.1 may.2 held.2⟩
  rw [Steps.run_append]
  exact (Steps.Each.run step (Steps.each_of_all allowed) ⟨kept, has⟩).2

end

/-- A server that was typed in with blanks and a path is there after a restart. -/
theorem Ideal.kept_server :
    "home.example:9000" ∈ (@Steps.run _ _ (@Errand.step ChermPlugins.Ideal.crates)
      ([.checkServer " https://home.example/chat " none none .written] ++ [.restart])
      (@Known.boot ChermPlugins.Ideal.crates none)).index.addrs := by
  refine @server_stays ChermPlugins.Ideal.crates _ none _ _ ?_ ?_ ?_
  · rintro errand (_ | ⟨_, _ | ⟨_, ⟨⟩⟩⟩)
    · exact rfl
    · trivial
  · rintro errand (_ | ⟨_, ⟨⟩⟩)
    exact id
  · decide

end Cherm
