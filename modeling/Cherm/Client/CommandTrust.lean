/-
**What the commands know of a chat.**

Every command keeps to `stanceSpec`, and what a task shows it has written.

* `heeds_runCommand`: a command writes rows of chats it has made sure of.
* `shownSpec`: a message event follows a line of its chat, which was not deleted in between.
  `shown_processFrame`, `shown_runCommand`: every frame and every command keeps to it.
-/

import Cherm.Client.ChatTrust
import Cherm.Client.CommandAsks
import Cherm.Client.CommandWalk

namespace Cherm

open Crates

section

variable [Crates]

section

variable {chat : String} {found : Option String} {α : Type}

namespace Client

/-! ### Commands -/

/-- After the active server is found. -/
theorem heeds_withServer {app : App} {next : String → Client Unit}
    (rest : ∀ server, Heeds chat none (next server)) :
    Heeds chat none (do
      let some server ← activeServer app | return ()
      next server) := by
  refine Heeds.bind (heeds_may (calls_activeServer app)) fun server => ?_
  cases server with
  | none => exact heeds_done _
  | some server => exact rest server

/-- After our own name is found. -/
theorem heeds_withName {next : String → Client Unit} (rest : ∀ me, Heeds chat none (next me)) :
    Heeds chat none (do
      let some me ← ownUsername | return ()
      next me) := by
  refine Heeds.bind (heeds_may calls_ownUsername) fun me => ?_
  cases me with
  | none => exact heeds_done _
  | some me => exact rest me

/-- After the link is found alive. -/
theorem heeds_withLink {app : App} {next : Client Unit} (rest : Heeds chat none next) :
    Heeds chat none (do
      if !(← activeLink app) then return ()
      next) := by
  refine Heeds.bind (heeds_may (calls_activeLink app)) fun linked => ?_
  cases linked with
  | false => exact heeds_done _
  | true => exact rest

/-- After the chat is found. -/
theorem heeds_withChat {id : String} {next : String → String → Client Unit}
    (rest : ∀ kind title, Spends chat (some id) (next kind title)) :
    Heeds chat none (do
      let some (kind, title) ← knownChat id | return ()
      next kind title) := by
  refine heeds_look id (fun _ _ => nofun) (fun row unknown => ?_) fun row known => ?_
  · have none' : row = none := by simpa [Ask.reveals] using unknown
    subst none'
    exact heeds_ask (by trivial) fun _ => heeds_done _
  · obtain ⟨row, rfl⟩ : ∃ some', row = some some' :=
      Option.isSome_iff_exists.mp (by simpa [Ask.reveals] using known)
    exact rest row.1 row.2

theorem heeds_startDm (app : App) (username : String) :
    Heeds chat none (startDm app username) := by
  refine heeds_withServer fun server => heeds_withName fun me => ?_
  split
  · exact heeds_may ((calls_emit _).bind fun _ => trivial)
  refine heeds_withLink (Heeds.bind (heeds_may (calls_startDmSession (rowsOf_free (by decide))
    (rowsOf_free (by decide) username))) fun started => ?_)
  cases started with
  | false => exact heeds_done _
  | true =>
      exact heeds_created (Heeds.spends (heeds_may ((within_member username me).bind fun _ =>
        (within_member username username).bind fun _ => (calls_emitFingerprint _).bind fun _ =>
          (calls_emitChats _).bind fun _ =>
            ((calls_read fun _ _ => id).bind fun _ => calls_emit _).bind fun _ => calls_emit _)))

theorem heeds_createGroup (app : App) (name : String) (members : List String)
    (accessMode : Option String) : Heeds chat none (createGroup app name members accessMode) := by
  refine heeds_withServer fun server => heeds_withName fun me => ?_
  dsimp only
  split
  · exact heeds_may ((calls_emit _).bind fun _ => trivial)
  refine heeds_withLink (Heeds.bind (heeds_may calls_random) fun seed =>
    Heeds.bind (heeds_may calls_random) fun uuid => ?_)
  have out : RowsOf none .groupOut (uuidText uuid) := rowsOf_free (by decide) _
  have row : RowsOf (some (uuidText uuid)) .groups (uuidText uuid) := rowsOf_own (by decide) _
  refine Heeds.bind (heeds_may (calls_write out (fun _ _ => id) (by trivial))) fun _ =>
    heeds_created (Heeds.spends (heeds_may ?_))
  refine (Prog.calls_forEach fun m _ => within_member (uuidText uuid) m).bind fun _ =>
    calls_random.bind fun draw => ?_
  exact (calls_write row (fun _ _ => id) (by trivial)).bind fun made =>
    (calls_lift _).bind fun key => (within_distribute _ _ _ _ _).bind fun _ =>
      (calls_emitChats _).bind fun _ => (calls_emit _).bind fun _ => calls_emit _

theorem heeds_send (app : App) (room text : String) :
    Heeds chat none (send app room text) := by
  refine heeds_withServer fun server => heeds_withName fun me =>
    heeds_withChat fun kind title => ?_
  have stored : ∀ now, WithinRows (some room) (do
      insertMessage room me text now true
      emit (.message room me text now true false)) := fun now =>
    (within_line room me text now true).bind fun _ => calls_emit _
  refine Heeds.spends (heeds_may ((calls_activeLink app).bind fun linked => ?_))
  cases linked with
  | false => trivial
  | true =>
      refine calls_now.bind fun now => ?_
      dsimp only
      split
      · refine (calls_read fun _ _ => id).bind fun held => ?_
        cases held with
        | none => exact (calls_emit _).bind fun _ => trivial
        | some session =>
            exact (calls_postOlm (rowsOf_free (by decide) room) (fun _ => trivial) _ _).bind
              fun _ => stored now
      · refine (calls_groupSender (rowsOf_free (by decide) room) fun sender =>
          (calls_read fun _ _ => id).bind fun roster =>
            within_distribute _ _ _ _ _).bind fun sender => ?_
        have out : RowsOf (some room) .groupOut room := rowsOf_own (by decide) room
        exact (calls_write out (fun _ _ => id) (by trivial)).bind fun _ =>
          (calls_read fun _ _ => id).bind fun _ => (calls_post (by trivial)).bind fun _ =>
            stored now
      · exact (calls_emit _).bind fun _ => trivial

theorem heeds_leaveChat (app : App) (id : String) : Heeds chat none (leaveChat app id) := by
  refine heeds_withServer fun server => heeds_withName fun me =>
    heeds_withChat fun kind title => ?_
  refine Heeds.forget (Heeds.bind (heeds_may calls_now) fun now => ?_)
  split
  · exact heeds_may ((calls_emit _).bind fun _ => trivial)
  · refine Heeds.bind (heeds_may (calls_leaveNotice (rowsOf_free (by decide))
      (rowsOf_free (by decide)) (rowsOf_free (by decide) id) (fun _ => trivial) app me kind title
        now)) fun _ => ?_
    exact heeds_deleted (heeds_may ((calls_emitChats _).bind fun _ => calls_emit _))

/-! ### Commands of the owner -/

/-- After the check of the owner, who has found the group. -/
theorem heeds_owner {app : App} {group : String}
    {next : Option (String × String × GroupMeta) → Client Unit}
    (refused : Heeds chat none (next none))
    (rest : ∀ server me row, WithinRows (some group) (next (some (server, me, row)))) :
    Heeds chat none ((groupOwnerCtx app group).bind next) := by
  unfold groupOwnerCtx
  rw [Prog.bind_eq, Prog.bind_assoc]
  refine Heeds.bind (heeds_may (calls_activeServer app)) fun server => ?_
  cases server with
  | none => exact refused
  | some server =>
      dsimp only
      rw [Prog.bind_eq, Prog.bind_assoc]
      refine Heeds.bind (heeds_may calls_ownUsername) fun me => ?_
      cases me with
      | none => exact refused
      | some me =>
          dsimp only
          rw [Prog.bind_eq, Prog.bind_assoc]
          refine Heeds.bind (heeds_may (calls_activeLink app)) fun linked => ?_
          cases linked with
          | false => exact refused
          | true =>
              refine heeds_look group (fun _ _ => nofun) (fun row unknown => ?_)
                fun row known => ?_
              · have none' : row = none := by simpa [Ask.reveals] using unknown
                subst none'
                exact heeds_ask (by trivial) fun _ => refused
              · obtain ⟨row, rfl⟩ : ∃ some', row = some some' :=
                  Option.isSome_iff_exists.mp (by simpa [Ask.reveals] using known)
                dsimp only [Prog.done_bind]
                split
                · exact Heeds.forget (heeds_ask (by trivial) fun _ => refused)
                · exact Heeds.spends (heeds_may (rest server me row))

theorem within_announce (me group name : String) (event : Json) :
    WithinRows (some group) (broadcastGroupEvent me group name event) :=
  calls_broadcastGroupEvent (rowsOf_free (by decide)) (rowsOf_free (by decide))
    (rowsOf_free (by decide) group) (fun _ _ _ => trivial) (fun _ _ _ => trivial) me name event

theorem heeds_setAccess (app : App) (group mode : String) :
    Heeds chat none (setAccess app group mode) := by
  unfold setAccess
  split
  · exact heeds_may ((calls_emit _).bind fun _ => trivial)
  refine heeds_owner (heeds_done _) fun server me row => ?_
  have meta' : RowsOf (some group) .groups group := rowsOf_own (by decide) group
  exact (calls_write meta' (fun _ _ => id) (by trivial)).bind fun _ =>
    (calls_groupName group).bind fun name => (within_announce me group name _).bind fun _ =>
      calls_now.bind fun now => (within_event group "access" "" mode now).bind fun _ =>
        calls_emit _

theorem heeds_joinGroup (app : App) (group key owner : String) :
    Heeds chat none (joinGroup app group key owner) := by
  refine heeds_withServer fun server => heeds_withName fun me => ?_
  split
  · exact heeds_may ((calls_emit _).bind fun _ => trivial)
  split
  · exact heeds_may ((calls_emit _).bind fun _ => trivial)
  refine heeds_withLink (heeds_may ?_)
  exact (calls_sendOlmControl (rowsOf_free (by decide)) (rowsOf_free (by decide) owner)
    (fun _ _ => trivial) _).bind fun _ => calls_emit _

theorem within_admitUnblocked (me server group user suspended admitted : String) :
    WithinRows (some group) (admitUnblocked me server group user suspended admitted) := by
  refine (calls_read fun _ _ => id).bind fun banned => ?_
  split
  · exact (calls_emit _).bind fun _ => trivial
  refine calls_now.bind fun now => (calls_isSuspended (rowsOf_free (by decide) group) user
    now).bind fun out => ?_
  split
  · exact (calls_emit _).bind fun _ => trivial
  · exact (within_admission me server group user now).bind fun _ => calls_emit _

theorem heeds_inviteMember (app : App) (group user : String) :
    Heeds chat none (inviteMember app group user) := by
  refine heeds_owner (heeds_done _) fun server me row => ?_
  dsimp only
  split
  · exact (calls_emit _).bind fun _ => trivial
  · exact within_admitUnblocked me server group user _ _

theorem heeds_acceptMember (app : App) (group user : String) :
    Heeds chat none (acceptMember app group user) := by
  refine heeds_owner (heeds_done _) fun server me row =>
    (calls_read fun _ _ => id).bind fun asked => ?_
  split
  · exact (calls_emit _).bind fun _ => trivial
  · exact within_admitUnblocked me server group user _ _

theorem within_moderate (group me user kind : String) (deadline : Option Int) :
    WithinRows (some group) (moderate group me user kind deadline) :=
  calls_moderate (rowsOf_free (by decide)) (rowsOf_free (by decide))
    (rowsOf_free (by decide) group) (rowsOf_own (by decide) group)
    (rowsOf_own (by decide) group) (rowsOf_own (by decide) group) (fun _ => trivial) me user kind
      deadline

theorem heeds_removeMember (app : App) (group user : String) :
    Heeds chat none (removeMember app group user) := by
  refine heeds_owner (heeds_done _) fun server me row => ?_
  dsimp only
  split
  · exact (calls_emit _).bind fun _ => trivial
  · exact within_moderate group me user "removed" none

theorem heeds_banMember (app : App) (group user : String) :
    Heeds chat none (banMember app group user) := by
  refine heeds_owner (heeds_done _) fun server me row => ?_
  have bans : RowsOf (some group) .groupBans group := rowsOf_own (by decide) group
  dsimp only
  split
  · exact (calls_emit _).bind fun _ => trivial
  · exact calls_now.bind fun now => (calls_write bans (fun _ _ => id) (by trivial)).bind
      fun _ => within_moderate group me user "banned" none

theorem heeds_suspendMember (app : App) (group user duration : String) :
    Heeds chat none (suspendMember app group user duration) := by
  refine heeds_owner (heeds_done _) fun server me row => ?_
  have suspensions : RowsOf (some group) .groupSuspensions group := rowsOf_own (by decide) group
  dsimp only
  split
  · exact (calls_emit _).bind fun _ => trivial
  split
  · exact (calls_emit _).bind fun _ => trivial
  · exact calls_now.bind fun now => (calls_write suspensions (fun _ _ => id) (by trivial)).bind
      fun _ => within_moderate group me user "suspended" _

theorem heeds_unbanMember (app : App) (group user : String) :
    Heeds chat none (unbanMember app group user) := by
  refine heeds_owner (heeds_done _) fun server me row =>
    (calls_read fun _ _ => id).bind fun banned => ?_
  have bans : RowsOf (some group) .groupBans group := rowsOf_own (by decide) group
  split
  · exact (calls_emit _).bind fun _ => trivial
  · exact (calls_write bans (fun _ _ => id) (by trivial)).bind fun _ => calls_emit _

theorem heeds_unsuspendMember (app : App) (group user : String) :
    Heeds chat none (unsuspendMember app group user) := by
  refine heeds_owner (heeds_done _) fun server me row =>
    (calls_read fun _ _ => id).bind fun deadline => ?_
  have suspensions : RowsOf (some group) .groupSuspensions group := rowsOf_own (by decide) group
  cases deadline with
  | none => exact (calls_emit _).bind fun _ => trivial
  | some deadline =>
      exact (calls_write suspensions (fun _ _ => id) (by trivial)).bind fun _ => calls_emit _

theorem heeds_groupInfo (app : App) (group : String) : Heeds chat none (groupInfo app group) := by
  refine heeds_withServer fun server => heeds_may ((calls_read fun _ _ => id).bind fun me =>
    (calls_read fun _ _ => id).bind fun row => ?_)
  cases row with
  | none => exact (calls_emit _).bind fun _ => trivial
  | some row =>
      dsimp only
      split
      · refine (calls_read fun _ _ => id).bind fun pending => ?_
        split <;> refine (calls_read fun _ _ => id).bind fun bans => ?_ <;> split <;>
          exact calls_emit _
      · exact calls_emit _

/-! ### The identity -/

/-- One request to the world. -/
theorem heeds_world {asked : Ask} [world : asked.World] {next : asked.Answer → Client α}
    (rest : ∀ answer, Heeds chat none (next answer)) : Heeds chat none (.ask asked next) := by
  refine heeds_ask ?_ rest
  cases asked with
  | call op => exact absurd rfl (world.noCall op)
  | _ => trivial

/-- One call that writes neither chats nor their rows. -/
theorem heeds_apart {op : VaultOp} {next : op.Result → Client α}
    (writes : ∀ part id, op.Writes part id → part ≠ .chats ∧ part ∉ VaultPart.needing)
    (rest : ∀ answer, Heeds chat none (next answer)) : Heeds chat none (.ask (.call op) next) :=
  heeds_ask (fun part id written => rowsOf_free (writes part id written) id) rest

theorem heeds_ofExcept (value : Except String α) :
    Heeds chat none (Prog.ofExcept value : Client α) := heeds_calls (Prog.calls_ofExcept value)

theorem heeds_emit (event : Event) : Heeds chat none (emit event) := heeds_may (calls_emit event)

theorem heeds_emitChats (addr : String) : Heeds chat none (emitChats addr) :=
  heeds_may (calls_emitChats addr)

theorem heeds_metaSet {key value : String} {next : Unit → Client α}
    (rest : Heeds chat none (next ())) :
    Heeds chat none ((call (.metaSet key value)).bind next) :=
  heeds_apart (by rintro _ _ ⟨rfl, _⟩; decide) fun _ => rest

theorem heeds_saveAccount {device : Device} {next : Unit → Client α}
    (rest : Heeds chat none (next ())) :
    Heeds chat none ((call (.saveAccount device)).bind next) :=
  heeds_apart (by rintro _ _ rfl; decide) fun _ => rest

theorem heeds_upsertContact {username uuid ed curve : String} {next : Unit → Client α}
    (rest : Heeds chat none (next ())) :
    Heeds chat none ((call (.upsertContact username uuid ed curve)).bind next) :=
  heeds_apart (by rintro _ _ ⟨rfl, _⟩; decide) fun _ => rest

theorem heeds_openLink (server : String) : Heeds chat none (openLink server) := by
  refine heeds_world fun answer => ?_
  cases answer with
  | ok _ => exact heeds_done _
  | error e => exact heeds_world fun _ => heeds_done _

theorem heeds_replenish (device : Device) : Heeds chat none (replenish device) :=
  heeds_world fun _ => heeds_saveAccount (heeds_done _)

theorem heeds_goLive (otks : List OneTimeKey) : Heeds chat none (goLive otks) := by
  have published : Heeds chat none (request (.publishPrekeys otks)) :=
    heeds_world heeds_ofExcept
  have pulled : Heeds chat none (post .pull) := heeds_world heeds_ofExcept
  exact Heeds.bind (Prog.Keeps.attempt published) fun _ =>
    Heeds.bind (Prog.Keeps.attempt pulled) fun _ => heeds_world heeds_ofExcept

theorem heeds_hello (app : App) : Heeds chat none (request (clientHello app)).attempt := by
  have asked : Heeds chat none (request (clientHello app)) := heeds_world heeds_ofExcept
  exact Prog.Keeps.attempt asked

theorem heeds_claim (app : App) (server username : String) (device : Device) :
    Heeds chat none (do
      if !(← openLink server) then return ()
      let _ ← (request (clientHello app)).attempt
      match ← request (.register username device.ed25519B64 device.curve25519B64 app.machineId) with
      | .authOk uuid uname =>
          call (.metaSet "username" uname)
          call (.metaSet "uuid" uuid)
          call (.metaSet "server" server)
          call (.upsertContact uname uuid device.ed25519B64 device.curve25519B64)
          let (device, otks) ← replenish device
          match ← Prog.query (Ask.writeBackup server uname uuid device) with
          | .ok path => emit (.info ("identity backed up to " ++ path ++ " (keep it safe)"))
          | .error _ => pure ()
          goLive otks
          emit (.registered server uname uuid)
          emit (.connected server uname)
          emitChats server
          emit .servers
      | .error code message => emit (.error code message)
      | other => emit (.error "internal" ("unexpected register reply: " ++ debugText other))) := by
  have live : ∀ (otks : List OneTimeKey) (uname uuid : String), Heeds chat none (do
      goLive otks
      emit (.registered server uname uuid)
      emit (.connected server uname)
      emitChats server
      emit .servers) := fun otks uname uuid =>
    Heeds.bind (heeds_goLive otks) fun _ => Heeds.bind (heeds_emit _) fun _ =>
      Heeds.bind (heeds_emit _) fun _ => Heeds.bind (heeds_emitChats server) fun _ => heeds_emit _
  refine Heeds.bind (heeds_openLink server) fun isOpen => ?_
  cases isOpen with
  | false => exact heeds_done _
  | true =>
      refine Heeds.bind (heeds_hello app) fun _ => heeds_world fun answer =>
        Heeds.bind (heeds_ofExcept answer) fun reply => ?_
      cases reply with
      | authOk uuid uname =>
          refine heeds_metaSet (heeds_metaSet (heeds_metaSet (heeds_upsertContact
            (Heeds.bind (heeds_replenish device) fun kept => heeds_world fun backup => ?_))))
          cases backup with
          | ok path => exact heeds_world fun _ => live _ _ _
          | error e => exact live _ _ _
      | _ => exact heeds_emit _

theorem heeds_register (app : App) (addr username : String) :
    Heeds chat none (register app addr username) := by
  unfold register
  dsimp only
  split
  · exact heeds_world fun _ => heeds_done _
  split
  · exact heeds_world fun _ => heeds_done _
  refine heeds_apart (fun _ _ => nofun) fun held => ?_
  cases held with
  | some device => exact heeds_claim app _ username device
  | none => exact heeds_world fun seed => heeds_saveAccount (heeds_claim app _ username _)

theorem heeds_challengeNonce (username : String) : Heeds chat none (challengeNonce username) := by
  refine heeds_world fun answer => Heeds.bind (heeds_ofExcept answer) fun reply => ?_
  cases reply with
  | challenge nonce =>
      dsimp only
      split
      · exact heeds_done _
      · exact heeds_world fun _ => heeds_done _
  | _ => exact heeds_world fun _ => heeds_done _

theorem heeds_authenticate (device : Device) (username : String) (nonce : Bytes) :
    Heeds chat none (authenticate device username nonce) := by
  refine heeds_world fun answer => Heeds.bind (heeds_ofExcept answer) fun reply => ?_
  cases reply with
  | authOk uuid uname => exact heeds_done _
  | _ => exact heeds_world fun _ => heeds_done _

theorem heeds_connect (app : App) (addr : String) : Heeds chat none (connect app addr) := by
  refine Heeds.bind (heeds_may (calls_read fun _ _ => id)) fun name => ?_
  cases name with
  | none => exact heeds_emit _
  | some username =>
      refine Heeds.bind (heeds_may (calls_read fun _ _ => id)) fun held => ?_
      cases held with
      | none => exact heeds_emit _
      | some device =>
          refine Heeds.bind (heeds_openLink _) fun isOpen => ?_
          cases isOpen with
          | false => exact heeds_done _
          | true =>
              refine Heeds.bind (heeds_hello app) fun _ =>
                Heeds.bind (heeds_challengeNonce username) fun nonce => ?_
              cases nonce with
              | none => exact heeds_done _
              | some nonce =>
                  refine Heeds.bind (heeds_authenticate device username nonce) fun granted => ?_
                  rcases granted with _ | ⟨uuid, uname⟩
                  · exact heeds_done _
                  · exact heeds_metaSet (heeds_metaSet (Heeds.bind (heeds_replenish device)
                      fun kept => Heeds.bind (heeds_goLive _) fun _ => Heeds.bind (heeds_emit _)
                        fun _ => Heeds.bind (heeds_emitChats _) fun _ => heeds_emit _))

theorem heeds_switchServer (app : App) (addr : String) :
    Heeds chat none (switchServer app addr) := by
  unfold switchServer
  dsimp only
  split
  · exact Heeds.bind (heeds_emitChats _) fun _ => heeds_emit _
  · refine heeds_apart (fun _ _ => nofun) fun name => ?_
    dsimp only [Prog.done_bind]
    split
    · exact heeds_connect app _
    · exact Heeds.bind (heeds_emit _) fun _ => Heeds.bind (heeds_emitChats _) fun _ =>
        heeds_emit _

theorem heeds_exportIdentity (app : App) : Heeds chat none (exportIdentity app) := by
  refine heeds_withServer fun server => heeds_withName fun username =>
    heeds_apart (fun _ _ => nofun) fun uuid => heeds_apart (fun _ _ => nofun) fun held => ?_
  cases held with
  | none => exact heeds_emit _
  | some device =>
      refine heeds_world fun backup => ?_
      cases backup with
      | ok path => exact heeds_emit _
      | error e => exact heeds_emit _

theorem heeds_importIdentity (path : String) : Heeds chat none (importIdentity path) := by
  refine heeds_world fun file => ?_
  cases file with
  | error e => exact heeds_emit _
  | ok data =>
      dsimp only [Prog.done_bind]
      split
      · exact heeds_emit _
      · split
        · exact heeds_world fun _ => heeds_done _
        · split
          · exact heeds_emit _
          · have restored : ∀ (server username : String), Heeds chat none (do
                lift (← Prog.query Ask.saveIndex)
                emit (.info ("identity '" ++ username ++ "' imported on " ++ server ++
                  " — select it and Connect to log in"))
                emit .servers) := by
              intro server username
              refine heeds_world fun saved => ?_
              dsimp only [Prog.done_bind]
              exact Heeds.bind (heeds_ofExcept saved) fun _ => Heeds.bind (heeds_emit _)
                fun _ => heeds_emit _
            refine heeds_saveAccount (heeds_metaSet (heeds_metaSet ?_))
            split
            · exact heeds_metaSet (heeds_upsertContact (restored _ _))
            · exact heeds_upsertContact (restored _ _)

theorem heeds_ping (app : App) : Heeds chat none (ping app) := by
  refine heeds_withServer fun server => heeds_withLink (heeds_world fun start =>
    heeds_world fun answer => Heeds.bind (heeds_ofExcept answer) fun reply =>
      heeds_world fun finish => ?_)
  cases reply with
  | pong => exact heeds_emit _
  | _ => exact heeds_emit _

/-- **A command** writes rows of chats it has made sure of. -/
theorem heeds_runCommand (app : App) (command : Command) :
    Heeds chat none (runCommand app command) := by
  have handled : Heeds chat none (handle app command) := by
    cases command with
    | connect server => exact heeds_connect app server
    | register server username => exact heeds_register app server username
    | switchServer server => exact heeds_switchServer app server
    | listChats => exact heeds_withServer fun server => heeds_emitChats server
    | history id limit =>
        exact heeds_withServer fun _ => heeds_apart (fun _ _ => nofun) fun _ => heeds_emit _
    | startDm username => exact heeds_startDm app username
    | createGroup name members accessMode => exact heeds_createGroup app name members accessMode
    | setAccess group mode => exact heeds_setAccess app group mode
    | joinGroup group key owner => exact heeds_joinGroup app group key owner
    | inviteMember group username => exact heeds_inviteMember app group username
    | acceptMember group username => exact heeds_acceptMember app group username
    | removeMember group username => exact heeds_removeMember app group username
    | banMember group username => exact heeds_banMember app group username
    | unbanMember group username => exact heeds_unbanMember app group username
    | unsuspendMember group username => exact heeds_unsuspendMember app group username
    | suspendMember group username duration => exact heeds_suspendMember app group username duration
    | groupInfo group => exact heeds_groupInfo app group
    | send id text => exact heeds_send app id text
    | leaveChat id => exact heeds_leaveChat app id
    | ping => exact heeds_ping app
    | exportIdentity => exact heeds_exportIdentity app
    | importIdentity path => exact heeds_importIdentity path
  refine Heeds.bind (Prog.Keeps.attempt handled) fun result => ?_
  cases result with
  | ok _ => exact heeds_done _
  | error e => exact heeds_emit _

end Client

/-! ### What is shown -/

/-- Whether the task has a line of the chat in the vault, after one more request. -/
def Ask.leaves (chat : String) (written : Bool) : Ask → Bool
  | .call (.insertMessage id ..) => written || id = chat
  | .call (.deleteChat id) => written && id ≠ chat
  | _ => written

/-- A message event follows a line of its chat. -/
def shownSpec (chat : String) : Prog.Spec Bool Ask Ask.Answer where
  demand asked written := ∀ sender text ts outgoing system,
    asked = .emit (.message chat sender text ts outgoing system) → written = true
  step asked written _ written' := written' = asked.leaves chat written

/-- The program shows what it has written. -/
def Shown (chat : String) (prog : Client α) : Prop :=
  Prog.Keeps (shownSpec chat) (fun _ => True) prog

theorem shown_ask {asked : Ask} {next : asked.Answer → Client α}
    (silent : ∀ sender text ts outgoing system,
      asked ≠ .emit (.message chat sender text ts outgoing system))
    (rest : ∀ answer, Shown chat (next answer)) : Shown chat (.ask asked next) :=
  Prog.keeps_ask (fun _ _ sender text ts outgoing system same =>
    absurd same (silent sender text ts outgoing system)) (fun _ _ _ _ _ => trivial) rest

theorem shown_done (value : α) : Shown chat (.done value : Client α) := Prog.keeps_done value

namespace Client

/-- A line and its event, with requests in between that leave the chat there. -/
theorem shown_line {room sender text : String} {ts : Int} {outgoing : Bool}
    {next : Unit → Client α}
    (rest : ∀ written : Bool, (room = chat → written = true) →
      Prog.wp (shownSpec chat) (fun _ _ => True) (next ()) written) :
    Shown chat ((insertMessage room sender text ts outgoing).bind next) := by
  intro written _
  refine ⟨nofun, fun recvTs written' made => ⟨nofun, fun answer written'' made' => ?_⟩⟩
  cases made
  cases made'
  exact rest _ fun here => by simp [Ask.leaves, here]

theorem wp_message {room sender text : String} {ts : Int} {outgoing system written : Bool}
    (inVault : room = chat → written = true) :
    Prog.wp (shownSpec chat) (fun _ _ => True)
      (emit (.message room sender text ts outgoing system)) written := by
  refine ⟨fun _ _ _ _ _ same => ?_, fun _ _ _ => trivial⟩
  cases same
  exact inVault rfl

theorem silent_of_basic {asked : Ask} (basic : asked.Basic) (sender text : String) (ts : Int)
    (outgoing system : Bool) : asked ≠ .emit (.message chat sender text ts outgoing system) := by
  rintro rfl
  exact basic

theorem shown_emitChats (addr : String) : Shown chat (emitChats addr) :=
  shown_ask nofun fun _ => shown_ask nofun shown_done

/-- Every text is shown under the name it is written under. -/
def shownWalk (chat : String) : Walk where
  rel prog _ := Shown chat prog
  names _ := True
  clocks _ _ := True
  done := shown_done
  fail error := Prog.keeps_fail error
  bind first second := Prog.Keeps.bind first second
  attempt shown := Prog.Keeps.attempt shown
  query basic := shown_ask (silent_of_basic basic) shown_done
  emitChats := shown_emitChats
  emitSystem _ _ _ _ := shown_line fun _ inVault => wp_message inVault
  showText _ _ _ _ _ _ := shown_line fun _ inVault => wp_message inVault
  showDm _ addr text ts ts' newChat := by
    refine shown_line fun written inVault => ?_
    cases newChat with
    | false => exact wp_message inVault
    | true =>
        -- the list of chats is shown in between
        refine ⟨nofun, fun rows written' made => ⟨nofun, fun _ written'' made' => ?_⟩⟩
        cases made
        cases made'
        exact wp_message inVault
  banUser _ _ _ _ := shown_ask nofun shown_done
  addJoinRequest _ _ _ _ := shown_ask nofun shown_done
  isSuspended _ group user := by
    refine shown_ask nofun fun deadline => ?_
    cases deadline with
    | none => exact shown_done _
    | some untilTs =>
        dsimp only [Prog.done_bind]
        split
        · exact shown_done _
        · exact shown_ask nofun fun _ => shown_done _

theorem shown_groupInfo (app : App) (group : String) : Shown chat (groupInfo app group) := by
  have told : ∀ msg, Shown chat (emit (.info msg)) := fun _ => shown_ask nofun shown_done
  refine @walk_withServer _ (shownWalk chat) app _ fun server => ?_
  refine shown_ask nofun fun me => shown_ask nofun fun row => ?_
  cases row with
  | none => exact shown_ask nofun shown_done
  | some row =>
      dsimp only [Prog.done_bind]
      split
      · refine shown_ask nofun fun pending => ?_
        dsimp only [Prog.done_bind]
        split <;> refine shown_ask nofun fun bans => ?_ <;> dsimp only [Prog.done_bind] <;>
          split <;> exact told _
      · exact told _

def shownCommands (chat : String) : CommandWalk where
  toWalk := shownWalk chat
  metaSet _ _ := shown_ask nofun shown_done
  emitHistory _ _ := shown_ask nofun fun _ => shown_ask nofun shown_done
  groupInfo := shown_groupInfo

/-- **A frame** shows what it has written. -/
theorem shown_processFrame (ctx : ProcCtx) (inc : Incoming) : Shown chat (processFrame ctx inc) :=
  @walk_processFrame _ (shownWalk chat) ctx inc inc.clientTs (fun _ => trivial) fun _ => trivial

theorem shown_send (app : App) (room text : String) : Shown chat (send app room text) := by
  rw [send_eq]
  exact @walk_withServer _ (shownWalk chat) app _ fun _ => walk_withName fun me =>
    walk_sendAs (show (shownWalk chat).names me from trivial) app room text

/-- **A command** shows what it has written. -/
theorem shown_runCommand (app : App) (command : Command) : Shown chat (runCommand app command) := by
  have handled : Shown chat (handle app command) := by
    by_cases sends : ∃ room text, command = .send room text
    · obtain ⟨room, text, rfl⟩ := sends
      exact shown_send app room text
    · exact @walk_handle _ (shownCommands chat) app command fun room text same =>
        sends ⟨room, text, same⟩
  refine Prog.Keeps.bind (Prog.Keeps.attempt handled) fun result => ?_
  cases result with
  | ok _ => exact shown_done _
  | error e => exact shown_ask nofun shown_done

end Client

end

end

end Cherm
