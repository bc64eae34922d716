/-
**The walk through the commands.**

A command is put together like a frame's handler. Besides what a `Walk` asks for, three things are
left to be shown of a relation: naming the client, showing a history, and `groupInfo`, which lists
join requests. A text is sent under the client's own name; `sendAs` is `send` after that name is
found.
-/

import Cherm.Client.Account
import Cherm.Client.Walk

namespace Cherm

open Crates

section

variable [Crates]

open Client

/-- A relation that has something to say of the commands' own requests. -/
structure CommandWalk extends Walk where
  metaSet : ∀ key value, rel (call (.metaSet key value)) (call (.metaSet key value))
  emitHistory : ∀ chat limit, rel (emitHistory chat limit) (emitHistory chat limit)
  groupInfo : ∀ app group, rel (groupInfo app group) (groupInfo app group)

namespace Client

variable {w : Walk}

theorem walk_metaSet {w : CommandWalk} (key value : String) : w.Same (call (.metaSet key value)) :=
  w.metaSet key value

theorem walk_emitHistory {w : CommandWalk} (chat : String) (limit : Int) :
    w.Same (emitHistory chat limit) := w.emitHistory chat limit

/-! ### Commands -/

theorem walk_activeServer (app : App) : w.Same (activeServer app) := by
  unfold activeServer
  split
  · exact walk_done _
  · exact (walk_emit (by trivial)).bind fun _ => walk_done _

theorem walk_ownUsername : w.Same ownUsername := by
  refine (walk_call (by trivial)).bind fun me => ?_
  cases me with
  | some me => exact walk_done _
  | none => exact (walk_emit (by trivial)).bind fun _ => walk_done _

theorem walk_activeLink (app : App) : w.Same (activeLink app) := by
  unfold activeLink
  split
  · exact walk_done _
  · exact (walk_emit (by trivial)).bind fun _ => walk_done _

theorem walk_knownChat (chat : String) : w.Same (knownChat chat) := by
  refine (walk_call (by trivial)).bind fun row => ?_
  cases row with
  | some row => exact walk_done _
  | none => exact (walk_emit (by trivial)).bind fun _ => walk_done _

/-- After the active server is found. -/
theorem walk_withServer {app : App} {next : String → Client Unit}
    (rest : ∀ server, w.Same (next server)) :
    w.Same (do
      let some server ← activeServer app | return ()
      next server) := by
  refine (walk_activeServer app).bind fun server => ?_
  cases server with
  | none => exact walk_done _
  | some server => exact rest server

/-- After our own name is found. -/
theorem walk_withName {next : String → Client Unit} (rest : ∀ me, w.Same (next me)) :
    w.Same (do
      let some me ← ownUsername | return ()
      next me) := by
  refine walk_ownUsername.bind fun me => ?_
  cases me with
  | none => exact walk_done _
  | some me => exact rest me

/-- After the link is found alive. -/
theorem walk_withLink {app : App} {next : Client Unit} (rest : w.Same next) :
    w.Same (do
      if !(← activeLink app) then return ()
      next) := by
  refine (walk_activeLink app).bind fun linked => ?_
  cases linked with
  | false => exact walk_done _
  | true => exact rest

theorem walk_startDmSession (username : String) : w.Same (startDmSession username) := by
  refine (walk_call (by trivial)).bind fun held => ?_
  split
  · exact walk_done _
  · refine (walk_request _).bind fun reply => ?_
    cases reply with
    | prekeyBundle bundle =>
        dsimp only
        cases bundle.oneTimeKey with
        | none => exact (walk_emit (by trivial)).bind fun _ => walk_done _
        | some otk =>
            refine (walk_acceptIdentity _ _ _ _).bind fun accepted => ?_
            cases accepted with
            | false => exact walk_done _
            | true =>
                exact (walk_call (by trivial)).bind fun account => (walk_okOr _ _).bind
                  fun device => walk_random.bind fun seed => (walk_ofExcept _).bind fun opened =>
                    (walk_call (by trivial)).bind fun _ => walk_done _
    | _ => exact (walk_emit (by trivial)).bind fun _ => walk_done _

theorem walk_startDm {w : CommandWalk} (app : App) (username : String) :
    w.Same (startDm app username) := by
  refine walk_withServer fun server => walk_withName fun me => ?_
  split
  · exact (walk_emit (by trivial)).bind fun _ => walk_done _
  · refine walk_withLink ((walk_startDmSession username).bind fun started => ?_)
    cases started with
    | false => exact walk_done _
    | true =>
        exact (walk_upsertChat _ _ _).bind fun _ => (walk_call (by trivial)).bind fun _ =>
          (walk_call (by trivial)).bind fun _ => (walk_emitFingerprint _).bind fun _ =>
            (walk_emitChats _).bind fun _ => (walk_emitHistory _ _).bind fun _ =>
              walk_emit (by trivial)

theorem walk_createGroup (app : App) (name : String) (members : List String)
    (accessMode : Option String) : w.Same (createGroup app name members accessMode) := by
  refine walk_withServer fun server => walk_withName fun me => ?_
  dsimp only
  split
  · exact (walk_emit (by trivial)).bind fun _ => walk_done _
  · have member : ∀ group m, w.Same (call (.addMember group m)) := fun _ _ =>
      walk_call (by trivial)
    refine walk_withLink (walk_random.bind fun seed => walk_random.bind fun uuid => ?_)
    refine (walk_call (by trivial)).bind fun _ => (walk_upsertChat _ _ _).bind fun _ => ?_
    refine (walk_forEach fun m _ => member _ m).bind fun _ => walk_random.bind fun draw => ?_
    exact (walk_call (by trivial)).bind fun made => (walk_ofExcept _).bind fun key =>
      (walk_distributeGroupKey _ _ _ _ _).bind fun _ => (walk_emitChats _).bind fun _ =>
        (walk_emit (by trivial)).bind fun _ => walk_emit (by trivial)

/-- `send`, under a name. -/
def sendAs (app : App) (chat text me : String) : Client Unit := do
  let some (kind, title) ← knownChat chat | return ()
  if !(← activeLink app) then return ()
  let now ← now
  match kind with
  | "dm" =>
      match ← call (.loadOlm chat) with
      | none =>
          emit (.error "no_session" "no Olm session; start_dm first")
          return ()
      | some session => postOlm session chat MsgType.olm (utf8 text) none now
  | "group" =>
      let sender ← groupSender chat fun sender => do
        let roster ← call (.getMembers chat)
        distributeGroupKey me chat title roster sender
      let (bytes, sender) := sender.encrypt (utf8 text)
      call (.saveGroupOut chat sender)
      let members ← call (.getMembers chat)
      post (.send ⟨members.filter (· ≠ me), MsgType.megolm, b64Encode bytes, some chat, now⟩)
  | other =>
      emit (.error ErrCode.badRequest ("unknown chat kind " ++ other))
      return ()
  showText chat me text now true

theorem send_eq (app : App) (chat text : String) :
    send app chat text = (do
      let some _ ← activeServer app | return ()
      let some me ← ownUsername | return ()
      sendAs app chat text me) := rfl

theorem walk_sendAs {me : String} (named : w.names me) (app : App) (chat text : String) :
    w.Same (sendAs app chat text me) := by
  refine (walk_knownChat chat).bind fun row => ?_
  rcases row with _ | ⟨kind, title⟩
  · exact walk_done _
  refine walk_withLink (walk_now.bind fun now => ?_)
  have stored : w.Same (showText chat me text now true) := w.showText named _ _ _ _ _
  dsimp only
  split
  · refine (walk_call (by trivial)).bind fun held => ?_
    cases held with
    | none => exact (walk_emit (by trivial)).bind fun _ => walk_done _
    | some session => exact (walk_postOlm _ _ _ _ _ _).bind fun _ => stored
  · refine (walk_groupSender _ fun sender => (walk_call (by trivial)).bind fun roster =>
      walk_distributeGroupKey _ _ _ _ _).bind fun sender => ?_
    exact (walk_call (by trivial)).bind fun _ => (walk_call (by trivial)).bind fun _ =>
      (walk_post _).bind fun _ => stored
  · exact (walk_emit (by trivial)).bind fun _ => walk_done _

theorem walk_leaveChat (app : App) (chat : String) : w.Same (leaveChat app chat) := by
  refine walk_withServer fun server => walk_withName fun me =>
    (walk_knownChat chat).bind fun row => ?_
  rcases row with _ | ⟨kind, title⟩
  · exact walk_done _
  refine walk_now.bind fun now => ?_
  have notice : w.Same (leaveNotice app me chat kind title now) := by
    unfold leaveNotice
    split
    · exact walk_done _
    · split
      · refine (walk_call (by trivial)).bind fun held => ?_
        cases held with
        | none => exact walk_done _
        | some session =>
            exact walk_random.bind fun _ => (walk_ofExcept _).bind fun _ =>
              (walk_call (by trivial)).bind fun _ => (Walk.Rel.attempt (walk_post _)).bind
                fun _ => walk_done _
      · exact (walk_call (by trivial)).bind fun members =>
          (walk_groupSender _ fun sender => walk_distributeGroupKey _ _ _ _ _).bind fun sender =>
            (walk_call (by trivial)).bind fun _ => (Walk.Rel.attempt (walk_post _)).bind
              fun _ => walk_done _
  split
  · exact (walk_emit (by trivial)).bind fun _ => walk_done _
  · exact notice.bind fun _ => (walk_call (by trivial)).bind fun _ =>
      (walk_emitChats _).bind fun _ => walk_emit (by trivial)

/-! ### Commands of the owner -/

theorem walk_groupOwnerCtx (app : App) (group : String) :
    w.Same (groupOwnerCtx app group) := by
  refine (walk_activeServer app).bind fun server => ?_
  cases server with
  | none => exact walk_done _
  | some server =>
      refine walk_ownUsername.bind fun me => ?_
      cases me with
      | none => exact walk_done _
      | some me =>
          refine (walk_activeLink app).bind fun linked => ?_
          cases linked with
          | false => exact walk_done _
          | true =>
              refine (walk_call (by trivial)).bind fun row => ?_
              cases row with
              | none => exact (walk_emit (by trivial)).bind fun _ => walk_done _
              | some row =>
                  dsimp only
                  split
                  · exact (walk_emit (by trivial)).bind fun _ => walk_done _
                  · exact walk_done _

/-- After the owner has passed. -/
theorem walk_asOwner {app : App} {group : String}
    {next : String → String → GroupMeta → Client Unit}
    (rest : ∀ server me row, w.Same (next server me row)) :
    w.Same (do
      let some (server, me, row) ← groupOwnerCtx app group | return ()
      next server me row) := by
  refine (walk_groupOwnerCtx app group).bind fun found => ?_
  rcases found with _ | ⟨server, me, row⟩
  · exact walk_done _
  · exact rest server me row

theorem walk_groupName (group : String) : w.Same (groupName group) :=
  (walk_call (by trivial)).bind fun _ => walk_done _

theorem walk_setAccess (app : App) (group mode : String) : w.Same (setAccess app group mode) := by
  unfold setAccess
  split
  · exact (walk_emit (by trivial)).bind fun _ => walk_done _
  · exact walk_asOwner fun server me row => (walk_call (by trivial)).bind fun _ =>
      (walk_groupName _).bind fun name => (walk_broadcastGroupEvent _ _ _ _).bind fun _ =>
        walk_now.bind fun now => (walk_emitGroupEvent _ _ _ _ _ _).bind fun _ =>
          walk_emit (by trivial)

theorem walk_joinGroup (app : App) (group key owner : String) :
    w.Same (joinGroup app group key owner) := by
  refine walk_withServer fun server => walk_withName fun me => ?_
  split
  · exact (walk_emit (by trivial)).bind fun _ => walk_done _
  · split
    · exact (walk_emit (by trivial)).bind fun _ => walk_done _
    · exact walk_withLink ((walk_sendOlmControl _ _ _ _).bind fun _ => walk_emit (by trivial))

theorem walk_admitUnblocked (me server group username suspended admitted : String) :
    w.Same (admitUnblocked me server group username suspended admitted) := by
  refine (walk_call (by trivial)).bind fun banned => ?_
  split
  · exact (walk_emit (by trivial)).bind fun _ => walk_done _
  · refine walk_now.bind fun now => (walk_isSuspended _ _ _).bind fun out => ?_
    split
    · exact (walk_emit (by trivial)).bind fun _ => walk_done _
    · exact (walk_admitMember _ _ _ _ _ _).bind fun _ => walk_emit (by trivial)

theorem walk_inviteMember (app : App) (group username : String) :
    w.Same (inviteMember app group username) := by
  refine walk_asOwner fun server me row => ?_
  split
  · exact (walk_emit (by trivial)).bind fun _ => walk_done _
  · exact walk_admitUnblocked _ _ _ _ _ _

theorem walk_acceptMember (app : App) (group username : String) :
    w.Same (acceptMember app group username) := by
  refine walk_asOwner fun server me row => (walk_call (by trivial)).bind fun asked => ?_
  split
  · exact (walk_emit (by trivial)).bind fun _ => walk_done _
  · exact walk_admitUnblocked _ _ _ _ _ _

theorem walk_moderate (group me username kind : String) (deadline : Option Int) :
    w.Same (moderate group me username kind deadline) := by
  have rekeyed : w.Same (rekeyGroup me group) :=
    walk_random.bind fun _ => (walk_call (by trivial)).bind fun _ =>
      (walk_call (by trivial)).bind fun _ => (walk_groupName _).bind fun _ =>
        walk_distributeGroupKey _ _ _ _ _
  exact (walk_groupName _).bind fun name => (walk_broadcastGroupEvent _ _ _ _).bind fun _ =>
    (walk_call (by trivial)).bind fun _ => (walk_call (by trivial)).bind fun _ =>
      rekeyed.bind fun _ => walk_now.bind fun now => (walk_emitGroupEvent _ _ _ _ _ _).bind
        fun _ => walk_emit (by trivial)

theorem walk_removeMember (app : App) (group username : String) :
    w.Same (removeMember app group username) := by
  refine walk_asOwner fun server me row => ?_
  split
  · exact (walk_emit (by trivial)).bind fun _ => walk_done _
  · exact walk_moderate _ _ _ _ _

theorem walk_banMember (app : App) (group username : String) :
    w.Same (banMember app group username) := by
  refine walk_asOwner fun server me row => ?_
  split
  · exact (walk_emit (by trivial)).bind fun _ => walk_done _
  · exact walk_now.bind fun now => (walk_call (by trivial)).bind fun _ => walk_moderate _ _ _ _ _

theorem walk_suspendMember (app : App) (group username duration : String) :
    w.Same (suspendMember app group username duration) := by
  refine walk_asOwner fun server me row => ?_
  split
  · exact (walk_emit (by trivial)).bind fun _ => walk_done _
  · dsimp only
    split
    · exact (walk_emit (by trivial)).bind fun _ => walk_done _
    · exact walk_now.bind fun now => (walk_call (by trivial)).bind fun _ =>
        walk_moderate _ _ _ _ _

theorem walk_unbanMember (app : App) (group username : String) :
    w.Same (unbanMember app group username) := by
  refine (walk_groupOwnerCtx app group).bind fun found => ?_
  cases found with
  | none => exact walk_done _
  | some found =>
      refine (walk_call (by trivial)).bind fun banned => ?_
      split
      · exact (walk_emit (by trivial)).bind fun _ => walk_done _
      · exact (walk_call (by trivial)).bind fun _ => walk_emit (by trivial)

theorem walk_unsuspendMember (app : App) (group username : String) :
    w.Same (unsuspendMember app group username) := by
  refine (walk_groupOwnerCtx app group).bind fun found => ?_
  cases found with
  | none => exact walk_done _
  | some found =>
      refine (walk_call (by trivial)).bind fun deadline => ?_
      cases deadline with
      | none => exact (walk_emit (by trivial)).bind fun _ => walk_done _
      | some deadline => exact (walk_call (by trivial)).bind fun _ => walk_emit (by trivial)

/-! ### The identity -/

theorem walk_openLink (server : String) : w.Same (openLink server) := by
  refine walk_ask (by trivial) fun answer => ?_
  cases answer with
  | ok _ => exact walk_done _
  | error e => exact (walk_emit (by trivial)).bind fun _ => walk_done _

theorem walk_replenish (device : Device) : w.Same (replenish device) :=
  walk_random.bind fun _ => (walk_call (by trivial)).bind fun _ => walk_done _

theorem walk_goLive (otks : List OneTimeKey) : w.Same (goLive otks) := by
  refine (Walk.Rel.attempt (walk_request _)).bind fun _ =>
    (Walk.Rel.attempt (walk_post _)).bind fun _ => ?_
  exact walk_ask (by trivial) walk_ofExcept

theorem walk_greeting {w : CommandWalk} (server uname uuid : String) : w.Same (do
    emit (.registered server uname uuid)
    emit (.connected server uname)
    emitChats server
    emit .servers) :=
  (walk_emit (by trivial)).bind fun _ => (walk_emit (by trivial)).bind fun _ =>
    (walk_emitChats _).bind fun _ => walk_emit (by trivial)

theorem walk_claim {w : CommandWalk} (app : App) (username server : String) (device : Device) :
    w.Same (do
      if !(← openLink server) then return ()
      let _ ← (request (clientHello app)).attempt
      match ← request (.register username device.ed25519B64 device.curve25519B64 app.machineId) with
      | .authOk uuid uname =>
          call (.metaSet "username" uname)
          call (.metaSet "uuid" uuid)
          call (.metaSet "server" server)
          call (.upsertContact uname uuid device.ed25519B64 device.curve25519B64)
          let (device, otks) ← replenish device
          match ← Prog.query (Ask.writeBackup server uname uuid device) with
          | .ok path => emit (.info ("identity backed up to " ++ path ++ " (keep it safe)"))
          | .error _ => pure ()
          goLive otks
          emit (.registered server uname uuid)
          emit (.connected server uname)
          emitChats server
          emit .servers
      | .error code message => emit (.error code message)
      | other => emit (.error "internal" ("unexpected register reply: " ++ debugText other))) := by
  refine (walk_openLink server).bind fun isOpen => ?_
  cases isOpen with
  | false => exact walk_done _
  | true =>
      refine (Walk.Rel.attempt (walk_request _)).bind fun _ => (walk_request _).bind
        fun reply => ?_
      cases reply with
      | authOk uuid uname =>
          refine (walk_metaSet _ _).bind fun _ => (walk_metaSet _ _).bind fun _ =>
            (walk_metaSet _ _).bind fun _ => (walk_call (by trivial)).bind fun _ =>
              (walk_replenish device).bind fun kept => walk_ask (by trivial) fun backup => ?_
          cases backup with
          | ok path =>
              exact (walk_emit (by trivial)).bind fun _ => (walk_goLive _).bind fun _ =>
                walk_greeting _ _ _
          | error e => exact (walk_goLive _).bind fun _ => walk_greeting _ _ _
      | _ => exact walk_emit (by trivial)

theorem walk_register {w : CommandWalk} (app : App) (addr username : String) :
    w.Same (register app addr username) := by
  unfold register
  dsimp only
  split
  · exact (walk_emit (by trivial)).bind fun _ => walk_done _
  · split
    · exact (walk_emit (by trivial)).bind fun _ => walk_done _
    · refine (walk_call (by trivial)).bind fun held => ?_
      cases held with
      | some device => exact walk_claim app username _ device
      | none => exact walk_random.bind fun seed => (walk_call (by trivial)).bind fun _ =>
          walk_claim app username _ _

theorem walk_challengeNonce (username : String) : w.Same (challengeNonce username) := by
  refine (walk_request _).bind fun reply => ?_
  cases reply with
  | challenge nonce =>
      dsimp only
      split
      · exact walk_done _
      · exact (walk_emit (by trivial)).bind fun _ => walk_done _
  | _ => exact (walk_emit (by trivial)).bind fun _ => walk_done _

theorem walk_authenticate (device : Device) (username : String) (nonce : Bytes) :
    w.Same (authenticate device username nonce) := by
  refine (walk_request _).bind fun reply => ?_
  cases reply with
  | authOk uuid uname => exact walk_done _
  | _ => exact (walk_emit (by trivial)).bind fun _ => walk_done _

theorem walk_connect {w : CommandWalk} (app : App) (addr : String) : w.Same (connect app addr) := by
  refine (walk_call (by trivial)).bind fun name => ?_
  cases name with
  | none => exact walk_emit (by trivial)
  | some username =>
      refine (walk_call (by trivial)).bind fun held => ?_
      cases held with
      | none => exact walk_emit (by trivial)
      | some device =>
          refine (walk_openLink _).bind fun isOpen => ?_
          cases isOpen with
          | false => exact walk_done _
          | true =>
              refine (Walk.Rel.attempt (walk_request _)).bind fun _ =>
                (walk_challengeNonce username).bind fun nonce => ?_
              cases nonce with
              | none => exact walk_done _
              | some nonce =>
                  refine (walk_authenticate device username nonce).bind fun granted => ?_
                  rcases granted with _ | ⟨uuid, uname⟩
                  · exact walk_done _
                  · exact (walk_metaSet _ _).bind fun _ =>
                      (walk_metaSet _ _).bind fun _ => (walk_replenish device).bind
                        fun kept => (walk_goLive _).bind fun _ => (walk_emit (by trivial)).bind
                          fun _ => (walk_emitChats _).bind fun _ => walk_emit (by trivial)

theorem walk_switchServer {w : CommandWalk} (app : App) (addr : String) :
    w.Same (switchServer app addr) := by
  unfold switchServer
  dsimp only
  split
  · exact (walk_emitChats _).bind fun _ => walk_emit (by trivial)
  · refine (walk_call (by trivial)).bind fun name => ?_
    split
    · exact walk_connect _ _
    · exact (walk_emit (by trivial)).bind fun _ => (walk_emitChats _).bind fun _ =>
        walk_emit (by trivial)

theorem walk_exportIdentity (app : App) : w.Same (exportIdentity app) := by
  refine walk_withServer fun server => walk_withName fun username =>
    (walk_call (by trivial)).bind fun uuid => (walk_call (by trivial)).bind fun held => ?_
  cases held with
  | none => exact walk_emit (by trivial)
  | some device =>
      refine walk_ask (by trivial) fun backup => ?_
      cases backup with
      | ok path => exact walk_emit (by trivial)
      | error e => exact walk_emit (by trivial)

theorem walk_importIdentity {w : CommandWalk} (path : String) : w.Same (importIdentity path) := by
  refine walk_ask (by trivial) fun file => ?_
  cases file with
  | error e => exact walk_emit (by trivial)
  | ok data =>
      dsimp only [Prog.done_bind]
      split
      · exact walk_emit (by trivial)
      · split
        · exact (walk_emit (by trivial)).bind fun _ => walk_done _
        · split
          · exact walk_emit (by trivial)
          · have restored : ∀ (server username : String), w.Same (do
                lift (← Prog.query Ask.saveIndex)
                emit (.info ("identity '" ++ username ++ "' imported on " ++ server ++
                  " — select it and Connect to log in"))
                emit .servers) := fun server username =>
              walk_ask (by trivial) fun saved => (walk_ofExcept saved).bind fun _ =>
                (walk_emit (by trivial)).bind fun _ => walk_emit (by trivial)
            refine (walk_call (by trivial)).bind fun _ => (walk_metaSet _ _).bind fun _ =>
              (walk_metaSet _ _).bind fun _ => ?_
            split
            · exact (walk_metaSet _ _).bind fun _ => (walk_call (by trivial)).bind
                fun _ => restored _ _
            · exact (walk_call (by trivial)).bind fun _ => restored _ _

theorem walk_ping (app : App) : w.Same (ping app) := by
  refine walk_withServer fun server => walk_withLink (walk_now.bind fun start =>
    (walk_request _).bind fun reply => walk_now.bind fun finish => ?_)
  cases reply with
  | pong => exact walk_emit (by trivial)
  | _ => exact walk_emit (by trivial)

/-- **A command**, but for `send`. -/
theorem walk_handle {w : CommandWalk} (app : App) {command : Command}
    (other : ∀ chat text, command ≠ .send chat text) :
    w.Same (handle app command) := by
  cases command with
  | connect server => exact walk_connect _ _
  | register server username => exact walk_register _ _ _
  | switchServer server => exact walk_switchServer _ _
  | listChats => exact walk_withServer fun server => walk_emitChats server
  | history chat limit => exact walk_withServer fun _ => w.emitHistory _ _
  | startDm username => exact walk_startDm _ _
  | createGroup name members accessMode => exact walk_createGroup _ _ _ _
  | setAccess group mode => exact walk_setAccess _ _ _
  | joinGroup group key owner => exact walk_joinGroup _ _ _ _
  | inviteMember group username => exact walk_inviteMember _ _ _
  | acceptMember group username => exact walk_acceptMember _ _ _
  | removeMember group username => exact walk_removeMember _ _ _
  | banMember group username => exact walk_banMember _ _ _
  | unbanMember group username => exact walk_unbanMember _ _ _
  | unsuspendMember group username => exact walk_unsuspendMember _ _ _
  | suspendMember group username duration => exact walk_suspendMember _ _ _ _
  | groupInfo group => exact w.groupInfo _ _
  | send chat text => exact absurd rfl (other chat text)
  | leaveChat chat => exact walk_leaveChat _ _
  | ping => exact walk_ping _
  | exportIdentity => exact walk_exportIdentity _
  | importIdentity path => exact walk_importIdentity _

end Client

end

end Cherm
