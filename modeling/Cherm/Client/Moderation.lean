/-
**The command task: group access control.**

Every command that changes a group starts with `groupOwnerCtx`, which lets only the recorded owner
pass. Removing, banning and suspending share one body, `moderate`: the event goes out under the
current key while the target is still a member, then the target is dropped, then the key is rotated.
-/

import Cherm.Client.Session

namespace Cherm

section

variable [Crates]

namespace Client

/-- The server, our name and the group's row, for the recorded owner only; else an error event. -/
def groupOwnerCtx (app : App) (group : String) : Client (Option (String × String × GroupMeta)) := do
  let some server ← activeServer app | return none
  let some me ← ownUsername | return none
  if !(← activeLink app) then return none
  match ← call (.getGroupMeta group) with
  | none =>
      emit (.error "no_such_group" "no such group (open the group first)")
      return none
  | some row =>
      if row.owner.isEmpty || row.owner ≠ me then
        emit (.error "not_owner" "only the group owner can do that")
        return none
      return some (server, me, row)

/-- The title of a group's chat, empty without one. -/
def groupName (group : String) : Client String := do
  let chat ← call (.getChat group)
  return chat.elim "" Prod.snd

/-- Mint a fresh outbound key and share it to the current roster. -/
def rekeyGroup (me group : String) : Client Unit := do
  let seed ← random
  let sender := GroupSender.new seed
  call (.saveGroupOut group sender)
  let roster ← call (.getMembers group)
  let name ← groupName group
  distributeGroupKey me group name roster sender

/-- `set_access`. -/
def setAccess (app : App) (group mode : String) : Client Unit := do
  if !AccessMode.valid mode then
    emit (.error "bad_access_mode" "access mode must be open, approval or invite_only")
    return ()
  let some (_, me, _) ← groupOwnerCtx app group | return ()
  call (.setAccessMode group mode)
  let name ← groupName group
  broadcastGroupEvent me group name (accessEvent mode)
  let now ← now
  emitGroupEvent group "access" "" mode now
  emit (.info ("access mode set to " ++ mode))

/-- `join_group`: ask the owner of an invite for access. -/
def joinGroup (app : App) (group key owner : String) : Client Unit := do
  let some _ ← activeServer app | return ()
  let some me ← ownUsername | return ()
  if !validGroupKey key then
    emit (.error "bad_key" "invalid group key (8 letters/digits)")
    return ()
  if owner = me then
    emit (.error "self_join" "you are the owner of that group")
    return ()
  if !(← activeLink app) then return ()
  sendOlmControl owner MsgType.groupJoin group (JoinRequest.mk group key).toJson
  emit (.info ("join request sent to " ++ owner ++ " — you'll be added if accepted"))

/-- Admit a user who is neither banned nor suspended; what is said of a suspension, and after the
admission, is the command's own. -/
def admitUnblocked (me server group username suspended admitted : String) : Client Unit := do
  if ← call (.isBanned group username) then
    emit (.error "banned" (username ++ " is banned from this group"))
    return ()
  let now ← now
  if ← isSuspended group username now then
    emit (.error "suspended" (username ++ suspended))
    return ()
  admitMember me server group username now
  emit (.info (admitted ++ username))

/-- `invite_member`: add a user directly. -/
def inviteMember (app : App) (group username : String) : Client Unit := do
  let some (server, me, _) ← groupOwnerCtx app group | return ()
  if username = me then
    emit (.error ErrCode.badRequest "you are already in the group")
    return ()
  admitUnblocked me server group username
    " is suspended; /unsuspend first to add them back early" "invited "

/-- `accept_member`: accept a pending join request. -/
def acceptMember (app : App) (group username : String) : Client Unit := do
  let some (server, me, _) ← groupOwnerCtx app group | return ()
  if !(← call (.hasJoinRequest group username)) then
    emit (.error "no_request" ("no pending join request from " ++ username))
    return ()
  admitUnblocked me server group username
    " is suspended; /unsuspend first to admit them early" "accepted "

/-- The shared body of remove, ban and suspend. -/
def moderate (group me username kind : String) (deadline : Option Int) : Client Unit := do
  let name ← groupName group
  broadcastGroupEvent me group name (moderationEvent kind username deadline)
  call (.removeMember group username)
  call (.deleteGroupIn group username)
  rekeyGroup me group
  let now ← now
  emitGroupEvent group kind username "" now
  emit (.info (username ++ " " ++ kind))

/-- `remove_member`. -/
def removeMember (app : App) (group username : String) : Client Unit := do
  let some (_, me, _) ← groupOwnerCtx app group | return ()
  if username = me then
    emit (.error ErrCode.badRequest "you can't remove yourself; leave the group")
    return ()
  moderate group me username "removed" none

/-- `ban_member`. -/
def banMember (app : App) (group username : String) : Client Unit := do
  let some (_, me, _) ← groupOwnerCtx app group | return ()
  if username = me then
    emit (.error ErrCode.badRequest "you can't ban yourself")
    return ()
  let now ← now
  call (.banUser group username now)
  moderate group me username "banned" none

/-- `unban_member`. -/
def unbanMember (app : App) (group username : String) : Client Unit := do
  let some _ ← groupOwnerCtx app group | return ()
  if !(← call (.isBanned group username)) then
    emit (.error "not_banned" (username ++ " is not banned"))
    return ()
  call (.unbanUser group username)
  emit (.info ("unbanned " ++ username))

/-- `unsuspend_member`. -/
def unsuspendMember (app : App) (group username : String) : Client Unit := do
  let some _ ← groupOwnerCtx app group | return ()
  match ← call (.suspendedUntil group username) with
  | none =>
      emit (.error "not_suspended" (username ++ " is not suspended"))
      return ()
  | some _ =>
      call (.clearSuspension group username)
      emit (.info ("unsuspended " ++ username))

end Client

/-! ### Durations -/

/-- A number in the range of `i64`. -/
def inI64 (value : Int) : Bool := -2 ^ 63 ≤ value && value < 2 ^ 63

/-- A sum of `i64`, which wraps in the release build. -/
def wrapI64 (value : Int) : Int := value.bmod (2 ^ 64)

/-- `i64::from_str`: decimal digits after an optional sign, in range. -/
def parseI64 (text : List Char) : Option Int :=
  let value : Option Int := match text with
    | '-' :: rest => (parseDigits rest).map fun n => -(n : Int)
    | '+' :: rest => (parseDigits rest).map Int.ofNat
    | _ => (parseDigits text).map Int.ofNat
  value.filter inI64

/-- The number part and the unit, in milliseconds; a bare number is in minutes. -/
def durationParts (text : List Char) : Option (List Char × Int) := do
  let last ← text.getLast?
  match last with
  | 's' | 'S' => some (text.dropLast, 1000)
  | 'm' | 'M' => some (text.dropLast, 60000)
  | 'h' | 'H' => some (text.dropLast, 3600000)
  | 'd' | 'D' => some (text.dropLast, 86400000)
  | c => if c.isDigit then some (text, 60000) else none

/-- A duration such as `30s`, `10m`, `2h` or `1d`, in milliseconds. -/
def parseDuration (s : String) : Option Int := do
  let (number, unitMs) ← durationParts (trim s.toList)
  let n ← parseI64 (trim number)
  if n < 0 then none else (some (n * unitMs)).filter inI64

namespace Client

/-- `suspend_member`. -/
def suspendMember (app : App) (group username duration : String) : Client Unit := do
  let some (_, me, _) ← groupOwnerCtx app group | return ()
  if username = me then
    emit (.error ErrCode.badRequest "you can't suspend yourself")
    return ()
  match (parseDuration duration).filter (0 < ·) with
  | none =>
      emit (.error "bad_duration" "duration must look like 30s, 10m, 2h or 1d")
      return ()
  | some durMs =>
      let now ← now
      let deadline := wrapI64 (now + durMs)
      call (.suspendUser group username deadline)
      moderate group me username "suspended" (some deadline)

/-- `group_info`. -/
def groupInfo (app : App) (group : String) : Client Unit := do
  let some _ ← activeServer app | return ()
  let me := (← call (.metaGet "username")).getD ""
  match ← call (.getGroupMeta group) with
  | none =>
      emit (.error "no_such_group" "no such group (open a group first)")
      return ()
  | some row =>
      let amOwner := !row.owner.isEmpty && row.owner = me
      let mut msg := "group: " ++ group ++ "  ·  invite key: " ++ row.groupKey ++ "  ·  mode: " ++
        row.accessMode ++ "  ·  owner: " ++ if row.owner.isEmpty then "(unknown)" else row.owner
      if amOwner then
        msg := msg ++ "  ·  share: /join " ++ group ++ " " ++ row.groupKey ++ " " ++ me
        let pending ← call (.listJoinRequests group)
        if !pending.isEmpty then msg := msg ++ "  ·  pending: " ++ ", ".intercalate pending
        let bans ← call (.listBans group)
        if !bans.isEmpty then msg := msg ++ "  ·  banned: " ++ ", ".intercalate bans
      emit (.info msg)

end Client

end

end Cherm
