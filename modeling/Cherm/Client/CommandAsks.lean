/-
**What the commands that work on chats may ask for.**

The bounds of `Ask.May` for `startDm` and `send`, for the notice of a leave and for the shared body
of the moderation commands.
-/

import Cherm.Client.Asks
import Cherm.Client.Moderation

namespace Cherm

open Crates

section

variable [Crates]

section

variable {rows : VaultPart → String → Prop} {kinds : String → String → Prop}
  {sends : SendMsg → Prop}

namespace Client

/-! ### Preambles -/

theorem calls_activeServer (app : App) : Prog.Calls (Ask.May rows kinds sends)
    (activeServer app) := by
  unfold activeServer
  split
  · trivial
  · exact (calls_emit _).bind fun _ => trivial

theorem calls_ownUsername : Prog.Calls (Ask.May rows kinds sends) ownUsername := by
  refine (calls_read fun _ _ => id).bind fun me => ?_
  cases me with
  | some me => trivial
  | none => exact (calls_emit _).bind fun _ => trivial

theorem calls_activeLink (app : App) : Prog.Calls (Ask.May rows kinds sends) (activeLink app) := by
  unfold activeLink
  split
  · trivial
  · exact (calls_emit _).bind fun _ => trivial

theorem calls_knownChat (chat : String) : Prog.Calls (Ask.May rows kinds sends)
    (knownChat chat) := by
  refine (calls_read fun _ _ => id).bind fun row => ?_
  cases row with
  | some row => trivial
  | none => exact (calls_emit _).bind fun _ => trivial

/-! ### Starting a DM -/

theorem calls_startDmSession (contacts : ∀ id, rows .contacts id) {username : String}
    (session : rows .olmSessions username) :
    Prog.Calls (Ask.May rows kinds sends) (startDmSession username) := by
  refine (calls_read fun _ _ => id).bind fun held => ?_
  split
  · trivial
  · refine (calls_fetch username).bind fun reply => ?_
    cases reply with
    | prekeyBundle bundle =>
        dsimp only
        cases bundle.oneTimeKey with
        | none => exact (calls_emit _).bind fun _ => trivial
        | some otk =>
            refine (calls_acceptIdentity contacts _ _ _ _).bind fun accepted => ?_
            cases accepted with
            | false => trivial
            | true =>
                exact (calls_read fun _ _ => id).bind fun account =>
                  (calls_okOr _ _).bind fun device =>
                  calls_random.bind fun seed => (calls_lift _).bind fun opened =>
                    (calls_write session (fun _ _ => id) (by trivial)).bind fun _ => trivial
    | _ => exact (calls_emit _).bind fun _ => trivial

theorem calls_openDm {username : String} (chats : rows .chats username)
    (made : kinds username "dm") (roster : rows .chatMembers username) (server me : String) :
    Prog.Calls (Ask.May rows kinds sends) (openDm server me username) := by
  have member : ∀ user, Prog.Calls (Ask.May rows kinds sends) (call (.addMember username user)) :=
    fun _ => calls_write roster (fun _ _ => id) (by trivial)
  exact (calls_upsertChat chats made _).bind fun _ => (member _).bind fun _ =>
    (member _).bind fun _ =>
    (calls_emitFingerprint _).bind fun _ => (calls_emitChats _).bind fun _ =>
      ((calls_read fun _ _ => id).bind fun _ => calls_emit _).bind fun _ => calls_emit _

/-- Starting a DM writes contacts, the peer's session and the peer's chat. -/
theorem calls_startDm (contacts : ∀ id, rows .contacts id) {username : String}
    (session : rows .olmSessions username) (chats : rows .chats username)
    (made : kinds username "dm") (roster : rows .chatMembers username) (app : App) :
    Prog.Calls (Ask.May rows kinds sends) (startDm app username) := by
  refine (calls_activeServer app).bind fun server => ?_
  cases server with
  | none => trivial
  | some server =>
      refine calls_ownUsername.bind fun me => ?_
      cases me with
      | none => trivial
      | some me =>
          dsimp only
          split
          · exact (calls_emit _).bind fun _ => trivial
          · refine (calls_activeLink app).bind fun linked => ?_
            cases linked with
            | false => trivial
            | true =>
                refine (calls_startDmSession contacts session).bind fun started => ?_
                cases started with
                | false => trivial
                | true => exact calls_openDm chats made roster server me

/-! ### Sending -/

/-- Sending writes the chat's own rows, and sessions where a key is shared first. -/
theorem calls_send (contacts : ∀ id, rows .contacts id) (sessions : ∀ peer, rows .olmSessions peer)
    {chat : String} (out : rows .groupOut chat) (messages : rows .messages chat)
    (sent : ∀ msg, sends msg) (app : App) (text : String) :
    Prog.Calls (Ask.May rows kinds sends) (send app chat text) := by
  have stored : ∀ me now, Prog.Calls (Ask.May rows kinds sends) (do
      insertMessage chat me text now true
      emit (.message chat me text now true false)) := fun me now =>
    (calls_insertMessage messages _ _ _ _).bind fun _ => calls_emit _
  refine (calls_activeServer app).bind fun server => ?_
  cases server with
  | none => trivial
  | some server =>
      refine calls_ownUsername.bind fun me => ?_
      cases me with
      | none => trivial
      | some me =>
          refine (calls_knownChat chat).bind fun row => ?_
          rcases row with _ | ⟨kind, title⟩
          · trivial
          · refine (calls_activeLink app).bind fun linked => ?_
            cases linked with
            | false => trivial
            | true =>
                refine calls_now.bind fun now => ?_
                dsimp only
                split
                · refine (calls_read fun _ _ => id).bind fun held => ?_
                  cases held with
                  | none => exact (calls_emit _).bind fun _ => trivial
                  | some session =>
                      exact (calls_postOlm (sessions chat) (fun _ => sent _) _ _).bind fun _ =>
                        stored me now
                · refine (calls_groupSender out fun sender => (calls_read fun _ _ => id).bind
                    fun roster => calls_distributeGroupKey contacts
                      (fun member _ => sessions member)
                      (fun _ _ _ _ => sent _) _ _ _).bind fun sender => ?_
                  exact (calls_write out (fun _ _ => id) (by trivial)).bind fun _ =>
                    (calls_read fun _ _ => id).bind fun _ => (calls_post (sent _)).bind fun _ =>
                      stored me now
                · exact (calls_emit _).bind fun _ => trivial

/-! ### Leaving -/

/-- The notice of a leave writes sessions only. -/
theorem calls_leaveNotice (contacts : ∀ id, rows .contacts id)
    (sessions : ∀ peer, rows .olmSessions peer) {chat : String} (out : rows .groupOut chat)
    (sent : ∀ msg, sends msg) (app : App) (me kind title : String) (now : Int) :
    Prog.Calls (Ask.May rows kinds sends) (leaveNotice app me chat kind title now) := by
  unfold leaveNotice
  split
  · trivial
  · split
    · refine (calls_read fun _ _ => id).bind fun held => ?_
      cases held with
      | none => trivial
      | some session =>
          exact calls_random.bind fun seed => (calls_lift _).bind fun sealed =>
            (calls_write (sessions chat) (fun _ _ => id) (by trivial)).bind fun _ =>
              (calls_post (sent _)).attempt.bind fun _ => trivial
    · refine (calls_read fun _ _ => id).bind fun members => ?_
      refine (calls_groupSender out fun sender => calls_distributeGroupKey contacts
        (fun member _ => sessions member) (fun _ _ _ _ => sent _) me title sender).bind
          fun sender => ?_
      exact (calls_write out (fun _ _ => id) (by trivial)).bind fun _ =>
        (calls_post (sent _)).attempt.bind fun _ => trivial

/-! ### Moderating -/

theorem calls_groupName (group : String) :
    Prog.Calls (Ask.May rows kinds sends) (groupName group) :=
  (calls_read fun _ _ => id).bind fun _ => trivial

/-- Announcing, dropping and rekeying write the group's own rows, and sessions. -/
theorem calls_moderate (contacts : ∀ id, rows .contacts id)
    (sessions : ∀ peer, rows .olmSessions peer) {group : String} (out : rows .groupOut group)
    (roster : rows .chatMembers group) (inbound : rows .groupIn group)
    (messages : rows .messages group) (sent : ∀ msg, sends msg) (me user kind : String)
    (deadline : Option Int) :
    Prog.Calls (Ask.May rows kinds sends) (moderate group me user kind deadline) := by
  have rekey : Prog.Calls (Ask.May rows kinds sends) (rekeyGroup me group) :=
    calls_random.bind fun seed => (calls_write out (fun _ _ => id) (by trivial)).bind fun _ =>
      (calls_read fun _ _ => id).bind fun roster => (calls_groupName group).bind fun name =>
        calls_distributeGroupKey contacts (fun member _ => sessions member)
          (fun _ _ _ _ => sent _) me name _
  refine (calls_groupName group).bind fun name => ?_
  refine (calls_broadcastGroupEvent contacts sessions out (fun _ _ _ => sent _)
    (fun _ _ _ => sent _) me name _).bind fun _ => ?_
  refine (calls_write roster (fun _ _ => id) (by trivial)).bind fun _ =>
    (calls_write inbound (fun _ _ => id) (by trivial)).bind fun _ => ?_
  exact rekey.bind fun _ => calls_now.bind fun now =>
    (calls_emitGroupEvent messages _ _ _ _).bind fun _ => calls_emit _

end Client

end

end

end Cherm
