/-
**One control reply for each message.**

A frame that the relay writes to a client is a delivery, a notice of maintenance, or a control
reply. `handle_replies`: a handler makes one control reply, on every path; a `Pull` of a connection
that is logged in makes none. What it writes besides are deliveries. A login is never undone.
-/

import Cherm.Lib.Exactly
import Cherm.Relay.Conn

namespace Cherm

/-- The reader does not hand it to the processor, and it is not a notice. -/
def ServerMsg.control : ServerMsg → Bool
  | .deliver _ | .maintenance .. => false
  | _ => true

namespace Relay

open Crates

/-- A reply is a control reply, and what waits for room is none. -/
def Ask.Speaks : Ask → Prop
  | .trySend msg => msg.control = true
  | .sendWait msg => msg.control = false
  | _ => True

def Ask.replies : Ask → Bool
  | .trySend _ => true
  | _ => false

/-- So many replies, on every path. -/
abbrev Replies {α : Type} (n : Nat) (post : α → Prop) (task : Task α) : Prop :=
  Prog.Exactly Ask.Speaks Ask.replies post n task

/-- Whoever was logged in still is. -/
def StaysIn (state state' : ConnState) : Prop :=
  state.authed.isSome = true → state'.authed.isSome = true

/-- It says one thing, and ends. -/
theorem replies_reply {α : Type} {post : α → Prop} {msg : ServerMsg} (control : msg.control = true)
    {value : α} (meets : post value) :
    Replies 1 post ((reply msg).bind fun _ => Prog.done value) :=
  .count control rfl fun _ => .done meets

theorem replies_err {α : Type} {post : α → Prop} (code message : String) {value : α}
    (meets : post value) : Replies 1 post ((err code message).bind fun _ => Prog.done value) :=
  replies_reply rfl meets

theorem replies_fetchPrekeys (state : ConnState) (username : String) :
    Replies 1 (fun _ => True) (fetchPrekeys state username) := by
  unfold fetchPrekeys
  split
  · exact replies_err _ _ trivial
  refine .free trivial rfl fun allowed => ?_
  simp only [Prog.done_bind]
  split
  · exact replies_err _ _ trivial
  refine .free trivial rfl fun found => ?_
  cases found with
  | none => exact .count rfl rfl fun _ => .done trivial
  | some bundle => exact .count rfl rfl fun _ => .done trivial

theorem replies_fanOut (sender : String) (frame : Deliver) (queued : Bytes)
    (recipients : List String) (delivered unknown : Bool) :
    Replies 0 (fun _ => True) (fanOut sender frame queued recipients delivered unknown) := by
  induction recipients generalizing delivered unknown with
  | nil => exact .done trivial
  | cons recipient rest ih =>
      have stored : Replies 0 (fun _ => True) (do
          let stored ← call (.enqueue recipient queued frame.serverTs)
          fanOut sender frame queued rest (delivered || stored) unknown) :=
        .free trivial rfl fun _ => ih _ _
      unfold fanOut
      split
      · exact ih _ _
      · refine .free trivial rfl fun routed => ?_
        obtain ⟨online, «exists»⟩ := routed
        simp only [Prog.done_bind]
        split
        · exact ih _ _
        · cases online with
          | none => exact stored
          | some conn =>
              refine .free trivial rfl fun pushed => ?_
              cases pushed with
              | true => exact ih _ _
              | false => exact stored

section

variable [Crates]

theorem replies_sendFrames (rows : List (Nat × Bytes)) (handled : List Nat) :
    Replies 0 (fun _ => True) (sendFrames rows handled) := by
  induction rows generalizing handled with
  | nil => exact .done trivial
  | cons row rest ih =>
      obtain ⟨id, bytes⟩ := row
      unfold sendFrames
      cases readFrame bytes with
      | none => exact ih _
      | some frame =>
          refine .free rfl rfl fun sent => ?_
          cases sent with
          | true => exact ih _
          | false => exact .done trivial

theorem replies_flushOutbox (username : String) :
    Replies 0 (fun _ => True) (flushOutbox username) := by
  refine .free trivial rfl fun rows => ?_
  simp only [Prog.done_bind]
  split
  · exact .done trivial
  · refine (replies_sendFrames rows []).seq_free fun handled _ => ?_
    split
    · exact .done trivial
    · exact .free trivial rfl fun _ => .done trivial

theorem replies_logIn (conn : Nat) (state : ConnState) (uuid username : String) :
    Replies 1 (StaysIn state) (logIn conn state uuid username) :=
  .free trivial rfl fun _ => .count rfl rfl fun _ =>
    (replies_flushOutbox username).seq_free fun _ _ => .done fun _ => rfl

theorem replies_register (conn : Nat) (config : ServerConfig) (state : ConnState)
    (username ed25519 curve25519 machineId : String) :
    Replies 1 (StaysIn state) (register conn config state username ed25519 curve25519 machineId) := by
  unfold register
  split
  · exact replies_err _ _ id
  split
  · exact replies_err _ _ id
  split
  · exact replies_err _ _ id
  split
  · exact replies_err _ _ id
  split
  · exact replies_err _ _ id
  split
  · exact replies_err _ _ id
  refine .free trivial rfl fun uuid => .free trivial rfl fun now => .free trivial rfl fun created => ?_
  cases created with
  | ok uuid => exact replies_logIn conn state uuid username
  | error e => cases e <;> exact replies_err _ _ id

theorem replies_authFinish (conn : Nat) (config : ServerConfig) (state : ConnState)
    (username signature : String) :
    Replies 1 (StaysIn state) (authFinish conn config state username signature) := by
  unfold authFinish
  split
  · exact replies_err _ _ id
  split
  · exact replies_err _ _ id
  split
  · exact replies_err _ _ id
  refine .free trivial rfl fun found => ?_
  cases found with
  | none => exact replies_err _ _ id
  | some record =>
      simp only [Prog.done_bind]
      split
      · exact replies_logIn conn { state with pendingNonce := none } record.uuid username
      · exact replies_err _ _ id

theorem replies_publishPrekeys (state : ConnState) (otks : List OneTimeKey) :
    Replies 1 (fun _ => True) (publishPrekeys state otks) := by
  unfold publishPrekeys
  cases state.authed with
  | none => exact .count rfl rfl fun _ => .done trivial
  | some user =>
      refine .free trivial rfl fun allowed => ?_
      simp only [Prog.done_bind]
      split
      · exact replies_err _ _ trivial
      split
      · exact replies_err _ _ trivial
      split
      · exact replies_err _ _ trivial
      refine .free trivial rfl fun published => ?_
      cases published with
      | ok => exact .count rfl rfl fun _ => .done trivial
      | overCap => exact .count rfl rfl fun _ => .done trivial

theorem replies_send (state : ConnState) (msg : SendMsg) :
    Replies 1 (fun _ => True) (send state msg) := by
  unfold send
  cases state.authed with
  | none => exact .count rfl rfl fun _ => .done trivial
  | some sender =>
      refine .free trivial rfl fun allowed => ?_
      simp only [Prog.done_bind]
      split
      · exact replies_err _ _ trivial
      split
      · exact replies_err _ _ trivial
      split
      · exact replies_err _ _ trivial
      refine .free trivial rfl fun now => ?_
      refine (replies_fanOut sender _ _ _ false false).seq_free fun reached _ => ?_
      obtain ⟨delivered, unknown⟩ := reached
      dsimp only
      split
      · exact .count rfl rfl fun _ => .done trivial
      · exact .count rfl rfl fun _ => .done trivial

/-- A `Pull` of a connection that is logged in. -/
def pullsQuietly (state : ConnState) (msg : ClientMsg) : Bool := msg = .pull && state.authed.isSome

/-- How many replies a message has. -/
def repliesTo (state : ConnState) (msg : ClientMsg) : Nat := if pullsQuietly state msg then 0 else 1

theorem answer_replies (conn : Nat) (config : ServerConfig) (state : ConnState) (msg : ClientMsg) :
    Replies (repliesTo state msg) (StaysIn state) (answer conn config state msg) := by
  have one : ∀ task : Task Unit, Replies 1 (fun _ => True) task →
      Replies 1 (StaysIn state) (task.bind fun _ => Prog.done state) :=
    fun _ replies => replies.bind fun _ _ => .done id
  cases msg with
  | attestRequest nonce =>
      refine .free trivial rfl fun attested => ?_
      cases attested with
      | ok attestation => exact replies_reply rfl id
      | error e => exact replies_err _ _ id
  | clientHello buildHash clientVersion => exact replies_reply rfl id
  | getServerInfo => exact replies_reply rfl id
  | register username ed25519 curve25519 machineId =>
      exact replies_register conn config state username ed25519 curve25519 machineId
  | authBegin username => exact .free trivial rfl fun nonce => replies_reply rfl id
  | authFinish username signature => exact replies_authFinish conn config state username signature
  | publishPrekeys otks => exact one _ (replies_publishPrekeys state otks)
  | fetchPrekeys username => exact one _ (replies_fetchPrekeys state username)
  | send msg => exact one _ (replies_send state msg)
  | pull =>
      unfold answer repliesTo pullsQuietly
      cases state.authed with
      | some username => exact (replies_flushOutbox username).seq_free fun _ _ => .done id
      | none => exact replies_err _ _ id
  | ping => exact replies_reply rfl id

/-- **One reply for each message**, but for a `Pull` of a connection that is logged in. -/
theorem handle_replies (conn : Nat) (config : ServerConfig) (state : ConnState) (msg : ClientMsg) :
    Replies (repliesTo state msg) (StaysIn state) (handle conn config state (some msg)) := by
  have answered := answer_replies conn config state msg
  unfold handle
  dsimp only
  split
  · next nobody =>
    have one : repliesTo state msg = 1 := by
      unfold repliesTo pullsQuietly
      rw [Option.isNone_iff_eq_none.mp nobody]
      simp
    refine .free trivial rfl fun allowed => ?_
    simp only [Prog.done_bind]
    split
    · rw [one]
      exact replies_err _ _ id
    · exact answered
  · exact answered

end

end Relay

end Cherm
