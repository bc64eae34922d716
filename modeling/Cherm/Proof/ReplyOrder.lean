/-
**Whose reply a caller gets.**

Nothing in a control reply says which request it answers. The relay handles the messages of a
connection one after the other, and each has one reply or none that is known beforehand; so the
replies that are still due are those of the requests in the order in which they were posted, and
the reader takes the first one.

* `Line.Moves`: what a step does to the holder of the lock and to the replies that are due.
* `step_moves`: every step is one of these, if the relay's channel has room for its replies.
* `Ordered`: the replies that are due are in the order of the requests.
* `own_reply_iff` is the result: a caller gets its own reply exactly if none is due when it posts.
* `replies_matched`: so every caller does, where no `Send` is posted and no wait expires.
-/

import Cherm.Client.Control
import Cherm.Lib.Steps
import Cherm.Relay.Progress

set_option linter.unusedSectionVars false

namespace Cherm.Control

open Relay (Ask Replies StaysIn handle handle_replies repliesTo pullsQuietly)

/-! ### Replies in order -/

/-- Replies to requests in the order in which they were posted, before so many. -/
def Ascending (posted : Nat) (due : List (Option Request)) : Prop :=
  ∃ requests : List Request, due = requests.map some ∧
    requests.Pairwise (fun earlier later => earlier.1 < later.1) ∧
    ∀ request ∈ requests, request.1 < posted

theorem Ascending.nil (posted : Nat) : Ascending posted [] := ⟨[], rfl, .nil, nofun⟩

theorem Ascending.sublist {posted : Nat} {due due' : List (Option Request)}
    (ascending : Ascending posted due) (less : List.Sublist due' due) : Ascending posted due' := by
  obtain ⟨requests, rfl, sorted, below⟩ := ascending
  obtain ⟨requests', less', rfl⟩ := List.sublist_map_iff.mp less
  exact ⟨requests', rfl, sorted.sublist less', fun request member =>
    below request (less'.subset member)⟩

/-- One more is posted. -/
theorem Ascending.post {posted : Nat} {due : List (Option Request)}
    (ascending : Ascending posted due) (msg : ClientMsg) :
    Ascending (posted + 1) (due ++ [some (posted, msg)]) := by
  obtain ⟨requests, rfl, sorted, below⟩ := ascending
  refine ⟨requests ++ [(posted, msg)], by simp, ?_, fun request member => ?_⟩
  · exact List.pairwise_append.mpr ⟨sorted, List.pairwise_singleton _ _,
      fun earlier member later last => List.mem_singleton.mp last ▸ below earlier member⟩
  · rcases List.mem_append.mp member with old | new
    · exact Nat.lt_succ_of_lt (below request old)
    · rw [List.mem_singleton.mp new]
      exact Nat.lt_succ_self posted

theorem Ascending.mono {posted posted' : Nat} {due : List (Option Request)}
    (ascending : Ascending posted due) (more : posted ≤ posted') : Ascending posted' due := by
  obtain ⟨requests, same, sorted, below⟩ := ascending
  exact ⟨requests, same, sorted, fun request member => lt_of_lt_of_le (below request member) more⟩

/-- The first one due was posted before. -/
theorem Ascending.head {posted : Nat} {first : Option Request} {due : List (Option Request)}
    (ascending : Ascending posted (first :: due)) :
    ∃ request : Request, first = some request ∧ request.1 < posted := by
  obtain ⟨requests, same, _, below⟩ := ascending
  cases requests with
  | nil => cases same
  | cons request rest => exact ⟨request, (List.cons.inj same).1, below request List.mem_cons_self⟩

section

variable [Crates] {server : Nat} {config : ServerConfig} {l : Line}

/-! ### What a step does to them -/

/-- What is left of the handling makes the reply, if one is left, and no other. -/
def Line.Sound (l : Line) : Prop := ∀ handling, l.busy = some handling →
  handling.left ≤ 1 ∧ Replies handling.left (StaysIn l.conn) handling.rest

theorem sound_start (conn : ConnState) : (Line.start conn).Sound := nofun

/-- What is due once a message is posted. -/
def Line.dueAfter (l : Line) (msg : ClientMsg) : List (Option Request) :=
  if pullsQuietly l.conn msg then l.due else l.due ++ [some (l.posted, msg)]

theorem due_put (l : Line) (msg : ClientMsg) : (l.put msg).due = l.dueAfter msg := by
  have out : repliesOut l.conn (l.outbound ++ [(l.posted, msg)]) = repliesOut l.conn l.outbound ++
      repliesOut l.conn [(l.posted, msg)] := by
    simp [repliesOut]
  have due : (l.put msg).due = l.due ++ repliesOut l.conn [(l.posted, msg)] := by
    unfold Line.due Line.put
    dsimp only
    rw [out]
    simp only [List.append_assoc]
  rw [due, Line.dueAfter]
  cases quiet : pullsQuietly l.conn msg with
  | true => simp [repliesOut, quiet]
  | false => simp [repliesOut, quiet]

theorem repliesIn_append (inbound more : List Inbound) :
    repliesIn (inbound ++ more) = repliesIn inbound ++ repliesIn more := by
  simp [repliesIn]

/-- A Pull is only on its way on a connection that is logged in. -/
def Line.Quiet (l : Line) : Prop :=
  ∀ request ∈ l.outbound, request.2 = .pull → l.conn.authed.isSome = true

/-- A login changes nothing about what is due. -/
theorem repliesOut_login {conn conn' : ConnState} (stays : StaysIn conn conn')
    {outbound : List Request}
    (quiet : ∀ request ∈ outbound, request.2 = .pull → conn.authed.isSome = true) :
    repliesOut conn' outbound = repliesOut conn outbound := by
  refine congrArg (List.map some) (List.filter_congr fun request member => ?_)
  by_cases pull : request.2 = .pull
  · have loggedIn := quiet request member pull
    rw [pullsQuietly, pullsQuietly, loggedIn, stays loggedIn]
  · simp [pullsQuietly, pull]

theorem replyOf_read (request : Request) (rest : Relay.Task ConnState) (conn : ConnState)
    (outbound : List Request) :
    replyOf (some ⟨request, repliesTo conn request.2, rest⟩) ++ repliesOut conn outbound =
      repliesOut conn (request :: outbound) := by
  cases quiet : pullsQuietly conn request.2 with
  | true => simp [replyOf, repliesTo, repliesOut, quiet]
  | false => simp [replyOf, repliesTo, repliesOut, quiet]

/-- What a step does to who holds the lock, and to what is due. -/
inductive Line.Moves (l : Line) : Turn → Line → Prop where
  /-- Nothing that matters here. -/
  | idle {turn : Turn} {l' : Line} (holder : l'.holder = l.holder) (due : l'.due = l.due)
      (posted : l.posted ≤ l'.posted) : l.Moves turn l'
  | fires {msg : ClientMsg} {l' : Line} (replied : pullsQuietly l.conn msg = false)
      (holder : l'.holder = l.holder) (due : l'.due = l.due ++ [some (l.posted, msg)])
      (posted : l'.posted = l.posted + 1) : l.Moves (.fire msg) l'
  | takes {msg : ClientMsg} {l' : Line} (free : l.holder = .nobody)
      (holder : l'.holder = .installed msg) (due : l'.due = l.due)
      (posted : l'.posted = l.posted) : l.Moves (.request msg) l'
  | posts {msg : ClientMsg} {l' : Line} (asks : l.holder = .installed msg)
      (holder : l'.holder = .awaiting (l.posted, msg)) (due : l'.due = l.dueAfter msg)
      (posted : l'.posted = l.posted + 1) : l.Moves .post l'
  /-- A reply came before. -/
  | late {msg : ClientMsg} {reply : Inbound} {l' : Line} (asks : l.holder = .early msg reply)
      (holder : l'.holder = .answered (l.posted, msg) reply) (due : l'.due = l.dueAfter msg)
      (posted : l'.posted = l.posted + 1) : l.Moves .post l'
  /-- The reader takes a reply. -/
  | receives {frame : Inbound} {l' : Line} (holder : l'.holder = l.holder.given frame)
      (due : l.due = frame.origin :: l'.due) (posted : l'.posted = l.posted) : l.Moves .receive l'
  | expires {l' : Line} (holder : l'.holder = .expired) (due : l'.due = l.due)
      (posted : l'.posted = l.posted) : l.Moves .expire l'
  | leaves {turn : Turn} {l' : Line}
      (left : l.holder = .expired ∨ ∃ request reply, l.holder = .answered request reply)
      (holder : l'.holder = .nobody) (due : l'.due = l.due) (posted : l'.posted = l.posted) :
      l.Moves turn l'

/-- The relay's channel has room for a reply, and a Pull is posted without waiting for a reply, once
the connection is logged in. -/
def Orderly : Turn → Line → Prop
  | .serve world, _ => ∀ msg, world (.trySend msg) = true
  | .fire msg, l => msg = .pull → l.conn.authed.isSome = true
  | .request msg, _ => msg ≠ .pull
  | _, _ => True

theorem moves_put (l : Line) (msg : ClientMsg) : l.Moves (.fire msg) (l.put msg) := by
  have due := due_put l msg
  rw [Line.dueAfter] at due
  cases quiet : pullsQuietly l.conn msg with
  | true => exact .idle rfl (due.trans (if_pos quiet)) (Nat.le_succ _)
  | false =>
      exact .fires quiet rfl (due.trans (if_neg (by rw [quiet]; exact Bool.false_ne_true))) rfl

theorem moves_read (l : Line) : l.Moves .read (l.step server config .read) := by
  simp only [Line.step]
  split
  · next request rest busy outbound =>
    refine .idle rfl ?_ le_rfl
    unfold Line.due
    dsimp only
    rw [replyOf_read, busy, outbound]
    rfl
  · exact .idle rfl rfl le_rfl

/-- The relay's handler makes a request: its reply takes the place of the request. -/
theorem moves_asks {request : Request} {left : Nat} {asked : Relay.Ask}
    {next : asked.Answer → Relay.Task ConnState} (sound : l.Sound)
    (busy : l.busy = some ⟨request, left, .ask asked next⟩)
    {world : (asked : Relay.Ask) → asked.Answer} (room : ∀ msg, world (.trySend msg) = true) :
    (repliesIn (l.inbound ++ written request asked (world asked)) ++
      (replyOf (some ⟨request, if asked.replies then left - 1 else left, next (world asked)⟩) ++
        repliesOut l.conn l.outbound)) = l.due := by
  obtain ⟨one, rest⟩ := sound _ busy
  obtain ⟨speaks, _, counted⟩ := rest.after (world asked)
  unfold Line.due
  rw [repliesIn_append, busy]
  cases asked with
  | trySend msg =>
      have left : left = 1 := Nat.le_antisymm one (counted rfl)
      subst left
      have control : msg.control = true := speaks
      simp [replyOf, written, room, repliesIn, control, Relay.Ask.replies]
  | sendWait msg =>
      have control : msg.control = false := speaks
      cases sent : world (.sendWait msg) with
      | true => simp [replyOf, written, repliesIn, control, Relay.Ask.replies]
      | false => simp [replyOf, written, repliesIn, Relay.Ask.replies]
  | _ => simp [replyOf, written, repliesIn, Relay.Ask.replies]

theorem moves_serve (sound : l.Sound) (quiet : l.Quiet)
    {world : (asked : Relay.Ask) → asked.Answer} (room : ∀ msg, world (.trySend msg) = true) :
    l.Moves (.serve world) (l.step server config (.serve world)) := by
  simp only [Line.step]
  split
  · next request left asked next busy =>
    exact .idle rfl (moves_asks sound busy room) le_rfl
  · next request left conn busy =>
    obtain ⟨_, none, stays⟩ := sound _ busy
    have none : left = 0 := none
    subst none
    refine .idle rfl ?_ le_rfl
    unfold Line.due
    rw [busy, repliesOut_login stays quiet]
    rfl
  · next request left error busy => exact (sound _ busy).2.elim
  · exact .idle rfl rfl le_rfl

/-- **What a step may do**, if the relay's channel has room. -/
theorem step_moves (sound : l.Sound) (quiet : l.Quiet) {turn : Turn} (orderly : Orderly turn l) :
    l.Moves turn (l.step server config turn) := by
  cases turn with
  | request msg =>
      cases free : l.holder with
      | nobody =>
          have taken : l.step server config (.request msg) =
              { l with holder := .installed msg } := by
            simp only [Line.step, free]
          rw [taken]
          exact .takes free rfl rfl rfl
      | _ =>
          have same : l.step server config (.request msg) = l := by
            simp only [Line.step, free]
          rw [same]
          exact .idle rfl rfl le_rfl
  | post =>
      have due := due_put l
      simp only [Line.step]
      split
      · next msg asks => exact .posts asks rfl (due msg) rfl
      · next msg reply asks => exact .late asks rfl (due msg) rfl
      · exact .idle rfl rfl le_rfl
  | fire msg => exact moves_put l msg
  | read => exact moves_read l
  | serve world => exact moves_serve sound quiet orderly
  | push msg =>
      simp only [Line.step]
      split
      · exact .idle rfl rfl le_rfl
      · next other =>
        refine .idle rfl ?_ le_rfl
        unfold Line.due
        simp [repliesIn, other]
  | receive =>
      simp only [Line.step]
      split
      · exact .idle rfl rfl le_rfl
      · next frame rest inbound =>
        cases control : frame.msg.control with
        | true => exact .receives rfl (by simp [Line.due, repliesIn, inbound, control]) rfl
        | false => exact .idle rfl (by simp [Line.due, repliesIn, inbound, control]) le_rfl
  | expire =>
      simp only [Line.step]
      split
      · exact .expires rfl rfl rfl
      · exact .idle rfl rfl le_rfl
  | clear =>
      simp only [Line.step]
      split
      · next expired => exact .leaves (.inl expired) rfl rfl rfl
      · exact .idle rfl rfl le_rfl
  | finish =>
      simp only [Line.step]
      split
      · next answered => exact .leaves (.inr ⟨_, _, answered⟩) rfl rfl rfl
      · exact .idle rfl rfl le_rfl

/-! ### The state of a line -/

/-- What is in the slot of a caller that has not posted yet. -/
def Holder.Fits (posted : Nat) : Holder → Prop
  | .installed msg => msg ≠ .pull
  | .early msg reply => msg ≠ .pull ∧ ∃ request : Request,
      reply.origin = some request ∧ request.1 < posted
  | _ => True

/-- The replies that are due are in the order of the requests. -/
structure Ordered (l : Line) : Prop where
  sound : l.Sound
  quiet : l.Quiet
  ascending : Ascending l.posted l.due
  fits : l.holder.Fits l.posted

theorem ordered_start (conn : ConnState) : Ordered (Line.start conn) :=
  ⟨nofun, nofun, .nil 0, trivial⟩

/-- What is not the relay's turn leaves its side as it is. -/
theorem step_handling {turn : Turn} (client : turn ≠ .read) (idle : ∀ world, turn ≠ .serve world) :
    (l.step server config turn).busy = l.busy ∧ (l.step server config turn).conn = l.conn := by
  cases turn with
  | read => exact absurd rfl client
  | serve world => exact absurd rfl (idle world)
  | fire msg => exact ⟨rfl, rfl⟩
  | _ =>
      simp only [Line.step]
      split <;> exact ⟨rfl, rfl⟩

theorem sound_step (sound : l.Sound) (turn : Turn) : (l.step server config turn).Sound := by
  by_cases read : turn = .read
  · subst read
    simp only [Line.step]
    split
    · next request rest busy outbound =>
      intro handling same
      obtain rfl := Option.some.inj same
      refine ⟨?_, handle_replies server config l.conn request.2⟩
      unfold repliesTo
      split
      · exact Nat.zero_le 1
      · exact le_rfl
    · exact sound
  by_cases serve : ∃ world, turn = .serve world
  · obtain ⟨world, rfl⟩ := serve
    simp only [Line.step]
    split
    · next request left asked next busy =>
      obtain ⟨one, rest⟩ := sound _ busy
      obtain ⟨_, after, _⟩ := rest.after (world asked)
      intro handling same
      obtain rfl := Option.some.inj same
      refine ⟨?_, after⟩
      dsimp only
      split
      · exact (Nat.sub_le _ _).trans one
      · exact one
    · exact nofun
    · exact nofun
    · exact sound
  have ⟨busy, conn⟩ : (l.step server config turn).busy = l.busy ∧
      (l.step server config turn).conn = l.conn := step_handling read (not_exists.mp serve)
  unfold Line.Sound
  rw [busy, conn]
  exact sound

theorem quiet_step (sound : l.Sound) (quiet : l.Quiet) (fits : l.holder.Fits l.posted)
    {turn : Turn} (orderly : Orderly turn l) : (l.step server config turn).Quiet := by
  have put : ∀ msg, (msg = .pull → l.conn.authed.isSome = true) → (l.put msg).Quiet := by
    intro msg loggedIn request member pull
    rcases List.mem_append.mp member with old | new
    · exact quiet request old pull
    · obtain rfl := List.mem_singleton.mp new
      exact loggedIn pull
  cases turn with
  | post =>
      simp only [Line.step]
      split
      · next msg asks =>
        rw [asks] at fits
        exact put msg fun pull => absurd pull fits
      · next msg reply asks =>
        rw [asks] at fits
        exact put msg fun pull => absurd pull fits.1
      · exact quiet
  | fire msg => exact put msg orderly
  | read =>
      simp only [Line.step]
      split
      · next request rest busy outbound =>
        intro other member pull
        exact quiet other (outbound ▸ List.mem_cons_of_mem _ member) pull
      · exact quiet
  | serve world =>
      simp only [Line.step]
      split
      · exact quiet
      · next request left conn busy =>
        obtain ⟨_, _, stays⟩ := sound _ busy
        exact fun other member pull => stays (quiet other member pull)
      · exact quiet
      · exact quiet
  | _ =>
      simp only [Line.step]
      split <;> exact quiet

theorem Line.Moves.ascending {turn : Turn} {l' : Line} (moves : l.Moves turn l')
    (ascending : Ascending l.posted l.due) : Ascending l'.posted l'.due := by
  have after : ∀ msg, Ascending (l.posted + 1) (l.dueAfter msg) := by
    intro msg
    unfold Line.dueAfter
    split
    · exact ascending.mono (Nat.le_succ _)
    · exact ascending.post msg
  cases moves with
  | idle holder due posted =>
      rw [due]
      exact ascending.mono posted
  | fires replied holder due posted =>
      rw [due, posted]
      exact ascending.post _
  | posts asks holder due posted =>
      rw [due, posted]
      exact after _
  | late asks holder due posted =>
      rw [due, posted]
      exact after _
  | receives holder due posted =>
      rw [due] at ascending
      rw [posted]
      exact ascending.sublist (List.sublist_cons_self _ _)
  | takes free holder due posted =>
      rw [due, posted]
      exact ascending
  | expires holder due posted =>
      rw [due, posted]
      exact ascending
  | leaves left holder due posted =>
      rw [due, posted]
      exact ascending

theorem Holder.Fits.mono {posted posted' : Nat} {holder : Holder} (fits : holder.Fits posted)
    (more : posted ≤ posted') : holder.Fits posted' := by
  cases holder with
  | early msg reply =>
      obtain ⟨asks, request, origin, before⟩ := fits
      exact ⟨asks, request, origin, lt_of_lt_of_le before more⟩
  | _ => exact fits

theorem Line.Moves.fits {turn : Turn} {l' : Line} (moves : l.Moves turn l')
    (orderly : Orderly turn l) (ascending : Ascending l.posted l.due)
    (fits : l.holder.Fits l.posted) : l'.holder.Fits l'.posted := by
  cases moves with
  | idle holder due posted =>
      rw [holder]
      exact fits.mono posted
  | fires replied holder due posted =>
      rw [holder, posted]
      exact fits.mono (Nat.le_succ _)
  | takes free holder due posted =>
      rw [holder]
      exact orderly
  | @receives frame _ holder due posted =>
      rw [due] at ascending
      obtain ⟨request, origin, before⟩ := ascending.head
      rw [holder, posted]
      cases same : l.holder with
      | installed msg =>
          rw [same] at fits
          exact ⟨fits, request, origin, before⟩
      | early msg reply =>
          rw [same] at fits
          exact fits
      | _ => trivial
  | posts asks holder due posted =>
      rw [holder]
      trivial
  | late asks holder due posted =>
      rw [holder]
      trivial
  | expires holder due posted =>
      rw [holder]
      trivial
  | leaves left holder due posted =>
      rw [holder]
      trivial

theorem ordered_step (ordered : Ordered l) {turn : Turn} (orderly : Orderly turn l) :
    Ordered (l.step server config turn) := by
  have moves : l.Moves turn (l.step server config turn) :=
    step_moves ordered.sound ordered.quiet orderly
  exact ⟨sound_step ordered.sound turn, quiet_step ordered.sound ordered.quiet ordered.fits orderly,
    moves.ascending ordered.ascending, moves.fits orderly ordered.ascending ordered.fits⟩

/-! ### The reply that a caller gets -/

/-- The caller of this request gets the reply to that one, if it gets any. -/
structure Line.Owes (l : Line) (request : Request) (first : Option Request) : Prop where
  before : request.1 < l.posted
  waits : l.holder = .awaiting request → ∃ rest, l.due = first :: rest
  answered : ∀ reply, l.holder = .answered request reply → reply.origin = first

/-- The caller is not there any more, or not yet. -/
theorem Line.Owes.gone {request : Request} {first : Option Request} (before : request.1 < l.posted)
    (idle : l.holder ≠ .awaiting request) (free : ∀ reply, l.holder ≠ .answered request reply) :
    l.Owes request first :=
  ⟨before, fun awaits => absurd awaits idle, fun reply same => absurd same (free reply)⟩

/-- Whatever comes after, it stays so. -/
theorem Line.Moves.owes {turn : Turn} {l' : Line} (moves : l.Moves turn l') {request : Request}
    {first : Option Request} (owes : l.Owes request first) : l'.Owes request first := by
  obtain ⟨before, waits, answered⟩ := owes
  have later : ∀ msg : ClientMsg, (l.posted, msg) ≠ request := by
    rintro msg rfl
    exact lt_irrefl _ before
  cases moves with
  | idle holder due posted =>
      rw [← holder] at waits answered
      rw [← due] at waits
      exact ⟨lt_of_lt_of_le before posted, waits, answered⟩
  | fires replied holder due posted =>
      rw [← holder] at waits answered
      refine ⟨posted ▸ Nat.lt_succ_of_lt before, fun awaits => ?_, answered⟩
      obtain ⟨rest, same⟩ := waits awaits
      exact ⟨_, due.trans (congrArg (· ++ _) same)⟩
  | takes free holder due posted =>
      rw [← posted] at before
      exact .gone before (by simp [holder]) (by simp [holder])
  | @posts msg _ asks holder due posted =>
      refine ⟨posted ▸ Nat.lt_succ_of_lt before, ?_, by rw [holder]; exact nofun⟩
      rw [holder]
      exact fun same => absurd (Holder.awaiting.inj same) (later msg)
  | @late msg reply _ asks holder due posted =>
      refine ⟨posted ▸ Nat.lt_succ_of_lt before, by rw [holder]; exact nofun, ?_⟩
      rw [holder]
      exact fun _ same => absurd (Holder.answered.inj same).1 (later msg)
  | @receives frame _ holder due posted =>
      rw [← posted] at before
      cases held : l.holder with
      | awaiting other =>
          rw [held] at holder
          refine ⟨before, by rw [holder]; exact nofun, fun reply same => ?_⟩
          rw [holder] at same
          obtain ⟨rfl, rfl⟩ := Holder.answered.inj same
          obtain ⟨rest, same⟩ := waits held
          exact (List.cons.inj (due.symm.trans same)).1
      | answered other reply =>
          rw [held] at holder
          refine ⟨before, by rw [holder]; exact nofun, fun reply' same => ?_⟩
          rw [holder] at same
          obtain ⟨rfl, rfl⟩ := Holder.answered.inj same
          exact answered _ held
      | _ =>
          rw [held] at holder
          exact .gone before (by simp [holder, Holder.given]) (by simp [holder, Holder.given])
  | expires holder due posted =>
      rw [← posted] at before
      exact .gone before (by simp [holder]) (by simp [holder])
  | leaves left holder due posted =>
      rw [← posted] at before
      exact .gone before (by simp [holder]) (by simp [holder])

/-- A caller that posts its message: it has not got a reply yet, or a reply came before. -/
def Line.Posts (l : Line) (msg : ClientMsg) : Prop :=
  l.holder = .installed msg ∨ ∃ reply, l.holder = .early msg reply

/-- What it gets is settled when it posts. -/
theorem post_owes (ordered : Ordered l) {msg : ClientMsg} (posts : l.Posts msg) :
    ∃ first, (l.step server config .post).Owes (l.posted, msg) first ∧
      (first = some (l.posted, msg) ↔ l.holder = .installed msg ∧ l.due = []) := by
  rcases posts with asks | ⟨reply, asks⟩
  · have fits := ordered.fits
    rw [asks] at fits
    have replied : pullsQuietly l.conn msg = false := by
      rw [pullsQuietly, decide_eq_false fits, Bool.false_and]
    have after : (l.step server config .post).due = l.due ++ [some (l.posted, msg)] := by
      simp only [Line.step, asks]
      exact (due_put l msg).trans (if_neg (by rw [replied]; exact Bool.false_ne_true))
    have holder : (l.step server config .post).holder = .awaiting (l.posted, msg) := by
      simp only [Line.step, asks]
    have posted : (l.step server config .post).posted = l.posted + 1 := by
      simp only [Line.step, asks, Line.put]
    have before : l.posted < (l.step server config .post).posted := posted ▸ Nat.lt_succ_self _
    cases due : l.due with
    | nil =>
        rw [due] at after
        refine ⟨some (l.posted, msg), ⟨before, fun _ => ⟨[], after⟩, ?_⟩, by simp [asks]⟩
        rw [holder]
        exact nofun
    | cons first rest =>
        have ascending := ordered.ascending
        rw [due] at after ascending
        obtain ⟨request, rfl, earlier⟩ := ascending.head
        refine ⟨some request, ⟨before, fun _ => ⟨_, after⟩, ?_⟩, ?_⟩
        · rw [holder]
          exact nofun
        · refine ⟨fun same => ?_, fun none => by cases none.2⟩
          obtain rfl := Option.some.inj same
          exact absurd earlier (lt_irrefl _)
  · have fits := ordered.fits
    rw [asks] at fits
    obtain ⟨_, request, origin, earlier⟩ := fits
    have holder : (l.step server config .post).holder = .answered (l.posted, msg) reply := by
      simp only [Line.step, asks]
    have posted : (l.step server config .post).posted = l.posted + 1 := by
      simp only [Line.step, asks, Line.put]
    refine ⟨reply.origin, ⟨posted ▸ Nat.lt_succ_self _, ?_, fun reply' same => ?_⟩, ?_⟩
    · rw [holder]
      exact nofun
    · rw [holder] at same
      rw [(Holder.answered.inj same).2]
    · rw [origin, asks]
      refine ⟨fun same => ?_, fun none => by cases none.1⟩
      obtain rfl := Option.some.inj same
      exact absurd earlier (lt_irrefl _)

/-- **A caller gets its own reply exactly if none is due when it posts.** In every run in which the
relay's channel has room, whatever else is posted and whichever waits expire: whoever gets a reply
gets its own if and only if no reply came between its taking the slot and its posting, and none was
due then. -/
theorem own_reply_iff {conn : ConnState} {turns later : List Turn} {msg : ClientMsg}
    {reply : Inbound}
    (orderly : Steps.Each (Line.step server config) Orderly (turns ++ .post :: later)
      (Line.start conn))
    (posts : (Steps.run (Line.step server config) turns (Line.start conn)).Posts msg)
    (answered : (Steps.run (Line.step server config) (turns ++ .post :: later)
      (Line.start conn)).holder =
        .answered ((Steps.run (Line.step server config) turns (Line.start conn)).posted, msg)
          reply) :
    let before := Steps.run (Line.step server config) turns (Line.start conn)
    reply.origin = some (before.posted, msg) ↔
      before.holder = .installed msg ∧ before.due = [] := by
  intro before
  obtain ⟨first, after⟩ := Steps.each_append.mp orderly
  have ordered : Ordered before := first.run
    (fun _ _ ordered orderly => ordered_step ordered orderly) (ordered_start conn)
  obtain ⟨first, owes, own⟩ := @post_owes _ server config _ ordered _ posts
  rw [← own]
  have kept : ∀ turn (l : Line), Ordered l ∧ l.Owes (before.posted, msg) first → Orderly turn l →
      Ordered (l.step server config turn) ∧
        (l.step server config turn).Owes (before.posted, msg) first :=
    fun turn l ⟨ordered, owes⟩ orderly => ⟨ordered_step ordered orderly,
      (step_moves ordered.sound ordered.quiet orderly).owes owes⟩
  have owes := (after.2.run kept ⟨ordered_step ordered after.1, owes⟩).2
  have joined : Steps.run (Line.step server config) (turns ++ .post :: later) (Line.start conn) =
      Steps.run (Line.step server config) later (before.step server config .post) := by
    simp only [Steps.run, List.foldl_append, List.foldl_cons]
    rfl
  rw [joined] at answered
  rw [owes.answered reply answered]

/-! ### Runs in which all is well -/

/-- No wait expires, and nothing but a Pull is posted without waiting. -/
def Calm (turn : Turn) (l : Line) : Prop :=
  Orderly turn l ∧ turn ≠ .expire ∧ ∀ msg, turn = .fire msg → msg = .pull

/-- Nothing is due but the reply to who waits, and who has a reply has their own. -/
def Line.Matched (l : Line) : Prop :=
  match l.holder with
  | .nobody | .installed _ => l.due = []
  | .awaiting request => l.due = [some request]
  | .answered request reply => l.due = [] ∧ reply.origin = some request
  | .early .. | .expired => False

theorem Line.Moves.matched {turn : Turn} {l' : Line} (moves : l.Moves turn l')
    (calm : Calm turn l) (fits : l.holder.Fits l.posted) (matched : l.Matched) : l'.Matched := by
  obtain ⟨orderly, unexpired, pulls⟩ := calm
  unfold Line.Matched at matched ⊢
  cases moves with
  | idle holder due posted =>
      rw [holder, due]
      exact matched
  | @fires msg _ replied holder due posted =>
      obtain rfl := pulls msg rfl
      rw [pullsQuietly, orderly rfl] at replied
      cases replied
  | takes free holder due posted =>
      rw [free] at matched
      rw [holder, due]
      exact matched
  | @posts msg _ asks holder due posted =>
      rw [asks] at matched fits
      rw [holder, due]
      have replied : pullsQuietly l.conn msg = false := by
        rw [pullsQuietly, decide_eq_false fits, Bool.false_and]
      have none : l.due = [] := matched
      simp [Line.dueAfter, replied, none]
  | late asks holder due posted =>
      rw [asks] at matched
      exact matched.elim
  | @receives frame _ holder due posted =>
      rw [holder]
      rw [due] at matched
      cases held : l.holder with
      | awaiting request =>
          rw [held] at matched
          obtain ⟨origin, none⟩ := List.cons.inj matched
          exact ⟨none, origin⟩
      | _ =>
          rw [held] at matched
          simp at matched
  | expires holder due posted => exact absurd rfl unexpired
  | leaves left holder due posted =>
      rw [holder, due]
      rcases left with expired | ⟨request, reply, answered⟩
      · rw [expired] at matched
        exact matched.elim
      · rw [answered] at matched
        exact matched.1

/-- **Every caller gets its own reply** where nothing but a Pull is posted without waiting and no
wait expires, as in a handshake. -/
theorem replies_matched {conn : ConnState} {turns : List Turn}
    (calm : Steps.Each (Line.step server config) Calm turns (Line.start conn)) :
    (Steps.run (Line.step server config) turns (Line.start conn)).Matched := by
  have kept : ∀ turn (l : Line), Ordered l ∧ l.Matched → Calm turn l →
      Ordered (l.step server config turn) ∧ (l.step server config turn).Matched :=
    fun turn l ⟨ordered, matched⟩ calm => ⟨ordered_step ordered calm.1,
      (step_moves ordered.sound ordered.quiet calm.1).matched calm ordered.fits matched⟩
  exact (calm.run kept ⟨ordered_start conn, rfl⟩).2

end

end Cherm.Control

namespace Cherm.Ideal

open Control

/-- The relay's channels have room. -/
def roomy : (asked : Relay.Ask) → asked.Answer
  | .call op => (op.exec twoUsers).1
  | .trySend _ => true
  | .sendWait _ => true
  | .push .. => true
  | .allow _ => true
  | .attest _ => .error ""
  | .now => (0 : Int)
  | .randomNonce => someNonce
  | .randomUuid => ""

def aliceLoggedIn : ConnState := ⟨some "alice", none, none⟩

/-- Alice posts a message for Bob without waiting, and then waits for the answer to a ping. -/
def helloThenPing : List Turn := [.fire (.send helloMsg), .request .ping]

/-- The relay handles the message, and the reader takes its reply. -/
def helloHandled : List Turn :=
  [.read, .serve roomy, .serve roomy, .serve roomy, .serve roomy, .serve roomy, .receive]

set_option maxRecDepth 8000 in
/-- She takes the reply to the message for that to the ping. -/
theorem ping_mistaken : ∃ reply,
    (Steps.run (Line.step 1 openConfig) (helloThenPing ++ .post :: helloHandled)
      (Line.start aliceLoggedIn)).holder = .answered (1, .ping) reply ∧
    reply.origin ≠ some (1, .ping) := by
  refine ⟨⟨some (0, .send helloMsg), .ok none⟩, rfl, fun own => ?_⟩
  have orderly : Steps.Each (Line.step 1 openConfig) Orderly
      (helloThenPing ++ .post :: helloHandled) (Line.start aliceLoggedIn) := by
    simp [Steps.Each, helloThenPing, helloHandled, Orderly, roomy]
  cases ((own_reply_iff orderly (.inl rfl) rfl).mp own).2

/-- Alone, the ping has its own reply. -/
theorem ping_matched :
    (Steps.run (Line.step 1 openConfig)
      [.request .ping, .post, .read, .serve roomy, .receive] (Line.start aliceLoggedIn)).Matched :=
  replies_matched (by simp [Steps.Each, Calm, Orderly, roomy])

end Cherm.Ideal
