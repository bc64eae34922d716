/-
**One walk through the client.**

What the handlers have in common is how they are put together: requests, sequences, attempts and
loops. A `Walk` is a relation between programs that is kept wherever programs are put together, and
what it says of the few requests that are not basic: lines, the chat list, the rows that carry a
timestamp. One lemma for each function then says that the function is related to itself, or, where
it is given the timestamp of a frame, to itself with another one.

* `walk_processFrame`: the frames. The commands are in a module of their own.
* Only what `Walk` asks for is left to be shown of a relation.
-/

import Cherm.Client.Processor

namespace Cherm

open Crates

/-- The kinds of frames that carry a text. -/
def textKinds : List String := [MsgType.olm, MsgType.megolm]

section

variable [Crates]

/-- Requests about which a walk has nothing to say. -/
def Ask.Basic : Ask → Prop
  | .call (.insertMessage ..) | .call (.getMessages ..) | .call .listChats => False
  | .call (.listJoinRequests _) | .call (.metaSet ..) => False
  | .emit (.message ..) | .emit (.history ..) => False
  | _ => True

namespace Client

/-- A line under someone's own name, and its live event. -/
def showText (chat sender text : String) (ts : Int) (outgoing : Bool) : Client Unit := do
  insertMessage chat sender text ts outgoing
  emit (.message chat sender text ts outgoing false)

/-- A line of a DM; the list of chats comes between a line of a new chat and its live event. -/
def showDm (addr sender text : String) (ts : Int) (newChat : Bool) : Client Unit := do
  insertMessage sender sender text ts false
  if newChat then emitChats addr
  emit (.message sender sender text ts false false)

end Client

open Client

/-- A relation between programs: where programs are put together, and where it has something to say.
The names are those that texts are shown under, the clocks those that suspensions are checked at. -/
structure Walk where
  rel : {α : Type} → Client α → Client α → Prop
  names : String → Prop
  clocks : Int → Int → Prop
  done : ∀ {α : Type} (value : α), rel (.done value) (.done value)
  fail : ∀ {α : Type} (error : String), rel (.fail error : Client α) (.fail error)
  bind : ∀ {α β : Type} {p p' : Client α} {f f' : α → Client β}, rel p p' →
    (∀ value, rel (f value) (f' value)) → rel (p.bind f) (p'.bind f')
  attempt : ∀ {α : Type} {p p' : Client α}, rel p p' → rel p.attempt p'.attempt
  query : ∀ {asked : Ask}, asked.Basic → rel (Prog.query asked) (Prog.query asked)
  emitChats : ∀ addr, rel (emitChats addr) (emitChats addr)
  emitSystem : ∀ chat text ts ts', rel (emitSystem chat text ts) (emitSystem chat text ts')
  showText : ∀ {sender}, names sender → ∀ chat text ts ts' outgoing,
    rel (showText chat sender text ts outgoing) (showText chat sender text ts' outgoing)
  showDm : ∀ {sender}, names sender → ∀ addr text ts ts' newChat,
    rel (showDm addr sender text ts newChat) (showDm addr sender text ts' newChat)
  banUser : ∀ group user ts ts',
    rel (call (.banUser group user ts)) (call (.banUser group user ts'))
  addJoinRequest : ∀ group user ts ts',
    rel (call (.addJoinRequest group user ts)) (call (.addJoinRequest group user ts'))
  isSuspended : ∀ {now now'}, clocks now now' → ∀ group user,
    rel (isSuspended group user now) (isSuspended group user now')

namespace Walk

/-- Two programs are related by a walk. -/
def Rel (w : Walk) {α : Type} (p p' : Client α) : Prop := w.rel p p'

/-- A program is related to itself. -/
abbrev Same (w : Walk) {α : Type} (p : Client α) : Prop := w.Rel p p

variable {w : Walk} {α β : Type}

theorem Rel.bind {p p' : Client α} {f f' : α → Client β} (first : w.Rel p p')
    (second : ∀ value, w.Rel (f value) (f' value)) : w.Rel (p.bind f) (p'.bind f') :=
  w.bind first second

theorem Rel.attempt {p p' : Client α} (related : w.Rel p p') : w.Rel p.attempt p'.attempt :=
  w.attempt related

end Walk

namespace Client

variable {w : Walk}

/-! ### Small programs -/

theorem walk_done {α : Type} (value : α) : w.Same (.done value : Client α) := w.done value

theorem walk_fail {α : Type} (error : String) : w.Same (.fail error : Client α) := w.fail error

theorem walk_ofExcept {α : Type} (value : Except String α) :
    w.Same (Prog.ofExcept value : Client α) := by
  cases value with
  | ok value => exact walk_done value
  | error error => exact walk_fail error

theorem walk_ask {α : Type} {asked : Ask} {next next' : asked.Answer → Client α}
    (basic : asked.Basic) (rest : ∀ answer, w.Rel (next answer) (next' answer)) :
    w.Rel (.ask asked next) (.ask asked next') :=
  w.bind (w.query basic) rest

theorem walk_call {op : VaultOp} (basic : (Ask.call op).Basic) : w.Same (call op) := w.query basic

theorem walk_request (msg : ClientMsg) : w.Same (request msg) :=
  w.bind (w.query trivial) walk_ofExcept

theorem walk_post (msg : ClientMsg) : w.Same (post msg) := w.bind (w.query trivial) walk_ofExcept

theorem walk_emit {event : Event} (basic : (Ask.emit event).Basic) : w.Same (emit event) :=
  w.query basic

theorem walk_now : w.Same now := w.query trivial

theorem walk_random : w.Same random := w.query trivial

theorem walk_okOr {α : Type} (value : Option α) (error : String) : w.Same (okOr value error) := by
  cases value with
  | some value => exact walk_done value
  | none => exact walk_fail error

theorem walk_forEach {β : Type} {xs : List β} {body : β → Client Unit}
    (round : ∀ x ∈ xs, w.Same (body x)) : w.Same (Prog.forEach xs body) := by
  induction xs with
  | nil => exact walk_done _
  | cons x rest ih =>
      rw [Prog.forEach_cons]
      exact (round x List.mem_cons_self).bind fun _ =>
        ih fun y member => round y (List.mem_cons_of_mem x member)

theorem walk_isSuspended (groupId username : String) (now : Int) :
    w.Same (isSuspended groupId username now) := by
  refine (walk_call (by trivial)).bind fun deadline => ?_
  cases deadline with
  | none => exact walk_done _
  | some untilTs =>
      dsimp only
      split
      · exact walk_done _
      · exact (walk_call (by trivial)).bind fun _ => walk_done _

theorem walk_emitChats (addr : String) : w.Same (emitChats addr) := w.emitChats addr

theorem walk_emitFingerprint (username : String) : w.Same (emitFingerprint username) := by
  refine (walk_call (by trivial)).bind fun ed => ?_
  cases ed with
  | none => exact walk_done _
  | some ed => exact walk_emit (by trivial)

theorem walk_upsertChat (id kind title : String) : w.Same (upsertChat id kind title) :=
  walk_now.bind fun _ => walk_call (by trivial)

theorem walk_emitSystem (chat text : String) (ts ts' : Int) :
    w.Rel (emitSystem chat text ts) (emitSystem chat text ts') := w.emitSystem chat text ts ts'

theorem walk_emitGroupEvent (chat kind who extra : String) (ts ts' : Int) :
    w.Rel (emitGroupEvent chat kind who extra ts) (emitGroupEvent chat kind who extra ts') := by
  unfold emitGroupEvent
  split
  · exact walk_emitSystem _ _ _ _
  · exact walk_done _

/-! ### Exchanges with one peer -/

theorem walk_acceptIdentity (username uuid ed25519 curve25519 : String) :
    w.Same (acceptIdentity username uuid ed25519 curve25519) := by
  unfold acceptIdentity
  split
  · exact (walk_emit (by trivial)).bind fun _ => walk_done _
  · refine (walk_call (by trivial)).bind fun checked => ?_
    cases checked with
    | conflict => exact (walk_emit (by trivial)).bind fun _ => walk_done _
    | _ => exact (walk_call (by trivial)).bind fun _ => walk_done _

theorem walk_ensureOlm (peer : String) : w.Same (ensureOlm peer) := by
  refine (walk_call (by trivial)).bind fun held => ?_
  cases held with
  | some session => exact walk_done _
  | none =>
      refine (walk_call (by trivial)).bind fun account => (walk_okOr _ _).bind fun device =>
        (walk_request _).bind fun reply => ?_
      cases reply with
      | prekeyBundle bundle =>
          dsimp only
          cases bundle.oneTimeKey with
          | none => exact (walk_emit (by trivial)).bind fun _ => walk_done _
          | some otk =>
              refine (walk_acceptIdentity _ _ _ _).bind fun accepted => ?_
              cases accepted with
              | false => exact walk_done _
              | true =>
                  exact walk_random.bind fun _ => (walk_ofExcept _).bind fun _ => walk_done _
      | _ => exact (walk_emit (by trivial)).bind fun _ => walk_done _

theorem walk_obtainCurve (sender : String) : w.Same (obtainCurve sender) := by
  refine (walk_call (by trivial)).bind fun known => ?_
  cases known with
  | some curve => exact walk_done _
  | none =>
      refine (walk_request _).bind fun reply => ?_
      cases reply with
      | prekeyBundle bundle =>
          refine (walk_acceptIdentity _ _ _ _).bind fun accepted => ?_
          cases accepted with
          | false => exact walk_fail _
          | true => exact walk_done _
      | _ => exact walk_fail _

theorem walk_acceptInbound (sender : String) (olmType : Nat) (body : Bytes) :
    w.Same (acceptInbound sender olmType body) := by
  exact (walk_obtainCurve sender).bind fun curve => (walk_call (by trivial)).bind fun device =>
    (walk_okOr _ _).bind fun device => (walk_ofExcept _).bind fun opened =>
      (walk_call (by trivial)).bind fun _ => (walk_call (by trivial)).bind fun _ => walk_done _

theorem walk_obtainOlmPlaintext (sender payload : String) :
    w.Same (obtainOlmPlaintext sender payload) := by
  refine (walk_ofExcept _).bind fun parts => (walk_call (by trivial)).bind fun held => ?_
  cases held with
  | none => exact walk_acceptInbound _ _ _
  | some session =>
      dsimp only
      split
      · exact (walk_call (by trivial)).bind fun _ => walk_done _
      · split
        · exact walk_fail _
        · exact walk_acceptInbound _ _ _

theorem walk_postOlm (session : OlmSession) (peer msgType : String) (plaintext : Bytes)
    (groupId : Option String) (clientTs : Int) :
    w.Same (postOlm session peer msgType plaintext groupId clientTs) :=
  walk_random.bind fun _ => (walk_ofExcept _).bind fun _ => (walk_call (by trivial)).bind
    fun _ => walk_post _

theorem walk_sendOlmControl (peer msgType groupId : String) (value : Json) :
    w.Same (sendOlmControl peer msgType groupId value) := by
  refine (walk_ensureOlm peer).bind fun held => ?_
  cases held with
  | none => exact walk_done _
  | some session =>
      exact walk_random.bind fun _ => (walk_ofExcept _).bind fun _ =>
        (walk_call (by trivial)).bind fun _ => walk_now.bind fun _ => walk_post _

/-! ### Groups -/

theorem walk_distributeGroupKey (me groupId name : String) (recipients : List String)
    (sender : GroupSender) :
    w.Same (distributeGroupKey me groupId name recipients sender) := by
  refine (walk_call (by trivial)).bind fun account => (walk_okOr _ _).bind fun device =>
    (walk_call (by trivial)).bind fun members => (walk_call (by trivial)).bind fun row =>
      walk_now.bind fun now => walk_forEach fun member _ => ?_
  unfold shareKey
  split
  · exact walk_done _
  · refine (walk_ensureOlm member).bind fun held => ?_
    cases held with
    | none => exact walk_done _
    | some session => exact walk_postOlm _ _ _ _ _ _

theorem walk_groupSender (groupId : String) {mint : GroupSender → Client Unit}
    (minted : ∀ sender, w.Same (mint sender)) : w.Same (groupSender groupId mint) := by
  refine (walk_call (by trivial)).bind fun held => ?_
  cases held with
  | some sender => exact walk_done _
  | none =>
      exact walk_random.bind fun _ => (walk_call (by trivial)).bind fun _ => (minted _).bind
        fun _ => walk_done _

theorem walk_broadcastGroupEvent (me groupId name : String) (event : Json) :
    w.Same (broadcastGroupEvent me groupId name event) := by
  refine (walk_call (by trivial)).bind fun roster =>
    (walk_groupSender _ fun sender => walk_distributeGroupKey _ _ _ _ _).bind fun sender => ?_
  refine Walk.Rel.bind (walk_call (by trivial)) fun _ => ?_
  dsimp only
  split
  · exact walk_now.bind fun _ => walk_post _
  · exact walk_done _

theorem walk_admitMember (me addr groupId who : String) (now now' : Int) :
    w.Rel (admitMember me addr groupId who now) (admitMember me addr groupId who now') := by
  refine (walk_call (by trivial)).bind fun chat => (walk_call (by trivial)).bind fun _ =>
    (walk_call (by trivial)).bind fun _ =>
      (walk_groupSender _ fun _ => walk_done _).bind fun sender => ?_
  exact (walk_distributeGroupKey _ _ _ _ _).bind fun _ =>
    (walk_broadcastGroupEvent _ _ _ _).bind fun _ =>
      (walk_emitGroupEvent _ _ _ _ _ _).bind fun _ => walk_emitChats _

/-- A join request is judged by the clock of its frame. -/
theorem walk_handleJoinRequest {now now' : Int} (agree : w.clocks now now') (ctx : ProcCtx)
    (sender : String) (plaintext : Bytes) :
    w.Rel (handleJoinRequest ctx sender plaintext now)
      (handleJoinRequest ctx sender plaintext now') := by
  refine (walk_ofExcept _).bind fun req => (walk_call (by trivial)).bind fun row => ?_
  cases row with
  | none => exact walk_done _
  | some row =>
      dsimp only
      split
      · exact walk_done _
      · refine (walk_call (by trivial)).bind fun banned =>
          Walk.Rel.bind (w.isSuspended agree _ _) fun suspended =>
            (walk_call (by trivial)).bind fun member => ?_
        split
        · exact walk_admitMember _ _ _ _ _ _
        · exact Walk.Rel.bind (w.addJoinRequest _ _ _ _) fun _ =>
            (walk_emitGroupEvent _ _ _ _ _ _).bind fun _ => walk_emit (by trivial)
        · exact walk_sendOlmControl _ _ _ _

/-! ### Frames -/

theorem walk_deliverDmText {sender : String} (named : w.names sender) (ctx : ProcCtx)
    (plaintext : Bytes) (ts ts' : Int) :
    w.Rel (deliverDmText ctx sender plaintext ts) (deliverDmText ctx sender plaintext ts') := by
  refine (walk_okOr _ _).bind fun text => (walk_call (by trivial)).bind fun known =>
    (walk_upsertChat _ _ _).bind fun _ => (walk_call (by trivial)).bind fun _ =>
      (walk_call (by trivial)).bind fun _ => ?_
  have shown : w.Rel ((showDm ctx.addr sender text ts (!known)).bind fun _ =>
      emitFingerprint sender)
      ((showDm ctx.addr sender text ts' (!known)).bind fun _ => emitFingerprint sender) :=
    Walk.Rel.bind (w.showDm named _ _ _ _ _) fun _ => walk_emitFingerprint sender
  cases known with
  | true => exact shown
  | false => exact shown

theorem walk_storeShare (ctx : ProcCtx) (sender : String) (share : GroupKeyShare)
    (isNew byOwner : Bool) : w.Same (storeShare ctx sender share isNew byOwner) := by
  have member : ∀ m, w.Same (call (.addMember share.groupId m)) := fun _ =>
    walk_call (by trivial)
  have learned : w.Same (learnGroup sender share) := by
    refine (walk_upsertChat _ _ _).bind fun _ =>
      (walk_forEach fun m _ => member m).bind fun _ => ?_
    split
    · exact walk_call (by trivial)
    · exact walk_done _
  refine (walk_ofExcept _).bind fun receiver => (walk_call (by trivial)).bind fun _ => ?_
  have told : w.Same (do
      emitChats ctx.addr
      if isNew then emit (.info ("added to group " ++ share.name))) := by
    refine (walk_emitChats _).bind fun _ => ?_
    cases isNew with
    | true => exact walk_emit (by trivial)
    | false => exact walk_done _
  cases byOwner with
  | true => exact learned.bind fun _ => told
  | false =>
      cases isNew with
      | true => exact walk_done _
      | false => exact told

theorem walk_handleGroupKeyShare (ctx : ProcCtx) (sender : String) (plaintext : Bytes) :
    w.Same (handleGroupKeyShare ctx sender plaintext) := by
  have decided : ∀ (share : GroupKeyShare) (isNew senderIsMember byOwner : Bool), w.Same
      (if isNew && !byOwner then pure ()
        else if !isNew && !byOwner && !senderIsMember then pure ()
        else storeShare ctx sender share isNew byOwner) := by
    intro share isNew senderIsMember byOwner
    split
    · exact walk_done _
    · split
      · exact walk_done _
      · exact walk_storeShare _ _ _ _ _
  refine (walk_ofExcept _).bind fun share => (walk_call (by trivial)).bind fun banned => ?_
  split
  · exact walk_done _
  refine walk_now.bind fun now => (walk_isSuspended _ _ _).bind fun suspended => ?_
  split
  · exact walk_done _
  refine (walk_call (by trivial)).bind fun known => (walk_call (by trivial)).bind
    fun existing => ?_
  dsimp only
  split
  · exact decided share _ false _
  · exact (walk_call (by trivial)).bind fun member => decided share _ member _

theorem walk_openMegolm (groupId sender payload : String) :
    w.Same (openMegolm groupId sender payload) := by
  refine (walk_call (by trivial)).bind fun held => ?_
  cases held with
  | none => exact (walk_emit (by trivial)).bind fun _ => walk_done _
  | some receiver =>
      exact (walk_ofExcept _).bind fun _ => (walk_ofExcept _).bind fun _ => walk_done _

theorem walk_acceptMegolm (groupId sender : String) (idx : Nat) (receiver : GroupReceiver) :
    w.Same (acceptMegolm groupId sender idx receiver) := by
  refine (walk_call (by trivial)).bind fun fresh => ?_
  cases fresh with
  | false => exact walk_done _
  | true => exact (walk_call (by trivial)).bind fun _ => walk_done _

theorem walk_processMegolm {sender : String} (named : w.names sender) (groupId payload : String)
    (ts ts' : Int) :
    w.Rel (processMegolm sender groupId payload ts) (processMegolm sender groupId payload ts') := by
  refine (walk_openMegolm _ _ _).bind fun opened => ?_
  rcases opened with _ | ⟨plaintext, idx, receiver⟩
  · exact walk_done _
  · refine (walk_acceptMegolm _ _ _ _).bind fun fresh => ?_
    cases fresh with
    | false => exact walk_done _
    | true => exact (walk_okOr _ _).bind fun text => w.showText named _ _ _ _ _

theorem walk_processMegolmSystem (sender groupId payload : String) (ts ts' : Int) :
    w.Rel (processMegolmSystem sender groupId payload ts)
      (processMegolmSystem sender groupId payload ts') := by
  refine (walk_openMegolm _ _ _).bind fun opened => ?_
  rcases opened with _ | ⟨plaintext, idx, receiver⟩
  · exact walk_done _
  · dsimp only
    split
    · exact walk_done _
    · refine (walk_acceptMegolm _ _ _ _).bind fun fresh => ?_
      cases fresh with
      | false => exact walk_done _
      | true => exact (walk_call (by trivial)).bind fun _ => walk_emitSystem _ _ _ _

theorem walk_dropMember (groupId : String) (event : GroupEvent) (ts ts' : Int) :
    w.Rel (dropMember groupId event ts) (dropMember groupId event ts') := by
  refine (walk_call (by trivial)).bind fun _ => (walk_call (by trivial)).bind fun _ => ?_
  split
  · exact w.banUser _ _ _ _
  · split
    · exact walk_call (by trivial)
    · exact walk_done _
  · exact walk_done _

theorem walk_applyGroupEvent (ctx : ProcCtx) (groupId : String) (event : GroupEvent)
    (ts ts' : Int) :
    w.Rel (applyGroupEvent ctx groupId event ts) (applyGroupEvent ctx groupId event ts') := by
  let aimed (ts : Int) : Client Bool := do
    if event.who = ctx.me then
      if event.kind = "suspended" then
        emit (.info "you were suspended from a group")
        return false
      call (.deleteChat groupId)
      emitChats ctx.addr
      emit (.info ("you were " ++ event.kind ++ " from a group"))
      return true
    dropMember groupId event ts
    return false
  have aims : w.Rel (aimed ts) (aimed ts') := by
    dsimp only [aimed]
    split
    · split
      · exact (walk_emit (by trivial)).bind fun _ => walk_done _
      · exact (walk_call (by trivial)).bind fun _ => (walk_emitChats _).bind fun _ =>
          (walk_emit (by trivial)).bind fun _ => walk_done _
    · exact (walk_dropMember groupId event ts ts').bind fun _ => walk_done _
  unfold applyGroupEvent
  split
  · exact (walk_call (by trivial)).bind fun _ => (walk_call (by trivial)).bind fun _ =>
      (walk_call (by trivial)).bind fun _ => walk_done _
  · exact aims
  · exact aims
  · exact aims
  · split
    · dsimp only
      split
      · exact (walk_call (by trivial)).bind fun _ => walk_done _
      · exact walk_done _
    · exact walk_done _
  · exact walk_done _

theorem walk_processGroupEvent (ctx : ProcCtx) (sender groupId payload : String) (ts ts' : Int) :
    w.Rel (processGroupEvent ctx sender groupId payload ts)
      (processGroupEvent ctx sender groupId payload ts') := by
  refine (walk_openMegolm _ _ _).bind fun opened => ?_
  rcases opened with _ | ⟨plaintext, idx, receiver⟩
  · exact walk_done _
  · refine (walk_acceptMegolm _ _ _ _).bind fun fresh => ?_
    cases fresh with
    | false => exact walk_done _
    | true =>
        refine (walk_call (by trivial)).bind fun row => ?_
        dsimp only
        split
        · exact walk_done _
        · refine (walk_ofExcept _).bind fun event =>
            (walk_applyGroupEvent _ _ _ _ _).bind fun gone => ?_
          cases gone with
          | true => exact walk_done _
          | false => exact (walk_emitGroupEvent _ _ _ _ _ _).bind fun _ => walk_emitChats _

/-- **A frame**, with its own timestamp and with another one. -/
theorem walk_processFrame (ctx : ProcCtx) (inc : Incoming) (ts' : Int)
    (named : inc.msgType ∈ textKinds → w.names inc.from)
    (agree : inc.msgType = MsgType.groupJoin → w.clocks inc.clientTs ts') :
    w.Rel (processFrame ctx inc) (processFrame ctx { inc with clientTs := ts' }) := by
  have one : w.Rel (processOne ctx inc) (processOne ctx { inc with clientTs := ts' }) := by
    unfold processOne
    dsimp only
    split
    · next isText =>
      exact (walk_obtainOlmPlaintext _ _).bind fun _ =>
        walk_deliverDmText (named (by simp [isText, textKinds, MsgType.olm])) _ _ _ _
    · exact (walk_obtainOlmPlaintext _ _).bind fun _ => walk_handleGroupKeyShare _ _ _
    · next isText =>
      exact (walk_okOr _ _).bind fun _ =>
        walk_processMegolm (named (by simp [isText, textKinds, MsgType.megolm])) _ _ _ _
    · refine (walk_obtainOlmPlaintext _ _).bind fun plaintext => ?_
      split
      · exact walk_emitSystem _ _ _ _
      · exact walk_done _
    · exact (walk_okOr _ _).bind fun _ => walk_processMegolmSystem _ _ _ _ _
    · next isJoin =>
      exact (walk_obtainOlmPlaintext _ _).bind fun _ => walk_handleJoinRequest (agree isJoin) _ _ _
    · exact (walk_obtainOlmPlaintext _ _).bind fun _ => (walk_ofExcept _).bind fun _ =>
        walk_emit (by trivial)
    · exact (walk_okOr _ _).bind fun _ => walk_processGroupEvent _ _ _ _ _ _
    · exact walk_done _
  refine one.attempt.bind fun result => ?_
  cases result with
  | ok _ => exact walk_done _
  | error e => exact walk_emit (by trivial)

end Client

end

end Cherm
