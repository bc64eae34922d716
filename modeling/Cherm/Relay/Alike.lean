/-
**Two relays that are the same but for the payloads.**

`Blind` relates two relays: the same users, prekeys and presence, outbox rows with the same ids,
recipients, lengths and timestamps, the same messages in the channels and on the sockets, but for
the payloads of frames. What may stand for what is a relation on payloads, which is left open here.

* `BytesAlike.of_replaced`: a payload of base64 makes a queued text as long as any other of its
  length, to the program and to the database.
* `Blind.serve`: requests that are the same but for payloads are answered so, and leave such relays.
-/

import Cherm.Relay.Replay
import Cherm.Relay.Tasks
import Cherm.Lib.JsonText
import Mathlib.Data.List.Forall2

namespace Cherm

open Crates Json

/-! ### Texts of base64 -/

/-- Every character is one that base64 uses. -/
def Base64Text (text : String) : Prop := ∀ c ∈ text.toList, c ∈ '=' :: Base64.symbols

instance (text : String) : Decidable (Base64Text text) :=
  decidable_of_iff ((text.toList.all fun c => ('=' :: Base64.symbols).contains c) = true) (by
    simp [Base64Text])

theorem length_utf8 (text : String) : (utf8 text).length = text.utf8ByteSize := by
  simp [utf8]

theorem base64_char {c : Char} (listed : c ∈ '=' :: Base64.symbols) : Json.escapeChar c = [c] ∧
    ∀ b ∈ String.utf8EncodeChar c, b ≠ 0 ∧ b &&& 0xC0 ≠ 0x80 := by
  have all : (('=' :: Base64.symbols).all fun c => Json.escapeChar c == [c] &&
      (String.utf8EncodeChar c).all fun b => b != 0 && b &&& 0xC0 != 0x80) = true := by
    decide +kernel
  obtain ⟨escaped, plain⟩ := Bool.and_eq_true_iff.mp (List.all_eq_true.mp all c listed)
  refine ⟨beq_iff_eq.mp escaped, fun b member => ?_⟩
  simpa using List.all_eq_true.mp plain b member

theorem Base64Text.byte {text : String} (base64 : Base64Text text) {b : UInt8}
    (member : b ∈ utf8 text) : b ≠ 0 ∧ b &&& 0xC0 ≠ 0x80 := by
  rw [utf8_eq] at member
  obtain ⟨c, listed, member⟩ := List.mem_flatMap.mp member
  exact (base64_char (base64 c listed)).2 b member

theorem Base64Text.escape {text : String} (base64 : Base64Text text) :
    Json.escape text.toList = text.toList := by
  have each : ∀ chars : List Char, (∀ c ∈ chars, c ∈ '=' :: Base64.symbols) →
      chars.flatMap escapeChar = chars := by
    intro chars all
    induction chars with
    | nil => rfl
    | cons c rest ih =>
        rw [List.flatMap_cons, (base64_char (all c List.mem_cons_self)).1,
          ih fun c member => all c (List.mem_cons_of_mem _ member)]
        rfl
  exact each _ base64

namespace Relay

/-- Bytes that the database takes for characters count one by one. -/
theorem sqlLength_around {middle : Bytes} (plain : ∀ b ∈ middle, b ≠ 0 ∧ b &&& 0xC0 ≠ 0x80)
    (before after : Bytes) : sqlLength (before ++ (middle ++ after)) =
      if 0 ∈ before then sqlLength before
      else sqlLength before + (middle.length + sqlLength after) := by
  have within : ∀ bytes rest : Bytes, (bytes ++ rest).takeWhile (fun b => decide (b ≠ 0)) =
      if 0 ∈ bytes then bytes.takeWhile (fun b => decide (b ≠ 0))
      else bytes ++ rest.takeWhile (fun b => decide (b ≠ 0)) := by
    intro bytes rest
    induction bytes with
    | nil => rfl
    | cons b others ih =>
        rw [List.cons_append, List.takeWhile_cons, List.takeWhile_cons, ih]
        by_cases zero : b = 0
        · simp [zero]
        · simp [zero, Ne.symm zero]
          split <;> rfl
  have noZero : (0 : UInt8) ∉ middle := fun member => (plain 0 member).1 rfl
  have whole : middle.countP (fun b => decide (b &&& 0xC0 ≠ 0x80)) = middle.length :=
    List.countP_eq_length.mpr fun b member => decide_eq_true (plain b member).2
  unfold sqlLength
  rw [within before, within middle, if_neg noZero]
  split
  · rfl
  · next none =>
    have all : before.takeWhile (fun b => decide (b ≠ 0)) = before := by
      have alone := within before []
      rw [List.append_nil, if_neg none] at alone
      simpa using alone
    rw [List.countP_append, List.countP_append, whole, all]

end Relay

section

variable [Crates]

/-- `serde_json` writes a text that needs no escapes as it is, and what is around it does not depend
on it. -/
class PlainTexts : Prop where
  toVec_payload : ∀ frame : Deliver, ∃ before after : Bytes, ∀ payload, Base64Text payload →
    toVec ({ frame with payload } : Deliver).toJson = before ++ (utf8 payload ++ after)

end

namespace Relay

/-- A frame with another payload, a counterpart of its own. -/
structure Replaced (R : String → String → Prop) (frame frame' : Deliver) : Prop where
  rest : frame' = { frame with payload := frame'.payload }
  payload : frame'.payload = frame.payload ∨ R frame.payload frame'.payload

theorem Replaced.refl {R : String → String → Prop} (frame : Deliver) : Replaced R frame frame := ⟨rfl, .inl rfl⟩

/-- Messages alike: the same, or deliveries of frames that are. -/
inductive MsgAlike (R : String → String → Prop) : ServerMsg → ServerMsg → Prop where
  | same (msg : ServerMsg) : MsgAlike R msg msg
  | deliver {frame frame' : Deliver} (replaced : Replaced R frame frame') :
      MsgAlike R (.deliver frame) (.deliver frame')

/-- Entries alike: the messages are, the rest is the same. -/
structure EntryAlike (R : String → String → Prop) (entry entry' : Entry) : Prop where
  msg : MsgAlike R entry.msg entry'.msg
  copy : entry'.copy = entry.copy
  row : entry'.row = entry.row

theorem EntryAlike.refl {R : String → String → Prop} (entry : Entry) : EntryAlike R entry entry := ⟨.same _, rfl, rfl⟩

theorem option_rel_refl {α : Type} {S : α → α → Prop} (refl : ∀ a, S a a) (value : Option α) :
    Option.Rel S value value := by
  cases value with
  | none => exact .none
  | some value => exact .some (refl value)

section

variable [Crates]

/-! ### What may differ -/

/-- The same payload, or texts of base64 that are equally long. -/
def SameShape (payload payload' : String) : Prop :=
  payload' = payload ∨
    Base64Text payload ∧ Base64Text payload' ∧ payload'.utf8ByteSize = payload.utf8ByteSize

/-- Two queued frames: as long, to the program and to the database, and read as the same but for
the payload. -/
structure BytesAlike (R : String → String → Prop) (bytes bytes' : Bytes) : Prop where
  length : bytes'.length = bytes.length
  sqlLength : sqlLength bytes' = sqlLength bytes
  read : Option.Rel (Replaced R) (readFrame bytes) (readFrame bytes')

/-- Rows alike: the frames are, the rest is the same. -/
structure RowAlike (R : String → String → Prop) (row row' : OutboxRow) : Prop where
  id : row'.id = row.id
  recipient : row'.recipient = row.recipient
  frame : BytesAlike R row.frame row'.frame
  ts : row'.ts = row.ts

/-- Tables alike: the rows of the outbox are, the rest is the same. -/
structure StoreAlike (R : String → String → Prop) (store store' : Store) : Prop where
  users : store'.users = store.users
  prekeys : store'.prekeys = store.prekeys
  outbox : List.Forall₂ (RowAlike R) store.outbox store'.outbox
  nextOutboxId : store'.nextOutboxId = store.nextOutboxId
  online : store'.online = store.online

/-- A row in the hands of a flush. -/
structure HandAlike (R : String → String → Prop) (hand hand' : Nat × Bytes) : Prop where
  id : hand'.1 = hand.1
  bytes : BytesAlike R hand.2 hand'.2

/-- Records alike: what was in hand is, the rest is the same. -/
structure LedgerAlike (R : String → String → Prop) (l l' : Ledger) : Prop where
  user : l'.user = l.user
  read : List.Forall₂ (HandAlike R) l.read l'.read
  hands : List.Forall₂ (HandAlike R) l.hands l'.hands
  pushed : l'.pushed = l.pushed
  routed : l'.routed = l.routed

/-- Connections alike: what is in their channels is, the rest is the same. -/
structure ConnAlike (R : String → String → Prop) (conn conn' : Conn) : Prop where
  life : conn'.life = conn.life
  state : conn'.state = conn.state
  alive : conn'.alive = conn.alive
  chan : List.Forall₂ (EntryAlike R) conn.chan conn'.chan
  writing : Option.Rel (EntryAlike R) conn.writing conn'.writing
  ledger : LedgerAlike R conn.ledger conn'.ledger

/-- Copies alike: their frames are, the rest is the same. -/
structure CopyAlike (R : String → String → Prop) (copy copy' : Copy) : Prop where
  sender : copy'.sender = copy.sender
  recipient : copy'.recipient = copy.recipient
  frame : Option.Rel (Replaced R) copy.frame copy'.frame

/-- Two relays that are the same but for the payloads: the same users, prekeys and presence, rows
with the same ids, recipients, lengths and timestamps, and the same written to the same sockets in
the same order. -/
structure Blind (R : String → String → Prop) (sys sys' : System) : Prop where
  store : StoreAlike R sys.store sys'.store
  conns : ∀ c, ConnAlike R (sys.conns c) (sys'.conns c)
  written : List.Forall₂ (fun item item' => item'.1 = item.1 ∧ EntryAlike R item.2 item'.2)
    sys.written sys'.written
  accepted : List.Forall₂ (CopyAlike R) sys.accepted sys'.accepted
  rowCopy : sys'.rowCopy = sys.rowCopy
  pruned : sys'.pruned = sys.pruned
  pushedRows : sys'.pushedRows = sys.pushedRows

/-! ### What is alike from the start -/

variable {R : String → String → Prop}

theorem BytesAlike.refl (bytes : Bytes) : BytesAlike R bytes bytes :=
  ⟨rfl, rfl, option_rel_refl Replaced.refl _⟩

theorem StoreAlike.refl (store : Store) : StoreAlike R store store :=
  ⟨rfl, rfl, List.forall₂_same.mpr fun row _ => ⟨rfl, rfl, .refl row.frame, rfl⟩, rfl, rfl⟩

theorem blind_initial (store : Store) : Blind R (.initial store) (.initial store) where
  store := .refl _
  conns _ := ⟨rfl, rfl, rfl, .nil, .none, ⟨rfl, .nil, .nil, rfl, rfl⟩⟩
  written := .nil
  accepted := .nil
  rowCopy := rfl
  pruned := rfl
  pushedRows := rfl

/-- A frame with another payload of the same shape is queued as a text of the same length. -/
theorem BytesAlike.of_replaced [PlainTexts] (shapes : ∀ p p', R p p' → SameShape p p')
    {frame frame' : Deliver} (replaced : Replaced R frame frame') (inRange : frame.InRange) :
    BytesAlike R (writeFrame frame) (writeFrame frame') := by
  have inRange' : frame'.InRange := by
    rw [replaced.rest]
    exact inRange
  have reads : Option.Rel (Replaced R) (readFrame (writeFrame frame))
      (readFrame (writeFrame frame')) := by
    rw [readFrame_writeFrame frame inRange, readFrame_writeFrame frame' inRange']
    exact .some replaced
  have shape : SameShape frame.payload frame'.payload :=
    replaced.payload.elim Or.inl fun related => shapes _ _ related
  rcases shape with same | ⟨base64, base64', long⟩
  · have same : frame' = frame := by rw [replaced.rest, same]
    rw [same]
    exact .refl _
  · obtain ⟨before, after, around⟩ := PlainTexts.toVec_payload frame
    have text : writeFrame frame = before ++ (utf8 frame.payload ++ after) := around _ base64
    have text' : writeFrame frame' = before ++ (utf8 frame'.payload ++ after) := by
      rw [writeFrame, replaced.rest]
      exact around _ base64'
    have long : (utf8 frame'.payload).length = (utf8 frame.payload).length := by
      rw [length_utf8, length_utf8, long]
    refine ⟨?_, ?_, reads⟩
    · rw [text, text']
      simp only [List.length_append, long]
    · rw [text, text', sqlLength_around (fun b => base64.byte), sqlLength_around fun b =>
        base64'.byte, long]

/-! ### What the tasks ask and are answered -/

/-- Requests that differ in payloads only. -/
inductive AskAlike (R : String → String → Prop) : Ask → Ask → Prop where
  | same (request : Ask) : AskAlike R request request
  | enqueue (recipient : String) {bytes bytes' : Bytes} (ts : Int)
      (alike : BytesAlike R bytes bytes') :
      AskAlike R (.call (.enqueue recipient bytes ts)) (.call (.enqueue recipient bytes' ts))
  | sendWait {msg msg' : ServerMsg} (alike : MsgAlike R msg msg') :
      AskAlike R (.sendWait msg) (.sendWait msg')
  | push (conn : Nat) {msg msg' : ServerMsg} (alike : MsgAlike R msg msg') :
      AskAlike R (.push conn msg) (.push conn msg')

/-- Answers that differ in payloads only. -/
def answersAlike (R : String → String → Prop) : (request request' : Ask) → request.Answer →
    request'.Answer → Prop
  | .call (.pendingFrames _), .call (.pendingFrames _), rows, rows' =>
      List.Forall₂ (HandAlike R) rows rows'
  | .now, .now, now, now' => now' = now ∧ IsI64 now
  | _, _, answer, answer' => HEq answer answer'

end

theorem registerUser_outbox (store : Store) (outbox : List OutboxRow)
    (username ed25519 curve25519 machineId uuid : String) (now : Int) :
    ({ store with outbox } : Store).registerUser username ed25519 curve25519 machineId uuid now =
      ((store.registerUser username ed25519 curve25519 machineId uuid now).1,
        { (store.registerUser username ed25519 curve25519 machineId uuid now).2 with outbox }) := by
  unfold Store.registerUser
  have taken : ({ store with outbox } : Store).usernameExists username =
      store.usernameExists username := rfl
  have known : ({ store with outbox } : Store).keyExists ed25519 = store.keyExists ed25519 := rfl
  rw [taken, known]
  cases store.usernameExists username with
  | true => rfl
  | false =>
      cases store.keyExists ed25519 with
      | true => rfl
      | false =>
          simp only
          split_ifs <;> rfl

theorem insertPrekey_outbox (store : Store) (outbox : List OutboxRow)
    (username keyId curve25519 : String) :
    ({ store with outbox } : Store).insertPrekey username keyId curve25519 =
      { store.insertPrekey username keyId curve25519 with outbox } := by
  simp only [Store.insertPrekey]
  split_ifs <;> rfl

theorem publishPrekeys_outbox (store : Store) (outbox : List OutboxRow) (username : String)
    (otks : List OneTimeKey) :
    ({ store with outbox } : Store).publishPrekeys username otks =
      ((store.publishPrekeys username otks).1,
        { (store.publishPrekeys username otks).2 with outbox }) := by
  have inserted : ∀ (keys : List OneTimeKey) (store : Store),
      keys.foldl (fun store k => store.insertPrekey username k.keyId k.curve25519)
          { store with outbox } =
        { keys.foldl (fun store k => store.insertPrekey username k.keyId k.curve25519) store with
          outbox } := by
    intro keys
    induction keys with
    | nil => exact fun _ => rfl
    | cons key rest ih =>
        intro store
        rw [List.foldl_cons, List.foldl_cons, insertPrekey_outbox, ih]
  have unused : ({ store with outbox } : Store).countUnusedPrekeys username =
      store.countUnusedPrekeys username := rfl
  unfold Store.publishPrekeys
  rw [unused, inserted otks store]
  split_ifs <;> rfl

theorem fetchBundle_outbox (store : Store) (outbox : List OutboxRow) (username : String) :
    ({ store with outbox } : Store).fetchBundle username =
      ((store.fetchBundle username).1, { (store.fetchBundle username).2 with outbox }) := by
  simp only [Store.fetchBundle, Store.lookupUser, Store.takePrekey]
  cases (store.users.find? fun row => row.record.username = username).map UserRow.record with
  | none => rfl
  | some record =>
      cases Store.claim username store.prekeys with
      | none => rfl
      | some claimed => rfl

theorem goOffline_outbox (store : Store) (outbox : List OutboxRow) (username : String) (c : Nat) :
    ({ store with outbox } : Store).goOffline username c =
      { store.goOffline username c with outbox } := by
  simp only [Store.goOffline]
  split_ifs <;> rfl

/-- The operations that have nothing to do with the outbox. -/
def StoreOp.Apart : StoreOp → Prop
  | .pendingFrames _ => False
  | .deleteFrames _ => False
  | .enqueue .. => False
  | _ => True

theorem exec_apart {op : StoreOp} (apart : op.Apart) (store : Store) (outbox : List OutboxRow) :
    op.exec { store with outbox } = ((op.exec store).1, { (op.exec store).2 with outbox }) := by
  cases op with
  | lookupUser username => rfl
  | registerUser username ed25519 curve25519 machineId uuid now =>
      exact registerUser_outbox store outbox username ed25519 curve25519 machineId uuid now
  | publishPrekeys username otks => exact publishPrekeys_outbox store outbox username otks
  | fetchBundle username => exact fetchBundle_outbox store outbox username
  | route recipient => rfl
  | goOnline username conn => rfl
  | goOffline username conn =>
      exact congrArg (Prod.mk ()) (goOffline_outbox store outbox username conn)
  | _ => exact apart.elim

theorem exec_apart_outbox {op : StoreOp} (apart : op.Apart) (store : Store) :
    (op.exec store).2.outbox = store.outbox := by
  have same := exec_apart apart store store.outbox
  rw [show ({ store with outbox := store.outbox } : Store) = store from rfl] at same
  exact congrArg (fun result => result.2.outbox) same

namespace Blind

theorem frameOf_alike {R : String → String → Prop} {msg msg' : ServerMsg} (alike : MsgAlike R msg msg') :
    Option.Rel (Replaced R) (frameOf msg) (frameOf msg') := by
  cases alike with
  | same msg => exact option_rel_refl Replaced.refl _
  | deliver replaced => exact .some replaced

end Blind

section

variable [Crates] {R : String → String → Prop} {sys sys' : System}

/-! ### The store -/

theorem StoreAlike.exec {store store' : Store} (alike : StoreAlike R store store') {op : StoreOp}
    (apart : op.Apart) : (op.exec store').1 = (op.exec store).1 ∧
      StoreAlike R (op.exec store).2 (op.exec store').2 := by
  have same : store' = { store with outbox := store'.outbox } := by
    obtain ⟨users, prekeys, outbox, nextOutboxId, online⟩ := store'
    obtain ⟨rfl, rfl, _, rfl, rfl⟩ := alike
    rfl
  have rows : List.Forall₂ (RowAlike R) (op.exec store).2.outbox store'.outbox := by
    rw [exec_apart_outbox apart]
    exact alike.outbox
  rw [same, exec_apart apart]
  exact ⟨rfl, rfl, rfl, rows, rfl, rfl⟩

theorem StoreAlike.filter {store store' : Store} (alike : StoreAlike R store store')
    {keep : OutboxRow → Bool} (blind : ∀ row row', RowAlike R row row' → keep row' = keep row) :
    List.Forall₂ (RowAlike R) (store.outbox.filter keep) (store'.outbox.filter keep) :=
  List.rel_filter (fun row row' same => by simp only [blind row row' same]) alike.outbox

theorem StoreAlike.pendingFrames {store store' : Store} (alike : StoreAlike R store store')
    (recipient : String) : List.Forall₂ (HandAlike R) (store.pendingFrames recipient)
      (store'.pendingFrames recipient) :=
  List.rel_map (fun _ _ same => ⟨same.id, same.frame⟩) (alike.filter fun row row' same => by
    rw [same.recipient])

theorem StoreAlike.enqueue {store store' : Store} (alike : StoreAlike R store store')
    (recipient : String) {bytes bytes' : Bytes} (same : BytesAlike R bytes bytes') (ts : Int) :
    (store'.enqueueIfUnderCap recipient bytes' ts).1 =
        (store.enqueueIfUnderCap recipient bytes ts).1 ∧
      StoreAlike R (store.enqueueIfUnderCap recipient bytes ts).2
        (store'.enqueueIfUnderCap recipient bytes' ts).2 := by
  have rows := alike.pendingFrames recipient
  have sums : store'.outboxBytes recipient = store.outboxBytes recipient := by
    have lengths : List.Forall₂ (· = ·)
        ((store.pendingFrames recipient).map fun row => Relay.sqlLength row.2)
        ((store'.pendingFrames recipient).map fun row => Relay.sqlLength row.2) :=
      List.rel_map (fun _ _ same => same.bytes.sqlLength.symm) rows
    rw [List.forall₂_eq_eq_eq] at lengths
    rw [Store.outboxBytes, Store.outboxBytes, lengths]
  unfold Store.enqueueIfUnderCap
  rw [← rows.length_eq, sums, same.length]
  split
  · exact ⟨rfl, alike⟩
  split
  · exact ⟨rfl, alike⟩
  refine ⟨rfl, alike.users, alike.prekeys, ?_, ?_, alike.online⟩
  · exact List.rel_append alike.outbox (.cons ⟨alike.nextOutboxId, rfl, same, rfl⟩ .nil)
  · exact congrArg (· + 1) alike.nextOutboxId

theorem StoreAlike.filtered {store store' : Store} (alike : StoreAlike R store store')
    {keep : OutboxRow → Bool} (blind : ∀ row row', RowAlike R row row' → keep row' = keep row) :
    StoreAlike R { store with outbox := store.outbox.filter keep }
      { store' with outbox := store'.outbox.filter keep } :=
  ⟨alike.users, alike.prekeys, alike.filter blind, alike.nextOutboxId, alike.online⟩

/-! ### The channels -/

theorem nextFrame_alike {hands hands' : List (Nat × Bytes)}
    (alike : List.Forall₂ (HandAlike R) hands hands') :
    Option.Rel (fun next next' => next'.1 = next.1 ∧ List.Forall₂ (HandAlike R) next.2.2 next'.2.2)
      (nextFrame hands) (nextFrame hands') := by
  induction alike with
  | nil => exact .none
  | @cons hand hand' rest rest' first others ih =>
      obtain ⟨id, bytes⟩ := hand
      obtain ⟨_, bytes'⟩ := hand'
      obtain rfl := first.id
      have read := first.bytes.read
      unfold nextFrame
      dsimp only at read ⊢
      generalize readFrame bytes = frame at read ⊢
      generalize readFrame bytes' = frame' at read ⊢
      cases read with
      | none => exact ih
      | some replaced => exact .some ⟨rfl, others⟩

theorem LedgerAlike.after {l l' : Ledger} (alike : LedgerAlike R l l') {request request' : Ask}
    (asks : AskAlike R request request') {answer : request.Answer} {answer' : request'.Answer}
    (answers : answersAlike R request request' answer answer') :
    LedgerAlike R (l.after request answer) (l'.after request' answer') := by
  have sent : ∀ (msg msg' : ServerMsg) (pushed : Bool),
      LedgerAlike R (l.after (.sendWait msg) pushed) (l'.after (.sendWait msg') pushed) := by
    intro msg msg' pushed
    cases pushed with
    | false => exact ⟨alike.user, alike.read, .nil, alike.pushed, alike.routed⟩
    | true =>
        have next := nextFrame_alike alike.hands
        unfold Ledger.after
        dsimp only
        generalize nextFrame l.hands = found at next ⊢
        generalize nextFrame l'.hands = found' at next ⊢
        cases next with
        | none => exact alike
        | @some found found' same =>
            obtain ⟨id, frame, rest⟩ := found
            obtain ⟨_, frame', rest'⟩ := found'
            obtain ⟨rfl, others⟩ := same
            refine ⟨alike.user, alike.read, others, ?_, alike.routed⟩
            show l'.pushed ++ _ = l.pushed ++ _
            rw [alike.pushed]
  cases asks with
  | enqueue recipient ts same => exact alike
  | push conn same => exact alike
  | @sendWait msg msg' same =>
      obtain rfl := eq_of_heq answers
      exact sent msg msg' answer
  | same request =>
      cases request with
      | call op =>
          cases op with
          | pendingFrames recipient => exact ⟨alike.user, answers, answers, rfl, alike.routed⟩
          | goOnline username conn =>
              exact ⟨rfl, alike.read, alike.hands, alike.pushed, alike.routed⟩
          | deleteFrames ids => exact ⟨alike.user, .nil, .nil, rfl, alike.routed⟩
          | route recipient =>
              obtain rfl := eq_of_heq answers
              exact ⟨alike.user, alike.read, alike.hands, alike.pushed, rfl⟩
          | _ => exact alike
      | sendWait msg =>
          obtain rfl := eq_of_heq answers
          exact sent msg msg answer
      | _ => exact alike

namespace Blind

theorem update (blind : Blind R sys sys') (c : Nat) {f f' : Conn → Conn}
    (alike : ConnAlike R (f (sys.conns c)) (f' (sys'.conns c))) :
    Blind R (sys.update c f) (sys'.update c f') where
  store := blind.store
  conns d := by
    by_cases same : d = c
    · subst same
      rw [System.update_self, System.update_self]
      exact alike
    · rw [System.update_of_ne _ _ same, System.update_of_ne _ _ same]
      exact blind.conns d
  written := blind.written
  accepted := blind.accepted
  rowCopy := blind.rowCopy
  pruned := blind.pruned
  pushedRows := blind.pushedRows

theorem push (blind : Blind R sys sys') (c : Nat) {entry entry' : Entry}
    (alike : EntryAlike R entry entry') : Blind R (sys.push c entry) (sys'.push c entry') :=
  blind.update c { blind.conns c with
    chan := List.rel_append (blind.conns c).chan (.cons alike .nil) }

theorem room (blind : Blind R sys sys') (c : Nat) : sys'.Room c ↔ sys.Room c := by
  unfold System.Room
  rw [(blind.conns c).alive, (blind.conns c).chan.length_eq]

theorem offer (blind : Blind R sys sys') (c : Nat) (entry : Entry) :
    (sys'.offer c entry).1 = (sys.offer c entry).1 ∧
      Blind R (sys.offer c entry).2 (sys'.offer c entry).2 := by
  unfold System.offer
  simp only [blind.room c]
  split
  · exact ⟨rfl, blind.push c (.refl entry)⟩
  · exact ⟨rfl, blind⟩

theorem accept (blind : Blind R sys sys') (c : Nat) (recipient : String)
    {frame frame' : Option Deliver} (alike : Option.Rel (Replaced R) frame frame') :
    Blind R (sys.accept c recipient frame) (sys'.accept c recipient frame') :=
  { blind with accepted := List.rel_append blind.accepted (.cons ⟨rfl, rfl, alike⟩ .nil) }

theorem enqueue (blind : Blind R sys sys') (c : Nat) (recipient : String) {bytes bytes' : Bytes}
    (same : BytesAlike R bytes bytes') (ts : Int) :
    (sys'.enqueue c recipient bytes' ts).1 = (sys.enqueue c recipient bytes ts).1 ∧
      Blind R (sys.enqueue c recipient bytes ts).2 (sys'.enqueue c recipient bytes' ts).2 := by
  obtain ⟨accepts, stores⟩ := blind.store.enqueue recipient same ts
  unfold System.enqueue
  rw [accepts]
  split
  · refine ⟨rfl, { blind.accept c recipient same.read with store := stores, rowCopy := ?_ }⟩
    show Function.update sys'.rowCopy _ _ = Function.update sys.rowCopy _ _
    rw [blind.rowCopy, blind.store.nextOutboxId, blind.accepted.length_eq]
  · exact ⟨rfl, blind⟩

theorem pushCopy (blind : Blind R sys sys') (c conn : Nat) {msg msg' : ServerMsg}
    (same : MsgAlike R msg msg') :
    (sys'.pushCopy c conn msg').1 = (sys.pushCopy c conn msg).1 ∧
      Blind R (sys.pushCopy c conn msg).2 (sys'.pushCopy c conn msg').2 := by
  have routed : sys'.routedTo c = sys.routedTo c := by
    unfold System.routedTo
    rw [(blind.conns c).ledger.routed]
  unfold System.pushCopy
  simp only [blind.room conn, routed]
  split
  · refine ⟨rfl, (blind.accept c _ (frameOf_alike same)).push conn ⟨same, ?_, rfl⟩⟩
    exact congrArg some blind.accepted.length_eq.symm
  · exact ⟨rfl, blind⟩

theorem nextRow (blind : Blind R sys sys') (c : Nat) : sys'.nextRow c = sys.nextRow c := by
  have next := nextFrame_alike (blind.conns c).ledger.hands
  unfold System.nextRow
  generalize nextFrame (sys.conns c).ledger.hands = found at next ⊢
  generalize nextFrame (sys'.conns c).ledger.hands = found' at next ⊢
  cases next with
  | none => rfl
  | some same => exact congrArg some same.1

theorem pushRow (blind : Blind R sys sys') (c : Nat) {msg msg' : ServerMsg}
    (same : MsgAlike R msg msg') :
    (sys'.pushRow c msg').1 = (sys.pushRow c msg).1 ∧
      Blind R (sys.pushRow c msg).2 (sys'.pushRow c msg').2 := by
  unfold System.pushRow
  rw [(blind.conns c).alive, blind.nextRow c]
  split
  · have pushed : Blind R
        { sys with pushedRows := sys.pushedRows ++ (sys.nextRow c).toList }
        { sys' with pushedRows := sys'.pushedRows ++ (sys.nextRow c).toList } :=
      { blind with pushedRows := congrArg (· ++ _) blind.pushedRows }
    exact ⟨rfl, pushed.push c ⟨same, congrArg (Option.bind _) blind.rowCopy, rfl⟩⟩
  · exact ⟨rfl, blind⟩

end Blind

/-! ### The requests -/

theorem serve_apart {op : StoreOp} (apart : op.Apart) (sys : System) (c : Nat) (outside : Outside) :
    sys.serve c outside (.call op) =
      some ((op.exec sys.store).1, { sys with store := (op.exec sys.store).2 }) := by
  cases op with
  | enqueue recipient frame ts => exact apart.elim
  | _ => rfl

theorem answers_apart {op : StoreOp} (apart : op.Apart) (answer : op.Result) :
    answersAlike R (.call op) (.call op) answer answer := by
  cases op with
  | pendingFrames recipient => exact apart.elim
  | _ => exact HEq.rfl

theorem Blind.serve (blind : Blind R sys sys') (c : Nat) (outside : Outside)
    {request request' : Ask} (asks : AskAlike R request request') :
    Option.Rel (fun served served' => answersAlike R request request' served.1 served'.1 ∧
        Blind R served.2 served'.2)
      (sys.serve c outside request) (sys'.serve c outside request') := by
  have waits : ∀ {msg msg' : ServerMsg}, MsgAlike R msg msg' →
      Option.Rel (fun served served' => HEq served.1 served'.1 ∧ Blind R served.2 served'.2)
        (sys.serve c outside (.sendWait msg)) (sys'.serve c outside (.sendWait msg')) := by
    intro msg msg' alike
    have room : ((sys'.conns c).alive = true → (sys'.conns c).chan.length < outboundCap) ↔
        ((sys.conns c).alive = true → (sys.conns c).chan.length < outboundCap) := by
      rw [(blind.conns c).alive, (blind.conns c).chan.length_eq]
    obtain ⟨same, after⟩ := blind.pushRow c alike
    simp only [System.serve, room]
    split
    · exact .some ⟨heq_of_eq same.symm, after⟩
    · exact .none
  cases asks with
  | enqueue recipient ts same =>
      obtain ⟨answers, after⟩ := blind.enqueue c recipient same ts
      exact .some ⟨heq_of_eq answers.symm, after⟩
  | sendWait alike => exact waits alike
  | push conn alike =>
      obtain ⟨answers, after⟩ := blind.pushCopy c conn alike
      exact .some ⟨heq_of_eq answers.symm, after⟩
  | same request =>
      cases request with
      | call op =>
          have stored : ∀ {store store' : Store}, StoreAlike R store store' →
              Blind R { sys with store := store } { sys' with store := store' } :=
            fun alike => { blind with store := alike }
          by_cases apart : op.Apart
          · obtain ⟨answers, after⟩ := blind.store.exec apart
            rw [serve_apart apart, serve_apart apart, answers]
            exact .some ⟨answers_apart apart _, stored after⟩
          cases op with
          | enqueue recipient bytes ts =>
              obtain ⟨answers, after⟩ := blind.enqueue c recipient (.refl bytes) ts
              exact .some ⟨heq_of_eq answers.symm, after⟩
          | pendingFrames recipient =>
              exact .some ⟨blind.store.pendingFrames recipient, stored blind.store⟩
          | deleteFrames ids =>
              refine .some ⟨HEq.rfl, stored (blind.store.filtered fun row row' same => ?_)⟩
              rw [same.id]
          | _ => exact absurd trivial apart
      | trySend msg =>
          obtain ⟨answers, after⟩ := blind.offer c ⟨msg, none, none⟩
          exact .some ⟨heq_of_eq answers.symm, after⟩
      | sendWait msg => exact waits (.same msg)
      | push conn msg =>
          obtain ⟨answers, after⟩ := blind.pushCopy c conn (.same msg)
          exact .some ⟨heq_of_eq answers.symm, after⟩
      | now =>
          simp only [System.serve]
          split
          · next fits => exact .some ⟨⟨rfl, fits⟩, blind⟩
          · exact .none
      | _ => exact .some ⟨HEq.rfl, blind⟩

theorem Blind.note (blind : Blind R sys sys') (c : Nat) {request request' : Ask}
    (asks : AskAlike R request request') {answer : request.Answer} {answer' : request'.Answer}
    (answers : answersAlike R request request' answer answer') :
    Blind R (sys.note c request answer) (sys'.note c request' answer') :=
  blind.update c { blind.conns c with ledger := (blind.conns c).ledger.after asks answers }

end

end Relay

end Cherm
