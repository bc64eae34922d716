/-
**Clients that write to each other.**

`Network` is the vaults of some clients and the frames on their way between any two of them, in the
order in which they were sent. `Next`: a client sends a text to its chat, takes the next frame that
another one sent it, or does something else that leaves that chat alone. Commands and frames are
whole here. The relay takes what is within its limits, and every copy of it arrives once and in
order.

`playSend` and `playReceive` are steps that can be computed, in a world that answers by a function.
`Network.talk` is the conversation such a network has; `talk_send`, `talk_receive` and `talk_same`
say which step of a `Talk` each of its steps is. From there `in_order` is one argument for every
kind of chat: what is heard is what was said, up to what is on its way.
-/

import Cherm.Client.Texting
import Cherm.Lib.Talk

namespace Cherm

open Crates

section

variable [Crates]

/-! ### The network -/

/-- Who is who, and the chat each of them uses for it. -/
structure Cast (P : Type) where
  name : P → String
  chat : P → String
  distinct : Function.Injective name

/-- The vaults, and the frames from the first party to the second. -/
structure Network (P : Type) where
  vault : P → Vault
  wire : P → P → List Incoming

/-- A step of someone: a text for the chat, the next frame of another, or anything that `spares`
the chat. -/
inductive Network.Next {P : Type} [DecidableEq P] (cast : Cast P)
    (allow : P → (asked : Ask) → asked.Answer → Prop) (spares : P → Vault → Vault → Prop) :
    Network P → Network P → Prop where
  | send {n : Network P} {p : P} {app : App} {text : String} {result : Except String Unit}
      {v' : Vault} {log : List Ask}
      (runs : Prog.Runs (Prog.logged (Ask.effectIf (allow p)))
        (Client.runCommand app (.send (cast.chat p) text)) (n.vault p, []) result (v', log))
      (taken : ∀ msg, Ask.post (.send msg) ∈ log → msg.Taken) :
      Next cast allow spares n ⟨Function.update n.vault p v', Function.update n.wire p fun q =>
        n.wire p q ++ copies (cast.name p) (cast.name q) log⟩
  | receive {n : Network P} {p q : P} {inc : Incoming} {rest : List Incoming} {ctx : ProcCtx}
      {result : Except String Unit} {v' : Vault} (apart : p ≠ q)
      (first : n.wire p q = inc :: rest) (me : ctx.me = cast.name q)
      (runs : Prog.Runs (Ask.effectIf (allow q)) (Client.processFrame ctx inc) (n.vault q) result
        v') :
      Next cast allow spares n ⟨Function.update n.vault q v',
        Function.update n.wire p (Function.update (n.wire p) q rest)⟩
  | other {n : Network P} {p : P} {v' : Vault} (spared : spares p (n.vault p) v') :
      Next cast allow spares n { n with vault := Function.update n.vault p v' }

/-! ### Steps that are played -/

/-- The answers that are given by a function. -/
def Given {P : Type} (world : P → (asked : Ask) → asked.Answer) (p : P) (asked : Ask)
    (answer : asked.Answer) : Prop := answer = world p asked

theorem given_self {P : Type} (world : P → (asked : Ask) → asked.Answer) (p : P) (asked : Ask) :
    Given world p asked (world p asked) := rfl

/-- The relay takes it, if it is a message. -/
def Ask.isTaken : Ask → Bool
  | .post (.send msg) => decide msg.Taken
  | _ => true

/-- A world that answers by a function, and the requests it was asked. -/
def noting (world : (asked : Ask) → asked.Answer) :
    Prog.Machine (Vault × List Ask) Ask Ask.Answer :=
  fun asked s => ((Ask.play world asked s.1).1, (Ask.play world asked s.1).2, asked :: s.2)

namespace Network

variable {P : Type} [DecidableEq P] (cast : Cast P) (world : P → (asked : Ask) → asked.Answer)

/-- What becomes of a client that sends a text. -/
def sending (p : P) (app : App) (text : String) (n : Network P) :
    Except String Unit × Vault × List Ask :=
  Prog.run (noting (world p)) (Client.runCommand app (.send (cast.chat p) text)) (n.vault p, [])

def playSend (p : P) (app : App) (text : String) (n : Network P) : Network P :=
  let sent := (sending cast world p app text n).2
  ⟨Function.update n.vault p sent.1, Function.update n.wire p fun q =>
    n.wire p q ++ copies (cast.name p) (cast.name q) sent.2⟩

def playReceive (p q : P) (ctx : ProcCtx) (n : Network P) : Network P :=
  match n.wire p q with
  | [] => n
  | inc :: rest =>
      ⟨Function.update n.vault q
          (Prog.run (Ask.play (world q)) (Client.processFrame ctx inc) (n.vault q)).2,
        Function.update n.wire p (Function.update (n.wire p) q rest)⟩

variable {cast world} {spares : P → Vault → Vault → Prop}

theorem next_playSend {p : P} {app : App} {text : String} {n : Network P}
    (taken : (sending cast world p app text n).2.2.all Ask.isTaken = true) :
    Next cast (Given world) spares n (playSend cast world p app text n) := by
  have runs : Prog.Runs (Prog.logged (Ask.effectIf (Given world p)))
      (Client.runCommand app (.send (cast.chat p) text)) (n.vault p, [])
      (sending cast world p app text n).1 (sending cast world p app text n).2 :=
    Prog.run_runs (fun asked s => ⟨Ask.play_conforms (given_self world p) asked s.1, rfl⟩) _ _
  exact .send runs fun msg among => of_decide_eq_true (List.all_eq_true.mp taken _ among)

theorem next_playReceive {p q : P} (apart : p ≠ q) {ctx : ProcCtx} (me : ctx.me = cast.name q)
    {n : Network P} (waiting : n.wire p q ≠ []) :
    Next cast (Given world) spares n (playReceive world p q ctx n) := by
  cases first : n.wire p q with
  | nil => exact absurd first waiting
  | cons inc rest =>
      rw [playReceive, first]
      exact .receive apart first me
        (Prog.run_runs (fun asked v => Ask.play_conforms (given_self world q) asked v) _ _)

end Network

/-! ### The conversation of a network -/

namespace Network

variable {P κ : Type} [DecidableEq P] (cast : Cast P) (words : κ → Words)

/-- What everyone's chat shows, and the words on their way. -/
def talk (n : Network P) (letters : P → P → List κ) : Talk P Words where
  said p := (n.vault p).said (cast.chat p)
  heard q p := (n.vault q).heard (cast.chat q) (cast.name p)
  way p q := (letters p q).map words

variable {cast words} {n : Network P} {letters : P → P → List κ} {p q : P} {v' : Vault}
  {wire' : P → P → List Incoming}

/-- A text that went into our vault was said. -/
theorem talk_send {x : κ}
    (said : v'.said (cast.chat p) = (n.vault p).said (cast.chat p) ++ [words x])
    (heard : ∀ name, v'.heard (cast.chat p) name = (n.vault p).heard (cast.chat p) name) :
    talk cast words ⟨Function.update n.vault p v', wire'⟩ (Talk.posted p x letters) =
      (talk cast words n letters).say p (words x) := by
  ext1
  · funext r
    by_cases same : r = p
    · subst same
      simp only [talk, Talk.say, Function.update_self, said]
    · simp only [talk, Talk.say, Function.update_of_ne same]
  · funext r s
    by_cases same : r = p
    · subst same
      simp only [talk, Talk.say, Function.update_self, heard]
    · simp only [talk, Talk.say, Function.update_of_ne same]
  · exact Talk.map_posted words p x letters

/-- A text that came into our vault was heard. -/
theorem talk_receive {x : κ} {rest : List κ}
    (said : v'.said (cast.chat q) = (n.vault q).said (cast.chat q))
    (heard : ∀ name, v'.heard (cast.chat q) name = (n.vault q).heard (cast.chat q) name ++
      if cast.name p = name then [words x] else []) :
    talk cast words ⟨Function.update n.vault q v', wire'⟩ (Talk.taken p q rest letters) =
      (talk cast words n letters).hear q p (words x) (rest.map words) := by
  ext1
  · funext r
    by_cases same : r = q
    · subst same
      simp only [talk, Talk.hear, Function.update_self, said]
    · simp only [talk, Talk.hear, Function.update_of_ne same]
  · funext r s
    by_cases same : r = q
    · subst same
      by_cases sender : s = p
      · subst sender
        simp only [talk, Talk.hear, Function.update_self, heard, if_pos]
      · have other : cast.name p ≠ cast.name s := fun same => sender (cast.distinct same).symm
        simp only [talk, Talk.hear, Function.update_self, Function.update_of_ne sender, heard,
          if_neg other, List.append_nil]
    · simp only [talk, Talk.hear, Function.update_of_ne same]
  · exact Talk.map_taken words p q rest letters

/-- Nothing was said or heard. -/
theorem talk_same (said : v'.said (cast.chat p) = (n.vault p).said (cast.chat p))
    (heard : ∀ name, v'.heard (cast.chat p) name = (n.vault p).heard (cast.chat p) name) :
    talk cast words ⟨Function.update n.vault p v', wire'⟩ letters = talk cast words n letters := by
  ext1
  · funext r
    by_cases same : r = p
    · subst same
      simp only [talk, Function.update_self, said]
    · simp only [talk, Function.update_of_ne same]
  · funext r s
    by_cases same : r = p
    · subst same
      simp only [talk, Function.update_self, heard]
    · simp only [talk, Function.update_of_ne same]
  · rfl

/-- Nothing was written down and nothing handed over. -/
theorem unchanged {out : P → List Incoming} (nothing : ∀ q, out q = []) :
    (⟨Function.update n.vault p (n.vault p),
      Function.update n.wire p fun q => n.wire p q ++ out q⟩ : Network P) = n := by
  have wires : (fun q => n.wire p q ++ out q) = n.wire p := by
    funext q
    rw [nothing, List.append_nil]
  rw [Function.update_eq_self, wires, Function.update_eq_self]

/-! ### A chat that everyone is in -/

/-- What is on its way are the letters, everyone is logged in under their name, and nobody has the
chat as one of another kind. -/
structure Room (cast : Cast P) (kind : String) (frame : P → κ → Incoming) (n : Network P)
    (letters : P → P → List κ) : Prop where
  wire : ∀ p q, p ≠ q → n.wire p q = (letters p q).map (frame p)
  named : ∀ p, (n.vault p).metaGet "username" = some (cast.name p)
  kind : ∀ p row, (n.vault p).chats.get (cast.chat p) = some row → row.kind = kind

variable {kind : String} {frame : P → κ → Incoming}

/-- A vault may change if the name and the kind stay. -/
theorem Room.update (room : Room cast kind frame n letters) {letters' : P → P → List κ}
    (named : v'.metaGet "username" = some (cast.name p))
    (isKind : ∀ row, v'.chats.get (cast.chat p) = some row → row.kind = kind)
    (wire : ∀ r s, r ≠ s → wire' r s = (letters' r s).map (frame r)) :
    Room cast kind frame ⟨Function.update n.vault p v', wire'⟩ letters' := by
  refine ⟨wire, fun r => ?_, fun r row here => ?_⟩
  · by_cases same : r = p
    · subst same
      simpa only [Function.update_self] using named
    · simpa only [Function.update_of_ne same] using room.named r
  · by_cases same : r = p
    · subst same
      exact isKind row (by simpa only [Function.update_self] using here)
    · exact room.kind r row (by simpa only [Function.update_of_ne same] using here)

/-- The wire after a text for everyone else. -/
theorem Room.wire_posted (room : Room cast kind frame n letters) {x : κ} {out : P → List Incoming}
    (copied : ∀ q, p ≠ q → out q = [frame p x]) (r s : P) (apart : r ≠ s) :
    Function.update n.wire p (fun q => n.wire p q ++ out q) r s =
      (Talk.posted p x letters r s).map (frame r) := by
  by_cases same : r = p
  · subst same
    rw [Function.update_self, Talk.posted_other apart, List.map_append, room.wire r s apart,
      copied s apart]
    rfl
  · rw [Function.update_of_ne same, Talk.posted_of_ne same, room.wire r s apart]

/-- The wire after a frame was taken. -/
theorem Room.wire_taken (room : Room cast kind frame n letters) {rest : List κ} (r s : P)
    (apart : r ≠ s) :
    Function.update n.wire p (Function.update (n.wire p) q (rest.map (frame p))) r s =
      (Talk.taken p q rest letters r s).map (frame r) := by
  by_cases here : r = p ∧ s = q
  · obtain ⟨rfl, rfl⟩ := here
    rw [Function.update_self, Function.update_self, Talk.taken_here]
  · rw [Talk.taken_elsewhere here, ← room.wire r s apart]
    exact Talk.taken_elsewhere here _ _

omit [DecidableEq P] in
/-- What comes up is a letter. -/
theorem Room.first (room : Room cast kind frame n letters) (apart : p ≠ q) {inc : Incoming}
    {rest : List Incoming} (first : n.wire p q = inc :: rest) :
    ∃ x later, letters p q = x :: later ∧ inc = frame p x ∧ rest = later.map (frame p) := by
  have all := room.wire p q apart
  rw [first] at all
  cases waiting : letters p q with
  | nil =>
      rw [waiting] at all
      cases all
  | cons x later =>
      rw [waiting] at all
      obtain ⟨same, others⟩ := List.cons.inj all
      exact ⟨x, later, rfl, same, others⟩

/-! ### What everyone hears -/

variable {allow : P → (asked : Ask) → asked.Answer → Prop} {spares : P → Vault → Vault → Prop}
  {inv : Network P → (P → P → List κ) → Prop}

variable (inv) in
/-- If a step is always one of a conversation or none, a run is a run of a conversation. -/
theorem talk_run (step : ∀ n n' letters, inv n letters → Next cast allow spares n n' →
      ∃ letters', inv n' letters' ∧ Relation.ReflTransGen Talk.Next (n.talk cast words letters)
        (n'.talk cast words letters'))
    {n n' : Network P} {letters : P → P → List κ} (start : inv n letters)
    (run : Relation.ReflTransGen (Next cast allow spares) n n') :
    ∃ letters', inv n' letters' ∧ Relation.ReflTransGen Talk.Next (n.talk cast words letters)
      (n'.talk cast words letters') := by
  induction run with
  | refl => exact ⟨letters, start, .refl⟩
  | tail _ next ih =>
      obtain ⟨mid, before, first⟩ := ih
      obtain ⟨letters', after, second⟩ := step _ _ mid before next
      exact ⟨letters', after, first.trans second⟩

variable (inv) in
/-- So what one shows of another's texts, followed by as many as there are frames on their way, is
what the other shows of its own. -/
theorem in_order (step : ∀ n n' letters, inv n letters → Next cast allow spares n n' →
      ∃ letters', inv n' letters' ∧ Relation.ReflTransGen Talk.Next (n.talk cast words letters)
        (n'.talk cast words letters'))
    (room : ∀ n letters, inv n letters → Room cast kind frame n letters)
    {n n' : Network P} (start : inv n fun _ _ => [])
    (agree : ∀ p q, p ≠ q → (n.vault p).said (cast.chat p) =
      (n.vault q).heard (cast.chat q) (cast.name p))
    (run : Relation.ReflTransGen (Next cast allow spares) n n') {p q : P} (apart : p ≠ q) :
    ∃ later, (n'.vault p).said (cast.chat p) =
        (n'.vault q).heard (cast.chat q) (cast.name p) ++ later ∧
      later.length = (n'.wire p q).length := by
  have faithful : (n.talk cast words fun _ _ => []).Faithful := by
    intro p q apart
    simp only [talk, List.map_nil, List.append_nil]
    exact agree p q apart
  obtain ⟨letters', after, talked⟩ := talk_run inv step start run
  refine ⟨(letters' p q).map words, faithful.run talked p q apart, ?_⟩
  rw [(room _ _ after).wire p q apart, List.length_map, List.length_map]

end Network

end

end Cherm
