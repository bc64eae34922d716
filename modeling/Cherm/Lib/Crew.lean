/-
**Tasks that run side by side over one store.**

A crew has a task for every index; a task is idle or in the middle of a program, and the programs'
requests interleave in any order. The store may also change by itself.

A proof looks at the store through the eyes of each task (`View`): what the others may do to what a
task sees is its `rely`, and a program is verified against the requests under that interference
(`under`).

* `NextIf`: the steps at which a task makes only requests that are allowed in the state.
* `moves_next`, `runs_next`: the requests of one task are steps of the crew; `runs_nextIf`: steps of
  this kind, if they are allowed.
* `wp_stable`: what is verified under interference stays verified when others act.
* `View.Sound.reached`: if every program is verified for what its task sees, and one request keeps a
  global invariant wherever its demand holds, then both hold in every state of the crew.
* `View.Sound.demands`: then a request is made only where its demand holds.
-/

import Cherm.Lib.Prog

namespace Prog

variable {Q ε α L : Type} {A : Q → Type}

/-- The specification of a program while others act between its requests. -/
def Spec.under (rely : L → L → Prop) (S : Spec L Q A) : Spec L Q A where
  demand request l := ∀ l', rely l l' → S.demand request l'
  step request l answer l'' := ∃ l', rely l l' ∧ S.step request l' answer l''

variable {rely : L → L → Prop} {S : Spec L Q A} {post : Except ε α → L → Prop}

theorem wp_stable (trans : ∀ l l' l'', rely l l' → rely l' l'' → rely l l'')
    (stable : ∀ result l l', post result l → rely l l' → post result l') {p : Prog Q A ε α}
      {l l' : L}
    (holds : wp (S.under rely) post p l) (others : rely l l') : wp (S.under rely) post p l' := by
  cases p with
  | done value => exact stable _ _ _ holds others
  | fail error => exact stable _ _ _ holds others
  | ask request next =>
      refine ⟨fun l'' later => holds.1 l'' (trans _ _ _ others later), fun answer l''' made => ?_⟩
      obtain ⟨l'', later, made⟩ := made
      exact holds.2 answer l''' ⟨l'', trans _ _ _ others later, made⟩

/-- Where nobody interferes, verifying a program is verifying it alone. -/
theorem wp_under_of_eq (alone : ∀ l l', rely l l' → l' = l) {p : Prog Q A ε α} {l : L}
    (holds : wp S post p l) : wp (S.under rely) post p l := by
  refine wp_conseq (fun request l demanded l' others => ?_) (fun request l answer l'' made => ?_)
    (fun _ _ ended => ended) holds
  · rw [alone l l' others]
    exact demanded
  · obtain ⟨l', others, made⟩ := made
    rwa [alone l l' others] at made

end Prog

/-- What the tasks of a crew do: how a request of a task acts on the store, which programs a task
may begin, what becomes of a result, and what happens without a task. -/
structure Crew (ι σ Q : Type) (A : Q → Type) (ε α : Type) where
  act : ι → Prog.Step σ Q A
  begins : ι → Prog Q A ε α → σ → σ → Prop
  ends : ι → Except ε α → σ → σ → Prop
  drift : σ → σ → Prop

namespace Crew

variable {ι σ Q ε α L : Type} {A : Q → Type} [DecidableEq ι]

/-- The program every task is in the middle of, if it is not idle, and the store. -/
abbrev State (ι σ Q : Type) (A : Q → Type) (ε α : Type) := (ι → Option (Prog Q A ε α)) × σ

/-- One step of one task, or of the store by itself. -/
inductive Next (crew : Crew ι σ Q A ε α) : State ι σ Q A ε α → State ι σ Q A ε α → Prop where
  | start {tasks : ι → Option (Prog Q A ε α)} {s s' : σ} {p : Prog Q A ε α} (i : ι)
      (idle : tasks i = none) (begins : crew.begins i p s s') :
      Next crew (tasks, s) (Function.update tasks i (some p), s')
  | move {tasks : ι → Option (Prog Q A ε α)} {s s' : σ} {request : Q}
      {next : A request → Prog Q A ε α} {answer : A request} (i : ι)
      (busy : tasks i = some (.ask request next)) (made : crew.act i request s answer s') :
      Next crew (tasks, s) (Function.update tasks i (some (next answer)), s')
  | finish {tasks : ι → Option (Prog Q A ε α)} {s s' : σ} {result : Except ε α} (i : ι)
      (busy : tasks i = some (.ofExcept result)) (ends : crew.ends i result s s') :
      Next crew (tasks, s) (Function.update tasks i none, s')
  | drift {tasks : ι → Option (Prog Q A ε α)} {s s' : σ} (drifts : crew.drift s s') :
      Next crew (tasks, s) (tasks, s')

/-- A crew that may do more has all the steps of one that may do less. -/
theorem Next.mono {crew crew' : Crew ι σ Q A ε α} {state state' : State ι σ Q A ε α}
    (act : ∀ i request s answer s', crew.act i request s answer s' →
      crew'.act i request s answer s')
    (begins : ∀ i p s s', crew.begins i p s s' → crew'.begins i p s s')
    (ends : ∀ i result s s', crew.ends i result s s' → crew'.ends i result s s')
    (drift : ∀ s s', crew.drift s s' → crew'.drift s s') (next : Next crew state state') :
    Next crew' state state' := by
  cases next with
  | start i idle begun => exact .start i idle (begins _ _ _ _ begun)
  | move i busy made => exact .move i busy (act _ _ _ _ _ made)
  | finish i busy ended => exact .finish i busy (ends _ _ _ _ ended)
  | drift drifts => exact .drift (drift _ _ drifts)

/-- A step of the crew at which a task makes a request that is allowed in the state. -/
inductive NextIf (crew : Crew ι σ Q A ε α) (allowed : State ι σ Q A ε α → ι → Q → Prop) :
    State ι σ Q A ε α → State ι σ Q A ε α → Prop where
  | start {tasks : ι → Option (Prog Q A ε α)} {s s' : σ} {p : Prog Q A ε α} (i : ι)
      (idle : tasks i = none) (begins : crew.begins i p s s') :
      NextIf crew allowed (tasks, s) (Function.update tasks i (some p), s')
  | move {tasks : ι → Option (Prog Q A ε α)} {s s' : σ} {request : Q}
      {next : A request → Prog Q A ε α} {answer : A request} (i : ι)
      (busy : tasks i = some (.ask request next)) (ok : allowed (tasks, s) i request)
      (made : crew.act i request s answer s') :
      NextIf crew allowed (tasks, s) (Function.update tasks i (some (next answer)), s')
  | finish {tasks : ι → Option (Prog Q A ε α)} {s s' : σ} {result : Except ε α} (i : ι)
      (busy : tasks i = some (.ofExcept result)) (ends : crew.ends i result s s') :
      NextIf crew allowed (tasks, s) (Function.update tasks i none, s')
  | drift {tasks : ι → Option (Prog Q A ε α)} {s s' : σ} (drifts : crew.drift s s') :
      NextIf crew allowed (tasks, s) (tasks, s')

theorem NextIf.next {crew : Crew ι σ Q A ε α} {allowed : State ι σ Q A ε α → ι → Q → Prop}
    {state state' : State ι σ Q A ε α} (step : NextIf crew allowed state state') :
    Next crew state state' := by
  cases step with
  | start i idle begins => exact .start i idle begins
  | move i busy ok made => exact .move i busy made
  | finish i busy ends => exact .finish i busy ends
  | drift drifts => exact .drift drifts

/-- The requests of one task, one after the other, each of them allowed. -/
theorem moves_nextIf {crew : Crew ι σ Q A ε α} {allowed : State ι σ Q A ε α → ι → Q → Prop}
    {tasks : ι → Option (Prog Q A ε α)} {i : ι} {state state' : Prog Q A ε α × σ}
    (busy : tasks i = some state.1)
    (moves : Relation.ReflTransGen (Prog.Moves fun request s answer s' =>
      crew.act i request s answer s' ∧
        ∀ p, allowed (Function.update tasks i (some p), s) i request) state state') :
    Relation.ReflTransGen (NextIf crew allowed) (tasks, state.2)
      (Function.update tasks i (some state'.1), state'.2) := by
  induction moves with
  | refl =>
      rw [← busy, Function.update_eq_self]
  | tail _ moved ih =>
      cases moved with
      | @ask request next s s' answer made =>
          have step : NextIf crew allowed (Function.update tasks i (some (.ask request next)), s)
              (Function.update (Function.update tasks i (some (.ask request next))) i
                (some (next answer)), s') := .move i (Function.update_self ..) (made.2 _) made.1
          rw [Function.update_idem] at step
          exact ih.tail step

/-- A task that works off a program of allowed requests while the others wait. -/
theorem runs_nextIf {crew : Crew ι σ Q A ε α} {allowed : State ι σ Q A ε α → ι → Q → Prop}
    {tasks : ι → Option (Prog Q A ε α)} {i : ι} {p : Prog Q A ε α} {result : Except ε α}
    {s s' s'' s''' : σ} (idle : tasks i = none) (begins : crew.begins i p s s')
    (runs : Prog.Runs (fun request s answer s' => crew.act i request s answer s' ∧
      ∀ p, allowed (Function.update tasks i (some p), s) i request) p s' result s'')
    (ends : crew.ends i result s'' s''') :
    Relation.ReflTransGen (NextIf crew allowed) (tasks, s) (tasks, s''') := by
  have busy : Function.update tasks i (some p) i = some (p, s').1 := Function.update_self ..
  have moves : Relation.ReflTransGen (Prog.Moves fun request s answer s' =>
      crew.act i request s answer s' ∧ ∀ p', allowed (Function.update
        (Function.update tasks i (some p)) i (some p'), s) i request) (p, s')
      (.ofExcept result, s'') := by
    simpa only [Function.update_idem] using runs.moves
  have moved := moves_nextIf busy moves
  rw [Function.update_idem] at moved
  have finish : NextIf crew allowed (Function.update tasks i (some (.ofExcept result)), s'')
      (Function.update (Function.update tasks i (some (.ofExcept result))) i none, s''') :=
    .finish i (Function.update_self ..) ends
  rw [Function.update_idem, ← idle, Function.update_eq_self] at finish
  exact (moved.head (.start i idle begins)).tail finish

/-- Where every request is allowed, these are the steps of the crew. -/
theorem nextIf_true {crew : Crew ι σ Q A ε α} {state state' : State ι σ Q A ε α}
    (steps : Relation.ReflTransGen (NextIf crew fun _ _ _ => True) state state') :
    Relation.ReflTransGen crew.Next state state' := by
  induction steps with
  | refl => exact .refl
  | tail _ step ih => exact ih.tail step.next

/-- The requests of one task, one after the other. -/
theorem moves_next {crew : Crew ι σ Q A ε α} {tasks : ι → Option (Prog Q A ε α)} {i : ι}
    {state state' : Prog Q A ε α × σ} (busy : tasks i = some state.1)
    (moves : Relation.ReflTransGen (Prog.Moves (crew.act i)) state state') :
    Relation.ReflTransGen crew.Next (tasks, state.2)
      (Function.update tasks i (some state'.1), state'.2) := by
  have steps : Relation.ReflTransGen (NextIf crew fun _ _ _ => True) (tasks, state.2)
      (Function.update tasks i (some state'.1), state'.2) :=
    moves_nextIf busy (by simpa only [implies_true, and_true] using moves)
  exact nextIf_true steps

/-- A task that works off a program while the others wait. -/
theorem runs_next {crew : Crew ι σ Q A ε α} {tasks : ι → Option (Prog Q A ε α)} {i : ι}
    {p : Prog Q A ε α} {result : Except ε α} {s s' s'' s''' : σ} (idle : tasks i = none)
    (begins : crew.begins i p s s') (runs : Prog.Runs (crew.act i) p s' result s'')
    (ends : crew.ends i result s'' s''') :
    Relation.ReflTransGen crew.Next (tasks, s) (tasks, s''') := by
  have free : Prog.Runs (fun request s answer s' => crew.act i request s answer s' ∧
      ∀ _ : Prog Q A ε α, True) p s' result s'' := by
    simpa only [implies_true, and_true] using runs
  exact nextIf_true (runs_nextIf idle begins free ends)

/-- What a proof says about every task: what it sees of the store, what the others may do to that,
the specification its programs meet, and what holds while it is idle and when a program ends. -/
structure View (crew : Crew ι σ Q A ε α) (L : Type) where
  see : ι → σ → L
  rely : ι → L → L → Prop
  spec : ι → Prog.Spec L Q A
  idle : ι → L → Prop
  ended : ι → Except ε α → L → Prop

namespace View

variable {crew : Crew ι σ Q A ε α}

/-- The rely of a task is what it says. -/
structure Steady (view : View crew L) : Prop where
  refl : ∀ i l, view.rely i l l
  trans : ∀ i l l' l'', view.rely i l l' → view.rely i l' l'' → view.rely i l l''
  idle : ∀ i l l', view.idle i l → view.rely i l l' → view.idle i l'
  ended : ∀ i result l l', view.ended i result l → view.rely i l l' → view.ended i result l'

/-- What has to be shown of single steps for a global invariant. -/
structure Sound (view : View crew L) (inv : σ → Prop) : Prop where
  steady : view.Steady
  begins : ∀ i p s s', inv s → view.idle i (view.see i s) → crew.begins i p s s' →
    Prog.wp ((view.spec i).under (view.rely i)) (view.ended i) p (view.see i s') ∧ inv s' ∧
      ∀ j, j ≠ i → view.rely j (view.see j s) (view.see j s')
  acts : ∀ i request s answer s', inv s → (view.spec i).demand request (view.see i s) →
    crew.act i request s answer s' →
    (view.spec i).step request (view.see i s) answer (view.see i s') ∧ inv s' ∧
      ∀ j, j ≠ i → view.rely j (view.see j s) (view.see j s')
  ends : ∀ i result s s', inv s → view.ended i result (view.see i s) → crew.ends i result s s' →
    view.idle i (view.see i s') ∧ inv s' ∧
      ∀ j, j ≠ i → view.rely j (view.see j s) (view.see j s')
  drift : ∀ s s', inv s → crew.drift s s' →
    inv s' ∧ ∀ j, view.rely j (view.see j s) (view.see j s')

/-- What holds of one task. -/
def Holds (view : View crew L) (i : ι) (task : Option (Prog Q A ε α)) (l : L) : Prop :=
  match task with
  | none => view.idle i l
  | some p => Prog.wp ((view.spec i).under (view.rely i)) (view.ended i) p l

variable {view : View crew L} {inv : σ → Prop}

omit [DecidableEq ι] in
theorem holds_of_eq {i : ι} {task task' : Option (Prog Q A ε α)} {l : L} (same : task = task')
    (holds : view.Holds i task l) : view.Holds i task' l := same ▸ holds

omit [DecidableEq ι] in
theorem Steady.holds (steady : view.Steady) {i : ι} {task : Option (Prog Q A ε α)} {l l' : L}
    (holds : view.Holds i task l) (others : view.rely i l l') : view.Holds i task l' := by
  cases task with
  | none => exact steady.idle i l l' holds others
  | some p => exact Prog.wp_stable (steady.trans i) (steady.ended i) holds others

/-- After a step of task `i`, each task is where it was or where the step leads. -/
theorem Steady.holds_update (steady : view.Steady) {tasks : ι → Option (Prog Q A ε α)}
    {s s' : σ} {i : ι}
    {task : Option (Prog Q A ε α)} (before : ∀ j, view.Holds j (tasks j) (view.see j s))
    (own : view.Holds i task (view.see i s'))
    (others : ∀ j, j ≠ i → view.rely j (view.see j s) (view.see j s')) (j : ι) :
    view.Holds j (Function.update tasks i task j) (view.see j s') := by
  by_cases same : j = i
  · subst same
    rw [Function.update_self]
    exact own
  · rw [Function.update_of_ne same]
    exact steady.holds (before j) (others j same)

/-- **The rule for crews.** -/
theorem Sound.reached (sound : view.Sound inv) {start state : State ι σ Q A ε α}
    (reached : Relation.ReflTransGen crew.Next start state) (allIdle : ∀ i, start.1 i = none)
    (idle : ∀ i, view.idle i (view.see i start.2)) (initially : inv start.2) :
    inv state.2 ∧ ∀ i, view.Holds i (state.1 i) (view.see i state.2) := by
  induction reached with
  | refl =>
      refine ⟨initially, fun i => ?_⟩
      rw [allIdle i]
      exact idle i
  | tail _ next ih =>
      obtain ⟨before, each⟩ := ih
      cases next with
      | start i isIdle begins =>
          have waiting := holds_of_eq isIdle (each i)
          obtain ⟨own, kept, others⟩ := sound.begins i _ _ _ before waiting begins
          exact ⟨kept, sound.steady.holds_update each own others⟩
      | move i busy made =>
          have running := holds_of_eq busy (each i)
          obtain ⟨own, kept, others⟩ := sound.acts i _ _ _ _ before
            (running.1 _ (sound.steady.refl i _)) made
          exact ⟨kept, sound.steady.holds_update each
            (running.2 _ _ ⟨_, sound.steady.refl i _, own⟩) others⟩
      | finish i busy ends =>
          have running := holds_of_eq busy (each i)
          obtain ⟨own, kept, others⟩ := sound.ends i _ _ _ before
            ((Prog.wp_ofExcept _ _).mp running) ends
          exact ⟨kept, sound.steady.holds_update each own others⟩
      | drift drifts =>
          obtain ⟨kept, others⟩ := sound.drift _ _ before drifts
          exact ⟨kept, fun j => sound.steady.holds (each j) (others j)⟩

/-- **Step safety.** A request of a task is made only where its demand holds. -/
theorem Sound.demands (sound : view.Sound inv) {start : State ι σ Q A ε α}
    {tasks : ι → Option (Prog Q A ε α)} {s : σ}
    (reached : Relation.ReflTransGen crew.Next start (tasks, s)) (allIdle : ∀ i, start.1 i = none)
    (idle : ∀ i, view.idle i (view.see i start.2)) (initially : inv start.2) {i : ι} {request : Q}
    {next : A request → Prog Q A ε α} (busy : tasks i = some (.ask request next)) :
    (view.spec i).demand request (view.see i s) := by
  have running := holds_of_eq busy ((sound.reached reached allIdle idle initially).2 i)
  exact running.1 _ (sound.steady.refl i _)

end View

end Crew
