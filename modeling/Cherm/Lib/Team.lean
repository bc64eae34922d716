/-
**Tasks on a schedule, and two teams in step.**

A team is a crew whose next step is given: a turn says which task begins a program, which one makes
its next request and by which machine the request is answered, and which one ends. A team that takes
turns is a run of a crew (`take_next`).

Two teams keep pace if their tasks are twins and their stores are related. `Pace.take` is the step:
corresponding turns keep the pace if what the machines do to corresponding requests is admitted by
the coupling. `Pace.run` is the run, under a condition that holds along both schedules.
-/

import Cherm.Lib.Crew
import Cherm.Lib.Twin

/-- The program each task is in the middle of, with a note on where it came from, and the store. -/
structure Team (N σ Q : Type) (A : Q → Type) (ε : Type) where
  tasks : Nat → Option (N × Prog Q A ε Unit)
  store : σ

namespace Team

variable {N σ Q ε : Type} {A : Q → Type}

/-- No task is running. -/
def idle (store : σ) : Team N σ Q A ε := ⟨fun _ => none, store⟩

/-- A turn of a schedule. -/
inductive Turn (N σ Q : Type) (A : Q → Type) (ε : Type) where
  | start (task : Nat) (note : N) (prog : Prog Q A ε Unit)
  | go (task : Nat) (machine : Prog.Machine σ Q A)
  | finish (task : Nat)

/-- Take a turn; one that is not due leaves everything as it is. -/
def take (team : Team N σ Q A ε) : Turn N σ Q A ε → Team N σ Q A ε
  | .start task note prog =>
      match team.tasks task with
      | none => { team with tasks := Function.update team.tasks task (some (note, prog)) }
      | some _ => team
  | .go task machine =>
      match team.tasks task with
      | some (note, .ask request next) =>
          { tasks := Function.update team.tasks task
              (some (note, next (machine request team.store).1))
            store := (machine request team.store).2 }
      | _ => team
  | .finish task =>
      match team.tasks task with
      | some (_, .done _) | some (_, .fail _) =>
          { team with tasks := Function.update team.tasks task none }
      | _ => team

/-- Take the turns of a schedule. -/
def run (team : Team N σ Q A ε) (turns : List (Turn N σ Q A ε)) : Team N σ Q A ε :=
  turns.foldl take team

@[simp] theorem run_nil (team : Team N σ Q A ε) : team.run [] = team := rfl

@[simp] theorem run_cons (team : Team N σ Q A ε) (turn : Turn N σ Q A ε)
    (turns : List (Turn N σ Q A ε)) : team.run (turn :: turns) = (team.take turn).run turns := rfl

/-! ### A team is a crew -/

/-- The programs without the notes. -/
def crewState (team : Team N σ Q A ε) : Crew.State Nat σ Q A ε Unit :=
  (fun task => (team.tasks task).map Prod.snd, team.store)

theorem map_update (tasks : Nat → Option (N × Prog Q A ε Unit)) (task : Nat)
    (job : Option (N × Prog Q A ε Unit)) :
    (fun i => (Function.update tasks task job i).map Prod.snd) =
      Function.update (fun i => (tasks i).map Prod.snd) task (job.map Prod.snd) := by
  funext i
  by_cases here : i = task
  · rw [here, Function.update_self, Function.update_self]
  · rw [Function.update_of_ne here, Function.update_of_ne here]

/-- The crew admits the turn. -/
def Admits (crew : Crew Nat σ Q A ε Unit) (team : Team N σ Q A ε) : Turn N σ Q A ε → Prop
  | .start task _ prog => crew.begins task prog team.store team.store
  | .go task machine => ∀ request, crew.act task request team.store
      (machine request team.store).1 (machine request team.store).2
  | .finish task => ∀ result, crew.ends task result team.store team.store

/-- A turn is a step of the crew, or none. -/
theorem take_next {crew : Crew Nat σ Q A ε Unit} {team : Team N σ Q A ε} {turn : Turn N σ Q A ε}
    (admits : team.Admits crew turn) :
    Relation.ReflTransGen crew.Next team.crewState (team.take turn).crewState := by
  cases turn with
  | start task note prog =>
      unfold take
      dsimp only
      split
      · next isIdle =>
        unfold crewState
        rw [map_update]
        exact .single (.start task (by rw [isIdle]; rfl) admits)
      · exact .refl
  | go task machine =>
      unfold take
      dsimp only
      split
      · next note request next busy =>
        unfold crewState
        rw [map_update]
        exact .single (.move task (by rw [busy]; rfl) (admits request))
      · exact .refl
  | finish task =>
      unfold take
      dsimp only
      split
      · next note value busy =>
        unfold crewState
        rw [map_update]
        have ends : crew.ends task (.ok value) team.store team.store := admits _
        exact .single (.finish task (by rw [busy]; rfl) ends)
      · next note error busy =>
        unfold crewState
        rw [map_update]
        have ends : crew.ends task (.error error) team.store team.store := admits _
        exact .single (.finish task (by rw [busy]; rfl) ends)
      · exact .refl

/-! ### Two teams -/

variable {C : N → N → Coupling Q A} {R : σ → σ → Prop}

/-- The tasks are twins, and the stores are related. -/
structure Pace (C : N → N → Coupling Q A) (R : σ → σ → Prop) (team team' : Team N σ Q A ε) :
    Prop where
  tasks : ∀ task, Option.Rel (fun job job' => Prog.Twin (C job.1 job'.1) (· = ·) job.2 job'.2)
    (team.tasks task) (team'.tasks task)
  stores : R team.store team'.store

/-- Corresponding turns: twins begin, and the same machine answers. -/
inductive Turn.Alike (C : N → N → Coupling Q A) : Turn N σ Q A ε → Turn N σ Q A ε → Prop where
  | start (task : Nat) {note note' : N} {prog prog' : Prog Q A ε Unit}
      (twins : Prog.Twin (C note note') (· = ·) prog prog') :
      Alike C (.start task note prog) (.start task note' prog')
  | go (task : Nat) (machine : Prog.Machine σ Q A) : Alike C (.go task machine) (.go task machine)
  | finish (task : Nat) : Alike C (.finish task) (.finish task)

/-- What the machine of a turn does to corresponding requests is admitted by the coupling. -/
def Fair (C : N → N → Coupling Q A) (R : σ → σ → Prop) (team team' : Team N σ Q A ε)
    (turn : Turn N σ Q A ε) : Prop :=
  ∀ task machine note note' request request' next next', turn = .go task machine →
    team.tasks task = some (note, .ask request next) →
    team'.tasks task = some (note', .ask request' next') →
    (C note note').asks request request' →
    (C note note').answers request request' (machine request team.store).1
        (machine request' team'.store).1 ∧
      R (machine request team.store).2 (machine request' team'.store).2

theorem rel_update {r : N × Prog Q A ε Unit → N × Prog Q A ε Unit → Prop}
    {tasks tasks' : Nat → Option (N × Prog Q A ε Unit)}
    (related : ∀ i, Option.Rel r (tasks i) (tasks' i)) {job job' : Option (N × Prog Q A ε Unit)}
    (here : Option.Rel r job job') (task i : Nat) :
    Option.Rel r (Function.update tasks task job i) (Function.update tasks' task job' i) := by
  by_cases same : i = task
  · rw [same, Function.update_self, Function.update_self]
    exact here
  · rw [Function.update_of_ne same, Function.update_of_ne same]
    exact related i

/-- **One turn** of both. -/
theorem Pace.take {team team' : Team N σ Q A ε} {turn turn' : Turn N σ Q A ε}
    (pace : Pace C R team team') (alike : Turn.Alike C turn turn')
      (fair : Fair C R team team' turn) :
    Pace C R (team.take turn) (team'.take turn') := by
  cases alike with
  | @start task note note' prog prog' twins =>
      have here := pace.tasks task
      unfold Team.take
      dsimp only
      generalize team.tasks task = job at here
      generalize team'.tasks task = job' at here
      cases here with
      | none => exact ⟨rel_update pace.tasks (.some twins) task, pace.stores⟩
      | some _ => exact pace
  | go task machine =>
      have here := pace.tasks task
      have made := fair task machine
      unfold Team.take
      dsimp only
      generalize team.tasks task = job at here made
      generalize team'.tasks task = job' at here made
      cases here with
      | none => exact pace
      | @some job job' twins =>
          obtain ⟨note, prog⟩ := job
          obtain ⟨note', prog'⟩ := job'
          cases (twins : Prog.Twin _ _ prog prog') with
          | done related => exact pace
          | fail error => exact pace
          | ask asks rest =>
              obtain ⟨answers, stores⟩ := made _ _ _ _ _ _ rfl rfl rfl asks
              exact ⟨rel_update pace.tasks (.some (rest _ _ answers)) task, stores⟩
  | finish task =>
      have here := pace.tasks task
      unfold Team.take
      dsimp only
      generalize team.tasks task = job at here
      generalize team'.tasks task = job' at here
      cases here with
      | none => exact pace
      | @some job job' twins =>
          obtain ⟨note, prog⟩ := job
          obtain ⟨note', prog'⟩ := job'
          cases (twins : Prog.Twin _ _ prog prog') with
          | done related => exact ⟨rel_update pace.tasks .none task, pace.stores⟩
          | fail error => exact ⟨rel_update pace.tasks .none task, pace.stores⟩
          | ask asks rest => exact pace

/-- The condition holds before each turn of two schedules. -/
def Along (condition : Team N σ Q A ε → Team N σ Q A ε → Turn N σ Q A ε → Prop) :
    Team N σ Q A ε → Team N σ Q A ε → List (Turn N σ Q A ε) → List (Turn N σ Q A ε) → Prop
  | team, team', turn :: turns, turn' :: turns' => condition team team' turn ∧
      Along condition (team.take turn) (team'.take turn') turns turns'
  | _, _, _, _ => True

variable {condition other : Team N σ Q A ε → Team N σ Q A ε → Turn N σ Q A ε → Prop}

theorem Along.and {turns turns' : List (Turn N σ Q A ε)} {team team' : Team N σ Q A ε}
    (first : Along condition team team' turns turns') (second :
      Along other team team' turns turns') :
    Along (fun team team' turn => condition team team' turn ∧ other team team' turn) team team'
      turns turns' := by
  induction turns generalizing team team' turns' with
  | nil => exact trivial
  | cons turn turns ih =>
      cases turns' with
      | nil => exact trivial
      | cons turn' turns' => exact ⟨⟨first.1, second.1⟩, ih first.2 second.2⟩

instance Along.decidable [∀ team team' turn, Decidable (condition team team' turn)] :
    (team team' : Team N σ Q A ε) → (turns turns' : List (Turn N σ Q A ε)) →
      Decidable (Along condition team team' turns turns')
  | _, _, [], _ => .isTrue trivial
  | _, _, _ :: _, [] => .isTrue trivial
  | team, team', turn :: turns, turn' :: turns' =>
      have := Along.decidable (team.take turn) (team'.take turn') turns turns'
      inferInstanceAs (Decidable (_ ∧ _))

/-- A condition that follows from an invariant of the first team. -/
theorem Along.of_invariant {inv : Team N σ Q A ε → Prop} {turns : List (Turn N σ Q A ε)}
    (keeps : ∀ turn ∈ turns, ∀ team, inv team → inv (team.take turn))
    (holds : ∀ turn team team', inv team → condition team team' turn) {team : Team N σ Q A ε}
    (initially : inv team) (team' : Team N σ Q A ε) (turns' : List (Turn N σ Q A ε)) :
    Along condition team team' turns turns' := by
  induction turns generalizing team team' turns' with
  | nil => exact trivial
  | cons turn turns ih =>
      cases turns' with
      | nil => exact trivial
      | cons turn' turns' =>
          refine ⟨holds turn team team' initially, ih (fun turn later => ?_) ?_ _ _⟩
          · exact keeps turn (List.mem_cons_of_mem _ later)
          · exact keeps turn List.mem_cons_self team initially

/-- **Two runs.** -/
theorem Pace.run {turns turns' : List (Turn N σ Q A ε)}
    (alike : List.Forall₂ (Turn.Alike C) turns turns')
    (fair : ∀ turn ∈ turns, ∀ team team' : Team N σ Q A ε, Pace C R team team' →
      condition team team' turn → Fair C R team team' turn)
    {team team' : Team N σ Q A ε} (pace : Pace C R team team')
    (along : Along condition team team' turns turns') :
      Pace C R (team.run turns) (team'.run turns') := by
  induction alike generalizing team team' with
  | nil => exact pace
  | cons here _ ih =>
      have now := fair _ List.mem_cons_self team team' pace along.1
      exact ih (fun turn later => fair turn (List.mem_cons_of_mem _ later))
        (pace.take here now) along.2

end Team
