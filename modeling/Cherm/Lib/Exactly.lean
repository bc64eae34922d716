/-
**Programs that make a counted request so many times.**

`Prog.Exactly` says that all requests of a program are good, that on every path `n` of them are
counted, and that what is returned meets a condition.

* `Exactly.bind`: the counts of two parts add up.
* `Exactly.seq_free`: a part in which nothing is counted comes first.
-/

import Cherm.Lib.Prog

namespace Prog

variable {Q ε α β : Type} {A : Q → Type}

def Exactly (good : Q → Prop) (counted : Q → Bool) (post : α → Prop) :
    Nat → Prog Q A ε α → Prop
  | n, done value => n = 0 ∧ post value
  | _, fail _ => False
  | n, ask request next => good request ∧
      if counted request = true then
        ∃ m, n = m + 1 ∧ ∀ answer, Exactly good counted post m (next answer)
      else ∀ answer, Exactly good counted post n (next answer)

variable {good : Q → Prop} {counted : Q → Bool} {post : α → Prop} {post' : β → Prop} {n m : Nat}

theorem Exactly.done {value : α} (meets : post value) :
    Exactly good counted post 0 (done value : Prog Q A ε α) := ⟨rfl, meets⟩

/-- A request that is not counted. -/
theorem Exactly.free {request : Q} {next : A request → Prog Q A ε α} (allowed : good request)
    (uncounted : counted request = false)
    (rest : ∀ answer, Exactly good counted post n (next answer)) :
    Exactly good counted post n (ask request next) := by
  refine ⟨allowed, ?_⟩
  rw [if_neg (by rw [uncounted]; exact Bool.false_ne_true)]
  exact rest

/-- A request that is. -/
theorem Exactly.count {request : Q} {next : A request → Prog Q A ε α} (allowed : good request)
    (one : counted request = true)
    (rest : ∀ answer, Exactly good counted post n (next answer)) :
    Exactly good counted post (n + 1) (ask request next) := by
  refine ⟨allowed, ?_⟩
  rw [if_pos one]
  exact ⟨n, rfl, rest⟩

/-- **The counts add up.** -/
theorem Exactly.bind {p : Prog Q A ε α} {f : α → Prog Q A ε β}
    (first : Exactly good counted post n p)
    (rest : ∀ value, post value → Exactly good counted post' m (f value)) :
    Exactly good counted post' (n + m) (p.bind f) := by
  induction p generalizing n with
  | done value =>
      obtain ⟨rfl, meets⟩ := first
      rw [Nat.zero_add]
      exact rest value meets
  | fail error => exact first.elim
  | ask request next ih =>
      obtain ⟨allowed, paths⟩ := first
      cases one : counted request with
      | true =>
          rw [if_pos one] at paths
          obtain ⟨k, rfl, paths⟩ := paths
          rw [Nat.add_right_comm]
          exact .count allowed one fun answer => ih answer (paths answer)
      | false =>
          rw [if_neg (by rw [one]; exact Bool.false_ne_true)] at paths
          exact .free allowed one fun answer => ih answer (paths answer)

theorem Exactly.seq_free {p : Prog Q A ε α} {f : α → Prog Q A ε β}
    (first : Exactly good counted post 0 p)
    (rest : ∀ value, post value → Exactly good counted post' n (f value)) :
    Exactly good counted post' n (p.bind f) := by
  have both := first.bind rest
  rw [Nat.zero_add] at both
  exact both

/-! ### What a request leaves -/

/-- After an answer, so many are left. -/
theorem Exactly.after {request : Q} {next : A request → Prog Q A ε α}
    (exact : Exactly good counted post n (ask request next)) (answer : A request) :
    good request ∧ Exactly good counted post (if counted request = true then n - 1 else n)
      (next answer) ∧ (counted request = true → 0 < n) := by
  obtain ⟨allowed, paths⟩ := exact
  refine ⟨allowed, ?_⟩
  cases one : counted request with
  | true =>
      rw [if_pos one] at paths
      obtain ⟨k, rfl, paths⟩ := paths
      exact ⟨paths answer, fun _ => Nat.succ_pos k⟩
  | false =>
      rw [if_neg (by rw [one]; exact Bool.false_ne_true)] at paths
      exact ⟨paths answer, nofun⟩

end Prog
